/-
Fast recovery and slow start over the history of a connection: when recovery
is entered and what ends it, what a retransmission timeout leaves. `dupacks` is
an 8-bit count that only the end of recovery resets, and a timeout touches
neither it nor `in_recovery`; what follows holds as long as no event finds them
in a state where that matters.
-/
import LevelIp.CongInvariant

namespace LevelIp

/-! ## The events that matter -/

/-- The operation leaves `dupacks`, `in_recovery` and `ssthresh` alone. -/
def CongOp.plain : CongOp → Bool
  | .acked _ | .queued _ | .sent _ | .pmtu _ => true
  | .dup | .exit | .timeout => false

namespace Conn

/-- The segment is handled as a duplicate ACK. -/
def hearsDup (c : Conn) : Event → Bool
  | .segment th data psh =>
    !c.sk.fault && c.sk.state.takesAck && c.sk.core.Heard th (tcpInitSegment th data psh) &&
      tcpIsDupack c.sk th (tcpInitSegment th data psh)
  | _ => false

/-- The segment is taken as a new ACK. -/
def hearsNew (c : Conn) : Event → Bool
  | .segment th data psh =>
    !c.sk.fault && (c.sk.state.takesAck || (c.sk.state = .synReceived && c.sk.ptsk.isSome)) &&
      c.sk.core.Heard th (tcpInitSegment th data psh) && ackIsNew c.sk th
  | _ => false

/-- `tcp_enter_fast_recovery` is executed. -/
def entersRecovery (c : Conn) (e : Event) : Bool := c.hearsDup e && c.sk.dupacks + 1 = 3

/-- `tcp_retransmission_timeout` sets `cwnd` to one segment. -/
def timesOut (c : Conn) : Event → Bool
  | .handler i =>
    !c.sk.fault && match c.sk.spawned[i]? with
      | some (.retransmissionTimeout n) => n = c.sk.rtoEpoch && !c.sk.writeQueue.isEmpty
      | _ => false
  | _ => false

/-- `tcp_abort` is executed, by the user or the user timeout. -/
def aborts (c : Conn) : Event → Bool
  | .abort => !c.sk.fault
  | .handler i => !c.sk.fault && c.sk.spawned[i]? = some .userTimeout
  | _ => false

variable {c : Conn} {e : Event} {th : Tcphdr} {data : Payload} {psh : Bool}

/-- A segment with an ACK field is past CLOSED, LISTEN and SYN_SENT. -/
theorem congOps_heard (hf : c.sk.fault = false)
    (hs : c.sk.state.takesAck ∨ c.sk.state = .synReceived) (hh : c.sk.core.Heard th (tcpInitSegment th data psh)) :
    c.congOps (.segment th data psh) = heardOps c.sk th (tcpInitSegment th data psh) := by
  simp only [congOps, hf, Bool.false_eq_true, if_false, segmentOps]
  cases hst : c.sk.state <;> simp_all [TcpState.takesAck]

theorem congOps_dup (h : c.hearsDup (.segment th data psh)) : c.congOps (.segment th data psh) = dupackOps c.sk := by
  simp only [hearsDup, Bool.and_eq_true, Bool.not_eq_true'] at h
  obtain ⟨⟨⟨hf, hs⟩, hh⟩, hd⟩ := h
  rw [congOps_heard hf (.inl hs) hh, heardOps, ackField_synchronized hs, ackFieldOps, if_pos hs, ackOps, if_pos hd,
    ackSynchronized, if_pos hd, List.append_nil]

/-- The operations are those of `tcp_send_next`. -/
def Sends (ops : List CongOp) : Prop := ∀ op ∈ ops, ∃ n, op = .sent n

end Conn

theorem cleanOps_plain_all (a : U32) (q : List Skb) : ∀ op ∈ cleanOps a q, op.plain := fun op hop => by
  obtain ⟨k, -, rfl⟩ := List.mem_map.mp hop
  rfl

theorem sendNextOps_sends (limit : U32) (amount : Nat) (q : List Skb) (fl : U32) :
    Conn.Sends (sendNextOps limit amount q fl) := by
  induction q generalizing amount fl with
  | nil => cases amount <;> simp [sendNextOps, Conn.Sends]
  | cons k q ih =>
    cases amount with
    | zero => simp [sendNextOps, Conn.Sends]
    | succ amount =>
      rw [sendNextOps]
      split
      · exact ih amount fl
      · split
        · simp [Conn.Sends]
        · exact List.forall_mem_cons.mpr ⟨⟨_, rfl⟩, ih _ _⟩

theorem afterAckOps_sends (s : TcpSock) (th : Tcphdr) (skb : Skb) : Conn.Sends (afterAckOps s th skb) := by
  have none : Conn.Sends [] := nofun
  unfold afterAckOps
  split
  · exact none
  · dsimp only
    split
    · exact none
    · unfold ackDataOps
      split
      · exact sendNextOps_sends _ _ _ _
      · exact none

namespace Conn

variable {c : Conn} {e : Event} {th : Tcphdr} {data : Payload} {psh : Bool}

theorem heardOps_rest (s : TcpSock) (th : Tcphdr) (skb : Skb) : ∃ l, heardOps s th skb = ackFieldOps s th skb ++ l ∧ Sends l := by
  unfold heardOps
  cases ackField s th skb with
  | ret t => exact ⟨[], rfl, nofun⟩
  | next t => exact ⟨_, rfl, afterAckOps_sends t th skb⟩

theorem congOps_new (h : c.hearsNew (.segment th data psh)) :
    ∃ l, c.congOps (.segment th data psh) = newAckOps c.sk th.ackSeq ++ l ∧ Sends l := by
  simp only [hearsNew, Bool.and_eq_true, Bool.not_eq_true', Bool.or_eq_true, decide_eq_true_eq] at h
  obtain ⟨⟨⟨hf, hs⟩, hh⟩, hn⟩ := h
  rw [congOps_heard hf (hs.imp_right And.left) hh]
  obtain ⟨l, hl, hsends⟩ := heardOps_rest c.sk th (tcpInitSegment th data psh)
  refine ⟨l, ?_, hsends⟩
  have hops : ackFieldOps c.sk th (tcpInitSegment th data psh) = newAckOps c.sk th.ackSeq := by
    unfold ackFieldOps ackOps
    rcases hs with hs | ⟨hs, hp⟩
    · rw [if_pos hs, tcpIsDupack_of_new _ hn, if_neg (by simp), if_pos hn]
    · rw [if_neg (by simp [hs, TcpState.takesAck]), if_pos ⟨hs, hp, hn⟩]
  rw [hl, hops]

theorem congOps_timeout (h : c.timesOut e) : c.congOps e = [.timeout] := by
  cases e with
  | handler i =>
    simp only [timesOut, Bool.and_eq_true, Bool.not_eq_true'] at h
    obtain ⟨hf, hm⟩ := h
    split at hm
    next n hi =>
      simp only [Bool.and_eq_true, decide_eq_true_eq, Bool.not_eq_true'] at hm
      simp [congOps, hf, hi, handlerOps, hm.1, hm.2]
    next => cases hm
  | _ => cases h

/-- Every other event leaves duplicates, recovery and `ssthresh` alone. -/
theorem congOps_plain (hd : c.hearsDup e = false) (hn : c.hearsNew e = false) (ht : c.timesOut e = false) :
    ∀ op ∈ c.congOps e, op.plain := by
  have sends : ∀ {l : List CongOp}, Sends l → ∀ op ∈ l, op.plain := fun h op hop => by
    obtain ⟨n, rfl⟩ := h op hop
    rfl
  have chunks : ∀ mss fuel s buf, ∀ op ∈ chunkOps mss fuel s buf, op.plain := by
    intro mss fuel
    induction fuel with
    | zero => intro s buf; cases buf <;> simp [chunkOps]
    | succ fuel ih =>
      intro s buf
      cases buf with
      | nil => simp [chunkOps]
      | cons x xs =>
        simp only [chunkOps]
        split
        · exact List.forall_mem_cons.mpr ⟨rfl, ih _ _⟩
        · simp
  have fin : ∀ s, ∀ op ∈ finOps s, op.plain := fun s => by
    unfold finOps
    split <;> simp [CongOp.plain]
  unfold congOps
  split
  · simp
  next hf =>
    have hf : c.sk.fault = false := by simpa using hf
    cases e with
    | segment th data psh =>
      dsimp only
      unfold segmentOps
      have heard : (c.sk.state.takesAck ∨ c.sk.state = .synReceived ∨ c.sk.state = .timeWait) →
          ∀ op ∈ (if c.sk.core.Heard th (tcpInitSegment th data psh) then heardOps c.sk th (tcpInitSegment th data psh)
            else []), op.plain := fun hs => by
        split
        next hh =>
          obtain ⟨l, hl, hsends⟩ := heardOps_rest c.sk th (tcpInitSegment th data psh)
          have hnil : ackFieldOps c.sk th (tcpInitSegment th data psh) = [] := by
            simp only [hearsDup, hearsNew, hf, hh, Bool.not_false, Bool.true_and, Bool.and_true] at hd hn
            unfold ackFieldOps ackOps
            rcases hs with hs | hs | hs
            · simp only [hs, Bool.true_and, Bool.true_or] at hd hn
              simp [hs, hd, hn]
            · simp only [hs, TcpState.takesAck, decide_true, Bool.true_and, Bool.and_eq_false_iff, Bool.false_or] at hn
              rcases hn with hn | hn <;> simp [hs, hn, TcpState.takesAck]
            · simp [hs, TcpState.takesAck]
          rw [hl, hnil]
          exact sends hsends
        next => simp
      cases hs : c.sk.state
      case close | listen => simp
      case synSent =>
        dsimp only
        unfold synsentOps
        repeat' split
        all_goals simp only [List.not_mem_nil, false_implies, implies_true, List.append_nil, List.nil_append,
          List.mem_append, List.mem_singleton, forall_eq]
        all_goals first
          | exact cleanOps_plain_all _ _ | rfl | exact fun op h => h.elim (cleanOps_plain_all _ _ op) fun h => h ▸ rfl
      all_goals exact heard (by rw [hs]; simp [TcpState.takesAck])
    | write buf =>
      dsimp only
      split
      · exact chunks _ _ _ _
      · simp
    | close =>
      dsimp only [closeOps]
      split
      · exact fin _
      · simp
    | resume i =>
      dsimp only
      split
      · simp
      next call _ =>
        cases call with
        | send mss chunk rest len =>
          simp only [callOps]
          split
          · exact List.forall_mem_cons.mpr ⟨rfl, chunks _ _ _ _⟩
          · simp
        | fin lastAck => exact fin _
        | recv len got => simp [callOps]
    | handler i =>
      simp only [timesOut, hf, Bool.not_false, Bool.true_and] at ht
      dsimp only
      cases hi : c.sk.spawned[i]? with
      | none => simp
      | some h =>
        rw [hi] at ht
        cases h with
        | retransmissionTimeout n =>
          have ht : (n = c.sk.rtoEpoch && !c.sk.writeQueue.isEmpty) = false := ht
          have hn : ¬(n = c.sk.rtoEpoch ∧ (!c.sk.writeQueue.isEmpty) = true) := by
            rintro ⟨h1, h2⟩
            simp [h1, h2] at ht
          simp only [handlerOps, if_neg hn]
          simp
        | _ => simp [handlerOps]
    | adjustPmtu6 mss => simp [CongOp.plain]
    | _ => simp

end Conn

/-! ## `snd_una` -/

theorem tcpSendNext_una (s : TcpSock) (amount : Nat) (extra : U32) :
    (tcpSendNext s amount extra).core.snd.una = s.core.snd.una := by
  obtain ⟨es, d', -, hc, hn⟩ := tcpSendNext_spec s amount extra
  rw [hc]
  exact hn.una

theorem tcpHandleDupack_una (s : TcpSock) : (tcpHandleDupack s).core.snd.una = s.core.snd.una := by
  have hd : (dupackAction { s with dupacks := s.dupacks + 1 }).1.core = s.core := dupackAction_core _
  unfold tcpHandleDupack
  dsimp only
  split
  · rw [tcpSendNext_una, hd]
  · rw [hd]

theorem ackSynchronized_una (s : TcpSock) (th : Tcphdr) (skb : Skb) :
    (ackSynchronized s th skb).sock.core.snd.una = if ackIsNew s th then th.ackSeq else s.core.snd.una := by
  unfold ackSynchronized
  split
  next hd =>
    have hn : ¬ackIsNew s th := fun hn => by
      rw [tcpIsDupack_of_new skb hn] at hd
      cases hd
    rw [if_neg hn]
    exact tcpHandleDupack_una s
  next =>
    rcases ackTaken_cases s th with ⟨hn, ht⟩ | ⟨hn, ht⟩
    · rw [ht, (ackChecked_idle (ackIsNew_newAck s th)).2, newAck_core, if_pos hn]
      rfl
    · rw [ht, (ackChecked_idle hn).2, if_neg (by simp [hn])]

theorem ackField_una (s : TcpSock) (th : Tcphdr) (skb : Skb) : (ackField s th skb).sock.core.snd.una =
    if (s.state.takesAck || (s.state = .synReceived && s.ptsk.isSome)) && ackIsNew s th then th.ackSeq
    else s.core.snd.una := by
  by_cases ht : s.state.takesAck
  · rw [ackField_synchronized ht, ackSynchronized_una, ht, Bool.true_or, Bool.true_and]
  · by_cases hs : s.state = .synReceived
    · simp only [ackField, hs, TcpState.takesAck, decide_true, Bool.true_and, Bool.false_or]
      cases hn : ackIsNew s th with
      | false => simp [Ctl.sock]
      | true =>
        have hp' : (s.setState .established).ptsk = s.ptsk := rfl
        simp only [if_true, hp', Bool.and_true]
        cases hp : s.ptsk with
        | none => rfl
        | some p =>
          have hn' : ackIsNew (((s.setState .established).emit (.acceptQueue p)).wakeup .acceptWait) th := hn
          dsimp only
          rw [ackSynchronized_una, if_pos hn']
          rfl
    · have h : ackField s th skb = .next s := by
        unfold ackField
        cases h : s.state <;> simp_all [TcpState.takesAck]
      rw [h]
      simp [ht, hs, Ctl.sock]

theorem afterAck_una (s : TcpSock) (th : Tcphdr) (skb : Skb) : (afterAck s th skb).sock.core.snd.una = s.core.snd.una := by
  have hd := finAcked_snd s th
  unfold afterAck
  generalize finAcked s th = k at hd
  cases k with
  | ret t => exact congrArg SndSide.una hd
  | next t =>
    simp only [Ctl.andThen]
    have hd := hd ▸ (finBit_snd (segmentText t th skb) th (skb.seq = t.tcb.rcvNxt)).trans (segmentText_snd t th skb)
    generalize finBit (segmentText t th skb) th (skb.seq = t.tcb.rcvNxt) = k at hd
    cases k with
    | ret u => exact congrArg SndSide.una hd
    | next u =>
      obtain ⟨d, hc, hu⟩ := ackData_core u th skb (skb.seq = t.tcb.rcvNxt)
      simp only [Ctl.sock] at hd ⊢
      rw [hc, hu, hd]

theorem tcpInputOtherwise_una (s : TcpSock) (th : Tcphdr) (skb : Skb) : (tcpInputOtherwise s th skb).core.snd.una =
    if s.core.Heard th skb && ((s.state.takesAck || (s.state = .synReceived && s.ptsk.isSome)) && ackIsNew s th) then th.ackSeq
    else s.core.snd.una := by
  have hv : s.core.rcv.verify th skb = tcpVerifySegment s th skb := rfl
  have heard : ((ackField s th skb).andThen fun s => afterAck s th skb).sock.core.snd.una =
      (ackField s th skb).sock.core.snd.una := by
    cases ackField s th skb with
    | ret t => rfl
    | next t => exact afterAck_una t th skb
  unfold tcpInputOtherwise Core.Heard
  rw [hv]
  cases tcpVerifySegment s th skb
  case false =>
    simp only [Bool.not_false, if_true, Bool.false_and, Bool.false_eq_true, if_false]
    split
    · rw [(quiet_tcpSendAck s).core]
    · rfl
  case true =>
    cases th.rst
    case true =>
      simp only [Bool.not_true, Bool.and_false, Bool.false_and, Bool.false_eq_true, if_false, if_true]
      exact congrArg (·.snd.una) (tcpEnterTimeWait_core s)
    case false =>
      cases th.syn
      case true => simp
      case false =>
        cases th.ack
        case false => simp
        case true =>
          simp only [Bool.not_true, Bool.false_eq_true, if_false, Bool.not_false, Bool.and_self, Bool.true_and]
          rw [heard, ackField_una]

/-- Neither an arrival nor an abort, a move leaves `snd_una` alone. -/
theorem Move.una {a : Act} {c c' : Core} {es : List Effect} (hm : Move a c es c') (h1 : ∀ c₀ th skb, a ≠ .arrive c₀ th skb)
    (h2 : a ≠ .abort) (h3 : a ≠ .fire .userTimeout true) : c'.snd.una = c.snd.una := by
  cases hm with
  | ack | sendNext | connect | simultaneous | reset => exact absurd rfl (h1 _ _ _)
  | userTimeout => exact absurd rfl h3
  | abort => exact absurd rfl h2
  | _ => rfl

/-- The states before a connection is established, or without one. -/
def TcpState.early : TcpState → Bool
  | .listen | .synSent | .synReceived | .close => true
  | .established | .finWait1 | .finWait2 | .closeWait | .closing | .lastAck | .timeWait => false

theorem Move.early {a : Act} {c c' : Core} {es : List Effect} (hm : Move a c es c') (h : c'.state.early) : c.state.early := by
  cases hm with
  | simultaneous hs => rw [hs]; rfl
  | fin =>
    simp only [Core.finState] at h
    split at h
    case h_3 => split at h <;> cases h
    all_goals first | exact h | cases h
  | queueFin lastAck =>
    cases lastAck
    · exact h
    · cases h
  | _ => first | exact h | cases h

/-- Past CLOSED, LISTEN and SYN_SENT a segment goes through the common stages. -/
theorem segmentArrives_otherwise {s : TcpSock} (h : s.state.early = false ∨ s.state = .synReceived) (th : Tcphdr) (skb : Skb) :
    segmentArrives s th skb = tcpInputOtherwise s th skb := by
  unfold segmentArrives
  cases hs : s.state <;> simp_all [TcpState.early]

namespace Conn

variable {c : Conn} {e : Event} {th : Tcphdr} {data : Payload} {psh : Bool}

theorem step_segment (hf : c.sk.fault = false) :
    (c.step (.segment th data psh)).sk = segmentArrives c.sk th (tcpInitSegment th data psh) := by
  rw [step, if_neg (by simp [hf])]

/-- A duplicate leaves `snd_una` where it is. -/
theorem step_una_dup (h : c.hearsDup e) : (c.step e).sk.tcb.sndUna = c.sk.tcb.sndUna := by
  cases e with
  | segment th data psh =>
    simp only [hearsDup, Bool.and_eq_true, Bool.not_eq_true'] at h
    obtain ⟨⟨⟨hf, hs⟩, -⟩, hd⟩ := h
    have hn : ackIsNew c.sk th = false := by
      by_contra hn
      rw [tcpIsDupack_of_new _ (by simpa using hn)] at hd
      cases hd
    have hu := tcpInputOtherwise_una c.sk th (tcpInitSegment th data psh)
    rw [hn, Bool.and_false, Bool.and_false, if_neg (by simp)] at hu
    rw [step_segment hf, segmentArrives_otherwise (by cases hst : c.sk.state <;> simp_all [TcpState.takesAck, TcpState.early])]
    exact hu
  | _ => cases h

/-- A new ACK moves `snd_una`. -/
theorem step_una_new (h : c.hearsNew e) : (c.step e).sk.tcb.sndUna ≠ c.sk.tcb.sndUna := by
  cases e with
  | segment th data psh =>
    simp only [hearsNew, Bool.and_eq_true, Bool.not_eq_true'] at h
    obtain ⟨⟨⟨hf, hs⟩, hh⟩, hn⟩ := h
    have hu := tcpInputOtherwise_una c.sk th (tcpInitSegment th data psh)
    rw [hh, hs, hn, Bool.and_self, Bool.and_self, if_pos rfl] at hu
    rw [step_segment hf, segmentArrives_otherwise (by cases hst : c.sk.state <;> simp_all [TcpState.takesAck, TcpState.early])]
    have hlt : c.sk.tcb.sndUna < th.ackSeq := by
      simp only [ackIsNew, Bool.and_eq_true, decide_eq_true_eq] at hn
      exact hn.1
    exact fun he => BitVec.ne_of_lt hlt (he.symm.trans hu)
  | _ => cases h

/-- Once the connection is established, only new ACKs and aborts move `snd_una`. -/
theorem step_una_other (hr : c.Ready) (hs : c.sk.state.early = false) (hn : c.hearsNew e = false) (ha : c.aborts e = false) :
    (c.step e).sk.tcb.sndUna = c.sk.tcb.sndUna := by
  by_cases hf : c.sk.fault
  · rw [step_of_fault hf]
  · have hf : c.sk.fault = false := by simpa using hf
    by_cases hseg : ∃ th data psh, e = .segment th data psh
    · obtain ⟨th, data, psh, rfl⟩ := hseg
      have hu := tcpInputOtherwise_una c.sk th (tcpInitSegment th data psh)
      simp only [hearsNew, hf, Bool.not_false, Bool.true_and] at hn
      have hcond : (c.sk.core.Heard th (tcpInitSegment th data psh) &&
          ((c.sk.state.takesAck || (c.sk.state = .synReceived && c.sk.ptsk.isSome)) && ackIsNew c.sk th)) = false := by
        rw [← hn, ← Bool.and_assoc, Bool.and_comm (c.sk.core.Heard _ _)]
      rw [hcond, if_neg (by simp)] at hu
      rw [step_segment hf, segmentArrives_otherwise (.inl hs)]
      exact hu
    · obtain ⟨es, -, hm⟩ := step_moves hr e
      have h1 := not_arrive (c := c) fun th data psh he => hseg ⟨th, data, psh, he⟩
      have h2 : c.act e ≠ .abort := fun h => by
        cases e with
        | abort => simp [aborts, hf] at ha
        | resume i => simp only [act] at h; split at h <;> cases h
        | handler i => simp only [act] at h; split at h <;> cases h
        | _ => cases h
      have h3 : c.act e ≠ .fire .userTimeout true := fun h => by
        cases e with
        | handler i =>
          simp only [act] at h
          split at h
          · cases h
          next hd hi =>
            have hut : hd = .userTimeout := by
              injection h
            rw [hut] at hi
            simp [aborts, hf, hi] at ha
        | resume i => simp only [act] at h; split at h <;> cases h
        | _ => cases h
      exact hm.keeps_core (I := fun k => k.snd.una = c.sk.tcb.sndUna) (fun hmv hk => (hmv.una h1 h2 h3).trans hk) rfl

/-- An abort moves `snd_una` to `snd_nxt`. -/
theorem step_una_aborts (h : c.aborts e) : (c.step e).sk.tcb.sndUna = c.sk.tcb.sndNxt := by
  cases e with
  | abort =>
    have hf : c.sk.fault = false := by simpa [aborts] using h
    rw [step, if_neg (by simp [hf])]
    exact congrArg (·.snd.una) (tcpAbort_core c.sk)
  | handler i =>
    simp only [aborts, Bool.and_eq_true, Bool.not_eq_true', decide_eq_true_eq] at h
    obtain ⟨hf, hi⟩ := h
    rw [step, if_neg (by simp [hf])]
    simp only [handle, hi, runHandler, tcpUserTimeout]
    have hq := quiet_tcpStopLinger { c.sk with spawned := c.sk.spawned.eraseIdx i }
    refine (congrArg (·.snd.una) (tcpAbort_core _)).trans ?_
    rw [hq.core]
    rfl
  | _ => cases h

end Conn

/-! ## What each event does to `dupacks`, `in_recovery` and `ssthresh` -/

/-- `dupacks`, `in_recovery` and `ssthresh`. -/
def Cong.flags (g : Cong) : U8 × Bool × U32 := (g.dupacks, g.inRecovery, g.ssthresh)

theorem apply_flags {op : CongOp} (h : op.plain) (g : Cong) : (g.apply op).flags = g.flags := by
  cases op with
  | acked n =>
    simp only [Cong.apply, Cong.avoid]
    repeat' split
    all_goals rfl
  | pmtu mss =>
    simp only [Cong.apply]
    split <;> rfl
  | queued n | sent n => rfl
  | dup | exit | timeout => cases h

theorem applyAll_flags {ops : List CongOp} (h : ∀ op ∈ ops, op.plain) (g : Cong) : (g.applyAll ops).flags = g.flags :=
  Cong.applyAll_keeps (P := fun k => k.flags = g.flags) (fun k op hop hk => (apply_flags (h op hop) k).trans hk) rfl

/-- `tcp_send_next` leaves `cwnd` alone as well. -/
theorem Conn.Sends.keeps {ops : List CongOp} (h : Conn.Sends ops) (g : Cong) :
    (g.applyAll ops).flags = g.flags ∧ (g.applyAll ops).cwnd = g.cwnd :=
  Cong.applyAll_keeps (P := fun k => k.flags = g.flags ∧ k.cwnd = g.cwnd)
    (fun k op hop hk => by
      obtain ⟨n, rfl⟩ := h op hop
      exact hk) ⟨rfl, rfl⟩

namespace Conn

variable {c : Conn} {e : Event}

/-- A duplicate counts, and the third starts recovery. -/
theorem step_dup (h : c.hearsDup e) : (c.step e).sk.cong.flags = (c.sk.cong.apply .dup).flags := by
  cases e with
  | segment th data psh =>
    rw [(step_flows c _).cong, congOps_dup h, dupackOps, Cong.applyAll_cons]
    exact ((sendNextOps_sends _ _ _ _).keeps _).1
  | _ => cases h

/-- A new ACK ends recovery, with `cwnd` at `ssthresh`. -/
theorem step_new (h : c.hearsNew e) (hr : c.sk.inRecovery) :
    (c.step e).sk.cong.flags = (0, false, c.sk.ssthresh) ∧ (c.step e).sk.cwnd = c.sk.ssthresh := by
  cases e with
  | segment th data psh =>
    obtain ⟨l, hl, hsends⟩ := congOps_new h
    have hclean := applyAll_flags (cleanOps_plain_all th.ackSeq c.sk.writeQueue) c.sk.cong
    have hss : (c.sk.cong.applyAll (cleanOps th.ackSeq c.sk.writeQueue)).ssthresh = c.sk.ssthresh :=
      congrArg (·.2.2) hclean
    have hc : (c.step (.segment th data psh)).sk.cong =
        ((c.sk.cong.applyAll (cleanOps th.ackSeq c.sk.writeQueue)).apply .exit).applyAll l := by
      rw [(step_flows c _).cong, hl, newAckOps, if_pos hr, Cong.applyAll_append, Cong.applyAll_append]
      rfl
    obtain ⟨h1, h2⟩ := hsends.keeps ((c.sk.cong.applyAll (cleanOps th.ackSeq c.sk.writeQueue)).apply .exit)
    rw [← hc] at h1 h2
    refine ⟨h1.trans ?_, h2.trans hss⟩
    rw [← hss]
    rfl
  | _ => cases h

/-- Outside recovery a new ACK leaves them alone. -/
theorem step_new_outside (h : c.hearsNew e) (hr : c.sk.inRecovery = false) :
    (c.step e).sk.cong.flags = c.sk.cong.flags := by
  cases e with
  | segment th data psh =>
    obtain ⟨l, hl, hsends⟩ := congOps_new h
    rw [(step_flows c _).cong, hl, newAckOps, if_neg (by simp [hr]), List.append_nil, Cong.applyAll_append]
    exact ((hsends.keeps _).1).trans (applyAll_flags (cleanOps_plain_all _ _) _)
  | _ => cases h

theorem step_timeout (h : c.timesOut e) : (c.step e).sk.cong = c.sk.cong.apply .timeout := by
  rw [(step_flows c e).cong, congOps_timeout h]
  rfl

theorem step_plain (hd : c.hearsDup e = false) (hn : c.hearsNew e = false) (ht : c.timesOut e = false) :
    (c.step e).sk.cong.flags = c.sk.cong.flags := by
  rw [(step_flows c e).cong]
  exact applyAll_flags (congOps_plain hd hn ht) _

end Conn

/-! ## The history -/

/-- A connection with what has happened to it: the duplicate ACKs and the
entries into recovery since `snd_una` last moved, what the last entry made of
FlightSize, and whether the last loss event was a timeout. -/
structure History where
  conn : Conn
  dups : Nat := 0
  entries : Nat := 0
  target : U32 := 0
  slow : Bool := false
deriving DecidableEq

namespace History

/-- `snd_una` moves. -/
def moves (h : History) (e : Event) : Bool := (h.conn.step e).sk.tcb.sndUna ≠ h.conn.sk.tcb.sndUna

def step (h : History) (e : Event) : History :=
  { conn := h.conn.step e
    dups := if h.moves e then 0 else if h.conn.hearsDup e then h.dups + 1 else h.dups
    entries := if h.moves e then 0 else if h.conn.entersRecovery e then h.entries + 1 else h.entries
    target := if h.conn.entersRecovery e then umax (h.conn.sk.inflight / 2) (2 * U16.wide h.conn.sk.smss) else h.target
    slow := if h.conn.timesOut e then true else if h.conn.entersRecovery e then false else h.slow }

abbrev Meets (ok : History → Event → Prop) (h : History) (es : List Event) : Prop := Machine.Meets step ok h es

end History

/-- What the count and the flag say of the history. -/
structure Tracked (h : History) : Prop where
  ready : h.conn.Ready
  early : h.conn.sk.state.early → h.conn.sk.dupacks = 0
  counts : h.conn.sk.inRecovery = true ↔ 3 ≤ h.conn.sk.dupacks.toNat
  dups : h.conn.sk.dupacks.toNat ≤ h.dups
  entries : h.conn.sk.inRecovery = false → h.entries = 0
  target : h.conn.sk.inRecovery → h.conn.sk.ssthresh = h.target

/-- What an event may find: a duplicate a count that does not wrap, a new ACK
outside recovery no duplicates counted, a timeout in recovery the threshold it
would set, and an abort no duplicates counted unless it leaves `snd_una` alone. -/
def RecoveryOk (h : History) (e : Event) : Prop :=
  (h.conn.hearsDup e → h.conn.sk.dupacks ≠ 255) ∧
  (h.conn.hearsNew e → h.conn.sk.inRecovery ∨ h.conn.sk.dupacks = 0) ∧
  (h.conn.timesOut e → h.conn.sk.inRecovery → umax (h.conn.sk.inflight / 2) (2 * U16.wide h.conn.sk.smss) = h.conn.sk.ssthresh) ∧
  (h.conn.aborts e → h.conn.sk.dupacks = 0 ∨ h.conn.sk.tcb.sndUna = h.conn.sk.tcb.sndNxt)

/-- Recovery is entered on the third duplicate at least, and not twice before
`snd_una` moves; the new ACK that ends it leaves `cwnd` at what the entry made
of FlightSize. -/
def RecoveryLaw (h : History) (e : Event) : Prop :=
  (h.conn.entersRecovery e → 3 ≤ h.dups + 1 ∧ h.entries = 0) ∧
  (h.conn.hearsNew e → h.conn.sk.inRecovery → (h.conn.step e).sk.cwnd = h.target)

instance (h : History) (e : Event) : Decidable (RecoveryOk h e) := inferInstanceAs (Decidable (_ ∧ _))

instance (h : History) (e : Event) : Decidable (RecoveryLaw h e) := inferInstanceAs (Decidable (_ ∧ _))

theorem Tracked.law {h : History} (ht : Tracked h) (e : Event) : RecoveryLaw h e := by
  refine ⟨fun he => ?_, fun hn hr => ?_⟩
  · have h2 : h.conn.sk.dupacks = 2 := by
      simp only [Conn.entersRecovery, Bool.and_eq_true, decide_eq_true_eq] at he
      have := he.2
      bv_omega
    have hd := ht.dups
    have hnot : h.conn.sk.inRecovery = false := by
      by_contra hr
      have := ht.counts.mp (by simpa using hr)
      rw [h2] at this
      exact absurd this (by decide)
    rw [h2] at hd
    have : (2 : U8).toNat = 2 := rfl
    exact ⟨by omega, ht.entries hnot⟩
  · rw [(Conn.step_new hn hr).2, ht.target hr]

theorem dup_flags (g : Cong) : (g.apply .dup).flags = if g.dupacks + 1 = 3 then (3, true, g.half)
    else (g.dupacks + 1, g.inRecovery, g.ssthresh) := by
  simp only [Cong.apply, Cong.counted]
  by_cases h : g.dupacks + 1 = 3
  · rw [if_pos h, h]
    rfl
  · rw [if_neg h, if_neg h]
    split <;> rfl

/-- A duplicate keeps track. -/
theorem Tracked.dup {h : History} (ht : Tracked h) {e : Event} (hd : h.conn.hearsDup e) (hw : h.conn.sk.dupacks ≠ 255)
    (hst : (h.step e).conn.sk.state.early → (h.step e).conn.sk.dupacks = 0) : Tracked (h.step e) := by
  have hmv : h.moves e = false := by simp [History.moves, Conn.step_una_dup hd]
  have hf : (h.conn.step e).sk.cong.flags = _ := (Conn.step_dup hd).trans (dup_flags _)
  have hn : (h.conn.sk.dupacks + 1).toNat = h.conn.sk.dupacks.toNat + 1 := by
    have := h.conn.sk.dupacks.isLt
    have hne : h.conn.sk.dupacks.toNat ≠ 255 := fun he => hw (BitVec.eq_of_toNat_eq he)
    rw [BitVec.toNat_add]
    show (_ + 1) % 256 = _
    omega
  have hdups : (h.step e).dups = h.dups + 1 := by simp [History.step, hmv, hd]
  have hle := ht.dups
  by_cases h3 : h.conn.sk.dupacks + 1 = 3
  · have hen : h.conn.entersRecovery e := by rw [Conn.entersRecovery, hd, decide_eq_true h3]; rfl
    rw [if_pos (show h.conn.sk.cong.dupacks + 1 = 3 from h3)] at hf
    have h1 : (h.step e).conn.sk.dupacks = 3 := congrArg (·.1) hf
    have h2 : (h.step e).conn.sk.inRecovery = true := congrArg (·.2.1) hf
    have hss : (h.step e).conn.sk.ssthresh = h.conn.sk.cong.half := congrArg (·.2.2) hf
    have htg : (h.step e).target = h.conn.sk.cong.half := if_pos hen
    refine ⟨Conn.step_ready ht.ready e, hst, ?_, ?_, ?_, fun _ => hss.trans htg.symm⟩
    · rw [h1, h2]
      decide
    · rw [h1, hdups, ← h3, hn]
      omega
    · rw [h2]
      nofun
  · have hen : h.conn.entersRecovery e = false := by rw [Conn.entersRecovery, decide_eq_false h3, Bool.and_false]
    rw [if_neg (show ¬h.conn.sk.cong.dupacks + 1 = 3 from h3)] at hf
    have h1 : (h.step e).conn.sk.dupacks = h.conn.sk.dupacks + 1 := congrArg (·.1) hf
    have h2 : (h.step e).conn.sk.inRecovery = h.conn.sk.inRecovery := congrArg (·.2.1) hf
    have hss : (h.step e).conn.sk.ssthresh = h.conn.sk.ssthresh := congrArg (·.2.2) hf
    have htg : (h.step e).target = h.target := if_neg (by simp [hen])
    have hents : (h.step e).entries = h.entries := by simp [History.step, hmv, hen]
    have hne : (h.conn.sk.dupacks + 1).toNat ≠ 3 := fun he => h3 (BitVec.eq_of_toNat_eq he)
    refine ⟨Conn.step_ready ht.ready e, hst, ?_, ?_, ?_, ?_⟩
    · rw [h1, h2, ht.counts]
      omega
    · rw [h1, hdups, hn]
      omega
    · rw [h2, hents]
      exact ht.entries
    · rw [h2, hss, htg]
      exact ht.target

/-- A new ACK starts the history anew. -/
theorem Tracked.new {h : History} (ht : Tracked h) {e : Event} (hn : h.conn.hearsNew e)
    (hok : h.conn.sk.inRecovery ∨ h.conn.sk.dupacks = 0)
    (hst : (h.step e).conn.sk.state.early → (h.step e).conn.sk.dupacks = 0) : Tracked (h.step e) := by
  have hmv : h.moves e := by simpa [History.moves] using Conn.step_una_new hn
  have hents : (h.step e).entries = 0 := if_pos hmv
  have h0 : (h.step e).conn.sk.dupacks = 0 ∧ (h.step e).conn.sk.inRecovery = false := by
    by_cases hr : h.conn.sk.inRecovery
    · have hf := (Conn.step_new hn hr).1
      exact ⟨congrArg (·.1) hf, congrArg (·.2.1) hf⟩
    · have hr : h.conn.sk.inRecovery = false := by simpa using hr
      have hf := Conn.step_new_outside hn hr
      exact ⟨(congrArg (·.1) hf).trans (hok.resolve_left (by simp [hr])), (congrArg (·.2.1) hf).trans hr⟩
  refine ⟨Conn.step_ready ht.ready e, hst, ?_, ?_, fun _ => hents, ?_⟩
  · rw [h0.1, h0.2]
    decide
  · rw [h0.1]
    exact Nat.zero_le _
  · rw [h0.2]
    nofun

/-- An event that leaves count, flag and threshold alone keeps track, if it does
not move `snd_una` while duplicates are counted. -/
theorem Tracked.other {h : History} (ht : Tracked h) {e : Event} (hd : h.conn.hearsDup e = false)
    (h1 : (h.conn.step e).sk.dupacks = h.conn.sk.dupacks) (h2 : (h.conn.step e).sk.inRecovery = h.conn.sk.inRecovery)
    (h3 : h.conn.sk.inRecovery → (h.conn.step e).sk.ssthresh = h.conn.sk.ssthresh)
    (hmv : h.moves e → h.conn.sk.dupacks = 0)
    (hst : (h.step e).conn.sk.state.early → (h.step e).conn.sk.dupacks = 0) : Tracked (h.step e) := by
  have hen : h.conn.entersRecovery e = false := by simp [Conn.entersRecovery, hd]
  have htg : (h.step e).target = h.target := if_neg (by simp [hen])
  have hd' : (h.step e).conn.sk.dupacks = h.conn.sk.dupacks := h1
  have hr' : (h.step e).conn.sk.inRecovery = h.conn.sk.inRecovery := h2
  refine ⟨Conn.step_ready ht.ready e, hst, ?_, ?_, ?_, ?_⟩
  · rw [hd', hr']
    exact ht.counts
  · rw [hd']
    by_cases hm : h.moves e
    · rw [hmv hm]
      exact Nat.zero_le _
    · have : (h.step e).dups = h.dups := by simp [History.step, hm, hd]
      rw [this]
      exact ht.dups
  · rw [hr']
    intro hr
    by_cases hm : h.moves e
    · exact if_pos hm
    · have : (h.step e).entries = h.entries := by simp [History.step, hm, hen]
      rw [this]
      exact ht.entries hr
  · rw [hr', htg]
    exact fun hr => (h3 hr).trans (ht.target hr)

theorem Tracked.outside {h : History} (ht : Tracked h) (h0 : h.conn.sk.dupacks = 0) : h.conn.sk.inRecovery = false := by
  by_contra hr
  have := ht.counts.mp (by simpa using hr)
  rw [h0] at this
  exact absurd this (by decide)

/-- No duplicate is counted before the connection is established. -/
theorem Tracked.step_early {h : History} (ht : Tracked h) (e : Event) (he : (h.step e).conn.sk.state.early) :
    (h.step e).conn.sk.dupacks = 0 := by
  have hearly : h.conn.sk.state.early := by
    obtain ⟨es, -, hm⟩ := Conn.step_moves ht.ready e
    by_contra hne
    exact hm.keeps_core (I := fun k => ¬k.state.early) (fun hmv hk h' => hk (hmv.early h')) hne he
  have h0 := ht.early hearly
  have hd : h.conn.hearsDup e = false := by
    have hs : h.conn.sk.state.takesAck = false := by
      cases hst : h.conn.sk.state <;> simp_all [TcpState.early, TcpState.takesAck]
    cases e <;> simp [Conn.hearsDup, hs]
  by_cases hn : h.conn.hearsNew e
  · exact (congrArg (·.1) (Conn.step_new_outside hn (ht.outside h0))).trans h0
  · by_cases hto : h.conn.timesOut e
    · exact (congrArg Cong.dupacks (Conn.step_timeout hto)).trans h0
    · exact (congrArg (·.1) (Conn.step_plain hd (by simpa using hn) (by simpa using hto))).trans h0

/-- Every event that finds what it may keeps track. -/
theorem Tracked.step {h : History} (ht : Tracked h) {e : Event} (hok : RecoveryOk h e) : Tracked (h.step e) := by
  obtain ⟨hdup, hnew, hto, hab⟩ := hok
  have hst := ht.step_early e
  by_cases hd : h.conn.hearsDup e
  · exact ht.dup hd (hdup hd) hst
  by_cases hn : h.conn.hearsNew e
  · exact ht.new hn (hnew hn) hst
  have hd : h.conn.hearsDup e = false := by simpa using hd
  have hn : h.conn.hearsNew e = false := by simpa using hn
  have hmv : h.moves e → h.conn.sk.dupacks = 0 := fun hm => by
    have hm : (h.conn.step e).sk.tcb.sndUna ≠ h.conn.sk.tcb.sndUna := by simpa [History.moves] using hm
    by_cases he : h.conn.sk.state.early
    · exact ht.early he
    · by_cases ha : h.conn.aborts e
      · rcases hab ha with h0 | hu
        · exact h0
        · exact absurd ((Conn.step_una_aborts ha).trans hu.symm) hm
      · exact absurd (Conn.step_una_other ht.ready (by simpa using he) hn (by simpa using ha)) hm
  by_cases htime : h.conn.timesOut e
  · have hc := Conn.step_timeout htime
    exact ht.other hd (congrArg Cong.dupacks hc) (congrArg Cong.inRecovery hc)
      (fun hr => (congrArg Cong.ssthresh hc).trans (hto htime hr)) hmv hst
  · have hf := Conn.step_plain hd hn (by simpa using htime)
    exact ht.other hd (congrArg (·.1) hf) (congrArg (·.2.1) hf) (fun _ => congrArg (·.2.2) hf) hmv hst

theorem Opened.tracked {iss : U32} {s : TcpSock} (ho : Opened iss s) : Tracked { conn := { sk := s } } := by
  have hc := ho.cong
  have h0 : s.dupacks = 0 := congrArg Cong.dupacks hc
  have hr : s.inRecovery = false := congrArg Cong.inRecovery hc
  refine ⟨Conn.ready_of_no_calls s, fun _ => h0, ?_, ?_, fun _ => rfl, ?_⟩
  · show s.inRecovery = true ↔ 3 ≤ s.dupacks.toNat
    rw [h0, hr]
    decide
  · show s.dupacks.toNat ≤ 0
    rw [h0]
    decide
  · intro h
    exact absurd (hr.symm.trans h) (by simp)

/-- **Fast recovery is entered on a third duplicate.** In every run whose events
find what they may: `tcp_enter_fast_recovery` runs only at the third duplicate
or later since `snd_una` last moved, and once; the new ACK that ends recovery
leaves `cwnd` at max(FlightSize at entry / 2, 2 SMSS). -/
theorem recovery_genuine {iss : U32} {s : TcpSock} (ho : Opened iss s) {es : List Event}
    (hok : History.Meets RecoveryOk { conn := { sk := s } } es) : History.Meets RecoveryLaw { conn := { sk := s } } es :=
  hok.derives (fun _ e hok ht => ⟨Tracked.step ht hok, Tracked.law ht e⟩) ho.tracked

/-- A client whose peer answers 1200 bytes with `n` duplicate ACKs. -/
def dupsRun (n : Nat) : List Event := [synAckEvent, .write (List.replicate 1200 7), ackEvent 101] ++ List.replicate n (ackEvent 101)

/-- Four duplicates and then the ACK that ends recovery. -/
theorem recovery_genuine_four :
    (Machine.run History.step { conn := { sk := activeOpen {} 100 } } (dupsRun 4)).conn.sk.inRecovery = true ∧
    History.Meets RecoveryLaw { conn := { sk := activeOpen {} 100 } } (dupsRun 4 ++ [ackEvent 637]) :=
  ⟨by decide +kernel, recovery_genuine (.active {} 100) (by decide +kernel)⟩

/-- Two duplicates before an ACK count on after it: the first duplicate of the
new `snd_una` enters recovery. -/
theorem recovery_on_first_duplicate :
    let h := Machine.run History.step { conn := { sk := activeOpen {} 100 } } (dupsRun 2 ++ [ackEvent 637])
    h.conn.entersRecovery (ackEvent 637) = true ∧ h.dups = 0 ∧ ¬RecoveryLaw h (ackEvent 637) := by
  decide +kernel

/-! ## After a timeout -/

/-- How many skbs with data an ACK covers. -/
def Conn.coveredData (c : Conn) : Event → Nat
  | .segment th _ _ => ((c.sk.writeQueue.takeWhile (Skb.covered th.ackSeq)).filter (·.dlen ≠ 0)).length
  | _ => 0

/-- A timeout finds no recovery and no duplicates counted; in slow start after
it, an ACK covers at most one skb with data. -/
def SlowStartOk (h : History) (e : Event) : Prop :=
  (h.conn.timesOut e → h.conn.sk.inRecovery = false ∧ h.conn.sk.dupacks = 0) ∧
  (h.slow → h.conn.hearsNew e → h.conn.sk.cwnd < h.conn.sk.ssthresh → h.conn.coveredData e ≤ 1)

/-- A timeout sets `cwnd` to one segment and leaves no recovery and no count;
until the next loss event there is no recovery, and a new ACK below `ssthresh`
raises `cwnd` by at most one segment, so it does not jump to `ssthresh`. -/
def SlowStartLaw (h : History) (e : Event) : Prop :=
  let t := (h.conn.step e).sk
  (h.conn.timesOut e → t.cwnd = U16.wide h.conn.sk.smss ∧ t.inRecovery = false ∧ t.dupacks = 0) ∧
  (h.slow → h.conn.sk.inRecovery = false ∧
    (h.conn.hearsNew e → h.conn.sk.cwnd < h.conn.sk.ssthresh →
      t.cwnd.toNat ≤ h.conn.sk.cwnd.toNat + h.conn.sk.smss.toNat ∧
      (h.conn.sk.cwnd = U16.wide h.conn.sk.smss → 2 * h.conn.sk.smss.toNat < h.conn.sk.ssthresh.toNat →
        t.cwnd ≠ h.conn.sk.ssthresh)))

instance (h : History) (e : Event) : Decidable (SlowStartOk h e) := inferInstanceAs (Decidable (_ ∧ _))

instance (h : History) (e : Event) : Decidable (SlowStartLaw h e) := inferInstanceAs (Decidable (_ ∧ _))

theorem acked_empty {ks : List Skb} (h : ∀ k ∈ ks, k.dlen = 0) (g : Cong) :
    (g.applyAll (ks.map fun k => .acked k.dlen)).cwnd = g.cwnd := by
  refine Cong.applyAll_keeps (P := fun k => k.cwnd = g.cwnd) (fun k op hop hk => ?_) rfl
  obtain ⟨skb, hs, rfl⟩ := List.mem_map.mp hop
  rw [h skb hs]
  exact hk

/-- In slow start the one skb with data raises `cwnd` by at most a segment. -/
theorem acked_one {ks : List Skb} (h : (ks.filter (·.dlen ≠ 0)).length ≤ 1) {g : Cong} (hr : g.inRecovery = false)
    (hs : g.cwnd < g.ssthresh) :
    (g.applyAll (ks.map fun k => .acked k.dlen)).cwnd.toNat ≤ g.cwnd.toNat + g.smss.toNat := by
  induction ks generalizing g with
  | nil => exact Nat.le_add_right _ _
  | cons k ks ih =>
    rw [List.map_cons, Cong.applyAll_cons]
    by_cases hk : k.dlen = 0
    · rw [List.filter_cons_of_neg (by simpa using hk)] at h
      rw [hk]
      exact ih h hr hs
    · rw [List.filter_cons_of_pos (by simpa using hk), List.length_cons] at h
      have hrest : ∀ k' ∈ ks, k'.dlen = 0 := by
        have hnil := List.length_eq_zero_iff.mp (Nat.eq_zero_of_le_zero (Nat.le_of_succ_le_succ h))
        intro k' hk'
        by_contra hne
        have hin : k' ∈ ks.filter (·.dlen ≠ 0) := List.mem_filter.mpr ⟨hk', by simpa using hne⟩
        rw [hnil] at hin
        cases hin
      have hc : (g.apply (.acked k.dlen)).cwnd = g.cwnd + umin k.dlen (U16.wide g.smss) := by
        have hr' : ((g.landed k.dlen).inRecovery) = false := hr
        have hs' : (g.landed k.dlen).cwnd < (g.landed k.dlen).ssthresh := hs
        rw [Cong.apply, Cong.avoid, if_neg hk, hr', if_neg (by simp), if_pos hs']
        rfl
      rw [acked_empty hrest, hc, BitVec.toNat_add, umin_toNat, wide_toNat]
      calc (g.cwnd.toNat + min k.dlen.toNat g.smss.toNat) % 2 ^ 32
          ≤ g.cwnd.toNat + min k.dlen.toNat g.smss.toNat := Nat.mod_le _ _
        _ ≤ g.cwnd.toNat + g.smss.toNat := Nat.add_le_add_left (Nat.min_le_right _ _) _

theorem Conn.step_new_slow {c : Conn} {e : Event} (h : c.hearsNew e) (hr : c.sk.inRecovery = false)
    (hs : c.sk.cwnd < c.sk.ssthresh) (hone : c.coveredData e ≤ 1) :
    (c.step e).sk.cwnd.toNat ≤ c.sk.cwnd.toNat + c.sk.smss.toNat := by
  cases e with
  | segment th data psh =>
    obtain ⟨l, hl, hsends⟩ := congOps_new h
    have hc : (c.step (.segment th data psh)).sk.cong =
        (c.sk.cong.applyAll (cleanOps th.ackSeq c.sk.writeQueue)).applyAll l := by
      rw [(step_flows c _).cong, hl, newAckOps, if_neg (by simp [hr]), List.append_nil, Cong.applyAll_append]
    have hw : (c.step (.segment th data psh)).sk.cwnd = (c.sk.cong.applyAll (cleanOps th.ackSeq c.sk.writeQueue)).cwnd :=
      (congrArg Cong.cwnd hc).trans (hsends.keeps _).2
    rw [hw]
    exact acked_one hone hr hs
  | _ => cases h

/-- After a timeout and before the next loss event there is no recovery. -/
def History.Calm (h : History) : Prop := h.slow → h.conn.sk.inRecovery = false

theorem History.Calm.step {h : History} (hc : h.Calm) {e : Event} (hok : SlowStartOk h e) : (h.step e).Calm := by
  intro hslow
  by_cases ht : h.conn.timesOut e
  · exact (congrArg Cong.inRecovery (Conn.step_timeout ht)).trans (hok.1 ht).1
  have ht : h.conn.timesOut e = false := by simpa using ht
  have hs : h.conn.entersRecovery e = false ∧ h.slow = true := by
    have hslow : (if h.conn.timesOut e then true else if h.conn.entersRecovery e then false else h.slow) = true := hslow
    rw [ht, if_neg (by simp)] at hslow
    split at hslow
    · cases hslow
    next hen => exact ⟨by simpa using hen, hslow⟩
  have hr := hc hs.2
  by_cases hd : h.conn.hearsDup e
  · have h3 : ¬h.conn.sk.cong.dupacks + 1 = 3 := fun h3 => by
      have := hs.1
      rw [Conn.entersRecovery, hd, decide_eq_true (show h.conn.sk.dupacks + 1 = 3 from h3)] at this
      cases this
    have hf := (Conn.step_dup hd).trans (dup_flags _)
    rw [if_neg h3] at hf
    exact (congrArg (·.2.1) hf).trans hr
  by_cases hn : h.conn.hearsNew e
  · exact (congrArg (·.2.1) (Conn.step_new_outside hn hr)).trans hr
  · exact (congrArg (·.2.1) (Conn.step_plain (by simpa using hd) (by simpa using hn) ht)).trans hr

theorem History.Calm.law {h : History} (hc : h.Calm) {e : Event} (hok : SlowStartOk h e) : SlowStartLaw h e := by
  refine ⟨fun ht => ?_, fun hslow => ⟨hc hslow, fun hn hs => ?_⟩⟩
  · have hf := Conn.step_timeout ht
    obtain ⟨hr, h0⟩ := hok.1 ht
    exact ⟨congrArg Cong.cwnd hf, (congrArg Cong.inRecovery hf).trans hr, (congrArg Cong.dupacks hf).trans h0⟩
  · have hle := Conn.step_new_slow hn (hc hslow) hs (hok.2 hslow hn hs)
    refine ⟨hle, fun hw hlt he => ?_⟩
    rw [hw, wide_toNat, he] at hle
    omega

/-- **A timeout restarts slow start.** In every run whose timeouts find neither
recovery nor duplicates counted, and whose ACKs in the slow start after one
cover at most one skb with data. -/
theorem timeout_restarts_slow_start (s : TcpSock) {es : List Event}
    (hok : History.Meets SlowStartOk { conn := { sk := s } } es) : History.Meets SlowStartLaw { conn := { sk := s } } es :=
  hok.derives (I := History.Calm) (fun _ _ hok hc => ⟨hc.step hok, hc.law hok⟩) (by nofun)

/-- A client that has 4288 bytes in flight when its peer falls silent. -/
def silentRun : List Event := [synAckEvent, .write (List.replicate 2144 7), ackEvent 2245, .write (List.replicate 4288 7)]

/-- The retransmission timer expires and slow start grows `cwnd` by a segment. -/
theorem timeout_restarts_slow_start_silent :
    let c := ({ sk := activeOpen {} 100 } : Conn).run (silentRun ++ [.dispatch 0, .handler 0, ackEvent 2781])
    c.sk.cwnd = 1072 ∧ c.sk.ssthresh = 2144 ∧
    History.Meets SlowStartLaw { conn := { sk := activeOpen {} 100 } } (silentRun ++ [.dispatch 0, .handler 0, ackEvent 2781]) :=
  ⟨by decide +kernel, by decide +kernel, timeout_restarts_slow_start _ (by decide +kernel)⟩

/-- Three duplicates, a timeout, a new ACK: recovery outlives the timeout, and
the ACK takes `cwnd` from one segment to `ssthresh`. -/
theorem timeout_keeps_recovery :
    let h := Machine.run History.step { conn := { sk := activeOpen {} 100 } }
      (silentRun ++ List.replicate 3 (ackEvent 2245) ++ [.dispatch 2])
    h.conn.timesOut (.handler 0) = true ∧ ¬SlowStartLaw h (.handler 0) ∧
    (h.step (.handler 0)).conn.sk.cwnd = 536 ∧ ((h.step (.handler 0)).step (ackEvent 2781)).conn.sk.cwnd = 2144 := by
  decide +kernel

end LevelIp
