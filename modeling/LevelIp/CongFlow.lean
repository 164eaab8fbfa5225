/-
Every event of a connection as a list of congestion-control operations
(`congOps`), stage by stage as the code runs them. Besides the variables
themselves, a list accounts for the bytes of `write_queue` and says that what
is sent fits the peer's window.
-/
import LevelIp.Congestion
import LevelIp.ReceiveStream

namespace LevelIp

/-- The bytes an operation acknowledges. -/
def CongOp.acks : CongOp → Nat
  | .acked n => n.toNat
  | .dup | .exit | .timeout | .queued _ | .sent _ | .pmtu _ => 0

/-- The bytes an operation queues. -/
def CongOp.queues : CongOp → Nat
  | .queued n => n.toNat
  | .acked _ | .dup | .exit | .timeout | .sent _ | .pmtu _ => 0

def ackedSum (ops : List CongOp) : Nat := (ops.map CongOp.acks).sum

def queuedSum (ops : List CongOp) : Nat := (ops.map CongOp.queues).sum

theorem ackedSum_append (l l' : List CongOp) : ackedSum (l ++ l') = ackedSum l + ackedSum l' := by
  simp [ackedSum]

theorem queuedSum_append (l l' : List CongOp) : queuedSum (l ++ l') = queuedSum l + queuedSum l' := by
  simp [queuedSum]

/-- What is sent is one segment, and fits `wnd` together with what is in flight
unless it is empty; recovery ends only where there is one. -/
def CongOp.Guarded (wnd : U32) (g : Cong) : CongOp → Prop
  | .queued n | .sent n => n.toNat < 65536 ∧ (n = 0 ∨ g.inflight + n ≤ wnd)
  | .exit => g.inRecovery
  | .acked _ | .dup | .timeout | .pmtu _ => True

/-- The bytes on `write_queue`. -/
def TcpSock.pending (s : TcpSock) : Nat := (queueBytes s.core.snd.queue).length

/-- The operations `ops` lead from `s` to `s'`. -/
structure Flows (s : TcpSock) (ops : List CongOp) (s' : TcpSock) : Prop where
  cong : s'.cong = s.cong.applyAll ops
  pending : s'.pending + ackedSum ops = s.pending + queuedSum ops
  guarded : s.cong.Meets (CongOp.Guarded s.core.snd.wnd) ops

namespace Flows

variable {s t u : TcpSock} {ops ops' : List CongOp}

/-- Nothing happens to the variables or the queue. -/
theorem idle (hc : t.cong = s.cong) (hq : t.core.snd.queue = s.core.snd.queue) : Flows s [] t :=
  ⟨hc, by simp only [TcpSock.pending, hq]; rfl, trivial⟩

theorem refl (s : TcpSock) : Flows s [] s := idle rfl rfl

theorem of_quiet (h : Quiet s t) (hc : t.cong = s.cong) : Flows s [] t := idle hc (by rw [h.core])

theorem trans (h₁ : Flows s ops t) (hw : t.core.snd.wnd = s.core.snd.wnd) (h₂ : Flows t ops' u) :
    Flows s (ops ++ ops') u where
  cong := by rw [h₂.cong, h₁.cong, Cong.applyAll_append]
  pending := by
    have h1 := h₁.pending
    have h2 := h₂.pending
    rw [ackedSum_append, queuedSum_append]
    omega
  guarded := by
    have h2 := h₂.guarded
    rw [hw, h₁.cong] at h2
    exact Machine.Meets.append.mpr ⟨h₁.guarded, h2⟩

/-- Something without an operation comes first. -/
theorem after (h : Flows t ops u) (hc : t.cong = s.cong) (hd : t.core.snd = s.core.snd) : Flows s ops u :=
  (idle hc (congrArg SndSide.queue hd)).trans (congrArg SndSide.wnd hd) h

/-- Something without an operation comes last. -/
theorem then_idle (h : Flows s ops t) (hc : u.cong = t.cong) (hq : u.core.snd.queue = t.core.snd.queue) :
    Flows s ops u where
  cong := hc.trans h.cong
  pending := by
    have hp : u.pending = t.pending := by rw [TcpSock.pending, hq, TcpSock.pending]
    rw [hp]
    exact h.pending
  guarded := h.guarded

end Flows

/-! ## Sending -/

theorem queueBytes_renum {q q' : List Skb} (h : List.Forall₂ Skb.Renum q q') : queueBytes q' = queueBytes q := by
  induction h with
  | nil => rfl
  | cons hr _ ih =>
    rw [queueBytes_cons, queueBytes_cons, ih]
    rcases hr with rfl | ⟨-, n, rfl⟩ <;> rfl

theorem dlen_small (k : Skb) : k.dlen.toNat < 65536 := by
  rw [Skb.dlen, Payload.len_toNat]
  exact k.payload.short

theorem sendNextOps_sums (limit : U32) (amount : Nat) (q : List Skb) (fl : U32) :
    ackedSum (sendNextOps limit amount q fl) = 0 ∧ queuedSum (sendNextOps limit amount q fl) = 0 := by
  induction q generalizing amount fl with
  | nil => cases amount <;> exact ⟨rfl, rfl⟩
  | cons k q ih =>
    cases amount with
    | zero => exact ⟨rfl, rfl⟩
    | succ amount =>
      rw [sendNextOps]
      split
      · exact ih amount fl
      · split
        · exact ⟨rfl, rfl⟩
        · obtain ⟨h1, h2⟩ := ih amount (fl + k.dlen)
          simp only [ackedSum, queuedSum] at h1 h2
          simp [ackedSum, queuedSum, CongOp.acks, CongOp.queues, h1, h2]

/-- `tcp_send_next` sends nothing that does not fit its limit. -/
theorem sendNextOps_guarded {limit wnd : U32} (hl : limit ≤ wnd) (amount : Nat) (q : List Skb) (g : Cong) :
    g.Meets (CongOp.Guarded wnd) (sendNextOps limit amount q g.inflight) := by
  induction q generalizing amount g with
  | nil => cases amount <;> trivial
  | cons k q ih =>
    cases amount with
    | zero => trivial
    | succ amount =>
      rw [sendNextOps]
      split
      · exact ih amount g
      · split
        · trivial
        next hfit =>
          refine ⟨⟨dlen_small k, .inr ?_⟩, ih amount (g.apply (.sent k.dlen))⟩
          exact BitVec.le_trans (BitVec.not_lt.mp hfit) hl

theorem tcpSendNext_pending (s : TcpSock) (amount : Nat) (extra : U32) : (tcpSendNext s amount extra).pending = s.pending := by
  obtain ⟨es, d', -, hc, hn⟩ := tcpSendNext_spec s amount extra
  simp only [TcpSock.pending, hc]
  rw [queueBytes_renum hn.queue]

theorem tcpSendNext_wnd (s : TcpSock) (amount : Nat) (extra : U32) :
    (tcpSendNext s amount extra).core.snd.wnd = s.core.snd.wnd := by
  obtain ⟨es, d', -, hc, hn⟩ := tcpSendNext_spec s amount extra
  rw [hc]
  exact hn.wnd

theorem tcpSendNext_flows (s : TcpSock) : Flows s (nextOps s) (tcpSendNext s s.writeQueue.length 0) where
  cong := tcpSendNext_cong s
  pending := by
    obtain ⟨h1, h2⟩ := sendNextOps_sums (umin s.cwnd s.tcb.sndWnd) s.writeQueue.length s.writeQueue s.inflight
    rw [tcpSendNext_pending, nextOps, h1, h2]
  guarded := sendNextOps_guarded (umin_le_right _ _) _ _ _

/-! ## The ACK field -/

theorem tcpHandleDupack_flows (s : TcpSock) : Flows s (dupackOps s) (tcpHandleDupack s) where
  cong := tcpHandleDupack_cong s
  pending := by
    have hd : (dupackAction { s with dupacks := s.dupacks + 1 }).1.pending = s.pending :=
      congrArg (fun c : Core => (queueBytes c.snd.queue).length) (dupackAction_core _)
    have hp : (tcpHandleDupack s).pending = s.pending := by
      unfold tcpHandleDupack
      dsimp only
      split
      · exact (tcpSendNext_pending _ _ _).trans hd
      · exact hd
    obtain ⟨h1, h2⟩ := sendNextOps_sums (dupackLimit s) s.writeQueue.length s.writeQueue s.inflight
    simp only [ackedSum, queuedSum] at h1 h2
    simp [hp, dupackOps, ackedSum, queuedSum, CongOp.acks, CongOp.queues, h1, h2]
  guarded := by
    have hfl : (s.cong.apply .dup).inflight = s.inflight := by
      simp only [Cong.apply, Cong.counted]
      split
      · rfl
      · split <;> rfl
    refine ⟨trivial, ?_⟩
    have h := sendNextOps_guarded (umin_le_right _ _ : dupackLimit s ≤ s.tcb.sndWnd) s.writeQueue.length s.writeQueue
      (s.cong.apply .dup)
    rw [hfl] at h
    exact h

theorem tcpHandleDupack_wnd (s : TcpSock) : (tcpHandleDupack s).core.snd.wnd = s.core.snd.wnd := by
  have hd : (dupackAction { s with dupacks := s.dupacks + 1 }).1.core = s.core := dupackAction_core _
  unfold tcpHandleDupack
  dsimp only
  split
  · rw [tcpSendNext_wnd, hd]
  · rw [hd]

theorem cleanOps_sums (a : U32) (q : List Skb) :
    (queueBytes (cleanQueue a q)).length + ackedSum (cleanOps a q) = (queueBytes q).length ∧ queuedSum (cleanOps a q) = 0 := by
  induction q with
  | nil => exact ⟨rfl, rfl⟩
  | cons k q ih =>
    by_cases hk : k.covered a
    · have hd : cleanQueue a (k :: q) = cleanQueue a q := by simp [cleanQueue, hk]
      have ho : cleanOps a (k :: q) = .acked k.dlen :: cleanOps a q := by simp [cleanOps, hk]
      have hs : ackedSum (cleanOps a (k :: q)) = k.payload.bytes.length + ackedSum (cleanOps a q) := by
        rw [ho]
        simp only [ackedSum, CongOp.acks, List.map_cons, List.sum_cons, Skb.dlen, Payload.len_toNat]
      refine ⟨?_, ?_⟩
      · rw [hd, hs, queueBytes_cons, List.length_append]
        omega
      · rw [ho]
        simpa [queuedSum, CongOp.queues] using ih.2
    · have hd : cleanQueue a (k :: q) = k :: q := by simp [cleanQueue, hk]
      have ho : cleanOps a (k :: q) = [] := by simp [cleanOps, hk]
      rw [hd, ho]
      exact ⟨rfl, rfl⟩

theorem cleanOps_plain (a : U32) (q : List Skb) : cleanOps a (q.map Skb.plain) = cleanOps a q := by
  induction q with
  | nil => rfl
  | cons k q ih =>
    have hk : k.plain.covered a = k.covered a := rfl
    simp only [cleanOps, List.map_cons, List.takeWhile_cons, hk] at ih ⊢
    split
    · rw [List.map_cons, List.map_cons, ih]
      rfl
    · rfl

/-- Operations that send nothing need no room. -/
theorem cleanOps_guarded (wnd : U32) (a : U32) (q : List Skb) (g : Cong) :
    g.Meets (CongOp.Guarded wnd) (cleanOps a q) := by
  induction q generalizing g with
  | nil => trivial
  | cons k q ih =>
    simp only [cleanOps, List.takeWhile_cons]
    split
    · exact ⟨trivial, ih _⟩
    · trivial

theorem tcpCleanRtoQueue_flows (s : TcpSock) (a : U32) : Flows s (cleanOps a s.writeQueue) (tcpCleanRtoQueue s a) where
  cong := tcpCleanRtoQueue_cong s a
  pending := by
    obtain ⟨h1, h2⟩ := cleanOps_sums a s.core.snd.queue
    have hp : cleanOps a s.core.snd.queue = cleanOps a s.writeQueue := cleanOps_plain a s.writeQueue
    rw [hp] at h1 h2
    simp only [TcpSock.pending, tcpCleanRtoQueue_core, SndSide.clean, h2]
    exact h1
  guarded := cleanOps_guarded _ a _ _

theorem newAck_flows (s : TcpSock) (th : Tcphdr) : Flows s (newAckOps s th.ackSeq) (newAck s th) where
  cong := newAck_cong s th
  pending := by
    obtain ⟨h1, h2⟩ := cleanOps_sums th.ackSeq s.core.snd.queue
    have hp : cleanOps th.ackSeq s.core.snd.queue = cleanOps th.ackSeq s.writeQueue := cleanOps_plain _ s.writeQueue
    rw [hp] at h1 h2
    have he : ackedSum (if s.inRecovery then [.exit] else []) = 0 ∧ queuedSum (if s.inRecovery then [.exit] else []) = 0 := by
      split <;> exact ⟨rfl, rfl⟩
    simp only [TcpSock.pending, newAck_core, SndSide.acked, SndSide.clean, newAckOps, ackedSum_append, queuedSum_append,
      h2, he.1, he.2]
    exact h1
  guarded := by
    refine Machine.Meets.append.mpr ⟨cleanOps_guarded _ _ _ _, ?_⟩
    split
    next hr => exact ⟨(cleanOps_inRecovery s.cong th.ackSeq s.writeQueue).trans hr, trivial⟩
    next => trivial

/-- The tests on the ACK number change nothing here. -/
theorem ackChecked_idle {s : TcpSock} {th : Tcphdr} (hw : ackIsNew s th = false) :
    (ackChecked s th).sock.cong = s.cong ∧ (ackChecked s th).sock.core.snd = s.core.snd := by
  unfold ackChecked
  rw [hw]
  split
  · exact ⟨rfl, rfl⟩
  · split <;> exact ⟨rfl, rfl⟩

/-- The operations of the ACK processing of the synchronized states. -/
def ackOps (s : TcpSock) (th : Tcphdr) (skb : Skb) : List CongOp :=
  if tcpIsDupack s th skb then dupackOps s else if ackIsNew s th then newAckOps s th.ackSeq else []

theorem ackSynchronized_flows (s : TcpSock) (th : Tcphdr) (skb : Skb) :
    Flows s (ackOps s th skb) (ackSynchronized s th skb).sock ∧
    (ackSynchronized s th skb).sock.core.snd.wnd = s.core.snd.wnd := by
  unfold ackSynchronized ackOps
  split
  · exact ⟨(tcpHandleDupack_flows s).then_idle rfl rfl, tcpHandleDupack_wnd s⟩
  · rcases ackTaken_cases s th with ⟨hn, ht⟩ | ⟨hn, ht⟩
    · obtain ⟨hc, hd⟩ := ackChecked_idle (ackIsNew_newAck s th)
      rw [ht, if_pos hn]
      refine ⟨(newAck_flows s th).then_idle hc (congrArg SndSide.queue hd), ?_⟩
      rw [hd, newAck_core]
      rfl
    · obtain ⟨hc, hd⟩ := ackChecked_idle hn
      rw [ht, if_neg (by simp [hn])]
      exact ⟨.idle hc (congrArg SndSide.queue hd), congrArg SndSide.wnd hd⟩

/-- The operations of the ACK field. -/
def ackFieldOps (s : TcpSock) (th : Tcphdr) (skb : Skb) : List CongOp :=
  if s.state.takesAck then ackOps s th skb
  else if s.state = .synReceived ∧ s.ptsk.isSome ∧ ackIsNew s th then newAckOps s th.ackSeq
  else []

theorem ackField_flows (s : TcpSock) (th : Tcphdr) (skb : Skb) :
    Flows s (ackFieldOps s th skb) (ackField s th skb).sock ∧
    (ackField s th skb).sock.core.snd.wnd = s.core.snd.wnd := by
  by_cases ht : s.state.takesAck
  · rw [ackFieldOps, if_pos ht, ackField_synchronized ht]
    exact ackSynchronized_flows s th skb
  · rw [ackFieldOps, if_neg ht]
    by_cases hs : s.state = .synReceived
    · simp only [ackField, hs, true_and]
      cases hn : ackIsNew s th with
      | false =>
        simp only [Bool.false_eq_true, if_false, and_false]
        exact ⟨.refl s, rfl⟩
      | true =>
        have hp' : (s.setState .established).ptsk = s.ptsk := rfl
        cases hp : s.ptsk with
        | none =>
          simp only [if_true, hp', hp, Option.isSome_none, Bool.false_eq_true, false_and, if_false]
          exact ⟨.idle rfl rfl, rfl⟩
        | some p =>
          simp only [if_true, hp', hp, Option.isSome_some, and_self]
          obtain ⟨hf, hw⟩ := ackSynchronized_flows (((s.setState .established).emit (.acceptQueue p)).wakeup .acceptWait)
            th skb
          have hops : ackOps (((s.setState .established).emit (.acceptQueue p)).wakeup .acceptWait) th skb =
              newAckOps s th.ackSeq := by
            have hn' : ackIsNew (((s.setState .established).emit (.acceptQueue p)).wakeup .acceptWait) th := hn
            rw [ackOps, tcpIsDupack_of_new skb hn', if_neg (by simp), if_pos hn']
            rfl
          rw [hops] at hf
          exact ⟨hf.after rfl rfl, hw⟩
    · rw [if_neg (fun h => hs h.1)]
      have h : ackField s th skb = .next s := by
        unfold ackField
        cases h : s.state <;> simp_all [TcpState.takesAck]
      rw [h]
      exact ⟨.refl s, rfl⟩

/-! ## After the ACK field -/

/-- The operations of the last stage. -/
def ackDataOps (s : TcpSock) (expected : Bool) : List CongOp :=
  if s.state.takesText && expected then nextOps s else []

theorem nextOps_stopDelack (s : TcpSock) : nextOps (tcpStopDelackTimer s) = nextOps s := by
  unfold tcpStopDelackTimer TcpSock.timerCancel
  cases s.delack <;> rfl

theorem nextOps_nil {s : TcpSock} (h : s.writeQueue = []) : nextOps s = [] := by
  simp [nextOps, h, sendNextOps]

theorem ackData_flows (s : TcpSock) (th : Tcphdr) (skb : Skb) (expected : Bool) :
    Flows s (ackDataOps s expected) (ackData s th skb expected) := by
  have text : Flows s (if expected then nextOps s else []) (if expected then
      let s := tcpStopDelackTimer s
      let pending := s.writeQueue.length
      if pending > 0 then tcpRearmRtoTimer (tcpSendNext s pending 0)
      else
        let s := if !th.psh && skb.dlen > 1000 then { s with delacks := s.delacks + 1 } else s
        if th.psh || (skb.dlen > 1000 && s.delacks > 1) then tcpSendAck { s with delacks := 0 }
        else if skb.dlen > 0 then
          let t := s.newTimer 200 .sendDelack
          { s.timerAdd t with delack := some t }
        else s
      else s) := by
    split
    case isFalse => exact .refl s
    have hq := quiet_tcpStopDelackTimer s
    refine Flows.after (t := tcpStopDelackTimer s) ?_ (tcpStopDelackTimer_cong s) (congrArg Core.snd hq.core)
    rw [← nextOps_stopDelack s]
    generalize tcpStopDelackTimer s = t
    dsimp only
    split
    next => exact (tcpSendNext_flows t).then_idle (tcpRearmRtoTimer_cong _) (by rw [(quiet_tcpRearmRtoTimer _).core])
    next hlen =>
      rw [nextOps_nil (List.length_eq_zero_iff.mp (Nat.eq_zero_of_not_pos hlen))]
      have hd : Quiet t (if !th.psh && skb.dlen > 1000 then { t with delacks := t.delacks + 1 } else t) :=
        .ite (.of_eq rfl rfl) (.refl t)
      have hdc : (if !th.psh && skb.dlen > 1000 then { t with delacks := t.delacks + 1 } else t).cong = t.cong := by
        split <;> rfl
      generalize (if !th.psh && skb.dlen > 1000 then { t with delacks := t.delacks + 1 } else t) = u at hd hdc
      refine .after (t := u) ?_ hdc (congrArg Core.snd hd.core)
      split
      · exact .of_quiet ((quiet_tcpSendAck _).after rfl rfl) (tcpSendAck_cong _)
      · split
        · exact .idle rfl rfl
        · exact .refl u
  unfold ackData ackDataOps
  cases hs : s.state
  case established | finWait1 | finWait2 =>
    simp only [TcpState.takesText, Bool.true_and]
    exact text
  all_goals
    simp only [TcpState.takesText, Bool.false_and, Bool.false_eq_true, if_false]
    exact .refl s

/-- The operations after the ACK field. -/
def afterAckOps (s : TcpSock) (th : Tcphdr) (skb : Skb) : List CongOp :=
  match finAcked s th with
  | .ret _ => []
  | .next t =>
    let expected : Bool := skb.seq = t.tcb.rcvNxt
    match finBit (segmentText t th skb) th expected with
    | .ret _ => []
    | .next u => ackDataOps u expected

theorem afterAck_flows (s : TcpSock) (th : Tcphdr) (skb : Skb) :
    Flows s (afterAckOps s th skb) (afterAck s th skb).sock := by
  have hc := finAcked_cong s th
  have hd := finAcked_snd s th
  unfold afterAckOps afterAck
  generalize finAcked s th = k at hc hd
  cases k with
  | ret t => exact .idle hc (congrArg SndSide.queue hd)
  | next t =>
    refine .after (t := t) ?_ hc hd
    simp only [Ctl.andThen]
    have hc := (finBit_cong (segmentText t th skb) th (skb.seq = t.tcb.rcvNxt)).trans (segmentText_cong t th skb)
    have hd := (finBit_snd (segmentText t th skb) th (skb.seq = t.tcb.rcvNxt)).trans (segmentText_snd t th skb)
    generalize finBit (segmentText t th skb) th (skb.seq = t.tcb.rcvNxt) = k at hc hd
    cases k with
    | ret u => exact .idle hc (congrArg SndSide.queue hd)
    | next u => exact (ackData_flows u th skb _).after hc hd

/-! ## A segment -/

/-- The operations of a segment that got as far as its ACK field. -/
def heardOps (s : TcpSock) (th : Tcphdr) (skb : Skb) : List CongOp :=
  ackFieldOps s th skb ++
    match ackField s th skb with
    | .ret _ => []
    | .next t => afterAckOps t th skb

theorem heard_flows (s : TcpSock) (th : Tcphdr) (skb : Skb) :
    Flows s (heardOps s th skb) ((ackField s th skb).andThen fun s => afterAck s th skb).sock := by
  obtain ⟨hf, hw⟩ := ackField_flows s th skb
  unfold heardOps
  cases hk : ackField s th skb with
  | ret t =>
    rw [hk] at hf
    rw [List.append_nil]
    exact hf
  | next t =>
    rw [hk] at hf hw
    exact hf.trans hw (afterAck_flows t th skb)

/-- The operations of `tcp_synsent`: a SYN-ACK cleans the queue, and a SYN alone
is answered with a SYN-ACK. -/
def synsentOps (s : TcpSock) (th : Tcphdr) : List CongOp :=
  if th.ack ∧ (th.ackSeq ≤ s.tcb.iss ∨ th.ackSeq > s.tcb.sndNxt) then []
  else if th.ack ∧ (th.ackSeq < s.tcb.sndUna ∨ th.ackSeq > s.tcb.sndNxt) then []
  else if th.rst then []
  else if !th.syn then []
  else (if th.ack then cleanOps th.ackSeq s.writeQueue else []) ++
    if (synAckedSock s th).tcb.sndUna > (synAckedSock s th).tcb.iss then [] else [.queued 0]

/-- The operations of a segment. -/
def segmentOps (s : TcpSock) (th : Tcphdr) (skb : Skb) : List CongOp :=
  match s.state with
  | .close | .listen => []
  | .synSent => synsentOps s th
  | _ => if s.core.Heard th skb then heardOps s th skb else []

theorem tcpInputOtherwise_flows (s : TcpSock) (th : Tcphdr) (skb : Skb) :
    Flows s (if s.core.Heard th skb then heardOps s th skb else []) (tcpInputOtherwise s th skb) := by
  have hv : s.core.rcv.verify th skb = tcpVerifySegment s th skb := rfl
  unfold tcpInputOtherwise Core.Heard
  rw [hv]
  cases tcpVerifySegment s th skb
  case false =>
    simp only [Bool.false_and, Bool.not_false, if_true, Bool.false_eq_true, if_false]
    split
    · exact .of_quiet (quiet_tcpSendAck s) (tcpSendAck_cong s)
    · exact .refl s
  case true =>
    cases th.rst
    case true =>
      simp only [Bool.not_true, Bool.and_false, Bool.false_and, Bool.false_eq_true, if_false, if_true]
      exact .idle (tcpEnterTimeWait_cong s) (congrArg (·.snd.queue) (tcpEnterTimeWait_core s))
    case false =>
      cases th.syn
      case true => exact .refl s
      case false =>
        cases th.ack
        case false => exact .refl s
        case true => exact heard_flows s th skb

/-! ## Queueing -/

theorem tcpQueueTransmitSkb_cong (s : TcpSock) (skb : Skb) :
    (tcpQueueTransmitSkb s skb).cong = s.cong.apply (.queued skb.dlen) := by
  refine (tcpTransmitSkb_cong (queuedSock s skb) _ _).trans ?_
  unfold queuedSock
  split <;> rfl

/-- One skb is queued: an empty one, or one that fits. -/
theorem tcpQueueTransmitSkb_flows {s : TcpSock} (skb : Skb) (h : skb.dlen = 0 ∨ s.inflight + skb.dlen ≤ s.tcb.sndWnd) :
    Flows s [.queued skb.dlen] (tcpQueueTransmitSkb s skb) where
  cong := tcpQueueTransmitSkb_cong s skb
  pending := by
    have hq : (tcpQueueTransmitSkb s skb).core.snd.queue = s.core.snd.queue ++ [(s.core.snd.number skb).plain] := by
      rw [tcpQueueTransmitSkb_core]
      rfl
    have hb : queueBytes [(s.core.snd.number skb).plain] = skb.payload.bytes := List.append_nil _
    have hs : queuedSum [.queued skb.dlen] = skb.payload.bytes.length := by
      simp only [queuedSum, CongOp.queues, List.map_cons, List.map_nil, List.sum_cons, List.sum_nil, Skb.dlen, Payload.len_toNat]
      rfl
    rw [TcpSock.pending, hq, queueBytes_append, hb, List.length_append, hs]
    rfl
  guarded := ⟨⟨dlen_small skb, h⟩, trivial⟩

theorem tcpQueueTransmitSkb_wnd (s : TcpSock) (skb : Skb) :
    (tcpQueueTransmitSkb s skb).core.snd.wnd = s.core.snd.wnd := by
  rw [tcpQueueTransmitSkb_core]
  rfl

theorem sndWndOpen_fits {s : TcpSock} {n : U32} (h : sndWndOpen s n) : s.inflight + n ≤ s.tcb.sndWnd := by
  have h : s.inflight + n ≤ umin s.cwnd s.tcb.sndWnd := of_decide_eq_true h
  exact BitVec.le_trans h (umin_le_right _ _)

/-- The operations of the loop of `tcp_send`. -/
def chunkOps (mss : U16) : Nat → TcpSock → List U8 → List CongOp
  | _, _, [] => []
  | 0, _, _ :: _ => []
  | fuel + 1, s, buf@(_ :: _) =>
    let chunk := Payload.ofTake mss buf
    let rest := buf.drop mss.toNat
    if sndWndOpen s chunk.len then
      .queued chunk.len :: chunkOps mss fuel (tcpQueueTransmitSkb s (dataSkb chunk rest.isEmpty)) rest
    else []

theorem tcpSendLoop_flows (mss : U16) (len fuel : Nat) (s : TcpSock) (buf : List U8) :
    Flows s (chunkOps mss fuel s buf) (tcpSendLoop mss len fuel s buf).1 := by
  induction fuel generalizing s buf with
  | zero =>
    cases buf with
    | nil => exact .of_quiet (quiet_tcpRearmUserTimeout s) (tcpRearmUserTimeout_cong s)
    | cons => exact .refl s
  | succ fuel ih =>
    cases buf with
    | nil => exact .of_quiet (quiet_tcpRearmUserTimeout s) (tcpRearmUserTimeout_cong s)
    | cons x xs =>
      simp only [tcpSendLoop, chunkOps]
      split
      next ho =>
        have hq := tcpQueueTransmitSkb_flows (dataSkb (Payload.ofTake mss (x :: xs)) (List.drop mss.toNat (x :: xs)).isEmpty)
          (.inr (sndWndOpen_fits ho))
        exact hq.trans (tcpQueueTransmitSkb_wnd _ _) (ih _ _)
      next => exact .refl s

/-- The operations of `tcp_queue_fin`. -/
def finOps (s : TcpSock) : List CongOp := if sndWndOpen s 0 then [.queued 0] else []

theorem tcpQueueFin_flows (s : TcpSock) (lastAck : Bool) : Flows s (finOps s) (tcpQueueFin s lastAck).1 := by
  unfold tcpQueueFin finOps
  split
  next =>
    have hq := tcpQueueTransmitSkb_flows (s := s) finSkb (.inl rfl)
    dsimp only
    split
    · exact hq.then_idle rfl rfl
    · exact hq
  next => exact .refl s

/-- The operations of `tcp_close`. -/
def closeOps (s : TcpSock) : List CongOp :=
  if s.state = .established ∨ s.state = .closeWait then finOps s else []

theorem tcpClose_flows (s : TcpSock) : Flows s (closeOps s) (tcpClose s).1 := by
  unfold tcpClose closeOps
  cases hs : s.state
  case established => exact (tcpQueueFin_flows (s.setState .finWait1) false).after rfl rfl
  case closeWait => exact tcpQueueFin_flows s true
  case listen | synSent | synReceived => exact .idle (tcpDone_cong s) (congrArg (·.snd.queue) (tcpDone_core s))
  all_goals exact .idle rfl rfl

/-- The operations of a sender or closer that holds the lock again. -/
def callOps (s : TcpSock) : Call → List CongOp
  | .send mss chunk rest _ =>
    if sndWndOpen s chunk.len then
      .queued chunk.len :: chunkOps mss rest.length (tcpQueueTransmitSkb s (dataSkb chunk rest.isEmpty)) rest
    else []
  | .fin _ => finOps s
  | .recv _ _ => []

theorem resumeSend_flows (s : TcpSock) (call : Call) : Flows s (callOps s call) (resumeSend s call).1 := by
  cases call with
  | send mss chunk rest len =>
    simp only [resumeSend, callOps]
    split
    next ho =>
      have hq := tcpQueueTransmitSkb_flows (dataSkb chunk rest.isEmpty) (.inr (sndWndOpen_fits ho))
      exact hq.trans (tcpQueueTransmitSkb_wnd _ _) (tcpSendLoop_flows _ _ _ _ _)
    next => exact .refl s
  | fin lastAck => exact tcpQueueFin_flows s lastAck
  | recv len got => exact .refl s

/-! ## SYN_SENT -/

theorem tcpReset_cong (s : TcpSock) : (tcpReset s).cong = s.cong := by
  unfold tcpReset
  dsimp only
  split
  case h_3 => rfl
  all_goals exact tcpDone_cong _

theorem tcpReset_queue (s : TcpSock) : (tcpReset s).core.snd.queue = s.core.snd.queue := by
  unfold tcpReset
  dsimp only
  split
  case h_3 => rfl
  all_goals
    rw [tcpDone_core]
    rfl

theorem synsentEstablish_cong (s : TcpSock) (th : Tcphdr) : (synsentEstablish s th).cong = s.cong := by
  have h := (tcpParseOpts_cong (tcpRearmUserTimeout (tcpSendAck (openedSock s th))) th).trans
    ((tcpRearmUserTimeout_cong _).trans (tcpSendAck_cong (openedSock s th)))
  exact h

theorem tcpSendSynack_flows {s : TcpSock} (h : s.state = .synReceived) : Flows s [.queued 0] (tcpSendSynack s) := by
  have hq := tcpQueueTransmitSkb_flows (s := s) synAckSkb (.inl rfl)
  rw [tcpSendSynack, if_neg (by simp [h])]
  exact hq.then_idle rfl rfl

theorem synAckedSock_flows (s : TcpSock) (th : Tcphdr) :
    Flows s (if th.ack then cleanOps th.ackSeq s.writeQueue else []) (synAckedSock s th) := by
  unfold synAckedSock
  split
  · have h := tcpCleanRtoQueue_flows { syncedSock s th with tcb.sndUna := th.ackSeq } th.ackSeq
    exact ⟨h.cong, h.pending, h.guarded⟩
  · exact .idle rfl rfl

theorem tcpSynsent_flows (s : TcpSock) (th : Tcphdr) : Flows s (synsentOps s th) (tcpSynsent s th) := by
  rw [tcpSynsent_eq, synsentOps]
  split
  · exact .refl s
  · split
    · exact .refl s
    · split
      · exact .idle (tcpReset_cong s) (tcpReset_queue s)
      · split
        · exact .refl s
        · have hw : (synAckedSock s th).core.snd.wnd = s.core.snd.wnd := by
            rw [synAckedSock_core]
            unfold SndSide.synAcked
            split <;> rfl
          refine (synAckedSock_flows s th).trans hw ?_
          unfold synTaken
          split
          · refine .idle (synsentEstablish_cong _ th) ?_
            rw [synsentEstablish_core]
            rfl
          · have hq := tcpSendSynack_flows
              (s := { (synAckedSock s th).setState .synReceived with tcb.sndUna := (synAckedSock s th).tcb.iss }) rfl
            exact ⟨hq.cong, hq.pending, hq.guarded⟩

theorem segmentArrives_flows (s : TcpSock) (th : Tcphdr) (skb : Skb) :
    Flows s (segmentOps s th skb) (segmentArrives s th skb) := by
  unfold segmentArrives segmentOps
  cases hs : s.state
  case close =>
    dsimp only
    unfold tcpClosed
    split
    · exact .refl s
    · exact .idle (tcpSendReset_cong s) (congrArg (·.snd.queue) (tcpSendReset_core s))
  case listen => exact .refl s
  case synSent => exact tcpSynsent_flows s th
  all_goals exact tcpInputOtherwise_flows s th skb

/-! ## Timers -/

/-- The operations of a dispatched handler. -/
def handlerOps (s : TcpSock) : Handler → List CongOp
  | .retransmissionTimeout n => if n = s.rtoEpoch ∧ !s.writeQueue.isEmpty then [.timeout] else []
  | .connectRto _ | .sendDelack | .linger | .userTimeout => []

theorem tcpHandleFinState_idle (s : TcpSock) : Flows s [] (tcpHandleFinState s) := by
  unfold tcpHandleFinState
  split <;> exact .idle rfl rfl

theorem tcpDone_idle (s : TcpSock) : Flows s [] (tcpDone s) :=
  .idle (tcpDone_cong s) (congrArg (·.snd.queue) (tcpDone_core s))

theorem tcpAbort_idle (s : TcpSock) : Flows s [] (tcpAbort s) :=
  .idle (tcpAbort_cong s) (congrArg (·.snd.queue) (tcpAbort_core s))

theorem tcpConnectRto_idle (s : TcpSock) (n : Nat) : Flows s [] (tcpConnectRto s n) := by
  unfold tcpConnectRto
  split
  · exact .refl s
  · dsimp only
    split
    · split
      · exact (tcpDone_idle _).after rfl rfl
      · split
        · exact .idle rfl rfl
        next k _ =>
          have hc := tcpTransmitSkb_cong (tcpReleaseRtoTimer s) k (tcpReleaseRtoTimer s).tcb.sndUna
          have hq := tcpTransmitSkb_core (tcpReleaseRtoTimer s) k (tcpReleaseRtoTimer s).tcb.sndUna
          generalize tcpTransmitSkb (tcpReleaseRtoTimer s) k (tcpReleaseRtoTimer s).tcb.sndUna = t at hc hq
          exact .idle hc (congrArg (·.snd.queue) hq)
    · exact .idle rfl rfl

theorem rtoTail_idle (s : TcpSock) (k : Skb) : Flows s [] (rtoTail s k) := by
  unfold rtoTail
  split
  · exact (tcpDone_idle s).then_idle rfl rfl
  · split
    · exact (tcpHandleFinState_idle _).after rfl rfl
    · exact .idle rfl rfl

theorem tcpRetransmissionTimeout_flows (s : TcpSock) (n : Nat) :
    Flows s (handlerOps s (.retransmissionTimeout n)) (tcpRetransmissionTimeout s n) := by
  have hops : handlerOps s (.retransmissionTimeout n) = if n = s.rtoEpoch ∧ !s.writeQueue.isEmpty then [.timeout] else [] :=
    rfl
  unfold tcpRetransmissionTimeout
  split
  next hn =>
    rw [hops, if_neg (fun h => hn h.1)]
    exact .refl s
  next hn =>
    dsimp only
    split
    next hq =>
      have hq : s.writeQueue = [] := List.head?_eq_none_iff.mp hq
      rw [hops, if_neg (by simp [hq])]
      split <;> exact .idle rfl rfl
    next k hk =>
      have hq : s.writeQueue.isEmpty = false := by
        cases h : s.writeQueue
        · rw [show (tcpReleaseRtoTimer s).writeQueue = [] from h] at hk
          cases hk
        · rfl
      rw [hops, if_pos ⟨not_not.mp hn, by rw [hq]; rfl⟩]
      have hrto : Flows s [.timeout] (rtoSock s) :=
        { cong := rfl
          pending := by
            rw [TcpSock.pending, (quiet_rtoSock s).core]
            rfl
          guarded := ⟨trivial, trivial⟩ }
      have hx := hrto.then_idle (tcpTransmitSkb_cong (rtoSock s) k (rtoSock s).tcb.sndUna)
        (congrArg (·.snd.queue) (tcpTransmitSkb_core (rtoSock s) k (rtoSock s).tcb.sndUna))
      have ht := rtoTail_idle (tcpTransmitSkb (rtoSock s) k (rtoSock s).tcb.sndUna) k
      refine ⟨ht.cong.trans hx.cong, ?_, hx.guarded⟩
      exact ht.pending.trans hx.pending

theorem runHandler_flows (s : TcpSock) (h : Handler) : Flows s (handlerOps s h) (runHandler s h) := by
  cases h with
  | connectRto n => exact tcpConnectRto_idle s n
  | retransmissionTimeout n => exact tcpRetransmissionTimeout_flows s n
  | sendDelack => exact .of_quiet (quiet_tcpSendDelack s) (tcpSendAck_cong _)
  | linger => exact (tcpDone_idle _).after (tcpStopLinger_cong s) (congrArg Core.snd (quiet_tcpStopLinger s).core)
  | userTimeout => exact (tcpAbort_idle _).after (tcpStopLinger_cong s) (congrArg Core.snd (quiet_tcpStopLinger s).core)

/-! ## Reading -/

theorem tcpReceiveTurn_idle (s : TcpSock) (len : Nat) (got : List U8) : Flows s [] (tcpReceiveTurn s len got).1 :=
  .idle (tcpReceiveTurn_cong s len got) (congrArg (·.snd.queue) (tcpReceiveTurn_core s len got))

theorem tcpReceive_idle (s : TcpSock) (len : Nat) : Flows s [] (tcpReceive s len).1 := by
  unfold tcpReceive
  split
  · exact tcpReceiveTurn_idle s len []
  · exact .of_quiet (quiet_tcpRearmUserTimeout s) (tcpRearmUserTimeout_cong s)

theorem tcpRead_idle (s : TcpSock) (len : Nat) : Flows s [] (tcpRead s len).1 := by
  unfold tcpRead
  split
  case h_8 =>
    split
    · exact .idle rfl rfl
    · exact tcpReceive_idle s len
  all_goals first | exact .idle rfl rfl | exact tcpReceive_idle s len

/-! ## The whole machine -/

namespace Conn

theorem settle_flows {c : Conn} {r : TcpSock × Outcome} {s : TcpSock} {ops : List CongOp} (h : Flows s ops r.1) :
    Flows s ops (c.settle r).sk := by
  rcases settle_sk c r with he | ⟨-, he⟩
  · rw [he]
    exact h
  · rw [he]
    exact h.then_idle rfl rfl

/-- The operations of an event, in the order the code performs them. -/
def congOps (c : Conn) (e : Event) : List CongOp :=
  if c.sk.fault then []
  else
    match e with
    | .segment th data psh => segmentOps c.sk th (tcpInitSegment th data psh)
    | .write buf => if tcpWriteAccepts c.sk then chunkOps c.sk.smss buf.length c.sk buf else []
    | .close => closeOps c.sk
    | .resume i =>
      match c.calls[i]? with
      | none => []
      | some call => callOps c.sk call
    | .handler i =>
      match c.sk.spawned[i]? with
      | none => []
      | some h => handlerOps c.sk h
    | .adjustPmtu6 mss => [.pmtu mss]
    | .read _ | .abort | .dispatch _ | .tick _ | .fcntl _ => []

theorem resume_flows (c : Conn) (i : Nat) : Flows c.sk
    (match c.calls[i]? with
      | none => []
      | some call => callOps c.sk call) (c.resume i).sk := by
  unfold resume
  cases c.calls[i]? with
  | none => exact .refl _
  | some call =>
    cases call with
    | recv len got =>
      dsimp only
      rw [settleRead_sk]
      exact tcpReceiveTurn_idle _ _ _
    | send mss chunk rest len => exact settle_flows (resumeSend_flows c.sk (.send mss chunk rest len))
    | fin lastAck => exact settle_flows (resumeSend_flows c.sk (.fin lastAck))

theorem handle_flows (s : TcpSock) (i : Nat) : Flows s
    (match s.spawned[i]? with
      | none => []
      | some h => handlerOps s h) (handle s i) := by
  unfold handle
  cases s.spawned[i]? with
  | none => exact .refl s
  | some h =>
    have hops : handlerOps { s with spawned := s.spawned.eraseIdx i } h = handlerOps s h := by cases h <;> rfl
    have hf := runHandler_flows { s with spawned := s.spawned.eraseIdx i } h
    rw [hops] at hf
    exact hf.after rfl rfl

/-- **Every event is its list of operations.** -/
theorem step_flows (c : Conn) (e : Event) : Flows c.sk (c.congOps e) (c.step e).sk := by
  unfold step congOps
  split
  · exact .refl _
  · cases e with
    | segment th data psh => exact segmentArrives_flows c.sk th _
    | write buf =>
      refine settle_flows ?_
      dsimp only
      unfold tcpWrite
      split
      · exact tcpSendLoop_flows _ _ _ _ _
      · exact .refl _
    | read len =>
      dsimp only
      rw [settleRead_sk]
      exact tcpRead_idle c.sk len
    | close => exact settle_flows (tcpClose_flows c.sk)
    | abort => exact tcpAbort_idle c.sk
    | resume i => exact resume_flows c i
    | handler i => exact handle_flows c.sk i
    | dispatch i =>
      refine .of_quiet (quiet_dispatch c.sk i) ?_
      dsimp only
      unfold dispatch
      split <;> rfl
    | tick ms => exact .idle rfl rfl
    | fcntl nonblock => exact .idle rfl rfl
    | adjustPmtu6 mss =>
      dsimp only
      refine ⟨?_, ?_, trivial, trivial⟩
      · unfold adjustPmtu6
        split
        next h =>
          have hp : c.sk.cong.apply (.pmtu mss) = { c.sk.cong with smss := mss } := if_pos h
          exact hp.symm
        next h =>
          have hp : c.sk.cong.apply (.pmtu mss) = c.sk.cong := if_neg h
          exact hp.symm
      · rw [TcpSock.pending, (quiet_adjustPmtu6 c.sk mss).core]
        rfl

end Conn

end LevelIp
