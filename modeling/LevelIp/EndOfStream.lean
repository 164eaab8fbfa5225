/-
The reader at the end of the stream. Once the peer's FIN has been consumed, or
the connection was reset or finished, nothing more can arrive.

That is kept in a flag that the read which returns 0 clears, in the state, and
in `err`; `tcp_receive` looks at the flag only. A second blocking read in
CLOSE_WAIT sleeps, and so does a reader that an RST or `tcp_done` found asleep;
`tcp_done` does not even signal it.
-/
import LevelIp.Waiters
import LevelIp.PureAcks
import LevelIp.TimerOps

namespace LevelIp

/-! ## When a reader sleeps -/

theorem dequeueLoop_all {q : List Skb} {room : Nat} (h : (queueBytes q).length < room) :
    dequeueLoop room q = (queueBytes q, [], q.any (·.psh)) := by
  induction q generalizing room with
  | nil => rfl
  | cons k q ih =>
    have hb : queueBytes (k :: q) = k.payload.bytes ++ queueBytes q := rfl
    rw [hb, List.length_append] at h
    rw [dequeueLoop, if_neg (by omega), if_pos (by omega), ih (by omega)]
    rfl

theorem dequeueLoop_full {q : List Skb} {room : Nat} (h : room ≤ (queueBytes q).length) :
    (dequeueLoop room q).1.length = room := by
  induction q generalizing room with
  | nil =>
    rw [Nat.le_zero.mp h]
    rfl
  | cons k q ih =>
    have hb : queueBytes (k :: q) = k.payload.bytes ++ queueBytes q := rfl
    rw [hb, List.length_append] at h
    rw [dequeueLoop]
    split
    next h0 => rw [h0]; rfl
    next =>
      split
      next hk =>
        dsimp only
        rw [List.length_append, ih (by omega)]
        omega
      next hk => exact List.length_take_of_le (by omega)

/-- `receive_queue` has what a reader with so much room left is waiting for:
enough bytes, or a segment with PSH. -/
def TcpSock.satisfies (s : TcpSock) (room : Nat) : Bool :=
  room ≤ (queueBytes s.receiveQueue).length || s.receiveQueue.any (·.psh)

/-- A reader that finds none of this goes to sleep. -/
def TcpSock.starves (s : TcpSock) (room : Nat) : Bool :=
  !s.flagPsh && !s.flagFin && !s.nonblock && !s.satisfies room

theorem tcpReceiveTurn_call {s : TcpSock} {len : Nat} {got : List U8} (h : got.length ≤ len) :
    (tcpReceiveTurn s len got).2.1.call?.isSome = s.starves (len - got.length) := by
  have hfin : (tcpDataDequeue s (len - got.length)).1.flagFin = s.flagFin := by
    simp only [tcpDataDequeue]
    split <;> rfl
  have hnb : (tcpDataDequeue s (len - got.length)).1.nonblock = s.nonblock := by
    simp only [tcpDataDequeue]
    split <;> rfl
  have hpsh : (tcpDataDequeue s (len - got.length)).1.flagPsh = (s.flagPsh || (dequeueLoop (len - got.length) s.receiveQueue).2.2) := by
    simp only [tcpDataDequeue]
    split <;> rfl
  have hcop : (tcpDataDequeue s (len - got.length)).2 = (dequeueLoop (len - got.length) s.receiveQueue).1 := rfl
  unfold tcpReceiveTurn TcpSock.starves TcpSock.satisfies
  generalize tcpDataDequeue s (len - got.length) = r at hfin hnb hpsh hcop
  obtain ⟨t, copied⟩ := r
  dsimp only at hfin hnb hpsh hcop ⊢
  by_cases hroom : len - got.length ≤ (queueBytes s.receiveQueue).length
  · have hlen : got.length + copied.length = len := by
      rw [hcop, dequeueLoop_full hroom]
      omega
    rw [decide_eq_true hroom, Bool.true_or, Bool.not_true, Bool.and_false, decide_eq_true hlen, Bool.or_true]
    split <;> rfl
  · have hall := dequeueLoop_all (not_le.mp hroom)
    rw [hall] at hpsh hcop
    have hlen : got.length + copied.length ≠ len := by
      rw [hcop]
      dsimp only
      omega
    rw [decide_eq_false hroom, Bool.false_or, decide_eq_false hlen, Bool.or_false, hfin, hnb, hpsh]
    dsimp only
    cases s.flagPsh <;> cases (s.receiveQueue.any fun x => x.psh) <;> cases s.flagFin <;> cases s.nonblock <;> try rfl
    all_goals
      simp only [Bool.or_false, Bool.false_eq_true, if_false, if_true, Bool.not_true, Bool.and_false]
      split <;> rfl

theorem dequeueLoop_le (q : List Skb) (room : Nat) : (dequeueLoop room q).1.length ≤ room := by
  by_cases h : room ≤ (queueBytes q).length
  · exact (dequeueLoop_full h).le
  · rw [dequeueLoop_all (not_le.mp h)]
    exact (not_le.mp h).le

/-- A sleeping reader has room left. -/
def Call.roomy : Call → Prop
  | .recv len got => got.length < len
  | .send _ _ _ _ | .fin _ => True

theorem tcpReceiveTurn_roomy {s : TcpSock} {len : Nat} {got : List U8} (h : got.length ≤ len) {call : Call}
    (hc : (tcpReceiveTurn s len got).2.1.call? = some call) : call.roomy := by
  have hle : (tcpDataDequeue s (len - got.length)).2.length ≤ len - got.length := dequeueLoop_le _ _
  unfold tcpReceiveTurn at hc
  generalize tcpDataDequeue s (len - got.length) = r at hle hc
  obtain ⟨t, copied⟩ := r
  dsimp only at hle hc
  split at hc
  · cases hc
  · split at hc
    · cases hc
    next hne =>
      split at hc
      · split at hc <;> cases hc
      · rw [← Option.some.inj hc]
        simp only [Bool.or_eq_true, decide_eq_true_eq, not_or] at hne
        show (got ++ copied).length < len
        rw [List.length_append]
        omega

theorem tcpRead_roomy {s : TcpSock} {len : Nat} {call : Call} (hc : (tcpRead s len).2.1.call? = some call) : call.roomy := by
  have hr : (tcpReceive s len).2.1.call? = some call → call.roomy := fun hc => by
    unfold tcpReceive at hc
    split at hc
    · exact tcpReceiveTurn_roomy (Nat.zero_le _) hc
    · cases hc
  unfold tcpRead at hc
  split at hc
  case h_1 | h_9 | h_10 | h_11 => cases hc
  case h_8 =>
    split at hc
    · cases hc
    · exact hr hc
  all_goals exact hr hc

namespace Conn

theorem live_roomy {c : Conn} (h : ∀ call ∈ c.calls, call.roomy) (e : LifeEvent) : ∀ call ∈ (c.live e).calls, call.roomy := by
  have hu : ∀ call ∈ c.undisturbed e, call.roomy := by
    intro call hm
    unfold undisturbed at hm
    split at hm
    · split at hm
      · exact h call hm
      · exact h call (List.mem_of_mem_eraseIdx hm)
    · exact h call hm
  intro call hm
  rw [live_calls] at hm
  rcases List.mem_append.mp hm with hm | hm
  · exact hu call hm
  · have hd : c.dozer e = some call := by simpa using hm
    by_cases hw : call.wait = .recvWait
    · rcases (dozer_recv hd hw).2 with ⟨len, -, hc⟩ | ⟨i, len, got, -, hi, hc⟩
      · exact tcpRead_roomy hc
      · have hroom : got.length < len := h _ (List.mem_of_getElem? hi)
        exact tcpReceiveTurn_roomy hroom.le hc
    · cases call with
      | recv => exact absurd rfl hw
      | _ => trivial

end Conn

/-! ## The end of the stream -/

/-- Nothing more is taken from the peer. -/
def TcpState.eos : TcpState → Bool
  | .closeWait | .closing | .lastAck | .timeWait => true
  | .listen | .synSent | .synReceived | .established | .finWait1 | .finWait2 | .close => false

theorem Move.eos {a : Act} {c c' : Core} {es : List Effect} (hm : Move a c es c') (h : c.state.eos) : c'.state.eos := by
  cases hm with
  | finWait2 _ hs | finResent _ _ hs | closeStart hs | establish hs | fault hs | connect hs | simultaneous hs =>
    rw [hs] at h
    cases h
  | fin =>
    simp only [Core.finState]
    cases hs : c.state <;> simp_all [TcpState.eos]
  | queueFin lastAck =>
    cases lastAck
    · exact h
    · rfl
  | _ => first | exact h | rfl

/-- Only a segment brings the FIN, and consuming it leads there. -/
theorem Move.peerFin {a : Act} {c c' : Core} {es : List Effect} (hm : Move a c es c') (h : Effect.peerFin ∈ es) :
    c'.state.eos ∧ ∃ c₀ th skb, a = .arrive c₀ th skb := by
  have plain : ∀ {k : Core} {l : List Effect}, (∀ e ∈ l, k.Plain e) → Effect.peerFin ∉ l := fun hp hm => hp _ hm
  cases hm with
  | fin _ _ _ h1 h2 h3 h4 _ =>
    refine ⟨?_, _, _, _, rfl⟩
    show c.finState.eos
    unfold Core.finState
    cases hs : c.state <;> first | rfl | contradiction | (dsimp only; split <;> rfl)
  | quiet hp | reset _ hp | ack _ _ _ _ hp | connect _ _ _ _ hp | userTimeout hp | abort hp => exact absurd h (plain hp)
  | resend hp =>
    obtain ⟨k, -, hs⟩ := hp _ h
    exact hs.elim
  | sendNext _ hn =>
    obtain ⟨k, -, -, n, hs⟩ := hn.emits _ h
    exact hs.elim
  | resendHead _ _ hs =>
    rw [← List.mem_singleton.mp h] at hs
    exact hs.elim
  | simultaneous _ _ _ _ hs | data _ _ hs | queueFin _ _ _ _ hs =>
    simp only [List.mem_cons, List.not_mem_nil, or_false, reduceCtorEq, false_or] at h
    rw [← h] at hs
    exact hs.elim
  | _ => simp at h

theorem opens_eos {c c' : Core} (ho : c.Opens c') (h : c.state.eos) : c'.state.eos := by
  cases ho with
  | fails => exact h
  | listen hs | connect _ hs _ =>
    rw [hs] at h
    cases h

/-! ## The segment that brings the FIN -/

section

variable {s : TcpSock} {th : Tcphdr} {skb : Skb}

theorem Logs.not_mem {e : Effect} {s t : TcpSock} (h : Logs (· ≠ e) s t) (hn : e ∉ s.fx) : e ∉ t.fx := fun hm =>
  (h.mem hm).elim hn fun h => h rfl

/-- The segment passes the ACK processing and goes on to its text. -/
def TcpSock.hearsAck (s : TcpSock) (th : Tcphdr) (skb : Skb) : Bool :=
  match s.state with
  | .synReceived => ackIsNew s th && s.ptsk.isSome
  | .established | .finWait1 | .finWait2 | .closeWait | .closing => s.ackPasses th skb
  | .lastAck => s.ackPasses th skb && !s.acksAll th
  | .timeWait => true
  | .listen | .synSent | .close => false

/-- The segment has a FIN, and it is consumed. -/
def TcpSock.hearsFin (s : TcpSock) (th : Tcphdr) (skb : Skb) : Bool :=
  s.core.Heard th skb && s.hearsAck th skb && th.fin && skb.seq = s.tcb.rcvNxt

/-- The text of a segment that is expected is queued. -/
def TcpSock.hearsText (s : TcpSock) (th : Tcphdr) (skb : Skb) : Bool :=
  (s.state.takesText || s.state = .synReceived) && (th.psh || skb.dlen > 0) && s.tcb.rcvWnd ≠ 0

theorem finAcked_logs (s : TcpSock) (th : Tcphdr) : Logs (· ≠ .peerFin) s (finAcked s th).sock := by
  unfold finAcked
  split
  · split
    case h_3 => exact tcpDone_logs s nofun
    case h_4 =>
      dsimp only [Ctl.sock]
      split
      · exact Logs.trans (t := { s with flagFin := true }) (.same rfl) ((quiet_tcpSendAck _).logs.mono fun _ => plain_ne_peerFin)
      · exact .refl s
    all_goals exact .same rfl
  · exact .refl s

theorem segmentText_logs (s : TcpSock) (th : Tcphdr) (skb : Skb) : Logs (· ≠ .peerFin) s (segmentText s th skb) := by
  have hq : Logs (· ≠ .peerFin) s (tcpDataQueue s skb) := by
    unfold tcpDataQueue
    split
    · exact .refl s
    · split
      · exact .emit nofun
      · refine Logs.trans ?_ ((quiet_tcpSendAck _).logs.mono fun _ => plain_ne_peerFin)
        split
        · exact (quiet_tcpCalculateSacks { s with ofoQueue := tcpDataInsertOrdered skb s.ofoQueue } _ _).logs.mono
            fun _ => plain_ne_peerFin
        · exact .same rfl
  unfold segmentText
  split
  case h_4 => exact .refl s
  all_goals
    split
    · exact hq
    · exact .refl s

theorem segmentText_signals (h : s.takesInOrder th skb) : (segmentText s th skb).fx = s.fx ++ [.wakeup .recvWait] := by
  simp only [TcpSock.takesInOrder, Bool.and_eq_true, decide_eq_true_eq] at h
  obtain ⟨⟨⟨hs, hp⟩, hw⟩, hq⟩ := h
  have ht : segmentText s th skb = tcpDataQueue s skb := by
    unfold segmentText
    cases hst : s.state <;> simp only [hst, TcpState.takesText, Bool.false_eq_true] at hs ⊢ <;> rw [if_pos hp]
  rw [ht, tcpDataQueue, if_neg hw, if_pos hq]
  rfl

/-- An in-sequence FIN signals the readers once. -/
theorem finBit_signals {expected : Bool} (hm : .peerFin ∈ (finBit s th expected).sock.fx) (hn : .peerFin ∉ s.fx) :
    th.fin ∧ expected ∧ signals .recvWait s.fx + 1 ≤ signals .recvWait (finBit s th expected).sock.fx := by
  unfold finBit at hm ⊢
  split at hm
  next hf =>
    rw [if_pos hf]
    rw [Bool.and_eq_true] at hf
    refine ⟨hf.1, hf.2, ?_⟩
    split at hm
    case h_1 | h_2 | h_3 => exact absurd hm hn
    next =>
      dsimp only [Ctl.sock]
      rw [finState_fx]
      generalize hu : TcpSock.emit _ .peerFin = u
      have hlog := (quiet_tcpSendAck u).logs.signals .recvWait
      have he : signals .recvWait s.fx ≤ signals .recvWait u.fx := by
        rw [← hu]
        show _ ≤ signals .recvWait (s.fx ++ [.peerFin])
        rw [signals_append]
        exact Nat.le_add_right _ _
      show _ ≤ signals .recvWait ((tcpSendAck u).fx ++ [.wakeup .recvWait])
      rw [signals_append]
      have : signals .recvWait [.wakeup .recvWait] = 1 := rfl
      omega
  next => exact absurd hm hn

theorem afterFin_signals (hm : .peerFin ∈ (afterFin s th skb).sock.fx) (hn : .peerFin ∉ s.fx) :
    th.fin ∧ skb.seq = s.tcb.rcvNxt ∧
    signals .recvWait s.fx + 1 + (s.takesInOrder th skb).toNat ≤ signals .recvWait (afterFin s th skb).sock.fx := by
  have hl := segmentText_logs s th skb
  have htext : signals .recvWait s.fx + (s.takesInOrder th skb).toNat ≤ signals .recvWait (segmentText s th skb).fx := by
    cases ht : s.takesInOrder th skb with
    | false => exact hl.signals .recvWait
    | true =>
      rw [segmentText_signals ht, signals_append]
      exact le_refl _
  unfold afterFin at hm ⊢
  have hfin : .peerFin ∈ (finBit (segmentText s th skb) th (skb.seq = s.tcb.rcvNxt)).sock.fx ∧
      signals .recvWait (finBit (segmentText s th skb) th (skb.seq = s.tcb.rcvNxt)).sock.fx ≤ signals .recvWait
        ((finBit (segmentText s th skb) th (skb.seq = s.tcb.rcvNxt)).andThen fun t =>
          .next (ackData t th skb (skb.seq = s.tcb.rcvNxt))).sock.fx := by
    cases hb : finBit (segmentText s th skb) th (skb.seq = s.tcb.rcvNxt) with
    | ret t =>
      rw [hb] at hm
      exact ⟨hm, le_refl _⟩
    | next t =>
      rw [hb] at hm
      have hd := ackData_logs t th skb (skb.seq = s.tcb.rcvNxt)
      exact ⟨by_contra fun h => absurd hm (hd.not_mem h), hd.signals .recvWait⟩
  obtain ⟨h1, h2, h3⟩ := finBit_signals hfin.1 (hl.not_mem hn)
  exact ⟨h1, of_decide_eq_true h2, by have := hfin.2; omega⟩

theorem ackField_hearsAck {t : TcpSock} (hl : s.state.late) (h : ackField s th skb = .next t)
    (hf : ¬(t.writeQueue.isEmpty ∧ t.state = .lastAck)) : s.hearsAck th skb := by
  obtain ⟨h1, h2, h3⟩ := hl
  have sync : ackSynchronized s th skb = .next t → s.ackPasses th skb ∧ t.state = s.state ∧ t.writeQueue.isEmpty = s.acksAll th := by
    intro h
    rcases ackSynchronized_cases s th skb with ⟨hp, u, hu, hst, hq, -⟩ | ⟨-, u, hu, -⟩
    · rw [hu] at h
      rw [← Ctl.next.inj h]
      exact ⟨hp, hst, hq⟩
    · rw [hu] at h
      cases h
  unfold ackField at h
  unfold TcpSock.hearsAck
  cases hs : s.state with
  | close => exact absurd hs h1
  | listen => exact absurd hs h2
  | synSent => exact absurd hs h3
  | timeWait => rfl
  | synReceived =>
    simp only [hs] at h
    split at h
    next hn =>
      cases hp : s.ptsk with
      | none =>
        simp only [TcpSock.setState, hp] at h
        cases h
      | some p => rw [hn]; rfl
    next => cases h
  | lastAck =>
    simp only [hs] at h
    obtain ⟨hp, hst, hq⟩ := sync h
    rw [hs] at hst
    have hq : s.acksAll th = false := by simpa [hst, hq] using hf
    rw [hp, hq]
    rfl
  | _ =>
    simp only [hs] at h
    exact (sync h).1

/-- **The readers are signalled** by the segment whose FIN is consumed: once,
and once more if its text is queued. -/
theorem heard_signals (hl : s.state.late) (hh : s.core.Heard th skb) (hn : .peerFin ∉ s.fx)
    (hm : .peerFin ∈ ((ackField s th skb).andThen fun s => afterAck s th skb).sock.fx) : s.hearsFin th skb ∧
    signals .recvWait s.fx + 1 + (s.hearsText th skb).toNat ≤
      signals .recvWait ((ackField s th skb).andThen fun s => afterAck s th skb).sock.fx := by
  have hmild : Effect.Mild (· ≠ .peerFin) := ⟨nofun, nofun⟩
  have hsp : s.Spares (· ≠ .peerFin) := fun k _ r n e => sends_ne_peerFin
  have hl1 := (ackField_spared hmild hsp th skb).1
  have hr1 := ackField_rcv s th skb
  have hst1 := ackField_state s th skb
  cases ha : ackField s th skb with
  | ret t =>
    rw [ha] at hm hl1
    exact absurd hm (hl1.not_mem hn)
  | next t =>
    rw [ha] at hm hl1 hr1 hst1
    rw [Ctl.andThen] at hm ⊢
    rw [afterAck_eq] at hm ⊢
    have hl2 := hl1.trans (finAcked_logs t th)
    cases hb : finAcked t th with
    | ret u =>
      rw [hb] at hm hl2
      exact absurd hm (hl2.not_mem hn)
    | next u =>
      obtain ⟨-, hfin, -⟩ := finAcked_state hb
      have hr2 := finAcked_rcv hb
      rw [hb] at hm hl2
      rw [Ctl.andThen] at hm ⊢
      have hr : u.rcv = s.rcv := hr2.trans hr1
      have hnx : u.tcb.rcvNxt = s.tcb.rcvNxt := congrArg RcvSide.nxt hr
      have hwnd : u.tcb.rcvWnd = s.tcb.rcvWnd := congrArg RcvSide.wnd hr
      obtain ⟨hf, hseq, hsig⟩ := afterFin_signals hm (hl2.not_mem hn)
      have hack := ackField_hearsAck hl ha hfin
      refine ⟨?_, ?_⟩
      · simp only [TcpSock.hearsFin, hh, hack, hf, ← hnx, hseq, decide_true, Bool.and_self]
      · have htext : u.takesInOrder th skb = s.hearsText th skb := by
          have ht : u.state.takesText = (s.state.takesText || s.state = .synReceived) := by
            rw [finAcked_takesText hb, show t.state = _ from hst1]
            by_cases hs : s.state = .synReceived
            · have hn : ackIsNew s th := by
                simp only [TcpSock.hearsAck, hs, Bool.and_eq_true] at hack
                exact hack.1
              rw [if_pos ⟨hs, hn⟩, hs]
              rfl
            · rw [if_neg fun h => hs h.1, decide_eq_false hs, Bool.or_false]
          simp only [TcpSock.takesInOrder, TcpSock.hearsText, ht, hwnd, hseq, decide_true, Bool.and_true]
        have hmono := hl2.signals .recvWait
        rw [Ctl.sock] at hmono
        rw [← htext]
        omega

theorem tcpSynsent_logs (hs : s.state = .synSent) (th : Tcphdr) : Logs (· ≠ .peerFin) s (tcpSynsent s th) := by
  rw [tcpSynsent_eq]
  split
  · exact .refl s
  split
  · exact .refl s
  split
  · unfold tcpReset
    simp only [hs]
    exact Logs.trans (.same rfl) (tcpDone_logs _ nofun)
  split
  · exact .refl s
  refine ((synAckedSock_logs s th).mono fun _ => plain_ne_peerFin).trans ?_
  unfold synTaken
  split
  · exact (synsentEstablish_logs _ th).mono fun _ => plain_ne_peerFin
  · obtain ⟨e, hf, he⟩ := tcpSendSynack_fx
      (s := { (synAckedSock s th).setState .synReceived with tcb.sndUna := (synAckedSock s th).tcb.iss }) rfl
    refine ⟨_, hf, fun x hx => ?_⟩
    rcases List.mem_cons.mp hx with rfl | hx
    · nofun
    · rw [List.mem_singleton.mp hx]
      exact sends_ne_peerFin he

/-- An acceptable RST: TIME_WAIT, and one reader is signalled. -/
theorem segmentArrives_rst (h : s.hearsRst th skb) : segmentArrives s th skb = (tcpEnterTimeWait s).wakeup .recvWait := by
  have hl : s.state.late := by
    refine ⟨?_, ?_, ?_⟩ <;> intro hs <;> simp [TcpSock.hearsRst, hs] at h
  have hvr : s.core.rcv.verify th skb && th.rst := by
    unfold TcpSock.hearsRst at h
    cases hs : s.state <;> simp_all
  rw [Bool.and_eq_true] at hvr
  have hv : tcpVerifySegment s th skb = true := hvr.1
  rw [segmentArrives_late hl, tcpInputOtherwise, hv, hvr.2]
  rfl

theorem segmentArrives_signals (hn : .peerFin ∉ s.fx) (hm : .peerFin ∈ (segmentArrives s th skb).fx) : s.hearsFin th skb ∧
    signals .recvWait s.fx + 1 + (s.hearsText th skb).toNat ≤ signals .recvWait (segmentArrives s th skb).fx := by
  by_cases hl : s.state.late
  · rw [segmentArrives_late hl] at hm ⊢
    rcases tcpInputOtherwise_cases s th skb with ⟨hh, he⟩ | ⟨-, -, he⟩ | ⟨-, he | he⟩
    · rw [he] at hm ⊢
      exact heard_signals hl hh hn hm
    · rw [he] at hm
      have hlog : Logs (· ≠ .peerFin) s ((tcpEnterTimeWait s).wakeup .recvWait) :=
        Logs.trans (.same (tcpEnterTimeWait_fx s)) (.emit nofun)
      exact absurd hm (hlog.not_mem hn)
    · rw [he] at hm
      exact absurd hm hn
    · rw [he] at hm
      have hlog : Logs (· ≠ .peerFin) s (tcpSendAck s) := (quiet_tcpSendAck s).logs.mono fun _ => plain_ne_peerFin
      exact absurd hm (hlog.not_mem hn)
  · have hlog : Logs (· ≠ .peerFin) s (segmentArrives s th skb) := by
      unfold segmentArrives
      split
      next =>
        unfold tcpClosed
        split
        · exact .refl s
        · exact (tcpSendReset_logs s).mono fun _ => plain_ne_peerFin
      next => exact .refl s
      next hs => exact tcpSynsent_logs hs th
      next h1 h2 h3 => exact absurd ⟨h1, h2, h3⟩ hl
    exact absurd hm (hlog.not_mem hn)

end

/-! ## Readers over the life of a socket -/

theorem tcpReceive_call (s : TcpSock) (len : Nat) : (tcpReceive s len).2.1.call?.isSome = (decide (0 < len) && s.starves len) := by
  unfold tcpReceive
  split
  next h =>
    rw [tcpReceiveTurn_call (Nat.zero_le _), decide_eq_true h, Bool.true_and]
    rfl
  next h => rw [decide_eq_false h]; rfl

/-- At the end of the stream only a read in CLOSE_WAIT sleeps, once the FIN flag
is cleared. -/
theorem tcpRead_eos {s : TcpSock} (hs : s.state.eos) {len : Nat} (h : (tcpRead s len).2.1.call?.isSome) :
    s.state = .closeWait ∧ s.flagFin = false ∧ s.nonblock = false ∧ 0 < len := by
  have receive : (tcpReceive s len).2.1.call?.isSome → s.flagFin = false ∧ s.nonblock = false ∧ 0 < len := fun h => by
    simp only [tcpReceive_call, TcpSock.starves, Bool.and_eq_true, Bool.not_eq_true', decide_eq_true_eq] at h
    exact ⟨h.2.1.1.2, h.2.1.2, h.1⟩
  unfold tcpRead at h
  cases hst : s.state <;> rw [hst] at hs <;> simp only [hst] at h <;> try cases hs
  case closeWait =>
    refine ⟨rfl, ?_⟩
    split at h
    · cases h
    · exact receive h
  all_goals cases h

namespace Conn

/-- A reader goes to sleep though nothing more can arrive: a read in CLOSE_WAIT
after the one that returned 0, or a reader that runs again and finds no FIN
flag, nor what it waits for. -/
def starvesAt (c : Conn) : LifeEvent → Bool
  | .conn (.read len) => !c.sk.fault && c.sk.state = .closeWait && !c.sk.flagFin && !c.sk.nonblock && 0 < len
  | .conn (.resume i) =>
    match c.calls[i]? with
    | some (.recv len got) => !c.sk.fault && !c.sk.flagFin && !c.sk.nonblock && !c.sk.satisfies (len - got.length)
    | some (.send _ _ _ _) | some (.fin _) | none => false
  | _ => false

/-- How often an event that ends the stream signals the readers: `tcp_done`
never, an RST once, a FIN once, and once more for the text that is with it. -/
def endSignals (c : Conn) (e : LifeEvent) : Option Nat :=
  if e.event?.any c.finishes then some 0
  else
    match e with
    | .conn (.segment th data psh) =>
      let skb := tcpInitSegment th data psh
      if c.sk.fault then none
      else if c.sk.hearsRst th skb then some 1
      else if c.sk.hearsFin th skb then some (1 + (c.sk.hearsText th skb).toNat)
      else none
    | _ => none

/-- No reader goes to sleep at the end of the stream, unless it starves. -/
theorem dozer_starves {c : Conn} (hs : c.sk.state.eos) (hr : ∀ call ∈ c.calls, call.roomy) {e : LifeEvent}
    {call : Call} (h : c.dozer e = some call) (hw : call.wait = .recvWait) : c.starvesAt e := by
  obtain ⟨hf, ⟨len, rfl, hc⟩ | ⟨i, len, got, rfl, hi, hc⟩⟩ := dozer_recv h hw
  · obtain ⟨h1, h2, h3, h4⟩ := tcpRead_eos hs (by rw [hc]; rfl)
    simp only [starvesAt, hf, h1, h2, h3, h4, decide_true, Bool.not_false, Bool.and_self]
  · have hroom : got.length < len := hr _ (List.mem_of_getElem? hi)
    have hst := tcpReceiveTurn_call (s := c.sk) hroom.le
    rw [hc] at hst
    have hst : c.sk.starves (len - got.length) = true := hst.symm
    simp only [TcpSock.starves, Bool.and_eq_true] at hst
    simp only [starvesAt, hi, hf, hst, Bool.not_false, Bool.and_self]

/-- Only a read, or a reader that runs again, changes how many readers sleep. -/
theorem live_waiting_recv {c : Conn} {e : LifeEvent} (hd : ∀ len, e ≠ .conn (.read len)) (hr : ∀ i, e ≠ .conn (.resume i)) :
    (c.live e).waiting .recvWait = c.waiting .recvWait ∧ c.resumes .recvWait e = false := by
  have hres : c.resumes .recvWait e = false := by
    unfold resumes
    split
    next i => exact absurd rfl (hr i)
    next => rfl
  refine ⟨?_, hres⟩
  have hl := c.live_waiting .recvWait e
  have hdoze : ((c.dozer e).any fun call => call.wait = .recvWait) = false := by
    cases hc : c.dozer e with
    | none => rfl
    | some call =>
      rw [Option.any_some, decide_eq_false_iff_not]
      intro hw
      rcases (dozer_recv hc hw).2 with ⟨len, rfl, -⟩ | ⟨i, len, got, rfl, -⟩
      · exact hd len rfl
      · exact hr i rfl
  rw [hres, hdoze] at hl
  exact hl

/-- A FIN comes with a segment. -/
theorem live_peerFin {c : Conn} (hr : c.OnlyReaders) {e : LifeEvent} (hn : .peerFin ∉ c.sk.fx) (hm : .peerFin ∈ (c.live e).sk.fx) :
    c.sk.fault = false ∧ ∃ th data psh, e = .conn (.segment th data psh) := by
  cases e with
  | listen =>
    simp only [live] at hm
    split at hm
    · exact absurd hm hn
    · rw [(tcpV4Listen_opens c.sk).2] at hm
      exact absurd hm hn
  | connect d iss =>
    simp only [live] at hm
    split at hm
    · exact absurd hm hn
    · obtain ⟨-, es, hf, hs⟩ := inetStreamConnect_opens c.sk d iss
      rw [hf] at hm
      rcases List.mem_append.mp hm with hm | hm
      · exact absurd hm hn
      · exact absurd (hs _ hm) (by decide)
  | conn e =>
    have hf : c.sk.fault = false := by
      by_contra hf
      rw [live, step_of_fault (by simpa using hf)] at hm
      exact hn hm
    refine ⟨hf, ?_⟩
    by_contra he
    obtain ⟨es, hfx, hmv⟩ := step_moves hr.ready e
    rw [live, hfx] at hm
    have key : ∀ {a : Act} {k k' : Core} {es : List Effect}, Moves a k es k' → .peerFin ∈ es → ∃ c₀ th skb, a = .arrive c₀ th skb := by
      intro a k k' es hmv
      induction hmv with
      | nil => simp
      | cons hm _ ih =>
        intro h
        exact (List.mem_append.mp h).elim (fun h => (hm.peerFin h).2) ih
    rcases List.mem_append.mp hm with hm | hm
    · exact hn hm
    · obtain ⟨c₀, th, skb, ha⟩ := key hmv hm
      exact not_arrive (fun th data psh h => he ⟨th, data, psh, by rw [h]⟩) _ _ _ ha

/-- A `tcp_close` that will enter LAST_ACK sleeps at the end of the stream. -/
theorem live_closers {c : Conn} (hr : c.OnlyReaders) (h : .fin true ∈ c.calls → c.sk.state.eos) (e : LifeEvent)
    (hm : .fin true ∈ (c.live e).calls) : (c.live e).sk.state.eos := by
  refine live_keeps_core (I := fun k => k.state.eos) (fun hmv hk => hmv.eos hk) (fun ho hk => opens_eos ho hk) hr ?_ e
  rw [live_calls] at hm
  rcases List.mem_append.mp hm with hm | hm
  · refine h ?_
    unfold undisturbed at hm
    split at hm
    · split at hm
      · exact hm
      · exact List.mem_of_mem_eraseIdx hm
    · exact hm
  · have hd : c.dozer e = some (.fin true) := by simpa using hm
    rcases dozer_fin hd with ⟨rfl, hc⟩ | ⟨i, rfl, hi⟩
    · have hs := call?_eq_some hc
      unfold tcpClose at hs
      split at hs
      case h_10 => cases (tcpQueueFin_sleep hs).1
      case h_11 hst => rw [core_state, hst]; rfl
      all_goals cases hs
    · exact h (List.mem_of_getElem? hi)

end Conn

/-- A socket with its readers: whether the stream has ended, and how many of
the readers asleep have been signalled. -/
structure Eos where
  conn : Conn
  ended : Bool := false
  woken : Nat := 0

namespace Eos

/-- The stream ends when the peer's FIN is consumed, when an RST is accepted and
when `tcp_done` runs. -/
def step (h : Eos) (e : LifeEvent) : Eos :=
  { conn := h.conn.live e
    ended := h.ended || e.event?.any h.conn.finishes || e.event?.any h.conn.hearsRst || .peerFin ∈ (h.conn.live e).sk.fx
    woken := h.conn.wokenAfter .recvWait h.woken e }

/-- At the end of the stream no reader goes to sleep, and those asleep have all
been signalled. -/
def Prompt (h : Eos) (e : LifeEvent) : Prop :=
  (h.ended → (h.conn.dozer e).all fun call => call.wait ≠ .recvWait) ∧
  ((h.step e).ended → (h.step e).conn.waiting .recvWait ≤ (h.step e).woken)

instance (h : Eos) (e : LifeEvent) : Decidable (h.Prompt e) := by
  unfold Prompt
  infer_instance

/-- No reader starves at the end of the stream, and the event that ends it finds
no more readers asleep than it signals. -/
def spares (h : Eos) (e : LifeEvent) : Bool :=
  if h.ended then !h.conn.starvesAt e
  else (h.conn.endSignals e).all fun n => h.conn.waiting .recvWait ≤ h.woken + n

/-- What holds of readers over the life of a socket. -/
structure Inv (h : Eos) : Prop where
  readers : h.conn.OnlyReaders
  roomy : ∀ call ∈ h.conn.calls, call.roomy
  ended : h.ended → h.conn.sk.state.eos
  fin : .peerFin ∈ h.conn.sk.fx → h.ended
  woken : h.ended → h.conn.waiting .recvWait ≤ h.woken

theorem step_ended {h : Eos} (hi : h.Inv) {e : LifeEvent} (he : (h.step e).ended) : (h.step e).conn.sk.state.eos := by
  show (h.conn.live e).sk.state.eos
  by_cases hold : h.ended
  · exact Conn.live_keeps_core (I := fun k => k.state.eos) (fun hmv hk => hmv.eos hk) (fun ho hk => opens_eos ho hk) hi.readers
      (hi.ended hold) e
  · have hst := Conn.live_state h.conn e
    split at hst
    · rw [hst]; rfl
    next hrst =>
      split at hst
      · rw [hst]; rfl
      next hfin =>
        have hfinned : .peerFin ∈ (h.conn.live e).sk.fx := by
          simpa [step, hold, hrst, hfin] using he
        exact Conn.live_keeps (I := fun k log => .peerFin ∈ log → k.state.eos)
          (fun hmv hk hm => (List.mem_append.mp hm).elim (fun h => hmv.eos (hk h)) fun h => (hmv.peerFin h).1)
          (fun ho hs hk hm => (List.mem_append.mp hm).elim (fun h => opens_eos ho (hk h)) fun h => absurd (hs _ h) nofun)
          hi.readers (fun hm => absurd (hi.fin hm) hold) e hfinned

/-- An event that ends the stream is no read, and signals as many readers as
`endSignals` says. -/
theorem step_signals {h : Eos} (hi : h.Inv) {e : LifeEvent} (hold : h.ended = false) (he : (h.step e).ended) :
    (∀ len, e ≠ .conn (.read len)) ∧ (∀ i, e ≠ .conn (.resume i)) ∧ ∃ n, h.conn.endSignals e = some n ∧
      signals .recvWait h.conn.sk.fx + n ≤ signals .recvWait (h.conn.live e).sk.fx := by
  cases hfin : e.event?.any h.conn.finishes with
  | true =>
    refine ⟨?_, ?_, 0, by simp only [Conn.endSignals, hfin, if_true],
      h.conn.live_signals hi.readers e .recvWait⟩
    · rintro len rfl
      simp [LifeEvent.event?, Conn.finishes] at hfin
    · rintro i rfl
      simp [LifeEvent.event?, Conn.finishes] at hfin
  | false =>
    have hn : .peerFin ∉ h.conn.sk.fx := fun hm => by
      have := hi.fin hm
      rw [hold] at this
      cases this
    have hsum : e.event?.any h.conn.hearsRst ∨ .peerFin ∈ (h.conn.live e).sk.fx := by
      simpa [step, hold, hfin] using he
    have hseg : h.conn.sk.fault = false ∧ ∃ th data psh, e = .conn (.segment th data psh) := by
      rcases hsum with hr | hm
      · exact Conn.hearsRst_segment hr
      · exact Conn.live_peerFin hi.readers hn hm
    obtain ⟨hft, th, data, psh, rfl⟩ := hseg
    refine ⟨by simp, by simp, ?_⟩
    have hsk : (h.conn.live (.conn (.segment th data psh))).sk = segmentArrives h.conn.sk th (tcpInitSegment th data psh) := by
      simp [Conn.live, Conn.step, hft]
    simp only [Conn.endSignals, hfin, hft, Bool.false_eq_true, if_false]
    rw [hsk] at hsum ⊢
    have hrst : (LifeEvent.conn (.segment th data psh)).event?.any h.conn.hearsRst = h.conn.sk.hearsRst th (tcpInitSegment th data psh) := by
      simp [LifeEvent.event?, Conn.hearsRst, hft]
    rw [hrst] at hsum
    generalize tcpInitSegment th data psh = skb at hsum
    cases hr : h.conn.sk.hearsRst th skb with
    | true =>
      refine ⟨1, if_pos rfl, ?_⟩
      rw [segmentArrives_rst hr]
      show _ ≤ signals .recvWait ((tcpEnterTimeWait h.conn.sk).fx ++ [.wakeup .recvWait])
      rw [tcpEnterTimeWait_fx, signals_append]
      exact le_refl _
    | false =>
      have hm : .peerFin ∈ (segmentArrives h.conn.sk th skb).fx := hsum.resolve_left (by simp [hr])
      obtain ⟨hfin, hsig⟩ := segmentArrives_signals hn hm
      exact ⟨_, by rw [if_neg (by simp), if_pos hfin], by omega⟩

theorem step_prompt {h : Eos} (hi : h.Inv) {e : LifeEvent} (hok : h.spares e) : h.Prompt e := by
  have hfirst : h.ended → (h.conn.dozer e).all fun call => call.wait ≠ .recvWait := by
    intro he
    have hst : h.conn.starvesAt e = false := by simpa [spares, he] using hok
    rw [Option.all_eq_true]
    intro call hc
    rw [decide_eq_true_eq]
    intro hw
    rw [Conn.dozer_starves (hi.ended he) hi.roomy hc hw] at hst
    cases hst
  refine ⟨hfirst, fun he => ?_⟩
  show (h.conn.live e).waiting .recvWait ≤ h.conn.wokenAfter .recvWait h.woken e
  refine le_min (le_refl _) ?_
  cases hold : h.ended with
  | true =>
    have hl := h.conn.live_waiting .recvWait e
    have hw := hi.woken hold
    have hdoze : ((h.conn.dozer e).any fun call => call.wait = .recvWait) = false := by
      have hall := hfirst hold
      cases hc : h.conn.dozer e with
      | none => rfl
      | some call => simpa [hc] using hall
    rw [hdoze] at hl
    have : (false : Bool).toNat = 0 := rfl
    omega
  | false =>
    obtain ⟨hread, hres, n, hn, hsig⟩ := step_signals hi hold he
    obtain ⟨hl, hr⟩ := Conn.live_waiting_recv (c := h.conn) hread hres
    have hw : h.conn.waiting .recvWait ≤ h.woken + n := by simpa [spares, hold, hn] using hok
    rw [hl, hr]
    have : (false : Bool).toNat = 0 := rfl
    omega

theorem Inv.step {h : Eos} (hi : h.Inv) {e : LifeEvent} (hok : h.spares e) : (h.step e).Inv :=
  { readers := Conn.live_onlyReaders hi.readers e
    roomy := Conn.live_roomy hi.roomy e
    ended := step_ended hi
    fin := fun hm => by
      have hm : .peerFin ∈ (h.conn.live e).sk.fx := hm
      simp [Eos.step, hm]
    woken := (step_prompt hi hok).2 }

theorem Inv.born {s : TcpSock} (hb : Born s) : Inv { conn := { sk := s } } := by
  refine ⟨fun _ => by simp, by simp, by simp, fun hm => ?_, by simp⟩
  cases hb with
  | fresh o => cases hm
  | forked _ hl =>
    obtain ⟨-, cwnd, e, hf, he⟩ := tcpListen_core hl
    rw [hf] at hm
    simp only [List.mem_cons, reduceCtorEq, List.not_mem_nil, or_false, false_or] at hm
    exact absurd hm.symm (sends_ne_peerFin he)

end Eos

/-- **No reader sleeps at the end of the stream.** In a run of any socket, from
its allocation or its fork: if no read is made in CLOSE_WAIT after the FIN flag
was cleared, no reader that runs again finds neither the flag nor what it waits
for, and whatever ends the stream finds no more readers asleep than it signals,
then from the end of the stream on no reader goes to sleep, and those asleep
have all been signalled. -/
theorem readers_prompt {s : TcpSock} (hb : Born s) {es : List LifeEvent}
    (hok : Machine.Meets Eos.step (fun h e => h.spares e) { conn := { sk := s } } es) :
    Machine.Meets Eos.step Eos.Prompt { conn := { sk := s } } es :=
  hok.derives (I := Eos.Inv) (fun _ _ hok hi => ⟨hi.step hok, Eos.step_prompt hi hok⟩) (Eos.Inv.born hb)

/-- A client reads four bytes and gets three of them, sleeps, and the FIN comes. -/
def readAtEnd : List LifeEvent :=
  [.connect {} 100, .conn synAckEvent, .conn (dataEvent 501 ⟨[1, 2, 3], by decide⟩), .conn (.read 4),
   .conn (.segment { seq := 504, ackSeq := 101, ack := true, fin := true, win := 10000 } .nil false), .conn (.resume 0),
   .conn (.read 4)]

theorem readers_prompt_client : Machine.Meets Eos.step Eos.Prompt { conn := { sk := freshSock {} } } readAtEnd :=
  readers_prompt (.fresh {}) (by decide +kernel)

/-- A reader asleep on an idle connection. -/
def readAsleep : List LifeEvent := [.connect {} 100, .conn synAckEvent, .conn (.read 4)]

/-- The read after the one that returned 0 sleeps. So does a reader whom an RST
found asleep, when it runs again; and one whom an abort finds asleep is not
even signalled. -/
theorem reader_sleeps_at_end :
    ¬Machine.Meets Eos.step Eos.Prompt { conn := { sk := freshSock {} } } (readAtEnd ++ [.conn (.read 4)]) ∧
    ¬Machine.Meets Eos.step Eos.Prompt { conn := { sk := freshSock {} } }
      (readAsleep ++ [.conn (.segment { seq := 501, ackSeq := 0, rst := true, win := 0 } .nil false), .conn (.resume 0)]) ∧
    ¬Machine.Meets Eos.step Eos.Prompt { conn := { sk := freshSock {} } } (readAsleep ++ [.conn .abort]) := by
  decide +kernel

end LevelIp
