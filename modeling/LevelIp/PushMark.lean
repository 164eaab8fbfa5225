/-
The PSH bit of a received skb beside `tcp_input_state`, which does not look at
it: the bit goes into a queue with its skb or is lost with it.
-/
import LevelIp.DataAcks

namespace LevelIp

/-! ## The queues -/

/-- `tcp_data_insert_ordered` finds a place for the segment: it meets none that
begins where it does. -/
def hasPlace (seq endSeq : U32) : List Skb → Bool
  | [] => true
  | next :: rest =>
    if seq < next.seq then endSeq ≤ next.seq || hasPlace seq endSeq rest
    else seq ≠ next.seq && hasPlace seq endSeq rest

/-- Without a place the segment is dropped. -/
theorem tcpDataInsertOrdered_placeless {skb : Skb} {q : List Skb} (h : hasPlace skb.seq skb.endSeq q = false) :
    tcpDataInsertOrdered skb q = q := by
  induction q with
  | nil => cases h
  | cons next rest ih =>
    unfold hasPlace at h
    unfold tcpDataInsertOrdered
    split at h
    next hlt =>
      simp only [Bool.or_eq_false_iff, decide_eq_false_iff_not, BitVec.not_le] at h
      rw [if_pos hlt, if_pos h.1, ih h.2]
    next hlt =>
      rw [if_neg hlt]
      split
      · rfl
      next hne =>
        rw [decide_eq_true hne, Bool.true_and] at h
        rw [ih h]

/-- With a place it can be told from the queue which segment was put there. -/
theorem tcpDataInsertOrdered_injective {k k' : Skb} (hs : k.seq = k'.seq) (he : k.endSeq = k'.endSeq) {q : List Skb}
    (h : hasPlace k.seq k.endSeq q) (hq : tcpDataInsertOrdered k q = tcpDataInsertOrdered k' q) : k = k' := by
  induction q with
  | nil => exact (List.cons.inj hq).1
  | cons next rest ih =>
    unfold hasPlace at h
    simp only [tcpDataInsertOrdered] at hq
    rw [← hs, ← he] at hq
    split at h
    next hlt =>
      rw [if_pos hlt, if_pos hlt] at hq
      split at hq
      next hov =>
        rw [decide_eq_false (BitVec.not_le.mpr hov), Bool.false_or] at h
        exact ih h (List.cons.inj hq).2
      next => exact (List.cons.inj hq).1
    next hlt =>
      simp only [Bool.and_eq_true, decide_eq_true_eq] at h
      rw [if_neg hlt, if_neg hlt, if_neg h.1, if_neg h.1] at hq
      exact ih h.2 (List.cons.inj hq).2

/-- `tcp_data_queue` keeps the segment. -/
def RcvSide.keeps (r : RcvSide) (skb : Skb) : Bool :=
  r.wnd ≠ 0 && (skb.seq = r.nxt || hasPlace skb.seq skb.endSeq r.ofo)

theorem RcvSide.take_injective {r : RcvSide} {k k' : Skb} (hs : k.seq = k'.seq) (he : k.endSeq = k'.endSeq) (h : r.keeps k)
    (hq : (r.take k).queue = (r.take k').queue) (ho : (r.take k).ofo = (r.take k').ofo) : k = k' := by
  simp only [RcvSide.keeps, Bool.and_eq_true, Bool.or_eq_true, decide_eq_true_eq] at h
  obtain ⟨hw, h⟩ := h
  unfold RcvSide.take at hq ho
  rw [if_neg hw, if_neg hw, ← hs] at hq ho
  split at hq
  next hseq =>
    rw [RcvSide.push_queue, RcvSide.push_queue, List.append_assoc, List.append_assoc, List.append_cancel_left_eq] at hq
    exact (List.cons.inj hq).1
  next hseq =>
    rw [if_neg hseq, if_neg hseq] at ho
    exact tcpDataInsertOrdered_injective hs he (h.resolve_left hseq) ho

/-- Segments with the same numbers that are not kept are dropped the same way. -/
theorem tcpDataQueue_congr {s : TcpSock} {k k' : Skb} (hs : k.seq = k'.seq) (he : k.endSeq = k'.endSeq)
    (h : s.core.rcv.keeps k = false) : tcpDataQueue s k = tcpDataQueue s k' := by
  unfold tcpDataQueue
  by_cases hw : s.tcb.rcvWnd = 0
  · rw [if_pos hw, if_pos hw]
  · have hkeep : s.core.rcv.keeps k = (decide (k.seq = s.tcb.rcvNxt) || hasPlace k.seq k.endSeq s.ofoQueue) := by
      have hwnd : ¬s.core.rcv.wnd = 0 := hw
      rw [RcvSide.keeps, decide_eq_true hwnd]
      rfl
    simp only [hkeep, Bool.or_eq_false_iff, decide_eq_false_iff_not] at h
    have hplace := tcpDataInsertOrdered_placeless h.2
    rw [hs, he] at h
    rw [if_neg hw, if_neg hw, if_neg (hs ▸ h.1), if_neg h.1, hplace, tcpDataInsertOrdered_placeless h.2, hs, he]

/-! ## The way to the queues -/

/-- The ACK field lets the segment pass to its text. -/
def TcpSock.ackOpens (s : TcpSock) (th : Tcphdr) (skb : Skb) : Bool :=
  s.state.takesText && s.ackPasses th skb || s.state = .synReceived && ackIsNew s th && s.ptsk.isSome

theorem ackOpens_late {s : TcpSock} {th : Tcphdr} {skb : Skb} (h : s.ackOpens th skb) : s.state.late := by
  cases hs : s.state <;> simp_all [TcpSock.ackOpens, TcpState.takesText, TcpState.late]

theorem ackField_opens {s : TcpSock} {th : Tcphdr} {skb : Skb} (h : s.ackOpens th skb) :
    ∃ t, ackField s th skb = .next t ∧ t.state.takesText ∧ t.rcv = s.rcv := by
  simp only [TcpSock.ackOpens, Bool.or_eq_true, Bool.and_eq_true, decide_eq_true_eq] at h
  obtain ⟨hst, hp⟩ | ⟨⟨hst, hn⟩, hp⟩ := h
  · have ht : s.state.takesAck := by cases hs : s.state <;> simp_all [TcpState.takesText, TcpState.takesAck]
    rw [ackField_synchronized ht]
    rcases ackSynchronized_cases s th skb with ⟨-, t, hnext, hs, -, hr⟩ | ⟨hno, -⟩
    · exact ⟨t, hnext, hs ▸ hst, hr⟩
    · rw [hp] at hno
      cases hno
  · obtain ⟨p, hptsk⟩ := Option.isSome_iff_exists.mp hp
    have hptsk' : (s.setState .established).ptsk = some p := hptsk
    obtain ⟨t, hnext, hc⟩ := ackSynchronized_new (s := ((s.setState .established).emit (.acceptQueue p)).wakeup .acceptWait) skb hn
    refine ⟨t, ?_, ?_, congrArg Core.rcv hc⟩
    · unfold ackField
      rw [hst]
      dsimp only
      rw [if_pos hn, hptsk']
      exact hnext
    · have hs : t.state = .established := congrArg Core.state hc
      rw [hs]
      rfl

/-- Any other segment does not get to its text. -/
theorem ackOpens_of_next {s t : TcpSock} {th : Tcphdr} {skb : Skb} (h : ackField s th skb = .next t) (ht : t.state.takesText) :
    s.ackOpens th skb ∧ t.rcv = s.rcv := by
  have hr : t.rcv = s.rcv := by
    have := ackField_rcv s th skb
    rwa [h] at this
  refine ⟨?_, hr⟩
  have hfrom := (ackField_next h ht).1
  cases hs : s.state <;> simp only [core_state, hs, TcpState.takesText, Bool.false_eq_true, false_or, reduceCtorEq, or_false] at hfrom
  case synReceived =>
    unfold ackField at h
    rw [hs] at h
    dsimp only at h
    split at h
    next hn =>
      split at h
      · cases h
      next p hp =>
        have hp : s.ptsk = some p := hp
        simp [TcpSock.ackOpens, hs, hn, hp]
    next => cases h
  all_goals
    rw [ackField_synchronized (by rw [hs]; rfl)] at h
    rcases ackSynchronized_cases s th skb with ⟨hp, -⟩ | ⟨-, u, hu, -⟩
    · simp [TcpSock.ackOpens, hs, hp, TcpState.takesText]
    · rw [hu] at h
      cases h

theorem segmentText_takes {s : TcpSock} (hs : s.state.takesText) (th : Tcphdr) (skb : Skb) :
    segmentText s th skb = if th.psh || skb.dlen > 0 then tcpDataQueue s skb else s := by
  unfold segmentText
  cases hst : s.state <;> simp only [hst, TcpState.takesText, Bool.false_eq_true] at hs ⊢

theorem segmentText_other {s : TcpSock} (hs : s.state.takesText = false) (th : Tcphdr) (skb : Skb) : segmentText s th skb = s := by
  unfold segmentText
  cases hst : s.state <;> simp only [hst, TcpState.takesText, Bool.true_eq_false] at hs ⊢

/-- A FIN moves no skb. -/
theorem finBit_queues {s : TcpSock} (hs : s.state.takesText) (th : Tcphdr) (expected : Bool) : ∃ t, finBit s th expected = .next t ∧
    t.rcv.queue = s.rcv.queue ∧ t.rcv.ofo = s.rcv.ofo := by
  unfold finBit
  split
  next =>
    let s₁ : TcpSock := { s with
      tcb.rcvNxt := s.tcb.rcvNxt + 1, flagFin := true, pollEvents := s.pollEvents ||| pollInMask }
    have hq : ((tcpSendAck (s₁.emit .peerFin)).wakeup .recvWait).rcv = s₁.rcv :=
      congrArg Core.rcv ((quiet_tcpSendAck _).trans (quiet_wakeup _ .recvWait)).core
    have hf : (finState ((tcpSendAck (s₁.emit .peerFin)).wakeup .recvWait)).rcv = s₁.rcv :=
      (congrArg Core.rcv (finState_core _)).trans hq
    split
    case h_1 h | h_2 h | h_3 h =>
      rw [h] at hs
      cases hs
    case h_4 => exact ⟨_, rfl, (congrArg RcvSide.queue hf :), (congrArg RcvSide.ofo hf :)⟩
  next => exact ⟨s, rfl, rfl, rfl⟩

/-! ## The bit -/

/-- The segment gets to `tcp_data_queue`, which keeps it. -/
def TcpSock.queues (s : TcpSock) (th : Tcphdr) (skb : Skb) : Bool :=
  s.core.Heard th skb && s.ackOpens th skb && (th.psh || skb.dlen > 0) && s.core.rcv.keeps skb

/-- A segment that is queued is where its data are read. -/
theorem segmentArrives_queues {s : TcpSock} {th : Tcphdr} {skb : Skb} (h : s.queues th skb) :
    (segmentArrives s th skb).rcv.queue = (s.rcv.take skb).queue ∧ (segmentArrives s th skb).rcv.ofo = (s.rcv.take skb).ofo := by
  simp only [TcpSock.queues, Bool.and_eq_true] at h
  obtain ⟨⟨⟨hh, hopen⟩, htext⟩, -⟩ := h
  obtain ⟨t, ht, hst, hr⟩ := ackField_opens hopen
  obtain ⟨st, hfa, hst'⟩ := finAcked_textual hst th
  have htake : (segmentText (t.setState st) th skb).rcv = s.rcv.take skb := by
    rw [segmentText_takes hst', if_pos htext]
    refine (congrArg Core.rcv (tcpDataQueue_core _ skb)).trans ?_
    exact congrArg (RcvSide.take · skb) hr
  have hx : (segmentText (t.setState st) th skb).state.takesText := by
    rw [segmentText_state]
    exact hst'
  obtain ⟨u, hu, hq, ho⟩ := finBit_queues hx th (decide (skb.seq = (t.setState st).tcb.rcvNxt))
  have hrun : (segmentArrives s th skb).rcv = u.rcv := by
    rw [segmentArrives_late (ackOpens_late hopen), tcpInputOtherwise_heard hh, ht, Ctl.andThen, afterAck, hfa, Ctl.andThen]
    dsimp only
    rw [hu]
    obtain ⟨d, hd, -⟩ := ackData_core u th skb (decide (skb.seq = (t.setState st).tcb.rcvNxt))
    exact congrArg Core.rcv hd
  rw [hrun, hq, ho, htake]
  exact ⟨rfl, rfl⟩

/-- The text of a segment that is not queued leaves no trace of the bit. -/
theorem segmentText_unmarked {s t u : TcpSock} {th : Tcphdr} {data : Payload} {b : Bool} (b' : Bool)
    (h : s.queues th (tcpInitSegment th data b) = false) (hh : s.core.Heard th (tcpInitSegment th data b))
    (ht : ackField s th (tcpInitSegment th data b) = .next t) (hu : finAcked t th = .next u) :
    segmentText u th (tcpInitSegment th data b) = segmentText u th (tcpInitSegment th data b') := by
  cases hst : u.state.takesText with
  | false => rw [segmentText_other hst, segmentText_other hst]
  | true =>
    rw [segmentText_takes hst, segmentText_takes hst]
    have hdlen : (tcpInitSegment th data b').dlen = (tcpInitSegment th data b).dlen := rfl
    rw [hdlen]
    split
    next htext =>
      obtain ⟨hopen, hr⟩ := ackOpens_of_next ht (finAcked_text hu hst)
      have hkeep : s.core.rcv.keeps (tcpInitSegment th data b) = false := by
        rwa [TcpSock.queues, hh, hopen, htext, Bool.true_and, Bool.true_and, Bool.true_and] at h
      have hur : u.core.rcv = s.core.rcv := (finAcked_rcv hu).trans hr
      exact tcpDataQueue_congr rfl rfl (hur ▸ hkeep)
    next => rfl

/-- **The bit changes nothing** for a segment that is not queued. -/
theorem segmentArrives_unmarked {s : TcpSock} {th : Tcphdr} {data : Payload} {b : Bool} (b' : Bool)
    (h : s.queues th (tcpInitSegment th data b) = false) :
    segmentArrives s th (tcpInitSegment th data b) = segmentArrives s th (tcpInitSegment th data b') := by
  have hother : tcpInputOtherwise s th (tcpInitSegment th data b) = tcpInputOtherwise s th (tcpInitSegment th data b') := by
    have hv : tcpVerifySegment s th (tcpInitSegment th data b') = tcpVerifySegment s th (tcpInitSegment th data b) := rfl
    cases hh : s.core.Heard th (tcpInitSegment th data b) with
    | true =>
      have hh' : s.core.Heard th (tcpInitSegment th data b') := hh
      rw [tcpInputOtherwise_heard hh, tcpInputOtherwise_heard hh']
      have hack : ackField s th (tcpInitSegment th data b') = ackField s th (tcpInitSegment th data b) := rfl
      rw [hack]
      cases ht : ackField s th (tcpInitSegment th data b) with
      | ret t => rfl
      | next t =>
        simp only [Ctl.andThen, afterAck]
        cases hu : finAcked t th with
        | ret u => rfl
        | next u =>
          dsimp only
          rw [segmentText_unmarked b' h hh ht hu]
          rfl
    | false =>
      have hheard : s.core.Heard th (tcpInitSegment th data b) =
          (tcpVerifySegment s th (tcpInitSegment th data b) && !th.rst && !th.syn && th.ack) := rfl
      unfold tcpInputOtherwise
      rw [hv]
      split
      · rfl
      split
      · rfl
      split
      · rfl
      split
      · rfl
      · simp_all
  unfold segmentArrives
  cases s.state <;> first | exact hother | rfl

end LevelIp
