/-
What `poll` shows of a TCP socket beside what a reader would find. The bits of
`poll_events` are assigned in seven places, and none of them looks at the queue,
the flags and the state that `tcp_read` decides by.
-/
import LevelIp.EndOfStream
import LevelIp.Handshake
import LevelIp.PushMark
import LevelIp.RtoBound

namespace LevelIp

/-! ## The bits -/

namespace TcpSock

/-- `POLLIN` is set in `poll_events`. -/
def pollIn (s : TcpSock) : Bool := s.pollEvents &&& POLLIN ≠ 0

/-- `POLLOUT` is set in `poll_events`. -/
def pollOut (s : TcpSock) : Bool := s.pollEvents &&& POLLOUT ≠ 0

theorem pollIn_eq (s : TcpSock) : s.pollIn = s.pollEvents.getLsbD 0 := by
  have hbit : s.pollEvents &&& POLLIN = if s.pollEvents.getLsbD 0 then POLLIN else 0 := BitVec.and_twoPow s.pollEvents 0
  rw [pollIn, hbit]
  cases s.pollEvents.getLsbD 0 <;> decide

theorem pollOut_eq (s : TcpSock) : s.pollOut = s.pollEvents.getLsbD 2 := by
  have hbit : s.pollEvents &&& POLLOUT = if s.pollEvents.getLsbD 2 then POLLOUT else 0 := BitVec.and_twoPow s.pollEvents 2
  rw [pollOut, hbit]
  cases s.pollEvents.getLsbD 2 <;> decide

/-- A blocking `tcp_read` of `len` bytes returns without sleeping. -/
def readReturns (s : TcpSock) (len : Nat) : Bool := (tcpRead { s with nonblock := false } len).2.1.call?.isNone

/-- **poll agrees with read.** -/
structure PollAgrees (s : TcpSock) : Prop where
  pollIn : ∀ len, 0 < len → (s.pollIn ↔ s.readReturns len)
  pollOut : s.state = .established ∨ s.state = .closeWait → s.pollOut

/-- What a blocking `tcp_read` decides by. -/
theorem tcpRead_returns {s : TcpSock} (hb : s.nonblock = false) {len : Nat} (hlen : 0 < len) :
    (tcpRead s len).2.1.call?.isNone = (s.state.over || s.state = .close || s.flagPsh || s.flagFin || s.satisfies len) := by
  have hreceive : (tcpReceive s len).2.1.call?.isNone = (s.flagPsh || s.flagFin || s.satisfies len) := by
    have hcall : (tcpReceiveTurn s len []).2.1.call?.isSome = s.starves len := tcpReceiveTurn_call (Nat.zero_le _)
    rw [tcpReceive, if_pos hlen, ← Option.not_isSome, hcall]
    unfold starves
    rw [hb]
    cases s.flagPsh <;> cases s.flagFin <;> cases s.satisfies len <;> rfl
  unfold tcpRead
  cases hs : s.state
  case closeWait =>
    dsimp only
    split
    next heof =>
      simp only [Bool.and_eq_true] at heof
      rw [heof.2]
      cases s.flagPsh <;> rfl
    next => exact hreceive
  case close | closing | lastAck | timeWait => rfl
  all_goals exact hreceive

theorem readReturns_eq (s : TcpSock) {len : Nat} (hlen : 0 < len) :
    s.readReturns len = (s.state.over || s.state = .close || s.flagPsh || s.flagFin || s.satisfies len) :=
  tcpRead_returns (s := { s with nonblock := false }) rfl hlen

/-! ## What `POLLIN` has to show -/

/-- The reader finds something: the end of the stream, or something queued. -/
def readable (s : TcpSock) : Bool := s.state.over || s.flagFin || !s.receiveQueue.isEmpty

/-- The mask is right about a synchronized socket, as far as that can be said
without the PSH bits. -/
structure Masked (s : TcpSock) : Prop where
  sync : s.state.synchronized
  psh : s.flagPsh = false
  shown : s.pollIn = s.readable
  out : s.pollOut
  ended : s.state = .closeWait → s.flagFin

/-- And what is queued satisfies any reader. -/
structure Mirrored (s : TcpSock) : Prop extends s.Masked where
  whole : s.state.over = false → s.flagFin = false → s.receiveQueue = [] ∨ s.receiveQueue.any (·.psh)

variable {s t : TcpSock}

/-- Then poll agrees with read. -/
theorem Mirrored.agrees (h : s.Mirrored) : s.PollAgrees := by
  refine ⟨fun len hlen => ?_, fun _ => h.out⟩
  have hclose : s.state ≠ .close := by
    intro hs
    have hsync := h.sync
    rw [hs] at hsync
    cases hsync
  rw [readReturns_eq s hlen, h.shown, h.psh, decide_eq_false hclose, readable]
  cases hover : s.state.over with
  | true => simp
  | false =>
    cases hfin : s.flagFin with
    | true => simp
    | false =>
      have hwhole := h.whole hover hfin
      cases hq : s.receiveQueue with
      | nil =>
        have hnone : s.satisfies len = false := by
          rw [satisfies, hq]
          simp [queueBytes]
          omega
        simp [hnone]
      | cons k q =>
        rw [hq] at hwhole
        have hsat : s.satisfies len := by
          rw [satisfies, hq, hwhole.resolve_left (List.cons_ne_nil _ _), Bool.or_true]
        simp [hsat]

/-- From `s` to `t` the reader's part stays as it is, and `POLLIN` with it. -/
structure SameRead (s t : TcpSock) : Prop where
  fin : t.flagFin = s.flagFin
  psh : t.flagPsh = s.flagPsh
  queue : t.receiveQueue = s.receiveQueue
  pollIn : t.pollIn = s.pollIn
  pollOut : s.pollOut → t.pollOut

theorem SameRead.of_eq (hf : t.flagFin = s.flagFin) (hp : t.flagPsh = s.flagPsh) (hq : t.receiveQueue = s.receiveQueue)
    (he : t.pollEvents = s.pollEvents) : s.SameRead t :=
  ⟨hf, hp, hq, by rw [TcpSock.pollIn, he]; rfl, by rw [TcpSock.pollOut, TcpSock.pollOut, he]; exact id⟩

theorem SameRead.refl (s : TcpSock) : s.SameRead s := .of_eq rfl rfl rfl rfl

theorem SameRead.trans {u : TcpSock} (h₁ : s.SameRead t) (h₂ : t.SameRead u) : s.SameRead u where
  fin := h₂.fin.trans h₁.fin
  psh := h₂.psh.trans h₁.psh
  queue := h₂.queue.trans h₁.queue
  pollIn := h₂.pollIn.trans h₁.pollIn
  pollOut := fun h => h₂.pollOut (h₁.pollOut h)

/-- What is right about the core and the dials. -/
theorem SameRead.of_core (hf : t.core.flagFin = s.flagFin) (hp : t.core.flagPsh = s.flagPsh) (hq : t.core.rcv.queue = s.receiveQueue)
    (hd : t.dials = s.dials) : s.SameRead t := .of_eq hf hp hq (congrArg Dials.pollEvents hd)

/-- How the state may change meanwhile: to one in which `tcp_read` does not wait
only if there is something to read, and not to CLOSE_WAIT. -/
inductive Follows (s : TcpSock) : TcpState → Prop
  | stays : Follows s s.state
  | ends {st : TcpState} : st.over → s.readable → Follows s st
  | hears {st : TcpState} : st.takesText → s.state.takesText → Follows s st

theorem takesText_not_over {st : TcpState} (h : st.takesText) : st.over = false := by cases st <;> first | rfl | cases h

theorem Follows.over {st : TcpState} (h : s.Follows st) (hs : s.state.over) : st.over := by
  cases h with
  | stays => exact hs
  | ends hst => exact hst
  | hears _ htext =>
    rw [takesText_not_over htext] at hs
    cases hs

theorem Masked.follows (h : s.Masked) (hs : s.SameRead t) (hst : s.Follows t.state) : t.Masked := by
  have hread : t.readable = s.readable := by
    unfold readable
    rw [hs.fin, hs.queue]
    generalize t.state = st at hst
    cases hst with
    | stays => rfl
    | ends ho hr =>
      rw [readable] at hr
      rw [hr, ho]
      rfl
    | hears ht htext => rw [takesText_not_over ht, takesText_not_over htext]
  refine ⟨?_, hs.psh.trans h.psh, by rw [hs.pollIn, h.shown, hread], hs.pollOut h.out, fun hcw => ?_⟩
  · generalize t.state = st at hst
    cases hst with
    | stays => exact h.sync
    | ends ho => cases st <;> first | rfl | cases ho
    | hears ht => cases st <;> first | rfl | cases ht
  · rw [hs.fin]
    generalize t.state = st at hst hcw
    cases hst with
    | stays => exact h.ended hcw
    | ends ho =>
      rw [hcw] at ho
      cases ho
    | hears ht =>
      rw [hcw] at ht
      cases ht

theorem Mirrored.follows (h : s.Mirrored) (hs : s.SameRead t) (hst : s.Follows t.state) : t.Mirrored := by
  refine ⟨h.toMasked.follows hs hst, fun ho hf => ?_⟩
  rw [hs.queue]
  refine h.whole ?_ (hs.fin ▸ hf)
  cases hss : s.state.over with
  | false => rfl
  | true =>
    rw [hst.over hss] at ho
    cases ho

/-- At the end of the stream only the bits matter. -/
theorem Mirrored.of_end (hs : s.state.synchronized) (hp : s.flagPsh = false) (hi : s.pollIn) (ho : s.pollOut)
    (he : s.state.over ∨ s.flagFin) : s.Mirrored := by
  have hr : s.readable := by
    unfold readable
    rcases he with h | h <;> simp [h]
  refine ⟨⟨hs, hp, hi.trans hr.symm, ho, fun hcw => ?_⟩, fun hover hfin => ?_⟩
  · refine he.resolve_left fun hover => ?_
    rw [hcw] at hover
    cases hover
  · rcases he with h | h
    · rw [hover] at h
      cases h
    · rw [hfin] at h
      cases h

end TcpSock

/-! ## A segment, stage by stage -/

section

variable {s t : TcpSock} {th : Tcphdr} {skb : Skb}

theorem newAck_pollEvents (s : TcpSock) (th : Tcphdr) : (newAck s th).pollEvents = s.pollEvents := by
  have hrtt : ∀ u : TcpSock, (tcpRtt u).pollEvents = u.pollEvents := fun u => by
    rw [tcpRtt_eq]
    split <;> rfl
  have hclean : (tcpCleanRtoQueue (tcpRtt { s with tcb.sndUna := th.ackSeq }) th.ackSeq).pollEvents = s.pollEvents :=
    (congrArg Dials.pollEvents (tcpCleanRtoQueue_dials _ _)).trans (hrtt _)
  unfold newAck
  dsimp only
  split
  · exact hclean
  · exact hclean

/-- The ACK processing leaves the reader alone. -/
theorem ackSynchronized_sameRead (s : TcpSock) (th : Tcphdr) (skb : Skb) : s.SameRead (ackSynchronized s th skb).sock := by
  have htaken : s.SameRead (s.taken th) := by
    obtain ⟨d, hc, -⟩ := taken_core s th
    refine .of_eq (congrArg Core.flagFin hc) (congrArg Core.flagPsh hc) (congrArg (·.rcv.queue) hc) ?_
    unfold TcpSock.taken
    split
    · exact newAck_pollEvents s th
    · rfl
  unfold ackSynchronized
  split
  · have haction := dupackAction_core { s with dupacks := s.dupacks + 1 }
    have hcore : ∃ d, (tcpHandleDupack s).core = { s.core with snd := d } := by
      unfold tcpHandleDupack
      dsimp only
      split
      · obtain ⟨-, d, -, hc, -⟩ := tcpSendNext_spec (dupackAction { s with dupacks := s.dupacks + 1 }).1
          (dupackAction { s with dupacks := s.dupacks + 1 }).1.writeQueue.length (dupackAction { s with dupacks := s.dupacks + 1 }).2
        exact ⟨d, hc.trans (by rw [haction]; rfl)⟩
      · exact ⟨s.core.snd, haction⟩
    obtain ⟨d, hc⟩ := hcore
    exact .of_core (congrArg Core.flagFin hc) (congrArg Core.flagPsh hc) (congrArg (·.rcv.queue) hc) (tcpHandleDupack_dials s)
  · have hcheck : ∀ u : TcpSock, u.SameRead (ackChecked u th).sock := fun u => by
      unfold ackChecked
      split
      · exact .refl u
      split
      · exact .refl u
      · dsimp only [Ctl.sock]
        split <;> exact .of_eq rfl rfl rfl rfl
    exact htaken.trans (hcheck (s.taken th))

theorem ackField_sameRead (hs : s.state ≠ .synReceived) (th : Tcphdr) (skb : Skb) :
    s.SameRead (ackField s th skb).sock ∧ (ackField s th skb).sock.state = s.state := by
  refine ⟨?_, (ackField_state s th skb).trans (if_neg fun h => hs h.1)⟩
  unfold ackField
  split
  case h_1 h => exact absurd h hs
  case h_2 | h_3 | h_4 | h_5 | h_6 | h_7 => exact ackSynchronized_sameRead s th skb
  all_goals exact .refl s

/-- "If the write queue is empty, it means our FIN was acked". -/
theorem finAcked_mirrored (h : s.Mirrored) (th : Tcphdr) : (finAcked s th).sock.Mirrored := by
  have hsame : ∀ st, s.SameRead (s.setState st) := fun _ => .of_eq rfl rfl rfl rfl
  have hover : s.state.over → s.readable := fun ho => by
    unfold TcpSock.readable
    rw [ho]
    rfl
  unfold finAcked
  split
  · split
    case h_1 hst => exact h.follows (hsame _) (.hears rfl (by rw [hst]; rfl))
    case h_2 hst => exact h.follows (hsame _) (.ends rfl (hover (by rw [hst]; rfl)))
    case h_3 hst =>
      have hc := tcpDone_core s
      refine h.follows (.of_core (congrArg Core.flagFin hc) (congrArg Core.flagPsh hc) (congrArg (·.rcv.queue) hc) (tcpDone_dials s)) ?_
      rw [Ctl.sock, tcpDone_state]
      exact .ends rfl (hover (by rw [hst]; rfl))
    case h_4 hst =>
      dsimp only [Ctl.sock]
      split
      · -- the FIN again
        have hq := quiet_tcpSendAck { s with flagFin := true }
        have hd := congrArg Dials.pollEvents (tcpSendAck_dials { s with flagFin := true })
        have hstate : (tcpSendAck { s with flagFin := true }).state = .timeWait := hq.state.trans hst
        have hin : s.pollIn := h.shown.trans (hover (by rw [hst]; rfl))
        refine .of_end (by rw [hstate]; rfl) ((congrArg Core.flagPsh hq.core).trans h.psh) ?_ ?_ (.inl (by rw [hstate]; rfl))
        · rw [TcpSock.pollIn, show (tcpSendAck { s with flagFin := true }).pollEvents = s.pollEvents from hd]
          exact hin
        · rw [TcpSock.pollOut, show (tcpSendAck { s with flagFin := true }).pollEvents = s.pollEvents from hd]
          exact h.out
      · exact h
    all_goals exact h
  · exact h

/-- Text that is not queued in order leaves the reader alone. -/
theorem segmentText_sameRead (h : s.takesInOrder th skb = false) : s.SameRead (segmentText s th skb) := by
  have hd : (segmentText s th skb).dials = s.dials := by
    rw [segmentText_dials, h, if_neg Bool.false_ne_true]
    rfl
  have hcore : ∃ r : RcvSide, (segmentText s th skb).core = { s.core with rcv := r } ∧ r.queue = s.receiveQueue := by
    cases hst : s.state.takesText with
    | false => exact ⟨s.rcv, by rw [segmentText_other hst]; rfl, rfl⟩
    | true =>
      rw [segmentText_takes hst]
      split
      next htext =>
        refine ⟨_, tcpDataQueue_core s skb, ?_⟩
        unfold RcvSide.take
        split
        · rfl
        next hw =>
          split
          next hseq =>
            have hw : s.tcb.rcvWnd ≠ 0 := hw
            have hseq : skb.seq = s.tcb.rcvNxt := hseq
            rw [TcpSock.takesInOrder, hst, htext, decide_eq_true hw, decide_eq_true hseq] at h
            cases h
          next => rfl
      next => exact ⟨s.rcv, rfl, rfl⟩
  obtain ⟨r, hc, hr⟩ := hcore
  exact .of_core (congrArg Core.flagFin hc) (congrArg Core.flagPsh hc) ((congrArg (·.rcv.queue) hc).trans hr) hd

theorem pollIn_mask {s t : TcpSock} (h : t.pollEvents = s.pollEvents ||| pollInMask) : t.pollIn ∧ (s.pollOut → t.pollOut) := by
  rw [TcpSock.pollIn_eq, TcpSock.pollOut_eq, TcpSock.pollOut_eq, h, BitVec.getLsbD_or, BitVec.getLsbD_or]
  have h0 : pollInMask.getLsbD 0 = true := by decide
  rw [h0, Bool.or_true]
  exact ⟨rfl, fun ho => by rw [ho]; rfl⟩

/-- The text of a segment is queued in order. -/
theorem segmentText_queued (h : s.Mirrored) (ht : s.takesInOrder th skb) : (segmentText s th skb).Masked ∧
    (segmentText s th skb).receiveQueue = (s.rcv.push skb).queue ∧ (segmentText s th skb).flagFin = s.flagFin := by
  have hd := congrArg Dials.pollEvents (segmentText_dials s th skb)
  rw [ht, if_pos rfl] at hd
  obtain ⟨hin, hout⟩ := pollIn_mask hd
  simp only [TcpSock.takesInOrder, Bool.and_eq_true, decide_eq_true_eq] at ht
  obtain ⟨⟨⟨hst, htext⟩, hw⟩, hseq⟩ := ht
  have hc : (segmentText s th skb).core = { s.core with rcv := s.core.rcv.push skb } := by
    rw [segmentText_takes hst, if_pos htext]
    refine (tcpDataQueue_core s skb).trans ?_
    rw [RcvSide.take, if_neg (show ¬s.core.rcv.wnd = 0 from hw), if_pos (show skb.seq = s.core.rcv.nxt from hseq)]
  have hstate : (segmentText s th skb).state = s.state := congrArg Core.state hc
  have hq : (segmentText s th skb).receiveQueue = (s.rcv.push skb).queue := congrArg (·.rcv.queue) hc
  have hsome : (segmentText s th skb).receiveQueue ≠ [] := by
    rw [hq, RcvSide.push_queue]
    simp
  refine ⟨⟨hstate ▸ h.sync, (congrArg Core.flagPsh hc).trans h.psh, ?_, hout h.out, fun hcw => ?_⟩, hq, congrArg Core.flagFin hc⟩
  · rw [hin, TcpSock.readable, List.isEmpty_eq_false_iff.mpr hsome, Bool.not_false, Bool.or_true]
  · rw [← hstate, hcw] at hst
    cases hst

theorem finSeen_synchronized {st : TcpState} (h : st.synchronized) (acked : Bool) : (st.finSeen acked).synchronized := by
  cases st <;> cases acked <;> first | rfl | cases h

/-- The FIN is seen. -/
theorem finBit_mirrored (hs : s.state.synchronized) (hp : s.flagPsh = false) (ho : s.pollOut) {expected : Bool} (hf : th.fin && expected) :
    ∃ v, finBit s th expected = .next v ∧ v.Mirrored := by
  have hl : s.state.late := by cases hst : s.state <;> simp [hst, TcpState.synchronized, TcpState.late] at hs ⊢
  have hstate := finBit_state hl th expected
  have hd := congrArg Dials.pollEvents (finBit_dials hl th expected)
  rw [hf, if_pos rfl] at hstate hd
  have hcore : ∃ v, finBit s th expected = .next v ∧ v.flagFin ∧ v.flagPsh = s.flagPsh := by
    let x : TcpSock := { s with tcb.rcvNxt := s.tcb.rcvNxt + 1, flagFin := true, pollEvents := s.pollEvents ||| pollInMask }
    have hq : ((tcpSendAck (x.emit .peerFin)).wakeup .recvWait).core = x.core :=
      ((quiet_tcpSendAck _).trans (quiet_wakeup _ .recvWait)).core
    have hfin : (finState ((tcpSendAck (x.emit .peerFin)).wakeup .recvWait)).flagFin ∧
        (finState ((tcpSendAck (x.emit .peerFin)).wakeup .recvWait)).flagPsh = s.flagPsh := by
      have hc := (finState_core ((tcpSendAck (x.emit .peerFin)).wakeup .recvWait))
      rw [hq] at hc
      exact ⟨congrArg Core.flagFin hc, congrArg Core.flagPsh hc⟩
    unfold finBit
    rw [if_pos hf]
    split
    case h_1 h => exact absurd h hl.1
    case h_2 h => exact absurd h hl.2.1
    case h_3 h => exact absurd h hl.2.2
    case h_4 => exact ⟨_, rfl, hfin⟩
  obtain ⟨v, hv, hflag, hpsh⟩ := hcore
  rw [hv] at hstate hd
  obtain ⟨hin, hout⟩ := pollIn_mask hd
  refine ⟨v, hv, .of_end ?_ (hpsh.trans hp) hin (hout ho) (.inr hflag)⟩
  rw [show v.state = _ from hstate]
  exact finSeen_synchronized hs _

/-- Text, FIN and delayed ACKs. -/
theorem afterFin_mirrored (h : s.Mirrored)
    (hm : s.takesInOrder th skb → th.fin ∨ (s.rcv.push skb).queue.any (·.psh)) : (afterFin s th skb).sock.Mirrored := by
  have htext : (segmentText s th skb).Masked ∧
      ((th.fin && decide (skb.seq = s.tcb.rcvNxt)) = false → (segmentText s th skb).Mirrored) := by
    cases ht : s.takesInOrder th skb with
    | false =>
      have hst := segmentText_state s th skb
      have hmir := h.follows (segmentText_sameRead ht) (by rw [hst]; exact .stays)
      exact ⟨hmir.toMasked, fun _ => hmir⟩
    | true =>
      obtain ⟨hmask, hq, -⟩ := segmentText_queued h ht
      refine ⟨hmask, fun hf => ⟨hmask, fun _ _ => .inr ?_⟩⟩
      rw [hq]
      refine (hm ht).resolve_left fun hfin => ?_
      simp only [TcpSock.takesInOrder, Bool.and_eq_true, decide_eq_true_eq] at ht
      rw [hfin, decide_eq_true ht.2] at hf
      cases hf
  have hlast : ∀ {v : TcpSock}, v.Mirrored → (ackData v th skb (skb.seq = s.tcb.rcvNxt)).Mirrored := by
    intro v hv
    obtain ⟨d, hc, -⟩ := ackData_core v th skb (skb.seq = s.tcb.rcvNxt)
    refine hv.follows (.of_core (congrArg Core.flagFin hc) (congrArg Core.flagPsh hc) (congrArg (·.rcv.queue) hc) (ackData_dials _ _ _ _)) ?_
    rw [ackData_state]
    exact .stays
  unfold afterFin
  cases hf : th.fin && decide (skb.seq = s.tcb.rcvNxt) with
  | false =>
    have hfin : finBit (segmentText s th skb) th (skb.seq = s.tcb.rcvNxt) = .next (segmentText s th skb) := by
      unfold finBit
      rw [if_neg (by rw [hf]; exact Bool.false_ne_true)]
    rw [hfin]
    exact hlast (htext.2 hf)
  | true =>
    obtain ⟨v, hv, hmir⟩ := finBit_mirrored htext.1.sync htext.1.psh htext.1.out hf
    rw [hv]
    exact hlast hmir

/-- The segment's text goes to `receive_queue`. -/
def TcpSock.queuesNext (s : TcpSock) (th : Tcphdr) (skb : Skb) : Bool :=
  s.core.Heard th skb && s.ackOpens th skb && (th.psh || skb.dlen > 0) && s.tcb.rcvWnd ≠ 0 && skb.seq = s.tcb.rcvNxt

theorem synchronized_late {st : TcpState} (h : st.synchronized) : st.late ∧ st ≠ .synReceived := by
  cases st <;> simp [TcpState.synchronized, TcpState.late] at h ⊢

/-- **A segment** leaves the mask right, if an RST finds something to read, and
text that is queued is marked or followed by a FIN. -/
theorem segmentArrives_mirrored (h : s.Mirrored) (hrst : s.core.rcv.verify th skb → th.rst → s.readable)
    (hm : s.queuesNext th skb → th.fin ∨ (s.rcv.push skb).queue.any (·.psh)) : (segmentArrives s th skb).Mirrored := by
  obtain ⟨hl, hsr⟩ := synchronized_late h.sync
  rw [segmentArrives_late hl]
  rcases tcpInputOtherwise_cases s th skb with ⟨hh, hrun⟩ | ⟨hv, hr, hrun⟩ | ⟨-, hrun | hrun⟩
  · rw [hrun]
    obtain ⟨hsame, hst⟩ := ackField_sameRead hsr th skb
    have hack : (ackField s th skb).sock.Mirrored := h.follows hsame (by rw [hst]; exact .stays)
    cases ht : ackField s th skb with
    | ret t =>
      rw [ht] at hack
      exact hack
    | next t =>
      rw [ht] at hack
      rw [Ctl.andThen, afterAck_eq]
      have hfa : (finAcked t th).sock.Mirrored := finAcked_mirrored hack th
      cases hu : finAcked t th with
      | ret u =>
        rw [hu] at hfa
        exact hfa
      | next u =>
        rw [hu] at hfa
        refine afterFin_mirrored hfa fun htake => ?_
        have htake' := htake
        simp only [TcpSock.takesInOrder, Bool.and_eq_true, decide_eq_true_eq] at htake'
        obtain ⟨⟨⟨hstu, htext⟩, hw⟩, hseq⟩ := htake'
        obtain ⟨hopen, hr⟩ := ackOpens_of_next ht (finAcked_text hu hstu)
        have hru : u.rcv = s.rcv := (finAcked_rcv hu).trans hr
        rw [show u.tcb.rcvWnd = s.tcb.rcvWnd from congrArg RcvSide.wnd hru] at hw
        rw [show u.tcb.rcvNxt = s.tcb.rcvNxt from congrArg RcvSide.nxt hru] at hseq
        rw [hru]
        refine hm ?_
        rw [TcpSock.queuesNext, hh, hopen, htext, decide_eq_true hw, decide_eq_true hseq]
        rfl
  · rw [hrun]
    have hc := tcpEnterTimeWait_core s
    refine h.follows ?_ (.ends ?_ (hrst hv hr))
    · exact .of_core (congrArg Core.flagFin hc) (congrArg Core.flagPsh hc) (congrArg (·.rcv.queue) hc) (tcpEnterTimeWait_dials s)
    · rw [show ((tcpEnterTimeWait s).wakeup .recvWait).state = .timeWait from congrArg Core.state hc]
      rfl
  · rw [hrun]
    exact h
  · rw [hrun]
    have hc := (quiet_tcpSendAck s).core
    refine h.follows (.of_core (congrArg Core.flagFin hc) (congrArg Core.flagPsh hc) (congrArg (·.rcv.queue) hc) (tcpSendAck_dials s)) ?_
    rw [(quiet_tcpSendAck s).state]
    exact .stays

end

/-! ## Readers -/

section

variable {s : TcpSock}

/-- What a reader with so much room leaves in `receive_queue`. -/
def TcpSock.leaves (s : TcpSock) (room : Nat) : List Skb := (dequeueLoop room s.receiveQueue).2.1

theorem tcpDataDequeue_mask (s : TcpSock) (n : Nat) : (tcpDataDequeue s n).1.pollOut = s.pollOut ∧
    (tcpDataDequeue s n).1.pollIn = (s.pollIn && !((s.leaves n).isEmpty && !s.flagFin)) := by
  unfold tcpDataDequeue
  dsimp only
  split
  next h =>
    have hc : ((s.leaves n).isEmpty && !s.flagFin) = true := h
    rw [hc]
    simp only [TcpSock.pollOut_eq, TcpSock.pollIn_eq, increaseRecvWin, BitVec.getLsbD_and]
    rw [show (~~~POLLIN).getLsbD 2 = true by decide, show (~~~POLLIN).getLsbD 0 = false by decide]
    simp
  next h =>
    have hc : ((s.leaves n).isEmpty && !s.flagFin) = false := (Bool.not_eq_true _).mp h
    rw [hc]
    exact ⟨rfl, by rw [Bool.not_false, Bool.and_true]; rfl⟩

/-- A turn of `tcp_receive`. -/
theorem tcpReceiveTurn_mirrored (h : s.Mirrored) (len : Nat) (got : List U8)
    (hok : s.flagFin ∨ if s.state.over then s.leaves (len - got.length) ≠ []
      else s.leaves (len - got.length) = [] ∨ (s.leaves (len - got.length)).any (·.psh)) :
    (tcpReceiveTurn s len got).1.Mirrored := by
  have hc := tcpReceiveTurn_core s len got
  have hd : (tcpReceiveTurn s len got).1.pollEvents = (tcpDataDequeue s (len - got.length)).1.pollEvents := by
    have hrearm : ∀ u : TcpSock, (tcpRearmUserTimeout u).pollEvents = u.pollEvents := fun u =>
      congrArg Dials.pollEvents (tcpRearmUserTimeout_dials u)
    unfold tcpReceiveTurn
    dsimp only
    split
    · exact hrearm _
    split
    · exact hrearm _
    split
    · split
      · rfl
      · exact hrearm _
    · rfl
  obtain ⟨hout, hin⟩ := tcpDataDequeue_mask s (len - got.length)
  generalize (tcpReceiveTurn s len got).1 = t at hc hd
  have hstate : t.state = s.state := congrArg Core.state hc
  have hfin : t.flagFin = s.flagFin := congrArg Core.flagFin hc
  have hq : t.receiveQueue = s.leaves (len - got.length) := congrArg (·.rcv.queue) hc
  have htin : t.pollIn = (s.pollIn && !((s.leaves (len - got.length)).isEmpty && !s.flagFin)) := by
    rw [TcpSock.pollIn, hd]
    exact hin
  have htout : t.pollOut := by
    rw [TcpSock.pollOut, hd]
    exact hout.trans h.out
  have hleft : s.receiveQueue = [] → s.leaves (len - got.length) = [] := fun hq => by
    rw [TcpSock.leaves, hq]
    cases len - got.length <;> rfl
  generalize s.leaves (len - got.length) = left at hok hq htin hleft
  have hpsh : t.flagPsh = false := congrArg Core.flagPsh hc
  have hsync : t.state.synchronized := hstate ▸ h.sync
  rcases hok with hf | hok
  · have hin : t.pollIn := by
      rw [htin, hf, Bool.not_true, Bool.and_false, Bool.not_false, Bool.and_true, h.shown, TcpSock.readable, hf]
      simp
    exact .of_end hsync hpsh hin htout (.inr (hfin.trans hf))
  · cases hover : s.state.over with
    | true =>
      rw [hover, if_pos rfl] at hok
      have hin : t.pollIn := by
        rw [htin, List.isEmpty_eq_false_iff.mpr hok, Bool.false_and, Bool.not_false, Bool.and_true, h.shown, TcpSock.readable, hover]
        simp
      exact .of_end hsync hpsh hin htout (.inl (by rw [hstate]; exact hover))
    | false =>
      rw [hover, if_neg Bool.false_ne_true] at hok
      cases hf : s.flagFin with
      | true =>
        have hin : t.pollIn := by
          rw [htin, hf, Bool.not_true, Bool.and_false, Bool.not_false, Bool.and_true, h.shown, TcpSock.readable, hf]
          simp
        exact .of_end hsync hpsh hin htout (.inr (hfin.trans hf))
      | false =>
        -- POLLIN is taken back with the last skb
        refine ⟨⟨hsync, hpsh, ?_, htout, fun hcw => ?_⟩, fun _ _ => hq ▸ hok⟩
        · rw [htin, TcpSock.readable, hstate, hover, hfin, hf, hq, h.shown, TcpSock.readable, hover, hf]
          cases hlq : left with
          | nil => simp
          | cons k q =>
            have hsome : s.receiveQueue ≠ [] := fun hnil => by
              rw [hleft hnil] at hlq
              cases hlq
            rw [List.isEmpty_eq_false_iff.mpr hsome]
            simp
        · rw [hfin]
          exact h.ended (hstate.symm.trans hcw)

/-- A `tcp_read` reads the end of the stream off the FIN flag. -/
def TcpSock.readsEnd (s : TcpSock) : Bool := s.state = .closeWait && s.receiveQueue.isEmpty && s.flagFin

theorem tcpRead_mirrored (h : s.Mirrored) (len : Nat) (hend : s.readsEnd = false)
    (hok : s.state.over ∨ len = 0 ∨ s.flagFin ∨ s.leaves len = [] ∨ (s.leaves len).any (·.psh)) : (tcpRead s len).1.Mirrored := by
  have hreceive : s.state.over = false → (tcpReceive s len).1.Mirrored := by
    intro ho
    unfold tcpReceive
    split
    next hlen =>
      refine tcpReceiveTurn_mirrored h len [] ?_
      rw [ho, if_neg Bool.false_ne_true]
      rw [ho] at hok
      exact (hok.resolve_left Bool.false_ne_true).resolve_left (Nat.pos_iff_ne_zero.mp hlen)
    next =>
      have hc := (quiet_tcpRearmUserTimeout s).core
      refine h.follows (.of_core (congrArg Core.flagFin hc) (congrArg Core.flagPsh hc) (congrArg (·.rcv.queue) hc)
        (tcpRearmUserTimeout_dials s)) ?_
      rw [(quiet_tcpRearmUserTimeout s).state]
      exact .stays
  unfold tcpRead
  cases hs : s.state
  case closeWait =>
    dsimp only
    split
    next heof =>
      rw [TcpSock.readsEnd, hs, Bool.and_assoc, heof] at hend
      cases hend
    next => exact hreceive (by rw [hs]; rfl)
  case close | closing | lastAck | timeWait => exact h
  all_goals exact hreceive (by rw [hs]; rfl)

end

/-! ## Timers -/

section

variable {s : TcpSock}

theorem pollErr_mask {s t : TcpSock} (h : t.pollEvents = s.pollEvents ||| POLLOUT ||| POLLERR ||| POLLHUP) :
    t.pollIn = s.pollIn ∧ t.pollOut := by
  rw [TcpSock.pollIn_eq, TcpSock.pollIn_eq, TcpSock.pollOut_eq, h]
  simp only [BitVec.getLsbD_or]
  rw [show POLLOUT.getLsbD 0 = false by decide, show POLLERR.getLsbD 0 = false by decide, show POLLHUP.getLsbD 0 = false by decide,
    show POLLOUT.getLsbD 2 = true by decide]
  simp

theorem tcpDone_mirrored (h : s.Mirrored) (hr : s.readable) : (tcpDone s).Mirrored := by
  have hc := tcpDone_core s
  refine h.follows (.of_core (congrArg Core.flagFin hc) (congrArg Core.flagPsh hc) (congrArg (·.rcv.queue) hc) (tcpDone_dials s)) ?_
  rw [tcpDone_state]
  exact .ends rfl hr

/-- What leaves core and dials alone. -/
theorem TcpSock.Mirrored.quiet {s t : TcpSock} (h : s.Mirrored) (hc : t.core = s.core) (hd : t.dials = s.dials) : t.Mirrored := by
  refine h.follows (.of_core (congrArg Core.flagFin hc) (congrArg Core.flagPsh hc) (congrArg (·.rcv.queue) hc) hd) ?_
  rw [show t.state = s.state from congrArg Core.state hc]
  exact .stays

theorem readable_of_core {s t : TcpSock} (hc : t.core = s.core) (h : s.readable) : t.readable := by
  rwa [TcpSock.readable, show t.state = s.state from congrArg Core.state hc, show t.flagFin = s.flagFin from congrArg Core.flagFin hc,
    show t.receiveQueue = s.receiveQueue from congrArg (·.rcv.queue) hc]

theorem tcpAbort_mirrored (h : s.Mirrored) (hr : s.readable) : (tcpAbort s).Mirrored := by
  have hc := tcpSendReset_core s
  have hstate := tcpSendReset_state s
  have hreset : (tcpSendReset s).Mirrored := by
    refine h.follows (.of_core (congrArg Core.flagFin hc) (congrArg Core.flagPsh hc) (congrArg (·.rcv.queue) hc)
      (tcpTransmitSkb_dials _ _ _)) ?_
    rw [hstate]
    exact .stays
  refine tcpDone_mirrored hreset ?_
  rwa [TcpSock.readable, hstate, show (tcpSendReset s).flagFin = s.flagFin from congrArg Core.flagFin hc,
    show (tcpSendReset s).receiveQueue = s.receiveQueue from congrArg (·.rcv.queue) hc]

theorem runHandler_mirrored (h : s.Mirrored) (x : Handler) (hr : handlerFinishes s x → s.readable) : (runHandler s x).Mirrored := by
  obtain ⟨hl, -⟩ := synchronized_late h.sync
  have hstop : (tcpStopLinger s).Mirrored := h.quiet (quiet_tcpStopLinger s).core (tcpStopLinger_dials s)
  have hstopr : s.readable → (tcpStopLinger s).readable := readable_of_core (quiet_tcpStopLinger s).core
  cases x with
  | connectRto n =>
    show (tcpConnectRto s n).Mirrored
    unfold tcpConnectRto
    split
    · exact h
    · dsimp only
      rw [if_neg (show (tcpReleaseRtoTimer s).state ≠ .synSent from hl.2.2)]
      exact h.quiet rfl rfl
  | retransmissionTimeout n =>
    show (tcpRetransmissionTimeout s n).Mirrored
    rcases tcpRetransmissionTimeout_cases s n with ⟨-, he⟩ | ⟨-, -, he⟩ | ⟨k, hn, hk, he⟩
    · rw [he]
      exact h
    · rw [he]
      refine h.quiet (quiet_rtoIdle s).core ?_
      unfold rtoIdle
      dsimp only
      split <;> rfl
    · rw [he]
      have hc := (tcpTransmitSkb_core (rtoSock s) k (rtoSock s).tcb.sndUna).trans (quiet_rtoSock s).core
      have hq : (tcpTransmitSkb (rtoSock s) k (rtoSock s).tcb.sndUna).Mirrored :=
        h.quiet hc ((tcpTransmitSkb_dials _ _ _).trans rfl)
      have hrto : (tcpTransmitSkb (rtoSock s) k (rtoSock s).tcb.sndUna).rto = s.rto := tcpTransmitSkb_rto _ _ _
      have hgive : s.rto > 60000 → s.readable := fun hlong => by
        refine hr ?_
        have hsome : s.writeQueue.isEmpty = false := by
          cases hw : s.writeQueue with
          | nil =>
            rw [hw] at hk
            cases hk
          | cons k q => rfl
        rw [handlerFinishes, hn, hsome, decide_eq_true hlong]
        simp
      generalize tcpTransmitSkb (rtoSock s) k (rtoSock s).tcb.sndUna = t at hq hc hrto
      unfold rtoTail
      rw [hrto]
      split
      next hlong =>
        have hdone := tcpDone_mirrored hq (readable_of_core hc (hgive hlong))
        obtain ⟨hin, hout⟩ := pollErr_mask
          (show ({ tcpDone t with err := -ETIMEDOUT, pollEvents := (tcpDone t).pollEvents ||| POLLOUT ||| POLLERR ||| POLLHUP } : TcpSock).pollEvents = _ from rfl)
        exact hdone.follows ⟨rfl, rfl, rfl, hin, fun _ => hout⟩ .stays
      next =>
        have harm : (tcpRearmRtoTimer { t with rto := s.rto * 2, backoff := t.backoff + 1 }).Mirrored :=
          hq.follows (.of_eq rfl rfl rfl rfl) .stays
        split
        · generalize tcpRearmRtoTimer { t with rto := s.rto * 2, backoff := t.backoff + 1 } = u at harm
          unfold tcpHandleFinState
          split
          next hst =>
            refine harm.follows (.of_eq rfl rfl rfl rfl) (.ends rfl ?_)
            rw [TcpSock.readable, harm.ended hst]
            simp
          next hst => exact harm.follows (.of_eq rfl rfl rfl rfl) (.hears rfl (by rw [hst]; rfl))
          next => exact harm
        · exact harm
  | sendDelack => exact h.quiet (quiet_tcpSendDelack s).core (tcpSendDelack_dials s)
  | linger => exact tcpDone_mirrored hstop (hstopr (hr rfl))
  | userTimeout => exact tcpAbort_mirrored hstop (hstopr (hr rfl))

end

/-! ## Calls that send -/

/-- What `tcp_write` and `tcp_close` do. -/
def Act.sends : Act → Bool
  | .send | .close | .finish _ => true
  | .arrive _ _ _ | .fire _ _ | .abort | .read | .idle => false

section

variable {s t : TcpSock}

/-- They leave the reader's part alone. -/
theorem SockMoves.sameRead {a : Act} (h : SockMoves a s t) (ha : a.sends) (hd : t.dials = s.dials) : s.SameRead t := by
  obtain ⟨es, -, hm⟩ := h
  have hkeep : t.core.flagFin = s.flagFin ∧ t.core.flagPsh = s.flagPsh ∧ t.core.rcv.queue = s.receiveQueue := by
    refine hm.keeps_core (I := fun k => k.flagFin = s.flagFin ∧ k.flagPsh = s.flagPsh ∧ k.rcv.queue = s.receiveQueue)
      (fun hmv hk => ?_) ⟨rfl, rfl, rfl⟩
    cases hmv with
    | quiet | data | spin | closeRefused | closeDone | closeStart | queueFin => exact hk
    | _ => cases ha
  exact .of_core hkeep.1 hkeep.2.1 hkeep.2.2 hd

theorem settle_mirrored {a : Act} {c : Conn} {r : TcpSock × Outcome} (h : s.Mirrored) (hm : SockMoves a s (c.settle r).sk)
    (ha : a.sends) (hd : r.1.dials = s.dials) (hst : s.Follows r.1.state) : (c.settle r).sk.Mirrored := by
  refine h.follows (hm.sameRead ha ?_) (by rw [Conn.settle_state]; exact hst)
  rcases Conn.settle_sk c r with he | ⟨-, he⟩
  · rw [he]
    exact hd
  · rw [he]
    exact hd

/-- At the end of the stream there is something to read. -/
theorem TcpSock.Mirrored.readable_eos (h : s.Mirrored) (he : s.state.eos) : s.readable := by
  unfold TcpSock.readable
  cases hs : s.state
  case closeWait => simp [h.ended hs]
  case closing | lastAck | timeWait => rfl
  all_goals
    rw [hs] at he
    cases he

theorem tcpQueueFin_follows (h : s.Mirrored) {lastAck : Bool} (he : lastAck → s.state.eos) :
    s.Follows (tcpQueueFin s lastAck).1.state := by
  rw [tcpQueueFin_state]
  split
  next hl =>
    simp only [Bool.and_eq_true] at hl
    exact .ends rfl (h.readable_eos (he hl.1))
  next => exact .stays

theorem tcpClose_follows (h : s.Mirrored) : s.Follows (tcpClose s).1.state := by
  unfold tcpClose
  split
  case h_7 hs | h_8 hs | h_9 hs =>
    have hsync := h.sync
    rw [hs] at hsync
    cases hsync
  case h_10 hs =>
    rw [tcpQueueFin_state]
    exact .hears rfl (by rw [hs]; rfl)
  case h_11 hs => exact tcpQueueFin_follows h fun _ => by rw [hs]; rfl
  all_goals exact .stays

end

/-! ## How the mask starts -/

/-- `sock_connected` on a socket nothing has been queued on. -/
theorem tcpSynsent_mirrored {s : TcpSock} (hs : s.state = .synSent) (hp : s.flagPsh = false)
    (hq : s.receiveQueue = [] ∧ s.flagFin = false) {th : Tcphdr} (he : (tcpSynsent s th).state = .established) :
    (tcpSynsent s th).Mirrored := by
  have hidle : ¬s.state = .established := by rw [hs]; nofun
  have hreset : ¬(tcpReset s).state = .established := by
    unfold tcpReset
    simp only [hs]
    rw [tcpDone_state]
    nofun
  rw [tcpSynsent_eq] at he ⊢
  split at he
  · exact absurd he hidle
  next h1 =>
  rw [if_neg h1]
  split at he
  · exact absurd he hidle
  next h2 =>
  rw [if_neg h2]
  split at he
  · exact absurd he hreset
  next h3 =>
  rw [if_neg h3]
  split at he
  · exact absurd he hidle
  next h4 =>
  rw [if_neg h4]
  unfold synTaken at he ⊢
  split at he
  next hgt =>
    rw [if_pos hgt]
    have hc := synsentEstablish_core (synAckedSock s th) th
    rw [synAckedSock_core] at hc
    have hpoll : (synsentEstablish (synAckedSock s th) th).pollEvents = POLLOUT ||| POLLWRNORM ||| POLLWRBAND := rfl
    generalize synsentEstablish (synAckedSock s th) th = t at hc hpoll
    have hst : t.state = .established := congrArg Core.state hc
    have hfin : t.flagFin = false := (congrArg Core.flagFin hc).trans hq.2
    have hrq : t.receiveQueue = [] := (congrArg (·.rcv.queue) hc).trans hq.1
    refine ⟨⟨by rw [hst]; rfl, (congrArg Core.flagPsh hc).trans hp, ?_, ?_, fun hcw => ?_⟩, fun _ _ => .inl hrq⟩
    · rw [TcpSock.pollIn, TcpSock.readable, hpoll, hst, hfin, hrq]
      decide
    · rw [TcpSock.pollOut, hpoll]
      decide
    · rw [hst] at hcw
      cases hcw
  next =>
    rw [show (tcpSendSynack _).state = .synReceived from
      congrArg Core.state (tcpSendSynack_core (s := { (synAckedSock s th).setState .synReceived with tcb.sndUna := (synAckedSock s th).tcb.iss }) rfl)] at he
    cases he

/-- Before the SYN is answered there is nothing to read, and PSH is never noted. -/
def Core.Unread (k : Core) : Prop := k.flagPsh = false ∧ (k.state.unopened → k.rcv.queue = [] ∧ k.flagFin = false)

theorem Move.unread {a : Act} {c c' : Core} {es : List Effect} (hm : Move a c es c') (h : c.Unread) : c'.Unread := by
  obtain ⟨hp, hq⟩ := h
  have hu := hm.unopened
  cases hm with
  | inOrder _ ht =>
    refine ⟨hp, fun h => ?_⟩
    cases hs : c.state <;> simp [hs, TcpState.unopened, TcpState.takesText] at h ht
  | finAgain hs =>
    refine ⟨hp, fun h => ?_⟩
    rw [hs] at h
    cases h
  | fin _ _ _ h1 h2 h3 =>
    refine ⟨hp, fun h => ?_⟩
    have := hu h
    cases hs : c.state <;> simp_all [TcpState.unopened]
  | dequeue n =>
    refine ⟨rfl, fun h => ?_⟩
    obtain ⟨h1, h2⟩ := hq h
    refine ⟨?_, h2⟩
    unfold RcvSide.dequeue
    rw [h1]
    cases n <;> rfl
  | eof => exact ⟨hp, fun h => ⟨(hq h).1, rfl⟩⟩
  | _ => exact ⟨hp, fun h => hq (hu h)⟩

theorem Core.Opens.unread {c c' : Core} (ho : c.Opens c') (h : c.Unread) : c'.Unread := by
  cases ho with
  | fails => exact h
  | listen hs | connect _ hs _ => exact ⟨h.1, fun _ => h.2 (by rw [hs]; rfl)⟩

/-! ## Runs -/

/-- What a reader with so much room leaves satisfies the next one, if anything
is left. -/
def TcpSock.leavesWhole (s : TcpSock) (room : Nat) : Bool := (s.leaves room).isEmpty || (s.leaves room).any (·.psh)

namespace Conn

/-- The event leaves the mask of an established socket right: what ends the
stream without a FIN finds something to read, text that is queued can be read
up to a PSH or is followed by a FIN, a read takes all there is or leaves a PSH,
and none takes the FIN flag. -/
def keepsMask (c : Conn) : Event → Bool
  | .segment th data psh =>
    let skb := tcpInitSegment th data psh
    (!(c.sk.core.rcv.verify th skb && th.rst) || c.sk.readable) &&
      (!c.sk.queuesNext th skb || th.fin || (c.sk.rcv.push skb).queue.any (·.psh))
  | .read len => !c.sk.readsEnd && (c.sk.state.over || len = 0 || c.sk.flagFin || c.sk.leavesWhole len)
  | .resume i =>
    match c.calls[i]? with
    | some (.recv len got) =>
      c.sk.flagFin || if c.sk.state.over then !(c.sk.leaves (len - got.length)).isEmpty else c.sk.leavesWhole (len - got.length)
    | _ => true
  | .handler i => !(c.sk.spawned[i]?).any (handlerFinishes c.sk) || c.sk.readable
  | .abort => c.sk.readable
  | .write _ | .close | .dispatch _ | .tick _ | .fcntl _ | .adjustPmtu6 _ => true

variable {c : Conn}

theorem leavesWhole_iff (s : TcpSock) (room : Nat) : s.leavesWhole room ↔ s.leaves room = [] ∨ (s.leaves room).any (·.psh) := by
  rw [TcpSock.leavesWhole, Bool.or_eq_true, List.isEmpty_iff]

theorem resume_mirrored (hr : c.Ready) (h : c.sk.Mirrored) (hcl : .fin true ∈ c.calls → c.sk.state.eos) {i : Nat}
    (hok : c.keepsMask (.resume i)) : (c.resume i).sk.Mirrored := by
  have hm := resume_moves hr i
  have hst := c.resume_state i
  simp only [keepsMask] at hok
  simp only [resume, act] at hm hst ⊢
  cases hi : c.calls[i]? with
  | none => exact h
  | some call =>
    rw [hi] at hm hok
    cases call with
    | recv len got =>
      dsimp only at hok ⊢
      rw [settleRead_sk]
      refine tcpReceiveTurn_mirrored h len got ?_
      rw [Bool.or_eq_true] at hok
      refine hok.imp_right fun hok => ?_
      split at hok
      next ho =>
        rw [if_pos ho]
        exact List.isEmpty_eq_false_iff.mp (by simpa using hok)
      next ho =>
        rw [if_neg ho]
        exact (leavesWhole_iff _ _).mp hok
    | send mss chunk rest len =>
      refine settle_mirrored h hm rfl (resumeSend_dials _ _) ?_
      have hs : (resumeSend c.sk (.send mss chunk rest len)).1.state = c.sk.state := by
        rw [resumeSend]
        split
        · exact (tcpSendLoop_state _ _ _ _ _).trans (tcpQueueTransmitSkb_state _ _)
        · rfl
      rw [hs]
      exact .stays
    | fin lastAck =>
      refine settle_mirrored h hm rfl (resumeSend_dials _ _) (tcpQueueFin_follows h fun hl => hcl ?_)
      rw [← hl]
      exact List.mem_of_getElem? hi

theorem handle_mirrored {s : TcpSock} (h : s.Mirrored) {i : Nat} (hok : (s.spawned[i]?).any (handlerFinishes s) → s.readable) :
    (handle s i).Mirrored := by
  unfold handle
  cases hi : s.spawned[i]? with
  | none => exact h
  | some x =>
    rw [hi] at hok
    have hs : TcpSock.Mirrored { s with spawned := s.spawned.eraseIdx i } := h.follows (.of_eq rfl rfl rfl rfl) .stays
    refine runHandler_mirrored hs x fun hf => hok ?_
    cases x <;> exact hf

/-- **An event of an established socket** leaves the mask right. -/
theorem step_mirrored (hr : c.Ready) (h : c.sk.Mirrored) (hcl : .fin true ∈ c.calls → c.sk.state.eos) {e : Event}
    (hok : c.sk.fault ∨ c.keepsMask e) : (c.step e).sk.Mirrored := by
  by_cases hf : c.sk.fault
  · rw [step_of_fault hf]
    exact h
  have hok := hok.resolve_left hf
  have hm := step_moves hr e
  rw [show c.step e = _ from if_neg hf] at hm ⊢
  cases e with
  | segment th data psh =>
    simp only [keepsMask, Bool.and_eq_true, Bool.or_eq_true, Bool.not_eq_true'] at hok
    refine segmentArrives_mirrored h (fun hv hrst => hok.1.resolve_left ?_) fun hq => ?_
    · rw [hv, hrst]
      nofun
    · rcases hok.2 with (hn | hfin) | hpsh
      · rw [hq] at hn
        cases hn
      · exact .inl hfin
      · exact .inr hpsh
  | write buf =>
    refine settle_mirrored h hm rfl (tcpWrite_dials _ _) ?_
    rw [tcpWrite_state]
    exact .stays
  | read len =>
    simp only [keepsMask, Bool.and_eq_true, Bool.or_eq_true, Bool.not_eq_true', decide_eq_true_eq, leavesWhole_iff] at hok
    rw [settleRead_sk]
    exact tcpRead_mirrored h len hok.1 (by simpa only [or_assoc] using hok.2)
  | close => exact settle_mirrored h hm rfl (tcpClose_dials _) (tcpClose_follows h)
  | abort => exact tcpAbort_mirrored h hok
  | resume i => exact resume_mirrored hr h hcl hok
  | handler i =>
    refine handle_mirrored h fun hfin => ?_
    simpa [keepsMask, hfin] using hok
  | dispatch i =>
    refine h.follows ?_ ?_ <;> simp only [dispatch] <;> split
    · exact .refl _
    · exact .of_eq rfl rfl rfl rfl
    · exact .stays
    · exact .stays
  | tick | fcntl => exact h.follows (.of_eq rfl rfl rfl rfl) .stays
  | adjustPmtu6 mss =>
    refine h.follows ?_ ?_ <;> simp only [adjustPmtu6] <;> split
    · exact .of_eq rfl rfl rfl rfl
    · exact .refl _
    · exact .stays
    · exact .stays

/-- **The event that establishes a connection**, if it is not the ACK of a
SYN-ACK, leaves the mask right. -/
theorem step_opens (hr : c.OnlyReaders) (hu : c.sk.core.Unread) (hne : c.sk.state ≠ .established ∧ c.sk.state ≠ .closeWait)
    {e : Event} (hok : c.shakes e = false) (he : (c.step e).sk.state = .established ∨ (c.step e).sk.state = .closeWait) :
    (c.step e).sk.Mirrored := by
  have hs : c.sk.state = .synSent := by
    have hst := step_state c e
    have hno : completes c.sk (c.step e).sk = false := (step_completes hr e).trans hok
    split at hst
    · rw [hst] at he
      rcases he with h | h <;> cases h
    split at hst
    · rw [hst] at he
      rcases he with h | h <;> cases h
    split at hst
    · rw [hst] at he
      rcases he with h | h <;> cases h
    rcases hst with hst | hst
    · rcases he with h | h
      · exact absurd (hst.symm.trans h) hne.1
      · exact absurd (hst.symm.trans h) hne.2
    · rw [completes] at hno
      cases hc : c.sk.state <;> rcases he with h | h <;> simp_all [TcpState.next]
  cases e with
  | segment th data psh =>
    have hf : ¬c.sk.fault := fun hf => by
      rw [step_of_fault hf, hs] at he
      rcases he with h | h <;> cases h
    have hsk : (c.step (.segment th data psh)).sk = tcpSynsent c.sk th := by
      rw [show c.step (.segment th data psh) = _ from if_neg hf]
      simp only [segmentArrives, hs]
    rw [hsk] at he ⊢
    refine tcpSynsent_mirrored hs hu.1 (hu.2 (by rw [core_state, hs]; rfl)) (he.resolve_right fun hcw => ?_)
    have hst := tcpSynsent_state hs th
    rw [hcw] at hst
    split at hst
    · cases hst
    · rcases hst with h | h | h <;> cases h
  | _ =>
    -- only a segment leaves SYN_SENT for ESTABLISHED
    obtain ⟨es, -, hm⟩ := step_moves hr.ready _
    refine absurd he (hm.keeps_core (I := fun k => ¬(k.state = .established ∨ k.state = .closeWait)) (fun hmv hk h => ?_)
      (by rw [core_state, hs]; simp))
    rcases hmv.established h with h | ⟨c₀, th, skb, ha⟩
    · exact hk h
    · exact absurd ha (not_arrive (by intros; simp) _ _ _)

end Conn

/-- A socket's life, and whether it has been established. -/
structure PollRun where
  conn : Conn
  opened : Bool := false

namespace PollRun

def step (h : PollRun) (e : LifeEvent) : PollRun :=
  let c := h.conn.live e
  { conn := c, opened := h.opened || c.sk.state = .established || c.sk.state = .closeWait }

/-- The event keeps the mask, or does not establish the socket from
SYN_RECEIVED, where nothing sets POLLOUT. -/
def keeps (h : PollRun) : LifeEvent → Bool
  | .conn e => h.conn.sk.fault || if h.opened then h.conn.keepsMask e else !h.conn.shakes e
  | .listen | .connect _ _ => true

/-- What holds over the life of a socket. -/
structure Inv (h : PollRun) : Prop where
  readers : h.conn.OnlyReaders
  unread : h.conn.sk.core.Unread
  closers : .fin true ∈ h.conn.calls → h.conn.sk.state.eos
  before : h.opened = false → h.conn.sk.state ≠ .established ∧ h.conn.sk.state ≠ .closeWait
  mirrored : h.opened → h.conn.sk.Mirrored

variable {h : PollRun}

theorem Inv.live_mirrored (hi : h.Inv) (ho : h.opened) {e : LifeEvent} (hok : h.keeps e) : (h.conn.live e).sk.Mirrored := by
  have hm := hi.mirrored ho
  have hclose : h.conn.sk.state ≠ .close := fun hs => by
    have hsync := hm.sync
    rw [hs] at hsync
    cases hsync
  cases e with
  | listen =>
    rw [Conn.live]
    split
    · exact hm
    · rcases tcpV4Listen_cases h.conn.sk with ⟨hs, -⟩ | hl
      · exact absurd hs hclose
      · rw [hl]
        exact hm
  | connect d iss =>
    rw [Conn.live]
    split
    · exact hm
    · rcases inetStreamConnect_cases h.conn.sk d iss with ⟨hs, -⟩ | ⟨err, hl⟩
      · exact absurd hs hclose
      · rw [hl]
        exact hm.follows (.of_eq rfl rfl rfl rfl) .stays
  | conn e =>
    rw [keeps, if_pos ho, Bool.or_eq_true] at hok
    exact Conn.step_mirrored hi.readers.ready hm hi.closers hok

/-- The event that establishes the connection. -/
theorem Inv.live_opens (hi : h.Inv) (ho : h.opened = false) {e : LifeEvent} (hok : h.keeps e)
    (he : (h.conn.live e).sk.state = .established ∨ (h.conn.live e).sk.state = .closeWait) : (h.conn.live e).sk.Mirrored := by
  have hne := hi.before ho
  have hold : h.conn.sk.state ≠ (h.conn.live e).sk.state := fun hs => he.elim (fun h => hne.1 (hs.trans h)) fun h => hne.2 (hs.trans h)
  have hf : ¬h.conn.sk.fault := fun hf => by
    cases e <;> simp [Conn.live, Conn.step_of_fault hf, hf] at hold
  cases e with
  | listen =>
    rw [Conn.live, if_neg hf] at he hold
    rcases tcpV4Listen_cases h.conn.sk with ⟨-, hl⟩ | hl
    · rw [hl] at he
      rcases he with h | h <;> cases h
    · rw [hl] at hold
      exact absurd rfl hold
  | connect d iss =>
    rw [Conn.live, if_neg hf] at he hold
    rcases inetStreamConnect_cases h.conn.sk d iss with ⟨hs, hl⟩ | ⟨err, hl⟩
    · rw [hl] at he
      have hst : (tcpConnect (h.conn.sk.addressed d) iss).state = .synSent := tcpConnect_state (s := h.conn.sk.addressed d) hs iss
      rcases he with h | h <;> cases hst.symm.trans h
    · rw [hl] at hold
      exact absurd rfl hold
  | conn e =>
    rw [keeps, ho, if_neg Bool.false_ne_true, Bool.or_eq_true, Bool.not_eq_true'] at hok
    exact Conn.step_opens hi.readers hi.unread hne (hok.resolve_left hf) he

theorem Inv.step (hi : h.Inv) {e : LifeEvent} (hok : h.keeps e) : (h.step e).Inv where
  readers := Conn.live_onlyReaders hi.readers e
  unread := Conn.live_keeps_core (fun hmv hk => hmv.unread hk) (fun ho hk => ho.unread hk) hi.readers hi.unread e
  closers := Conn.live_closers hi.readers hi.closers e
  before := fun ho => by
    simp only [PollRun.step, Bool.or_eq_false_iff, decide_eq_false_iff_not] at ho
    exact ⟨ho.1.2, ho.2⟩
  mirrored := fun ho => by
    cases hold : h.opened with
    | true => exact hi.live_mirrored hold hok
    | false =>
      refine hi.live_opens hold hok ?_
      simpa [PollRun.step, hold] using ho

theorem Inv.born {s : TcpSock} (hb : Born s) : Inv { conn := { sk := s } } := by
  have hs : s.core.Unread ∧ s.state ≠ .established ∧ s.state ≠ .closeWait := by
    cases hb with
    | fresh o => exact ⟨⟨rfl, fun _ => ⟨rfl, rfl⟩⟩, nofun, nofun⟩
    | forked _ hl =>
      have hc := (tcpListen_core hl).1
      refine ⟨by rw [hc]; exact ⟨rfl, fun _ => ⟨rfl, rfl⟩⟩, ?_⟩
      rw [show s.state = .synReceived from congrArg Core.state hc]
      exact ⟨nofun, nofun⟩
  exact ⟨fun _ => by simp, hs.1, by simp, fun _ => hs.2, nofun⟩

end PollRun

/-- **poll agrees with read.** In a run of any socket, from its allocation or
its fork, that is not established from SYN_RECEIVED: if what ends the stream
without a FIN finds something to read, text that is queued can be read up to a
PSH or is followed by a FIN, reads take all there is or leave a PSH, and none
takes the FIN flag, then poll agrees with read from the time the socket is
established. -/
theorem poll_agrees {s : TcpSock} (hb : Born s) {es : List LifeEvent}
    (hok : Machine.Meets PollRun.step (fun h e => h.keeps e) { conn := { sk := s } } es) :
    Machine.Meets PollRun.step (fun h e => (h.step e).opened → (h.step e).conn.sk.PollAgrees) { conn := { sk := s } } es :=
  hok.derives (I := PollRun.Inv) (fun _ _ hok hi => ⟨hi.step hok, fun ho => ((hi.step hok).mirrored ho).agrees⟩)
    (PollRun.Inv.born hb)

/-- A client gets three bytes with PSH, reads them and then the FIN. -/
def pushedReads : List LifeEvent :=
  [.connect {} 100, .conn synAckEvent,
   .conn (.segment { seq := 501, ackSeq := 101, ack := true, psh := true, win := 10000 } (.ofTake 3 [1, 2, 3]) true),
   .conn (.read 10),
   .conn (.segment { seq := 504, ackSeq := 101, ack := true, fin := true, win := 10000 } .nil false)]

theorem poll_agrees_pushed : Machine.Meets PollRun.step
    (fun h e => (h.step e).opened → (h.step e).conn.sk.PollAgrees) { conn := { sk := freshSock {} } } pushedReads :=
  poll_agrees (.fresh {}) (by decide +kernel)

/-- The ACK that ends the handshake of the forked socket. -/
def shakeEvent : LifeEvent := .conn (.segment { seq := 501, ackSeq := 101, ack := true, win := 1000 } .nil false)

/-- **A forked socket is established without POLLOUT.** -/
theorem forked_without_pollout : Born forkedSock ∧ ¬Machine.Meets PollRun.step
    (fun h e => (h.step e).opened → (h.step e).conn.sk.PollAgrees) { conn := { sk := forkedSock } } [shakeEvent] := by
  have hchild : tcpListen ((freshSock {}).setState .listen) firstSyn ⟨100, 0, .v4 1⟩ = some forkedSock := by decide +kernel
  refine ⟨.forked rfl hchild, fun h => ?_⟩
  have hout := (h.1 (by decide +kernel)).pollOut (.inl (by decide +kernel))
  exact absurd hout (by decide +kernel)

end LevelIp
