/-
What exactly one segment does to an ESTABLISHED socket, where the moves say
only what it may do: the receive side it leaves, and whether its FIN counts.
-/
import LevelIp.InputMoves

namespace LevelIp

/-! ## The ACK field -/

/-- A new ACK is no duplicate. -/
theorem tcpIsDupack_of_new {s : TcpSock} {th : Tcphdr} (skb : Skb) (h : ackIsNew s th) : tcpIsDupack s th skb = false := by
  simp only [ackIsNew, Bool.and_eq_true, decide_eq_true_eq] at h
  have : th.ackSeq ≠ s.tcb.sndUna := (BitVec.ne_of_lt h.1).symm
  simp [tcpIsDupack, this]

/-- A new ACK is taken and its segment goes on. -/
theorem ackSynchronized_new {s : TcpSock} {th : Tcphdr} (skb : Skb) (h : ackIsNew s th) : ∃ t,
    ackSynchronized s th skb = .next t ∧ t.core = { s.core with snd := s.core.snd.acked th.ackSeq } := by
  have hn := h
  simp only [ackIsNew, Bool.and_eq_true, decide_eq_true_eq] at hn
  have hd := tcpIsDupack_of_new skb h
  have hc := newAck_core s th
  have hu : (newAck s th).tcb.sndUna = th.ackSeq := congrArg (·.snd.una) hc
  have hx : (newAck s th).tcb.sndNxt = s.tcb.sndNxt := congrArg (·.snd.nxt) hc
  have h1 : ¬th.ackSeq < (newAck s th).tcb.sndUna := by rw [hu]; exact BitVec.lt_irrefl _
  have h2 : ¬th.ackSeq > (newAck s th).tcb.sndNxt := by rw [hx]; exact BitVec.not_lt.mpr hn.2
  rw [ackSynchronized, hd, h]
  simp only [Bool.false_eq_true, if_false, if_true]
  rw [ackChecked, if_neg h1, if_neg h2, ackIsNew_newAck]
  exact ⟨_, rfl, hc⟩

/-- Any other ACK in `snd_una..snd_nxt` that is no duplicate changes nothing and goes on. -/
theorem ackSynchronized_old {s : TcpSock} {th : Tcphdr} {skb : Skb} (hd : tcpIsDupack s th skb = false)
    (h : ackIsNew s th = false) (h1 : s.tcb.sndUna ≤ th.ackSeq) (h2 : th.ackSeq ≤ s.tcb.sndNxt) : ∃ t,
    ackSynchronized s th skb = .next t ∧ t.core = s.core := by
  rw [ackSynchronized, hd, h]
  simp only [Bool.false_eq_true, if_false]
  rw [ackChecked, if_neg (BitVec.not_lt.mpr h1), if_neg (BitVec.not_lt.mpr h2), h]
  exact ⟨_, rfl, rfl⟩

/-- An ACK outside `snd_una..snd_nxt` ends its segment. -/
theorem ackSynchronized_outside {s : TcpSock} {th : Tcphdr} {skb : Skb} (hd : tcpIsDupack s th skb = false)
    (h : ackIsNew s th = false) (ho : ¬(s.tcb.sndUna ≤ th.ackSeq ∧ th.ackSeq ≤ s.tcb.sndNxt)) :
    ackSynchronized s th skb = .ret s := by
  rw [ackSynchronized, hd, h]
  simp only [Bool.false_eq_true, if_false]
  rw [ackChecked]
  split
  · rfl
  next h1 =>
    have h2 : th.ackSeq > s.tcb.sndNxt := by
      by_contra h2
      exact ho ⟨BitVec.not_lt.mp h1, BitVec.not_lt.mp h2⟩
    rw [if_pos h2]

/-- A socket outside SYN_RECEIVED that has an ACK part runs the shared one. -/
theorem ackField_synchronized {s : TcpSock} (hs : s.state.takesAck) (th : Tcphdr) (skb : Skb) :
    ackField s th skb = ackSynchronized s th skb := by
  unfold ackField
  cases h : s.state <;> simp only [h, TcpState.takesAck, Bool.false_eq_true] at hs ⊢

/-- The ACK number of a segment is in `snd_una..snd_nxt`. -/
def SndSide.AckOk (d : SndSide) (th : Tcphdr) : Prop := d.una ≤ th.ackSeq ∧ th.ackSeq ≤ d.nxt

instance (d : SndSide) (th : Tcphdr) : Decidable (d.AckOk th) := inferInstanceAs (Decidable (_ ∧ _))

/-- With an acceptable ACK that is no duplicate the segment goes on, and only
the send side has changed. -/
theorem ackField_passes {s : TcpSock} {th : Tcphdr} {skb : Skb} (hs : s.state.takesAck)
    (hd : tcpIsDupack s th skb = false) (ha : s.core.snd.AckOk th) : ∃ t d,
    ackField s th skb = .next t ∧ t.core = { s.core with snd := d } := by
  rw [ackField_synchronized hs]
  cases hn : ackIsNew s th with
  | true =>
    obtain ⟨t, ht, hc⟩ := ackSynchronized_new skb hn
    exact ⟨t, _, ht, hc⟩
  | false =>
    obtain ⟨t, ht, hc⟩ := ackSynchronized_old hd hn ha.1 ha.2
    exact ⟨t, s.core.snd, ht, hc⟩

/-! ## Text and FIN -/

/-- The receive side after `tcp_data_queue`. -/
def RcvSide.take (r : RcvSide) (skb : Skb) : RcvSide :=
  if r.wnd = 0 then r else if skb.seq = r.nxt then r.push skb else r.insert skb

theorem tcpDataQueue_core (s : TcpSock) (skb : Skb) :
    (tcpDataQueue s skb).core = { s.core with rcv := s.core.rcv.take skb } := by
  unfold tcpDataQueue RcvSide.take
  by_cases hw : s.tcb.rcvWnd = 0
  · rw [if_pos hw, if_pos (show s.core.rcv.wnd = 0 from hw)]
  · rw [if_neg hw, if_neg (show ¬s.core.rcv.wnd = 0 from hw)]
    by_cases hq : skb.seq = s.tcb.rcvNxt
    · rw [if_pos hq, if_pos (show skb.seq = s.core.rcv.nxt from hq)]
      rfl
    · rw [if_neg hq, if_neg (show ¬skb.seq = s.core.rcv.nxt from hq)]
      dsimp only
      rw [(quiet_tcpSendAck _).core]
      split
      · exact (quiet_tcpCalculateSacks _ _ _).core
      · rfl

/-- The receive side after the segment text. -/
def RcvSide.text (r : RcvSide) (th : Tcphdr) (skb : Skb) : RcvSide :=
  if th.psh || skb.dlen > 0 then r.take skb else r

/-- The core after text and FIN, in ESTABLISHED. -/
def Core.hear (c : Core) (th : Tcphdr) (skb : Skb) : Core :=
  if th.fin ∧ skb.seq = c.rcv.nxt then
    { c with
      state := .closeWait
      flagFin := true
      rcv := { c.rcv.text th skb with nxt := (c.rcv.text th skb).nxt + 1 } }
  else { c with rcv := c.rcv.text th skb }

theorem segmentText_core {s : TcpSock} (hs : s.state = .established) (th : Tcphdr) (skb : Skb) :
    (segmentText s th skb).core = { s.core with rcv := s.core.rcv.text th skb } := by
  simp only [segmentText, hs, RcvSide.text]
  split
  · exact tcpDataQueue_core s skb
  · rfl

theorem finAcked_snd (s : TcpSock) (th : Tcphdr) : (finAcked s th).sock.core.snd = s.core.snd := by
  unfold finAcked
  split
  · split
    case h_3 =>
      rw [Ctl.sock, tcpDone_core]
      rfl
    case h_4 =>
      dsimp only [Ctl.sock]
      split
      · rw [(quiet_tcpSendAck _).core]
        rfl
      · rfl
    all_goals rfl
  · rfl

theorem segmentText_snd (s : TcpSock) (th : Tcphdr) (skb : Skb) : (segmentText s th skb).core.snd = s.core.snd := by
  unfold segmentText
  split
  case h_4 => rfl
  all_goals
    split
    · rw [tcpDataQueue_core]
    · rfl

theorem finBit_snd (s : TcpSock) (th : Tcphdr) (expected : Bool) : (finBit s th expected).sock.core.snd = s.core.snd := by
  unfold finBit
  split
  · split
    case h_4 =>
      dsimp only [Ctl.sock]
      rw [finState_core, ((quiet_tcpSendAck _).trans (quiet_wakeup _ .recvWait)).core]
      rfl
    all_goals rfl
  · rfl

/-- What comes after the FIN touches the send side only, and not `snd_una`. -/
theorem ackData_core (s : TcpSock) (th : Tcphdr) (skb : Skb) (expected : Bool) :
    ∃ d, (ackData s th skb expected).core = { s.core with snd := d } ∧ d.una = s.core.snd.una := by
  unfold ackData
  split
  case h_4 => exact ⟨_, rfl, rfl⟩
  all_goals
    split
    case isFalse => exact ⟨_, rfl, rfl⟩
    have hstop := (quiet_tcpStopDelackTimer s).core
    generalize tcpStopDelackTimer s = t at hstop
    dsimp only
    split
    · obtain ⟨es, d, -, hc, hn⟩ := tcpSendNext_spec t t.writeQueue.length 0
      refine ⟨d, (quiet_tcpRearmRtoTimer _).core.trans ?_, hn.una.trans (congrArg (·.snd.una) hstop)⟩
      rw [hc, hstop]
    · have hd : Quiet t (if !th.psh && skb.dlen > 1000 then { t with delacks := t.delacks + 1 } else t) :=
        .ite (.of_eq rfl rfl) (.refl t)
      generalize (if !th.psh && skb.dlen > 1000 then { t with delacks := t.delacks + 1 } else t) = u at hd
      refine ⟨s.core.snd, Eq.trans ?_ (hd.core.trans hstop), rfl⟩
      split
      · exact ((quiet_tcpSendAck _).after rfl rfl).core
      · split <;> rfl

theorem finBit_established {s : TcpSock} (hs : s.state = .established) (th : Tcphdr) (expected : Bool) :
    ∃ t, finBit s th expected = .next t ∧ t.core =
      if th.fin && expected then { s.core with
        state := .closeWait, flagFin := true, rcv := { s.core.rcv with nxt := s.core.rcv.nxt + 1 } }
      else s.core := by
  unfold finBit
  split
  next =>
    let s₁ : TcpSock := { s with
      tcb.rcvNxt := s.tcb.rcvNxt + 1, flagFin := true, pollEvents := s.pollEvents ||| pollInMask }
    have hq : ((tcpSendAck (s₁.emit .peerFin)).wakeup .recvWait).core = s₁.core :=
      ((quiet_tcpSendAck _).trans (quiet_wakeup _ .recvWait)).core
    split
    case h_1 h | h_2 h | h_3 h => cases hs.symm.trans h
    case h_4 =>
      refine ⟨_, rfl, ?_⟩
      have hst : s₁.core.finState = .closeWait := by simp only [Core.finState, core_state, s₁, hs]
      rw [finState_core, hq, hst]
      rfl
  next => exact ⟨s, rfl, rfl⟩

/-- **A heard segment in ESTABLISHED**, its ACK acceptable and no duplicate. -/
theorem segmentArrives_heard {s : TcpSock} {th : Tcphdr} {skb : Skb} (hs : s.state = .established)
    (hh : s.core.Heard th skb) (hd : tcpIsDupack s th skb = false) (ha : s.core.snd.AckOk th) :
    ∃ d, (segmentArrives s th skb).core = { s.core.hear th skb with snd := d } := by
  have hh' := hh
  simp only [Core.Heard, Bool.and_eq_true, Bool.not_eq_true'] at hh'
  obtain ⟨⟨⟨hv, hrst⟩, hsyn⟩, hack⟩ := hh'
  have hv : tcpVerifySegment s th skb = true := hv
  obtain ⟨t, d, ht, hc⟩ := ackField_passes (show s.state.takesAck by rw [hs]; rfl) hd ha
  have hts : t.state = .established := (congrArg Core.state hc).trans hs
  have htr : t.core.rcv = s.core.rcv := by rw [hc]
  have hfin : finAcked t th = .next t := by
    unfold finAcked
    rw [hts]
    split <;> rfl
  have hx : (segmentText t th skb).state = .established := (segmentText_state t th skb).trans hts
  obtain ⟨u, hu, huc⟩ := finBit_established hx th (decide (skb.seq = t.tcb.rcvNxt))
  obtain ⟨d', hd', -⟩ := ackData_core u th skb (decide (skb.seq = t.tcb.rcvNxt))
  refine ⟨d', ?_⟩
  have hrun : segmentArrives s th skb = ackData u th skb (decide (skb.seq = t.tcb.rcvNxt)) := by
    simp only [segmentArrives, hs, tcpInputOtherwise, hv, hrst, hsyn, hack, ht, Ctl.andThen, afterAck, hfin, hu, Ctl.sock]
    rfl
  rw [hrun, hd', huc, segmentText_core hts, hc]
  simp only [Core.hear, Bool.and_eq_true, decide_eq_true_eq]
  have hnx : t.tcb.rcvNxt = s.core.rcv.nxt := congrArg RcvSide.nxt htr
  rw [hnx]
  split
  · rfl
  · rfl

/-- **An unacceptable segment** without RST changes nothing. -/
theorem segmentArrives_unheard {s : TcpSock} {th : Tcphdr} {skb : Skb} (hs : s.state = .established ∨ s.state = .closeWait)
    (hv : s.core.rcv.verify th skb = false) : (segmentArrives s th skb).core = s.core := by
  have hv : tcpVerifySegment s th skb = false := hv
  have hrun : segmentArrives s th skb = if !th.rst then tcpSendAck s else s := by
    rcases hs with hs | hs <;> simp only [segmentArrives, hs, tcpInputOtherwise, hv] <;> rfl
  rw [hrun]
  split
  · exact (quiet_tcpSendAck s).core
  · rfl

end LevelIp
