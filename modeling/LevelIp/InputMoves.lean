/-
Segment arrival as moves: the stages of `tcp_input_state`, `tcp_synsent` and
`tcp_closed`, each a chain of moves labelled with the segment.
-/
import LevelIp.Moves

namespace LevelIp

/-! ## The ACK field -/

/-- Two stages of a segment in a row. -/
theorem Ctl.andThen_moves {a : Act} {s : TcpSock} {k : Ctl} {f : TcpSock → Ctl} (h : SockMoves a s k.sock)
    (hf : ∀ t, k = .next t → SockMoves a t (f t).sock) : SockMoves a s (k.andThen f).sock := by
  cases k with
  | ret t => exact h
  | next t => exact h.trans (hf t rfl)

theorem tcpFastRetransmit_moves (c₀ : Core) (th : Tcphdr) (skb : Skb) (s : TcpSock) :
    SockMoves (.arrive c₀ th skb) s (tcpFastRetransmit s) := by
  obtain ⟨es, hf, hp⟩ := tcpFastRetransmit_logs s
  exact .of_move hf (by rw [tcpFastRetransmit_core]; exact .resend hp)

theorem quiet_recovery (s : TcpSock) : Quiet s
    (tcpRearmRtoTimer { s with cwnd := s.ssthresh + 3 * U16.wide s.smss, bytesAcked := 0, inRecovery := true }) :=
  (quiet_tcpRearmRtoTimer _).after rfl rfl

/-- `tcp_enter_fast_recovery` is `tcp_fast_retransmit` as far as the core goes. -/
theorem quiet_tcpEnterFastRecovery (s : TcpSock) : Quiet (tcpFastRetransmit
    { s with ssthresh := umax (s.inflight / 2) (2 * U16.wide s.smss) }) (tcpEnterFastRecovery s) :=
  quiet_recovery _

theorem tcpEnterFastRecovery_core (s : TcpSock) : (tcpEnterFastRecovery s).core = s.core :=
  (quiet_tcpEnterFastRecovery s).core.trans (tcpFastRetransmit_core _)

theorem tcpEnterFastRecovery_moves (c₀ : Core) (th : Tcphdr) (skb : Skb) (s : TcpSock) :
    SockMoves (.arrive c₀ th skb) s (tcpEnterFastRecovery s) := by
  refine .trans ?_ (.of_quiet (quiet_tcpEnterFastRecovery s))
  exact (tcpFastRetransmit_moves c₀ th skb _).after rfl rfl

theorem dupackAction_moves (c₀ : Core) (th : Tcphdr) (skb : Skb) (s : TcpSock) :
    SockMoves (.arrive c₀ th skb) s (dupackAction s).1 := by
  unfold dupackAction
  split
  · exact .refl s
  · split
    · exact tcpEnterFastRecovery_moves c₀ th skb s
    · exact .of_quiet (.of_eq rfl rfl)

theorem tcpSendNext_moves {c₀ : Core} {th : Tcphdr} {skb : Skb} (hh : c₀.Heard th skb) (s : TcpSock) (amount : Nat)
    (extra : U32) : SockMoves (.arrive c₀ th skb) s (tcpSendNext s amount extra) := by
  obtain ⟨es, d', hf, hc, hn⟩ := tcpSendNext_spec s amount extra
  exact .of_move hf (by rw [hc]; exact .sendNext hh hn)

theorem tcpHandleDupack_moves {c₀ : Core} {th : Tcphdr} {skb : Skb} (hh : c₀.Heard th skb) (s : TcpSock) :
    SockMoves (.arrive c₀ th skb) s (tcpHandleDupack s) := by
  have h : SockMoves (.arrive c₀ th skb) s (dupackAction { s with dupacks := s.dupacks + 1 }).1 :=
    (SockMoves.of_quiet (.of_eq rfl rfl)).trans (dupackAction_moves c₀ th skb _)
  unfold tcpHandleDupack
  dsimp only
  split
  · exact h.trans (tcpSendNext_moves hh _ _ _)
  · exact h

theorem newAck_moves {c₀ : Core} {th : Tcphdr} {s : TcpSock} {skb : Skb} (hh : c₀.Heard th skb)
    (hst : s.core.state.takesAck) (hs : s.core.snd = c₀.snd) (hn : ackIsNew s th) :
    SockMoves (.arrive c₀ th skb) s (newAck s th) := by
  obtain ⟨es, hf, hp⟩ := newAck_logs (P := s.core.Plain) trivial s th
  exact .of_move hf (by rw [newAck_core]; exact .ack hh hst hs hn hp)

/-- After a new ACK `snd_una` is the ACK number, so the test that guards
`update_snd_win` fails: the window is never updated. -/
theorem ackIsNew_newAck (s : TcpSock) (th : Tcphdr) : ackIsNew (newAck s th) th = false := by
  have h : (newAck s th).tcb.sndUna = th.ackSeq := congrArg (·.snd.una) (newAck_core s th)
  simp [ackIsNew, h]

theorem ackChecked_moves {a : Act} {s t : TcpSock} {th : Tcphdr} (h : SockMoves a s t)
    (hw : ackIsNew t th = false) : SockMoves a s (ackChecked t th).sock := by
  unfold ackChecked
  split
  · exact h
  · split
    · exact h
    · rw [hw]
      exact h.then_eq rfl rfl

/-- The socket the tests on the ACK number see. -/
theorem ackTaken_cases (s : TcpSock) (th : Tcphdr) :
    ackIsNew s th = true ∧ (if ackIsNew s th then newAck s th else s) = newAck s th ∨
    ackIsNew s th = false ∧ (if ackIsNew s th then newAck s th else s) = s := by
  cases ackIsNew s th
  · exact .inr ⟨rfl, rfl⟩
  · exact .inl ⟨rfl, rfl⟩

theorem ackSynchronized_moves {c₀ : Core} {s : TcpSock} {th : Tcphdr} {skb : Skb} (hh : c₀.Heard th skb)
    (hst : s.core.state.takesAck) (hs : s.core.snd = c₀.snd) : SockMoves (.arrive c₀ th skb) s (ackSynchronized s th skb).sock := by
  unfold ackSynchronized
  split
  · exact (tcpHandleDupack_moves hh s).then_eq rfl rfl
  · rcases ackTaken_cases s th with ⟨hn, he⟩ | ⟨hn, he⟩
    · rw [he]
      exact ackChecked_moves (newAck_moves hh hst hs hn) (ackIsNew_newAck s th)
    · rw [he]
      exact ackChecked_moves (.refl s) hn

theorem core_state (s : TcpSock) : s.core.state = s.state := rfl

/-! The ACK field leaves the receive side alone. -/

theorem dupackAction_core (s : TcpSock) : (dupackAction s).1.core = s.core := by
  unfold dupackAction
  split
  · rfl
  · split
    · exact tcpEnterFastRecovery_core s
    · rfl

theorem tcpSendNext_rcv (s : TcpSock) (amount : Nat) (extra : U32) : (tcpSendNext s amount extra).rcv = s.rcv := by
  obtain ⟨_, _, -, hc, -⟩ := tcpSendNext_spec s amount extra
  exact congrArg Core.rcv hc

theorem tcpHandleDupack_rcv (s : TcpSock) : (tcpHandleDupack s).rcv = s.rcv := by
  have h : (dupackAction { s with dupacks := s.dupacks + 1 }).1.rcv = s.rcv :=
    congrArg Core.rcv (dupackAction_core _)
  unfold tcpHandleDupack
  dsimp only
  split
  · rw [tcpSendNext_rcv, h]
  · exact h

theorem ackChecked_rcv (s : TcpSock) (th : Tcphdr) : (ackChecked s th).sock.rcv = s.rcv := by
  unfold ackChecked
  split
  · rfl
  · split
    · rfl
    · dsimp only
      split <;> rfl

theorem ackSynchronized_rcv (s : TcpSock) (th : Tcphdr) (skb : Skb) : (ackSynchronized s th skb).sock.rcv = s.rcv := by
  unfold ackSynchronized
  split
  · exact tcpHandleDupack_rcv s
  · rw [ackChecked_rcv]
    rcases ackTaken_cases s th with ⟨-, he⟩ | ⟨-, he⟩
    · rw [he]
      exact congrArg Core.rcv (newAck_core s th)
    · rw [he]

theorem ackChecked_next {s t : TcpSock} {th : Tcphdr} (h : ackChecked s th = .next t) :
    t.state = s.state ∧ s.tcb.sndUna ≤ th.ackSeq ∧ th.ackSeq ≤ s.tcb.sndNxt := by
  unfold ackChecked at h
  split at h
  · cases h
  next h1 =>
    split at h
    · cases h
    next h2 =>
      cases h
      refine ⟨?_, BitVec.not_lt.mp h1, BitVec.not_lt.mp h2⟩
      dsimp only
      split <;> rfl

/-- A segment that passes the ACK processing acknowledges something in `snd_una..snd_nxt`. -/
theorem ackSynchronized_next {s t : TcpSock} {th : Tcphdr} {skb : Skb} (h : ackSynchronized s th skb = .next t) :
    t.state = s.state ∧ s.tcb.sndUna ≤ th.ackSeq ∧ th.ackSeq ≤ s.tcb.sndNxt := by
  unfold ackSynchronized at h
  split at h
  · cases h
  · obtain ⟨hst, hb⟩ := ackChecked_next h
    rcases ackTaken_cases s th with ⟨hn, he⟩ | ⟨-, he⟩
    · have hn : s.tcb.sndUna < th.ackSeq ∧ th.ackSeq ≤ s.tcb.sndNxt := by simpa [ackIsNew] using hn
      rw [he] at hst
      exact ⟨hst.trans (congrArg Core.state (newAck_core s th)), BitVec.le_of_lt hn.1, hn.2⟩
    · rw [he] at hst hb
      exact ⟨hst, hb⟩

theorem ackField_next {s t : TcpSock} {th : Tcphdr} {skb : Skb} (h : ackField s th skb = .next t)
    (ht : t.core.state.takesText) : (s.core.state.takesText ∨ s.core.state = .synReceived) ∧
      s.core.snd.una ≤ th.ackSeq ∧ th.ackSeq ≤ s.core.snd.nxt := by
  unfold ackField at h
  split at h
  next hs =>
    split at h
    · dsimp only at h
      split at h
      · cases h
      · exact ⟨.inr hs, (ackSynchronized_next h).2⟩
    · cases h
  case h_8 hs | h_9 hs | h_10 hs | h_11 hs =>
    cases h
    simp [core_state, hs, TcpState.takesText] at ht
  all_goals
    obtain ⟨hst, hb⟩ := ackSynchronized_next h
    refine ⟨.inl ?_, hb⟩
    rwa [core_state, ← hst]

/-- SYN_RECEIVED is left or the segment is done with. -/
theorem ackField_synReceived {s t : TcpSock} {th : Tcphdr} {skb : Skb} (h : ackField s th skb = .next t) :
    t.state ≠ .synReceived := by
  unfold ackField at h
  split at h
  next =>
    split at h
    · dsimp only at h
      split at h
      · cases h
      · rw [(ackSynchronized_next h).1]
        exact nofun
    · cases h
  case h_8 hs | h_9 hs | h_10 hs | h_11 hs =>
    cases h
    simp [hs]
  all_goals
    next hs =>
    rw [(ackSynchronized_next h).1, hs]
    exact nofun

theorem ackField_moves {s : TcpSock} {th : Tcphdr} {skb : Skb} (hh : s.core.Heard th skb) :
    SockMoves (.arrive s.core th skb) s (ackField s th skb).sock := by
  unfold ackField
  split
  next hs =>
    split
    next hn =>
      dsimp only
      split
      next hp => exact .of_move (List.append_nil _).symm (.fault (c := s.core) hs hn hp)
      next p hp =>
        let t := ((s.setState .established).emit (.acceptQueue p)).wakeup .acceptWait
        have ht : t.core.state.takesAck := rfl
        have hest : SockMoves (.arrive s.core th skb) s t :=
          .of_move (List.append_assoc _ _ _) (.establish (c := s.core) hs hn hp)
        exact hest.trans (ackSynchronized_moves hh ht rfl)
    next => exact .refl s
  -- the other states either share the ACK processing or skip it
  all_goals first
    | exact ackSynchronized_moves hh (by simp only [TcpSock.core, TcpState.takesAck, *]) rfl
    | exact .refl s

theorem ackField_rcv (s : TcpSock) (th : Tcphdr) (skb : Skb) : (ackField s th skb).sock.rcv = s.rcv := by
  unfold ackField
  split
  · split
    · dsimp only
      split
      · rfl
      · exact ackSynchronized_rcv _ th skb
    · rfl
  · exact ackSynchronized_rcv s th skb
  · exact ackSynchronized_rcv s th skb
  · exact ackSynchronized_rcv s th skb
  · exact ackSynchronized_rcv s th skb
  · exact ackSynchronized_rcv s th skb
  · exact ackSynchronized_rcv s th skb
  · rfl
  · rfl
  · rfl
  · rfl

theorem queue_isEmpty (s : TcpSock) : s.core.snd.queue.isEmpty = s.writeQueue.isEmpty := List.isEmpty_map

theorem tcpDone_fx (s : TcpSock) : (tcpDone s).fx = s.fx ++ [.wakeup .sleep] := by
  have hfx : (tcpClearTimers (s.setState .closing)).fx = s.fx := by
    simp only [tcpClearTimers, tcpStopLinger, tcpStopDelackTimer, tcpStopRtoTimer, TcpSock.timerCancel]
    split <;> split <;> split <;> rfl
  exact congrArg (· ++ [Effect.wakeup .sleep]) hfx

theorem finAcked_moves {c₀ : Core} {s : TcpSock} {th : Tcphdr} {skb : Skb} (hh : c₀.Heard th skb)
    (hr : s.rcv = c₀.rcv) :
    SockMoves (.arrive c₀ th skb) s (finAcked s th).sock := by
  unfold finAcked
  split
  next hq =>
    have hq : s.core.snd.queue = [] := List.isEmpty_iff.mp ((queue_isEmpty s).trans hq)
    split
    next hs => exact .of_move (List.append_nil _).symm (.finWait2 (c := s.core) hh hs hq)
    next hs => exact .of_move (List.append_nil _).symm (.timeWait (c := s.core) hh hs hq)
    next hs => exact .of_move (tcpDone_fx s) (by rw [Ctl.sock, tcpDone_core]; exact .lastAck (c := s.core) hh hs hq)
    next hs =>
      dsimp only [Ctl.sock]
      split
      next hseq =>
        refine .trans ?_ (.of_quiet (quiet_tcpSendAck _))
        exact .of_move (List.append_nil _).symm (.finAgain (c := s.core) hs hr hseq)
      next => exact .refl s
    all_goals exact .refl s
  next => exact .refl s

theorem finAcked_rcv {s t : TcpSock} {th : Tcphdr} (h : finAcked s th = .next t) : t.rcv = s.rcv := by
  unfold finAcked at h
  split at h
  · split at h
    case h_4 =>
      cases h
      split
      · exact congrArg Core.rcv (quiet_tcpSendAck _).core
      · rfl
    all_goals cases h <;> rfl
  · cases h
    rfl

theorem finAcked_text {s t : TcpSock} {th : Tcphdr} (h : finAcked s th = .next t) (ht : t.core.state.takesText) :
    s.core.state.takesText := by
  unfold finAcked at h
  split at h
  · split at h
    case h_1 hs => simp [core_state, hs, TcpState.takesText]
    case h_2 => cases h; exact absurd ht (by simp [core_state, TcpSock.setState, TcpState.takesText])
    case h_3 => cases h
    case h_4 hs =>
      cases h
      split at ht
      · rw [(quiet_tcpSendAck _).core] at ht
        exact ht
      · exact ht
    all_goals cases h; exact ht
  · cases h
    exact ht

theorem finAcked_synReceived {s t : TcpSock} {th : Tcphdr} (h : finAcked s th = .next t)
    (hs : s.state ≠ .synReceived) : t.state ≠ .synReceived := by
  unfold finAcked at h
  split at h
  · split at h
    case h_1 | h_2 => cases h; exact nofun
    case h_3 => cases h
    case h_4 =>
      cases h
      split
      · rw [(quiet_tcpSendAck _).state]
        exact hs
      · exact hs
    all_goals cases h; exact hs
  · cases h
    exact hs

theorem tcpDataQueue_moves {c₀ : Core} {s : TcpSock} {th : Tcphdr} {skb : Skb} (hr : s.rcv = c₀.rcv)
    (hst : s.core.state.takesText) (ha : c₀.Accepts th skb) :
    SockMoves (.arrive c₀ th skb) s (tcpDataQueue s skb) := by
  unfold tcpDataQueue
  split
  next => exact .refl s
  next hw =>
    split
    next hseq => exact .of_move rfl (.inOrder (c := s.core) ha hst hr hw hseq)
    next hseq =>
      refine .trans (t := { s with ofoQueue := tcpDataInsertOrdered skb s.ofoQueue }) ?_ ?_
      · exact .of_move (List.append_nil _).symm (.outOfOrder (c := s.core) ha hst hr hw hseq)
      · refine .trans ?_ (.of_quiet (quiet_tcpSendAck _))
        dsimp only
        split
        · exact .of_quiet (quiet_tcpCalculateSacks _ _ _)
        · exact .refl _

theorem tcpDataQueue_state (s : TcpSock) (skb : Skb) : (tcpDataQueue s skb).state = s.state := by
  unfold tcpDataQueue
  split
  · rfl
  · split
    · rfl
    · dsimp only
      rw [(quiet_tcpSendAck _).state]
      split
      · exact (quiet_tcpCalculateSacks _ _ _).state
      · rfl

theorem segmentText_state (s : TcpSock) (th : Tcphdr) (skb : Skb) : (segmentText s th skb).state = s.state := by
  unfold segmentText
  split
  case h_4 => rfl
  all_goals
    split
    · exact tcpDataQueue_state s skb
    · rfl

theorem segmentText_moves {c₀ : Core} {s : TcpSock} {th : Tcphdr} {skb : Skb} (hr : s.rcv = c₀.rcv)
    (ha : s.core.state.takesText → th.psh ∨ skb.dlen > 0 → c₀.Accepts th skb) :
    SockMoves (.arrive c₀ th skb) s (segmentText s th skb) := by
  unfold segmentText
  split
  case h_4 => exact .refl s
  all_goals
    next hs =>
    split
    next hp =>
      have hst : s.core.state.takesText := by simp only [TcpSock.core, TcpState.takesText, hs]
      exact tcpDataQueue_moves hr hst (ha hst (by simpa using hp))
    next => exact .refl s

theorem finState_core (s : TcpSock) : (finState s).core = { s.core with state := s.core.finState } := by
  simp only [Core.finState, queue_isEmpty, core_state]
  unfold finState
  cases h : s.state
  case synReceived | established => exact setState_core s .closeWait
  case finWait1 =>
    dsimp only
    split
    · exact tcpEnterTimeWait_core s
    · exact setState_core s .closing
  case finWait2 => exact tcpEnterTimeWait_core s
  all_goals exact congrArg (fun st => { s.core with state := st }) h

theorem finState_fx (s : TcpSock) : (finState s).fx = s.fx := by
  unfold finState
  split
  · rfl
  · rfl
  · split
    · exact tcpEnterTimeWait_fx s
    · rfl
  · exact tcpEnterTimeWait_fx s
  · rfl

theorem finBit_moves {c₀ : Core} {s : TcpSock} {th : Tcphdr} {skb : Skb} {expected : Bool} (hh : c₀.Heard th skb)
    (hx : expected → skb.seq = c₀.rcv.nxt) (hs : s.state ≠ .synReceived) :
    SockMoves (.arrive c₀ th skb) s (finBit s th expected).sock := by
  unfold finBit
  split
  next hf =>
    rw [Bool.and_eq_true] at hf
    split
    · exact .refl s
    · exact .refl s
    · exact .refl s
    next h1 h2 h3 =>
      let s₁ : TcpSock := { s with
        tcb.rcvNxt := s.tcb.rcvNxt + 1, flagFin := true, pollEvents := s.pollEvents ||| pollInMask }
      let t := (tcpSendAck (s₁.emit .peerFin)).wakeup .recvWait
      have hq : Quiet (s₁.emit .peerFin) t := (quiet_tcpSendAck _).trans (quiet_wakeup _ _)
      obtain ⟨es, hfx, hp⟩ := hq.logs
      have hfx : (finState t).fx = s.fx ++ .peerFin :: es := by
        rw [finState_fx, hfx]
        exact List.append_assoc _ _ _
      refine .of_move hfx ?_
      show Move _ _ _ (finState t).core
      rw [finState_core, hq.core]
      exact .fin (c := s.core) hh hf.1 (hx hf.2) h1 h2 h3 hs hp
  next => exact .refl s

theorem ackData_moves {c₀ : Core} {th : Tcphdr} {skb : Skb} (hh : c₀.Heard th skb) (s : TcpSock) (expected : Bool) :
    SockMoves (.arrive c₀ th skb) s (ackData s th skb expected) := by
  unfold ackData
  split
  case h_4 => exact .refl s
  all_goals
    split
    case isFalse => exact .refl s
    have hstop : SockMoves (.arrive c₀ th skb) s (tcpStopDelackTimer s) := .of_quiet (quiet_tcpStopDelackTimer s)
    refine hstop.trans ?_
    generalize tcpStopDelackTimer s = t
    dsimp only
    split
    · exact (tcpSendNext_moves hh t _ _).trans (.of_quiet (quiet_tcpRearmRtoTimer _))
    · have hd : Quiet t (if !th.psh && skb.dlen > 1000 then { t with delacks := t.delacks + 1 } else t) :=
        .ite (.of_eq rfl rfl) (.refl t)
      generalize (if !th.psh && skb.dlen > 1000 then { t with delacks := t.delacks + 1 } else t) = u at hd
      refine .of_quiet (hd.trans ?_)
      split
      · exact (quiet_tcpSendAck _).after rfl rfl
      · split
        · exact .of_eq rfl rfl
        · exact .refl u

theorem afterAck_moves {c₀ : Core} {s : TcpSock} {th : Tcphdr} {skb : Skb} (hh : c₀.Heard th skb)
    (hr : s.rcv = c₀.rcv) (hs : s.state ≠ .synReceived)
    (ha : s.core.state.takesText → th.psh ∨ skb.dlen > 0 → c₀.Accepts th skb) :
    SockMoves (.arrive c₀ th skb) s (afterAck s th skb).sock := by
  refine Ctl.andThen_moves (finAcked_moves hh hr) fun t ht => ?_
  have hr' : t.rcv = c₀.rcv := (finAcked_rcv ht).trans hr
  have hx : decide (skb.seq = t.tcb.rcvNxt) = true → skb.seq = c₀.rcv.nxt := fun h => by
    rw [← hr']
    exact of_decide_eq_true h
  refine (segmentText_moves hr' fun hst => ha (finAcked_text ht hst)).trans ?_
  have hu : (segmentText t th skb).state ≠ .synReceived := by
    rw [segmentText_state]
    exact finAcked_synReceived ht hs
  exact Ctl.andThen_moves (finBit_moves hh hx hu) fun u _ => ackData_moves hh u _

/-- The "Otherwise" section is a chain of moves. -/
theorem tcpInputOtherwise_moves (s : TcpSock) (th : Tcphdr) (skb : Skb) :
    SockMoves (.arrive s.core th skb) s (tcpInputOtherwise s th skb) := by
  unfold tcpInputOtherwise
  split
  · split
    · exact .of_quiet (quiet_tcpSendAck s)
    · exact .refl s
  next hv =>
    split
    next hrst =>
      refine .of_move (congrArg (· ++ [Effect.wakeup .recvWait]) (tcpEnterTimeWait_fx s)) ?_
      have hc : ((tcpEnterTimeWait s).wakeup .recvWait).core = { s.core with state := .timeWait } :=
        tcpEnterTimeWait_core s
      have hv : tcpVerifySegment s th skb := by simpa using hv
      rw [hc]
      exact .rst hv hrst
    next hrst =>
      split
      · exact .refl s
      next hsyn =>
        split
        · exact .refl s
        next hack =>
          have hv : tcpVerifySegment s th skb := by simpa using hv
          have hh : s.core.Heard th skb := by
            have hv : s.core.rcv.verify th skb := hv
            simp only [Core.Heard, hv]
            simp_all
          refine Ctl.andThen_moves (ackField_moves hh) fun t ht =>
            afterAck_moves hh ?_ (ackField_synReceived ht) fun hst htext => ?_
          · have h := ackField_rcv s th skb
            rw [ht] at h
            exact h
          · obtain ⟨h1, h2, h3⟩ := ackField_next ht hst
            exact ⟨hv, by simpa using hrst, by simpa using hsyn, by simpa using hack, h1, h2, h3, htext⟩

/-! ### SYN_SENT and CLOSED -/

theorem tcpParseOpts_core (s : TcpSock) (th : Tcphdr) : (tcpParseOpts s th).core =
    { s.core with snd := { s.core.snd with scale := synScale s.core.snd.scale th } } := by
  unfold tcpParseOpts
  dsimp only
  split
  · rw [(quiet_tcpSackMarkWriteQueue _ _).core]
    rfl
  · rfl

theorem tcpParseOpts_fx (s : TcpSock) (th : Tcphdr) : (tcpParseOpts s th).fx = s.fx := by
  unfold tcpParseOpts
  dsimp only
  split <;> rfl

/-- The socket `tcp_synsent` acknowledges the SYN from. -/
def openedSock (s : TcpSock) (th : Tcphdr) : TcpSock :=
  { s.setState .established with
    tcb := { s.tcb with sndUna := s.tcb.sndNxt, sndWnd := U16.wide th.win, sndWl1 := th.seq, sndWl2 := th.ackSeq }
    backoff := 0
    rto := 1000 }

theorem quiet_openedSock (s : TcpSock) (th : Tcphdr) :
    Quiet (openedSock s th) (tcpRearmUserTimeout (tcpSendAck (openedSock s th))) :=
  (quiet_tcpSendAck _).trans (quiet_tcpRearmUserTimeout _)

theorem synsentEstablish_core (s : TcpSock) (th : Tcphdr) : (synsentEstablish s th).core =
    { s.core with state := .established, err := 0, sockState := .connected, snd := s.core.snd.opened th } := by
  let t := tcpParseOpts (tcpRearmUserTimeout (tcpSendAck (openedSock s th))) th
  have hc := tcpParseOpts_core (tcpRearmUserTimeout (tcpSendAck (openedSock s th))) th
  rw [(quiet_openedSock s th).core] at hc
  have hs : t.sndScale = synScale s.core.snd.scale th := congrArg (·.snd.scale) hc
  have hw : (synsentEstablish s th).core = { t.core with
      err := 0, sockState := .connected, snd := { t.core.snd with wnd := U16.wide th.win <<< t.sndScale.toNat } } := rfl
  rw [hw, hs, hc]
  rfl

theorem synsentEstablish_logs (s : TcpSock) (th : Tcphdr) : Logs s.core.Plain s (synsentEstablish s th) := by
  obtain ⟨es, hf, hp⟩ := (quiet_openedSock s th).logs
  have hfx : (synsentEstablish s th).fx =
      (tcpParseOpts (tcpRearmUserTimeout (tcpSendAck (openedSock s th))) th).fx ++ [.wakeup .sleep] := rfl
  refine ⟨es ++ [.wakeup .sleep], ?_, fun e he => ?_⟩
  · rw [hfx, tcpParseOpts_fx, hf, List.append_assoc]
    rfl
  · rcases List.mem_append.mp he with h | h
    · exact hp e h
    · rw [List.mem_singleton.mp h]
      trivial

theorem tcpSendSynack_core {s : TcpSock} (h : s.state = .synReceived) :
    (tcpSendSynack s).core = { s.core with snd := s.core.snd.synack } := by
  have hc := tcpQueueTransmitSkb_core s synAckSkb
  rw [tcpSendSynack, if_neg (by simp [h])]
  have : ∀ t : TcpSock, ({ t with tcb.sndNxt := t.tcb.sndNxt + 1 } : TcpSock).core =
      { t.core with snd := { t.core.snd with nxt := t.core.snd.nxt + 1 } } := fun _ => rfl
  refine (this (tcpQueueTransmitSkb s synAckSkb)).trans ?_
  rw [hc]
  rfl

theorem tcpSendSynack_fx {s : TcpSock} (h : s.state = .synReceived) : ∃ e,
    (tcpSendSynack s).fx = s.fx ++ [.queued (s.snd.number synAckSkb) (s.inflight + 0) s.cwnd, e] ∧
    s.rcv.Sends synAckSkb s.tcb.sndNxt e := by
  obtain ⟨e, hf, he⟩ := tcpQueueTransmitSkb_fx s synAckSkb
  refine ⟨e, ?_, he⟩
  rw [tcpSendSynack, if_neg (by simp [h])]
  exact hf

/-- The socket once a SYN has been taken in SYN_SENT. -/
def syncedSock (s : TcpSock) (th : Tcphdr) : TcpSock := { s with tcb.rcvNxt := th.seq + 1, tcb.irs := th.seq }

/-- The same, with its ACK field processed. -/
def synAckedSock (s : TcpSock) (th : Tcphdr) : TcpSock :=
  if th.ack then tcpCleanRtoQueue { syncedSock s th with tcb.sndUna := th.ackSeq } th.ackSeq else syncedSock s th

/-- What `tcp_synsent` does with a SYN it has taken. -/
def synTaken (t : TcpSock) (th : Tcphdr) : TcpSock :=
  if t.tcb.sndUna > t.tcb.iss then synsentEstablish t th
  else tcpSendSynack { t.setState .synReceived with tcb.sndUna := t.tcb.iss }

theorem tcpSynsent_eq (s : TcpSock) (th : Tcphdr) : tcpSynsent s th =
    if th.ack ∧ (th.ackSeq ≤ s.tcb.iss ∨ th.ackSeq > s.tcb.sndNxt) then s
    else if th.ack ∧ (th.ackSeq < s.tcb.sndUna ∨ th.ackSeq > s.tcb.sndNxt) then s
    else if th.rst then tcpReset s
    else if !th.syn then s
    else synTaken (synAckedSock s th) th := rfl

theorem synAckedSock_core (s : TcpSock) (th : Tcphdr) : (synAckedSock s th).core =
    { s.core with rcv := s.core.rcv.synced th, snd := s.core.snd.synAcked th } := by
  unfold synAckedSock SndSide.synAcked
  split
  · exact tcpCleanRtoQueue_core _ _
  · rfl

theorem synAckedSock_logs (s : TcpSock) (th : Tcphdr) :
    Logs (syncedSock s th).core.Plain s (synAckedSock s th) := by
  unfold synAckedSock
  split
  · exact tcpCleanRtoQueue_logs trivial { syncedSock s th with tcb.sndUna := th.ackSeq } th.ackSeq
  · exact .same rfl

theorem synAcked_nxt (d : SndSide) (th : Tcphdr) : (d.synAcked th).nxt = d.nxt := by
  unfold SndSide.synAcked
  split <;> rfl

theorem synAcked_iss (d : SndSide) (th : Tcphdr) : (d.synAcked th).iss = d.iss := by
  unfold SndSide.synAcked
  split <;> rfl

/-- **A segment in SYN_SENT** is discarded or makes one move, out of SYN_SENT. -/
theorem tcpSynsent_move {s : TcpSock} (hs : s.state = .synSent) (th : Tcphdr) (skb : Skb) : tcpSynsent s th = s ∨
    ∃ es, (tcpSynsent s th).fx = s.fx ++ es ∧ Move (.arrive s.core th skb) s.core es (tcpSynsent s th).core ∧
      (tcpSynsent s th).core.state ≠ .synSent := by
  rw [tcpSynsent_eq]
  split
  · exact .inl rfl
  next h1 =>
  split
  · exact .inl rfl
  next h2 =>
  split
  next hr =>
    refine .inr ⟨[.wakeup .sleep], ?_⟩
    unfold tcpReset
    simp only [hs]
    rw [tcpDone_core]
    exact ⟨tcpDone_fx _, .refused (c := s.core) hs hr, show TcpState.closing ≠ .synSent by decide⟩
  split
  · exact .inl rfl
  next hsyn =>
  have hsyn : th.syn := by simpa using hsyn
  have hok : th.ack → s.core.snd.synAckOk th := fun ha => by
    have g1 : ¬(th.ackSeq ≤ s.tcb.iss ∨ th.ackSeq > s.tcb.sndNxt) := fun h => h1 ⟨ha, h⟩
    have g2 : ¬(th.ackSeq < s.tcb.sndUna ∨ th.ackSeq > s.tcb.sndNxt) := fun h => h2 ⟨ha, h⟩
    refine ⟨?_, ?_, ?_⟩ <;> simp only [TcpSock.core, TcpSock.snd] <;> bv_omega
  have hc := synAckedSock_core s th
  have huna : (synAckedSock s th).tcb.sndUna = (s.core.snd.synAcked th).una := congrArg (·.snd.una) hc
  have hiss : (synAckedSock s th).tcb.iss = s.core.snd.iss :=
    (congrArg (·.snd.iss) hc).trans (synAcked_iss _ _)
  rw [synTaken, huna, hiss]
  split
  next hgt =>
    have hl := synsentEstablish_logs (synAckedSock s th) th
    rw [hc] at hl
    have hl : Logs (syncedSock s th).core.Plain (synAckedSock s th) (synsentEstablish (synAckedSock s th) th) := by
      refine hl.mono fun e he => ?_
      cases e with
      | xmit seg unread =>
        simp only [Core.Plain, synAcked_nxt] at he
        exact he
      | _ => exact he
    obtain ⟨es, hf, hp⟩ := (synAckedSock_logs s th).trans hl
    refine .inr ⟨es, hf, ?_⟩
    rw [synsentEstablish_core, hc]
    exact ⟨.connect (c := s.core) hs hsyn hok hgt hp, show TcpState.established ≠ .synSent by decide⟩
  next hle =>
    have ha : th.ack = false := by
      by_contra ha
      have ha : th.ack = true := by simpa using ha
      have := (hok ha).1
      simp only [SndSide.synAcked, ha, if_true, SndSide.acked, SndSide.clean] at hle
      exact hle this
    have hsock : synAckedSock s th = syncedSock s th := by simp [synAckedSock, ha]
    have hle : ¬s.core.snd.una > s.core.snd.iss := by simpa [SndSide.synAcked, ha] using hle
    rw [hsock]
    obtain ⟨e, hf, he⟩ := tcpSendSynack_fx
      (s := { (syncedSock s th).setState .synReceived with tcb.sndUna := s.core.snd.iss }) rfl
    refine .inr ⟨_, hf, ?_⟩
    rw [tcpSendSynack_core rfl]
    exact ⟨.simultaneous (c := s.core) hs hsyn ha hle he, show TcpState.synReceived ≠ .synSent by decide⟩

theorem tcpSynsent_moves {s : TcpSock} (hs : s.state = .synSent) (th : Tcphdr) (skb : Skb) :
    SockMoves (.arrive s.core th skb) s (tcpSynsent s th) := by
  rcases tcpSynsent_move hs th skb with h | ⟨es, hf, hm, -⟩
  · rw [h]
    exact .refl s
  · exact .of_move hf hm

theorem tcpClosed_moves {s : TcpSock} (h : s.state = .close) (th : Tcphdr) (skb : Skb) :
    SockMoves (.arrive s.core th skb) s (tcpClosed s th) := by
  unfold tcpClosed
  split
  · exact .refl s
  · obtain ⟨es, hf, hp⟩ := tcpSendReset_logs s
    exact .of_move hf (by rw [tcpSendReset_core]; exact .reset (c := s.core) h hp)

/-- **A segment that arrives makes a chain of moves.** -/
theorem segmentArrives_moves (s : TcpSock) (th : Tcphdr) (skb : Skb) :
    SockMoves (.arrive s.core th skb) s (segmentArrives s th skb) := by
  unfold segmentArrives
  split
  next h => exact tcpClosed_moves h th skb
  next => exact .refl s
  next h => exact tcpSynsent_moves h th skb
  next => exact tcpInputOtherwise_moves s th skb

end LevelIp
