/-
The four numbers that name a connection, and the accept queues it is put on. No
TCP function writes a socket's addresses or ports, and only the ACK that ends
SYN_RECEIVED puts it on a queue.
-/
import LevelIp.Sockets
import LevelIp.StateMachine

namespace LevelIp

/-- The addresses and ports of a socket, and the parents it has been handed to. -/
structure Ends where
  saddr : Addr
  daddr : Addr
  sport : U16
  dport : U16
  parents : List Nat

def TcpSock.ends (s : TcpSock) : Ends :=
  { saddr := s.saddr, daddr := s.daddr, sport := s.sport, dport := s.dport, parents := s.parents }

theorem emit_ends (s : TcpSock) {e : Effect} (h : e.parent? = none) : (s.emit e).ends = s.ends := by
  simp only [TcpSock.ends, TcpSock.parents, TcpSock.emit, List.filterMap_append, List.filterMap_cons, h, List.filterMap_nil, List.append_nil]

theorem ends_same {s t : TcpSock} (ha : t.saddr = s.saddr) (hb : t.daddr = s.daddr) (hp : t.sport = s.sport)
    (hq : t.dport = s.dport) (hf : t.fx = s.fx) : t.ends = s.ends := by
  rw [TcpSock.ends, ha, hb, hp, hq, TcpSock.parents, hf, TcpSock.ends, TcpSock.parents]

section

variable (s : TcpSock)

theorem wakeup_ends (w : Wait) : (s.wakeup w).ends = s.ends := emit_ends s rfl

/-! ## Timers and options -/

theorem timerCancel_ends (t : Option Timer) : (s.timerCancel t).ends = s.ends := by
  cases t <;> rfl

theorem tcpStopRtoTimer_ends : (tcpStopRtoTimer s).ends = s.ends := timerCancel_ends s s.retransmit

theorem tcpStopDelackTimer_ends : (tcpStopDelackTimer s).ends = s.ends := timerCancel_ends s s.delack

theorem tcpStopLinger_ends : (tcpStopLinger s).ends = s.ends := timerCancel_ends s s.linger

theorem tcpClearTimers_ends : (tcpClearTimers s).ends = s.ends :=
  (tcpStopLinger_ends _).trans ((tcpStopDelackTimer_ends _).trans (tcpStopRtoTimer_ends s))

theorem tcpRearmRtoTimer_ends : (tcpRearmRtoTimer s).ends = s.ends := rfl

theorem tcpRearmUserTimeout_ends : (tcpRearmUserTimeout s).ends = s.ends := by
  unfold tcpRearmUserTimeout
  split
  · rfl
  · exact timerCancel_ends s s.linger

theorem tcpEnterTimeWait_ends : (tcpEnterTimeWait s).ends = s.ends := tcpClearTimers_ends (s.setState .timeWait)

theorem tcpDone_ends : (tcpDone s).ends = s.ends :=
  (wakeup_ends { tcpClearTimers (s.setState .closing) with ofoQueue := [] } .sleep).trans (tcpClearTimers_ends (s.setState .closing))

theorem tcpRtt_ends : (tcpRtt s).ends = s.ends := by
  unfold tcpRtt
  split
  · rfl
  · split
    · rfl
    · dsimp only
      split
      · rfl
      · split <;> rfl

theorem tcpHandleFinState_ends : (tcpHandleFinState s).ends = s.ends := by
  unfold tcpHandleFinState
  split <;> rfl

theorem tcpWriteOptionsClear_ends : (tcpWriteOptionsClear s).ends = s.ends := by
  unfold tcpWriteOptionsClear
  split <;> rfl

theorem tcpParseOpts_ends (th : Tcphdr) : (tcpParseOpts s th).ends = s.ends := by
  unfold tcpParseOpts
  dsimp only
  split <;> rfl

theorem tcpCalculateSacks_ends (seq endSeq : U32) : (tcpCalculateSacks s seq endSeq).ends = s.ends := by
  have hloop : ∀ (q : List Skb) (t : TcpSock) (sb : Nat), (tcpCalculateSacksLoop seq endSeq q t sb).ends = t.ends := by
    intro q
    induction q with
    | nil => exact fun _ _ => rfl
    | cons next rest ih =>
      intro t sb
      simp only [tcpCalculateSacksLoop]
      split
      · exact ih _ _
      · split
        · rfl
        · split
          · exact ih _ _
          · split <;> exact ih _ _
  exact hloop _ _ _

/-! ## Output -/

theorem tcpTransmitSkb_ends (skb : Skb) (seq : U32) : (tcpTransmitSkb s skb seq).ends = s.ends := by
  refine (emit_ends _ rfl).trans ?_
  split
  · exact tcpWriteOptionsClear_ends s
  · rfl

theorem tcpQueueTransmitSkb_ends (skb : Skb) : (tcpQueueTransmitSkb s skb).ends = s.ends := by
  have hq : ∀ k, (queueNumbered s k).ends = s.ends := fun k => emit_ends { s with
    tcb.sndNxt := if k.fin then s.tcb.sndNxt + k.dlen + 1 else s.tcb.sndNxt + k.dlen
    inflight := s.inflight + k.dlen
    writeQueue := s.writeQueue ++ [k] } rfl
  unfold tcpQueueTransmitSkb
  dsimp only
  rw [tcpTransmitSkb_ends]
  split
  · exact hq _
  · exact hq _

theorem tcpSendSynack_ends : (tcpSendSynack s).ends = s.ends := by
  unfold tcpSendSynack
  split
  · rfl
  · exact tcpQueueTransmitSkb_ends s _

theorem tcpSendNext_ends (amount : Nat) (extra : U32) : (tcpSendNext s amount extra).ends = s.ends := by
  have hloop : ∀ (limit : U32) (rest : List Skb) (amount : Nat) (visited : List Skb) (s : TcpSock),
      (tcpSendNextLoop limit amount visited rest s).ends = s.ends := by
    intro limit rest
    induction rest with
    | nil => intro amount visited s; cases amount <;> rfl
    | cons k rest ih =>
      intro amount visited s
      cases amount with
      | zero => rfl
      | succ amount =>
        rw [tcpSendNextLoop]
        split
        · exact ih _ _ _
        · split
          · rfl
          · exact (ih _ _ _).trans (tcpTransmitSkb_ends s k s.tcb.sndNxt)
  exact hloop _ _ _ _ _

theorem tcpSendAck_ends : (tcpSendAck s).ends = s.ends := by
  unfold tcpSendAck
  split
  · rfl
  · exact tcpTransmitSkb_ends s _ _

theorem tcpSendDelack_ends : (tcpSendDelack s).ends = s.ends := tcpSendAck_ends _

theorem tcpConnect_ends (iss : U32) : (tcpConnect s iss).ends = s.ends := by
  unfold tcpConnect tcpSendSyn
  dsimp only
  split
  · rfl
  · exact tcpQueueTransmitSkb_ends _ _

theorem tcpSendReset_ends : (tcpSendReset s).ends = s.ends :=
  tcpTransmitSkb_ends { s with tcb.sndUna := s.tcb.sndNxt } _ _

theorem tcpFastRetransmit_ends : (tcpFastRetransmit s).ends = s.ends := by
  unfold tcpFastRetransmit
  split
  · rfl
  · exact tcpTransmitSkb_ends s _ _

theorem tcpAbort_ends : (tcpAbort s).ends = s.ends := (tcpDone_ends _).trans (tcpSendReset_ends s)

theorem tcpConnectRto_ends (n : Nat) : (tcpConnectRto s n).ends = s.ends := by
  unfold tcpConnectRto
  split
  · rfl
  · dsimp only
    split
    · split
      · exact (tcpDone_ends _).trans (ends_same rfl rfl rfl rfl rfl)
      · split
        · rfl
        next skb _ =>
          have hrearm : ∀ t : TcpSock, (tcpRearmRtoTimer { t with backoff := t.backoff + 1 }).ends = t.ends := fun _ => rfl
          exact (hrearm _).trans (tcpTransmitSkb_ends (tcpReleaseRtoTimer s) skb _)
    · rfl

theorem tcpRetransmissionTimeout_ends (n : Nat) : (tcpRetransmissionTimeout s n).ends = s.ends := by
  unfold tcpRetransmissionTimeout
  split
  · rfl
  · dsimp only
    split
    · split
      · exact wakeup_ends { tcpReleaseRtoTimer s with backoff := 0 } .sleep
      · rfl
    next skb _ =>
      let u : TcpSock := tcpSackClear { tcpReleaseRtoTimer s with
        ssthresh := umax ((tcpReleaseRtoTimer s).inflight / 2) (2 * U16.wide (tcpReleaseRtoTimer s).smss)
        cwnd := U16.wide (tcpReleaseRtoTimer s).smss
        bytesAcked := 0 }
      have hu : (tcpTransmitSkb u skb u.tcb.sndUna).ends = s.ends := tcpTransmitSkb_ends u skb _
      have hrearm : ∀ t : TcpSock, (tcpRearmRtoTimer { t with rto := t.rto * 2, backoff := t.backoff + 1 }).ends = t.ends :=
        fun _ => rfl
      split
      · exact (tcpDone_ends _).trans hu
      · split
        · exact (tcpHandleFinState_ends _).trans ((hrearm _).trans hu)
        · exact (hrearm _).trans hu

theorem runHandler_ends (h : Handler) : (runHandler s h).ends = s.ends := by
  cases h with
  | connectRto n => exact tcpConnectRto_ends s n
  | retransmissionTimeout n => exact tcpRetransmissionTimeout_ends s n
  | sendDelack => exact tcpSendDelack_ends s
  | linger => exact (tcpDone_ends _).trans (tcpStopLinger_ends s)
  | userTimeout => exact (tcpAbort_ends _).trans (tcpStopLinger_ends s)

/-! ## Input -/

theorem tcpCongAvoid_ends (acked : U32) : (tcpCongAvoid s acked).ends = s.ends := by
  unfold tcpCongAvoid
  split
  · rfl
  · split
    · rfl
    · split
      · rfl
      · dsimp only
        split <;> rfl

theorem tcpCleanRtoQueue_ends (una : U32) : (tcpCleanRtoQueue s una).ends = s.ends := by
  have hone : ∀ (s : TcpSock) (k : Skb), (tcpCleanOne s k).ends = s.ends := fun s k => by
    refine (tcpCongAvoid_ends _ _).trans ?_
    exact wakeup_ends s .writeWait
  have hloop : ∀ (q : List Skb) (s : TcpSock), (tcpCleanLoop una q s).ends = s.ends := by
    intro q
    induction q with
    | nil => exact fun _ => rfl
    | cons k q ih =>
      intro s
      rw [tcpCleanLoop]
      split
      · exact (ih _).trans (hone s k)
      · rfl
  unfold tcpCleanRtoQueue
  dsimp only
  split
  · exact (tcpStopRtoTimer_ends _).trans (hloop _ _)
  · exact hloop _ _

theorem dupackAction_ends : (dupackAction s).1.ends = s.ends := by
  unfold dupackAction
  split
  · rfl
  · split
    · have hrearm : ∀ t : TcpSock, (tcpRearmRtoTimer { t with
          cwnd := t.ssthresh + 3 * U16.wide t.smss, bytesAcked := 0, inRecovery := true }).ends = t.ends := fun _ => rfl
      exact (hrearm _).trans (tcpFastRetransmit_ends { s with ssthresh := umax (s.inflight / 2) (2 * U16.wide s.smss) })
    · rfl

theorem tcpHandleDupack_ends : (tcpHandleDupack s).ends = s.ends := by
  have h := dupackAction_ends { s with dupacks := s.dupacks + 1 }
  unfold tcpHandleDupack
  dsimp only
  generalize dupackAction { s with dupacks := s.dupacks + 1 } = r at h
  split
  · exact (tcpSendNext_ends _ _ _).trans h
  · exact h

theorem newAck_ends (th : Tcphdr) : (newAck s th).ends = s.ends := by
  have h : (tcpCleanRtoQueue (tcpRtt { s with tcb.sndUna := th.ackSeq }) th.ackSeq).ends = s.ends :=
    (tcpCleanRtoQueue_ends _ _).trans (tcpRtt_ends { s with tcb.sndUna := th.ackSeq })
  unfold newAck
  dsimp only
  split
  · exact h
  · exact h

theorem ackChecked_ends (th : Tcphdr) : (ackChecked s th).sock.ends = s.ends := by
  unfold ackChecked
  split
  · rfl
  · split
    · rfl
    · dsimp only [Ctl.sock]
      split <;> rfl

theorem ackSynchronized_ends (th : Tcphdr) (skb : Skb) : (ackSynchronized s th skb).sock.ends = s.ends := by
  unfold ackSynchronized
  split
  · exact tcpHandleDupack_ends s
  · refine (ackChecked_ends _ th).trans ?_
    split
    · exact newAck_ends s th
    · rfl

theorem finAcked_ends (th : Tcphdr) : (finAcked s th).sock.ends = s.ends := by
  unfold finAcked
  split
  · split
    case h_3 => exact tcpDone_ends s
    case h_4 =>
      dsimp only [Ctl.sock]
      split
      · exact tcpSendAck_ends _
      · rfl
    all_goals rfl
  · rfl

theorem tcpDataQueue_ends (skb : Skb) : (tcpDataQueue s skb).ends = s.ends := by
  unfold tcpDataQueue
  split
  · rfl
  · split
    · exact wakeup_ends _ .recvWait
    · dsimp only
      rw [tcpSendAck_ends]
      split
      · exact tcpCalculateSacks_ends _ _ _
      · rfl

theorem segmentText_ends (th : Tcphdr) (skb : Skb) : (segmentText s th skb).ends = s.ends := by
  unfold segmentText
  split
  case h_4 => rfl
  all_goals
    split
    · exact tcpDataQueue_ends s skb
    · rfl

theorem finState_ends : (finState s).ends = s.ends := by
  unfold finState
  split
  case h_3 =>
    split
    · exact tcpEnterTimeWait_ends s
    · rfl
  case h_4 => exact tcpEnterTimeWait_ends s
  all_goals rfl

theorem finBit_ends (th : Tcphdr) (expected : Bool) : (finBit s th expected).sock.ends = s.ends := by
  unfold finBit
  split
  · split
    case h_4 =>
      let u : TcpSock := { s with
        tcb.rcvNxt := s.tcb.rcvNxt + 1, flagFin := true, pollEvents := s.pollEvents ||| pollInMask }
      have hu : (u.emit .peerFin).ends = s.ends := emit_ends u rfl
      exact (finState_ends _).trans ((wakeup_ends _ .recvWait).trans ((tcpSendAck_ends _).trans hu))
    all_goals rfl
  · rfl

theorem ackData_ends (th : Tcphdr) (skb : Skb) (expected : Bool) : (ackData s th skb expected).ends = s.ends := by
  have hstop := tcpStopDelackTimer_ends s
  unfold ackData
  generalize tcpStopDelackTimer s = t at hstop
  split
  case h_4 => rfl
  all_goals
    split
    case isFalse => rfl
    dsimp only
    split
    · exact (tcpRearmRtoTimer_ends _).trans ((tcpSendNext_ends t _ _).trans hstop)
    · have hu : (if !th.psh && skb.dlen > 1000 then { t with delacks := t.delacks + 1 } else t).ends = t.ends := by
        split <;> rfl
      generalize (if !th.psh && skb.dlen > 1000 then { t with delacks := t.delacks + 1 } else t) = u at hu
      split
      · exact (tcpSendAck_ends { u with delacks := 0 }).trans (hu.trans hstop)
      · split
        · exact hu.trans hstop
        · exact hu.trans hstop

theorem Ctl.andThen_ends {k : Ctl} {f : TcpSock → Ctl} (hf : ∀ t, (f t).sock.ends = t.ends) :
    (k.andThen f).sock.ends = k.sock.ends := by
  cases k with
  | ret t => rfl
  | next t => exact hf t

theorem afterAck_ends (th : Tcphdr) (skb : Skb) : (afterAck s th skb).sock.ends = s.ends := by
  unfold afterAck
  refine (Ctl.andThen_ends fun t => ?_).trans (finAcked_ends s th)
  dsimp only
  rw [Ctl.andThen_ends]
  · exact (finBit_ends _ th _).trans (segmentText_ends t th skb)
  · exact fun u => ackData_ends u th skb _

/-- The socket is handed to its parent. -/
def TcpSock.handed (s : TcpSock) (th : Tcphdr) : List Nat :=
  if s.state = .synReceived ∧ ackIsNew s th then s.ptsk.toList else []

theorem ackField_ends (th : Tcphdr) (skb : Skb) :
    (ackField s th skb).sock.ends = { s.ends with parents := s.ends.parents ++ s.handed th } := by
  have hsame : s.handed th = [] → { s.ends with parents := s.ends.parents ++ s.handed th } = s.ends := fun h => by
    rw [h, List.append_nil]
  unfold ackField
  split
  next hs =>
    split
    next hn =>
      dsimp only
      split
      next hp =>
        have hp : s.ptsk = none := hp
        rw [hsame (by rw [TcpSock.handed, if_pos ⟨hs, hn⟩, hp]; rfl)]
        rfl
      next p hp =>
        have hp : s.ptsk = some p := hp
        rw [ackSynchronized_ends, wakeup_ends, TcpSock.handed, if_pos ⟨hs, hn⟩, hp]
        simp only [TcpSock.ends, TcpSock.parents, TcpSock.emit, TcpSock.setState, List.filterMap_append, List.filterMap_cons,
          List.filterMap_nil, Effect.parent?, Option.toList_some]
    next hn => exact (hsame (if_neg fun h => hn h.2)).symm
  all_goals
    rename_i hs
    rw [hsame (if_neg (by rw [hs]; simp))]
  case h_8 | h_9 | h_10 | h_11 => rfl
  all_goals exact ackSynchronized_ends s th skb

theorem tcpReset_ends : (tcpReset s).ends = s.ends := by
  unfold tcpReset
  dsimp only
  split
  case h_3 => exact ends_same rfl rfl rfl rfl rfl
  all_goals exact (tcpDone_ends _).trans (ends_same rfl rfl rfl rfl rfl)

theorem synsentEstablish_ends (th : Tcphdr) : (synsentEstablish s th).ends = s.ends := by
  have hend : ∀ t : TcpSock, (sockConnected (updateSndWin t th.win)).ends = t.ends := fun t =>
    (wakeup_ends _ .sleep).trans (ends_same rfl rfl rfl rfl rfl)
  refine (hend _).trans ((tcpParseOpts_ends _ th).trans ?_)
  refine (tcpRearmUserTimeout_ends _).trans ((tcpSendAck_ends _).trans ?_)
  exact ends_same rfl rfl rfl rfl rfl

theorem tcpSynsent_ends (th : Tcphdr) : (tcpSynsent s th).ends = s.ends := by
  unfold tcpSynsent
  split
  · rfl
  · split
    · rfl
    · split
      · exact tcpReset_ends s
      · split
        · rfl
        · dsimp only
          have ht : (if th.ack then tcpCleanRtoQueue { s with tcb := { s.tcb with rcvNxt := th.seq + 1, irs := th.seq, sndUna := th.ackSeq } }
              th.ackSeq else { s with tcb.rcvNxt := th.seq + 1, tcb.irs := th.seq }).ends = s.ends := by
            split
            · exact (tcpCleanRtoQueue_ends _ _).trans (ends_same rfl rfl rfl rfl rfl)
            · exact ends_same rfl rfl rfl rfl rfl
          generalize (if th.ack then tcpCleanRtoQueue { s with tcb := { s.tcb with rcvNxt := th.seq + 1, irs := th.seq, sndUna := th.ackSeq } }
            th.ackSeq else { s with tcb.rcvNxt := th.seq + 1, tcb.irs := th.seq }) = t at ht
          split
          · exact (synsentEstablish_ends t th).trans ht
          · refine (tcpSendSynack_ends _).trans (Eq.trans ?_ ht)
            exact ends_same rfl rfl rfl rfl rfl

/-- The segment is the ACK that ends SYN_RECEIVED. -/
def TcpSock.shakes (s : TcpSock) (th : Tcphdr) (skb : Skb) : Bool :=
  s.state = .synReceived && s.core.Heard th skb && ackIsNew s th

theorem tcpInputOtherwise_ends (th : Tcphdr) (skb : Skb) : (tcpInputOtherwise s th skb).ends =
    { s.ends with parents := s.ends.parents ++ if s.shakes th skb then s.ptsk.toList else [] } := by
  have hv : s.core.rcv.verify th skb = tcpVerifySegment s th skb := rfl
  have hsame : s.shakes th skb = false → { s.ends with
      parents := s.ends.parents ++ if s.shakes th skb then s.ptsk.toList else [] } = s.ends := fun h => by
    rw [h, if_neg nofun, List.append_nil]
  unfold TcpSock.shakes Core.Heard at hsame ⊢
  unfold tcpInputOtherwise
  rw [hv] at hsame ⊢
  split
  next hn =>
    simp only [Bool.not_eq_true'] at hn
    rw [hsame (by simp [hn])]
    split
    · exact tcpSendAck_ends s
    · rfl
  next hn =>
    simp only [Bool.not_eq_true', Bool.not_eq_false] at hn
    split
    next hr =>
      rw [hsame (by simp [hr])]
      exact (wakeup_ends _ .recvWait).trans (tcpEnterTimeWait_ends s)
    next hr =>
      split
      next hy => rw [hsame (by simp [hy])]
      next hy =>
        split
        next ha =>
          simp only [Bool.not_eq_true'] at ha
          rw [hsame (by simp [ha])]
        next ha =>
          simp only [Bool.not_eq_true', Bool.not_eq_false] at ha
          rw [Ctl.andThen_ends fun t => afterAck_ends t th skb, ackField_ends]
          simp only [hn, hr, hy, ha, TcpSock.handed, Bool.not_false, Bool.and_true, Bool.and_eq_true, decide_eq_true_eq]

theorem tcpClosed_ends (th : Tcphdr) : (tcpClosed s th).ends = s.ends := by
  unfold tcpClosed
  split
  · rfl
  · exact tcpSendReset_ends s

/-- What a segment does to the ends. -/
theorem segmentArrives_ends (th : Tcphdr) (skb : Skb) : (segmentArrives s th skb).ends =
    { s.ends with parents := s.ends.parents ++ if s.shakes th skb then s.ptsk.toList else [] } := by
  have hsame : s.state ≠ .synReceived → { s.ends with
      parents := s.ends.parents ++ if s.shakes th skb then s.ptsk.toList else [] } = s.ends := fun h => by
    rw [TcpSock.shakes, decide_eq_false h, Bool.false_and, Bool.false_and, if_neg nofun, List.append_nil]
  unfold segmentArrives
  split
  next hs =>
    rw [hsame (by rw [hs]; nofun)]
    exact tcpClosed_ends s th
  next hs => rw [hsame (by rw [hs]; nofun)]
  next hs =>
    rw [hsame (by rw [hs]; nofun)]
    exact tcpSynsent_ends s th
  next => exact tcpInputOtherwise_ends s th skb

/-! ## The calls -/

theorem tcpSendLoop_ends (mss : U16) (len fuel : Nat) (buf : List U8) : (tcpSendLoop mss len fuel s buf).1.ends = s.ends := by
  induction fuel generalizing s buf with
  | zero =>
    cases buf with
    | nil => exact tcpRearmUserTimeout_ends s
    | cons b buf => rfl
  | succ fuel ih =>
    cases buf with
    | nil => exact tcpRearmUserTimeout_ends s
    | cons b buf =>
      rw [tcpSendLoop]
      split
      · rw [ih, tcpQueueTransmitSkb_ends]
      · rfl

theorem tcpWrite_ends (buf : List U8) : (tcpWrite s buf).1.ends = s.ends := by
  unfold tcpWrite
  split
  · exact tcpSendLoop_ends s _ _ _ _
  · rfl

theorem tcpQueueFin_ends (lastAck : Bool) : (tcpQueueFin s lastAck).1.ends = s.ends := by
  have hq := tcpQueueTransmitSkb_ends s finSkb
  unfold tcpQueueFin
  split
  · dsimp only
    generalize tcpQueueTransmitSkb s finSkb = t at hq
    split
    · exact hq
    · exact hq
  · rfl

theorem tcpClose_ends : (tcpClose s).1.ends = s.ends := by
  unfold tcpClose
  split
  case h_7 | h_8 | h_9 => exact tcpDone_ends s
  case h_10 => exact tcpQueueFin_ends (s.setState .finWait1) false
  case h_11 => exact tcpQueueFin_ends s true
  all_goals exact ends_same rfl rfl rfl rfl rfl

theorem tcpReceiveTurn_ends (len : Nat) (got : List U8) : (tcpReceiveTurn s len got).1.ends = s.ends := by
  have hd : (tcpDataDequeue s (len - got.length)).1.ends = s.ends := by
    unfold tcpDataDequeue
    dsimp only
    split <;> rfl
  unfold tcpReceiveTurn
  generalize tcpDataDequeue s (len - got.length) = r at hd
  dsimp only
  split
  · exact (tcpRearmUserTimeout_ends _).trans hd
  · split
    · exact (tcpRearmUserTimeout_ends _).trans hd
    · split
      · split
        · exact hd
        · exact (tcpRearmUserTimeout_ends _).trans hd
      · exact hd

theorem tcpRead_ends (len : Nat) : (tcpRead s len).1.ends = s.ends := by
  have hr : (tcpReceive s len).1.ends = s.ends := by
    unfold tcpReceive
    split
    · exact tcpReceiveTurn_ends s len []
    · exact tcpRearmUserTimeout_ends s
  unfold tcpRead
  split
  case h_8 =>
    split
    · rfl
    · exact hr
  case h_1 | h_9 | h_10 | h_11 => rfl
  all_goals exact hr

theorem resumeSend_ends (call : Call) : (resumeSend s call).1.ends = s.ends := by
  cases call with
  | send mss chunk rest len =>
    rw [resumeSend]
    split
    · rw [tcpSendLoop_ends, tcpQueueTransmitSkb_ends]
    · rfl
  | fin lastAck => exact tcpQueueFin_ends s lastAck
  | recv len got => rfl

end

/-! ## Lives -/

namespace Conn

/-- The parent an event hands the socket to. -/
def hands (c : Conn) : Event → List Nat
  | .segment th data psh => if !c.sk.fault && c.sk.shakes th (tcpInitSegment th data psh) then c.sk.ptsk.toList else []
  | _ => []

theorem settle_ends (c : Conn) (r : TcpSock × Outcome) : (c.settle r).sk.ends = r.1.ends := by
  rcases settle_sk c r with h | ⟨-, h⟩ <;> rw [h]
  rfl

theorem resume_ends (c : Conn) (i : Nat) : (c.resume i).sk.ends = c.sk.ends := by
  unfold resume
  split
  · rfl
  · rw [settleRead_sk]
    exact tcpReceiveTurn_ends _ _ _
  · exact (settle_ends _ _).trans (resumeSend_ends _ _)

/-- **An event leaves the ends alone**, but for the parent it may hand the
socket to. -/
theorem step_ends (c : Conn) (e : Event) : (c.step e).sk.ends = { c.sk.ends with parents := c.sk.ends.parents ++ c.hands e } := by
  have hsame : { c.sk.ends with parents := c.sk.ends.parents ++ [] } = c.sk.ends := by rw [List.append_nil]
  unfold step
  split
  next hf =>
    have hh : c.hands e = [] := by
      cases e with
      | segment th data psh => rw [hands, hf, Bool.not_true, Bool.false_and, if_neg nofun]
      | _ => rfl
    rw [hh, hsame]
  next hf =>
    cases e with
    | segment th data psh =>
      rw [Bool.not_eq_true] at hf
      rw [hands, hf, Bool.not_false, Bool.true_and]
      exact segmentArrives_ends c.sk th _
    | write buf =>
      refine Eq.trans ?_ hsame.symm
      exact (settle_ends _ _).trans (tcpWrite_ends c.sk buf)
    | read len =>
      refine Eq.trans ?_ hsame.symm
      rw [settleRead_sk]
      exact tcpRead_ends c.sk len
    | close =>
      refine Eq.trans ?_ hsame.symm
      exact (settle_ends _ _).trans (tcpClose_ends c.sk)
    | abort =>
      refine Eq.trans ?_ hsame.symm
      exact tcpAbort_ends c.sk
    | resume i =>
      refine Eq.trans ?_ hsame.symm
      exact resume_ends c i
    | dispatch i =>
      refine Eq.trans ?_ hsame.symm
      dsimp only [dispatch]
      split <;> rfl
    | handler i =>
      refine Eq.trans ?_ hsame.symm
      dsimp only [handle]
      split
      · rfl
      · exact runHandler_ends _ _
    | tick ms =>
      refine Eq.trans ?_ hsame.symm
      rfl
    | fcntl nonblock =>
      refine Eq.trans ?_ hsame.symm
      rfl
    | adjustPmtu6 mss =>
      refine Eq.trans ?_ hsame.symm
      dsimp only [adjustPmtu6]
      split <;> rfl

end Conn

end LevelIp
