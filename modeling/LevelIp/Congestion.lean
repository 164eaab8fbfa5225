/-
The congestion-control variables of a socket and the operations on them: what
each event of a connection does to `cwnd`, `ssthresh`, `bytes_acked`,
`inflight`, `dupacks` and `in_recovery`, as a list of operations in the order
the code performs them. Every other part of the code leaves them alone.
-/
import LevelIp.Arrival
import LevelIp.StepMoves

namespace LevelIp

/-- The variables of RFC 5681 as `struct tcp_sock` keeps them. -/
structure Cong where
  cwnd : U32
  ssthresh : U32
  bytesAcked : U32
  inflight : U32
  dupacks : U8
  inRecovery : Bool
  smss : U16
deriving DecidableEq

def TcpSock.cong (s : TcpSock) : Cong :=
  { cwnd := s.cwnd, ssthresh := s.ssthresh, bytesAcked := s.bytesAcked, inflight := s.inflight, dupacks := s.dupacks
    inRecovery := s.inRecovery, smss := s.smss }

/-- The operations: an skb of `n` bytes leaves the queue, a duplicate ACK, the
end of recovery, a retransmission timeout, `n` bytes queued and sent, `n` bytes
sent from the queue by `tcp_send_next`, a new path MTU. -/
inductive CongOp where
  | acked (n : U32)
  | dup
  | exit
  | timeout
  | queued (n : U32)
  | sent (n : U32)
  | pmtu (mss : U16)
deriving DecidableEq

namespace Cong

/-- `max(inflight / 2, 2 * smss)`. -/
def half (g : Cong) : U32 := umax (g.inflight / 2) (2 * U16.wide g.smss)

/-- `tcp_cong_avoid`. -/
def avoid (g : Cong) (n : U32) : Cong :=
  if n = 0 then g
  else if g.inRecovery then g
  else if g.cwnd < g.ssthresh then { g with cwnd := g.cwnd + umin n (U16.wide g.smss) }
  else if g.bytesAcked + n ≥ g.cwnd then
    { g with bytesAcked := g.bytesAcked + n - g.cwnd, cwnd := g.cwnd + U16.wide g.smss }
  else { g with bytesAcked := g.bytesAcked + n }

/-- FlightSize without `n` bytes. -/
def landed (g : Cong) (n : U32) : Cong := { g with inflight := if g.inflight ≥ n then g.inflight - n else 0 }

/-- `tcp_handle_dupack`, for the count it has reached. -/
def counted (g : Cong) : Cong :=
  if g.dupacks < 3 then g
  else if g.dupacks = 3 then
    { g with ssthresh := g.half, cwnd := g.half + 3 * U16.wide g.smss, bytesAcked := 0, inRecovery := true }
  else { g with cwnd := g.cwnd + U16.wide g.smss }

def apply (g : Cong) : CongOp → Cong
  | .acked n => (g.landed n).avoid n
  | .dup => { g with dupacks := g.dupacks + 1 }.counted
  | .exit => { g with cwnd := g.ssthresh, inRecovery := false, dupacks := 0, bytesAcked := 0 }
  | .timeout => { g with ssthresh := g.half, cwnd := U16.wide g.smss, bytesAcked := 0 }
  | .queued n | .sent n => { g with inflight := g.inflight + n }
  | .pmtu mss => if mss < g.smss then { g with smss := mss } else g

/-- The operations of a list, in order. -/
def applyAll (g : Cong) (ops : List CongOp) : Cong := Machine.run apply g ops

/-- Every operation meets `ok` where it happens. -/
abbrev Meets (ok : Cong → CongOp → Prop) (g : Cong) (ops : List CongOp) : Prop := Machine.Meets apply ok g ops

@[simp] theorem applyAll_nil (g : Cong) : g.applyAll [] = g := rfl

@[simp] theorem applyAll_cons (g : Cong) (op : CongOp) (ops : List CongOp) :
    g.applyAll (op :: ops) = (g.apply op).applyAll ops := rfl

theorem applyAll_append (g : Cong) (ops ops' : List CongOp) : g.applyAll (ops ++ ops') = (g.applyAll ops).applyAll ops' :=
  Machine.run_append g ops ops'

/-- What every operation keeps, a list of them keeps. -/
theorem applyAll_keeps {P : Cong → Prop} {ops : List CongOp} (hP : ∀ g, ∀ op ∈ ops, P g → P (g.apply op)) {g : Cong}
    (h : P g) : P (g.applyAll ops) :=
  Machine.invariant_of_forall hP (fun _ h => h) h

end Cong

/-! ## What leaves them alone -/

theorem timerCancel_cong (s : TcpSock) (t : Option Timer) : (s.timerCancel t).cong = s.cong := by
  cases t <;> rfl

theorem tcpStopRtoTimer_cong (s : TcpSock) : (tcpStopRtoTimer s).cong = s.cong := timerCancel_cong s s.retransmit

theorem tcpStopDelackTimer_cong (s : TcpSock) : (tcpStopDelackTimer s).cong = s.cong := timerCancel_cong s s.delack

theorem tcpStopLinger_cong (s : TcpSock) : (tcpStopLinger s).cong = s.cong := timerCancel_cong s s.linger

theorem tcpClearTimers_cong (s : TcpSock) : (tcpClearTimers s).cong = s.cong := by
  rw [tcpClearTimers, tcpStopLinger_cong, tcpStopDelackTimer_cong, tcpStopRtoTimer_cong]

theorem tcpDone_cong (s : TcpSock) : (tcpDone s).cong = s.cong := tcpClearTimers_cong (s.setState .closing)

theorem tcpEnterTimeWait_cong (s : TcpSock) : (tcpEnterTimeWait s).cong = s.cong := tcpClearTimers_cong (s.setState .timeWait)

theorem tcpRearmRtoTimer_cong (s : TcpSock) : (tcpRearmRtoTimer s).cong = s.cong := rfl

theorem tcpRearmUserTimeout_cong (s : TcpSock) : (tcpRearmUserTimeout s).cong = s.cong := by
  unfold tcpRearmUserTimeout
  split
  · rfl
  · exact timerCancel_cong s s.linger

theorem tcpTransmitSkb_cong (s : TcpSock) (skb : Skb) (seq : U32) : (tcpTransmitSkb s skb seq).cong = s.cong := by
  simp only [tcpTransmitSkb, tcpWriteOptionsClear]
  split
  · split <;> rfl
  · rfl

theorem tcpSendAck_cong (s : TcpSock) : (tcpSendAck s).cong = s.cong := by
  unfold tcpSendAck
  split
  · rfl
  · exact tcpTransmitSkb_cong _ _ _

theorem tcpSendReset_cong (s : TcpSock) : (tcpSendReset s).cong = s.cong := tcpTransmitSkb_cong _ _ _

theorem tcpAbort_cong (s : TcpSock) : (tcpAbort s).cong = s.cong := (tcpDone_cong _).trans (tcpSendReset_cong s)

theorem tcpRtt_cong (s : TcpSock) : (tcpRtt s).cong = s.cong := by
  unfold tcpRtt
  split
  · rfl
  · split
    · rfl
    · dsimp only
      split
      · rfl
      · split <;> rfl

theorem tcpCalculateSacks_cong (s : TcpSock) (seq endSeq : U32) : (tcpCalculateSacks s seq endSeq).cong = s.cong := by
  have hloop : ∀ (q : List Skb) (t : TcpSock) (sb : Nat), (tcpCalculateSacksLoop seq endSeq q t sb).cong = t.cong := by
    intro q
    induction q with
    | nil => exact fun _ _ => rfl
    | cons next rest ih =>
      intro t sb
      simp only [tcpCalculateSacksLoop]
      split
      · exact ih _ _
      · split
        · rfl
        · split
          · exact ih _ _
          · split <;> exact ih _ _
  exact hloop _ _ _

theorem tcpParseOpts_cong (s : TcpSock) (th : Tcphdr) : (tcpParseOpts s th).cong = s.cong := by
  simp only [tcpParseOpts]
  split <;> rfl

theorem tcpDataQueue_cong (s : TcpSock) (skb : Skb) : (tcpDataQueue s skb).cong = s.cong := by
  unfold tcpDataQueue
  split
  · rfl
  · split
    · rfl
    · dsimp only
      rw [tcpSendAck_cong]
      split
      · exact tcpCalculateSacks_cong _ _ _
      · rfl

theorem segmentText_cong (s : TcpSock) (th : Tcphdr) (skb : Skb) : (segmentText s th skb).cong = s.cong := by
  unfold segmentText
  split
  case h_4 => rfl
  all_goals
    split
    · exact tcpDataQueue_cong s skb
    · rfl

theorem finAcked_cong (s : TcpSock) (th : Tcphdr) : (finAcked s th).sock.cong = s.cong := by
  unfold finAcked
  split
  · split
    case h_3 => exact tcpDone_cong s
    case h_4 =>
      dsimp only [Ctl.sock]
      split
      · exact tcpSendAck_cong _
      · rfl
    all_goals rfl
  · rfl

theorem finState_cong (s : TcpSock) : (finState s).cong = s.cong := by
  unfold finState
  split
  · rfl
  · rfl
  · split
    · exact tcpEnterTimeWait_cong s
    · rfl
  · exact tcpEnterTimeWait_cong s
  · rfl

theorem finBit_cong (s : TcpSock) (th : Tcphdr) (expected : Bool) : (finBit s th expected).sock.cong = s.cong := by
  unfold finBit
  split
  · split
    case h_4 =>
      refine (finState_cong _).trans ?_
      exact tcpSendAck_cong _
    all_goals rfl
  · rfl

theorem tcpFastRetransmit_cong (s : TcpSock) : (tcpFastRetransmit s).cong = s.cong := by
  unfold tcpFastRetransmit
  split
  · rfl
  · exact tcpTransmitSkb_cong _ _ _

theorem tcpDataDequeue_cong (s : TcpSock) (n : Nat) : (tcpDataDequeue s n).1.cong = s.cong := by
  simp only [tcpDataDequeue]
  split <;> rfl

theorem tcpReceiveTurn_cong (s : TcpSock) (len : Nat) (got : List U8) : (tcpReceiveTurn s len got).1.cong = s.cong := by
  have hd := tcpDataDequeue_cong s (len - got.length)
  unfold tcpReceiveTurn
  generalize tcpDataDequeue s (len - got.length) = r at hd
  dsimp only
  split
  · exact (tcpRearmUserTimeout_cong _).trans hd
  · split
    · exact (tcpRearmUserTimeout_cong _).trans hd
    · split
      · split
        · exact hd
        · exact (tcpRearmUserTimeout_cong _).trans hd
      · exact hd

/-! ## Duplicate ACKs -/

/-- The limit `tcp_handle_dupack` gives `tcp_send_next`. -/
def dupackLimit (s : TcpSock) : U32 :=
  let n := s.dupacks + 1
  let cwnd :=
    if n < 3 then s.cwnd + n.setWidth 32 * U16.wide s.smss
    else if n = 3 then umax (s.inflight / 2) (2 * U16.wide s.smss) + 3 * U16.wide s.smss
    else s.cwnd + U16.wide s.smss
  umin cwnd s.tcb.sndWnd

theorem tcpTransmitSkb_frame (s : TcpSock) (skb : Skb) (seq : U32) :
    (tcpTransmitSkb s skb seq).writeQueue = s.writeQueue ∧ (tcpTransmitSkb s skb seq).smss = s.smss ∧
    (tcpTransmitSkb s skb seq).ssthresh = s.ssthresh := by
  simp only [tcpTransmitSkb, tcpWriteOptionsClear, TcpSock.emit]
  split
  · split <;> exact ⟨rfl, rfl, rfl⟩
  · exact ⟨rfl, rfl, rfl⟩

theorem tcpEnterFastRecovery_frame (s : TcpSock) :
    (tcpEnterFastRecovery s).writeQueue = s.writeQueue ∧
    (tcpEnterFastRecovery s).cwnd = umax (s.inflight / 2) (2 * U16.wide s.smss) + 3 * U16.wide s.smss := by
  have hf : ∀ t : TcpSock, (tcpFastRetransmit t).writeQueue = t.writeQueue ∧ (tcpFastRetransmit t).smss = t.smss ∧
      (tcpFastRetransmit t).ssthresh = t.ssthresh := by
    intro t
    unfold tcpFastRetransmit
    split
    · exact ⟨rfl, rfl, rfl⟩
    · exact tcpTransmitSkb_frame _ _ _
  obtain ⟨h1, h2, h3⟩ := hf { s with ssthresh := umax (s.inflight / 2) (2 * U16.wide s.smss) }
  refine ⟨h1, ?_⟩
  have hc : (tcpEnterFastRecovery s).cwnd = _ + 3 * U16.wide _ := rfl
  rw [hc, h2, h3]

/-- What `tcp_handle_dupack` hands to `tcp_send_next`. -/
theorem dupackAction_frame (s : TcpSock) :
    (dupackAction { s with dupacks := s.dupacks + 1 }).1.writeQueue = s.writeQueue ∧
    umin ((dupackAction { s with dupacks := s.dupacks + 1 }).1.cwnd +
        (dupackAction { s with dupacks := s.dupacks + 1 }).2) s.tcb.sndWnd = dupackLimit s := by
  unfold dupackAction dupackLimit
  dsimp only
  split
  next => exact ⟨rfl, rfl⟩
  next =>
    split
    next =>
      obtain ⟨hq, hc⟩ := tcpEnterFastRecovery_frame { s with dupacks := s.dupacks + 1 }
      exact ⟨hq, by simp only [hc, add_zero]⟩
    next => exact ⟨rfl, by simp only [add_zero]⟩

theorem tcpEnterFastRecovery_cong (s : TcpSock) : (tcpEnterFastRecovery s).cong =
    { s.cong with
      ssthresh := s.cong.half, cwnd := s.cong.half + 3 * U16.wide s.smss, bytesAcked := 0, inRecovery := true } := by
  have h := tcpFastRetransmit_cong { s with ssthresh := umax (s.inflight / 2) (2 * U16.wide s.smss) }
  unfold tcpEnterFastRecovery
  dsimp only
  generalize tcpFastRetransmit { s with ssthresh := umax (s.inflight / 2) (2 * U16.wide s.smss) } = t at h
  have hss : t.ssthresh = s.cong.half := congrArg Cong.ssthresh h
  have hfl : t.inflight = s.inflight := congrArg Cong.inflight h
  have hd : t.dupacks = s.dupacks := congrArg Cong.dupacks h
  have hm : t.smss = s.smss := congrArg Cong.smss h
  rw [tcpRearmRtoTimer_cong]
  simp only [TcpSock.cong, hss, hfl, hd, hm]

theorem dupackAction_cong (s : TcpSock) :
    (dupackAction { s with dupacks := s.dupacks + 1 }).1.cong = s.cong.apply .dup := by
  unfold dupackAction
  by_cases h1 : s.dupacks + 1 < 3
  · have hop : s.cong.apply .dup = { s.cong with dupacks := s.dupacks + 1 } := if_pos h1
    rw [if_pos h1, hop]
    rfl
  · rw [if_neg h1]
    by_cases h2 : s.dupacks + 1 = 3
    · have hop : s.cong.apply .dup = { s.cong with
          dupacks := s.dupacks + 1, ssthresh := s.cong.half, cwnd := s.cong.half + 3 * U16.wide s.smss, bytesAcked := 0
          inRecovery := true } := (if_neg h1).trans (if_pos h2)
      rw [if_pos h2, hop]
      exact tcpEnterFastRecovery_cong _
    · have hop : s.cong.apply .dup = { s.cong with dupacks := s.dupacks + 1, cwnd := s.cwnd + U16.wide s.smss } :=
        (if_neg h1).trans (if_neg h2)
      rw [if_neg h2, hop]
      rfl

/-- What `tcp_send_next` sends. -/
def sendNextOps (limit : U32) : Nat → List Skb → U32 → List CongOp
  | 0, _, _ => []
  | _ + 1, [], _ => []
  | amount + 1, k :: rest, fl =>
    if k.seq ≠ 0 then sendNextOps limit amount rest fl
    else if fl + k.dlen > limit then []
    else .sent k.dlen :: sendNextOps limit amount rest (fl + k.dlen)

theorem renumSock_cong (s : TcpSock) (k : Skb) : (renumSock s k).cong = s.cong.apply (.sent k.dlen) := by
  have h := tcpTransmitSkb_cong s k s.tcb.sndNxt
  simp only [TcpSock.cong, Cong.mk.injEq] at h
  obtain ⟨h1, h2, h3, h4, h5, h6, h7⟩ := h
  simp only [renumSock, TcpSock.cong, Cong.apply, Cong.mk.injEq, h4]
  exact ⟨h1, h2, h3, rfl, h5, h6, h7⟩

theorem tcpSendNextLoop_cong (limit : U32) (amount : Nat) (visited rest : List Skb) (s : TcpSock) :
    (tcpSendNextLoop limit amount visited rest s).cong = s.cong.applyAll (sendNextOps limit amount rest s.inflight) := by
  induction rest generalizing amount visited s with
  | nil => cases amount <;> rfl
  | cons k rest ih =>
    cases amount with
    | zero => rfl
    | succ amount =>
      by_cases h0 : k.seq = 0
      · rw [sendNextOps, if_neg (not_not.mpr h0)]
        by_cases hroom : s.inflight + k.dlen > limit
        · rw [if_pos hroom, tcpSendNextLoop, if_neg (not_not.mpr h0), if_pos hroom]
          rfl
        · have hi : (renumSock s k).inflight = s.inflight + k.dlen := congrArg Cong.inflight (renumSock_cong s k)
          rw [if_neg hroom, tcpSendNextLoop_turn h0 hroom, ih, renumSock_cong, hi]
          rfl
      · rw [sendNextOps, if_pos h0, tcpSendNextLoop, if_pos h0, ih]

/-- The operations of `tcp_send_next`. -/
def nextOps (s : TcpSock) : List CongOp :=
  sendNextOps (umin s.cwnd s.tcb.sndWnd) s.writeQueue.length s.writeQueue s.inflight

theorem tcpSendNext_cong (s : TcpSock) : (tcpSendNext s s.writeQueue.length 0).cong = s.cong.applyAll (nextOps s) := by
  rw [tcpSendNext, tcpSendNextLoop_cong, add_zero, nextOps]

/-- The operations of `tcp_handle_dupack`. -/
def dupackOps (s : TcpSock) : List CongOp :=
  .dup :: sendNextOps (dupackLimit s) s.writeQueue.length s.writeQueue s.inflight

theorem tcpHandleDupack_cong (s : TcpSock) : (tcpHandleDupack s).cong = s.cong.applyAll (dupackOps s) := by
  obtain ⟨hq, hlim⟩ := dupackAction_frame s
  have hc := dupackAction_cong s
  have hw : (dupackAction { s with dupacks := s.dupacks + 1 }).1.tcb.sndWnd = s.tcb.sndWnd :=
    congrArg (·.snd.wnd) (dupackAction_core _)
  have hi : (dupackAction { s with dupacks := s.dupacks + 1 }).1.inflight = s.inflight :=
    congrArg (·.snd.inflight) (dupackAction_core _)
  rw [dupackOps, Cong.applyAll_cons, ← hc]
  unfold tcpHandleDupack
  dsimp only
  generalize (dupackAction { s with dupacks := s.dupacks + 1 }).1 = t at *
  generalize (dupackAction { s with dupacks := s.dupacks + 1 }).2 = extra at *
  rw [hq]
  split
  next => rw [tcpSendNext, tcpSendNextLoop_cong, hw, hlim, hq, hi]
  next h =>
    have h : s.writeQueue = [] := List.length_eq_zero_iff.mp (Nat.eq_zero_of_not_pos h)
    rw [h]
    rfl

/-! ## New ACKs -/

/-- The operations of `tcp_clean_rto_queue`. -/
def cleanOps (a : U32) (q : List Skb) : List CongOp := (q.takeWhile (Skb.covered a)).map fun k => .acked k.dlen

theorem tcpCongAvoid_cong (s : TcpSock) (n : U32) : (tcpCongAvoid s n).cong = s.cong.avoid n := by
  unfold tcpCongAvoid Cong.avoid
  simp only [apply_ite TcpSock.cong]
  rfl

theorem tcpCleanOne_cong (s : TcpSock) (k : Skb) : (tcpCleanOne s k).cong = s.cong.apply (.acked k.dlen) :=
  tcpCongAvoid_cong _ _

theorem tcpCleanLoop_cong (a : U32) (q : List Skb) (s : TcpSock) :
    (tcpCleanLoop a q s).cong = s.cong.applyAll (cleanOps a q) := by
  induction q generalizing s with
  | nil => rfl
  | cons k q ih =>
    rw [tcpCleanLoop, cleanOps, List.takeWhile_cons]
    by_cases h : k.covered a
    · rw [if_pos (covered_iff.mp h), if_pos h, ih, tcpCleanOne_cong]
      rfl
    · rw [if_neg (fun h' => h (covered_iff.mpr h')), if_neg h]
      rfl

theorem tcpCleanRtoQueue_cong (s : TcpSock) (a : U32) :
    (tcpCleanRtoQueue s a).cong = s.cong.applyAll (cleanOps a s.writeQueue) := by
  unfold tcpCleanRtoQueue
  dsimp only
  split
  · exact (tcpStopRtoTimer_cong _).trans (tcpCleanLoop_cong a _ s)
  · exact tcpCleanLoop_cong a _ s

/-- The operations of a new ACK. -/
def newAckOps (s : TcpSock) (a : U32) : List CongOp := cleanOps a s.writeQueue ++ if s.inRecovery then [.exit] else []

theorem avoid_inRecovery (g : Cong) (n : U32) : (g.avoid n).inRecovery = g.inRecovery := by
  unfold Cong.avoid
  repeat' split
  all_goals rfl

theorem cleanOps_inRecovery (g : Cong) (a : U32) (q : List Skb) : (g.applyAll (cleanOps a q)).inRecovery = g.inRecovery := by
  refine Cong.applyAll_keeps (P := fun k => k.inRecovery = g.inRecovery) (fun k op hop hk => ?_) rfl
  obtain ⟨x, -, rfl⟩ := List.mem_map.mp hop
  exact (avoid_inRecovery _ _).trans hk

theorem newAck_cong (s : TcpSock) (th : Tcphdr) : (newAck s th).cong = s.cong.applyAll (newAckOps s th.ackSeq) := by
  have hr := tcpRtt_cong { s with tcb.sndUna := th.ackSeq }
  have hq : (tcpRtt { s with tcb.sndUna := th.ackSeq }).writeQueue = s.writeQueue := by
    unfold tcpRtt
    split
    · rfl
    · split
      · rfl
      · dsimp only
        split
        · rfl
        · split <;> rfl
  have hc := tcpCleanRtoQueue_cong (tcpRtt { s with tcb.sndUna := th.ackSeq }) th.ackSeq
  rw [hr, hq] at hc
  have hc : (tcpCleanRtoQueue (tcpRtt { s with tcb.sndUna := th.ackSeq }) th.ackSeq).cong =
      s.cong.applyAll (cleanOps th.ackSeq s.writeQueue) := hc
  have hrec : (tcpCleanRtoQueue (tcpRtt { s with tcb.sndUna := th.ackSeq }) th.ackSeq).inRecovery = s.inRecovery :=
    (congrArg Cong.inRecovery hc).trans (cleanOps_inRecovery _ _ _)
  rw [newAckOps, Cong.applyAll_append, ← hc]
  unfold newAck
  dsimp only
  rw [hrec]
  split
  · rfl
  · rfl

end LevelIp
