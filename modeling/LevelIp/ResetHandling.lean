/-
What an RST does in each state that has a connection. `tcp_synsent` resets the
connection also for an RST without an ACK, and leaves it in TCP_CLOSING until
the collector frees it; the other states answer an RST in the window like the
last FIN: TIME_WAIT, a new linger timer and no error.
-/
import LevelIp.EndOfStream
import LevelIp.Lib.Serial

namespace LevelIp

open Serial

/-- An RST the connection has to obey. -/
def TcpSock.acceptsReset (s : TcpSock) (th : Tcphdr) : Bool :=
  if s.state = .synSent then th.ack && s.tcb.iss < th.ackSeq && th.ackSeq ≤ s.tcb.sndNxt
  else inWindow s.tcb.rcvNxt s.tcb.rcvWnd th.seq

/-- The error an RST is reported as. -/
def TcpState.resetErr : TcpState → Int
  | .synSent => -ECONNREFUSED
  | .closeWait => -EPIPE
  | _ => -ECONNRESET

/-- `t` is closed by an RST that found `s`: CLOSED, with the error, without
timers, and whoever connects or reads is signalled. -/
structure TcpSock.Closed (s t : TcpSock) : Prop where
  state : t.state = .close
  err : t.err = s.state.resetErr
  timers : t.retransmit = none ∧ t.delack = none ∧ t.linger = none
  sleep : signals .sleep s.fx < signals .sleep t.fx
  recvWait : signals .recvWait s.fx < signals .recvWait t.fx

/-- The same for a reader who takes the scheduled collection of the socket for
CLOSED and counts only the caller of `connect`. -/
structure TcpSock.TornDown (s t : TcpSock) : Prop where
  sockState : t.sockState = .disconnecting
  err : t.err = s.state.resetErr
  timers : t.retransmit = none ∧ t.delack = none ∧ t.linger = none
  sleep : signals .sleep s.fx < signals .sleep t.fx

/-- State, queues, timers and error are the same. -/
structure TcpSock.Untouched (s t : TcpSock) : Prop where
  state : t.state = s.state
  receiveQueue : t.receiveQueue = s.receiveQueue
  writeQueue : t.writeQueue = s.writeQueue
  ofoQueue : t.ofoQueue = s.ofoQueue
  timing : t.timing = s.timing
  err : t.err = s.err

/-- An RST closes the connection, in the sense of `C`, if it is acceptable, and
else changes nothing. -/
def TcpSock.ObeysReset (C : TcpSock → TcpSock → Prop) (s : TcpSock) (th : Tcphdr) (skb : Skb) : Prop :=
  if s.acceptsReset th then C s (segmentArrives s th skb) else s.Untouched (segmentArrives s th skb)

/-- The RST is dropped: in SYN_SENT its ACK is not for our SYN, elsewhere the
sequence check refuses it. -/
def TcpSock.dropsReset (s : TcpSock) (th : Tcphdr) (skb : Skb) : Bool :=
  if s.state = .synSent then
    th.ack && (th.ackSeq ≤ s.tcb.iss || th.ackSeq > s.tcb.sndNxt || th.ackSeq < s.tcb.sndUna)
  else !tcpVerifySegment s th skb

variable {s : TcpSock} {th : Tcphdr} {skb : Skb}

theorem TcpSock.Untouched.refl (s : TcpSock) : s.Untouched s := ⟨rfl, rfl, rfl, rfl, rfl, rfl⟩

/-! ## The two paths -/

theorem reset_dropped (hn : s.state ≠ .close) (hr : th.rst) (hd : s.dropsReset th skb) : segmentArrives s th skb = s := by
  unfold TcpSock.dropsReset at hd
  by_cases hs : s.state = .synSent
  · rw [if_pos hs] at hd
    simp only [Bool.and_eq_true, Bool.or_eq_true, decide_eq_true_eq] at hd
    rw [segmentArrives, hs]
    show tcpSynsent s th = s
    rw [tcpSynsent_eq]
    rcases hd.2 with hbad | hlow
    · exact if_pos ⟨hd.1, hbad⟩
    · split
      · rfl
      · exact if_pos ⟨hd.1, .inl hlow⟩
  · rw [if_neg hs, Bool.not_eq_true'] at hd
    by_cases hl : s.state = .listen
    · rw [segmentArrives, hl]
    · rw [segmentArrives_late ⟨hn, hl, hs⟩, tcpInputOtherwise, hd, hr]
      rfl

/-- In SYN_SENT what is not dropped resets. -/
theorem reset_synSent (hs : s.state = .synSent) (hr : th.rst) (hd : s.dropsReset th skb = false) :
    segmentArrives s th skb = tcpDone { s with
      pollEvents := POLLOUT ||| POLLWRNORM ||| POLLERR ||| POLLHUP, err := -ECONNREFUSED } := by
  unfold TcpSock.dropsReset at hd
  rw [if_pos hs] at hd
  have hbad : ¬ (th.ack ∧ (th.ackSeq ≤ s.tcb.iss ∨ th.ackSeq > s.tcb.sndNxt)) := by
    rintro ⟨ha, h | h⟩ <;> simp [ha, h] at hd
  have hlow : ¬ (th.ack ∧ (th.ackSeq < s.tcb.sndUna ∨ th.ackSeq > s.tcb.sndNxt)) := by
    rintro ⟨ha, h | h⟩ <;> simp [ha, h] at hd
  rw [segmentArrives, hs]
  show tcpSynsent s th = _
  rw [tcpSynsent_eq, if_neg hbad, if_neg hlow, if_pos hr, tcpReset]
  simp only [hs]

theorem reset_late (hl : s.state.late) (hr : th.rst) (hd : s.dropsReset th skb = false) :
    segmentArrives s th skb = (tcpEnterTimeWait s).wakeup .recvWait := by
  unfold TcpSock.dropsReset at hd
  rw [if_neg hl.2.2, Bool.not_eq_false'] at hd
  rw [segmentArrives_late hl, tcpInputOtherwise, hd, hr]
  rfl

/-! ## When an RST is obeyed -/

theorem tcpEnterTimeWait_linger (s : TcpSock) : (tcpEnterTimeWait s).linger ≠ none := nofun

theorem clear_cleared (g : Timing) :
    g.clear.retransmit = none ∧ g.clear.delack = none ∧ g.clear.linger = none ∧ g.clear.nextTimer = g.nextTimer := by
  have hcancel (g : Timing) (t : Option Timer) : (g.cancel t).retransmit = g.retransmit ∧ (g.cancel t).delack = g.delack ∧
      (g.cancel t).nextTimer = g.nextTimer := by
    cases t <;> exact ⟨rfl, rfl, rfl⟩
  obtain ⟨hr, hd, hn⟩ := hcancel g.stopRto.stopDelack g.stopRto.stopDelack.linger
  exact ⟨hr.trans (hcancel g.stopRto g.stopRto.delack).1, hd, rfl,
    hn.trans ((hcancel g.stopRto g.stopRto.delack).2.2.trans (hcancel g g.retransmit).2.2)⟩

theorem tcpDone_tornDown {t : TcpSock} (hfx : t.fx = s.fx) (herr : t.err = s.state.resetErr) : s.TornDown (tcpDone t) where
  sockState := tcpDone_sockState t
  err := by
    rw [← herr]
    simp only [tcpDone, socketDelete, tcpFree, TcpSock.wakeup, TcpSock.emit, tcpClearTimers, tcpStopLinger, tcpStopDelackTimer,
      tcpStopRtoTimer, TcpSock.timerCancel]
    repeat' split
    all_goals rfl
  timers := by
    have h := tcpDone_timing t
    obtain ⟨hr, hd, hl, -⟩ := clear_cleared t.timing
    exact ⟨(congrArg Timing.retransmit h).trans hr, (congrArg Timing.delack h).trans hd, (congrArg Timing.linger h).trans hl⟩
  sleep := by
    rw [tcpDone_fx, signals_append, hfx]
    exact Nat.lt_add_one _

/-- **Reset handling.** An acceptable RST never leaves the connection CLOSED, with
its error, without timers and with its sleepers signalled, and an RST that is not
acceptable changes nothing exactly when it is dropped. If the scheduled collection
counts as CLOSED and the caller of `connect` as the only sleeper, then SYN_SENT
obeys an acceptable RST too. -/
theorem obeysReset_iff (hn : s.state ≠ .close ∧ s.state ≠ .listen) (hr : th.rst) :
    (s.ObeysReset TcpSock.Closed th skb ↔ s.acceptsReset th = false ∧ s.dropsReset th skb) ∧
    (s.ObeysReset TcpSock.TornDown th skb ↔ if s.acceptsReset th then s.state = .synSent ∧ s.dropsReset th skb = false
      else s.dropsReset th skb) := by
  unfold TcpSock.ObeysReset
  cases hd : s.dropsReset th skb with
  | true =>
    rw [reset_dropped hn.1 hr hd]
    cases ha : s.acceptsReset th with
    | true =>
      exact ⟨iff_of_false (fun h => Nat.lt_irrefl _ h.sleep) (fun h => nomatch h.1),
        iff_of_false (fun h => Nat.lt_irrefl _ h.sleep) (fun h => nomatch h.2)⟩
    | false => exact ⟨iff_of_true (.refl s) ⟨rfl, rfl⟩, iff_of_true (.refl s) rfl⟩
  | false =>
    by_cases hs : s.state = .synSent
    · rw [reset_synSent hs hr hd]
      cases ha : s.acceptsReset th with
      | true =>
        refine ⟨iff_of_false (fun h => ?_) (fun h => nomatch h.1), iff_of_true ?_ ⟨hs, rfl⟩⟩
        · exact nomatch (tcpDone_state _).symm.trans h.state
        · exact tcpDone_tornDown rfl (by rw [hs]; rfl)
      | false =>
        have hne : ∀ t, ¬ s.Untouched (tcpDone t) := fun t h => nomatch ((tcpDone_state t).symm.trans h.state).trans hs
        exact ⟨iff_of_false (hne _) (fun h => nomatch h.2), iff_of_false (hne _) nofun⟩
    · rw [reset_late ⟨hn.1, hn.2, hs⟩ hr hd]
      cases ha : s.acceptsReset th with
      | true =>
        exact ⟨iff_of_false (fun h => tcpEnterTimeWait_linger s h.timers.2.2) (fun h => nomatch h.1),
          iff_of_false (fun h => tcpEnterTimeWait_linger s h.timers.2.2) (fun h => hs h.1)⟩
      | false =>
        -- also in TIME_WAIT the linger timer is a new one
        have hnew : (tcpEnterTimeWait s).timing.nextTimer = s.nextTimer + 1 := by
          rw [tcpEnterTimeWait_timing]
          exact congrArg (· + 1) (clear_cleared s.timing).2.2.2
        have hne : ¬ s.Untouched ((tcpEnterTimeWait s).wakeup .recvWait) := fun h =>
          Nat.succ_ne_self _ (hnew.symm.trans (congrArg Timing.nextTimer h.timing))
        exact ⟨iff_of_false hne (fun h => nomatch h.2), iff_of_false hne nofun⟩

/-- An RST one past the window's right edge is not dropped, one beyond it is. -/
theorem obeysReset_beyond :
    let s := (clientConn.run [synAckEvent]).sk
    s.ObeysReset TcpSock.Closed { seq := 44979, ackSeq := 0, rst := true, win := 0 } (tcpAllocSkb 0 Payload.nil) :=
  (obeysReset_iff ⟨by decide +kernel, by decide +kernel⟩ rfl).1.mpr (by decide +kernel)

/-- A reset of an established connection leaves it in TIME_WAIT without an error,
and a blind one, without an ACK, refuses a connection in SYN_SENT. -/
theorem reset_unreported :
    let s := (clientConn.run [synAckEvent]).sk
    let rst : Tcphdr := { seq := 501, ackSeq := 0, rst := true, win := 0 }
    let t := segmentArrives s rst (tcpAllocSkb 0 Payload.nil)
    (s.acceptsReset rst ∧ t.state = .timeWait ∧ t.err = 0 ∧ t.linger ≠ none) ∧
      ¬ clientConn.sk.acceptsReset rst ∧ (segmentArrives clientConn.sk rst (tcpAllocSkb 0 Payload.nil)).err = -ECONNREFUSED ∧
      ¬ ∀ (s : TcpSock) (th : Tcphdr) (skb : Skb), s.state ≠ .close ∧ s.state ≠ .listen → th.rst →
        s.ObeysReset TcpSock.Closed th skb := by
  refine ⟨by decide +kernel, by decide +kernel, by decide +kernel, fun h => ?_⟩
  have hob := h (clientConn.run [synAckEvent]).sk { seq := 501, ackSeq := 0, rst := true, win := 0 } (tcpAllocSkb 0 Payload.nil)
    (by decide +kernel) rfl
  unfold TcpSock.ObeysReset at hob
  rw [if_pos (by decide +kernel)] at hob
  exact absurd hob.state (by decide +kernel)

end LevelIp
