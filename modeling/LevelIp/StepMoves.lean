/-
Timers and socket calls as moves, and with segment arrival the whole step
function: every event of a connection is a chain of moves of its act. Also
what the calls do to the bytes a reader has.
-/
import LevelIp.InputMoves

namespace LevelIp

/-! ## Timers -/

/-- An RTO handler of an epoch that is over does nothing. -/
def Handler.live (s : TcpSock) : Handler → Bool
  | .connectRto n | .retransmissionTimeout n => n = s.rtoEpoch
  | .sendDelack | .linger | .userTimeout => true

theorem tcpHandleFinState_moves {s : TcpSock} {k : Skb} (n : Nat) (hk : s.core.snd.queue.head? = some k)
    (hf : k.fin) : SockMoves (.fire (.retransmissionTimeout n) true) s (tcpHandleFinState s) := by
  unfold tcpHandleFinState
  split
  next h => exact .of_move (List.append_nil _).symm (.finSent (c := s.core) hk hf h)
  next h => exact .of_move (List.append_nil _).symm (.finResent (c := s.core) hk hf h)
  next => exact .refl s

theorem queue_head? {s : TcpSock} {k : Skb} (h : s.writeQueue.head? = some k) :
    s.core.snd.queue.head? = some k.plain := by
  simp [TcpSock.core, TcpSock.snd, h]

/-- The head of the queue goes out numbered `snd_una`. -/
theorem resendHead_moves {s : TcpSock} {k : Skb} {hd : Handler} {n : Nat}
    (hs : hd = .connectRto n ∧ s.state = .synSent ∨ hd = .retransmissionTimeout n) (h : s.writeQueue.head? = some k) :
    SockMoves (.fire hd true) s (tcpTransmitSkb s k s.tcb.sndUna) := by
  refine .of_move (tcpTransmitSkb_fx s k _) ?_
  rw [tcpTransmitSkb_core]
  exact .resendHead (c := s.core) hs (queue_head? h) (sends_plain.mpr (segOf_sends s k _))

theorem tcpConnectRto_moves (s : TcpSock) (n : Nat) :
    SockMoves (.fire (.connectRto n) (n = s.rtoEpoch)) s (tcpConnectRto s n) := by
  unfold tcpConnectRto
  split
  · exact .refl s
  next hn =>
    rw [decide_eq_true (not_not.mp hn)]
    dsimp only
    split
    next hs =>
      split
      · refine .of_move (tcpDone_fx _) ?_
        rw [tcpDone_core]
        exact .giveUp (c := s.core) (.inl ⟨rfl, hs⟩)
      · split
        · exact .of_quiet (.of_eq rfl rfl)
        next k hk =>
          have hr := (resendHead_moves (s := tcpReleaseRtoTimer s) (.inl ⟨rfl, hs⟩ : _ ∨ Handler.connectRto n = _) hk).after
            (s := s) rfl rfl
          generalize tcpTransmitSkb (tcpReleaseRtoTimer s) k (tcpReleaseRtoTimer s).tcb.sndUna = t at hr
          exact hr.trans (.of_quiet ((quiet_tcpRearmRtoTimer _).after rfl rfl))
    next => exact .of_quiet (.of_eq rfl rfl)

/-- The socket from which `tcp_retransmission_timeout` resends. -/
def rtoSock (s : TcpSock) : TcpSock :=
  tcpSackClear { tcpReleaseRtoTimer s with
    ssthresh := umax (s.inflight / 2) (2 * U16.wide s.smss), cwnd := U16.wide s.smss, bytesAcked := 0 }

theorem quiet_rtoSock (s : TcpSock) : Quiet s (rtoSock s) := (quiet_tcpSackClear _).after rfl rfl

/-- What `tcp_retransmission_timeout` does after the segment `k` went out. -/
def rtoTail (s : TcpSock) (k : Skb) : TcpSock :=
  if s.rto > 60000 then
    { tcpDone s with err := -ETIMEDOUT, pollEvents := (tcpDone s).pollEvents ||| POLLOUT ||| POLLERR ||| POLLHUP }
  else if k.fin then tcpHandleFinState (tcpRearmRtoTimer { s with rto := s.rto * 2, backoff := s.backoff + 1 })
  else tcpRearmRtoTimer { s with rto := s.rto * 2, backoff := s.backoff + 1 }

theorem rtoTail_moves {s : TcpSock} {k : Skb} (n : Nat) (hk : s.core.snd.queue.head? = some k.plain) :
    SockMoves (.fire (.retransmissionTimeout n) true) s (rtoTail s k) := by
  unfold rtoTail
  have hq : Quiet s (tcpRearmRtoTimer { s with rto := s.rto * 2, backoff := s.backoff + 1 }) :=
    (quiet_tcpRearmRtoTimer _).after rfl rfl
  split
  · have hc := tcpDone_core s
    have hf := tcpDone_fx s
    generalize tcpDone s = t at hc hf
    refine .of_move hf ?_
    have : ∀ u : TcpSock, ({ u with err := -ETIMEDOUT, pollEvents := u.pollEvents ||| POLLOUT ||| POLLERR ||| POLLHUP } :
        TcpSock).core = { u.core with err := -ETIMEDOUT } := fun _ => rfl
    rw [this, hc]
    exact .giveUp (.inr rfl)
  · split
    next hfin =>
      refine (SockMoves.of_quiet hq).trans (tcpHandleFinState_moves (k := k.plain) n ?_ hfin)
      rw [hq.core]
      exact hk
    next => exact .of_quiet hq

/-- What `tcp_retransmission_timeout` does when it finds nothing to resend. -/
def rtoIdle (s : TcpSock) : TcpSock :=
  let s := { tcpReleaseRtoTimer s with backoff := 0 }
  if s.state = .closeWait then s.wakeup .sleep else s

theorem quiet_rtoIdle (s : TcpSock) : Quiet s (rtoIdle s) :=
  .ite ((quiet_wakeup _ _).after rfl rfl) (.of_eq rfl rfl)

/-- The three ways `tcp_retransmission_timeout` goes. -/
theorem tcpRetransmissionTimeout_cases (s : TcpSock) (n : Nat) :
    (n ≠ s.rtoEpoch ∧ tcpRetransmissionTimeout s n = s) ∨
    (n = s.rtoEpoch ∧ s.writeQueue = [] ∧ tcpRetransmissionTimeout s n = rtoIdle s) ∨
    ∃ k, n = s.rtoEpoch ∧ s.writeQueue.head? = some k ∧
      tcpRetransmissionTimeout s n = rtoTail (tcpTransmitSkb (rtoSock s) k (rtoSock s).tcb.sndUna) k := by
  by_cases hn : n = s.rtoEpoch
  · refine .inr ?_
    unfold tcpRetransmissionTimeout
    rw [if_neg (not_not.mpr hn)]
    dsimp only
    split
    next hq => exact .inl ⟨hn, List.head?_eq_none_iff.mp hq, rfl⟩
    next k hk => exact .inr ⟨k, hn, hk, rfl⟩
  · exact .inl ⟨hn, if_pos hn⟩

theorem tcpRetransmissionTimeout_moves (s : TcpSock) (n : Nat) :
    SockMoves (.fire (.retransmissionTimeout n) (n = s.rtoEpoch)) s (tcpRetransmissionTimeout s n) := by
  rcases tcpRetransmissionTimeout_cases s n with ⟨-, h⟩ | ⟨-, -, h⟩ | ⟨k, hn, hk, h⟩
  · rw [h]
    exact .refl s
  · rw [h]
    exact .of_quiet (quiet_rtoIdle s)
  · rw [h, decide_eq_true hn]
    have hq : Quiet s (rtoSock s) := quiet_rtoSock s
    have hk : s.core.snd.queue.head? = some k.plain := queue_head? hk
    have hc : (tcpTransmitSkb (rtoSock s) k (rtoSock s).tcb.sndUna).core = s.core :=
      (tcpTransmitSkb_core _ _ _).trans hq.core
    have hm : SockMoves (.fire (.retransmissionTimeout n) true) s
        (tcpTransmitSkb (rtoSock s) k (rtoSock s).tcb.sndUna) := by
      refine (SockMoves.of_quiet hq).trans (.of_move (tcpTransmitSkb_fx _ _ _) ?_)
      rw [tcpTransmitSkb_core]
      exact .resendHead (.inr rfl) (hq.core ▸ hk) (sends_plain.mpr (segOf_sends _ k _))
    exact hm.trans (rtoTail_moves n (hc ▸ hk))

theorem runHandler_moves (s : TcpSock) (h : Handler) : SockMoves (.fire h (h.live s)) s (runHandler s h) := by
  cases h with
  | connectRto n => exact tcpConnectRto_moves s n
  | retransmissionTimeout n => exact tcpRetransmissionTimeout_moves s n
  | sendDelack => exact .of_quiet (quiet_tcpSendDelack s)
  | linger =>
    refine (SockMoves.of_quiet (quiet_tcpStopLinger s)).trans (.of_move (tcpDone_fx _) ?_)
    rw [runHandler, tcpLinger, tcpDone_core]
    exact .linger
  | userTimeout =>
    obtain ⟨es, hf, hp⟩ := tcpAbort_logs (tcpStopLinger s)
    refine (SockMoves.of_quiet (quiet_tcpStopLinger s)).trans (.of_move hf ?_)
    rw [runHandler, tcpUserTimeout, tcpAbort_core]
    exact .userTimeout hp

theorem tcpAbort_moves (s : TcpSock) : SockMoves .abort s (tcpAbort s) := by
  obtain ⟨es, hf, hp⟩ := tcpAbort_logs s
  exact .of_move hf (by rw [tcpAbort_core]; exact .abort hp)

/-! ## Socket calls -/

theorem queueData_moves {s : TcpSock} {chunk : Payload} (last : Bool) (hs : s.state ≠ .synSent)
    (h : sndWndOpen s chunk.len) : SockMoves .send s (tcpQueueTransmitSkb s (dataSkb chunk last)) := by
  obtain ⟨e, hf, he⟩ := tcpQueueTransmitSkb_fx s (dataSkb chunk last)
  refine .of_move hf ?_
  rw [tcpQueueTransmitSkb_core]
  exact .data (c := s.core) hs (of_decide_eq_true h) he

theorem tcpQueueTransmitSkb_state (s : TcpSock) (skb : Skb) : (tcpQueueTransmitSkb s skb).state = s.state :=
  congrArg Core.state (tcpQueueTransmitSkb_core s skb)

theorem tcpSendLoop_moves (mss : U16) (len fuel : Nat) {s : TcpSock} (hs : s.state ≠ .synSent) (buf : List U8) :
    SockMoves .send s (tcpSendLoop mss len fuel s buf).1 := by
  induction fuel generalizing s buf with
  | zero =>
    cases buf with
    | nil => exact .of_quiet (quiet_tcpRearmUserTimeout s)
    | cons b buf => exact .refl s
  | succ fuel ih =>
    cases buf with
    | nil => exact .of_quiet (quiet_tcpRearmUserTimeout s)
    | cons b buf =>
      rw [tcpSendLoop]
      split
      next h =>
        refine (queueData_moves _ hs h).trans (ih ?_ _)
        rw [tcpQueueTransmitSkb_state]
        exact hs
      next => exact .refl s

theorem tcpWriteAccepts_state {s : TcpSock} (h : tcpWriteAccepts s) : s.state = .established ∨ s.state = .closeWait := by
  simp only [tcpWriteAccepts, Bool.and_eq_true, Bool.or_eq_true, decide_eq_true_eq] at h
  exact h.2

theorem tcpWrite_moves (s : TcpSock) (buf : List U8) : SockMoves .send s (tcpWrite s buf).1 := by
  unfold tcpWrite
  split
  next h =>
    refine tcpSendLoop_moves _ _ _ (fun hs => ?_) _
    rcases tcpWriteAccepts_state h with h | h
    · rw [hs] at h; cases h
    · rw [hs] at h; cases h
  next => exact .refl s

theorem tcpQueueFin_moves {a : Act} {s : TcpSock} {lastAck : Bool} (ha : a.Fins s.core lastAck)
    (hs : s.state ≠ .synSent) : SockMoves a s (tcpQueueFin s lastAck).1 := by
  unfold tcpQueueFin
  split
  next h =>
    obtain ⟨e, hf, he⟩ := tcpQueueTransmitSkb_fx s finSkb
    have hw : s.inflight ≤ umin s.cwnd s.tcb.sndWnd := by simpa [sndWndOpen] using h
    have hfl : s.inflight + finSkb.dlen = s.core.snd.inflight := BitVec.add_zero s.inflight
    rw [hfl] at hf
    have hm := Move.queueFin (c := s.core) lastAck ha hs hw he
    refine ⟨[.queued (numbered s finSkb) s.core.snd.inflight s.cwnd, e], ?_, .single ?_⟩
    · cases lastAck <;> exact hf
    · have hc := tcpQueueTransmitSkb_core s finSkb
      cases lastAck with
      | false => exact hc ▸ hm
      | true =>
        dsimp only
        rw [if_pos rfl, setState_core, hc]
        exact hm
  next => exact .refl s

theorem tcpClose_moves (s : TcpSock) : SockMoves .close s (tcpClose s).1 := by
  unfold tcpClose
  split
  case h_1 | h_2 | h_3 | h_4 | h_5 | h_6 => exact .of_move (List.append_nil _).symm (.closeRefused (c := s.core))
  case h_7 | h_8 | h_9 =>
    refine .of_move (tcpDone_fx s) ?_
    rw [tcpDone_core]
    exact .closeDone (c := s.core) (by simp [core_state, *])
  case h_10 h =>
    refine .trans ?_ (tcpQueueFin_moves rfl (show TcpState.finWait1 ≠ .synSent from nofun))
    exact .of_move (List.append_nil _).symm (.closeStart (c := s.core) h)
  case h_11 h => exact tcpQueueFin_moves h (by rw [h]; exact nofun)

theorem tcpDataDequeue_core (s : TcpSock) (n : Nat) : (tcpDataDequeue s n).1.core =
    { s.core with rcv := s.core.rcv.dequeue n, flagPsh := s.flagPsh || (dequeueLoop n s.receiveQueue).2.2 } := by
  simp only [tcpDataDequeue]
  split <;> rfl

theorem tcpDataDequeue_fx (s : TcpSock) (n : Nat) : (tcpDataDequeue s n).1.fx = s.fx := by
  simp only [tcpDataDequeue]
  split <;> rfl

/-- A turn of `tcp_receive` dequeues and leaves PSH clear. -/
theorem tcpReceiveTurn_core (s : TcpSock) (len : Nat) (got : List U8) : (tcpReceiveTurn s len got).1.core =
    { s.core with rcv := s.core.rcv.dequeue (len - got.length), flagPsh := false } := by
  have hc := tcpDataDequeue_core s (len - got.length)
  unfold tcpReceiveTurn
  generalize tcpDataDequeue s (len - got.length) = r at hc
  obtain ⟨t, copied⟩ := r
  dsimp only at hc ⊢
  have hclear : ({ t with flagPsh := false } : TcpSock).core = { t.core with flagPsh := false } := rfl
  split
  · rw [(quiet_tcpRearmUserTimeout _).core, hclear, hc]
  next hp =>
    have hc' : t.core = { s.core with rcv := s.core.rcv.dequeue (len - got.length), flagPsh := false } := by
      have hp : (s.flagPsh || (dequeueLoop (len - got.length) s.receiveQueue).2.2) = false := by
        rw [show t.flagPsh = _ from congrArg Core.flagPsh hc] at hp
        simpa using hp
      rw [hc, hp]
    split
    · rw [(quiet_tcpRearmUserTimeout _).core, hc']
    · split
      · split
        · exact hc'
        · rw [(quiet_tcpRearmUserTimeout _).core, hc']
      · exact hc'

theorem tcpReceiveTurn_fx (s : TcpSock) (len : Nat) (got : List U8) : (tcpReceiveTurn s len got).1.fx = s.fx := by
  have hf := tcpDataDequeue_fx s (len - got.length)
  unfold tcpReceiveTurn
  generalize tcpDataDequeue s (len - got.length) = r at hf
  obtain ⟨t, copied⟩ := r
  have hu : ∀ u : TcpSock, (tcpRearmUserTimeout u).fx = u.fx := fun u => by
    unfold tcpRearmUserTimeout TcpSock.timerCancel
    split
    · rfl
    · split <;> rfl
  dsimp only at hf ⊢
  split
  · rw [hu]; exact hf
  · split
    · rw [hu]; exact hf
    · split
      · split
        · exact hf
        · rw [hu]; exact hf
      · exact hf

theorem tcpReceiveTurn_moves (s : TcpSock) (len : Nat) (got : List U8) :
    SockMoves .read s (tcpReceiveTurn s len got).1 := by
  refine .of_move ((tcpReceiveTurn_fx s len got).trans (List.append_nil _).symm) ?_
  rw [tcpReceiveTurn_core]
  exact .dequeue _

theorem tcpReceiveTurn_sleep {s : TcpSock} {len : Nat} {got : List U8} {call : Call}
    (h : (tcpReceiveTurn s len got).2.1 = .sleep call) : ∃ len got, call = .recv len got := by
  unfold tcpReceiveTurn at h
  dsimp only at h
  split at h
  · cases h
  · split at h
    · cases h
    · split at h
      · split at h <;> cases h
      · cases h
        exact ⟨_, _, rfl⟩

theorem tcpRead_sleep {s : TcpSock} {len : Nat} {call : Call} (h : (tcpRead s len).2.1 = .sleep call) :
    ∃ len got, call = .recv len got := by
  have turn : (tcpReceive s len).2.1 = .sleep call → ∃ len got, call = .recv len got := fun h => by
    unfold tcpReceive at h
    split at h
    · exact tcpReceiveTurn_sleep h
    · cases h
  unfold tcpRead at h
  split at h
  case h_1 | h_9 | h_10 | h_11 => cases h
  case h_8 =>
    split at h
    · cases h
    · exact turn h
  all_goals exact turn h

theorem tcpReceive_moves (s : TcpSock) (len : Nat) : SockMoves .read s (tcpReceive s len).1 := by
  unfold tcpReceive
  split
  · exact tcpReceiveTurn_moves s len []
  · exact .of_quiet (quiet_tcpRearmUserTimeout s)

theorem tcpRead_moves (s : TcpSock) (len : Nat) : SockMoves .read s (tcpRead s len).1 := by
  unfold tcpRead
  split
  case h_1 | h_9 | h_10 | h_11 => exact .refl s
  case h_8 h =>
    split
    next he =>
      rw [Bool.and_eq_true, List.isEmpty_iff] at he
      exact .of_move (List.append_nil _).symm (.eof (c := s.core) h he.1 he.2)
    next => exact tcpReceive_moves s len
  all_goals exact tcpReceive_moves s len

theorem dequeueLoop_zero (q : List Skb) : dequeueLoop 0 q = ([], q, false) := by
  cases q <;> rfl

theorem RcvSide.dequeue_zero (r : RcvSide) : r.dequeue 0 = r := by
  simp [RcvSide.dequeue, dequeueLoop_zero]

theorem tcpReceiveTurn_copied (s : TcpSock) (len : Nat) (got : List U8) :
    (tcpReceiveTurn s len got).2.2 = (dequeueLoop (len - got.length) s.receiveQueue).1 := by
  have hc : (tcpDataDequeue s (len - got.length)).2 = (dequeueLoop (len - got.length) s.receiveQueue).1 := rfl
  unfold tcpReceiveTurn
  generalize tcpDataDequeue s (len - got.length) = r at hc
  obtain ⟨t, copied⟩ := r
  dsimp only at hc ⊢
  split
  · exact hc
  · split
    · exact hc
    · split
      · split <;> exact hc
      · exact hc

/-- What `tcp_read` copies out and leaves. -/
theorem tcpRead_copied (s : TcpSock) (len : Nat) : ∃ n, (tcpRead s len).2.2 = (dequeueLoop n s.receiveQueue).1 ∧
    (tcpRead s len).1.rcv = s.rcv.dequeue n := by
  have none : ∃ n, ([] : List U8) = (dequeueLoop n s.receiveQueue).1 ∧ s.rcv = s.rcv.dequeue n :=
    ⟨0, by rw [dequeueLoop_zero], (RcvSide.dequeue_zero _).symm⟩
  have turn : ∃ n, (tcpReceive s len).2.2 = (dequeueLoop n s.receiveQueue).1 ∧
      (tcpReceive s len).1.rcv = s.rcv.dequeue n := by
    unfold tcpReceive
    split
    · exact ⟨len, tcpReceiveTurn_copied s len [], congrArg Core.rcv (tcpReceiveTurn_core s len [])⟩
    · refine ⟨0, by rw [dequeueLoop_zero], ?_⟩
      rw [RcvSide.dequeue_zero]
      exact congrArg Core.rcv (quiet_tcpRearmUserTimeout s).core
  unfold tcpRead
  split
  case h_1 | h_9 | h_10 | h_11 => exact none
  case h_8 =>
    split
    · exact none
    · exact turn
  all_goals exact turn

/-! ## Whole steps -/

/-- The states a socket is in before its SYN is answered. -/
def TcpState.unopened : TcpState → Bool
  | .close | .listen | .synSent => true
  | .synReceived | .established | .finWait1 | .finWait2 | .closeWait | .closing | .lastAck | .timeWait => false

namespace Conn

theorem settle_sk (c : Conn) (r : TcpSock × Outcome) :
    (c.settle r).sk = r.1 ∨ r.2 = .spin ∧ (c.settle r).sk = { r.1 with fault := true } := by
  unfold settle
  split
  · exact .inl rfl
  · exact .inl rfl
  next h => exact .inr ⟨h, rfl⟩

theorem settleRead_sk (c : Conn) (r : TcpSock × Outcome × List U8) : (c.settleRead r).sk = r.1 := by
  simp only [settleRead]
  split <;> rfl

theorem settle_moves {c : Conn} {r : TcpSock × Outcome} {s : TcpSock} (h : SockMoves .send s r.1) :
    SockMoves .send s (c.settle r).sk := by
  rcases settle_sk c r with he | ⟨-, he⟩
  · rw [he]; exact h
  · rw [he]; exact h.trans (.of_move (List.append_nil _).symm .spin)

theorem tcpQueueFin_ne_spin (s : TcpSock) (lastAck : Bool) : (tcpQueueFin s lastAck).2 ≠ .spin := by
  unfold tcpQueueFin
  split <;> simp

theorem tcpClose_ne_spin (s : TcpSock) : (tcpClose s).2 ≠ .spin := by
  unfold tcpClose
  split
  case h_10 | h_11 => exact tcpQueueFin_ne_spin _ _
  all_goals simp

theorem settle_close_moves {a : Act} {c : Conn} {r : TcpSock × Outcome} {s : TcpSock} (h : SockMoves a s r.1)
    (hr : r.2 ≠ .spin) : SockMoves a s (c.settle r).sk := by
  rcases settle_sk c r with he | ⟨hs, -⟩
  · rw [he]; exact h
  · exact absurd hs hr

/-- What an event makes the socket do. -/
def act (c : Conn) : Event → Act
  | .segment th data psh => .arrive c.sk.core th (tcpInitSegment th data psh)
  | .write _ => .send
  | .read _ => .read
  | .close => .close
  | .abort => .abort
  | .resume i =>
    match c.calls[i]? with
    | none => .idle
    | some (.recv _ _) => .read
    | some (.send _ _ _ _) => .send
    | some (.fin lastAck) => .finish lastAck
  | .handler i =>
    match c.sk.spawned[i]? with
    | none => .idle
    | some h => .fire h (h.live c.sk)
  | .dispatch _ | .tick _ | .fcntl _ | .adjustPmtu6 _ => .idle

/-- Only a segment is an arrival. -/
theorem not_arrive {c : Conn} {e : Event} (he : ∀ th data psh, e ≠ .segment th data psh) (c₀ : Core) (th : Tcphdr) (skb : Skb) :
    c.act e ≠ .arrive c₀ th skb := by
  intro hact
  cases e with
  | segment th data psh => exact he th data psh rfl
  | resume i =>
    simp only [act] at hact
    split at hact <;> cases hact
  | handler i =>
    simp only [act] at hact
    split at hact <;> cases hact
  | _ => cases hact

/-- In SYN_SENT nobody sleeps but readers. -/
def Ready (c : Conn) : Prop := c.sk.state = .synSent → ∀ call ∈ c.calls, ∃ len got, call = .recv len got

theorem resume_moves {c : Conn} (hr : c.Ready) (i : Nat) : SockMoves (c.act (.resume i)) c.sk (c.resume i).sk := by
  have sending : ∀ {call}, c.calls[i]? = some call → (∀ len got, call ≠ .recv len got) → c.sk.state ≠ .synSent :=
    fun hc hne hs => by
      obtain ⟨len, got, h⟩ := hr hs _ (List.mem_of_getElem? hc)
      exact hne len got h
  simp only [resume, act]
  cases hc : c.calls[i]? with
  | none => exact .refl _
  | some call =>
    cases call with
    | recv len got =>
      dsimp only
      rw [settleRead_sk]
      exact tcpReceiveTurn_moves _ _ _
    | send mss chunk rest len =>
      refine settle_moves ?_
      unfold resumeSend
      dsimp only
      split
      next ho =>
        have hs := sending hc nofun
        exact (queueData_moves _ hs ho).trans
          (tcpSendLoop_moves _ _ _ (by rw [tcpQueueTransmitSkb_state]; exact hs) _)
      next => exact .refl _
    | fin lastAck => exact settle_close_moves (tcpQueueFin_moves rfl (sending hc nofun)) (tcpQueueFin_ne_spin _ _)

/-- **Every event is a chain of moves of its act.** -/
theorem step_moves {c : Conn} (hr : c.Ready) (e : Event) : SockMoves (c.act e) c.sk (c.step e).sk := by
  unfold step
  split
  · exact .refl _
  · cases e with
    | segment th data psh => exact segmentArrives_moves _ _ _
    | write buf => exact settle_moves (tcpWrite_moves _ _)
    | read len =>
      dsimp only
      rw [settleRead_sk]
      exact tcpRead_moves _ _
    | close => exact settle_close_moves (tcpClose_moves _) (tcpClose_ne_spin _)
    | abort => exact tcpAbort_moves _
    | resume i => exact resume_moves hr i
    | dispatch i => exact .of_quiet (quiet_dispatch _ _)
    | handler i =>
      cases h : c.sk.spawned[i]? with
      | none =>
        simp only [handle, act, h]
        exact .refl _
      | some hd =>
        simp only [handle, act, h]
        have hl : hd.live c.sk = hd.live { c.sk with spawned := c.sk.spawned.eraseIdx i } := by cases hd <;> rfl
        rw [hl]
        exact (runHandler_moves _ hd).after rfl rfl
    | tick ms => exact .of_quiet (.of_eq rfl rfl)
    | fcntl nonblock => exact .of_quiet (.of_eq rfl rfl)
    | adjustPmtu6 mss => exact .of_quiet (quiet_adjustPmtu6 _ _)

theorem settle_calls (c : Conn) (r : TcpSock × Outcome) : (c.settle r).calls = c.calls ∨
    ∃ call, r.2 = .sleep call ∧ (c.settle r).calls = c.calls ++ [call] := by
  unfold settle
  split
  · exact .inl rfl
  next h => exact .inr ⟨_, h, rfl⟩
  · exact .inl rfl

theorem settleRead_calls (c : Conn) (r : TcpSock × Outcome × List U8) : (c.settleRead r).calls = c.calls ∨
    ∃ call, r.2.1 = .sleep call ∧ (c.settleRead r).calls = c.calls ++ [call] := by
  simp only [settleRead]
  split
  · exact .inl rfl
  next h => exact .inr ⟨_, h, rfl⟩
  · exact .inl rfl

theorem settle_forall {c : Conn} {r : TcpSock × Outcome} {P : Call → Prop} (hc : ∀ call ∈ c.calls, P call)
    (hr : ∀ call, r.2 = .sleep call → P call) : ∀ call ∈ (c.settle r).calls, P call := by
  rcases settle_calls c r with h | ⟨call, hs, h⟩
  · rw [h]; exact hc
  · rw [h]
    intro call' hm
    rcases List.mem_append.mp hm with hm | hm
    · exact hc call' hm
    · rw [List.mem_singleton.mp hm]; exact hr call hs

theorem settleRead_forall {c : Conn} {r : TcpSock × Outcome × List U8} {P : Call → Prop} (hc : ∀ call ∈ c.calls, P call)
    (hr : ∀ call, r.2.1 = .sleep call → P call) : ∀ call ∈ (c.settleRead r).calls, P call := by
  rcases settleRead_calls c r with h | ⟨call, hs, h⟩
  · rw [h]; exact hc
  · rw [h]
    intro call' hm
    rcases List.mem_append.mp hm with hm | hm
    · exact hc call' hm
    · rw [List.mem_singleton.mp hm]; exact hr call hs

/-- Outside ESTABLISHED and CLOSE_WAIT an event puts nobody but readers to
sleep. -/
theorem step_readers {c : Conn} (hs : c.sk.state ≠ .established ∧ c.sk.state ≠ .closeWait)
    (hc : ∀ call ∈ c.calls, ∃ len got, call = .recv len got) (e : Event) : ∀ call ∈ (c.step e).calls, ∃ len got, call = .recv len got := by
  unfold step
  split
  · exact hc
  · cases e with
    | write buf =>
      have hw : (tcpWrite c.sk buf).2 = .ret (if c.sk.err ≠ 0 then c.sk.err else -EBADF) := by
        have hna : tcpWriteAccepts c.sk = false := by simp [tcpWriteAccepts, hs.1, hs.2]
        simp [tcpWrite, hna]
      rcases settle_calls { c with written := _ } (tcpWrite c.sk buf) with h | ⟨call, h, -⟩
      · dsimp only
        rw [h]
        exact hc
      · rw [hw] at h; cases h
    | close =>
      rcases settle_calls c (tcpClose c.sk) with h | ⟨call, h, -⟩
      · dsimp only
        rw [h]
        exact hc
      · unfold tcpClose at h
        cases hst : c.sk.state <;> simp_all
    | read len => exact settleRead_forall hc fun call h => tcpRead_sleep h
    | resume i =>
      have he : ∀ call ∈ c.calls.eraseIdx i, ∃ len got, call = .recv len got :=
        fun call hm => hc call (List.mem_of_mem_eraseIdx hm)
      simp only [resume]
      cases hi : c.calls[i]? with
      | none => exact hc
      | some call =>
        obtain ⟨len, got, rfl⟩ := hc call (List.mem_of_getElem? hi)
        exact settleRead_forall he fun call h => tcpReceiveTurn_sleep h
    | _ => exact hc

/-- An event keeps the readers the only sleepers in SYN_SENT. -/
theorem step_ready {c : Conn} (hr : c.Ready) (e : Event) : (c.step e).Ready := by
  intro hst
  have hs : c.sk.state = .synSent := by
    obtain ⟨es, -, hm⟩ := step_moves hr e
    by_contra hne
    exact hm.keeps_core (I := fun k => k.state ≠ .synSent) (fun hm h hk => h (hm.synSent hk)) hne hst
  exact step_readers (by rw [hs]; exact ⟨nofun, nofun⟩) (hr hs) e

/-- **The invariant rule for runs**: what every move of an `ok` event keeps,
of core and log, holds after a run of such events. -/
theorem run_keeps {ok : Conn → Event → Prop} {I : Core → List Effect → Prop}
    (hI : ∀ {c e}, ok c e → ∀ {k log es k'}, Move (c.act e) k es k' → I k log → I k' (log ++ es))
    {c : Conn} {es : List Event} (hm : Meets ok c es) (hr : c.Ready) (h : I c.sk.core c.sk.fx) :
    I (c.run es).sk.core (c.run es).sk.fx := by
  refine (run_meets (I := fun c => c.Ready ∧ I c.sk.core c.sk.fx) (fun c e hok ⟨hr, h⟩ => ⟨step_ready hr e, ?_⟩) hm
    ⟨hr, h⟩).2
  obtain ⟨es, hf, hmv⟩ := step_moves hr e
  rw [hf]
  exact hmv.keeps (hI hok) _ h

/-- The same for a side condition every event meets. -/
theorem run_keeps_all {I : Core → List Effect → Prop}
    (hI : ∀ {a k log es k'}, Move a k es k' → I k log → I k' (log ++ es))
    {c : Conn} (es : List Event) (hr : c.Ready) (h : I c.sk.core c.sk.fx) : I (c.run es).sk.core (c.run es).sk.fx :=
  run_keeps (fun _ _ _ _ _ hm h => hI hm h) (Machine.Meets.of_forall (fun _ _ => trivial) c es) hr h

theorem run_ready {c : Conn} (hr : c.Ready) (es : List Event) : (c.run es).Ready :=
  Machine.invariant (I := Ready) (fun _ e h => step_ready h e) es hr

theorem ready_of_no_calls (s : TcpSock) : Ready { sk := s } := fun _ _ h => by cases h

theorem settle_delivered (c : Conn) (r : TcpSock × Outcome) : (c.settle r).delivered = c.delivered := by
  unfold settle
  split <;> rfl

theorem settleRead_delivered (c : Conn) (r : TcpSock × Outcome × List U8) :
    (c.settleRead r).delivered = c.delivered ++ r.2.2 := by
  simp only [settleRead]
  split <;> rfl

/-- Either an event reads nothing, or it copies out what `tcp_data_dequeue`
takes for some buffer and leaves the receive side that dequeueing leaves. -/
theorem step_reads (c : Conn) (e : Event) :
    (c.act e ≠ .read ∧ (c.step e).delivered = c.delivered) ∨
    c.act e = .read ∧ ∃ n, (c.step e).delivered = c.delivered ++ (dequeueLoop n c.sk.receiveQueue).1 ∧
      (c.step e).sk.rcv = c.sk.rcv.dequeue n := by
  have idle : ∃ n, c.delivered = c.delivered ++ (dequeueLoop n c.sk.receiveQueue).1 ∧
      c.sk.rcv = c.sk.rcv.dequeue n :=
    ⟨0, by rw [dequeueLoop_zero, List.append_nil], (RcvSide.dequeue_zero _).symm⟩
  unfold step
  split
  next =>
    by_cases h : c.act e = .read
    · exact .inr ⟨h, idle⟩
    · exact .inl ⟨h, rfl⟩
  next =>
    cases e with
    | read len =>
      obtain ⟨n, hc, hr⟩ := tcpRead_copied c.sk len
      refine .inr ⟨rfl, n, ?_, ?_⟩
      · dsimp only
        rw [settleRead_delivered, hc]
      · dsimp only
        rw [settleRead_sk, hr]
    | write buf => exact .inl ⟨nofun, settle_delivered _ _⟩
    | close => exact .inl ⟨nofun, settle_delivered _ _⟩
    | handler i =>
      refine .inl ⟨?_, rfl⟩
      simp only [act]
      split <;> exact nofun
    | resume i =>
      simp only [act, resume]
      cases c.calls[i]? with
      | none => exact .inl ⟨nofun, rfl⟩
      | some call =>
        cases call with
        | recv len got =>
          refine .inr ⟨rfl, len - got.length, ?_, ?_⟩
          · dsimp only
            rw [settleRead_delivered, tcpReceiveTurn_copied]
          · dsimp only
            rw [settleRead_sk]
            exact congrArg Core.rcv (tcpReceiveTurn_core _ _ _)
        | send mss chunk rest len => exact .inl ⟨nofun, settle_delivered _ _⟩
        | fin lastAck => exact .inl ⟨nofun, settle_delivered _ _⟩
    | _ => exact .inl ⟨nofun, rfl⟩

end Conn

end LevelIp
