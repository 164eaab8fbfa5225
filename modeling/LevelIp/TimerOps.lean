/-
Every event as a chain of timer operations. What an RTO timer outside SYN_SENT
is armed with is a parameter, so that one pass over the functions of the source
serves both for what holds of any timers and for what holds of how long the
retransmission timer is set.
-/
import LevelIp.Timing
import LevelIp.Finished

namespace LevelIp

namespace Timing

/-- One operation on the timers; a data retransmission timer is armed only for
a time with `W`. -/
inductive Op (W : U32 → Prop) : Timing → Timing → Prop
  | stopRto (g) : Op W g g.stopRto
  | releaseRto (g) : Op W g g.releaseRto
  | stopDelack (g) : Op W g g.stopDelack
  | releaseDelack (g) : Op W g { g with delack := none }
  | stopLinger (g) : Op W g g.stopLinger
  | cancelLinger (g) : Op W g (g.cancel g.linger)
  | rearm (g syn expire) : (syn = false → W expire) → Op W g (g.rearm syn expire)
  | armDelack (g) : Op W g g.armDelack
  | armLinger (g expire h) : h.epoch? = none → Op W g (g.armLinger expire h)
  | dispatch (g i t) : g.timers[i]? = some t →
      Op W g { g with timers := g.timers.eraseIdx i, spawned := g.spawned ++ [t.handler] }
  | run (g i) : Op W g { g with spawned := g.spawned.eraseIdx i }

abbrev Ops (W : U32 → Prop) : Timing → Timing → Prop := Relation.ReflTransGen (Op W)

variable {W : U32 → Prop} {g g' : Timing}

theorem Ops.of_eq (h : g' = g) : Ops W g g' := h ▸ .refl

theorem ops_clear (g : Timing) : Ops W g g.clear :=
  ((Relation.ReflTransGen.single (.stopRto g)).tail (.stopDelack _)).tail (.stopLinger _)

theorem ops_timeWait (g : Timing) : Ops W g g.timeWait := (ops_clear g).tail (.armLinger _ _ _ rfl)

theorem ops_userTimeout (g : Timing) : Ops W g g.userTimeout :=
  (Relation.ReflTransGen.single (.cancelLinger g)).tail (.armLinger _ _ _ rfl)

/-- The handlers still to run are the same once one has been dispatched. -/
theorem mem_pending_dispatch {i : Nat} {t : Timer} (hi : g.timers[i]? = some t) (x : Handler) :
    x ∈ pending { g with timers := g.timers.eraseIdx i, spawned := g.spawned ++ [t.handler] } ↔ x ∈ g.pending := by
  obtain ⟨hlt, rfl⟩ := List.getElem?_eq_some_iff.mp hi
  have hperm := (List.getElem_cons_eraseIdx_perm hlt).map (·.handler)
  have hm : x ∈ g.timers.map (·.handler) ↔ x = g.timers[i].handler ∨ x ∈ (g.timers.eraseIdx i).map (·.handler) := by
    rw [← hperm.mem_iff, List.map_cons, List.mem_cons]
  show x ∈ (g.timers.eraseIdx i).map (·.handler) ++ (g.spawned ++ [g.timers[i].handler]) ↔
    x ∈ g.timers.map (·.handler) ++ g.spawned
  simp only [List.mem_append, List.mem_singleton, hm]
  tauto

theorem mem_pending_run {i : Nat} {x : Handler} (hx : x ∈ pending { g with spawned := g.spawned.eraseIdx i }) :
    x ∈ g.pending := by
  rcases mem_pending.mp hx with hx | hx
  · exact mem_pending.mpr (.inl hx)
  · exact mem_pending.mpr (.inr (List.mem_of_mem_eraseIdx hx))

/-- The timers stay told apart. -/
theorem Ok.op (h : g.Ok) (hm : Op W g g') : g'.Ok := by
  cases hm with
  | stopRto => exact h.stopRto
  | releaseRto => exact h.shrink (fun _ ht => ht) (fun _ hx => hx) le_rfl le_rfl (.inr rfl) (.inr rfl)
  | stopDelack => exact h.stopDelack
  | releaseDelack => exact h.shrink (fun _ ht => ht) (fun _ hx => hx) le_rfl le_rfl (.inl rfl) (.inr rfl)
  | stopLinger => exact h.stopLinger
  | cancelLinger => exact h.cancel _
  | rearm => exact h.rearm _ _
  | armDelack => exact h.armDelack
  | armLinger _ _ hx => exact h.armLinger _ hx
  | dispatch i t hi =>
    exact h.shrink (fun _ ht => List.mem_of_mem_eraseIdx ht) (fun x => (mem_pending_dispatch hi x).mp) le_rfl le_rfl
      (.inr rfl) (.inr rfl)
  | run i => exact h.shrink (fun _ ht => ht) (fun _ => mem_pending_run) le_rfl le_rfl (.inr rfl) (.inr rfl)

theorem Ok.ops (h : g.Ok) (hm : Ops W g g') : g'.Ok := by
  induction hm with
  | refl => exact h
  | tail _ hm ih => exact ih.op hm

end Timing

open Timing

variable {W : U32 → Prop} {s : TcpSock}

/-- The RTO timer is armed outside SYN_SENT only for a time with `W`. -/
def TcpSock.ArmsFor (W : U32 → Prop) (s : TcpSock) : Prop := s.state ≠ .synSent → W s.rto

theorem armed_ops (h : s.ArmsFor W) : Ops W s.timing s.armed := by
  refine .single (.rearm _ _ _ fun hsyn => ?_)
  have hst : s.state ≠ .synSent := of_decide_eq_false hsyn
  rw [TcpSock.rtoWait, if_neg hst]
  exact h hst

theorem tcpQueueTransmitSkb_timerOps (h : s.writeQueue.isEmpty → s.ArmsFor W) (k : Skb) :
    Ops W s.timing (tcpQueueTransmitSkb s k).timing := by
  rw [tcpQueueTransmitSkb_timing]
  split
  next he => exact armed_ops (h he)
  next => exact .refl

theorem tcpRearmUserTimeout_timerOps (s : TcpSock) : Ops W s.timing (tcpRearmUserTimeout s).timing := by
  rw [tcpRearmUserTimeout_timing]
  split
  · exact .refl
  · exact ops_userTimeout _

/-! ## The socket calls -/

theorem tcpQueueTransmitSkb_dials (s : TcpSock) (k : Skb) : (tcpQueueTransmitSkb s k).dials = s.dials := by
  unfold tcpQueueTransmitSkb
  dsimp only
  rw [tcpTransmitSkb_dials]
  split <;> rfl

theorem tcpQueueTransmitSkb_armsFor (h : s.ArmsFor W) (k : Skb) : (tcpQueueTransmitSkb s k).ArmsFor W := by
  unfold TcpSock.ArmsFor
  rw [show (tcpQueueTransmitSkb s k).rto = s.rto from congrArg Dials.rto (tcpQueueTransmitSkb_dials s k),
    tcpQueueTransmitSkb_state]
  exact h

theorem tcpSendLoop_timerOps (mss : U16) (len fuel : Nat) {s : TcpSock} (h : s.ArmsFor W) (buf : List U8) :
    Ops W s.timing (tcpSendLoop mss len fuel s buf).1.timing := by
  induction fuel generalizing s buf with
  | zero =>
    cases buf with
    | nil => exact tcpRearmUserTimeout_timerOps s
    | cons b buf => exact .refl
  | succ fuel ih =>
    cases buf with
    | nil => exact tcpRearmUserTimeout_timerOps s
    | cons b buf =>
      rw [tcpSendLoop]
      split
      · exact (tcpQueueTransmitSkb_timerOps (fun _ => h) _).trans (ih (tcpQueueTransmitSkb_armsFor h _) _)
      · exact .refl

theorem tcpWrite_timerOps (h : tcpWriteAccepts s → s.ArmsFor W) (buf : List U8) : Ops W s.timing (tcpWrite s buf).1.timing := by
  unfold tcpWrite
  split
  next ha => exact tcpSendLoop_timerOps _ _ _ (h ha) _
  next => exact .refl

theorem tcpReceiveTurn_timerOps (s : TcpSock) (len : Nat) (got : List U8) :
    Ops W s.timing (tcpReceiveTurn s len got).1.timing := by
  have hd := tcpDataDequeue_timing s (len - got.length)
  unfold tcpReceiveTurn
  generalize tcpDataDequeue s (len - got.length) = r at hd
  obtain ⟨t, copied⟩ := r
  dsimp only at hd ⊢
  rw [← hd]
  split
  · exact tcpRearmUserTimeout_timerOps { t with flagPsh := false }
  · split
    · exact tcpRearmUserTimeout_timerOps t
    · split
      · split
        · exact .refl
        · exact tcpRearmUserTimeout_timerOps t
      · exact .refl

theorem tcpRead_timerOps (s : TcpSock) (len : Nat) : Ops W s.timing (tcpRead s len).1.timing := by
  have hr : Ops W s.timing (tcpReceive s len).1.timing := by
    unfold tcpReceive
    split
    · exact tcpReceiveTurn_timerOps _ _ _
    · exact tcpRearmUserTimeout_timerOps s
  unfold tcpRead
  split
  case h_8 =>
    split
    · exact .refl
    · exact hr
  all_goals first | exact .refl | exact hr

theorem tcpQueueFin_timerOps (h : s.ArmsFor W) (lastAck : Bool) : Ops W s.timing (tcpQueueFin s lastAck).1.timing := by
  unfold tcpQueueFin
  split
  · have hq := tcpQueueTransmitSkb_timerOps (fun _ => h) finSkb
    cases lastAck <;> exact hq
  · exact .refl

theorem tcpDone_timerOps (s : TcpSock) : Ops W s.timing (tcpDone s).timing := by
  rw [tcpDone_timing]
  exact ops_clear _

theorem tcpAbort_timerOps (s : TcpSock) : Ops W s.timing (tcpAbort s).timing := by
  rw [tcpAbort_timing]
  exact ops_clear _

theorem tcpClose_timerOps (h : s.state = .established ∨ s.state = .closeWait → s.ArmsFor W) :
    Ops W s.timing (tcpClose s).1.timing := by
  unfold tcpClose
  split
  case h_7 | h_8 | h_9 => exact tcpDone_timerOps s
  case h_10 hs => exact tcpQueueFin_timerOps (s := s.setState .finWait1) (fun _ => h (.inl hs) (by rw [hs]; nofun)) false
  case h_11 hs => exact tcpQueueFin_timerOps (h (.inr hs)) true
  all_goals exact .refl

/-! ## The handlers -/

theorem tcpRearmRtoTimer_timerOps (h : s.ArmsFor W) : Ops W s.timing (tcpRearmRtoTimer s).timing := by
  rw [tcpRearmRtoTimer_timing]
  exact armed_ops h

theorem tcpConnectRto_timerOps (s : TcpSock) (n : Nat) : Ops W s.timing (tcpConnectRto s n).timing := by
  have hrel : Ops W s.timing (tcpReleaseRtoTimer s).timing := .single (.releaseRto s.timing)
  unfold tcpConnectRto
  split
  · exact .refl
  · dsimp only
    split
    next hs =>
      split
      · rw [tcpDone_timing]
        exact hrel.trans (ops_clear _)
      · split
        · exact hrel
        next k hk =>
          have ht := tcpTransmitSkb_timing (tcpReleaseRtoTimer s) k (tcpReleaseRtoTimer s).tcb.sndUna
          have hst : (tcpTransmitSkb (tcpReleaseRtoTimer s) k (tcpReleaseRtoTimer s).tcb.sndUna).state = .synSent :=
            (congrArg Core.state (tcpTransmitSkb_core _ _ (tcpReleaseRtoTimer s).tcb.sndUna)).trans hs
          generalize tcpTransmitSkb (tcpReleaseRtoTimer s) k (tcpReleaseRtoTimer s).tcb.sndUna = t at ht hst
          rw [← ht] at hrel
          exact hrel.trans (tcpRearmRtoTimer_timerOps (s := { t with backoff := t.backoff + 1 }) fun hne => absurd hst hne)
    next => exact hrel

theorem rtoTail_timerOps (h : ¬s.rto > 60000 → s.state ≠ .synSent → W (s.rto * 2)) (k : Skb) :
    Ops W s.timing (rtoTail s k).timing := by
  unfold rtoTail
  split
  · exact tcpDone_timerOps s
  next hr =>
    have ha : Ops W s.timing (tcpRearmRtoTimer { s with rto := s.rto * 2, backoff := s.backoff + 1 }).timing :=
      tcpRearmRtoTimer_timerOps (s := { s with rto := s.rto * 2, backoff := s.backoff + 1 }) (h hr)
    split
    · rw [tcpHandleFinState_timing]
      exact ha
    · exact ha

theorem tcpRetransmissionTimeout_timerOps {n : Nat}
    (h : n = s.rtoEpoch → ¬s.rto > 60000 → s.state ≠ .synSent → W (s.rto * 2)) :
    Ops W s.timing (tcpRetransmissionTimeout s n).timing := by
  have hrel : Ops W s.timing (tcpReleaseRtoTimer s).timing := .single (.releaseRto s.timing)
  rcases tcpRetransmissionTimeout_cases s n with ⟨-, he⟩ | ⟨-, -, he⟩ | ⟨k, hn, -, he⟩
  · rw [he]
  · rw [he, rtoIdle]
    dsimp only
    split <;> exact hrel
  · rw [he]
    have hst : (tcpTransmitSkb (rtoSock s) k (rtoSock s).tcb.sndUna).state = s.state :=
      (congrArg Core.state (tcpTransmitSkb_core _ _ (rtoSock s).tcb.sndUna)).trans (quiet_rtoSock s).state
    have ht : (tcpTransmitSkb (rtoSock s) k (rtoSock s).tcb.sndUna).timing = (tcpReleaseRtoTimer s).timing :=
      tcpTransmitSkb_timing _ _ _
    have hr : (tcpTransmitSkb (rtoSock s) k (rtoSock s).tcb.sndUna).rto = s.rto := tcpTransmitSkb_rto _ _ _
    generalize tcpTransmitSkb (rtoSock s) k (rtoSock s).tcb.sndUna = t at hst ht hr
    rw [← ht] at hrel
    exact hrel.trans (rtoTail_timerOps (by rw [hr, hst]; exact h hn) k)

theorem runHandler_timerOps {x : Handler}
    (h : x = .retransmissionTimeout s.rtoEpoch → ¬s.rto > 60000 → s.state ≠ .synSent → W (s.rto * 2)) :
    Ops W s.timing (runHandler s x).timing := by
  cases x with
  | connectRto n => exact tcpConnectRto_timerOps s n
  | retransmissionTimeout n => exact tcpRetransmissionTimeout_timerOps fun hn => h (by rw [hn])
  | sendDelack =>
    rw [runHandler, tcpSendDelack_timing]
    exact .single (.releaseDelack _)
  | linger =>
    have hs : Ops W s.timing (tcpStopLinger s).timing := by
      rw [tcpStopLinger_timing]
      exact .single (.stopLinger _)
    exact hs.trans (tcpDone_timerOps _)
  | userTimeout =>
    have hs : Ops W s.timing (tcpStopLinger s).timing := by
      rw [tcpStopLinger_timing]
      exact .single (.stopLinger _)
    exact hs.trans (tcpAbort_timerOps _)

theorem handle_timerOps {i : Nat}
    (h : s.spawned[i]? = some (.retransmissionTimeout s.rtoEpoch) → ¬s.rto > 60000 → s.state ≠ .synSent → W (s.rto * 2)) :
    Ops W s.timing (Conn.handle s i).timing := by
  unfold Conn.handle
  cases hi : s.spawned[i]? with
  | none => exact .refl
  | some x =>
    have hrun : Ops W s.timing (TcpSock.timing { s with spawned := s.spawned.eraseIdx i }) := .single (.run s.timing i)
    exact hrun.trans (runHandler_timerOps (s := { s with spawned := s.spawned.eraseIdx i }) fun hx => h (by rw [hi, hx]))

theorem dispatch_timerOps (s : TcpSock) (i : Nat) : Ops W s.timing (Conn.dispatch s i).timing := by
  unfold Conn.dispatch
  cases hi : s.timers[i]? with
  | none => exact .refl
  | some t => exact .single (.dispatch s.timing i t hi)

/-! ## A segment -/

theorem ackSynchronized_timerOps {th : Tcphdr} {skb : Skb} (h : tcpIsDupack s th skb → s.ArmsFor W) :
    Ops W s.timing (ackSynchronized s th skb).sock.timing := by
  rw [ackSynchronized_timing]
  split
  next hd =>
    split
    · exact armed_ops (h hd)
    · exact .refl
  · split
    · split
      · exact .single (.stopRto _)
      · exact .refl
    · exact .refl

theorem finAcked_timerOps (s : TcpSock) (th : Tcphdr) : Ops W s.timing (finAcked s th).sock.timing := by
  unfold finAcked
  split
  · split
    case h_3 => exact tcpDone_timerOps s
    case h_4 =>
      dsimp only [Ctl.sock]
      split
      · exact .of_eq (tcpSendAck_timing _)
      · exact .refl
    all_goals exact .refl
  · exact .refl

theorem finState_timerOps (s : TcpSock) : Ops W s.timing (finState s).timing := by
  unfold finState
  split
  case h_3 =>
    split
    · rw [tcpEnterTimeWait_timing]
      exact ops_timeWait _
    · exact .refl
  case h_4 =>
    rw [tcpEnterTimeWait_timing]
    exact ops_timeWait _
  all_goals exact .refl

theorem finBit_timerOps (s : TcpSock) (th : Tcphdr) (expected : Bool) : Ops W s.timing (finBit s th expected).sock.timing := by
  unfold finBit
  split
  · split
    case h_4 =>
      let u : TcpSock := { s with
        tcb.rcvNxt := s.tcb.rcvNxt + 1, flagFin := true, pollEvents := s.pollEvents ||| pollInMask }.emit .peerFin
      have ht : ((tcpSendAck u).wakeup .recvWait).timing = s.timing := tcpSendAck_timing u
      rw [← ht]
      exact finState_timerOps ((tcpSendAck u).wakeup .recvWait)
    all_goals exact .refl
  · exact .refl

theorem tcpSendNext_dials (s : TcpSock) (amount : Nat) (extra : U32) : (tcpSendNext s amount extra).dials = s.dials := by
  have hloop : ∀ (limit : U32) (rest : List Skb) (amount : Nat) (visited : List Skb) (s : TcpSock),
      (tcpSendNextLoop limit amount visited rest s).dials = s.dials := by
    intro limit rest
    induction rest with
    | nil => intro amount visited s; cases amount <;> rfl
    | cons k rest ih =>
      intro amount visited s
      cases amount with
      | zero => rfl
      | succ amount =>
        by_cases h0 : k.seq = 0
        · by_cases hroom : s.inflight + k.dlen > limit
          · rw [tcpSendNextLoop, if_neg (not_not.mpr h0), if_pos hroom]
            rfl
          · rw [tcpSendNextLoop_turn h0 hroom, ih]
            exact tcpTransmitSkb_dials s k s.tcb.sndNxt
        · rw [tcpSendNextLoop, if_pos h0, ih]
  exact hloop _ _ _ _ _

theorem ackData_timerOps (h : s.state.takesText → s.writeQueue.isEmpty = false → W s.rto) (th : Tcphdr) (skb : Skb)
    (expected : Bool) : Ops W s.timing (ackData s th skb expected).timing := by
  have hstop : (tcpStopDelackTimer s).timing = s.timing.stopDelack ∧ (tcpStopDelackTimer s).writeQueue = s.writeQueue ∧
      (tcpStopDelackTimer s).rto = s.rto := by
    refine ⟨tcpStopDelackTimer_timing s, ?_⟩
    unfold tcpStopDelackTimer TcpSock.timerCancel
    cases s.delack <;> exact ⟨rfl, rfl⟩
  have hops : Ops W s.timing s.timing.stopDelack := .single (.stopDelack _)
  unfold ackData
  generalize tcpStopDelackTimer s = t at hstop
  obtain ⟨ht, hq, hr⟩ := hstop
  rw [← ht] at hops
  split
  case h_4 => exact .refl
  all_goals
    rename_i hs
    split
    case isFalse => exact .refl
    dsimp only
    split
    next hlen =>
      have hw : W s.rto := by
        refine h (by rw [hs]; rfl) ?_
        rw [hq] at hlen
        cases hl : s.writeQueue with
        | nil =>
          rw [hl] at hlen
          cases hlen
        | cons => rfl
      refine hops.trans ?_
      rw [← tcpSendNext_timing t t.writeQueue.length 0]
      refine tcpRearmRtoTimer_timerOps fun _ => ?_
      rw [show (tcpSendNext t t.writeQueue.length 0).rto = t.rto from congrArg Dials.rto (tcpSendNext_dials _ _ _), hr]
      exact hw
    · have hu : (if !th.psh && skb.dlen > 1000 then { t with delacks := t.delacks + 1 } else t).timing = t.timing := by
        split <;> rfl
      generalize (if !th.psh && skb.dlen > 1000 then { t with delacks := t.delacks + 1 } else t) = u at hu
      rw [← hu] at hops
      split
      · rw [tcpSendAck_timing]
        exact hops
      · split
        · exact hops.trans (.single (.armDelack _))
        · exact hops

/-! What runs between the ACK field and `ackData` leaves `rto` alone. -/

theorem tcpSendAck_dials (s : TcpSock) : (tcpSendAck s).dials = s.dials := by
  unfold tcpSendAck
  split
  · rfl
  · exact tcpTransmitSkb_dials _ _ _

theorem timerCancel_dials (s : TcpSock) (t : Option Timer) : (s.timerCancel t).dials = s.dials := by
  cases t <;> rfl

theorem tcpStopRtoTimer_dials (s : TcpSock) : (tcpStopRtoTimer s).dials = s.dials := timerCancel_dials s s.retransmit

theorem tcpStopDelackTimer_dials (s : TcpSock) : (tcpStopDelackTimer s).dials = s.dials := timerCancel_dials s s.delack

theorem tcpStopLinger_dials (s : TcpSock) : (tcpStopLinger s).dials = s.dials := timerCancel_dials s s.linger

theorem tcpClearTimers_dials (s : TcpSock) : (tcpClearTimers s).dials = s.dials :=
  (tcpStopLinger_dials _).trans ((tcpStopDelackTimer_dials _).trans (tcpStopRtoTimer_dials s))

theorem tcpDone_dials (s : TcpSock) : (tcpDone s).dials = s.dials := tcpClearTimers_dials (s.setState .closing)

theorem tcpEnterTimeWait_dials (s : TcpSock) : (tcpEnterTimeWait s).dials = s.dials := tcpClearTimers_dials (s.setState .timeWait)

theorem finAcked_dials (s : TcpSock) (th : Tcphdr) : (finAcked s th).sock.dials = s.dials := by
  unfold finAcked
  split
  · split
    case h_3 => exact tcpDone_dials s
    case h_4 =>
      dsimp only [Ctl.sock]
      split
      · exact tcpSendAck_dials _
      · rfl
    all_goals rfl
  · rfl

theorem tcpCalculateSacks_dials (s : TcpSock) (seq endSeq : U32) : (tcpCalculateSacks s seq endSeq).dials = s.dials := by
  have hloop : ∀ (q : List Skb) (t : TcpSock) (sb : Nat), (tcpCalculateSacksLoop seq endSeq q t sb).dials = t.dials := by
    intro q
    induction q with
    | nil => exact fun _ _ => rfl
    | cons next rest ih =>
      intro t sb
      simp only [tcpCalculateSacksLoop]
      split
      · exact ih _ _
      · split
        · rfl
        · split
          · exact ih _ _
          · split <;> exact ih _ _
  exact hloop _ _ _

/-- The segment's text goes to `receive_queue`. -/
def TcpSock.takesInOrder (s : TcpSock) (th : Tcphdr) (skb : Skb) : Bool :=
  s.state.takesText && (th.psh || skb.dlen > 0) && s.tcb.rcvWnd ≠ 0 && skb.seq = s.tcb.rcvNxt

theorem tcpDataQueue_dials (s : TcpSock) (skb : Skb) : (tcpDataQueue s skb).dials =
    { s.dials with
      pollEvents := if s.tcb.rcvWnd ≠ 0 ∧ skb.seq = s.tcb.rcvNxt then s.pollEvents ||| pollInMask else s.pollEvents } := by
  unfold tcpDataQueue
  split
  next hw =>
    rw [if_neg fun h => h.1 hw]
    rfl
  next hw =>
    split
    next hq =>
      rw [if_pos ⟨hw, hq⟩]
      rfl
    next hq =>
      rw [if_neg fun h => hq h.2]
      dsimp only
      rw [tcpSendAck_dials]
      split
      · exact tcpCalculateSacks_dials _ _ _
      · rfl

theorem segmentText_dials (s : TcpSock) (th : Tcphdr) (skb : Skb) : (segmentText s th skb).dials =
    { s.dials with pollEvents := if s.takesInOrder th skb then s.pollEvents ||| pollInMask else s.pollEvents } := by
  have hd := tcpDataQueue_dials s skb
  unfold segmentText TcpSock.takesInOrder
  split
  case h_4 h1 h2 h3 =>
    have ht : s.state.takesText = false := by
      cases hs : s.state <;> first | rfl | exact absurd hs h1 | exact absurd hs h2 | exact absurd hs h3
    simp only [ht, Bool.false_and, Bool.false_eq_true, if_false]
    rfl
  all_goals
    rename_i hs
    simp only [hs, TcpState.takesText, Bool.true_and]
    split
    next hp =>
      rw [hd, hp, Bool.true_and]
      simp only [ne_eq, Bool.and_eq_true, decide_eq_true_eq]
    next hp =>
      simp only [Bool.not_eq_true] at hp
      rw [hp]
      rfl

theorem finState_dials (s : TcpSock) : (finState s).dials = s.dials := by
  unfold finState
  split
  case h_3 =>
    split
    · exact tcpEnterTimeWait_dials s
    · rfl
  case h_4 => exact tcpEnterTimeWait_dials s
  all_goals rfl

theorem finBit_dials (hl : s.state.late) (th : Tcphdr) (expected : Bool) : (finBit s th expected).sock.dials =
    { s.dials with pollEvents := if th.fin && expected then s.pollEvents ||| pollInMask else s.pollEvents } := by
  unfold finBit
  split
  next hf =>
    split
    case h_1 hs => exact absurd hs hl.1
    case h_2 hs => exact absurd hs hl.2.1
    case h_3 hs => exact absurd hs hl.2.2
    case h_4 =>
      dsimp only [Ctl.sock]
      rw [finState_dials]
      exact tcpSendAck_dials _
  next hf => rfl

theorem Ctl.andThen_timerOps {g : Timing} {k : Ctl} {f : TcpSock → Ctl} (hk : Ops W g k.sock.timing)
    (hf : ∀ t, k = .next t → Ops W t.timing (f t).sock.timing) : Ops W g (k.andThen f).sock.timing := by
  cases k with
  | ret t => exact hk
  | next t => exact hk.trans (hf t rfl)

/-- A FIN takes the socket out of the states that take text. -/
theorem finBit_takesText {u : TcpSock} (hl : s.state.late) {th : Tcphdr} {expected : Bool} (h : finBit s th expected = .next u)
    (hu : u.state.takesText) : s.state.takesText := by
  have hst := finBit_state hl th expected
  rw [h, Ctl.sock] at hst
  rw [hst] at hu
  split at hu
  · cases hs : s.state <;> simp only [hs, TcpState.finSeen] at hu ⊢ <;> first | rfl | cases hu
  · exact hu

theorem finAcked_takesText {t : TcpSock} {th : Tcphdr} (h : finAcked s th = .next t) :
    t.state.takesText = s.state.takesText := by
  rw [(finAcked_state h).1]
  split
  · cases s.state <;> rfl
  · rfl

theorem finAcked_late {t : TcpSock} {th : Tcphdr} (h : finAcked s th = .next t) (hl : s.state.late) : t.state.late := by
  rw [(finAcked_state h).1]
  split
  · cases hs : s.state <;> simp_all [TcpState.finAcked, TcpState.late]
  · exact hl

theorem afterAck_timerOps (hl : s.state.late) (h : s.state.takesText → W s.rto) (th : Tcphdr) (skb : Skb) :
    Ops W s.timing (afterAck s th skb).sock.timing := by
  rw [afterAck_eq]
  refine Ctl.andThen_timerOps (finAcked_timerOps s th) fun t ht => ?_
  have htr : t.rto = s.rto := by
    have hf := congrArg Dials.rto (finAcked_dials s th)
    rw [ht] at hf
    exact hf
  unfold afterFin
  rw [← segmentText_timing t th skb]
  refine Ctl.andThen_timerOps (finBit_timerOps _ th _) fun u hu => ?_
  have hxs := segmentText_state t th skb
  have hxl : (segmentText t th skb).state.late := by
    rw [hxs]
    exact finAcked_late ht hl
  have hur : u.rto = s.rto := by
    have hb := congrArg Dials.rto (finBit_dials hxl th (decide (skb.seq = t.tcb.rcvNxt)))
    rw [hu] at hb
    exact hb.trans ((congrArg Dials.rto (segmentText_dials t th skb)).trans htr)
  refine ackData_timerOps (fun hut _ => ?_) th skb _
  have hxt := finBit_takesText hxl hu hut
  rw [hxs] at hxt
  rw [hur]
  exact h (finAcked_takesText ht ▸ hxt)

/-! ## The round-trip sample -/

/-- The round-trip time `tcp_rtt` measures, `none` where it takes no sample. -/
def TcpSock.rttSample (s : TcpSock) : Option Int :=
  match s.retransmit with
  | none => none
  | some t =>
    if s.backoff > 0 then none
    else
      let r := (s.tick - (t.expires - s.rto)).toInt
      if r < 0 then none else some r

/-- `srtt` and `rttvar` after a sample. -/
def TcpSock.smoothed (s : TcpSock) (r : Int) : Int × Int :=
  if s.srtt = 0 then (r, r.tdiv 2)
  else ((7 * s.srtt + r).tdiv 8, (3 * s.rttvar + ((s.srtt - r).natAbs : Int)).tdiv 4)

/-- The RTO after a sample. -/
def TcpSock.rtoAfter (s : TcpSock) (r : Int) : Int :=
  let (srtt, rttvar) := s.smoothed r
  srtt + if 4 * rttvar < 200 then 200 else 4 * rttvar

/-- The RTO `tcp_rtt` leaves. -/
def TcpSock.sampledRto (s : TcpSock) : U32 :=
  match s.rttSample with
  | none => s.rto
  | some r => BitVec.ofInt 32 (s.rtoAfter r)

theorem tcpRtt_eq (s : TcpSock) : tcpRtt s =
    match s.rttSample with
    | none => s
    | some r => { s with srtt := (s.smoothed r).1, rttvar := (s.smoothed r).2, rto := BitVec.ofInt 32 (s.rtoAfter r) } := by
  unfold tcpRtt TcpSock.rttSample
  cases s.retransmit with
  | none => rfl
  | some t =>
    dsimp only
    by_cases hb : s.backoff > 0
    · rw [if_pos hb, if_pos hb]
    · rw [if_neg hb, if_neg hb]
      by_cases hr : (s.tick - (t.expires - s.rto)).toInt < 0
      · rw [if_pos hr, if_pos hr]
      · rw [if_neg hr, if_neg hr]
        by_cases h0 : s.srtt = 0
        · simp only [TcpSock.rtoAfter, TcpSock.smoothed, h0, if_true]
        · simp only [TcpSock.rtoAfter, TcpSock.smoothed, h0, if_false]

theorem tcpRtt_rto (s : TcpSock) : (tcpRtt s).rto = s.sampledRto := by
  rw [tcpRtt_eq, TcpSock.sampledRto]
  cases s.rttSample <;> rfl

theorem tcpCleanRtoQueue_dials (s : TcpSock) (a : U32) : (tcpCleanRtoQueue s a).dials = s.dials := by
  have hone : ∀ (u : TcpSock) (n : U32), (tcpCongAvoid u n).dials = u.dials := fun u n => by
    unfold tcpCongAvoid
    split
    · rfl
    · split
      · rfl
      · split
        · rfl
        · dsimp only
          split <;> rfl
  have hloop : ∀ (q : List Skb) (u : TcpSock), (tcpCleanLoop a q u).dials = u.dials := by
    intro q
    induction q with
    | nil => exact fun _ => rfl
    | cons k q ih =>
      intro u
      rw [tcpCleanLoop]
      split
      · rw [ih]
        exact hone _ _
      · rfl
  unfold tcpCleanRtoQueue
  dsimp only
  split
  · rw [tcpStopRtoTimer_dials, hloop]
  · exact hloop _ _

/-- A new ACK takes the sample; nothing else of it touches `rto`. -/
theorem taken_rto (s : TcpSock) (th : Tcphdr) : (s.taken th).rto = if ackIsNew s th then s.sampledRto else s.rto := by
  unfold TcpSock.taken
  split
  · have hc := tcpCleanRtoQueue_dials (tcpRtt { s with tcb.sndUna := th.ackSeq }) th.ackSeq
    have hc := (congrArg Dials.rto hc).trans (tcpRtt_rto _)
    unfold newAck
    dsimp only
    split
    · exact hc
    · exact hc
  · rfl

theorem isDupack_inflight {th : Tcphdr} {skb : Skb} (h : tcpIsDupack s th skb) : s.inflight ≠ 0 := by
  simp only [tcpIsDupack, Bool.and_eq_true, decide_eq_true_eq] at h
  exact h.2

/-- What is armed for a heard segment: with the RTO it found, or with the one
its ACK gives. -/
theorem heard_timerOps (hl : s.state.late) {th : Tcphdr} {skb : Skb} (h : s.inflight ≠ 0 → W s.rto)
    (h' : s.state.takesText ∨ s.state = .synReceived ∧ s.ptsk.isSome → W (s.taken th).rto) :
    Ops W s.timing ((ackField s th skb).andThen fun s => afterAck s th skb).sock.timing := by
  have hsync : ∀ u : TcpSock, u.state.late → u.rto = s.rto → u.inflight = s.inflight →
      (u.state.takesText → W (u.taken th).rto) →
      Ops W u.timing ((ackSynchronized u th skb).andThen fun s => afterAck s th skb).sock.timing := by
    intro u hul hur hui hut
    refine Ctl.andThen_timerOps (ackSynchronized_timerOps fun hd _ => ?_) fun t ht => ?_
    · rw [hur]
      exact h (hui ▸ isDupack_inflight hd)
    · cases hp : u.ackPasses th skb with
      | true =>
        rw [ackSynchronized_taken hp] at ht
        obtain ⟨d, hc, -, -⟩ := taken_core u th
        have hts : (u.taken th).state = u.state := congrArg Core.state hc
        rw [← Ctl.next.inj ht]
        refine afterAck_timerOps (s := { u.taken th with lastAckWin := th.win }) ?_ (fun htx => ?_) th skb
        · exact hts.symm ▸ hul
        · exact hut (hts ▸ htx)
      | false =>
        rcases ackSynchronized_cases u th skb with ⟨hp', -⟩ | ⟨-, v, hv, -⟩
        · rw [hp] at hp'
          cases hp'
        · rw [hv] at ht
          cases ht
  have hnext : s.state.takesText = false → Ops W s.timing ((Ctl.next s).andThen fun s => afterAck s th skb).sock.timing :=
    fun ht => afterAck_timerOps hl (fun h => by rw [ht] at h; cases h) th skb
  unfold ackField
  split
  case h_1 hs =>
    split
    · dsimp only
      split
      · exact .refl
      next p hp =>
        refine hsync (((s.setState .established).emit (.acceptQueue p)).wakeup .acceptWait) ⟨nofun, nofun, nofun⟩ rfl rfl ?_
        intro _
        have hp : s.ptsk = some p := hp
        have hw := h' (.inr ⟨hs, by rw [hp]; rfl⟩)
        rw [taken_rto] at hw ⊢
        exact hw
    · exact .refl
  case h_8 hs | h_9 hs | h_10 hs | h_11 hs => exact hnext (by rw [hs]; rfl)
  all_goals exact hsync s hl rfl rfl fun ht => h' (.inl ht)

theorem tcpInputOtherwise_timerOps (hl : s.state.late) {th : Tcphdr} {skb : Skb} (h : s.inflight ≠ 0 → W s.rto)
    (h' : s.core.Heard th skb → s.state.takesText ∨ s.state = .synReceived ∧ s.ptsk.isSome → W (s.taken th).rto) :
    Ops W s.timing (tcpInputOtherwise s th skb).timing := by
  rcases tcpInputOtherwise_cases s th skb with ⟨hh, he⟩ | ⟨-, -, he⟩ | ⟨-, he | he⟩
  · rw [he]
    exact heard_timerOps hl h (h' hh)
  · rw [he]
    show Ops W s.timing (tcpEnterTimeWait s).timing
    rw [tcpEnterTimeWait_timing]
    exact ops_timeWait _
  · rw [he]
  · rw [he, tcpSendAck_timing]

theorem synsentEstablish_timerOps (s : TcpSock) (th : Tcphdr) : Ops W s.timing (synsentEstablish s th).timing := by
  have ht : (synsentEstablish s th).timing = (tcpRearmUserTimeout (tcpSendAck (openedSock s th))).timing := by
    have hc : ∀ t : TcpSock, (sockConnected (updateSndWin t th.win)).timing = t.timing := fun _ => rfl
    exact (hc _).trans (tcpParseOpts_timing _ th)
  have ho : (tcpSendAck (openedSock s th)).timing = s.timing := tcpSendAck_timing _
  rw [ht, ← ho]
  exact tcpRearmUserTimeout_timerOps _

theorem tcpSendSynack_timerOps (h : s.writeQueue.isEmpty → s.ArmsFor W) : Ops W s.timing (tcpSendSynack s).timing := by
  unfold tcpSendSynack
  split
  · exact .refl
  · exact tcpQueueTransmitSkb_timerOps h { tcpAllocSkb 4 Payload.nil with syn := true, ack := true }

theorem tcpReset_timerOps (s : TcpSock) : Ops W s.timing (tcpReset s).timing := by
  unfold tcpReset
  dsimp only
  split
  case h_3 => exact .refl
  all_goals
    rw [tcpDone_timing]
    exact ops_clear _

/-- Unless the SYN acknowledges ours, its ACK field changes nothing. -/
theorem synAckedSock_unacked {th : Tcphdr} (h : ¬(th.ack ∧ (th.ackSeq ≤ s.tcb.iss ∨ th.ackSeq > s.tcb.sndNxt)))
    (hle : ¬(synAckedSock s th).tcb.sndUna > (synAckedSock s th).tcb.iss) : synAckedSock s th = syncedSock s th := by
  refine if_neg fun hack => hle ?_
  have hc := synAckedSock_core s th
  rw [SndSide.synAcked, if_pos hack] at hc
  rw [show (synAckedSock s th).tcb.sndUna = th.ackSeq from congrArg (·.snd.una) hc,
    show (synAckedSock s th).tcb.iss = s.tcb.iss from congrArg (·.snd.iss) hc]
  exact BitVec.not_le.mp fun hle => h ⟨hack, .inl hle⟩

theorem tcpSynsent_timerOps (h : s.writeQueue.isEmpty → W s.rto) (th : Tcphdr) : Ops W s.timing (tcpSynsent s th).timing := by
  have hacked : Ops W s.timing (synAckedSock s th).timing := by
    unfold synAckedSock
    split
    · rw [tcpCleanRtoQueue_timing]
      split
      · exact .single (.stopRto _)
      · exact .refl
    · exact .refl
  rw [tcpSynsent_eq]
  split
  · exact .refl
  next h1 =>
    split
    · exact .refl
    · split
      · exact tcpReset_timerOps s
      · split
        · exact .refl
        · refine hacked.trans ?_
          unfold synTaken
          split
          · exact synsentEstablish_timerOps _ _
          next hle =>
            rw [synAckedSock_unacked h1 hle]
            exact tcpSendSynack_timerOps
              (s := { (syncedSock s th).setState .synReceived with tcb.sndUna := (syncedSock s th).tcb.iss })
              fun he _ => h he

/-- What a segment must find for every RTO timer it makes the socket arm to be
set for a time with `W`. -/
structure TcpSock.SegmentArms (W : U32 → Prop) (s : TcpSock) (th : Tcphdr) (skb : Skb) : Prop where
  syn : s.state = .synSent → s.writeQueue.isEmpty → W s.rto
  dupack : s.inflight ≠ 0 → W s.rto
  data : s.core.Heard th skb → s.state.takesText ∨ s.state = .synReceived ∧ s.ptsk.isSome → W (s.taken th).rto

theorem segmentArrives_timerOps {th : Tcphdr} {skb : Skb} (h : s.SegmentArms W th skb) :
    Ops W s.timing (segmentArrives s th skb).timing := by
  by_cases hl : s.state.late
  · rw [segmentArrives_late hl]
    exact tcpInputOtherwise_timerOps hl h.dupack h.data
  · unfold segmentArrives
    split
    next =>
      unfold tcpClosed
      split
      · exact .refl
      · rw [tcpSendReset_timing]
    next => exact .refl
    next hs => exact tcpSynsent_timerOps (h.syn hs) th
    next h1 h2 h3 => exact absurd ⟨h1, h2, h3⟩ hl

/-! ## Events -/

/-- A call that has something to send. -/
def Call.writes : Call → Bool
  | .send _ _ _ _ | .fin _ => true
  | .recv _ _ => false

namespace Conn

theorem settle_timing (c : Conn) (r : TcpSock × Outcome) : (c.settle r).sk.timing = r.1.timing := by
  rcases settle_sk c r with h | ⟨-, h⟩ <;> rw [h]
  rfl

/-- What an event must find for every RTO timer it arms outside SYN_SENT to be
set for a time with `W`. -/
def Arms (W : U32 → Prop) (c : Conn) : Event → Prop
  | .segment th data psh => c.sk.SegmentArms W th (tcpInitSegment th data psh)
  | .write _ => tcpWriteAccepts c.sk → W c.sk.rto
  | .close => c.sk.state = .established ∨ c.sk.state = .closeWait → W c.sk.rto
  | .resume i => (c.calls[i]?).any Call.writes → c.sk.ArmsFor W
  | .handler i => c.sk.spawned[i]? = some (.retransmissionTimeout c.sk.rtoEpoch) → ¬c.sk.rto > 60000 →
      c.sk.state ≠ .synSent → W (c.sk.rto * 2)
  | .read _ | .abort | .dispatch _ | .tick _ | .fcntl _ | .adjustPmtu6 _ => True

theorem resume_timerOps {c : Conn} {i : Nat} (h : c.Arms W (.resume i)) : Ops W c.sk.timing (c.resume i).sk.timing := by
  unfold Conn.resume
  cases hi : c.calls[i]? with
  | none => exact .refl
  | some call =>
    have ha : call.writes → c.sk.ArmsFor W := fun hw => h (by rw [hi]; exact hw)
    cases call with
    | recv len got =>
      dsimp only
      rw [settleRead_sk]
      exact tcpReceiveTurn_timerOps _ _ _
    | send mss chunk rest len =>
      dsimp only
      rw [settle_timing]
      simp only [resumeSend]
      split
      · exact (tcpQueueTransmitSkb_timerOps (fun _ => ha rfl) _).trans
          (tcpSendLoop_timerOps _ _ _ (tcpQueueTransmitSkb_armsFor (ha rfl) _) _)
      · exact .refl
    | fin lastAck =>
      dsimp only
      rw [settle_timing]
      exact tcpQueueFin_timerOps (ha rfl) lastAck

theorem adjustPmtu6_timing (s : TcpSock) (mss : U16) : (adjustPmtu6 s mss).timing = s.timing := by
  unfold adjustPmtu6
  split <;> rfl

/-- **Every event but the passing of time is a chain of timer operations.** -/
theorem step_timerOps {c : Conn} {e : Event} (h : c.Arms W e) (ht : ∀ ms, e ≠ .tick ms) :
    Ops W c.sk.timing (c.step e).sk.timing := by
  unfold step
  split
  · exact .refl
  · cases e with
    | segment th data psh => exact segmentArrives_timerOps h
    | write buf =>
      dsimp only
      rw [settle_timing]
      exact tcpWrite_timerOps (fun ha _ => h ha) buf
    | read len =>
      dsimp only
      rw [settleRead_sk]
      exact tcpRead_timerOps _ _
    | close =>
      dsimp only
      rw [settle_timing]
      exact tcpClose_timerOps fun hs _ => h hs
    | abort => exact tcpAbort_timerOps _
    | resume i => exact resume_timerOps h
    | dispatch i => exact dispatch_timerOps _ _
    | handler i => exact handle_timerOps h
    | tick ms => exact absurd rfl (ht ms)
    | fcntl nonblock => exact .refl
    | adjustPmtu6 mss => exact .of_eq (adjustPmtu6_timing _ _)

theorem arms_any (c : Conn) (e : Event) : c.Arms (fun _ => True) e := by
  cases e with
  | segment th data psh => exact ⟨fun _ _ => trivial, fun _ => trivial, fun _ _ => trivial⟩
  | write buf => exact fun _ => trivial
  | close => exact fun _ => trivial
  | resume i => exact fun _ _ => trivial
  | handler i => exact fun _ _ _ => trivial
  | read len | abort | dispatch i | tick ms | fcntl nonblock | adjustPmtu6 mss => trivial

/-- Whatever the timers are set for, an event keeps them told apart. -/
theorem step_timing_ok {c : Conn} (h : c.sk.timing.Ok) (e : Event) : (c.step e).sk.timing.Ok := by
  by_cases ht : ∃ ms, e = .tick ms
  · obtain ⟨ms, rfl⟩ := ht
    unfold step
    split
    · exact h
    · exact h.shrink (fun _ ht => ht) (fun _ hx => hx) le_rfl le_rfl (.inr rfl) (.inr rfl)
  · exact h.ops (step_timerOps (c.arms_any e) fun ms he => ht ⟨ms, he⟩)

end Conn

/-! ## Over a socket's life -/

theorem tcpConnect_timing {s : TcpSock} (hs : s.state = .close) (iss : U32) : (tcpConnect s iss).timing =
    (tcpQueueTransmitSkb (synSock s iss) (synSkb (synSock s iss))).timing := by
  rw [tcpConnect_eq hs]
  rfl

/-- The SYN is armed by SYN_SENT's handler. -/
theorem inetStreamConnect_timerOps (s : TcpSock) (d : Dest) (iss : U32) : Ops W s.timing (inetStreamConnect s d iss).timing := by
  rcases inetStreamConnect_cases s d iss with ⟨hs, ho⟩ | ⟨err, ho⟩
  · rw [ho]
    show Ops W s.timing (tcpConnect (s.addressed d) iss).timing
    rw [tcpConnect_timing (s := s.addressed d) hs]
    exact tcpQueueTransmitSkb_timerOps (s := synSock (s.addressed d) iss) (fun _ hne => absurd rfl hne) _
  · rw [ho]
    exact .refl

theorem tcpV4Listen_timing (s : TcpSock) : (tcpV4Listen s).timing = s.timing := by
  rcases tcpV4Listen_cases s with ⟨-, ho⟩ | ho <;> rw [ho]
  rfl

theorem Conn.live_timing_ok {c : Conn} (h : c.sk.timing.Ok) (e : LifeEvent) : (c.live e).sk.timing.Ok := by
  cases e with
  | conn e => exact step_timing_ok h e
  | listen =>
    simp only [live]
    split
    · exact h
    · rw [tcpV4Listen_timing]
      exact h
  | connect d iss =>
    simp only [live]
    split
    · exact h
    · exact h.ops (inetStreamConnect_timerOps (W := fun _ => True) _ d iss)

theorem Timing.ok_of_idle {g : Timing} (ht : g.timers = []) (hsp : g.spawned = []) (hd : g.delack = none) (hl : g.linger = none) :
    g.Ok := by
  refine ⟨?_, ?_, ?_, ?_⟩
  · rw [ht]
    simp
  · rw [hd]
    exact .of_none
  · rw [hl]
    exact .of_none
  · rw [Timing.pending, ht, hsp]
    simp

/-- A child starts without timers. -/
theorem forkSocket_timing (l : TcpSock) (th : Tcphdr) (env : SynEnv) :
    (forkSocket l th env).timing = { tcpAllocSock.timing with tick := l.tick } := by
  have hp := tcpParseOpts_timing (tcpAllocSock.setState .synReceived) th
  unfold forkSocket
  dsimp only
  split
  · exact congrArg (fun g : Timing => { g with tick := l.tick }) hp
  · exact congrArg (fun g : Timing => { g with tick := l.tick }) hp

/-- The child of a listener has an RTO of 0, and its SYN-ACK timer is set for
that. -/
theorem tcpListen_timing {l s : TcpSock} {th : Tcphdr} {env : SynEnv} (h : tcpListen l th env = some s) :
    s.timing = Timing.rearm { tcpAllocSock.timing with tick := l.tick } false 0 := by
  unfold tcpListen at h
  split at h
  · have ht : TcpSock.timing { forkSocket l th env with ptsk := some env.listener } = { tcpAllocSock.timing with tick := l.tick } :=
      forkSocket_timing l th env
    have hc := forkSocket_core l th env
    have hst : (forkSocket l th env).state = .synReceived := congrArg Core.state hc
    have hq : (forkSocket l th env).writeQueue.isEmpty = true := by
      rw [← queue_isEmpty, hc]
      rfl
    have hr : (forkSocket l th env).rto = 0 := by
      have hp : (tcpParseOpts (tcpAllocSock.setState .synReceived) th).rto = 0 := by
        simp only [tcpParseOpts]
        split <;> rfl
      unfold forkSocket
      dsimp only
      split
      · exact hp
      · exact hp
    generalize forkSocket l th env = u at ht hst hq hr h
    have harm : (tcpSendSynack { u with ptsk := some env.listener }).timing =
        Timing.rearm { tcpAllocSock.timing with tick := l.tick } false 0 := by
      rw [tcpSendSynack, if_neg (by simp [hst])]
      refine (tcpQueueTransmitSkb_timing { u with ptsk := some env.listener } _).trans ?_
      rw [if_pos hq, TcpSock.armed, ht, TcpSock.rtoWait]
      simp only [hst, hr]
      rfl
    generalize tcpSendSynack { u with ptsk := some env.listener } = t at harm h
    rw [← Option.some.inj h]
    exact harm
  · cases h

theorem Born.timing_ok {s : TcpSock} (hb : Born s) : s.timing.Ok := by
  cases hb with
  | fresh o => exact Timing.ok_of_idle rfl rfl rfl rfl
  | forked _ hc =>
    rw [tcpListen_timing hc]
    exact (Timing.ok_of_idle rfl rfl rfl rfl).rearm _ _

end LevelIp
