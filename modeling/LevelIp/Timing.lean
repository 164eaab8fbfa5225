/-
The timers of a socket: the three it holds a reference to, the entries on the
timer list, the handlers already dispatched, the RTO epoch. What each function
of the source does to them; most leave them alone.
-/
import LevelIp.Arrival
import LevelIp.StepMoves

namespace LevelIp

structure Timing where
  retransmit : Option Timer
  delack : Option Timer
  linger : Option Timer
  timers : List Timer
  spawned : List Handler
  nextTimer : Nat
  rtoEpoch : Nat
  tick : U32
deriving DecidableEq

def TcpSock.timing (s : TcpSock) : Timing :=
  { retransmit := s.retransmit, delack := s.delack, linger := s.linger, timers := s.timers, spawned := s.spawned
    nextTimer := s.nextTimer, rtoEpoch := s.rtoEpoch, tick := s.tick }

namespace Timing

/-- `timer_cancel`. -/
def cancel (g : Timing) (t : Option Timer) : Timing :=
  match t with
  | none => g
  | some t => { g with timers := g.timers.filter (·.id ≠ t.id) }

/-- A new entry on the timer list. -/
def add (g : Timing) (expire : U32) (h : Handler) : Timing :=
  { g with timers := g.timers ++ [⟨g.nextTimer, g.tick + expire, h⟩], nextTimer := g.nextTimer + 1 }

/-- `tcp_stop_rto_timer`. -/
def stopRto (g : Timing) : Timing := { g.cancel g.retransmit with retransmit := none, rtoEpoch := g.rtoEpoch + 1 }

/-- `tcp_release_rto_timer`. -/
def releaseRto (g : Timing) : Timing := { g with retransmit := none }

def stopDelack (g : Timing) : Timing := { g.cancel g.delack with delack := none }

def stopLinger (g : Timing) : Timing := { g.cancel g.linger with linger := none }

/-- `tcp_clear_timers`. -/
def clear (g : Timing) : Timing := g.stopRto.stopDelack.stopLinger

/-- `tcp_rearm_rto_timer`, in SYN_SENT or not. -/
def rearm (g : Timing) (syn : Bool) (expire : U32) : Timing :=
  let h : Handler := if syn then .connectRto (g.rtoEpoch + 1) else .retransmissionTimeout (g.rtoEpoch + 1)
  { g.add expire h with
    retransmit := some ⟨g.nextTimer, g.tick + expire, h⟩
    rtoEpoch := g.rtoEpoch + 1 }

def armDelack (g : Timing) : Timing :=
  { g.add 200 .sendDelack with delack := some ⟨g.nextTimer, g.tick + 200, .sendDelack⟩ }

def armLinger (g : Timing) (expire : U32) (h : Handler) : Timing :=
  { g.add expire h with linger := some ⟨g.nextTimer, g.tick + expire, h⟩ }

/-- `tcp_enter_time_wait`. -/
def timeWait (g : Timing) : Timing := g.clear.armLinger TCP_2MSL .linger

/-- `tcp_rearm_user_timeout` outside TIME_WAIT. -/
def userTimeout (g : Timing) : Timing := (g.cancel g.linger).armLinger TCP_USER_TIMEOUT .userTimeout

end Timing

/-- How long `tcp_rearm_rto_timer` sets the timer. -/
def TcpSock.rtoWait (s : TcpSock) : U32 := if s.state = .synSent then TCP_SYN_BACKOFF <<< s.backoff.toNat else s.rto

/-- The timers after `tcp_rearm_rto_timer`. -/
def TcpSock.armed (s : TcpSock) : Timing := s.timing.rearm (s.state = .synSent) s.rtoWait

/-! ## The timer routines -/

theorem timerCancel_timing (s : TcpSock) (t : Option Timer) : (s.timerCancel t).timing = s.timing.cancel t := by
  cases t <;> rfl

theorem tcpStopRtoTimer_timing (s : TcpSock) : (tcpStopRtoTimer s).timing = s.timing.stopRto := by
  have h := timerCancel_timing s s.retransmit
  unfold tcpStopRtoTimer Timing.stopRto
  generalize s.timerCancel s.retransmit = t at h
  rw [show s.timing.retransmit = s.retransmit from rfl, ← h]
  rfl

theorem tcpStopDelackTimer_timing (s : TcpSock) : (tcpStopDelackTimer s).timing = s.timing.stopDelack := by
  have h := timerCancel_timing s s.delack
  unfold tcpStopDelackTimer Timing.stopDelack
  generalize s.timerCancel s.delack = t at h
  rw [show s.timing.delack = s.delack from rfl, ← h]
  rfl

theorem tcpStopLinger_timing (s : TcpSock) : (tcpStopLinger s).timing = s.timing.stopLinger := by
  have h := timerCancel_timing s s.linger
  unfold tcpStopLinger Timing.stopLinger
  generalize s.timerCancel s.linger = t at h
  rw [show s.timing.linger = s.linger from rfl, ← h]
  rfl

theorem tcpClearTimers_timing (s : TcpSock) : (tcpClearTimers s).timing = s.timing.clear := by
  rw [tcpClearTimers, tcpStopLinger_timing, tcpStopDelackTimer_timing, tcpStopRtoTimer_timing, Timing.clear]

theorem tcpRearmRtoTimer_timing (s : TcpSock) : (tcpRearmRtoTimer s).timing = s.armed := by
  unfold tcpRearmRtoTimer TcpSock.armed TcpSock.rtoWait
  dsimp only [tcpReleaseRtoTimer]
  by_cases h : s.state = .synSent
  · simp only [h, if_true, decide_true]
    rfl
  · simp only [h, if_false, decide_false]
    rfl

theorem tcpRearmUserTimeout_timing (s : TcpSock) :
    (tcpRearmUserTimeout s).timing = if s.state = .timeWait then s.timing else s.timing.userTimeout := by
  unfold tcpRearmUserTimeout
  split
  · rfl
  · have h := timerCancel_timing s s.linger
    unfold Timing.userTimeout
    dsimp only
    generalize s.timerCancel s.linger = t at h
    rw [show s.timing.linger = s.linger from rfl, ← h]
    rfl

theorem tcpEnterTimeWait_timing (s : TcpSock) : (tcpEnterTimeWait s).timing = s.timing.timeWait := by
  have h := tcpClearTimers_timing (s.setState .timeWait)
  unfold tcpEnterTimeWait Timing.timeWait
  dsimp only
  generalize tcpClearTimers (s.setState .timeWait) = t at h
  rw [show s.timing = (s.setState .timeWait).timing from rfl, ← h]
  rfl

theorem tcpDone_timing (s : TcpSock) : (tcpDone s).timing = s.timing.clear := tcpClearTimers_timing (s.setState .closing)

/-! ## What leaves the timers alone -/

theorem tcpTransmitSkb_timing (s : TcpSock) (skb : Skb) (seq : U32) : (tcpTransmitSkb s skb seq).timing = s.timing := by
  simp only [tcpTransmitSkb, tcpWriteOptionsClear]
  split
  · split <;> rfl
  · rfl

theorem tcpSendAck_timing (s : TcpSock) : (tcpSendAck s).timing = s.timing := by
  unfold tcpSendAck
  split
  · rfl
  · exact tcpTransmitSkb_timing _ _ _

theorem tcpSendReset_timing (s : TcpSock) : (tcpSendReset s).timing = s.timing := tcpTransmitSkb_timing _ _ _

theorem tcpAbort_timing (s : TcpSock) : (tcpAbort s).timing = s.timing.clear := by
  rw [tcpAbort, tcpDone_timing, tcpSendReset_timing]

theorem tcpRtt_timing (s : TcpSock) : (tcpRtt s).timing = s.timing := by
  unfold tcpRtt
  split
  · rfl
  · split
    · rfl
    · dsimp only
      split
      · rfl
      · split <;> rfl

theorem renumSock_timing (s : TcpSock) (k : Skb) : (renumSock s k).timing = s.timing :=
  tcpTransmitSkb_timing s k s.tcb.sndNxt

theorem tcpSendNextLoop_timing (limit : U32) (amount : Nat) (visited rest : List Skb) (s : TcpSock) :
    (tcpSendNextLoop limit amount visited rest s).timing = s.timing := by
  induction rest generalizing amount visited s with
  | nil => cases amount <;> rfl
  | cons k rest ih =>
    cases amount with
    | zero => rfl
    | succ amount =>
      by_cases h0 : k.seq = 0
      · by_cases hroom : s.inflight + k.dlen > limit
        · rw [tcpSendNextLoop, if_neg (not_not.mpr h0), if_pos hroom]
          rfl
        · rw [tcpSendNextLoop_turn h0 hroom, ih, renumSock_timing]
      · rw [tcpSendNextLoop, if_pos h0, ih]

theorem tcpSendNext_timing (s : TcpSock) (amount : Nat) (extra : U32) : (tcpSendNext s amount extra).timing = s.timing :=
  tcpSendNextLoop_timing _ _ _ _ _

theorem tcpCongAvoid_timing (s : TcpSock) (n : U32) : (tcpCongAvoid s n).timing = s.timing := by
  unfold tcpCongAvoid
  split
  · rfl
  · split
    · rfl
    · split
      · rfl
      · dsimp only
        split <;> rfl

theorem tcpCleanLoop_timing (a : U32) (q : List Skb) (s : TcpSock) : (tcpCleanLoop a q s).timing = s.timing := by
  induction q generalizing s with
  | nil => rfl
  | cons k q ih =>
    rw [tcpCleanLoop]
    split
    · rw [ih]
      exact tcpCongAvoid_timing _ _
    · rfl

theorem tcpCalculateSacks_timing (s : TcpSock) (seq endSeq : U32) : (tcpCalculateSacks s seq endSeq).timing = s.timing := by
  have hloop : ∀ (q : List Skb) (t : TcpSock) (sb : Nat), (tcpCalculateSacksLoop seq endSeq q t sb).timing = t.timing := by
    intro q
    induction q with
    | nil => exact fun _ _ => rfl
    | cons next rest ih =>
      intro t sb
      simp only [tcpCalculateSacksLoop]
      split
      · exact ih _ _
      · split
        · rfl
        · split
          · exact ih _ _
          · split <;> exact ih _ _
  exact hloop _ _ _

theorem tcpParseOpts_timing (s : TcpSock) (th : Tcphdr) : (tcpParseOpts s th).timing = s.timing := by
  simp only [tcpParseOpts]
  split <;> rfl

theorem tcpDataQueue_timing (s : TcpSock) (skb : Skb) : (tcpDataQueue s skb).timing = s.timing := by
  unfold tcpDataQueue
  split
  · rfl
  · split
    · rfl
    · dsimp only
      rw [tcpSendAck_timing]
      split
      · exact tcpCalculateSacks_timing _ _ _
      · rfl

theorem segmentText_timing (s : TcpSock) (th : Tcphdr) (skb : Skb) : (segmentText s th skb).timing = s.timing := by
  unfold segmentText
  split
  case h_4 => rfl
  all_goals
    split
    · exact tcpDataQueue_timing s skb
    · rfl

theorem tcpDataDequeue_timing (s : TcpSock) (n : Nat) : (tcpDataDequeue s n).1.timing = s.timing := by
  simp only [tcpDataDequeue]
  split <;> rfl

theorem tcpHandleFinState_timing (s : TcpSock) : (tcpHandleFinState s).timing = s.timing := by
  unfold tcpHandleFinState
  split <;> rfl

/-! ## What moves them -/

theorem tcpSendDelack_timing (s : TcpSock) : (tcpSendDelack s).timing = { s.timing with delack := none } :=
  tcpSendAck_timing _

theorem tcpQueueTransmitSkb_timing (s : TcpSock) (skb : Skb) :
    (tcpQueueTransmitSkb s skb).timing = if s.writeQueue.isEmpty then s.armed else s.timing := by
  unfold tcpQueueTransmitSkb
  dsimp only
  rw [tcpTransmitSkb_timing]
  split
  · exact tcpRearmRtoTimer_timing _
  · rfl

/-- `tcp_clean_rto_queue` stops the RTO timer on what it leaves: nothing queued,
or nothing in flight. -/
def SndSide.idle (d : SndSide) : Bool := d.queue.isEmpty || d.inflight = 0

theorem tcpCleanRtoQueue_timing (s : TcpSock) (a : U32) :
    (tcpCleanRtoQueue s a).timing = if (s.core.snd.clean a).idle then s.timing.stopRto else s.timing := by
  have ht := tcpCleanLoop_timing a s.writeQueue s
  have hc := congrArg Core.snd (tcpCleanLoop_core a s.writeQueue s)
  have hi : ((tcpCleanLoop a s.writeQueue s).writeQueue.isEmpty || (tcpCleanLoop a s.writeQueue s).inflight = 0) =
      (s.core.snd.clean a).idle := by
    rw [← queue_isEmpty]
    exact congrArg SndSide.idle hc
  unfold tcpCleanRtoQueue
  dsimp only
  rw [hi]
  split
  · rw [tcpStopRtoTimer_timing, ht]
  · exact ht

/-- Transmitting changes nothing the next arming reads. -/
theorem tcpTransmitSkb_armed (s : TcpSock) (skb : Skb) (seq : U32) : (tcpTransmitSkb s skb seq).armed = s.armed := by
  simp only [tcpTransmitSkb, tcpWriteOptionsClear]
  split
  · split <;> rfl
  · rfl

theorem tcpEnterFastRecovery_timing (s : TcpSock) : (tcpEnterFastRecovery s).timing = s.armed := by
  have h : (tcpFastRetransmit { s with ssthresh := umax (s.inflight / 2) (2 * U16.wide s.smss) }).armed = s.armed := by
    unfold tcpFastRetransmit
    split
    · rfl
    · exact tcpTransmitSkb_armed _ _ _
  unfold tcpEnterFastRecovery
  dsimp only
  rw [tcpRearmRtoTimer_timing]
  exact h

/-- A third duplicate ACK re-arms the RTO timer. -/
theorem tcpHandleDupack_timing (s : TcpSock) :
    (tcpHandleDupack s).timing = if s.dupacks + 1 = 3 then s.armed else s.timing := by
  have h : (dupackAction { s with dupacks := s.dupacks + 1 }).1.timing = if s.dupacks + 1 = 3 then s.armed else s.timing := by
    unfold dupackAction
    by_cases h1 : s.dupacks + 1 < 3
    · have h2 : s.dupacks + 1 ≠ 3 := fun h => by rw [h] at h1; exact absurd h1 (by decide)
      rw [if_pos h1, if_neg h2]
      rfl
    · rw [if_neg h1]
      by_cases h2 : s.dupacks + 1 = 3
      · rw [if_pos h2, if_pos h2]
        exact tcpEnterFastRecovery_timing _
      · rw [if_neg h2, if_neg h2]
        rfl
  unfold tcpHandleDupack
  dsimp only
  split
  · rw [tcpSendNext_timing, h]
  · exact h

theorem newAck_timing (s : TcpSock) (th : Tcphdr) : (newAck s th).timing =
    if (s.core.snd.acked th.ackSeq).idle then s.timing.stopRto else s.timing := by
  have hr : (tcpRtt { s with tcb.sndUna := th.ackSeq }).core.snd = { s.core.snd with una := th.ackSeq } :=
    congrArg Core.snd (quiet_tcpRtt _).core
  have ht := tcpCleanRtoQueue_timing (tcpRtt { s with tcb.sndUna := th.ackSeq }) th.ackSeq
  rw [hr, tcpRtt_timing] at ht
  unfold newAck
  dsimp only
  split
  · exact ht
  · exact ht

theorem ackChecked_timing (s : TcpSock) (th : Tcphdr) : (ackChecked s th).sock.timing = s.timing := by
  unfold ackChecked
  split
  · rfl
  · split
    · rfl
    · dsimp only
      split <;> rfl

theorem ackSynchronized_timing (s : TcpSock) (th : Tcphdr) (skb : Skb) : (ackSynchronized s th skb).sock.timing =
    if tcpIsDupack s th skb then if s.dupacks + 1 = 3 then s.armed else s.timing
    else if ackIsNew s th then if (s.core.snd.acked th.ackSeq).idle then s.timing.stopRto else s.timing
    else s.timing := by
  unfold ackSynchronized
  split
  · exact tcpHandleDupack_timing s
  · rw [ackChecked_timing]
    split
    · exact newAck_timing s th
    · rfl

/-! ## Telling the timers apart -/

/-- The epoch an RTO handler was armed with. -/
def Handler.epoch? : Handler → Option Nat
  | .connectRto n | .retransmissionTimeout n => some n
  | .sendDelack | .linger | .userTimeout => none

namespace Timing

/-- The handlers still to run: those of the timers on the list, and those
already dispatched. -/
def pending (g : Timing) : List Handler := g.timers.map (·.handler) ++ g.spawned

theorem mem_pending {g : Timing} {h : Handler} : h ∈ g.pending ↔ (∃ t ∈ g.timers, t.handler = h) ∨ h ∈ g.spawned := by
  simp [pending]

/-- A timer field holds a timer of a handler that `P` describes, and no other
entry of the list has its identity. -/
def Refers (g : Timing) (o : Option Timer) (P : Handler → Prop) : Prop :=
  ∀ t, o = some t → P t.handler ∧ t.id < g.nextTimer ∧ ∀ u ∈ g.timers, u.id = t.id → u = t

/-- The fields refer to timers of their own kind, and no RTO handler is from
a later epoch. -/
structure Ok (g : Timing) : Prop where
  fresh : ∀ t ∈ g.timers, t.id < g.nextTimer
  delack : g.Refers g.delack (·.epoch? = none)
  linger : g.Refers g.linger (·.epoch? = none)
  bound : ∀ h ∈ g.pending, ∀ n, h.epoch? = some n → n ≤ g.rtoEpoch

variable {g g' : Timing}

theorem Refers.of_none {P : Handler → Prop} : g.Refers none P := nofun

/-- Fewer timers, a later epoch, a field given up: nothing that harms. -/
theorem Ok.shrink (h : g.Ok) (ht : ∀ t ∈ g'.timers, t ∈ g.timers) (hp : ∀ x ∈ g'.pending, x ∈ g.pending)
    (hn : g.nextTimer ≤ g'.nextTimer) (he : g.rtoEpoch ≤ g'.rtoEpoch) (hd : g'.delack = none ∨ g'.delack = g.delack)
    (hl : g'.linger = none ∨ g'.linger = g.linger) : g'.Ok := by
  have refers : ∀ {o o' : Option Timer}, o' = none ∨ o' = o → g.Refers o (·.epoch? = none) →
      g'.Refers o' (·.epoch? = none) := by
    rintro o o' (rfl | rfl) hr
    · exact .of_none
    · intro t hto
      obtain ⟨hP, hlt, hu⟩ := hr t hto
      exact ⟨hP, hlt.trans_le hn, fun u hu' => hu u (ht u hu')⟩
  exact
    { fresh := fun t hm => (h.fresh t (ht t hm)).trans_le hn
      delack := refers hd h.delack
      linger := refers hl h.linger
      bound := fun x hx n hxn => (h.bound x (hp x hx) n hxn).trans he }

theorem pending_add (g : Timing) (expire : U32) (h : Handler) :
    (g.add expire h).pending = g.timers.map (·.handler) ++ h :: g.spawned := by
  simp [pending, add]

theorem mem_pending_add {expire : U32} {h x : Handler} : x ∈ (g.add expire h).pending ↔ x = h ∨ x ∈ g.pending := by
  rw [pending_add, pending, List.mem_append, List.mem_cons, List.mem_append, or_left_comm]

theorem Refers.add {o : Option Timer} {P : Handler → Prop} (h : g.Refers o P) (expire : U32) (x : Handler) :
    (g.add expire x).Refers o P := by
  intro t ht
  obtain ⟨hP, hlt, hu⟩ := h t ht
  refine ⟨hP, hlt.trans (Nat.lt_succ_self _), fun u hm hid => ?_⟩
  rcases List.mem_append.mp hm with hm | hm
  · exact hu u hm hid
  · rw [List.mem_singleton.mp hm] at hid
    exact absurd hid hlt.ne'

/-- The field the new timer is put into. -/
theorem Ok.refers_new (h : g.Ok) (expire : U32) {x : Handler} {P : Handler → Prop} (hP : P x) :
    (g.add expire x).Refers (some ⟨g.nextTimer, g.tick + expire, x⟩) P := by
  rintro t ⟨⟩
  refine ⟨hP, Nat.lt_succ_self _, fun u hm hid => ?_⟩
  rcases List.mem_append.mp hm with hm | hm
  · exact absurd hid (h.fresh u hm).ne
  · exact List.mem_singleton.mp hm

theorem Ok.add (h : g.Ok) (expire : U32) {x : Handler} (hx : ∀ n, x.epoch? = some n → n ≤ g.rtoEpoch) :
    (g.add expire x).Ok :=
  { fresh := fun t hm => by
      rcases List.mem_append.mp hm with hm | hm
      · exact (h.fresh t hm).trans (Nat.lt_succ_self _)
      · rw [List.mem_singleton.mp hm]
        exact Nat.lt_succ_self _
    delack := h.delack.add expire x
    linger := h.linger.add expire x
    bound := fun y hy n hn => by
      rcases mem_pending_add.mp hy with rfl | hy
      · exact hx n hn
      · exact h.bound y hy n hn }

theorem timers_cancel (g : Timing) (o : Option Timer) : ∀ t ∈ (g.cancel o).timers, t ∈ g.timers := by
  cases o with
  | none => exact fun _ h => h
  | some t => exact fun u hu => List.mem_of_mem_filter hu

theorem pending_cancel (g : Timing) (o : Option Timer) : ∀ x ∈ (g.cancel o).pending, x ∈ g.pending := by
  intro x hx
  have hs : (g.cancel o).spawned = g.spawned := by cases o <;> rfl
  rcases mem_pending.mp hx with ⟨t, ht, rfl⟩ | hx
  · exact mem_pending.mpr (.inl ⟨t, timers_cancel g o t ht, rfl⟩)
  · exact mem_pending.mpr (.inr (hs ▸ hx))

@[simp] theorem cancel_nextTimer (g : Timing) (o : Option Timer) : (g.cancel o).nextTimer = g.nextTimer := by cases o <;> rfl
@[simp] theorem cancel_rtoEpoch (g : Timing) (o : Option Timer) : (g.cancel o).rtoEpoch = g.rtoEpoch := by cases o <;> rfl
@[simp] theorem cancel_delack (g : Timing) (o : Option Timer) : (g.cancel o).delack = g.delack := by cases o <;> rfl
@[simp] theorem cancel_linger (g : Timing) (o : Option Timer) : (g.cancel o).linger = g.linger := by cases o <;> rfl
@[simp] theorem cancel_tick (g : Timing) (o : Option Timer) : (g.cancel o).tick = g.tick := by cases o <;> rfl

theorem Ok.cancel (h : g.Ok) (o : Option Timer) : (g.cancel o).Ok :=
  h.shrink (timers_cancel g o) (pending_cancel g o) (by simp) (by simp) (by simp) (by simp)

theorem Ok.stopRto (h : g.Ok) : g.stopRto.Ok :=
  (h.cancel g.retransmit).shrink (fun _ ht => ht) (fun _ hx => hx) le_rfl (by simp [Timing.stopRto]) (.inr rfl) (.inr rfl)

theorem Ok.stopDelack (h : g.Ok) : g.stopDelack.Ok :=
  (h.cancel g.delack).shrink (fun _ ht => ht) (fun _ hx => hx) le_rfl le_rfl (.inl rfl) (.inr rfl)

theorem Ok.stopLinger (h : g.Ok) : g.stopLinger.Ok :=
  (h.cancel g.linger).shrink (fun _ ht => ht) (fun _ hx => hx) le_rfl le_rfl (.inr rfl) (.inl rfl)

theorem Ok.clear (h : g.Ok) : g.clear.Ok := h.stopRto.stopDelack.stopLinger

theorem Ok.rearm (h : g.Ok) (syn : Bool) (expire : U32) : (g.rearm syn expire).Ok := by
  have h1 : Ok { g with rtoEpoch := g.rtoEpoch + 1 } :=
    h.shrink (fun _ ht => ht) (fun _ hx => hx) le_rfl (Nat.le_succ _) (.inr rfl) (.inr rfl)
  have h2 := h1.add expire (x := if syn then .connectRto (g.rtoEpoch + 1) else .retransmissionTimeout (g.rtoEpoch + 1))
    fun n hn => by
      cases syn
      · exact (Option.some.inj hn).ge
      · exact (Option.some.inj hn).ge
  exact h2.shrink (fun _ ht => ht) (fun _ hx => hx) le_rfl le_rfl (.inr rfl) (.inr rfl)

theorem Ok.armDelack (h : g.Ok) : g.armDelack.Ok :=
  have ha : (g.add 200 .sendDelack).Ok := h.add 200 nofun
  have hr := h.refers_new 200 (x := .sendDelack) (P := (·.epoch? = none)) rfl
  ⟨ha.fresh, hr, ha.linger, ha.bound⟩

theorem Ok.armLinger (h : g.Ok) (expire : U32) {x : Handler} (hx : x.epoch? = none) : (g.armLinger expire x).Ok :=
  have ha : (g.add expire x).Ok := h.add expire fun n hn => by rw [hx] at hn; cases hn
  have hr := h.refers_new expire (x := x) (P := (·.epoch? = none)) hx
  ⟨ha.fresh, ha.delack, hr, ha.bound⟩

theorem Ok.timeWait (h : g.Ok) : g.timeWait.Ok := h.clear.armLinger TCP_2MSL rfl

theorem Ok.userTimeout (h : g.Ok) : g.userTimeout.Ok := (h.cancel g.linger).armLinger TCP_USER_TIMEOUT rfl

end Timing

end LevelIp
