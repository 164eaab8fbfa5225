/-
The epochs of RTO timers, on the timer list of `timer.c`.

`tcp_rearm_rto_timer` only releases the timer it replaces, so handlers of old
armings may still come. Each is handed a `struct rto_timer_arg` with the epoch
of its arming, and once it has the socket lock compares it with `rto_epoch`,
which every arming and every stop has advanced. The epochs have 64 bits: after
2^64 more armings and stops an old handler would be taken for the current one.

`rtoEpoch` counts armings and stops; what the socket and the arguments hold of
it are 64 bits. The timers here are those of `timer.c`, and the list that a
`TcpSock` keeps of its own is not looked at. `malloc` is assumed to succeed.
-/
import LevelIp.TimerLife
import LevelIp.Timing
import LevelIp.StepMoves
import LevelIp.Lib.Table

namespace LevelIp

/-- `struct rto_timer_arg` and where it lies; `tsk` is the one socket. -/
structure RtoTimerArg where
  addr : Nat
  epoch : BitVec 64
deriving DecidableEq

/-- The two handlers of RTO timers. -/
inductive RtoHandler where
  | connectRto
  | retransmissionTimeout
deriving DecidableEq

namespace RtoHandler

/-- The handler a timer of the socket was added with. -/
def of : Handler → RtoHandler
  | .connectRto _ => .connectRto
  | .retransmissionTimeout _ | .sendDelack | .linger | .userTimeout => .retransmissionTimeout

/-- The handler with the epoch it was handed. -/
def on (epoch : Nat) : RtoHandler → Handler
  | .connectRto => .connectRto epoch
  | .retransmissionTimeout => .retransmissionTimeout epoch

end RtoHandler

/-- A socket with its RTO timers: `retransmit` is the timer that
`tsk->retransmit` points to, `freed` what its handlers gave to `free`. For the
proofs, `armed` has the epoch of every arming and `fired` the armings that took
effect; an arming is known by its number, which is the address of its timer and
of its argument. -/
structure RtoWorld where
  sk : TcpSock
  world : TimerWorld RtoHandler RtoTimerArg := {}
  retransmit : Option Nat := none
  freed : List RtoTimerArg := []
  armed : List Nat := []
  fired : List Nat := []

inductive RtoEvent where
  | rearm
  | stop
  /-- Whatever else happens to the socket. -/
  | other (t : TcpSock)
  | clock
  /-- A pass of `timers_tick` comes to timer `t` and gets its lock. -/
  | visit (t : Nat)
  /-- The `i`th thread gets the socket lock. -/
  | lock (i : Nat)

namespace RtoWorld

/-- `timer.c` is told what a function made of the socket: the timer it had is
released or cancelled, and one that it has now is new. -/
def told (h : RtoWorld) (sk : TcpSock) (cancels : Bool) : RtoWorld :=
  let w := match h.retransmit with
    | none => h.world
    | some t => h.world.step (if cancels then .cancel t else .release t)
  match sk.retransmit with
  | none => { h with sk := sk, world := w, retransmit := none }
  | some t =>
    { h with
      sk := sk
      world := w.step (.add (t.expires - h.sk.tick) (.of t.handler) (some ⟨w.base.nextId, BitVec.ofNat 64 sk.rtoEpoch⟩) true)
      retransmit := some w.base.nextId
      armed := h.armed ++ [sk.rtoEpoch] }

/-- A thread is done with its argument. -/
def finish (h : RtoWorld) (i : Nat) (a : RtoTimerArg) : RtoWorld :=
  { h with world.base.threads := h.world.base.threads.eraseIdx i, freed := h.freed ++ [a] }

/-- `tcp_connect_rto` and `tcp_retransmission_timeout`, from where they hold the
socket lock. -/
def lock (h : RtoWorld) (i : Nat) : RtoWorld :=
  match h.world.base.threads[i]? with
  | some (hd, some a) =>
    if a.epoch ≠ BitVec.ofNat 64 h.sk.rtoEpoch then h.finish i a
    else
      let h := { h with fired := h.fired ++ [a.addr] }
      (h.finish i a).told (runHandler h.sk (hd.on h.sk.rtoEpoch)) false
  | some (_, none) | none => h

def step (h : RtoWorld) : RtoEvent → RtoWorld
  | .rearm => h.told (tcpRearmRtoTimer h.sk) false
  | .stop => h.told (tcpStopRtoTimer h.sk) true
  | .other t => { h with sk := { t with rtoEpoch := h.sk.rtoEpoch, retransmit := h.sk.retransmit } }
  | .clock => { h with world := h.world.step .clock }
  | .visit t => { h with world := h.world.step (.visit t) }
  | .lock i => h.lock i

abbrev run (h : RtoWorld) (es : List RtoEvent) : RtoWorld := Machine.run step h es

/-- A socket that has armed no timer. -/
def start (sk : TcpSock) : RtoWorld where sk := { sk with rtoEpoch := 0, retransmit := none }

/-! ## What is asked -/

/-- How many threads have the argument of the arming. -/
def waiting (h : RtoWorld) (t : Nat) : Nat := (h.world.base.threads.filterMap fun p => p.2.map (·.addr)).count t

/-- How often a handler has freed it. -/
def handlerFrees (h : RtoWorld) (t : Nat) : Nat := (h.freed.map (·.addr)).count t

/-- How often `timer_free` has freed it. -/
def timerFrees (h : RtoWorld) (t : Nat) : Nat := (h.world.base.freed.map (·.addr)).count t

/-- Every arming takes effect at most once. Its handler is dispatched at most
once, and then the argument is with that thread or was freed by it; otherwise it
is freed once, with the timer. -/
structure Sole (h : RtoWorld) : Prop where
  fired : ∀ t, h.fired.count t ≤ 1
  freed : ∀ t < h.armed.length, ∃ l, h.world.lives[t]? = some l ∧ l.dispatches ≤ 1 ∧ l.frees ≤ 1 ∧
    h.waiting t + h.handlerFrees t = l.dispatches ∧ h.timerFrees t = if l.frees = 1 ∧ l.dispatches = 0 then 1 else 0

/-- A handler whose arming was followed by another arming or a stop changes
nothing. -/
def VoidsStale (h : RtoWorld) (ev : RtoEvent) : Prop :=
  ∀ i, ev = .lock i → ∀ hd a n, h.world.base.threads[i]? = some (hd, some a) → h.armed[a.addr]? = some n → n < h.sk.rtoEpoch →
    (h.step ev).sk = h.sk

/-- If armings and stops came since the arming of a handler that gets the lock,
their number is no multiple of 2^64. -/
def InTime (h : RtoWorld) (ev : RtoEvent) : Prop :=
  ∀ i, ev = .lock i → ∀ hd a n, h.world.base.threads[i]? = some (hd, some a) → h.armed[a.addr]? = some n → n < h.sk.rtoEpoch →
    ¬ 2 ^ 64 ∣ h.sk.rtoEpoch - n

/-! ## Where the arguments are -/

/-- The timers and threads of armings with the epochs `armed`, where handlers
have freed `freed`. -/
structure Carries (w : TimerWorld RtoHandler RtoTimerArg) (armed : List Nat) (freed : List RtoTimerArg) : Prop where
  inv : w.Inv
  count : armed.length = w.lives.length
  lives : ∀ (t : Nat) (l : Life RtoTimerArg), w.lives[t]? = some l → l.owned = true ∧ l.argFree = true ∧
    ∃ n, armed[t]? = some n ∧ l.arg = some ⟨t, BitVec.ofNat 64 n⟩
  threads : ∀ p ∈ w.base.threads, ∃ a n, p.2 = some a ∧ armed[a.addr]? = some n ∧ a.epoch = BitVec.ofNat 64 n
  handlers : ∀ t : Nat, (w.base.threads.filterMap fun p => p.2.map (·.addr)).count t + (freed.map (·.addr)).count t =
    (w.lives[t]?).elim 0 (·.dispatches)
  timers : ∀ t : Nat, (w.base.freed.map (·.addr)).count t = (w.lives[t]?).elim 0 (·.handed.length)

namespace Carries

variable {w : TimerWorld RtoHandler RtoTimerArg} {armed : List Nat} {freed : List RtoTimerArg}

theorem init : Carries {} [] [] where
  inv := .init
  count := rfl
  lives := nofun
  threads := nofun
  handlers _ := rfl
  timers _ := rfl

theorem clock (h : Carries w armed freed) : Carries (w.step .clock) armed freed where
  inv := (h.inv.step fun _ he => by rcases he with he | he <;> cases he).1
  count := h.count
  lives := h.lives
  threads := h.threads
  handlers := h.handlers
  timers := h.timers

/-- `timer_cancel` or `timer_release`. -/
theorem call (h : Carries w armed freed) {t : Nat} {l : Life RtoTimerArg} (hl : w.lives[t]? = some l) (hc : l.calls = 0)
    {ev : TimerEvent RtoHandler RtoTimerArg} (hev : ev = .cancel t ∨ ev = .release t) : Carries (w.step ev) armed freed := by
  have hprop : w.Proper ev := by
    rintro u (rfl | rfl) <;> rcases hev with he | he <;> cases he <;> exact ⟨l, hl, (h.lives t l hl).1, hc⟩
  have hinv := (h.inv.step hprop).1
  -- a call is counted in the life, and nothing is handed on
  have hsame : ∃ f : Life RtoTimerArg → Life RtoTimerArg, (w.step ev).lives = w.lives.modify t f ∧
      (w.step ev).base.threads = w.base.threads ∧ (w.step ev).base.freed = w.base.freed ∧
      ∀ x, (f x).owned = x.owned ∧ (f x).argFree = x.argFree ∧ (f x).arg = x.arg ∧ (f x).dispatches = x.dispatches ∧ (f x).handed = x.handed := by
    rcases hev with rfl | rfl
    · exact ⟨_, rfl, rfl, rfl, fun _ => ⟨rfl, rfl, rfl, rfl, rfl⟩⟩
    · exact ⟨_, rfl, rfl, rfl, fun _ => ⟨rfl, rfl, rfl, rfl, rfl⟩⟩
  obtain ⟨f, hlives, hthreads, hfreed, hf⟩ := hsame
  have hget : ∀ j : Nat, (w.step ev).lives[j]? = w.lives[j]? ∨ (w.step ev).lives[j]? = (w.lives[j]?).map f := by
    intro j
    rw [hlives, List.getElem?_modify]
    split
    · exact .inr rfl
    · exact .inl (id_map' _)
  refine ⟨hinv, by rw [hlives, List.length_modify]; exact h.count, fun j l' hl' => ?_, by rw [hthreads]; exact h.threads,
    fun j => ?_, fun j => ?_⟩
  · rcases hget j with he | he
    · exact h.lives j l' (he ▸ hl')
    · obtain ⟨x, hx, rfl⟩ := Option.map_eq_some_iff.mp (he ▸ hl')
      rw [(hf x).1, (hf x).2.1, (hf x).2.2.1]
      exact h.lives j x hx
  · rw [hthreads, h.handlers]
    rcases hget j with he | he
    · rw [he]
    · rw [he]
      cases w.lives[j]? with
      | none => rfl
      | some x => exact (hf x).2.2.2.1.symm
  · rw [hfreed, h.timers]
    rcases hget j with he | he
    · rw [he]
    · rw [he]
      cases w.lives[j]? with
      | none => rfl
      | some x => exact congrArg List.length (hf x).2.2.2.2.symm

/-- A new arming. -/
theorem add (h : Carries w armed freed) (expire : U32) (hd : RtoHandler) (n : Nat) :
    Carries (w.step (.add expire hd (some ⟨w.base.nextId, BitVec.ofNat 64 n⟩) true)) (armed ++ [n]) freed := by
  have hlen : w.base.nextId = armed.length := h.inv.count.trans h.count.symm
  generalize hnew : ({ owned := true, arg := some ⟨w.base.nextId, BitVec.ofNat 64 n⟩, argFree := true } : Life RtoTimerArg) = new
  have hlives : (w.step (.add expire hd (some ⟨w.base.nextId, BitVec.ofNat 64 n⟩) true)).lives = w.lives ++ [new] := by
    rw [← hnew]
    rfl
  have hget : ∀ j : Nat, (w.lives ++ [new])[j]? = if j = armed.length then some new else w.lives[j]? := by
    intro j
    split
    next he => rw [he, h.count, Table.getElem?_append_new]
    next he =>
      rcases Nat.lt_or_ge j w.lives.length with hlt | hge
      · rw [List.getElem?_append_left hlt]
      · have hout : ¬ j < (w.lives ++ [new]).length := by
          rw [List.length_append, List.length_singleton]
          have := h.count
          omega
        rw [List.getElem?_eq_none (Nat.not_lt.mp hout), List.getElem?_eq_none hge]
  have hnone : w.lives[armed.length]? = none := List.getElem?_eq_none h.count.ge
  refine ⟨(h.inv.step fun _ he => by rcases he with he | he <;> cases he).1, ?_, fun j l hl => ?_, fun p hp => ?_, fun j => ?_, fun j => ?_⟩
  · rw [hlives, List.length_append, List.length_append, h.count, List.length_singleton, List.length_singleton]
  · rw [hlives, hget] at hl
    split at hl
    next he =>
      cases hl
      subst he
      rw [← hnew]
      exact ⟨rfl, rfl, n, Table.getElem?_append_new armed n, by rw [hlen]⟩
    next =>
      obtain ⟨ho, hf, m, hm, ha⟩ := h.lives j l hl
      exact ⟨ho, hf, m, Table.getElem?_append_old hm n, ha⟩
  · obtain ⟨a, m, ha, hm, he⟩ := h.threads p hp
    exact ⟨a, m, ha, Table.getElem?_append_old hm n, he⟩
  · refine (h.handlers j).trans ?_
    rw [hlives, hget]
    split
    next he => rw [he, hnone, ← hnew]; rfl
    next => rfl
  · refine (h.timers j).trans ?_
    rw [hlives, hget]
    split
    next he => rw [he, hnone, ← hnew]; rfl
    next => rfl

/-- The argument of a timer that is dispatched goes to the thread, that of one
that is freed undispatched to `free`. -/
theorem visit (h : Carries w armed freed) (t : Nat) : Carries (w.step (.visit t)) armed freed := by
  have hprop : w.Proper (.visit t) := fun _ he => by rcases he with he | he <;> cases he
  have hinv := (h.inv.step hprop).1
  cases hk : Keyed.lookup TimerEntry.id w.base.timers t with
  | none =>
    have hst : w.step (.visit t) = w := by
      unfold TimerWorld.step
      dsimp only
      rw [hk]
    rwa [hst]
  | some e =>
    have hst : w.step (.visit t) = { base := w.base.visit t, lives := w.lives.modify t (TimerWorld.visited w.base e) } := by
      unfold TimerWorld.step
      dsimp only
      rw [hk]
    have hlt : t < w.lives.length := Keyed.lookup_key hk ▸ h.inv.below e (Keyed.mem_of_lookup hk)
    have hl : w.lives[t]? = some w.lives[t] := List.getElem?_eq_getElem hlt
    generalize w.lives[t] = l at hl
    obtain ⟨ho, hf, n, hn, harg⟩ := h.lives t l hl
    obtain ⟨-, -, hfit⟩ := h.inv.fits t l hl
    obtain ⟨-, hcanc, -, hearg⟩ := hfit e hk
    have hget : ∀ j : Nat, (w.lives.modify t (TimerWorld.visited w.base e))[j]? =
        if j = t then some (TimerWorld.visited w.base e l) else w.lives[j]? := by
      intro j
      split
      next he => rw [he, List.getElem?_modify_eq, hl]; rfl
      next hne => exact List.getElem?_modify_ne _ _ (Ne.symm hne)
    -- what the visit hands on is the argument of this arming
    have hmoves : ∃ ths args : List Nat, (∀ x ∈ ths ++ args, x = t) ∧
        (w.base.visit t).threads.filterMap (fun p => p.2.map (·.addr)) = w.base.threads.filterMap (fun p => p.2.map (·.addr)) ++ ths ∧
        (w.base.visit t).freed.map (·.addr) = w.base.freed.map (·.addr) ++ args ∧
        (TimerWorld.visited w.base e l).dispatches = l.dispatches + ths.length ∧
        (TimerWorld.visited w.base e l).handed.length = l.handed.length + args.length ∧
        ∀ p ∈ (w.base.visit t).threads, p ∈ w.base.threads ∨ p.2 = some ⟨t, BitVec.ofNat 64 n⟩ := by
      unfold TimerBase.visit TimerWorld.visited
      rw [hk]
      dsimp only
      cases hdue : w.base.due [] e with
      | true =>
        have hrun : e.cancelled = false := by
          simp only [TimerBase.due, Bool.and_eq_true, Bool.not_eq_true'] at hdue
          exact hdue.1.2
        have hzero : l.dispatches = 0 := by
          by_contra hne
          have hend : e.cancelled = true := hcanc.mpr (.inr (Nat.pos_of_ne_zero hne))
          rw [hrun] at hend
          cases hend
        rw [if_pos hzero, harg] at hearg
        have hturn : w.base.turn [] e = { e with arg := none, cancelled := true } := by unfold TimerBase.turn; rw [hdue]; rfl
        refine ⟨[t], [], by simp, ?_, ?_, rfl, ?_, ?_⟩
        · rw [if_pos rfl, List.filterMap_append]
          simp [hearg]
        · rw [hturn]
          simp
        · rw [hturn]
          simp
        · intro p hp
          rcases List.mem_append.mp hp with hp | hp
          · exact .inl hp
          · rw [List.mem_singleton.mp hp]
            exact .inr hearg
      | false =>
        have hturn : w.base.turn [] e = e := by unfold TimerBase.turn; rw [hdue]; rfl
        have haddr : ∀ x ∈ e.arg.toList.map (·.addr), x = t := by
          rw [hearg]
          split <;> simp [harg]
        rw [hturn]
        refine ⟨[], if TimerBase.gone [] e && e.argFree then e.arg.toList.map (·.addr) else [], ?_, ?_, ?_, rfl, ?_, fun p hp => .inl hp⟩
        · split
          · exact haddr
          · simp
        · simp
        · split <;> simp
        · split <;> simp
    obtain ⟨ths, args, hown, hths, hargs, hdis, hhand, hnew⟩ := hmoves
    have hcount : ∀ (j : Nat) (xs : List Nat), (∀ x ∈ xs, x = t) → xs.count j = if j = t then xs.length else 0 := by
      intro j xs hx
      split
      next he => rw [he]; exact List.count_eq_length.mpr fun x hm => (hx x hm).symm
      next hne => exact List.count_eq_zero_of_not_mem fun hm => hne (hx j hm)
    rw [hst] at hinv ⊢
    refine ⟨hinv, by rw [List.length_modify]; exact h.count, fun j l' hl' => ?_, fun p hp => ?_, fun j => ?_, fun j => ?_⟩
    · rw [hget] at hl'
      split at hl'
      next he =>
        cases hl'
        rw [he]
        exact ⟨ho, hf, n, hn, harg⟩
      next => exact h.lives j l' hl'
    · rcases hnew p hp with hp | hp
      · exact h.threads p hp
      · exact ⟨_, n, hp, hn, rfl⟩
    · have hj := h.handlers j
      rw [hths, hget, List.count_append, hcount j ths fun x hx => hown x (List.mem_append_left _ hx)]
      split
      next he =>
        rw [he, hl] at hj
        rw [Option.elim_some] at hj ⊢
        rw [hdis, he]
        omega
      next => exact hj
    · have hj := h.timers j
      rw [hargs, hget, List.count_append, hcount j args fun x hx => hown x (List.mem_append_right _ hx)]
      split
      next he =>
        rw [he, hl] at hj
        rw [Option.elim_some] at hj ⊢
        rw [hhand, he]
        omega
      next => exact hj

/-- A thread frees its argument and ends. -/
theorem finish (h : Carries w armed freed) {i : Nat} {hd : RtoHandler} {a : RtoTimerArg} (hi : w.base.threads[i]? = some (hd, some a)) :
    Carries { w with base.threads := w.base.threads.eraseIdx i } armed (freed ++ [a]) := by
  obtain ⟨hlt, hget⟩ := List.getElem?_eq_some_iff.mp hi
  have hperm : w.base.threads.Perm ((hd, some a) :: w.base.threads.eraseIdx i) := by
    rw [← hget]
    exact (List.getElem_cons_eraseIdx_perm hlt).symm
  refine ⟨⟨h.inv.count, h.inv.ids, h.inv.below, h.inv.fits⟩, h.count, h.lives, fun p hp => ?_, fun j => ?_, h.timers⟩
  · exact h.threads p ((List.eraseIdx_sublist ..).subset hp)
  · have hj := h.handlers j
    rw [(hperm.filterMap _).count_eq j, List.filterMap_cons] at hj
    rw [← hj, List.map_append, List.count_append, List.map_singleton]
    simp only [Option.map_some, List.count_cons, List.count_nil]
    omega

end Carries

/-! ## The epoch -/

theorem tcpRearmRtoTimer_epoch (s : TcpSock) : (tcpRearmRtoTimer s).rtoEpoch = s.rtoEpoch + 1 :=
  congrArg Timing.rtoEpoch (tcpRearmRtoTimer_timing s)

theorem tcpStopRtoTimer_epoch (s : TcpSock) : (tcpStopRtoTimer s).rtoEpoch = s.rtoEpoch + 1 := rfl

theorem tcpDone_epoch (s : TcpSock) : (tcpDone s).rtoEpoch = s.rtoEpoch + 1 := by
  refine (congrArg Timing.rtoEpoch (tcpDone_timing s)).trans ?_
  simp only [Timing.clear, Timing.stopLinger, Timing.stopDelack, Timing.stopRto, Timing.cancel_rtoEpoch]
  rfl

theorem tcpTransmitSkb_epoch (s : TcpSock) (k : Skb) (seq : U32) : (tcpTransmitSkb s k seq).rtoEpoch = s.rtoEpoch :=
  congrArg Timing.rtoEpoch (tcpTransmitSkb_timing s k seq)

/-- A handler arms or stops the timer once, or leaves the epoch. -/
theorem runHandler_epoch (s : TcpSock) (hd : RtoHandler) : s.rtoEpoch ≤ (runHandler s (hd.on s.rtoEpoch)).rtoEpoch := by
  cases hd with
  | connectRto =>
    show s.rtoEpoch ≤ (tcpConnectRto s s.rtoEpoch).rtoEpoch
    unfold tcpConnectRto
    rw [if_neg (not_not.mpr rfl)]
    dsimp only
    split
    · split
      · rw [tcpDone_epoch]
        exact Nat.le_succ _
      · split
        · exact le_refl _
        · rw [tcpRearmRtoTimer_epoch]
          have hsent := tcpTransmitSkb_epoch (tcpReleaseRtoTimer s) ‹Skb› (tcpReleaseRtoTimer s).tcb.sndUna
          exact hsent.symm.le.trans (Nat.le_succ _)
    · exact le_refl _
  | retransmissionTimeout =>
    show s.rtoEpoch ≤ (tcpRetransmissionTimeout s s.rtoEpoch).rtoEpoch
    rcases tcpRetransmissionTimeout_cases s s.rtoEpoch with ⟨hne, -⟩ | ⟨-, -, he⟩ | ⟨k, -, -, he⟩
    · exact absurd rfl hne
    · rw [he]
      unfold rtoIdle
      dsimp only
      split <;> exact le_refl _
    · have hsent : (tcpTransmitSkb (rtoSock s) k (rtoSock s).tcb.sndUna).rtoEpoch = s.rtoEpoch := tcpTransmitSkb_epoch _ _ _
      rw [he]
      unfold rtoTail
      split
      · show _ ≤ (tcpDone _).rtoEpoch
        rw [tcpDone_epoch, hsent]
        exact Nat.le_succ _
      · have hrearm := tcpRearmRtoTimer_epoch { tcpTransmitSkb (rtoSock s) k (rtoSock s).tcb.sndUna with
          rto := (tcpTransmitSkb (rtoSock s) k (rtoSock s).tcb.sndUna).rto * 2
          backoff := (tcpTransmitSkb (rtoSock s) k (rtoSock s).tcb.sndUna).backoff + 1 }
        split
        · rw [show (tcpHandleFinState _).rtoEpoch = _ from congrArg Timing.rtoEpoch (tcpHandleFinState_timing _)]
          refine le_trans ?_ hrearm.ge
          exact hsent.symm.le.trans (Nat.le_succ _)
        · refine le_trans ?_ hrearm.ge
          exact hsent.symm.le.trans (Nat.le_succ _)

/-! ## The invariant -/

structure Fit (h : RtoWorld) : Prop where
  carries : Carries h.world h.armed h.freed
  past : ∀ n ∈ h.armed, n ≤ h.sk.rtoEpoch
  held : ∀ t, h.retransmit = some t → ∃ l, h.world.lives[t]? = some l ∧ l.calls = 0
  fired : ∀ t, h.fired.count t ≤ h.handlerFrees t

theorem fit_start (sk : TcpSock) : (start sk).Fit where
  carries := .init
  past := nofun
  held := nofun
  fired _ := le_refl _

theorem Fit.told {h : RtoWorld} (hf : h.Fit) {sk : TcpSock} (hle : h.sk.rtoEpoch ≤ sk.rtoEpoch) (cancels : Bool) : (h.told sk cancels).Fit := by
  -- the timer there was
  obtain ⟨w, hw, hc⟩ : ∃ w, (match h.retransmit with
      | none => h.world
      | some t => h.world.step (if cancels then .cancel t else .release t)) = w ∧ Carries w h.armed h.freed := by
    refine ⟨_, rfl, ?_⟩
    cases hr : h.retransmit with
    | none => exact hf.carries
    | some t =>
      obtain ⟨l, hl, hcalls⟩ := hf.held t hr
      exact hf.carries.call hl hcalls (by cases cancels <;> simp)
  have hpast : ∀ n ∈ h.armed, n ≤ sk.rtoEpoch := fun n hn => (hf.past n hn).trans hle
  unfold RtoWorld.told
  rw [hw]
  dsimp only
  cases hs : sk.retransmit with
  | none => exact ⟨hc, hpast, nofun, hf.fired⟩
  | some t =>
    refine ⟨hc.add _ _ _, fun n hn => ?_, fun u hu => ?_, hf.fired⟩
    · rcases List.mem_append.mp hn with hn | hn
      · exact hpast n hn
      · rw [List.mem_singleton.mp hn]
    · cases hu
      refine ⟨{ owned := true, arg := some ⟨w.base.nextId, BitVec.ofNat 64 sk.rtoEpoch⟩, argFree := true }, ?_, rfl⟩
      show (w.lives ++ [_])[w.base.nextId]? = _
      rw [hc.inv.count, Table.getElem?_append_new]

theorem Fit.finish {h : RtoWorld} (hf : h.Fit) {i : Nat} {hd : RtoHandler} {a : RtoTimerArg}
    (hi : h.world.base.threads[i]? = some (hd, some a)) : (h.finish i a).Fit := by
  refine ⟨hf.carries.finish hi, hf.past, hf.held, fun t => (hf.fired t).trans ?_⟩
  unfold handlerFrees RtoWorld.finish
  rw [List.map_append, List.count_append]
  exact Nat.le_add_right _ _

/-- The arming that takes effect is the one whose argument is freed. -/
theorem Fit.fire {h : RtoWorld} (hf : h.Fit) {i : Nat} {hd : RtoHandler} {a : RtoTimerArg}
    (hi : h.world.base.threads[i]? = some (hd, some a)) : ({ h with fired := h.fired ++ [a.addr] }.finish i a).Fit := by
  refine ⟨hf.carries.finish hi, hf.past, hf.held, fun t => ?_⟩
  have ht := hf.fired t
  unfold handlerFrees at ht ⊢
  unfold RtoWorld.finish
  rw [List.map_append, List.count_append, List.count_append, List.map_singleton]
  exact Nat.add_le_add_right ht _

theorem Fit.step {h : RtoWorld} (hf : h.Fit) (ev : RtoEvent) : (h.step ev).Fit := by
  cases ev with
  | rearm => exact hf.told ((Nat.le_succ _).trans (tcpRearmRtoTimer_epoch h.sk).ge) false
  | stop => exact hf.told ((Nat.le_succ _).trans (tcpStopRtoTimer_epoch h.sk).ge) true
  | other t => exact ⟨hf.carries, hf.past, hf.held, hf.fired⟩
  | clock => exact ⟨hf.carries.clock, hf.past, hf.held, hf.fired⟩
  | visit t =>
    refine ⟨hf.carries.visit t, hf.past, fun u hu => ?_, hf.fired⟩
    obtain ⟨l, hl, hcalls⟩ := hf.held u hu
    show ∃ l', (h.world.step (.visit t)).lives[u]? = some l' ∧ l'.calls = 0
    unfold TimerWorld.step
    dsimp only
    split
    · exact ⟨l, hl, hcalls⟩
    · rw [List.getElem?_modify, hl]
      split
      · exact ⟨_, rfl, hcalls⟩
      · exact ⟨_, rfl, hcalls⟩
  | lock i =>
    show (h.lock i).Fit
    unfold lock
    split
    next hd a hi =>
      split
      · exact hf.finish hi
      · exact (hf.fire hi).told (runHandler_epoch h.sk hd) false
    · exact hf
    · exact hf

/-- The argument of the arming `n` has its epoch. -/
theorem Fit.epoch {h : RtoWorld} (hf : h.Fit) {i : Nat} {hd : RtoHandler} {a : RtoTimerArg} {n : Nat}
    (hi : h.world.base.threads[i]? = some (hd, some a)) (hn : h.armed[a.addr]? = some n) : a.epoch = BitVec.ofNat 64 n := by
  obtain ⟨b, m, hb, hm, he⟩ := hf.carries.threads _ (List.mem_of_getElem? hi)
  cases hb
  rw [hn] at hm
  cases hm
  exact he

/-- A handler acts if the count is its own, or a multiple of 2^64 away. -/
theorem lock_stale {h : RtoWorld} (hf : h.Fit) {i : Nat} {hd : RtoHandler} {a : RtoTimerArg} {n : Nat}
    (hi : h.world.base.threads[i]? = some (hd, some a)) (hn : h.armed[a.addr]? = some n) (hlt : n < h.sk.rtoEpoch)
    (hin : ¬ 2 ^ 64 ∣ h.sk.rtoEpoch - n) : (h.lock i).sk = h.sk := by
  have hne : a.epoch ≠ BitVec.ofNat 64 h.sk.rtoEpoch := by
    rw [hf.epoch hi hn]
    intro he
    have hmod := congrArg BitVec.toNat he
    rw [BitVec.toNat_ofNat, BitVec.toNat_ofNat] at hmod
    omega
  unfold lock
  rw [hi]
  dsimp only
  rw [if_pos hne]
  rfl

theorem Fit.sole {h : RtoWorld} (hf : h.Fit) : h.Sole := by
  have hlife : ∀ t : Nat, h.waiting t + h.handlerFrees t ≤ 1 := by
    intro t
    show _ + _ ≤ _
    rw [waiting, handlerFrees, hf.carries.handlers t]
    cases hl : h.world.lives[t]? with
    | none => exact Nat.zero_le 1
    | some l => exact (hf.carries.inv.fits t l hl).1.dispatched
  refine ⟨fun t => ?_, fun t ht => ?_⟩
  · exact (hf.fired t).trans ((Nat.le_add_left _ _).trans (hlife t))
  · have hlt : t < h.world.lives.length := hf.carries.count ▸ ht
    have hl := List.getElem?_eq_getElem hlt
    generalize h.world.lives[t] = l at hl
    obtain ⟨-, hfree, n, -, harg⟩ := hf.carries.lives t l hl
    have hreg := (hf.carries.inv.fits t l hl).1
    refine ⟨l, hl, hreg.dispatched, hreg.freed, ?_, ?_⟩
    · rw [waiting, handlerFrees, hf.carries.handlers t, hl, Option.elim_some]
    · rw [timerFrees, hf.carries.timers t, hl, Option.elim_some, hreg.handed, hfree, harg]
      simp only [and_true]
      split <;> rfl

/-- **The epochs of RTO timers.** In every run of armings, stops, other changes,
clock steps, visits of `timers_tick` and threads that get the lock, where no
multiple of 2^64 armings and stops comes between an arming and its handler: a
handler that comes after another arming or stop changes nothing; and at any time
every arming has taken effect at most once, its argument freed at most once, by
its handler if that was dispatched and with its timer otherwise. -/
theorem armings_sole (sk : TcpSock) (es : List RtoEvent) (hin : Machine.Meets step InTime (start sk) es) :
    Machine.Meets step VoidsStale (start sk) es ∧ ∀ n, ((start sk).run (es.take n)).Sole := by
  constructor
  · refine hin.derives (I := Fit) (fun h ev hok hf => ⟨hf.step ev, ?_⟩) (fit_start sk)
    rintro i rfl hd a n hi hn hlt
    exact lock_stale hf hi hn hlt (hok i rfl hd a n hi hn hlt)
  · intro n
    exact (Machine.invariant (I := Fit) (fun _ ev hf => hf.step ev) (es.take n) (fit_start sk)).sole

/-- A timer is armed, expires and is dispatched. -/
def dispatched : List RtoEvent := [.rearm, .clock, .visit 0]

/-- The handler comes after a stop, and then the timer is armed again. -/
def late : List RtoEvent := dispatched ++ [.stop, .lock 0, .rearm]

theorem late_inTime : Machine.Meets step InTime (start {}) late := by
  have hidle : ∀ (h : RtoWorld) (ev : RtoEvent), (∀ i, ev ≠ .lock i) → InTime h ev := fun _ _ hne i he => absurd he (hne i)
  have hepoch : ((start {}).run (dispatched ++ [.stop])).sk.rtoEpoch = 2 := by decide
  have hlock : InTime ((start {}).run (dispatched ++ [.stop])) (.lock 0) := by
    intro i _ hd a n _ _ _
    rw [hepoch]
    omega
  exact ⟨hidle _ _ nofun, hidle _ _ nofun, hidle _ _ nofun, hidle _ _ nofun, hlock, hidle _ _ nofun, trivial⟩

theorem armings_sole_late : Machine.Meets step VoidsStale (start {}) late ∧ ∀ n, ((start {}).run (late.take n)).Sole :=
  armings_sole {} late late_inTime

theorem told_sk (h : RtoWorld) (sk : TcpSock) (cancels : Bool) : (h.told sk cancels).sk = sk := by
  unfold told
  dsimp only
  split <;> rfl

/-- With nothing to retransmit the handler resets the backoff. -/
theorem rtoIdle_backoff {s : TcpSock} (hq : s.writeQueue = []) : (tcpRetransmissionTimeout s s.rtoEpoch).backoff = 0 := by
  rcases tcpRetransmissionTimeout_cases s s.rtoEpoch with ⟨hne, -⟩ | ⟨-, -, he⟩ | ⟨k, -, hk, -⟩
  · exact absurd rfl hne
  · rw [he]
    unfold rtoIdle
    dsimp only
    split <;> rfl
  · rw [hq] at hk
    cases hk

theorem run_stops (h : RtoWorld) (k : Nat) :
    (Machine.run step h (List.replicate k .stop)).world.base.threads = h.world.base.threads ∧
      (Machine.run step h (List.replicate k .stop)).armed = h.armed ∧
      (Machine.run step h (List.replicate k .stop)).sk.rtoEpoch = h.sk.rtoEpoch + k := by
  induction k generalizing h with
  | zero => exact ⟨rfl, rfl, rfl⟩
  | succ k ih =>
    obtain ⟨h1, h2, h3⟩ := ih (h.step .stop)
    have hone : (h.step .stop).world.base.threads = h.world.base.threads := by
      show (h.told (tcpStopRtoTimer h.sk) true).world.base.threads = _
      unfold told
      cases h.retransmit <;> rfl
    rw [List.replicate_succ, Machine.run_cons]
    refine ⟨h1.trans hone, h2, h3.trans ?_⟩
    show h.sk.rtoEpoch + 1 + k = _
    omega

/-- The handler of the first arming acts after `k` stops, if that many cannot be
told from none. -/
theorem stops_unnoticed {k : Nat} (hpos : 0 < k) (hk : BitVec.ofNat 64 (1 + k) = BitVec.ofNat 64 1) :
    ¬ Machine.Meets step VoidsStale (start {}) (dispatched ++ (List.replicate k .stop ++ [.other { backoff := 1 }, .lock 0])) := by
  intro hall
  have hstops := run_stops (Machine.run step (start {}) dispatched) k
  have hend := (Machine.Meets.append.mp (Machine.Meets.append.mp hall).2).2
  generalize Machine.run step (Machine.run step (start {}) dispatched) (List.replicate k .stop) = w at hstops hend
  obtain ⟨hthreads, harmed, hepoch⟩ := hstops
  have hthread : w.world.base.threads[0]? = some (.retransmissionTimeout, some ⟨0, BitVec.ofNat 64 1⟩) := by
    rw [hthreads]
    decide
  have hone : w.armed[0]? = some 1 := by
    rw [harmed]
    decide
  have hfirst : (Machine.run step (start {}) dispatched).sk.rtoEpoch = 1 := by decide
  rw [hfirst] at hepoch
  have hlater : 1 < (w.step (.other { backoff := 1 })).sk.rtoEpoch := by
    show 1 < w.sk.rtoEpoch
    omega
  have hvoid := hend.2.1 0 rfl .retransmissionTimeout ⟨0, BitVec.ofNat 64 1⟩ 1 hthread hone hlater
  have hacts : ((w.step (.other { backoff := 1 })).step (.lock 0)).sk.backoff = 0 := by
    show ((w.step (.other { backoff := 1 })).lock 0).sk.backoff = 0
    unfold lock
    rw [show (w.step (.other { backoff := 1 })).world.base.threads[0]? = _ from hthread]
    dsimp only
    have hsame : BitVec.ofNat 64 1 = BitVec.ofNat 64 (w.step (.other { backoff := 1 })).sk.rtoEpoch := by
      show _ = BitVec.ofNat 64 w.sk.rtoEpoch
      rw [hepoch, hk]
    rw [if_neg (not_not.mpr hsame), told_sk]
    exact rtoIdle_backoff rfl
  rw [hvoid] at hacts
  cases hacts

/-- After 2^64 stops the handler of an old arming acts again. -/
theorem epoch_wraps : ¬ ∀ (sk : TcpSock) (es : List RtoEvent), Machine.Meets step VoidsStale (start sk) es ∧
    ∀ n, ((start sk).run (es.take n)).Sole := by
  intro h
  have hpos : 0 < 2 ^ 64 := by decide
  exact stops_unnoticed hpos (by decide) (h {} _).1

end RtoWorld

end LevelIp
