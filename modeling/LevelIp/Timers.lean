/-
`timer.c`: the global timer list, its clock, and the handler threads it has
dispatched, for any kind of handler and of argument.

`timers_tick` skips a timer whose lock another thread holds at that moment;
which ones those are is an input. Creating a thread is assumed to succeed.
-/
import LevelIp.Sock

namespace LevelIp

/-- A `struct timer` on the list; `id` is its address. -/
structure TimerEntry (H A : Type) where
  id : Nat
  refcnt : Int
  expires : U32
  cancelled : Bool := false
  handler : H
  arg : Option A
  argFree : Bool := false
deriving DecidableEq

/-- The timer list. `clock` is the time since the start in milliseconds, of
which `tick` keeps 32 bits. `threads` are the handlers dispatched that have not
run yet, `freed` the arguments given to `arg_free`. -/
structure TimerBase (H A : Type) where
  clock : Nat := 0
  timers : List (TimerEntry H A) := []
  threads : List (H × Option A) := []
  freed : List A := []
  nextId : Nat := 0
deriving DecidableEq

namespace TimerBase

variable {H A : Type}

/-- `timer_get_tick`. -/
def tick (b : TimerBase H A) : U32 := BitVec.ofNat 32 b.clock

/-- The common part of `timer_oneshot` and `timer_add_with_release`. -/
def link (b : TimerBase H A) (refcnt : Int) (expire : U32) (handler : H) (arg : Option A) (argFree : Bool) : TimerBase H A :=
  { b with
    timers := b.timers ++
      [{ id := b.nextId, refcnt := refcnt, expires := b.tick + expire, handler := handler, arg := arg, argFree := argFree }]
    nextId := b.nextId + 1 }

/-- `timer_oneshot`. -/
def timerOneshot (b : TimerBase H A) (expire : U32) (handler : H) (arg : Option A) : TimerBase H A :=
  b.link 0 expire handler arg false

/-- `timer_add_with_release`; the caller keeps the address `b.nextId`. -/
def timerAddWithRelease (b : TimerBase H A) (expire : U32) (handler : H) (arg : Option A) (argFree : Bool) :
    TimerBase H A :=
  b.link 1 expire handler arg argFree

/-- `timer_add`. -/
def timerAdd (b : TimerBase H A) (expire : U32) (handler : H) (arg : Option A) : TimerBase H A :=
  b.timerAddWithRelease expire handler arg false

/-- `timer_release`, of a pointer that may be NULL. -/
def timerRelease (b : TimerBase H A) (t : Option Nat) : TimerBase H A :=
  { b with timers := b.timers.map fun e => if t = some e.id then { e with refcnt := e.refcnt - 1 } else e }

/-- `timer_cancel`, of a pointer that may be NULL. -/
def timerCancel (b : TimerBase H A) (t : Option Nat) : TimerBase H A :=
  { b with
    timers := b.timers.map fun e => if t = some e.id then { e with refcnt := e.refcnt - 1, cancelled := true } else e }

/-- The test of `timers_tick`, in unsigned 32-bit arithmetic. -/
def due (b : TimerBase H A) (held : List Nat) (e : TimerEntry H A) : Bool :=
  !held.contains e.id && !e.cancelled && e.expires < b.tick

/-- A timer after its turn in `timers_tick`: the argument goes with the thread. -/
def turn (b : TimerBase H A) (held : List Nat) (e : TimerEntry H A) : TimerEntry H A :=
  if b.due held e then { e with arg := none, cancelled := true } else e

/-- What `timers_tick` unlinks and frees. -/
def gone (held : List Nat) (e : TimerEntry H A) : Bool := !held.contains e.id && e.cancelled && e.refcnt == 0

/-- `timers_tick`. -/
def timersTick (b : TimerBase H A) (held : List Nat) : TimerBase H A :=
  { b with
    timers := (b.timers.map (b.turn held)).filter fun e => !gone held e
    threads := b.threads ++ (b.timers.filter (b.due held)).map fun e => (e.handler, e.arg)
    freed := b.freed ++ ((b.timers.map (b.turn held)).filter (gone held)).filterMap fun e =>
      if e.argFree then e.arg else none }

/-- One round of `timers_start`. -/
def timersStart (b : TimerBase H A) (held : List Nat) : TimerBase H A :=
  { b with clock := b.clock + 10 }.timersTick held

/-- The handler `h` is still to come: on a timer not yet cancelled or
dispatched, or on a thread that has not run. -/
def Pending (b : TimerBase H A) (h : H) : Prop :=
  (∃ e ∈ b.timers, e.cancelled = false ∧ e.handler = h) ∨ ∃ a, (h, a) ∈ b.threads

/-! ## What the operations leave on the list -/

theorem mem_link {b : TimerBase H A} {rc : Int} {x : U32} {h : H} {a : Option A} {f : Bool} {e : TimerEntry H A} :
    e ∈ (b.link rc x h a f).timers ↔ e ∈ b.timers ∨
      e = { id := b.nextId, refcnt := rc, expires := b.tick + x, handler := h, arg := a, argFree := f } := by
  simp only [link, List.mem_append, List.mem_singleton]

/-- Cancelling adds no timer and wakes none up again. -/
theorem mem_timerCancel {b : TimerBase H A} {t : Option Nat} {e : TimerEntry H A} (h : e ∈ (b.timerCancel t).timers)
    (hc : e.cancelled = false) : e ∈ b.timers := by
  simp only [timerCancel, List.mem_map] at h
  obtain ⟨u, hu, rfl⟩ := h
  split at hc
  · cases hc
  · next hne => rw [if_neg hne]; exact hu

/-- A timer still running after `timers_tick` was so before it, and was not due. -/
theorem mem_timersTick {b : TimerBase H A} {held : List Nat} {e : TimerEntry H A} (h : e ∈ (b.timersTick held).timers)
    (hc : e.cancelled = false) : e ∈ b.timers ∧ b.due held e = false := by
  simp only [timersTick, List.mem_filter, List.mem_map] at h
  obtain ⟨⟨u, hu, rfl⟩, -⟩ := h
  by_cases hd : b.due held u = true
  · rw [turn, if_pos hd] at hc
    cases hc
  · rw [turn, if_neg hd]
    exact ⟨hu, Bool.not_eq_true _ ▸ hd⟩

theorem mem_timersTick_threads {b : TimerBase H A} {held : List Nat} {p : H × Option A}
    (h : p ∈ (b.timersTick held).threads) :
    p ∈ b.threads ∨ ∃ e ∈ b.timers, b.due held e = true ∧ p = (e.handler, e.arg) := by
  simp only [timersTick, List.mem_append, List.mem_map, List.mem_filter] at h
  rcases h with h | ⟨e, ⟨he, hd⟩, rfl⟩
  · exact .inl h
  · exact .inr ⟨e, he, hd, rfl⟩

/-- A timer set before the clock is within `expire` of its wrap is not due
before `expire` has passed. -/
theorem not_early {b : TimerBase H A} {held : List Nat} {e : TimerEntry H A} {since expire : Nat}
    (hx : e.expires = BitVec.ofNat 32 since + BitVec.ofNat 32 expire) (hw : since % 2 ^ 32 + expire < 2 ^ 32)
    (hs : since ≤ b.clock) (hd : b.due held e = true) : since + expire ≤ b.clock := by
  simp only [due, Bool.and_eq_true, decide_eq_true_eq, hx, tick] at hd
  have hlt := hd.2
  rw [BitVec.lt_def] at hlt
  simp only [BitVec.toNat_add, BitVec.toNat_ofNat] at hlt
  omega

end TimerBase

end LevelIp
