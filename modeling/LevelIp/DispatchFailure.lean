/-
Passes of `timers_tick` in which `pthread_create` fails. The pass leaves the timer
on the list as it is, and leaves its lock taken: no later pass gets it, and who
cancels or releases the timer waits for it.
-/
import LevelIp.TimerLife

namespace LevelIp

/-- The timer list, the timers whose locks the thread of `timers_start` has kept,
and the timers of those who wait for such a lock. -/
structure DispatchBase (H A : Type) where
  base : TimerBase H A
  locked : List Nat := []
  waiting : List Nat := []
deriving DecidableEq

/-- What happens to the list. A pass is a round of `timers_start`: `held` are the
timers that others have locked when it comes to them, `fails` those whose thread
cannot be created. -/
inductive DispatchEvent (H A : Type) where
  | oneshot (expire : U32) (handler : H) (arg : Option A)
  | add (expire : U32) (handler : H) (arg : Option A) (argFree : Bool)
  | release (t : Option Nat)
  | cancel (t : Option Nat)
  | pass (held fails : List Nat)
deriving DecidableEq

namespace DispatchBase

variable {H A : Type}

/-- The time of a round. -/
def advance (s : DispatchBase H A) : DispatchBase H A := { s with base := { s.base with clock := s.base.clock + 10 } }

/-- A timer is locked and due, and its thread cannot be created. -/
def failing (s : DispatchBase H A) (held fails : List Nat) (e : TimerEntry H A) : Bool :=
  s.base.due (held ++ s.locked) e && fails.contains e.id

/-- One that is dispatched. -/
def dispatched (s : DispatchBase H A) (held fails : List Nat) (e : TimerEntry H A) : Bool :=
  s.base.due (held ++ s.locked) e && !fails.contains e.id

/-- A timer after its turn. -/
def turn (s : DispatchBase H A) (held fails : List Nat) (e : TimerEntry H A) : TimerEntry H A :=
  if s.dispatched held fails e then { e with arg := none, cancelled := true } else e

/-- `timers_tick`. -/
def timersTick (s : DispatchBase H A) (held fails : List Nat) : DispatchBase H A :=
  { s with
    base := { s.base with
      timers := (s.base.timers.map (s.turn held fails)).filter fun e => !TimerBase.gone (held ++ s.locked) e
      threads := s.base.threads ++ (s.base.timers.filter (s.dispatched held fails)).map fun e => (e.handler, e.arg)
      freed := s.base.freed ++ ((s.base.timers.map (s.turn held fails)).filter (TimerBase.gone (held ++ s.locked))).filterMap fun e =>
        if e.argFree then e.arg else none }
    -- `continue` without `pthread_mutex_unlock`
    locked := s.locked ++ (s.base.timers.filter (s.failing held fails)).map (·.id) }

/-- `timer_release` and `timer_cancel` wait for the lock of the timer. -/
def locking (s : DispatchBase H A) (t : Option Nat) (f : TimerBase H A → TimerBase H A) : DispatchBase H A :=
  match t.filter s.locked.contains with
  | some t => { s with waiting := s.waiting ++ [t] }
  | none => { s with base := f s.base }

def step (s : DispatchBase H A) : DispatchEvent H A → DispatchBase H A
  | .oneshot expire handler arg => { s with base := s.base.timerOneshot expire handler arg }
  | .add expire handler arg argFree => { s with base := s.base.timerAddWithRelease expire handler arg argFree }
  | .release t => s.locking t (·.timerRelease t)
  | .cancel t => s.locking t (·.timerCancel t)
  | .pass held fails => s.advance.timersTick held fails

abbrev run (s : DispatchBase H A) (es : List (DispatchEvent H A)) : DispatchBase H A := Machine.run step s es

/-! ## What is asked -/

/-- A timer that could not be dispatched is so by the first pass that finds it
unlocked and can create its thread, unless it is cancelled before. -/
def DispatchedNext (s : DispatchBase H A) (e : TimerEntry H A) (es : List (DispatchEvent H A)) : Prop :=
  ∀ mid held fails post, es = mid ++ .pass held fails :: post →
    .cancel (some e.id) ∉ mid → (∀ held' fails', .pass held' fails' ∈ mid → e.id ∈ held' ++ fails') → e.id ∉ held ++ fails →
    ∃ u ∈ (s.run mid).base.timers, u.id = e.id ∧ u.handler = e.handler ∧ u.arg = e.arg ∧
      (s.run mid).advance.dispatched held fails u

/-- After every pass no lock of a timer is held, and the timers that could not be
dispatched are on the list as they were and are dispatched later. -/
def FailsSafely (s : DispatchBase H A) (es : List (DispatchEvent H A)) : Prop :=
  ∀ pre held fails post, es = pre ++ .pass held fails :: post →
    (s.run (pre ++ [.pass held fails])).locked = [] ∧
      ∀ e ∈ (s.run pre).base.timers, (s.run pre).advance.failing held fails e →
        e ∈ (s.run (pre ++ [.pass held fails])).base.timers ∧ e.cancelled = false ∧
          (s.run (pre ++ [.pass held fails])).DispatchedNext e post

/-- No thread that is needed fails to be created. -/
def Creates (s : DispatchBase H A) : DispatchEvent H A → Prop
  | .pass held fails => ∀ e ∈ s.base.timers, s.advance.failing held fails e = false
  | _ => True

/-! ## One pass -/

variable {s : DispatchBase H A} {held fails : List Nat} {e : TimerEntry H A}

theorem not_failing (h : s.base.due (held ++ s.locked) e → s.failing held fails e = false) :
    s.dispatched held fails e = s.base.due (held ++ s.locked) e := by
  unfold failing at h
  unfold dispatched
  cases hd : s.base.due (held ++ s.locked) e
  · rfl
  · simpa [hd] using h hd

/-- Where every thread is created a pass is that of the list alone. -/
theorem timersTick_of_creates (h : ∀ e ∈ s.base.timers, s.failing held fails e = false) :
    s.timersTick held fails = { s with base := s.base.timersTick (held ++ s.locked) } := by
  have hdisp : ∀ e ∈ s.base.timers, s.dispatched held fails e = s.base.due (held ++ s.locked) e :=
    fun e he => not_failing fun _ => h e he
  have hturn : s.base.timers.map (s.turn held fails) = s.base.timers.map (s.base.turn (held ++ s.locked)) :=
    List.map_congr_left fun e he => by rw [turn, TimerBase.turn, hdisp e he]
  have hthreads : s.base.timers.filter (s.dispatched held fails) = s.base.timers.filter (s.base.due (held ++ s.locked)) :=
    List.filter_congr hdisp
  have hlocked : s.base.timers.filter (s.failing held fails) = [] := List.filter_eq_nil_iff.mpr fun e he => by simp [h e he]
  rw [timersTick, TimerBase.timersTick, hturn, hthreads, hlocked, List.map_nil, List.append_nil]

theorem locked_timersTick : (s.timersTick held fails).locked = [] ↔
    s.locked = [] ∧ ∀ e ∈ s.base.timers, s.failing held fails e = false := by
  simp only [timersTick, List.append_eq_nil_iff, List.map_eq_nil_iff, List.filter_eq_nil_iff, Bool.not_eq_true]

/-- A timer that could not be dispatched stays as it is, but for its lock. -/
theorem mem_timersTick_failing (he : e ∈ s.base.timers) (hf : s.failing held fails e) :
    e ∈ (s.timersTick held fails).base.timers ∧ e.cancelled = false ∧ e.id ∈ (s.timersTick held fails).locked := by
  have hf' := hf
  simp only [failing, TimerBase.due, Bool.and_eq_true, Bool.not_eq_true'] at hf'
  obtain ⟨⟨⟨-, hcancelled⟩, -⟩, hcontains⟩ := hf'
  have hturn : s.turn held fails e = e := if_neg (by simp only [dispatched, hcontains, Bool.not_true, Bool.and_false]; decide)
  have hgone : TimerBase.gone (held ++ s.locked) e = false := by simp [TimerBase.gone, hcancelled]
  refine ⟨List.mem_filter.mpr ⟨List.mem_map.mpr ⟨e, he, hturn⟩, by rw [hgone]; rfl⟩, hcancelled, ?_⟩
  exact List.mem_append_right _ (List.mem_map.mpr ⟨e, List.mem_filter.mpr ⟨he, hf⟩, rfl⟩)

/-! ## Runs -/

theorem locked_step (hs : s.locked = []) {ev : DispatchEvent H A} (hc : s.Creates ev) : (s.step ev).locked = [] := by
  cases ev with
  | oneshot | add => exact hs
  | release t | cancel t =>
    have hnone : t.filter s.locked.contains = none := by
      rw [hs]
      cases t <;> rfl
    simp only [step, locking, hnone]
    exact hs
  | pass held fails => exact locked_timersTick.mpr ⟨hs, hc⟩

/-- **A lock that is kept is kept for ever**: its timer stays on the list as it is,
and is not dispatched. -/
theorem stuck_step (he : e ∈ s.base.timers) (hc : e.cancelled = false) (hl : e.id ∈ s.locked) (ev : DispatchEvent H A) :
    e ∈ (s.step ev).base.timers ∧ e.id ∈ (s.step ev).locked := by
  have howner : ∀ (t : Option Nat) (f : TimerBase H A → TimerBase H A), (t ≠ some e.id → e ∈ (f s.base).timers) →
      e ∈ (s.locking t f).base.timers ∧ e.id ∈ (s.locking t f).locked := by
    intro t f hf
    unfold locking
    cases hfilter : t.filter s.locked.contains with
    | some t => exact ⟨he, hl⟩
    | none =>
      refine ⟨hf fun ht => ?_, hl⟩
      rw [ht] at hfilter
      simp [hl] at hfilter
  cases ev with
  | oneshot | add => exact ⟨List.mem_append_left _ he, hl⟩
  | release t => exact howner t _ fun ht => List.mem_map.mpr ⟨e, he, if_neg ht⟩
  | cancel t => exact howner t _ fun ht => List.mem_map.mpr ⟨e, he, if_neg ht⟩
  | pass held fails =>
    have hdue : s.advance.base.due (held ++ s.advance.locked) e = false := by
      have hcontains : (held ++ s.advance.locked).contains e.id = true := List.contains_iff_mem.mpr (List.mem_append_right _ hl)
      simp only [TimerBase.due, hcontains, Bool.not_true, Bool.false_and]
    have hturn : s.advance.turn held fails e = e := if_neg (by rw [dispatched, hdue, Bool.false_and]; decide)
    have hgone : TimerBase.gone (held ++ s.advance.locked) e = false := by simp [TimerBase.gone, hc]
    exact ⟨List.mem_filter.mpr ⟨List.mem_map.mpr ⟨e, he, hturn⟩, by rw [hgone]; rfl⟩, List.mem_append_left _ hl⟩

theorem stuck_run (he : e ∈ s.base.timers) (hc : e.cancelled = false) (hl : e.id ∈ s.locked) (es : List (DispatchEvent H A)) :
    e ∈ (s.run es).base.timers ∧ e.id ∈ (s.run es).locked :=
  Machine.invariant (I := fun s : DispatchBase H A => e ∈ s.base.timers ∧ e.id ∈ s.locked) (fun _ ev h => stuck_step h.1 hc h.2 ev) es ⟨he, hl⟩

theorem failsSafely_iff (b : TimerBase H A) (es : List (DispatchEvent H A)) :
    FailsSafely { base := b } es ↔ Machine.Meets step Creates { base := b } es := by
  have hsplit : ∀ pre ev post, es = pre ++ ev :: post → Machine.Meets step Creates { base := b } es →
      (run { base := b } pre).locked = [] ∧ (run { base := b } pre).Creates ev := by
    rintro pre ev post rfl hm
    obtain ⟨hpre, hev, -⟩ := Machine.Meets.append.mp hm
    exact ⟨hpre.invariant (fun _ _ hc hs => locked_step hs hc) rfl, hev⟩
  constructor
  · intro h
    -- the run up to any pass meets the condition, as that pass has left no lock
    have key : ∀ done rest, es = done ++ rest → Machine.Meets step Creates (run { base := b } done) rest := by
      intro done rest
      induction rest generalizing done with
      | nil => exact fun _ => trivial
      | cons ev rest ih =>
        intro hes
        have hrest := ih (done ++ [ev]) (by rw [hes, List.append_assoc]; rfl)
        rw [run, Machine.run_append] at hrest
        refine ⟨?_, hrest⟩
        cases ev with
        | oneshot | add | release | cancel => trivial
        | pass held fails =>
          have hlocked := (h done held fails rest hes).1
          rw [run, Machine.run_append] at hlocked
          exact (locked_timersTick.mp hlocked).2
    exact key [] es rfl
  · intro hm pre held fails post hes
    obtain ⟨hlocked, hcreates⟩ := hsplit pre _ post hes hm
    refine ⟨?_, fun e he hf => ?_⟩
    · rw [run, Machine.run_append]
      exact locked_step hlocked hcreates
    · rw [hcreates e he] at hf
      cases hf

/-- One timer, due in the first round, whose thread cannot be created. -/
def oneDue : TimerBase Unit Unit :=
  { timers := [{ id := 0, refcnt := 1, expires := 5, handler := (), arg := some () }], nextId := 1 }

/-- The lock stays taken, and the round after dispatches nothing. -/
theorem failed_dispatch_locks : ¬FailsSafely { base := oneDue } [.pass [] [0], .pass [] []] := by
  intro h
  have hlocked := (h [] [] [0] [.pass [] []] rfl).1
  revert hlocked
  decide

end DispatchBase

end LevelIp
