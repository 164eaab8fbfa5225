/-
Runs of a deterministic machine: a step function on states driven by a list
of events, the invariant rule, and runs whose every step meets a side
condition on the state before it.
-/
import Mathlib

namespace Machine

variable {σ ε β : Type*} (step : σ → ε → σ)

/-- The state after a list of events. -/
def run (s : σ) (es : List ε) : σ := es.foldl step s

/-- Every event of the run meets `ok` in the state it happens in. -/
def Meets (ok : σ → ε → Prop) : σ → List ε → Prop
  | _, [] => True
  | s, e :: es => ok s e ∧ Meets ok (step s e) es

instance decidableMeets {ok : σ → ε → Prop} [∀ s e, Decidable (ok s e)] :
    (s : σ) → (es : List ε) → Decidable (Meets step ok s es)
  | _, [] => .isTrue trivial
  | s, e :: es => @instDecidableAnd _ _ (inferInstance) (decidableMeets (step s e) es)

variable {step}

@[simp] theorem run_nil (s : σ) : run step s [] = s := rfl

@[simp] theorem run_cons (s : σ) (e : ε) (es : List ε) : run step s (e :: es) = run step (step s e) es := rfl

theorem run_append (s : σ) (es fs : List ε) : run step s (es ++ fs) = run step (run step s es) fs :=
  List.foldl_append

theorem Meets.append {ok : σ → ε → Prop} {s : σ} {es fs : List ε} :
    Meets step ok s (es ++ fs) ↔ Meets step ok s es ∧ Meets step ok (run step s es) fs := by
  induction es generalizing s with
  | nil => simp [Meets]
  | cons e es ih => simp only [List.cons_append, Meets, run_cons, ih, and_assoc]

theorem Meets.of_forall {ok : σ → ε → Prop} (h : ∀ s e, ok s e) (s : σ) (es : List ε) : Meets step ok s es := by
  induction es generalizing s with
  | nil => trivial
  | cons e es ih => exact ⟨h s e, ih _⟩

theorem Meets.mono {ok ok' : σ → ε → Prop} (h : ∀ s e, ok s e → ok' s e) {s : σ} {es : List ε}
    (hm : Meets step ok s es) : Meets step ok' s es := by
  induction es generalizing s with
  | nil => trivial
  | cons e es ih => exact ⟨h _ _ hm.1, ih hm.2⟩

/-- **The invariant rule**: what holds at the start and is kept by every step
that meets the side condition holds after the run. -/
theorem Meets.invariant {ok : σ → ε → Prop} {I : σ → Prop} (hstep : ∀ s e, ok s e → I s → I (step s e))
    {s : σ} {es : List ε} (hm : Meets step ok s es) (h : I s) : I (run step s es) := by
  induction es generalizing s with
  | nil => exact h
  | cons e es ih => exact ih hm.2 (hstep _ _ hm.1 h)

/-- The invariant rule for a law of every step: what the invariant and the side
condition give at each step holds of all of them. -/
theorem Meets.derives {ok law : σ → ε → Prop} {I : σ → Prop} (hstep : ∀ s e, ok s e → I s → I (step s e) ∧ law s e)
    {s : σ} {es : List ε} (hm : Meets step ok s es) (h : I s) : Meets step law s es := by
  induction es generalizing s with
  | nil => trivial
  | cons e es ih =>
    obtain ⟨hI, hlaw⟩ := hstep s e hm.1 h
    exact ⟨hlaw, ih hm.2 hI⟩

/-- Two laws that agree wherever an invariant holds agree on whole runs. -/
theorem Meets.iff_of_invariant {ok ok' : σ → ε → Prop} {I : σ → Prop} (hI : ∀ s e, I s → I (step s e))
    (h : ∀ s e, I s → (ok s e ↔ ok' s e)) {s : σ} (hs : I s) (es : List ε) : Meets step ok s es ↔ Meets step ok' s es := by
  induction es generalizing s with
  | nil => rfl
  | cons e es ih => exact and_congr (h s e hs) (ih (hI s e hs))

/-- **A safety property with its exact condition**: where, under an invariant,
a step keeps to the law and to `P` exactly if it is `ok`, so do runs. -/
theorem Meets.exact {ok law : σ → ε → Prop} {I P : σ → Prop} (hI : ∀ s e, I s → I (step s e))
    (h : ∀ s e, I s → P s → (ok s e ↔ law s e ∧ P (step s e))) {s : σ} (hs : I s) (hp : P s) (es : List ε) :
    Meets step ok s es ↔ Meets step law s es ∧ ∀ n, P (run step s (es.take n)) := by
  induction es generalizing s with
  | nil => exact ⟨fun _ => ⟨trivial, fun n => by rw [List.take_nil]; exact hp⟩, fun _ => trivial⟩
  | cons e es ih =>
    constructor
    · rintro ⟨hok, hm⟩
      obtain ⟨hlaw, hp'⟩ := (h s e hs hp).mp hok
      obtain ⟨hlaws, hall⟩ := (ih (hI s e hs) hp').mp hm
      refine ⟨⟨hlaw, hlaws⟩, fun n => ?_⟩
      cases n with
      | zero => exact hp
      | succ n => exact hall n
    · rintro ⟨⟨hlaw, hlaws⟩, hall⟩
      have hp' : P (step s e) := hall 1
      exact ⟨(h s e hs hp).mpr ⟨hlaw, hp'⟩, (ih (hI s e hs) hp').mpr ⟨hlaws, fun n => hall (n + 1)⟩⟩

/-- The same without a law. -/
theorem Meets.exact_states {ok : σ → ε → Prop} {I P : σ → Prop} (hI : ∀ s e, I s → I (step s e))
    (h : ∀ s e, I s → P s → (ok s e ↔ P (step s e))) {s : σ} (hs : I s) (hp : P s) (es : List ε) :
    Meets step ok s es ↔ ∀ n, P (run step s (es.take n)) := by
  have hlaw : ∀ s e, I s → P s → (ok s e ↔ (fun (_ : σ) (_ : ε) => True) s e ∧ P (step s e)) :=
    fun s e hi hp => (h s e hi hp).trans (iff_of_eq (true_and _).symm)
  exact (Meets.exact hI hlaw hs hp es).trans (and_iff_right (Meets.of_forall (fun _ _ => trivial) s es))

/-- The invariant rule for runs of events that are all `ok`, whatever the state. -/
theorem invariant_of_forall {ok : ε → Prop} {I : σ → Prop} (hstep : ∀ s e, ok e → I s → I (step s e))
    {es : List ε} (hes : ∀ e ∈ es, ok e) {s : σ} (h : I s) : I (run step s es) := by
  induction es generalizing s with
  | nil => exact h
  | cons e es ih =>
    exact ih (fun e' he' => hes e' (List.mem_cons_of_mem _ he')) (hstep _ _ (hes e List.mem_cons_self) h)

/-- The invariant rule for a machine without a side condition. -/
theorem invariant {I : σ → Prop} (hstep : ∀ s e, I s → I (step s e)) (es : List ε) {s : σ} (h : I s) :
    I (run step s es) := by
  induction es generalizing s with
  | nil => exact h
  | cons e es ih => exact ih (hstep _ _ h)

/-! ## Histories -/

/-- What the steps of a run put out, in order. -/
def trace (step : σ → ε → σ) (out : σ → ε → List β) : σ → List ε → List β
  | _, [] => []
  | s, e :: es => out s e ++ trace step out (step s e) es

/-- **First in, first out**: where every step takes what it puts out from the
front of what is held and adds what comes in at the end, so does a run. -/
theorem trace_fifo {enter leave : σ → ε → List β} {held : σ → List β}
    (h : ∀ s e, held s ++ enter s e = leave s e ++ held (step s e)) (s : σ) (es : List ε) :
    held s ++ trace step enter s es = trace step leave s es ++ held (run step s es) := by
  induction es generalizing s with
  | nil => simp [trace]
  | cons e es ih => rw [trace, trace, ← List.append_assoc, h, List.append_assoc, ih, run_cons, List.append_assoc]

end Machine
