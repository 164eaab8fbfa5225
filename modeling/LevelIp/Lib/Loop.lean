/-
`while` loops: a guard and a turn on the states of a loop. A loop whose turns
lower a measure for as long as it goes on ends, and a run with enough fuel is
where it ends.
-/
import Mathlib

namespace Loop

variable {σ : Type*} (going : σ → Prop) (turn : σ → σ)

/-- The loop makes `n` turns from `s` and ends. -/
structure EndsAfter (n : Nat) (s : σ) : Prop where
  goes : ∀ k < n, going (turn^[k] s)
  stops : ¬ going (turn^[n] s)

/-- The loop with `fuel` for so many turns. -/
def run [DecidablePred going] : (fuel : Nat) → σ → σ
  | 0, s => s
  | fuel + 1, s => if going s then run fuel (turn s) else s

variable {going turn} {s : σ} {n fuel : Nat}

theorem EndsAfter.zero (h : ¬ going s) : EndsAfter going turn 0 s := ⟨fun _ hk => absurd hk (Nat.not_lt_zero _), h⟩

theorem EndsAfter.succ (hs : going s) (h : EndsAfter going turn n (turn s)) : EndsAfter going turn (n + 1) s := by
  refine ⟨fun k hk => ?_, h.stops⟩
  cases k with
  | zero => exact hs
  | succ k => exact h.goes k (by omega)

/-- **The rule of the measure**: it is positive while the loop goes on, and a
turn after which the loop still goes on has lowered it. -/
theorem exists_endsAfter {μ : σ → Nat} (hpos : ∀ s, going s → 0 < μ s) (hlt : ∀ s, going s → going (turn s) → μ (turn s) < μ s)
    (s : σ) : ∃ n ≤ μ s, EndsAfter going turn n s := by
  induction hm : μ s using Nat.strong_induction_on generalizing s with
  | _ m ih =>
    subst hm
    by_cases hs : going s
    · by_cases hnext : going (turn s)
      · obtain ⟨n, hn, hends⟩ := ih _ (hlt s hs hnext) (turn s) rfl
        have := hlt s hs hnext
        exact ⟨n + 1, by omega, .succ hs hends⟩
      · exact ⟨1, hpos s hs, .succ hs (.zero hnext)⟩
    · exact ⟨0, Nat.zero_le _, .zero hs⟩

section
variable [DecidablePred going]

theorem run_of_not (h : ¬ going s) (fuel : Nat) : run going turn fuel s = s := by
  cases fuel with
  | zero => rfl
  | succ fuel => exact if_neg h

/-- With enough fuel the run is where the loop ends. -/
theorem EndsAfter.run_eq (h : EndsAfter going turn n s) (hf : n ≤ fuel) : run going turn fuel s = turn^[n] s := by
  induction n generalizing s fuel with
  | zero => exact run_of_not h.stops fuel
  | succ n ih =>
    obtain ⟨fuel, rfl⟩ : ∃ f, fuel = f + 1 := ⟨fuel - 1, by omega⟩
    have hrest : EndsAfter going turn n (turn s) := ⟨fun k hk => h.goes (k + 1) (by omega), h.stops⟩
    have hs : going s := h.goes 0 (Nat.succ_pos n)
    rw [run, if_pos hs, ih hrest (by omega)]
    rfl

end

end Loop
