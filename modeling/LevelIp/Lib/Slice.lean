/-
Slices of a list: `Slice.At S i p` says that `S` holds `p` from position `i`
on. The empty slice is at every position.
-/
import Mathlib.Data.List.Basic
import Mathlib.Data.List.Infix

namespace Slice

variable {α : Type*}

/-- `S` holds `p` from position `i` on. -/
def At (S : List α) (i : Nat) (p : List α) : Prop := p <+: S.drop i

instance [DecidableEq α] (S : List α) (i : Nat) (p : List α) : Decidable (At S i p) :=
  inferInstanceAs (Decidable (p <+: S.drop i))

variable {S p q : List α} {i : Nat}

@[simp] theorem At.nil : At S i [] := List.nil_prefix

theorem At.eq_take (h : At S i p) : p = (S.drop i).take p.length := List.prefix_iff_eq_take.mp h

/-- Reading a slice where the prefix ends extends the prefix. -/
theorem At.take_append (h : At S i p) : S.take i ++ p = S.take (i + p.length) := by
  rw [List.take_add, ← h.eq_take]

theorem At.length_le (h : At S i p) (hp : p ≠ []) : i + p.length ≤ S.length := by
  have hl : p.length ≤ (S.drop i).length := List.IsPrefix.length_le h
  rw [List.length_drop] at hl
  have : 0 < p.length := List.length_pos_of_ne_nil hp
  omega

/-- A slice stays where it is when the list grows. -/
theorem At.mono (h : At S i p) (T : List α) (hi : i + p.length ≤ S.length) : At (S ++ T) i p := by
  rw [At, List.drop_append_of_le_length (by omega)]
  exact h.trans (List.prefix_append _ _)

theorem at_end (S p : List α) : At (S ++ p) S.length p := by
  rw [At, List.drop_left]

end Slice
