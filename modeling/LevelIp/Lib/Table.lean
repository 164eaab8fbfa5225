/-
Lists as tables: entries are named by their place, changed in place and added
at the end.
-/
import Mathlib

namespace Table

variable {α : Type*}

theorem modify_eq_set {l : List α} {i : Nat} {x : α} (h : l[i]? = some x) (f : α → α) : l.modify i f = l.set i (f x) := by
  refine List.ext_getElem? fun j => ?_
  rw [List.getElem?_modify, List.getElem?_set]
  have hi := (List.getElem?_eq_some_iff.mp h).1
  by_cases hj : i = j
  · subst hj
    rw [h, if_pos rfl, if_pos hi]
    simp
  · rw [if_neg hj]
    simp [hj]

/-- An entry of a table after entry `i` was set. -/
theorem getElem?_set_cases {l : List α} {i j : Nat} {x y : α} (h : (l.set i x)[j]? = some y) :
    j = i ∧ y = x ∨ j ≠ i ∧ l[j]? = some y := by
  rw [List.getElem?_set] at h
  split at h
  next hij =>
    split at h
    · exact .inl ⟨hij.symm, (Option.some.inj h).symm⟩
    · cases h
  next hij => exact .inr ⟨fun he => hij he.symm, h⟩

theorem getElem?_set_self {l : List α} {i : Nat} {x z : α} (h : l[i]? = some z) : (l.set i x)[i]? = some x := by
  rw [List.getElem?_set, if_pos rfl, if_pos (List.getElem?_eq_some_iff.mp h).1]

theorem getElem?_set_ne {l : List α} {i j : Nat} (h : j ≠ i) (x : α) : (l.set i x)[j]? = l[j]? := by
  rw [List.getElem?_set, if_neg fun he => h he.symm]

theorem set_same {l : List α} {i : Nat} {x : α} (h : l[i]? = some x) : l.set i x = l := by
  obtain ⟨hi, rfl⟩ := List.getElem?_eq_some_iff.mp h
  exact List.set_getElem_self hi

/-- An entry of a table with one more. -/
theorem getElem?_append_cases {l : List α} {j : Nat} {x y : α} (h : (l ++ [x])[j]? = some y) :
    l[j]? = some y ∨ j = l.length ∧ y = x := by
  rcases Nat.lt_or_ge j l.length with hj | hj
  · exact .inl (by rwa [List.getElem?_append_left hj] at h)
  · rw [List.getElem?_append_right hj] at h
    have hlt := (List.getElem?_eq_some_iff.mp h).1
    have h0 : j - l.length = 0 := by simpa using hlt
    rw [h0] at h
    exact .inr ⟨by omega, (Option.some.inj h).symm⟩

theorem getElem?_append_old {l : List α} {j : Nat} {x : α} (h : l[j]? = some x) (y : α) : (l ++ [y])[j]? = some x := by
  rw [List.getElem?_append_left (List.getElem?_eq_some_iff.mp h).1, h]

theorem getElem?_append_new (l : List α) (x : α) : (l ++ [x])[l.length]? = some x := by
  rw [List.getElem?_append_right (le_refl _), Nat.sub_self, List.getElem?_cons_zero]

theorem lt_length {l : List α} {j : Nat} {x : α} (h : l[j]? = some x) : j < l.length := (List.getElem?_eq_some_iff.mp h).1

theorem forall_set {l : List α} {P : α → Prop} (h : ∀ x ∈ l, P x) {i : Nat} {y : α} (hy : P y) : ∀ x ∈ l.set i y, P x := by
  intro x hx
  rcases List.mem_or_eq_of_mem_set hx with hx | rfl
  · exact h x hx
  · exact hy

theorem forall_modify {l : List α} {P : α → Prop} (h : ∀ x ∈ l, P x) {i : Nat} {f : α → α} (hf : ∀ x ∈ l, P (f x)) :
    ∀ x ∈ l.modify i f, P x := by
  intro x hx
  obtain ⟨j, hj⟩ := List.mem_iff_getElem?.mp hx
  rw [List.getElem?_modify] at hj
  obtain ⟨y, hy, rfl⟩ := Option.map_eq_some_iff.mp hj
  split
  · exact hf y (List.mem_of_getElem? hy)
  · exact h y (List.mem_of_getElem? hy)

/-! ## Entries that are apart -/

/-- Every two entries are related by `R`. -/
def Apart (R : α → α → Prop) (l : List α) : Prop :=
  ∀ ⦃i j : Nat⦄ ⦃x y : α⦄, i ≠ j → l[i]? = some x → l[j]? = some y → R x y

variable {R : α → α → Prop} {l : List α}

theorem apart_nil : Apart R [] := by
  intro i j x y _ h
  cases h

/-- A changed entry has to be apart from the others. -/
theorem Apart.set (hR : ∀ x y, R x y → R y x) (h : Apart R l) {i : Nat} {x : α}
    (hx : ∀ (j : Nat) (y : α), j ≠ i → l[j]? = some y → R x y) : Apart R (l.set i x) := by
  intro a b u v hab hu hv
  rcases getElem?_set_cases hu with ⟨rfl, rfl⟩ | ⟨ha, hu'⟩
  · rcases getElem?_set_cases hv with ⟨rfl, rfl⟩ | ⟨hb, hv'⟩
    · exact absurd rfl hab
    · exact hx b v hb hv'
  · rcases getElem?_set_cases hv with ⟨rfl, rfl⟩ | ⟨-, hv'⟩
    · exact hR _ _ (hx a u ha hu')
    · exact h hab hu' hv'

/-- A new entry has to be apart from all. -/
theorem Apart.append (hR : ∀ x y, R x y → R y x) (h : Apart R l) {x : α} (hx : ∀ (j : Nat) (y : α), l[j]? = some y → R x y) :
    Apart R (l ++ [x]) := by
  intro a b u v hab hu hv
  rcases getElem?_append_cases hu with hu' | ⟨rfl, rfl⟩
  · rcases getElem?_append_cases hv with hv' | ⟨rfl, rfl⟩
    · exact h hab hu' hv'
    · exact hR _ _ (hx a u hu')
  · rcases getElem?_append_cases hv with hv' | ⟨rfl, rfl⟩
    · exact hx b v hv'
    · exact absurd rfl hab

/-- A change of one entry that keeps it as far from the others as it was. -/
theorem Apart.set_le (hR : ∀ x y, R x y → R y x) (h : Apart R l) {i : Nat} {x z : α} (hz : l[i]? = some z)
    (hx : ∀ y, R z y → R x y) : Apart R (l.set i x) :=
  h.set hR fun _ y hj hy => hx y (h (Ne.symm hj) hz hy)

end Table
