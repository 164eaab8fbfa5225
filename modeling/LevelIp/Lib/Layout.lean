/-
Intervals laid out one after another: a list whose elements cover `[f a, g a)`,
in order and without overlap, between two bounds; and lists without gaps, whose
elements begin where the one before has ended.
-/
import Mathlib

namespace Layout

variable {α : Type*} {f g : α → Nat} {lo hi : Nat} {l : List α} {a b : α}

/-- The intervals of `l` follow one another between `lo` and `hi`. -/
def Laid (f g : α → Nat) : Nat → Nat → List α → Prop
  | lo, hi, [] => lo ≤ hi
  | lo, hi, a :: l => lo ≤ f a ∧ f a ≤ g a ∧ Laid f g (g a) hi l

theorem Laid.le (h : Laid f g lo hi l) : lo ≤ hi := by
  induction l generalizing lo with
  | nil => exact h
  | cons a l ih => exact Nat.le_trans h.1 (Nat.le_trans h.2.1 (ih h.2.2))

theorem Laid.mono_left {lo' : Nat} (h : Laid f g lo hi l) (hle : lo' ≤ lo) : Laid f g lo' hi l := by
  cases l with
  | nil => exact Nat.le_trans hle h
  | cons a l => exact ⟨Nat.le_trans hle h.1, h.2⟩

theorem Laid.mono_right {hi' : Nat} (h : Laid f g lo hi l) (hle : hi ≤ hi') : Laid f g lo hi' l := by
  induction l generalizing lo with
  | nil => exact Nat.le_trans h hle
  | cons a l ih => exact ⟨h.1, h.2.1, ih h.2.2⟩

theorem Laid.tail (h : Laid f g lo hi (a :: l)) : Laid f g lo hi l := h.2.2.mono_left (Nat.le_trans h.1 h.2.1)

/-- One more interval at the end. -/
theorem Laid.concat (h : Laid f g lo hi l) (ha : hi ≤ f a) (hg : f a ≤ g a) : Laid f g lo (g a) (l ++ [a]) := by
  induction l generalizing lo with
  | nil => exact ⟨Nat.le_trans h ha, hg, Nat.le_refl _⟩
  | cons b l ih => exact ⟨h.1, h.2.1, ih h.2.2⟩

theorem Laid.mem (h : Laid f g lo hi l) (ha : a ∈ l) : lo ≤ f a ∧ f a ≤ g a ∧ g a ≤ hi := by
  induction l generalizing lo with
  | nil => cases ha
  | cons b l ih =>
    rcases List.mem_cons.mp ha with rfl | ha
    · exact ⟨h.1, h.2.1, h.2.2.le⟩
    · obtain ⟨h1, h2, h3⟩ := ih h.2.2 ha
      exact ⟨Nat.le_trans (Nat.le_trans h.1 h.2.1) h1, h2, h3⟩

theorem Laid.pairwise (h : Laid f g lo hi l) : l.Pairwise fun a b => g a ≤ f b := by
  induction l generalizing lo with
  | nil => exact .nil
  | cons a l ih => exact .cons (fun b hb => (h.2.2.mem hb).1) (ih h.2.2)

theorem Laid.sum_le (h : Laid f g lo hi l) : lo + (l.map fun a => g a - f a).sum ≤ hi := by
  induction l generalizing lo with
  | nil => exact h
  | cons a l ih =>
    have := ih h.2.2
    have h1 := h.1
    have h2 := h.2.1
    rw [List.map_cons, List.sum_cons]
    omega

theorem Laid.dropWhile (h : Laid f g lo hi l) (p : α → Bool) : Laid f g lo hi (l.dropWhile p) := by
  induction l generalizing lo with
  | nil => exact h
  | cons a l ih =>
    rw [List.dropWhile_cons]
    split
    · exact ih h.tail
    · exact h

/-- An interval of the list that ends beyond `n` is followed only by such. -/
theorem Laid.beyond {n : Nat} (h : Laid f g lo hi (a :: l)) (ha : n < g a) (hb : b ∈ a :: l) : n < g b := by
  rcases List.mem_cons.mp hb with rfl | hb
  · exact ha
  · obtain ⟨h1, h2, -⟩ := h.2.2.mem hb
    omega

/-! ## Without gaps -/

/-- The elements of `l` follow one another from `lo` to `hi`, each beginning
where the one before has taken its `size`. -/
def Contiguous (f size : α → Nat) : Nat → Nat → List α → Prop
  | lo, hi, [] => lo = hi
  | lo, hi, a :: l => f a = lo ∧ Contiguous f size (lo + size a) hi l

section

variable {size : α → Nat} {l' : List α}

theorem Contiguous.append (h : Contiguous f size lo hi l) {hi' : Nat} (h' : Contiguous f size hi hi' l') :
    Contiguous f size lo hi' (l ++ l') := by
  induction l generalizing lo with
  | nil =>
    cases h
    exact h'
  | cons a l ih => exact ⟨h.1, ih h.2⟩

/-- Where a list ends. -/
theorem Contiguous.hi_eq (h : Contiguous f size lo hi l) : hi = lo + (l.map size).sum := by
  induction l generalizing lo with
  | nil => exact h.symm
  | cons a l ih =>
    rw [ih h.2, List.map_cons, List.sum_cons, Nat.add_assoc]

/-- A list in two parts joins at the end of the first. -/
theorem Contiguous.split (h : Contiguous f size lo hi (l ++ l')) :
    Contiguous f size lo (lo + (l.map size).sum) l ∧ Contiguous f size (lo + (l.map size).sum) hi l' := by
  induction l generalizing lo with
  | nil => exact ⟨rfl, h⟩
  | cons a l ih =>
    obtain ⟨h1, h2⟩ := ih h.2
    rw [List.map_cons, List.sum_cons, ← Nat.add_assoc]
    exact ⟨⟨h.1, h1⟩, h2⟩

theorem Contiguous.le (h : Contiguous f size lo hi l) : lo ≤ hi := h.hi_eq ▸ Nat.le_add_right lo _

theorem Contiguous.mem (h : Contiguous f size lo hi l) (ha : a ∈ l) : lo ≤ f a ∧ f a + size a ≤ hi := by
  induction l generalizing lo with
  | nil => cases ha
  | cons b l ih =>
    rcases List.mem_cons.mp ha with rfl | ha
    · rw [h.1]
      exact ⟨Nat.le_refl lo, h.2.le⟩
    · obtain ⟨h1, h2⟩ := ih h.2 ha
      exact ⟨Nat.le_trans (Nat.le_add_right lo _) h1, h2⟩

theorem Contiguous.pairwise (h : Contiguous f size lo hi l) : l.Pairwise fun a b => f a + size a ≤ f b := by
  induction l generalizing lo with
  | nil => exact .nil
  | cons a l ih => exact .cons (fun b hb => by rw [h.1]; exact (h.2.mem hb).1) (ih h.2)

end

end Layout
