/-
The elements of a list that meet a test, and the stretch of as many elements that
begins with the first of them. The two are the same where those elements stand
together. Both can be written back: the stretch as a block, the elements one by
one.
-/
import Mathlib

namespace Window

variable {α κ : Type*} {p : α → Bool} {l ys : List α}

/-- As many elements as meet the test, from the first of them on. -/
def window (p : α → Bool) (l : List α) : List α := (l.drop (l.findIdx p)).take (l.countP p)

/-- The list with something else in the place of its window. -/
def put (p : α → Bool) (l ys : List α) : List α := l.take (l.findIdx p) ++ (ys ++ l.drop (l.findIdx p + l.countP p))

/-- The elements that meet the test stand together. -/
def Together (p : α → Bool) (l : List α) : Prop :=
  ∃ a k b, l = a ++ (k ++ b) ∧ (∀ x ∈ a, p x = false) ∧ (∀ x ∈ k, p x) ∧ ∀ x ∈ b, p x = false

/-- The list, each element that meets the test changed by the next of `ys`. -/
def fill (f : α → α → α) (p : α → Bool) : List α → List α → List α
  | x :: l, y :: ys => if p x then f x y :: fill f p l ys else x :: fill f p l (y :: ys)
  | l, _ => l

/-! ## The window -/

theorem put_window (p : α → Bool) (l : List α) : put p l (window p l) = l := by
  rw [put, window, ← List.drop_drop, List.take_append_drop, List.take_append_drop]

theorem window_of_none (h : ∀ x ∈ l, p x = false) : window p l = [] := by
  have hcount : l.countP p = 0 := List.countP_eq_zero.mpr fun x hx => by simp [h x hx]
  rw [window, hcount, List.take_zero]

section apart
variable {a k b : List α}

theorem findIdx_apart (ha : ∀ x ∈ a, p x = false) (hk : ∀ x ∈ k, p x) (hne : k ≠ []) : (a ++ (k ++ b)).findIdx p = a.length := by
  obtain ⟨x, k, rfl⟩ := List.exists_cons_of_ne_nil hne
  rw [List.findIdx_append, if_neg, List.cons_append, List.findIdx_cons, hk x List.mem_cons_self]
  · simp
  · rw [not_lt, List.findIdx_eq_length.mpr ha]

theorem countP_apart (ha : ∀ x ∈ a, p x = false) (hk : ∀ x ∈ k, p x) (hb : ∀ x ∈ b, p x = false) :
    (a ++ (k ++ b)).countP p = k.length := by
  have ha' : a.countP p = 0 := List.countP_eq_zero.mpr fun x hx => by simp [ha x hx]
  have hb' : b.countP p = 0 := List.countP_eq_zero.mpr fun x hx => by simp [hb x hx]
  rw [List.countP_append, List.countP_append, ha', hb', List.countP_eq_length.mpr hk, Nat.zero_add, Nat.add_zero]

theorem filter_apart (ha : ∀ x ∈ a, p x = false) (hk : ∀ x ∈ k, p x) (hb : ∀ x ∈ b, p x = false) :
    (a ++ (k ++ b)).filter p = k := by
  rw [List.filter_append, List.filter_append, List.filter_eq_nil_iff.mpr fun x hx => by simp [ha x hx],
    List.filter_eq_self.mpr hk, List.filter_eq_nil_iff.mpr fun x hx => by simp [hb x hx], List.nil_append, List.append_nil]

theorem filter_not_apart (ha : ∀ x ∈ a, p x = false) (hk : ∀ x ∈ k, p x) (hb : ∀ x ∈ b, p x = false) :
    (a ++ (k ++ b)).filter (!p ·) = a ++ b := by
  rw [List.filter_append, List.filter_append, List.filter_eq_self.mpr fun x hx => by simp [ha x hx],
    List.filter_eq_nil_iff.mpr fun x hx => by simp [hk x hx], List.filter_eq_self.mpr fun x hx => by simp [hb x hx],
    List.nil_append]

end apart

theorem Together.window_eq (h : Together p l) : window p l = l.filter p := by
  obtain ⟨a, k, b, rfl, ha, hk, hb⟩ := h
  rw [filter_apart ha hk hb, window, countP_apart ha hk hb]
  by_cases hne : k = []
  · rw [hne, List.length_nil, List.take_zero]
  · rw [findIdx_apart ha hk hne, List.drop_left, List.take_left]

theorem together_of_window (h : ∀ x ∈ window p l, p x) : Together p l := by
  refine ⟨l.take (l.findIdx p), window p l, l.drop (l.findIdx p + l.countP p), (put_window p l).symm, fun x hx => ?_, h, fun x hx => ?_⟩
  · obtain ⟨i, hi, rfl⟩ := List.mem_take_iff_getElem.mp hx
    exact Bool.not_eq_true _ ▸ List.not_of_lt_findIdx (by omega)
  · -- the window has all the elements there are
    by_contra hp
    have hcount : l.countP p = (l.take (l.findIdx p)).countP p + ((window p l).countP p + (l.drop (l.findIdx p + l.countP p)).countP p) := by
      rw [← List.countP_append, ← List.countP_append]
      exact congrArg (List.countP p) (put_window p l).symm
    have hrest : 0 < (l.drop (l.findIdx p + l.countP p)).countP p := List.countP_pos_iff.mpr ⟨x, hx, by simpa using hp⟩
    have hlen : (window p l).length ≤ l.countP p := by
      rw [window, List.length_take]
      exact Nat.min_le_left _ _
    have hdrop : l.findIdx p + l.countP p < l.length := by
      by_contra hle
      rw [List.drop_of_length_le (by omega)] at hx
      cases hx
    have hwin : (window p l).countP p = (window p l).length := List.countP_eq_length.mpr h
    have hfull : (window p l).length = l.countP p := by
      rw [window, List.length_take, List.length_drop]
      omega
    omega

theorem Together.filter_put (h : Together p l) (hys : ∀ y ∈ ys, p y) (hlen : ys.length = l.countP p) :
    (put p l ys).filter p = ys ∧ (put p l ys).filter (!p ·) = l.filter (!p ·) := by
  obtain ⟨a, k, b, rfl, ha, hk, hb⟩ := h
  by_cases hne : k = []
  · rw [countP_apart ha hk hb, hne, List.length_nil] at hlen
    rw [List.eq_nil_of_length_eq_zero hlen]
    have hnone : ∀ x ∈ a ++ (k ++ b), p x = false := by
      rw [hne]
      exact fun x hx => (List.mem_append.mp hx).elim (ha x) (hb x)
    have hput : put p (a ++ (k ++ b)) [] = a ++ (k ++ b) := by
      rw [← window_of_none hnone]
      exact put_window p _
    rw [hput]
    exact ⟨List.filter_eq_nil_iff.mpr fun x hx => by simp [hnone x hx], rfl⟩
  · have hput : put p (a ++ (k ++ b)) ys = a ++ (ys ++ b) := by
      rw [put, findIdx_apart ha hk hne, countP_apart ha hk hb, List.take_left, ← List.drop_drop, List.drop_left, List.drop_left]
    rw [hput]
    exact ⟨filter_apart ha hys hb, by rw [filter_not_apart ha hys hb, filter_not_apart ha hk hb]⟩

theorem map_put {g : α → κ} (h : ys.map g = (window p l).map g) : (put p l ys).map g = l.map g := by
  conv_rhs => rw [← put_window p l]
  simp only [put, List.map_append, h]

/-! ## What is seen from an image

An image that tells which elements meet the test tells which places they have. -/

section image
variable {m : List α} {g : α → κ}

theorem exists_congr_map (hg : ∀ x y, g x = g y → p x = p y) (hm : m.map g = l.map g) {x : α} (hx : x ∈ m) : ∃ y ∈ l, p x = p y := by
  have hmem : g x ∈ l.map g := hm ▸ List.mem_map_of_mem hx
  obtain ⟨y, hy, hgy⟩ := List.mem_map.mp hmem
  exact ⟨y, hy, hg x y hgy.symm⟩

theorem map_filter_congr (hg : ∀ x y, g x = g y → p x = p y) (hm : m.map g = l.map g) :
    (m.filter p).map g = (l.filter p).map g := by
  induction m generalizing l with
  | nil => rw [List.map_eq_nil_iff.mp hm.symm]
  | cons x m ih =>
    obtain ⟨y, l, rfl, hxy, hrest⟩ := List.map_eq_cons_iff.mp hm.symm
    rw [List.filter_cons, List.filter_cons, hg x y hxy.symm]
    split
    · rw [List.map_cons, List.map_cons, hxy, ih hrest.symm]
    · exact ih hrest.symm

theorem countP_congr_map (hg : ∀ x y, g x = g y → p x = p y) (hm : m.map g = l.map g) : m.countP p = l.countP p := by
  have h := congrArg List.length (map_filter_congr hg hm)
  rwa [List.length_map, List.length_map, ← List.countP_eq_length_filter, ← List.countP_eq_length_filter] at h

theorem findIdx_congr_map (hg : ∀ x y, g x = g y → p x = p y) (hm : m.map g = l.map g) : m.findIdx p = l.findIdx p := by
  induction m generalizing l with
  | nil => rw [List.map_eq_nil_iff.mp hm.symm]
  | cons x m ih =>
    obtain ⟨y, l, rfl, hxy, hrest⟩ := List.map_eq_cons_iff.mp hm.symm
    rw [List.findIdx_cons, List.findIdx_cons, hg x y hxy.symm, ih hrest.symm]

theorem map_window_congr (hg : ∀ x y, g x = g y → p x = p y) (hm : m.map g = l.map g) : (window p m).map g = (window p l).map g := by
  rw [window, window, findIdx_congr_map hg hm, countP_congr_map hg hm, List.map_take, List.map_take, List.map_drop, List.map_drop, hm]

theorem Together.congr (hg : ∀ x y, g x = g y → p x = p y) (hm : m.map g = l.map g) (h : Together p l) : Together p m := by
  refine together_of_window fun x hx => ?_
  have hw : (window p m).map g = (l.filter p).map g := by rw [map_window_congr hg hm, h.window_eq]
  obtain ⟨y, hy, hxy⟩ := exists_congr_map hg hw hx
  exact hxy ▸ (List.mem_filter.mp hy).2

end image

/-! ## One by one -/

section fill
variable {f : α → α → α} {g : α → κ}

/-- Elements that are changed into what stands for them are replaced. -/
theorem fill_spec (hg : ∀ x y, g x = g y → p x = p y) (hf : ∀ x y, g y = g x → f x y = y) (h : ys.map g = (l.filter p).map g) :
    (fill f p l ys).filter p = ys ∧ (fill f p l ys).filter (!p ·) = l.filter (!p ·) ∧ (fill f p l ys).map g = l.map g := by
  induction l generalizing ys with
  | nil => simp_all [fill]
  | cons x l ih =>
    cases hx : p x with
    | true =>
      rw [List.filter_cons_of_pos hx, List.map_cons] at h
      obtain ⟨y, ys, rfl, hy, hrest⟩ := List.map_eq_cons_iff.mp h
      obtain ⟨h1, h2, h3⟩ := ih hrest
      have hpy : p y = true := (hg y x hy).trans hx
      rw [fill, if_pos hx, hf x y hy]
      simp [hpy, hx, h1, h2, h3, hy]
    | false =>
      rw [List.filter_cons_of_neg (by simp [hx])] at h
      obtain ⟨h1, h2, h3⟩ := ih h
      have hcons : fill f p (x :: l) ys = x :: fill f p l ys := by
        cases ys with
        | nil => cases l <;> rfl
        | cons y ys => rw [fill, hx, if_neg (by decide)]
      rw [hcons]
      simp [hx, h1, h2, h3]

end fill

end Window
