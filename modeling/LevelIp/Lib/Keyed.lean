/-
Lists whose entries are found by a key: of the entries with one key the first
counts, which is the only one where the keys are distinct.
-/
import Mathlib

namespace Keyed

variable {α κ : Type*} [DecidableEq κ] {key : α → κ}

/-- The place of the first entry with the key. -/
def idx (key : α → κ) (l : List α) (k : κ) : Nat := l.findIdx fun x => key x = k

/-- The first entry with the key. -/
def lookup (key : α → κ) (l : List α) (k : κ) : Option α := l.find? fun x => key x = k

/-- The list after `f` changed that entry. -/
def update (key : α → κ) (l : List α) (k : κ) (f : α → α) : List α := l.modify (idx key l k) f

theorem idx_cons (x : α) (l : List α) (k : κ) : idx key (x :: l) k = if key x = k then 0 else idx key l k + 1 := by
  unfold idx
  rw [List.findIdx_cons]
  by_cases h : key x = k <;> simp [h]

theorem lookup_cons (x : α) (l : List α) (k : κ) : lookup key (x :: l) k = if key x = k then some x else lookup key l k := by
  unfold lookup
  rw [List.find?_cons]
  by_cases h : key x = k <;> simp [h]

theorem update_cons (x : α) (l : List α) (k : κ) (f : α → α) :
    update key (x :: l) k f = if key x = k then f x :: l else x :: update key l k f := by
  unfold update
  rw [idx_cons]
  by_cases h : key x = k
  · rw [if_pos h, if_pos h]
    rfl
  · rw [if_neg h, if_neg h]
    rfl

theorem getElem?_idx (l : List α) (k : κ) : l[idx key l k]? = lookup key l k := by
  induction l with
  | nil => rfl
  | cons x l ih =>
    rw [idx_cons, lookup_cons]
    by_cases h : key x = k
    · rw [if_pos h, if_pos h, List.getElem?_cons_zero]
    · rw [if_neg h, if_neg h, List.getElem?_cons_succ, ih]

theorem lookup_key {l : List α} {k : κ} {x : α} (h : lookup key l k = some x) : key x = k := by
  simpa using List.find?_some h

theorem mem_of_lookup {l : List α} {k : κ} {x : α} (h : lookup key l k = some x) : x ∈ l := List.mem_of_find?_eq_some h

theorem lookup_eq_none {l : List α} {k : κ} : lookup key l k = none ↔ ∀ x ∈ l, key x ≠ k := by
  unfold lookup
  rw [List.find?_eq_none]
  simp only [decide_eq_true_eq, ne_eq]

/-- Where the keys are distinct, every entry is the one that is found. -/
theorem lookup_of_mem {l : List α} (hd : (l.map key).Nodup) {x : α} (hx : x ∈ l) : lookup key l (key x) = some x := by
  induction l with
  | nil => cases hx
  | cons y l ih =>
    rw [List.map_cons, List.nodup_cons] at hd
    rw [lookup_cons]
    rcases List.mem_cons.mp hx with rfl | hx
    · rw [if_pos rfl]
    · have hne : key y ≠ key x := fun he => hd.1 (he ▸ List.mem_map_of_mem hx)
      rw [if_neg hne, ih hd.2 hx]

/-! ## Changing the entry of a key -/

section update
variable {f : α → α}

/-- A change that keeps keys is seen at its own key only. -/
theorem lookup_update (hf : ∀ x, key (f x) = key x) (l : List α) (k j : κ) :
    lookup key (update key l k f) j = if j = k then (lookup key l k).map f else lookup key l j := by
  induction l with
  | nil => simp [update, lookup]
  | cons x l ih =>
    rw [update_cons, lookup_cons, lookup_cons]
    by_cases hk : key x = k
    · rw [if_pos hk, if_pos hk, lookup_cons, hf, hk]
      by_cases hj : k = j
      · rw [if_pos hj, if_pos hj.symm, Option.map_some]
      · rw [if_neg hj, if_neg (Ne.symm hj), if_neg hj]
    · rw [if_neg hk, if_neg hk, lookup_cons, ih]
      by_cases hj : key x = j
      · rw [if_pos hj, if_pos hj, if_neg (fun he => hk (hj.trans he))]
      · rw [if_neg hj, if_neg hj]

theorem update_of_none {l : List α} {k : κ} (h : lookup key l k = none) : update key l k f = l := by
  induction l with
  | nil => simp [update]
  | cons x l ih =>
    rw [lookup_cons] at h
    rw [update_cons]
    by_cases hk : key x = k
    · rw [if_pos hk] at h
      cases h
    · rw [if_neg hk] at h ⊢
      rw [ih h]

theorem map_update (hf : ∀ x, key (f x) = key x) (l : List α) (k : κ) : (update key l k f).map key = l.map key := by
  induction l with
  | nil => simp [update]
  | cons x l ih =>
    rw [update_cons]
    split
    · rw [List.map_cons, List.map_cons, hf]
    · rw [List.map_cons, List.map_cons, ih]

theorem mem_update {l : List α} {k : κ} {y : α} (h : y ∈ update key l k f) :
    y ∈ l ∨ ∃ x, lookup key l k = some x ∧ y = f x := by
  induction l with
  | nil => simp [update] at h
  | cons x l ih =>
    rw [update_cons] at h
    rw [lookup_cons]
    by_cases hk : key x = k
    · rw [if_pos hk] at h
      rw [if_pos hk]
      rcases List.mem_cons.mp h with rfl | h
      · exact .inr ⟨x, rfl, rfl⟩
      · exact .inl (List.mem_cons_of_mem _ h)
    · rw [if_neg hk] at h
      rw [if_neg hk]
      rcases List.mem_cons.mp h with rfl | h
      · exact .inl List.mem_cons_self
      · exact (ih h).imp_left (List.mem_cons_of_mem _)

theorem update_mem {l : List α} {k : κ} {x : α} (h : lookup key l k = some x) : f x ∈ update key l k f := by
  induction l with
  | nil => cases h
  | cons y l ih =>
    rw [lookup_cons] at h
    rw [update_cons]
    by_cases hk : key y = k
    · rw [if_pos hk] at h ⊢
      rw [Option.some.inj h]
      exact List.mem_cons_self
    · rw [if_neg hk] at h ⊢
      exact List.mem_cons_of_mem _ (ih h)

theorem lookup_map (hf : ∀ x, key (f x) = key x) (l : List α) (j : κ) : lookup key (l.map f) j = (lookup key l j).map f := by
  unfold lookup
  rw [List.find?_map]
  simp only [Function.comp_def, hf]

end update

/-! ## Removing the entries of a key -/

/-- The list without the entries with the key. -/
def remove (key : α → κ) (l : List α) (k : κ) : List α := l.filter fun x => key x ≠ k

theorem lookup_remove (l : List α) (k j : κ) : lookup key (remove key l k) j = if j = k then none else lookup key l j := by
  by_cases hj : j = k
  · subst hj
    rw [if_pos rfl, lookup_eq_none]
    intro x hx
    simpa [remove] using (List.mem_filter.mp hx).2
  · rw [if_neg hj, lookup, lookup, remove, List.find?_filter]
    congr 1
    funext x
    by_cases hx : key x = j <;> simp [hx, hj]

theorem nodup_remove {l : List α} (hd : (l.map key).Nodup) (k : κ) : ((remove key l k).map key).Nodup :=
  hd.sublist (List.filter_sublist.map key)

theorem remove_split {pre post : List α} {x : α} (hd : ((pre ++ x :: post).map key).Nodup) :
    remove key (pre ++ x :: post) (key x) = pre ++ post := by
  have hd' := List.nodup_append.mp (List.map_append ▸ hd)
  have hpre : ∀ y ∈ pre, key y ≠ key x := fun y hy =>
    hd'.2.2 _ (List.mem_map_of_mem hy) _ (List.mem_map_of_mem List.mem_cons_self)
  have hpost : ∀ y ∈ post, key y ≠ key x := fun y hy he => by
    have hn := hd'.2.1
    rw [List.map_cons, List.nodup_cons] at hn
    exact hn.1 (he ▸ List.mem_map_of_mem hy)
  rw [remove, List.filter_append, List.filter_cons, List.filter_eq_self.mpr (by simpa using hpre),
    List.filter_eq_self.mpr (by simpa using hpost)]
  simp

theorem lookup_split {pre post : List α} {x : α} (hd : ((pre ++ x :: post).map key).Nodup) :
    lookup key (pre ++ x :: post) (key x) = some x := lookup_of_mem hd (List.mem_append_right _ List.mem_cons_self)

theorem update_split {pre post : List α} {x : α} (hd : ((pre ++ x :: post).map key).Nodup) (f : α → α) :
    update key (pre ++ x :: post) (key x) f = pre ++ f x :: post := by
  induction pre with
  | nil => rw [List.nil_append, update_cons, if_pos rfl, List.nil_append]
  | cons y pre ih =>
    rw [List.cons_append, List.map_cons, List.nodup_cons] at hd
    have hne : key y ≠ key x := fun he => hd.1 (he ▸ List.mem_map_of_mem (List.mem_append_right _ List.mem_cons_self))
    rw [List.cons_append, update_cons, if_neg hne, ih hd.2, List.cons_append]

/-! ## A new entry -/

theorem lookup_append {l : List α} {x : α} (h : lookup key l (key x) = none) (j : κ) :
    lookup key (l ++ [x]) j = if j = key x then some x else lookup key l j := by
  unfold lookup at h ⊢
  rw [List.find?_append]
  by_cases hj : j = key x
  · subst hj
    rw [h, if_pos rfl]
    simp
  · rw [if_neg hj]
    simp [Ne.symm hj]

theorem nodup_append {l : List α} (hd : (l.map key).Nodup) {x : α} (h : lookup key l (key x) = none) :
    ((l ++ [x]).map key).Nodup := by
  rw [List.map_append, List.map_singleton, List.nodup_append]
  refine ⟨hd, List.nodup_singleton _, ?_⟩
  rintro a ha b hb rfl
  obtain ⟨y, hy, rfl⟩ := List.mem_map.mp ha
  exact lookup_eq_none.mp h y hy (List.mem_singleton.mp hb)

end Keyed
