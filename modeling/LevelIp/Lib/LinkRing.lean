/-
Doubly linked rings with a head, the links of each node in the node itself: which
list a ring stands for, and what putting a node in and taking one out do to it and
to every other ring.
-/
import Mathlib

namespace LinkRing

/-- `next` and `prev` of every node. -/
structure Links (α : Type*) where
  next : α → α
  prev : α → α

variable {α : Type*}

/-- The two nodes are neighbours. -/
def Joined (m : Links α) (a b : α) : Prop := m.next a = b ∧ m.prev b = a

/-- From `a` over `xs` to `b`. -/
def Path (m : Links α) : α → List α → α → Prop
  | a, [], b => Joined m a b
  | a, x :: xs, b => Joined m a x ∧ Path m x xs b

/-- The ring of `h` has the nodes `xs`, in this order. -/
structure Holds (m : Links α) (h : α) (xs : List α) : Prop where
  path : Path m h xs h
  nodup : (h :: xs).Nodup

section paths
variable {m m' : Links α} {a b x : α} {xs ys : List α}

theorem path_append : Path m a (xs ++ x :: ys) b ↔ Path m a xs x ∧ Path m x ys b := by
  induction xs generalizing a with
  | nil => rfl
  | cons y xs ih => rw [List.cons_append, Path, ih, Path, and_assoc]

/-- The links on the way are all that counts. -/
theorem Path.congr (h : Path m a xs b) (hn : ∀ y ∈ a :: xs, m'.next y = m.next y) (hp : ∀ y ∈ xs ++ [b], m'.prev y = m.prev y) :
    Path m' a xs b := by
  induction xs generalizing a with
  | nil => exact ⟨(hn a List.mem_cons_self).trans h.1, (hp b List.mem_cons_self).trans h.2⟩
  | cons y xs ih =>
    refine ⟨⟨(hn a List.mem_cons_self).trans h.1.1, (hp y List.mem_cons_self).trans h.1.2⟩, ?_⟩
    exact ih h.2 (fun z hz => hn z (List.mem_cons_of_mem _ hz)) fun z hz => hp z (List.mem_cons_of_mem _ hz)

/-- Where a path comes from last. -/
theorem Path.prev_mem (h : Path m a xs b) : m.prev b ∈ a :: xs := by
  induction xs generalizing a with
  | nil => exact List.mem_singleton.mpr h.2
  | cons y xs ih => exact List.mem_cons_of_mem _ (ih h.2)

/-- Where it goes first. -/
theorem Path.next_mem (h : Path m a xs b) : m.next a ∈ xs ++ [b] := by
  cases xs with
  | nil => exact List.mem_singleton.mpr h.1
  | cons y xs =>
    rw [h.1.1]
    exact List.mem_cons_self

end paths

/-! ## Changing links -/

variable [DecidableEq α]

namespace Links

def setNext (m : Links α) (a b : α) : Links α := { m with next := Function.update m.next a b }
def setPrev (m : Links α) (a b : α) : Links α := { m with prev := Function.update m.prev a b }

/-- A ring of `h` alone. -/
def init (m : Links α) (h : α) : Links α := (m.setPrev h h).setNext h h

/-- `new` goes before `b`. -/
def addTail (m : Links α) (new b : α) : Links α :=
  let m := m.setNext (m.prev b) new
  let m := m.setPrev new (m.prev b)
  let m := m.setNext new b
  m.setPrev b new

/-- The neighbours of `x` become neighbours. -/
def del (m : Links α) (x : α) : Links α :=
  let prev := m.prev x
  let next := m.next x
  (m.setNext prev next).setPrev next prev

/-- At most `n` nodes from `x` on, up to `h`. -/
def walk (m : Links α) (h : α) : Nat → α → List α
  | 0, _ => []
  | n + 1, x => if x = h then [] else x :: walk m h n (m.next x)

variable (m : Links α) (new b x y : α)

theorem next_addTail : (m.addTail new b).next y = if y = new then b else if y = m.prev b then new else m.next y := by
  simp only [addTail, setNext, setPrev, Function.update_apply]

theorem prev_addTail : (m.addTail new b).prev y = if y = b then new else if y = new then m.prev b else m.prev y := by
  simp only [addTail, setNext, setPrev, Function.update_apply]

theorem next_del : (m.del x).next y = if y = m.prev x then m.next x else m.next y := by
  simp only [del, setNext, setPrev, Function.update_apply]

theorem prev_del : (m.del x).prev y = if y = m.next x then m.prev x else m.prev y := by
  simp only [del, setNext, setPrev, Function.update_apply]

end Links

variable {m : Links α} {h g a b new x : α} {xs ys zs : List α}

theorem holds_init (m : Links α) (h : α) : Holds (m.init h) h [] :=
  ⟨⟨by simp [Links.init, Links.setNext], by simp [Links.init, Links.setNext, Links.setPrev]⟩, by simp⟩

/-- A ring that is made leaves the others as they are. -/
theorem Holds.init_other (hg : Holds m g zs) (hh : h ∉ g :: zs) : Holds (m.init h) g zs := by
  refine ⟨hg.path.congr (fun y hy => ?_) fun y hy => ?_, hg.nodup⟩
  · exact Function.update_of_ne (ne_of_mem_of_not_mem hy hh) _ _
  · have hy : y ∈ g :: zs := by simpa [or_comm] using hy
    exact Function.update_of_ne (ne_of_mem_of_not_mem hy hh) _ _

/-- The walk meets the nodes in order. -/
theorem Path.walk (hp : Path m a xs h) (hh : h ∉ xs) {n : Nat} (hn : xs.length < n) : m.walk h n (m.next a) = xs := by
  induction xs generalizing a n with
  | nil =>
    obtain ⟨n, rfl⟩ := Nat.exists_eq_succ_of_ne_zero (Nat.ne_of_gt hn)
    rw [hp.1, Links.walk, if_pos rfl]
  | cons y xs ih =>
    obtain ⟨n, rfl⟩ := Nat.exists_eq_succ_of_ne_zero (Nat.ne_of_gt (Nat.zero_lt_of_lt hn))
    rw [List.mem_cons, not_or] at hh
    rw [hp.1.1, Links.walk, if_neg (Ne.symm hh.1), ih hp.2 hh.2 (Nat.lt_of_succ_lt_succ hn)]

/-! ## Putting in -/

/-- A path with one node more at its end. -/
theorem Path.addTail (hp : Path m a xs b) (hd : (a :: xs).Nodup) (hb : b ∉ xs) (hnew : new ∉ a :: xs) (hne : new ≠ b) :
    Path (m.addTail new b) a (xs ++ [new]) b := by
  refine path_append.mpr ⟨?_, ?_⟩
  · induction xs generalizing a with
    | nil =>
      have ha : a ≠ new := fun he => hnew (he ▸ List.mem_cons_self)
      refine ⟨?_, ?_⟩
      · rw [Links.next_addTail, if_neg ha, if_pos hp.2.symm]
      · rw [Links.prev_addTail, if_neg hne, if_pos rfl, hp.2]
    | cons y xs ih =>
      have hlast := hp.2.prev_mem
      have ha : a ∉ y :: xs := (List.nodup_cons.mp hd).1
      have han : a ≠ new := fun he => hnew (he ▸ List.mem_cons_self)
      have hyn : y ≠ new := fun he => hnew (he ▸ List.mem_cons_of_mem _ List.mem_cons_self)
      have hyb : y ≠ b := fun he => hb (he ▸ List.mem_cons_self)
      refine ⟨⟨?_, ?_⟩, ih hp.2 (List.nodup_cons.mp hd).2 (fun hm => hb (List.mem_cons_of_mem _ hm)) fun hm => hnew (List.mem_cons_of_mem _ hm)⟩
      · rw [Links.next_addTail, if_neg han, if_neg (ne_of_mem_of_not_mem hlast ha).symm]
        exact hp.1.1
      · rw [Links.prev_addTail, if_neg hyb, if_neg hyn]
        exact hp.1.2
  · exact ⟨by rw [Links.next_addTail, if_pos rfl], by rw [Links.prev_addTail, if_pos rfl]⟩

/-- **Before the head** is at the end. -/
theorem Holds.append (hr : Holds m h xs) (hnew : new ∉ h :: xs) : Holds (m.addTail new h) h (xs ++ [new]) := by
  have hhead := (List.nodup_cons.mp hr.nodup).1
  refine ⟨hr.path.addTail hr.nodup hhead hnew fun he => hnew (he ▸ List.mem_cons_self), ?_⟩
  rw [← List.cons_append]
  exact hr.nodup.append (List.nodup_singleton new) (by simpa [List.disjoint_singleton] using hnew)

omit [DecidableEq α] in
/-- What comes after a node, up to the head, is another node. -/
theorem ne_of_mem_rest {y : α} (hd : (x :: ys).Nodup) (hh : h ∉ x :: ys) (hy : y ∈ ys ++ [h]) : y ≠ x := by
  rcases List.mem_append.mp hy with hy | hy
  · exact ne_of_mem_of_not_mem hy (List.nodup_cons.mp hd).1
  · rw [List.mem_singleton.mp hy]
    exact fun he => hh (he ▸ List.mem_cons_self)

/-- **Before a node** of the ring. -/
theorem Holds.insert (hr : Holds m h (xs ++ x :: ys)) (hnew : new ∉ h :: (xs ++ x :: ys)) :
    Holds (m.addTail new x) h (xs ++ new :: x :: ys) := by
  obtain ⟨hpre, hpost⟩ := path_append.mp hr.path
  have hd := hr.nodup
  rw [← List.cons_append] at hd hnew
  obtain ⟨hdpre, hdpost, hdis⟩ := List.nodup_append.mp hd
  rw [List.mem_append, not_or] at hnew
  have hxpre : x ∉ xs := fun hm => hdis x (List.mem_cons_of_mem _ hm) x List.mem_cons_self rfl
  have hin := hpre.addTail hdpre hxpre hnew.1 fun he => hnew.2 (he ▸ List.mem_cons_self)
  have hlast := hpre.prev_mem
  have hrest : Path (m.addTail new x) x ys h := by
    refine hpost.congr (fun y hy => ?_) fun y hy => ?_
    · rw [Links.next_addTail, if_neg (ne_of_mem_of_not_mem hy hnew.2), if_neg (hdis _ hlast y hy).symm]
    · have hyx : y ≠ x := ne_of_mem_rest hdpost (fun hm => hdis h List.mem_cons_self h hm rfl) hy
      have hyn : y ≠ new := by
        rintro rfl
        rcases List.mem_append.mp hy with hy | hy
        · exact hnew.2 (List.mem_cons_of_mem _ hy)
        · exact hnew.1 (List.mem_singleton.mp hy ▸ List.mem_cons_self)
      rw [Links.prev_addTail, if_neg hyx, if_neg hyn]
  refine ⟨?_, ?_⟩
  · have hpath : Path (m.addTail new x) h ((xs ++ [new]) ++ x :: ys) h := path_append.mpr ⟨hin, hrest⟩
    rwa [List.append_assoc] at hpath
  · rw [← List.cons_append, List.nodup_middle]
    exact List.nodup_cons.mpr ⟨by rw [List.mem_append, not_or]; exact hnew, hd⟩

/-- **Every other ring** is as it was. -/
theorem Holds.addTail_other (hg : Holds m g zs) (hb : b ∉ g :: zs) (hprev : m.prev b ∉ g :: zs) (hnew : new ∉ g :: zs) :
    Holds (m.addTail new b) g zs := by
  refine ⟨hg.path.congr (fun y hy => ?_) fun y hy => ?_, hg.nodup⟩
  · rw [Links.next_addTail, if_neg (ne_of_mem_of_not_mem hy hnew), if_neg (ne_of_mem_of_not_mem hy hprev)]
  · have hy : y ∈ g :: zs := by simpa [or_comm] using hy
    rw [Links.prev_addTail, if_neg (ne_of_mem_of_not_mem hy hb), if_neg (ne_of_mem_of_not_mem hy hnew)]

/-! ## Taking out -/

/-- A path past the node it went to. -/
theorem Path.detach (hp : Path m a xs x) (hx : m.next x = b) (hd : (a :: xs).Nodup) (hb : b ∉ xs) : Path (m.del x) a xs b := by
  induction xs generalizing a with
  | nil => exact ⟨by rw [Links.next_del, if_pos hp.2.symm, hx], by rw [Links.prev_del, hx, if_pos rfl, hp.2]⟩
  | cons y xs ih =>
    have hlast := hp.2.prev_mem
    have ha : a ∉ y :: xs := (List.nodup_cons.mp hd).1
    have hyb : y ≠ b := fun he => hb (he ▸ List.mem_cons_self)
    refine ⟨⟨?_, ?_⟩, ih hp.2 (List.nodup_cons.mp hd).2 fun hm => hb (List.mem_cons_of_mem _ hm)⟩
    · rw [Links.next_del, if_neg (ne_of_mem_of_not_mem hlast ha).symm]
      exact hp.1.1
    · rw [Links.prev_del, hx, if_neg hyb]
      exact hp.1.2

/-- **Any node** of the ring can be taken out. -/
theorem Holds.del (hr : Holds m h (xs ++ x :: ys)) : Holds (m.del x) h (xs ++ ys) := by
  obtain ⟨hpre, hpost⟩ := path_append.mp hr.path
  have hd := hr.nodup
  rw [← List.cons_append] at hd
  obtain ⟨hdpre, hdpost, hdis⟩ := List.nodup_append.mp hd
  have hlast := hpre.prev_mem
  have hnodup : (h :: (xs ++ ys)).Nodup := by
    rw [← List.cons_append]
    exact (List.nodup_cons.mp (List.nodup_middle.mp hd)).2
  refine ⟨?_, hnodup⟩
  cases ys with
  | nil =>
    rw [List.append_nil]
    exact hpre.detach hpost.1 hdpre (List.nodup_cons.mp hdpre).1
  | cons y ys =>
    have hy : y ∉ xs := fun hm => hdis y (List.mem_cons_of_mem _ hm) y (List.mem_cons_of_mem _ List.mem_cons_self) rfl
    refine path_append.mpr ⟨hpre.detach hpost.1.1 hdpre hy, hpost.2.congr (fun z hz => ?_) fun z hz => ?_⟩
    · rw [Links.next_del, if_neg (hdis _ hlast z (List.mem_cons_of_mem _ hz)).symm]
    · have hzy : z ≠ y :=
        ne_of_mem_rest (List.nodup_cons.mp hdpost).2 (fun hm => hdis h List.mem_cons_self h (List.mem_cons_of_mem _ hm) rfl) hz
      rw [Links.prev_del, hpost.1.1, if_neg hzy]

/-- **Every other ring** is as it was. -/
theorem Holds.del_other (hg : Holds m g zs) (hprev : m.prev x ∉ g :: zs) (hnext : m.next x ∉ g :: zs) : Holds (m.del x) g zs := by
  refine ⟨hg.path.congr (fun y hy => ?_) fun y hy => ?_, hg.nodup⟩
  · rw [Links.next_del, if_neg (ne_of_mem_of_not_mem hy hprev)]
  · have hy : y ∈ g :: zs := by simpa [or_comm] using hy
    rw [Links.prev_del, if_neg (ne_of_mem_of_not_mem hy hnext)]

end LinkRing
