/-
A flat memory of cells, with addresses counted from some place in it: a stretch
of cells read or written at once, and what a read finds after a write.
-/
import Mathlib

namespace Memory

variable {β : Type*}

/-- What is in each cell. -/
abbrev Mem (β : Type*) := Int → β

/-- The memory with `bs` at `addr`. -/
def write (m : Mem β) (addr : Int) (bs : List β) : Mem β := fun i =>
  if addr ≤ i then (bs[(i - addr).toNat]?).getD (m i) else m i

/-- The `n` cells at `addr`. -/
def read (m : Mem β) (addr : Int) (n : Nat) : List β := (List.range n).map fun i : Nat => m (addr + i)

@[simp] theorem length_read (m : Mem β) (addr : Int) (n : Nat) : (read m addr n).length = n := by
  rw [read, List.length_map, List.length_range]

theorem read_congr {m m' : Mem β} {a a' : Int} {n : Nat} (h : ∀ i < n, m (a + (i : Nat)) = m' (a' + (i : Nat))) :
    read m a n = read m' a' n :=
  List.map_congr_left fun i hi => h i (List.mem_range.mp hi)

theorem read_add (m : Mem β) (addr : Int) (k n : Nat) : read m addr (k + n) = read m addr k ++ read m (addr + k) n := by
  rw [read, List.range_add, List.map_append, List.map_map]
  refine congrArg (read m addr k ++ ·) (List.map_congr_left fun i _ => ?_)
  rw [Function.comp_apply, Nat.cast_add, Int.add_assoc]

/-- Outside of what was written nothing changed. -/
theorem write_outside {m : Mem β} {addr i : Int} {bs : List β} (h : i < addr ∨ addr + bs.length ≤ i) : write m addr bs i = m i := by
  unfold write
  split
  next hle =>
    have hlen : bs.length ≤ (i - addr).toNat := by omega
    rw [List.getElem?_eq_none hlen, Option.getD_none]
  next => rfl

theorem write_inside {m : Mem β} {addr : Int} {bs : List β} {i : Nat} {b : β} (h : bs[i]? = some b) : write m addr bs (addr + i) = b := by
  have hi : (addr + i - addr).toNat = i := by omega
  rw [write, if_pos (by omega), hi, h, Option.getD_some]

/-- What was written is read back. -/
theorem read_write (m : Mem β) (addr : Int) (bs : List β) : read (write m addr bs) addr bs.length = bs := by
  refine List.ext_getElem (length_read _ _ _) fun i h1 h2 => ?_
  have hget : bs[i]? = some bs[i] := List.getElem?_eq_getElem h2
  simp only [read, List.getElem_map, List.getElem_range]
  exact write_inside hget

theorem read_write_outside {m : Mem β} {addr a : Int} {bs : List β} {n : Nat} (h : a + n ≤ addr ∨ addr + bs.length ≤ a) :
    read (write m addr bs) a n = read m a n :=
  read_congr fun i hi => write_outside (by omega)

/-- One cell is written. -/
theorem write_singleton (m : Mem β) (addr : Int) (b : β) (i : Int) : write m addr [b] i = if i = addr then b else m i := by
  split
  next heq =>
    subst heq
    have hcell : write m i [b] (i + (0 : Nat)) = b := write_inside rfl
    simpa using hcell
  next hne => exact write_outside (by rw [List.length_singleton]; omega)

/-! ## What is in place -/

/-- The memory has `bs` at `addr`. -/
def Holds (m : Mem β) (addr : Int) (bs : List β) : Prop := read m addr bs.length = bs

section holds

variable {m m' : Mem β} {addr a : Int} {bs cs : List β}

theorem holds_iff : Holds m addr bs ↔ ∀ i (h : i < bs.length), m (addr + (i : Nat)) = bs[i] := by
  constructor
  · intro h i hi
    have hget : (read m addr bs.length)[i]? = bs[i]? := by rw [h]
    rw [List.getElem?_eq_getElem hi, List.getElem?_eq_getElem (by rwa [length_read])] at hget
    simpa [read] using Option.some.inj hget
  · intro h
    exact List.ext_getElem (length_read _ _ _) fun i h1 h2 => by simpa [read] using h i h2

theorem Holds.nil : Holds m addr [] := rfl

theorem holds_append : Holds m addr (bs ++ cs) ↔ Holds m addr bs ∧ Holds m (addr + bs.length) cs := by
  unfold Holds
  rw [List.length_append, read_add]
  exact ⟨fun h => List.append_inj h (length_read _ _ _), fun h => by rw [h.1, h.2]⟩

/-- One thing behind another. -/
theorem Holds.append (hb : Holds m addr bs) (hc : Holds m a cs) (ha : a = addr + bs.length) : Holds m addr (bs ++ cs) :=
  holds_append.mpr ⟨hb, ha ▸ hc⟩

theorem holds_singleton {b : β} : Holds m addr [b] ↔ m addr = b := by
  rw [holds_iff]
  constructor
  · intro h
    simpa using h 0 Nat.one_pos
  · intro h i hi
    have hi : i = 0 := by simpa using hi
    subst hi
    simpa using h

theorem Holds.congr (h : Holds m addr bs) (heq : ∀ i, addr ≤ i → i < addr + bs.length → m' i = m i) : Holds m' addr bs :=
  (read_congr fun i hi => heq _ (by omega) (by omega)).trans h

theorem holds_write (m : Mem β) (addr : Int) (bs : List β) : Holds (write m addr bs) addr bs := read_write m addr bs

/-- What is elsewhere stays in place. -/
theorem Holds.write (h : Holds m a cs) (hd : a + cs.length ≤ addr ∨ addr + bs.length ≤ a) : Holds (write m addr bs) a cs :=
  (read_write_outside hd).trans h

/-- Writing over the beginning. -/
theorem Holds.overwrite (h : Holds m addr bs) (hl : cs.length ≤ bs.length) :
    Holds (Memory.write m addr cs) addr (cs ++ bs.drop cs.length) := by
  refine holds_append.mpr ⟨holds_write m addr cs, ?_⟩
  have hsplit : Holds m addr (bs.take cs.length ++ bs.drop cs.length) := by rwa [List.take_append_drop]
  have hrest := (holds_append.mp hsplit).2
  rw [List.length_take_of_le hl] at hrest
  exact hrest.write (.inr (Int.le_refl _))

/-- Writing over a part in the middle. -/
theorem Holds.patch {xs ys ys' zs : List β} (h : Holds m addr (xs ++ (ys ++ zs))) (ha : a = addr + xs.length) (hl : ys'.length = ys.length) :
    Holds (Memory.write m a ys') addr (xs ++ (ys' ++ zs)) := by
  obtain ⟨hx, hyz⟩ := holds_append.mp h
  obtain ⟨-, hz⟩ := holds_append.mp hyz
  refine (hx.write (.inl (by omega))).append ((holds_write m a ys').append (hz.write (.inr (by omega))) (by omega)) ha

theorem write_nil (m : Mem β) (addr : Int) : Memory.write m addr [] = m := by
  funext i
  unfold Memory.write
  split <;> rfl

end holds

end Memory
