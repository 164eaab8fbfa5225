/-
One's-complement sums of 16-bit words, and the checksum over bytes that is built
on them: what an end-around carry computes, why the byte order of the words does
not matter, and what the complement of a sum adds to it.
-/
import LevelIp.Lib.Bytes

namespace OnesComplement

open Bytes

/-- Addition with end-around carry. -/
def add (a b : Nat) : Nat := if a + b < 65536 then a + b else a + b - 65535

/-- The one's-complement sum. -/
def sum (ws : List Nat) : Nat := ws.foldr add 0

/-- The words of a message, the high byte first; an odd byte is padded with zero. -/
def words : List Byte → List Nat
  | [] => []
  | [b] => [256 * b.toNat]
  | b :: c :: m => (256 * b.toNat + c.toNat) :: words m

/-- The same, the low byte first. -/
def wordsLe : List Byte → List Nat
  | [] => []
  | [b] => [b.toNat]
  | b :: c :: m => (b.toNat + 256 * c.toNat) :: wordsLe m

/-- The checksum of a message. -/
def checksum (m : List Byte) : Nat := 65535 - sum (words m)

/-- A number folded to 16 bits: zero stays, and every other is in 1..65535. -/
def fold (n : Nat) : Nat := if n = 0 then 0 else (n - 1) % 65535 + 1

/-! ## Folding -/

theorem fold_le (n : Nat) : fold n ≤ 65535 := by
  unfold fold
  split <;> omega

theorem fold_eq_zero {n : Nat} : fold n = 0 ↔ n = 0 := by
  unfold fold
  split <;> omega

theorem fold_mod (n : Nat) : fold n % 65535 = n % 65535 := by
  unfold fold
  split <;> omega

/-- Folding is the only way to 16 bits that keeps residue and zero. -/
theorem fold_unique {n v : Nat} (hv : v ≤ 65535) (hmod : v % 65535 = n % 65535) (hzero : v = 0 ↔ n = 0) : v = fold n := by
  unfold fold
  split <;> omega

theorem fold_of_le {n : Nat} (h : n ≤ 65535) : fold n = n := (fold_unique h rfl Iff.rfl).symm

theorem add_eq_fold {a b : Nat} (ha : a ≤ 65535) (hb : b ≤ 65535) : add a b = fold (a + b) := by
  unfold add
  split
  · exact (fold_of_le (by omega)).symm
  · exact fold_unique (by omega) (by omega) (by omega)

/-- One's-complement sums fold the sum. -/
theorem sum_eq_fold {ws : List Nat} (h : ∀ w ∈ ws, w ≤ 65535) : sum ws = fold ws.sum := by
  induction ws with
  | nil => rfl
  | cons w ws ih =>
    have hw := h w List.mem_cons_self
    have ih := ih fun v hv => h v (List.mem_cons_of_mem _ hv)
    show add w (sum ws) = _
    rw [ih, add_eq_fold hw (fold_le _), List.sum_cons]
    refine fold_unique (fold_le _) ?_ ?_
    · rw [fold_mod, Nat.add_mod, fold_mod, ← Nat.add_mod]
    · rw [fold_eq_zero, Nat.add_eq_zero_iff, Nat.add_eq_zero_iff, fold_eq_zero]

/-! ## Words -/

theorem words_le (m : List Byte) : ∀ w ∈ words m, w ≤ 65535 := by
  fun_induction words m with
  | case1 => exact nofun
  | case2 b =>
    rintro w hw
    rw [List.mem_singleton.mp hw]
    omega
  | case3 b c m ih =>
    rintro w hw
    rcases List.mem_cons.mp hw with rfl | hw
    · omega
    · exact ih w hw

theorem sum_wordsLe_le (m : List Byte) : (wordsLe m).sum ≤ 65535 * ((m.length + 1) / 2) := by
  fun_induction wordsLe m with
  | case1 => exact Nat.zero_le _
  | case2 b =>
    rw [List.sum_singleton, List.length_singleton]
    omega
  | case3 b c m ih =>
    rw [List.sum_cons, List.length_cons, List.length_cons]
    omega

/-- A part of even length ends with a whole word. -/
theorem words_append {a b : List Byte} (h : a.length % 2 = 0) : words (a ++ b) = words a ++ words b := by
  fun_induction words a with
  | case1 => rfl
  | case2 c => cases h
  | case3 c d a ih =>
    rw [List.length_cons, List.length_cons] at h
    rw [List.cons_append, List.cons_append, words, ih (by omega), List.cons_append]

theorem wordsLe_append {a b : List Byte} (h : a.length % 2 = 0) : wordsLe (a ++ b) = wordsLe a ++ wordsLe b := by
  fun_induction wordsLe a with
  | case1 => rfl
  | case2 c => cases h
  | case3 c d a ih =>
    rw [List.length_cons, List.length_cons] at h
    rw [List.cons_append, List.cons_append, wordsLe, ih (by omega), List.cons_append]

/-- **Byte order**: the sums of the two orders are each 256 times the other,
modulo 65535. -/
theorem sum_wordsLe_mod (m : List Byte) : (wordsLe m).sum % 65535 = 256 * (words m).sum % 65535 := by
  fun_induction words m with
  | case1 => rfl
  | case2 b =>
    rw [wordsLe, List.sum_singleton, List.sum_singleton]
    omega
  | case3 b c m ih =>
    rw [wordsLe, List.sum_cons, List.sum_cons]
    omega

theorem sum_wordsLe_eq_zero (m : List Byte) : (wordsLe m).sum = 0 ↔ (words m).sum = 0 := by
  fun_induction words m with
  | case1 => exact Iff.rfl
  | case2 b =>
    rw [wordsLe, List.sum_singleton, List.sum_singleton]
    omega
  | case3 b c m ih =>
    rw [wordsLe, List.sum_cons, List.sum_cons]
    omega

/-! ## The complement -/

/-- The two bytes of a word changed round. -/
def swap (w : Nat) : Nat := 256 * (w % 256) + w / 256

/-- The checksum taken over the words of the other order, and written in that
order, is the checksum. -/
theorem swap_checksum (m : List Byte) : swap (65535 - fold (wordsLe m).sum) = checksum m := by
  have hle := fold_le (wordsLe m).sum
  have hfold : swap (fold (wordsLe m).sum) = fold (words m).sum := by
    refine fold_unique ?_ ?_ ?_
    · unfold swap
      omega
    · have hmod := fold_mod (wordsLe m).sum
      have hle := sum_wordsLe_mod m
      unfold swap
      omega
    · rw [← sum_wordsLe_eq_zero, ← @fold_eq_zero (wordsLe m).sum]
      unfold swap
      omega
  rw [checksum, sum_eq_fold (words_le m), ← hfold]
  unfold swap
  omega

/-- All ones come of the multiples of 65535, but for zero. -/
theorem fold_eq_ones {n : Nat} : fold n = 65535 ↔ n ≠ 0 ∧ n % 65535 = 0 := by
  unfold fold
  split <;> omega

/-- A sum and its complement are a multiple of 65535. -/
theorem complement_mod (n : Nat) : (n + (65535 - fold n)) % 65535 = 0 := by
  have hmod := fold_mod n
  have hle := fold_le n
  omega

/-- Another word in one place. -/
theorem sum_set {ws : List Nat} {i : Nat} (hi : i < ws.length) (w : Nat) : (ws.set i w).sum + ws.getD i 0 = ws.sum + w := by
  induction ws generalizing i with
  | nil => cases hi
  | cons v ws ih =>
    cases i with
    | zero =>
      rw [List.set_cons_zero, List.sum_cons, List.sum_cons, List.getD_cons_zero]
      omega
    | succ i =>
      have hrest := ih (Nat.lt_of_succ_lt_succ hi)
      rw [List.set_cons_succ, List.sum_cons, List.sum_cons, List.getD_cons_succ]
      omega

/-- A sum that is not zero and its complement add up to all ones. -/
theorem fold_complement {n : Nat} (h : n ≠ 0) : fold (n + (65535 - fold n)) = 65535 := by
  have hmod := fold_mod n
  have hle := fold_le n
  exact (fold_unique (Nat.le_refl _) (by omega) (by omega)).symm

end OnesComplement
