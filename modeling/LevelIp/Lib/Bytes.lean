/-
Little-endian numbers in memory, and reading them back at an offset from a
message that was laid out field by field.
-/
import Mathlib

namespace Bytes

abbrev Byte := BitVec 8

/-- The `w` bytes of a number, the low one first. -/
def le : (w : Nat) → Nat → List Byte
  | 0, _ => []
  | w + 1, n => BitVec.ofNat 8 n :: le w (n / 256)

/-- The number that bytes stand for. -/
def num : List Byte → Nat
  | [] => 0
  | b :: bs => b.toNat + 256 * num bs

/-- The number in the `w` bytes at `off`. -/
def numAt (m : List Byte) (off w : Nat) : Nat := num ((m.drop off).take w)

@[simp] theorem length_le (w n : Nat) : (le w n).length = w := by
  induction w generalizing n with
  | zero => rfl
  | succ w ih => rw [le, List.length_cons, ih]

/-- The bytes of a number keep as much of it as fits. -/
theorem num_le (w n : Nat) : num (le w n) = n % 256 ^ w := by
  induction w generalizing n with
  | zero => rw [le, num, Nat.pow_zero, Nat.mod_one]
  | succ w ih =>
    have hpow : 256 ^ (w + 1) = 256 * 256 ^ w := Nat.pow_succ'
    rw [le, num, ih, BitVec.toNat_ofNat, hpow, Nat.mod_mul]

/-- Dropping up to or beyond the end of the first part. -/
theorem drop_skip {α : Type*} {a rest : List α} {off : Nat} (h : a.length ≤ off) :
    (a ++ rest).drop off = rest.drop (off - a.length) := by
  rw [List.drop_append, List.drop_eq_nil_of_le h, List.nil_append]

theorem numAt_skip {a rest : List Byte} {off w : Nat} (h : a.length ≤ off) :
    numAt (a ++ rest) off w = numAt rest (off - a.length) w := by
  rw [numAt, drop_skip h, numAt]

theorem numAt_here (w n : Nat) (rest : List Byte) : numAt (le w n ++ rest) 0 w = n % 256 ^ w := by
  rw [numAt, List.drop_zero, List.take_left' (length_le w n), num_le]

/-- A word of memory that holds a word. -/
theorem ofNat_numAt_here {w v : Nat} (x : BitVec v) (hw : 256 ^ w = 2 ^ v) (rest : List Byte) :
    BitVec.ofNat v (numAt (le w x.toNat ++ rest) 0 w) = x := by
  rw [numAt_here, hw, Nat.mod_eq_of_lt x.isLt, BitVec.ofNat_toNat, BitVec.setWidth_eq]

end Bytes
