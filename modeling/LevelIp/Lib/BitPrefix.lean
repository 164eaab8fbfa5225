/-
Bit strings laid out in bytes, the highest bit of a byte first: what it is for
two of them to agree in their first `n` bits, and that whole bytes and one
masked byte decide it.
-/
import Mathlib

namespace BitPrefix

abbrev Byte := BitVec 8

/-- Bit `i` of the string; there are zeros behind its end. -/
def bit (l : List Byte) (i : Nat) : Bool := (l.getD (i / 8) 0).getMsbD (i % 8)

/-- The first `n` bits are the same. -/
def Agree (n : Nat) (l l' : List Byte) : Prop := ∀ i < n, bit l i = bit l' i

/-- The byte whose first `k` bits are set. -/
def mask (k : Nat) : Byte := 0xFF <<< (8 - k)

theorem Agree.symm {n : Nat} {l l' : List Byte} (h : Agree n l l') : Agree n l' l := fun i hi => (h i hi).symm

theorem Agree.trans {n : Nat} {l l' l'' : List Byte} (h : Agree n l l') (h' : Agree n l' l'') : Agree n l l'' :=
  fun i hi => (h i hi).trans (h' i hi)

theorem mask_bit {k j : Nat} (hk : k ≤ 8) (hj : j < 8) : (mask k).getMsbD j = decide (j < k) := by
  have hall : ∀ k ≤ 8, ∀ j < 8, (mask k).getMsbD j = decide (j < k) := by decide
  exact hall k hk j hj

/-- Masked bytes are the same if the first bits are. -/
theorem mask_eq_iff {k : Nat} (hk : k ≤ 8) (x y : Byte) : x &&& mask k = y &&& mask k ↔ ∀ j < k, x.getMsbD j = y.getMsbD j := by
  constructor
  · intro h j hj
    have hbit := congrArg (·.getMsbD j) h
    simpa [BitVec.getMsbD_and, mask_bit hk (by omega : j < 8), hj] using hbit
  · intro h
    refine BitVec.eq_of_getMsbD_eq fun j hj => ?_
    rw [BitVec.getMsbD_and, BitVec.getMsbD_and, mask_bit hk hj]
    by_cases hjk : j < k
    · rw [h j hjk]
    · simp [hjk]

theorem bit_of (l : List Byte) (q : Nat) {j : Nat} (hj : j < 8) : bit l (8 * q + j) = (l.getD q 0).getMsbD j := by
  have hdiv : (8 * q + j) / 8 = q := by omega
  have hmod : (8 * q + j) % 8 = j := by omega
  rw [bit, hdiv, hmod]

/-- The strings agree in `n` bits if they have the same `n / 8` bytes, and the same
first `n % 8` bits in the next. -/
theorem agree_iff (n : Nat) (l l' : List Byte) : Agree n l l' ↔
    (∀ q < n / 8, l.getD q 0 = l'.getD q 0) ∧ l.getD (n / 8) 0 &&& mask (n % 8) = l'.getD (n / 8) 0 &&& mask (n % 8) := by
  rw [mask_eq_iff (by omega)]
  constructor
  · intro h
    constructor
    · intro q hq
      refine BitVec.eq_of_getMsbD_eq fun j hj => ?_
      rw [← bit_of l q hj, ← bit_of l' q hj]
      exact h _ (by omega)
    · intro j hj
      rw [← bit_of l _ (by omega), ← bit_of l' _ (by omega)]
      exact h _ (by omega)
  · rintro ⟨hbytes, hbits⟩ i hi
    have hsplit : 8 * (i / 8) + i % 8 = i := Nat.div_add_mod i 8
    have hlt : i % 8 < 8 := Nat.mod_lt _ (by decide)
    rw [← hsplit, bit_of l _ hlt, bit_of l' _ hlt]
    by_cases hq : i / 8 < n / 8
    · rw [hbytes _ hq]
    · have heq : i / 8 = n / 8 := by omega
      rw [heq]
      exact hbits _ (by omega)

end BitPrefix
