/-
Numbers on a circle of 2^32: the half-open arc between two of them, the order
of those less than half the circle apart, and when the plain unsigned
comparisons agree with them. All of it depends on differences only.
-/
import Mathlib.Data.BitVec
import Mathlib.Tactic.Ring

namespace Serial

variable {lo hi x y b : BitVec 32}

/-- `x` lies in `(lo, hi]`, going round. -/
def within (lo hi x : BitVec 32) : Bool := x ≠ lo && x - lo ≤ hi - lo

/-- `x` is at most half the circle before `y`. -/
def le (x y : BitVec 32) : Bool := (y - x).toNat < 2 ^ 31

theorem within_iff : within lo hi x = true ↔ x ≠ lo ∧ x - lo ≤ hi - lo := by
  simp [within]

theorem le_iff : le x y = true ↔ (y - x).toNat < 2 ^ 31 := by
  simp [le]

theorem within_add (lo hi x k : BitVec 32) : within (lo + k) (hi + k) (x + k) = within lo hi x := by
  simp only [within, add_sub_add_right_eq_sub, ne_eq, add_left_inj]

theorem le_add (x y k : BitVec 32) : le (x + k) (y + k) = le x y := by
  simp only [le, add_sub_add_right_eq_sub]

/-- An arc that does not pass 0 is an interval. -/
theorem within_eq (h : lo ≤ hi) (x : BitVec 32) : within lo hi x = (lo < x && x ≤ hi : Bool) := by
  rw [Bool.eq_iff_iff, within_iff]
  simp only [Bool.and_eq_true, decide_eq_true_eq]
  bv_omega

/-- An arc that passes 0 is no interval at all. -/
theorem interval_empty (h : ¬lo ≤ hi) (x : BitVec 32) : (lo < x && x ≤ hi : Bool) = false := by
  simp only [Bool.and_eq_false_iff, decide_eq_false_iff_not]
  bv_omega

/-- Numbers counted from `b`, over less than half the circle: `le` is the order. -/
theorem le_iff_offset (hx : (x - b).toNat < 2 ^ 31) (hy : (y - b).toNat < 2 ^ 31) :
    le x y = true ↔ (x - b).toNat ≤ (y - b).toNat := by
  rw [le_iff]
  bv_omega

/-- A number of the arc, counted from a `b` before its ends. -/
theorem offset_of_within (hlo : (lo - b).toNat ≤ (hi - b).toNat) (hx : within lo hi x) :
    (lo - b).toNat < (x - b).toNat ∧ (x - b).toNat ≤ (hi - b).toNat := by
  rw [within_iff] at hx
  obtain ⟨hne, hle⟩ := hx
  have hne : x.toNat ≠ lo.toNat := fun h => hne (BitVec.eq_of_toNat_eq h)
  bv_omega

/-- The end `y` of something counted from `b`, up to `hi`: below `x` as a plain
number it comes before `x` on the circle, if `x` and `hi` are so ordered. -/
theorem le_of_ule (hy : (y - b).toNat ≤ (hi - b).toNat) (hx : (x - b).toNat ≤ (hi - b).toNat)
    (hh : (hi - b).toNat < 2 ^ 31) (hxh : x ≤ hi) (h : y ≤ x) : le y x = true := by
  rw [le_iff]
  bv_omega

/-! ## Windows -/

/-- `x` is one of the `wnd` numbers from `nxt` on. -/
def inWindow (nxt wnd x : BitVec 32) : Bool := x - nxt < wnd

theorem inWindow_iff {nxt wnd : BitVec 32} : inWindow nxt wnd x = true ↔ (x - nxt).toNat < wnd.toNat := by
  simp [inWindow, BitVec.lt_def]

/-- A window that ends before 2^32 is an interval. -/
theorem inWindow_interval {nxt wnd : BitVec 32} (h : nxt.toNat + wnd.toNat < 2 ^ 32) (x : BitVec 32) :
    inWindow nxt wnd x = true ↔ nxt ≤ x ∧ x < nxt + wnd := by
  rw [inWindow_iff]
  bv_omega

end Serial
