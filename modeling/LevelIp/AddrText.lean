/-
`ipv6_addr_to_str` against `ipv6_parse_addr`: what the one writes the other reads.
The text has all eight groups with four digits each, so that `::` is never in it.
-/
import LevelIp.AddrGrammar

namespace LevelIp

/-- `max "xxxx:xxxx:xxxx:xxxx:xxxx:xxxx:xxxx:xxxx" + NUL`. -/
def IPV6_ADDR_STRLEN : Nat := 40

/-- A digit of `%x`. -/
def hexDigit (n : Nat) : Char := if n < 10 then Char.ofNat (48 + n) else Char.ofNat (87 + n)

/-- `%02x` of a byte. -/
def hex02 (b : U8) : List Char := [hexDigit (b.toNat / 16), hexDigit (b.toNat % 16)]

/-- `addr->s6_addr[i]`. -/
def s6Addr (addr : In6Addr) (i : Nat) : U8 := addr[i]!

theorem s6Addr_eq (addr : In6Addr) {i : Nat} (h : i < 16) : s6Addr addr i = addr[i] := getElem!_pos addr i h

/-- The text `snprintf` writes. -/
def addrText (addr : In6Addr) : List Char :=
  let s6 := fun i => hex02 (s6Addr addr i)
  [s6 0, s6 1, [':'], s6 2, s6 3, [':'], s6 4, s6 5, [':'], s6 6, s6 7, [':'],
    s6 8, s6 9, [':'], s6 10, s6 11, [':'], s6 12, s6 13, [':'], s6 14, s6 15].flatten

/-- `ipv6_addr_to_str`, into a buffer of `buflen` bytes. -/
def ipv6AddrToStr (addr : In6Addr) (buflen : Nat) : Option (List Char) :=
  if buflen < IPV6_ADDR_STRLEN then none
  else
    let written := (addrText addr).length
    if buflen ≤ written then none else some (addrText addr)

/-! ## Digits -/

theorem hexDigit_spec {n : Nat} (h : n < 16) : isHexDigit (hexDigit n) = true ∧ hexValue (hexDigit n) = n := by
  have hall : ∀ k : Fin 16, isHexDigit (hexDigit k) = true ∧ hexValue (hexDigit k) = k := by decide
  exact hall ⟨n, h⟩

/-- Two bytes as a group. -/
def groupText (hi lo : U8) : List Char := hex02 hi ++ hex02 lo

theorem isGroup_groupText (hi lo : U8) : IsGroup (groupText hi lo) := by
  have hhi := hi.isLt
  have hlo := lo.isLt
  refine ⟨List.cons_ne_nil _ _, le_refl 4, ?_⟩
  simp [groupText, hex02, (hexDigit_spec (by omega : hi.toNat / 16 < 16)).1, (hexDigit_spec (by omega : hi.toNat % 16 < 16)).1,
    (hexDigit_spec (by omega : lo.toNat / 16 < 16)).1, (hexDigit_spec (by omega : lo.toNat % 16 < 16)).1]

theorem groupValue_groupText (hi lo : U8) : groupValue (groupText hi lo) = BitVec.ofNat 16 (256 * hi.toNat + lo.toNat) := by
  have hhi := hi.isLt
  have hlo := lo.isLt
  simp only [groupValue, groupText, hex02, List.cons_append, List.nil_append, List.foldl_cons, List.foldl_nil,
    (hexDigit_spec (by omega : hi.toNat / 16 < 16)).2, (hexDigit_spec (by omega : hi.toNat % 16 < 16)).2,
    (hexDigit_spec (by omega : lo.toNat / 16 < 16)).2, (hexDigit_spec (by omega : lo.toNat % 16 < 16)).2]
  congr 1
  omega

/-! ## The address -/

/-- The groups of an address. -/
def addrGroups (addr : In6Addr) : List (List Char) :=
  let group := fun i => groupText (s6Addr addr i) (s6Addr addr (i + 1))
  [group 0, group 2, group 4, group 6, group 8, group 10, group 12, group 14]

theorem plain_addrText (addr : In6Addr) : Plain (addrText addr) (addrGroups addr) false := by
  refine ⟨fun g hg => ?_, rfl, rfl⟩
  simp only [addrGroups, List.mem_cons, List.not_mem_nil, or_false] at hg
  rcases hg with rfl | rfl | rfl | rfl | rfl | rfl | rfl | rfl <;> exact isGroup_groupText _ _

/-- A group's bytes are stored as they were. -/
theorem group_bytes (hi lo : U8) : (BitVec.ofNat 16 (256 * hi.toNat + lo.toNat) >>> 8).setWidth 8 = hi ∧
    (BitVec.ofNat 16 (256 * hi.toNat + lo.toNat)).setWidth 8 = lo := by
  have hhi := hi.isLt
  have hlo := lo.isLt
  constructor
  · rw [← BitVec.toNat_inj, BitVec.toNat_setWidth, BitVec.toNat_ushiftRight, BitVec.toNat_ofNat, Nat.shiftRight_eq_div_pow]
    omega
  · rw [← BitVec.toNat_inj, BitVec.toNat_setWidth, BitVec.toNat_ofNat]
    omega

theorem storeGroups_addrGroups (addr : In6Addr) : storeGroups ((addrGroups addr).map groupValue) = addr := by
  simp only [addrGroups, List.map_cons, List.map_nil, groupValue_groupText]
  refine Vector.ext fun k hk => ?_
  rw [storeGroups, Vector.getElem_ofFn]
  have hcases : k = 0 ∨ k = 1 ∨ k = 2 ∨ k = 3 ∨ k = 4 ∨ k = 5 ∨ k = 6 ∨ k = 7 ∨ k = 8 ∨ k = 9 ∨ k = 10 ∨ k = 11 ∨ k = 12 ∨
      k = 13 ∨ k = 14 ∨ k = 15 := by omega
  rcases hcases with rfl | rfl | rfl | rfl | rfl | rfl | rfl | rfl | rfl | rfl | rfl | rfl | rfl | rfl | rfl | rfl
  all_goals
    simp only [Nat.reduceDiv, Nat.reduceMod, if_true, Nat.one_ne_zero, if_false, List.getD_cons_succ, List.getD_cons_zero]
    simp only [(group_bytes _ _).1, (group_bytes _ _).2]
    exact s6Addr_eq addr hk

theorem print_parse (addr : In6Addr) : ∃ s, ipv6AddrToStr addr IPV6_ADDR_STRLEN = some s ∧ ipv6ParseAddr s = some addr := by
  have hlen : (addrText addr).length = 39 := rfl
  refine ⟨addrText addr, ?_, ?_⟩
  · rw [ipv6AddrToStr, if_neg (lt_irrefl _)]
    dsimp only
    rw [hlen, if_neg (by decide)]
  · exact ipv6ParseAddr_some.mpr (.inl ⟨addrGroups addr, false, plain_addrText addr, (storeGroups_addrGroups addr).symm⟩)

end LevelIp
