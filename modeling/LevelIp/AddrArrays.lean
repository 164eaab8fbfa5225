/-
The arrays of `ipv6_parse_addr`: `groups` and `right_groups` have eight places
each. The loops look at their counter behind the store, so the ninth group in a
row is stored before the call fails, and the group at the end is stored without a
look.
-/
import LevelIp.AddrGrammar

namespace LevelIp

/-- The arrays of the function. -/
inductive GroupArray
  | groups | rightGroups
deriving DecidableEq

/-- A step of the parser: the places it stores at, in order, and its outcome. -/
structure ParseStep (α : Type) where
  stores : List (GroupArray × Int)
  value : Option α

namespace ParseStep

variable {α β γ : Type}

/-- Goes on with the value, if there is one. -/
def andThen (t : ParseStep α) (k : α → ParseStep β) : ParseStep β :=
  match t.value with
  | none => ⟨t.stores, none⟩
  | some a => ⟨t.stores ++ (k a).stores, (k a).value⟩

/-- All stores are in the eight places. -/
def Inside (t : ParseStep α) : Prop := ∀ s ∈ t.stores, 0 ≤ s.2 ∧ s.2 ≤ 7

instance (t : ParseStep α) : Decidable t.Inside := inferInstanceAs (Decidable (∀ s ∈ t.stores, 0 ≤ s.2 ∧ s.2 ≤ 7))

@[simp] theorem andThen_value (t : ParseStep α) (k : α → ParseStep β) : (t.andThen k).value = t.value.bind fun a => (k a).value := by
  unfold andThen
  split <;> simp [*]

theorem inside_andThen {t : ParseStep α} {k : α → ParseStep β} : (t.andThen k).Inside ↔ t.Inside ∧ ∀ a, t.value = some a → (k a).Inside := by
  unfold andThen
  split
  next h => simp [h, Inside]
  next a h =>
    rw [h, Inside, List.forall_mem_append]
    simp [Inside]

end ParseStep

/-! ## The parser -/

/-- `parse_hex_group` with the address of a place. -/
def parseHexGroupAt (array : GroupArray) (s : List Char) (place : Nat) : ParseStep U16 :=
  match parseHexGroup s with
  | none => ⟨[], none⟩
  | some g => ⟨[(array, place)], some g⟩

/-- The loop over the colons. -/
def scanGroupsAt (array : GroupArray) : (p start : List Char) → (groups : List U16) → ParseStep (List U16 × List Char)
  | [], start, groups => ⟨[], some (groups, start)⟩
  | c :: p, start, groups =>
    if c = ':' then
      (parseHexGroupAt array start groups.length).andThen fun g =>
        if 8 < groups.length + 1 then ⟨[], none⟩ else scanGroupsAt array p [] (groups ++ [g])
    else scanGroupsAt array p (start ++ [c]) groups

/-- The trailing group, if there is one. -/
def closeGroupAt (array : GroupArray) (t : List U16 × List Char) : ParseStep (List U16) :=
  if t.2 = [] then ⟨[], some t.1⟩
  else (parseHexGroupAt array t.2 t.1.length).andThen fun g => ⟨[], some (t.1 ++ [g])⟩

/-- The loop that shifts the right-side groups to their final positions. -/
def shiftPlaces (rightN : Nat) : List (GroupArray × Int) :=
  (List.range rightN).reverse.map fun i : Nat => (.groups, (8 : Int) - rightN + i)

/-- `ipv6_parse_addr` with its stores. -/
def ipv6ParseAddrAt (str : List Char) : ParseStep In6Addr :=
  match strstrDcolon str with
  | none =>
    ((scanGroupsAt .groups str [] []).andThen (closeGroupAt .groups)).andThen fun groups =>
      if groups.length ≠ 8 then ⟨[], none⟩ else ⟨[], some (storeGroups groups)⟩
  | some (left, right) =>
    (scanGroupsAt .groups left [] []).andThen fun (groups, _) =>
      ((scanGroupsAt .rightGroups right [] []).andThen (closeGroupAt .rightGroups)).andThen fun rightGroups =>
        let total := groups.length + rightGroups.length
        if 8 < total then ⟨[], none⟩
        else ⟨shiftPlaces rightGroups.length, some (storeGroups (groups ++ List.replicate (8 - total) 0 ++ rightGroups))⟩

/-! ## Its value -/

@[simp] theorem parseHexGroupAt_value (array : GroupArray) (s : List Char) (place : Nat) :
    (parseHexGroupAt array s place).value = parseHexGroup s := by
  unfold parseHexGroupAt
  split <;> simp [*]

@[simp] theorem scanGroupsAt_value (array : GroupArray) (p start : List Char) (groups : List U16) :
    (scanGroupsAt array p start groups).value = scanGroups p start groups := by
  induction p generalizing start groups with
  | nil => rfl
  | cons c p ih =>
    unfold scanGroupsAt scanGroups
    by_cases hc : c = ':'
    · rw [if_pos hc, if_pos hc, ParseStep.andThen_value, parseHexGroupAt_value]
      cases parseHexGroup start with
      | none => rfl
      | some g =>
        rw [Option.bind_some]
        dsimp only
        split
        · rfl
        · exact ih _ _
    · rw [if_neg hc, if_neg hc]
      exact ih _ _

@[simp] theorem closeGroupAt_value (array : GroupArray) (t : List U16 × List Char) :
    (closeGroupAt array t).value = closeGroup t := by
  unfold closeGroupAt closeGroup
  split
  · rfl
  · rw [ParseStep.andThen_value, parseHexGroupAt_value, Option.map_eq_bind]
    rfl

/-- The stores apart, it is the parser. -/
theorem ipv6ParseAddrAt_value (str : List Char) : (ipv6ParseAddrAt str).value = ipv6ParseAddr str := by
  unfold ipv6ParseAddrAt ipv6ParseAddr
  cases strstrDcolon str with
  | none =>
    simp only [ParseStep.andThen_value, scanGroupsAt_value, closeGroupAt_value]
    cases (scanGroups str [] []).bind closeGroup with
    | none => rfl
    | some groups =>
      rw [Option.bind_some]
      dsimp only
      split <;> rfl
  | some t =>
    simp only [ParseStep.andThen_value, scanGroupsAt_value, closeGroupAt_value]
    cases scanGroups t.1 [] [] with
    | none => rfl
    | some l =>
      rw [Option.bind_some]
      cases (scanGroups t.2 [] []).bind closeGroup with
      | none => rfl
      | some rightGroups =>
        rw [Option.bind_some]
        dsimp only
        split <;> rfl

/-! ## The groups in a row -/

/-- How many pieces are groups, up to the first that is none. -/
def leadingGroups (pieces : List (List Char)) : Nat := (pieces.takeWhile fun g => decide (IsGroup g)).length

section rows
variable {g start p : List Char} {pieces gs : List (List Char)} {groups : List U16} {array : GroupArray}

theorem leadingGroups_cons : leadingGroups (g :: pieces) = if IsGroup g then leadingGroups pieces + 1 else 0 := by
  unfold leadingGroups
  split <;> simp [*]

/-- If all of them are groups, the last counts as one more. -/
theorem leadingGroups_concat : leadingGroups (gs ++ [g]) =
    if (∀ x ∈ gs, IsGroup x) ∧ IsGroup g then gs.length + 1 else leadingGroups gs := by
  induction gs with
  | nil =>
    rw [List.nil_append, leadingGroups_cons]
    simp [leadingGroups]
  | cons x gs ih =>
    rw [List.cons_append, leadingGroups_cons, leadingGroups_cons, ih, List.length_cons]
    by_cases hx : IsGroup x
    · rw [if_pos hx, if_pos hx]
      simp only [List.forall_mem_cons, hx, true_and]
      split <;> rfl
    · rw [if_neg hx, if_neg hx, if_neg fun h => hx (h.1 x List.mem_cons_self)]

theorem leadingGroups_all (h : ∀ x ∈ gs, IsGroup x) : leadingGroups gs = gs.length := by
  unfold leadingGroups
  rw [List.takeWhile_eq_self_iff.mpr fun x hx => decide_eq_true (h x hx)]

theorem parseHexGroup_none : parseHexGroup g = none ↔ ¬ IsGroup g := by
  rw [Option.eq_none_iff_forall_ne_some]
  exact ⟨fun h hg => h _ (parseHexGroup_some.mpr ⟨hg, rfl⟩), fun h v hv => h (parseHexGroup_some.mp hv).1⟩

theorem parseHexGroupAt_inside {place : Nat} : (parseHexGroupAt array g place).Inside ↔ (IsGroup g → place ≤ 7) := by
  unfold parseHexGroupAt
  split
  next h => exact iff_of_true nofun fun hg => absurd hg (parseHexGroup_none.mp h)
  next v h =>
    have hg := (parseHexGroup_some.mp h).1
    simp [ParseStep.Inside, hg]

/-- The loop stores outside when it closes a ninth group. -/
theorem scanGroupsAt_inside (hstart : ':' ∉ start) (hlen : groups.length ≤ 8) : (scanGroupsAt array p start groups).Inside ↔
    groups.length + leadingGroups ((start ++ p).splitOn ':').dropLast ≤ 8 := by
  induction p generalizing start groups with
  | nil =>
    rw [List.append_nil, List.splitOn_eq_singleton hstart]
    exact iff_of_true nofun hlen
  | cons c p ih =>
    unfold scanGroupsAt
    by_cases hc : c = ':'
    · subst hc
      rw [if_pos rfl, ParseStep.inside_andThen, parseHexGroupAt_inside, parseHexGroupAt_value,
        List.splitOn_append_cons_self_of_not_mem hstart, List.dropLast_cons_of_ne_nil (List.splitOn_ne_nil _ _), leadingGroups_cons]
      by_cases hg : IsGroup start
      · rw [if_pos hg, parseHexGroup_some.mpr ⟨hg, rfl⟩]
        simp only [hg, true_imp_iff, Option.some.injEq, forall_eq']
        by_cases hfull : 8 < groups.length + 1
        · refine iff_of_false (fun h => ?_) (by omega)
          omega
        · rw [if_neg hfull, ih (by simp) (by rw [List.length_append, List.length_singleton]; omega), List.nil_append,
            List.length_append, List.length_singleton]
          omega
      · rw [if_neg hg, parseHexGroup_none.mpr hg]
        exact iff_of_true ⟨fun h => absurd h hg, nofun⟩ hlen
    · rw [if_neg hc, ih (by simp [hstart, Ne.symm hc]) hlen, List.append_assoc, List.singleton_append]

theorem closeGroupAt_inside : (closeGroupAt array (groups, g)).Inside ↔ (IsGroup g → groups.length ≤ 7) := by
  unfold closeGroupAt
  split
  next h => exact iff_of_true nofun fun hg => absurd h hg.1
  next h =>
    rw [ParseStep.inside_andThen, parseHexGroupAt_inside]
    exact and_iff_left fun _ _ => nofun

/-- The loop goes through if all it closes are groups, at most eight. -/
theorem scanGroups_ends : (∃ t, scanGroups p [] [] = some t) ↔
    (∀ x ∈ (p.splitOn ':').dropLast, IsGroup x) ∧ (p.splitOn ':').dropLast.length ≤ 8 := by
  constructor
  · rintro ⟨⟨out, last⟩, h⟩
    obtain ⟨gs, hgs, hall, -, hlen⟩ := (scanGroups_some (by simp)).mp h
    rw [List.nil_append] at hgs
    rw [hgs, List.dropLast_concat]
    refine ⟨hall, ?_⟩
    rcases hlen with rfl | hlen
    · exact Nat.zero_le _
    · simpa using hlen
  · rintro ⟨hall, hlen⟩
    refine ⟨(_, (p.splitOn ':').getLast (List.splitOn_ne_nil _ _)), (scanGroups_some (by simp)).mpr ⟨_, ?_, hall, rfl, .inr ?_⟩⟩
    · exact (List.dropLast_append_getLast _).symm
    · simpa using hlen

/-- With the trailing group, the call stores outside when there are nine. -/
theorem closed_inside : ((scanGroupsAt array p [] []).andThen (closeGroupAt array)).Inside ↔
    leadingGroups (p.splitOn ':') ≤ 8 := by
  obtain ⟨gs, last, hpieces⟩ : ∃ gs last, p.splitOn ':' = gs ++ [last] :=
    ⟨_, _, (List.dropLast_append_getLast (List.splitOn_ne_nil ':' p)).symm⟩
  rw [ParseStep.inside_andThen, scanGroupsAt_inside (by simp) (Nat.zero_le _), scanGroupsAt_value, List.nil_append, List.length_nil,
    Nat.zero_add, hpieces, List.dropLast_concat, leadingGroups_concat]
  by_cases hall : ∀ x ∈ gs, IsGroup x
  · rw [leadingGroups_all hall]
    by_cases hlen : gs.length ≤ 8
    · have hscan : scanGroups p [] [] = some (gs.map groupValue, last) :=
        (scanGroups_some (by simp)).mpr ⟨gs, hpieces, hall, rfl, .inr (by simpa using hlen)⟩
      rw [hscan]
      simp only [Option.some.injEq, forall_eq', closeGroupAt_inside, List.length_map, hlen, true_and]
      by_cases hg : IsGroup last
      · rw [if_pos ⟨hall, hg⟩]
        simp [hg, Nat.lt_iff_le_pred]
      · rw [if_neg fun h => hg h.2]
        simp [hg, hlen]
    · refine iff_of_false (fun h => hlen h.1) ?_
      split <;> omega
  · rw [if_neg fun h => hall h.1]
    refine and_iff_left fun t ht => absurd ?_ hall
    have hends := (scanGroups_ends.mp ⟨t, ht⟩).1
    rwa [hpieces, List.dropLast_concat] at hends

end rows

/-! ## Where the arrays are kept to -/

/-- Nine groups in a row: before `::`, where each is followed by a colon, or behind it,
if the pieces before are groups; or in a string without `::`. -/
def Crowded (str : List Char) : Prop :=
  match strstrDcolon str with
  | none => 8 < leadingGroups (str.splitOn ':')
  | some (left, right) =>
    8 < leadingGroups (left.splitOn ':').dropLast ∨
      ((∀ g ∈ (left.splitOn ':').dropLast, IsGroup g) ∧ 8 < leadingGroups (right.splitOn ':'))

theorem shiftPlaces_inside {rightN : Nat} (h : rightN ≤ 8) : ∀ s ∈ shiftPlaces rightN, 0 ≤ s.2 ∧ s.2 ≤ 7 := by
  intro s hs
  obtain ⟨i, hi, rfl⟩ := List.mem_map.mp hs
  rw [List.mem_reverse, List.mem_range] at hi
  dsimp only
  omega

/-- **The arrays of `ipv6_parse_addr`** are kept to on the strings that do not
have nine groups in a row, and on no others. -/
theorem ipv6ParseAddrAt_inside_iff (str : List Char) : (ipv6ParseAddrAt str).Inside ↔ ¬ Crowded str := by
  unfold ipv6ParseAddrAt Crowded
  cases strstrDcolon str with
  | none =>
    dsimp only
    rw [ParseStep.inside_andThen, closed_inside, not_lt]
    refine and_iff_left fun groups _ => ?_
    split <;> exact nofun
  | some t =>
    obtain ⟨left, right⟩ := t
    dsimp only
    have hright : ∀ groups : List U16,
        (((scanGroupsAt .rightGroups right [] []).andThen (closeGroupAt .rightGroups)).andThen fun rightGroups =>
        if 8 < groups.length + rightGroups.length then ⟨[], none⟩
        else ⟨shiftPlaces rightGroups.length,
          some (storeGroups (groups ++ List.replicate (8 - (groups.length + rightGroups.length)) 0 ++ rightGroups))⟩).Inside ↔
        leadingGroups (right.splitOn ':') ≤ 8 := by
      intro groups
      rw [ParseStep.inside_andThen, closed_inside]
      refine and_iff_left fun rightGroups _ => ?_
      split
      · exact nofun
      · exact shiftPlaces_inside (by omega)
    rw [ParseStep.inside_andThen, scanGroupsAt_inside (by simp) (Nat.zero_le _), scanGroupsAt_value, List.nil_append,
      List.length_nil, Nat.zero_add, not_or, not_lt, not_and, not_lt]
    refine and_congr_right fun hleft => ?_
    constructor
    · intro h hall
      rw [leadingGroups_all hall] at hleft
      obtain ⟨t, ht⟩ := scanGroups_ends.mpr ⟨hall, hleft⟩
      exact (hright t.1).mp (h t ht)
    · intro h t ht
      exact (hright t.1).mpr (h (scanGroups_ends.mp ⟨t, ht⟩).1)

/-- `1:2:3:4:5:6:7:8:9`. -/
def nineGroups : List Char := ['1', ':', '2', ':', '3', ':', '4', ':', '5', ':', '6', ':', '7', ':', '8', ':', '9']

/-- The ninth group is stored behind the array. -/
theorem ninth_group_outside : (.groups, 8) ∈ (ipv6ParseAddrAt nineGroups).stores ∧ ¬ (ipv6ParseAddrAt nineGroups).Inside := by
  decide +kernel

end LevelIp
