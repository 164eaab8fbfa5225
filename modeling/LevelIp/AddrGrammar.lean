/-
`ipv6_parse_addr` against the two forms of an address in section 2.2 of RFC 4291:
eight groups of hexadecimal digits with colons between them, or fewer with `::`
for the zeros that are left out.

The scanner closes a group at each colon and never looks at the piece right
before `::`. A colon at the end closes a group too, and is taken for nothing; and
`::` may stand for no group at all. A string is a list of characters, which ends
where the terminating zero was.
-/
import LevelIp.Addrconf

namespace LevelIp

/-! ## The parser -/

def isHexDigit (c : Char) : Bool :=
  decide ('0' ≤ c ∧ c ≤ '9') || decide ('a' ≤ c ∧ c ≤ 'f') || decide ('A' ≤ c ∧ c ≤ 'F')

/-- What `sscanf` makes of a digit. -/
def hexValue (c : Char) : Nat := if c ≤ '9' then c.toNat - 48 else if c ≤ 'F' then c.toNat - 55 else c.toNat - 87

def groupValue (s : List Char) : U16 := BitVec.ofNat 16 (s.foldl (fun val c => 16 * val + hexValue c) 0)

/-- `parse_hex_group`. -/
def parseHexGroup (s : List Char) : Option U16 :=
  if s.length = 0 ∨ 4 < s.length then none
  else if s.all isHexDigit then some (groupValue s)
  else none

/-- `strstr(str, "::")`: what is before it, and what behind. -/
def strstrDcolon : List Char → Option (List Char × List Char)
  | c :: d :: rest =>
    if c = ':' ∧ d = ':' then some ([], rest) else (strstrDcolon (d :: rest)).map fun t => (c :: t.1, t.2)
  | _ => none

/-- The loop over the colons: `start` is the piece so far, `groups` are those
closed. A ninth is written behind the array, but the call fails. -/
def scanGroups : (p start : List Char) → (groups : List U16) → Option (List U16 × List Char)
  | [], start, groups => some (groups, start)
  | c :: p, start, groups =>
    if c = ':' then
      match parseHexGroup start with
      | none => none
      | some g => if 8 < groups.length + 1 then none else scanGroups p [] (groups ++ [g])
    else scanGroups p (start ++ [c]) groups

/-- The trailing group, if there is one. -/
def closeGroup (t : List U16 × List Char) : Option (List U16) :=
  if t.2 = [] then some t.1 else (parseHexGroup t.2).map fun g => t.1 ++ [g]

/-- The eight groups in network byte order. -/
def storeGroups (groups : List U16) : In6Addr :=
  Vector.ofFn fun k =>
    let g := groups.getD (k.val / 2) 0
    if k.val % 2 = 0 then (g >>> 8).setWidth 8 else g.setWidth 8

/-- `ipv6_parse_addr`. -/
def ipv6ParseAddr (str : List Char) : Option In6Addr :=
  match strstrDcolon str with
  | none =>
    match (scanGroups str [] []).bind closeGroup with
    | none => none
    | some groups => if groups.length ≠ 8 then none else some (storeGroups groups)
  | some (left, right) =>
    match scanGroups left [] [], (scanGroups right [] []).bind closeGroup with
    | some (groups, _), some rightGroups =>
      let total := groups.length + rightGroups.length
      if 8 < total then none else some (storeGroups (groups ++ List.replicate (8 - total) 0 ++ rightGroups))
    | _, _ => none

/-! ## The grammar -/

/-- A group of the address: one to four hexadecimal digits. -/
def IsGroup (g : List Char) : Prop := g ≠ [] ∧ g.length ≤ 4 ∧ g.all isHexDigit = true

instance (g : List Char) : Decidable (IsGroup g) := inferInstanceAs (Decidable (g ≠ [] ∧ g.length ≤ 4 ∧ g.all isHexDigit = true))

/-- Groups with single colons between them. -/
def join (gs : List (List Char)) : List Char := [':'].intercalate gs

/-- The string is the address `a` in one of the two forms. -/
inductive Denotes (s : List Char) (a : In6Addr) : Prop
  | full (gs : List (List Char)) (groups : ∀ g ∈ gs, IsGroup g) (eight : gs.length = 8) (text : s = join gs)
      (value : a = storeGroups (gs.map groupValue))
  | compressed (ls rs : List (List Char)) (left : ∀ g ∈ ls, IsGroup g) (right : ∀ g ∈ rs, IsGroup g)
      (fewer : ls.length + rs.length < 8) (text : s = join ls ++ ':' :: ':' :: join rs)
      (value : a = storeGroups (ls.map groupValue ++ List.replicate (8 - (ls.length + rs.length)) 0 ++ rs.map groupValue))

/-! ## Pieces -/

theorem parseHexGroup_some {g : List Char} {v : U16} : parseHexGroup g = some v ↔ IsGroup g ∧ v = groupValue g := by
  unfold parseHexGroup
  split
  next hlen =>
    refine ⟨nofun, fun ⟨hg, _⟩ => ?_⟩
    have hle := hg.2.1
    rcases hlen with h | h
    · exact absurd (List.length_eq_zero_iff.mp h) hg.1
    · omega
  next hlen =>
    have hne : g ≠ [] := fun h => hlen (.inl (by rw [h]; rfl))
    split
    next hall =>
      have hg : IsGroup g := ⟨hne, by omega, hall⟩
      exact ⟨fun he => ⟨hg, (Option.some.inj he).symm⟩, fun he => by rw [he.2]⟩
    next hall => exact ⟨nofun, fun ⟨hg, _⟩ => absurd hg.2.2 hall⟩

theorem IsGroup.no_colon {g : List Char} (h : IsGroup g) : ':' ∉ g := by
  intro hm
  have hdigit := List.all_eq_true.mp h.2.2 _ hm
  revert hdigit
  decide

theorem join_nil : join [] = [] := rfl

theorem join_singleton (g : List Char) : join [g] = g := by simp [join]

theorem join_cons_cons (g g' : List Char) (gs : List (List Char)) : join (g :: g' :: gs) = g ++ ':' :: join (g' :: gs) := by
  simp [join, List.intercalate_cons_cons]

/-- The pieces of a string are what stands between its colons. -/
theorem join_eq_iff {gs : List (List Char)} {s : List Char} (hne : gs ≠ []) (hg : ∀ g ∈ gs, ':' ∉ g) :
    s = join gs ↔ s.splitOn ':' = gs := by
  constructor
  · rintro rfl
    exact List.splitOn_intercalate ':' hg hne
  · rintro rfl
    exact (List.intercalate_splitOn ':').symm

theorem join_concat {gs : List (List Char)} (hne : gs ≠ []) (x : List Char) : join (gs ++ [x]) = join gs ++ ':' :: x := by
  induction gs with
  | nil => exact absurd rfl hne
  | cons g gs ih =>
    cases gs with
    | nil => simp [join]
    | cons g' gs =>
      have ih := ih (List.cons_ne_nil _ _)
      rw [List.cons_append] at ih
      rw [List.cons_append, List.cons_append, join_cons_cons, join_cons_cons, ih, List.append_assoc, List.cons_append]

/-- The loop closes all pieces but the last, if they are groups. -/
theorem scanGroups_some {p start : List Char} {groups out : List U16} {last : List Char} (hstart : ':' ∉ start) :
    scanGroups p start groups = some (out, last) ↔ ∃ gs, (start ++ p).splitOn ':' = gs ++ [last] ∧ (∀ g ∈ gs, IsGroup g) ∧
      out = groups ++ gs.map groupValue ∧ (gs = [] ∨ groups.length + gs.length ≤ 8) := by
  induction p generalizing start groups with
  | nil =>
    rw [List.append_nil, List.splitOn_eq_singleton hstart, scanGroups, Option.some.injEq, Prod.mk.injEq]
    constructor
    · rintro ⟨rfl, rfl⟩
      exact ⟨[], rfl, nofun, by simp, .inl rfl⟩
    · rintro ⟨gs, hgs, -, rfl, -⟩
      have hnil : gs = [] := by
        have hlen := congrArg List.length hgs
        rw [List.length_append, List.length_singleton, List.length_singleton] at hlen
        exact List.length_eq_zero_iff.mp (by omega)
      subst hnil
      exact ⟨by simp, by simpa using hgs⟩
  | cons c p ih =>
    unfold scanGroups
    by_cases hc : c = ':'
    · subst hc
      rw [if_pos rfl, List.splitOn_append_cons_self_of_not_mem hstart]
      have hsplit : ∀ gs : List (List Char), start :: p.splitOn ':' = gs ++ [last] ↔
          ∃ gs', gs = start :: gs' ∧ p.splitOn ':' = gs' ++ [last] := by
        intro gs
        cases gs with
        | nil => simp [List.splitOn_ne_nil]
        | cons g gs => simp [eq_comm]
      constructor
      · intro h
        split at h
        · cases h
        next g hparse =>
          obtain ⟨hg, rfl⟩ := parseHexGroup_some.mp hparse
          split at h
          · cases h
          next hfew =>
            obtain ⟨gs, hpieces, hgs, rfl, hlen⟩ := (ih (by simp)).mp h
            refine ⟨start :: gs, (hsplit _).mpr ⟨gs, rfl, hpieces⟩, List.forall_mem_cons.mpr ⟨hg, hgs⟩, by simp, .inr ?_⟩
            rw [List.length_append, List.length_singleton] at hlen
            rw [List.length_cons]
            rcases hlen with rfl | hlen
            · rw [List.length_nil]
              omega
            · omega
      · rintro ⟨gs, hpieces, hgs, rfl, hlen⟩
        obtain ⟨gs', rfl, hrest⟩ := (hsplit gs).mp hpieces
        obtain ⟨hg, hgs⟩ := List.forall_mem_cons.mp hgs
        have hlen : groups.length + (gs'.length + 1) ≤ 8 := by simpa using hlen
        rw [parseHexGroup_some.mpr ⟨hg, rfl⟩]
        dsimp only
        rw [if_neg (by omega), ih (by simp)]
        refine ⟨gs', hrest, hgs, by simp, .inr ?_⟩
        rw [List.length_append, List.length_singleton]
        omega
    · rw [if_neg hc, ih (by simp [hstart, Ne.symm hc]), List.append_assoc, List.singleton_append]

/-- What is left over has no colon. -/
theorem scanGroups_last {p start : List Char} {groups out : List U16} {last : List Char} (hstart : ':' ∉ start)
    (h : scanGroups p start groups = some (out, last)) : ':' ∉ last := by
  induction p generalizing start groups with
  | nil =>
    cases h
    exact hstart
  | cons c p ih =>
    unfold scanGroups at h
    split at h
    · split at h
      · cases h
      · split at h
        · cases h
        · exact ih (by simp) h
    next hc => exact ih (by simp [hstart, Ne.symm hc]) h

/-- A colon at the end, or none. -/
def colon (trail : Bool) : List Char := if trail then [':'] else []

/-- The groups of a text without `::`: with or without a colon at the end. -/
theorem groups_some {s : List Char} {out : List U16} : (scanGroups s [] []).bind closeGroup = some out ↔
    ∃ gs trail, (∀ g ∈ gs, IsGroup g) ∧ (trail = true → gs ≠ []) ∧ s = join gs ++ colon trail ∧ out = gs.map groupValue ∧
      gs.length ≤ if trail then 8 else 9 := by
  rw [Option.bind_eq_some_iff]
  constructor
  · rintro ⟨⟨closed, last⟩, hscan, hclose⟩
    obtain ⟨gs, hpieces, hgs, rfl, hlen⟩ := (scanGroups_some (by simp)).mp hscan
    have hs : s = join (gs ++ [last]) := by
      rw [← hpieces]
      exact (List.intercalate_splitOn ':').symm
    unfold closeGroup at hclose
    split at hclose
    next hlast =>
      change last = [] at hlast
      subst hlast
      cases gs with
      | nil => exact ⟨[], false, nofun, nofun, by rw [hs]; rfl, (Option.some.inj hclose).symm, Nat.zero_le _⟩
      | cons g gs =>
        refine ⟨g :: gs, true, hgs, fun _ => List.cons_ne_nil _ _, ?_, (Option.some.inj hclose).symm, ?_⟩
        · rw [hs, join_concat (List.cons_ne_nil _ _)]
          rfl
        · simpa using hlen
    next hlast =>
      obtain ⟨v, hv, rfl⟩ := Option.map_eq_some_iff.mp hclose
      obtain ⟨hg, rfl⟩ := parseHexGroup_some.mp hv
      refine ⟨gs ++ [last], false, ?_, nofun, by rw [hs]; simp [colon], by simp, ?_⟩
      · rw [List.forall_mem_append]
        exact ⟨hgs, List.forall_mem_singleton.mpr hg⟩
      · have hle : gs.length ≤ 8 := by
          rcases hlen with rfl | hlen
          · exact Nat.zero_le _
          · simpa using hlen
        rw [List.length_append, List.length_singleton]
        exact Nat.succ_le_succ hle
  · rintro ⟨gs, trail, hgs, htrail, rfl, rfl, hlen⟩
    have hfree : ∀ g ∈ gs, ':' ∉ g := fun g hg => (hgs g hg).no_colon
    cases trail with
    | true =>
      have hpieces : (join gs ++ [':']).splitOn ':' = gs ++ [[]] := by
        refine (join_eq_iff (by simp) ?_).mp (join_concat (htrail rfl) []).symm
        rw [List.forall_mem_append]
        exact ⟨hfree, by simp⟩
      exact ⟨(gs.map groupValue, []), (scanGroups_some (by simp)).mpr ⟨gs, hpieces, hgs, rfl, .inr (by simpa using hlen)⟩, rfl⟩
    | false =>
      rw [colon, if_neg nofun, List.append_nil]
      rcases List.eq_nil_or_concat gs with rfl | ⟨gs, g, rfl⟩
      · exact ⟨([], []), rfl, rfl⟩
      · rw [List.concat_eq_append] at *
        rw [List.forall_mem_append, List.forall_mem_singleton] at hgs
        have hpieces : (join (gs ++ [g])).splitOn ':' = gs ++ [g] := (join_eq_iff (by simp) hfree).mp rfl
        refine ⟨(gs.map groupValue, g), (scanGroups_some (by simp)).mpr ⟨gs, hpieces, hgs.1, rfl, .inr ?_⟩, ?_⟩
        · exact Nat.le_of_lt_succ (by simpa using hlen)
        · unfold closeGroup
          rw [if_neg hgs.2.1, parseHexGroup_some.mpr ⟨hgs.2, rfl⟩, List.map_append]
          rfl

/-! ## The double colon -/

/-- The first `::` and what is before it, which ends in no colon. -/
theorem strstrDcolon_some {s left right : List Char} (h : strstrDcolon s = some (left, right)) :
    s = left ++ ':' :: ':' :: right ∧ left.getLast? ≠ some ':' := by
  fun_induction strstrDcolon s generalizing left with
  | case1 c d rest hc =>
    obtain ⟨rfl, rfl⟩ := hc
    cases h
    exact ⟨rfl, nofun⟩
  | case2 c d rest hc ih =>
    obtain ⟨⟨l, r⟩, hl, heq⟩ := Option.map_eq_some_iff.mp h
    cases heq
    obtain ⟨htext, hlast⟩ := ih hl
    refine ⟨by rw [htext]; rfl, ?_⟩
    cases l with
    | nil =>
      obtain ⟨rfl, -⟩ := List.cons.inj htext
      intro he
      exact hc ⟨Option.some.inj he, rfl⟩
    | cons e l => rwa [List.getLast?_cons_cons]
  | case3 => cases h

theorem strstrDcolon_skip {g : List Char} (hg : ':' ∉ g) (t : List Char) :
    strstrDcolon (g ++ t) = (strstrDcolon t).map fun r => (g ++ r.1, r.2) := by
  induction g with
  | nil => simp
  | cons c g ih =>
    rw [List.mem_cons, not_or] at hg
    have ih := ih hg.2
    cases hgt : g ++ t with
    | nil =>
      obtain ⟨rfl, rfl⟩ := List.append_eq_nil_iff.mp hgt
      rfl
    | cons d rest =>
      rw [hgt] at ih
      rw [List.cons_append, hgt, strstrDcolon, if_neg fun h => hg.1 h.1.symm, ih, Option.map_map]
      rfl

theorem strstrDcolon_colon {c : Char} (hc : c ≠ ':') (t : List Char) :
    strstrDcolon (':' :: c :: t) = (strstrDcolon (c :: t)).map fun r => (':' :: r.1, r.2) := by
  rw [strstrDcolon, if_neg fun h => hc h.2]

/-- Groups begin with a digit. -/
theorem join_head {g : List Char} (hg : IsGroup g) (gs : List (List Char)) : ∃ c u, join (g :: gs) = c :: u ∧ c ≠ ':' := by
  obtain ⟨c, g, rfl⟩ := List.exists_cons_of_ne_nil hg.1
  have hc : c ≠ ':' := fun h => hg.no_colon (by simp [h])
  cases gs with
  | nil => exact ⟨c, g, join_singleton _, hc⟩
  | cons g' gs => exact ⟨c, g ++ ':' :: join (g' :: gs), join_cons_cons _ _ _, hc⟩

/-- There is no `::` among groups with single colons between them. -/
theorem strstrDcolon_join {gs : List (List Char)} (hgs : ∀ g ∈ gs, IsGroup g) (t : List Char) :
    strstrDcolon (join gs ++ t) = (strstrDcolon t).map fun r => (join gs ++ r.1, r.2) := by
  induction gs with
  | nil => simp [join_nil]
  | cons g gs ih =>
    have hg := hgs g List.mem_cons_self
    have ih := ih fun g' h => hgs g' (List.mem_cons_of_mem _ h)
    cases gs with
    | nil =>
      rw [join_singleton]
      exact strstrDcolon_skip hg.no_colon t
    | cons g' gs =>
      have hg' := hgs g' (by simp)
      rw [join_cons_cons, List.append_assoc, strstrDcolon_skip hg.no_colon, List.cons_append]
      obtain ⟨c, u, hj, hc⟩ := join_head hg' gs
      rw [hj, List.cons_append, strstrDcolon_colon hc, ← List.cons_append, ← hj, ih, Option.map_map, Option.map_map]
      congr 1
      funext r
      simp

/-! ## What the parser takes -/

/-- Eight groups, and a colon behind them or none. -/
structure Plain (s : List Char) (gs : List (List Char)) (trail : Bool) : Prop where
  groups : ∀ g ∈ gs, IsGroup g
  eight : gs.length = 8
  text : s = join gs ++ colon trail

/-- Groups on both sides of `::`, with a piece `x` before it that is not read, and
a colon at the end or none. -/
structure Compressed (s : List Char) (ls : List (List Char)) (x : List Char) (rs : List (List Char)) (trail : Bool) : Prop where
  left : ∀ g ∈ ls, IsGroup g
  unread : ':' ∉ x
  first : x = [] → ls = []
  right : ∀ g ∈ rs, IsGroup g
  closed : trail = true → rs ≠ []
  text : s = join (ls ++ [x]) ++ ':' :: ':' :: (join rs ++ colon trail)
  fits : ls.length + rs.length ≤ 8

/-- The groups that are stored for it. -/
def stored (ls rs : List (List Char)) : List U16 :=
  ls.map groupValue ++ List.replicate (8 - (ls.length + rs.length)) 0 ++ rs.map groupValue

theorem Plain.strstr {s : List Char} {gs : List (List Char)} {trail : Bool} (h : Plain s gs trail) : strstrDcolon s = none := by
  rw [h.text, strstrDcolon_join h.groups]
  cases trail <;> rfl

theorem Compressed.strstr {s x : List Char} {ls rs : List (List Char)} {trail : Bool} (h : Compressed s ls x rs trail) :
    strstrDcolon s = some (join (ls ++ [x]), join rs ++ colon trail) := by
  have hhere : ∀ t, strstrDcolon (x ++ ':' :: ':' :: t) = some (x, t) := fun t => by
    rw [strstrDcolon_skip h.unread, strstrDcolon, if_pos ⟨rfl, rfl⟩, Option.map_some, List.append_nil]
  rw [h.text]
  cases ls with
  | nil => rw [List.nil_append, join_singleton, hhere]
  | cons g ls =>
    obtain ⟨c, x, rfl⟩ := List.exists_cons_of_ne_nil fun hx => List.cons_ne_nil _ _ (h.first hx)
    have hc : c ≠ ':' := fun he => h.unread (by simp [he])
    have hskip := hhere (join rs ++ colon trail)
    rw [List.cons_append] at hskip
    rw [join_concat (List.cons_ne_nil _ _), List.append_assoc, strstrDcolon_join h.left, List.cons_append, List.cons_append,
      strstrDcolon_colon hc, hskip, Option.map_some, Option.map_some]

/-- **What `ipv6_parse_addr` takes**, and what it stores. -/
theorem ipv6ParseAddr_some {s : List Char} {a : In6Addr} : ipv6ParseAddr s = some a ↔
    (∃ gs trail, Plain s gs trail ∧ a = storeGroups (gs.map groupValue)) ∨
      ∃ ls x rs trail, Compressed s ls x rs trail ∧ a = storeGroups (stored ls rs) := by
  constructor
  · intro h
    unfold ipv6ParseAddr at h
    split at h
    next hnone =>
      split at h
      · cases h
      next groups hgroups =>
        split at h
        · cases h
        next height =>
          obtain ⟨gs, trail, hgs, htrail, htext, rfl, -⟩ := groups_some.mp hgroups
          rw [List.length_map] at height
          exact .inl ⟨gs, trail, ⟨hgs, not_not.mp height, htext⟩, (Option.some.inj h).symm⟩
    next left right hsome =>
      obtain ⟨htext, hlast⟩ := strstrDcolon_some hsome
      split at h
      next groups x rightGroups hleft hright =>
        dsimp only at h
        split at h
        · cases h
        next hfits =>
          obtain ⟨ls, hpieces, hls, rfl, -⟩ := (scanGroups_some (by simp)).mp hleft
          obtain ⟨rs, trail, hrs, htrail, rfl, rfl, -⟩ := groups_some.mp hright
          have hl : left = join (ls ++ [x]) := by
            rw [← hpieces]
            exact (List.intercalate_splitOn ':').symm
          rw [List.nil_append, List.length_map, List.length_map] at hfits
          refine .inr ⟨ls, x, rs, trail, ⟨hls, ?_, ?_, hrs, htrail, by rw [htext, hl], by omega⟩, ?_⟩
          · exact scanGroups_last (by simp) hleft
          · rintro rfl
            by_contra hne
            rw [hl, join_concat hne, List.getLast?_append] at hlast
            exact hlast rfl
          · rw [← Option.some.inj h, stored, List.nil_append, List.length_map, List.length_map]
      next => cases h
  · rintro (⟨gs, trail, h, rfl⟩ | ⟨ls, x, rs, trail, h, rfl⟩)
    · have hgroups : (scanGroups s [] []).bind closeGroup = some (gs.map groupValue) := by
        refine groups_some.mpr ⟨gs, trail, h.groups, fun _ => ?_, h.text, rfl, ?_⟩
        · rintro rfl
          exact absurd h.eight (by decide)
        · rw [h.eight]
          split <;> decide
      unfold ipv6ParseAddr
      rw [h.strstr, hgroups]
      dsimp only
      rw [if_neg]
      rw [List.length_map, h.eight]
      exact fun hne => hne rfl
    · have hfits := h.fits
      have hleft : scanGroups (join (ls ++ [x])) [] [] = some (ls.map groupValue, x) := by
        refine (scanGroups_some (by simp)).mpr ⟨ls, ?_, h.left, rfl, .inr ?_⟩
        · refine (join_eq_iff (by simp) ?_).mp rfl
          rw [List.forall_mem_append, List.forall_mem_singleton]
          exact ⟨fun g hg => (h.left g hg).no_colon, h.unread⟩
        · rw [List.length_nil]
          omega
      have hright : (scanGroups (join rs ++ colon trail) [] []).bind closeGroup = some (rs.map groupValue) := by
        refine groups_some.mpr ⟨rs, trail, h.right, h.closed, rfl, rfl, ?_⟩
        split <;> omega
      unfold ipv6ParseAddr
      rw [h.strstr]
      dsimp only
      rw [hleft, hright]
      dsimp only
      rw [List.length_map, List.length_map, if_neg (by omega), stored]

/-! ## Where the grammar is met -/

/-- The parser and the grammar agree on the string. -/
def ParsesRight (s : List Char) : Prop := ∀ a, ipv6ParseAddr s = some a ↔ Denotes s a

/-- The strings that are misread: a colon stands at the end, or the piece that is
not read is no group of zeros, or there are more groups than may stand beside
`::`. -/
inductive Misread (s : List Char) : Prop
  | plain (gs : List (List Char)) (h : Plain s gs true)
  | compressed (ls : List (List Char)) (x : List Char) (rs : List (List Char)) (trail : Bool) (h : Compressed s ls x rs trail)
      (wrong : trail = true ∨ (x ≠ [] ∧ ¬ (IsGroup x ∧ groupValue x = 0)) ∨ 8 ≤ ls.length + (if x = [] then 0 else 1) + rs.length)

/-- The stored address has all of its groups. -/
theorem storeGroups_inj {l l' : List U16} (h : storeGroups l = storeGroups l') {i : Nat} (hi : i < 8) : l.getD i 0 = l'.getD i 0 := by
  have hbyte : ∀ k (hk : k < 16), (storeGroups l)[k] = (storeGroups l')[k] := fun k hk => by rw [h]
  have hhi := hbyte (2 * i) (by omega)
  have hlo := hbyte (2 * i + 1) (by omega)
  have hdiv : (2 * i + 1) / 2 = i := by omega
  have hmod : (2 * i + 1) % 2 = 1 := by omega
  simp only [storeGroups, Vector.getElem_ofFn, Nat.mul_mod_right, Nat.mul_div_cancel_left i (Nat.zero_lt_two), if_true] at hhi
  simp only [storeGroups, Vector.getElem_ofFn, hdiv, hmod, Nat.one_ne_zero, if_false] at hlo
  have hword : ∀ x y : U16, (x >>> 8).setWidth 8 = (y >>> 8).setWidth 8 → x.setWidth 8 = y.setWidth 8 → x = y := by
    intro x y h1 h2
    bv_omega
  exact hword _ _ hhi hlo

/-- The groups with a zero group written out are the same. -/
theorem stored_zero {ls rs : List (List Char)} {x : List Char} (hx : groupValue x = 0) (hlen : ls.length + rs.length < 8) :
    stored (ls ++ [x]) rs = stored ls rs := by
  have hrep : 8 - (ls.length + rs.length) = 8 - ((ls ++ [x]).length + rs.length) + 1 := by
    rw [List.length_append, List.length_singleton]
    omega
  rw [stored, stored, hrep, List.replicate_succ, List.map_append, List.map_singleton, hx, List.append_assoc (ls.map groupValue),
    List.singleton_append]

theorem join_ne_nil {g : List Char} (hg : g ≠ []) (gs : List (List Char)) : join (g :: gs) ≠ [] := by
  cases gs with
  | nil => rwa [join_singleton]
  | cons g' gs =>
    rw [join_cons_cons]
    exact fun h => hg (List.append_eq_nil_iff.mp h).1

/-- The pieces are known from the text. -/
theorem join_inj {gs gs' : List (List Char)} (h : ∀ g ∈ gs, g ≠ [] ∧ ':' ∉ g) (h' : ∀ g ∈ gs', g ≠ [] ∧ ':' ∉ g)
    (heq : join gs = join gs') : gs = gs' := by
  cases gs with
  | nil =>
    cases gs' with
    | nil => rfl
    | cons g gs' => exact absurd heq.symm (join_ne_nil (h' g List.mem_cons_self).1 gs')
  | cons g gs =>
    cases gs' with
    | nil => exact absurd heq (join_ne_nil (h g List.mem_cons_self).1 gs)
    | cons g' gs' =>
      have hp := (join_eq_iff (List.cons_ne_nil g gs) fun x hx => (h x hx).2).mp rfl
      have hp' := (join_eq_iff (List.cons_ne_nil g' gs') fun x hx => (h' x hx).2).mp rfl
      rw [← hp, heq, hp']

theorem IsGroup.piece {g : List Char} (h : IsGroup g) : g ≠ [] ∧ ':' ∉ g := ⟨h.1, h.no_colon⟩

/-- Nothing that ends in a colon is groups with single colons between them. -/
theorem join_no_trail {gs gs' : List (List Char)} {trail : Bool} (h : ∀ g ∈ gs, IsGroup g) (h' : ∀ g ∈ gs', IsGroup g)
    (hclosed : trail = true → gs ≠ []) (heq : join gs ++ colon trail = join gs') : gs' = gs ∧ trail = false := by
  cases trail with
  | false =>
    rw [colon, if_neg nofun, List.append_nil] at heq
    exact ⟨(join_inj (fun g hg => (h g hg).piece) (fun g hg => (h' g hg).piece) heq).symm, rfl⟩
  | true =>
    exfalso
    have hjoin : join (gs ++ [[]]) = join gs' := (join_concat (hclosed rfl) []).trans heq
    have hne : gs' ≠ [] := by
      rintro rfl
      rw [join_concat (hclosed rfl)] at hjoin
      exact absurd hjoin (by simp [join_nil])
    have hfree : ∀ g ∈ gs ++ [[]], ':' ∉ g := by
      rw [List.forall_mem_append]
      exact ⟨fun g hg => (h g hg).no_colon, by simp⟩
    have hp := (join_eq_iff (by simp) hfree).mp rfl
    have hp' := (join_eq_iff hne fun g hg => (h' g hg).no_colon).mp rfl
    rw [hjoin, hp'] at hp
    exact (h' [] (by rw [hp]; simp)).1 rfl

/-- A reading of a string with `::` by the grammar is the parser's, with the piece
that the parser does not read. -/
theorem Compressed.unique {s x : List Char} {ls rs ls' rs' : List (List Char)} {trail : Bool} (h : Compressed s ls x rs trail)
    (hl : ∀ g ∈ ls', IsGroup g) (hr : ∀ g ∈ rs', IsGroup g) (ht : s = join ls' ++ ':' :: ':' :: join rs') :
    (ls' = if x = [] then [] else ls ++ [x]) ∧ rs' = rs ∧ trail = false := by
  have hpair : (join (ls ++ [x]), join rs ++ colon trail) = (join ls', join rs') := by
    rw [← Option.some.injEq, ← h.strstr, ht, strstrDcolon_join hl, strstrDcolon, if_pos ⟨rfl, rfl⟩, Option.map_some, List.append_nil]
  obtain ⟨hleft, hright⟩ := Prod.mk.inj hpair
  obtain ⟨hrs, htrail⟩ := join_no_trail h.right hr h.closed hright
  refine ⟨?_, hrs, htrail⟩
  split
  next hx =>
    subst hx
    rw [h.first rfl] at hleft
    exact (@join_inj [] ls' nofun (fun g hg => (hl g hg).piece) hleft).symm
  next hx =>
    refine (join_inj ?_ (fun g hg => (hl g hg).piece) hleft).symm
    rw [List.forall_mem_append, List.forall_mem_singleton]
    exact ⟨fun g hg => (h.left g hg).piece, hx, h.unread⟩

theorem getD_stored {ls rs : List (List Char)} (hlen : ls.length + rs.length < 8) : (stored ls rs).getD ls.length 0 = 0 := by
  have hpos : 0 < 8 - (ls.length + rs.length) := by omega
  rw [stored, List.append_assoc, List.getD_append_right _ _ _ _ (by rw [List.length_map]), List.length_map, Nat.sub_self,
    List.getD_append _ _ _ _ (by rw [List.length_replicate]; exact hpos)]
  simp

theorem getD_stored_concat (ls rs : List (List Char)) (x : List Char) : (stored (ls ++ [x]) rs).getD ls.length 0 = groupValue x := by
  rw [stored, List.map_append, List.append_assoc, List.append_assoc,
    List.getD_append_right _ _ _ _ (by rw [List.length_map]), List.length_map, Nat.sub_self]
  rfl

/-- The grammar's reading with `::`, as the parser takes it. -/
theorem compressed_of_text {s : List Char} {ls rs : List (List Char)} (hl : ∀ g ∈ ls, IsGroup g) (hr : ∀ g ∈ rs, IsGroup g)
    (hfewer : ls.length + rs.length < 8) (ht : s = join ls ++ ':' :: ':' :: join rs) :
    ∃ ls' x, (ls = if x = [] then ls' else ls' ++ [x]) ∧ Compressed s ls' x rs false := by
  rcases List.eq_nil_or_concat ls with rfl | ⟨ls, x, rfl⟩
  · exact ⟨[], [], rfl, nofun, nofun, fun _ => rfl, hr, nofun, by rw [ht]; simp [join, colon], by omega⟩
  · rw [List.concat_eq_append] at *
    rw [List.forall_mem_append, List.forall_mem_singleton] at hl
    rw [List.length_append, List.length_singleton] at hfewer
    refine ⟨ls, x, (if_neg hl.2.1).symm, hl.1, hl.2.no_colon, fun hx => absurd hx hl.2.1, hr, nofun, ?_, by omega⟩
    rw [ht, colon, if_neg nofun, List.append_nil]

/-- A misread string is taken for an address that it does not denote. -/
theorem Misread.not_right {s : List Char} (h : Misread s) : ¬ ParsesRight s := by
  intro hright
  cases h with
  | plain gs h =>
    cases (hright _).mp (ipv6ParseAddr_some.mpr (.inl ⟨gs, true, h, rfl⟩)) with
    | full gs' groups eight text =>
      have hnil : gs ≠ [] := fun hn => absurd h.eight (by rw [hn]; decide)
      exact absurd (join_no_trail h.groups groups (fun _ => hnil) (h.text.symm.trans text)).2 nofun
    | compressed ls rs left right fewer text =>
      obtain ⟨_, _, -, hc⟩ := compressed_of_text left right fewer text
      have hnone := h.strstr
      rw [hc.strstr] at hnone
      cases hnone
  | compressed ls x rs trail h wrong =>
    cases (hright _).mp (ipv6ParseAddr_some.mpr (.inr ⟨ls, x, rs, trail, h, rfl⟩)) with
    | full gs' groups eight text =>
      have hplain : Plain s gs' false := ⟨groups, eight, by rw [text, colon, if_neg nofun, List.append_nil]⟩
      have hnone := hplain.strstr
      rw [h.strstr] at hnone
      cases hnone
    | compressed ls' rs' left right fewer text value =>
      obtain ⟨rfl, rfl, rfl⟩ := h.unique left right text
      change storeGroups (stored ls rs') = storeGroups (stored _ rs') at value
      rcases wrong with hw | ⟨hx, hw⟩ | hw
      · cases hw
      · rw [if_neg hx] at left fewer value
        rw [List.length_append, List.length_singleton] at fewer
        rw [List.forall_mem_append, List.forall_mem_singleton] at left
        have hzero := storeGroups_inj value (i := ls.length) (by omega)
        rw [getD_stored (by omega), getD_stored_concat] at hzero
        exact hw ⟨left.2, hzero.symm⟩
      · split at hw
        next hx =>
          rw [if_pos hx, List.length_nil] at fewer
          rw [h.first hx, List.length_nil] at hw
          omega
        next hx =>
          rw [if_neg hx, List.length_append, List.length_singleton] at fewer
          omega

/-- **The parser meets the grammar** on the strings that are not misread, and on
no others. -/
theorem parsesRight_iff (s : List Char) : ParsesRight s ↔ ¬ Misread s := by
  refine ⟨fun hright h => h.not_right hright, fun hno a => ⟨fun h => ?_, fun h => ?_⟩⟩
  · rcases ipv6ParseAddr_some.mp h with ⟨gs, trail, hp, rfl⟩ | ⟨ls, x, rs, trail, hc, rfl⟩
    · cases trail with
      | true => exact absurd (.plain gs hp) hno
      | false => exact .full gs hp.groups hp.eight (by rw [hp.text, colon, if_neg nofun, List.append_nil]) rfl
    · have hright : ¬ (trail = true ∨ (x ≠ [] ∧ ¬ (IsGroup x ∧ groupValue x = 0)) ∨
          8 ≤ ls.length + (if x = [] then 0 else 1) + rs.length) := fun hw => hno (.compressed ls x rs trail hc hw)
      rw [not_or, not_or] at hright
      obtain ⟨htrail, hx, hfew⟩ := hright
      have htext : s = join (ls ++ [x]) ++ ':' :: ':' :: join rs := by
        rw [hc.text, colon, if_neg htrail, List.append_nil]
      by_cases hnil : x = []
      · subst hnil
        rw [if_pos rfl] at hfew
        rw [hc.first rfl] at hfew htext ⊢
        exact .compressed [] rs nofun hc.right (by omega) htext rfl
      · have hzero : IsGroup x ∧ groupValue x = 0 := by
          by_contra hw
          exact hx ⟨hnil, hw⟩
        rw [if_neg hnil] at hfew
        refine .compressed (ls ++ [x]) rs ?_ hc.right ?_ htext ?_
        · rw [List.forall_mem_append, List.forall_mem_singleton]
          exact ⟨hc.left, hzero.1⟩
        · rw [List.length_append, List.length_singleton]
          omega
        · rw [← stored_zero hzero.2 (by omega)]
          rfl
  · cases h with
    | full gs groups eight text value =>
      exact ipv6ParseAddr_some.mpr (.inl ⟨gs, false, ⟨groups, eight, by rw [text, colon, if_neg nofun, List.append_nil]⟩, value⟩)
    | compressed ls rs left right fewer text value =>
      obtain ⟨ls', x, hls, hc⟩ := compressed_of_text left right fewer text
      refine ipv6ParseAddr_some.mpr (.inr ⟨ls', x, rs, false, hc, ?_⟩)
      change a = storeGroups (stored ls rs) at value
      split at hls
      · rw [value, hls]
      next hx =>
        subst hls
        rw [List.length_append, List.length_singleton] at fewer
        have hzero : groupValue x = 0 := by
          by_contra hne
          exact hno (.compressed ls' x rs false hc (.inr (.inl ⟨hx, fun hg => hne hg.2⟩)))
        rw [value, stored_zero hzero (by omega)]

/-- `fe80::1`. -/
def linkLocalText : List Char := ['f', 'e', '8', '0', ':', ':', '1']

/-- It is taken for `::1`. -/
theorem link_local_misread : ipv6ParseAddr linkLocalText = some #v[0, 0, 0, 0, 0, 0, 0, 0, 0, 0, 0, 0, 0, 0, 0, 1] ∧
    ¬ ParsesRight linkLocalText := by
  have hread : Compressed linkLocalText [] ['f', 'e', '8', '0'] [['1']] false :=
    ⟨nofun, by decide, nofun, by decide, nofun, by decide, by decide⟩
  exact ⟨by decide +kernel, (Misread.compressed _ _ _ _ hread (.inr (.inl ⟨by decide, by decide⟩))).not_right⟩

end LevelIp
