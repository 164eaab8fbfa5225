/-
`route6_lookup` over the whole route list, IPv4 entries and all: it finds the
first of the longest matches, where an entry matches if its first `prefix_len`
bits are those of the destination.
-/
import LevelIp.Skbuff
import LevelIp.PathMtu
import LevelIp.Lib.BitPrefix

namespace LevelIp

/-- The route's first `prefix_len` bits are those of the destination. -/
def Route6.Matches (r : Route6) (daddr : In6Addr) : Prop := BitPrefix.Agree r.prefixLen.toNat r.dst.toList daddr.toList

/-- The byte loop and the masked byte of `route6_lookup` compare the prefix. A
longer prefix than an address compares the whole of it. -/
theorem Route6.covers_iff (r : Route6) (daddr : In6Addr) : r.covers daddr = true ↔ r.Matches daddr := by
  have hbehind : ∀ (a : In6Addr) {i : Nat}, 16 ≤ i → a.toList.getD i 0 = 0 := fun a i hi => by
    rw [List.getD_eq_default]
    simpa using hi
  have hmask : (r.prefixLen.toNat % 8 = 0 ∨ 16 ≤ r.prefixLen.toNat / 8) → ∀ a a' : In6Addr,
      a.toList.getD (r.prefixLen.toNat / 8) 0 &&& BitPrefix.mask (r.prefixLen.toNat % 8) =
        a'.toList.getD (r.prefixLen.toNat / 8) 0 &&& BitPrefix.mask (r.prefixLen.toNat % 8) := by
    rintro (h | h) a a'
    · rw [h]
      simp [BitPrefix.mask]
    · rw [hbehind a h, hbehind a' h]
  unfold covers Matches
  rw [BitPrefix.agree_iff]
  simp only [Bool.and_eq_true, List.all_eq_true, List.mem_range, beq_iff_eq, Bool.or_eq_true, decide_eq_true_eq]
  constructor
  · rintro ⟨hbytes, hbits⟩
    refine ⟨fun q hq => (hbytes q hq).symm, ?_⟩
    rcases hbits with h | h
    · exact hmask h _ _
    · exact h.symm
  · rintro ⟨hbytes, hbits⟩
    exact ⟨fun q hq => (hbytes q hq).symm, .inr hbits.symm⟩

namespace RtEntry

/-- The entry with another `dst`, if it is an IPv6 one. -/
def redirect (f : Route6 → In6Addr) : RtEntry → RtEntry
  | v4 r => v4 r
  | v6 r => v6 { r with dst := f r }

end RtEntry

/-- The lookup is left with nothing if and only if nothing matched. -/
theorem Route6.foldl_none {daddr : In6Addr} {routes : List Route6} {best : Option Route6} :
    routes.foldl (route6Better daddr) best = none ↔ best = none ∧ ∀ r ∈ routes, ¬ r.Matches daddr := by
  induction routes generalizing best with
  | nil => simp
  | cons r routes ih =>
    rw [List.foldl_cons, ih, List.forall_mem_cons, ← covers_iff]
    by_cases hc : r.covers daddr = true
    · have hsome : route6Better daddr best r ≠ none := by
        rw [better_covers hc]
        split
        · exact Option.some_ne_none r
        next hlt =>
          rintro rfl
          exact hlt rfl
      exact ⟨fun h => absurd h.1 hsome, fun h => absurd hc h.2.1⟩
    · rw [better_not hc]
      exact ⟨fun h => ⟨h.1, hc, h.2⟩, fun h => ⟨h.1, h.2.2⟩⟩

/-- The IPv6 entries of a list that is split at one of them. -/
theorem filterMap_v6_split {routes : List RtEntry} {before after : List Route6} {rt : Route6}
    (h : routes.filterMap RtEntry.v6? = before ++ rt :: after) :
    ∃ pre post, routes = pre ++ RtEntry.v6 rt :: post ∧ pre.filterMap RtEntry.v6? = before ∧ post.filterMap RtEntry.v6? = after := by
  obtain ⟨pre, rest, rfl, hpre, hrest⟩ := List.filterMap_eq_append_iff.mp h
  obtain ⟨mid, e, post, rfl, hmid, he, hpost⟩ := List.filterMap_eq_cons_iff.mp hrest
  cases e with
  | v4 r => cases he
  | v6 r =>
    obtain rfl := Option.some.inj he
    refine ⟨pre ++ mid, post, by rw [List.append_assoc], ?_, hpost⟩
    rw [List.filterMap_append, hpre, List.filterMap_eq_nil_iff.mpr hmid, List.append_nil]

theorem mem_filterMap_v6 {routes : List RtEntry} {r : Route6} : r ∈ routes.filterMap RtEntry.v6? ↔ RtEntry.v6 r ∈ routes := by
  rw [List.mem_filterMap]
  constructor
  · rintro ⟨e, he, hr⟩
    cases e with
    | v4 r => cases hr
    | v6 r' => exact Option.some.inj hr ▸ he
  · exact fun h => ⟨_, h, rfl⟩

theorem Route6.better_redirect {f : Route6 → In6Addr}
    (hf : ∀ r : Route6, BitPrefix.Agree r.prefixLen.toNat (f r).toList r.dst.toList) (daddr : In6Addr) (best : Option Route6) (r : Route6) :
    route6Better daddr (best.map fun b => { b with dst := f b }) { r with dst := f r } =
      (route6Better daddr best r).map fun b => { b with dst := f b } := by
  have hcov : ({ r with dst := f r } : Route6).covers daddr = r.covers daddr := by
    rw [Bool.eq_iff_iff, covers_iff, covers_iff]
    exact ⟨fun h => (hf r).symm.trans h, fun h => (hf r).trans h⟩
  unfold route6Better
  rw [hcov]
  split
  · cases best with
    | none => rfl
    | some b =>
      dsimp only [Option.map_some]
      split <;> rfl
  · rfl

theorem foldl_redirect {f : Route6 → In6Addr} (hf : ∀ r : Route6, BitPrefix.Agree r.prefixLen.toNat (f r).toList r.dst.toList)
    (daddr : In6Addr) (routes : List RtEntry) (best : Option Route6) :
    ((routes.map (RtEntry.redirect f)).filterMap RtEntry.v6?).foldl (route6Better daddr) (best.map fun b => { b with dst := f b }) =
      ((routes.filterMap RtEntry.v6?).foldl (route6Better daddr) best).map fun b => { b with dst := f b } := by
  induction routes generalizing best with
  | nil => rfl
  | cons e routes ih =>
    cases e with
    | v4 r => exact ih best
    | v6 r =>
      have hstep := ih (route6Better daddr best r)
      rw [← Route6.better_redirect hf] at hstep
      exact hstep

/-- **`route6_lookup`** finds nothing if and only if no IPv6 entry matches, and
else the first of the longest matches; what the entries have behind their
prefixes does not matter. -/
theorem route6Lookup_longest (h : SkbHost) (daddr : In6Addr) :
    (h.route6Lookup daddr = none ↔ ∀ r, RtEntry.v6 r ∈ h.routes → ¬ r.Matches daddr) ∧
    (∀ rt, h.route6Lookup daddr = some rt ↔ ∃ before after, h.routes = before ++ RtEntry.v6 rt :: after ∧ rt.Matches daddr ∧
      (∀ r, RtEntry.v6 r ∈ before → r.Matches daddr → r.prefixLen < rt.prefixLen) ∧
      ∀ r, RtEntry.v6 r ∈ after → r.Matches daddr → r.prefixLen ≤ rt.prefixLen) ∧
    ∀ f : Route6 → In6Addr, (∀ r : Route6, BitPrefix.Agree r.prefixLen.toNat (f r).toList r.dst.toList) →
      { h with routes := h.routes.map (RtEntry.redirect f) }.route6Lookup daddr =
        (h.route6Lookup daddr).map fun r => { r with dst := f r } := by
  have hfound : ∀ rt, h.route6Lookup daddr = some rt → ∃ before after, h.routes.filterMap RtEntry.v6? = before ++ rt :: after ∧
      Route6.Best daddr rt before after := by
    intro rt hrt
    rcases Route6.exists_best hrt with ⟨hn, -⟩ | ⟨before, after, he, hb, -⟩
    · cases hn
    · exact ⟨before, after, he, hb⟩
  refine ⟨?_, fun rt => ⟨fun hrt => ?_, ?_⟩, fun f hf => foldl_redirect hf daddr h.routes none⟩
  · rw [SkbHost.route6Lookup, Route6.foldl_none]
    exact ⟨fun hno r hr => hno.2 r (mem_filterMap_v6.mpr hr), fun hno => ⟨rfl, fun r hr => hno r (mem_filterMap_v6.mp hr)⟩⟩
  · obtain ⟨before, after, he, hb⟩ := hfound rt hrt
    obtain ⟨pre, post, hroutes, rfl, rfl⟩ := filterMap_v6_split he
    refine ⟨pre, post, hroutes, (rt.covers_iff daddr).mp hb.covers, fun r hr hm => ?_, fun r hr hm => ?_⟩
    · exact hb.before r (mem_filterMap_v6.mpr hr) ((r.covers_iff daddr).mpr hm)
    · exact hb.after r (mem_filterMap_v6.mpr hr) ((r.covers_iff daddr).mpr hm)
  · rintro ⟨pre, post, hroutes, hm, hpre, hpost⟩
    have hb : Route6.Best daddr rt (pre.filterMap RtEntry.v6?) (post.filterMap RtEntry.v6?) := by
      refine ⟨(rt.covers_iff daddr).mpr hm, fun r hr hc => ?_, fun r hr hc => ?_⟩
      · exact hpre r (mem_filterMap_v6.mp hr) ((r.covers_iff daddr).mp hc)
      · exact hpost r (mem_filterMap_v6.mp hr) ((r.covers_iff daddr).mp hc)
    rw [SkbHost.route6Lookup, hroutes, List.filterMap_append]
    exact hb.lookup

end LevelIp
