/-
What a Neighbor Advertisement does to the neighbour cache, beside the rule of
RFC 4861 it is written after. The code takes any advertisement for an answer: an
INCOMPLETE entry becomes REACHABLE by an unsolicited one too.

The update compares the MAC address again after it was overwritten. So an
advertisement without the override flag replaces the address like one with it,
and with the flag an entry becomes STALE though its address did not change; the
two cases are left out of `NaRule`.
-/
import LevelIp.NdpQueue
import LevelIp.ChainIcmpv6

namespace LevelIp

/-- Section 7.2.5 of RFC 4861, for an entry and what becomes of it. -/
structure RfcRule (m : NdpMsg) (tlla : HwAddr) (e e' : NdpEntry) : Prop where
  first : e.state = .incomplete → e'.hwaddr = tlla ∧ e'.state = if m.flagS then .reachable else .stale
  foreign : e.state ≠ .incomplete → m.flagO = false → e.hwaddr ≠ tlla →
    e'.hwaddr = e.hwaddr ∧ e'.state = if e.state = .reachable then .stale else e.state
  known : e.state ≠ .incomplete → m.flagO = true ∨ e.hwaddr = tlla →
    e'.hwaddr = tlla ∧ e'.state = if m.flagS then .reachable else if e.hwaddr ≠ tlla then .stale else e.state

/-- The rule of the code, where the MAC address is compared before it is
overwritten or is the same. -/
structure NaRule (m : NdpMsg) (tlla : HwAddr) (e e' : NdpEntry) : Prop where
  first : e.state = .incomplete → e'.hwaddr = tlla ∧ e'.state = .reachable
  known : e.state ≠ .incomplete → m.flagO = true ∨ e.hwaddr = tlla → e'.hwaddr = tlla
  solicited : e.state ≠ .incomplete → m.flagO = true ∨ e.hwaddr = tlla → m.flagS = true → e'.state = .reachable
  moved : e.state ≠ .incomplete → m.flagO = true → m.flagS = false → e.hwaddr ≠ tlla → e'.state = .stale
  kept : e.state ≠ .incomplete → m.flagO = false → m.flagS = false → e.hwaddr = tlla → e'.state = e.state

/-- The advertisement changes the entry of its target after `rule`, and no entry
of another address. -/
structure UpdatesBy (rule : NdpEntry → NdpEntry → Prop) (h h' : Host6) (target : In6Addr) : Prop where
  own : ∀ e, h.ndpLookup target = some e → ∃ e', h'.ndpLookup target = some e' ∧ rule e e'
  others : ∀ (i : Nat) (e : NdpEntry), e.ip6 ≠ target → (h.ndpCache[i]? = some e ↔ h'.ndpCache[i]? = some e)

namespace Host6

/-- The entry after the update. -/
theorem naEntry_known (h : Host6) (m : NdpMsg) (tlla : HwAddr) {e : NdpEntry} (hs : e.state ≠ .incomplete) :
    (h.naEntry m tlla e).hwaddr = tlla ∧
      (h.naEntry m tlla e).state = if m.flagS then .reachable else if m.flagO then .stale else e.state := by
  unfold naEntry
  split
  next hi => exact absurd hi hs
  next =>
    -- the address is the advertised one before it is compared again
    have hset : (if m.flagO = true ∨ e.hwaddr ≠ tlla then { e with hwaddr := tlla } else e) = { e with hwaddr := tlla } := by
      split
      · rfl
      next hno =>
        have hsame : e.hwaddr = tlla := by
          by_contra hne
          exact hno (.inr hne)
        rw [← hsame]
    dsimp only
    rw [hset]
    simp only [ne_eq, not_true_eq_false, or_false]
    split
    · exact ⟨rfl, rfl⟩
    · split <;> exact ⟨rfl, rfl⟩

theorem naEntry_first (h : Host6) (m : NdpMsg) (tlla : HwAddr) {e : NdpEntry} (hs : e.state = .incomplete) :
    (h.naEntry m tlla e).hwaddr = tlla ∧ (h.naEntry m tlla e).state = .reachable := by
  unfold naEntry
  rw [hs]
  exact ⟨rfl, rfl⟩

theorem naEntry_rule (h : Host6) (m : NdpMsg) (tlla : HwAddr) (e : NdpEntry) : NaRule m tlla e (h.naEntry m tlla e) where
  first hs := h.naEntry_first m tlla hs
  known hs _ := (h.naEntry_known m tlla hs).1
  solicited hs _ hS := by rw [(h.naEntry_known m tlla hs).2, if_pos hS]
  moved hs hO hS _ := by rw [(h.naEntry_known m tlla hs).2, hS, hO, if_neg nofun, if_pos rfl]
  kept hs hO hS _ := by rw [(h.naEntry_known m tlla hs).2, hS, hO, if_neg nofun, if_neg nofun]

/-- Changing the entry of a key changes no entry of another. -/
theorem getElem?_update_other {l : List NdpEntry} {target : In6Addr} {f : NdpEntry → NdpEntry} (hf : ∀ e, (f e).ip6 = e.ip6) {i : Nat}
    {e : NdpEntry} (hne : e.ip6 ≠ target) : l[i]? = some e ↔ (Keyed.update (·.ip6) l target f)[i]? = some e := by
  have hkey : ∀ x, l[Keyed.idx (·.ip6) l target]? = some x → x.ip6 = target := fun x hx =>
    Keyed.lookup_key ((Keyed.getElem?_idx l target).symm.trans hx)
  rw [Keyed.update, List.getElem?_modify]
  split
  next heq =>
    subst heq
    constructor
    · intro hi
      exact absurd (hkey e hi) hne
    · intro hi
      obtain ⟨x, hx, rfl⟩ := Option.map_eq_some_iff.mp hi
      exact absurd ((hf x).trans (hkey x hx)) hne
  next => rw [id_map']

/-- **An advertisement with a link-layer address** updates the cache by the rule
of the code. -/
theorem ndpNaProcess_updates (h : Host6) (m : NdpMsg) (tlla : HwAddr) (ht : m.tlla = some tlla) :
    UpdatesBy (NaRule m tlla) h (h.ndpNaProcess m) m.target := by
  constructor
  · intro e he
    refine ⟨h.naEntry m tlla e, ?_, h.naEntry_rule m tlla e⟩
    rw [ndpLookup_eq] at he ⊢
    rw [(ndpNaProcess_cache ht).1, Keyed.lookup_update (h.naEntry_ip6 m tlla), if_pos rfl, he, Option.map_some]
  · intro i e hne
    rw [(ndpNaProcess_cache ht).1]
    exact getElem?_update_other (h.naEntry_ip6 m tlla) hne

/-- An advertisement of `target` without flags. -/
def unsolicited (target : In6Addr) : NdpMsg where
  hopLimit := 255
  saddr := target
  daddr := allNodes
  payloadLen := 32
  bytes := [ICMPV6_NEIGHBOR_ADVERT, 0, 0, 0, 0, 0, 0, 0] ++ target.toList ++ [NDP_OPT_TLLA, 1, 0, 12, 41, 109, 80, 37]

theorem ndpNaProcess_updates_unsolicited : UpdatesBy (NaRule (unsolicited allNodes) #v[0, 12, 41, 109, 80, 37])
    (soliciting allNodes) ((soliciting allNodes).ndpNaProcess (unsolicited allNodes)) (unsolicited allNodes).target :=
  ndpNaProcess_updates _ _ _ (by decide +kernel)

/-- An entry that waits for its first answer becomes REACHABLE by an unsolicited
advertisement. -/
theorem unsolicited_reaches : ¬ ∀ (h : Host6) (m : NdpMsg) (tlla : HwAddr), m.tlla = some tlla →
    UpdatesBy (RfcRule m tlla) h (h.ndpNaProcess m) m.target := by
  intro hall
  have hrule := hall (soliciting allNodes) (unsolicited allNodes) #v[0, 12, 41, 109, 80, 37] (by decide +kernel)
  obtain ⟨e', he', hr⟩ := hrule.own { ip6 := allNodes, stateTimestamp := 0 } (by decide +kernel)
  have hstate := (hr.first rfl).2
  have hreach : ((soliciting allNodes).ndpNaProcess (unsolicited allNodes)).ndpLookup (unsolicited allNodes).target =
      some { ip6 := allNodes, stateTimestamp := 0, hwaddr := #v[0, 12, 41, 109, 80, 37], state := .reachable } := by decide +kernel
  rw [hreach] at he'
  rw [← Option.some.inj he'] at hstate
  revert hstate
  decide +kernel

end Host6

end LevelIp
