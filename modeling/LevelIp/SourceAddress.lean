/-
The source addresses the host sends from. `ipv6_output_ex` and
`ndp_ns_process` look at `addr6_global_valid` and at the addresses, never at
their states, so it is for the events to keep away from an address whose
detection has not passed.
-/
import LevelIp.DadEvidence

namespace LevelIp

namespace Host6

/-- The address in the slot is one the host goes by. -/
def InUse (h : Host6) (x : AddrSlot) : Prop := x = .ll ∨ h.dev.addr6GlobalValid = true

/-- `a` is an address of the host, and its state lets it be used. -/
def Usable (h : Host6) (a : In6Addr) : Prop :=
  (∃ x, h.InUse x ∧ h.dev.addr x = a) ∧
    ∀ x, h.InUse x → h.dev.addr x = a → h.dev.stateOf x = .preferred ∨ h.dev.stateOf x = .deprecated

/-- What goes out in this step with a source of the host's own choosing goes
out from a usable address: the packets `ipv6_output_ex` selects a source for,
and the Neighbor Advertisements of `ndp_ns_process`. -/
structure SourceUsable (h : Host6) (e : AddrEvent) : Prop where
  packet : ∀ saddr daddr nexthdr src dst n, e = .output saddr daddr nexthdr →
    h.ipv6Packet saddr daddr nexthdr = some (.packet true src dst n) → h.Usable src
  reply : ∀ m target src dst, e = .ns m → h.naReply m = some (.na target src dst) → h.Usable src

/-- The address `ipv6_output_ex` would choose. -/
def autoSlot (h : Host6) : AddrSlot := if h.dev.addr6GlobalValid then .global else .ll

/-- The address of the host that the event sends from. -/
def sourceSlot (h : Host6) : AddrEvent → Option AddrSlot
  | .output saddr daddr _ =>
    if (h.route6Lookup daddr).isSome && (h.dev.selectSource saddr).1 then some h.autoSlot else none
  | .ns m => if h.isOurs m.target then some (if m.target = h.dev.addr6Ll then .ll else .global) else none
  | _ => none

theorem inUse_autoSlot (h : Host6) : h.InUse h.autoSlot := by
  unfold autoSlot
  split
  · next hv => exact .inr hv
  · exact .inl rfl

theorem addr_autoSlot (h : Host6) :
    h.dev.addr h.autoSlot = if h.dev.addr6GlobalValid then h.dev.addr6Global else h.dev.addr6Ll := by
  unfold autoSlot
  split <;> rfl

/-- A source chosen automatically is the address of `autoSlot`. -/
theorem selectSource_auto {h : Host6} {saddr : Option In6Addr} (ha : (h.dev.selectSource saddr).1 = true) :
    (h.dev.selectSource saddr).2 = h.dev.addr h.autoSlot := by
  rw [addr_autoSlot]
  cases saddr with
  | none => rfl
  | some a =>
    unfold Netdev.selectSource at ha ⊢
    dsimp only at ha ⊢
    split at ha
    · next h0 => rw [if_pos h0]
    · cases ha

/-- What an output sends from. -/
theorem sourceSlot_output {h : Host6} {saddr : Option In6Addr} {daddr src dst : In6Addr} {nexthdr n : U8}
    (hp : h.ipv6Packet saddr daddr nexthdr = some (.packet true src dst n)) :
    ∃ x, h.sourceSlot (.output saddr daddr nexthdr) = some x ∧ h.InUse x ∧ h.dev.addr x = src := by
  unfold ipv6Packet at hp
  obtain ⟨rt, hr, hp⟩ := Option.map_eq_some_iff.1 hp
  injection hp with h1 h2
  refine ⟨h.autoSlot, ?_, inUse_autoSlot h, by rw [← h2, selectSource_auto h1]⟩
  simp only [sourceSlot, hr, Option.isSome_some, h1, Bool.and_self, if_true]

/-- What a Neighbor Advertisement is sent from. -/
theorem sourceSlot_ns {h : Host6} {m : NdpMsg} {target src dst : In6Addr} (hp : h.naReply m = some (.na target src dst)) :
    ∃ x, h.sourceSlot (.ns m) = some x ∧ h.InUse x ∧ h.dev.addr x = src := by
  unfold naReply at hp
  split at hp
  · next ho =>
    injection hp with hp
    injection hp with h1 h2
    refine ⟨_, if_pos ho, ?_⟩
    split
    · next hl => exact ⟨.inl rfl, hl.symm.trans h2⟩
    · next hl =>
      simp only [isOurs, hl, decide_false, Bool.false_or, Bool.and_eq_true, decide_eq_true_eq] at ho
      exact ⟨.inr ho.1, ho.2.symm.trans h2⟩
  · cases hp

end Host6

namespace Watch

/-- The address the event sends from has passed its last detection. -/
def sendsPassed (w : Watch) (e : AddrEvent) : Bool :=
  match w.host.sourceSlot e with
  | none => true
  | some x => w.progress x = .passed

/-- Two addresses in use differ. -/
def Apart (h : Host6) : Prop := h.dev.addr6GlobalValid = true → h.dev.addr6Global ≠ h.dev.addr6Ll

theorem apart_quiet {h : Host6} {e : AddrEvent} (ha : Apart h) (hq : e.quiet = true) : Apart (h.step e) := by
  have key : ∀ {t : Host6}, (∀ x, t.dev.addr x = h.dev.addr x) → t.dev.addr6GlobalValid = h.dev.addr6GlobalValid →
      Apart t := by
    intro t hx hv hvt
    have hg := hx .global
    have hl := hx .ll
    unfold Netdev.addr at hg hl
    dsimp only at hg hl
    rw [hg, hl]
    exact ha (hv ▸ hvt)
  rcases Host6.step_quiet (h := h) hq with ⟨-, t, s, he⟩ | ⟨-, -, t, s, he⟩ | ⟨-, -, s⟩
  · obtain ⟨hx, hv⟩ := Host6.decideDad_addrs t .invalid
    rw [he]
    exact key (fun x => (hx x).trans (s.addr x)) (hv.trans s.valid)
  · obtain ⟨hx, hv⟩ := Host6.decideDad_addrs t .preferred
    rw [he]
    exact key (fun x => (hx x).trans (s.addr x)) (hv.trans s.valid)
  · exact key s.addr s.valid

theorem apart_step {w : Watch} {e : AddrEvent} (hi : w.Inv) (ha : Apart w.host) (hok : w.host.detectsAlone e = true) :
    Apart (w.host.step e) := by
  by_cases hq : e.quiet = true
  · exact apart_quiet ha hq
  · cases e with
    | init =>
      obtain ⟨h1, h2, h3⟩ := Host6.init_addrs w.host
      intro hv
      show w.host.ipv6AddrconfInit.dev.addr6Global ≠ w.host.ipv6AddrconfInit.dev.addr6Ll
      rw [h1, h2, ← hi.ll]
      exact ha (h3 ▸ hv)
    | raPrefix p =>
      have hp : p.prefixLen = 64 := by
        by_contra hp
        refine hq ?_
        simp only [AddrEvent.quiet, AddrEvent.starts, Bool.not_false, Bool.true_and, Bool.not_eq_true',
          decide_eq_false_iff_not]
        exact hp
      obtain ⟨h1, h2, -⟩ := Host6.raPrefix_addrs (h := w.host) hp
      simp only [Host6.detectsAlone, hp, ne_eq, not_true_eq_false, decide_false, Bool.false_or, Bool.and_eq_true,
        decide_eq_true_eq] at hok
      intro _
      show (w.host.raPrefix p).dev.addr6Global ≠ (w.host.raPrefix p).dev.addr6Ll
      rw [h1, h2]
      exact hok.2
    | _ => exact absurd rfl hq

/-- An address that has passed is usable, wherever the detections are their
addresses' own. -/
theorem usable_of_passed {w : Watch} {x : AddrSlot} (hi : w.Inv) (ha : Apart w.host) (hu : w.host.InUse x)
    (hp : w.progress x = .passed) : w.host.Usable (w.host.dev.addr x) := by
  refine ⟨⟨x, hu, rfl⟩, fun y hy heq => .inl ?_⟩
  have hyx : y = x := by
    rcases hu with rfl | hv <;> rcases hy with rfl | hv'
    · rfl
    · cases y with
      | ll => rfl
      | global => exact absurd heq (ha hv')
    · cases x with
      | ll => rfl
      | global => exact absurd heq.symm (ha hv)
    · cases x <;> cases y
      · rfl
      · exact absurd heq (ha hv)
      · exact absurd heq.symm (ha hv)
      · rfl
  rw [hyx, hi.state, hp]
  rfl

/-- **No unusable source address**, in every run whose detections do not
overlap and which sends from addresses that have passed theirs. -/
theorem sources_usable (hw : HwAddr) (es : List AddrEvent)
    (h : Meets (fun w e => w.host.detectsAlone e = true ∧ w.sendsPassed e = true) (boot hw) es) :
    Meets (fun w e => w.host.SourceUsable e) (boot hw) es := by
  refine h.derives (I := fun w => w.Inv ∧ Apart w.host) (fun w e hok hi => ?_) ⟨inv_boot hw, nofun⟩
  refine ⟨⟨(hi.1.step hok.1).1, apart_step hi.1 hi.2 hok.1⟩, ?_, ?_⟩
  · rintro saddr daddr nexthdr src dst n rfl hp
    obtain ⟨x, hx, hu, rfl⟩ := Host6.sourceSlot_output hp
    have hpass := hok.2
    simp only [sendsPassed, hx, decide_eq_true_eq] at hpass
    exact usable_of_passed hi.1 hi.2 hu hpass
  · rintro m target src dst rfl hp
    obtain ⟨x, hx, hu, rfl⟩ := Host6.sourceSlot_ns hp
    have hpass := hok.2
    simp only [sendsPassed, hx, decide_eq_true_eq] at hpass
    exact usable_of_passed hi.1 hi.2 hu hpass

/-- A neighbour on the link. -/
def neighbour : In6Addr := fieldOf [0xfe, 0x80, 0, 0, 0, 0, 0, 0, 0, 0, 0, 0, 0, 0, 0, 0x01]

/-- A packet sent after the first detection. -/
theorem sources_after_detection :
    Meets (fun w e => w.host.SourceUsable e) (boot netdevMac)
      (aSecond ++ [.thread 0, .output none neighbour 6]) :=
  sources_usable netdevMac _ (by decide +kernel)

/-- A packet sent at once goes out from the TENTATIVE link-local address. -/
theorem tentative_source : ¬ Meets (fun w e => w.host.SourceUsable e) (boot netdevMac) [.output none neighbour 6] := by
  intro h
  have := h.1.packet none neighbour 6 Host6.netdevLl neighbour 6 rfl (by decide +kernel)
  rcases this.2 .ll (.inl rfl) (by decide +kernel) with h | h <;> cases h

end Watch

end LevelIp
