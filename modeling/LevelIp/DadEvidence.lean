/-
What a detection is decided on. `ndp_na_process` reports a failure for any
Neighbor Advertisement from the unspecified address, whatever its target, and
for no other; the address asked about is the target, whatever the source.
-/
import LevelIp.DadOverlap

namespace LevelIp

namespace AddrEvent

/-- A Neighbor Advertisement for the address `a` is processed. -/
def names (a : In6Addr) : AddrEvent → Bool
  | .na m => m.target = a
  | _ => false

/-- A Neighbor Advertisement that the code takes for a failure is processed. -/
def counts : AddrEvent → Bool
  | .na m => m.failsDad
  | _ => false

/-- The event starts no detection. -/
def quiet (e : AddrEvent) : Bool := !e.starts .ll && !e.starts .global

end AddrEvent

namespace Host6

/-- The addresses and the detection are the same in both. -/
structure SameDad (h t : Host6) : Prop where
  addr : ∀ x, t.dev.addr x = h.dev.addr x
  valid : t.dev.addr6GlobalValid = h.dev.addr6GlobalValid
  state : ∀ x, t.dev.stateOf x = h.dev.stateOf x
  ctx : t.dadCtx = h.dadCtx
  done : t.dadDone = h.dadDone

theorem SameConf.sameDad {h t : Host6} (c : SameConf h t) : SameDad h t :=
  ⟨c.addr, by rw [c.dev], c.stateOf, c.ctx, c.done⟩

/-- What an event that starts no detection does to the one there is. -/
theorem step_quiet {h : Host6} {e : AddrEvent} (hq : e.quiet = true) :
    (e.counts = true ∧ ∃ t, SameDad h t ∧ h.step e = t.decideDad .invalid) ∨
      (e.counts = false ∧ e.timeout h ≠ none ∧ ∃ t, SameDad h t ∧ h.step e = t.decideDad .preferred) ∨
      (e.counts = false ∧ e.timeout h = none ∧ SameDad h (h.step e)) := by
  cases e with
  | init => cases hq
  | raPrefix p =>
    have hp : p.prefixLen ≠ 64 := by
      simp only [AddrEvent.quiet, AddrEvent.starts, Bool.and_eq_true, Bool.not_eq_true', decide_eq_false_iff_not] at hq
      exact hq.2
    exact .inr (.inr ⟨rfl, rfl, (sameConf_raPrefix hp).sameDad⟩)
  | raRoute gateway => exact .inr (.inr ⟨rfl, rfl, fun _ => rfl, rfl, fun _ => rfl, rfl, rfl⟩)
  | ns m => exact .inr (.inr ⟨rfl, rfl, fun _ => rfl, rfl, fun _ => rfl, rfl, rfl⟩)
  | tick held => exact .inr (.inr ⟨rfl, rfl, fun _ => rfl, rfl, fun _ => rfl, rfl, rfl⟩)
  | output saddr daddr nexthdr => exact .inr (.inr ⟨rfl, rfl, (sameConf_ipv6OutputEx _ _ _ _).sameDad⟩)
  | na m =>
    obtain ⟨t, hc, ht⟩ := ndpNaProcess_conf h m
    by_cases hf : m.failsDad = true
    · rw [if_pos hf] at ht
      exact .inl ⟨hf, t, hc.sameDad, ht⟩
    · rw [if_neg hf] at ht
      refine .inr (.inr ⟨Bool.not_eq_true _ ▸ hf, rfl, ?_⟩)
      show SameDad h (h.ndpNaProcess m)
      rw [ht]
      exact hc.sameDad
  | thread i =>
    cases hth : h.base.threads[i]? with
    | none =>
      have hst : h.step (.thread i) = h := by
        show h.runThread i = h
        unfold runThread
        rw [hth]
      refine .inr (.inr ⟨rfl, by simp only [AddrEvent.timeout, hth], ?_⟩)
      rw [hst]
      exact (SameConf.refl h).sameDad
    | some p =>
      obtain ⟨hd, a⟩ := p
      obtain ⟨t, ht, hst⟩ : ∃ t, SameDad h t ∧ h.step (.thread i) = t.runHandler6 hd a :=
        ⟨{ h with base := { h.base with threads := h.base.threads.eraseIdx i } }, ⟨fun _ => rfl, rfl, fun _ => rfl, rfl, rfl⟩, by
          show h.runThread i = _
          unfold runThread
          rw [hth]⟩
      have key : hd.isDad = false → SameDad h (h.step (.thread i)) := by
        intro hn
        have hs := (runHandler6_lifetime (h := t) (a := a) hn).sameDad
        rw [hst]
        exact ⟨fun x => (hs.addr x).trans (ht.addr x), hs.valid.trans ht.valid, fun x => (hs.state x).trans (ht.state x),
          hs.ctx.trans ht.ctx, hs.done.trans ht.done⟩
      cases hd with
      | dadTimeout d => exact .inr (.inl ⟨rfl, by simp only [AddrEvent.timeout, hth]; simp, t, ht, hst⟩)
      | preferredExpired => exact .inr (.inr ⟨rfl, by simp only [AddrEvent.timeout, hth], key rfl⟩)
      | validExpired => exact .inr (.inr ⟨rfl, by simp only [AddrEvent.timeout, hth], key rfl⟩)

/-- The address in `x` is being checked. -/
structure Detecting (h : Host6) (x : AddrSlot) : Prop where
  done : h.dadDone = false
  ctx : h.dadCtx = ⟨h.dev.addr x, some x⟩
  tentative : h.dev.stateOf x = .tentative

theorem Detecting.same {h t : Host6} {x : AddrSlot} (hd : h.Detecting x) (s : SameDad h t) : t.Detecting x :=
  ⟨s.done.trans hd.done, by rw [s.ctx, hd.ctx, s.addr], (s.state x).trans hd.tentative⟩

/-- The one that decides finds the address tentative and settles it. -/
theorem Detecting.decide {h t : Host6} {x : AddrSlot} (hd : h.Detecting x) (s : SameDad h t) (st : Addr6State) :
    (t.decideDad st).dadDone = true ∧ (t.decideDad st).dev.stateOf x = st := by
  have hd' := hd.same s
  rw [decideDad_running hd'.done (by rw [hd'.ctx]) hd'.tentative]
  exact ⟨rfl, Netdev.stateOf_setState _ _ _⟩

/-- Once decided, an address stays as it is. -/
theorem step_settled {h : Host6} {e : AddrEvent} (hq : e.quiet = true) (hd : h.dadDone = true) :
    (h.step e).dadDone = true ∧ ∀ x, (h.step e).dev.stateOf x = h.dev.stateOf x := by
  rcases step_quiet (h := h) hq with ⟨-, t, s, he⟩ | ⟨-, -, t, s, he⟩ | ⟨-, -, s⟩
  · rw [he, decideDad_done (s.done.trans hd)]
    exact ⟨s.done.trans hd, s.state⟩
  · rw [he, decideDad_done (s.done.trans hd)]
    exact ⟨s.done.trans hd, s.state⟩
  · exact ⟨s.done.trans hd, s.state⟩

/-- Once decided, an address stays as it is to the end. -/
theorem run_settled {h : Host6} {es : List AddrEvent} (hq : ∀ e ∈ es, e.quiet = true) (hd : h.dadDone = true) :
    (h.run es).dadDone = true ∧ ∀ x, (h.run es).dev.stateOf x = h.dev.stateOf x := by
  induction es generalizing h with
  | nil => exact ⟨hd, fun _ => rfl⟩
  | cons e es ih =>
    obtain ⟨hd', hs⟩ := step_settled (hq e List.mem_cons_self) hd
    obtain ⟨hr, hs'⟩ := ih (fun e' he' => hq e' (List.mem_cons_of_mem _ he')) hd'
    exact ⟨hr, fun x => (hs' x).trans (hs x)⟩

/-- The run between the start of a detection and its timeout: nothing starts
another one, and no timeout comes. -/
abbrev Waits (h : Host6) (es : List AddrEvent) : Prop :=
  (∀ e ∈ es, e.quiet = true) ∧ Machine.Meets step (fun h e => e.timeout h = none) h es

/-- What the wait leaves: the detection, unless a Neighbor Advertisement has
counted. -/
theorem Detecting.wait {h : Host6} {es : List AddrEvent} {x : AddrSlot} (hd : h.Detecting x) (hw : h.Waits es) :
    if es.any AddrEvent.counts then (h.run es).dadDone = true ∧ (h.run es).dev.stateOf x = .invalid
    else (h.run es).Detecting x := by
  induction es generalizing h with
  | nil => exact hd
  | cons e es ih =>
    have hqs := fun e' he' => hw.1 e' (List.mem_cons_of_mem _ he')
    rcases step_quiet (h := h) (hw.1 e List.mem_cons_self) with ⟨hc, t, s, he⟩ | ⟨-, ht, -⟩ | ⟨hc, -, s⟩
    · obtain ⟨h1, h2⟩ := hd.decide s .invalid
      rw [← he] at h1 h2
      obtain ⟨h3, h4⟩ := run_settled hqs h1
      rw [List.any_cons, hc, Bool.true_or, if_pos rfl]
      exact ⟨h3, (h4 x).trans h2⟩
    · exact absurd hw.2.1 ht
    · rw [List.any_cons, hc, Bool.false_or]
      exact ih (hd.same s) ⟨hqs, hw.2.2⟩

/-- The timeout makes the address PREFERRED where nothing has counted. -/
theorem Detecting.outcome {h : Host6} {es : List AddrEvent} {x : AddrSlot} {i : Nat} (hd : h.Detecting x)
    (hw : h.Waits es) (ht : AddrEvent.timeout (h.run es) (.thread i) ≠ none) :
    (h.run (es ++ [.thread i])).dev.stateOf x = .preferred ↔ es.any AddrEvent.counts = false := by
  have hwait := hd.wait hw
  rw [run, Machine.run_append]
  show ((h.run es).step (.thread i)).dev.stateOf x = .preferred ↔ _
  cases hc : es.any AddrEvent.counts with
  | true =>
    rw [hc, if_pos rfl] at hwait
    rw [(step_settled rfl hwait.1).2 x, hwait.2]
    simp
  | false =>
    rw [hc, if_neg Bool.false_ne_true] at hwait
    rcases step_quiet (h := h.run es) (e := .thread i) rfl with ⟨hc', -⟩ | ⟨-, -, t, s, he⟩ | ⟨-, ht', -⟩
    · cases hc'
    · rw [he, (hwait.decide s .preferred).2]
      simp
    · exact absurd ht' ht

/-- A Neighbor Advertisement for another address does nothing to the one in
`x`. -/
def Ignores (x : AddrSlot) (a : In6Addr) (h : Host6) (e : AddrEvent) : Prop :=
  ∀ m, e = .na m → m.target ≠ a → (h.step e).dev.stateOf x = h.dev.stateOf x

theorem ignores_settled {h : Host6} {es : List AddrEvent} (x : AddrSlot) (a : In6Addr) (hq : ∀ e ∈ es, e.quiet = true)
    (hd : h.dadDone = true) : Machine.Meets step (Ignores x a) h es := by
  induction es generalizing h with
  | nil => trivial
  | cons e es ih =>
    obtain ⟨hd', hs⟩ := step_settled (hq e List.mem_cons_self) hd
    exact ⟨fun _ _ _ => hs x, ih (fun e' he' => hq e' (List.mem_cons_of_mem _ he')) hd'⟩

/-- The others are ignored as long as the first to count is not one of them. -/
theorem Detecting.ignores_iff {h : Host6} {es : List AddrEvent} {x : AddrSlot} (a : In6Addr) (hd : h.Detecting x)
    (hw : h.Waits es) :
    Machine.Meets step (Ignores x a) h es ↔ ∀ e, es.find? AddrEvent.counts = some e → e.names a = true := by
  induction es generalizing h with
  | nil => simp [Machine.Meets]
  | cons e es ih =>
    have hqs := fun e' he' => hw.1 e' (List.mem_cons_of_mem _ he')
    rcases step_quiet (h := h) (hw.1 e List.mem_cons_self) with ⟨hc, t, s, he⟩ | ⟨-, ht, -⟩ | ⟨hc, -, s⟩
    · obtain ⟨h1, h2⟩ := hd.decide s .invalid
      rw [← he] at h1 h2
      rw [List.find?_cons_of_pos hc]
      constructor
      · rintro ⟨hi, -⟩ e' he'
        obtain rfl := Option.some.inj he'
        cases e with
        | na m =>
          by_contra hn
          have := hi m rfl (of_decide_eq_false (Bool.not_eq_true _ ▸ hn))
          rw [h2, hd.tentative] at this
          cases this
        | _ => cases hc
      · intro hn
        refine ⟨fun m hm hne => ?_, ignores_settled x a hqs h1⟩
        have := hn e rfl
        rw [hm] at this
        exact absurd (of_decide_eq_true this) hne
    · exact absurd hw.2.1 ht
    · rw [List.find?_cons_of_neg (by rw [hc]; exact Bool.false_ne_true), ← ih (hd.same s) ⟨hqs, hw.2.2⟩]
      exact ⟨fun hm => hm.2, fun hm => ⟨fun _ _ _ => s.state x, hm⟩⟩

/-- The detection of the address in `x`, under way at `h`, was decided on the
right evidence in the wait `es` and the callback `i` after it. -/
structure RightEvidence (h : Host6) (x : AddrSlot) (es : List AddrEvent) (i : Nat) : Prop where
  outcome : (h.run (es ++ [.thread i])).dev.stateOf x = .preferred ↔ ∀ e ∈ es, e.names (h.dev.addr x) = false
  others : Machine.Meets step (Ignores x (h.dev.addr x)) h es

/-- Of the Neighbor Advertisements of the wait, the first the code counts is
for the address, or it counts none and none is for the address. -/
def firstCountedNames (a : In6Addr) (es : List AddrEvent) : Bool :=
  match es.find? AddrEvent.counts with
  | some e => e.names a
  | none => es.all fun e => !e.names a

/-- **The evidence is right exactly when** the first Neighbor Advertisement
from the unspecified address with a link-layer address option is for the
address being checked, or there is none of these and none for that address. -/
theorem rightEvidence_iff (h : Host6) (x : AddrSlot) (es : List AddrEvent) (i : Nat) (hd : h.Detecting x)
    (hw : h.Waits es) (ht : AddrEvent.timeout (h.run es) (.thread i) ≠ none) :
    h.RightEvidence x es i ↔ firstCountedNames (h.dev.addr x) es = true := by
  have hout := hd.outcome hw ht
  have hign := hd.ignores_iff (h.dev.addr x) hw
  unfold firstCountedNames
  cases hf : es.find? AddrEvent.counts with
  | none =>
    have hany : es.any AddrEvent.counts = false := by
      rw [List.any_eq_false]
      exact List.find?_eq_none.1 hf
    simp only [List.all_eq_true, Bool.not_eq_true']
    refine ⟨fun hr => hr.outcome.1 (hout.2 hany), fun hn => ⟨⟨fun _ => hn, fun _ => hout.2 hany⟩, hign.2 ?_⟩⟩
    rw [hf]
    nofun
  | some e =>
    have hany : es.any AddrEvent.counts = true :=
      List.any_eq_true.2 ⟨e, List.mem_of_find?_eq_some hf, List.find?_some hf⟩
    refine ⟨fun hr => hign.1 hr.others e hf, fun hn => ⟨⟨fun hp => ?_, fun hno => ?_⟩, hign.2 ?_⟩⟩
    · rw [hout, hany] at hp
      cases hp
    · have := hno e (List.mem_of_find?_eq_some hf)
      rw [show e.names _ = true from hn] at this
      cases this
    · rw [hf]
      rintro e' he'
      rw [← Option.some.inj he']
      exact hn

/-- A Neighbor Advertisement for `target` with a link-layer address option. -/
def naFor (saddr target : In6Addr) : NdpMsg where
  hopLimit := 255
  saddr := saddr
  daddr := allNodes
  payloadLen := 32
  bytes := [ICMPV6_NEIGHBOR_ADVERT, 0, 0, 0, 0x20, 0, 0, 0] ++ target.toList ++ [NDP_OPT_TLLA, 1, 0x02, 0, 0, 0, 0, 0x01]

/-- The link-local address of the device. -/
def netdevLl : In6Addr := ipv6GenerateLinklocal netdevMac

/-- An NA from the unspecified address for the address being checked fails it. -/
theorem rightEvidence_failure :
    (bootHost6 netdevMac).RightEvidence .ll ([.na (naFor in6Unspecified netdevLl)] ++ Watch.aSecond) 0 :=
  (rightEvidence_iff _ _ _ _ ⟨rfl, by decide +kernel, rfl⟩ (by decide +kernel) (by decide +kernel)).2 (by decide +kernel)

/-- The owner of the address answers from that very address, and the address is
taken into use all the same. -/
theorem owner_unheard :
    ¬ (bootHost6 netdevMac).RightEvidence .ll ([.na (naFor netdevLl netdevLl)] ++ Watch.aSecond) 0 := by
  intro h
  have := h.outcome.1 (by decide +kernel) (.na (naFor netdevLl netdevLl)) List.mem_cons_self
  exact absurd this (by decide +kernel)

end Host6

end LevelIp
