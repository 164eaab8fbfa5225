/-
Router Advertisements. `ndp_ra_process` neither looks for a route it has
added before nor at the router lifetime: each advertisement appends a default
route, so no advertisement is idempotent, and a router has as many default
routes as it has sent advertisements.
-/
import LevelIp.AddrFacts

namespace LevelIp

/-- `ndp_incoming` takes the message for a Router Advertisement. -/
def NdpMsg.advertises (m : NdpMsg) : Bool := m.hopLimit = 255 && m.type = ICMPV6_ROUTER_ADVERT

/-- An advertisement of the given router. -/
def NdpMsg.isFrom (router : In6Addr) (m : NdpMsg) : Bool := m.advertises && m.saddr = router

/-- The route that an advertisement adds. -/
def defaultVia (gateway : In6Addr) : Route6 where
  dst := in6Unspecified
  gateway := gateway
  prefixLen := 0
  flags := RT_GATEWAY
  metric := 0

namespace Host6

/-- The messages are received one after the other. -/
def receive (h : Host6) (ms : List NdpMsg) : Host6 := ms.foldl ndpIncoming h

/-- The advertisement, received twice, leaves what it leaves once: the IPv6
routes, and an address that is PREFERRED for one of its prefixes. -/
structure Idempotent (h : Host6) (m : NdpMsg) : Prop where
  routes : ((h.ndpIncoming m).ndpIncoming m).routes = (h.ndpIncoming m).routes
  preferred : ∀ p ∈ m.prefixes, p.prefixLen = 64 → h.dev.addr6GlobalValid = true →
    h.dev.addr6Global = globalAddr p.pre h.dev.hwaddr → h.dev.addr6GlobalState = .preferred →
      (h.ndpIncoming m).dev.addr6GlobalState = .preferred

/-- The default routes over a router. -/
def defaultRoutes (h : Host6) (router : In6Addr) : Nat :=
  h.routes.countP fun r => r.prefixLen = 0 && r.gateway = router

/-- The router's most recent advertisement. -/
def lastAdvert (ms : List NdpMsg) (router : In6Addr) : Option NdpMsg :=
  ms.reverse.find? (NdpMsg.isFrom router)

/-- One default route for each router whose most recent advertisement had a
lifetime, and none for the others. -/
def OneRoutePerRouter (h : Host6) (ms : List NdpMsg) : Prop :=
  ∀ router, h.defaultRoutes router =
    match lastAdvert ms router with
    | some m => if m.routerLifetime = 0 then 0 else 1
    | none => 0

/-! ## What a message does to the routes -/

@[simp] theorem raPrefix_routes (h : Host6) (p : PrefixOpt) : (h.raPrefix p).routes = h.routes := by
  by_cases hp : p.prefixLen = 64
  · obtain ⟨t, ha, -, -, -, -, hr⟩ := raPrefix_armed (h := h) hp
    exact ha.routes.trans hr
  · unfold raPrefix ipv6AddrconfUpdateLifetime
    rw [if_pos hp]

theorem foldl_raPrefix_routes (h : Host6) (ps : List PrefixOpt) : (ps.foldl raPrefix h).routes = h.routes := by
  induction ps generalizing h with
  | nil => rfl
  | cons p ps ih => rw [List.foldl_cons, ih, raPrefix_routes]

theorem ndpNaProcess_routes (h : Host6) (m : NdpMsg) : (h.ndpNaProcess m).routes = h.routes := by
  have key : ∀ t : Host6, (t.ipv6AddrconfDadFailed m.target).routes = t.routes := by
    intro t
    unfold ipv6AddrconfDadFailed
    split
    · rfl
    dsimp only
    split
    · rfl
    split
    · rfl
    · rfl
  unfold ndpNaProcess
  split
  · rfl
  dsimp only
  split
  · rw [key]
  · rfl

/-- **Every advertisement appends a default route**, and no other message does
anything to the routes. -/
theorem ndpIncoming_routes (h : Host6) (m : NdpMsg) :
    (h.ndpIncoming m).routes = h.routes ++ if m.advertises then [defaultVia m.saddr] else [] := by
  unfold ndpIncoming NdpMsg.advertises
  by_cases hl : m.hopLimit = 255
  · rw [if_neg (not_not_intro hl)]
    by_cases ht : m.type = ICMPV6_ROUTER_ADVERT
    · rw [if_pos ht, if_pos (by simp [hl, ht])]
      show (m.prefixes.foldl raPrefix h).routes ++ _ = _
      rw [foldl_raPrefix_routes]
      rfl
    · have ha : (decide (m.hopLimit = 255) && decide (m.type = ICMPV6_ROUTER_ADVERT)) = false := by
        rw [decide_eq_false ht, Bool.and_false]
      rw [if_neg ht, ha, if_neg Bool.false_ne_true, List.append_nil]
      split
      · rfl
      split
      · exact ndpNaProcess_routes h m
      · rfl
  · have ha : (decide (m.hopLimit = 255) && decide (m.type = ICMPV6_ROUTER_ADVERT)) = false := by
      rw [decide_eq_false hl, Bool.false_and]
    rw [if_pos hl, ha, if_neg Bool.false_ne_true, List.append_nil]

theorem receive_routes (h : Host6) (ms : List NdpMsg) :
    (h.receive ms).routes = h.routes ++ (ms.filter NdpMsg.advertises).map fun m => defaultVia m.saddr := by
  induction ms generalizing h with
  | nil => exact (List.append_nil _).symm
  | cons m ms ih =>
    rw [receive, List.foldl_cons]
    refine (ih _).trans ?_
    rw [ndpIncoming_routes, List.append_assoc, List.filter_cons]
    split
    · rfl
    · rfl

/-- A router has a default route for each of its advertisements. -/
theorem defaultRoutes_receive (hw : HwAddr) (ms : List NdpMsg) (router : In6Addr) :
    ((bootHost6 hw).receive ms).defaultRoutes router = ms.countP (NdpMsg.isFrom router) := by
  have hboot : (bootHost6 hw).routes.countP (fun r => r.prefixLen = 0 && r.gateway = router) = 0 := by
    rw [show (bootHost6 hw).routes =
      [{ dst := llPrefix, gateway := in6Unspecified, prefixLen := 10, flags := RT_HOST, metric := 0 }] from rfl]
    simp
  unfold defaultRoutes
  rw [receive_routes, List.countP_append, hboot, Nat.zero_add, List.countP_map, List.countP_filter]
  congr 1
  funext m
  simp [defaultVia, NdpMsg.isFrom, Bool.and_comm]

/-- No advertisement is idempotent, in any state. -/
theorem not_idempotent (h : Host6) {m : NdpMsg} (hm : m.advertises = true) : ¬ h.Idempotent m := by
  intro hi
  have hr := hi.routes
  rw [ndpIncoming_routes _ m, if_pos hm] at hr
  have := congrArg List.length hr
  rw [List.length_append, List.length_singleton] at this
  omega

/-- The routers have one route each as long as each advertises once, and with a
lifetime. -/
theorem oneRoutePerRouter_iff (hw : HwAddr) (ms : List NdpMsg) :
    ((bootHost6 hw).receive ms).OneRoutePerRouter ms ↔
      ∀ m ∈ ms, m.advertises = true →
        m.routerLifetime ≠ 0 ∧ ms.countP (NdpMsg.isFrom m.saddr) = 1 := by
  have hone : ∀ router, ms.countP (NdpMsg.isFrom router) = 1 → ∀ m ∈ ms, ∀ m' ∈ ms,
      m.isFrom router = true → m'.isFrom router = true → m = m' := by
    intro router hc m hm m' hm' ha ha'
    rw [List.countP_eq_length_filter] at hc
    obtain ⟨n, hn⟩ := List.length_eq_one_iff.1 hc
    have h1 : m ∈ ms.filter (NdpMsg.isFrom router) := List.mem_filter.2 ⟨hm, ha⟩
    have h2 : m' ∈ ms.filter (NdpMsg.isFrom router) := List.mem_filter.2 ⟨hm', ha'⟩
    rw [hn, List.mem_singleton] at h1 h2
    rw [h1, h2]
  constructor
  · intro h m hm ha
    have hr := h m.saddr
    rw [defaultRoutes_receive] at hr
    have hself : m.isFrom m.saddr = true := by simp [NdpMsg.isFrom, ha]
    have hpos : 0 < ms.countP (NdpMsg.isFrom m.saddr) := List.countP_pos_iff.2 ⟨m, hm, hself⟩
    unfold lastAdvert at hr
    split at hr
    · next m' hf =>
      split at hr
      · omega
      · next hl =>
        have hm' := List.mem_reverse.1 (List.mem_of_find?_eq_some hf)
        have he := hone m.saddr hr m hm m' hm' hself (List.find?_some hf)
        exact ⟨he ▸ hl, hr⟩
    · omega
  · intro h router
    rw [defaultRoutes_receive]
    unfold lastAdvert
    split
    · next m hf =>
      have hm := List.mem_reverse.1 (List.mem_of_find?_eq_some hf)
      have hp := List.find?_some hf
      simp only [NdpMsg.isFrom, Bool.and_eq_true, decide_eq_true_eq] at hp
      obtain ⟨hl, hc⟩ := h m hm hp.1
      rw [if_neg hl, ← hp.2]
      exact hc
    · next hf =>
      rw [List.countP_eq_zero]
      intro m hm
      exact List.find?_eq_none.1 hf m (List.mem_reverse.2 hm)

/-- **Advertisements accumulate**: whatever was received before, no
advertisement is idempotent, and there is one default route a router only as
long as each has advertised once and with a lifetime. -/
theorem advertisements_accumulate (hw : HwAddr) (ms : List NdpMsg) :
    (∀ m, m.advertises = true → ¬ ((bootHost6 hw).receive ms).Idempotent m) ∧
      (((bootHost6 hw).receive ms).OneRoutePerRouter ms ↔
        ∀ m ∈ ms, m.advertises = true →
          m.routerLifetime ≠ 0 ∧ ms.countP (NdpMsg.isFrom m.saddr) = 1) :=
  ⟨fun _ hm => not_idempotent _ hm, oneRoutePerRouter_iff hw ms⟩

/-- An advertisement of fe80::1 for half an hour, without options. -/
def bareAdvert : NdpMsg where
  hopLimit := 255
  saddr := #v[0xfe, 0x80, 0, 0, 0, 0, 0, 0, 0, 0, 0, 0, 0, 0, 0, 0x01]
  daddr := allNodes
  payloadLen := 16
  bytes := [ICMPV6_ROUTER_ADVERT, 0, 0, 0, 64, 0, 0x07, 0x08]

/-- Neither the first copy is idempotent, nor do two leave one route. -/
theorem advertisement_repeats :
    ¬ ((bootHost6 netdevMac).receive []).Idempotent bareAdvert ∧
      ¬ ((bootHost6 netdevMac).receive [bareAdvert, bareAdvert]).OneRoutePerRouter [bareAdvert, bareAdvert] :=
  ⟨(advertisements_accumulate netdevMac []).1 bareAdvert (by decide),
    fun h => absurd ((advertisements_accumulate netdevMac [bareAdvert, bareAdvert]).2.1 h) (by decide)⟩

/-- After start-up the advertisement received twice leaves a route more than
received once. -/
theorem second_copy_adds_route : ¬ (bootHost6 netdevMac).Idempotent bareAdvert :=
  fun h => absurd h.routes (by decide +kernel)

end Host6

end LevelIp
