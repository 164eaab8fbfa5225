/-
What each event does to the address configuration, one lemma an event: most
leave it alone (`SameConf`), two start a detection (`Started`), a Neighbor
Advertisement may fail one, a callback may pass one.
-/
import LevelIp.Ndp

namespace LevelIp

/-- The NA makes `ndp_na_process` report a failed detection. -/
def NdpMsg.failsDad (m : NdpMsg) : Bool := m.tlla.isSome && m.saddr = in6Unspecified

def Handler6.isDad : Handler6 → Bool
  | .dadTimeout _ => true
  | _ => false

namespace Host6

/-- The device, but for `prefix_len`, the detection and the timers are the same
in both. -/
structure SameConf (h t : Host6) : Prop where
  dev : t.dev = { h.dev with prefixLen := t.dev.prefixLen }
  ctx : t.dadCtx = h.dadCtx
  done : t.dadDone = h.dadDone
  base : t.base = h.base

theorem SameConf.refl (h : Host6) : SameConf h h := ⟨rfl, rfl, rfl, rfl⟩

theorem SameConf.trans {h t u : Host6} (a : SameConf h t) (b : SameConf t u) : SameConf h u :=
  ⟨by rw [b.dev, a.dev], b.ctx.trans a.ctx, b.done.trans a.done, b.base.trans a.base⟩

theorem SameConf.addr {h t : Host6} (a : SameConf h t) (x : AddrSlot) : t.dev.addr x = h.dev.addr x := by
  rw [a.dev]
  cases x <;> rfl

theorem SameConf.stateOf {h t : Host6} (a : SameConf h t) (x : AddrSlot) : t.dev.stateOf x = h.dev.stateOf x := by
  rw [a.dev]
  cases x <;> rfl

theorem sameConf_ndpEntryAlloc (h : Host6) (ip6 : In6Addr) : SameConf h (h.ndpEntryAlloc ip6) := by
  unfold ndpEntryAlloc
  split
  · exact .refl h
  · exact ⟨rfl, rfl, rfl, rfl⟩

theorem sameConf_dst6NeighOutput (h : Host6) (rt : Route6) (src daddr : In6Addr) (p : Sent6) :
    SameConf h (h.dst6NeighOutput rt src daddr p) := by
  unfold dst6NeighOutput
  generalize (if rt.flags &&& RT_GATEWAY ≠ 0 then rt.gateway else daddr) = nextHop
  dsimp only
  split
  · exact ⟨rfl, rfl, rfl, rfl⟩
  · refine SameConf.trans (t := h.ndpSendNs nextHop src) ⟨rfl, rfl, rfl, rfl⟩ ?_
    split
    · exact (sameConf_ndpEntryAlloc _ _).trans ⟨rfl, rfl, rfl, rfl⟩
    · exact ⟨rfl, rfl, rfl, rfl⟩

theorem sameConf_ipv6OutputEx (h : Host6) (saddr : Option In6Addr) (daddr : In6Addr) (nexthdr : U8) :
    SameConf h (h.ipv6OutputEx saddr daddr nexthdr) := by
  unfold ipv6OutputEx
  split
  · exact sameConf_dst6NeighOutput _ _ _ _ _
  · exact .refl h

/-- An NA touches the configuration by reporting a failed detection only. -/
theorem ndpNaProcess_conf (h : Host6) (m : NdpMsg) :
    ∃ t, SameConf h t ∧ h.ndpNaProcess m = if m.failsDad then t.ipv6AddrconfDadFailed m.target else t := by
  unfold ndpNaProcess NdpMsg.failsDad
  split
  · next hn => exact ⟨h, .refl h, by simp [hn]⟩
  · next tlla hs =>
    refine ⟨{ h with
      ndpCache := h.ndpCache.modify (h.ndpIdx m.target) (h.naEntry m tlla)
      sent := h.sent ++ h.naFlush m }, ⟨rfl, rfl, rfl, rfl⟩, ?_⟩
    simp [hs]

/-! ## Deciding a detection -/

/-- `ipv6_addrconf_dad_failed` and `dad_timeout` decide a running detection,
each its own way. -/
def decideDad (h : Host6) (st : Addr6State) : Host6 :=
  if h.dadDone then h
  else
    let h := { h with dadDone := true }
    match h.dadCtx.statePtr with
    | none => h
    | some x => if h.dev.stateOf x = .tentative then { h with dev := h.dev.setState x st } else h

theorem ipv6AddrconfDadFailed_eq (h : Host6) (target : In6Addr) : h.ipv6AddrconfDadFailed target = h.decideDad .invalid := rfl

theorem dadTimeout_eq (h : Host6) : h.dadTimeout = h.decideDad .preferred := rfl

theorem decideDad_done {h : Host6} (hd : h.dadDone = true) (st : Addr6State) : h.decideDad st = h := if_pos hd

/-- What a decision does to a running detection of a tentative address. -/
theorem decideDad_running {h : Host6} {x : AddrSlot} (hd : h.dadDone = false) (hx : h.dadCtx.statePtr = some x)
    (ht : h.dev.stateOf x = .tentative) (st : Addr6State) :
    h.decideDad st = { h with dadDone := true, dev := h.dev.setState x st } := by
  unfold decideDad
  simp only [hd, Bool.false_eq_true, if_false, hx, ht, if_true]

@[simp] theorem decideDad_base (h : Host6) (st : Addr6State) : (h.decideDad st).base = h.base := by
  unfold decideDad
  split
  · rfl
  dsimp only
  split
  · rfl
  split
  · rfl
  · rfl

/-- A decision moves no address. -/
theorem decideDad_addrs (h : Host6) (st : Addr6State) :
    (∀ x, (h.decideDad st).dev.addr x = h.dev.addr x) ∧
      (h.decideDad st).dev.addr6GlobalValid = h.dev.addr6GlobalValid := by
  unfold decideDad
  split
  · exact ⟨fun _ => rfl, rfl⟩
  dsimp only
  split
  · exact ⟨fun _ => rfl, rfl⟩
  split
  · exact ⟨fun y => Netdev.addr_setState _ _ y _, Netdev.setState_global_valid _ _ _⟩
  · exact ⟨fun _ => rfl, rfl⟩

/-! ## Starting a detection -/

/-- From `h` to `t` a detection of the address in `x` was started. -/
structure Started (h t : Host6) (x : AddrSlot) : Prop where
  done : t.dadDone = false
  ctx : t.dadCtx = ⟨t.dev.addr x, some (t.dadSlot (t.dev.addr x))⟩
  tentative : t.dev.stateOf x = .tentative
  others : ∀ y, y ≠ x → t.dev.stateOf y = h.dev.stateOf y
  hwaddr : t.dev.hwaddr = h.dev.hwaddr
  clock : t.base.clock = h.base.clock
  threads : t.base.threads = h.base.threads
  timers : ∀ e ∈ t.base.timers, e.cancelled = false → ∀ d, e.handler = .dadTimeout d →
    e ∈ h.base.timers ∨ d = ⟨x, h.base.clock⟩ ∧ e.expires = h.base.tick + DAD_TIMEOUT_MS

/-- The link-local address is found as such. -/
theorem dadSlot_ll (h : Host6) : h.dadSlot (h.dev.addr .ll) = .ll := if_pos rfl

theorem mem_timerOneshot {b : TimerBase Handler6 Nat} {m d : Detection} {e : TimerEntry Handler6 Nat}
    (he : e ∈ (b.timerOneshot DAD_TIMEOUT_MS (.dadTimeout m) none).timers) (hd : e.handler = .dadTimeout d) :
    e ∈ b.timers ∨ d = m ∧ e.expires = b.tick + DAD_TIMEOUT_MS := by
  rcases TimerBase.mem_link.mp he with h | rfl
  · exact .inl h
  · cases hd
    exact .inr ⟨rfl, rfl⟩

/-- Setting a lifetime timer brings no detection timer back. -/
theorem mem_armLifetime {h : Host6} {old : Option Nat} {lt : U32} {hd : Handler6} {e : TimerEntry Handler6 Nat}
    {d : Detection} (he : e ∈ (h.armLifetime old lt hd).base.timers) (hn : hd.isDad = false) (hc : e.cancelled = false)
    (hh : e.handler = .dadTimeout d) : e ∈ h.base.timers := by
  rcases TimerBase.mem_link.mp he with h' | rfl
  · exact TimerBase.mem_timerCancel h' hc
  · rw [show hd = .dadTimeout d from hh] at hn
    cases hn

/-- Setting the lifetime timers touches the two timer fields of the device, the
timer list and the copies. -/
structure Armed (h t : Host6) : Prop where
  dev : t.dev = { h.dev with addr6PrefTimer := t.dev.addr6PrefTimer, addr6ValidTimer := t.dev.addr6ValidTimer }
  ctx : t.dadCtx = h.dadCtx
  done : t.dadDone = h.dadDone
  clock : t.base.clock = h.base.clock
  threads : t.base.threads = h.base.threads
  routes : t.routes = h.routes
  timers : ∀ e ∈ t.base.timers, e.cancelled = false → ∀ d, e.handler = .dadTimeout d → e ∈ h.base.timers

theorem Armed.trans {h t u : Host6} (a : Armed h t) (b : Armed t u) : Armed h u where
  dev := by rw [b.dev, a.dev]
  ctx := b.ctx.trans a.ctx
  done := b.done.trans a.done
  clock := b.clock.trans a.clock
  threads := b.threads.trans a.threads
  routes := b.routes.trans a.routes
  timers e he hc d hd := a.timers e (b.timers e he hc d hd) hc d hd

theorem armed_armPreferred (h : Host6) (lt : U32) : Armed h (h.armPreferred lt) := by
  unfold armPreferred
  split
  · exact ⟨rfl, rfl, rfl, rfl, rfl, rfl, fun e he hc d hd => mem_armLifetime he rfl hc hd⟩
  · exact ⟨rfl, rfl, rfl, rfl, rfl, rfl, fun _ he _ _ _ => he⟩

theorem armed_armValid (h : Host6) (lt : U32) : Armed h (h.armValid lt) := by
  unfold armValid
  split
  · exact ⟨rfl, rfl, rfl, rfl, rfl, rfl, fun e he hc d hd => mem_armLifetime he rfl hc hd⟩
  · exact ⟨rfl, rfl, rfl, rfl, rfl, rfl, fun _ he _ _ _ => he⟩

theorem sameConf_raPrefix {h : Host6} {p : PrefixOpt} (hp : p.prefixLen ≠ 64) : SameConf h (h.raPrefix p) := by
  unfold raPrefix ipv6AddrconfUpdateLifetime
  rw [if_pos hp]
  exact ⟨rfl, rfl, rfl, rfl⟩

/-- The device after a prefix option of 64 bits, but for its timers. -/
def raDevice (d : Netdev) (p : PrefixOpt) : Netdev :=
  { d with
    prefixLen := p.prefixLen
    addr6Global := globalAddr p.pre d.hwaddr
    addr6GlobalState := .tentative
    addr6GlobalValid := true
    addr6ValidLifetime := p.validLifetime
    addr6PreferredLifetime := p.preferredLifetime }

/-- A prefix option of 64 bits before its lifetime timers are set. -/
theorem raPrefix_armed {h : Host6} {p : PrefixOpt} (hp : p.prefixLen = 64) :
    ∃ t, Armed t (h.raPrefix p) ∧ t.dev = raDevice h.dev p ∧ t.dadDone = false ∧
      t.dadCtx = ⟨globalAddr p.pre h.dev.hwaddr, some (h.dadSlot (globalAddr p.pre h.dev.hwaddr))⟩ ∧
      t.base = h.base.timerOneshot DAD_TIMEOUT_MS (.dadTimeout ⟨.global, h.base.clock⟩) none ∧ t.routes = h.routes := by
  unfold raPrefix ipv6AddrconfUpdateLifetime configureGlobal raDevice
  rw [if_neg (not_not_intro hp)]
  dsimp only
  generalize globalAddr p.pre h.dev.hwaddr = g
  exact ⟨_, (armed_armPreferred _ _).trans (armed_armValid _ _), rfl, rfl, rfl, rfl, rfl⟩

/-- A prefix option of 64 bits starts a detection of the global address. -/
theorem started_raPrefix {h : Host6} {p : PrefixOpt} (hp : p.prefixLen = 64) : Started h (h.raPrefix p) .global := by
  obtain ⟨t, ha, hdev, hdone, hctx, hbase, -⟩ := raPrefix_armed (h := h) hp
  have hd := ha.dev
  rw [hdev] at hd
  generalize h.raPrefix p = u at ha hd
  refine ⟨ha.done.trans hdone, ?_, ?_, ?_, ?_, ?_, ?_, ?_⟩
  · rw [ha.ctx, hctx]
    unfold dadSlot
    rw [hd]
    rfl
  · rw [hd]
    rfl
  · intro y hy
    cases y with
    | ll => rw [hd]; rfl
    | global => exact absurd rfl hy
  · rw [hd]
    rfl
  · rw [ha.clock, hbase]
    rfl
  · rw [ha.threads, hbase]
    rfl
  · intro e he hc d hh
    have hm := ha.timers e he hc d hh
    rw [hbase] at hm
    exact mem_timerOneshot hm hh

/-- It leaves the link-local address and makes the global one valid. -/
theorem raPrefix_addrs {h : Host6} {p : PrefixOpt} (hp : p.prefixLen = 64) :
    (h.raPrefix p).dev.addr6Ll = h.dev.addr6Ll ∧ (h.raPrefix p).dev.addr6Global = globalAddr p.pre h.dev.hwaddr ∧
      (h.raPrefix p).dev.addr6GlobalValid = true := by
  obtain ⟨t, ha, hdev, -⟩ := raPrefix_armed (h := h) hp
  have hd := ha.dev
  rw [hdev] at hd
  rw [hd]
  exact ⟨rfl, rfl, rfl⟩

theorem started_init (h : Host6) : Started h h.ipv6AddrconfInit .ll where
  done := rfl
  ctx := rfl
  tentative := rfl
  others y hy := by
    cases y with
    | ll => exact absurd rfl hy
    | global => rfl
  hwaddr := rfl
  clock := rfl
  threads := rfl
  timers e he _ d hd := mem_timerOneshot (b := h.base) he hd

theorem init_addrs (h : Host6) :
    h.ipv6AddrconfInit.dev.addr6Ll = ipv6GenerateLinklocal h.dev.hwaddr ∧
      h.ipv6AddrconfInit.dev.addr6Global = h.dev.addr6Global ∧
      h.ipv6AddrconfInit.dev.addr6GlobalValid = h.dev.addr6GlobalValid := ⟨rfl, rfl, rfl⟩

/-! ## Callbacks -/

/-- A callback other than `dad_timeout` changes a copy at most. -/
theorem runHandler6_lifetime {h : Host6} {hd : Handler6} {a : Option Nat} (hn : hd.isDad = false) :
    SameConf h (h.runHandler6 hd a) := by
  cases hd with
  | dadTimeout d => cases hn
  | preferredExpired => cases a <;> exact ⟨rfl, rfl, rfl, rfl⟩
  | validExpired => cases a <;> exact ⟨rfl, rfl, rfl, rfl⟩

end Host6

end LevelIp
