/-
The packets waiting in the neighbour cache. `dst6_neigh_output` queues for
every neighbour that is not NDP_REACHABLE; `ndp_na_process` flushes the queue
of an entry that was NDP_INCOMPLETE, and of no other. What has waited for an
NDP_STALE neighbour stays where it is when an advertisement makes the entry
reachable.
-/
import LevelIp.Ndp
import LevelIp.Lib.Keyed

namespace LevelIp

/-- The next hop of `dst6_neigh_output`. -/
def Route6.nextHop (rt : Route6) (daddr : In6Addr) : In6Addr := if rt.flags &&& RT_GATEWAY ≠ 0 then rt.gateway else daddr

namespace Host6

theorem ndpLookup_eq (h : Host6) (ip6 : In6Addr) : h.ndpLookup ip6 = Keyed.lookup (·.ip6) h.ndpCache ip6 :=
  Keyed.getElem?_idx _ _

/-- The packets that wait for `ip6`. -/
def pending (ip6 : In6Addr) (h : Host6) : List Sent6 := (h.ndpLookup ip6).elim [] (·.queue)

/-- `dst6_neigh_output` finds or makes an entry for `ip6`, and `ndp_queue_skb`
finds its queue not full. -/
def roomFor (h : Host6) (ip6 : In6Addr) : Bool :=
  match h.ndpLookup ip6 with
  | some e => e.queue.length < MAX_QUEUE
  | none => h.ndpCache.length < NDP_MAX_NEIGHBORS

/-- What the event leaves with `ndp_queue_skb` for `ip6`. -/
def queuedBy (ip6 : In6Addr) (h : Host6) : AddrEvent → List Sent6
  | .output saddr daddr nexthdr =>
    match h.route6Lookup daddr, h.ipv6Packet saddr daddr nexthdr with
    | some rt, some p => if rt.nextHop daddr = ip6 ∧ h.ndpGetHwaddr ip6 = none ∧ h.roomFor ip6 = true then [p] else []
    | _, _ => []
  | _ => []

/-- What the event transmits as an advertisement for `ip6`. -/
def releasedBy (ip6 : In6Addr) (h : Host6) : AddrEvent → List Sent6
  | .na m => if m.target = ip6 then (h.step (.na m)).sent.drop h.sent.length else []
  | _ => []

/-- What was queued for `ip6` in a run, in order. -/
abbrev queued (ip6 : In6Addr) (h : Host6) (es : List AddrEvent) : List Sent6 := Machine.trace step (queuedBy ip6) h es

/-- What the advertisements for `ip6` transmitted in a run, in order. -/
abbrev released (ip6 : In6Addr) (h : Host6) (es : List AddrEvent) : List Sent6 := Machine.trace step (releasedBy ip6) h es

/-- **No packet is stranded** after a run: a reachable entry has an empty queue,
and its advertisements have transmitted what was queued, each packet once and
in order. -/
def NoneStranded (h : Host6) (es : List AddrEvent) : Prop :=
  ∀ e ∈ (h.run es).ndpCache, e.state = .reachable → e.queue = [] ∧ h.queued e.ip6 es = h.released e.ip6 es

/-- A solicited advertisement does not come for a stale entry with packets
waiting. -/
def Unawaited (h : Host6) (ev : AddrEvent) : Prop :=
  ∀ m, ev = .na m → m.tlla.isSome = true → m.flagS = true →
    ∀ e, h.ndpLookup m.target = some e → e.state = .stale → e.queue = []

/-! ## What each event does to the cache -/

theorem naEntry_ip6 (h : Host6) (m : NdpMsg) (tlla : HwAddr) (e : NdpEntry) : (h.naEntry m tlla e).ip6 = e.ip6 := by
  unfold naEntry
  split
  · rfl
  · dsimp only
    split_ifs <;> rfl

/-- An NA empties the queue of an incomplete entry and leaves the others alone. -/
theorem naEntry_queue (h : Host6) (m : NdpMsg) (tlla : HwAddr) (e : NdpEntry) :
    (h.naEntry m tlla e).queue = if e.state = .incomplete then [] else e.queue := by
  unfold naEntry
  split
  next hs => rw [if_pos hs]
  next hs =>
    rw [if_neg hs]
    dsimp only
    split_ifs <;> rfl

/-- A known neighbour becomes reachable by a solicited advertisement, or was. -/
theorem naEntry_reachable {h : Host6} {m : NdpMsg} {tlla : HwAddr} {e : NdpEntry} (hi : e.state ≠ .incomplete)
    (hr : (h.naEntry m tlla e).state = .reachable) : m.flagS = true ∨ e.state = .reachable := by
  by_cases hS : m.flagS = true
  · exact .inl hS
  · refine .inr ?_
    unfold naEntry at hr
    split at hr
    next hs => exact absurd hs hi
    next =>
      dsimp only at hr
      rw [if_neg hS] at hr
      split_ifs at hr <;> exact hr

theorem naEntry_solicited {h : Host6} {m : NdpMsg} {tlla : HwAddr} {e : NdpEntry} (hS : m.flagS = true) :
    (h.naEntry m tlla e).state = .reachable := by
  unfold naEntry
  split
  · rfl
  · dsimp only
    rw [if_pos hS]

/-- The cache after an NA with a link-layer address, and what the NA transmits. -/
theorem ndpNaProcess_cache {h : Host6} {m : NdpMsg} {tlla : HwAddr} (ht : m.tlla = some tlla) :
    (h.ndpNaProcess m).ndpCache = Keyed.update (·.ip6) h.ndpCache m.target (h.naEntry m tlla) ∧
      (h.ndpNaProcess m).sent = h.sent ++ h.naFlush m := by
  have hdad : ∀ (t : Host6) (a : In6Addr), (t.ipv6AddrconfDadFailed a).ndpCache = t.ndpCache ∧ (t.ipv6AddrconfDadFailed a).sent = t.sent := by
    intro t a
    unfold ipv6AddrconfDadFailed
    split
    · exact ⟨rfl, rfl⟩
    · dsimp only
      split
      · exact ⟨rfl, rfl⟩
      · split <;> exact ⟨rfl, rfl⟩
  unfold ndpNaProcess
  rw [ht]
  dsimp only
  split
  · rw [(hdad _ _).1, (hdad _ _).2]
    exact ⟨rfl, rfl⟩
  · exact ⟨rfl, rfl⟩

theorem ndpNaProcess_none {h : Host6} {m : NdpMsg} (ht : m.tlla = none) : h.ndpNaProcess m = h := by
  unfold ndpNaProcess
  rw [ht]

/-- The entry an output queues at, before the packet: found or made. -/
def slotFor (h : Host6) (ip6 : In6Addr) : List NdpEntry :=
  if (h.ndpLookup ip6).isNone then (h.ndpEntryAlloc ip6).ndpCache else h.ndpCache

/-- `ndp_queue_skb` on an entry. -/
def queueAt (p : Sent6) (e : NdpEntry) : NdpEntry := if MAX_QUEUE ≤ e.queue.length then e else { e with queue := e.queue ++ [p] }

theorem queueAt_ip6 (p : Sent6) (e : NdpEntry) : (queueAt p e).ip6 = e.ip6 := by
  unfold queueAt
  split <;> rfl

theorem queueAt_state (p : Sent6) (e : NdpEntry) : (queueAt p e).state = e.state := by
  unfold queueAt
  split <;> rfl

/-- An output transmits to a reachable neighbour and queues for any other. -/
theorem dst6NeighOutput_cache (h : Host6) (rt : Route6) (src daddr : In6Addr) (p : Sent6) :
    (h.dst6NeighOutput rt src daddr p).ndpCache =
      if h.ndpGetHwaddr (rt.nextHop daddr) = none then
        Keyed.update (·.ip6) (h.slotFor (rt.nextHop daddr)) (rt.nextHop daddr) (queueAt p)
      else h.ndpCache := by
  unfold dst6NeighOutput
  rw [← Route6.nextHop]
  generalize rt.nextHop daddr = hop
  dsimp only
  cases hg : h.ndpGetHwaddr hop with
  | some hw =>
    rw [if_neg (Option.some_ne_none hw)]
    rfl
  | none =>
    rw [if_pos rfl]
    unfold slotFor
    have hl : (h.ndpSendNs hop src).ndpLookup hop = h.ndpLookup hop := rfl
    dsimp only
    rw [hl]
    by_cases hn : (h.ndpLookup hop).isNone = true
    · rw [if_pos hn, if_pos hn]
      have ha : ((h.ndpSendNs hop src).ndpEntryAlloc hop).ndpCache = (h.ndpEntryAlloc hop).ndpCache := by
        unfold ndpEntryAlloc
        show (if NDP_MAX_NEIGHBORS ≤ h.ndpCache.length then _ else _ : Host6).ndpCache = _
        split <;> rfl
      rw [← ha]
      rfl
    · rw [if_neg hn, if_neg hn]
      rfl

theorem armPreferred_cache (h : Host6) (lt : U32) : (h.armPreferred lt).ndpCache = h.ndpCache := by
  unfold armPreferred
  split <;> rfl

theorem armValid_cache (h : Host6) (lt : U32) : (h.armValid lt).ndpCache = h.ndpCache := by
  unfold armValid
  split <;> rfl

/-- An event processes an advertisement, sends a packet, or has nothing to do
with the cache. -/
theorem step_cache (h : Host6) (ev : AddrEvent) :
    (∃ m tlla, ev = .na m ∧ m.tlla = some tlla) ∨
      (∃ saddr daddr nexthdr rt p, ev = .output saddr daddr nexthdr ∧ h.route6Lookup daddr = some rt ∧
        h.ipv6Packet saddr daddr nexthdr = some p) ∨
      ((h.step ev).ndpCache = h.ndpCache ∧ (∀ ip6, h.queuedBy ip6 ev = [] ∧ h.releasedBy ip6 ev = []) ∧
        ∀ m, ev = .na m → m.tlla = none) := by
  cases ev with
  | na m =>
    cases ht : m.tlla with
    | none =>
      have hst : h.step (.na m) = h := ndpNaProcess_none ht
      refine .inr (.inr ⟨by rw [hst], fun ip6 => ⟨rfl, ?_⟩, fun _ he => ?_⟩)
      · simp [releasedBy, hst]
      · cases he
        exact ht
    | some tlla => exact .inl ⟨m, tlla, rfl, ht⟩
  | output saddr daddr nexthdr =>
    cases hr : h.route6Lookup daddr with
    | none =>
      refine .inr (.inr ⟨?_, fun ip6 => ⟨by simp [queuedBy, hr], rfl⟩, fun _ => nofun⟩)
      show (h.ipv6OutputEx saddr daddr nexthdr).ndpCache = _
      simp [ipv6OutputEx, hr]
    | some rt => exact .inr (.inl ⟨saddr, daddr, nexthdr, rt, _, rfl, hr, by rw [ipv6Packet, hr, Option.map_some]⟩)
  | init => exact .inr (.inr ⟨rfl, fun _ => ⟨rfl, rfl⟩, fun _ => nofun⟩)
  | raRoute gateway => exact .inr (.inr ⟨rfl, fun _ => ⟨rfl, rfl⟩, fun _ => nofun⟩)
  | ns m => exact .inr (.inr ⟨rfl, fun _ => ⟨rfl, rfl⟩, fun _ => nofun⟩)
  | tick held => exact .inr (.inr ⟨rfl, fun _ => ⟨rfl, rfl⟩, fun _ => nofun⟩)
  | raPrefix p =>
    refine .inr (.inr ⟨?_, fun _ => ⟨rfl, rfl⟩, fun _ => nofun⟩)
    show (raPrefix h p).ndpCache = _
    unfold raPrefix ipv6AddrconfUpdateLifetime
    split
    · rfl
    · rw [armValid_cache, armPreferred_cache]
      rfl
  | thread i =>
    refine .inr (.inr ⟨?_, fun _ => ⟨rfl, rfl⟩, fun _ => nofun⟩)
    show (h.runThread i).ndpCache = _
    unfold runThread
    split
    · rfl
    · unfold runHandler6
      split
      · unfold dadTimeout
        split
        · rfl
        · dsimp only
          split
          · rfl
          · split <;> rfl
      · rfl
      · rfl
      · rfl

/-! ## First in, first out -/

/-- The queue of the entry for `ip6`. -/
def queueIn (cache : List NdpEntry) (ip6 : In6Addr) : List Sent6 := (Keyed.lookup (·.ip6) cache ip6).elim [] (·.queue)

theorem pending_eq (ip6 : In6Addr) (h : Host6) : h.pending ip6 = queueIn h.ndpCache ip6 := by
  rw [pending, ndpLookup_eq, queueIn]

/-- The entry for a packet: there already, made empty, or none because the
cache is full. -/
theorem slotFor_cases (h : Host6) (hop : In6Addr) :
    (∃ e, Keyed.lookup (·.ip6) h.ndpCache hop = some e ∧ h.slotFor hop = h.ndpCache ∧
        h.roomFor hop = decide (e.queue.length < MAX_QUEUE)) ∨
      (Keyed.lookup (·.ip6) h.ndpCache hop = none ∧ h.slotFor hop = h.ndpCache ++ [{ ip6 := hop, stateTimestamp := h.base.tick }] ∧
        h.roomFor hop = true) ∨
      (Keyed.lookup (·.ip6) h.ndpCache hop = none ∧ h.slotFor hop = h.ndpCache ∧ h.roomFor hop = false) := by
  unfold slotFor roomFor ndpEntryAlloc
  rw [ndpLookup_eq]
  cases hl : Keyed.lookup (·.ip6) h.ndpCache hop with
  | some e => exact .inl ⟨e, rfl, rfl, rfl⟩
  | none =>
    by_cases hf : NDP_MAX_NEIGHBORS ≤ h.ndpCache.length
    · exact .inr (.inr ⟨rfl, by simp [hf], by simpa using hf⟩)
    · exact .inr (.inl ⟨rfl, by simp [hf], by simpa using hf⟩)

theorem queueIn_slotFor (h : Host6) (hop ip6 : In6Addr) : queueIn (h.slotFor hop) ip6 = queueIn h.ndpCache ip6 := by
  rcases h.slotFor_cases hop with ⟨e, -, hs, -⟩ | ⟨hn, hs, -⟩ | ⟨-, hs, -⟩
  · rw [hs]
  · rw [hs, queueIn, Keyed.lookup_append hn]
    by_cases hj : ip6 = hop
    · subst hj
      rw [if_pos rfl, queueIn, hn]
      rfl
    · rw [if_neg hj, queueIn]
  · rw [hs]

theorem queueIn_update {f : NdpEntry → NdpEntry} (hf : ∀ e, (f e).ip6 = e.ip6) (cache : List NdpEntry) (k ip6 : In6Addr) :
    queueIn (Keyed.update (·.ip6) cache k f) ip6 =
      if ip6 = k then (Keyed.lookup (·.ip6) cache k).elim [] (fun e => (f e).queue) else queueIn cache ip6 := by
  unfold queueIn
  rw [Keyed.lookup_update hf]
  split
  · cases Keyed.lookup (·.ip6) cache k <;> rfl
  · rfl

/-- A packet that is queued goes behind what its neighbour's queue holds. -/
theorem queued_behind (h : Host6) (hop ip6 : In6Addr) (p : Sent6) :
    queueIn (Keyed.update (·.ip6) (h.slotFor hop) hop (queueAt p)) ip6 =
      queueIn h.ndpCache ip6 ++ if hop = ip6 ∧ h.roomFor hop = true then [p] else [] := by
  rw [queueIn_update (queueAt_ip6 p), queueIn_slotFor]
  by_cases hj : ip6 = hop
  · subst hj
    rw [if_pos rfl]
    simp only [true_and]
    unfold queueIn
    rcases h.slotFor_cases ip6 with ⟨e, hl, hs, hr⟩ | ⟨hn, hs, hr⟩ | ⟨hn, hs, hr⟩
    · rw [hs, hl, hr]
      simp only [Option.elim_some, queueAt, decide_eq_true_eq]
      by_cases hm : MAX_QUEUE ≤ e.queue.length
      · rw [if_pos hm, if_neg (by omega), List.append_nil]
      · rw [if_neg hm, if_pos (by omega)]
    · rw [hs, Keyed.lookup_append hn, if_pos rfl, hn, hr]
      simp [queueAt, MAX_QUEUE]
    · rw [hs, hn, hr]
      simp
  · rw [if_neg hj, if_neg (fun hc => hj hc.1.symm), List.append_nil]

/-- Every event adds to a neighbour's queue at the end and takes from its front. -/
theorem step_fifo (ip6 : In6Addr) (h : Host6) (ev : AddrEvent) :
    h.pending ip6 ++ h.queuedBy ip6 ev = h.releasedBy ip6 ev ++ (h.step ev).pending ip6 := by
  rw [pending_eq, pending_eq]
  rcases h.step_cache ev with ⟨m, tlla, rfl, ht⟩ | ⟨saddr, daddr, nexthdr, rt, p, rfl, hr, hp⟩ | ⟨hc, hn⟩
  · obtain ⟨hc, hsent⟩ := ndpNaProcess_cache (h := h) ht
    show _ ++ [] = (if m.target = ip6 then (h.ndpNaProcess m).sent.drop h.sent.length else []) ++ queueIn (h.ndpNaProcess m).ndpCache ip6
    rw [hc, hsent, List.append_nil, queueIn_update (h.naEntry_ip6 m tlla), List.drop_left, naFlush, ndpLookup_eq]
    by_cases hj : m.target = ip6
    · subst hj
      rw [if_pos rfl, if_pos rfl, queueIn]
      cases Keyed.lookup (·.ip6) h.ndpCache m.target with
      | none => rfl
      | some e =>
        simp only [Option.elim_some, naEntry_queue]
        split <;> simp
    · rw [if_neg hj, if_neg (Ne.symm hj), List.nil_append]
  · show _ = [] ++ queueIn (h.ipv6OutputEx saddr daddr nexthdr).ndpCache ip6
    have hout : h.ipv6OutputEx saddr daddr nexthdr = h.dst6NeighOutput rt (h.dev.selectSource saddr).2 daddr p := by
      simp only [ipv6OutputEx, hr, hp]
    have hq : h.queuedBy ip6 (.output saddr daddr nexthdr) =
        if rt.nextHop daddr = ip6 ∧ h.ndpGetHwaddr ip6 = none ∧ h.roomFor ip6 = true then [p] else [] := by
      simp only [queuedBy, hr, hp]
    rw [hout, hq, List.nil_append, dst6NeighOutput_cache]
    generalize rt.nextHop daddr = hop
    by_cases hg : h.ndpGetHwaddr hop = none
    · rw [if_pos hg, queued_behind]
      by_cases hj : hop = ip6
      · subst hj
        simp only [hg, true_and]
      · simp only [hj, false_and]
    · rw [if_neg hg, if_neg, List.append_nil]
      rintro ⟨rfl, hn, -⟩
      exact hg hn
  · rw [hc, (hn.1 ip6).1, (hn.1 ip6).2, List.append_nil, List.nil_append]

/-! ## Reachable entries -/

/-- No neighbour has two entries. -/
def OneEntry (h : Host6) : Prop := (h.ndpCache.map (·.ip6)).Nodup

/-- A reachable entry has nothing waiting. -/
def Flushed (h : Host6) : Prop := ∀ e ∈ h.ndpCache, e.state = .reachable → e.queue = []

theorem step_oneEntry {h : Host6} (hd : h.OneEntry) (ev : AddrEvent) : (h.step ev).OneEntry := by
  unfold OneEntry at hd ⊢
  rcases h.step_cache ev with ⟨m, tlla, rfl, ht⟩ | ⟨saddr, daddr, nexthdr, rt, p, rfl, hr, hp⟩ | ⟨hc, -⟩
  · show ((h.ndpNaProcess m).ndpCache.map _).Nodup
    rw [(ndpNaProcess_cache ht).1, Keyed.map_update (h.naEntry_ip6 m tlla)]
    exact hd
  · show ((h.ipv6OutputEx saddr daddr nexthdr).ndpCache.map _).Nodup
    simp only [ipv6OutputEx, hr, hp]
    rw [dst6NeighOutput_cache]
    split
    · rw [Keyed.map_update (queueAt_ip6 p)]
      rcases h.slotFor_cases (rt.nextHop daddr) with ⟨e, -, hs, -⟩ | ⟨hn, hs, -⟩ | ⟨-, hs, -⟩
      · rwa [hs]
      · rw [hs]
        exact Keyed.nodup_append hd hn
      · rwa [hs]
    · exact hd
  · rwa [hc]

/-- Nothing is queued at a reachable entry. -/
theorem output_flushed {h : Host6} (hf : h.Flushed) (saddr : Option In6Addr) (daddr : In6Addr) (nexthdr : U8) :
    (h.ipv6OutputEx saddr daddr nexthdr).Flushed := by
  unfold ipv6OutputEx
  split
  next rt p hr hp =>
    unfold Flushed
    rw [dst6NeighOutput_cache]
    generalize rt.nextHop daddr = hop
    split
    next hg =>
      have hnone : ∀ e ∈ h.ndpCache, e.ip6 = hop → e.state ≠ .reachable := by
        intro e he hk hs
        simp only [ndpGetHwaddr, Option.map_eq_none_iff, List.find?_eq_none, decide_eq_true_eq, not_and] at hg
        exact hg e he hk hs
      intro e he hs
      rcases Keyed.mem_update he with he | ⟨x, hx, rfl⟩
      · rcases h.slotFor_cases hop with ⟨-, -, hsl, -⟩ | ⟨-, hsl, -⟩ | ⟨-, hsl, -⟩
        · exact hf e (hsl ▸ he) hs
        · rw [hsl] at he
          rcases List.mem_append.mp he with he | he
          · exact hf e he hs
          · rw [List.mem_singleton.mp he]
        · exact hf e (hsl ▸ he) hs
      · rw [queueAt_state] at hs
        rcases h.slotFor_cases hop with ⟨-, -, hsl, -⟩ | ⟨hn, hsl, -⟩ | ⟨-, hsl, -⟩
        · rw [hsl] at hx
          exact absurd hs (hnone x (Keyed.mem_of_lookup hx) (Keyed.lookup_key hx))
        · rw [hsl, Keyed.lookup_append hn, if_pos rfl] at hx
          rw [← Option.some.inj hx] at hs
          cases hs
        · rw [hsl] at hx
          exact absurd hs (hnone x (Keyed.mem_of_lookup hx) (Keyed.lookup_key hx))
    next => exact hf
  next => exact hf

/-- The step that leaves a packet at a reachable entry is a solicited
advertisement for a stale one with packets waiting. -/
theorem unawaited_iff {h : Host6} (hf : h.Flushed) (ev : AddrEvent) : h.Unawaited ev ↔ (h.step ev).Flushed := by
  rcases h.step_cache ev with ⟨m, tlla, rfl, ht⟩ | ⟨saddr, daddr, nexthdr, rt, p, rfl, -, -⟩ | ⟨hc, hn⟩
  · have hcache : (h.step (.na m)).ndpCache = _ := (ndpNaProcess_cache ht).1
    unfold Flushed
    rw [hcache]
    constructor
    · intro hu e he hs
      rcases Keyed.mem_update he with he | ⟨x, hx, rfl⟩
      · exact hf e he hs
      · rw [naEntry_queue]
        split
        · rfl
        next hi =>
          rcases naEntry_reachable hi hs with hS | hr
          · cases hst : x.state with
            | incomplete => exact absurd hst hi
            | reachable => exact hf x (Keyed.mem_of_lookup hx) hst
            | stale => exact hu m rfl (by rw [ht, Option.isSome_some]) hS x (by rw [ndpLookup_eq, hx]) hst
          · exact hf x (Keyed.mem_of_lookup hx) hr
    · rintro hall m' he - hS e hx hst
      cases he
      rw [ndpLookup_eq] at hx
      have hq := hall _ (Keyed.update_mem (f := h.naEntry m tlla) hx) (naEntry_solicited hS)
      rwa [naEntry_queue, hst, if_neg nofun] at hq
  · have hu : h.Unawaited (.output saddr daddr nexthdr) := fun _ he => by cases he
    exact iff_of_true hu (output_flushed hf saddr daddr nexthdr)
  · have hu : h.Unawaited ev := by
      intro m he ht
      rw [hn.2 m he] at ht
      cases ht
    have hf' : (h.step ev).Flushed := by
      unfold Flushed
      rwa [hc]
    exact iff_of_true hu hf'

/-- **Stranded packets.** In a run from start-up no packet is stranded at a
reachable neighbour, at any time, exactly if no solicited advertisement comes
for a stale entry with packets waiting. -/
theorem noneStranded_iff (hw : HwAddr) (es : List AddrEvent) :
    Machine.Meets step Unawaited (bootHost6 hw) es ↔ ∀ n, (bootHost6 hw).NoneStranded (es.take n) := by
  have hstart : (bootHost6 hw).OneEntry ∧ (bootHost6 hw).Flushed := ⟨List.nodup_nil, fun _ => nofun⟩
  rw [Machine.Meets.exact_states (I := OneEntry) (P := Flushed) (fun _ e hd => step_oneEntry hd e)
    (fun _ e _ hf => unawaited_iff hf e) hstart.1 hstart.2 es]
  refine forall_congr' fun n => ⟨fun hf e he hs => ⟨hf e he hs, ?_⟩, fun h e he hs => (h e he hs).1⟩
  have hone : ((bootHost6 hw).run (es.take n)).OneEntry := 
    Machine.invariant (I := OneEntry) (fun _ e hd => step_oneEntry hd e) _ hstart.1
  have hfifo := Machine.trace_fifo (step_fifo e.ip6) (bootHost6 hw) (es.take n)
  have hpend : pending e.ip6 (Machine.run step (bootHost6 hw) (es.take n)) = [] := by
    rw [pending, ndpLookup_eq, Keyed.lookup_of_mem hone he]
    exact hf e he hs
  rw [hpend, List.append_nil] at hfifo
  exact hfifo

/-- A Neighbor Advertisement from `target` with the given flags. -/
def naFlagged (flags : U8) (target : In6Addr) : NdpMsg where
  hopLimit := 255
  saddr := target
  daddr := allNodes
  payloadLen := 32
  bytes := [ICMPV6_NEIGHBOR_ADVERT, 0, 0, 0, flags, 0, 0, 0] ++ target.toList ++ [NDP_OPT_TLLA, 1, 0x02, 0, 0, 0, 0, 0x01]

/-- `fe80::1`. -/
def neighbour : In6Addr := fieldOf [0xfe, 0x80, 0, 0, 0, 0, 0, 0, 0, 0, 0, 0, 0, 0, 0, 0x01]

/-- A neighbour answers, changes its address, and confirms it after a packet
was sent. -/
def neighbourMoves : List AddrEvent :=
  [.output none neighbour 58, .na (naFlagged 0x60 neighbour), .na (naFlagged 0x20 neighbour), .output none neighbour 58,
    .na (naFlagged 0x40 neighbour)]

/-- The second packet stays in the queue of the reachable neighbour. -/
theorem packet_stranded : ¬ ∀ n, (bootHost6 netdevMac).NoneStranded (neighbourMoves.take n) := by
  intro h
  have hbad : (((bootHost6 netdevMac).run (neighbourMoves.take 5)).ndpCache).any (fun e => e.state = .reachable ∧ e.queue ≠ []) = true := by
    decide +kernel
  obtain ⟨e, he, hb⟩ := List.any_eq_true.mp hbad
  have hs := of_decide_eq_true hb
  exact hs.2 (h 5 e he hs.1).1

end Host6

end LevelIp
