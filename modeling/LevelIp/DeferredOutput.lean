/-
The packets that `dst6_neigh_output` leaves with the neighbour cache, byte by
byte. A copy waits there, in a buffer that nobody else has a pointer to; the
advertisement that resolves the neighbour writes the frame from the copy. The
frames are those that the packets would have been given at once by a
neighbour that is NDP_REACHABLE.

Only a neighbour that is in the cache has a queue. `ndp_entry_alloc` turns the
65th one away, and its packets are lost.
-/
import LevelIp.NdpQueue
import LevelIp.SkbBytes
import LevelIp.Lib.Table

namespace LevelIp

open Memory

/-! ## The cache and the buffers -/

/-- `struct ndp_entry`, whose queue has pointers to skbs. -/
structure NdpSlot where
  ip6 : In6Addr
  hwaddr : HwAddr := Vector.replicate 6 0
  state : NdpState := .incomplete
  stateTimestamp : U32
  solicitCount : U8 := 0
  queue : List Nat := []

/-- What is written to the device: a Neighbor Solicitation, or a packet for a
next hop. -/
inductive Written where
  | solicitation (target src : In6Addr)
  | data (nextHop : In6Addr) (frame : List U8)

def Written.dataFor? (hop : In6Addr) : Written → Option (List U8)
  | solicitation _ _ => none
  | data nextHop frame => if nextHop = hop then some frame else none

/-- The neighbour cache and every skb there ever was; an skb's address is its
index. `held` are those that the rest of the stack has a pointer to. -/
structure NdpWorld where
  hwaddr : HwAddr
  tick : U32 := 0
  skbs : List SkbMem := []
  held : List Nat := []
  cache : List NdpSlot := []
  written : List Written := []

namespace SkbMem

/-- The IPv6 header at `data`. -/
def ip6h (s : SkbMem) : List U8 := read s.mem s.data IPV6_HDR_LEN

/-- `src_addr` of `dst6_neigh_output`. -/
def srcAddr (s : SkbMem) : In6Addr := in6At s.ip6h 8

/-- `next_hop` of `dst6_neigh_output`. The route comes from `route6_lookup`. -/
def nextHop (s : SkbMem) : In6Addr :=
  let daddr := in6At s.ip6h 24
  (s.rt.bind RtEntry.v6?).elim daddr (·.nextHop daddr)

end SkbMem

/-- What `ndp_na_process` makes of an entry. -/
def NdpSlot.advertised (m : NdpMsg) (tlla : HwAddr) (tick : U32) (e : NdpSlot) : NdpSlot :=
  match e.state with
  | .incomplete => { e with hwaddr := tlla, state := .reachable, stateTimestamp := tick, solicitCount := 0, queue := [] }
  | _ =>
    let e := if m.flagO ∨ e.hwaddr ≠ tlla then { e with hwaddr := tlla } else e
    let e :=
      if m.flagS then { e with state := .reachable }
      else if m.flagO ∨ e.hwaddr ≠ tlla then { e with state := .stale }
      else e
    { e with stateTimestamp := tick }

namespace NdpWorld

/-- `ndp_lookup`. -/
def ndpLookup (w : NdpWorld) (ip6 : In6Addr) : Option NdpSlot := Keyed.lookup (·.ip6) w.cache ip6

/-- `ndp_get_hwaddr`. -/
def ndpGetHwaddr (w : NdpWorld) (ip6 : In6Addr) : Option HwAddr :=
  (w.cache.find? fun e => e.ip6 = ip6 ∧ e.state = .reachable).map (·.hwaddr)

/-- `ndp_entry_alloc`, NULL when the cache is full. -/
def ndpEntryAlloc (w : NdpWorld) (ip6 : In6Addr) : NdpWorld :=
  if NDP_MAX_NEIGHBORS ≤ w.cache.length then w else { w with cache := w.cache ++ [{ ip6 := ip6, stateTimestamp := w.tick }] }

/-- `ndp_send_ns`, whose skb nobody else sees. -/
def ndpSendNs (w : NdpWorld) (target src : In6Addr) : NdpWorld := { w with written := w.written ++ [.solicitation target src] }

/-- `netdev_transmit` with ETH_P_IPV6. -/
def netdevTransmit (w : NdpWorld) (n : Nat) (nextHop : In6Addr) (dmac : HwAddr) : NdpWorld :=
  match w.skbs[n]? with
  | none => w
  | some s =>
    let s := s.netdevTransmit w.hwaddr dmac ETH_P_IPV6
    { w with skbs := w.skbs.set n s, written := w.written ++ [.data nextHop s.bytes] }

/-- `ndp_queue_skb`; `around` is the memory around the copy. -/
def ndpQueueSkb (w : NdpWorld) (ip6 : In6Addr) (s : SkbMem) (around : Mem U8) : NdpWorld :=
  match w.ndpLookup ip6 with
  | none => w
  | some e =>
    if MAX_QUEUE ≤ e.queue.length then w
    else
      { w with
        skbs := w.skbs ++ [s.skbCopy around]
        cache := Keyed.update (·.ip6) w.cache ip6 fun e => { e with queue := e.queue ++ [w.skbs.length] } }

/-- `dst6_neigh_output`. -/
def dst6NeighOutput (w : NdpWorld) (n : Nat) (around : Mem U8) : NdpWorld :=
  match w.skbs[n]? with
  | none => w
  | some s =>
    match w.ndpGetHwaddr s.nextHop with
    | some dmac => w.netdevTransmit n s.nextHop dmac
    | none =>
      let w := w.ndpSendNs s.nextHop s.srcAddr
      let w := if (w.ndpLookup s.nextHop).isNone then w.ndpEntryAlloc s.nextHop else w
      w.ndpQueueSkb s.nextHop s around

/-- `ndp_flush_queue`. What was written is freed, and nobody has a pointer to
it then. -/
def ndpFlushQueue (w : NdpWorld) (nextHop : In6Addr) (dmac : HwAddr) (queue : List Nat) : NdpWorld :=
  queue.foldl (fun w n => w.netdevTransmit n nextHop dmac) w

/-- `ndp_na_process`; the duplicate address detection has no part in this. -/
def ndpNaProcess (w : NdpWorld) (m : NdpMsg) : NdpWorld :=
  match m.tlla, w.ndpLookup m.target with
  | some tlla, some e =>
    let w := { w with cache := Keyed.update (·.ip6) w.cache m.target (·.advertised m tlla w.tick) }
    if e.state = .incomplete then w.ndpFlushQueue e.ip6 tlla e.queue else w
  | _, _ => w

end NdpWorld

/-- The rest of the stack does anything to the skbs it has pointers to, but does
not move `end`. -/
inductive NdpEvent where
  | alloc (size : U32) (around : Mem U8)
  | change (n : Nat) (f : SkbMem → SkbMem)
  | free (n : Nat)
  /-- `dst6_neigh_output`. -/
  | output (n : Nat) (around : Mem U8)
  | na (m : NdpMsg)
  | tick

namespace NdpWorld

def boot (hwaddr : HwAddr) : NdpWorld where hwaddr := hwaddr

def step (w : NdpWorld) : NdpEvent → NdpWorld
  | .alloc size around => { w with skbs := w.skbs ++ [.allocSkb around size], held := w.held ++ [w.skbs.length] }
  | .change n f => if n ∈ w.held then { w with skbs := w.skbs.modify n fun s => { f s with tail := s.tail } } else w
  | .free n => { w with held := w.held.filter (· ≠ n) }
  | .output n around => if n ∈ w.held then w.dst6NeighOutput n around else w
  | .na m => w.ndpNaProcess m
  | .tick => { w with tick := w.tick + 1 }

abbrev run (w : NdpWorld) (es : List NdpEvent) : NdpWorld := Machine.run step w es

/-! ## Deferred and direct -/

/-- The data frames for `hop` that were written. -/
def framesFor (hop : In6Addr) (w : NdpWorld) : List (List U8) := w.written.filterMap (·.dataFor? hop)

/-- The queue of `hop`. -/
def queueOf (w : NdpWorld) (hop : In6Addr) : List Nat := (w.ndpLookup hop).elim [] (·.queue)

/-- The frame that `netdev_transmit` makes of the skb `n`. -/
def frameOf (w : NdpWorld) (dmac : HwAddr) (n : Nat) : List U8 :=
  (w.skbs[n]?).elim [] fun s => (s.netdevTransmit w.hwaddr dmac ETH_P_IPV6).bytes

/-- The frames of the copies that wait for `hop`. -/
def waiting (hop : In6Addr) (dmac : HwAddr) (w : NdpWorld) : List (List U8) := (w.queueOf hop).map (w.frameOf dmac)

/-- The packet that the event outputs to `hop`. -/
def packetTo (hop : In6Addr) (w : NdpWorld) : NdpEvent → List SkbMem
  | .output n _ => if n ∈ w.held then (w.skbs[n]?).toList.filter fun s => s.nextHop = hop else []
  | _ => []

/-- The world with a reachable neighbour at `hop`. -/
def resolved (w : NdpWorld) (hop : In6Addr) (mac : HwAddr) : NdpWorld :=
  { w with cache := Keyed.remove (·.ip6) w.cache hop ++ [{ ip6 := hop, hwaddr := mac, state := .reachable, stateTimestamp := w.tick }] }

/-- The data frame that the event would write for `hop` if that neighbour were
reachable at `mac`. -/
def direct (hop : In6Addr) (mac : HwAddr) (w : NdpWorld) : NdpEvent → List (List U8)
  | .output n around => (((w.resolved hop mac).step (.output n around)).framesFor hop).drop (w.framesFor hop).length
  | _ => []

/-- The entry of `hop` is absent or INCOMPLETE. -/
def Unresolved (hop : In6Addr) (w : NdpWorld) : Prop := ∀ e, w.ndpLookup hop = some e → e.state = .incomplete

/-- Every packet that is output lies in its buffer, with room for the Ethernet
header, and `hop` is not advertised. -/
def Quiet (hop : In6Addr) (w : NdpWorld) : NdpEvent → Prop
  | .output n _ => n ∈ w.held → ∀ s ∈ w.skbs[n]?, s.Placed ETH_HDR_LEN
  | .na m => m.target = hop → m.tlla = none
  | _ => True

instance (hop : In6Addr) (w : NdpWorld) : (ev : NdpEvent) → Decidable (w.Quiet hop ev)
  | .output n _ => inferInstanceAs (Decidable (n ∈ w.held → ∀ s ∈ w.skbs[n]?, s.Placed ETH_HDR_LEN))
  | .na m => inferInstanceAs (Decidable (m.target = hop → m.tlla = none))
  | .alloc _ _ | .change _ _ | .free _ | .tick => .isTrue trivial

/-- A packet for `hop` finds an entry, or the cache has room for one. -/
def Admits (hop : In6Addr) (w : NdpWorld) (ev : NdpEvent) : Prop :=
  (w.packetTo hop ev).length ≠ 0 → (w.ndpLookup hop).isSome ∨ w.cache.length < NDP_MAX_NEIGHBORS

instance (hop : In6Addr) (w : NdpWorld) (ev : NdpEvent) : Decidable (w.Admits hop ev) :=
  inferInstanceAs (Decidable ((w.packetTo hop ev).length ≠ 0 → (w.ndpLookup hop).isSome ∨ w.cache.length < NDP_MAX_NEIGHBORS))

/-! ## `netdev_transmit` -/

theorem frameOf_congr {w w' : NdpWorld} {n : Nat} (hskb : w'.skbs[n]? = w.skbs[n]?) (hdev : w'.hwaddr = w.hwaddr) (dmac : HwAddr) :
    w'.frameOf dmac n = w.frameOf dmac n := by
  rw [frameOf, frameOf, hskb, hdev]

theorem queueOf_congr {w w' : NdpWorld} (h : w'.cache = w.cache) (hop : In6Addr) : w'.queueOf hop = w.queueOf hop := by
  rw [queueOf, queueOf, ndpLookup, ndpLookup, h]

/-- What is written to the device changes neither the cache nor another skb. -/
structure Transmits (w w' : NdpWorld) (nextHop : In6Addr) (dmac : HwAddr) (queue : List Nat) : Prop where
  hwaddr : w'.hwaddr = w.hwaddr
  held : w'.held = w.held
  cache : w'.cache = w.cache
  length : w'.skbs.length = w.skbs.length
  others : ∀ n, n ∉ queue → w'.skbs[n]? = w.skbs[n]?
  tails : (∀ s ∈ w.skbs, s.tail < 2 ^ 32) → ∀ s ∈ w'.skbs, s.tail < 2 ^ 32
  written : w'.written = w.written ++ queue.map fun n => .data nextHop (w.frameOf dmac n)

theorem netdevTransmit_transmits {w : NdpWorld} {n : Nat} (hn : n < w.skbs.length) (nextHop : In6Addr) (dmac : HwAddr) :
    Transmits w (w.netdevTransmit n nextHop dmac) nextHop dmac [n] := by
  have hget : w.skbs[n]? = some w.skbs[n] := List.getElem?_eq_getElem hn
  unfold netdevTransmit
  rw [hget]
  refine ⟨rfl, rfl, rfl, List.length_set, fun j hj => ?_, fun ht => ?_, ?_⟩
  · exact Table.getElem?_set_ne (by simpa using hj) _
  · exact Table.forall_set ht (show w.skbs[n].tail < 2 ^ 32 from ht _ (List.getElem_mem hn))
  · simp only [List.map_cons, List.map_nil, frameOf, hget, Option.elim_some]

/-- The copies of a queue are distinct, so each is written as it is in the queue. -/
theorem ndpFlushQueue_transmits {w : NdpWorld} {queue : List Nat} (hq : ∀ n ∈ queue, n < w.skbs.length) (hd : queue.Nodup)
    (nextHop : In6Addr) (dmac : HwAddr) : Transmits w (w.ndpFlushQueue nextHop dmac queue) nextHop dmac queue := by
  induction queue generalizing w with
  | nil => exact ⟨rfl, rfl, rfl, rfl, fun _ _ => rfl, id, (List.append_nil _).symm⟩
  | cons n queue ih =>
    have hone := netdevTransmit_transmits (hq n List.mem_cons_self) nextHop dmac
    have hrest := ih (w := w.netdevTransmit n nextHop dmac)
      (fun j hj => hone.length ▸ hq j (List.mem_cons_of_mem _ hj)) (List.nodup_cons.mp hd).2
    refine ⟨hrest.hwaddr.trans hone.hwaddr, hrest.held.trans hone.held, hrest.cache.trans hone.cache, hrest.length.trans hone.length,
      fun j hj => ?_, hrest.tails ∘ hone.tails, ?_⟩
    · rw [List.mem_cons, not_or] at hj
      exact (hrest.others j hj.2).trans (hone.others j (by simpa using hj.1))
    · have hsame : queue.map (fun j => Written.data nextHop ((w.netdevTransmit n nextHop dmac).frameOf dmac j)) =
          queue.map fun j => Written.data nextHop (w.frameOf dmac j) := by
        refine List.map_congr_left fun j hj => ?_
        have hne : j ≠ n := fun he => (List.nodup_cons.mp hd).1 (he ▸ hj)
        rw [frameOf_congr (hone.others j (by simpa using hne)) hone.hwaddr]
      change (ndpFlushQueue _ nextHop dmac queue).written = _
      rw [hrest.written, hone.written, hsame]
      simp only [List.map_cons, List.map_nil, List.append_assoc, List.singleton_append]

theorem Transmits.framesFor {w w' : NdpWorld} {nextHop : In6Addr} {dmac : HwAddr} {queue : List Nat}
    (h : Transmits w w' nextHop dmac queue) (hop : In6Addr) :
    w'.framesFor hop = w.framesFor hop ++ if nextHop = hop then queue.map (w.frameOf dmac) else [] := by
  unfold NdpWorld.framesFor
  rw [h.written, List.filterMap_append, List.filterMap_map]
  congr 1
  split
  next he =>
    simp only [Function.comp_def, Written.dataFor?, if_pos he]
    exact congrFun List.filterMap_eq_map' queue
  next hne =>
    simp only [Function.comp_def, Written.dataFor?, if_neg hne]
    exact List.filterMap_eq_nil_iff.mpr fun _ _ => rfl

/-! ## Whose the copies are -/

/-- The copies in the queues lie apart from each other and from everything that
somebody has a pointer to. -/
structure Apart (w : NdpWorld) : Prop where
  keys : (w.cache.map (·.ip6)).Nodup
  held : ∀ n ∈ w.held, n < w.skbs.length
  tails : ∀ s ∈ w.skbs, s.tail < 2 ^ 32
  alive : ∀ hop, ∀ n ∈ w.queueOf hop, n < w.skbs.length
  own : ∀ hop, ∀ n ∈ w.queueOf hop, n ∉ w.held
  nodup : ∀ hop, (w.queueOf hop).Nodup
  one : ∀ hop hop' n, n ∈ w.queueOf hop → n ∈ w.queueOf hop' → hop = hop'

/-- `ndp_queue_skb` finds an entry for `hop`, or one is made, and its queue is not
full. -/
def accepts (w : NdpWorld) (hop : In6Addr) : Bool :=
  ((w.ndpLookup hop).isSome || w.cache.length < NDP_MAX_NEIGHBORS) && (w.queueOf hop).length < MAX_QUEUE

/-- A packet was left at the entry of `hop`, or lost. No data frame was written and
no neighbour resolved. -/
structure Defers (w w' : NdpWorld) (hop : In6Addr) (copy : Option SkbMem) : Prop where
  hwaddr : w'.hwaddr = w.hwaddr
  held : w'.held = w.held
  skbs : w'.skbs = w.skbs ++ copy.toList
  keys : (w.cache.map (·.ip6)).Nodup → (w'.cache.map (·.ip6)).Nodup
  queue : ∀ k, w'.queueOf k = w.queueOf k ++ if k = hop ∧ copy.isSome then [w.skbs.length] else []
  state : ∀ k, w.Unresolved k → w'.Unresolved k
  framesFor : ∀ k, w'.framesFor k = w.framesFor k

/-- The world with an entry for `hop`, unless the cache is full. -/
def withEntry (w : NdpWorld) (hop : In6Addr) : NdpWorld := if (w.ndpLookup hop).isNone then w.ndpEntryAlloc hop else w

theorem withEntry_cases (w : NdpWorld) (hop : In6Addr) :
    ((w.ndpLookup hop).isSome ∨ NDP_MAX_NEIGHBORS ≤ w.cache.length) ∧ w.withEntry hop = w ∨
      w.ndpLookup hop = none ∧ w.cache.length < NDP_MAX_NEIGHBORS ∧
        w.withEntry hop = { w with cache := w.cache ++ [{ ip6 := hop, stateTimestamp := w.tick }] } := by
  unfold withEntry ndpEntryAlloc
  cases hl : w.ndpLookup hop with
  | some e => exact .inl ⟨.inl rfl, rfl⟩
  | none =>
    by_cases hf : NDP_MAX_NEIGHBORS ≤ w.cache.length
    · exact .inl ⟨.inr hf, by simp [hf]⟩
    · exact .inr ⟨rfl, by omega, by simp [hf]⟩

theorem withEntry_defers (w : NdpWorld) (hop : In6Addr) : Defers w (w.withEntry hop) hop none := by
  rcases w.withEntry_cases hop with ⟨-, hw⟩ | ⟨hn, -, hw⟩
  · rw [hw]
    exact ⟨rfl, rfl, (List.append_nil _).symm, id, fun k => by simp, fun _ => id, fun _ => rfl⟩
  · have hlook : ∀ k, (w.withEntry hop).ndpLookup k = if k = hop then some { ip6 := hop, stateTimestamp := w.tick } else w.ndpLookup k := by
      intro k
      rw [hw]
      exact Keyed.lookup_append (x := { ip6 := hop, stateTimestamp := w.tick : NdpSlot }) hn k
    refine ⟨by rw [hw], by rw [hw], by rw [hw, Option.toList_none, List.append_nil], fun hd => ?_, fun k => ?_, fun k hk e he => ?_, fun k => by rw [hw]; rfl⟩
    · rw [hw]
      exact Keyed.nodup_append (x := { ip6 := hop, stateTimestamp := w.tick : NdpSlot }) hd hn
    · rw [queueOf, hlook, queueOf]
      by_cases hk : k = hop
      · subst hk
        simp [hn]
      · simp [hk]
    · rw [hlook] at he
      split at he
      · cases he
        rfl
      · exact hk e he

theorem withEntry_isSome (w : NdpWorld) (hop : In6Addr) :
    ((w.withEntry hop).ndpLookup hop).isSome = ((w.ndpLookup hop).isSome || decide (w.cache.length < NDP_MAX_NEIGHBORS)) := by
  rcases w.withEntry_cases hop with ⟨hsome, hw⟩ | ⟨hn, hroom, hw⟩
  · rw [hw]
    rcases hsome with h | h
    · rw [h, Bool.true_or]
    · rw [decide_eq_false (by omega), Bool.or_false]
  · have hlook : (w.withEntry hop).ndpLookup hop = some { ip6 := hop, stateTimestamp := w.tick } := by
      rw [hw]
      exact (Keyed.lookup_append (x := { ip6 := hop, stateTimestamp := w.tick : NdpSlot }) hn hop).trans (if_pos rfl)
    rw [hlook, decide_eq_true hroom, Bool.or_true, Option.isSome_some]

theorem ndpQueueSkb_defers (w : NdpWorld) (hop : In6Addr) (s : SkbMem) (around : Mem U8) :
    Defers w (w.ndpQueueSkb hop s around) hop
      (if (w.ndpLookup hop).isSome ∧ (w.queueOf hop).length < MAX_QUEUE then some (s.skbCopy around) else none) := by
  unfold ndpQueueSkb
  cases hl : w.ndpLookup hop with
  | none => exact ⟨rfl, rfl, by simp, id, fun k => by simp, fun _ => id, fun _ => rfl⟩
  | some e =>
    have hq : w.queueOf hop = e.queue := by rw [queueOf, hl, Option.elim_some]
    dsimp only
    by_cases hf : MAX_QUEUE ≤ e.queue.length
    · rw [if_pos hf, if_neg (by rw [hq]; omega)]
      exact ⟨rfl, rfl, by simp, id, fun k => by simp, fun _ => id, fun _ => rfl⟩
    · rw [if_neg hf, if_pos ⟨rfl, by rw [hq]; omega⟩]
      have hkey : ∀ x : NdpSlot, ({ x with queue := x.queue ++ [w.skbs.length] } : NdpSlot).ip6 = x.ip6 := fun _ => rfl
      refine ⟨rfl, rfl, rfl, fun hd => ?_, fun k => ?_, fun k hk x hx => ?_, fun _ => rfl⟩
      · dsimp only
        rwa [Keyed.map_update hkey]
      · rw [queueOf, ndpLookup, Keyed.lookup_update hkey]
        by_cases hk : k = hop
        · subst hk
          have hl' : Keyed.lookup (·.ip6) w.cache k = some e := hl
          rw [if_pos rfl, hl', hq]
          simp
        · rw [if_neg hk, if_neg (fun hc => hk hc.1), List.append_nil]
          rfl
      · rw [ndpLookup, Keyed.lookup_update hkey] at hx
        split at hx
        next he =>
          obtain ⟨y, hy, rfl⟩ := Option.map_eq_some_iff.mp hx
          exact hk y (he ▸ hy)
        next => exact hk x hx

theorem Defers.trans {w w' w'' : NdpWorld} {hop : In6Addr} {copy : Option SkbMem} (a : Defers w w' hop none) (b : Defers w' w'' hop copy) :
    Defers w w'' hop copy := by
  have hskbs : w'.skbs = w.skbs := by rw [a.skbs, Option.toList_none, List.append_nil]
  have hqueue : ∀ k, w'.queueOf k = w.queueOf k := fun k => by rw [a.queue, Option.isSome_none, if_neg (by simp), List.append_nil]
  refine ⟨b.hwaddr.trans a.hwaddr, b.held.trans a.held, ?_, b.keys ∘ a.keys, fun k => ?_, fun k => b.state k ∘ a.state k,
    fun k => (b.framesFor k).trans (a.framesFor k)⟩
  · rw [b.skbs, hskbs]
  · rw [b.queue, hqueue, hskbs]

theorem ndpSendNs_defers (w : NdpWorld) (hop target src : In6Addr) : Defers w (w.ndpSendNs target src) hop none := by
  refine ⟨rfl, rfl, (List.append_nil _).symm, id, fun k => by simp [queueOf, ndpLookup, ndpSendNs], fun _ => id, fun k => ?_⟩
  simp [framesFor, ndpSendNs, Written.dataFor?]

theorem dst6NeighOutput_slow {w : NdpWorld} {n : Nat} {s : SkbMem} (hs : w.skbs[n]? = some s) (hg : w.ndpGetHwaddr s.nextHop = none)
    (around : Mem U8) :
    w.dst6NeighOutput n around = ((w.ndpSendNs s.nextHop s.srcAddr).withEntry s.nextHop).ndpQueueSkb s.nextHop s around := by
  unfold dst6NeighOutput
  rw [hs]
  dsimp only
  rw [hg]
  rfl

/-- An output to a neighbour that is not reachable. -/
theorem dst6NeighOutput_defers {w : NdpWorld} {n : Nat} {s : SkbMem} (hs : w.skbs[n]? = some s) (hg : w.ndpGetHwaddr s.nextHop = none)
    (around : Mem U8) : Defers w (w.dst6NeighOutput n around) s.nextHop (if w.accepts s.nextHop then some (s.skbCopy around) else none) := by
  rw [dst6NeighOutput_slow hs hg around]
  generalize s.nextHop = hop at hg ⊢
  have hns := w.ndpSendNs_defers hop hop s.srcAddr
  have hslot := (w.ndpSendNs hop s.srcAddr).withEntry_defers hop
  have hboth := hns.trans hslot
  have hqueue : ((w.ndpSendNs hop s.srcAddr).withEntry hop).queueOf hop = w.queueOf hop := by
    rw [hboth.queue, Option.isSome_none, if_neg (by simp), List.append_nil]
  have hfound : (((w.ndpSendNs hop s.srcAddr).withEntry hop).ndpLookup hop).isSome =
      ((w.ndpLookup hop).isSome || decide (w.cache.length < NDP_MAX_NEIGHBORS)) := withEntry_isSome _ hop
  have hq := ((w.ndpSendNs hop s.srcAddr).withEntry hop).ndpQueueSkb_defers hop s around
  rw [hfound, hqueue] at hq
  refine hboth.trans ?_
  convert hq using 2
  unfold accepts
  simp

/-! ## Advertisements -/

theorem advertised_ip6 (m : NdpMsg) (tlla : HwAddr) (tick : U32) (e : NdpSlot) : (e.advertised m tlla tick).ip6 = e.ip6 := by
  unfold NdpSlot.advertised
  split
  · rfl
  · dsimp only
    split_ifs <;> rfl

theorem advertised_queue (m : NdpMsg) (tlla : HwAddr) (tick : U32) (e : NdpSlot) :
    (e.advertised m tlla tick).queue = if e.state = .incomplete then [] else e.queue := by
  unfold NdpSlot.advertised
  split
  next hs => rw [if_pos hs]
  next hs =>
    rw [if_neg hs]
    dsimp only
    split_ifs <;> rfl

/-- What the advertisement releases. -/
def released (w : NdpWorld) (target : In6Addr) : List Nat :=
  (w.ndpLookup target).elim [] fun e => if e.state = .incomplete then e.queue else []

/-- An advertisement writes what waits for an INCOMPLETE entry, and empties that
queue. -/
structure Resolves (w w' : NdpWorld) (target : In6Addr) (tlla : HwAddr) : Prop where
  hwaddr : w'.hwaddr = w.hwaddr
  held : w'.held = w.held
  length : w'.skbs.length = w.skbs.length
  others : ∀ n, n ∉ w.released target → w'.skbs[n]? = w.skbs[n]?
  tails : (∀ s ∈ w.skbs, s.tail < 2 ^ 32) → ∀ s ∈ w'.skbs, s.tail < 2 ^ 32
  keys : w'.cache.map (·.ip6) = w.cache.map (·.ip6)
  lookup : ∀ k, k ≠ target → w'.ndpLookup k = w.ndpLookup k
  emptied : w.Unresolved target → w'.queueOf target = []
  kept : w'.queueOf target = [] ∨ w'.queueOf target = w.queueOf target
  framesFor : ∀ k, w'.framesFor k = w.framesFor k ++ if target = k then (w.released target).map (w.frameOf tlla) else []

theorem released_unresolved {w : NdpWorld} {target : In6Addr} (h : w.Unresolved target) : w.released target = w.queueOf target := by
  unfold released queueOf
  cases hl : w.ndpLookup target with
  | none => rfl
  | some e => rw [Option.elim_some, Option.elim_some, if_pos (h e hl)]

theorem ndpNaProcess_resolves {w : NdpWorld} {m : NdpMsg} {tlla : HwAddr} (ht : m.tlla = some tlla)
    (hq : ∀ n ∈ w.queueOf m.target, n < w.skbs.length) (hd : (w.queueOf m.target).Nodup) :
    Resolves w (w.ndpNaProcess m) m.target tlla := by
  have hkey : ∀ x : NdpSlot, (x.advertised m tlla w.tick).ip6 = x.ip6 := advertised_ip6 m tlla w.tick
  unfold ndpNaProcess
  rw [ht]
  cases hl : w.ndpLookup m.target with
  | none =>
    have hempty : w.queueOf m.target = [] := by rw [queueOf, hl, Option.elim_none]
    refine ⟨rfl, rfl, rfl, fun _ _ => rfl, id, rfl, fun _ _ => rfl, fun _ => hempty, .inr rfl, fun k => ?_⟩
    rw [released, hl]
    simp
  | some e =>
    have hip6 : e.ip6 = m.target := Keyed.lookup_key hl
    have hqueue : w.queueOf m.target = e.queue := by rw [queueOf, hl, Option.elim_some]
    rw [hqueue] at hq hd
    dsimp only
    generalize hw1 : ({ w with cache := Keyed.update (·.ip6) w.cache m.target (·.advertised m tlla w.tick) } : NdpWorld) = w1
    have hlook : ∀ k, w1.ndpLookup k = if k = m.target then some (e.advertised m tlla w.tick) else w.ndpLookup k := by
      intro k
      have hl' : Keyed.lookup (·.ip6) w.cache m.target = some e := hl
      rw [← hw1, ndpLookup, Keyed.lookup_update hkey, hl', Option.map_some]
      rfl
    have hqueue1 : w1.queueOf m.target = if e.state = .incomplete then [] else e.queue := by
      rw [queueOf, hlook, if_pos rfl, Option.elim_some, advertised_queue]
    have hframe1 : w1.frameOf tlla = w.frameOf tlla := by rw [← hw1]; rfl
    have hkeys1 : w1.cache.map (·.ip6) = w.cache.map (·.ip6) := by
      rw [← hw1]
      exact Keyed.map_update hkey _ _
    by_cases hi : e.state = .incomplete
    · rw [if_pos hi] at hqueue1 ⊢
      have hrel : w.released m.target = e.queue := by rw [released, hl, Option.elim_some, if_pos hi]
      have hlen1 : w1.skbs.length = w.skbs.length := by rw [← hw1]
      have htx := ndpFlushQueue_transmits (w := w1) (fun n hn => hlen1 ▸ hq n hn) hd e.ip6 tlla
      have hskbs1 : w1.skbs = w.skbs := by rw [← hw1]
      refine ⟨htx.hwaddr.trans (by rw [← hw1]), htx.held.trans (by rw [← hw1]), htx.length.trans hlen1, fun n hn => ?_, ?_, ?_, fun k hk => ?_,
        fun _ => ?_, .inl ?_, fun k => ?_⟩
      · rw [hrel] at hn
        rw [htx.others n hn, hskbs1]
      · rw [← hskbs1]
        exact htx.tails
      · rw [htx.cache, hkeys1]
      · rw [ndpLookup, htx.cache]
        exact (hlook k).trans (if_neg hk)
      · rw [queueOf_congr htx.cache, hqueue1]
      · rw [queueOf_congr htx.cache, hqueue1]
      · rw [htx.framesFor, hrel, hframe1, hip6, ← hw1]
        rfl
    · rw [if_neg hi] at hqueue1 ⊢
      have hrel : w.released m.target = [] := by rw [released, hl, Option.elim_some, if_neg hi]
      refine ⟨by rw [← hw1], by rw [← hw1], by rw [← hw1], fun n _ => by rw [← hw1], by rw [← hw1]; exact id, hkeys1, fun k hk => ?_,
        fun hu => absurd (hu e hl) hi, .inr (hqueue1.trans hqueue.symm), fun k => ?_⟩
      · exact (hlook k).trans (if_neg hk)
      · rw [hrel, ← hw1]
        simp [framesFor]

/-! ## Every step keeps the copies apart -/

theorem released_sub {w : NdpWorld} {target : In6Addr} {n : Nat} (h : n ∈ w.released target) : n ∈ w.queueOf target := by
  unfold released at h
  unfold queueOf
  cases hl : w.ndpLookup target with
  | none => simp [hl] at h
  | some e =>
    rw [hl, Option.elim_some] at h
    split at h
    · exact h
    · cases h

theorem Apart.transmit {w w' : NdpWorld} {nextHop : In6Addr} {dmac : HwAddr} {queue : List Nat} (ha : w.Apart)
    (h : Transmits w w' nextHop dmac queue) : w'.Apart := by
  have hq := queueOf_congr h.cache
  refine ⟨by rw [h.cache]; exact ha.keys, ?_, h.tails ha.tails, ?_, ?_, ?_, ?_⟩
  · rw [h.held, h.length]
    exact ha.held
  · intro hop
    rw [hq, h.length]
    exact ha.alive hop
  · intro hop
    rw [hq, h.held]
    exact ha.own hop
  · intro hop
    rw [hq]
    exact ha.nodup hop
  · intro hop hop' n
    rw [hq, hq]
    exact ha.one hop hop' n

theorem Apart.defer {w w' : NdpWorld} {hop : In6Addr} {copy : Option SkbMem} (ha : w.Apart) (h : Defers w w' hop copy)
    (htail : ∀ s ∈ copy, s.tail < 2 ^ 32) : w'.Apart := by
  have hlen : w.skbs.length ≤ w'.skbs.length := by
    rw [h.skbs, List.length_append]
    omega
  -- what is new in a queue is the new skb
  have hmem : ∀ k, ∀ n ∈ w'.queueOf k, n ∈ w.queueOf k ∨ k = hop ∧ n = w.skbs.length ∧ n < w'.skbs.length := by
    intro k n hn
    rw [h.queue, List.mem_append] at hn
    refine hn.imp_right fun hnew => ?_
    split at hnew
    next hc =>
      obtain ⟨s, rfl⟩ := Option.isSome_iff_exists.mp hc.2
      rw [List.mem_singleton] at hnew
      refine ⟨hc.1, hnew, ?_⟩
      rw [h.skbs, hnew]
      simp
    next => cases hnew
  refine ⟨h.keys ha.keys, fun n hn => ?_, fun s hs => ?_, fun k n hn => ?_, fun k n hn => ?_, fun k => ?_, fun k k' n hn hn' => ?_⟩
  · exact (ha.held n (h.held ▸ hn)).trans_le hlen
  · rw [h.skbs, List.mem_append] at hs
    exact hs.elim (ha.tails s) fun hs => htail s (Option.mem_toList.mp hs)
  · rcases hmem k n hn with hn | ⟨-, -, hn⟩
    · exact (ha.alive k n hn).trans_le hlen
    · exact hn
  · rw [h.held]
    rcases hmem k n hn with hn | ⟨-, hn, -⟩
    · exact ha.own k n hn
    · intro hheld
      exact absurd (ha.held n hheld) (by omega)
  · rw [h.queue, List.nodup_append]
    refine ⟨ha.nodup k, by split <;> simp, fun a ha' b hb => ?_⟩
    split at hb
    · rw [List.mem_singleton.mp hb]
      exact (ha.alive k a ha').ne
    · cases hb
  · rcases hmem k n hn with hn | ⟨hk, hn, -⟩
    · rcases hmem k' n hn' with hn' | ⟨-, he, -⟩
      · exact ha.one k k' n hn hn'
      · exact absurd (ha.alive k n hn) (by omega)
    · rcases hmem k' n hn' with hn' | ⟨hk', -, -⟩
      · exact absurd (ha.alive k' n hn') (by omega)
      · rw [hk, hk']

theorem Apart.resolve {w w' : NdpWorld} {target : In6Addr} {tlla : HwAddr} (ha : w.Apart) (h : Resolves w w' target tlla) : w'.Apart := by
  have hmem : ∀ k, w'.queueOf k = [] ∨ w'.queueOf k = w.queueOf k := by
    intro k
    by_cases hk : k = target
    · rw [hk]
      exact h.kept
    · exact .inr (by rw [queueOf, h.lookup k hk, queueOf])
  have hsub : ∀ k, ∀ n ∈ w'.queueOf k, n ∈ w.queueOf k := by
    intro k n hn
    rcases hmem k with hk | hk
    · rw [hk] at hn
      cases hn
    · exact hk ▸ hn
  refine ⟨by rw [h.keys]; exact ha.keys, by rw [h.held, h.length]; exact ha.held, h.tails ha.tails, fun k n hn => ?_, fun k n hn => ?_,
    fun k => ?_, fun k k' n hn hn' => ha.one k k' n (hsub k n hn) (hsub k' n hn')⟩
  · rw [h.length]
    exact ha.alive k n (hsub k n hn)
  · rw [h.held]
    exact ha.own k n (hsub k n hn)
  · rcases hmem k with hk | hk
    · rw [hk]
      exact List.nodup_nil
    · rw [hk]
      exact ha.nodup k

theorem apart_boot (hwaddr : HwAddr) : (boot hwaddr).Apart :=
  ⟨List.nodup_nil, nofun, nofun, fun _ => nofun, fun _ => nofun, fun _ => List.nodup_nil, fun _ _ _ => nofun⟩

theorem ndpNaProcess_none {w : NdpWorld} {m : NdpMsg} (ht : m.tlla = none) : w.ndpNaProcess m = w := by
  unfold ndpNaProcess
  rw [ht]

/-- The output of an skb is a transmission of it or leaves a copy. -/
theorem dst6NeighOutput_cases {w : NdpWorld} {n : Nat} {s : SkbMem} (hs : w.skbs[n]? = some s) (around : Mem U8) :
    (∃ dmac, w.ndpGetHwaddr s.nextHop = some dmac ∧ Transmits w (w.dst6NeighOutput n around) s.nextHop dmac [n]) ∨
      w.ndpGetHwaddr s.nextHop = none ∧
        Defers w (w.dst6NeighOutput n around) s.nextHop (if w.accepts s.nextHop then some (s.skbCopy around) else none) := by
  cases hg : w.ndpGetHwaddr s.nextHop with
  | some dmac =>
    have hout : w.dst6NeighOutput n around = w.netdevTransmit n s.nextHop dmac := by
      unfold dst6NeighOutput
      rw [hs]
      dsimp only
      rw [hg]
    refine .inl ⟨dmac, rfl, ?_⟩
    rw [hout]
    exact netdevTransmit_transmits (List.getElem?_eq_some_iff.mp hs).1 _ _
  | none => exact .inr ⟨rfl, dst6NeighOutput_defers hs hg around⟩

theorem dst6NeighOutput_none {w : NdpWorld} {n : Nat} (hs : w.skbs[n]? = none) (around : Mem U8) : w.dst6NeighOutput n around = w := by
  unfold dst6NeighOutput
  rw [hs]

theorem step_apart {w : NdpWorld} (ha : w.Apart) (ev : NdpEvent) : (w.step ev).Apart := by
  cases ev with
  | alloc size around =>
    refine ⟨ha.keys, fun n hn => ?_, fun s hs => ?_, fun k n hn => ?_, fun k n hn hheld => ?_, ha.nodup, ha.one⟩
    · show n < (w.skbs ++ [_]).length
      rw [List.length_append, List.length_singleton]
      rcases List.mem_append.mp hn with hn | hn
      · exact (ha.held n hn).trans (Nat.lt_succ_self _)
      · rw [List.mem_singleton.mp hn]
        exact Nat.lt_succ_self _
    · rcases List.mem_append.mp hs with hs | hs
      · exact ha.tails s hs
      · rw [List.mem_singleton.mp hs]
        show (size.toNat : Int) < 2 ^ 32
        exact_mod_cast size.isLt
    · show n < (w.skbs ++ [_]).length
      rw [List.length_append, List.length_singleton]
      exact (ha.alive k n hn).trans (Nat.lt_succ_self _)
    · rcases List.mem_append.mp hheld with hheld | hnew
      · exact ha.own k n hn hheld
      · exact (ha.alive k n hn).ne (List.mem_singleton.mp hnew)
  | change n f =>
    show (if n ∈ w.held then _ else w).Apart
    split
    · refine ⟨ha.keys, fun j hj => ?_, ?_, fun k j hj => ?_, ha.own, ha.nodup, ha.one⟩
      · exact (List.length_modify ..).symm ▸ ha.held j hj
      · exact Table.forall_modify ha.tails fun s hs => ha.tails s hs
      · exact (List.length_modify ..).symm ▸ ha.alive k j hj
    · exact ha
  | free n =>
    exact ⟨ha.keys, fun j hj => ha.held j (List.mem_filter.mp hj).1, ha.tails, ha.alive, fun k j hj hh => ha.own k j hj (List.mem_filter.mp hh).1,
      ha.nodup, ha.one⟩
  | output n around =>
    show (if n ∈ w.held then _ else w).Apart
    split
    · cases hs : w.skbs[n]? with
      | none => rwa [dst6NeighOutput_none hs]
      | some s =>
        rcases dst6NeighOutput_cases hs around with ⟨dmac, -, htx⟩ | ⟨-, hdef⟩
        · exact ha.transmit htx
        · refine ha.defer hdef fun c hc => ?_
          split at hc
          · cases hc
            exact ha.tails s (List.mem_of_getElem? hs)
          · cases hc
    · exact ha
  | na m =>
    show (w.ndpNaProcess m).Apart
    cases ht : m.tlla with
    | none => rwa [ndpNaProcess_none ht]
    | some tlla => exact ha.resolve (ndpNaProcess_resolves ht (ha.alive _) (ha.nodup _))
  | tick => exact ⟨ha.keys, ha.held, ha.tails, ha.alive, ha.own, ha.nodup, ha.one⟩

/-! ## What a neighbour is promised -/

/-- The frames of `hop` that were written, and those that its advertisement from
`mac` would write. -/
def promised (hop : In6Addr) (mac : HwAddr) (w : NdpWorld) : List (List U8) := w.framesFor hop ++ w.waiting hop mac

theorem waiting_congr {w w' : NdpWorld} {hop : In6Addr} (hq : w'.queueOf hop = w.queueOf hop) (hdev : w'.hwaddr = w.hwaddr)
    (hskbs : ∀ n ∈ w.queueOf hop, w'.skbs[n]? = w.skbs[n]?) (mac : HwAddr) : w'.waiting hop mac = w.waiting hop mac := by
  rw [waiting, waiting, hq]
  exact List.map_congr_left fun n hn => frameOf_congr (hskbs n hn) hdev mac

theorem ndpGetHwaddr_unresolved {w : NdpWorld} (hk : (w.cache.map (·.ip6)).Nodup) {hop : In6Addr} (h : w.Unresolved hop) :
    w.ndpGetHwaddr hop = none := by
  rw [ndpGetHwaddr, Option.map_eq_none_iff, List.find?_eq_none]
  intro e he hc
  obtain ⟨rfl, hr⟩ := of_decide_eq_true hc
  have hi := h e (Keyed.lookup_of_mem hk he)
  rw [hi] at hr
  cases hr

theorem packetTo_output {w : NdpWorld} {n : Nat} {s : SkbMem} (hn : n ∈ w.held) (hs : w.skbs[n]? = some s) (hop : In6Addr) (around : Mem U8) :
    w.packetTo hop (.output n around) = if s.nextHop = hop then [s] else [] := by
  unfold packetTo
  dsimp only
  rw [if_pos hn, hs]
  simp [List.filter_cons]

theorem ndpGetHwaddr_resolved (w : NdpWorld) (hop : In6Addr) (mac : HwAddr) : (w.resolved hop mac).ndpGetHwaddr hop = some mac := by
  have hrest : (Keyed.remove (·.ip6) w.cache hop).find? (fun e => e.ip6 = hop ∧ e.state = .reachable) = none := by
    rw [List.find?_eq_none]
    intro e he hc
    have hne : e.ip6 ≠ hop := by simpa [Keyed.remove] using (List.mem_filter.mp he).2
    exact hne (of_decide_eq_true hc).1
  unfold ndpGetHwaddr resolved
  dsimp only
  rw [List.find?_append, hrest]
  simp

/-- A reachable neighbour would be given the frame of the skb as it is. -/
theorem direct_output {w : NdpWorld} {n : Nat} {s : SkbMem} (hn : n ∈ w.held) (hs : w.skbs[n]? = some s) (hop : In6Addr) (mac : HwAddr)
    (around : Mem U8) : w.direct hop mac (.output n around) = if s.nextHop = hop then [w.frameOf mac n] else [] := by
  have hstep : (w.resolved hop mac).step (.output n around) = (w.resolved hop mac).dst6NeighOutput n around := if_pos hn
  have hsame : (w.resolved hop mac).framesFor hop = w.framesFor hop := rfl
  unfold direct
  dsimp only
  rw [hstep]
  rcases dst6NeighOutput_cases (w := w.resolved hop mac) hs around with ⟨dmac, hg, htx⟩ | ⟨hg, hdef⟩
  · rw [htx.framesFor, hsame, List.drop_left]
    by_cases hhop : s.nextHop = hop
    · rw [hhop, ndpGetHwaddr_resolved] at hg
      cases hg
      rw [if_pos hhop, if_pos hhop]
      rfl
    · rw [if_neg hhop, if_neg hhop]
  · rw [hdef.framesFor, hsame, List.drop_length]
    have hhop : s.nextHop ≠ hop := by
      rintro rfl
      rw [ndpGetHwaddr_resolved] at hg
      cases hg
    rw [if_neg hhop]

theorem direct_idle {w : NdpWorld} {n : Nat} (h : n ∈ w.held → w.skbs[n]? = none) (hop : In6Addr) (mac : HwAddr) (around : Mem U8) :
    w.direct hop mac (.output n around) = [] ∧ w.packetTo hop (.output n around) = [] ∧ w.step (.output n around) = w := by
  have hstep : ∀ v : NdpWorld, v.held = w.held → v.skbs = w.skbs → v.step (.output n around) = v := by
    intro v hh hs
    show (if n ∈ v.held then _ else v) = v
    split
    next hn => exact dst6NeighOutput_none (by rw [hs]; exact h (hh ▸ hn)) around
    next => rfl
  refine ⟨?_, ?_, hstep w rfl rfl⟩
  · unfold direct
    dsimp only
    rw [hstep (w.resolved hop mac) rfl rfl]
    exact List.drop_length
  · unfold packetTo
    dsimp only
    split
    next hn => rw [h hn]; rfl
    next => rfl

/-- The frame of a copy is the frame of the original as it was. -/
theorem netdevTransmit_skbCopy {s : SkbMem} (hp : s.Placed ETH_HDR_LEN) (htail : s.tail < 2 ^ 32) (around : Mem U8)
    (hwaddr dmac : HwAddr) (ethertype : U16) :
    ((s.skbCopy around).netdevTransmit hwaddr dmac ethertype).bytes = (s.netdevTransmit hwaddr dmac ethertype).bytes := by
  obtain ⟨hroom, hend⟩ := hp
  have h14 : (ETH_HDR_LEN : Int) = 14 := rfl
  have hin : s.Placed 0 := ⟨by omega, hend⟩
  have hlen : s.len.toNat + 14 < 2 ^ 32 := by
    by_contra hc
    omega
  have hcopy : (s.skbCopy around).len = s.len := rfl
  rw [SkbMem.bytes_netdevTransmit _ _ _ _ (by rw [hcopy]; exact hlen), SkbMem.bytes_netdevTransmit _ _ _ _ hlen, SkbMem.bytes_skbCopy s around hin]

/-- What the event outputs to the unresolved `hop` is promised, with the frame
that a reachable neighbour would be given at once. -/
structure Promises (hop : In6Addr) (mac : HwAddr) (w : NdpWorld) (ev : NdpEvent) : Prop where
  unresolved : (w.step ev).Unresolved hop
  promised : (w.step ev).promised hop mac = w.promised hop mac ++ w.direct hop mac ev
  queued : ((w.step ev).queueOf hop).length = (w.queueOf hop).length + (w.packetTo hop ev).length

section step
variable {hop : In6Addr} {mac : HwAddr} {w : NdpWorld}

/-- An event that leaves the neighbour and its copies alone. -/
theorem Promises.of_same {ev : NdpEvent} (hu : w.Unresolved hop) (hdev : (w.step ev).hwaddr = w.hwaddr)
    (hlook : (w.step ev).ndpLookup hop = w.ndpLookup hop) (hskbs : ∀ n ∈ w.queueOf hop, (w.step ev).skbs[n]? = w.skbs[n]?)
    (hframes : (w.step ev).framesFor hop = w.framesFor hop) (hd : w.direct hop mac ev = []) (hp : w.packetTo hop ev = []) :
    Promises hop mac w ev := by
  have hq : (w.step ev).queueOf hop = w.queueOf hop := by rw [queueOf, hlook, queueOf]
  refine ⟨fun e he => hu e (hlook ▸ he), ?_, ?_⟩
  · rw [NdpWorld.promised, hframes, waiting_congr hq hdev hskbs, hd, List.append_nil, NdpWorld.promised]
  · rw [hq, hp, List.length_nil, Nat.add_zero]

/-- An output to a neighbour that is not reachable. -/
theorem Promises.of_defers {n : Nat} {s : SkbMem} {around : Mem U8} (ha : w.Apart) (hu : w.Unresolved hop) (hn : n ∈ w.held)
    (hs : w.skbs[n]? = some s) (hp : s.Placed ETH_HDR_LEN) (hacc : s.nextHop = hop → w.accepts hop = true)
    (h : Defers w (w.step (.output n around)) s.nextHop (if w.accepts s.nextHop then some (s.skbCopy around) else none)) :
    Promises hop mac w (.output n around) := by
  have hold : ∀ j ∈ w.queueOf hop, (w.step (.output n around)).skbs[j]? = w.skbs[j]? := by
    intro j hj
    rw [h.skbs, List.getElem?_append_left (ha.alive hop j hj)]
  refine ⟨h.state hop hu, ?_, ?_⟩
  · rw [NdpWorld.promised, h.framesFor, direct_output hn hs, NdpWorld.promised, List.append_assoc]
    congr 1
    by_cases hhop : s.nextHop = hop
    · -- the copy goes behind those that wait already
      have hc := hacc hhop
      rw [hhop, if_pos hc] at h
      have hnew : (w.step (.output n around)).skbs[w.skbs.length]? = some (s.skbCopy around) := by
        rw [h.skbs, Option.toList_some, List.getElem?_append_right le_rfl, Nat.sub_self, List.getElem?_cons_zero]
      have hframe : (w.step (.output n around)).frameOf mac w.skbs.length = w.frameOf mac n := by
        rw [frameOf, hnew, frameOf, hs, Option.elim_some, Option.elim_some, h.hwaddr]
        exact netdevTransmit_skbCopy hp (ha.tails s (List.mem_of_getElem? hs)) around _ _ _
      rw [waiting, h.queue, Option.isSome_some, if_pos ⟨rfl, rfl⟩, List.map_append, List.map_singleton, hframe, if_pos hhop, waiting]
      exact congrArg (· ++ _) (List.map_congr_left fun j hj => frameOf_congr (hold j hj) h.hwaddr mac)
    · have hq : (w.step (.output n around)).queueOf hop = w.queueOf hop := by
        rw [h.queue, if_neg (fun hc => hhop hc.1.symm), List.append_nil]
      rw [waiting_congr hq h.hwaddr hold, if_neg hhop, List.append_nil]
  · rw [h.queue, packetTo_output hn hs, List.length_append]
    by_cases hhop : s.nextHop = hop
    · have hc := hacc hhop
      rw [hhop, if_pos hc, if_pos ⟨rfl, rfl⟩, if_pos rfl]
      rfl
    · rw [if_neg (fun hc => hhop hc.1.symm), if_neg hhop]
      rfl

theorem step_promises (ha : w.Apart) (hu : w.Unresolved hop) {ev : NdpEvent} (hquiet : w.Quiet hop ev) (hadm : w.Admits hop ev)
    (hroom : (w.queueOf hop).length + (w.packetTo hop ev).length ≤ MAX_QUEUE) : Promises hop mac w ev := by
  cases ev with
  | alloc size around =>
    refine .of_same hu rfl rfl (fun n hn => ?_) rfl rfl rfl
    exact List.getElem?_append_left (ha.alive hop n hn)
  | change n f =>
    by_cases hn : n ∈ w.held
    · have hst : w.step (.change n f) = { w with skbs := w.skbs.modify n fun s => { f s with tail := s.tail } } := if_pos hn
      refine .of_same hu (by rw [hst]) (by rw [hst]; rfl) (fun j hj => ?_) (by rw [hst]; rfl) rfl rfl
      have hne : n ≠ j := fun he => ha.own hop j hj (he ▸ hn)
      rw [hst]
      simp only [List.getElem?_modify, if_neg hne]
      exact id_map' _
    · have hst : w.step (.change n f) = w := if_neg hn
      exact .of_same hu (by rw [hst]) (by rw [hst]) (fun _ _ => by rw [hst]) (by rw [hst]) rfl rfl
  | free n => exact .of_same hu rfl rfl (fun _ _ => rfl) rfl rfl rfl
  | tick => exact .of_same hu rfl rfl (fun _ _ => rfl) rfl rfl rfl
  | na m =>
    cases ht : m.tlla with
    | none =>
      have hst : w.step (.na m) = w := ndpNaProcess_none ht
      exact .of_same hu (by rw [hst]) (by rw [hst]) (fun _ _ => by rw [hst]) (by rw [hst]) rfl rfl
    | some tlla =>
      have hne : m.target ≠ hop := fun he => by
        rw [hquiet he] at ht
        cases ht
      have hr := ndpNaProcess_resolves ht (ha.alive m.target) (ha.nodup m.target)
      refine .of_same hu hr.hwaddr (hr.lookup hop hne.symm) (fun n hn => hr.others n fun hrel => ?_) ?_ rfl rfl
      · exact hne (ha.one _ _ n (released_sub hrel) hn)
      · exact (hr.framesFor hop).trans (by rw [if_neg hne, List.append_nil])
  | output n around =>
    by_cases hn : n ∈ w.held
    · cases hs : w.skbs[n]? with
      | none =>
        obtain ⟨hd, hp, hst⟩ := direct_idle (fun _ => hs) hop mac around
        exact .of_same hu (by rw [hst]) (by rw [hst]) (fun _ _ => by rw [hst]) (by rw [hst]) hd hp
      | some s =>
        have hst : w.step (.output n around) = w.dst6NeighOutput n around := if_pos hn
        have hpack := packetTo_output hn hs hop around
        rcases dst6NeighOutput_cases hs around with ⟨dmac, hg, htx⟩ | ⟨-, hdef⟩
        · -- another neighbour is reachable
          have hne : s.nextHop ≠ hop := by
            rintro rfl
            rw [ndpGetHwaddr_unresolved ha.keys hu] at hg
            cases hg
          rw [← hst] at htx
          refine .of_same hu htx.hwaddr (by rw [ndpLookup, htx.cache]; rfl) (fun j hj => htx.others j ?_) ?_ ?_ ?_
          · rw [List.mem_singleton]
            rintro rfl
            exact ha.own hop j hj hn
          · rw [htx.framesFor, if_neg hne, List.append_nil]
          · rw [direct_output hn hs, if_neg hne]
          · rw [hpack, if_neg hne]
        · rw [← hst] at hdef
          refine .of_defers ha hu hn hs (hquiet hn s hs) (fun hhop => ?_) hdef
          rw [hpack, if_pos hhop, List.length_singleton] at hroom
          have hfound := hadm (by rw [hpack, if_pos hhop]; exact Nat.one_ne_zero)
          rw [accepts, Bool.and_eq_true, Bool.or_eq_true, decide_eq_true_eq, decide_eq_true_eq]
          exact ⟨hfound, by omega⟩
    · obtain ⟨hd, hp, hst⟩ := direct_idle (fun hc => absurd hc hn) hop mac around
      exact .of_same hu (by rw [hst]) (by rw [hst]) (fun _ _ => by rw [hst]) (by rw [hst]) hd hp

end step

/-- The promise of a run. -/
theorem run_promised {hop : In6Addr} (mac : HwAddr) {w : NdpWorld} (ha : w.Apart) (hu : w.Unresolved hop) {es : List NdpEvent}
    (hquiet : Machine.Meets step (Quiet hop) w es) (hadm : Machine.Meets step (Admits hop) w es)
    (hroom : (w.queueOf hop).length + (Machine.trace step (packetTo hop) w es).length ≤ MAX_QUEUE) :
    (w.run es).Apart ∧ (w.run es).Unresolved hop ∧
      (w.run es).promised hop mac = w.promised hop mac ++ Machine.trace step (direct hop mac) w es := by
  induction es generalizing w with
  | nil => exact ⟨ha, hu, (List.append_nil _).symm⟩
  | cons ev es ih =>
    rw [Machine.trace, List.length_append] at hroom
    have hp : Promises hop mac w ev := step_promises ha hu hquiet.1 hadm.1 (by omega)
    obtain ⟨ha', hu', he⟩ := ih (step_apart ha ev) hp.unresolved hquiet.2 hadm.2 (by rw [hp.queued]; omega)
    refine ⟨ha', hu', ?_⟩
    rw [Machine.trace, ← List.append_assoc, ← hp.promised]
    exact he

/-- **Deferred transmission.** In any run, once the neighbour is advertised from
`mac`, the frames for it are those that were written before, those of the
copies that waited already, and for each packet that was output meanwhile the
frame that a reachable neighbour at `mac` would have been given at once. -/
theorem deferred_direct (hwaddr : HwAddr) (pre es : List NdpEvent) (hop : In6Addr) (mac : HwAddr) (m : NdpMsg)
    (hu : ((boot hwaddr).run pre).Unresolved hop)
    (hquiet : Machine.Meets step (Quiet hop) ((boot hwaddr).run pre) es)
    (hadm : Machine.Meets step (Admits hop) ((boot hwaddr).run pre) es)
    (hroom : (((boot hwaddr).run pre).queueOf hop).length + (Machine.trace step (packetTo hop) ((boot hwaddr).run pre) es).length ≤ MAX_QUEUE)
    (htarget : m.target = hop) (htlla : m.tlla = some mac) :
    (((boot hwaddr).run pre).run (es ++ [.na m])).framesFor hop =
      ((boot hwaddr).run pre).framesFor hop ++ ((boot hwaddr).run pre).waiting hop mac ++
        Machine.trace step (direct hop mac) ((boot hwaddr).run pre) es := by
  have hstart : ((boot hwaddr).run pre).Apart := Machine.invariant (I := Apart) (fun _ ev ha => step_apart ha ev) pre (apart_boot hwaddr)
  obtain ⟨ha, hu', hp⟩ := run_promised mac hstart hu hquiet hadm hroom
  subst htarget
  have hr := ndpNaProcess_resolves htlla (ha.alive m.target) (ha.nodup m.target)
  rw [run, Machine.run_append, Machine.run_cons, Machine.run_nil]
  refine (hr.framesFor m.target).trans ?_
  rw [if_pos rfl, released_unresolved hu', ← promised, ← hp]
  rfl

/-- The neighbour `fe80::i`. -/
def onLink (i : U8) : In6Addr := Host6.neighbour.set 15 i

/-- The skb with a packet for that neighbour. -/
def packetFor (i : U8) (s : SkbMem) : SkbMem :=
  { s with data := 14, len := 40, rt := none, mem := write (fun _ => 0) 38 (onLink i).toList }

/-- The stack makes its skb 0 a packet for the neighbour, and outputs it. -/
def outputTo (i : U8) : List NdpEvent := [.change 0 (packetFor i), .output 0 fun _ => 0]

/-- The skb of a packet that waits is overwritten and given up. -/
theorem deferred_direct_overwritten :
    (((boot netdevMac).run [.alloc 54 fun _ => 0]).run
        (outputTo 1 ++ [.change 0 fun s => { s with mem := fun _ => 0xFF }, .free 0] ++ [.na (Host6.naFlagged 0x60 Host6.neighbour)])).framesFor
          Host6.neighbour =
      ((boot netdevMac).run [.alloc 54 fun _ => 0]).framesFor Host6.neighbour ++
          ((boot netdevMac).run [.alloc 54 fun _ => 0]).waiting Host6.neighbour #v[0x02, 0, 0, 0, 0, 0x01] ++
        Machine.trace step (direct Host6.neighbour #v[0x02, 0, 0, 0, 0, 0x01]) ((boot netdevMac).run [.alloc 54 fun _ => 0])
          (outputTo 1 ++ [.change 0 fun s => { s with mem := fun _ => 0xFF }, .free 0]) :=
  deferred_direct netdevMac [.alloc 54 fun _ => 0] _ Host6.neighbour #v[0x02, 0, 0, 0, 0, 0x01] (Host6.naFlagged 0x60 Host6.neighbour)
    (fun _ he => by cases he) (by decide +kernel) (by decide +kernel) (by decide +kernel) (by decide +kernel) (by decide +kernel)

/-! ## A full cache -/

theorem nextHop_packetFor (i : U8) (s : SkbMem) : (packetFor i s).nextHop = onLink i := by
  have hread : (packetFor i s).ip6h = read (packetFor i s).mem 14 24 ++ read (packetFor i s).mem 38 16 := read_add _ 14 24 16
  have haddr : read (packetFor i s).mem 38 16 = (onLink i).toList := by
    have h := read_write (fun _ => (0 : U8)) 38 (onLink i).toList
    rwa [Vector.length_toList] at h
  have hdaddr : in6At (packetFor i s).ip6h 24 = onLink i := by
    refine Vector.ext fun k hk => ?_
    rw [in6At, Vector.getElem_ofFn, hread, haddr, List.getD_append_right _ _ _ _ (by rw [length_read]; omega), length_read]
    have hsub : 24 + k - 24 = k := by omega
    rw [hsub, List.getD_eq_getElem _ _ (by rw [Vector.length_toList]; exact hk), Vector.getElem_toList]
  exact hdaddr

/-- A packet waits for each of the neighbours. -/
structure Crowded (is : List U8) (w : NdpWorld) : Prop where
  apart : w.Apart
  held : 0 ∈ w.held
  skb : ∃ s, w.skbs[0]? = some s ∧ s.tail = 54
  entries : w.cache.map (·.ip6) = is.map onLink
  unresolved : ∀ hop, w.Unresolved hop
  frames : ∀ hop, w.framesFor hop = []

theorem onLink_injective {i j : U8} (h : onLink i = onLink j) : i = j := by
  have hlast := congrArg (fun v : In6Addr => v[15]) h
  simpa [onLink] using hlast

theorem Crowded.absent {is : List U8} {w : NdpWorld} (h : Crowded is w) {i : U8} (hi : i ∉ is) : w.ndpLookup (onLink i) = none := by
  refine Keyed.lookup_eq_none.mpr fun e he hk => hi ?_
  have hmem := List.mem_map_of_mem (f := (·.ip6)) he
  rw [h.entries, hk] at hmem
  obtain ⟨j, hj, heq⟩ := List.mem_map.mp hmem
  rwa [← onLink_injective heq]

/-- After the packet was made, and before it is output. -/
theorem Crowded.change {is : List U8} {w : NdpWorld} (h : Crowded is w) (i : U8) :
    ∃ s, (w.step (.change 0 (packetFor i))).skbs[0]? = some s ∧ s.tail = 54 ∧ s.nextHop = onLink i ∧ s.Placed ETH_HDR_LEN ∧
      Crowded is (w.step (.change 0 (packetFor i))) := by
  obtain ⟨s, hs, htail⟩ := h.skb
  have hst : w.step (.change 0 (packetFor i)) = { w with skbs := w.skbs.modify 0 fun s => { packetFor i s with tail := s.tail } } :=
    if_pos h.held
  have hget : (w.step (.change 0 (packetFor i))).skbs[0]? = some (packetFor i s) := by
    rw [hst]
    simp only [List.getElem?_modify, hs, if_pos]
    rfl
  refine ⟨packetFor i s, hget, htail, nextHop_packetFor i s, ⟨le_refl (14 : Int), ?_⟩, step_apart h.apart _, ?_, ⟨_, hget, htail⟩, ?_, ?_, ?_⟩
  · show (14 : Int) + 40 ≤ s.tail
    omega
  · rw [hst]
    exact h.held
  · rw [hst]
    exact h.entries
  · intro hop
    rw [hst]
    exact h.unresolved hop
  · intro hop
    rw [hst]
    exact h.frames hop

theorem dst6NeighOutput_entries {w : NdpWorld} {n : Nat} {s : SkbMem} (hs : w.skbs[n]? = some s) (hg : w.ndpGetHwaddr s.nextHop = none)
    (hn : w.ndpLookup s.nextHop = none) (hroom : w.cache.length < NDP_MAX_NEIGHBORS) (around : Mem U8) :
    (w.dst6NeighOutput n around).cache.map (·.ip6) = w.cache.map (·.ip6) ++ [s.nextHop] := by
  rw [dst6NeighOutput_slow hs hg around]
  generalize s.nextHop = hop at hn ⊢
  have hslot : ((w.ndpSendNs hop s.srcAddr).withEntry hop).cache = w.cache ++ [{ ip6 := hop, stateTimestamp := w.tick }] := by
    rcases (w.ndpSendNs hop s.srcAddr).withEntry_cases hop with ⟨hc, -⟩ | ⟨-, -, hw⟩
    · change (w.ndpLookup hop).isSome = true ∨ NDP_MAX_NEIGHBORS ≤ w.cache.length at hc
      rw [hn] at hc
      rcases hc with hc | hc
      · cases hc
      · omega
    · rw [hw]
      rfl
  have hkeep : ∀ v : NdpWorld, (v.ndpQueueSkb hop s around).cache.map (·.ip6) = v.cache.map (·.ip6) := by
    intro v
    unfold ndpQueueSkb
    cases v.ndpLookup hop with
    | none => rfl
    | some e =>
      dsimp only
      split
      · rfl
      · have hkey : ∀ x : NdpSlot, ({ x with queue := x.queue ++ [v.skbs.length] } : NdpSlot).ip6 = x.ip6 := fun _ => rfl
        exact Keyed.map_update hkey _ _
  rw [hkeep, hslot, List.map_append, List.map_singleton]

theorem Crowded.output {is : List U8} {w : NdpWorld} (h : Crowded is w) {i : U8} (hi : i ∉ is) (hroom : is.length < NDP_MAX_NEIGHBORS) :
    Crowded (is ++ [i]) (w.run (outputTo i)) := by
  obtain ⟨s, hs, htail, hhop, -, hc⟩ := h.change i
  generalize hv : w.step (.change 0 (packetFor i)) = v at hs hc
  have hrun : w.run (outputTo i) = v.dst6NeighOutput 0 fun _ => 0 := by
    rw [← hv]
    exact if_pos (hv ▸ hc.held)
  have hg : v.ndpGetHwaddr s.nextHop = none := ndpGetHwaddr_unresolved hc.apart.keys (hc.unresolved _)
  have hdef := dst6NeighOutput_defers hs hg fun _ => 0
  have hlen : v.cache.length < NDP_MAX_NEIGHBORS := by
    have hl := congrArg List.length hc.entries
    rw [List.length_map, List.length_map] at hl
    omega
  rw [hrun]
  refine ⟨?_, ?_, ⟨s, ?_, htail⟩, ?_, fun hop => hdef.state hop (hc.unresolved hop), fun hop => (hdef.framesFor hop).trans (hc.frames hop)⟩
  · have hap := step_apart hc.apart (.output 0 fun _ => 0)
    rwa [show v.step (.output 0 fun _ => 0) = _ from if_pos hc.held] at hap
  · rw [hdef.held]
    exact hc.held
  · rw [hdef.skbs]
    exact List.getElem?_append_left (List.getElem?_eq_some_iff.mp hs).1 ▸ hs
  · rw [dst6NeighOutput_entries hs hg (hhop ▸ hc.absent hi) hlen, hc.entries, hhop, List.map_append, List.map_singleton]

theorem Crowded.outputs {is js : List U8} {w : NdpWorld} (h : Crowded is w) (hd : (is ++ js).Nodup) (hroom : (is ++ js).length ≤ NDP_MAX_NEIGHBORS) :
    Crowded (is ++ js) (w.run (js.flatMap outputTo)) := by
  induction js generalizing is w with
  | nil => rwa [List.append_nil]
  | cons j js ih =>
    rw [List.append_cons] at hd hroom ⊢
    rw [List.flatMap_cons, run, Machine.run_append]
    refine ih (h.output ?_ ?_) hd hroom
    · exact fun hj => (List.nodup_append.mp (List.nodup_append.mp hd).1).2.2 j hj j List.mem_cons_self rfl
    · rw [List.length_append, List.length_append, List.length_singleton] at hroom
      omega

/-- What is output while the cache is full of others is not written by the
advertisement. -/
theorem lost_without_entry {w : NdpWorld} (ha : w.Apart) {n : Nat} {s : SkbMem} (hn : n ∈ w.held) (hs : w.skbs[n]? = some s)
    (hl : w.ndpLookup s.nextHop = none) (hfull : NDP_MAX_NEIGHBORS ≤ w.cache.length) (around : Mem U8) {m : NdpMsg}
    (htarget : m.target = s.nextHop) : (w.run [.output n around, .na m]).framesFor s.nextHop = w.framesFor s.nextHop := by
  have hu : w.Unresolved s.nextHop := fun e he => by rw [hl] at he; cases he
  have hdef := dst6NeighOutput_defers hs (ndpGetHwaddr_unresolved ha.keys hu) around
  have hacc : w.accepts s.nextHop = false := by
    rw [accepts, hl, decide_eq_false (by omega)]
    rfl
  rw [hacc] at hdef
  have hst : w.step (.output n around) = w.dst6NeighOutput n around := if_pos hn
  have ha' : (w.dst6NeighOutput n around).Apart := hst ▸ step_apart ha (.output n around)
  have hempty : (w.dst6NeighOutput n around).queueOf s.nextHop = [] := by
    rw [hdef.queue, queueOf, hl]
    simp
  rw [run, Machine.run_cons, hst, Machine.run_cons, Machine.run_nil, ← hdef.framesFor]
  show ((w.dst6NeighOutput n around).ndpNaProcess m).framesFor _ = _
  cases ht : m.tlla with
  | none => rw [ndpNaProcess_none ht]
  | some tlla =>
    have hr := ndpNaProcess_resolves ht (ha'.alive _) (ha'.nodup _)
    rw [hr.framesFor, htarget, released_unresolved (hdef.state _ hu), hempty, List.map_nil, ite_self, List.append_nil]

/-- 64 other neighbours. -/
def crowd : List U8 := (List.range 64).map fun i => BitVec.ofNat 8 (i + 2)

theorem crowd_nodup : crowd.Nodup := by decide +kernel

theorem crowd_length : crowd.length = NDP_MAX_NEIGHBORS := by decide +kernel

theorem crowded_crowd (hwaddr : HwAddr) : Crowded crowd ((boot hwaddr).run (.alloc 54 (fun _ => 0) :: crowd.flatMap outputTo)) := by
  have hstart : Crowded [] ((boot hwaddr).step (.alloc 54 fun _ => 0)) :=
    ⟨step_apart (apart_boot hwaddr) _, List.mem_singleton_self 0, ⟨_, rfl, rfl⟩, rfl, fun _ _ => nofun, fun _ => rfl⟩
  have hnodup : ([] ++ crowd).Nodup := crowd_nodup
  have hall := hstart.outputs hnodup (by rw [List.nil_append, crowd_length])
  rw [List.nil_append] at hall
  rw [run, Machine.run_cons]
  exact hall

/-- The packet for a neighbour that has no place in the cache is lost. -/
theorem crowded_out :
    ¬ ∀ (hwaddr : HwAddr) (pre es : List NdpEvent) (hop : In6Addr) (mac : HwAddr) (m : NdpMsg),
      ((boot hwaddr).run pre).Unresolved hop → Machine.Meets step (Quiet hop) ((boot hwaddr).run pre) es →
        (((boot hwaddr).run pre).queueOf hop).length + (Machine.trace step (packetTo hop) ((boot hwaddr).run pre) es).length ≤ MAX_QUEUE →
        m.target = hop → m.tlla = some mac →
        (((boot hwaddr).run pre).run (es ++ [.na m])).framesFor hop =
          ((boot hwaddr).run pre).framesFor hop ++ ((boot hwaddr).run pre).waiting hop mac ++
            Machine.trace step (direct hop mac) ((boot hwaddr).run pre) es := by
  intro h
  have hc := crowded_crowd netdevMac
  generalize NdpEvent.alloc 54 (fun _ => 0) :: crowd.flatMap outputTo = pre at hc
  obtain ⟨s, hs, -, hhop, hplaced, hv⟩ := hc.change 1
  have hnew : (1 : U8) ∉ crowd := by decide +kernel
  have hquiet : Machine.Meets step (Quiet (onLink 1)) ((boot netdevMac).run pre) (outputTo 1) := by
    refine ⟨trivial, fun _ t ht => ?_, trivial⟩
    rw [hs] at ht
    cases ht
    exact hplaced
  have hpackets : Machine.trace step (packetTo (onLink 1)) ((boot netdevMac).run pre) (outputTo 1) = [s] := by
    have hone := packetTo_output hv.held hs (onLink 1) fun _ => 0
    rw [if_pos hhop] at hone
    simp only [outputTo, Machine.trace, hone, List.append_nil]
    rfl
  have hdirect : Machine.trace step (direct (onLink 1) #v[0x02, 0, 0, 0, 0, 0x01]) ((boot netdevMac).run pre) (outputTo 1) ≠ [] := by
    have hone := direct_output hv.held hs (onLink 1) #v[0x02, 0, 0, 0, 0, 0x01] fun _ => 0
    rw [if_pos hhop] at hone
    simp only [outputTo, Machine.trace, hone, List.append_nil]
    exact List.cons_ne_nil _ _
  have hroom : (((boot netdevMac).run pre).queueOf (onLink 1)).length +
      (Machine.trace step (packetTo (onLink 1)) ((boot netdevMac).run pre) (outputTo 1)).length ≤ MAX_QUEUE := by
    rw [hpackets, queueOf, hc.absent hnew]
    show 0 + 1 ≤ 100
    decide
  have hfull : NDP_MAX_NEIGHBORS ≤ (((boot netdevMac).run pre).step (.change 0 (packetFor 1))).cache.length := by
    have hl := congrArg List.length hv.entries
    rw [List.length_map, List.length_map, crowd_length] at hl
    exact hl.ge
  have htarget : (Host6.naFlagged 0x60 (onLink 1)).target = onLink 1 := by decide +kernel
  have hlost := lost_without_entry hv.apart hv.held hs (hhop ▸ hv.absent hnew) hfull (fun _ => 0) (htarget.trans hhop.symm)
  rw [hhop, hv.frames] at hlost
  have heq := h netdevMac pre (outputTo 1) (onLink 1) #v[0x02, 0, 0, 0, 0, 0x01] (Host6.naFlagged 0x60 (onLink 1)) (hc.unresolved _)
    hquiet hroom htarget (by decide +kernel)
  exact hdirect (List.append_eq_nil_iff.mp (heq.symm.trans hlost)).2

end NdpWorld

end LevelIp
