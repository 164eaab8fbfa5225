/-
`ndp.c`, `dst6_neigh_output`, `route6_lookup` and the source selection of
`ipv6_output_ex`: the messages that drive the address configuration, and the
packets that use its addresses.

A message comes with the bytes of its ICMPv6 part. The buffer behind a short
one is zero, as `alloc_skb` left it. Its checksum has been verified.
-/
import LevelIp.Addrconf
import LevelIp.TcpOpts
import LevelIp.Lib.Machine

namespace LevelIp

/-! ## Messages -/

def ICMPV6_ROUTER_ADVERT : U8 := 134
def ICMPV6_NEIGHBOR_SOLICIT : U8 := 135
def ICMPV6_NEIGHBOR_ADVERT : U8 := 136

def NDP_OPT_TLLA : U8 := 2
def NDP_OPT_PREFIX : U8 := 3

/-- An ICMPv6 message with the fields of its IPv6 header. -/
structure NdpMsg where
  hopLimit : U8
  saddr : In6Addr
  daddr : In6Addr
  payloadLen : U16
  bytes : List U8
deriving DecidableEq

/-- The address at byte `i`. -/
def in6At (bytes : List U8) (i : Nat) : In6Addr := Vector.ofFn fun k => bytes.getD (i + k.val) 0

/-- The MAC address at byte `i`. -/
def hwAt (bytes : List U8) (i : Nat) : HwAddr := Vector.ofFn fun k => bytes.getD (i + k.val) 0

/-- `ntohs` of the two bytes at `i`. -/
def be16 (data : List U8) (i : Nat) : U16 :=
  ((data.getD i 0).setWidth 16 <<< 8) ||| (data.getD (i + 1) 0).setWidth 16

namespace NdpMsg

def type (m : NdpMsg) : U8 := m.bytes.getD 0 0

/-- `router_lifetime` of an RA. -/
def routerLifetime (m : NdpMsg) : U16 := be16 m.bytes 6

/-- `target` of an NS or an NA. -/
def target (m : NdpMsg) : In6Addr := in6At m.bytes 8

/-- `GET_NA_S` and `GET_NA_O`. -/
def flagS (m : NdpMsg) : Bool := (m.bytes.getD 4 0).getLsbD 6
def flagO (m : NdpMsg) : Bool := (m.bytes.getD 4 0).getLsbD 5

end NdpMsg

/-- The fields of a Prefix Information option that are read. -/
structure PrefixOpt where
  prefixLen : U8
  validLifetime : U32
  preferredLifetime : U32
  pre : In6Addr
deriving DecidableEq

/-- The option loop of `ndp_ra_process`: the prefix options it acts on. Every
turn takes eight bytes or more, so `optlen` turns are enough. -/
def raPrefixes : (fuel : Nat) → (opt : List U8) → (optlen : Int) → List PrefixOpt
  | 0, _, _ => []
  | fuel + 1, opt, optlen =>
    let skip := (opt.getD 1 0).toNat * 8
    if optlen < 8 ∨ skip = 0 ∨ skip > optlen then []
    else
      let rest := raPrefixes fuel (opt.drop skip) (optlen - skip)
      if opt.getD 0 0 = NDP_OPT_PREFIX ∧ opt.getD 1 0 = 4 then
        { prefixLen := opt.getD 2 0, validLifetime := be32 opt 4, preferredLifetime := be32 opt 8, pre := in6At opt 16 } :: rest
      else rest

/-- The option loop of `ndp_na_process`: the last Target Link-Layer Address. -/
def naTlla : (fuel : Nat) → (opt : List U8) → (optlen : Int) → Option HwAddr → Option HwAddr
  | 0, _, _, found => found
  | fuel + 1, opt, optlen, found =>
    if optlen < 8 then found
    else
      let found := if opt.getD 0 0 = NDP_OPT_TLLA ∧ opt.getD 1 0 = 1 then some (hwAt opt 2) else found
      let skip := (opt.getD 1 0).toNat * 8
      if skip = 0 then found else naTlla fuel (opt.drop skip) (optlen - skip) found

namespace NdpMsg

/-- The prefixes of an RA. -/
def prefixes (m : NdpMsg) : List PrefixOpt :=
  raPrefixes m.payloadLen.toNat (m.bytes.drop 16) (m.payloadLen.toNat - 16 : Int)

/-- The link-layer address of an NA. -/
def tlla (m : NdpMsg) : Option HwAddr :=
  naTlla m.payloadLen.toNat (m.bytes.drop 24) (m.payloadLen.toNat - 24 : Int) none

end NdpMsg

/-! ## Routes and neighbours -/

/-- The bits of `route6_lookup`. -/
def Route6.covers (r : Route6) (daddr : In6Addr) : Bool :=
  let bytes := r.prefixLen.toNat / 8
  let bits := r.prefixLen.toNat % 8
  let mask : U8 := 0xFF <<< (8 - bits)
  (List.range bytes).all (fun i => daddr.toList.getD i 0 == r.dst.toList.getD i 0) &&
    (bits == 0 || 16 ≤ bytes || daddr.toList.getD bytes 0 &&& mask == r.dst.toList.getD bytes 0 &&& mask)

/-- The turn of a route in `route6_lookup`. -/
def route6Better (daddr : In6Addr) (best : Option Route6) (r : Route6) : Option Route6 :=
  if r.covers daddr then
    match best with
    | none => some r
    | some b => if b.prefixLen < r.prefixLen then some r else some b
  else best

/-- The source `ipv6_output_ex` fills in, and whether it chose it itself; it
also writes it back to `saddr`. -/
def Netdev.selectSource (d : Netdev) : Option In6Addr → Bool × In6Addr
  | some a => if a = in6Unspecified then (true, if d.addr6GlobalValid then d.addr6Global else d.addr6Ll) else (false, a)
  | none => (true, if d.addr6GlobalValid then d.addr6Global else d.addr6Ll)

/-- `ff02::1`. -/
def allNodes : In6Addr := #v[0xff, 0x02, 0, 0, 0, 0, 0, 0, 0, 0, 0, 0, 0, 0, 0, 0x01]

namespace Host6

/-- `route6_lookup`. -/
def route6Lookup (h : Host6) (daddr : In6Addr) : Option Route6 := h.routes.foldl (route6Better daddr) none

/-- The index `ndp_lookup` stops at. -/
def ndpIdx (h : Host6) (ip6 : In6Addr) : Nat := h.ndpCache.findIdx fun e => e.ip6 = ip6

/-- `ndp_lookup`. -/
def ndpLookup (h : Host6) (ip6 : In6Addr) : Option NdpEntry := h.ndpCache[h.ndpIdx ip6]?

/-- `ndp_get_hwaddr`. -/
def ndpGetHwaddr (h : Host6) (ip6 : In6Addr) : Option HwAddr :=
  (h.ndpCache.find? fun e => e.ip6 = ip6 ∧ e.state = .reachable).map (·.hwaddr)

/-- `ndp_entry_alloc`, NULL when the cache is full. -/
def ndpEntryAlloc (h : Host6) (ip6 : In6Addr) : Host6 :=
  if NDP_MAX_NEIGHBORS ≤ h.ndpCache.length then h
  else { h with ndpCache := h.ndpCache ++ [{ ip6 := ip6, stateTimestamp := h.base.tick }] }

/-- `ndp_queue_skb`: a copy of the packet waits at the entry. -/
def ndpQueueSkb (h : Host6) (ip6 : In6Addr) (p : Sent6) : Host6 :=
  { h with
    ndpCache := h.ndpCache.modify (h.ndpIdx ip6) fun e =>
      if MAX_QUEUE ≤ e.queue.length then e else { e with queue := e.queue ++ [p] } }

/-- `dst6_neigh_output`. -/
def dst6NeighOutput (h : Host6) (rt : Route6) (src daddr : In6Addr) (p : Sent6) : Host6 :=
  let nextHop := if rt.flags &&& RT_GATEWAY ≠ 0 then rt.gateway else daddr
  match h.ndpGetHwaddr nextHop with
  | some _ => h.transmit p
  | none =>
    let h := h.ndpSendNs nextHop src
    let h := if (h.ndpLookup nextHop).isNone then h.ndpEntryAlloc nextHop else h
    h.ndpQueueSkb nextHop p

/-- The packet `ipv6_output_ex` builds; none when there is no route. -/
def ipv6Packet (h : Host6) (saddr : Option In6Addr) (daddr : In6Addr) (nexthdr : U8) : Option Sent6 :=
  (h.route6Lookup daddr).map fun _ =>
    .packet (h.dev.selectSource saddr).1 (h.dev.selectSource saddr).2 daddr nexthdr

/-- `ipv6_output_ex`. -/
def ipv6OutputEx (h : Host6) (saddr : Option In6Addr) (daddr : In6Addr) (nexthdr : U8) : Host6 :=
  match h.route6Lookup daddr, h.ipv6Packet saddr daddr nexthdr with
  | some rt, some p => h.dst6NeighOutput rt (h.dev.selectSource saddr).2 daddr p
  | _, _ => h

/-! ## The message handlers -/

/-- What `ndp_ra_process` does with a prefix option. -/
def raPrefix (h : Host6) (p : PrefixOpt) : Host6 :=
  { h with dev := { h.dev with prefixLen := p.prefixLen } }.ipv6AddrconfUpdateLifetime
    p.pre p.prefixLen p.validLifetime p.preferredLifetime

/-- `ndp_ra_process`. -/
def ndpRaProcess (h : Host6) (m : NdpMsg) : Host6 :=
  (m.prefixes.foldl raPrefix h).route6AddDefault m.saddr RT_GATEWAY 0

/-- What an NA does to the entry of its target, and what is sent then. -/
def naEntry (h : Host6) (m : NdpMsg) (tlla : HwAddr) (e : NdpEntry) : NdpEntry :=
  match e.state with
  | .incomplete =>
    -- `ndp_flush_queue` empties the queue
    { e with hwaddr := tlla, state := .reachable, stateTimestamp := h.base.tick, solicitCount := 0, queue := [] }
  | _ =>
    let e := if m.flagO ∨ e.hwaddr ≠ tlla then { e with hwaddr := tlla } else e
    let e :=
      if m.flagS then { e with state := .reachable }
      else if m.flagO ∨ e.hwaddr ≠ tlla then { e with state := .stale }
      else e
    { e with stateTimestamp := h.base.tick }

/-- The packets an NA releases. -/
def naFlush (h : Host6) (m : NdpMsg) : List Sent6 :=
  match h.ndpLookup m.target with
  | some e => if e.state = .incomplete then e.queue else []
  | none => []

/-- `ndp_na_process`. -/
def ndpNaProcess (h : Host6) (m : NdpMsg) : Host6 :=
  match m.tlla with
  | none => h
  | some tlla =>
    let h := { h with
      ndpCache := h.ndpCache.modify (h.ndpIdx m.target) (h.naEntry m tlla)
      sent := h.sent ++ h.naFlush m }
    if m.saddr = in6Unspecified then h.ipv6AddrconfDadFailed m.target else h

/-- `is_ours` of `ndp_ns_process`. -/
def isOurs (h : Host6) (target : In6Addr) : Bool :=
  target = h.dev.addr6Ll || (h.dev.addr6GlobalValid && target = h.dev.addr6Global)

/-- The reply of `ndp_ns_process`. -/
def naReply (h : Host6) (m : NdpMsg) : Option Sent6 :=
  if h.isOurs m.target then
    some (.na m.target m.target (if m.saddr = in6Unspecified then allNodes else m.saddr))
  else none

/-- `ndp_ns_process`. -/
def ndpNsProcess (h : Host6) (m : NdpMsg) : Host6 := { h with sent := h.sent ++ (h.naReply m).toList }

/-- `ndp_incoming`. -/
def ndpIncoming (h : Host6) (m : NdpMsg) : Host6 :=
  if m.hopLimit ≠ 255 then h
  else if m.type = ICMPV6_ROUTER_ADVERT then h.ndpRaProcess m
  else if m.type = ICMPV6_NEIGHBOR_SOLICIT then h.ndpNsProcess m
  else if m.type = ICMPV6_NEIGHBOR_ADVERT then h.ndpNaProcess m
  else h

end Host6

/-! ## The host as a machine -/

/-- What happens to the address configuration. A received message is one event
or several (`NdpMsg.events`): the callbacks run on threads of their own and may
come between two prefix options. -/
inductive AddrEvent where
  /-- `ipv6_addrconf_init`. -/
  | init
  /-- `ndp_ra_process` acts on a prefix option. -/
  | raPrefix (p : PrefixOpt)
  /-- `ndp_ra_process` adds the default route. -/
  | raRoute (gateway : In6Addr)
  | na (m : NdpMsg)
  | ns (m : NdpMsg)
  /-- A round of `timers_start`; `held` are the timers locked by others. -/
  | tick (held : List Nat)
  /-- The `i`th dispatched handler runs. -/
  | thread (i : Nat)
  /-- `ipv6_output_ex`. -/
  | output (saddr : Option In6Addr) (daddr : In6Addr) (nexthdr : U8)
deriving DecidableEq

/-- The events of a message that `ndp_incoming` is given. -/
def NdpMsg.events (m : NdpMsg) : List AddrEvent :=
  if m.hopLimit ≠ 255 then []
  else if m.type = ICMPV6_ROUTER_ADVERT then m.prefixes.map .raPrefix ++ [.raRoute m.saddr]
  else if m.type = ICMPV6_NEIGHBOR_SOLICIT then [.ns m]
  else if m.type = ICMPV6_NEIGHBOR_ADVERT then [.na m]
  else []

namespace Host6

def step (h : Host6) : AddrEvent → Host6
  | .init => h.ipv6AddrconfInit
  | .raPrefix p => h.raPrefix p
  | .raRoute gateway => h.route6AddDefault gateway RT_GATEWAY 0
  | .na m => h.ndpNaProcess m
  | .ns m => h.ndpNsProcess m
  | .tick held => { h with base := h.base.timersStart held }
  | .thread i => h.runThread i
  | .output saddr daddr nexthdr => h.ipv6OutputEx saddr daddr nexthdr

abbrev run (h : Host6) (es : List AddrEvent) : Host6 := Machine.run step h es

theorem run_raPrefix (h : Host6) (ps : List PrefixOpt) :
    Machine.run step h (ps.map .raPrefix) = ps.foldl raPrefix h := by
  induction ps generalizing h with
  | nil => rfl
  | cons p ps ih => exact ih _

/-- `ndp_incoming` does what the events of its message do. -/
theorem ndpIncoming_run (h : Host6) (m : NdpMsg) : h.ndpIncoming m = h.run m.events := by
  unfold ndpIncoming NdpMsg.events
  split
  · rfl
  split
  · rw [run, Machine.run_append, run_raPrefix]
    rfl
  split
  · rfl
  split
  · rfl
  · rfl

end Host6

end LevelIp
