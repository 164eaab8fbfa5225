/-
`ipv6_addrconf.c`: the IPv6 addresses of the device, duplicate address
detection and the lifetimes of the advertised prefix; with the parts of
`route.c`, `ndp.c` and `ipv6_output.c` that share its state.

There is one device, `netdev`; the other one, `loop`, has no IPv6 address and
no function here is called with it. `malloc` and `alloc_skb` succeed.
-/
import LevelIp.Timers

namespace LevelIp

/-- `struct in6_addr`. -/
abbrev In6Addr := Vector U8 16

/-- A MAC address. -/
abbrev HwAddr := Vector U8 6

/-- A field that begins with `bytes` and is 0 after them. -/
def fieldOf {n : Nat} (bytes : List U8) : Vector U8 n := Vector.ofFn fun i => bytes.getD i 0

def in6Unspecified : In6Addr := Vector.replicate 16 0

/-- `ADDR6_TENTATIVE` and its kin. -/
inductive Addr6State where
  | tentative
  | preferred
  | deprecated
  | invalid
deriving DecidableEq, Repr

def DAD_TIMEOUT_MS : U32 := 1000

def infiniteLifetime : U32 := 0xffffffff

/-- The fields of `struct netdev` that IPv6 uses; the timers are addresses. -/
structure Netdev where
  hwaddr : HwAddr
  addr6Ll : In6Addr := in6Unspecified
  addr6Global : In6Addr := in6Unspecified
  prefixLen : U8 := 0
  addr6GlobalValid : Bool := false
  addr6LlState : Addr6State := .tentative
  addr6GlobalState : Addr6State := .tentative
  addr6ValidLifetime : U32 := 0
  addr6PreferredLifetime : U32 := 0
  addr6PrefTimer : Option Nat := none
  addr6ValidTimer : Option Nat := none
deriving DecidableEq

/-- Which address of the device. -/
inductive AddrSlot where
  | ll
  | global
deriving DecidableEq, Repr

namespace Netdev

/-- The address in a slot. -/
def addr (d : Netdev) : AddrSlot → In6Addr
  | .ll => d.addr6Ll
  | .global => d.addr6Global

/-- The state of a slot. -/
def stateOf (d : Netdev) : AddrSlot → Addr6State
  | .ll => d.addr6LlState
  | .global => d.addr6GlobalState

/-- `*state_ptr = st`. -/
def setState (d : Netdev) : AddrSlot → Addr6State → Netdev
  | .ll, st => { d with addr6LlState := st }
  | .global, st => { d with addr6GlobalState := st }

@[simp] theorem addr_setState (d : Netdev) (x y : AddrSlot) (st : Addr6State) : (d.setState x st).addr y = d.addr y := by
  cases x <;> cases y <;> rfl

@[simp] theorem stateOf_setState (d : Netdev) (x : AddrSlot) (st : Addr6State) : (d.setState x st).stateOf x = st := by
  cases x <;> rfl

theorem stateOf_setState_ne {d : Netdev} {x y : AddrSlot} (h : y ≠ x) (st : Addr6State) :
    (d.setState x st).stateOf y = d.stateOf y := by
  cases x <;> cases y <;> first | rfl | exact absurd rfl h

@[simp] theorem setState_global_valid (d : Netdev) (x : AddrSlot) (st : Addr6State) :
    (d.setState x st).addr6GlobalValid = d.addr6GlobalValid := by
  cases x <;> rfl

end Netdev

/-- A detection that has been started: for the address in `slot`, at time
`since`. -/
structure Detection where
  slot : AddrSlot
  since : Nat
deriving DecidableEq

/-- The timer callbacks of `ipv6_addrconf.c`. `dad_timeout` gets NULL for its
argument and knows nothing of the detection it was set for; that is a mark for
the proofs, which no function reads. -/
inductive Handler6 where
  | dadTimeout (mark : Detection)
  | preferredExpired
  | validExpired
deriving DecidableEq

/-- `struct dad_ctx`, whose `dev` is always `netdev`. -/
structure DadCtx where
  target : In6Addr := in6Unspecified
  statePtr : Option AddrSlot := none
deriving DecidableEq

def RT_GATEWAY : U8 := 0x02
def RT_HOST : U8 := 0x04

/-- An `AF_INET6` entry of the route list. -/
structure Route6 where
  dst : In6Addr
  gateway : In6Addr
  prefixLen : U8
  flags : U8
  metric : U32
  pmtu : U16 := 0
deriving DecidableEq

/-- The packets handed to the link, or to a neighbour's queue. -/
inductive Sent6 where
  | ns (target src : In6Addr)
  | rs (src : In6Addr)
  | na (target src dst : In6Addr)
  /-- From `ipv6_output_ex`; `auto`: it chose the source itself. -/
  | packet (auto : Bool) (src dst : In6Addr) (nexthdr : U8)
deriving DecidableEq

def NDP_MAX_NEIGHBORS : Nat := 64
def MAX_QUEUE : Nat := 100

/-- The states of a `struct ndp_entry` that the code sets. -/
inductive NdpState where
  | incomplete
  | reachable
  | stale
deriving DecidableEq

/-- `struct ndp_entry`. -/
structure NdpEntry where
  ip6 : In6Addr
  hwaddr : HwAddr := Vector.replicate 6 0
  state : NdpState := .incomplete
  stateTimestamp : U32
  solicitCount : U8 := 0
  queue : List Sent6 := []
deriving DecidableEq

/-- The IPv6 side of the host: the device, the one detection context and
`dad_done`, the timers, the heap copies of the device the lifetime timers were
given (a copy's address is its index), the routes and the neighbour cache.
`routes` are the IPv6 entries of the list; the others are skipped wherever
IPv6 looks. `sent` logs what leaves. -/
structure Host6 where
  dev : Netdev
  dadCtx : DadCtx := {}
  dadDone : Bool := false
  base : TimerBase Handler6 Nat := {}
  copies : List Netdev := []
  routes : List Route6 := []
  ndpCache : List NdpEntry := []
  sent : List Sent6 := []
deriving DecidableEq

namespace Host6

def transmit (h : Host6) (p : Sent6) : Host6 := { h with sent := h.sent ++ [p] }

/-- `route6_add`, the gateway NULL or not. -/
def route6Add (h : Host6) (dst : In6Addr) (gateway : Option In6Addr) (prefixLen flags : U8) (metric : U32) : Host6 :=
  { h with
    routes := h.routes ++
      [{ dst := dst, gateway := gateway.getD in6Unspecified, prefixLen := prefixLen, flags := flags, metric := metric }] }

/-- `route6_add_default`. -/
def route6AddDefault (h : Host6) (gateway : In6Addr) (flags : U8) (metric : U32) : Host6 :=
  h.route6Add in6Unspecified (some gateway) 0 flags metric

/-- `ndp_send_ns`. -/
def ndpSendNs (h : Host6) (target src : In6Addr) : Host6 := h.transmit (.ns target src)

/-- `ndp_send_rs`. -/
def ndpSendRs (h : Host6) (src : In6Addr) : Host6 := h.transmit (.rs src)

end Host6

/-- `ipv6_generate_linklocal`. -/
def ipv6GenerateLinklocal (hw : HwAddr) : In6Addr :=
  #v[0xfe, 0x80, 0, 0, 0, 0, 0, 0, hw[0] ^^^ 0x02, hw[1], hw[2], 0xff, 0xfe, hw[3], hw[4], hw[5]]

/-- The address of `ipv6_addrconf_update_lifetime`: the upper half of the
prefix over the interface identifier. -/
def globalAddr (pre : In6Addr) (hw : HwAddr) : In6Addr :=
  Vector.ofFn fun i => if i.val < 8 then pre[i] else (ipv6GenerateLinklocal hw)[i]

namespace Host6

/-- `ipv6_addrconf_dad_failed`. A NULL `state_ptr` would crash; `state_ptr` is
set at start-up, before any packet is read. -/
def ipv6AddrconfDadFailed (h : Host6) (_target : In6Addr) : Host6 :=
  if h.dadDone then h
  else
    let h := { h with dadDone := true }
    match h.dadCtx.statePtr with
    | none => h
    | some x => if h.dev.stateOf x = .tentative then { h with dev := h.dev.setState x .invalid } else h

/-- `dad_timeout`. -/
def dadTimeout (h : Host6) : Host6 :=
  if h.dadDone then h
  else
    let h := { h with dadDone := true }
    match h.dadCtx.statePtr with
    | none => h
    | some x => if h.dev.stateOf x = .tentative then { h with dev := h.dev.setState x .preferred } else h

/-- The `state_ptr` that `ipv6_dad_start` picks. -/
def dadSlot (h : Host6) (addr : In6Addr) : AddrSlot := if addr = h.dev.addr6Ll then .ll else .global

/-- `ipv6_dad_start`; `slot` says which address of the device `addr` is, for
the mark alone. -/
def ipv6DadStart (h : Host6) (slot : AddrSlot) (addr : In6Addr) : Host6 :=
  let h := { h with dadDone := false, dadCtx := { target := addr, statePtr := some (h.dadSlot addr) } }
  let h := h.ndpSendNs addr in6Unspecified
  { h with base := h.base.timerOneshot DAD_TIMEOUT_MS (.dadTimeout ⟨slot, h.base.clock⟩) none }

/-- `addr6_preferred_expired`, on the device its argument points to. -/
def addr6PreferredExpired (d : Netdev) : Netdev :=
  if d.addr6GlobalState = .preferred then { d with addr6GlobalState := .deprecated, addr6PrefTimer := none } else d

/-- `addr6_valid_expired`, on the device its argument points to. -/
def addr6ValidExpired (d : Netdev) : Netdev :=
  { d with addr6GlobalState := .invalid, addr6GlobalValid := false, addr6ValidTimer := none }

/-- Cancel the old timer, copy the device and set a timer that gets the copy. -/
def armLifetime (h : Host6) (old : Option Nat) (lifetime : U32) (handler : Handler6) : Host6 :=
  let h := { h with base := h.base.timerCancel old }
  { h with
    copies := h.copies ++ [h.dev]
    base := h.base.timerAddWithRelease (lifetime * 1000) handler (some h.copies.length) true }

/-- The block for the preferred lifetime. -/
def armPreferred (h : Host6) (preferredLt : U32) : Host6 :=
  if 0 < preferredLt ∧ preferredLt ≠ infiniteLifetime then
    let t := h.armLifetime h.dev.addr6PrefTimer preferredLt .preferredExpired
    { t with dev := { t.dev with addr6PrefTimer := some h.base.nextId } }
  else h

/-- The block for the valid lifetime. -/
def armValid (h : Host6) (validLt : U32) : Host6 :=
  if 0 < validLt ∧ validLt ≠ infiniteLifetime then
    let t := h.armLifetime h.dev.addr6ValidTimer validLt .validExpired
    { t with dev := { t.dev with addr6ValidTimer := some h.base.nextId } }
  else h

/-- The new global address and its detection. -/
def configureGlobal (h : Host6) (pre : In6Addr) : Host6 :=
  let global := globalAddr pre h.dev.hwaddr
  let h := { h with
    dev := { h.dev with addr6Global := global, addr6GlobalState := .tentative, addr6GlobalValid := true } }
  h.ipv6DadStart .global global

/-- `ipv6_addrconf_update_lifetime`. -/
def ipv6AddrconfUpdateLifetime (h : Host6) (pre : In6Addr) (prefixLen : U8) (validLt preferredLt : U32) : Host6 :=
  if prefixLen ≠ 64 then h
  else
    let h := h.configureGlobal pre
    let h := { h with
      dev := { h.dev with addr6ValidLifetime := validLt, addr6PreferredLifetime := preferredLt } }
    (h.armPreferred preferredLt).armValid validLt

/-- `fe80::`. -/
def llPrefix : In6Addr := #v[0xfe, 0x80, 0, 0, 0, 0, 0, 0, 0, 0, 0, 0, 0, 0, 0, 0]

/-- `ipv6_addrconf_init`. -/
def ipv6AddrconfInit (h : Host6) : Host6 :=
  let ll := ipv6GenerateLinklocal h.dev.hwaddr
  let h := { h with dev := { h.dev with addr6Ll := ll, addr6LlState := .tentative } }
  let h := h.route6Add llPrefix none 10 RT_HOST 0
  let h := h.ipv6DadStart .ll ll
  h.ndpSendRs ll

/-- A dispatched handler runs; what `addr6_timer_arg_free` frees is never read
again, so a copy stays where it is. -/
def runHandler6 (h : Host6) (handler : Handler6) (arg : Option Nat) : Host6 :=
  match handler, arg with
  | .dadTimeout _, _ => h.dadTimeout
  | .preferredExpired, some c => { h with copies := h.copies.modify c addr6PreferredExpired }
  | .validExpired, some c => { h with copies := h.copies.modify c addr6ValidExpired }
  | _, none => h

/-- The `i`th dispatched handler runs. -/
def runThread (h : Host6) (i : Nat) : Host6 :=
  match h.base.threads[i]? with
  | none => h
  | some (handler, arg) =>
    { h with base := { h.base with threads := h.base.threads.eraseIdx i } }.runHandler6 handler arg

end Host6

/-- The MAC address of `netdev_init`. -/
def netdevMac : HwAddr := #v[0x00, 0x0c, 0x29, 0x6d, 0x50, 0x25]

/-- A host at start-up: `netdev_init` clears the device, and `init_stack` runs
`ipv6_addrconf_init` before the threads start. -/
def bootHost6 (hw : HwAddr) : Host6 := Host6.ipv6AddrconfInit { dev := { hwaddr := hw } }

end LevelIp
