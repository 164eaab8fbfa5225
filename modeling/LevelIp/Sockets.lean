/-
The socket list of `socket.c` with the calls that go through it: all TCP
sockets of the stack, each with its connection, the segments `socket_lookup`
hands to them, the children a listener forks and the accept queues they go to.

A socket is named by its place in the list; `socket_free` leaves the place and
takes the socket off the list. Code that still holds a pointer then reads freed
memory, and the process is taken to be over, as it is when NULL is
dereferenced.
-/
import LevelIp.Life

namespace LevelIp

/-! ## Addresses -/

/-- `addr_family`. -/
inductive Family where
  | inet | inet6
deriving DecidableEq

/-- The address a zeroed `struct sock` has. -/
def Family.zero : Family → Addr
  | .inet => .v4 0
  | .inet6 => .v6 0

/-- `sa_family`. -/
inductive SaFamily where
  | unspec | inet | inet6 | other
deriving DecidableEq

/-- A `struct sockaddr` with its length, as `sockaddr_in` and `sockaddr_in6`
read it; in host byte order. -/
structure SockAddr where
  family : SaFamily
  addr4 : U32 := 0
  addr6 : BitVec 128 := 0
  port : U16 := 0
  len : Nat := 28
deriving DecidableEq

/-- The addresses of a packet: where it comes from and whom it is for. -/
inductive Endpoints where
  | v4 (remote home : U32)
  | v6 (remote home : BitVec 128)
deriving DecidableEq

namespace Endpoints

def family : Endpoints → Family
  | .v4 _ _ => .inet
  | .v6 _ _ => .inet6

def remote : Endpoints → Addr
  | .v4 a _ => .v4 a
  | .v6 a _ => .v6 a

def home : Endpoints → Addr
  | .v4 _ a => .v4 a
  | .v6 _ a => .v6 a

end Endpoints

/-- What the IPv6 side has for a destination: the source address of the
interface `route6_lookup` finds, if it finds one, and the path MTU. -/
structure Net6 where
  source : BitVec 128 → Option (BitVec 128) := fun _ => none
  pmtu : BitVec 128 → U16 := fun _ => 1500

/-- `10.0.0.4`. -/
def lvlIpAddr : U32 := 0x0A000004

/-! ## The state -/

/-- `struct socket`. `dialing` is a `_connect` asleep on it, `accepting` the
`_accept`s asleep on it, `collector` says that `socket_delete` has set its
timer. `accepts` are the values its `_accept`s have returned. `connected` is a
mark for the proofs: `tcp_connect` ran on it, or a SYN made it. -/
structure Socket where
  pid : Nat
  fd : Int
  family : Family
  conn : Conn
  listed : Bool := true
  dialing : Bool := false
  collector : Bool := false
  connQueue : List Nat := []
  accepting : Nat := 0
  accepts : List Int := []
  connected : Bool := false
deriving DecidableEq

/-- The `struct sock` of a socket. -/
def Socket.sk (k : Socket) : TcpSock := k.conn.sk

/-- The stack: the sockets, the static counters of `alloc_socket` and
`generate_port`, the tick. `opened` is a mark for the proofs: the sockets that
went from SYN_RECEIVED to ESTABLISHED, in that order. -/
structure Host where
  sockets : List Socket := []
  fd : Int := 4097
  port : U32 := 40000
  tick : U32 := 0
  net : Net6 := {}
  opened : List Nat := []
  crashed : Bool := false

inductive HostEvent where
  | socket (pid : Nat) (family : Family)
  | bind (pid : Nat) (fd : Int) (addr : SockAddr)
  | listen (pid : Nat) (fd : Int) (n : Int)
  | connect (pid : Nat) (fd : Int) (addr : SockAddr) (iss : U32)
  | accept (pid : Nat) (fd : Int) (addrlen : Nat)
  | write (pid : Nat) (fd : Int) (buf : List U8)
  | read (pid : Nat) (fd : Int) (len : Nat)
  | close (pid : Nat) (fd : Int)
  | fcntl (pid : Nat) (fd : Int) (nonblock : Bool)
  /-- `tcp_in` or `tcp_in_v6`; `iss` is what `generate_iss` returns if it is asked. -/
  | arrives (ep : Endpoints) (th : Tcphdr) (data : Payload) (psh : Bool) (iss : U32)
  /-- The `n`th sleeping call of socket `i` gets the lock. -/
  | resume (i n : Nat)
  | acceptWakes (i : Nat)
  | connectWakes (i : Nat)
  | dispatch (i n : Nat)
  /-- The `n`th dispatched timer handler of socket `i` gets the lock. -/
  | handler (i n : Nat)
  /-- `socket_garbage_collect`. -/
  | collect (i : Nat)
  | tick (ms : U32)
  | adjustPmtu6 (daddr : BitVec 128) (pmtu : U16)
  /-- `abort_sockets`, which takes no lock, comes to socket `i`. -/
  | abort (i : Nat)
  /-- Addresses or routes of the IPv6 side change. -/
  | net6 (net : Net6)

/-! ## The lookups -/

/-- `tcp_sock_match_established`. -/
def tcpSockMatchEstablished (s : TcpSock) (ep : Endpoints) (remoteport localport : U16) : Bool :=
  s.state ≠ .listen && s.sport = localport && s.dport = remoteport && s.daddr = ep.remote && s.saddr = ep.home

/-- `tcp_sock_match_listener`. The address that may be unspecified is the
packet's, not the socket's. -/
def tcpSockMatchListener (s : TcpSock) (ep : Endpoints) (localport : U16) : Bool :=
  s.state = .listen && s.sport = localport && (ep.home = .v6 0 || s.saddr = ep.home)

namespace Host

/-- `get_socket`. -/
def getSocket (h : Host) (pid : Nat) (fd : Int) : Option Nat :=
  h.sockets.findIdx? fun k => k.listed && k.pid = pid && k.fd = fd

/-- `tcp_lookup_established`. -/
def tcpLookupEstablished (h : Host) (ep : Endpoints) (remoteport localport : U16) : Option Nat :=
  h.sockets.findIdx? fun k =>
    k.listed && k.family = ep.family && tcpSockMatchEstablished k.sk ep remoteport localport

/-- `tcp_lookup_listener`. -/
def tcpLookupListener (h : Host) (ep : Endpoints) (localport : U16) : Option Nat :=
  h.sockets.findIdx? fun k => k.listed && k.family = ep.family && tcpSockMatchListener k.sk ep localport

/-- `socket_lookup`. -/
def socketLookup (h : Host) (ep : Endpoints) (remoteport localport : U16) : Option Nat :=
  match h.tcpLookupEstablished ep remoteport localport with
  | some i => some i
  | none => h.tcpLookupListener ep localport

end Host

/-! ## Code that runs on one socket -/

def Effect.isXmit : Effect → Bool
  | .xmit _ _ => true
  | .queued _ _ _ | .peerFin | .wakeup _ | .acceptQueue _ => false

/-- The parent whose accept queue the socket is put on. -/
def Effect.parent? : Effect → Option Nat
  | .acceptQueue p => some p
  | .queued _ _ _ | .peerFin | .wakeup _ | .xmit _ _ => none

/-- The parents on whose queues a socket has been put. -/
def TcpSock.parents (s : TcpSock) : List Nat := s.fx.filterMap Effect.parent?

/-- A segment went to IP between `s` and `t`. -/
def transmits (s t : TcpSock) : Bool := (t.fx.drop s.fx.length).any Effect.isXmit

/-- The local address `ipv6_output_ex` writes back: the source it selects, if
the socket has none. -/
def Net6.writeBack (net : Net6) (saddr daddr : Addr) : Addr :=
  match saddr, daddr with
  | .v6 a, .v6 d => if a = 0 then .v6 ((net.source d).getD 0) else .v6 a
  | a, _ => a

/-- The socket `t`, which was `s`, with that address if it has sent a segment. -/
def sourced (net : Net6) (s t : TcpSock) : TcpSock :=
  if transmits s t then { t with saddr := net.writeBack t.saddr t.daddr } else t

/-- The socket went from SYN_RECEIVED to ESTABLISHED, or on to CLOSE_WAIT if
the same segment has a FIN. -/
def completes (s t : TcpSock) : Bool := s.state = .synReceived && (t.state = .established || t.state = .closeWait)

namespace Host

def update (h : Host) (i : Nat) (f : Socket → Socket) : Host := { h with sockets := h.sockets.modify i f }

/-- `add_tsk_to_parent_establied_conn_list` for socket `i`. -/
def addTskToParent (i : Nat) (h : Host) (p : Nat) : Host :=
  if (h.sockets[p]?).any (·.listed) then h.update p fun l => { l with connQueue := l.connQueue ++ [i] }
  else { h with crashed := true }

/-- Code has run on socket `i`, which was `k`, and leaves its connection as `c`. -/
def ran (h : Host) (i : Nat) (k : Socket) (c : Conn) : Host :=
  let sk := sourced h.net k.sk c.sk
  (sk.parents.drop k.sk.parents.length).foldl (addTskToParent i)
    { h with
      sockets := h.sockets.set i
        { k with conn := { c with sk := sk }, collector := k.collector || sk.sockState = .disconnecting }
      opened := if completes k.sk sk then h.opened ++ [i] else h.opened }

/-- Socket `i` takes a step of its own. -/
def stepSocket (h : Host) (i : Nat) (e : Event) : Host :=
  match h.sockets[i]? with
  | none => h
  | some k => h.ran i k (k.conn.step e)

/-- `alloc_socket` and the rest of `_socket`. -/
def addSocket (h : Host) (pid : Nat) (family : Family) (s : TcpSock) (connected : Bool) : Host :=
  if h.fd = 2 ^ 31 - 1 then { h with crashed := true }
  else
    { h with
      sockets := h.sockets ++ [{ pid := pid, fd := h.fd, family := family, conn := { sk := s }, connected := connected }]
      fd := h.fd + 1 }

/-- The socket `_socket` makes. -/
def emptySock (h : Host) (family : Family) : TcpSock :=
  { tcpAllocSock with saddr := family.zero, daddr := family.zero, tick := h.tick }

/-- `socket_free`. -/
def socketFree (h : Host) (i : Nat) : Host := h.update i fun k => { k with listed := false }

/-- `tcp_in` and `tcp_in_v6`. -/
def tcpIn (h : Host) (ep : Endpoints) (th : Tcphdr) (data : Payload) (psh : Bool) (iss : U32) : Host :=
  match h.socketLookup ep th.sport th.dport with
  | none => h
  | some i =>
    match h.sockets[i]? with
    | none => h
    | some k =>
      if k.sk.state = .listen then
        match tcpListen k.sk th { iss := iss, listener := i, saddr := ep.remote } with
        | none => h
        | some child => h.addSocket k.pid k.family (sourced h.net {} child) true
      else
        let c := k.conn.step (.segment th data psh)
        let h := h.ran i k c
        { h with crashed := h.crashed || (c.sk.fault && !k.sk.fault) }

/-! ## The calls -/

/-- The refusals of `inet6_stream_connect` and `inet_stream_connect` before
they look at the socket: -EINVAL or -EAFNOSUPPORT. -/
def connectRefused (k : Socket) (a : SockAddr) : Bool :=
  (k.family = .inet6 && a.family ≠ .inet6 && a.family ≠ .unspec) || a.len < 2 || a.family = .unspec

/-- `generate_port`, with `%` on `int`. -/
def generatePort (h : Host) : U16 := (h.port + 1 + h.tick.srem 10000).setWidth 16

/-- What `tcp_v4_connect` and `tcp_v6_connect` fill in. -/
def dest (h : Host) (family : Family) (a : SockAddr) : Dest :=
  match family with
  | .inet => { saddr := .v4 lvlIpAddr, daddr := .v4 a.addr4, sport := h.generatePort, dport := a.port }
  | .inet6 =>
    { saddr := .v6 0, daddr := .v6 a.addr6, sport := h.generatePort, dport := a.port
      mss := some (h.net.pmtu a.addr6 - 60) }

/-- The socket may be connected. -/
def connectable (k : Socket) : Bool := k.sk.sockState = .unconnected && k.sk.state = .close

/-- `tcp_v4_connect` and `tcp_v6_connect` with what follows them in
`inet_stream_connect`, which does not look at their result: a `tcp_v6_connect`
that refuses the length leaves the socket closed and CONNECTING. -/
def dial (h : Host) (i : Nat) (k : Socket) (a : SockAddr) (iss : U32) : Host :=
  if k.family = .inet6 ∧ a.len < 28 then
    h.update i fun k =>
      { k with conn := { k.conn with sk := { k.sk with sockState := .connecting, err := -EINPROGRESS } }
               dialing := !k.sk.nonblock }
  else
    ({ h with port := h.port + 1 }).ran i { k with connected := true, dialing := !k.sk.nonblock }
      { k.conn with sk := inetStreamConnect k.sk (h.dest k.family a) iss }

/-- `_connect` on socket `i`, to where it waits or returns. -/
def connect (h : Host) (i : Nat) (k : Socket) (a : SockAddr) (iss : U32) : Host :=
  if connectRefused k a then h.socketFree i
  else if connectable k then h.dial i k a iss
  else if k.sk.sockState = .disconnecting ∨ k.sk.sockState = .free then h.socketFree i
  else h.update i fun k => { k with conn := { k.conn with sk := inetStreamConnect k.sk {} iss } }

/-- The end of a `_connect` that has slept. -/
def connectWakes (h : Host) (i : Nat) (k : Socket) : Host :=
  if k.sk.sockState = .connecting ∧ k.sk.err = -EINPROGRESS then h
  else if k.sk.err = -EINVAL ∨ k.sk.err = -ECONNREFUSED ∨ k.sk.err = -ETIMEDOUT then
    h.update i fun k => { k with listed := false, dialing := false }
  else
    h.update i fun k =>
      { k with conn := { k.conn with sk := { k.sk with sockState := if k.sk.err = 0 then .connected else k.sk.sockState } }
               dialing := false }

/-- `inet_bind` and `inet6_bind` with `tcp_v4_bind` and `tcp_v6_bind`: the
address and port they set, if they get as far. -/
def bindTo (k : Socket) (a : SockAddr) : Option (Addr × U16) :=
  match k.family with
  | .inet =>
    if a.len < 2 ∨ a.family = .unspec ∨ (a.addr4 ≠ 0 ∧ a.addr4 ≠ lvlIpAddr) then none else some (.v4 a.addr4, a.port)
  | .inet6 => if a.len < 28 ∨ a.family ≠ .inet6 then none else some (.v6 a.addr6, a.port)

/-- `_bind` on socket `i`. -/
def bind (h : Host) (i : Nat) (k : Socket) (a : SockAddr) : Host :=
  match bindTo k a with
  | none => h
  | some (saddr, sport) =>
    h.update i fun k => { k with conn := { k.conn with sk := { k.sk with saddr := saddr, sport := sport } } }

/-- `_listen` on socket `i`; `tcp_v4_listen` starts an empty queue. -/
def listen (h : Host) (i : Nat) (k : Socket) (n : Int) : Host :=
  if n < 0 ∨ n > 100 ∨ k.sk.state ≠ .close then h
  else h.update i fun k => { k with conn := { k.conn with sk := tcpV4Listen k.sk }, connQueue := [] }

/-- An `_accept` on socket `i` returns `rc`. -/
def acceptReturns (h : Host) (i : Nat) (rc : Int) : Host := h.update i fun k => { k with accepts := k.accepts ++ [rc] }

/-- The end of `tcp_v4_accept`: the socket `get_socket` returns is
dereferenced without a check. -/
def accepted (h : Host) (i : Nat) (k : Socket) (fd : Int) : Host :=
  match h.getSocket k.pid fd with
  | none => { h with crashed := true }
  | some _ => h.acceptReturns i fd

/-- The `fd` of a socket; a `struct socket` is never freed. -/
def fdOf (h : Host) (i : Nat) : Int := (h.sockets[i]?).elim 0 (·.fd)

/-- A turn of the loop of `get_established_conn_fd`, and what follows it. -/
def acceptTurn (h : Host) (i : Nat) (k : Socket) : Host :=
  match k.connQueue with
  | child :: rest => (h.update i fun k => { k with connQueue := rest }).accepted i k (h.fdOf child)
  | [] => if k.sk.nonblock then h.accepted i k (-EAGAIN) else h.update i fun k => { k with accepting := k.accepting + 1 }

/-- `_accept` on socket `i`. -/
def accept (h : Host) (i : Nat) (k : Socket) (addrlen : Nat) : Host :=
  if addrlen < 2 then h.acceptReturns i (-EINVAL)
  else if k.sk.state ≠ .listen then h.acceptReturns i (-1)
  else h.acceptTurn i k

/-- `socket_adjust_pmtu6`, for one socket. -/
def adjustSocket (daddr : BitVec 128) (pmtu : U16) (k : Socket) : Socket :=
  if k.listed ∧ k.family = .inet6 ∧ k.sk.daddr = .v6 daddr then
    { k with conn := { k.conn with sk := Conn.adjustPmtu6 k.sk (pmtu - 60) } }
  else k

/-- A call by `pid` on `fd`: `run` if there is such a socket, else -EBADF. -/
def withSocket (h : Host) (pid : Nat) (fd : Int) (run : Nat → Socket → Host) : Host :=
  match h.getSocket pid fd with
  | none => h
  | some i =>
    match h.sockets[i]? with
    | none => h
    | some k => run i k

/-- Code that has slept on socket `i`, if `asleep`, goes on as `run` says. -/
def withSleeper (h : Host) (i : Nat) (asleep : Socket → Bool) (run : Socket → Host) : Host :=
  match h.sockets[i]? with
  | none => h
  | some k => if !asleep k then h else if k.listed then run k else { h with crashed := true }

/-- One event. -/
def step (h : Host) (e : HostEvent) : Host :=
  if h.crashed then h
  else
    match e with
    | .socket pid family => h.addSocket pid family (h.emptySock family) false
    | .bind pid fd a => h.withSocket pid fd fun i k => h.bind i k a
    | .listen pid fd n => h.withSocket pid fd fun i k => h.listen i k n
    | .connect pid fd a iss => h.withSocket pid fd fun i k => h.connect i k a iss
    | .accept pid fd addrlen => h.withSocket pid fd fun i k => h.accept i k addrlen
    | .write pid fd buf => h.withSocket pid fd fun i _ => h.stepSocket i (.write buf)
    | .read pid fd len => h.withSocket pid fd fun i _ => h.stepSocket i (.read len)
    | .close pid fd => h.withSocket pid fd fun i _ => h.stepSocket i .close
    | .fcntl pid fd nonblock => h.withSocket pid fd fun i _ => h.stepSocket i (.fcntl nonblock)
    | .arrives ep th data psh iss => h.tcpIn ep th data psh iss
    | .resume i n => h.withSleeper i (fun k => n < k.conn.calls.length) fun _ => h.stepSocket i (.resume n)
    | .acceptWakes i =>
      h.withSleeper i (fun k => 0 < k.accepting) fun k =>
        (h.update i fun k => { k with accepting := k.accepting - 1 }).acceptTurn i k
    | .connectWakes i => h.withSleeper i (·.dialing) fun k => h.connectWakes i k
    | .dispatch i n => h.stepSocket i (.dispatch n)
    | .handler i n => h.withSleeper i (fun k => n < k.sk.spawned.length) fun _ => h.stepSocket i (.handler n)
    | .collect i => if (h.sockets[i]?).any (·.collector) then h.socketFree i else h
    | .tick ms =>
      { h with
        tick := h.tick + ms
        sockets := h.sockets.map fun k => { k with conn := k.conn.step (.tick ms) } }
    | .adjustPmtu6 daddr pmtu => { h with sockets := h.sockets.map (adjustSocket daddr pmtu) }
    | .abort i => if (h.sockets[i]?).any (·.listed) then h.stepSocket i .abort else h
    | .net6 net => { h with net := net }

abbrev run (h : Host) (es : List HostEvent) : Host := Machine.run step h es

end Host

end LevelIp
