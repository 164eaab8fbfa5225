/-
`struct sk_buff` as an object: who allocates, links and frees one. The queues
of `skbuff.h`, the output paths down to the link (`ip_output`, `ipv6_output_ex`,
`dst_neigh_output`, `dst6_neigh_output`, `ndp_queue_skb`) and every function
that hands them an skb or moves one between queues.

What the other modules say of TCP is not repeated: the counters a function
reads here (`snd_nxt`, `rcv_nxt`, the window) are its arguments, and an event
may give them any value. A sender that sleeps in `tcp_wait_snd_wnd` holds its
skb in `waiting`.
-/
import LevelIp.Lib.Heap
import LevelIp.Ndp
import LevelIp.TcpData

namespace LevelIp

/-! ## skbs and queues -/

/-- A pointer to a `struct sk_buff`: which allocation it came from, the
reference count, and what TCP uses of the rest. -/
structure SkBuff where
  id : Nat
  refcnt : Int := 0
  data : Skb
deriving DecidableEq

/-- `struct sk_buff_head`. -/
structure SkbHead where
  skbs : List SkBuff := []
  maxQ : U32 := 100
  qlen : U32 := 0
deriving DecidableEq

namespace SkbHead

/-- `skb_queue_empty`. -/
def empty (q : SkbHead) : Bool := q.qlen < 1

/-- `skb_peek`. -/
def peek (q : SkbHead) : Option SkBuff := if q.empty then none else q.skbs.head?

/-- `skb_queue_tail`. -/
def tail (q : SkbHead) (b : SkBuff) : SkbHead := { q with skbs := q.skbs ++ [b], qlen := q.qlen + 1 }

/-- `skb_queue_add` before the element at `i`. -/
def add (q : SkbHead) (b : SkBuff) (i : Nat) : SkbHead := { q with skbs := q.skbs.insertIdx i b, qlen := q.qlen + 1 }

/-- `skb_dequeue`, `k` times. -/
def dequeue (q : SkbHead) (k : Nat) : SkbHead := { q with skbs := q.skbs.drop k, qlen := q.qlen - BitVec.ofNat 32 k }

/-- How often `while ((skb = skb_peek(q)) != NULL && p(skb)) skb_dequeue(q)`
dequeues. -/
def turns (p : SkBuff → Bool) : (skbs : List SkBuff) → (qlen : U32) → Nat
  | [], _ => 0
  | b :: rest, qlen => if qlen < 1 || !p b then 0 else turns p rest (qlen - 1) + 1

/-- The same for the loop of `tcp_consume_ofo_queue`, which moves `rcv_nxt`. -/
def ofoTurns : (rcvNxt : U32) → (skbs : List SkBuff) → (qlen : U32) → Nat
  | _, [], _ => 0
  | rcvNxt, b :: rest, qlen =>
    if qlen < 1 || rcvNxt != b.data.seq then 0 else ofoTurns (rcvNxt + b.data.dlen) rest (qlen - 1) + 1

/-- The same for the loop of `tcp_data_dequeue`: the skbs eaten, and the room
left in the buffer then. -/
def eatTurns : (room : Nat) → (skbs : List SkBuff) → (qlen : U32) → Nat × Nat
  | room, [], _ => (0, room)
  | room, b :: rest, qlen =>
    if qlen < 1 || room = 0 || room < b.data.payload.bytes.length then (0, room)
    else
      let (k, left) := eatTurns (room - b.data.payload.bytes.length) rest (qlen - 1)
      (k + 1, left)

/-- Where `tcp_data_insert_ordered` puts an skb, none if it is there already. -/
def insertPos (seq endSeq : U32) : List SkBuff → Option Nat
  | [] => some 0
  | next :: rest =>
    if seq < next.data.seq then
      if endSeq > next.data.seq then (insertPos seq endSeq rest).map (· + 1) else some 0
    else if seq = next.data.seq then none
    else (insertPos seq endSeq rest).map (· + 1)

end SkbHead

/-! ## The host -/

/-- `addr_family` and `daddr`. -/
inductive PeerAddr where
  | v4 (a : U32)
  | v6 (a : In6Addr)
deriving DecidableEq

/-- A `struct sock` with its queues; a UDP socket uses one of them. -/
structure SkbSock where
  daddr : PeerAddr
  receiveQueue : SkbHead := {}
  writeQueue : SkbHead := {}
  ofoQueue : SkbHead := {}
deriving DecidableEq

/-- An `AF_INET` entry of the route list. -/
structure Route4 where
  dst : U32
  gateway : U32
  netmask : U32
  flags : U8
deriving DecidableEq

/-- `struct rtentry`: both families are on one list. -/
inductive RtEntry where
  | v4 (r : Route4)
  | v6 (r : Route6)
deriving DecidableEq

namespace RtEntry

def flags : RtEntry → U8
  | v4 r => r.flags
  | v6 r => r.flags

/-- `rt->gateway.v4`. -/
def gateway4 : RtEntry → U32
  | v4 r => r.gateway
  | v6 r => (r.gateway[3] ++ r.gateway[2] ++ r.gateway[1] ++ r.gateway[0] : BitVec 32)

/-- The test of `route_lookup`. -/
def covers (daddr : U32) : RtEntry → Bool
  | v4 r => daddr &&& r.netmask == r.dst &&& r.netmask
  | v6 _ => false

def v6? : RtEntry → Option Route6
  | v4 _ => none
  | v6 r => some r

end RtEntry

/-- `struct ndp_entry` with its queue. -/
structure NdpNeighbour where
  ip6 : In6Addr
  hwaddr : HwAddr := Vector.replicate 6 0
  state : NdpState := .incomplete
  queue : SkbHead := {}
deriving DecidableEq

/-- The host, as far as it holds skbs. `heap` has an allocation for every skb;
`transmits` are those allocated to be sent. `arpCache` has the resolved
addresses, as all entries are. -/
structure SkbHost where
  heap : Heap := {}
  transmits : List Nat := []
  routes : List RtEntry := []
  arpCache : List U32 := []
  ndpCache : List NdpNeighbour := []
  socks : List SkbSock := []
  waiting : List (Nat × SkBuff) := []
deriving DecidableEq

namespace SkbHost

def modifySock (h : SkbHost) (i : Nat) (f : SkbSock → SkbSock) : SkbHost := { h with socks := h.socks.modify i f }

/-! ## `skbuff.c` -/

section
variable (m : Heap.Allocator)

/-- `alloc_skb` for an skb to be sent. -/
def allocSkb (h : SkbHost) (data : Skb) : SkBuff × SkbHost :=
  ({ id := h.heap.allocs.length, data := data },
    { h with heap := h.heap.malloc m, transmits := h.transmits ++ [h.heap.allocs.length] })

/-- `alloc_skb` in `netdev_rx_loop`. -/
def rxSkb (h : SkbHost) (data : Skb) : SkBuff × SkbHost :=
  ({ id := h.heap.allocs.length, data := data }, { h with heap := h.heap.malloc m })

/-- `free_skb`. -/
def freeSkb (h : SkbHost) (b : SkBuff) : SkbHost := if b.refcnt < 1 then { h with heap := h.heap.free b.id } else h

/-- `skb->refcnt--; free_skb(skb)`, for each of the skbs. -/
def putSkbs (h : SkbHost) (bs : List SkBuff) : SkbHost :=
  bs.foldl (fun h b => h.freeSkb { b with refcnt := b.refcnt - 1 }) h

/-- `skb_copy`. -/
def skbCopy (h : SkbHost) (b : SkBuff) : SkBuff × SkbHost := h.allocSkb m b.data

/-! ## IPv4 output -/

/-- `arp_request`: its own skb is sent and freed. -/
def arpRequest (h : SkbHost) : SkbHost :=
  let (b, h) := h.allocSkb m {}
  h.freeSkb b

/-- `route_lookup`: the last entry of the list if none matches. -/
def routeLookup (h : SkbHost) (daddr : U32) : Option RtEntry := (h.routes.find? (·.covers daddr)).or h.routes.getLast?

/-- `dst_neigh_output`. A resolved neighbour gets the packet by
`netdev_transmit`, which keeps no hold of it. -/
def dstNeighOutput (h : SkbHost) (rt : RtEntry) (daddr : U32) : SkbHost :=
  let daddr := if rt.flags &&& RT_GATEWAY ≠ 0 then rt.gateway4 else daddr
  if daddr ∈ h.arpCache then h else h.arpRequest m

/-- `ip_output`. -/
def ipOutput (h : SkbHost) (daddr : U32) : SkbHost :=
  match h.routeLookup daddr with
  | none => h
  | some rt => h.dstNeighOutput m rt daddr

/-! ## IPv6 output -/

/-- `ndp_send_ns`: its own skb is sent and freed. -/
def ndpSendNs (h : SkbHost) : SkbHost :=
  let (b, h) := h.allocSkb m {}
  h.freeSkb b

/-- `route6_lookup`. -/
def route6Lookup (h : SkbHost) (daddr : In6Addr) : Option Route6 :=
  (h.routes.filterMap RtEntry.v6?).foldl (route6Better daddr) none

/-- The index `ndp_lookup` stops at. -/
def ndpIdx (h : SkbHost) (ip6 : In6Addr) : Nat := h.ndpCache.findIdx fun e => e.ip6 = ip6

/-- `ndp_lookup`. -/
def ndpLookup (h : SkbHost) (ip6 : In6Addr) : Option NdpNeighbour := h.ndpCache[h.ndpIdx ip6]?

/-- `ndp_get_hwaddr`. -/
def ndpGetHwaddr (h : SkbHost) (ip6 : In6Addr) : Option HwAddr :=
  (h.ndpCache.find? fun e => e.ip6 = ip6 ∧ e.state = .reachable).map (·.hwaddr)

/-- `ndp_entry_alloc`, NULL when the cache is full. -/
def ndpEntryAlloc (h : SkbHost) (ip6 : In6Addr) : SkbHost :=
  if NDP_MAX_NEIGHBORS ≤ h.ndpCache.length then h else { h with ndpCache := h.ndpCache ++ [{ ip6 := ip6 }] }

/-- `ndp_queue_skb`. -/
def ndpQueueSkb (h : SkbHost) (ip6 : In6Addr) (b : SkBuff) : SkbHost :=
  match h.ndpLookup ip6 with
  | none => h
  | some e =>
    if e.queue.maxQ ≤ e.queue.qlen then h
    else
      let (copy, h) := h.skbCopy m b
      { h with ndpCache := h.ndpCache.modify (h.ndpIdx ip6) fun e => { e with queue := e.queue.tail copy } }

/-- `dst6_neigh_output`. -/
def dst6NeighOutput (h : SkbHost) (b : SkBuff) (rt : Route6) (daddr : In6Addr) : SkbHost :=
  let nextHop := if rt.flags &&& RT_GATEWAY ≠ 0 then rt.gateway else daddr
  match h.ndpGetHwaddr nextHop with
  | some _ => h
  | none =>
    let h := h.ndpSendNs m
    let h := if (h.ndpLookup nextHop).isNone then h.ndpEntryAlloc nextHop else h
    h.ndpQueueSkb m nextHop b

/-- `ipv6_output_ex`: without a route it frees the skb, else it leaves it to
its caller. -/
def ipv6OutputEx (h : SkbHost) (b : SkBuff) (daddr : In6Addr) : SkbHost :=
  match h.route6Lookup daddr with
  | none => h.freeSkb b
  | some rt => h.dst6NeighOutput m b rt daddr

/-- `ndp_na_process` with a link-layer address: the entry, and
`ndp_flush_queue` when it was INCOMPLETE. -/
def ndpNaProcess (h : SkbHost) (target : In6Addr) (tlla : HwAddr) (flagS flagO : Bool) : SkbHost :=
  match h.ndpLookup target with
  | none => h
  | some e =>
    if e.state = .incomplete then
      let k := SkbHead.turns (fun _ => true) e.queue.skbs e.queue.qlen
      let h := { h with
        ndpCache := h.ndpCache.set (h.ndpIdx target)
          { e with hwaddr := tlla, state := .reachable, queue := e.queue.dequeue k } }
      (e.queue.skbs.take k).foldl freeSkb h
    else
      let e := if flagO ∨ e.hwaddr ≠ tlla then { e with hwaddr := tlla } else e
      let e :=
        if flagS then { e with state := .reachable }
        else if flagO ∨ e.hwaddr ≠ tlla then { e with state := .stale }
        else e
      { h with ndpCache := h.ndpCache.set (h.ndpIdx target) e }

/-! ## TCP output -/

/-- `tcp_transmit_skb` for socket `i`. -/
def tcpTransmitSkb (h : SkbHost) (i : Nat) (b : SkBuff) : SkbHost :=
  match h.socks[i]? with
  | none => h
  | some sk =>
    match sk.daddr with
    | .v4 a => h.ipOutput m a
    | .v6 a => h.ipv6OutputEx m b a

/-- `tcp_alloc_skb` in `tcp_send`, `tcp_send_syn`, `tcp_send_synack`,
`tcp_send_fin` or `tcp_queue_fin`, on the way to `tcp_queue_transmit_skb`. -/
def tcpAllocQueued (h : SkbHost) (i : Nat) (data : Skb) : SkbHost :=
  let (b, h) := h.allocSkb m data
  { h with waiting := h.waiting ++ [(i, b)] }

/-- `tcp_queue_transmit_skb` once `tcp_wait_snd_wnd` has returned, for the `k`th
of the skbs that wait there. -/
def tcpQueueTransmitSkb (h : SkbHost) (k : Nat) (sndNxt : U32) : SkbHost :=
  match h.waiting[k]? with
  | none => h
  | some (i, b) =>
    if i < h.socks.length then
      let b := { b with data := { b.data with seq := sndNxt, endSeq := sndNxt + b.data.dlen } }
      let h := { h with waiting := h.waiting.eraseIdx k }
      let h := h.modifySock i fun sk => { sk with writeQueue := sk.writeQueue.tail b }
      h.tcpTransmitSkb m i b
    else h

/-- The turn of `tcp_send_next` for the `k`th skb of `write_queue`. -/
def tcpSendNextTurn (h : SkbHost) (i k : Nat) (inflight sndWnd sndNxt : U32) : SkbHost :=
  match (h.socks[i]?).bind (·.writeQueue.skbs[k]?) with
  | none => h
  | some next =>
    if next.data.seq ≠ 0 ∨ inflight + next.data.dlen > sndWnd then h
    else
      (h.tcpTransmitSkb m i next).modifySock i fun sk => { sk with
        writeQueue := { sk.writeQueue with
          skbs := sk.writeQueue.skbs.modify k fun b =>
            { b with data := { b.data with seq := sndNxt, endSeq := sndNxt + b.data.dlen } } } }

/-- `tcp_send_ack`. -/
def tcpSendAck (h : SkbHost) (i : Nat) (state : TcpState) : SkbHost :=
  if state = .close then h
  else
    let (b, h) := h.allocSkb m { tcpAllocSkb 0 Payload.nil with ack := true }
    (h.tcpTransmitSkb m i b).freeSkb b

/-- `tcp_send_reset`. -/
def tcpSendReset (h : SkbHost) (i : Nat) : SkbHost :=
  let (b, h) := h.allocSkb m { tcpAllocSkb 0 Payload.nil with rst := true }
  (h.tcpTransmitSkb m i b).freeSkb b

/-- `tcp_retransmit_candidate`. -/
def tcpRetransmitCandidate (q : SkbHead) (sackMaxRight : U32) : Option SkBuff :=
  (if sackMaxRight > 0 then q.skbs.find? fun b => !b.data.sacked && b.data.endSeq ≤ sackMaxRight else none).or q.peek

/-- `tcp_fast_retransmit`. -/
def tcpFastRetransmit (h : SkbHost) (i : Nat) (sackMaxRight : U32) : SkbHost :=
  match (h.socks[i]?).bind (tcpRetransmitCandidate ·.writeQueue sackMaxRight) with
  | none => h
  | some b => h.tcpTransmitSkb m i b

/-- The retransmission of `tcp_connect_rto` and `tcp_retransmission_timeout`. -/
def tcpRtoRetransmit (h : SkbHost) (i : Nat) : SkbHost :=
  match (h.socks[i]?).bind (·.writeQueue.peek) with
  | none => h
  | some b => h.tcpTransmitSkb m i b

/-! ## Acknowledged, received and read -/

/-- The first `k` skbs of a queue of socket `i` are dequeued and put. -/
def dropFrom (h : SkbHost) (i k : Nat) (get : SkbSock → SkbHead) (set : SkbSock → SkbHead → SkbSock) : SkbHost :=
  match h.socks[i]? with
  | none => h
  | some sk => (h.modifySock i fun sk => set sk ((get sk).dequeue k)).putSkbs ((get sk).skbs.take k)

/-- `tcp_clean_rto_queue`. -/
def tcpCleanRtoQueue (h : SkbHost) (i : Nat) (una : U32) : SkbHost :=
  match h.socks[i]? with
  | none => h
  | some sk =>
    let k := SkbHead.turns (fun b => b.data.seq > 0 && b.data.endSeq ≤ una) sk.writeQueue.skbs sk.writeQueue.qlen
    h.dropFrom i k (·.writeQueue) fun sk q => { sk with writeQueue := q }

/-- `tcp_sack_mark_write_queue`. -/
def tcpSackMarkWriteQueue (h : SkbHost) (i : Nat) (blocks : List (U32 × U32)) : SkbHost :=
  let covered (b : SkBuff) : Bool := blocks.any fun r => b.data.seq ≥ r.1 && b.data.endSeq ≤ r.2
  h.modifySock i fun sk => { sk with
    writeQueue := { sk.writeQueue with
      skbs := sk.writeQueue.skbs.map fun b => if covered b then { b with data := { b.data with sacked := true } } else b } }

/-- `tcp_sack_clear`. -/
def tcpSackClear (h : SkbHost) (i : Nat) : SkbHost :=
  h.modifySock i fun sk => { sk with
    writeQueue := { sk.writeQueue with
      skbs := sk.writeQueue.skbs.map fun b => { b with data := { b.data with sacked := false } } } }

/-- `tcp_consume_ofo_queue`. -/
def tcpConsumeOfoQueue (rcvNxt : U32) (sk : SkbSock) : SkbSock :=
  let k := SkbHead.ofoTurns rcvNxt sk.ofoQueue.skbs sk.ofoQueue.qlen
  { sk with
    receiveQueue := (sk.ofoQueue.skbs.take k).foldl SkbHead.tail sk.receiveQueue
    ofoQueue := sk.ofoQueue.dequeue k }

/-- `tcp_data_queue` with a segment just received, and the `free_skb` of its
caller. -/
def tcpDataQueue (h : SkbHost) (i : Nat) (rcvWnd rcvNxt : U32) (state : TcpState) (data : Skb) : SkbHost :=
  match h.socks[i]? with
  | none => h
  | some sk =>
    let (b, h) := h.rxSkb m data
    if rcvWnd = 0 then h.freeSkb b
    else if data.seq = rcvNxt then
      let b := { b with refcnt := b.refcnt + 1 }
      let h := h.modifySock i fun sk =>
        tcpConsumeOfoQueue (rcvNxt + data.dlen) { sk with receiveQueue := sk.receiveQueue.tail b }
      h.freeSkb b
    else
      match SkbHead.insertPos data.seq data.endSeq sk.ofoQueue.skbs with
      | none => (h.tcpSendAck m i state).freeSkb b
      | some k =>
        let b := { b with refcnt := b.refcnt + 1 }
        let h := h.modifySock i fun sk => { sk with ofoQueue := sk.ofoQueue.add b k }
        (h.tcpSendAck m i state).freeSkb b

/-- `tcp_data_dequeue`. -/
def tcpDataDequeue (h : SkbHost) (i userlen : Nat) : SkbHost :=
  match h.socks[i]? with
  | none => h
  | some sk =>
    let (k, room) := SkbHead.eatTurns userlen sk.receiveQueue.skbs sk.receiveQueue.qlen
    let eat (q : SkbHead) : SkbHead := { q with
      skbs := q.skbs.modifyHead fun b => { b with data := { b.data with payload := b.data.payload.drop room } } }
    h.dropFrom i k (·.receiveQueue) fun sk q => { sk with receiveQueue := eat q }

/-- `tcp_clear_queues`. -/
def tcpClearQueues (h : SkbHost) (i : Nat) : SkbHost :=
  match h.socks[i]? with
  | none => h
  | some sk =>
    h.dropFrom i (SkbHead.turns (fun _ => true) sk.ofoQueue.skbs sk.ofoQueue.qlen) (·.ofoQueue)
      fun sk q => { sk with ofoQueue := q }

/-- `sock_free`. -/
def sockFree (h : SkbHost) (i : Nat) : SkbHost :=
  match h.socks[i]? with
  | none => h
  | some sk =>
    let h := h.dropFrom i (SkbHead.turns (fun _ => true) sk.receiveQueue.skbs sk.receiveQueue.qlen) (·.receiveQueue)
      fun sk q => { sk with receiveQueue := q }
    h.dropFrom i (SkbHead.turns (fun _ => true) sk.writeQueue.skbs sk.writeQueue.qlen) (·.writeQueue)
      fun sk q => { sk with writeQueue := q }

/-- `udp_data_queue` with a datagram just received. -/
def udpDataQueue (h : SkbHost) (i : Nat) (data : Skb) : SkbHost :=
  if i < h.socks.length then
    let (b, h) := h.rxSkb m data
    h.modifySock i fun sk => { sk with receiveQueue := sk.receiveQueue.tail { b with refcnt := b.refcnt + 1 } }
  else h

/-- `udp_data_dequeue`. -/
def udpDataDequeue (h : SkbHost) (i : Nat) : SkbHost :=
  match h.socks[i]? with
  | none => h
  | some sk =>
    h.dropFrom i (if sk.receiveQueue.empty then 0 else 1) (·.receiveQueue) fun sk q => { sk with receiveQueue := q }

/-! ## ICMP -/

/-- `icmpv6_echo_reply`: the reply is handed to `ipv6_output`, and not looked at
again. -/
def icmpv6EchoReply (h : SkbHost) (daddr : In6Addr) : SkbHost :=
  let (reply, h) := h.allocSkb m {}
  h.ipv6OutputEx m reply daddr

/-- `icmpv6_send_error`, which does the same. -/
def icmpv6SendError (h : SkbHost) (daddr : In6Addr) : SkbHost :=
  let (err, h) := h.allocSkb m {}
  h.ipv6OutputEx m err daddr

/-- `icmpv4_reply`; the skb of the request is what goes out, so it counts among
those to be sent. -/
def icmpv4Reply (h : SkbHost) (daddr : U32) : SkbHost :=
  let (b, h) := h.allocSkb m {}
  (h.ipOutput m daddr).freeSkb b

end

end SkbHost

/-! ## The host as a machine -/

inductive SkbEvent where
  /-- `route_add`, `route6_add`. -/
  | routeAdd (r : RtEntry)
  /-- `insert_arp_translation_table`. -/
  | arpLearn (sip : U32)
  | ndpNa (target : In6Addr) (tlla : HwAddr) (flagS flagO : Bool)
  /-- A new socket, `_socket` or `fork_socket`. -/
  | socket (daddr : PeerAddr)
  /-- `tcp_v4_connect`, `tcp_v6_connect`. -/
  | setDaddr (i : Nat) (daddr : PeerAddr)
  | allocQueued (i : Nat) (data : Skb)
  | queueTransmit (k : Nat) (sndNxt : U32)
  | sendNext (i k : Nat) (inflight sndWnd sndNxt : U32)
  | sendAck (i : Nat) (state : TcpState)
  | sendReset (i : Nat)
  | fastRetransmit (i : Nat) (sackMaxRight : U32)
  | rtoRetransmit (i : Nat)
  | cleanRtoQueue (i : Nat) (una : U32)
  | sackMark (i : Nat) (blocks : List (U32 × U32))
  | sackClear (i : Nat)
  | dataQueue (i : Nat) (rcvWnd rcvNxt : U32) (state : TcpState) (data : Skb)
  | dataDequeue (i userlen : Nat)
  | clearQueues (i : Nat)
  | sockFree (i : Nat)
  | udpDataQueue (i : Nat) (data : Skb)
  | udpDataDequeue (i : Nat)
  | echoReply (daddr : In6Addr)
  | sendError (daddr : In6Addr)
  | icmpv4Reply (daddr : U32)
deriving DecidableEq

namespace SkbHost

def step (m : Heap.Allocator) (h : SkbHost) : SkbEvent → SkbHost
  | .routeAdd r => { h with routes := h.routes ++ [r] }
  | .arpLearn sip => { h with arpCache := h.arpCache ++ [sip] }
  | .ndpNa target tlla flagS flagO => h.ndpNaProcess target tlla flagS flagO
  | .socket daddr => { h with socks := h.socks ++ [{ daddr := daddr }] }
  | .setDaddr i daddr => h.modifySock i fun sk => { sk with daddr := daddr }
  | .allocQueued i data => h.tcpAllocQueued m i data
  | .queueTransmit k sndNxt => h.tcpQueueTransmitSkb m k sndNxt
  | .sendNext i k inflight sndWnd sndNxt => h.tcpSendNextTurn m i k inflight sndWnd sndNxt
  | .sendAck i state => h.tcpSendAck m i state
  | .sendReset i => h.tcpSendReset m i
  | .fastRetransmit i sackMaxRight => h.tcpFastRetransmit m i sackMaxRight
  | .rtoRetransmit i => h.tcpRtoRetransmit m i
  | .cleanRtoQueue i una => h.tcpCleanRtoQueue i una
  | .sackMark i blocks => h.tcpSackMarkWriteQueue i blocks
  | .sackClear i => h.tcpSackClear i
  | .dataQueue i rcvWnd rcvNxt state data => h.tcpDataQueue m i rcvWnd rcvNxt state data
  | .dataDequeue i userlen => h.tcpDataDequeue i userlen
  | .clearQueues i => h.tcpClearQueues i
  | .sockFree i => h.sockFree i
  | .udpDataQueue i data => h.udpDataQueue m i data
  | .udpDataDequeue i => h.udpDataDequeue i
  | .echoReply daddr => h.icmpv6EchoReply m daddr
  | .sendError daddr => h.icmpv6SendError m daddr
  | .icmpv4Reply daddr => h.icmpv4Reply m daddr

abbrev run (m : Heap.Allocator) (h : SkbHost) (es : List SkbEvent) : SkbHost := Machine.run (step m) h es

/-- A host that has allocated nothing yet, with any tables. -/
def boot (routes : List RtEntry) (arpCache : List U32) (neighbours : List (In6Addr × HwAddr × NdpState)) : SkbHost where
  routes := routes
  arpCache := arpCache
  ndpCache := neighbours.map fun (ip6, hwaddr, state) => { ip6 := ip6, hwaddr := hwaddr, state := state }

end SkbHost

end LevelIp
