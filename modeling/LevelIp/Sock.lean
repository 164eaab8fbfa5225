/-
The data the TCP code of level-ip works on: `struct sk_buff`, `struct tcphdr`,
`struct tcb`, and one record for a `struct tcp_sock` with the fields of its
`struct sock` and `struct socket` that TCP reads or writes.

Counters and sequence numbers keep the widths of the source, so `+`, `-`, `<`
below wrap and compare exactly as the C expressions do. Queues are lists, head
first; `qlen` is the length. The `fx` log is what a call does outside the
record: segments handed to IP, sleepers signalled, a child put on its parent's
accept queue.
-/
import Mathlib

namespace LevelIp

abbrev U8 := BitVec 8
abbrev U16 := BitVec 16
abbrev U32 := BitVec 32

/-- `min` of `utils.c`. -/
def umin (x y : U32) : U32 := if x > y then y else x

/-- `max` of `utils.c`. -/
def umax (x y : U32) : U32 := if x > y then x else y

/-- `uint16_t` promoted to the 32-bit arithmetic it is used in. -/
def U16.wide (x : U16) : U32 := x.setWidth 32

/-- The data bytes of one segment. An IPv4 or IPv6 length field has 16 bits
and `tcp_send` cuts at a 16-bit MSS, so no segment carries more. -/
structure Payload where
  bytes : List U8
  short : bytes.length < 65536
deriving DecidableEq

namespace Payload

def nil : Payload := ⟨[], by decide⟩

/-- The first `n` bytes of a buffer, `n` at most a 16-bit MSS. -/
def ofTake (n : U16) (l : List U8) : Payload :=
  ⟨l.take n.toNat, by simp only [List.length_take]; have := n.isLt; omega⟩

/-- `payload += n; dlen -= n`. -/
def drop (p : Payload) (n : Nat) : Payload :=
  ⟨p.bytes.drop n, by simp only [List.length_drop]; have := p.short; omega⟩

/-- `dlen`. -/
def len (p : Payload) : U32 := BitVec.ofNat 32 p.bytes.length

@[simp] theorem nil_bytes : nil.bytes = [] := rfl

@[simp] theorem drop_bytes (p : Payload) (n : Nat) : (p.drop n).bytes = p.bytes.drop n := rfl

@[simp] theorem ofTake_bytes (n : U16) (l : List U8) : (ofTake n l).bytes = l.take n.toNat := rfl

@[simp] theorem len_toNat (p : Payload) : p.len.toNat = p.bytes.length := by
  have := p.short
  simp only [len, BitVec.toNat_ofNat]
  omega

@[simp] theorem len_nil : nil.len = 0 := rfl

theorem len_eq_zero {p : Payload} : p.len = 0 ↔ p.bytes = [] := by
  rw [← List.length_eq_zero_iff, ← len_toNat, ← BitVec.toNat_inj]
  rfl

end Payload

/-- `struct sk_buff`, as far as TCP uses it: the bookkeeping numbers, the data
bytes, and the header bits and option area that `tcp_hdr_for_sk` designates. -/
structure Skb where
  seq : U32 := 0
  endSeq : U32 := 0
  payload : Payload := Payload.nil
  fin : Bool := false
  syn : Bool := false
  rst : Bool := false
  psh : Bool := false
  ack : Bool := false
  opts : List U8 := []
  sacked : Bool := false
deriving DecidableEq

/-- `skb->dlen`. -/
def Skb.dlen (skb : Skb) : U32 := skb.payload.len

/-- A received `struct tcphdr` in host byte order; `data` is what follows its
twenty fixed bytes, options first. -/
structure Tcphdr where
  sport : U16 := 0
  dport : U16 := 0
  seq : U32
  ackSeq : U32
  hl : BitVec 4 := 5
  fin : Bool := false
  syn : Bool := false
  rst : Bool := false
  psh : Bool := false
  ack : Bool := false
  urg : Bool := false
  win : U16
  data : List U8 := []
deriving DecidableEq

/-- A segment as `tcp_transmit_skb` hands it to IP. -/
structure Seg where
  sport : U16
  dport : U16
  seq : U32
  ackSeq : U32
  fin : Bool
  syn : Bool
  rst : Bool
  psh : Bool
  ack : Bool
  win : U16
  opts : List U8
  payload : Payload
deriving DecidableEq

/-- `enum tcp_states`. -/
inductive TcpState where
  | listen | synSent | synReceived | established | finWait1 | finWait2
  | close | closeWait | closing | lastAck | timeWait
deriving DecidableEq, Repr

/-- `enum socket_state`. -/
inductive SocketState where
  | free | unconnected | connecting | connected | disconnecting
deriving DecidableEq, Repr

/-- An address of either family. -/
inductive Addr where
  | v4 (a : U32)
  | v6 (a : BitVec 128)
deriving DecidableEq

/-- The wait locks a TCP call may sleep on. -/
inductive Wait where
  | recvWait | writeWait | sleep | acceptWait
deriving DecidableEq, Repr

/-- The timer handlers of TCP with the part of their argument that is not the
socket: the epoch of a `struct rto_timer_arg`. -/
inductive Handler where
  | connectRto (epoch : Nat)
  | retransmissionTimeout (epoch : Nat)
  | sendDelack
  | linger
  | userTimeout
deriving DecidableEq, Repr

/-- A `struct timer` of this socket on the global timer list. -/
structure Timer where
  id : Nat
  expires : U32
  handler : Handler
deriving DecidableEq

/-- What TCP code does outside its own socket. `queued` and `peerFin` are
marks for the proofs and touch nothing: `queued` says that
`tcp_queue_transmit_skb` numbered and queued an skb, with FlightSize and cwnd
as they are then, `peerFin` that an in-sequence FIN was processed. `unread` in
`xmit` is the payload left in `receive_queue` at that moment. -/
inductive Effect where
  | xmit (seg : Seg) (unread : Nat)
  | queued (skb : Skb) (inflight cwnd : U32)
  | peerFin
  | wakeup (w : Wait)
  | acceptQueue (parent : Nat)
deriving DecidableEq

/-- `struct tcb`. -/
structure Tcb where
  sndUna : U32 := 0
  sndNxt : U32 := 0
  sndWnd : U32 := 0
  sndUp : U32 := 0
  sndWl1 : U32 := 0
  sndWl2 : U32 := 0
  iss : U32 := 0
  rcvNxt : U32 := 0
  rcvWnd : U32 := 0
  realRcvWnd : U32 := 0
  irs : U32 := 0
deriving DecidableEq

/-- `struct tcp_sock` with its `struct sock` and `struct socket`. `timers` are
its entries on the global timer list, `spawned` the handlers already dispatched
that still wait for the socket lock, `fault` records a dereferenced NULL. -/
structure TcpSock where
  state : TcpState := .close
  err : Int := 0
  pollEvents : U16 := 0
  receiveQueue : List Skb := []
  writeQueue : List Skb := []
  saddr : Addr := .v4 0
  daddr : Addr := .v4 0
  sport : U16 := 0
  dport : U16 := 0
  sockState : SocketState := .unconnected
  nonblock : Bool := false
  ptsk : Option Nat := none
  tcb : Tcb := {}
  flagFin : Bool := false
  flagPsh : Bool := false
  backoff : U8 := 0
  srtt : Int := 0
  rttvar : Int := 0
  rto : U32 := 0
  rtoEpoch : Nat := 0
  retransmit : Option Timer := none
  delack : Option Timer := none
  linger : Option Timer := none
  delacks : U8 := 0
  rmss : U16 := 1460
  smss : U16 := 536
  cwnd : U32 := 4 * 536
  ssthresh : U32 := 0xFFFFFFFF
  inflight : U32 := 0
  bytesAcked : U32 := 0
  dupacks : U8 := 0
  inRecovery : Bool := false
  lastAckWin : U16 := 0
  sackok : Bool := true
  sacksAllowed : U8 := 0
  sacklen : U8 := 0
  sacks : List (U32 × U32) := List.replicate 4 (0, 0)
  sackMaxRight : U32 := 0
  sndScale : U8 := 0
  wsoAllowed : Bool := false
  rcvScale : U8 := 0
  tsopt : Bool := false
  ofoQueue : List Skb := []
  tick : U32 := 0
  nextTimer : Nat := 0
  timers : List Timer := []
  spawned : List Handler := []
  fault : Bool := false
  fx : List Effect := []
deriving DecidableEq

namespace TcpSock

def emit (s : TcpSock) (e : Effect) : TcpSock := { s with fx := s.fx ++ [e] }

/-- `wait_wakeup`. -/
def wakeup (s : TcpSock) (w : Wait) : TcpSock := s.emit (.wakeup w)

/-- `tcp_set_state`. -/
def setState (s : TcpSock) (st : TcpState) : TcpSock := { s with state := st }

end TcpSock

/-- `POLLIN | POLLPRI | POLLRDNORM | POLLRDBAND`. -/
def pollInMask : U16 := 0x1 ||| 0x2 ||| 0x40 ||| 0x80

def POLLIN : U16 := 0x1
def POLLOUT : U16 := 0x4
def POLLERR : U16 := 0x8
def POLLHUP : U16 := 0x10
def POLLWRNORM : U16 := 0x100
def POLLWRBAND : U16 := 0x200

def EBADF : Int := 9
def EAGAIN : Int := 11
def EPIPE : Int := 32
def ECONNRESET : Int := 104
def ETIMEDOUT : Int := 110
def ECONNREFUSED : Int := 111

/-- The payload a queue holds, in order. -/
def queueBytes (q : List Skb) : List U8 := q.flatMap (·.payload.bytes)

/-- The payload left unread in `receive_queue`. -/
def TcpSock.unread (s : TcpSock) : List U8 := queueBytes s.receiveQueue

/-- `tcp_select_initial_window`. -/
def tcpSelectInitialWindow : U32 := 44477

/-- `tcp_alloc_sock`: the record of a fresh socket, before `tcp_connect`,
`tcp_v4_listen` or `fork_socket` fill it in. -/
def tcpAllocSock : TcpSock := {}

end LevelIp
