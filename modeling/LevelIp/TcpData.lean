/-
`tcp_data.c`: the receive queue and the out-of-order queue.
-/
import LevelIp.TcpOutput

namespace LevelIp

/-- `tcp_data_insert_ordered`: walks on past a successor it overlaps ("Could
not join skbs"), so an overlapping segment can end up behind it. -/
def tcpDataInsertOrdered (skb : Skb) : List Skb → List Skb
  | [] => [skb]
  | next :: rest =>
    if skb.seq < next.seq then
      if skb.endSeq > next.seq then next :: tcpDataInsertOrdered skb rest
      else skb :: next :: rest
    else if skb.seq = next.seq then next :: rest
    else next :: tcpDataInsertOrdered skb rest

/-- The loop of `tcp_consume_ofo_queue`: `(rcv_nxt, moved, left)`. -/
def ofoDrain : U32 → List Skb → U32 × List Skb × List Skb
  | nxt, [] => (nxt, [], [])
  | nxt, skb :: rest =>
    if nxt = skb.seq then
      let (nxt', moved, left) := ofoDrain (nxt + skb.dlen) rest
      (nxt', skb :: moved, left)
    else (nxt, [], skb :: rest)

/-- `tcp_consume_ofo_queue`. It leaves `real_rcv_wnd` alone. -/
def tcpConsumeOfoQueue (s : TcpSock) : TcpSock :=
  let (nxt, moved, left) := ofoDrain s.tcb.rcvNxt s.ofoQueue
  { s with tcb.rcvNxt := nxt, receiveQueue := s.receiveQueue ++ moved, ofoQueue := left }

/-- `increase_recv_win`. -/
def increaseRecvWin (s : TcpSock) (dlen : U32) : TcpSock := { s with tcb.realRcvWnd := s.tcb.realRcvWnd + dlen }

/-- `decrease_recv_win`. -/
def decreaseRecvWin (s : TcpSock) (dlen : U32) : TcpSock := { s with tcb.realRcvWnd := s.tcb.realRcvWnd - dlen }

/-- The loop of `tcp_data_dequeue` over the queue: bytes copied for a buffer of
`room`, what is left queued, and whether an eaten skb had PSH set. -/
def dequeueLoop : Nat → List Skb → List U8 × List Skb × Bool
  | _, [] => ([], [], false)
  | room, skb :: rest =>
    if room = 0 then ([], skb :: rest, false)
    else if skb.payload.bytes.length ≤ room then
      let (copied, left, psh) := dequeueLoop (room - skb.payload.bytes.length) rest
      (skb.payload.bytes ++ copied, left, skb.psh || psh)
    else (skb.payload.bytes.take room, { skb with payload := skb.payload.drop room } :: rest, false)

/-- `tcp_data_dequeue`: the bytes copied to a buffer of `userlen`. -/
def tcpDataDequeue (s : TcpSock) (userlen : Nat) : TcpSock × List U8 :=
  let (copied, left, psh) := dequeueLoop userlen s.receiveQueue
  let s := { s with receiveQueue := left, flagPsh := s.flagPsh || psh }
  let s := increaseRecvWin s (BitVec.ofNat 32 copied.length)
  let s := if left.isEmpty && !s.flagFin then { s with pollEvents := s.pollEvents &&& ~~~POLLIN } else s
  (s, copied)

/-- `tcp_data_queue`; the reference taken on `skb` is its place in a queue. -/
def tcpDataQueue (s : TcpSock) (skb : Skb) : TcpSock :=
  if s.tcb.rcvWnd = 0 then s
  else if skb.seq = s.tcb.rcvNxt then
    let s := decreaseRecvWin s skb.dlen
    let s := { s with tcb.rcvNxt := s.tcb.rcvNxt + skb.dlen, receiveQueue := s.receiveQueue ++ [skb] }
    let s := tcpConsumeOfoQueue s
    { s with pollEvents := s.pollEvents ||| pollInMask }.wakeup .recvWait
  else
    let s := { s with ofoQueue := tcpDataInsertOrdered skb s.ofoQueue }
    let s := if s.sackok then tcpCalculateSacks s skb.seq skb.endSeq else s
    tcpSendAck s

end LevelIp
