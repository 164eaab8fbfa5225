/-
The socket calls of `tcp.c`: `tcp_write`, `tcp_read`, `tcp_close`, with
`tcp_send` and `tcp_receive`.

A call that sleeps does so with the socket lock released, so it is a sequence
of atomic parts. Each function here runs one part: it ends with the call's
return value, or with the `Call` that will go on when the sleeper next holds
the lock.
-/
import LevelIp.TcpInput

namespace LevelIp

/-- A call asleep with the lock released, with its locals. -/
inductive Call where
  /-- In `tcp_wait_snd_wnd` under `tcp_send`: the MSS read at its start, the
  chunk in hand, the rest of the buffer, the length of the whole. -/
  | send (mss : U16) (chunk : Payload) (rest : List U8) (len : Nat)
  /-- In `tcp_wait_snd_wnd` under `tcp_queue_fin`; `lastAck` when `tcp_close`
  still has to enter LAST_ACK. -/
  | fin (lastAck : Bool)
  /-- In `tcp_receive`, with what it has copied so far. -/
  | recv (len : Nat) (got : List U8)
deriving DecidableEq

/-- How a part of a call ends. `spin` is the loop of `tcp_send` at an MSS of 0,
which never gets anywhere. -/
inductive Outcome where
  | ret (rc : Int)
  | sleep (c : Call)
  | spin
deriving DecidableEq

/-- The loop of `tcp_send`; the fuel is at least the length of the buffer. -/
def tcpSendLoop (mss : U16) (len : Nat) : Nat → TcpSock → List U8 → TcpSock × Outcome
  | _, s, [] => (tcpRearmUserTimeout s, .ret len)
  | 0, s, _ :: _ => (s, .spin)
  | fuel + 1, s, buf@(_ :: _) =>
    let chunk := Payload.ofTake mss buf
    let rest := buf.drop mss.toNat
    if sndWndOpen s chunk.len then
      tcpSendLoop mss len fuel (tcpQueueTransmitSkb s (dataSkb chunk rest.isEmpty)) rest
    else (s, .sleep (.send mss chunk rest len))

/-- `tcp_send`. -/
def tcpSend (s : TcpSock) (buf : List U8) : TcpSock × Outcome :=
  tcpSendLoop s.smss buf.length buf.length s buf

/-- Whether `tcp_write` takes the buffer. -/
def tcpWriteAccepts (s : TcpSock) : Bool := s.err = 0 && (s.state = .established || s.state = .closeWait)

/-- `tcp_write`. -/
def tcpWrite (s : TcpSock) (buf : List U8) : TcpSock × Outcome :=
  if tcpWriteAccepts s then tcpSend s buf
  else (s, .ret (if s.err ≠ 0 then s.err else -EBADF))

/-- `tcp_queue_fin` and what `tcp_close` does after it. -/
def tcpQueueFin (s : TcpSock) (lastAck : Bool) : TcpSock × Outcome :=
  if sndWndOpen s 0 then
    let s := tcpQueueTransmitSkb s finSkb
    (if lastAck then s.setState .lastAck else s, .ret 0)
  else (s, .sleep (.fin lastAck))

/-- `tcp_close`. -/
def tcpClose (s : TcpSock) : TcpSock × Outcome :=
  match s.state with
  | .close | .closing | .lastAck | .timeWait | .finWait1 | .finWait2 => ({ s with err := -EBADF }, .ret (-1))
  | .listen | .synSent | .synReceived => (tcpDone s, .ret 0)
  | .established => tcpQueueFin (s.setState .finWait1) false
  | .closeWait => tcpQueueFin s true

/-- One turn of the loop of `tcp_receive`, and its end: the bytes this turn
copied come third. -/
def tcpReceiveTurn (s : TcpSock) (len : Nat) (got : List U8) : TcpSock × Outcome × List U8 :=
  let (s, copied) := tcpDataDequeue s (len - got.length)
  let rlen := got.length + copied.length
  if s.flagPsh then (tcpRearmUserTimeout { s with flagPsh := false }, .ret rlen, copied)
  else if s.flagFin || rlen = len then (tcpRearmUserTimeout s, .ret rlen, copied)
  else if s.nonblock then
    if rlen = 0 then (s, .ret (-EAGAIN), copied) else (tcpRearmUserTimeout s, .ret rlen, copied)
  else (s, .sleep (.recv len (got ++ copied)), copied)

/-- `tcp_receive`. -/
def tcpReceive (s : TcpSock) (len : Nat) : TcpSock × Outcome × List U8 :=
  if 0 < len then tcpReceiveTurn s len [] else (tcpRearmUserTimeout s, .ret 0, [])

/-- `tcp_read`. -/
def tcpRead (s : TcpSock) (len : Nat) : TcpSock × Outcome × List U8 :=
  match s.state with
  | .close => (s, .ret (-EBADF), [])
  | .listen | .synSent | .synReceived | .established | .finWait1 | .finWait2 => tcpReceive s len
  | .closeWait =>
    if s.receiveQueue.isEmpty && s.flagFin then ({ s with flagFin := false }, .ret 0, [])
    else tcpReceive s len
  | .closing | .lastAck | .timeWait => (s, .ret s.err, [])

/-- A sleeping sender or closer that holds the lock again. -/
def resumeSend (s : TcpSock) : Call → TcpSock × Outcome
  | .send mss chunk rest len =>
    if sndWndOpen s chunk.len then
      tcpSendLoop mss len rest.length (tcpQueueTransmitSkb s (dataSkb chunk rest.isEmpty)) rest
    else (s, .sleep (.send mss chunk rest len))
  | .fin lastAck => tcpQueueFin s lastAck
  | .recv len got => (s, .sleep (.recv len got))

end LevelIp
