/-
`tcp_output.c`: building and transmitting segments, the send queue, the
retransmission timers, and `tcp_connect`.

`tcp_wait_snd_wnd` is the only place where sending can sleep, and it sleeps
with the socket lock released. So `tcp_queue_transmit_skb` is cut there:
`sndWndOpen` is the test that ends the wait, `tcpQueueTransmitSkb` what runs
under the lock after it.
-/
import LevelIp.TcpOpts

namespace LevelIp

/-- `tcp_alloc_skb` with the header bits its callers set; `opts` is the zeroed
option area. -/
def tcpAllocSkb (optlen : Nat) (payload : Payload) : Skb :=
  { payload := payload, opts := List.replicate optlen 0 }

/-- The window field: `real_rcv_wnd` cut to sixteen bits, scaled unless SYN. -/
def advertisedWin (s : TcpSock) (syn : Bool) : U16 :=
  let win : U16 := s.tcb.realRcvWnd.setWidth 16
  if syn then win else win >>> s.rcvScale.toNat

/-- The option bytes written over the start of the option area of `skb`. -/
def writtenOpts (s : TcpSock) (skb : Skb) : List U8 := if 4 ≤ skb.opts.length then tcpWriteOptionsBytes s else []

/-- The segment `tcp_transmit_skb` makes of `skb`. -/
def segOf (s : TcpSock) (skb : Skb) (seq : U32) : Seg :=
  { sport := s.sport, dport := s.dport, seq := seq, ackSeq := s.tcb.rcvNxt, fin := skb.fin, syn := skb.syn
    rst := skb.rst, psh := skb.psh, ack := skb.ack, win := advertisedWin s skb.syn
    opts := writtenOpts s skb ++ skb.opts.drop (writtenOpts s skb).length, payload := skb.payload }

/-- `tcp_transmit_skb`: the segment goes to IP with the given sequence number. -/
def tcpTransmitSkb (s : TcpSock) (skb : Skb) (seq : U32) : TcpSock :=
  (if 4 ≤ skb.opts.length then tcpWriteOptionsClear s else s).emit (.xmit (segOf s skb seq) s.unread.length)

/-- The loop test of `tcp_wait_snd_wnd`, negated: sending `bytes` more keeps
FlightSize within `min(cwnd, rwnd)`. -/
def sndWndOpen (s : TcpSock) (bytes : U32) : Bool := s.inflight + bytes ≤ umin s.cwnd s.tcb.sndWnd

/-- `skb` as `tcp_queue_transmit_skb` numbers it. -/
def numbered (s : TcpSock) (skb : Skb) : Skb :=
  { skb with seq := s.tcb.sndNxt, endSeq := s.tcb.sndNxt + skb.dlen }

/-- The numbered `skb` goes on `write_queue` and into FlightSize. -/
def queueNumbered (s : TcpSock) (skb : Skb) : TcpSock :=
  let nxt := s.tcb.sndNxt + skb.dlen
  let s := { s with
    tcb.sndNxt := if skb.fin then nxt + 1 else nxt
    inflight := s.inflight + skb.dlen
    writeQueue := s.writeQueue ++ [skb] }
  s.emit (.queued skb s.inflight s.cwnd)

/-- `tcp_queue_transmit_skb` after `tcp_wait_snd_wnd` has returned: queued
first, then sent, and the RTO timer armed if the queue was empty. -/
def tcpQueueTransmitSkb (s : TcpSock) (skb : Skb) : TcpSock :=
  let wasEmpty := s.writeQueue.isEmpty
  let skb := numbered s skb
  let s := queueNumbered s skb
  let s := if wasEmpty then tcpRearmRtoTimer s else s
  tcpTransmitSkb s skb skb.seq

/-- `tcp_send_synack`. The skb is empty and nothing is in flight in the states
it is sent from, so `tcp_wait_snd_wnd` returns at once. -/
def tcpSendSynack (s : TcpSock) : TcpSock :=
  if s.state ≠ .synSent ∧ s.state ≠ .synReceived then s
  else
    let s := tcpQueueTransmitSkb s { tcpAllocSkb 4 Payload.nil with syn := true, ack := true }
    { s with tcb.sndNxt := s.tcb.sndNxt + 1 }

/-- The loop of `tcp_send_next`; `i` entries of the queue have been visited and
`done` holds them. Only an skb with `seq == 0` counts as unsent. -/
def tcpSendNextLoop (limit : U32) : Nat → List Skb → List Skb → TcpSock → TcpSock
  | 0, done, rest, s => { s with writeQueue := done ++ rest }
  | _ + 1, done, [], s => { s with writeQueue := done }
  | amount + 1, done, next :: rest, s =>
    if next.seq ≠ 0 then tcpSendNextLoop limit amount (done ++ [next]) rest s
    else if s.inflight + next.dlen > limit then { s with writeQueue := done ++ next :: rest }
    else
      let s := tcpTransmitSkb s next s.tcb.sndNxt
      let next := numbered s next
      let nxt := s.tcb.sndNxt + next.dlen
      let s := { s with
        tcb.sndNxt := if next.fin then nxt + 1 else nxt
        inflight := s.inflight + next.dlen }
      tcpSendNextLoop limit amount (done ++ [next]) rest s

/-- `tcp_send_next`. -/
def tcpSendNext (s : TcpSock) (amount : Nat) (extra : U32) : TcpSock :=
  tcpSendNextLoop (umin (s.cwnd + extra) s.tcb.sndWnd) amount [] s.writeQueue s

/-- `tcp_send_ack`. -/
def tcpSendAck (s : TcpSock) : TcpSock :=
  if s.state = .close then s
  else tcpTransmitSkb s { tcpAllocSkb (tcpOptionsLen s).toNat Payload.nil with ack := true } s.tcb.sndNxt

/-- `tcp_send_delack`. -/
def tcpSendDelack (s : TcpSock) : TcpSock :=
  tcpSendAck (tcpReleaseDelackTimer { s with delacks := 0 })

/-- `tcp_send_syn`, from the states `tcp_connect` calls it in. Like the SYN-ACK
it never waits for the window. -/
def tcpSendSyn (s : TcpSock) : TcpSock :=
  if s.state ≠ .synSent ∧ s.state ≠ .close ∧ s.state ≠ .listen then s
  else
    let skb : Skb := { opts := tcpSynOptions s, syn := true }
    tcpQueueTransmitSkb (s.setState .synSent) skb

/-- `tcp_connect`, with the value `generate_iss` returns. -/
def tcpConnect (s : TcpSock) (iss : U32) : TcpSock :=
  let s := { s with tcb := { s.tcb with
    iss := iss, sndWnd := 0, sndWl1 := 0, sndUna := iss, sndUp := iss, sndNxt := iss, rcvNxt := 0
    rcvWnd := tcpSelectInitialWindow, realRcvWnd := tcpSelectInitialWindow } }
  let s := tcpSendSyn s
  { s with tcb.sndNxt := s.tcb.sndNxt + 1 }

/-- `tcp_send_reset`. -/
def tcpSendReset (s : TcpSock) : TcpSock :=
  let s := { s with tcb.sndUna := s.tcb.sndNxt }
  tcpTransmitSkb s { tcpAllocSkb 0 Payload.nil with rst := true } s.tcb.sndNxt

/-- The skb `tcp_queue_fin` builds. -/
def finSkb : Skb := { tcpAllocSkb 0 Payload.nil with fin := true, ack := true }

/-- The skb `tcp_send` builds for one chunk. -/
def dataSkb (chunk : Payload) (last : Bool) : Skb := { tcpAllocSkb 0 chunk with ack := true, psh := last }

/-- `tcp_retransmit_candidate`. -/
def tcpRetransmitCandidate (s : TcpSock) : Option Skb :=
  let hole := if s.sackMaxRight > 0 then s.writeQueue.find? fun skb => !skb.sacked && skb.endSeq ≤ s.sackMaxRight
    else none
  hole.or s.writeQueue.head?

/-- `tcp_fast_retransmit`. -/
def tcpFastRetransmit (s : TcpSock) : TcpSock :=
  match tcpRetransmitCandidate s with
  | none => s
  | some skb => tcpTransmitSkb s skb skb.seq

/-- `tcp_abort`. -/
def tcpAbort (s : TcpSock) : TcpSock := tcpDone (tcpSendReset s)

/-- `tcp_connect_rto` once it holds the socket lock. -/
def tcpConnectRto (s : TcpSock) (epoch : Nat) : TcpSock :=
  if epoch ≠ s.rtoEpoch then s
  else
    let s := tcpReleaseRtoTimer s
    if s.state = .synSent then
      if s.backoff > TCP_CONN_RETRIES then
        tcpDone { s with err := -ETIMEDOUT, pollEvents := s.pollEvents ||| POLLOUT ||| POLLERR ||| POLLHUP }
      else
        match s.writeQueue.head? with
        | none => s
        | some skb =>
          let s := tcpTransmitSkb s skb s.tcb.sndUna
          tcpRearmRtoTimer { s with backoff := s.backoff + 1 }
    else s

/-- `tcp_retransmission_timeout` once it holds the socket lock: the head of
`write_queue` goes out with `snd_una` as its sequence number. -/
def tcpRetransmissionTimeout (s : TcpSock) (epoch : Nat) : TcpSock :=
  if epoch ≠ s.rtoEpoch then s
  else
    let s := tcpReleaseRtoTimer s
    match s.writeQueue.head? with
    | none =>
      let s := { s with backoff := 0 }
      if s.state = .closeWait then s.wakeup .sleep else s
    | some skb =>
      let s := { s with
        ssthresh := umax (s.inflight / 2) (2 * U16.wide s.smss)
        cwnd := U16.wide s.smss
        bytesAcked := 0 }
      let s := tcpTransmitSkb (tcpSackClear s) skb s.tcb.sndUna
      if s.rto > 60000 then
        let s := tcpDone s
        { s with err := -ETIMEDOUT, pollEvents := s.pollEvents ||| POLLOUT ||| POLLERR ||| POLLHUP }
      else
        let s := tcpRearmRtoTimer { s with rto := s.rto * 2, backoff := s.backoff + 1 }
        if skb.fin then tcpHandleFinState s else s

/-- `tcp_linger`. -/
def tcpLinger (s : TcpSock) : TcpSock := tcpDone (tcpStopLinger s)

/-- `tcp_user_timeout`. -/
def tcpUserTimeout (s : TcpSock) : TcpSock := tcpAbort (tcpStopLinger s)

/-- The body of a dispatched handler once it holds the socket lock. -/
def runHandler (s : TcpSock) : Handler → TcpSock
  | .connectRto epoch => tcpConnectRto s epoch
  | .retransmissionTimeout epoch => tcpRetransmissionTimeout s epoch
  | .sendDelack => tcpSendDelack s
  | .linger => tcpLinger s
  | .userTimeout => tcpUserTimeout s

end LevelIp
