/-
`tcp_input.c`: what a segment does to the socket it is delivered to.

`tcp_input_state` returns from many places. Its stages after the switch on
CLOSED, LISTEN and SYN_SENT are kept apart here, each saying whether the
segment is finished with (`Ctl.ret`) or goes on to the next one (`Ctl.next`).
-/
import LevelIp.TcpData

namespace LevelIp

/-- Where a stage of `tcp_input_state` leaves the segment. -/
inductive Ctl where
  | ret (s : TcpSock)
  | next (s : TcpSock)
deriving DecidableEq

namespace Ctl

def andThen : Ctl → (TcpSock → Ctl) → Ctl
  | .ret s, _ => .ret s
  | .next s, f => f s

def sock : Ctl → TcpSock
  | .ret s => s
  | .next s => s

end Ctl

/-- `tcp_init_segment`: the skb of a received segment. `psh` is the PSH bit as
`tcp_hdr_for_sk` later finds it, at the fixed offset it assumes. -/
def tcpInitSegment (th : Tcphdr) (data : Payload) (psh : Bool) : Skb :=
  { seq := th.seq, endSeq := th.seq + data.len, payload := data, fin := th.fin, syn := th.syn, rst := th.rst
    psh := psh, ack := th.ack }

/-- `update_snd_win`. -/
def updateSndWin (s : TcpSock) (win : U16) : TcpSock :=
  { s with tcb.sndWnd := U16.wide win <<< s.sndScale.toNat }

/-- `tcp_cong_avoid`. -/
def tcpCongAvoid (s : TcpSock) (acked : U32) : TcpSock :=
  if acked = 0 then s
  else if s.inRecovery then s
  else if s.cwnd < s.ssthresh then { s with cwnd := s.cwnd + umin acked (U16.wide s.smss) }
  else
    let bytesAcked := s.bytesAcked + acked
    if bytesAcked ≥ s.cwnd then
      { s with bytesAcked := bytesAcked - s.cwnd, cwnd := s.cwnd + U16.wide s.smss }
    else { s with bytesAcked := bytesAcked }

/-- The body of the loop of `tcp_clean_rto_queue` for one acknowledged skb. -/
def tcpCleanOne (s : TcpSock) (skb : Skb) : TcpSock :=
  let acked := skb.dlen
  let s := s.wakeup .writeWait
  let s := { s with inflight := if s.inflight ≥ acked then s.inflight - acked else 0 }
  tcpCongAvoid s acked

/-- The loop of `tcp_clean_rto_queue` over the queue from its head. -/
def tcpCleanLoop (una : U32) : List Skb → TcpSock → TcpSock
  | [], s => { s with writeQueue := [] }
  | skb :: rest, s =>
    if skb.seq > 0 ∧ skb.endSeq ≤ una then tcpCleanLoop una rest (tcpCleanOne s skb)
    else { s with writeQueue := skb :: rest }

/-- `tcp_clean_rto_queue`. -/
def tcpCleanRtoQueue (s : TcpSock) (una : U32) : TcpSock :=
  let s := tcpCleanLoop una s.writeQueue s
  if s.writeQueue.isEmpty || s.inflight = 0 then tcpStopRtoTimer s else s

/-- `tcp_is_dupack`. -/
def tcpIsDupack (s : TcpSock) (th : Tcphdr) (skb : Skb) : Bool :=
  th.ackSeq = s.tcb.sndUna && skb.dlen = 0 && !(th.syn || th.fin) && th.win = s.lastAckWin && s.inflight ≠ 0

/-- `tcp_enter_fast_recovery`. -/
def tcpEnterFastRecovery (s : TcpSock) : TcpSock :=
  let s := { s with ssthresh := umax (s.inflight / 2) (2 * U16.wide s.smss) }
  let s := tcpFastRetransmit s
  tcpRearmRtoTimer { s with cwnd := s.ssthresh + 3 * U16.wide s.smss, bytesAcked := 0, inRecovery := true }

/-- `tcp_exit_fast_recovery`. -/
def tcpExitFastRecovery (s : TcpSock) : TcpSock :=
  { s with cwnd := s.ssthresh, inRecovery := false, dupacks := 0, bytesAcked := 0 }

/-- What `tcp_handle_dupack` does for the count it has reached, with the extra
bytes it allows `tcp_send_next`. -/
def dupackAction (s : TcpSock) : TcpSock × U32 :=
  if s.dupacks < 3 then (s, s.dupacks.setWidth 32 * U16.wide s.smss)
  else if s.dupacks = 3 then (tcpEnterFastRecovery s, 0)
  else ({ s with cwnd := s.cwnd + U16.wide s.smss }, 0)

/-- `tcp_handle_dupack`. -/
def tcpHandleDupack (s : TcpSock) : TcpSock :=
  let (s, extra) := dupackAction { s with dupacks := s.dupacks + 1 }
  let pending := s.writeQueue.length
  if pending > 0 then tcpSendNext s pending extra else s

/-- `tcp_verify_segment`. -/
def tcpVerifySegment (s : TcpSock) (th : Tcphdr) (skb : Skb) : Bool :=
  !(skb.dlen > 0 && s.tcb.rcvWnd = 0) &&
    !(th.seq < s.tcb.rcvNxt || th.seq > s.tcb.rcvNxt + s.tcb.rcvWnd)

/-- `tcp_reset`. -/
def tcpReset (s : TcpSock) : TcpSock :=
  let s := { s with pollEvents := POLLOUT ||| POLLWRNORM ||| POLLERR ||| POLLHUP }
  match s.state with
  | .synSent => tcpDone { s with err := -ECONNREFUSED }
  | .closeWait => tcpDone { s with err := -EPIPE }
  | .close => s
  | _ => tcpDone { s with err := -ECONNRESET }

/-- `sock_connected`. -/
def sockConnected (s : TcpSock) : TcpSock :=
  { s with sockState := .connected, err := 0, pollEvents := POLLOUT ||| POLLWRNORM ||| POLLWRBAND }.wakeup .sleep

/-- What a SYN finds outside itself: the number `generate_iss` returns, the
listener's place in the socket list, the address the segment came from. -/
structure SynEnv where
  iss : U32
  listener : Nat
  saddr : Addr

/-- `fork_socket`, from the `saddr` and `sport` of the listener. -/
def forkSocket (l : TcpSock) (th : Tcphdr) (env : SynEnv) : TcpSock :=
  let s := tcpParseOpts (tcpAllocSock.setState .synReceived) th
  let s := if s.sndScale ≠ 0 then { s with wsoAllowed := true, rcvScale := s.sndScale } else s
  { s with
    tcb := { s.tcb with
      iss := env.iss, rcvNxt := th.seq + 1, rcvWnd := tcpSelectInitialWindow
      realRcvWnd := tcpSelectInitialWindow, irs := th.seq, sndUna := env.iss, sndNxt := env.iss
      sndWnd := U16.wide th.win, sndWl1 := 0, sndWl2 := 0 }
    saddr := l.saddr, daddr := env.saddr, sport := l.sport, dport := th.sport, tick := l.tick }

/-- `tcp_listen`: the child a SYN makes, if any. `tcp_send_synack` has already
counted the SYN; the increment here counts it again. -/
def tcpListen (l : TcpSock) (th : Tcphdr) (env : SynEnv) : Option TcpSock :=
  if th.syn then
    let s := tcpSendSynack { forkSocket l th env with ptsk := some env.listener }
    some { s with tcb.sndNxt := s.tcb.sndNxt + 1 }
  else none

/-- The part of `tcp_synsent` that opens the connection: our SYN is acked. -/
def synsentEstablish (s : TcpSock) (th : Tcphdr) : TcpSock :=
  let s := { s.setState .established with
    tcb := { s.tcb with sndUna := s.tcb.sndNxt, sndWnd := U16.wide th.win, sndWl1 := th.seq, sndWl2 := th.ackSeq }
    backoff := 0
    rto := 1000 }
  let s := tcpParseOpts (tcpRearmUserTimeout (tcpSendAck s)) th
  sockConnected (updateSndWin s th.win)

/-- `tcp_synsent`. -/
def tcpSynsent (s : TcpSock) (th : Tcphdr) : TcpSock :=
  if th.ack ∧ (th.ackSeq ≤ s.tcb.iss ∨ th.ackSeq > s.tcb.sndNxt) then s
  else if th.ack ∧ (th.ackSeq < s.tcb.sndUna ∨ th.ackSeq > s.tcb.sndNxt) then s
  else if th.rst then tcpReset s
  else if !th.syn then s
  else
    let s := { s with tcb.rcvNxt := th.seq + 1, tcb.irs := th.seq }
    let s := if th.ack then tcpCleanRtoQueue { s with tcb.sndUna := th.ackSeq } th.ackSeq else s
    if s.tcb.sndUna > s.tcb.iss then synsentEstablish s th
    else tcpSendSynack { s.setState .synReceived with tcb.sndUna := s.tcb.iss }

/-- `tcp_closed`. -/
def tcpClosed (s : TcpSock) (th : Tcphdr) : TcpSock := if th.rst then s else tcpSendReset s

/-! ## The stages of `tcp_input_state` -/

/-- The ACK is new: `snd_una < SEG.ACK <= snd_nxt`. -/
def ackIsNew (s : TcpSock) (th : Tcphdr) : Bool := s.tcb.sndUna < th.ackSeq && th.ackSeq ≤ s.tcb.sndNxt

/-- What a new ACK does. -/
def newAck (s : TcpSock) (th : Tcphdr) : TcpSock :=
  let s := tcpCleanRtoQueue (tcpRtt { s with tcb.sndUna := th.ackSeq }) th.ackSeq
  if s.inRecovery then tcpExitFastRecovery s else s

/-- The tests on the ACK number once a new ACK has been taken. -/
def ackChecked (s : TcpSock) (th : Tcphdr) : Ctl :=
  if th.ackSeq < s.tcb.sndUna then .ret s
  else if th.ackSeq > s.tcb.sndNxt then .ret s
  else
    let s := if ackIsNew s th then updateSndWin s th.win else s
    .next { s with lastAckWin := th.win }

/-- The ACK processing shared by the synchronized states. -/
def ackSynchronized (s : TcpSock) (th : Tcphdr) (skb : Skb) : Ctl :=
  if tcpIsDupack s th skb then .ret { tcpHandleDupack s with lastAckWin := th.win }
  else ackChecked (if ackIsNew s th then newAck s th else s) th

/-- Fifth, check the ACK field. A SYN_RECEIVED socket first goes to its parent's
accept queue, through a `ptsk` that only `tcp_listen` sets. -/
def ackField (s : TcpSock) (th : Tcphdr) (skb : Skb) : Ctl :=
  match s.state with
  | .synReceived =>
    if ackIsNew s th then
      let s := s.setState .established
      match s.ptsk with
      | none => .ret { s with fault := true }
      | some p => ackSynchronized ((s.emit (.acceptQueue p)).wakeup .acceptWait) th skb
    else .ret s
  | .established | .finWait1 | .finWait2 | .closeWait | .closing | .lastAck => ackSynchronized s th skb
  | .listen | .synSent | .close | .timeWait => .next s

/-- "If the write queue is empty, it means our FIN was acked". -/
def finAcked (s : TcpSock) (th : Tcphdr) : Ctl :=
  if s.writeQueue.isEmpty then
    match s.state with
    | .finWait1 => .next (s.setState .finWait2)
    | .closing => .next (s.setState .timeWait)
    | .lastAck => .ret (tcpDone s)
    | .timeWait => .next (if s.tcb.rcvNxt = th.seq then tcpSendAck { s with flagFin := true } else s)
    | .finWait2 | .listen | .synSent | .synReceived | .established | .close | .closeWait => .next s
  else .next s

/-- Seventh, process the segment text. -/
def segmentText (s : TcpSock) (th : Tcphdr) (skb : Skb) : TcpSock :=
  match s.state with
  | .established | .finWait1 | .finWait2 => if th.psh || skb.dlen > 0 then tcpDataQueue s skb else s
  | _ => s

/-- The state change an in-sequence FIN makes. -/
def finState (s : TcpSock) : TcpSock :=
  match s.state with
  | .synReceived | .established => s.setState .closeWait
  | .finWait1 => if s.writeQueue.isEmpty then tcpEnterTimeWait s else s.setState .closing
  | .finWait2 => tcpEnterTimeWait s
  | _ => s

/-- Eighth, check the FIN bit. -/
def finBit (s : TcpSock) (th : Tcphdr) (expected : Bool) : Ctl :=
  if th.fin && expected then
    match s.state with
    | .close | .listen | .synSent => .ret s
    | _ =>
      let s := { s with
        tcb.rcvNxt := s.tcb.rcvNxt + 1, flagFin := true, pollEvents := s.pollEvents ||| pollInMask }
      .next (finState ((tcpSendAck (s.emit .peerFin)).wakeup .recvWait))
  else .next s

/-- Congestion control and delayed ACKs. -/
def ackData (s : TcpSock) (th : Tcphdr) (skb : Skb) (expected : Bool) : TcpSock :=
  match s.state with
  | .established | .finWait1 | .finWait2 =>
    if expected then
      let s := tcpStopDelackTimer s
      let pending := s.writeQueue.length
      if pending > 0 then tcpRearmRtoTimer (tcpSendNext s pending 0)
      else
        let s := if !th.psh && skb.dlen > 1000 then { s with delacks := s.delacks + 1 } else s
        if th.psh || (skb.dlen > 1000 && s.delacks > 1) then tcpSendAck { s with delacks := 0 }
        else if skb.dlen > 0 then
          let t := s.newTimer 200 .sendDelack
          { s.timerAdd t with delack := some t }
        else s
    else s
  | _ => s

/-- Everything after the ACK field. -/
def afterAck (s : TcpSock) (th : Tcphdr) (skb : Skb) : Ctl :=
  (finAcked s th).andThen fun s =>
    let expected : Bool := skb.seq = s.tcb.rcvNxt
    (finBit (segmentText s th skb) th expected).andThen fun s => .next (ackData s th skb expected)

/-- The "Otherwise" section of `tcp_input_state`. -/
def tcpInputOtherwise (s : TcpSock) (th : Tcphdr) (skb : Skb) : TcpSock :=
  if !tcpVerifySegment s th skb then
    if !th.rst then tcpSendAck s else s
  else if th.rst then (tcpEnterTimeWait s).wakeup .recvWait
  else if th.syn then s
  else if !th.ack then s
  else ((ackField s th skb).andThen fun s => afterAck s th skb).sock

/-- What `tcp_input_state` does to the socket the segment was delivered to. -/
def segmentArrives (s : TcpSock) (th : Tcphdr) (skb : Skb) : TcpSock :=
  match s.state with
  | .close => tcpClosed s th
  | .listen => s
  | .synSent => tcpSynsent s th
  | _ => tcpInputOtherwise s th skb

/-- `tcp_input_state`: the socket after the segment, and the child it forked. -/
def tcpInputState (s : TcpSock) (th : Tcphdr) (skb : Skb) (env : SynEnv) : TcpSock × Option TcpSock :=
  (segmentArrives s th skb, if s.state = .listen then tcpListen s th env else none)

end LevelIp
