/-
The timers of a TCP socket and the ways it ends: the timer routines of
`tcp.c`, `tcp_rearm_rto_timer` of `tcp_output.c`, `tcp_rtt`, `tcp_done` and
`tcp_enter_time_wait`.

A timer field of the socket is the record `timer_add` returned. Cancelling
takes the entry off the timer list, so it is never dispatched; releasing only
gives up the reference, so a released entry can still fire.
-/
import LevelIp.Sock

namespace LevelIp

def TCP_SYN_BACKOFF : U32 := 500
def TCP_2MSL : U32 := 60000
def TCP_USER_TIMEOUT : U32 := 180000
def TCP_CONN_RETRIES : U8 := 3

namespace TcpSock

/-- The record `timer_add` returns for a handler of this socket. -/
def newTimer (s : TcpSock) (expire : U32) (h : Handler) : Timer := ⟨s.nextTimer, s.tick + expire, h⟩

/-- `timer_add`, `timer_add_with_release`: the list entry. -/
def timerAdd (s : TcpSock) (t : Timer) : TcpSock :=
  { s with timers := s.timers ++ [t], nextTimer := s.nextTimer + 1 }

/-- `timer_cancel`. -/
def timerCancel (s : TcpSock) (t : Option Timer) : TcpSock :=
  match t with
  | none => s
  | some t => { s with timers := s.timers.filter (·.id ≠ t.id) }

end TcpSock

/-- `tcp_stop_rto_timer`. -/
def tcpStopRtoTimer (s : TcpSock) : TcpSock :=
  { s.timerCancel s.retransmit with retransmit := none, backoff := 0, rtoEpoch := s.rtoEpoch + 1 }

/-- `tcp_release_rto_timer`. -/
def tcpReleaseRtoTimer (s : TcpSock) : TcpSock := { s with retransmit := none }

/-- `tcp_stop_delack_timer`. -/
def tcpStopDelackTimer (s : TcpSock) : TcpSock := { s.timerCancel s.delack with delack := none }

/-- `tcp_release_delack_timer`. -/
def tcpReleaseDelackTimer (s : TcpSock) : TcpSock := { s with delack := none }

/-- `timer_cancel(tsk->linger); tsk->linger = NULL`. -/
def tcpStopLinger (s : TcpSock) : TcpSock := { s.timerCancel s.linger with linger := none }

/-- `tcp_clear_timers`; no code sets `keepalive`, so cancelling it is a no-op. -/
def tcpClearTimers (s : TcpSock) : TcpSock := tcpStopLinger (tcpStopDelackTimer (tcpStopRtoTimer s))

/-- `tcp_rearm_rto_timer`: the old timer is released, not cancelled; the new
epoch is what makes it void. -/
def tcpRearmRtoTimer (s : TcpSock) : TcpSock :=
  let s := { tcpReleaseRtoTimer s with rtoEpoch := s.rtoEpoch + 1 }
  let t := if s.state = .synSent then s.newTimer (TCP_SYN_BACKOFF <<< s.backoff.toNat) (.connectRto s.rtoEpoch)
    else s.newTimer s.rto (.retransmissionTimeout s.rtoEpoch)
  { s.timerAdd t with retransmit := some t }

/-- `tcp_rearm_user_timeout`. -/
def tcpRearmUserTimeout (s : TcpSock) : TcpSock :=
  if s.state = .timeWait then s
  else
    let s := s.timerCancel s.linger
    let t := s.newTimer TCP_USER_TIMEOUT .userTimeout
    { s.timerAdd t with linger := some t }

/-- `tcp_enter_time_wait`. -/
def tcpEnterTimeWait (s : TcpSock) : TcpSock :=
  let s := tcpClearTimers (s.setState .timeWait)
  let t := s.newTimer TCP_2MSL .linger
  { s.timerAdd t with linger := some t }

/-- `socket_delete`; the garbage collection it schedules ends the socket. -/
def socketDelete (s : TcpSock) : TcpSock := { s with sockState := .disconnecting }

/-- `tcp_free`: the timers and `ofo_queue` go, `receive_queue` and
`write_queue` stay until the socket is freed. -/
def tcpFree (s : TcpSock) : TcpSock := { tcpClearTimers s with ofoQueue := [] }.wakeup .sleep

/-- `tcp_done`, which leaves the socket in `TCP_CLOSING`. -/
def tcpDone (s : TcpSock) : TcpSock := socketDelete (tcpFree (s.setState .closing))

/-- `tcp_rtt`. The products with 0.25 and 0.125 are exact in a double, so the
conversion back to `int` is the truncated quotient. -/
def tcpRtt (s : TcpSock) : TcpSock :=
  match s.retransmit with
  | none => s
  | some t =>
    if s.backoff > 0 then s
    else
      let r := (s.tick - (t.expires - s.rto)).toInt
      if r < 0 then s
      else
        let s : TcpSock := if s.srtt = 0 then { s with srtt := r, rttvar := r.tdiv 2 }
          else { s with rttvar := (3 * s.rttvar + ((s.srtt - r).natAbs : Int)).tdiv 4, srtt := (7 * s.srtt + r).tdiv 8 }
        let k : Int := 4 * s.rttvar
        let k : Int := if k < 200 then 200 else k
        { s with rto := BitVec.ofInt 32 (s.srtt + k) }

/-- `tcp_handle_fin_state`. -/
def tcpHandleFinState (s : TcpSock) : TcpSock :=
  match s.state with
  | .closeWait => s.setState .lastAck
  | .established => s.setState .finWait1
  | _ => s

end LevelIp
