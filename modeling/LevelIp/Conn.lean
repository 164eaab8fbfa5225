/-
One TCP socket over its whole life: a machine whose events are the arrival of
a segment, the socket calls, sleepers getting the lock back, timers being
dispatched and their handlers getting the lock.

Each event runs under the socket lock and is atomic, as in the source. Any
sleeper may wake at any time: a POSIX condition variable allows it, and the
loops around `wait_sleep` test again. Timers may expire at any time.
-/
import LevelIp.TcpCalls
import LevelIp.Lib.Machine

namespace LevelIp

/-- A socket with the calls asleep on it. `written` are the buffers `tcp_write`
accepted, `delivered` the bytes `tcp_read` copied out, in that order, `reads`
the values its completed calls returned. -/
structure Conn where
  sk : TcpSock
  calls : List Call := []
  written : List U8 := []
  delivered : List U8 := []
  reads : List Int := []
deriving DecidableEq

inductive Event where
  /-- A segment reaches `tcp_input_state`; `psh` as in `tcpInitSegment`. -/
  | segment (th : Tcphdr) (data : Payload) (psh : Bool)
  | write (buf : List U8)
  | read (len : Nat)
  | close
  | abort
  /-- The `i`th sleeping call gets the lock. -/
  | resume (i : Nat)
  /-- `timers_tick` dispatches the `i`th timer. -/
  | dispatch (i : Nat)
  /-- The `i`th dispatched handler gets the lock. -/
  | handler (i : Nat)
  | tick (ms : U32)
  | fcntl (nonblock : Bool)
  /-- `socket_adjust_pmtu6`. -/
  | adjustPmtu6 (mss : U16)
deriving DecidableEq

namespace Conn

/-- A part of a sending call has ended. -/
def settle (c : Conn) (r : TcpSock × Outcome) : Conn :=
  match r.2 with
  | .ret _ => { c with sk := r.1 }
  | .sleep call => { c with sk := r.1, calls := c.calls ++ [call] }
  | .spin => { c with sk := { r.1 with fault := true } }

/-- A part of a `tcp_read` has ended. -/
def settleRead (c : Conn) (r : TcpSock × Outcome × List U8) : Conn :=
  let c := { c with sk := r.1, delivered := c.delivered ++ r.2.2 }
  match r.2.1 with
  | .ret rc => { c with reads := c.reads ++ [rc] }
  | .sleep call => { c with calls := c.calls ++ [call] }
  | .spin => c

def resume (c : Conn) (i : Nat) : Conn :=
  match c.calls[i]? with
  | none => c
  | some (.recv len got) => { c with calls := c.calls.eraseIdx i }.settleRead (tcpReceiveTurn c.sk len got)
  | some call => { c with calls := c.calls.eraseIdx i }.settle (resumeSend c.sk call)

def dispatch (s : TcpSock) (i : Nat) : TcpSock :=
  match s.timers[i]? with
  | none => s
  | some t => { s with timers := s.timers.eraseIdx i, spawned := s.spawned ++ [t.handler] }

def handle (s : TcpSock) (i : Nat) : TcpSock :=
  match s.spawned[i]? with
  | none => s
  | some h => runHandler { s with spawned := s.spawned.eraseIdx i } h

def adjustPmtu6 (s : TcpSock) (mss : U16) : TcpSock :=
  if mss < s.smss then { s with smss := mss, rmss := mss } else s

/-- One event. A process that has faulted takes no further step. -/
def step (c : Conn) (e : Event) : Conn :=
  if c.sk.fault then c
  else
    match e with
    | .segment th data psh => { c with sk := segmentArrives c.sk th (tcpInitSegment th data psh) }
    | .write buf =>
      { c with written := if tcpWriteAccepts c.sk then c.written ++ buf else c.written }.settle (tcpWrite c.sk buf)
    | .read len => c.settleRead (tcpRead c.sk len)
    | .close => c.settle (tcpClose c.sk)
    | .abort => { c with sk := tcpAbort c.sk }
    | .resume i => c.resume i
    | .dispatch i => { c with sk := dispatch c.sk i }
    | .handler i => { c with sk := handle c.sk i }
    | .tick ms => { c with sk := { c.sk with tick := c.sk.tick + ms } }
    | .fcntl nonblock => { c with sk := { c.sk with nonblock := nonblock } }
    | .adjustPmtu6 mss => { c with sk := adjustPmtu6 c.sk mss }

theorem step_of_fault {c : Conn} (h : c.sk.fault) (e : Event) : c.step e = c := if_pos h

abbrev run (c : Conn) (es : List Event) : Conn := Machine.run step c es

/-- Every event of the run meets `ok` in the state it happens in. -/
abbrev Meets (ok : Conn → Event → Prop) (c : Conn) (es : List Event) : Prop := Machine.Meets step ok c es

theorem run_forall {I : Conn → Prop} {ok : Event → Prop} (hstep : ∀ c e, ok e → I c → I (c.step e))
    {es : List Event} (hes : ∀ e ∈ es, ok e) {c : Conn} (h : I c) : I (c.run es) :=
  Machine.invariant_of_forall hstep hes h

theorem run_meets {I : Conn → Prop} {ok : Conn → Event → Prop} (hstep : ∀ c e, ok c e → I c → I (c.step e))
    {c : Conn} {es : List Event} (hm : Meets ok c es) (h : I c) : I (c.run es) :=
  hm.invariant hstep h

end Conn

/-! ## How a connection starts -/

def EINPROGRESS : Int := 115

/-- What differs between fresh sockets: `tcp_v4_connect` and `tcp_v6_connect`
set the addresses and, for IPv6, the MSS from the path MTU. -/
structure OpenArgs where
  saddr : Addr := .v4 0
  daddr : Addr := .v4 0
  sport : U16 := 0
  dport : U16 := 0
  smss : U16 := 536
  rmss : U16 := 1460
  nonblock : Bool := false
  tick : U32 := 0

/-- A socket of `tcp_alloc_sock` about to be connected. -/
def freshSock (o : OpenArgs) : TcpSock :=
  { tcpAllocSock with
    saddr := o.saddr, daddr := o.daddr, sport := o.sport, dport := o.dport, smss := o.smss, rmss := o.rmss
    nonblock := o.nonblock, tick := o.tick }

/-- `inet_stream_connect` up to the point where it waits or returns. -/
def activeOpen (o : OpenArgs) (iss : U32) : TcpSock :=
  { tcpConnect (freshSock o) iss with sockState := .connecting, err := -EINPROGRESS }

/-- The two ways a connection comes to be: `tcp_connect` on a fresh socket, or
the child a listener forks for a SYN. -/
inductive Opened : U32 → TcpSock → Prop
  | active (o : OpenArgs) (iss : U32) : Opened iss (activeOpen o iss)
  | passive {l : TcpSock} {th : Tcphdr} {env : SynEnv} {s : TcpSock} :
      l.state = .listen → tcpListen l th env = some s → Opened env.iss s

end LevelIp
