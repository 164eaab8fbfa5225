/-
A socket over its whole life: from `tcp_alloc_sock` through `tcp_v4_listen` or
`inet_stream_connect` to `tcp_done`, with everything a connection can meet in
between. Also which events run `tcp_done`, and which segments bring an
acceptable RST.
-/
import LevelIp.Arrival
import LevelIp.Opening

namespace LevelIp

def EINVAL : Int := 22
def EISCONN : Int := 106
def EALREADY : Int := 114

/-- What `tcp_v4_connect` and `tcp_v6_connect` fill in; `mss` is the path MTU
less 60, which only the second sets. -/
structure Dest where
  saddr : Addr := .v4 0
  daddr : Addr := .v4 0
  sport : U16 := 0
  dport : U16 := 0
  mss : Option U16 := none
deriving DecidableEq

def TcpSock.addressed (s : TcpSock) (d : Dest) : TcpSock :=
  { s with
    saddr := d.saddr, daddr := d.daddr, sport := d.sport, dport := d.dport
    smss := d.mss.getD s.smss, rmss := d.mss.getD s.rmss }

/-- `tcp_v4_listen`. -/
def tcpV4Listen (s : TcpSock) : TcpSock := if s.state = .close then s.setState .listen else s

/-- `inet_stream_connect` up to the point where it waits or returns. -/
def inetStreamConnect (s : TcpSock) (d : Dest) (iss : U32) : TcpSock :=
  match s.sockState with
  | .connected => { s with err := -EISCONN }
  | .connecting => { s with err := -EALREADY }
  | .unconnected =>
    if s.state ≠ .close then { s with err := -EISCONN }
    else { tcpConnect (s.addressed d) iss with sockState := .connecting, err := -EINPROGRESS }
  | .free | .disconnecting => { s with err := -EINVAL }

inductive LifeEvent where
  | listen
  | connect (d : Dest) (iss : U32)
  | conn (e : Event)
deriving DecidableEq

namespace Conn

/-- One event of a socket's life. -/
def live (c : Conn) : LifeEvent → Conn
  | .listen => if c.sk.fault then c else { c with sk := tcpV4Listen c.sk }
  | .connect d iss => if c.sk.fault then c else { c with sk := inetStreamConnect c.sk d iss }
  | .conn e => c.step e

end Conn

/-- The sockets there are: those of `tcp_alloc_sock`, and the children a
listener forks. -/
inductive Born : TcpSock → Prop
  | fresh (o : OpenArgs) : Born (freshSock o)
  | forked {l : TcpSock} {th : Tcphdr} {env : SynEnv} {s : TcpSock} :
      l.state = .listen → tcpListen l th env = some s → Born s

/-! ## Before the SYN is answered -/

theorem Move.unopened {a : Act} {c c' : Core} {es : List Effect} (hm : Move a c es c') (h : c'.state.unopened) :
    c.state.unopened := by
  cases hm with
  | fin =>
    simp only [Core.finState] at h
    split at h
    case h_3 => split at h <;> cases h
    all_goals first | exact h | cases h
  | queueFin lastAck =>
    cases lastAck
    · exact h
    · cases h
  | _ => first | exact h | cases h

/-- The socket `tcp_connect` sends the SYN from. -/
def synSock (s : TcpSock) (iss : U32) : TcpSock :=
  { s with
    state := .synSent
    tcb := { s.tcb with
      iss := iss, sndWnd := 0, sndWl1 := 0, sndUna := iss, sndUp := iss, sndNxt := iss, rcvNxt := 0
      rcvWnd := tcpSelectInitialWindow, realRcvWnd := tcpSelectInitialWindow } }

theorem tcpConnect_eq {s : TcpSock} (h : s.state = .close) (iss : U32) : tcpConnect s iss =
    let t := tcpQueueTransmitSkb (synSock s iss) (synSkb (synSock s iss))
    { t with tcb.sndNxt := t.tcb.sndNxt + 1 } := by
  unfold tcpConnect tcpSendSyn
  dsimp only
  rw [if_neg (by simp [h])]
  rfl

theorem tcpConnect_state {s : TcpSock} (h : s.state = .close) (iss : U32) : (tcpConnect s iss).state = .synSent := by
  rw [tcpConnect_eq h]
  exact tcpQueueTransmitSkb_state _ _

/-- `inet_stream_connect` connects a closed socket or only sets `err`. -/
theorem inetStreamConnect_cases (s : TcpSock) (d : Dest) (iss : U32) :
    (s.state = .close ∧ inetStreamConnect s d iss =
      { tcpConnect (s.addressed d) iss with sockState := .connecting, err := -EINPROGRESS }) ∨
    ∃ err, inetStreamConnect s d iss = { s with err := err } := by
  unfold inetStreamConnect
  split
  case h_3 =>
    split
    · exact .inr ⟨_, rfl⟩
    next h => exact .inl ⟨not_not.mp h, rfl⟩
  all_goals exact .inr ⟨_, rfl⟩

/-- `tcp_v4_listen` opens a closed socket or does nothing. -/
theorem tcpV4Listen_cases (s : TcpSock) : (s.state = .close ∧ tcpV4Listen s = s.setState .listen) ∨ tcpV4Listen s = s := by
  unfold tcpV4Listen
  split
  next h => exact .inl ⟨h, rfl⟩
  next => exact .inr rfl

/-- The send side after `tcp_connect`. -/
def SndSide.connect (d : SndSide) (iss : U32) (syn : Skb) : SndSide :=
  let d := { d with iss := iss, una := iss, nxt := iss, wnd := 0 }.enqueue syn
  { d with nxt := d.nxt + 1 }

/-- What the calls that open a socket do to its core; one that fails sets `err`. -/
inductive Core.Opens (c : Core) : Core → Prop
  | fails (err : Int) : Opens c { c with err := err }
  | listen : c.state = .close → Opens c { c with state := .listen }
  | connect (iss : U32) {syn : Skb} : c.state = .close → syn.IsSyn → Opens c
      { c with
        state := .synSent
        err := -EINPROGRESS
        sockState := .connecting
        rcv := { c.rcv with nxt := 0, wnd := tcpSelectInitialWindow, realWnd := tcpSelectInitialWindow }
        snd := c.snd.connect iss syn }

/-- Something queued or sent. -/
def Effect.sends : Effect → Bool
  | .queued _ _ _ | .xmit _ _ => true
  | .wakeup _ | .acceptQueue _ | .peerFin => false

theorem tcpConnect_core {s : TcpSock} (h : s.state = .close) (iss : U32) : (tcpConnect s iss).core =
    { s.core with
      state := .synSent
      rcv := { s.core.rcv with nxt := 0, wnd := tcpSelectInitialWindow, realWnd := tcpSelectInitialWindow }
      snd := s.core.snd.connect iss (synSkb (synSock s iss)) } := by
  rw [tcpConnect_eq h]
  have hc := tcpQueueTransmitSkb_core (synSock s iss) (synSkb (synSock s iss))
  generalize tcpQueueTransmitSkb (synSock s iss) (synSkb (synSock s iss)) = t at hc
  have hn : ∀ u : TcpSock, TcpSock.core { u with tcb.sndNxt := u.tcb.sndNxt + 1 } =
      { u.core with snd := { u.core.snd with nxt := u.core.snd.nxt + 1 } } := fun _ => rfl
  refine (hn t).trans ?_
  rw [hc]
  rfl

theorem tcpConnect_logs {s : TcpSock} (h : s.state = .close) (iss : U32) : Logs (·.sends) s (tcpConnect s iss) := by
  rw [tcpConnect_eq h]
  obtain ⟨e, hf, he⟩ := tcpQueueTransmitSkb_fx (synSock s iss) (synSkb (synSock s iss))
  refine ⟨_, hf, ?_⟩
  intro x hx
  rcases List.mem_cons.mp hx with rfl | hx
  · rfl
  · rw [List.mem_singleton.mp hx]
    cases e with
    | xmit => rfl
    | _ => exact absurd he id

theorem tcpV4Listen_opens (s : TcpSock) : s.core.Opens (tcpV4Listen s).core ∧ (tcpV4Listen s).fx = s.fx := by
  rcases tcpV4Listen_cases s with ⟨hs, ho⟩ | ho
  · rw [ho]
    exact ⟨.listen (c := s.core) hs, rfl⟩
  · rw [ho]
    exact ⟨.fails (c := s.core) s.err, rfl⟩

theorem inetStreamConnect_opens (s : TcpSock) (d : Dest) (iss : U32) :
    s.core.Opens (inetStreamConnect s d iss).core ∧ Logs (·.sends) s (inetStreamConnect s d iss) := by
  rcases inetStreamConnect_cases s d iss with ⟨hs, ho⟩ | ⟨err, ho⟩
  · rw [ho]
    have hc := tcpConnect_core (s := s.addressed d) hs iss
    have hl := tcpConnect_logs (s := s.addressed d) hs iss
    generalize tcpConnect (s.addressed d) iss = t at hc hl
    refine ⟨?_, hl⟩
    have ht : TcpSock.core { t with sockState := .connecting, err := -EINPROGRESS } =
        { t.core with sockState := .connecting, err := -EINPROGRESS } := rfl
    rw [ht, hc]
    exact .connect (c := s.core) iss hs (synSkb_isSyn _)
  · rw [ho]
    exact ⟨.fails (c := s.core) err, .same rfl⟩

namespace Conn

/-- Until its SYN is answered nobody but readers sleeps on a socket. -/
def OnlyReaders (c : Conn) : Prop := c.sk.state.unopened → ∀ call ∈ c.calls, ∃ len got, call = .recv len got

theorem OnlyReaders.ready {c : Conn} (h : c.OnlyReaders) : c.Ready := fun hs => h (by rw [hs]; rfl)

/-- Nobody but readers sleeps in states that are left before ESTABLISHED and
never entered again. -/
theorem live_readers {P : TcpState → Prop} (h1 : ¬P .established) (h2 : ¬P .closeWait) (h3 : P .close)
    (hmove : ∀ {a k es k'}, Move a k es k' → P k'.state → P k.state) {c : Conn} (hr : c.Ready)
    (h : P c.sk.state → ∀ call ∈ c.calls, ∃ len got, call = .recv len got) (e : LifeEvent) (hst : P (c.live e).sk.state) :
    ∀ call ∈ (c.live e).calls, ∃ len got, call = .recv len got := by
  cases e with
  | conn e =>
    have hs : P c.sk.state := by
      obtain ⟨es, -, hm⟩ := step_moves hr e
      by_contra hne
      exact hm.keeps_core (I := fun k => ¬P k.state) (fun hmv hk hu => hk (hmove hmv hu)) hne hst
    exact step_readers ⟨fun hst => h1 (hst ▸ hs), fun hst => h2 (hst ▸ hs)⟩ (h hs) e
  | listen =>
    simp only [live] at hst ⊢
    split at hst
    next hf => simpa only [hf, if_true] using h hst
    next hf =>
      simp only [hf, Bool.false_eq_true, if_false]
      rcases tcpV4Listen_cases c.sk with ⟨hs, -⟩ | ho
      · exact h (hs ▸ h3)
      · rw [ho] at hst
        exact h hst
  | connect d iss =>
    simp only [live] at hst ⊢
    split at hst
    next hf => simpa only [hf, if_true] using h hst
    next hf =>
      simp only [hf, Bool.false_eq_true, if_false]
      rcases inetStreamConnect_cases c.sk d iss with ⟨hs, -⟩ | ⟨err, ho⟩
      · exact h (hs ▸ h3)
      · rw [ho] at hst
        exact h hst

theorem live_onlyReaders {c : Conn} (h : c.OnlyReaders) (e : LifeEvent) : (c.live e).OnlyReaders :=
  live_readers (P := fun st => st.unopened) nofun nofun rfl (fun hm hu => hm.unopened hu) h.ready h e

/-- **The invariant rule for lives**: what every move keeps, and every call
that opens the socket, holds of core and log after any event. -/
theorem live_keeps {I : Core → List Effect → Prop} (hmove : ∀ {a k log es k'}, Move a k es k' → I k log → I k' (log ++ es))
    (hopen : ∀ {k log es k'}, k.Opens k' → (∀ e ∈ es, e.sends) → I k log → I k' (log ++ es)) {c : Conn} (hr : c.OnlyReaders)
    (h : I c.sk.core c.sk.fx) (e : LifeEvent) : I (c.live e).sk.core (c.live e).sk.fx := by
  cases e with
  | conn e =>
    obtain ⟨es, hf, hm⟩ := step_moves hr.ready e
    show I (c.step e).sk.core (c.step e).sk.fx
    rw [hf]
    exact hm.keeps hmove _ h
  | listen =>
    simp only [live]
    split
    · exact h
    · obtain ⟨ho, hf⟩ := tcpV4Listen_opens c.sk
      have hk : I (tcpV4Listen c.sk).core (c.sk.fx ++ []) := hopen ho nofun h
      rw [List.append_nil, ← hf] at hk
      exact hk
  | connect d iss =>
    simp only [live]
    split
    · exact h
    · obtain ⟨ho, es, hf, hs⟩ := inetStreamConnect_opens c.sk d iss
      have hk := hopen ho hs h
      rw [← hf] at hk
      exact hk

/-- The same without the log. -/
theorem live_keeps_core {I : Core → Prop} (hmove : ∀ {a k es k'}, Move a k es k' → I k → I k')
    (hopen : ∀ {k k'}, k.Opens k' → I k → I k') {c : Conn} (hr : c.OnlyReaders) (h : I c.sk.core) (e : LifeEvent) :
    I (c.live e).sk.core :=
  live_keeps (I := fun k _ => I k) (fun hm => hmove hm) (fun ho _ => hopen ho) hr h e

end Conn

/-! ## What ends a connection -/

/-- All of `write_queue` is gone once the ACK has been taken. -/
def TcpSock.acksAll (s : TcpSock) (th : Tcphdr) : Bool :=
  if ackIsNew s th then s.writeQueue.all (Skb.covered th.ackSeq) else s.writeQueue.isEmpty

/-- The ACK is no duplicate and its number is in `snd_una..snd_nxt`. -/
def TcpSock.ackPasses (s : TcpSock) (th : Tcphdr) (skb : Skb) : Bool := !tcpIsDupack s th skb && s.core.snd.AckOk th

/-- The tests `tcp_synsent` makes on an ACK. -/
def TcpSock.synsentAckOk (s : TcpSock) (th : Tcphdr) : Bool :=
  !(th.ack && (th.ackSeq ≤ s.tcb.iss || th.ackSeq > s.tcb.sndNxt)) &&
    !(th.ack && (th.ackSeq < s.tcb.sndUna || th.ackSeq > s.tcb.sndNxt))

/-- The segment makes `tcp_input_state` run `tcp_done`: an RST in SYN_SENT, or
in LAST_ACK the ACK of everything sent. -/
def segmentFinishes (s : TcpSock) (th : Tcphdr) (skb : Skb) : Bool :=
  match s.state with
  | .synSent => s.synsentAckOk th && th.rst
  | .lastAck => s.core.Heard th skb && s.ackPasses th skb && s.acksAll th
  | .listen | .synReceived | .established | .finWait1 | .finWait2 | .close | .closeWait | .closing | .timeWait => false

/-- The handler runs `tcp_done`. -/
def handlerFinishes (s : TcpSock) : Handler → Bool
  | .connectRto n => n = s.rtoEpoch && s.state = .synSent && s.backoff > TCP_CONN_RETRIES
  | .retransmissionTimeout n => n = s.rtoEpoch && !s.writeQueue.isEmpty && s.rto > 60000
  | .sendDelack => false
  | .linger | .userTimeout => true

/-- `tcp_close` on a socket that was never synchronized is `tcp_done`. -/
def closeFinishes (s : TcpSock) : Bool :=
  match s.state with
  | .listen | .synSent | .synReceived => true
  | .established | .finWait1 | .finWait2 | .close | .closeWait | .closing | .lastAck | .timeWait => false

namespace Conn

/-- The event runs `tcp_done`. -/
def finishes (c : Conn) (e : Event) : Bool :=
  !c.sk.fault && match e with
    | .segment th data psh => segmentFinishes c.sk th (tcpInitSegment th data psh)
    | .close => closeFinishes c.sk
    | .abort => true
    | .handler i => (c.sk.spawned[i]?).any (handlerFinishes c.sk)
    | .write _ | .read _ | .resume _ | .dispatch _ | .tick _ | .fcntl _ | .adjustPmtu6 _ => false

end Conn

end LevelIp
