/-
The part of the sockets that other sockets depend on: who owns them, whether
they are on the list, their state, their parent, their addresses and ports,
their accept queue. What an event comes to is read off the host before it.
-/
import LevelIp.Ends
import LevelIp.Lib.Table

namespace LevelIp

/-- What the lookups, `get_socket` and `accept` go by. -/
structure Outline where
  pid : Nat
  fd : Int
  family : Family
  listed : Bool
  state : TcpState
  ptsk : Option Nat
  saddr : Addr
  daddr : Addr
  sport : U16
  dport : U16
  connected : Bool
  queue : List Nat
  accepts : List Int
deriving DecidableEq

def Socket.outline (k : Socket) : Outline :=
  { pid := k.pid, fd := k.fd, family := k.family, listed := k.listed, state := k.sk.state, ptsk := k.sk.ptsk
    saddr := k.sk.saddr, daddr := k.sk.daddr, sport := k.sk.sport, dport := k.sk.dport, connected := k.connected
    queue := k.connQueue, accepts := k.accepts }

/-- The sockets, the next `fd`, and those that were opened from SYN_RECEIVED. -/
structure Board where
  socks : List Outline
  next : Int
  opened : List Nat
deriving DecidableEq

namespace Board

def set (b : Board) (i : Nat) (o : Outline) : Board := { b with socks := b.socks.set i o }

/-- A socket with the next `fd`. -/
def add (b : Board) (o : Outline) : Board := { b with socks := b.socks ++ [o], next := b.next + 1 }

/-- Socket `i` goes on the queue of `p`, if that is on the list. -/
def push (i : Nat) (b : Board) (p : Nat) : Board :=
  if (b.socks[p]?).any (·.listed) then { b with socks := b.socks.modify p fun o => { o with queue := o.queue ++ [i] } } else b

end Board

theorem sourced_parents (net : Net6) (s t : TcpSock) : (sourced net s t).parents = t.parents := by
  unfold sourced
  split <;> rfl

theorem sourced_state (net : Net6) (s t : TcpSock) : (sourced net s t).state = t.state := by
  unfold sourced
  split <;> rfl

/-- The local address a socket has after a step. -/
theorem sourced_saddr (net : Net6) (s t : TcpSock) :
    (sourced net s t).saddr = if transmits s t then net.writeBack t.saddr t.daddr else t.saddr := by
  unfold sourced
  split <;> rfl

namespace Host

def board (h : Host) : Board := { socks := h.sockets.map Socket.outline, next := h.fd, opened := h.opened }

variable {h : Host} {i : Nat} {k : Socket}

theorem board_socks (hk : h.sockets[i]? = some k) : h.board.socks[i]? = some k.outline := by
  rw [board, List.getElem?_map, hk]
  rfl

theorem board_sockets {o : Outline} (ho : h.board.socks[i]? = some o) : ∃ k, h.sockets[i]? = some k ∧ k.outline = o := by
  rw [board, List.getElem?_map] at ho
  exact Option.map_eq_some_iff.mp ho

theorem update_board (hk : h.sockets[i]? = some k) (f : Socket → Socket) : (h.update i f).board = h.board.set i (f k).outline := by
  rw [update, Table.modify_eq_set hk, board, List.map_set]
  rfl

/-- An update that shows nowhere. -/
theorem update_still (hk : h.sockets[i]? = some k) {f : Socket → Socket} (hf : (f k).outline = k.outline) :
    (h.update i f).board = h.board := by
  rw [update_board hk, hf, Board.set, Table.set_same (board_socks hk)]

/-! ## What an event is about -/

/-- The socket a call is about. -/
def called (h : Host) (pid : Nat) (fd : Int) : Option (Nat × Socket) :=
  (h.getSocket pid fd).bind fun i => (h.sockets[i]?).map fun k => (i, k)

/-- The socket a segment is for. -/
def addressee (h : Host) (ep : Endpoints) (th : Tcphdr) : Option (Nat × Socket) :=
  (h.socketLookup ep th.sport th.dport).bind fun i => (h.sockets[i]?).map fun k => (i, k)

/-- The socket a sleeper goes on with. -/
def slept (h : Host) (i : Nat) (asleep : Socket → Bool) : Option Socket := (h.sockets[i]?).filter fun k => asleep k && k.listed

/-- What an event comes to. -/
inductive Deed where
  /-- Nothing the board shows. -/
  | nothing
  | create (pid : Nat) (family : Family)
  | bind (i : Nat) (saddr : Addr) (sport : U16)
  | listen (i : Nat)
  | dial (i : Nat) (d : Dest)
  /-- Socket `i` takes a step of its own. -/
  | run (i : Nat) (e : Event)
  /-- A SYN comes to listener `l`. -/
  | fork (l : Nat) (ep : Endpoints) (th : Tcphdr)
  /-- An `_accept` looks at the queue of socket `i`. -/
  | take (i : Nat)
  /-- An `_accept` fails before it gets there. -/
  | refuse (i : Nat) (rc : Int)
  | free (i : Nat)
deriving DecidableEq

/-- The deed of a call. -/
def callDeed (h : Host) (pid : Nat) (fd : Int) (deed : Nat → Socket → Deed) : Deed :=
  (h.called pid fd).elim .nothing fun c => deed c.1 c.2

/-- The deed of code that has slept. -/
def sleeperDeed (h : Host) (i : Nat) (asleep : Socket → Bool) (deed : Socket → Deed) : Deed :=
  (h.slept i asleep).elim .nothing deed

def connectDeed (h : Host) (a : SockAddr) (i : Nat) (k : Socket) : Deed :=
  if connectRefused k a then .free i
  else if connectable k then
    if k.family = .inet6 ∧ a.len < 28 then .nothing else .dial i (h.dest k.family a)
  else if k.sk.sockState = .disconnecting ∨ k.sk.sockState = .free then .free i
  else .nothing

def acceptDeed (addrlen : Nat) (i : Nat) (k : Socket) : Deed :=
  if addrlen < 2 then .refuse i (-EINVAL) else if k.sk.state ≠ .listen then .refuse i (-1) else .take i

def wakeDeed (i : Nat) (k : Socket) : Deed :=
  if k.sk.sockState = .connecting ∧ k.sk.err = -EINPROGRESS then .nothing
  else if k.sk.err = -EINVAL ∨ k.sk.err = -ECONNREFUSED ∨ k.sk.err = -ETIMEDOUT then .free i
  else .nothing

def arrivalDeed (h : Host) (ep : Endpoints) (th : Tcphdr) (data : Payload) (psh : Bool) (i : Nat) (k : Socket) : Deed :=
  if k.sk.state ≠ .listen then .run i (.segment th data psh)
  else if !th.syn || h.fd = 2 ^ 31 - 1 then .nothing
  else .fork i ep th

def deed (h : Host) (e : HostEvent) : Deed :=
  if h.crashed then .nothing
  else
    match e with
    | .socket pid family => if h.fd = 2 ^ 31 - 1 then .nothing else .create pid family
    | .bind pid fd a => h.callDeed pid fd fun i k => (bindTo k a).elim .nothing fun d => .bind i d.1 d.2
    | .listen pid fd n =>
      h.callDeed pid fd fun i k => if n < 0 ∨ n > 100 ∨ k.sk.state ≠ .close then .nothing else .listen i
    | .connect pid fd a _ => h.callDeed pid fd (h.connectDeed a)
    | .accept pid fd addrlen => h.callDeed pid fd (acceptDeed addrlen)
    | .write pid fd buf => h.callDeed pid fd fun i _ => .run i (.write buf)
    | .read pid fd len => h.callDeed pid fd fun i _ => .run i (.read len)
    | .close pid fd => h.callDeed pid fd fun i _ => .run i .close
    | .fcntl pid fd nonblock => h.callDeed pid fd fun i _ => .run i (.fcntl nonblock)
    | .arrives ep th data psh _ =>
      (h.addressee ep th).elim .nothing fun c => h.arrivalDeed ep th data psh c.1 c.2
    | .resume i n => h.sleeperDeed i (fun k => n < k.conn.calls.length) fun _ => .run i (.resume n)
    | .acceptWakes i => h.sleeperDeed i (fun k => 0 < k.accepting) fun _ => .take i
    | .connectWakes i => h.sleeperDeed i (·.dialing) (wakeDeed i)
    | .handler i n => h.sleeperDeed i (fun k => n < k.sk.spawned.length) fun _ => .run i (.handler n)
    | .collect i => if (h.sockets[i]?).any (·.collector) then .free i else .nothing
    | .abort i => h.sleeperDeed i (fun _ => true) fun _ => .run i .abort
    | .dispatch _ _ | .tick _ | .adjustPmtu6 _ _ | .net6 _ => .nothing

/-! ## Reading the host -/

theorem called_some {pid : Nat} {fd : Int} {c : Nat × Socket} (hc : h.called pid fd = some c) :
    h.getSocket pid fd = some c.1 ∧ h.sockets[c.1]? = some c.2 := by
  obtain ⟨i, hi, hk⟩ := Option.bind_eq_some_iff.mp hc
  obtain ⟨k, hk', rfl⟩ := Option.map_eq_some_iff.mp hk
  exact ⟨hi, hk'⟩

theorem addressee_some {ep : Endpoints} {th : Tcphdr} {c : Nat × Socket} (hc : h.addressee ep th = some c) :
    h.socketLookup ep th.sport th.dport = some c.1 ∧ h.sockets[c.1]? = some c.2 := by
  obtain ⟨i, hi, hk⟩ := Option.bind_eq_some_iff.mp hc
  obtain ⟨k, hk', rfl⟩ := Option.map_eq_some_iff.mp hk
  exact ⟨hi, hk'⟩

theorem slept_some {asleep : Socket → Bool} (hs : h.slept i asleep = some k) :
    h.sockets[i]? = some k ∧ asleep k ∧ k.listed := by
  obtain ⟨hk, ha⟩ := Option.filter_eq_some_iff.mp hs
  simp only [Bool.and_eq_true] at ha
  exact ⟨hk, ha⟩

theorem withSocket_cases (h : Host) (pid : Nat) (fd : Int) (run : Nat → Socket → Host) :
    (h.called pid fd = none ∧ h.withSocket pid fd run = h) ∨
    ∃ i k, h.called pid fd = some (i, k) ∧ h.sockets[i]? = some k ∧ h.withSocket pid fd run = run i k := by
  unfold called withSocket
  cases hg : h.getSocket pid fd with
  | none => exact .inl ⟨rfl, rfl⟩
  | some i =>
    dsimp only [Option.bind_some]
    cases hk : h.sockets[i]? with
    | none => exact .inl ⟨rfl, rfl⟩
    | some k => exact .inr ⟨i, k, rfl, hk, rfl⟩

theorem withSleeper_cases (h : Host) (i : Nat) (asleep : Socket → Bool) (run : Socket → Host) :
    (h.slept i asleep = none ∧ (h.withSleeper i asleep run).board = h.board) ∨
    ∃ k, h.slept i asleep = some k ∧ h.sockets[i]? = some k ∧ h.withSleeper i asleep run = run k := by
  unfold slept withSleeper
  cases hk : h.sockets[i]? with
  | none => exact .inl ⟨rfl, rfl⟩
  | some k =>
    cases ha : asleep k with
    | false => exact .inl ⟨by simp [ha], by simp [ha]⟩
    | true =>
      cases hl : k.listed with
      | false => exact .inl ⟨by simp [hl], by simp [ha, hl]; rfl⟩
      | true => exact .inr ⟨k, by simp [ha, hl], rfl, by simp [ha, hl]⟩

theorem tcpIn_cases (h : Host) (ep : Endpoints) (th : Tcphdr) (data : Payload) (psh : Bool) (iss : U32) :
    (h.addressee ep th = none ∧ h.tcpIn ep th data psh iss = h) ∨
    ∃ i k, h.addressee ep th = some (i, k) ∧ h.sockets[i]? = some k ∧ h.tcpIn ep th data psh iss =
      if k.sk.state = .listen then
        match tcpListen k.sk th { iss := iss, listener := i, saddr := ep.remote } with
        | none => h
        | some child => h.addSocket k.pid k.family (sourced h.net {} child) true
      else
        let c := k.conn.step (.segment th data psh)
        let h := h.ran i k c
        { h with crashed := h.crashed || (c.sk.fault && !k.sk.fault) } := by
  unfold addressee tcpIn
  cases hg : h.socketLookup ep th.sport th.dport with
  | none => exact .inl ⟨rfl, rfl⟩
  | some i =>
    dsimp only [Option.bind_some]
    cases hk : h.sockets[i]? with
    | none => exact .inl ⟨rfl, rfl⟩
    | some k => exact .inr ⟨i, k, rfl, hk, rfl⟩

/-! ## What code on one socket leaves -/

theorem addTskToParent_board (i : Nat) (h : Host) (p : Nat) : (h.addTskToParent i p).board = h.board.push i p := by
  have hl : (h.board.socks[p]?).any (·.listed) = (h.sockets[p]?).any (·.listed) := by
    rw [board, List.getElem?_map]
    cases h.sockets[p]? <;> rfl
  unfold addTskToParent Board.push
  rw [hl]
  cases hp : h.sockets[p]? with
  | none => rfl
  | some l =>
    split
    · rw [update_board hp, Board.set, Table.modify_eq_set (board_socks hp)]
      rfl
    · rfl

theorem foldl_addTskToParent_board (i : Nat) (ps : List Nat) (h : Host) :
    (ps.foldl (addTskToParent i) h).board = ps.foldl (Board.push i) h.board := by
  induction ps generalizing h with
  | nil => rfl
  | cons p ps ih => rw [List.foldl_cons, List.foldl_cons, ih, addTskToParent_board]

theorem ran_board (h : Host) (i : Nat) (k : Socket) (c : Conn) : (h.ran i k c).board =
    ((sourced h.net k.sk c.sk).parents.drop k.sk.parents.length).foldl (Board.push i)
      { socks := h.board.socks.set i (Socket.outline { k with conn := { c with sk := sourced h.net k.sk c.sk } })
        next := h.fd
        opened := if completes k.sk (sourced h.net k.sk c.sk) then h.opened ++ [i] else h.opened } := by
  unfold ran
  dsimp only
  rw [foldl_addTskToParent_board]
  congr 1
  simp only [board, List.map_set]
  rfl

end Host

/-! ## Sockets nobody but readers sleeps on before they are open -/

/-- Until it is open nobody but readers sleeps on the socket, and its `fd` is
not negative. -/
structure Socket.Sound (k : Socket) : Prop where
  readers : k.conn.OnlyReaders
  fd : 0 ≤ k.fd

/-- A change that keeps the calls, and the state of an open socket. -/
theorem Socket.Sound.change {k k' : Socket} (h : k.Sound) (hs : k'.sk.state.unopened → k.sk.state.unopened)
    (hc : k'.conn.calls = k.conn.calls) (hf : k'.fd = k.fd) : k'.Sound :=
  ⟨fun hu call hcall => h.readers (hs hu) call (hc ▸ hcall), hf ▸ h.fd⟩

theorem sourced_readers (net : Net6) (s : TcpSock) {c : Conn} (h : c.OnlyReaders) :
    Conn.OnlyReaders { c with sk := sourced net s c.sk } := by
  intro hu
  rw [sourced_state] at hu
  exact h hu

namespace Host

structure Sound (h : Host) : Prop where
  socks : ∀ k ∈ h.sockets, k.Sound
  next : 0 ≤ h.fd

theorem update_forall {P : Socket → Prop} {h : Host} (hp : ∀ k ∈ h.sockets, P k) {i : Nat} {f : Socket → Socket}
    (hf : ∀ k ∈ h.sockets, P (f k)) : ∀ k ∈ (h.update i f).sockets, P k := Table.forall_modify hp hf

theorem ran_forall {P : Socket → Prop} {h : Host} (hp : ∀ k ∈ h.sockets, P k)
    (hq : ∀ k q, P k → P { k with connQueue := q }) {i : Nat} {k : Socket} {c : Conn}
    (hk : P { k with
      conn := { c with sk := sourced h.net k.sk c.sk }
      collector := k.collector || (sourced h.net k.sk c.sk).sockState = .disconnecting }) :
    ∀ l ∈ (h.ran i k c).sockets, P l := by
  have hpush : ∀ (ps : List Nat) (h : Host), (∀ k ∈ h.sockets, P k) → ∀ k ∈ (ps.foldl (addTskToParent i) h).sockets, P k := by
    intro ps
    induction ps with
    | nil => exact fun h hp => hp
    | cons p ps ih =>
      intro h hp
      refine ih _ ?_
      unfold addTskToParent
      split
      · exact update_forall hp fun k hk => hq k _ (hp k hk)
      · exact hp
  unfold ran
  dsimp only
  refine hpush _ _ ?_
  exact Table.forall_set hp hk

theorem ran_fd (h : Host) (i : Nat) (k : Socket) (c : Conn) : (h.ran i k c).fd = h.fd := by
  have hpush : ∀ (ps : List Nat) (h : Host), (ps.foldl (addTskToParent i) h).fd = h.fd := by
    intro ps
    induction ps with
    | nil => exact fun _ => rfl
    | cons p ps ih =>
      intro h
      refine (ih _).trans ?_
      unfold addTskToParent
      split <;> rfl
  exact hpush _ _

theorem Sound.update {h : Host} (hs : h.Sound) {i : Nat} {f : Socket → Socket} (hf : ∀ k, k.Sound → (f k).Sound) :
    (h.update i f).Sound := ⟨update_forall hs.socks fun k hk => hf k (hs.socks k hk), hs.next⟩

theorem Sound.ran {h : Host} (hs : h.Sound) {i : Nat} {k : Socket} (hk : k.Sound) {c : Conn} (hc : c.OnlyReaders) :
    (h.ran i k c).Sound := by
  refine ⟨?_, by rw [ran_fd]; exact hs.next⟩
  refine ran_forall hs.socks (fun k q hk => hk.change id rfl rfl) ?_
  exact ⟨sourced_readers _ _ hc, hk.fd⟩

theorem Sound.sock {h : Host} (hs : h.Sound) {i : Nat} {k : Socket} (hk : h.sockets[i]? = some k) : k.Sound :=
  hs.socks k (List.mem_of_getElem? hk)

theorem Sound.crash {h : Host} (hs : h.Sound) : Sound { h with crashed := true } := ⟨hs.socks, hs.next⟩

theorem Sound.stepSocket {h : Host} (hs : h.Sound) (i : Nat) (e : Event) : (h.stepSocket i e).Sound := by
  unfold Host.stepSocket
  cases hk : h.sockets[i]? with
  | none => exact hs
  | some k => exact hs.ran (hs.sock hk) (Conn.live_onlyReaders (hs.sock hk).readers (.conn e))

theorem Sound.addSocket {h : Host} (hs : h.Sound) (pid : Nat) (family : Family) (s : TcpSock) (connected : Bool) :
    (h.addSocket pid family s connected).Sound := by
  unfold Host.addSocket
  split
  · exact hs.crash
  · refine ⟨fun k hk => ?_, ?_⟩
    · rcases List.mem_append.mp hk with hk | hk
      · exact hs.socks k hk
      · rw [List.mem_singleton.mp hk]
        exact ⟨fun _ call hcall => absurd hcall List.not_mem_nil, hs.next⟩
    · have := hs.next
      dsimp only
      omega

theorem Sound.accepted {h : Host} (hs : h.Sound) (i : Nat) (k : Socket) (fd : Int) : (h.accepted i k fd).Sound := by
  unfold Host.accepted
  split
  · exact hs.crash
  · exact hs.update fun k hk => hk.change id rfl rfl

theorem Sound.acceptTurn {h : Host} (hs : h.Sound) (i : Nat) (k : Socket) : (h.acceptTurn i k).Sound := by
  unfold Host.acceptTurn
  split
  · refine Sound.accepted (hs.update ?_) _ _ _
    exact fun k hk => hk.change id rfl rfl
  · split
    · exact hs.accepted _ _ _
    · exact hs.update fun k hk => hk.change id rfl rfl

theorem Sound.connect {h : Host} (hs : h.Sound) {i : Nat} {k : Socket} (hk : h.sockets[i]? = some k) (a : SockAddr) (iss : U32) :
    (h.connect i k a iss).Sound := by
  have hfree : (h.socketFree i).Sound := hs.update fun k hk => hk.change id rfl rfl
  have hopen : ∀ {k : Socket} (d : Dest) (iss : U32), k.Sound →
      Conn.OnlyReaders { k.conn with sk := inetStreamConnect k.sk d iss } := fun {k} d iss hk => by
    intro hu call hcall
    refine hk.readers ?_ call hcall
    rcases inetStreamConnect_cases k.conn.sk d iss with ⟨hst, -⟩ | ⟨err, ho⟩
    · rw [hst]
      rfl
    · rw [show inetStreamConnect k.sk d iss = _ from ho] at hu
      exact hu
  unfold Host.connect
  split
  · exact hfree
  · split
    · unfold Host.dial
      split
      · exact hs.update fun k hk => hk.change id rfl rfl
      · refine Sound.ran (h := { h with port := h.port + 1 }) ⟨hs.socks, hs.next⟩ ?_ (hopen _ _ (hs.sock hk))
        exact (hs.sock hk).change id rfl rfl
    · split
      · exact hfree
      · exact hs.update fun k hk => ⟨hopen _ _ hk, hk.fd⟩

theorem step_sound {h : Host} (hs : h.Sound) (e : HostEvent) : (h.step e).Sound := by
  have hslept : ∀ (i : Nat) (asleep : Socket → Bool) (run : Socket → Host),
      (∀ k, h.sockets[i]? = some k → (run k).Sound) → (h.withSleeper i asleep run).Sound := fun i asleep run hrun => by
    unfold withSleeper
    cases hk : h.sockets[i]? with
    | none => exact hs
    | some k =>
      dsimp only
      split
      · exact hs
      · split
        · exact hrun k hk
        · exact hs.crash
  have hcall : ∀ (pid : Nat) (fd : Int) (run : Nat → Socket → Host),
      (∀ i k, h.sockets[i]? = some k → (run i k).Sound) → (h.withSocket pid fd run).Sound := fun pid fd run hrun => by
    rcases withSocket_cases h pid fd run with ⟨-, hr⟩ | ⟨i, k, -, hk, hr⟩ <;> rw [hr]
    · exact hs
    · exact hrun i k hk
  unfold step
  split
  · exact hs
  cases e with
  | socket pid family => exact hs.addSocket _ _ _ _
  | bind pid fd a =>
    refine hcall _ _ _ fun i k hk => ?_
    unfold Host.bind
    split
    · exact hs
    · exact hs.update fun k hk => hk.change id rfl rfl
  | listen pid fd n =>
    refine hcall _ _ _ fun i k hk => ?_
    unfold Host.listen
    split
    · exact hs
    · refine hs.update fun k hk => hk.change (fun hu => ?_) rfl rfl
      rcases tcpV4Listen_cases k.sk with ⟨hst, -⟩ | ho
      · rw [hst]
        rfl
      · have hu : (tcpV4Listen k.sk).state.unopened := hu
        rwa [ho] at hu
  | connect pid fd a iss => exact hcall _ _ _ fun i k hk => hs.connect hk a iss
  | accept pid fd addrlen =>
    refine hcall _ _ _ fun i k hk => ?_
    unfold Host.accept
    split
    · exact hs.update fun k hk => hk.change id rfl rfl
    · split
      · exact hs.update fun k hk => hk.change id rfl rfl
      · exact hs.acceptTurn i k
  | write pid fd buf => exact hcall _ _ _ fun i k hk => hs.stepSocket i _
  | read pid fd len => exact hcall _ _ _ fun i k hk => hs.stepSocket i _
  | close pid fd => exact hcall _ _ _ fun i k hk => hs.stepSocket i _
  | fcntl pid fd nonblock => exact hcall _ _ _ fun i k hk => hs.stepSocket i _
  | arrives ep th data psh iss =>
    dsimp only
    rcases tcpIn_cases h ep th data psh iss with ⟨-, hr⟩ | ⟨i, k, -, hk, hr⟩ <;> rw [hr]
    · exact hs
    · split
      · split
        · exact hs
        · exact hs.addSocket _ _ _ _
      · have hran := hs.ran (i := i) (hs.sock hk) (Conn.live_onlyReaders (hs.sock hk).readers (.conn (.segment th data psh)))
        exact ⟨hran.socks, hran.next⟩
  | resume i n => exact hslept _ _ _ fun k hk => hs.stepSocket i _
  | acceptWakes i =>
    refine hslept _ _ _ fun k hk => Sound.acceptTurn (hs.update ?_) _ _
    exact fun k hk => hk.change id rfl rfl
  | connectWakes i =>
    refine hslept _ _ _ fun k hk => ?_
    unfold Host.connectWakes
    split
    · exact hs
    · split
      · exact hs.update fun k hk => hk.change id rfl rfl
      · exact hs.update fun k hk => hk.change id rfl rfl
  | dispatch i n => exact hs.stepSocket i _
  | handler i n => exact hslept _ _ _ fun k hk => hs.stepSocket i _
  | collect i =>
    dsimp only
    split
    · exact hs.update fun k hk => hk.change id rfl rfl
    · exact hs
  | tick ms =>
    refine ⟨fun k hk => ?_, hs.next⟩
    obtain ⟨k₀, hk₀, rfl⟩ := List.mem_map.mp hk
    exact ⟨Conn.live_onlyReaders (hs.socks k₀ hk₀).readers (.conn (.tick ms)), (hs.socks k₀ hk₀).fd⟩
  | adjustPmtu6 daddr pmtu =>
    refine ⟨fun k hk => ?_, hs.next⟩
    obtain ⟨k₀, hk₀, rfl⟩ := List.mem_map.mp hk
    unfold adjustSocket
    split
    · refine (hs.socks k₀ hk₀).change (fun hu => ?_) rfl rfl
      have hu : (Conn.adjustPmtu6 k₀.sk (pmtu - 60)).state.unopened := hu
      rwa [(quiet_adjustPmtu6 _ _).state] at hu
    · exact hs.socks k₀ hk₀
  | abort i =>
    dsimp only
    split
    · exact hs.stepSocket i _
    · exact hs
  | net6 net => exact ⟨hs.socks, hs.next⟩

end Host

end LevelIp
