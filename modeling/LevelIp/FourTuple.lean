/-
The four-tuples of the connections. `generate_port` does not look at the socket
list, `bind` does not look at the state, and an IPv6 listener takes a SYN to the
unspecified address whatever its own: each can give a connection the addresses
and ports of another. A SYN to a real address cannot.
-/
import LevelIp.ParentLink

namespace LevelIp

/-! ## Connections -/

namespace Outline

/-- Family, local address and port, remote address and port. -/
def tuple (o : Outline) : Family × Addr × U16 × Addr × U16 := (o.family, o.saddr, o.sport, o.daddr, o.dport)

/-- On the list, connected once, and not in LISTEN. -/
def Connection (o : Outline) : Prop := o.listed ∧ o.connected ∧ o.state ≠ .listen

/-- A connected socket is past `connect`; one that never was has no peer. -/
structure Named (o : Outline) : Prop where
  underway : o.connected → o.state ≠ .close ∧ o.state ≠ .listen
  peerless : o.connected = false → o.daddr = o.family.zero ∧ o.dport = 0

end Outline

namespace Board

variable {b : Board}

/-- **No two connections share the four-tuple.** -/
def Distinct (b : Board) : Prop :=
  Table.Apart (fun x y : Outline => x.Connection → y.Connection → x.tuple ≠ y.tuple) b.socks

/-- No connection but socket `i` has the tuple. -/
def Unused (b : Board) (i : Nat) (t : Family × Addr × U16 × Addr × U16) : Prop :=
  ∀ (j : Nat) (o : Outline), j ≠ i → b.socks[j]? = some o → o.Connection → o.tuple ≠ t

theorem distinct_symm (x y : Outline) (h : x.Connection → y.Connection → x.tuple ≠ y.tuple) :
    y.Connection → x.Connection → y.tuple ≠ x.tuple := fun hy hx he => h hx hy he.symm

/-- A change that makes no connection and gives none another tuple. -/
theorem Distinct.set (hd : b.Distinct) {i : Nat} {o o' : Outline} (ho : b.socks[i]? = some o)
    (hsame : o'.Connection → o.Connection ∧ o'.tuple = o.tuple) : (b.set i o').Distinct :=
  Table.Apart.set_le distinct_symm hd ho fun _ hy hx hcy => (hsame hx).2 ▸ hy (hsame hx).1 hcy

/-- A connection gets a tuple. -/
theorem Distinct.set_iff (hd : b.Distinct) {i : Nat} {o o' : Outline} (ho : b.socks[i]? = some o) (hc : o'.Connection) :
    (b.set i o').Distinct ↔ b.Unused i o'.tuple := by
  constructor
  · intro hd' j x hj hx hcx
    exact hd' hj ((Table.getElem?_set_ne hj o').trans hx) (Table.getElem?_set_self ho) hcx hc
  · intro hu
    exact Table.Apart.set distinct_symm hd fun j y hj hy _ hcy he => hu j y hj hy hcy he.symm

theorem Distinct.add_iff (hd : b.Distinct) {o : Outline} (hc : o.Connection) :
    (b.add o).Distinct ↔ b.Unused b.socks.length o.tuple := by
  constructor
  · intro hd' j x hj hx hcx
    exact hd' hj (Table.getElem?_append_old hx o) (Table.getElem?_append_new b.socks o) hcx hc
  · intro hu
    refine Table.Apart.append distinct_symm hd fun j y hy _ hcy he => ?_
    exact hu j y (Nat.ne_of_lt (Table.lt_length hy)) hy hcy he.symm

theorem Distinct.add (hd : b.Distinct) {o : Outline} (hc : ¬ o.Connection) : (b.add o).Distinct :=
  Table.Apart.append distinct_symm hd fun _ _ _ hc' => absurd hc' hc

theorem pushed_connection (i p j : Nat) (o : Outline) : (pushed i p j o).Connection ↔ o.Connection := by
  unfold pushed
  split <;> rfl

theorem pushed_tuple (i p j : Nat) (o : Outline) : (pushed i p j o).tuple = o.tuple := by
  unfold pushed
  split <;> rfl

theorem push_distinct (i p : Nat) : (b.push i p).Distinct ↔ b.Distinct := by
  constructor
  · intro hd j k x y hjk hx hy hcx hcy
    have hd' := hd hjk (by rw [push_socks, hx]; rfl) (by rw [push_socks, hy]; rfl) ((pushed_connection i p j x).mpr hcx)
      ((pushed_connection i p k y).mpr hcy)
    rwa [pushed_tuple, pushed_tuple] at hd'
  · intro hd j k x y hjk hx hy hcx hcy
    rw [push_socks] at hx hy
    obtain ⟨x', hx', rfl⟩ := Option.map_eq_some_iff.mp hx
    obtain ⟨y', hy', rfl⟩ := Option.map_eq_some_iff.mp hy
    rw [pushed_tuple, pushed_tuple]
    exact hd hjk hx' hy' ((pushed_connection i p j x').mp hcx) ((pushed_connection i p k y').mp hcy)

/-! ## Names -/

def Named (b : Board) : Prop := ∀ o ∈ b.socks, o.Named

theorem Named.set (hn : b.Named) {i : Nat} {o' : Outline} (ho : o'.Named) : (b.set i o').Named := Table.forall_set hn ho

theorem Named.add (hn : b.Named) {o : Outline} (ho : o.Named) : (b.add o).Named := by
  intro x hx
  rcases List.mem_append.mp hx with hx | hx
  · exact hn x hx
  · rw [List.mem_singleton.mp hx]
    exact ho

theorem Named.push (hn : b.Named) (i p : Nat) : (b.push i p).Named := by
  unfold Board.push
  split
  · exact Table.forall_modify hn fun o ho => ⟨(hn o ho).underway, (hn o ho).peerless⟩
  · exact hn

end Board

namespace Host

variable {h : Host}

theorem sock_named (hn : h.board.Named) {i : Nat} {k : Socket} (hk : h.sockets[i]? = some k) : k.outline.Named :=
  hn _ (List.mem_of_getElem? (board_socks hk))

/-- A connected socket that runs does not become a listener. -/
theorem runs_named (hs : h.Sound) (hn : h.board.Named) {i : Nat} {k : Socket} (hk : h.sockets[i]? = some k) (ev : Event) :
    Outline.Named { k.outline with state := (k.conn.step ev).sk.state, saddr := h.homeAfter k ev } := by
  have hkn := sock_named hn hk
  have hun : (k.conn.step ev).sk.state.unopened → (k.conn.step ev).sk.state = k.sk.state :=
    Conn.step_unopened (hs.sock hk).readers
  refine ⟨fun hc => ⟨fun hst => ?_, fun hst => ?_⟩, hkn.peerless⟩
  · have hst : (k.conn.step ev).sk.state = .close := hst
    exact (hkn.underway hc).1 ((hun (by rw [hst]; rfl)).symm.trans hst)
  · have hst : (k.conn.step ev).sk.state = .listen := hst
    exact (hkn.underway hc).2 ((hun (by rw [hst]; rfl)).symm.trans hst)

theorem step_named (hs : h.Sound) (hn : h.board.Named) (e : HostEvent) : (h.step e).board.Named := by
  have ht := step_turn hs e
  generalize (h.step e).board = b at ht ⊢
  cases ht with
  | still | wait => exact hn
  | create => exact hn.add ⟨nofun, fun _ => ⟨rfl, rfl⟩⟩
  | fork => exact hn.add ⟨fun _ => ⟨nofun, nofun⟩, nofun⟩
  | bind _ hk | take _ hk | refuse _ hk | free _ hk => exact hn.set ⟨(sock_named hn hk).underway, (sock_named hn hk).peerless⟩
  | @listen i k _ hk _ hst =>
    refine hn.set ⟨fun hc => ?_, (sock_named hn hk).peerless⟩
    exact absurd (show k.outline.state = .close from hst) ((sock_named hn hk).underway hc).1
  | dial => exact hn.set ⟨fun _ => ⟨nofun, nofun⟩, nofun⟩
  | run _ hk => exact hn.set (runs_named hs hn hk _)
  | @shake i ev k _ hk =>
    have hset : (h.board.set i { k.outline with state := (k.conn.step ev).sk.state, saddr := h.homeAfter k ev }).Named :=
      hn.set (runs_named hs hn hk ev)
    cases k.sk.ptsk with
    | none => exact hset
    | some p => exact Board.Named.push (b := { h.board.set i _ with opened := h.opened ++ [i] }) hset i p

/-- **A segment belongs to one socket**, if it comes from somewhere: a socket that
was never connected has the address 0 and the port 0 as its peer. -/
def OneMatch (h : Host) : Prop :=
  ∀ (ep : Endpoints) (remoteport localport : U16) (i j : Nat) (x y : Socket), ¬(ep.remote = ep.family.zero ∧ remoteport = 0) →
    h.sockets[i]? = some x → h.sockets[j]? = some y → x.listed → y.listed → x.family = ep.family → y.family = ep.family →
    tcpSockMatchEstablished x.sk ep remoteport localport → tcpSockMatchEstablished y.sk ep remoteport localport → i = j

/-- What `tcp_sock_match_established` compares. -/
theorem match_iff {k : Socket} {ep : Endpoints} {remoteport localport : U16} :
    k.family = ep.family ∧ tcpSockMatchEstablished k.sk ep remoteport localport ↔
      k.sk.state ≠ .listen ∧ k.outline.tuple = (ep.family, ep.home, localport, ep.remote, remoteport) := by
  simp only [tcpSockMatchEstablished, Bool.and_eq_true, decide_eq_true_eq, Outline.tuple, Socket.outline, Prod.mk.injEq]
  tauto

/-- A socket that a segment from somewhere matches is a connection. -/
theorem match_connection (hn : h.board.Named) {i : Nat} {k : Socket} {ep : Endpoints} {remoteport localport : U16}
    (hk : h.sockets[i]? = some k) (hl : k.listed) (hfam : k.family = ep.family)
    (hm : tcpSockMatchEstablished k.sk ep remoteport localport) (hep : ¬(ep.remote = ep.family.zero ∧ remoteport = 0)) :
    k.outline.Connection := by
  obtain ⟨hst, ht⟩ := match_iff.mp ⟨hfam, hm⟩
  refine ⟨hl, ?_, hst⟩
  by_contra hc
  obtain ⟨hd, hp⟩ := (sock_named hn hk).peerless (Bool.eq_false_iff.mpr hc)
  simp only [Outline.tuple, Prod.mk.injEq] at ht
  obtain ⟨hf, -, -, hda, hdp⟩ := ht
  rw [hda, hf] at hd
  exact hep ⟨hd, hdp ▸ hp⟩

theorem oneMatch_of_distinct (hn : h.board.Named) (hd : h.board.Distinct) : h.OneMatch := by
  intro ep remoteport localport i j x y hep hx hy hlx hly hfx hfy hmx hmy
  by_contra hij
  refine hd hij (board_socks hx) (board_socks hy) (match_connection hn hx hlx hfx hmx hep)
    (match_connection hn hy hly hfy hmy hep) ?_
  rw [(match_iff.mp ⟨hfx, hmx⟩).2, (match_iff.mp ⟨hfy, hmy⟩).2]

/-- What an event gives a connection is not in use by another: the port and the
source of a `connect`, the address and port of a `bind` on a connected socket,
the source an IPv6 connection without one gets when it sends, and, for a SYN to
the unspecified address, what the listener hands down. -/
def GivesUnused (h : Host) (e : HostEvent) : Prop :=
  match h.deed e with
  | .dial i d => ∀ k, h.sockets[i]? = some k →
    h.board.Unused i (k.family, h.net.writeBack d.saddr d.daddr, d.sport, d.daddr, d.dport)
  | .bind i saddr sport => ∀ k, h.sockets[i]? = some k → k.connected →
    h.board.Unused i (k.family, saddr, sport, k.sk.daddr, k.sk.dport)
  | .fork l ep th => ∀ k, h.sockets[l]? = some k → ep.home = .v6 0 →
    h.board.Unused h.sockets.length (k.family, h.net.writeBack k.sk.saddr ep.remote, k.sk.sport, ep.remote, th.sport)
  | .run i ev => ∀ k, h.sockets[i]? = some k → k.connected → k.sk.saddr = .v6 0 → transmits k.sk (k.conn.step ev).sk →
    h.board.Unused i (k.family, h.net.writeBack k.sk.saddr k.sk.daddr, k.sk.sport, k.sk.daddr, k.sk.dport)
  | _ => True

/-- A source that is there is kept. -/
theorem writeBack_of_ne (net : Net6) {a : Addr} (ha : a ≠ .v6 0) (d : Addr) : net.writeBack a d = a := by
  unfold Net6.writeBack
  split
  next a d =>
    rw [if_neg]
    rintro rfl
    exact ha rfl
  next => rfl

/-- What a socket that runs may do to the tuples. -/
theorem runs_distinct (hs : h.Sound) (hn : h.board.Named) (hd : h.board.Distinct) {i : Nat} {k : Socket} (hk : h.sockets[i]? = some k)
    (hl : k.listed) (ev : Event) :
    (h.board.set i { k.outline with state := (k.conn.step ev).sk.state, saddr := h.homeAfter k ev }).Distinct ↔
      (k.connected → k.sk.saddr = .v6 0 → transmits k.sk (k.conn.step ev).sk →
        h.board.Unused i (k.family, h.net.writeBack k.sk.saddr k.sk.daddr, k.sk.sport, k.sk.daddr, k.sk.dport)) := by
  by_cases hgives : k.connected ∧ k.sk.saddr = .v6 0 ∧ transmits k.sk (k.conn.step ev).sk
  · obtain ⟨hc, hsa, ht⟩ := hgives
    have hconn : Outline.Connection { k.outline with state := (k.conn.step ev).sk.state, saddr := h.homeAfter k ev } :=
      ⟨hl, hc, ((runs_named hs hn hk ev).underway hc).2⟩
    rw [hd.set_iff (board_socks hk) hconn]
    have hhome : h.homeAfter k ev = h.net.writeBack k.sk.saddr k.sk.daddr := if_pos ht
    have htuple : Outline.tuple { k.outline with state := (k.conn.step ev).sk.state, saddr := h.homeAfter k ev } =
        (k.family, h.net.writeBack k.sk.saddr k.sk.daddr, k.sk.sport, k.sk.daddr, k.sk.dport) := by
      rw [← hhome]
      rfl
    rw [htuple]
    exact ⟨fun hu _ _ _ => hu, fun hu => hu hc hsa ht⟩
  · refine iff_of_true ?_ fun hc hsa ht => absurd ⟨hc, hsa, ht⟩ hgives
    refine hd.set (board_socks hk) fun hconn => ?_
    have hc : k.connected := hconn.2.1
    refine ⟨⟨hl, hc, ((sock_named hn hk).underway hc).2⟩, ?_⟩
    have hhome : h.homeAfter k ev = k.sk.saddr := by
      unfold homeAfter
      split
      next ht => exact writeBack_of_ne _ (fun hsa => hgives ⟨hc, hsa, ht⟩) _
      next => rfl
    rw [hhome]
    rfl

/-- A SYN to a real address gives the child a tuple nobody has: no connection
matched the segment. -/
theorem fork_unused {l : Nat} {ep : Endpoints} {th : Tcphdr} {k : Socket} (hfam : k.family = ep.family)
    (hm : tcpSockMatchListener k.sk ep th.dport) (hno : h.tcpLookupEstablished ep th.sport th.dport = none) (hhome : ep.home ≠ .v6 0) :
    h.board.Unused l (k.family, h.net.writeBack k.sk.saddr ep.remote, k.sk.sport, ep.remote, th.sport) := by
  simp only [tcpSockMatchListener, Bool.and_eq_true, Bool.or_eq_true, decide_eq_true_eq] at hm
  obtain ⟨⟨-, hport⟩, haddr⟩ := hm
  have haddr : k.sk.saddr = ep.home := haddr.resolve_left hhome
  intro j o _ ho hconn ht
  obtain ⟨x, hx, rfl⟩ := board_sockets ho
  rw [haddr, writeBack_of_ne _ hhome, hport, hfam] at ht
  obtain ⟨hxf, hxm⟩ := match_iff.mpr ⟨hconn.2.2, ht⟩
  have hnone := List.findIdx?_eq_none_iff.mp hno x (List.mem_of_getElem? hx)
  have hxl : x.listed = true := hconn.1
  simp [hxl, hxf, hxm] at hnone

theorem givesUnused_iff (hs : h.Sound) (hn : h.board.Named) (hd : h.board.Distinct) (e : HostEvent) :
    h.GivesUnused e ↔ (h.step e).board.Distinct := by
  unfold GivesUnused
  have ht := step_turn hs e
  generalize (h.step e).board = b at ht ⊢
  cases ht with
  | still hp | wait hp =>
    rw [hp]
    exact iff_of_true trivial hd
  | create hp =>
    rw [hp]
    exact iff_of_true trivial (hd.add fun hc => Bool.false_ne_true hc.2.1)
  | @bind i saddr sport k hp hk hl =>
    rw [hp]
    have hgoal : (h.board.set i { k.outline with saddr := saddr, sport := sport }).Distinct ↔
        (k.connected → h.board.Unused i (k.family, saddr, sport, k.sk.daddr, k.sk.dport)) := by
      by_cases hc : k.connected
      · have hconn : Outline.Connection { k.outline with saddr := saddr, sport := sport } :=
          ⟨hl, hc, ((sock_named hn hk).underway hc).2⟩
        rw [hd.set_iff (board_socks hk) hconn]
        exact ⟨fun hu _ => hu, fun hu => hu hc⟩
      · refine iff_of_true (hd.set (board_socks hk) fun hconn => absurd hconn.2.1 hc) fun hc' => absurd hc' hc
    rw [hgoal]
    exact ⟨fun hu => hu k hk, fun hu k' hk' => Option.some.inj (hk.symm.trans hk') ▸ hu⟩
  | listen hp hk =>
    rw [hp]
    exact iff_of_true trivial (hd.set (board_socks hk) fun hconn => absurd rfl hconn.2.2)
  | @dial i d k hp hk hl =>
    rw [hp]
    have hconn : Outline.Connection { k.outline with
        state := .synSent, saddr := h.net.writeBack d.saddr d.daddr, daddr := d.daddr, sport := d.sport, dport := d.dport
        connected := true } := ⟨hl, rfl, nofun⟩
    rw [hd.set_iff (board_socks hk) hconn]
    exact ⟨fun hu => hu k hk, fun hu k' hk' => Option.some.inj (hk.symm.trans hk') ▸ hu⟩
  | @run i ev k hp hk hl =>
    rw [hp, runs_distinct hs hn hd hk hl ev]
    exact ⟨fun hu => hu k hk, fun hu k' hk' => Option.some.inj (hk.symm.trans hk') ▸ hu⟩
  | @shake i ev k hp hk hl =>
    rw [hp]
    have hset := runs_distinct hs hn hd hk hl ev
    have hgoal : (k.sk.ptsk.toList.foldl (Board.push i)
        { h.board.set i { k.outline with state := (k.conn.step ev).sk.state, saddr := h.homeAfter k ev } with
          opened := h.opened ++ [i] }).Distinct ↔
        (h.board.set i { k.outline with state := (k.conn.step ev).sk.state, saddr := h.homeAfter k ev }).Distinct := by
      cases k.sk.ptsk with
      | none => rfl
      | some p => exact (Board.push_distinct i p).trans Iff.rfl
    rw [hgoal, hset]
    exact ⟨fun hu => hu k hk, fun hu k' hk' => Option.some.inj (hk.symm.trans hk') ▸ hu⟩
  | @fork l ep th k hp hk hl hst hfam hm hno =>
    rw [hp]
    have hconn : Outline.Connection
        { pid := k.pid, fd := h.fd, family := k.family, listed := true, state := .synReceived, ptsk := some l
          saddr := h.net.writeBack k.sk.saddr ep.remote, daddr := ep.remote, sport := k.sk.sport, dport := th.sport
          connected := true, queue := [], accepts := [] } := ⟨rfl, rfl, nofun⟩
    rw [hd.add_iff hconn]
    have hlen : h.board.socks.length = h.sockets.length := List.length_map _
    rw [hlen]
    constructor
    · intro hu
      by_cases hhome : ep.home = .v6 0
      · exact hu k hk hhome
      · exact fork_unused hfam hm hno hhome
    · exact fun hu k' hk' _ => Option.some.inj (hk.symm.trans hk') ▸ hu
  | take hp hk | refuse hp hk =>
    rw [hp]
    exact iff_of_true trivial (hd.set (board_socks hk) fun hconn => ⟨hconn, rfl⟩)
  | free hp hk =>
    rw [hp]
    exact iff_of_true trivial (hd.set (board_socks hk) fun hconn => absurd hconn.1 Bool.false_ne_true)

/-- **The four-tuples of the connections are distinct**, in every state of a run,
and every segment from somewhere matches at most one socket, exactly if no event
gives a connection what another one has. -/
theorem distinct_iff (es : List HostEvent) :
    Machine.Meets step GivesUnused {} es ↔ ∀ n, (run {} (es.take n)).board.Distinct ∧ (run {} (es.take n)).OneMatch := by
  have hinv : ∀ (h : Host) (e : HostEvent), h.Sound ∧ h.board.Named → (h.step e).Sound ∧ (h.step e).board.Named :=
    fun _ e hi => ⟨step_sound hi.1 e, step_named hi.1 hi.2 e⟩
  have hstart : Host.Sound {} ∧ (board {}).Named := ⟨start_sound, fun _ ho => absurd ho List.not_mem_nil⟩
  rw [Machine.Meets.exact_states (I := fun h : Host => h.Sound ∧ h.board.Named) (P := fun h : Host => h.board.Distinct) hinv
      (fun _ e hi hd => givesUnused_iff hi.1 hi.2 hd e) hstart Table.apart_nil es]
  refine forall_congr' fun n => (and_iff_left_of_imp fun hd => ?_).symm
  exact oneMatch_of_distinct (Machine.invariant (I := fun h : Host => h.Sound ∧ h.board.Named) hinv _ hstart).2 hd

/-- A new socket, with descriptor `fd`, connects to a port of the peer. -/
def newConnect (fd : Int) (port : U16) : List HostEvent := [.socket 1 .inet, .connect 1 fd (peerAddr port) 100]

/-- Two connects to port 80, ten ports and almost ten seconds apart. -/
def wrappedPort : List HostEvent :=
  [.tick 50] ++ newConnect 4097 80 ++ newConnect 4098 81 ++ newConnect 4099 81 ++ newConnect 4100 81 ++ newConnect 4101 81 ++
    newConnect 4102 81 ++ newConnect 4103 81 ++ newConnect 4104 81 ++ newConnect 4105 81 ++ newConnect 4106 81 ++
    [.tick 9990] ++ newConnect 4107 80

/-- **Two connections with one four-tuple**: `generate_port` gives port 40051 twice. -/
theorem port_given_twice : ¬ (run {} wrappedPort).board.Distinct := by
  intro hd
  have both : ∀ i ∈ [0, 10], ((run {} wrappedPort).board.socks[i]?).any fun o =>
      o.listed && o.connected && o.state ≠ .listen && o.tuple = (.inet, .v4 lvlIpAddr, 40051, .v4 0x0A000005, 80) := by
    decide +kernel
  obtain ⟨x, hx, hx'⟩ := (Option.any_eq_true _ _).mp (both 0 (by decide))
  obtain ⟨y, hy, hy'⟩ := (Option.any_eq_true _ _).mp (both 10 (by decide))
  simp only [Bool.and_eq_true, decide_eq_true_eq] at hx' hy'
  exact hd (by decide) hx hy ⟨hx'.1.1.1, hx'.1.1.2, hx'.1.2⟩ ⟨hy'.1.1.1, hy'.1.1.2, hy'.1.2⟩ (hx'.2.trans hy'.2.symm)

end Host

end LevelIp
