/-
What each deed leaves on the board.
-/
import LevelIp.HostMoves
import LevelIp.Handshake

namespace LevelIp

/-! ## The lookups -/

namespace Host

variable {h : Host}

theorem getSocket_some {pid : Nat} {fd : Int} {i : Nat} {k : Socket} (hi : h.getSocket pid fd = some i) (hk : h.sockets[i]? = some k) :
    k.listed ∧ k.pid = pid ∧ k.fd = fd := by
  obtain ⟨hlt, hp, -⟩ := List.findIdx?_eq_some_iff_getElem.mp hi
  rw [List.getElem?_eq_getElem hlt] at hk
  rw [Option.some.inj hk] at hp
  simp only [Bool.and_eq_true, decide_eq_true_eq] at hp
  exact ⟨hp.1.1, hp.1.2, hp.2⟩

/-- `get_socket` looks at nothing an update of something else changes. -/
theorem getSocket_update (i : Nat) {f : Socket → Socket} (hf : ∀ k, (f k).listed = k.listed ∧ (f k).pid = k.pid ∧ (f k).fd = k.fd)
    (pid : Nat) (fd : Int) : (h.update i f).getSocket pid fd = h.getSocket pid fd := by
  have hp : ∀ (l : List Socket) (i : Nat),
      (l.modify i f).findIdx? (fun k => k.listed && k.pid = pid && k.fd = fd) =
        l.findIdx? (fun k => k.listed && k.pid = pid && k.fd = fd) := by
    intro l
    induction l with
    | nil => exact fun i => by rw [List.modify_nil]
    | cons k l ih =>
      intro i
      cases i with
      | zero => simp only [List.modify_zero_cons, List.findIdx?_cons, hf k]
      | succ i => simp only [List.modify_succ_cons, List.findIdx?_cons, ih i]
  exact hp _ _

theorem fdOf_update (i : Nat) {f : Socket → Socket} (hf : ∀ k, (f k).fd = k.fd) : (h.update i f).fdOf = h.fdOf := by
  funext j
  unfold fdOf update
  rw [List.getElem?_modify]
  cases h.sockets[j]? with
  | none => rfl
  | some k =>
    dsimp only [Option.map_eq_map, Option.map_some, Option.elim_some]
    split
    · exact hf k
    · rfl

/-- What `socket_lookup` finds: a connection of the segment, or a listener if
there is none. -/
theorem socketLookup_some {ep : Endpoints} {remoteport localport : U16} {i : Nat} {k : Socket}
    (hi : h.socketLookup ep remoteport localport = some i) (hk : h.sockets[i]? = some k) :
    k.listed ∧ k.family = ep.family ∧
      (tcpSockMatchEstablished k.sk ep remoteport localport ∨
        h.tcpLookupEstablished ep remoteport localport = none ∧ tcpSockMatchListener k.sk ep localport) := by
  unfold socketLookup at hi
  cases he : h.tcpLookupEstablished ep remoteport localport with
  | some j =>
    rw [he] at hi
    cases hi
    obtain ⟨hlt, hp, -⟩ := List.findIdx?_eq_some_iff_getElem.mp he
    rw [List.getElem?_eq_getElem hlt] at hk
    rw [Option.some.inj hk] at hp
    simp only [Bool.and_eq_true, decide_eq_true_eq] at hp
    exact ⟨hp.1.1, hp.1.2, .inl hp.2⟩
  | none =>
    rw [he] at hi
    obtain ⟨hlt, hp, -⟩ := List.findIdx?_eq_some_iff_getElem.mp hi
    rw [List.getElem?_eq_getElem hlt] at hk
    rw [Option.some.inj hk] at hp
    simp only [Bool.and_eq_true, decide_eq_true_eq] at hp
    exact ⟨hp.1.1, hp.1.2, .inr ⟨rfl, hp.2⟩⟩

/-- The local address a socket has after a step. -/
def homeAfter (h : Host) (k : Socket) (e : Event) : Addr :=
  if transmits k.sk (k.conn.step e).sk then h.net.writeBack k.sk.saddr k.sk.daddr else k.sk.saddr

/-- What an event leaves on the board. -/
inductive Turn (h : Host) (e : HostEvent) : Board → Prop
  | still : h.deed e = .nothing → Turn h e h.board
  | create {pid : Nat} {family : Family} : h.deed e = .create pid family →
      Turn h e (h.board.add
        { pid := pid, fd := h.fd, family := family, listed := true, state := .close, ptsk := none
          saddr := family.zero, daddr := family.zero, sport := 0, dport := 0, connected := false, queue := [], accepts := [] })
  | bind {i : Nat} {saddr : Addr} {sport : U16} {k : Socket} : h.deed e = .bind i saddr sport → h.sockets[i]? = some k → k.listed →
      Turn h e (h.board.set i { k.outline with saddr := saddr, sport := sport })
  | listen {i : Nat} {k : Socket} : h.deed e = .listen i → h.sockets[i]? = some k → k.listed → k.sk.state = .close →
      Turn h e (h.board.set i { k.outline with state := .listen, queue := [] })
  | dial {i : Nat} {d : Dest} {k : Socket} : h.deed e = .dial i d → h.sockets[i]? = some k → k.listed → k.sk.state = .close →
      Turn h e (h.board.set i
        { k.outline with
          state := .synSent, saddr := h.net.writeBack d.saddr d.daddr, daddr := d.daddr, sport := d.sport, dport := d.dport
          connected := true })
  | run {i : Nat} {ev : Event} {k : Socket} : h.deed e = .run i ev → h.sockets[i]? = some k → k.listed → k.conn.shakes ev = false →
      Turn h e (h.board.set i { k.outline with state := (k.conn.step ev).sk.state, saddr := h.homeAfter k ev })
  | shake {i : Nat} {ev : Event} {k : Socket} : h.deed e = .run i ev → h.sockets[i]? = some k → k.listed → k.conn.shakes ev →
      Turn h e (k.sk.ptsk.toList.foldl (Board.push i)
        { h.board.set i { k.outline with state := (k.conn.step ev).sk.state, saddr := h.homeAfter k ev } with
          opened := h.opened ++ [i] })
  | fork {l : Nat} {ep : Endpoints} {th : Tcphdr} {k : Socket} : h.deed e = .fork l ep th → h.sockets[l]? = some k → k.listed →
      k.sk.state = .listen → k.family = ep.family → tcpSockMatchListener k.sk ep th.dport →
      h.tcpLookupEstablished ep th.sport th.dport = none →
      Turn h e (h.board.add
        { pid := k.pid, fd := h.fd, family := k.family, listed := true, state := .synReceived, ptsk := some l
          saddr := h.net.writeBack k.sk.saddr ep.remote, daddr := ep.remote, sport := k.sk.sport, dport := th.sport
          connected := true, queue := [], accepts := [] })
  | wait {p : Nat} {k : Socket} : h.deed e = .take p → h.sockets[p]? = some k → k.listed → k.connQueue = [] → Turn h e h.board
  | take {p child : Nat} {rest : List Nat} {k : Socket} : h.deed e = .take p → h.sockets[p]? = some k → k.listed →
      k.connQueue = child :: rest →
      Turn h e (h.board.set p
        { k.outline with
          queue := rest
          accepts := if (h.getSocket k.pid (h.fdOf child)).isSome then k.accepts ++ [h.fdOf child] else k.accepts })
  | refuse {i : Nat} {rc : Int} {k : Socket} : h.deed e = .refuse i rc → h.sockets[i]? = some k → k.listed → rc < 0 →
      Turn h e (h.board.set i { k.outline with accepts := k.accepts ++ [rc] })
  | free {i : Nat} {k : Socket} : h.deed e = .free i → h.sockets[i]? = some k →
      Turn h e (h.board.set i { k.outline with listed := false })

/-! ## Every event takes one -/

theorem callDeed_turn {e : HostEvent} {pid : Nat} {fd : Int} {run : Nat → Socket → Host} {deed : Nat → Socket → Deed}
    (hd : h.deed e = h.callDeed pid fd deed)
    (hrun : ∀ i k, h.sockets[i]? = some k → k.listed → h.deed e = deed i k → Turn h e (run i k).board) :
    Turn h e (h.withSocket pid fd run).board := by
  unfold callDeed at hd
  rcases withSocket_cases h pid fd run with ⟨hc, hr⟩ | ⟨i, k, hc, hk, hr⟩ <;> rw [hr] <;> rw [hc] at hd
  · exact .still hd
  · exact hrun i k hk (getSocket_some (called_some hc).1 hk).1 hd

theorem sleeperDeed_turn {e : HostEvent} {i : Nat} {asleep : Socket → Bool} {run : Socket → Host} {deed : Socket → Deed}
    (hd : h.deed e = h.sleeperDeed i asleep deed)
    (hrun : ∀ k, h.sockets[i]? = some k → k.listed → h.deed e = deed k → Turn h e (run k).board) :
    Turn h e (h.withSleeper i asleep run).board := by
  unfold sleeperDeed at hd
  rcases withSleeper_cases h i asleep run with ⟨hc, hr⟩ | ⟨k, hc, hk, hr⟩ <;> rw [hr] <;> rw [hc] at hd
  · exact .still hd
  · exact hrun k hk (slept_some hc).2.2 hd

/-- A socket after code has run on it. -/
theorem outline_sourced (net : Net6) (k : Socket) (c : Conn) :
    Socket.outline { k with conn := { c with sk := sourced net k.sk c.sk } } =
      { k.outline with
        state := c.sk.state, ptsk := c.sk.ptsk, daddr := c.sk.daddr, sport := c.sk.sport, dport := c.sk.dport
        saddr := if transmits k.sk c.sk then net.writeBack c.sk.saddr c.sk.daddr else c.sk.saddr } := by
  cases ht : transmits k.sk c.sk with
  | false =>
    rw [show sourced net k.sk c.sk = c.sk by rw [sourced, ht]; rfl]
    rfl
  | true =>
    rw [show sourced net k.sk c.sk = { c.sk with saddr := net.writeBack c.sk.saddr c.sk.daddr } by rw [sourced, ht]; rfl]
    rfl

/-- A socket after a step of its own. -/
theorem outline_step {k : Socket} (hr : k.conn.OnlyReaders) (ev : Event) :
    Socket.outline { k with conn := { k.conn.step ev with sk := sourced h.net k.sk (k.conn.step ev).sk } } =
      { k.outline with state := (k.conn.step ev).sk.state, saddr := h.homeAfter k ev } := by
  have he := Conn.step_ends k.conn ev
  have hsa : (k.conn.step ev).sk.saddr = k.sk.saddr := congrArg Ends.saddr he
  have hda : (k.conn.step ev).sk.daddr = k.sk.daddr := congrArg Ends.daddr he
  have hsp : (k.conn.step ev).sk.sport = k.sk.sport := congrArg Ends.sport he
  have hdp : (k.conn.step ev).sk.dport = k.sk.dport := congrArg Ends.dport he
  have hps : (k.conn.step ev).sk.ptsk = k.sk.ptsk := Conn.step_ptsk hr ev
  rw [outline_sourced, hsa, hda, hsp, hdp, hps]
  rfl

theorem ran_turn {e : HostEvent} {i : Nat} {ev : Event} {k : Socket} (hs : h.Sound) (hd : h.deed e = .run i ev)
    (hk : h.sockets[i]? = some k) (hl : k.listed) : Turn h e (h.ran i k (k.conn.step ev)).board := by
  have hr := (hs.sock hk).readers
  have hpar : (sourced h.net k.sk (k.conn.step ev).sk).parents = k.sk.parents ++ k.conn.hands ev := by
    rw [sourced_parents]
    exact congrArg Ends.parents (Conn.step_ends k.conn ev)
  have hcomp : completes k.sk (sourced h.net k.sk (k.conn.step ev).sk) = k.conn.shakes ev := by
    rw [← Conn.step_completes hr ev, completes, completes, sourced_state]
    rfl
  rw [ran_board, hpar, List.drop_left, hcomp, outline_step hr, Conn.hands_eq]
  cases hsh : k.conn.shakes ev with
  | false => exact .run hd hk hl hsh
  | true => exact .shake hd hk hl hsh

theorem stepSocket_turn {e : HostEvent} {i : Nat} {ev : Event} {k : Socket} (hs : h.Sound) (hd : h.deed e = .run i ev)
    (hk : h.sockets[i]? = some k) (hl : k.listed) : Turn h e (h.stepSocket i ev).board := by
  rw [stepSocket, hk]
  exact ran_turn hs hd hk hl

theorem addSocket_turn {e : HostEvent} {pid : Nat} {family : Family} {s : TcpSock} {connected : Bool} (hd : h.fd = 2 ^ 31 - 1 → h.deed e = .nothing)
    (ha : h.fd ≠ 2 ^ 31 - 1 → Turn h e (h.board.add
      (Socket.outline { pid := pid, fd := h.fd, family := family, conn := { sk := s }, connected := connected }))) :
    Turn h e (h.addSocket pid family s connected).board := by
  unfold addSocket
  split
  next hfd => exact .still (hd hfd)
  next hfd =>
    have hb := ha hfd
    rw [Board.add] at hb
    simpa only [board, List.map_append, List.map_cons, List.map_nil] using hb

/-- `tcp_connect` sends a SYN. -/
theorem inetStreamConnect_sends {s : TcpSock} (hc : s.sockState = .unconnected) (hs : s.state = .close) (d : Dest) (iss : U32) :
    (inetStreamConnect s d iss).state = .synSent ∧ (inetStreamConnect s d iss).ends = { s.ends with
      saddr := d.saddr, daddr := d.daddr, sport := d.sport, dport := d.dport } ∧
    (inetStreamConnect s d iss).ptsk = s.ptsk ∧ transmits s (inetStreamConnect s d iss) := by
  have ho : inetStreamConnect s d iss = { tcpConnect (s.addressed d) iss with sockState := .connecting, err := -EINPROGRESS } := by
    rw [inetStreamConnect, hc]
    exact if_neg (not_not.mpr hs)
  have hs' : (s.addressed d).state = .close := hs
  rw [ho]
  refine ⟨tcpConnect_state hs' iss, tcpConnect_ends (s.addressed d) iss, ?_, ?_⟩
  · exact (congrArg Core.ptsk (tcpConnect_core hs' iss)).trans rfl
  · have hfx : ∃ q x, (tcpConnect (s.addressed d) iss).fx = s.fx ++ [q, x] ∧ x.isXmit := by
      rw [tcpConnect_eq hs']
      obtain ⟨x, hf, hx⟩ := tcpQueueTransmitSkb_fx (synSock (s.addressed d) iss) (synSkb (synSock (s.addressed d) iss))
      refine ⟨_, x, hf, ?_⟩
      cases x with
      | xmit => rfl
      | _ => exact absurd hx id
    obtain ⟨q, x, hf, hx⟩ := hfx
    unfold transmits
    rw [show ({ tcpConnect (s.addressed d) iss with sockState := .connecting, err := -EINPROGRESS } : TcpSock).fx =
      s.fx ++ [q, x] from hf]
    simp [hx]

theorem inetStreamConnect_refused {s : TcpSock} (hno : ¬(s.sockState = .unconnected ∧ s.state = .close)) (d : Dest) (iss : U32) :
    ∃ err, inetStreamConnect s d iss = { s with err := err } := by
  unfold inetStreamConnect
  split
  case h_3 hc => exact ⟨_, if_pos fun hs => hno ⟨hc, hs⟩⟩
  all_goals exact ⟨_, rfl⟩

/-- What code that opens nothing leaves. -/
theorem ran_quiet (h : Host) (i : Nat) {k : Socket} {c : Conn} (hp : c.sk.parents = k.sk.parents) (hc : completes k.sk c.sk = false) :
    (h.ran i k c).board = h.board.set i
      { k.outline with
        state := c.sk.state, ptsk := c.sk.ptsk, daddr := c.sk.daddr, sport := c.sk.sport, dport := c.sk.dport
        saddr := if transmits k.sk c.sk then h.net.writeBack c.sk.saddr c.sk.daddr else c.sk.saddr } := by
  have hcomp : completes k.sk (sourced h.net k.sk c.sk) = false := by
    rw [← hc, completes, completes, sourced_state]
  rw [ran_board, sourced_parents, hp, List.drop_length, hcomp, outline_sourced]
  rfl

theorem dial_board {i : Nat} {k : Socket} {a : SockAddr} (hc : k.sk.sockState = .unconnected) (hs : k.sk.state = .close)
    (hlen : ¬(k.family = .inet6 ∧ a.len < 28)) (iss : U32) :
    (h.dial i k a iss).board = h.board.set i
      { k.outline with
        state := .synSent, saddr := h.net.writeBack (h.dest k.family a).saddr (h.dest k.family a).daddr
        daddr := (h.dest k.family a).daddr, sport := (h.dest k.family a).sport, dport := (h.dest k.family a).dport
        connected := true } := by
  obtain ⟨hst, hen, hpt, htx⟩ := inetStreamConnect_sends hc hs (h.dest k.family a) iss
  have hsa : (inetStreamConnect k.sk (h.dest k.family a) iss).saddr = (h.dest k.family a).saddr := congrArg Ends.saddr hen
  have hda : (inetStreamConnect k.sk (h.dest k.family a) iss).daddr = (h.dest k.family a).daddr := congrArg Ends.daddr hen
  have hsp : (inetStreamConnect k.sk (h.dest k.family a) iss).sport = (h.dest k.family a).sport := congrArg Ends.sport hen
  have hdp : (inetStreamConnect k.sk (h.dest k.family a) iss).dport = (h.dest k.family a).dport := congrArg Ends.dport hen
  have hpar : (inetStreamConnect k.sk (h.dest k.family a) iss).parents = k.sk.parents := congrArg Ends.parents hen
  have hcomp : completes k.sk (inetStreamConnect k.sk (h.dest k.family a) iss) = false := by
    rw [completes, hs]
    rfl
  rw [dial, if_neg hlen]
  have hq := ran_quiet { h with port := h.port + 1 } i (k := { k with connected := true, dialing := !k.sk.nonblock })
    (c := { k.conn with sk := inetStreamConnect k.sk (h.dest k.family a) iss }) hpar hcomp
  refine hq.trans ?_
  dsimp only
  rw [hst, hpt, hsa, hda, hsp, hdp]
  exact congrArg (fun saddr => h.board.set i { k.outline with
    state := .synSent, saddr := saddr, daddr := (h.dest k.family a).daddr, sport := (h.dest k.family a).sport
    dport := (h.dest k.family a).dport, connected := true }) (if_pos htx)

theorem connect_turn {e : HostEvent} {i : Nat} {k : Socket} {a : SockAddr} {iss : U32} (hd : h.deed e = h.connectDeed a i k)
    (hk : h.sockets[i]? = some k) (hl : k.listed) : Turn h e (h.connect i k a iss).board := by
  have hfree : h.deed e = .free i → Turn h e (h.socketFree i).board := fun hd => by
    rw [socketFree, update_board hk]
    exact .free hd hk
  unfold connectDeed at hd
  unfold connect
  split
  next hr => exact hfree (by rw [hd, if_pos hr])
  next hr =>
    rw [if_neg hr] at hd
    split
    next hc =>
      rw [if_pos hc] at hd
      simp only [connectable, Bool.and_eq_true, decide_eq_true_eq] at hc
      split at hd
      next hlen =>
        rw [dial, if_pos hlen, update_still hk rfl]
        exact .still hd
      next hlen =>
        rw [dial_board hc.1 hc.2 hlen]
        exact .dial hd hk hl hc.2
    next hc =>
      rw [if_neg hc] at hd
      split
      next hf => exact hfree (by rw [hd, if_pos hf])
      next hf =>
        rw [if_neg hf] at hd
        simp only [connectable, Bool.and_eq_true, decide_eq_true_eq] at hc
        obtain ⟨err, ho⟩ := inetStreamConnect_refused hc {} iss
        rw [update_still hk (by rw [ho]; rfl)]
        exact .still hd

theorem getSocket_negative (hs : h.Sound) (pid : Nat) {fd : Int} (hfd : fd < 0) : h.getSocket pid fd = none := by
  cases hg : h.getSocket pid fd with
  | none => rfl
  | some i =>
    obtain ⟨hlt, -⟩ := List.findIdx?_eq_some_iff_getElem.mp hg
    have hi := List.getElem?_eq_getElem hlt
    have hpos := (hs.sock hi).fd
    rw [(getSocket_some hg hi).2.2] at hpos
    omega

/-- What comes back to the accepter. -/
theorem accepted_board {i : Nat} {k : Socket} (hk : h.sockets[i]? = some k) (fd : Int) (l : Socket) :
    (h.accepted i l fd).board = h.board.set i
      { k.outline with accepts := if (h.getSocket l.pid fd).isSome then k.accepts ++ [fd] else k.accepts } := by
  unfold accepted
  cases hg : h.getSocket l.pid fd with
  | none =>
    rw [Board.set]
    exact (congrArg (fun socks => { h.board with socks := socks }) (Table.set_same (board_socks hk))).symm
  | some j => exact update_board hk _

/-- A turn of an `_accept`: with a queue, its head goes, and comes back if
`get_socket` finds it. -/
theorem acceptTurn_board (hs : h.Sound) {p : Nat} {k : Socket} (hk : h.sockets[p]? = some k) (l : Socket) (hl : l.connQueue = k.connQueue) :
    (h.acceptTurn p l).board = match k.connQueue with
      | [] => h.board
      | child :: rest => h.board.set p
        { k.outline with
          queue := rest
          accepts := if (h.getSocket l.pid (h.fdOf child)).isSome then k.accepts ++ [h.fdOf child] else k.accepts } := by
  unfold acceptTurn
  rw [hl]
  cases hq : k.connQueue with
  | nil =>
    dsimp only
    split
    · rw [accepted_board hk, getSocket_negative hs l.pid (by decide)]
      exact congrArg (fun socks => { h.board with socks := socks }) (Table.set_same (board_socks hk))
    · exact update_still hk rfl
  | cons child rest =>
    have hk' : (h.update p fun k => { k with connQueue := rest }).sockets[p]? = some { k with connQueue := rest } := by
      rw [update, Table.modify_eq_set hk, Table.getElem?_set_self hk]
    dsimp only
    rw [accepted_board hk', getSocket_update, update_board hk, Board.set, Board.set, List.set_set]
    · rfl
    · exact fun k => ⟨rfl, rfl, rfl⟩

theorem acceptTurn_turn {e : HostEvent} {p : Nat} {k : Socket} (hs : h.Sound) (hd : h.deed e = .take p)
    (hk : h.sockets[p]? = some k) (hl : k.listed) : Turn h e (h.acceptTurn p k).board := by
  rw [acceptTurn_board hs hk k rfl]
  cases hq : k.connQueue with
  | nil => exact .wait hd hk hl hq
  | cons child rest => exact .take hd hk hl hq

/-- The sockets as the tick and `socket_adjust_pmtu6` leave them. -/
theorem map_board {f : Socket → Socket} (hf : ∀ k ∈ h.sockets, (f k).outline = k.outline) :
    ({ h with sockets := h.sockets.map f } : Host).board = h.board := by
  have hm : (h.sockets.map f).map Socket.outline = h.sockets.map Socket.outline := by
    rw [List.map_map]
    exact List.map_congr_left hf
  unfold board
  rw [hm]

theorem outline_conn {k : Socket} {c : Conn} (hs : c.sk.state = k.sk.state) (hp : c.sk.ptsk = k.sk.ptsk) (he : c.sk.ends = k.sk.ends) :
    Socket.outline { k with conn := c } = k.outline := by
  simp only [Socket.outline, Socket.sk, Outline.mk.injEq, true_and, and_true]
  exact ⟨hs, hp, congrArg Ends.saddr he, congrArg Ends.daddr he, congrArg Ends.sport he, congrArg Ends.dport he⟩

/-- A timer that comes due shows nowhere before its handler runs. -/
theorem dispatch_board (h : Host) (i n : Nat) : (h.stepSocket i (.dispatch n)).board = h.board := by
  unfold stepSocket
  cases hk : h.sockets[i]? with
  | none => rfl
  | some k =>
    have hstep : (k.conn.step (.dispatch n)).sk.state = k.sk.state ∧ (k.conn.step (.dispatch n)).sk.ptsk = k.sk.ptsk ∧
        (k.conn.step (.dispatch n)).sk.fx = k.sk.fx := by
      unfold Conn.step
      split
      · exact ⟨rfl, rfl, rfl⟩
      · dsimp only [Conn.dispatch]
        split <;> exact ⟨rfl, rfl, rfl⟩
    have he : (k.conn.step (.dispatch n)).sk.ends = k.sk.ends := by
      rw [Conn.step_ends, show k.conn.hands (.dispatch n) = [] from rfl, List.append_nil]
      rfl
    obtain ⟨hst, hp, hfx⟩ := hstep
    dsimp only
    generalize k.conn.step (.dispatch n) = c at hst hp hfx he
    have htx : transmits k.sk c.sk = false := by
      rw [transmits, hfx, List.drop_length]
      rfl
    have hcomp : completes k.sk c.sk = false := by
      rw [completes, hst]
      cases k.sk.state <;> rfl
    have hsame : Socket.outline { k with conn := { c with sk := sourced h.net k.sk c.sk } } = k.outline := by
      rw [show sourced h.net k.sk c.sk = c.sk by rw [sourced, htx]; rfl]
      exact outline_conn hst hp he
    rw [ran_board, sourced_parents, show c.sk.parents = k.sk.parents from congrArg Ends.parents he, List.drop_length, hsame,
      Table.set_same (board_socks hk), show sourced h.net k.sk c.sk = c.sk by rw [sourced, htx]; rfl, hcomp]
    rfl

theorem forkSocket_ends (l : TcpSock) (th : Tcphdr) (env : SynEnv) (p : Option Nat) :
    TcpSock.ends { forkSocket l th env with ptsk := p } =
      { saddr := l.saddr, daddr := env.saddr, sport := l.sport, dport := th.sport, parents := [] } := by
  have hfx := forkSocket_fx l th env
  have hp : TcpSock.parents { forkSocket l th env with ptsk := p } = [] := by
    rw [TcpSock.parents, show ({ forkSocket l th env with ptsk := p } : TcpSock).fx = [] from hfx]
    rfl
  rw [TcpSock.ends, hp]
  unfold forkSocket
  rfl

/-- The child of a SYN. -/
theorem tcpListen_child {l s : TcpSock} {th : Tcphdr} {env : SynEnv} (hc : tcpListen l th env = some s) :
    s.state = .synReceived ∧ s.ptsk = some env.listener ∧
      s.ends = { saddr := l.saddr, daddr := env.saddr, sport := l.sport, dport := th.sport, parents := [] } ∧
      transmits {} s := by
  obtain ⟨hcore, cwnd, x, hfx, hx⟩ := tcpListen_core hc
  refine ⟨congrArg Core.state hcore, congrArg Core.ptsk hcore, ?_, ?_⟩
  · have he := tcpSendSynack_ends { forkSocket l th env with ptsk := some env.listener }
    rw [forkSocket_ends] at he
    unfold tcpListen at hc
    generalize tcpSendSynack { forkSocket l th env with ptsk := some env.listener } = u at hc he
    split at hc
    · rw [← Option.some.inj hc, ← he]
      exact ends_same rfl rfl rfl rfl rfl
    · cases hc
  · unfold transmits
    rw [hfx]
    cases x with
    | xmit => rfl
    | _ => exact absurd hx id

theorem child_outline (net : Net6) {l s : TcpSock} {th : Tcphdr} {env : SynEnv} (hc : tcpListen l th env = some s) (pid : Nat) (fd : Int)
    (family : Family) :
    Socket.outline { pid := pid, fd := fd, family := family, conn := { sk := sourced net {} s }, connected := true } =
      { pid := pid, fd := fd, family := family, listed := true, state := .synReceived, ptsk := some env.listener
        saddr := net.writeBack l.saddr env.saddr, daddr := env.saddr, sport := l.sport, dport := th.sport
        connected := true, queue := [], accepts := [] } := by
  obtain ⟨hst, hp, he, ht⟩ := tcpListen_child hc
  have hsa : s.saddr = l.saddr := congrArg Ends.saddr he
  have hda : s.daddr = env.saddr := congrArg Ends.daddr he
  have hsp : s.sport = l.sport := congrArg Ends.sport he
  have hdp : s.dport = th.sport := congrArg Ends.dport he
  rw [show sourced net {} s = { s with saddr := net.writeBack s.saddr s.daddr } from if_pos ht]
  simp only [Socket.outline, Socket.sk, hst, hp, hsa, hda, hsp, hdp]

theorem arrival_turn {e : HostEvent} {ep : Endpoints} {th : Tcphdr} {data : Payload} {psh : Bool} {iss : U32} (hs : h.Sound)
    (hd : h.deed e = (h.addressee ep th).elim .nothing fun c => h.arrivalDeed ep th data psh c.1 c.2) :
    Turn h e (h.tcpIn ep th data psh iss).board := by
  rcases tcpIn_cases h ep th data psh iss with ⟨hc, hr⟩ | ⟨i, k, hc, hk, hr⟩ <;> rw [hr] <;> rw [hc] at hd
  · exact .still hd
  · have hd : h.deed e = h.arrivalDeed ep th data psh i k := hd
    obtain ⟨hl, hfam, hm⟩ := socketLookup_some (addressee_some hc).1 hk
    unfold arrivalDeed at hd
    split
    next hst =>
      rw [if_neg (not_not.mpr hst)] at hd
      have hm : h.tcpLookupEstablished ep th.sport th.dport = none ∧ tcpSockMatchListener k.sk ep th.dport := by
        rcases hm with hm | hm
        · simp [tcpSockMatchEstablished, hst] at hm
        · exact hm
      cases hch : tcpListen k.sk th { iss := iss, listener := i, saddr := ep.remote } with
      | none =>
        have hsyn : th.syn = false := by
          cases hsyn : th.syn with
          | false => rfl
          | true => rw [tcpListen, if_pos hsyn] at hch; cases hch
        exact .still (by rw [hd, hsyn]; rfl)
      | some child =>
        have hsyn : th.syn = true := by
          by_contra hno
          rw [tcpListen, if_neg hno] at hch
          cases hch
        rw [hsyn, Bool.not_true, Bool.false_or] at hd
        refine addSocket_turn (fun hfd => by rw [hd, if_pos (decide_eq_true hfd)]) fun hfd => ?_
        rw [if_neg (by simpa using hfd)] at hd
        rw [child_outline h.net hch]
        exact .fork hd hk hl hst hfam hm.2 hm.1
    next hst =>
      rw [if_pos hst] at hd
      exact ran_turn hs hd hk hl

/-- **An event leaves what its deed says.** -/
theorem step_turn (hs : h.Sound) (e : HostEvent) : Turn h e (h.step e).board := by
  unfold step
  split
  next hcr => exact .still (if_pos hcr)
  next hcr =>
  cases e with
  | socket pid family =>
    have hd : h.deed (.socket pid family) = if h.fd = 2 ^ 31 - 1 then .nothing else .create pid family := if_neg hcr
    exact addSocket_turn (fun hfd => by rw [hd, if_pos hfd]) fun hfd => .create (by rw [hd, if_neg hfd])
  | bind pid fd a =>
    refine callDeed_turn (if_neg hcr) fun i k hk hl hd => ?_
    unfold bind
    cases hb : bindTo k a with
    | none => exact .still (by rw [hd, hb]; rfl)
    | some d =>
      rw [hb] at hd
      dsimp only
      rw [update_board hk]
      exact .bind hd hk hl
  | listen pid fd n =>
    refine callDeed_turn (if_neg hcr) fun i k hk hl hd => ?_
    unfold listen
    split
    next hno => exact .still (by rw [hd, if_pos hno])
    next hno =>
      rw [if_neg hno] at hd
      have hst : k.sk.state = .close := by
        by_contra hst
        exact hno (.inr (.inr hst))
      rw [update_board hk, show tcpV4Listen k.sk = k.sk.setState .listen from if_pos hst]
      exact .listen hd hk hl hst
  | connect pid fd a iss => exact callDeed_turn (if_neg hcr) fun i k hk hl hd => connect_turn hd hk hl
  | accept pid fd addrlen =>
    refine callDeed_turn (if_neg hcr) fun i k hk hl hd => ?_
    unfold acceptDeed at hd
    unfold accept
    split
    next hlen =>
      rw [if_pos hlen] at hd
      rw [acceptReturns, update_board hk]
      exact .refuse hd hk hl (by decide)
    next hlen =>
      rw [if_neg hlen] at hd
      split
      next hst =>
        rw [if_pos hst] at hd
        rw [acceptReturns, update_board hk]
        exact .refuse hd hk hl (by decide)
      next hst =>
        rw [if_neg hst] at hd
        exact acceptTurn_turn hs hd hk hl
  | write pid fd buf => exact callDeed_turn (if_neg hcr) fun i k hk hl hd => stepSocket_turn hs hd hk hl
  | read pid fd len => exact callDeed_turn (if_neg hcr) fun i k hk hl hd => stepSocket_turn hs hd hk hl
  | close pid fd => exact callDeed_turn (if_neg hcr) fun i k hk hl hd => stepSocket_turn hs hd hk hl
  | fcntl pid fd nonblock => exact callDeed_turn (if_neg hcr) fun i k hk hl hd => stepSocket_turn hs hd hk hl
  | arrives ep th data psh iss => exact arrival_turn hs (if_neg hcr)
  | resume i n => exact sleeperDeed_turn (if_neg hcr) fun k hk hl hd => stepSocket_turn hs hd hk hl
  | acceptWakes i =>
    refine sleeperDeed_turn (if_neg hcr) fun k hk hl hd => ?_
    have hb := update_still hk (f := fun k => { k with accepting := k.accepting - 1 }) rfl
    have hg := getSocket_update (h := h) i (f := fun k => { k with accepting := k.accepting - 1 }) fun k => ⟨rfl, rfl, rfl⟩
    have hf := fdOf_update (h := h) i (f := fun k => { k with accepting := k.accepting - 1 }) fun k => rfl
    have hk' : (h.update i fun k => { k with accepting := k.accepting - 1 }).sockets[i]? =
        some { k with accepting := k.accepting - 1 } := by
      rw [update, Table.modify_eq_set hk, Table.getElem?_set_self hk]
    have hs' : (h.update i fun k => { k with accepting := k.accepting - 1 }).Sound := hs.update fun k hk => hk.change id rfl rfl
    rw [acceptTurn_board hs' hk' k rfl]
    dsimp only
    cases hq : k.connQueue with
    | nil =>
      dsimp only
      rw [hb]
      exact .wait hd hk hl hq
    | cons child rest =>
      dsimp only
      rw [hb, hg, hf]
      exact .take (k := k) hd hk hl hq
  | connectWakes i =>
    refine sleeperDeed_turn (if_neg hcr) fun k hk hl hd => ?_
    unfold wakeDeed at hd
    unfold connectWakes
    split
    next hw => exact .still (by rw [hd, if_pos hw])
    next hw =>
      rw [if_neg hw] at hd
      split
      next herr =>
        rw [if_pos herr] at hd
        rw [update_board hk]
        exact .free hd hk
      next herr =>
        rw [if_neg herr] at hd
        rw [update_still hk rfl]
        exact .still hd
  | dispatch i n =>
    rw [dispatch_board]
    exact .still (if_neg hcr)
  | handler i n => exact sleeperDeed_turn (if_neg hcr) fun k hk hl hd => stepSocket_turn hs hd hk hl
  | collect i =>
    have hd : h.deed (.collect i) = if (h.sockets[i]?).any (·.collector) then .free i else .nothing := if_neg hcr
    dsimp only
    split
    next hc =>
      rw [if_pos hc] at hd
      cases hk : h.sockets[i]? with
      | none => rw [hk] at hc; cases hc
      | some k =>
        rw [socketFree, update_board hk]
        exact .free hd hk
    next hc => exact .still (by rw [hd, if_neg hc])
  | tick ms =>
    have hb : ({ h with tick := h.tick + ms, sockets := h.sockets.map fun k => { k with conn := k.conn.step (.tick ms) } } : Host).board =
        h.board := by
      refine map_board (h := h) fun k _ => outline_conn ?_ ?_ ?_
      · unfold Conn.step
        split <;> rfl
      · unfold Conn.step
        split <;> rfl
      · rw [Conn.step_ends, show k.conn.hands (.tick ms) = [] from rfl, List.append_nil]
        rfl
    rw [hb]
    exact .still (if_neg hcr)
  | adjustPmtu6 daddr pmtu =>
    have hb : ({ h with sockets := h.sockets.map (adjustSocket daddr pmtu) } : Host).board = h.board := by
      refine map_board fun k _ => ?_
      unfold adjustSocket
      split
      · refine outline_conn (quiet_adjustPmtu6 k.sk _).state ?_ ?_ <;> dsimp only [Conn.adjustPmtu6] <;> split <;> rfl
      · rfl
    dsimp only
    rw [hb]
    exact .still (if_neg hcr)
  | abort i =>
    have hd : h.deed (.abort i) = h.sleeperDeed i (fun _ => true) fun _ => .run i .abort := if_neg hcr
    unfold sleeperDeed slept at hd
    dsimp only
    cases hk : h.sockets[i]? with
    | none =>
      rw [hk] at hd
      exact .still hd
    | some k =>
      rw [hk] at hd
      cases hl : k.listed with
      | false =>
        rw [Option.any_some, hl]
        exact .still (by rw [hd, Option.filter_some, hl]; rfl)
      | true =>
        rw [Option.any_some, hl]
        exact stepSocket_turn hs (by rw [hd, Option.filter_some, hl]; rfl) hk hl
  | net6 net => exact .still (if_neg hcr)

/-- Only a socket on the list runs. -/
theorem run_listed (hs : h.Sound) {e : HostEvent} {i : Nat} {ev : Event} {k : Socket} (hd : h.deed e = .run i ev)
    (hk : h.sockets[i]? = some k) : k.listed := by
  have ht := step_turn hs e
  generalize (h.step e).board = b at ht
  cases ht with
  | run hd' hk' hl | shake hd' hk' hl =>
    rw [hd] at hd'
    cases hd'
    rw [hk] at hk'
    cases hk'
    exact hl
  | still hd' | create hd' | bind hd' | listen hd' | dial hd' | fork hd' | wait hd' | take hd' | refuse hd' | free hd' =>
    rw [hd] at hd'
    cases hd'

end Host

end LevelIp
