/-
The link from a socket in SYN_RECEIVED to its listener. A fork sets it to a
listener on the list; it breaks when the listener is done with, or freed, before
the last ACK arrives, and a simultaneous open gets to SYN_RECEIVED without one.
-/
import LevelIp.HostTurns
import LevelIp.Lib.Machine

namespace LevelIp

/-- Parents are older than their children, belong to the same process and have
been listeners; nobody has a parent before the handshake. -/
structure Board.Lineage (b : Board) : Prop where
  orphan : ∀ (i : Nat) (o : Outline), b.socks[i]? = some o → o.state.unopened → o.ptsk = none
  parent : ∀ (i : Nat) (o : Outline) (p : Nat), b.socks[i]? = some o → o.ptsk = some p →
    p < i ∧ ∃ l, b.socks[p]? = some l ∧ l.pid = o.pid ∧ l.state ≠ .close ∧ l.state ≠ .synSent

namespace Board

variable {b : Board}

/-- The outline of socket `j` after socket `i` was put on the queue of `p`. -/
def pushed (i p j : Nat) (o : Outline) : Outline := if j = p ∧ o.listed then { o with queue := o.queue ++ [i] } else o

theorem push_socks (b : Board) (i p j : Nat) : (b.push i p).socks[j]? = (b.socks[j]?).map (pushed i p j) := by
  unfold push
  split
  next hl =>
    obtain ⟨o, ho, hl⟩ := (Option.any_eq_true _ _).mp hl
    dsimp only
    rw [List.getElem?_modify]
    by_cases hj : p = j
    · subst hj
      simp [ho, hl, pushed]
    · cases b.socks[j]? with
      | none => rfl
      | some x => simp [hj, pushed, Ne.symm hj]
  next hl =>
    cases hj : b.socks[j]? with
    | none => rfl
    | some x =>
      have hx : ¬(j = p ∧ x.listed) := by
        rintro ⟨rfl, hx⟩
        exact hl (by rw [hj]; exact hx)
      simp [pushed, hx]

section

variable (i p j : Nat) (o : Outline)

@[simp] theorem pushed_pid : (pushed i p j o).pid = o.pid := by
  unfold pushed
  split <;> rfl

@[simp] theorem pushed_state : (pushed i p j o).state = o.state := by
  unfold pushed
  split <;> rfl

@[simp] theorem pushed_ptsk : (pushed i p j o).ptsk = o.ptsk := by
  unfold pushed
  split <;> rfl

@[simp] theorem pushed_listed : (pushed i p j o).listed = o.listed := by
  unfold pushed
  split <;> rfl

end

/-! ## Lineage -/

theorem Lineage.set (hb : b.Lineage) {i : Nat} {o o' : Outline} (ho : b.socks[i]? = some o) (hpid : o'.pid = o.pid)
    (hp : o'.ptsk = o.ptsk) (hu : o'.state.unopened → o.state.unopened)
    (hs : o'.state = .close ∨ o'.state = .synSent → o.state = .close ∨ o.state = .synSent) : (b.set i o').Lineage := by
  constructor
  · intro j x hx hxu
    rcases Table.getElem?_set_cases hx with ⟨rfl, rfl⟩ | ⟨-, hx⟩
    · exact hp.trans (hb.orphan _ _ ho (hu hxu))
    · exact hb.orphan j x hx hxu
  · intro j x p hx hxp
    have hold : ∃ y, b.socks[j]? = some y ∧ y.ptsk = some p ∧ y.pid = x.pid := by
      rcases Table.getElem?_set_cases hx with ⟨rfl, rfl⟩ | ⟨-, hx⟩
      · exact ⟨o, ho, hp ▸ hxp, hpid.symm⟩
      · exact ⟨x, hx, hxp, rfl⟩
    obtain ⟨y, hy, hyp, hyx⟩ := hold
    obtain ⟨hlt, l, hl, hlp, hl1, hl2⟩ := hb.parent j y p hy hyp
    refine ⟨hlt, ?_⟩
    by_cases hpi : p = i
    · subst hpi
      rw [ho] at hl
      cases hl
      refine ⟨o', Table.getElem?_set_self ho, by rw [hpid, hlp, hyx], ?_, ?_⟩
      · exact fun hc => (hs (.inl hc)).elim hl1 hl2
      · exact fun hc => (hs (.inr hc)).elim hl1 hl2
    · exact ⟨l, (Table.getElem?_set_ne hpi o').trans hl, hlp.trans hyx, hl1, hl2⟩

theorem Lineage.add (hb : b.Lineage) {o : Outline} (hu : o.state.unopened → o.ptsk = none)
    (hp : ∀ p, o.ptsk = some p → ∃ l, b.socks[p]? = some l ∧ l.pid = o.pid ∧ l.state ≠ .close ∧ l.state ≠ .synSent) :
    (b.add o).Lineage := by
  constructor
  · intro j x hx hxu
    rcases Table.getElem?_append_cases hx with hx | ⟨-, rfl⟩
    · exact hb.orphan j x hx hxu
    · exact hu hxu
  · intro j x p hx hxp
    rcases Table.getElem?_append_cases hx with hx | ⟨rfl, rfl⟩
    · obtain ⟨hlt, l, hl, hrest⟩ := hb.parent j x p hx hxp
      exact ⟨hlt, l, Table.getElem?_append_old hl _, hrest⟩
    · obtain ⟨l, hl, hrest⟩ := hp p hxp
      exact ⟨Table.lt_length hl, l, Table.getElem?_append_old hl _, hrest⟩

theorem Lineage.push (hb : b.Lineage) (i q : Nat) : (b.push i q).Lineage := by
  constructor
  · intro j x hx hxu
    rw [push_socks] at hx
    obtain ⟨y, hy, rfl⟩ := Option.map_eq_some_iff.mp hx
    simp only [pushed_state, pushed_ptsk] at hxu ⊢
    exact hb.orphan j y hy hxu
  · intro j x p hx hxp
    rw [push_socks] at hx
    obtain ⟨y, hy, rfl⟩ := Option.map_eq_some_iff.mp hx
    rw [pushed_ptsk] at hxp
    obtain ⟨hlt, l, hl, hrest⟩ := hb.parent j y p hy hxp
    refine ⟨hlt, Board.pushed i q p l, by rw [push_socks, hl]; rfl, ?_⟩
    simpa only [pushed_pid, pushed_state] using hrest

theorem Lineage.mark (hb : b.Lineage) (opened : List Nat) : Lineage { b with opened := opened } := ⟨hb.orphan, hb.parent⟩

end Board

namespace Host

variable {h : Host}

theorem step_lineage (hs : h.Sound) (hb : h.board.Lineage) (e : HostEvent) : (h.step e).board.Lineage := by
  have hrun : ∀ {i : Nat} {ev : Event} {k : Socket}, h.sockets[i]? = some k →
      (h.board.set i { k.outline with state := (k.conn.step ev).sk.state, saddr := h.homeAfter k ev }).Lineage :=
    fun {i ev k} hk => by
      have hun : (k.conn.step ev).sk.state.unopened → (k.conn.step ev).sk.state = k.sk.state :=
        Conn.step_unopened (hs.sock hk).readers
      refine hb.set (board_socks hk) rfl rfl (fun hu => ?_) (fun hc => ?_)
      · exact (show k.outline.state = _ from (hun hu).symm) ▸ hu
      · have hu : (k.conn.step ev).sk.state.unopened := by
          rcases hc with hc | hc <;> exact (show (k.conn.step ev).sk.state = _ from hc) ▸ rfl
        exact (show k.outline.state = _ from (hun hu).symm) ▸ hc
  have ht := step_turn hs e
  generalize (h.step e).board = b at ht ⊢
  cases ht with
  | still | wait => exact hb
  | create => exact hb.add (fun _ => rfl) nofun
  | bind _ hk | take _ hk | refuse _ hk | free _ hk => exact hb.set (board_socks hk) rfl rfl id id
  | @listen i k _ hk _ hst =>
    have hst : k.outline.state = .close := hst
    exact hb.set (board_socks hk) rfl rfl (fun _ => hst ▸ rfl) fun hc => by rcases hc with hc | hc <;> cases hc
  | @dial i d k _ hk _ hst =>
    have hst : k.outline.state = .close := hst
    exact hb.set (board_socks hk) rfl rfl (fun _ => hst ▸ rfl) fun _ => .inl hst
  | run _ hk => exact hrun hk
  | @shake i ev k _ hk =>
    cases k.sk.ptsk with
    | none => exact (hrun hk).mark _
    | some p => exact ((hrun hk).mark _).push _ p
  | @fork l ep th k _ hk _ hst =>
    refine hb.add nofun fun p hp => ?_
    cases hp
    have hst : k.outline.state = .listen := hst
    exact ⟨k.outline, board_socks hk, rfl, by rw [hst]; nofun, by rw [hst]; nofun⟩

end Host

/-! ## Live parents -/

namespace Board

/-- Socket `p` is on the list and in LISTEN. -/
def Listening (b : Board) (p : Nat) : Prop := ∃ l, b.socks[p]? = some l ∧ l.listed ∧ l.state = .listen

/-- A socket on the list is in SYN_RECEIVED with `p` as its parent. -/
def HasChild (b : Board) (p : Nat) : Prop :=
  ∃ (i : Nat) (o : Outline), b.socks[i]? = some o ∧ o.listed ∧ o.state = .synReceived ∧ o.ptsk = some p

/-- **Every socket in SYN_RECEIVED has a parent on the list and in LISTEN.** -/
def Parented (b : Board) : Prop :=
  ∀ (i : Nat) (o : Outline), b.socks[i]? = some o → o.listed → o.state = .synReceived → ∃ p, o.ptsk = some p ∧ b.Listening p

variable {b : Board}

/-- A change of one socket, which neither brings it into SYN_RECEIVED nor takes
a listener from its children. -/
theorem Parented.set (hp : b.Parented) {i : Nat} {o o' : Outline} (ho : b.socks[i]? = some o)
    (hptsk : o'.ptsk = o.ptsk) (hin : o'.listed → o'.state = .synReceived → o.listed ∧ o.state = .synReceived)
    (hout : o.listed → o.state = .listen → (o'.listed ∧ o'.state = .listen) ∨ ¬ b.HasChild i) : (b.set i o').Parented := by
  intro j x hx hl hst
  have hold : ∃ y, b.socks[j]? = some y ∧ y.listed ∧ y.state = .synReceived ∧ y.ptsk = x.ptsk := by
    rcases Table.getElem?_set_cases hx with ⟨rfl, rfl⟩ | ⟨-, hx⟩
    · obtain ⟨hl, hst⟩ := hin hl hst
      exact ⟨o, ho, hl, hst, hptsk.symm⟩
    · exact ⟨x, hx, hl, hst, rfl⟩
  obtain ⟨y, hy, hyl, hys, hyx⟩ := hold
  obtain ⟨p, hyp, l, hpl, hll, hls⟩ := hp j y hy hyl hys
  refine ⟨p, hyx ▸ hyp, ?_⟩
  by_cases hpi : p = i
  · subst hpi
    rw [ho] at hpl
    cases hpl
    rcases hout hll hls with ⟨hl', hs'⟩ | hno
    · exact ⟨o', Table.getElem?_set_self ho, hl', hs'⟩
    · exact absurd ⟨j, y, hy, hyl, hys, hyp⟩ hno
  · exact ⟨l, (Table.getElem?_set_ne hpi o').trans hpl, hll, hls⟩

/-- A listener that goes while it has a child. -/
theorem HasChild.breaks {i : Nat} {o o' : Outline} (hc : b.HasChild i) (hb : b.Lineage) (ho : b.socks[i]? = some o)
    (hno : ¬(o'.listed ∧ o'.state = .listen)) : ¬ (b.set i o').Parented := by
  intro hp
  obtain ⟨j, y, hy, hyl, hys, hyp⟩ := hc
  have hji : j ≠ i := by
    have := (hb.parent j y i hy hyp).1
    omega
  obtain ⟨p, hyp', l, hpl, hll, hls⟩ := hp j y ((Table.getElem?_set_ne hji o').trans hy) hyl hys
  rw [hyp] at hyp'
  cases hyp'
  have hl : l = o' := Option.some.inj (hpl.symm.trans (Table.getElem?_set_self ho))
  exact hno (hl ▸ ⟨hll, hls⟩)

theorem Parented.add (hp : b.Parented) {o : Outline} (hnew : o.state = .synReceived → ∃ p, o.ptsk = some p ∧ b.Listening p) :
    (b.add o).Parented := by
  intro j x hx hl hst
  have hold : ∃ p, x.ptsk = some p ∧ b.Listening p := by
    rcases Table.getElem?_append_cases hx with hx | ⟨-, rfl⟩
    · exact hp j x hx hl hst
    · exact hnew hst
  obtain ⟨p, hxp, l, hpl, hrest⟩ := hold
  exact ⟨p, hxp, l, Table.getElem?_append_old hpl _, hrest⟩

theorem Parented.push (hp : b.Parented) (i q : Nat) : (b.push i q).Parented := by
  intro j x hx hl hst
  rw [push_socks] at hx
  obtain ⟨y, hy, rfl⟩ := Option.map_eq_some_iff.mp hx
  rw [pushed_listed] at hl
  rw [pushed_state] at hst
  obtain ⟨p, hyp, l, hpl, hrest⟩ := hp j y hy hl hst
  refine ⟨p, (pushed_ptsk i q j y).trans hyp, pushed i q p l, by rw [push_socks, hpl]; rfl, ?_⟩
  simpa only [pushed_listed, pushed_state] using hrest

theorem Parented.mark (hp : b.Parented) (opened : List Nat) : Parented { b with opened := opened } := hp

end Board

namespace Host

variable {h : Host}

/-- No SYN crosses ours, and no listener is done with, or freed, while a child
of it is in SYN_RECEIVED. -/
def KeepsParents (h : Host) (e : HostEvent) : Prop :=
  match h.deed e with
  | .run i ev => ∀ k, h.sockets[i]? = some k →
    k.conn.crosses ev = false ∧ (k.sk.state = .listen → k.conn.finishes ev → ¬ h.board.HasChild i)
  | .free p => ¬ h.board.HasChild p
  | _ => True

/-- `add_tsk_to_parent_establied_conn_list` runs with a listener. -/
def HandsToListener (h : Host) (e : HostEvent) : Prop :=
  ∀ i ev k, h.deed e = .run i ev → h.sockets[i]? = some k → k.conn.shakes ev → ∃ p, k.sk.ptsk = some p ∧ h.board.Listening p

theorem shakes_state {c : Conn} {ev : Event} (hs : c.shakes ev) : c.sk.state = .synReceived := by
  cases ev with
  | segment th data psh =>
    simp only [Conn.shakes, TcpSock.shakes, Bool.and_eq_true, decide_eq_true_eq] at hs
    exact hs.2.1.1
  | _ => cases hs

/-- A socket that runs without opening: what it may do to the links. -/
theorem runs_parented (hs : h.Sound) (hb : h.board.Lineage) (hp : h.board.Parented) {i : Nat} {ev : Event} {k : Socket}
    (hk : h.sockets[i]? = some k) (hl : k.listed) :
    (h.board.set i { k.outline with state := (k.conn.step ev).sk.state, saddr := h.homeAfter k ev }).Parented ↔
      k.conn.crosses ev = false ∧ (k.sk.state = .listen → k.conn.finishes ev → ¬ h.board.HasChild i) := by
  have hr := (hs.sock hk).readers
  have hin := Conn.step_synReceived hr ev
  constructor
  · intro hp'
    refine ⟨?_, fun hst hf hc => ?_⟩
    · by_contra hx
      rw [Bool.not_eq_false] at hx
      obtain ⟨hs', hne⟩ := hin.mpr hx
      have hsyn : k.sk.state = .synSent := by
        cases ev with
        | segment th data psh =>
          simp only [Conn.crosses, TcpSock.crosses, Bool.and_eq_true, decide_eq_true_eq] at hx
          exact hx.2.1.1.1.1
        | _ => cases hx
      obtain ⟨p, hpt, -⟩ := hp' i _ (Table.getElem?_set_self (board_socks hk)) hl hs'
      have hno := hb.orphan i _ (board_socks hk) (by rw [show k.outline.state = .synSent from hsyn]; rfl)
      rw [show k.outline.ptsk = some p from hpt] at hno
      cases hno
    · refine hc.breaks hb (board_socks hk) (fun hl' => ?_) hp'
      have hst' : (k.conn.step ev).sk.state = .closing := by rw [Conn.step_listen hr hst ev, if_pos hf]
      rw [show (k.conn.step ev).sk.state = .listen from hl'.2] at hst'
      cases hst'
  · rintro ⟨hx, hf⟩
    refine hp.set (board_socks hk) rfl (fun _ hs' => ⟨hl, ?_⟩) fun _ hst => ?_
    · by_contra hne
      exact absurd (hin.mp ⟨hs', hne⟩) (by rw [hx]; exact Bool.false_ne_true)
    · by_cases hfin : k.conn.finishes ev
      · exact .inr (hf hst hfin)
      · exact .inl ⟨hl, by rw [Conn.step_listen hr hst ev, if_neg hfin]⟩

theorem keepsParents_iff (hs : h.Sound) (hb : h.board.Lineage) (hp : h.board.Parented) (e : HostEvent) :
    h.KeepsParents e ↔ h.HandsToListener e ∧ (h.step e).board.Parented := by
  have hands : h.HandsToListener e := fun i ev k hd hk hsh =>
    hp i k.outline (board_socks hk) (run_listed hs hd hk) (shakes_state hsh)
  rw [and_iff_right hands]
  unfold KeepsParents
  have ht := step_turn hs e
  generalize (h.step e).board = b at ht ⊢
  cases ht with
  | still hd | wait hd =>
    rw [hd]
    exact iff_of_true trivial hp
  | create hd =>
    rw [hd]
    exact iff_of_true trivial (hp.add (by simp))
  | bind hd hk | take hd hk | refuse hd hk =>
    rw [hd]
    exact iff_of_true trivial (hp.set (board_socks hk) rfl (fun hl hst => ⟨hl, hst⟩) fun hl hst => .inl ⟨hl, hst⟩)
  | @listen i k hd hk _ hst =>
    rw [hd]
    refine iff_of_true trivial (hp.set (board_socks hk) rfl (fun _ => by simp) fun _ hst' => ?_)
    rw [show k.outline.state = .close from hst] at hst'
    cases hst'
  | @dial i d k hd hk _ hst =>
    rw [hd]
    refine iff_of_true trivial (hp.set (board_socks hk) rfl (fun _ => by simp) fun _ hst' => ?_)
    rw [show k.outline.state = .close from hst] at hst'
    cases hst'
  | run hd hk hl =>
    rw [hd, runs_parented hs hb hp hk hl]
    exact ⟨fun hok => hok _ hk, fun hok k' hk' => Option.some.inj (hk.symm.trans hk') ▸ hok⟩
  | @shake i ev k hd hk hl hsh =>
    rw [hd]
    have hst := shakes_state hsh
    have hok : k.conn.crosses ev = false ∧ (k.sk.state = .listen → k.conn.finishes ev → ¬ h.board.HasChild i) := by
      refine ⟨?_, fun hl => ?_⟩
      · cases ev <;> simp [Conn.crosses, TcpSock.crosses, hst]
      · rw [show k.sk.state = .synReceived from hst] at hl
        cases hl
    refine iff_of_true (fun k' hk' => Option.some.inj (hk.symm.trans hk') ▸ hok) ?_
    have hset := (runs_parented hs hb hp hk hl).mpr hok
    cases k.sk.ptsk with
    | none => exact hset.mark _
    | some p => exact (hset.mark _).push _ p
  | @fork l ep th k hd hk hl hst =>
    rw [hd]
    exact iff_of_true trivial (hp.add fun _ => ⟨l, rfl, k.outline, board_socks hk, hl, hst⟩)
  | @free i k hd hk =>
    rw [hd]
    constructor
    · exact fun hno => hp.set (board_socks hk) rfl (by simp) fun _ _ => .inr hno
    · exact fun hp' hc => hc.breaks hb (board_socks hk) (fun hl => Bool.false_ne_true hl.1) hp'

/-- A stack without sockets. -/
theorem start_sound : Sound {} := ⟨fun _ hk => absurd hk List.not_mem_nil, by decide⟩

theorem start_lineage : (board {}).Lineage := ⟨fun _ _ => nofun, fun _ _ _ => nofun⟩

/-- **The parent link.** In every run, every socket in SYN_RECEIVED has a
listener on the list as its parent, and only such parents are handed children,
exactly if no SYN crosses ours and no listener is done with or freed while a
child of it is in SYN_RECEIVED. -/
theorem parented_iff (es : List HostEvent) :
    Machine.Meets step KeepsParents {} es ↔
      Machine.Meets step HandsToListener {} es ∧ ∀ n, (run {} (es.take n)).board.Parented := by
  refine Machine.Meets.exact (I := fun h : Host => h.Sound ∧ h.board.Lineage) (P := fun h : Host => h.board.Parented) ?_ ?_ ⟨start_sound, start_lineage⟩ ?_ es
  · exact fun _ e hi => ⟨step_sound hi.1 e, step_lineage hi.1 hi.2 e⟩
  · exact fun _ e hi hp => keepsParents_iff hi.1 hi.2 hp e
  · intro i o ho
    cases ho

/-- The address `10.0.0.5` and a port of it. -/
def peerAddr (port : U16) : SockAddr := { family := .inet, addr4 := 0x0A000005, port := port, len := 16 }

/-- The stack's own address, with a port. -/
def ownAddr (port : U16) : SockAddr := { family := .inet, addr4 := lvlIpAddr, port := port, len := 16 }

def fromPeer (th : Tcphdr) : HostEvent := .arrives (.v4 0x0A000005 lvlIpAddr) th Payload.nil false 700

/-- A `connect` whose SYN crosses one from the peer. -/
def crossedOpen : List HostEvent :=
  [.socket 1 .inet, .connect 1 4097 (peerAddr 80) 100,
    fromPeer { sport := 80, dport := 40001, seq := 500, ackSeq := 0, syn := true, win := 10000 }]

/-- The ACK of the SYN-ACK that answered the peer's SYN. -/
def lastAck : Tcphdr := { sport := 80, dport := 40001, seq := 501, ackSeq := 101, ack := true, win := 10000 }

/-- A listener that is closed after a SYN has come. -/
def closedListener : List HostEvent :=
  [.socket 1 .inet, .bind 1 4097 (ownAddr 7000), .listen 1 4097 5,
    fromPeer { sport := 3000, dport := 7000, seq := 500, ackSeq := 0, syn := true, win := 10000 }, .close 1 4097]

/-- **What breaks the link.** A SYN that crosses the one of a `connect` leads to
SYN_RECEIVED without a parent, and the ACK that follows is handed to nobody. A
listener closed after a SYN has come leaves a child whose parent does not
listen. -/
theorem parent_lost : ¬ (run {} crossedOpen).board.Parented ∧
    ¬ HandsToListener (run {} crossedOpen) (fromPeer lastAck) ∧
    ¬ (run {} closedListener).board.Parented := by
  refine ⟨fun hp => ?_, fun hh => ?_, fun hp => ?_⟩
  · have h0 : ((run {} crossedOpen).board.socks[0]?).any fun o => o.listed && o.state = .synReceived && o.ptsk = none := by
      decide +kernel
    obtain ⟨o, ho, h0⟩ := (Option.any_eq_true _ _).mp h0
    simp only [Bool.and_eq_true, decide_eq_true_eq] at h0
    obtain ⟨p, hop, -⟩ := hp 0 o ho h0.1.1 h0.1.2
    rw [h0.2] at hop
    cases hop
  · have h0 : ((run {} crossedOpen).sockets[0]?).any fun k =>
        k.conn.shakes (.segment lastAck Payload.nil false) && k.sk.ptsk = none := by
      decide +kernel
    obtain ⟨k, hk, h0⟩ := (Option.any_eq_true _ _).mp h0
    simp only [Bool.and_eq_true, decide_eq_true_eq] at h0
    obtain ⟨p, hkp, -⟩ := hh 0 (.segment lastAck Payload.nil false) k (by decide +kernel) hk h0.1
    rw [h0.2] at hkp
    cases hkp
  · have h1 : ((run {} closedListener).board.socks[1]?).any fun o => o.listed && o.state = .synReceived && o.ptsk = some 0 := by
      decide +kernel
    have h0 : ((run {} closedListener).board.socks[0]?).any fun o => o.state = .closing := by decide +kernel
    obtain ⟨o, ho, h1⟩ := (Option.any_eq_true _ _).mp h1
    obtain ⟨l, hl, h0⟩ := (Option.any_eq_true _ _).mp h0
    simp only [Bool.and_eq_true, decide_eq_true_eq] at h1 h0
    obtain ⟨p, hop, l', hl', -, hst⟩ := hp 1 o ho h1.1.1 h1.1.2
    rw [h1.2] at hop
    cases hop
    rw [Option.some.inj (hl.symm.trans hl')] at h0
    rw [hst] at h0
    cases h0

end Host

end LevelIp
