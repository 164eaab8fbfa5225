/-
The accept queues: what the `_accept`s of a listener have returned, followed by
what is on its queue, is what was opened through it, in that order. The
descriptor of a freed child and the `-EAGAIN` of a nonblocking listener go to
`get_socket` unchecked, and a child of a freed listener has no queue to go to.
-/
import LevelIp.ParentLink

namespace LevelIp

namespace Board

/-- The sockets opened through listener `p`, in order. -/
def openedThrough (b : Board) (p : Nat) : List Nat := b.opened.filter fun i => (b.socks[i]?).any fun o => o.ptsk = some p

def fdOf (b : Board) (i : Nat) : Int := (b.socks[i]?).elim 0 (·.fd)

/-- The descriptors among what the `_accept`s have returned. -/
def accepted (o : Outline) : List Int := o.accepts.filter (0 ≤ ·)

/-- **Each connection is delivered once, in order.** -/
structure Delivers (b : Board) : Prop where
  once : b.opened.Nodup
  order : ∀ (p : Nat) (l : Outline), b.socks[p]? = some l →
    ∃ taken, b.openedThrough p = taken ++ l.queue ∧ accepted l = taken.map b.fdOf
  unrepeated : ∀ (p : Nat) (l : Outline), b.socks[p]? = some l → (accepted l).Nodup

/-- Descriptors are not negative, not repeated, and behind the counter; a socket
that was opened has left SYN_RECEIVED for good. -/
structure Ledger (b : Board) : Prop where
  fds : Table.Apart (fun x y : Outline => x.fd ≠ y.fd) b.socks
  used : ∀ (i : Nat) (o : Outline), b.socks[i]? = some o → 0 ≤ o.fd ∧ o.fd < b.next
  once : b.opened.Nodup
  past : ∀ i ∈ b.opened, ∃ o, b.socks[i]? = some o ∧ ¬ o.state.unopened ∧ o.state ≠ .synReceived

variable {b : Board}

theorem fdOf_eq {i : Nat} {o : Outline} (ho : b.socks[i]? = some o) : b.fdOf i = o.fd := by
  rw [fdOf, ho]
  rfl

theorem mem_openedThrough {i p : Nat} : i ∈ b.openedThrough p ↔ i ∈ b.opened ∧ ∃ o, b.socks[i]? = some o ∧ o.ptsk = some p := by
  unfold openedThrough
  rw [List.mem_filter]
  refine and_congr_right fun _ => ?_
  rw [Option.any_eq_true]
  simp only [decide_eq_true_eq]

/-- The sockets of `b` have the same descriptors and parents in `b'`. -/
def Grows (b b' : Board) : Prop :=
  ∀ (i : Nat) (o : Outline), b.socks[i]? = some o → ∃ o', b'.socks[i]? = some o' ∧ o'.ptsk = o.ptsk ∧ o'.fd = o.fd

theorem Grows.openedThrough_eq {b' : Board} (hg : b.Grows b') (hl : b.Ledger) (ho : b'.opened = b.opened) (p : Nat) :
    b'.openedThrough p = b.openedThrough p := by
  unfold openedThrough
  rw [ho]
  refine List.filter_congr fun i hi => ?_
  obtain ⟨o, hio, -⟩ := hl.past i hi
  obtain ⟨o', hio', hp, -⟩ := hg i o hio
  rw [hio, hio', Option.any_some, Option.any_some, hp]

theorem Grows.fdOf_eq {b' : Board} (hg : b.Grows b') (hl : b.Ledger) {is : List Nat} (his : ∀ i ∈ is, i ∈ b.opened) :
    is.map b'.fdOf = is.map b.fdOf := by
  refine List.map_congr_left fun i hi => ?_
  obtain ⟨o, hio, -⟩ := hl.past i (his i hi)
  obtain ⟨o', hio', -, hf⟩ := hg i o hio
  rw [Board.fdOf_eq hio, Board.fdOf_eq hio', hf]

theorem grows_set {i : Nat} {o o' : Outline} (ho : b.socks[i]? = some o) (hp : o'.ptsk = o.ptsk) (hf : o'.fd = o.fd) :
    b.Grows (b.set i o') := by
  intro j x hx
  by_cases hj : j = i
  · subst hj
    rw [ho] at hx
    cases hx
    exact ⟨o', Table.getElem?_set_self ho, hp, hf⟩
  · exact ⟨x, (Table.getElem?_set_ne hj o').trans hx, rfl, rfl⟩

theorem grows_add (b : Board) (o : Outline) : b.Grows (b.add o) :=
  fun _ x hx => ⟨x, Table.getElem?_append_old hx o, rfl, rfl⟩

theorem pushed_fd (i p j : Nat) (o : Outline) : (pushed i p j o).fd = o.fd := by
  unfold pushed
  split <;> rfl

theorem grows_push (b : Board) (i p : Nat) : b.Grows (b.push i p) :=
  fun j x hx => ⟨pushed i p j x, by rw [push_socks, hx]; rfl, pushed_ptsk i p j x, pushed_fd i p j x⟩

/-! ## The ledger -/

theorem Ledger.set (hl : b.Ledger) {i : Nat} {o o' : Outline} (ho : b.socks[i]? = some o) (hf : o'.fd = o.fd)
    (hs : ¬ o.state.unopened → o.state ≠ .synReceived → ¬ o'.state.unopened ∧ o'.state ≠ .synReceived) : (b.set i o').Ledger where
  fds := hl.fds.set_le (fun _ _ => Ne.symm) ho fun y hy => hf ▸ hy
  used := by
    intro j x hx
    rcases Table.getElem?_set_cases hx with ⟨rfl, rfl⟩ | ⟨-, hx⟩
    · rw [hf]
      exact hl.used _ _ ho
    · exact hl.used j x hx
  once := hl.once
  past := by
    intro j hj
    obtain ⟨x, hx, hun, hsyn⟩ := hl.past j hj
    by_cases hji : j = i
    · subst hji
      rw [ho] at hx
      cases hx
      exact ⟨o', Table.getElem?_set_self ho, hs hun hsyn⟩
    · exact ⟨x, (Table.getElem?_set_ne hji o').trans hx, hun, hsyn⟩

theorem Ledger.add (hl : b.Ledger) {o : Outline} (hf : o.fd = b.next) (hn : 0 ≤ b.next) : (b.add o).Ledger where
  fds := hl.fds.append (fun _ _ => Ne.symm) fun j y hy => by
    have := (hl.used j y hy).2
    omega
  used := by
    intro j x hx
    have hnext : (b.add o).next = b.next + 1 := rfl
    rcases Table.getElem?_append_cases hx with hx | ⟨-, rfl⟩
    · have := hl.used j x hx
      omega
    · omega
  once := hl.once
  past := by
    intro j hj
    obtain ⟨x, hx, hrest⟩ := hl.past j hj
    exact ⟨x, Table.getElem?_append_old hx o, hrest⟩

/-- Socket `i` is opened. -/
theorem Ledger.mark (hl : b.Ledger) {i : Nat} {o : Outline} (hi : i ∉ b.opened) (ho : b.socks[i]? = some o)
    (hun : ¬ o.state.unopened) (hsyn : o.state ≠ .synReceived) : Ledger { b with opened := b.opened ++ [i] } where
  fds := hl.fds
  used := hl.used
  once := List.nodup_append.mpr ⟨hl.once, List.nodup_singleton i, fun j hj k hk => by
    rw [List.mem_singleton] at hk
    rintro rfl
    exact hi (hk ▸ hj)⟩
  past := by
    intro j hj
    rcases List.mem_append.mp hj with hj | hj
    · exact hl.past j hj
    · rw [List.mem_singleton] at hj
      subst hj
      exact ⟨o, ho, hun, hsyn⟩

theorem push_opened (b : Board) (i p : Nat) : (b.push i p).opened = b.opened := by
  unfold push
  split <;> rfl

theorem push_next (b : Board) (i p : Nat) : (b.push i p).next = b.next := by
  unfold push
  split <;> rfl

theorem Ledger.push (hl : b.Ledger) (i p : Nat) : (b.push i p).Ledger where
  fds := by
    intro j k x y hjk hx hy
    rw [push_socks] at hx hy
    obtain ⟨x', hx', rfl⟩ := Option.map_eq_some_iff.mp hx
    obtain ⟨y', hy', rfl⟩ := Option.map_eq_some_iff.mp hy
    rw [pushed_fd, pushed_fd]
    exact hl.fds hjk hx' hy'
  used := by
    intro j x hx
    rw [push_socks] at hx
    obtain ⟨x', hx', rfl⟩ := Option.map_eq_some_iff.mp hx
    rw [pushed_fd, push_next]
    exact hl.used j x' hx'
  once := push_opened b i p ▸ hl.once
  past := by
    intro j hj
    rw [push_opened] at hj
    obtain ⟨x, hx, hrest⟩ := hl.past j hj
    refine ⟨pushed i p j x, by rw [push_socks, hx]; rfl, ?_⟩
    simpa only [pushed_state] using hrest

/-! ## Deliveries -/

/-- What was taken from a queue in order has descriptors that do not repeat. -/
theorem Ledger.nodup_fds (hl : b.Ledger) {is : List Nat} (hn : is.Nodup) (hs : ∀ i ∈ is, i ∈ b.opened) : (is.map b.fdOf).Nodup := by
  refine List.Nodup.map_on (fun i hi j hj he => ?_) hn
  obtain ⟨x, hx, -⟩ := hl.past i (hs i hi)
  obtain ⟨y, hy, -⟩ := hl.past j (hs j hj)
  by_contra hij
  rw [fdOf_eq hx, fdOf_eq hy] at he
  exact hl.fds hij hx hy he

theorem mem_opened_of {p i : Nat} (hi : i ∈ b.openedThrough p) : i ∈ b.opened := (List.mem_filter.mp hi).1

/-- The order gives the rest. -/
theorem Ledger.delivers (hl : b.Ledger) (ho : ∀ (p : Nat) (l : Outline), b.socks[p]? = some l →
    ∃ taken, b.openedThrough p = taken ++ l.queue ∧ accepted l = taken.map b.fdOf) : b.Delivers where
  once := hl.once
  order := ho
  unrepeated := by
    intro p l hpl
    obtain ⟨taken, ht, ha⟩ := ho p l hpl
    rw [ha]
    refine hl.nodup_fds ?_ fun i hi => mem_opened_of (ht ▸ List.mem_append_left _ hi)
    have hn : (b.openedThrough p).Nodup := hl.once.filter _
    rw [ht] at hn
    exact hn.of_append_left

/-- A socket that never was a listener has no children. -/
theorem Lineage.openedThrough_nil (hb : b.Lineage) {p : Nat} (hp : ∀ l, b.socks[p]? = some l → l.state = .close) :
    b.openedThrough p = [] := by
  refine List.eq_nil_iff_forall_not_mem.mpr fun i hi => ?_
  obtain ⟨-, o, hio, hop⟩ := mem_openedThrough.mp hi
  obtain ⟨-, l, hl, -, hne, -⟩ := hb.parent i o p hio hop
  exact hne (hp l hl)

/-- A change that touches no delivery: what is on the queues and what was
returned is as before, or there never was anything. -/
theorem Delivers.grow (hd : b.Delivers) (hl : b.Ledger) {b' : Board} (hl' : b'.Ledger) (hg : b.Grows b') (ho : b'.opened = b.opened)
    (hsame : ∀ (p : Nat) (l' : Outline), b'.socks[p]? = some l' →
      (∃ l, b.socks[p]? = some l ∧ l'.queue = l.queue ∧ accepted l' = accepted l) ∨
        b.openedThrough p = [] ∧ l'.queue = [] ∧ accepted l' = []) : b'.Delivers := by
  refine hl'.delivers fun p l' hpl' => ?_
  rw [hg.openedThrough_eq hl ho]
  rcases hsame p l' hpl' with ⟨l, hpl, hq, ha⟩ | ⟨hnil, hq, ha⟩
  · obtain ⟨taken, ht, hacc⟩ := hd.order p l hpl
    refine ⟨taken, by rw [ht, hq], ?_⟩
    rw [ha, hacc, hg.fdOf_eq hl fun i hi => mem_opened_of (ht ▸ List.mem_append_left _ hi)]
  · exact ⟨[], by rw [hnil, hq]; rfl, by rw [ha]; rfl⟩

theorem Delivers.set (hd : b.Delivers) (hl : b.Ledger) {i : Nat} {o o' : Outline} (hl' : (b.set i o').Ledger)
    (ho : b.socks[i]? = some o) (hp : o'.ptsk = o.ptsk) (hf : o'.fd = o.fd) (hq : o'.queue = o.queue)
    (ha : accepted o' = accepted o) : (b.set i o').Delivers := by
  refine hd.grow hl hl' (grows_set ho hp hf) rfl fun p l' hpl' => .inl ?_
  rcases Table.getElem?_set_cases hpl' with ⟨rfl, rfl⟩ | ⟨-, hpl⟩
  · exact ⟨o, ho, hq, ha⟩
  · exact ⟨l', hpl, rfl, rfl⟩

/-- What a freshly opened socket adds to the connections of `p`. -/
theorem openedThrough_mark {i : Nat} {o : Outline} (ho : b.socks[i]? = some o) (p : Nat) :
    openedThrough { b with opened := b.opened ++ [i] } p = b.openedThrough p ++ if o.ptsk = some p then [i] else [] := by
  unfold openedThrough
  dsimp only
  rw [List.filter_append, List.filter_cons, ho, Option.any_some, List.filter_nil]
  by_cases hp : o.ptsk = some p <;> simp [hp]

/-- A socket is opened and put on the queue of its parent. -/
theorem Delivers.opens (hd : b.Delivers) {i p : Nat} {o l : Outline} (hl' : Ledger { b with opened := b.opened ++ [i] })
    (ho : b.socks[i]? = some o) (hop : o.ptsk = some p) (hpl : b.socks[p]? = some l) (hll : l.listed) :
    (push i { b with opened := b.opened ++ [i] } p).Delivers := by
  refine (hl'.push i p).delivers fun q x hx => ?_
  have hg : Grows { b with opened := b.opened ++ [i] } (push i { b with opened := b.opened ++ [i] } p) := grows_push _ i p
  rw [hg.openedThrough_eq hl' (push_opened _ i p), openedThrough_mark ho]
  rw [push_socks] at hx
  obtain ⟨y, hy, rfl⟩ := Option.map_eq_some_iff.mp hx
  obtain ⟨taken, ht, ha⟩ := hd.order q y hy
  have hfd : taken.map (push i { b with opened := b.opened ++ [i] } p).fdOf = taken.map b.fdOf :=
    hg.fdOf_eq hl' fun j hj => List.mem_append_left _ (mem_opened_of (ht ▸ List.mem_append_left _ hj))
  refine ⟨taken, ?_, ?_⟩
  · by_cases hq : q = p
    · subst hq
      rw [hpl] at hy
      cases hy
      rw [if_pos hop, ht, List.append_assoc]
      simp [pushed, hll]
    · rw [if_neg (fun he => hq (Option.some.inj (he.symm.trans hop))), List.append_nil, ht]
      simp [pushed, hq]
  · rw [hfd, ← ha]
    unfold accepted pushed
    split <;> rfl

/-- A socket is opened that has no parent. -/
theorem Delivers.opens_orphan (hd : b.Delivers) {i : Nat} {o : Outline} (hl' : Ledger { b with opened := b.opened ++ [i] })
    (ho : b.socks[i]? = some o) (hop : o.ptsk = none) : Delivers { b with opened := b.opened ++ [i] } := by
  refine hl'.delivers fun p l hpl => ?_
  rw [openedThrough_mark ho, hop, if_neg nofun, List.append_nil]
  exact hd.order p l hpl

/-- A socket is opened whose parent is not on the list: nobody gets it. -/
theorem Delivers.not_opens (hd : b.Delivers) {i p : Nat} {o l : Outline} (ho : b.socks[i]? = some o) (hop : o.ptsk = some p)
    (hpl : b.socks[p]? = some l) (hll : l.listed = false) : ¬ (push i { b with opened := b.opened ++ [i] } p).Delivers := by
  have hpush : push i { b with opened := b.opened ++ [i] } p = { b with opened := b.opened ++ [i] } := by
    unfold push
    rw [if_neg]
    rw [show ({ b with opened := b.opened ++ [i] } : Board).socks[p]? = some l from hpl, Option.any_some, hll]
    nofun
  rw [hpush]
  intro hd'
  obtain ⟨taken, ht, ha⟩ := hd.order p l hpl
  obtain ⟨taken', ht', ha'⟩ := hd'.order p l hpl
  rw [openedThrough_mark ho, if_pos hop, ht] at ht'
  have hlen := congrArg List.length ht'
  have hlen' := congrArg List.length (ha.symm.trans ha')
  simp only [List.length_append, List.length_map, List.length_singleton] at hlen hlen'
  omega

/-- The head of a queue comes back. -/
theorem Delivers.take (hd : b.Delivers) (hl : b.Ledger) {p child : Nat} {rest : List Nat} {o : Outline} (hpo : b.socks[p]? = some o)
    (hq : o.queue = child :: rest) :
    (b.set p { o with queue := rest, accepts := o.accepts ++ [b.fdOf child] }).Delivers := by
  have hl' : (b.set p { o with queue := rest, accepts := o.accepts ++ [b.fdOf child] }).Ledger :=
    hl.set hpo rfl fun hu hs => ⟨hu, hs⟩
  have hg : b.Grows (b.set p { o with queue := rest, accepts := o.accepts ++ [b.fdOf child] }) := grows_set hpo rfl rfl
  refine hl'.delivers fun q x hx => ?_
  rw [hg.openedThrough_eq hl rfl]
  rcases Table.getElem?_set_cases hx with ⟨rfl, rfl⟩ | ⟨-, hx⟩
  · obtain ⟨taken, ht, ha⟩ := hd.order q o hpo
    have hmem : ∀ i ∈ taken ++ [child], i ∈ b.opened := fun i hi => by
      refine mem_opened_of (p := q) (ht ▸ ?_)
      rw [hq]
      rcases List.mem_append.mp hi with hi | hi
      · exact List.mem_append_left _ hi
      · exact List.mem_append_right _ (List.mem_singleton.mp hi ▸ List.mem_cons_self)
    obtain ⟨c, hc, -⟩ := hl.past child (hmem child (List.mem_append_right _ List.mem_cons_self))
    refine ⟨taken ++ [child], by rw [ht, hq, List.append_assoc]; rfl, ?_⟩
    rw [hg.fdOf_eq hl hmem, List.map_append, ← ha]
    unfold accepted
    rw [List.filter_append]
    congr 1
    rw [List.filter_cons_of_pos, List.filter_nil, List.map_singleton]
    rw [fdOf_eq hc]
    exact decide_eq_true (hl.used child c hc).1
  · obtain ⟨taken, ht, ha⟩ := hd.order q x hx
    refine ⟨taken, ht, ?_⟩
    rw [ha, hg.fdOf_eq hl fun i hi => mem_opened_of (ht ▸ List.mem_append_left _ hi)]

end Board

/-! ## Runs -/

namespace Host

variable {h : Host}

theorem fdOf_board (h : Host) (i : Nat) : h.board.fdOf i = h.fdOf i := by
  rw [Board.fdOf, board, fdOf, List.getElem?_map]
  cases h.sockets[i]? <;> rfl

/-- The state a socket that finishes its handshake is in. -/
theorem shakes_opens {c : Conn} (hr : c.OnlyReaders) {ev : Event} (hs : c.shakes ev) :
    (c.step ev).sk.state = .established ∨ (c.step ev).sk.state = .closeWait := by
  rw [← Conn.step_completes hr, completes] at hs
  simpa using (Bool.and_eq_true_iff.mp hs).2

theorem runs_ledger (hs : h.Sound) (hl : h.board.Ledger) {i : Nat} {k : Socket} (hk : h.sockets[i]? = some k) (ev : Event) :
    (h.board.set i { k.outline with state := (k.conn.step ev).sk.state, saddr := h.homeAfter k ev }).Ledger := by
  have hr := (hs.sock hk).readers
  refine hl.set (board_socks hk) rfl fun hun hsyn => ⟨fun hu => hun ?_, fun hs' => ?_⟩
  · have hsame : (k.conn.step ev).sk.state = k.sk.state := Conn.step_unopened hr hu
    have hu : (k.conn.step ev).sk.state.unopened := hu
    rw [hsame] at hu
    exact hu
  · have hx := (Conn.step_synReceived hr ev).mp ⟨hs', hsyn⟩
    have hst : k.sk.state = .synSent := by
      cases ev with
      | segment th data psh =>
        simp only [Conn.crosses, TcpSock.crosses, Bool.and_eq_true, decide_eq_true_eq] at hx
        exact hx.2.1.1.1.1
      | _ => cases hx
    exact hun (by rw [show k.outline.state = .synSent from hst]; rfl)

/-- A socket whose handshake ends was not opened before. -/
theorem shakes_ledger (hs : h.Sound) (hl : h.board.Ledger) {i : Nat} {k : Socket} (hk : h.sockets[i]? = some k) {ev : Event}
    (hsh : k.conn.shakes ev) :
    Board.Ledger { h.board.set i { k.outline with state := (k.conn.step ev).sk.state, saddr := h.homeAfter k ev } with
      opened := h.opened ++ [i] } := by
  have hset := runs_ledger hs hl hk ev
  have hnew : i ∉ h.opened := fun hi => by
    obtain ⟨o, ho, -, hsyn⟩ := hl.past i hi
    rw [board_socks hk] at ho
    cases ho
    exact hsyn (shakes_state hsh)
  have hopen := shakes_opens (hs.sock hk).readers hsh
  refine hset.mark hnew (Table.getElem?_set_self (board_socks hk)) (fun hu => ?_) (fun hsyn => ?_)
  · have hu : (k.conn.step ev).sk.state.unopened := hu
    rcases hopen with ho | ho <;> rw [ho] at hu <;> cases hu
  · have hsyn : (k.conn.step ev).sk.state = .synReceived := hsyn
    rcases hopen with ho | ho <;> rw [ho] at hsyn <;> cases hsyn

theorem step_ledger (hs : h.Sound) (hl : h.board.Ledger) (e : HostEvent) : (h.step e).board.Ledger := by
  have ht := step_turn hs e
  generalize (h.step e).board = b at ht ⊢
  cases ht with
  | still | wait => exact hl
  | create | fork => exact hl.add rfl hs.next
  | bind _ hk | take _ hk | refuse _ hk | free _ hk => exact hl.set (board_socks hk) rfl fun hu hs => ⟨hu, hs⟩
  | @listen i k _ hk _ hst | @dial i d k _ hk _ hst =>
    refine hl.set (board_socks hk) rfl fun hu => ?_
    rw [show k.outline.state = .close from hst] at hu
    exact absurd rfl hu
  | run _ hk => exact runs_ledger hs hl hk _
  | @shake i ev k _ hk _ hsh =>
    cases k.sk.ptsk with
    | none => exact shakes_ledger hs hl hk hsh
    | some p => exact (shakes_ledger hs hl hk hsh).push i p

/-- `get_socket` finds a socket that is on the list. -/
theorem getSocket_listed (hl : h.board.Ledger) {i : Nat} {k : Socket} (hk : h.sockets[i]? = some k) (hlist : k.listed) :
    h.getSocket k.pid k.fd = some i := by
  obtain ⟨hlt, hki⟩ := List.getElem?_eq_some_iff.mp hk
  refine List.findIdx?_eq_some_iff_getElem.mpr ⟨hlt, ?_, fun j hj => ?_⟩
  · rw [hki]
    simp [hlist]
  · have hjk := List.getElem?_eq_getElem (Nat.lt_trans hj hlt)
    have hne : (h.sockets.get ⟨j, Nat.lt_trans hj hlt⟩).fd ≠ k.fd := hl.fds (Nat.ne_of_lt hj) (board_socks hjk) (board_socks hk)
    rw [List.get_eq_getElem] at hne
    simp [hne]

/-- What an `_accept` that looks at the queue does: it takes the oldest child and
returns its descriptor, which `get_socket` finds; or, nonblocking, -EAGAIN. -/
def AcceptsOldest (h : Host) (e : HostEvent) : Prop :=
  ∀ p k, h.deed e = .take p → h.sockets[p]? = some k →
    match k.connQueue with
    | child :: rest => h.getSocket k.pid (h.fdOf child) = some child ∧
      (h.step e).board.socks[p]? = some { k.outline with queue := rest, accepts := k.accepts ++ [h.fdOf child] }
    | [] => k.sk.nonblock → (h.step e).board.socks[p]? = some { k.outline with accepts := k.accepts ++ [-EAGAIN] }

/-- Socket `i` is on the list. -/
def Listed (h : Host) (i : Nat) : Prop := ∃ k, h.sockets[i]? = some k ∧ k.listed

/-- An `_accept` finds at the head of the queue a socket that was not freed, or
waits for one, and a listener with a child that opens was not freed. -/
def Serves (h : Host) (e : HostEvent) : Prop :=
  match h.deed e with
  | .take p => ∀ k, h.sockets[p]? = some k →
    match k.connQueue with
    | child :: _ => h.Listed child
    | [] => k.sk.nonblock = false
  | .run i ev => ∀ k, h.sockets[i]? = some k → k.conn.shakes ev → ∀ p, k.sk.ptsk = some p → h.Listed p
  | _ => True

/-- What keeps the accept queues right, whatever the order of events. -/
structure Kept (h : Host) : Prop where
  sound : h.Sound
  lineage : h.board.Lineage
  ledger : h.board.Ledger

theorem Kept.step (hi : h.Kept) (e : HostEvent) : (h.step e).Kept :=
  ⟨step_sound hi.sound e, step_lineage hi.sound hi.lineage e, step_ledger hi.sound hi.ledger e⟩

theorem acceptsOldest_of_ne {e : HostEvent} (hd : ∀ p, h.deed e ≠ .take p) : h.AcceptsOldest e :=
  fun p _ hd' => absurd hd' (hd p)

/-- The head of a queue belongs to the listener's process, so `get_socket` finds
it if it was not freed. -/
theorem getSocket_head (hi : h.Kept) (hd : h.board.Delivers) {p child : Nat} {rest : List Nat} {k : Socket} (hk : h.sockets[p]? = some k)
    (hq : k.connQueue = child :: rest) : h.getSocket k.pid (h.fdOf child) = some child ↔ h.Listed child := by
  obtain ⟨taken, ht, -⟩ := hd.order p k.outline (board_socks hk)
  have hmem : child ∈ h.board.openedThrough p := by
    rw [ht, show k.outline.queue = child :: rest from hq]
    exact List.mem_append_right _ List.mem_cons_self
  obtain ⟨-, o, ho, hop⟩ := Board.mem_openedThrough.mp hmem
  obtain ⟨-, l, hl, hpid, -⟩ := hi.lineage.parent child o p ho hop
  obtain ⟨c, hc, rfl⟩ := board_sockets ho
  rw [board_socks hk] at hl
  cases hl
  have hpid : k.pid = c.pid := hpid
  have hfd : h.fdOf child = c.fd := by rw [fdOf, hc]; rfl
  rw [hpid, hfd]
  constructor
  · exact fun hg => ⟨c, hc, (getSocket_some hg hc).1⟩
  · rintro ⟨c', hc', hlist⟩
    rw [hc] at hc'
    cases hc'
    exact getSocket_listed hi.ledger hc hlist

theorem take_serves (hi : h.Kept) (hd : h.board.Delivers) {e : HostEvent} {p child : Nat} {rest : List Nat} {k : Socket}
    (hp : h.deed e = .take p) (hk : h.sockets[p]? = some k) (hq : k.connQueue = child :: rest)
    (hb : (h.step e).board = h.board.set p
      { k.outline with
        queue := rest
        accepts := if (h.getSocket k.pid (h.fdOf child)).isSome then k.accepts ++ [h.fdOf child] else k.accepts }) :
    h.Serves e ↔ h.AcceptsOldest e ∧ (h.step e).board.Delivers := by
  have hserves : h.Serves e ↔ h.Listed child := by
    unfold Serves
    rw [hp]
    constructor
    · intro hs
      have := hs k hk
      rwa [hq] at this
    · intro hs k' hk'
      rw [hk] at hk'
      cases hk'
      rw [hq]
      exact hs
  rw [hserves, ← getSocket_head hi hd hk hq]
  constructor
  · intro hg
    rw [hg, Option.isSome_some, if_pos rfl] at hb
    refine ⟨fun p' k' hp' hk' => ?_, ?_⟩
    · rw [hp] at hp'
      cases hp'
      rw [hk] at hk'
      cases hk'
      rw [hq]
      exact ⟨hg, by rw [hb]; exact Table.getElem?_set_self (board_socks hk)⟩
    · rw [hb, ← fdOf_board]
      exact hd.take hi.ledger (board_socks hk) hq
  · rintro ⟨ha, -⟩
    have := ha p k hp hk
    rw [hq] at this
    exact this.1

theorem shake_serves (hi : h.Kept) (hd : h.board.Delivers) {e : HostEvent} {i : Nat} {ev : Event} {k : Socket}
    (hp : h.deed e = .run i ev) (hk : h.sockets[i]? = some k) (hsh : k.conn.shakes ev)
    (hb : (h.step e).board = k.sk.ptsk.toList.foldl (Board.push i)
      { h.board.set i { k.outline with state := (k.conn.step ev).sk.state, saddr := h.homeAfter k ev } with
        opened := h.opened ++ [i] }) :
    h.Serves e ↔ (h.step e).board.Delivers := by
  have hset : (h.board.set i { k.outline with state := (k.conn.step ev).sk.state, saddr := h.homeAfter k ev }).Delivers :=
    hd.set hi.ledger (runs_ledger hi.sound hi.ledger hk ev) (board_socks hk) rfl rfl rfl rfl
  have hmark := shakes_ledger hi.sound hi.ledger hk hsh
  have hself := Table.getElem?_set_self (x := { k.outline with state := (k.conn.step ev).sk.state, saddr := h.homeAfter k ev })
    (board_socks hk)
  have hserves : h.Serves e ↔ ∀ p, k.sk.ptsk = some p → h.Listed p := by
    unfold Serves
    rw [hp]
    exact ⟨fun hs => hs k hk hsh, fun hs k' hk' _ => Option.some.inj (hk.symm.trans hk') ▸ hs⟩
  rw [hserves, hb]
  cases hpt : k.sk.ptsk with
  | none => exact iff_of_true nofun (hset.opens_orphan hmark hself hpt)
  | some p =>
    obtain ⟨hlt, l, hl, -⟩ := hi.lineage.parent i k.outline p (board_socks hk) hpt
    obtain ⟨kl, hkl, rfl⟩ := board_sockets hl
    have hl' := (Table.getElem?_set_ne (Nat.ne_of_lt hlt)
      { k.outline with state := (k.conn.step ev).sk.state, saddr := h.homeAfter k ev }).trans hl
    constructor
    · intro hs
      obtain ⟨kl', hkl', hlist⟩ := hs p rfl
      rw [hkl] at hkl'
      cases hkl'
      exact hset.opens hmark hself hpt hl' hlist
    · intro hd' q hq
      cases hq
      refine ⟨kl, hkl, ?_⟩
      by_contra hno
      exact hset.not_opens hself hpt hl' (Bool.eq_false_iff.mpr hno) hd'

theorem serves_iff (hi : h.Kept) (hd : h.board.Delivers) (e : HostEvent) :
    h.Serves e ↔ h.AcceptsOldest e ∧ (h.step e).board.Delivers := by
  have hl' := step_ledger hi.sound hi.ledger e
  have ht := step_turn hi.sound e
  have hother : (∀ p, h.deed e ≠ .take p) → (∀ i ev, h.deed e ≠ .run i ev) → (h.step e).board.Delivers →
      (h.Serves e ↔ h.AcceptsOldest e ∧ (h.step e).board.Delivers) := fun hnt hnr hd' => by
    refine iff_of_true ?_ ⟨acceptsOldest_of_ne hnt, hd'⟩
    unfold Serves
    split
    next hp => exact absurd hp (hnt _)
    next hp => exact absurd hp (hnr _ _)
    next => trivial
  generalize hb : (h.step e).board = b at ht hother hl' ⊢
  cases ht with
  | still hp => exact hother (by rw [hp]; nofun) (by rw [hp]; nofun) hd
  | create hp =>
    refine hother (by rw [hp]; nofun) (by rw [hp]; nofun) ?_
    exact hd.grow hi.ledger hl' (Board.grows_add _ _) rfl fun q x hx => by
      rcases Table.getElem?_append_cases hx with hx | ⟨rfl, rfl⟩
      · exact .inl ⟨x, hx, rfl, rfl⟩
      · refine .inr ⟨hi.lineage.openedThrough_nil fun l hl => ?_, rfl, rfl⟩
        exact absurd (Table.lt_length hl) (lt_irrefl _)
  | fork hp =>
    refine hother (by rw [hp]; nofun) (by rw [hp]; nofun) ?_
    exact hd.grow hi.ledger hl' (Board.grows_add _ _) rfl fun q x hx => by
      rcases Table.getElem?_append_cases hx with hx | ⟨rfl, rfl⟩
      · exact .inl ⟨x, hx, rfl, rfl⟩
      · refine .inr ⟨hi.lineage.openedThrough_nil fun l hl => ?_, rfl, rfl⟩
        exact absurd (Table.lt_length hl) (lt_irrefl _)
  | bind hp hk | dial hp hk | free hp hk =>
    exact hother (by rw [hp]; nofun) (by rw [hp]; nofun) (hd.set hi.ledger hl' (board_socks hk) rfl rfl rfl rfl)
  | @listen i k hp hk _ hst =>
    refine hother (by rw [hp]; nofun) (by rw [hp]; nofun) ?_
    -- a closed socket has had no child, so its queue was empty
    have hnil : h.board.openedThrough i = [] := hi.lineage.openedThrough_nil fun l hl => by
      rw [board_socks hk] at hl
      cases hl
      exact hst
    obtain ⟨taken, ht, ha⟩ := hd.order i k.outline (board_socks hk)
    rw [hnil] at ht
    obtain ⟨rfl, hq⟩ := List.append_eq_nil_iff.mp ht.symm
    exact hd.set hi.ledger hl' (board_socks hk) rfl rfl hq.symm rfl
  | refuse hp hk _ hrc =>
    refine hother (by rw [hp]; nofun) (by rw [hp]; nofun) (hd.set hi.ledger hl' (board_socks hk) rfl rfl rfl ?_)
    unfold Board.accepted
    rw [List.filter_append, List.filter_cons_of_neg (by simpa using hrc), List.filter_nil, List.append_nil]
    rfl
  | @run i ev k hp hk hlist hsh =>
    have hd' := hd.set hi.ledger hl' (board_socks hk) rfl rfl rfl rfl
    refine iff_of_true ?_ ⟨acceptsOldest_of_ne (by rw [hp]; nofun), hd'⟩
    unfold Serves
    rw [hp]
    intro k' hk' hsh'
    rw [hk] at hk'
    cases hk'
    rw [hsh] at hsh'
    cases hsh'
  | shake hp hk _ hsh =>
    rw [and_iff_right (acceptsOldest_of_ne (by rw [hp]; nofun)), shake_serves hi hd hp hk hsh hb, hb]
  | @wait p k hp hk _ hq =>
    unfold Serves
    rw [hp, and_iff_left hd]
    constructor
    · intro hs p' k' hp' hk'
      rw [hp] at hp'
      cases hp'
      have := hs k' hk'
      rw [hk] at hk'
      cases hk'
      rw [hq] at this ⊢
      intro hn
      rw [this] at hn
      cases hn
    · intro ha k' hk'
      have := ha p k' hp hk'
      rw [hk] at hk'
      cases hk'
      rw [hq] at this ⊢
      by_contra hn
      -- the queue is empty and the process is gone: nothing was returned
      have hret := this (by simpa using hn)
      rw [hb, board_socks hk] at hret
      have hacc := congrArg List.length (congrArg Outline.accepts (Option.some.inj hret))
      simp [Socket.outline] at hacc
  | take hp hk _ hq => rw [← hb, take_serves hi hd hp hk hq hb]

theorem start_kept : Kept {} := ⟨start_sound, start_lineage, ⟨fun _ _ _ _ _ => nofun, fun _ _ => nofun, List.nodup_nil, nofun⟩⟩

/-- **Accept delivers each connection once, in order.** In every run, what the
`_accept`s of a listener return is what was opened through it, from the oldest
on, and each descriptor is found, exactly if no `_accept` of a nonblocking
listener meets an empty queue, none finds a freed socket at its head, and no
child of a freed listener opens. -/
theorem delivers_iff (es : List HostEvent) :
    Machine.Meets step Serves {} es ↔
      Machine.Meets step AcceptsOldest {} es ∧ ∀ n, (run {} (es.take n)).board.Delivers := by
  refine Machine.Meets.exact (I := Kept) (P := fun h : Host => h.board.Delivers) ?_ ?_ start_kept ?_ es
  · exact fun _ e hi => hi.step e
  · exact fun _ e hi hd => serves_iff hi hd e
  · exact ⟨List.nodup_nil, fun _ _ => nofun, fun _ _ => nofun⟩

/-- A nonblocking listener. -/
def idleListener : List HostEvent := [.socket 1 .inet, .bind 1 4097 (ownAddr 7000), .listen 1 4097 5, .fcntl 1 4097 true]

/-- A listener with a child that was reset and freed while on its queue. -/
def freedChild : List HostEvent :=
  [.socket 1 .inet, .bind 1 4097 (ownAddr 7000), .listen 1 4097 5,
    fromPeer { sport := 3000, dport := 7000, seq := 500, ackSeq := 0, syn := true, win := 10000 },
    fromPeer { sport := 3000, dport := 7000, seq := 501, ackSeq := 701, ack := true, win := 10000 },
    fromPeer { sport := 3000, dport := 7000, seq := 501, ackSeq := 701, rst := true, win := 10000 },
    .dispatch 1 0, .handler 1 0, .collect 1]

/-- **What an `_accept` does not survive**: an empty queue where it may not wait,
and a child that is gone. -/
theorem accept_lost : ¬ AcceptsOldest (run {} idleListener) (.accept 1 4097 16) ∧
    ¬ AcceptsOldest (run {} freedChild) (.accept 1 4097 16) := by
  constructor <;> intro ha
  · have h0 : ((run {} idleListener).sockets[0]?).any fun k => k.connQueue = [] && k.sk.nonblock := by decide +kernel
    have h1 : (((run {} idleListener).step (.accept 1 4097 16)).board.socks[0]?).any fun o => o.accepts = [] := by decide +kernel
    obtain ⟨k, hk, h0⟩ := (Option.any_eq_true _ _).mp h0
    obtain ⟨o, ho, h1⟩ := (Option.any_eq_true _ _).mp h1
    simp only [Bool.and_eq_true, decide_eq_true_eq] at h0 h1
    have hret := ha 0 k (by decide +kernel) hk
    rw [h0.1] at hret
    rw [hret h0.2] at ho
    rw [← Option.some.inj ho] at h1
    exact absurd h1 (by simp)
  · have h0 : ((run {} freedChild).sockets[0]?).any fun k => k.connQueue = [1] && k.pid = 1 := by decide +kernel
    obtain ⟨k, hk, h0⟩ := (Option.any_eq_true _ _).mp h0
    simp only [Bool.and_eq_true, decide_eq_true_eq] at h0
    have hret := ha 0 k (by decide +kernel) hk
    rw [h0.1, h0.2] at hret
    exact absurd hret.1 (by decide +kernel)

end Host

end LevelIp
