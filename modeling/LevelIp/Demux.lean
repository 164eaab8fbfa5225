/-
`socket_lookup` over any socket list, UDP sockets and half-made ones included,
against the rule its comments give: a connection of the segment, else a listener
on its port bound to its destination or to the unspecified address.
-/
import LevelIp.Sockets

namespace LevelIp

inductive Protocol where
  | tcp | udp
deriving DecidableEq

/-- The fields of a `struct sock` that the lookups read. -/
structure SockEntry where
  protocol : Protocol
  family : Family
  state : TcpState
  saddr : Addr
  daddr : Addr
  sport : U16
  dport : U16
deriving DecidableEq

namespace SockEntry

/-- `tcp_sock_match_established`. -/
def tcpSockMatchEstablished (sk : SockEntry) (ep : Endpoints) (remoteport localport : U16) : Bool :=
  if sk.protocol ≠ .tcp || sk.state = .listen then false
  else if sk.sport ≠ localport || sk.dport ≠ remoteport then false
  else sk.daddr = ep.remote && sk.saddr = ep.home

/-- `tcp_sock_match_listener`: the address tested for being unspecified is the
packet's, and for IPv6 only. -/
def tcpSockMatchListener (sk : SockEntry) (ep : Endpoints) (localport : U16) : Bool :=
  if sk.protocol ≠ .tcp || sk.state ≠ .listen then false
  else if sk.sport ≠ localport then false
  else ep.home = .v6 0 || sk.saddr = ep.home

/-- A connection of the segment. -/
def Connects (ep : Endpoints) (remoteport localport : U16) (sk : SockEntry) : Prop :=
  sk.protocol = .tcp ∧ sk.family = ep.family ∧ sk.state ≠ .listen ∧
    sk.saddr = ep.home ∧ sk.sport = localport ∧ sk.daddr = ep.remote ∧ sk.dport = remoteport

/-- A listener on the segment's port. -/
def OnPort (ep : Endpoints) (localport : U16) (sk : SockEntry) : Prop :=
  sk.protocol = .tcp ∧ sk.family = ep.family ∧ sk.state = .listen ∧ sk.sport = localport

/-- A listener for the segment: bound to its destination, or to any address. -/
def Listens (ep : Endpoints) (localport : U16) (sk : SockEntry) : Prop :=
  sk.OnPort ep localport ∧ (sk.saddr = ep.home ∨ sk.saddr = ep.family.zero)

end SockEntry

/-- `sockets`; a `struct socket` may have no `struct sock` yet. -/
abbrev SockList := List (Option SockEntry)

namespace SockList

/-- `tcp_lookup_established`. -/
def tcpLookupEstablished (l : SockList) (ep : Endpoints) (remoteport localport : U16) : Option Nat :=
  l.findIdx? fun sk => sk.any fun sk => sk.family = ep.family && sk.tcpSockMatchEstablished ep remoteport localport

/-- `tcp_lookup_listener`. -/
def tcpLookupListener (l : SockList) (ep : Endpoints) (localport : U16) : Option Nat :=
  l.findIdx? fun sk => sk.any fun sk => sk.family = ep.family && sk.tcpSockMatchListener ep localport

/-- `socket_lookup`. -/
def socketLookup (l : SockList) (ep : Endpoints) (remoteport localport : U16) : Option Nat :=
  match l.tcpLookupEstablished ep remoteport localport with
  | some i => some i
  | none => l.tcpLookupListener ep localport

/-- The `i`th socket meets `P`. -/
def Has (l : SockList) (P : SockEntry → Prop) (i : Nat) : Prop := ∃ sk, l[i]? = some (some sk) ∧ P sk

variable {l : SockList} {ep : Endpoints} {rp lp : U16}

/-- A walk finds the first socket that meets its test, if there is one. -/
theorem walk_some {p : SockEntry → Bool} {P : SockEntry → Prop} (hp : ∀ sk, p sk ↔ P sk) {i : Nat}
    (h : l.findIdx? (fun sk => sk.any p) = some i) : l.Has P i := by
  obtain ⟨hlt, hi, -⟩ := List.findIdx?_eq_some_iff_getElem.mp h
  obtain ⟨sk, hsk, hpk⟩ := (Option.any_eq_true _ _).mp hi
  exact ⟨sk, by rw [List.getElem?_eq_getElem hlt, hsk], (hp sk).mp hpk⟩

theorem walk_none {p : SockEntry → Bool} {P : SockEntry → Prop} (hp : ∀ sk, p sk ↔ P sk)
    (h : l.findIdx? (fun sk => sk.any p) = none) (i : Nat) : ¬ l.Has P i := by
  rintro ⟨sk, hsk, hP⟩
  have hno := List.findIdx?_eq_none_iff.mp h (some sk) (List.mem_of_getElem? hsk)
  rw [Option.any_some, (hp sk).mpr hP] at hno
  cases hno

theorem walk_first {p : SockEntry → Bool} {P : SockEntry → Prop} (hp : ∀ sk, p sk ↔ P sk) {i j : Nat}
    (h : l.findIdx? (fun sk => sk.any p) = some i) (hj : j < i) : ¬ l.Has P j := by
  rintro ⟨sk, hsk, hP⟩
  obtain ⟨hlt, -, hmin⟩ := List.findIdx?_eq_some_iff_getElem.mp h
  have hno := hmin j hj
  rw [List.getElem?_eq_getElem (hj.trans hlt)] at hsk
  rw [Option.some.inj hsk, Option.any_some, (hp sk).mpr hP] at hno
  exact hno rfl

theorem established_iff (sk : SockEntry) :
    (sk.family = ep.family && sk.tcpSockMatchEstablished ep rp lp) = true ↔ sk.Connects ep rp lp := by
  unfold SockEntry.tcpSockMatchEstablished SockEntry.Connects
  grind

/-- What the second walk tests. -/
theorem listener_iff (sk : SockEntry) : (sk.family = ep.family && sk.tcpSockMatchListener ep lp) = true ↔
    sk.OnPort ep lp ∧ (ep.home = .v6 0 ∨ sk.saddr = ep.home) := by
  unfold SockEntry.tcpSockMatchListener SockEntry.OnPort
  grind

/-- `socket_lookup` finds a connection if there is one, else a listener for the
segment if there is one, and else nothing. -/
def Demultiplexes (l : SockList) (ep : Endpoints) (remoteport localport : U16) : Prop :=
  (∀ i, l.socketLookup ep remoteport localport = some i →
    l.Has (SockEntry.Connects ep remoteport localport) i ∨
      (∀ j, ¬ l.Has (SockEntry.Connects ep remoteport localport) j) ∧ l.Has (SockEntry.Listens ep localport) i) ∧
  (l.socketLookup ep remoteport localport = none ↔
    ∀ j, ¬ l.Has (SockEntry.Connects ep remoteport localport) j ∧ ¬ l.Has (SockEntry.Listens ep localport) j)

/-- No listener is needed that is bound to any address: there is one that is
bound to the destination, or none at all. If the destination is itself the
unspecified address, the first listener on the port is bound to it. -/
def NoWildcard (l : SockList) (ep : Endpoints) (localport : U16) : Prop :=
  if ep.home = .v6 0 then
    ∀ i sk, l[i]? = some (some sk) → sk.OnPort ep localport →
      (∀ j < i, ¬ l.Has (SockEntry.OnPort ep localport) j) → sk.saddr = .v6 0
  else (∃ i, l.Has (fun sk => sk.OnPort ep localport ∧ sk.saddr = ep.home) i) ∨ ∀ i, ¬ l.Has (SockEntry.Listens ep localport) i

/-- **Demultiplexing.** `socket_lookup` keeps to the rule exactly if a connection
matches or no listener for any address is needed. -/
theorem demultiplexes_iff (l : SockList) (ep : Endpoints) (rp lp : U16) :
    l.Demultiplexes ep rp lp ↔ (∃ i, l.Has (SockEntry.Connects ep rp lp) i) ∨ l.NoWildcard ep lp := by
  unfold Demultiplexes socketLookup
  cases he : l.tcpLookupEstablished ep rp lp with
  | some i =>
    have hi := walk_some established_iff he
    refine iff_of_true ⟨?_, iff_of_false nofun fun h => (h i).1 hi⟩ (.inl ⟨i, hi⟩)
    rintro j hj
    exact .inl (Option.some.inj hj ▸ hi)
  | none =>
    have hno := walk_none established_iff he
    rw [or_iff_right fun ⟨i, hi⟩ => hno i hi]
    dsimp only
    cases hl : l.tcpLookupListener ep lp with
    | none =>
      have hn := walk_none listener_iff hl
      refine Iff.trans (and_iff_right nofun) (Iff.trans (iff_true_left rfl) ?_)
      unfold NoWildcard
      split
      next hz =>
        have hport (i : Nat) : ¬ l.Has (SockEntry.OnPort ep lp) i := fun ⟨sk, hsk, ho⟩ => hn i ⟨sk, hsk, ho, .inl hz⟩
        exact iff_of_true (fun j => ⟨hno j, fun ⟨sk, hsk, ho, _⟩ => hport j ⟨sk, hsk, ho⟩⟩)
          fun i sk hsk ho _ => absurd ⟨sk, hsk, ho⟩ (hport i)
      next =>
        rw [or_iff_right fun ⟨i, sk, hsk, ho, ha⟩ => hn i ⟨sk, hsk, ho, .inr ha⟩]
        exact forall_congr' fun j => and_iff_right (hno j)
    | some i =>
      obtain ⟨sk, hsk, ho, ha⟩ := walk_some listener_iff hl
      have hrule : (∀ j, some i = some j → l.Has (SockEntry.Connects ep rp lp) j ∨
            (∀ k, ¬ l.Has (SockEntry.Connects ep rp lp) k) ∧ l.Has (SockEntry.Listens ep lp) j) ∧
          (some i = none ↔ ∀ j, ¬ l.Has (SockEntry.Connects ep rp lp) j ∧ ¬ l.Has (SockEntry.Listens ep lp) j) ↔
          l.Has (SockEntry.Listens ep lp) i := by
        constructor
        · rintro ⟨h, -⟩
          exact ((h i rfl).resolve_left (hno i)).2
        · intro h
          refine ⟨?_, iff_of_false nofun fun hnone => (hnone i).2 h⟩
          rintro j hj
          exact .inr ⟨hno, Option.some.inj hj ▸ h⟩
      rw [hrule]
      unfold NoWildcard
      split
      next hz =>
        have hany : ep.family.zero = .v6 0 := by cases ep <;> first | rfl | cases hz
        constructor
        · rintro ⟨sk', hsk', -, ha'⟩ k kk hkk hok hfirst
          rw [hz, hany, or_self] at ha'
          -- the first listener on the port is the one that is found
          have hik : k = i := by
            rcases Nat.lt_trichotomy k i with hlt | heq | hgt
            · exact absurd ⟨kk, hkk, hok, .inl hz⟩ (walk_first listener_iff hl hlt)
            · exact heq
            · exact absurd ⟨sk, hsk, ho⟩ (hfirst i hgt)
          rw [hik, hsk'] at hkk
          exact Option.some.inj (Option.some.inj hkk) ▸ ha'
        · intro h
          have hs := h i sk hsk ho fun j hj ⟨kk, hkk, hok⟩ => walk_first listener_iff hl hj ⟨kk, hkk, hok, .inl hz⟩
          exact ⟨sk, hsk, ho, .inl (hs.trans hz.symm)⟩
      next hz =>
        have ha := ha.resolve_left hz
        exact iff_of_true ⟨sk, hsk, ho, .inl ha⟩ (.inl ⟨i, sk, hsk, ho, ha⟩)

/-- A connection is found though a listener stands before it. -/
theorem demultiplexes_connection :
    let l : SockList := [none, some { protocol := .tcp, family := .inet, state := .listen, saddr := .v4 0, daddr := .v4 0, sport := 80, dport := 0 },
      some { protocol := .tcp, family := .inet, state := .established, saddr := .v4 9, daddr := .v4 7, sport := 80, dport := 5 }]
    l.socketLookup (.v4 7 9) 5 80 = some 2 ∧ l.Demultiplexes (.v4 7 9) 5 80 :=
  ⟨by decide, (demultiplexes_iff _ _ _ _).mpr (.inl ⟨2, _, rfl, by unfold SockEntry.Connects; decide⟩)⟩

/-- A listener bound to any address gets no SYN, over IPv4 or IPv6. -/
theorem wildcard_missed :
    let any (family : Family) : SockEntry := { protocol := .tcp, family := family, state := .listen, saddr := family.zero
                                               daddr := family.zero, sport := 80, dport := 0 }
    socketLookup [some (any .inet)] (.v4 7 9) 5 80 = none ∧ socketLookup [some (any .inet6)] (.v6 7 9) 5 80 = none ∧
      ¬ ∀ (l : SockList) (ep : Endpoints) (rp lp : U16), l.Demultiplexes ep rp lp := by
  refine ⟨by decide, by decide, fun h => ?_⟩
  have hnone := (h [some { protocol := .tcp, family := .inet, state := .listen, saddr := .v4 0, daddr := .v4 0, sport := 80, dport := 0 }]
    (.v4 7 9) 5 80).2.mp (by decide) 0
  exact hnone.2 ⟨_, rfl, by unfold SockEntry.OnPort; decide, .inr rfl⟩

end SockList

/-! ## The sockets of a host -/

/-- The part of a socket that the lookups read. -/
def Socket.entry (k : Socket) : SockEntry :=
  { protocol := .tcp, family := k.family, state := k.sk.state, saddr := k.sk.saddr, daddr := k.sk.daddr, sport := k.sk.sport
    dport := k.sk.dport }

theorem Socket.entry_established (k : Socket) (ep : Endpoints) (rp lp : U16) :
    k.entry.tcpSockMatchEstablished ep rp lp = tcpSockMatchEstablished k.sk ep rp lp := by
  unfold SockEntry.tcpSockMatchEstablished tcpSockMatchEstablished Socket.entry
  grind

theorem Socket.entry_listener (k : Socket) (ep : Endpoints) (lp : U16) :
    k.entry.tcpSockMatchListener ep lp = tcpSockMatchListener k.sk ep lp := by
  unfold SockEntry.tcpSockMatchListener tcpSockMatchListener Socket.entry
  grind

/-- The list `socket_lookup` walks: what is freed is off it. -/
def Host.sockList (h : Host) : SockList := h.sockets.map fun k => if k.listed then some k.entry else none

/-- The host's lookup is this one. -/
theorem Host.socketLookup_sockList (h : Host) (ep : Endpoints) (rp lp : U16) :
    h.socketLookup ep rp lp = h.sockList.socketLookup ep rp lp := by
  have hest : h.tcpLookupEstablished ep rp lp = h.sockList.tcpLookupEstablished ep rp lp := by
    unfold Host.tcpLookupEstablished SockList.tcpLookupEstablished Host.sockList
    rw [List.findIdx?_map]
    refine congrArg (List.findIdx? · h.sockets) (funext fun k => ?_)
    rw [Function.comp_apply, ← k.entry_established, Bool.and_assoc]
    cases hl : k.listed <;> rfl
  have hlis : h.tcpLookupListener ep lp = h.sockList.tcpLookupListener ep lp := by
    unfold Host.tcpLookupListener SockList.tcpLookupListener Host.sockList
    rw [List.findIdx?_map]
    refine congrArg (List.findIdx? · h.sockets) (funext fun k => ?_)
    rw [Function.comp_apply, ← k.entry_listener, Bool.and_assoc]
    cases hl : k.listed <;> rfl
  cases he : h.sockList.tcpLookupEstablished ep rp lp with
  | some i => simp only [Host.socketLookup, SockList.socketLookup, hest, he]
  | none => simp only [Host.socketLookup, SockList.socketLookup, hest, hlis, he]

end LevelIp
