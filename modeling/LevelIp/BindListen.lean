/-
What `bind` and `listen` tell their callers. A call holds the lock of its socket
from start to end, but between its lookup and its updates other calls run: the
steps here are the single lookups and updates of `inet_bind`, `udp_bind`,
`tcp_v4_bind`, `inet_stream_listen` and `tcp_v4_listen`, in any order the locks
allow. What comes back is `sk->err`, whatever `ops->bind` and `ops->listen` say.
-/
import LevelIp.Demux
import LevelIp.RefusedConnect
import LevelIp.Lib.Table

namespace LevelIp

def EADDRNOTAVAIL : Int := 99

/-- Where a call is: before the lookup of `udp_bind`, before the updates of port
and address, before it returns; before the test of `tcp_v4_listen`, before it
returns. A call that returns has done what it was asked for, or not. -/
inductive BindCall where
  | lookup (a : SockAddr)
  | port (a : SockAddr)
  | addr (a : SockAddr)
  | bound (a : SockAddr) (done : Bool)
  | listen
  | listened (done : Bool)
deriving DecidableEq

/-- The fields of a socket that the calls use, and the call that has its lock. -/
structure BindSock where
  protocol : Protocol
  family : Family
  state : TcpState := .close
  err : Int := 0
  saddr : Addr
  sport : U16 := 0
  call : Option BindCall := none
deriving DecidableEq

/-- The sockets of all processes. -/
structure Binder where
  socks : List BindSock
  crashed : Bool := false
deriving DecidableEq

/-- A call on the `i`th socket starts, or the call that has its lock goes on. -/
inductive BindEvent where
  | bind (i : Nat) (a : SockAddr)
  | listen (i : Nat) (n : Int)
  | run (i : Nat)
deriving DecidableEq

/-- The refusals of `inet_bind` before `ops->bind`. -/
def inetBindRefusal (a : SockAddr) : Option Int :=
  if a.len < 2 then some (-EINVAL)
  else if a.family = .unspec then some (-EAFNOSUPPORT)
  else if a.addr4 ≠ 0 ∧ a.addr4 ≠ lvlIpAddr then some (-EADDRNOTAVAIL)
  else none

namespace BindSock

/-- `inet_bind` up to `ops->bind`; `inet6_bind`, which sets both at once. -/
def bind (k : BindSock) (a : SockAddr) : BindSock :=
  match k.family, k.protocol with
  | .inet, .tcp => if (inetBindRefusal a).isSome then k else { k with call := some (.port a) }
  | .inet, .udp => if (inetBindRefusal a).isSome then k else { k with call := some (.lookup a) }
  | .inet6, .tcp => if a.len < 28 ∨ a.family ≠ .inet6 then k else { k with sport := a.port, saddr := .v6 a.addr6 }
  | .inet6, .udp => k

/-- The call that has the lock goes on; `inUse` is `socker_find_protocol_port`. -/
def run (k : BindSock) (inUse : U16 → Bool) : BindSock :=
  match k.call with
  | none => k
  | some (.lookup a) => { k with call := if inUse a.port then some (.bound a false) else some (.port a) }
  | some (.port a) => { k with sport := a.port, call := some (.addr a) }
  | some (.addr a) => { k with saddr := .v4 a.addr4, call := some (.bound a true) }
  | some (.bound _ _) => { k with call := none }
  | some .listen =>
    if k.state = .close then { k with state := .listen, call := some (.listened true) } else { k with call := some (.listened false) }
  | some (.listened _) => { k with call := none }

/-- The socket has the address. -/
def At (k : BindSock) (a : SockAddr) : Prop := k.sport = a.port ∧ k.saddr = .v4 a.addr4

instance (k : BindSock) (a : SockAddr) : Decidable (k.At a) := by
  unfold At
  infer_instance

/-- An IPv4 UDP socket that is bound. -/
def udp4 (k : BindSock) : Bool := k.protocol = .udp && k.family = .inet && k.sport ≠ 0

/-- No two of them have one port. -/
def PortsDiffer (k l : BindSock) : Prop := k.udp4 → l.udp4 → k.sport ≠ l.sport

instance (k l : BindSock) : Decidable (k.PortsDiffer l) := by
  unfold PortsDiffer
  infer_instance

end BindSock

namespace Binder

/-- `socker_find_protocol_port(port, IPPROTO_UDP)`. -/
def inUse (h : Binder) (port : U16) : Bool := h.socks.any fun k => k.protocol = .udp && k.sport = port

/-- One step. The datagram sockets have no `listen`: the call goes through NULL. -/
def step (h : Binder) (e : BindEvent) : Binder :=
  if h.crashed then h
  else
    match e with
    | .bind i a =>
      match h.socks[i]? with
      | none => h
      | some k => if k.call.isSome then h else { h with socks := h.socks.set i (k.bind a) }
    | .listen i n =>
      match h.socks[i]? with
      | none => h
      | some k =>
        if k.call.isSome then h
        else if k.protocol = .udp then { h with crashed := true }
        else if n < 0 ∨ n > 100 then h
        else { h with socks := h.socks.set i { k with call := some .listen } }
    | .run i =>
      match h.socks[i]? with
      | none => h
      | some k => { h with socks := h.socks.set i (k.run h.inUse) }

abbrev exec (h : Binder) (es : List BindEvent) : Binder := Machine.run step h es

/-- What `inet_bind` or `inet_stream_listen` returns in a step, if one does, and
whether the socket has become what it was asked to. -/
def returned (h : Binder) : BindEvent → Option (Int × Bool)
  | .bind i a =>
    match h.socks[i]? with
    | none => none
    | some k =>
      if k.call.isSome ∨ k.family = .inet6 then none
      else (inetBindRefusal a).map fun rc => (rc, false)
  | .listen i n =>
    match h.socks[i]? with
    | none => none
    | some k =>
      if k.call.isSome ∨ k.protocol = .udp then none
      else if n < 0 ∨ n > 100 then some (-EINVAL, false)
      else none
  | .run i =>
    match h.socks[i]? with
    | none => none
    | some k =>
      match k.call with
      | some (.bound a done) => some (k.err, done && k.At a)
      | some (.listened done) => some (k.err, done && k.state = .listen)
      | _ => none

/-- A call that returns says 0 exactly if it has done what it was asked for. -/
def Truthful (h : Binder) (e : BindEvent) : Prop :=
  h.crashed = false → ∀ rc became, h.returned e = some (rc, became) → (rc = 0 ↔ became)

/-- No two IPv4 UDP sockets hold the same port. -/
def Distinct (h : Binder) : Prop := Table.Apart BindSock.PortsDiffer h.socks

/-- The call on the `i`th socket `k` goes on soundly: a UDP port is in use exactly
if the socket has an error, no other UDP socket has taken it between lookup and
update, and `listen` finds a closed socket exactly if it has no error. -/
def SoundRun (h : Binder) (i : Nat) (k : BindSock) : Prop :=
  match k.call with
  | some (.lookup a) => h.inUse a.port ↔ k.err ≠ 0
  | some (.port a) => ∀ j < h.socks.length, j ≠ i → ∀ l ∈ h.socks[j]?, BindSock.PortsDiffer { k with sport := a.port } l
  | some .listen => k.state = .close ↔ k.err = 0
  | none | some (.addr _) | some (.bound _ _) | some (.listened _) => True

instance (h : Binder) (i : Nat) (k : BindSock) : Decidable (h.SoundRun i k) := by
  unfold SoundRun
  split <;> infer_instance

/-- The step is sound; a `bind` of a TCP socket starts where there is no error. -/
def Sound (h : Binder) : BindEvent → Prop
  | .bind i a => ∀ k ∈ h.socks[i]?, k.family = .inet → k.protocol = .tcp → inetBindRefusal a = none → k.err = 0
  | .listen _ _ => True
  | .run i => ∀ k ∈ h.socks[i]?, h.SoundRun i k

instance (h : Binder) (e : BindEvent) : Decidable (h.Sound e) := by
  unfold Sound
  cases e <;> infer_instance

/-- What holds of a call between its steps, if it keeps its word. -/
def Keeps (k : BindSock) : Prop :=
  match k.call with
  | some (.port _) => k.err = 0
  | some (.addr a) => k.err = 0 ∧ k.sport = a.port
  | some (.bound a done) => (k.err = 0 ↔ done) ∧ (done → k.At a)
  | some (.listened done) => (k.err = 0 ↔ done) ∧ (done → k.state = .listen)
  | none | some (.lookup _) | some .listen => True

variable {h : Binder} {k l : BindSock}

theorem PortsDiffer.symm (hd : k.PortsDiffer l) : l.PortsDiffer k := fun hl hk he => hd hk hl he.symm

theorem portsDiffer_of_not {k : BindSock} (hk : k.udp4 = false) (l : BindSock) : k.PortsDiffer l := fun h => by
  rw [hk] at h
  cases h

/-- The start of a `bind`. -/
theorem keeps_bind (hk : Keeps k) {a : SockAddr} (hc : k.call = none)
    (hok : k.family = .inet → k.protocol = .tcp → inetBindRefusal a = none → k.err = 0) :
    Keeps (k.bind a) ∧ ∀ l, k.PortsDiffer l → (k.bind a).PortsDiffer l := by
  unfold BindSock.bind
  split
  case h_1 hf hp =>
    split
    · exact ⟨hk, fun _ h => h⟩
    next hr =>
      refine ⟨hok hf hp (by simpa using hr), fun l _ => portsDiffer_of_not ?_ l⟩
      simp [BindSock.udp4, hp]
  case h_2 =>
    split
    · exact ⟨hk, fun _ h => h⟩
    · exact ⟨trivial, fun _ h => h⟩
  case h_3 hf hp =>
    split
    · exact ⟨hk, fun _ h => h⟩
    · refine ⟨?_, fun l _ => portsDiffer_of_not ?_ l⟩
      · simp only [Keeps, hc]
      · simp [BindSock.udp4, hp]
  case h_4 => exact ⟨hk, fun _ h => h⟩

/-- The next step of a call. -/
theorem keeps_run (hk : Keeps k) {i : Nat} (hok : h.SoundRun i k) :
    Keeps (k.run h.inUse) ∧ ∀ j l, j ≠ i → h.socks[j]? = some l → k.PortsDiffer l → (k.run h.inUse).PortsDiffer l := by
  unfold BindSock.run
  unfold Keeps at hk
  unfold SoundRun at hok
  cases hc : k.call with
  | none => exact ⟨by simp only [Keeps, hc], fun _ _ _ _ h => h⟩
  | some call =>
    rw [hc] at hok hk
    cases call with
    | lookup a =>
      dsimp only at hok ⊢
      split
      next hu => exact ⟨⟨iff_of_false (hok.mp hu) nofun, nofun⟩, fun _ _ _ _ h => h⟩
      next hu => exact ⟨not_not.mp (mt hok.mpr hu), fun _ _ _ _ h => h⟩
    | port a => exact ⟨⟨hk, rfl⟩, fun j l hj hl _ => hok j (Table.lt_length hl) hj l hl⟩
    | addr a => exact ⟨⟨iff_of_true hk.1 rfl, fun _ => ⟨hk.2, rfl⟩⟩, fun _ _ _ _ h => h⟩
    | bound a done => exact ⟨trivial, fun _ _ _ _ h => h⟩
    | listen =>
      dsimp only at hok ⊢
      split
      next hs => exact ⟨⟨iff_of_true (hok.mp hs) rfl, fun _ => rfl⟩, fun _ _ _ _ h => h⟩
      next hs => exact ⟨⟨iff_of_false (mt hok.mpr hs) nofun, nofun⟩, fun _ _ _ _ h => h⟩
    | listened done => exact ⟨trivial, fun _ _ _ _ h => h⟩

/-- A call that keeps its word is truthful. -/
theorem keeps_truthful (hk : ∀ k ∈ h.socks, Keeps k) (e : BindEvent) : h.Truthful e := by
  rintro - rc became hr
  cases e with
  | bind i a =>
    dsimp only [returned] at hr
    split at hr
    · cases hr
    · split at hr
      · cases hr
      · obtain ⟨rc', hrc, heq⟩ := Option.map_eq_some_iff.mp hr
        cases heq
        refine iff_of_false ?_ nofun
        unfold inetBindRefusal at hrc
        split at hrc <;> (try split at hrc) <;> (try split at hrc) <;> cases hrc <;> decide
  | listen i n =>
    dsimp only [returned] at hr
    split at hr
    · cases hr
    · split at hr
      · cases hr
      · split at hr <;> cases hr
        exact iff_of_false (by decide) nofun
  | run i =>
    dsimp only [returned] at hr
    cases hi : h.socks[i]? with
    | none =>
      rw [hi] at hr
      cases hr
    | some k =>
      have hkeep := hk k (List.mem_of_getElem? hi)
      rw [hi] at hr
      unfold Keeps at hkeep
      dsimp only at hr
      split at hr
      case h_1 a done hc =>
        rw [hc] at hkeep
        cases hr
        rw [hkeep.1, Bool.and_eq_true, decide_eq_true_eq]
        exact (and_iff_left_of_imp hkeep.2).symm
      case h_2 done hc =>
        rw [hc] at hkeep
        cases hr
        rw [hkeep.1, Bool.and_eq_true, decide_eq_true_eq]
        exact (and_iff_left_of_imp hkeep.2).symm
      case h_3 => cases hr

/-- One step of the stack. -/
theorem step_keeps {e : BindEvent} (hok : h.crashed = false → h.Sound e) (hk : ∀ k ∈ h.socks, Keeps k) (hd : h.Distinct) :
    (∀ k ∈ (h.step e).socks, Keeps k) ∧ (h.step e).Distinct := by
  have hset {i : Nat} {k k' : BindSock} (hi : h.socks[i]? = some k) (hkeep : Keeps k')
      (hport : ∀ j l, j ≠ i → h.socks[j]? = some l → k.PortsDiffer l → k'.PortsDiffer l) :
      (∀ k ∈ h.socks.set i k', Keeps k) ∧ Table.Apart BindSock.PortsDiffer (h.socks.set i k') :=
    ⟨Table.forall_set hk hkeep, hd.set (fun _ _ => PortsDiffer.symm) fun j l hj hl => hport j l hj hl (hd (Ne.symm hj) hi hl)⟩
  unfold step
  split
  · exact ⟨hk, hd⟩
  next hcr =>
    have hok := hok (by simpa using hcr)
    cases e with
    | bind i a =>
      dsimp only
      split
      · exact ⟨hk, hd⟩
      next k hi =>
        split
        · exact ⟨hk, hd⟩
        next hc =>
          obtain ⟨hkeep, hport⟩ := keeps_bind (hk k (List.mem_of_getElem? hi)) (by simpa using hc) (hok k hi)
          exact hset hi hkeep fun _ l _ _ => hport l
    | listen i n =>
      dsimp only
      split
      · exact ⟨hk, hd⟩
      next k hi =>
        split
        · exact ⟨hk, hd⟩
        · split
          · exact ⟨hk, hd⟩
          · split
            · exact ⟨hk, hd⟩
            · exact hset hi trivial fun _ _ _ _ h => h
    | run i =>
      dsimp only
      split
      · exact ⟨hk, hd⟩
      next k hi =>
        obtain ⟨hkeep, hport⟩ := keeps_run (hk k (List.mem_of_getElem? hi)) (hok k hi)
        exact hset hi hkeep hport

end Binder

/-- **Bind and listen tell the truth.** From any sockets without a call under
way, no two IPv4 UDP sockets on one port, through every interleaving whose steps
are sound: every call says 0 exactly if it has done what it was asked for, and no
two IPv4 UDP sockets ever hold the same port. -/
theorem bind_listen_truthful {h : Binder} (hidle : ∀ k ∈ h.socks, k.call = none) (hd : h.Distinct) {es : List BindEvent}
    (hok : Machine.Meets Binder.step (fun h e => h.crashed = false → h.Sound e) h es) :
    Machine.Meets Binder.step Binder.Truthful h es ∧ ∀ n, (h.exec (es.take n)).Distinct := by
  have hkeep : ∀ k ∈ h.socks, Binder.Keeps k := fun k hk => by simp only [Binder.Keeps, hidle k hk]
  refine ⟨hok.derives (I := fun h => (∀ k ∈ h.socks, Binder.Keeps k) ∧ h.Distinct)
    (fun h e ho hi => ⟨Binder.step_keeps ho hi.1 hi.2, Binder.keeps_truthful hi.1 e⟩) ⟨hkeep, hd⟩, fun n => ?_⟩
  have hpre : Machine.Meets Binder.step (fun h e => h.crashed = false → h.Sound e) h (es.take n) := by
    have := es.take_append_drop n ▸ hok
    exact (Machine.Meets.append.mp this).1
  exact (hpre.invariant (I := fun h => (∀ k ∈ h.socks, Binder.Keeps k) ∧ h.Distinct)
    (fun h e ho hi => Binder.step_keeps ho hi.1 hi.2) ⟨hkeep, hd⟩).2

/-- A socket of `socket(AF_INET, …)`. -/
def inetSock (protocol : Protocol) : BindSock := { protocol := protocol, family := .inet, saddr := .v4 0 }

/-- Two UDP sockets are bound to two ports, step by step in turn, and a TCP socket listens. -/
def soundBinds : List BindEvent :=
  [.bind 0 { family := .inet, port := 53 }, .bind 1 { family := .inet, port := 67 }, .run 0, .run 1, .run 1, .run 0, .run 0, .run 1,
   .run 0, .run 1, .listen 2 5, .run 2, .run 2]

theorem bind_listen_truthful_turns :
    let h : Binder := { socks := [inetSock .udp, inetSock .udp, inetSock .tcp] }
    Machine.Meets Binder.step Binder.Truthful h soundBinds ∧ ∀ n, (h.exec (soundBinds.take n)).Distinct := by
  refine bind_listen_truthful (by decide) (fun i j x y _ hi _ hx => ?_) (by decide +kernel)
  have hx0 : x.udp4 = false := (by decide : ∀ k ∈ [inetSock .udp, inetSock .udp, inetSock .tcp], k.udp4 = false) x (List.mem_of_getElem? hi)
  rw [hx0] at hx
  cases hx

/-- Two binds of port 53 whose lookups both come before the first update: both
return 0 and both sockets hold it. A third one comes too late, and returns 0 as
well; so does a second `listen`. -/
theorem bind_lies :
    let h : Binder := { socks := [inetSock .udp, inetSock .udp, inetSock .udp, inetSock .tcp] }
    let dns : SockAddr := { family := .inet, port := 53 }
    let race := h.exec [.bind 0 dns, .bind 1 dns, .run 0, .run 1, .run 0, .run 1]
    let late := h.exec [.bind 0 dns, .run 0, .run 0, .run 0, .run 0, .bind 2 dns, .run 2]
    let twice := h.exec [.listen 3 5, .run 3, .run 3, .listen 3 5, .run 3]
    ¬ race.Distinct ∧ late.returned (.run 2) = some (0, false) ∧ twice.returned (.run 3) = some (0, false) := by
  refine ⟨fun hd => ?_, by decide +kernel, by decide +kernel⟩
  exact absurd (@hd 0 1 _ _ nofun rfl rfl (by decide +kernel) (by decide +kernel)) (by decide +kernel)

end LevelIp
