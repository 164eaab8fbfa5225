/-
`poll` over descriptors of the kernel and of lvl-ip. The library collects pointers
to the entries of each kind; the daemon gets a copy of its entries, but the
kernel gets the first pointer and a count. The daemon finds a socket by the pid
that asks and the descriptor, whichever connection the request came over.
-/
import LevelIp.Ipc
import LevelIp.Sock
import LevelIp.Lib.Window

namespace LevelIp

open Window (window put fill Together)

def POLLNVAL : U16 := 0x20

/-! ## The daemon -/

/-- A socket of the daemon, as `_poll` sees it. No assignment to `poll_events`
sets the sign of the `short`. -/
structure PollSock where
  pid : U32
  fd : U32
  pollEvents : U16
  unsigned : pollEvents.msb = false

/-- `get_socket`. -/
def getSocket (socks : List PollSock) (pid fd : U32) : Option PollSock := socks.find? fun sock => sock.pid = pid ∧ sock.fd = fd

/-- The events `_poll` lets through. -/
def PollSock.shows (sock : PollSock) (events : U16) : U16 := sock.pollEvents &&& (events ||| POLLHUP ||| POLLERR ||| POLLNVAL)

/-- One round of the daemon's `_poll` from the entry `i` on, with the count;
`none` is -EBADF. `socks i` are the sockets when that entry is looked up. -/
def pollRound (socks : Nat → List PollSock) (pid : U32) : Nat → List IpcPollfd → Option (List IpcPollfd × Nat)
  | _, [] => some ([], 0)
  | i, poll :: fds =>
    match getSocket (socks i) pid poll.fd with
    | none => none
    | some sock =>
      let poll := { poll with revents := sock.shows poll.events }
      match pollRound socks pid (i + 1) fds with
      | none => none
      | some (fds, polled) => some (poll :: fds, if 0 < poll.revents.toInt then polled + 1 else polled)

/-- The daemon's `_poll`, the rounds counted from `t`: the round it returns after,
and what `ipc_poll` answers. -/
def pollWait (socks : Nat → Nat → List PollSock) (pid : U32) : (fuel : Nat) → List IpcPollfd → (t : Nat) → (timeout : Int) →
    Option (Nat × Option (List IpcPollfd × Nat))
  | 0, _, _, _ => none
  | fuel + 1, fds, t, timeout =>
    match pollRound (socks t) pid 0 fds with
    | none => some (t + 1, none)
    | some (fds, polled) =>
      if 0 < polled ∨ timeout = 0 then some (t + 1, some (fds, polled))
      else pollWait socks pid fuel fds (t + 1) (if 0 < timeout then if 10 < timeout then timeout - 10 else 0 else timeout)

/-! ## The library -/

/-- `struct lvlip_sock`. -/
structure LvlipSock where
  lvlfd : U32
  fd : U32

/-- `lvlip_get_sock`. -/
def lvlipGetSock (socks : List LvlipSock) (fd : U32) : Option LvlipSock := socks.find? fun sock => sock.fd = fd

/-- The entry is one of lvl-ip. -/
def isLvlip (socks : List LvlipSock) (p : IpcPollfd) : Bool := (lvlipGetSock socks p.fd).isSome

/-- What `poll` meets outside the library. The kernel's `poll` fails or sets
`revents` of each entry of the array it gets, the `n`th time it is asked: it may
look at the place of the entry, at `fd` and at `events`. -/
structure PollWorld where
  kernel : Nat → Option (Nat → U32 → U16 → U16)
  daemon : Nat → Nat → List PollSock

/-- The kernel's `poll`: the entries, and how many have events. -/
def kernelPoll (ready : Nat → U32 → U16 → U16) (fds : List IpcPollfd) : List IpcPollfd × Nat :=
  let fds := fds.mapIdx fun i p => { p with revents := ready i p.fd p.events }
  (fds, fds.countP (·.revents ≠ 0))

/-- A call of `poll` while it lasts: the caller's array, the arrays the kernel and
the daemon were asked about, and the rounds of the daemon. -/
structure PollCall where
  fds : List IpcPollfd
  kernelAsked : List (List IpcPollfd) := []
  daemonAsked : List (List IpcPollfd) := []
  rounds : Nat := 0
deriving DecidableEq

/-- How it ends: with a count, with the failure of the kernel's `poll`, or with a
request that is longer than the buffer of the daemon, which reads on behind it. -/
inductive PollEnd where
  | returned (rc : Int)
  | kernelFailed
  | requestCut
deriving DecidableEq

/-- The request: `struct ipc_msg`, `struct ipc_poll` and the entries. -/
def pollMsglen (nfds : Nat) : Nat := 6 + 12 + 8 * nfds

/-- What the answer of the daemon is copied into. -/
def copyPolled (p returned : IpcPollfd) : IpcPollfd := { p with events := returned.events, revents := returned.revents }

section call
variable (w : PollWorld) (pid : U32) (socks : List LvlipSock)

/-- `_poll(*kernel_fds, kernel_nfds, timeout)`; `none` is -1. -/
def PollCall.askKernel (s : PollCall) : PollCall × Option Nat :=
  if 0 < s.fds.countP (!isLvlip socks ·) then
    let asked := window (!isLvlip socks ·) s.fds
    match w.kernel s.kernelAsked.length with
    | none => ({ s with kernelAsked := s.kernelAsked ++ [asked] }, none)
    | some ready =>
      let (polled, events) := kernelPoll ready asked
      ({ s with kernelAsked := s.kernelAsked ++ [asked], fds := put (!isLvlip socks ·) s.fds polled }, some events)
  else (s, some 0)

/-- The request to the daemon and its answer: the call after it, and its end or
the count of the daemon. -/
def PollCall.askDaemon (s : PollCall) (timeout : Int) (fuel : Nat) : Option (PollCall × (PollEnd ⊕ Nat)) :=
  let asked := s.fds.filter (isLvlip socks ·)
  if IPC_BUFLEN < pollMsglen asked.length then some (s, .inl .requestCut)
  else
    match pollWait w.daemon pid fuel asked s.rounds timeout with
    | none => none
    | some (t, none) => some ({ s with daemonAsked := s.daemonAsked ++ [asked], rounds := t }, .inl (.returned (-1)))
    | some (t, some (returned, polled)) =>
      some ({ s with daemonAsked := s.daemonAsked ++ [asked], rounds := t,
                     fds := fill copyPolled (isLvlip socks ·) s.fds returned }, .inr polled)

/-- The loop of `poll`. -/
def PollCall.loop (timeout : Int) (blocking : Bool) : (fuel : Nat) → PollCall → Option (PollCall × PollEnd)
  | 0, _ => none
  | fuel + 1, s =>
    match s.askKernel w socks with
    | (s, none) => some (s, .kernelFailed)
    | (s, some events) =>
      if s.fds.countP (isLvlip socks ·) < 1 then some (s, .returned events)
      else
        match s.askDaemon w pid socks timeout fuel with
        | none => none
        | some (s, .inl e) => some (s, e)
        | some (s, .inr polled) =>
          let result := events + polled
          if 0 < result ∨ !blocking then some (s, .returned result) else PollCall.loop timeout blocking fuel s

/-- `poll`. -/
def poll (fds : List IpcPollfd) (timeout : Int) (fuel : Nat) : Option (PollCall × PollEnd) :=
  let blocking := 0 < fds.countP (!isLvlip socks ·) ∧ 0 < fds.countP (isLvlip socks ·) ∧ timeout = -1
  PollCall.loop w pid socks (if blocking then 100 else timeout) blocking fuel { fds := fds }

end call

/-! ## What is asked -/

/-- What an entry asks for. -/
def IpcPollfd.wants (p : IpcPollfd) : U32 × U16 := (p.fd, p.events)

section right
variable (w : PollWorld) (pid : U32) (socks : List LvlipSock)

/-- The kernel's entries show what its last `poll` said. -/
def PollCall.KernelAnswered (s : PollCall) : Prop := ∃ n ready, s.kernelAsked.length = n + 1 ∧ w.kernel n = some ready ∧
  ∀ i p, (s.fds.filter (!isLvlip socks ·))[i]? = some p → p.revents = ready i p.fd p.events

/-- The entries of lvl-ip show what their sockets had in the last round. -/
def PollCall.DaemonAnswered (s : PollCall) : Prop := s.daemonAsked ≠ [] ∧ ∃ t, s.rounds = t + 1 ∧
  ∀ i p, (s.fds.filter (isLvlip socks ·))[i]? = some p →
    ∃ sock, getSocket (w.daemon t i) pid p.fd = some sock ∧ p.revents = sock.shows p.events

/-- A call has asked each side about its own descriptors, and their answers and
the number of these are in the array. -/
structure PollsRight (fds : List IpcPollfd) (s : PollCall) (e : PollEnd) : Prop where
  array : s.fds.map (·.wants) = fds.map (·.wants)
  kernelAsked : ∀ c ∈ s.kernelAsked, c.map (·.wants) = (fds.filter (!isLvlip socks ·)).map (·.wants)
  daemonAsked : ∀ c ∈ s.daemonAsked, c.map (·.wants) = (fds.filter (isLvlip socks ·)).map (·.wants)
  kernel : (∃ p ∈ fds, !isLvlip socks p) → s.kernelAsked ≠ [] ∧ (e ≠ .kernelFailed → s.KernelAnswered w socks)
  daemon : (∃ p ∈ fds, isLvlip socks p) → e ≠ .kernelFailed → s.DaemonAnswered w pid socks
  count : e ≠ .kernelFailed → e = .returned (s.fds.countP (·.revents ≠ 0))

/-- The descriptors of the entries are sockets of the process. -/
def PollFound (socks : Nat → List PollSock) (pid : U32) (fds : List IpcPollfd) : Prop :=
  ∀ i p, fds[i]? = some p → (getSocket (socks i) pid p.fd).isSome

/-- The request fits, unless the kernel's `poll` fails before it is made. -/
def PollFits (fds : List IpcPollfd) : Prop :=
  ((∃ p ∈ fds, !isLvlip socks p) ∧ w.kernel 0 = none) ∨ pollMsglen (fds.countP (isLvlip socks ·)) ≤ IPC_BUFLEN

/-- **When it has.** The kernel's entries stand together, the request fits into the
daemon's buffer, and whenever the daemon looks, the other entries are sockets of
the process that asks. -/
structure PollPlaced (fds : List IpcPollfd) (rounds : Nat) : Prop where
  together : Together (!isLvlip socks ·) fds
  fits : PollFits w socks fds
  found : ∀ t < rounds, PollFound (w.daemon t) pid (fds.filter (isLvlip socks ·))

end right

/-! ## A round of the daemon -/

theorem PollSock.toInt_shows (sock : PollSock) (events : U16) : 0 < (sock.shows events).toInt ↔ sock.shows events ≠ 0 := by
  have hmsb : (sock.shows events).msb = false := by rw [PollSock.shows, BitVec.msb_and, sock.unsigned, Bool.false_and]
  have hzero : (0 : U16).toNat = 0 := rfl
  rw [BitVec.toInt_eq_toNat_of_msb hmsb, ne_eq, ← BitVec.toNat_inj, hzero]
  omega

theorem isLvlip_of_wants (socks : List LvlipSock) (p q : IpcPollfd) (h : p.wants = q.wants) : isLvlip socks p = isLvlip socks q := by
  have hfd : p.fd = q.fd := congrArg Prod.fst h
  rw [isLvlip, isLvlip, hfd]

theorem isKernel_of_wants (socks : List LvlipSock) (p q : IpcPollfd) (h : p.wants = q.wants) :
    (!isLvlip socks p) = !isLvlip socks q := by
  rw [isLvlip_of_wants socks p q h]

section round
variable {socks : Nat → List PollSock} {pid : U32} {fds fds' : List IpcPollfd} {i n : Nat}

theorem pollRound_some (h : pollRound socks pid i fds = some (fds', n)) :
    fds'.map (·.wants) = fds.map (·.wants) ∧ n = fds'.countP (·.revents ≠ 0) ∧
      ∀ j p, fds'[j]? = some p → ∃ sock, getSocket (socks (i + j)) pid p.fd = some sock ∧ p.revents = sock.shows p.events := by
  induction fds generalizing i fds' n with
  | nil =>
    cases h
    exact ⟨rfl, rfl, fun _ _ hp => by cases hp⟩
  | cons poll fds ih =>
    rw [pollRound] at h
    cases hsock : getSocket (socks i) pid poll.fd with
    | none => simp [hsock] at h
    | some sock =>
      cases hrest : pollRound socks pid (i + 1) fds with
      | none => simp [hsock, hrest] at h
      | some r =>
        obtain ⟨rest, polled⟩ := r
        simp only [hsock, hrest, Option.some.injEq, Prod.mk.injEq] at h
        obtain ⟨rfl, rfl⟩ := h
        obtain ⟨hwants, hcount, hall⟩ := ih hrest
        refine ⟨?_, ?_, fun j p hp => ?_⟩
        · rw [List.map_cons, List.map_cons, hwants]
          rfl
        · simp only [List.countP_cons, decide_eq_true_eq, sock.toInt_shows, hcount]
          split <;> rfl
        · cases j with
          | zero =>
            cases hp
            exact ⟨sock, hsock, rfl⟩
          | succ j =>
            have hplace : i + (j + 1) = i + 1 + j := by omega
            rw [hplace]
            exact hall j p hp

theorem pollRound_isSome : (pollRound socks pid i fds).isSome ↔ PollFound (fun j => socks (i + j)) pid fds := by
  induction fds generalizing i with
  | nil => exact iff_of_true rfl fun _ _ hp => by cases hp
  | cons poll fds ih =>
    have hcons : PollFound (fun j => socks (i + j)) pid (poll :: fds) ↔
        (getSocket (socks i) pid poll.fd).isSome ∧ PollFound (fun j => socks (i + 1 + j)) pid fds := by
      refine ⟨fun h => ⟨h 0 poll rfl, fun j p hp => ?_⟩, fun h j p hp => ?_⟩
      · have hplace : i + 1 + j = i + (j + 1) := by omega
        simp only [hplace]
        exact h (j + 1) p hp
      · cases j with
        | zero =>
          cases hp
          exact h.1
        | succ j =>
          have hplace : i + (j + 1) = i + 1 + j := by omega
          simp only [hplace]
          exact h.2 j p hp
    rw [hcons, ← ih, pollRound]
    cases getSocket (socks i) pid poll.fd with
    | none => simp
    | some sock => cases pollRound socks pid (i + 1) fds <;> simp

theorem PollFound.congr (hm : fds'.map (·.wants) = fds.map (·.wants)) (h : PollFound socks pid fds) : PollFound socks pid fds' := by
  intro i p hp
  have hi : (fds'.map (·.wants))[i]? = some p.wants := by rw [List.getElem?_map, hp, Option.map_some]
  rw [hm, List.getElem?_map, Option.map_eq_some_iff] at hi
  obtain ⟨q, hq, hpq⟩ := hi
  have hfd : q.fd = p.fd := congrArg Prod.fst hpq
  rw [← hfd]
  exact h i q hq

end round

/-- What the daemon answers, and what it has seen until then. -/
theorem pollWait_some {socks : Nat → Nat → List PollSock} {pid : U32} {fuel t t' : Nat} {fds : List IpcPollfd} {timeout : Int}
    {r : Option (List IpcPollfd × Nat)} (h : pollWait socks pid fuel fds t timeout = some (t', r)) :
    ∃ u, t' = u + 1 ∧ t ≤ u ∧ (∀ k, t ≤ k → k < u → PollFound (socks k) pid fds) ∧
      ∃ fds₀, fds₀.map (·.wants) = fds.map (·.wants) ∧ pollRound (socks u) pid 0 fds₀ = r := by
  induction fuel generalizing fds t timeout with
  | zero => cases h
  | succ fuel ih =>
    rw [pollWait] at h
    cases hround : pollRound (socks t) pid 0 fds with
    | none =>
      rw [hround] at h
      cases h
      exact ⟨t, rfl, le_refl t, fun k h1 h2 => absurd h2 (by omega), fds, rfl, hround⟩
    | some x =>
      obtain ⟨fds', polled⟩ := x
      simp only [hround] at h
      have hwants := (pollRound_some hround).1
      split at h
      · cases h
        exact ⟨t, rfl, le_refl t, fun k h1 h2 => absurd h2 (by omega), fds, rfl, hround⟩
      · obtain ⟨u, hu, htu, hfound, fds₀, hfds₀, hend⟩ := ih h
        refine ⟨u, hu, by omega, fun k h1 h2 => ?_, fds₀, hfds₀.trans hwants, hend⟩
        by_cases hk : k = t
        · rw [hk]
          have hsome : (pollRound (socks t) pid 0 fds).isSome := by rw [hround, Option.isSome_some]
          have hf := pollRound_isSome.mp hsome
          simpa only [Nat.zero_add] using hf
        · exact (hfound k (by omega) h2).congr hwants.symm

/-! ## Asking -/

theorem wants_kernelPoll (ready : Nat → U32 → U16 → U16) (fds : List IpcPollfd) :
    (kernelPoll ready fds).1.map (·.wants) = fds.map (·.wants) :=
  List.ext_getElem (by simp [kernelPoll]) fun i _ _ => by simp [kernelPoll, IpcPollfd.wants]

namespace PollCall

variable {w : PollWorld} {pid : U32} {socks : List LvlipSock} {s s' : PollCall}

/-- What `_poll(*kernel_fds, ...)` does. -/
theorem askKernel_spec {r : Option Nat} (h : s.askKernel w socks = (s', r)) :
    s'.daemonAsked = s.daemonAsked ∧ s'.rounds = s.rounds ∧ s'.fds.map (·.wants) = s.fds.map (·.wants) ∧
      ((¬(∃ p ∈ s.fds, !isLvlip socks p) ∧ s' = s ∧ r = some 0) ∨
        (∃ p ∈ s.fds, !isLvlip socks p) ∧ s'.kernelAsked = s.kernelAsked ++ [window (!isLvlip socks ·) s.fds] ∧
          ((r = none ∧ w.kernel s.kernelAsked.length = none) ∨
            ∃ events, r = some events ∧ w.kernel s.kernelAsked.length ≠ none ∧
              (Together (!isLvlip socks ·) s.fds → s'.KernelAnswered w socks ∧
                events = (s'.fds.filter (!isLvlip socks ·)).countP (·.revents ≠ 0) ∧
                s'.fds.filter (isLvlip socks ·) = s.fds.filter (isLvlip socks ·)))) := by
  have hany : 0 < s.fds.countP (!isLvlip socks ·) ↔ ∃ p ∈ s.fds, !isLvlip socks p := List.countP_pos_iff
  rw [askKernel] at h
  split at h
  next hpos =>
    cases hready : w.kernel s.kernelAsked.length with
    | none =>
      simp only [hready] at h
      cases h
      exact ⟨rfl, rfl, rfl, .inr ⟨hany.mp hpos, rfl, .inl ⟨rfl, rfl⟩⟩⟩
    | some ready =>
      simp only [hready] at h
      cases h
      have hwants := wants_kernelPoll ready (window (!isLvlip socks ·) s.fds)
      refine ⟨rfl, rfl, Window.map_put hwants, .inr ⟨hany.mp hpos, rfl, .inr ⟨_, rfl, Option.some_ne_none ready, fun ht => ?_⟩⟩⟩
      have hlen : (kernelPoll ready (window (!isLvlip socks ·) s.fds)).1.length = s.fds.countP (!isLvlip socks ·) := by
        rw [kernelPoll, List.length_mapIdx, ht.window_eq, List.countP_eq_length_filter]
      have hall : ∀ y ∈ (kernelPoll ready (window (!isLvlip socks ·) s.fds)).1, (!isLvlip socks y) = true := by
        intro y hy
        obtain ⟨z, hz, hyz⟩ := Window.exists_congr_map (isKernel_of_wants socks) hwants hy
        rw [ht.window_eq] at hz
        rw [hyz]
        exact (List.mem_filter.mp hz).2
      obtain ⟨hkernel, hlvlip⟩ := ht.filter_put hall hlen
      simp only [Bool.not_not] at hlvlip
      refine ⟨⟨s.kernelAsked.length, ready, by simp, hready, fun i p hp => ?_⟩, ?_, hlvlip⟩
      · dsimp only at hp
        rw [hkernel, kernelPoll, List.getElem?_mapIdx, Option.map_eq_some_iff] at hp
        obtain ⟨q, -, rfl⟩ := hp
        rfl
      · dsimp only
        rw [hkernel]
        rfl
  next hpos =>
    cases h
    exact ⟨rfl, rfl, rfl, .inl ⟨fun hk => hpos (hany.mpr hk), rfl, rfl⟩⟩

/-- What the request to the daemon does. -/
theorem askDaemon_spec {timeout : Int} {fuel : Nat} {r : PollEnd ⊕ Nat} (h : s.askDaemon w pid socks timeout fuel = some (s', r)) :
    s'.kernelAsked = s.kernelAsked ∧ s'.fds.map (·.wants) = s.fds.map (·.wants) ∧
      ((r = .inl .requestCut ∧ IPC_BUFLEN < pollMsglen (s.fds.countP (isLvlip socks ·)) ∧ s' = s) ∨
        pollMsglen (s.fds.countP (isLvlip socks ·)) ≤ IPC_BUFLEN ∧ s'.daemonAsked = s.daemonAsked ++ [s.fds.filter (isLvlip socks ·)] ∧
          ∃ u, s'.rounds = u + 1 ∧ s.rounds ≤ u ∧
            (∀ k, s.rounds ≤ k → k < u → PollFound (w.daemon k) pid (s.fds.filter (isLvlip socks ·))) ∧
            ((r = .inl (.returned (-1)) ∧ ¬PollFound (w.daemon u) pid (s.fds.filter (isLvlip socks ·))) ∨
              ∃ polled, r = .inr polled ∧ PollFound (w.daemon u) pid (s.fds.filter (isLvlip socks ·)) ∧ s'.DaemonAnswered w pid socks ∧
                polled = (s'.fds.filter (isLvlip socks ·)).countP (·.revents ≠ 0) ∧
                s'.fds.filter (!isLvlip socks ·) = s.fds.filter (!isLvlip socks ·))) := by
  rw [askDaemon] at h
  simp only [← List.countP_eq_length_filter] at h
  split at h
  next hcut =>
    cases h
    exact ⟨rfl, rfl, .inl ⟨rfl, hcut, rfl⟩⟩
  next hfits =>
    cases hwait : pollWait w.daemon pid fuel (s.fds.filter (isLvlip socks ·)) s.rounds timeout with
    | none => simp [hwait] at h
    | some x =>
      obtain ⟨t, answer⟩ := x
      obtain ⟨u, rfl, hu, hfound, fds₀, hfds₀, hround⟩ := pollWait_some hwait
      have hlast : answer.isSome ↔ PollFound (w.daemon u) pid (s.fds.filter (isLvlip socks ·)) := by
        rw [← hround, pollRound_isSome]
        simp only [Nat.zero_add]
        exact ⟨fun hf => hf.congr hfds₀.symm, fun hf => hf.congr hfds₀⟩
      cases answer with
      | none =>
        simp only [hwait] at h
        cases h
        refine ⟨rfl, rfl, .inr ⟨Nat.le_of_not_lt hfits, rfl, u, rfl, hu, hfound, .inl ⟨rfl, fun hf => ?_⟩⟩⟩
        exact absurd (hlast.mpr hf) (by decide)
      | some y =>
        obtain ⟨returned, polled⟩ := y
        simp only [hwait] at h
        cases h
        obtain ⟨hwants, hcount, hshown⟩ := pollRound_some hround
        have hcopy : ∀ x y : IpcPollfd, y.wants = x.wants → copyPolled x y = y := by
          rintro ⟨fd, events, revents⟩ ⟨fd', events', revents'⟩ hxy
          cases hxy
          rfl
        obtain ⟨hlvlip, hkernel, hmap⟩ := Window.fill_spec (isLvlip_of_wants socks) hcopy (hwants.trans hfds₀)
        refine ⟨rfl, hmap, .inr ⟨Nat.le_of_not_lt hfits, rfl, u, rfl, hu, hfound,
          .inr ⟨polled, rfl, hlast.mp rfl, ⟨by simp, u, rfl, fun i p hp => ?_⟩, ?_, hkernel⟩⟩⟩
        · dsimp only at hp
          rw [hlvlip] at hp
          simpa only [Nat.zero_add] using hshown i p hp
        · dsimp only
          rw [hlvlip]
          exact hcount

end PollCall

/-! ## The loop -/

section loop
variable (w : PollWorld) (pid : U32) (socks : List LvlipSock) (fds : List IpcPollfd)

/-- What is so at any time of a call. -/
structure PollKept (s : PollCall) : Prop where
  array : s.fds.map (·.wants) = fds.map (·.wants)
  kernelAsked : ∀ c ∈ s.kernelAsked, c.map (·.wants) = (window (!isLvlip socks ·) fds).map (·.wants)
  daemonAsked : ∀ c ∈ s.daemonAsked, c.map (·.wants) = (fds.filter (isLvlip socks ·)).map (·.wants)

/-- What is so between two rounds of the loop: the daemon has always found what it
looked for, and a round before has gone through. -/
structure PollGoing (s : PollCall) : Prop extends PollKept socks fds s where
  found : ∀ t < s.rounds, PollFound (w.daemon t) pid (fds.filter (isLvlip socks ·))
  before : s.kernelAsked ≠ [] → w.kernel 0 ≠ none ∧ pollMsglen (fds.countP (isLvlip socks ·)) ≤ IPC_BUFLEN

/-- How a call ends. -/
inductive PollEnds (s : PollCall) : PollEnd → Prop where
  | kernelFailed : PollFits w socks fds → (∀ t < s.rounds, PollFound (w.daemon t) pid (fds.filter (isLvlip socks ·))) →
      PollEnds s .kernelFailed
  | requestCut : ¬PollFits w socks fds → PollEnds s .requestCut
  | notFound : (∃ t < s.rounds, ¬PollFound (w.daemon t) pid (fds.filter (isLvlip socks ·))) → PollEnds s (.returned (-1))
  | returned (rc : Nat) : PollFits w socks fds → (∀ t < s.rounds, PollFound (w.daemon t) pid (fds.filter (isLvlip socks ·))) →
      (Together (!isLvlip socks ·) fds → ((∃ p ∈ fds, !isLvlip socks p) → s.KernelAnswered w socks) ∧
        ((∃ p ∈ fds, isLvlip socks p) → s.DaemonAnswered w pid socks) ∧ rc = s.fds.countP (·.revents ≠ 0)) →
      PollEnds s (.returned rc)

end loop

section loop
variable {w : PollWorld} {pid : U32} {socks : List LvlipSock} {fds : List IpcPollfd} {s s' : PollCall}

theorem exists_kernel_congr (socks : List LvlipSock) (h : s.fds.map (·.wants) = fds.map (·.wants)) :
    (∃ p ∈ s.fds, !isLvlip socks p) ↔ ∃ p ∈ fds, !isLvlip socks p := by
  rw [← List.countP_pos_iff (p := (!isLvlip socks ·)), ← List.countP_pos_iff (p := (!isLvlip socks ·)),
    Window.countP_congr_map (isKernel_of_wants socks) h]

/-- The events of the array are those of both kinds. -/
theorem countP_events (socks : List LvlipSock) (l : List IpcPollfd) : l.countP (·.revents ≠ 0) =
    (l.filter (!isLvlip socks ·)).countP (·.revents ≠ 0) + (l.filter (isLvlip socks ·)).countP (·.revents ≠ 0) := by
  have h := List.countP_eq_countP_filter_add l (·.revents ≠ 0) (isLvlip socks ·)
  rw [Nat.add_comm]
  exact h

theorem PollKept.askKernel {r : Option Nat} (h : PollKept socks fds s) (ha : s.askKernel w socks = (s', r)) :
    PollKept socks fds s' := by
  obtain ⟨hdaemon, -, hmap, hcase⟩ := PollCall.askKernel_spec ha
  refine ⟨hmap.trans h.array, ?_, fun c hc => h.daemonAsked c (hdaemon ▸ hc)⟩
  obtain ⟨-, rfl, -⟩ | ⟨-, hasked, -⟩ := hcase
  · exact h.kernelAsked
  · intro c hc
    rw [hasked] at hc
    obtain hc | hc := List.mem_append.mp hc
    · exact h.kernelAsked c hc
    · rw [List.mem_singleton.mp hc]
      exact Window.map_window_congr (isKernel_of_wants socks) h.array

theorem PollKept.askDaemon {timeout : Int} {fuel : Nat} {r : PollEnd ⊕ Nat} (h : PollKept socks fds s)
    (ha : s.askDaemon w pid socks timeout fuel = some (s', r)) : PollKept socks fds s' := by
  obtain ⟨hkernel, hmap, hcase⟩ := PollCall.askDaemon_spec ha
  refine ⟨hmap.trans h.array, fun c hc => h.kernelAsked c (hkernel ▸ hc), ?_⟩
  obtain ⟨-, -, rfl⟩ | ⟨-, hasked, -⟩ := hcase
  · exact h.daemonAsked
  · intro c hc
    rw [hasked] at hc
    obtain hc | hc := List.mem_append.mp hc
    · exact h.daemonAsked c hc
    · rw [List.mem_singleton.mp hc]
      exact Window.map_filter_congr (isLvlip_of_wants socks) h.array

/-- The kernel's part of a round. -/
theorem PollGoing.askKernel {r : Option Nat} (h : PollGoing w pid socks fds s) (ha : s.askKernel w socks = (s', r)) :
    s'.rounds = s.rounds ∧ ((∃ p ∈ fds, !isLvlip socks p) → s'.kernelAsked ≠ []) ∧
      match r with
      | none => PollFits w socks fds
      | some events => (s'.kernelAsked ≠ [] → w.kernel 0 ≠ none) ∧ ((∃ p ∈ fds, !isLvlip socks p) → w.kernel 0 ≠ none) ∧
          (Together (!isLvlip socks ·) fds → ((∃ p ∈ fds, !isLvlip socks p) → s'.KernelAnswered w socks) ∧
            events = (s'.fds.filter (!isLvlip socks ·)).countP (·.revents ≠ 0)) := by
  obtain ⟨-, hrounds, -, hcase⟩ := PollCall.askKernel_spec ha
  have hany := exists_kernel_congr socks h.array
  refine ⟨hrounds, ?_⟩
  obtain ⟨hno, rfl, rfl⟩ | ⟨hyes, hasked, ⟨rfl, hfail⟩ | ⟨events, rfl, hok, hanswer⟩⟩ := hcase
  · have hnil : s'.fds.filter (!isLvlip socks ·) = [] := List.filter_eq_nil_iff.mpr fun p hp hk => hno ⟨p, hp, hk⟩
    refine ⟨fun hk => absurd (hany.mpr hk) hno, fun hne => (h.before hne).1, fun hk => absurd (hany.mpr hk) hno,
      fun _ => ⟨fun hk => absurd (hany.mpr hk) hno, ?_⟩⟩
    rw [hnil]
    rfl
  · refine ⟨fun _ => by simp [hasked], ?_⟩
    by_cases hfirst : s.kernelAsked = []
    · rw [hfirst] at hfail
      exact .inl ⟨hany.mp hyes, hfail⟩
    · exact .inr (h.before hfirst).2
  · have hzero : w.kernel 0 ≠ none := by
      by_cases hfirst : s.kernelAsked = []
      · rw [hfirst] at hok
        exact hok
      · exact (h.before hfirst).1
    refine ⟨fun _ => by simp [hasked], fun _ => hzero, fun _ => hzero, fun ht => ?_⟩
    obtain ⟨hanswered, hcount, -⟩ := hanswer (ht.congr (isKernel_of_wants socks) h.array)
    exact ⟨fun _ => hanswered, hcount⟩

/-- **A run of the loop**: from a state between two rounds to the end. -/
theorem PollGoing.loop {timeout : Int} {blocking : Bool} {fuel : Nat} {e : PollEnd} (h : PollGoing w pid socks fds s)
    (hl : s.loop w pid socks timeout blocking fuel = some (s', e)) :
    PollKept socks fds s' ∧ ((∃ p ∈ fds, !isLvlip socks p) → s'.kernelAsked ≠ []) ∧ PollEnds w pid socks fds s' e := by
  induction fuel generalizing s with
  | zero => cases hl
  | succ fuel ih =>
    rw [PollCall.loop] at hl
    rcases hk : s.askKernel w socks with ⟨s₁, _ | events⟩
    · -- the kernel's `poll` fails
      obtain ⟨hrounds, hasked, hfits⟩ := h.askKernel hk
      simp only [hk] at hl
      cases hl
      exact ⟨h.toPollKept.askKernel hk, hasked, .kernelFailed hfits (hrounds ▸ h.found)⟩
    · obtain ⟨hrounds, hasked, hstarted, hfirst, hkernel⟩ := h.askKernel hk
      have hkept := h.toPollKept.askKernel hk
      have hcount : s₁.fds.countP (isLvlip socks ·) = fds.countP (isLvlip socks ·) :=
        Window.countP_congr_map (isLvlip_of_wants socks) hkept.array
      have hlvlip : (s₁.fds.filter (isLvlip socks ·)).map (·.wants) = (fds.filter (isLvlip socks ·)).map (·.wants) :=
        Window.map_filter_congr (isLvlip_of_wants socks) hkept.array
      simp only [hk, hcount] at hl
      split at hl
      next hnone =>
        -- nothing is asked of the daemon
        cases hl
        have hzero : fds.countP (isLvlip socks ·) = 0 := by omega
        refine ⟨hkept, hasked, .returned events (.inr ?_) (hrounds ▸ h.found) fun ht => ⟨(hkernel ht).1, fun hany => ?_, ?_⟩⟩
        · rw [hzero]
          decide
        · have hpos : 0 < fds.countP (isLvlip socks ·) := List.countP_pos_iff.mpr hany
          omega
        · have hnil : s'.fds.filter (isLvlip socks ·) = [] := by
            rw [← List.length_eq_zero_iff, ← List.countP_eq_length_filter, hcount, hzero]
          rw [countP_events socks, ← (hkernel ht).2, hnil]
          rfl
      next hsome =>
        rcases ha : s₁.askDaemon w pid socks timeout fuel with _ | ⟨s₂, r⟩
        · simp [ha] at hl
        have hkept₂ := hkept.askDaemon ha
        obtain ⟨hsame, -, hcase⟩ := PollCall.askDaemon_spec ha
        rw [hcount] at hcase
        obtain ⟨rfl, hcut, rfl⟩ | ⟨hfits, hasked₂, u, hu, hru, hbefore, hlast⟩ := hcase
        · simp only [ha] at hl
          cases hl
          refine ⟨hkept₂, hasked, .requestCut ?_⟩
          rintro (⟨hany, hnone⟩ | hfits)
          · exact hfirst hany hnone
          · omega
        · have hearlier : ∀ t < u, PollFound (w.daemon t) pid (fds.filter (isLvlip socks ·)) := by
            intro t ht
            by_cases htr : t < s.rounds
            · exact h.found t htr
            · exact (hbefore t (by omega) ht).congr hlvlip.symm
          obtain ⟨rfl, hnot⟩ | ⟨polled, rfl, hfoundu, hanswered, hpolled, hrest⟩ := hlast
          · simp only [ha] at hl
            cases hl
            exact ⟨hkept₂, hsame ▸ hasked, .notFound ⟨u, by omega, fun hf => hnot (hf.congr hlvlip)⟩⟩
          · have hall : ∀ t < s₂.rounds, PollFound (w.daemon t) pid (fds.filter (isLvlip socks ·)) := by
              intro t ht
              by_cases htu : t = u
              · rw [htu]
                exact hfoundu.congr hlvlip.symm
              · exact hearlier t (by omega)
            simp only [ha] at hl
            split at hl
            · cases hl
              refine ⟨hkept₂, hsame ▸ hasked, .returned _ (.inr hfits) hall fun ht => ⟨fun hany => ?_, fun _ => hanswered, ?_⟩⟩
              · obtain ⟨n, ready, hn, hready, hset⟩ := (hkernel ht).1 hany
                exact ⟨n, ready, hsame ▸ hn, hready, hrest ▸ hset⟩
              · rw [countP_events socks, hrest, ← hpolled, ← (hkernel ht).2]
            · exact ih ⟨hkept₂, hall, fun hne => ⟨hstarted (hsame ▸ hne), hfits⟩⟩ hl

end loop

/-- What a call has done when it returns. -/
theorem poll_ends {w : PollWorld} {pid : U32} {socks : List LvlipSock} {fds : List IpcPollfd} {timeout : Int} {fuel : Nat}
    {s : PollCall} {e : PollEnd} (h : poll w pid socks fds timeout fuel = some (s, e)) :
    PollKept socks fds s ∧ ((∃ p ∈ fds, !isLvlip socks p) → s.kernelAsked ≠ []) ∧ PollEnds w pid socks fds s e := by
  refine PollGoing.loop ⟨⟨rfl, fun _ hc => ?_, fun _ hc => ?_⟩, fun t ht => ?_, fun hne => absurd rfl hne⟩ h
  · cases hc
  · cases hc
  · exact absurd ht (Nat.not_lt_zero t)

/-- The daemon answers in time. -/
theorem pollWait_isSome (socks : Nat → Nat → List PollSock) (pid : U32) (fds : List IpcPollfd) (t : Nat) {timeout : Int}
    (h : 0 ≤ timeout) {fuel : Nat} (hfuel : timeout.toNat < fuel) : (pollWait socks pid fuel fds t timeout).isSome := by
  induction fuel generalizing fds t timeout with
  | zero => omega
  | succ fuel ih =>
    rw [pollWait]
    cases pollRound (socks t) pid 0 fds with
    | none => rfl
    | some x =>
      obtain ⟨fds', polled⟩ := x
      simp only
      split
      · rfl
      · have hpos : 0 < timeout := by omega
        rw [if_pos hpos]
        split
        · exact ih _ _ (by omega) (by omega)
        · exact ih _ _ (le_refl 0) (by omega)

/-- A call with a timeout returns. -/
theorem poll_isSome (w : PollWorld) (pid : U32) (socks : List LvlipSock) (fds : List IpcPollfd) {timeout : Int} (h : 0 ≤ timeout) :
    (poll w pid socks fds timeout (timeout.toNat + 2)).isSome := by
  have hone : ¬(timeout = -1) := by omega
  rw [poll, PollCall.loop]
  simp only [hone, and_false, if_false, decide_false, Bool.not_false, or_true, if_true]
  rcases PollCall.askKernel w socks { fds := fds } with ⟨s, _ | events⟩
  · rfl
  · simp only
    split
    · rfl
    · have hdaemon : (s.askDaemon w pid socks timeout (timeout.toNat + 1)).isSome := by
        rw [PollCall.askDaemon]
        split
        · rfl
        · obtain ⟨⟨t, answer⟩, hx⟩ := Option.isSome_iff_exists.mp
            (pollWait_isSome w.daemon pid (s.fds.filter (isLvlip socks ·)) s.rounds h (Nat.lt_succ_self timeout.toNat))
          rw [hx]
          cases answer <;> rfl
      obtain ⟨⟨s', e | polled⟩, hx⟩ := Option.isSome_iff_exists.mp hdaemon
      · rw [hx]
        rfl
      · rw [hx]
        rfl

theorem pollsRight_iff {w : PollWorld} {pid : U32} {socks : List LvlipSock} {fds : List IpcPollfd} {timeout : Int} {fuel : Nat}
    {s : PollCall} {e : PollEnd} (h : poll w pid socks fds timeout fuel = some (s, e)) :
    PollsRight w pid socks fds s e ↔ PollPlaced w pid socks fds s.rounds := by
  obtain ⟨hkept, hasked, hends⟩ := poll_ends h
  constructor
  · intro hr
    have htogether : Together (!isLvlip socks ·) fds := by
      by_cases hany : ∃ p ∈ fds, !isLvlip socks p
      · obtain ⟨c, hc⟩ := List.exists_mem_of_ne_nil _ (hasked hany)
        have hwants := (hkept.kernelAsked c hc).symm.trans (hr.kernelAsked c hc)
        refine Window.together_of_window fun x hx => ?_
        obtain ⟨y, hy, hxy⟩ := Window.exists_congr_map (isKernel_of_wants socks) hwants hx
        exact hxy ▸ (List.mem_filter.mp hy).2
      · refine ⟨fds, [], [], by simp, fun p hp => ?_, fun _ hx => (by cases hx), fun _ hx => (by cases hx)⟩
        cases hk : isLvlip socks p with
        | true => simp [hk]
        | false => exact absurd ⟨p, hp, by simp [hk]⟩ hany
    have hcount := hr.count
    cases hends with
    | kernelFailed hfits hfound => exact ⟨htogether, hfits, hfound⟩
    | requestCut hcut => exact absurd (hcount (by decide)) (by simp)
    | notFound hnot =>
      have hrc := PollEnd.returned.inj (hcount (by simp))
      omega
    | returned rc hfits hfound => exact ⟨htogether, hfits, hfound⟩
  · intro hp
    refine ⟨hkept.array, fun c hc => ?_, hkept.daemonAsked, fun hany => ⟨hasked hany, fun hne => ?_⟩, fun hany hne => ?_, fun hne => ?_⟩
    · rw [hkept.kernelAsked c hc, hp.together.window_eq]
    all_goals
      cases hends with
      | kernelFailed => exact absurd rfl hne
      | requestCut hcut => exact absurd hp.fits hcut
      | notFound hnot =>
        obtain ⟨t, ht, hf⟩ := hnot
        exact absurd (hp.found t ht) hf
      | returned rc _ _ hanswers => ?_
    · exact (hanswers hp.together).1 hany
    · exact (hanswers hp.together).2.1 hany
    · rw [(hanswers hp.together).2.2]

/-- A kernel where the descriptor 6 can be read and no other, and a daemon where
the process 77 can read from its socket 4098. -/
def pollExample : PollWorld where
  kernel := fun _ => some fun _ fd _ => if fd = 6 then 1 else 0
  daemon := fun _ _ => [{ pid := 77, fd := 4098, pollEvents := 1, unsigned := rfl }]

def pollExampleSocks : List LvlipSock := [{ lvlfd := 3, fd := 4098 }]

theorem polls_right_together :
    let fds : List IpcPollfd := [⟨5, 1, 0⟩, ⟨6, 1, 0⟩, ⟨4098, 1, 0⟩]
    ∃ s e, poll pollExample 77 pollExampleSocks fds 0 3 = some (s, e) ∧ PollsRight pollExample 77 pollExampleSocks fds s e := by
  let s : PollCall := ⟨[⟨5, 1, 0⟩, ⟨6, 1, 1⟩, ⟨4098, 1, 1⟩], [[⟨5, 1, 0⟩, ⟨6, 1, 0⟩]], [[⟨4098, 1, 0⟩]], 1⟩
  have hrun : poll pollExample 77 pollExampleSocks [⟨5, 1, 0⟩, ⟨6, 1, 0⟩, ⟨4098, 1, 0⟩] 0 3 = some (s, .returned 2) := by
    decide +kernel
  refine ⟨s, .returned 2, hrun, (pollsRight_iff hrun).mpr ⟨?_, .inr (by decide +kernel), fun t _ i p hp => ?_⟩⟩
  · exact ⟨[], [⟨5, 1, 0⟩, ⟨6, 1, 0⟩], [⟨4098, 1, 0⟩], rfl, by decide +kernel, by decide +kernel, by decide +kernel⟩
  · have hlvlip : ([⟨5, 1, 0⟩, ⟨6, 1, 0⟩, ⟨4098, 1, 0⟩] : List IpcPollfd).filter (isLvlip pollExampleSocks ·) = [⟨4098, 1, 0⟩] := by
      decide +kernel
    rw [hlvlip] at hp
    rw [List.mem_singleton.mp (List.mem_of_getElem? hp)]
    rfl

/-- Between two entries of the kernel the one of lvl-ip is handed to the kernel,
and the last is forgotten. -/
theorem interleaved_misasked :
    let fds : List IpcPollfd := [⟨5, 1, 0⟩, ⟨4098, 1, 0⟩, ⟨6, 1, 0⟩]
    ∃ s e, poll pollExample 77 pollExampleSocks fds 0 3 = some (s, e) ∧ ¬PollsRight pollExample 77 pollExampleSocks fds s e := by
  let s : PollCall := ⟨[⟨5, 1, 0⟩, ⟨4098, 1, 1⟩, ⟨6, 1, 0⟩], [[⟨5, 1, 0⟩, ⟨4098, 1, 0⟩]], [[⟨4098, 1, 0⟩]], 1⟩
  have hrun : poll pollExample 77 pollExampleSocks [⟨5, 1, 0⟩, ⟨4098, 1, 0⟩, ⟨6, 1, 0⟩] 0 3 = some (s, .returned 1) := by
    decide +kernel
  refine ⟨s, .returned 1, hrun, fun h => ?_⟩
  have hasked := h.kernelAsked [⟨5, 1, 0⟩, ⟨4098, 1, 0⟩] List.mem_cons_self
  revert hasked
  decide +kernel

end LevelIp
