/-
The reference count of one `struct socket`. Every call on the socket is a
sequence of `socket_wr_acquire` and `socket_release`, the longer ones where it
sleeps on the way; the calls of all threads interleave in any order the socket
lock admits.

`alloc_socket` starts the count at 1, and no function ever takes that one back.
-/
import LevelIp.Lib.Machine

namespace LevelIp

/-- `socket_wr_acquire` or `socket_rd_acquire`, which lock alike, and
`socket_release`. -/
inductive RefOp where
  | acquire
  | release
deriving DecidableEq

/-- The calls on a socket. `sleeps` is how often a call waits, the choice of
the other threads; a `connect` that does not block has none. `fails` is a
return code after which `_connect` frees the socket. `receive` is `tcp_in`,
`tcp_in_v6` or `udp_in`, `timer` a timer callback, `free` the `socket_free` of
the garbage collector, and `control` any of the calls that only look or set:
`_bind`, `_listen`, `_sendto`, `_fcntl`, `_getsockopt`, `_getpeername`,
`_getsockname`. -/
inductive SockCall where
  | create
  | connect (sleeps : Nat) (fails : Bool)
  | accept (sleeps : Nat)
  | read (sleeps : Nat)
  | write (sleeps : Nat)
  | recvfrom (sleeps : Nat)
  | close
  | control
  | poll (rounds : Nat)
  | receive
  | timer
  | free
deriving DecidableEq

/-- A wait loop: the lock is given back around each `wait_sleep`. -/
def waitLoop (sleeps : Nat) : List RefOp := (List.replicate sleeps [.release, .acquire]).flatten

/-- `socket_free`. -/
def socketFree : List RefOp := [.acquire, .release]

namespace SockCall

/-- What a call does to the count, in order. -/
def ops : SockCall → List RefOp
  | .connect sleeps fails =>
    -- `inet_stream_connect` acquires once more behind its wait loop
    [.acquire] ++ waitLoop sleeps ++ (if 0 < sleeps then [.acquire] else []) ++ [.release] ++
      if fails then socketFree else []
  | .accept sleeps | .read sleeps | .write sleeps | .recvfrom sleeps => [.acquire] ++ waitLoop sleeps ++ [.release]
  | .poll rounds => (List.replicate rounds [.acquire, .release]).flatten
  | .create | .close | .control | .receive | .timer => [.acquire, .release]
  | .free => socketFree

/-- The call frees the socket. -/
def frees : SockCall → Bool
  | .free => true
  | .connect _ fails => fails
  | _ => false

/-- The acquires a call leaves behind. -/
def leaves : SockCall → Nat
  | .connect sleeps _ => if 0 < sleeps then 1 else 0
  | _ => 0

end SockCall

/-- A call under way, on a thread of its own. -/
structure RefCall where
  thread : Nat
  call : SockCall
  todo : List RefOp
  acquired : Nat := 0
  released : Nat := 0
deriving DecidableEq

/-- A socket and the calls on it. `freed` counts the `free(sock)`; `owner` is
the thread that has the lock. -/
structure RefState where
  refcnt : Int := 1
  freed : Nat := 0
  owner : Option Nat := none
  running : List RefCall := []
  returned : List RefCall := []
  nextThread : Nat := 0
deriving DecidableEq

inductive RefEvent where
  | start (call : SockCall)
  /-- The `i`th running call goes on. -/
  | step (i : Nat)
deriving DecidableEq

namespace RefState

/-- `socket_wr_acquire` by a thread that gets the lock. -/
def acquire (s : RefState) (i : Nat) (c : RefCall) (todo : List RefOp) : RefState :=
  { s with
    refcnt := s.refcnt + 1, owner := some c.thread
    running := s.running.set i { c with todo := todo, acquired := c.acquired + 1 } }

/-- `socket_release`. -/
def release (s : RefState) (i : Nat) (c : RefCall) (todo : List RefOp) : RefState :=
  { s with
    refcnt := s.refcnt - 1, owner := none
    freed := if s.refcnt - 1 = 0 then s.freed + 1 else s.freed
    running := s.running.set i { c with todo := todo, released := c.released + 1 } }

/-- A call goes on by one operation, or returns. A thread that wants the lock
while another has it waits; one that has it already gets EDEADLK, which
`socket_wr_acquire` does not look at. -/
def advance (s : RefState) (i : Nat) (c : RefCall) : RefState :=
  match c.todo with
  | [] => { s with running := s.running.eraseIdx i, returned := s.returned ++ [c] }
  | .acquire :: todo => if s.owner = none ∨ s.owner = some c.thread then s.acquire i c todo else s
  | .release :: todo => s.release i c todo

def step (s : RefState) : RefEvent → RefState
  | .start call =>
    { s with
      running := s.running ++ [{ thread := s.nextThread, call := call, todo := call.ops }]
      nextThread := s.nextThread + 1 }
  | .step i =>
    match s.running[i]? with
    | none => s
    | some c => s.advance i c

abbrev run (s : RefState) (es : List RefEvent) : RefState := Machine.run step s es

/-- The sections a call has open. -/
def openOf (c : RefCall) : Nat := c.acquired - c.released

/-- The sections open at the moment. -/
def openSections (s : RefState) : Nat := (s.running.map openOf).sum

/-- A `socket_free` has returned. -/
def freeDone (s : RefState) : Bool := s.returned.any (·.call.frees)

/-- The references are counted right over the run: at every moment the count is
the allocation's reference, until a `socket_free` takes it back, and the open
sections; every call has released what it acquired; and with the
`socket_free` and all calls done the count is 0 and the socket was freed
once. -/
structure Counted (es : List RefEvent) : Prop where
  always : ∀ n, let s := run {} (es.take n)
    s.refcnt = (if s.freeDone then 0 else 1) + s.openSections
  balanced : ∀ c ∈ (run {} es).returned, c.acquired = c.released
  final : (run {} es).freeDone = true → (run {} es).running = [] →
    (run {} es).refcnt = 0 ∧ (run {} es).freed = 1

/-! ## The calls, one by one -/

/-- The sections open after the operations, from `h` open ones; none if they
release what is not held. -/
def closes : Nat → List RefOp → Option Nat
  | h, [] => some h
  | h, .acquire :: ops => closes (h + 1) ops
  | 0, .release :: _ => none
  | h + 1, .release :: ops => closes h ops

theorem closes_append (h : Nat) (a b : List RefOp) : closes h (a ++ b) = (closes h a).bind (closes · b) := by
  induction a generalizing h with
  | nil => rfl
  | cons o a ih =>
    cases o with
    | acquire => exact ih _
    | release =>
      cases h with
      | zero => rfl
      | succ h => exact ih _

theorem closes_waitLoop (h n : Nat) : closes (h + 1) (waitLoop n) = some (h + 1) := by
  induction n with
  | zero => rfl
  | succ n ih =>
    rw [waitLoop, List.replicate_succ, List.flatten_cons, closes_append]
    exact ih

theorem closes_poll (h n : Nat) : closes h (List.replicate n [RefOp.acquire, .release]).flatten = some h := by
  induction n with
  | zero => rfl
  | succ n ih =>
    rw [List.replicate_succ, List.flatten_cons, closes_append]
    exact ih

/-- A call opens a section before it closes one, and ends with none open, but
for a `connect` that has waited. -/
theorem closes_ops (c : SockCall) : closes 0 c.ops = some c.leaves := by
  have hsleep : ∀ n, closes 0 ([RefOp.acquire] ++ waitLoop n ++ [.release]) = some 0 := by
    intro n
    rw [closes_append, closes_append, show closes 0 [RefOp.acquire] = some (0 + 1) from rfl, Option.bind_some,
      closes_waitLoop]
    rfl
  cases c with
  | connect n fails =>
    have hfree : ∀ h, closes h (if fails then socketFree else []) = some h := by
      intro h
      cases fails <;> rfl
    show closes 0 ([RefOp.acquire] ++ waitLoop n ++ (if 0 < n then [RefOp.acquire] else []) ++ [RefOp.release] ++
      if fails then socketFree else []) = some (if 0 < n then 1 else 0)
    rw [closes_append, closes_append, closes_append, closes_append, show closes 0 [RefOp.acquire] = some (0 + 1) from rfl,
      Option.bind_some, closes_waitLoop, Option.bind_some]
    split
    · exact hfree 1
    · exact hfree 0
  | accept n => exact hsleep n
  | read n => exact hsleep n
  | write n => exact hsleep n
  | recvfrom n => exact hsleep n
  | poll n => exact closes_poll 0 n
  | _ => rfl

/-! ## The invariant -/

/-- The count is the allocation's reference, the open sections and what
`connect` has left behind; it never came down to 0. -/
structure Inv (s : RefState) : Prop where
  running : ∀ c ∈ s.running, c.released ≤ c.acquired ∧ closes (openOf c) c.todo = some c.call.leaves
  returned : ∀ c ∈ s.returned, c.released ≤ c.acquired ∧ openOf c = c.call.leaves
  count : s.refcnt = 1 + ((s.running.map openOf).sum + (s.returned.map openOf).sum : Nat)
  kept : s.freed = 0

theorem sum_map_set {α : Type} (f : α → Nat) {l : List α} {i : Nat} {a : α} (h : l[i]? = some a) (b : α) :
    ((l.set i b).map f).sum + f a = (l.map f).sum + f b := by
  induction l generalizing i with
  | nil => cases h
  | cons x l ih =>
    cases i with
    | zero =>
      obtain rfl := Option.some.inj h
      simp only [List.set_cons_zero, List.map_cons, List.sum_cons]
      omega
    | succ i =>
      have := ih (i := i) h
      simp only [List.set_cons_succ, List.map_cons, List.sum_cons]
      omega

theorem sum_map_eraseIdx {α : Type} (f : α → Nat) {l : List α} {i : Nat} {a : α} (h : l[i]? = some a) :
    ((l.eraseIdx i).map f).sum + f a = (l.map f).sum := by
  induction l generalizing i with
  | nil => cases h
  | cons x l ih =>
    cases i with
    | zero =>
      obtain rfl := Option.some.inj h
      simp only [List.eraseIdx_cons_zero, List.map_cons, List.sum_cons]
      omega
    | succ i =>
      have := ih (i := i) h
      simp only [List.eraseIdx_cons_succ, List.map_cons, List.sum_cons]
      omega

/-- A running call is replaced by one that has gone on. -/
theorem forall_set {α : Type} {p : α → Prop} {l : List α} {i : Nat} {b : α} (h : ∀ a ∈ l, p a) (hb : p b) :
    ∀ a ∈ l.set i b, p a := by
  intro a ha
  rcases List.mem_or_eq_of_mem_set ha with ha | rfl
  · exact h a ha
  · exact hb

theorem inv_init : Inv {} := ⟨nofun, nofun, rfl, rfl⟩

theorem Inv.acquire {s : RefState} {i : Nat} {c : RefCall} {todo : List RefOp} (hi : s.Inv)
    (hc : s.running[i]? = some c) (ht : c.todo = .acquire :: todo) : (s.acquire i c todo).Inv := by
  obtain ⟨hle, hcl⟩ := hi.running c (List.mem_of_getElem? hc)
  rw [ht] at hcl
  have hopen : openOf { c with todo := todo, acquired := c.acquired + 1 } = openOf c + 1 := by
    unfold openOf
    dsimp only
    omega
  have hsum := sum_map_set openOf hc { c with todo := todo, acquired := c.acquired + 1 }
  refine ⟨forall_set hi.running ⟨Nat.le_succ_of_le hle, ?_⟩, hi.returned, ?_, hi.kept⟩
  · rw [hopen]
    exact hcl
  · have := hi.count
    unfold RefState.acquire
    dsimp only
    omega

theorem Inv.release {s : RefState} {i : Nat} {c : RefCall} {todo : List RefOp} (hi : s.Inv)
    (hc : s.running[i]? = some c) (ht : c.todo = .release :: todo) : (s.release i c todo).Inv := by
  obtain ⟨hle, hcl⟩ := hi.running c (List.mem_of_getElem? hc)
  rw [ht] at hcl
  -- the call holds what it releases
  obtain ⟨k, hk⟩ : ∃ k, openOf c = k + 1 := by
    cases ho : openOf c with
    | zero => rw [ho] at hcl; cases hcl
    | succ k => exact ⟨k, rfl⟩
  rw [hk] at hcl
  have hopen : openOf { c with todo := todo, released := c.released + 1 } = k := by
    unfold openOf at hk ⊢
    dsimp only
    omega
  have hsum := sum_map_set openOf hc { c with todo := todo, released := c.released + 1 }
  have hcount := hi.count
  refine ⟨forall_set hi.running ⟨?_, ?_⟩, hi.returned, ?_, ?_⟩
  · unfold openOf at hk
    dsimp only
    omega
  · rw [hopen]
    exact hcl
  · unfold RefState.release
    dsimp only
    omega
  · unfold RefState.release
    dsimp only
    rw [if_neg (by omega), hi.kept]

theorem Inv.step {s : RefState} (hi : s.Inv) (e : RefEvent) : (s.step e).Inv := by
  cases e with
  | start call =>
    refine ⟨fun c hc => ?_, hi.returned, ?_, hi.kept⟩
    · rcases List.mem_append.1 hc with hc | hc
      · exact hi.running c hc
      · rw [List.mem_singleton.1 hc]
        exact ⟨le_refl _, closes_ops call⟩
    · have := hi.count
      simp only [RefState.step, List.map_append, List.sum_append, List.map_cons, List.map_nil, List.sum_cons, List.sum_nil,
        openOf]
      omega
  | step i =>
    show Inv (match s.running[i]? with | none => s | some c => s.advance i c)
    cases hc : s.running[i]? with
    | none => exact hi
    | some c =>
      show (s.advance i c).Inv
      unfold advance
      split
      · next ht =>
        obtain ⟨hle, hcl⟩ := hi.running c (List.mem_of_getElem? hc)
        rw [ht] at hcl
        have hsum := sum_map_eraseIdx openOf hc
        refine ⟨fun d hd => hi.running d (List.mem_of_mem_eraseIdx hd), fun d hd => ?_, ?_, hi.kept⟩
        · rcases List.mem_append.1 hd with hd | hd
          · exact hi.returned d hd
          · rw [List.mem_singleton.1 hd]
            exact ⟨hle, Option.some.inj hcl⟩
        · have := hi.count
          simp only [List.map_append, List.sum_append, List.map_cons, List.map_nil, List.sum_cons, List.sum_nil]
          omega
      · next todo ht =>
        split
        · exact hi.acquire hc ht
        · exact hi
      · next todo ht => exact hi.release hc ht

theorem run_inv (es : List RefEvent) : (run {} es).Inv := Machine.invariant (I := Inv) (fun _ e h => h.step e) es inv_init

/-- **The count of a socket**, at every moment of every run: the allocation's
reference, the open sections, and one for every `connect` that waited and
returned. The socket is never freed. -/
theorem refcnt_eq (es : List RefEvent) :
    (run {} es).refcnt =
        1 + (run {} es).openSections + ((run {} es).returned.map fun c => c.call.leaves).sum ∧
      (run {} es).freed = 0 := by
  have hi := run_inv es
  have hleft : (run {} es).returned.map openOf = (run {} es).returned.map fun c => c.call.leaves :=
    List.map_congr_left fun c hc => (hi.returned c hc).2
  refine ⟨?_, hi.kept⟩
  rw [hi.count, hleft, openSections]
  omega

/-- **The references are never counted right**: in no run in which a
`socket_free` has returned, and all other calls with it, is the socket freed,
or its count 0. -/
theorem refcount_never_drops (es : List RefEvent) (hf : (run {} es).freeDone = true) (hr : (run {} es).running = []) :
    ¬ Counted es ∧ 1 ≤ (run {} es).refcnt ∧ (run {} es).freed = 0 := by
  obtain ⟨hc, hk⟩ := refcnt_eq es
  refine ⟨fun h => ?_, by omega, hk⟩
  have := (h.final hf hr).2
  omega

/-- A call runs to its end. -/
def oneCall (c : SockCall) : List RefEvent := .start c :: List.replicate (c.ops.length + 1) (.step 0)

/-- A socket is created, read, closed and collected. -/
theorem collected_still_counted :
    ¬ Counted (oneCall .create ++ oneCall (.read 1) ++ oneCall .close ++ oneCall .free) ∧
      1 ≤ (run {} (oneCall .create ++ oneCall (.read 1) ++ oneCall .close ++ oneCall .free)).refcnt ∧
        (run {} (oneCall .create ++ oneCall (.read 1) ++ oneCall .close ++ oneCall .free)).freed = 0 :=
  refcount_never_drops _ (by decide) (by decide)

/-- A socket that is created and collected has a count of 1; one that was
connected in between, by a call that waited, has 2. -/
theorem collected_not_freed : ¬ Counted (oneCall .create ++ oneCall .free) ∧
    (run {} (oneCall .create ++ oneCall (.connect 1 false) ++ oneCall .free)).refcnt = 2 :=
  ⟨fun h => absurd (h.final (by decide) (by decide)).1 (by decide), by decide⟩

end RefState

end LevelIp
