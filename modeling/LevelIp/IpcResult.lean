/-
How the result of a socket call comes back to the client: `struct ipc_err` of the
response, what the wrapper makes of it, and whether the session goes on. Most
handlers write -1 and the errno; `ipc_accept` writes the result twice, and three
handlers return it, for which `socket_ipc_open` takes -1 as its own failure.
-/
import LevelIp.Ipc

namespace LevelIp

open Bytes (numAt)

/-! ## The daemon -/

/-- `struct ipc_err`. -/
structure IpcErr where
  rc : Int
  err : Int
deriving DecidableEq

/-- A response, with the number behind `struct ipc_err` that a wrapper reads:
`len` of a read, `sockfd` of an accept. -/
structure IpcResponse where
  err : IpcErr
  value : Int := 0
deriving DecidableEq

/-- What a handler sends and what it returns. -/
structure IpcHandled where
  response : IpcResponse
  rc : Int

/-- The encoding in `ipc_write_rc`, `ipc_poll` and the three queries. -/
def encodeRc (rc : Int) : IpcErr := if rc < 0 then { rc := -1, err := -rc } else { rc := rc, err := 0 }

/-- The encoding in `ipc_read` and `ipc_recvfrom`. -/
def encodeRlen (rlen : Int) : IpcErr := { rc := if rlen < 0 then -1 else rlen, err := if rlen < 0 then -rlen else 0 }

/-- `ipc_write_rc`, with which most handlers end. -/
def ipcWriteRc (rc : Int) : IpcHandled := { response := { err := encodeRc rc }, rc := 0 }

/-- `ipc_read` and `ipc_recvfrom`. -/
def ipcReadReply (rlen : Int) : IpcHandled := { response := { err := encodeRlen rlen, value := rlen }, rc := 0 }

/-- `ipc_accept`. -/
def ipcAcceptReply (rc : Int) : IpcHandled := { response := { err := { rc := rc, err := rc }, value := rc }, rc := 0 }

/-- `ipc_poll`. -/
def ipcPollReply (rc : Int) : IpcHandled := { response := { err := encodeRc rc }, rc := 0 }

/-- `ipc_getsockopt`, `ipc_getpeername` and `ipc_getsockname`. -/
def ipcQueryReply (rc : Int) : IpcHandled := { response := { err := encodeRc rc }, rc := rc }

/-- `demux_ipc_socket_call`, once the call has returned `rc`; there is no handler
for `IPC_SETSOCKOPT`. -/
def IpcType.reply (rc : Int) : IpcType → Option IpcHandled
  | socket | connect | write | close | fcntl | bind | sendto | listen => some (ipcWriteRc rc)
  | read | recvfrom => some (ipcReadReply rc)
  | poll => some (ipcPollReply rc)
  | getsockopt | getpeername | getsockname => some (ipcQueryReply rc)
  | accept => some (ipcAcceptReply rc)
  | setsockopt => none

/-- What the handlers return is what `demux_ipc_socket_call` returns of them. -/
theorem demux_reply {d : IpcThread} {ty : IpcType} (h : IpcType.ofCode (numAt d.mem 0 2) = some ty) (t : IpcTurn) :
    (d.demuxIpcSocketCall t).2 = ((ty.reply t.rc).map (·.rc)).getD 0 := by
  unfold IpcThread.demuxIpcSocketCall
  rw [h]
  cases ty <;> rfl

/-! ## The client -/

/-- What a wrapper returns, and `errno` after it. -/
structure ClientCall where
  rc : Int
  errno : Int
deriving DecidableEq

/-- `transmit_lvlip`. -/
def transmitLvlip (response : IpcResponse) (errno : Int) : ClientCall :=
  { rc := response.err.rc, errno := if response.err.rc = -1 then response.err.err else errno }

/-- `accept`. -/
def acceptClient (response : IpcResponse) (errno : Int) : ClientCall :=
  if response.err.rc < 0 then { rc := response.err.rc, errno := response.err.err } else { rc := response.value, errno := errno }

/-- `read` and `recvfrom`, into a buffer of `len` bytes. -/
def readClient (len : Nat) (response : IpcResponse) (errno : Int) : ClientCall :=
  if response.err.rc < 0 then { rc := response.err.rc, errno := response.err.err }
  else if len < response.value then { rc := -1, errno := errno }
  else { rc := response.value, errno := errno }

/-- `poll`, on descriptors of lvl-ip only. -/
def pollClient (response : IpcResponse) (errno : Int) : ClientCall :=
  if response.err.rc < 0 then { rc := response.err.rc, errno := response.err.err } else { rc := response.err.rc, errno := errno }

/-- `getsockopt`, `getpeername` and `getsockname`. -/
def queryClient (response : IpcResponse) (errno : Int) : ClientCall :=
  if response.err.rc ≠ 0 then { rc := response.err.rc, errno := response.err.err } else { rc := 0, errno := errno }

/-- A request: its type, for a read the length that is asked for, and the result
of the socket call. -/
structure IpcAsk where
  type : IpcType
  len : Nat := 0
  result : Int
deriving DecidableEq

/-- The wrapper of the request. -/
def IpcAsk.client (q : IpcAsk) (response : IpcResponse) (errno : Int) : ClientCall :=
  match q.type with
  | .accept => acceptClient response errno
  | .read | .recvfrom => readClient q.len response errno
  | .poll => pollClient response errno
  | .getsockopt | .getpeername | .getsockname => queryClient response errno
  | _ => transmitLvlip response errno

/-! ## A session -/

/-- The loop of `socket_ipc_open`: what is answered, and whether the session is
still open. -/
def ipcSession : List IpcAsk → List (IpcAsk × IpcResponse) × Bool
  | [] => ([], true)
  | q :: qs =>
    match q.type.reply q.result with
    | none => ipcSession qs
    | some handled =>
      if handled.rc = -1 then ([(q, handled.response)], false)
      else ((q, handled.response) :: (ipcSession qs).1, (ipcSession qs).2)

/-- A request has its answer: the result or an errno, and the wrapper hands it on. -/
structure IpcAsk.Answered (q : IpcAsk) (response : IpcResponse) : Prop where
  encoded : response.err = if q.result < 0 then { rc := -1, err := -q.result } else { rc := q.result, err := 0 }
  client : ∀ errno, if q.result < 0 then q.client response errno = { rc := -1, errno := -q.result }
    else (q.client response errno).rc = q.result

/-- Every request of a session is answered, and the session goes on. -/
structure SessionUniform (qs : List IpcAsk) : Prop where
  alive : (ipcSession qs).2 = true
  all : (ipcSession qs).1.map Prod.fst = qs.filter (·.type ≠ .setsockopt)
  answered : ∀ x ∈ (ipcSession qs).1, x.1.Answered x.2

/-- **When a request is**: an accept has the result 0; a query does not fail with
-1; a read returns no more than was asked for. -/
def IpcAsk.Encodes (q : IpcAsk) : Prop :=
  match q.type with
  | .accept => q.result = 0
  | .getsockopt | .getpeername | .getsockname => q.result ≠ -1
  | .read | .recvfrom => q.result ≤ q.len
  | _ => True

/-! ## One request -/

theorem encodeRlen_eq (rlen : Int) : encodeRlen rlen = encodeRc rlen := by
  unfold encodeRlen encodeRc
  split <;> rfl

theorem transmitLvlip_encodeRc (r errno : Int) (value : Int) :
    if r < 0 then transmitLvlip { err := encodeRc r, value := value } errno = { rc := -1, errno := -r }
    else (transmitLvlip { err := encodeRc r, value := value } errno).rc = r := by
  unfold transmitLvlip encodeRc
  split
  next h => rfl
  next h => rfl

theorem pollClient_encodeRc (r errno : Int) :
    if r < 0 then pollClient { err := encodeRc r } errno = { rc := -1, errno := -r }
    else (pollClient { err := encodeRc r } errno).rc = r := by
  unfold pollClient encodeRc
  split
  next h => rfl
  next h => rfl

theorem queryClient_encodeRc (r errno : Int) :
    if r < 0 then queryClient { err := encodeRc r } errno = { rc := -1, errno := -r }
    else (queryClient { err := encodeRc r } errno).rc = r := by
  unfold queryClient encodeRc
  split
  next h => rfl
  next h =>
    by_cases hr : r = 0
    · rw [if_neg (not_not.mpr hr), hr]
    · rw [if_pos hr]

theorem readClient_encodeRc (len : Nat) (r : Int) :
    (∀ errno, if r < 0 then readClient len { err := encodeRc r, value := r } errno = { rc := -1, errno := -r }
      else (readClient len { err := encodeRc r, value := r } errno).rc = r) ↔ r ≤ len := by
  unfold readClient encodeRc
  by_cases h : r < 0
  · simp only [if_pos h]
    exact iff_of_true (fun _ => rfl) (by omega)
  · simp only [if_neg h]
    by_cases hlen : (len : Int) < r
    · simp only [if_pos hlen]
      refine iff_of_false (fun hall => ?_) (by omega)
      have hr := hall 0
      omega
    · simp only [if_neg hlen]
      exact iff_of_true (fun _ => trivial) (by omega)

/-- What becomes of one request. -/
theorem IpcAsk.answered_iff {q : IpcAsk} {handled : IpcHandled} (h : q.type.reply q.result = some handled) :
    q.Answered handled.response ∧ handled.rc ≠ -1 ↔ q.Encodes := by
  obtain ⟨ty, len, r⟩ := q
  have hzero : (0 : Int) ≠ -1 := by decide
  have hright : encodeRc r = if r < 0 then { rc := -1, err := -r } else { rc := r, err := 0 } := rfl
  cases ty <;> cases h
  case socket | connect | write | close | fcntl | bind | sendto | listen =>
    exact iff_of_true ⟨⟨hright, fun errno => transmitLvlip_encodeRc r errno 0⟩, hzero⟩ trivial
  case poll => exact iff_of_true ⟨⟨hright, pollClient_encodeRc r⟩, hzero⟩ trivial
  case getsockopt | getpeername | getsockname =>
    exact ⟨fun ha => ha.2, fun hr => ⟨⟨hright, queryClient_encodeRc r⟩, hr⟩⟩
  case read | recvfrom =>
    have hiff := readClient_encodeRc len r
    refine ⟨fun ha => hiff.mp fun errno => ?_, fun hr => ⟨⟨(encodeRlen_eq r).trans hright, fun errno => ?_⟩, hzero⟩⟩
    · rw [← encodeRlen_eq]
      exact ha.1.client errno
    · have hc := hiff.mpr hr errno
      rw [← encodeRlen_eq] at hc
      exact hc
  case accept =>
    refine ⟨fun ha => ?_, fun (hr : r = 0) => ?_⟩
    · have hresp : ({ rc := r, err := r } : IpcErr) = if r < 0 then { rc := -1, err := -r } else { rc := r, err := 0 } :=
        ha.1.encoded
      split at hresp
      next hneg =>
        obtain ⟨h1, h2⟩ := IpcErr.mk.inj hresp
        omega
      next hpos => exact (IpcErr.mk.inj hresp).2
    · subst hr
      exact ⟨⟨rfl, fun _ => rfl⟩, hzero⟩

/-! ## All of them -/

theorem IpcType.reply_eq_none {ty : IpcType} {rc : Int} : ty.reply rc = none ↔ ty = .setsockopt := by
  cases ty <;> simp [IpcType.reply]

theorem sessionUniform_nil : SessionUniform [] := ⟨rfl, rfl, fun _ h => absurd h List.not_mem_nil⟩

/-- One request more at the front. -/
theorem sessionUniform_cons (q : IpcAsk) (qs : List IpcAsk) : SessionUniform (q :: qs) ↔ q.Encodes ∧ SessionUniform qs := by
  cases hq : q.type.reply q.result with
  | none =>
    have hty := IpcType.reply_eq_none.mp hq
    have hsame : ipcSession (q :: qs) = ipcSession qs := by rw [ipcSession, hq]
    have hfilter : (q :: qs).filter (·.type ≠ .setsockopt) = qs.filter (·.type ≠ .setsockopt) := by simp [hty]
    have henc : q.Encodes := by
      unfold IpcAsk.Encodes
      rw [hty]
      trivial
    refine ⟨fun h => ⟨henc, ?_⟩, fun h => ?_⟩
    · exact ⟨hsame ▸ h.alive, hfilter ▸ hsame ▸ h.all, hsame ▸ h.answered⟩
    · exact ⟨hsame ▸ h.2.alive, by rw [hsame, hfilter]; exact h.2.all, hsame ▸ h.2.answered⟩
  | some handled =>
    have hty : q.type ≠ .setsockopt := fun he => by
      rw [IpcType.reply_eq_none.mpr he] at hq
      cases hq
    have hfilter : (q :: qs).filter (·.type ≠ .setsockopt) = q :: qs.filter (·.type ≠ .setsockopt) := by simp [hty]
    rw [← q.answered_iff hq]
    by_cases hrc : handled.rc = -1
    · have hend : ipcSession (q :: qs) = ([(q, handled.response)], false) := by rw [ipcSession, hq]; exact if_pos hrc
      refine iff_of_false (fun h => ?_) fun h => h.1.2 hrc
      have halive := h.alive
      rw [hend] at halive
      cases halive
    · have hgo : ipcSession (q :: qs) = ((q, handled.response) :: (ipcSession qs).1, (ipcSession qs).2) := by
        rw [ipcSession, hq]
        exact if_neg hrc
      refine ⟨fun h => ⟨⟨h.answered _ (by rw [hgo]; exact List.mem_cons_self), hrc⟩, ?_⟩, fun h => ?_⟩
      · obtain ⟨halive, hall, hans⟩ := h
        rw [hgo] at halive hall hans
        rw [hfilter, List.map_cons] at hall
        exact ⟨halive, (List.cons.inj hall).2, fun x hx => hans x (List.mem_cons_of_mem _ hx)⟩
      · obtain ⟨⟨hq1, -⟩, halive, hall, hans⟩ := h
        refine ⟨by rw [hgo]; exact halive, by rw [hgo, hfilter, List.map_cons, hall], ?_⟩
        rw [hgo]
        intro x hx
        obtain rfl | hx := List.mem_cons.mp hx
        · exact hq1
        · exact hans x hx

theorem sessionUniform_iff (qs : List IpcAsk) : SessionUniform qs ↔ ∀ q ∈ qs, q.Encodes := by
  induction qs with
  | nil => exact iff_of_true sessionUniform_nil fun _ h => absurd h List.not_mem_nil
  | cons q qs ih => rw [sessionUniform_cons, ih, List.forall_mem_cons]

/-- A failed accept comes back as its negative errno, twice. -/
theorem accept_misencoded : ¬SessionUniform [{ type := .accept, result := -9 }] := by
  intro h
  have hans := (h.answered ({ type := .accept, result := -9 }, { err := { rc := -9, err := -9 }, value := -9 }) (by decide)).encoded
  revert hans
  decide

end LevelIp
