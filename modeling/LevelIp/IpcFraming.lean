/-
What the daemon makes of the messages of a client. A read that returns one
message and no more, and for a long `write` its first part and then all the
rest, is answered by the call that was asked for.
-/
import LevelIp.Ipc

namespace LevelIp

open Bytes (le numAt)

/-! ## Reading fields back -/

section fields
variable {a rest : List U8} {off n : Nat}

theorem u32At_skip (h : a.length ≤ off) : u32At (a ++ rest) off = u32At rest (off - a.length) := by
  rw [u32At, Bytes.numAt_skip h, u32At]

theorem u32At_here (x : U32) (rest : List U8) : u32At (le 4 x.toNat ++ rest) 0 = x := Bytes.ofNat_numAt_here x rfl rest

theorem u16At_skip (h : a.length ≤ off) : u16At (a ++ rest) off = u16At rest (off - a.length) := by
  rw [u16At, Bytes.numAt_skip h, u16At]

theorem u16At_here (x : U16) (rest : List U8) : u16At (le 2 x.toNat ++ rest) 0 = x := Bytes.ofNat_numAt_here x rfl rest

theorem bytesAt_skip (h : a.length ≤ off) : bytesAt (a ++ rest) off n = bytesAt rest (off - a.length) n := by
  rw [bytesAt, Bytes.drop_skip h, bytesAt]

theorem bytesAt_here (h : a.length = n) : bytesAt (a ++ rest) 0 n = a := by
  rw [bytesAt, List.drop_zero, List.take_left' h]

/-- A number that fits its field. -/
theorem numAt_fits {w n : Nat} (h : n < 256 ^ w) (rest : List U8) : numAt (le w n ++ rest) 0 w = n := by
  rw [Bytes.numAt_here, Nat.mod_eq_of_lt h]

end fields

theorem length_saData (addr : List U8) : (saData addr).length = 28 := by
  unfold saData saCopyLen SA_DATA_LEN
  rw [List.length_append, List.length_take, List.length_replicate]
  split <;> omega

theorem bytesAt_saData (addr rest : List U8) :
    bytesAt (saData addr ++ rest) 0 (saCopyLen addr.length) = addr.take (saCopyLen addr.length) := by
  have hlen : (addr.take (saCopyLen addr.length)).length = saCopyLen addr.length := by
    rw [List.length_take, min_eq_left]
    unfold saCopyLen SA_DATA_LEN
    split <;> omega
  rw [saData, List.append_assoc, bytesAt_here hlen]

theorem length_pollfds (fds : List IpcPollfd) : (fds.map IpcPollfd.bytes).flatten.length = 8 * fds.length := by
  induction fds with
  | nil => rfl
  | cons p fds ih =>
    have hlen : p.bytes.length = 8 := by simp [IpcPollfd.bytes]
    rw [List.map_cons, List.flatten_cons, List.length_append, ih, hlen, List.length_cons]
    omega

/-- The descriptors of a `poll`, one after another. -/
theorem pollfds_back (fds : List IpcPollfd) (rest : List U8) :
    (List.range fds.length).map (fun i => pollfdAt ((fds.map IpcPollfd.bytes).flatten ++ rest) (8 * i)) = fds := by
  induction fds with
  | nil => rfl
  | cons p fds ih =>
    have hlen : p.bytes.length = 8 := by simp [IpcPollfd.bytes]
    have hfirst : ∀ tail, pollfdAt (p.bytes ++ tail) 0 = p := by
      intro tail
      simp [pollfdAt, IpcPollfd.bytes, u32At_here, u16At_here, u16At_skip]
    have hrest : ∀ (tail : List U8) i, pollfdAt (p.bytes ++ tail) (8 * (i + 1)) = pollfdAt tail (8 * i) := by
      intro tail i
      have h0 : 8 * (i + 1) - 8 = 8 * i := by omega
      have h4 : 8 * (i + 1) + 4 - 8 = 8 * i + 4 := by omega
      have h6 : 8 * (i + 1) + 6 - 8 = 8 * i + 6 := by omega
      rw [pollfdAt, u32At_skip (by omega), u16At_skip (by omega), u16At_skip (by omega), hlen, h0, h4, h6, pollfdAt]
    rw [List.length_cons, List.range_succ_eq_map, List.map_cons, List.map_map, List.map_cons, List.flatten_cons,
      List.append_assoc, Nat.mul_zero, hfirst]
    exact congrArg (p :: ·) ((List.map_congr_left fun i _ => hrest _ i).trans ih)

/-- A message begins with its type. -/
theorem message_type (c : IpcCall) (junk : List U8) : ∃ tail, c.message junk = le 2 c.type.code ++ tail := by
  cases c with
  | fcntl pid sockfd arg => cases arg <;> exact ⟨_, rfl⟩
  | _ => exact ⟨_, rfl⟩

theorem ofCode_bytes (ty : IpcType) (tail : List U8) : IpcType.ofCode (numAt (le 2 ty.code ++ tail) 0 2) = some ty := by
  have hcode : ty.code < 256 ^ 2 := by cases ty <;> decide
  rw [numAt_fits hcode, IpcType.ofCode_code]

theorem ofCode_message (c : IpcCall) (junk rest : List U8) :
    IpcType.ofCode (numAt (c.message junk ++ rest) 0 2) = some c.type := by
  obtain ⟨tail, htail⟩ := message_type c junk
  rw [htail, List.append_assoc, ofCode_bytes]

/-- The calls whose result `demux_ipc_socket_call` returns. -/
def IpcCall.returned (c : IpcCall) : Bool := c.type = .getsockopt || c.type = .getpeername || c.type = .getsockname

/-- The fields of a message have room for what they are to hold: `msglen` is an
`int`, counts are `unsigned int`, and the daemon has room for 28 bytes of an
address. -/
def IpcCall.Fits (c : IpcCall) (junk : List U8) : Prop :=
  (c.message junk).length < 2 ^ 31 ∧
    match c with
    | .read _ _ len | .recvfrom _ _ len _ _ => len < 2 ^ 32
    | .sendto _ _ _ _ addr => addr.length ≤ SA_DATA_LEN
    | _ => True

/-! ## Each message is read back by its handler -/

section handlers
variable (pid sockfd : U32) (junk rest : List U8)

theorem ipcSocket_message (domain type protocol : U32) :
    ipcSocket ((IpcCall.socket pid domain type protocol).message junk ++ rest) = .socket pid domain type protocol := by
  simp [IpcCall.message, ipcSocket, u32At_skip, u32At_here]

theorem ipcAddr_message (call : U32 → U32 → List U8 → IpcCall) (type : IpcType) (addr : List U8) :
    ipcAddr call (addrMessage type pid sockfd addr ++ rest) = call pid sockfd (addr.take (saCopyLen addr.length)) := by
  have hlen : saCopyLen addr.length < 256 ^ 4 := by
    unfold saCopyLen SA_DATA_LEN
    split <;> omega
  simp [ipcAddr, addrMessage, u32At_skip, u32At_here, bytesAt_skip, bytesAt_saData, Bytes.numAt_skip, length_saData,
    numAt_fits hlen]

theorem ipcListen_message (n : U32) :
    ipcListen ((IpcCall.listen pid sockfd n).message junk ++ rest) = .listen pid sockfd n := by
  simp [IpcCall.message, ipcListen, u32At_skip, u32At_here]

theorem numAt_len {len : Nat} (h : len < 2 ^ 32) : numAt (le 8 len ++ rest) 0 8 = len :=
  numAt_fits (lt_trans h (by decide)) rest

theorem ipcRead_message {len : Nat} (h : len < 2 ^ 32) :
    ipcRead ((IpcCall.read pid sockfd len).message junk ++ rest) = .read pid sockfd len := by
  have hc : countOf len = len := Nat.mod_eq_of_lt h
  simp [IpcCall.message, ipcRead, u32At_skip, u32At_here, Bytes.numAt_skip, numAt_len rest h, hc]

theorem ipcRecvfrom_message {len : Nat} (h : len < 2 ^ 32) (flags addrlen : U32) :
    ipcRecvfrom ((IpcCall.recvfrom pid sockfd len flags addrlen).message junk ++ rest) =
      .recvfrom pid sockfd len flags addrlen := by
  have hc : countOf len = len := Nat.mod_eq_of_lt h
  simp [IpcCall.message, ipcRecvfrom, u32At_skip, u32At_here, Bytes.numAt_skip, numAt_len _ h, hc, -List.reduceReplicate]

theorem ipcSendto_message {buf addr : List U8} (h : buf.length < 2 ^ 32) (ha : addr.length ≤ SA_DATA_LEN) (flags : U32) :
    ipcSendto ((IpcCall.sendto pid sockfd buf flags addr).message junk ++ rest) = .sendto pid sockfd buf flags addr := by
  have hc : countOf buf.length = buf.length := Nat.mod_eq_of_lt h
  have hn : saCopyLen addr.length = addr.length := by
    unfold saCopyLen
    split <;> omega
  have haddr : ∀ tail, bytesAt (saData addr ++ tail) 0 addr.length = addr := by
    intro tail
    have := bytesAt_saData addr tail
    rwa [hn, List.take_length] at this
  have ha4 : addr.length < 256 ^ 4 := lt_of_le_of_lt ha (by decide)
  have hbuf : ∀ tail, bytesAt (buf ++ tail) 0 buf.length = buf := fun _ => bytesAt_here rfl
  simp [IpcCall.message, ipcSendto, u32At_skip, u32At_here, bytesAt_skip, Bytes.numAt_skip, numAt_len _ h, hc,
    length_saData, numAt_fits ha4, haddr, hbuf]

theorem ipcClose_message : ipcClose ((IpcCall.close pid sockfd).message junk ++ rest) = .close pid sockfd := by
  simp [IpcCall.message, ipcClose, u32At_skip, u32At_here]

theorem ipcPoll_message {fds : List IpcPollfd} (h : fds.length < 2 ^ 32) (timeout : U32) :
    ipcPoll ((IpcCall.poll pid fds timeout).message junk ++ rest) = .poll pid fds timeout := by
  have hfd : ∀ (a tail : List U8) i, a.length = 18 → pollfdAt (a ++ tail) (18 + 8 * i) = pollfdAt tail (8 * i) := by
    intro a tail i ha
    have h0 : 18 + 8 * i - 18 = 8 * i := by omega
    have h4 : 18 + 8 * i + 4 - 18 = 8 * i + 4 := by omega
    have h6 : 18 + 8 * i + 6 - 18 = 8 * i + 6 := by omega
    rw [pollfdAt, u32At_skip (by omega), u16At_skip (by omega), u16At_skip (by omega), ha, h0, h4, h6, pollfdAt]
  have hfds : (List.range fds.length).map (fun i => pollfdAt ((IpcCall.poll pid fds timeout).message junk ++ rest) (18 + 8 * i)) =
      fds := by
    refine (List.map_congr_left fun i _ => ?_).trans (pollfds_back fds rest)
    have hsplit : (IpcCall.poll pid fds timeout).message junk ++ rest =
        (le 2 IpcType.poll.code ++ le 4 pid.toNat ++ le 8 fds.length ++ le 4 timeout.toNat) ++
          ((fds.map IpcPollfd.bytes).flatten ++ rest) := by
      simp [IpcCall.message]
    rw [hsplit, hfd _ _ _ (by simp)]
  have hlen : numAt ((IpcCall.poll pid fds timeout).message junk ++ rest) 6 8 = fds.length := by
    simp [IpcCall.message, Bytes.numAt_skip, numAt_len _ h]
  unfold ipcPoll
  rw [hlen, hfds]
  simp [IpcCall.message, u32At_skip, u32At_here]

theorem ipcFcntl_message (arg : Option U32) :
    ipcFcntl ((IpcCall.fcntl pid sockfd arg).message junk ++ rest) = some (.fcntl pid sockfd arg) := by
  have hget : ∀ tail, numAt (le 4 F_GETFL ++ tail) 0 4 = F_GETFL := numAt_fits (by decide)
  have hset : ∀ tail, numAt (le 4 F_SETFL ++ tail) 0 4 = F_SETFL := numAt_fits (by decide)
  have hne : F_SETFL ≠ F_GETFL := by decide
  cases arg with
  | none => simp [IpcCall.message, ipcFcntl, u32At_skip, u32At_here, Bytes.numAt_skip, hget, -List.takeD_succ]
  | some arg => simp [IpcCall.message, ipcFcntl, u32At_skip, u32At_here, Bytes.numAt_skip, hset, hne, -List.takeD_succ]

theorem ipcGetsockopt_message (fd level optname : U32) {optval : List U8} (h : optval.length < 2 ^ 32) :
    ipcGetsockopt ((IpcCall.getsockopt pid fd level optname optval).message junk ++ rest) =
      .getsockopt pid fd level optname optval := by
  have h4 : optval.length < 256 ^ 4 := h
  have hval : ∀ tail, bytesAt (optval ++ tail) 0 optval.length = optval := fun _ => bytesAt_here rfl
  simp [IpcCall.message, ipcGetsockopt, u32At_skip, u32At_here, bytesAt_skip, Bytes.numAt_skip, numAt_fits h4, hval]

theorem ipcGetpeername_message : ipcGetpeername ((IpcCall.getpeername pid sockfd).message junk ++ rest) = .getpeername pid sockfd := by
  simp [IpcCall.message, nameMessage, ipcGetpeername, u32At_skip, u32At_here, -List.takeD_succ]

theorem ipcGetsockname_message : ipcGetsockname ((IpcCall.getsockname pid sockfd).message junk ++ rest) = .getsockname pid sockfd := by
  simp [IpcCall.message, nameMessage, ipcGetsockname, u32At_skip, u32At_here, -List.takeD_succ]

end handlers

/-! ## Turns of the loop -/

/-- What the client wrote for one call. -/
structure IpcRequest where
  call : IpcCall
  junk : List U8 := []

namespace IpcRequest

def message (r : IpcRequest) : List U8 := r.call.message r.junk

/-- The kernel hands out the message in one piece, and of a `write` that is
longer than the buffer first what fits and then the rest in one piece. -/
def ReadWhole (r : IpcRequest) (t : IpcTurn) : Prop :=
  min t.first IPC_BUFLEN = min r.message.length IPC_BUFLEN ∧
    (r.message.length ≤ IPC_BUFLEN ∨ (r.call.type = .write ∧ r.message.length - IPC_BUFLEN ≤ t.second))

/-- The daemon hangs up after the call. -/
def HangsUp (r : IpcRequest) (t : IpcTurn) : Prop := r.call.returned ∧ t.rc = -1

end IpcRequest

namespace IpcThread

theorem demux_message {d : IpcThread} {c : IpcCall} {junk rest : List U8} (hm : d.mem = c.message junk ++ rest)
    (hf : c.Fits junk) (hw : c.type ≠ .write) (t : IpcTurn) :
    d.demuxIpcSocketCall t = (d.log c.asked, if c.returned then t.rc else 0) := by
  obtain ⟨hlen, hfit⟩ := hf
  unfold demuxIpcSocketCall
  rw [hm, ofCode_message]
  cases c with
  | write => exact absurd rfl hw
  | socket pid domain type protocol => exact congrArg (fun c => (d.log c, (0 : Int))) (ipcSocket_message ..)
  | connect pid sockfd addr => exact congrArg (fun c => (d.log c, (0 : Int))) (ipcAddr_message ..)
  | bind pid sockfd addr => exact congrArg (fun c => (d.log c, (0 : Int))) (ipcAddr_message ..)
  | accept pid sockfd addr => exact congrArg (fun c => (d.log c, (0 : Int))) (ipcAddr_message ..)
  | read pid sockfd len => exact congrArg (fun c => (d.log c, (0 : Int))) (ipcRead_message _ _ _ _ hfit)
  | recvfrom pid sockfd len flags addrlen =>
    exact congrArg (fun c => (d.log c, (0 : Int))) (ipcRecvfrom_message _ _ _ _ hfit _ _)
  | close pid sockfd => exact congrArg (fun c => (d.log c, (0 : Int))) (ipcClose_message ..)
  | listen pid sockfd n => exact congrArg (fun c => (d.log c, (0 : Int))) (ipcListen_message ..)
  | getpeername pid fd => exact congrArg (fun c => (d.log c, t.rc)) (ipcGetpeername_message ..)
  | getsockname pid fd => exact congrArg (fun c => (d.log c, t.rc)) (ipcGetsockname_message ..)
  | fcntl pid sockfd arg =>
    show ((ipcFcntl _).elim d d.log, (0 : Int)) = _
    rw [ipcFcntl_message]
    rfl
  | poll pid fds timeout =>
    have hfds : fds.length < 2 ^ 32 := by
      simp only [IpcCall.message, List.flatten_cons, List.flatten_nil, List.append_nil, List.length_append, Bytes.length_le,
        length_pollfds] at hlen
      omega
    exact congrArg (fun c => (d.log c, (0 : Int))) (ipcPoll_message _ _ _ hfds _)
  | getsockopt pid fd level optname optval =>
    have hval : optval.length < 2 ^ 32 := by
      simp [IpcCall.message] at hlen
      omega
    exact congrArg (fun c => (d.log c, t.rc)) (ipcGetsockopt_message _ _ _ _ _ _ hval)
  | sendto pid sockfd buf flags addr =>
    have hbuf : buf.length < 2 ^ 32 := by
      simp [IpcCall.message] at hlen
      omega
    exact congrArg (fun c => (d.log c, (0 : Int))) (ipcSendto_message _ _ _ _ hbuf hfit _)

theorem length_write (pid sockfd : U32) (buf junk : List U8) :
    ((IpcCall.write pid sockfd buf).message junk).length = 18 + buf.length := by
  simp [IpcCall.message]
  omega

/-- **A long `write` is answered too**, if its second read returns the rest. -/
theorem ipcWrite_message {d : IpcThread} {pid sockfd : U32} {buf junk rest after : List U8} {second : Nat}
    (hm : d.mem = ((IpcCall.write pid sockfd buf).message junk).take IPC_BUFLEN ++ rest)
    (hs : d.stream = ((IpcCall.write pid sockfd buf).message junk).drop IPC_BUFLEN ++ after)
    (hlen : ((IpcCall.write pid sockfd buf).message junk).length < 2 ^ 31)
    (hsecond : ((IpcCall.write pid sockfd buf).message junk).length - IPC_BUFLEN ≤ second) :
    d.ipcWrite second = ({ d with stream := after } : IpcThread).log (.write pid sockfd buf) := by
  have hmsg : (IpcCall.write pid sockfd buf).message junk =
      (le 2 IpcType.write.code ++ (le 4 pid.toNat ++ (le 4 sockfd.toNat ++ le 8 buf.length))) ++ buf := by
    simp [IpcCall.message]
  have hhdr : (le 2 IpcType.write.code ++ (le 4 pid.toNat ++ (le 4 sockfd.toNat ++ le 8 buf.length))).length = 18 := by simp
  rw [hmsg] at hm hs hlen hsecond
  rw [List.length_append, hhdr] at hlen hsecond
  rw [List.take_append, hhdr, List.take_of_length_le (by rw [hhdr]; decide)] at hm
  rw [Bytes.drop_skip (by rw [hhdr]; decide), hhdr] at hs
  have hbuf : buf.length < 2 ^ 32 := by omega
  have hc : countOf buf.length = buf.length := Nat.mod_eq_of_lt hbuf
  have hpid : u32At d.mem 2 = pid := by
    rw [hm]
    simp [u32At_skip, u32At_here]
  have hfd : u32At d.mem 6 = sockfd := by
    rw [hm]
    simp [u32At_skip, u32At_here]
  have hn : numAt d.mem 10 8 = buf.length := by
    rw [hm]
    simp [Bytes.numAt_skip, numAt_len _ hbuf]
  have hhead : IPC_BUFLEN - 18 = head := rfl
  rw [hhead] at hm hs
  unfold ipcWrite
  dsimp only
  rw [hn, hpid, hfd, hc]
  by_cases hlong : buf.length > head
  · -- the first read left `head` bytes of the payload in the buffer
    have hfirst : bytesAt d.mem 18 head = buf.take head := by
      rw [hm, List.append_assoc, bytesAt_skip (by rw [hhdr]), hhdr, Nat.sub_self, bytesAt_here]
      rw [List.length_take, min_eq_left hlong.le]
    have htail : ((BitVec.ofNat 32 (buf.length - head)).signExtend 64).toNat = buf.length - head := by
      have hpos : buf.length - head < 2 ^ 31 := by omega
      have hmsb : (BitVec.ofNat 32 (buf.length - head)).msb = false := by
        rw [BitVec.msb_eq_false_iff_two_mul_lt, BitVec.toNat_ofNat]
        omega
      rw [BitVec.signExtend_eq_setWidth_of_msb_false hmsb, BitVec.toNat_setWidth, BitVec.toNat_ofNat]
      omega
    have hres : d.stream.take (min second (buf.length - head)) = buf.drop head := by
      have hge : buf.length - head ≤ second := by
        have hhead' : IPC_BUFLEN = 18 + head := rfl
        omega
      rw [hs, min_eq_right hge, List.take_left' (List.length_drop ..)]
    rw [if_pos hlong, htail, hres, hfirst, List.take_append_drop, List.takeD_eq_take _ (le_refl _), List.take_length,
      List.take_length, hs, List.drop_left]
  · have hall : bytesAt d.mem 18 buf.length = buf := by
      rw [hm, List.append_assoc, bytesAt_skip (by rw [hhdr]), hhdr, Nat.sub_self, List.take_of_length_le (by omega),
        bytesAt_here rfl]
    have hrest : d.stream = after := by
      rw [hs, List.drop_eq_nil_of_le (by omega), List.nil_append]
    rw [if_neg hlong, hall, List.take_length, ← hrest]

theorem asked_write {c : IpcCall} (hw : c.type = .write) : ∃ pid sockfd buf, c = .write pid sockfd buf ∧ c.asked = c := by
  cases c with
  | write pid sockfd buf => exact ⟨pid, sockfd, buf, rfl, rfl⟩
  | _ => cases hw

/-- A turn that reads a message whole makes its call, and the daemon goes on
unless it hangs up. -/
theorem step_message {d : IpcThread} {r : IpcRequest} {t : IpcTurn} {after : List U8} (hrun : d.running = true)
    (hs : d.stream = r.message ++ after) (hf : r.call.Fits r.junk) (hread : r.ReadWhole t) :
    (d.step t).stream = after ∧ (d.step t).calls = d.calls ++ [r.call.asked] ∧ ((d.step t).running = true ↔ ¬ r.HangsUp t) := by
  obtain ⟨hfirst, hwhole⟩ := hread
  have hchunk : d.stream.take (min t.first IPC_BUFLEN) = r.message.take IPC_BUFLEN := by
    rw [hfirst, hs, min_comm, ← List.take_take, List.take_left]
  have hlen : (r.message.take IPC_BUFLEN).length = min IPC_BUFLEN r.message.length := List.length_take
  have hpos : 2 ≤ r.message.length := by
    obtain ⟨tail, htail⟩ := message_type r.call r.junk
    rw [IpcRequest.message, htail, List.length_append, Bytes.length_le]
    omega
  have hne : r.message.take IPC_BUFLEN ≠ [] := by
    intro h0
    rw [h0, List.length_nil] at hlen
    unfold IPC_BUFLEN at hlen
    omega
  have hleft : d.stream.drop (r.message.take IPC_BUFLEN).length = r.message.drop IPC_BUFLEN ++ after := by
    rw [hs, List.drop_append_of_le_length (by omega), hlen]
    rcases le_total IPC_BUFLEN r.message.length with h | h
    · rw [min_eq_left h]
    · rw [min_eq_right h, List.drop_length, List.drop_eq_nil_of_le h]
  unfold step
  dsimp only
  rw [hchunk, if_neg (by simp [hrun, hne]), hleft]
  generalize hb : ({ d with
    stream := r.message.drop IPC_BUFLEN ++ after
    mem := r.message.take IPC_BUFLEN ++ d.mem.drop (r.message.take IPC_BUFLEN).length } : IpcThread) = b
  have hdemux : b.demuxIpcSocketCall t =
      (({ b with stream := after } : IpcThread).log r.call.asked, if r.call.returned then t.rc else 0) := by
    by_cases hw : r.call.type = .write
    · obtain ⟨call, junk⟩ := r
      obtain ⟨pid, sockfd, buf, rfl, hasked⟩ := asked_write hw
      have hsecond : (IpcRequest.message ⟨.write pid sockfd buf, junk⟩).length - IPC_BUFLEN ≤ t.second := by
        rcases hwhole with h | h
        · omega
        · exact h.2
      have hcall : b.ipcWrite t.second = ({ b with stream := after } : IpcThread).log (.write pid sockfd buf) :=
        ipcWrite_message (by rw [← hb]; rfl) (by rw [← hb]; rfl) hf.1 hsecond
      have hcode : IpcType.ofCode (numAt b.mem 0 2) = some .write := by
        obtain ⟨tail, htail⟩ := message_type (.write pid sockfd buf) junk
        rw [← hb]
        show IpcType.ofCode (numAt (((IpcCall.write pid sockfd buf).message junk).take IPC_BUFLEN ++ _) 0 2) = _
        rw [htail, List.take_append, Bytes.length_le, List.take_of_length_le (by rw [Bytes.length_le]; decide),
          List.append_assoc, ofCode_bytes]
        rfl
      unfold demuxIpcSocketCall
      rw [hcode]
      exact congrArg (fun d => (d, (0 : Int))) hcall
    · have hshort : r.message.length ≤ IPC_BUFLEN := by
        rcases hwhole with h | h
        · exact h
        · exact absurd h.1 hw
      have hmem : b.mem = r.call.message r.junk ++ d.mem.drop r.message.length := by
        rw [← hb]
        show r.message.take IPC_BUFLEN ++ _ = r.message ++ _
        rw [List.take_of_length_le hshort]
      have hstream : ({ b with stream := after } : IpcThread) = b := by
        rw [← hb, List.drop_eq_nil_of_le hshort, List.nil_append]
      rw [hstream]
      exact demux_message hmem hf hw t
  rw [hdemux]
  subst hb
  refine ⟨rfl, rfl, ?_⟩
  unfold IpcRequest.HangsUp
  cases hret : r.call.returned <;> simp

end IpcThread

/-- The kernel hands out every message of the client whole, and the daemon
hangs up after the last one at the most. -/
def Framed : List IpcRequest → List IpcTurn → Prop
  | [], [] => True
  | r :: rs, t :: ts => r.call.Fits r.junk ∧ r.ReadWhole t ∧ (rs ≠ [] → ¬ r.HangsUp t) ∧ Framed rs ts
  | _, _ => False

theorem Framed.take {rs : List IpcRequest} {ts : List IpcTurn} (hf : Framed rs ts) (n : Nat) : Framed (rs.take n) (ts.take n) := by
  induction rs generalizing ts n with
  | nil =>
    cases ts with
    | nil => rw [List.take_nil, List.take_nil]; trivial
    | cons t ts => exact hf.elim
  | cons r rs ih =>
    cases ts with
    | nil => exact hf.elim
    | cons t ts =>
      obtain ⟨hfit, hread, hup, hrest⟩ := hf
      cases n with
      | zero => trivial
      | succ n =>
        refine ⟨hfit, hread, fun hne => hup ?_, ih hrest n⟩
        rintro rfl
        exact hne List.take_nil

namespace IpcThread

theorem run_framed {rs : List IpcRequest} {ts : List IpcTurn} (hf : Framed rs ts) {d : IpcThread} {after : List U8}
    (hrun : d.running = true) (hs : d.stream = (rs.map IpcRequest.message).flatten ++ after) :
    (d.run ts).stream = after ∧ (d.run ts).calls = d.calls ++ rs.map fun r => r.call.asked := by
  induction rs generalizing d ts with
  | nil =>
    cases ts with
    | nil => exact ⟨hs, (List.append_nil _).symm⟩
    | cons t ts => exact hf.elim
  | cons r rs ih =>
    cases ts with
    | nil => exact hf.elim
    | cons t ts =>
      obtain ⟨hfit, hread, hup, hrest⟩ := hf
      rw [List.map_cons, List.flatten_cons, List.append_assoc] at hs
      obtain ⟨h1, h2, h3⟩ := step_message hrun hs hfit hread
      rw [List.map_cons, IpcThread.run, Machine.run_cons]
      by_cases hlast : rs = []
      · subst hlast
        cases ts with
        | nil => exact ⟨h1, h2⟩
        | cons t' ts => exact hrest.elim
      · obtain ⟨h4, h5⟩ := ih hrest (h3.mpr (hup hlast)) h1
        refine ⟨h4, ?_⟩
        rw [h5, h2, List.append_assoc, List.singleton_append]

/-- **Framing.** Where the kernel hands out every message whole, the calls of
the daemon are those that the client asked for, in order and with every byte
of the buffers, at any time so far and in the end. -/
theorem calls_asked (rs : List IpcRequest) (ts : List IpcTurn) (mem : List U8) (hf : Framed rs ts) :
    (run { stream := (rs.map IpcRequest.message).flatten, mem := mem } ts).calls = rs.map (fun r => r.call.asked) ∧
      ∀ n, (run { stream := (rs.map IpcRequest.message).flatten, mem := mem } (ts.take n)).calls =
        (rs.take n).map fun r => r.call.asked := by
  constructor
  · exact (run_framed hf rfl (List.append_nil _).symm).2
  · intro n
    have hsplit : (rs.map IpcRequest.message).flatten =
        ((rs.take n).map IpcRequest.message).flatten ++ ((rs.drop n).map IpcRequest.message).flatten := by
      rw [← List.flatten_append, ← List.map_append, List.take_append_drop]
    exact (run_framed (hf.take n) rfl hsplit).2

/-- A `write` of 10000 bytes in two reads, and a `close`. -/
def longWrite : List IpcRequest := [{ call := .write 7 3 (List.replicate 10000 0x61) }, { call := .close 7 3 }]

theorem calls_asked_long : (run { stream := (longWrite.map IpcRequest.message).flatten, mem := [] }
    [{ first := 8192, second := 1826 }, { first := 10 }]).calls =
      [.write 7 3 (List.replicate 10000 0x61), .close 7 3] := by
  have hwrite : (IpcRequest.message { call := .write 7 3 (List.replicate 10000 0x61) }).length = 10018 := by
    rw [IpcRequest.message, length_write, List.length_replicate]
  refine (calls_asked longWrite [{ first := 8192, second := 1826 }, { first := 10 }] [] ?_).1
  refine ⟨⟨?_, trivial⟩, ⟨?_, .inr ⟨rfl, ?_⟩⟩, ?_, ⟨⟨?_, trivial⟩, ⟨?_, .inl ?_⟩, nofun, trivial⟩⟩
  · exact lt_of_eq_of_lt hwrite (by decide)
  · rw [hwrite]
    rfl
  · rw [hwrite]
    decide
  · exact fun _ hup => absurd hup.1 (by decide)
  · decide
  · rfl
  · decide

/-- Of a `write` that comes in two pieces the daemon makes one call with the
wrong bytes, and nothing of the second piece. -/
theorem split_write : ¬ ∀ (rs : List IpcRequest) (ts : List IpcTurn) (mem : List U8), IPC_BUFLEN ≤ mem.length →
    (∀ r ∈ rs, r.call.Fits r.junk) → (run { stream := (rs.map IpcRequest.message).flatten, mem := mem } ts).stream = [] →
      (run { stream := (rs.map IpcRequest.message).flatten, mem := mem } ts).calls = rs.map fun r => r.call.asked := by
  intro h
  have hfits : ∀ r ∈ [({ call := .write 7 3 [0x68, 0x65, 0x6c, 0x6c, 0x6f] } : IpcRequest)], r.call.Fits r.junk := by
    intro r hr
    rw [List.mem_singleton] at hr
    subst hr
    exact ⟨by decide, trivial⟩
  have hcalls := h _ [{ first := 20 }, { first := 3 }] (List.replicate 8192 0) (by decide +kernel) hfits (by decide +kernel)
  exact absurd hcalls (by decide +kernel)

theorem demux_unknown {d : IpcThread} (h : IpcType.ofCode (numAt d.mem 0 2) = none) (t : IpcTurn) :
    d.demuxIpcSocketCall t = (d, 0) := by
  unfold demuxIpcSocketCall
  rw [h]

/-- Where the kernel hands out byte after byte, none of the requests is met,
whatever they are. -/
theorem bytewise_silent (stream : List U8) (d : IpcThread) (b : U8) (rest : List U8) (hs : d.stream = stream)
    (hm : d.mem = b :: 0xff :: rest) (hrun : d.running = true) :
    (d.run (List.replicate stream.length { first := 1 })).calls = d.calls ∧
      (d.run (List.replicate stream.length { first := 1 })).stream = [] := by
  induction stream generalizing d b with
  | nil => exact ⟨rfl, hs⟩
  | cons x xs ih =>
    have htype : IpcType.ofCode (numAt (x :: 0xff :: rest) 0 2) = none := by
      refine List.find?_eq_none.mpr fun ty _ => ?_
      have hcode : ty.code ≤ 16 := by cases ty <;> decide
      have hnum : numAt (x :: 0xff :: rest) 0 2 = x.toNat + 256 * 255 := rfl
      rw [hnum, decide_eq_true_eq]
      omega
    have hstep : d.step { first := 1 } = { d with stream := xs, mem := x :: 0xff :: rest } := by
      have hchunk : d.stream.take (min 1 IPC_BUFLEN) = [x] := by
        rw [hs]
        rfl
      unfold step
      dsimp only
      rw [hchunk, if_neg (by simp [hrun]), hs, hm, demux_unknown htype]
      simp [hrun]
    rw [List.length_cons, List.replicate_succ, IpcThread.run, Machine.run_cons, hstep]
    exact ih { d with stream := xs, mem := x :: 0xff :: rest } x rfl rfl hrun

end IpcThread

end LevelIp
