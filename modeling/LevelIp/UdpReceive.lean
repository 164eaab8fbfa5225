/-
The receive queue of a UDP socket: `udp_data_queue`, `udp_data_dequeue`,
`udp_receive` and the reply of `ipc_recvfrom`.

`udp_data_dequeue` copies no more than the caller has room for, but returns the
length of the datagram; and `udp_receive` takes the 0 of an empty datagram for an
empty queue, when the datagram is gone already. Where neither happens, every
receive returns the datagram whose turn it is.
-/
import LevelIp.Sock
import LevelIp.Lib.Machine
import LevelIp.Lib.Memory

namespace LevelIp

abbrev U64 := BitVec 64

/-- A datagram on the receive queue, with what `udp_data_dequeue` reads of its
headers. The length in its UDP header has 16 bits and counts that header too. -/
structure Datagram where
  saddr : U32
  sport : U16
  payload : List U8
  fits : payload.length + 8 < 2 ^ 16

/-- `skb->dlen`. -/
def Datagram.dlen (d : Datagram) : U32 := BitVec.ofNat 32 d.payload.length

/-- A `recvfrom` that has come back: the `len` of its request, what
`udp_receive` returned and filled in, and what was copied to the buffer. -/
structure UdpRead where
  len : U64
  rlen : U32
  saddr : U32
  sport : U16
  copied : List U8

/-- The size of the user's buffer as `_recvfrom` and all below it know it. -/
def userLen (len : U64) : U32 := len.setWidth 32

/-- What `udp_data_dequeue` does with the datagram at the head of the queue. The
comparison is unsigned. -/
def udpDataDequeue (d : Datagram) (len : U64) : UdpRead :=
  let dlen := if userLen len < d.dlen then userLen len else d.dlen
  { len := len, rlen := d.dlen, saddr := d.saddr, sport := d.sport, copied := d.payload.take dlen.toNat }

/-- The bytes of the reply of `ipc_recvfrom`: from `rbuf`, which holds what was on
the stack where nothing was copied to it. -/
def ipcRecvfromReply (stack : Memory.Mem U8) (r : UdpRead) : List U8 :=
  Memory.read (Memory.write stack 0 r.copied) 0 (if 0 < r.rlen.toInt then r.rlen.toNat else 0)

/-- The receive side of a UDP socket. `waiting` are the calls asleep in
`udp_receive`, `done` those that came back, in order; `arrived` logs what was
queued. -/
structure UdpSock where
  queue : List Datagram := []
  waiting : List U64 := []
  done : List UdpRead := []
  arrived : List Datagram := []

/-- What happens to the socket; every event has its lock. A sleeping call may be
woken at any time. -/
inductive UdpEvent where
  | udpDataQueue (d : Datagram)
  | recvfrom (len : U64)
  | wakeup (i : Nat)

namespace UdpSock

/-- A turn of the loop of `udp_receive`. -/
def udpReceive (s : UdpSock) (len : U64) : UdpSock :=
  match s.queue with
  | [] => { s with waiting := s.waiting ++ [len] }
  | d :: queue =>
    let r := udpDataDequeue d len
    if 0 < r.rlen.toInt then { s with queue := queue, done := s.done ++ [r] }
    else { s with queue := queue, waiting := s.waiting ++ [len] }

def step (s : UdpSock) : UdpEvent → UdpSock
  | .udpDataQueue d => { s with queue := s.queue ++ [d], arrived := s.arrived ++ [d] }
  | .recvfrom len => s.udpReceive len
  | .wakeup i =>
    match s.waiting[i]? with
    | none => s
    | some len => { s with waiting := s.waiting.eraseIdx i }.udpReceive len

/-! ## The law -/

/-- The call returns the datagram: its source, as many of its bytes as there is
room for, a count within that room, and nothing but its bytes in the reply. -/
structure Returns (d : Datagram) (r : UdpRead) : Prop where
  saddr : r.saddr = d.saddr
  sport : r.sport = d.sport
  copied : r.copied = d.payload.take (min r.len.toNat d.payload.length)
  count : r.rlen.toNat ≤ r.len.toNat
  reply : ∀ stack, ipcRecvfromReply stack r = d.payload.take (min r.len.toNat d.payload.length)

/-- The calls that came back returned the datagrams in order, and all others are
still queued. -/
def InOrder (s : UdpSock) : Prop := ∃ taken, s.arrived = taken ++ s.queue ∧ List.Forall₂ Returns taken s.done

/-- The datagram is not empty, and the buffer has room for all of it. -/
def Suits (len : U64) (d : Datagram) : Prop := d.payload ≠ [] ∧ d.payload.length ≤ (userLen len).toNat

/-- A call that takes a datagram from the queue takes one that suits it. -/
def Suited (s : UdpSock) : UdpEvent → Prop
  | .udpDataQueue _ => True
  | .recvfrom len => ∀ d queue, s.queue = d :: queue → Suits len d
  | .wakeup i => ∀ len, s.waiting[i]? = some len → ∀ d queue, s.queue = d :: queue → Suits len d

theorem dlen_toNat (d : Datagram) : d.dlen.toNat = d.payload.length := by
  have hfits := d.fits
  rw [Datagram.dlen, BitVec.toNat_ofNat, Nat.mod_eq_of_lt (by omega)]

theorem dlen_pos (d : Datagram) : 0 < d.dlen.toInt ↔ d.payload ≠ [] := by
  have hfits := d.fits
  rw [BitVec.toInt_eq_toNat_of_lt (by rw [dlen_toNat]; omega), dlen_toNat, Nat.cast_pos, List.length_pos_iff]

theorem udpDataDequeue_copied (d : Datagram) (len : U64) :
    (udpDataDequeue d len).copied = d.payload.take (min (userLen len).toNat d.payload.length) := by
  have hd := dlen_toNat d
  unfold udpDataDequeue
  dsimp only
  split
  next hlt =>
    rw [BitVec.lt_def, hd] at hlt
    rw [min_eq_left (by omega)]
  next hle =>
    rw [BitVec.lt_def, hd] at hle
    rw [min_eq_right (by omega), hd]

theorem userLen_le (len : U64) : (userLen len).toNat ≤ len.toNat := by
  rw [userLen, BitVec.toNat_setWidth]
  exact Nat.mod_le _ _

/-- A datagram is returned exactly to the calls that it suits. -/
theorem returns_iff {d : Datagram} (hne : d.payload ≠ []) (len : U64) : Returns d (udpDataDequeue d len) ↔ Suits len d := by
  have hle := userLen_le len
  have hcount : (udpDataDequeue d len).rlen.toNat = d.payload.length := dlen_toNat d
  have hlen : (udpDataDequeue d len).len = len := rfl
  constructor
  · intro h
    refine ⟨hne, ?_⟩
    have hcopied := congrArg List.length (udpDataDequeue_copied d len)
    have hmax := h.count
    rw [h.copied, hlen, List.length_take, List.length_take] at hcopied
    rw [hcount, hlen] at hmax
    omega
  · rintro ⟨-, hsuit⟩
    have hall : min len.toNat d.payload.length = d.payload.length := min_eq_right (hsuit.trans hle)
    have hcopied : (udpDataDequeue d len).copied = d.payload := by
      rw [udpDataDequeue_copied, min_eq_right hsuit, List.take_length]
    refine ⟨rfl, rfl, ?_, ?_, fun stack => ?_⟩
    · rw [hlen, hall, hcopied, List.take_length]
    · rw [hcount, hlen]
      omega
    · have hpos : 0 < (udpDataDequeue d len).rlen.toInt := (dlen_pos d).mpr hne
      rw [ipcRecvfromReply, if_pos hpos, hcount, hlen, hall, hcopied, Memory.read_write, List.take_length]

/-- What is in order depends on the queue and the calls that came back. -/
theorem inOrder_next {s : UdpSock} {d : Datagram} {queue : List Datagram} {r : List UdpRead} (h : s.InOrder) (hq : s.queue = d :: queue)
    (waiting : List U64) : ({ s with queue := queue, done := s.done ++ r, waiting := waiting } : UdpSock).InOrder ↔
      List.Forall₂ Returns [d] r := by
  obtain ⟨taken, harr, hdone⟩ := h
  rw [hq, ← List.singleton_append, ← List.append_assoc] at harr
  constructor
  · rintro ⟨taken', harr', hdone'⟩
    have heq : taken ++ [d] = taken' := List.append_cancel_right (harr.symm.trans harr')
    rw [← heq] at hdone'
    have hlen := hdone.length_eq
    have hdrop := List.forall₂_drop taken.length hdone'
    rwa [List.drop_left, hlen, List.drop_left] at hdrop
  · intro hr
    exact ⟨taken ++ [d], harr, List.rel_append hdone hr⟩

theorem udpReceive_inOrder {s : UdpSock} (h : s.InOrder) (len : U64) :
    (s.udpReceive len).InOrder ↔ ∀ d queue, s.queue = d :: queue → Suits len d := by
  unfold udpReceive
  split
  next hq =>
    refine ⟨fun _ d queue hd => ?_, fun _ => h⟩
    rw [hq] at hd
    cases hd
  next d queue hq =>
    have hsuits : (∀ d' queue', s.queue = d' :: queue' → Suits len d') ↔ Suits len d := by
      constructor
      · exact fun hall => hall d queue hq
      · intro hd d' queue' heq
        rw [hq] at heq
        cases heq
        exact hd
    rw [hsuits]
    dsimp only
    split
    next hpos =>
      have hne : d.payload ≠ [] := (dlen_pos d).mp hpos
      rw [inOrder_next h hq, List.forall₂_cons, and_iff_left .nil]
      exact returns_iff hne len
    next hzero =>
      -- an empty datagram is gone, and no call has it
      have hnil : ¬ d.payload ≠ [] := fun hne => hzero ((dlen_pos d).mpr hne)
      have hlost := inOrder_next (r := []) h hq (s.waiting ++ [len])
      rw [List.append_nil] at hlost
      rw [hlost]
      exact ⟨nofun, fun hd => absurd hd.1 hnil⟩

theorem step_inOrder (s : UdpSock) (e : UdpEvent) (h : s.InOrder) : s.Suited e ↔ (s.step e).InOrder := by
  cases e with
  | udpDataQueue d =>
    obtain ⟨taken, harr, hdone⟩ := h
    refine ⟨fun _ => ⟨taken, ?_, hdone⟩, fun _ => trivial⟩
    show s.arrived ++ [d] = taken ++ (s.queue ++ [d])
    rw [harr, List.append_assoc]
  | recvfrom len => exact (udpReceive_inOrder h len).symm
  | wakeup i =>
    dsimp only [Suited, step]
    cases hw : s.waiting[i]? with
    | none => exact ⟨fun _ => h, fun _ _ hl => nomatch hl⟩
    | some len =>
      dsimp only
      rw [udpReceive_inOrder (s := { s with waiting := s.waiting.eraseIdx i }) h len]
      constructor
      · exact fun hall => hall len rfl
      · intro hall len' heq
        cases heq
        exact hall

/-- **The datagrams are returned in order** as long as every datagram suits the
call that takes it, and no longer. -/
theorem inOrder_iff (es : List UdpEvent) : Machine.Meets step Suited {} es ↔ ∀ n, (Machine.run step {} (es.take n)).InOrder :=
  Machine.Meets.exact_states (I := fun _ => True) (fun _ _ _ => trivial) (fun s e _ h => step_inOrder s e h) trivial
    ⟨[], rfl, .nil⟩ es

/-- A datagram of four bytes, and a call with room for two. -/
def cutShort : List UdpEvent :=
  [.udpDataQueue { saddr := 0x0a000005, sport := 4000, payload := [1, 2, 3, 4], fits := by decide }, .recvfrom 2]

/-- It returns four. -/
theorem cut_short_overruns : ¬ ∀ n, (Machine.run step {} (cutShort.take n)).InOrder := by
  intro h
  obtain ⟨taken, -, hdone⟩ := h 2
  have hread : (Machine.run step {} (cutShort.take 2)).done =
      [{ len := 2, rlen := 4, saddr := 0x0a000005, sport := 4000, copied := [1, 2] }] := rfl
  rw [hread] at hdone
  cases hdone with
  | cons hr _ => exact absurd hr.count (by decide)

end UdpSock

end LevelIp
