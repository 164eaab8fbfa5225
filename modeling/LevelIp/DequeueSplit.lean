/-
`tcp_data_dequeue` as it computes: `dlen` of an skb is an `uint32_t`, `rlen` and
`userlen` are `int`s, and the guard that keeps the copy within the user's buffer
adds and compares them unsigned. A segment whose data offset lies behind its end
has a `dlen` just below `2 ^ 32`; once enough has been copied the guard's sum wraps,
and the copy is given a negative length.
-/
import LevelIp.Lib.Loop
import LevelIp.Lib.Memory
import LevelIp.TcpData

namespace LevelIp

/-- What the loop uses of an skb: its `dlen` and `payload`, and the PSH flag of its
header. -/
structure QueuedSkb where
  dlen : U32
  payload : Int
  psh : Bool := false
deriving DecidableEq

/-- The socket's side of the loop, and its locals. `userBuf` is what has been copied
so far, `freed` the skbs that were dropped, as they were then. `fault` is a
`memcpy` of a negative length. -/
structure Dequeue where
  receiveQueue : List QueuedSkb
  realRcvWnd : U32 := 0
  flagPsh : Bool := false
  flagFin : Bool := false
  pollEvents : U16 := 0
  rlen : Nat := 0
  userBuf : List U8 := []
  freed : List QueuedSkb := []
  fault : Bool := false
deriving DecidableEq

/-- `dlen`: `(rlen + skb->dlen) > userlen ? (userlen - rlen) : skb->dlen`. -/
def copyDlen (userlen rlen : Nat) (dlen : U32) : Int :=
  if BitVec.ofNat 32 userlen < BitVec.ofNat 32 rlen + dlen then userlen - rlen else dlen.toInt

namespace Dequeue

variable (mem : Memory.Mem U8) (userlen : Nat)

/-- The loop's condition; after a fault nothing goes on. -/
def Going (d : Dequeue) : Prop := d.fault = false ∧ d.receiveQueue ≠ [] ∧ d.rlen < userlen

instance : DecidablePred (Going userlen) := fun d => inferInstanceAs (Decidable (d.fault = false ∧ d.receiveQueue ≠ [] ∧ d.rlen < userlen))

/-- A turn of the loop. -/
def turn (d : Dequeue) : Dequeue :=
  match d.receiveQueue with
  | [] => d
  | skb :: rest =>
    let dlen := copyDlen userlen d.rlen skb.dlen
    if dlen < 0 then { d with fault := true }
    else
      let skb' : QueuedSkb := { skb with dlen := skb.dlen - BitVec.ofInt 32 dlen, payload := skb.payload + dlen }
      let d := { d with
        rlen := d.rlen + dlen.toNat
        userBuf := d.userBuf ++ Memory.read mem skb.payload dlen.toNat
        -- `increase_recv_win`
        realRcvWnd := d.realRcvWnd + BitVec.ofInt 32 dlen }
      if skb'.dlen = (0 : U32) then { d with receiveQueue := rest, flagPsh := d.flagPsh || skb.psh, freed := d.freed ++ [skb'] }
      else { d with receiveQueue := skb' :: rest }

/-- The loop; it makes no more turns than there are skbs (`loop_ends`). -/
def loop (d : Dequeue) : Dequeue := Loop.run (Going userlen) (turn mem userlen) d.receiveQueue.length d

end Dequeue

/-- `tcp_data_dequeue` on a socket that `d` describes; the count it returns is
`rlen`. -/
def tcpDataDequeueAt (mem : Memory.Mem U8) (userlen : Nat) (d : Dequeue) : Option Dequeue :=
  let d := Dequeue.loop mem userlen { d with rlen := 0, userBuf := [], freed := [], fault := false }
  if d.fault then none
  else if d.receiveQueue.isEmpty && !d.flagFin then some { d with pollEvents := d.pollEvents &&& ~~~POLLIN }
  else some d

/-! ## What is asked -/

namespace QueuedSkb

/-- The payload of an skb, and of a queue. -/
def bytes (mem : Memory.Mem U8) (skb : QueuedSkb) : List U8 := Memory.read mem skb.payload skb.dlen.toNat

/-- `k` bytes of the payload are consumed. -/
def advance (skb : QueuedSkb) (k : Nat) : QueuedSkb := { skb with dlen := skb.dlen - BitVec.ofNat 32 k, payload := skb.payload + k }

/-- All of it is. -/
def eaten (skb : QueuedSkb) : QueuedSkb := skb.advance skb.dlen.toNat

end QueuedSkb

def queuedBytes (mem : Memory.Mem U8) (q : List QueuedSkb) : List U8 := q.flatMap (QueuedSkb.bytes mem)

/-- How many bytes a queue has. -/
def queuedLen (q : List QueuedSkb) : Nat := (q.map fun skb => skb.dlen.toNat).sum

/-- `left` is what is left of the queue `q` when the skbs `freed` have been dropped:
these are its first ones, wholly consumed, and of the next one not more than a
part is. -/
def SplitOff (q freed left : List QueuedSkb) : Prop :=
  ∃ gone rest, q = gone ++ rest ∧ freed = gone.map QueuedSkb.eaten ∧
    (left = rest ∨ ∃ skb more k, rest = skb :: more ∧ k < skb.dlen.toNat ∧ left = skb.advance k :: more)

/-- **The call splits the stream**: it comes back, what it copied and what is left
are the payload there was, and its count says how much was copied and how much
the window grew. -/
def SplitsStream (mem : Memory.Mem U8) (userlen : Nat) (d : Dequeue) : Prop :=
  ∃ d', tcpDataDequeueAt mem userlen d = some d' ∧
    d'.userBuf ++ queuedBytes mem d'.receiveQueue = queuedBytes mem d.receiveQueue ∧
    d'.rlen = min userlen (queuedBytes mem d.receiveQueue).length ∧
    d'.userBuf.length = d'.rlen ∧
    d'.realRcvWnd = d.realRcvWnd + BitVec.ofNat 32 d'.rlen ∧
    SplitOff d.receiveQueue d'.freed d'.receiveQueue

/-- No skb that is reached before the buffer is full wraps the guard's sum. -/
def GuardHolds (userlen : Nat) : (rlen : Nat) → List QueuedSkb → Prop
  | _, [] => True
  | rlen, skb :: rest => rlen < userlen → rlen + skb.dlen.toNat < 2 ^ 32 ∧ GuardHolds userlen (rlen + skb.dlen.toNat) rest

instance decidableGuardHolds (userlen : Nat) : (rlen : Nat) → (q : List QueuedSkb) → Decidable (GuardHolds userlen rlen q)
  | _, [] => .isTrue trivial
  | rlen, skb :: rest =>
    have := decidableGuardHolds userlen (rlen + skb.dlen.toNat) rest
    inferInstanceAs (Decidable (rlen < userlen → rlen + skb.dlen.toNat < 2 ^ 32 ∧ GuardHolds userlen (rlen + skb.dlen.toNat) rest))

/-! ## A turn -/

section guard
variable {userlen rlen : Nat} {dlen : U32}

/-- The guard's sum, which wraps at `2 ^ 32`. -/
theorem guard_iff (hu : userlen < 2 ^ 31) (hr : rlen < userlen) :
    BitVec.ofNat 32 userlen < BitVec.ofNat 32 rlen + dlen ↔ userlen < rlen + dlen.toNat ∧ rlen + dlen.toNat < 2 ^ 32 := by
  have hlt := dlen.isLt
  rw [BitVec.lt_def, BitVec.toNat_add, BitVec.toNat_ofNat, BitVec.toNat_ofNat]
  omega

/-- While it does not wrap, the copy is as long as the buffer and the skb allow. -/
theorem copyDlen_eq (hu : userlen < 2 ^ 31) (hr : rlen < userlen) (h : rlen + dlen.toNat < 2 ^ 32) :
    copyDlen userlen rlen dlen = (min (userlen - rlen) dlen.toNat : Nat) := by
  by_cases hg : userlen < rlen + dlen.toNat
  · rw [copyDlen, if_pos ((guard_iff hu hr).mpr ⟨hg, h⟩)]
    omega
  · rw [copyDlen, if_neg (mt (guard_iff hu hr).mp fun hn => hg hn.1), BitVec.toInt_eq_toNat_of_lt (by omega)]
    omega

/-- A sum that wraps is small, and the `dlen` that is taken is negative. -/
theorem copyDlen_neg (hu : userlen < 2 ^ 31) (hr : rlen < userlen) (h : 2 ^ 32 ≤ rlen + dlen.toNat) : copyDlen userlen rlen dlen < 0 := by
  have hlt := dlen.isLt
  have hg : ¬ BitVec.ofNat 32 userlen < BitVec.ofNat 32 rlen + dlen := mt (guard_iff hu hr).mp fun hn => by omega
  rw [copyDlen, if_neg hg, BitVec.toInt_eq_toNat_cond, if_neg (by omega)]
  omega

end guard

namespace Dequeue

section turns
variable {mem : Memory.Mem U8} {userlen : Nat} {d : Dequeue} {skb : QueuedSkb} {rest : List QueuedSkb}

/-- The copy is not possible. -/
theorem turn_fault (hq : d.receiveQueue = skb :: rest) (hneg : copyDlen userlen d.rlen skb.dlen < 0) :
    turn mem userlen d = { d with fault := true } := by
  unfold turn
  rw [hq]
  dsimp only
  rw [if_pos hneg]

/-- A turn that copies `k` bytes. -/
theorem turn_copy {k : Nat} (hq : d.receiveQueue = skb :: rest) (hk : copyDlen userlen d.rlen skb.dlen = (k : Int)) :
    turn mem userlen d =
      let d := { d with
        rlen := d.rlen + k
        userBuf := d.userBuf ++ Memory.read mem skb.payload k
        realRcvWnd := d.realRcvWnd + BitVec.ofNat 32 k }
      if (skb.advance k).dlen = 0 then
        { d with receiveQueue := rest, flagPsh := d.flagPsh || skb.psh, freed := d.freed ++ [skb.advance k] }
      else { d with receiveQueue := skb.advance k :: rest } := by
  unfold turn
  rw [hq]
  dsimp only
  rw [hk, if_neg (by omega), BitVec.ofInt_natCast, Int.toNat_natCast]
  rfl

/-- The whole skb is eaten and dropped. -/
theorem turn_eat (hu : userlen < 2 ^ 31) (hq : d.receiveQueue = skb :: rest) (hr : d.rlen < userlen)
    (hfit : d.rlen + skb.dlen.toNat ≤ userlen) : turn mem userlen d =
      { d with
        receiveQueue := rest
        rlen := d.rlen + skb.dlen.toNat
        userBuf := d.userBuf ++ skb.bytes mem
        realRcvWnd := d.realRcvWnd + BitVec.ofNat 32 skb.dlen.toNat
        flagPsh := d.flagPsh || skb.psh
        freed := d.freed ++ [skb.eaten] } := by
  have hk : copyDlen userlen d.rlen skb.dlen = (skb.dlen.toNat : Int) := by
    rw [copyDlen_eq hu hr (by omega), min_eq_right (by omega)]
  have hzero : (skb.advance skb.dlen.toNat).dlen = 0 := by
    show skb.dlen - BitVec.ofNat 32 skb.dlen.toNat = 0
    rw [BitVec.ofNat_toNat, BitVec.setWidth_eq, BitVec.sub_self]
    rfl
  rw [turn_copy hq hk]
  dsimp only
  rw [if_pos hzero]
  rfl

/-- The buffer is filled from an skb that has more. -/
theorem turn_fill (hu : userlen < 2 ^ 31) (hq : d.receiveQueue = skb :: rest) (hr : d.rlen < userlen)
    (hmore : userlen < d.rlen + skb.dlen.toNat) (hwrap : d.rlen + skb.dlen.toNat < 2 ^ 32) : turn mem userlen d =
      { d with
        receiveQueue := skb.advance (userlen - d.rlen) :: rest
        rlen := userlen
        userBuf := d.userBuf ++ Memory.read mem skb.payload (userlen - d.rlen)
        realRcvWnd := d.realRcvWnd + BitVec.ofNat 32 (userlen - d.rlen) } := by
  have hk : copyDlen userlen d.rlen skb.dlen = ((userlen - d.rlen : Nat) : Int) := by
    rw [copyDlen_eq hu hr hwrap, min_eq_left (by omega)]
  have hleft : (skb.advance (userlen - d.rlen)).dlen ≠ 0 := by
    intro hz
    have hz := congrArg BitVec.toNat hz
    change (skb.dlen - BitVec.ofNat 32 (userlen - d.rlen)).toNat = 0 at hz
    rw [BitVec.toNat_sub, BitVec.toNat_ofNat] at hz
    omega
  have hfull : d.rlen + (userlen - d.rlen) = userlen := by omega
  rw [turn_copy hq hk]
  dsimp only
  rw [if_neg hleft, hfull]

/-- A turn after which the loop goes on has dropped an skb: one with something left
fills the buffer. -/
theorem length_turn_lt (hgo : Going userlen d) (hnext : Going userlen (turn mem userlen d)) :
    (turn mem userlen d).receiveQueue.length < d.receiveQueue.length := by
  obtain ⟨skb, rest, hq⟩ := List.exists_cons_of_ne_nil hgo.2.1
  have hr := hgo.2.2
  by_cases hneg : copyDlen userlen d.rlen skb.dlen < 0
  · rw [turn_fault hq hneg] at hnext
    exact Bool.noConfusion hnext.1
  · obtain ⟨k, hk⟩ := Int.eq_ofNat_of_zero_le (not_lt.mp hneg)
    rw [turn_copy hq hk] at hnext ⊢
    dsimp only at hnext ⊢
    by_cases hz : (skb.advance k).dlen = 0
    · rw [if_pos hz, hq, List.length_cons]
      exact Nat.lt_succ_self _
    · rw [if_neg hz] at hnext
      have hlt : d.rlen + k < userlen := hnext.2.2
      have hall : skb.dlen.toInt = k := by
        rw [copyDlen] at hk
        split at hk <;> omega
      refine absurd ?_ hz
      show skb.dlen - BitVec.ofNat 32 k = 0
      rw [← BitVec.ofInt_natCast, ← hall, BitVec.ofInt_toInt, BitVec.sub_self]
      rfl

end turns

/-- **The loop ends**, after no more turns than there are skbs. -/
theorem loop_ends (mem : Memory.Mem U8) (userlen : Nat) (d : Dequeue) :
    ∃ n ≤ d.receiveQueue.length, Loop.EndsAfter (Going userlen) (turn mem userlen) n d :=
  Loop.exists_endsAfter (fun _ hgo => List.length_pos_of_ne_nil hgo.2.1) (fun _ => length_turn_lt) d

/-- `loop` is where it ends. -/
theorem not_going_loop (mem : Memory.Mem U8) (userlen : Nat) (d : Dequeue) : ¬ Going userlen (loop mem userlen d) := by
  obtain ⟨n, hn, hends⟩ := loop_ends mem userlen d
  rw [loop, hends.run_eq hn]
  exact hends.stops

/-! ## The loop -/

/-- `d'` has gone on from `d` along the stream. -/
structure Splits (mem : Memory.Mem U8) (userlen : Nat) (d d' : Dequeue) : Prop where
  fault : d'.fault = false
  bytes : d'.userBuf ++ queuedBytes mem d'.receiveQueue = d.userBuf ++ queuedBytes mem d.receiveQueue
  rlen : d'.rlen = min userlen (d.rlen + queuedLen d.receiveQueue)
  copied : d'.userBuf.length + d.rlen = d.userBuf.length + d'.rlen
  window : d'.realRcvWnd = d.realRcvWnd + BitVec.ofNat 32 (d'.rlen - d.rlen)
  freed : ∃ freed, d'.freed = d.freed ++ freed ∧ SplitOff d.receiveQueue freed d'.receiveQueue

section runs
variable {mem : Memory.Mem U8} {userlen : Nat} {d d' : Dequeue} {skb : QueuedSkb} {q rest : List QueuedSkb} {fuel : Nat}

theorem length_queuedBytes (mem : Memory.Mem U8) (q : List QueuedSkb) : (queuedBytes mem q).length = queuedLen q := by
  rw [queuedBytes, List.length_flatMap, queuedLen]
  exact congrArg List.sum (List.map_congr_left fun skb _ => Memory.length_read _ _ _)

theorem queuedLen_cons (skb : QueuedSkb) (rest : List QueuedSkb) : queuedLen (skb :: rest) = skb.dlen.toNat + queuedLen rest := List.sum_cons

/-- Nothing is done. -/
theorem Splits.refl (hf : d.fault = false) (h : d.receiveQueue = [] ∧ d.rlen ≤ userlen ∨ d.rlen = userlen) : Splits mem userlen d d := by
  have hlen : d.rlen = min userlen (d.rlen + queuedLen d.receiveQueue) := by
    rcases h with ⟨hq, hle⟩ | heq
    · rw [hq]
      exact (min_eq_right hle).symm
    · rw [min_eq_left (by omega), heq]
  have hzero : BitVec.ofNat 32 0 = 0 := rfl
  refine ⟨hf, rfl, hlen, rfl, ?_, [], (List.append_nil _).symm, [], d.receiveQueue, rfl, rfl, .inl rfl⟩
  rw [Nat.sub_self]
  exact (BitVec.add_zero _).symm

/-- The first skb is eaten, and the rest is as it is. -/
theorem Splits.eat (hq : d.receiveQueue = skb :: rest) (hfit : d.rlen + skb.dlen.toNat ≤ userlen)
    (h : Splits mem userlen
      { d with
        receiveQueue := rest
        rlen := d.rlen + skb.dlen.toNat
        userBuf := d.userBuf ++ skb.bytes mem
        realRcvWnd := d.realRcvWnd + BitVec.ofNat 32 skb.dlen.toNat
        flagPsh := d.flagPsh || skb.psh
        freed := d.freed ++ [skb.eaten] } d') : Splits mem userlen d d' := by
  obtain ⟨hf, hbytes, hlen, hcopied, hwnd, freed, hfreed, gone, rest', hrest, hgone, hleft⟩ := h
  dsimp only at hbytes hlen hcopied hwnd hfreed hrest hgone hleft
  have hskb : (skb.bytes mem).length = skb.dlen.toNat := Memory.length_read _ _ _
  have hcons := queuedLen_cons skb rest
  refine ⟨hf, ?_, ?_, ?_, ?_, skb.eaten :: freed, ?_, skb :: gone, rest', ?_, ?_, hleft⟩
  · rw [hbytes, hq, List.append_assoc]
    rfl
  · rw [hlen, hq, hcons, Nat.add_assoc]
  · rw [List.length_append, hskb] at hcopied
    omega
  · have hsum : d'.rlen - d.rlen = skb.dlen.toNat + (d'.rlen - (d.rlen + skb.dlen.toNat)) := by omega
    rw [hwnd, hsum, BitVec.ofNat_add, BitVec.add_assoc]
  · rw [hfreed, List.append_assoc]
    rfl
  · rw [hq, hrest]
    rfl
  · rw [hgone]
    rfl

/-- The buffer is filled from the first skb. -/
theorem Splits.fill (hf : d.fault = false) (hq : d.receiveQueue = skb :: rest) (hr : d.rlen < userlen)
    (hmore : userlen < d.rlen + skb.dlen.toNat) : Splits mem userlen d
      { d with
        receiveQueue := skb.advance (userlen - d.rlen) :: rest
        rlen := userlen
        userBuf := d.userBuf ++ Memory.read mem skb.payload (userlen - d.rlen)
        realRcvWnd := d.realRcvWnd + BitVec.ofNat 32 (userlen - d.rlen) } := by
  have hlt := skb.dlen.isLt
  have hk : (skb.dlen - BitVec.ofNat 32 (userlen - d.rlen)).toNat = skb.dlen.toNat - (userlen - d.rlen) := by
    rw [BitVec.toNat_sub, BitVec.toNat_ofNat]
    omega
  have hcons := queuedLen_cons skb rest
  refine ⟨hf, ?_, ?_, ?_, rfl, [], (List.append_nil _).symm, [], skb :: rest, hq, rfl,
    .inr ⟨skb, rest, userlen - d.rlen, rfl, by omega, rfl⟩⟩
  · have hsplit : Memory.read mem skb.payload (userlen - d.rlen) ++ (skb.advance (userlen - d.rlen)).bytes mem = skb.bytes mem := by
      have hadd := Memory.read_add mem skb.payload (userlen - d.rlen) (skb.dlen.toNat - (userlen - d.rlen))
      rw [Nat.add_sub_cancel' (by omega)] at hadd
      rw [QueuedSkb.bytes, QueuedSkb.bytes, hadd, ← hk]
      rfl
    have hflat : ∀ s : QueuedSkb, queuedBytes mem (s :: rest) = s.bytes mem ++ queuedBytes mem rest := fun _ => rfl
    dsimp only
    rw [hq, hflat, hflat, List.append_assoc, ← List.append_assoc (Memory.read _ _ _), hsplit]
  · rw [hq, hcons, min_eq_left (by omega)]
  · dsimp only
    rw [List.length_append, Memory.length_read]
    omega

/-- **The loop splits the stream** if the guard holds all along. -/
theorem run_splits (hu : userlen < 2 ^ 31) (hf : d.fault = false) (hq : d.receiveQueue = q) (hr : d.rlen ≤ userlen)
    (hg : GuardHolds userlen d.rlen q) (hfuel : q.length ≤ fuel) :
    Splits mem userlen d (Loop.run (Going userlen) (turn mem userlen) fuel d) := by
  induction q generalizing d fuel with
  | nil =>
    rw [Loop.run_of_not fun hgo => hgo.2.1 hq]
    exact .refl hf (.inl ⟨hq, hr⟩)
  | cons skb rest ih =>
    obtain ⟨fuel, rfl⟩ : ∃ f, fuel = f + 1 := ⟨fuel - 1, by rw [List.length_cons] at hfuel; omega⟩
    rw [List.length_cons] at hfuel
    by_cases hlt : d.rlen < userlen
    · obtain ⟨hwrap, hrest⟩ := hg hlt
      rw [Loop.run, if_pos ⟨hf, by rw [hq]; exact List.cons_ne_nil _ _, hlt⟩]
      by_cases hfit : d.rlen + skb.dlen.toNat ≤ userlen
      · rw [turn_eat hu hq hlt hfit]
        exact .eat hq hfit (ih hf rfl hfit hrest (by omega))
      · rw [turn_fill hu hq hlt (by omega) hwrap, Loop.run_of_not fun hgo => Nat.lt_irrefl _ hgo.2.2]
        exact .fill hf hq hlt (by omega)
    · rw [Loop.run_of_not fun hgo => hlt hgo.2.2]
      exact .refl hf (.inr (by omega))

/-- **The loop faults** where it does not. -/
theorem run_faults (hu : userlen < 2 ^ 31) (hf : d.fault = false) (hq : d.receiveQueue = q) (hg : ¬ GuardHolds userlen d.rlen q)
    (hfuel : q.length ≤ fuel) : (Loop.run (Going userlen) (turn mem userlen) fuel d).fault = true := by
  induction q generalizing d fuel with
  | nil => exact absurd trivial hg
  | cons skb rest ih =>
    obtain ⟨fuel, rfl⟩ : ∃ f, fuel = f + 1 := ⟨fuel - 1, by rw [List.length_cons] at hfuel; omega⟩
    rw [List.length_cons] at hfuel
    obtain ⟨hlt, hrest⟩ := Classical.not_imp.mp hg
    rw [Loop.run, if_pos ⟨hf, by rw [hq]; exact List.cons_ne_nil _ _, hlt⟩]
    by_cases hwrap : d.rlen + skb.dlen.toNat < 2 ^ 32
    · by_cases hfit : d.rlen + skb.dlen.toNat ≤ userlen
      · rw [turn_eat hu hq hlt hfit]
        exact ih hf rfl (fun h => hrest ⟨hwrap, h⟩) (by omega)
      · -- the buffer is full, so that no further skb is reached
        refine absurd ⟨hwrap, ?_⟩ hrest
        cases rest with
        | nil => trivial
        | cons skb' more => exact fun h => absurd h (by omega)
    · rw [turn_fault hq (copyDlen_neg hu hlt (by omega)), Loop.run_of_not fun hgo => Bool.noConfusion hgo.1]

end runs

end Dequeue

/-- `tcp_data_dequeue` splits the stream exactly if the guard's sum never wraps. -/
theorem splitsStream_iff (mem : Memory.Mem U8) {userlen : Nat} (hu : userlen < 2 ^ 31) (d : Dequeue) :
    SplitsStream mem userlen d ↔ GuardHolds userlen 0 d.receiveQueue := by
  generalize hd₀ : ({ d with rlen := 0, userBuf := [], freed := [], fault := false } : Dequeue) = d₀
  have hq : d₀.receiveQueue = d.receiveQueue := by rw [← hd₀]
  have hr : d₀.rlen = 0 := by rw [← hd₀]
  have hf : d₀.fault = false := by rw [← hd₀]
  by_cases hg : GuardHolds userlen 0 d.receiveQueue
  · refine iff_of_true ?_ hg
    have hs : Dequeue.Splits mem userlen d₀ (Dequeue.loop mem userlen d₀) :=
      Dequeue.run_splits hu hf hq (by omega) (by rwa [hr]) (by rw [hq])
    obtain ⟨hfault, hbytes, hlen, hcopied, hwnd, freed, hfreed, hoff⟩ := hs
    generalize hd₁ : Dequeue.loop mem userlen d₀ = d₁ at *
    have hbuf : d₀.userBuf = [] := by rw [← hd₀]
    have hfr : d₀.freed = [] := by rw [← hd₀]
    have hw : d₀.realRcvWnd = d.realRcvWnd := by rw [← hd₀]
    rw [hbuf, hq, List.nil_append] at hbytes
    rw [hr, hq, Nat.zero_add, ← Dequeue.length_queuedBytes mem] at hlen
    rw [hr, hbuf, List.length_nil, Nat.zero_add, Nat.add_zero] at hcopied
    rw [hr, hw, Nat.sub_zero] at hwnd
    rw [hfr, List.nil_append] at hfreed
    rw [hq, ← hfreed] at hoff
    unfold SplitsStream tcpDataDequeueAt
    dsimp only
    rw [hd₀, hd₁, hfault, if_neg Bool.false_ne_true]
    split
    · exact ⟨_, rfl, hbytes, hlen, hcopied, hwnd, hoff⟩
    · exact ⟨_, rfl, hbytes, hlen, hcopied, hwnd, hoff⟩
  · refine iff_of_false ?_ hg
    rintro ⟨d', hd', -⟩
    have hfault : (Dequeue.loop mem userlen d₀).fault = true := Dequeue.run_faults hu hf hq (by rwa [hr]) (by rw [hq])
    unfold tcpDataDequeueAt at hd'
    dsimp only at hd'
    rw [hd₀, hfault, if_pos rfl] at hd'
    cases hd'

/-- A queue with an empty skb and one that is partly taken. -/
theorem splitsStream_small :
    SplitsStream (fun i => BitVec.ofInt 8 i) 5 { receiveQueue := [{ dlen := 3, payload := 66 }, { dlen := 0, payload := 90 }, { dlen := 4, payload := 120 }] } :=
  (splitsStream_iff (fun i => BitVec.ofInt 8 i) (by decide) _).mpr (by decide)

/-- Behind 40 bytes of data lies a segment of 20 bytes with a data offset of 15, whose
`dlen` is `20 - 60`: the guard's sum is 0, and the length given to `memcpy` is
`-40`. -/
theorem negative_dlen_faults :
    ¬ SplitsStream (fun _ => 0) 100 { receiveQueue := [{ dlen := 40, payload := 66 }, { dlen := BitVec.ofInt 32 (20 - 60), payload := 120 }] } := by
  have hfault : tcpDataDequeueAt (fun _ => 0) 100
      { receiveQueue := [{ dlen := 40, payload := 66 }, { dlen := BitVec.ofInt 32 (20 - 60), payload := 120 }] } = none := by
    decide +kernel
  rintro ⟨d', hd', -⟩
  rw [hfault] at hd'
  cases hd'

/-! ## The socket's loop -/

/-- The skb `s` of a socket is laid out at `skb`. -/
structure QueuedSkb.Lays (mem : Memory.Mem U8) (skb : QueuedSkb) (s : Skb) : Prop where
  dlen : skb.dlen = s.dlen
  bytes : skb.bytes mem = s.payload.bytes
  psh : skb.psh = s.psh

namespace QueuedSkb.Lays

variable {mem : Memory.Mem U8} {skb : QueuedSkb} {s : Skb}

theorem toNat_dlen (h : skb.Lays mem s) : skb.dlen.toNat = s.payload.bytes.length := by
  rw [← h.bytes, QueuedSkb.bytes, Memory.length_read]

/-- The first bytes of the payload, and what is laid out behind them. -/
theorem take (h : skb.Lays mem s) {k : Nat} (hk : k ≤ skb.dlen.toNat) : Memory.read mem skb.payload k = s.payload.bytes.take k := by
  have hadd := Memory.read_add mem skb.payload k (skb.dlen.toNat - k)
  rw [Nat.add_sub_cancel' hk] at hadd
  rw [← h.bytes, QueuedSkb.bytes, hadd, List.take_left' (Memory.length_read _ _ _)]

theorem advance (h : skb.Lays mem s) {k : Nat} (hk : k ≤ skb.dlen.toNat) :
    (skb.advance k).Lays mem { s with payload := s.payload.drop k } := by
  have hlt := skb.dlen.isLt
  have hlen : (skb.dlen - BitVec.ofNat 32 k).toNat = skb.dlen.toNat - k := by
    rw [BitVec.toNat_sub, BitVec.toNat_ofNat]
    omega
  refine ⟨?_, ?_, h.psh⟩
  · apply BitVec.eq_of_toNat_eq
    show (skb.dlen - BitVec.ofNat 32 k).toNat = (BitVec.ofNat 32 (s.payload.bytes.drop k).length).toNat
    rw [hlen, BitVec.toNat_ofNat, List.length_drop, ← h.toNat_dlen, Nat.mod_eq_of_lt (by omega)]
  · have hadd := Memory.read_add mem skb.payload k (skb.dlen.toNat - k)
    rw [Nat.add_sub_cancel' hk] at hadd
    show Memory.read mem (skb.payload + k) (skb.dlen - BitVec.ofNat 32 k).toNat = s.payload.bytes.drop k
    rw [hlen, ← h.bytes, QueuedSkb.bytes, hadd, List.drop_left' (Memory.length_read _ _ _)]

end QueuedSkb.Lays

/-- **The loop of the socket's model** copies the same bytes and leaves the same
skbs: their payloads are too short for the guard to wrap. -/
theorem Dequeue.run_refines {mem : Memory.Mem U8} {userlen fuel : Nat} {d : Dequeue} {qs : List Skb} (hu : userlen < 2 ^ 31)
    (hf : d.fault = false) (hq : List.Forall₂ (QueuedSkb.Lays mem) d.receiveQueue qs) (hr : d.rlen ≤ userlen)
    (hfuel : qs.length ≤ fuel) :
    let d' := Loop.run (Going userlen) (turn mem userlen) fuel d
    let out := dequeueLoop (userlen - d.rlen) qs
    d'.fault = false ∧ d'.userBuf = d.userBuf ++ out.1 ∧ List.Forall₂ (QueuedSkb.Lays mem) d'.receiveQueue out.2.1 ∧
      d'.flagPsh = (d.flagPsh || out.2.2) := by
  induction qs generalizing d fuel with
  | nil =>
    have hnil : d.receiveQueue = [] := List.forall₂_nil_right_iff.mp hq
    dsimp only
    rw [Loop.run_of_not fun hgo => hgo.2.1 hnil, dequeueLoop]
    exact ⟨hf, (List.append_nil _).symm, hq, (Bool.or_false _).symm⟩
  | cons s qs ih =>
    obtain ⟨fuel, rfl⟩ : ∃ f, fuel = f + 1 := ⟨fuel - 1, by rw [List.length_cons] at hfuel; omega⟩
    rw [List.length_cons] at hfuel
    obtain ⟨skb, rest, hs, hrest, heq⟩ := List.forall₂_cons_right_iff.mp hq
    have hlen := hs.toNat_dlen
    have hshort := s.payload.short
    dsimp only
    by_cases hlt : d.rlen < userlen
    · rw [Loop.run, if_pos ⟨hf, by rw [heq]; exact List.cons_ne_nil _ _, hlt⟩, dequeueLoop, if_neg (by omega)]
      by_cases hfit : d.rlen + skb.dlen.toNat ≤ userlen
      · have hroom : userlen - d.rlen - s.payload.bytes.length = userlen - (d.rlen + skb.dlen.toNat) := by omega
        rw [turn_eat hu heq hlt hfit, if_pos (by omega), hroom]
        generalize hd : ({ d with
          receiveQueue := rest
          rlen := d.rlen + skb.dlen.toNat
          userBuf := d.userBuf ++ skb.bytes mem
          realRcvWnd := d.realRcvWnd + BitVec.ofNat 32 skb.dlen.toNat
          flagPsh := d.flagPsh || skb.psh
          freed := d.freed ++ [skb.eaten] } : Dequeue) = next
        have hnf : next.fault = false := by
          rw [← hd]
          exact hf
        have hgo := ih hnf (by rw [← hd]; exact hrest) (by rw [← hd]; exact hfit) (show qs.length ≤ fuel by omega)
        rw [← hd] at hgo ⊢
        obtain ⟨hfault, hbuf, hleft, hpsh⟩ := hgo
        refine ⟨hfault, ?_, hleft, ?_⟩
        · rw [hbuf, hs.bytes, List.append_assoc]
        · rw [hpsh, hs.psh, Bool.or_assoc]
      · rw [if_neg (by omega), turn_fill hu heq hlt (by omega) (by omega), Loop.run_of_not fun hgo => Nat.lt_irrefl _ hgo.2.2]
        refine ⟨hf, ?_, .cons (hs.advance (by omega)) hrest, (Bool.or_false _).symm⟩
        dsimp only
        rw [hs.take (by omega)]
    · have hzero : userlen - d.rlen = 0 := by omega
      rw [Loop.run_of_not fun hgo => hlt hgo.2.2, dequeueLoop, if_pos hzero]
      exact ⟨hf, (List.append_nil _).symm, hq, (Bool.or_false _).symm⟩

end LevelIp
