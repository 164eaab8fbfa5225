/-
What `udp_in` lets through. It computes the checksum of the datagram again and
compares it with the field, over as many bytes as the datagram says it has: a
field of 0 or 0xffff is not what comes out for a datagram that is in order, the
length is never held against the IP header, and for more than 1500 bytes the
checksum is 0.

Addresses count from the IPv4 header. Its fields are those of `ip_init_pkt`, in
host order; the UDP header is looked for behind 20 bytes.
-/
import LevelIp.Demux
import LevelIp.FieldReads
import LevelIp.SkbBytes
import LevelIp.SplitChecksum

namespace LevelIp

open Access
open OnesComplement (words wordsLe fold)

/-- `MAX_UDP_BUF`, and the pseudo-header in it. -/
def UDP_PSEUDO_LEN : Nat := 12
def MAX_UDP_BUF : Nat := UDP_PSEUDO_LEN + 1500

/-- `iph->data`. -/
def IPH_DATA : Int := 20

/-- `struct udp_pseudo_hdr`. -/
def udpPseudo (saddr daddr : U32) (length : U16) : List U8 :=
  toBe32 saddr ++ toBe32 daddr ++ [0, IP_UDP] ++ be16Bytes length

/-- `csum = 0` in the copy of the datagram. -/
def clearUdpCsum (dgram : List U8) : List U8 := (dgram.set 6 0).set 7 0

/-- The checksum of a pseudo-header and a datagram, once that is copied. -/
def udpChecksum (saddr daddr : U32) (dgram : List U8) : U16 :=
  let buf := udpPseudo saddr daddr (BitVec.ofNat 16 dgram.length) ++ clearUdpCsum dgram
  checksum buf 0 buf.length 0

/-- `calcuate_udp_checksum`. -/
def calcuateUdpChecksum (saddr daddr : U32) (uhdr : Int) : Prog U8 U16 := do
  let length ← ntohsAt (uhdr + 4)
  if MAX_UDP_BUF < UDP_PSEUDO_LEN + length.toNat then
    return 0
  else
    let dgram ← Prog.cells uhdr length.toNat
    return udpChecksum saddr daddr dgram

/-- `udp_checksum_right`. -/
def udpChecksumRight (ihdr : Iphdr) (uhdr : Int) : Prog U8 Bool := do
  let checksum ← calcuateUdpChecksum ihdr.saddr ihdr.daddr uhdr
  let csum ← uint16At (uhdr + 6)
  return checksum = csum

/-- `socket_lookup_udp`. -/
def SockList.socketLookupUdp (l : SockList) (family : Family) (localport : U16) : Option Nat :=
  l.findIdx? fun sk => sk.any fun sk => sk.family = family && sk.protocol = .udp && sk.sport = localport

/-- A datagram that is queued: the socket, `skb->dlen` and `skb->payload`. -/
structure UdpQueued where
  sock : Nat
  dlen : U32
  payload : Int
deriving DecidableEq

/-- `udp_in`: what is queued, if anything is. -/
def udpIn (socks : SockList) (iph : Iphdr) : Prog U8 (Option UdpQueued) := do
  let th := IPH_DATA
  let right ← udpChecksumRight iph th
  if right then
    -- `udp_init_head`
    let dport ← ntohsAt (th + 2)
    let _sport ← ntohsAt th
    let length ← ntohsAt (th + 4)
    return (socks.socketLookupUdp .inet dport).map fun sock =>
      { sock := sock, dlen := U16.wide length - 8, payload := th + 8 }
  else
    return none

/-! ## What is asked -/

namespace UdpDatagram

/-- The fields of the UDP header at `o`, and the bytes it says the datagram has. -/
def length (mem : Memory.Mem U8) (o : Int) : Nat := ((ntohsAt (o + 4)).val mem).toNat
def csum (mem : Memory.Mem U8) (o : Int) : U16 := (uint16At (o + 6)).val mem
def dport (mem : Memory.Mem U8) (o : Int) : U16 := (ntohsAt (o + 2)).val mem
def bytes (mem : Memory.Mem U8) (o : Int) : List U8 := Memory.read mem o (length mem o)

/-- The sum of pseudo-header and datagram is 0xffff. -/
def SumsUp (ip : Iphdr) (mem : Memory.Mem U8) (o : Int) : Prop :=
  OnesComplement.sum (words (udpPseudo ip.saddr ip.daddr (BitVec.ofNat 16 (length mem o)) ++ bytes mem o)) = 0xffff

/-- Where the datagram is, and how many bytes the IP header leaves for it. -/
def start (ip : Iphdr) : Int := 4 * ip.ihl.toNat
def room (ip : Iphdr) : Nat := ip.len.toNat - 4 * ip.ihl.toNat

/-- The length is one the datagram can have. -/
def LengthFits (ip : Iphdr) (mem : Memory.Mem U8) : Prop := 8 ≤ length mem (start ip) ∧ length mem (start ip) ≤ room ip

/-- The datagram is in order. -/
def Valid (ip : Iphdr) (mem : Memory.Mem U8) : Prop :=
  LengthFits ip mem ∧ (csum mem (start ip) = 0 ∨ SumsUp ip mem (start ip))

/-- There is a socket for the datagram at `o`. -/
def Bound (socks : SockList) (mem : Memory.Mem U8) (o : Int) : Prop := (socks.socketLookupUdp .inet (dport mem o)).isSome

end UdpDatagram

/-! ## The checksum that is computed -/

theorem length_udpPseudo (saddr daddr : U32) (length : U16) : (udpPseudo saddr daddr length).length = 12 := rfl

/-- The protocol is in the sum, which is not zero for that. -/
theorem sum_udpPseudo_pos (saddr daddr : U32) (length : U16) (m : List U8) :
    0 < (wordsLe (udpPseudo saddr daddr length ++ m)).sum := by
  have hsplit : udpPseudo saddr daddr length ++ m =
      (toBe32 saddr ++ toBe32 daddr) ++ (0 :: IP_UDP :: (be16Bytes length ++ m)) := by
    simp [udpPseudo]
  have heven : (toBe32 saddr ++ toBe32 daddr).length % 2 = 0 := by simp [toBe32]
  rw [hsplit, OnesComplement.wordsLe_append heven, List.sum_append, wordsLe, List.sum_cons]
  have hproto : (0 : U8).toNat + 256 * IP_UDP.toNat = 4352 := rfl
  omega

/-- The machine's checksum of a message that is not too long to be summed. -/
theorem toNat_checksum_wordsLe {m : List U8} (h : m.length ≤ 65536) :
    (checksum m 0 m.length 0).toNat = 65535 - fold (wordsLe m).sum := by
  have hle := OnesComplement.sum_wordsLe_le m
  rw [toNat_checksum, sumEvery16bits_eq, BitVec.toNat_add, BitVec.toNat_ofNat]
  have hzero : (0 : U32).toNat = 0 := rfl
  rw [hzero, Nat.zero_add, Nat.mod_mod, Nat.mod_eq_of_lt (by omega)]

/-- All ones in one byte order are all ones in the other. -/
theorem sum_eq_ones {m : List U8} : OnesComplement.sum (words m) = 0xffff ↔ fold (wordsLe m).sum = 65535 := by
  rw [OnesComplement.sum_eq_fold (OnesComplement.words_le m)]
  have hmod := OnesComplement.sum_wordsLe_mod m
  have hzero := OnesComplement.sum_wordsLe_eq_zero m
  have hle := OnesComplement.fold_le (words m).sum
  have hle' := OnesComplement.fold_le (wordsLe m).sum
  have hw := OnesComplement.fold_mod (words m).sum
  have hw' := OnesComplement.fold_mod (wordsLe m).sum
  have hz := @OnesComplement.fold_eq_zero (words m).sum
  have hz' := @OnesComplement.fold_eq_zero (wordsLe m).sum
  omega

/-- The checksum field of a datagram, of the bytes `lo` and `hi`. -/
theorem toNat_uint16 (lo hi : U8) : (hi.setWidth 16 <<< 8 ||| lo.setWidth 16 : U16).toNat = lo.toNat + 256 * hi.toNat := by
  have h : (hi.setWidth 16 <<< 8 ||| lo.setWidth 16 : U16).toNat = 256 * hi.toNat + lo.toNat := toNat_be16 [hi, lo] 0
  omega

/-- Six bytes before the field, of which a short datagram has not all, the field,
and what is behind it. -/
def aroundCsum (dgram : List U8) (lo hi : U8) : List U8 :=
  (dgram.take 6 ++ List.replicate (6 - dgram.length) 0) ++ lo :: hi :: dgram.drop 8

theorem length_before_csum (dgram : List U8) : (dgram.take 6 ++ List.replicate (6 - dgram.length) 0).length = 6 := by
  simp only [List.length_append, List.length_take, List.length_replicate]
  omega

theorem sum_aroundCsum {pre : List U8} (hpre : pre.length % 2 = 0) (dgram : List U8) (lo hi : U8) :
    (wordsLe (pre ++ aroundCsum dgram lo hi)).sum =
      (wordsLe pre).sum + (wordsLe (dgram.take 6 ++ List.replicate (6 - dgram.length) 0)).sum + (lo.toNat + 256 * hi.toNat) +
        (wordsLe (dgram.drop 8)).sum := by
  have hsix : (dgram.take 6 ++ List.replicate (6 - dgram.length) 0).length % 2 = 0 := by rw [length_before_csum]
  rw [aroundCsum, OnesComplement.wordsLe_append hpre, OnesComplement.wordsLe_append hsix, wordsLe, List.sum_append, List.sum_append,
    List.sum_cons]
  omega

/-- A cleared field counts for nothing, wherever the datagram ends. -/
theorem sum_clearUdpCsum (dgram : List U8) :
    (wordsLe (clearUdpCsum dgram)).sum =
      (wordsLe (dgram.take 6 ++ List.replicate (6 - dgram.length) 0)).sum + (wordsLe (dgram.drop 8)).sum := by
  match dgram with
  | [] | [_] | [_, _] | [_, _, _] | [_, _, _, _] | [_, _, _, _, _] | [_, _, _, _, _, _] | [_, _, _, _, _, _, _] =>
    simp [clearUdpCsum, wordsLe, List.replicate]
  | a :: b :: c :: d :: e :: f :: _ :: _ :: t =>
    simp [clearUdpCsum, wordsLe]
    omega

/-- **What the comparison finds out**: the field is what comes out again exactly
if the sum is all ones and the field is not. -/
theorem udpChecksum_eq_iff {saddr daddr : U32} {dgram : List U8} {lo hi : U8} (hlen : dgram.length ≤ 60000) :
    udpChecksum saddr daddr dgram = hi.setWidth 16 <<< 8 ||| lo.setWidth 16 ↔
      OnesComplement.sum (words (udpPseudo saddr daddr (BitVec.ofNat 16 dgram.length) ++ aroundCsum dgram lo hi)) = 0xffff ∧
        (hi.setWidth 16 <<< 8 ||| lo.setWidth 16 : U16) ≠ 0xffff := by
  generalize hpre : udpPseudo saddr daddr (BitVec.ofNat 16 dgram.length) = pre
  have heven : pre.length % 2 = 0 := by rw [← hpre, length_udpPseudo]
  have hcalc : (udpChecksum saddr daddr dgram).toNat = 65535 - fold (wordsLe (pre ++ clearUdpCsum dgram)).sum := by
    rw [udpChecksum, hpre]
    refine toNat_checksum_wordsLe ?_
    have hprelen : pre.length = 12 := by rw [← hpre, length_udpPseudo]
    have hclear : (clearUdpCsum dgram).length = dgram.length := by simp [clearUdpCsum]
    rw [List.length_append]
    omega
  have hpos : 0 < (wordsLe (pre ++ clearUdpCsum dgram)).sum := by
    rw [← hpre]
    exact sum_udpPseudo_pos _ _ _ _
  have h0 : (wordsLe (pre ++ clearUdpCsum dgram)).sum =
      (wordsLe pre).sum + ((wordsLe (dgram.take 6 ++ List.replicate (6 - dgram.length) 0)).sum + (wordsLe (dgram.drop 8)).sum) := by
    rw [OnesComplement.wordsLe_append heven, List.sum_append, sum_clearUdpCsum]
  have hc := sum_aroundCsum heven dgram lo hi
  rw [← BitVec.toNat_inj, hcalc, sum_eq_ones, ne_eq, ← BitVec.toNat_inj, toNat_uint16]
  have hm := OnesComplement.fold_mod (wordsLe (pre ++ clearUdpCsum dgram)).sum
  have hl := OnesComplement.fold_le (wordsLe (pre ++ clearUdpCsum dgram)).sum
  have hz := @OnesComplement.fold_eq_zero (wordsLe (pre ++ clearUdpCsum dgram)).sum
  have hm' := OnesComplement.fold_mod (wordsLe (pre ++ aroundCsum dgram lo hi)).sum
  have hl' := OnesComplement.fold_le (wordsLe (pre ++ aroundCsum dgram lo hi)).sum
  have hz' := @OnesComplement.fold_eq_zero (wordsLe (pre ++ aroundCsum dgram lo hi)).sum
  have hlo := lo.isLt
  have hhi := hi.isLt
  have hones : (0xffff : U16).toNat = 65535 := rfl
  rw [hones]
  omega

/-! ## What is queued -/

namespace UdpDatagram

variable {socks : SockList} {ip : Iphdr} {mem : Memory.Mem U8} {o : Int}

/-- The field at `o` makes up for the sum of the bytes that are summed, or is 0
where none are. -/
def Accepted (ip : Iphdr) (mem : Memory.Mem U8) (o : Int) : Prop :=
  if length mem o ≤ 1500 then
    OnesComplement.sum (words (udpPseudo ip.saddr ip.daddr (BitVec.ofNat 16 (length mem o)) ++
      aroundCsum (bytes mem o) (mem (o + 6)) (mem (o + 7)))) = 0xffff ∧ csum mem o ≠ 0xffff
  else csum mem o = 0

theorem csum_eq : csum mem o = (mem (o + 7)).setWidth 16 <<< 8 ||| (mem (o + 6)).setWidth 16 := by
  have h : o + 6 + 1 = o + 7 := by omega
  simp only [csum, uint16At, Prog.val_bind, Prog.val_cell, Prog.val_pure, h]

theorem length_bytes : (bytes mem o).length = length mem o := Memory.length_read _ _ _

/-- A datagram that has a checksum field is what is summed. -/
theorem aroundCsum_bytes (h : 8 ≤ length mem o) : aroundCsum (bytes mem o) (mem (o + 6)) (mem (o + 7)) = bytes mem o := by
  obtain ⟨n, hn⟩ := Nat.exists_eq_add_of_le h
  have hsplit : bytes mem o = Memory.read mem o 6 ++ (mem (o + 6) :: mem (o + 7) :: Memory.read mem (o + 8) n) := by
    have h2 : Memory.read mem (o + 6) 2 = [mem (o + 6), mem (o + 7)] := by simp [Memory.read, List.range_succ, Int.add_assoc]
    rw [bytes, hn, show 8 + n = 6 + (2 + n) by omega, Memory.read_add, Memory.read_add, Nat.cast_ofNat, h2, Nat.cast_ofNat,
      Int.add_assoc]
    rfl
  have hsix : (Memory.read mem o 6).length = 6 := Memory.length_read _ _ _
  rw [aroundCsum, length_bytes, Nat.sub_eq_zero_of_le (by omega : length mem o ≥ 6), hsplit, List.take_left' hsix,
    List.drop_append, hsix, List.drop_of_length_le (by omega : (Memory.read mem o 6).length ≤ 8)]
  simp

theorem accepted_of_long (h : 1500 < length mem o) : Accepted ip mem o ↔ csum mem o = 0 := by
  rw [Accepted, if_neg (by omega)]

theorem accepted_of_short (h : 8 ≤ length mem o) (h' : length mem o ≤ 1500) :
    Accepted ip mem o ↔ SumsUp ip mem o ∧ csum mem o ≠ 0xffff := by
  rw [Accepted, if_pos h', aroundCsum_bytes h, SumsUp]

/-- What `calcuate_udp_checksum` computes. -/
theorem val_calcuateUdpChecksum (saddr daddr : U32) : (calcuateUdpChecksum saddr daddr o).val mem =
    if length mem o ≤ 1500 then udpChecksum saddr daddr (bytes mem o) else 0 := by
  simp only [calcuateUdpChecksum, Prog.val_bind, ← length.eq_1]
  have hbuf : MAX_UDP_BUF < UDP_PSEUDO_LEN + length mem o ↔ 1500 < length mem o := Nat.add_lt_add_iff_left
  by_cases h : length mem o ≤ 1500
  · rw [if_neg (mt hbuf.mp (Nat.not_lt.mpr h)), if_pos h, Prog.val_bind, Prog.val_cells, Prog.val_pure, bytes]
  · rw [if_pos (hbuf.mpr (Nat.lt_of_not_le h)), if_neg h, Prog.val_pure]

/-- What `udp_checksum_right` decides. -/
theorem val_udpChecksumRight : (udpChecksumRight ip o).val mem = true ↔ Accepted ip mem o := by
  simp only [udpChecksumRight, Prog.val_bind, Prog.val_pure, val_calcuateUdpChecksum, ← csum.eq_1, decide_eq_true_eq]
  by_cases h : length mem o ≤ 1500
  · have hiff := @udpChecksum_eq_iff ip.saddr ip.daddr (bytes mem o) (mem (o + 6)) (mem (o + 7)) (by rw [length_bytes]; omega)
    rw [← csum_eq, length_bytes] at hiff
    rw [if_pos h, hiff, Accepted, if_pos h]
  · rw [if_neg h, accepted_of_long (by omega)]
    exact eq_comm

/-- What is queued, of the header at `IPH_DATA`. -/
theorem val_udpIn (h : Accepted ip mem IPH_DATA) : (udpIn socks ip).val mem =
    (socks.socketLookupUdp .inet (dport mem IPH_DATA)).map fun sock =>
      { sock := sock, dlen := U16.wide ((ntohsAt (IPH_DATA + 4)).val mem) - 8, payload := IPH_DATA + 8 } := by
  simp only [udpIn, Prog.val_bind, val_udpChecksumRight.mpr h, if_true, Prog.val_pure, dport]

theorem val_udpIn_none (h : ¬Accepted ip mem IPH_DATA) : (udpIn socks ip).val mem = none := by
  have hright := mt val_udpChecksumRight.mp h
  simp only [udpIn, Prog.val_bind, hright, Bool.false_eq_true, if_false, Prog.val_pure]

theorem isSome_udpIn : ((udpIn socks ip).val mem).isSome ↔ Accepted ip mem IPH_DATA ∧ Bound socks mem IPH_DATA := by
  by_cases h : Accepted ip mem IPH_DATA
  · rw [val_udpIn h, Option.isSome_map, and_iff_right h, Bound]
  · simp [val_udpIn_none h, h]

/-- A length below the header's size is taken for a very large one. -/
theorem toNat_dlen {q : UdpQueued} (hq : (udpIn socks ip).val mem = some q) :
    q.dlen.toNat = if 8 ≤ length mem IPH_DATA then length mem IPH_DATA - 8 else length mem IPH_DATA + 4294967288 := by
  have hacc : Accepted ip mem IPH_DATA := (isSome_udpIn.mp (Option.isSome_of_eq_some hq)).1
  rw [val_udpIn hacc, Option.map_eq_some_iff] at hq
  obtain ⟨sock, -, rfl⟩ := hq
  have hlt : length mem IPH_DATA < 65536 := BitVec.isLt _
  have hwide : (U16.wide ((ntohsAt (IPH_DATA + 4)).val mem)).toNat = length mem IPH_DATA :=
    BitVec.toNat_setWidth_of_le (by decide)
  rw [BitVec.toNat_sub, hwide]
  have height : (8 : U32).toNat = 8 := rfl
  rw [height]
  split <;> omega

/-- What is read: the header, and the bytes the header says there are. -/
theorem within_udpIn : (udpIn socks ip).Within mem fun a => a < IPH_DATA + max 8 (length mem IPH_DATA) := by
  have hlen : (ntohsAt (IPH_DATA + 4)).Within mem fun a => a < IPH_DATA + max 8 (length mem IPH_DATA) :=
    within_ntohsAt (by omega) (by omega)
  have hcsum : (uint16At (IPH_DATA + 6)).Within mem fun a => a < IPH_DATA + max 8 (length mem IPH_DATA) :=
    within_uint16At (by omega) (by omega)
  have hports : ∀ k, k = 0 ∨ k = 2 → (ntohsAt (IPH_DATA + k)).Within mem fun a => a < IPH_DATA + max 8 (length mem IPH_DATA) :=
    fun k hk => within_ntohsAt (by omega) (by omega)
  have hcalc : (calcuateUdpChecksum ip.saddr ip.daddr IPH_DATA).Within mem fun a => a < IPH_DATA + max 8 (length mem IPH_DATA) := by
    refine Prog.within_bind hlen ?_
    split
    · exact Prog.within_pure _
    · refine Prog.within_bind (Prog.within_cells fun a _ ha => ?_) (Prog.within_pure _)
      have hn : ((ntohsAt (IPH_DATA + 4)).val mem).toNat = length mem IPH_DATA := rfl
      omega
  refine Prog.within_bind (Prog.within_bind hcalc (Prog.within_bind hcsum (Prog.within_pure _))) ?_
  split
  · exact Prog.within_bind (hports 2 (.inr rfl)) (Prog.within_bind (hports 0 (.inl rfl)) (Prog.within_bind hlen (Prog.within_pure _)))
  · exact Prog.within_pure _

end UdpDatagram

open UdpDatagram in
/-- `udp_in` queues what is in order, and nothing else. -/
structure UdpValidated (socks : SockList) (ip : Iphdr) (mem : Memory.Mem U8) : Prop where
  queued : ((udpIn socks ip).val mem).isSome ↔ Valid ip mem ∧ Bound socks mem (start ip)
  dlen : ∀ q, (udpIn socks ip).val mem = some q → q.dlen.toNat = length mem (start ip) - 8
  reads : ∀ q, (udpIn socks ip).val mem = some q → (udpIn socks ip).Within mem fun a => a < start ip + length mem (start ip)

open UdpDatagram in
/-- **When the recomputed checksum stands for the test**. Without IP options, for
a datagram that somebody receives: its length is one that fits, and a field of 0
stands before a sum that is all ones, as no field of 0xffff does; a datagram of
more than 1500 bytes has a field of 0, or a sum that is not all ones; one that
does not fit is not taken by accident. With options, what is taken for the
UDP header has to say the same as the UDP header does. -/
def UdpAgrees (socks : SockList) (ip : Iphdr) (mem : Memory.Mem U8) : Prop :=
  if ip.ihl = 5 then
    Bound socks mem (start ip) →
      (LengthFits ip mem → length mem (start ip) ≤ 1500 →
        (csum mem (start ip) = 0 → SumsUp ip mem (start ip)) ∧ (csum mem (start ip) = 0xffff → ¬SumsUp ip mem (start ip))) ∧
      (LengthFits ip mem → 1500 < length mem (start ip) → csum mem (start ip) = 0 ∨ ¬SumsUp ip mem (start ip)) ∧
      (¬LengthFits ip mem → ¬Accepted ip mem (start ip))
  else
    (Accepted ip mem IPH_DATA ∧ Bound socks mem IPH_DATA ↔ Valid ip mem ∧ Bound socks mem (start ip)) ∧
    (Accepted ip mem IPH_DATA ∧ Bound socks mem IPH_DATA → length mem IPH_DATA = length mem (start ip))

namespace UdpDatagram

variable {socks : SockList} {ip : Iphdr} {mem : Memory.Mem U8} {o : Int}

/-- Without options the header is where it is looked for. -/
theorem start_eq (h : ip.ihl = 5) : start ip = IPH_DATA := by
  rw [start, h]
  rfl

/-- A comparison that asks for `s` and excludes `f` is the test for `z` or `s`. -/
theorem short_iff {z f s : Prop} (h : z → ¬f) : (s ∧ ¬f ↔ z ∨ s) ↔ (z → s) ∧ (f → ¬s) := by tauto

theorem long_iff {z s : Prop} : (z ↔ z ∨ s) ↔ z ∨ ¬s := by tauto

/-- The test and the comparison, of a datagram whose header is found. -/
theorem accepted_iff_valid : (Accepted ip mem (start ip) ↔ Valid ip mem) ↔
    (LengthFits ip mem → length mem (start ip) ≤ 1500 →
      (csum mem (start ip) = 0 → SumsUp ip mem (start ip)) ∧ (csum mem (start ip) = 0xffff → ¬SumsUp ip mem (start ip))) ∧
    (LengthFits ip mem → 1500 < length mem (start ip) → csum mem (start ip) = 0 ∨ ¬SumsUp ip mem (start ip)) ∧
    (¬LengthFits ip mem → ¬Accepted ip mem (start ip)) := by
  by_cases hfits : LengthFits ip mem
  · have hvalid : Valid ip mem ↔ csum mem (start ip) = 0 ∨ SumsUp ip mem (start ip) := and_iff_right hfits
    by_cases hlen : length mem (start ip) ≤ 1500
    · have hacc : Accepted ip mem (start ip) ↔ _ := accepted_of_short hfits.1 hlen
      have hne : csum mem (start ip) = 0 → csum mem (start ip) ≠ 0xffff := fun h => by rw [h]; decide
      simp only [hacc, hvalid, hfits, hlen, Nat.not_lt.mpr hlen, true_imp_iff, false_imp_iff, not_true_eq_false, and_true]
      exact short_iff hne
    · have hlt := Nat.lt_of_not_le hlen
      simp only [accepted_of_long hlt, hvalid, hfits, hlen, hlt, true_imp_iff, false_imp_iff, not_true_eq_false, and_true, true_and]
      exact long_iff
  · have hvalid : ¬Valid ip mem := fun h => hfits h.1
    simp only [hvalid, hfits, iff_false, false_imp_iff, not_false_eq_true, true_imp_iff, true_and]

/-- What is queued has the length the comparison was made with. -/
theorem length_of_dlen {q : UdpQueued} (hq : (udpIn socks ip).val mem = some q) (hfits : LengthFits ip mem)
    (h : q.dlen.toNat = length mem (start ip) - 8) : length mem IPH_DATA = length mem (start ip) := by
  have hlt : length mem (start ip) < 65536 := BitVec.isLt _
  have height : 8 ≤ length mem (start ip) := hfits.1
  rw [toNat_dlen hq] at h
  split at h <;> omega

end UdpDatagram

open UdpDatagram in
theorem udpIn_validates_iff {socks : SockList} {ip : Iphdr} {mem : Memory.Mem U8} (hihl : 5 ≤ ip.ihl) :
    UdpValidated socks ip mem ↔ UdpAgrees socks ip mem := by
  have hstart : IPH_DATA ≤ start ip := by
    have h : 5 ≤ ip.ihl.toNat := hihl
    simp only [IPH_DATA, start]
    omega
  -- what is left to show, once the decision is the right one and the lengths agree
  have hrest (hq : ((udpIn socks ip).val mem).isSome ↔ Valid ip mem ∧ Bound socks mem (start ip))
      (hl : Accepted ip mem IPH_DATA ∧ Bound socks mem IPH_DATA → length mem IPH_DATA = length mem (start ip)) :
      UdpValidated socks ip mem := by
    have hboth : ∀ q, (udpIn socks ip).val mem = some q → 8 ≤ length mem (start ip) ∧ length mem IPH_DATA = length mem (start ip) :=
      fun q hsome => have hs := Option.isSome_of_eq_some hsome
        ⟨(hq.mp hs).1.1.1, hl (isSome_udpIn.mp hs)⟩
    refine ⟨hq, fun q hsome => ?_, fun q hsome => within_udpIn.mono fun a ha => ?_⟩
    · obtain ⟨height, heq⟩ := hboth q hsome
      rw [toNat_dlen hsome, heq, if_pos height]
    · obtain ⟨height, heq⟩ := hboth q hsome
      omega
  by_cases h5 : ip.ihl = 5
  · have hdata := start_eq h5
    rw [UdpAgrees, if_pos h5, ← accepted_iff_valid]
    refine ⟨fun hv hb => ?_, fun hc => hrest ?_ fun _ => by rw [hdata]⟩
    · have hq := hv.queued
      rw [isSome_udpIn, ← hdata, and_iff_left hb, and_iff_left hb] at hq
      exact hq
    · rw [isSome_udpIn, ← hdata]
      exact and_congr_left hc
  · rw [UdpAgrees, if_neg h5]
    refine ⟨fun hv => ⟨isSome_udpIn.symm.trans hv.queued, fun hs => ?_⟩, fun hc => hrest (isSome_udpIn.trans hc.1) hc.2⟩
    obtain ⟨q, hsome⟩ := Option.isSome_iff_exists.mp (isSome_udpIn.mpr hs)
    exact length_of_dlen hsome (hv.queued.mp (isSome_udpIn.mpr hs)).1.1 (hv.dlen q hsome)

/-- A datagram without data for port 53, with the two bytes of its checksum field. -/
def dnsIphdr : Iphdr := { version := 4, ihl := 5, len := 28, ttl := 64, proto := IP_UDP, saddr := 0x0a000001, daddr := 0x0a000002 }

def dnsDatagram (hi lo : U8) : Memory.Mem U8 := fun a => [0, 1, 0, 53, 0, 8, hi, lo].getD (a - 20).toNat 0

def dnsSocks : SockList :=
  [some { family := .inet, protocol := .udp, state := .close, saddr := .v4 0, daddr := .v4 0, sport := 53, dport := 0 }]

open UdpDatagram in
theorem udpIn_validates_dns : UdpValidated dnsSocks dnsIphdr (dnsDatagram 0xeb 0xa5) := by
  refine (udpIn_validates_iff (by decide)).mpr ?_
  have hfits : LengthFits dnsIphdr (dnsDatagram 0xeb 0xa5) := ⟨by decide +kernel, by decide +kernel⟩
  have hlen : length (dnsDatagram 0xeb 0xa5) (start dnsIphdr) = 8 := by decide +kernel
  have hzero : csum (dnsDatagram 0xeb 0xa5) (start dnsIphdr) ≠ 0 := by decide +kernel
  have hones : csum (dnsDatagram 0xeb 0xa5) (start dnsIphdr) ≠ 0xffff := by decide +kernel
  rw [UdpAgrees, if_pos (by decide : dnsIphdr.ihl = 5)]
  exact fun _ => ⟨fun _ _ => ⟨fun h => absurd h hzero, fun h => absurd h hones⟩, fun _ h => by omega, fun h => absurd hfits h⟩

open UdpDatagram in
/-- A datagram without a checksum is thrown away. -/
theorem no_checksum_dropped : ¬UdpValidated dnsSocks dnsIphdr (dnsDatagram 0 0) := by
  intro h
  have hvalid : Valid dnsIphdr (dnsDatagram 0 0) :=
    ⟨⟨by decide +kernel, by decide +kernel⟩, .inl (by decide +kernel)⟩
  have hbound : Bound dnsSocks (dnsDatagram 0 0) (start dnsIphdr) := by
    unfold Bound
    decide +kernel
  have hnone : (udpIn dnsSocks dnsIphdr).val (dnsDatagram 0 0) = none := by decide +kernel
  have hsome := h.queued.mpr ⟨hvalid, hbound⟩
  rw [hnone] at hsome
  cases hsome

end LevelIp
