/-
The checksum of an outgoing TCP segment, which is computed in two layers: the
first sums length, protocol and segment into an `int`, the second adds the
addresses and folds. What is stored is the checksum of the whole pseudo-header
and the segment, and nothing is lost on the way.
-/
import LevelIp.Addrconf
import LevelIp.Lib.OnesComplement
import LevelIp.Ndp
import LevelIp.Packets
import LevelIp.TcpOpts

namespace LevelIp

open OnesComplement (words wordsLe fold swap)

/-- `thdr->csum = csum` in the segment at `thdr`. -/
def storeCsum (seg : List U8) (csum : U16) : List U8 :=
  (seg.set 16 (csum.setWidth 8)).set 17 ((csum >>> 8).setWidth 8)

/-- The addresses that the IP header is given, those of IPv4 in host order. -/
inductive AddrPair
  | v4 (saddr daddr : U32)
  | v6 (saddr daddr : In6Addr)

/-- `pseudo` in `tcp_v4_tcp_partion_checksum`. -/
def tcpV4Pseudo (len : U32) : List U8 := [0, IP_TCP, (len >>> 8).setWidth 8, len.setWidth 8]

/-- `pseudo` in `tcp_v6_tcp_partion_checksum`. -/
def tcpV6Pseudo (len : U32) : List U8 :=
  [(len >>> 24).setWidth 8, (len >>> 16).setWidth 8, (len >>> 8).setWidth 8, len.setWidth 8, 0, 0, 0, IP_TCP]

/-- `tcp_v4_tcp_partion_checksum`: the sum is returned as an `int`. -/
def tcpV4TcpPartionChecksum (seg : List U8) : Int :=
  (sumEvery16bits (tcpV4Pseudo (BitVec.ofNat 32 seg.length)) 0 4 + sumEvery16bits seg 0 seg.length).toInt

/-- `tcp_v6_tcp_partion_checksum`. -/
def tcpV6TcpPartionChecksum (seg : List U8) : Int :=
  (sumEvery16bits (tcpV6Pseudo (BitVec.ofNat 32 seg.length)) 0 8 + sumEvery16bits seg 0 seg.length).toInt

/-- `tcp_v4_ip_partion_checksum`: `csum` is handed to `checksum` as an `int`. -/
def tcpV4IpPartionChecksum (saddr daddr csum : U32) : Int :=
  (checksum (toBe32 saddr ++ toBe32 daddr) 0 8 (BitVec.ofInt 32 csum.toInt)).toNat

/-- `tcp_v6_ip_partion_checksum`. -/
def tcpV6IpPartionChecksum (saddr daddr : In6Addr) (csum : U32) : Int :=
  (checksum (saddr.toList ++ daddr.toList) 0 32 (BitVec.ofInt 32 csum.toInt)).toNat

namespace AddrPair

/-- What `tcp_transmit_skb` computes for the family. -/
def tcpPartion : AddrPair → List U8 → Int
  | v4 _ _, seg => tcpV4TcpPartionChecksum seg
  | v6 _ _, seg => tcpV6TcpPartionChecksum seg

/-- What `ip_output` and `ipv6_output_ex` compute. -/
def ipPartion : AddrPair → U32 → Int
  | v4 saddr daddr, csum => tcpV4IpPartionChecksum saddr daddr csum
  | v6 saddr daddr, csum => tcpV6IpPartionChecksum saddr daddr csum

/-- The segment that is emitted: `tcp_transmit_skb` sets `csum` to 0 and keeps
`tcpcsum`, the IP layer stores the checksum. -/
def emitted (a : AddrPair) (seg : List U8) : List U8 :=
  let cleared := storeCsum seg 0
  let tcpcsum : U32 := BitVec.ofInt 32 (a.tcpPartion cleared)
  storeCsum cleared (BitVec.ofInt 16 (a.ipPartion tcpcsum))

/-- The pseudo-header of a segment of `len` bytes. -/
def pseudoHeader : AddrPair → (len : Nat) → List U8
  | v4 saddr daddr, len => toBe32 saddr ++ toBe32 daddr ++ [(0 : U8), IP_TCP, BitVec.ofNat 8 (len / 256), BitVec.ofNat 8 len]
  | v6 saddr daddr, len => saddr.toList ++ daddr.toList ++ (toBe32 (BitVec.ofNat 32 len) ++ [(0 : U8), 0, 0, NEXTHDR_TCP])

/-- The bytes of the addresses, and the rest of the pseudo-header. -/
def addrBytes : AddrPair → List U8
  | v4 saddr daddr => toBe32 saddr ++ toBe32 daddr
  | v6 saddr daddr => saddr.toList ++ daddr.toList

def lenBytes : AddrPair → (len : Nat) → List U8
  | v4 _ _, len => tcpV4Pseudo (BitVec.ofNat 32 len)
  | v6 _ _, len => tcpV6Pseudo (BitVec.ofNat 32 len)

end AddrPair

/-! ## Sums on the machine -/

theorem toNat_leWord (b c : U8) : ((b.setWidth 32 : U32) ||| ((c.setWidth 32 : U32) <<< 8)).toNat = b.toNat + 256 * c.toNat := by
  have hb := b.isLt
  have hc := c.isLt
  have hlow : (b.setWidth 32 : U32).toNat = b.toNat := by
    rw [BitVec.toNat_setWidth, Nat.mod_eq_of_lt (by omega)]
  have hhigh : ((c.setWidth 32 : U32) <<< 8).toNat = c.toNat <<< 8 := by
    rw [BitVec.toNat_shiftLeft, BitVec.toNat_setWidth, Nat.shiftLeft_eq, Nat.shiftLeft_eq]
    omega
  rw [BitVec.toNat_or, hlow, hhigh, Nat.or_comm, ← Nat.shiftLeft_add_eq_or_of_lt hb, Nat.shiftLeft_eq]
  omega

/-- The machine sums the little-endian words, modulo `2 ^ 32`. -/
theorem sumEvery16bits_eq (m : List U8) : sumEvery16bits m 0 m.length = BitVec.ofNat 32 (wordsLe m).sum := by
  fun_induction wordsLe m with
  | case1 => rfl
  | case2 b =>
    rw [List.sum_singleton]
    exact BitVec.eq_of_toNat_eq (BitVec.toNat_setWidth 32 b)
  | case3 b c m ih =>
    have hrest : sumEvery16bits (b :: c :: m) 2 m.length = sumEvery16bits m 0 m.length :=
      sumEvery16bits_congr fun i _ => by rw [Nat.zero_add, Nat.add_comm 2 i]; rfl
    have hword : ((b.setWidth 32 : U32) ||| ((c.setWidth 32 : U32) <<< 8)) = BitVec.ofNat 32 (b.toNat + 256 * c.toNat) := by
      rw [← toNat_leWord, BitVec.ofNat_toNat, BitVec.setWidth_eq]
    rw [List.length_cons, List.length_cons, sumEvery16bits, Nat.zero_add, hrest, ih, List.sum_cons, BitVec.ofNat_add]
    exact congrArg (· + _) hword

/-- A turn keeps the residue, and zero. -/
theorem foldSum_keeps (turns : Nat) (s : U32) :
    (foldSum turns s).toNat % 65535 = s.toNat % 65535 ∧ ((foldSum turns s).toNat = 0 ↔ s.toNat = 0) := by
  induction turns generalizing s with
  | zero => exact ⟨rfl, Iff.rfl⟩
  | succ turns ih =>
    have hs := s.isLt
    have hturn : ((s &&& (0xffff : U32)) + (s >>> 16)).toNat = s.toNat % 65536 + s.toNat / 65536 := by
      have hand : (s &&& (0xffff : U32)).toNat = s.toNat % 65536 := by
        rw [BitVec.toNat_and]
        exact Nat.and_two_pow_sub_one_eq_mod s.toNat 16
      rw [BitVec.toNat_add, hand, BitVec.toNat_ushiftRight, Nat.shiftRight_eq_div_pow]
      omega
    rw [foldSum]
    split
    · exact ⟨rfl, Iff.rfl⟩
    · obtain ⟨hmod, hzero⟩ := ih ((s &&& (0xffff : U32)) + (s >>> 16))
      rw [hmod, hzero, hturn]
      omega

theorem toNat_foldSum (s : U32) : (foldSum 2 s).toNat = fold s.toNat := by
  have hdone := congrArg BitVec.toNat (foldSum_done s)
  rw [BitVec.toNat_ushiftRight, Nat.shiftRight_eq_div_pow] at hdone
  have hle : (foldSum 2 s).toNat ≤ 65535 := by
    change _ / 65536 = 0 at hdone
    omega
  exact OnesComplement.fold_unique hle (foldSum_keeps 2 s).1 (foldSum_keeps 2 s).2

theorem toNat_checksum (m : List U8) (start : U32) :
    (checksum m 0 m.length start).toNat = 65535 - fold (start + sumEvery16bits m 0 m.length).toNat := by
  have hle := OnesComplement.fold_le (start + sumEvery16bits m 0 m.length).toNat
  rw [checksum, BitVec.toNat_not, BitVec.toNat_setWidth, toNat_foldSum]
  omega

/-! ## The field -/

theorem toNat_be16 (m : List U8) (i : Nat) : (be16 m i).toNat = 256 * (m.getD i 0).toNat + (m.getD (i + 1) 0).toNat := by
  have hhigh := (m.getD i 0).isLt
  have hlow := (m.getD (i + 1) 0).isLt
  have hshift : ((m.getD i 0).setWidth 16 <<< 8).toNat = (m.getD i 0).toNat <<< 8 := by
    rw [BitVec.toNat_shiftLeft, BitVec.toNat_setWidth, Nat.shiftLeft_eq, Nat.shiftLeft_eq]
    omega
  rw [be16, BitVec.toNat_or, hshift, BitVec.toNat_setWidth, Nat.mod_eq_of_lt (by omega),
    ← Nat.shiftLeft_add_eq_or_of_lt hlow, Nat.shiftLeft_eq]
  omega

theorem length_storeCsum (seg : List U8) (csum : U16) : (storeCsum seg csum).length = seg.length := by
  rw [storeCsum, List.length_set, List.length_set]

theorem storeCsum_storeCsum (seg : List U8) (old csum : U16) : storeCsum (storeCsum seg old) csum = storeCsum seg csum := by
  rw [storeCsum, storeCsum, storeCsum, List.set_comm _ _ (show 17 ≠ 16 by decide), List.set_set, List.set_set]

/-- The field, and what stands around it. -/
theorem storeCsum_eq {seg : List U8} (h : 20 ≤ seg.length) (csum : U16) :
    storeCsum seg csum = seg.take 16 ++ ([csum.setWidth 8, (csum >>> 8).setWidth 8] ++ seg.drop 18) := by
  obtain ⟨pre, rest, hpre, rfl⟩ : ∃ pre rest, pre.length = 16 ∧ seg = pre ++ rest :=
    ⟨seg.take 16, seg.drop 16, List.length_take_of_le (by omega), (List.take_append_drop 16 seg).symm⟩
  rw [List.length_append] at h
  obtain ⟨x, y, rest, rfl⟩ : ∃ x y rest', rest = x :: y :: rest' := by
    match rest, h with
    | x :: y :: rest, _ => exact ⟨x, y, rest, rfl⟩
    | [], h => exact absurd h (by rw [List.length_nil]; omega)
    | [x], h => exact absurd h (by rw [List.length_singleton]; omega)
  rw [storeCsum, List.set_append_right _ _ (by omega), List.set_append_right _ _ (by omega), hpre, List.take_left' hpre,
    Bytes.drop_skip (by omega), hpre]
  rfl

/-- The field is stored the low byte first, and read the high byte first. -/
theorem be16_storeCsum {seg : List U8} (h : 20 ≤ seg.length) (csum : U16) :
    (be16 (storeCsum seg csum) 16).toNat = swap csum.toNat := by
  have hpre : (seg.take 16).length = 16 := List.length_take_of_le (by omega)
  have hcsum := csum.isLt
  have hhigh : (storeCsum seg csum).getD 16 0 = csum.setWidth 8 := by
    rw [storeCsum_eq h, List.getD_append_right _ _ _ _ (by omega), hpre]
    rfl
  have hlow : (storeCsum seg csum).getD 17 0 = (csum >>> 8).setWidth 8 := by
    rw [storeCsum_eq h, List.getD_append_right _ _ _ _ (by omega), hpre]
    rfl
  rw [toNat_be16, hhigh, hlow, BitVec.toNat_setWidth, BitVec.toNat_setWidth, BitVec.toNat_ushiftRight,
    Nat.shiftRight_eq_div_pow, swap]
  omega

/-- Storing in a cleared field adds the word to the sum of every message that the
segment ends. -/
theorem sum_words_storeCsum {seg pre : List U8} (h : 20 ≤ seg.length) (hpre : pre.length % 2 = 0) (csum : U16) :
    (words (pre ++ storeCsum seg csum)).sum = (words (pre ++ storeCsum seg 0)).sum + swap csum.toNat := by
  have htake : (seg.take 16).length % 2 = 0 := by rw [List.length_take_of_le (by omega)]
  have hfield : ∀ c : U16, (words (pre ++ storeCsum seg c)).sum =
      (words pre).sum + ((words (seg.take 16)).sum + ((words [c.setWidth 8, (c >>> 8).setWidth 8]).sum + (words (seg.drop 18)).sum)) := by
    intro c
    have hpair : [(c.setWidth 8 : U8), (c >>> 8).setWidth 8].length % 2 = 0 := by rw [List.length_cons, List.length_singleton]
    rw [storeCsum_eq h, OnesComplement.words_append hpre, OnesComplement.words_append htake, OnesComplement.words_append hpair,
      List.sum_append, List.sum_append, List.sum_append]
  have hcsum := csum.isLt
  have hword : (words [csum.setWidth 8, (csum >>> 8).setWidth 8]).sum = swap csum.toNat := by
    rw [words, words, List.sum_singleton, BitVec.toNat_setWidth, BitVec.toNat_setWidth, BitVec.toNat_ushiftRight,
      Nat.shiftRight_eq_div_pow, swap]
    omega
  have hzero : (words [(0 : U16).setWidth 8, ((0 : U16) >>> 8).setWidth 8]).sum = 0 := rfl
  rw [hfield csum, hfield 0, hword, hzero]
  omega

namespace AddrPair

variable (a : AddrPair)

theorem length_addrBytes : a.addrBytes.length % 2 = 0 ∧ a.addrBytes.length ≤ 32 := by
  cases a with
  | v4 saddr daddr =>
    have hlength : (v4 saddr daddr).addrBytes.length = 8 := rfl
    rw [hlength]
    decide
  | v6 saddr daddr =>
    rw [addrBytes, List.length_append, Vector.length_toList, Vector.length_toList]
    decide

theorem length_lenBytes (len : Nat) : (a.lenBytes len).length % 2 = 0 ∧ (a.lenBytes len).length ≤ 8 := by
  cases a with
  | v4 saddr daddr =>
    have hlength : ((v4 saddr daddr).lenBytes len).length = 4 := rfl
    rw [hlength]
    decide
  | v6 saddr daddr =>
    have hlength : ((v6 saddr daddr).lenBytes len).length = 8 := rfl
    rw [hlength]
    decide

/-- The two layers together sum the pseudo-header. -/
theorem pseudoHeader_eq {len : Nat} (h : len < 65536) : a.pseudoHeader len = a.addrBytes ++ a.lenBytes len := by
  cases a with
  | v4 saddr daddr =>
    have hhigh : ((BitVec.ofNat 32 len >>> 8).setWidth 8 : U8) = BitVec.ofNat 8 (len / 256) := by
      apply BitVec.eq_of_toNat_eq
      rw [BitVec.toNat_setWidth, BitVec.toNat_ushiftRight, BitVec.toNat_ofNat, BitVec.toNat_ofNat, Nat.shiftRight_eq_div_pow]
      omega
    have hlow : ((BitVec.ofNat 32 len).setWidth 8 : U8) = BitVec.ofNat 8 len := by
      apply BitVec.eq_of_toNat_eq
      rw [BitVec.toNat_setWidth, BitVec.toNat_ofNat, BitVec.toNat_ofNat]
      omega
    rw [pseudoHeader, addrBytes, lenBytes, tcpV4Pseudo, hhigh, hlow]
  | v6 saddr daddr => rfl

theorem tcpPartion_eq (seg : List U8) :
    a.tcpPartion seg =
      (sumEvery16bits (a.lenBytes seg.length) 0 (a.lenBytes seg.length).length + sumEvery16bits seg 0 seg.length).toInt := by
  cases a with
  | v4 saddr daddr => rfl
  | v6 saddr daddr => rfl

theorem ipPartion_eq (csum : U32) :
    a.ipPartion csum = (checksum a.addrBytes 0 a.addrBytes.length (BitVec.ofInt 32 csum.toInt)).toNat := by
  cases a with
  | v4 saddr daddr => rfl
  | v6 saddr daddr =>
    have hlength : (saddr.toList ++ daddr.toList).length = 32 := by
      rw [List.length_append, Vector.length_toList, Vector.length_toList]
    rw [ipPartion, tcpV6IpPartionChecksum, addrBytes, hlength]

/-- The little-endian words of the pseudo-header and the segment, in parts. -/
theorem sum_wordsLe_parts {seg : List U8} (h : seg.length < 65536) :
    (wordsLe (a.pseudoHeader seg.length ++ seg)).sum = (wordsLe a.addrBytes).sum + (wordsLe (a.lenBytes seg.length ++ seg)).sum := by
  rw [pseudoHeader_eq a h, List.append_assoc, OnesComplement.wordsLe_append (length_addrBytes a).1, List.sum_append]

/-- Up to 65495 bytes the sum stays below the sign bit. -/
theorem sum_wordsLe_lt {seg : List U8} (hmax : seg.length ≤ 65495) :
    (wordsLe (a.pseudoHeader seg.length ++ seg)).sum < 2 ^ 31 := by
  have hbound := OnesComplement.sum_wordsLe_le (a.pseudoHeader seg.length ++ seg)
  have haddr := (length_addrBytes a).2
  have hlen := (length_lenBytes a seg.length).2
  rw [pseudoHeader_eq a (by omega)] at hbound ⊢
  rw [List.length_append, List.length_append] at hbound
  omega

/-- **The first layer** returns the sum itself. -/
theorem tcpPartion_exact {seg : List U8} (hmax : seg.length ≤ 65495) :
    a.tcpPartion seg = (wordsLe (a.lenBytes seg.length ++ seg)).sum := by
  have hlt := sum_wordsLe_lt a hmax
  have hparts := sum_wordsLe_parts a (Nat.lt_of_le_of_lt hmax (by decide))
  have hsum : sumEvery16bits (a.lenBytes seg.length) 0 (a.lenBytes seg.length).length + sumEvery16bits seg 0 seg.length =
      BitVec.ofNat 32 (wordsLe (a.lenBytes seg.length ++ seg)).sum := by
    rw [sumEvery16bits_eq, sumEvery16bits_eq, ← BitVec.ofNat_add, ← List.sum_append,
      ← OnesComplement.wordsLe_append (length_lenBytes a _).1]
  have hnat : (BitVec.ofNat 32 (wordsLe (a.lenBytes seg.length ++ seg)).sum).toNat = (wordsLe (a.lenBytes seg.length ++ seg)).sum := by
    rw [BitVec.toNat_ofNat]
    exact Nat.mod_eq_of_lt (by omega)
  rw [tcpPartion_eq, hsum, BitVec.toInt_eq_toNat_of_lt (by rw [hnat]; omega), hnat]

/-- **The second layer** goes on from that sum. -/
theorem sum_exact {seg : List U8} (hmax : seg.length ≤ 65495) :
    (BitVec.ofInt 32 (a.tcpPartion seg) + sumEvery16bits a.addrBytes 0 a.addrBytes.length).toNat =
      (wordsLe (a.pseudoHeader seg.length ++ seg)).sum := by
  have hlt := sum_wordsLe_lt a hmax
  have hparts := sum_wordsLe_parts a (Nat.lt_of_le_of_lt hmax (by decide))
  rw [tcpPartion_exact a hmax, BitVec.ofInt_natCast, sumEvery16bits_eq, ← BitVec.ofNat_add, BitVec.toNat_ofNat,
    Nat.add_comm, ← hparts]
  exact Nat.mod_eq_of_lt (by omega)

/-- What the second layer stores. -/
theorem ipPartion_exact {seg : List U8} (hmax : seg.length ≤ 65495) :
    a.ipPartion (BitVec.ofInt 32 (a.tcpPartion seg)) =
      ((65535 - fold (wordsLe (a.pseudoHeader seg.length ++ seg)).sum : Nat) : Int) := by
  rw [ipPartion_eq, BitVec.ofInt_toInt, toNat_checksum, sum_exact a hmax]

/-- The protocol number is in every sum. -/
theorem sum_words_ne_zero {len : Nat} (h : len < 65536) (seg : List U8) : (words (a.pseudoHeader len ++ seg)).sum ≠ 0 := by
  have hproto : (words (a.lenBytes len)).sum ≠ 0 := by
    cases a with
    | v4 saddr daddr =>
      show 6 + (_ + 0) ≠ 0
      omega
    | v6 saddr daddr =>
      show _ + (_ + (0 + (6 + 0))) ≠ 0
      omega
  rw [pseudoHeader_eq a h, List.append_assoc, OnesComplement.words_append (length_addrBytes a).1,
    OnesComplement.words_append (length_lenBytes a len).1, List.sum_append, List.sum_append]
  omega

/-- **A segment's checksum is right**: the field holds the checksum of the
pseudo-header and the segment, whoever sums them gets all ones, and the sums in
both layers are the sums, without the wrap of an addition or the sign of an
`int`. -/
structure ChecksumRight (seg : List U8) : Prop where
  stored : (be16 (a.emitted seg) 16).toNat = OnesComplement.checksum (a.pseudoHeader seg.length ++ storeCsum seg 0)
  verifies : OnesComplement.sum (words (a.pseudoHeader seg.length ++ a.emitted seg)) = 65535
  others : ∀ i, i ≠ 16 → i ≠ 17 → (a.emitted seg)[i]? = seg[i]?
  partionExact : a.tcpPartion (storeCsum seg 0) = (wordsLe (a.lenBytes seg.length ++ storeCsum seg 0)).sum
  sumExact : (BitVec.ofInt 32 (a.tcpPartion (storeCsum seg 0)) + sumEvery16bits a.addrBytes 0 a.addrBytes.length).toNat =
    (wordsLe (a.pseudoHeader seg.length ++ storeCsum seg 0)).sum

/-- **Split TCP checksum**: it is right for every segment of 20 to 65495 bytes. -/
theorem split_checksum (seg : List U8) (hmin : 20 ≤ seg.length) (hmax : seg.length ≤ 65495) : a.ChecksumRight seg := by
  have hlength : (storeCsum seg 0).length = seg.length := length_storeCsum seg 0
  have hmax' : (storeCsum seg 0).length ≤ 65495 := by rwa [hlength]
  have hpseudo : (a.pseudoHeader seg.length).length % 2 = 0 := by
    rw [pseudoHeader_eq a (by omega), List.length_append, Nat.add_mod, (length_addrBytes a).1, (length_lenBytes a _).1]
  have hpartion := ipPartion_exact a hmax'
  have hpartionExact := tcpPartion_exact a hmax'
  have hsumExact := sum_exact a hmax'
  rw [hlength] at hpartion hpartionExact hsumExact
  -- the message with the field cleared, and what its checksum stores
  generalize hm : a.pseudoHeader seg.length ++ storeCsum seg 0 = m at hpartion hsumExact
  have hle := OnesComplement.fold_le (wordsLe m).sum
  obtain ⟨csum, hemitted, hcsum⟩ : ∃ csum : U16, a.emitted seg = storeCsum seg csum ∧ csum.toNat = 65535 - fold (wordsLe m).sum := by
    refine ⟨BitVec.ofNat 16 (65535 - fold (wordsLe m).sum), ?_, ?_⟩
    · rw [emitted, hpartion, BitVec.ofInt_natCast, storeCsum_storeCsum]
    · rw [BitVec.toNat_ofNat]
      exact Nat.mod_eq_of_lt (by omega)
  have hswap : swap csum.toNat = OnesComplement.checksum m := by rw [hcsum, OnesComplement.swap_checksum]
  refine ⟨?_, ?_, ?_, hpartionExact, hm ▸ hsumExact⟩
  · rw [hemitted, be16_storeCsum hmin, hswap, hm]
  · have hwords := OnesComplement.words_le (a.pseudoHeader seg.length ++ storeCsum seg csum)
    rw [hemitted, OnesComplement.sum_eq_fold hwords, sum_words_storeCsum hmin hpseudo, hm, hswap, OnesComplement.checksum,
      OnesComplement.sum_eq_fold (OnesComplement.words_le m)]
    exact OnesComplement.fold_complement (hm ▸ sum_words_ne_zero a (by omega) _)
  · rintro i hfirst hsecond
    rw [hemitted, storeCsum, List.getElem?_set_ne (Ne.symm hsecond), List.getElem?_set_ne (Ne.symm hfirst)]

/-- A segment of odd length, with every byte set. -/
theorem split_checksum_odd :
    (be16 ((v4 0x0a000005 0x0a000001).emitted (List.replicate 21 0xff)) 16).toNat = 0xecdd ∧
      (v4 0x0a000005 0x0a000001).ChecksumRight (List.replicate 21 0xff) :=
  ⟨by decide, split_checksum _ _ (by decide) (by decide)⟩

end AddrPair

end LevelIp
