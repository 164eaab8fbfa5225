/-
A segment as the bytes of a frame, and the frame on its way through
`netdev_receive`, `ip_rcv` or `ipv6_rcv`, and `tcp_in` or `tcp_in_v6`. IP finds
nothing to drop, and the socket is given the segment that was sent.
-/
import LevelIp.ChainTcp
import LevelIp.EchoReply4
import LevelIp.IcmpErrors
import LevelIp.NdpReads
import LevelIp.OptionWriting
import LevelIp.PureAcks
import LevelIp.TxGeometry
import LevelIp.UdpChecksum

namespace LevelIp

open OnesComplement (words wordsLe fold)

/-! ## The segment -/

/-- The byte of `rsvd`, which is zero, and `hl`. -/
def hlByte (hl : BitVec 4) : U8 := hl ++ (0 : BitVec 4)

/-- The byte of the flags, from `fin` up. -/
def flagByte (fin syn rst psh ack : Bool) : U8 := BitVec.ofBoolListLE [fin, syn, rst, psh, ack, false, false, false]

namespace Seg

/-- The bytes of the segment, with `csum` zero. -/
def wire (seg : Seg) : List U8 :=
  be16Bytes seg.sport ++ be16Bytes seg.dport ++ be32Bytes seg.seq ++ be32Bytes seg.ackSeq ++
    [hlByte (BitVec.ofNat 4 (5 + seg.opts.length / 4)), flagByte seg.fin seg.syn seg.rst seg.psh seg.ack] ++ be16Bytes seg.win ++
    [0, 0, 0, 0] ++ seg.opts ++ seg.payload.bytes

/-- What a segment needs to be told from its bytes: its options are whole words
that `hl` can count and come without text, and IP can say how long it is. -/
structure Sound (seg : Seg) : Prop where
  whole : 4 ∣ seg.opts.length
  few : seg.opts.length ≤ 40
  bare : seg.opts = [] ∨ seg.payload.bytes = []
  short : 20 + seg.opts.length + seg.payload.bytes.length ≤ 65495

theorem length_wire (seg : Seg) : seg.wire.length = 20 + seg.opts.length + seg.payload.bytes.length := by
  simp only [wire, be16Bytes, be32Bytes, le32Bytes, List.length_append, List.length_cons, List.length_nil, List.length_reverse]

end Seg

/-! ### Fields -/

theorem be16_be16Bytes (x : U16) (rest : List U8) : be16 (be16Bytes x ++ rest) 0 = x := by
  simp only [be16, be16Bytes, List.cons_append, List.nil_append, List.getD_cons_zero, List.getD_cons_succ]
  ext i hi
  simp only [BitVec.getElem_or, BitVec.getElem_shiftLeft, BitVec.getElem_setWidth, BitVec.getLsbD_setWidth, BitVec.getLsbD_ushiftRight]
  grind

theorem hiNibble_hlByte (hl : BitVec 4) : hiNibble (hlByte hl) = hl := by
  revert hl
  decide

theorem getLsbD_flagByte (fin syn rst psh ack : Bool) (i : Nat) :
    (flagByte fin syn rst psh ack).getLsbD i = [fin, syn, rst, psh, ack, false, false, false].getD i false :=
  BitVec.getLsbD_ofBoolListLE

namespace Seg

variable (seg : Seg)

/-- **The header is read back**, whatever its checksum. -/
theorem tcphdrAt_wire (csum : U16) : tcphdrAt (storeCsum seg.wire csum) 0 = seg.tcphdr := by
  have hsport : be16 (storeCsum seg.wire csum) 0 = seg.sport := be16_be16Bytes seg.sport []
  have hdport : be16 (storeCsum seg.wire csum) 2 = seg.dport := be16_be16Bytes seg.dport []
  have hseq : be32 (storeCsum seg.wire csum) 4 = seg.seq := be32_toBe32 seg.seq []
  have hack : be32 (storeCsum seg.wire csum) 8 = seg.ackSeq := be32_toBe32 seg.ackSeq []
  have hhl : (storeCsum seg.wire csum).getD 12 0 = hlByte (BitVec.ofNat 4 (5 + seg.opts.length / 4)) := rfl
  have hflags : (storeCsum seg.wire csum).getD 13 0 = flagByte seg.fin seg.syn seg.rst seg.psh seg.ack := rfl
  have hwin : be16 (storeCsum seg.wire csum) 14 = seg.win := be16_be16Bytes seg.win []
  have hdata : (storeCsum seg.wire csum).drop 20 = seg.opts ++ seg.payload.bytes := rfl
  unfold tcphdrAt
  rw [Nat.zero_add, Nat.zero_add, Nat.zero_add, Nat.zero_add, Nat.zero_add, Nat.zero_add, Nat.zero_add, hsport, hdport, hseq, hack, hhl, hflags,
    hwin, hdata, hiNibble_hlByte]
  simp only [getLsbD_flagByte]
  rfl

theorem drop_wire (csum : U16) : (storeCsum seg.wire csum).drop 20 = seg.opts ++ seg.payload.bytes := rfl

end Seg

/-! ## The packet -/

/-- The IPv4 header of a segment of `len` bytes, its checksum filled in. -/
def ipv4TcpHeader (len : Nat) (id : U16) (saddr daddr : U32) : List U8 :=
  let hdr := EchoReply4.ipv4Header (BitVec.ofNat 16 (20 + len)) id IP_TCP saddr daddr
  hdr (checksum (hdr 0) 0 20 0)

namespace AddrPair

/-- `ETH_P_IP` or `ETH_P_IPV6`. -/
def ethertype : AddrPair → U16
  | v4 _ _ => ETH_P_IP
  | v6 _ _ => ETH_P_IPV6

/-- The header of the packet that carries `len` bytes; `id` is IPv4's. -/
def ipHeader (a : AddrPair) (id : U16) (len : Nat) : List U8 :=
  match a with
  | v4 saddr daddr => ipv4TcpHeader len id saddr daddr
  | v6 saddr daddr => ErrorTx.ipv6Header (BitVec.ofNat 16 len) NEXTHDR_TCP saddr daddr

/-- The frame of a segment. -/
def frame (a : AddrPair) (hwaddr dmac : HwAddr) (id : U16) (seg : Seg) : List U8 :=
  ethHdr dmac hwaddr a.ethertype ++ (a.ipHeader id seg.wire.length ++ a.emitted seg.wire)

end AddrPair

/-! ### IPv4 -/

section v4

variable {e rest : List U8}

theorem getD_behind (h : e.length = 14) (i : Nat) : (e ++ rest).getD (14 + i) 0 = rest.getD i 0 := by
  rw [List.getD_append_right _ _ _ _ (by omega), h, Nat.add_sub_cancel_left]

theorem be16_behind (h : e.length = 14) (i : Nat) : be16 (e ++ rest) (14 + i) = be16 rest i := by
  rw [be16, getD_behind h, Nat.add_assoc, getD_behind h, be16]

theorem be32_behind (h : e.length = 14) (i : Nat) : be32 (e ++ rest) (14 + i) = be32 rest i := by
  rw [← h]
  exact be32_skip e rest i

/-- The words of the header but for the checksum. -/
theorem sum_ipv4Header (len id : U16) (proto : U8) (saddr daddr : U32) (csum : U16) :
    (wordsLe (EchoReply4.ipv4Header len id proto saddr daddr csum)).sum =
      (wordsLe (EchoReply4.ipv4Header len id proto saddr daddr 0)).sum + csum.toNat := by
  have hword : (csum.setWidth 8 : U8).toNat + 256 * ((csum >>> 8).setWidth 8 : U8).toNat = csum.toNat := by
    have hcsum := csum.isLt
    rw [BitVec.toNat_setWidth, BitVec.toNat_setWidth, BitVec.toNat_ushiftRight, Nat.shiftRight_eq_div_pow]
    omega
  simp only [EchoReply4.ipv4Header, be16Bytes, le16Bytes, be32Bytes, le32Bytes, List.reverse_cons, List.reverse_nil, List.nil_append,
    List.cons_append, wordsLe, List.sum_cons, List.sum_nil]
  have hzero : ((0 : U16).setWidth 8 : U8).toNat + 256 * (((0 : U16) >>> 8).setWidth 8 : U8).toNat = 0 := rfl
  omega

/-- **The header verifies**: with its checksum in it, the checksum is zero. -/
theorem checksum_ipv4Header (len id : U16) (proto : U8) (saddr daddr : U32) :
    checksum (EchoReply4.ipv4Header len id proto saddr daddr (checksum (EchoReply4.ipv4Header len id proto saddr daddr 0) 0 20 0)) 0 20 0 = 0 := by
  have hlen : ∀ c, (EchoReply4.ipv4Header len id proto saddr daddr c).length = 20 := fun _ => rfl
  have hsum : ∀ c, (checksum (EchoReply4.ipv4Header len id proto saddr daddr c) 0 20 0).toNat =
      65535 - fold (wordsLe (EchoReply4.ipv4Header len id proto saddr daddr c)).sum := fun c => by
    have h := toNat_checksum_wordsLe (m := EchoReply4.ipv4Header len id proto saddr daddr c) (by rw [hlen]; decide)
    rwa [hlen] at h
  have hne : (wordsLe (EchoReply4.ipv4Header len id proto saddr daddr 0)).sum ≠ 0 := by
    have hfirst : (0x45 : U8).toNat + 256 * (0 : U8).toNat = 69 := rfl
    show (0x45 : U8).toNat + 256 * (0 : U8).toNat + _ ≠ 0
    omega
  have hzero := hsum (checksum (EchoReply4.ipv4Header len id proto saddr daddr 0) 0 20 0)
  rw [sum_ipv4Header, hsum 0, OnesComplement.fold_complement hne] at hzero
  exact BitVec.eq_of_toNat_eq hzero

/-- The header as `ip_rcv` reads it. -/
theorem ipHdr_behind (h : e.length = 14) (len id : U16) (proto : U8) (saddr daddr : U32) (csum : U16) :
    ipHdr (e ++ (EchoReply4.ipv4Header len id proto saddr daddr csum ++ rest)) =
      { version := IPV4, ihl := 5, len := len, ttl := 64, proto := proto, saddr := saddr, daddr := daddr } := by
  have hlen : be16 (EchoReply4.ipv4Header len id proto saddr daddr csum ++ rest) 2 = len := be16_be16Bytes len []
  have hsaddr : be32 (EchoReply4.ipv4Header len id proto saddr daddr csum ++ rest) 12 = saddr := be32_toBe32 saddr []
  have hdaddr : be32 (EchoReply4.ipv4Header len id proto saddr daddr csum ++ rest) 16 = daddr := be32_toBe32 daddr []
  have hfirst : (e ++ (EchoReply4.ipv4Header len id proto saddr daddr csum ++ rest)).getD 14 0 = 0x45 := getD_behind h 0
  have hversion : hiNibble 0x45 = IPV4 := by decide
  have hihl : loNibble 0x45 = 5 := by decide
  unfold ipHdr ETH_HDR_LEN
  rw [be16_behind h, be32_behind h, be32_behind h, getD_behind h, getD_behind h, hlen, hsaddr, hdaddr, hfirst, hversion, hihl]
  rfl

/-- The checksum that `ip_rcv` computes of the header. -/
theorem checksum_behind (h : e.length = 14) (len id : U16) (proto : U8) (saddr daddr : U32) :
    checksum (e ++ (EchoReply4.ipv4Header len id proto saddr daddr (checksum (EchoReply4.ipv4Header len id proto saddr daddr 0) 0 20 0) ++
      rest)) ETH_HDR_LEN 20 0 = 0 := by
  refine (checksum_congr (fun i hi => ?_) 0).trans (checksum_ipv4Header len id proto saddr daddr)
  generalize hfilled : EchoReply4.ipv4Header len id proto saddr daddr
    (checksum (EchoReply4.ipv4Header len id proto saddr daddr 0) 0 20 0) = hdr
  show (e ++ (hdr ++ rest)).getD (14 + i) 0 = hdr.getD (0 + i) 0
  have hlen : hdr.length = 20 := by
    rw [← hfilled]
    rfl
  rw [getD_behind h, Nat.zero_add, List.getD_append _ _ _ _ (by rw [hlen]; exact hi)]

/-- **An IPv4 packet** with a TCP segment reaches `tcp_in`. -/
theorem ipRcv_ipv4Tcp (h : e.length = 14) (len : Nat) (id : U16) (saddr daddr : U32) :
    ipRcv (e ++ (ipv4TcpHeader len id saddr daddr ++ rest)) = .tcpIn := by
  have hdr : ipHdr (e ++ (ipv4TcpHeader len id saddr daddr ++ rest)) = _ := ipHdr_behind h (BitVec.ofNat 16 (20 + len)) id IP_TCP saddr daddr
    (checksum (EchoReply4.ipv4Header (BitVec.ofNat 16 (20 + len)) id IP_TCP saddr daddr 0) 0 20 0)
  have hsum : checksum (e ++ (ipv4TcpHeader len id saddr daddr ++ rest)) ETH_HDR_LEN 20 0 = 0 := checksum_behind h _ _ _ _ _
  unfold ipRcv
  rw [hdr]
  have hihl : (5 : BitVec 4).toNat * 4 = 20 := rfl
  dsimp only
  rw [hihl, hsum]
  rfl

end v4

/-! ### The frame -/

theorem toList_fieldOf {n : Nat} {bytes : List U8} (h : bytes.length = n) : (fieldOf bytes : Vector U8 n).toList = bytes := by
  refine List.ext_getElem (by rw [Vector.length_toList, h]) fun i h1 h2 => ?_
  simp [fieldOf, h2]

/-- The ethertype of a frame. -/
theorem be16_ethHdr (dmac hwaddr : HwAddr) (ethertype : U16) (rest : List U8) : be16 (ethHdr dmac hwaddr ethertype ++ rest) 12 = ethertype := by
  have hlen : (dmac.toList ++ hwaddr.toList).length = 12 := by simp
  unfold ethHdr
  rw [List.append_assoc, Packet6.be16_skip (by rw [hlen]), hlen]
  exact be16_be16Bytes ethertype rest

namespace Packet6

/-- The packet of an IPv6 segment. -/
def tcp (hwaddr dmac : HwAddr) (saddr daddr : In6Addr) (payload : List U8) : Packet6 where
  eth := fieldOf (ethHdr dmac hwaddr ETH_P_IPV6)
  vtcFlow := fieldOf [0x60, 0, 0, 0]
  hopLimit := IPV6_DEFAULT_HOPLIMIT
  saddr := saddr
  daddr := daddr
  proto := NEXTHDR_TCP
  payload := payload

theorem lenBytes_eq (n : Nat) : lenBytes n = be16Bytes (BitVec.ofNat 16 n) := by
  have hhigh : BitVec.ofNat 8 (n / 256) = ((BitVec.ofNat 16 n >>> 8).setWidth 8 : U8) := by
    apply BitVec.eq_of_toNat_eq
    rw [BitVec.toNat_setWidth, BitVec.toNat_ushiftRight, BitVec.toNat_ofNat, BitVec.toNat_ofNat, Nat.shiftRight_eq_div_pow]
    omega
  have hlow : BitVec.ofNat 8 n = ((BitVec.ofNat 16 n).setWidth 8 : U8) := by
    apply BitVec.eq_of_toNat_eq
    rw [BitVec.toNat_setWidth, BitVec.toNat_ofNat, BitVec.toNat_ofNat]
    omega
  rw [lenBytes, be16Bytes, hhigh, hlow]

theorem bare_tcp (hwaddr dmac : HwAddr) (saddr daddr : In6Addr) (payload : List U8) :
    (tcp hwaddr dmac saddr daddr payload).bare =
      ethHdr dmac hwaddr ETH_P_IPV6 ++ (ErrorTx.ipv6Header (BitVec.ofNat 16 payload.length) NEXTHDR_TCP saddr daddr ++ payload) := by
  have heth : (fieldOf (ethHdr dmac hwaddr ETH_P_IPV6) : Vector U8 14).toList = ethHdr dmac hwaddr ETH_P_IPV6 :=
    toList_fieldOf (length_ethHdr _ _ _)
  have hflow : (fieldOf [0x60, 0, 0, 0] : Vector U8 4).toList = [0x60, 0, 0, 0] := toList_fieldOf rfl
  simp only [bare, withChain, tcp, heth, hflow, List.length_nil, Nat.add_zero, lenBytes_eq, ErrorTx.ipv6Header]
  simp

end Packet6

/-- `tcp_in` up to its lookup: the segment on its way to a socket. -/
def segmentAtV4 (m : List U8) : Event :=
  let r := tcpInAt m
  .segment r.hdr (r.skbData m) r.hdr.psh

/-- The addresses that `inet_lookup` or `inet6_lookup` is given for a frame, and
the segment. -/
def arrival (m : List U8) : Option (AddrPair × Event) :=
  match netdevReceive m with
  | .tcpIn => some (.v4 (ipHdr m).saddr (ipHdr m).daddr, segmentAtV4 m)
  | .tcpInV6 payload => some (.v6 (ipv6Hdr m).saddr (ipv6Hdr m).daddr, segmentAt m payload)
  | _ => none

namespace Seg

variable {seg : Seg} {m : List U8} {th : Nat} {csum : U16}

/-- The header at its place in the frame. -/
theorem tcphdrAt_frame (h : m.drop th = storeCsum seg.wire csum) : tcphdrAt m th = seg.tcphdr := by
  rw [← tcphdrAt_wire seg csum, ← h]
  refine tcphdrAt_congr (fun i _ => ?_) ?_
  · rw [getD_drop, Nat.zero_add]
  · rw [List.drop_drop, Nat.zero_add]

/-- The text at its place in the frame. -/
theorem Sound.skbData (hs : seg.Sound) (th : Nat) (h : m.drop th = storeCsum seg.wire csum) {r : Received} (hp : r.payload = th + 20)
    (hd : r.dlen = seg.payload.len) : r.skbData m = seg.payload := by
  have hshort := seg.payload.short
  have hnat : r.dlen.toNat = seg.payload.bytes.length := by rw [hd, Payload.len_toNat]
  have hn : (r.dlen.setWidth 16).toNat = seg.payload.bytes.length := by
    rw [BitVec.toNat_setWidth, hnat]
    omega
  have hbehind : ∀ i, m.getD (th + 20 + i) 0 = (seg.opts ++ seg.payload.bytes).getD i 0 := fun i => by
    rw [← getD_drop, ← List.drop_drop, h, drop_wire]
  have hcopy : copyOut m (th + 20) seg.payload.bytes.length = seg.payload.bytes := by
    refine List.ext_getElem (by simp [copyOut]) fun i h1 h2 => ?_
    simp only [copyOut, List.getElem_map, List.getElem_range, hbehind]
    rcases hs.bare with hopts | hnone
    · rw [hopts, List.nil_append, List.getD_eq_getElem _ _ h2]
    · rw [hnone] at h2
      cases h2
  have hbytes : (r.skbData m).bytes = seg.payload.bytes := by
    rw [Received.skbData, Payload.ofTake_bytes, hn, hp, hnat, hcopy, List.take_length]
  cases hx : r.skbData m with
  | mk bytes short =>
    cases hy : seg.payload with
    | mk bytes' short' =>
      rw [hx, hy] at hbytes
      cases hbytes
      rfl

end Seg

namespace AddrPair

variable (a : AddrPair) (hwaddr dmac : HwAddr) (id : U16) {seg : Seg}

/-- What IP hands down is the segment with some checksum. -/
theorem exists_emitted (seg : List U8) : ∃ csum, a.emitted seg = storeCsum seg csum := ⟨_, storeCsum_storeCsum _ _ _⟩

theorem length_emitted (seg : List U8) : (a.emitted seg).length = seg.length := by
  obtain ⟨csum, h⟩ := a.exists_emitted seg
  rw [h, length_storeCsum]

/-- Where the segment is in the frame. -/
def segAt : AddrPair → Nat
  | v4 _ _ => 34
  | v6 _ _ => 54

theorem drop_frame (seg : Seg) : (a.frame hwaddr dmac id seg).drop a.segAt = a.emitted seg.wire := by
  unfold frame
  rw [← List.append_assoc]
  refine List.drop_left' ?_
  cases a with
  | v4 saddr daddr =>
    rw [List.length_append, length_ethHdr]
    rfl
  | v6 saddr daddr =>
    rw [List.length_append, length_ethHdr]
    simp [ipHeader, ErrorTx.ipv6Header, be16Bytes, segAt]

end AddrPair

namespace Seg.Sound

variable {seg : Seg}

theorem length_wire (hs : seg.Sound) : seg.wire.length ≤ 65495 := by
  have hshort := hs.short
  rw [Seg.length_wire]
  exact hshort

/-- `tcp_hlen`, for the receiver. -/
theorem tcpHlen (hs : seg.Sound) : LevelIp.tcpHlen seg.tcphdr = 20 + seg.opts.length := by
  have hfew := hs.few
  obtain ⟨k, hk⟩ := hs.whole
  rw [tcpHlen_eq]
  show 4 * (BitVec.ofNat 4 (5 + seg.opts.length / 4)).toNat = _
  rw [BitVec.toNat_ofNat]
  omega

theorem arrival_v4 (hs : seg.Sound) (hwaddr dmac : HwAddr) (id : U16) (saddr daddr : U32) :
    arrival ((AddrPair.v4 saddr daddr).frame hwaddr dmac id seg) =
      some (.v4 saddr daddr, .segment seg.tcphdr seg.payload seg.psh) := by
  obtain ⟨csum, hcsum⟩ := (AddrPair.v4 saddr daddr).exists_emitted seg.wire
  have hdrop := (AddrPair.v4 saddr daddr).drop_frame hwaddr dmac id seg
  have hip : ipHdr ((AddrPair.v4 saddr daddr).frame hwaddr dmac id seg) =
      { version := IPV4, ihl := 5, len := BitVec.ofNat 16 (20 + seg.wire.length), ttl := 64, proto := IP_TCP, saddr := saddr,
        daddr := daddr } := ipHdr_behind (length_ethHdr dmac hwaddr ETH_P_IP) _ id IP_TCP saddr daddr _
  have htype : be16 ((AddrPair.v4 saddr daddr).frame hwaddr dmac id seg) 12 = ETH_P_IP := be16_ethHdr dmac hwaddr ETH_P_IP _
  have hrcv : ipRcv ((AddrPair.v4 saddr daddr).frame hwaddr dmac id seg) = .tcpIn :=
    ipRcv_ipv4Tcp (length_ethHdr dmac hwaddr ETH_P_IP) seg.wire.length id saddr daddr
  generalize (AddrPair.v4 saddr daddr).frame hwaddr dmac id seg = m at hdrop hip htype hrcv
  rw [hcsum] at hdrop
  have hdev : netdevReceive m = .tcpIn := by
    unfold netdevReceive
    rw [htype, hrcv]
    rfl
  have hth : tcphdrAt m 34 = seg.tcphdr := Seg.tcphdrAt_frame hdrop
  have hdlen : (tcpInAt m).dlen = seg.payload.len := by
    have hsub : ((BitVec.ofNat 16 (20 + seg.wire.length)).toNat : Int) - (5 : BitVec 4).toNat * 4 - (20 + seg.opts.length : Nat) =
        seg.payload.bytes.length := by
      have hshort := hs.length_wire
      have hlen := seg.length_wire
      have hihl : (5 : BitVec 4).toNat = 5 := rfl
      rw [hihl, BitVec.toNat_ofNat]
      omega
    show BitVec.ofInt 32 (((ipHdr m).len.toNat : Int) - (ipHdr m).ihl.toNat * 4 - LevelIp.tcpHlen (tcphdrAt m 34)) = _
    rw [hth, hs.tcpHlen, hip, hsub, BitVec.ofInt_natCast]
    rfl
  have hdata : (tcpInAt m).skbData m = seg.payload := hs.skbData 34 hdrop rfl hdlen
  unfold arrival
  rw [hdev]
  show some (AddrPair.v4 (ipHdr m).saddr (ipHdr m).daddr, Event.segment (tcphdrAt m 34) ((tcpInAt m).skbData m) (tcphdrAt m 34).psh) = _
  rw [hip, hth, hdata]
  rfl

theorem arrival_v6 (hs : seg.Sound) (hwaddr dmac : HwAddr) (id : U16) (saddr daddr : In6Addr) :
    arrival ((AddrPair.v6 saddr daddr).frame hwaddr dmac id seg) =
      some (.v6 saddr daddr, .segment seg.tcphdr seg.payload seg.psh) := by
  obtain ⟨csum, hcsum⟩ := (AddrPair.v6 saddr daddr).exists_emitted seg.wire
  have hdrop := (AddrPair.v6 saddr daddr).drop_frame hwaddr dmac id seg
  have hlen := hs.length_wire
  have hframe : (AddrPair.v6 saddr daddr).frame hwaddr dmac id seg =
      (Packet6.tcp hwaddr dmac saddr daddr (storeCsum seg.wire csum)).bare := by
    rw [Packet6.bare_tcp, length_storeCsum, ← hcsum]
    rfl
  have htype : be16 ((AddrPair.v6 saddr daddr).frame hwaddr dmac id seg) 12 = ETH_P_IPV6 := be16_ethHdr dmac hwaddr ETH_P_IPV6 _
  rw [hcsum] at hdrop
  rw [hframe] at hdrop htype ⊢
  -- the packet has no chain, and the segment is all its payload
  generalize hp : Packet6.tcp hwaddr dmac saddr daddr (storeCsum seg.wire csum) = p at hdrop htype
  have hpayload : p.payload.length = seg.wire.length := by
    rw [← hp]
    exact length_storeCsum _ _
  have hproto : p.proto = NEXTHDR_TCP := by rw [← hp]; rfl
  have hbody : p.th = seg.tcphdr := by
    rw [← hp, Packet6.th, ← Seg.tcphdrAt_wire seg csum]
    exact congrArg (tcphdrAt · 0) (List.append_nil _)
  have hreg : p.Regular := by
    have hversion : hiNibble 0x60 = IPV6_VERSION := by decide
    rw [← hp]
    exact ⟨hversion, by show IPV6_DEFAULT_HOPLIMIT ≠ 0; decide⟩
  have hacc : p.Accepts p.proto [] := Packet6.accepts_bare (by rw [hproto]; decide) (by omega)
  have htcp : p.Tcp6 p.proto [] := by
    have hsum := seg.length_wire
    refine ⟨hacc, hreg, hproto, by omega, ?_⟩
    rw [hbody, ← tcpHlen_eq, hs.tcpHlen]
    omega
  have hip : ipv6Hdr p.bare = _ := Packet6.ipv6Hdr_withChain p p.proto [] (by rw [hpayload, List.length_nil]; omega)
  have hdev : netdevReceive p.bare = .tcpInV6 54 := by
    have hrcv : ipv6Rcv p.bare = if p.proto = NEXTHDR_ICMPV6 then _ else _ := hacc.rcv hreg
    unfold netdevReceive
    rw [htype, hrcv, hproto]
    rfl
  have hth : tcphdrAt p.bare 54 = seg.tcphdr := Seg.tcphdrAt_frame hdrop
  have hdlen : (tcpInV6At p.bare 54).dlen = seg.payload.len := by
    have hsum := seg.length_wire
    have h : (tcpInV6At p.bare 54).dlen = _ := Packet6.dlen_withChain htcp
    rw [hbody, hpayload, ← tcpHlen_eq, hs.tcpHlen] at h
    refine h.trans (congrArg (BitVec.ofNat 32) ?_)
    omega
  have hpsh : pshSeen p.bare 54 = seg.psh := by
    have h : pshSeen p.bare 54 = p.th.psh := Packet6.pshSeen_withChain hacc
    rw [h, hbody]
    rfl
  have hdata : (tcpInV6At p.bare 54).skbData p.bare = seg.payload := hs.skbData 54 hdrop rfl hdlen
  unfold arrival
  rw [hdev]
  show some (AddrPair.v6 (ipv6Hdr p.bare).saddr (ipv6Hdr p.bare).daddr,
    Event.segment (tcphdrAt p.bare 54) ((tcpInV6At p.bare 54).skbData p.bare) (pshSeen p.bare 54)) = _
  rw [hip, hth, hdata, hpsh, ← hp]
  rfl

/-- **Frames arrive**: the socket that the addresses lead to is given the segment
that was sent. -/
theorem arrival (hs : seg.Sound) (a : AddrPair) (hwaddr dmac : HwAddr) (id : U16) :
    LevelIp.arrival (a.frame hwaddr dmac id seg) = some (a, .segment seg.tcphdr seg.payload seg.psh) := by
  cases a with
  | v4 saddr daddr => exact hs.arrival_v4 hwaddr dmac id saddr daddr
  | v6 saddr daddr => exact hs.arrival_v6 hwaddr dmac id saddr daddr

end Seg.Sound

end LevelIp
