/-
The checksums of the ICMPv6 messages that are sent. `icmpv6_checksum` sums the
pseudo-header and the message; the field makes the sum all ones, and a word that is
changed unmakes it. Solicitations and advertisements are summed with the addresses
of their header. An Echo Reply is summed with the destination of its request as the
source, for which `ipv6_output_ex` puts an address of the device when it is `::`;
and in a message of less than four bytes there is no field.
-/
import LevelIp.AddrText
import LevelIp.ChainIcmpv6
import LevelIp.IcmpErrors
import LevelIp.SplitChecksum

namespace LevelIp

open OnesComplement (words wordsLe fold)

def ICMPV6_ROUTER_SOLICIT : U8 := 133
def NDP_OPT_SLLA : U8 := 1

/-! ## Messages and frames -/

/-- `csum` in the message. -/
def storeIcmpv6Csum (msg : List U8) (csum : U16) : List U8 := (msg.set 2 (csum.setWidth 8)).set 3 ((csum >>> 8).setWidth 8)

/-- The field is zeroed and filled. -/
def fillIcmpv6Csum (saddr daddr : In6Addr) (msg : List U8) : List U8 :=
  let msg := storeIcmpv6Csum msg 0
  storeIcmpv6Csum msg (icmpv6Checksum saddr daddr msg 0 (BitVec.ofNat 16 msg.length))

/-- The frame of an ICMPv6 message. -/
def icmpv6Packet (smac dmac : HwAddr) (hopLimit : U8) (saddr daddr : In6Addr) (msg : List U8) : Packet6 where
  eth := fieldOf (ethHdr dmac smac ETH_P_IPV6)
  vtcFlow := fieldOf [0x60]
  hopLimit := hopLimit
  saddr := saddr
  daddr := daddr
  proto := NEXTHDR_ICMPV6
  payload := msg

/-- `ipv6_solnode_addr`. -/
def ipv6SolnodeAddr (target : In6Addr) : In6Addr :=
  fieldOf [0xff, 0x02, 0, 0, 0, 0, 0, 0, 0, 0, 0, 0x01, 0xff, s6Addr target 13, s6Addr target 14, s6Addr target 15]

/-- `ipv6_multicast_mac`. -/
def ipv6MulticastMac (mc6 : In6Addr) : HwAddr := fieldOf [0x33, 0x33, s6Addr mc6 12, s6Addr mc6 13, s6Addr mc6 14, s6Addr mc6 15]

/-- `ff02::2`. -/
def allRouters : In6Addr := fieldOf [0xff, 0x02, 0, 0, 0, 0, 0, 0, 0, 0, 0, 0, 0, 0, 0, 0x02]

namespace NdpTx

/-- A message of `ndp.c`, which goes out with the hop limit 255. -/
def ndpFrame (hwaddr dstMac : HwAddr) (src dst : In6Addr) (msg : List U8) : Packet6 :=
  icmpv6Packet hwaddr dstMac 255 src dst (fillIcmpv6Csum src dst msg)

/-- A link-layer address option. -/
def lladdrOpt (type : U8) (hwaddr : HwAddr) : List U8 := [type, 1] ++ hwaddr.toList

/-- `ndp_send_ns` on the device with the address `hwaddr`. -/
def ndpSendNs (hwaddr : HwAddr) (target src : In6Addr) : Packet6 :=
  let dstMc := ipv6SolnodeAddr target
  ndpFrame hwaddr (ipv6MulticastMac dstMc) src dstMc
    ([ICMPV6_NEIGHBOR_SOLICIT, 0, 0, 0, 0, 0, 0, 0] ++ target.toList ++ lladdrOpt NDP_OPT_SLLA hwaddr)

/-- `ndp_send_rs`. -/
def ndpSendRs (hwaddr : HwAddr) (src : In6Addr) : Packet6 :=
  ndpFrame hwaddr (ipv6MulticastMac allRouters) src allRouters
    ([ICMPV6_ROUTER_SOLICIT, 0, 0, 0, 0, 0, 0, 0] ++ lladdrOpt NDP_OPT_SLLA hwaddr)

/-- The reply of `ndp_ns_process` to a solicitation that `srcMac` has sent: the flags
are S and O, and the source is the target. -/
def ndpNsReply (hwaddr srcMac : HwAddr) (target replyDaddr : In6Addr) : Packet6 :=
  let dstMac := if s6Addr replyDaddr 0 = 0xff then ipv6MulticastMac replyDaddr else srcMac
  ndpFrame hwaddr dstMac target replyDaddr
    ([ICMPV6_NEIGHBOR_ADVERT, 0, 0, 0, 0x60, 0, 0, 0] ++ target.toList ++ lladdrOpt NDP_OPT_TLLA hwaddr)

end NdpTx

/-- The packet of an NS, RS or NA that the host has sent. -/
def Sent6.ndpPacket (hwaddr srcMac : HwAddr) : Sent6 → Option Packet6
  | .ns target src => some (NdpTx.ndpSendNs hwaddr target src)
  | .rs src => some (NdpTx.ndpSendRs hwaddr src)
  | .na target _ dst => some (NdpTx.ndpNsReply hwaddr srcMac target dst)
  | .packet .. => none

/-- What `ipv6_output` makes of an Echo Reply that it sends on `dev` to a next hop
with the address `dmac`. -/
def EchoReply.packet (r : EchoReply) (dev : Netdev) (dmac : HwAddr) : Packet6 :=
  icmpv6Packet dev.hwaddr dmac IPV6_DEFAULT_HOPLIMIT (dev.selectSource (some r.saddr)).2 r.daddr r.bytes

/-- `icmpv6_incoming` gets the frame, and its check finds nothing. -/
def PassesIcmpv6 (m : List U8) : Prop :=
  ∃ payload, ipv6Rcv m = .icmpv6Incoming payload ∧
    icmpv6Checksum (ipv6Hdr m).saddr (ipv6Hdr m).daddr m payload (icmpv6Len m payload) = 0

/-! ## What is asked -/

/-- `new` is `old` with another value, not congruent to it modulo 65535, in the place
of one 16-bit word. -/
def OneWordChanged (old new : List U8) : Prop :=
  new.length = old.length ∧
    ∃ i w, i < (words old).length ∧ words new = (words old).set i w ∧ w % 65535 ≠ (words old).getD i 0 % 65535

/-- The sum of the words of an address. -/
def addrSum (a : In6Addr) : Nat := (wordsLe a.toList).sum

/-- How much the sum of a reply to `m` is off, for want of a field. -/
def echoShift (m : List U8) : Nat :=
  let len := (ipv6Hdr m).payloadLen.toNat
  if len = 1 ∨ len = 2 then 1
  else if len = 3 ∧ m.getD (ETH_HDR_LEN + IPV6_HDR_LEN + 2) 0 = 0 then 255
  else 0

/-- The source that the reply to `m` is sent with makes up for what its sum is off. -/
def EchoSums (dev : Netdev) (m : List U8) : Prop :=
  let ip6h := ipv6Hdr m
  (addrSum (dev.selectSource (some ip6h.daddr)).2 + echoShift m) % 65535 = addrSum ip6h.daddr % 65535

/-- An Echo Request that is accepted. -/
def EchoAnswered (m : List U8) : Prop :=
  ∃ payload, ipv6Rcv m = .icmpv6Incoming payload ∧ m.getD payload 0 = ICMPV6_ECHO_REQUEST ∧
    icmpv6Checksum (ipv6Hdr m).saddr (ipv6Hdr m).daddr m payload (icmpv6Len m payload) = 0

/-- What has an ICMPv6 checksum. -/
inductive Icmpv6Traffic
  /-- A message that is filled in. -/
  | message (saddr daddr : In6Addr) (msg : List U8)
  /-- What `ndp.c` sends. -/
  | ndp (hwaddr srcMac : HwAddr) (sent : Sent6)
  /-- The reply to the frame `m`, if there is one, is sent on `dev`. -/
  | echo (h : Host6) (m : List U8) (dev : Netdev) (dmac : HwAddr)

namespace Icmpv6Traffic

/-- **The checksum verifies**: that of a message of 4 to 65535 bytes is 0 when it has
been filled in, and not 0 when one of the words that are summed is changed after
that; and what the host sends passes the check of `icmpv6_incoming`. -/
def Verifies : Icmpv6Traffic → Prop
  | message saddr daddr msg => 4 ≤ msg.length → msg.length ≤ 65535 →
    icmpv6Checksum saddr daddr (fillIcmpv6Csum saddr daddr msg) 0 (BitVec.ofNat 16 msg.length) = 0 ∧
      ∀ (saddr' daddr' : In6Addr) (msg' : List U8),
        OneWordChanged (saddr.toList ++ daddr.toList ++ fillIcmpv6Csum saddr daddr msg) (saddr'.toList ++ daddr'.toList ++ msg') →
        icmpv6Checksum saddr' daddr' msg' 0 (BitVec.ofNat 16 msg'.length) ≠ 0
  | ndp hwaddr srcMac sent => ∀ p, sent.ndpPacket hwaddr srcMac = some p → PassesIcmpv6 p.bare
  | echo h m dev dmac => ∀ r, (h.ipv6Input m).2 = some r → PassesIcmpv6 (r.packet dev dmac).bare

/-- What is sent has the addresses that it was summed with, or such as have the sum
that is lacking. -/
def SourceSums : Icmpv6Traffic → Prop
  | message .. => True
  | ndp .. => True
  | echo _ m dev _ => EchoAnswered m → EchoSums dev m

end Icmpv6Traffic

/-! ## The sum -/

section sums
variable {saddr daddr : In6Addr} {msg : List U8}

/-- The part of the pseudo-header that is behind the addresses. -/
def lenWords (len : U16) : Nat := (wordsLe [(0 : U8), 0, (len >>> 8).setWidth 8, len.setWidth 8, 0, 0, 0, NEXTHDR_ICMPV6]).sum

/-- The sum that is folded. -/
def icmpv6Sum (saddr daddr : In6Addr) (msg : List U8) : Nat :=
  addrSum saddr + addrSum daddr + lenWords (BitVec.ofNat 16 msg.length) + (wordsLe msg).sum

theorem sum_pseudoHeader (saddr daddr : In6Addr) (len : U16) :
    (wordsLe (pseudoHeader saddr daddr len)).sum = addrSum saddr + addrSum daddr + lenWords len := by
  have heven : ∀ a : In6Addr, a.toList.length % 2 = 0 := fun a => by rw [Vector.length_toList]
  rw [pseudoHeader, List.append_assoc, OnesComplement.wordsLe_append (heven saddr), OnesComplement.wordsLe_append (heven daddr),
    List.sum_append, List.sum_append]
  exact (Nat.add_assoc _ _ _).symm

/-- The protocol is in the sum, which is not zero for that. -/
theorem lenWords_pos (len : U16) : 0 < lenWords len := by
  have hproto : (0 : U8).toNat + 256 * NEXTHDR_ICMPV6.toNat = 14848 := rfl
  simp only [lenWords, wordsLe, List.sum_cons, List.sum_nil]
  omega

/-- The checksum is the complement of the sum: no message is too long for the
accumulator. -/
theorem toNat_icmpv6Checksum (saddr daddr : In6Addr) (msg : List U8) (hlen : msg.length ≤ 65535) :
    (icmpv6Checksum saddr daddr msg 0 (BitVec.ofNat 16 msg.length)).toNat = 65535 - fold (icmpv6Sum saddr daddr msg) := by
  have hpseudo : (pseudoHeader saddr daddr (BitVec.ofNat 16 msg.length)).length = 40 := by simp [pseudoHeader]
  have hcount : (BitVec.ofNat 16 msg.length).toNat = msg.length := by
    rw [BitVec.toNat_ofNat]
    omega
  have hle := OnesComplement.sum_wordsLe_le msg
  have hle' := OnesComplement.sum_wordsLe_le (pseudoHeader saddr daddr (BitVec.ofNat 16 msg.length))
  rw [hpseudo] at hle'
  have hsum := sumEvery16bits_eq (pseudoHeader saddr daddr (BitVec.ofNat 16 msg.length))
  rw [hpseudo] at hsum
  rw [icmpv6Checksum, hcount, hsum, toNat_checksum, sumEvery16bits_eq, ← BitVec.ofNat_add, BitVec.toNat_ofNat,
    Nat.mod_eq_of_lt (by omega), sum_pseudoHeader, icmpv6Sum]

/-- **The check** asks for a multiple of 65535. -/
theorem icmpv6Checksum_eq_zero_iff (hlen : msg.length ≤ 65535) :
    icmpv6Checksum saddr daddr msg 0 (BitVec.ofNat 16 msg.length) = 0 ↔ icmpv6Sum saddr daddr msg % 65535 = 0 := by
  have hval := toNat_icmpv6Checksum saddr daddr msg hlen
  have hle := OnesComplement.fold_le (icmpv6Sum saddr daddr msg)
  have hones := @OnesComplement.fold_eq_ones (icmpv6Sum saddr daddr msg)
  have hpos : icmpv6Sum saddr daddr msg ≠ 0 := by
    have := lenWords_pos (BitVec.ofNat 16 msg.length)
    unfold icmpv6Sum
    omega
  have hzero : (0 : U16).toNat = 0 := rfl
  rw [← BitVec.toNat_inj, hval, hzero]
  omega

/-- The words of the addresses and of the message, in network order. -/
theorem icmpv6Sum_mod (saddr daddr : In6Addr) (msg : List U8) : icmpv6Sum saddr daddr msg % 65535 =
    (256 * (words (saddr.toList ++ daddr.toList ++ msg)).sum + lenWords (BitVec.ofNat 16 msg.length)) % 65535 := by
  have heven : ∀ a : In6Addr, a.toList.length % 2 = 0 := fun a => by rw [Vector.length_toList]
  have horder := OnesComplement.sum_wordsLe_mod (saddr.toList ++ daddr.toList ++ msg)
  rw [List.append_assoc, OnesComplement.wordsLe_append (heven saddr), OnesComplement.wordsLe_append (heven daddr), List.sum_append,
    List.sum_append] at horder
  change (addrSum saddr + (addrSum daddr + (wordsLe msg).sum)) % 65535 = _ at horder
  rw [icmpv6Sum, List.append_assoc]
  omega

/-- **A changed word is found.** -/
theorem icmpv6Checksum_detects {saddr' daddr' : In6Addr} {msg' : List U8} (hlen : msg.length ≤ 65535)
    (hzero : icmpv6Checksum saddr daddr msg 0 (BitVec.ofNat 16 msg.length) = 0)
    (hchange : OneWordChanged (saddr.toList ++ daddr.toList ++ msg) (saddr'.toList ++ daddr'.toList ++ msg')) :
    icmpv6Checksum saddr' daddr' msg' 0 (BitVec.ofNat 16 msg'.length) ≠ 0 := by
  obtain ⟨hsame, i, w, hi, hwords, hne⟩ := hchange
  have hlen' : msg'.length = msg.length := by
    simp only [List.length_append, Vector.length_toList] at hsame
    omega
  have hset := OnesComplement.sum_set hi w
  have hold := icmpv6Sum_mod saddr daddr msg
  have hnew := icmpv6Sum_mod saddr' daddr' msg'
  rw [icmpv6Checksum_eq_zero_iff hlen] at hzero
  rw [ne_eq, icmpv6Checksum_eq_zero_iff (by omega)]
  rw [hlen', hwords] at hnew
  omega

end sums

/-! ## The field -/

section field
variable {saddr daddr : In6Addr} {msg : List U8}

theorem length_storeIcmpv6Csum (msg : List U8) (csum : U16) : (storeIcmpv6Csum msg csum).length = msg.length := by
  rw [storeIcmpv6Csum, List.length_set, List.length_set]

theorem length_fillIcmpv6Csum (saddr daddr : In6Addr) (msg : List U8) : (fillIcmpv6Csum saddr daddr msg).length = msg.length := by
  rw [fillIcmpv6Csum, length_storeIcmpv6Csum, length_storeIcmpv6Csum]

/-- What is in the message but for the field, and the word that is in the field. -/
theorem sum_storeIcmpv6Csum (h : 4 ≤ msg.length) (csum : U16) :
    (wordsLe (storeIcmpv6Csum msg csum)).sum = (wordsLe (msg.take 2)).sum + csum.toNat + (wordsLe (msg.drop 4)).sum := by
  obtain ⟨a, b, x, y, rest, rfl⟩ : ∃ a b x y rest, msg = a :: b :: x :: y :: rest := by
    rcases msg with _ | ⟨a, _ | ⟨b, _ | ⟨x, _ | ⟨y, rest⟩⟩⟩⟩
    · simp at h
    · simp at h
    · simp at h
    · simp at h
    · exact ⟨a, b, x, y, rest, rfl⟩
  have hcsum := csum.isLt
  have hword : (csum.setWidth 8 : U8).toNat + 256 * ((csum >>> 8).setWidth 8 : U8).toNat = csum.toNat := by
    rw [BitVec.toNat_setWidth, BitVec.toNat_setWidth, BitVec.toNat_ushiftRight, Nat.shiftRight_eq_div_pow]
    omega
  have hstore : storeIcmpv6Csum (a :: b :: x :: y :: rest) csum = a :: b :: csum.setWidth 8 :: (csum >>> 8).setWidth 8 :: rest := rfl
  have htake : (a :: b :: x :: y :: rest).take 2 = [a, b] := rfl
  have hdrop : (a :: b :: x :: y :: rest).drop 4 = rest := rfl
  rw [hstore, htake, hdrop, wordsLe, wordsLe, wordsLe, wordsLe, List.sum_cons, List.sum_cons, List.sum_singleton, hword]
  omega

/-- The field takes the sum to a multiple of 65535. -/
theorem icmpv6Sum_fill (h : 4 ≤ msg.length) (hlen : msg.length ≤ 65535) :
    icmpv6Sum saddr daddr (fillIcmpv6Csum saddr daddr msg) % 65535 = 0 := by
  generalize hz : storeIcmpv6Csum msg 0 = zeroed
  have hzlen : zeroed.length = msg.length := by rw [← hz, length_storeIcmpv6Csum]
  have hcsum := toNat_icmpv6Checksum saddr daddr zeroed (by omega)
  have hbefore := sum_storeIcmpv6Csum h 0
  have hafter := sum_storeIcmpv6Csum h (icmpv6Checksum saddr daddr zeroed 0 (BitVec.ofNat 16 zeroed.length))
  have hsame : fillIcmpv6Csum saddr daddr msg =
      storeIcmpv6Csum msg (icmpv6Checksum saddr daddr zeroed 0 (BitVec.ofNat 16 zeroed.length)) := by
    rw [fillIcmpv6Csum, hz, ← hz, storeIcmpv6Csum, storeIcmpv6Csum, storeIcmpv6Csum, List.set_comm _ _ (show 3 ≠ 2 by decide),
      List.set_set, List.set_set]
  have hfull := OnesComplement.complement_mod (icmpv6Sum saddr daddr zeroed)
  have hzero : (0 : U16).toNat = 0 := rfl
  rw [hz, hzero] at hbefore
  rw [← hcsum] at hfull
  have hsum : icmpv6Sum saddr daddr (fillIcmpv6Csum saddr daddr msg) =
      icmpv6Sum saddr daddr zeroed + (icmpv6Checksum saddr daddr zeroed 0 (BitVec.ofNat 16 zeroed.length)).toNat := by
    unfold icmpv6Sum
    rw [length_fillIcmpv6Csum, ← hzlen, hsame, hafter, hbefore]
    omega
  rw [hsum]
  exact hfull

/-- **A message that is filled in verifies.** -/
theorem icmpv6Checksum_fill (saddr daddr : In6Addr) (h : 4 ≤ msg.length) (hlen : msg.length ≤ 65535) :
    icmpv6Checksum saddr daddr (fillIcmpv6Csum saddr daddr msg) 0 (BitVec.ofNat 16 msg.length) = 0 := by
  have hfill := length_fillIcmpv6Csum saddr daddr msg
  rw [← hfill, icmpv6Checksum_eq_zero_iff (by omega)]
  exact icmpv6Sum_fill h hlen

end field

/-! ## Frames -/

/-- The check of a frame without extension headers is that of its message. -/
theorem passes_bare_iff {p : Packet6} (hproto : p.proto = NEXTHDR_ICMPV6) (hreg : p.Regular) (hlen : p.payload.length < 2 ^ 16) :
    PassesIcmpv6 p.bare ↔ icmpv6Checksum p.saddr p.daddr p.payload 0 (BitVec.ofNat 16 p.payload.length) = 0 := by
  have hend : endsChain p.proto := by
    rw [hproto]
    decide
  have hrcv : ipv6Rcv p.bare = .icmpv6Incoming 54 := by
    have h := (Packet6.accepts_bare hend hlen).rcv hreg
    rwa [if_pos hproto] at h
  have hhdr : ipv6Hdr p.bare = _ := Packet6.ipv6Hdr_withChain p p.proto [] hlen
  have hmsg : icmpv6Len p.bare 54 = BitVec.ofNat 16 p.payload.length := Packet6.icmpv6Len_withChain p p.proto [] hlen
  have hcsum : icmpv6Checksum p.saddr p.daddr p.bare 54 (BitVec.ofNat 16 p.payload.length) = _ :=
    Packet6.icmpv6Checksum_withChain p p.proto []
  rw [← hcsum]
  constructor
  · rintro ⟨payload, hin, hzero⟩
    rw [hrcv] at hin
    cases hin
    rwa [hmsg, hhdr] at hzero
  · intro hzero
    refine ⟨54, hrcv, ?_⟩
    rwa [hmsg, hhdr]

theorem passes_icmpv6Packet_iff {smac dmac : HwAddr} {hopLimit : U8} {saddr daddr : In6Addr} {msg : List U8} (hhop : hopLimit ≠ 0)
    (hlen : msg.length ≤ 65535) :
    PassesIcmpv6 (icmpv6Packet smac dmac hopLimit saddr daddr msg).bare ↔ icmpv6Sum saddr daddr msg % 65535 = 0 := by
  have hfield : (fieldOf [0x60] : Vector U8 4)[0] = 0x60 := by simp [fieldOf]
  have hversion : hiNibble ((fieldOf [0x60] : Vector U8 4)[0]) = IPV6_VERSION := by
    rw [hfield]
    decide
  have hreg : (icmpv6Packet smac dmac hopLimit saddr daddr msg).Regular := ⟨hversion, hhop⟩
  rw [passes_bare_iff rfl hreg (Nat.lt_succ_of_le hlen)]
  exact icmpv6Checksum_eq_zero_iff hlen

namespace NdpTx

theorem ndpFrame_passes {hwaddr dstMac : HwAddr} {src dst : In6Addr} {msg : List U8} (h : 4 ≤ msg.length) (hlen : msg.length ≤ 65535) :
    PassesIcmpv6 (ndpFrame hwaddr dstMac src dst msg).bare := by
  have hfill := length_fillIcmpv6Csum src dst msg
  exact (passes_icmpv6Packet_iff (by decide) (by omega)).mpr (icmpv6Sum_fill h hlen)

/-- **What `ndp.c` sends passes.** -/
theorem ndpPacket_passes {hwaddr srcMac : HwAddr} {sent : Sent6} {p : Packet6} (h : sent.ndpPacket hwaddr srcMac = some p) :
    PassesIcmpv6 p.bare := by
  cases sent with
  | ns target src =>
    cases h
    exact ndpFrame_passes (by simp [lladdrOpt]) (by simp [lladdrOpt])
  | rs src =>
    cases h
    exact ndpFrame_passes (by simp [lladdrOpt]) (by simp [lladdrOpt])
  | na target src dst =>
    cases h
    exact ndpFrame_passes (by simp [lladdrOpt]) (by simp [lladdrOpt])
  | packet auto src dst nexthdr => cases h

end NdpTx

/-! ## Echo Replies -/

section echo
variable {m : List U8} {payload : Nat}

/-- A chain has no bytes, or eight at least. -/
theorem ipv6ParseExthdrs_consumed {start plen turns : Nat} {nexthdr : U8} {consumed : Nat} {fragOff : Option U16} {r : ExthdrResult}
    (h : ipv6ParseExthdrs m start plen turns nexthdr consumed fragOff = some r) :
    r.consumed = consumed ∨ consumed + 8 ≤ r.consumed := by
  induction turns generalizing nexthdr consumed fragOff with
  | zero => cases h
  | succ turns ih =>
    unfold ipv6ParseExthdrs at h
    split at h
    · rw [← Option.some.inj h]
      exact .inl rfl
    split at h
    · dsimp only at h
      split at h
      · cases h
      · rcases ih h with hr | hr <;> omega
    split at h
    · split at h
      · cases h
      · rcases ih h with hr | hr <;> omega
    · cases h

/-- Behind a chain there are eight bytes of `payload_len` before the message. -/
theorem payload_of_short (h : ipv6Rcv m = .icmpv6Incoming payload) (hshort : (ipv6Hdr m).payloadLen.toNat < 8) : payload = 54 := by
  have hle := ipv6Rcv_payload (.inr h)
  unfold ipv6Rcv at h
  dsimp only at h
  split at h
  · cases h
  split at h
  · cases h
  split at h
  · cases h
  split at h
  · cases h
  next r hr =>
    have hkey : ETH_HDR_LEN + IPV6_HDR_LEN + r.consumed = payload := by
      split_ifs at h
      cases h
      rfl
    have h54 : ETH_HDR_LEN + IPV6_HDR_LEN = 54 := rfl
    rcases ipv6ParseExthdrs_consumed hr with hc | hc <;> omega

/-- The messages that are replied to. -/
theorem reply_iff {h : Host6} {r : EchoReply} : (h.ipv6Input m).2 = some r ↔
    ∃ payload, ipv6Rcv m = .icmpv6Incoming payload ∧ m.getD payload 0 = ICMPV6_ECHO_REQUEST ∧
      icmpv6Checksum (ipv6Hdr m).saddr (ipv6Hdr m).daddr m payload (icmpv6Len m payload) = 0 ∧ r = icmpv6EchoReply m payload := by
  constructor
  · intro hr
    unfold Host6.ipv6Input at hr
    split at hr
    next payload hrcv =>
      unfold Host6.icmpv6Incoming at hr
      dsimp only at hr
      split at hr
      · cases hr
      next hcsum =>
        split at hr
        next htype => exact ⟨payload, hrcv, htype, not_not.mp hcsum, (Option.some.inj hr).symm⟩
        · cases hr
    · cases hr
  · rintro ⟨payload, hrcv, htype, hcsum, rfl⟩
    unfold Host6.ipv6Input
    rw [hrcv]
    dsimp only
    unfold Host6.icmpv6Incoming
    dsimp only
    rw [if_neg (not_not.mpr hcsum), if_pos htype]

/-- The reply is the message that was copied, filled in. -/
theorem bytes_icmpv6EchoReply (m : List U8) (payload : Nat) :
    (icmpv6EchoReply m payload).bytes = fillIcmpv6Csum (ipv6Hdr m).daddr (ipv6Hdr m).saddr
      ((copyOut m payload (ipv6Hdr m).payloadLen.toNat).set 0 ICMPV6_ECHO_REPLY) := by
  have hlen : BitVec.ofNat 16 (storeIcmpv6Csum ((copyOut m payload (ipv6Hdr m).payloadLen.toNat).set 0 ICMPV6_ECHO_REPLY) 0).length =
      (ipv6Hdr m).payloadLen := by
    rw [length_storeIcmpv6Csum, List.length_set, copyOut, List.length_map, List.length_range, BitVec.ofNat_toNat, BitVec.setWidth_eq]
  unfold fillIcmpv6Csum
  dsimp only
  rw [hlen]
  rfl

/-- How much the words of a reply add up to more than those of the request `q`. -/
def replyShift (q : List U8) : Nat := if q.length = 1 ∨ q.length = 2 then 1 else if q.length = 3 ∧ q.getD 2 0 = 0 then 255 else 0

/-- In a message of three bytes the low byte of the checksum takes the place of the
last one. It is one less, as the type is one more, unless that is 0. -/
theorem sum_reply_three {src dst : In6Addr} {b c : U8} (hreq : icmpv6Sum src dst [ICMPV6_ECHO_REQUEST, b, c] % 65535 = 0) :
    (wordsLe (fillIcmpv6Csum dst src [ICMPV6_ECHO_REPLY, b, c])).sum =
      (wordsLe [ICMPV6_ECHO_REQUEST, b, c]).sum + if c = 0 then 255 else 0 := by
  have h128 : ICMPV6_ECHO_REQUEST.toNat = 128 := rfl
  have h129 : ICMPV6_ECHO_REPLY.toNat = 129 := rfl
  have h0 : (0 : U8).toNat = 0 := rfl
  have hc : c = 0 ↔ c.toNat = 0 := by rw [← BitVec.toNat_inj, h0]
  have hlt := c.isLt
  have hpos := lenWords_pos (BitVec.ofNat 16 3)
  -- the sum is 1 - c, as the request's is 0
  have hsums : icmpv6Sum dst src [ICMPV6_ECHO_REPLY, b, 0] + c.toNat = icmpv6Sum src dst [ICMPV6_ECHO_REQUEST, b, c] + 1 := by
    simp only [icmpv6Sum, List.length_cons, List.length_nil, wordsLe, List.sum_cons, List.sum_nil]
    omega
  have hnonzero : icmpv6Sum dst src [ICMPV6_ECHO_REPLY, b, 0] ≠ 0 := by
    simp only [icmpv6Sum, List.length_cons, List.length_nil, wordsLe, List.sum_cons, List.sum_nil]
    omega
  have hfold : fold (icmpv6Sum dst src [ICMPV6_ECHO_REPLY, b, 0]) = if c.toNat = 0 then 1 else 65536 - c.toNat := by
    refine (OnesComplement.fold_unique ?_ ?_ ?_).symm
    · split <;> omega
    · split <;> omega
    · split <;> omega
  have hcsum : (icmpv6Checksum dst src [ICMPV6_ECHO_REPLY, b, 0] 0 (BitVec.ofNat 16 3)).toNat = _ :=
    toNat_icmpv6Checksum dst src [ICMPV6_ECHO_REPLY, b, 0] (by simp)
  have hfill : fillIcmpv6Csum dst src [ICMPV6_ECHO_REPLY, b, c] =
      [ICMPV6_ECHO_REPLY, b, (icmpv6Checksum dst src [ICMPV6_ECHO_REPLY, b, 0] 0 (BitVec.ofNat 16 3)).setWidth 8] := rfl
  rw [hfill, if_congr hc rfl rfl]
  simp only [wordsLe, List.sum_cons, List.sum_nil, BitVec.toNat_setWidth]
  rw [hcsum, hfold]
  split <;> omega

/-- A reply of less than four bytes. -/
theorem sum_reply_short {src dst : In6Addr} {q : List U8} (hlen : q.length < 4) (htype : q ≠ [] → q.getD 0 0 = ICMPV6_ECHO_REQUEST)
    (hreq : icmpv6Sum src dst q % 65535 = 0) :
    (wordsLe (fillIcmpv6Csum dst src (q.set 0 ICMPV6_ECHO_REPLY))).sum = (wordsLe q).sum + replyShift q := by
  have h128 : ICMPV6_ECHO_REQUEST.toNat = 128 := rfl
  have h129 : ICMPV6_ECHO_REPLY.toNat = 129 := rfl
  rcases q with _ | ⟨a, _ | ⟨b, _ | ⟨c, _ | ⟨d, rest⟩⟩⟩⟩
  · rfl
  · obtain rfl : a = ICMPV6_ECHO_REQUEST := htype (List.cons_ne_nil _ _)
    rfl
  · obtain rfl : a = ICMPV6_ECHO_REQUEST := htype (List.cons_ne_nil _ _)
    have hfill : fillIcmpv6Csum dst src ([ICMPV6_ECHO_REQUEST, b].set 0 ICMPV6_ECHO_REPLY) = [ICMPV6_ECHO_REPLY, b] := rfl
    have hone : replyShift [ICMPV6_ECHO_REQUEST, b] = 1 := rfl
    rw [hfill, hone]
    simp only [wordsLe, List.sum_cons, List.sum_nil]
    omega
  · obtain rfl : a = ICMPV6_ECHO_REQUEST := htype (List.cons_ne_nil _ _)
    have hshift : replyShift [ICMPV6_ECHO_REQUEST, b, c] = if c = 0 then 255 else 0 := by simp [replyShift]
    rw [hshift]
    exact sum_reply_three hreq
  · simp only [List.length_cons] at hlen
    omega

/-- **The check of a reply** that is sent from `saddr` to the sender of the request
`q`. One of less than four bytes was in order itself. -/
theorem icmpv6Sum_reply {saddr src dst : In6Addr} {q : List U8} (hlen : q.length ≤ 65535)
    (htype : q ≠ [] → q.getD 0 0 = ICMPV6_ECHO_REQUEST) (hreq : q.length < 4 → icmpv6Sum src dst q % 65535 = 0) :
    icmpv6Sum saddr src (fillIcmpv6Csum dst src (q.set 0 ICMPV6_ECHO_REPLY)) % 65535 = 0 ↔
      (addrSum saddr + replyShift q) % 65535 = addrSum dst % 65535 := by
  have hsame : (fillIcmpv6Csum dst src (q.set 0 ICMPV6_ECHO_REPLY)).length = q.length := by
    rw [length_fillIcmpv6Csum, List.length_set]
  by_cases hshort : q.length < 4
  · have hsum := sum_reply_short hshort htype (hreq hshort)
    have hreq := hreq hshort
    unfold icmpv6Sum at hreq ⊢
    rw [hsame, hsum]
    omega
  · have hfill : icmpv6Sum dst src (fillIcmpv6Csum dst src (q.set 0 ICMPV6_ECHO_REPLY)) % 65535 = 0 := by
      refine icmpv6Sum_fill ?_ ?_
      · rw [List.length_set]
        omega
      · rwa [List.length_set]
    have hshift : replyShift q = 0 := by rw [replyShift, if_neg (by omega), if_neg (by omega)]
    rw [hshift]
    unfold icmpv6Sum at hfill ⊢
    omega

theorem getD_copyOut {addr len i : Nat} (h : i < len) : (copyOut m addr len).getD i 0 = m.getD (addr + i) 0 := by
  have hi : i < (copyOut m addr len).length := by simpa [copyOut] using h
  rw [List.getD_eq_getElem _ _ hi]
  simp [copyOut]

/-- A request of less than four bytes was checked as it is copied. -/
theorem icmpv6Sum_copyOut (hlen : (ipv6Hdr m).payloadLen.toNat ≤ 65535)
    (hcsum : icmpv6Checksum (ipv6Hdr m).saddr (ipv6Hdr m).daddr m 54 (icmpv6Len m 54) = 0) :
    icmpv6Sum (ipv6Hdr m).saddr (ipv6Hdr m).daddr (copyOut m 54 (ipv6Hdr m).payloadLen.toNat) % 65535 = 0 := by
  have hsize : (copyOut m 54 (ipv6Hdr m).payloadLen.toNat).length = (ipv6Hdr m).payloadLen.toNat := by simp [copyOut]
  have hwhole : icmpv6Len m 54 = (ipv6Hdr m).payloadLen := BitVec.sub_zero _
  have hsame : icmpv6Checksum (ipv6Hdr m).saddr (ipv6Hdr m).daddr (copyOut m 54 (ipv6Hdr m).payloadLen.toNat) 0 (ipv6Hdr m).payloadLen =
      icmpv6Checksum (ipv6Hdr m).saddr (ipv6Hdr m).daddr m 54 (ipv6Hdr m).payloadLen := by
    refine checksum_congr (fun i hi => ?_) _
    rw [Nat.zero_add, getD_copyOut hi]
  rw [hwhole] at hcsum
  rw [← icmpv6Checksum_eq_zero_iff (by omega), hsize, BitVec.ofNat_toNat, BitVec.setWidth_eq, hsame, hcsum]

/-- **An Echo Reply passes** exactly if the source it is sent with sums up to what its
request's destination and its shortness leave. -/
theorem echoReply_passes_iff {h : Host6} {r : EchoReply} (dev : Netdev) (dmac : HwAddr) (hr : (h.ipv6Input m).2 = some r) :
    PassesIcmpv6 (r.packet dev dmac).bare ↔ EchoSums dev m := by
  obtain ⟨payload, hrcv, htype, hcsum, rfl⟩ := reply_iff.mp hr
  have hmax := (ipv6Hdr m).payloadLen.isLt
  generalize hq : copyOut m payload (ipv6Hdr m).payloadLen.toNat = q
  have hsize : q.length = (ipv6Hdr m).payloadLen.toNat := by
    rw [← hq]
    simp [copyOut]
  have hbytes := bytes_icmpv6EchoReply m payload
  rw [hq] at hbytes
  have hlen : (icmpv6EchoReply m payload).bytes.length ≤ 65535 := by
    rw [Packet6.length_icmpv6EchoReply]
    omega
  have hhead : q ≠ [] → q.getD 0 0 = ICMPV6_ECHO_REQUEST := by
    intro hne
    have hpos := List.length_pos_iff.mpr hne
    rw [← hq, getD_copyOut (by omega), Nat.add_zero, htype]
  have hreq : q.length < 4 → icmpv6Sum (ipv6Hdr m).saddr (ipv6Hdr m).daddr q % 65535 = 0 := by
    intro hshort
    obtain rfl := payload_of_short hrcv (by omega)
    rw [← hq]
    exact icmpv6Sum_copyOut (by omega) hcsum
  have hshift : replyShift q = echoShift m := by
    unfold replyShift echoShift
    dsimp only
    rw [hsize]
    by_cases hthree : (ipv6Hdr m).payloadLen.toNat = 3
    · obtain rfl := payload_of_short hrcv (by omega)
      rw [← hq, getD_copyOut (by omega)]
      rfl
    · simp only [hthree, false_and, if_false]
  refine (passes_icmpv6Packet_iff (by decide) hlen).trans ?_
  unfold EchoSums
  dsimp only
  rw [← hshift, hbytes]
  exact icmpv6Sum_reply (by omega) hhead hreq

end echo

/-- **ICMPv6 checksums verify**, but for Echo Replies that are sent from another source
than that they were summed with, or that have no room for the field. -/
theorem icmpv6_verifies_iff (x : Icmpv6Traffic) : x.Verifies ↔ x.SourceSums := by
  cases x with
  | message saddr daddr msg =>
    refine iff_of_true (fun h hlen => ?_) trivial
    have hfill := icmpv6Checksum_fill saddr daddr h hlen
    refine ⟨hfill, fun saddr' daddr' msg' hchange => ?_⟩
    rw [← length_fillIcmpv6Csum saddr daddr msg] at hfill
    exact icmpv6Checksum_detects (by rwa [length_fillIcmpv6Csum]) hfill hchange
  | ndp hwaddr srcMac sent => exact iff_of_true (fun p hp => NdpTx.ndpPacket_passes hp) trivial
  | echo h m dev dmac =>
    constructor
    · rintro hpass ⟨payload, hrcv, htype, hcsum⟩
      have hr : (h.ipv6Input m).2 = some (icmpv6EchoReply m payload) := reply_iff.mpr ⟨payload, hrcv, htype, hcsum, rfl⟩
      exact (echoReply_passes_iff dev dmac hr).mp (hpass _ hr)
    · intro hsums r hr
      obtain ⟨payload, hrcv, htype, hcsum, -⟩ := reply_iff.mp hr
      exact (echoReply_passes_iff dev dmac hr).mpr (hsums ⟨payload, hrcv, htype, hcsum⟩)

/-- To a request that was not sent to `::` the reply has the right source. -/
theorem echoSums_iff_of_specified {dev : Netdev} {m : List U8} (h : (ipv6Hdr m).daddr ≠ in6Unspecified) :
    EchoSums dev m ↔ echoShift m = 0 := by
  have hsrc : (dev.selectSource (some (ipv6Hdr m).daddr)).2 = (ipv6Hdr m).daddr := by rw [Netdev.selectSource, if_neg h]
  have hshift : echoShift m ≤ 255 := by
    unfold echoShift
    dsimp only
    split_ifs <;> omega
  unfold EchoSums
  dsimp only
  rw [hsrc]
  omega

/-- An Echo Request of eight bytes from `fe80::1` to `::`. -/
def requestToUnspecified : List U8 :=
  let saddr : In6Addr := fieldOf [0xfe, 0x80, 0, 0, 0, 0, 0, 0, 0, 0, 0, 0, 0, 0, 0, 1]
  (icmpv6Packet netdevMac netdevMac IPV6_DEFAULT_HOPLIMIT saddr in6Unspecified
    (fillIcmpv6Csum saddr in6Unspecified [ICMPV6_ECHO_REQUEST, 0, 0, 0, 0, 1, 0, 1])).bare

/-- The reply was summed with `::` and is sent from the link-local address. -/
theorem reply_from_unspecified_fails :
    ¬ (Icmpv6Traffic.echo (bootHost6 netdevMac) requestToUnspecified (bootHost6 netdevMac).dev netdevMac).Verifies := by
  intro hpass
  have hr : ((bootHost6 netdevMac).ipv6Input requestToUnspecified).2 = some (icmpv6EchoReply requestToUnspecified 54) := by
    decide +kernel
  have hlen : (icmpv6EchoReply requestToUnspecified 54).bytes.length ≤ 65535 := by decide +kernel
  have hsum : ¬ icmpv6Sum ((bootHost6 netdevMac).dev.selectSource (some (icmpv6EchoReply requestToUnspecified 54).saddr)).2
      (icmpv6EchoReply requestToUnspecified 54).daddr (icmpv6EchoReply requestToUnspecified 54).bytes % 65535 = 0 := by
    decide +kernel
  exact hsum ((passes_icmpv6Packet_iff (by decide) hlen).mp (hpass _ hr))

end LevelIp
