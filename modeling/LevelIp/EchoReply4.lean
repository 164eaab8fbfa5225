/-
The Echo Reply of ICMPv4, from the received frame to the frame that answers it.
`icmpv4_reply` writes the reply into the skb of the request, whose `len` is the
length of the received frame already, and every `skb_push` on the way adds to
that.
-/
import LevelIp.SkbBytes
import LevelIp.ExtChain

namespace LevelIp

open Memory

def BUFLEN : Nat := 1600
def ICMP_V4_REPLY : U8 := 0
def ICMP_V4_ECHO : U8 := 8

/-- The device of the reply, and what `route_lookup` and `arp_get_hwaddr` find for
the source of the request. -/
structure ReplyPath where
  addr : U32
  hwaddr : HwAddr
  rt : Option RtEntry
  dmac : Option HwAddr

namespace EchoReply4

/-- The skb of `netdev_rx_loop` with the frame `m`. -/
def received (around : Mem U8) (m : List U8) : SkbMem :=
  { (SkbMem.allocSkb around (BitVec.ofNat 32 BUFLEN)).store 0 m with len := BitVec.ofNat 32 m.length }

/-- `id` of the IPv4 header. -/
def ipId (m : List U8) : U16 := be16 m (ETH_HDR_LEN + 4)

/-- `ip_init_pkt`: the host is little-endian. -/
def ipInitPkt (s : SkbMem) (m : List U8) : SkbMem :=
  let s := s.store (ETH_HDR_LEN + 12) (le32Bytes (ipHdr m).saddr)
  let s := s.store (ETH_HDR_LEN + 16) (le32Bytes (ipHdr m).daddr)
  let s := s.store (ETH_HDR_LEN + 2) (le16Bytes (ipHdr m).len)
  s.store (ETH_HDR_LEN + 4) (le16Bytes (ipId m))

/-- `icmp_len` of `icmpv4_reply`. -/
def icmpLen (m : List U8) : U16 := (ipHdr m).len - BitVec.ofNat 16 ((ipHdr m).ihl.toNat * 4)

/-- The header that `ip_output` fills in, before its checksum. -/
def ipv4Header (len id : U16) (proto : U8) (saddr daddr : U32) (csum : U16) : List U8 :=
  [0x45, 0] ++ be16Bytes len ++ be16Bytes id ++ [0x40, 0, 64, proto] ++ le16Bytes csum ++ be32Bytes saddr ++ be32Bytes daddr

/-- `ip_output` and `dst_neigh_output`: the frame, if one is sent. -/
def ipOutput (path : ReplyPath) (s : SkbMem) (id : U16) (daddr : U32) : Option (List U8) :=
  match path.rt, path.dmac with
  | some rt, some dmac =>
    let s := { s with rt := some rt }.skbPush (BitVec.ofNat 32 20)
    let hdr := ipv4Header (s.len.setWidth 16) id (s.protocol.setWidth 8) path.addr daddr
    let s := s.store ETH_HDR_LEN (hdr (checksum (hdr 0) 0 20 0))
    some (s.netdevTransmit path.hwaddr dmac ETH_P_IP).bytes
  | _, _ => none

/-- `icmpv4_reply`. -/
def icmpv4Reply (path : ReplyPath) (s : SkbMem) (m : List U8) : Option (List U8) :=
  let len := icmpLen m
  let s := s.skbReserve (BitVec.ofNat 32 (ETH_HDR_LEN + 20) + U16.wide len)
  let s := s.skbPush (U16.wide len)
  let icmp := s.data
  let s := s.store icmp [ICMP_V4_REPLY]
  let s := s.store (icmp + 2) [0, 0]
  let s := s.store (icmp + 2) (le16Bytes (checksum (read s.mem icmp len.toNat) 0 len.toNat 0))
  ipOutput path { s with protocol := ICMPV4.setWidth 16 } (ipId m) (ipHdr m).saddr

/-- `icmpv4_incoming`: the message is looked for behind a header of 20 bytes. -/
def icmpv4Incoming (around : Mem U8) (path : ReplyPath) (m : List U8) : Option (List U8) :=
  let s := ipInitPkt (received around m) m
  if m.getD (ETH_HDR_LEN + 20) 0 = ICMP_V4_ECHO then icmpv4Reply path s m else none

/-! ## Requests and replies -/

/-- The length of the ICMP message, and where it begins. -/
def messageLen (m : List U8) : Nat := (ipHdr m).len.toNat - (ipHdr m).ihl.toNat * 4
def messageAt (m : List U8) : Nat := ETH_HDR_LEN + (ipHdr m).ihl.toNat * 4

/-- An Echo Request that `ip_rcv` accepts, in a frame that may be padded. -/
structure EchoRequest (m : List U8) : Prop where
  accepted : ipRcv m = .icmpv4Incoming
  echo : m.getD (messageAt m) 0 = ICMP_V4_ECHO
  header : (ipHdr m).ihl.toNat * 4 ≤ (ipHdr m).len.toNat
  inside : ETH_HDR_LEN + (ipHdr m).len.toNat ≤ m.length
  frame : m.length ≤ BUFLEN

/-- `frame` is the reply to `m`. -/
structure IsReply (m frame : List U8) : Prop where
  version : (ipHdr frame).version = IPV4
  total : (ipHdr frame).len.toNat = 20 + messageLen m
  whole : frame.length = ETH_HDR_LEN + (ipHdr frame).len.toNat
  type : frame.getD 34 0 = ICMP_V4_REPLY
  code : frame.getD 35 0 = m.getD (messageAt m + 1) 0
  rest : ∀ i, 4 ≤ i → i < messageLen m → frame.getD (34 + i) 0 = m.getD (messageAt m + i) 0
  csum : checksum frame 34 (messageLen m) 0 = 0

/-- What `ip_output` sends is as long as the skb, with two headers more. -/
theorem length_ipOutput {path : ReplyPath} {s : SkbMem} {id : U16} {daddr : U32} {frame : List U8}
    (h : ipOutput path s id daddr = some frame) : frame.length = (s.len + 20 + 14).toNat := by
  unfold ipOutput at h
  split at h
  · rw [← Option.some.inj h]
    exact length_read _ _ _
  · cases h

/-- The frame of the request counts into the length of the answer. -/
theorem length_icmpv4Incoming {around : Mem U8} {path : ReplyPath} {m frame : List U8} (hm : m.length ≤ BUFLEN)
    (h : icmpv4Incoming around path m = some frame) : frame.length = m.length + (icmpLen m).toNat + 34 := by
  have hsmall : m.length ≤ 1600 := hm
  have hicmp := (icmpLen m).isLt
  unfold icmpv4Incoming at h
  dsimp only at h
  split at h
  · rw [length_ipOutput h]
    show (BitVec.ofNat 32 m.length + U16.wide (icmpLen m) + 20 + 14).toNat = _
    have hwide : (U16.wide (icmpLen m)).toNat = (icmpLen m).toNat := by
      rw [U16.wide, BitVec.toNat_setWidth]
      omega
    bv_omega
  · cases h

theorem EchoRequest.icmpLen {m : List U8} (h : EchoRequest m) : (icmpLen m).toNat = messageLen m := by
  have hh := h.header
  have hl := (ipHdr m).len.isLt
  have hi := (ipHdr m).ihl.isLt
  rw [EchoReply4.icmpLen, messageLen, BitVec.toNat_sub, BitVec.toNat_ofNat]
  omega

/-- **No Echo Request is answered by its reply**, on whatever path the reply
goes. -/
theorem icmpv4Incoming_never (around : Mem U8) (path : ReplyPath) (m : List U8) (h : EchoRequest m) :
    ¬ ∃ frame, icmpv4Incoming around path m = some frame ∧ IsReply m frame := by
  rintro ⟨frame, hsent, hreply⟩
  have hlen := length_icmpv4Incoming h.frame hsent
  have hwhole := hreply.whole
  have hin := h.inside
  rw [hreply.total, hlen, h.icmpLen] at hwhole
  simp only [ETH_HDR_LEN] at hwhole hin
  omega

/-- A request of 50 bytes: a header of 20 bytes, and an ICMP message of 16. -/
def ping : List U8 :=
  List.replicate 12 0 ++ [0x08, 0x00] ++ [0x45, 0, 0, 36, 0, 1, 0, 0, 64, 1, 0x66, 0xd0, 10, 0, 0, 5, 10, 0, 0, 4] ++
    [ICMP_V4_ECHO, 0, 0xf7, 0xfe, 0, 0, 0, 1] ++ List.replicate 8 0

/-- The path to the sender, who is on the link and known. -/
def toSender : ReplyPath where
  addr := 0x0a000004
  hwaddr := netdevMac
  rt := some (.v4 { dst := 0x0a000000, gateway := 0, netmask := 0xffffff00, flags := RT_HOST })
  dmac := some #v[2, 0, 0, 0, 0, 1]

theorem ping_request : EchoRequest ping := ⟨by decide +kernel, by decide, by decide, by decide, by decide⟩

theorem icmpv4Incoming_never_ping : ¬ ∃ frame, icmpv4Incoming (fun _ => 0) toSender ping = some frame ∧ IsReply ping frame :=
  icmpv4Incoming_never (fun _ => 0) toSender ping ping_request

/-- The answer to it has 100 bytes, and 86 of them are said to be the datagram. -/
theorem ping_answer : EchoRequest ping ∧
    ∃ frame, icmpv4Incoming (fun _ => 0) toSender ping = some frame ∧ frame.length = 100 ∧ (ipHdr frame).len = 86 ∧
      ¬ IsReply ping frame := by
  have hsome : (icmpv4Incoming (fun _ => 0) toSender ping).isSome = true := by decide +kernel
  have hlen : ((icmpv4Incoming (fun _ => 0) toSender ping).getD []).length = 100 := by decide +kernel
  have htotal : (ipHdr ((icmpv4Incoming (fun _ => 0) toSender ping).getD [])).len = 86 := by decide +kernel
  obtain ⟨frame, hframe⟩ := Option.isSome_iff_exists.mp hsome
  rw [hframe, Option.getD_some] at hlen htotal
  refine ⟨ping_request, frame, hframe, hlen, htotal, fun h => ?_⟩
  have hright := h.total
  rw [htotal] at hright
  revert hright
  decide

end EchoReply4

end LevelIp
