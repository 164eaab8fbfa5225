/-
The packets of `arp.c` byte by byte: the request that `arp_request` makes, and the
reply that `arp_reply` writes over the packet it answers. Either is read back as
what it says.
-/
import LevelIp.ArpCache
import LevelIp.EchoReply4
import LevelIp.SegmentWire

namespace LevelIp

open Memory

def ARP_HDR_LEN : Nat := 8
def ARP_DATA_LEN : Nat := 20
def ARP_REPLY : U16 := 0x0002

/-- `broadcast_hw`. -/
def broadcastHw : HwAddr := Vector.replicate 6 0xff

namespace SkbMem

/-- `htons` or `ntohs` of the field at `addr`, in place. -/
def swap16 (addr : Int) (s : SkbMem) : SkbMem := s.store addr (read s.mem addr 2).reverse

/-- `htonl` or `ntohl`. -/
def swap32 (addr : Int) (s : SkbMem) : SkbMem := s.store addr (read s.mem addr 4).reverse

/-- `arp_alloc_skb`. -/
def arpAllocSkb (around : Mem U8) : SkbMem :=
  let size : U32 := BitVec.ofNat 32 (ETH_HDR_LEN + ARP_HDR_LEN + ARP_DATA_LEN)
  { (allocSkb around size).skbReserve size with protocol := be16 (le16Bytes ETH_P_ARP) 0 }

/-- `arp_request`, for a device with the address `hwaddr`. -/
def arpRequest (around : Mem U8) (hwaddr : HwAddr) (sip dip : U32) : SkbMem :=
  let s := (arpAllocSkb around).skbPush (BitVec.ofNat 32 ARP_DATA_LEN)
  let payload := s.data
  let s := s.store payload hwaddr.toList
  let s := s.store (payload + 6) (le32Bytes sip)
  let s := s.store (payload + 10) broadcastHw.toList
  let s := s.store (payload + 16) (le32Bytes dip)
  let s := s.skbPush (BitVec.ofNat 32 ARP_HDR_LEN)
  let arp := s.data
  let s := s.store (arp + 6) (be16Bytes ARP_REQUEST)
  let s := s.store arp (be16Bytes ARP_ETHERNET)
  let s := s.store (arp + 2) (be16Bytes ETH_P_IP)
  let s := s.store (arp + 4) [6, 4]
  let s := (s.swap32 (payload + 6)).swap32 (payload + 16)
  s.netdevTransmit hwaddr broadcastHw ETH_P_ARP

/-- What `arp_rcv` makes of a packet before it answers. -/
def arpHostOrder (s : SkbMem) : SkbMem :=
  let arphdr : Int := ETH_HDR_LEN
  let s := ((s.swap16 arphdr).swap16 (arphdr + 2)).swap16 (arphdr + 6)
  (s.swap32 (arphdr + 14)).swap32 (arphdr + 24)

/-- `arp_reply`, over a device with the addresses `addr` and `hwaddr`. -/
def arpReply (addr : U32) (hwaddr : HwAddr) (s : SkbMem) : SkbMem :=
  let arphdr : Int := ETH_HDR_LEN
  let s := s.skbReserve (BitVec.ofNat 32 (ETH_HDR_LEN + ARP_HDR_LEN + ARP_DATA_LEN))
  let s := s.skbPush (BitVec.ofNat 32 (ARP_HDR_LEN + ARP_DATA_LEN))
  let arpdata := arphdr + 8
  let s := s.store (arpdata + 10) (read s.mem arpdata 6)
  let s := s.store (arpdata + 16) (read s.mem (arpdata + 6) 4)
  let s := s.store arpdata hwaddr.toList
  let s := s.store (arpdata + 6) (le32Bytes addr)
  let s := s.store (arphdr + 6) (le16Bytes ARP_REPLY)
  let s := ((s.swap16 (arphdr + 6)).swap16 arphdr).swap16 (arphdr + 2)
  let s := (s.swap32 (arpdata + 6)).swap32 (arpdata + 16)
  s.netdevTransmit hwaddr (fieldOf (read s.mem (arpdata + 10) 6)) ETH_P_ARP

/-! ## What is in the packets -/

section moves
variable (s : SkbMem) (addr : Int) (bs : List U8) (n : U32)

@[simp] theorem data_store : (s.store addr bs).data = s.data := rfl
@[simp] theorem len_store : (s.store addr bs).len = s.len := rfl
@[simp] theorem data_swap16 : (s.swap16 addr).data = s.data := rfl
@[simp] theorem len_swap16 : (s.swap16 addr).len = s.len := rfl
@[simp] theorem data_swap32 : (s.swap32 addr).data = s.data := rfl
@[simp] theorem len_swap32 : (s.swap32 addr).len = s.len := rfl
@[simp] theorem mem_skbPush : (s.skbPush n).mem = s.mem := rfl
@[simp] theorem data_skbPush : (s.skbPush n).data = s.data - n.toNat := rfl
@[simp] theorem len_skbPush : (s.skbPush n).len = s.len + n := rfl
@[simp] theorem mem_skbReserve : (s.skbReserve n).mem = s.mem := rfl
@[simp] theorem data_skbReserve : (s.skbReserve n).data = s.data + n.toNat := rfl
@[simp] theorem len_skbReserve : (s.skbReserve n).len = s.len := rfl

end moves

@[simp] theorem length_be16Bytes (x : U16) : (be16Bytes x).length = 2 := rfl
@[simp] theorem length_le16Bytes (x : U16) : (le16Bytes x).length = 2 := rfl
@[simp] theorem length_le32Bytes (x : U32) : (le32Bytes x).length = 4 := rfl

/-! ### Reading a field -/

section reads
variable {s : SkbMem} {addr a : Int} {bs : List U8} {n : Nat}

theorem read_store_same (h : bs.length = n) : read (s.store addr bs).mem addr n = bs := by
  rw [← h]
  exact read_write _ _ _

@[simp] theorem read_store_be16 (x : U16) : read (s.store addr (be16Bytes x)).mem addr 2 = be16Bytes x := read_store_same rfl
@[simp] theorem read_store_le16 (x : U16) : read (s.store addr (le16Bytes x)).mem addr 2 = le16Bytes x := read_store_same rfl
@[simp] theorem read_store_le32 (x : U32) : read (s.store addr (le32Bytes x)).mem addr 4 = le32Bytes x := read_store_same rfl

@[simp] theorem read_store_hw (hw : HwAddr) : read (s.store addr hw.toList).mem addr 6 = hw.toList := read_store_same Vector.length_toList

@[simp] theorem read_store_read (m : Mem U8) : read (s.store addr (read m a n)).mem addr n = read m a n := read_store_same (length_read _ _ _)

@[simp] theorem read_store_outside (h : a + n ≤ addr ∨ addr + bs.length ≤ a) : read (s.store addr bs).mem a n = read s.mem a n :=
  read_write_outside h

@[simp] theorem read_swap16_same : read (s.swap16 addr).mem addr 2 = (read s.mem addr 2).reverse := read_store_same (by simp)

@[simp] theorem read_swap16_outside (h : a + n ≤ addr ∨ addr + 2 ≤ a) : read (s.swap16 addr).mem a n = read s.mem a n :=
  read_store_outside (by simpa using h)

@[simp] theorem read_swap32_same : read (s.swap32 addr).mem addr 4 = (read s.mem addr 4).reverse := read_store_same (by simp)

@[simp] theorem read_swap32_outside (h : a + n ≤ addr ∨ addr + 4 ≤ a) : read (s.swap32 addr).mem a n = read s.mem a n :=
  read_store_outside (by simpa using h)

end reads

/-- An ARP packet in the buffer. -/
structure ArpAt (dstHw srcHw : HwAddr) (hwtype protype opcode : List U8) (smac : HwAddr) (sip dip : List U8) (s : SkbMem) : Prop where
  data : s.data = 0
  eth : read s.mem 0 14 = ethHdr dstHw srcHw ETH_P_ARP
  hwtype : read s.mem 14 2 = hwtype
  protype : read s.mem 16 2 = protype
  opcode : read s.mem 20 2 = opcode
  smac : read s.mem 22 6 = smac.toList
  sip : read s.mem 28 4 = sip
  dip : read s.mem 38 4 = dip

/-- What is at 14 goes out behind an Ethernet header. -/
theorem ArpAt.transmit {s : SkbMem} {dstHw srcHw smac : HwAddr} {hwtype protype opcode sip dip : List U8} (hdata : s.data = 14)
    (hhwtype : read s.mem 14 2 = hwtype) (hprotype : read s.mem 16 2 = protype) (hopcode : read s.mem 20 2 = opcode)
    (hsmac : read s.mem 22 6 = smac.toList) (hsip : read s.mem 28 4 = sip) (hdip : read s.mem 38 4 = dip) :
    ArpAt dstHw srcHw hwtype protype opcode smac sip dip (s.netdevTransmit srcHw dstHw ETH_P_ARP) := by
  have hlen := length_ethHdr dstHw srcHw ETH_P_ARP
  have hzero : (s.skbPush (BitVec.ofNat 32 ETH_HDR_LEN)).data = 0 := by
    rw [data_skbPush, hdata]
    rfl
  have hbehind : ∀ a n, 14 ≤ a → read (s.netdevTransmit srcHw dstHw ETH_P_ARP).mem a n = read s.mem a n := fun a n ha => by
    unfold netdevTransmit
    rw [read_store_outside (.inr (by rw [hzero]; omega)), mem_skbPush]
  refine ⟨hzero, ?_, ?_, ?_, ?_, ?_, ?_, ?_⟩
  · unfold netdevTransmit
    dsimp only
    rw [hzero]
    exact read_store_same hlen
  all_goals rwa [hbehind _ _ (by decide)]

theorem arpAt_request (around : Mem U8) (hwaddr : HwAddr) (sip dip : U32) :
    ArpAt broadcastHw hwaddr (be16Bytes ARP_ETHERNET) (be16Bytes ETH_P_IP) (be16Bytes ARP_REQUEST) hwaddr (be32Bytes sip) (be32Bytes dip)
      (arpRequest around hwaddr sip dip) := by
  have hpayload : ((arpAllocSkb around).skbPush (BitVec.ofNat 32 ARP_DATA_LEN)).data = 22 := rfl
  unfold arpRequest
  dsimp only
  rw [hpayload]
  generalize (arpAllocSkb around).skbPush (BitVec.ofNat 32 ARP_DATA_LEN) = s at hpayload
  have harp : s.data - (BitVec.ofNat 32 ARP_HDR_LEN).toNat = 14 := by
    rw [hpayload]
    rfl
  simp only [data_store, data_skbPush, harp, Int.reduceAdd]
  refine ArpAt.transmit harp ?_ ?_ ?_ ?_ ?_ ?_
  · simp
  · simp
  · simp
  · simp
  · simp [be32Bytes]
  · simp [be32Bytes]

theorem fieldOf_toList {n : Nat} (v : Vector U8 n) : (fieldOf v.toList : Vector U8 n) = v := by
  ext i hi
  simp [fieldOf]

/-- The reply says what the device is, and sends the sender's words back. -/
theorem arpAt_reply {s : SkbMem} (hdata : s.data = 0) {smac : HwAddr} (hsmac : read s.mem 22 6 = smac.toList) (addr : U32) (hwaddr : HwAddr) :
    ArpAt smac hwaddr (read s.mem 14 2).reverse (read s.mem 16 2).reverse (be16Bytes ARP_REPLY) hwaddr (be32Bytes addr)
      (read s.mem 28 4).reverse (arpReply addr hwaddr s) := by
  have hpushed : s.data + (BitVec.ofNat 32 (ETH_HDR_LEN + ARP_HDR_LEN + ARP_DATA_LEN)).toNat -
      (BitVec.ofNat 32 (ARP_HDR_LEN + ARP_DATA_LEN)).toNat = 14 := by
    rw [hdata]
    rfl
  have hfourteen : (ETH_HDR_LEN : Int) = 14 := rfl
  unfold arpReply
  dsimp only
  simp only [hfourteen, Int.reduceAdd]
  have hdst : ∀ t : SkbMem, read t.mem 32 6 = smac.toList → (fieldOf (read t.mem 32 6) : HwAddr) = smac := fun t ht => by
    rw [ht, fieldOf_toList]
  rw [hdst _ (by simp [hsmac])]
  refine ArpAt.transmit hpushed ?_ ?_ ?_ ?_ ?_ ?_
  · simp
  · simp
  · simp
    rfl
  · simp
  · simp
    rfl
  · simp

/-! ## What is read -/

section bytes
variable {s : SkbMem}

/-- A part of the frame is a part of the memory. -/
theorem getD_bytes (hdata : s.data = 0) {a n i : Nat} (hi : i < n) (hlen : a + n ≤ s.len.toNat) :
    s.bytes.getD (a + i) 0 = (read s.mem a n).getD i 0 := by
  rw [List.getD_eq_getElem _ _ (by rw [bytes, length_read]; omega), List.getD_eq_getElem _ _ (by rw [length_read]; exact hi)]
  simp only [bytes, Memory.read, hdata, List.getElem_map, List.getElem_range]
  congr 1
  omega

theorem be16_bytes (hdata : s.data = 0) {a : Nat} (hlen : a + 2 ≤ s.len.toNat) : be16 s.bytes a = be16 (read s.mem a 2) 0 := by
  have h : ∀ i < 2, s.bytes.getD (a + i) 0 = (read s.mem a 2).getD (0 + i) 0 := fun i hi => by
    rw [Nat.zero_add]
    exact getD_bytes hdata hi hlen
  have h0 : s.bytes.getD a 0 = (read s.mem a 2).getD 0 0 := h 0 (by decide)
  rw [be16, be16, h0, h 1 (by decide)]

theorem be32_bytes (hdata : s.data = 0) {a : Nat} (hlen : a + 4 ≤ s.len.toNat) : be32 s.bytes a = be32 (read s.mem a 4) 0 := by
  have h : ∀ i < 4, s.bytes.getD (a + i) 0 = (read s.mem a 4).getD (0 + i) 0 := fun i hi => by
    rw [Nat.zero_add]
    exact getD_bytes hdata hi hlen
  simp only [be32]
  rw [h 0 (by decide), h 1 (by decide), h 2 (by decide), h 3 (by decide)]

theorem hwAt_bytes (hdata : s.data = 0) {a : Nat} (hlen : a + 6 ≤ s.len.toNat) {hw : HwAddr} (h : read s.mem a 6 = hw.toList) :
    hwAt s.bytes a = hw := by
  refine Vector.ext fun k hk => ?_
  rw [hwAt, Vector.getElem_ofFn]
  show s.bytes.getD (a + k) 0 = hw[k]
  rw [getD_bytes hdata hk hlen, h]
  simp [hk]

/-- **The frame says** what is in the packet. -/
theorem ArpAt.frame {dstHw srcHw smac : HwAddr} {hwtype protype opcode sip dip : List U8} (h : ArpAt dstHw srcHw hwtype protype opcode smac sip dip s)
    (hlen : 42 ≤ s.len.toNat) :
    (hwAt s.bytes 0 = dstHw ∧ be16 s.bytes 12 = ETH_P_ARP) ∧
      arpHdr s.bytes = { hwtype := be16 hwtype 0, protype := be16 protype 0, opcode := be16 opcode 0 } ∧
        arpData s.bytes = { smac := smac, sip := be32 sip 0, dip := be32 dip 0 } := by
  have heth : Holds s.mem 0 (dstHw.toList ++ srcHw.toList ++ be16Bytes ETH_P_ARP) := by
    rw [Holds, show (dstHw.toList ++ srcHw.toList ++ be16Bytes ETH_P_ARP).length = 14 from length_ethHdr dstHw srcHw ETH_P_ARP]
    exact h.eth
  obtain ⟨haddrs, htype⟩ := holds_append.mp heth
  have hdst : read s.mem (0 : Nat) dstHw.toList.length = dstHw.toList := (holds_append.mp haddrs).1
  have hethertype : be16 s.bytes 12 = ETH_P_ARP := by
    have htype : read s.mem (0 + (dstHw.toList ++ srcHw.toList).length) 2 = be16Bytes ETH_P_ARP := htype
    rw [List.length_append, Vector.length_toList, Vector.length_toList] at htype
    rw [be16_bytes h.data (by omega), show read s.mem (12 : Nat) 2 = _ from htype]
    rfl
  rw [Vector.length_toList] at hdst
  refine ⟨⟨hwAt_bytes h.data (by omega) hdst, hethertype⟩, ?_, ?_⟩
  · unfold arpHdr ETH_HDR_LEN
    rw [be16_bytes h.data (by omega), be16_bytes h.data (by omega), be16_bytes h.data (by omega)]
    rw [show read s.mem (14 : Nat) 2 = _ from h.hwtype, show read s.mem (14 + 2 : Nat) 2 = _ from h.protype,
      show read s.mem (14 + 6 : Nat) 2 = _ from h.opcode]
  · have hsmac : hwAt s.bytes (14 + 8) = smac := hwAt_bytes h.data (by omega) h.smac
    unfold arpData ETH_HDR_LEN
    rw [hsmac, be32_bytes h.data (by omega), be32_bytes h.data (by omega)]
    rw [show read s.mem (14 + 14 : Nat) 4 = _ from h.sip, show read s.mem (14 + 24 : Nat) 4 = _ from h.dip]

end bytes

end SkbMem

open SkbMem (arpRequest arpReply arpHostOrder ArpAt)

/-- **A request asks** who has `dip`, and says who asks. -/
theorem arpRequest_frame (around : Mem U8) (hwaddr : HwAddr) (sip dip : U32) :
    ((arpRequest around hwaddr sip dip).bytes.length = 42 ∧ hwAt (arpRequest around hwaddr sip dip).bytes 0 = broadcastHw ∧
        be16 (arpRequest around hwaddr sip dip).bytes 12 = ETH_P_ARP) ∧
      arpHdr (arpRequest around hwaddr sip dip).bytes = { hwtype := ARP_ETHERNET, protype := ARP_IPV4, opcode := ARP_REQUEST } ∧
        arpData (arpRequest around hwaddr sip dip).bytes = { smac := hwaddr, sip := sip, dip := dip } := by
  have hlen : (arpRequest around hwaddr sip dip).len = 42 := rfl
  have hnat : (arpRequest around hwaddr sip dip).len.toNat = 42 := by rw [hlen]; rfl
  obtain ⟨⟨hdst, htype⟩, hhdr, hdata⟩ := (SkbMem.arpAt_request around hwaddr sip dip).frame (by omega)
  have hip : ∀ x, be32 (be32Bytes x) 0 = x := fun x => be32_toBe32 x []
  refine ⟨⟨(length_read _ _ _).trans hnat, hdst, htype⟩, hhdr, ?_⟩
  rw [hdata, hip, hip]

namespace EchoReply4

/-- The packet in the receive buffer. -/
theorem read_received (around : Mem U8) (m : List U8) {a n : Nat} (h : a + n ≤ BUFLEN) :
    read (received around m).mem a n = (List.range n).map fun i => m.getD (a + i) 0 := by
  refine List.map_congr_left fun i hi => ?_
  have hi : i < n := List.mem_range.mp hi
  show write _ 0 m ((a : Int) + (i : Nat)) = _
  by_cases hin : a + i < m.length
  · have hcell : write (SkbMem.allocSkb around (BitVec.ofNat 32 BUFLEN)).mem 0 m (0 + (a + i : Nat)) = m[a + i] :=
      write_inside (List.getElem?_eq_getElem hin)
    rw [List.getD_eq_getElem _ _ hin, ← hcell]
    congr 1
    omega
  · have hzero : ∀ j : Int, 0 ≤ j → j < BUFLEN → (SkbMem.allocSkb around (BitVec.ofNat 32 BUFLEN)).mem j = 0 := fun j h0 h1 =>
      if_pos ⟨h0, by rw [BitVec.toNat_ofNat]; exact h1⟩
    rw [write_outside (by omega), List.getD_eq_default _ _ (by omega), hzero _ (by omega) (by omega)]

end EchoReply4

/-- The fields that `arp_rcv` turned around. -/
theorem SkbMem.read_arpHostOrder (s : SkbMem) :
    (read (arpHostOrder s).mem 14 2).reverse = read s.mem 14 2 ∧ (read (arpHostOrder s).mem 16 2).reverse = read s.mem 16 2 ∧
      (read (arpHostOrder s).mem 28 4).reverse = read s.mem 28 4 ∧ read (arpHostOrder s).mem 22 6 = read s.mem 22 6 := by
  have hfourteen : (ETH_HDR_LEN : Int) = 14 := rfl
  unfold arpHostOrder
  simp only [hfourteen, Int.reduceAdd]
  simp

/-- **A reply answers** the packet it is written over. -/
theorem arpReply_frame (around : Mem U8) {m : List U8} (hm : m.length ≤ BUFLEN) (addr : U32) (hwaddr : HwAddr) :
    let frame := (arpReply addr hwaddr (arpHostOrder (EchoReply4.received around m))).bytes
    (frame.length = m.length + 42 ∧ hwAt frame 0 = (arpData m).smac ∧ be16 frame 12 = ETH_P_ARP) ∧
      arpHdr frame = { arpHdr m with opcode := ARP_REPLY } ∧ arpData frame = { smac := hwaddr, sip := addr, dip := (arpData m).sip } := by
  have hread : ∀ a n : Nat, a + n ≤ 1600 → read (EchoReply4.received around m).mem a n = (List.range n).map fun i => m.getD (a + i) 0 :=
    fun a n h => EchoReply4.read_received around m h
  obtain ⟨hhw, hpro, hsip, hmac⟩ := SkbMem.read_arpHostOrder (EchoReply4.received around m)
  have hsmac : read (EchoReply4.received around m).mem 22 6 = (arpData m).smac.toList := by
    rw [show read (EchoReply4.received around m).mem 22 6 = _ from hread 22 6 (by decide)]
    refine List.ext_getElem (by simp) fun i h1 h2 => ?_
    simp [arpData, hwAt, ETH_HDR_LEN]
  have hreply := SkbMem.arpAt_reply (s := arpHostOrder (EchoReply4.received around m)) rfl (hmac.trans hsmac) addr hwaddr
  rw [hhw, hpro, hsip] at hreply
  have hlen : (arpReply addr hwaddr (arpHostOrder (EchoReply4.received around m))).len.toNat = m.length + 42 := by
    show (BitVec.ofNat 32 m.length + BitVec.ofNat 32 (ARP_HDR_LEN + ARP_DATA_LEN) + BitVec.ofNat 32 ETH_HDR_LEN).toNat = _
    unfold BUFLEN at hm
    rw [← BitVec.ofNat_add, ← BitVec.ofNat_add, BitVec.toNat_ofNat]
    simp only [ARP_HDR_LEN, ARP_DATA_LEN, ETH_HDR_LEN]
    omega
  obtain ⟨⟨hdst, htype⟩, hhdr, hdata⟩ := hreply.frame (by omega)
  refine ⟨⟨(length_read _ _ _).trans hlen, hdst, htype⟩, ?_, ?_⟩
  · rw [hhdr, show read (EchoReply4.received around m).mem 14 2 = _ from hread 14 2 (by decide),
      show read (EchoReply4.received around m).mem 16 2 = _ from hread 16 2 (by decide)]
    rfl
  · rw [hdata, show read (EchoReply4.received around m).mem 28 4 = _ from hread 28 4 (by decide),
      show be32 (be32Bytes addr) 0 = addr from be32_toBe32 addr []]
    rfl

end LevelIp
