/-
An skb with the bytes of its buffer, and the functions of `skbuff.c` and
`netdev.c` that move its data pointer and write its frame.

Addresses count from `head`. The memory around the buffer is there too: a data
pointer that has left the buffer reads and writes what is there.
-/
import LevelIp.Skbuff
import LevelIp.Packets
import LevelIp.Lib.Memory

namespace LevelIp

open Memory

/-! ## Numbers in memory -/

def be16Bytes (x : U16) : List U8 := [(x >>> 8).setWidth 8, x.setWidth 8]
def le16Bytes (x : U16) : List U8 := [x.setWidth 8, (x >>> 8).setWidth 8]
def le32Bytes (x : U32) : List U8 := [x.setWidth 8, (x >>> 8).setWidth 8, (x >>> 16).setWidth 8, (x >>> 24).setWidth 8]
def be32Bytes (x : U32) : List U8 := (le32Bytes x).reverse

/-! ## The buffer -/

/-- `struct sk_buff` with its memory; the buffer has the addresses from 0 to
`tail`, which is `end`. -/
structure SkbMem where
  mem : Mem U8
  tail : Int
  data : Int := 0
  payload : Option Int := none
  protocol : U16 := 0
  len : U32 := 0
  dlen : U32 := 0
  seq : U32 := 0
  endSeq : U32 := 0
  sacked : U8 := 0
  tcpcsum : U32 := 0
  rt : Option RtEntry := none

namespace SkbMem

/-- `alloc_skb` in the memory `around` it. -/
def allocSkb (around : Mem U8) (size : U32) : SkbMem where
  mem i := if 0 ≤ i ∧ i < size.toNat then 0 else around i
  tail := size.toNat

/-- `skb_reserve`. -/
def skbReserve (s : SkbMem) (len : U32) : SkbMem := { s with data := s.data + len.toNat }

/-- `skb_push`. -/
def skbPush (s : SkbMem) (len : U32) : SkbMem := { s with data := s.data - len.toNat, len := s.len + len }

/-- `memcpy` to `addr`. -/
def store (s : SkbMem) (addr : Int) (bytes : List U8) : SkbMem := { s with mem := write s.mem addr bytes }

/-- `skb_copy`, in the memory `around` the copy. -/
def skbCopy (s : SkbMem) (around : Mem U8) : SkbMem :=
  { s with mem := fun i => if 0 ≤ i ∧ i < s.tail then s.mem i else around i }

/-- The `len` bytes at `data`. -/
def bytes (s : SkbMem) : List U8 := read s.mem s.data s.len.toNat

/-- The data and room for `headroom` bytes before it lie in the buffer. -/
def Placed (s : SkbMem) (headroom : Nat) : Prop := headroom ≤ s.data ∧ s.data + s.len.toNat ≤ s.tail

instance (s : SkbMem) (headroom : Nat) : Decidable (s.Placed headroom) :=
  inferInstanceAs (Decidable (headroom ≤ s.data ∧ s.data + s.len.toNat ≤ s.tail))

end SkbMem

/-! ## The device -/

/-- The header that `netdev_transmit` writes. -/
def ethHdr (dstHw smac : HwAddr) (ethertype : U16) : List U8 := dstHw.toList ++ smac.toList ++ be16Bytes ethertype

theorem length_ethHdr (dstHw smac : HwAddr) (ethertype : U16) : (ethHdr dstHw smac ethertype).length = 14 := by
  simp [ethHdr, be16Bytes]

namespace SkbMem

/-- `netdev_transmit` on the device with the address `hwaddr`: `tun_write` is then
given the skb's bytes. -/
def netdevTransmit (s : SkbMem) (hwaddr dstHw : HwAddr) (ethertype : U16) : SkbMem :=
  let s := s.skbPush (BitVec.ofNat 32 ETH_HDR_LEN)
  s.store s.data (ethHdr dstHw hwaddr ethertype)

/-- The frame is the Ethernet header and what the skb held before. -/
theorem bytes_netdevTransmit (s : SkbMem) (hwaddr dstHw : HwAddr) (ethertype : U16) (hlen : s.len.toNat + 14 < 2 ^ 32) :
    (s.netdevTransmit hwaddr dstHw ethertype).bytes = ethHdr dstHw hwaddr ethertype ++ s.bytes := by
  have hpush : (s.len + BitVec.ofNat 32 ETH_HDR_LEN).toNat = 14 + s.len.toNat := by
    have h14 : (BitVec.ofNat 32 ETH_HDR_LEN).toNat = 14 := rfl
    rw [BitVec.toNat_add, h14]
    omega
  have hback : s.data - (BitVec.ofNat 32 ETH_HDR_LEN).toNat + (14 : Nat) = s.data := by
    have h14 : (BitVec.ofNat 32 ETH_HDR_LEN).toNat = 14 := rfl
    omega
  unfold bytes netdevTransmit skbPush store
  dsimp only
  rw [hpush, read_add, hback]
  have hhdr : read (write s.mem (s.data - (BitVec.ofNat 32 ETH_HDR_LEN).toNat) (ethHdr dstHw hwaddr ethertype))
      (s.data - (BitVec.ofNat 32 ETH_HDR_LEN).toNat) 14 = ethHdr dstHw hwaddr ethertype := by
    rw [← length_ethHdr dstHw hwaddr ethertype, read_write]
  rw [hhdr, read_write_outside]
  rw [length_ethHdr]
  omega

/-- A copy holds what the original did, if that lies in the buffer. -/
theorem bytes_skbCopy (s : SkbMem) (around : Mem U8) (h : s.Placed 0) : (s.skbCopy around).bytes = s.bytes := by
  refine read_congr fun i hi => ?_
  have hin : 0 ≤ s.data + (i : Int) ∧ s.data + (i : Int) < s.tail := by
    obtain ⟨h1, h2⟩ := h
    change i < s.len.toNat at hi
    constructor <;> omega
  exact if_pos hin

end SkbMem

end LevelIp
