/-
The ICMPv6 error that `icmpv6_send_error` builds about a received packet, byte
by byte down to the frame.

The room for the headers is reserved, and the message is then pushed into that
same room, where the IPv6 and the Ethernet header still have to go. Only a
message that has no more than the 54 reserved bytes stays in its buffer, and
only while nobody pushes a header before it.
-/
import LevelIp.ChainIcmpv6
import LevelIp.SkbBytes

namespace LevelIp

open Memory

def ICMPV6_ERROR_MAX_PAYLOAD : U32 := 1272
def IPV6_DEFAULT_HOPLIMIT : U8 := 64

/-- What the output layers look up for the error: the route to the source of the
packet, and the link-layer address of the next hop. -/
structure ErrorPath where
  rt : Option RtEntry
  dmac : Option HwAddr

/-- The error skb after each move of its data pointer, and the frames that
`tun_write` was given. -/
structure ErrorTx where
  skbs : List SkbMem := []
  frames : List (List U8) := []

namespace ErrorTx

/-- `copy_len` for a packet whose frame has `len` bytes. -/
def copyLen (len : U32) : U32 :=
  let copyLen := len - BitVec.ofNat 32 ETH_HDR_LEN
  if ICMPV6_ERROR_MAX_PAYLOAD < copyLen then ICMPV6_ERROR_MAX_PAYLOAD else copyLen

/-- `icmpv6_len`, with `sizeof(struct icmpv6_hdr)`. -/
def icmpv6Len (len : U32) : U32 := 8 + copyLen len

/-- The IPv6 header that `ipv6_output_ex` fills in. -/
def ipv6Header (payloadLen : U16) (nexthdr : U8) (saddr daddr : In6Addr) : List U8 :=
  [0x60, 0, 0, 0] ++ be16Bytes payloadLen ++ [nexthdr, IPV6_DEFAULT_HOPLIMIT] ++ saddr.toList ++ daddr.toList

variable (around : Mem U8) (dev : Netdev) (path : ErrorPath)

/-- The ICMPv6 message at `p`: the header and its checksum, and the copy of the
packet in the frame `m`. -/
def fillMessage (s : SkbMem) (p : Int) (m : List U8) (type code : U8) (body : U32) : SkbMem :=
  let len : U32 := BitVec.ofNat 32 m.length
  let s := s.store p ([type, code, 0, 0] ++ le32Bytes body)
  let s := s.store (p + 8) (copyOut m ETH_HDR_LEN (copyLen len).toNat)
  let csum := icmpv6Checksum (ipv6Hdr m).daddr (ipv6Hdr m).saddr (read s.mem p (icmpv6Len len).toNat) 0 ((icmpv6Len len).setWidth 16)
  s.store (p + 2) (le16Bytes csum)

/-- `ipv6_output_ex` and `dst6_neigh_output`. A packet that waits for its next hop
is written later, from a copy. -/
def ipv6Output (t : ErrorTx) (s : SkbMem) (saddr daddr : In6Addr) : ErrorTx :=
  match path.rt with
  | none => t
  | some rt =>
    let s := { s with rt := some rt }.skbPush (BitVec.ofNat 32 IPV6_HDR_LEN)
    let t := { t with skbs := t.skbs ++ [s] }
    let src := (dev.selectSource (some saddr)).2
    let s := s.store s.data (ipv6Header ((s.len - BitVec.ofNat 32 IPV6_HDR_LEN).setWidth 16) NEXTHDR_ICMPV6 src daddr)
    match path.dmac with
    | none => t
    | some dmac =>
      let s := s.netdevTransmit dev.hwaddr dmac ETH_P_IPV6
      { skbs := t.skbs ++ [s], frames := t.frames ++ [s.bytes] }

/-- `icmpv6_send_error` for the packet in the frame `m`. -/
def icmpv6SendError (m : List U8) (type code : U8) (body : U32) : ErrorTx :=
  let icmpv6Len := icmpv6Len (BitVec.ofNat 32 m.length)
  let totalSize := BitVec.ofNat 32 (ETH_HDR_LEN + IPV6_HDR_LEN) + icmpv6Len
  let reserved := (SkbMem.allocSkb around totalSize).skbReserve (BitVec.ofNat 32 (ETH_HDR_LEN + IPV6_HDR_LEN))
  let pushed := reserved.skbPush icmpv6Len
  let err := { fillMessage pushed pushed.data m type code body with protocol := ETH_P_IPV6 }
  ipv6Output dev path { skbs := [reserved, pushed] } err (ipv6Hdr m).daddr (ipv6Hdr m).saddr

/-- The error stays in its buffer, it carries the beginning of the packet behind
its header of eight bytes, and the IPv6 packet has 1280 bytes at most. -/
structure Sound (m : List U8) (t : ErrorTx) : Prop where
  placed : ∀ s ∈ t.skbs, s.Placed 0
  message : ∀ f ∈ t.frames, ∃ hdr : List U8, hdr.length = 8 ∧ f.drop 54 = hdr ++ (m.drop 14).take (f.length - 62)
  small : ∀ f ∈ t.frames, f.length ≤ ETH_HDR_LEN + 1280

/-! ## Where the error lies -/

theorem icmpv6Len_toNat {n : Nat} (h : ETH_HDR_LEN ≤ n) (hn : n < 2 ^ 32) : (icmpv6Len (BitVec.ofNat 32 n)).toNat = 8 + min (n - 14) 1272 := by
  have hsub : (BitVec.ofNat 32 n - BitVec.ofNat 32 ETH_HDR_LEN).toNat = n - 14 := by
    simp only [ETH_HDR_LEN] at h ⊢
    bv_omega
  have hcopy : (copyLen (BitVec.ofNat 32 n)).toNat = min (n - 14) 1272 := by
    unfold copyLen
    dsimp only
    split
    next hlt =>
      rw [BitVec.lt_def, hsub] at hlt
      change 1272 < n - 14 at hlt
      rw [min_eq_right (by omega)]
      rfl
    next hle =>
      rw [BitVec.lt_def, hsub] at hle
      change ¬ 1272 < n - 14 at hle
      rw [hsub, min_eq_left (by omega)]
  have h8 : (8 : U32).toNat = 8 := rfl
  rw [icmpv6Len, BitVec.toNat_add, hcopy, h8]
  omega

/-- The skb with the message pushed into the reserved room. -/
def pushed (around : Mem U8) (len : U32) : SkbMem :=
  ((SkbMem.allocSkb around (BitVec.ofNat 32 (ETH_HDR_LEN + IPV6_HDR_LEN) + icmpv6Len len)).skbReserve
    (BitVec.ofNat 32 (ETH_HDR_LEN + IPV6_HDR_LEN))).skbPush (icmpv6Len len)

theorem pushed_data (around : Mem U8) (len : U32) : (pushed around len).data = 54 - ((icmpv6Len len).toNat : Int) := by
  show (0 : Int) + (54 : U32).toNat - _ = _
  rw [Int.zero_add]
  rfl

theorem pushed_tail (around : Mem U8) (len : U32) (h : (icmpv6Len len).toNat ≤ 1280) :
    (pushed around len).tail = 54 + ((icmpv6Len len).toNat : Int) := by
  have hadd : ((54 : U32) + icmpv6Len len).toNat = 54 + (icmpv6Len len).toNat := by
    have h54 : (54 : U32).toNat = 54 := rfl
    rw [BitVec.toNat_add, h54]
    omega
  show (((54 : U32) + icmpv6Len len).toNat : Int) = _
  rw [hadd]
  rfl

theorem pushed_len (around : Mem U8) (len : U32) : (pushed around len).len = icmpv6Len len := BitVec.zero_add _

variable {around : Mem U8} {dev : Netdev} {path : ErrorPath}

theorem ipv6Output_noRoute (h : path.rt = none) (t : ErrorTx) (s : SkbMem) (saddr daddr : In6Addr) :
    ipv6Output dev path t s saddr daddr = t := by
  unfold ipv6Output
  rw [h]

/-- With a route the IPv6 header is pushed before the message. -/
theorem ipv6Output_push {rt : RtEntry} (h : path.rt = some rt) (t : ErrorTx) (s : SkbMem) (saddr daddr : In6Addr) :
    ∃ s' ∈ (ipv6Output dev path t s saddr daddr).skbs, s'.data = s.data - 40 := by
  refine ⟨{ s with rt := some rt }.skbPush (BitVec.ofNat 32 IPV6_HDR_LEN), ?_, rfl⟩
  unfold ipv6Output
  rw [h]
  dsimp only
  split <;> simp

/-- **The error is sound** if and only if there is no route to the source, and the
frame has no more than 60 bytes. -/
theorem icmpv6SendError_sound_iff (around : Mem U8) (dev : Netdev) (path : ErrorPath) (m : List U8) (type code : U8) (body : U32)
    (hlen : 54 ≤ m.length) (hmax : m.length < 2 ^ 32) :
    Sound m (icmpv6SendError around dev path m type code body) ↔ path.rt = none ∧ m.length ≤ 60 := by
  have hmsg := icmpv6Len_toNat (n := m.length) (by simp only [ETH_HDR_LEN]; omega) hmax
  have hdata := pushed_data around (BitVec.ofNat 32 m.length)
  have hplen := pushed_len around (BitVec.ofNat 32 m.length)
  rw [hmsg] at hdata
  cases hrt : path.rt with
  | some rt =>
    refine ⟨fun h => ?_, by simp⟩
    -- the header of 40 bytes goes below `head`
    obtain ⟨s', hmem, hs'⟩ := ipv6Output_push hrt _ _ _ _
    have hin := (h.placed s' hmem).1
    rw [hs'] at hin
    change ((0 : Nat) : Int) ≤ (pushed around (BitVec.ofNat 32 m.length)).data - 40 at hin
    rw [hdata] at hin
    omega
  | none =>
    have htx : icmpv6SendError around dev path m type code body =
        { skbs := [(SkbMem.allocSkb around (BitVec.ofNat 32 (ETH_HDR_LEN + IPV6_HDR_LEN) + icmpv6Len (BitVec.ofNat 32 m.length))).skbReserve
            (BitVec.ofNat 32 (ETH_HDR_LEN + IPV6_HDR_LEN)), pushed around (BitVec.ofNat 32 m.length)] } := ipv6Output_noRoute hrt _ _ _ _
    have htail := pushed_tail around (BitVec.ofNat 32 m.length) (by rw [hmsg]; omega)
    rw [hmsg] at htail
    rw [htx]
    constructor
    · intro h
      have hin := (h.placed _ (List.mem_cons_of_mem _ (List.mem_singleton_self _))).1
      rw [hdata] at hin
      exact ⟨rfl, by omega⟩
    · rintro ⟨-, hshort⟩
      refine ⟨fun s hs => ?_, fun f hf => (List.not_mem_nil hf).elim, fun f hf => (List.not_mem_nil hf).elim⟩
      rcases List.mem_cons.mp hs with rfl | hs
      · refine ⟨(by decide : (0 : Int) ≤ 54), ?_⟩
        change (54 : Int) + 0 ≤ (pushed around (BitVec.ofNat 32 m.length)).tail
        rw [htail]
        omega
      · rw [List.mem_singleton.mp hs]
        refine ⟨?_, ?_⟩
        · rw [hdata]
          omega
        · rw [hdata, hplen, hmsg, htail]
          omega

/-- A packet from a link-local address that has no hops left and no payload. -/
def expired : List U8 :=
  List.replicate 12 0 ++ [0x86, 0xDD] ++ [0x60, 0, 0, 0, 0, 0, NEXTHDR_NONE, 0] ++ [0xfe, 0x80] ++ List.replicate 13 0 ++ [1] ++
    [0xfe, 0x80] ++ List.replicate 13 0 ++ [2]

/-- The route of the link-local prefix, and a neighbour that is known. -/
def onLink : ErrorPath where
  rt := some (.v6 { dst := Host6.llPrefix, gateway := in6Unspecified, prefixLen := 10, flags := RT_HOST, metric := 0 })
  dmac := some (fieldOf [2, 0, 0, 0, 0, 1])

theorem icmpv6SendError_sound_iff_expired :
    Sound expired (icmpv6SendError (fun _ => 0) { hwaddr := netdevMac } { onLink with rt := none } expired 3 0 0) ↔
      (none : Option RtEntry) = none ∧ 54 ≤ 60 :=
  icmpv6SendError_sound_iff (fun _ => 0) { hwaddr := netdevMac } { onLink with rt := none } expired 3 0 0 (by decide) (by decide)

/-- The error about such a packet leaves its buffer. -/
theorem expired_leaves : ipv6Rcv expired = .timeExceeded ∧
    ¬ Sound expired (icmpv6SendError (fun _ => 0) { hwaddr := netdevMac } onLink expired 3 0 0) := by
  refine ⟨by decide, fun h => ?_⟩
  have hdata : (icmpv6SendError (fun _ => 0) { hwaddr := netdevMac } onLink expired 3 0 0).skbs.map (·.data) = [54, 6, -34, -48] := by
    decide +kernel
  have hmem : (-34 : Int) ∈ (icmpv6SendError (fun _ => 0) { hwaddr := netdevMac } onLink expired 3 0 0).skbs.map (·.data) := by
    rw [hdata]
    decide
  obtain ⟨s, hs, heq⟩ := List.mem_map.mp hmem
  have hin := (h.placed s hs).1
  rw [heq] at hin
  exact absurd hin (by decide)

end ErrorTx

end LevelIp
