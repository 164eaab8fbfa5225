/-
The way of a frame from the link to TCP: `netdev_receive`, `ip_rcv`, `ipv6_rcv`
with `ipv6_parse_exthdrs`, and the beginnings of `tcp_in` and `tcp_in_v6`.

A frame is the list of its bytes, and a pointer into the buffer is the number
of the byte it points to; the buffer behind the frame is zero, as `alloc_skb`
left it. The host stores numbers and bit fields little-endian.
-/
import LevelIp.Ndp

namespace LevelIp

def ETH_HDR_LEN : Nat := 14
def IPV6_HDR_LEN : Nat := 40

def ETH_P_ARP : U16 := 0x0806
def ETH_P_IP : U16 := 0x0800
def ETH_P_IPV6 : U16 := 0x86DD

def IPV4 : BitVec 4 := 4
def ICMPV4 : U8 := 1
def IP_TCP : U8 := 6
def IP_UDP : U8 := 17

def IPV6_VERSION : BitVec 4 := 6
def NEXTHDR_HOP : U8 := 0
def NEXTHDR_TCP : U8 := 6
def NEXTHDR_UDP : U8 := 17
def NEXTHDR_ROUTING : U8 := 43
def NEXTHDR_FRAGMENT : U8 := 44
def NEXTHDR_ICMPV6 : U8 := 58
def NEXTHDR_NONE : U8 := 59
def NEXTHDR_DEST : U8 := 60

/-! ## Checksums -/

/-- `sum_every_16bits` over `count` bytes at `addr`. -/
def sumEvery16bits (m : List U8) : (addr count : Nat) → U32
  | _, 0 => 0
  | addr, 1 => (m.getD addr 0).setWidth 32
  | addr, count + 2 =>
    ((m.getD addr 0).setWidth 32 ||| ((m.getD (addr + 1) 0).setWidth 32 <<< 8)) + sumEvery16bits m (addr + 2) count

/-- The folding loop of `checksum`. -/
def foldSum : (turns : Nat) → U32 → U32
  | 0, sum => sum
  | turns + 1, sum => if sum >>> 16 = 0 then sum else foldSum turns ((sum &&& (0xffff : U32)) + (sum >>> 16))

/-- `checksum`. -/
def checksum (m : List U8) (addr count : Nat) (startSum : U32) : U16 :=
  ~~~((foldSum 2 (startSum + sumEvery16bits m addr count)).setWidth 16)

/-- Two turns fold every sum. -/
theorem foldSum_done (sum : U32) : foldSum 2 sum >>> 16 = 0 := by
  have key : ∀ s : U32, s >>> 16 = 0 ↔ s.toNat < 2 ^ 16 := fun s => by
    rw [← BitVec.toNat_inj, BitVec.toNat_ushiftRight, Nat.shiftRight_eq_div_pow]
    show s.toNat / 2 ^ 16 = 0 ↔ _
    omega
  have hfold : ∀ s : U32, ((s &&& (0xffff : U32)) + (s >>> 16)).toNat = s.toNat % 2 ^ 16 + s.toNat / 2 ^ 16 := fun s => by
    have hs := s.isLt
    have hand : (s &&& (0xffff : U32)).toNat = s.toNat % 2 ^ 16 := by
      rw [BitVec.toNat_and]
      exact Nat.and_two_pow_sub_one_eq_mod s.toNat 16
    rw [BitVec.toNat_add, hand, BitVec.toNat_ushiftRight, Nat.shiftRight_eq_div_pow]
    omega
  have hsum := sum.isLt
  unfold foldSum
  split
  next h => exact h
  next h =>
    unfold foldSum
    split
    next h => exact h
    next h' =>
      rw [key] at h h'
      rw [foldSum, key, hfold]
      rw [hfold] at h' ⊢
      omega

theorem sumEvery16bits_congr {m n : List U8} {a b count : Nat} (h : ∀ i < count, m.getD (a + i) 0 = n.getD (b + i) 0) :
    sumEvery16bits m a count = sumEvery16bits n b count := by
  induction count using Nat.twoStepInduction generalizing a b with
  | zero => rfl
  | one => rw [sumEvery16bits, sumEvery16bits, ← Nat.add_zero a, h 0 (by decide), Nat.add_zero]
  | more count ih _ =>
    have h0 := h 0 (by omega)
    have h1 := h 1 (by omega)
    have hrest : ∀ i < count, m.getD (a + 2 + i) 0 = n.getD (b + 2 + i) 0 := by
      intro i hi
      have h2 := h (i + 2) (by omega)
      have ha : a + (i + 2) = a + 2 + i := by omega
      have hb : b + (i + 2) = b + 2 + i := by omega
      rwa [ha, hb] at h2
    rw [Nat.add_zero, Nat.add_zero] at h0
    rw [sumEvery16bits, sumEvery16bits, h0, h1, ih hrest]

theorem checksum_congr {m n : List U8} {a b count : Nat} (h : ∀ i < count, m.getD (a + i) 0 = n.getD (b + i) 0) (start : U32) :
    checksum m a count start = checksum n b count start := by
  rw [checksum, checksum, sumEvery16bits_congr h]

/-! ## Headers -/

/-- The high and low half of a byte that holds two bit fields. -/
def hiNibble (b : U8) : BitVec 4 := b.extractLsb' 4 4
def loNibble (b : U8) : BitVec 4 := b.extractLsb' 0 4

/-- `struct iphdr` in host byte order, as far as it is read. -/
structure Iphdr where
  version : BitVec 4
  ihl : BitVec 4
  len : U16
  ttl : U8
  proto : U8
  saddr : U32
  daddr : U32

/-- `ip_hdr`. -/
def ipHdr (m : List U8) : Iphdr where
  version := hiNibble (m.getD ETH_HDR_LEN 0)
  ihl := loNibble (m.getD ETH_HDR_LEN 0)
  len := be16 m (ETH_HDR_LEN + 2)
  ttl := m.getD (ETH_HDR_LEN + 8) 0
  proto := m.getD (ETH_HDR_LEN + 9) 0
  saddr := be32 m (ETH_HDR_LEN + 12)
  daddr := be32 m (ETH_HDR_LEN + 16)

/-- `struct ipv6hdr` in host byte order, as far as it is read. -/
structure Ipv6hdr where
  version : BitVec 4
  payloadLen : U16
  nexthdr : U8
  hopLimit : U8
  saddr : In6Addr
  daddr : In6Addr

/-- `ipv6_hdr`. -/
def ipv6Hdr (m : List U8) : Ipv6hdr where
  version := hiNibble (m.getD ETH_HDR_LEN 0)
  payloadLen := be16 m (ETH_HDR_LEN + 4)
  nexthdr := m.getD (ETH_HDR_LEN + 6) 0
  hopLimit := m.getD (ETH_HDR_LEN + 7) 0
  saddr := in6At m (ETH_HDR_LEN + 8)
  daddr := in6At m (ETH_HDR_LEN + 24)

/-- The `struct tcphdr` at byte `th`. -/
def tcphdrAt (m : List U8) (th : Nat) : Tcphdr where
  sport := be16 m th
  dport := be16 m (th + 2)
  seq := be32 m (th + 4)
  ackSeq := be32 m (th + 8)
  hl := hiNibble (m.getD (th + 12) 0)
  fin := (m.getD (th + 13) 0).getLsbD 0
  syn := (m.getD (th + 13) 0).getLsbD 1
  rst := (m.getD (th + 13) 0).getLsbD 2
  psh := (m.getD (th + 13) 0).getLsbD 3
  ack := (m.getD (th + 13) 0).getLsbD 4
  urg := (m.getD (th + 13) 0).getLsbD 5
  win := be16 m (th + 14)
  data := m.drop (th + 20)

/-! ## Extension headers -/

/-- `struct ipv6_exthdr_result`; `fragOff` is none where `has_frag` is 0, and
`frag_id` is never read. -/
structure ExthdrResult where
  finalNexthdr : U8
  fragOff : Option U16
  consumed : Nat
deriving DecidableEq

/-- The upper-layer headers that end the walk. -/
def endsChain (nexthdr : U8) : Bool :=
  nexthdr = NEXTHDR_TCP || nexthdr = NEXTHDR_UDP || nexthdr = NEXTHDR_ICMPV6 || nexthdr = NEXTHDR_NONE

/-- The headers of the format of `struct ipv6_opt_hdr`. -/
def isOptHdr (nexthdr : U8) : Bool := nexthdr = NEXTHDR_HOP || nexthdr = NEXTHDR_ROUTING || nexthdr = NEXTHDR_DEST

/-- The walk of `ipv6_parse_exthdrs` from byte `start` on, with `consumed`
bytes behind it. -/
def ipv6ParseExthdrs (m : List U8) (start plen : Nat) : (turns : Nat) → (nexthdr : U8) → (consumed : Nat) →
    (fragOff : Option U16) → Option ExthdrResult
  | 0, _, _, _ => none
  | turns + 1, nexthdr, consumed, fragOff =>
    if endsChain nexthdr then some { finalNexthdr := nexthdr, fragOff := fragOff, consumed := consumed }
    else if isOptHdr nexthdr then
      let optlen := ((m.getD (start + consumed + 1) 0).toNat + 1) * 8
      if plen < consumed + 2 ∨ plen < consumed + optlen then none
      else ipv6ParseExthdrs m start plen turns (m.getD (start + consumed) 0) (consumed + optlen) fragOff
    else if nexthdr = NEXTHDR_FRAGMENT then
      if plen < consumed + 8 then none
      else
        ipv6ParseExthdrs m start plen turns (m.getD (start + consumed) 0) (consumed + 8)
          (some ((be16 m (start + consumed + 2) &&& (0xFFF8 : U16)) >>> 3))
    else none

/-- The chain lies within the payload. -/
theorem ipv6ParseExthdrs_le {m : List U8} {start plen turns : Nat} {nexthdr : U8} {consumed : Nat} {fragOff : Option U16}
    {r : ExthdrResult} (hc : consumed ≤ plen) (h : ipv6ParseExthdrs m start plen turns nexthdr consumed fragOff = some r) :
    consumed ≤ r.consumed ∧ r.consumed ≤ plen := by
  induction turns generalizing nexthdr consumed fragOff with
  | zero => cases h
  | succ turns ih =>
    unfold ipv6ParseExthdrs at h
    split at h
    · rw [← Option.some.inj h]
      exact ⟨le_refl _, hc⟩
    · split at h
      · dsimp only at h
        split at h
        · cases h
        next hlen =>
          obtain ⟨h1, h2⟩ := ih (by omega) h
          exact ⟨by omega, h2⟩
      · split at h
        · split at h
          · cases h
          next hlen =>
            obtain ⟨h1, h2⟩ := ih (by omega) h
            exact ⟨by omega, h2⟩
        · cases h

/-! ## Dispatch -/

/-- What takes the frame over. -/
inductive Handed where
  | nothing
  | arpRcv
  | icmpv4Incoming
  | udpIn
  | tcpIn
  | timeExceeded
  | icmpv6Incoming (payload : Nat)
  | tcpInV6 (payload : Nat)
  | udpInV6
deriving DecidableEq

/-- `ip_rcv`. -/
def ipRcv (m : List U8) : Handed :=
  let ih := ipHdr m
  if ih.version ≠ IPV4 then .nothing
  else if ih.ihl < 5 then .nothing
  else if ih.ttl = 0 then .nothing
  else if checksum m ETH_HDR_LEN (ih.ihl.toNat * 4) 0 ≠ 0 then .nothing
  else if ih.proto = ICMPV4 then .icmpv4Incoming
  else if ih.proto = IP_TCP then .tcpIn
  else if ih.proto = IP_UDP then .udpIn
  else .nothing

/-- `ipv6_rcv`. -/
def ipv6Rcv (m : List U8) : Handed :=
  let ip6h := ipv6Hdr m
  let plen := ip6h.payloadLen.toNat
  if ip6h.version ≠ IPV6_VERSION then .nothing
  else if m.length < plen + IPV6_HDR_LEN then .nothing
  else if ip6h.hopLimit = 0 then .timeExceeded
  else
    match ipv6ParseExthdrs m (ETH_HDR_LEN + IPV6_HDR_LEN) plen 8 ip6h.nexthdr 0 none with
    | none => .nothing
    | some r =>
      let payload := ETH_HDR_LEN + IPV6_HDR_LEN + r.consumed
      if (r.fragOff.getD 0) ≠ 0 then .nothing
      else if r.finalNexthdr = NEXTHDR_ICMPV6 then .icmpv6Incoming payload
      else if r.finalNexthdr = NEXTHDR_TCP then .tcpInV6 payload
      else if r.finalNexthdr = NEXTHDR_UDP then .udpInV6
      else .nothing

/-- `netdev_receive`. -/
def netdevReceive (m : List U8) : Handed :=
  let ethertype := be16 m 12
  if ethertype = ETH_P_ARP then .arpRcv
  else if ethertype = ETH_P_IP then ipRcv m
  else if ethertype = ETH_P_IPV6 then ipv6Rcv m
  else .nothing

/-- Where `ipv6_rcv` finds the payload of TCP or ICMPv6, and that it lies within
the packet. -/
theorem ipv6Rcv_payload {m : List U8} {payload : Nat} (h : ipv6Rcv m = .tcpInV6 payload ∨ ipv6Rcv m = .icmpv6Incoming payload) :
    54 ≤ payload ∧ payload ≤ 54 + (ipv6Hdr m).payloadLen.toNat := by
  unfold ipv6Rcv at h
  dsimp only at h
  split at h
  · simp at h
  split at h
  · simp at h
  split at h
  · simp at h
  split at h
  · simp at h
  next r hr =>
    obtain ⟨-, hle⟩ := ipv6ParseExthdrs_le (Nat.zero_le _) hr
    have key : ETH_HDR_LEN + IPV6_HDR_LEN + r.consumed = payload := by
      split_ifs at h <;> simp at h <;> exact h
    rw [← key]
    exact ⟨by simp [ETH_HDR_LEN, IPV6_HDR_LEN], by simp only [ETH_HDR_LEN, IPV6_HDR_LEN]; omega⟩

/-! ## TCP -/

/-- A segment after `tcp_init_segment`: where its header was taken to be, the
fields found there, where `skb->payload` points, and `tcp_dlen`. -/
structure Received where
  th : Nat
  hdr : Tcphdr
  payload : Nat
  tcpDlen : Int
deriving DecidableEq

/-- `skb->dlen`. -/
def Received.dlen (r : Received) : U32 := BitVec.ofInt 32 r.tcpDlen

/-- `tcp_hlen`. -/
def tcpHlen (th : Tcphdr) : Nat := th.hl.toNat <<< 2

/-- `tcp_init_segment` for the header at byte `th`. -/
def tcpInitSegmentAt (m : List U8) (th : Nat) (tcpDlen : Int) : Received :=
  { th := th, hdr := tcphdrAt m th, payload := th + 20, tcpDlen := tcpDlen }

/-- `tcp_in` up to its lookup: the header is taken to be behind a `struct iphdr`
without options. -/
def tcpInAt (m : List U8) : Received :=
  let iph := ipHdr m
  let th := ETH_HDR_LEN + 20
  tcpInitSegmentAt m th ((iph.len.toNat : Int) - iph.ihl.toNat * 4 - tcpHlen (tcphdrAt m th))

/-- `tcp_in_v6` up to its lookup; the subtraction is unsigned, its result signed. -/
def tcpInV6At (m : List U8) (payload : Nat) : Received :=
  let ip6h := ipv6Hdr m
  tcpInitSegmentAt m payload
    (BitVec.toInt (U16.wide ip6h.payloadLen - BitVec.ofNat 32 (payload - (ETH_HDR_LEN + IPV6_HDR_LEN)) -
      BitVec.ofNat 32 (tcpHlen (tcphdrAt m payload))))

end LevelIp
