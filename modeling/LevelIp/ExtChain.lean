/-
An IPv6 packet in its frame, with and without a chain of extension headers
before its payload.
-/
import LevelIp.Packets
import LevelIp.Lib.Bytes

namespace LevelIp

/-- `memcpy` of `len` bytes at `addr`. -/
def copyOut (m : List U8) (addr len : Nat) : List U8 := (List.range len).map fun i => m.getD (addr + i) 0

/-- An IPv6 packet: its headers, its payload, the upper-layer protocol of which
is `proto`, and what follows it in the frame. -/
structure Packet6 where
  eth : Vector U8 14
  vtcFlow : Vector U8 4
  hopLimit : U8
  saddr : In6Addr
  daddr : In6Addr
  proto : U8
  payload : List U8
  trailer : List U8 := []

namespace Packet6

/-- The two bytes of `payload_len`. -/
def lenBytes (n : Nat) : List U8 := [BitVec.ofNat 8 (n / 256), BitVec.ofNat 8 n]

/-- The frame of the packet with a chain that begins with a header `nexthdr`. -/
def withChain (p : Packet6) (nexthdr : U8) (chain : List U8) : List U8 :=
  [p.eth.toList, p.vtcFlow.toList, lenBytes (p.payload.length + chain.length), [nexthdr], [p.hopLimit], p.saddr.toList,
    p.daddr.toList, chain, p.payload, p.trailer].flatten

/-- The frame of the packet without extension headers. -/
def bare (p : Packet6) : List U8 := p.withChain p.proto []

/-- `ipv6_parse_exthdrs` accepts the chain, and `payload_len` has room for it. -/
structure Accepts (p : Packet6) (nexthdr : U8) (chain : List U8) : Prop where
  fits : p.payload.length + chain.length < 2 ^ 16
  parsed : ∃ fragOff : Option U16, fragOff.getD 0 = 0 ∧
    ipv6ParseExthdrs (p.withChain nexthdr chain) (ETH_HDR_LEN + IPV6_HDR_LEN) (p.payload.length + chain.length) 8 nexthdr 0 none =
      some { finalNexthdr := p.proto, fragOff := fragOff, consumed := chain.length }

/-- The version and the hop limit are good. -/
def Regular (p : Packet6) : Prop := hiNibble (p.vtcFlow[0]) = IPV6_VERSION ∧ p.hopLimit ≠ 0

/-! ## Reading the frame -/

section read
variable {a rest : List U8} {i : Nat}

theorem getD_skip (h : a.length ≤ i) : (a ++ rest).getD i 0 = rest.getD (i - a.length) 0 := List.getD_append_right _ _ _ _ h

theorem be16_skip (h : a.length ≤ i) : be16 (a ++ rest) i = be16 rest (i - a.length) := by
  have h1 : i + 1 - a.length = i - a.length + 1 := by omega
  rw [be16, getD_skip h, getD_skip (by omega), h1, be16]

theorem in6At_skip (h : a.length ≤ i) : in6At (a ++ rest) i = in6At rest (i - a.length) := by
  unfold in6At
  congr 1
  funext k
  have hk : i + k.val - a.length = i - a.length + k.val := by omega
  rw [getD_skip (by omega), hk]

theorem in6At_here (x : In6Addr) (rest : List U8) : in6At (x.toList ++ rest) 0 = x := by
  unfold in6At
  refine Vector.ext fun k hk => ?_
  have hget : (x.toList ++ rest)[k]? = some x[k] := by
    rw [List.getElem?_append_left (by simpa using hk)]
    simp [hk]
  rw [Vector.getElem_ofFn, Nat.zero_add, List.getD_eq_getElem?_getD, hget, Option.getD_some]

theorem be16_here {n : Nat} (h : n < 2 ^ 16) (rest : List U8) : be16 (lenBytes n ++ rest) 0 = BitVec.ofNat 16 n := by
  have hlo : n % 2 ^ 8 < 2 ^ 8 := Nat.mod_lt _ (by decide)
  have hsum : (n / 256) <<< 8 ||| n % 2 ^ 8 = n := by
    rw [← Nat.shiftLeft_add_eq_or_of_lt hlo, Nat.shiftLeft_eq]
    omega
  have hhi : (n / 256 % 2 ^ 8 % 2 ^ 16) <<< 8 % 2 ^ 16 = (n / 256) <<< 8 := by
    rw [Nat.shiftLeft_eq, Nat.shiftLeft_eq]
    omega
  have hlow : n % 2 ^ 8 % 2 ^ 16 = n % 2 ^ 8 := by omega
  rw [← BitVec.toNat_inj]
  simp only [be16, lenBytes, List.cons_append, List.getD_cons_zero, List.getD_cons_succ, BitVec.toNat_or, BitVec.toNat_shiftLeft,
    BitVec.toNat_setWidth, BitVec.toNat_ofNat]
  rw [hhi, hlow, hsum, Nat.mod_eq_of_lt h]

end read

variable (p : Packet6) (nexthdr : U8) (chain : List U8)

/-- The fields of the IPv6 header. -/
theorem ipv6Hdr_withChain (h : p.payload.length + chain.length < 2 ^ 16) : ipv6Hdr (p.withChain nexthdr chain) =
    { version := hiNibble (p.vtcFlow[0]), payloadLen := BitVec.ofNat 16 (p.payload.length + chain.length), nexthdr := nexthdr,
      hopLimit := p.hopLimit, saddr := p.saddr, daddr := p.daddr } := by
  have hlen : ∀ n, (lenBytes n).length = 2 := fun _ => rfl
  simp only [ipv6Hdr, withChain, ETH_HDR_LEN, List.flatten_cons]
  congr 1
  · rw [getD_skip (by simp)]
    simp
  · rw [be16_skip (by simp), be16_skip (by simp)]
    simp only [Vector.length_toList]
    exact be16_here h _
  · rw [getD_skip (by simp), getD_skip (by simp), getD_skip (by simp [hlen])]
    simp [hlen]
  · rw [getD_skip (by simp), getD_skip (by simp), getD_skip (by simp [hlen]), getD_skip (by simp [hlen])]
    simp [hlen]
  · rw [in6At_skip (by simp), in6At_skip (by simp), in6At_skip (by simp [hlen]), in6At_skip (by simp [hlen]),
      in6At_skip (by simp [hlen])]
    simp only [Vector.length_toList, hlen]
    exact in6At_here _ _
  · rw [in6At_skip (by simp), in6At_skip (by simp), in6At_skip (by simp [hlen]), in6At_skip (by simp [hlen]),
      in6At_skip (by simp [hlen]), in6At_skip (by simp [hlen])]
    simp only [Vector.length_toList, hlen]
    exact in6At_here _ _

/-- What is behind the IPv6 header. -/
theorem drop_header : (p.withChain nexthdr chain).drop 54 = chain ++ (p.payload ++ p.trailer) := by
  have hlen : ∀ n, (lenBytes n).length = 2 := fun _ => rfl
  have hsplit : p.withChain nexthdr chain = [p.eth.toList, p.vtcFlow.toList, lenBytes (p.payload.length + chain.length), [nexthdr],
      [p.hopLimit], p.saddr.toList, p.daddr.toList].flatten ++ (chain ++ (p.payload ++ p.trailer)) := by
    simp [withChain]
  rw [hsplit]
  exact List.drop_left' (by simp [hlen])

/-- What is behind the chain. -/
theorem drop_withChain : (p.withChain nexthdr chain).drop (54 + chain.length) = p.payload ++ p.trailer := by
  rw [← List.drop_drop, drop_header, List.drop_left]

theorem length_withChain : (p.withChain nexthdr chain).length = 54 + chain.length + p.payload.length + p.trailer.length := by
  have hlen : ∀ n, (lenBytes n).length = 2 := fun _ => rfl
  simp [withChain, hlen]
  omega

theorem getD_withChain (i : Nat) : (p.withChain nexthdr chain).getD (54 + chain.length + i) 0 = (p.payload ++ p.trailer).getD i 0 := by
  rw [← drop_withChain p nexthdr chain, List.getD_eq_getElem?_getD, List.getD_eq_getElem?_getD, List.getElem?_drop]

variable {p nexthdr chain}

theorem getD_payload {i : Nat} (hi : i < p.payload.length) : (p.payload ++ p.trailer).getD i 0 = p.payload.getD i 0 := by
  rw [List.getD_eq_getElem?_getD, List.getD_eq_getElem?_getD, List.getElem?_append_left hi]

/-- An accepted chain is skipped. -/
theorem Accepts.rcv (h : p.Accepts nexthdr chain) (hreg : p.Regular) :
    ipv6Rcv (p.withChain nexthdr chain) =
      if p.proto = NEXTHDR_ICMPV6 then .icmpv6Incoming (54 + chain.length)
      else if p.proto = NEXTHDR_TCP then .tcpInV6 (54 + chain.length)
      else if p.proto = NEXTHDR_UDP then .udpInV6
      else .nothing := by
  obtain ⟨hfits, fragOff, hfrag, hparse⟩ := h
  have hplen : (BitVec.ofNat 16 (p.payload.length + chain.length)).toNat = p.payload.length + chain.length := by
    rw [BitVec.toNat_ofNat, Nat.mod_eq_of_lt hfits]
  unfold ipv6Rcv
  rw [ipv6Hdr_withChain p nexthdr chain hfits]
  dsimp only
  rw [hplen, if_neg (not_not.mpr hreg.1), if_neg (by rw [length_withChain, IPV6_HDR_LEN]; omega), if_neg hreg.2, hparse]
  dsimp only
  rw [if_neg (not_not.mpr hfrag)]
  rfl

/-- Before an empty chain stands the header of the payload. -/
theorem Accepts.nil (h : p.Accepts nexthdr []) : nexthdr = p.proto := by
  obtain ⟨-, fragOff, -, hparse⟩ := h
  unfold ipv6ParseExthdrs at hparse
  split at hparse
  · cases hparse
    rfl
  -- every header has some bytes
  · exfalso
    split at hparse
    · dsimp only at hparse
      split at hparse
      · cases hparse
      · have := (ipv6ParseExthdrs_le (by omega) hparse).1
        simp at this
    · split at hparse
      · split at hparse
        · cases hparse
        · have := (ipv6ParseExthdrs_le (by omega) hparse).1
          simp at this
      · cases hparse

/-- No chain at all is accepted. -/
theorem accepts_bare (hproto : endsChain p.proto) (hlen : p.payload.length < 2 ^ 16) : p.Accepts p.proto [] := by
  refine ⟨hlen, none, rfl, ?_⟩
  unfold ipv6ParseExthdrs
  rw [if_pos hproto]
  rfl

end Packet6

end LevelIp
