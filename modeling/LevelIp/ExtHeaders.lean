/-
The chain of extension headers as the packet carries it, said without the
function that walks it: which headers follow each other, where each begins and
how long it is. `ipv6_parse_exthdrs` and `ipv6_rcv` are then read against it.

The walk counts its turns, and the turn that finds the upper layer is one of
them, so it takes seven headers where its contract promises eight. The room
`ipv6_rcv` checks for is measured from the wrong end of the Ethernet header,
and of several Fragment headers it knows the offset of the last one only.
-/
import LevelIp.ExtChain

namespace LevelIp

/-- An extension header: its type, where it begins behind the fixed header, and
how many bytes it has. -/
structure ExtHdr where
  type : U8
  offset : Nat
  size : Nat
deriving DecidableEq

def isExtHdr (type : U8) : Bool := isOptHdr type || type = NEXTHDR_FRAGMENT

/-- A Fragment header has eight bytes, any other as many units of eight as its
second byte says, and one more. -/
def extSize (m : List U8) (start : Nat) (type : U8) (offset : Nat) : Nat :=
  if type = NEXTHDR_FRAGMENT then 8 else ((m.getD (start + offset + 1) 0).toNat + 1) * 8

/-- The headers `hs` lead from one of type `t` at `offset` to one of type `t'` at
`offset'`. -/
inductive Headers (m : List U8) (start : Nat) : U8 → Nat → List ExtHdr → U8 → Nat → Prop
  | nil (t : U8) (offset : Nat) : Headers m start t offset [] t offset
  | cons {t : U8} {offset : Nat} {hs : List ExtHdr} {t' : U8} {offset' : Nat} (ext : isExtHdr t = true)
      (rest : Headers m start (m.getD (start + offset) 0) (offset + extSize m start t offset) hs t' offset') :
      Headers m start t offset (⟨t, offset, extSize m start t offset⟩ :: hs) t' offset'

/-- The whole chain of a packet: headers that lie within the `plen` bytes of its
payload, up to the upper layer `final`. -/
structure Chain (m : List U8) (start plen : Nat) (t : U8) (hs : List ExtHdr) (final : U8) (total : Nat) : Prop where
  headers : Headers m start t 0 hs final total
  within : ∀ h ∈ hs, h.offset + h.size ≤ plen
  ends : endsChain final = true

/-! ## Fragment headers -/

/-- The field `frag_off` of a Fragment header, with the offset and the M bit. -/
def ExtHdr.fragField (m : List U8) (start : Nat) (h : ExtHdr) : U16 := be16 m (start + h.offset + 2)

/-- The offset, `IPV6_FRAG_OFFSET_MASK` taken off. -/
def ExtHdr.fragOff (m : List U8) (start : Nat) (h : ExtHdr) : U16 := (h.fragField m start &&& (0xFFF8 : U16)) >>> 3

/-- The bit `IPV6_FRAG_MF_MASK`. -/
def ExtHdr.more (m : List U8) (start : Nat) (h : ExtHdr) : Prop := h.fragField m start &&& (0x0001 : U16) ≠ 0

/-- The offsets of the Fragment headers, in order. -/
def fragOffs (m : List U8) (start : Nat) (hs : List ExtHdr) : List U16 :=
  (hs.filter (·.type = NEXTHDR_FRAGMENT)).map (·.fragOff m start)

/-! ## Facts about chains -/

section chains
variable {m : List U8} {start : Nat} {t t' : U8} {offset offset' : Nat} {hs : List ExtHdr}

theorem not_ext_of_ends (h : endsChain t = true) : isExtHdr t = false := by
  simp only [endsChain, Bool.or_eq_true, decide_eq_true_eq] at h
  rcases h with ((rfl | rfl) | rfl) | rfl <;> rfl

theorem Headers.sum (h : Headers m start t offset hs t' offset') : offset' = offset + (hs.map ExtHdr.size).sum := by
  induction h with
  | nil => rfl
  | cons _ _ ih => rw [ih, List.map_cons, List.sum_cons, Nat.add_assoc]

/-- Behind an upper-layer header there are no headers. -/
theorem Headers.of_ends (ht : endsChain t = true) (h : Headers m start t offset hs t' offset') :
    hs = [] ∧ t' = t ∧ offset' = offset := by
  cases h with
  | nil => exact ⟨rfl, rfl, rfl⟩
  | cons ext _ => rw [not_ext_of_ends ht] at ext; cases ext

/-- A packet has one chain: whatever leads into it is its beginning, and the rest
follows. -/
theorem Headers.rest {hs' : List ExtHdr} {final : U8} {total : Nat} (h : Headers m start t offset hs t' offset')
    (hwhole : Headers m start t offset hs' final total) (hends : endsChain final = true) :
    ∃ post, hs' = hs ++ post ∧ Headers m start t' offset' post final total := by
  induction h generalizing hs' with
  | nil => exact ⟨hs', rfl, hwhole⟩
  | cons ext _ ih =>
    cases hwhole with
    | nil => rw [not_ext_of_ends hends] at ext; cases ext
    | cons _ whole =>
      obtain ⟨post, rfl, hpost⟩ := ih whole
      exact ⟨post, rfl, hpost⟩

theorem Headers.unique {hs' : List ExtHdr} {final final' : U8} {total total' : Nat} (h : Headers m start t offset hs final total)
    (h' : Headers m start t offset hs' final' total') (hends : endsChain final = true) (hends' : endsChain final' = true) :
    hs = hs' ∧ final = final' ∧ total = total' := by
  obtain ⟨post, rfl, hpost⟩ := h.rest h' hends'
  obtain ⟨rfl, rfl, rfl⟩ := hpost.of_ends hends
  exact ⟨(List.append_nil hs).symm, rfl, rfl⟩

theorem fragOffs_nil : fragOffs m start [] = [] := rfl

theorem fragOffs_append {hs' : List ExtHdr} : fragOffs m start (hs ++ hs') = fragOffs m start hs ++ fragOffs m start hs' := by
  rw [fragOffs, List.filter_append, List.map_append, fragOffs, fragOffs]

theorem fragOffs_opt {h : ExtHdr} (hne : h.type ≠ NEXTHDR_FRAGMENT) : fragOffs m start (h :: hs) = fragOffs m start hs := by
  rw [fragOffs, List.filter_cons_of_neg (by simpa using hne), fragOffs]

theorem fragOffs_frag {h : ExtHdr} (heq : h.type = NEXTHDR_FRAGMENT) :
    fragOffs m start (h :: hs) = h.fragOff m start :: fragOffs m start hs := by
  rw [fragOffs, List.filter_cons_of_pos (by simpa using heq), List.map_cons, fragOffs]

end chains

/-! ## What the walk accepts -/

/-- From a header of type `t` at `offset`, fewer than `turns` headers within the
payload lead to the result `r`; `fragOff` is the offset known before. -/
def Leads (m : List U8) (start plen turns : Nat) (t : U8) (offset : Nat) (fragOff : Option U16) (r : ExthdrResult) : Prop :=
  ∃ hs, hs.length < turns ∧ Headers m start t offset hs r.finalNexthdr r.consumed ∧ endsChain r.finalNexthdr = true ∧
    (∀ h ∈ hs, h.offset + h.size ≤ plen) ∧ r.fragOff = (fragOffs m start hs).getLast?.or fragOff

section leads
variable {m : List U8} {start plen turns : Nat} {t : U8} {offset : Nat} {fragOff : Option U16} {r : ExthdrResult}

theorem leads_ends (ht : endsChain t = true) : Leads m start plen (turns + 1) t offset fragOff r ↔
    r = { finalNexthdr := t, fragOff := fragOff, consumed := offset } := by
  constructor
  · rintro ⟨hs, -, hh, -, -, hf⟩
    obtain ⟨rfl, hfinal, hcons⟩ := hh.of_ends ht
    rw [fragOffs_nil, List.getLast?_nil, Option.none_or] at hf
    rw [← hfinal, ← hcons, ← hf]
  · rintro rfl
    exact ⟨[], Nat.succ_pos _, .nil _ _, ht, by simp, by simp [fragOffs_nil]⟩

/-- One turn of the walk, past a header that does not end it. -/
theorem leads_header (ht : ¬ endsChain t = true) : Leads m start plen (turns + 1) t offset fragOff r ↔
    isExtHdr t = true ∧ offset + extSize m start t offset ≤ plen ∧
      Leads m start plen turns (m.getD (start + offset) 0) (offset + extSize m start t offset)
        ((fragOffs m start [⟨t, offset, extSize m start t offset⟩]).getLast?.or fragOff) r := by
  have hlast : ∀ hs, (fragOffs m start (⟨t, offset, extSize m start t offset⟩ :: hs)).getLast?.or fragOff =
      (fragOffs m start hs).getLast?.or ((fragOffs m start [⟨t, offset, extSize m start t offset⟩]).getLast?.or fragOff) := by
    intro hs
    rw [← Option.or_assoc, ← List.getLast?_append, ← fragOffs_append, List.singleton_append]
  constructor
  · rintro ⟨hs, hlen, hh, hends, hin, hf⟩
    cases hh with
    | nil => exact absurd hends ht
    | @cons _ _ hs _ _ ext rest =>
      rw [List.length_cons] at hlen
      rw [hlast] at hf
      exact ⟨ext, hin _ List.mem_cons_self, hs, by omega, rest, hends, fun h hm => hin h (List.mem_cons_of_mem _ hm), hf⟩
  · rintro ⟨ext, hle, hs, hlen, rest, hends, hin, hf⟩
    refine ⟨_ :: hs, by rw [List.length_cons]; omega, .cons ext rest, hends, ?_, by rw [hlast]; exact hf⟩
    intro h hm
    rcases List.mem_cons.mp hm with rfl | hm
    · exact hle
    · exact hin h hm

/-- The walk with `turns` turns left takes exactly the chains of fewer headers,
and keeps the offset of the last Fragment header. -/
theorem ipv6ParseExthdrs_eq_some : ipv6ParseExthdrs m start plen turns t offset fragOff = some r ↔
    Leads m start plen turns t offset fragOff r := by
  induction turns generalizing t offset fragOff with
  | zero => simp [ipv6ParseExthdrs, Leads]
  | succ turns ih =>
    unfold ipv6ParseExthdrs
    split
    next hends => rw [leads_ends hends, Option.some.injEq, eq_comm]
    next hends =>
      rw [leads_header hends]
      split
      next hopt =>
        have hne : t ≠ NEXTHDR_FRAGMENT := by
          rintro rfl
          cases hopt
        have hsize : extSize m start t offset = ((m.getD (start + offset + 1) 0).toNat + 1) * 8 := if_neg hne
        have hlast : fragOffs m start [⟨t, offset, extSize m start t offset⟩] = [] := fragOffs_opt hne
        rw [hlast, List.getLast?_nil, Option.none_or, hsize]
        dsimp only
        split
        next hshort => exact ⟨nofun, fun h => by omega⟩
        next hroom =>
          have hext : isExtHdr t = true := by simp [isExtHdr, hopt]
          rw [ih]
          exact ⟨fun h => ⟨hext, by omega, h⟩, fun h => h.2.2⟩
      next hopt =>
        split
        next heq =>
          have hsize : extSize m start t offset = 8 := if_pos heq
          have hlast : fragOffs m start [⟨t, offset, extSize m start t offset⟩] =
              [(be16 m (start + offset + 2) &&& (0xFFF8 : U16)) >>> 3] := fragOffs_frag heq
          rw [hlast, List.getLast?_singleton, Option.some_or, hsize]
          split
          next hshort => exact ⟨nofun, fun h => by omega⟩
          next hroom =>
            have hext : isExtHdr t = true := by simp [isExtHdr, heq]
            rw [ih]
            exact ⟨fun h => ⟨hext, by omega, h⟩, fun h => h.2.2⟩
        next hne => exact ⟨nofun, fun h => by simp [isExtHdr, hopt, hne] at h⟩

end leads

/-! ## The contract of `ipv6_parse_exthdrs` -/

section contract
variable (m : List U8) (start plen : Nat) (t : U8)

/-- What the contract promises of one call: success on the chains of at most
eight headers and on no others, the upper layer, and the bytes before it. -/
def KeepsContract : Prop :=
  ∀ (final : U8) (total : Nat),
    (∃ fragOff, ipv6ParseExthdrs m start plen 8 t 0 none = some { finalNexthdr := final, fragOff := fragOff, consumed := total }) ↔
      ∃ hs, hs.length ≤ 8 ∧ Chain m start plen t hs final total ∧ total = (hs.map ExtHdr.size).sum

variable {m start plen t}

theorem parse_chain {final : U8} {total : Nat} {fragOff : Option U16} :
    ipv6ParseExthdrs m start plen 8 t 0 none = some { finalNexthdr := final, fragOff := fragOff, consumed := total } ↔
      ∃ hs, hs.length ≤ 7 ∧ Chain m start plen t hs final total ∧ fragOff = (fragOffs m start hs).getLast? := by
  rw [ipv6ParseExthdrs_eq_some]
  constructor
  · rintro ⟨hs, hlen, hh, hends, hin, hf⟩
    exact ⟨hs, by omega, ⟨hh, hin, hends⟩, by rw [← Option.or_none (o := (fragOffs m start hs).getLast?)]; exact hf⟩
  · rintro ⟨hs, hlen, hc, hf⟩
    exact ⟨hs, by omega, hc.headers, hc.ends, hc.within, by rw [Option.or_none]; exact hf⟩

theorem Chain.sum {hs : List ExtHdr} {final : U8} {total : Nat} (h : Chain m start plen t hs final total) :
    total = (hs.map ExtHdr.size).sum := by
  rw [h.headers.sum, Nat.zero_add]

/-- The contract is kept but for the chains of exactly eight headers. -/
theorem contract_kept_iff (m : List U8) (start : Nat) (plen : U16) (t : U8) : KeepsContract m start plen.toNat t ↔
    ¬ ∃ hs final total, hs.length = 8 ∧ Chain m start plen.toNat t hs final total := by
  constructor
  · rintro hkept ⟨hs, final, total, hlen, hc⟩
    obtain ⟨fragOff, hparse⟩ := (hkept final total).mpr ⟨hs, by omega, hc, hc.sum⟩
    obtain ⟨hs', hlen', hc', -⟩ := parse_chain.mp hparse
    obtain ⟨rfl, -, -⟩ := hc.headers.unique hc'.headers hc.ends hc'.ends
    omega
  · intro hno final total
    constructor
    · rintro ⟨fragOff, hparse⟩
      obtain ⟨hs, hlen, hc, -⟩ := parse_chain.mp hparse
      exact ⟨hs, by omega, hc, hc.sum⟩
    · rintro ⟨hs, hlen, hc, -⟩
      have hne : hs.length ≠ 8 := fun h => hno ⟨hs, final, total, h, hc⟩
      exact ⟨_, parse_chain.mpr ⟨hs, by omega, hc, rfl⟩⟩

/-- Seven Destination Options headers with another behind them, and TCP. -/
def eightHeaders : List U8 := (List.replicate 7 [NEXTHDR_DEST, 0, 1, 4, 0, 0, 0, 0]).flatten ++ [NEXTHDR_TCP, 0, 1, 4, 0, 0, 0, 0]

/-- The chain of eight headers is refused. -/
theorem eight_refused : ¬ KeepsContract eightHeaders 0 64 NEXTHDR_DEST := by
  intro hkept
  have hchain : Chain eightHeaders 0 64 NEXTHDR_DEST ((List.range 8).map fun i => ⟨NEXTHDR_DEST, 8 * i, 8⟩) NEXTHDR_TCP 64 :=
    ⟨.cons rfl (.cons rfl (.cons rfl (.cons rfl (.cons rfl (.cons rfl (.cons rfl (.cons rfl (.nil _ _)))))))), by decide, rfl⟩
  obtain ⟨fragOff, hparse⟩ := (hkept NEXTHDR_TCP 64).mpr ⟨_, by decide, hchain, by decide⟩
  have hnone : ipv6ParseExthdrs eightHeaders 0 64 8 NEXTHDR_DEST 0 none = none := by decide
  rw [hnone] at hparse
  cases hparse

end contract

/-! ## What `ipv6_rcv` dispatches -/

/-- Where the payload of an IPv6 packet begins. -/
def payloadAt : Nat := ETH_HDR_LEN + IPV6_HDR_LEN

/-- The upper-layer protocol an IPv6 packet went to. -/
def Handed.upper : Handed → Option U8
  | .icmpv6Incoming _ => some NEXTHDR_ICMPV6
  | .tcpInV6 _ => some NEXTHDR_TCP
  | .udpInV6 => some NEXTHDR_UDP
  | _ => none

/-- The chain of the packet in the frame `m`. -/
abbrev PacketChain (m : List U8) (hs : List ExtHdr) (final : U8) (total : Nat) : Prop :=
  Chain m payloadAt (ipv6Hdr m).payloadLen.toNat (ipv6Hdr m).nexthdr hs final total

/-- The packets `ipv6_rcv` has no objection to. -/
structure Unobjected (m : List U8) (hs : List ExtHdr) (final : U8) (total : Nat) : Prop where
  version : (ipv6Hdr m).version = IPV6_VERSION
  room : (ipv6Hdr m).payloadLen.toNat + IPV6_HDR_LEN ≤ m.length
  hops : (ipv6Hdr m).hopLimit ≠ 0
  chain : PacketChain m hs final total
  short : hs.length ≤ 7
  whole : (fragOffs m payloadAt hs).getLast?.getD 0 = 0

theorem Chain.upper {m : List U8} {start plen : Nat} {t : U8} {hs : List ExtHdr} {final : U8} {total : Nat}
    (h : Chain m start plen t hs final total) :
    final = NEXTHDR_TCP ∨ final = NEXTHDR_UDP ∨ final = NEXTHDR_ICMPV6 ∨ final = NEXTHDR_NONE := by
  have hends := h.ends
  simp only [endsChain, Bool.or_eq_true, decide_eq_true_eq] at hends
  tauto

/-- What is sent on, by the upper layer found. -/
theorem upper_of_chain {final : U8} {payload : Nat}
    (h : final = NEXTHDR_TCP ∨ final = NEXTHDR_UDP ∨ final = NEXTHDR_ICMPV6 ∨ final = NEXTHDR_NONE) :
    (if final = NEXTHDR_ICMPV6 then Handed.icmpv6Incoming payload
      else if final = NEXTHDR_TCP then .tcpInV6 payload
      else if final = NEXTHDR_UDP then .udpInV6
      else .nothing).upper = if final = NEXTHDR_NONE then none else some final := by
  rcases h with rfl | rfl | rfl | rfl <;> rfl

/-- `ipv6_rcv` sends on the packets it has no objection to. -/
theorem ipv6Rcv_upper {m : List U8} {final : U8} : (ipv6Rcv m).upper = some final ↔
    final ≠ NEXTHDR_NONE ∧ ∃ hs total, Unobjected m hs final total := by
  unfold ipv6Rcv
  dsimp only
  split
  next h => exact ⟨nofun, fun ⟨_, _, _, hu⟩ => absurd hu.version h⟩
  next hversion =>
    split
    next h => exact ⟨nofun, fun ⟨_, _, _, hu⟩ => absurd hu.room (by omega)⟩
    next hroom =>
      split
      next h => exact ⟨nofun, fun ⟨_, _, _, hu⟩ => absurd h hu.hops⟩
      next hhops =>
        split
        next hparse =>
          refine ⟨nofun, fun ⟨_, hs, total, hu⟩ => ?_⟩
          have hsome := parse_chain.mpr ⟨hs, hu.short, hu.chain, rfl⟩
          rw [show ETH_HDR_LEN + IPV6_HDR_LEN = payloadAt from rfl, hsome] at hparse
          cases hparse
        next r hparse =>
          obtain ⟨hs, hlen, hc, hf⟩ := parse_chain.mp hparse
          change r.fragOff = (fragOffs m payloadAt hs).getLast? at hf
          have hthis : (∃ hs total, Unobjected m hs final total) ↔ final = r.finalNexthdr ∧ r.fragOff.getD 0 = 0 := by
            constructor
            · rintro ⟨hs', total, hu⟩
              obtain ⟨rfl, hfinal, -⟩ := hu.chain.headers.unique hc.headers hu.chain.ends hc.ends
              exact ⟨hfinal, by rw [hf]; exact hu.whole⟩
            · rintro ⟨rfl, hzero⟩
              exact ⟨hs, _, not_not.mp hversion, by omega, hhops, hc, hlen, by rw [← hf]; exact hzero⟩
          rw [hthis]
          split
          next hfrag => exact ⟨nofun, fun h => absurd h.2.2 hfrag⟩
          next hfrag =>
            rw [upper_of_chain hc.upper]
            split
            next hnone => exact ⟨nofun, fun h => absurd (h.2.1.trans hnone) h.1⟩
            next hnone =>
              rw [Option.some.injEq]
              exact ⟨fun h => ⟨h ▸ hnone, h.symm, not_not.mp hfrag⟩, fun h => h.2.1.symm⟩

/-! ## Fragments -/

/-- Neither TCP nor ICMPv6 sees a packet that has a Fragment header with an offset
or the M bit anywhere in its chain. -/
def KeepsFragmentsOut (m : List U8) : Prop :=
  ∀ (hs : List ExtHdr) (t : U8) (offset : Nat), Headers m payloadAt (ipv6Hdr m).nexthdr 0 hs t offset →
    (∃ h ∈ hs, h.type = NEXTHDR_FRAGMENT ∧ (h.fragOff m payloadAt ≠ 0 ∨ h.more m payloadAt)) →
    ∀ payload, ipv6Rcv m ≠ .tcpInV6 payload ∧ ipv6Rcv m ≠ .icmpv6Incoming payload

/-- A packet of 28 bytes: a Fragment header with offset zero and the M bit, and a
TCP header. -/
def firstFragment : List U8 :=
  List.replicate 12 0 ++ [0x86, 0xDD] ++ [0x60, 0, 0, 0, 0, 28, NEXTHDR_FRAGMENT, 64] ++ List.replicate 32 0 ++
    [NEXTHDR_TCP, 0, 0, 1, 0, 0, 0, 1] ++ List.replicate 20 0

/-- A first fragment is taken for a whole packet. -/
theorem first_fragment_taken : ¬ KeepsFragmentsOut firstFragment := by
  intro hkept
  have hchain : Headers firstFragment payloadAt (ipv6Hdr firstFragment).nexthdr 0 [⟨NEXTHDR_FRAGMENT, 0, 8⟩] NEXTHDR_TCP 8 :=
    .cons rfl (.nil _ _)
  have hmore : (⟨NEXTHDR_FRAGMENT, 0, 8⟩ : ExtHdr).more firstFragment payloadAt := by
    unfold ExtHdr.more
    decide
  have htaken : ipv6Rcv firstFragment = .tcpInV6 62 := by decide
  exact (hkept _ _ _ hchain ⟨_, by simp, rfl, .inr hmore⟩ 62).1 htaken

theorem upper_none {m : List U8} (h : (ipv6Rcv m).upper = none) (payload : Nat) :
    ipv6Rcv m ≠ .tcpInV6 payload ∧ ipv6Rcv m ≠ .icmpv6Incoming payload := by
  constructor <;> intro heq <;> rw [heq] at h <;> cases h

/-- The last Fragment header of a packet that is sent on has offset zero. -/
theorem Unobjected.last {m : List U8} {hs pre : List ExtHdr} {h : ExtHdr} {final t : U8} {total offset : Nat}
    (hu : Unobjected m hs final total) (hh : Headers m payloadAt (ipv6Hdr m).nexthdr 0 (pre ++ [h]) t offset)
    (hfrag : h.type = NEXTHDR_FRAGMENT)
    (hlast : ∀ post t' offset', Headers m payloadAt t offset post t' offset' → ∀ h' ∈ post, h'.type ≠ NEXTHDR_FRAGMENT) :
    h.fragOff m payloadAt = 0 := by
  obtain ⟨post, rfl, hpost⟩ := hh.rest hu.chain.headers hu.chain.ends
  have hnone : fragOffs m payloadAt post = [] := by
    rw [fragOffs, List.filter_eq_nil_iff.mpr fun h' hm => by simpa using hlast post _ _ hpost h' hm, List.map_nil]
  have hwhole := hu.whole
  rw [fragOffs_append, hnone, List.append_nil, fragOffs_append, fragOffs_frag hfrag, fragOffs_nil, List.getLast?_append,
    List.getLast?_singleton, Option.some_or, Option.getD_some] at hwhole
  exact hwhole

/-- A packet whose last Fragment header has an offset is dropped. -/
theorem later_fragment_dropped {m : List U8} {pre : List ExtHdr} {h : ExtHdr} {t : U8} {offset : Nat}
    (hh : Headers m payloadAt (ipv6Hdr m).nexthdr 0 (pre ++ [h]) t offset) (hfrag : h.type = NEXTHDR_FRAGMENT)
    (hoff : h.fragOff m payloadAt ≠ 0)
    (hlast : ∀ post t' offset', Headers m payloadAt t offset post t' offset' → ∀ h' ∈ post, h'.type ≠ NEXTHDR_FRAGMENT)
    (payload : Nat) : ipv6Rcv m ≠ .tcpInV6 payload ∧ ipv6Rcv m ≠ .icmpv6Incoming payload := by
  refine upper_none ?_ payload
  cases hup : (ipv6Rcv m).upper with
  | none => rfl
  | some final =>
    obtain ⟨-, hs, total, hu⟩ := ipv6Rcv_upper.mp hup
    exact absurd (hu.last hh hfrag hlast) hoff

/-- A packet with offset one in its Fragment header. -/
def secondFragment : List U8 :=
  List.replicate 12 0 ++ [0x86, 0xDD] ++ [0x60, 0, 0, 0, 0, 28, NEXTHDR_FRAGMENT, 64] ++ List.replicate 32 0 ++
    [NEXTHDR_TCP, 0, 0, 8, 0, 0, 0, 1] ++ List.replicate 20 0

theorem later_fragment_dropped_second : ipv6Rcv secondFragment ≠ .tcpInV6 62 ∧ ipv6Rcv secondFragment ≠ .icmpv6Incoming 62 :=
  @later_fragment_dropped secondFragment [] ⟨NEXTHDR_FRAGMENT, 0, 8⟩ NEXTHDR_TCP 8 (.cons rfl (.nil _ _)) rfl
    (by decide) (fun _ _ _ hpost _ hm => by rw [(hpost.of_ends rfl).1] at hm; cases hm) 62

/-! ## The frame around the packet -/

/-- The bytes `ipv6_parse_exthdrs` reads. -/
def exthdrReads (m : List U8) (start plen : Nat) : (turns : Nat) → (nexthdr : U8) → (consumed : Nat) → List Nat
  | 0, _, _ => []
  | turns + 1, nexthdr, consumed =>
    if endsChain nexthdr then []
    else if isOptHdr nexthdr then
      let optlen := ((m.getD (start + consumed + 1) 0).toNat + 1) * 8
      if plen < consumed + 2 then []
      else if plen < consumed + optlen then [start + consumed + 1]
      else (start + consumed + 1) :: (start + consumed) :: exthdrReads m start plen turns (m.getD (start + consumed) 0) (consumed + optlen)
    else if nexthdr = NEXTHDR_FRAGMENT then
      if plen < consumed + 8 then []
      else
        [2, 3, 4, 5, 6, 7, 0].map (start + consumed + ·) ++
          exthdrReads m start plen turns (m.getD (start + consumed) 0) (consumed + 8)
    else []

/-- The walk reads nothing behind the payload. -/
theorem exthdrReads_lt {m : List U8} {start plen turns : Nat} {nexthdr : U8} {consumed i : Nat}
    (h : i ∈ exthdrReads m start plen turns nexthdr consumed) : i < start + plen := by
  induction turns generalizing nexthdr consumed with
  | zero => simp [exthdrReads] at h
  | succ turns ih =>
    unfold exthdrReads at h
    split at h
    · simp at h
    · split at h
      · dsimp only at h
        split at h
        · simp at h
        · split at h
          · rw [List.mem_singleton.mp h]
            omega
          · rcases List.mem_cons.mp h with rfl | h
            · omega
            · rcases List.mem_cons.mp h with rfl | h
              · omega
              · exact ih h
      · split at h
        · split at h
          · simp at h
          · rcases List.mem_append.mp h with h | h
            · obtain ⟨k, hk, rfl⟩ := List.mem_map.mp h
              have hle : ∀ k ∈ [2, 3, 4, 5, 6, 7, 0], k ≤ 7 := by decide
              have := hle k hk
              omega
            · exact ih h
        · simp at h

/-- A packet that is sent on lies within its frame: with its headers, with every
byte that is read of its chain, and with its payload. -/
structure Inside (m : List U8) : Prop where
  fits : ETH_HDR_LEN + IPV6_HDR_LEN + (ipv6Hdr m).payloadLen.toNat ≤ m.length
  chain : ∀ i ∈ exthdrReads m payloadAt (ipv6Hdr m).payloadLen.toNat 8 (ipv6Hdr m).nexthdr 0, i < m.length
  data : ∀ i, payloadAt ≤ i → i < payloadAt + (ipv6Hdr m).payloadLen.toNat → i < m.length

/-- What is sent on lies within the frame but for the packets without objection
that are too long for it by up to fourteen bytes. -/
theorem sent_inside_iff (m : List U8) : ((ipv6Rcv m).upper.isSome → Inside m) ↔
    ¬ (m.length < payloadAt + (ipv6Hdr m).payloadLen.toNat ∧
      ∃ hs final total, final ≠ NEXTHDR_NONE ∧ Unobjected m hs final total) := by
  constructor
  · rintro hin ⟨hlen, hs, final, total, hne, hu⟩
    have hup : (ipv6Rcv m).upper = some final := ipv6Rcv_upper.mpr ⟨hne, hs, total, hu⟩
    have hfits := (hin (by rw [hup]; rfl)).fits
    exact absurd hfits (by simpa [payloadAt] using hlen)
  · intro hno hsome
    obtain ⟨final, hup⟩ := Option.isSome_iff_exists.mp hsome
    obtain ⟨hne, hs, total, hu⟩ := ipv6Rcv_upper.mp hup
    have hfits : payloadAt + (ipv6Hdr m).payloadLen.toNat ≤ m.length := by
      by_contra hlt
      exact hno ⟨by omega, hs, final, total, hne, hu⟩
    exact ⟨hfits, fun i hi => lt_of_lt_of_le (exthdrReads_lt hi) hfits, fun i _ hi => lt_of_lt_of_le hi hfits⟩

/-- A TCP packet of 34 bytes, 14 of which the frame does not have. -/
def cutFrame : List U8 :=
  List.replicate 12 0 ++ [0x86, 0xDD] ++ [0x60, 0, 0, 0, 0, 34, NEXTHDR_TCP, 64] ++ List.replicate 52 0

theorem cut_frame_sent : ¬ ((ipv6Rcv cutFrame).upper.isSome → Inside cutFrame) := by
  intro hin
  have hfits := (hin (by decide)).fits
  revert hfits
  decide

end LevelIp
