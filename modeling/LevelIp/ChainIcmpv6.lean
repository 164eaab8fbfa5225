/-
`icmpv6_incoming` and `icmpv6_echo_reply`, and what a chain of extension
headers changes: the checksum is taken over what is left of the payload after
the chain, but the Echo Reply copies `payload_len` bytes, and the option walks
of `ndp_ra_process` and `ndp_na_process` go on for as many bytes as the chain
has, past the end of the message.
-/
import LevelIp.AddrFacts
import LevelIp.ExtChain
import LevelIp.NdpQueue

namespace LevelIp

def ICMPV6_ECHO_REQUEST : U8 := 128
def ICMPV6_ECHO_REPLY : U8 := 129

/-- The 40 bytes of the pseudo-header. -/
def pseudoHeader (saddr daddr : In6Addr) (len : U16) : List U8 :=
  saddr.toList ++ daddr.toList ++ [(0 : U8), 0, (len >>> 8).setWidth 8, len.setWidth 8, 0, 0, 0, NEXTHDR_ICMPV6]

/-- `icmpv6_checksum` over `len` bytes at `addr`. -/
def icmpv6Checksum (saddr daddr : In6Addr) (m : List U8) (addr : Nat) (len : U16) : U16 :=
  checksum m addr len.toNat (sumEvery16bits (pseudoHeader saddr daddr len) 0 40)

/-- The message that `icmpv6_echo_reply` sends, with its addresses. -/
structure EchoReply where
  saddr : In6Addr
  daddr : In6Addr
  bytes : List U8
deriving DecidableEq

/-- The reply that `icmpv6_echo_reply` builds for a request at `icmph`. -/
def icmpv6EchoReply (m : List U8) (icmph : Nat) : EchoReply :=
  let ip6h := ipv6Hdr m
  let icmpv6Len := ip6h.payloadLen
  let data := (((copyOut m icmph icmpv6Len.toNat).set 0 ICMPV6_ECHO_REPLY).set 2 0).set 3 0
  let csum := icmpv6Checksum ip6h.daddr ip6h.saddr data 0 icmpv6Len
  { saddr := ip6h.daddr, daddr := ip6h.saddr, bytes := (data.set 2 (csum.setWidth 8)).set 3 ((csum >>> 8).setWidth 8) }

/-- What the handlers of `ndp.c` are given: `payload_len` is that of the IPv6
header. -/
def ndpMsgAt (m : List U8) (icmph : Nat) : NdpMsg :=
  let ip6h := ipv6Hdr m
  { hopLimit := ip6h.hopLimit, saddr := ip6h.saddr, daddr := ip6h.daddr, payloadLen := ip6h.payloadLen, bytes := m.drop icmph }

/-- `icmpv6_len` in `icmpv6_incoming`. -/
def icmpv6Len (m : List U8) (payload : Nat) : U16 :=
  (ipv6Hdr m).payloadLen - BitVec.ofNat 16 (payload - (ETH_HDR_LEN + IPV6_HDR_LEN))

namespace Host6

/-- `icmpv6_incoming` for Echo Requests and the messages of `ndp.c`; the errors
and Packet Too Big touch nothing of this state. -/
def icmpv6Incoming (h : Host6) (m : List U8) (payload : Nat) : Host6 × Option EchoReply :=
  let ip6h := ipv6Hdr m
  let type := m.getD payload 0
  if icmpv6Checksum ip6h.saddr ip6h.daddr m payload (icmpv6Len m payload) ≠ 0 then (h, none)
  else if type = ICMPV6_ECHO_REQUEST then
    let reply := icmpv6EchoReply m payload
    (h.ipv6OutputEx (some reply.saddr) reply.daddr NEXTHDR_ICMPV6, some reply)
  else (h.ndpIncoming (ndpMsgAt m payload), none)

/-- A frame that goes to ICMPv6. -/
def ipv6Input (h : Host6) (m : List U8) : Host6 × Option EchoReply :=
  match ipv6Rcv m with
  | .icmpv6Incoming payload => h.icmpv6Incoming m payload
  | _ => (h, none)

end Host6

namespace Packet6

variable (p : Packet6) (nexthdr : U8) (chain : List U8)

/-- The type of an ICMPv6 message. -/
def icmpType : U8 := p.payload.getD 0 0

/-- **The packets in question**: Echo Requests, and Router Advertisements,
Neighbor Solicitations and Advertisements, with a checksum that is right, and a
chain that is accepted. -/
structure Icmpv6 : Prop where
  accepts : p.Accepts nexthdr chain
  regular : p.Regular
  proto : p.proto = NEXTHDR_ICMPV6
  type : p.icmpType ∈ [ICMPV6_ECHO_REQUEST, ICMPV6_ROUTER_ADVERT, ICMPV6_NEIGHBOR_SOLICIT, ICMPV6_NEIGHBOR_ADVERT]
  csum : icmpv6Checksum p.saddr p.daddr p.payload 0 (BitVec.ofNat 16 p.payload.length) = 0

/-- What `ndp.c` gets of the message when it is behind `k` bytes of chain. -/
def ndpMsg (k : Nat) : NdpMsg where
  hopLimit := p.hopLimit
  saddr := p.saddr
  daddr := p.daddr
  payloadLen := BitVec.ofNat 16 (p.payload.length + k)
  bytes := p.payload ++ p.trailer

variable {p nexthdr chain}

/-- The length of the message is what the chain leaves of `payload_len`. -/
theorem icmpv6Len_withChain (p : Packet6) (nexthdr : U8) (chain : List U8) (h : p.payload.length + chain.length < 2 ^ 16) :
    icmpv6Len (p.withChain nexthdr chain) (54 + chain.length) = BitVec.ofNat 16 p.payload.length := by
  have hc : 54 + chain.length - (ETH_HDR_LEN + IPV6_HDR_LEN) = chain.length := Nat.add_sub_cancel_left 54 _
  unfold icmpv6Len
  rw [ipv6Hdr_withChain p nexthdr chain h, hc]
  dsimp only
  rw [BitVec.ofNat_add, BitVec.add_sub_cancel]

/-- The checksum is that of the payload, wherever it is. -/
theorem icmpv6Checksum_withChain (p : Packet6) (nexthdr : U8) (chain : List U8) :
    icmpv6Checksum p.saddr p.daddr (p.withChain nexthdr chain) (54 + chain.length) (BitVec.ofNat 16 p.payload.length) =
      icmpv6Checksum p.saddr p.daddr p.payload 0 (BitVec.ofNat 16 p.payload.length) := by
  refine checksum_congr (fun i hi => ?_) _
  have hi' : i < p.payload.length := by
    rw [BitVec.toNat_ofNat] at hi
    omega
  rw [getD_withChain, getD_payload hi', Nat.zero_add]

namespace Icmpv6

theorem payload_pos (h : p.Icmpv6 nexthdr chain) : 0 < p.payload.length := by
  by_contra hn
  have hnil : p.payload = [] := List.length_eq_zero_iff.mp (by omega)
  have ht := h.type
  rw [icmpType, hnil] at ht
  exact absurd ht (by decide)

/-- **What a packet behind a chain does.** -/
theorem input (hp : p.Icmpv6 nexthdr chain) (h : Host6) : h.ipv6Input (p.withChain nexthdr chain) =
    if p.icmpType = ICMPV6_ECHO_REQUEST then
      (h.ipv6OutputEx (some p.daddr) p.saddr NEXTHDR_ICMPV6, some (icmpv6EchoReply (p.withChain nexthdr chain) (54 + chain.length)))
    else (h.ndpIncoming (p.ndpMsg chain.length), none) := by
  have hfits := hp.accepts.fits
  have hhdr := ipv6Hdr_withChain p nexthdr chain hfits
  have hlen := icmpv6Len_withChain p nexthdr chain hfits
  have hcsum := icmpv6Checksum_withChain p nexthdr chain
  rw [hp.csum] at hcsum
  have htype : (p.withChain nexthdr chain).getD (54 + chain.length) 0 = p.icmpType := by
    have h0 := getD_withChain p nexthdr chain 0
    rw [Nat.add_zero, getD_payload hp.payload_pos] at h0
    exact h0
  unfold Host6.ipv6Input
  rw [hp.accepts.rcv hp.regular, if_pos hp.proto]
  dsimp only
  unfold Host6.icmpv6Incoming
  dsimp only
  rw [hlen, hhdr]
  dsimp only
  rw [hcsum, htype, if_neg (not_not.mpr rfl)]
  have hreply : (icmpv6EchoReply (p.withChain nexthdr chain) (54 + chain.length)).saddr = p.daddr ∧
      (icmpv6EchoReply (p.withChain nexthdr chain) (54 + chain.length)).daddr = p.saddr := by
    unfold icmpv6EchoReply
    rw [hhdr]
    exact ⟨rfl, rfl⟩
  have hmsg : ndpMsgAt (p.withChain nexthdr chain) (54 + chain.length) = p.ndpMsg chain.length := by
    unfold ndpMsgAt
    rw [hhdr, drop_withChain]
    rfl
  rw [hreply.1, hreply.2, hmsg]

/-- Without a chain it is the same packet. -/
theorem bare (hp : p.Icmpv6 nexthdr chain) : p.Icmpv6 p.proto [] := by
  have hfits := hp.accepts.fits
  have hend : endsChain p.proto := by
    rw [hp.proto]
    decide
  exact ⟨accepts_bare hend (by omega), hp.regular, hp.proto, hp.type, hp.csum⟩

end Icmpv6

/-! ## Echo -/

/-- The reply has the request's message, but for type and checksum. -/
def Echoes (p : Packet6) (r : EchoReply) : Prop :=
  r.bytes.length = p.payload.length ∧ ∀ i, i ≠ 0 → i ≠ 2 → i ≠ 3 → r.bytes[i]? = p.payload[i]?

theorem length_icmpv6EchoReply (m : List U8) (icmph : Nat) :
    (icmpv6EchoReply m icmph).bytes.length = (ipv6Hdr m).payloadLen.toNat := by
  simp [icmpv6EchoReply, copyOut]

/-- The reply is longer than the request by the length of the chain. -/
theorem length_reply (h : p.payload.length + chain.length < 2 ^ 16) :
    (icmpv6EchoReply (p.withChain nexthdr chain) (54 + chain.length)).bytes.length = p.payload.length + chain.length := by
  rw [length_icmpv6EchoReply, ipv6Hdr_withChain p nexthdr chain h]
  exact Nat.mod_eq_of_lt h

theorem echoes_bare (h : p.payload.length < 2 ^ 16) : p.Echoes (icmpv6EchoReply p.bare 54) := by
  have hlen : (ipv6Hdr p.bare).payloadLen.toNat = p.payload.length := by
    rw [bare, ipv6Hdr_withChain p p.proto [] h]
    exact Nat.mod_eq_of_lt h
  have hcopy : copyOut p.bare 54 p.payload.length = p.payload := by
    refine List.ext_getElem (by simp [copyOut]) fun i hi hi' => ?_
    have hget := getD_withChain p p.proto [] i
    rw [getD_payload hi'] at hget
    simp only [copyOut, List.getElem_map, List.getElem_range]
    exact hget.trans (List.getD_eq_getElem _ _ hi')
  refine ⟨@length_reply p p.proto [] h, fun i h0 h2 h3 => ?_⟩
  unfold icmpv6EchoReply
  dsimp only
  rw [hlen, hcopy, List.getElem?_set_ne (Ne.symm h3), List.getElem?_set_ne (Ne.symm h2), List.getElem?_set_ne (Ne.symm h3),
    List.getElem?_set_ne (Ne.symm h2), List.getElem?_set_ne (Ne.symm h0)]

/-! ## Router Advertisements -/

theorem raPrefixes_mono {f g : Nat} (hfg : f ≤ g) (opt : List U8) (n : Int) (k : Nat) :
    raPrefixes f opt n <+: raPrefixes g opt (n + k) := by
  induction f generalizing g opt n with
  | zero => exact List.nil_prefix
  | succ f ih =>
    obtain ⟨g, rfl⟩ : ∃ g', g = g' + 1 := ⟨g - 1, by omega⟩
    unfold raPrefixes
    dsimp only
    split
    · exact List.nil_prefix
    next hgo =>
      have hstep := ih (show f ≤ g by omega) (opt.drop ((opt.getD 1 0).toNat * 8)) (n - ((opt.getD 1 0).toNat * 8 : Nat))
      have hn : n - ((opt.getD 1 0).toNat * 8 : Nat) + (k : Int) = n + k - ((opt.getD 1 0).toNat * 8 : Nat) := by omega
      rw [hn] at hstep
      have hgo' : ¬ (n + (k : Int) < 8 ∨ (opt.getD 1 0).toNat * 8 = 0 ∨ ((opt.getD 1 0).toNat * 8 : Nat) > n + (k : Int)) := by
        omega
      rw [if_neg hgo']
      by_cases hopt : opt.getD 0 0 = NDP_OPT_PREFIX ∧ opt.getD 1 0 = 4
      · rw [if_pos hopt, if_pos hopt]
        exact List.cons_prefix_cons.mpr ⟨rfl, hstep⟩
      · rw [if_neg hopt, if_neg hopt]
        exact hstep

/-- A longer walk finds the same prefixes first. -/
theorem prefixes_mono (h : p.payload.length + k < 2 ^ 16) : (p.ndpMsg 0).prefixes <+: (p.ndpMsg k).prefixes := by
  have h0 : (BitVec.ofNat 16 (p.payload.length + 0)).toNat = p.payload.length := Nat.mod_eq_of_lt (by omega)
  have hk : (BitVec.ofNat 16 (p.payload.length + k)).toNat = p.payload.length + k := Nat.mod_eq_of_lt h
  unfold NdpMsg.prefixes ndpMsg
  dsimp only
  rw [h0, hk]
  have hmono := raPrefixes_mono (show p.payload.length ≤ p.payload.length + k by omega) ((p.payload ++ p.trailer).drop 16)
    (p.payload.length - 16) k
  have hn : (p.payload.length : Int) - 16 + k = (p.payload.length + k : Nat) - 16 := by omega
  rwa [hn] at hmono

end Packet6

/-- The prefix length that a row of prefix options leaves behind. -/
def lastLen (ps : List PrefixOpt) : Option U8 := ps.getLast?.map (·.prefixLen)

/-- `all` begins with `ps` and goes on with options that configure nothing and
end on the same prefix length. -/
def SameEffect (ps all : List PrefixOpt) : Prop := (∀ q ∈ all.drop ps.length, q.prefixLen ≠ 64) ∧ lastLen all = lastLen ps

namespace Host6

theorem raPrefix_other {q : PrefixOpt} (hq : q.prefixLen ≠ 64) (h : Host6) :
    h.raPrefix q = { h with dev := { h.dev with prefixLen := q.prefixLen } } := by
  unfold raPrefix ipv6AddrconfUpdateLifetime
  rw [if_pos hq]

theorem raPrefix_prefixLen (h : Host6) (q : PrefixOpt) : (h.raPrefix q).dev.prefixLen = q.prefixLen := by
  by_cases hq : q.prefixLen = 64
  · obtain ⟨t, ha, hdev, -⟩ := raPrefix_armed (h := h) hq
    have hd := ha.dev
    rw [hdev] at hd
    rw [hd]
    rfl
  · rw [raPrefix_other hq]

theorem armPreferred_sent (h : Host6) (lt : U32) : (h.armPreferred lt).sent = h.sent := by
  unfold armPreferred
  split <;> rfl

theorem armValid_sent (h : Host6) (lt : U32) : (h.armValid lt).sent = h.sent := by
  unfold armValid
  split <;> rfl

/-- A prefix of 64 bits makes the host solicit its new address. -/
theorem raPrefix_sent (h : Host6) (q : PrefixOpt) :
    (h.raPrefix q).sent.length = h.sent.length + if q.prefixLen = 64 then 1 else 0 := by
  by_cases hq : q.prefixLen = 64
  · unfold raPrefix ipv6AddrconfUpdateLifetime
    rw [if_neg (not_not_intro hq), if_pos hq]
    dsimp only
    rw [armValid_sent, armPreferred_sent]
    exact List.length_append
  · rw [raPrefix_other hq, if_neg hq, Nat.add_zero]

theorem foldl_raPrefix_sent (h : Host6) (ps : List PrefixOpt) :
    (ps.foldl raPrefix h).sent.length = h.sent.length + ps.countP fun q => q.prefixLen = 64 := by
  induction ps generalizing h with
  | nil => rfl
  | cons q ps ih =>
    rw [List.foldl_cons, ih, raPrefix_sent, List.countP_cons]
    simp only [decide_eq_true_eq]
    omega

theorem foldl_raPrefix_prefixLen (h : Host6) (ps : List PrefixOpt) :
    (ps.foldl raPrefix h).dev.prefixLen = (lastLen ps).getD h.dev.prefixLen := by
  induction ps generalizing h with
  | nil => rfl
  | cons q ps ih =>
    rw [List.foldl_cons, ih, raPrefix_prefixLen]
    unfold lastLen
    rw [List.getLast?_cons]
    cases ps.getLast? <;> rfl

/-- Options that configure nothing leave the last prefix length only. -/
theorem foldl_raPrefix_other {ps : List PrefixOpt} (hps : ∀ q ∈ ps, q.prefixLen ≠ 64) (h : Host6) :
    ps.foldl raPrefix h = { h with dev := { h.dev with prefixLen := (lastLen ps).getD h.dev.prefixLen } } := by
  induction ps generalizing h with
  | nil => rfl
  | cons q ps ih =>
    rw [List.foldl_cons, ih (fun r hr => hps r (List.mem_cons_of_mem _ hr)), raPrefix_other (hps q List.mem_cons_self)]
    unfold lastLen
    rw [List.getLast?_cons]
    cases ps.getLast? <;> rfl

/-- **Two advertisements, one of which goes on with more prefixes, do the same
to every host exactly if the effect of these is the same.** -/
theorem raProcess_same {m n : NdpMsg} (hs : n.saddr = m.saddr) (hp : m.prefixes <+: n.prefixes) :
    (∀ h : Host6, h.ndpRaProcess n = h.ndpRaProcess m) ↔ SameEffect m.prefixes n.prefixes := by
  obtain ⟨more, hmore⟩ := hp
  unfold SameEffect ndpRaProcess
  rw [← hmore, List.drop_left, hs]
  constructor
  · intro hall
    have hsent := fun h => congrArg (fun t : Host6 => t.sent.length) (hall h)
    have hlen := fun h => congrArg (fun t : Host6 => t.dev.prefixLen) (hall h)
    constructor
    · intro q hq h64
      have hcount := hsent { dev := { hwaddr := netdevMac } }
      change ((m.prefixes ++ more).foldl raPrefix _).sent.length = (m.prefixes.foldl raPrefix _).sent.length at hcount
      rw [foldl_raPrefix_sent, foldl_raPrefix_sent, List.countP_append] at hcount
      have hpos : 0 < more.countP fun q => q.prefixLen = 64 := List.countP_pos_iff.mpr ⟨q, hq, by simpa using h64⟩
      omega
    · -- a host whose prefix length is any given one
      have hany : ∀ v, (lastLen (m.prefixes ++ more)).getD v = (lastLen m.prefixes).getD v := by
        intro v
        have hv := hlen { dev := { hwaddr := netdevMac, prefixLen := v } }
        change ((m.prefixes ++ more).foldl raPrefix _).dev.prefixLen = (m.prefixes.foldl raPrefix _).dev.prefixLen at hv
        rwa [foldl_raPrefix_prefixLen, foldl_raPrefix_prefixLen] at hv
      have hne : ∀ a : U8, a ≠ a + 1 := by decide
      cases hn : lastLen (m.prefixes ++ more) with
      | none =>
        cases hm : lastLen m.prefixes with
        | none => rfl
        | some b =>
          have := hany (b + 1)
          rw [hn, hm] at this
          exact absurd this.symm (hne b)
      | some a =>
        cases hm : lastLen m.prefixes with
        | none =>
          have := hany (a + 1)
          rw [hn, hm] at this
          exact absurd this (hne a)
        | some b =>
          have := hany 0
          rw [hn, hm] at this
          exact congrArg some this
  · rintro ⟨hother, hlast⟩ h
    have hfold := foldl_raPrefix_other hother (m.prefixes.foldl raPrefix h)
    rw [← List.foldl_append] at hfold
    have hkept : (lastLen more).getD (m.prefixes.foldl raPrefix h).dev.prefixLen = (m.prefixes.foldl raPrefix h).dev.prefixLen := by
      have hd := congrArg (fun t : Host6 => t.dev.prefixLen) hfold
      dsimp only at hd
      rw [← hd, foldl_raPrefix_prefixLen, foldl_raPrefix_prefixLen, hlast]
    rw [hfold, hkept]

/-! ## Neighbor Advertisements -/

/-- A host that has just solicited `target`. -/
def soliciting (target : In6Addr) : Host6 :=
  { dev := { hwaddr := netdevMac }, ndpCache := [{ ip6 := target, stateTimestamp := 0 }] }

/-- The cache of such a host after an advertisement of the target. -/
theorem soliciting_na (m : NdpMsg) : ((soliciting m.target).ndpNaProcess m).ndpCache =
    [match m.tlla with
      | none => { ip6 := m.target, stateTimestamp := 0 }
      | some tlla => { ip6 := m.target, stateTimestamp := 0, hwaddr := tlla, state := .reachable }] := by
  cases ht : m.tlla with
  | none => rw [ndpNaProcess_none ht, soliciting]
  | some tlla =>
    rw [(ndpNaProcess_cache ht).1]
    unfold soliciting
    dsimp only
    rw [Keyed.update_cons, if_pos rfl]
    rfl

/-- **Two advertisements with the same bytes do the same to every host exactly
if the same link-layer address is found in them.** -/
theorem naProcess_same {m n : NdpMsg} (hs : n.saddr = m.saddr) (hb : n.bytes = m.bytes) :
    (∀ h : Host6, h.ndpNaProcess n = h.ndpNaProcess m) ↔ m.tlla = n.tlla := by
  have ht : n.target = m.target := by rw [NdpMsg.target, hb, NdpMsg.target]
  constructor
  · intro hall
    have hcache := congrArg (fun t : Host6 => t.ndpCache) (hall (soliciting m.target))
    rw [soliciting_na m, ← ht, soliciting_na n, List.singleton_inj, ht] at hcache
    cases hm : m.tlla with
    | none =>
      cases hn : n.tlla with
      | none => rfl
      | some b =>
        rw [hm, hn] at hcache
        exact NdpState.noConfusion (congrArg NdpEntry.state hcache)
    | some a =>
      cases hn : n.tlla with
      | none =>
        rw [hm, hn] at hcache
        exact NdpState.noConfusion (congrArg NdpEntry.state hcache)
      | some b =>
        rw [hm, hn] at hcache
        exact congrArg some (congrArg NdpEntry.hwaddr hcache).symm
  · intro htlla h
    have hentry : ∀ tlla, h.naEntry n tlla = h.naEntry m tlla := by
      intro tlla
      funext e
      unfold naEntry NdpMsg.flagO NdpMsg.flagS
      rw [hb]
    have hflush : h.naFlush n = h.naFlush m := by
      unfold naFlush
      rw [ht]
    unfold ndpNaProcess
    rw [← htlla, ht, hs, hflush]
    simp only [hentry]

end Host6

/-! ## Transparency -/

namespace Packet6

variable (p : Packet6) (nexthdr : U8) (chain : List U8)

/-- **The chain is transparent**: every host ends in the state, and makes the
reply, that it would without the chain; and an Echo Reply has the request's
message. -/
structure Transparent : Prop where
  same : ∀ h : Host6, h.ipv6Input (p.withChain nexthdr chain) = h.ipv6Input p.bare
  echo : ∀ (h : Host6) (r : EchoReply), (h.ipv6Input (p.withChain nexthdr chain)).2 = some r → p.Echoes r

/-- There is no chain, or the message is one whose handler does not look at
`payload_len`, or the option walk finds nothing else in as many bytes behind the
message as the chain has. -/
def Harmless : Prop :=
  chain = [] ∨ p.icmpType = ICMPV6_NEIGHBOR_SOLICIT ∨ (p.icmpType ≠ ICMPV6_ECHO_REQUEST ∧ p.hopLimit ≠ 255) ∨
    (p.icmpType = ICMPV6_ROUTER_ADVERT ∧ SameEffect (p.ndpMsg 0).prefixes (p.ndpMsg chain.length).prefixes) ∨
    (p.icmpType = ICMPV6_NEIGHBOR_ADVERT ∧ (p.ndpMsg 0).tlla = (p.ndpMsg chain.length).tlla)

variable {p nexthdr chain}

/-- What the message does to a host that it is addressed to. -/
theorem ndpIncoming_type (h : Host6) (k : Nat) (hpos : 0 < p.payload.length) : h.ndpIncoming (p.ndpMsg k) =
    if p.hopLimit ≠ 255 then h
    else if p.icmpType = ICMPV6_ROUTER_ADVERT then h.ndpRaProcess (p.ndpMsg k)
    else if p.icmpType = ICMPV6_NEIGHBOR_SOLICIT then h.ndpNsProcess (p.ndpMsg k)
    else if p.icmpType = ICMPV6_NEIGHBOR_ADVERT then h.ndpNaProcess (p.ndpMsg k)
    else h := by
  have htype : (p.ndpMsg k).type = p.icmpType := getD_payload hpos
  unfold Host6.ndpIncoming
  rw [htype]
  rfl

/-- Echo Requests bear no chain at all. -/
theorem transparent_echo (hp : p.Icmpv6 nexthdr chain) (ht : p.icmpType = ICMPV6_ECHO_REQUEST) :
    p.Transparent nexthdr chain ↔ chain = [] := by
  have hfits := hp.accepts.fits
  constructor
  · intro htr
    have hreply := hp.input { dev := { hwaddr := netdevMac } }
    rw [if_pos ht] at hreply
    have hlen := (htr.echo _ _ (congrArg Prod.snd hreply)).1
    rw [length_reply hfits] at hlen
    exact List.length_eq_zero_iff.mp (by omega)
  · rintro rfl
    obtain rfl := hp.accepts.nil
    refine ⟨fun _ => rfl, fun h r hr => ?_⟩
    rw [hp.input, if_pos ht] at hr
    cases hr
    exact echoes_bare hfits

/-- For the other messages it is a matter of the state. -/
theorem transparent_ndp (hp : p.Icmpv6 nexthdr chain) (ht : p.icmpType ≠ ICMPV6_ECHO_REQUEST) :
    p.Transparent nexthdr chain ↔ ∀ h : Host6, h.ndpIncoming (p.ndpMsg chain.length) = h.ndpIncoming (p.ndpMsg 0) := by
  have hbare : ∀ h : Host6, h.ipv6Input p.bare = (h.ndpIncoming (p.ndpMsg 0), none) := by
    intro h
    rw [Packet6.bare, hp.bare.input, if_neg ht]
    rfl
  constructor
  · intro htr h
    have hsame := htr.same h
    rw [hp.input, if_neg ht, hbare] at hsame
    exact congrArg Prod.fst hsame
  · intro hall
    refine ⟨fun h => ?_, fun h r hr => ?_⟩
    · rw [hp.input, if_neg ht, hbare, hall]
    · rw [hp.input, if_neg ht] at hr
      cases hr

/-- **Transparency to ICMPv6**, exactly. -/
theorem transparent_iff (hp : p.Icmpv6 nexthdr chain) : p.Transparent nexthdr chain ↔ p.Harmless chain := by
  have hpos := hp.payload_pos
  by_cases ht : p.icmpType = ICMPV6_ECHO_REQUEST
  · rw [transparent_echo hp ht]
    refine ⟨.inl, ?_⟩
    rintro (h | h | h | h | h)
    · exact h
    · exact absurd (ht.symm.trans h) (by decide)
    · exact absurd ht h.1
    · exact absurd (ht.symm.trans h.1) (by decide)
    · exact absurd (ht.symm.trans h.1) (by decide)
  rw [transparent_ndp hp ht]
  simp only [ndpIncoming_type _ _ hpos]
  unfold Harmless
  by_cases hhop : p.hopLimit ≠ 255
  · simp only [if_pos hhop]
    exact iff_of_true (fun _ => trivial) (.inr (.inr (.inl ⟨ht, hhop⟩)))
  simp only [if_neg hhop]
  have htype := hp.type
  simp only [List.mem_cons, List.not_mem_nil, or_false] at htype
  have hempty : chain = [] → p.ndpMsg chain.length = p.ndpMsg 0 := by
    rintro rfl
    rfl
  rcases htype with h | h | h | h
  · exact absurd h ht
  · -- a Router Advertisement
    simp only [if_pos h]
    rw [Host6.raProcess_same (show (p.ndpMsg chain.length).saddr = (p.ndpMsg 0).saddr from rfl) (prefixes_mono hp.accepts.fits)]
    constructor
    · exact fun hs => .inr (.inr (.inr (.inl ⟨h, hs⟩)))
    · rintro (hc | hn | hn | hs | hn)
      · rw [hempty hc]
        exact ⟨fun q hq => by simp at hq, rfl⟩
      · exact absurd (h.symm.trans hn) (by decide)
      · exact absurd hn.2 hhop
      · exact hs.2
      · exact absurd (h.symm.trans hn.1) (by decide)
  · -- a Neighbor Solicitation
    have hra : p.icmpType ≠ ICMPV6_ROUTER_ADVERT := by
      rw [h]
      decide
    simp only [if_neg hra, if_pos h]
    exact iff_of_true (fun _ => rfl) (.inr (.inl h))
  · -- a Neighbor Advertisement
    have hra : p.icmpType ≠ ICMPV6_ROUTER_ADVERT := by
      rw [h]
      decide
    have hns : p.icmpType ≠ ICMPV6_NEIGHBOR_SOLICIT := by
      rw [h]
      decide
    simp only [if_neg hra, if_neg hns, if_pos h]
    rw [Host6.naProcess_same (show (p.ndpMsg chain.length).saddr = (p.ndpMsg 0).saddr from rfl) rfl]
    constructor
    · exact fun hs => .inr (.inr (.inr (.inr ⟨h, hs⟩)))
    · rintro (hc | hn | hn | hn | hs)
      · rw [hempty hc]
      · exact absurd hn hns
      · exact absurd hn.2 hhop
      · exact absurd hn.1 hra
      · exact hs.2

/-- A packet from `fe80::` to `ff02::1`. -/
def toAllNodes (hopLimit : U8) (payload : List U8) : Packet6 where
  eth := #v[0, 0, 0, 0, 0, 0, 0, 0, 0, 0, 0, 0, 0x86, 0xdd]
  vtcFlow := #v[0x60, 0, 0, 0]
  hopLimit := hopLimit
  saddr := Host6.llPrefix
  daddr := allNodes
  proto := NEXTHDR_ICMPV6
  payload := payload

/-- A Hop-by-Hop Options header with six bytes of padding. -/
def hopByHop : List U8 := [NEXTHDR_ICMPV6, 0, 1, 4, 0, 0, 0, 0]

def solicitation : Packet6 := toAllNodes 255 ([135, 0, 0x7c, 0xa7, 0, 0, 0, 0] ++ Host6.llPrefix.toList)
def echoRequest : Packet6 := toAllNodes 64 [128, 0, 0x82, 0x36, 0, 1, 0, 1]

theorem transparent_solicitation : solicitation.Transparent NEXTHDR_HOP hopByHop :=
  (transparent_iff ⟨⟨by decide, none, rfl, by decide +kernel⟩, ⟨by decide, by decide⟩, rfl, by decide, by decide +kernel⟩).mpr (.inr (.inl (by decide)))

/-- The reply to a request behind a chain is longer than the request. -/
theorem echo_leaks : ¬ ∀ (p : Packet6) (nexthdr : U8) (chain : List U8), p.Icmpv6 nexthdr chain → p.Transparent nexthdr chain := by
  intro h
  have hp : echoRequest.Icmpv6 NEXTHDR_HOP hopByHop :=
    ⟨⟨by decide, none, rfl, by decide +kernel⟩, ⟨by decide, by decide⟩, rfl, by decide, by decide +kernel⟩
  exact absurd ((transparent_echo hp (by decide)).mp (h _ _ _ hp)) (by decide)

end Packet6

end LevelIp
