/-
What a chain of extension headers changes for TCP. `tcp_in_v6` finds the
segment behind the chain, but `tcp_data_dequeue` looks for its header again
with `tcp_hdr_for_sk`, right behind the IPv6 header: there it reads the PSH bit
out of the chain, or out of the sequence number.
-/
import LevelIp.ExtChain
import LevelIp.Opening
import LevelIp.PushMark
import LevelIp.SegmentDecoding

namespace LevelIp

/-- Where the bytes of a TCP header go when `tcp_init_segment` brings its
fields to host order. -/
def hostOrder : List Nat := [1, 0, 3, 2, 7, 6, 5, 4, 11, 10, 9, 8, 12, 13, 15, 14, 17, 16, 19, 18]

/-- Byte `i` of the buffer after `tcp_init_segment` for the header at `th`. -/
def hostByte (m : List U8) (th i : Nat) : U8 :=
  if th ≤ i ∧ i < th + 20 then m.getD (th + hostOrder.getD (i - th) 0) 0 else m.getD i 0

/-- `th->psh` of the header that `tcp_hdr_for_sk` designates. -/
def pshSeen (m : List U8) (th : Nat) : Bool := (hostByte m th (ETH_HDR_LEN + IPV6_HDR_LEN + 13)).getLsbD 3

/-- The data of a segment. -/
def Received.skbData (m : List U8) (r : Received) : Payload :=
  Payload.ofTake (r.dlen.setWidth 16) (copyOut m r.payload r.dlen.toNat)

/-- The segment that `tcp_in_v6` finds at `payload`, on its way to a socket. -/
def segmentAt (m : List U8) (payload : Nat) : Event :=
  let r := tcpInV6At m payload
  .segment r.hdr (r.skbData m) (pshSeen m payload)

namespace Packet6

variable (p : Packet6) (nexthdr : U8) (chain : List U8)

/-- What is in the packet behind the chain. -/
def body : List U8 := p.payload ++ p.trailer

/-- The TCP header. -/
def th : Tcphdr := tcphdrAt p.body 0

/-- The data as `tcp_init_segment` takes them, behind 20 bytes of header. -/
def tcpData : Payload :=
  let dlen := p.payload.length - 4 * p.th.hl.toNat
  Payload.ofTake (BitVec.ofNat 16 dlen) (copyOut p.body 20 dlen)

/-- The bit that is taken for PSH. -/
def seen : Bool :=
  if chain.length = 0 then p.th.psh
  else if chain.length = 8 then p.th.seq.getLsbD 11
  else (chain.getD 13 0).getLsbD 3

/-- **The packets in question**: TCP segments whose header fits, and a chain
that is accepted. -/
structure Tcp6 : Prop where
  accepts : p.Accepts nexthdr chain
  regular : p.Regular
  proto : p.proto = NEXTHDR_TCP
  header : 20 ≤ p.payload.length
  hl : 4 * p.th.hl.toNat ≤ p.payload.length

/-- The segment that the packet brings. -/
def segment : Event := segmentAt (p.withChain nexthdr chain) (54 + chain.length)

end Packet6

/-- The chain is made of units of eight bytes. -/
theorem ipv6ParseExthdrs_units {m : List U8} {start plen turns : Nat} {nexthdr : U8} {consumed : Nat} {fragOff : Option U16}
    {r : ExthdrResult} (hc : consumed % 8 = 0) (h : ipv6ParseExthdrs m start plen turns nexthdr consumed fragOff = some r) :
    r.consumed % 8 = 0 := by
  induction turns generalizing nexthdr consumed fragOff with
  | zero => cases h
  | succ turns ih =>
    unfold ipv6ParseExthdrs at h
    split at h
    · rw [← Option.some.inj h]
      exact hc
    split at h
    · dsimp only at h
      split at h
      · cases h
      · exact ih (by omega) h
    split at h
    · split at h
      · cases h
      · exact ih (by omega) h
    · cases h

theorem hostByte_header (m : List U8) (th : Nat) {i : Nat} (h : i < 20) :
    hostByte m th (th + i) = m.getD (th + hostOrder.getD i 0) 0 := by
  rw [hostByte, if_pos (by omega), Nat.add_sub_cancel_left]

theorem hostByte_before (m : List U8) {th i : Nat} (h : i < th) : hostByte m th i = m.getD i 0 := by
  rw [hostByte, if_neg (by omega)]

/-- The same bytes make the same header. -/
theorem tcphdrAt_congr {m n : List U8} {a b : Nat} (h : ∀ i < 20, m.getD (a + i) 0 = n.getD (b + i) 0)
    (hd : m.drop (a + 20) = n.drop (b + 20)) : tcphdrAt m a = tcphdrAt n b := by
  have hb : ∀ i, i + 1 < 20 → be16 m (a + i) = be16 n (b + i) := by
    intro i hi
    rw [be16, h i (by omega), Nat.add_assoc, h (i + 1) hi, be16, Nat.add_assoc]
  have hw : ∀ i, i + 3 < 20 → be32 m (a + i) = be32 n (b + i) := by
    intro i hi
    simp only [be32, Nat.add_assoc]
    rw [h (i + 0) (by omega), h (i + 1) (by omega), h (i + 2) (by omega), h (i + 3) hi]
  have hb0 : be16 m a = be16 n b := hb 0 (by decide)
  unfold tcphdrAt
  rw [hb0, hb 2 (by decide), hw 4 (by decide), hw 8 (by decide), h 12 (by decide), h 13 (by decide), hb 14 (by decide), hd]

namespace Packet6

variable {p : Packet6} {nexthdr : U8} {chain : List U8}

theorem Accepts.units (h : p.Accepts nexthdr chain) : chain.length % 8 = 0 := by
  obtain ⟨-, fragOff, -, hparse⟩ := h
  exact ipv6ParseExthdrs_units (by decide) hparse

/-- The bytes behind the chain. -/
theorem getD_body (i j : Nat) (h : j = 54 + chain.length + i) : (p.withChain nexthdr chain).getD j 0 = p.body.getD i 0 := by
  rw [h, getD_withChain, body]

theorem tcphdrAt_withChain : tcphdrAt (p.withChain nexthdr chain) (54 + chain.length) = p.th := by
  refine tcphdrAt_congr (fun i _ => ?_) ?_
  · rw [getD_body i _ rfl, Nat.zero_add]
  · rw [← List.drop_drop, drop_withChain]
    rfl

/-- **The bit that is seen.** -/
theorem pshSeen_withChain (h : p.Accepts nexthdr chain) :
    pshSeen (p.withChain nexthdr chain) (54 + chain.length) = p.seen chain := by
  have hunits := h.units
  unfold seen
  by_cases h0 : chain.length = 0
  · have hbyte : hostByte (p.withChain nexthdr chain) (54 + chain.length) (54 + 13) = p.body.getD 13 0 := by
      have h13 := hostByte_header (p.withChain nexthdr chain) (54 + chain.length) (show 13 < 20 by decide)
      have hget : (p.withChain nexthdr chain).getD (54 + chain.length + 13) 0 = p.body.getD 13 0 := getD_body 13 _ rfl
      rw [h0] at h13 hget ⊢
      exact h13.trans hget
    rw [if_pos h0]
    exact congrArg (·.getLsbD 3) hbyte
  by_cases h8 : chain.length = 8
  · have hbyte : hostByte (p.withChain nexthdr chain) (54 + chain.length) (54 + 13) = p.body.getD 6 0 := by
      have h5 := hostByte_header (p.withChain nexthdr chain) (54 + chain.length) (show 5 < 20 by decide)
      have hget : (p.withChain nexthdr chain).getD (54 + chain.length + 6) 0 = p.body.getD 6 0 := getD_body 6 _ rfl
      rw [h8] at h5 hget ⊢
      exact h5.trans hget
    rw [if_neg h0, if_pos h8]
    refine (congrArg (·.getLsbD 3) hbyte).trans ?_
    simp [th, tcphdrAt, be32]
  · have hbyte : hostByte (p.withChain nexthdr chain) (54 + chain.length) (54 + 13) = chain.getD 13 0 := by
      rw [hostByte_before _ (by omega), List.getD_eq_getElem?_getD, ← List.getElem?_drop, drop_header,
        List.getElem?_append_left (by omega), List.getD_eq_getElem?_getD]
    rw [if_neg h0, if_neg h8]
    exact congrArg (·.getLsbD 3) hbyte

/-- The length of the data. -/
theorem dlen_withChain (hp : p.Tcp6 nexthdr chain) : (tcpInV6At (p.withChain nexthdr chain) (54 + chain.length)).dlen =
    BitVec.ofNat 32 (p.payload.length - 4 * p.th.hl.toNat) := by
  have hfits := hp.accepts.fits
  have hplen : (U16.wide (BitVec.ofNat 16 (p.payload.length + chain.length))).toNat = p.payload.length + chain.length := by
    rw [U16.wide, BitVec.toNat_setWidth_of_le (by decide), BitVec.toNat_ofNat, Nat.mod_eq_of_lt hfits]
  have hhl := hp.hl
  have hsub := toInt_difference (x := U16.wide (BitVec.ofNat 16 (p.payload.length + chain.length))) (a := chain.length)
    (b := 4 * p.th.hl.toNat) (by omega) (by omega) (by omega)
  unfold tcpInV6At tcpInitSegmentAt Received.dlen
  dsimp only
  rw [tcphdrAt_withChain, ipv6Hdr_withChain p nexthdr chain hfits, tcpHlen_eq]
  have hstart : 54 + chain.length - (ETH_HDR_LEN + IPV6_HDR_LEN) = chain.length := Nat.add_sub_cancel_left 54 chain.length
  have hdiff : ((p.payload.length + chain.length : Nat) : Int) - (chain.length : Nat) - (4 * p.th.hl.toNat : Nat) =
      (p.payload.length - 4 * p.th.hl.toNat : Nat) := by omega
  rw [hstart, hsub, hplen, hdiff, BitVec.ofInt_natCast]

/-- **What a packet behind a chain brings**: but for the bit, always the same. -/
theorem segment_eq (hp : p.Tcp6 nexthdr chain) : p.segment nexthdr chain = .segment p.th p.tcpData (p.seen chain) := by
  have hdata : (tcpInV6At (p.withChain nexthdr chain) (54 + chain.length)).skbData (p.withChain nexthdr chain) = p.tcpData := by
    have hsmall : p.payload.length - 4 * p.th.hl.toNat < 2 ^ 32 := by have := hp.accepts.fits; omega
    unfold Received.skbData tcpData
    rw [dlen_withChain hp, BitVec.toNat_ofNat, Nat.mod_eq_of_lt hsmall]
    have hcopy : copyOut (p.withChain nexthdr chain) (54 + chain.length + 20) (p.payload.length - 4 * p.th.hl.toNat) =
        copyOut p.body 20 (p.payload.length - 4 * p.th.hl.toNat) :=
      List.map_congr_left fun i _ => getD_body (20 + i) _ (Nat.add_assoc _ _ _)
    exact congrArg₂ Payload.ofTake (BitVec.setWidth_ofNat_of_le (by decide) _) hcopy
  unfold segment segmentAt
  dsimp only
  rw [pshSeen_withChain hp.accepts, hdata]
  show Event.segment (tcphdrAt _ _) _ _ = _
  rw [tcphdrAt_withChain]

theorem Tcp6.bare (hp : p.Tcp6 nexthdr chain) : p.Tcp6 p.proto [] := by
  have hfits := hp.accepts.fits
  exact ⟨accepts_bare (by rw [hp.proto]; decide) (by omega), hp.regular, hp.proto, hp.header, hp.hl⟩

end Packet6

/-- **The chain does not show**: with it and without it the packet leaves the
socket in the same state, and the same comes of any later calls of `tcp_read`. -/
def Conn.ChainTransparent (c : Conn) (p : Packet6) (nexthdr : U8) (chain : List U8) : Prop :=
  c.step (p.segment nexthdr chain) = c.step (p.segment p.proto []) ∧
    ∀ lens : List Nat,
      ((c.step (p.segment nexthdr chain)).run (lens.map .read)).reads = ((c.step (p.segment p.proto [])).run (lens.map .read)).reads ∧
      ((c.step (p.segment nexthdr chain)).run (lens.map .read)).delivered =
        ((c.step (p.segment p.proto [])).run (lens.map .read)).delivered

/-- **Extension headers and TCP**: the chain does not show exactly if the
segment is not queued or the bit taken for PSH is that bit. -/
theorem Conn.chainTransparent_iff (c : Conn) {p : Packet6} {nexthdr : U8} {chain : List U8} (hp : p.Tcp6 nexthdr chain) :
    c.ChainTransparent p nexthdr chain ↔
      (c.sk.fault = false → c.sk.queues p.th (tcpInitSegment p.th p.tcpData p.th.psh) → p.seen chain = p.th.psh) := by
  have hbare : p.segment p.proto [] = .segment p.th p.tcpData p.th.psh := Packet6.segment_eq hp.bare
  unfold Conn.ChainTransparent
  rw [Packet6.segment_eq hp, hbare]
  cases hf : c.sk.fault with
  | true =>
    rw [step_of_fault hf, step_of_fault hf]
    exact iff_of_true ⟨rfl, fun _ => ⟨rfl, rfl⟩⟩ nofun
  | false =>
    have hstep : ∀ b, c.step (.segment p.th p.tcpData b) = { c with sk := segmentArrives c.sk p.th (tcpInitSegment p.th p.tcpData b) } :=
      fun b => if_neg (by rw [hf]; exact Bool.false_ne_true)
    constructor
    · rintro ⟨hs, -⟩ - hq
      rw [hstep, hstep] at hs
      have hsk : segmentArrives c.sk p.th (tcpInitSegment p.th p.tcpData (p.seen chain)) =
          segmentArrives c.sk p.th (tcpInitSegment p.th p.tcpData p.th.psh) := congrArg Conn.sk hs
      obtain ⟨hq1, ho1⟩ := segmentArrives_queues hq
      have hq' : c.sk.queues p.th (tcpInitSegment p.th p.tcpData (p.seen chain)) = true := hq
      obtain ⟨hq2, ho2⟩ := segmentArrives_queues hq'
      rw [← hsk, hq2] at hq1
      rw [← hsk, ho2] at ho1
      simp only [TcpSock.queues, Bool.and_eq_true] at hq'
      have hsame : tcpInitSegment p.th p.tcpData (p.seen chain) = tcpInitSegment p.th p.tcpData p.th.psh :=
        RcvSide.take_injective rfl rfl hq'.2 hq1 ho1
      exact congrArg Skb.psh hsame
    · intro h
      have hsame : c.step (.segment p.th p.tcpData (p.seen chain)) = c.step (.segment p.th p.tcpData p.th.psh) := by
        cases hq : c.sk.queues p.th (tcpInitSegment p.th p.tcpData p.th.psh) with
        | true => rw [h rfl hq]
        | false => rw [hstep, hstep, segmentArrives_unmarked _ hq]
      rw [hsame]
      exact ⟨rfl, fun _ => ⟨rfl, rfl⟩⟩

/-- Three bytes pushed to `clientConn` after the handshake. -/
def pushed : Packet6 where
  eth := fieldOf [0, 0, 0, 0, 0, 0, 0, 0, 0, 0, 0, 0, 0x86, 0xdd]
  vtcFlow := fieldOf [0x60]
  hopLimit := 64
  saddr := fieldOf [0xfe, 0x80, 0, 0, 0, 0, 0, 0, 0, 0, 0, 0, 0, 0, 0, 1]
  daddr := fieldOf [0xfe, 0x80, 0, 0, 0, 0, 0, 0, 0, 0, 0, 0, 0, 0, 0, 2]
  proto := NEXTHDR_TCP
  payload := [0, 80, 0x9c, 0x40, 0, 0, 1, 0xf5, 0, 0, 0, 101, 0x50, 0x18, 0x27, 0x10, 0, 0, 0, 0, 1, 2, 3]

/-- A Destination Options header with six bytes of padding. -/
def destOpts : List U8 := [NEXTHDR_TCP, 0, 1, 4, 0, 0, 0, 0]

/-- One with fourteen, in which the bit looked at is set. -/
def destOpts16 : List U8 := [NEXTHDR_TCP, 1, 1, 12, 0, 0, 0, 0, 0, 0, 0, 0, 0, 8, 0, 0]

theorem chainTransparent_set : (clientConn.run [synAckEvent]).ChainTransparent pushed NEXTHDR_DEST destOpts16 :=
  (Conn.chainTransparent_iff _ ⟨⟨by decide, none, rfl, by decide +kernel⟩, ⟨by decide, by decide⟩, rfl, by decide, by decide +kernel⟩).mpr
    fun _ _ => by decide +kernel

/-- **PSH is lost** behind a chain of eight bytes: with the chain a blocking
`tcp_read` sleeps on three bytes that were pushed, without it it returns them. -/
theorem push_lost :
    (((clientConn.run [synAckEvent]).step (pushed.segment NEXTHDR_DEST destOpts)).run [.read 10]).reads = [] ∧
    (((clientConn.run [synAckEvent]).step (pushed.segment NEXTHDR_TCP [])).run [.read 10]).reads = [3] ∧
    ¬ ∀ (c : Conn) (p : Packet6) (nexthdr : U8) (chain : List U8), p.Tcp6 nexthdr chain → c.ChainTransparent p nexthdr chain := by
  have hchain : (((clientConn.run [synAckEvent]).step (pushed.segment NEXTHDR_DEST destOpts)).run [.read 10]).reads = [] := by
    decide +kernel
  have hbare : (((clientConn.run [synAckEvent]).step (pushed.segment NEXTHDR_TCP [])).run [.read 10]).reads = [3] := by
    decide +kernel
  refine ⟨hchain, hbare, fun h => ?_⟩
  have hp : pushed.Tcp6 NEXTHDR_DEST destOpts :=
    ⟨⟨by decide, none, rfl, by decide +kernel⟩, ⟨by decide, by decide⟩, rfl, by decide, by decide +kernel⟩
  have hreads := ((h (clientConn.run [synAckEvent]) _ _ _ hp).2 [10]).1
  cases hchain.symm.trans (hreads.trans hbare)

end LevelIp
