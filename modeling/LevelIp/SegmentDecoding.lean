/-
Where a TCP segment is found in its packet. `tcp_in` looks for the header 20
bytes behind the IPv4 header, whatever `ihl` says; `tcp_init_segment` takes
what follows 20 bytes of TCP header for the payload, whatever `hl` says; and
nothing compares `hl` with 5 or with the length of the packet.
-/
import LevelIp.Packets

namespace LevelIp

/-- The TCP segment the IP header describes: where it starts and how long it is. -/
structure Carried where
  start : Nat
  len : Int
deriving DecidableEq

/-- A frame that reaches TCP: the segment it carries and what is made of it. -/
structure TcpFrame where
  carried : Carried
  received : Received
deriving DecidableEq

/-- The way of a frame to `tcp_in` or `tcp_in_v6`, if it goes there. -/
def tcpFrame (m : List U8) : Option TcpFrame :=
  match netdevReceive m with
  | .tcpIn =>
    let iph := ipHdr m
    some
      { carried := { start := ETH_HDR_LEN + iph.ihl.toNat * 4, len := (iph.len.toNat : Int) - iph.ihl.toNat * 4 }
        received := tcpInAt m }
  | .tcpInV6 payload =>
    some
      { carried := { start := payload, len := ((ipv6Hdr m).payloadLen.toNat : Int) - (payload - (ETH_HDR_LEN + IPV6_HDR_LEN) : Nat) }
        received := tcpInV6At m payload }
  | _ => none

namespace Carried

/-- The data offset in the segment. -/
def hl (c : Carried) (m : List U8) : Nat := (tcphdrAt m c.start).hl.toNat

/-- The header is long enough and fits the segment. -/
def WellFormed (c : Carried) (m : List U8) : Prop := 5 ≤ c.hl m ∧ (4 * c.hl m : Nat) ≤ c.len

/-- **The segment is decoded right**: fields, payload and length are those of
the header where it is, or, if that is malformed, the segment goes to no socket
and its length is not a negative difference. `found` says whether the lookup
finds a socket for it. -/
def Decodes (c : Carried) (m : List U8) (r : Received) (found : Bool) : Prop :=
  (c.WellFormed m → r.th = c.start ∧ r.hdr = tcphdrAt m c.start ∧ r.payload = c.start + 4 * c.hl m ∧
      r.tcpDlen = c.len - (4 * c.hl m : Nat) ∧ (r.dlen.toNat : Int) = c.len - (4 * c.hl m : Nat)) ∧
    (¬ c.WellFormed m → found = false ∧ 0 ≤ r.tcpDlen)

end Carried

/-- No options: neither in the IPv4 header, if it is one, nor in the TCP header. -/
def Optionless (m : List U8) (c : Carried) : Prop :=
  (netdevReceive m = .tcpIn → (ipHdr m).ihl = 5) ∧ c.hl m = 5

/-- What is known of a frame that reaches TCP. -/
structure TcpFrame.Sized (m : List U8) (f : TcpFrame) : Prop where
  th : f.received.th = f.carried.start ↔ (netdevReceive m = .tcpIn → (ipHdr m).ihl = 5)
  hdr : f.received.hdr = tcphdrAt m f.received.th
  payload : f.received.payload = f.received.th + 20
  len : f.carried.len < 2 ^ 16
  dlen : f.received.tcpDlen = f.carried.len - (4 * (tcphdrAt m f.received.th).hl.toNat : Nat)

theorem tcpHlen_eq (th : Tcphdr) : tcpHlen th = 4 * th.hl.toNat := by
  unfold tcpHlen
  rw [Nat.shiftLeft_eq]
  omega

/-- The unsigned difference of small numbers, read as signed, is their difference. -/
theorem toInt_difference {x : U32} {a b : Nat} (hx : x.toNat < 2 ^ 30) (ha : a < 2 ^ 29) (hb : b < 2 ^ 29) :
    (x - BitVec.ofNat 32 a - BitVec.ofNat 32 b).toInt = (x.toNat : Int) - (a : Nat) - (b : Nat) := by
  have h := BitVec.toInt_eq_toNat_cond (x - BitVec.ofNat 32 a - BitVec.ofNat 32 b)
  rw [BitVec.toNat_sub, BitVec.toNat_sub, BitVec.toNat_ofNat, BitVec.toNat_ofNat] at h
  rw [h]
  split <;> omega

theorem tcpFrame_sized {m : List U8} {f : TcpFrame} (h : tcpFrame m = some f) : f.Sized m := by
  unfold tcpFrame at h
  split at h
  next hm =>
    cases h
    have hihl : (ipHdr m).ihl = 5 ↔ (ipHdr m).ihl.toNat = 5 := ⟨fun h => by rw [h]; rfl, fun h => BitVec.eq_of_toNat_eq h⟩
    have hlen := (ipHdr m).len.isLt
    refine ⟨?_, rfl, rfl, ?_, ?_⟩
    · show ETH_HDR_LEN + 20 = ETH_HDR_LEN + (ipHdr m).ihl.toNat * 4 ↔ _
      rw [hm, hihl]
      simp only [true_implies]
      omega
    · dsimp only
      omega
    · show (_ : Int) - _ - (tcpHlen (tcphdrAt m (ETH_HDR_LEN + 20)) : Nat) = _
      rw [tcpHlen_eq]
      rfl
  next payload hm =>
    cases h
    have hpay : 54 ≤ payload ∧ payload ≤ 54 + (ipv6Hdr m).payloadLen.toNat := by
      have hv6 : ipv6Rcv m = .tcpInV6 payload := by
        unfold netdevReceive at hm
        dsimp only at hm
        split_ifs at hm
        · exact absurd hm (by unfold ipRcv; dsimp only; split_ifs <;> simp)
        · exact hm
      exact ipv6Rcv_payload (.inl hv6)
    have hplen := (ipv6Hdr m).payloadLen.isLt
    have hhl := (tcphdrAt m payload).hl.isLt
    refine ⟨?_, rfl, rfl, ?_, ?_⟩
    · rw [hm]
      exact iff_of_true rfl nofun
    · dsimp only
      omega
    · show BitVec.toInt (_ - BitVec.ofNat 32 (payload - 54) - BitVec.ofNat 32 (tcpHlen (tcphdrAt m payload))) =
        ((ipv6Hdr m).payloadLen.toNat : Int) - (payload - 54 : Nat) - (4 * (tcphdrAt m payload).hl.toNat : Nat)
      have hw : (U16.wide (ipv6Hdr m).payloadLen).toNat = (ipv6Hdr m).payloadLen.toNat := BitVec.toNat_setWidth_of_le (by decide)
      rw [tcpHlen_eq, toInt_difference (by omega) (by omega) (by omega), hw]
  next => cases h

/-- **Segments are decoded right** exactly if there are no options before the
payload and the header fits, or if the header is malformed, no socket wants it
and what is taken for its length does not exceed the segment. -/
theorem decodes_iff {m : List U8} {f : TcpFrame} (h : tcpFrame m = some f) (found : Bool) :
    f.carried.Decodes m f.received found ↔
      (Optionless m f.carried ∧ 20 ≤ f.carried.len) ∨
        (¬ f.carried.WellFormed m ∧ found = false ∧ (4 * (tcphdrAt m f.received.th).hl.toNat : Nat) ≤ f.carried.len) := by
  have hs := tcpFrame_sized h
  have hdl := hs.dlen
  have hpl := hs.payload
  have hlt := hs.len
  unfold Carried.Decodes Optionless
  rw [← hs.th]
  constructor
  · rintro ⟨hgood, hbad⟩
    by_cases hw : f.carried.WellFormed m
    · obtain ⟨hth, -, hpay, -, -⟩ := hgood hw
      unfold Carried.WellFormed at hw
      exact .inl ⟨⟨hth, by omega⟩, by omega⟩
    · obtain ⟨hf, hd⟩ := hbad hw
      exact .inr ⟨hw, hf, by omega⟩
  · rintro (⟨⟨hth, hhl⟩, hlen⟩ | ⟨hw, hf, hd⟩)
    · have hw : f.carried.WellFormed m := ⟨by omega, by omega⟩
      have hhl' : (tcphdrAt m f.received.th).hl.toNat = f.carried.hl m := by
        rw [hth]
        rfl
      refine ⟨fun _ => ⟨hth, hth ▸ hs.hdr, by omega, by omega, ?_⟩, fun hn => absurd hw hn⟩
      have hd0 : 0 ≤ f.received.tcpDlen := by omega
      unfold Received.dlen
      rw [BitVec.toNat_ofInt]
      omega
    · exact ⟨fun hw' => absurd hw' hw, fun _ => ⟨hf, by omega⟩⟩

/-- The Ethernet and IPv4 headers of a frame from `10.0.0.5`, and the first
twelve bytes of a TCP header. -/
def ipv4Start (len csum : U8) : List U8 :=
  [0, 0, 0, 0, 0, 0, 0, 0, 0, 0, 0, 0, 8, 0, 0x45, 0, 0, len, 0, 1, 0, 0, 64, 6, 102, csum, 10, 0, 0, 5, 10, 0, 0, 4, 0, 80,
    0x1f, 0x90, 0, 0, 0, 1, 0, 0, 0, 1]

/-- A segment of one byte without options. -/
def bareFrame : List U8 := ipv4Start 41 198 ++ [0x50, 0x18, 0xff, 0xff, 0, 0, 0, 0, 0x41]

/-- A segment of one byte with a timestamps option. -/
def stampedFrame : List U8 :=
  ipv4Start 53 186 ++ [0x80, 0x18, 0xff, 0xff, 0, 0, 0, 0, 1, 1, 8, 10, 0, 0, 0, 0, 0, 0, 0, 0, 0x41]

/-- The frames with the segments they carry. -/
def bare : TcpFrame := { carried := { start := 34, len := 21 }, received := tcpInAt bareFrame }
def stamped : TcpFrame := { carried := { start := 34, len := 33 }, received := tcpInAt stampedFrame }

theorem decodes_bare : tcpFrame bareFrame = some bare ∧ bare.carried.Decodes bareFrame bare.received true := by
  have hf : tcpFrame bareFrame = some bare := by decide +kernel
  exact ⟨hf, (decodes_iff hf true).mpr (.inl ⟨⟨fun _ => by decide +kernel, by decide +kernel⟩, by decide +kernel⟩)⟩

/-- The options are taken for data. -/
theorem options_as_data :
    ¬ ∀ (m : List U8) (f : TcpFrame), tcpFrame m = some f → ∀ found, f.carried.Decodes m f.received found := by
  intro h
  have hw : stamped.carried.WellFormed stampedFrame := by
    unfold Carried.WellFormed
    decide +kernel
  have hp := ((h stampedFrame stamped (by decide +kernel) true).1 hw).2.2.1
  exact absurd hp (by decide +kernel)

end LevelIp
