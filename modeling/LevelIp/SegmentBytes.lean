/-
The skbs of `tcp_output.c` byte by byte: what each builder puts in the buffer,
what `tcp_transmit_skb`, `ip_output` or `ipv6_output_ex` and `netdev_transmit`
write before it each time it is sent, and the frames that come of it.
-/
import LevelIp.SegmentWire

namespace LevelIp

open Memory

/-! ## Building -/

/-- The flags of `struct tcphdr`, counted from its lowest bit. -/
def FIN_BIT : Nat := 0
def SYN_BIT : Nat := 1
def RST_BIT : Nat := 2
def PSH_BIT : Nat := 3
def ACK_BIT : Nat := 4

namespace SkbMem

/-- `tcp_alloc_skb`. -/
def tcpAllocSkb (around : Mem U8) (family : AddrFamily) (optlen size : U32) : SkbMem :=
  let reserved : U32 := BitVec.ofNat 32 (ETH_HDR_LEN + family.ipHlen + TCP_HDR_LEN) + optlen + size
  { (allocSkb around reserved).skbReserve reserved with protocol := IP_TCP.setWidth 16, dlen := size }

/-- A flag is set in the header. -/
def setFlag (family : AddrFamily) (i : Nat) (s : SkbMem) : SkbMem :=
  let at13 := tcpHdrForSk family + 13
  s.store at13 [s.mem at13 ||| (1 : U8) <<< i]

/-- `th->hl = hl`. -/
def setHl (family : AddrFamily) (hl : BitVec 4) (s : SkbMem) : SkbMem :=
  let at12 := tcpHdrForSk family + 12
  s.store at12 [hl ++ loNibble (s.mem at12)]

/-- `skb_reset_header`. -/
def skbResetHeader (s : SkbMem) : SkbMem := { s with data := s.tail - s.dlen.toNat, len := s.dlen }

end SkbMem

open SkbMem (setFlag setHl)

namespace Builder

/-- The skb in memory as it goes to `tcp_transmit_skb` or `tcp_queue_transmit_skb`. -/
def mem (around : Mem U8) (family : AddrFamily) : Builder → SkbMem
  | send mss buf =>
    let chunk := Payload.ofTake mss buf
    let s := (SkbMem.tcpAllocSkb around family 0 chunk.len).skbPush chunk.len
    let s := setFlag family ACK_BIT (s.store s.data chunk.bytes)
    if (buf.drop mss.toNat).isEmpty then setFlag family PSH_BIT s else s
  | ack sk =>
    let optlen := (tcpOptionsLen sk).setWidth 32
    let s := setFlag family ACK_BIT (SkbMem.tcpAllocSkb around family optlen 0)
    setHl family (TCP_DOFFSET + (optlen / 4).setWidth 4) s
  | syn sk =>
    let optlen := synOptionsLen sk
    let s := SkbMem.tcpAllocSkb around family optlen 0
    -- `tcp_write_syn_options`
    let s := s.store (tcpHdrForSk family + 20) (tcpSynOptions sk)
    setFlag family SYN_BIT (setHl family (TCP_DOFFSET + (optlen / 4).setWidth 4) s)
  | synack => setHl family 6 (setFlag family ACK_BIT (setFlag family SYN_BIT (SkbMem.tcpAllocSkb around family 4 0)))
  | fin => setFlag family ACK_BIT (setFlag family FIN_BIT (SkbMem.tcpAllocSkb around family 0 0))
  | reset => setFlag family RST_BIT (SkbMem.tcpAllocSkb around family 0 0)

end Builder

/-! ## Sending -/

/-- `tcp_v4_tcp_partion_checksum` or `tcp_v6_tcp_partion_checksum`. -/
def AddrFamily.tcpPartion : AddrFamily → List U8 → Int
  | inet, seg => tcpV4TcpPartionChecksum seg
  | inet6, seg => tcpV6TcpPartionChecksum seg

namespace SkbMem

/-- What `tcp_transmit_skb` writes in the header and the option area. -/
def writeTcphdr (family : AddrFamily) (sk : TcpSock) (seq : U32) (hl : BitVec 4) (s : SkbMem) : SkbMem :=
  let th := tcpHdrForSk family
  let s := s.store th (be16Bytes sk.sport ++ be16Bytes sk.dport ++ be32Bytes seq ++ be32Bytes sk.tcb.rcvNxt)
  -- `rsvd`
  let s := s.store (th + 12) [hlByte hl]
  let win := advertisedWin sk ((s.mem (th + 13)).getLsbD SYN_BIT)
  let s := s.store (th + 14) (be16Bytes win ++ [0, 0, 0, 0])
  if 5 < hl then s.store (th + 20) (tcpWriteOptionsBytes sk) else s

/-- `tcp_transmit_skb` for the socket `sk`, up to the IP layer. -/
def tcpTransmitSkb (family : AddrFamily) (sk : TcpSock) (seq : U32) (s : SkbMem) : SkbMem :=
  let at12 := tcpHdrForSk family + 12
  -- No options were previously set
  let s := if hiNibble (s.mem at12) = 0 then setHl family TCP_DOFFSET s else s
  let hl := hiNibble (s.mem at12)
  let s := writeTcphdr family sk seq hl (s.skbPush (BitVec.ofNat 32 (hl.toNat * 4)))
  { s with tcpcsum := BitVec.ofInt 32 (family.tcpPartion s.bytes) }

/-- `ip_output` once it has a route, over a device with the address `saddr`. -/
def ipOutput (saddr daddr : U32) (s : SkbMem) : SkbMem :=
  let ihdr : Int := ETH_HDR_LEN
  let s := s.skbPush (BitVec.ofNat 32 IP_HDR_LEN)
  let id : U16 := s.mem (ihdr + 5) ++ s.mem (ihdr + 4)
  let proto : U8 := s.protocol.setWidth 8
  let s := s.store ihdr (EchoReply4.ipv4Header (s.len.setWidth 16) id proto saddr daddr 0)
  let s :=
    if proto = IP_UDP then
      s.store (ihdr + IP_HDR_LEN + 6) (le16Bytes ((calcuateUdpChecksum saddr daddr (ihdr + IP_HDR_LEN)).val s.mem))
    else if proto = IP_TCP then
      s.store (s.data + IP_HDR_LEN + 16) (le16Bytes (BitVec.ofInt 16 (tcpV4IpPartionChecksum saddr daddr s.tcpcsum)))
    else s
  s.store (ihdr + 10) (le16Bytes (checksum (read s.mem ihdr 20) 0 20 0))

/-- `ipv6_output_ex` once it has a route and a source. -/
def ipv6OutputEx (nexthdr : U8) (saddr daddr : In6Addr) (s : SkbMem) : SkbMem :=
  let s := s.skbPush (BitVec.ofNat 32 IPV6_HDR_LEN)
  let s := s.store s.data (ErrorTx.ipv6Header ((s.len - BitVec.ofNat 32 IPV6_HDR_LEN).setWidth 16) nexthdr saddr daddr)
  if nexthdr = NEXTHDR_TCP then
    s.store ((ETH_HDR_LEN + IPV6_HDR_LEN : Nat) + 16) (le16Bytes (BitVec.ofInt 16 (tcpV6IpPartionChecksum saddr daddr s.tcpcsum)))
  else s

end SkbMem

namespace AddrPair

def family : AddrPair → AddrFamily
  | v4 _ _ => .inet
  | v6 _ _ => .inet6

/-- The IP layer of a TCP segment. -/
def ipOutput : AddrPair → SkbMem → SkbMem
  | v4 saddr daddr, s => s.ipOutput saddr daddr
  | v6 saddr daddr, s => s.ipv6OutputEx NEXTHDR_TCP saddr daddr

end AddrPair

/-- One call of `tcp_transmit_skb`: the socket and the sequence number, and what
the layers below find. `around` is the memory around a copy. -/
structure Transmission where
  sk : TcpSock
  seq : U32
  lookup : Lookup
  dmac : HwAddr
  around : Mem U8

/-- An skb with its history. `k` is what its flags, its options and its text
stand for; every frame, and every copy that waits for the neighbour, has the
segment it was made for beside it. -/
structure WireSkb where
  s : SkbMem
  k : Skb
  freed : Bool := false
  copies : List (Seg × SkbMem) := []
  frames : List (Seg × List U8) := []

namespace WireSkb

variable (a : AddrPair) (hwaddr : HwAddr)

/-- `tcp_transmit_skb` over a device with the address `hwaddr`. -/
def transmit (t : WireSkb) (x : Transmission) : WireSkb :=
  let seg := segOf x.sk t.k x.seq
  let s := t.s.tcpTransmitSkb a.family x.sk x.seq
  let t := { t with k := { t.k with opts := seg.opts } }
  match x.lookup with
  | .noRoute => { t with s := s, freed := t.freed || a.family = .inet6 }
  | .hit =>
    let s := (a.ipOutput s).netdevTransmit hwaddr x.dmac a.ethertype
    { t with s := s, frames := t.frames ++ [(seg, s.bytes)] }
  | .miss dropped =>
    let s := a.ipOutput s
    match a.family with
    | .inet => { t with s := s }
    | .inet6 => { t with s := s, copies := if dropped then t.copies else t.copies ++ [(seg, s.skbCopy x.around)] }

/-- The skb is sent again, or the neighbour answers and `ndp_flush_queue` sends
the copies. -/
inductive Event
  | again (x : Transmission)
  | flush (dmac : HwAddr)

def step (t : WireSkb) : Event → WireSkb
  | .again x => if t.freed then t else ({ t with s := t.s.skbResetHeader } : WireSkb).transmit a hwaddr x
  | .flush dmac =>
    { t with
      copies := []
      frames := t.frames ++ t.copies.map fun c => (c.1, (c.2.netdevTransmit hwaddr dmac a.ethertype).bytes) }

/-- An skb from its builder on. -/
def sent (around : Mem U8) (b : Builder) (first : Transmission) (es : List Event) : WireSkb :=
  Machine.run (step a hwaddr) (transmit a hwaddr { s := b.mem around a.family, k := b.skb } first) es

end WireSkb

/-! ## What is in the buffer -/

namespace SkbMem

/-- The buffer has the flags, the options and the text of `k`, up to its end. -/
structure Bears (family : AddrFamily) (k : Skb) (s : SkbMem) : Prop where
  hl : hiNibble (s.mem (tcpHdrForSk family + 12)) = BitVec.ofNat 4 (5 + k.opts.length / 4) ∨
    k.opts = [] ∧ hiNibble (s.mem (tcpHdrForSk family + 12)) = 0
  flags : s.mem (tcpHdrForSk family + 13) = flagByte k.fin k.syn k.rst k.psh k.ack
  opts : Holds s.mem (tcpHdrForSk family + 20) k.opts
  text : Holds s.mem (tcpHdrForSk family + 20 + k.opts.length) k.payload.bytes
  tail : s.tail = tcpHdrForSk family + 20 + k.opts.length + k.payload.bytes.length
  dlen : s.dlen = k.payload.len
  protocol : s.protocol = IP_TCP.setWidth 16

/-- `data` is at the text. -/
structure AtText (s : SkbMem) : Prop where
  data : s.data = s.tail - s.dlen.toNat
  len : s.len = s.dlen

/-- What goes to the IP layer is the segment. -/
structure Carries (family : AddrFamily) (seg : Seg) (s : SkbMem) : Prop where
  data : s.data = tcpHdrForSk family
  len : s.len.toNat = seg.wire.length
  wire : Holds s.mem (tcpHdrForSk family) seg.wire
  tcpcsum : s.tcpcsum = BitVec.ofInt 32 (family.tcpPartion seg.wire)

variable {family : AddrFamily} {k : Skb} {s s' : SkbMem}

theorem atText_reset (s : SkbMem) : s.skbResetHeader.AtText := ⟨rfl, rfl⟩

/-- Neither the addresses nor the checksum count. -/
theorem Bears.congr (h : s.Bears family k)
    (hm : ∀ i, tcpHdrForSk family + 12 ≤ i → i ≠ tcpHdrForSk family + 16 → i ≠ tcpHdrForSk family + 17 → s'.mem i = s.mem i)
    (ht : s'.tail = s.tail) (hd : s'.dlen = s.dlen) (hp : s'.protocol = s.protocol) : s'.Bears family k where
  hl := by
    rw [hm _ (by omega) (by omega) (by omega)]
    exact h.hl
  flags := (hm _ (by omega) (by omega) (by omega)).trans h.flags
  opts := h.opts.congr fun i h1 _ => hm i (by omega) (by omega) (by omega)
  text := h.text.congr fun i h1 _ => hm i (by omega) (by omega) (by omega)
  tail := ht.trans h.tail
  dlen := hd.trans h.dlen
  protocol := hp.trans h.protocol

theorem Bears.reset (h : s.Bears family k) : s.skbResetHeader.Bears family k := h.congr (fun _ _ _ _ => rfl) rfl rfl rfl

/-- Without options `hl` is 5 from the first transmission on. -/
theorem Bears.settled (h : s.Bears family k) (hat : s.AtText) (hfew : k.opts.length ≤ 40) :
    let s' := if hiNibble (s.mem (tcpHdrForSk family + 12)) = 0 then setHl family TCP_DOFFSET s else s
    s'.Bears family k ∧ s'.AtText ∧ hiNibble (s'.mem (tcpHdrForSk family + 12)) = BitVec.ofNat 4 (5 + k.opts.length / 4) := by
  dsimp only
  split
  next hz =>
    have hnone : k.opts = [] := by
      rcases h.hl with hl | ⟨hl, -⟩
      · rw [hz] at hl
        have hnat := congrArg BitVec.toNat hl
        rw [BitVec.toNat_ofNat] at hnat
        have hzero : (0 : BitVec 4).toNat = 0 := rfl
        omega
      · exact hl
    have hset : hiNibble ((setHl family TCP_DOFFSET s).mem (tcpHdrForSk family + 12)) = BitVec.ofNat 4 (5 + k.opts.length / 4) := by
      have hcell : (setHl family TCP_DOFFSET s).mem (tcpHdrForSk family + 12) = TCP_DOFFSET ++ loNibble (s.mem (tcpHdrForSk family + 12)) :=
        holds_singleton.mp (holds_write _ _ _)
      rw [hcell, hnone]
      generalize loNibble (s.mem (tcpHdrForSk family + 12)) = lo
      revert lo
      decide
    have hother : ∀ i, i ≠ tcpHdrForSk family + 12 → (setHl family TCP_DOFFSET s).mem i = s.mem i := fun i hi =>
      write_outside (by rw [List.length_singleton]; omega)
    refine ⟨⟨.inl hset, ?_, ?_, ?_, h.tail, h.dlen, h.protocol⟩, ⟨hat.data, hat.len⟩, hset⟩
    · exact (hother _ (by omega)).trans h.flags
    · exact h.opts.congr fun i h1 _ => hother i (by omega)
    · exact h.text.congr fun i h1 _ => hother i (by omega)
  next hz => exact ⟨h, hat, h.hl.resolve_right fun hl => hz hl.2⟩

/-- Options are written where there is an area for them. -/
theorem writtenOpts_area (sk : TcpSock) (hfew : k.opts.length ≤ 40) (x : SkbMem) (addr : Int) :
    (if 5 < BitVec.ofNat 4 (5 + k.opts.length / 4) then x.store addr (tcpWriteOptionsBytes sk) else x) =
      x.store addr (writtenOpts sk k) := by
  have hiff : 5 < BitVec.ofNat 4 (5 + k.opts.length / 4) ↔ 4 ≤ k.opts.length := by
    rw [BitVec.lt_def, BitVec.toNat_ofNat]
    have hfive : (5 : BitVec 4).toNat = 5 := rfl
    omega
  unfold writtenOpts
  by_cases harea : 4 ≤ k.opts.length
  · rw [if_pos (hiff.mpr harea), if_pos harea]
  · rw [if_neg fun hl => harea (hiff.mp hl), if_neg harea, store, write_nil]

/-- **The header that is written** makes the segment of what is in the buffer. -/
theorem writeTcphdr_holds {sk : TcpSock} {hl : BitVec 4} {flags : U8} {text : List U8} (hfew : k.opts.length ≤ 40)
    (hhl : hl = BitVec.ofNat 4 (5 + k.opts.length / 4)) (hflags : s.mem (tcpHdrForSk family + 13) = flags)
    (hopts : Holds s.mem (tcpHdrForSk family + 20) k.opts) (htext : Holds s.mem (tcpHdrForSk family + 20 + k.opts.length) text)
    (hroom : (writtenOpts sk k).length ≤ k.opts.length) (seq : U32) :
    Holds (s.writeTcphdr family sk seq hl).mem (tcpHdrForSk family)
      ((be16Bytes sk.sport ++ be16Bytes sk.dport ++ be32Bytes seq ++ be32Bytes sk.tcb.rcvNxt) ++ ([hlByte hl] ++ ([flags] ++
        ((be16Bytes (advertisedWin sk (flags.getLsbD SYN_BIT)) ++ [0, 0, 0, 0]) ++
          ((writtenOpts sk k ++ k.opts.drop (writtenOpts sk k).length) ++ text))))) := by
  unfold writeTcphdr
  rw [hhl, writtenOpts_area sk hfew, ← hhl]
  generalize tcpHdrForSk family = th at hflags hopts htext ⊢
  dsimp only [store]
  -- the addresses, `hl`, and the window with checksum and urgent pointer
  generalize haddrs : be16Bytes sk.sport ++ be16Bytes sk.dport ++ be32Bytes seq ++ be32Bytes sk.tcb.rcvNxt = addrs
  have hlen12 : addrs.length = 12 := by rw [← haddrs]; rfl
  have hone : ∀ b : U8, [b].length = 1 := fun _ => rfl
  have hcell : write (write s.mem th addrs) (th + 12) [hlByte hl] (th + 13) = flags := by
    rw [write_outside (by rw [hone]; omega), write_outside (by omega)]
    exact hflags
  rw [hcell]
  generalize hwin : be16Bytes (advertisedWin sk (flags.getLsbD SYN_BIT)) ++ [0, 0, 0, 0] = win
  have hlen6 : win.length = 6 := by rw [← hwin]; rfl
  have hkeep : ∀ {bs a}, th + 20 ≤ a → Holds s.mem a bs →
      Holds (write (write (write s.mem th addrs) (th + 12) [hlByte hl]) (th + 14) win) a bs := fun hle hold =>
    ((hold.write (.inr (by omega))).write (.inr (by rw [hone]; omega))).write (.inr (by omega))
  generalize hmem : write (write (write (write s.mem th addrs) (th + 12) [hlByte hl]) (th + 14) win) (th + 20) (writtenOpts sk k) = m
  have haddr : Holds m th addrs := by
    rw [← hmem]
    exact (((holds_write _ _ _).write (.inl (by omega))).write (.inl (by omega))).write (.inl (by omega))
  have hoffset : Holds m (th + 12) [hlByte hl] := by
    rw [← hmem]
    exact ((holds_write _ _ _).write (.inl (by rw [hone]; omega))).write (.inl (by rw [hone]; omega))
  have hflag : Holds m (th + 13) [flags] := by
    rw [← hmem]
    exact ((holds_singleton.mpr hcell).write (.inl (by rw [hone]; omega))).write (.inl (by rw [hone]; omega))
  have hwindow : Holds m (th + 14) win := by
    rw [← hmem]
    exact (holds_write _ _ _).write (.inl (by omega))
  have hoption : Holds m (th + 20) (writtenOpts sk k ++ k.opts.drop (writtenOpts sk k).length) := by
    rw [← hmem]
    exact (hkeep (Int.le_refl _) hopts).overwrite hroom
  have hbehind : Holds m (th + 20 + k.opts.length) text := by
    rw [← hmem]
    exact (hkeep (by omega) htext).write (.inr (by omega))
  refine haddr.append (hoffset.append (hflag.append (hwindow.append (hoption.append hbehind ?_) ?_) ?_) ?_) ?_
  · rw [List.length_append, List.length_drop]
    omega
  · rw [hlen6]
    omega
  · rw [hone]
    omega
  · rw [hone]
    omega
  · rw [hlen12]
    omega

/-- The parts of a segment in memory. -/
theorem holds_wire {m : Mem U8} {th : Int} {seg : Seg} (h : Holds m th seg.wire) :
    m (th + 12) = hlByte (BitVec.ofNat 4 (5 + seg.opts.length / 4)) ∧
      m (th + 13) = flagByte seg.fin seg.syn seg.rst seg.psh seg.ack ∧ Holds m (th + 20) seg.opts ∧
      Holds m (th + 20 + seg.opts.length) seg.payload.bytes := by
  have hcells := holds_iff.mp h
  have hlen := seg.length_wire
  have htext := (holds_append.mp h).2
  have hopts := (holds_append.mp (holds_append.mp h).1).2
  refine ⟨hcells 12 (by omega), hcells 13 (by omega), hopts, ?_⟩
  rw [List.length_append, Nat.cast_add, ← Int.add_assoc] at htext
  exact htext

/-- Nothing else of the skb changes. -/
theorem writeTcphdr_fields (family : AddrFamily) (sk : TcpSock) (seq : U32) (hl : BitVec 4) (s : SkbMem) :
    s.writeTcphdr family sk seq hl = { s with mem := (s.writeTcphdr family sk seq hl).mem } := by
  unfold writeTcphdr
  dsimp only [store]
  split <;> rfl

/-- **One transmission** hands the segment to IP, and leaves the skb as it was but
for its options. -/
theorem Bears.tcpTransmitSkb {sk : TcpSock} (h : s.Bears family k) (hat : s.AtText) (hwhole : 4 ∣ k.opts.length)
    (hfew : k.opts.length ≤ 40) (hroom : (writtenOpts sk k).length ≤ k.opts.length) (seq : U32) :
    (s.tcpTransmitSkb family sk seq).Bears family { k with opts := (segOf sk k seq).opts } ∧
      (s.tcpTransmitSkb family sk seq).Carries family (segOf sk k seq) := by
  obtain ⟨hb, ha, hhl⟩ := h.settled hat hfew
  unfold SkbMem.tcpTransmitSkb
  dsimp only at hb ha hhl ⊢
  generalize (if hiNibble (s.mem (tcpHdrForSk family + 12)) = 0 then setHl family TCP_DOFFSET s else s) = s₁ at hb ha hhl ⊢
  generalize hiNibble (s₁.mem (tcpHdrForSk family + 12)) = hl at hhl ⊢
  have hlnat : hl.toNat * 4 = 20 + k.opts.length := by
    rw [hhl, BitVec.toNat_ofNat]
    omega
  have hpush : (BitVec.ofNat 32 (hl.toNat * 4)).toNat = 20 + k.opts.length := by
    rw [hlnat, BitVec.toNat_ofNat]
    omega
  have hoptlen : (segOf sk k seq).opts.length = k.opts.length := by
    show (writtenOpts sk k ++ k.opts.drop (writtenOpts sk k).length).length = _
    rw [List.length_append, List.length_drop]
    omega
  have htextlen : k.payload.len.toNat = k.payload.bytes.length := Payload.len_toNat k.payload
  have hdata : s₁.data - (BitVec.ofNat 32 (hl.toNat * 4)).toNat = tcpHdrForSk family := by
    rw [hpush, ha.data, hb.dlen, htextlen, hb.tail]
    omega
  have hlen : (s₁.len + BitVec.ofNat 32 (hl.toNat * 4)).toNat = (segOf sk k seq).wire.length := by
    have hshort := k.payload.short
    rw [BitVec.toNat_add, hpush, ha.len, hb.dlen, htextlen, Seg.length_wire, hoptlen]
    show _ = 20 + k.opts.length + k.payload.bytes.length
    omega
  have hwire := writeTcphdr_holds (s := s₁.skbPush (BitVec.ofNat 32 (hl.toNat * 4))) hfew hhl hb.flags hb.opts hb.text hroom seq
  rw [writeTcphdr_fields]
  generalize (writeTcphdr family sk seq hl (s₁.skbPush (BitVec.ofNat 32 (hl.toNat * 4)))).mem = m at hwire ⊢
  rw [getLsbD_flagByte] at hwire
  have hseg : Holds m (tcpHdrForSk family) (segOf sk k seq).wire := by
    have hsplit : (segOf sk k seq).wire = (be16Bytes sk.sport ++ be16Bytes sk.dport ++ be32Bytes seq ++ be32Bytes sk.tcb.rcvNxt) ++
        ([hlByte hl] ++ ([flagByte k.fin k.syn k.rst k.psh k.ack] ++ ((be16Bytes (advertisedWin sk k.syn) ++ [0, 0, 0, 0]) ++
          ((segOf sk k seq).opts ++ k.payload.bytes)))) := by
      rw [hhl, ← hoptlen]
      simp [Seg.wire, segOf]
    rw [hsplit]
    exact hwire
  obtain ⟨hoffset, hflags, hopts, htext⟩ := holds_wire hseg
  refine ⟨⟨.inl ?_, hflags, hopts, htext, ?_, hb.dlen, hb.protocol⟩, hdata, hlen, hseg, ?_⟩
  · show hiNibble (m (tcpHdrForSk family + 12)) = _
    rw [hoffset, hiNibble_hlByte]
  · show s₁.tail = tcpHdrForSk family + 20 + (segOf sk k seq).opts.length + k.payload.bytes.length
    rw [hb.tail, hoptlen]
  · show BitVec.ofInt 32 (family.tcpPartion (read m (s₁.data - _) (s₁.len + _).toNat)) = _
    rw [hdata, hlen, show read m _ (segOf sk k seq).wire.length = _ from hseg]

/-! ## What the builders leave -/

theorem setFlag_mem (family : AddrFamily) (i : Nat) (s : SkbMem) (j : Int) :
    (setFlag family i s).mem j = if j = tcpHdrForSk family + 13 then s.mem j ||| (1 : U8) <<< i else s.mem j := by
  unfold setFlag
  dsimp only [store]
  rw [write_singleton]
  split
  next heq => rw [heq]
  next => rfl

theorem setHl_mem (family : AddrFamily) (hl : BitVec 4) (s : SkbMem) (j : Int) :
    (setHl family hl s).mem j = if j = tcpHdrForSk family + 12 then hl ++ loNibble (s.mem j) else s.mem j := by
  unfold setHl
  dsimp only [store]
  rw [write_singleton]
  split
  next heq => rw [heq]
  next => rfl

theorem hiNibble_append (hl lo : BitVec 4) : hiNibble (hl ++ lo) = hl := by
  revert hl lo
  decide

/-- `tcp_alloc_skb` leaves zeros from the TCP header on. -/
structure Blank (family : AddrFamily) (optlen size : Nat) (s : SkbMem) : Prop where
  zero : ∀ i, tcpHdrForSk family ≤ i → i < tcpHdrForSk family + 20 + optlen + size → s.mem i = 0
  tail : s.tail = tcpHdrForSk family + 20 + optlen + size
  data : s.data = s.tail
  len : s.len = 0
  dlen : s.dlen = BitVec.ofNat 32 size
  protocol : s.protocol = IP_TCP.setWidth 16

theorem blank_tcpAllocSkb (around : Mem U8) (family : AddrFamily) {optlen size : Nat} (ho : optlen ≤ 40) (hs : size < 65536) :
    (SkbMem.tcpAllocSkb around family (BitVec.ofNat 32 optlen) (BitVec.ofNat 32 size)).Blank family optlen size := by
  have hip : family.ipHlen ≤ 40 := by cases family <;> decide
  have hreserved : (BitVec.ofNat 32 (ETH_HDR_LEN + family.ipHlen + TCP_HDR_LEN) + BitVec.ofNat 32 optlen + BitVec.ofNat 32 size : U32).toNat =
      14 + family.ipHlen + 20 + optlen + size := by
    rw [← BitVec.ofNat_add, ← BitVec.ofNat_add, BitVec.toNat_ofNat]
    simp only [ETH_HDR_LEN, TCP_HDR_LEN]
    omega
  have hth : tcpHdrForSk family = 14 + family.ipHlen := rfl
  unfold SkbMem.tcpAllocSkb
  dsimp only [allocSkb, skbReserve]
  rw [hreserved]
  refine ⟨fun i h1 h2 => if_pos ?_, ?_, ?_, rfl, rfl, rfl⟩
  · rw [hth] at h1 h2
    omega
  · show ((14 + family.ipHlen + 20 + optlen + size : Nat) : Int) = _
    rw [hth]
    omega
  · exact Int.zero_add _

theorem Blank.opts {optlen size : Nat} (h : s.Blank family optlen size) : Holds s.mem (tcpHdrForSk family + 20) (List.replicate optlen 0) := by
  refine holds_iff.mpr fun i hi => ?_
  rw [List.getElem_replicate]
  rw [List.length_replicate] at hi
  exact h.zero _ (by omega) (by omega)

end SkbMem

namespace Builder

open SkbMem (Bears AtText Blank setFlag_mem setHl_mem)

variable {family : AddrFamily} {around : Mem U8}

/-- An skb without text: `hl`, the flags and the options are all that counts. -/
theorem bears_bare {k : Skb} {s₀ s : SkbMem} {optlen : Nat} (hs₀ : s₀.Blank family optlen 0) (hs : s = { s₀ with mem := s.mem })
    (ho : k.opts.length = optlen) (hk : k.payload = Payload.nil)
    (hhl : hiNibble (s.mem (tcpHdrForSk family + 12)) = BitVec.ofNat 4 (5 + k.opts.length / 4) ∨
      k.opts = [] ∧ hiNibble (s.mem (tcpHdrForSk family + 12)) = 0)
    (hflags : s.mem (tcpHdrForSk family + 13) = flagByte k.fin k.syn k.rst k.psh k.ack)
    (hopts : Holds s.mem (tcpHdrForSk family + 20) k.opts) : s.Bears family k ∧ s.AtText := by
  have hnone : k.payload.bytes = [] := by rw [hk]; rfl
  have htail := hs₀.tail
  refine ⟨⟨hhl, hflags, hopts, ?_, ?_, ?_, ?_⟩, ?_, ?_⟩
  · rw [hnone]
    exact .nil
  · rw [hs, hnone, ho]
    exact htail
  · rw [hs, hk]
    exact hs₀.dlen
  · rw [hs]
    exact hs₀.protocol
  · rw [hs]
    show s₀.data = s₀.tail - s₀.dlen.toNat
    rw [hs₀.data, hs₀.dlen]
    exact (Int.sub_zero _).symm
  · rw [hs]
    exact hs₀.len.trans hs₀.dlen.symm

/-- `tcp_alloc_skb` for options alone. -/
theorem blank_options (around : Mem U8) (family : AddrFamily) {optlen : Nat} (h16 : optlen ≤ 16) :
    (SkbMem.tcpAllocSkb around family (BitVec.ofNat 32 optlen) 0).Blank family optlen 0 :=
  SkbMem.blank_tcpAllocSkb around family (h16.trans (by decide)) (Nat.zero_lt_succ _)

/-- Without options either, it is the flags alone. -/
theorem bears_flags {k : Skb} {s : SkbMem} (hs : s = { SkbMem.tcpAllocSkb around family 0 0 with mem := s.mem }) (ho : k.opts = [])
    (hk : k.payload = Payload.nil) (hhl : s.mem (tcpHdrForSk family + 12) = 0)
    (hflags : s.mem (tcpHdrForSk family + 13) = flagByte k.fin k.syn k.rst k.psh k.ack) : s.Bears family k ∧ s.AtText := by
  have hblank : (SkbMem.tcpAllocSkb around family 0 0).Blank family 0 0 := blank_options around family (Nat.zero_le _)
  have hzero : hiNibble 0 = 0 := rfl
  refine bears_bare hblank hs (by rw [ho]; rfl) hk (.inr ⟨ho, by rw [hhl, hzero]⟩) hflags ?_
  rw [ho]
  exact .nil

/-- `hl` as `tcp_send_ack` and `tcp_send_syn` compute it. -/
theorem hl_counts {n : Nat} (h4 : 4 ∣ n) (h16 : n ≤ 16) :
    TCP_DOFFSET + (BitVec.ofNat 32 n / 4).setWidth 4 = BitVec.ofNat 4 (5 + n / 4) := by
  obtain ⟨k, rfl⟩ := h4
  have hk : k ≤ 4 := by omega
  interval_cases k <;> rfl

theorem bears_ack {sk : TcpSock} (hb : (ack sk).Used) :
    ((ack sk).mem around family).Bears family (ack sk).skb ∧ ((ack sk).mem around family).AtText := by
  obtain ⟨h4, h16⟩ := hb.optlen
  have hlen : (ack sk).skb.opts.length = (tcpOptionsLen sk).toNat := List.length_replicate
  rw [hlen] at h4 h16
  have hw : (tcpOptionsLen sk).setWidth 32 = BitVec.ofNat 32 (tcpOptionsLen sk).toNat := (BitVec.ofNat_toNat 32 _).symm
  have hblank := blank_options around family h16
  have hz := hblank.zero
  have hmem : (ack sk).mem around family = setHl family (TCP_DOFFSET + ((tcpOptionsLen sk).setWidth 32 / 4).setWidth 4)
      (setFlag family ACK_BIT (SkbMem.tcpAllocSkb around family ((tcpOptionsLen sk).setWidth 32) 0)) := rfl
  rw [hw] at hmem
  rw [hmem]
  refine bears_bare hblank rfl hlen rfl (.inl ?_) ?_ ?_
  · rw [setHl_mem, if_pos rfl, SkbMem.hiNibble_append, hlen, hl_counts h4 h16]
  · rw [setHl_mem, if_neg (by omega), setFlag_mem, if_pos rfl, hz _ (by omega) (by omega)]
    show _ = flagByte false false false false true
    decide
  · refine hblank.opts.congr fun i h1 _ => ?_
    rw [setHl_mem, if_neg (by omega), setFlag_mem, if_neg (by omega)]

theorem bears_syn (sk : TcpSock) :
    ((syn sk).mem around family).Bears family (syn sk).skb ∧ ((syn sk).mem around family).AtText := by
  have hused : (syn sk).Used := trivial
  obtain ⟨h4, h16⟩ := hused.optlen
  have hlen : (syn sk).skb.opts.length = (synOptionsLen sk).toNat := length_tcpSynOptions sk
  rw [hlen] at h4 h16
  have hw : synOptionsLen sk = BitVec.ofNat 32 (synOptionsLen sk).toNat := by rw [BitVec.ofNat_toNat, BitVec.setWidth_eq]
  have hblank := blank_options around family h16
  have hz := hblank.zero
  have hmem : (syn sk).mem around family = setFlag family SYN_BIT (setHl family (TCP_DOFFSET + (synOptionsLen sk / 4).setWidth 4)
      ((SkbMem.tcpAllocSkb around family (synOptionsLen sk) 0).store (tcpHdrForSk family + 20) (tcpSynOptions sk))) := rfl
  have hother : ∀ i, i < tcpHdrForSk family + 20 → ∀ s : SkbMem,
      (s.store (tcpHdrForSk family + 20) (tcpSynOptions sk)).mem i = s.mem i := fun i hi s => write_outside (.inl hi)
  rw [hmem]
  refine bears_bare hblank (by rw [← hw]; rfl) hlen rfl (.inl ?_) ?_ ?_
  · rw [setFlag_mem, if_neg (by omega), setHl_mem, if_pos rfl, SkbMem.hiNibble_append, hlen, hw, hl_counts h4 h16, ← hw]
  · rw [setFlag_mem, if_pos rfl, setHl_mem, if_neg (by omega), hother _ (by omega), hw, hz _ (by omega) (by omega)]
    show _ = flagByte false true false false false
    decide
  · have hwritten : Holds ((SkbMem.tcpAllocSkb around family (synOptionsLen sk) 0).store (tcpHdrForSk family + 20) (tcpSynOptions sk)).mem
        (tcpHdrForSk family + 20) (tcpSynOptions sk) := holds_write _ _ _
    refine hwritten.congr fun i h1 _ => ?_
    rw [setFlag_mem, if_neg (by omega), setHl_mem, if_neg (by omega)]

theorem bears_send (mss : U16) (buf : List U8) :
    ((send mss buf).mem around family).Bears family (send mss buf).skb ∧ ((send mss buf).mem around family).AtText := by
  have hshort := (Payload.ofTake mss buf).short
  generalize hchunk : Payload.ofTake mss buf = chunk at hshort
  have hlen : chunk.len.toNat = chunk.bytes.length := Payload.len_toNat chunk
  have hblank : (SkbMem.tcpAllocSkb around family 0 chunk.len).Blank family 0 chunk.bytes.length :=
    SkbMem.blank_tcpAllocSkb around family (Nat.zero_le _) (by omega)
  have hz := hblank.zero
  have htail := hblank.tail
  have hat := hblank.data
  generalize hs₀ : SkbMem.tcpAllocSkb around family 0 chunk.len = s₀ at hblank hz htail hat
  have hskb : (send mss buf).skb = dataSkb chunk (buf.drop mss.toNat).isEmpty := by rw [← hchunk]; rfl
  have hdata : s₀.data - chunk.len.toNat = tcpHdrForSk family + 20 := by omega
  have hmem : (send mss buf).mem around family =
      (let s := setFlag family ACK_BIT ((s₀.skbPush chunk.len).store (s₀.data - chunk.len.toNat) chunk.bytes)
       if (buf.drop mss.toNat).isEmpty then setFlag family PSH_BIT s else s) := by
    rw [← hs₀, ← hchunk]
    rfl
  rw [hmem, hskb, hdata]
  have hlow : ∀ i, i < tcpHdrForSk family + 20 →
      ((s₀.skbPush chunk.len).store (tcpHdrForSk family + 20) chunk.bytes).mem i = s₀.mem i := fun i hi => write_outside (.inl hi)
  have htext : Holds ((s₀.skbPush chunk.len).store (tcpHdrForSk family + 20) chunk.bytes).mem (tcpHdrForSk family + 20) chunk.bytes :=
    holds_write _ _ _
  have hlen0 : s₀.len + chunk.len = s₀.dlen := by
    rw [hblank.len, hblank.dlen]
    exact BitVec.zero_add _
  have hdlen : s₀.dlen = chunk.len := hblank.dlen
  -- whatever flags are set on top of what `tcp_alloc_skb` left
  have hflagged : ∀ (s : SkbMem) (last : Bool), s = { (s₀.skbPush chunk.len).store (tcpHdrForSk family + 20) chunk.bytes with mem := s.mem } →
      (∀ i, i ≠ tcpHdrForSk family + 13 → s.mem i = ((s₀.skbPush chunk.len).store (tcpHdrForSk family + 20) chunk.bytes).mem i) →
      s.mem (tcpHdrForSk family + 13) = flagByte false false false last true →
      s.Bears family (dataSkb chunk last) ∧ s.AtText := by
    intro s last hs hother hflags
    refine ⟨⟨.inr ⟨rfl, ?_⟩, hflags, .nil, ?_, ?_, ?_, ?_⟩, ?_, ?_⟩
    · rw [hother _ (by omega), hlow _ (by omega), hz _ (by omega) (by omega)]
      rfl
    · refine htext.congr fun i h1 _ => hother i ?_
      show i ≠ tcpHdrForSk family + 13
      omega
    · rw [hs]
      exact htail
    · rw [hs]
      exact hdlen
    · rw [hs]
      exact hblank.protocol
    · rw [hs]
      show s₀.data - chunk.len.toNat = s₀.tail - s₀.dlen.toNat
      rw [hat, hdlen]
    · rw [hs]
      exact hlen0
  dsimp only
  split
  next hlast =>
    refine hflagged _ _ rfl (fun i hi => ?_) ?_
    · rw [setFlag_mem, if_neg hi, setFlag_mem, if_neg hi]
    · rw [setFlag_mem, if_pos rfl, setFlag_mem, if_pos rfl, hlow _ (by omega), hz _ (by omega) (by omega), hlast]
      decide
  next hlast =>
    refine hflagged _ _ rfl (fun i hi => ?_) ?_
    · rw [setFlag_mem, if_neg hi]
    · rw [setFlag_mem, if_pos rfl, hlow _ (by omega), hz _ (by omega) (by omega), Bool.eq_false_iff.mpr hlast]
      decide

theorem bears_synack : (synack.mem around family).Bears family synack.skb ∧ (synack.mem around family).AtText := by
  have hblank : (SkbMem.tcpAllocSkb around family 4 0).Blank family 4 0 := blank_options around family (by decide)
  have hz := hblank.zero
  refine bears_bare hblank rfl rfl rfl (.inl ?_) ?_ ?_
  · show hiNibble ((setHl family 6 _).mem _) = _
    rw [setHl_mem, if_pos rfl, SkbMem.hiNibble_append]
    rfl
  · show (setHl family 6 _).mem _ = _
    rw [setHl_mem, if_neg (by omega), setFlag_mem, if_pos rfl, setFlag_mem, if_pos rfl, hz _ (by omega) (by omega)]
    rfl
  · exact hblank.opts.congr fun i h1 _ => by
      show (setHl family 6 _).mem _ = _
      rw [setHl_mem, if_neg (by omega), setFlag_mem, if_neg (by omega), setFlag_mem, if_neg (by omega)]

/-- **Every builder** leaves its flags, its options and its text, and `data` at the
text. -/
theorem Used.bears {b : Builder} (hb : b.Used) (around : Mem U8) (family : AddrFamily) :
    (b.mem around family).Bears family b.skb ∧ (b.mem around family).AtText := by
  have hz : ∀ i, tcpHdrForSk family ≤ i → i < tcpHdrForSk family + 20 → (SkbMem.tcpAllocSkb around family 0 0).mem i = 0 := fun i h1 h2 =>
    (blank_options around family (Nat.zero_le 16)).zero i h1 (by omega)
  cases b with
  | send mss buf => exact bears_send mss buf
  | ack sk => exact bears_ack hb
  | syn sk => exact bears_syn sk
  | synack => exact bears_synack
  | fin =>
    refine bears_flags rfl rfl rfl ?_ ?_
    · show (setFlag family ACK_BIT _).mem _ = _
      rw [setFlag_mem, if_neg (by omega), setFlag_mem, if_neg (by omega), hz _ (by omega) (by omega)]
    · show (setFlag family ACK_BIT _).mem _ = _
      rw [setFlag_mem, if_pos rfl, setFlag_mem, if_pos rfl, hz _ (by omega) (by omega)]
      rfl
  | reset =>
    refine bears_flags rfl rfl rfl ?_ ?_
    · show (setFlag family RST_BIT _).mem _ = _
      rw [setFlag_mem, if_neg (by omega), hz _ (by omega) (by omega)]
    · show (setFlag family RST_BIT _).mem _ = _
      rw [setFlag_mem, if_pos rfl, hz _ (by omega) (by omega)]
      rfl

end Builder

namespace SkbMem

variable {family : AddrFamily} {k : Skb} {s s' : SkbMem}

/-! ## What the IP layer writes -/

/-- The checksum goes into its field of the segment. -/
theorem holds_storeCsum {m : Mem U8} {th a : Int} {seg : List U8} (h : Holds m th seg) (hlen : 20 ≤ seg.length) (ha : a = th + 16) (csum : U16) :
    Holds (write m a (le16Bytes csum)) th (storeCsum seg csum) := by
  have hsplit : seg = seg.take 16 ++ ((seg.drop 16).take 2 ++ seg.drop 18) := by
    have htwo : seg.drop 18 = (seg.drop 16).drop 2 := by rw [List.drop_drop]
    rw [htwo, List.take_append_drop, List.take_append_drop]
  have htake : (seg.take 16).length = 16 := List.length_take_of_le (by omega)
  have hmid : ((seg.drop 16).take 2).length = 2 := by
    rw [List.length_take_of_le]
    rw [List.length_drop]
    omega
  rw [hsplit] at h
  rw [storeCsum_eq hlen]
  exact h.patch (by rw [htake]; exact ha) hmid.symm

/-- `ip_send_check` fills in the checksum of a header that is in place. -/
theorem holds_ipv4Header {m : Mem U8} {a : Int} {len id : U16} {proto : U8} {saddr daddr : U32}
    (h : Holds m a (EchoReply4.ipv4Header len id proto saddr daddr 0)) (csum : U16) :
    Holds (write m (a + 10) (le16Bytes csum)) a (EchoReply4.ipv4Header len id proto saddr daddr csum) := by
  have hsplit : ∀ c, EchoReply4.ipv4Header len id proto saddr daddr c =
      ([0x45, 0] ++ be16Bytes len ++ be16Bytes id ++ [0x40, 0, 64, proto]) ++ (le16Bytes c ++ (be32Bytes saddr ++ be32Bytes daddr)) :=
    fun c => by simp [EchoReply4.ipv4Header]
  rw [hsplit] at h ⊢
  exact h.patch rfl rfl

/-- The skb at its IP header. -/
structure Packet (a : AddrPair) (id : U16) (seg : Seg) (s : SkbMem) : Prop where
  data : s.data = ETH_HDR_LEN
  len : s.len.toNat + 14 < 2 ^ 32
  bytes : s.bytes = a.ipHeader id seg.wire.length ++ a.emitted seg.wire

/-- `ip_output` writes a header whose checksum is right, and the checksum of the
segment. -/
theorem Carries.ipOutput {seg : Seg} (hs : seg.Sound) (hb : s.Bears .inet k) (hc : s.Carries .inet seg) (saddr daddr : U32) :
    (s.ipOutput saddr daddr).Bears .inet k ∧ ∃ id, (s.ipOutput saddr daddr).Packet (.v4 saddr daddr) id seg := by
  have hshort := hs.length_wire
  have hmin := seg.length_wire
  have hth : tcpHdrForSk .inet = 34 := rfl
  have hdata : s.data - (BitVec.ofNat 32 IP_HDR_LEN).toNat = 14 := by
    rw [hc.data, hth]
    rfl
  have hlen : (s.len + BitVec.ofNat 32 IP_HDR_LEN).toNat = 20 + seg.wire.length := by
    have htwenty : (BitVec.ofNat 32 IP_HDR_LEN).toNat = 20 := rfl
    rw [BitVec.toNat_add, hc.len, htwenty]
    omega
  have hlen16 : (s.len + BitVec.ofNat 32 IP_HDR_LEN).setWidth 16 = BitVec.ofNat 16 (20 + seg.wire.length) := by
    rw [← hlen, ← BitVec.setWidth_ofNat_of_le (by decide : 16 ≤ 32), BitVec.ofNat_toNat, BitVec.setWidth_eq]
  have hproto : s.protocol.setWidth 8 = IP_TCP := by rw [hb.protocol]; rfl
  have hseg := hc.wire
  rw [hth] at hseg
  unfold SkbMem.ipOutput
  dsimp only [skbPush, store]
  rw [hlen16, hproto, if_neg (by decide), if_pos rfl, hdata, hc.tcpcsum]
  generalize (s.mem ((ETH_HDR_LEN : Int) + 5) ++ s.mem ((ETH_HDR_LEN : Int) + 4) : U16) = id
  generalize hhdr : EchoReply4.ipv4Header (BitVec.ofNat 16 (20 + seg.wire.length)) id IP_TCP saddr daddr = hdr
  generalize hcsum : (BitVec.ofInt 16 (tcpV4IpPartionChecksum saddr daddr (BitVec.ofInt 32 (AddrFamily.inet.tcpPartion seg.wire))) : U16) = csum
  have hhdrlen : ∀ c, (hdr c).length = 20 := fun _ => by rw [← hhdr]; rfl
  have hcsumlen : ∀ c : U16, (le16Bytes c).length = 2 := fun _ => rfl
  have hhead : Holds (write (write s.mem 14 (hdr 0)) 50 (le16Bytes csum)) 14 (hdr 0) :=
    (holds_write _ _ _).write (.inl (by rw [hhdrlen]; omega))
  have hread : read (write (write s.mem 14 (hdr 0)) 50 (le16Bytes csum)) 14 20 = hdr 0 := by
    rw [← hhdrlen 0]
    exact hhead
  have hfilled : Holds (write (write (write s.mem 14 (hdr 0)) 50 (le16Bytes csum)) 24 (le16Bytes (checksum (hdr 0) 0 20 0))) 14
      (ipv4TcpHeader seg.wire.length id saddr daddr) := by
    rw [ipv4TcpHeader, hhdr]
    rw [← hhdr] at hhead ⊢
    exact holds_ipv4Header hhead _
  have hbody : Holds (write (write (write s.mem 14 (hdr 0)) 50 (le16Bytes csum)) 24 (le16Bytes (checksum (hdr 0) 0 20 0))) 34
      (storeCsum seg.wire csum) :=
    (holds_storeCsum (hseg.write (.inr (by rw [hhdrlen]; omega))) (by omega) rfl csum).write (.inr (by rw [hcsumlen]; omega))
  have hemitted : storeCsum seg.wire csum = (AddrPair.v4 saddr daddr).emitted seg.wire := by
    rw [← hcsum]
    rfl
  have hmem : write (write (write s.mem (ETH_HDR_LEN : Nat) (hdr 0)) (14 + (IP_HDR_LEN : Nat) + 16) (le16Bytes csum)) ((ETH_HDR_LEN : Nat) + 10)
      (le16Bytes (checksum (read (write (write s.mem (ETH_HDR_LEN : Nat) (hdr 0)) (14 + (IP_HDR_LEN : Nat) + 16) (le16Bytes csum))
        (ETH_HDR_LEN : Nat) 20) 0 20 0)) =
      write (write (write s.mem 14 (hdr 0)) 50 (le16Bytes csum)) 24 (le16Bytes (checksum (hdr 0) 0 20 0)) :=
    congrArg (fun bs => write (write (write s.mem 14 (hdr 0)) 50 (le16Bytes csum)) 24 (le16Bytes (checksum bs 0 20 0))) hread
  rw [hmem]
  generalize hm : write (write (write s.mem 14 (hdr 0)) 50 (le16Bytes csum)) 24 (le16Bytes (checksum (hdr 0) 0 20 0)) = m at hfilled hbody ⊢
  refine ⟨hb.congr (fun i h1 h2 h3 => ?_) rfl rfl rfl, id, rfl, ?_, ?_⟩
  · rw [hth] at h1 h2 h3
    show m i = s.mem i
    rw [← hm, write_outside (by rw [hcsumlen]; omega), write_outside (by rw [hcsumlen]; omega), write_outside (by rw [hhdrlen]; omega)]
  · show (s.len + BitVec.ofNat 32 IP_HDR_LEN).toNat + 14 < 2 ^ 32
    omega
  · have hwhole : Holds m 14 (ipv4TcpHeader seg.wire.length id saddr daddr ++ storeCsum seg.wire csum) := hfilled.append hbody rfl
    show read m 14 (s.len + BitVec.ofNat 32 IP_HDR_LEN).toNat = _
    rw [Holds, List.length_append, length_storeCsum, hemitted] at hwhole
    rw [hlen]
    exact hwhole

/-- `ipv6_output_ex` likewise; IPv6 has no checksum of its own. -/
theorem Carries.ipv6OutputEx {seg : Seg} (hs : seg.Sound) (hb : s.Bears .inet6 k) (hc : s.Carries .inet6 seg) (saddr daddr : In6Addr) :
    (s.ipv6OutputEx NEXTHDR_TCP saddr daddr).Bears .inet6 k ∧
      ∃ id, (s.ipv6OutputEx NEXTHDR_TCP saddr daddr).Packet (.v6 saddr daddr) id seg := by
  have hshort := hs.length_wire
  have hmin := seg.length_wire
  have hth : tcpHdrForSk .inet6 = 54 := rfl
  have hdata : s.data - (BitVec.ofNat 32 IPV6_HDR_LEN).toNat = 14 := by
    rw [hc.data, hth]
    rfl
  have hlen : (s.len + BitVec.ofNat 32 IPV6_HDR_LEN).toNat = 40 + seg.wire.length := by
    have hforty : (BitVec.ofNat 32 IPV6_HDR_LEN).toNat = 40 := rfl
    rw [BitVec.toNat_add, hc.len, hforty]
    omega
  have hlen16 : (s.len + BitVec.ofNat 32 IPV6_HDR_LEN - BitVec.ofNat 32 IPV6_HDR_LEN).setWidth 16 = BitVec.ofNat 16 seg.wire.length := by
    rw [BitVec.add_sub_cancel, ← hc.len, ← BitVec.setWidth_ofNat_of_le (by decide : 16 ≤ 32), BitVec.ofNat_toNat, BitVec.setWidth_eq]
  have hseg := hc.wire
  rw [hth] at hseg
  unfold SkbMem.ipv6OutputEx
  dsimp only [skbPush, store]
  rw [hlen16, if_pos rfl, hdata, hc.tcpcsum]
  generalize hhdr : ErrorTx.ipv6Header (BitVec.ofNat 16 seg.wire.length) NEXTHDR_TCP saddr daddr = hdr
  generalize hcsum : (BitVec.ofInt 16 (tcpV6IpPartionChecksum saddr daddr (BitVec.ofInt 32 (AddrFamily.inet6.tcpPartion seg.wire))) : U16) = csum
  have hhdrlen : hdr.length = 40 := by rw [← hhdr, ErrorTx.ipv6Header]; simp [be16Bytes]
  have hcsumlen : (le16Bytes csum).length = 2 := rfl
  have hhead : Holds (write (write s.mem 14 hdr) 70 (le16Bytes csum)) 14 hdr := (holds_write _ _ _).write (.inl (by omega))
  have hbody : Holds (write (write s.mem 14 hdr) 70 (le16Bytes csum)) 54 (storeCsum seg.wire csum) :=
    holds_storeCsum (hseg.write (.inr (by omega))) (by omega) rfl csum
  have hemitted : storeCsum seg.wire csum = (AddrPair.v6 saddr daddr).emitted seg.wire := by
    rw [← hcsum]
    rfl
  have hmem : write (write s.mem 14 hdr) ((ETH_HDR_LEN + IPV6_HDR_LEN : Nat) + 16) (le16Bytes csum) =
      write (write s.mem 14 hdr) 70 (le16Bytes csum) := rfl
  rw [hmem]
  generalize hm : write (write s.mem 14 hdr) 70 (le16Bytes csum) = m at hhead hbody ⊢
  refine ⟨hb.congr (fun i h1 h2 h3 => ?_) rfl rfl rfl, 0, rfl, ?_, ?_⟩
  · rw [hth] at h1 h2 h3
    show m i = s.mem i
    rw [← hm, write_outside (by omega), write_outside (by omega)]
  · show (s.len + BitVec.ofNat 32 IPV6_HDR_LEN).toNat + 14 < 2 ^ 32
    omega
  · have hwhole : Holds m 14 (hdr ++ storeCsum seg.wire csum) := hhead.append hbody (by omega)
    show read m 14 (s.len + BitVec.ofNat 32 IPV6_HDR_LEN).toNat = _
    rw [Holds, List.length_append, length_storeCsum, hemitted, hhdrlen, ← hhdr] at hwhole
    rw [hlen]
    exact hwhole

/-- **The IP layer** makes the packet, and leaves the skb to be sent again. -/
theorem Carries.output {seg : Seg} {a : AddrPair} (hs : seg.Sound) (hb : s.Bears a.family k) (hc : s.Carries a.family seg) :
    (a.ipOutput s).Bears a.family k ∧ ∃ id, (a.ipOutput s).Packet a id seg := by
  cases a with
  | v4 saddr daddr => exact hc.ipOutput hs hb saddr daddr
  | v6 saddr daddr => exact hc.ipv6OutputEx hs hb saddr daddr

/-! ## What the device is given -/

variable {a : AddrPair} {id : U16} {seg : Seg}

/-- The frame of the packet. -/
theorem Packet.frame (h : s.Packet a id seg) (hwaddr dmac : HwAddr) :
    (s.netdevTransmit hwaddr dmac a.ethertype).bytes = a.frame hwaddr dmac id seg := by
  rw [bytes_netdevTransmit _ _ _ _ h.len, h.bytes, AddrPair.frame]

/-- The Ethernet header is before everything else. -/
theorem Packet.bears (h : s.Packet a id seg) (hb : s.Bears a.family k) (hwaddr dmac : HwAddr) :
    (s.netdevTransmit hwaddr dmac a.ethertype).Bears a.family k := by
  have hfourteen : (BitVec.ofNat 32 ETH_HDR_LEN).toNat = 14 := rfl
  have hbehind : (26 : Int) ≤ tcpHdrForSk a.family + 12 := by
    rw [tcpHdrForSk, ETH_HDR_LEN]
    omega
  refine hb.congr (fun i h1 _ _ => write_outside (.inr ?_)) rfl rfl rfl
  show s.data - (BitVec.ofNat 32 ETH_HDR_LEN).toNat + _ ≤ i
  rw [h.data, hfourteen, length_ethHdr, ETH_HDR_LEN]
  omega

/-- The packet lies in its buffer. -/
theorem Packet.placed (h : s.Packet a id seg) (hb : s.Bears a.family { k with opts := seg.opts }) (hk : seg.payload = k.payload) : s.Placed 0 := by
  have hlen : s.bytes.length = _ := congrArg List.length h.bytes
  have hheader : (a.ipHeader id seg.wire.length).length = a.family.ipHlen := by
    cases a with
    | v4 saddr daddr => rfl
    | v6 saddr daddr => simp [AddrPair.ipHeader, ErrorTx.ipv6Header, be16Bytes, AddrPair.family, AddrFamily.ipHlen, IPV6_HDR_LEN]
  have htail := hb.tail
  rw [tcpHdrForSk] at htail
  rw [SkbMem.bytes, length_read, List.length_append, hheader, AddrPair.length_emitted, Seg.length_wire, hk] at hlen
  refine ⟨?_, ?_⟩
  · rw [h.data]
    decide
  · rw [h.data]
    dsimp only at htail
    omega

/-- A copy is the packet too. -/
theorem Packet.skbCopy (h : s.Packet a id seg) (hp : s.Placed 0) (around : Mem U8) : (s.skbCopy around).Packet a id seg :=
  ⟨h.data, h.len, (bytes_skbCopy s around hp).trans h.bytes⟩

end SkbMem

/-! ## From the builder to the socket -/

/-- What a socket puts in the option area has room there. The ACK is for the socket
that was counted; for a SYN there is no block to report yet. -/
def Builder.Fits (sk : TcpSock) : Builder → Prop
  | ack s => sk = s
  | syn _ | synack => sk.sackPending = false
  | send _ _ | fin | reset => True

namespace Builder

/-- What `tcp_write_options` writes is no more than it says. -/
theorem length_tcpWriteOptionsBytes_le (sk : TcpSock) :
    (tcpWriteOptionsBytes sk).length ≤ (if sk.wsoAllowed then 4 else 0) + if sk.sackPending then 4 + 8 * sk.sacklen.toNat else 0 := by
  have hblocks : ∀ bs : List (U32 × U32), (bs.flatMap fun b => toBe32 b.1 ++ toBe32 b.2).length = 8 * bs.length := fun bs => by
    induction bs with
    | nil => rfl
    | cons b bs ih =>
      rw [List.flatMap_cons, List.length_append, ih, List.length_cons, Nat.mul_add, Nat.add_comm]
      rfl
  unfold tcpWriteOptionsBytes
  rw [List.length_append]
  refine Nat.add_le_add ?_ ?_
  · split <;> exact Nat.le_refl _
  · split
    · rw [List.length_append, hblocks]
      exact Nat.add_le_add_left (Nat.mul_le_mul_left 8 (List.length_take_le _ _)) 4
    · exact Nat.le_refl _

/-- **There is room** for what `tcp_write_options` writes. -/
theorem Fits.room {sk : TcpSock} {b : Builder} (h : b.Fits sk) (hb : b.Used) {k : Skb} (hk : k.opts.length = b.skb.opts.length) :
    (writtenOpts sk k).length ≤ k.opts.length := by
  have hwritten := length_tcpWriteOptionsBytes_le sk
  have hwso : (if sk.wsoAllowed then 4 else 0) ≤ 4 := by split <;> decide
  have hquiet : sk.sackPending = false → (writtenOpts sk k).length ≤ k.opts.length := fun hp => by
    rw [hp, if_neg Bool.false_ne_true] at hwritten
    unfold writtenOpts
    split
    · omega
    · exact Nat.zero_le _
  have hnone : b.skb.opts = [] → (writtenOpts sk k).length ≤ k.opts.length := fun ho => by
    rw [ho, List.length_nil] at hk
    rw [writtenOpts, if_neg (by omega)]
    exact Nat.zero_le _
  cases b with
  | ack s =>
    obtain rfl : sk = s := h
    have hlen : (ack sk).skb.opts.length = (tcpOptionsLen sk).toNat := List.length_replicate
    have hone : sk.sacklen.toNat ≤ 1 := hb.bound.2
    have hcount := TcpSock.SackCount.optionsLen hb
    rw [hlen] at hk
    unfold writtenOpts
    split
    · cases hp : sk.sackPending with
      | true =>
        rw [hp, if_pos rfl] at hwritten hcount
        omega
      | false =>
        rw [hp, if_neg Bool.false_ne_true] at hwritten hcount
        omega
    · exact Nat.zero_le _
  | syn s => exact hquiet h
  | synack => exact hquiet h
  | send mss buf => exact hnone rfl
  | fin => exact hnone rfl
  | reset => exact hnone rfl

end Builder

/-- The segment of the builder's skb, under the socket and the number of one of the
transmissions. -/
def Builder.Makes (b : Builder) (xs : List Transmission) (seg : Seg) : Prop :=
  ∃ x ∈ xs, ∃ opts : List U8, opts.length = b.skb.opts.length ∧ seg = segOf x.sk { b.skb with opts := opts } x.seq

/-- **A frame delivers** its segment: the other end is given what the builder made. -/
structure Delivers (a : AddrPair) (hwaddr : HwAddr) (b : Builder) (xs : List Transmission) (f : Seg × List U8) : Prop where
  made : b.Makes xs f.1
  framed : ∃ dmac id, f.2 = a.frame hwaddr dmac id f.1
  arrives : arrival f.2 = some (a, .segment f.1.tcphdr f.1.payload f.1.psh)

namespace WireSkb

variable {a : AddrPair} {hwaddr : HwAddr} {b : Builder} {xs : List Transmission} {t : WireSkb} {x : Transmission}

/-- **In order**: the buffer still bears the builder's segment, the copies are its
packets, and the frames deliver. -/
structure InOrder (a : AddrPair) (hwaddr : HwAddr) (b : Builder) (xs : List Transmission) (t : WireSkb) : Prop where
  bears : t.s.Bears a.family t.k
  same : ∃ opts : List U8, opts.length = b.skb.opts.length ∧ t.k = { b.skb with opts := opts }
  copies : ∀ c ∈ t.copies, (∃ id, c.2.Packet a id c.1) ∧ c.1.Sound ∧ b.Makes xs c.1
  frames : ∀ f ∈ t.frames, Delivers a hwaddr b xs f

theorem InOrder.mono {ys : List Transmission} (h : t.InOrder a hwaddr b xs) (hsub : xs ⊆ ys) : t.InOrder a hwaddr b ys where
  bears := h.bears
  same := h.same
  copies c hc := ⟨(h.copies c hc).1, (h.copies c hc).2.1, (h.copies c hc).2.2.imp fun _ hx => ⟨hsub hx.1, hx.2⟩⟩
  frames f hf := ⟨(h.frames f hf).made.imp fun _ hx => ⟨hsub hx.1, hx.2⟩, (h.frames f hf).framed, (h.frames f hf).arrives⟩

/-- What a transmission makes can be told from its bytes. -/
theorem sound_segOf (hb : b.Used) (hsmall : b.skb.payload.bytes.length ≤ 65475) {sk : TcpSock} (hfits : b.Fits sk) {opts : List U8}
    (ho : opts.length = b.skb.opts.length) (seq : U32) :
    (segOf sk { b.skb with opts := opts } seq).opts.length = b.skb.opts.length ∧ (segOf sk { b.skb with opts := opts } seq).Sound := by
  have hroom : (writtenOpts sk { b.skb with opts := opts }).length ≤ opts.length := hfits.room hb ho
  have hlen : (segOf sk { b.skb with opts := opts } seq).opts.length = b.skb.opts.length := by
    show (writtenOpts sk _ ++ opts.drop (writtenOpts sk _).length).length = _
    rw [List.length_append, List.length_drop]
    omega
  have hoptlen := hb.optlen
  have hbare : b.skb.opts = [] ∨ b.skb.payload.bytes = [] := by
    cases b with
    | send mss buf => exact .inl rfl
    | ack s => exact .inr rfl
    | syn s => exact .inr rfl
    | synack => exact .inr rfl
    | fin => exact .inl rfl
    | reset => exact .inl rfl
  refine ⟨hlen, ⟨hlen ▸ hoptlen.1, by omega, ?_, ?_⟩⟩
  · rcases hbare with hnone | hnone
    · refine .inl (List.eq_nil_of_length_eq_zero ?_)
      rw [hlen, hnone, List.length_nil]
    · exact .inr hnone
  · rw [hlen]
    show 20 + b.skb.opts.length + b.skb.payload.bytes.length ≤ 65495
    rcases hbare with hnone | hnone
    · rw [hnone, List.length_nil]
      omega
    · rw [hnone, List.length_nil]
      omega

/-- A packet on its device. -/
theorem delivers_packet {s : SkbMem} {id : U16} {seg : Seg} (hp : s.Packet a id seg) (hs : seg.Sound) (hm : b.Makes xs seg) (dmac : HwAddr) :
    Delivers a hwaddr b xs (seg, (s.netdevTransmit hwaddr dmac a.ethertype).bytes) where
  made := hm
  framed := ⟨dmac, id, hp.frame hwaddr dmac⟩
  arrives := by
    rw [hp.frame hwaddr dmac]
    exact hs.arrival a hwaddr dmac id

/-- **One transmission** keeps the skb in order. -/
theorem InOrder.transmit (h : t.InOrder a hwaddr b xs) (hat : t.s.AtText) (hb : b.Used) (hsmall : b.skb.payload.bytes.length ≤ 65475)
    (hx : x ∈ xs) (hfits : b.Fits x.sk) : (t.transmit a hwaddr x).InOrder a hwaddr b xs := by
  obtain ⟨opts, ho, hk⟩ := h.same
  obtain ⟨hseglen, hsound⟩ := sound_segOf hb hsmall hfits ho x.seq
  have hmade : b.Makes xs (segOf x.sk t.k x.seq) := ⟨x, hx, opts, ho, by rw [hk]⟩
  have hklen : t.k.opts.length = b.skb.opts.length := by rw [hk, ho]
  rw [← hk] at hseglen hsound
  obtain ⟨hbears, hcarries⟩ := h.bears.tcpTransmitSkb hat (by rw [hklen]; exact hb.optlen.1) (by have := hb.optlen.2; omega)
    (hfits.room hb hklen) x.seq
  obtain ⟨hbears', id, hpacket⟩ := hcarries.output hsound hbears
  have hsame : ∃ opts : List U8, opts.length = b.skb.opts.length ∧
      { t.k with opts := (segOf x.sk t.k x.seq).opts } = { b.skb with opts := opts } := ⟨_, hseglen, by rw [hk]⟩
  unfold WireSkb.transmit
  cases x.lookup with
  | noRoute => exact ⟨hbears, hsame, h.copies, h.frames⟩
  | hit =>
    refine ⟨hpacket.bears hbears' hwaddr x.dmac, hsame, h.copies, fun f hf => ?_⟩
    rcases List.mem_append.mp hf with hf | hf
    · exact h.frames f hf
    · rw [List.mem_singleton.mp hf]
      exact delivers_packet hpacket hsound hmade x.dmac
  | miss dropped =>
    dsimp only
    split
    next => exact ⟨hbears', hsame, h.copies, h.frames⟩
    next hfamily =>
      refine ⟨hbears', hsame, fun c hc => ?_, h.frames⟩
      split at hc
      · exact h.copies c hc
      · rcases List.mem_append.mp hc with hc | hc
        · exact h.copies c hc
        · rw [List.mem_singleton.mp hc]
          exact ⟨⟨id, hpacket.skbCopy (hpacket.placed hbears' rfl) x.around⟩, hsound, hmade⟩

/-- **One event** keeps the skb in order. -/
theorem InOrder.step (h : t.InOrder a hwaddr b xs) (hb : b.Used) (hsmall : b.skb.payload.bytes.length ≤ 65475) (e : Event)
    (hx : ∀ x, e = .again x → x ∈ xs ∧ b.Fits x.sk) : (t.step a hwaddr e).InOrder a hwaddr b xs := by
  cases e with
  | again x =>
    obtain ⟨hmem, hfits⟩ := hx x rfl
    unfold WireSkb.step
    dsimp only
    split
    · exact h
    · have hreset : ({ t with s := t.s.skbResetHeader } : WireSkb).InOrder a hwaddr b xs := ⟨h.bears.reset, h.same, h.copies, h.frames⟩
      exact hreset.transmit (SkbMem.atText_reset t.s) hb hsmall hmem hfits
  | flush dmac =>
    refine ⟨h.bears, h.same, fun c hc => absurd hc List.not_mem_nil, fun f hf => ?_⟩
    rcases List.mem_append.mp hf with hf | hf
    · exact h.frames f hf
    · obtain ⟨c, hc, rfl⟩ := List.mem_map.mp hf
      obtain ⟨⟨id, hpacket⟩, hsound, hmade⟩ := h.copies c hc
      exact delivers_packet hpacket hsound hmade dmac

def Event.transmission? : Event → Option Transmission
  | again x => some x
  | flush _ => none

/-- The transmissions of an skb. -/
def transmissions (first : Transmission) (es : List Event) : List Transmission := first :: es.filterMap Event.transmission?

/-- **Every frame delivers**: whichever function built the skb, at each transmission
and from each copy that waited for the neighbour, the frame is taken by the IP
layer of the other end, and its socket is given the segment that was meant. -/
theorem frames_deliver (a : AddrPair) (hwaddr : HwAddr) (around : Mem U8) (b : Builder) (first : Transmission) (es : List Event) (hb : b.Used)
    (hsmall : b.skb.payload.bytes.length ≤ 65475) (hfits : ∀ x ∈ transmissions first es, b.Fits x.sk) :
    ∀ f ∈ (sent a hwaddr around b first es).frames, Delivers a hwaddr b (transmissions first es) f := by
  obtain ⟨hbears, hat⟩ := hb.bears around a.family
  have hbuilt : ({ s := b.mem around a.family, k := b.skb } : WireSkb).InOrder a hwaddr b (transmissions first es) :=
    ⟨hbears, ⟨b.skb.opts, rfl, rfl⟩, fun c hc => absurd hc List.not_mem_nil, fun f hf => absurd hf List.not_mem_nil⟩
  have hfirst := hbuilt.transmit hat hb hsmall (List.mem_cons_self ..) (hfits first (List.mem_cons_self ..))
  have hstep : ∀ (t : WireSkb) (e : Event), (∀ x, e = .again x → x ∈ transmissions first es ∧ b.Fits x.sk) →
      t.InOrder a hwaddr b (transmissions first es) → (t.step a hwaddr e).InOrder a hwaddr b (transmissions first es) :=
    fun t e he h => h.step hb hsmall e he
  have hevents : ∀ e ∈ es, ∀ x, e = .again x → x ∈ transmissions first es ∧ b.Fits x.sk := fun e he x hx => by
    have hmem : x ∈ transmissions first es := List.mem_cons_of_mem _ (List.mem_filterMap.mpr ⟨e, he, by rw [hx]; rfl⟩)
    exact ⟨hmem, hfits x hmem⟩
  exact (Machine.invariant_of_forall hstep hevents hfirst).frames

/-- Three bytes for a neighbour that is not known yet. -/
def deferredSend : Transmission :=
  { sk := { sport := 4000, dport := 80 }, seq := 101, lookup := .miss false, dmac := Vector.replicate 6 0, around := fun _ => 7 }

/-- They are sent twice before the neighbour answers, and once after. -/
def deferredRun : List Event := [.again deferredSend, .flush (Vector.replicate 6 2), .again { deferredSend with lookup := .hit }]

def deferredSkb : WireSkb :=
  sent (.v6 (Vector.replicate 16 8) (Vector.replicate 16 9)) (Vector.replicate 6 1) (fun _ => 5) (.send 536 [1, 2, 3]) deferredSend deferredRun

theorem frames_deliver_deferred : deferredSkb.frames.length = 3 ∧ ∀ f ∈ deferredSkb.frames,
    arrival f.2 = some (.v6 (Vector.replicate 16 8) (Vector.replicate 16 9), .segment f.1.tcphdr f.1.payload f.1.psh) :=
  ⟨by decide +kernel, fun f hf =>
    (frames_deliver _ (Vector.replicate 6 1) (fun _ => 5) (.send 536 [1, 2, 3]) deferredSend deferredRun trivial (by decide)
      (fun _ _ => trivial) f hf).arrives⟩

end WireSkb

end LevelIp
