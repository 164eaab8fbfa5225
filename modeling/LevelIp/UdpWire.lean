/-
A UDP datagram on its way: what `udp_out_send` and `ip_output` write, byte by byte,
and what `ip_rcv` and `udp_in` of another host make of it. `ip_output` leaves the
checksum that `udp_checksum_right` computes again, 0 for what is too long for it. So
whatever a call of `recvfrom` returns was sent to its socket.
-/
import LevelIp.SegmentBytes
import LevelIp.UdpReceive

namespace LevelIp

open Access Memory

def UDP_HDR_LEN : Nat := 8

namespace SkbMem

/-- `udp_alloc_skb`. -/
def udpAllocSkb (around : Mem U8) (size : U32) : SkbMem :=
  let reserved : U32 := BitVec.ofNat 32 (ETH_HDR_LEN + IP_HDR_LEN + UDP_HDR_LEN) + size
  { (allocSkb around reserved).skbReserve reserved with protocol := IP_UDP.setWidth 16, dlen := size }

/-- `udp_transmit_skb`, up to `ip_output`. -/
def udpTransmitSkb (sport dport : U16) (s : SkbMem) : SkbMem :=
  let th : Int := (ETH_HDR_LEN + IP_HDR_LEN : Nat)
  let s := s.skbPush (BitVec.ofNat 32 UDP_HDR_LEN)
  let length : U16 := (s.dlen + BitVec.ofNat 32 UDP_HDR_LEN).setWidth 16
  s.store th (be16Bytes sport ++ be16Bytes dport ++ be16Bytes length)

/-- `udp_out_send`: what `ip_output` is given. -/
def udpOutSend (around : Mem U8) (sport dport : U16) (buf : List U8) : SkbMem :=
  let len : U32 := BitVec.ofNat 32 buf.length
  let s := (udpAllocSkb around len).skbPush len
  (s.store s.data buf).udpTransmitSkb sport dport

end SkbMem

/-! ## The datagram in memory -/

/-- A datagram with its header. -/
def udpDatagram (sport dport csum : U16) (buf : List U8) : List U8 :=
  be16Bytes sport ++ (be16Bytes dport ++ (be16Bytes (BitVec.ofNat 16 (buf.length + 8)) ++ (le16Bytes csum ++ buf)))

section datagram

variable {mem : Mem U8} {a o : Int} {sport dport csum : U16} {buf : List U8} {ip : Iphdr}

theorem length_udpDatagram (sport dport csum : U16) (buf : List U8) : (udpDatagram sport dport csum buf).length = buf.length + 8 := rfl

theorem holds_udpDatagram : Holds mem o (udpDatagram sport dport csum buf) ↔
    Holds mem o (be16Bytes sport) ∧ Holds mem (o + 2) (be16Bytes dport) ∧
      Holds mem (o + 4) (be16Bytes (BitVec.ofNat 16 (buf.length + 8))) ∧ Holds mem (o + 6) (le16Bytes csum) ∧ Holds mem (o + 8) buf := by
  have hbe : ∀ x, (be16Bytes x).length = 2 := fun _ => rfl
  have hle : ∀ x, (le16Bytes x).length = 2 := fun _ => rfl
  simp [udpDatagram, holds_append, hbe, hle, Int.add_assoc]

theorem val_ntohsAt_of_holds {x : U16} (h : Holds mem a (be16Bytes x)) : (ntohsAt a).val mem = x := by
  have hread : read mem a 2 = [mem a, mem (a + 1)] := by simp [Memory.read, List.range_succ]
  have hbytes : [mem a, mem (a + 1)] = be16Bytes x := hread.symm.trans h
  calc (ntohsAt a).val mem = be16 [mem a, mem (a + 1)] 0 := rfl
    _ = be16 (be16Bytes x ++ []) 0 := by rw [hbytes, List.append_nil]
    _ = x := be16_be16Bytes x []

theorem val_uint16At_of_holds {x : U16} (h : Holds mem a (le16Bytes x)) : (uint16At a).val mem = x := by
  have hread : read mem a 2 = [mem a, mem (a + 1)] := by simp [Memory.read, List.range_succ]
  have hbytes : [mem a, mem (a + 1)] = le16Bytes x := hread.symm.trans h
  calc (uint16At a).val mem = be16 [mem a, mem (a + 1)].reverse 0 := rfl
    _ = be16 (be16Bytes x ++ []) 0 := by
      rw [hbytes, List.append_nil]
      rfl
    _ = x := be16_be16Bytes x []

/-- What `calcuate_udp_checksum` computes of a datagram in memory. -/
def computedCsum (saddr daddr : U32) (sport dport : U16) (buf : List U8) : U16 :=
  if buf.length + 8 ≤ 1500 then udpChecksum saddr daddr (udpDatagram sport dport 0 buf) else 0

/-- The field does not matter to it. -/
theorem calcuateUdpChecksum_of_holds (h : Holds mem o (udpDatagram sport dport csum buf)) (hbuf : buf.length + 8 < 65536) (saddr daddr : U32) :
    (calcuateUdpChecksum saddr daddr o).val mem = computedCsum saddr daddr sport dport buf := by
  have hlen : UdpDatagram.length mem o = buf.length + 8 := by
    rw [UdpDatagram.length, val_ntohsAt_of_holds (holds_udpDatagram.mp h).2.2.1, BitVec.toNat_ofNat, Nat.mod_eq_of_lt hbuf]
  have hbytes : UdpDatagram.bytes mem o = udpDatagram sport dport csum buf := by
    rw [UdpDatagram.bytes, hlen]
    exact h
  have hclear : clearUdpCsum (udpDatagram sport dport csum buf) = clearUdpCsum (udpDatagram sport dport 0 buf) := rfl
  rw [UdpDatagram.val_calcuateUdpChecksum, hlen, hbytes, computedCsum, udpChecksum, hclear]
  rfl

/-- **What is sent is what is checked**: `udp_in` takes the datagram. -/
theorem val_udpIn_of_holds (socks : SockList)
    (h : Holds mem IPH_DATA (udpDatagram sport dport (computedCsum ip.saddr ip.daddr sport dport buf) buf)) (hbuf : buf.length + 8 < 65536) :
    (udpIn socks ip).val mem = (socks.socketLookupUdp .inet dport).map fun sock =>
      { sock := sock, dlen := BitVec.ofNat 32 buf.length, payload := 28 } := by
  obtain ⟨-, hdport, hlen, hcsum, -⟩ := holds_udpDatagram.mp h
  have hright : (udpChecksumRight ip IPH_DATA).val mem = true := by
    simp only [udpChecksumRight, Prog.val_bind, Prog.val_pure, decide_eq_true_eq]
    rw [calcuateUdpChecksum_of_holds h hbuf, val_uint16At_of_holds hcsum]
  have hdlen : (U16.wide (BitVec.ofNat 16 (buf.length + 8)) - 8 : U32) = BitVec.ofNat 32 buf.length := by
    have hwide : U16.wide (BitVec.ofNat 16 (buf.length + 8)) = BitVec.ofNat 32 (buf.length + 8) := by
      refine BitVec.eq_of_toNat_eq ?_
      rw [U16.wide, BitVec.toNat_setWidth, BitVec.toNat_ofNat, BitVec.toNat_ofNat]
      omega
    rw [hwide, BitVec.ofNat_add]
    exact BitVec.add_sub_cancel _ _
  rw [UdpDatagram.val_udpIn (UdpDatagram.val_udpChecksumRight.mp hright), UdpDatagram.dport, val_ntohsAt_of_holds hdport,
    val_ntohsAt_of_holds hlen, hdlen]
  rfl

end datagram

/-! ## Sending -/

namespace SkbMem

variable {s : SkbMem} {sport dport : U16} {buf : List U8}

/-- An skb with a datagram, as `ip_output` gets it. -/
structure CarriesUdp (sport dport : U16) (buf : List U8) (s : SkbMem) : Prop where
  data : s.data = 34
  len : s.len.toNat = buf.length + 8
  protocol : s.protocol.setWidth 8 = IP_UDP
  bytes : Holds s.mem 34 (udpDatagram sport dport 0 buf)

theorem carriesUdp_udpOutSend (around : Mem U8) (sport dport : U16) (hbuf : buf.length ≤ 65507) :
    (udpOutSend around sport dport buf).CarriesUdp sport dport buf := by
  have hlen : (BitVec.ofNat 32 buf.length).toNat = buf.length := by
    rw [BitVec.toNat_ofNat]
    omega
  have hreserved : (BitVec.ofNat 32 (ETH_HDR_LEN + IP_HDR_LEN + UDP_HDR_LEN) + BitVec.ofNat 32 buf.length : U32).toNat = 42 + buf.length := by
    rw [← BitVec.ofNat_add, BitVec.toNat_ofNat]
    simp only [ETH_HDR_LEN, IP_HDR_LEN, UDP_HDR_LEN]
    omega
  have hlen16 : ((BitVec.ofNat 32 buf.length + BitVec.ofNat 32 UDP_HDR_LEN : U32).setWidth 16 : U16) = BitVec.ofNat 16 (buf.length + 8) := by
    rw [← BitVec.ofNat_add, BitVec.setWidth_ofNat_of_le (by decide)]
    rfl
  have height : (BitVec.ofNat 32 UDP_HDR_LEN).toNat = 8 := rfl
  have hth : ((ETH_HDR_LEN + IP_HDR_LEN : Nat) : Int) = 34 := rfl
  unfold udpOutSend udpTransmitSkb udpAllocSkb
  dsimp only [allocSkb, skbReserve, skbPush, store]
  rw [hreserved, hlen16, hlen, height, hth]
  have hdata : (0 : Int) + ((42 + buf.length : Nat) : Int) - (buf.length : Int) = 42 := by omega
  rw [hdata]
  generalize hblank : (fun i : Int => if 0 ≤ i ∧ i < ((42 + buf.length : Nat) : Int) then (0 : U8) else around i) = blank
  have hzero : Holds blank 40 (le16Bytes 0) := by
    refine holds_iff.mpr fun i hi => ?_
    have hi2 : i < 2 := hi
    rw [← hblank]
    dsimp only
    rw [if_pos (by omega)]
    interval_cases i <;> rfl
  generalize hm : write (write blank 42 buf) 34 (be16Bytes sport ++ be16Bytes dport ++ be16Bytes (BitVec.ofNat 16 (buf.length + 8))) = m
  have hsix : (be16Bytes sport ++ be16Bytes dport ++ be16Bytes (BitVec.ofNat 16 (buf.length + 8))).length = 6 := rfl
  have hhdr : Holds m 34 (be16Bytes sport ++ be16Bytes dport ++ be16Bytes (BitVec.ofNat 16 (buf.length + 8))) := by
    rw [← hm]
    exact holds_write _ _ _
  have hcsum : Holds m 40 (le16Bytes 0) := by
    rw [← hm]
    exact (hzero.write (.inl (by decide))).write (.inr (by rw [hsix]; decide))
  have htext : Holds m 42 buf := by
    rw [← hm]
    exact (holds_write blank 42 buf).write (.inr (by rw [hsix]; decide))
  obtain ⟨hports, hlength⟩ := holds_append.mp hhdr
  obtain ⟨hsport, hdport⟩ := holds_append.mp hports
  refine ⟨rfl, ?_, ?_, holds_udpDatagram.mpr ⟨hsport, hdport, hlength, hcsum, htext⟩⟩
  · show ((0 : U32) + BitVec.ofNat 32 buf.length + BitVec.ofNat 32 UDP_HDR_LEN).toNat = _
    rw [zero_add, ← BitVec.ofNat_add, BitVec.toNat_ofNat, UDP_HDR_LEN]
    omega
  · show (BitVec.setWidth 16 IP_UDP).setWidth 8 = IP_UDP
    decide

/-- The IPv4 header of a datagram of `len` bytes, its checksum filled in. -/
def ipv4UdpHeader (len : Nat) (id : U16) (saddr daddr : U32) : List U8 :=
  let hdr := EchoReply4.ipv4Header (BitVec.ofNat 16 (20 + len)) id IP_UDP saddr daddr
  hdr (checksum (hdr 0) 0 20 0)

/-- `ip_output` writes its header and the checksum of the datagram. -/
theorem CarriesUdp.ipOutput (h : s.CarriesUdp sport dport buf) (hbuf : buf.length ≤ 65507) (saddr daddr : U32) :
    ∃ id, (s.ipOutput saddr daddr).len.toNat = buf.length + 28 ∧ (s.ipOutput saddr daddr).bytes =
      ipv4UdpHeader (buf.length + 8) id saddr daddr ++ udpDatagram sport dport (computedCsum saddr daddr sport dport buf) buf := by
  have hdata : s.data - (BitVec.ofNat 32 IP_HDR_LEN).toNat = 14 := by
    rw [h.data]
    rfl
  have hlen : (s.len + BitVec.ofNat 32 IP_HDR_LEN).toNat = buf.length + 28 := by
    have htwenty : (BitVec.ofNat 32 IP_HDR_LEN).toNat = 20 := rfl
    rw [BitVec.toNat_add, h.len, htwenty]
    omega
  have hlen16 : (s.len + BitVec.ofNat 32 IP_HDR_LEN).setWidth 16 = BitVec.ofNat 16 (20 + (buf.length + 8)) := by
    have hsum : 20 + (buf.length + 8) = buf.length + 28 := by omega
    rw [hsum, ← hlen, ← BitVec.setWidth_ofNat_of_le (by decide : 16 ≤ 32), BitVec.ofNat_toNat, BitVec.setWidth_eq]
  unfold SkbMem.ipOutput
  dsimp only [skbPush, store]
  rw [hlen16, h.protocol, if_pos rfl, hdata]
  generalize (s.mem ((ETH_HDR_LEN : Int) + 5) ++ s.mem ((ETH_HDR_LEN : Int) + 4) : U16) = id
  generalize hhdr : EchoReply4.ipv4Header (BitVec.ofNat 16 (20 + (buf.length + 8))) id IP_UDP saddr daddr = hdr
  have hhdrlen : ∀ c, (hdr c).length = 20 := fun _ => by rw [← hhdr]; rfl
  have hudp : Holds (write s.mem 14 (hdr 0)) 34 (udpDatagram sport dport 0 buf) := h.bytes.write (.inr (by rw [hhdrlen]; decide))
  have hcalc : (calcuateUdpChecksum saddr daddr 34).val (write s.mem 14 (hdr 0)) = computedCsum saddr daddr sport dport buf :=
    calcuateUdpChecksum_of_holds hudp (by omega) saddr daddr
  have heth : ((ETH_HDR_LEN : Nat) : Int) = 14 := rfl
  have hth : (14 : Int) + (IP_HDR_LEN : Nat) = 34 := rfl
  rw [heth, hth, hcalc]
  generalize hcsum : computedCsum saddr daddr sport dport buf = csum
  have hfieldlen : ∀ x : U16, (be16Bytes x).length = 2 := fun _ => rfl
  have hcsumlen : ∀ x : U16, (le16Bytes x).length = 2 := fun _ => rfl
  have hbody : Holds (write (write s.mem 14 (hdr 0)) 40 (le16Bytes csum)) 34 (udpDatagram sport dport csum buf) := by
    obtain ⟨h1, h2, h3, -, h5⟩ := holds_udpDatagram.mp hudp
    refine holds_udpDatagram.mpr ⟨h1.write (.inl ?_), h2.write (.inl ?_), h3.write (.inl ?_), holds_write _ _ _, h5.write (.inr ?_)⟩
    all_goals first | rw [hfieldlen] | rw [hcsumlen]
    all_goals decide
  have hhead : Holds (write (write s.mem 14 (hdr 0)) 40 (le16Bytes csum)) 14 (hdr 0) :=
    (holds_write _ _ _).write (.inl (by rw [hhdrlen]; decide))
  have hread : Memory.read (write (write s.mem 14 (hdr 0)) 40 (le16Bytes csum)) 14 20 = hdr 0 := by
    rw [← hhdrlen 0]
    exact hhead
  have hforty : (34 : Int) + 6 = 40 := rfl
  have htwentyfour : (14 : Int) + 10 = 24 := rfl
  rw [hforty, htwentyfour, hread]
  have hfilled : Holds (write (write (write s.mem 14 (hdr 0)) 40 (le16Bytes csum)) 24 (le16Bytes (checksum (hdr 0) 0 20 0))) 14
      (ipv4UdpHeader (buf.length + 8) id saddr daddr) := by
    rw [ipv4UdpHeader, hhdr]
    rw [← hhdr] at hhead ⊢
    exact holds_ipv4Header hhead _
  have hwhole := hfilled.append (hbody.write (.inr (by rw [hcsumlen]; decide))) rfl
  refine ⟨id, hlen, ?_⟩
  show Memory.read _ 14 (s.len + BitVec.ofNat 32 IP_HDR_LEN).toNat = _
  rw [hlen]
  rw [Holds, List.length_append, length_udpDatagram] at hwhole
  have htotal : (ipv4UdpHeader (buf.length + 8) id saddr daddr).length + (buf.length + 8) = buf.length + 28 := by
    have htwenty : (ipv4UdpHeader (buf.length + 8) id saddr daddr).length = 20 := rfl
    omega
  rwa [htotal] at hwhole

end SkbMem

/-! ## Receiving -/

section receive

variable {e rest : List U8}

/-- **An IPv4 packet** with a datagram reaches `udp_in`. -/
theorem ipRcv_ipv4Udp (h : e.length = 14) (len : Nat) (id : U16) (saddr daddr : U32) :
    ipRcv (e ++ (SkbMem.ipv4UdpHeader len id saddr daddr ++ rest)) = .udpIn := by
  have hdr : ipHdr (e ++ (SkbMem.ipv4UdpHeader len id saddr daddr ++ rest)) = _ := ipHdr_behind h (BitVec.ofNat 16 (20 + len)) id IP_UDP saddr daddr
    (checksum (EchoReply4.ipv4Header (BitVec.ofNat 16 (20 + len)) id IP_UDP saddr daddr 0) 0 20 0)
  have hsum : checksum (e ++ (SkbMem.ipv4UdpHeader len id saddr daddr ++ rest)) ETH_HDR_LEN 20 0 = 0 := checksum_behind h _ _ _ _ _
  unfold ipRcv
  rw [hdr]
  have hihl : (5 : BitVec 4).toNat * 4 = 20 := rfl
  dsimp only
  rw [hihl, hsum]
  rfl

/-- The memory of an skb that holds a frame, counted from the IPv4 header. -/
def behindEth (m : List U8) : Mem U8 := fun a => frameMem m (ETH_HDR_LEN + a)

theorem holds_behindEth {xs ys : List U8} (h : e.length = 14) (hx : xs.length = 20) : Holds (behindEth (e ++ (xs ++ ys))) IPH_DATA ys := by
  refine holds_iff.mpr fun i hi => ?_
  have hidx : (((ETH_HDR_LEN : Nat) : Int) + (IPH_DATA + (i : Nat))).toNat = (14 + (20 + i) : Nat) := by
    simp only [ETH_HDR_LEN, IPH_DATA]
    omega
  show (e ++ (xs ++ ys)).getD (((ETH_HDR_LEN : Nat) : Int) + (IPH_DATA + (i : Nat))).toNat 0 = ys[i]
  rw [hidx, getD_behind h, ← hx, List.getD_append_right _ _ _ _ (by omega), Nat.add_sub_cancel_left, List.getD_eq_getElem _ _ hi]

end receive

/-- **A datagram arrives**: whatever is sent, the frame reaches `udp_in`, which
queues it to the socket of the port with its length and its text, and the header
still names where it came from. -/
theorem datagram_delivers (around : Mem U8) (hwaddr dmac : HwAddr) (saddr daddr : U32) (sport dport : U16) {buf : List U8}
    (hbuf : buf.length ≤ 65507) (socks : SockList) :
    let m := (((SkbMem.udpOutSend around sport dport buf).ipOutput saddr daddr).netdevTransmit hwaddr dmac ETH_P_IP).bytes
    be16 m 12 = ETH_P_IP ∧ ipRcv m = .udpIn ∧ (ipHdr m).saddr = saddr ∧ (ipHdr m).daddr = daddr ∧
      (ntohsAt IPH_DATA).val (behindEth m) = sport ∧
      (udpIn socks (ipHdr m)).val (behindEth m) = (socks.socketLookupUdp .inet dport).map (fun sock =>
        { sock := sock, dlen := BitVec.ofNat 32 buf.length, payload := 28 }) ∧
      Memory.read (behindEth m) 28 buf.length = buf := by
  intro m
  have hsent := SkbMem.carriesUdp_udpOutSend around sport dport hbuf
  obtain ⟨id, hlen, hbytes⟩ := hsent.ipOutput hbuf saddr daddr
  have hm : m = ethHdr dmac hwaddr ETH_P_IP ++ (SkbMem.ipv4UdpHeader (buf.length + 8) id saddr daddr ++
      udpDatagram sport dport (computedCsum saddr daddr sport dport buf) buf) := by
    show (SkbMem.netdevTransmit _ _ _ _).bytes = _
    rw [SkbMem.bytes_netdevTransmit _ _ _ _ (by omega), hbytes]
  have heth := length_ethHdr dmac hwaddr ETH_P_IP
  have hdr : ipHdr m = _ := hm ▸ ipHdr_behind heth (BitVec.ofNat 16 (20 + (buf.length + 8))) id IP_UDP saddr daddr _
  have hheld : Holds (behindEth m) IPH_DATA (udpDatagram sport dport (computedCsum saddr daddr sport dport buf) buf) := by
    rw [hm]
    exact holds_behindEth heth rfl
  obtain ⟨hsport, -, -, -, htext⟩ := holds_udpDatagram.mp hheld
  refine ⟨?_, ?_, by rw [hdr], by rw [hdr], val_ntohsAt_of_holds hsport, ?_, htext⟩
  · rw [hm]
    exact be16_ethHdr _ _ _ _
  · rw [hm]
    exact ipRcv_ipv4Udp heth _ _ _ _
  · have hsummed : Holds (behindEth m) IPH_DATA
        (udpDatagram sport dport (computedCsum (ipHdr m).saddr (ipHdr m).daddr sport dport buf) buf) := by
      rw [hdr]
      exact hheld
    exact val_udpIn_of_holds socks hsummed (by omega)

/-! ## Hosts that send to each other -/

/-- `netdev_receive`, `ip_rcv` and `udp_in` of a frame that the device gives whole: the
socket, and what is queued to it. -/
def udpArrival (socks : SockList) (m : List U8) : Option (Nat × Datagram) :=
  if be16 m 12 = ETH_P_IP ∧ ipRcv m = .udpIn then
    ((udpIn socks (ipHdr m)).val (behindEth m)).bind fun q =>
      let payload := Memory.read (behindEth m) q.payload q.dlen.toNat
      -- a length field below 8 is no length of a datagram, and of no frame of `sendto`
      if fits : payload.length + 8 < 2 ^ 16 then
        some (q.sock, { saddr := (ipHdr m).saddr, sport := (ntohsAt IPH_DATA).val (behindEth m), payload := payload, fits := fits })
      else none
  else none

/-- A call of `sendto` and what its skb meets: the device, the neighbour, and the
memory it is allocated in. `buf` is no longer than an IPv4 packet has room for. -/
structure UdpSendto where
  around : Mem U8
  hwaddr : HwAddr
  dmac : HwAddr
  saddr : U32
  daddr : U32
  sport : U16
  dport : U16
  buf : List U8
  fits : buf.length ≤ 65507

namespace UdpSendto

def frame (x : UdpSendto) : List U8 :=
  (((SkbMem.udpOutSend x.around x.sport x.dport x.buf).ipOutput x.saddr x.daddr).netdevTransmit x.hwaddr x.dmac ETH_P_IP).bytes

/-- What there is to be received. -/
def datagram (x : UdpSendto) : Datagram where
  saddr := x.saddr
  sport := x.sport
  payload := x.buf
  fits := by
    have hfits := x.fits
    omega

theorem udpArrival_frame (socks : SockList) (x : UdpSendto) :
    udpArrival socks x.frame = (socks.socketLookupUdp .inet x.dport).map fun sock => (sock, x.datagram) := by
  obtain ⟨heth, hrcv, hsaddr, -, hsport, hin, htext⟩ :=
    datagram_delivers x.around x.hwaddr x.dmac x.saddr x.daddr x.sport x.dport x.fits socks
  have hdlen : (BitVec.ofNat 32 x.buf.length).toNat = x.buf.length := by
    have hfits := x.fits
    rw [BitVec.toNat_ofNat]
    omega
  have hpayload : Memory.read (behindEth x.frame) 28 (BitVec.ofNat 32 x.buf.length).toNat = x.buf := by
    rw [hdlen]
    exact htext
  change be16 x.frame 12 = ETH_P_IP at heth
  change ipRcv x.frame = .udpIn at hrcv
  change (ipHdr x.frame).saddr = x.saddr at hsaddr
  change (ntohsAt IPH_DATA).val (behindEth x.frame) = x.sport at hsport
  change (udpIn socks (ipHdr x.frame)).val (behindEth x.frame) = _ at hin
  rw [udpArrival, if_pos ⟨heth, hrcv⟩, hin]
  cases socks.socketLookupUdp .inet x.dport with
  | none => rfl
  | some sock =>
    simp only [Option.map_some, Option.bind_some, hpayload, hsaddr, hsport]
    have hfits : x.buf.length + 8 < 2 ^ 16 := x.datagram.fits
    rw [dif_pos hfits]
    rfl

end UdpSendto

/-- Everything that was ever sent, and the sockets of one host. -/
structure UdpNet where
  wire : List UdpSendto := []
  sock : Nat → UdpSock := fun _ => {}

/-- The network may give the host any frame at any time, again, or never. -/
inductive UdpNetEvent
  | sendto (x : UdpSendto)
  | deliver (n : Nat)
  | recvfrom (i : Nat) (len : U64)
  | wakeup (i k : Nat)

namespace UdpNet

/-- An event at one socket. -/
def atSock (s : UdpNet) (i : Nat) (e : UdpEvent) : UdpNet := { s with sock := Function.update s.sock i ((s.sock i).step e) }

def step (socks : SockList) (s : UdpNet) : UdpNetEvent → UdpNet
  | .sendto x => { s with wire := s.wire ++ [x] }
  | .deliver n =>
    match (s.wire[n]?).bind fun x => udpArrival socks x.frame with
    | some (i, d) => s.atSock i (.udpDataQueue d)
    | none => s
  | .recvfrom i len => s.atSock i (.recvfrom len)
  | .wakeup i k => s.atSock i (.wakeup k)

/-- A call that takes a datagram takes one that suits it. -/
def Suited (s : UdpNet) : UdpNetEvent → Prop
  | .recvfrom i len => (s.sock i).Suited (.recvfrom len)
  | .wakeup i k => (s.sock i).Suited (.wakeup k)
  | _ => True

/-- What an event hands to a socket: the datagram of a frame for its port. -/
def handed (socks : SockList) (i : Nat) (s : UdpNet) : UdpNetEvent → List Datagram
  | .deliver n =>
    match s.wire[n]? with
    | some x => if socks.socketLookupUdp .inet x.dport = some i then [x.datagram] else []
    | none => []
  | _ => []

variable {socks : SockList} {s : UdpNet} {i : Nat}

theorem sock_atSock_self (s : UdpNet) (i : Nat) (e : UdpEvent) : (s.atSock i e).sock i = (s.sock i).step e := Function.update_self _ _ _

theorem sock_atSock_of_ne {k : Nat} (hk : k ≠ i) (e : UdpEvent) : (s.atSock i e).sock k = s.sock k := Function.update_of_ne hk _ _

theorem step_deliver (socks : SockList) (s : UdpNet) (n : Nat) : s.step socks (.deliver n) =
    match (s.wire[n]?).bind fun x => (socks.socketLookupUdp .inet x.dport).map fun sock => (sock, x.datagram) with
    | some (i, d) => s.atSock i (.udpDataQueue d)
    | none => s := by
  simp only [step, UdpSendto.udpArrival_frame]

/-! ### What is queued -/

theorem arrived_udpReceive (s : UdpSock) (len : U64) : (s.udpReceive len).arrived = s.arrived := by
  unfold UdpSock.udpReceive
  split
  · rfl
  · dsimp only
    split <;> rfl

theorem arrived_recvfrom (s : UdpSock) (len : U64) : (s.step (.recvfrom len)).arrived = s.arrived := arrived_udpReceive _ _

theorem arrived_wakeup (s : UdpSock) (k : Nat) : (s.step (.wakeup k)).arrived = s.arrived := by
  rw [UdpSock.step]
  split
  · rfl
  · exact arrived_udpReceive _ _

/-- A call takes nothing out of the log. -/
theorem arrived_atSock {k : Nat} {e : UdpEvent} (he : ((s.sock k).step e).arrived = (s.sock k).arrived) :
    ((s.atSock k e).sock i).arrived = (s.sock i).arrived := by
  by_cases hk : i = k
  · subst hk
    rw [sock_atSock_self, he]
  · rw [sock_atSock_of_ne hk]

/-- **Every step** queues what it hands over. -/
theorem arrived_step (e : UdpNetEvent) : ((s.step socks e).sock i).arrived = (s.sock i).arrived ++ handed socks i s e := by
  cases e with
  | sendto x => exact (List.append_nil _).symm
  | recvfrom k len => exact (arrived_atSock (arrived_recvfrom _ _)).trans (List.append_nil _).symm
  | wakeup k j => exact (arrived_atSock (arrived_wakeup _ _)).trans (List.append_nil _).symm
  | deliver n =>
    rw [step_deliver, handed]
    cases s.wire[n]? with
    | none => exact (List.append_nil _).symm
    | some x =>
      dsimp only [Option.bind_some]
      cases hsock : socks.socketLookupUdp .inet x.dport with
      | none => exact (List.append_nil _).symm
      | some k =>
        dsimp only [Option.map_some]
        by_cases hk : k = i
        · subst hk
          rw [if_pos rfl, sock_atSock_self]
          rfl
        · rw [if_neg fun he => hk (Option.some.inj he), sock_atSock_of_ne (Ne.symm hk), List.append_nil]

theorem arrived_run (s : UdpNet) (es : List UdpNetEvent) : ((Machine.run (step socks) s es).sock i).arrived =
    (s.sock i).arrived ++ Machine.trace (step socks) (handed socks i) s es := by
  induction es generalizing s with
  | nil => exact (List.append_nil _).symm
  | cons e es ih => rw [Machine.run_cons, ih, arrived_step, Machine.trace, List.append_assoc]

/-! ### What is returned -/

theorem inOrder_atSock {k : Nat} {e : UdpEvent} (h : ∀ i, (s.sock i).InOrder) (he : (s.sock k).Suited e) (i : Nat) :
    ((s.atSock k e).sock i).InOrder := by
  by_cases hk : i = k
  · subst hk
    rw [sock_atSock_self]
    exact (UdpSock.step_inOrder _ _ (h i)).mp he
  · rw [sock_atSock_of_ne hk]
    exact h i

theorem inOrder_step {e : UdpNetEvent} (he : s.Suited e) (h : ∀ i, (s.sock i).InOrder) : ∀ i, ((s.step socks e).sock i).InOrder := by
  cases e with
  | sendto x => exact h
  | recvfrom k len => exact inOrder_atSock h he
  | wakeup k j => exact inOrder_atSock h he
  | deliver n =>
    rw [step_deliver]
    split
    · exact inOrder_atSock h trivial
    · exact h

/-- **What is received is what was sent.** Over a network that loses, repeats and
reorders, as long as each datagram suits the call that takes it, the calls of
`recvfrom` on a socket return the datagrams sent to its port in the order their
frames were delivered, each with its source and its text; what they have not
returned yet is queued. -/
theorem received_was_sent (socks : SockList) {es : List UdpNetEvent} (hes : Machine.Meets (step socks) Suited {} es) (i : Nat) :
    ∃ taken, Machine.trace (step socks) (handed socks i) {} es = taken ++ ((Machine.run (step socks) {} es).sock i).queue ∧
      List.Forall₂ UdpSock.Returns taken ((Machine.run (step socks) {} es).sock i).done := by
  have hstart : ∀ i, (({} : UdpNet).sock i).InOrder := fun _ => ⟨[], rfl, .nil⟩
  have hstep : ∀ (s : UdpNet) (e : UdpNetEvent), s.Suited e → (∀ i, (s.sock i).InOrder) → ∀ i, ((s.step socks e).sock i).InOrder :=
    fun _ _ he h => inOrder_step he h
  obtain ⟨taken, harr, hdone⟩ := hes.invariant hstep hstart i
  refine ⟨taken, ?_, hdone⟩
  rw [← harr, arrived_run]
  rfl

/-- A query, and the name server that receives it with just enough room. -/
def dnsSend : UdpSendto :=
  { around := fun _ => 7, hwaddr := Vector.replicate 6 1, dmac := Vector.replicate 6 2, saddr := 0x0a000001, daddr := 0x0a000002,
    sport := 4000, dport := 53, buf := [0x68, 0x69], fits := by decide }

def dnsRun : List UdpNetEvent := [.sendto dnsSend, .deliver 0, .recvfrom 0 2]

theorem sock_dnsRun : (step dnsSocks (step dnsSocks {} (.sendto dnsSend)) (.deliver 0)).sock 0 =
    UdpSock.step {} (.udpDataQueue dnsSend.datagram) := by
  have harr : udpArrival dnsSocks dnsSend.frame = some (0, dnsSend.datagram) := dnsSend.udpArrival_frame dnsSocks
  have hstep : step dnsSocks (step dnsSocks {} (.sendto dnsSend)) (.deliver 0) =
      (step dnsSocks {} (.sendto dnsSend)).atSock 0 (.udpDataQueue dnsSend.datagram) := by
    simp only [step, List.nil_append, List.getElem?_cons_zero, Option.bind_some, harr]
  rw [hstep, sock_atSock_self]
  rfl

theorem received_was_sent_dns : ((Machine.run (step dnsSocks) {} dnsRun).sock 0).done.length = 1 ∧
    ∃ taken, Machine.trace (step dnsSocks) (handed dnsSocks 0) {} dnsRun = taken ++ ((Machine.run (step dnsSocks) {} dnsRun).sock 0).queue ∧
      List.Forall₂ UdpSock.Returns taken ((Machine.run (step dnsSocks) {} dnsRun).sock 0).done := by
  have hsuits : (step dnsSocks (step dnsSocks {} (.sendto dnsSend)) (.deliver 0)).Suited (.recvfrom 0 2) := by
    intro d queue hd
    rw [sock_dnsRun] at hd
    obtain ⟨rfl, -⟩ := List.cons.inj hd
    exact ⟨by decide, by decide⟩
  have hes : Machine.Meets (step dnsSocks) Suited {} dnsRun := ⟨trivial, trivial, hsuits, trivial⟩
  refine ⟨?_, received_was_sent dnsSocks hes 0⟩
  show ((UdpNet.atSock _ 0 (.recvfrom 2)).sock 0).done.length = 1
  rw [sock_atSock_self, sock_dnsRun]
  rfl

end UdpNet

end LevelIp
