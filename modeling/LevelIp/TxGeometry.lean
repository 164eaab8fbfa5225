/-
Where an outgoing segment lies in its buffer. `tcp_alloc_skb` reserves room for
every header, each layer pushes its own, and `tcp_hdr_for_sk` finds the TCP
header by counting from `head`; the two meet for every builder, and again each
time the skb is sent once more.
-/
import LevelIp.Packets
import LevelIp.SackRun
import LevelIp.TcpCalls

namespace LevelIp

def IP_HDR_LEN : Nat := 20
def TCP_HDR_LEN : Nat := 20
def TCP_DOFFSET : BitVec 4 := 5

/-- `addr_family`. -/
inductive AddrFamily
  | inet
  | inet6
deriving DecidableEq

def AddrFamily.ipHlen : AddrFamily → Nat
  | inet => IP_HDR_LEN
  | inet6 => IPV6_HDR_LEN

/-- `tcp_hdr_for_sk`, counted from `head`. -/
def tcpHdrForSk (family : AddrFamily) : Int := ETH_HDR_LEN + family.ipHlen

/-! ## The buffer -/

/-- The pointers and lengths of a `struct sk_buff`, counted from `head`, with
the `hl` field of the TCP header in it. `tail` is `end`. -/
structure SkbRoom where
  tail : Int
  data : Int := 0
  len : U32 := 0
  dlen : U32 := 0
  hl : BitVec 4 := 0
deriving DecidableEq

namespace SkbRoom

/-- `alloc_skb`. -/
def allocSkb (size : U32) : SkbRoom := { tail := size.toNat }

/-- `skb_reserve`. -/
def skbReserve (r : SkbRoom) (len : U32) : SkbRoom := { r with data := r.data + len.toNat }

/-- `skb_push`. -/
def skbPush (r : SkbRoom) (len : U32) : SkbRoom := { r with data := r.data - len.toNat, len := r.len + len }

/-- `skb_reset_header`. -/
def skbResetHeader (r : SkbRoom) : SkbRoom := { r with data := r.tail - r.dlen.toNat, len := r.dlen }

/-- `skb_copy`: the offsets are those of the original. -/
def skbCopy (r : SkbRoom) : SkbRoom := { allocSkb (BitVec.ofInt 32 r.tail) with data := r.data, len := r.len, dlen := r.dlen, hl := r.hl }

/-- `tcp_alloc_skb`. -/
def tcpAllocSkb (family : AddrFamily) (optlen size : U32) : SkbRoom :=
  let reserved : U32 := BitVec.ofNat 32 (ETH_HDR_LEN + family.ipHlen + TCP_HDR_LEN) + optlen + size
  { (allocSkb reserved).skbReserve reserved with dlen := size }

end SkbRoom

/-! ## The builders -/

/-- The functions that build a segment, with what they read. -/
inductive Builder
  /-- `tcp_send`, for the chunk it takes from `buf`. -/
  | send (mss : U16) (buf : List U8)
  | ack (s : TcpSock)
  | syn (s : TcpSock)
  | synack
  | fin
  | reset

namespace Builder

/-- `tcp_syn_options`. -/
def synOptionsLen (s : TcpSock) : U32 := if s.sackok then 8 else 4

/-- The skb as it goes to `tcp_transmit_skb` or `tcp_queue_transmit_skb`. -/
def build (family : AddrFamily) : Builder → SkbRoom
  | send mss buf =>
    let dlen := (Payload.ofTake mss buf).len
    (SkbRoom.tcpAllocSkb family 0 dlen).skbPush dlen
  | ack s =>
    let optlen := (tcpOptionsLen s).setWidth 32
    { SkbRoom.tcpAllocSkb family optlen 0 with hl := TCP_DOFFSET + (optlen / 4).setWidth 4 }
  | syn s =>
    let optlen := synOptionsLen s
    { SkbRoom.tcpAllocSkb family optlen 0 with hl := TCP_DOFFSET + (optlen / 4).setWidth 4 }
  | synack => { SkbRoom.tcpAllocSkb family 4 0 with hl := 6 }
  | fin => SkbRoom.tcpAllocSkb family 0 0
  | reset => SkbRoom.tcpAllocSkb family 0 0

/-- The skb of `tcp_output.c` that is built. -/
def skb : Builder → Skb
  | send mss buf => dataSkb (Payload.ofTake mss buf) (buf.drop mss.toNat).isEmpty
  | ack s => { LevelIp.tcpAllocSkb (tcpOptionsLen s).toNat Payload.nil with ack := true }
  | syn s => { opts := tcpSynOptions s, syn := true }
  | synack => { LevelIp.tcpAllocSkb 4 Payload.nil with syn := true, ack := true }
  | fin => finSkb
  | reset => { LevelIp.tcpAllocSkb 0 Payload.nil with rst := true }

/-- What the code builds: `tcp_send_ack` runs on a socket with the SACK counters
that the code leaves. -/
def Used : Builder → Prop
  | ack s => s.SackCount
  | send _ _ | syn _ | synack | fin | reset => True

end Builder

/-! ## A transmission -/

/-- What is done with the buffer on the way out, each with the skb at that
moment. -/
inductive RoomUse
  /-- After an `skb_push`. -/
  | pushed (r : SkbRoom)
  /-- The TCP header is written at `addr`. -/
  | tcpHeader (addr : Int) (r : SkbRoom)
  | ipHeader (addr : Int) (r : SkbRoom)
  /-- `thdr->csum` is written in the header at `addr`. -/
  | checksum (addr : Int) (r : SkbRoom)
deriving DecidableEq

/-- What the IP layer finds: no route, or a neighbour that is in the cache or
is not; for IPv6 a miss queues a copy, unless there is no room for it. -/
inductive Lookup
  | noRoute
  | hit
  | miss (dropped : Bool)
deriving DecidableEq

/-- An skb with its history: the frames `tun_write` was given, as `data` and
`len`, and the copies that wait for the neighbour. -/
structure TxSkb where
  room : SkbRoom
  freed : Bool := false
  copies : List SkbRoom := []
  uses : List RoomUse := []
  frames : List SkbRoom := []

namespace TxSkb

variable (family : AddrFamily)

def note (t : TxSkb) (u : RoomUse) : TxSkb := { t with uses := t.uses ++ [u] }

/-- `skb_push` of the skb. -/
def push (t : TxSkb) (len : U32) : TxSkb := { t with room := t.room.skbPush len }.note (.pushed (t.room.skbPush len))

/-- `netdev_transmit`, for the skb or a copy of it. -/
def netdevTransmit (t : TxSkb) (r : SkbRoom) : TxSkb :=
  let r := r.skbPush (BitVec.ofNat 32 ETH_HDR_LEN)
  { t with uses := t.uses ++ [.pushed r], frames := t.frames ++ [r] }

/-- The end of `dst_neigh_output` and `dst6_neigh_output`. -/
def neighOutput (t : TxSkb) : Lookup → TxSkb
  | .hit => { t.netdevTransmit t.room with room := t.room.skbPush (BitVec.ofNat 32 ETH_HDR_LEN) }
  | .miss dropped =>
    match family with
    | .inet => t
    | .inet6 => if dropped then t else { t with copies := t.copies ++ [t.room.skbCopy] }
  | .noRoute => t

/-- `ip_output`: `ip_hdr` is taken before the push. -/
def ipOutput (t : TxSkb) (l : Lookup) : TxSkb :=
  let ihdr : Int := ETH_HDR_LEN
  if l = .noRoute then t
  else
    let t := t.push (BitVec.ofNat 32 IP_HDR_LEN)
    let t := t.note (.ipHeader ihdr t.room)
    let t := t.note (.checksum (t.room.data + IP_HDR_LEN) t.room)
    t.neighOutput .inet l

/-- `ipv6_output_ex`, which frees the skb when there is no route. -/
def ipv6OutputEx (t : TxSkb) (l : Lookup) : TxSkb :=
  if l = .noRoute then { t with freed := true }
  else
    let t := t.push (BitVec.ofNat 32 IPV6_HDR_LEN)
    let t := t.note (.ipHeader t.room.data t.room)
    let t := t.note (.checksum (ETH_HDR_LEN + IPV6_HDR_LEN) t.room)
    t.neighOutput .inet6 l

/-- `tcp_transmit_skb`. -/
def tcpTransmitSkb (t : TxSkb) (l : Lookup) : TxSkb :=
  let thdr := tcpHdrForSk family
  let t := if t.room.hl = 0 then { t with room.hl := TCP_DOFFSET } else t
  let t := t.push (BitVec.ofNat 32 (t.room.hl.toNat * 4))
  let t := t.note (.tcpHeader thdr t.room)
  match family with
  | .inet => t.ipOutput l
  | .inet6 => t.ipv6OutputEx l

/-- What happens to an skb on a queue: it is sent again, or the neighbour
answers and `ndp_flush_queue` sends its copies. Once freed it is out of use. -/
inductive Event
  | again (l : Lookup)
  | flush

def step (t : TxSkb) : Event → TxSkb
  | .again l => if t.freed then t else { t with room := t.room.skbResetHeader }.tcpTransmitSkb family l
  | .flush => { t.copies.foldl netdevTransmit t with copies := [] }

/-- An skb from its builder on. -/
def sent (b : Builder) (l : Lookup) (es : List Event) : TxSkb :=
  Machine.run (step family) (tcpTransmitSkb family { room := b.build family } l) es

end TxSkb

/-! ## Placed skbs -/

namespace SkbRoom

/-- An skb of `total` bytes that is filled from `x` on. -/
def placed (total : Nat) (hl : BitVec 4) (dlen : U32) (x : Nat) : SkbRoom :=
  { tail := total, data := x, len := BitVec.ofNat 32 (total - x), dlen := dlen, hl := hl }

variable {total : Nat} {hl : BitVec 4} {dlen : U32} {x : Nat}

theorem placed_push {n : Nat} (hn : n ≤ x) (hx : x ≤ total) (ht : total < 2 ^ 32) :
    (placed total hl dlen x).skbPush (BitVec.ofNat 32 n) = placed total hl dlen (x - n) := by
  have hdata : (x : Int) - (BitVec.ofNat 32 n).toNat = ((x - n : Nat) : Int) := by
    rw [BitVec.toNat_ofNat, Nat.mod_eq_of_lt (by omega)]
    omega
  have hlen : (BitVec.ofNat 32 (total - x) + BitVec.ofNat 32 n : U32) = BitVec.ofNat 32 (total - (x - n)) := by
    rw [← BitVec.ofNat_add]
    congr 1
    omega
  unfold placed skbPush
  rw [hdata, hlen]

theorem placed_reset (hd : dlen.toNat ≤ total) :
    (placed total hl dlen x).skbResetHeader = placed total hl dlen (total - dlen.toNat) := by
  have hdata : (total : Int) - dlen.toNat = ((total - dlen.toNat : Nat) : Int) := by omega
  have hlen : dlen = BitVec.ofNat 32 (total - (total - dlen.toNat)) := by
    rw [Nat.sub_sub_self hd, BitVec.ofNat_toNat, BitVec.setWidth_eq]
  unfold placed skbResetHeader
  dsimp only
  rw [hdata, ← hlen]

theorem placed_copy (ht : total < 2 ^ 32) : (placed total hl dlen x).skbCopy = placed total hl dlen x := by
  have htail : ((BitVec.ofInt 32 (total : Int)).toNat : Int) = total := by
    rw [BitVec.ofInt_natCast, BitVec.toNat_ofNat, Nat.mod_eq_of_lt ht]
  unfold placed skbCopy allocSkb
  dsimp only
  rw [htail]

/-- `tcp_alloc_skb` leaves `data` at the end. -/
theorem tcpAllocSkb_placed {family : AddrFamily} {optlen size : Nat}
    (ht : ETH_HDR_LEN + family.ipHlen + TCP_HDR_LEN + optlen + size < 2 ^ 32) :
    tcpAllocSkb family (BitVec.ofNat 32 optlen) (BitVec.ofNat 32 size) =
      placed (ETH_HDR_LEN + family.ipHlen + TCP_HDR_LEN + optlen + size) 0 (BitVec.ofNat 32 size)
        (ETH_HDR_LEN + family.ipHlen + TCP_HDR_LEN + optlen + size) := by
  unfold tcpAllocSkb placed allocSkb skbReserve
  dsimp only
  rw [← BitVec.ofNat_add, ← BitVec.ofNat_add, BitVec.toNat_ofNat, Nat.mod_eq_of_lt ht, Nat.sub_self]
  simp

end SkbRoom

open SkbRoom (placed placed_push placed_reset placed_copy tcpAllocSkb_placed)

namespace Builder

/-- `hl` of the header that is sent. -/
def hl (b : Builder) : Nat := 5 + b.skb.opts.length / 4

/-- The length of the frame. -/
def frameLen (family : AddrFamily) (b : Builder) : Nat := ETH_HDR_LEN + family.ipHlen + 4 * b.hl + b.skb.dlen.toNat

theorem length_tcpSynOptions (s : TcpSock) : (tcpSynOptions s).length = (synOptionsLen s).toNat := by
  unfold tcpSynOptions synOptionsLen
  cases s.sackok <;> rfl

/-- **The options**: whole words, and few enough for `hl`. -/
theorem Used.optlen {b : Builder} (hb : b.Used) : 4 ∣ b.skb.opts.length ∧ b.skb.opts.length ≤ 16 := by
  cases b with
  | ack s =>
    have hlen : (Builder.ack s).skb.opts.length = (tcpOptionsLen s).toNat := List.length_replicate
    rw [hlen, TcpSock.SackCount.optionsLen hb]
    split <;> split <;> decide
  | syn s =>
    have hlen : (Builder.syn s).skb.opts.length = (synOptionsLen s).toNat := length_tcpSynOptions s
    rw [hlen, synOptionsLen]
    split <;> decide
  | send mss buf => exact ⟨⟨0, rfl⟩, Nat.zero_le _⟩
  | synack => exact ⟨⟨1, rfl⟩, by decide⟩
  | fin => exact ⟨⟨0, rfl⟩, Nat.zero_le _⟩
  | reset => exact ⟨⟨0, rfl⟩, Nat.zero_le _⟩

theorem dlen_short (b : Builder) : b.skb.dlen.toNat < 65536 := by
  show (BitVec.ofNat 32 b.skb.payload.bytes.length).toNat < _
  rw [BitVec.toNat_ofNat]
  have hs := b.skb.payload.short
  omega

theorem Used.frameLen_eq {b : Builder} (hb : b.Used) (family : AddrFamily) :
    b.frameLen family = ETH_HDR_LEN + family.ipHlen + TCP_HDR_LEN + b.skb.opts.length + b.skb.dlen.toNat := by
  obtain ⟨⟨k, hk⟩, -⟩ := hb.optlen
  unfold frameLen hl
  rw [hk, Nat.mul_div_cancel_left k (by decide)]
  simp only [TCP_HDR_LEN]
  omega

theorem Used.frameLen_lt {b : Builder} (hb : b.Used) (family : AddrFamily) : b.frameLen family < 2 ^ 32 := by
  have hopt := hb.optlen.2
  have hd := b.dlen_short
  have hip : family.ipHlen ≤ 40 := by cases family <;> decide
  rw [hb.frameLen_eq family]
  simp only [ETH_HDR_LEN, TCP_HDR_LEN]
  omega

/-- A segment without text, its `hl` set by the builder or left at zero. -/
theorem Used.alloc_placed {b : Builder} (hb : b.Used) (hd : b.skb.dlen = 0) (family : AddrFamily) (hl : BitVec 4) :
    { SkbRoom.tcpAllocSkb family (BitVec.ofNat 32 b.skb.opts.length) 0 with hl := hl } =
      placed (b.frameLen family) hl b.skb.dlen (b.frameLen family - b.skb.dlen.toNat) := by
  have heq := hb.frameLen_eq family
  have hlt := hb.frameLen_lt family
  rw [hd] at heq ⊢
  rw [heq] at hlt
  have halloc : SkbRoom.tcpAllocSkb family (BitVec.ofNat 32 b.skb.opts.length) 0 = placed (b.frameLen family) 0 0 (b.frameLen family) := by
    rw [heq]
    exact tcpAllocSkb_placed hlt
  rw [halloc]
  rfl

/-- The `hl` of a builder that sets it. -/
theorem hl_set {n : Nat} (h4 : 4 ∣ n) (h16 : n ≤ 16) :
    (if TCP_DOFFSET + (BitVec.ofNat 32 n / 4).setWidth 4 = 0 then TCP_DOFFSET
      else TCP_DOFFSET + (BitVec.ofNat 32 n / 4).setWidth 4).toNat = 5 + n / 4 := by
  obtain ⟨k, rfl⟩ := h4
  have hk : k ≤ 4 := by omega
  interval_cases k <;> rfl

/-- **Every builder** leaves `data` where the payload starts; those that set no
options leave `hl` to `tcp_transmit_skb`. -/
theorem Used.build_placed {b : Builder} (hb : b.Used) (family : AddrFamily) :
    ∃ hl : BitVec 4, b.build family = placed (b.frameLen family) hl b.skb.dlen (b.frameLen family - b.skb.dlen.toNat) ∧
      (if hl = 0 then TCP_DOFFSET else hl).toNat = b.hl := by
  have hlt := hb.frameLen_lt family
  have heq := hb.frameLen_eq family
  obtain ⟨h4, h16⟩ := hb.optlen
  cases b with
  | send mss buf =>
    have hopt : (send mss buf).skb.opts.length = 0 := rfl
    refine ⟨0, ?_, by rw [hl, hopt]; rfl⟩
    have hd : (send mss buf).skb.dlen.toNat ≤ (send mss buf).frameLen family := by omega
    have halloc : SkbRoom.tcpAllocSkb family 0 (send mss buf).skb.dlen =
        placed ((send mss buf).frameLen family) 0 (send mss buf).skb.dlen ((send mss buf).frameLen family) := by
      have h := @tcpAllocSkb_placed family 0 (send mss buf).skb.dlen.toNat (heq ▸ hlt)
      rw [hopt] at heq
      rwa [BitVec.ofNat_toNat, BitVec.setWidth_eq, ← heq] at h
    have hpush := @placed_push _ 0 (send mss buf).skb.dlen _ _ hd (Nat.le_refl _) hlt
    rw [BitVec.ofNat_toNat, BitVec.setWidth_eq] at hpush
    show (SkbRoom.tcpAllocSkb family 0 (send mss buf).skb.dlen).skbPush (send mss buf).skb.dlen = _
    rw [halloc, hpush]
  | ack s =>
    have hopt : (ack s).skb.opts.length = (tcpOptionsLen s).toNat := List.length_replicate
    have hw : (tcpOptionsLen s).setWidth 32 = BitVec.ofNat 32 (ack s).skb.opts.length := by rw [hopt, BitVec.ofNat_toNat]
    refine ⟨_, ?_, hl_set h4 h16⟩
    rw [← hb.alloc_placed rfl family, ← hw]
    rfl
  | syn s =>
    have hopt : (syn s).skb.opts.length = (synOptionsLen s).toNat := length_tcpSynOptions s
    have hw : synOptionsLen s = BitVec.ofNat 32 (syn s).skb.opts.length := by rw [hopt, BitVec.ofNat_toNat, BitVec.setWidth_eq]
    refine ⟨_, ?_, hl_set h4 h16⟩
    rw [← hb.alloc_placed rfl family, ← hw]
    rfl
  | synack => exact ⟨6, hb.alloc_placed rfl family 6, rfl⟩
  | fin => exact ⟨0, hb.alloc_placed rfl family 0, rfl⟩
  | reset => exact ⟨0, hb.alloc_placed rfl family 0, rfl⟩

end Builder

/-! ## What a transmission does -/

/-- **One use of the buffer is right**: nothing is pushed below `head`, and each
header is written where the layer has just pushed to. -/
def RoomUse.Right (family : AddrFamily) : RoomUse → Prop
  | pushed r => 0 ≤ r.data
  | tcpHeader addr r => addr = r.data
  | ipHeader addr r => addr = r.data
  | checksum addr r => addr = r.data + family.ipHlen

/-- The buffer has room for the headers, and `hl` counts the words of TCP's. -/
structure HasRoom (family : AddrFamily) (total : Nat) (hl : BitVec 4) (dlen : U32) : Prop where
  total_eq : total = ETH_HDR_LEN + family.ipHlen + 4 * hl.toNat + dlen.toNat
  small : total < 2 ^ 32

/-- An ACK of a socket that is in use is one of those. -/
theorem ack_used {s : TcpSock} (hb : Born s) (es : List LifeEvent) :
    (Builder.ack (Machine.run Conn.live { sk := s } es).sk).Used :=
  (Machine.invariant (I := fun c : Conn => c.sk.SackLife) (fun _ e h => Conn.live_sackLife h e) es hb.sackLife.1).count

namespace TxSkb

variable {family : AddrFamily} {total : Nat} {hl : BitVec 4} {dlen : U32} {t : TxSkb} {x : Nat}

/-- The history of an skb that is filled from `x` on: every use of the buffer was
right, every frame was the whole buffer, and the copies wait at their IP header. -/
structure Placed (family : AddrFamily) (total : Nat) (hl : BitVec 4) (dlen : U32) (t : TxSkb) (x : Nat) : Prop where
  room : t.room = placed total hl dlen x
  copies : ∀ c ∈ t.copies, c = placed total hl dlen ETH_HDR_LEN
  uses : ∀ u ∈ t.uses, u.Right family
  frames : ∀ r ∈ t.frames, r = placed total hl dlen 0

theorem Placed.note (h : t.Placed family total hl dlen x) {u : RoomUse} (hu : u.Right family) :
    (t.note u).Placed family total hl dlen x :=
  { h with uses := List.forall_mem_append.mpr ⟨h.uses, List.forall_mem_singleton.mpr hu⟩ }

theorem Placed.push (h : t.Placed family total hl dlen x) {n : Nat} (hn : n ≤ x) (hx : x ≤ total) (ht : total < 2 ^ 32) :
    (t.push (BitVec.ofNat 32 n)).Placed family total hl dlen (x - n) := by
  have hpush := @placed_push total hl dlen x n hn hx ht
  have hroom : ({ t with room := t.room.skbPush (BitVec.ofNat 32 n) } : TxSkb).Placed family total hl dlen (x - n) :=
    { h with room := by rw [← hpush, ← h.room] }
  refine hroom.note ?_
  show 0 ≤ (t.room.skbPush _).data
  rw [h.room, hpush]
  exact Int.natCast_nonneg _

theorem Placed.netdevTransmit (h : t.Placed family total hl dlen x) (hf : HasRoom family total hl dlen) :
    (t.netdevTransmit (placed total hl dlen ETH_HDR_LEN)).Placed family total hl dlen x := by
  have hpush : (placed total hl dlen ETH_HDR_LEN).skbPush (BitVec.ofNat 32 ETH_HDR_LEN) = placed total hl dlen 0 :=
    placed_push (Nat.le_refl _) (by rw [hf.total_eq]; omega) hf.small
  unfold TxSkb.netdevTransmit
  rw [hpush]
  exact { h with
    uses := List.forall_mem_append.mpr ⟨h.uses, List.forall_mem_singleton.mpr (Int.natCast_nonneg 0)⟩
    frames := List.forall_mem_append.mpr ⟨h.frames, List.forall_mem_singleton.mpr rfl⟩ }

/-- From the IP header on: the neighbour's answer. -/
theorem Placed.neighOutput (h : t.Placed family total hl dlen ETH_HDR_LEN) (hf : HasRoom family total hl dlen) (l : Lookup) :
    ∃ x, (t.neighOutput family l).Placed family total hl dlen x := by
  cases l with
  | noRoute => exact ⟨_, h⟩
  | hit =>
    have hpush : (placed total hl dlen ETH_HDR_LEN).skbPush (BitVec.ofNat 32 ETH_HDR_LEN) = placed total hl dlen 0 :=
      placed_push (Nat.le_refl _) (by rw [hf.total_eq]; omega) hf.small
    have hsent := h.netdevTransmit hf
    unfold TxSkb.neighOutput
    rw [h.room]
    exact ⟨0, { hsent with room := hpush }⟩
  | miss dropped =>
    cases family with
    | inet => exact ⟨_, h⟩
    | inet6 =>
      unfold TxSkb.neighOutput
      dsimp only
      split
      · exact ⟨_, h⟩
      · refine ⟨_, { h with copies := List.forall_mem_append.mpr ⟨h.copies, List.forall_mem_singleton.mpr ?_⟩ }⟩
        rw [h.room, placed_copy hf.small]

/-- The IP layer: the header of each family goes where `ip_hdr` and
`tcp_hdr_for_sk` expect it. -/
theorem Placed.ipLayer (h : t.Placed family total hl dlen (ETH_HDR_LEN + family.ipHlen)) (hf : HasRoom family total hl dlen) (l : Lookup) :
    ∃ x, (match family with | .inet => t.ipOutput l | .inet6 => t.ipv6OutputEx l).Placed family total hl dlen x := by
  have hle : ETH_HDR_LEN + family.ipHlen ≤ total := by rw [hf.total_eq]; omega
  have hpush := h.push (Nat.le_add_left _ _) hle hf.small
  rw [Nat.add_sub_cancel] at hpush
  cases family with
  | inet =>
    dsimp only
    unfold ipOutput
    split
    · exact ⟨_, h⟩
    · have hip : RoomUse.Right .inet (.ipHeader ETH_HDR_LEN (t.push (BitVec.ofNat 32 IP_HDR_LEN)).room) := (congrArg SkbRoom.data hpush.room).symm
      have hsum : RoomUse.Right .inet (.checksum ((t.push (BitVec.ofNat 32 IP_HDR_LEN)).room.data + IP_HDR_LEN) (t.push (BitVec.ofNat 32 IP_HDR_LEN)).room) := rfl
      exact ((hpush.note hip).note hsum).neighOutput hf l
  | inet6 =>
    dsimp only
    unfold ipv6OutputEx
    split
    · exact ⟨_, { h with }⟩
    · refine ((hpush.note ?_).note ?_).neighOutput hf l
      · rfl
      · show (ETH_HDR_LEN + IPV6_HDR_LEN : Int) = (t.push (BitVec.ofNat 32 IPV6_HDR_LEN)).room.data + (IPV6_HDR_LEN : Nat)
        rw [show (t.push (BitVec.ofNat 32 IPV6_HDR_LEN)).room = placed total hl dlen ETH_HDR_LEN from hpush.room]
        rfl

/-- Where a transmission begins: `data` is at the text, and `hl` is set or
defaults to the words of the bare header. -/
structure AtText (family : AddrFamily) (total : Nat) (hl : BitVec 4) (dlen : U32) (t : TxSkb) : Prop where
  room : ∃ hl₀, t.room = placed total hl₀ dlen (total - dlen.toNat) ∧ (if hl₀ = 0 then TCP_DOFFSET else hl₀) = hl
  copies : ∀ c ∈ t.copies, c = placed total hl dlen ETH_HDR_LEN
  uses : ∀ u ∈ t.uses, u.Right family
  frames : ∀ r ∈ t.frames, r = placed total hl dlen 0

/-- **One transmission.** -/
theorem AtText.tcpTransmitSkb (h : t.AtText family total hl dlen) (hf : HasRoom family total hl dlen) (l : Lookup) :
    ∃ x, (t.tcpTransmitSkb family l).Placed family total hl dlen x := by
  obtain ⟨hl₀, hroom, hset⟩ := h.room
  have htotal := hf.total_eq
  -- `hl` is set first
  have hready : (if t.room.hl = 0 then { t with room.hl := TCP_DOFFSET } else t).Placed family total hl dlen (total - dlen.toNat) := by
    rw [hroom]
    show (if hl₀ = 0 then _ else t).Placed _ _ _ _ _
    split
    next hz =>
      rw [if_pos hz] at hset
      exact ⟨by rw [hset]; rfl, h.copies, h.uses, h.frames⟩
    next hnz =>
      rw [if_neg hnz] at hset
      exact ⟨by rw [hroom, hset], h.copies, h.uses, h.frames⟩
  unfold TxSkb.tcpTransmitSkb
  dsimp only
  generalize (if t.room.hl = 0 then { t with room.hl := TCP_DOFFSET } else t) = u at hready
  have hhl : u.room.hl.toNat * 4 = 4 * hl.toNat := by rw [hready.room, Nat.mul_comm]; rfl
  rw [hhl]
  have hpush := hready.push (show 4 * hl.toNat ≤ total - dlen.toNat by omega) (Nat.sub_le _ _) hf.small
  have hx : total - dlen.toNat - 4 * hl.toNat = ETH_HDR_LEN + family.ipHlen := by omega
  rw [hx] at hpush
  refine (hpush.note ?_).ipLayer hf l
  show tcpHdrForSk family = (u.push (BitVec.ofNat 32 (4 * hl.toNat))).room.data
  rw [hpush.room]
  rfl

theorem Placed.atText (h : t.Placed family total hl dlen x) (hf : HasRoom family total hl dlen) (hl0 : hl ≠ 0) :
    { t with room := t.room.skbResetHeader }.AtText family total hl dlen where
  room := ⟨hl, by rw [h.room, placed_reset (by rw [hf.total_eq]; omega)], if_neg hl0⟩
  copies := h.copies
  uses := h.uses
  frames := h.frames

/-- **A step** keeps the history right. -/
theorem Placed.step (h : t.Placed family total hl dlen x) (hf : HasRoom family total hl dlen) (hl0 : hl ≠ 0) (e : Event) :
    ∃ x, (t.step family e).Placed family total hl dlen x := by
  cases e with
  | again l =>
    rw [TxSkb.step]
    split
    · exact ⟨x, h⟩
    · exact (h.atText hf hl0).tcpTransmitSkb hf l
  | flush =>
    have hflush : ∀ (cs : List SkbRoom) {u : TxSkb}, (∀ c ∈ cs, c = placed total hl dlen ETH_HDR_LEN) → u.Placed family total hl dlen x →
        (cs.foldl TxSkb.netdevTransmit u).Placed family total hl dlen x := by
      intro cs
      induction cs with
      | nil => exact fun _ hu => hu
      | cons c cs ih =>
        intro u hcs hu
        obtain ⟨hc, hcs⟩ := List.forall_mem_cons.mp hcs
        rw [List.foldl_cons, hc]
        exact ih hcs (hu.netdevTransmit hf)
    exact ⟨x, { hflush t.copies h.copies h with copies := fun c hc => absurd hc List.not_mem_nil }⟩

/-- A hit sends one frame. -/
theorem frames_hit (t : TxSkb) : (t.tcpTransmitSkb family .hit).frames.length = t.frames.length + 1 := by
  cases family <;> (unfold TxSkb.tcpTransmitSkb; dsimp only; split <;> exact List.length_append)

/-- Only the lack of a route frees the skb. -/
theorem freed_transmit (t : TxSkb) {l : Lookup} (hl : l ≠ .noRoute) : (t.tcpTransmitSkb family l).freed = t.freed := by
  cases family with
  | inet => cases l <;> first | exact absurd rfl hl | (unfold TxSkb.tcpTransmitSkb; dsimp only; split <;> rfl)
  | inet6 =>
    cases l with
    | noRoute => exact absurd rfl hl
    | hit =>
      unfold TxSkb.tcpTransmitSkb
      dsimp only
      split <;> rfl
    | miss dropped =>
      unfold TxSkb.tcpTransmitSkb
      dsimp only
      cases dropped <;> split <;> rfl

theorem freed_step {t : TxSkb} {e : Event} (he : e ≠ .again .noRoute) (h : t.freed = false) : (t.step family e).freed = false := by
  cases e with
  | again l =>
    rw [TxSkb.step, h, if_neg Bool.false_ne_true, freed_transmit _ fun hl => he (by rw [hl])]
  | flush =>
    have hflush : ∀ (cs : List SkbRoom) (u : TxSkb), (cs.foldl TxSkb.netdevTransmit u).freed = u.freed := by
      intro cs
      induction cs with
      | nil => exact fun _ => rfl
      | cons c cs ih => exact fun u => ih (u.netdevTransmit c)
    exact (hflush t.copies t).trans h

end TxSkb

/-! ## Every history -/

/-- **The geometry of an skb's history**: headers are where they are looked for
and nothing is pushed below `head`; every frame is the buffer from `head` to
`end`, as long as its headers and its text; and as long as the skb is in use, a
hit sends one. -/
structure Builder.Geometry (family : AddrFamily) (b : Builder) (t : TxSkb) : Prop where
  uses : ∀ u ∈ t.uses, u.Right family
  whole : ∀ r ∈ t.frames, r.data = 0 ∧ r.data + r.len.toNat = r.tail
  length : ∀ r ∈ t.frames, r.len.toNat = ETH_HDR_LEN + family.ipHlen + 4 * r.hl.toNat + r.dlen.toNat
  header : ∀ r ∈ t.frames, r.hl.toNat = b.hl ∧ r.dlen = b.skb.dlen
  hit : t.freed = false → (t.step family (.again .hit)).frames.length = t.frames.length + 1

/-- **Transmit buffer geometry**: whatever is built, and however often it is
sent and the neighbour is found or not. The skb stays in use as long as there
is a route. -/
theorem transmit_geometry (family : AddrFamily) {b : Builder} (hb : b.Used) (l : Lookup) (es : List TxSkb.Event) :
    b.Geometry family (TxSkb.sent family b l es) ∧
      (l ≠ .noRoute → (∀ e ∈ es, e ≠ .again .noRoute) → (TxSkb.sent family b l es).freed = false) ∧
      (l = .hit → (TxSkb.sent family b l []).frames.length = 1) := by
  obtain ⟨hl₀, hbuild, hset⟩ := hb.build_placed family
  generalize hhl : (if hl₀ = 0 then TCP_DOFFSET else hl₀) = hl at hset
  have hfits : HasRoom family (b.frameLen family) hl b.skb.dlen := ⟨by rw [hset, Builder.frameLen], hb.frameLen_lt family⟩
  have hl0 : hl ≠ 0 := by
    rintro rfl
    have hpos : 5 ≤ b.hl := Nat.le_add_right 5 _
    rw [← hset] at hpos
    exact absurd hpos (by decide)
  have hstart : ({ room := b.build family } : TxSkb).AtText family (b.frameLen family) hl b.skb.dlen :=
    ⟨⟨hl₀, hbuild, hhl⟩, List.forall_mem_nil _, List.forall_mem_nil _, List.forall_mem_nil _⟩
  have hrun : ∃ x, (TxSkb.sent family b l es).Placed family (b.frameLen family) hl b.skb.dlen x :=
    Machine.invariant (I := fun t : TxSkb => ∃ x, t.Placed family (b.frameLen family) hl b.skb.dlen x)
      (fun _ e ⟨_, h⟩ => h.step hfits hl0 e) es (hstart.tcpTransmitSkb hfits l)
  obtain ⟨x, hx⟩ := hrun
  have hlen : (placed (b.frameLen family) hl b.skb.dlen 0).len.toNat = b.frameLen family := by
    show (BitVec.ofNat 32 (b.frameLen family - 0)).toNat = _
    rw [BitVec.toNat_ofNat, Nat.sub_zero, Nat.mod_eq_of_lt hfits.small]
  refine ⟨⟨hx.uses, fun r hr => ?_, fun r hr => ?_, fun r hr => ?_, fun hfree => ?_⟩, fun hl hes => ?_, fun hhit => ?_⟩
  · rw [hx.frames r hr, hlen]
    exact ⟨rfl, Int.zero_add _⟩
  · rw [hx.frames r hr, hlen]
    exact hfits.total_eq
  · rw [hx.frames r hr]
    exact ⟨hset, rfl⟩
  · rw [TxSkb.step, hfree, if_neg Bool.false_ne_true]
    exact TxSkb.frames_hit _
  · have hstep : ∀ (t : TxSkb) (e : TxSkb.Event), e ≠ .again .noRoute → t.freed = false → (t.step family e).freed = false :=
      fun _ _ he h => TxSkb.freed_step he h
    exact Machine.invariant_of_forall hstep hes (TxSkb.freed_transmit _ hl)
  · rw [hhit]
    exact TxSkb.frames_hit _

/-- An ACK to an IPv6 neighbour that is found on the second try. -/
theorem transmit_geometry_ack :
    (TxSkb.sent .inet6 (.ack (freshSock {})) (.miss false) [.again .hit, .flush, .again .hit]).frames.length = 3 ∧
      Builder.Geometry .inet6 (.ack (freshSock {}))
        (TxSkb.sent .inet6 (.ack (freshSock {})) (.miss false) [.again .hit, .flush, .again .hit]) :=
  ⟨by decide, (transmit_geometry .inet6 (show (Builder.ack (freshSock {})).Used from .alloc rfl rfl) (.miss false) [.again .hit, .flush, .again .hit]).1⟩

end LevelIp
