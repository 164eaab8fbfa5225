/-
`print_buffer_hexdump`, which `calcuate_udp_checksum` calls on what it sums. Three
characters for each byte and a NUL behind them go to a buffer of 2048; the
datagrams that are summed have up to 1500 bytes.
-/
import LevelIp.AddrText
import LevelIp.UdpChecksum

namespace LevelIp

open Access

/-- `sizeof(hexdump_buffer)`. -/
def HEXDUMP_BUFFER_LEN : Nat := 2048

/-- What `snprintf` stores for a size and the text of its format: as much of it as
leaves room for the NUL. -/
def snprintf (size : Nat) (text : List Char) : List Char := text.take (size - 1) ++ [Char.ofNat 0]

/-- The characters that `print_buffer_hexdump` stores, in order, each with its
index in `hexdump_buffer`. -/
def printBufferHexdump (buffer : List U8) : List (Char × Nat) :=
  (List.range buffer.length).flatMap fun i => (snprintf 4 (hex02 (buffer.getD i 0) ++ [' '])).zipIdx (3 * i)

/-- `buf` in `calcuate_udp_checksum`, for a datagram that passes its test. -/
def udpChecksumBuf (saddr daddr : U32) (uhdr : Int) : Prog U8 (Option (List U8)) := do
  let length ← ntohsAt (uhdr + 4)
  if MAX_UDP_BUF < UDP_PSEUDO_LEN + length.toNat then
    return none
  else
    let dgram ← Prog.cells uhdr length.toNat
    return some (udpPseudo saddr daddr length ++ clearUdpCsum dgram)

/-- What `calcuate_udp_checksum` lets `print_buffer_hexdump` store. -/
def udpHexdump (saddr daddr : U32) (uhdr : Int) : Prog U8 (List (Char × Nat)) := do
  let buf ← udpChecksumBuf saddr daddr uhdr
  return buf.elim [] printBufferHexdump

/-- The buffer that is dumped is the one that is summed. -/
theorem calcuateUdpChecksum_eq (saddr daddr : U32) (uhdr : Int) (mem : Memory.Mem U8) :
    (calcuateUdpChecksum saddr daddr uhdr).val mem =
      ((udpChecksumBuf saddr daddr uhdr).val mem).elim 0 fun buf => checksum buf 0 buf.length 0 := by
  rw [calcuateUdpChecksum, udpChecksumBuf, Prog.val_bind, Prog.val_bind]
  split
  · rfl
  · rw [Prog.val_bind, Prog.val_bind, Prog.val_cells, Prog.val_pure, Prog.val_pure, udpChecksum, Memory.length_read,
      BitVec.ofNat_toNat, BitVec.setWidth_eq]
    rfl

/-- The UDP header that `udp_transmit_skb` has filled in when `ip_output` asks for
the checksum; the field is 0 yet. -/
def udpHeader (sport dport length : U16) : List U8 := be16Bytes sport ++ be16Bytes dport ++ be16Bytes length ++ [0, 0]

/-- A datagram whose checksum is computed. -/
inductive UdpTraffic
  /-- `udp_in` checks it; addresses count from the IPv4 header. -/
  | received (ip : Iphdr) (mem : Memory.Mem U8)
  /-- `udp_out_send` was given the bytes; addresses count from the UDP header. -/
  | sent (saddr daddr : U32) (sport dport : U16) (buf : List U8)

namespace UdpTraffic

/-- What is in the memory of the datagram, and where its UDP header is. -/
def mem : UdpTraffic → Memory.Mem U8
  | received _ mem => mem
  | sent _ _ sport dport buf => frameMem (udpHeader sport dport (BitVec.ofNat 16 (buf.length + 8)) ++ buf)

def uhdr : UdpTraffic → Int
  | received _ _ => IPH_DATA
  | sent .. => 0

/-- The characters that are stored for it. -/
def hexdump : UdpTraffic → List (Char × Nat)
  | d@(received ip _) => (udpHexdump ip.saddr ip.daddr d.uhdr).val d.mem
  | d@(sent saddr daddr ..) => (udpHexdump saddr daddr d.uhdr).val d.mem

/-- `ntohs(uhdr->length)`. -/
def length (d : UdpTraffic) : Nat := UdpDatagram.length d.mem d.uhdr

/-- Every character of the dump has a place in `hexdump_buffer`. -/
def DumpInside (d : UdpTraffic) : Prop := ∀ w ∈ d.hexdump, w.2 < HEXDUMP_BUFFER_LEN

end UdpTraffic

/-! ## Where the characters go -/

theorem length_snprintf_hex02 (b : U8) : (snprintf 4 (hex02 b ++ [' '])).length = 4 := rfl

/-- A character of the dump goes to one of the four places of its byte. -/
theorem mem_printBufferHexdump {buffer : List U8} {w : Char × Nat} (h : w ∈ printBufferHexdump buffer) :
    ∃ i < buffer.length, 3 * i ≤ w.2 ∧ w.2 ≤ 3 * i + 3 := by
  obtain ⟨i, hi, hw⟩ := List.mem_flatMap.mp h
  have hlo := List.le_snd_of_mem_zipIdx hw
  have hhi := List.snd_lt_add_of_mem_zipIdx hw
  rw [length_snprintf_hex02] at hhi
  exact ⟨i, List.mem_range.mp hi, hlo, by omega⟩

/-- The NUL of the last byte comes last. -/
theorem last_printBufferHexdump {buffer : List U8} (h : buffer ≠ []) :
    (Char.ofNat 0, 3 * buffer.length) ∈ printBufferHexdump buffer := by
  have hpos := List.length_pos_iff.mpr h
  refine List.mem_flatMap.mpr ⟨buffer.length - 1, List.mem_range.mpr (by omega), ?_⟩
  rw [List.mk_mem_zipIdx_iff_le_and_getElem?_sub]
  refine ⟨by omega, ?_⟩
  rw [show 3 * buffer.length - 3 * (buffer.length - 1) = 3 by omega]
  rfl

theorem printBufferHexdump_below_iff {buffer : List U8} (h : buffer ≠ []) (n : Nat) :
    (∀ w ∈ printBufferHexdump buffer, w.2 < n) ↔ 3 * buffer.length < n := by
  refine ⟨fun hall => hall _ (last_printBufferHexdump h), fun hlt w hw => ?_⟩
  obtain ⟨i, hi, -, hle⟩ := mem_printBufferHexdump hw
  omega

namespace UdpTraffic

/-- What is dumped: 12 bytes and the datagram. -/
theorem val_udpChecksumBuf (saddr daddr : U32) (uhdr : Int) (mem : Memory.Mem U8) : (udpChecksumBuf saddr daddr uhdr).val mem =
    if 1500 < UdpDatagram.length mem uhdr then none
    else some (udpPseudo saddr daddr ((ntohsAt (uhdr + 4)).val mem) ++ clearUdpCsum (UdpDatagram.bytes mem uhdr)) := by
  have hmax : MAX_UDP_BUF < UDP_PSEUDO_LEN + ((ntohsAt (uhdr + 4)).val mem).toNat ↔ 1500 < UdpDatagram.length mem uhdr :=
    Nat.add_lt_add_iff_left
  rw [udpChecksumBuf, Prog.val_bind]
  by_cases hlen : 1500 < UdpDatagram.length mem uhdr
  · rw [if_pos (hmax.mpr hlen), if_pos hlen, Prog.val_pure]
  · rw [if_neg (mt hmax.mp hlen), if_neg hlen, Prog.val_bind, Prog.val_cells, Prog.val_pure]
    rfl

theorem below_udpHexdump (saddr daddr : U32) (uhdr : Int) (mem : Memory.Mem U8) :
    (∀ w ∈ (udpHexdump saddr daddr uhdr).val mem, w.2 < HEXDUMP_BUFFER_LEN) ↔
      ¬ (670 < UdpDatagram.length mem uhdr ∧ UdpDatagram.length mem uhdr ≤ 1500) := by
  rw [udpHexdump, Prog.val_bind, Prog.val_pure, val_udpChecksumBuf]
  by_cases hlen : 1500 < UdpDatagram.length mem uhdr
  · rw [if_pos hlen]
    refine iff_of_true (fun w hw => ?_) (by omega)
    cases hw
  · have hbuf : (clearUdpCsum (UdpDatagram.bytes mem uhdr)).length = UdpDatagram.length mem uhdr := by
      simp [clearUdpCsum, UdpDatagram.length_bytes]
    have hne : udpPseudo saddr daddr ((ntohsAt (uhdr + 4)).val mem) ++ clearUdpCsum (UdpDatagram.bytes mem uhdr) ≠ [] := by
      simp [udpPseudo]
    rw [if_neg hlen, Option.elim_some, printBufferHexdump_below_iff hne, List.length_append, length_udpPseudo, hbuf, HEXDUMP_BUFFER_LEN]
    omega

/-- **The dump stays in its buffer** exactly if the datagram has at most 670 bytes,
or so many that it is not summed. -/
theorem dumpInside_iff (d : UdpTraffic) : d.DumpInside ↔ ¬ (670 < d.length ∧ d.length ≤ 1500) := by
  cases d with
  | received ip mem => exact below_udpHexdump _ _ _ _
  | sent saddr daddr sport dport buf => exact below_udpHexdump _ _ _ _

/-- What is sent has its length in the header, as far as 16 bits hold it. -/
theorem length_sent (saddr daddr : U32) (sport dport : U16) (buf : List U8) :
    (sent saddr daddr sport dport buf).length = (buf.length + 8) % 65536 := by
  have hfield : (ntohsAt 4).val (sent saddr daddr sport dport buf).mem =
      be16 (udpHeader sport dport (BitVec.ofNat 16 (buf.length + 8)) ++ buf) 4 := rfl
  have hbytes : ∀ x : U16, ((x >>> 8).setWidth 8 : U8).toNat * 256 + (x.setWidth 8 : U8).toNat = x.toNat := fun x => by
    have hx := x.isLt
    rw [BitVec.toNat_setWidth, BitVec.toNat_setWidth, BitVec.toNat_ushiftRight, Nat.shiftRight_eq_div_pow]
    omega
  have hx := hbytes (BitVec.ofNat 16 (buf.length + 8))
  rw [BitVec.toNat_ofNat] at hx
  show ((ntohsAt 4).val (sent saddr daddr sport dport buf).mem).toNat = _
  rw [hfield, toNat_be16, ← hx, Nat.mul_comm]
  rfl

/-- The dump of 663 bytes that are sent ends one byte behind the buffer. -/
theorem dump_of_663_outside : ¬ (sent 0 0 0 0 (List.replicate 663 0)).DumpInside := by
  intro h
  have hlen : (sent 0 0 0 0 (List.replicate 663 0)).length = 671 := by
    rw [length_sent, List.length_replicate]
  have hlen' : UdpDatagram.length (sent 0 0 0 0 (List.replicate 663 0)).mem 0 = 671 := hlen
  have hout := (below_udpHexdump 0 0 0 (sent 0 0 0 0 (List.replicate 663 0)).mem).mp h
  rw [hlen'] at hout
  omega

end UdpTraffic

end LevelIp
