/-
The option area `tcp_write_options` makes, beside the length that
`tcp_options_len` announces and what `tcp_parse_opts` reads back from it.
-/
import LevelIp.OptionParsing

namespace LevelIp

/-! ## Reading back -/

theorem be32_toBe32 (x : U32) (rest : List U8) : be32 (toBe32 x ++ rest) 0 = x := by
  simp only [be32, toBe32, List.cons_append, List.nil_append, List.getD_cons_zero, List.getD_cons_succ]
  ext i hi
  simp only [BitVec.getElem_or, BitVec.getElem_shiftLeft, BitVec.getElem_setWidth, BitVec.getLsbD_setWidth, BitVec.getLsbD_ushiftRight]
  grind

theorem be32_skip (p : List U8) (rest : List U8) (i : Nat) : be32 (p ++ rest) (p.length + i) = be32 rest i := by
  have hbyte : ∀ k, (p ++ rest).getD (p.length + i + k) 0 = rest.getD (i + k) 0 := by
    intro k
    rw [List.getD_append_right _ _ _ _ (by omega), Nat.add_assoc, Nat.add_sub_cancel_left]
  dsimp only [be32]
  rw [hbyte, hbyte, hbyte, hbyte]

/-- The blocks as `tcp_write_options` stores them. -/
def blockBytes (bs : List (U32 × U32)) : List U8 := bs.flatMap fun b => toBe32 b.1 ++ toBe32 b.2

theorem blockBytes_length (bs : List (U32 × U32)) : (blockBytes bs).length = 8 * bs.length := by
  induction bs with
  | nil => rfl
  | cons b bs ih =>
    rw [blockBytes, List.flatMap_cons, List.length_append, ← blockBytes, ih]
    simp [toBe32]
    omega

/-- **The blocks are read back.** -/
theorem blocks_blockBytes (bs : List (U32 × U32)) : (TcpOption.mk TCP_OPT_SACK (blockBytes bs)).blocks = bs := by
  have hn : (blockBytes bs).length / 8 = bs.length := by
    rw [blockBytes_length]
    omega
  unfold TcpOption.blocks
  dsimp only
  rw [hn]
  clear hn
  induction bs with
  | nil => rfl
  | cons b bs ih =>
    have hcons : blockBytes (b :: bs) = toBe32 b.1 ++ (toBe32 b.2 ++ blockBytes bs) := by
      rw [blockBytes, List.flatMap_cons, List.append_assoc, blockBytes]
    have hskip : ∀ i, be32 (blockBytes (b :: bs)) (8 + i) = be32 (blockBytes bs) i := by
      intro i
      have h := be32_skip (toBe32 b.1 ++ toBe32 b.2) (blockBytes bs) i
      rwa [List.append_assoc, ← hcons] at h
    have h0 : be32 (blockBytes (b :: bs)) 0 = b.1 := by rw [hcons, be32_toBe32]
    have h4 : be32 (blockBytes (b :: bs)) 4 = b.2 := by
      rw [hcons]
      exact (be32_skip (toBe32 b.1) _ 0).trans (be32_toBe32 b.2 _)
    rw [List.length_cons, List.range_succ_eq_map, List.map_cons, List.map_map]
    refine congrArg₂ List.cons (Prod.ext h0 h4) (Eq.trans ?_ ih)
    refine List.map_congr_left fun i _ => ?_
    have h8 : 8 * i.succ = 8 + 8 * i := by omega
    have h12 : 8 * i.succ + 4 = 8 + (8 * i + 4) := by omega
    show (be32 (blockBytes (b :: bs)) (8 * i.succ), be32 (blockBytes (b :: bs)) (8 * i.succ + 4)) = _
    rw [h12, h8, hskip, hskip]

/-! ## What is written -/

/-- The socket has the blocks `bs` to report. -/
structure TcpSock.Reports (s : TcpSock) (bs : List (U32 × U32)) : Prop where
  sackok : s.sackok
  blocks : s.sacks.take s.sacklen.toNat = bs
  sacklen : s.sacklen.toNat = bs.length
  few : bs.length ≤ 4
  left : ∀ b ∈ bs.head?, b.1 ≠ 0
  scale : s.rcvScale ≤ 14

/-- What `tcp_write_options` makes of the blocks does not depend on the scale. -/
structure TcpSock.Writes (s : TcpSock) (bs : List (U32 × U32)) : Prop where
  sackok : s.sackok
  blocks : s.sacks.take s.sacklen.toNat = bs
  sacklen : s.sacklen.toNat = bs.length
  few : bs.length ≤ 4
  left : ∀ b ∈ bs.head?, b.1 ≠ 0

theorem TcpSock.Reports.writes {s : TcpSock} {bs : List (U32 × U32)} (h : s.Reports bs) : s.Writes bs :=
  ⟨h.sackok, h.blocks, h.sacklen, h.few, h.left⟩

/-- The options in the area. -/
def writtenOptions (s : TcpSock) (bs : List (U32 × U32)) : List TcpOption :=
  (if s.wsoAllowed then [⟨TCP_OPT_NOOP, []⟩, ⟨TCP_OPT_WSO, [s.rcvScale]⟩] else []) ++
    if bs = [] then [] else [⟨TCP_OPT_NOOP, []⟩, ⟨TCP_OPT_NOOP, []⟩, ⟨TCP_OPT_SACK, blockBytes bs⟩]

variable {s t : TcpSock} {bs : List (U32 × U32)}

theorem TcpSock.Writes.pending (h : s.Writes bs) : s.sackPending = !bs.isEmpty := by
  have hlen := h.sacklen
  have hblocks := h.blocks
  unfold TcpSock.sackPending
  rw [h.sackok]
  cases bs with
  | nil =>
    have hz : s.sacklen = 0 := BitVec.eq_of_toNat_eq hlen
    simp [hz]
  | cons b bs =>
    have hpos : s.sacklen > 0 := by
      rw [List.length_cons] at hlen
      bv_omega
    have hfirst : s.sacks.getD 0 (0, 0) = b := by
      have hget := congrArg (·[0]?) hblocks
      simp only [List.getElem?_cons_zero] at hget
      rw [List.getElem?_take_of_lt (by rw [hlen]; exact Nat.succ_pos _)] at hget
      rw [List.getD_eq_getElem?_getD, hget]
      rfl
    have hne := h.left b rfl
    rw [hfirst, decide_eq_true hpos, decide_eq_true hne]
    rfl

/-- The bytes written. -/
theorem TcpSock.Writes.bytes (h : s.Writes bs) : tcpWriteOptionsBytes s =
    (if s.wsoAllowed then [TCP_OPT_NOOP, TCP_OPT_WSO, 3, s.rcvScale] else []) ++
      if bs = [] then [] else [TCP_OPT_NOOP, TCP_OPT_NOOP, TCP_OPT_SACK, 2 + s.sacklen * 8] ++ blockBytes bs := by
  unfold tcpWriteOptionsBytes
  rw [h.pending, h.blocks]
  cases bs <;> rfl

/-- Whole words are not padded. -/
theorem pad_whole {x : U8} (h : x.toNat % 4 = 0) : x + (4 - x % 4) % 4 = x := by
  have hz : x % 4 = 0 := BitVec.eq_of_toNat_eq (by rw [BitVec.toNat_umod]; exact h)
  rw [hz]
  have hp : ((4 - 0) % 4 : U8) = 0 := by decide
  rw [hp]
  exact BitVec.add_zero x

/-- **They are as many as announced**, in whole words. -/
theorem TcpSock.Writes.length (h : s.Writes bs) :
    (tcpOptionsLen s).toNat = (if s.wsoAllowed then 4 else 0) + if bs = [] then 0 else 4 + 8 * bs.length := by
  have hlen := h.sacklen
  have hfew := h.few
  have hmul : (4 + s.sacklen * 8 : U8).toNat = 4 + 8 * bs.length := by
    rw [BitVec.toNat_add, BitVec.toNat_mul]
    have h4 : (4 : U8).toNat = 4 := rfl
    have h8 : (8 : U8).toNat = 8 := rfl
    rw [h4, h8, hlen]
    omega
  have hsum : (((if s.wsoAllowed then 4 else 0) + if s.sackPending then 4 + s.sacklen * 8 else 0 : U8)).toNat =
      (if s.wsoAllowed then 4 else 0) + if bs = [] then 0 else 4 + 8 * bs.length := by
    rw [h.pending]
    cases bs with
    | nil => cases s.wsoAllowed <;> rfl
    | cons b bs =>
      simp only [List.isEmpty_cons, Bool.not_false, if_true, reduceCtorEq, if_false]
      rw [← hmul]
      have h40 : (4 + s.sacklen * 8 : U8).toNat ≤ 36 := by omega
      cases s.wsoAllowed
      · rw [if_neg Bool.false_ne_true, if_neg Bool.false_ne_true, Nat.zero_add]
        exact congrArg BitVec.toNat (BitVec.zero_add _)
      · rw [if_pos rfl, if_pos rfl, BitVec.toNat_add]
        have h4 : (4 : U8).toNat = 4 := rfl
        rw [h4]
        omega
  unfold tcpOptionsLen
  dsimp only
  rw [pad_whole, hsum]
  rw [hsum]
  split <;> split <;> omega

theorem TcpSock.Writes.bytes_length (h : s.Writes bs) :
    (tcpWriteOptionsBytes s).length = (if s.wsoAllowed then 4 else 0) + if bs = [] then 0 else 4 + 8 * bs.length := by
  rw [h.bytes, List.length_append]
  congr 1
  · split <;> rfl
  · split
    · rfl
    · rw [List.length_append, blockBytes_length]
      rfl

/-! ## What is read -/

theorem splitOptions_nil (n : Nat) : splitOptions n [] = some [] := by cases n <;> rfl

theorem splitOptions_option (n : Nat) {kind len : U8} (h0 : kind ≠ 0) (h1 : kind ≠ TCP_OPT_NOOP) {d : List U8}
    (hlen : len.toNat = 2 + d.length) (a : List U8) :
    splitOptions (n + 1) (kind :: len :: (d ++ a)) = (splitOptions n a).map (⟨kind, d⟩ :: ·) := by
  have hfit : 2 ≤ len.toNat ∧ len.toNat - 2 ≤ (d ++ a).length := by
    rw [List.length_append]
    omega
  have hd : len.toNat - 2 = d.length := by omega
  rw [splitOptions, if_neg h0, if_neg h1, if_pos hfit, hd, List.drop_left, List.take_left]

theorem splitOptions_noop (n : Nat) (a : List U8) :
    splitOptions (n + 1) (TCP_OPT_NOOP :: a) = (splitOptions n a).map (⟨TCP_OPT_NOOP, []⟩ :: ·) := by
  conv_lhs => unfold splitOptions
  rw [if_neg (by decide), if_pos rfl]

/-- The area is made of the options. -/
theorem TcpSock.Writes.split (h : s.Writes bs) :
    splitOptions (tcpWriteOptionsBytes s).length (tcpWriteOptionsBytes s) = some (writtenOptions s bs) := by
  have hlen := h.bytes_length
  have hsack : ∀ n, (bs ≠ [] → 3 ≤ n) → splitOptions n
      (if bs = [] then [] else [TCP_OPT_NOOP, TCP_OPT_NOOP, TCP_OPT_SACK, 2 + s.sacklen * 8] ++ blockBytes bs) =
      some (if bs = [] then [] else [⟨TCP_OPT_NOOP, []⟩, ⟨TCP_OPT_NOOP, []⟩, ⟨TCP_OPT_SACK, blockBytes bs⟩]) := by
    intro n hn
    split
    · exact splitOptions_nil n
    next hne =>
      obtain ⟨n, rfl⟩ : ∃ m, n = m + 3 := ⟨n - 3, by have := hn hne; omega⟩
      have hbyte : (2 + s.sacklen * 8 : U8).toNat = 2 + (blockBytes bs).length := by
        have hl := h.sacklen
        have hf := h.few
        have h2 : (2 : U8).toNat = 2 := rfl
        have h8 : (8 : U8).toNat = 8 := rfl
        rw [blockBytes_length, BitVec.toNat_add, BitVec.toNat_mul, h2, h8, hl]
        omega
      have hsplit := splitOptions_option n (by decide : TCP_OPT_SACK ≠ 0) (by decide) hbyte []
      rw [List.append_nil, splitOptions_nil] at hsplit
      show splitOptions (n + 3) (TCP_OPT_NOOP :: TCP_OPT_NOOP :: TCP_OPT_SACK :: (2 + s.sacklen * 8) :: blockBytes bs) = _
      rw [splitOptions_noop, splitOptions_noop, hsplit]
      rfl
  generalize (tcpWriteOptionsBytes s).length = n at hlen
  rw [h.bytes]
  unfold writtenOptions
  cases hw : s.wsoAllowed with
  | false =>
    rw [hw] at hlen
    refine hsack n fun hne => ?_
    rw [if_neg hne] at hlen
    simp at hlen
    omega
  | true =>
    rw [hw, if_pos rfl] at hlen
    obtain ⟨m, rfl⟩ : ∃ m, n = m + 2 := ⟨n - 2, by omega⟩
    have hscale := splitOptions_option m (by decide : TCP_OPT_WSO ≠ 0) (by decide) (show (3 : U8).toNat = 2 + [s.rcvScale].length from rfl)
    rw [if_pos rfl, if_pos rfl]
    show splitOptions (m + 2) (TCP_OPT_NOOP :: TCP_OPT_WSO :: 3 :: ([s.rcvScale] ++ _)) = _
    rw [splitOptions_noop, hscale, hsack m]
    · rfl
    · intro hne
      rw [if_neg hne] at hlen
      omega

theorem writtenOptions_known (s : TcpSock) (bs : List (U32 × U32)) : ∀ x ∈ writtenOptions s bs, x.wellFormed ∧ x.known := by
  have hdata : (blockBytes bs).length % 8 = 0 := by
    rw [blockBytes_length]
    omega
  have hsack : (TcpOption.mk TCP_OPT_SACK (blockBytes bs)).wellFormed = true := decide_eq_true hdata
  intro x hx
  unfold writtenOptions at hx
  rcases List.mem_append.mp hx with hx | hx
  · split at hx
    · rcases List.mem_cons.mp hx with rfl | hx
      · exact ⟨rfl, rfl⟩
      · obtain rfl := List.mem_singleton.mp hx
        exact ⟨rfl, rfl⟩
    · cases hx
  · split at hx
    · cases hx
    · rcases List.mem_cons.mp hx with rfl | hx
      · exact ⟨rfl, rfl⟩
      rcases List.mem_cons.mp hx with rfl | hx
      · exact ⟨rfl, rfl⟩
      · obtain rfl := List.mem_singleton.mp hx
        exact ⟨hsack, rfl⟩

/-- All of them are known, so none is passed over. -/
theorem writtenOptions_seen (s : TcpSock) (bs : List (U32 × U32)) : (writtenOptions s bs).takeWhile TcpOption.known = writtenOptions s bs :=
  List.takeWhile_eq_self_iff.mpr fun x hx => (writtenOptions_known s bs x hx).2

theorem writtenOptions_blocks (s : TcpSock) (bs : List (U32 × U32)) :
    sackBlocks (writtenOptions s bs) = if bs = [] then none else some bs := by
  unfold writtenOptions
  by_cases hb : bs = []
  · rw [if_pos hb, if_pos hb]
    cases s.wsoAllowed <;> rfl
  · rw [if_neg hb, if_neg hb]
    cases s.wsoAllowed <;> exact congrArg some (blocks_blockBytes bs)

/-- The options say what the socket has to say. -/
theorem TcpSock.Reports.scaleAfter_written (h : s.Reports bs) (scale : U8) :
    scaleAfter scale (writtenOptions s bs) = if s.wsoAllowed then s.rcvScale else scale := by
  have hclamp : clampShift s.rcvScale = s.rcvScale := if_pos h.scale
  unfold writtenOptions
  by_cases hb : bs = []
  · rw [if_pos hb]
    cases s.wsoAllowed with
    | false => rfl
    | true => exact hclamp
  · rw [if_neg hb]
    cases s.wsoAllowed with
    | false => rfl
    | true => exact hclamp

/-- **Writer, length and parser are in step**: what the socket `s` with the
blocks `bs` writes is as long as it announces, in whole words that the data
offset can count, and `t` reads shift and blocks back from it. -/
structure OptionsAgree (s t : TcpSock) (bs : List (U32 × U32)) : Prop where
  length : (tcpWriteOptionsBytes s).length = (tcpOptionsLen s).toNat
  words : (tcpOptionsLen s).toNat % 4 = 0
  offset : 5 + (tcpOptionsLen s).toNat / 4 < 16
  scale : ∀ th : Tcphdr, 4 * th.hl.toNat = 20 + (tcpOptionsLen s).toNat → (∃ payload, th.data = tcpWriteOptionsBytes s ++ payload) →
    (tcpParseOpts t th).sndScale = if s.wsoAllowed then s.rcvScale else t.sndScale
  blocks : ∀ th : Tcphdr, 4 * th.hl.toNat = 20 + (tcpOptionsLen s).toNat → (∃ payload, th.data = tcpWriteOptionsBytes s ++ payload) →
    sackHanded t th = if bs = [] then none else some bs

/-- **Option encoding.** They are in step exactly unless the area is full: a
window scale and four blocks are written, and none of it is read. -/
theorem optionsAgree_iff (h : s.Reports bs) (ht : t.sackok) : OptionsAgree s t bs ↔ ¬(s.wsoAllowed ∧ bs.length = 4) := by
  have hlen := h.writes.length
  have hbytes := h.writes.bytes_length
  have hfew := h.few
  have harea : ∀ th : Tcphdr, 4 * th.hl.toNat = 20 + (tcpOptionsLen s).toNat → (∃ payload, th.data = tcpWriteOptionsBytes s ++ payload) →
      OptionArea th (tcpWriteOptionsBytes s) (writtenOptions s bs) := fun th hhl hdata =>
    ⟨hdata, by omega, h.writes.split, fun x hx => (writtenOptions_known s bs x hx).1⟩
  constructor
  · rintro ha ⟨hw, h4⟩
    have hne : bs ≠ [] := fun hb => by rw [hb] at h4; cases h4
    rw [hw, if_pos rfl, if_neg hne, h4] at hlen hbytes
    let th : Tcphdr := { seq := 0, ackSeq := 0, hl := 15, win := 0, data := tcpWriteOptionsBytes s }
    have hhl : 4 * th.hl.toNat = 20 + (tcpOptionsLen s).toNat := by
      rw [hlen]
      rfl
    have hdata : ∃ payload, th.data = tcpWriteOptionsBytes s ++ payload := ⟨[], (List.append_nil _).symm⟩
    have hblocks := ha.blocks th hhl hdata
    -- nothing of a full area is seen
    have hseen := (readsOptions_seen t (harea th hhl hdata)).2
    have hfull : ¬(tcpWriteOptionsBytes s).length < 40 := by omega
    rw [hblocks, if_neg hne, ht, if_pos rfl, seenOptions, if_neg hfull] at hseen
    cases hseen
  · intro hnot
    have hshort : (tcpWriteOptionsBytes s).length < 40 := by
      rw [hbytes]
      by_cases hw : s.wsoAllowed
      · have : bs.length ≠ 4 := fun h4 => hnot ⟨hw, h4⟩
        split <;> split <;> omega
      · split
        next hw' => exact absurd hw' hw
        next => split <;> omega
    have hread : ∀ th : Tcphdr, 4 * th.hl.toNat = 20 + (tcpOptionsLen s).toNat →
        (∃ payload, th.data = tcpWriteOptionsBytes s ++ payload) → ReadsOptions t th (writtenOptions s bs) := by
      intro th hhl hdata
      have hseen := readsOptions_seen t (harea th hhl hdata)
      rwa [seenOptions, if_pos hshort, writtenOptions_seen] at hseen
    refine ⟨by omega, ?_, ?_, fun th hhl hdata => ?_, fun th hhl hdata => ?_⟩
    · rw [hlen]
      split <;> split <;> omega
    · rw [hlen]
      split <;> split <;> omega
    · exact (hread th hhl hdata).1.trans (h.scaleAfter_written _)
    · rw [(hread th hhl hdata).2, ht, if_pos rfl]
      exact writtenOptions_blocks s bs

/-- A socket with window scaling and these blocks to report. -/
def reporting (bs : List (U32 × U32)) : TcpSock :=
  { sackok := true, wsoAllowed := true, rcvScale := 7, sacklen := BitVec.ofNat 8 bs.length, sacks := bs }

theorem reporting_reports (h4 : bs.length ≤ 4) (hleft : ∀ b ∈ bs.head?, b.1 ≠ 0) : (reporting bs).Reports bs := by
  have hlen : (BitVec.ofNat 8 bs.length).toNat = bs.length := by
    rw [BitVec.toNat_ofNat]
    omega
  exact ⟨rfl, List.take_of_length_le (Nat.le_of_eq hlen.symm), hlen, h4, hleft, (by decide : (7 : U8) ≤ 14)⟩

/-- Four blocks that do not touch. -/
def fourBlocks : List (U32 × U32) := [(1000, 1010), (1020, 1030), (1040, 1050), (1060, 1070)]

theorem optionsAgree_three : OptionsAgree (reporting (fourBlocks.take 3)) { sackok := true } (fourBlocks.take 3) :=
  (optionsAgree_iff (reporting_reports (by decide) (by rintro b ⟨⟩; decide)) rfl).mpr (by decide)

/-- With a window scale and four blocks, 40 bytes are written and nothing is read. -/
theorem full_options_unread :
    ¬ ∀ (s t : TcpSock) (bs : List (U32 × U32)), s.Reports bs → t.sackok → OptionsAgree s t bs := by
  intro h
  let th : Tcphdr := { seq := 0, ackSeq := 0, hl := 15, win := 0, data := tcpWriteOptionsBytes (reporting fourBlocks) }
  have hread := (h (reporting fourBlocks) { sackok := true } fourBlocks (reporting_reports (by decide) (by rintro b ⟨⟩; decide))
    rfl).scale th (by decide) ⟨[], (List.append_nil _).symm⟩
  have hzero : (tcpParseOpts { sackok := true } th).sndScale = 0 := by decide +kernel
  rw [hzero] at hread
  exact absurd hread (by decide)

end LevelIp
