/-
`tcp_parse_opts` beside a parser that goes by the length bytes. The pointer and
the count that are left move together past every option the code knows; at an
unknown one the pointer stays, and a full area of 40 bytes is not looked at.
-/
import LevelIp.TcpOpts

namespace LevelIp

/-! ## Options by their length bytes -/

/-- An option: its kind, and what follows its length byte. -/
structure TcpOption where
  kind : U8
  data : List U8
deriving DecidableEq

/-- The options of an area, up to End of Option List; each is as long as its
length byte says, and NOP is one byte. `none` if the area is cut short. -/
def splitOptions : Nat → List U8 → Option (List TcpOption)
  | _, [] => some []
  | 0, _ :: _ => none
  | fuel + 1, kind :: rest =>
    if kind = 0 then some []
    else if kind = TCP_OPT_NOOP then (splitOptions fuel rest).map (⟨kind, []⟩ :: ·)
    else
      match rest with
      | [] => none
      | len :: rest =>
        if 2 ≤ len.toNat ∧ len.toNat - 2 ≤ rest.length then
          (splitOptions fuel (rest.drop (len.toNat - 2))).map (⟨kind, rest.take (len.toNat - 2)⟩ :: ·)
        else none

namespace TcpOption

/-- `tcp_parse_opts` has a case for the option. -/
def known (o : TcpOption) : Bool :=
  o.kind = TCP_OPT_NOOP || o.kind = TCP_OPT_MSS || o.kind = TCP_OPT_WSO || o.kind = TCP_OPT_SACK_OK || o.kind = TCP_OPT_SACK ||
    o.kind = TCP_OPT_TS

/-- An option the code knows has the length of its kind. -/
def wellFormed (o : TcpOption) : Bool :=
  if o.kind = TCP_OPT_NOOP then o.data.length = 0
  else if o.kind = TCP_OPT_MSS then o.data.length = 2
  else if o.kind = TCP_OPT_WSO then o.data.length = 1
  else if o.kind = TCP_OPT_SACK_OK then o.data.length = 0
  else if o.kind = TCP_OPT_SACK then o.data.length % 8 = 0
  else if o.kind = TCP_OPT_TS then o.data.length = 8
  else true

/-- The blocks in the data of a SACK option. -/
def blocks (o : TcpOption) : List (U32 × U32) :=
  (List.range (o.data.length / 8)).map fun i => (be32 o.data (8 * i), be32 o.data (8 * i + 4))

end TcpOption

/-- The shift of the window-scale option; the last one counts. -/
def windowShift : List TcpOption → Option U8
  | [] => none
  | o :: opts => (windowShift opts).or (if o.kind = TCP_OPT_WSO then some (o.data.getD 0 0) else none)

/-- The blocks of the SACK option. -/
def sackBlocks : List TcpOption → Option (List (U32 × U32))
  | [] => none
  | o :: opts => (sackBlocks opts).or (if o.kind = TCP_OPT_SACK then some o.blocks else none)

/-- `min(shift, 14)`. -/
def clampShift (shift : U8) : U8 := if shift ≤ 14 then shift else 14

/-- `snd_scale` once the options have been read. -/
def scaleAfter (scale : U8) (opts : List TcpOption) : U8 := ((windowShift opts).map clampShift).getD scale

/-- How an area begins. -/
theorem splitOptions_cons {n : Nat} {kind : U8} {rest : List U8} {opts : List TcpOption} (h : splitOptions (n + 1) (kind :: rest) = some opts) :
    (kind = 0 ∧ opts = []) ∨
    (kind = TCP_OPT_NOOP ∧ ∃ os, splitOptions n rest = some os ∧ opts = ⟨kind, []⟩ :: os) ∨
    (kind ≠ 0 ∧ kind ≠ TCP_OPT_NOOP ∧ ∃ len d a os, rest = len :: (d ++ a) ∧ len.toNat = 2 + d.length ∧ splitOptions n a = some os ∧
      opts = ⟨kind, d⟩ :: os) := by
  unfold splitOptions at h
  split at h
  next h0 => exact .inl ⟨h0, (Option.some.inj h).symm⟩
  next h0 =>
    split at h
    next h1 =>
      obtain ⟨os, hos, he⟩ := Option.map_eq_some_iff.mp h
      exact .inr (.inl ⟨h1, os, hos, he.symm⟩)
    next h1 =>
      split at h
      · cases h
      next len rest =>
        split at h
        next hlen =>
          obtain ⟨os, hos, he⟩ := Option.map_eq_some_iff.mp h
          refine .inr (.inr ⟨h0, h1, len, _, _, os, ?_, ?_, hos, he.symm⟩)
          · rw [List.take_append_drop]
          · rw [List.length_take]
            omega
        next => cases h

/-! ## The loop -/

/-- What the loop has found to hand to `tcp_sack_mark_write_queue`. -/
def OptScan.handed (o : OptScan) : Option (List (U32 × U32)) := if o.sackSeen then some (o.blocks.take o.nblocks) else none

/-- The loop is at the area `a` of the options. -/
structure OptScan.At (data : List U8) (o : OptScan) (a : List U8) : Prop where
  here : ∃ payload, data.drop o.ptr = a ++ payload
  left : o.optlen.toNat = a.length
  short : a.length < 40

namespace OptScan

variable {data a : List U8} {o : OptScan}

theorem At.getD {x : List U8} (h : o.At data (x ++ a)) {i : Nat} (hi : i < x.length) : data.getD (o.ptr + i) 0 = x.getD i 0 := by
  obtain ⟨payload, hp⟩ := h.here
  rw [List.getD_eq_getElem?_getD, ← List.getElem?_drop, hp, List.append_assoc, List.getElem?_append_left hi, List.getD_eq_getElem?_getD]

/-- Pointer and count move on together. -/
theorem At.advance {x : List U8} (h : o.At data (x ++ a)) {o' : OptScan} (hp : o'.ptr = o.ptr + x.length)
    (hl : o'.optlen = o.optlen - BitVec.ofNat 8 x.length) : o'.At data a := by
  obtain ⟨payload, hh⟩ := h.here
  have hleft := h.left
  have hshort := h.short
  rw [List.length_append] at hleft hshort
  refine ⟨⟨payload, ?_⟩, ?_, by omega⟩
  · rw [hp, ← List.drop_drop, hh, List.append_assoc, List.drop_left]
  · rw [hl, BitVec.toNat_sub, BitVec.toNat_ofNat, hleft]
    omega

end OptScan

theorem scaleAfter_cons (scale : U8) (x : TcpOption) (opts : List TcpOption) :
    scaleAfter scale (x :: opts) = scaleAfter (if x.kind = TCP_OPT_WSO then clampShift (x.data.getD 0 0) else scale) opts := by
  unfold scaleAfter
  rw [windowShift]
  cases windowShift opts with
  | some w => rfl
  | none => split <;> rfl

theorem sackBlocks_cons (x : TcpOption) (opts : List TcpOption) (found : Option (List (U32 × U32))) :
    (sackBlocks (x :: opts)).or found = (sackBlocks opts).or (if x.kind = TCP_OPT_SACK then some x.blocks else found) := by
  rw [sackBlocks]
  cases sackBlocks opts with
  | some bs => rfl
  | none => split <;> rfl

section turn
variable {data a : List U8} {o : OptScan}

/-- **A turn that knows no option there** leaves the pointer where it is. -/
theorem tcpParseOpt_unknown (h : (TcpOption.mk (data.getD o.ptr 0) []).known = false) :
    tcpParseOpt data o = { o with optlen := o.optlen - 1 } := by
  simp only [TcpOption.known, Bool.or_eq_false_iff, decide_eq_false_iff_not] at h
  obtain ⟨⟨⟨⟨⟨h1, h2⟩, h3⟩, h4⟩, h5⟩, h6⟩ := h
  unfold tcpParseOpt
  rw [if_neg h2, if_neg h1, if_neg h4, if_neg h5, if_neg h6, if_neg h3]

/-- From there on the loop finds nothing. -/
theorem tcpParseOptsLoop_unknown (fuel : Nat) (h : (TcpOption.mk (data.getD o.ptr 0) []).known = false) :
    (tcpParseOptsLoop data fuel o).sndScale = o.sndScale ∧ (tcpParseOptsLoop data fuel o).handed = o.handed := by
  induction fuel generalizing o with
  | zero => exact ⟨rfl, rfl⟩
  | succ fuel ih =>
    rw [tcpParseOptsLoop]
    split
    · rw [tcpParseOpt_unknown h]
      exact ih (o := { o with optlen := o.optlen - 1 }) h
    · exact ⟨rfl, rfl⟩

/-- The words of an option are those of its data. -/
theorem be32_data {kind len : U8} {d : List U8} (h : o.At data ([kind, len] ++ d ++ a)) {i : Nat} (hi : i + 3 < d.length) :
    be32 data (o.ptr + 2 + i) = be32 d i := by
  have hbyte : ∀ k ≤ 3, data.getD (o.ptr + 2 + i + k) 0 = d.getD (i + k) 0 := by
    intro k hk
    have hget := h.getD (i := 2 + (i + k)) (by simp; omega)
    rw [List.getD_append_right _ _ _ _ (by simp), List.length_cons, List.length_singleton, Nat.add_sub_cancel_left] at hget
    rw [← hget]
    congr 1
    omega
  dsimp only [be32]
  rw [hbyte 0 (by omega), hbyte 1 (by omega), hbyte 2 (by omega), hbyte 3 (by omega)]

/-- **A turn at an option** that has the length of its kind. -/
theorem tcpParseOpt_known {kind len : U8} {d : List U8} (h : o.At data ([kind, len] ++ d ++ a)) (hlen : len.toNat = 2 + d.length)
    (hnop : kind ≠ TCP_OPT_NOOP) (hk : (TcpOption.mk kind d).known) (hw : (TcpOption.mk kind d).wellFormed) :
    (tcpParseOpt data o).At data a ∧
    (tcpParseOpt data o).sndScale = (if kind = TCP_OPT_WSO then clampShift (d.getD 0 0) else o.sndScale) ∧
    (tcpParseOpt data o).handed = if kind = TCP_OPT_SACK then some (TcpOption.mk kind d).blocks else o.handed := by
  have hkind : data.getD o.ptr 0 = kind := h.getD (i := 0) (by simp)
  have hone : data.getD (o.ptr + 1) 0 = len := h.getD (i := 1) (by simp)
  have hmove : ∀ {o' : OptScan}, o'.ptr = o.ptr + (2 + d.length) → o'.optlen = o.optlen - BitVec.ofNat 8 (2 + d.length) →
      o'.At data a := fun hp hl => h.advance (by simp [hp]; omega) (by rw [hl]; congr 2; simp; omega)
  unfold TcpOption.wellFormed at hw
  dsimp only at hw
  rw [if_neg hnop] at hw
  unfold tcpParseOpt
  dsimp only
  rw [hkind, hone]
  by_cases hmss : kind = TCP_OPT_MSS
  · subst hmss
    have hd : d.length = 2 := by simpa using hw
    exact ⟨hmove (by simp [hd]) (by simp [hd]), rfl, rfl⟩
  rw [if_neg hmss] at hw
  rw [if_neg hmss, if_neg hnop]
  by_cases hwso : kind = TCP_OPT_WSO
  · subst hwso
    have hd : d.length = 1 := by simpa using hw
    have hshift : data.getD (o.ptr + 2) 0 = d.getD 0 0 := by
      have hget := h.getD (i := 2) (by simp [hd])
      exact hget
    refine ⟨hmove (by simp [hd]; rfl) (by simp [hd]; rfl), ?_, rfl⟩
    show (if data.getD (o.ptr + 2) 0 ≤ 14 then data.getD (o.ptr + 2) 0 else 14) = _
    rw [hshift]
    rfl
  rw [if_neg hwso] at hw
  by_cases hok : kind = TCP_OPT_SACK_OK
  · subst hok
    have hd : d.length = 0 := by simpa using hw
    exact ⟨hmove (by simp [hd]) (by simp [hd]), rfl, rfl⟩
  rw [if_neg hok] at hw
  rw [if_neg hok]
  by_cases hsack : kind = TCP_OPT_SACK
  · subst hsack
    have hd : d.length % 8 = 0 := by simpa using hw
    have hshort := h.short
    simp only [List.length_append, List.length_cons, List.length_nil] at hshort
    have hn : sackCount len = d.length / 8 := by
      unfold sackCount
      omega
    rw [if_pos rfl, hn]
    refine ⟨hmove ?_ ?_, rfl, ?_⟩
    · dsimp only
      omega
    · dsimp only
      have hsum : (2 : Nat) + d.length = 2 + 8 * (d.length / 8) := by omega
      rw [hsum, BitVec.ofNat_add]
      bv_omega
    · have hread : (List.range (d.length / 8)).map (fun i => (be32 data (o.ptr + 2 + 8 * i), be32 data (o.ptr + 6 + 8 * i))) =
          (TcpOption.mk TCP_OPT_SACK d).blocks := by
        refine List.map_congr_left fun i hi => ?_
        have hi := List.mem_range.mp hi
        have h6 : o.ptr + 6 + 8 * i = o.ptr + 2 + (8 * i + 4) := by omega
        rw [h6, be32_data h (by omega), be32_data h (by omega)]
      simp only [OptScan.handed, hread, if_true]
      rw [List.take_left' (by simp [TcpOption.blocks])]
  rw [if_neg hsack] at hw
  rw [if_neg hsack]
  by_cases hts : kind = TCP_OPT_TS
  · subst hts
    have hd : d.length = 8 := by simpa using hw
    exact ⟨hmove (by simp [hd]) (by simp [hd]), rfl, rfl⟩
  · simp [TcpOption.known, hnop, hmss, hwso, hok, hsack, hts] at hk

/-- At the end of the area the loop ends. -/
theorem tcpParseOptsLoop_done {fuel : Nat} (h : o.At data []) : tcpParseOptsLoop data fuel o = o := by
  have hleft := h.left
  rw [List.length_nil] at hleft
  cases fuel with
  | zero => rfl
  | succ fuel => rw [tcpParseOptsLoop, if_neg (by bv_omega)]

/-- **What the loop finds**: the options in front of the first it does not know. -/
theorem tcpParseOptsLoop_known {n fuel : Nat} {opts : List TcpOption} (h : o.At data a) (hf : a.length ≤ fuel)
    (hs : splitOptions n a = some opts) (hw : ∀ x ∈ opts, x.wellFormed) :
    (tcpParseOptsLoop data fuel o).sndScale = scaleAfter o.sndScale (opts.takeWhile TcpOption.known) ∧
    (tcpParseOptsLoop data fuel o).handed = (sackBlocks (opts.takeWhile TcpOption.known)).or o.handed := by
  induction n generalizing fuel a o opts with
  | zero =>
    cases a with
    | nil =>
      obtain rfl := Option.some.inj hs
      rw [tcpParseOptsLoop_done h]
      exact ⟨rfl, rfl⟩
    | cons => cases hs
  | succ n ih =>
    cases a with
    | nil =>
      obtain rfl := Option.some.inj hs
      rw [tcpParseOptsLoop_done h]
      exact ⟨rfl, rfl⟩
    | cons kind rest =>
      have hkind : data.getD o.ptr 0 = kind := OptScan.At.getD (x := [kind]) (a := rest) h (i := 0) (by simp)
      obtain ⟨fuel, rfl⟩ : ∃ f, fuel = f + 1 := ⟨fuel - 1, by simp at hf; omega⟩
      have hgo : 0 < o.optlen ∧ o.optlen < 40 := by
        have hl := h.left
        have hs := h.short
        rw [List.length_cons] at hl hs
        constructor <;> bv_omega
      rcases splitOptions_cons hs with ⟨h0, rfl⟩ | ⟨h1, os, hos, rfl⟩ | ⟨h0, h1, len, d, a', os, rfl, hlen, hos, rfl⟩
      · -- End of Option List
        exact tcpParseOptsLoop_unknown _ (by rw [hkind, h0]; rfl)
      · -- NOP
        subst h1
        have hturn : tcpParseOpt data o = { o with ptr := o.ptr + 1, optlen := o.optlen - 1 } := by
          unfold tcpParseOpt
          rw [hkind]
          rfl
        have hat : (tcpParseOpt data o).At data rest := by
          rw [hturn]
          exact OptScan.At.advance (x := [TCP_OPT_NOOP]) h rfl rfl
        have hrec := ih hat (by simpa using hf) hos fun x hx => hw x (List.mem_cons_of_mem _ hx)
        have hnop : (TcpOption.mk TCP_OPT_NOOP []).known := rfl
        rw [tcpParseOptsLoop, if_pos hgo, List.takeWhile_cons, if_pos hnop, scaleAfter_cons, sackBlocks_cons]
        rw [hturn] at hrec ⊢
        exact hrec
      · have hat : o.At data ([kind, len] ++ d ++ a') := h
        cases hk : (TcpOption.mk kind d).known with
        | true =>
          obtain ⟨hmove, hscale, hsack⟩ := tcpParseOpt_known hat hlen h1 hk (hw _ List.mem_cons_self)
          have hfuel : a'.length ≤ fuel := by
            simp only [List.length_cons, List.length_append] at hf
            omega
          have hrec := ih hmove hfuel hos fun x hx => hw x (List.mem_cons_of_mem _ hx)
          rw [hscale, hsack] at hrec
          rw [tcpParseOptsLoop, if_pos hgo, List.takeWhile_cons, if_pos hk, scaleAfter_cons, sackBlocks_cons]
          exact hrec
        | false =>
          rw [List.takeWhile_cons, if_neg (by rw [hk]; exact Bool.false_ne_true)]
          have hnone : (TcpOption.mk (data.getD o.ptr 0) []).known = false := by
            rw [hkind]
            exact hk
          exact tcpParseOptsLoop_unknown _ hnone

end turn

/-! ## The whole area -/

/-- The blocks that `tcp_parse_opts` hands to `tcp_sack_mark_write_queue`, if it calls it. -/
def sackHanded (s : TcpSock) (th : Tcphdr) : Option (List (U32 × U32)) :=
  let o := tcpParseOptsLoop th.data 40 { optlen := (th.hl.setWidth 8 <<< 2) - 20, sndScale := s.sndScale }
  if o.sackSeen && s.sackok then some (o.blocks.take o.nblocks) else none

/-- It does hand them there. -/
theorem tcpParseOpts_handed (s : TcpSock) (th : Tcphdr) : tcpParseOpts s th =
    match sackHanded s th with
    | some bs => tcpSackMarkWriteQueue { s with sndScale := (tcpParseOpts s th).sndScale, tsopt := false } bs
    | none => { s with sndScale := (tcpParseOpts s th).sndScale, tsopt := false } := by
  unfold tcpParseOpts sackHanded
  dsimp only
  split <;> rfl

/-- **A well-formed option area**: `area` is what stands between the twenty bytes
of header and the payload, and it is made of `opts`. -/
structure OptionArea (th : Tcphdr) (area : List U8) (opts : List TcpOption) : Prop where
  here : ∃ payload, th.data = area ++ payload
  hl : 20 + area.length = 4 * th.hl.toNat
  split : splitOptions area.length area = some opts
  wellFormed : ∀ x ∈ opts, x.wellFormed

/-- **The options are read right**: the shift is that of the window-scale option
and the blocks handed on are those of the SACK option. -/
def ReadsOptions (s : TcpSock) (th : Tcphdr) (opts : List TcpOption) : Prop :=
  (tcpParseOpts s th).sndScale = scaleAfter s.sndScale opts ∧ sackHanded s th = if s.sackok then sackBlocks opts else none

/-- The options that `tcp_parse_opts` gets to see: those in front of the first
that it does not know, and none of a full area. -/
def seenOptions (area : List U8) (opts : List TcpOption) : List TcpOption :=
  if area.length < 40 then opts.takeWhile TcpOption.known else []

theorem readsOptions_seen (s : TcpSock) {th : Tcphdr} {area : List U8} {opts : List TcpOption} (h : OptionArea th area opts) :
    ReadsOptions s th (seenOptions area opts) := by
  have hhl := h.hl
  have hbound := th.hl.isLt
  have hoptlen : ((th.hl.setWidth 8 <<< 2) - 20 : U8).toNat = area.length := by
    have hshift : (th.hl.setWidth 8 <<< 2 : U8).toNat = 4 * th.hl.toNat := by
      rw [BitVec.toNat_shiftLeft, BitVec.toNat_setWidth, Nat.shiftLeft_eq]
      omega
    have h20 : (20 : U8).toNat = 20 := rfl
    rw [BitVec.toNat_sub, hshift, h20]
    omega
  let o : OptScan := { optlen := (th.hl.setWidth 8 <<< 2) - 20, sndScale := s.sndScale }
  have hscale : (tcpParseOpts s th).sndScale = (tcpParseOptsLoop th.data 40 o).sndScale := by
    unfold tcpParseOpts
    dsimp only
    split <;> rfl
  have hsack : sackHanded s th = if s.sackok then (tcpParseOptsLoop th.data 40 o).handed else none := by
    unfold sackHanded OptScan.handed
    dsimp only
    cases s.sackok with
    | true => rw [Bool.and_true, if_pos rfl]
    | false => rw [Bool.and_false]; rfl
  unfold ReadsOptions seenOptions
  rw [hscale, hsack]
  split
  next hlt =>
    have hat : o.At th.data area := ⟨h.here, hoptlen, hlt⟩
    obtain ⟨h1, h2⟩ := tcpParseOptsLoop_known hat (Nat.le_of_lt hlt) h.split h.wellFormed
    rw [h1, h2]
    exact ⟨rfl, by rw [show o.handed = none from rfl, Option.or_none]⟩
  next hge =>
    -- the loop is not entered
    have hstop : tcpParseOptsLoop th.data 40 o = o := by
      rw [tcpParseOptsLoop, if_neg]
      have : ¬ o.optlen < 40 := by
        rw [BitVec.lt_def]
        show ¬ ((th.hl.setWidth 8 <<< 2) - 20 : U8).toNat < 40
        omega
      exact fun hh => this hh.2
    rw [hstop]
    exact ⟨rfl, rfl⟩

/-- **Option parsing.** The options of a well-formed area are read right exactly
if those that are seen say the same as all of them. -/
theorem readsOptions_iff (s : TcpSock) {th : Tcphdr} {area : List U8} {opts : List TcpOption} (h : OptionArea th area opts) :
    ReadsOptions s th opts ↔ scaleAfter s.sndScale (seenOptions area opts) = scaleAfter s.sndScale opts ∧
      (s.sackok → sackBlocks (seenOptions area opts) = sackBlocks opts) := by
  obtain ⟨h1, h2⟩ := readsOptions_seen s h
  unfold ReadsOptions
  rw [h1, h2]
  cases s.sackok with
  | true => exact and_congr_right' ⟨fun he _ => he, fun he => he rfl⟩
  | false => exact and_congr_right' ⟨nofun, fun _ => rfl⟩

/-- A SYN-ACK with these bytes behind the header. -/
def optionsHdr (hl : BitVec 4) (data : List U8) : Tcphdr := { seq := 500, ackSeq := 101, hl := hl, syn := true, ack := true, win := 10000, data := data }

/-- MSS 1460, window scale 7. -/
theorem readsOptions_scale : ReadsOptions {} (optionsHdr 7 [2, 4, 5, 0xb4, 1, 3, 3, 7])
    [⟨TCP_OPT_MSS, [5, 0xb4]⟩, ⟨TCP_OPT_NOOP, []⟩, ⟨TCP_OPT_WSO, [7]⟩] :=
  (@readsOptions_iff {} _ [2, 4, 5, 0xb4, 1, 3, 3, 7] _ ⟨⟨[], rfl⟩, by decide, by decide, by decide⟩).mpr
    ⟨by decide, fun _ => by decide⟩

/-- An option of kind 254 hides the window scale behind it, and in a full area
no option is seen. -/
theorem options_hidden :
    (tcpParseOpts {} (optionsHdr 7 [254, 4, 0, 0, 1, 3, 3, 7])).sndScale = 0 ∧
    (tcpParseOpts {} (optionsHdr 15 ([3, 3, 7] ++ List.replicate 37 1))).sndScale = 0 ∧
    ¬ ∀ (s : TcpSock) (th : Tcphdr) (area : List U8) (opts : List TcpOption), OptionArea th area opts → ReadsOptions s th opts := by
  have hunknown : (tcpParseOpts {} (optionsHdr 7 [254, 4, 0, 0, 1, 3, 3, 7])).sndScale = 0 := by decide +kernel
  refine ⟨hunknown, by decide +kernel, fun h => ?_⟩
  have hread := (h {} (optionsHdr 7 [254, 4, 0, 0, 1, 3, 3, 7]) [254, 4, 0, 0, 1, 3, 3, 7]
    [⟨254, [0, 0]⟩, ⟨TCP_OPT_NOOP, []⟩, ⟨TCP_OPT_WSO, [7]⟩] ⟨⟨[], rfl⟩, by decide, by decide, by decide⟩).1
  rw [hunknown] at hread
  exact absurd hread (by decide)

end LevelIp
