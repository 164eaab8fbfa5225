/-
`tcp_parse_opts` as it reads the bytes behind a header, whatever memory they are
in. Every turn of its loop takes something off the 8-bit length that is left, and
what goes below zero comes out above 40; so the loop ends. It asks for one byte
that is left before it reads, and an option may be cut short after its kind.
-/
import LevelIp.FieldReads
import LevelIp.Lib.Loop

namespace LevelIp

open Access

/-! ## The loop -/

/-- `while (optlen > 0 && optlen < 40)`. -/
def OptScan.Going (o : OptScan) : Prop := 0 < o.optlen ∧ o.optlen < 40

instance : DecidablePred OptScan.Going := fun o => inferInstanceAs (Decidable (0 < o.optlen ∧ o.optlen < 40))

/-- `n` SACK blocks at `addr`. -/
def sackBlocksAt : (addr : Int) → (n : Nat) → Prog U8 (List (U32 × U32))
  | _, 0 => return []
  | addr, n + 1 => do
    let left ← ntohlAt addr
    let right ← ntohlAt (addr + 4)
    let blocks ← sackBlocksAt (addr + 8) n
    return (left, right) :: blocks

/-- A turn, with the option bytes at `data`. -/
def tcpParseOptAt (data : Int) (o : OptScan) : Prog U8 OptScan := do
  let ptr := data + o.ptr
  let kind ← Prog.cell ptr
  if kind = TCP_OPT_MSS then return { o with ptr := o.ptr + 4, optlen := o.optlen - 4 }
  else if kind = TCP_OPT_NOOP then return { o with ptr := o.ptr + 1, optlen := o.optlen - 1 }
  else if kind = TCP_OPT_SACK_OK then return { o with ptr := o.ptr + 2, optlen := o.optlen - 2 }
  else if kind = TCP_OPT_SACK then do
    let sackDatalen ← Prog.cell (ptr + 1)
    let n := sackCount sackDatalen
    let blocks ← sackBlocksAt (ptr + 2) n
    return { o with
      ptr := o.ptr + 2 + 8 * n
      optlen := o.optlen - 2 - BitVec.ofNat 8 (8 * n)
      blocks := blocks ++ o.blocks.drop n
      nblocks := n
      sackSeen := true }
  else if kind = TCP_OPT_TS then return { o with ptr := o.ptr + 10, optlen := o.optlen - 10 }
  else if kind = TCP_OPT_WSO then do
    let wso ← Prog.cell (ptr + 2)
    return { o with ptr := o.ptr + 3, optlen := o.optlen - 3, sndScale := if wso ≤ 14 then wso else 14 }
  else return { o with optlen := o.optlen - 1 }

/-- The loop for `fuel` turns at most. -/
def tcpParseOptsLoopAt (data : Int) : (fuel : Nat) → OptScan → Prog U8 OptScan
  | 0, o => return o
  | fuel + 1, o =>
    if o.Going then do
      let o ← tcpParseOptAt data o
      tcpParseOptsLoopAt data fuel o
    else return o

/-- The locals before the loop: `optlen = tcp_hlen(th) - 20`. -/
def OptScan.start (hl : BitVec 4) (scale : U8) : OptScan := { optlen := (hl.setWidth 8 <<< 2) - 20, sndScale := scale }

/-- The loop of `tcp_parse_opts` for a header with the data offset `hl`. -/
def tcpParseOptsAt (data : Int) (hl : BitVec 4) (scale : U8) : Prog U8 OptScan :=
  tcpParseOptsLoopAt data 40 (.start hl scale)

namespace OptScan

/-- What a turn makes of the locals. -/
def turn (mem : Memory.Mem U8) (data : Int) (o : OptScan) : OptScan := (tcpParseOptAt data o).val mem

/-- How much a turn takes off `optlen`. -/
def taken (mem : Memory.Mem U8) (data : Int) (o : OptScan) : Nat :=
  let kind := mem (data + o.ptr)
  if kind = TCP_OPT_MSS then 4
  else if kind = TCP_OPT_NOOP then 1
  else if kind = TCP_OPT_SACK_OK then 2
  else if kind = TCP_OPT_SACK then 2 + 8 * sackCount (mem (data + o.ptr + 1))
  else if kind = TCP_OPT_TS then 10
  else if kind = TCP_OPT_WSO then 3
  else 1

end OptScan

/-! ## It ends -/

theorem sackCount_le (n : U8) : sackCount n ≤ 4 := Nat.min_le_right _ _

namespace OptScan

variable {mem : Memory.Mem U8} {data : Int} {o : OptScan}

theorem taken_bounds (mem : Memory.Mem U8) (data : Int) (o : OptScan) : 1 ≤ o.taken mem data ∧ o.taken mem data ≤ 34 := by
  have hle := sackCount_le (mem (data + o.ptr + 1))
  unfold taken
  dsimp only
  split_ifs <;> omega

theorem turn_optlen (mem : Memory.Mem U8) (data : Int) (o : OptScan) :
    (o.turn mem data).optlen = o.optlen - BitVec.ofNat 8 (o.taken mem data) := by
  have hsack : ∀ n, o.optlen - 2 - BitVec.ofNat 8 (8 * n) = o.optlen - BitVec.ofNat 8 (2 + 8 * n) := fun n => by
    rw [BitVec.ofNat_add]
    bv_omega
  unfold turn tcpParseOptAt taken
  dsimp only
  rw [Prog.val_bind, Prog.val_cell]
  generalize mem (data + o.ptr) = kind
  split
  · rfl
  split
  · rfl
  split
  · rfl
  split
  · rw [Prog.val_bind, Prog.val_bind, Prog.val_cell]
    exact hsack _
  split
  · rfl
  split
  · rfl
  · rfl

theorem going_iff : o.Going ↔ 0 < o.optlen.toNat ∧ o.optlen.toNat < 40 := Iff.rfl

/-- While the loop goes on, a turn either lowers the length or wraps it out of the
range of the loop. -/
theorem toNat_turn_optlen (h : o.Going) : (o.turn mem data).optlen.toNat =
    if o.taken mem data ≤ o.optlen.toNat then o.optlen.toNat - o.taken mem data else o.optlen.toNat + 256 - o.taken mem data := by
  have hb := taken_bounds mem data o
  have hlt := (going_iff.mp h).2
  rw [turn_optlen, BitVec.toNat_sub, BitVec.toNat_ofNat]
  split <;> omega

end OptScan

/-- The loop makes at most 39 turns. What a turn takes off the length is 1 to 34,
and where that is more than is left the length comes out of the range of the
loop. A run that is given 39 turns or more does not need them. -/
structure OptionLoopEnds (mem : Memory.Mem U8) (data : Int) (o : OptScan) : Prop where
  ends : ∃ n ≤ 39, Loop.EndsAfter OptScan.Going (OptScan.turn mem data) n o
  takes : ∀ o', (OptScan.turn mem data o').optlen = o'.optlen - BitVec.ofNat 8 (o'.taken mem data)
  wraps : ∀ o', o'.Going → o'.optlen.toNat < o'.taken mem data → 40 ≤ (OptScan.turn mem data o').optlen.toNat
  returns : ∀ fuel, 39 ≤ fuel → ¬ ((tcpParseOptsLoopAt data fuel o).val mem).Going

theorem val_tcpParseOptsLoopAt (mem : Memory.Mem U8) (data : Int) (fuel : Nat) (o : OptScan) :
    (tcpParseOptsLoopAt data fuel o).val mem = Loop.run OptScan.Going (OptScan.turn mem data) fuel o := by
  induction fuel generalizing o with
  | zero => rfl
  | succ fuel ih =>
    rw [tcpParseOptsLoopAt, Loop.run]
    split
    · rw [Prog.val_bind, ih]
      rfl
    · rfl

theorem tcpParseOptsAt_ends (mem : Memory.Mem U8) (data : Int) (hl : BitVec 4) (scale : U8) :
    OptionLoopEnds mem data (.start hl scale) := by
  -- the measure is the length, which is below 40 while the loop goes on
  have hpos : ∀ o : OptScan, o.Going → 0 < if o.Going then o.optlen.toNat else 0 := fun o ho => by
    rw [if_pos ho]
    exact (OptScan.going_iff.mp ho).1
  have hlt : ∀ o : OptScan, o.Going → (o.turn mem data).Going →
      (if (o.turn mem data).Going then (o.turn mem data).optlen.toNat else 0) < if o.Going then o.optlen.toNat else 0 := by
    intro o ho hnext
    have hturn : (o.turn mem data).optlen.toNat = _ := OptScan.toNat_turn_optlen ho
    have hb := OptScan.taken_bounds mem data o
    have hr := OptScan.going_iff.mp hnext
    have hr' := OptScan.going_iff.mp ho
    rw [if_pos ho, if_pos hnext]
    split at hturn <;> omega
  obtain ⟨n, hn, hends⟩ := Loop.exists_endsAfter hpos hlt (OptScan.start hl scale)
  have hn' : n ≤ 39 := by
    split at hn
    next h =>
      have := (OptScan.going_iff.mp h).2
      omega
    next => omega
  refine ⟨⟨n, hn', hends⟩, OptScan.turn_optlen mem data, fun o ho hw => ?_, fun fuel hf => ?_⟩
  · have hb := OptScan.taken_bounds mem data o
    rw [OptScan.toNat_turn_optlen ho, if_neg (by omega)]
    omega
  · rw [val_tcpParseOptsLoopAt, hends.run_eq (by omega)]
    exact hends.stops

/-! ## Over the bytes of a header -/

theorem val_sackBlocksAt (m : List U8) (i n : Nat) : (sackBlocksAt i n).val (frameMem m) =
    (List.range n).map fun k => (be32 m (i + 8 * k), be32 m (i + 4 + 8 * k)) := by
  induction n generalizing i with
  | zero => rfl
  | succ n ih =>
    have hleft : (ntohlAt (i + 4 : Int)).val (frameMem m) = be32 m (i + 4) := val_ntohlAt m (i + 4)
    have hrest : (sackBlocksAt (i + 8 : Int) n).val (frameMem m) = _ := ih (i + 8)
    rw [sackBlocksAt, Prog.val_bind, Prog.val_bind, Prog.val_bind, Prog.val_pure, val_ntohlAt, hleft, hrest,
      List.range_succ_eq_map, List.map_cons, List.map_map]
    refine congrArg (_ :: ·) (List.map_congr_left fun k _ => ?_)
    simp only [Function.comp_apply, Nat.succ_eq_add_one]
    congr 2 <;> omega

/-- It is the turn over the bytes. -/
theorem turn_frameMem (m : List U8) (o : OptScan) : o.turn (frameMem m) 0 = tcpParseOpt m o := by
  have h0 : frameMem m (0 + (o.ptr : Int)) = m.getD o.ptr 0 := by rw [Int.zero_add, frameMem_cast]
  have hat : ∀ k : Nat, frameMem m (0 + (o.ptr : Int) + k) = m.getD (o.ptr + k) 0 := fun k => by rw [Int.zero_add, frameMem_add]
  have hblocks : ∀ n, (sackBlocksAt (0 + (o.ptr : Int) + 2) n).val (frameMem m) =
      (List.range n).map fun i => (be32 m (o.ptr + 2 + 8 * i), be32 m (o.ptr + 6 + 8 * i)) := fun n => by
    have h := val_sackBlocksAt m (o.ptr + 2) n
    rwa [show ((o.ptr + 2 : Nat) : Int) = 0 + (o.ptr : Int) + 2 by omega] at h
  have h1 : frameMem m (0 + (o.ptr : Int) + 1) = m.getD (o.ptr + 1) 0 := hat 1
  have h2 : frameMem m (0 + (o.ptr : Int) + 2) = m.getD (o.ptr + 2) 0 := hat 2
  unfold OptScan.turn tcpParseOptAt tcpParseOpt
  dsimp only
  rw [Prog.val_bind, Prog.val_cell, h0]
  generalize m.getD o.ptr 0 = kind
  split
  · rfl
  split
  · rfl
  split
  · rfl
  split
  · rw [Prog.val_bind, Prog.val_bind, Prog.val_cell, h1, hblocks, Prog.val_pure]
  split
  · rfl
  split
  · rw [Prog.val_bind, Prog.val_cell, h2, Prog.val_pure]
  · rfl

/-- **The loop over a header's bytes** is that of `tcp_parse_opts` on them. -/
theorem val_tcpParseOptsAt (m : List U8) (hl : BitVec 4) (scale : U8) :
    (tcpParseOptsAt 0 hl scale).val (frameMem m) = tcpParseOptsLoop m 40 (.start hl scale) := by
  rw [tcpParseOptsAt, val_tcpParseOptsLoopAt]
  generalize OptScan.start hl scale = o
  generalize 40 = fuel
  induction fuel generalizing o with
  | zero => rfl
  | succ fuel ih =>
    rw [Loop.run, tcpParseOptsLoop, turn_frameMem]
    exact if_congr Iff.rfl (ih _) rfl

/-! ## What is read -/

/-- **Areas that the parser keeps to**: no SACK option lacks its length byte or one
of the blocks that are copied for it, and no window scale its shift. The lengths
are those the parser goes by; at a kind it does not know it stays. -/
def OptionsEnclosed : List U8 → Prop
  | [] => True
  | kind :: rest =>
    if kind = TCP_OPT_MSS then OptionsEnclosed (rest.drop 3)
    else if kind = TCP_OPT_NOOP then OptionsEnclosed rest
    else if kind = TCP_OPT_SACK_OK then OptionsEnclosed (rest.drop 1)
    else if kind = TCP_OPT_SACK then
      let n := sackCount (rest.getD 0 0)
      1 + 8 * n ≤ rest.length ∧ OptionsEnclosed (rest.drop (1 + 8 * n))
    else if kind = TCP_OPT_TS then OptionsEnclosed (rest.drop 9)
    else if kind = TCP_OPT_WSO then 2 ≤ rest.length ∧ OptionsEnclosed (rest.drop 2)
    else True
termination_by a => a.length
decreasing_by all_goals simp only [List.length_drop, List.length_cons]; omega

section within
variable {mem : Memory.Mem U8} {R : Int → Prop} {data : Int} {o : OptScan}

theorem within_sackBlocksAt {addr : Int} {n : Nat} :
    (sackBlocksAt addr n).Within mem R ↔ ∀ a, addr ≤ a → a < addr + 8 * n → R a := by
  induction n generalizing addr with
  | zero => exact iff_of_true (Prog.within_pure _) fun a h h' => by omega
  | succ n ih =>
    have hword : ∀ addr, (ntohlAt addr).Within mem R ↔ ∀ a, addr ≤ a → a < addr + 4 → R a := fun addr => by
      refine ⟨fun h a ha hlt => ?_, within_ntohlAt⟩
      simp only [ntohlAt, Prog.within_bind_iff, Prog.within_cell_iff] at h
      obtain rfl | rfl | rfl | rfl : a = addr ∨ a = addr + 1 ∨ a = addr + 2 ∨ a = addr + 3 := by omega
      · exact h.1
      · exact h.2.1
      · exact h.2.2.1
      · exact h.2.2.2.1
    rw [sackBlocksAt, Prog.within_bind_iff, Prog.within_bind_iff, Prog.within_bind_iff, hword, hword, ih]
    refine ⟨fun h a ha hlt => ?_, fun h => ⟨fun a ha hlt => h a ha (by omega), fun a ha hlt => h a (by omega) (by omega),
      fun a ha hlt => h a (by omega) (by omega), Prog.within_pure _⟩⟩
    obtain ⟨h0, h4, h8, -⟩ := h
    by_cases hr : a < addr + 8
    · by_cases hl : a < addr + 4
      · exact h0 a ha hl
      · exact h4 a (by omega) (by omega)
    · exact h8 a (by omega) (by omega)

end within

/-- The loop is before `area`, which ends at `stop`. -/
structure OptScan.Before (mem : Memory.Mem U8) (data stop : Int) (o : OptScan) (area : List U8) : Prop where
  here : Memory.read mem (data + o.ptr) area.length = area
  left : o.optlen.toNat = area.length
  short : area.length < 40
  ends : data + o.ptr + area.length = stop

namespace OptScan.Before

variable {mem : Memory.Mem U8} {data stop : Int} {o o' : OptScan} {area rest : List U8} {kind : U8} {d fuel : Nat}

theorem going_iff (h : o.Before mem data stop area) : o.Going ↔ area ≠ [] := by
  have hleft := h.left
  have hshort := h.short
  rw [OptScan.going_iff, hleft, ← List.length_pos_iff_ne_nil]
  exact and_iff_left hshort

/-- Pointer and length move on together. -/
theorem skip (h : o.Before mem data stop area) (hd : d ≤ area.length) (hp : o'.ptr = o.ptr + d)
    (hl : o'.optlen = o.optlen - BitVec.ofNat 8 d) : o'.Before mem data stop (area.drop d) := by
  have hleft := h.left
  have hshort := h.short
  have hends := h.ends
  have hlen : (area.drop d).length = area.length - d := List.length_drop
  refine ⟨?_, ?_, by omega, by omega⟩
  · have hsplit := Memory.read_add mem (data + o.ptr) d (area.length - d)
    rw [Nat.add_sub_cancel' hd, h.here] at hsplit
    have hdrop := congrArg (List.drop d) hsplit
    rw [List.drop_left' (Memory.length_read _ _ _)] at hdrop
    rw [hlen, hp, Nat.cast_add, ← Int.add_assoc, ← hdrop]
  · rw [hl, BitVec.toNat_sub, BitVec.toNat_ofNat, hlen, hleft]
    omega

/-- What is not there wraps the length. -/
theorem wrapped (h : o.Before mem data stop area) (hd : area.length < d) (hd' : d ≤ 34) (hl : o'.optlen = o.optlen - BitVec.ofNat 8 d) :
    ¬ o'.Going := by
  have hleft := h.left
  have hout : o'.optlen.toNat = area.length + 256 - d := by
    rw [hl, BitVec.toNat_sub, BitVec.toNat_ofNat, hleft]
    omega
  rw [OptScan.going_iff, hout]
  omega

theorem kind_eq (h : o.Before mem data stop (kind :: rest)) : mem (data + o.ptr) = kind ∧
    Memory.read mem (data + o.ptr + 1) rest.length = rest := by
  have hhere := h.here
  have hone : Memory.read mem (data + o.ptr) 1 = [mem (data + o.ptr)] := by simp [Memory.read]
  rw [List.length_cons, Nat.add_comm, Memory.read_add, hone, Nat.cast_one] at hhere
  exact List.cons.inj hhere

/-- The byte behind the kind, where there is one. -/
theorem second_eq (h : o.Before mem data stop (kind :: rest)) (hr : rest ≠ []) : mem (data + o.ptr + 1) = rest.getD 0 0 := by
  have hread := h.kind_eq.2
  obtain ⟨len, rest', rfl⟩ := List.exists_cons_of_ne_nil hr
  have hone : Memory.read mem (data + o.ptr + 1) 1 = [mem (data + o.ptr + 1)] := by simp [Memory.read]
  rw [List.length_cons, Nat.add_comm, Memory.read_add, hone] at hread
  exact (List.cons.inj hread).1

end OptScan.Before

section loops
variable {mem : Memory.Mem U8} {R : Int → Prop} {data stop : Int} {o : OptScan} {area : List U8} {fuel : Nat}

theorem within_loop_of_not (h : ¬ o.Going) : (tcpParseOptsLoopAt data fuel o).Within mem R := by
  cases fuel with
  | zero => exact Prog.within_pure _
  | succ fuel =>
    rw [tcpParseOptsLoopAt, if_neg h]
    exact Prog.within_pure _

/-- A kind the parser has no case for. -/
def unknownKind (kind : U8) : Prop :=
  kind ≠ TCP_OPT_MSS ∧ kind ≠ TCP_OPT_NOOP ∧ kind ≠ TCP_OPT_SACK_OK ∧ kind ≠ TCP_OPT_SACK ∧ kind ≠ TCP_OPT_TS ∧ kind ≠ TCP_OPT_WSO

/-- At such a kind the parser reads the same byte until it has counted down. -/
theorem within_loop_unknown (hk : unknownKind (mem (data + o.ptr))) (hR : R (data + o.ptr)) :
    (tcpParseOptsLoopAt data fuel o).Within mem R := by
  induction fuel generalizing o with
  | zero => exact Prog.within_pure _
  | succ fuel ih =>
    obtain ⟨h1, h2, h3, h4, h5, h6⟩ := id hk
    rw [tcpParseOptsLoopAt]
    split
    · have hturn : (tcpParseOptAt data o).val mem = { o with optlen := o.optlen - 1 } := by
        rw [tcpParseOptAt, Prog.val_bind, Prog.val_cell, if_neg h1, if_neg h2, if_neg h3, if_neg h4, if_neg h5, if_neg h6, Prog.val_pure]
      refine Prog.within_bind (Prog.within_bind (Prog.within_cell hR) ?_) ?_
      · rw [Prog.val_cell, if_neg h1, if_neg h2, if_neg h3, if_neg h4, if_neg h5, if_neg h6]
        exact Prog.within_pure _
      · rw [hturn]
        exact ih hk hR
    · exact Prog.within_pure _

/-- **The loop before an area** keeps to it exactly if nothing that is read there is
cut off. -/
theorem within_loop_iff (h : o.Before mem data stop area) (hf : area.length ≤ fuel) (hfrom : data ≤ data + o.ptr) :
    (tcpParseOptsLoopAt data fuel o).Within mem (fun a => data ≤ a ∧ a < stop) ↔ OptionsEnclosed area := by
  induction fuel generalizing o area with
  | zero =>
    obtain rfl : area = [] := List.length_eq_zero_iff.mp (by omega)
    refine iff_of_true (Prog.within_pure _) ?_
    rw [OptionsEnclosed]
    trivial
  | succ fuel ih =>
    cases area with
    | nil =>
      refine iff_of_true (within_loop_of_not fun hg => (h.going_iff.mp hg) rfl) ?_
      rw [OptionsEnclosed]
      trivial
    | cons kind rest =>
      have hends := h.ends
      rw [List.length_cons] at hends hf
      have hR : data ≤ data + o.ptr ∧ data + o.ptr < stop := by omega
      -- what the rest of the loop reads once the turn has taken `d` bytes
      have hskip : ∀ (d : Nat) (o' : OptScan), 1 ≤ d → d ≤ 34 → o'.ptr = o.ptr + d → o'.optlen = o.optlen - BitVec.ofNat 8 d →
          ((tcpParseOptsLoopAt data fuel o').Within mem (fun a => data ≤ a ∧ a < stop) ↔ OptionsEnclosed (rest.drop (d - 1))) := by
        intro d o' hd hd' hp hl
        obtain ⟨e, rfl⟩ : ∃ e, d = e + 1 := ⟨d - 1, by omega⟩
        by_cases hle : e + 1 ≤ (kind :: rest).length
        · have hb := h.skip hle hp hl
          rw [List.drop_succ_cons] at hb
          refine ih hb ?_ (by omega)
          rw [List.length_drop]
          omega
        · have hnil : rest.drop e = [] := List.drop_of_length_le (by rw [List.length_cons] at hle; omega)
          refine iff_of_true (within_loop_of_not (h.wrapped (by omega) hd' hl)) ?_
          rw [Nat.add_sub_cancel, hnil, OptionsEnclosed]
          trivial
      rw [tcpParseOptsLoopAt, if_pos (h.going_iff.mpr (List.cons_ne_nil _ _)), Prog.within_bind_iff, tcpParseOptAt, Prog.within_bind_iff,
        Prog.val_bind, Prog.val_cell, h.kind_eq.1, Prog.within_cell_iff, and_iff_right hR, OptionsEnclosed]
      by_cases h1 : kind = TCP_OPT_MSS
      · rw [if_pos h1, if_pos h1, Prog.within_pure_iff, true_and]
        exact hskip 4 _ (by omega) (by omega) rfl rfl
      rw [if_neg h1, if_neg h1]
      by_cases h2 : kind = TCP_OPT_NOOP
      · rw [if_pos h2, if_pos h2, Prog.within_pure_iff, true_and]
        exact hskip 1 _ (by omega) (by omega) rfl rfl
      rw [if_neg h2, if_neg h2]
      by_cases h3 : kind = TCP_OPT_SACK_OK
      · rw [if_pos h3, if_pos h3, Prog.within_pure_iff, true_and]
        exact hskip 2 _ (by omega) (by omega) rfl rfl
      rw [if_neg h3, if_neg h3]
      by_cases h4 : kind = TCP_OPT_SACK
      · rw [if_pos h4, if_pos h4, Prog.within_bind_iff, Prog.within_cell_iff, Prog.val_bind, Prog.val_cell, Prog.within_bind_iff,
          Prog.within_pure_iff, and_true, within_sackBlocksAt, Prog.val_bind, Prog.val_pure]
        dsimp only
        by_cases hr : rest = []
        · subst hr
          rw [List.length_nil] at hends
          refine iff_of_false (fun hw => ?_) fun hw => ?_
          · have := hw.1.1.2
            omega
          · have := hw.1
            rw [List.length_nil] at this
            omega
        · have hpos := List.length_pos_iff.mpr hr
          rw [h.second_eq hr]
          generalize hn : sackCount (rest.getD 0 0) = n
          have hle : n ≤ 4 := hn ▸ sackCount_le _
          have hlen : ∀ x : U8, x - 2 - BitVec.ofNat 8 (8 * n) = x - BitVec.ofNat 8 (2 + 8 * n) := fun x => by
            rw [BitVec.ofNat_add]
            bv_omega
          refine and_congr ?_ ((hskip (2 + 8 * n) _ (by omega) (by omega) (Nat.add_assoc _ _ _) (hlen _)).trans ?_)
          · refine ⟨fun hw => ?_, fun hw => ⟨by omega, fun a ha hlt => by omega⟩⟩
            obtain ⟨-, hblocks⟩ := hw
            by_contra hcut
            have hlast := hblocks (data + o.ptr + 2 + 8 * n - 1) (by omega) (by omega)
            omega
          · rw [show 2 + 8 * n - 1 = 1 + 8 * n by omega]
      rw [if_neg h4, if_neg h4]
      by_cases h5 : kind = TCP_OPT_TS
      · rw [if_pos h5, if_pos h5, Prog.within_pure_iff, true_and]
        exact hskip 10 _ (by omega) (by omega) rfl rfl
      rw [if_neg h5, if_neg h5]
      by_cases h6 : kind = TCP_OPT_WSO
      · rw [if_pos h6, if_pos h6, Prog.within_bind_iff, Prog.within_cell_iff, Prog.within_pure_iff, and_true]
        refine and_congr ?_ (hskip 3 _ (by omega) (by omega) rfl rfl)
        omega
      rw [if_neg h6, if_neg h6, Prog.within_pure_iff, true_and, iff_true]
      have hk : unknownKind (mem (data + o.ptr)) := by
        rw [h.kind_eq.1]
        exact ⟨h1, h2, h3, h4, h5, h6⟩
      exact within_loop_unknown hk hR

end loops

/-- The length before the loop; a data offset below 5 wraps it. -/
theorem toNat_start_optlen (hl : BitVec 4) (scale : U8) : (OptScan.start hl scale).optlen.toNat =
    if 5 ≤ hl.toNat then 4 * hl.toNat - 20 else 236 + 4 * hl.toNat := by
  have hall : ∀ hl : BitVec 4, ((hl.setWidth 8 <<< 2) - 20 : U8).toNat = if 5 ≤ hl.toNat then 4 * hl.toNat - 20 else 236 + 4 * hl.toNat := by
    decide
  exact hall hl

/-- Every byte that is read lies in the option area of a header with the data
offset `hl`. -/
def ReadsInside (mem : Memory.Mem U8) (data : Int) (hl : BitVec 4) (scale : U8) : Prop :=
  (tcpParseOptsAt data hl scale).Within mem fun a => data ≤ a ∧ a < data + (4 * hl.toNat - 20 : Nat)

/-- **`tcp_parse_opts` reads only the option area** exactly if nothing in it is cut
off, or it has 40 bytes and is not looked at. -/
theorem tcpParseOptsAt_inside_iff (mem : Memory.Mem U8) (data : Int) (hl : BitVec 4) (scale : U8) :
    ReadsInside mem data hl scale ↔ hl = 15 ∨ OptionsEnclosed (Memory.read mem data (4 * hl.toNat - 20)) := by
  have hlen := toNat_start_optlen hl scale
  have hlt := hl.isLt
  have hptr : data + (OptScan.start hl scale).ptr = data := Int.add_zero data
  by_cases h15 : hl = 15
  · refine iff_of_true (within_loop_of_not ?_) (.inl h15)
    rw [OptScan.going_iff, hlen, h15]
    decide
  · have hne : hl.toNat ≠ 15 := fun h => h15 (BitVec.eq_of_toNat_eq h)
    rw [ReadsInside, or_iff_right h15]
    by_cases h5 : 5 ≤ hl.toNat
    · rw [if_pos h5] at hlen
      have hread : (Memory.read mem data (4 * hl.toNat - 20)).length = 4 * hl.toNat - 20 := Memory.length_read _ _ _
      refine within_loop_iff ⟨?_, ?_, ?_, ?_⟩ ?_ (by omega)
      · rw [hread, hptr]
      · rw [hlen, hread]
      · rw [hread]
        omega
      · rw [hread, hptr]
      · rw [hread]
        omega
    · rw [if_neg h5] at hlen
      have hnone : 4 * hl.toNat - 20 = 0 := by omega
      refine iff_of_true (within_loop_of_not ?_) ?_
      · rw [OptScan.going_iff, hlen]
        omega
      · rw [hnone]
        unfold Memory.read
        rw [List.range_zero, List.map_nil, OptionsEnclosed]
        trivial

/-- A SACK option of which only the kind is left: its length byte is read behind the
four bytes of the area. -/
theorem sack_length_outside : ¬ ReadsInside (frameMem [TCP_OPT_NOOP, TCP_OPT_NOOP, TCP_OPT_NOOP, TCP_OPT_SACK]) 0 6 0 := by
  intro h
  have hreads : (4 : Int) ∈ (tcpParseOptsAt 0 6 0).reads (frameMem [TCP_OPT_NOOP, TCP_OPT_NOOP, TCP_OPT_NOOP, TCP_OPT_SACK]) := by
    decide +kernel
  have hlt := (h 4 hreads).2
  exact absurd hlt (by decide)

end LevelIp
