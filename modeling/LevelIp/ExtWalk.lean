/-
The loop of `ipv6_parse_exthdrs` with its own variables: a pointer and a 16-bit
counter that are kept side by side. Each header is held against `plen` before
the counter moves, so neither leaves the payload.
-/
import LevelIp.ExtHeaders
import LevelIp.FieldReads

namespace LevelIp

open Access

/-! ## The loop -/

/-- The variables of the loop, with the fields of `result` that it has set. -/
structure ExthdrWalk where
  nexthdr : U8
  ptr : Int
  consumed : U16 := 0
  hasFrag : Bool := false
  fragOff : U16 := 0
  fragId : U32 := 0
deriving DecidableEq

/-- How a turn ends. -/
inductive ExthdrTurn
  | ok
  | error
  | next (w : ExthdrWalk)
deriving DecidableEq

namespace ExthdrWalk

/-- The result the call returns. -/
def result (w : ExthdrWalk) : ExthdrResult where
  finalNexthdr := w.nexthdr
  fragOff := if w.hasFrag then some w.fragOff else none
  consumed := w.consumed.toNat

/-- `ptr += len` and `consumed += len`. -/
def advance (w : ExthdrWalk) (len : U16) (nexthdr : U8) : ExthdrWalk :=
  { w with nexthdr := nexthdr, ptr := w.ptr + len.toNat, consumed := w.consumed + len }

/-- What a Fragment header leaves in `result`. -/
def setFrag (w : ExthdrWalk) (fragOff : U16) (fragId : U32) : ExthdrWalk :=
  { w with hasFrag := true, fragOff := (fragOff &&& 0xFFF8) >>> 3, fragId := fragId }

/-- A turn of the loop; the sums that are compared with `plen` are `int`s. -/
def turn (plen : U16) (w : ExthdrWalk) : Prog U8 ExthdrTurn :=
  if endsChain w.nexthdr then return .ok
  else if isOptHdr w.nexthdr then
    if plen.toNat < w.consumed.toNat + 2 then return .error
    else do
      let hdrlen ← Prog.cell (w.ptr + 1)
      let optlen : U16 := (hdrlen.setWidth 16 + 1) * 8
      if plen.toNat < w.consumed.toNat + optlen.toNat then return .error
      else
        let nexthdr ← Prog.cell w.ptr
        return .next (w.advance optlen nexthdr)
  else if w.nexthdr = NEXTHDR_FRAGMENT then
    if plen.toNat < w.consumed.toNat + 8 then return .error
    else do
      let fragOff ← ntohsAt (w.ptr + 2)
      let fragId ← ntohlAt (w.ptr + 4)
      let nexthdr ← Prog.cell w.ptr
      return .next ((w.setFrag fragOff fragId).advance 8 nexthdr)
  else return .error

/-- The loop, with the variables at the beginning of each turn and at its end; it
tells whether the call succeeds. -/
def loop (plen : U16) : (turns : Nat) → ExthdrWalk → Prog U8 (List ExthdrWalk × Bool)
  | 0, w => return ([w], false)
  | turns + 1, w => do
    match ← w.turn plen with
    | .ok => return ([w], true)
    | .error => return ([w], false)
    | .next w' =>
      let (ws, ok) ← loop plen turns w'
      return (w :: ws, ok)

end ExthdrWalk

/-- `ipv6_parse_exthdrs`. -/
def ipv6ParseExthdrsAt (nexthdr : U8) (start : Int) (plen : U16) : Prog U8 (List ExthdrWalk × Bool) :=
  ExthdrWalk.loop plen 8 { nexthdr := nexthdr, ptr := start }

/-! ## What is asked -/

/-- From one turn to the next the counter has not wrapped, and the pointer has
moved with it. -/
def ExthdrWalk.Moved (w w' : ExthdrWalk) : Prop :=
  ∃ len : U16, w'.consumed = w.consumed + len ∧ w.consumed.toNat + len.toNat < 2 ^ 16 ∧ w'.ptr = w.ptr + len.toNat

/-- The walk over the payload at `start` is in bounds. -/
structure WalksInside (mem : Memory.Mem U8) (nexthdr : U8) (start : Int) (plen : U16) : Prop where
  reads : (ipv6ParseExthdrsAt nexthdr start plen).Within mem fun a => start ≤ a ∧ a < start + plen.toNat
  moved : ((ipv6ParseExthdrsAt nexthdr start plen).val mem).1.IsChain ExthdrWalk.Moved
  units : ∀ w ∈ ((ipv6ParseExthdrsAt nexthdr start plen).val mem).1, w.consumed.toNat % 8 = 0
  success : ((ipv6ParseExthdrsAt nexthdr start plen).val mem).2 = true →
    ∃ w, ((ipv6ParseExthdrsAt nexthdr start plen).val mem).1.getLast? = some w ∧ w.consumed.toNat ≤ plen.toNat ∧
      w.ptr - start = w.consumed.toNat

/-! ## A turn -/

namespace ExthdrWalk

/-- Pointer and counter are side by side, within the payload. -/
structure InStep (start : Int) (plen : U16) (w : ExthdrWalk) : Prop where
  within : w.consumed.toNat ≤ plen.toNat
  units : w.consumed.toNat % 8 = 0
  ptr : w.ptr = start + w.consumed.toNat

section turns
variable {mem : Memory.Mem U8} {start : Int} {plen : U16} {w w' : ExthdrWalk} {turns : Nat}

theorem toNat_optlen (hdrlen : U8) : ((hdrlen.setWidth 16 + 1) * 8 : U16).toNat = (hdrlen.toNat + 1) * 8 := by
  have hlt := hdrlen.isLt
  have hone : (1 : U16).toNat = 1 := rfl
  have height : (8 : U16).toNat = 8 := rfl
  rw [BitVec.toNat_mul, BitVec.toNat_add, BitVec.toNat_setWidth, hone, height]
  omega

/-- A header that is within the payload is passed. -/
theorem InStep.advance (h : InStep start plen w) {len : U16} (hlen : w.consumed.toNat + len.toNat ≤ plen.toNat)
    (hunits : len.toNat % 8 = 0) (nexthdr : U8) : w.Moved (w.advance len nexthdr) ∧ InStep start plen (w.advance len nexthdr) := by
  have hlt := plen.isLt
  have hsum : (w.consumed + len).toNat = w.consumed.toNat + len.toNat := by
    rw [BitVec.toNat_add]
    omega
  have hu := h.units
  refine ⟨⟨len, rfl, by omega, rfl⟩, ?_, ?_, ?_⟩
  · exact hsum ▸ hlen
  · change (w.consumed + len).toNat % 8 = 0
    omega
  · change w.ptr + len.toNat = start + (w.consumed + len).toNat
    rw [hsum, h.ptr]
    omega

theorem InStep.setFrag (h : InStep start plen w) (fragOff : U16) (fragId : U32) : InStep start plen (w.setFrag fragOff fragId) :=
  ⟨h.within, h.units, h.ptr⟩

theorem frag_room (h : ¬ plen.toNat < w.consumed.toNat + 8) : w.consumed.toNat + (8 : U16).toNat ≤ plen.toNat := not_lt.mp h

theorem turn_within (h : InStep start plen w) : (w.turn plen).Within mem fun a => start ≤ a ∧ a < start + plen.toNat := by
  have hptr := h.ptr
  unfold turn
  split
  · exact Prog.within_pure _
  split
  · split
    · exact Prog.within_pure _
    next hroom =>
      refine Prog.within_bind (Prog.within_cell (by omega)) ?_
      dsimp only
      split
      · exact Prog.within_pure _
      · exact Prog.within_bind (Prog.within_cell (by omega)) (Prog.within_pure _)
  split
  · split
    · exact Prog.within_pure _
    next hroom =>
      refine Prog.within_bind (within_ntohsAt (by omega) (by omega)) ?_
      refine Prog.within_bind (within_ntohlAt fun a ha hlt => by omega) ?_
      exact Prog.within_bind (Prog.within_cell (by omega)) (Prog.within_pure _)
  · exact Prog.within_pure _

theorem turn_next (h : InStep start plen w) (ht : (w.turn plen).val mem = .next w') : w.Moved w' ∧ InStep start plen w' := by
  unfold turn at ht
  split at ht
  · cases ht
  split at ht
  · split at ht
    · cases ht
    · rw [Prog.val_bind, Prog.val_cell] at ht
      dsimp only at ht
      split at ht
      · cases ht
      next hroom =>
        cases ht
        refine h.advance (by omega) ?_ _
        rw [toNat_optlen]
        exact Nat.mul_mod_left _ _
  split at ht
  · split at ht
    · cases ht
    next hroom =>
      cases ht
      exact (h.setFrag _ _).advance (frag_room hroom) rfl _
  · cases ht

/-! ## The run -/

theorem loop_succ : (loop plen (turns + 1) w).val mem =
    match (w.turn plen).val mem with
    | .ok => ([w], true)
    | .error => ([w], false)
    | .next w' => (w :: ((loop plen turns w').val mem).1, ((loop plen turns w').val mem).2) := by
  rw [loop, Prog.val_bind]
  cases (w.turn plen).val mem with
  | ok => rfl
  | error => rfl
  | next w' => exact Prog.val_bind _ _

theorem loop_head : ∃ ws, ((loop plen turns w).val mem).1 = w :: ws := by
  cases turns with
  | zero => exact ⟨[], rfl⟩
  | succ turns =>
    rw [loop_succ]
    cases (w.turn plen).val mem with
    | ok => exact ⟨[], rfl⟩
    | error => exact ⟨[], rfl⟩
    | next w' => exact ⟨_, rfl⟩

theorem loop_within (h : InStep start plen w) : (loop plen turns w).Within mem fun a => start ≤ a ∧ a < start + plen.toNat := by
  induction turns generalizing w with
  | zero => exact Prog.within_pure _
  | succ turns ih =>
    refine Prog.within_bind (turn_within h) ?_
    cases ht : (w.turn plen).val mem with
    | ok => exact Prog.within_pure _
    | error => exact Prog.within_pure _
    | next w' => exact Prog.within_bind (ih (turn_next h ht).2) (Prog.within_pure _)

/-- All turns are in step, and each moves on. -/
theorem loop_inStep (h : InStep start plen w) : (∀ v ∈ ((loop plen turns w).val mem).1, InStep start plen v) ∧
    ((loop plen turns w).val mem).1.IsChain Moved := by
  induction turns generalizing w with
  | zero => exact ⟨List.forall_mem_singleton.mpr h, .singleton w⟩
  | succ turns ih =>
    rw [loop_succ]
    cases ht : (w.turn plen).val mem with
    | ok => exact ⟨List.forall_mem_singleton.mpr h, .singleton w⟩
    | error => exact ⟨List.forall_mem_singleton.mpr h, .singleton w⟩
    | next w' =>
      obtain ⟨hmoved, hnext⟩ := turn_next h ht
      obtain ⟨hall, hchain⟩ := ih hnext
      obtain ⟨ws, hws⟩ := @loop_head mem plen w' turns
      refine ⟨List.forall_mem_cons.mpr ⟨h, hall⟩, ?_⟩
      dsimp only
      rw [hws] at hchain ⊢
      exact .cons_cons hmoved hchain

end turns

/-! ## Its value -/

/-- The result, from the last turn. -/
def outcome (run : List ExthdrWalk × Bool) : Option ExthdrResult := if run.2 then run.1.getLast?.map result else none

theorem outcome_cons {ws : List ExthdrWalk} (w : ExthdrWalk) (hne : ws ≠ []) (ok : Bool) : outcome (w :: ws, ok) = outcome (ws, ok) := by
  obtain ⟨v, vs, rfl⟩ := List.exists_cons_of_ne_nil hne
  rw [outcome, outcome, List.getLast?_cons_cons]

section frame
variable {m : List U8} {start turns : Nat} {plen : U16} {w : ExthdrWalk}

theorem turn_ok (h : endsChain w.nexthdr = true) : (w.turn plen).val (frameMem m) = .ok := by
  rw [turn, if_pos h, Prog.val_pure]

theorem turn_unknown (h : endsChain w.nexthdr ≠ true) (hopt : isOptHdr w.nexthdr ≠ true) (hfrag : w.nexthdr ≠ NEXTHDR_FRAGMENT) :
    (w.turn plen).val (frameMem m) = .error := by
  rw [turn, if_neg h, if_neg hopt, if_neg hfrag, Prog.val_pure]

theorem InStep.frameMem_ptr (h : InStep start plen w) (k : Nat) : frameMem m (w.ptr + k) = m.getD (start + w.consumed.toNat + k) 0 := by
  have hptr : w.ptr = ((start + w.consumed.toNat : Nat) : Int) := by
    rw [h.ptr]
    omega
  rw [hptr, frameMem_add]

theorem turn_opt (h : InStep start plen w) (hends : endsChain w.nexthdr ≠ true) (hopt : isOptHdr w.nexthdr = true) :
    (w.turn plen).val (frameMem m) =
      let hdrlen := m.getD (start + w.consumed.toNat + 1) 0
      if plen.toNat < w.consumed.toNat + 2 ∨ plen.toNat < w.consumed.toNat + (hdrlen.toNat + 1) * 8 then .error
      else .next (w.advance ((hdrlen.setWidth 16 + 1) * 8) (m.getD (start + w.consumed.toNat) 0)) := by
  have hat0 : frameMem m w.ptr = m.getD (start + w.consumed.toNat) 0 := by simpa using h.frameMem_ptr 0
  have hat1 : frameMem m (w.ptr + 1) = m.getD (start + w.consumed.toNat + 1) 0 := h.frameMem_ptr 1
  rw [turn, if_neg hends, if_pos hopt]
  by_cases hroom : plen.toNat < w.consumed.toNat + 2
  · rw [if_pos hroom, if_pos (.inl hroom), Prog.val_pure]
  · rw [if_neg hroom, Prog.val_bind, Prog.val_cell, hat1]
    simp only [toNat_optlen, hroom, false_or]
    split
    · rfl
    · rw [Prog.val_bind, Prog.val_cell, hat0, Prog.val_pure]

theorem turn_frag (h : InStep start plen w) (hfrag : w.nexthdr = NEXTHDR_FRAGMENT) : (w.turn plen).val (frameMem m) =
    if plen.toNat < w.consumed.toNat + 8 then .error
    else
      let frag := w.setFrag (be16 m (start + w.consumed.toNat + 2)) (be32 m (start + w.consumed.toNat + 4))
      .next (frag.advance 8 (m.getD (start + w.consumed.toNat) 0)) := by
  have hptr : w.ptr = ((start + w.consumed.toNat : Nat) : Int) := by
    rw [h.ptr]
    omega
  have hends : endsChain w.nexthdr ≠ true := by rw [hfrag]; decide
  have hopt : isOptHdr w.nexthdr ≠ true := by rw [hfrag]; decide
  rw [turn, if_neg hends, if_neg hopt, if_pos hfrag]
  split
  · rfl
  · rw [hptr]
    rfl

theorem toNat_advance {len : U16} (hlen : w.consumed.toNat + len.toNat ≤ plen.toNat) (nexthdr : U8) :
    (w.advance len nexthdr).consumed.toNat = w.consumed.toNat + len.toNat := by
  have hlt := plen.isLt
  have hsum : (w.advance len nexthdr).consumed.toNat = (w.consumed + len).toNat := rfl
  rw [hsum, BitVec.toNat_add]
  omega

/-- In a frame it is the walk over the bytes. -/
theorem loop_outcome (h : InStep start plen w) : outcome ((loop plen turns w).val (frameMem m)) =
    ipv6ParseExthdrs m start plen.toNat turns w.nexthdr w.consumed.toNat (if w.hasFrag then some w.fragOff else none) := by
  induction turns generalizing w with
  | zero => rfl
  | succ turns ih =>
    have hnext : ∀ w', (w.turn plen).val (frameMem m) = .next w' → outcome ((loop plen (turns + 1) w).val (frameMem m)) =
        ipv6ParseExthdrs m start plen.toNat turns w'.nexthdr w'.consumed.toNat (if w'.hasFrag then some w'.fragOff else none) := by
      intro w' ht
      obtain ⟨ws, hws⟩ := @loop_head (frameMem m) plen w' turns
      rw [loop_succ, ht]
      dsimp only
      rw [outcome_cons w (by rw [hws]; exact List.cons_ne_nil _ _)]
      exact ih (turn_next h ht).2
    have herror : (w.turn plen).val (frameMem m) = .error → outcome ((loop plen (turns + 1) w).val (frameMem m)) = none := by
      intro ht
      rw [loop_succ, ht]
      rfl
    unfold ipv6ParseExthdrs
    split
    next hends =>
      rw [loop_succ, turn_ok hends]
      rfl
    next hends =>
      split
      next hopt =>
        have ht := @turn_opt m start plen w h hends hopt
        dsimp only at ht ⊢
        split
        next hshort => exact herror (by rw [ht, if_pos hshort])
        next hroom =>
          rw [if_neg hroom] at ht
          have hlen : w.consumed.toNat + (((m.getD (start + w.consumed.toNat + 1) 0).setWidth 16 + 1) * 8 : U16).toNat ≤ plen.toNat := by
            rw [toNat_optlen]
            omega
          rw [hnext _ ht, toNat_advance hlen, toNat_optlen]
          rfl
      next hopt =>
        split
        next hfrag =>
          have ht := @turn_frag m start plen w h hfrag
          split
          next hshort => exact herror (by rw [ht, if_pos hshort])
          next hroom =>
            rw [if_neg hroom] at ht
            rw [hnext _ ht, toNat_advance (frag_room (w := w.setFrag _ _) hroom)]
            rfl
        next hfrag => exact herror (turn_unknown hends hopt hfrag)

end frame

theorem inStep_start (nexthdr : U8) (start : Int) (plen : U16) : InStep start plen { nexthdr := nexthdr, ptr := start } :=
  ⟨Nat.zero_le _, rfl, (Int.add_zero _).symm⟩

end ExthdrWalk

open ExthdrWalk

theorem ipv6ParseExthdrsAt_outcome (m : List U8) (nexthdr : U8) (start : Nat) (plen : U16) :
    outcome ((ipv6ParseExthdrsAt nexthdr start plen).val (frameMem m)) = ipv6ParseExthdrs m start plen.toNat 8 nexthdr 0 none :=
  loop_outcome (inStep_start nexthdr start plen)

/-- **The walk over the extension headers is in bounds**, over any bytes and for
any length. -/
theorem ipv6ParseExthdrsAt_inside (mem : Memory.Mem U8) (nexthdr : U8) (start : Int) (plen : U16) :
    WalksInside mem nexthdr start plen := by
  have hstart := inStep_start nexthdr start plen
  obtain ⟨hall, hchain⟩ := @loop_inStep mem start plen _ 8 hstart
  refine ⟨loop_within hstart, hchain, fun w hw => (hall w hw).units, fun _ => ?_⟩
  obtain ⟨ws, hws⟩ := @loop_head mem plen { nexthdr := nexthdr, ptr := start } 8
  change ∃ w, ((loop plen 8 { nexthdr := nexthdr, ptr := start }).val mem).1.getLast? = some w ∧ _
  rw [hws] at hall ⊢
  have hlast := hall _ (List.getLast_mem (List.cons_ne_nil _ ws))
  exact ⟨_, List.getLast?_eq_some_getLast (List.cons_ne_nil _ ws), hlast.within, by rw [hlast.ptr]; omega⟩

end LevelIp
