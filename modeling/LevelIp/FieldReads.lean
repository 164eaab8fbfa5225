/-
The fields of a packet as a program reads them, in network order or as the host
has them, and what such a program finds in the memory of a frame.
-/
import LevelIp.Packets
import LevelIp.Lib.Access

namespace LevelIp

open Access

/-- A 16-bit field in network order. -/
def ntohsAt (addr : Int) : Prog U8 U16 := do
  let hi ← Prog.cell addr
  let lo ← Prog.cell (addr + 1)
  return hi.setWidth 16 <<< 8 ||| lo.setWidth 16

/-- A 16-bit field as the host reads it. -/
def uint16At (addr : Int) : Prog U8 U16 := do
  let lo ← Prog.cell addr
  let hi ← Prog.cell (addr + 1)
  return hi.setWidth 16 <<< 8 ||| lo.setWidth 16

/-- A 32-bit field in network order. -/
def ntohlAt (addr : Int) : Prog U8 U32 := do
  let b0 ← Prog.cell addr
  let b1 ← Prog.cell (addr + 1)
  let b2 ← Prog.cell (addr + 2)
  let b3 ← Prog.cell (addr + 3)
  return (b0.setWidth 32 <<< 24) ||| (b1.setWidth 32 <<< 16) ||| (b2.setWidth 32 <<< 8) ||| b3.setWidth 32

/-- An address that is copied. -/
def in6AddrAt (addr : Int) : Prog U8 In6Addr := do
  let bs ← Prog.cells addr 16
  return Vector.ofFn fun k => bs.getD k.val 0

def hwAddrAt (addr : Int) : Prog U8 HwAddr := do
  let bs ← Prog.cells addr 6
  return Vector.ofFn fun k => bs.getD k.val 0

/-! ## In a frame -/

/-- The memory that has the bytes of a frame from 0 on, and zeros behind them. -/
def frameMem (m : List U8) : Memory.Mem U8 := fun addr => m.getD addr.toNat 0

section frame
variable (m : List U8) (i k : Nat)

@[simp] theorem frameMem_cast : frameMem m i = m.getD i 0 := rfl

@[simp] theorem frameMem_add : frameMem m ((i : Int) + (k : Int)) = m.getD (i + k) 0 := rfl

theorem val_ntohlAt : (ntohlAt i).val (frameMem m) = be32 m i := rfl

theorem getD_read (n : Nat) (hk : k < n) : (Memory.read (frameMem m) i n).getD k 0 = m.getD (i + k) 0 := by
  have hlen : k < (Memory.read (frameMem m) i n).length := by rwa [Memory.length_read]
  rw [List.getD_eq_getElem _ _ hlen]
  simp [Memory.read]

theorem val_in6AddrAt : (in6AddrAt i).val (frameMem m) = in6At m i := by
  simp only [in6AddrAt, in6At, Prog.val_bind, Prog.val_cells, Prog.val_pure]
  refine congrArg Vector.ofFn (funext fun k => ?_)
  exact getD_read m i k 16 k.isLt

theorem val_hwAddrAt : (hwAddrAt i).val (frameMem m) = hwAt m i := by
  simp only [hwAddrAt, hwAt, Prog.val_bind, Prog.val_cells, Prog.val_pure]
  refine congrArg Vector.ofFn (funext fun k => ?_)
  exact getD_read m i k 6 k.isLt

end frame

/-! ## What is read -/

section within
variable {mem : Memory.Mem U8} {R : Int → Prop} {addr : Int}

theorem within_ntohsAt (h : R addr) (h' : R (addr + 1)) : (ntohsAt addr).Within mem R :=
  Prog.within_bind (Prog.within_cell h) (Prog.within_bind (Prog.within_cell h') (Prog.within_pure _))

theorem within_uint16At (h : R addr) (h' : R (addr + 1)) : (uint16At addr).Within mem R :=
  Prog.within_bind (Prog.within_cell h) (Prog.within_bind (Prog.within_cell h') (Prog.within_pure _))

theorem within_ntohlAt (h : ∀ a, addr ≤ a → a < addr + 4 → R a) : (ntohlAt addr).Within mem R := by
  refine Prog.within_bind (Prog.within_cell (h _ (by omega) (by omega))) ?_
  refine Prog.within_bind (Prog.within_cell (h _ (by omega) (by omega))) ?_
  refine Prog.within_bind (Prog.within_cell (h _ (by omega) (by omega))) ?_
  exact Prog.within_bind (Prog.within_cell (h _ (by omega) (by omega))) (Prog.within_pure _)

theorem within_in6AddrAt (h : ∀ a, addr ≤ a → a < addr + 16 → R a) : (in6AddrAt addr).Within mem R :=
  Prog.within_bind (Prog.within_cells fun a ha hlt => h a ha hlt) (Prog.within_pure _)

end within

end LevelIp
