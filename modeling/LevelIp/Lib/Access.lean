/-
Programs that read a memory. Such a program sees nothing of a cell but by reading
it, so its value and the cells it reads depend on no other cell. The rules say
how the values and the reads of a program come from its parts, and keep the reads
inside a region.
-/
import LevelIp.Lib.Memory

namespace Access

open Memory

/-- A program that reads cells of `β`, one after the other, and returns an `α`. -/
inductive Prog (β α : Type) where
  | ret (a : α)
  | fetch (addr : Int) (next : β → Prog β α)

namespace Prog

variable {β α γ : Type}

def bind : Prog β α → (α → Prog β γ) → Prog β γ
  | ret a, k => k a
  | fetch addr next, k => fetch addr fun b => (next b).bind k

instance : Monad (Prog β) where
  pure := ret
  bind := bind

/-- Reads one cell. -/
def cell (addr : Int) : Prog β β := fetch addr ret

/-- Reads `n` cells from `addr` on. -/
def cells : (addr : Int) → (n : Nat) → Prog β (List β)
  | _, 0 => ret []
  | addr, n + 1 => fetch addr fun b => (cells (addr + 1) n).bind fun bs => ret (b :: bs)

/-- The value the program returns. -/
def val (m : Mem β) : Prog β α → α
  | ret a => a
  | fetch addr next => (next (m addr)).val m

/-- The addresses it reads, in order. -/
def reads (m : Mem β) : Prog β α → List Int
  | ret _ => []
  | fetch addr next => addr :: (next (m addr)).reads m

/-- All its reads are in the region. -/
def Within (m : Mem β) (R : Int → Prop) (p : Prog β α) : Prop := ∀ a ∈ p.reads m, R a

variable {m m' : Mem β} {R R' : Int → Prop} {p : Prog β α} {k : α → Prog β γ}

/-! ## Values -/

@[simp] theorem val_pure (a : α) : (pure a : Prog β α).val m = a := rfl

@[simp] theorem val_bind (p : Prog β α) (k : α → Prog β γ) : (p >>= k).val m = (k (p.val m)).val m := by
  induction p with
  | ret a => rfl
  | fetch addr next ih => exact ih (m addr)

@[simp] theorem val_cell (addr : Int) : (cell addr : Prog β β).val m = m addr := rfl

@[simp] theorem val_cells (addr : Int) (n : Nat) : (cells addr n : Prog β (List β)).val m = Memory.read m addr n := by
  induction n generalizing addr with
  | zero => rfl
  | succ n ih =>
    have hone : Memory.read m addr 1 = [m addr] := by simp [Memory.read]
    have hrest : ((cells (addr + 1) n).bind fun bs => ret (m addr :: bs)).val m = m addr :: (cells (addr + 1) n).val m :=
      val_bind (cells (addr + 1) n) fun bs => ret (m addr :: bs)
    rw [Nat.add_comm, read_add, hone, Nat.cast_one, ← ih, Nat.add_comm]
    exact hrest

/-! ## Reads -/

@[simp] theorem reads_pure (a : α) : (pure a : Prog β α).reads m = [] := rfl

@[simp] theorem reads_bind (p : Prog β α) (k : α → Prog β γ) : (p >>= k).reads m = p.reads m ++ (k (p.val m)).reads m := by
  induction p with
  | ret a => rfl
  | fetch addr next ih => exact congrArg (addr :: ·) (ih (m addr))

@[simp] theorem reads_cell (addr : Int) : (cell addr : Prog β β).reads m = [addr] := rfl

theorem mem_reads_cells {addr a : Int} {n : Nat} : a ∈ (cells addr n : Prog β (List β)).reads m ↔ addr ≤ a ∧ a < addr + n := by
  induction n generalizing addr with
  | zero =>
    refine iff_of_false List.not_mem_nil ?_
    omega
  | succ n ih =>
    have hreads : (cells addr (n + 1) : Prog β (List β)).reads m =
        addr :: ((cells (addr + 1) n >>= fun bs => pure (m addr :: bs)).reads m) := rfl
    rw [hreads, reads_bind, reads_pure, List.append_nil, List.mem_cons, ih]
    omega

/-! ## Regions -/

theorem within_pure (a : α) : (pure a : Prog β α).Within m R := fun _ h => absurd h List.not_mem_nil

theorem within_cell {addr : Int} (h : R addr) : (cell addr : Prog β β).Within m R := fun _ ha => List.mem_singleton.mp ha ▸ h

theorem within_cells {addr : Int} {n : Nat} (h : ∀ a, addr ≤ a → a < addr + n → R a) :
    (cells addr n : Prog β (List β)).Within m R := fun a ha =>
  h a (mem_reads_cells.mp ha).1 (mem_reads_cells.mp ha).2

/-- **The rule of sequence**: the second part is asked only about the value that
the first returns. -/
theorem within_bind (hp : p.Within m R) (hk : (k (p.val m)).Within m R) : (p >>= k).Within m R := by
  intro a ha
  rw [reads_bind] at ha
  exact (List.mem_append.mp ha).elim (hp a) (hk a)

@[simp] theorem within_bind_iff : (p >>= k).Within m R ↔ p.Within m R ∧ (k (p.val m)).Within m R := by
  unfold Within
  rw [reads_bind, List.forall_mem_append]

@[simp] theorem within_pure_iff (a : α) : (pure a : Prog β α).Within m R ↔ True := iff_true_intro (within_pure a)

@[simp] theorem within_cell_iff {addr : Int} : (cell addr : Prog β β).Within m R ↔ R addr := List.forall_mem_singleton

theorem within_cells_iff {addr : Int} {n : Nat} : (cells addr n : Prog β (List β)).Within m R ↔ ∀ a, addr ≤ a → a < addr + n → R a :=
  ⟨fun h a ha hlt => h a (mem_reads_cells.mpr ⟨ha, hlt⟩), within_cells⟩

theorem Within.mono (h : p.Within m R) (hR : ∀ a, R a → R' a) : p.Within m R' := fun a ha => hR a (h a ha)

end Prog

end Access
