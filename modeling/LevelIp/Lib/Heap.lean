/-
A heap with `malloc` and `free`, as a ledger: the address every allocation got
and the allocations that were freed, both in order. Addresses are used again,
and nothing keeps a program from freeing a block twice; the heap then believes
the address to be free once more than it is.

The main result: while no block is freed twice, allocations that are not freed
have different addresses.
-/
import Mathlib

/-- Allocation `n` got the address `allocs[n]`; `frees` lists the allocations
passed to `free`. -/
structure Heap where
  allocs : List Nat := []
  frees : List Nat := []
deriving DecidableEq

namespace Heap

/-- The address of an allocation. -/
def addr (h : Heap) (n : Nat) : Option Nat := h.allocs[n]?

/-- How often the address was handed out, and taken back. -/
def given (h : Heap) (a : Nat) : Nat := h.allocs.count a

def taken (h : Heap) (a : Nat) : Nat := (h.frees.filter fun n => h.addr n = some a).length

/-- The heap takes the address to be in use. -/
def Live (h : Heap) (a : Nat) : Prop := h.taken a < h.given a

instance (h : Heap) (a : Nat) : Decidable (h.Live a) := inferInstanceAs (Decidable (_ < _))

/-- An allocator: its choice may depend on all that happened before, and it
hands out no address that is in use. -/
structure Allocator where
  pick : Heap → Nat
  fresh : ∀ h : Heap, ¬ h.Live (pick h)

def malloc (m : Allocator) (h : Heap) : Heap := { h with allocs := h.allocs ++ [m.pick h] }

def free (h : Heap) (n : Nat) : Heap := { h with frees := h.frees ++ [n] }

@[simp] theorem malloc_frees (m : Allocator) (h : Heap) : (h.malloc m).frees = h.frees := rfl

@[simp] theorem malloc_length (m : Allocator) (h : Heap) : (h.malloc m).allocs.length = h.allocs.length + 1 := by
  simp [malloc]

@[simp] theorem free_allocs (h : Heap) (n : Nat) : (h.free n).allocs = h.allocs := rfl

@[simp] theorem free_frees (h : Heap) (n : Nat) : (h.free n).frees = h.frees ++ [n] := rfl

theorem malloc_addr {m : Allocator} {h : Heap} {n : Nat} (hn : n < h.allocs.length) : (h.malloc m).addr n = h.addr n := by
  simp [malloc, addr, List.getElem?_append_left hn]

theorem malloc_addr_new (m : Allocator) (h : Heap) : (h.malloc m).addr h.allocs.length = some (m.pick h) := by
  simp [malloc, addr]

/-! ## Blocks freed at most once -/

/-- No allocation is freed twice, and those that are not freed have addresses of
their own. -/
structure Sound (h : Heap) : Prop where
  once : h.frees.Nodup
  apart : ∀ m n, m < h.allocs.length → n < h.allocs.length → m ∉ h.frees → n ∉ h.frees → h.addr m = h.addr n → m = n

theorem sound_init : Sound {} := ⟨List.nodup_nil, nofun⟩

/-- The allocations that got an address. -/
theorem given_eq (h : Heap) (a : Nat) :
    h.given a = ((List.range h.allocs.length).filter fun n => h.addr n = some a).length := by
  have hall : h.allocs = (List.range h.allocs.length).map fun n => h.allocs.getD n 0 := by
    refine List.ext_getElem (by simp) fun i hi _ => ?_
    simp [List.getD_eq_getElem?_getD, List.getElem?_eq_getElem hi]
  rw [given]
  conv_lhs => rw [hall]
  rw [List.count_eq_length_filter, List.filter_map, List.length_map]
  refine congrArg List.length (List.filter_congr fun n hn => ?_)
  rw [addr, List.getElem?_eq_getElem (List.mem_range.1 hn)]
  simp [beq_eq_decide, List.getElem?_eq_getElem (List.mem_range.1 hn)]

/-- An allocation that is not freed keeps its address in use. -/
theorem Sound.live {h : Heap} (hs : h.Sound) {n a : Nat} (ha : h.addr n = some a) (hf : n ∉ h.frees) : h.Live a := by
  rw [Live, given_eq, taken]
  -- the freed ones are among those that got the address, and `n` is not one of them
  have hsub : (n :: h.frees.filter fun k => h.addr k = some a) ⊆
      (List.range h.allocs.length).filter fun k => h.addr k = some a := by
    have hin : ∀ k, h.addr k = some a → k ∈ (List.range h.allocs.length).filter fun k => h.addr k = some a := by
      intro k hk
      obtain ⟨hlt, -⟩ := List.getElem?_eq_some_iff.1 hk
      exact List.mem_filter.2 ⟨List.mem_range.2 hlt, by simpa using hk⟩
    intro k hk
    rcases List.mem_cons.1 hk with rfl | hk
    · exact hin k ha
    · exact hin k (by simpa using (List.mem_filter.1 hk).2)
  have hnd : (n :: h.frees.filter fun k => h.addr k = some a).Nodup :=
    List.nodup_cons.2 ⟨fun hk => hf (List.mem_filter.1 hk).1, hs.once.filter _⟩
  have := (List.subperm_of_subset hnd hsub).length_le
  rw [List.length_cons] at this
  exact this

theorem Sound.malloc {h : Heap} (hs : h.Sound) (m : Allocator) : (h.malloc m).Sound := by
  refine ⟨hs.once, ?_⟩
  -- the new block is at an address that no other unfreed one has
  have hnew : ∀ k, k ∉ h.frees → h.addr k ≠ some (m.pick h) := fun k hf he => m.fresh h (hs.live he hf)
  intro i j hi hj hif hjf he
  rw [malloc_length] at hi hj
  rcases Nat.lt_succ_iff_lt_or_eq.1 hi with hi | rfl <;> rcases Nat.lt_succ_iff_lt_or_eq.1 hj with hj | rfl
  · rw [malloc_addr hi, malloc_addr hj] at he
    exact hs.apart i j hi hj hif hjf he
  · rw [malloc_addr hi, malloc_addr_new] at he
    exact absurd he (hnew i hif)
  · rw [malloc_addr hj, malloc_addr_new] at he
    exact absurd he.symm (hnew j hjf)
  · rfl

theorem Sound.free {h : Heap} (hs : h.Sound) {n : Nat} (hf : n ∉ h.frees) : (h.free n).Sound := by
  refine ⟨?_, fun i j hi hj hif hjf he => ?_⟩
  · rw [free_frees, List.nodup_append_comm]
    exact List.nodup_cons.2 ⟨hf, hs.once⟩
  · rw [free_frees, List.mem_append, not_or] at hif hjf
    exact hs.apart i j hi hj hif.1 hjf.1 he

/-! ## Histories -/

/-- What a program does to the heap between two moments. -/
inductive Path (m : Allocator) (h : Heap) : Heap → Prop
  | refl : Path m h h
  | malloc {h' : Heap} : Path m h h' → Path m h (h'.malloc m)
  | free {h' : Heap} (n : Nat) : Path m h h' → Path m h (h'.free n)

theorem Path.trans {m : Allocator} {h h' h'' : Heap} (a : Path m h h') (b : Path m h' h'') : Path m h h'' := by
  induction b with
  | refl => exact a
  | malloc _ ih => exact ih.malloc
  | free n _ ih => exact ih.free n

theorem Path.length_le {m : Allocator} {h h' : Heap} (p : Path m h h') : h.allocs.length ≤ h'.allocs.length := by
  induction p with
  | refl => exact le_refl _
  | malloc _ ih =>
    rw [malloc_length]
    exact Nat.le_succ_of_le ih
  | free _ _ ih => exact ih

theorem Path.frees_subset {m : Allocator} {h h' : Heap} (p : Path m h h') : h.frees ⊆ h'.frees := by
  induction p with
  | refl => exact List.Subset.refl _
  | malloc _ ih => exact ih
  | free _ _ ih => exact fun _ hn => List.mem_append_left _ (ih hn)

/-- **Distinct addresses**: a history at whose end nothing was freed twice keeps
the heap sound. -/
theorem Path.sound {m : Allocator} {h h' : Heap} (p : Path m h h') (hs : h.Sound) (hn : h'.frees.Nodup) : h'.Sound := by
  induction p with
  | refl => exact hs
  | malloc _ ih => exact (ih hn).malloc m
  | free n _ ih =>
    rw [free_frees, List.nodup_append_comm] at hn
    obtain ⟨hf, hn⟩ := List.nodup_cons.1 hn
    exact (ih hn).free hf

/-! ## An allocator -/

/-- The block freed last goes out first; with none to use again, the heap
grows. -/
def lifo : Allocator where
  pick h := ((h.frees.reverse.filterMap h.addr).find? fun a => ¬ h.Live a).getD ((h.allocs.foldr max 0) + 1)
  fresh h := by
    cases hf : (h.frees.reverse.filterMap h.addr).find? fun a => ¬ h.Live a with
    | some a =>
      have := List.find?_some hf
      simpa using this
    | none =>
      intro hl
      have hle : ∀ l : List Nat, ∀ a ∈ l, a ≤ l.foldr max 0 := by
        intro l a ha
        induction l with
        | nil => cases ha
        | cons b l ih =>
          rcases List.mem_cons.1 ha with rfl | ha
          · exact le_max_left _ _
          · exact le_max_of_le_right (ih ha)
      have hmem : h.allocs.foldr max 0 + 1 ∈ h.allocs := List.count_pos_iff.1 (lt_of_le_of_lt (Nat.zero_le _) hl)
      exact absurd (hle _ _ hmem) (by omega)

end Heap
