/-
The account of the skbs. At every moment those that are on a queue or in the
hands of a sender that waits, and those freed, each counted as often as it
happened, should be all that were allocated, each once. The functions are booked
one by one against that account: what each frees beside it, and what it loses.
-/
import LevelIp.Skbuff

namespace LevelIp

/-- An element of a list changes, and a sum over the list with it. -/
theorem sum_map_modify {α M : Type*} [AddCommMonoid M] (g : α → M) {l : List α} {i : Nat} {a : α} (h : l[i]? = some a)
    (f : α → α) : ((l.modify i f).map g).sum + g a = (l.map g).sum + g (f a) := by
  induction l generalizing i with
  | nil => cases h
  | cons x l ih =>
    cases i with
    | zero =>
      obtain rfl := Option.some.inj h
      simp only [List.modify_zero_cons, List.map_cons, List.sum_cons]
      abel
    | succ i =>
      have := ih (i := i) h
      simp only [List.modify_succ_cons, List.map_cons, List.sum_cons]
      rw [add_assoc, this, add_assoc]

theorem modify_none {α : Type*} {l : List α} {i : Nat} (h : l[i]? = none) (f : α → α) : l.modify i f = l := by
  refine List.ext_getElem? fun j => ?_
  rw [List.getElem?_modify]
  split
  · next he => rw [← he, h]; rfl
  · exact id_map _

theorem map_modify_same {α β : Type*} {f : α → β} {g : α → α} (h : ∀ a, f (g a) = f a) (l : List α) (i : Nat) :
    (l.modify i g).map f = l.map f := by
  refine List.ext_getElem? fun j => ?_
  rw [List.getElem?_map, List.getElem?_map, List.getElem?_modify]
  cases l[j]? with
  | none => rfl
  | some a =>
    show some (f (if i = j then g a else a)) = some (f a)
    split
    · rw [h]
    · rfl

theorem mem_modify {α : Type*} {l : List α} {i : Nat} {f : α → α} {a : α} (h : a ∈ l.modify i f) :
    a ∈ l ∨ ∃ b, l[i]? = some b ∧ f b = a := by
  obtain ⟨j, hj⟩ := List.mem_iff_getElem?.1 h
  rw [List.getElem?_modify] at hj
  cases hl : l[j]? with
  | none => simp [hl] at hj
  | some b =>
    rw [hl, Option.map_eq_map, Option.map_some, Option.some.injEq] at hj
    split at hj
    · next he => exact .inr ⟨b, he ▸ hl, hj⟩
    · exact .inl (List.mem_of_getElem? (hj ▸ hl))

/-! ## Queues -/

/-- The skbs of a queue. -/
def SkbHead.ids (q : SkbHead) : Multiset Nat := (q.skbs.map (·.id) : List Nat)

/-- `qlen` counts the skbs, and each of them is as it should be. -/
structure SkbHead.Fit (p : SkBuff → Prop) (q : SkbHead) : Prop where
  counted : q.qlen = BitVec.ofNat 32 q.skbs.length
  each : ∀ b ∈ q.skbs, p b

namespace SkbHead

variable {p p' : SkBuff → Prop} {q : SkbHead} {b : SkBuff}

@[simp] theorem ids_tail (q : SkbHead) (b : SkBuff) : (q.tail b).ids = q.ids + {b.id} := by
  simp [ids, tail, ← Multiset.coe_add]

theorem ids_take_add_dequeue (q : SkbHead) (k : Nat) : ((q.skbs.take k).map (·.id) : List Nat) + (q.dequeue k).ids = q.ids := by
  rw [ids, ids, Multiset.coe_add, ← List.map_append]
  exact congrArg _ (congrArg _ (List.take_append_drop k q.skbs))

theorem ids_foldl_tail (bs : List SkBuff) (q : SkbHead) : (bs.foldl tail q).ids = q.ids + (bs.map (·.id) : List Nat) := by
  induction bs generalizing q with
  | nil => exact (add_zero _).symm
  | cons b bs ih =>
    rw [List.foldl_cons, ih, ids_tail, add_assoc, Multiset.singleton_add]
    rfl

theorem ids_add {k : Nat} (hk : k ≤ q.skbs.length) : (q.add b k).ids = q.ids + {b.id} := by
  have := (List.perm_insertIdx b q.skbs hk).map (·.id)
  rw [ids, add, Multiset.coe_eq_coe.2 this, List.map_cons, ← Multiset.cons_coe, ← Multiset.singleton_add, add_comm]
  rfl

theorem insertPos_le {seq endSeq : U32} {skbs : List SkBuff} {k : Nat} (h : insertPos seq endSeq skbs = some k) :
    k ≤ skbs.length := by
  induction skbs generalizing k with
  | nil =>
    obtain rfl := Option.some.inj h
    exact le_refl _
  | cons next rest ih =>
    unfold insertPos at h
    have hrest : ∀ k, (insertPos seq endSeq rest).map (· + 1) = some k → k ≤ rest.length + 1 := by
      intro k hk
      obtain ⟨j, hj, rfl⟩ := Option.map_eq_some_iff.1 hk
      exact Nat.succ_le_succ (ih hj)
    split at h
    · split at h
      · exact hrest k h
      · obtain rfl := Option.some.inj h
        exact Nat.zero_le _
    · split at h
      · cases h
      · exact hrest k h

/-! The loops dequeue no more than there is. -/

theorem turns_le (f : SkBuff → Bool) (skbs : List SkBuff) (n : U32) : turns f skbs n ≤ skbs.length := by
  induction skbs generalizing n with
  | nil => exact le_refl _
  | cons b rest ih =>
    unfold turns
    split
    · exact Nat.zero_le _
    · exact Nat.succ_le_succ (ih _)

theorem ofoTurns_le (nxt : U32) (skbs : List SkBuff) (n : U32) : ofoTurns nxt skbs n ≤ skbs.length := by
  induction skbs generalizing nxt n with
  | nil => exact le_refl _
  | cons b rest ih =>
    unfold ofoTurns
    split
    · exact Nat.zero_le _
    · exact Nat.succ_le_succ (ih _ _)

theorem eatTurns_le (room : Nat) (skbs : List SkBuff) (n : U32) : (eatTurns room skbs n).1 ≤ skbs.length := by
  induction skbs generalizing room n with
  | nil => exact le_refl _
  | cons b rest ih =>
    unfold eatTurns
    split
    · exact Nat.zero_le _
    · exact Nat.succ_le_succ (ih _ _)

/-! What keeps a queue fit. -/

namespace Fit

theorem nil : Fit p {} := ⟨rfl, nofun⟩

theorem mono (h : q.Fit p) (hp : ∀ b, p b → p' b) : q.Fit p' := ⟨h.counted, fun b hb => hp b (h.each b hb)⟩

theorem tail (h : q.Fit p) (hb : p b) : (q.tail b).Fit p := by
  refine ⟨?_, fun c hc => ?_⟩
  · show q.qlen + 1 = BitVec.ofNat 32 (q.skbs ++ [b]).length
    rw [h.counted, List.length_append, BitVec.ofNat_add]
    rfl
  · rcases List.mem_append.1 hc with hc | hc
    · exact h.each c hc
    · exact List.mem_singleton.1 hc ▸ hb

theorem foldl_tail {bs : List SkBuff} (h : q.Fit p) (hb : ∀ b ∈ bs, p b) : (bs.foldl SkbHead.tail q).Fit p := by
  induction bs generalizing q with
  | nil => exact h
  | cons b bs ih => exact ih (h.tail (hb b List.mem_cons_self)) fun c hc => hb c (List.mem_cons_of_mem _ hc)

theorem add {k : Nat} (h : q.Fit p) (hk : k ≤ q.skbs.length) (hb : p b) : (q.add b k).Fit p := by
  refine ⟨?_, fun c hc => ?_⟩
  · show q.qlen + 1 = BitVec.ofNat 32 (q.skbs.insertIdx k b).length
    rw [h.counted, List.length_insertIdx_of_le_length hk, BitVec.ofNat_add]
    rfl
  · rcases List.eq_or_mem_of_mem_insertIdx hc with rfl | hc
    · exact hb
    · exact h.each c hc

theorem dequeue {k : Nat} (h : q.Fit p) (hk : k ≤ q.skbs.length) : (q.dequeue k).Fit p := by
  refine ⟨?_, fun b hb => h.each b (List.mem_of_mem_drop hb)⟩
  show q.qlen - BitVec.ofNat 32 k = BitVec.ofNat 32 (q.skbs.drop k).length
  rw [h.counted, List.length_drop]
  have : BitVec.ofNat 32 q.skbs.length = BitVec.ofNat 32 (q.skbs.length - k) + BitVec.ofNat 32 k := by
    rw [← BitVec.ofNat_add, Nat.sub_add_cancel hk]
  rw [this]
  bv_omega

/-- The skbs change, but none comes or goes. -/
theorem relabel {l : List SkBuff} (h : q.Fit p) (hl : l.length = q.skbs.length) (hp : ∀ b ∈ l, p b) :
    Fit p { q with skbs := l } := ⟨by rw [hl]; exact h.counted, hp⟩

/-- `qlen` says when the queue is empty. -/
theorem one_le (h : q.Fit p) (he : ¬ q.empty) : 1 ≤ q.skbs.length := by
  rw [empty, decide_eq_true_eq, h.counted] at he
  refine Nat.one_le_iff_ne_zero.2 fun h0 => he ?_
  rw [h0]
  decide

end Fit

end SkbHead

/-- The skbs of a socket. -/
def SkbSock.ids (sk : SkbSock) : Multiset Nat := sk.receiveQueue.ids + sk.writeQueue.ids + sk.ofoQueue.ids

/-- The skbs to be sent are on `write_queue`, with no reference, and received
ones on the other queues, with the one they got there. -/
structure SkbSock.Fit (transmits : List Nat) (sk : SkbSock) : Prop where
  write : sk.writeQueue.Fit fun b => b.refcnt = 0 ∧ b.id ∈ transmits
  receive : sk.receiveQueue.Fit fun b => b.refcnt = 1
  ofo : sk.ofoQueue.Fit fun b => b.refcnt = 1

namespace SkbHost

/-- The skbs on a queue. -/
def linked (h : SkbHost) : Multiset Nat := (h.socks.map (·.ids)).sum + (h.ndpCache.map (·.queue.ids)).sum

/-- The skbs on a queue, or held by a sender that waits for its window. -/
def held (h : SkbHost) : Multiset Nat := h.linked + (h.waiting.map (·.2.id) : List Nat)

/-- What was ever allocated. -/
def allocated (h : SkbHost) : Multiset Nat := Multiset.range h.heap.allocs.length

/-- Held, and freed. -/
def account (h : SkbHost) : Multiset Nat := h.held + (h.heap.frees : Multiset Nat)

/-- The skbs where the code has them: those to be sent, with no reference, in a
neighbour's queue or waiting, or on a socket (`SkbSock.Fit`). -/
structure Fit (h : SkbHost) : Prop where
  socks : ∀ sk ∈ h.socks, sk.Fit h.transmits
  pending : ∀ e ∈ h.ndpCache, e.queue.Fit fun b => b.refcnt = 0
  waiting : ∀ p ∈ h.waiting, p.2.refcnt = 0 ∧ p.2.id ∈ h.transmits
  known : ∀ n ∈ h.transmits, n < h.heap.allocs.length

/-- From `h` to `h'` the account grew by what was allocated, by `extra` beyond
that, and is short of `lost`. -/
structure Books (m : Heap.Allocator) (h h' : SkbHost) (extra lost : Multiset Nat) : Prop where
  account : h'.account + h.allocated + lost = h.account + h'.allocated + extra
  path : Heap.Path m h.heap h'.heap
  transmits : h.transmits ⊆ h'.transmits
  fit : h.Fit → h'.Fit

variable {m : Heap.Allocator} {h h' h'' : SkbHost} {x x' y y' : Multiset Nat}

namespace Books

theorem rfl' : Books m h h 0 0 := ⟨rfl, .refl, List.Subset.refl _, id⟩

theorem trans (a : Books m h h' x y) (b : Books m h' h'' x' y') : Books m h h'' (x + x') (y + y') := by
  refine ⟨?_, a.path.trans b.path, fun _ hn => b.transmits (a.transmits hn), b.fit ∘ a.fit⟩
  have key : h''.account + h.allocated + (y + y') + (h'.account + h'.allocated) =
      h.account + h''.allocated + (x + x') + (h'.account + h'.allocated) := by
    calc _ = (h'.account + h.allocated + y) + (h''.account + h'.allocated + y') := by abel
      _ = (h.account + h'.allocated + x) + (h'.account + h''.allocated + x') := by rw [a.account, b.account]
      _ = _ := by abel
  exact add_right_cancel key

/-- Two steps of which the first leaves the account right. -/
theorem after (b : Books m h' h'' x y) (a : Books m h h' 0 0) : Books m h h'' x y := by
  have := a.trans b
  rwa [zero_add, zero_add] at this

/-- What was lost for a while and is there again. -/
theorem cancel (z : Multiset Nat) (a : Books m h h' x' y') (hx : x' = x + z) (hy : y' = y + z) : Books m h h' x y := by
  refine ⟨add_right_cancel (b := z) ?_, a.path, a.transmits, a.fit⟩
  rw [add_assoc, ← hy, a.account, hx, add_assoc, add_assoc, add_assoc]

/-- A step that only moves skbs. -/
theorem of_held (hheap : h'.heap = h.heap) (htx : h'.transmits = h.transmits) (hheld : h'.held + y = h.held + x)
    (hfit : h.Fit → h'.Fit) : Books m h h' x y := by
  refine ⟨?_, hheap ▸ .refl, fun _ h => htx ▸ h, hfit⟩
  rw [SkbHost.account, SkbHost.account, allocated, allocated, hheap]
  calc _ = (h'.held + y) + (h.heap.frees + Multiset.range h.heap.allocs.length) := by abel
    _ = (h.held + x) + (h.heap.frees + Multiset.range h.heap.allocs.length) := by rw [hheld]
    _ = _ := by abel

end Books

/-! ## `alloc_skb` and `free_skb` -/

/-- The heap changes, or the list of what is to be sent; the queues stay. -/
theorem Fit.of_queues (hs : h'.socks = h.socks) (hn : h'.ndpCache = h.ndpCache) (hw : h'.waiting = h.waiting)
    (ht : h.transmits ⊆ h'.transmits) (hk : ∀ n ∈ h'.transmits, n < h'.heap.allocs.length) (hf : h.Fit) : h'.Fit := by
  refine ⟨?_, ?_, ?_, hk⟩
  · rw [hs]
    intro sk hsk
    have := hf.socks sk hsk
    exact ⟨this.write.mono fun _ hb => hb.imp id (ht ·), this.receive, this.ofo⟩
  · rw [hn]
    exact hf.pending
  · rw [hw]
    exact fun p hp => (hf.waiting p hp).imp id (ht ·)

theorem books_malloc (ts : List Nat) (hts : ∀ n ∈ ts, n ≤ h.heap.allocs.length) :
    Books m h { h with heap := h.heap.malloc m, transmits := h.transmits ++ ts } 0 {h.heap.allocs.length} := by
  refine ⟨?_, .malloc .refl, List.subset_append_left _ _, fun hf =>
    Fit.of_queues (h := h) rfl rfl rfl (List.subset_append_left _ _) (fun n hn => ?_) hf⟩
  rotate_left
  · show n < (h.heap.malloc m).allocs.length
    rw [Heap.malloc_length, Nat.lt_succ_iff]
    rcases List.mem_append.1 hn with hn | hn
    · exact (hf.known n hn).le
    · exact hts n hn
  show h.account + h.allocated + {h.heap.allocs.length} = h.account + Multiset.range (h.heap.malloc m).allocs.length + 0
  rw [Heap.malloc_length, Multiset.range_succ, ← Multiset.singleton_add, allocated]
  abel

theorem books_allocSkb (d : Skb) : Books m h (h.allocSkb m d).2 0 {(h.allocSkb m d).1.id} :=
  books_malloc _ fun _ hn => (List.mem_singleton.1 hn).le

theorem books_rxSkb (d : Skb) : Books m h (h.rxSkb m d).2 0 {(h.rxSkb m d).1.id} := by
  have := books_malloc (m := m) (h := h) [] nofun
  rw [List.append_nil] at this
  exact this

theorem books_freeSkb {b : SkBuff} (hb : b.refcnt < 1) : Books m h (h.freeSkb b) {b.id} 0 := by
  rw [freeSkb, if_pos hb]
  refine ⟨?_, .free _ .refl, List.Subset.refl _, fun hf =>
    Fit.of_queues (h := h) rfl rfl rfl (List.Subset.refl _) hf.known hf⟩
  show h.held + ((h.heap.frees ++ [b.id] : List Nat) : Multiset Nat) + h.allocated + 0 = h.account + h.allocated + {b.id}
  rw [← Multiset.coe_add, Multiset.coe_singleton, account]
  abel

theorem freeSkb_held {b : SkBuff} (hb : ¬ b.refcnt < 1) : h.freeSkb b = h := if_neg hb

theorem books_freeSkbs {bs : List SkBuff} (hb : ∀ b ∈ bs, b.refcnt < 1) :
    Books m h (bs.foldl freeSkb h) (bs.map (·.id) : List Nat) 0 := by
  induction bs generalizing h with
  | nil => exact .rfl'
  | cons b bs ih =>
    have := (books_freeSkb (m := m) (h := h) (hb b List.mem_cons_self)).trans (ih fun c hc => hb c (List.mem_cons_of_mem _ hc))
    rw [Multiset.singleton_add, Multiset.cons_coe, zero_add] at this
    exact this

theorem putSkbs_eq (bs : List SkBuff) : h.putSkbs bs = (bs.map fun b => { b with refcnt := b.refcnt - 1 }).foldl freeSkb h := by
  rw [List.foldl_map]
  rfl

theorem books_putSkbs {bs : List SkBuff} (hb : ∀ b ∈ bs, b.refcnt ≤ 1) :
    Books m h (h.putSkbs bs) (bs.map (·.id) : List Nat) 0 := by
  have hput : ∀ c ∈ bs.map fun b => { b with refcnt := b.refcnt - 1 }, c.refcnt < 1 := by
    intro c hc
    obtain ⟨b, hb', rfl⟩ := List.mem_map.1 hc
    have := hb b hb'
    dsimp only
    omega
  have := books_freeSkbs (m := m) (h := h) hput
  rw [List.map_map] at this
  rw [putSkbs_eq]
  exact this

/-- An skb that is sent and freed at once. -/
theorem books_transient (d : Skb) : Books m h ((h.allocSkb m d).2.freeSkb (h.allocSkb m d).1) 0 0 := by
  exact ((books_allocSkb d).trans (books_freeSkb (show (0 : Int) < 1 by decide))).cancel _ rfl (add_comm _ _)

/-! ## Changes of one queue -/

/-- Socket `i` changes. -/
theorem books_modifySock {i : Nat} {sk : SkbSock} {f : SkbSock → SkbSock} (hi : h.socks[i]? = some sk)
    (hids : (f sk).ids + y = sk.ids + x) (hfit : sk.Fit h.transmits → (f sk).Fit h.transmits) :
    Books m h (h.modifySock i f) x y := by
  refine .of_held rfl rfl ?_ fun hf => ⟨fun s hs => ?_, hf.pending, hf.waiting, hf.known⟩
  · have hsum := sum_map_modify SkbSock.ids hi f
    unfold held linked modifySock
    dsimp only
    refine add_right_cancel (b := sk.ids) ?_
    generalize (h.ndpCache.map (·.queue.ids)).sum = p
    generalize ((h.waiting.map (·.2.id) : List Nat) : Multiset Nat) = w
    calc _ = (((h.socks.modify i f).map SkbSock.ids).sum + sk.ids) + (p + w + y) := by abel
      _ = (h.socks.map SkbSock.ids).sum + ((f sk).ids + y) + (p + w) := by rw [hsum]; abel
      _ = _ := by rw [hids]; abel
  · rcases mem_modify hs with hs | ⟨s', hs', rfl⟩
    · exact hf.socks s hs
    · rw [hi, Option.some.injEq] at hs'
      exact hs' ▸ hfit (hf.socks sk (List.mem_of_getElem? hi))

/-- Socket `i` changes, but none of its skbs. -/
theorem books_modifySock_same {i : Nat} {f : SkbSock → SkbSock} (hids : ∀ sk, (f sk).ids = sk.ids)
    (hfit : ∀ ts sk, sk.Fit ts → (f sk).Fit ts) : Books m h (h.modifySock i f) 0 0 := by
  cases hi : h.socks[i]? with
  | none =>
    rw [modifySock, modify_none hi]
    exact .rfl'
  | some sk => exact books_modifySock hi (by rw [hids]) (hfit _ sk)

/-- The entry of a neighbour changes. -/
theorem books_modifyNdp {i : Nat} {e : NdpNeighbour} {f : NdpNeighbour → NdpNeighbour} (hi : h.ndpCache[i]? = some e)
    (hids : (f e).queue.ids + y = e.queue.ids + x)
    (hfit : (e.queue.Fit fun b => b.refcnt = 0) → (f e).queue.Fit fun b => b.refcnt = 0) :
    Books m h { h with ndpCache := h.ndpCache.modify i f } x y := by
  refine .of_held rfl rfl ?_ fun hf => ⟨hf.socks, fun e' he' => ?_, hf.waiting, hf.known⟩
  · have hsum := sum_map_modify (fun e : NdpNeighbour => e.queue.ids) hi f
    unfold held linked
    dsimp only
    refine add_right_cancel (b := e.queue.ids) ?_
    generalize (h.socks.map SkbSock.ids).sum = p
    generalize ((h.waiting.map (·.2.id) : List Nat) : Multiset Nat) = w
    calc _ = (((h.ndpCache.modify i f).map (·.queue.ids)).sum + e.queue.ids) + (p + w + y) := by abel
      _ = (h.ndpCache.map (·.queue.ids)).sum + ((f e).queue.ids + y) + (p + w) := by rw [hsum]; abel
      _ = _ := by rw [hids]; abel
  · rcases mem_modify he' with he' | ⟨e₀, he₀, rfl⟩
    · exact hf.pending e' he'
    · rw [hi, Option.some.injEq] at he₀
      exact he₀ ▸ hfit (hf.pending e (List.mem_of_getElem? hi))

/-! ## The output paths -/

theorem books_dstNeighOutput (rt : RtEntry) (a : U32) : Books m h (h.dstNeighOutput m rt a) 0 0 := by
  unfold dstNeighOutput
  generalize (if rt.flags &&& RT_GATEWAY ≠ 0 then rt.gateway4 else a) = nextHop
  dsimp only
  split
  · exact .rfl'
  · exact books_transient {}

/-- `ip_output` leaves the skb to its caller, whatever happens. -/
theorem books_ipOutput (a : U32) : Books m h (h.ipOutput m a) 0 0 := by
  unfold ipOutput
  split
  · exact .rfl'
  · exact books_dstNeighOutput _ a

theorem books_ndpEntryAlloc (ip6 : In6Addr) : Books m h (h.ndpEntryAlloc ip6) 0 0 := by
  unfold ndpEntryAlloc
  split
  · exact .rfl'
  refine .of_held rfl rfl ?_ fun hf => ⟨hf.socks, fun e he => ?_, hf.waiting, hf.known⟩
  · unfold held linked
    dsimp only
    rw [List.map_append, List.sum_append]
    show _ + (_ + (0 + 0)) + _ + 0 = _
    simp only [add_zero]
  · rcases List.mem_append.1 he with he | he
    · exact hf.pending e he
    · rw [List.mem_singleton.1 he]
      exact .nil

/-- The neighbour gets a copy of its own. -/
theorem books_ndpQueueSkb (ip6 : In6Addr) (b : SkBuff) : Books m h (h.ndpQueueSkb m ip6 b) 0 0 := by
  unfold ndpQueueSkb
  split
  · exact .rfl'
  · next e he =>
    split
    · exact .rfl'
    · refine ((books_allocSkb b.data).trans (books_modifyNdp (x := {h.heap.allocs.length}) (y := 0) he ?_ ?_)).cancel _ rfl
        (add_comm _ _)
      · rw [SkbHead.ids_tail]
        exact add_zero _
      · exact fun hq => hq.tail rfl

theorem books_dst6NeighOutput (b : SkBuff) (rt : Route6) (a : In6Addr) : Books m h (h.dst6NeighOutput m b rt a) 0 0 := by
  unfold dst6NeighOutput
  generalize (if rt.flags &&& RT_GATEWAY ≠ 0 then rt.gateway else a) = nextHop
  dsimp only
  split
  · exact .rfl'
  refine (books_ndpQueueSkb _ b).after (Books.after ?_ (books_transient {}))
  split
  · exact books_ndpEntryAlloc _
  · exact .rfl'

/-- `ipv6_output_ex` with a route leaves the skb to its caller. -/
theorem books_ipv6OutputEx {b : SkBuff} {a : In6Addr} (hr : (h.route6Lookup a).isSome) :
    Books m h (h.ipv6OutputEx m b a) 0 0 := by
  unfold ipv6OutputEx
  split
  · next hn =>
    rw [hn] at hr
    cases hr
  · exact books_dst6NeighOutput b _ a

theorem ipv6OutputEx_unrouted {b : SkBuff} {a : In6Addr} (hr : ¬ (h.route6Lookup a).isSome) :
    h.ipv6OutputEx m b a = h.freeSkb b := by
  unfold ipv6OutputEx
  split
  · rfl
  · next hs =>
    rw [hs] at hr
    exact absurd rfl hr

/-- There is a route to a destination, over IPv4 for want of a better one. -/
def reaches (h : SkbHost) : PeerAddr → Bool
  | .v4 _ => true
  | .v6 a => (h.route6Lookup a).isSome

/-- What is sent on socket `i` finds a route. -/
def routed (h : SkbHost) (i : Nat) : Bool := (h.socks[i]?).all fun sk => h.reaches sk.daddr

/-- `tcp_transmit_skb` with a route leaves the skb to its caller. -/
theorem books_tcpTransmitSkb {i : Nat} {b : SkBuff} (hr : h.routed i) : Books m h (h.tcpTransmitSkb m i b) 0 0 := by
  unfold tcpTransmitSkb
  split
  · exact .rfl'
  · next sk hsk =>
    rw [routed, hsk, Option.all_some] at hr
    split
    · exact books_ipOutput _
    · next a ha =>
      rw [ha] at hr
      exact books_ipv6OutputEx hr

/-- Without one it frees it. -/
theorem tcpTransmitSkb_unrouted {i : Nat} {b : SkBuff} (hr : ¬ h.routed i) : h.tcpTransmitSkb m i b = h.freeSkb b := by
  unfold tcpTransmitSkb
  cases hsk : h.socks[i]? with
  | none =>
    rw [routed, hsk] at hr
    exact absurd rfl hr
  | some sk =>
    rw [routed, hsk, Option.all_some] at hr
    dsimp only
    cases ha : sk.daddr with
    | v4 a =>
      rw [ha] at hr
      exact absurd rfl hr
    | v6 a =>
      rw [ha] at hr
      exact ipv6OutputEx_unrouted hr

/-! ## What a step does to the account -/

/-- A step frees an skb to be sent once too often. -/
def Doubles (m : Heap.Allocator) (h h' : SkbHost) : Prop := ∃ n ∈ h'.transmits, n ∈ h'.heap.frees ∧ Books m h h' {n} 0

/-- A step loses an skb to be sent. -/
def Loses (m : Heap.Allocator) (h h' : SkbHost) : Prop := ∃ n ∈ h'.transmits, Books m h h' 0 {n}

theorem Doubles.after (b : Doubles m h' h'') (a : Books m h h' 0 0) : Doubles m h h'' := by
  obtain ⟨n, ht, hf, hb⟩ := b
  exact ⟨n, ht, hf, hb.after a⟩

theorem Doubles.before (b : Books m h' h'' 0 0) (a : Doubles m h h') : Doubles m h h'' := by
  obtain ⟨n, ht, hf, ha⟩ := a
  exact ⟨n, b.transmits ht, b.path.frees_subset hf, ha.trans b⟩

theorem mem_frees_freeSkb {b : SkBuff} (hb : b.refcnt < 1) : b.id ∈ (h.freeSkb b).heap.frees := by
  rw [freeSkb, if_pos hb]
  exact List.mem_append_right _ List.mem_cons_self

/-- An skb on `write_queue` is sent: without a route that frees it. -/
theorem doubles_tcpTransmitSkb {i : Nat} {b : SkBuff} (hb : b.refcnt = 0) (ht : b.id ∈ h.transmits) (hr : ¬ h.routed i) :
    Doubles m h (h.tcpTransmitSkb m i b) := by
  have hb : b.refcnt < 1 := by omega
  rw [tcpTransmitSkb_unrouted hr]
  exact ⟨b.id, (books_freeSkb (m := m) hb).transmits ht, mem_frees_freeSkb hb, books_freeSkb hb⟩

/-- An skb of its own is sent and freed. -/
theorem books_sendOwn {i : Nat} {d : Skb} (hr : h.routed i) :
    Books m h (((h.allocSkb m d).2.tcpTransmitSkb m i (h.allocSkb m d).1).freeSkb (h.allocSkb m d).1) 0 0 := by
  have hr' : (h.allocSkb m d).2.routed i := hr
  exact (((books_allocSkb d).trans (books_tcpTransmitSkb hr')).trans (books_freeSkb (show (0 : Int) < 1 by decide))).cancel _ rfl
    (add_comm _ _)

/-- Without a route it is freed twice. -/
theorem doubles_sendOwn {i : Nat} {d : Skb} (hr : ¬ h.routed i) :
    Doubles m h (((h.allocSkb m d).2.tcpTransmitSkb m i (h.allocSkb m d).1).freeSkb (h.allocSkb m d).1) := by
  have hr' : ¬ (h.allocSkb m d).2.routed i := hr
  rw [tcpTransmitSkb_unrouted hr']
  have hb : (h.allocSkb m d).1.refcnt < 1 := show (0 : Int) < 1 by decide
  have htwice := (books_freeSkb (m := m) (h := (h.allocSkb m d).2) hb).trans (books_freeSkb hb)
  refine ⟨(h.allocSkb m d).1.id, htwice.transmits (List.mem_append_right _ List.mem_cons_self), mem_frees_freeSkb hb, ?_⟩
  exact ((books_allocSkb d).trans htwice).cancel _ (zero_add _) (add_comm _ _)

/-! ## The queues of a socket -/

/-- `tcp_consume_ofo_queue` moves skbs from one queue of the socket to another. -/
theorem ids_tcpConsumeOfoQueue (nxt : U32) (sk : SkbSock) : (tcpConsumeOfoQueue nxt sk).ids = sk.ids := by
  unfold tcpConsumeOfoQueue SkbSock.ids
  dsimp only
  generalize SkbHead.ofoTurns nxt sk.ofoQueue.skbs sk.ofoQueue.qlen = k
  rw [SkbHead.ids_foldl_tail, ← sk.ofoQueue.ids_take_add_dequeue k]
  abel

theorem fit_tcpConsumeOfoQueue {ts : List Nat} {sk : SkbSock} (nxt : U32) (hf : sk.Fit ts) :
    (tcpConsumeOfoQueue nxt sk).Fit ts :=
  ⟨hf.write, hf.receive.foldl_tail fun b hb => hf.ofo.each b (List.mem_of_mem_take hb),
    hf.ofo.dequeue (SkbHead.ofoTurns_le _ _ _)⟩

/-- The first skbs of a queue are dequeued and freed. -/
theorem books_dropFrom {i k : Nat} {get : SkbSock → SkbHead} {set : SkbSock → SkbHead → SkbSock} (hf : h.Fit)
    (hk : ∀ sk, h.socks[i]? = some sk → k ≤ (get sk).skbs.length)
    (hids : ∀ sk, (set sk ((get sk).dequeue k)).ids + (((get sk).skbs.take k).map (·.id) : List Nat) = sk.ids)
    (hfit : ∀ ts sk, k ≤ (get sk).skbs.length → sk.Fit ts → (set sk ((get sk).dequeue k)).Fit ts)
    (href : ∀ ts sk, sk.Fit ts → ∀ b ∈ (get sk).skbs, b.refcnt ≤ 1) : Books m h (h.dropFrom i k get set) 0 0 := by
  unfold dropFrom
  split
  · exact .rfl'
  · next sk hi =>
    have hmove : Books m h (h.modifySock i fun sk => set sk ((get sk).dequeue k)) 0
        (((get sk).skbs.take k).map (·.id) : List Nat) := by
      refine books_modifySock hi ?_ (hfit _ _ (hk sk hi))
      rw [hids, add_zero]
    refine (hmove.trans (books_putSkbs fun b hb => ?_)).cancel _ rfl (add_comm _ _)
    exact href _ sk (hf.socks sk (List.mem_of_getElem? hi)) b (List.mem_of_mem_take hb)

theorem books_dropWrite {i k : Nat} (hf : h.Fit) (hk : ∀ sk, h.socks[i]? = some sk → k ≤ sk.writeQueue.skbs.length) :
    Books m h (h.dropFrom i k (·.writeQueue) fun sk q => { sk with writeQueue := q }) 0 0 := by
  refine books_dropFrom hf hk (fun sk => ?_) (fun ts sk hk hs => ⟨hs.write.dequeue hk, hs.receive, hs.ofo⟩) fun ts sk hs b hb => ?_
  · unfold SkbSock.ids
    dsimp only
    rw [← sk.writeQueue.ids_take_add_dequeue k]
    abel
  · have := (hs.write.each b hb).1
    omega

theorem books_dropOfo {i k : Nat} (hf : h.Fit) (hk : ∀ sk, h.socks[i]? = some sk → k ≤ sk.ofoQueue.skbs.length) :
    Books m h (h.dropFrom i k (·.ofoQueue) fun sk q => { sk with ofoQueue := q }) 0 0 := by
  refine books_dropFrom hf hk (fun sk => ?_) (fun ts sk hk hs => ⟨hs.write, hs.receive, hs.ofo.dequeue hk⟩)
    fun ts sk hs b hb => (hs.ofo.each b hb).le
  unfold SkbSock.ids
  dsimp only
  rw [← sk.ofoQueue.ids_take_add_dequeue k]
  abel

/-- The skbs that are left of the receive queue may have shrunk. -/
theorem books_dropReceive {i k : Nat} {g : SkBuff → SkBuff} (hid : ∀ b, (g b).id = b.id) (href : ∀ b, (g b).refcnt = b.refcnt)
    (hf : h.Fit) (hk : ∀ sk, h.socks[i]? = some sk → k ≤ sk.receiveQueue.skbs.length) :
    Books m h (h.dropFrom i k (·.receiveQueue) fun sk q => { sk with receiveQueue := { q with skbs := q.skbs.modifyHead g } }) 0
      0 := by
  have hmap : ∀ l : List SkBuff, (l.modifyHead g).map (·.id) = l.map (·.id) := by
    intro l
    cases l with
    | nil => rfl
    | cons b l => exact congrArg (· :: _) (hid b)
  have hmem : ∀ l : List SkBuff, ∀ b ∈ l.modifyHead g, ∃ c ∈ l, b.refcnt = c.refcnt := by
    intro l b hb
    cases l with
    | nil => cases hb
    | cons c l =>
      rcases List.mem_cons.1 hb with rfl | hb
      · exact ⟨c, List.mem_cons_self, href c⟩
      · exact ⟨b, List.mem_cons_of_mem _ hb, rfl⟩
  refine books_dropFrom hf hk (fun sk => ?_) (fun ts sk hk hs => ⟨hs.write, ?_, hs.ofo⟩)
    fun ts sk hs b hb => (hs.receive.each b hb).le
  · unfold SkbSock.ids
    dsimp only
    rw [← sk.receiveQueue.ids_take_add_dequeue k, SkbHead.ids, hmap]
    show (sk.receiveQueue.dequeue k).ids + _ + _ + _ = _
    abel
  · refine (hs.receive.dequeue hk).relabel (List.length_modifyHead ..) fun b hb => ?_
    obtain ⟨c, hc, he⟩ := hmem _ b hb
    exact he.trans (hs.receive.each c (List.mem_of_mem_drop hc))

theorem books_dropReceive_id {i k : Nat} (hf : h.Fit)
    (hk : ∀ sk, h.socks[i]? = some sk → k ≤ sk.receiveQueue.skbs.length) :
    Books m h (h.dropFrom i k (·.receiveQueue) fun sk q => { sk with receiveQueue := q }) 0 0 := by
  have := books_dropReceive (m := m) (i := i) (k := k) (g := id) (fun _ => rfl) (fun _ => rfl) hf hk
  simp only [List.modifyHead_id, id_eq] at this
  exact this

theorem putSkbs_socks (bs : List SkBuff) : (h.putSkbs bs).socks = h.socks := by
  unfold putSkbs
  induction bs generalizing h with
  | nil => rfl
  | cons b bs ih =>
    rw [List.foldl_cons, ih]
    unfold freeSkb
    split <;> rfl

theorem dropFrom_socks {i k : Nat} {get : SkbSock → SkbHead} {set : SkbSock → SkbHead → SkbSock} {sk : SkbSock}
    (hi : h.socks[i]? = some sk) : (h.dropFrom i k get set).socks[i]? = some (set sk ((get sk).dequeue k)) := by
  simp only [dropFrom, hi, putSkbs_socks, modifySock, List.getElem?_modify_eq]
  rfl

theorem books_sockFree {i : Nat} (hf : h.Fit) : Books m h (h.sockFree i) 0 0 := by
  unfold sockFree
  split
  · exact .rfl'
  · next sk hi =>
    have hrecv : ∀ sk', h.socks[i]? = some sk' →
        SkbHead.turns (fun _ => true) sk.receiveQueue.skbs sk.receiveQueue.qlen ≤ sk'.receiveQueue.skbs.length := by
      intro sk' hi'
      obtain rfl := Option.some.inj (hi.symm.trans hi')
      exact SkbHead.turns_le _ _ _
    refine Books.after (books_dropWrite ((books_dropReceive_id (m := m) hf hrecv).fit hf) fun sk' hi' => ?_)
      (books_dropReceive_id hf hrecv)
    rw [dropFrom_socks hi, Option.some.injEq] at hi'
    rw [← hi']
    exact SkbHead.turns_le _ _ _

/-- The marks on the skbs of `write_queue` change, or their numbers. -/
theorem books_relabel {i : Nat} {g : List SkBuff → List SkBuff} (hids : ∀ l, (g l).map (·.id) = l.map (·.id))
    (hmem : ∀ l, ∀ b ∈ g l, ∃ c ∈ l, b.refcnt = c.refcnt ∧ b.id = c.id) :
    Books m h (h.modifySock i fun sk => { sk with writeQueue := { sk.writeQueue with skbs := g sk.writeQueue.skbs } }) 0 0 := by
  refine books_modifySock_same (fun sk => ?_) fun ts sk hs => ⟨hs.write.relabel ?_ fun b hb => ?_, hs.receive, hs.ofo⟩
  · show sk.receiveQueue.ids + (((g sk.writeQueue.skbs).map (·.id) : List Nat) : Multiset Nat) + sk.ofoQueue.ids = sk.ids
    rw [hids]
    rfl
  · have := congrArg List.length (hids sk.writeQueue.skbs)
    simpa only [List.length_map] using this
  · obtain ⟨c, hc, hr, hi⟩ := hmem _ b hb
    rw [hr, hi]
    exact hs.write.each c hc

theorem books_relabel_map {i : Nat} {g : SkBuff → SkBuff} (hg : ∀ b, (g b).refcnt = b.refcnt ∧ (g b).id = b.id) :
    Books m h (h.modifySock i fun sk => { sk with writeQueue := { sk.writeQueue with skbs := sk.writeQueue.skbs.map g } }) 0
      0 := by
  refine books_relabel (g := (·.map g)) (fun l => ?_) fun l b hb => ?_
  · rw [List.map_map]
    exact List.map_congr_left fun b _ => (hg b).2
  · obtain ⟨c, hc, rfl⟩ := List.mem_map.1 hb
    exact ⟨c, hc, hg c⟩

/-! ## Received segments -/

theorem ids_receive_tail (sk : SkbSock) (b : SkBuff) :
    SkbSock.ids { sk with receiveQueue := sk.receiveQueue.tail b } = sk.ids + {b.id} := by
  unfold SkbSock.ids
  dsimp only
  rw [SkbHead.ids_tail]
  abel

/-- A received skb gets its reference and its place in a queue. -/
theorem books_receive {i : Nat} {sk : SkbSock} {d : Skb} {f : SkbSock → SkbSock} (hi : h.socks[i]? = some sk)
    (hids : (f sk).ids = sk.ids + {h.heap.allocs.length}) (hfit : sk.Fit h.transmits → (f sk).Fit h.transmits) :
    Books m h ((h.rxSkb m d).2.modifySock i f) 0 0 := by
  have hhold : Books m (h.rxSkb m d).2 ((h.rxSkb m d).2.modifySock i f) {h.heap.allocs.length} 0 :=
    books_modifySock (h := (h.rxSkb m d).2) hi (by rw [hids, add_zero]) hfit
  exact ((books_rxSkb d).trans hhold).cancel _ rfl (add_comm _ _)

/-! ## The steps -/

/-- The socket on which an event hands an skb to `tcp_transmit_skb`. -/
def sendsOn (h : SkbHost) : SkbEvent → Option Nat
  | .queueTransmit k _ => (h.waiting[k]?).bind fun p => if p.1 < h.socks.length then some p.1 else none
  | .sendNext i k inflight sndWnd _ =>
    ((h.socks[i]?).bind (·.writeQueue.skbs[k]?)).bind fun next =>
      if next.data.seq ≠ 0 ∨ inflight + next.data.dlen > sndWnd then none else some i
  | .sendAck i state => if state = .close then none else some i
  | .sendReset i => some i
  | .fastRetransmit i sackMaxRight => ((h.socks[i]?).bind (tcpRetransmitCandidate ·.writeQueue sackMaxRight)).map fun _ => i
  | .rtoRetransmit i => ((h.socks[i]?).bind (·.writeQueue.peek)).map fun _ => i
  | .dataQueue i rcvWnd rcvNxt state data =>
    if i < h.socks.length ∧ rcvWnd ≠ 0 ∧ data.seq ≠ rcvNxt ∧ state ≠ .close then some i else none
  | _ => none

/-- The destination of an ICMPv6 message that an event hands to `ipv6_output`. -/
def icmpv6To : SkbEvent → Option In6Addr
  | .echoReply a | .sendError a => some a
  | _ => none

/-- Every segment the event sends finds a route. -/
def SendsRouted (h : SkbHost) (e : SkbEvent) : Prop := ∀ i ∈ h.sendsOn e, h.routed i

instance (h : SkbHost) (e : SkbEvent) : Decidable (h.SendsRouted e) :=
  decidable_of_iff ((h.sendsOn e).all fun i => h.routed i) (by simp [SendsRouted, Option.all_eq_true])

/-- No ICMPv6 message of the event does. -/
def RepliesUnrouted (h : SkbHost) (e : SkbEvent) : Prop := ∀ a ∈ icmpv6To e, h.route6Lookup a = none

theorem mem_of_peek {q : SkbHead} {b : SkBuff} (h : q.peek = some b) : b ∈ q.skbs := by
  unfold SkbHead.peek at h
  split at h
  · cases h
  · exact List.mem_of_mem_head? h

theorem mem_of_candidate {q : SkbHead} {r : U32} {b : SkBuff} (h : tcpRetransmitCandidate q r = some b) : b ∈ q.skbs := by
  unfold tcpRetransmitCandidate at h
  rcases Option.or_eq_some_iff.1 h with h | ⟨-, h⟩
  · split at h
    · exact List.mem_of_find?_eq_some h
    · cases h
  · exact mem_of_peek h

/-- The outcome of an event: the account is right after it, if what it sends is
routed; else an skb is freed once more. -/
structure Sends (m : Heap.Allocator) (h h' : SkbHost) (on : Option Nat) : Prop where
  right : (∀ i ∈ on, h.routed i) → Books m h h' 0 0
  wrong : ¬ (∀ i ∈ on, h.routed i) → Doubles m h h'

theorem Sends.none' (hb : Books m h h' 0 0) : Sends m h h' none := ⟨fun _ => hb, fun hn => absurd nofun hn⟩

theorem Sends.on {i : Nat} (hr : h.routed i → Books m h h' 0 0) (hw : ¬ h.routed i → Doubles m h h') : Sends m h h' (some i) := by
  refine ⟨fun hon => hr (hon i rfl), fun hon => hw fun hri => hon fun j hj => ?_⟩
  obtain rfl := Option.some.inj hj
  exact hri

theorem Sends.before {on : Option Nat} (b : Books m h' h'' 0 0) (a : Sends m h h' on) : Sends m h h'' on :=
  ⟨fun hr => b.after (a.right hr), fun hw => (a.wrong hw).before b⟩

/-- An skb of socket `i` is sent and stays where it is. -/
theorem sends_tcpTransmitSkb {i : Nat} {b : SkBuff} (hb : b.refcnt = 0 ∧ b.id ∈ h.transmits) :
    Sends m h (h.tcpTransmitSkb m i b) (some i) :=
  .on books_tcpTransmitSkb (doubles_tcpTransmitSkb hb.1 hb.2)

theorem sends_tcpSendAck (i : Nat) (state : TcpState) :
    Sends m h (h.tcpSendAck m i state) (if state = .close then none else some i) := by
  unfold tcpSendAck
  split
  · exact .none' .rfl'
  · exact .on books_sendOwn doubles_sendOwn

theorem routed_modifySock {i j : Nat} {f : SkbSock → SkbSock} (hf : ∀ sk, (f sk).daddr = sk.daddr) :
    (h.modifySock i f).routed j = h.routed j := by
  unfold routed modifySock
  dsimp only
  rw [List.getElem?_modify]
  cases h.socks[j]? with
  | none => rfl
  | some sk =>
    show h.reaches (if i = j then f sk else sk).daddr = h.reaches sk.daddr
    split
    · rw [hf]
    · rfl

/-- What is done before the sending is undone after it. -/
theorem Sends.around {h₃ : SkbHost} {on : Option Nat} (s : Sends m h' h'' on) (a : Books m h h' x y) (c : Books m h'' h₃ y x)
    (hr : ∀ i, h'.routed i = h.routed i) : Sends m h h₃ on := by
  have hon : (∀ i ∈ on, h.routed i) ↔ ∀ i ∈ on, h'.routed i := by simp only [hr]
  refine ⟨fun hri => ?_, fun hri => ?_⟩
  · exact ((a.trans (s.right (hon.1 hri))).trans c).cancel (x + y) (by abel) (by abel)
  · obtain ⟨n, ht, hf, hb⟩ := s.wrong (mt hon.2 hri)
    exact ⟨n, c.transmits ht, c.path.frees_subset hf, ((a.trans hb).trans c).cancel (x + y) (by abel) (by abel)⟩

/-- An skb leaves the waiting ones for `write_queue`. -/
theorem books_queue {i k : Nat} {b : SkBuff} (b' : SkBuff) (hk : h.waiting[k]? = some (i, b)) (hi : i < h.socks.length)
    (hid : b'.id = b.id) (hrc : b'.refcnt = b.refcnt) :
    Books m h (modifySock { h with waiting := h.waiting.eraseIdx k } i fun sk =>
      { sk with writeQueue := sk.writeQueue.tail b' }) 0 0 := by
  obtain ⟨hlt, hget⟩ := List.getElem?_eq_some_iff.1 hk
  have hsk : h.socks[i]? = some h.socks[i] := List.getElem?_eq_getElem hi
  have hperm := (List.getElem_cons_eraseIdx_perm hlt).map (·.2.id)
  rw [hget, List.map_cons] at hperm
  have hsum := sum_map_modify SkbSock.ids hsk fun sk => { sk with writeQueue := sk.writeQueue.tail b' }
  refine .of_held rfl rfl ?_ fun hf => ⟨fun s hs => ?_, hf.pending, fun p hp => hf.waiting p (List.mem_of_mem_eraseIdx hp), hf.known⟩
  · have hids : SkbSock.ids { h.socks[i] with writeQueue := h.socks[i].writeQueue.tail b' } = h.socks[i].ids + {b.id} := by
      unfold SkbSock.ids
      dsimp only
      rw [SkbHead.ids_tail, hid]
      abel
    have hwait : ((h.waiting.map (·.2.id) : List Nat) : Multiset Nat) =
        {b.id} + ((h.waiting.eraseIdx k).map (·.2.id) : List Nat) := by
      rw [Multiset.singleton_add, Multiset.cons_coe]
      exact Multiset.coe_eq_coe.2 hperm.symm
    rw [hids] at hsum
    unfold held linked modifySock
    dsimp only
    refine add_right_cancel (b := h.socks[i].ids) ?_
    rw [hwait]
    generalize (h.ndpCache.map (·.queue.ids)).sum = p
    generalize (((h.waiting.eraseIdx k).map (·.2.id) : List Nat) : Multiset Nat) = w
    calc _ = (((h.socks.modify i _).map SkbSock.ids).sum + h.socks[i].ids) + (p + w) := by abel
      _ = _ := by rw [hsum]; abel
  · rcases mem_modify hs with hs | ⟨s', hs', rfl⟩
    · exact hf.socks s hs
    · have hs := hf.socks s' (List.mem_of_getElem? hs')
      refine ⟨hs.write.tail ?_, hs.receive, hs.ofo⟩
      rw [hrc, hid]
      exact hf.waiting _ (List.mem_of_getElem? hk)

theorem sends_tcpQueueTransmitSkb (hf : h.Fit) (k : Nat) (nxt : U32) :
    Sends m h (h.tcpQueueTransmitSkb m k nxt) (h.sendsOn (.queueTransmit k nxt)) := by
  cases hk : h.waiting[k]? with
  | none =>
    simp only [tcpQueueTransmitSkb, sendsOn, hk]
    exact .none' .rfl'
  | some p =>
    obtain ⟨i, b⟩ := p
    simp only [tcpQueueTransmitSkb, sendsOn, hk, Option.bind_some]
    split
    · next hi =>
      have hbooks : Books m h _ 0 0 :=
        books_queue { b with data := { b.data with seq := nxt, endSeq := nxt + b.data.dlen } } hk hi rfl rfl
      refine (sends_tcpTransmitSkb ?_).around hbooks .rfl' fun _ => routed_modifySock fun _ => rfl
      exact hf.waiting _ (List.mem_of_getElem? hk)
    · exact .none' .rfl'

theorem sends_tcpSendNextTurn (hf : h.Fit) (i k : Nat) (inflight sndWnd nxt : U32) :
    Sends m h (h.tcpSendNextTurn m i k inflight sndWnd nxt) (h.sendsOn (.sendNext i k inflight sndWnd nxt)) := by
  cases hk : (h.socks[i]?).bind (·.writeQueue.skbs[k]?) with
  | none =>
    simp only [tcpSendNextTurn, sendsOn, hk]
    exact .none' .rfl'
  | some next =>
    simp only [tcpSendNextTurn, sendsOn, hk, Option.bind_some]
    split
    · exact .none' .rfl'
    · obtain ⟨sk, hsk, hb⟩ := Option.bind_eq_some_iff.1 hk
      have hfit := (hf.socks sk (List.mem_of_getElem? hsk)).write.each next (List.mem_of_getElem? hb)
      refine Sends.before (books_relabel (g := fun l => l.modify k fun b =>
        { b with data := { b.data with seq := nxt, endSeq := nxt + b.data.dlen } }) (fun l => ?_) fun l c hc => ?_)
        (sends_tcpTransmitSkb hfit)
      · refine map_modify_same ?_ l k
        exact fun _ => rfl
      · rcases mem_modify hc with hc | ⟨c', hc', rfl⟩
        · exact ⟨c, hc, rfl, rfl⟩
        · exact ⟨c', List.mem_of_getElem? hc', rfl, rfl⟩

theorem sends_tcpFastRetransmit (hf : h.Fit) (i : Nat) (r : U32) :
    Sends m h (h.tcpFastRetransmit m i r) (h.sendsOn (.fastRetransmit i r)) := by
  cases hk : (h.socks[i]?).bind (tcpRetransmitCandidate ·.writeQueue r) with
  | none =>
    simp only [tcpFastRetransmit, sendsOn, hk]
    exact .none' .rfl'
  | some b =>
    simp only [tcpFastRetransmit, sendsOn, hk]
    obtain ⟨sk, hsk, hb⟩ := Option.bind_eq_some_iff.1 hk
    exact sends_tcpTransmitSkb ((hf.socks sk (List.mem_of_getElem? hsk)).write.each b (mem_of_candidate hb))

theorem sends_tcpRtoRetransmit (hf : h.Fit) (i : Nat) :
    Sends m h (h.tcpRtoRetransmit m i) (h.sendsOn (.rtoRetransmit i)) := by
  cases hk : (h.socks[i]?).bind (·.writeQueue.peek) with
  | none =>
    simp only [tcpRtoRetransmit, sendsOn, hk]
    exact .none' .rfl'
  | some b =>
    simp only [tcpRtoRetransmit, sendsOn, hk]
    obtain ⟨sk, hsk, hb⟩ := Option.bind_eq_some_iff.1 hk
    exact sends_tcpTransmitSkb ((hf.socks sk (List.mem_of_getElem? hsk)).write.each b (mem_of_peek hb))

theorem books_rxDrop (d : Skb) : Books m h ((h.rxSkb m d).2.freeSkb (h.rxSkb m d).1) 0 0 :=
  ((books_rxSkb d).trans (books_freeSkb (show (0 : Int) < 1 by decide))).cancel _ rfl (add_comm _ _)

theorem sends_tcpDataQueue (i : Nat) (wnd nxt : U32) (state : TcpState) (d : Skb) :
    Sends m h (h.tcpDataQueue m i wnd nxt state d) (h.sendsOn (.dataQueue i wnd nxt state d)) := by
  cases hi : h.socks[i]? with
  | none =>
    have hlen : ¬ i < h.socks.length := fun hlt => by simp [List.getElem?_eq_getElem hlt] at hi
    simp only [tcpDataQueue, sendsOn, hi]
    rw [if_neg fun hn => hlen hn.1]
    exact .none' .rfl'
  | some sk =>
    have hlen : i < h.socks.length := (List.getElem?_eq_some_iff.1 hi).1
    simp only [tcpDataQueue, sendsOn, hi]
    split
    · next hw =>
      rw [if_neg fun hn => hn.2.1 hw]
      exact .none' (books_rxDrop d)
    next hw =>
    split
    · next hs =>
      rw [if_neg fun hn => hn.2.2.1 hs]
      -- with its reference the skb outlives the caller
      rw [freeSkb_held (show ¬ (0 : Int) + 1 < 1 by decide)]
      refine .none' (books_receive hi ?_ fun hf => fit_tcpConsumeOfoQueue _
        ⟨hf.write, hf.receive.tail rfl, hf.ofo⟩)
      rw [ids_tcpConsumeOfoQueue, ids_receive_tail]
      rfl
    next hs =>
    have hon : (if i < h.socks.length ∧ wnd ≠ 0 ∧ d.seq ≠ nxt ∧ state ≠ .close then some i else none) =
        if state = .close then none else some i := by
      by_cases hst : state = .close
      · rw [if_pos hst, if_neg fun hn => hn.2.2.2 hst]
      · rw [if_neg hst, if_pos ⟨hlen, hw, hs, hst⟩]
    rw [hon]
    split
    · exact (sends_tcpSendAck i state).around (books_rxSkb d) (books_freeSkb (show (0 : Int) < 1 by decide)) fun _ => rfl
    · next k hk =>
      rw [freeSkb_held (show ¬ (0 : Int) + 1 < 1 by decide)]
      refine (sends_tcpSendAck i state).around (books_receive hi ?_ fun hs => ⟨hs.write, hs.receive, hs.ofo.add (SkbHead.insertPos_le hk) rfl⟩) .rfl' fun _ =>
        routed_modifySock (h := (h.rxSkb m d).2) fun _ => rfl
      unfold SkbSock.ids
      dsimp only
      rw [SkbHead.ids_add (SkbHead.insertPos_le hk)]
      exact (add_assoc _ _ _).symm

theorem books_ndpNaProcess (hf : h.Fit) (target : In6Addr) (tlla : HwAddr) (flagS flagO : Bool) :
    Books m h (h.ndpNaProcess target tlla flagS flagO) 0 0 := by
  unfold ndpNaProcess
  split
  · exact .rfl'
  next e he =>
  have hset : ∀ e' : NdpNeighbour, h.ndpCache.set (h.ndpIdx target) e' = h.ndpCache.modify (h.ndpIdx target) fun _ => e' :=
    fun e' => List.set_eq_modify e' _ _
  split
  · dsimp only
    rw [hset]
    have hk := SkbHead.turns_le (fun _ => true) e.queue.skbs e.queue.qlen
    generalize SkbHead.turns (fun _ => true) e.queue.skbs e.queue.qlen = k at hk ⊢
    have hb := (hf.pending e (List.mem_of_getElem? he)).each
    refine ((books_modifyNdp (x := 0) (y := ((e.queue.skbs.take k).map (·.id) : List Nat)) he ?_ ?_).trans
      (books_freeSkbs fun b hb' => ?_)).cancel _ rfl (add_comm _ _)
    · show (e.queue.dequeue k).ids + _ = _
      rw [add_comm, SkbHead.ids_take_add_dequeue, add_zero]
    · exact fun hq => hq.dequeue hk
    · rw [hb b (List.mem_of_mem_take hb')]
      decide
  · dsimp only
    rw [hset]
    have hkeep : ∀ e' : NdpNeighbour, e'.queue = e.queue →
        Books m h { h with ndpCache := h.ndpCache.modify (h.ndpIdx target) fun _ => e' } 0 0 :=
      fun e' hq => books_modifyNdp he (by rw [hq]) (by rw [hq]; exact id)
    refine hkeep _ ?_
    split_ifs <;> rfl

/-- A message that `ipv6_output` sends and nobody frees. -/
theorem loses_ipv6Output {a : In6Addr} (hr : h.route6Lookup a ≠ none) :
    Loses m h ((h.allocSkb m {}).2.ipv6OutputEx m (h.allocSkb m {}).1 a) := by
  have hr' : ((h.allocSkb m {}).2.route6Lookup a).isSome := Option.isSome_iff_ne_none.2 hr
  have hsent : Books m (h.allocSkb m {}).2 _ 0 0 := books_ipv6OutputEx (b := (h.allocSkb m {}).1) hr'
  refine ⟨(h.allocSkb m {}).1.id, hsent.transmits (List.mem_append_right _ List.mem_cons_self), ?_⟩
  have := (books_allocSkb (m := m) (h := h) {}).trans hsent
  simpa only [add_zero] using this

/-- One that finds no route is freed there. -/
theorem books_ipv6Output_unrouted {a : In6Addr} (hr : h.route6Lookup a = none) :
    Books m h ((h.allocSkb m {}).2.ipv6OutputEx m (h.allocSkb m {}).1 a) 0 0 := by
  have hr' : ¬ ((h.allocSkb m {}).2.route6Lookup a).isSome := by
    show ¬ (h.route6Lookup a).isSome
    rw [hr]
    exact Bool.false_ne_true
  rw [ipv6OutputEx_unrouted hr']
  exact books_transient {}

/-- What an event does to the account. -/
structure StepBooks (m : Heap.Allocator) (h h' : SkbHost) (e : SkbEvent) : Prop where
  right : h.SendsRouted e → h.RepliesUnrouted e → Books m h h' 0 0
  doubles : ¬ h.SendsRouted e → Doubles m h h'
  loses : ¬ h.RepliesUnrouted e → Loses m h h'

theorem StepBooks.sends {e : SkbEvent} (h6 : icmpv6To e = none) (s : Sends m h h' (h.sendsOn e)) : StepBooks m h h' e :=
  ⟨fun hr _ => s.right hr, s.wrong, fun hn => absurd (fun a ha => by rw [h6] at ha; cases ha) hn⟩

theorem StepBooks.quiet {e : SkbEvent} (h6 : icmpv6To e = none) (hs : h.sendsOn e = none) (b : Books m h h' 0 0) :
    StepBooks m h h' e := .sends h6 (hs ▸ .none' b)

theorem StepBooks.reply {e : SkbEvent} {a : In6Addr} (h6 : icmpv6To e = some a) (hs : h.sendsOn e = none)
    (he : h' = (h.allocSkb m {}).2.ipv6OutputEx m (h.allocSkb m {}).1 a) : StepBooks m h h' e := by
  subst he
  refine ⟨fun _ hr => books_ipv6Output_unrouted (hr a h6), fun hn => absurd (fun i hi => ?_) hn, fun hn => loses_ipv6Output ?_⟩
  · rw [hs] at hi
    cases hi
  · refine fun hr => hn fun a' ha' => ?_
    rw [h6, Option.mem_some_iff] at ha'
    exact ha' ▸ hr

/-- **The books of a step**: it leaves the account right if the segments it
sends find a route and its ICMPv6 messages do not. -/
theorem step_books (hf : h.Fit) (e : SkbEvent) : StepBooks m h (h.step m e) e := by
  cases e with
  | routeAdd r => exact .quiet rfl rfl (.of_held rfl rfl rfl fun hf => ⟨hf.socks, hf.pending, hf.waiting, hf.known⟩)
  | arpLearn sip => exact .quiet rfl rfl (.of_held rfl rfl rfl fun hf => ⟨hf.socks, hf.pending, hf.waiting, hf.known⟩)
  | ndpNa target tlla flagS flagO => exact .quiet rfl rfl (books_ndpNaProcess hf target tlla flagS flagO)
  | socket daddr =>
    refine .quiet rfl rfl (.of_held rfl rfl ?_ fun hf => ⟨fun sk hsk => ?_, hf.pending, hf.waiting, hf.known⟩)
    · unfold held linked step
      dsimp only
      rw [List.map_append, List.sum_append]
      show _ + (0 + 0) + _ + _ + 0 = _
      simp only [add_zero]
    · rcases List.mem_append.1 hsk with hsk | hsk
      · exact hf.socks sk hsk
      · rw [List.mem_singleton.1 hsk]
        exact ⟨.nil, .nil, .nil⟩
  | setDaddr i daddr =>
    exact .quiet rfl rfl (books_modifySock_same (fun _ => rfl) fun _ _ hs => ⟨hs.write, hs.receive, hs.ofo⟩)
  | allocQueued i data =>
    have hhold : Books m (h.allocSkb m data).2 (h.step m (.allocQueued i data)) {(h.allocSkb m data).1.id} 0 := by
      refine .of_held rfl rfl ?_ fun hf => ⟨hf.socks, hf.pending, fun p hp => ?_, hf.known⟩
      · unfold held
        show _ + ((((h.waiting ++ [(i, (h.allocSkb m data).1)]).map (·.2.id) : List Nat)) : Multiset Nat) + 0 = _
        rw [add_zero, List.map_append, ← Multiset.coe_add, ← add_assoc]
        rfl
      · rcases List.mem_append.1 hp with hp | hp
        · exact hf.waiting p hp
        · rw [List.mem_singleton.1 hp]
          exact ⟨rfl, List.mem_append_right _ List.mem_cons_self⟩
    exact .quiet rfl rfl (((books_allocSkb data).trans hhold).cancel _ rfl (add_comm _ _))
  | queueTransmit k nxt => exact .sends rfl (sends_tcpQueueTransmitSkb hf k nxt)
  | sendNext i k inflight sndWnd nxt => exact .sends rfl (sends_tcpSendNextTurn hf i k inflight sndWnd nxt)
  | sendAck i state => exact .sends rfl (sends_tcpSendAck i state)
  | sendReset i => exact .sends rfl (.on books_sendOwn doubles_sendOwn)
  | fastRetransmit i r => exact .sends rfl (sends_tcpFastRetransmit hf i r)
  | rtoRetransmit i => exact .sends rfl (sends_tcpRtoRetransmit hf i)
  | cleanRtoQueue i una =>
    refine .quiet rfl rfl ?_
    show Books m h (h.tcpCleanRtoQueue i una) 0 0
    unfold tcpCleanRtoQueue
    split
    · exact .rfl'
    · next sk hi => exact books_dropWrite hf fun sk' hi' => Option.some.inj (hi.symm.trans hi') ▸ SkbHead.turns_le _ _ _
  | sackMark i blocks =>
    exact .quiet rfl rfl (books_relabel_map fun b => by split <;> exact ⟨rfl, rfl⟩)
  | sackClear i => exact .quiet rfl rfl (books_relabel_map fun _ => ⟨rfl, rfl⟩)
  | dataQueue i wnd nxt state d => exact .sends rfl (sends_tcpDataQueue i wnd nxt state d)
  | dataDequeue i userlen =>
    refine .quiet rfl rfl ?_
    show Books m h (h.tcpDataDequeue i userlen) 0 0
    unfold tcpDataDequeue
    split
    · exact .rfl'
    · next sk hi =>
      exact books_dropReceive (fun _ => rfl) (fun _ => rfl) hf fun sk' hi' =>
        Option.some.inj (hi.symm.trans hi') ▸ SkbHead.eatTurns_le _ _ _
  | clearQueues i =>
    refine .quiet rfl rfl ?_
    show Books m h (h.tcpClearQueues i) 0 0
    unfold tcpClearQueues
    split
    · exact .rfl'
    · next sk hi => exact books_dropOfo hf fun sk' hi' => Option.some.inj (hi.symm.trans hi') ▸ SkbHead.turns_le _ _ _
  | sockFree i => exact .quiet rfl rfl (books_sockFree hf)
  | udpDataQueue i d =>
    refine .quiet rfl rfl ?_
    show Books m h (h.udpDataQueue m i d) 0 0
    unfold udpDataQueue
    split
    · next hi =>
      exact books_receive (d := d) (List.getElem?_eq_getElem hi) (ids_receive_tail _ _) fun hs =>
        ⟨hs.write, hs.receive.tail rfl, hs.ofo⟩
    · exact .rfl'
  | udpDataDequeue i =>
    refine .quiet rfl rfl ?_
    show Books m h (h.udpDataDequeue i) 0 0
    unfold udpDataDequeue
    split
    · exact .rfl'
    · next sk hi =>
      refine books_dropReceive_id hf fun sk' hi' => ?_
      obtain rfl := Option.some.inj (hi.symm.trans hi')
      split
      · exact Nat.zero_le _
      · next he => exact (hf.socks sk (List.mem_of_getElem? hi)).receive.one_le he
  | echoReply a => exact .reply rfl rfl rfl
  | sendError a => exact .reply rfl rfl rfl
  | icmpv4Reply a =>
    have hsent : Books m (h.allocSkb m {}).2 (h.step m (.icmpv4Reply a)) {(h.allocSkb m {}).1.id} 0 :=
      (books_freeSkb (b := (h.allocSkb m {}).1) (show (0 : Int) < 1 by decide)).after (books_ipOutput a)
    exact .quiet rfl rfl (((books_allocSkb {}).trans hsent).cancel _ rfl (add_comm _ _))

/-! ## The start -/

/-- The account is right: every allocation is held or freed, once. -/
def Balanced (h : SkbHost) : Prop := h.account = h.allocated

theorem fit_boot (routes : List RtEntry) (arpCache : List U32) (neighbours : List (In6Addr × HwAddr × NdpState)) :
    (boot routes arpCache neighbours).Fit := by
  refine ⟨nofun, fun e he => ?_, nofun, nofun⟩
  obtain ⟨p, -, rfl⟩ := List.mem_map.1 he
  exact .nil

theorem balanced_boot (routes : List RtEntry) (arpCache : List U32) (neighbours : List (In6Addr × HwAddr × NdpState)) :
    (boot routes arpCache neighbours).Balanced := by
  have hnone : (((boot routes arpCache neighbours).ndpCache.map (·.queue.ids)).sum) = 0 := by
    refine List.sum_eq_zero fun q hq => ?_
    obtain ⟨e, he, rfl⟩ := List.mem_map.1 hq
    obtain ⟨p, -, rfl⟩ := List.mem_map.1 he
    rfl
  unfold Balanced account held linked
  rw [hnone]
  rfl

/-- A global address, for which a host without a router has no route. -/
def farAddr : In6Addr := fieldOf [0x20, 0x01, 0x0d, 0xb8, 0, 0, 0, 0, 0, 0, 0, 0, 0, 0, 0, 1]

/-- The default route of a Router Advertisement. -/
def raRoute : RtEntry := .v6 ⟨in6Unspecified, farAddr, 0, RT_GATEWAY, 0, 0⟩

end SkbHost

end LevelIp
