/-
The queues of `skbuff.h` as they lie in memory: an skb has its links in it, a queue
is a head with a count. Whatever is put into any of them and taken out again, they
are the lists that `SkbHead` has. What this rests on is that an skb goes into a queue
only while it is in none, which is `SkbHost.Exclusive` of the host.
-/
import LevelIp.Lib.LinkRing
import LevelIp.Lib.Machine
import LevelIp.Skbuff

namespace LevelIp

open LinkRing (Links)

variable {ι : Type*} [DecidableEq ι]

/-- Every `struct sk_buff_head`, and the links. A `struct list_head` is that of a
queue or that of the skb with the given id. -/
structure SkbLinks (ι : Type*) where
  links : Links (ι ⊕ Nat)
  qlen : ι → U32

namespace SkbLinks

/-- `skb_queue_init`. -/
def skbQueueInit (m : SkbLinks ι) (q : ι) : SkbLinks ι := { links := m.links.init (.inl q), qlen := Function.update m.qlen q 0 }

/-- `skb_queue_tail`. -/
def skbQueueTail (m : SkbLinks ι) (q : ι) (new : Nat) : SkbLinks ι :=
  { links := m.links.addTail (.inr new) (.inl q), qlen := Function.update m.qlen q (m.qlen q + 1) }

/-- `skb_queue_add`. -/
def skbQueueAdd (m : SkbLinks ι) (q : ι) (new next : Nat) : SkbLinks ι :=
  { links := m.links.addTail (.inr new) (.inr next), qlen := Function.update m.qlen q (m.qlen q + 1) }

/-- `skb_dequeue`; the skb is the first one, at `next` of the head. -/
def skbDequeue (m : SkbLinks ι) (q : ι) : SkbLinks ι :=
  { links := m.links.del (m.links.next (.inl q)), qlen := Function.update m.qlen q (m.qlen q - 1) }

/-- `skb_queue_empty`. -/
def skbQueueEmpty (m : SkbLinks ι) (q : ι) : Bool := m.qlen q < 1

/-- `skb_peek`. -/
def skbPeek (m : SkbLinks ι) (q : ι) : Option (ι ⊕ Nat) := if m.skbQueueEmpty q then none else some (m.links.next (.inl q))

/-- `list_for_each` over the queue, for `n` turns at most. -/
def listForEach (m : SkbLinks ι) (q : ι) (n : Nat) : List (ι ⊕ Nat) := m.links.walk (.inl q) n (m.links.next (.inl q))

/-- `list_init` of `alloc_skb`. -/
def allocSkb (m : SkbLinks ι) (new : Nat) : SkbLinks ι := { m with links := m.links.init (.inr new) }

/-- What is done with the queues. -/
inductive Op (ι : Type*)
  | init (q : ι)
  | alloc (b : SkBuff)
  | tail (q : ι) (b : SkBuff)
  /-- Before the skb at `i`, which has the id `next`. -/
  | add (q : ι) (b : SkBuff) (i next : Nat)
  | dequeue (q : ι)

def step (m : SkbLinks ι) : Op ι → SkbLinks ι
  | .init q => m.skbQueueInit q
  | .alloc b => m.allocSkb b.id
  | .tail q b => m.skbQueueTail q b.id
  | .add q b _ next => m.skbQueueAdd q b.id next
  | .dequeue q => m.skbDequeue q

end SkbLinks

open SkbLinks (Op)

/-! ## The lists -/

/-- The same done with lists; a queue that is not initialized has none. -/
def SkbHead.stepAll (a : ι → Option SkbHead) : Op ι → ι → Option SkbHead
  | .init q => Function.update a q (some {})
  | .alloc _ => a
  | .tail q b => Function.update a q ((a q).map (·.tail b))
  | .add q b i _ => Function.update a q ((a q).map (·.add b i))
  | .dequeue q => Function.update a q ((a q).map (·.dequeue 1))

/-- The skb is in no queue. -/
def SkbHead.Loose (a : ι → Option SkbHead) (b : SkBuff) : Prop := ∀ q, ∀ s ∈ a q, ∀ x ∈ s.skbs, x.id ≠ b.id

/-- What is new or goes in was in no queue, what it is put before is there, and only what is
there is taken out. -/
def SkbHead.Proper (a : ι → Option SkbHead) : Op ι → Prop
  | .init q => ∀ s ∈ a q, s.skbs = []
  | .alloc b => SkbHead.Loose a b
  | .tail q b => (a q).isSome ∧ SkbHead.Loose a b
  | .add q b i next => SkbHead.Loose a b ∧ ∃ s ∈ a q, (s.skbs[i]?).map (·.id) = some next
  | .dequeue q => ∃ s ∈ a q, s.skbs ≠ []

/-- The places of a queue's skbs. -/
def SkbHead.places (ι : Type*) (s : SkbHead) : List (ι ⊕ Nat) := s.skbs.map fun b => .inr b.id

/-- **The memory is the lists**: each queue is the ring of its skbs, no skb is in two,
and the count is the length. -/
structure SkbLinks.Represents (m : SkbLinks ι) (a : ι → Option SkbHead) : Prop where
  ring : ∀ q, ∀ s ∈ a q, LinkRing.Holds m.links (.inl q) (s.places ι)
  apart : ∀ q q', q ≠ q' → ∀ s ∈ a q, ∀ s' ∈ a q', ∀ x ∈ s.skbs, ∀ y ∈ s'.skbs, x.id ≠ y.id
  qlen : ∀ q, ∀ s ∈ a q, m.qlen q = s.qlen
  count : ∀ q, ∀ s ∈ a q, s.qlen = BitVec.ofNat 32 s.skbs.length

namespace SkbLinks.Represents

variable {m : SkbLinks ι} {a : ι → Option SkbHead} {q q' : ι} {s s' : SkbHead} {b : SkBuff}

omit [DecidableEq ι] in
theorem inr_mem {n : Nat} : .inr n ∈ s.places ι ↔ ∃ x ∈ s.skbs, x.id = n := by
  simp [SkbHead.places]

omit [DecidableEq ι] in
/-- The rings have nothing in common. -/
theorem disjoint (h : m.Represents a) (hq : q ≠ q') (hs : s ∈ a q) (hs' : s' ∈ a q') {x : ι ⊕ Nat}
    (hx : x ∈ .inl q :: s.places ι) : x ∉ .inl q' :: s'.places ι := by
  cases x with
  | inl k =>
    have hk : k = q := by simpa [SkbHead.places] using hx
    simp [SkbHead.places, hk, hq]
  | inr n =>
    simp only [List.mem_cons, reduceCtorEq, false_or, inr_mem] at hx ⊢
    obtain ⟨x, hx, rfl⟩ := hx
    rintro ⟨y, hy, heq⟩
    exact h.apart q q' hq s hs s' hs' x hx y hy heq.symm

omit [DecidableEq ι] in
theorem fresh (hb : SkbHead.Loose a b) (hs : s ∈ a q) : .inr b.id ∉ .inl q :: s.places ι := by
  simp only [List.mem_cons, reduceCtorEq, false_or, inr_mem]
  rintro ⟨x, hx, heq⟩
  exact hb q s hs x hx heq

/-- What is in a queue after one of them has changed. -/
theorem cases_update {k : ι} (hs' : s' ∈ Function.update a q (some s) k) : (k = q ∧ s' = s) ∨ (q ≠ k ∧ s' ∈ a k) := by
  by_cases hk : k = q
  · subst hk
    rw [Function.update_self, Option.mem_some_iff] at hs'
    exact .inl ⟨rfl, hs'.symm⟩
  · rw [Function.update_of_ne hk] at hs'
    exact .inr ⟨Ne.symm hk, hs'⟩

/-- One queue changes, and the links do so without touching another ring. -/
theorem change (h : m.Represents a) {l : Links (ι ⊕ Nat)} {n : U32} (hs : LinkRing.Holds l (.inl q) (s.places ι))
    (hother : ∀ k, q ≠ k → ∀ s' ∈ a k, LinkRing.Holds l (.inl k) (s'.places ι))
    (hids : ∀ k, q ≠ k → ∀ s' ∈ a k, ∀ x ∈ s.skbs, ∀ y ∈ s'.skbs, x.id ≠ y.id) (hn : n = s.qlen)
    (hc : s.qlen = BitVec.ofNat 32 s.skbs.length) :
    SkbLinks.Represents ⟨l, Function.update m.qlen q n⟩ (Function.update a q (some s)) := by
  refine ⟨fun k s' hs' => ?_, fun k k' hk s₁ h₁ s₂ h₂ x hx y hy => ?_, fun k s' hs' => ?_, fun k s' hs' => ?_⟩
  · rcases cases_update hs' with ⟨rfl, rfl⟩ | ⟨hk, hs'⟩
    · exact hs
    · exact hother k hk s' hs'
  · rcases cases_update h₁ with ⟨rfl, rfl⟩ | ⟨hq, h₁'⟩ <;> rcases cases_update h₂ with ⟨rfl, rfl⟩ | ⟨hq', h₂'⟩
    · exact absurd rfl hk
    · exact hids k' hk s₂ h₂' x hx y hy
    · exact (hids k hq s₁ h₁' y hy x hx).symm
    · exact h.apart k k' hk s₁ h₁' s₂ h₂' x hx y hy
  · rcases cases_update hs' with ⟨rfl, rfl⟩ | ⟨hk, hs'⟩
    · simpa only [Function.update_self] using hn
    · simpa only [Function.update_of_ne (Ne.symm hk)] using h.qlen k s' hs'
  · rcases cases_update hs' with ⟨rfl, rfl⟩ | ⟨hk, hs'⟩
    · exact hc
    · exact h.count k s' hs'

/-- A queue that has nothing in it, or is none yet. -/
theorem skbQueueInit (h : m.Represents a) : (m.skbQueueInit q).Represents (Function.update a q (some {})) := by
  refine h.change (LinkRing.holds_init _ _) (fun k hk s' hs' => ?_) (by simp) rfl rfl
  refine (h.ring k s' hs').init_other ?_
  simp [SkbHead.places, hk]

theorem allocSkb (h : m.Represents a) (hb : SkbHead.Loose a b) : (m.allocSkb b.id).Represents a :=
  ⟨fun q s hs => (h.ring q s hs).init_other (fresh hb hs), h.apart, h.qlen, h.count⟩

/-- The ring of another queue, when an skb goes in at `x`. -/
theorem other (h : m.Represents a) (hb : SkbHead.Loose a b) (hs : s ∈ a q) {x : ι ⊕ Nat} (hx : x ∈ .inl q :: s.places ι)
    (hprev : m.links.prev x ∈ .inl q :: s.places ι) (k : ι) (hk : q ≠ k) (s' : SkbHead) (hs' : s' ∈ a k) :
    LinkRing.Holds (m.links.addTail (.inr b.id) x) (.inl k) (s'.places ι) :=
  (h.ring k s' hs').addTail_other (h.disjoint hk hs hs' hx) (h.disjoint hk hs hs' hprev) (fresh hb hs')

theorem skbQueueTail (h : m.Represents a) (hb : SkbHead.Loose a b) (hs : s ∈ a q) :
    (m.skbQueueTail q b.id).Represents (Function.update a q (some (s.tail b))) := by
  have hring := h.ring q s hs
  refine h.change ?_ (h.other hb hs List.mem_cons_self hring.path.prev_mem) (fun k hk s' hs' x hx y hy => ?_)
    (congrArg (· + 1) (h.qlen q s hs)) ?_
  · have happ := hring.append (fresh hb hs)
    rwa [SkbHead.places, SkbHead.tail, List.map_append]
  · rcases List.mem_append.mp hx with hx | hx
    · exact h.apart q k hk s hs s' hs' x hx y hy
    · rw [List.mem_singleton.mp hx]
      exact (hb k s' hs' y hy).symm
  · show s.qlen + 1 = _
    rw [h.count q s hs, SkbHead.tail, List.length_append, BitVec.ofNat_add]
    rfl

/-- The element at a place, what is before it and what is after it. -/
theorem split_at {l : List SkBuff} {i n : Nat} (h : (l[i]?).map (·.id) = some n) :
    ∃ pre x post, l = pre ++ x :: post ∧ pre.length = i ∧ x.id = n := by
  obtain ⟨x, hx, hn⟩ := Option.map_eq_some_iff.mp h
  obtain ⟨hi, rfl⟩ := List.getElem?_eq_some_iff.mp hx
  exact ⟨l.take i, l[i], l.drop (i + 1), by simp, by simp [Nat.min_eq_left hi.le], hn⟩

theorem insertIdx_length {pre l : List SkBuff} : (pre ++ l).insertIdx pre.length b = pre ++ b :: l := by
  induction pre with
  | nil => rfl
  | cons y pre ih => rw [List.cons_append, List.length_cons, List.insertIdx_succ_cons, ih, List.cons_append]

theorem skbQueueAdd (h : m.Represents a) (hb : SkbHead.Loose a b) (hs : s ∈ a q) {i next : Nat}
    (hi : (s.skbs[i]?).map (·.id) = some next) :
    (m.skbQueueAdd q b.id next).Represents (Function.update a q (some (s.add b i))) := by
  obtain ⟨pre, x, post, hl, rfl, rfl⟩ := split_at hi
  have hins : s.skbs.insertIdx pre.length b = pre ++ b :: x :: post := by rw [hl, insertIdx_length]
  have hring := h.ring q s hs
  have hplaces : s.places ι = pre.map (fun b => .inr b.id) ++ .inr x.id :: post.map fun b => .inr b.id := by
    rw [SkbHead.places, hl, List.map_append, List.map_cons]
  have hx : .inr x.id ∈ .inl q :: s.places ι := by
    rw [hplaces]
    simp
  have hprev : m.links.prev (.inr x.id) ∈ .inl q :: s.places ι := by
    have hp := hring.path
    rw [hplaces] at hp ⊢
    rw [← List.cons_append]
    exact List.mem_append_left _ (LinkRing.path_append.mp hp).1.prev_mem
  refine h.change ?_ (h.other hb hs hx hprev) (fun k hk s' hs' y hy z hz => ?_) (congrArg (· + 1) (h.qlen q s hs)) ?_
  · have hfresh := fresh hb hs
    rw [hplaces] at hring hfresh
    have hput := hring.insert hfresh
    rw [SkbHead.places, SkbHead.add, hins, List.map_append]
    exact hput
  · rw [SkbHead.add, hins] at hy
    have hy : y = b ∨ y ∈ s.skbs := by
      rw [hl]
      simpa [or_left_comm] using hy
    rcases hy with rfl | hy
    · exact (hb k s' hs' z hz).symm
    · exact h.apart q k hk s hs s' hs' y hy z hz
  · have hlen : (s.skbs.insertIdx pre.length b).length = s.skbs.length + 1 := by
      rw [hins, hl]
      simp [Nat.add_assoc]
    show s.qlen + 1 = BitVec.ofNat 32 (s.skbs.insertIdx pre.length b).length
    rw [h.count q s hs, hlen, BitVec.ofNat_add]
    rfl

theorem skbDequeue (h : m.Represents a) (hs : s ∈ a q) (hne : s.skbs ≠ []) :
    (m.skbDequeue q).Represents (Function.update a q (some (s.dequeue 1))) := by
  obtain ⟨x, rest, hl⟩ := List.exists_cons_of_ne_nil hne
  have hring := h.ring q s hs
  have hplaces : s.places ι = .inr x.id :: rest.map fun b => .inr b.id := by rw [SkbHead.places, hl, List.map_cons]
  have hp := hring.path
  rw [hplaces] at hp
  have hfirst : m.links.next (.inl q) = .inr x.id := hp.1.1
  rw [SkbLinks.skbDequeue, hfirst]
  refine h.change ?_ (fun k hk s' hs' => ?_) (fun k hk s' hs' y hy z hz => ?_) (congrArg (· - 1) (h.qlen q s hs)) ?_
  · rw [hplaces] at hring
    rw [SkbHead.places, SkbHead.dequeue, hl]
    have hdel : LinkRing.Holds (m.links.del (.inr x.id)) (.inl q) ([] ++ rest.map fun b => .inr b.id) := LinkRing.Holds.del hring
    exact hdel
  · refine (h.ring k s' hs').del_other (h.disjoint hk hs hs' ?_) (h.disjoint hk hs hs' ?_)
    · rw [hp.1.2]
      exact List.mem_cons_self
    · have hnext := hp.2.next_mem
      rw [hplaces]
      simp only [List.mem_append, List.mem_cons, List.not_mem_nil, or_false] at hnext ⊢
      tauto
  · exact h.apart q k hk s hs s' hs' y (List.mem_of_mem_drop hy) z hz
  · show s.qlen - BitVec.ofNat 32 1 = BitVec.ofNat 32 (s.skbs.drop 1).length
    rw [h.count q s hs, hl, List.length_cons, List.drop_one, List.tail_cons, BitVec.ofNat_add, BitVec.add_sub_cancel]

/-- **Every operation** does to the memory what it does to the lists. -/
theorem step (h : m.Represents a) {e : Op ι} (he : SkbHead.Proper a e) : (m.step e).Represents (SkbHead.stepAll a e) := by
  cases e with
  | init q => exact h.skbQueueInit
  | alloc b => exact h.allocSkb he
  | tail q b =>
    obtain ⟨s, hs⟩ := Option.isSome_iff_exists.mp he.1
    rw [SkbHead.stepAll, hs]
    exact h.skbQueueTail he.2 hs
  | add q b i next =>
    obtain ⟨hb, s, hs, hi⟩ := he
    rw [SkbHead.stepAll, Option.mem_def.mp hs]
    exact h.skbQueueAdd hb hs hi
  | dequeue q =>
    obtain ⟨s, hs, hne⟩ := he
    rw [SkbHead.stepAll, Option.mem_def.mp hs]
    exact h.skbDequeue hs hne

theorem run (h : m.Represents a) {es : List (Op ι)} (hes : Machine.Meets SkbHead.stepAll SkbHead.Proper a es) :
    (Machine.run SkbLinks.step m es).Represents (Machine.run SkbHead.stepAll a es) := by
  induction es generalizing m a with
  | nil => exact h
  | cons e es ih => exact ih (h.step hes.1) hes.2

omit [DecidableEq ι] in
/-- Before any queue is initialized the memory may be anything. -/
theorem start (m : SkbLinks ι) : m.Represents fun _ => none := ⟨by simp, by simp, by simp, by simp⟩

/-! ## Reading -/

/-- `list_for_each` meets the skbs in order, and ends. -/
theorem listForEach (h : m.Represents a) (hs : s ∈ a q) {n : Nat} (hn : s.skbs.length < n) : m.listForEach q n = s.places ι := by
  have hring := h.ring q s hs
  refine hring.path.walk (List.nodup_cons.mp hring.nodup).1 ?_
  rwa [SkbHead.places, List.length_map]

omit [DecidableEq ι] in
theorem empty (h : m.Represents a) (hs : s ∈ a q) : m.skbQueueEmpty q = s.empty := by
  rw [SkbLinks.skbQueueEmpty, h.qlen q s hs, SkbHead.empty]

omit [DecidableEq ι] in
theorem peek (h : m.Represents a) (hs : s ∈ a q) : m.skbPeek q = s.peek.map fun b => .inr b.id := by
  rw [SkbLinks.skbPeek, h.empty hs, SkbHead.peek]
  by_cases he : s.empty
  · rw [if_pos he, if_pos he, Option.map_none]
  · rw [if_neg he, if_neg he]
    have hp := (h.ring q s hs).path
    cases hl : s.skbs with
    | nil =>
      have hc := h.count q s hs
      rw [hl] at hc
      exact absurd (by rw [SkbHead.empty, hc]; rfl) he
    | cons x rest =>
      rw [SkbHead.places, hl] at hp
      rw [hp.1.1]
      rfl

end SkbLinks.Represents

/-- `skb_dequeue` again and again. -/
theorem SkbHead.dequeues (a : ι → Option SkbHead) (q : ι) (k : Nat) :
    Machine.run SkbHead.stepAll a (List.replicate k (.dequeue q)) = Function.update a q ((a q).map (·.dequeue k)) := by
  induction k generalizing a with
  | zero => simp [SkbHead.dequeue]
  | succ k ih =>
    rw [List.replicate_succ, Machine.run_cons, ih, SkbHead.stepAll, Function.update_idem, Function.update_self, Option.map_map]
    congr 2
    funext s
    have hlen : s.qlen - BitVec.ofNat 32 1 - BitVec.ofNat 32 k = s.qlen - BitVec.ofNat 32 (k + 1) := by
      rw [BitVec.ofNat_add]
      bv_omega
    simp [SkbHead.dequeue, hlen]

instance [Fintype ι] (a : ι → Option SkbHead) (b : SkBuff) : Decidable (SkbHead.Loose a b) :=
  inferInstanceAs (Decidable (∀ q, ∀ s ∈ a q, ∀ x ∈ s.skbs, x.id ≠ b.id))

instance [Fintype ι] (a : ι → Option SkbHead) : (e : Op ι) → Decidable (SkbHead.Proper a e)
  | .init q => inferInstanceAs (Decidable (∀ s ∈ a q, s.skbs = []))
  | .alloc b => inferInstanceAs (Decidable (SkbHead.Loose a b))
  | .tail q b => inferInstanceAs (Decidable ((a q).isSome ∧ SkbHead.Loose a b))
  | .add q b i next => inferInstanceAs (Decidable (SkbHead.Loose a b ∧ ∃ s ∈ a q, (s.skbs[i]?).map (·.id) = some next))
  | .dequeue q => inferInstanceAs (Decidable (∃ s ∈ a q, s.skbs ≠ []))

/-- **The queues in memory are the lists.** From any memory, whatever is initialized,
put at the end, put before an skb and taken from the front, in any order and over any
number of queues: a walk over a queue meets the skbs of its list in order and ends,
the queue is empty when the list is, and the skb at the front is the first one. -/
theorem SkbLinks.queues_are_lists (m : SkbLinks ι) {es : List (Op ι)}
    (hes : Machine.Meets SkbHead.stepAll SkbHead.Proper (fun _ => none) es) {q : ι} {s : SkbHead}
    (hs : s ∈ Machine.run SkbHead.stepAll (fun _ => none) es q) :
    (∀ n, s.skbs.length < n → (Machine.run SkbLinks.step m es).listForEach q n = s.skbs.map fun b => .inr b.id) ∧
      (Machine.run SkbLinks.step m es).skbQueueEmpty q = s.empty ∧
      (Machine.run SkbLinks.step m es).skbPeek q = s.peek.map fun b => .inr b.id := by
  have h := (SkbLinks.Represents.start m).run hes
  exact ⟨fun _ hn => h.listForEach hs hn, h.empty hs, h.peek hs⟩

/-- Two skbs each in a queue of its own; a third goes before the first of one queue,
is taken off it and goes to the end of the other. -/
def SkbLinks.moved : List (Op Bool) :=
  [.init false, .init true, .alloc ⟨1, 0, {}⟩, .tail false ⟨1, 0, {}⟩, .alloc ⟨2, 0, {}⟩, .tail true ⟨2, 0, {}⟩,
    .alloc ⟨3, 0, {}⟩, .add false ⟨3, 0, {}⟩ 0 1, .dequeue false, .tail true ⟨3, 0, {}⟩]

theorem SkbLinks.queues_are_lists_moved :
    (∀ n, 2 < n → (Machine.run SkbLinks.step ⟨⟨id, id⟩, fun _ => 7⟩ moved).listForEach true n = [.inr 2, .inr 3]) ∧
      (Machine.run SkbLinks.step ⟨⟨id, id⟩, fun _ => 7⟩ moved).skbQueueEmpty true = false ∧
      (Machine.run SkbLinks.step ⟨⟨id, id⟩, fun _ => 7⟩ moved).skbPeek true = some (.inr 2) := by
  have hes : Machine.Meets SkbHead.stepAll SkbHead.Proper (fun _ => none) moved := by decide
  have hs : { skbs := [⟨2, 0, {}⟩, ⟨3, 0, {}⟩], qlen := 2 } ∈ Machine.run SkbHead.stepAll (fun _ => none) moved true := rfl
  exact queues_are_lists ⟨⟨id, id⟩, fun _ => 7⟩ hes hs

end LevelIp
