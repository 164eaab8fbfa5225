/-
Two data segments in either order: what `tcp_verify_segment` and
`tcp_data_queue` make of them, as the next number expected and the set of bytes
held. Neither depends on the order, where the out-of-order queue is in order
and the segments are clear of it and of each other.
-/
import LevelIp.OfoOrder
import LevelIp.Reorder

namespace LevelIp

/-! ## The bytes held -/

/-- The bytes of an skb, each with its sequence number. -/
def Skb.numbered (k : Skb) : Set (U32 × U8) := {x | ∃ i, k.payload.bytes[i]? = some x.2 ∧ x.1 = k.seq + BitVec.ofNat 32 i}

/-- The bytes in both queues. -/
def RcvSide.received (r : RcvSide) : Set (U32 × U8) := {x | ∃ k, (k ∈ r.queue ∨ k ∈ r.ofo) ∧ x ∈ k.numbered}

/-- The entry with this number is in the queue. -/
def Repeated (q : List Skb) (skb : Skb) : Prop := ∃ k ∈ q, k.seq = skb.seq

instance (q : List Skb) (skb : Skb) : Decidable (Repeated q skb) := inferInstanceAs (Decidable (∃ k ∈ q, k.seq = skb.seq))

section
variable {r : RcvSide} {k : Skb}

end

/-! ## Draining -/

namespace RcvSide

/-- `tcp_verify_segment` and `tcp_data_queue`. -/
def accept (r : RcvSide) (g : DataSegment) : RcvSide := if r.verify g.th g.skb then r.take g.skb else r

/-- The bytes a segment adds: all, or none if an entry has its number. -/
def added (r : RcvSide) (k : Skb) : Set (U32 × U8) := {x | ¬ Repeated r.ofo k ∧ x ∈ k.numbered}

/-- **The regular case**: the out-of-order queue is in order and the two
segments are clear of it, nothing received lies above `rcv_nxt`, and nothing in
the window passes 2^32. -/
structure Regular (r : RcvSide) (a b : DataSegment) : Prop where
  ordered : OfoOrdered r.nxt r.ofo
  proper : ∀ k ∈ r.ofo, k.Proper
  below : ∀ k ∈ r.queue, k.seq.toNat + k.payload.bytes.length ≤ r.nxt.toNat
  clearFst : ClearOf r.ofo a.skb
  clearSnd : ClearOf r.ofo b.skb
  room : ∀ k, k = a.skb ∨ k = b.skb ∨ k ∈ r.ofo → k.endSeq.toNat + r.wnd.toNat < 2 ^ 32

/-- One ends before the other begins. -/
def Apart (a b : DataSegment) : Prop := a.skb.endSeq ≤ b.skb.seq ∨ b.skb.endSeq ≤ a.skb.seq

variable {r : RcvSide} {a b : DataSegment}

theorem Regular.swap (h : r.Regular a b) : r.Regular b a where
  ordered := h.ordered
  proper := h.proper
  below := h.below
  clearFst := h.clearSnd
  clearSnd := h.clearFst
  room k hk := h.room k (or_left_comm.mp hk)

theorem Apart.swap (h : Apart a b) : Apart b a := Or.symm h

theorem Apart.ne (h : Apart a b) : a.skb.seq ≠ b.skb.seq := by
  have ha := a.proper.2
  have hb := b.proper.2
  rcases h with h | h <;> bv_omega

end RcvSide

end LevelIp
