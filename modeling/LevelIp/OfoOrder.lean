/-
The out-of-order queue under overlaps. `tcp_data_insert_ordered` walks past a
successor it overlaps and never looks at its predecessor, and the drain only
takes a head that is exactly next: the queue stays in order as long as what
comes overlaps nothing on it, or repeats an entry's number.
-/
import LevelIp.Arrival
import LevelIp.ReceiveStream
import LevelIp.Lib.Machine

namespace LevelIp

/-- A data segment that does not pass 2^32. -/
structure DataSegment where
  th : Tcphdr
  data : Payload
  psh : Bool
  nonempty : data.bytes ≠ []
  nowrap : th.seq.toNat + data.bytes.length < 2 ^ 32

/-- What `tcp_init_segment` makes of it. -/
def DataSegment.skb (g : DataSegment) : Skb := tcpInitSegment g.th g.data g.psh

/-- The sequence check and the queueing of `tcp_input_state`. -/
def TcpSock.queueData (s : TcpSock) (g : DataSegment) : TcpSock :=
  if tcpVerifySegment s g.th g.skb then tcpDataQueue s g.skb else s

/-- The skb ends after it begins, without passing 2^32. -/
def Skb.Proper (k : Skb) : Prop := k.endSeq = k.seq + k.dlen ∧ k.seq < k.endSeq

/-- `a` ends before `b` begins, or where it does. -/
def Skb.Before (a b : Skb) : Prop := a.seq < b.seq ∧ a.endSeq ≤ b.seq

/-- **The queue is in order**: increasing, without overlaps, all above `rcv_nxt`. -/
structure OfoOrdered (nxt : U32) (q : List Skb) : Prop where
  above : ∀ k ∈ q, nxt < k.seq
  chain : q.Pairwise Skb.Before

/-- The segment repeats the number of an entry, or overlaps none. -/
def ClearOf (q : List Skb) (skb : Skb) : Prop :=
  (∃ k ∈ q, k.seq = skb.seq) ∨ ∀ k ∈ q, skb.endSeq ≤ k.seq ∨ k.endSeq ≤ skb.seq

theorem DataSegment.proper (g : DataSegment) : g.skb.Proper := by
  have hl := g.data.len_toNat
  have hne : 0 < g.data.bytes.length := List.length_pos_iff.mpr g.nonempty
  have hnw := g.nowrap
  refine ⟨rfl, ?_⟩
  show g.th.seq < g.th.seq + g.data.len
  bv_omega

theorem OfoOrdered.tail {nxt : U32} {k : Skb} {q : List Skb} (h : OfoOrdered nxt (k :: q)) : OfoOrdered nxt q :=
  ⟨fun x hx => h.above x (List.mem_cons_of_mem k hx), (List.pairwise_cons.mp h.chain).2⟩

/-! ## Insertion -/

/-- A number that is there already changes nothing. -/
theorem insert_repeated {q : List Skb} (hq : q.Pairwise Skb.Before) {skb : Skb} (h : ∃ k ∈ q, k.seq = skb.seq) :
    tcpDataInsertOrdered skb q = q := by
  induction q with
  | nil =>
    obtain ⟨k, hk, -⟩ := h
    cases hk
  | cons next rest ih =>
    obtain ⟨hnext, hrest⟩ := List.pairwise_cons.mp hq
    obtain ⟨k, hk, hseq⟩ := h
    rcases List.mem_cons.mp hk with rfl | hk
    · rw [tcpDataInsertOrdered, if_neg (by rw [hseq]; exact BitVec.lt_irrefl _), if_pos hseq.symm]
    · have hlt : next.seq < skb.seq := hseq ▸ (hnext k hk).1
      rw [tcpDataInsertOrdered, if_neg (by bv_omega), if_neg (by bv_omega), ih hrest ⟨k, hk, hseq⟩]

theorem insert_perm {q : List Skb} {skb : Skb} (h : ∀ k ∈ q, k.seq ≠ skb.seq) :
    (tcpDataInsertOrdered skb q).Perm (skb :: q) := by
  induction q with
  | nil => exact .refl _
  | cons next rest ih =>
    have hswap := ((ih fun k hk => h k (List.mem_cons_of_mem next hk)).cons next).trans (.swap skb next rest)
    rw [tcpDataInsertOrdered]
    split
    · split
      · exact hswap
      · exact .refl _
    · rw [if_neg (h next List.mem_cons_self).symm]
      exact hswap

theorem insert_chain {q : List Skb} (hq : q.Pairwise Skb.Before) {skb : Skb} (hp : skb.Proper) (hqp : ∀ k ∈ q, k.Proper)
    (hc : ∀ k ∈ q, skb.endSeq ≤ k.seq ∨ k.endSeq ≤ skb.seq) : (tcpDataInsertOrdered skb q).Pairwise Skb.Before := by
  induction q with
  | nil => exact List.pairwise_singleton _ _
  | cons next rest ih =>
    obtain ⟨hnext, hrest⟩ := List.pairwise_cons.mp hq
    have hnp := (hqp next List.mem_cons_self).2
    have hsp := hp.2
    have hd := hc next List.mem_cons_self
    rw [tcpDataInsertOrdered]
    split
    next hlt =>
      have hle : skb.endSeq ≤ next.seq := by bv_omega
      rw [if_neg (by bv_omega)]
      refine List.pairwise_cons.mpr ⟨fun k hk => ?_, hq⟩
      rcases List.mem_cons.mp hk with rfl | hk
      · exact ⟨hlt, hle⟩
      · obtain ⟨h1, -⟩ := hnext k hk
        exact ⟨by bv_omega, by bv_omega⟩
    next hlt =>
      have hle : next.endSeq ≤ skb.seq := by bv_omega
      have hbefore : next.Before skb := ⟨by bv_omega, hle⟩
      rw [if_neg (by bv_omega)]
      have hne : ∀ k ∈ rest, k.seq ≠ skb.seq := fun k hk he => by
        have := (hqp k (List.mem_cons_of_mem next hk)).2
        rcases hc k (List.mem_cons_of_mem next hk) with h | h <;> bv_omega
      refine List.pairwise_cons.mpr ⟨fun k hk => ?_, ?_⟩
      · rcases List.mem_cons.mp ((insert_perm hne).mem_iff.mp hk) with rfl | hk
        · exact hbefore
        · exact hnext k hk
      · exact ih hrest (fun k hk => hqp k (List.mem_cons_of_mem next hk)) fun k hk => hc k (List.mem_cons_of_mem next hk)

/-- **Insertion keeps the order exactly if the segment is clear of the queue.** -/
theorem insert_ordered_iff {nxt : U32} {q : List Skb} (hq : OfoOrdered nxt q) (hqp : ∀ k ∈ q, k.Proper) {skb : Skb} (hp : skb.Proper)
    (habove : nxt < skb.seq) : OfoOrdered nxt (tcpDataInsertOrdered skb q) ↔ ClearOf q skb := by
  by_cases hrep : ∃ k ∈ q, k.seq = skb.seq
  · rw [insert_repeated hq.chain hrep]
    exact iff_of_true hq (.inl hrep)
  have hne : ∀ k ∈ q, k.seq ≠ skb.seq := fun k hk he => hrep ⟨k, hk, he⟩
  constructor
  · intro ho
    -- a chain of disjoint skbs is one in any order
    have hdis : (skb :: q).Pairwise fun a b => a.endSeq ≤ b.seq ∨ b.endSeq ≤ a.seq :=
      ((insert_perm hne).pairwise_iff fun h => h.symm).mp (ho.chain.imp fun h => .inl h.2)
    exact .inr fun k hk => (List.pairwise_cons.mp hdis).1 k hk
  · intro hc
    refine ⟨fun k hk => ?_, insert_chain hq.chain hp hqp (hc.resolve_left hrep)⟩
    rcases List.mem_cons.mp ((insert_perm hne).mem_iff.mp hk) with rfl | hk
    · exact habove
    · exact hq.above k hk

/-! ## Draining -/

theorem ofoDrain_subset {nxt : U32} {q : List Skb} {k : Skb} (h : k ∈ (ofoDrain nxt q).2.2) : k ∈ q := by
  induction q generalizing nxt with
  | nil => exact h
  | cons x rest ih =>
    rw [ofoDrain] at h
    split at h
    · exact List.mem_cons_of_mem x (ih h)
    · exact h

theorem drain_ordered {nxt : U32} {q : List Skb} (hq : q.Pairwise Skb.Before) (hqp : ∀ k ∈ q, k.Proper) (hge : ∀ k ∈ q, nxt ≤ k.seq) :
    OfoOrdered (ofoDrain nxt q).1 (ofoDrain nxt q).2.2 := by
  induction q generalizing nxt with
  | nil => exact ⟨nofun, .nil⟩
  | cons k rest ih =>
    obtain ⟨hk, hrest⟩ := List.pairwise_cons.mp hq
    obtain ⟨hend, -⟩ := hqp k List.mem_cons_self
    rw [ofoDrain]
    split
    next hseq =>
      refine ih hrest (fun x hx => hqp x (List.mem_cons_of_mem k hx)) fun x hx => ?_
      rw [hseq, ← hend]
      exact (hk x hx).2
    next hseq =>
      refine ⟨fun x hx => ?_, hq⟩
      have hkge := hge k List.mem_cons_self
      have hlt : nxt < k.seq := by bv_omega
      rcases List.mem_cons.mp hx with rfl | hx
      · exact hlt
      · exact BitVec.lt_trans hlt (hk x hx).1

/-- **An in-sequence segment leaves the order exactly if it is clear of the queue**:
the drain stops at a head it has passed. -/
theorem push_ordered_iff {nxt : U32} {q : List Skb} (hq : OfoOrdered nxt q) (hqp : ∀ k ∈ q, k.Proper) {skb : Skb} (hp : skb.Proper)
    (hseq : skb.seq = nxt) :
    OfoOrdered (ofoDrain (nxt + skb.dlen) q).1 (ofoDrain (nxt + skb.dlen) q).2.2 ↔ ClearOf q skb := by
  have hend : nxt + skb.dlen = skb.endSeq := by rw [hp.1, hseq]
  rw [hend]
  constructor
  · intro ho
    refine .inr fun k hk => .inl ?_
    by_contra hlt
    cases q with
    | nil => cases hk
    | cons head rest =>
      have hhead : head.seq < skb.endSeq := by
        rcases List.mem_cons.mp hk with rfl | hk
        · bv_omega
        · have := ((List.pairwise_cons.mp hq.chain).1 k hk).1
          bv_omega
      rw [ofoDrain, if_neg (by bv_omega)] at ho
      have := ho.above head List.mem_cons_self
      dsimp only at this
      bv_omega
  · intro hc
    refine drain_ordered hq.chain hqp fun k hk => ?_
    have habove := hq.above k hk
    have hkp := (hqp k hk).2
    rcases hc with ⟨k', hk', hk's⟩ | hc
    · have := hq.above k' hk'
      bv_omega
    · rcases hc k hk with h | h <;> bv_omega

/-! ## Runs -/

namespace TcpSock

variable {s : TcpSock}

/-- The out-of-order queue is in order. -/
def InOrder (s : TcpSock) : Prop := OfoOrdered s.tcb.rcvNxt s.ofoQueue

/-- The segment is dropped by the sequence check, or clear of the queue. -/
def Fits (s : TcpSock) (g : DataSegment) : Prop := tcpVerifySegment s g.th g.skb → ClearOf s.ofoQueue g.skb

/-- The receive side after a segment that passes the check. -/
theorem queueData_rcv {g : DataSegment} (hv : tcpVerifySegment s g.th g.skb = true) :
    (s.queueData g).core.rcv = if g.skb.seq = s.tcb.rcvNxt then s.core.rcv.push g.skb else s.core.rcv.insert g.skb := by
  have hp := g.proper
  have hw : s.core.rcv.wnd ≠ 0 := fun hw => by
    have hpos : g.skb.dlen ≠ 0 := by
      have h1 := hp.1
      have h2 := hp.2
      bv_omega
    have hw : s.tcb.rcvWnd = 0 := hw
    simp only [tcpVerifySegment, hw, decide_true, Bool.and_true, Bool.and_eq_true, Bool.not_eq_true', decide_eq_false_iff_not] at hv
    exact hv.1 (by bv_omega)
  rw [queueData, if_pos hv, tcpDataQueue_core]
  dsimp only
  rw [RcvSide.take, if_neg hw]
  rfl

theorem verify_ge {g : DataSegment} (hv : tcpVerifySegment s g.th g.skb = true) : s.tcb.rcvNxt ≤ g.skb.seq := by
  simp only [tcpVerifySegment, Bool.and_eq_true, Bool.not_eq_true', Bool.or_eq_false_iff, decide_eq_false_iff_not,
    BitVec.not_lt] at hv
  exact hv.2.1

theorem queueData_proper (hq : ∀ k ∈ s.ofoQueue, k.Proper) (g : DataSegment) : ∀ k ∈ (s.queueData g).ofoQueue, k.Proper := by
  cases hv : tcpVerifySegment s g.th g.skb with
  | false =>
    rw [queueData, if_neg (by simp [hv])]
    exact hq
  | true =>
    have hr := congrArg RcvSide.ofo (queueData_rcv hv)
    intro k hk
    rw [show (s.queueData g).ofoQueue = _ from hr] at hk
    split at hk
    · exact hq k (ofoDrain_subset hk)
    · rcases mem_tcpDataInsertOrdered hk with rfl | hk
      · exact g.proper
      · exact hq k hk

theorem queueData_inOrder_iff (hq : ∀ k ∈ s.ofoQueue, k.Proper) (ho : s.InOrder) (g : DataSegment) :
    s.Fits g ↔ (s.queueData g).InOrder := by
  cases hv : tcpVerifySegment s g.th g.skb with
  | false =>
    rw [queueData, if_neg (by simp [hv])]
    exact iff_of_true (fun hv' => absurd (hv.symm.trans hv') Bool.false_ne_true) ho
  | true =>
    have hfits : s.Fits g ↔ ClearOf s.ofoQueue g.skb := ⟨fun h => h hv, fun h _ => h⟩
    have hr := queueData_rcv hv
    have hnxt := congrArg RcvSide.nxt hr
    have hofo := congrArg RcvSide.ofo hr
    have hin : (s.queueData g).InOrder ↔ OfoOrdered (s.queueData g).core.rcv.nxt (s.queueData g).core.rcv.ofo := Iff.rfl
    rw [hfits, hin, hnxt, hofo]
    split
    next hseq => exact (push_ordered_iff ho hq g.proper hseq).symm
    next hseq =>
      have hge := verify_ge hv
      exact (insert_ordered_iff ho hq g.proper (by bv_omega)).symm

/-- **The representation of the out-of-order queue.** Whatever data segments
arrive, the queue stays in order exactly if each that passes the sequence check
repeats the number of an entry or overlaps none. -/
theorem ofo_ordered_iff {s : TcpSock} (hq : ∀ k ∈ s.ofoQueue, k.Proper) (ho : s.InOrder) (gs : List DataSegment) :
    Machine.Meets queueData Fits s gs ↔ ∀ n, (Machine.run queueData s (gs.take n)).InOrder :=
  Machine.Meets.exact_states (I := fun s : TcpSock => ∀ k ∈ s.ofoQueue, k.Proper) (fun _ g hq => queueData_proper hq g)
    (fun _ g hq ho => queueData_inOrder_iff hq ho g) hq ho gs

/-- `n` bytes from `seq`. -/
def bytesFrom (seq : U32) (n : Fin 100) (h : n.val ≠ 0) (hw : seq.toNat + n.val < 2 ^ 32) : DataSegment where
  th := { seq := seq, ackSeq := 0, win := 1000 }
  data := ⟨List.replicate n.val 7, by rw [List.length_replicate]; omega⟩
  psh := false
  nonempty := fun he => h (by simpa using congrArg List.length he)
  nowrap := by rw [List.length_replicate]; exact hw

/-- A socket that expects byte 1000. -/
def expecting : TcpSock := { state := .established, tcb := { rcvNxt := 1000, rcvWnd := 44477 } }

/-- 1020..1029, then 1015..1024: the second goes behind the first. And 1020..1029
with 1000..1024: `rcv_nxt` becomes 1025, and the head of the queue begins at 1020
for ever. -/
theorem overlap_disorders :
    ¬ (Machine.run queueData expecting
      [bytesFrom 1020 10 (by decide) (by decide), bytesFrom 1015 10 (by decide) (by decide)]).InOrder ∧
    ¬ (Machine.run queueData expecting
      [bytesFrom 1020 10 (by decide) (by decide), bytesFrom 1000 25 (by decide) (by decide)]).InOrder := by
  constructor <;> intro ho
  · have hseqs : (Machine.run queueData expecting
        [bytesFrom 1020 10 (by decide) (by decide), bytesFrom 1015 10 (by decide) (by decide)]).ofoQueue.map (·.seq) =
        [1020, 1015] := by decide +kernel
    have hchain := (List.pairwise_map (f := fun k : Skb => k.seq) (R := fun a b => a < b)).mpr (ho.chain.imp And.left)
    rw [hseqs] at hchain
    exact absurd hchain (by decide)
  · have hnxt : (Machine.run queueData expecting
        [bytesFrom 1020 10 (by decide) (by decide), bytesFrom 1000 25 (by decide) (by decide)]).tcb.rcvNxt = 1025 := by
      decide +kernel
    have hseqs : (Machine.run queueData expecting
        [bytesFrom 1020 10 (by decide) (by decide), bytesFrom 1000 25 (by decide) (by decide)]).ofoQueue.map (·.seq) =
        [1020] := by decide +kernel
    obtain ⟨k, hk, hks⟩ := List.mem_map.mp (hseqs ▸ List.mem_singleton_self (1020 : U32))
    have habove := ho.above k hk
    rw [hnxt, hks] at habove
    exact absurd habove (by decide)

/-- The theorem for a socket with nothing queued. -/
theorem ofo_ordered_expecting :
    Machine.Meets queueData Fits expecting [bytesFrom 1020 10 (by decide) (by decide)] ↔
      ∀ n, (Machine.run queueData expecting ([bytesFrom 1020 10 (by decide) (by decide)].take n)).InOrder :=
  ofo_ordered_iff (s := expecting) (fun _ hk => absurd hk List.not_mem_nil) ⟨nofun, .nil⟩ _

end TcpSock

end LevelIp
