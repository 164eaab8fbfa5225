/-
Who owns an skb: when every skb that is sent is freed, and freed once.

`ip_output` leaves an skb to its caller in any case. `ipv6_output_ex` does so
when it has a route, and else frees it, though TCP frees it as well or still has
it on `write_queue`; the ICMPv6 functions rely on it to be freed.
-/
import LevelIp.SkbAccount

namespace LevelIp

namespace SkbHost

variable {m : Heap.Allocator} {h h' : SkbHost} {x y : Multiset Nat}

/-- The skbs that are sent are freed once: those on a queue, or held by a sender
that waits, not yet, all others once. -/
structure Owned (h : SkbHost) : Prop where
  held : ∀ n ∈ h.transmits, n ∈ h.held → h.heap.frees.count n = 0
  gone : ∀ n ∈ h.transmits, n ∉ h.held → h.heap.frees.count n = 1

theorem count_allocated {n : Nat} (hn : n < h.heap.allocs.length) : h.allocated.count n = 1 :=
  Multiset.count_eq_one_of_mem (Multiset.nodup_range _) (Multiset.mem_range.2 hn)

theorem count_account (n : Nat) : h.account.count n = h.held.count n + h.heap.frees.count n := by
  rw [account, Multiset.count_add, Multiset.coe_count]

theorem Balanced.owned (hb : h.Balanced) (hf : h.Fit) : h.Owned := by
  have hone : ∀ n ∈ h.transmits, h.held.count n + h.heap.frees.count n = 1 := by
    intro n hn
    rw [← count_account, hb]
    exact count_allocated (hf.known n hn)
  refine ⟨fun n hn hh => ?_, fun n hn hh => ?_⟩
  · have := hone n hn
    have := Multiset.count_pos.2 hh
    omega
  · have := hone n hn
    rwa [Multiset.count_eq_zero.2 hh, zero_add] at this

theorem Books.balanced (hb : Books m h h' x y) (h0 : h.Balanced) : h'.account + y = h'.allocated + x := by
  refine add_right_cancel (b := h.allocated) ?_
  calc _ = h'.account + h.allocated + y := by abel
    _ = h.account + h'.allocated + x := hb.account
    _ = _ := by rw [h0]; abel

theorem Books.keeps (hb : Books m h h' 0 0) (h0 : h.Balanced) : h'.Balanced := by
  have := hb.balanced h0
  rwa [add_zero, add_zero] at this

theorem Doubles.not_owned (hd : Doubles m h h') (h0 : h.Balanced) (hf : h.Fit) : ¬ h'.Owned := by
  obtain ⟨n, ht, hfree, hb⟩ := hd
  intro ho
  have hacc := congrArg (Multiset.count n) (hb.balanced h0)
  rw [add_zero, Multiset.count_add, count_account, count_allocated ((hb.fit hf).known n ht), Multiset.count_singleton_self] at hacc
  have hpos := List.count_pos_iff.2 hfree
  by_cases hh : n ∈ h'.held
  · have := ho.held n ht hh
    omega
  · have := ho.gone n ht hh
    rw [Multiset.count_eq_zero.2 hh] at hacc
    omega

theorem Loses.not_owned (hl : Loses m h h') (h0 : h.Balanced) (hf : h.Fit) : ¬ h'.Owned := by
  obtain ⟨n, ht, hb⟩ := hl
  intro ho
  have hacc := congrArg (Multiset.count n) (hb.balanced h0)
  rw [add_zero, Multiset.count_add, count_account, count_allocated ((hb.fit hf).known n ht), Multiset.count_singleton_self] at hacc
  have hh : n ∉ h'.held := Multiset.count_eq_zero.1 (by omega)
  have := ho.gone n ht hh
  omega

/-- What keeps the account right. -/
def Proper (h : SkbHost) (e : SkbEvent) : Prop := h.SendsRouted e ∧ h.RepliesUnrouted e

theorem owned_iff_of_balanced (h0 : h.Balanced) (hf : h.Fit) (es : List SkbEvent) :
    (∀ k, (h.run m (es.take k)).Owned) ↔ Machine.Meets (step m) Proper h es := by
  induction es generalizing h with
  | nil => exact ⟨fun _ => trivial, fun _ k => by rw [List.take_nil]; exact h0.owned hf⟩
  | cons e es ih =>
    have hstep := step_books (m := m) hf e
    constructor
    · intro hall
      have ho : (h.step m e).Owned := hall 1
      have hp : h.Proper e := by
        refine ⟨not_not.1 fun hn => ?_, not_not.1 fun hn => ?_⟩
        · exact (hstep.doubles hn).not_owned h0 hf ho
        · exact (hstep.loses hn).not_owned h0 hf ho
      have hb := hstep.right hp.1 hp.2
      exact ⟨hp, (ih (hb.keeps h0) (hb.fit hf)).1 fun k => hall (k + 1)⟩
    · rintro ⟨hp, hrest⟩ k
      have hb := hstep.right hp.1 hp.2
      cases k with
      | zero => exact h0.owned hf
      | succ k => exact (ih (hb.keeps h0) (hb.fit hf)).2 hrest k

/-- **Who owns an skb.** In every run, whatever the tables of the host, every
skb to be sent is freed once, and not while something holds it, exactly if
every segment that is sent over IPv6 finds a route and no ICMPv6 reply or error
does. -/
theorem owned_iff (m : Heap.Allocator) (routes : List RtEntry) (arpCache : List U32)
    (neighbours : List (In6Addr × HwAddr × NdpState)) (es : List SkbEvent) :
    (∀ k, ((boot routes arpCache neighbours).run m (es.take k)).Owned) ↔
      Machine.Meets (step m) Proper (boot routes arpCache neighbours) es :=
  owned_iff_of_balanced (balanced_boot _ _ _) (fit_boot _ _ _) es

/-- A SYN to an address without a route is freed while it is on `write_queue`,
an ACK there is freed twice, and an echo reply that does find a route is not
freed at all. -/
theorem syn_freed_while_linked :
    ¬ (∀ k, ((boot [] [] []).run Heap.lifo
      ([.socket (.v6 farAddr), .allocQueued 0 { syn := true }, .queueTransmit 0 1].take k)).Owned) ∧
    ¬ (∀ k, ((boot [] [] []).run Heap.lifo ([.socket (.v6 farAddr), .sendAck 0 .established].take k)).Owned) ∧
    ¬ (∀ k, ((boot [raRoute] [] []).run Heap.lifo
      ([.echoReply farAddr].take k)).Owned) := by
  refine ⟨fun h => ?_, fun h => ?_, fun h => ?_⟩
  · exact absurd ((h 3).held 0 (by decide +kernel) (by decide +kernel)) (by decide +kernel)
  · exact absurd ((h 2).gone 0 (by decide +kernel) (by decide +kernel)) (by decide +kernel)
  · exact absurd ((h 1).gone 0 (by decide +kernel) (by decide +kernel)) (by decide +kernel)

end SkbHost

end LevelIp
