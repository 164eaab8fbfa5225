/-
Which queue an skb is on. The links of a queue are in the skbs, so one that is
on two queues breaks both. skbs are told apart here by their address: `malloc`
gives out again what was freed, even if it is still on a queue.
-/
import LevelIp.CoreFacts
import LevelIp.SkbAccount

namespace LevelIp

/-! ## The queues as the TCP modules have them -/

namespace SkbHead

/-- What the skbs of a queue carry: the queue of a `TcpSock`. -/
def data (q : SkbHead) : List Skb := q.skbs.map (·.data)

variable {p : SkBuff → Prop} {q : SkbHead} {b : SkBuff}

/-- `tcp_data_insert_ordered` puts the skb where the list function does. -/
theorem data_add {k : Nat} (hk : insertPos b.data.seq b.data.endSeq q.skbs = some k) :
    (q.add b k).data = tcpDataInsertOrdered b.data q.data := by
  unfold data add
  dsimp only
  generalize q.skbs = skbs at hk ⊢
  induction skbs generalizing k with
  | nil =>
    obtain rfl := Option.some.inj hk
    rfl
  | cons next rest ih =>
    unfold insertPos at hk
    rw [List.map_cons, tcpDataInsertOrdered]
    have hrest : ∀ j, (insertPos b.data.seq b.data.endSeq rest).map (· + 1) = some j →
        ((next :: rest).insertIdx j b).map (·.data) = next.data :: tcpDataInsertOrdered b.data (rest.map (·.data)) := by
      intro j hj
      obtain ⟨i, hi, rfl⟩ := Option.map_eq_some_iff.1 hj
      rw [List.insertIdx_succ_cons, List.map_cons, ih hi]
    split at hk
    · next hlt =>
      rw [if_pos hlt]
      split at hk
      · next hov =>
        rw [if_pos hov]
        exact hrest k hk
      · next hov =>
        obtain rfl := Option.some.inj hk
        rw [if_neg hov]
        rfl
    · next hlt =>
      rw [if_neg hlt]
      split at hk
      · cases hk
      · next hne =>
        rw [if_neg hne]
        exact hrest k hk

/-- And leaves it out where that does. -/
theorem data_duplicate (hk : insertPos b.data.seq b.data.endSeq q.skbs = none) :
    tcpDataInsertOrdered b.data q.data = q.data := by
  unfold data
  generalize q.skbs = skbs at hk ⊢
  induction skbs with
  | nil => cases hk
  | cons next rest ih =>
    unfold insertPos at hk
    rw [List.map_cons, tcpDataInsertOrdered]
    split at hk
    · next hlt =>
      rw [if_pos hlt]
      split at hk
      · next hov => rw [if_pos hov, ih (Option.map_eq_none_iff.1 hk)]
      · cases hk
    · next hlt =>
      rw [if_neg hlt]
      split at hk
      · next he => rw [if_pos he]
      · next hne => rw [if_neg hne, ih (Option.map_eq_none_iff.1 hk)]

/-- `qlen` does not stop a loop before the queue is empty. -/
theorem not_lt_one {rest : List SkBuff} (h : (b :: rest).length < 2 ^ 32) :
    ¬ (BitVec.ofNat 32 (b :: rest).length < 1) ∧ BitVec.ofNat 32 (b :: rest).length - 1 = BitVec.ofNat 32 rest.length := by
  rw [List.length_cons] at h ⊢
  refine ⟨?_, by rw [BitVec.ofNat_add]; exact BitVec.add_sub_cancel _ _⟩
  rw [BitVec.lt_def, BitVec.toNat_ofNat, Nat.mod_eq_of_lt h]
  exact fun h => absurd h (by simp)

theorem turns_eq (f : SkBuff → Bool) {skbs : List SkBuff} (h : skbs.length < 2 ^ 32) :
    turns f skbs (BitVec.ofNat 32 skbs.length) = (skbs.takeWhile f).length := by
  induction skbs with
  | nil => rfl
  | cons b rest ih =>
    obtain ⟨hpos, hsub⟩ := not_lt_one h
    unfold turns
    rw [decide_eq_false hpos, Bool.false_or, hsub, ih (Nat.lt_of_succ_lt h), List.takeWhile_cons]
    cases f b <;> rfl

/-- `tcp_clean_rto_queue` leaves what the list function leaves. -/
theorem data_clean (hq : q.Fit p) (h : q.skbs.length < 2 ^ 32) (una : U32) :
    (q.dequeue (turns (fun b => b.data.seq > 0 && b.data.endSeq ≤ una) q.skbs q.qlen)).data = cleanQueue una q.data := by
  rw [hq.counted, turns_eq _ h]
  unfold data dequeue cleanQueue
  dsimp only
  have hdrop : ∀ (f : SkBuff → Bool) (l : List SkBuff), l.drop (l.takeWhile f).length = l.dropWhile f := by
    intro f l
    have hdrop : (l.takeWhile f ++ l.dropWhile f).drop (l.takeWhile f).length = l.dropWhile f := List.drop_left
    rwa [List.takeWhile_append_dropWhile] at hdrop
  rw [hdrop, List.dropWhile_map]
  rfl

/-- `tcp_consume_ofo_queue` moves what the list function moves. -/
theorem data_ofoTurns {skbs : List SkBuff} (h : skbs.length < 2 ^ 32) (nxt : U32) :
    ((skbs.take (ofoTurns nxt skbs (BitVec.ofNat 32 skbs.length))).map (·.data),
      (skbs.drop (ofoTurns nxt skbs (BitVec.ofNat 32 skbs.length))).map (·.data)) =
      (ofoDrain nxt (skbs.map (·.data))).2 := by
  induction skbs generalizing nxt with
  | nil => rfl
  | cons b rest ih =>
    obtain ⟨hpos, hsub⟩ := not_lt_one h
    unfold ofoTurns
    rw [decide_eq_false hpos, Bool.false_or, hsub, List.map_cons, ofoDrain]
    by_cases hs : nxt = b.data.seq
    · have hrest := ih (Nat.lt_of_succ_lt h) (nxt + b.data.dlen)
      rw [if_neg (by simp [hs]), if_pos hs, List.take_succ_cons, List.drop_succ_cons, List.map_cons]
      generalize ofoDrain (nxt + b.data.dlen) (rest.map (·.data)) = r at hrest ⊢
      obtain ⟨nxt', moved, left⟩ := r
      obtain ⟨rfl, rfl⟩ := Prod.mk.inj hrest
      rfl
    · rw [if_pos (by simpa using hs), if_neg hs]
      rfl

end SkbHead

/-! ## One queue for each skb -/

namespace SkbHost

/-- All queues: of the sockets, and of the neighbours. -/
def queues (h : SkbHost) : List SkbHead :=
  h.socks.flatMap (fun sk => [sk.receiveQueue, sk.writeQueue, sk.ofoQueue]) ++ h.ndpCache.map (·.queue)

/-- Over all queues no address is linked twice, and a queue's `qlen` is the
number of its skbs, as long as 32 bits can count them. -/
structure Exclusive (h : SkbHost) : Prop where
  once : (h.linked.map h.heap.addr).Nodup
  counted : ∀ q ∈ h.queues, q.skbs.length < 2 ^ 32 → q.qlen.toNat = q.skbs.length

/-- Nothing is held that was freed, or held twice. -/
structure Tidy (h : SkbHost) : Prop where
  fit : h.Fit
  sound : h.heap.Sound
  account : h.account ≤ h.allocated

variable {m : Heap.Allocator} {h h' : SkbHost}

theorem Tidy.books {y : Multiset Nat} (ht : h.Tidy) (hb : Books m h h' 0 y) : h'.Tidy := by
  have hacc : h'.account ≤ h'.allocated := by
    refine le_of_add_le_add_right (a := h.allocated) ?_
    calc h'.account + h.allocated ≤ h'.account + h.allocated + y := le_add_right le_rfl
      _ = h.account + h'.allocated := by rw [hb.account, add_zero]
      _ ≤ h.allocated + h'.allocated := add_le_add_left ht.account _
      _ = _ := add_comm _ _
  refine ⟨hb.fit ht.fit, hb.path.sound ht.sound ?_, hacc⟩
  exact Multiset.coe_nodup.1 (Multiset.nodup_of_le ((Multiset.le_add_left _ _).trans hacc) (Multiset.nodup_range _))

theorem Tidy.step {e : SkbEvent} (ht : h.Tidy) (hr : h.SendsRouted e) : (h.step m e).Tidy := by
  have hstep := step_books (m := m) ht.fit e
  by_cases h6 : h.RepliesUnrouted e
  · exact ht.books (hstep.right hr h6)
  · obtain ⟨n, -, hb⟩ := hstep.loses h6
    exact ht.books hb

theorem Tidy.exclusive (ht : h.Tidy) : h.Exclusive := by
  have hlinked : h.linked + (h.heap.frees : Multiset Nat) ≤ Multiset.range h.heap.allocs.length := by
    refine le_trans ?_ ht.account
    exact add_le_add_left (Multiset.le_add_right _ _) _
  have hnd : (h.linked + (h.heap.frees : Multiset Nat)).Nodup := Multiset.nodup_of_le hlinked (Multiset.nodup_range _)
  obtain ⟨hln, -, hdisj⟩ := Multiset.nodup_add.1 hnd
  have hknown : ∀ n ∈ h.linked, n < h.heap.allocs.length ∧ n ∉ h.heap.frees := by
    intro n hn
    exact ⟨Multiset.mem_range.1 (Multiset.mem_of_le hlinked (Multiset.mem_add.2 (.inl hn))),
      fun hf => Multiset.disjoint_left.1 hdisj hn hf⟩
  refine ⟨Multiset.Nodup.map_on (fun n hn k hk he => ?_) hln, fun q hq hlen => ?_⟩
  · exact ht.sound.apart n k (hknown n hn).1 (hknown k hk).1 (hknown n hn).2 (hknown k hk).2 he
  · have hcount : q.qlen = BitVec.ofNat 32 q.skbs.length := by
      rcases List.mem_append.1 hq with hq | hq
      · obtain ⟨sk, hsk, hq⟩ := List.mem_flatMap.1 hq
        have hfit := ht.fit.socks sk hsk
        simp only [List.mem_cons, List.not_mem_nil, or_false] at hq
        rcases hq with rfl | rfl | rfl
        · exact hfit.receive.counted
        · exact hfit.write.counted
        · exact hfit.ofo.counted
      · obtain ⟨e, he, rfl⟩ := List.mem_map.1 hq
        exact (ht.fit.pending e he).counted
    rw [hcount, BitVec.toNat_ofNat, Nat.mod_eq_of_lt hlen]

theorem tidy_boot (routes : List RtEntry) (arpCache : List U32) (neighbours : List (In6Addr × HwAddr × NdpState)) :
    (boot routes arpCache neighbours).Tidy :=
  ⟨fit_boot _ _ _, Heap.sound_init, (balanced_boot _ _ _).le⟩

/-- **One queue at a time.** In every run in which the segments sent over IPv6
find a route, whatever addresses `malloc` gives out again, no skb is ever on two
queues, or on one twice, and `qlen` counts what is on each. -/
theorem queues_exclusive (m : Heap.Allocator) (routes : List RtEntry) (arpCache : List U32)
    (neighbours : List (In6Addr × HwAddr × NdpState)) (es : List SkbEvent)
    (hr : Machine.Meets (step m) SendsRouted (boot routes arpCache neighbours) es) :
    ((boot routes arpCache neighbours).run m es).Exclusive :=
  (hr.invariant (fun _ _ hr ht => ht.step hr) (tidy_boot routes arpCache neighbours)).exclusive

/-- A SYN waits for its neighbour: it is on `write_queue`, and a copy of it in
the neighbour's queue. Segments come in out of order. -/
theorem queues_exclusive_handshake :
    ((boot [raRoute] [] []).run Heap.lifo
      [.socket (.v6 farAddr), .allocQueued 0 { syn := true }, .queueTransmit 0 1, .dataQueue 0 1 7 .established { seq := 9 },
        .dataQueue 0 1 7 .established { seq := 7 }]).Exclusive :=
  queues_exclusive Heap.lifo [raRoute] [] [] _ (by decide +kernel)

/-- The SYN-ACKs of two connections without a route: the first is freed on its
`write_queue`, and the second gets its memory. -/
theorem freed_skb_linked_again :
    ¬ ((boot [] [] []).run Heap.lifo
      [.socket (.v6 farAddr), .allocQueued 0 { syn := true, ack := true }, .queueTransmit 0 1,
        .socket (.v6 farAddr), .allocQueued 1 { syn := true, ack := true }, .queueTransmit 0 1]).Exclusive := by
  intro h
  exact absurd h.once (by decide +kernel)

end SkbHost

end LevelIp
