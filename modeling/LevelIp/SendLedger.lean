/-
The send side of a connecting socket against all it has queued. What follows
the SYN is one list without gaps: data, then at most FINs. `write_queue` is the
end of that list, and its head has the number `snd_una`, as long as what is
acknowledged are ends of segments.

So a retransmission timeout, which puts `snd_una` on the head, numbers it right,
and every segment that leaves is empty, is on the list, or is the FIN.
-/
import LevelIp.FinAck
import LevelIp.Greeting
import LevelIp.SendQueue
import LevelIp.Lib.Slice

namespace LevelIp

open Layout

/-! ## What has been queued -/

/-- The skb an effect marks as queued, a SYN apart. -/
def Effect.queued? : Effect → Option Skb
  | .queued k _ _ => if k.syn then none else some k.plain
  | .xmit _ _ | .peerFin | .wakeup _ | .acceptQueue _ => none

/-- What a log has queued after the SYN, in order. -/
def queuedOf (log : List Effect) : List Skb := log.filterMap Effect.queued?

@[simp] theorem queuedOf_append (l l' : List Effect) : queuedOf (l ++ l') = queuedOf l ++ queuedOf l' := List.filterMap_append

/-- Nothing is sent or queued: a mark of what has happened. -/
def Effect.wakes : Effect → Bool
  | .wakeup _ | .acceptQueue _ | .peerFin => true
  | .xmit _ _ | .queued _ _ _ => false

theorem queuedOf_eq_nil {l : List Effect} (h : ∀ e ∈ l, e.queued? = none) : queuedOf l = [] := List.filterMap_eq_nil_iff.mpr h

theorem Core.Plain.queued? {c : Core} {e : Effect} (h : c.Plain e) : e.queued? = none := by
  cases e with
  | queued => exact h.elim
  | _ => rfl

theorem RcvSide.Sends.queued? {r : RcvSide} {k : Skb} {n : U32} {e : Effect} (h : r.Sends k n e) : e.queued? = none := by
  cases e with
  | xmit => rfl
  | _ => exact h.elim

/-- What `tcp_queue_transmit_skb` logs. -/
theorem queuedOf_pair {k : Skb} {fl cwnd : U32} {e : Effect} (he : e.queued? = none) :
    queuedOf [.queued k fl cwnd, e] = if k.syn then [] else [k.plain] := by
  have hk : Effect.queued? (.queued k fl cwnd) = if k.syn then none else some k.plain := rfl
  cases hs : k.syn <;> simp [queuedOf, hk, hs, he]

theorem queuedOf_syn {log : List Effect} {k : Skb} (hk : k ∈ queuedOf log) : k.syn = false := by
  obtain ⟨e, -, he⟩ := List.mem_filterMap.mp hk
  cases e with
  | queued k₀ fl cwnd =>
    simp only [Effect.queued?] at he
    split at he
    next => cases he
    next hs =>
      cases he
      exact Bool.eq_false_iff.mpr hs
  | _ => cases he

/-- What a move queues: nothing, data, or the FIN of a `tcp_close`. -/
theorem Move.queuedOf {a : Act} {c c' : Core} {es : List Effect} (hm : Move a c es c') : queuedOf es = [] ∨
    (∃ chunk last, a = .send ∧ queuedOf es = [(c.snd.number (dataSkb chunk last)).plain]) ∨
    ∃ lastAck, a.Fins c lastAck ∧ queuedOf es = [(c.snd.number finSkb).plain] ∧ c' = c.enqueueFin lastAck := by
  have plain : ∀ {k : Core} {l : List Effect}, (∀ e ∈ l, k.Plain e) → LevelIp.queuedOf l = [] :=
    fun hp => queuedOf_eq_nil fun e he => (hp e he).queued?
  cases hm with
  | quiet hp | reset _ hp | ack _ _ _ _ hp | connect _ _ _ _ hp | userTimeout hp | abort hp => exact .inl (plain hp)
  | resend hp =>
    refine .inl (queuedOf_eq_nil fun e he => ?_)
    obtain ⟨k, -, hs⟩ := hp e he
    exact hs.queued?
  | sendNext _ hn =>
    refine .inl (queuedOf_eq_nil fun e he => ?_)
    obtain ⟨k, -, -, n, hs⟩ := hn.emits e he
    exact hs.queued?
  | fin _ _ _ _ _ _ _ hp =>
    have hq := plain hp
    exact .inl hq
  | resendHead _ _ hs => exact .inl (queuedOf_eq_nil fun e he => List.mem_singleton.mp he ▸ hs.queued?)
  | simultaneous _ _ _ _ hs => exact .inl (queuedOf_pair hs.queued?)
  | data _ _ hs => exact .inr (.inl ⟨_, _, rfl, queuedOf_pair hs.queued?⟩)
  | queueFin lastAck hfin _ _ hs => exact .inr (.inr ⟨lastAck, hfin, queuedOf_pair hs.queued?, rfl⟩)
  | rst | establish | fault | finWait2 | timeWait | lastAck | finAgain | inOrder | outOfOrder | refused | giveUp | finSent
  | finResent | linger | spin | closeRefused | closeDone | closeStart | dequeue | eof => exact .inl rfl

/-- The numbers an skb takes. -/
def Skb.span (k : Skb) : Nat := k.payload.bytes.length + k.fin.toNat

/-- The list `l` of what has been queued follows the SYN up to `nxt`: data, then
FINs that carry none. -/
structure Recorded (iss nxt : U32) (l : List Skb) : Prop where
  contiguous : Contiguous (fun k : Skb => k.seq.toNat) Skb.span (iss.toNat + 1) nxt.toNat l
  spans : ∀ k ∈ l, k.endSeq.toNat = k.seq.toNat + k.payload.bytes.length
  fins : l.Pairwise fun a b => a.fin → b.fin
  bare : ∀ k ∈ l, k.fin → k.payload.bytes = [] ∧ k.psh = false

/-- Where the data ends. -/
def dataEnd (iss : U32) (l : List Skb) : Nat := iss.toNat + 1 + (queueBytes l).length

/-- No segment of the data goes on past `a`. -/
def Cut (l : List Skb) (a : U32) : Prop := ∀ k ∈ l, k.fin = false → a.toNat ≤ k.seq.toNat ∨ k.endSeq.toNat ≤ a.toNat

theorem span_data {k : Skb} (h : k.fin = false) : k.span = k.payload.bytes.length := by simp [Skb.span, h]

theorem sum_span_data {l : List Skb} (h : ∀ k ∈ l, k.fin = false) : (l.map Skb.span).sum = (queueBytes l).length := by
  induction l with
  | nil => rfl
  | cons k l ih =>
    rw [List.map_cons, List.sum_cons, span_data (h k List.mem_cons_self), ih fun x hx => h x (List.mem_cons_of_mem k hx)]
    simp

theorem queueBytes_le_span (l : List Skb) : (queueBytes l).length ≤ (l.map Skb.span).sum := by
  induction l with
  | nil => exact Nat.le_refl 0
  | cons k l ih =>
    rw [queueBytes_cons, List.length_append, List.map_cons, List.sum_cons, Skb.span]
    omega

namespace Recorded

variable {iss nxt : U32} {l gone rest : List Skb} {k : Skb}

theorem nil (h : nxt.toNat = iss.toNat + 1) : Recorded iss nxt [] := ⟨h.symm, by simp, .nil, by simp⟩

/-- The number of an skb, by what comes before it. -/
theorem seq_eq (h : Recorded iss nxt (gone ++ k :: rest)) : k.seq.toNat = iss.toNat + 1 + (gone.map Skb.span).sum :=
  h.contiguous.split.2.1

theorem nxt_eq (h : Recorded iss nxt l) : nxt.toNat = iss.toNat + 1 + (l.map Skb.span).sum := h.contiguous.hi_eq

theorem dataEnd_le (h : Recorded iss nxt l) : dataEnd iss l ≤ nxt.toNat := by
  have := queueBytes_le_span l
  rw [h.nxt_eq, dataEnd]
  omega

/-- Before data comes data. -/
theorem data_before (h : Recorded iss nxt (gone ++ k :: rest)) (hk : k.fin = false) : ∀ x ∈ gone, x.fin = false := by
  intro x hx
  have hp := (List.pairwise_append.mp h.fins).2.2 x hx k List.mem_cons_self
  cases hxf : x.fin with
  | false => rfl
  | true => rw [hp hxf] at hk; cases hk

/-- After a FIN come FINs. -/
theorem fin_after (h : Recorded iss nxt (gone ++ k :: rest)) (hk : k.fin) : ∀ x ∈ k :: rest, x.fin := by
  intro x hx
  rcases List.mem_cons.mp hx with rfl | hx
  · exact hk
  · exact (List.pairwise_cons.mp (List.pairwise_append.mp h.fins).2.1).1 x hx hk

theorem fins_empty (h : Recorded iss nxt l) (hr : ∀ x ∈ rest, x ∈ l ∧ x.fin) : queueBytes rest = [] := by
  rw [queueBytes, List.flatMap_eq_nil_iff]
  exact fun x hx => (h.bare x (hr x hx).1 (hr x hx).2).1

/-- A FIN is numbered past all data. -/
theorem fin_seq (h : Recorded iss nxt l) (hk : k ∈ l) (hf : k.fin) : dataEnd iss l ≤ k.seq.toNat ∧ k.seq.toNat < nxt.toNat := by
  obtain ⟨gone, rest, rfl⟩ := List.append_of_mem hk
  have he : queueBytes (k :: rest) = [] := h.fins_empty fun x hx => ⟨List.mem_append_right _ hx, h.fin_after hf x hx⟩
  have hb := queueBytes_le_span gone
  refine ⟨?_, ?_⟩
  · rw [h.seq_eq, dataEnd, queueBytes_append, he, List.append_nil]
    omega
  · have hm := (h.contiguous.mem hk).2
    simp only [Skb.span, hf, Bool.toNat_true] at hm
    omega

/-- Data is what the whole holds at its number. -/
theorem data_slice (h : Recorded iss nxt l) (hk : k ∈ l) (hf : k.fin = false) :
    iss.toNat + 1 ≤ k.seq.toNat ∧ k.endSeq.toNat ≤ dataEnd iss l ∧
      Slice.At (queueBytes l) (k.seq.toNat - (iss.toNat + 1)) k.payload.bytes := by
  have hs := h.spans k hk
  obtain ⟨gone, rest, rfl⟩ := List.append_of_mem hk
  have hq := h.seq_eq
  rw [sum_span_data (h.data_before hf)] at hq
  refine ⟨by omega, ?_, ?_⟩
  · simp only [dataEnd, queueBytes_append, queueBytes_cons, List.length_append]
    omega
  · have ho : k.seq.toNat - (iss.toNat + 1) = (queueBytes gone).length := by omega
    rw [ho, queueBytes_append, queueBytes_cons, ← List.append_assoc]
    exact (Slice.at_end (queueBytes gone) k.payload.bytes).mono _ (by simp)

/-- Where an skb ends nothing goes on. -/
theorem cut_end (h : Recorded iss nxt l) (hk : k ∈ l) : Cut l k.endSeq := by
  intro x hx hxf
  have hsk := h.spans k hk
  have hsx := h.spans x hx
  obtain ⟨gone, rest, rfl⟩ := List.append_of_mem hk
  have hp := h.contiguous.pairwise
  rw [List.pairwise_append, List.pairwise_cons] at hp
  obtain ⟨-, ⟨hafter, -⟩, hbefore⟩ := hp
  rcases List.mem_append.mp hx with hx | hx
  · have := hbefore x hx k List.mem_cons_self
    rw [span_data hxf] at this
    right
    omega
  · rcases List.mem_cons.mp hx with rfl | hx
    · exact .inr (Nat.le_refl _)
    · have hb := hafter x hx
      have hle : k.payload.bytes.length ≤ k.span := Nat.le_add_right _ _
      left
      omega

/-- What comes after the data cuts nothing. -/
theorem cut_beyond (h : Recorded iss nxt l) {a : U32} (ha : dataEnd iss l ≤ a.toNat) : Cut l a := fun _ hk hf =>
  .inr (Nat.le_trans (h.data_slice hk hf).2.1 ha)

theorem cut_start (h : Recorded iss nxt l) {a : U32} (ha : a.toNat ≤ iss.toNat + 1) : Cut l a := fun _ hk _ =>
  .inl (Nat.le_trans ha (h.contiguous.mem hk).1)

/-- One more skb: data before any FIN, or a FIN. -/
theorem concat (h : Recorded iss nxt l) {nxt' : U32} (hseq : k.seq = nxt) (hend : k.endSeq.toNat = nxt.toNat + k.payload.bytes.length)
    (hn : nxt'.toNat = nxt.toNat + k.span) (hd : k.fin = false → ∀ x ∈ l, x.fin = false)
    (hf : k.fin → k.payload.bytes = [] ∧ k.psh = false) : Recorded iss nxt' (l ++ [k]) := by
  refine ⟨h.contiguous.append ⟨congrArg BitVec.toNat hseq, hn.symm⟩, fun x hx => ?_, ?_, fun x hx => ?_⟩
  · rcases List.mem_append.mp hx with hx | hx
    · exact h.spans x hx
    · rw [List.mem_singleton.mp hx, hend, hseq]
  · refine List.pairwise_append.mpr ⟨h.fins, List.pairwise_singleton _ _, fun x hx y hy hxf => ?_⟩
    rw [List.mem_singleton.mp hy]
    cases hk : k.fin with
    | true => rfl
    | false => rw [hd hk x hx] at hxf; cases hxf
  · rcases List.mem_append.mp hx with hx | hx
    · exact h.bare x hx
    · rw [List.mem_singleton.mp hx]
      exact hf

/-- Data ends where what comes up to it does. -/
theorem end_eq (h : Recorded iss nxt (gone ++ k :: rest)) (hf : k.fin = false) :
    k.endSeq.toNat = iss.toNat + 1 + ((gone ++ [k]).map Skb.span).sum := by
  have hs := h.spans k (List.mem_append_right _ List.mem_cons_self)
  have hq := h.seq_eq
  simp only [List.map_append, List.map_cons, List.map_nil, List.sum_append, List.sum_cons, List.sum_nil, span_data hf]
  omega

/-- Whatever has been acknowledged last: it ends where the next begins, or all
data is acknowledged. -/
theorem last_covered (h : Recorded iss nxt (gone ++ k :: rest)) {a : U32} (ha : k.endSeq.toNat ≤ a.toNat) :
    iss.toNat + 1 + ((gone ++ [k]).map Skb.span).sum ≤ a.toNat ∨ k.fin ∧ dataEnd iss (gone ++ k :: rest) ≤ a.toNat := by
  cases hf : k.fin with
  | false => exact .inl (h.end_eq hf ▸ ha)
  | true =>
    have hm : k ∈ gone ++ k :: rest := List.mem_append_right _ List.mem_cons_self
    have hs := h.spans k hm
    have hg := (h.fin_seq hm hf).1
    exact .inr ⟨rfl, by omega⟩

/-- **What an acknowledgement leaves** that cuts no segment: it is where the
rest begins, or only FINs are left. -/
theorem acked (h : Recorded iss nxt (gone ++ rest)) {una a : U32}
    (hat : una.toNat = iss.toNat + 1 + (gone.map Skb.span).sum ∨
      (∀ k ∈ rest, k.fin) ∧ dataEnd iss (gone ++ rest) ≤ una.toNat)
    (hlt : una.toNat < a.toNat) (hn : a.toNat ≤ nxt.toNat) (hcut : Cut (gone ++ rest) a) :
    ∃ dropped, rest = dropped ++ cleanQueue a rest ∧ (∀ k ∈ dropped, k.endSeq.toNat ≤ a.toNat) ∧
      a.toNat ≤ iss.toNat + 1 + ((gone ++ dropped).map Skb.span).sum ∧
      (a.toNat = iss.toNat + 1 + ((gone ++ dropped).map Skb.span).sum ∨
        (∀ k ∈ cleanQueue a rest, k.fin) ∧ dataEnd iss (gone ++ rest) ≤ a.toNat) := by
  obtain ⟨dropped, hd⟩ : ∃ dropped, dropped = rest.takeWhile (Skb.covered a) := ⟨_, rfl⟩
  have hsplit : rest = dropped ++ cleanQueue a rest := by
    rw [hd]
    exact List.takeWhile_append_dropWhile.symm
  have hcov : ∀ k ∈ dropped, k.endSeq.toNat ≤ a.toNat := fun k hk =>
    (covered_iff.mp (List.mem_takeWhile_imp (hd ▸ hk))).2
  refine ⟨dropped, hsplit, hcov, ?_⟩
  generalize hq : cleanQueue a rest = left at hsplit
  have hfirst : ∀ k tail, left = k :: tail → a.toNat < k.endSeq.toNat := by
    intro k tail hl
    have hm : k ∈ gone ++ rest := by
      rw [hsplit, hl]
      simp
    have hpos : 0 < k.seq.toNat := Nat.lt_of_lt_of_le (Nat.succ_pos iss.toNat) (h.contiguous.mem hm).1
    have hne : rest.dropWhile (Skb.covered a) ≠ [] := by
      rw [show rest.dropWhile (Skb.covered a) = left from hq, hl]
      exact List.cons_ne_nil k tail
    have hno := List.head_dropWhile_not (Skb.covered a) hne
    simp only [show rest.dropWhile (Skb.covered a) = k :: tail from hq.trans hl, List.head_cons] at hno
    by_contra hle
    rw [covered_iff.mpr ⟨BitVec.lt_def.mpr hpos, BitVec.le_def.mpr (Nat.not_lt.mp hle)⟩] at hno
    cases hno
  subst hsplit
  rw [← List.append_assoc] at h hcut hat ⊢
  -- what the last one acknowledged, or `una` before, says of `a`
  have hlast : iss.toNat + 1 + ((gone ++ dropped).map Skb.span).sum ≤ a.toNat ∨
      (∀ k ∈ left, k.fin) ∧ dataEnd iss (gone ++ dropped ++ left) ≤ a.toNat := by
    rcases List.eq_nil_or_concat dropped with rfl | ⟨init, d, rfl⟩
    · rw [List.append_nil] at hat ⊢
      rcases hat with hat | ⟨hall, hge⟩
      · left
        omega
      · exact .inr ⟨fun k hk => hall k (List.mem_append_right _ hk), by omega⟩
    · rw [List.concat_eq_append] at h hcov ⊢
      have hsh : gone ++ (init ++ [d]) ++ left = gone ++ init ++ d :: left := by simp
      rw [hsh] at h ⊢
      rcases h.last_covered (hcov d (by simp)) with hle | ⟨hf, hge⟩
      · rw [List.append_assoc] at hle
        exact .inl hle
      · exact .inr ⟨fun k hk => h.fin_after hf k (List.mem_cons_of_mem d hk), hge⟩
  cases left with
  | nil =>
    rw [List.append_nil] at h hlast ⊢
    rw [h.nxt_eq] at hn
    refine ⟨hn, ?_⟩
    rcases hlast with hle | hr
    · exact .inl (Nat.le_antisymm hn hle)
    · exact .inr hr
  | cons k tail =>
    have hk := hfirst k tail rfl
    have hm : k ∈ gone ++ dropped ++ k :: tail := List.mem_append_right _ List.mem_cons_self
    have hs := h.seq_eq
    have hle : a.toNat ≤ k.seq.toNat := by
      cases hf : k.fin with
      | false =>
        rcases hcut k hm hf with hc | hc
        · exact hc
        · omega
      | true =>
        have hsp := h.spans k hm
        rw [(h.bare k hm hf).1] at hsp
        simp only [List.length_nil] at hsp
        omega
    refine ⟨hs ▸ hle, ?_⟩
    rcases hlast with hge | hr
    · exact .inl (Nat.le_antisymm (hs ▸ hle) hge)
    · exact .inr hr

end Recorded

/-! ## The ledger -/

/-- A segment of a socket that has queued `l`: it is empty, it is on the list,
or it is a FIN numbered past the data. -/
inductive Seg.Of (iss nxt : U32) (l : List Skb) (seg : Seg) : Prop
  | empty (he : seg.Empty)
  | data {k : Skb} (hk : k ∈ l) (hf : k.fin = false) (hseq : seg.seq = k.seq) (hp : seg.payload = k.payload) (hfin : seg.fin = false)
  | fin {k : Skb} (hk : k ∈ l) (hf : k.fin) (hp : seg.payload.bytes = []) (hpsh : seg.psh = false)
      (hge : dataEnd iss l ≤ seg.seq.toNat) (hlt : seg.seq.toNat < nxt.toNat)

/-- The SYN waits for its answer, or the connection was given up before it came. -/
structure Unanswered (iss : U32) (c : Core) (log : List Effect) : Prop where
  number : c.snd.iss = iss
  una : c.snd.una = iss
  state : c.state = .synSent ∨ c.state = .closing ∨ c.state = .timeWait
  queue : ∀ k ∈ c.snd.queue, k.seq = iss ∧ k.endSeq = iss ∧ k.payload.bytes = [] ∧ k.fin = false
  none : queuedOf log = []

/-- The SYN is acknowledged. `gone` is what has left the queue, and the other
end has: `snd_una` is where that ends, unless only FINs are left. -/
structure Answered (iss heard : U32) (c : Core) (log : List Effect) : Prop where
  una : iss.toNat < c.snd.una.toNat
  state : c.state ≠ .synSent
  queue : ∃ gone, queuedOf log = gone ++ c.snd.queue ∧
    c.snd.una.toNat ≤ iss.toNat + 1 + (gone.map Skb.span).sum ∧
    (c.snd.una.toNat = iss.toNat + 1 + (gone.map Skb.span).sum ∨
      (∀ k ∈ c.snd.queue, k.fin) ∧ dataEnd iss (queuedOf log) ≤ c.snd.una.toNat) ∧
    ∀ k ∈ gone, k.endSeq.toNat ≤ heard.toNat

/-- A socket that connects with `iss` and has heard acknowledgements up to `heard`. -/
structure Ledger (iss heard : U32) (c : Core) (log : List Effect) : Prop where
  alive : c.state ≠ .close
  used : c.snd.nxt.toNat = iss.toNat + seqsOf log
  recorded : Recorded iss c.snd.nxt (queuedOf log)
  place : Unanswered iss c log ∨ Answered iss heard c log
  wire : ∀ {seg unread}, .xmit seg unread ∈ log → seg.Of iss c.snd.nxt (queuedOf log) ∧ (seg.syn → seg.seq = iss)

/-- What an act may bring: an acknowledgement of something heard, which cuts no
segment, and with any SYN; a reset finds nothing queued; data finds the SYN
answered and no FIN queued, and a closer that has slept the SYN answered. -/
def Act.LedgerOk (iss heard : U32) (l : List Skb) (c : Core) : Act → Prop
  | .arrive _ th _ => (th.syn → th.ack) ∧ th.ackSeq.toNat ≤ heard.toNat ∧ Cut l th.ackSeq
  | .abort | .fire .userTimeout true => c.snd.queue = []
  | .send => c.snd.una ≠ iss ∧ ∀ k ∈ l, k.fin = false
  | .finish _ => c.snd.una ≠ iss
  | _ => True

theorem dataEnd_concat {iss : U32} {l : List Skb} {k : Skb} : dataEnd iss (l ++ [k]) = dataEnd iss l + k.payload.bytes.length := by
  simp only [dataEnd, queueBytes_append, queueBytes_cons, queueBytes_nil, List.append_nil, List.length_append]
  omega

/-- What was sent stays on record when data, before any FIN, or a FIN is queued. -/
theorem Seg.Of.concat {iss nxt nxt' : U32} {l : List Skb} {k : Skb} {seg : Seg} (h : seg.Of iss nxt l) (hn : nxt.toNat ≤ nxt'.toNat)
    (hd : k.fin = false → ∀ x ∈ l, x.fin = false) (hf : k.fin → k.payload.bytes = []) : seg.Of iss nxt' (l ++ [k]) := by
  cases h with
  | empty he => exact .empty he
  | data hk hkf hseq hp hfin => exact .data (List.mem_append_left _ hk) hkf hseq hp hfin
  | @fin x hx hxf hp hpsh hge hlt =>
    refine .fin (List.mem_append_left _ hx) hxf hp hpsh ?_ (Nat.lt_of_lt_of_le hlt hn)
    cases hkf : k.fin with
    | false => rw [hd hkf x hx] at hxf; cases hxf
    | true =>
      rw [dataEnd_concat, hf hkf]
      exact hge

section

variable {iss heard : U32} {c c' : Core} {log es : List Effect}

theorem Recorded.pos (h : Recorded iss c.snd.nxt (queuedOf log)) {k : Skb} (hk : k ∈ queuedOf log) : k.seq ≠ 0 := by
  have := (h.contiguous.mem hk).1
  intro h0
  simp only [h0] at this
  simp at this

namespace Ledger

/-- No queued skb waits for a number. -/
theorem seq_pos (h : Ledger iss heard c log) (hi : iss ≠ 0) {k : Skb} (hk : k ∈ c.snd.queue) : k.seq ≠ 0 := by
  rcases h.place with hu | ha
  · rw [(hu.queue k hk).1]
    exact hi
  · obtain ⟨gone, hl, -⟩ := ha.queue
    exact h.recorded.pos (by rw [hl]; exact List.mem_append_right _ hk)

/-- What is sent of the queue, with its own number or `snd_una` on the head. -/
theorem sent (h : Ledger iss heard c log) {k : Skb} (hk : k ∈ c.snd.queue) {n : U32}
    (hn : n = k.seq ∨ c.snd.queue.head? = some k ∧ n = c.snd.una) {r : RcvSide} {seg : Seg} {unread : Nat}
    (hs : r.Sends k n (.xmit seg unread)) : seg.Of iss c.snd.nxt (queuedOf log) ∧ (seg.syn → seg.seq = iss) := by
  obtain ⟨hseq, hp, hsyn, hfin, -, -, hpsh, -⟩ := hs
  rcases h.place with hu | ha
  · obtain ⟨h1, -, h3, h4⟩ := hu.queue k hk
    refine ⟨.empty ⟨by rw [hp]; exact h3, by rw [hfin]; exact h4⟩, fun _ => ?_⟩
    rw [hseq]
    rcases hn with rfl | ⟨-, rfl⟩
    · exact h1
    · exact hu.una
  · obtain ⟨gone, hl, hle, hat, -⟩ := ha.queue
    have hkl : k ∈ queuedOf log := by
      rw [hl]
      exact List.mem_append_right _ hk
    have hr := h.recorded
    refine ⟨?_, fun hx => by rw [hsyn, queuedOf_syn hkl] at hx; cases hx⟩
    -- the head is numbered where what is gone ends
    have hhead : c.snd.queue.head? = some k → k.seq.toNat = iss.toNat + 1 + (gone.map Skb.span).sum := by
      intro hh
      obtain ⟨rest, hq⟩ := List.head?_eq_some_iff.mp hh
      rw [hl, hq] at hr
      exact hr.seq_eq
    cases hkf : k.fin with
    | false =>
      have hnk : n = k.seq := by
        rcases hn with hn | ⟨hh, hn⟩
        · exact hn
        · rcases hat with hat | ⟨hall, -⟩
          · exact hn.trans (BitVec.eq_of_toNat_eq (hat.trans (hhead hh).symm))
          · rw [hall k hk] at hkf
            cases hkf
      exact .data hkl hkf (hseq.trans hnk) hp (hfin.trans hkf)
    | true =>
      obtain ⟨hb, hpk⟩ := hr.bare k hkl hkf
      obtain ⟨hge, hlt⟩ := hr.fin_seq hkl hkf
      have hn : dataEnd iss (queuedOf log) ≤ n.toNat ∧ n.toNat < c.snd.nxt.toNat := by
        rcases hn with rfl | ⟨hh, rfl⟩
        · exact ⟨hge, hlt⟩
        · have hs := hhead hh
          refine ⟨?_, by omega⟩
          rcases hat with hat | ⟨-, hat⟩
          · omega
          · exact hat
      exact .fin hkl hkf (by rw [hp]; exact hb) (hpsh.trans hpk) (by rw [hseq]; exact hn.1) (by rw [hseq]; exact hn.2)

/-- What a move logs that queues nothing. -/
def Kept (iss : U32) (c : Core) (log es : List Effect) : Prop :=
  ∀ e ∈ es, e.queued? = none ∧ e.seqs = 0 ∧
    ∀ seg unread, e = .xmit seg unread → seg.Of iss c.snd.nxt (queuedOf log) ∧ (seg.syn → seg.seq = iss)

theorem kept_plain {k : Core} (h : ∀ e ∈ es, k.Plain e) : Kept iss c log es := fun e he =>
  ⟨(h e he).queued?, (h e he).seqs, fun seg unread hx => by
    have hp := h e he
    rw [hx] at hp
    exact ⟨.empty hp.empty, fun hs => by rw [hp.2.1] at hs; cases hs⟩⟩

theorem kept_wakes (h : es.all Effect.wakes) : Kept iss c log es := fun e he => by
  have hw := List.all_eq_true.mp h e he
  cases e with
  | xmit | queued => cases hw
  | _ => exact ⟨rfl, rfl, fun _ _ hx => by cases hx⟩

theorem kept_sent (h : Ledger iss heard c log)
    (hes : ∀ e ∈ es, ∃ k ∈ c.snd.queue, ∃ n, (n = k.seq ∨ c.snd.queue.head? = some k ∧ n = c.snd.una) ∧ ∃ r : RcvSide, r.Sends k n e) :
    Kept iss c log es := fun e he => by
  obtain ⟨k, hk, n, hn, r, hs⟩ := hes e he
  exact ⟨hs.queued?, hs.seqs, fun seg unread hx => h.sent hk hn (hx ▸ hs)⟩

/-- A move that leaves the send side alone. -/
theorem keep (h : Ledger iss heard c log) (hes : Kept iss c log es) (hsnd : c'.snd = c.snd) (hst : c'.state ≠ .close)
    (hsy : c'.state = .synSent → c.state = .synSent)
    (hun : c.state = .synSent ∨ c.state = .closing ∨ c.state = .timeWait → c'.state = .synSent ∨ c'.state = .closing ∨ c'.state = .timeWait) :
    Ledger iss heard c' (log ++ es) := by
  have hq : queuedOf es = [] := queuedOf_eq_nil fun e he => (hes e he).1
  have hl : queuedOf (log ++ es) = queuedOf log := by rw [queuedOf_append, hq, List.append_nil]
  refine ⟨hst, ?_, ?_, ?_, fun {seg unread} hm => ?_⟩
  · rw [hsnd, seqsOf_append, seqsOf_eq_zero fun e he => (hes e he).2.1]
    exact h.used
  · rw [hsnd, hl]
    exact h.recorded
  · rcases h.place with hu | ha
    · exact .inl ⟨by rw [hsnd]; exact hu.number, by rw [hsnd]; exact hu.una, hun hu.state, by rw [hsnd]; exact hu.queue, hl.trans hu.none⟩
    · refine .inr ⟨by rw [hsnd]; exact ha.una, fun hs => ha.state (hsy hs), ?_⟩
      rw [hsnd, hl]
      exact ha.queue
  · rw [hsnd, hl]
    rcases List.mem_append.mp hm with hm | hm
    · exact h.wire hm
    · exact (hes _ hm).2.2 seg unread rfl

/-- A move that sends nothing and leaves the state alone. -/
theorem stay (h : Ledger iss heard c log) (hes : es.all Effect.wakes) (hsnd : c'.snd = c.snd) (hst : c'.state = c.state) :
    Ledger iss heard c' (log ++ es) := by
  refine h.keep (kept_wakes hes) hsnd ?_ ?_ ?_ <;> rw [hst]
  · exact h.alive
  · exact id
  · exact id

/-- A move that sends nothing and ends the connection. -/
theorem finish (h : Ledger iss heard c log) (hes : es.all Effect.wakes) (hsnd : c'.snd = c.snd) {st : TcpState} (hst : c'.state = st)
    (ho : st = .closing ∨ st = .timeWait) : Ledger iss heard c' (log ++ es) := by
  subst hst
  refine h.keep (kept_wakes hes) hsnd (fun hc => ?_) (fun hs => ?_) fun _ => .inr ho
  · rw [hc] at ho
    rcases ho with ho | ho <;> cases ho
  · rw [hs] at ho
    rcases ho with ho | ho <;> cases ho

/-- A move that sends nothing, in a connection that has been open. -/
theorem turn (h : Ledger iss heard c log) (hes : es.all Effect.wakes) (hsnd : c'.snd = c.snd) {st st' : TcpState} (hst : c.state = st)
    (hst' : c'.state = st') (h' : st' ≠ .close ∧ st' ≠ .synSent) (ho : ¬(st = .synSent ∨ st = .closing ∨ st = .timeWait)) :
    Ledger iss heard c' (log ++ es) := by
  subst hst hst'
  exact h.keep (kept_wakes hes) hsnd h'.1 (fun hs => absurd hs h'.2) fun hs => absurd hs ho

theorem answered (h : Ledger iss heard c log) (hu : c.snd.una ≠ iss) : Answered iss heard c log :=
  h.place.resolve_left fun h => hu h.una

/-- Data before any FIN, or a FIN, is numbered, queued and sent. -/
theorem enqueue (h : Ledger iss heard c log) (hu : c.snd.una ≠ iss) {skb : Skb} {fl cwnd : U32} {e : Effect}
    (hsyn : skb.syn = false) (hd : skb.fin = false → ∀ x ∈ queuedOf log, x.fin = false)
    (hf : skb.fin → skb.payload.bytes = [] ∧ skb.psh = false) (he : c.rcv.Sends skb c.snd.nxt e)
    (hlt : iss.toNat + seqsOf (log ++ [.queued (c.snd.number skb) fl cwnd, e]) < 2 ^ 32) (hsnd : c'.snd = c.snd.enqueue skb)
    (hst : c'.state ≠ .close) (hsy : c'.state ≠ .synSent) :
    Ledger iss heard c' (log ++ [.queued (c.snd.number skb) fl cwnd, e]) := by
  have ha := h.answered hu
  have hused := h.used
  have hrec := h.recorded
  have hl : queuedOf (log ++ [.queued (c.snd.number skb) fl cwnd, e]) = queuedOf log ++ [(c.snd.number skb).plain] := by
    rw [queuedOf_append, queuedOf_pair he.queued?, show (c.snd.number skb).syn = false from hsyn]
    rfl
  rw [seqsOf_append, seqsOf_queued he.seqs] at hlt
  have hlt : iss.toNat + (seqsOf log + (skb.payload.bytes.length + skb.fin.toNat + skb.syn.toNat)) < 2 ^ 32 := hlt
  rw [hsyn, Bool.toNat_false, Nat.add_zero] at hlt
  have hend : (c.snd.nxt + skb.dlen).toNat = c.snd.nxt.toNat + skb.payload.bytes.length := by
    have hdl := skb.payload.len_toNat
    rw [BitVec.toNat_add, Skb.dlen, hdl]
    omega
  have hn : (c.snd.enqueue skb).nxt.toNat = c.snd.nxt.toNat + skb.span := by
    cases hfin : skb.fin with
    | false => simp only [SndSide.enqueue, SndSide.advance, Skb.span, hfin, Bool.false_eq_true, if_false, hend, Bool.toNat_false, Nat.add_zero]
    | true =>
      rw [hfin, Bool.toNat_true] at hlt
      simp only [SndSide.enqueue, SndSide.advance, Skb.span, hfin, if_true, Bool.toNat_true]
      rw [BitVec.toNat_add, hend, show (1 : U32).toNat = 1 from rfl]
      omega
  have hmono : c.snd.nxt.toNat ≤ (c.snd.enqueue skb).nxt.toNat := hn ▸ Nat.le_add_right _ _
  refine ⟨hst, ?_, ?_, .inr ⟨by rw [hsnd]; exact ha.una, hsy, ?_⟩, fun {seg unread} hm => ?_⟩
  · rw [hsnd, hn, seqsOf_append, seqsOf_queued he.seqs, hused]
    show _ = iss.toNat + (seqsOf log + (skb.payload.bytes.length + skb.fin.toNat + skb.syn.toNat))
    rw [hsyn, Skb.span, Bool.toNat_false]
    omega
  · rw [hsnd, hl]
    exact hrec.concat rfl hend hn hd hf
  · obtain ⟨gone, hg, hle, hat, hheard⟩ := ha.queue
    refine ⟨gone, ?_, by rw [hsnd]; exact hle, ?_, hheard⟩
    · rw [hl, hsnd, hg, List.append_assoc]
      rfl
    · rw [hsnd, hl, dataEnd_concat]
      show c.snd.una.toNat = _ ∨ (∀ k ∈ c.snd.queue ++ [(c.snd.number skb).plain], k.fin) ∧
        dataEnd iss (queuedOf log) + skb.payload.bytes.length ≤ c.snd.una.toNat
      rcases hat with hat | ⟨hall, hge⟩
      · exact .inl hat
      · cases hfin : skb.fin with
        | true =>
          refine .inr ⟨fun k hk => ?_, by rw [(hf hfin).1]; exact hge⟩
          rcases List.mem_append.mp hk with hk | hk
          · exact hall k hk
          · rw [List.mem_singleton.mp hk]
            exact hfin
        | false =>
          -- without a FIN nothing is left, and all data is acknowledged
          have hnone : ∀ x ∈ gone, x.fin = false := fun x hx => hd hfin x (by rw [hg]; exact List.mem_append_left _ hx)
          have hq : c.snd.queue = [] := List.eq_nil_iff_forall_not_mem.mpr fun k hk => by
            have := hd hfin k (by rw [hg]; exact List.mem_append_right _ hk)
            rw [hall k hk] at this
            cases this
          rw [sum_span_data hnone] at hle ⊢
          rw [hg, hq, List.append_nil, dataEnd] at hge
          exact .inl (Nat.le_antisymm hle hge)
  · rw [hsnd, hl]
    rcases List.mem_append.mp hm with hm | hm
    · obtain ⟨hof, hs⟩ := h.wire hm
      exact ⟨hof.concat hmono hd fun hx => (hf hx).1, hs⟩
    · simp only [List.mem_cons, List.not_mem_nil, or_false, reduceCtorEq, false_or] at hm
      subst hm
      obtain ⟨hseq, hp, hs, hfin, -, -, hpsh, -⟩ := he
      refine ⟨?_, fun hx => by rw [hs, hsyn] at hx; cases hx⟩
      have hk : (c.snd.number skb).plain ∈ queuedOf log ++ [(c.snd.number skb).plain] := by simp
      cases hx : skb.fin with
      | false => exact .data hk hx hseq hp (hfin.trans hx)
      | true =>
        obtain ⟨hb, hpk⟩ := hf hx
        refine .fin hk hx (by rw [hp]; exact hb) (hpsh.trans hpk) ?_ ?_
        · rw [dataEnd_concat, hseq]
          have hb' : (c.snd.number skb).plain.payload.bytes = [] := hb
          rw [hb']
          exact hrec.dataEnd_le
        · rw [hseq, hn, Skb.span, hx, Bool.toNat_true]
          omega

/-- An acknowledgement of the SYN leaves nothing queued. -/
theorem cleaned (h : Unanswered iss c log) (hi : iss ≠ 0) {a : U32} (ha : iss.toNat < a.toNat) :
    cleanQueue a c.snd.queue = [] := by
  rw [cleanQueue, List.dropWhile_eq_nil_iff]
  intro k hk
  obtain ⟨hs, he, -⟩ := h.queue k hk
  rw [covered_iff, hs, he]
  exact ⟨by bv_omega, BitVec.le_def.mpr (Nat.le_of_lt ha)⟩

/-- Without a queued skb `snd_nxt` is one past the SYN. -/
theorem nxt_unanswered (h : Ledger iss heard c log) (hu : Unanswered iss c log) : c.snd.nxt.toNat = iss.toNat + 1 := by
  have hr := h.recorded
  rw [hu.none] at hr
  exact hr.contiguous.symm

/-- An acknowledgement that is new and cuts no segment. -/
theorem ack (h : Ledger iss heard c log) (hi : iss ≠ 0) {th : Tcphdr} (hn : c.snd.ackNew th) (hle : th.ackSeq.toNat ≤ heard.toNat)
    (hcut : Cut (queuedOf log) th.ackSeq) (hsy : c.state ≠ .synSent) (hes : Kept iss c log es) :
    Ledger iss heard { c with snd := c.snd.acked th.ackSeq } (log ++ es) := by
  have hk : Ledger iss heard c (log ++ es) := h.keep hes rfl h.alive id id
  generalize hlog : log ++ es = log' at hk
  have hq : queuedOf log' = queuedOf log := by
    rw [← hlog, queuedOf_append, queuedOf_eq_nil fun e he => (hes e he).1, List.append_nil]
  rw [← hq] at hcut
  obtain ⟨hlt, hnx⟩ := ackNew_iff.mp hn
  rw [BitVec.lt_def] at hlt
  rw [BitVec.le_def] at hnx
  refine ⟨hk.alive, hk.used, hk.recorded, .inr ?_, hk.wire⟩
  rcases hk.place with hu | ha
  · have hone := hk.nxt_unanswered hu
    have huna := hu.una
    have hlt' : iss.toNat < th.ackSeq.toNat := by rw [← huna]; exact hlt
    have hclean := cleaned hu hi hlt'
    refine ⟨hlt', hsy, [], ?_, ?_, .inl ?_, by simp⟩
    · rw [hu.none]
      exact hclean.symm
    · show th.ackSeq.toNat ≤ iss.toNat + 1 + 0
      omega
    · show th.ackSeq.toNat = iss.toNat + 1 + 0
      omega
  · obtain ⟨gone, hg, -, hat, hheard⟩ := ha.queue
    have hrec := hk.recorded
    rw [hg] at hrec hat hcut
    obtain ⟨dropped, hd, hcov, hle', hat'⟩ := hrec.acked hat hlt hnx hcut
    refine ⟨Nat.lt_trans ha.una hlt, hsy, gone ++ dropped, ?_, hle', ?_, fun k hx => ?_⟩
    · rw [hg, List.append_assoc]
      exact congrArg (gone ++ ·) hd
    · rw [hg]
      exact hat'
    · rcases List.mem_append.mp hx with hx | hx
      · exact hheard k hx
      · exact Nat.le_trans (hcov k hx) hle

/-- The SYN is answered. -/
theorem connect (h : Ledger iss heard c log) (hi : iss ≠ 0) {th : Tcphdr} (hs : c.state = .synSent) (hack : th.ack)
    (hok : c.snd.synAckOk th) (hes : Kept iss c log es) {c' : Core} (hst : c'.state = .established)
    (hsnd : c'.snd = (c.snd.synAcked th).opened th) : Ledger iss heard c' (log ++ es) := by
  have hk : Ledger iss heard c (log ++ es) := h.keep hes rfl h.alive id id
  generalize log ++ es = log' at hk
  have hu : Unanswered iss c log' := hk.place.resolve_right fun ha => ha.state hs
  have hone := hk.nxt_unanswered hu
  have hlt : iss.toNat < th.ackSeq.toNat := by
    rw [← hu.number]
    exact BitVec.lt_def.mp hok.1
  have hnx : c'.snd.nxt = c.snd.nxt := by
    rw [hsnd]
    exact synAcked_nxt c.snd th
  have huna : c'.snd.una = c.snd.nxt := by
    rw [hsnd]
    exact synAcked_nxt c.snd th
  have hq : c'.snd.queue = [] := by
    rw [hsnd]
    show (c.snd.synAcked th).queue = []
    rw [SndSide.synAcked, if_pos hack]
    exact cleaned hu hi hlt
  refine ⟨by rw [hst]; decide, by rw [hnx]; exact hk.used, by rw [hnx]; exact hk.recorded, .inr ⟨?_, by rw [hst]; decide, [], ?_, ?_, .inl ?_, by simp⟩,
    fun hm => by rw [hnx]; exact hk.wire hm⟩
  · rw [huna, hone]
    omega
  · rw [hu.none, hq]
    rfl
  · rw [huna, hone]
    exact Nat.le_refl _
  · rw [huna, hone]
    rfl

/-- A reset with nothing queued. -/
theorem reset (h : Ledger iss heard c log) (hq : c.snd.queue = []) (hes : Kept iss c log es) :
    Ledger iss heard c.reset.done (log ++ es) := by
  have hk : Ledger iss heard c (log ++ es) := h.keep hes rfl h.alive id id
  generalize log ++ es = log' at hk
  refine ⟨show TcpState.closing ≠ .close by decide, hk.used, hk.recorded, .inr ⟨?_, show TcpState.closing ≠ .synSent by decide,
    queuedOf log', ?_, ?_, .inl hk.recorded.nxt_eq, ?_⟩, hk.wire⟩
  · have := hk.recorded.contiguous.le
    exact this
  · show queuedOf log' = queuedOf log' ++ c.snd.queue
    rw [hq, List.append_nil]
  · exact hk.recorded.nxt_eq.le
  · rcases hk.place with hu | ha
    · rw [hu.none]
      simp
    · obtain ⟨gone, hg, -, -, hheard⟩ := ha.queue
      rw [hq, List.append_nil] at hg
      rw [hg]
      exact hheard

/-- **Step lemma** of the ledger. -/
theorem move {a : Act} (h : Ledger iss heard c log) (hi : iss ≠ 0) (hm : Move a c es c') (hlt : iss.toNat + seqsOf (log ++ es) < 2 ^ 32)
    (ho : a.LedgerOk iss heard (queuedOf log) c) : Ledger iss heard c' (log ++ es) := by
  cases hm with
  | quiet hp => exact h.keep (kept_plain hp) rfl h.alive id id
  | reset hs => exact absurd hs h.alive
  | rst | timeWait => exact h.finish rfl rfl rfl (.inr rfl)
  | establish hs | fault hs => exact h.turn rfl rfl hs rfl ⟨nofun, nofun⟩ (by decide)
  | ack _ hst _ hn hp =>
    obtain ⟨-, hle, hcut⟩ := ho
    refine h.ack hi hn hle hcut (fun hs => ?_) (kept_plain hp)
    rw [hs] at hst
    cases hst
  | resend hp =>
    refine h.keep (h.kept_sent fun e he => ?_) rfl h.alive id id
    obtain ⟨k, hk, hs⟩ := hp e he
    exact ⟨k, hk, k.seq, .inl rfl, c.rcv, hs⟩
  | sendNext _ hn =>
    obtain ⟨rfl, rfl⟩ := hn.idle fun k hk => h.seq_pos hi hk
    exact h.stay rfl rfl rfl
  | finWait2 _ hs | finSent _ _ hs | finResent _ _ hs | closeStart hs => exact h.turn rfl rfl hs rfl ⟨nofun, nofun⟩ (by decide)
  | lastAck | refused | giveUp | linger | closeDone => exact h.finish rfl rfl rfl (.inl rfl)
  | finAgain | inOrder | outOfOrder | spin | dequeue | eof | closeRefused => exact h.stay rfl rfl rfl
  | @fin _ _ _ _ _ _ _ _ h1 h2 h3 h4 hp =>
    refine h.keep (fun e he => ?_) rfl ?_ ?_ ?_
    · rcases List.mem_cons.mp he with rfl | he
      · exact ⟨rfl, rfl, nofun⟩
      · exact kept_plain hp e he
    all_goals
      simp only [Core.finState]
      cases hs : c.state <;> simp_all
      try (split <;> simp)
  | connect hs hsyn hok _ hp =>
    have hack := ho.1 hsyn
    exact h.connect hi hs hack (hok hack) (kept_plain hp) rfl rfl
  | simultaneous _ hsyn hno => rw [ho.1 hsyn] at hno; cases hno
  | resendHead hc hk hs =>
    refine h.keep (h.kept_sent fun e he => ?_) rfl h.alive id id
    rw [List.mem_singleton.mp he]
    exact ⟨_, List.mem_of_head? hk, _, .inr ⟨hk, rfl⟩, c.rcv, hs⟩
  | userTimeout hp | abort hp => exact h.reset ho (kept_plain hp)
  | data hs _ he => exact h.enqueue ho.1 rfl (fun _ => ho.2) (fun hf => by cases hf) he hlt rfl h.alive hs
  | queueFin lastAck hfin hs _ he =>
    have hu : c.snd.una ≠ iss := by
      intro hu
      have hun := h.place.resolve_right fun ha => Nat.lt_irrefl _ (hu ▸ ha.una)
      cases a with
      | close =>
        have hst := hun.state
        rw [show c.state = if lastAck then .closeWait else .finWait1 from hfin] at hst
        cases lastAck <;> simp at hst
      | finish => exact ho hu
      | _ => exact hfin
    refine h.enqueue hu rfl (fun hf => by cases hf) (fun _ => ⟨rfl, rfl⟩) he hlt rfl ?_ ?_
    · cases lastAck
      · exact h.alive
      · simp
    · cases lastAck
      · exact hs
      · simp

end Ledger

/-- What an act may bring stays so along its moves. -/
theorem Act.LedgerOk.move {a : Act} (ho : a.LedgerOk iss heard (queuedOf log) c) (hm : Move a c es c') :
    a.LedgerOk iss heard (queuedOf (log ++ es)) c' := by
  have hq := hm.queuedOf
  rw [queuedOf_append]
  cases a with
  | arrive c₀ th skb =>
    rcases hq with hq | ⟨_, _, ha, -⟩ | ⟨_, hfin, -⟩
    · rw [hq, List.append_nil]
      exact ho
    · cases ha
    · exact hfin.elim
  | fire hd live =>
    cases hd with
    | userTimeout =>
      cases live with
      | false => trivial
      | true =>
        cases hm with
        | quiet | userTimeout => exact ho
        | resendHead hc | giveUp hc => rcases hc with ⟨hc, -⟩ | hc <;> cases hc
        | queueFin _ hfin => exact hfin.elim
    | _ => trivial
  | abort =>
    cases hm with
    | quiet | abort => exact ho
    | queueFin _ hfin => exact hfin.elim
  | send =>
    refine ⟨?_, fun k hk => ?_⟩
    · cases hm with
      | quiet | data | spin => exact ho.1
      | queueFin _ hfin => exact hfin.elim
    · rcases List.mem_append.mp hk with hk | hk
      · exact ho.2 k hk
      · rcases hq with hq | ⟨_, _, -, hq⟩ | ⟨_, hfin, -⟩
        · rw [hq] at hk
          cases hk
        · rw [hq, List.mem_singleton] at hk
          rw [hk]
          rfl
        · exact hfin.elim
  | finish =>
    cases hm with
    | quiet | queueFin => exact ho
  | _ => trivial

namespace Ledger

/-- An answered SYN stays so. -/
theorem una_move {a : Act} (h : Ledger iss heard c log) (hm : Move a c es c') (hu : c.snd.una ≠ iss) : c'.snd.una ≠ iss := by
  have ha := h.answered hu
  have hlt := ha.una
  have hle := h.recorded.contiguous.le
  have end_ne : c.snd.nxt ≠ iss := fun he => by
    rw [he] at hle
    omega
  cases hm with
  | @ack _ _ th _ _ _ _ _ hn =>
    obtain ⟨hn, -⟩ := ackNew_iff.mp hn
    intro he
    have hn := BitVec.lt_def.mp hn
    rw [show th.ackSeq = iss from he] at hn
    omega
  | sendNext _ hn => rw [hn.una]; exact hu
  | reset | userTimeout | abort => exact end_ne
  | connect hs | simultaneous hs => exact absurd hs ha.state
  | _ => exact hu

/-- **Run lemma** of the ledger: a chain of moves of an act keeps it. -/
theorem moves {a : Act} (h : Ledger iss heard c log) (hi : iss ≠ 0) (hm : Moves a c es c')
    (hlt : iss.toNat + seqsOf (log ++ es) < 2 ^ 32) (ho : a.LedgerOk iss heard (queuedOf log) c) :
    Ledger iss heard c' (log ++ es) ∧ (c.snd.una ≠ iss → c'.snd.una ≠ iss) := by
  have hall := hm.keeps (I := fun k l => iss.toNat + seqsOf l < 2 ^ 32 → Ledger iss heard k l ∧ a.LedgerOk iss heard (queuedOf l) k ∧
      (c.snd.una ≠ iss → k.snd.una ≠ iss))
    (fun {k l new k'} hm hk hlt => ?_) log (fun _ => ⟨h, ho, id⟩) hlt
  · exact ⟨hall.1, hall.2.2⟩
  · have hle : iss.toNat + seqsOf l < 2 ^ 32 := by
      rw [seqsOf_append] at hlt
      omega
    obtain ⟨hl, hok, hu⟩ := hk hle
    exact ⟨hl.move hi hm hlt hok, hok.move hm, fun h => hl.una_move hm (hu h)⟩

/-- More may have been heard. -/
theorem mono (h : Ledger iss heard c log) {heard' : U32} (hle : heard.toNat ≤ heard'.toNat) : Ledger iss heard' c log := by
  refine ⟨h.alive, h.used, h.recorded, h.place.imp_right fun ha => ⟨ha.una, ha.state, ?_⟩, h.wire⟩
  obtain ⟨gone, hl, hu, hat, hg⟩ := ha.queue
  exact ⟨gone, hl, hu, hat, fun k hk => Nat.le_trans (hg k hk) hle⟩

end Ledger

end

end LevelIp
