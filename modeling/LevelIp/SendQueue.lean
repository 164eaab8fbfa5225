/-
The send queue over whole runs, for as long as no sequence number wraps:
`write_queue` is laid out between the ISS and `snd_nxt`, FlightSize is what it
holds, and 0 is never the number of a queued skb.
-/
import LevelIp.Opening
import LevelIp.Lib.Layout

namespace LevelIp

open Layout

/-- The sequence numbers an effect takes: a queued skb takes its payload and
one each for SYN and FIN. -/
def Effect.seqs : Effect → Nat
  | .queued skb _ _ => skb.payload.bytes.length + skb.fin.toNat + skb.syn.toNat
  | .xmit _ _ | .peerFin | .wakeup _ | .acceptQueue _ => 0

/-- All numbers a log has taken. -/
def seqsOf (log : List Effect) : Nat := (log.map Effect.seqs).sum

/-- The number `tcp_listen` takes beside the one its SYN-ACK has taken. -/
def childSeq (ptsk : Option Nat) : Nat := if ptsk.isSome then 1 else 0

/-- How far `snd_nxt` has moved from the ISS. -/
def TcpSock.seqsUsed (s : TcpSock) : Nat := seqsOf s.fx + childSeq s.ptsk

@[simp] theorem seqsOf_append (l l' : List Effect) : seqsOf (l ++ l') = seqsOf l + seqsOf l' := by
  simp [seqsOf]

@[simp] theorem seqsOf_cons (e : Effect) (l : List Effect) : seqsOf (e :: l) = e.seqs + seqsOf l := by
  simp [seqsOf]

@[simp] theorem seqsOf_nil : seqsOf [] = 0 := rfl

theorem seqsOf_eq_zero {l : List Effect} (h : ∀ e ∈ l, e.seqs = 0) : seqsOf l = 0 := by
  induction l with
  | nil => rfl
  | cons e l ih =>
    rw [seqsOf_cons, h e List.mem_cons_self, ih fun e' he' => h e' (List.mem_cons_of_mem _ he')]

theorem Core.Plain.seqs {c : Core} {e : Effect} (h : c.Plain e) : e.seqs = 0 := by
  cases e with
  | queued => exact h.elim
  | _ => rfl

theorem RcvSide.Sends.seqs {r : RcvSide} {k : Skb} {n : U32} {e : Effect} (h : r.Sends k n e) : e.seqs = 0 := by
  cases e with
  | xmit => rfl
  | _ => exact h.elim

theorem seqsOf_plain {c : Core} {l : List Effect} (h : ∀ e ∈ l, c.Plain e) : seqsOf l = 0 :=
  seqsOf_eq_zero fun e he => (h e he).seqs

/-- The skbs of a queue, from first to one past the last number. -/
abbrev QueueLaid (lo hi : Nat) (q : List Skb) : Prop := Laid (fun k => k.seq.toNat) (fun k => k.endSeq.toNat) lo hi q

/-- The send side of a connection opened with `iss`, `used` numbers on. -/
structure SndOrdered (iss : U32) (used : Nat) (st : TcpState) (d : SndSide) : Prop where
  start : d.iss = iss
  nxt : d.nxt.toNat = iss.toNat + used
  laid : QueueLaid iss.toNat d.nxt.toNat d.queue
  spans : ∀ k ∈ d.queue, k.endSeq.toNat = k.seq.toNat + k.dlen.toNat
  una_ge : iss ≤ d.una
  una_le : d.una ≤ d.nxt
  flight : d.inflight.toNat = (d.queue.map fun k => k.dlen.toNat).sum
  opening : st = .synSent → d.una = iss ∧ ∀ k ∈ d.queue, k.endSeq = iss
  alive : st ≠ .close

namespace SndOrdered

variable {iss : U32} {used : Nat} {st : TcpState} {d : SndSide}

theorem seq_pos (h : SndOrdered iss used st d) (hi : iss ≠ 0) {k : Skb} (hk : k ∈ d.queue) : k.seq ≠ 0 := by
  have hle := (h.laid.mem hk).1
  have : 0 < iss.toNat := Nat.pos_of_ne_zero fun h0 => hi (BitVec.eq_of_toNat_eq h0)
  intro h0
  rw [h0] at hle
  simp only [BitVec.toNat_zero, BitVec.ofNat_eq_ofNat] at hle
  omega

/-- The state may change while the send side stays. -/
theorem to_state (h : SndOrdered iss used st d) {st' : TcpState} (h1 : st' ≠ .synSent) (h2 : st' ≠ .close) :
    SndOrdered iss used st' d :=
  ⟨h.start, h.nxt, h.laid, h.spans, h.una_ge, h.una_le, h.flight, fun hs => absurd hs h1, h2⟩

/-- FlightSize never exceeds what lies between the ISS and `snd_nxt`. -/
theorem spans_sum (h : SndOrdered iss used st d) :
    (d.queue.map fun k => k.dlen.toNat).sum + iss.toNat ≤ d.nxt.toNat := by
  have hs := h.laid.sum_le
  have he : (d.queue.map fun k => k.endSeq.toNat - k.seq.toNat) = d.queue.map fun k => k.dlen.toNat :=
    List.map_congr_left fun k hk => by rw [h.spans k hk]; omega
  rw [he] at hs
  omega

/-- Queueing an skb with `n` numbers beyond its payload. -/
theorem enqueue (h : SndOrdered iss used st d) (skb : Skb) {nxt : U32} (n : Nat) (hu : d.una ≤ d.nxt)
    (hst : st ≠ .synSent) (hlt : iss.toNat + used + skb.dlen.toNat + n < 2 ^ 32)
    (hn : nxt.toNat = d.nxt.toNat + skb.dlen.toNat + n) :
    SndOrdered iss (used + skb.dlen.toNat + n) st { d.enqueue skb with nxt := nxt } := by
  have hnxt := h.nxt
  have hend : (d.number skb).endSeq.toNat = d.nxt.toNat + skb.dlen.toNat := by
    simp only [SndSide.number, BitVec.toNat_add]
    omega
  have hsum := h.spans_sum
  refine ⟨h.start, by rw [hn, hnxt]; omega, ?_, ?_, h.una_ge, ?_, ?_, fun hs => absurd hs hst, h.alive⟩
  · refine Laid.mono_right (h.laid.concat (a := (d.number skb).plain) (Nat.le_refl _) ?_) ?_
    · exact Nat.le_trans (Nat.le_add_right _ _) hend.ge
    · exact Nat.le_trans hend.le (by rw [hn]; omega)
  · intro k hk
    rcases List.mem_append.mp hk with hk | hk
    · exact h.spans k hk
    · rw [List.mem_singleton.mp hk]
      exact hend
  · rw [BitVec.le_def] at hu ⊢
    exact Nat.le_trans hu (by rw [hn]; omega)
  · simp only [SndSide.enqueue, SndSide.advance, List.map_append, List.sum_append, List.map_cons, List.map_nil,
      List.sum_cons, List.sum_nil, BitVec.toNat_add, h.flight]
    have hp : ((d.number skb).plain).dlen = skb.dlen := rfl
    rw [hp]
    omega

end SndOrdered

theorem cleanFlight_sum {a : U32} {q : List Skb} {fl : U32} (h : fl.toNat = (q.map fun k => k.dlen.toNat).sum) :
    (cleanFlight a q fl).toNat = ((cleanQueue a q).map fun k => k.dlen.toNat).sum := by
  induction q generalizing fl with
  | nil => exact h
  | cons k q ih =>
    rw [List.map_cons, List.sum_cons] at h
    rw [cleanFlight, cleanQueue, List.dropWhile_cons]
    split
    · -- the head is taken off, and FlightSize has room for it
      have hge : fl ≥ k.dlen := by
        rw [ge_iff_le, BitVec.le_def]
        omega
      refine ih ?_
      rw [if_pos hge, BitVec.toNat_sub_of_le hge]
      omega
    · rw [h, List.map_cons, List.sum_cons]

/-- Nothing an ACK covers is left, as long as no number is 0. -/
theorem cleanQueue_beyond {a : U32} {q : List Skb} {lo hi : Nat} (hl : QueueLaid lo hi q) (h0 : ∀ k ∈ q, k.seq ≠ 0)
    {k : Skb} (hk : k ∈ cleanQueue a q) : a < k.endSeq := by
  have hl' : QueueLaid lo hi (cleanQueue a q) := hl.dropWhile _
  unfold cleanQueue at hk hl'
  cases hq : q.dropWhile (Skb.covered a) with
  | nil => rw [hq] at hk; cases hk
  | cons k' rest =>
    rw [hq] at hk hl'
    have hne : q.dropWhile (Skb.covered a) ≠ [] := by rw [hq]; exact List.cons_ne_nil _ _
    have hhd := List.head_dropWhile_not (Skb.covered a) hne
    simp only [hq, List.head_cons] at hhd
    have hmem : k' ∈ q := List.dropWhile_sublist (Skb.covered a) |>.subset (by rw [hq]; exact List.mem_cons_self)
    have hpos := h0 k' hmem
    have hk' : a.toNat < k'.endSeq.toNat := by
      simp only [Skb.covered, Bool.and_eq_false_iff, decide_eq_false_iff_not] at hhd
      rcases hhd with hhd | hhd
      · exact absurd (by bv_omega) hhd
      · bv_omega
    exact BitVec.lt_def.mpr (hl'.beyond hk' hk)

/-! ## Moves -/

theorem ackNew_iff {d : SndSide} {th : Tcphdr} : d.ackNew th = true ↔ d.una < th.ackSeq ∧ th.ackSeq ≤ d.nxt := by
  simp [SndSide.ackNew]

namespace SndOrdered

variable {iss : U32} {used : Nat} {st : TcpState} {d : SndSide}

/-- A send side whose every queued number is above 0 has nothing for `tcp_send_next`. -/
theorem sendNext (h : SndOrdered iss used st d) (hi : iss ≠ 0) {r : RcvSide} {es : List Effect} {d' : SndSide}
    (hn : SendNext r d es d') : es = [] ∧ d' = d :=
  hn.idle fun _ hk => h.seq_pos hi hk

theorem acked (h : SndOrdered iss used st d) {th : Tcphdr} (hst : st ≠ .synSent) (hn : d.ackNew th) :
    SndOrdered iss used st (d.acked th.ackSeq) := by
  rw [ackNew_iff] at hn
  refine ⟨h.start, h.nxt, h.laid.dropWhile _, ?_, ?_, hn.2, cleanFlight_sum h.flight, fun hs => absurd hs hst, h.alive⟩
  · exact fun k hk => h.spans k ((List.dropWhile_sublist _).subset hk)
  · exact BitVec.le_trans h.una_ge (BitVec.le_of_lt hn.1)

theorem reset (h : SndOrdered iss used st d) {st' : TcpState} (h1 : st' ≠ .synSent) (h2 : st' ≠ .close) :
    SndOrdered iss used st' { d with una := d.nxt } :=
  ⟨h.start, h.nxt, h.laid, h.spans, BitVec.le_trans h.una_ge h.una_le, BitVec.le_refl _, h.flight,
    fun hs => absurd hs h1, h2⟩

/-- In SYN_SENT an acceptable ACK takes the SYN off the queue. -/
theorem synAcked_nil (h : SndOrdered iss used .synSent d) (hi : iss ≠ 0) {th : Tcphdr}
    (hok : th.ack → d.synAckOk th) (hgt : (d.synAcked th).una > d.iss) : (d.synAcked th).queue = [] := by
  obtain ⟨hu, hq⟩ := h.opening rfl
  unfold SndSide.synAcked at hgt ⊢
  split
  next ha =>
    refine List.eq_nil_iff_forall_not_mem.mpr fun k hk => ?_
    have hb := cleanQueue_beyond h.laid (fun k hk => h.seq_pos hi hk) hk
    have he := hq k ((List.dropWhile_sublist _).subset hk)
    have hlt := (hok ha).1
    rw [h.start] at hlt
    rw [he] at hb
    exact BitVec.lt_irrefl _ (BitVec.lt_trans hlt hb)
  next ha =>
    rw [if_neg ha, hu, h.start] at hgt
    exact absurd hgt (BitVec.lt_irrefl _)

theorem opened (h : SndOrdered iss used .synSent d) (hi : iss ≠ 0) {th : Tcphdr}
    (hok : th.ack → d.synAckOk th) (hgt : (d.synAcked th).una > d.iss) :
    SndOrdered iss used .established ((d.synAcked th).opened th) := by
  have hq := h.synAcked_nil hi hok hgt
  have hle : iss.toNat ≤ d.nxt.toNat := by have := h.nxt; omega
  refine ⟨?_, ?_, ?_, ?_, ?_, BitVec.le_refl _, ?_, nofun, nofun⟩
  · rw [← h.start]
    exact synAcked_iss d th
  · rw [← h.nxt]
    exact congrArg _ (synAcked_nxt d th)
  · simp only [SndSide.opened, hq, synAcked_nxt]
    exact hle
  · simp [SndSide.opened, hq]
  · simp only [SndSide.opened, synAcked_nxt]
    exact BitVec.le_def.mpr hle
  · have hf : (d.synAcked th).inflight.toNat = ((d.synAcked th).queue.map fun k => k.dlen.toNat).sum := by
      unfold SndSide.synAcked
      split
      · exact cleanFlight_sum h.flight
      · exact h.flight
    exact hf

theorem synack (h : SndOrdered iss used .synSent d) (hlt : iss.toNat + used + 1 < 2 ^ 32) :
    SndOrdered iss (used + 1) .synReceived { d with una := d.iss }.synack := by
  have hle : iss ≤ d.nxt := by
    have := h.nxt
    exact BitVec.le_def.mpr (by omega)
  have h' : SndOrdered iss used .synReceived { d with una := d.iss } :=
    ⟨h.start, h.nxt, h.laid, h.spans, by rw [h.start]; exact BitVec.le_refl _, by rw [h.start]; exact hle, h.flight,
      nofun, nofun⟩
  have hnxt := h.nxt
  refine h'.enqueue synAckSkb 1 ?_ nofun hlt ?_
  · rw [h.start]
    exact hle
  · have h0 : (d.nxt + synAckSkb.dlen + 1).toNat = d.nxt.toNat + 0 + 1 := by
      rw [show synAckSkb.dlen = 0 from rfl]
      bv_omega
    exact h0

end SndOrdered

/-- What queueing an skb and sending it takes. -/
theorem seqsOf_queued {skb : Skb} {fl cwnd : U32} {e : Effect} (he : e.seqs = 0) :
    seqsOf [.queued skb fl cwnd, e] = skb.payload.bytes.length + skb.fin.toNat + skb.syn.toNat := by
  rw [seqsOf_cons, seqsOf_cons, he]
  rfl

theorem SndOrdered.data {iss : U32} {used : Nat} {st : TcpState} {d : SndSide} (h : SndOrdered iss used st d)
    {chunk : Payload} (last : Bool) (hs : st ≠ .synSent) (hlt : iss.toNat + used + chunk.bytes.length < 2 ^ 32) :
    SndOrdered iss (used + chunk.bytes.length) st (d.enqueue (dataSkb chunk last)) := by
  have hnxt := h.nxt
  have hl : (dataSkb chunk last).dlen.toNat = chunk.bytes.length := chunk.len_toNat
  have hn : (d.nxt + (dataSkb chunk last).dlen).toNat = d.nxt.toNat + (dataSkb chunk last).dlen.toNat + 0 := by
    rw [BitVec.toNat_add, hl]
    omega
  have h' := h.enqueue (dataSkb chunk last) 0 h.una_le hs (by rw [hl]; exact hlt) hn
  rw [hl] at h'
  exact h'

theorem SndOrdered.fin {iss : U32} {used : Nat} {st : TcpState} {d : SndSide} (h : SndOrdered iss used st d)
    (hs : st ≠ .synSent) (hlt : iss.toNat + used + 1 < 2 ^ 32) :
    SndOrdered iss (used + 1) st (d.enqueue finSkb) := by
  have hnxt := h.nxt
  have hn : (d.nxt + finSkb.dlen + 1).toNat = d.nxt.toNat + finSkb.dlen.toNat + 1 := by
    rw [show finSkb.dlen = 0 from rfl]
    bv_omega
  exact h.enqueue finSkb 1 h.una_le hs hlt hn

/-- Every move keeps the send side in order. -/
theorem SndOrdered.move {iss : U32} {used : Nat} {a : Act} {c c' : Core} {es : List Effect} (hi : iss ≠ 0)
    (hm : Move a c es c') (hlt : iss.toNat + used + seqsOf es < 2 ^ 32) (h : SndOrdered iss used c.state c.snd) :
    SndOrdered iss (used + seqsOf es) c'.state c'.snd := by
  cases hm with
  | quiet hp => rw [seqsOf_plain hp]; exact h
  | reset hs => exact absurd hs h.alive
  | ack _ hst _ hn hp =>
    rw [seqsOf_plain hp]
    refine h.acked (fun hs => ?_) hn
    rw [hs] at hst
    cases hst
  | resend hp =>
    rw [seqsOf_eq_zero fun e he => by obtain ⟨k, -, hk⟩ := hp e he; exact hk.seqs]
    exact h
  | sendNext _ hn =>
    obtain ⟨rfl, rfl⟩ := h.sendNext hi hn
    exact h
  | @fin c₀ _ th skb es _ _ _ h1 h2 h3 h4 hp =>
    have h0 : seqsOf (.peerFin :: es) = 0 := by
      rw [seqsOf_cons, seqsOf_plain hp]
      rfl
    rw [h0]
    refine h.to_state ?_ ?_ <;> simp only [Core.finState] <;> cases hs : c.state <;> simp_all <;> split <;> simp
  | connect hs _ hok hgt hp =>
    rw [seqsOf_plain hp]
    rw [hs] at h
    exact h.opened hi hok hgt
  | simultaneous hs _ _ _ he =>
    rw [seqsOf_queued he.seqs] at hlt ⊢
    rw [hs] at h
    exact h.synack hlt
  | resendHead _ _ he =>
    rw [seqsOf_cons, he.seqs]
    exact h
  | userTimeout hp | abort hp =>
    rw [seqsOf_plain hp]
    exact h.reset (by rintro ⟨⟩) (by rintro ⟨⟩)
  | data hs _ he =>
    rw [seqsOf_queued he.seqs] at hlt ⊢
    exact h.data _ hs hlt
  | queueFin lastAck _ hs _ he =>
    rw [seqsOf_queued he.seqs] at hlt ⊢
    have h' := h.fin hs hlt
    cases lastAck with
    | false => exact h'
    | true => exact h'.to_state (by simp) (by simp)
  | closeRefused | spin | dequeue | eof | finAgain | inOrder | outOfOrder => exact h
  | rst | establish | fault | finWait2 | timeWait | lastAck | refused | giveUp | finSent | finResent | linger | closeDone
  | closeStart => exact h.to_state (by rintro ⟨⟩) (by rintro ⟨⟩)

/-- `snd_una` only moves forward. -/
theorem SndOrdered.una_mono {iss : U32} {used : Nat} {a : Act} {c c' : Core} {es : List Effect} (hi : iss ≠ 0)
    (hm : Move a c es c') (h : SndOrdered iss used c.state c.snd) : c.snd.una ≤ c'.snd.una := by
  cases hm with
  | reset | userTimeout | abort => exact h.una_le
  | ack _ _ _ hn => exact BitVec.le_of_lt (ackNew_iff.mp hn).1
  | sendNext _ hn =>
    rw [(h.sendNext hi hn).2]
    exact BitVec.le_refl _
  | connect =>
    simp only [SndSide.opened, synAcked_nxt]
    exact h.una_le
  | simultaneous hs =>
    rw [(h.opening hs).1, ← h.start]
    exact BitVec.le_refl _
  | _ => exact BitVec.le_refl _

/-- Since the segment came, `snd_una` has not moved, or nothing it covers is queued. -/
def Uncovered (c₀ c : Core) : Prop := c.snd.una = c₀.snd.una ∨ ∀ k ∈ c.snd.queue, c.snd.una < k.endSeq

theorem SndOrdered.uncovered {iss : U32} {used : Nat} {c₀ c c' : Core} {th : Tcphdr} {skb : Skb} {es : List Effect}
    (hi : iss ≠ 0) (hm : Move (.arrive c₀ th skb) c es c') (h : SndOrdered iss used c.state c.snd)
    (hu : Uncovered c₀ c) : Uncovered c₀ c' := by
  cases hm with
  | reset hs => exact absurd hs h.alive
  | ack => exact .inr fun k hk => cleanQueue_beyond h.laid (fun k hk => h.seq_pos hi hk) hk
  | sendNext _ hn =>
    rw [(h.sendNext hi hn).2]
    exact hu
  | connect hs _ hok hgt =>
    rw [hs] at h
    refine .inr fun k hk => ?_
    have hk : k ∈ (c₀.snd.synAcked th).queue := hk
    rw [h.synAcked_nil hi hok hgt] at hk
    cases hk
  | simultaneous hs => exact .inl (by rw [(h.opening hs).1, ← h.start]; rfl)
  | queueFin _ ha => exact ha.elim
  | _ => exact hu

/-! ## Runs -/

/-- The invariant of core and log, for as long as the numbers fit 32 bits. -/
def SendQueueInv (iss : U32) (c : Core) (log : List Effect) : Prop :=
  iss.toNat + (seqsOf log + childSeq c.ptsk) < 2 ^ 32 →
    SndOrdered iss (seqsOf log + childSeq c.ptsk) c.state c.snd

theorem SendQueueInv.move {iss : U32} {a : Act} {c c' : Core} {log es : List Effect} (hi : iss ≠ 0)
    (hm : Move a c es c') (h : SendQueueInv iss c log) : SendQueueInv iss c' (log ++ es) := by
  intro hlt
  rw [hm.ptsk, seqsOf_append] at hlt ⊢
  have h' := (h (by omega)).move hi hm (by omega)
  rwa [show seqsOf log + childSeq c.ptsk + seqsOf es = seqsOf log + seqsOf es + childSeq c.ptsk by omega] at h'

theorem SndOrdered.begin {iss nxt wnd : U32} {scale : U8} {k : Skb} {st : TcpState} {n : Nat} (hk : k.IsSyn)
    (hn : nxt.toNat = iss.toNat + n) (hst : st ≠ .close) :
    SndOrdered iss n st (SndSide.start iss nxt wnd scale k) := by
  have hl : ∀ q ∈ (SndSide.start iss nxt wnd scale k).queue, q.seq = iss ∧ q.endSeq = iss ∧ q.dlen = 0 := fun q hq => by
    rw [List.mem_singleton.mp hq]
    refine ⟨rfl, rfl, ?_⟩
    simp only [Skb.dlen, hk.payload]
    rfl
  have hle : iss.toNat ≤ nxt.toNat := by omega
  refine ⟨rfl, hn, ⟨Nat.le_refl _, Nat.le_refl _, hle⟩, ?_, BitVec.le_refl _, BitVec.le_def.mpr hle, ?_, ?_, hst⟩
  · intro q hq
    obtain ⟨h1, h2, h3⟩ := hl q hq
    rw [h1, h2, h3]
    rfl
  · rw [SndSide.start, List.map_singleton, List.sum_singleton, (hl _ (List.mem_singleton.mpr rfl)).2.2]
  · exact fun _ => ⟨rfl, fun q hq => (hl q hq).2.1⟩

theorem Opened.sendQueue {iss : U32} {s : TcpSock} (ho : Opened iss s) : SendQueueInv iss s.core s.fx := by
  cases ho with
  | active o iss =>
    obtain ⟨cwnd, e, hf, he⟩ := activeOpen_fx o iss
    rw [SendQueueInv, hf, seqsOf_queued he.seqs, activeOpen_core]
    intro hlt
    refine .begin (synSkb_isSyn _) ?_ nofun
    have hlt : iss.toNat + 1 < 2 ^ 32 := hlt
    show (iss + 1).toNat = iss.toNat + 1
    bv_omega
  | @passive _ _ env _ _ hl =>
    obtain ⟨hc, cwnd, e, hf, he⟩ := tcpListen_core hl
    rw [SendQueueInv, hf, seqsOf_queued he.seqs, hc]
    intro hlt
    refine .begin synAckSkb_isSyn ?_ nofun
    have hlt : env.iss.toNat + 2 < 2 ^ 32 := hlt
    show (env.iss + 2).toNat = env.iss.toNat + 2
    bv_omega

/-- `tcp_send_next` does nothing on a queue without the sentinel. -/
theorem tcpSendNext_idle {s : TcpSock} (h0 : ∀ k ∈ s.writeQueue, k.seq ≠ 0) (amount : Nat) (extra : U32) :
    tcpSendNext s amount extra = s := by
  refine tcpSendNextLoop_idle (fun k hk => ?_) amount []
  exact absurd (by simpa using List.find?_some hk) (h0 k (List.mem_of_find?_eq_some hk))

/-- What one event does to `snd_una` of a connection in order. -/
theorem step_una {iss : U32} (hi : iss ≠ 0) {c : Conn} (hr : c.Ready) (h : SendQueueInv iss c.sk.core c.sk.fx)
    {e : Event} (hw : iss.toNat + (c.step e).sk.seqsUsed < 2 ^ 32) :
    c.sk.core.snd.una ≤ (c.step e).sk.core.snd.una ∧
    ∀ th data psh, e = .segment th data psh → Uncovered c.sk.core (c.step e).sk.core := by
  obtain ⟨es, hf, hm⟩ := Conn.step_moves hr e
  -- the chain keeps the order, `snd_una` at least where it was, and nothing covered
  let J (k : Core) (log : List Effect) : Prop := SendQueueInv iss k log ∧
    (iss.toNat + (seqsOf log + childSeq k.ptsk) < 2 ^ 32 → c.sk.core.snd.una ≤ k.snd.una ∧
      ∀ th data psh, e = .segment th data psh → Uncovered c.sk.core k)
  have hJ : J (c.step e).sk.core (c.sk.fx ++ es) := by
    refine hm.keeps (I := J) (fun {k log es k'} hm ⟨hk, hu⟩ => ⟨hk.move hi hm, fun hlt => ?_⟩) _
      ⟨h, fun _ => ⟨BitVec.le_refl _, fun _ _ _ _ => .inl rfl⟩⟩
    rw [hm.ptsk, seqsOf_append] at hlt
    have hlt : iss.toNat + (seqsOf log + childSeq k.ptsk) < 2 ^ 32 := by omega
    obtain ⟨hle, hc⟩ := hu hlt
    refine ⟨BitVec.le_trans hle ((hk hlt).una_mono hi hm), fun th data psh he => ?_⟩
    subst he
    exact (hk hlt).uncovered hi hm (hc th data psh rfl)
  rw [← hf] at hJ
  exact hJ.2 hw

/-- **The send queue.** In every run of a connection opened with `iss ≥ 1` in
which no number wraps: the queue is in order and FlightSize is the sum over it,
prefix by prefix; `snd_una ≤ snd_nxt`; no number is 0, so `tcp_send_next` finds
nothing to send in this queue or in what an ACK leaves of it; `snd_una` only
moves forward, and after a segment has moved it nothing it covers is left. -/
theorem send_queue_invariant {iss : U32} {s : TcpSock} (ho : Opened iss s) (hi : iss ≠ 0) {es : List Event}
    (hw : iss.toNat + (Conn.run { sk := s } es).sk.seqsUsed < 2 ^ 32) :
    let c := Conn.run { sk := s } es
    c.sk.writeQueue.Pairwise (fun a b => a.endSeq ≤ b.seq) ∧
    c.sk.inflight.toNat = (c.sk.writeQueue.map fun k => k.dlen.toNat).sum ∧
    (∀ gone k rest, c.sk.writeQueue = gone ++ k :: rest →
      k.dlen.toNat ≤ c.sk.inflight.toNat - (gone.map fun k => k.dlen.toNat).sum) ∧
    c.sk.tcb.sndUna ≤ c.sk.tcb.sndNxt ∧
    (∀ k ∈ c.sk.writeQueue, k.seq ≠ 0) ∧
    (∀ t : TcpSock, (∀ k ∈ t.writeQueue, k ∈ c.sk.writeQueue) →
      ∀ amount extra, tcpSendNext t amount extra = t) ∧
    ∀ e, iss.toNat + (c.step e).sk.seqsUsed < 2 ^ 32 →
      c.sk.tcb.sndUna ≤ (c.step e).sk.tcb.sndUna ∧
      ∀ th data psh, e = .segment th data psh → c.sk.tcb.sndUna < (c.step e).sk.tcb.sndUna →
        ∀ k ∈ (c.step e).sk.writeQueue, (c.step e).sk.tcb.sndUna < k.endSeq := by
  intro c
  have hr : c.Ready := Conn.run_ready (Conn.ready_of_no_calls s) es
  have hinv : SendQueueInv iss c.sk.core c.sk.fx :=
    Conn.run_keeps_all (fun hm h => h.move hi hm) es (Conn.ready_of_no_calls s) ho.sendQueue
  have h := hinv hw
  have hpos : ∀ k ∈ c.sk.writeQueue, k.seq ≠ 0 := fun k hk => h.seq_pos (k := k.plain) hi (List.mem_map_of_mem hk)
  have hfl : c.sk.inflight.toNat = (c.sk.writeQueue.map fun k => k.dlen.toNat).sum := by
    have hf := h.flight
    simp only [TcpSock.core, TcpSock.snd, List.map_map] at hf
    exact hf
  refine ⟨?_, hfl, ?_, h.una_le, hpos, fun t ht => tcpSendNext_idle fun k hk => hpos k (ht k hk), fun e he => ?_⟩
  · exact (List.pairwise_map.mp h.laid.pairwise).imp fun hab => BitVec.le_def.mpr hab
  · intro gone k rest hq
    rw [hfl, hq, List.map_append, List.sum_append, List.map_cons, List.sum_cons]
    omega
  · obtain ⟨hle, hu⟩ := step_una hi hr hinv he
    refine ⟨hle, fun th data psh hs hlt k hk => ?_⟩
    rcases hu th data psh hs with heq | hb
    · exact absurd heq (BitVec.ne_of_lt hlt).symm
    · exact hb k.plain (List.mem_map_of_mem hk)

/-- Bytes acknowledged in two steps, more bytes, and a close. -/
def ackedRun : List Event := [synAckEvent, .write [1, 2, 3, 4], ackEvent 103, ackEvent 105, .write [5, 6], .close]

theorem send_queue_invariant_acked :
    (clientConn.run ackedRun).sk.writeQueue.length = 2 ∧
    (clientConn.run ackedRun).sk.writeQueue.Pairwise (fun a b => a.endSeq ≤ b.seq) ∧
    (clientConn.run ackedRun).sk.inflight.toNat =
      ((clientConn.run ackedRun).sk.writeQueue.map fun k => k.dlen.toNat).sum ∧
    (clientConn.run ackedRun).sk.tcb.sndUna ≤ (clientConn.run ackedRun).sk.tcb.sndNxt := by
  have hw : (100 : U32).toNat + (clientConn.run ackedRun).sk.seqsUsed < 2 ^ 32 := by decide +kernel
  have h := send_queue_invariant (.active {} 100) (by decide) hw
  exact ⟨by decide +kernel, h.1, h.2.1, h.2.2.2.1⟩

end LevelIp
