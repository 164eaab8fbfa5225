/-
Our FIN: when the code takes it for acknowledged, and when it has been.

`tcp_input_state` reads "our FIN was acked" off an empty `write_queue`. The FIN
skb carries no payload, so its `end_seq` is its own number and an ACK of the
data before it takes it off the queue too; and a `tcp_close` that sleeps has
left ESTABLISHED with no FIN queued at all.
-/
import LevelIp.Sleepers

namespace LevelIp

/-- The mark of a queued FIN. -/
def Effect.isFin : Effect → Bool
  | .queued skb _ _ => skb.fin
  | .xmit _ _ | .peerFin | .wakeup _ | .acceptQueue _ => false

/-- Our FIN has been queued. -/
def TcpSock.finQueued (s : TcpSock) : Bool := s.fx.any Effect.isFin

/-! ## Before and after the FIN -/

/-- No FIN of ours has been queued. -/
structure FinFree (c : Core) (log : List Effect) : Prop where
  state : c.state ≠ .lastAck
  log : ∀ e ∈ log, e.isFin = false
  queue : ∀ k ∈ c.snd.queue, k.fin = false

/-- A FIN has been queued last: it is still queued, or its number is acknowledged. -/
structure FinSent (c : Core) (log : List Effect) : Prop where
  shut : c.state.shut
  spans : ∀ k ∈ c.snd.queue, k.fin → k.endSeq = k.seq
  last : ∃ k fl cwnd, .queued k fl cwnd ∈ log ∧ k.fin ∧ c.snd.nxt = k.seq + 1 ∧
    (k ∈ c.snd.queue ∨ c.snd.una = k.seq + 1)

/-- What an act may bring once a FIN is queued: a segment finds no data or FIN
at number 0 in the queue and does not acknowledge just up to a FIN; a closer
that has slept finds the connection closing. -/
def Act.FinOk (c : Core) : Act → Prop
  | .arrive c₀ th skb => c₀.Heard th skb →
      (∀ k ∈ c.snd.queue, k.seq = 0 → k.payload.bytes = [] ∧ k.fin = false) ∧
      (c₀.snd.ackNew th → ∀ k ∈ c₀.snd.queue, k.fin → k.seq ≠ th.ackSeq)
  | .finish false => c.state.shut
  | _ => True

theorem Core.Plain.isFin {c : Core} {e : Effect} (h : c.Plain e) : e.isFin = false := by
  cases e with
  | queued => exact h.elim
  | _ => rfl

theorem RcvSide.Sends.isFin {r : RcvSide} {k : Skb} {n : U32} {e : Effect} (h : r.Sends k n e) : e.isFin = false := by
  cases e with
  | xmit => rfl
  | _ => exact h.elim

/-- The core once `tcp_close` has queued the FIN. -/
def Core.enqueueFin (c : Core) (lastAck : Bool) : Core :=
  { c with state := if lastAck then .lastAck else c.state, snd := c.snd.enqueue finSkb }

/-- Only `tcp_close` logs a FIN. -/
theorem Move.isFin {a : Act} {c c' : Core} {es : List Effect} (hm : Move a c es c') :
    (∀ e ∈ es, e.isFin = false) ∨ ∃ lastAck fl cwnd e, a.Fins c lastAck ∧
      es = [.queued (c.snd.number finSkb) fl cwnd, e] ∧ c' = c.enqueueFin lastAck := by
  by_cases hq : ∃ lastAck fl cwnd e, a.Fins c lastAck ∧
      es = [.queued (c.snd.number finSkb) fl cwnd, e] ∧ c' = c.enqueueFin lastAck
  · exact .inr hq
  refine .inl fun e he => ?_
  cases hm with
  | quiet h | reset _ h | ack _ _ _ _ h | userTimeout h | abort h => exact (h e he).isFin
  | resend h =>
    obtain ⟨k, -, hk⟩ := h e he
    exact hk.isFin
  | sendNext _ h =>
    obtain ⟨k, -, -, n, hk⟩ := h.emits e he
    exact hk.isFin
  | fin _ _ _ _ _ _ _ h =>
    rcases List.mem_cons.mp he with rfl | he
    · rfl
    · exact (h e he).isFin
  | connect _ _ _ _ h => exact (h e he).isFin
  | resendHead _ _ h => rw [List.mem_singleton.mp he]; exact h.isFin
  | simultaneous _ _ _ _ h | data _ _ h =>
    simp only [List.mem_cons, List.not_mem_nil, or_false] at he
    rcases he with rfl | rfl
    · rfl
    · exact h.isFin
  | queueFin b hb => exact absurd ⟨b, _, _, _, hb, rfl, rfl⟩ hq
  | establish =>
    simp only [List.mem_cons, List.not_mem_nil, or_false] at he
    rcases he with rfl | rfl <;> rfl
  | rst | lastAck | inOrder | refused | giveUp | linger | closeDone => rw [List.mem_singleton.mp he]; rfl
  | fault | finWait2 | timeWait | finAgain | outOfOrder | finSent | finResent | spin | closeRefused | closeStart
  | dequeue | eof => cases he

/-- A FIN in the queue was there before, unless `tcp_close` has just queued it. -/
theorem Move.fin_mem {a : Act} {c c' : Core} {es : List Effect} (hm : Move a c es c') (hf : ∀ e ∈ es, e.isFin = false)
    {k : Skb} (hk : k ∈ c'.snd.queue) (hfin : k.fin) : ∃ k₀ ∈ c.snd.queue, k₀.fin := by
  cases hm with
  | ack => exact ⟨k, (List.dropWhile_sublist _).subset hk, hfin⟩
  | sendNext _ hn =>
    obtain ⟨k₀, hk₀, hren⟩ := renum_mem hn.queue hk
    refine ⟨k₀, hk₀, ?_⟩
    rcases hren with rfl | ⟨-, n, rfl⟩
    · exact hfin
    · exact hfin
  | connect =>
    simp only [SndSide.opened, SndSide.synAcked] at hk
    split at hk
    · exact ⟨k, (List.dropWhile_sublist _).subset hk, hfin⟩
    · exact ⟨k, hk, hfin⟩
  | simultaneous | data =>
    rcases List.mem_append.mp hk with hk | hk
    · exact ⟨k, hk, hfin⟩
    · rw [List.mem_singleton.mp hk] at hfin
      cases hfin
  | queueFin => cases hf _ List.mem_cons_self
  | _ => exact ⟨k, hk, hfin⟩

/-- LAST_ACK is entered with a FIN. -/
theorem Move.into_lastAck {a : Act} {c c' : Core} {es : List Effect} (hm : Move a c es c')
    (hf : ∀ e ∈ es, e.isFin = false) (h : c'.state = .lastAck) : c.state = .lastAck ∨ ∃ k ∈ c.snd.queue, k.fin := by
  cases hm with
  | finSent hk hfin => exact .inr ⟨_, List.mem_of_head? hk, hfin⟩
  | fin =>
    simp only [Core.finState] at h
    split at h
    case h_3 => split at h <;> cases h
    all_goals first | cases h | exact .inl h
  | queueFin => cases hf _ List.mem_cons_self
  | _ => first | exact .inl h | cases h

theorem FinFree.move {a : Act} {c c' : Core} {log es : List Effect} (h : FinFree c log) (hm : Move a c es c')
    (hf : ∀ e ∈ es, e.isFin = false) : FinFree c' (log ++ es) := by
  have none : ¬∃ k ∈ c.snd.queue, k.fin := by
    rintro ⟨k, hk, hfin⟩
    rw [h.queue k hk] at hfin
    cases hfin
  refine ⟨fun hs => ?_, fun e he => ?_, fun k hk => ?_⟩
  · rcases hm.into_lastAck hf hs with hs | hk
    · exact h.state hs
    · exact none hk
  · rcases List.mem_append.mp he with he | he
    · exact h.log e he
    · exact hf e he
  · by_contra hfin
    exact none (hm.fin_mem hf hk (by simpa using hfin))

/-- Queueing a FIN. -/
theorem finSent_enqueue {a : Act} {c : Core} {log : List Effect} {fl cwnd : U32} {e : Effect} {lastAck : Bool}
    (ha : a.Fins c lastAck) (ho : a.FinOk c) (hq : ∀ k ∈ c.snd.queue, k.fin → k.endSeq = k.seq) :
    FinSent (c.enqueueFin lastAck) (log ++ [.queued (c.snd.number finSkb) fl cwnd, e]) := by
  have hz : finSkb.dlen = 0 := rfl
  refine ⟨?_, fun k hk hfin => ?_, c.snd.number finSkb, fl, cwnd, ?_, rfl, ?_, .inl ?_⟩
  · cases lastAck with
    | true => rfl
    | false =>
      cases a with
      | close => exact (congrArg TcpState.shut ha : c.state.shut = _)
      | finish b => cases ha; exact ho
      | _ => exact ha.elim
  · rcases List.mem_append.mp hk with hk | hk
    · exact hq k hk hfin
    · rw [List.mem_singleton.mp hk]
      simp [SndSide.number, Skb.plain, hz]
  · simp
  · simp [Core.enqueueFin, SndSide.enqueue, SndSide.advance, SndSide.number, finSkb, tcpAllocSkb, Skb.dlen]
  · exact List.mem_append_right _ (List.mem_singleton.mpr rfl)

/-- With no number 0 in it, `tcp_send_next` leaves data and FINs alone. -/
theorem SendNext.kept {r : RcvSide} {d d' : SndSide} {es : List Effect} (h : SendNext r d es d')
    (h0 : ∀ k ∈ d.queue, k.seq = 0 → k.payload.bytes = [] ∧ k.fin = false) {k : Skb} (hk : k ∈ d'.queue) :
    k ∈ d.queue ∨ k.payload.bytes = [] ∧ k.fin = false := by
  obtain ⟨k₀, hk₀, hren⟩ := renum_mem h.queue hk
  rcases hren with rfl | ⟨hz, n, rfl⟩
  · exact .inl hk₀
  · exact .inr (h0 k₀ hk₀ hz)

theorem renum_mem_left {q q' : List Skb} (h : List.Forall₂ Skb.Renum q q') {k : Skb} (hk : k ∈ q) (hz : k.seq ≠ 0) :
    k ∈ q' := by
  induction h with
  | nil => cases hk
  | cons hr _ ih =>
    rcases List.mem_cons.mp hk with rfl | hk
    · rcases hr with rfl | ⟨h0, -⟩
      · exact List.mem_cons_self
      · exact absurd h0 hz
    · exact List.mem_cons_of_mem _ (ih hk)

/-- What leaves the queue on an ACK is covered by it. -/
theorem covered_of_cleaned {a : U32} {q : List Skb} {k : Skb} (hk : k ∈ q) (hn : k ∉ cleanQueue a q) : k.covered a := by
  induction q with
  | nil => cases hk
  | cons k' q ih =>
    rw [cleanQueue, List.dropWhile_cons] at hn
    split at hn
    next hc =>
      rcases List.mem_cons.mp hk with rfl | hk
      · exact hc
      · exact ih hk hn
    next => exact absurd hk hn

namespace FinSent

variable {a : Act} {c c' : Core} {log es : List Effect}

/-- The send side stays. -/
theorem of_snd (h : FinSent c log) (hs : c'.state.shut) (hsnd : c'.snd = c.snd) (es : List Effect) :
    FinSent c' (log ++ es) := by
  obtain ⟨k, fl, cwnd, hlog, hrest⟩ := h.last
  refine ⟨hs, by rw [hsnd]; exact h.spans, k, fl, cwnd, List.mem_append_left _ hlog, ?_⟩
  rw [hsnd]
  exact hrest

/-- An ACK that is not just up to the FIN leaves it, or acknowledges it. -/
theorem acked (h : FinSent c log) {th : Tcphdr} (hn : c.snd.ackNew th)
    (hne : ∀ k ∈ c.snd.queue, k.fin → k.seq ≠ th.ackSeq) :
    FinSent { c with snd := c.snd.acked th.ackSeq } (log ++ es) := by
  obtain ⟨k, fl, cwnd, hlog, hfin, hnxt, hk⟩ := h.last
  have hn : c.snd.una < th.ackSeq ∧ th.ackSeq ≤ c.snd.nxt := by simpa [SndSide.ackNew] using hn
  refine ⟨h.shut, fun k' hk' => h.spans k' ((List.dropWhile_sublist _).subset hk'), k, fl, cwnd,
    List.mem_append_left _ hlog, hfin, hnxt, ?_⟩
  rcases hk with hk | hu
  · by_cases hin : k ∈ cleanQueue th.ackSeq c.snd.queue
    · exact .inl hin
    · -- the FIN is covered, so the ACK is its number or the next; and it is not its number
      refine .inr ?_
      have hc := (covered_iff.mp (covered_of_cleaned hk hin)).2
      have hs := h.spans k hk hfin
      have hseq := hne k hk hfin
      have hgoal : th.ackSeq = k.seq + 1 := by
        rw [hs] at hc
        rw [hnxt] at hn
        bv_omega
      exact hgoal
  · rw [hu, hnxt] at hn
    exact absurd hn.1 (BitVec.not_lt.mpr hn.2)

theorem sendNext (h : FinSent c log) {d : SndSide} (hn : SendNext c.rcv c.snd es d)
    (h0 : ∀ k ∈ c.snd.queue, k.seq = 0 → k.payload.bytes = [] ∧ k.fin = false) :
    FinSent { c with snd := d } (log ++ es) := by
  obtain ⟨k, fl, cwnd, hlog, hfin, hnxt, hk⟩ := h.last
  refine ⟨h.shut, fun k' hk' hfin' => ?_, k, fl, cwnd, List.mem_append_left _ hlog, hfin, ?_, ?_⟩
  · rcases hn.kept h0 hk' with hk' | ⟨-, hf⟩
    · exact h.spans k' hk' hfin'
    · rw [hf] at hfin'
      cases hfin'
  · exact (hn.nxt h0).trans hnxt
  · rcases hk with hk | hu
    · refine .inl (renum_mem_left hn.queue hk fun hz => ?_)
      rw [(h0 k hk hz).2] at hfin
      cases hfin
    · exact .inr (hn.una.trans hu)

/-- `tcp_send_reset` counts everything as acknowledged. -/
theorem reset (h : FinSent c log) (es : List Effect) : FinSent c.reset.done (log ++ es) := by
  obtain ⟨k, fl, cwnd, hlog, hfin, hnxt, hk⟩ := h.last
  exact ⟨rfl, h.spans, k, fl, cwnd, List.mem_append_left _ hlog, hfin, hnxt, .inr hnxt⟩

/-- Once a FIN is queued, every move but sending data keeps it last. -/
theorem move (h : FinSent c log) (hm : Move a c es c') (ha : a ≠ .send) (ho : a.FinOk c) : FinSent c' (log ++ es) := by
  have hshut := h.shut
  cases hm with
  | ack hh _ hs hn =>
    obtain ⟨-, hne⟩ := ho hh
    rw [← hs] at hne
    exact h.acked hn (hne hn)
  | sendNext hh hn => exact h.sendNext hn (ho hh).1
  | userTimeout | abort => exact h.reset _
  | queueFin lastAck hf => exact finSent_enqueue hf ho h.spans
  | reset hs | establish hs | fault hs | refused hs | connect hs | simultaneous hs | finSent _ _ hs | finResent _ _ hs
  | closeStart hs | eof hs => rw [hs] at hshut; cases hshut
  | fin h1 h2 h3 h4 h5 h6 h7 h8 =>
    have hs := (Move.fin h1 h2 h3 h4 h5 h6 h7 h8).shut hshut
    refine h.of_snd hs ?_ _
    rfl
  | data | spin => exact absurd rfl ha
  | rst | finWait2 | timeWait | lastAck | giveUp | linger | closeDone => refine h.of_snd ?_ ?_ _ <;> rfl
  | quiet | resend | finAgain | inOrder | outOfOrder | resendHead | closeRefused | dequeue =>
    refine h.of_snd ?_ ?_ _
    · exact hshut
    · rfl

/-- Nothing is left in the queue: the FIN is acknowledged. -/
theorem una_of_nil (h : FinSent c log) (hq : c.snd.queue = []) : c.snd.una = c.snd.nxt := by
  obtain ⟨k, -, -, -, -, hnxt, hk⟩ := h.last
  rcases hk with hk | hu
  · rw [hq] at hk
    cases hk
  · rw [hu, hnxt]

end FinSent

/-- What an act may bring stays so along its moves. -/
theorem Act.FinOk.move {a : Act} {c c' : Core} {es : List Effect} (ho : a.FinOk c) (hm : Move a c es c') :
    a.FinOk c' := by
  cases a with
  | arrive c₀ th skb =>
    intro hh
    obtain ⟨hz, hne⟩ := ho hh
    refine ⟨fun k hk hk0 => ?_, hne⟩
    cases hm with
    | ack => exact hz k ((List.dropWhile_sublist _).subset hk) hk0
    | sendNext _ hn =>
      rcases hn.kept hz hk with hk | hk
      · exact hz k hk hk0
      · exact hk
    | connect =>
      simp only [SndSide.opened, SndSide.synAcked] at hk
      split at hk
      · exact hz k ((List.dropWhile_sublist _).subset hk) hk0
      · exact hz k hk hk0
    | simultaneous =>
      rcases List.mem_append.mp hk with hk | hk
      · exact hz k hk hk0
      · rw [List.mem_singleton.mp hk]
        exact ⟨rfl, rfl⟩
    | queueFin _ hf => exact hf.elim
    | _ => exact hz k hk hk0
  | finish lastAck =>
    cases lastAck with
    | false => exact hm.shut ho
    | true => trivial
  | _ => trivial

/-! ## The transitions -/

/-- The changes of state that take our FIN for acknowledged; `tcp_done` is the
one into CLOSING. -/
def SaysFinAcked : TcpState → TcpState → Bool
  | .finWait1, .finWait2 | .finWait1, .timeWait | .closing, .timeWait | .lastAck, .closing => true
  | _, _ => false

/-- A connection found in `st` has made none of them. -/
def Core.Awaits (st : TcpState) (c : Core) : Prop :=
  if st = .lastAck then c.state = .lastAck ∨ c.state = .timeWait else c.state ≠ .finWait2 ∧ c.state ≠ .timeWait

theorem Core.Awaits.not_says {st : TcpState} {c : Core} (h : c.Awaits st) : SaysFinAcked st c.state = false := by
  unfold Core.Awaits at h
  split at h
  next hs =>
    subst hs
    rcases h with h | h <;> rw [h] <;> rfl
  next hs =>
    cases st <;> cases hc : c.state <;> simp_all [SaysFinAcked]

theorem awaits_self {c : Core} (h : c.state = .finWait1 ∨ c.state = .closing ∨ c.state = .lastAck) :
    c.Awaits c.state := by
  rcases h with h | h | h <;> simp [Core.Awaits, h]

section

variable {c₀ c c' : Core} {th : Tcphdr} {skb : Skb} {log es : List Effect}

/-- With everything acknowledged, a segment changes nothing about it. -/
theorem FinSent.una_stays (h : FinSent c log) (hm : Move (.arrive c₀ th skb) c es c')
    (ho : (Act.arrive c₀ th skb).FinOk c) (hu : c.snd.una = c.snd.nxt) : c'.snd.una = c'.snd.nxt := by
  have hshut := h.shut
  cases hm with
  | ack _ _ _ hn =>
    have hn : c.snd.una < th.ackSeq ∧ th.ackSeq ≤ c.snd.nxt := by simpa [SndSide.ackNew] using hn
    rw [hu] at hn
    exact absurd hn.1 (BitVec.not_lt.mpr hn.2)
  | sendNext hh hn =>
    rw [hn.una, hn.nxt (ho hh).1]
    exact hu
  | reset hs | connect hs | simultaneous hs => rw [hs] at hshut; cases hshut
  | queueFin _ hf => exact hf.elim
  | _ => exact hu

/-- A segment that finds the FIN queued makes one of the transitions only when
the FIN is acknowledged. -/
theorem FinSent.awaits (h : FinSent c log) (hm : Move (.arrive c₀ th skb) c es c')
    (hr : c₀.state = .finWait1 ∨ c₀.state = .closing → ¬(c₀.rcv.verify th skb ∧ th.rst))
    (hst : c₀.state = .finWait1 ∨ c₀.state = .closing ∨ c₀.state = .lastAck) (ha : c.Awaits c₀.state) :
    c'.Awaits c₀.state ∨ c'.snd.una = c'.snd.nxt := by
  have hshut := h.shut
  have nil : c.snd.queue = [] → c.snd.una = c.snd.nxt := h.una_of_nil
  by_cases hl : c₀.state = .lastAck
  · rw [hl] at ha ⊢
    have ha : c.state = .lastAck ∨ c.state = .timeWait := ha
    cases hm with
    | rst => exact .inl (.inr rfl)
    | lastAck _ _ hq => exact .inr (nil hq)
    | fin =>
      refine .inl ?_
      rcases ha with ha | ha <;> simp [Core.Awaits, Core.finState, ha]
    | reset hs | establish hs | fault hs | refused hs | connect hs | simultaneous hs | finWait2 _ hs | timeWait _ hs =>
      rcases ha with ha | ha <;> rw [hs] at ha <;> cases ha
    | queueFin _ hf => exact hf.elim
    | _ => exact .inl ha
  · have hst' : c₀.state = .finWait1 ∨ c₀.state = .closing := by
      rcases hst with hs | hs | hs
      · exact .inl hs
      · exact .inr hs
      · exact absurd hs hl
    simp only [Core.Awaits, if_neg hl] at ha ⊢
    cases hm with
    | rst hv hrst => exact absurd ⟨hv, hrst⟩ (hr hst')
    | finWait2 _ _ hq | timeWait _ _ hq | lastAck _ _ hq => exact .inr (nil hq)
    | fin =>
      by_cases hq : c.snd.queue = []
      · exact .inr (nil hq)
      · refine .inl ?_
        simp only [Core.finState, List.isEmpty_iff, hq, if_false]
        cases hc : c.state <;> simp_all
    | reset hs | establish hs | fault hs | refused hs | connect hs | simultaneous hs => rw [hs] at hshut; cases hshut
    | queueFin _ hf => exact hf.elim
    | _ => exact .inl ha

/-- No FIN has been queued, but something else is, as far as the segment is
`heard`: none of the transitions. -/
structure Unsent (heard : Bool) (c : Core) : Prop where
  shut : c.state.shut
  queue : heard → c.snd.queue ≠ []
  state : c.state ≠ .finWait2 ∧ c.state ≠ .timeWait

theorem Unsent.move (h : Unsent (c₀.Heard th skb) c) (hm : Move (.arrive c₀ th skb) c es c') (hr : ¬(c₀.rcv.verify th skb ∧ th.rst))
    (hfull : c₀.Heard th skb → c₀.snd.ackNew th → cleanQueue th.ackSeq c₀.snd.queue ≠ []) :
    Unsent (c₀.Heard th skb) c' := by
  obtain ⟨hshut, hq, hst⟩ := h
  cases hm with
  | ack hh _ hs hn =>
    refine ⟨hshut, fun _ => ?_, hst⟩
    rw [hs] at hn ⊢
    exact hfull hh hn
  | sendNext hh hn =>
    refine ⟨hshut, fun _ h0 => hq hh ?_, hst⟩
    have hl := hn.queue.length_eq
    rw [h0] at hl
    exact List.length_eq_zero_iff.mp hl
  | rst hv hrst => exact absurd ⟨hv, hrst⟩ hr
  | finWait2 hh _ h0 | timeWait hh _ h0 | lastAck hh _ h0 => exact absurd h0 (hq hh)
  | fin h1 h2 h3 h4 h5 h6 h7 h8 =>
    refine ⟨(Move.fin h1 h2 h3 h4 h5 h6 h7 h8).shut hshut, hq, ?_⟩
    simp only [Core.finState, List.isEmpty_iff, hq h1, if_false]
    cases hc : c.state <;> simp_all
  | reset hs | establish hs | fault hs | refused hs | connect hs | simultaneous hs => rw [hs] at hshut; cases hshut
  | queueFin _ hf => exact hf.elim
  | _ => exact ⟨hshut, hq, hst⟩

/-- A FIN that leaves the queue does so by an ACK beyond its number. -/
theorem FinSent.leaves (h : FinSent c log) (hm : Move (.arrive c₀ th skb) c es c')
    (ho : (Act.arrive c₀ th skb).FinOk c) {k : Skb} (hfin : k.fin)
    (hk : k ∈ c.snd.queue ∨ c.snd.una = th.ackSeq ∧ k.seq < th.ackSeq) :
    k ∈ c'.snd.queue ∨ c'.snd.una = th.ackSeq ∧ k.seq < th.ackSeq := by
  have hshut := h.shut
  cases hm with
  | ack hh _ hs hn =>
    rcases hk with hk | ⟨hu, hlt⟩
    · by_cases hin : k ∈ cleanQueue th.ackSeq c.snd.queue
      · exact .inl hin
      · refine .inr ⟨rfl, ?_⟩
        have hc := (covered_iff.mp (covered_of_cleaned hk hin)).2
        have hne := (ho hh).2 (hs ▸ hn) k (hs ▸ hk) hfin
        rw [h.spans k hk hfin] at hc
        bv_omega
    · exact .inr ⟨rfl, hlt⟩
  | sendNext hh hn =>
    rcases hk with hk | hk
    · refine .inl (renum_mem_left hn.queue hk fun hz => ?_)
      rw [((ho hh).1 k hk hz).2] at hfin
      cases hfin
    · exact .inr ⟨hn.una.trans hk.1, hk.2⟩
  | reset hs | connect hs | simultaneous hs => rw [hs] at hshut; cases hshut
  | queueFin _ hf => exact hf.elim
  | _ => exact hk

end

/-! ### Other events -/

/-- Only a segment takes skbs off the queue. -/
theorem Move.queue_kept {a : Act} {c c' : Core} {es : List Effect} (hm : Move a c es c')
    (ha : ∀ c₀ th skb, a ≠ .arrive c₀ th skb) {k : Skb} (hk : k ∈ c.snd.queue) : k ∈ c'.snd.queue := by
  cases hm with
  | data | queueFin => exact List.mem_append_left _ hk
  | reset | rst | establish | fault | ack | resend | sendNext | finWait2 | timeWait | lastAck | finAgain | inOrder
  | outOfOrder | fin | refused | connect | simultaneous => exact absurd rfl (ha _ _ _)
  | _ => exact hk

/-- Only a segment leads into FIN_WAIT_2 or TIME_WAIT. -/
theorem Move.into_timeWait {a : Act} {c c' : Core} {es : List Effect} (hm : Move a c es c')
    (ha : ∀ c₀ th skb, a ≠ .arrive c₀ th skb) (h : c.state ≠ .finWait2 ∧ c.state ≠ .timeWait) :
    c'.state ≠ .finWait2 ∧ c'.state ≠ .timeWait := by
  cases hm with
  | queueFin lastAck =>
    cases lastAck
    · exact h
    · exact ⟨nofun, nofun⟩
  | reset | rst | establish | fault | ack | resend | sendNext | finWait2 | timeWait | lastAck | finAgain | inOrder
  | outOfOrder | fin | refused | connect | simultaneous => exact absurd rfl (ha _ _ _)
  | _ => first | exact h | exact ⟨nofun, nofun⟩

/-- The acts that can end a connection in LAST_ACK. -/
def Act.ends : Act → Bool
  | .arrive _ _ _ | .abort | .fire .linger _ | .fire .userTimeout _ | .fire (.retransmissionTimeout _) _ => true
  | .fire (.connectRto _) _ | .fire .sendDelack _ | .send | .close | .finish _ | .read | .idle => false

theorem Move.lastAck_stays {a : Act} {c c' : Core} {es : List Effect} (hm : Move a c es c') (ha : a.ends = false)
    (h : c.state = .lastAck) : c'.state = .lastAck := by
  cases hm with
  | giveUp hd =>
    rcases hd with ⟨-, hs⟩ | rfl
    · rw [h] at hs
      cases hs
    · cases ha
  | closeDone hs => rcases hs with hs | hs | hs <;> rw [h] at hs <;> cases hs
  | closeStart hs => rw [h] at hs; cases hs
  | queueFin lastAck =>
    cases lastAck
    · exact h
    · rfl
  | reset | rst | establish | fault | ack | resend | sendNext | finWait2 | timeWait | lastAck | finAgain | inOrder
  | outOfOrder | fin | refused | connect | simultaneous | finSent | finResent | linger | userTimeout | abort => cases ha
  | _ => exact h

theorem rtoTail_lastAck {s : TcpSock} {k : Skb} (h : s.state = .lastAck) (hr : ¬s.rto > 60000) :
    (rtoTail s k).state = .lastAck := by
  rw [rtoTail, if_neg hr]
  split
  · have hs : (tcpRearmRtoTimer { s with rto := s.rto * 2, backoff := s.backoff + 1 }).state = .lastAck := h
    rw [tcpHandleFinState, hs]
    exact hs
  · exact h

/-- A timeout in LAST_ACK that does not give up leaves the state. -/
theorem tcpRetransmissionTimeout_lastAck {s : TcpSock} (n : Nat) (h : s.state = .lastAck)
    (hr : s.rto ≤ 60000 ∨ s.writeQueue = []) : (tcpRetransmissionTimeout s n).state = .lastAck := by
  unfold tcpRetransmissionTimeout
  split
  · exact h
  · dsimp only
    split
    · split <;> exact h
    next k hk =>
      refine rtoTail_lastAck (s := tcpTransmitSkb (rtoSock s) k s.tcb.sndUna) ?_ ?_
      · exact (congrArg Core.state ((tcpTransmitSkb_core (rtoSock s) k s.tcb.sndUna).trans (quiet_rtoSock s).core)).trans h
      · rw [tcpTransmitSkb_rto]
        rcases hr with hr | hr
        · exact BitVec.not_lt.mpr hr
        · rw [show (tcpReleaseRtoTimer s).writeQueue = s.writeQueue from rfl, hr] at hk
          cases hk

/-! ## Runs -/

/-- The condition on a step. A segment that gets to the ACK field finds no data
or FIN at number 0 in the queue, does not acknowledge just up to a queued FIN,
and leaves something queued as long as a closing connection has not queued its
FIN; no acceptable RST comes in FIN_WAIT_1 or CLOSING; no FIN overtakes a
sleeping writer; nothing but a segment ends a connection in LAST_ACK. -/
def FinOk (c : Conn) : Event → Prop
  | .segment th data psh =>
    (c.sk.state = .finWait1 ∨ c.sk.state = .closing → ¬(tcpVerifySegment c.sk th (tcpInitSegment th data psh) ∧ th.rst)) ∧
    (c.sk.core.Heard th (tcpInitSegment th data psh) →
      (∀ k ∈ c.sk.writeQueue, k.seq = 0 → k.payload.bytes = [] ∧ k.fin = false) ∧
      (ackIsNew c.sk th → ∀ k ∈ c.sk.writeQueue, k.fin → k.seq ≠ th.ackSeq) ∧
      (c.sk.state = .finWait1 ∨ c.sk.state = .closing → c.sk.finQueued = false →
        ∃ k ∈ c.sk.writeQueue, ackIsNew c.sk th → k.covered th.ackSeq = false))
  | .close => c.queuesFin .close → c.senders = 0
  | .resume i => c.queuesFin (.resume i) → c.senders = 0
  | .abort => c.sk.state ≠ .lastAck
  | .handler i => c.sk.state = .lastAck →
      c.sk.spawned[i]? ≠ some .linger ∧ c.sk.spawned[i]? ≠ some .userTimeout ∧
      (c.sk.spawned[i]? = some (.retransmissionTimeout c.sk.rtoEpoch) → c.sk.rto ≤ 60000 ∨ c.sk.writeQueue = [])
  | .write _ | .read _ | .dispatch _ | .tick _ | .fcntl _ | .adjustPmtu6 _ => True

instance (c : Conn) (e : Event) : Decidable (FinOk c e) :=
  match e with
  | .segment .. | .write _ | .read _ | .close | .abort | .resume _ | .dispatch _ | .handler _ | .tick _ | .fcntl _
  | .adjustPmtu6 _ => by unfold FinOk; infer_instance

structure FinInv (c : Conn) : Prop where
  ready : c.Ready
  closing : .fin false ∈ c.calls → c.sk.state.shut
  place : FinFree c.sk.core c.sk.fx ∨ c.senders = 0 ∧ FinSent c.sk.core c.sk.fx

namespace FinInv

variable {c : Conn}

/-- What `FinOk` says of the act. -/
theorem finOk (h : FinInv c) {e : Event} (ok : FinOk c e) : (c.act e).FinOk c.sk.core := by
  cases e with
  | segment th data psh =>
    intro hh
    obtain ⟨hz, hne, -⟩ := ok.2 hh
    refine ⟨fun k hk hk0 => ?_, fun hn k hk hfin => ?_⟩
    · obtain ⟨k₀, hk₀, rfl⟩ := List.mem_map.mp hk
      exact hz k₀ hk₀ hk0
    · obtain ⟨k₀, hk₀, rfl⟩ := List.mem_map.mp hk
      exact hne hn k₀ hk₀ hfin
  | resume i =>
    simp only [Conn.act]
    split
    case h_4 lastAck hi =>
      cases lastAck with
      | false => exact h.closing (List.mem_of_getElem? hi)
      | true => trivial
    all_goals trivial
  | handler i =>
    simp only [Conn.act]
    split <;> trivial
  | _ => trivial

/-- A close that finds the window shut changes nothing about the FIN. -/
theorem idle (h : FinInv c) {t : TcpSock} (hi : Idle c.sk t) (hs : c.sk.state.shut → t.state.shut) :
    FinFree t.core t.fx ∨ c.senders = 0 ∧ FinSent t.core t.fx := by
  have hfx : ∃ es, t.fx = c.sk.fx ++ es ∧ ∀ e ∈ es, e.isFin = false := by
    rcases hi.fx with hf | hf
    · exact ⟨[], by simp [hf], by simp⟩
    · exact ⟨[.wakeup .sleep], hf, by simp [Effect.isFin]⟩
  obtain ⟨es, hf, hes⟩ := hfx
  rw [hf]
  rcases h.place with hfree | ⟨h0, hsent⟩
  · refine .inl ⟨fun hl => hfree.state (hi.lastAck hl), fun e he => ?_, by rw [hi.snd]; exact hfree.queue⟩
    rcases List.mem_append.mp he with he | he
    · exact hfree.log e he
    · exact hes e he
  · exact .inr ⟨h0, hsent.of_snd (hs hsent.shut) hi.snd es⟩

/-- **Every step that is `FinOk` keeps the invariant.** -/
theorem step (h : FinInv c) {e : Event} (ok : FinOk c e) : FinInv (c.step e) := by
  obtain ⟨es, hf, hm⟩ := Conn.step_moves h.ready e
  refine ⟨Conn.step_ready h.ready e, Conn.step_closing h.ready h.closing e, ?_⟩
  by_cases ha : c.act e = .send
  · rcases h.place with hfree | ⟨h0, hsent⟩
    · refine .inl ?_
      rw [hf]
      rw [ha] at hm
      refine hm.keeps (I := FinFree) (fun hm hk => ?_) _ hfree
      rcases hm.isFin with hq | ⟨_, _, _, _, hb, -⟩
      · exact hk.move hm hq
      · exact hb.elim
    · obtain ⟨hsk, hc⟩ := Conn.step_send_shut ha hsent.shut h0
      rw [Conn.senders, hc, hsk]
      exact .inr ⟨h0, hsent⟩
  · have hsend : (c.step e).senders = c.senders := (Conn.step_rests ha).senders.1
    rw [hsend]
    by_cases hq : (∃ k b, (c.act e).Fins k b) ∧ c.queuesFin e = false
    · exact h.idle (Conn.step_idle hq.1 hq.2) (hm.keeps_core (I := fun k => k.state.shut) fun hm hk => hm.shut hk)
    · -- either no FIN is queued by this event, or no writer sleeps
      have h0 : (∃ k b, (c.act e).Fins k b) → c.senders = 0 := by
        intro hb
        have hqf : c.queuesFin e = true := by
          by_contra hqf
          exact hq ⟨hb, by simpa using hqf⟩
        cases e with
        | close | resume i => exact ok hqf
        | _ => cases hqf
      rw [hf]
      refine (hm.keeps (I := fun k log => (c.act e).FinOk k ∧ (FinFree k log ∨ c.senders = 0 ∧ FinSent k log))
        (fun {k log es k'} hm hk => ⟨hk.1.move hm, ?_⟩) _ ⟨h.finOk ok, h.place⟩).2
      obtain ⟨hok, hfree | ⟨hz, hsent⟩⟩ := hk
      · rcases hm.isFin with hq | ⟨lastAck, fl, cwnd, e', hb, rfl, rfl⟩
        · exact .inl (hfree.move hm hq)
        · refine .inr ⟨h0 ⟨k, lastAck, hb⟩, finSent_enqueue hb hok fun k' hk' hfin => ?_⟩
          rw [hfree.queue k' hk'] at hfin
          cases hfin
      · exact .inr ⟨hz, hsent.move hm ha hok⟩

theorem finQueued_false {log : List Effect} (h : ∀ e ∈ log, e.isFin = false) : log.any Effect.isFin = false := by
  simp only [List.any_eq_false, Bool.not_eq_true]
  exact h

/-- A segment makes one of the transitions only with the FIN acknowledged. -/
theorem segment_acked (h : FinInv c) {th : Tcphdr} {data : Payload} {psh : Bool} (ok : FinOk c (.segment th data psh))
    (hs : SaysFinAcked c.sk.state (c.step (.segment th data psh)).sk.state) :
    FinSent (c.step (.segment th data psh)).sk.core (c.step (.segment th data psh)).sk.fx ∧
    (c.step (.segment th data psh)).sk.core.snd.una = (c.step (.segment th data psh)).sk.core.snd.nxt := by
  obtain ⟨es, hf, hm⟩ := Conn.step_moves h.ready (.segment th data psh)
  have hok := h.finOk ok
  have hst : c.sk.state = .finWait1 ∨ c.sk.state = .closing ∨ c.sk.state = .lastAck := by
    cases hc : c.sk.state <;> simp_all [SaysFinAcked]
  rw [hf]
  rcases h.place with hfree | ⟨-, hsent⟩
  · -- no FIN queued: something stays in the queue, and with it the state
    exfalso
    have hst' : c.sk.state = .finWait1 ∨ c.sk.state = .closing := by
      rcases hst with hs | hs | hs
      · exact .inl hs
      · exact .inr hs
      · exact absurd hs hfree.state
    have hkept : c.sk.core.Heard th (tcpInitSegment th data psh) → ∃ k ∈ c.sk.core.snd.queue,
        c.sk.core.snd.ackNew th → k.covered th.ackSeq = false := by
      intro hh
      obtain ⟨k, hk, hcov⟩ := (ok.2 hh).2.2 hst' (finQueued_false hfree.log)
      exact ⟨k.plain, List.mem_map_of_mem hk, hcov⟩
    have h0 : Unsent (c.sk.core.Heard th (tcpInitSegment th data psh)) c.sk.core := by
      refine ⟨?_, fun hh hq => ?_, ?_⟩
      · rcases hst' with hs | hs <;> rw [core_state, hs] <;> rfl
      · obtain ⟨k, hk, -⟩ := hkept hh
        rw [hq] at hk
        cases hk
      · rcases hst' with hs | hs <;> rw [core_state, hs] <;> exact ⟨nofun, nofun⟩
    have hr : ¬(c.sk.core.rcv.verify th (tcpInitSegment th data psh) ∧ th.rst) := ok.1 hst'
    have hfull : c.sk.core.Heard th (tcpInitSegment th data psh) → c.sk.core.snd.ackNew th →
        cleanQueue th.ackSeq c.sk.core.snd.queue ≠ [] := by
      intro hh hn hq
      obtain ⟨k, hk, hcov⟩ := hkept hh
      have hall := List.dropWhile_eq_nil_iff.mp hq k hk
      rw [hcov hn] at hall
      cases hall
    have hne := (hm.keeps_core (I := Unsent (c.sk.core.Heard th (tcpInitSegment th data psh)))
      (fun hm hk => hk.move hm hr hfull) h0).state
    rw [core_state] at hne
    rcases hst' with hc | hc <;> rw [hc] at hs <;> cases hc' : (c.step (.segment th data psh)).sk.state <;>
      simp_all [SaysFinAcked]
  · have h1 := hm.keeps
      (I := fun k log => (c.act (.segment th data psh)).FinOk k ∧ FinSent k log ∧
        (k.Awaits c.sk.core.state ∨ k.snd.una = k.snd.nxt))
      (fun {k log es k'} hm ⟨hok, hk, hw⟩ => ⟨hok.move hm, hk.move hm nofun hok, ?_⟩) _
      ⟨hok, hsent, .inl (awaits_self hst)⟩
    · refine ⟨h1.2.1, h1.2.2.resolve_left fun hw => ?_⟩
      have := hw.not_says
      rw [core_state, core_state, hs] at this
      cases this
    · rcases hw with hw | hu
      · exact hk.awaits hm ok.1 hst hw
      · exact .inr (hk.una_stays hm hok hu)

/-- Nothing else makes one. -/
theorem not_acked (h : FinInv c) {e : Event} (ok : FinOk c e) (he : ∀ th data psh, e ≠ .segment th data psh) :
    SaysFinAcked c.sk.state (c.step e).sk.state = false := by
  obtain ⟨es, hf, hm⟩ := Conn.step_moves h.ready e
  have ha := Conn.not_arrive (c := c) he
  by_cases hl : c.sk.state = .lastAck
  · -- in LAST_ACK: the events that could end it are excluded
    have stays : (c.act e).ends = false → (c.step e).sk.state = .lastAck := fun hends =>
      hm.keeps_core (I := fun k => k.state = .lastAck) (fun hm hk => hm.lastAck_stays hends hk) hl
    have hst : (c.step e).sk.state = .lastAck := by
      cases e with
      | segment th data psh => exact absurd rfl (he th data psh)
      | abort => exact absurd hl ok
      | handler i =>
        obtain ⟨h1, h2, h3⟩ := ok hl
        cases hi : c.sk.spawned[i]? with
        | none =>
          refine stays ?_
          simp only [Conn.act, hi]
          rfl
        | some hd =>
          cases hd with
          | retransmissionTimeout n =>
            by_cases hfault : c.sk.fault
            · rw [Conn.step_of_fault hfault]
              exact hl
            by_cases hn : n = c.sk.rtoEpoch
            · subst hn
              rw [Conn.step, if_neg hfault]
              simp only [Conn.handle, hi]
              exact tcpRetransmissionTimeout_lastAck c.sk.rtoEpoch hl (h3 hi)
            · rw [Conn.step, if_neg hfault]
              simp only [Conn.handle, hi, runHandler, tcpRetransmissionTimeout, if_pos hn]
              exact hl
          | linger => exact absurd hi h1
          | userTimeout => exact absurd hi h2
          | connectRto n | sendDelack =>
            refine stays ?_
            simp only [Conn.act, hi]
            rfl
      | resume i =>
        refine stays ?_
        simp only [Conn.act]
        split <;> rfl
      | _ => exact stays rfl
    rw [hl, hst]
    rfl
  · by_cases hs : c.sk.state = .finWait1 ∨ c.sk.state = .closing
    · have h0 : c.sk.core.state ≠ .finWait2 ∧ c.sk.core.state ≠ .timeWait := by
        rcases hs with hs | hs <;> rw [core_state, hs] <;> exact ⟨by simp, by simp⟩
      have h1 := hm.keeps_core (fun hm hk => Move.into_timeWait hm ha hk) h0
      rw [core_state] at h1
      rcases hs with hs | hs <;> rw [hs] <;> cases hc : (c.step e).sk.state <;> simp_all [SaysFinAcked]
    · cases hc : c.sk.state <;> simp_all [SaysFinAcked]

/-- A FIN leaves the queue only by an ACK beyond its number. -/
theorem leaves (h : FinInv c) {e : Event} (ok : FinOk c e) {k : Skb} (hk : k ∈ c.sk.core.snd.queue) (hfin : k.fin)
    (hgone : k ∉ (c.step e).sk.core.snd.queue) : ∃ th data psh, e = .segment th data psh ∧
      (c.step e).sk.core.snd.una = th.ackSeq ∧ k.seq < th.ackSeq := by
  obtain ⟨es, hf, hm⟩ := Conn.step_moves h.ready e
  rcases h.place with hfree | ⟨-, hsent⟩
  · rw [hfree.queue k hk] at hfin
    cases hfin
  by_cases he : ∃ th data psh, e = .segment th data psh
  · obtain ⟨th, data, psh, rfl⟩ := he
    have h1 := hm.keeps
      (I := fun k' log => (c.act (.segment th data psh)).FinOk k' ∧ FinSent k' log ∧
        (k ∈ k'.snd.queue ∨ k'.snd.una = th.ackSeq ∧ k.seq < th.ackSeq))
      (fun hm ⟨hok, hk, hl⟩ => ⟨hok.move hm, hk.move hm nofun hok, hk.leaves hm hok hfin hl⟩) _
      ⟨h.finOk ok, hsent, .inl hk⟩
    exact ⟨th, data, psh, rfl, h1.2.2.resolve_left hgone⟩
  · refine absurd (hm.keeps_core (I := fun k' => k ∈ k'.snd.queue) (fun hm hk => hm.queue_kept ?_ hk) hk) hgone
    exact Conn.not_arrive fun th data psh h => he ⟨th, data, psh, h⟩

theorem opened {iss : U32} {s : TcpSock} (ho : Opened iss s) : FinInv { sk := s } := by
  obtain ⟨k, nxt, wnd, scale, cwnd, e, hk, hsnd, hfx, he⟩ := ho.syn
  refine ⟨Conn.ready_of_no_calls s, (fun h => by cases h), .inl ⟨?_, fun e' he' => ?_, fun k' hk' => ?_⟩⟩
  · cases ho with
    | active o iss => rw [activeOpen_core]; exact nofun
    | passive _ hl => rw [(tcpListen_core hl).1]; exact nofun
  · rw [hfx] at he'
    simp only [List.mem_cons, List.not_mem_nil, or_false] at he'
    rcases he' with rfl | rfl
    · exact hk.fin
    · exact he.isFin
  · rw [hsnd] at hk'
    rw [List.mem_singleton.mp hk']
    exact hk.fin

end FinInv

/-- **FIN acknowledgement.** In every run whose steps are `FinOk`: when a step
moves the connection from FIN_WAIT_1 to FIN_WAIT_2, from FIN_WAIT_1 or CLOSING
to TIME_WAIT, or finishes it from LAST_ACK, a FIN of ours has been queued and
`snd_una` is one past its number; and a FIN that leaves the queue does so by an
ACK beyond its number. -/
theorem fin_acknowledged {iss : U32} {s : TcpSock} (ho : Opened iss s) {es : List Event} {e : Event}
    (hm : Conn.Meets FinOk { sk := s } (es ++ [e])) :
    let c := Conn.run { sk := s } es
    (SaysFinAcked c.sk.state (c.step e).sk.state → ∃ k fl cwnd, .queued k fl cwnd ∈ (c.step e).sk.fx ∧ k.fin ∧
      (c.step e).sk.tcb.sndUna = k.seq + 1) ∧
    ∀ k ∈ c.sk.writeQueue, k.fin → (∀ k' ∈ (c.step e).sk.writeQueue, k'.fin → k'.seq ≠ k.seq) →
      ∃ th data psh, e = .segment th data psh ∧ (c.step e).sk.tcb.sndUna = th.ackSeq ∧ k.seq < th.ackSeq := by
  intro c
  obtain ⟨hm, ok, -⟩ := Machine.Meets.append.mp hm
  have h : FinInv c := Conn.run_meets (fun _ _ ok h => h.step ok) hm (FinInv.opened ho)
  refine ⟨fun hs => ?_, fun k hk hfin hgone => ?_⟩
  · by_cases he : ∃ th data psh, e = .segment th data psh
    · obtain ⟨th, data, psh, rfl⟩ := he
      obtain ⟨hsent, hu⟩ := h.segment_acked ok hs
      obtain ⟨k, fl, cwnd, hlog, hfin, hnxt, -⟩ := hsent.last
      exact ⟨k, fl, cwnd, hlog, hfin, hu.trans hnxt⟩
    · rw [h.not_acked ok fun th data psh h => he ⟨th, data, psh, h⟩] at hs
      cases hs
  · refine h.leaves ok (k := k.plain) (List.mem_map_of_mem hk) hfin fun hin => ?_
    obtain ⟨k', hk', heq⟩ := List.mem_map.mp hin
    have hf : k'.plain.fin = k.plain.fin := congrArg Skb.fin heq
    have hs : k'.plain.seq = k.plain.seq := congrArg Skb.seq heq
    exact hgone k' hk' (hf.trans hfin) hs

/-- Two bytes, both acknowledged before the close. -/
def closedRun : List Event := [synAckEvent, .write [1, 2], ackEvent 103, .close]

theorem fin_acknowledged_closed : SaysFinAcked (clientConn.run closedRun).sk.state
      ((clientConn.run closedRun).step (ackEvent 104)).sk.state ∧
    ∃ k fl cwnd, .queued k fl cwnd ∈ ((clientConn.run closedRun).step (ackEvent 104)).sk.fx ∧ k.fin ∧
      ((clientConn.run closedRun).step (ackEvent 104)).sk.tcb.sndUna = k.seq + 1 := by
  have hs : SaysFinAcked (clientConn.run closedRun).sk.state
      ((clientConn.run closedRun).step (ackEvent 104)).sk.state := by decide +kernel
  exact ⟨hs, (fin_acknowledged (.active {} 100) (by decide +kernel)).1 hs⟩

/-- The close follows the write, and the peer acknowledges the data. -/
def earlyRun : List Event := [synAckEvent, .write [1, 2, 3], .close]

/-- The ACK of the last byte takes the connection to FIN_WAIT_2, with `snd_una` the
number of the FIN. -/
theorem fin_taken_for_acknowledged : (clientConn.run earlyRun).sk.state = .finWait1 ∧
    ((clientConn.run earlyRun).step (ackEvent 104)).sk.state = .finWait2 ∧
    ((clientConn.run earlyRun).step (ackEvent 104)).sk.tcb.sndUna = 104 ∧
    ¬∃ k fl cwnd, .queued k fl cwnd ∈ ((clientConn.run earlyRun).step (ackEvent 104)).sk.fx ∧ k.fin ∧
      ((clientConn.run earlyRun).step (ackEvent 104)).sk.tcb.sndUna = k.seq + 1 := by
  have hlog : ∀ e ∈ ((clientConn.run earlyRun).step (ackEvent 104)).sk.fx, e.isFin = true →
      e = .queued { finSkb with seq := 104, endSeq := 104 } 3 2144 := by decide +kernel
  have hu : ((clientConn.run earlyRun).step (ackEvent 104)).sk.tcb.sndUna = 104 := by decide +kernel
  refine ⟨by decide +kernel, by decide +kernel, hu, ?_⟩
  rintro ⟨k, fl, cwnd, hk, hfin, huna⟩
  have heq := hlog _ hk hfin
  cases heq
  rw [hu] at huna
  cases huna

end LevelIp
