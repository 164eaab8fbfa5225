/-
The socket a listener forks for the SYN of a connecting one, hearing nothing
but what that one has sent. `rcv_nxt` stays between two of the opener's
segments, so that what is acknowledged cuts none; what the readers have and
what is queued for them is the data of the list up to `rcv_nxt`, and all of it
once the FIN is taken.

A FIN may be taken twice and the state left by a reset: neither adds a byte.
-/
import LevelIp.FinOnce
import LevelIp.OfoOrder
import LevelIp.ReceiveStream
import LevelIp.SendLedger

namespace LevelIp

open Layout

/-! ## What the moves send -/

/-- A segment acknowledges what `rcv_nxt` is once it is sent. -/
theorem Move.ackSeq {a : Act} {c c' : Core} {es : List Effect} (hm : Move a c es c') {seg : Seg} {unread : Nat}
    (he : .xmit seg unread ∈ es) : seg.ackSeq = c'.rcv.nxt := by
  have plain : ∀ {k : Core} {l : List Effect}, (∀ e ∈ l, k.Plain e) → .xmit seg unread ∈ l → seg.ackSeq = k.rcv.nxt :=
    fun h hl => (h _ hl).2.2.2.2.1
  have sends : ∀ {r : RcvSide} {k : Skb} {n : U32}, r.Sends k n (.xmit seg unread) → seg.ackSeq = r.nxt :=
    fun h => h.2.2.2.2.2.2.2.1
  cases hm with
  | quiet h | reset _ h | ack _ _ _ _ h | userTimeout h | abort h => exact plain h he
  | resend h =>
    obtain ⟨k, -, hk⟩ := h _ he
    exact sends hk
  | sendNext _ h =>
    obtain ⟨k, -, -, n, hk⟩ := h.emits _ he
    exact sends hk
  | fin _ _ _ _ _ _ _ h =>
    rcases List.mem_cons.mp he with h0 | he
    · cases h0
    · have ha := plain h he
      exact ha
  | connect _ _ _ _ h =>
    have ha := plain h he
    exact ha
  | resendHead _ _ h =>
    rw [List.mem_singleton] at he
    exact sends (he ▸ h)
  | simultaneous _ _ _ _ h | data _ _ h | queueFin _ _ _ _ h =>
    simp only [List.mem_cons, List.not_mem_nil, or_false, reduceCtorEq, false_or] at he
    exact sends (he ▸ h)
  | rst | establish | fault | finWait2 | timeWait | lastAck | finAgain | inOrder | outOfOrder | refused | giveUp
  | finSent | finResent | linger | spin | closeRefused | closeDone | closeStart | dequeue | eof =>
    simp at he

/-- Past SYN_SENT a segment with a SYN is one of the queue, sent again. -/
theorem Move.synAck {a : Act} {c c' : Core} {es : List Effect} (hm : Move a c es c') (hs : c.state ≠ .synSent)
    (hq : ∀ k ∈ c.snd.queue, k.syn → k.ack) {seg : Seg} {unread : Nat} (he : .xmit seg unread ∈ es) (hsyn : seg.syn) : seg.ack := by
  have plain : ∀ {k : Core} {l : List Effect}, (∀ e ∈ l, k.Plain e) → .xmit seg unread ∈ l → seg.ack := fun h hl => by
    rw [(h _ hl).2.1] at hsyn
    cases hsyn
  have sends : ∀ {r : RcvSide} {k : Skb} {n : U32}, (k.syn → k.ack) → r.Sends k n (.xmit seg unread) → seg.ack := fun hk h => by
    rw [h.2.2.2.2.2.1]
    exact hk (h.2.2.1 ▸ hsyn)
  cases hm with
  | quiet h | reset _ h | ack _ _ _ _ h | userTimeout h | abort h => exact plain h he
  | resend h =>
    obtain ⟨k, hk, h⟩ := h _ he
    exact sends (hq _ hk) h
  | sendNext _ h =>
    obtain ⟨k, hk, -, n, h⟩ := h.emits _ he
    exact sends (hq k hk) h
  | fin _ _ _ _ _ _ _ h =>
    rcases List.mem_cons.mp he with h0 | he
    · cases h0
    · have ha := plain h he
      exact ha
  | connect hs' | simultaneous hs' => exact absurd hs' hs
  | resendHead _ hk h =>
    rw [List.mem_singleton] at he
    exact sends (hq _ (List.mem_of_head? hk)) (he ▸ h)
  | data _ _ h | queueFin _ _ _ _ h =>
    simp only [List.mem_cons, List.not_mem_nil, or_false, reduceCtorEq, false_or] at he
    exact sends (fun h => absurd h Bool.false_ne_true) (he ▸ h)
  | rst | establish | fault | finWait2 | timeWait | lastAck | finAgain | inOrder | outOfOrder | refused | giveUp
  | finSent | finResent | linger | spin | closeRefused | closeDone | closeStart | dequeue | eof =>
    simp at he

theorem synAck_inherent : Skb.Inherent fun k => k.syn → k.ack where
  renum _ _ h := h
  plain h := h
  synAck _ := rfl
  fin h := by cases h

/-! ## The FIN -/

/-- How often a log marks a FIN as taken. -/
def finsTaken (log : List Effect) : Nat := log.count .peerFin

@[simp] theorem finsTaken_append (l l' : List Effect) : finsTaken (l ++ l') = finsTaken l + finsTaken l' := List.count_append

theorem finsTaken_eq_zero {l : List Effect} : finsTaken l = 0 ↔ .peerFin ∉ l := List.count_eq_zero

theorem Logs.finsTaken {s t : TcpSock} (h : Logs (· ≠ .peerFin) s t) : finsTaken t.fx = finsTaken s.fx := by
  obtain ⟨new, hf, hn⟩ := h
  have h0 : LevelIp.finsTaken new = 0 := finsTaken_eq_zero.mpr fun hm => hn _ hm rfl
  rw [hf, finsTaken_append, h0, Nat.add_zero]

/-- A FIN is taken by a move that changes the state and steps over its number. -/
theorem Move.takesFin {a : Act} {c c' : Core} {es : List Effect} (hm : Move a c es c') : finsTaken es = 0 ∨
    finsTaken es = 1 ∧ (∃ c₀ th skb, a = .arrive c₀ th skb ∧ th.fin ∧ skb.seq = c₀.rcv.nxt) ∧ c'.state.eos ∧
      c'.snd = c.snd ∧ c'.rcv = { c.rcv with nxt := c.rcv.nxt + 1 } := by
  by_cases hin : Effect.peerFin ∈ es
  · obtain ⟨heos, -⟩ := hm.peerFin hin
    have none : ∀ {k : Core} {l : List Effect}, (∀ e ∈ l, k.Plain e) → Effect.peerFin ∉ l := fun hp hm => hp _ hm
    cases hm with
    | fin _ hf hseq _ _ _ _ hp =>
      have h0 := finsTaken_eq_zero.mpr (none hp)
      refine .inr ⟨?_, ⟨_, _, _, rfl, hf, hseq⟩, heos, rfl, rfl⟩
      rw [finsTaken, List.count_cons_self]
      exact congrArg (· + 1) h0
    | quiet hp | reset _ hp | ack _ _ _ _ hp | connect _ _ _ _ hp | userTimeout hp | abort hp => exact absurd hin (none hp)
    | resend hp =>
      obtain ⟨k, -, hs⟩ := hp _ hin
      exact hs.elim
    | sendNext _ hn =>
      obtain ⟨k, -, -, n, hs⟩ := hn.emits _ hin
      exact hs.elim
    | resendHead _ _ hs =>
      rw [← List.mem_singleton.mp hin] at hs
      exact hs.elim
    | simultaneous _ _ _ _ hs | data _ _ hs | queueFin _ _ _ _ hs =>
      simp only [List.mem_cons, List.not_mem_nil, or_false, reduceCtorEq, false_or] at hin
      rw [← hin] at hs
      exact hs.elim
    | _ => simp at hin
  · exact .inl (finsTaken_eq_zero.mpr hin)

theorem finBit_finsTaken (s : TcpSock) (th : Tcphdr) (expected : Bool) :
    finsTaken (finBit s th expected).sock.fx ≤ finsTaken s.fx + 1 := by
  unfold finBit
  split
  · split
    case h_4 =>
      dsimp only [Ctl.sock]
      rw [finState_fx]
      generalize hu : TcpSock.emit _ .peerFin = u
      have hlog : Logs (· ≠ .peerFin) u ((tcpSendAck u).wakeup .recvWait) :=
        ((quiet_tcpSendAck u).trans (quiet_wakeup _ .recvWait)).logs.mono fun _ => plain_ne_peerFin
      rw [hlog.finsTaken, ← hu]
      show finsTaken (s.fx ++ [.peerFin]) ≤ _
      rw [finsTaken_append]
      exact Nat.le_refl _
    all_goals exact Nat.le_succ _
  · exact Nat.le_succ _

/-- **One segment brings one FIN at most.** -/
theorem segmentArrives_finsTaken (s : TcpSock) (th : Tcphdr) (skb : Skb) :
    finsTaken (segmentArrives s th skb).fx ≤ finsTaken s.fx + 1 := by
  have same : ∀ {t : TcpSock}, Logs (· ≠ .peerFin) s t → finsTaken t.fx ≤ finsTaken s.fx + 1 :=
    fun h => h.finsTaken.le.trans (Nat.le_succ _)
  by_cases hl : s.state.late
  · rw [segmentArrives_late hl]
    rcases tcpInputOtherwise_cases s th skb with ⟨-, he⟩ | ⟨-, -, he⟩ | ⟨-, he | he⟩
    · rw [he]
      have hmild : Effect.Mild (· ≠ .peerFin) := by constructor <;> simp
      have hsp : s.Spares (· ≠ .peerFin) := fun k _ r n e => sends_ne_peerFin
      have hl1 := (ackField_spared hmild hsp th skb).1
      cases ha : ackField s th skb with
      | ret t =>
        rw [ha] at hl1
        exact same hl1
      | next t =>
        rw [ha] at hl1
        rw [Ctl.andThen, afterAck_eq]
        have hl2 := hl1.trans (finAcked_logs t th)
        cases hb : finAcked t th with
        | ret u =>
          rw [hb] at hl2
          exact same hl2
        | next u =>
          rw [hb] at hl2
          have hx : finsTaken (segmentText u th skb).fx = finsTaken s.fx := (hl2.trans (segmentText_logs u th skb)).finsTaken
          have hb := finBit_finsTaken (segmentText u th skb) th (skb.seq = u.tcb.rcvNxt)
          rw [hx] at hb
          rw [Ctl.andThen, afterFin]
          cases hv : finBit (segmentText u th skb) th (skb.seq = u.tcb.rcvNxt) with
          | ret v =>
            rw [hv] at hb
            exact hb
          | next v =>
            rw [hv] at hb
            show finsTaken (ackData v th skb (skb.seq = u.tcb.rcvNxt)).fx ≤ _
            rw [(ackData_logs v th skb _).finsTaken]
            exact hb
    · rw [he]
      exact same (Logs.trans (.same (tcpEnterTimeWait_fx s)) (.emit (by intro h; cases h)))
    · rw [he]
      exact same (.refl s)
    · rw [he]
      exact same ((quiet_tcpSendAck s).logs.mono fun _ => plain_ne_peerFin)
  · refine same ?_
    unfold segmentArrives
    split
    next =>
      unfold tcpClosed
      split
      · exact .refl s
      · exact (tcpSendReset_logs s).mono fun _ => plain_ne_peerFin
    next => exact .refl s
    next hs => exact tcpSynsent_logs hs th
    next h1 h2 h3 => exact absurd ⟨h1, h2, h3⟩ hl

/-! ## What arrives -/

/-- The skb has no data, or is data of the list. -/
def Listed (l : List Skb) (skb : Skb) : Prop :=
  skb.payload.bytes = [] ∨ ∃ k ∈ l, k.fin = false ∧ skb.seq = k.seq ∧ skb.payload = k.payload

/-- `n` is past the SYN and between two segments of the list. -/
structure Stands (iss nxt : U32) (l : List Skb) (n : U32) : Prop where
  start : iss.toNat < n.toNat
  le : n.toNat ≤ nxt.toNat
  cut : Cut l n

section

variable {iss nxt n : U32} {l : List Skb} {skb : Skb}

theorem Listed.mono (h : Listed l skb) (m : List Skb) : Listed (l ++ m) skb :=
  h.imp_right fun h => by
    obtain ⟨k, hk, h⟩ := h
    exact ⟨k, List.mem_append_left m hk, h⟩

/-- Passing a segment of the list leads to where it ends. -/
theorem Listed.passed (hr : Recorded iss nxt l) (h : Listed l skb) (hn : Stands iss nxt l n) (hseq : skb.seq = n) :
    n.toNat ≤ (n + skb.dlen).toNat ∧ Stands iss nxt l (n + skb.dlen) := by
  rcases h with h | ⟨k, hk, hf, hs, hp⟩
  · rw [show n + skb.dlen = n from add_dlen (Payload.len_eq_zero.mpr h) n]
    exact ⟨Nat.le_refl _, hn⟩
  · have hlen := hr.spans k hk
    have hend : n + skb.dlen = k.endSeq := by
      have hd : skb.dlen.toNat = k.payload.bytes.length := by
        rw [Skb.dlen, hp]
        exact k.payload.len_toNat
      rw [← hs, hseq] at hlen
      apply BitVec.eq_of_toNat_eq
      rw [BitVec.toNat_add, hd, ← hlen]
      exact Nat.mod_eq_of_lt k.endSeq.isLt
    have hm := hr.contiguous.mem hk
    rw [span_data hf] at hm
    rw [← hs, hseq] at hlen hm
    have := hn.start
    rw [hend]
    exact ⟨by omega, by omega, by omega, hr.cut_end hk⟩

/-- The drain loop goes from segment to segment. -/
theorem ofoDrain_stands (hr : Recorded iss nxt l) {q : List Skb} (hq : ∀ k ∈ q, Listed l k) (hn : Stands iss nxt l n) :
    n.toNat ≤ (ofoDrain n q).1.toNat ∧ Stands iss nxt l (ofoDrain n q).1 := by
  induction q generalizing n with
  | nil => exact ⟨Nat.le_refl _, hn⟩
  | cons k q ih =>
    rw [ofoDrain]
    split
    next hk =>
      obtain ⟨hle, hst⟩ := (hq k List.mem_cons_self).passed hr hn hk.symm
      obtain ⟨hle', hst'⟩ := ih (fun x hx => hq x (List.mem_cons_of_mem k hx)) hst
      exact ⟨Nat.le_trans hle hle', hst'⟩
    next => exact ⟨Nat.le_refl _, hn⟩

theorem Stands.grow (h : Stands iss nxt l n) {nxt' : U32} {m : List Skb} (hr : Recorded iss nxt l) (hr' : Recorded iss nxt' (l ++ m)) :
    Stands iss nxt' (l ++ m) n := by
  have hs := hr'.contiguous.split.2
  rw [← hr.nxt_eq] at hs
  refine ⟨h.start, Nat.le_trans h.le hs.le, fun k hk hf => ?_⟩
  rcases List.mem_append.mp hk with hk | hk
  · exact h.cut k hk hf
  · exact .inl (Nat.le_trans h.le (hs.mem hk).1)

/-- What the list holds is what the stream holds. -/
theorem Listed.slice (hr : Recorded iss nxt l) (h : Listed l skb) :
    Slice.At (queueBytes l) (streamOffset iss skb.seq) skb.payload.bytes := by
  rcases h with h | ⟨k, hk, hf, hs, hp⟩
  · rw [h]
    exact .nil
  · obtain ⟨hge, -, hat⟩ := hr.data_slice hk hf
    have ho : streamOffset iss skb.seq = k.seq.toNat - (iss.toNat + 1) := by
      rw [hs, streamOffset]
      bv_omega
    rw [ho, hp]
    exact hat

end

/-! ## The heir -/

/-- The socket forked for the SYN `iss`, of which `l` is queued up to `nxt`. -/
structure Heir (iss nxt : U32) (l : List Skb) (c : Core) (log : List Effect) : Prop where
  state : c.state ≠ .synSent
  stands : Stands iss nxt l c.rcv.nxt
  ofo : ∀ k ∈ c.rcv.ofo, Listed l k
  queue : ∀ k ∈ c.snd.queue, k.syn → k.ack
  wire : ∀ {seg unread}, .xmit seg unread ∈ log → (seg.syn → seg.ack) ∧ seg.ackSeq.toNat ≤ c.rcv.nxt.toNat ∧ Cut l seg.ackSeq

/-- A segment the act brings has no FIN, and no data that is not on the list. -/
def Act.Brings (l : List Skb) (a : Act) : Prop := ∀ c₀ th skb, a = .arrive c₀ th skb → th.fin = false ∧ Listed l skb

section

variable {iss nxt : U32} {l : List Skb} {c c' : Core} {log es : List Effect} {a : Act} {out : List U8}

namespace Heir

theorem next (h : Heir iss nxt l c log) (hm : Move a c es c') (hst : Stands iss nxt l c'.rcv.nxt)
    (hle : c.rcv.nxt.toNat ≤ c'.rcv.nxt.toNat) (hofo : ∀ k ∈ c'.rcv.ofo, Listed l k) : Heir iss nxt l c' (log ++ es) := by
  refine ⟨fun hs => h.state (hm.synSent hs), hst, hofo, hm.queue_forall synAck_inherent (fun _ _ _ hs => absurd hs Bool.false_ne_true) h.queue,
    fun {seg unread} he => ?_⟩
  rcases List.mem_append.mp he with he | he
  · obtain ⟨h1, h2, h3⟩ := h.wire he
    exact ⟨h1, Nat.le_trans h2 hle, h3⟩
  · refine ⟨hm.synAck h.state h.queue he, ?_, ?_⟩ <;> rw [hm.ackSeq he]
    exact hst.cut

/-- **Step lemma** of the heir, for all but a FIN. -/
theorem move (h : Heir iss nxt l c log) (hr : Recorded iss nxt l) (hm : Move a c es c') (hb : a.Brings l) :
    Heir iss nxt l c' (log ++ es) ∧ c.rcv.nxt.toNat ≤ c'.rcv.nxt.toNat := by
  have hall : c.rcv.nxt.toNat ≤ c'.rcv.nxt.toNat ∧ Stands iss nxt l c'.rcv.nxt ∧ ∀ k ∈ c'.rcv.ofo, Listed l k := by
    have same : c.rcv.nxt.toNat ≤ c.rcv.nxt.toNat ∧ Stands iss nxt l c.rcv.nxt ∧ ∀ k ∈ c.rcv.ofo, Listed l k :=
      ⟨Nat.le_refl _, h.stands, h.ofo⟩
    cases hm with
    | inOrder _ _ _ _ hseq =>
      obtain ⟨hle, hst⟩ := (hb _ _ _ rfl).2.passed hr h.stands hseq
      obtain ⟨hle', hst'⟩ := ofoDrain_stands hr h.ofo hst
      exact ⟨Nat.le_trans hle hle', hst', fun k hk => h.ofo k (ofoDrain_subset hk)⟩
    | outOfOrder =>
      refine ⟨Nat.le_refl _, h.stands, fun k hk => ?_⟩
      rcases mem_tcpDataInsertOrdered hk with rfl | hk
      · exact (hb _ _ _ rfl).2
      · exact h.ofo k hk
    | fin _ hf => exact absurd hf (by simp [(hb _ _ _ rfl).1])
    | refused hs | connect hs | simultaneous hs => exact absurd hs h.state
    | lastAck | giveUp | linger | userTimeout | abort | closeDone => exact ⟨Nat.le_refl _, h.stands, by simp [Core.done, Core.reset]⟩
    | _ => exact same
  exact ⟨h.next hm hall.2.1 hall.1 hall.2.2, hall.1⟩

theorem grow (h : Heir iss nxt l c log) {nxt' : U32} {m : List Skb} (hr : Recorded iss nxt l) (hr' : Recorded iss nxt' (l ++ m)) :
    Heir iss nxt' (l ++ m) c log := by
  have hs := h.stands.grow hr hr'
  refine ⟨h.state, hs, fun k hk => (h.ofo k hk).mono m, h.queue, fun he => ?_⟩
  obtain ⟨h1, h2, h3⟩ := h.wire he
  refine ⟨h1, h2, fun k hk hf => ?_⟩
  rcases List.mem_append.mp hk with hk | hk
  · exact h3 k hk hf
  · have hn := hr'.contiguous.split.2
    rw [← hr.nxt_eq] at hn
    exact .inl (Nat.le_trans (Nat.le_trans h2 h.stands.le) (hn.mem hk).1)

end Heir

/-- What the readers of the heir have been given, `out`, and what is queued for
them: the stream up to `rcv_nxt`, or all of it once the FIN is taken. -/
structure Inherits (iss : U32) (l : List Skb) (out : List U8) (c : Core) (log : List Effect) : Prop where
  before : .peerFin ∉ log → InStream (queueBytes l) iss out c
  after : .peerFin ∈ log → c.state.eos ∧ (∃ k ∈ l, k.fin) ∧ out ++ queueBytes c.rcv.queue = queueBytes l

theorem Recorded.length_lt (hr : Recorded iss nxt l) : (queueBytes l).length < 2 ^ 32 := by
  have h := hr.dataEnd_le
  have hn := nxt.isLt
  rw [dataEnd] at h
  omega

/-- Past the end of the stream only a read changes what is queued. -/
theorem Move.queue_eos (hm : Move a c es c') (ha : a ≠ .read) (h : c.state.eos) : c'.rcv.queue = c.rcv.queue := by
  cases hm with
  | inOrder _ ht =>
    cases hs : c.state <;> simp [hs, TcpState.eos, TcpState.takesText] at h ht
  | dequeue => exact absurd rfl ha
  | _ => rfl

theorem Act.Brings.no_fin (hb : a.Brings l) (hm : Move a c es c') : .peerFin ∉ es := by
  rcases hm.takesFin with h0 | ⟨-, ⟨c₀, th, skb, ha, hf, -⟩, -⟩
  · exact finsTaken_eq_zero.mp h0
  · rw [(hb c₀ th skb ha).1] at hf
    cases hf

/-- **Step lemma** of what the heir is given, for all but reads and FINs. -/
theorem Inherits.move (h : Inherits iss l out c log) (hr : Recorded iss nxt l) (hm : Move a c es c') (hb : a.Brings l) (ha : a ≠ .read) :
    Inherits iss l out c' (log ++ es) := by
  have hno := hb.no_fin hm
  refine ⟨fun hn => ?_, fun hy => ?_⟩
  · have ho : a.OnStream (queueBytes l) iss := by
      cases a with
      | arrive c₀ th skb =>
        obtain ⟨hf, hl⟩ := hb _ _ _ rfl
        exact ⟨hf, hl.slice hr⟩
      | read => exact ha rfl
      | _ => trivial
    exact (h.before fun hin => hn (List.mem_append_left _ hin)).move hr.length_lt ho hm
  · have hin : .peerFin ∈ log := (List.mem_append.mp hy).resolve_right hno
    obtain ⟨heos, hk, hbytes⟩ := h.after hin
    exact ⟨hm.eos heos, hk, by rw [hm.queue_eos ha heos]; exact hbytes⟩

/-- The stream has grown. -/
theorem InStream.grow {S : List U8} {irs : U32} (h : InStream S irs out c) (T : List U8) : InStream (S ++ T) irs out c := by
  refine ⟨h.state, h.start, Nat.le_trans h.inside (by simp), ?_, fun k hk => ?_⟩
  · rw [h.bytes, List.take_append_of_le_length h.inside]
  · by_cases hp : k.payload.bytes = []
    · rw [hp]
      exact .nil
    · exact (h.ofo k hk).mono T ((h.ofo k hk).length_le hp)

theorem Inherits.grow (h : Inherits iss l out c log) {nxt' : U32} {m : List Skb} (hr' : Recorded iss nxt' (l ++ m)) :
    Inherits iss (l ++ m) out c log := by
  refine ⟨fun hn => ?_, fun hy => ?_⟩
  · rw [queueBytes_append]
    exact (h.before hn).grow _
  · obtain ⟨heos, ⟨k, hk, hf⟩, hbytes⟩ := h.after hy
    -- after a FIN come FINs
    have hm : queueBytes m = [] := hr'.fins_empty fun x hx => by
      refine ⟨List.mem_append_right _ hx, ?_⟩
      exact (List.pairwise_append.mp hr'.fins).2.2 k hk x hx hf
    refine ⟨heos, ⟨k, List.mem_append_left _ hk, hf⟩, ?_⟩
    rw [queueBytes_append, hm, List.append_nil]
    exact hbytes

/-- A segment without text leaves the receive side alone, but for its FIN. -/
theorem Move.rcv_textless {c₀ : Core} {th : Tcphdr} {skb : Skb} (hm : Move (.arrive c₀ th skb) c es c') (hs : c.state ≠ .synSent)
    (hp : th.psh = false) (hd : skb.dlen = 0) (h0 : finsTaken es = 0) :
    c'.rcv.nxt = c.rcv.nxt ∧ c'.rcv.queue = c.rcv.queue ∧ c'.rcv.irs = c.rcv.irs ∧ ∀ k ∈ c'.rcv.ofo, k ∈ c.rcv.ofo := by
  have no : ¬c₀.Accepts th skb := fun h => by
    have htext := h.2.2.2.2.2.2.2
    rw [hp, hd] at htext
    rcases htext with h | h
    · cases h
    · exact BitVec.lt_irrefl _ h
  cases hm with
  | inOrder hacc | outOfOrder hacc => exact absurd hacc no
  | fin =>
    rw [finsTaken, List.count_cons_self] at h0
    cases h0
  | refused hs' | connect hs' | simultaneous hs' => exact absurd hs' hs
  | lastAck => exact ⟨rfl, rfl, rfl, by simp [Core.done]⟩
  | _ => exact ⟨rfl, rfl, rfl, fun _ => id⟩

/-- A segment without text has arrived: its FIN has been taken or not. -/
structure FinHeard (iss nxt : U32) (l : List Skb) (log : List Effect) (th : Tcphdr) (skb : Skb) (c c' : Core) (new : List Effect) : Prop where
  heir : Heir iss nxt l c' (log ++ new)
  queue : c'.rcv.queue = c.rcv.queue
  irs : c'.rcv.irs = c.rcv.irs
  ofo : ∀ k ∈ c'.rcv.ofo, k ∈ c.rcv.ofo
  taken : finsTaken new = 0 ∧ c'.rcv.nxt = c.rcv.nxt ∨
    finsTaken new = 1 ∧ c'.rcv.nxt = c.rcv.nxt + 1 ∧ c'.state.eos ∧ th.fin ∧ skb.seq = c.rcv.nxt

/-- **Step lemma** of the heir for a FIN, which is numbered past the data. -/
theorem FinHeard.move {th : Tcphdr} {skb : Skb} {k k' : Core} {new es : List Effect}
    (h : FinHeard iss nxt l log th skb c k new) (hm : Move (.arrive c th skb) k es k') (hone : finsTaken (new ++ es) ≤ 1)
    (hp : th.psh = false) (hd : skb.dlen = 0)
    (hr : Recorded iss nxt l) (hn : th.fin → dataEnd iss l ≤ skb.seq.toNat ∧ skb.seq.toNat < nxt.toNat) :
    FinHeard iss nxt l log th skb c k' (new ++ es) := by
  rw [finsTaken_append] at hone
  rcases hm.takesFin with h0 | ⟨h1, ⟨c₀, th', skb', ha, hf, hseq⟩, heos, -, hrcv⟩
  · obtain ⟨hn', hq, hi, ho⟩ := hm.rcv_textless h.heir.state hp hd h0
    refine ⟨?_, hq.trans h.queue, hi.trans h.irs, fun x hx => h.ofo x (ho x hx), ?_⟩
    · rw [← List.append_assoc]
      exact h.heir.next hm (hn' ▸ h.heir.stands) (hn' ▸ Nat.le_refl _) fun x hx => h.heir.ofo x (ho x hx)
    · rw [finsTaken_append, h0, Nat.add_zero, hn']
      rcases h.taken with ht | ⟨ht, hnx, he, hf, hs⟩
      · exact .inl ht
      · exact .inr ⟨ht, hnx, hm.eos he, hf, hs⟩
  · cases ha
    have ht : finsTaken new = 0 ∧ k.rcv.nxt = c.rcv.nxt := by
      rcases h.taken with ht | ⟨ht, -⟩
      · exact ht
      · omega
    obtain ⟨hge, hlt⟩ := hn hf
    have hseq : skb.seq = k.rcv.nxt := hseq.trans ht.2.symm
    rw [hseq] at hge hlt
    have hsucc : (k.rcv.nxt + 1).toNat = k.rcv.nxt.toNat + 1 := by
      have := nxt.isLt
      bv_omega
    have hstart := h.heir.stands.start
    refine ⟨?_, by rw [hrcv]; exact h.queue, by rw [hrcv]; exact h.irs, by rw [hrcv]; exact h.ofo, .inr ⟨?_, ?_, heos, hf, ?_⟩⟩
    · rw [← List.append_assoc]
      refine h.heir.next hm ?_ ?_ (by rw [hrcv]; exact h.heir.ofo) <;> rw [hrcv]
      · exact ⟨by dsimp only; omega, by dsimp only; omega, hr.cut_beyond (by dsimp only; omega)⟩
      · dsimp only
        omega
    · rw [finsTaken_append, ht.1, h1]
    · rw [hrcv, ht.2]
    · exact hseq.trans ht.2

theorem FinHeard.mono {th : Tcphdr} {skb : Skb} (h : FinHeard iss nxt l log th skb c c' es) : c.rcv.nxt.toNat ≤ c'.rcv.nxt.toNat := by
  have hstart := h.heir.stands.start
  rcases h.taken with ⟨-, hn⟩ | ⟨-, hn, -⟩ <;> rw [hn] at hstart ⊢
  bv_omega

/-- **Run lemma** for a FIN: the moves of its arrival, with one FIN at most. -/
theorem Heir.fin_moves {th : Tcphdr} {skb : Skb} (h : Heir iss nxt l c log) (hm : Moves (.arrive c th skb) c es c')
    (hone : finsTaken es ≤ 1) (hp : th.psh = false) (hd : skb.dlen = 0)
    (hr : Recorded iss nxt l) (hn : th.fin → dataEnd iss l ≤ skb.seq.toNat ∧ skb.seq.toNat < nxt.toNat) :
    FinHeard iss nxt l log th skb c c' es := by
  have hall := hm.keeps (I := fun k new => finsTaken new ≤ 1 → FinHeard iss nxt l log th skb c k new)
    (fun {k new es k'} hm hk hone => ?_) [] (fun _ => ⟨by rw [List.append_nil]; exact h, rfl, rfl, fun _ => id, .inl ⟨rfl, rfl⟩⟩)
  · rw [List.nil_append] at hall
    exact hall hone
  · have hle : finsTaken new ≤ 1 := by
      rw [finsTaken_append] at hone
      omega
    exact (hk hle).move hm hone hp hd hr hn

/-- A FIN that arrives adds nothing to what the heir is given, and ends it. -/
theorem Inherits.fin {th : Tcphdr} {skb : Skb} (h : Inherits iss l out c log) (hf : FinHeard iss nxt l log th skb c c' es)
    (heos : c.state.eos → c'.state.eos) (hst : Stands iss nxt l c.rcv.nxt)
    (hn : th.fin → dataEnd iss l ≤ skb.seq.toNat ∧ ∃ k ∈ l, k.fin) :
    Inherits iss l out c' (log ++ es) := by
  refine ⟨fun hno => ?_, fun hy => ?_⟩
  · have h0 : finsTaken es = 0 := finsTaken_eq_zero.mpr fun hin => hno (List.mem_append_right _ hin)
    have hb := h.before fun hin => hno (List.mem_append_left _ hin)
    obtain ⟨-, hnx⟩ : finsTaken es = 0 ∧ c'.rcv.nxt = c.rcv.nxt := hf.taken.resolve_right fun ht => by omega
    exact ⟨hf.heir.state, hf.irs.trans hb.start, hnx ▸ hb.inside, by rw [hf.queue, hnx]; exact hb.bytes, fun k hk => hb.ofo k (hf.ofo k hk)⟩
  · rw [hf.queue]
    by_cases hin : .peerFin ∈ log
    · obtain ⟨he, hk, hbytes⟩ := h.after hin
      exact ⟨heos he, hk, hbytes⟩
    · have h1 : finsTaken es ≠ 0 := fun h0 => finsTaken_eq_zero.mp h0 ((List.mem_append.mp hy).resolve_left hin)
      obtain ⟨-, -, he, hfin, hseq⟩ := hf.taken.resolve_left fun ht => h1 ht.1
      obtain ⟨hge, hk⟩ := hn hfin
      refine ⟨he, hk, ?_⟩
      rw [(h.before hin).bytes]
      -- the FIN is in sequence, so all data is before it
      refine List.take_of_length_le ?_
      rw [hseq, dataEnd] at hge
      have ho : streamOffset iss c.rcv.nxt = c.rcv.nxt.toNat - (iss.toNat + 1) := by
        have := hst.start
        rw [streamOffset]
        bv_omega
      omega

end

/-! ## The heir event by event -/

/-- The heir, with what its readers have been given. -/
structure Heeds (iss nxt : U32) (l : List Skb) (c : Conn) : Prop where
  heir : Heir iss nxt l c.sk.core c.sk.fx
  stream : Inherits iss l c.delivered c.sk.core c.sk.fx

/-- The heir goes on, and takes back nothing it has acknowledged. -/
def HeedsOn (iss nxt : U32) (l : List Skb) (c c' : Conn) : Prop := Heeds iss nxt l c' ∧ c.sk.tcb.rcvNxt.toNat ≤ c'.sk.tcb.rcvNxt.toNat

namespace Heeds

variable {iss nxt : U32} {l : List Skb} {c : Conn}

theorem ready (h : Heeds iss nxt l c) : c.Ready := fun hs => absurd hs h.heir.state

theorem heir_moves {c c' : Core} {log es : List Effect} {a : Act} (h : Heir iss nxt l c log) (hr : Recorded iss nxt l)
    (hm : Moves a c es c') (hb : a.Brings l) : Heir iss nxt l c' (log ++ es) ∧ c.rcv.nxt.toNat ≤ c'.rcv.nxt.toNat :=
  hm.keeps (I := fun k log => Heir iss nxt l k log ∧ c.rcv.nxt.toNat ≤ k.rcv.nxt.toNat)
    (fun hm hk => by
      obtain ⟨hk', hle⟩ := hk.1.move hr hm hb
      exact ⟨hk', Nat.le_trans hk.2 hle⟩) _ ⟨h, Nat.le_refl _⟩

/-- An event other than a read that brings data or nothing. -/
theorem chain (h : Heeds iss nxt l c) (hr : Recorded iss nxt l) {e : Event} (hb : (c.act e).Brings l) (ha : c.act e ≠ .read) :
    HeedsOn iss nxt l c (c.step e) := by
  obtain ⟨es, hf, hm⟩ := Conn.step_moves h.ready e
  obtain ⟨-, hd⟩ := (c.step_reads e).resolve_right fun hr => ha hr.1
  obtain ⟨h1, hle⟩ := heir_moves h.heir hr hm hb
  have h2 := hm.keeps (fun hm hk => Inherits.move hk hr hm hb ha) _ h.stream
  exact ⟨⟨hf ▸ h1, by rw [hf, hd]; exact h2⟩, hle⟩

/-- A read. -/
theorem read (h : Heeds iss nxt l c) (hr : Recorded iss nxt l) {e : Event} (ha : c.act e = .read) (he : FromStream (queueBytes l) iss e) :
    HeedsOn iss nxt l c (c.step e) := by
  obtain ⟨es, hf, hm⟩ := Conn.step_moves h.ready e
  have hb : (c.act e).Brings l := fun _ _ _ harr => by rw [ha] at harr; cases harr
  obtain ⟨hheir, hle⟩ := heir_moves h.heir hr hm hb
  have hno := hm.keeps (I := fun _ log => .peerFin ∉ log) (fun hm hk hin => (List.mem_append.mp hin).elim hk (hb.no_fin hm)) []
    List.not_mem_nil
  have heos : c.sk.core.state.eos → (c.step e).sk.core.state.eos := hm.keeps_core fun hm h => hm.eos h
  obtain ⟨-, n, hd, hrcv⟩ := (c.step_reads e).resolve_left fun hn => hn.1 ha
  refine ⟨⟨hf ▸ hheir, ⟨fun hn => ?_, fun hy => ?_⟩⟩, hle⟩
  · exact (h.stream.before fun hin => hn (by rw [hf]; exact List.mem_append_left _ hin)).step hr.length_lt he
  · rw [hf] at hy
    obtain ⟨hs, hk, hbytes⟩ := h.stream.after ((List.mem_append.mp hy).resolve_right hno)
    refine ⟨heos hs, hk, ?_⟩
    have hq : (c.step e).sk.core.rcv.queue = (dequeueLoop n c.sk.receiveQueue).2.1 := congrArg RcvSide.queue hrcv
    rw [hq, hd, List.append_assoc, dequeueLoop_bytes]
    exact hbytes

/-- What happens at the heir's own end. -/
theorem own (h : Heeds iss nxt l c) (hr : Recorded iss nxt l) {e : Event} (he : e.own) : HeedsOn iss nxt l c (c.step e) := by
  have hseg : ∀ th data psh, e ≠ .segment th data psh := by
    rintro th data psh rfl
    cases he
  by_cases ha : c.act e = .read
  · refine h.read hr ha ?_
    cases e with
    | segment th data psh => exact absurd rfl (hseg th data psh)
    | _ => trivial
  · exact h.chain hr (fun c₀ th skb harr => absurd harr (Conn.not_arrive hseg c₀ th skb)) ha

/-- A segment of the opener. -/
theorem hears (h : Heeds iss nxt l c) (hr : Recorded iss nxt l) {seg : Seg} (hof : seg.Of iss nxt l) : HeedsOn iss nxt l c (c.hears seg) := by
  cases hof with
  | empty he =>
    refine h.chain hr (fun c₀ th skb harr => ?_) nofun
    cases harr
    exact ⟨he.fin, .inl he.payload⟩
  | data hk hf hseq hp hfin =>
    refine h.chain hr (fun c₀ th skb harr => ?_) nofun
    cases harr
    exact ⟨hfin, .inr ⟨_, hk, hf, hseq, hp⟩⟩
  | fin hk hf hp hpsh hge hlt =>
    obtain ⟨es, hfx, hm⟩ := Conn.step_moves h.ready (.segment seg.tcphdr seg.payload seg.psh)
    obtain ⟨-, hd⟩ := (c.step_reads (.segment seg.tcphdr seg.payload seg.psh)).resolve_right fun hr => by cases hr.1
    have hone : finsTaken es ≤ 1 := by
      have hle : finsTaken (c.hears seg).sk.fx ≤ finsTaken c.sk.fx + 1 := by
        rcases c.hears_sk seg with hs | hs <;> rw [hs]
        · exact Nat.le_succ _
        · exact segmentArrives_finsTaken _ _ _
      unfold Conn.hears at hle
      rw [hfx, finsTaken_append] at hle
      omega
    have hheard := h.heir.fin_moves hm hone hpsh (Payload.len_eq_zero.mpr hp) hr fun _ => ⟨hge, hlt⟩
    have heos : c.sk.core.state.eos → (c.hears seg).sk.core.state.eos := hm.keeps_core fun hm h => hm.eos h
    refine ⟨⟨?_, ?_⟩, hheard.mono⟩ <;> unfold Conn.hears <;> rw [hfx]
    · exact hheard.heir
    · rw [hd]
      exact h.stream.fin hheard heos h.heir.stands fun _ => ⟨hge, _, hk, hf⟩

/-- The list has grown. -/
theorem grow (h : Heeds iss nxt l c) {nxt' : U32} {m : List Skb} (hr : Recorded iss nxt l) (hr' : Recorded iss nxt' (l ++ m)) :
    Heeds iss nxt' (l ++ m) c := ⟨h.heir.grow hr hr', h.stream.grow hr'⟩

/-- The listener has forked the heir. -/
theorem forked {ls s : TcpSock} {th : Tcphdr} {env : SynEnv} (hl : tcpListen ls th env = some s) (hseq : th.seq = iss)
    (hr : Recorded iss nxt l) : Heeds iss nxt l { sk := s } := by
  obtain ⟨hc, cwnd, e, hf, he⟩ := tcpListen_core hl
  have hle := hr.contiguous.le
  have hone : (iss + 1).toNat = iss.toNat + 1 := by
    have := nxt.isLt
    bv_omega
  have hstands : Stands iss nxt l (iss + 1) := ⟨by omega, by omega, hr.cut_start (by omega)⟩
  have hrcv : s.core.rcv = RcvSide.forked th := congrArg Core.rcv hc
  have hnx : s.core.rcv.nxt = iss + 1 := by rw [hrcv, ← hseq]; rfl
  have hoff : streamOffset iss (iss + 1) = 0 := by simp [streamOffset]
  refine ⟨⟨?_, hnx ▸ hstands, ?_, ?_, fun {seg unread} hx => ?_⟩, ⟨fun _ => ⟨?_, ?_, ?_, ?_, ?_⟩, fun hin => ?_⟩⟩
  · rw [hc]
    intro h
    cases h
  · rw [hrcv]
    exact fun k hk => by cases hk
  · rw [hc]
    intro k hk _
    rw [List.mem_singleton.mp hk]
    rfl
  · rw [hf] at hx
    simp only [List.mem_cons, List.not_mem_nil, or_false, reduceCtorEq, false_or] at hx
    subst hx
    obtain ⟨-, -, -, -, -, hack, -, hseq', -⟩ := he
    have ha : seg.ackSeq = iss + 1 := by rw [hseq', ← hseq]; rfl
    rw [hnx, ha]
    exact ⟨fun _ => hack, Nat.le_refl _, hstands.cut⟩
  · rw [hc]
    intro h
    cases h
  · rw [hrcv]
    exact hseq
  · rw [hnx, hoff]
    exact Nat.zero_le _
  · rw [hnx, hoff, hrcv]
    rfl
  · rw [hrcv]
    exact fun k hk => by cases hk
  · rw [hf] at hin
    simp only [List.mem_cons, List.not_mem_nil, or_false, reduceCtorEq, false_or] at hin
    rw [← hin] at he
    exact he.elim

end Heeds

end LevelIp
