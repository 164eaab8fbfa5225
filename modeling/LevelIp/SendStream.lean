/-
What goes out on the wire against what was written: byte `i` of the buffers
`tcp_write` accepted has the number `iss + 1 + i`, and every segment is to
carry the bytes its number says.

Numbers are given once, by `tcp_queue_transmit_skb`, and kept with the skb. A
retransmission timeout puts `snd_una` on the head of the queue instead, which
is its own number only as long as no ACK falls inside it.
-/
import LevelIp.Sleepers
import LevelIp.Lib.Slice

namespace LevelIp

/-- `p` is what `W` holds at number `seq`, modulo 2^32. -/
def StreamAt (iss : U32) (W : List U8) (seq : U32) (p : List U8) : Prop :=
  ∃ i, BitVec.ofNat 32 i = seq - (iss + 1) ∧ Slice.At W i p

section

variable {iss : U32} {W : List U8} {seq : U32} {p : List U8}

theorem StreamAt.nil : StreamAt iss W seq [] :=
  ⟨(seq - (iss + 1)).toNat, by rw [BitVec.ofNat_toNat, BitVec.setWidth_eq], Slice.At.nil⟩

theorem StreamAt.of_nil (h : p = []) : StreamAt iss W seq p := h ▸ .nil

theorem StreamAt.mono (h : StreamAt iss W seq p) (T : List U8) : StreamAt iss (W ++ T) seq p := by
  by_cases hp : p = []
  · exact .of_nil hp
  · obtain ⟨i, hi, hat⟩ := h
    exact ⟨i, hi, hat.mono T (hat.length_le hp)⟩

/-- What comes next after `sent`. -/
theorem streamAt_next (iss : U32) (sent p rest : List U8) :
    StreamAt iss (sent ++ (p ++ rest)) (iss + 1 + BitVec.ofNat 32 sent.length) p := by
  refine ⟨sent.length, by simp, ?_⟩
  rw [← List.append_assoc]
  exact (Slice.at_end sent p).mono rest (by simp)

end

/-! ## Moves other than sending -/

/-- What an act may bring: no skb with data waits at number 0 when a segment
comes, a timeout finds the head of the queue at `snd_una`, and a closer that
has slept finds the connection closing. -/
def Act.StreamOk (c : Core) : Act → Prop
  | .arrive c₀ th skb => c₀.Heard th skb → ∀ k ∈ c.snd.queue, k.seq = 0 → k.payload.bytes = []
  | .fire (.retransmissionTimeout _) true =>
    ∀ k, c.snd.queue.head? = some k → k.payload.bytes = [] ∨ k.seq = c.snd.una
  | .finish false => c.state.shut
  | _ => True

/-- What `tcp_send_next` leaves in the queue was there, or has no data. -/
theorem SendNext.mem {r : RcvSide} {d d' : SndSide} {es : List Effect} (h : SendNext r d es d')
    (h0 : ∀ k ∈ d.queue, k.seq = 0 → k.payload.bytes = []) {k : Skb} (hk : k ∈ d'.queue) :
    k.payload.bytes = [] ∨ ∃ k₀ ∈ d.queue, k₀.seq = k.seq ∧ k₀.payload = k.payload := by
  obtain ⟨k₀, hk₀, hren⟩ := renum_mem h.queue hk
  rcases hren with rfl | ⟨hz, n, rfl⟩
  · exact .inr ⟨k, hk₀, rfl, rfl⟩
  · exact .inl (h0 k₀ hk₀ hz)

/-- Every skb in the queue was there before, or has no data. -/
theorem Move.queue_mem {a : Act} {c c' : Core} {es : List Effect} (hm : Move a c es c') (ha : a ≠ .send)
    (ho : a.StreamOk c) {k : Skb} (hk : k ∈ c'.snd.queue) :
    k.payload.bytes = [] ∨ ∃ k₀ ∈ c.snd.queue, k₀.seq = k.seq ∧ k₀.payload = k.payload := by
  have old : ∀ {k}, k ∈ c.snd.queue → k.payload.bytes = [] ∨ ∃ k₀ ∈ c.snd.queue, k₀.seq = k.seq ∧ k₀.payload = k.payload :=
    fun {k} hk => .inr ⟨k, hk, rfl, rfl⟩
  cases hm with
  | ack => exact old ((List.dropWhile_sublist _).subset hk)
  | sendNext hh hn => exact hn.mem (ho hh) hk
  | connect =>
    refine old ?_
    simp only [SndSide.opened, SndSide.synAcked] at hk
    split at hk
    · exact (List.dropWhile_sublist _).subset hk
    · exact hk
  | simultaneous | queueFin =>
    rcases List.mem_append.mp hk with hk | hk
    · exact old hk
    · rw [List.mem_singleton.mp hk]
      exact .inl rfl
  | data | spin => exact absurd rfl ha
  | _ => exact old hk

/-- Every segment a move sends has no data, or is an skb of the queue with its number. -/
theorem Move.wire {a : Act} {c c' : Core} {es : List Effect} (hm : Move a c es c') (ha : a ≠ .send)
    (ho : a.StreamOk c) (hs : c.state = .synSent → ∀ k ∈ c.snd.queue, k.payload.bytes = []) {seg : Seg} {n : Nat}
    (he : .xmit seg n ∈ es) :
    seg.payload.bytes = [] ∨ ∃ k ∈ c.snd.queue, seg.seq = k.seq ∧ seg.payload = k.payload := by
  cases hm with
  | quiet h | reset _ h | ack _ _ _ _ h | userTimeout h | abort h => exact .inl (h _ he).1
  | resend h =>
    obtain ⟨k, hk, hs⟩ := h _ he
    exact .inr ⟨k, hk, hs.1, hs.2.1⟩
  | sendNext hh h =>
    obtain ⟨k, hk, hz, n, hs⟩ := h.emits _ he
    rw [hs.2.1]
    exact .inl (ho hh k hk hz)
  | fin _ _ _ _ _ _ _ h =>
    rcases List.mem_cons.mp he with h0 | he
    · cases h0
    · exact .inl (h _ he).1
  | connect _ _ _ _ h => exact .inl (h _ he).1
  | @resendHead _ _ _ k _ hc hk h =>
    rw [List.mem_singleton] at he
    subst he
    have hmem := List.mem_of_head? hk
    rw [h.1, h.2.1]
    rcases hc with ⟨rfl, hst⟩ | rfl
    · exact .inl (hs hst k hmem)
    · rcases ho k hk with h0 | h0
      · exact .inl h0
      · exact .inr ⟨k, hmem, h0.symm, rfl⟩
  | simultaneous _ _ _ _ h | queueFin _ _ _ _ h =>
    simp only [List.mem_cons, List.not_mem_nil, or_false, reduceCtorEq, false_or] at he
    subst he
    rw [h.2.1]
    exact .inl rfl
  | data | spin => exact absurd rfl ha
  | rst | establish | fault | finWait2 | timeWait | lastAck | finAgain | inOrder | outOfOrder | refused | giveUp
  | finSent | finResent | linger | closeRefused | closeDone | closeStart | dequeue | eof =>
    simp at he

/-- What an act may bring stays so along its moves. -/
theorem Act.StreamOk.move {a : Act} {c c' : Core} {es : List Effect} (ho : a.StreamOk c) (hm : Move a c es c') :
    a.StreamOk c' := by
  cases a with
  | arrive c₀ th skb =>
    intro hh k hk hz
    rcases hm.queue_mem nofun ho hk with h0 | ⟨k₀, hk₀, hseq, hp⟩
    · exact h0
    · rw [← hp]
      exact ho hh k₀ hk₀ (hseq.trans hz)
  | fire h live =>
    cases hm with
    | userTimeout | linger => trivial
    | queueFin _ ha => exact ha.elim
    | giveUp hg =>
      rcases hg with ⟨rfl, -⟩ | rfl
      · trivial
      · exact ho
    | _ => exact ho
  | finish lastAck =>
    cases lastAck with
    | false => exact hm.shut ho
    | true => trivial
  | _ => trivial

/-- The queue and the wire carry what `W` holds; nothing is written in SYN_SENT. -/
structure Streams (iss : U32) (W : List U8) (c : Core) (log : List Effect) : Prop where
  wire : ∀ {seg n}, .xmit seg n ∈ log → StreamAt iss W seg.seq seg.payload.bytes
  queue : ∀ k ∈ c.snd.queue, StreamAt iss W k.seq k.payload.bytes
  opening : c.state = .synSent → W = []

namespace Streams

variable {iss : U32} {W : List U8} {a : Act} {c c' : Core} {log es : List Effect}

theorem queue_nil (h : Streams iss W c log) (hs : c.state = .synSent) {k : Skb} (hk : k ∈ c.snd.queue) :
    k.payload.bytes = [] := by
  obtain ⟨i, -, hat⟩ := h.queue k hk
  rw [h.opening hs, Slice.At, List.drop_nil] at hat
  exact List.prefix_nil.mp hat

theorem move (h : Streams iss W c log) (hm : Move a c es c') (ha : a ≠ .send) (ho : a.StreamOk c) :
    Streams iss W c' (log ++ es) where
  wire {seg n} he := by
    rcases List.mem_append.mp he with he | he
    · exact h.wire he
    · rcases hm.wire ha ho (fun hs k hk => h.queue_nil hs hk) he with h0 | ⟨k, hk, hseq, hp⟩
      · exact .of_nil h0
      · rw [hseq, hp]
        exact h.queue k hk
  queue k hk := by
    rcases hm.queue_mem ha ho hk with h0 | ⟨k₀, hk₀, hseq, hp⟩
    · exact .of_nil h0
    · rw [← hseq, ← hp]
      exact h.queue k₀ hk₀
  opening hs := h.opening (hm.synSent hs)

/-- More is written. -/
theorem mono (h : Streams iss W c log) (T : List U8) (hs : c.state ≠ .synSent) : Streams iss (W ++ T) c log :=
  ⟨fun he => (h.wire he).mono T, fun k hk => (h.queue k hk).mono T, fun h0 => absurd h0 hs⟩

end Streams

/-! ## Where the next byte goes -/

/-- `snd_nxt` is `n` and no FIN is queued. -/
def Core.Level (n : U32) (c : Core) : Prop := c.snd.nxt = n ∧ ∀ k ∈ c.snd.queue, k.fin = false

/-- `tcp_write` will not take another byte of an active opener. -/
def Core.Quits (c : Core) : Prop := c.fault ∨ c.state.shut ∨ c.ptsk.isSome ∨ c.state = .synReceived

/-- SYN_RECEIVED is left for ESTABLISHED only with a parent, or with a fault. -/
theorem Move.quits_synReceived {a : Act} {c c' : Core} {es : List Effect} (hm : Move a c es c')
    (h : c.state = .synReceived) : c'.Quits := by
  cases hm with
  | establish _ _ hp => exact .inr (.inr (.inl (by simp [hp])))
  | fault => exact .inl rfl
  | reset hs | finWait2 _ hs | timeWait _ hs | lastAck _ hs | finAgain hs | refused hs | connect hs | simultaneous hs
  | finSent _ _ hs | finResent _ _ hs | closeStart hs | eof hs => rw [h] at hs; cases hs
  | fin _ _ _ _ _ _ hs => exact absurd h hs
  | rst | giveUp | linger | userTimeout | abort | closeDone => exact .inr (.inl rfl)
  | queueFin lastAck =>
    cases lastAck
    · exact .inr (.inr (.inr h))
    · exact .inr (.inl rfl)
  | _ => exact .inr (.inr (.inr h))

theorem Move.quits {a : Act} {c c' : Core} {es : List Effect} (hm : Move a c es c') (h : c.Quits) : c'.Quits := by
  rcases h with h | h | h | h
  · exact .inl (hm.fault_mono h)
  · exact .inr (.inl (hm.shut h))
  · exact .inr (.inr (.inl (by rw [hm.ptsk]; exact h)))
  · exact hm.quits_synReceived h

/-- `snd_nxt` stays, unless a SYN or a FIN takes a number: then no byte follows. -/
theorem Move.level {a : Act} {c c' : Core} {es : List Effect} {n : U32} (hm : Move a c es c') (ha : a ≠ .send)
    (ho : a.StreamOk c) (h : c.Level n) : c'.Level n ∨ c'.Quits ∧ (c.state = .synSent ∨ ∃ b, a.Fins c b) := by
  obtain ⟨hn, hf⟩ := h
  cases hm with
  | ack => exact .inl ⟨hn, fun k hk => hf k ((List.dropWhile_sublist _).subset hk)⟩
  | sendNext hh hs =>
    refine .inl ⟨?_, fun k hk => ?_⟩
    · rw [← hn]
      exact hs.nxt fun k hk hz => ⟨ho hh k hk hz, hf k hk⟩
    · obtain ⟨k₀, hk₀, hren⟩ := renum_mem hs.queue hk
      have hk₀ := hf k₀ hk₀
      rcases hren with rfl | ⟨-, m, rfl⟩
      · exact hk₀
      · exact hk₀
  | @connect _ th =>
    refine .inl ⟨?_, fun k hk => ?_⟩
    · rw [← hn]
      exact synAcked_nxt c.snd th
    · simp only [SndSide.opened, SndSide.synAcked] at hk
      split at hk
      · exact hf k ((List.dropWhile_sublist _).subset hk)
      · exact hf k hk
  | simultaneous hs => exact .inr ⟨.inr (.inr (.inr rfl)), .inl hs⟩
  | queueFin lastAck hfin =>
    refine .inr ⟨.inr (.inl ?_), .inr ⟨lastAck, hfin⟩⟩
    cases lastAck with
    | true => rfl
    | false =>
      cases a with
      | close => exact (congrArg TcpState.shut hfin : c.state.shut = _)
      | finish b => cases hfin; exact ho
      | _ => exact hfin.elim
  | data | spin => exact absurd rfl ha
  | _ => exact .inl ⟨hn, hf⟩

/-! ## Sending -/

/-- `s` has sent all of `W` but `rest`, which comes next. -/
structure Sending (iss : U32) (W : List U8) (s : TcpSock) (rest : List U8) : Prop where
  streams : Streams iss W s.core s.fx
  state : s.state ≠ .synSent
  level : ∃ sent, W = sent ++ rest ∧ s.core.Level (iss + 1 + BitVec.ofNat 32 sent.length)

namespace Sending

variable {iss : U32} {W : List U8} {s : TcpSock} {rest : List U8}

theorem quiet {t : TcpSock} (h : Sending iss W s rest) (hq : Quiet s t) : Sending iss W t rest := by
  obtain ⟨sent, hW, hl⟩ := h.level
  obtain ⟨es, hf, hp⟩ := hq.logs
  refine ⟨?_, by rw [hq.state]; exact h.state, sent, hW, hq.core ▸ hl⟩
  rw [hf, hq.core]
  exact h.streams.move (a := .idle) (.quiet hp) nofun trivial

/-- One chunk is numbered, queued and sent. -/
theorem queue {chunk : Payload} (h : Sending iss W s (chunk.bytes ++ rest)) (last : Bool) :
    Sending iss W (tcpQueueTransmitSkb s (dataSkb chunk last)) rest := by
  obtain ⟨sent, hW, hn, hfin⟩ := h.level
  obtain ⟨e, hf, he⟩ := tcpQueueTransmitSkb_fx s (dataSkb chunk last)
  have hc := tcpQueueTransmitSkb_core s (dataSkb chunk last)
  have hat : StreamAt iss W s.core.snd.nxt chunk.bytes := by
    rw [hW, hn]
    exact streamAt_next iss sent chunk.bytes rest
  refine ⟨⟨?_, ?_, ?_⟩, ?_, sent ++ chunk.bytes, ?_, ?_, ?_⟩
  · intro seg n hx
    rw [hf] at hx
    rcases List.mem_append.mp hx with hx | hx
    · exact h.streams.wire hx
    · simp only [List.mem_cons, List.not_mem_nil, or_false, reduceCtorEq, false_or] at hx
      subst hx
      rw [he.1, he.2.1]
      exact hat
  · intro k hk
    rw [hc] at hk
    rcases List.mem_append.mp hk with hk | hk
    · exact h.streams.queue k hk
    · rw [List.mem_singleton.mp hk]
      exact hat
  · intro hs
    exact absurd ((tcpQueueTransmitSkb_state s _).symm.trans hs) h.state
  · rw [tcpQueueTransmitSkb_state]
    exact h.state
  · rw [hW, List.append_assoc]
  · rw [hc]
    have hadd : (s.core.snd.enqueue (dataSkb chunk last)).nxt = s.core.snd.nxt + chunk.len := rfl
    rw [hadd, hn, Payload.len, List.length_append, BitVec.ofNat_add, BitVec.add_assoc]
  · intro k hk
    rw [hc] at hk
    rcases List.mem_append.mp hk with hk | hk
    · exact hfin k hk
    · rw [List.mem_singleton.mp hk]
      rfl

/-- How `tcp_send` may leave the rest of its buffer. -/
def Leaves (iss : U32) (W : List U8) (t : TcpSock) : Outcome → Prop
  | .ret _ => Sending iss W t []
  | .sleep call => ∃ mss chunk rest len, call = .send mss chunk rest len ∧ Sending iss W t (chunk.bytes ++ rest)
  | .spin => Streams iss W t.core t.fx ∧ t.state ≠ .synSent

/-- The loop of `tcp_send` sends its buffer in order. -/
theorem loop (mss : U16) (len fuel : Nat) (h : Sending iss W s rest) :
    Leaves iss W (tcpSendLoop mss len fuel s rest).1 (tcpSendLoop mss len fuel s rest).2 := by
  induction fuel generalizing s rest with
  | zero =>
    cases rest with
    | nil => exact h.quiet (quiet_tcpRearmUserTimeout s)
    | cons b rest => exact ⟨h.streams, h.state⟩
  | succ fuel ih =>
    cases rest with
    | nil => exact h.quiet (quiet_tcpRearmUserTimeout s)
    | cons b rest =>
      have h' : Sending iss W s ((Payload.ofTake mss (b :: rest)).bytes ++ (b :: rest).drop mss.toNat) := by
        rw [Payload.ofTake_bytes, List.take_append_drop]
        exact h
      rw [tcpSendLoop]
      split
      · exact ih (h'.queue _)
      · exact ⟨_, _, _, _, rfl, h'⟩

end Sending

/-! ## Runs -/

/-- The condition on a step. A segment finds no data at number 0 in the queue;
a write that is taken is on an active opener and overtakes no sleeping writer,
and neither does the FIN of a close; a live timeout finds the head of the queue
without data or at `snd_una`. -/
def SendOk (c : Conn) : Event → Prop
  | .segment th data psh => c.sk.core.Heard th (tcpInitSegment th data psh) →
      ∀ k ∈ c.sk.writeQueue, k.seq = 0 → k.payload.bytes = []
  | .write buf => tcpWriteAccepts c.sk → buf ≠ [] → c.sk.ptsk = none ∧ c.senders = 0
  | .close => c.queuesFin .close → c.senders = 0
  | .resume i => c.queuesFin (.resume i) → c.senders = 0
  | .handler i => c.sk.spawned[i]? = some (.retransmissionTimeout c.sk.rtoEpoch) →
      ∀ k ∈ c.sk.writeQueue.head?, k.payload.bytes = [] ∨ k.seq = c.sk.tcb.sndUna
  | .read _ | .abort | .dispatch _ | .tick _ | .fcntl _ | .adjustPmtu6 _ => True

instance (c : Conn) (e : Event) : Decidable (SendOk c e) :=
  match e with
  | .segment .. | .write _ | .read _ | .close | .abort | .resume _ | .dispatch _ | .handler _ | .tick _ | .fcntl _
  | .adjustPmtu6 _ => by unfold SendOk; infer_instance

/-- The invariant of a connection: what is queued and sent agrees with what was
written, at most one writer sleeps, and the next byte is the one it holds. -/
structure StreamInv (iss : U32) (c : Conn) : Prop where
  streams : Streams iss c.written c.sk.core c.sk.fx
  ready : c.Ready
  one : c.senders ≤ 1
  closing : .fin false ∈ c.calls → c.sk.state.shut
  place : (∃ sent, c.written = sent ++ c.unsent ∧ c.sk.core.Level (iss + 1 + BitVec.ofNat 32 sent.length)) ∨
    c.senders = 0 ∧ c.sk.core.Quits

namespace StreamInv

variable {iss : U32} {c : Conn}

theorem senders_synSent (h : c.Ready) (hs : c.sk.state = .synSent) : c.senders = 0 := by
  simp only [Conn.senders, List.countP_eq_zero]
  intro call hc
  obtain ⟨len, got, rfl⟩ := h hs call hc
  simp [Call.sending]

/-- An event that sends no data keeps the invariant. -/
theorem other (h : StreamInv iss c) {e : Event} (ha : c.act e ≠ .send) (ho : (c.act e).StreamOk c.sk.core)
    (hfin : c.queuesFin e → c.senders = 0) : StreamInv iss (c.step e) := by
  obtain ⟨hw, ⟨hcount, hunsent⟩, -⟩ := Conn.step_rests ha
  have hsend : (c.step e).senders = c.senders := hcount
  obtain ⟨es, hf, hm⟩ := Conn.step_moves h.ready e
  have hstreams : Streams iss c.written (c.step e).sk.core (c.sk.fx ++ es) :=
    (hm.keeps (I := fun k log => Streams iss c.written k log ∧ (c.act e).StreamOk k)
      (fun hm ⟨hk, ho⟩ => ⟨hk.move hm ha ho, ho.move hm⟩) _ ⟨h.streams, ho⟩).1
  have hquits : c.sk.core.Quits → (c.step e).sk.core.Quits := hm.keeps_core fun hm hk => hm.quits hk
  refine ⟨by rw [hf, hw]; exact hstreams, Conn.step_ready h.ready e, by rw [hsend]; exact h.one,
    Conn.step_closing h.ready h.closing e, ?_⟩
  · rw [hw, hsend, Conn.unsent, hunsent]
    rcases h.place with ⟨sent, hsent, hl⟩ | ⟨h0, hq⟩
    · -- the place moves only if a SYN or FIN takes a number, and then nobody has a byte left
      by_cases hsnd : (c.step e).sk.core.snd = c.sk.core.snd
      · refine .inl ⟨sent, hsent, ?_⟩
        rw [Core.Level, hsnd]
        exact hl
      · have hlevel := hm.keeps_core
          (I := fun k => (k.Level (iss + 1 + BitVec.ofNat 32 sent.length) ∨ k.Quits ∧ c.senders = 0) ∧
            (c.act e).StreamOk k ∧ (k.state = .synSent → c.senders = 0))
          (fun {k es k'} hm ⟨hk, ho, hs⟩ => ?_) ⟨.inl hl, ho, senders_synSent h.ready⟩
        · rcases hlevel.1 with hl | ⟨hq, h0⟩
          · exact .inl ⟨sent, hsent, hl⟩
          · exact .inr ⟨h0, hq⟩
        · refine ⟨?_, ho.move hm, fun hk' => hs (hm.synSent hk')⟩
          rcases hk with hk | ⟨hq, h0⟩
          · rcases hm.level ha ho hk with hl | ⟨hq, hsyn | ⟨b, hb⟩⟩
            · exact .inl hl
            · exact .inr ⟨hq, hs hsyn⟩
            · refine .inr ⟨hq, hfin ?_⟩
              by_contra hqf
              exact hsnd (Conn.step_idle ⟨_, b, hb⟩ (by simpa using hqf)).snd
          · exact .inr ⟨hm.quits hq, h0⟩
    · exact .inr ⟨h0, hquits hq⟩

/-- A `tcp_send` has run or gone to sleep, with no other writer asleep. -/
theorem settle {r : TcpSock × Outcome} (hl : Sending.Leaves iss c.written r.1 r.2) (h0 : c.senders = 0)
    (hcl : .fin false ∈ c.calls → r.1.state.shut) : StreamInv iss (c.settle r) := by
  obtain ⟨t, o⟩ := r
  have hu : c.unsent = [] := unsent_of_no_senders h0
  cases o with
  | ret rc =>
    obtain ⟨hst, hs, sent, hW, hn⟩ := hl
    refine ⟨hst, fun h => absurd h hs, by rw [Conn.senders]; exact h0.le.trans (Nat.zero_le 1), hcl, .inl ⟨sent, ?_, hn⟩⟩
    exact hW.trans (congrArg _ hu.symm)
  | sleep call =>
    obtain ⟨mss, chunk, rest, len, rfl, hst, hs, sent, hW, hn⟩ := hl
    refine ⟨hst, fun h => absurd h hs, ?_, ?_, .inl ⟨sent, ?_, hn⟩⟩
    · have h0 : c.calls.countP Call.sending = 0 := h0
      simp [Conn.settle, Conn.senders, h0, Call.sending]
    · intro hc
      rcases List.mem_append.mp hc with hc | hc
      · exact hcl hc
      · cases List.mem_singleton.mp hc
    · have hu : c.calls.flatMap Call.unsent = [] := hu
      simp only [Conn.settle, Conn.unsent, List.flatMap_append, hu, List.flatMap_cons, List.flatMap_nil, Call.unsent,
        List.nil_append, List.append_nil]
      exact hW
  | spin =>
    obtain ⟨hst, hs⟩ := hl
    exact ⟨⟨hst.wire, hst.queue, hst.opening⟩, fun h => absurd h hs, h0.le.trans (Nat.zero_le 1), hcl,
      .inr ⟨h0, .inl rfl⟩⟩

theorem write (h : StreamInv iss c) {buf : List U8} (ok : SendOk c (.write buf)) : StreamInv iss (c.step (.write buf)) := by
  by_cases hf : c.sk.fault
  · rw [Conn.step, if_pos hf]
    exact h
  rw [Conn.step, if_neg hf]
  by_cases hacc : tcpWriteAccepts c.sk
  swap
  · simp only [tcpWrite, hacc, Bool.false_eq_true, if_false]
    exact h
  by_cases hb : buf = []
  · -- nothing to send: the user timer is set again
    subst hb
    have hs : c.sk.state ≠ .synSent := by
      rcases tcpWriteAccepts_state hacc with hs | hs <;> simp [hs]
    have hq := quiet_tcpRearmUserTimeout c.sk
    obtain ⟨es, hfx, hp⟩ := hq.logs
    have hstr : Streams iss c.written (tcpRearmUserTimeout c.sk).core (tcpRearmUserTimeout c.sk).fx := by
      rw [hfx, hq.core]
      exact h.streams.move (a := .idle) (.quiet hp) (by simp) trivial
    simp only [tcpWrite, hacc, if_true, tcpSend, List.length_nil, tcpSendLoop, Conn.settle, List.append_nil]
    refine ⟨hstr, fun h => absurd (hq.state.symm.trans h) hs, h.one, ?_, ?_⟩
    · intro hc
      rw [hq.state]
      exact h.closing hc
    · rw [hq.core]
      exact h.place
  · obtain ⟨hp, h0⟩ := ok hacc hb
    have hst := tcpWriteAccepts_state hacc
    have hs : c.sk.state ≠ .synSent := by
      rcases hst with hs | hs <;> simp [hs]
    have hns : c.sk.state.shut = false := by
      rcases hst with hs | hs <;> rw [hs] <;> rfl
    have hsending : Sending iss (c.written ++ buf) c.sk buf := by
      refine ⟨h.streams.mono buf hs, hs, c.written, rfl, ?_⟩
      rcases h.place with ⟨sent, hsent, hl⟩ | ⟨-, hq⟩
      · have hu : c.unsent = [] := unsent_of_no_senders h0
        rw [hu, List.append_nil] at hsent
        rw [hsent]
        exact hl
      · exfalso
        rcases hq with hq | hq | hq | hq
        · exact hf hq
        · exact absurd ((core_state c.sk ▸ hq : c.sk.state.shut = true)) (by simp [hns])
        · rw [show c.sk.core.ptsk = none from hp] at hq
          cases hq
        · have hq : c.sk.state = .synReceived := hq
          rcases hst with hs | hs <;> rw [hs] at hq <;> cases hq
    have hl := hsending.loop c.sk.smss buf.length buf.length
    have hw : tcpWrite c.sk buf = tcpSendLoop c.sk.smss buf.length buf.length c.sk buf := by
      simp only [tcpWrite, hacc, if_true]
      rfl
    simp only [hacc, if_true, hw]
    refine settle (c := { c with written := c.written ++ buf }) hl h0 ?_
    intro hc
    have := h.closing hc
    rw [hns] at this
    cases this

/-- A writer that has slept goes on. -/
theorem resumeWrite (h : StreamInv iss c) {i : Nat} {mss : U16} {chunk : Payload} {rest : List U8} {len : Nat}
    (hi : c.calls[i]? = some (.send mss chunk rest len)) :
    StreamInv iss ({ c with calls := c.calls.eraseIdx i }.settle (resumeSend c.sk (.send mss chunk rest len))) := by
  obtain ⟨pre, post, hcalls, he⟩ := getElem?_split hi
  have hone : (pre ++ .send mss chunk rest len :: post).countP Call.sending ≤ 1 := hcalls ▸ h.one
  simp only [List.countP_append, List.countP_cons, Call.sending, if_true] at hone
  have hpre : pre.countP Call.sending = 0 := by omega
  have hpost : post.countP Call.sending = 0 := by omega
  have hs : c.sk.state ≠ .synSent := by
    intro hs
    obtain ⟨_, _, hr⟩ := h.ready hs _ (List.mem_of_getElem? hi)
    cases hr
  have hu : c.unsent = chunk.bytes ++ rest := by
    rw [Conn.unsent, hcalls]
    simp [unsent_of_no_senders hpre, unsent_of_no_senders hpost, Call.unsent]
  have hsending : Sending iss c.written c.sk (chunk.bytes ++ rest) := by
    refine ⟨h.streams, hs, ?_⟩
    rcases h.place with ⟨sent, hsent, hl⟩ | ⟨h0, -⟩
    · exact ⟨sent, hu ▸ hsent, hl⟩
    · exfalso
      rw [Conn.senders, hcalls] at h0
      simp [Call.sending] at h0
  have hleaves : Sending.Leaves iss c.written (resumeSend c.sk (.send mss chunk rest len)).1
      (resumeSend c.sk (.send mss chunk rest len)).2 := by
    rw [resumeSend]
    split
    · exact (hsending.queue _).loop mss len rest.length
    · exact ⟨mss, chunk, rest, len, rfl, hsending⟩
  refine settle (c := { c with calls := c.calls.eraseIdx i }) hleaves ?_ ?_
  · rw [Conn.senders, he, List.countP_append, hpre, hpost]
  · intro hc
    have hc : Call.fin false ∈ c.calls := List.mem_of_mem_eraseIdx hc
    have hshut := h.closing hc
    have hmv : SockMoves .send c.sk (resumeSend c.sk (.send mss chunk rest len)).1 := by
      rw [resumeSend]
      split
      next ho =>
        exact (queueData_moves _ hs ho).trans
          (tcpSendLoop_moves _ _ _ (by rw [tcpQueueTransmitSkb_state]; exact hs) _)
      next => exact .refl _
    obtain ⟨es, -, hm⟩ := hmv
    exact hm.keeps_core (I := fun k => k.state.shut) (fun hm hk => hm.shut hk) hshut

/-- What `SendOk` says of the act. -/
theorem streamOk (h : StreamInv iss c) {e : Event} (ok : SendOk c e) : (c.act e).StreamOk c.sk.core := by
  cases e with
  | segment th data psh =>
    intro hh k hk hz
    obtain ⟨k₀, hk₀, rfl⟩ := List.mem_map.mp hk
    exact ok hh k₀ hk₀ hz
  | resume i =>
    simp only [Conn.act]
    split
    case h_4 lastAck hi =>
      cases lastAck with
      | false => exact h.closing (List.mem_of_getElem? hi)
      | true => trivial
    all_goals trivial
  | handler i =>
    simp only [Conn.act]
    split
    · trivial
    next hd hi =>
      cases hd with
      | retransmissionTimeout n =>
        cases hl : (Handler.retransmissionTimeout n).live c.sk with
        | false => trivial
        | true =>
          have hn : n = c.sk.rtoEpoch := of_decide_eq_true hl
          subst hn
          intro k hk
          have hk : (c.sk.writeQueue.map Skb.plain).head? = some k := hk
          rw [List.head?_map] at hk
          obtain ⟨k₀, hk₀, rfl⟩ := Option.map_eq_some_iff.mp hk
          exact ok hi k₀ hk₀
      | _ => trivial
  | _ => trivial

/-- **Every step that is `SendOk` keeps the invariant.** -/
theorem step (h : StreamInv iss c) {e : Event} (ok : SendOk c e) : StreamInv iss (c.step e) := by
  by_cases ha : c.act e = .send
  · by_cases hf : c.sk.fault
    · rw [Conn.step_of_fault hf]
      exact h
    cases e with
    | write buf => exact h.write ok
    | resume i =>
      cases hi : c.calls[i]? with
      | none => simp only [Conn.act, hi] at ha; cases ha
      | some call =>
        cases call with
        | send mss chunk rest len =>
          rw [Conn.step, if_neg hf]
          simp only [Conn.resume, hi]
          exact h.resumeWrite hi
        | _ => simp only [Conn.act, hi] at ha; cases ha
    | handler i =>
      simp only [Conn.act] at ha
      split at ha <;> cases ha
    | _ => cases ha
  · refine h.other ha (h.streamOk ok) fun hq => ?_
    cases e with
    | close | resume i => exact ok hq
    | _ => cases hq

/-- A connection that has just been opened. -/
theorem opened {s : TcpSock} (ho : Opened iss s) : StreamInv iss { sk := s } := by
  obtain ⟨k, nxt, wnd, scale, cwnd, e, hk, hsnd, hfx, he⟩ := ho.syn
  have hstreams : Streams iss [] s.core s.fx := by
    refine ⟨fun {seg n} hx => ?_, fun k' hk' => ?_, fun _ => rfl⟩
    · rw [hfx] at hx
      simp only [List.mem_cons, List.not_mem_nil, or_false, reduceCtorEq, false_or] at hx
      subst hx
      rw [he.2.1, hk.payload]
      exact .nil
    · rw [hsnd, SndSide.start] at hk'
      rw [List.mem_singleton.mp hk', hk.payload]
      exact .nil
  refine ⟨hstreams, Conn.ready_of_no_calls s, Nat.zero_le 1, (fun h => by cases h), ?_⟩
  cases ho with
  | active o iss =>
    refine .inl ⟨[], rfl, ?_⟩
    rw [Core.Level, activeOpen_core]
    refine ⟨?_, fun k' hk' => ?_⟩
    · simp [SndSide.start]
    · rw [List.mem_singleton.mp hk']
      rfl
  | passive _ hl =>
    refine .inr ⟨rfl, .inr (.inr (.inl ?_))⟩
    rw [(tcpListen_core hl).1]
    rfl

end StreamInv

/-- **Sender stream integrity.** In every run whose steps are `SendOk`, every
segment on the wire carries what was written at its number. -/
theorem send_stream {iss : U32} {s : TcpSock} (ho : Opened iss s) {es : List Event}
    (hm : Conn.Meets SendOk { sk := s } es) {seg : Seg} {n : Nat}
    (hx : .xmit seg n ∈ (Conn.run { sk := s } es).sk.fx) :
    StreamAt iss (Conn.run { sk := s } es).written seg.seq seg.payload.bytes := by
  have h : StreamInv iss (Conn.run { sk := s } es) :=
    Conn.run_meets (fun _ _ ok h => h.step ok) hm (StreamInv.opened ho)
  exact h.streams.wire hx

/-- The timer expires before the ACK, and the connection is closed after more data. -/
def resentRun : List Event :=
  [synAckEvent, .write [1, 2, 3, 4], .dispatch 0, .handler 0, ackEvent 105, .write [5, 6], .close]

theorem send_stream_resent : (clientConn.run resentRun).written = [1, 2, 3, 4, 5, 6] ∧
    ∀ seg n, .xmit seg n ∈ (clientConn.run resentRun).sk.fx →
      StreamAt 100 [1, 2, 3, 4, 5, 6] seg.seq seg.payload.bytes := by
  have hw : (clientConn.run resentRun).written = [1, 2, 3, 4, 5, 6] := by decide +kernel
  refine ⟨hw, fun seg n hx => ?_⟩
  rw [← hw]
  exact send_stream (.active {} 100) (by decide +kernel) hx

/-- An ACK falls inside the one queued segment, and then the timer expires. -/
def midAckRun : List Event := [synAckEvent, .write [1, 2, 3, 4], ackEvent 103, .dispatch 2, .handler 0]

/-- The segment the timer sends: bytes 0 to 3 with the number of byte 2. -/
def midAckSeg : Seg :=
  { sport := 0, dport := 0, seq := 103, ackSeq := 501, fin := false, syn := false, rst := false, psh := true
    ack := true, win := 44477, opts := [], payload := ⟨[1, 2, 3, 4], by decide⟩ }

theorem send_stream_midAck : (clientConn.run midAckRun).written = [1, 2, 3, 4] ∧
    .xmit midAckSeg 0 ∈ (clientConn.run midAckRun).sk.fx ∧
    ¬StreamAt 100 [1, 2, 3, 4] midAckSeg.seq midAckSeg.payload.bytes := by
  refine ⟨by decide +kernel, by decide +kernel, ?_⟩
  rintro ⟨i, hi, hat⟩
  have hl := hat.length_le (by simp [midAckSeg])
  have h0 : i = 0 := by
    simp only [midAckSeg, List.length_cons, List.length_nil] at hl
    omega
  subst h0
  cases hi

end LevelIp
