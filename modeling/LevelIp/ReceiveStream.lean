/-
In-order, exactly-once receive: whatever segments of the peer's stream arrive,
in whatever order and however cut up, what the readers have been given plus
what is queued for them is a prefix of that stream.

The out-of-order queue may hold overlapping segments in any order. That does
no harm: each agrees with the stream at its own number, and the drain loop only
takes one whose number is exactly `rcv_nxt`.
-/
import LevelIp.StepMoves
import LevelIp.Lib.Slice

namespace LevelIp

/-- Where in the peer's stream a sequence number lies: byte `i` is numbered
`irs + 1 + i`. -/
def streamOffset (irs seq : U32) : Nat := (seq - (irs + 1)).toNat

/-- An arriving segment has no SYN, RST or FIN and its payload is what the
stream `S` holds at its number; nothing is asked of the other events. -/
def FromStream (S : List U8) (irs : U32) : Event → Prop
  | .segment th data _ =>
    th.syn = false ∧ th.rst = false ∧ th.fin = false ∧ Slice.At S (streamOffset irs th.seq) data.bytes
  | .write _ | .read _ | .close | .abort | .resume _ | .dispatch _ | .handler _ | .tick _ | .fcntl _
  | .adjustPmtu6 _ => True

instance (S : List U8) (irs : U32) (e : Event) : Decidable (FromStream S irs e) :=
  match e with
  | .segment .. | .write _ | .read _ | .close | .abort | .resume _ | .dispatch _ | .handler _ | .tick _ | .fcntl _
  | .adjustPmtu6 _ => by unfold FromStream; infer_instance

/-- What an act other than a read may bring in. -/
def Act.OnStream (S : List U8) (irs : U32) : Act → Prop
  | .arrive _ th skb => th.fin = false ∧ Slice.At S (streamOffset irs skb.seq) skb.payload.bytes
  | .read => False
  | .fire _ _ | .abort | .send | .close | .finish _ | .idle => True

/-- The readers have `out`; with what is queued that is the stream up to `rcv_nxt`. -/
structure InStream (S : List U8) (irs : U32) (out : List U8) (c : Core) : Prop where
  state : c.state ≠ .synSent
  start : c.rcv.irs = irs
  inside : streamOffset irs c.rcv.nxt ≤ S.length
  bytes : out ++ queueBytes c.rcv.queue = S.take (streamOffset irs c.rcv.nxt)
  ofo : ∀ k ∈ c.rcv.ofo, Slice.At S (streamOffset irs k.seq) k.payload.bytes

section

variable {S : List U8} {irs : U32}

/-- Passing a payload of the stream moves the offset by its length, inside the stream. -/
theorem streamOffset_add (hS : S.length < 2 ^ 32) {seq : U32} {p : Payload} (hi : streamOffset irs seq ≤ S.length)
    (ha : Slice.At S (streamOffset irs seq) p.bytes) :
    streamOffset irs (seq + p.len) = streamOffset irs seq + p.bytes.length ∧
      streamOffset irs (seq + p.len) ≤ S.length := by
  have hle : streamOffset irs seq + p.bytes.length ≤ S.length := by
    rcases List.eq_nil_or_concat p.bytes with hp | ⟨_, _, hp⟩
    · simpa [hp] using hi
    · exact ha.length_le (by simp [hp])
  have heq : streamOffset irs (seq + p.len) = streamOffset irs seq + p.bytes.length := by
    have hl := p.len_toNat
    unfold streamOffset at *
    have hcomm : seq + p.len - (irs + 1) = seq - (irs + 1) + p.len := by bv_omega
    rw [hcomm, BitVec.toNat_add, hl]
    exact Nat.mod_eq_of_lt (by omega)
  exact ⟨heq, heq ▸ hle⟩

@[simp] theorem queueBytes_cons (k : Skb) (q : List Skb) : queueBytes (k :: q) = k.payload.bytes ++ queueBytes q := rfl

@[simp] theorem queueBytes_append (q q' : List Skb) : queueBytes (q ++ q') = queueBytes q ++ queueBytes q' :=
  List.flatMap_append

@[simp] theorem queueBytes_nil : queueBytes [] = [] := rfl

/-- The drain loop continues the stream from where it stands. -/
theorem ofoDrain_stream (hS : S.length < 2 ^ 32) {nxt : U32} {q : List Skb}
    (hi : streamOffset irs nxt ≤ S.length)
    (hq : ∀ k ∈ q, Slice.At S (streamOffset irs k.seq) k.payload.bytes) :
    streamOffset irs (ofoDrain nxt q).1 ≤ S.length ∧
    S.take (streamOffset irs nxt) ++ queueBytes (ofoDrain nxt q).2.1 = S.take (streamOffset irs (ofoDrain nxt q).1) ∧
    ∀ k ∈ (ofoDrain nxt q).2.2, k ∈ q := by
  induction q generalizing nxt with
  | nil => exact ⟨hi, by simp [ofoDrain], by simp [ofoDrain]⟩
  | cons k q ih =>
    rw [ofoDrain]
    split
    next hk =>
      have ha := hq k List.mem_cons_self
      rw [← hk] at ha
      obtain ⟨hadd, hin⟩ := streamOffset_add hS hi ha
      obtain ⟨h1, h2, h3⟩ := ih hin fun k' hk' => hq k' (List.mem_cons_of_mem _ hk')
      refine ⟨h1, ?_, fun k' hk' => List.mem_cons_of_mem _ (h3 k' hk')⟩
      refine Eq.trans ?_ h2
      rw [hadd, ← ha.take_append, List.append_assoc]
      rfl
    next => exact ⟨hi, by simp, fun _ h => h⟩

theorem mem_tcpDataInsertOrdered {skb k : Skb} {q : List Skb} (h : k ∈ tcpDataInsertOrdered skb q) :
    k = skb ∨ k ∈ q := by
  induction q with
  | nil => simpa [tcpDataInsertOrdered] using h
  | cons next rest ih =>
    rw [tcpDataInsertOrdered] at h
    split at h
    · split at h
      · rcases List.mem_cons.mp h with rfl | h
        · exact .inr List.mem_cons_self
        · exact (ih h).imp_right (List.mem_cons_of_mem _)
      · exact List.mem_cons.mp h
    · split at h
      · exact .inr h
      · rcases List.mem_cons.mp h with rfl | h
        · exact .inr List.mem_cons_self
        · exact (ih h).imp_right (List.mem_cons_of_mem _)

/-- An in-sequence segment, with what it lets out of the out-of-order queue. -/
theorem InStream.push (hS : S.length < 2 ^ 32) {out : List U8} {c : Core} {skb : Skb} (h : InStream S irs out c)
    (hseq : skb.seq = c.rcv.nxt) (ha : Slice.At S (streamOffset irs skb.seq) skb.payload.bytes) :
    InStream S irs out { c with rcv := c.rcv.push skb } := by
  rw [hseq] at ha
  obtain ⟨hadd, hin⟩ := streamOffset_add hS h.inside ha
  obtain ⟨h1, h2, h3⟩ := ofoDrain_stream hS hin h.ofo
  refine ⟨h.state, h.start, h1, ?_, fun k hk => h.ofo k (h3 k hk)⟩
  have hb := h.bytes
  have ht := ha.take_append
  rw [← hadd] at ht
  simp only [RcvSide.push, queueBytes_append, queueBytes_cons, queueBytes_nil, List.append_nil, Skb.dlen]
  rw [← h2, ← ht, ← hb]
  simp

/-- A move of anything but a read keeps the stream. -/
theorem InStream.move (hS : S.length < 2 ^ 32) {a : Act} {c c' : Core} {es : List Effect} {out : List U8}
    (ha : a.OnStream S irs) (hm : Move a c es c') (h : InStream S irs out c) : InStream S irs out c' := by
  cases hm with
  | inOrder _ _ _ _ hseq => exact h.push hS hseq ha.2
  | outOfOrder _ _ _ _ _ =>
    refine ⟨h.state, h.start, h.inside, h.bytes, fun k hk => ?_⟩
    rcases mem_tcpDataInsertOrdered hk with rfl | hk
    · exact ha.2
    · exact h.ofo k hk
  | fin _ hf => exact absurd hf (by simp [ha.1])
  | refused hs | connect hs | simultaneous hs => exact absurd hs h.state
  | dequeue | eof => exact ha.elim
  | lastAck | giveUp | linger | userTimeout | abort | closeDone =>
    exact ⟨by rintro ⟨⟩, h.start, h.inside, h.bytes, by simp [Core.done, Core.reset]⟩
  | queueFin lastAck =>
    refine ⟨?_, h.start, h.inside, h.bytes, h.ofo⟩
    cases lastAck
    · exact h.state
    · simp
  | rst | establish | fault | finWait2 | timeWait | finSent | finResent | closeStart =>
    exact ⟨by simp, h.start, h.inside, h.bytes, h.ofo⟩
  | quiet | reset | ack | resend | sendNext | finAgain | resendHead | data | spin | closeRefused =>
    exact ⟨h.state, h.start, h.inside, h.bytes, h.ofo⟩

/-- Dequeueing splits the queued bytes into those copied and those left. -/
theorem dequeueLoop_bytes (n : Nat) (q : List Skb) :
    (dequeueLoop n q).1 ++ queueBytes (dequeueLoop n q).2.1 = queueBytes q := by
  induction q generalizing n with
  | nil => rfl
  | cons k q ih =>
    rw [dequeueLoop]
    split
    · rfl
    · split
      · simp [ih]
      · simp [← List.append_assoc]

theorem act_onStream {c : Conn} {e : Event} (he : FromStream S irs e) (hr : c.act e ≠ .read) :
    (c.act e).OnStream S irs := by
  cases e with
  | segment th data psh => exact ⟨he.2.2.1, he.2.2.2⟩
  | read n => exact absurd rfl hr
  | resume i =>
    revert hr
    simp only [Conn.act]
    split
    · exact fun _ => trivial
    · exact fun hr => absurd rfl hr
    · exact fun _ => trivial
    · exact fun _ => trivial
  | handler i =>
    simp only [Conn.act]
    split <;> trivial
  | _ => trivial

theorem InStream.step (hS : S.length < 2 ^ 32) {c : Conn} {e : Event} (he : FromStream S irs e)
    (h : InStream S irs c.delivered c.sk.core) : InStream S irs (c.step e).delivered (c.step e).sk.core := by
  obtain ⟨es, -, hm⟩ := Conn.step_moves (fun hs => absurd hs h.state) e
  rcases c.step_reads e with ⟨hr, hd⟩ | ⟨hr, n, hd, hrcv⟩
  · rw [hd]
    exact hm.keeps_core (fun hm h => h.move hS (act_onStream he hr) hm) h
  · -- a read: the state stays, the queue loses what the reader gains
    have hst : (c.step e).sk.core.state ≠ .synSent := by
      rw [hr] at hm
      exact hm.keeps_core (I := fun k => k.state ≠ .synSent) (fun hm h hs => h (hm.synSent hs)) h.state
    have hrcv : (c.step e).sk.core.rcv = c.sk.core.rcv.dequeue n := hrcv
    refine ⟨hst, ?_, ?_, ?_, ?_⟩
    · rw [hrcv]; exact h.start
    · rw [hrcv]; exact h.inside
    · rw [hrcv, hd, List.append_assoc]
      exact (congrArg _ (dequeueLoop_bytes n _)).trans h.bytes
    · rw [hrcv]; exact h.ofo

end

/-- **In-order, exactly-once receive.** From a connection in ESTABLISHED,
FIN_WAIT_1 or FIN_WAIT_2 that has received nothing, through any run whose
segments agree with `S`: what the reads copied out, then what is unread, is
`S` up to `rcv_nxt`. -/
theorem receive_stream {S : List U8} (hS : S.length < 2 ^ 32) {c : Conn} (hst : c.sk.state.takesText)
    (hnxt : c.sk.tcb.rcvNxt = c.sk.tcb.irs + 1) (hq : c.sk.receiveQueue = []) (ho : c.sk.ofoQueue = [])
    (hd : c.delivered = []) {es : List Event} (hes : ∀ e ∈ es, FromStream S c.sk.tcb.irs e) :
    streamOffset c.sk.tcb.irs (c.run es).sk.tcb.rcvNxt ≤ S.length ∧
    (c.run es).delivered ++ (c.run es).sk.unread = S.take (streamOffset c.sk.tcb.irs (c.run es).sk.tcb.rcvNxt) := by
  have hoff : streamOffset c.sk.tcb.irs c.sk.core.rcv.nxt = 0 := by
    simp [streamOffset, TcpSock.core, TcpSock.rcv, hnxt]
  have h0 : InStream S c.sk.tcb.irs c.delivered c.sk.core := by
    refine ⟨?_, rfl, by omega, ?_, ?_⟩
    · intro h
      rw [show c.sk.state = .synSent from h] at hst
      exact absurd hst (by decide)
    · rw [hoff, hd]
      simp [TcpSock.core, TcpSock.rcv, hq]
    · simp [TcpSock.core, TcpSock.rcv, ho]
  have h : InStream S c.sk.tcb.irs (c.run es).delivered (c.run es).sk.core :=
    Conn.run_forall (I := fun d : Conn => InStream S c.sk.tcb.irs d.delivered d.sk.core)
      (fun _ _ he h => h.step hS he) hes h0
  exact ⟨h.inside, h.bytes⟩

/-- A connection that has just been established with a peer whose ISS is 500. -/
def establishedConn : Conn :=
  { sk := { state := .established
            tcb := { irs := 500, rcvNxt := 501, rcvWnd := 44477, realRcvWnd := 44477, sndNxt := 101, sndUna := 101 } } }

/-- The second half of a stream arrives first, and overlapping; the reads cut across segments. -/
def reorderedRun : List Event :=
  [.segment { seq := 503, ackSeq := 101, win := 1000, ack := true } ⟨[3, 4], by decide⟩ false,
   .segment { seq := 501, ackSeq := 101, win := 1000, ack := true } ⟨[1, 2], by decide⟩ false,
   .read 3,
   .segment { seq := 501, ackSeq := 101, win := 1000, ack := true } ⟨[1, 2, 3, 4, 5], by decide⟩ false]

theorem receive_stream_reordered :
    streamOffset 500 (establishedConn.run reorderedRun).sk.tcb.rcvNxt ≤ [1, 2, 3, 4, 5].length ∧
    (establishedConn.run reorderedRun).delivered ++ (establishedConn.run reorderedRun).sk.unread =
      [1, 2, 3, 4, 5].take (streamOffset 500 (establishedConn.run reorderedRun).sk.tcb.rcvNxt) :=
  receive_stream (S := [1, 2, 3, 4, 5]) (c := establishedConn) (by decide) rfl rfl rfl rfl rfl (by decide)

end LevelIp
