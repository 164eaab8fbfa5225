/-
One end of a handshake whose user sends nothing: a socket whose SYN, or
SYN-ACK, is not acknowledged yet, and one past that. Neither moves in sequence
space while it is open and hears no data.
-/
import LevelIp.OfoOrder
import LevelIp.PureAcks
import LevelIp.ReceiveStream
import LevelIp.Sleepers

namespace LevelIp

/-! ## Sockets that send no data -/

/-- The states on the way to ESTABLISHED, and that one. -/
def TcpState.opening : TcpState → Bool
  | .synSent | .synReceived | .established => true
  | .listen | .close | .finWait1 | .finWait2 | .closeWait | .closing | .lastAck | .timeWait => false

/-- No move leads back to a state of the opening. -/
theorem Move.opening {a : Act} {c c' : Core} {es : List Effect} (hm : Move a c es c') (h : c'.state.opening) :
    c.state.opening := by
  cases hm with
  | establish hs | fault hs | connect hs | simultaneous hs => rw [hs]; rfl
  | fin =>
    simp only [Core.finState] at h
    split at h
    case h_3 => split at h <;> cases h
    all_goals first | cases h | exact h
  | queueFin lastAck =>
    cases lastAck
    · exact h
    · cases h
  | _ => first | exact h | cases h

/-- A socket's own act that queues nothing: neither a segment nor a call that
sends. -/
def Act.own : Act → Bool
  | .arrive _ _ _ | .send | .finish _ => false
  | .fire _ _ | .abort | .close | .read | .idle => true

/-- The FIN of a `tcp_close` that has not slept goes out after the opening. -/
theorem Act.Fins.not_opening {a : Act} {c : Core} {lastAck : Bool} (h : a.Fins c lastAck) (ha : a.own) : ¬c.state.opening := by
  cases a with
  | close =>
    rw [show c.state = if lastAck then .closeWait else .finWait1 from h]
    cases lastAck <;> exact Bool.false_ne_true
  | finish => cases ha
  | _ => exact absurd h id

/-- An skb without data and FIN. -/
structure Skb.Empty (k : Skb) : Prop where
  payload : k.payload.bytes = []
  fin : k.fin = false

/-- A segment without data and FIN. -/
structure Seg.Empty (seg : Seg) : Prop where
  payload : seg.payload.bytes = []
  fin : seg.fin = false

theorem RcvSide.Sends.empty {r : RcvSide} {k : Skb} {n : U32} {seg : Seg} {unread : Nat} (h : r.Sends k n (.xmit seg unread))
    (hk : k.Empty) : seg.Empty :=
  ⟨by rw [h.2.1]; exact hk.payload, by rw [h.2.2.2.1]; exact hk.fin⟩

theorem Core.Plain.empty {c : Core} {seg : Seg} {unread : Nat} (h : c.Plain (.xmit seg unread)) : seg.Empty := ⟨h.1, h.2.2.1⟩

theorem Skb.Empty.dlen {k : Skb} (h : k.Empty) : k.dlen = 0 := Payload.len_eq_zero.mpr h.payload

theorem add_dlen {k : Skb} (h : k.dlen = 0) (n : U32) : n + k.dlen = n := by
  rw [h]
  exact BitVec.add_zero n

/-- Draining empty skbs does not advance. -/
theorem ofoDrain_empty {nxt : U32} {q : List Skb} (h : ∀ k ∈ q, k.dlen = 0) : (ofoDrain nxt q).1 = nxt := by
  induction q with
  | nil => rfl
  | cons k rest ih =>
    rw [ofoDrain]
    split
    · rw [add_dlen (h k List.mem_cons_self)]
      exact ih fun x hx => h x (List.mem_cons_of_mem k hx)
    · rfl

/-- A socket past SYN_SENT that has sent no data, at `snxt` and `rnxt`. -/
structure Core.Silent (snxt rnxt : U32) (c : Core) (log : List Effect) : Prop where
  past : c.state ≠ .synSent
  snd : c.snd.nxt = snxt
  rcv : c.rcv.nxt = rnxt
  queue : ∀ k ∈ c.snd.queue, k.Empty
  ofo : ∀ k ∈ c.rcv.ofo, k.dlen = 0
  log : ∀ seg unread, .xmit seg unread ∈ log → seg.Empty

/-- An act of the socket's own, or a segment that is empty. -/
def Act.Quiet (a : Act) : Prop := a.own ∨ ∃ c₀ th skb, a = .arrive c₀ th skb ∧ skb.dlen = 0 ∧ th.fin = false

theorem Skb.Renum.empty {k k' : Skb} (hr : k.Renum k') (h : k.Empty) : k'.Empty := by
  rcases hr with rfl | ⟨-, n, rfl⟩
  · exact h
  · exact ⟨h.payload, h.fin⟩

namespace Core.Silent

variable {snxt rnxt : U32} {c : Core} {log : List Effect}

/-- Only the log grows, by empty segments. -/
theorem logs (h : c.Silent snxt rnxt log) (es : List Effect) (he : ∀ seg unread, .xmit seg unread ∈ es → seg.Empty) :
    c.Silent snxt rnxt (log ++ es) :=
  { h with log := fun seg unread hm => (List.mem_append.mp hm).elim (h.log seg unread) (he seg unread) }

end Core.Silent

/-- **Step lemma**: while it is open, a socket that sends no data and hears none
stays where it is in both directions. -/
theorem Move.silent {a : Act} {c c' : Core} {es log : List Effect} {snxt rnxt : U32} (hm : Move a c es c') (ha : a.Quiet)
    (ho : c'.state.opening) (h : c.Silent snxt rnxt log) : c'.Silent snxt rnxt (log ++ es) := by
  have seg : ∀ {c₀ th skb}, a = .arrive c₀ th skb → skb.dlen = 0 ∧ th.fin = false := by
    intro c₀ th skb hs
    rcases ha with ha | ⟨c₁, th', skb', ha, hd, hf⟩
    · rw [hs] at ha
      cases ha
    · rw [hs] at ha
      cases ha
      exact ⟨hd, hf⟩
  have plain : ∀ {k : Core} {l : List Effect}, (∀ e ∈ l, k.Plain e) → ∀ seg unread, .xmit seg unread ∈ l → seg.Empty :=
    fun hp seg unread he => (hp _ he).empty
  cases hm with
  | quiet hp => exact h.logs _ (plain hp)
  | establish | fault => exact { h.logs _ (by simp) with past := by simp }
  | ack _ _ _ _ hp =>
    have h := h.logs _ (plain hp)
    exact { h with queue := fun k hk => h.queue k ((List.dropWhile_sublist _).mem hk) }
  | resend hr =>
    refine h.logs _ fun seg unread he => ?_
    obtain ⟨k, hk, hs⟩ := hr _ he
    exact hs.empty (h.queue k hk)
  | sendNext _ hn =>
    have h' := h.logs es fun seg unread he => by
      obtain ⟨k, hk, -, n, hs⟩ := hn.emits _ he
      exact hs.empty (h.queue k hk)
    refine { h' with snd := ?_, queue := fun k hk => ?_ }
    · exact (hn.nxt fun k hk _ => ⟨(h.queue k hk).payload, (h.queue k hk).fin⟩).trans h.snd
    · obtain ⟨k₀, hk₀, hr⟩ := renum_mem hn.queue hk
      exact hr.empty (h.queue k₀ hk₀)
  | inOrder =>
    obtain ⟨hd, -⟩ := seg rfl
    have h := h.logs [.wakeup .recvWait] (by simp)
    refine { h with rcv := ?_, ofo := fun k hk => h.ofo k (ofoDrain_subset hk) }
    simp only [RcvSide.push, add_dlen hd]
    rw [ofoDrain_empty h.ofo]
    exact h.rcv
  | outOfOrder =>
    obtain ⟨hd, -⟩ := seg rfl
    have h := h.logs [] (by simp)
    refine { h with ofo := fun k hk => ?_ }
    rcases mem_tcpDataInsertOrdered hk with rfl | hk
    · exact hd
    · exact h.ofo k hk
  | fin _ hf => rw [(seg rfl).2] at hf; cases hf
  | connect hs | simultaneous hs => exact absurd hs h.past
  | resendHead _ hk hs =>
    refine h.logs _ fun seg unread he => ?_
    rw [List.mem_singleton] at he
    rw [← he] at hs
    exact hs.empty (h.queue _ (List.mem_of_head? hk))
  | finResent hk hf => rw [(h.queue _ (List.mem_of_head? hk)).fin] at hf; cases hf
  | data | spin => rcases ha with ha | ⟨_, _, _, ha, -⟩ <;> cases ha
  | closeRefused | dequeue => exact { h.logs [] (by simp) with }
  | queueFin lastAck hfin =>
    rcases ha with ha | ⟨_, _, _, rfl, -⟩
    · have hno := hfin.not_opening ha
      cases lastAck
      · exact absurd ho hno
      · cases ho
    · exact absurd hfin id
  | reset hs | finAgain hs | eof hs =>
    have ho : c.state.opening := ho
    rw [hs] at ho
    cases ho
  | _ => cases ho

/-! ## Sockets whose SYN is not acknowledged -/

/-- A socket that has sent its SYN, numbered `iss`, or, if it is to `answer`
one, its SYN-ACK. -/
structure Core.Greets (answer : Bool) (iss snxt rnxt : U32) (c : Core) (log : List Effect) : Prop where
  state : c.state = if answer then .synReceived else .synSent
  wnd : c.rcv.wnd = tcpSelectInitialWindow
  number : c.snd.iss = iss
  una : c.snd.una = iss
  snd : c.snd.nxt = snxt
  rcv : c.rcv.nxt = rnxt
  queue : ∀ k ∈ c.snd.queue, k.Empty ∧ k.ack = answer
  ofo : ∀ k ∈ c.rcv.ofo, k.dlen = 0
  log : ∀ seg unread, .xmit seg unread ∈ log → seg.Empty ∧ seg.ackSeq = rnxt ∧ (seg.syn → seg.ack = answer ∧ seg.seq = iss)

namespace Core.Greets

variable {answer : Bool} {iss snxt rnxt : U32} {c : Core} {log : List Effect}

/-- A SYN queued and sent once. -/
theorem start {nxt wnd : U32} {scale : U8} {k q : Skb} {cwnd : U32} {e : Effect}
    (hst : c.state = if answer then .synReceived else .synSent) (hk : k.IsSyn) (ha : k.ack = answer)
    (hs : c.snd = SndSide.start iss nxt wnd scale k) (hr : c.rcv.nxt = rnxt) (hw : c.rcv.wnd = tcpSelectInitialWindow)
    (ho : c.rcv.ofo = []) (he : c.rcv.Sends k iss e) : c.Greets answer iss nxt rnxt [.queued q 0 cwnd, e] where
  state := hst
  wnd := hw
  number := by rw [hs]; rfl
  una := by rw [hs]; rfl
  snd := by rw [hs]; rfl
  rcv := hr
  queue x hx := by
    rw [hs] at hx
    rw [List.mem_singleton.mp hx]
    exact ⟨⟨by rw [hk.payload]; rfl, hk.fin⟩, ha⟩
  ofo x hx := by rw [ho] at hx; cases hx
  log seg unread hx := by
    simp only [List.mem_cons, List.not_mem_nil, or_false, reduceCtorEq, false_or] at hx
    subst hx
    obtain ⟨hseq, hp, hsyn, hf, -, hack, -, hst⟩ := he
    refine ⟨⟨by rw [hp, hk.payload]; rfl, by rw [hf, hk.fin]⟩, hst.1.trans hr, fun _ => ⟨hack.trans ha, hseq⟩⟩

theorem logs (h : c.Greets answer iss snxt rnxt log) (es : List Effect) (he : ∀ seg unread, .xmit seg unread ∈ es →
    seg.Empty ∧ seg.ackSeq = rnxt ∧ (seg.syn → seg.ack = answer ∧ seg.seq = iss)) : c.Greets answer iss snxt rnxt (log ++ es) :=
  { h with log := fun seg unread hm => (List.mem_append.mp hm).elim (h.log seg unread) (he seg unread) }

theorem plain {es : List Effect} (h : c.Greets answer iss snxt rnxt log) (hp : ∀ e ∈ es, c.Plain e) : c.Greets answer iss snxt rnxt (log ++ es) := by
  refine h.logs _ fun seg unread he => ?_
  have hx : c.Plain (.xmit seg unread) := hp _ he
  refine ⟨hx.empty, hx.2.2.2.2.1.trans h.rcv, fun hs => ?_⟩
  rw [hx.2.1] at hs
  cases hs

theorem silent (h : c.Greets true iss snxt rnxt log) : c.Silent snxt rnxt log where
  past := by rw [h.state]; decide
  snd := h.snd
  rcv := h.rcv
  queue k hk := (h.queue k hk).1
  ofo := h.ofo
  log seg unread hm := (h.log seg unread hm).1

end Core.Greets

/-- **Step lemma**: what the socket does by itself leaves its SYN where it is, and
only sends that again. -/
theorem Move.greets {a : Act} {c c' : Core} {es log : List Effect} {answer : Bool} {iss snxt rnxt : U32} (hm : Move a c es c')
    (ha : a.own) (ho : c'.state.opening) (h : c.Greets answer iss snxt rnxt log) :
    c'.Greets answer iss snxt rnxt (log ++ es) := by
  have hest : c.state ≠ .established := by
    rw [h.state]
    cases answer <;> decide
  cases hm with
  | quiet hp => exact h.plain hp
  | resendHead _ hk hs =>
    refine h.logs _ fun seg unread he => ?_
    rw [List.mem_singleton] at he
    rw [← he] at hs
    obtain ⟨hke, hka⟩ := h.queue _ (List.mem_of_head? hk)
    have he := hs.empty hke
    obtain ⟨hseq, -, -, -, -, hack, -, hst⟩ := hs
    exact ⟨he, hst.1.trans h.rcv, fun _ => ⟨hack.trans hka, hseq.trans h.una⟩⟩
  | finResent _ _ hs => exact absurd hs hest
  | closeRefused | dequeue => exact { h.logs [] (by simp) with }
  | queueFin lastAck hfin =>
    have hno := hfin.not_opening ha
    cases lastAck
    · exact absurd ho hno
    · cases ho
  | eof hs =>
    have ho : c.state.opening := ho
    rw [hs] at ho
    cases ho
  | _ => first | exact absurd ho Bool.false_ne_true | exact absurd ha Bool.false_ne_true

/-- **Step lemma**: what takes a connecting socket out of SYN_SENT, where no SYN
lacks an ACK, opens it at the number after the SYN's. -/
theorem Move.greeted {c c' : Core} {th : Tcphdr} {skb : Skb} {es log : List Effect} {iss snxt : U32}
    (hm : Move (.arrive c th skb) c es c') (hne : c'.state ≠ .synSent) (ho : c'.state.opening) (h : c.Greets false iss snxt 0 log)
    (ha : th.syn → th.ack) : th.syn ∧ iss < snxt ∧ c'.Silent snxt (th.seq + 1) (log ++ es) := by
  have hs : c.state = .synSent := h.state
  cases hm with
  | connect _ hsyn hok _ hp =>
    obtain ⟨hlt, -, hle⟩ := hok (ha hsyn)
    rw [h.number] at hlt
    rw [h.snd] at hle
    refine ⟨hsyn, by bv_omega, show TcpState.established ≠ .synSent by decide, ?_, rfl, ?_, h.ofo, fun seg unread hm => ?_⟩
    · exact (synAcked_nxt c.snd th).trans h.snd
    · intro k hk
      have hk : k ∈ (c.snd.synAcked th).queue := hk
      rw [SndSide.synAcked, if_pos (ha hsyn)] at hk
      exact (h.queue k ((List.dropWhile_sublist _).mem hk)).1
    · rcases List.mem_append.mp hm with hm | hm
      · exact (h.log seg unread hm).1
      · exact (hp _ hm).empty
  | simultaneous _ hsyn hno => rw [ha hsyn] at hno; cases hno
  | establish h' | fault h' => rw [hs] at h'; cases h'
  | fin _ _ _ _ _ h' => exact absurd hs h'
  | queueFin _ hfin => exact absurd hfin id
  | _ => first | exact absurd hs hne | exact absurd ho Bool.false_ne_true

/-! ## Steps of one end -/

/-- A `tcp_close` that sleeps is past the opening. -/
theorem tcpClose_sleep_state {s : TcpSock} {call : Call} (h : (tcpClose s).2 = .sleep call) : ¬(tcpClose s).1.state.opening := by
  unfold tcpClose at h ⊢
  split at h
  case h_10 =>
    rw [(tcpQueueFin_sleep h).2]
    exact Bool.false_ne_true
  case h_11 hs =>
    rw [(tcpQueueFin_sleep h).2, hs]
    exact Bool.false_ne_true
  all_goals cases h

/-- A `tcp_write` of nothing, or one that is refused. -/
theorem tcpWrite_nothing {s : TcpSock} (buf : List U8) (h : tcpWriteAccepts s → buf = []) :
    Quiet s (tcpWrite s buf).1 ∧ ∃ rc, (tcpWrite s buf).2 = .ret rc := by
  unfold tcpWrite
  split
  next ha =>
    rw [h ha]
    exact ⟨quiet_tcpRearmUserTimeout s, _, rfl⟩
  next => exact ⟨.refl s, _, rfl⟩

/-- An event that is not the arrival of a segment. -/
def Event.own : Event → Bool
  | .segment _ _ _ => false
  | .write _ | .read _ | .close | .abort | .resume _ | .dispatch _ | .handler _ | .tick _ | .fcntl _ | .adjustPmtu6 _ => true

/-- The socket past SYN_SENT, at `snxt` and `rnxt`, that has sent no data. -/
def TcpSock.Silent (snxt rnxt : U32) (s : TcpSock) : Prop := s.core.Silent snxt rnxt s.fx

/-- The socket whose SYN, or SYN-ACK, is not acknowledged. -/
def TcpSock.Greets (answer : Bool) (iss snxt rnxt : U32) (s : TcpSock) : Prop := s.core.Greets answer iss snxt rnxt s.fx

section

variable {answer : Bool} {iss snxt rnxt : U32} {s : TcpSock}

theorem TcpSock.Silent.sndNxt (h : s.Silent snxt rnxt) : s.tcb.sndNxt = snxt := h.snd

theorem TcpSock.Silent.rcvNxt (h : s.Silent snxt rnxt) : s.tcb.rcvNxt = rnxt := h.rcv

theorem TcpSock.Greets.stateEq (h : s.Greets answer iss snxt rnxt) : s.state = if answer then .synReceived else .synSent := h.state

end

theorem TcpSock.Silent.moves {snxt rnxt : U32} {s t : TcpSock} {a : Act} (h : s.Silent snxt rnxt) (hm : SockMoves a s t)
    (ha : a.Quiet) (ho : t.state.opening) : t.Silent snxt rnxt := by
  obtain ⟨es, hf, hm⟩ := hm
  unfold TcpSock.Silent
  rw [hf]
  exact hm.keeps (I := fun k log => k.state.opening → k.Silent snxt rnxt log)
    (fun hmv hk ho => hmv.silent ha ho (hk (hmv.opening ho))) s.fx (fun _ => h) ho

theorem TcpSock.Greets.moves {answer : Bool} {iss snxt rnxt : U32} {s t : TcpSock} {a : Act} (h : s.Greets answer iss snxt rnxt)
    (hm : SockMoves a s t) (ha : a.own) (ho : t.state.opening) : t.Greets answer iss snxt rnxt := by
  obtain ⟨es, hf, hm⟩ := hm
  unfold TcpSock.Greets
  rw [hf]
  exact hm.keeps (I := fun k log => k.state.opening → k.Greets answer iss snxt rnxt log)
    (fun hmv hk ho => hmv.greets ha ho (hk (hmv.opening ho))) s.fx (fun _ => h) ho

/-- A segment that does not acknowledge the SYN-ACK moves nothing in
SYN_RECEIVED, an RST apart. -/
theorem tcpInputOtherwise_unanswered {s : TcpSock} {th : Tcphdr} (skb : Skb) (hs : s.state = .synReceived)
    (hn : ackIsNew s th = false) : Quiet s (tcpInputOtherwise s th skb) ∨ (tcpInputOtherwise s th skb).state = .timeWait := by
  unfold tcpInputOtherwise
  split
  · split
    · exact .inl (quiet_tcpSendAck s)
    · exact .inl (.refl s)
  · split
    · exact .inr (congrArg Core.state (tcpEnterTimeWait_core s))
    · split
      · exact .inl (.refl s)
      · split
        · exact .inl (.refl s)
        · have hf : ackField s th skb = .ret s := by
            unfold ackField
            simp only [hs, hn, Bool.false_eq_true, if_false]
          rw [hf]
          exact .inl (.refl s)

namespace Conn

/-- Nobody but readers sleeps. -/
def Reading (c : Conn) : Prop := ∀ call ∈ c.calls, ∃ len got, call = .recv len got

/-- Opening or open, with nothing sent by its user. -/
def Fresh (c : Conn) : Prop := c.written = [] ∧ c.sk.state.opening

variable {c : Conn}

theorem Reading.ready (h : c.Reading) : c.Ready := fun _ => h

/-- Only `tcp_write` records what is sent, and only at the end. -/
theorem step_written (c : Conn) (e : Event) : ∃ buf, (c.step e).written = c.written ++ buf := by
  have same : ∃ buf, c.written = c.written ++ buf := ⟨[], (List.append_nil _).symm⟩
  unfold step
  split
  · exact same
  · cases e with
    | write buf =>
      dsimp only
      rw [settle_written]
      dsimp only
      split
      · exact ⟨buf, rfl⟩
      · exact same
    | read len =>
      dsimp only
      rw [settleRead_written]
      exact same
    | close =>
      dsimp only
      rw [settle_written]
      exact same
    | resume i =>
      simp only [resume]
      split
      · exact same
      · rw [settleRead_written]
        exact same
      · rw [settle_written]
        exact same
    | _ => exact same

/-- What is fresh after an event was so before. -/
theorem fresh_of_step (hr : c.Ready) {e : Event} (h : (c.step e).Fresh) : c.Fresh := by
  obtain ⟨hw, ho⟩ := h
  obtain ⟨buf, hb⟩ := step_written c e
  refine ⟨(List.append_eq_nil_iff.mp (hb ▸ hw)).1, ?_⟩
  obtain ⟨es, -, hm⟩ := step_moves hr e
  by_contra hno
  exact hm.keeps_core (I := fun k => ¬k.state.opening) (fun hmv hk h => hk (hmv.opening h)) hno ho

/-- **An event of its own** that leaves a fresh socket fresh is an act that
queues nothing, and puts only readers to sleep. -/
theorem Reading.own (hr : c.Reading) {e : Event} (he : e.own) (hf : (c.step e).Fresh) :
    (c.step e).Reading ∧ ∃ a : Act, a.own ∧ SockMoves a c.sk (c.step e).sk := by
  have hm := step_moves hr.ready e
  obtain ⟨hw, ho⟩ := hf
  unfold step at hm hw ho ⊢
  by_cases hfault : c.sk.fault
  · rw [if_pos hfault]
    exact ⟨hr, .idle, rfl, .refl _⟩
  · simp only [if_neg hfault] at hm hw ho ⊢
    cases e with
    | segment => cases he
    | write buf =>
      dsimp only at hw ⊢
      rw [settle_written] at hw
      obtain ⟨hq, rc, hrc⟩ := tcpWrite_nothing (s := c.sk) buf fun ha => by
        rw [if_pos ha] at hw
        exact (List.append_eq_nil_iff.mp hw).2
      have hset : ∀ c₀ : Conn, c₀.settle (tcpWrite c.sk buf) = { c₀ with sk := (tcpWrite c.sk buf).1 } := fun c₀ => by
        rw [settle, hrc]
      rw [hset]
      exact ⟨hr, .idle, rfl, .of_quiet hq⟩
    | read len => exact ⟨settleRead_forall hr fun call h => tcpRead_sleep h, _, rfl, hm⟩
    | close =>
      refine ⟨settle_forall hr fun call h => ?_, _, rfl, hm⟩
      rw [settle_close_sk (tcpClose_ne_spin _)] at ho
      exact absurd ho (tcpClose_sleep_state h)
    | resume i =>
      have he : ∀ call ∈ c.calls.eraseIdx i, ∃ len got, call = .recv len got :=
        fun call hm => hr call (List.mem_of_mem_eraseIdx hm)
      simp only [resume, act] at hm ⊢
      cases hi : c.calls[i]? with
      | none => exact ⟨hr, .idle, rfl, .refl _⟩
      | some call =>
        obtain ⟨len, got, rfl⟩ := hr call (List.mem_of_getElem? hi)
        rw [hi] at hm
        exact ⟨settleRead_forall he fun call h => tcpReceiveTurn_sleep h, .read, rfl, hm⟩
    | handler i =>
      refine ⟨hr, c.act (.handler i), ?_, hm⟩
      simp only [act]
      split <;> rfl
    | abort | dispatch | tick | fcntl | adjustPmtu6 => exact ⟨hr, _, rfl, hm⟩

/-- A segment of the peer arrives. -/
def hears (c : Conn) (seg : Seg) : Conn := c.step (.segment seg.tcphdr seg.payload seg.psh)

theorem hears_calls (c : Conn) (seg : Seg) : (c.hears seg).calls = c.calls := by
  unfold hears step
  split <;> rfl

theorem hears_sk (c : Conn) (seg : Seg) : (c.hears seg).sk = c.sk ∨
    (c.hears seg).sk = segmentArrives c.sk seg.tcphdr (tcpInitSegment seg.tcphdr seg.payload seg.psh) := by
  unfold hears step
  split
  · exact .inl rfl
  · exact .inr rfl

/-- An empty segment moves a silent socket in neither direction. -/
theorem hears_silent {snxt rnxt : U32} {seg : Seg} (h : c.sk.Silent snxt rnxt) (hr : c.Reading) (he : seg.Empty)
    (ho : (c.hears seg).sk.state.opening) : (c.hears seg).sk.Silent snxt rnxt :=
  h.moves (step_moves hr.ready _) (.inr ⟨_, _, _, rfl, Payload.len_eq_zero.mpr he.payload, he.fin⟩) ho

/-- A segment without an ACK number moves nothing in SYN_RECEIVED. -/
theorem hears_unanswered {iss snxt rnxt : U32} {seg : Seg} (h : c.sk.Greets true iss snxt rnxt) (ha : seg.ackSeq = 0)
    (ho : (c.hears seg).sk.state.opening) : (c.hears seg).sk.Greets true iss snxt rnxt := by
  have hs : c.sk.state = .synReceived := h.stateEq
  rcases hears_sk c seg with he | he
  · rw [he]
    exact h
  · rw [he] at ho ⊢
    simp only [segmentArrives, hs] at ho ⊢
    have hn : ackIsNew c.sk seg.tcphdr = false := by
      have h0 : seg.tcphdr.ackSeq = 0 := ha
      simp [ackIsNew, h0]
    rcases tcpInputOtherwise_unanswered (tcpInitSegment seg.tcphdr seg.payload seg.psh) hs hn with hq | ht
    · exact h.moves (a := .idle) (.of_quiet hq) rfl ho
    · rw [ht] at ho
      cases ho

/-- Nor does any segment where the window wraps. -/
theorem hears_wrapped {iss snxt rnxt : U32} {seg : Seg} (h : c.sk.Greets true iss snxt rnxt)
    (hw : rnxt + tcpSelectInitialWindow < rnxt) (ho : (c.hears seg).sk.state.opening) :
    (c.hears seg).sk.Greets true iss snxt rnxt := by
  have hs : c.sk.state = .synReceived := h.stateEq
  rcases hears_sk c seg with he | he
  · rw [he]
    exact h
  · rw [he] at ho ⊢
    simp only [segmentArrives, hs] at ho ⊢
    have hv : tcpVerifySegment c.sk seg.tcphdr (tcpInitSegment seg.tcphdr seg.payload seg.psh) = false := by
      have hn : c.sk.tcb.rcvNxt = rnxt := Core.Greets.rcv h
      have hwnd : c.sk.tcb.rcvWnd = tcpSelectInitialWindow := Core.Greets.wnd h
      simp only [tcpVerifySegment, hn, hwnd]
      have hout : seg.tcphdr.seq < rnxt ∨ seg.tcphdr.seq > rnxt + tcpSelectInitialWindow := by bv_omega
      rcases hout with hout | hout <;> simp [hout]
    have hq : Quiet c.sk (tcpInputOtherwise c.sk seg.tcphdr (tcpInitSegment seg.tcphdr seg.payload seg.psh)) := by
      unfold tcpInputOtherwise
      simp only [hv, Bool.not_false, if_true]
      exact .ite (quiet_tcpSendAck c.sk) (.refl c.sk)
    exact h.moves (a := .idle) (.of_quiet hq) rfl ho

/-- A segment that reaches SYN_SENT, and has ACK if it has SYN, is dropped or
opens the connection at the number after its own. -/
theorem hears_greeted {iss snxt : U32} {seg : Seg} (h : c.sk.Greets false iss snxt 0) (ha : seg.syn → seg.ack)
    (ho : (c.hears seg).sk.state.opening) : (c.hears seg).sk.Greets false iss snxt 0 ∨
      seg.syn ∧ iss < snxt ∧ (c.hears seg).sk.Silent snxt (seg.seq + 1) := by
  have hs : c.sk.state = .synSent := h.stateEq
  rcases hears_sk c seg with he | he
  · rw [he]
    exact .inl h
  · rw [he] at ho ⊢
    simp only [segmentArrives, hs] at ho ⊢
    rcases tcpSynsent_move hs seg.tcphdr (tcpInitSegment seg.tcphdr seg.payload seg.psh) with he | ⟨es, hf, hm, hne⟩
    · rw [he]
      exact .inl h
    · obtain ⟨hsyn, hlt, hsil⟩ := hm.greeted hne ho h ha
      refine .inr ⟨hsyn, hlt, ?_⟩
      unfold TcpSock.Silent
      rw [hf]
      exact hsil

end Conn

theorem activeOpen_greets (o : OpenArgs) (iss : U32) : (activeOpen o iss).Greets false iss (iss + 1) 0 := by
  have hc := activeOpen_core o iss
  obtain ⟨cwnd, e, hf, he⟩ := activeOpen_fx o iss
  unfold TcpSock.Greets
  rw [hf, hc]
  exact .start rfl (synSkb_isSyn _) rfl rfl rfl rfl rfl he

/-- The child of a SYN has counted its own SYN twice. -/
theorem tcpListen_greets {l s : TcpSock} {th : Tcphdr} {env : SynEnv} (h : tcpListen l th env = some s) :
    s.Greets true env.iss (env.iss + 2) (th.seq + 1) := by
  obtain ⟨hc, cwnd, e, hf, he⟩ := tcpListen_core h
  unfold TcpSock.Greets
  rw [hf, hc]
  exact .start rfl synAckSkb_isSyn rfl rfl rfl rfl rfl he

end LevelIp
