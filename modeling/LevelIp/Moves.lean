/-
What a socket can do, as a relation on its core. Each event of a connection is
a chain of moves, labelled with what causes them (`Act`); a move states its
guard, the effects it logs and the core it leaves.

This is where the functions of the source are taken apart, once. An invariant
is then a case analysis over `Move`.
-/
import LevelIp.CoreFacts

namespace LevelIp

/-! ## The moves -/

/-- The states that process the ACK field. -/
def TcpState.takesAck : TcpState → Bool
  | .established | .finWait1 | .finWait2 | .closeWait | .closing | .lastAck => true
  | .listen | .synSent | .synReceived | .close | .timeWait => false

/-- The states that queue segment text. -/
def TcpState.takesText : TcpState → Bool
  | .established | .finWait1 | .finWait2 => true
  | .listen | .synSent | .synReceived | .close | .closeWait | .closing | .lastAck | .timeWait => false

/-- The states `tcp_close` and what follows it lead to. -/
def TcpState.shut : TcpState → Bool
  | .finWait1 | .finWait2 | .closing | .lastAck | .timeWait => true
  | .listen | .synSent | .synReceived | .established | .close | .closeWait => false

/-- `tcp_verify_segment`. -/
def RcvSide.verify (r : RcvSide) (th : Tcphdr) (skb : Skb) : Bool :=
  !(skb.dlen > 0 && r.wnd = 0) && !(th.seq < r.nxt || th.seq > r.nxt + r.wnd)

/-- The segment gets as far as its ACK field: it is acceptable and has ACK but
neither RST nor SYN. -/
def Core.Heard (c : Core) (th : Tcphdr) (skb : Skb) : Bool :=
  c.rcv.verify th skb && !th.rst && !th.syn && th.ack

/-- `snd_una < SEG.ACK <= snd_nxt`. -/
def SndSide.ackNew (d : SndSide) (th : Tcphdr) : Bool := d.una < th.ackSeq && th.ackSeq ≤ d.nxt

/-- The segment gets as far as its text, and has some: it is acceptable, has no
RST or SYN, and acknowledges something in `snd_una..snd_nxt`. -/
def Core.Accepts (c : Core) (th : Tcphdr) (skb : Skb) : Prop :=
  c.rcv.verify th skb ∧ th.rst = false ∧ th.syn = false ∧ th.ack = true ∧
    (c.state.takesText ∨ c.state = .synReceived) ∧ c.snd.una ≤ th.ackSeq ∧ th.ackSeq ≤ c.snd.nxt ∧
    (th.psh ∨ skb.dlen > 0)

instance (c : Core) (th : Tcphdr) (skb : Skb) : Decidable (c.Accepts th skb) := by
  unfold Core.Accepts
  infer_instance

/-- The receive side after an in-sequence segment is queued. -/
def RcvSide.push (r : RcvSide) (skb : Skb) : RcvSide :=
  let (nxt, moved, left) := ofoDrain (r.nxt + skb.dlen) r.ofo
  { r with nxt := nxt, realWnd := r.realWnd - skb.dlen, queue := r.queue ++ [skb] ++ moved, ofo := left }

theorem RcvSide.push_queue (r : RcvSide) (skb : Skb) :
    (r.push skb).queue = r.queue ++ [skb] ++ (ofoDrain (r.nxt + skb.dlen) r.ofo).2.1 := rfl

theorem RcvSide.push_ofo (r : RcvSide) (skb : Skb) : (r.push skb).ofo = (ofoDrain (r.nxt + skb.dlen) r.ofo).2.2 := rfl

/-- The receive side after a segment is put into the out-of-order queue. -/
def RcvSide.insert (r : RcvSide) (skb : Skb) : RcvSide := { r with ofo := tcpDataInsertOrdered skb r.ofo }

/-- The receive side after `tcp_data_dequeue` for a buffer of `n`. -/
def RcvSide.dequeue (r : RcvSide) (n : Nat) : RcvSide :=
  let (copied, left, _) := dequeueLoop n r.queue
  { r with realWnd := r.realWnd + BitVec.ofNat 32 copied.length, queue := left }

theorem RcvSide.dequeue_queue (r : RcvSide) (n : Nat) : (r.dequeue n).queue = (dequeueLoop n r.queue).2.1 := rfl

/-- The shift the options of a SYN leave. -/
def synScale (scale : U8) (th : Tcphdr) : U8 :=
  (tcpParseOptsLoop th.data 40 { optlen := (th.hl.setWidth 8 <<< 2) - 20, sndScale := scale }).sndScale

/-- The skb of a SYN-ACK. -/
def synAckSkb : Skb := { tcpAllocSkb 4 Payload.nil with syn := true, ack := true }

/-- The ACK of a SYN-ACK is acceptable in SYN_SENT. -/
def SndSide.synAckOk (d : SndSide) (th : Tcphdr) : Prop :=
  d.iss < th.ackSeq ∧ d.una ≤ th.ackSeq ∧ th.ackSeq ≤ d.nxt

/-- The receive side a SYN starts. -/
def RcvSide.synced (r : RcvSide) (th : Tcphdr) : RcvSide := { r with nxt := th.seq + 1, irs := th.seq }

/-- The send side after the ACK field of a SYN in SYN_SENT. -/
def SndSide.synAcked (d : SndSide) (th : Tcphdr) : SndSide := if th.ack then d.acked th.ackSeq else d

/-- The send side `tcp_synsent` leaves in ESTABLISHED. -/
def SndSide.opened (d : SndSide) (th : Tcphdr) : SndSide :=
  { d with
    una := d.nxt
    wnd := U16.wide th.win <<< (synScale d.scale th).toNat
    scale := synScale d.scale th }

/-- The send side after `tcp_send_synack`. -/
def SndSide.synack (d : SndSide) : SndSide :=
  let d := d.enqueue synAckSkb
  { d with nxt := d.nxt + 1 }

/-- The state an in-sequence FIN leads to. -/
def Core.finState (c : Core) : TcpState :=
  match c.state with
  | .synReceived | .established => .closeWait
  | .finWait1 => if c.snd.queue.isEmpty then .timeWait else .closing
  | .finWait2 => .timeWait
  | .listen | .synSent | .close | .closeWait | .closing | .lastAck | .timeWait => c.state

/-- What makes a socket move. An arrival carries the core it found; a timer
handler is live unless it has an epoch that is over; `finish` is a `tcp_close`
that has slept. -/
inductive Act where
  | arrive (c₀ : Core) (th : Tcphdr) (skb : Skb)
  | fire (h : Handler) (live : Bool)
  | abort
  | send
  | close
  | finish (lastAck : Bool)
  | read
  | idle

/-- `tcp_close` queues a FIN here, and then enters LAST_ACK if `lastAck`. -/
def Act.Fins : Act → Core → Bool → Prop
  | .close, c, lastAck => c.state = if lastAck then .closeWait else .finWait1
  | .finish last, _, lastAck => lastAck = last
  | _, _, _ => False

/-- One change of the core with the effects it logs. -/
inductive Move : Act → Core → List Effect → Core → Prop
  /-- The core stays. -/
  | quiet {a c es} : (∀ e ∈ es, c.Plain e) → Move a c es c
  -- a segment that arrives, outside SYN_SENT
  | reset {c th skb es} : c.state = .close → (∀ e ∈ es, c.Plain e) → Move (.arrive c th skb) c es c.reset
  | rst {c th skb} : c.rcv.verify th skb → th.rst →
      Move (.arrive c th skb) c [.wakeup .recvWait] { c with state := .timeWait }
  | establish {c th skb p} : c.state = .synReceived → c.snd.ackNew th → c.ptsk = some p →
      Move (.arrive c th skb) c [.acceptQueue p, .wakeup .acceptWait] { c with state := .established }
  | fault {c th skb} : c.state = .synReceived → c.snd.ackNew th → c.ptsk = none →
      Move (.arrive c th skb) c [] { c with state := .established, fault := true }
  | ack {c₀ c th skb es} : c₀.Heard th skb → c.state.takesAck → c.snd = c₀.snd → c.snd.ackNew th → (∀ e ∈ es, c.Plain e) →
      Move (.arrive c₀ th skb) c es { c with snd := c.snd.acked th.ackSeq }
  | resend {c₀ c th skb es} : (∀ e ∈ es, c.Resends e) → Move (.arrive c₀ th skb) c es c
  | sendNext {c₀ c th skb es d} : c₀.Heard th skb → SendNext c.rcv c.snd es d → Move (.arrive c₀ th skb) c es { c with snd := d }
  | finWait2 {c₀ c th skb} : c₀.Heard th skb → c.state = .finWait1 → c.snd.queue = [] →
      Move (.arrive c₀ th skb) c [] { c with state := .finWait2 }
  | timeWait {c₀ c th skb} : c₀.Heard th skb → c.state = .closing → c.snd.queue = [] →
      Move (.arrive c₀ th skb) c [] { c with state := .timeWait }
  | lastAck {c₀ c th skb} : c₀.Heard th skb → c.state = .lastAck → c.snd.queue = [] →
      Move (.arrive c₀ th skb) c [.wakeup .sleep] c.done
  | finAgain {c₀ c th skb} : c.state = .timeWait → c.rcv = c₀.rcv → c.rcv.nxt = th.seq →
      Move (.arrive c₀ th skb) c [] { c with flagFin := true }
  | inOrder {c₀ c th skb} : c₀.Accepts th skb → c.state.takesText → c.rcv = c₀.rcv → c.rcv.wnd ≠ 0 →
      skb.seq = c.rcv.nxt → Move (.arrive c₀ th skb) c [.wakeup .recvWait] { c with rcv := c.rcv.push skb }
  | outOfOrder {c₀ c th skb} : c₀.Accepts th skb → c.state.takesText → c.rcv = c₀.rcv → c.rcv.wnd ≠ 0 →
      skb.seq ≠ c.rcv.nxt → Move (.arrive c₀ th skb) c [] { c with rcv := c.rcv.insert skb }
  | fin {c₀ c th skb es} : c₀.Heard th skb → th.fin → skb.seq = c₀.rcv.nxt → c.state ≠ .close →
      c.state ≠ .listen → c.state ≠ .synSent → c.state ≠ .synReceived →
      (∀ e ∈ es, Core.Plain { c with rcv := { c.rcv with nxt := c.rcv.nxt + 1 } } e) →
      Move (.arrive c₀ th skb) c (.peerFin :: es)
        { c with state := c.finState, flagFin := true, rcv := { c.rcv with nxt := c.rcv.nxt + 1 } }
  -- in SYN_SENT
  | refused {c th skb} : c.state = .synSent → th.rst →
      Move (.arrive c th skb) c [.wakeup .sleep] { c.done with err := -ECONNREFUSED }
  | connect {c th skb es} : c.state = .synSent → th.syn → (th.ack → c.snd.synAckOk th) →
      (c.snd.synAcked th).una > c.snd.iss →
      (∀ e ∈ es, Core.Plain { c with rcv := c.rcv.synced th } e) →
      Move (.arrive c th skb) c es
        { c with
          state := .established
          err := 0
          sockState := .connected
          rcv := c.rcv.synced th
          snd := (c.snd.synAcked th).opened th }
  | simultaneous {c th skb fl cwnd e} : c.state = .synSent → th.syn → th.ack = false → ¬c.snd.una > c.snd.iss →
      (c.rcv.synced th).Sends synAckSkb c.snd.nxt e →
      Move (.arrive c th skb) c [.queued (c.snd.number synAckSkb) fl cwnd, e]
        { c with
          state := .synReceived
          rcv := c.rcv.synced th
          snd := { c.snd with una := c.snd.iss }.synack }
  -- timers and aborts
  | resendHead {c h n k e} : h = .connectRto n ∧ c.state = .synSent ∨ h = .retransmissionTimeout n →
      c.snd.queue.head? = some k → c.rcv.Sends k c.snd.una e → Move (.fire h true) c [e] c
  | giveUp {c h n} : h = .connectRto n ∧ c.state = .synSent ∨ h = .retransmissionTimeout n →
      Move (.fire h true) c [.wakeup .sleep] { c.done with err := -ETIMEDOUT }
  | finSent {c n k} : c.snd.queue.head? = some k → k.fin → c.state = .closeWait →
      Move (.fire (.retransmissionTimeout n) true) c [] { c with state := .lastAck }
  | finResent {c n k} : c.snd.queue.head? = some k → k.fin → c.state = .established →
      Move (.fire (.retransmissionTimeout n) true) c [] { c with state := .finWait1 }
  | linger {c} : Move (.fire .linger true) c [.wakeup .sleep] c.done
  | userTimeout {c es} : (∀ e ∈ es, c.Plain e) → Move (.fire .userTimeout true) c es c.reset.done
  | abort {c es} : (∀ e ∈ es, c.Plain e) → Move .abort c es c.reset.done
  -- the socket calls
  | data {c chunk last cwnd e} : c.state ≠ .synSent → c.snd.inflight + chunk.len ≤ umin cwnd c.snd.wnd →
      c.rcv.Sends (dataSkb chunk last) c.snd.nxt e →
      Move .send c [.queued (c.snd.number (dataSkb chunk last)) (c.snd.inflight + chunk.len) cwnd, e]
        { c with snd := c.snd.enqueue (dataSkb chunk last) }
  | spin {c} : Move .send c [] { c with fault := true }
  | closeRefused {c} : Move .close c [] { c with err := -EBADF }
  | closeDone {c} : c.state = .listen ∨ c.state = .synSent ∨ c.state = .synReceived →
      Move .close c [.wakeup .sleep] c.done
  | closeStart {c} : c.state = .established → Move .close c [] { c with state := .finWait1 }
  | queueFin {a c cwnd e} (lastAck : Bool) : a.Fins c lastAck → c.state ≠ .synSent →
      c.snd.inflight ≤ umin cwnd c.snd.wnd → c.rcv.Sends finSkb c.snd.nxt e →
      Move a c [.queued (c.snd.number finSkb) c.snd.inflight cwnd, e]
        { c with state := if lastAck then .lastAck else c.state, snd := c.snd.enqueue finSkb }
  | dequeue {c} (n : Nat) : Move .read c [] { c with rcv := c.rcv.dequeue n, flagPsh := false }
  | eof {c} : c.state = .closeWait → c.rcv.queue = [] → c.flagFin →
      Move .read c [] { c with flagFin := false }

/-- What a segment on the wire shows of the socket's buffer is what the receive
side held when it was sent, up to `rcv_nxt`. -/
theorem Move.stamped {a : Act} {c c' : Core} {es : List Effect} (hm : Move a c es c') {seg : Seg} {unread : Nat}
    (he : .xmit seg unread ∈ es) : ∃ n i, RcvSide.Stamps { c.rcv with nxt := n, irs := i } seg unread := by
  have plain : ∀ {k : Core} {l : List Effect}, (∀ e ∈ l, k.Plain e) → .xmit seg unread ∈ l →
      k.rcv.Stamps seg unread := fun h hl => (h _ hl).2.2.2.2
  have sends : ∀ {r : RcvSide} {k : Skb} {n : U32}, r.Sends k n (.xmit seg unread) → r.Stamps seg unread :=
    fun h => h.2.2.2.2.2.2.2
  cases hm with
  | quiet h | reset _ h | ack _ _ _ _ h | userTimeout h | abort h => exact ⟨_, _, plain h he⟩
  | resend h =>
    obtain ⟨k, -, hk⟩ := h _ he
    exact ⟨_, _, sends hk⟩
  | sendNext _ h =>
    obtain ⟨k, -, -, n, hk⟩ := h.emits _ he
    exact ⟨_, _, sends hk⟩
  | fin _ _ _ _ _ _ _ h =>
    rcases List.mem_cons.mp he with h0 | he
    · cases h0
    · have hst := plain h he
      exact ⟨_, _, hst⟩
  | connect _ _ _ _ h =>
    have hst := plain h he
    exact ⟨_, _, hst⟩
  | resendHead _ _ h =>
    rw [List.mem_singleton] at he
    exact ⟨_, _, sends (he ▸ h)⟩
  | simultaneous _ _ _ _ h | data _ _ h | queueFin _ _ _ _ h =>
    simp only [List.mem_cons, List.not_mem_nil, or_false, reduceCtorEq, false_or] at he
    exact ⟨_, _, sends (he ▸ h)⟩
  | rst | establish | fault | finWait2 | timeWait | lastAck | finAgain | inOrder | outOfOrder | refused | giveUp
  | finSent | finResent | linger | spin | closeRefused | closeDone | closeStart | dequeue | eof =>
    simp at he

/-- No move leads into SYN_SENT. -/
theorem Move.synSent {a : Act} {c c' : Core} {es : List Effect} (hm : Move a c es c') (h : c'.state = .synSent) :
    c.state = .synSent := by
  cases hm with
  | fin =>
    simp only [Core.finState] at h
    split at h
    case h_3 => split at h <;> cases h
    all_goals first | cases h | exact h
  | queueFin lastAck =>
    cases lastAck
    · exact h
    · cases h
  | _ => first | exact h | cases h

/-- No move leads back from having closed. -/
theorem Move.shut {a : Act} {c c' : Core} {es : List Effect} (hm : Move a c es c') (h : c.state.shut) :
    c'.state.shut := by
  cases hm with
  | establish hs | fault hs | connect hs | simultaneous hs => rw [hs] at h; cases h
  | fin =>
    simp only [Core.finState]
    split
    case h_3 => split <;> rfl
    case h_1 hs | h_2 hs => rw [hs] at h; cases h
    case h_4 => rfl
    all_goals exact h
  | queueFin lastAck =>
    cases lastAck
    · exact h
    · rfl
  | _ => first | exact h | rfl

/-- No move touches the parent. -/
theorem Move.ptsk {a : Act} {c c' : Core} {es : List Effect} (hm : Move a c es c') : c'.ptsk = c.ptsk := by
  cases hm <;> rfl

/-- A property of skbs that their numbers and their SACK mark do not decide, and
that a SYN-ACK and a FIN have. -/
structure Skb.Inherent (Q : Skb → Prop) : Prop where
  renum : ∀ {k : Skb} (n m : U32), Q k → Q { k with seq := n, endSeq := m }
  plain : ∀ {k : Skb}, Q k → Q k.plain
  synAck : Q synAckSkb
  fin : Q finSkb

theorem enqueue_forall {Q : Skb → Prop} (hQ : Skb.Inherent Q) {d : SndSide} {k : Skb} (hk : Q k) (h : ∀ k ∈ d.queue, Q k) :
    ∀ k' ∈ (d.enqueue k).queue, Q k' := by
  intro k' hk'
  rcases List.mem_append.mp hk' with hm | hm
  · exact h k' hm
  · rw [List.mem_singleton.mp hm]
    exact hQ.plain (hQ.renum _ _ hk)

/-- Every move keeps such a property of the queued skbs, if data that is queued
has it. -/
theorem Move.queue_forall {a : Act} {c c' : Core} {es : List Effect} (hm : Move a c es c') {Q : Skb → Prop}
    (hQ : Skb.Inherent Q) (hd : a = .send → ∀ chunk last, Q (dataSkb chunk last)) (h : ∀ k ∈ c.snd.queue, Q k) :
    ∀ k ∈ c'.snd.queue, Q k := by
  have clean : ∀ u, ∀ k ∈ cleanQueue u c.snd.queue, Q k := fun u k hk => h k ((List.dropWhile_sublist _).mem hk)
  cases hm with
  | ack => exact clean _
  | sendNext _ hn =>
    intro k hk
    obtain ⟨k₀, hk₀, hr⟩ := renum_mem hn.queue hk
    rcases hr with rfl | ⟨-, n, rfl⟩
    · exact h _ hk₀
    · exact hQ.renum _ _ (h k₀ hk₀)
  | connect =>
    simp only [SndSide.opened, SndSide.synAcked]
    split
    · exact clean _
    · exact h
  | simultaneous => exact enqueue_forall hQ (d := { c.snd with una := c.snd.iss }) hQ.synAck h
  | data => exact enqueue_forall hQ (hd rfl _ _) h
  | queueFin => exact enqueue_forall hQ hQ.fin h
  | _ => exact h

/-- A fault stays. -/
theorem Move.fault_mono {a : Act} {c c' : Core} {es : List Effect} (hm : Move a c es c') (h : c.fault) : c'.fault := by
  cases hm <;> first | exact h | rfl

/-- A chain of moves, with all the effects it logs. -/
inductive Moves (a : Act) : Core → List Effect → Core → Prop
  | nil {c} : Moves a c [] c
  | cons {c es c₁ es' c'} : Move a c es c₁ → Moves a c₁ es' c' → Moves a c (es ++ es') c'

namespace Moves

variable {a : Act} {c c₁ c' : Core} {es es' : List Effect}

theorem single (h : Move a c es c') : Moves a c es c' := by
  simpa using cons h nil

theorem trans (h : Moves a c es c₁) (h' : Moves a c₁ es' c') : Moves a c (es ++ es') c' := by
  induction h with
  | nil => exact h'
  | cons hm _ ih => rw [List.append_assoc]; exact cons hm (ih h')

/-- **The invariant rule**: what every move keeps, a chain keeps. -/
theorem keeps {I : Core → List Effect → Prop} (hI : ∀ {c log es c'}, Move a c es c' → I c log → I c' (log ++ es))
    (h : Moves a c es c') (log : List Effect) (h0 : I c log) : I c' (log ++ es) := by
  induction h generalizing log with
  | nil => simpa using h0
  | cons hm _ ih => rw [← List.append_assoc]; exact ih _ (hI hm h0)

/-- The invariant rule without the log. -/
theorem keeps_core {I : Core → Prop} (hI : ∀ {c es c'}, Move a c es c' → I c → I c') (h : Moves a c es c')
    (h0 : I c) : I c' :=
  h.keeps (I := fun c _ => I c) (fun hm => hI hm) [] h0

end Moves

/-- The socket `s'` is reached from `s` by moves, which its log shows. -/
def SockMoves (a : Act) (s s' : TcpSock) : Prop := ∃ es, s'.fx = s.fx ++ es ∧ Moves a s.core es s'.core

namespace SockMoves

variable {a : Act} {s t u : TcpSock}

theorem refl (s : TcpSock) : SockMoves a s s := ⟨[], by simp, .nil⟩

theorem trans (h₁ : SockMoves a s t) (h₂ : SockMoves a t u) : SockMoves a s u := by
  obtain ⟨es, e₁, m₁⟩ := h₁
  obtain ⟨es', e₂, m₂⟩ := h₂
  exact ⟨es ++ es', by rw [e₂, e₁, List.append_assoc], m₁.trans m₂⟩

theorem of_move {es : List Effect} (hf : t.fx = s.fx ++ es) (hm : Move a s.core es t.core) : SockMoves a s t :=
  ⟨es, hf, .single hm⟩

theorem of_quiet (h : Quiet s t) : SockMoves a s t := by
  obtain ⟨hc, es, hf, hp⟩ := h
  exact of_move hf (by rw [hc]; exact .quiet hp)

/-- An update outside core and log may follow. -/
theorem then_eq (h : SockMoves a s t) (hc : u.core = t.core) (hf : u.fx = t.fx) : SockMoves a s u :=
  h.trans (of_quiet (.of_eq hc hf))

/-- An update outside core and log may precede. -/
theorem after (h : SockMoves a t u) (hc : t.core = s.core) (hf : t.fx = s.fx) : SockMoves a s u :=
  (of_quiet (.of_eq hc hf)).trans h

end SockMoves

end LevelIp
