/-
What a pure ACK makes the socket send: nothing but what is queued, unless
TIME_WAIT echoes it. And two endpoints that answer each other's ACKs.
-/
import LevelIp.DataAcks
import LevelIp.Sleepers

namespace LevelIp

/-! ## What a pure ACK makes the socket send -/

/-- An ACK without data, SYN, FIN or RST. -/
def Seg.dataless (seg : Seg) : Bool := seg.ack && !seg.syn && !seg.fin && !seg.rst && seg.payload.bytes.isEmpty

/-- A header with ACK and without SYN, FIN, RST or PSH. -/
def Tcphdr.ackOnly (th : Tcphdr) : Bool := th.ack && !th.syn && !th.fin && !th.rst && !th.psh

/-- `Q` holds of what neither sends nor marks anything. -/
structure Effect.Mild (Q : Effect → Prop) : Prop where
  wakeup : ∀ w, Q (.wakeup w)
  accept : ∀ p, Q (.acceptQueue p)

theorem mild_lacks (P : Seg → Prop) : Effect.Mild (Effect.lacks P) := ⟨fun _ => trivial, fun _ => trivial⟩

/-- Whatever skb of the queue is sent, it is sent as an effect with `Q`. -/
def TcpSock.Spares (Q : Effect → Prop) (s : TcpSock) : Prop :=
  ∀ k ∈ s.core.snd.queue, ∀ (r : RcvSide) (n : U32) (e : Effect), r.Sends k n e → Q e

section

variable {Q : Effect → Prop} {s t : TcpSock} {th : Tcphdr} {skb : Skb}

theorem TcpSock.Spares.sublist (h : s.Spares Q) (hq : t.core.snd.queue.Sublist s.core.snd.queue) : t.Spares Q :=
  fun k hk => h k (hq.mem hk)

theorem TcpSock.Spares.of_core (h : s.Spares Q) (hc : t.core = s.core) : t.Spares Q := h.sublist (by rw [hc])

theorem tcpSendNext_spared (h : s.Spares Q) (amount : Nat) (extra : U32) :
    Logs Q s (tcpSendNext s amount extra) := by
  obtain ⟨es, d, hf, -, hn⟩ := tcpSendNext_spec s amount extra
  refine ⟨es, hf, fun e he => ?_⟩
  obtain ⟨k, hk, -, n, hs⟩ := hn.emits e he
  exact h k hk _ n e hs

theorem dupackAction_spared (h : s.Spares Q) : Logs Q s (dupackAction s).1 := by
  unfold dupackAction
  split
  · exact .refl s
  · split
    · let u : TcpSock := { s with ssthresh := umax (s.inflight / 2) (2 * U16.wide s.smss) }
      have hr : Logs Q u (tcpFastRetransmit u) :=
        (tcpFastRetransmit_logs u).mono fun e ⟨k, hk, hs⟩ => h k hk _ _ e hs
      have hu : Logs Q s u := .same rfl
      have hfx : (tcpEnterFastRecovery s).fx = (tcpFastRetransmit u).fx := by
        unfold tcpEnterFastRecovery
        dsimp only
        generalize tcpFastRetransmit { s with ssthresh := umax (s.inflight / 2) (2 * U16.wide s.smss) } = t
        rfl
      exact (hu.trans hr).trans (.same hfx)
    · exact .same rfl

theorem tcpHandleDupack_spared (h : s.Spares Q) : Logs Q s (tcpHandleDupack s) := by
  have hc : (dupackAction { s with dupacks := s.dupacks + 1 }).1.core = s.core := dupackAction_core _
  have hl : Logs Q s (dupackAction { s with dupacks := s.dupacks + 1 }).1 :=
    dupackAction_spared (s := { s with dupacks := s.dupacks + 1 }) h
  unfold tcpHandleDupack
  dsimp only
  generalize dupackAction { s with dupacks := s.dupacks + 1 } = r at hc hl
  split
  · exact hl.trans (tcpSendNext_spared (h.of_core hc) _ _)
  · exact hl

theorem Ctl.ret_ne_next {s t : TcpSock} : Ctl.ret s ≠ .next t := nofun

/-- The ACK processing sends nothing but what is queued. -/
theorem ackSynchronized_spared (hQ : Effect.Mild Q) (h : s.Spares Q) (th : Tcphdr) (skb : Skb) :
    Logs Q s (ackSynchronized s th skb).sock ∧
    ∀ t, ackSynchronized s th skb = .next t → t.Spares Q := by
  by_cases hd : tcpIsDupack s th skb
  · rw [ackSynchronized, if_pos hd]
    exact ⟨(tcpHandleDupack_spared h).trans (.same rfl), fun t ht => absurd ht Ctl.ret_ne_next⟩
  · cases hp : s.ackPasses th skb with
    | true =>
      rw [ackSynchronized_taken hp]
      obtain ⟨d, hc, -, hq⟩ := taken_core s th
      have hq : (s.taken th).core.snd.queue.Sublist s.core.snd.queue := by
        rw [hc]
        exact hq
      have hl : Logs Q s (s.taken th) := taken_logs (hQ.wakeup _) s th
      generalize s.taken th = u at hl hq
      refine ⟨hl.trans (.same rfl), fun t ht => ?_⟩
      rw [← Ctl.next.inj ht]
      exact h.sublist hq
    | false =>
      have hok : ¬s.core.snd.AckOk th := by
        intro hok
        simp [TcpSock.ackPasses, hd, hok] at hp
      have hn : ackIsNew s th = false := by
        by_contra hn
        simp only [Bool.not_eq_false, ackIsNew, Bool.and_eq_true, decide_eq_true_eq] at hn
        exact hok ⟨BitVec.le_of_lt hn.1, hn.2⟩
      rw [ackSynchronized_outside (by simpa using hd) hn hok]
      exact ⟨.refl s, fun t ht => absurd ht Ctl.ret_ne_next⟩

theorem ackField_spared (hQ : Effect.Mild Q) (h : s.Spares Q) (th : Tcphdr) (skb : Skb) :
    Logs Q s (ackField s th skb).sock ∧ ∀ t, ackField s th skb = .next t → t.Spares Q := by
  have hnext : Logs Q s (Ctl.next s).sock ∧ ∀ t, Ctl.next s = .next t → t.Spares Q :=
    ⟨.refl s, fun t ht => Ctl.next.inj ht ▸ h⟩
  unfold ackField
  split
  case h_1 =>
    split
    · dsimp only
      split
      · exact ⟨.same rfl, fun t ht => absurd ht Ctl.ret_ne_next⟩
      next p _ =>
        let u : TcpSock := ((s.setState .established).emit (.acceptQueue p)).wakeup .acceptWait
        have hu : Logs Q s u :=
          Logs.trans (t := (s.setState .established).emit (.acceptQueue p)) (.emit (hQ.accept p)) (.emit (hQ.wakeup _))
        obtain ⟨hl, hn⟩ := ackSynchronized_spared (s := u) hQ h th skb
        exact ⟨hu.trans hl, hn⟩
    · exact ⟨.refl s, fun t ht => absurd ht Ctl.ret_ne_next⟩
  case h_8 | h_9 | h_10 | h_11 => exact hnext
  all_goals exact ackSynchronized_spared hQ h th skb

theorem Ctl.andThen_spared {k : Ctl} {f : TcpSock → Ctl} (hk : Logs Q s k.sock)
    (hf : ∀ t, k = .next t → Logs Q t (f t).sock) : Logs Q s (k.andThen f).sock := by
  cases k with
  | ret t => exact hk
  | next t => exact hk.trans (hf t rfl)

/-- The socket acknowledges a pure ACK that is at `rcv_nxt`. -/
def TcpSock.echoes (s : TcpSock) (th : Tcphdr) : Bool := s.state = .timeWait && s.writeQueue.isEmpty && th.seq = s.tcb.rcvNxt

theorem finAcked_spared (hQ : Effect.Mild Q) (h : s.Spares Q) (he : s.echoes th = false) :
    Logs Q s (finAcked s th).sock ∧ ∀ t, finAcked s th = .next t → t.Spares Q := by
  refine ⟨?_, fun t ht => ?_⟩
  · unfold finAcked
    split
    next hq =>
      split
      case h_3 => exact tcpDone_logs s (hQ.wakeup _)
      case h_4 hs =>
        have hr : ¬s.tcb.rcvNxt = th.seq := fun hr => by simp [TcpSock.echoes, hs, hq, hr] at he
        rw [if_neg hr]
        exact .refl s
      all_goals exact .same rfl
    next => exact .refl s
  · have hs := finAcked_snd s th
    rw [ht] at hs
    exact h.sublist (by rw [← hs, Ctl.sock])

/-- With neither data nor PSH only `tcp_send_next` is left. -/
theorem ackData_spared (h : s.Spares Q) (hp : th.psh = false) (hd : skb.dlen = 0) (expected : Bool) :
    Logs Q s (ackData s th skb expected) := by
  have h2 : ¬skb.dlen > 1000 := by rw [hd]; decide
  unfold ackData
  split
  case h_4 => exact .refl s
  all_goals
    split
    case isFalse => exact .refl s
    have hfx := tcpStopDelackTimer_fx s
    have hc := (quiet_tcpStopDelackTimer s).core
    generalize tcpStopDelackTimer s = t at hfx hc
    simp only [hp, h2, decide_false, Bool.and_false, Bool.or_false, Bool.false_and, Bool.false_eq_true, if_false]
    split
    · exact (Logs.trans (.same hfx) (tcpSendNext_spared (h.of_core hc) _ _)).trans (.same rfl)
    · split <;> exact .same hfx

theorem afterFin_spared (h : s.Spares Q) (hf : th.fin = false) (hp : th.psh = false) (hd : skb.dlen = 0) :
    Logs Q s (afterFin s th skb).sock := by
  have h1 : ¬skb.dlen > 0 := by rw [hd]; exact BitVec.lt_irrefl _
  have ht : segmentText s th skb = s := by
    unfold segmentText
    split
    case h_4 => rfl
    all_goals rw [hp, decide_eq_false h1]; rfl
  have hb : ∀ expected, finBit s th expected = .next s := fun expected => by
    unfold finBit
    rw [hf, Bool.false_and]
    rfl
  rw [afterFin, ht, hb, Ctl.andThen]
  exact ackData_spared h hp hd _

/-- A pure ACK makes the socket send nothing but what is queued, unless it is
one that TIME_WAIT echoes. -/
theorem heard_spared (hQ : Effect.Mild Q) (h : s.Spares Q) (hf : th.fin = false) (hp : th.psh = false) (hd : skb.dlen = 0)
    (he : s.echoes th = false) : Logs Q s ((ackField s th skb).andThen fun s => afterAck s th skb).sock := by
  obtain ⟨hl, hn⟩ := ackField_spared hQ h th skb
  refine Ctl.andThen_spared hl fun t ht => ?_
  have hte : t.echoes th = false := by
    cases hs : decide (s.state = .timeWait) with
    | true =>
      have hs := of_decide_eq_true hs
      have : ackField s th skb = .next s := by
        unfold ackField
        rw [hs]
      rw [this] at ht
      rw [← Ctl.next.inj ht]
      exact he
    | false =>
      have hs := of_decide_eq_false hs
      have hst := ackField_state s th skb
      rw [ht, Ctl.sock] at hst
      have htw : t.state ≠ .timeWait := by
        rw [hst]
        split
        · simp
        · exact hs
      simp [TcpSock.echoes, htw]
  rw [afterAck_eq]
  obtain ⟨hl', hn'⟩ := finAcked_spared hQ (hn t ht) hte
  exact Ctl.andThen_spared hl' fun u hu => afterFin_spared (hn' u hu) hf hp hd

/-- TIME_WAIT echoes: the ACK that goes out is the only thing that happens. -/
theorem heard_echoes (hf : th.fin = false) (he : s.echoes th = true) :
    ((ackField s th skb).andThen fun s => afterAck s th skb).sock = tcpSendAck { s with flagFin := true } := by
  simp only [TcpSock.echoes, Bool.and_eq_true, decide_eq_true_eq] at he
  obtain ⟨⟨hs, hq⟩, hr⟩ := he
  have ha : ackField s th skb = .next s := by
    unfold ackField
    rw [hs]
  have hfa : finAcked s th = .next (tcpSendAck { s with flagFin := true }) := by
    unfold finAcked
    rw [hq, hs, hr]
    simp
  have hst : (tcpSendAck { s with flagFin := true }).state.over := by
    rw [(quiet_tcpSendAck _).state]
    show s.state.over
    rw [hs]
    rfl
  have hov := afterFin_over hst th skb
  rw [hf, Bool.false_and] at hov
  rw [ha, Ctl.andThen, afterAck_eq, hfa, Ctl.andThen]
  exact hov

end

/-! ## What can be queued -/

/-- The skb is a SYN, a FIN or has data: sent, it is no data-less ACK. -/
def Skb.loaded (k : Skb) : Prop := k.syn ∨ k.fin ∨ k.payload.bytes ≠ []

theorem inherent_loaded : Skb.Inherent Skb.loaded := ⟨fun _ _ h => h, fun h => h, .inl rfl, .inr (.inl rfl)⟩

theorem spares_of_loaded {s : TcpSock} (h : ∀ k ∈ s.core.snd.queue, k.loaded) : s.Spares (Effect.lacks fun seg => seg.dataless) := by
  intro k hk r n e he
  cases e with
  | xmit seg unread =>
    obtain ⟨-, hp, hs, hf, -⟩ := he
    have hl := h k hk
    unfold Skb.loaded at hl
    rw [← hp, ← hs, ← hf] at hl
    simp only [Effect.lacks, Seg.dataless, Bool.and_eq_true, Bool.not_eq_true', List.isEmpty_iff]
    rintro ⟨⟨⟨⟨-, h1⟩, h2⟩, -⟩, h3⟩
    rcases hl with hl | hl | hl
    · rw [h1] at hl
      cases hl
    · rw [h2] at hl
      cases hl
    · exact hl h3
  | _ => exact he.elim

/-- A sleeping writer has a chunk in hand, or an MSS of 0 and a buffer. -/
def Call.loaded : Call → Prop
  | .send mss chunk rest _ => if mss = 0 then rest ≠ [] else chunk.bytes ≠ []
  | .fin _ | .recv _ _ => True

/-- An empty skb does not close the window. -/
theorem sndWndOpen_empty (s : TcpSock) {k : Skb} (hk : k.dlen = 0) :
    sndWndOpen (tcpQueueTransmitSkb s k) 0 = sndWndOpen s 0 := by
  have hc := tcpQueueTransmitSkb_cong s k
  have hw : (tcpQueueTransmitSkb s k).tcb.sndWnd = s.tcb.sndWnd := tcpQueueTransmitSkb_wnd s k
  have hi : (tcpQueueTransmitSkb s k).inflight = s.inflight := by
    refine (congrArg Cong.inflight hc).trans ?_
    rw [hk]
    exact BitVec.add_zero _
  have hcw : (tcpQueueTransmitSkb s k).cwnd = s.cwnd := congrArg Cong.cwnd hc
  simp only [sndWndOpen, hw, hi, hcw]

/-- At an MSS of 0 the loop of `tcp_send` gets nowhere once the window is open. -/
theorem tcpSendLoop_spins (len fuel : Nat) {s : TcpSock} {buf : List U8} (hb : buf ≠ []) (ho : sndWndOpen s 0) :
    (tcpSendLoop 0 len fuel s buf).2 = .spin := by
  induction fuel generalizing s with
  | zero =>
    cases buf with
    | nil => exact absurd rfl hb
    | cons x xs => rfl
  | succ fuel ih =>
    cases buf with
    | nil => exact absurd rfl hb
    | cons x xs =>
      have hp : Payload.ofTake 0 (x :: xs) = Payload.nil := rfl
      simp only [tcpSendLoop, hp, Payload.len_nil, ho, if_true]
      exact ih (by rw [sndWndOpen_empty s rfl]; exact ho)

theorem ofTake_ne_nil {mss : U16} {buf : List U8} (hm : mss ≠ 0) (hb : buf ≠ []) : (Payload.ofTake mss buf).bytes ≠ [] := by
  have : mss.toNat ≠ 0 := fun h => hm (BitVec.eq_of_toNat_eq h)
  simp [Payload.ofTake_bytes, List.take_eq_nil_iff, this, hb]

theorem tcpQueueTransmitSkb_loaded {s : TcpSock} (h : ∀ k ∈ s.core.snd.queue, k.loaded) {k : Skb} (hk : k.loaded) :
    ∀ k' ∈ (tcpQueueTransmitSkb s k).core.snd.queue, k'.loaded := by
  rw [tcpQueueTransmitSkb_core]
  exact enqueue_forall inherent_loaded hk h

/-- The loop of `tcp_send` queues no empty chunk, unless it never ends. -/
theorem tcpSendLoop_loaded {mss : U16} {len fuel : Nat} {s : TcpSock} {buf : List U8} (h : ∀ k ∈ s.core.snd.queue, k.loaded) :
    ((tcpSendLoop mss len fuel s buf).2 ≠ .spin → ∀ k ∈ (tcpSendLoop mss len fuel s buf).1.core.snd.queue, k.loaded) ∧
    ∀ call, (tcpSendLoop mss len fuel s buf).2 = .sleep call → call.loaded := by
  have hdone : ∀ k ∈ (tcpRearmUserTimeout s).core.snd.queue, k.loaded := by
    rw [(quiet_tcpRearmUserTimeout s).core]
    exact h
  induction fuel generalizing s buf with
  | zero =>
    cases buf with
    | nil => exact ⟨fun _ => hdone, nofun⟩
    | cons => exact ⟨fun hs => absurd rfl hs, nofun⟩
  | succ fuel ih =>
    cases buf with
    | nil => exact ⟨fun _ => hdone, nofun⟩
    | cons x xs =>
      by_cases hm : mss = 0
      · subst hm
        cases ho : sndWndOpen s 0 with
        | true =>
          have hs := tcpSendLoop_spins len (fuel + 1) (List.cons_ne_nil x xs) ho
          rw [hs]
          exact ⟨fun h => absurd rfl h, nofun⟩
        | false =>
          have hp : Payload.ofTake 0 (x :: xs) = Payload.nil := rfl
          simp only [tcpSendLoop, hp, Payload.len_nil, ho, Bool.false_eq_true, if_false]
          refine ⟨fun _ => h, fun call hc => ?_⟩
          cases hc
          exact List.cons_ne_nil x xs
      · have hl := ofTake_ne_nil hm (List.cons_ne_nil x xs)
        simp only [tcpSendLoop]
        split
        · have hq := tcpQueueTransmitSkb_loaded h (k := dataSkb (Payload.ofTake mss (x :: xs)) (List.drop mss.toNat (x :: xs)).isEmpty)
            (.inr (.inr hl))
          exact ih hq (by rw [(quiet_tcpRearmUserTimeout _).core]; exact hq)
        · refine ⟨fun _ => h, fun call hc => ?_⟩
          cases hc
          simp only [Call.loaded, hm, if_false]
          exact hl

namespace Conn

/-- Nothing on the queue, or about to be, can go out as a data-less ACK. -/
structure Loaded (c : Conn) : Prop where
  readers : c.OnlyReaders
  queue : c.sk.fault = false → ∀ k ∈ c.sk.core.snd.queue, k.loaded
  calls : c.sk.fault = false → ∀ call ∈ c.calls, call.loaded

theorem settle_loaded {c : Conn} {r : TcpSock × Outcome} (h : r.2 ≠ .spin → ∀ k ∈ r.1.core.snd.queue, k.loaded)
    (hf : (c.settle r).sk.fault = false) : ∀ k ∈ (c.settle r).sk.core.snd.queue, k.loaded := by
  unfold settle at hf ⊢
  split at hf
  next hr => exact h (by rw [hr]; nofun)
  next hr => exact h (by rw [hr]; nofun)
  next => cases hf

theorem resumeSend_loaded {s : TcpSock} {mss : U16} {chunk : Payload} {rest : List U8} {len : Nat}
    (hc : (Call.send mss chunk rest len).loaded) (h : ∀ k ∈ s.core.snd.queue, k.loaded) :
    ((resumeSend s (.send mss chunk rest len)).2 ≠ .spin →
      ∀ k ∈ (resumeSend s (.send mss chunk rest len)).1.core.snd.queue, k.loaded) ∧
    ∀ call, (resumeSend s (.send mss chunk rest len)).2 = .sleep call → call.loaded := by
  simp only [resumeSend]
  cases ho : sndWndOpen s chunk.len with
  | false =>
    refine ⟨fun _ => h, fun call hs => ?_⟩
    cases hs
    exact hc
  | true =>
    simp only [if_true]
    by_cases hb : chunk.bytes = []
    · -- an MSS of 0: the loop goes on with the same buffer and never ends
      have hm : mss = 0 := by
        by_contra hm
        simp only [Call.loaded, hm, if_false] at hc
        exact hc hb
      subst hm
      have hr : rest ≠ [] := hc
      have hz : chunk.len = 0 := Payload.len_eq_zero.mpr hb
      have ho' : sndWndOpen (tcpQueueTransmitSkb s (dataSkb chunk rest.isEmpty)) 0 = true := by
        rw [sndWndOpen_empty s (k := dataSkb chunk rest.isEmpty) hz, ← hz]
        exact ho
      rw [tcpSendLoop_spins _ _ hr ho']
      exact ⟨fun h => absurd rfl h, by simp⟩
    · exact tcpSendLoop_loaded (tcpQueueTransmitSkb_loaded h (k := dataSkb chunk rest.isEmpty) (.inr (.inr hb)))

/-- What a writer leaves. -/
theorem step_send_loaded {c : Conn} (h : c.Loaded) (hf : c.sk.fault = false) {e : Event} (ha : c.act e = .send)
    (hf' : (c.step e).sk.fault = false) : ∀ k ∈ (c.step e).sk.core.snd.queue, k.loaded := by
  have hq := h.queue hf
  simp only [step, hf, Bool.false_eq_true, if_false] at hf' ⊢
  cases e with
  | write buf =>
    refine settle_loaded ?_ hf'
    unfold tcpWrite
    split
    · exact (tcpSendLoop_loaded hq).1
    · exact fun _ => hq
  | resume i =>
    simp only [act] at ha
    simp only [resume] at hf' ⊢
    cases hi : c.calls[i]? with
    | none => exact hq
    | some call =>
      cases call with
      | send mss chunk rest len =>
        simp only [hi] at hf'
        exact settle_loaded (resumeSend_loaded (h.calls hf _ (List.mem_of_getElem? hi)) hq).1 hf'
      | _ => simp only [hi] at ha; cases ha
  | handler i =>
    simp only [act] at ha
    split at ha <;> cases ha
  | _ => cases ha

theorem recv_loaded {call : Call} (h : ∃ len got, call = .recv len got) : call.loaded := by
  obtain ⟨len, got, rfl⟩ := h
  trivial

theorem step_calls_loaded {c : Conn} (h : c.Loaded) (hf : c.sk.fault = false) (e : Event) :
    ∀ call ∈ (c.step e).calls, call.loaded := by
  have hq := h.queue hf
  have hc := h.calls hf
  simp only [step, hf, Bool.false_eq_true, if_false]
  cases e with
  | write buf =>
    refine settle_forall hc ?_
    unfold tcpWrite
    split
    · exact (tcpSendLoop_loaded hq).2
    · simp
  | read len => exact settleRead_forall hc fun call hs => recv_loaded (tcpRead_sleep hs)
  | close =>
    refine settle_forall hc fun call hs => ?_
    rcases tcpClose_sleep hs with rfl | ⟨rfl, -⟩ <;> trivial
  | resume i =>
    have he : ∀ call ∈ c.calls.eraseIdx i, call.loaded := fun call hin => hc call (List.mem_of_mem_eraseIdx hin)
    simp only [resume]
    cases hi : c.calls[i]? with
    | none => exact hc
    | some call =>
      cases call with
      | recv len got => exact settleRead_forall he fun call hs => recv_loaded (tcpReceiveTurn_sleep hs)
      | fin lastAck =>
        refine settle_forall he fun call hs => ?_
        obtain ⟨rfl, -⟩ := tcpQueueFin_sleep hs
        trivial
      | send mss chunk rest len =>
        exact settle_forall he (resumeSend_loaded (hc _ (List.mem_of_getElem? hi)) hq).2
  | _ => exact hc

theorem live_loaded {c : Conn} (h : c.Loaded) (e : LifeEvent) : (c.live e).Loaded := by
  refine ⟨live_onlyReaders h.readers e, ?_, ?_⟩
  · cases e with
    | conn e =>
      intro hf'
      by_cases hf : c.sk.fault
      · rw [live, step_of_fault hf] at hf'
        rw [hf] at hf'
        cases hf'
      · have hf : c.sk.fault = false := by simpa using hf
        by_cases ha : c.act e = .send
        · exact step_send_loaded h hf ha hf'
        · obtain ⟨es, -, hm⟩ := step_moves h.readers.ready e
          exact hm.keeps_core (I := fun k => ∀ x ∈ k.snd.queue, x.loaded)
            (fun hmv hk => hmv.queue_forall inherent_loaded (fun h => absurd h ha) hk) (h.queue hf)
    | listen =>
      simp only [live]
      split
      · exact h.queue
      next hf =>
        exact fun _ => (tcpV4Listen_opens c.sk).1.queue_forall inherent_loaded (fun _ hs => .inl hs.syn) (h.queue (by simpa using hf))
    | connect d iss =>
      simp only [live]
      split
      · exact h.queue
      next hf =>
        exact fun _ => (inetStreamConnect_opens c.sk d iss).1.queue_forall inherent_loaded (fun _ hs => .inl hs.syn)
          (h.queue (by simpa using hf))
  · intro hf'
    cases e with
    | conn e =>
      by_cases hf : c.sk.fault
      · rw [live, step_of_fault hf] at hf' ⊢
        exact h.calls hf'
      · exact step_calls_loaded h (by simpa using hf) e
    | listen =>
      simp only [live] at hf' ⊢
      split
      next hf => exact h.calls (by simpa only [hf, if_true] using hf')
      next hf => exact h.calls (by simpa using hf)
    | connect d iss =>
      simp only [live] at hf' ⊢
      split
      next hf => exact h.calls (by simpa only [hf, if_true] using hf')
      next hf => exact h.calls (by simpa using hf)

theorem loaded_of_born {s : TcpSock} (hb : Born s) : Loaded { sk := s } :=
  ⟨fun _ => nofun, fun _ => hb.queue_forall inherent_loaded, fun _ => nofun⟩

end Conn

/-! ## Answering an acknowledgement -/

/-- `tcp_verify_segment` passes the segment, in the states that run it. -/
def TcpSock.acceptable (s : TcpSock) (th : Tcphdr) (skb : Skb) : Bool :=
  s.state = .close || s.state = .listen || s.state = .synSent || s.core.rcv.verify th skb

theorem acceptable_of_late {s : TcpSock} (hl : s.state.late) (th : Tcphdr) (skb : Skb) :
    s.acceptable th skb = s.core.rcv.verify th skb := by
  simp [TcpSock.acceptable, hl.1, hl.2.1, hl.2.2]

section

variable {s : TcpSock} {th : Tcphdr} {skb : Skb}

theorem ackOnly_heard (ha : th.ackOnly) (hv : s.core.rcv.verify th skb) : s.core.Heard th skb := by
  simp only [Tcphdr.ackOnly, Bool.and_eq_true, Bool.not_eq_true'] at ha
  simp [Core.Heard, hv, ha]

/-- An acceptable pure ACK is answered by no data-less ACK, unless TIME_WAIT
echoes it. -/
theorem segmentArrives_lacks (h : s.Spares (Effect.lacks fun seg => seg.dataless)) (ha : th.ackOnly) (hd : skb.dlen = 0)
    (hv : s.acceptable th skb) (he : s.echoes th = false) :
    Logs (Effect.lacks fun seg => seg.dataless) s (segmentArrives s th skb) := by
  have ha' := ha
  simp only [Tcphdr.ackOnly, Bool.and_eq_true, Bool.not_eq_true'] at ha'
  obtain ⟨⟨⟨⟨hack, hsyn⟩, hfin⟩, hrst⟩, hpsh⟩ := ha'
  by_cases hl : s.state.late
  · rw [acceptable_of_late hl] at hv
    rw [segmentArrives_late hl, tcpInputOtherwise_heard (ackOnly_heard ha hv)]
    exact heard_spared (mild_lacks _) h hfin hpsh hd he
  · have hs : s.state = .close ∨ s.state = .listen ∨ s.state = .synSent := by
      by_contra hne
      exact hl (by simpa [TcpState.late] using hne)
    rcases hs with hs | hs | hs
    · -- CLOSED answers with an RST
      simp only [segmentArrives, hs, tcpClosed, hrst, Bool.false_eq_true, if_false]
      refine ⟨_, tcpTransmitSkb_fx _ _ _, ?_⟩
      simp [Effect.lacks, Seg.dataless, segOf]
    · simp only [segmentArrives, hs]
      exact .refl s
    · simp only [segmentArrives, hs, tcpSynsent, hrst, hsyn, Bool.not_false, if_true, Bool.false_eq_true, if_false, ite_self]
      exact .refl s

/-- TIME_WAIT echoes a pure ACK at `rcv_nxt` that it accepts. -/
theorem segmentArrives_echoes (ha : th.ackOnly) (hv : s.core.rcv.verify th skb) (he : s.echoes th) :
    segmentArrives s th skb = tcpSendAck { s with flagFin := true } := by
  have hs : s.state = .timeWait := by
    simp only [TcpSock.echoes, Bool.and_eq_true, decide_eq_true_eq] at he
    exact he.1.1
  have hl : s.state.late := by rw [hs]; exact ⟨nofun, nofun, nofun⟩
  rw [segmentArrives_late hl, tcpInputOtherwise_heard (ackOnly_heard ha hv)]
  simp only [Tcphdr.ackOnly, Bool.and_eq_true, Bool.not_eq_true'] at ha
  exact heard_echoes ha.1.1.2 he

theorem segmentArrives_unacceptable (hl : s.state.late) (hr : th.rst = false) (hv : s.core.rcv.verify th skb = false) :
    segmentArrives s th skb = tcpSendAck s := by
  have hv : tcpVerifySegment s th skb = false := hv
  rw [segmentArrives_late hl, tcpInputOtherwise, hv, hr]
  rfl

end

namespace Conn

/-- An acceptable segment arrives that is an ACK and nothing else. -/
def pureAck (c : Conn) : LifeEvent → Bool
  | .conn (.segment th data psh) =>
    !c.sk.fault && th.ackOnly && data.bytes.isEmpty && c.sk.acceptable th (tcpInitSegment th data psh)
  | _ => false

/-- It is not answered by a data-less ACK. -/
def NoAckOfAck (c : Conn) (e : LifeEvent) : Prop := c.pureAck e → ¬Emits (fun seg => seg.dataless) c.sk (c.live e).sk

/-- The socket is in TIME_WAIT, nothing is queued, and the segment is at `rcv_nxt`. -/
def echoes (c : Conn) : LifeEvent → Bool
  | .conn (.segment th _ _) => c.sk.echoes th
  | _ => false

theorem Loaded.noAckOfAck_iff {c : Conn} (h : c.Loaded) (e : LifeEvent) :
    c.NoAckOfAck e ↔ (c.pureAck e → c.echoes e = false) := by
  unfold NoAckOfAck pureAck echoes
  split
  next th data psh =>
    refine forall_congr' fun hp => ?_
    simp only [Bool.and_eq_true, Bool.not_eq_true', List.isEmpty_iff] at hp
    obtain ⟨⟨⟨hf, ha⟩, hd⟩, hv⟩ := hp
    have hd : (tcpInitSegment th data psh).dlen = 0 := Payload.len_eq_zero.mpr hd
    have hstep : (c.live (.conn (.segment th data psh))).sk = segmentArrives c.sk th (tcpInitSegment th data psh) := by
      simp [live, step, hf]
    rw [hstep]
    cases he : c.sk.echoes th with
    | false =>
      refine iff_of_true (fun hem => hem.not_logs ?_) rfl
      exact segmentArrives_lacks (spares_of_loaded (h.queue hf)) ha hd hv he
    | true =>
      refine iff_of_false (fun hn => hn ?_) (by simp)
      have hs : c.sk.state = .timeWait := by
        simp only [TcpSock.echoes, Bool.and_eq_true, decide_eq_true_eq] at he
        exact he.1.1
      have hl : c.sk.state.late := by rw [hs]; exact ⟨by simp, by simp, by simp⟩
      rw [acceptable_of_late hl] at hv
      rw [segmentArrives_echoes ha hv he]
      have hem : Emits (fun seg => seg.dataless) { c.sk with flagFin := true } (tcpSendAck { c.sk with flagFin := true }) :=
        tcpSendAck_emits hl.1 rfl
      exact hem.after_logs (Logs.same (P := fun _ => True) rfl)
  next => simp

end Conn

/-! ## Two endpoints -/

/-- The header of a segment, as its receiver reads it. -/
def Seg.tcphdr (seg : Seg) : Tcphdr :=
  { sport := seg.sport, dport := seg.dport, seq := seg.seq, ackSeq := seg.ackSeq
    hl := BitVec.ofNat 4 (5 + seg.opts.length / 4), fin := seg.fin, syn := seg.syn, rst := seg.rst, psh := seg.psh
    ack := seg.ack, win := seg.win, data := seg.opts ++ seg.payload.bytes }

/-- The segment of the peer arrives. -/
def TcpSock.hears (s : TcpSock) (seg : Seg) : TcpSock :=
  segmentArrives s seg.tcphdr (tcpInitSegment seg.tcphdr seg.payload seg.psh)

/-- The segment, if the effect is one and a data-less ACK. -/
def Effect.dataless? : Effect → Option Seg
  | .xmit seg _ => if seg.dataless then some seg else none
  | .queued _ _ _ | .peerFin | .wakeup _ | .acceptQueue _ => none

/-- The data-less ACKs sent between `s` and `s'`. -/
def acksSent (s s' : TcpSock) : List Seg := (s'.fx.drop s.fx.length).filterMap Effect.dataless?

/-- Two endpoints and the ACKs on their way to the first. -/
structure Volley where
  near : TcpSock
  far : TcpSock
  wire : List Seg

/-- The ACKs arrive, and those sent in reply are on their way to the other. -/
def Volley.turn (v : Volley) : Volley :=
  let near := v.wire.foldl TcpSock.hears v.near
  { near := v.far, far := near, wire := acksSent v.near near }

/-- The ACKs never stop. -/
def Volley.Endless (v : Volley) : Prop := ∀ n, (Volley.turn^[n] v).wire ≠ []

/-- A pure ACK with this number is answered: it is not acceptable, or it is at
`rcv_nxt` in TIME_WAIT. -/
def Core.answers (c : Core) (seq : U32) : Bool :=
  c.state ≠ .close && c.state ≠ .listen && c.state ≠ .synSent &&
    (seq < c.rcv.nxt || seq > c.rcv.nxt + c.rcv.wnd || (c.state = .timeWait && seq = c.rcv.nxt))

/-- Without data the test of `tcp_verify_segment` is on the number alone. -/
theorem verify_dataless (r : RcvSide) (th : Tcphdr) {skb : Skb} (hd : skb.dlen = 0) :
    r.verify th skb = !(th.seq < r.nxt || th.seq > r.nxt + r.wnd) := by
  have h : ¬skb.dlen > 0 := by rw [hd]; exact BitVec.lt_irrefl _
  rw [RcvSide.verify, decide_eq_false h]
  rfl

theorem acksSent_of_lacks {s t : TcpSock} (h : Logs (Effect.lacks fun seg => seg.dataless) s t) : acksSent s t = [] := by
  obtain ⟨new, hf, hp⟩ := h
  rw [acksSent, hf, List.drop_left, List.filterMap_eq_nil_iff]
  intro e he
  have := hp e he
  cases e with
  | xmit seg unread =>
    simp only [Effect.lacks] at this
    simp [Effect.dataless?, this]
  | _ => rfl

theorem ackSeg_dataless (s : TcpSock) : (ackSeg s).dataless = true := rfl

theorem acksSent_tcpSendAck {s t : TcpSock} (hs : t.state ≠ .close) (hf : t.fx = s.fx) :
    acksSent s (tcpSendAck t) = [ackSeg t] := by
  rw [acksSent, tcpSendAck_fx hs, hf, List.drop_left]
  simp [Effect.dataless?, ackSeg_dataless]

/-- A pure ACK: a data-less one without PSH. -/
def Seg.pure (seg : Seg) : Bool := seg.dataless && !seg.psh

theorem ackOnly_of_pure {x : Seg} (hx : x.pure) : x.tcphdr.ackOnly ∧ (tcpInitSegment x.tcphdr x.payload x.psh).dlen = 0 := by
  simp only [Seg.pure, Seg.dataless, Bool.and_eq_true, Bool.not_eq_true', List.isEmpty_iff] at hx
  obtain ⟨⟨⟨⟨⟨h1, h2⟩, h3⟩, h4⟩, h5⟩, h6⟩ := hx
  exact ⟨by simp [Tcphdr.ackOnly, Seg.tcphdr, h1, h2, h3, h4, h6], Payload.len_eq_zero.mpr h5⟩

section

variable {s : TcpSock} {x : Seg}

/-- A pure ACK that is answered changes nothing but `TCP_FIN`, and the answer is
one pure ACK at `snd_nxt`. -/
theorem hears_answers (hx : x.pure) (hq : s.writeQueue = []) (ha : s.core.answers x.seq) :
    ∃ y b, acksSent s (s.hears x) = [y] ∧ y.pure ∧ y.seq = s.core.snd.nxt ∧ (s.hears x).core = { s.core with flagFin := b } := by
  obtain ⟨hao, hd⟩ := ackOnly_of_pure hx
  simp only [Core.answers, Bool.and_eq_true, decide_eq_true_eq] at ha
  obtain ⟨⟨⟨h1, h2⟩, h3⟩, hans⟩ := ha
  have hl : s.state.late := ⟨h1, h2, h3⟩
  have hrst : x.tcphdr.rst = false := by
    simp only [Tcphdr.ackOnly, Bool.and_eq_true, Bool.not_eq_true'] at hao
    exact hao.1.2
  have hvd := verify_dataless s.core.rcv x.tcphdr hd
  unfold TcpSock.hears
  cases hv : s.core.rcv.verify x.tcphdr (tcpInitSegment x.tcphdr x.payload x.psh) with
  | false =>
    rw [segmentArrives_unacceptable hl hrst hv]
    exact ⟨ackSeg s, s.flagFin, acksSent_tcpSendAck h1 rfl, rfl, rfl, (quiet_tcpSendAck s).core⟩
  | true =>
    have he : s.echoes x.tcphdr = true := by
      rw [hv] at hvd
      have hin : (decide (x.seq < s.core.rcv.nxt) || decide (x.seq > s.core.rcv.nxt + s.core.rcv.wnd)) = false :=
        (Bool.not_eq_true' _).mp hvd.symm
      rw [hin, Bool.false_or] at hans
      simp only [Bool.and_eq_true, decide_eq_true_eq] at hans
      have hs : s.state = .timeWait := hans.1
      have hn : x.tcphdr.seq = s.tcb.rcvNxt := hans.2
      simp [TcpSock.echoes, hs, hn, hq]
    rw [segmentArrives_echoes hao hv he]
    exact ⟨ackSeg { s with flagFin := true }, true, acksSent_tcpSendAck (t := { s with flagFin := true }) h1 rfl, rfl, rfl,
      (quiet_tcpSendAck { s with flagFin := true }).core⟩

theorem hears_silent (hx : x.pure) (hq : s.writeQueue = []) (ha : s.core.answers x.seq = false) : acksSent s (s.hears x) = [] := by
  obtain ⟨hao, hd⟩ := ackOnly_of_pure hx
  have hsp : s.Spares (Effect.lacks fun seg => seg.dataless) := by
    intro k hk
    have : s.core.snd.queue = [] := by simp [TcpSock.core, TcpSock.snd, hq]
    rw [this] at hk
    cases hk
  refine acksSent_of_lacks (segmentArrives_lacks hsp hao hd ?_ ?_)
  · have hvd := verify_dataless s.core.rcv x.tcphdr hd
    simp only [TcpSock.acceptable, hvd]
    simp only [Core.answers] at ha
    show (_ || _ || _ || !(decide (x.seq < s.core.rcv.nxt) || decide (x.seq > s.core.rcv.nxt + s.core.rcv.wnd))) = true
    have h1 : s.core.state = s.state := rfl
    rw [h1] at ha
    cases hs : s.state <;> simp_all
  · cases he : s.echoes x.tcphdr with
    | false => rfl
    | true =>
      simp only [TcpSock.echoes, Bool.and_eq_true, decide_eq_true_eq] at he
      obtain ⟨⟨hs, -⟩, hn⟩ := he
      have h1 : s.core.state = .timeWait := hs
      have h2 : x.seq = s.core.rcv.nxt := hn
      simp [Core.answers, h1, h2] at ha

end

namespace Volley

/-- Each endpoint answers the other's ACKs. -/
structure Goes (v : Volley) : Prop where
  pure : ∃ x, v.wire = [x] ∧ x.pure ∧ v.near.core.answers x.seq
  far : v.far.core.answers v.near.core.snd.nxt
  near : v.near.core.answers v.far.core.snd.nxt
  nearIdle : v.near.writeQueue = []
  farIdle : v.far.writeQueue = []

theorem queue_nil_of_core {s t : TcpSock} {b : Bool} (hc : t.core = { s.core with flagFin := b }) (hq : s.writeQueue = []) :
    t.writeQueue = [] := by
  have h : t.core.snd.queue = s.core.snd.queue := by rw [hc]
  simp only [TcpSock.core, TcpSock.snd, hq, List.map_nil, List.map_eq_nil_iff] at h
  exact h

theorem Goes.turn {v : Volley} (h : v.Goes) : v.turn.Goes := by
  obtain ⟨x, hw, hx, ha⟩ := h.pure
  obtain ⟨y, b, hy, hp, hs, hc⟩ := hears_answers hx h.nearIdle ha
  have ht : v.turn = { near := v.far, far := v.near.hears x, wire := acksSent v.near (v.near.hears x) } := by
    rw [Volley.turn, hw]
    rfl
  rw [ht]
  refine ⟨⟨y, hy, hp, ?_⟩, ?_, ?_, h.farIdle, queue_nil_of_core hc h.nearIdle⟩
  · rw [hs]
    exact h.far
  · show (v.near.hears x).core.answers v.far.core.snd.nxt = true
    rw [hc]
    exact h.near
  · show v.far.core.answers (v.near.hears x).core.snd.nxt = true
    rw [hc]
    exact h.far

theorem Goes.endless {v : Volley} (h : v.Goes) : v.Endless := by
  intro n
  have hn : (Volley.turn^[n] v).Goes := by
    induction n generalizing v with
    | zero => exact h
    | succ n ih => exact ih h.turn
  obtain ⟨x, hw, -⟩ := hn.pure
  rw [hw]
  exact List.cons_ne_nil _ _

/-- One pure ACK between two endpoints with nothing to send starts an endless
exchange exactly if each answers the other. -/
theorem endless_iff {a b : TcpSock} (ha : a.writeQueue = []) (hb : b.writeQueue = []) {x : Seg} (hx : x.pure) :
    Endless ⟨a, b, [x]⟩ ↔ a.core.answers x.seq ∧ b.core.answers a.core.snd.nxt ∧ a.core.answers b.core.snd.nxt := by
  refine ⟨fun h => ?_, fun ⟨h1, h2, h3⟩ => Goes.endless ⟨⟨x, rfl, hx, h1⟩, h2, h3, ha, hb⟩⟩
  -- the first three ACKs must all have been answered
  have h1 : a.core.answers x.seq = true := by
    by_contra hn
    exact h 1 (hears_silent hx ha (by simpa using hn))
  obtain ⟨y, f, hy, hyp, hys, hac⟩ := hears_answers hx ha h1
  have t1 : Volley.turn ⟨a, b, [x]⟩ = ⟨b, a.hears x, [y]⟩ := by
    rw [Volley.turn, ← hy]
    rfl
  have h2 : b.core.answers a.core.snd.nxt = true := by
    by_contra hn
    refine h 2 ?_
    rw [Function.iterate_succ, Function.comp_apply, t1]
    exact hears_silent hyp hb (by rw [hys]; simpa using hn)
  obtain ⟨z, g, hz, hzp, hzs, hbc⟩ := hears_answers hyp hb (by rw [hys]; exact h2)
  have t2 : Volley.turn ⟨b, a.hears x, [y]⟩ = ⟨a.hears x, b.hears y, [z]⟩ := by
    rw [Volley.turn, ← hz]
    rfl
  refine ⟨h1, h2, ?_⟩
  by_contra hn
  refine h 3 ?_
  rw [Function.iterate_succ, Function.comp_apply, t1, Function.iterate_succ, Function.comp_apply, t2]
  refine hears_silent hzp (queue_nil_of_core hac ha) ?_
  rw [hzs, hac]
  exact Bool.eq_false_of_not_eq_true hn

end Volley

/-- **Acknowledging acknowledgements.** In the life of any socket no acceptable
pure ACK is answered by a data-less ACK if and only if none of them finds the
socket in TIME_WAIT with an empty queue and is at `rcv_nxt`. And one pure ACK
between two endpoints with nothing to send starts an endless exchange if and
only if each answers the other's. -/
theorem pure_acks_unanswered_iff {s : TcpSock} (hs : Born s) (es : List LifeEvent) {a b : TcpSock} (ha : a.writeQueue = [])
    (hb : b.writeQueue = []) {x : Seg} (hx : x.pure) :
    (Machine.Meets Conn.live Conn.NoAckOfAck { sk := s } es ↔
      Machine.Meets Conn.live (fun c e => c.pureAck e → c.echoes e = false) { sk := s } es) ∧
    (Volley.Endless ⟨a, b, [x]⟩ ↔
      a.core.answers x.seq ∧ b.core.answers a.core.snd.nxt ∧ a.core.answers b.core.snd.nxt) :=
  ⟨Machine.Meets.iff_of_invariant (I := Conn.Loaded) (fun _ e h => Conn.live_loaded h e)
    (fun _ e h => h.noAckOfAck_iff e) (Conn.loaded_of_born hs) es, Volley.endless_iff ha hb hx⟩

/-- A client that opens with `iss`, its peer's number being `irs`, closes first
and gets the peer's FIN. -/
def timeWaitRun (iss irs : U32) : List LifeEvent :=
  [.connect {} iss, .conn (.segment { seq := irs, ackSeq := iss + 1, syn := true, ack := true, win := 10000 } .nil false),
   .conn .close, .conn (.segment { seq := irs + 1, ackSeq := iss + 2, ack := true, win := 10000 } .nil false),
   .conn (.segment { seq := irs + 1, ackSeq := iss + 2, ack := true, fin := true, win := 10000 } .nil false)]

def timeWaitSock (iss irs : U32) : TcpSock := (Machine.run Conn.live { sk := freshSock {} } (timeWaitRun iss irs)).sk

/-- An ACK inside the window that is not at `rcv_nxt` ends the exchange. -/
theorem pure_acks_unanswered_client :
    (Born (freshSock {}) ∧ Machine.Meets Conn.live Conn.NoAckOfAck { sk := freshSock {} } (timeWaitRun 100 500)) ∧
    ¬Volley.Endless ⟨timeWaitSock 100 500, timeWaitSock 600 100, [ackSeg (timeWaitSock 600 100)]⟩ := by
  have h := pure_acks_unanswered_iff (.fresh {}) (timeWaitRun 100 500)
    (show (timeWaitSock 100 500).writeQueue = [] by decide +kernel) (show (timeWaitSock 600 100).writeQueue = [] by decide +kernel)
    (show (ackSeg (timeWaitSock 600 100)).pure by decide +kernel)
  exact ⟨⟨.fresh {}, h.1.mpr (by decide +kernel)⟩, fun hend => absurd (h.2.mp hend) (by decide +kernel)⟩

/-- In TIME_WAIT a pure ACK at `rcv_nxt` is acknowledged, and two sockets in
TIME_WAIT acknowledge each other for ever. -/
theorem time_wait_echoes :
    ¬Machine.Meets Conn.live Conn.NoAckOfAck { sk := freshSock {} } (timeWaitRun 100 500 ++
      [.conn (.segment { seq := 502, ackSeq := 102, ack := true, win := 10000 } .nil false)]) ∧
    Volley.Endless ⟨timeWaitSock 100 500, timeWaitSock 500 100, [ackSeg (timeWaitSock 500 100)]⟩ := by
  refine ⟨fun h => ?_, Volley.Goes.endless ⟨⟨_, rfl, by decide +kernel, by decide +kernel⟩, by decide +kernel, by decide +kernel,
    by decide +kernel, by decide +kernel⟩⟩
  have hlast := (Machine.Meets.append.mp h).2.1 (by decide +kernel)
  refine hlast ⟨[.xmit (ackSeg { timeWaitSock 100 500 with flagFin := true }) 0], by decide +kernel, _, _, List.mem_singleton_self _, rfl⟩

end LevelIp
