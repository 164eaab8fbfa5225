/-
Writers asleep in `tcp_wait_snd_wnd`. Only the removal of an acknowledged skb
signals them, so a writer that sleeps while nothing is queued, or on a
connection that takes no more ACKs, sleeps for good.
-/
import LevelIp.EndOfStream
import LevelIp.RtoCoverage

namespace LevelIp

/-! ## What an ACK signals -/

section

variable {s : TcpSock} {th : Tcphdr} {skb : Skb}

theorem tcpCleanLoop_signals (a : U32) (q : List Skb) (s : TcpSock) : signals .writeWait (tcpCleanLoop a q s).fx =
    signals .writeWait s.fx + (q.takeWhile (Skb.covered a)).length := by
  induction q generalizing s with
  | nil => rfl
  | cons k q ih =>
    rw [tcpCleanLoop]
    split
    next hc =>
      rw [ih, tcpCleanOne_fx, signals_append, List.takeWhile_cons, covered_iff.mpr hc, if_pos rfl, List.length_cons]
      have : signals .writeWait [.wakeup .writeWait] = 1 := rfl
      omega
    next hc =>
      rw [List.takeWhile_cons, if_neg fun h => hc (covered_iff.mp h)]
      rfl

/-- How many skbs the ACK takes off `write_queue`. -/
def TcpSock.cleans (s : TcpSock) (th : Tcphdr) : Nat :=
  if ackIsNew s th then (s.writeQueue.takeWhile (Skb.covered th.ackSeq)).length else 0

theorem tcpRtt_queue (s : TcpSock) : (tcpRtt s).writeQueue = s.writeQueue := by
  unfold tcpRtt
  split
  · rfl
  · split
    · rfl
    · dsimp only
      split
      · rfl
      · split <;> rfl

theorem newAck_fx (s : TcpSock) (th : Tcphdr) :
    (newAck s th).fx = (tcpCleanLoop th.ackSeq s.writeQueue (tcpRtt { s with tcb.sndUna := th.ackSeq })).fx := by
  have hq := tcpRtt_queue { s with tcb.sndUna := th.ackSeq }
  have hc : ∀ t : TcpSock, (tcpCleanRtoQueue t th.ackSeq).fx = (tcpCleanLoop th.ackSeq t.writeQueue t).fx := by
    intro t
    unfold tcpCleanRtoQueue
    dsimp only
    split
    · exact tcpStopRtoTimer_fx _
    · rfl
  rw [newAck]
  dsimp only
  generalize tcpRtt { s with tcb.sndUna := th.ackSeq } = t at hq
  have hq : t.writeQueue = s.writeQueue := hq
  rw [← hq, ← hc]
  split <;> rfl

/-- An ACK signals one writer for each skb it takes off. -/
theorem taken_signals (s : TcpSock) (th : Tcphdr) :
    signals .writeWait (s.taken th).fx = signals .writeWait s.fx + s.cleans th := by
  unfold TcpSock.taken TcpSock.cleans
  split
  · rw [newAck_fx, tcpCleanLoop_signals, tcpRtt_fx]
  · rfl

theorem finBit_logs (s : TcpSock) (th : Tcphdr) (expected : Bool) : Logs (fun _ => True) s (finBit s th expected).sock := by
  unfold finBit
  split
  · split
    case h_1 | h_2 | h_3 => exact .refl s
    · dsimp only [Ctl.sock]
      refine Logs.trans ?_ (.same (finState_fx _))
      refine Logs.trans ?_ (.emit trivial)
      refine Logs.trans ?_ ((quiet_tcpSendAck _).logs.mono fun _ _ => trivial)
      exact .emit trivial
  · exact .refl s

theorem afterAck_logs (s : TcpSock) (th : Tcphdr) (skb : Skb) : Logs (fun _ => True) s (afterAck s th skb).sock := by
  rw [afterAck_eq]
  have hl := (finAcked_logs s th).mono fun _ _ => trivial
  refine Ctl.andThen_spared hl fun t _ => ?_
  refine Ctl.andThen_spared (((segmentText_logs t th skb).mono fun _ _ => trivial).trans (finBit_logs _ th _)) fun u _ => ?_
  exact (ackData_logs u th skb _).mono fun _ _ => trivial

theorem ackData_isEmpty (s : TcpSock) (th : Tcphdr) (skb : Skb) (expected : Bool) :
    (ackData s th skb expected).writeQueue.isEmpty = s.writeQueue.isEmpty := by
  unfold ackData
  split
  case h_4 => rfl
  all_goals
    split
    case isFalse => rfl
    have hstop : (tcpStopDelackTimer s).writeQueue.isEmpty = s.writeQueue.isEmpty := by
      rw [← queue_isEmpty, (quiet_tcpStopDelackTimer s).core, queue_isEmpty]
    generalize tcpStopDelackTimer s = t at hstop
    dsimp only
    split
    · exact (tcpSendNext_isEmpty _ _ _).trans hstop
    · have hd : (if !th.psh && skb.dlen > 1000 then { t with delacks := t.delacks + 1 } else t).writeQueue = t.writeQueue := by
        split <;> rfl
      generalize (if !th.psh && skb.dlen > 1000 then { t with delacks := t.delacks + 1 } else t) = u at hd
      rw [← hstop, ← hd]
      split
      · rw [← queue_isEmpty, (quiet_tcpSendAck _).core, queue_isEmpty]
      · split <;> rfl

/-- What follows the ACK field leaves the queue empty or not, as it was. -/
theorem afterAck_isEmpty (s : TcpSock) (th : Tcphdr) (skb : Skb) :
    (afterAck s th skb).sock.writeQueue.isEmpty = s.writeQueue.isEmpty := by
  have hf := congrArg SndSide.queue (finAcked_snd s th)
  rw [afterAck_eq]
  cases ha : finAcked s th with
  | ret t =>
    rw [ha] at hf
    rw [Ctl.andThen, ← queue_isEmpty, hf, queue_isEmpty]
  | next t =>
    rw [ha] at hf
    have ht : t.writeQueue.isEmpty = s.writeQueue.isEmpty := by rw [← queue_isEmpty, ← queue_isEmpty s, ← hf]; rfl
    have hb := congrArg SndSide.queue (finBit_snd (segmentText t th skb) th (skb.seq = t.tcb.rcvNxt))
    rw [Ctl.andThen, afterFin, ← ht, ← segmentText_queue t th skb]
    cases hu : finBit (segmentText t th skb) th (skb.seq = t.tcb.rcvNxt) with
    | ret u =>
      rw [hu] at hb
      rw [Ctl.andThen, ← queue_isEmpty, hb, queue_isEmpty]
    | next u =>
      rw [hu] at hb
      rw [Ctl.andThen, Ctl.sock, ackData_isEmpty, ← queue_isEmpty, show u.core.snd.queue = _ from hb, queue_isEmpty]

/-- An ACK that does not pass takes nothing off the queue. -/
theorem ackSynchronized_stops (h : s.ackPasses th skb = false) : ∃ t, ackSynchronized s th skb = .ret t ∧
    t.writeQueue.isEmpty = s.writeQueue.isEmpty ∧ t.state = s.state := by
  cases hd : tcpIsDupack s th skb with
  | true =>
    refine ⟨_, if_pos hd, ?_, ?_⟩
    · exact tcpHandleDupack_isEmpty s
    · exact tcpHandleDupack_state s
  | false =>
    have hok : ¬s.core.snd.AckOk th := fun hok => by simp [TcpSock.ackPasses, hd, hok] at h
    have hn : ackIsNew s th = false := by
      by_contra hn
      simp only [Bool.not_eq_false, ackIsNew, Bool.and_eq_true, decide_eq_true_eq] at hn
      exact hok ⟨BitVec.le_of_lt hn.1, hn.2⟩
    exact ⟨s, ackSynchronized_outside hd hn hok, rfl, rfl⟩

/-- The segment is the last that will signal the writers, with how many it does
signal: an RST, the ACK of everything queued, or the FIN that ends FIN_WAIT_2. -/
def TcpSock.silences (s : TcpSock) (th : Tcphdr) (skb : Skb) : Option Nat :=
  if s.hearsRst th skb then some 0
  else if s.core.Heard th skb && s.ackPasses th skb &&
      (s.acksAll th || s.state = .finWait2 && th.fin && skb.seq = s.tcb.rcvNxt) then some (s.cleans th)
  else none

theorem heard_ne_timeWait {st : TcpState} (hs : st.takesAck) {b c : Bool} (h : (decide (st = .finWait2) && b && c) = false) :
    st.heard false (b && c) ≠ .timeWait := by
  cases b <;> cases c <;> cases st <;> first | decide | exact absurd h (by decide) | cases hs

/-- After a segment that does not silence the socket something is still queued
and ACKs are taken. -/
theorem segmentArrives_silences (hs : s.state.takesAck) (hq : s.writeQueue.isEmpty = false) (th : Tcphdr) (skb : Skb) :
    (∃ n, s.silences th skb = some n ∧ signals .writeWait s.fx + n ≤ signals .writeWait (segmentArrives s th skb).fx) ∨
    (s.hearsRst th skb = false ∧ segmentFinishes s th skb = false ∧ (segmentArrives s th skb).writeQueue.isEmpty = false ∧
      (segmentArrives s th skb).state ≠ .timeWait) := by
  have hl : s.state.late := by cases hst : s.state <;> simp_all [TcpState.takesAck, TcpState.late]
  have htw : s.state ≠ .timeWait := by
    intro h
    rw [h] at hs
    cases hs
  have hfin : segmentFinishes s th skb → s.core.Heard th skb ∧ s.ackPasses th skb ∧ s.acksAll th := by
    intro h
    cases hst : s.state <;> simp_all [segmentFinishes, TcpState.takesAck]
  have hrst : s.hearsRst th skb = (s.core.rcv.verify th skb && th.rst) := by
    cases hst : s.state <;> simp_all [TcpSock.hearsRst, TcpState.takesAck]
  rw [segmentArrives_late hl]
  rcases tcpInputOtherwise_cases s th skb with ⟨hh, he⟩ | ⟨hv, hr, he⟩ | ⟨hh, he⟩
  · have hnr : s.hearsRst th skb = false := by
      rw [hrst]
      simp only [Core.Heard, Bool.and_eq_true, Bool.not_eq_true'] at hh
      simp [hh]
    rw [he, ackField_synchronized hs]
    cases hp : s.ackPasses th skb with
    | false =>
      obtain ⟨t, ht, hqt, hst⟩ := ackSynchronized_stops hp
      rw [ht]
      refine .inr ⟨hnr, ?_, hqt.trans hq, fun h => htw (hst.symm.trans h)⟩
      by_contra hf
      have hf := hfin (by simpa using hf)
      rw [hp] at hf
      cases hf.2.1
    | true =>
      have hsig := taken_signals s th
      have hst := ackSynchronized_heard hl th skb
      have hqt := taken_isEmpty s th
      rw [if_pos hp] at hst
      rw [ackSynchronized_taken hp, Ctl.andThen] at hst ⊢
      generalize s.taken th = t at hsig hqt hst
      have hlog := (afterAck_logs { t with lastAckWin := th.win } th skb).signals .writeWait
      have hemp := afterAck_isEmpty { t with lastAckWin := th.win } th skb
      cases hc : (s.acksAll th || s.state = .finWait2 && th.fin && skb.seq = s.tcb.rcvNxt) with
      | true =>
        refine .inl ⟨s.cleans th, ?_, ?_⟩
        · rw [TcpSock.silences, hnr, hh, hp, hc]
          rfl
        · rw [← hsig]
          exact hlog
      | false =>
        rw [Bool.or_eq_false_iff] at hc
        refine .inr ⟨hnr, ?_, hemp.trans (hqt.trans hc.1), ?_⟩
        · by_contra hf
          have hf := hfin (by simpa using hf)
          rw [hc.1] at hf
          cases hf.2.2
        · rw [hst, hc.1]
          exact heard_ne_timeWait hs hc.2
  · refine .inl ⟨0, ?_, ?_⟩
    · rw [TcpSock.silences, hrst, hv, hr]
      rfl
    · rw [he]
      show _ ≤ signals .writeWait ((tcpEnterTimeWait s).fx ++ [.wakeup .recvWait])
      rw [tcpEnterTimeWait_fx, signals_append]
      exact Nat.le_add_right _ _
  · have hst : (tcpInputOtherwise s th skb).state = s.state := by
      rcases he with he | he <;> rw [he]
      exact (quiet_tcpSendAck s).state
    refine .inr ⟨?_, ?_, ?_, fun h => htw (hst.symm.trans h)⟩
    · by_contra hr
      rw [← segmentArrives_late hl, segmentArrives_rst (by simpa using hr)] at hst
      exact htw (hst.symm.trans (congrArg Core.state (tcpEnterTimeWait_core s)))
    · by_contra hf
      have hf := hfin (by simpa using hf)
      rw [hh] at hf
      cases hf.1
    · rcases he with he | he <;> rw [he]
      · exact hq
      · rw [← queue_isEmpty, (quiet_tcpSendAck s).core, queue_isEmpty]
        exact hq

end

/-! ## Writers that go to sleep -/

/-- Only a segment takes anything off the queue, or leads to TIME_WAIT. -/
theorem Move.calm {a : Act} {c c' : Core} {es : List Effect} (hm : Move a c es c') (ha : ∀ c₀ th skb, a ≠ .arrive c₀ th skb) :
    (c.snd.queue ≠ [] → c'.snd.queue ≠ []) ∧ (c'.state = .timeWait → c.state = .timeWait) := by
  have push : ∀ {d : SndSide} {k : Skb}, (d.enqueue k).queue ≠ [] := fun {d k} h => by
    simp [SndSide.enqueue] at h
  cases hm with
  | data => exact ⟨fun _ => push, id⟩
  | queueFin lastAck =>
    refine ⟨fun _ => push, fun h => ?_⟩
    cases lastAck
    · exact h
    · cases h
  | quiet | spin | closeRefused | dequeue | eof | resendHead => exact ⟨id, id⟩
  | giveUp | finSent | finResent | linger | userTimeout | abort | closeDone | closeStart => exact ⟨id, by rintro ⟨⟩⟩
  | _ => exact absurd rfl (ha _ _ _)

theorem SockMoves.calm {a : Act} {s t : TcpSock} (h : SockMoves a s t) (ha : ∀ c₀ th skb, a ≠ .arrive c₀ th skb) :
    (s.writeQueue.isEmpty = false → t.writeQueue.isEmpty = false) ∧ (t.state = .timeWait → s.state = .timeWait) := by
  obtain ⟨es, -, hm⟩ := h
  have key : ∀ {k k' : Core} {es : List Effect}, Moves a k es k' →
      (k.snd.queue ≠ [] → k'.snd.queue ≠ []) ∧ (k'.state = .timeWait → k.state = .timeWait) := by
    intro k k' es hm
    induction hm with
    | nil => exact ⟨id, id⟩
    | cons h _ ih =>
      have h := h.calm ha
      exact ⟨fun hq => ih.1 (h.1 hq), fun hs => h.2 (ih.2 hs)⟩
  have hne : ∀ u : TcpSock, u.writeQueue.isEmpty = false ↔ u.core.snd.queue ≠ [] := fun u => by
    rw [← queue_isEmpty, List.isEmpty_eq_false_iff]
  rw [hne, hne]
  exact key hm

/-- Every chunk of a buffer fits, one after the other. -/
def chunksFit (w : U32) (mss : U16) : Nat → U32 → List U8 → Bool
  | _, _, [] => true
  | 0, _, _ :: _ => true
  | fuel + 1, inflight, buf@(_ :: _) =>
    let len := (Payload.ofTake mss buf).len
    inflight + len ≤ w && chunksFit w mss fuel (inflight + len) (buf.drop mss.toNat)

theorem tcpQueueTransmitSkb_flight (s : TcpSock) (k : Skb) : (tcpQueueTransmitSkb s k).inflight = s.inflight + k.dlen ∧
    umin (tcpQueueTransmitSkb s k).cwnd (tcpQueueTransmitSkb s k).tcb.sndWnd = umin s.cwnd s.tcb.sndWnd := by
  have hc := tcpQueueTransmitSkb_cong s k
  have hw : (tcpQueueTransmitSkb s k).tcb.sndWnd = s.tcb.sndWnd := tcpQueueTransmitSkb_wnd s k
  have hi : (tcpQueueTransmitSkb s k).inflight = s.inflight + k.dlen := congrArg Cong.inflight hc
  have hcw : (tcpQueueTransmitSkb s k).cwnd = s.cwnd := congrArg Cong.cwnd hc
  rw [hw, hcw]
  exact ⟨hi, rfl⟩

/-- Where every chunk fits nobody sleeps. -/
theorem tcpSendLoop_fits {mss : U16} {len fuel : Nat} {s : TcpSock} {buf : List U8}
    (h : chunksFit (umin s.cwnd s.tcb.sndWnd) mss fuel s.inflight buf) : (tcpSendLoop mss len fuel s buf).2.call? = none := by
  induction fuel generalizing s buf with
  | zero => cases buf <;> rfl
  | succ fuel ih =>
    cases buf with
    | nil => rfl
    | cons x xs =>
      simp only [chunksFit, Bool.and_eq_true] at h
      have ho : sndWndOpen s (Payload.ofTake mss (x :: xs)).len := h.1
      rw [tcpSendLoop, if_pos ho]
      refine ih ?_
      obtain ⟨hi, hw⟩ := tcpQueueTransmitSkb_flight s (dataSkb (Payload.ofTake mss (x :: xs)) ((x :: xs).drop mss.toNat).isEmpty)
      rw [hi, hw]
      exact h.2

/-- Whoever sleeps in `tcp_send` has queued something, or is at its first chunk. -/
theorem tcpSendLoop_stalls {mss : U16} {len fuel : Nat} {s : TcpSock} {buf : List U8} {call : Call} (hs : s.state ≠ .synSent)
    (h : (tcpSendLoop mss len fuel s buf).2 = .sleep call) (hq : (tcpSendLoop mss len fuel s buf).1.writeQueue.isEmpty) :
    s.writeQueue.isEmpty ∧ buf ≠ [] ∧ sndWndOpen s (Payload.ofTake mss buf).len = false := by
  have hmono : ∀ t : TcpSock, t.state ≠ .synSent → ∀ fuel buf, (tcpSendLoop mss len fuel t buf).1.writeQueue.isEmpty → t.writeQueue.isEmpty := by
    intro t ht fuel buf hq
    have hm := tcpSendLoop_moves mss len fuel ht buf
    generalize (tcpSendLoop mss len fuel t buf).1 = u at hm hq
    by_contra hne
    have := (hm.calm fun _ _ _ h => by cases h).1 (by simpa using hne)
    rw [this] at hq
    cases hq
  refine ⟨hmono s hs fuel buf hq, ?_⟩
  cases fuel with
  | zero => cases buf <;> cases h
  | succ fuel =>
    cases buf with
    | nil => cases h
    | cons x xs =>
      refine ⟨nofun, ?_⟩
      rw [tcpSendLoop] at hq
      split at hq
      next ho =>
        have hst : (tcpQueueTransmitSkb s (dataSkb (Payload.ofTake mss (x :: xs)) ((x :: xs).drop mss.toNat).isEmpty)).state ≠ .synSent := by
          rw [tcpQueueTransmitSkb_state]
          exact hs
        have := hmono _ hst _ _ hq
        rw [← queue_isEmpty, tcpQueueTransmitSkb_core] at this
        simp [SndSide.enqueue] at this
      next ho => simpa using ho

/-- The states before ESTABLISHED. -/
def TcpState.unsynced : TcpState → Bool
  | .close | .listen | .synSent | .synReceived => true
  | .established | .finWait1 | .finWait2 | .closeWait | .closing | .lastAck | .timeWait => false

theorem Move.unsynced {a : Act} {c c' : Core} {es : List Effect} (hm : Move a c es c') (h : c'.state.unsynced) :
    c.state.unsynced := by
  cases hm with
  | fin =>
    simp only [Core.finState] at h
    split at h
    case h_3 => split at h <;> cases h
    all_goals first | exact h | cases h
  | simultaneous hs =>
    rw [hs]
    rfl
  | queueFin lastAck =>
    cases lastAck
    · exact h
    · cases h
  | _ => first | exact h | cases h

namespace Conn

/-- A writer goes to sleep though nothing will signal it: at its first chunk
with nothing queued, or on a dead connection. -/
def stalls (c : Conn) (dead : Bool) : LifeEvent → Bool
  | .conn (.write buf) => !c.sk.fault && tcpWriteAccepts c.sk && !buf.isEmpty && c.sk.writeQueue.isEmpty &&
      !sndWndOpen c.sk (Payload.ofTake c.sk.smss buf).len
  | .conn .close => !c.sk.fault && (c.sk.state = .established || c.sk.state = .closeWait) && c.sk.writeQueue.isEmpty &&
      !sndWndOpen c.sk 0
  | .conn (.resume i) =>
    match c.calls[i]? with
    | some (.send mss chunk rest _) => !c.sk.fault && if sndWndOpen c.sk chunk.len then
        dead && !chunksFit (umin c.sk.cwnd c.sk.tcb.sndWnd) mss rest.length (c.sk.inflight + chunk.len) rest
      else dead || c.sk.writeQueue.isEmpty
    | some (.fin _) => !c.sk.fault && (dead || c.sk.writeQueue.isEmpty) && !sndWndOpen c.sk 0
    | some (.recv _ _) | none => false
  | _ => false

/-- The event is the last that will signal the writers, with how many it does
signal. -/
def silences (c : Conn) : LifeEvent → Option Nat
  | .conn (.segment th data psh) => if c.sk.fault then none else c.sk.silences th (tcpInitSegment th data psh)
  | e => if e.event?.any c.finishes then some 0 else none

/-- Nobody writes before ESTABLISHED. -/
def Unwritten (c : Conn) : Prop := c.sk.state.unsynced → ∀ call ∈ c.calls, ∃ len got, call = .recv len got

theorem Unwritten.onlyReaders {c : Conn} (h : c.Unwritten) : c.OnlyReaders := fun hs => h (by
  cases hst : c.sk.state <;> rw [hst] at hs <;> first | rfl | cases hs)

theorem live_unwritten {c : Conn} (h : c.Unwritten) (e : LifeEvent) : (c.live e).Unwritten :=
  live_readers (P := fun st => st.unsynced) nofun nofun rfl (fun hm hu => hm.unsynced hu) h.onlyReaders.ready h e

theorem Unwritten.waiting {c : Conn} (h : c.Unwritten) (hs : c.sk.state.unsynced) : c.waiting .writeWait = 0 := by
  rw [Conn.waiting, List.countP_eq_zero]
  intro call hm
  obtain ⟨len, got, rfl⟩ := h hs call hm
  rintro ⟨⟩

theorem settle_call {c : Conn} {r : TcpSock × Outcome} {call : Call} (h : r.2.call? = some call) : (c.settle r).sk = r.1 :=
  settle_close_sk fun hs => by
    rw [hs] at h
    cases h

/-- A write that sleeps, on a live connection. -/
theorem write_stalls {s : TcpSock} {buf : List U8} {call : Call} (h : (tcpWrite s buf).2.call? = some call) :
    tcpWriteAccepts s ∧ ((tcpWrite s buf).1.writeQueue.isEmpty → s.writeQueue.isEmpty ∧ buf ≠ [] ∧
      sndWndOpen s (Payload.ofTake s.smss buf).len = false) := by
  unfold tcpWrite at h ⊢
  split at h
  next ha =>
    refine ⟨ha, fun hq => ?_⟩
    rw [if_pos ha] at hq
    have hs : s.state ≠ .synSent := by
      rcases tcpWriteAccepts_state ha with hs | hs <;> rw [hs] <;> nofun
    exact tcpSendLoop_stalls hs (call?_eq_some h) hq
  next => cases h

theorem queueFin_stalls {s : TcpSock} {lastAck : Bool} {call : Call} (h : (tcpQueueFin s lastAck).2.call? = some call) :
    sndWndOpen s 0 = false ∧ (tcpQueueFin s lastAck).1 = s := by
  unfold tcpQueueFin at h ⊢
  split at h
  · cases h
  next ho =>
    rw [if_neg ho]
    exact ⟨by simpa using ho, rfl⟩

theorem close_stalls {s : TcpSock} {call : Call} (h : (tcpClose s).2.call? = some call) :
    (s.state = .established ∨ s.state = .closeWait) ∧ sndWndOpen s 0 = false ∧ (tcpClose s).1.writeQueue = s.writeQueue := by
  unfold tcpClose at h ⊢
  split at h
  case h_10 hs =>
    obtain ⟨ho, hq⟩ := queueFin_stalls h
    exact ⟨.inl hs, ho, (congrArg TcpSock.writeQueue hq).trans rfl⟩
  case h_11 hs =>
    obtain ⟨ho, hq⟩ := queueFin_stalls h
    exact ⟨.inr hs, ho, congrArg TcpSock.writeQueue hq⟩
  all_goals cases h

/-- A writer that runs again and sleeps: it has queued its chunk, or it cannot
get it out. -/
theorem resumeSend_stalls {s : TcpSock} {mss : U16} {chunk : Payload} {rest : List U8} {len : Nat} {call : Call}
    (hs : s.state ≠ .synSent) (h : (resumeSend s (.send mss chunk rest len)).2.call? = some call) :
    if sndWndOpen s chunk.len then
      chunksFit (umin s.cwnd s.tcb.sndWnd) mss rest.length (s.inflight + chunk.len) rest = false ∧
      (resumeSend s (.send mss chunk rest len)).1.writeQueue.isEmpty = false
    else (resumeSend s (.send mss chunk rest len)).1 = s := by
  split
  next ho =>
    rw [resumeSend, if_pos ho] at h ⊢
    obtain ⟨hi, hw⟩ := tcpQueueTransmitSkb_flight s (dataSkb chunk rest.isEmpty)
    have hst : (tcpQueueTransmitSkb s (dataSkb chunk rest.isEmpty)).state ≠ .synSent := by
      rw [tcpQueueTransmitSkb_state]
      exact hs
    have hq : (tcpQueueTransmitSkb s (dataSkb chunk rest.isEmpty)).writeQueue.isEmpty = false := by
      rw [← queue_isEmpty, tcpQueueTransmitSkb_core]
      simp [SndSide.enqueue]
    refine ⟨?_, ?_⟩
    · by_contra hf
      have hfit : chunksFit (umin s.cwnd s.tcb.sndWnd) mss rest.length (s.inflight + chunk.len) rest := by simpa using hf
      have hn : (tcpSendLoop mss len rest.length (tcpQueueTransmitSkb s (dataSkb chunk rest.isEmpty)) rest).2.call? = none :=
        tcpSendLoop_fits (by rw [hi, hw]; exact hfit)
      rw [hn] at h
      cases h
    · by_contra hne
      have := (tcpSendLoop_stalls hst (call?_eq_some h) (by simpa using hne)).1
      rw [hq] at this
      cases this
  next ho => rw [resumeSend, if_neg ho]

/-- A writer that goes to sleep and does not stall has something queued. -/
theorem dozer_stalls {c : Conn} {dead : Bool} (hd : dead → c.sk.state.over) (hu : c.Unwritten) {e : LifeEvent} {call : Call}
    (h : c.dozer e = some call) (hw : call.wait = .writeWait) (hs : c.stalls dead e = false) :
    dead = false ∧ (c.live e).sk.writeQueue.isEmpty = false ∧ (∀ th data psh, e ≠ .conn (.segment th data psh)) ∧
      e.event?.any c.finishes = false := by
  have alive : c.sk.state = .established ∨ c.sk.state = .closeWait → dead = false := by
    intro hst
    by_contra hd'
    have := hd (by simpa using hd')
    rcases hst with hst | hst <;> rw [hst] at this <;> cases this
  cases e with
  | listen => cases h
  | connect => cases h
  | conn e =>
    cases hf : c.sk.fault with
    | true =>
      simp only [dozer, hf, if_true] at h
      cases h
    | false =>
      simp only [dozer, hf, Bool.false_eq_true, if_false] at h
      cases e with
      | write buf =>
        obtain ⟨ha, hq⟩ := write_stalls h
        refine ⟨alive (tcpWriteAccepts_state ha), ?_, by simp, by simp [LifeEvent.event?, finishes]⟩
        have hsk : (c.live (.conn (.write buf))).sk = (tcpWrite c.sk buf).1 := by
          simp only [live, step, hf, Bool.false_eq_true, if_false]
          exact settle_call h
        rw [hsk]
        by_contra hne
        obtain ⟨h1, h2, h3⟩ := hq (by simpa using hne)
        simp [stalls, hf, ha, h1, h2, h3] at hs
      | close =>
        obtain ⟨hst, ho, hq⟩ := close_stalls h
        have hfin : closeFinishes c.sk = false := by rcases hst with hst | hst <;> simp [closeFinishes, hst]
        refine ⟨alive hst, ?_, by simp, by simp [LifeEvent.event?, finishes, hfin]⟩
        have hsk : (c.live (.conn .close)).sk = (tcpClose c.sk).1 := by
          simp only [live, step, hf, Bool.false_eq_true, if_false]
          exact settle_call h
        rw [hsk, hq]
        simpa [stalls, hf, hst, show sndWndOpen c.sk 0#32 = false from ho] using hs
      | resume i =>
        have hev : (∀ th data psh, LifeEvent.conn (.resume i) ≠ .conn (.segment th data psh)) ∧
            (LifeEvent.conn (.resume i)).event?.any c.finishes = false :=
          ⟨by simp, by simp [LifeEvent.event?, finishes]⟩
        cases hi : c.calls[i]? with
        | none =>
          simp only [hi] at h
          cases h
        | some call' =>
          simp only [hi] at h
          cases call' with
          | recv len got =>
            obtain ⟨len, got, rfl⟩ := tcpReceiveTurn_sleep (call?_eq_some h)
            cases hw
          | send mss chunk rest len =>
            have hst : c.sk.state ≠ .synSent := fun hst => by
              obtain ⟨len, got, he⟩ := hu (by rw [hst]; rfl) _ (List.mem_of_getElem? hi)
              cases he
            have hsk : (c.live (.conn (.resume i))).sk = (resumeSend c.sk (.send mss chunk rest len)).1 := by
              simp only [live, step, resume, hf, hi, Bool.false_eq_true, if_false]
              exact settle_call h
            have hstall := resumeSend_stalls hst h
            simp only [stalls, hi, hf, Bool.not_false, Bool.true_and] at hs
            rw [hsk]
            split at hstall
            next ho =>
              rw [if_pos ho, hstall.1, Bool.not_false, Bool.and_true] at hs
              exact ⟨hs, hstall.2, hev⟩
            next ho =>
              rw [if_neg ho, Bool.or_eq_false_iff] at hs
              exact ⟨hs.1, by rw [hstall]; exact hs.2, hev⟩
          | fin lastAck =>
            obtain ⟨ho, hq⟩ := queueFin_stalls h
            have hsk : (c.live (.conn (.resume i))).sk = (tcpQueueFin c.sk lastAck).1 := by
              simp only [live, step, resume, hf, hi, Bool.false_eq_true, if_false]
              exact settle_call h
            simp only [stalls, hi, hf, ho, Bool.not_false, Bool.true_and, Bool.and_true, Bool.or_eq_false_iff] at hs
            rw [hsk, hq]
            exact ⟨hs.1, hs.2, hev⟩
      | read len =>
        obtain ⟨len, got, rfl⟩ := tcpRead_sleep (call?_eq_some h)
        cases hw
      | _ => cases h

end Conn

namespace Conn

/-- Only a segment takes anything off the queue, or leads to TIME_WAIT. -/
theorem live_calm {c : Conn} (hr : c.OnlyReaders) {e : LifeEvent} (he : ∀ th data psh, e ≠ .conn (.segment th data psh)) :
    (c.sk.writeQueue.isEmpty = false → (c.live e).sk.writeQueue.isEmpty = false) ∧
    ((c.live e).sk.state = .timeWait → c.sk.state = .timeWait) := by
  have opens : ∀ {s t : TcpSock}, s.core.Opens t.core →
      (s.writeQueue.isEmpty = false → t.writeQueue.isEmpty = false) ∧ (t.state = .timeWait → s.state = .timeWait) := by
    intro s t ho
    rw [← queue_isEmpty, ← queue_isEmpty, ← core_state, ← core_state]
    generalize t.core = k at ho
    cases ho with
    | fails => exact ⟨id, id⟩
    | listen => exact ⟨id, nofun⟩
    | connect => exact ⟨fun _ => by simp [SndSide.connect, SndSide.enqueue], nofun⟩
  cases e with
  | conn e => exact (step_moves hr.ready e).calm (not_arrive fun th data psh h => he th data psh (by rw [h]))
  | listen =>
    simp only [live]
    split
    · exact ⟨id, id⟩
    · exact opens (tcpV4Listen_opens c.sk).1
  | connect d iss =>
    simp only [live]
    split
    · exact ⟨id, id⟩
    · exact opens (inetStreamConnect_opens c.sk d iss).1

end Conn

/-- A socket with its writers: whether it was reset or finished, and how many
of the writers asleep have been signalled. -/
structure Writers where
  conn : Conn
  ended : Bool := false
  woken : Nat := 0

namespace Writers

def step (h : Writers) (e : LifeEvent) : Writers :=
  { conn := h.conn.live e
    ended := h.ended || e.event?.any h.conn.finishes || e.event?.any h.conn.hearsRst
    woken := h.conn.wokenAfter .writeWait h.woken e }

/-- If a writer is asleep then something is queued, and the connection still
takes ACKs. -/
def Wakeable (h : Writers) : Prop :=
  h.woken < h.conn.waiting .writeWait →
    h.conn.sk.writeQueue.isEmpty = false ∧ h.conn.sk.state ≠ .timeWait ∧ h.ended = false

/-- No writer stalls, and the event that is the last to signal them finds no more
writers asleep than it signals. -/
def spares (h : Writers) (e : LifeEvent) : Bool :=
  !h.conn.stalls (h.ended || h.conn.sk.state = .timeWait) e &&
  (h.conn.silences e).all fun n => h.conn.waiting .writeWait ≤ h.woken + n

/-- What holds of writers over the life of a socket. -/
structure Inv (h : Writers) : Prop where
  unwritten : h.conn.Unwritten
  ended : h.ended → h.conn.sk.state.over
  wakeable : h.Wakeable

theorem Inv.dead {h : Writers} (hi : h.Inv) (hd : h.ended || h.conn.sk.state = .timeWait) : h.conn.sk.state.over := by
  rw [Bool.or_eq_true, decide_eq_true_eq] at hd
  rcases hd with hd | hd
  · exact hi.ended hd
  · rw [hd]
    rfl

theorem step_ended {h : Writers} (hi : h.Inv) {e : LifeEvent} (he : (h.step e).ended) : (h.step e).conn.sk.state.over := by
  show (h.conn.live e).sk.state.over
  by_cases hold : h.ended
  · exact Conn.live_keeps_core (I := fun k => k.state.over) (fun hmv hk => hmv.over hk) (fun ho hk => Ended.opens_over ho hk)
      hi.unwritten.onlyReaders (hi.ended hold) e
  · have hst := Conn.live_state h.conn e
    split at hst
    · rw [hst]; rfl
    next hrst =>
      split at hst
      · rw [hst]; rfl
      next hfin => simp [step, hold, hrst, hfin] at he

/-- What an event that silences nobody leaves as it was. -/
theorem step_quiet {h : Writers} (hi : h.Inv) {e : LifeEvent} (hq : h.conn.sk.writeQueue.isEmpty = false)
    (ht : h.conn.sk.state ≠ .timeWait) (he : h.ended = false) (hw : 0 < h.conn.waiting .writeWait) :
    (∃ n, h.conn.silences e = some n ∧ signals .writeWait h.conn.sk.fx + n ≤ signals .writeWait (h.conn.live e).sk.fx) ∨
    ((h.conn.live e).sk.writeQueue.isEmpty = false ∧ (h.conn.live e).sk.state ≠ .timeWait ∧ (h.step e).ended = false) := by
  by_cases hseg : ∃ th data psh, e = .conn (.segment th data psh)
  · obtain ⟨th, data, psh, rfl⟩ := hseg
    cases hf : h.conn.sk.fault with
    | true =>
      rw [Conn.live, Conn.step_of_fault hf]
      exact .inr ⟨hq, ht, by simp [step, he, LifeEvent.event?, Conn.finishes, Conn.hearsRst, hf]⟩
    | false =>
      have hsk : (h.conn.live (.conn (.segment th data psh))).sk = segmentArrives h.conn.sk th (tcpInitSegment th data psh) := by
        simp [Conn.live, Conn.step, hf]
      have hst : h.conn.sk.state.takesAck := by
        have hu : ¬h.conn.sk.state.unsynced := fun hu => by
          rw [hi.unwritten.waiting hu] at hw
          exact Nat.lt_irrefl 0 hw
        cases hs : h.conn.sk.state <;> simp_all [TcpState.takesAck, TcpState.unsynced]
      rw [hsk]
      rcases segmentArrives_silences hst hq th (tcpInitSegment th data psh) with ⟨n, hn, hsig⟩ | ⟨h1, h2, h3, h4⟩
      · exact .inl ⟨n, by simp [Conn.silences, hf, hn], hsig⟩
      · exact .inr ⟨h3, h4, by simp [step, he, LifeEvent.event?, Conn.finishes, Conn.hearsRst, h1, h2]⟩
  · have hseg : ∀ th data psh, e ≠ .conn (.segment th data psh) := fun th data psh h => hseg ⟨th, data, psh, h⟩
    obtain ⟨h1, h2⟩ := Conn.live_calm hi.unwritten.onlyReaders hseg
    have hrst : e.event?.any h.conn.hearsRst = false := by
      by_contra hr
      obtain ⟨-, th, data, psh, he⟩ := Conn.hearsRst_segment (by simpa using hr)
      exact hseg th data psh he
    cases hfin : e.event?.any h.conn.finishes with
    | true =>
      refine .inl ⟨0, ?_, ?_⟩
      · unfold Conn.silences
        split
        next => exact absurd rfl (hseg _ _ _)
        next => rw [if_pos hfin]
      · exact h.conn.live_signals hi.unwritten.onlyReaders e .writeWait
    | false => exact .inr ⟨h1 hq, fun h => ht (h2 h), by simp [step, he, hfin, hrst]⟩

theorem step_wakeable {h : Writers} (hi : h.Inv) {e : LifeEvent} (hok : h.spares e) : (h.step e).Wakeable := by
  intro hlt
  have hlt : h.conn.wokenAfter .writeWait h.woken e < (h.conn.live e).waiting .writeWait := hlt
  simp only [spares, Bool.and_eq_true, Bool.not_eq_true'] at hok
  obtain ⟨hstall, hsil⟩ := hok
  cases hdoze : (h.conn.dozer e).any fun call => call.wait = .writeWait with
  | true =>
    -- somebody goes to sleep, on a live connection with something queued
    obtain ⟨call, hc, hw⟩ : ∃ call, h.conn.dozer e = some call ∧ call.wait = .writeWait := by
      cases hc : h.conn.dozer e with
      | none => simp [hc] at hdoze
      | some call => exact ⟨call, rfl, by simpa [hc] using hdoze⟩
    obtain ⟨hd, hq, hseg, hfin⟩ := Conn.dozer_stalls hi.dead hi.unwritten hc hw hstall
    rw [Bool.or_eq_false_iff, decide_eq_false_iff_not] at hd
    have hrst : e.event?.any h.conn.hearsRst = false := by
      by_contra hr
      obtain ⟨-, th, data, psh, he⟩ := Conn.hearsRst_segment (by simpa using hr)
      exact hseg th data psh he
    exact ⟨hq, fun hs => hd.2 ((Conn.live_calm hi.unwritten.onlyReaders hseg).2 hs), by simp [step, hd.1, hfin, hrst]⟩
  | false =>
    have hl := h.conn.live_waiting .writeWait e
    rw [hdoze] at hl
    have hz : (false : Bool).toNat = 0 := rfl
    unfold Conn.wokenAfter at hlt
    have hunsig : h.woken < h.conn.waiting .writeWait := by omega
    obtain ⟨hq, ht, he⟩ := hi.wakeable hunsig
    rcases step_quiet (e := e) hi hq ht he (by omega) with ⟨n, hn, hsig⟩ | hkeep
    · rw [hn, Option.all_some, decide_eq_true_eq] at hsil
      omega
    · exact hkeep

theorem Inv.step {h : Writers} (hi : h.Inv) {e : LifeEvent} (hok : h.spares e) : (h.step e).Inv :=
  ⟨Conn.live_unwritten hi.unwritten e, step_ended hi, step_wakeable hi hok⟩

theorem Inv.fresh (s : TcpSock) : Inv { conn := { sk := s } } :=
  ⟨fun _ => by simp, nofun, fun h => absurd h (Nat.not_lt_zero _)⟩

end Writers

/-- **A blocked writer can be woken.** In every state that a socket reaches: if
no writer has gone to sleep with nothing queued or on a dead connection, and
every RST, `tcp_done`, FIN in FIN_WAIT_2 and ACK of all that was queued found no
more writers asleep than it signals, then as long as a writer is asleep
something is queued, and the connection still takes ACKs. -/
theorem writers_wakeable {s : TcpSock} {es : List LifeEvent}
    (hok : Machine.Meets Writers.step (fun h e => h.spares e) { conn := { sk := s } } es) :
    (Machine.run Writers.step { conn := { sk := s } } es).Wakeable :=
  (hok.invariant (I := Writers.Inv) (fun _ _ hok hi => hi.step hok) (Writers.Inv.fresh s)).wakeable

/-- A SYN-ACK with that window. -/
def windowEvent (win : U16) : LifeEvent :=
  .conn (.segment { seq := 500, ackSeq := 101, syn := true, ack := true, win := win } .nil false)

/-- A window of ten: the second write of eight bytes waits for the first. -/
def crampedRun : List LifeEvent :=
  [.connect {} 100, windowEvent 10, .conn (.write [1, 2, 3, 4, 5, 6, 7, 8]), .conn (.write [9, 10, 11, 12, 13, 14, 15, 16]),
   .conn (ackEvent 109), .conn (.resume 0)]

theorem writers_wakeable_client :
    (Machine.run Writers.step { conn := { sk := freshSock {} } } (crampedRun.take 4)).conn.waiting .writeWait = 1 ∧
    (Machine.run Writers.step { conn := { sk := freshSock {} } } (crampedRun.take 4)).Wakeable ∧
    (Machine.run Writers.step { conn := { sk := freshSock {} } } crampedRun).Wakeable :=
  ⟨by decide +kernel, writers_wakeable (by decide +kernel), writers_wakeable (by decide +kernel)⟩

/-- At a window of 0 a write sleeps with nothing queued. And a writer that waits
for its ACK is left asleep by an RST. -/
theorem writer_sleeps_forever :
    ¬(Machine.run Writers.step { conn := { sk := freshSock {} } } [.connect {} 100, windowEvent 0, .conn (.write [1])]).Wakeable ∧
    ¬(Machine.run Writers.step { conn := { sk := freshSock {} } } (crampedRun.take 4 ++
      [.conn (.segment { seq := 501, ackSeq := 0, rst := true, win := 0 } .nil false)])).Wakeable := by
  unfold Writers.Wakeable
  decide +kernel

end LevelIp
