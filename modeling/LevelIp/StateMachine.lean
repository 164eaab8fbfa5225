/-
The connection diagram of RFC 793 against what the code does: the state each
event leaves, stage by stage, and exactly which events take an edge of the
diagram.
-/
import LevelIp.Life

namespace LevelIp

/-! ## What a segment does to the state -/

theorem tcpDone_state (s : TcpSock) : (tcpDone s).state = .closing := congrArg Core.state (tcpDone_core s)

theorem tcpSendNext_state (s : TcpSock) (amount : Nat) (extra : U32) : (tcpSendNext s amount extra).state = s.state := by
  obtain ⟨_, _, -, hc, -⟩ := tcpSendNext_spec s amount extra
  exact congrArg Core.state hc

theorem tcpHandleDupack_state (s : TcpSock) : (tcpHandleDupack s).state = s.state := by
  have h : (dupackAction { s with dupacks := s.dupacks + 1 }).1.state = s.state := congrArg Core.state (dupackAction_core _)
  unfold tcpHandleDupack
  dsimp only
  split
  · rw [tcpSendNext_state, h]
  · exact h

theorem cleanQueue_isEmpty (a : U32) (q : List Skb) : (cleanQueue a (q.map Skb.plain)).isEmpty = q.all (Skb.covered a) := by
  induction q with
  | nil => rfl
  | cons k q ih =>
    have hk : k.plain.covered a = k.covered a := rfl
    rw [List.map_cons, cleanQueue, List.dropWhile_cons, hk, List.all_cons]
    cases k.covered a with
    | false => rfl
    | true => exact ih

/-- How the ACK processing of the synchronized states ends: it lets the segment
pass, the acknowledged part of the queue gone, or it is the segment's end. -/
theorem ackSynchronized_cases (s : TcpSock) (th : Tcphdr) (skb : Skb) :
    (s.ackPasses th skb = true ∧ ∃ t, ackSynchronized s th skb = .next t ∧ t.state = s.state ∧
      t.writeQueue.isEmpty = s.acksAll th ∧ t.rcv = s.rcv) ∨
    (s.ackPasses th skb = false ∧ ∃ t, ackSynchronized s th skb = .ret t ∧ t.state = s.state) := by
  unfold TcpSock.ackPasses TcpSock.acksAll
  cases hd : tcpIsDupack s th skb with
  | true =>
    refine .inr ⟨rfl, _, if_pos hd, ?_⟩
    exact tcpHandleDupack_state s
  | false =>
    cases hn : ackIsNew s th with
    | true =>
      obtain ⟨t, ht, hc⟩ := ackSynchronized_new skb hn
      have hok : s.core.snd.AckOk th := by
        simp only [ackIsNew, Bool.and_eq_true, decide_eq_true_eq] at hn
        exact ⟨BitVec.le_of_lt hn.1, hn.2⟩
      refine .inl ⟨by simp [hok], t, ht, congrArg Core.state hc, ?_, congrArg Core.rcv hc⟩
      rw [← queue_isEmpty, hc]
      exact cleanQueue_isEmpty _ _
    | false =>
      by_cases hok : s.core.snd.AckOk th
      · obtain ⟨t, ht, hc⟩ := ackSynchronized_old hd hn hok.1 hok.2
        refine .inl ⟨by simp [hok], t, ht, congrArg Core.state hc, ?_, congrArg Core.rcv hc⟩
        rw [← queue_isEmpty, hc]
        exact queue_isEmpty s
      · exact .inr ⟨by simp [hok], s, ackSynchronized_outside hd hn hok, rfl⟩

/-- The state in which the queue is found empty after the ACK. -/
def TcpState.finAcked : TcpState → TcpState
  | .finWait1 => .finWait2
  | .closing => .timeWait
  | .lastAck => .closing
  | .listen => .listen | .synSent => .synSent | .synReceived => .synReceived | .established => .established
  | .finWait2 => .finWait2 | .close => .close | .closeWait => .closeWait | .timeWait => .timeWait

/-- The state an in-sequence FIN leads to, `acked` if the queue is empty. -/
def TcpState.finSeen (acked : Bool) : TcpState → TcpState
  | .synReceived | .established => .closeWait
  | .finWait1 => if acked then .timeWait else .closing
  | .finWait2 => .timeWait
  | .listen => .listen | .synSent => .synSent | .close => .close | .closeWait => .closeWait | .closing => .closing
  | .lastAck => .lastAck | .timeWait => .timeWait

/-- The state after everything that follows the ACK field. -/
def TcpState.heard (st : TcpState) (acked fin : Bool) : TcpState :=
  if acked && st = .lastAck then .closing
  else
    let st := if acked then st.finAcked else st
    if fin then st.finSeen acked else st

theorem finAcked_state {s t : TcpSock} {th : Tcphdr} (h : finAcked s th = .next t) :
    t.state = (if s.writeQueue.isEmpty then s.state.finAcked else s.state) ∧
    ¬(s.writeQueue.isEmpty ∧ s.state = .lastAck) ∧ t.writeQueue.isEmpty = s.writeQueue.isEmpty ∧ t.tcb.rcvNxt = s.tcb.rcvNxt := by
  have hr : t.tcb.rcvNxt = s.tcb.rcvNxt := congrArg RcvSide.nxt (finAcked_rcv h)
  unfold finAcked at h
  cases hq : s.writeQueue.isEmpty with
  | false =>
    simp only [hq, Bool.false_eq_true, if_false, Ctl.next.injEq] at h
    subst h
    exact ⟨rfl, by simp, hq, rfl⟩
  | true =>
    simp only [hq, if_true, true_and] at h ⊢
    cases hs : s.state <;> simp only [hs, Ctl.next.injEq, reduceCtorEq] at h
    case timeWait =>
      subst h
      refine ⟨?_, by simp, ?_, hr⟩
      · split
        · exact (quiet_tcpSendAck _).state.trans rfl
        · exact hs
      · split
        · rw [← queue_isEmpty, (quiet_tcpSendAck _).core]
          exact (queue_isEmpty _).trans hq
        · exact hq
    all_goals
      subst h
      exact ⟨by first | exact hs | rfl, by simp, hq, rfl⟩

theorem finBit_state {s : TcpSock} (hs : s.state ≠ .close ∧ s.state ≠ .listen ∧ s.state ≠ .synSent) (th : Tcphdr)
    (expected : Bool) : (finBit s th expected).sock.state =
      if th.fin && expected then s.state.finSeen s.writeQueue.isEmpty else s.state := by
  unfold finBit
  split
  next =>
    split
    next h => exact absurd h hs.1
    next h => exact absurd h hs.2.1
    next h => exact absurd h hs.2.2
    next =>
      have hq : ∀ u : TcpSock, ((tcpSendAck (u.emit .peerFin)).wakeup .recvWait).core = u.core := fun u =>
        ((quiet_tcpSendAck _).trans (quiet_wakeup _ .recvWait)).core
      refine (congrArg Core.state (finState_core _)).trans ?_
      simp only [hq, Core.finState, core_state, queue_isEmpty]
      cases s.state <;> rfl
  next => rfl

theorem ackData_state (s : TcpSock) (th : Tcphdr) (skb : Skb) (expected : Bool) :
    (ackData s th skb expected).state = s.state := by
  obtain ⟨d, hc, -⟩ := ackData_core s th skb expected
  exact congrArg Core.state hc

theorem finBit_next {s : TcpSock} (hs : s.state ≠ .close ∧ s.state ≠ .listen ∧ s.state ≠ .synSent) (th : Tcphdr)
    (expected : Bool) : ∃ t, finBit s th expected = .next t := by
  unfold finBit
  split
  · split
    next h => exact absurd h hs.1
    next h => exact absurd h hs.2.1
    next h => exact absurd h hs.2.2
    next => exact ⟨_, rfl⟩
  · exact ⟨_, rfl⟩

theorem segmentText_queue (s : TcpSock) (th : Tcphdr) (skb : Skb) :
    (segmentText s th skb).writeQueue.isEmpty = s.writeQueue.isEmpty := by
  rw [← queue_isEmpty, segmentText_snd, queue_isEmpty]

/-- The states the common stages of `tcp_input_state` are for. -/
def TcpState.late (st : TcpState) : Prop := st ≠ .close ∧ st ≠ .listen ∧ st ≠ .synSent

theorem afterAck_state {s : TcpSock} (hs : s.state.late) (th : Tcphdr) (skb : Skb) :
    (afterAck s th skb).sock.state = s.state.heard s.writeQueue.isEmpty (th.fin && skb.seq = s.tcb.rcvNxt) := by
  unfold afterAck
  cases hk : finAcked s th with
  | ret t =>
    -- only LAST_ACK with an empty queue returns here
    have h : s.writeQueue.isEmpty = true ∧ s.state = .lastAck ∧ t = tcpDone s := by
      unfold finAcked at hk
      cases hq : s.writeQueue.isEmpty <;> simp only [hq, if_true, Bool.false_eq_true, if_false, reduceCtorEq] at hk
      cases hst : s.state <;> simp only [hst, reduceCtorEq, Ctl.ret.injEq] at hk
      exact ⟨rfl, rfl, hk.symm⟩
    obtain ⟨hq, hst, rfl⟩ := h
    rw [hq, hst]
    exact tcpDone_state s
  | next t =>
    obtain ⟨ht, hne, hq, hr⟩ := finAcked_state hk
    have hlate : (segmentText t th skb).state.late := by
      rw [segmentText_state, ht]
      obtain ⟨h1, h2, h3⟩ := hs
      cases hst : s.state <;> cases s.writeQueue.isEmpty <;>
        simp_all [TcpState.late, TcpState.finAcked]
    obtain ⟨u, hu⟩ := finBit_next hlate th (skb.seq = t.tcb.rcvNxt)
    have hus := finBit_state hlate th (skb.seq = t.tcb.rcvNxt)
    rw [hu, segmentText_state, segmentText_queue, ht, hq] at hus
    simp only [Ctl.andThen, hu, Ctl.sock, ackData_state] at hus ⊢
    have hh : ∀ fin, s.state.heard s.writeQueue.isEmpty fin =
        (let st := if s.writeQueue.isEmpty then s.state.finAcked else s.state
        if fin then st.finSeen s.writeQueue.isEmpty else st) := fun fin => if_neg (by simpa using hne)
    rw [hus, hr, hh]

/-- The state after the ACK field and what follows it. -/
def TcpSock.heardState (s : TcpSock) (th : Tcphdr) (skb : Skb) : TcpState :=
  let fin : Bool := th.fin && skb.seq = s.tcb.rcvNxt
  match s.state with
  | .synReceived => if ackIsNew s th then if s.ptsk.isSome then TcpState.established.heard false fin else .established
    else .synReceived
  | .timeWait => .timeWait
  | st => if s.ackPasses th skb then st.heard (s.acksAll th) fin else st

theorem ackSynchronized_heard {s : TcpSock} (hs : s.state.late) (th : Tcphdr) (skb : Skb) :
    ((ackSynchronized s th skb).andThen fun t => afterAck t th skb).sock.state =
      if s.ackPasses th skb then s.state.heard (s.acksAll th) (th.fin && skb.seq = s.tcb.rcvNxt) else s.state := by
  rcases ackSynchronized_cases s th skb with ⟨hp, t, ht, hst, hq, hr⟩ | ⟨hp, t, ht, hst⟩
  · rw [ht, hp, if_pos rfl, Ctl.andThen, afterAck_state (hst ▸ hs), hst, hq]
    rw [show t.tcb.rcvNxt = s.tcb.rcvNxt from congrArg RcvSide.nxt hr]
  · rw [ht, hp, Ctl.andThen, Ctl.sock, hst]
    rfl

theorem ackSynchronized_state (s : TcpSock) (th : Tcphdr) (skb : Skb) : (ackSynchronized s th skb).sock.state = s.state := by
  rcases ackSynchronized_cases s th skb with ⟨-, t, ht, hst, -⟩ | ⟨-, t, ht, hst⟩ <;> rw [ht] <;> exact hst

theorem ackField_state (s : TcpSock) (th : Tcphdr) (skb : Skb) : (ackField s th skb).sock.state =
    if s.state = .synReceived ∧ ackIsNew s th then .established else s.state := by
  unfold ackField
  split
  next h =>
    rw [h]
    split
    next hn =>
      rw [if_pos ⟨rfl, hn⟩]
      dsimp only
      split
      · rfl
      · exact ackSynchronized_state _ th skb
    next hn => rw [if_neg (fun h => hn h.2)]; exact h
  all_goals
    rename_i h
    rw [if_neg (by rw [h]; simp)]
    first | exact ackSynchronized_state s th skb | rfl

theorem ackField_heard {s : TcpSock} (hs : s.state.late) (th : Tcphdr) (skb : Skb) :
    ((ackField s th skb).andThen fun t => afterAck t th skb).sock.state = s.heardState th skb := by
  have sync : s.state.takesAck → ((ackField s th skb).andThen fun t => afterAck t th skb).sock.state =
      if s.ackPasses th skb then s.state.heard (s.acksAll th) (th.fin && skb.seq = s.tcb.rcvNxt) else s.state := fun h => by
    rw [ackField_synchronized h]
    exact ackSynchronized_heard hs th skb
  unfold TcpSock.heardState
  obtain ⟨h1, h2, h3⟩ := hs
  cases hst : s.state
  case close | listen | synSent => simp_all
  case timeWait =>
    have hf : ackField s th skb = .next s := by
      unfold ackField
      rw [hst]
    rw [hf, Ctl.andThen, afterAck_state ⟨h1, h2, h3⟩, hst]
    cases s.writeQueue.isEmpty <;> cases (th.fin && decide (skb.seq = s.tcb.rcvNxt)) <;> rfl
  case synReceived =>
    unfold ackField
    rw [hst]
    dsimp only
    cases hn : ackIsNew s th with
    | false => exact hst
    | true =>
      have hp' : (s.setState .established).ptsk = s.ptsk := rfl
      simp only [if_true, hp']
      cases hp : s.ptsk with
      | none => rfl
      | some p =>
        let t := ((s.setState .established).emit (.acceptQueue p)).wakeup .acceptWait
        have ht : ((ackSynchronized t th skb).andThen fun t => afterAck t th skb).sock.state = _ :=
          ackSynchronized_heard (s := t) ⟨by rintro ⟨⟩, by rintro ⟨⟩, by rintro ⟨⟩⟩ th skb
        have hn' : ackIsNew t th := hn
        have hok : t.core.snd.AckOk th := by
          simp only [ackIsNew, Bool.and_eq_true, decide_eq_true_eq] at hn'
          exact ⟨BitVec.le_of_lt hn'.1, hn'.2⟩
        have hpass : t.ackPasses th skb = true := by
          simp [TcpSock.ackPasses, tcpIsDupack_of_new skb hn', hok]
        refine ht.trans ?_
        rw [hpass, if_pos rfl]
        cases t.acksAll th <;> rfl
  all_goals
    rw [hst] at sync
    exact sync rfl

theorem tcpInputOtherwise_state {s : TcpSock} (hs : s.state.late) (th : Tcphdr) (skb : Skb) :
    (tcpInputOtherwise s th skb).state =
      if s.core.rcv.verify th skb && th.rst then .timeWait
      else if s.core.Heard th skb then s.heardState th skb else s.state := by
  have hv : s.core.rcv.verify th skb = tcpVerifySegment s th skb := rfl
  unfold tcpInputOtherwise Core.Heard
  rw [hv]
  cases tcpVerifySegment s th skb
  case false =>
    simp only [Bool.not_false, if_true, Bool.false_and, Bool.false_eq_true, if_false]
    split
    · exact (quiet_tcpSendAck s).state
    · rfl
  case true =>
    cases th.rst
    case true =>
      simp only [Bool.not_true, Bool.false_eq_true, if_false, if_true, Bool.and_self]
      exact congrArg Core.state (tcpEnterTimeWait_core s)
    case false =>
      cases th.syn
      case true => simp
      case false =>
        cases th.ack
        case false => simp
        case true =>
          simp only [Bool.not_true, Bool.false_eq_true, if_false, Bool.not_false, Bool.and_self, if_true]
          exact ackField_heard hs th skb

theorem tcpSendReset_state (s : TcpSock) : (tcpSendReset s).state = s.state := congrArg Core.state (tcpSendReset_core s)

theorem tcpClosed_state (s : TcpSock) (th : Tcphdr) : (tcpClosed s th).state = s.state := by
  unfold tcpClosed
  split
  · rfl
  · exact tcpSendReset_state s

theorem synTaken_state (t : TcpSock) (th : Tcphdr) : (synTaken t th).state = .established ∨ (synTaken t th).state = .synReceived := by
  unfold synTaken
  split
  · exact .inl (congrArg Core.state (synsentEstablish_core t th))
  · have hc := tcpSendSynack_core (s := { t.setState .synReceived with tcb.sndUna := t.tcb.iss }) rfl
    exact .inr (congrArg Core.state hc)

theorem synsentAckOk_iff (s : TcpSock) (th : Tcphdr) : s.synsentAckOk th = true ↔
    ¬(th.ack ∧ (th.ackSeq ≤ s.tcb.iss ∨ th.ackSeq > s.tcb.sndNxt)) ∧
    ¬(th.ack ∧ (th.ackSeq < s.tcb.sndUna ∨ th.ackSeq > s.tcb.sndNxt)) := by
  simp only [TcpSock.synsentAckOk, Bool.and_eq_true, Bool.not_eq_true', Bool.and_eq_false_imp, Bool.or_eq_false_iff,
    decide_eq_false_iff_not, not_and, not_or]

/-- SYN_SENT stays, is opened, or is reset. -/
theorem tcpSynsent_state {s : TcpSock} (hs : s.state = .synSent) (th : Tcphdr) :
    if s.synsentAckOk th && th.rst then (tcpSynsent s th).state = .closing
    else (tcpSynsent s th).state = .synSent ∨ (tcpSynsent s th).state = .established ∨
      (tcpSynsent s th).state = .synReceived := by
  have hreset : (tcpReset s).state = .closing := by
    unfold tcpReset
    simp only [hs]
    exact tcpDone_state _
  rw [tcpSynsent_eq]
  cases hok : s.synsentAckOk th with
  | false =>
    rw [Bool.false_and, if_neg nofun]
    have hno := mt (synsentAckOk_iff s th).mpr (by simp [hok])
    split
    · exact .inl hs
    next h1 =>
      split
      · exact .inl hs
      next h2 => exact absurd ⟨h1, h2⟩ hno
  | true =>
    obtain ⟨h1, h2⟩ := (synsentAckOk_iff s th).mp hok
    rw [Bool.true_and, if_neg h1, if_neg h2]
    split
    · exact hreset
    · split
      · exact .inl hs
      · exact .inr (synTaken_state _ th)

/-! ## The diagram -/

/-- Where the diagram of RFC 793 leads from a state: Figure 6, with the reset
and the abort that end any connection, and with the two steps one segment may
take at once (ACK of our SYN or FIN, and FIN). -/
def TcpState.next : TcpState → List TcpState
  | .close => [.listen, .synSent]
  | .listen => [.synReceived, .synSent, .close]
  | .synSent => [.synReceived, .established, .close]
  | .synReceived => [.established, .finWait1, .closeWait, .close]
  | .established => [.finWait1, .closeWait, .close]
  | .finWait1 => [.finWait2, .closing, .timeWait, .close]
  | .finWait2 => [.timeWait, .close]
  | .closeWait => [.lastAck, .close]
  | .closing => [.timeWait, .close]
  | .lastAck => [.close]
  | .timeWait => [.close]

/-- The state stays or takes an edge. -/
def TcpState.Edge (a b : TcpState) : Prop := b = a ∨ b ∈ a.next

instance (a b : TcpState) : Decidable (a.Edge b) := inferInstanceAs (Decidable (_ ∨ _))

/-- The states of a connection both ends know of. -/
def TcpState.synchronized : TcpState → Bool
  | .established | .finWait1 | .finWait2 | .closeWait | .closing | .lastAck | .timeWait => true
  | .listen | .synSent | .synReceived | .close => false

theorem heard_edge {st : TcpState} {acked fin : Bool} (hne : ¬(acked ∧ st = .lastAck)) (hl : st.late) :
    st.Edge (st.heard acked fin) := by
  obtain ⟨h1, h2, h3⟩ := hl
  cases st <;> cases acked <;> cases fin <;> first | decide | exact absurd rfl ‹_› | exact absurd ⟨rfl, rfl⟩ hne

/-- Apart from the ACK that finishes LAST_ACK, a heard segment takes an edge. -/
theorem heardState_edge {s : TcpSock} (hl : s.state.late) {th : Tcphdr} {skb : Skb}
    (hne : ¬(s.state = .lastAck ∧ s.ackPasses th skb ∧ s.acksAll th)) : s.state.Edge (s.heardState th skb) := by
  have sync : s.state.Edge (if s.ackPasses th skb then s.state.heard (s.acksAll th) (th.fin && skb.seq = s.tcb.rcvNxt)
      else s.state) := by
    split
    next hp => exact heard_edge (fun h => hne ⟨h.2, hp, h.1⟩) hl
    next => exact .inl rfl
  unfold TcpSock.heardState
  cases hst : s.state
  case synReceived =>
    dsimp only
    split
    · split
      · cases (th.fin && decide (skb.seq = s.tcb.rcvNxt)) <;> decide
      · decide
    · decide
  case timeWait => exact .inl rfl
  all_goals
    rw [hst] at sync
    exact sync

/-- An acceptable RST past SYN_SENT. -/
def TcpSock.hearsRst (s : TcpSock) (th : Tcphdr) (skb : Skb) : Bool :=
  match s.state with
  | .close | .listen | .synSent => false
  | .synReceived | .established | .finWait1 | .finWait2 | .closeWait | .closing | .lastAck | .timeWait =>
    s.core.rcv.verify th skb && th.rst

/-- **The state a segment leaves.** -/
theorem segmentArrives_state (s : TcpSock) (th : Tcphdr) (skb : Skb) :
    if s.hearsRst th skb then (segmentArrives s th skb).state = .timeWait
    else if segmentFinishes s th skb then (segmentArrives s th skb).state = .closing
    else s.state.Edge (segmentArrives s th skb).state := by
  have late : s.state.late → segmentArrives s th skb = tcpInputOtherwise s th skb → s.hearsRst th skb = (s.core.rcv.verify th skb && th.rst) →
      (segmentFinishes s th skb = true ↔ s.state = .lastAck ∧ s.core.Heard th skb ∧ s.ackPasses th skb ∧ s.acksAll th) →
      if s.hearsRst th skb then (segmentArrives s th skb).state = .timeWait
      else if segmentFinishes s th skb then (segmentArrives s th skb).state = .closing
      else s.state.Edge (segmentArrives s th skb).state := fun hl hs hr hf => by
    have h := tcpInputOtherwise_state hl th skb
    rw [hs, hr]
    split
    next hrst => rw [h, if_pos hrst]
    next hrst =>
      rw [h, if_neg hrst]
      split
      next hfin =>
        obtain ⟨hst, hh, hp, ha⟩ := hf.mp hfin
        rw [if_pos hh, TcpSock.heardState, hst]
        dsimp only
        rw [if_pos hp, ha]
        rfl
      next hfin =>
        split
        next hh => exact heardState_edge hl fun h => hfin (hf.mpr ⟨h.1, hh, h.2⟩)
        next => exact .inl rfl
  cases hst : s.state
  case close =>
    simp only [TcpSock.hearsRst, segmentFinishes, hst, Bool.false_eq_true, if_false, segmentArrives]
    exact .inl ((tcpClosed_state s th).trans hst)
  case listen =>
    simp only [TcpSock.hearsRst, segmentFinishes, hst, Bool.false_eq_true, if_false, segmentArrives]
    exact .inl rfl
  case synSent =>
    simp only [TcpSock.hearsRst, segmentFinishes, hst, Bool.false_eq_true, if_false, segmentArrives]
    have h := tcpSynsent_state hst th
    split at h
    next hf => rw [if_pos hf]; exact h
    next hf =>
      rw [if_neg hf]
      rcases h with h | h | h <;> rw [h] <;> decide
  all_goals
    rw [hst] at late
    refine late ⟨by simp, by simp, by simp⟩ (by simp only [segmentArrives, hst]) (by simp only [TcpSock.hearsRst, hst]) ?_
    simp [segmentFinishes, hst, and_assoc]

/-! ## The other events -/

theorem tcpSendLoop_state (mss : U16) (len fuel : Nat) (s : TcpSock) (buf : List U8) :
    (tcpSendLoop mss len fuel s buf).1.state = s.state := by
  induction fuel generalizing s buf with
  | zero =>
    cases buf with
    | nil => exact (quiet_tcpRearmUserTimeout s).state
    | cons b buf => rfl
  | succ fuel ih =>
    cases buf with
    | nil => exact (quiet_tcpRearmUserTimeout s).state
    | cons b buf =>
      rw [tcpSendLoop]
      split
      · rw [ih, tcpQueueTransmitSkb_state]
      · rfl

theorem tcpWrite_state (s : TcpSock) (buf : List U8) : (tcpWrite s buf).1.state = s.state := by
  unfold tcpWrite
  split
  · exact tcpSendLoop_state _ _ _ _ _
  · rfl

theorem tcpReceiveTurn_state (s : TcpSock) (len : Nat) (got : List U8) : (tcpReceiveTurn s len got).1.state = s.state :=
  congrArg Core.state (tcpReceiveTurn_core s len got)

theorem tcpRead_state (s : TcpSock) (len : Nat) : (tcpRead s len).1.state = s.state := by
  obtain ⟨es, -, hm⟩ := tcpRead_moves s len
  exact hm.keeps_core (I := fun c => c.state = s.state) (fun hmv h => by
    cases hmv with
    | queueFin lastAck ha => exact ha.elim
    | _ => exact h) rfl

theorem tcpQueueFin_state (s : TcpSock) (lastAck : Bool) :
    (tcpQueueFin s lastAck).1.state = if lastAck && sndWndOpen s 0 then .lastAck else s.state := by
  unfold tcpQueueFin
  cases sndWndOpen s 0 with
  | false => simp
  | true =>
    cases lastAck with
    | false => exact tcpQueueTransmitSkb_state s finSkb
    | true => rfl

theorem tcpClose_state (s : TcpSock) :
    if closeFinishes s then (tcpClose s).1.state = .closing else s.state.Edge (tcpClose s).1.state := by
  unfold closeFinishes tcpClose
  cases hs : s.state
  case listen | synSent | synReceived => exact tcpDone_state s
  case established =>
    simp only [Bool.false_eq_true, if_false, tcpQueueFin_state, Bool.false_and]
    exact .inr List.mem_cons_self
  case closeWait =>
    simp only [Bool.false_eq_true, if_false, tcpQueueFin_state, Bool.true_and]
    split
    · decide
    · exact .inl hs
  all_goals exact .inl rfl

theorem tcpConnectRto_state (s : TcpSock) (n : Nat) : (tcpConnectRto s n).state =
    if handlerFinishes s (.connectRto n) then .closing else s.state := by
  unfold tcpConnectRto handlerFinishes
  by_cases hn : n = s.rtoEpoch
  · by_cases hs : s.state = .synSent
    · by_cases hb : s.backoff > TCP_CONN_RETRIES
      · simp only [hn, hs, hb, tcpReleaseRtoTimer, ne_eq, not_true_eq_false, if_false, if_true, decide_true, Bool.and_self]
        exact tcpDone_state _
      · simp only [hn, hs, hb, tcpReleaseRtoTimer, ne_eq, not_true_eq_false, if_false, if_true, decide_true, decide_false,
          Bool.and_false, Bool.false_eq_true]
        split
        · rfl
        · exact (quiet_tcpRearmRtoTimer _).state.trans (congrArg Core.state (tcpTransmitSkb_core _ _ _))
    · simp [hn, hs, tcpReleaseRtoTimer]
  · simp [hn]

theorem tcpHandleFinState_edge (s : TcpSock) : s.state.Edge (tcpHandleFinState s).state := by
  unfold tcpHandleFinState
  split
  next h => rw [h]; exact .inr List.mem_cons_self
  next h => rw [h]; exact .inr List.mem_cons_self
  next => exact .inl rfl

theorem rtoTail_state (s : TcpSock) (k : Skb) :
    if s.rto > 60000 then (rtoTail s k).state = .closing else s.state.Edge (rtoTail s k).state := by
  have hq : (tcpRearmRtoTimer { s with rto := s.rto * 2, backoff := s.backoff + 1 }).state = s.state :=
    (quiet_tcpRearmRtoTimer _).state
  unfold rtoTail
  split
  · exact tcpDone_state s
  · split
    · rw [← hq]
      exact tcpHandleFinState_edge _
    · exact .inl hq

theorem tcpRetransmissionTimeout_state (s : TcpSock) (n : Nat) :
    if handlerFinishes s (.retransmissionTimeout n) then (tcpRetransmissionTimeout s n).state = .closing
    else s.state.Edge (tcpRetransmissionTimeout s n).state := by
  have hh : handlerFinishes s (.retransmissionTimeout n) =
      (n = s.rtoEpoch && !s.writeQueue.isEmpty && s.rto > 60000) := rfl
  rcases tcpRetransmissionTimeout_cases s n with ⟨hn, h⟩ | ⟨hn, hq, h⟩ | ⟨k, hn, hk, h⟩
  · rw [h, hh, if_neg (by simp [hn])]
    exact .inl rfl
  · rw [h, hh, if_neg (by simp [hq])]
    exact .inl (quiet_rtoIdle s).state
  · have hq : s.writeQueue.isEmpty = false := by
      cases hq : s.writeQueue with
      | nil => rw [hq] at hk; cases hk
      | cons k q => rfl
    have hst : (tcpTransmitSkb (rtoSock s) k (rtoSock s).tcb.sndUna).state = s.state :=
      (congrArg Core.state (tcpTransmitSkb_core _ _ (rtoSock s).tcb.sndUna)).trans (quiet_rtoSock s).state
    have ht := rtoTail_state (tcpTransmitSkb (rtoSock s) k (rtoSock s).tcb.sndUna) k
    rw [tcpTransmitSkb_rto, hst] at ht
    rw [h, hh]
    simp only [hn, hq, decide_true, Bool.not_false, Bool.true_and, decide_eq_true_eq]
    exact ht

/-- The state a dispatched handler leaves. -/
theorem runHandler_state (s : TcpSock) (h : Handler) :
    if handlerFinishes s h then (runHandler s h).state = .closing else s.state.Edge (runHandler s h).state := by
  cases h with
  | connectRto n =>
    rw [runHandler, tcpConnectRto_state]
    split
    · rfl
    · exact .inl rfl
  | retransmissionTimeout n => exact tcpRetransmissionTimeout_state s n
  | sendDelack => exact .inl (quiet_tcpSendDelack s).state
  | linger => exact tcpDone_state _
  | userTimeout => exact tcpDone_state _

namespace Conn

theorem settle_state (c : Conn) (r : TcpSock × Outcome) : (c.settle r).sk.state = r.1.state := by
  rcases settle_sk c r with h | ⟨-, h⟩ <;> rw [h]

/-- An acceptable RST arrives. -/
def hearsRst (c : Conn) : Event → Bool
  | .segment th data psh => !c.sk.fault && c.sk.hearsRst th (tcpInitSegment th data psh)
  | _ => false

/-- A `tcp_close` that slept in CLOSE_WAIT goes on to enter LAST_ACK. -/
def resumesClose (c : Conn) : Event → Bool
  | .resume i => !c.sk.fault && c.calls[i]? = some (.fin true) && sndWndOpen c.sk 0
  | _ => false

theorem handle_state (s : TcpSock) (i : Nat) :
    if (s.spawned[i]?).any (handlerFinishes s) then (handle s i).state = .closing else s.state.Edge (handle s i).state := by
  unfold handle
  cases s.spawned[i]? with
  | none => exact .inl rfl
  | some h =>
    have hf : handlerFinishes { s with spawned := s.spawned.eraseIdx i } h = handlerFinishes s h := by cases h <;> rfl
    have := runHandler_state { s with spawned := s.spawned.eraseIdx i } h
    rw [hf] at this
    exact this

theorem resume_state (c : Conn) (i : Nat) : (c.resume i).sk.state =
    if c.calls[i]? = some (.fin true) ∧ sndWndOpen c.sk 0 then .lastAck else c.sk.state := by
  unfold resume
  cases hc : c.calls[i]? with
  | none => simp
  | some call =>
    cases call with
    | recv len got =>
      rw [settleRead_sk, tcpReceiveTurn_state, if_neg (by simp)]
    | send mss chunk rest len =>
      dsimp only
      rw [settle_state, if_neg (by simp), resumeSend]
      split
      · rw [tcpSendLoop_state, tcpQueueTransmitSkb_state]
      · rfl
    | fin lastAck =>
      dsimp only
      rw [settle_state, resumeSend, tcpQueueFin_state]
      cases lastAck <;> simp

/-- **The state an event leaves.** -/
theorem step_state (c : Conn) (e : Event) :
    if c.hearsRst e then (c.step e).sk.state = .timeWait
    else if c.finishes e then (c.step e).sk.state = .closing
    else if c.resumesClose e then (c.step e).sk.state = .lastAck
    else c.sk.state.Edge (c.step e).sk.state := by
  have stays : ∀ {e}, c.hearsRst e = false → c.finishes e = false → c.resumesClose e = false →
      (c.step e).sk.state = c.sk.state → if c.hearsRst e then (c.step e).sk.state = .timeWait
        else if c.finishes e then (c.step e).sk.state = .closing
        else if c.resumesClose e then (c.step e).sk.state = .lastAck
        else c.sk.state.Edge (c.step e).sk.state := fun h1 h2 h3 h => by
    rw [h1, h2, h3]
    exact .inl h
  cases hf : c.sk.fault with
  | true =>
    exact stays (by cases e <;> simp [hearsRst, hf]) (by simp [finishes, hf]) (by cases e <;> simp [resumesClose, hf])
      (by rw [step_of_fault hf])
  | false =>
    have hstep : ∀ e, c.step e = _ := fun e => if_neg (by simp [hf])
    cases e with
    | segment th data psh =>
      rw [hstep]
      have h := segmentArrives_state c.sk th (tcpInitSegment th data psh)
      simp only [hearsRst, finishes, resumesClose, hf, Bool.not_false, Bool.true_and, Bool.false_eq_true, if_false]
      exact h
    | write buf =>
      refine stays rfl (by simp [finishes]) rfl ?_
      rw [hstep]
      exact (settle_state _ _).trans (tcpWrite_state c.sk buf)
    | read len =>
      refine stays rfl (by simp [finishes]) rfl ?_
      rw [hstep]
      exact (congrArg TcpSock.state (settleRead_sk _ _)).trans (tcpRead_state c.sk len)
    | close =>
      rw [hstep]
      have h := tcpClose_state c.sk
      simp only [hearsRst, finishes, resumesClose, hf, Bool.not_false, Bool.true_and, Bool.false_eq_true, if_false, settle_state]
      exact h
    | abort =>
      rw [hstep]
      simp only [hearsRst, finishes, hf, Bool.not_false, Bool.and_self, if_true, Bool.false_eq_true, if_false]
      exact tcpDone_state _
    | resume i =>
      rw [hstep]
      simp only [hearsRst, finishes, resumesClose, hf, Bool.not_false, Bool.and_false, Bool.true_and, Bool.false_eq_true,
        if_false, resume_state, Bool.and_eq_true, decide_eq_true_eq]
      split
      · rfl
      · exact .inl rfl
    | handler i =>
      rw [hstep]
      have h := handle_state c.sk i
      simp only [hearsRst, finishes, resumesClose, hf, Bool.not_false, Bool.true_and, Bool.false_eq_true, if_false]
      exact h
    | dispatch i =>
      refine stays rfl (by simp [finishes]) rfl ?_
      rw [hstep]
      exact (quiet_dispatch c.sk i).state
    | tick ms => exact stays rfl (by simp [finishes]) rfl (by rw [hstep])
    | fcntl nonblock => exact stays rfl (by simp [finishes]) rfl (by rw [hstep])
    | adjustPmtu6 mss =>
      refine stays rfl (by simp [finishes]) rfl ?_
      rw [hstep]
      exact (quiet_adjustPmtu6 c.sk mss).state

end Conn

/-! ## The mark of `tcp_done` -/

theorem tcpDone_sockState (s : TcpSock) : (tcpDone s).sockState = .disconnecting := congrArg Core.sockState (tcpDone_core s)

theorem ackSynchronized_sockState (s : TcpSock) (th : Tcphdr) (skb : Skb) :
    (ackSynchronized s th skb).sock.sockState = s.sockState := by
  cases hd : tcpIsDupack s th skb with
  | true =>
    have h : (dupackAction { s with dupacks := s.dupacks + 1 }).1.sockState = s.sockState :=
      congrArg Core.sockState (dupackAction_core _)
    have hdup : (tcpHandleDupack s).sockState = s.sockState := by
      unfold tcpHandleDupack
      dsimp only
      split
      · obtain ⟨_, _, -, hc, -⟩ := tcpSendNext_spec (dupackAction { s with dupacks := s.dupacks + 1 }).1
          (dupackAction { s with dupacks := s.dupacks + 1 }).1.writeQueue.length
          (dupackAction { s with dupacks := s.dupacks + 1 }).2
        exact (congrArg Core.sockState hc).trans h
      · exact h
    rw [ackSynchronized, if_pos hd]
    exact hdup
  | false =>
    cases hn : ackIsNew s th with
    | true =>
      obtain ⟨t, ht, hc⟩ := ackSynchronized_new skb hn
      rw [ht]
      exact congrArg Core.sockState hc
    | false =>
      by_cases hok : s.core.snd.AckOk th
      · obtain ⟨t, ht, hc⟩ := ackSynchronized_old hd hn hok.1 hok.2
        rw [ht]
        exact congrArg Core.sockState hc
      · rw [ackSynchronized_outside hd hn hok]
        rfl

theorem ackField_sockState (s : TcpSock) (th : Tcphdr) (skb : Skb) : (ackField s th skb).sock.sockState = s.sockState := by
  unfold ackField
  split
  · split
    · dsimp only
      split
      · rfl
      · exact ackSynchronized_sockState _ th skb
    · rfl
  all_goals first | exact ackSynchronized_sockState s th skb | rfl

theorem finAcked_sockState (s : TcpSock) (th : Tcphdr) : (finAcked s th).sock.sockState =
    if s.writeQueue.isEmpty ∧ s.state = .lastAck then .disconnecting else s.sockState := by
  unfold finAcked
  cases hq : s.writeQueue.isEmpty with
  | false => simp [Ctl.sock]
  | true =>
    simp only [if_true, true_and]
    cases hs : s.state
    case lastAck => exact tcpDone_sockState s
    case timeWait =>
      simp only [reduceCtorEq, if_false, Ctl.sock]
      rw [← hs]
      split
      · exact congrArg Core.sockState (quiet_tcpSendAck { s with flagFin := true }).core
      · rfl
    all_goals simp [Ctl.sock, TcpSock.setState]

theorem finBit_sockState (s : TcpSock) (th : Tcphdr) (expected : Bool) : (finBit s th expected).sock.sockState = s.sockState := by
  unfold finBit
  split
  · split
    case h_4 =>
      refine (congrArg Core.sockState (finState_core _)).trans ?_
      exact congrArg Core.sockState ((quiet_tcpSendAck _).trans (quiet_wakeup _ .recvWait)).core
    all_goals rfl
  · rfl

theorem segmentText_sockState (s : TcpSock) (th : Tcphdr) (skb : Skb) : (segmentText s th skb).sockState = s.sockState := by
  unfold segmentText
  split
  case h_4 => rfl
  all_goals
    split
    · exact congrArg Core.sockState (tcpDataQueue_core s skb)
    · rfl

theorem afterAck_sockState (s : TcpSock) (th : Tcphdr) (skb : Skb) : (afterAck s th skb).sock.sockState =
    if s.writeQueue.isEmpty ∧ s.state = .lastAck then .disconnecting else s.sockState := by
  rw [← finAcked_sockState s th]
  unfold afterAck
  cases finAcked s th with
  | ret t => rfl
  | next t =>
    have hb := (finBit_sockState (segmentText t th skb) th (skb.seq = t.tcb.rcvNxt)).trans (segmentText_sockState t th skb)
    simp only [Ctl.andThen]
    generalize finBit (segmentText t th skb) th (skb.seq = t.tcb.rcvNxt) = k at hb
    cases k with
    | ret u => exact hb
    | next u =>
      obtain ⟨d, hc, -⟩ := ackData_core u th skb (skb.seq = t.tcb.rcvNxt)
      exact (congrArg Core.sockState hc).trans hb

theorem heard_sockState {s : TcpSock} (th : Tcphdr) (skb : Skb) :
    ((ackField s th skb).andThen fun t => afterAck t th skb).sock.sockState =
      if s.state = .lastAck ∧ s.ackPasses th skb ∧ s.acksAll th then .disconnecting else s.sockState := by
  have hf := ackField_sockState s th skb
  by_cases hs : s.state = .lastAck
  · rw [ackField_synchronized (by rw [hs]; rfl)] at hf ⊢
    rcases ackSynchronized_cases s th skb with ⟨hp, t, ht, hst, hq, -⟩ | ⟨hp, t, ht, -⟩
    · rw [ht] at hf ⊢
      rw [Ctl.andThen, afterAck_sockState, hst, hq, hp, hs]
      simp only [Ctl.sock] at hf
      simp [hf]
    · rw [ht] at hf ⊢
      rw [if_neg (by simp [hp])]
      exact hf
  · rw [if_neg (fun h => hs h.1)]
    have hst : (ackField s th skb).sock.state ≠ .lastAck := by
      intro h
      have := ackField_state s th skb
      rw [h] at this
      split at this
      · cases this
      · exact hs this.symm
    cases hk : ackField s th skb with
    | ret t =>
      rw [hk] at hf
      exact hf
    | next t =>
      rw [hk] at hf hst
      rw [Ctl.andThen, afterAck_sockState, if_neg (fun h => hst h.2)]
      exact hf

theorem tcpInputOtherwise_sockState (s : TcpSock) (th : Tcphdr) (skb : Skb) :
    (tcpInputOtherwise s th skb).sockState =
      if s.state = .lastAck ∧ s.core.Heard th skb ∧ s.ackPasses th skb ∧ s.acksAll th then .disconnecting else s.sockState := by
  have hv : s.core.rcv.verify th skb = tcpVerifySegment s th skb := rfl
  have heard := heard_sockState (s := s) th skb
  unfold tcpInputOtherwise Core.Heard
  rw [hv]
  cases tcpVerifySegment s th skb
  case false =>
    simp only [Bool.not_false, if_true, Bool.false_and, Bool.false_eq_true, false_and, and_false, if_false]
    split
    · exact congrArg Core.sockState (quiet_tcpSendAck s).core
    · rfl
  case true =>
    cases th.rst
    case true =>
      simp only [Bool.not_true, Bool.false_eq_true, if_false, if_true, Bool.and_false, Bool.false_and, false_and, and_false]
      exact congrArg Core.sockState (tcpEnterTimeWait_core s)
    case false =>
      cases th.syn
      case true => simp
      case false =>
        cases th.ack
        case false => simp
        case true => simpa using heard

theorem synTaken_sockState (s : TcpSock) (th : Tcphdr) :
    (synTaken s th).sockState = .connected ∨ (synTaken s th).sockState = s.sockState := by
  unfold synTaken
  split
  · exact .inl (congrArg Core.sockState (synsentEstablish_core s th))
  · have h := tcpSendSynack_core (s := { s.setState .synReceived with tcb.sndUna := s.tcb.iss }) rfl
    exact .inr (congrArg Core.sockState h)

theorem tcpSynsent_sockState {s : TcpSock} (hs : s.state = .synSent) (th : Tcphdr) :
    if s.synsentAckOk th && th.rst then (tcpSynsent s th).sockState = .disconnecting
    else (tcpSynsent s th).sockState = .connected ∨ (tcpSynsent s th).sockState = s.sockState := by
  have hreset : (tcpReset s).sockState = .disconnecting := by
    unfold tcpReset
    simp only [hs]
    exact tcpDone_sockState _
  rw [tcpSynsent_eq]
  cases hok : s.synsentAckOk th with
  | false =>
    rw [Bool.false_and, if_neg nofun]
    have hno := mt (synsentAckOk_iff s th).mpr (by simp [hok])
    split
    · exact .inr rfl
    next h1 =>
      split
      · exact .inr rfl
      next h2 => exact absurd ⟨h1, h2⟩ hno
  | true =>
    obtain ⟨h1, h2⟩ := (synsentAckOk_iff s th).mp hok
    rw [Bool.true_and, if_neg h1, if_neg h2]
    split
    · exact hreset
    · split
      · exact .inr rfl
      · have hsock : (synAckedSock s th).sockState = s.sockState := congrArg Core.sockState (synAckedSock_core s th)
        rw [← hsock]
        exact synTaken_sockState _ th

/-- `socket_delete` marks the socket just when the segment runs `tcp_done`. -/
theorem segmentArrives_disconnecting {s : TcpSock} (h : s.sockState ≠ .disconnecting) (th : Tcphdr) (skb : Skb) :
    (segmentArrives s th skb).sockState = .disconnecting ↔ segmentFinishes s th skb := by
  unfold segmentArrives segmentFinishes
  cases hs : s.state
  case close =>
    have hc : (tcpClosed s th).sockState = s.sockState := by
      unfold tcpClosed
      split
      · rfl
      · exact congrArg Core.sockState (tcpSendReset_core s)
    simp [hc, h]
  case listen => simp [h]
  case synSent =>
    have ht := tcpSynsent_sockState hs th
    dsimp only
    split at ht
    next hf => simp [ht, hf]
    next hf =>
      have hne : (tcpSynsent s th).sockState ≠ .disconnecting := by
        rcases ht with ht | ht
        · rw [ht]
          nofun
        · rwa [ht]
      simp [hne, hf]
  all_goals
    dsimp only
    rw [tcpInputOtherwise_sockState, hs]
    simp [h, and_assoc]

/-- The socket calls and the idle events leave the mark alone, `tcp_close` apart. -/
def Act.calls : Act → Bool
  | .send | .finish _ | .read | .idle => true
  | .arrive _ _ _ | .fire _ _ | .abort | .close => false

theorem SockMoves.sockState {a : Act} {s t : TcpSock} (h : SockMoves a s t) (ha : a.calls) : t.sockState = s.sockState := by
  obtain ⟨es, -, hm⟩ := h
  refine hm.keeps_core (I := fun c => c.sockState = s.sockState) (fun {c es c'} hmv hc => ?_) rfl
  cases hmv <;> first | exact hc | cases ha

theorem tcpClose_sockState (s : TcpSock) :
    (tcpClose s).1.sockState = if closeFinishes s then .disconnecting else s.sockState := by
  have hq : ∀ (t : TcpSock) (lastAck : Bool), (tcpQueueFin t lastAck).1.sockState = t.sockState := fun t lastAck => by
    unfold tcpQueueFin
    have hc : (tcpQueueTransmitSkb t finSkb).sockState = t.sockState :=
      congrArg Core.sockState (tcpQueueTransmitSkb_core t finSkb)
    split
    · split
      · exact hc
      · exact hc
    · rfl
  unfold closeFinishes tcpClose
  cases hs : s.state
  case listen | synSent | synReceived => exact tcpDone_sockState s
  case established => exact hq _ false
  case closeWait => exact hq s true
  all_goals rfl

theorem tcpConnectRto_sockState (s : TcpSock) (n : Nat) : (tcpConnectRto s n).sockState =
    if handlerFinishes s (.connectRto n) then .disconnecting else s.sockState := by
  unfold tcpConnectRto handlerFinishes
  by_cases hn : n = s.rtoEpoch
  · by_cases hs : s.state = .synSent
    · by_cases hb : s.backoff > TCP_CONN_RETRIES
      · simp only [hn, hs, hb, tcpReleaseRtoTimer, ne_eq, not_true_eq_false, if_false, if_true, decide_true, Bool.and_self]
        exact tcpDone_sockState _
      · simp only [hn, hs, hb, tcpReleaseRtoTimer, ne_eq, not_true_eq_false, if_false, if_true, decide_true, decide_false,
          Bool.and_false, Bool.false_eq_true]
        split
        · rfl
        · exact (congrArg Core.sockState (quiet_tcpRearmRtoTimer _).core).trans
            (congrArg Core.sockState (tcpTransmitSkb_core _ _ _))
    · simp [hn, hs, tcpReleaseRtoTimer]
  · simp [hn]

theorem rtoTail_sockState (s : TcpSock) (k : Skb) :
    (rtoTail s k).sockState = if s.rto > 60000 then .disconnecting else s.sockState := by
  have hq : (tcpRearmRtoTimer { s with rto := s.rto * 2, backoff := s.backoff + 1 }).sockState = s.sockState :=
    congrArg Core.sockState (quiet_tcpRearmRtoTimer _).core
  have hf : ∀ t : TcpSock, (tcpHandleFinState t).sockState = t.sockState := fun t => by
    unfold tcpHandleFinState
    split <;> rfl
  unfold rtoTail
  split
  · exact tcpDone_sockState s
  · split
    · exact (hf _).trans hq
    · exact hq

theorem tcpRetransmissionTimeout_sockState (s : TcpSock) (n : Nat) : (tcpRetransmissionTimeout s n).sockState =
    if handlerFinishes s (.retransmissionTimeout n) then .disconnecting else s.sockState := by
  have hh : handlerFinishes s (.retransmissionTimeout n) =
      (n = s.rtoEpoch && !s.writeQueue.isEmpty && s.rto > 60000) := rfl
  rcases tcpRetransmissionTimeout_cases s n with ⟨hn, h⟩ | ⟨hn, hq, h⟩ | ⟨k, hn, hk, h⟩
  · rw [h, hh, if_neg (by simp [hn])]
  · rw [h, hh, if_neg (by simp [hq])]
    exact congrArg Core.sockState (quiet_rtoIdle s).core
  · have hq : s.writeQueue.isEmpty = false := by
      cases hq : s.writeQueue with
      | nil => rw [hq] at hk; cases hk
      | cons k q => rfl
    have hst : (tcpTransmitSkb (rtoSock s) k (rtoSock s).tcb.sndUna).sockState = s.sockState :=
      (congrArg Core.sockState (tcpTransmitSkb_core _ _ (rtoSock s).tcb.sndUna)).trans
        (congrArg Core.sockState (quiet_rtoSock s).core)
    have ht := rtoTail_sockState (tcpTransmitSkb (rtoSock s) k (rtoSock s).tcb.sndUna) k
    rw [tcpTransmitSkb_rto, hst] at ht
    rw [h, hh, ht]
    simp only [hn, hq, decide_true, Bool.not_false, Bool.true_and, decide_eq_true_eq]
    rfl

/-- The mark a dispatched handler leaves. -/
theorem runHandler_sockState (s : TcpSock) (h : Handler) :
    (runHandler s h).sockState = if handlerFinishes s h then .disconnecting else s.sockState := by
  cases h with
  | connectRto n => exact tcpConnectRto_sockState s n
  | retransmissionTimeout n => exact tcpRetransmissionTimeout_sockState s n
  | sendDelack => exact congrArg Core.sockState (quiet_tcpSendDelack s).core
  | linger => exact tcpDone_sockState _
  | userTimeout => exact tcpDone_sockState _

namespace Conn

theorem handle_sockState (s : TcpSock) (i : Nat) :
    (handle s i).sockState = if (s.spawned[i]?).any (handlerFinishes s) then .disconnecting else s.sockState := by
  unfold handle
  cases s.spawned[i]? with
  | none => rfl
  | some h =>
    have hf : handlerFinishes { s with spawned := s.spawned.eraseIdx i } h = handlerFinishes s h := by cases h <;> rfl
    have := runHandler_sockState { s with spawned := s.spawned.eraseIdx i } h
    rw [hf] at this
    exact this

/-- **`tcp_done` runs once.** On a socket that is not finished yet an event
schedules the garbage collection exactly if it runs `tcp_done`. -/
theorem step_disconnecting {c : Conn} (hr : c.Ready) (h : c.sk.sockState ≠ .disconnecting) (e : Event) :
    (c.step e).sk.sockState = .disconnecting ↔ c.finishes e := by
  cases hf : c.sk.fault with
  | true =>
    rw [step_of_fault hf]
    simp [finishes, hf, h]
  | false =>
    have hstep : ∀ e, c.step e = _ := fun e => if_neg (by simp [hf])
    have calls : (c.act e).calls → c.finishes e = false → ((c.step e).sk.sockState = .disconnecting ↔ c.finishes e) :=
      fun ha hfin => by
        rw [(step_moves hr e).sockState ha, hfin]
        simp [h]
    cases e with
    | segment th data psh =>
      rw [hstep]
      simp only [finishes, hf, Bool.not_false, Bool.true_and]
      exact segmentArrives_disconnecting h th _
    | close =>
      have hset : ∀ r : TcpSock × Outcome, (c.settle r).sk.sockState = r.1.sockState := fun r => by
        rcases settle_sk c r with hr | ⟨-, hr⟩ <;> rw [hr]
      rw [hstep]
      dsimp only
      rw [hset, tcpClose_sockState]
      cases hc : closeFinishes c.sk <;> simp [finishes, hf, hc, h]
    | abort =>
      rw [hstep]
      simp only [finishes, hf, Bool.not_false, Bool.and_self, iff_true]
      exact tcpDone_sockState _
    | handler i =>
      rw [hstep]
      dsimp only
      simp only [handle_sockState, finishes, hf, Bool.not_false, Bool.true_and]
      cases (c.sk.spawned[i]?).any (handlerFinishes c.sk) <;> simp [h]
    | resume i =>
      refine calls ?_ (by simp [finishes])
      simp only [act]
      split <;> rfl
    | write _ | read _ | dispatch _ | tick _ | fcntl _ | adjustPmtu6 _ => exact calls rfl (by simp [finishes])

end Conn

/-! ## Conformance -/

namespace LifeEvent

/-- The event as one of a connection; the calls that open a socket are none. -/
def event? : LifeEvent → Option Event
  | .conn e => some e
  | .listen | .connect _ _ => none

/-- A SYN with ACK or RST beside it. -/
def mixedSyn : LifeEvent → Bool
  | .conn (.segment th _ _) => th.syn && (th.ack || th.rst)
  | _ => false

end LifeEvent

namespace Conn

/-- The child a segment makes a listener fork. -/
def forks (c : Conn) (e : LifeEvent) (env : SynEnv) : Option TcpSock :=
  match e with
  | .conn (.segment th data psh) =>
    if c.sk.fault then none else (tcpInputState c.sk th (tcpInitSegment th data psh) env).2
  | _ => none

/-- The event conforms to the diagram: the state stays or takes an edge, an
acceptable RST and `tcp_done` lead to CLOSED, a child is forked in SYN_RECEIVED
and only for a SYN without ACK and RST, and nothing leads from TIME_WAIT or
CLOSED back to a synchronized state. -/
structure Conforms (c : Conn) (e : LifeEvent) : Prop where
  edge : c.sk.state.Edge (c.live e).sk.state
  rst : e.event?.any c.hearsRst → (c.live e).sk.state = .close
  done : e.event?.any c.finishes → (c.live e).sk.state = .close
  forks : ∀ env child, c.forks e env = some child → child.state = .synReceived ∧ c.sk.state.Edge .synReceived ∧
    e.mixedSyn = false
  dead : c.sk.state = .timeWait ∨ c.sk.state = .close → (c.live e).sk.state ≠ c.sk.state →
    (c.live e).sk.state.synchronized = false

/-- The event is not one of those the code gets wrong: no acceptable RST, no
`tcp_done`, no `tcp_close` that goes on after the connection has left
CLOSE_WAIT, no SYN with ACK or RST for a listener. -/
def Clear (c : Conn) (e : LifeEvent) : Prop :=
  e.event?.any c.hearsRst = false ∧ e.event?.any c.finishes = false ∧
  (e.event?.any c.resumesClose → c.sk.state = .closeWait ∨ c.sk.state = .lastAck) ∧
  (c.sk.fault = false → c.sk.state = .listen → e.mixedSyn = false)

instance (c : Conn) (e : LifeEvent) : Decidable (c.Clear e) := inferInstanceAs (Decidable (_ ∧ _))

theorem inetStreamConnect_edge (s : TcpSock) (d : Dest) (iss : U32) : s.state.Edge (inetStreamConnect s d iss).state := by
  rcases inetStreamConnect_cases s d iss with ⟨hs, h⟩ | ⟨err, h⟩
  · have hc : (tcpConnect (s.addressed d) iss).state = .synSent := tcpConnect_state (s := s.addressed d) hs iss
    rw [h, hs]
    dsimp only
    rw [hc]
    decide
  · rw [h]
    exact .inl rfl

theorem tcpV4Listen_edge (s : TcpSock) : s.state.Edge (tcpV4Listen s).state := by
  rcases tcpV4Listen_cases s with ⟨hs, h⟩ | h
  · rw [h, hs]
    exact .inr List.mem_cons_self
  · rw [h]
    exact .inl rfl

/-- A child is forked by a listener, for a SYN, into SYN_RECEIVED. -/
theorem forks_some {c : Conn} {e : LifeEvent} {env : SynEnv} {child : TcpSock} (h : c.forks e env = some child) :
    c.sk.fault = false ∧ c.sk.state = .listen ∧ child.state = .synReceived := by
  unfold forks at h
  split at h
  · split at h
    · cases h
    next hf =>
      simp only [tcpInputState] at h
      split at h
      next hl => exact ⟨by simpa using hf, hl, congrArg Core.state (tcpListen_core h).1⟩
      next => cases h
  · cases h

/-- A listener forks for every SYN. -/
theorem forks_of_syn {c : Conn} {th : Tcphdr} (data : Payload) (psh : Bool) (hf : c.sk.fault = false)
    (hl : c.sk.state = .listen) (hs : th.syn) (env : SynEnv) : ∃ child, c.forks (.conn (.segment th data psh)) env = some child := by
  simp only [forks, hf, Bool.false_eq_true, if_false, tcpInputState, hl, if_true, tcpListen, hs]
  exact ⟨_, rfl⟩

/-- The state after an event of a socket's life. -/
theorem live_state (c : Conn) (e : LifeEvent) :
    if e.event?.any c.hearsRst then (c.live e).sk.state = .timeWait
    else if e.event?.any c.finishes then (c.live e).sk.state = .closing
    else if e.event?.any c.resumesClose then (c.live e).sk.state = .lastAck
    else c.sk.state.Edge (c.live e).sk.state := by
  cases e with
  | conn e => exact step_state c e
  | listen =>
    show c.sk.state.Edge (c.live .listen).sk.state
    simp only [live]
    split
    · exact .inl rfl
    · exact tcpV4Listen_edge c.sk
  | connect d iss =>
    show c.sk.state.Edge (c.live (.connect d iss)).sk.state
    simp only [live]
    split
    · exact .inl rfl
    · exact inetStreamConnect_edge c.sk d iss

theorem Conforms.clear {c : Conn} {e : LifeEvent} (h : c.Conforms e) : c.Clear e := by
  have hst := live_state c e
  have hr : e.event?.any c.hearsRst = false := by
    by_contra hr
    have hr : e.event?.any c.hearsRst = true := by simpa using hr
    rw [if_pos hr, h.rst hr] at hst
    cases hst
  have hd : e.event?.any c.finishes = false := by
    by_contra hd
    have hd : e.event?.any c.finishes = true := by simpa using hd
    rw [if_neg (by simp [hr]), if_pos hd, h.done hd] at hst
    cases hst
  refine ⟨hr, hd, fun hc => ?_, fun hf hl => ?_⟩
  · rw [if_neg (by simp [hr]), if_neg (by simp [hd]), if_pos hc] at hst
    have he := h.edge
    rw [hst] at he
    revert he
    cases c.sk.state <;> decide
  · by_contra hm
    cases e with
    | conn e =>
      cases e with
      | segment th data psh =>
        have hs : th.syn = true := by
          by_contra hs
          simp [LifeEvent.mixedSyn, hs] at hm
        obtain ⟨child, hchild⟩ := forks_of_syn data psh hf hl hs ⟨0, 0, .v4 0⟩
        exact hm (h.forks _ _ hchild).2.2
      | _ => exact hm rfl
    | _ => exact hm rfl

theorem Clear.conforms {c : Conn} {e : LifeEvent} (h : c.Clear e) : c.Conforms e := by
  obtain ⟨hr, hd, hc, hm⟩ := h
  have hst := live_state c e
  rw [if_neg (by simp [hr]), if_neg (by simp [hd])] at hst
  have hedge : c.sk.state.Edge (c.live e).sk.state := by
    split at hst
    next hres =>
      rw [hst]
      rcases hc hres with h | h <;> rw [h] <;> decide
    next => exact hst
  refine ⟨hedge, fun h => absurd h (by simp [hr]), fun h => absurd h (by simp [hd]), fun env child hchild => ?_, fun hdead hne => ?_⟩
  · obtain ⟨hf, hl, hchild⟩ := forks_some hchild
    exact ⟨hchild, by rw [hl]; decide, hm hf hl⟩
  · revert hedge hne
    generalize (c.live e).sk.state = st
    rcases hdead with h | h <;> rw [h] <;> cases st <;> decide

/-- An event conforms exactly if it is none of those the code gets wrong. -/
theorem conforms_iff (c : Conn) (e : LifeEvent) : c.Conforms e ↔ c.Clear e := ⟨Conforms.clear, Clear.conforms⟩

end Conn

/-- **Conformance to the RFC 793 diagram.** In a run from any socket every event
conforms if and only if no event of the run is one that the code gets wrong. -/
theorem state_machine_conforms (c : Conn) (es : List LifeEvent) :
    Machine.Meets Conn.live Conn.Conforms c es ↔ Machine.Meets Conn.live Conn.Clear c es :=
  ⟨fun h => h.mono fun c e => (c.conforms_iff e).mp, fun h => h.mono fun c e => (c.conforms_iff e).mpr⟩

/-- A client connects, the peer accepts and then resets: the RST leaves
TIME_WAIT, which the diagram does not reach from ESTABLISHED. -/
theorem rst_enters_time_wait :
    let c := Machine.run Conn.live { sk := freshSock {} }
      [.connect {} 100, .conn synAckEvent]
    let e : LifeEvent := .conn (.segment { seq := 501, ackSeq := 0, rst := true, win := 0 } .nil false)
    c.sk.state = .established ∧ (c.live e).sk.state = .timeWait ∧ ¬c.Conforms e :=
  ⟨by decide +kernel, by decide +kernel, fun h => absurd (h.rst (by decide +kernel)) (by decide +kernel)⟩

end LevelIp
