/-
Whether data that moves `rcv_nxt` is acknowledged: by a segment that goes out
before `tcp_input_state` returns, or by the delayed-ACK timer it leaves armed.
-/
import LevelIp.Finished

namespace LevelIp

/-! ## Acknowledging data -/

theorem Emits.iff_of_logs {P : Seg → Prop} {Q : Effect → Prop} {s t u : TcpSock} (hl : Logs (Effect.lacks P) s t)
    (hu : Logs Q t u) : Emits P s u ↔ Emits P t u := by
  refine ⟨fun h => ?_, fun h => h.after_logs hl⟩
  obtain ⟨new, hf, hp⟩ := hl
  obtain ⟨new', hf', -⟩ := hu
  obtain ⟨all, ha, seg, unread, hm, hs⟩ := h
  have he : new ++ new' = all := List.append_cancel_left (by rw [← List.append_assoc, ← hf, ← hf', ha])
  subst he
  rcases List.mem_append.mp hm with hm | hm
  · exact absurd hs (hp _ hm)
  · exact ⟨new', hf', seg, unread, hm, hs⟩

/-- What was received is acknowledged: a segment with the new `rcv_nxt` has been
sent, or the delayed-ACK timer is armed. -/
def Acknowledges (s s' : TcpSock) : Prop :=
  Emits (fun seg => seg.ackSeq = s'.tcb.rcvNxt) s s' ∨ ∃ t ∈ s'.timers, s'.delack = some t

section

variable {s : TcpSock} {th : Tcphdr} {skb : Skb}

/-- `tcp_send_next` sends: the first queued skb numbered 0 fits the window. -/
def TcpSock.sendsNext (s : TcpSock) : Bool :=
  (s.writeQueue.find? fun k => k.seq = 0).any fun k => s.inflight + k.dlen ≤ umin s.cwnd s.tcb.sndWnd

theorem tcpSendNext_emits (h : s.sendsNext) {P : Seg → Prop} (hp : ∀ k n, P (segOf s k n)) :
    Emits P s (tcpSendNext s s.writeQueue.length 0) := by
  unfold TcpSock.sendsNext at h
  cases hk : s.writeQueue.find? (fun k => k.seq = 0) with
  | none =>
    rw [hk] at h
    cases h
  | some k =>
    rw [hk] at h
    have hfit : s.inflight + k.dlen ≤ umin s.cwnd s.tcb.sndWnd := of_decide_eq_true h
    have hroom : ¬s.inflight + k.dlen > umin (s.cwnd + 0) s.tcb.sndWnd := by
      rw [show s.cwnd + 0 = s.cwnd from BitVec.add_zero _]
      exact BitVec.not_lt.mpr hfit
    exact tcpSendNextLoop_emits hk (hp k) (umin_le_right _ _) hroom (Nat.le_refl _) []

theorem tcpSendNext_silent (h : s.sendsNext = false) : tcpSendNext s s.writeQueue.length 0 = s := by
  have hfull : ∀ k, s.writeQueue.find? (fun k => k.seq = 0) = some k → s.inflight + k.dlen > umin (s.cwnd + 0) s.tcb.sndWnd := by
    intro k hk
    rw [TcpSock.sendsNext, hk] at h
    rw [show s.cwnd + 0 = s.cwnd from BitVec.add_zero _]
    exact BitVec.not_le.mp (of_decide_eq_false h)
  exact tcpSendNextLoop_idle hfull _ []

/-- What is left to acknowledge goes through `tcp_send_next` if anything is queued. -/
theorem ackData_pending (hs : s.state.takesText) (hq : s.writeQueue.isEmpty = false) (th : Tcphdr) (skb : Skb) :
    ackData s th skb true = tcpRearmRtoTimer (tcpSendNext (tcpStopDelackTimer s) s.writeQueue.length 0) := by
  have hw : (tcpStopDelackTimer s).writeQueue = s.writeQueue := by
    unfold tcpStopDelackTimer TcpSock.timerCancel
    cases s.delack <;> rfl
  have hpos : s.writeQueue.length > 0 := by
    cases hl : s.writeQueue with
    | nil =>
      rw [hl] at hq
      cases hq
    | cons k q => exact Nat.succ_pos _
  unfold ackData
  cases hst : s.state <;> simp only [hst, TcpState.takesText, Bool.false_eq_true] at hs ⊢ <;>
    simp only [hw, hpos, if_true]

theorem tcpStopDelackTimer_sendsNext (s : TcpSock) : (tcpStopDelackTimer s).sendsNext = s.sendsNext := by
  unfold tcpStopDelackTimer TcpSock.timerCancel
  cases s.delack <;> rfl

theorem tcpStopDelackTimer_fx (s : TcpSock) : (tcpStopDelackTimer s).fx = s.fx := by
  unfold tcpStopDelackTimer TcpSock.timerCancel
  cases s.delack <;> rfl

/-- With the queue empty an ACK goes out or the timer is armed. -/
theorem ackData_idle (hs : s.state.takesText) (hq : s.writeQueue = []) (hd : skb.dlen > 0) (th : Tcphdr) :
    Acknowledges s (ackData s th skb true) := by
  have hstop : (tcpStopDelackTimer s).fx = s.fx ∧ (tcpStopDelackTimer s).state = s.state ∧
      (tcpStopDelackTimer s).writeQueue = [] ∧ (tcpStopDelackTimer s).tcb.rcvNxt = s.tcb.rcvNxt := by
    rw [← hq]
    unfold tcpStopDelackTimer TcpSock.timerCancel
    cases s.delack <;> exact ⟨rfl, rfl, rfl, rfl⟩
  unfold ackData
  generalize tcpStopDelackTimer s = t at hstop
  obtain ⟨hf, hst, hw, hr⟩ := hstop
  have hc : s.state ≠ .close := fun h => by rw [h] at hs; cases hs
  -- the delayed-ACK counter is neither sent nor tested again
  have hcount : ∀ n : U8, Acknowledges s (tcpSendAck { t with delacks := n }) := fun n => by
    refine .inl (Emits.after_logs ?_ (.same (P := fun _ => True) hf))
    refine tcpSendAck_emits (s := { t with delacks := n }) (hst ▸ hc) ?_
    exact (congrArg RcvSide.nxt (congrArg Core.rcv (quiet_tcpSendAck { t with delacks := n }).core)).symm
  have htimer : ∀ n : U8, Acknowledges s
      { ({ t with delacks := n } : TcpSock).timerAdd (({ t with delacks := n } : TcpSock).newTimer 200 .sendDelack) with
        delack := some (({ t with delacks := n } : TcpSock).newTimer 200 .sendDelack) } := fun n =>
    .inr ⟨_, List.mem_append_right _ (List.mem_singleton_self _), rfl⟩
  have key : ∀ u : TcpSock, (∃ n, u = { t with delacks := n }) → Acknowledges s
      (if th.psh || (skb.dlen > 1000 && u.delacks > 1) then tcpSendAck { u with delacks := 0 }
       else if skb.dlen > 0 then { u.timerAdd (u.newTimer 200 .sendDelack) with delack := some (u.newTimer 200 .sendDelack) }
       else u) := by
    rintro u ⟨n, rfl⟩
    split
    · exact hcount 0
    · exact htimer n
  have hbump : ∃ n, (if !th.psh && skb.dlen > 1000 then { t with delacks := t.delacks + 1 } else t) = { t with delacks := n } := by
    split
    · exact ⟨_, rfl⟩
    · exact ⟨t.delacks, rfl⟩
  have hlen : ¬t.writeQueue.length > 0 := by rw [hw]; exact Nat.lt_irrefl 0
  cases hst' : s.state <;> simp only [hst', TcpState.takesText, Bool.false_eq_true] at hs ⊢ <;>
    simp only [hlen, if_false, if_true] <;> exact key _ hbump

theorem ackData_logs (s : TcpSock) (th : Tcphdr) (skb : Skb) (expected : Bool) :
    Logs (· ≠ .peerFin) s (ackData s th skb expected) := by
  unfold ackData
  split
  case h_4 => exact .refl s
  all_goals
    split
    case isFalse => exact .refl s
    have hstop := tcpStopDelackTimer_fx s
    generalize tcpStopDelackTimer s = t at hstop
    dsimp only
    split
    · obtain ⟨es, d, hf, -, hn⟩ := tcpSendNext_spec t t.writeQueue.length 0
      refine ⟨es, by rw [← hstop, ← hf]; rfl, fun e he => ?_⟩
      obtain ⟨k, -, -, n, hs⟩ := hn.emits _ he
      exact sends_ne_peerFin hs
    · have hd : (if !th.psh && skb.dlen > 1000 then { t with delacks := t.delacks + 1 } else t).fx = s.fx := by
        split <;> exact hstop
      generalize (if !th.psh && skb.dlen > 1000 then { t with delacks := t.delacks + 1 } else t) = u at hd
      refine Logs.trans (.same hd) ?_
      split
      · exact (quiet_tcpSendAck { u with delacks := 0 }).logs.mono fun e => plain_ne_peerFin
      · split <;> exact .same rfl

/-- Data in sequence is acknowledged there exactly if nothing is queued or
`tcp_send_next` sends. -/
theorem ackData_acknowledges (hs : s.state.takesText) (hd : skb.dlen > 0) (th : Tcphdr) :
    Acknowledges s (ackData s th skb true) ↔ s.writeQueue.isEmpty ∨ s.sendsNext := by
  cases hq : s.writeQueue.isEmpty with
  | true => simp [ackData_idle hs (List.isEmpty_iff.mp hq) hd th]
  | false =>
    rw [ackData_pending hs hq]
    have hfx := tcpStopDelackTimer_fx s
    have hsn := tcpStopDelackTimer_sendsNext s
    have hstop : (tcpStopDelackTimer s).writeQueue = s.writeQueue ∧ (tcpStopDelackTimer s).delack = none ∧
        (tcpStopDelackTimer s).tcb.rcvNxt = s.tcb.rcvNxt := by
      unfold tcpStopDelackTimer TcpSock.timerCancel
      cases s.delack <;> exact ⟨rfl, rfl, rfl⟩
    generalize tcpStopDelackTimer s = t at hfx hsn hstop
    obtain ⟨hw, hn, hr⟩ := hstop
    cases hnext : s.sendsNext with
    | true =>
      refine iff_of_true (.inl ?_) (.inr rfl)
      obtain ⟨-, d, -, hc, -⟩ := tcpSendNext_spec t s.writeQueue.length 0
      have hnxt : (tcpRearmRtoTimer (tcpSendNext t s.writeQueue.length 0)).tcb.rcvNxt = t.tcb.rcvNxt :=
        congrArg (·.rcv.nxt) hc
      rw [hnxt, ← hw]
      have he : Emits (fun seg => seg.ackSeq = t.tcb.rcvNxt) t (tcpSendNext t t.writeQueue.length 0) :=
        tcpSendNext_emits (hsn.trans hnext) fun _ _ => rfl
      exact (he.then_logs (quiet_tcpRearmRtoTimer _).logs).after_logs (.same (P := fun _ => True) hfx)
    | false =>
      rw [← hw, tcpSendNext_silent (hsn.trans hnext)]
      refine iff_of_false ?_ (by simp)
      rintro (h | ⟨x, -, hx⟩)
      · exact h.not_logs (.same hfx)
      · cases hn.symm.trans hx

theorem tcpInputOtherwise_unheard (hh : s.core.Heard th skb = false) : (tcpInputOtherwise s th skb).rcv = s.rcv := by
  rcases tcpInputOtherwise_cases s th skb with ⟨h, -⟩ | ⟨-, -, h⟩ | ⟨-, h | h⟩
  · rw [hh] at h
    cases h
  · rw [h]
    exact congrArg Core.rcv (tcpEnterTimeWait_core s)
  · rw [h]
  · rw [h]
    exact congrArg Core.rcv (quiet_tcpSendAck s).core

theorem finAcked_textual (hs : s.state.takesText) (th : Tcphdr) : ∃ st, finAcked s th = .next (s.setState st) ∧ st.takesText := by
  unfold finAcked
  cases hst : s.state <;> simp only [hst, TcpState.takesText, Bool.false_eq_true] at hs ⊢
  case finWait1 =>
    split
    · exact ⟨_, rfl, rfl⟩
    · exact ⟨.finWait1, by rw [← hst]; rfl, rfl⟩
  case established => exact ⟨.established, by rw [← hst]; split <;> rfl, rfl⟩
  case finWait2 => exact ⟨.finWait2, by rw [← hst]; split <;> rfl, rfl⟩

/-- Data in sequence is queued, readers are woken and nothing is sent. -/
theorem segmentText_inSequence (hs : s.state.takesText) (hd : skb.dlen > 0) (hw : s.tcb.rcvWnd ≠ 0)
    (hq : skb.seq = s.tcb.rcvNxt) (th : Tcphdr) : (segmentText s th skb).fx = s.fx ++ [.wakeup .recvWait] ∧
    (segmentText s th skb).writeQueue = s.writeQueue ∧ (segmentText s th skb).sendsNext = s.sendsNext := by
  have ht : segmentText s th skb = tcpDataQueue s skb := by
    unfold segmentText
    have hpos : (th.psh || decide (skb.dlen > 0)) = true := by rw [decide_eq_true hd, Bool.or_true]
    cases hst : s.state <;> simp only [hst, TcpState.takesText, Bool.false_eq_true] at hs ⊢ <;> rw [if_pos hpos]
  rw [ht, tcpDataQueue, if_neg hw, if_pos hq]
  exact ⟨rfl, rfl, rfl⟩

/-- An in-sequence FIN is acknowledged at once. -/
theorem finBit_acknowledges (hl : s.state.late) (hf : th.fin) : ∃ t, finBit s th true = .next t ∧
    Emits (fun seg => seg.ackSeq = t.tcb.rcvNxt) s t := by
  let u : TcpSock := { s with
    tcb.rcvNxt := s.tcb.rcvNxt + 1, flagFin := true, pollEvents := s.pollEvents ||| pollInMask }.emit .peerFin
  obtain ⟨h1, h2, h3⟩ := hl
  have hnx : (finState ((tcpSendAck u).wakeup .recvWait)).tcb.rcvNxt = s.tcb.rcvNxt + 1 :=
    (congrArg (·.rcv.nxt) (finState_core ((tcpSendAck u).wakeup .recvWait))).trans (congrArg (·.rcv.nxt) (quiet_tcpSendAck u).core)
  have hem : Emits (fun seg => seg.ackSeq = s.tcb.rcvNxt + 1) u (tcpSendAck u) := tcpSendAck_emits h1 rfl
  refine ⟨finState ((tcpSendAck u).wakeup .recvWait), ?_, ?_⟩
  · unfold finBit
    rw [hf, Bool.and_true, if_pos rfl]
    split
    next h => exact absurd h h1
    next h => exact absurd h h2
    next h => exact absurd h h3
    next => rfl
  · rw [hnx]
    have hfx : (finState ((tcpSendAck u).wakeup .recvWait)).fx = ((tcpSendAck u).wakeup .recvWait).fx := finState_fx _
    have hem' := (hem.then_logs (quiet_wakeup _ .recvWait).logs).then_logs (.same (P := fun _ => True) hfx)
    exact hem'.after_logs (Logs.emit (P := fun _ => True) trivial)

/-- Only a heard segment whose ACK passes and whose data is in sequence moves
`rcv_nxt`. -/
theorem segmentArrives_advances (hs : s.state.takesText) (hd : skb.dlen > 0)
    (hadv : (segmentArrives s th skb).tcb.rcvNxt ≠ s.tcb.rcvNxt) :
    s.core.Heard th skb ∧ s.ackPasses th skb ∧ skb.seq = s.tcb.rcvNxt ∧ s.tcb.rcvWnd ≠ 0 := by
  have hl : s.state.late := by cases hst : s.state <;> simp_all [TcpState.takesText, TcpState.late]
  have htakes : s.state.takesAck := by cases hst : s.state <;> simp_all [TcpState.takesText, TcpState.takesAck]
  rw [segmentArrives_late hl] at hadv
  cases hh : s.core.Heard th skb with
  | false => exact absurd (congrArg RcvSide.nxt (tcpInputOtherwise_unheard hh)) hadv
  | true =>
    have hv : s.core.rcv.verify th skb = true := by
      simp only [Core.Heard, Bool.and_eq_true] at hh
      exact hh.1.1.1
    have hw : s.tcb.rcvWnd ≠ 0 := by
      intro hw
      have hw : s.core.rcv.wnd = 0 := hw
      rw [RcvSide.verify, decide_eq_true hd, decide_eq_true hw] at hv
      cases hv
    rw [tcpInputOtherwise_heard hh, ackField_synchronized htakes] at hadv
    cases hp : s.ackPasses th skb with
    | false =>
      rcases ackSynchronized_cases s th skb with ⟨hp', -⟩ | ⟨-, t, ht, -⟩
      · rw [hp] at hp'
        cases hp'
      · have hr := ackSynchronized_rcv s th skb
        rw [ht] at hr hadv
        exact absurd (congrArg RcvSide.nxt hr) hadv
    | true =>
      refine ⟨rfl, rfl, ?_, hw⟩
      by_contra hq
      obtain ⟨d, hc, -, -⟩ := taken_core s th
      have hts : (s.taken th).state = s.state := congrArg Core.state hc
      have htn : (s.taken th).tcb.rcvNxt = s.tcb.rcvNxt := congrArg (·.rcv.nxt) hc
      rw [ackSynchronized_taken hp, Ctl.andThen, afterAck_eq] at hadv
      obtain ⟨st, hf, hst⟩ := finAcked_textual (s := { s.taken th with lastAckWin := th.win }) (hts ▸ hs) th
      rw [hf, Ctl.andThen, afterFin] at hadv
      generalize hu : TcpSock.setState { s.taken th with lastAckWin := th.win } st = u at hadv
      have hun : u.tcb.rcvNxt = s.tcb.rcvNxt := by rw [← hu]; exact htn
      have hus : u.state.takesText := by rw [← hu]; exact hst
      have hexp : decide (skb.seq = u.tcb.rcvNxt) = false := decide_eq_false (by rw [hun]; exact hq)
      have htext : (segmentText u th skb).tcb.rcvNxt = u.tcb.rcvNxt := by
        unfold segmentText
        have hdq : (tcpDataQueue u skb).tcb.rcvNxt = u.tcb.rcvNxt := by
          have h := congrArg (·.rcv.nxt) (tcpDataQueue_core u skb)
          refine h.trans ?_
          simp only [RcvSide.take]
          split
          · rfl
          · rw [if_neg (show ¬skb.seq = u.core.rcv.nxt by rw [← hun] at hq; exact hq)]
            rfl
        cases hst' : u.state <;> simp only [hst', TcpState.takesText, Bool.false_eq_true] at hus ⊢ <;>
          split <;> first | exact hdq | rfl
      have hfb : finBit (segmentText u th skb) th false = .next (segmentText u th skb) := by
        unfold finBit
        rw [Bool.and_false]
        rfl
      rw [hexp, hfb] at hadv
      obtain ⟨d', hc', -⟩ := ackData_core (segmentText u th skb) th skb false
      exact hadv ((congrArg (·.rcv.nxt) hc').trans (htext.trans hun))

/-- **One segment**: its data is acknowledged exactly if its ACK leaves nothing
queued, it has FIN, or `tcp_send_next` sends after its ACK. -/
theorem segmentArrives_acknowledges (hs : s.state.takesText) (hd : skb.dlen > 0)
    (hadv : (segmentArrives s th skb).tcb.rcvNxt ≠ s.tcb.rcvNxt) :
    Acknowledges s (segmentArrives s th skb) ↔ s.acksAll th ∨ th.fin ∨ (s.taken th).sendsNext := by
  have hl : s.state.late := by cases hst : s.state <;> simp_all [TcpState.takesText, TcpState.late]
  have htakes : s.state.takesAck := by cases hst : s.state <;> simp_all [TcpState.takesText, TcpState.takesAck]
  obtain ⟨hh, hp, hq, hw⟩ := segmentArrives_advances hs hd hadv
  obtain ⟨d, hc, -, -⟩ := taken_core s th
  have hts : (s.taken th).state = s.state := congrArg Core.state hc
  have htn : (s.taken th).tcb.rcvNxt = s.tcb.rcvNxt := congrArg (·.rcv.nxt) hc
  have htw : (s.taken th).tcb.rcvWnd = s.tcb.rcvWnd := congrArg (·.rcv.wnd) hc
  rw [segmentArrives_late hl, tcpInputOtherwise_heard hh, ackField_synchronized htakes, ackSynchronized_taken hp,
    Ctl.andThen, afterAck_eq]
  obtain ⟨st, hf, hst⟩ := finAcked_textual (s := { s.taken th with lastAckWin := th.win }) (hts ▸ hs) th
  rw [hf, Ctl.andThen, afterFin, ← taken_isEmpty]
  have hsilent : ∀ P, Logs (Effect.lacks P) s (TcpSock.setState { s.taken th with lastAckWin := th.win } st) := fun P =>
    (taken_logs trivial s th).trans (.same rfl)
  generalize hu : TcpSock.setState { s.taken th with lastAckWin := th.win } st = u at hsilent
  have hun : u.tcb.rcvNxt = s.tcb.rcvNxt := by rw [← hu]; exact htn
  have hus : u.state.takesText := by rw [← hu]; exact hst
  have huw : u.tcb.rcvWnd ≠ 0 := by rw [← hu]; exact htw ▸ hw
  have huq : u.writeQueue = (s.taken th).writeQueue ∧ u.sendsNext = (s.taken th).sendsNext := by
    rw [← hu]
    exact ⟨rfl, rfl⟩
  have hexp : decide (skb.seq = u.tcb.rcvNxt) = true := decide_eq_true (by rw [hun]; exact hq)
  obtain ⟨hvf, hvq, hvn⟩ := segmentText_inSequence hus hd huw (of_decide_eq_true hexp) th
  have hvs := (segmentText_state u th skb).trans rfl
  rw [hexp]
  generalize segmentText u th skb = v at hvf hvq hvn hvs
  have hsv : ∀ P, Logs (Effect.lacks P) s v := fun P =>
    (hsilent P).trans ⟨_, hvf, by simp [Effect.lacks]⟩
  rw [← huq.1, ← huq.2, ← hvq, ← hvn]
  cases hfin : th.fin with
  | true =>
    have hvl : v.state.late := by
      rw [hvs]
      cases hst' : u.state <;> simp_all [TcpState.takesText, TcpState.late]
    obtain ⟨w, hfb, hem⟩ := finBit_acknowledges hvl hfin
    obtain ⟨d', hc', -⟩ := ackData_core w th skb true
    have hnx : (ackData w th skb true).tcb.rcvNxt = w.tcb.rcvNxt := congrArg (·.rcv.nxt) hc'
    rw [hfb, Ctl.andThen, Ctl.sock]
    refine iff_of_true (.inl ?_) (.inr (.inl rfl))
    rw [hnx]
    exact (hem.then_logs (ackData_logs w th skb true)).after_logs (hsv fun _ => True)
  | false =>
    have hfb : finBit v th true = .next v := by
      unfold finBit
      rw [hfin, Bool.false_and]
      rfl
    rw [hfb, Ctl.andThen, Ctl.sock, Acknowledges, Emits.iff_of_logs (hsv _) (ackData_logs v th skb true)]
    have ha := ackData_acknowledges (s := v) (hvs ▸ hus) hd th
    unfold Acknowledges at ha
    rw [ha]
    simp

end

namespace Conn

/-- Data arrives in ESTABLISHED, FIN_WAIT_1 or FIN_WAIT_2 and moves `rcv_nxt`. -/
def advances (c : Conn) : LifeEvent → Bool
  | .conn (.segment th data psh) =>
    c.sk.state.takesText && data.len > 0 && (c.step (.segment th data psh)).sk.tcb.rcvNxt ≠ c.sk.tcb.rcvNxt
  | _ => false

/-- What moved `rcv_nxt` has been or will be acknowledged. -/
def AcksData (c : Conn) (e : LifeEvent) : Prop := c.advances e → Acknowledges c.sk (c.live e).sk

/-- The ACK of the segment leaves nothing queued, or the segment has FIN, or
after its ACK the first queued skb numbered 0 fits the window. -/
def ackFollows (c : Conn) : LifeEvent → Bool
  | .conn (.segment th _ _) => c.sk.acksAll th || th.fin || (c.sk.taken th).sendsNext
  | _ => true

theorem acksData_iff (c : Conn) (e : LifeEvent) : c.AcksData e ↔ (c.advances e → c.ackFollows e) := by
  unfold AcksData advances ackFollows
  split
  next th data psh =>
    refine forall_congr' fun h => ?_
    simp only [Bool.and_eq_true, decide_eq_true_eq] at h
    obtain ⟨⟨hs, hd⟩, hadv⟩ := h
    have hf : c.sk.fault = false := by
      by_contra hf
      exact hadv (by rw [step_of_fault (by simpa using hf)])
    have hstep : (c.step (.segment th data psh)).sk = segmentArrives c.sk th (tcpInitSegment th data psh) := by
      simp [step, hf]
    rw [hstep] at hadv
    have hd : (tcpInitSegment th data psh).dlen > 0 := hd
    rw [live, hstep, segmentArrives_acknowledges hs hd hadv]
    simp [or_assoc]
  next => simp

end Conn

/-- **Received data is acknowledged**, at once or by the delayed-ACK timer, in
exactly the runs in which every segment that moves `rcv_nxt` with data has an
ACK that leaves nothing queued, has FIN, or lets `tcp_send_next` send. -/
theorem data_acknowledged_iff (c : Conn) (es : List LifeEvent) :
    Machine.Meets Conn.live Conn.AcksData c es ↔
    Machine.Meets Conn.live (fun c e => c.advances e → c.ackFollows e) c es :=
  Machine.Meets.iff_of_invariant (I := fun _ => True) (fun _ _ _ => trivial) (fun c e _ => c.acksData_iff e) trivial es

/-- With a byte of ours unacknowledged, a byte of the peer is taken: nothing is
sent and no timer is armed. -/
theorem data_taken_unacknowledged : ¬Machine.Meets Conn.live Conn.AcksData { sk := freshSock {} }
    [.connect {} 100, .conn synAckEvent, .conn (.write [1]), .conn (dataEvent 501 ⟨[7], by decide⟩)] := by
  intro h
  rcases h.2.2.2.1 (by decide +kernel) with hem | ⟨t, -, ht⟩
  · exact hem.not_logs ⟨[.wakeup .recvWait], by decide +kernel, by simp [Effect.lacks]⟩
  · have hnone : (Machine.run Conn.live { sk := freshSock {} }
        [.connect {} 100, .conn synAckEvent, .conn (.write [1]), .conn (dataEvent 501 ⟨[7], by decide⟩)]).sk.delack = none := by
      decide +kernel
    exact absurd (hnone.symm.trans ht) (by simp)

end LevelIp
