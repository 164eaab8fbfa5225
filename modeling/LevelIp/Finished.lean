/-
A socket that `tcp_done` has run on. It stays in the socket list for ten
seconds, in the state CLOSING, which `tcp_input_state` takes for a live one;
this is exactly which segments nevertheless find it dead.
-/
import LevelIp.CongFlow
import LevelIp.StateMachine
import LevelIp.Timing

namespace LevelIp

/-! ## What was sent -/

/-- Between `s` and `s'` a segment with `P` was sent. -/
def Emits (P : Seg → Prop) (s s' : TcpSock) : Prop :=
  ∃ new, s'.fx = s.fx ++ new ∧ ∃ seg unread, Effect.xmit seg unread ∈ new ∧ P seg

/-- The effect is no segment with `P`. -/
def Effect.lacks (P : Seg → Prop) : Effect → Prop
  | .xmit seg _ => ¬P seg
  | .queued _ _ _ | .peerFin | .wakeup _ | .acceptQueue _ => True

namespace Emits

variable {P : Seg → Prop} {s t u : TcpSock}

theorem not_logs (h : Emits P s t) : ¬Logs (Effect.lacks P) s t := by
  rintro ⟨new', hf', hp⟩
  obtain ⟨new, hf, seg, unread, hm, hs⟩ := h
  have he : new = new' := List.append_cancel_left (hf.symm.trans hf')
  subst he
  exact hp _ hm hs

theorem then_logs {Q : Effect → Prop} (h : Emits P s t) (hl : Logs Q t u) : Emits P s u := by
  obtain ⟨new, hf, seg, unread, hm, hs⟩ := h
  obtain ⟨new', hf', -⟩ := hl
  exact ⟨new ++ new', by rw [hf', hf, List.append_assoc], seg, unread, List.mem_append_left _ hm, hs⟩

theorem after_logs {Q : Effect → Prop} (h : Emits P t u) (hl : Logs Q s t) : Emits P s u := by
  obtain ⟨new, hf, seg, unread, hm, hs⟩ := h
  obtain ⟨new', hf', -⟩ := hl
  exact ⟨new' ++ new, by rw [hf, hf', List.append_assoc], seg, unread, List.mem_append_right _ hm, hs⟩

end Emits

/-- The segment `tcp_send_ack` sends. -/
def ackSeg (s : TcpSock) : Seg := segOf s { tcpAllocSkb (tcpOptionsLen s).toNat Payload.nil with ack := true } s.tcb.sndNxt

theorem tcpSendAck_fx {s : TcpSock} (h : s.state ≠ .close) :
    (tcpSendAck s).fx = s.fx ++ [.xmit (ackSeg s) s.unread.length] := by
  unfold tcpSendAck
  rw [if_neg h]
  exact tcpTransmitSkb_fx _ _ _

theorem tcpSendAck_emits {P : Seg → Prop} {s : TcpSock} (h : s.state ≠ .close) (hp : P (ackSeg s)) : Emits P s (tcpSendAck s) :=
  ⟨_, tcpSendAck_fx h, ackSeg s, _, List.mem_singleton_self _, hp⟩

/-! ## Dead and loud -/

/-- Anything but a segment without RST. -/
def Effect.harmless : Effect → Prop
  | .xmit seg _ => seg.rst
  | .queued _ _ _ | .peerFin | .wakeup _ | .acceptQueue _ => True

/-- From `s` to `s'` the state is the same, no data was queued, no timer was
added and no segment was sent but a RST. `nextTimer` counts the `timer_add`s. -/
structure Inert (s s' : TcpSock) : Prop where
  state : s'.state = s.state
  receive : s'.receiveQueue = s.receiveQueue
  ofo : s'.ofoQueue = s.ofoQueue
  timers : s'.nextTimer = s.nextTimer
  sends : Logs Effect.harmless s s'

theorem Inert.refl (s : TcpSock) : Inert s s := ⟨rfl, rfl, rfl, rfl, .refl s⟩

/-- A segment without RST was sent. -/
def Loud (s s' : TcpSock) : Prop := Emits (fun seg => seg.rst = false) s s'

theorem Loud.not_inert {s s' : TcpSock} (h : Loud s s') : ¬Inert s s' := by
  intro hi
  refine h.not_logs (hi.sends.mono fun e he => ?_)
  cases e with
  | xmit seg unread =>
    have hr : seg.rst = true := he
    simp [Effect.lacks, hr]
  | _ => trivial

theorem Loud.then {s t u : TcpSock} {P : Effect → Prop} (h : Loud s t) (hl : Logs P t u) : Loud s u := h.then_logs hl

theorem Logs.loud {s t u : TcpSock} {P : Effect → Prop} (hl : Logs P s t) (h : Loud t u) : Loud s u := h.after_logs hl

theorem tcpSendAck_loud {s : TcpSock} (h : s.state ≠ .close) : Loud s (tcpSendAck s) := tcpSendAck_emits h rfl

/-! ## The stages of a segment on a finished socket -/

/-- The states of a socket that `tcp_done` has run on. -/
def TcpState.over : TcpState → Bool
  | .closing | .lastAck | .timeWait => true
  | .listen | .synSent | .synReceived | .established | .finWait1 | .finWait2 | .close | .closeWait => false

theorem late_of_over {st : TcpState} (h : st.over) : st.late := by
  cases st
  case closing | lastAck | timeWait => exact ⟨nofun, nofun, nofun⟩
  all_goals cases h

variable {s : TcpSock} {th : Tcphdr} {skb : Skb}

theorem segmentText_over (h : s.state.over) : segmentText s th skb = s := by
  unfold segmentText
  cases hs : s.state <;> simp_all [TcpState.over]

theorem ackData_over (h : s.state.over) (expected : Bool) : ackData s th skb expected = s := by
  unfold ackData
  cases hs : s.state <;> simp_all [TcpState.over]

theorem finState_over (h : s.state.over) : finState s = s := by
  unfold finState
  cases hs : s.state <;> simp_all [TcpState.over]

/-- An in-sequence FIN is acknowledged, whatever the socket is. -/
theorem finBit_over (h : s.state.over) (th : Tcphdr) (expected : Bool) : ∃ t, finBit s th expected = .next t ∧ t.state.over ∧
    if th.fin && expected then Loud s t else t = s := by
  unfold finBit
  split
  next =>
    obtain ⟨h1, h2, h3⟩ := late_of_over h
    split
    next hs => exact absurd hs h1
    next hs => exact absurd hs h2
    next hs => exact absurd hs h3
    next =>
      let u : TcpSock := { s with
        tcb.rcvNxt := s.tcb.rcvNxt + 1, flagFin := true, pollEvents := s.pollEvents ||| pollInMask }.emit .peerFin
      have hst : ((tcpSendAck u).wakeup .recvWait).state = s.state := ((quiet_tcpSendAck u).trans (quiet_wakeup _ .recvWait)).state
      have hloud : Loud u (tcpSendAck u) := tcpSendAck_loud h1
      have hemit : Logs (fun _ => True) s u := .emit trivial
      refine ⟨_, rfl, ?_, ?_⟩
      · rw [finState_over (by rw [hst]; exact h), hst]
        exact h
      · rw [finState_over (by rw [hst]; exact h)]
        exact (hemit.loud hloud).then (quiet_wakeup _ .recvWait).logs
  next => exact ⟨s, rfl, h, rfl⟩

theorem segmentArrives_late (hl : s.state.late) (th : Tcphdr) (skb : Skb) :
    segmentArrives s th skb = tcpInputOtherwise s th skb := by
  obtain ⟨h1, h2, h3⟩ := hl
  unfold segmentArrives
  cases hs : s.state
  case close => exact absurd hs h1
  case listen => exact absurd hs h2
  case synSent => exact absurd hs h3
  all_goals rfl

theorem tcpInputOtherwise_heard (hh : s.core.Heard th skb) :
    tcpInputOtherwise s th skb = ((ackField s th skb).andThen fun s => afterAck s th skb).sock := by
  simp only [Core.Heard, Bool.and_eq_true, Bool.not_eq_true'] at hh
  obtain ⟨⟨⟨hv, hrst⟩, hsyn⟩, hack⟩ := hh
  have hv : tcpVerifySegment s th skb = true := hv
  simp only [tcpInputOtherwise, hv, hrst, hsyn, hack]
  rfl

/-- What a segment does in a synchronized state: its ACK field is read, it is an
acceptable RST, or at most an ACK goes out. -/
theorem tcpInputOtherwise_cases (s : TcpSock) (th : Tcphdr) (skb : Skb) :
    (s.core.Heard th skb ∧
      tcpInputOtherwise s th skb = ((ackField s th skb).andThen fun s => afterAck s th skb).sock) ∨
    (s.core.rcv.verify th skb ∧ th.rst ∧ tcpInputOtherwise s th skb = (tcpEnterTimeWait s).wakeup .recvWait) ∨
    (s.core.Heard th skb = false ∧ (tcpInputOtherwise s th skb = s ∨ tcpInputOtherwise s th skb = tcpSendAck s)) := by
  cases hh : s.core.Heard th skb with
  | true => exact .inl ⟨rfl, tcpInputOtherwise_heard hh⟩
  | false =>
    refine .inr ?_
    have hvv : s.core.rcv.verify th skb = tcpVerifySegment s th skb := rfl
    unfold tcpInputOtherwise
    split
    next =>
      refine .inr ⟨rfl, ?_⟩
      split
      · exact .inr rfl
      · exact .inl rfl
    next hv =>
      have hv : tcpVerifySegment s th skb = true := by simpa using hv
      split
      next hr => exact .inl ⟨hvv.trans hv, hr, rfl⟩
      next hr =>
        refine .inr ⟨rfl, .inl ?_⟩
        split
        · rfl
        next hsyn =>
          split
          · rfl
          next hack => simp_all [Core.Heard]

/-- Text, FIN and delayed ACKs. -/
def afterFin (s : TcpSock) (th : Tcphdr) (skb : Skb) : Ctl :=
  (finBit (segmentText s th skb) th (skb.seq = s.tcb.rcvNxt)).andThen fun t =>
    .next (ackData t th skb (skb.seq = s.tcb.rcvNxt))

theorem afterAck_eq (s : TcpSock) (th : Tcphdr) (skb : Skb) :
    afterAck s th skb = (finAcked s th).andThen fun s => afterFin s th skb := rfl

/-- On a finished socket they answer an in-sequence FIN and nothing else. -/
theorem afterFin_over (h : s.state.over) (th : Tcphdr) (skb : Skb) :
    if th.fin && skb.seq = s.tcb.rcvNxt then Loud s (afterFin s th skb).sock else (afterFin s th skb).sock = s := by
  obtain ⟨t, ht, hst, hl⟩ := finBit_over h th (skb.seq = s.tcb.rcvNxt)
  rw [afterFin, segmentText_over h, ht, Ctl.andThen, ackData_over hst]
  exact hl

/-- They take back nothing that was sent. -/
theorem Loud.afterFin {t : TcpSock} (h : Loud s t) (ht : t.state.over) (th : Tcphdr) (skb : Skb) :
    Loud s (afterFin t th skb).sock := by
  have ht := afterFin_over ht th skb
  split at ht
  · obtain ⟨new, hf, -⟩ := ht
    exact h.then (P := fun _ => True) ⟨new, hf, fun _ _ => trivial⟩
  · rw [ht]
    exact h

/-- Nothing queued is numbered 0, or the first such skb does not fit: a
duplicate ACK makes `tcp_send_next` send nothing. -/
def TcpSock.blocked (s : TcpSock) : Bool :=
  (s.writeQueue.find? fun k => k.seq = 0).all fun k => s.inflight + k.dlen > dupackLimit s

theorem tcpSendNextLoop_emits {limit : U32} {rest : List Skb} {k : Skb} (hk : rest.find? (fun k => k.seq = 0) = some k)
    {s : TcpSock} {P : Seg → Prop} (hp : ∀ n, P (segOf s k n)) (hl : limit ≤ s.tcb.sndWnd)
    (hroom : ¬s.inflight + k.dlen > limit) {amount : Nat} (ha : rest.length ≤ amount) (visited : List Skb) :
    Emits P s (tcpSendNextLoop limit amount visited rest s) := by
  induction rest generalizing amount visited with
  | nil => cases hk
  | cons next rest ih =>
    obtain ⟨amount, rfl⟩ : ∃ n, amount = n + 1 := ⟨amount - 1, by rw [List.length_cons] at ha; omega⟩
    by_cases h0 : next.seq = 0
    · have hn : next = k := by simpa [h0] using hk
      subst hn
      rw [tcpSendNextLoop_turn h0 hroom]
      have hw : (renumSock s next).tcb.sndWnd = s.tcb.sndWnd := congrArg (·.snd.wnd) (renumSock_core s next)
      obtain ⟨es, d, hf, -, -⟩ := tcpSendNextLoop_spec limit amount (visited ++ [s.snd.number next]) rest
        (renumSock s next) (by rw [hw]; exact hl)
      have hs : Emits P s (renumSock s next) :=
        ⟨_, renumSock_fx s next, segOf s next s.tcb.sndNxt, _, List.mem_singleton_self _, hp _⟩
      exact hs.then_logs (Q := fun _ => True) ⟨es, hf, fun _ _ => trivial⟩
    · rw [List.find?_cons_of_neg (by simpa using h0)] at hk
      rw [tcpSendNextLoop, if_pos h0]
      exact ih hk (by rw [List.length_cons] at ha; omega) _

/-- What `tcp_handle_dupack` does below or past the third duplicate. -/
theorem tcpHandleDupack_quiet (h3 : s.dupacks + 1 ≠ 3) : ∃ t extra, tcpHandleDupack s = (
      if s.writeQueue.length > 0 then tcpSendNext t s.writeQueue.length extra else t) ∧
    t.fx = s.fx ∧ t.core = s.core ∧ t.nextTimer = s.nextTimer ∧ t.writeQueue = s.writeQueue ∧
    umin (t.cwnd + extra) t.tcb.sndWnd = dupackLimit s := by
  obtain ⟨hq, hlim⟩ := dupackAction_frame s
  have hc : (dupackAction { s with dupacks := s.dupacks + 1 }).1.core = s.core := dupackAction_core _
  have hw : (dupackAction { s with dupacks := s.dupacks + 1 }).1.tcb.sndWnd = s.tcb.sndWnd := congrArg (·.snd.wnd) hc
  have hx : (dupackAction { s with dupacks := s.dupacks + 1 }).1.fx = s.fx ∧
      (dupackAction { s with dupacks := s.dupacks + 1 }).1.nextTimer = s.nextTimer := by
    simp only [dupackAction, h3, if_false]
    split <;> exact ⟨rfl, rfl⟩
  refine ⟨_, _, ?_, hx.1, hc, hx.2, hq, by rw [hw]; exact hlim⟩
  unfold tcpHandleDupack
  dsimp only
  rw [hq]

theorem tcpHandleDupack_inert (h3 : s.dupacks + 1 ≠ 3) (hb : s.blocked) (w : U16) :
    Inert s { tcpHandleDupack s with lastAckWin := w } := by
  obtain ⟨t, extra, he, hf, hc, hn, hq, hlim⟩ := tcpHandleDupack_quiet h3
  have hfl : t.inflight = s.inflight := congrArg (·.snd.inflight) hc
  have ht : tcpHandleDupack s = t := by
    rw [he]
    split
    · have hfull : ∀ k, s.writeQueue.find? (·.seq = 0) = some k → t.inflight + k.dlen > dupackLimit s := fun k hk => by
        rw [TcpSock.blocked, hk] at hb
        rw [hfl]
        exact of_decide_eq_true hb
      have hidle := tcpSendNextLoop_idle hfull s.writeQueue.length []
      rw [tcpSendNext, hlim, hq, hidle, List.nil_append, ← hq]
    · rfl
  rw [ht]
  exact ⟨congrArg Core.state hc, congrArg (·.rcv.queue) hc, congrArg (·.rcv.ofo) hc, hn, .same hf⟩

theorem tcpHandleDupack_loud (h3 : s.dupacks + 1 ≠ 3) (hb : s.blocked = false) (hr : ∀ k ∈ s.writeQueue, k.rst = false) :
    Loud s (tcpHandleDupack s) := by
  obtain ⟨t, extra, he, hf, hc, hn, hq, hlim⟩ := tcpHandleDupack_quiet h3
  have hfl : t.inflight = s.inflight := congrArg (·.snd.inflight) hc
  unfold TcpSock.blocked at hb
  cases hk : s.writeQueue.find? (fun k => k.seq = 0) with
  | none =>
    rw [hk] at hb
    cases hb
  | some k =>
    rw [hk] at hb
    have hroom : ¬t.inflight + k.dlen > dupackLimit s := by rw [hfl]; simpa using hb
    have hmem := List.mem_of_find?_eq_some hk
    have hl : dupackLimit s ≤ t.tcb.sndWnd := by rw [← hlim]; exact umin_le_right _ _
    rw [he, if_pos (List.length_pos_of_mem hmem), tcpSendNext, hlim, hq]
    have hs : Loud t _ := tcpSendNextLoop_emits hk (fun _ => hr k hmem) hl hroom (Nat.le_refl _) []
    exact (Logs.same (P := fun _ => True) hf).loud hs

theorem stopRto_nextTimer (g : Timing) : g.stopRto.nextTimer = g.nextTimer := by
  unfold Timing.stopRto Timing.cancel
  cases g.retransmit <;> rfl

theorem newAck_nextTimer (s : TcpSock) (th : Tcphdr) : (newAck s th).nextTimer = s.nextTimer := by
  have h := congrArg Timing.nextTimer (newAck_timing s th)
  refine h.trans ?_
  split
  · exact stopRto_nextTimer _
  · rfl

/-- The socket once the ACK of a segment has been taken. -/
def TcpSock.taken (s : TcpSock) (th : Tcphdr) : TcpSock := if ackIsNew s th then newAck s th else s

theorem taken_logs {P : Effect → Prop} (hw : P (.wakeup .writeWait)) (s : TcpSock) (th : Tcphdr) : Logs P s (s.taken th) := by
  unfold TcpSock.taken
  split
  · exact newAck_logs hw s th
  · exact .refl s

theorem taken_core (s : TcpSock) (th : Tcphdr) : ∃ d, (s.taken th).core = { s.core with snd := d } ∧
    d.queue.isEmpty = s.acksAll th ∧ d.queue.Sublist s.core.snd.queue := by
  unfold TcpSock.taken TcpSock.acksAll
  split
  · exact ⟨_, newAck_core s th, cleanQueue_isEmpty _ _, List.dropWhile_sublist _⟩
  · exact ⟨_, rfl, queue_isEmpty s, List.Sublist.refl _⟩

theorem taken_isEmpty (s : TcpSock) (th : Tcphdr) : (s.taken th).writeQueue.isEmpty = s.acksAll th := by
  obtain ⟨d, hc, hq, -⟩ := taken_core s th
  rw [← queue_isEmpty, hc]
  exact hq

/-- An ACK that passes is taken, and its segment goes on. -/
theorem ackSynchronized_taken (hp : s.ackPasses th skb) :
    ackSynchronized s th skb = .next { s.taken th with lastAckWin := th.win } := by
  simp only [TcpSock.ackPasses, Bool.and_eq_true, Bool.not_eq_true', decide_eq_true_eq] at hp
  obtain ⟨hd, hok⟩ := hp
  cases hn : ackIsNew s th with
  | true =>
    obtain ⟨t, ht, -⟩ := ackSynchronized_new skb hn
    rw [ht]
    rw [ackSynchronized, hd, hn] at ht
    simp only [Bool.false_eq_true, if_false, if_true] at ht
    unfold ackChecked at ht
    split at ht
    · cases ht
    · split at ht
      · cases ht
      · rw [ackIsNew_newAck] at ht
        rw [← ht, TcpSock.taken, hn]
        rfl
  | false =>
    have h1 : ¬th.ackSeq < s.tcb.sndUna := BitVec.not_lt.mpr hok.1
    have h2 : ¬th.ackSeq > s.tcb.sndNxt := BitVec.not_lt.mpr hok.2
    rw [ackSynchronized, hd, hn, TcpSock.taken, hn]
    simp only [Bool.false_eq_true, if_false]
    rw [ackChecked, if_neg h1, if_neg h2, hn]
    rfl

/-- An ACK that passes leaves all but the send side. -/
theorem ackSynchronized_passes (hp : s.ackPasses th skb) : ∃ t, ackSynchronized s th skb = .next t ∧ Inert s t ∧
    t.writeQueue.isEmpty = s.acksAll th ∧ t.tcb.rcvNxt = s.tcb.rcvNxt := by
  obtain ⟨d, hc, -, -⟩ := taken_core s th
  have hn : (s.taken th).nextTimer = s.nextTimer := by
    unfold TcpSock.taken
    split
    · exact newAck_nextTimer s th
    · rfl
  refine ⟨_, ackSynchronized_taken hp, ⟨congrArg Core.state hc, congrArg (·.rcv.queue) hc, congrArg (·.rcv.ofo) hc, hn, ?_⟩,
    taken_isEmpty s th, congrArg (·.rcv.nxt) hc⟩
  exact (taken_logs trivial s th).trans (.same rfl)

/-! ## Which segments find it dead -/

/-- A heard segment that TIME_WAIT ignores: it is not at `rcv_nxt`, or the queue
is not empty and it has no FIN. -/
def TcpSock.timeWaitIgnores (s : TcpSock) (th : Tcphdr) : Bool := !(th.seq = s.tcb.rcvNxt && (s.writeQueue.isEmpty || th.fin))

/-- A heard segment that CLOSING and LAST_ACK ignore: a duplicate ACK that is
not the third and lets nothing out, an ACK outside `snd_una..snd_nxt`, or one
that leaves something queued, without an in-sequence FIN. -/
def TcpSock.closingIgnores (s : TcpSock) (th : Tcphdr) (skb : Skb) : Bool :=
  if tcpIsDupack s th skb then s.dupacks + 1 ≠ 3 && s.blocked
  else !s.core.snd.AckOk th || (!s.acksAll th && !(th.fin && th.seq = s.tcb.rcvNxt))

/-- The segments a finished socket takes no notice of: an unacceptable RST, an
acceptable SYN, an acceptable segment without ACK, and the heard ones above. -/
def TcpSock.ignores (s : TcpSock) (th : Tcphdr) (skb : Skb) : Bool :=
  if s.core.rcv.verify th skb then
    !th.rst && (th.syn || !th.ack || if s.state = .timeWait then s.timeWaitIgnores th else s.closingIgnores th skb)
  else th.rst

theorem inert_of_eq {t : TcpSock} (h : t = s) : Inert s t := h ▸ .refl s

theorem tcpEnterTimeWait_not_inert (w : Wait) : ¬Inert s ((tcpEnterTimeWait s).wakeup w) := by
  intro h
  have hn : (tcpEnterTimeWait s).nextTimer = s.timing.clear.nextTimer + 1 :=
    congrArg Timing.nextTimer (tcpEnterTimeWait_timing s)
  have hc : s.timing.clear.nextTimer = s.nextTimer := by
    have hcancel : ∀ (g : Timing) (t : Option Timer), (g.cancel t).nextTimer = g.nextTimer := fun g t => by cases t <;> rfl
    exact (hcancel _ _).trans ((hcancel _ _).trans (stopRto_nextTimer _))
  have ht : (tcpEnterTimeWait s).nextTimer = s.nextTimer := h.timers
  omega

/-- TIME_WAIT: the ACK field is not read. -/
theorem heard_timeWait (hs : s.state = .timeWait) (hseq : skb.seq = th.seq) :
    Inert s ((ackField s th skb).andThen fun s => afterAck s th skb).sock ↔ s.timeWaitIgnores th := by
  have hf : ackField s th skb = .next s := by
    unfold ackField
    rw [hs]
  have hover : s.state.over := by rw [hs]; rfl
  have ht := afterFin_over hover th skb
  have hloud : Loud { s with flagFin := true } (tcpSendAck { s with flagFin := true }) :=
    tcpSendAck_loud (late_of_over hover).1
  have hst : (tcpSendAck { s with flagFin := true }).state.over := by
    rw [(quiet_tcpSendAck _).state]
    exact hover
  rw [hf, Ctl.andThen, afterAck_eq]
  unfold finAcked TcpSock.timeWaitIgnores
  generalize tcpSendAck { s with flagFin := true } = u at hloud hst
  rw [hs]
  dsimp only
  cases hq : s.writeQueue.isEmpty with
  | false =>
    simp only [Bool.false_eq_true, if_false, Ctl.andThen, Bool.false_or]
    rw [hseq, Bool.and_comm] at ht
    split at ht
    next h =>
      rw [h]
      exact ⟨fun hi => absurd hi ht.not_inert, by simp⟩
    next h =>
      rw [Bool.not_eq_true] at h
      rw [h]
      exact ⟨fun _ => rfl, fun _ => inert_of_eq ht⟩
  | true =>
    simp only [if_true, Ctl.andThen, Bool.true_or, Bool.and_true]
    by_cases hr : th.seq = s.tcb.rcvNxt
    · rw [if_pos hr.symm, decide_eq_true hr]
      have hloud : Loud s u := hloud
      exact ⟨fun hi => absurd hi (hloud.afterFin hst th skb).not_inert, by simp⟩
    · rw [if_neg (fun h => hr h.symm), decide_eq_false hr]
      rw [if_neg (by simp [hseq, hr])] at ht
      exact ⟨fun _ => rfl, fun _ => inert_of_eq ht⟩

/-- CLOSING and LAST_ACK: the whole ACK processing runs. -/
theorem heard_closing (hs : s.state = .closing ∨ s.state = .lastAck) (hseq : skb.seq = th.seq)
    (hr : ∀ k ∈ s.writeQueue, k.rst = false) :
    Inert s ((ackField s th skb).andThen fun s => afterAck s th skb).sock ↔ s.closingIgnores th skb := by
  have htakes : s.state.takesAck := by rcases hs with h | h <;> rw [h] <;> rfl
  have hover : s.state.over := by rcases hs with h | h <;> rw [h] <;> rfl
  rw [ackField_synchronized htakes]
  unfold TcpSock.closingIgnores
  by_cases hd : tcpIsDupack s th skb
  · rw [if_pos hd, ackSynchronized, if_pos hd, Ctl.andThen, Ctl.sock]
    by_cases h3 : s.dupacks + 1 = 3
    · rw [decide_eq_false (not_not.mpr h3), Bool.false_and]
      refine ⟨fun hi => ?_, by simp⟩
      have ht := congrArg Timing.nextTimer (tcpHandleDupack_timing s)
      rw [if_pos h3] at ht
      have h1 : (tcpHandleDupack s).nextTimer = s.nextTimer + 1 := ht
      have h2 : (tcpHandleDupack s).nextTimer = s.nextTimer := hi.timers
      omega
    · rw [decide_eq_true h3, Bool.true_and]
      cases hb : s.blocked with
      | true => exact ⟨fun _ => rfl, fun _ => tcpHandleDupack_inert h3 hb _⟩
      | false =>
        refine ⟨fun hi => absurd hi (Loud.not_inert ?_), by simp⟩
        exact (tcpHandleDupack_loud h3 hb hr).then (P := fun _ => True) (.same rfl)
  · rw [if_neg hd]
    rw [Bool.not_eq_true] at hd
    by_cases hok : s.core.snd.AckOk th
    · have hp : s.ackPasses th skb = true := by simp [TcpSock.ackPasses, hd, hok]
      obtain ⟨t, ht, hi, hq, hnx⟩ := ackSynchronized_passes hp
      rw [decide_eq_true hok, Bool.not_true, Bool.false_or, ht, Ctl.andThen, afterAck_eq, ← hq]
      cases hempty : t.writeQueue.isEmpty with
      | true =>
        -- our FIN counts as acknowledged: the state moves
        refine ⟨fun hin => ?_, by simp⟩
        have hstate := afterAck_state (s := t) (by rw [hi.state]; exact late_of_over hover) th skb
        rw [afterAck_eq, hin.state, hi.state, hempty] at hstate
        rcases hs with h | h <;> rw [h] at hstate <;>
          cases hb : (th.fin && decide (skb.seq = t.tcb.rcvNxt)) <;> rw [hb] at hstate <;> cases hstate
      | false =>
        have hfin : finAcked t th = .next t := by
          unfold finAcked
          rw [hempty]
          rfl
        rw [hfin, Ctl.andThen, Bool.not_false, Bool.true_and]
        have hto : t.state.over := by rw [hi.state]; exact hover
        have hl := afterFin_over hto th skb
        rw [hseq, hnx] at hl
        split at hl
        next h =>
          rw [h]
          obtain ⟨new, hf, -⟩ := hi.sends
          exact ⟨fun hin => absurd hin (hi.sends.loud hl).not_inert, by simp⟩
        next h =>
          rw [Bool.not_eq_true] at h
          rw [h, hl]
          exact ⟨fun _ => rfl, fun _ => hi⟩
    · rw [decide_eq_false hok, Bool.not_false, Bool.true_or]
      have hn : ackIsNew s th = false := by
        by_contra hn
        have hn : ackIsNew s th = true := by simpa using hn
        simp only [ackIsNew, Bool.and_eq_true, decide_eq_true_eq] at hn
        exact hok ⟨BitVec.le_of_lt hn.1, hn.2⟩
      rw [ackSynchronized_outside hd hn hok]
      exact ⟨fun _ => rfl, fun _ => .refl s⟩

/-- **Exactly which segments a finished socket takes no notice of.** -/
theorem segmentArrives_inert_iff (hs : s.state.over) (hseq : skb.seq = th.seq) (hr : ∀ k ∈ s.writeQueue, k.rst = false) :
    Inert s (segmentArrives s th skb) ↔ s.ignores th skb := by
  have hrun : segmentArrives s th skb = tcpInputOtherwise s th skb := by
    unfold segmentArrives
    cases h : s.state <;> simp_all [TcpState.over]
  have hv : tcpVerifySegment s th skb = s.core.rcv.verify th skb := rfl
  rw [hrun]
  unfold tcpInputOtherwise TcpSock.ignores
  rw [hv]
  cases s.core.rcv.verify th skb with
  | false =>
    simp only [Bool.not_false, if_true, Bool.false_eq_true, if_false]
    cases th.rst with
    | true => exact ⟨fun _ => rfl, fun _ => .refl s⟩
    | false => exact ⟨fun hi => absurd hi (tcpSendAck_loud (late_of_over hs).1).not_inert, nofun⟩
  | true =>
    simp only [Bool.not_true, Bool.false_eq_true, if_false, if_true]
    cases th.rst with
    | true => exact ⟨fun hi => absurd hi (tcpEnterTimeWait_not_inert _), nofun⟩
    | false =>
      simp only [Bool.false_eq_true, if_false, Bool.not_false, Bool.true_and]
      cases th.syn with
      | true => exact ⟨fun _ => rfl, fun _ => .refl s⟩
      | false =>
        cases th.ack with
        | false => exact ⟨fun _ => rfl, fun _ => .refl s⟩
        | true =>
          simp only [Bool.not_true, Bool.false_eq_true, if_false, Bool.false_or]
          by_cases ht : s.state = .timeWait
          · rw [if_pos ht]
            exact heard_timeWait ht hseq
          · rw [if_neg ht]
            refine heard_closing ?_ hseq hr
            cases h : s.state <;> simp_all [TcpState.over]

/-! ## Over whole lives -/

theorem Move.over {a : Act} {c c' : Core} {es : List Effect} (hm : Move a c es c') (h : c.state.over) : c'.state.over := by
  cases hm with
  | establish hs | fault hs => rw [hs] at h; cases h
  | finWait2 _ hs | finSent _ _ hs | finResent _ _ hs => rw [hs] at h; cases h
  | connect hs | simultaneous hs => rw [hs] at h; cases h
  | closeStart hs => rw [hs] at h; cases h
  | fin =>
    simp only [Core.finState]
    cases hs : c.state <;> simp_all [TcpState.over]
  | queueFin lastAck =>
    cases lastAck
    · exact h
    · rfl
  | _ => first | exact h | rfl

/-- No skb on `write_queue` has RST. -/
def Core.NoRst (c : Core) : Prop := ∀ k ∈ c.snd.queue, k.rst = false

theorem inherent_noRst : Skb.Inherent fun k => k.rst = false := ⟨fun _ _ h => h, fun h => h, rfl, rfl⟩

/-- A call that opens the socket queues at most a SYN. -/
theorem Core.Opens.queue_forall {Q : Skb → Prop} (hQ : Skb.Inherent Q) (hsyn : ∀ k : Skb, k.IsSyn → Q k) {c c' : Core}
    (ho : c.Opens c') (h : ∀ k ∈ c.snd.queue, Q k) : ∀ k ∈ c'.snd.queue, Q k := by
  cases ho with
  | fails => exact h
  | listen => exact h
  | connect iss _ hk => exact enqueue_forall hQ (d := { c.snd with iss := iss, una := iss, nxt := iss, wnd := 0 }) (hsyn _ hk) h

/-- A newborn socket has queued nothing but a SYN-ACK. -/
theorem Born.queue_forall {Q : Skb → Prop} (hQ : Skb.Inherent Q) {s : TcpSock} (hb : Born s) : ∀ k ∈ s.core.snd.queue, Q k := by
  cases hb with
  | fresh o => exact nofun
  | forked _ hl =>
    intro k hk
    have hq : s.core.snd.queue = _ := congrArg (·.snd.queue) (tcpListen_core hl).1
    rw [hq] at hk
    rw [List.mem_singleton.mp hk]
    exact hQ.plain (hQ.renum _ _ hQ.synAck)

/-- A socket, and whether `tcp_done` has run on it. -/
structure Ended where
  conn : Conn
  finished : Bool := false

namespace Ended

def step (h : Ended) (e : LifeEvent) : Ended :=
  { conn := h.conn.live e, finished := h.finished || e.event?.any h.conn.finishes }

/-- On a finished socket a segment does nothing. -/
def Dead (h : Ended) : LifeEvent → Prop
  | .conn (.segment th data psh) => h.finished → Inert h.conn.sk (h.conn.step (.segment th data psh)).sk
  | _ => True

/-- A segment that reaches a finished socket is one of those it ignores. -/
def ignored (h : Ended) : LifeEvent → Bool
  | .conn (.segment th data psh) => !h.finished || h.conn.sk.fault || h.conn.sk.ignores th (tcpInitSegment th data psh)
  | _ => true

/-- What holds of a socket over its life. -/
structure Inv (h : Ended) : Prop where
  readers : h.conn.OnlyReaders
  rst : h.conn.sk.core.NoRst
  ended : h.finished → h.conn.sk.state.over

theorem opens_over {c c' : Core} (ho : c.Opens c') (h : c.state.over) : c'.state.over := by
  cases ho with
  | fails => exact h
  | listen hs | connect _ hs _ =>
    rw [hs] at h
    cases h

/-- Every event keeps what holds of a socket over its life. -/
theorem Inv.step {h : Ended} (hi : h.Inv) (e : LifeEvent) : (h.step e).Inv := by
  refine ⟨Conn.live_onlyReaders hi.readers e, ?_, ?_⟩
  · exact Conn.live_keeps_core (I := Core.NoRst) (fun hmv hk => hmv.queue_forall inherent_noRst (fun _ _ _ => rfl) hk)
      (fun ho hk => ho.queue_forall inherent_noRst (fun _ hs => hs.rst) hk) hi.readers hi.rst e
  · intro hf
    by_cases hold : h.finished
    · -- a finished socket stays in the states of one
      exact Conn.live_keeps_core (I := fun k => k.state.over) (fun hmv hk => hmv.over hk) (fun ho hk => opens_over ho hk) hi.readers
        (hi.ended hold) e
    · have hfin : e.event?.any h.conn.finishes := by
        have hf : (h.finished || e.event?.any h.conn.finishes) = true := hf
        simpa [hold] using hf
      have hst := Conn.live_state h.conn e
      show (h.conn.live e).sk.state.over
      split at hst
      · rw [hst]
        rfl
      · rw [hst]
        rfl

theorem Inv.born {s : TcpSock} (hb : Born s) : Inv { conn := { sk := s } } := by
  have hn : (∀ call ∈ ([] : List Call), ∃ len got, call = .recv len got) := by simp
  exact ⟨fun _ => hn, hb.queue_forall inherent_noRst, by simp⟩

/-- On one event: a finished socket is dead to it exactly if it ignores it. -/
theorem Inv.dead_iff {h : Ended} (hi : h.Inv) (e : LifeEvent) : h.Dead e ↔ h.ignored e := by
  unfold Dead ignored
  split
  next th data psh =>
    cases hf : h.finished with
    | false => exact ⟨fun _ => rfl, fun _ => nofun⟩
    | true =>
      have hover := hi.ended hf
      cases hft : h.conn.sk.fault with
      | true =>
        rw [Conn.step_of_fault hft]
        exact ⟨fun _ => rfl, fun _ _ => .refl _⟩
      | false =>
        have hstep : (h.conn.step (.segment th data psh)).sk = segmentArrives h.conn.sk th (tcpInitSegment th data psh) := by
          simp [Conn.step, hft]
        have hr : ∀ k ∈ h.conn.sk.writeQueue, k.rst = false := fun k hk => hi.rst k.plain (List.mem_map_of_mem hk)
        rw [hstep, segmentArrives_inert_iff hover rfl hr]
        simp
  next => simp

end Ended

/-- **A finished connection is dead to what it ignores.** In a run of any
socket, from its allocation or its fork, every segment that comes after
`tcp_done` finds the socket dead if and only if every such segment is one that
the socket ignores. -/
theorem finished_dead_iff {s : TcpSock} (hb : Born s) (es : List LifeEvent) :
    Machine.Meets Ended.step Ended.Dead { conn := { sk := s } } es ↔
    Machine.Meets Ended.step (fun h e => h.ignored e) { conn := { sk := s } } es :=
  Machine.Meets.iff_of_invariant (fun _ e hi => hi.step e) (fun _ e hi => hi.dead_iff e) (Ended.Inv.born hb) es

/-- A client that connects, is accepted and aborts. -/
def abortedRun : List LifeEvent := [.connect {} 100, .conn synAckEvent, .conn .abort]

/-- After it a SYN and an RST outside the window find the socket dead. -/
theorem finished_dead_iff_aborted :
    (Machine.run Ended.step { conn := { sk := freshSock {} } } abortedRun).finished = true ∧
    Machine.Meets Ended.step Ended.Dead { conn := { sk := freshSock {} } } (abortedRun ++
      [.conn (.segment { seq := 501, ackSeq := 0, syn := true, win := 0 } .nil false),
       .conn (.segment { seq := 7, ackSeq := 0, rst := true, win := 0 } .nil false)]) :=
  ⟨by decide +kernel, (finished_dead_iff (.fresh {}) _).mpr (by decide +kernel)⟩

/-- After it a plain ACK of the peer takes the socket to TIME_WAIT. -/
theorem finished_socket_moves :
    let h := Machine.run Ended.step { conn := { sk := freshSock {} } } abortedRun
    h.finished = true ∧ (h.step (.conn (ackEvent 101))).conn.sk.state = .timeWait ∧ ¬h.Dead (.conn (ackEvent 101)) :=
  ⟨by decide +kernel, by decide +kernel, fun hd => absurd (hd (by decide +kernel)).state (by decide +kernel)⟩

end LevelIp
