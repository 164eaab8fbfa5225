/-
Whether the peer's FIN is consumed once. Nothing in `tcp_input_state` remembers
that a FIN has been taken: what tells it apart from the next one is its number,
and that the code compares with `rcv_nxt` again.
-/
import LevelIp.EndOfStream
import LevelIp.PushMark

namespace LevelIp

variable {s t u : TcpSock} {th : Tcphdr} {skb : Skb}

/-! ## A segment with a FIN that counts -/

/-- The ACK field lets it through to its text. -/
theorem hearsAck_next (h : s.hearsAck th skb) : ∃ t u, ackField s th skb = .next t ∧ finAcked t th = .next u ∧ u.rcv = s.rcv ∧
    u.state.late ∧ u.state.takesText = (s.state.takesText || s.state = .synReceived) := by
  have hnext : ∃ t, ackField s th skb = .next t ∧ ¬(t.writeQueue.isEmpty ∧ t.state = .lastAck) := by
    have sync (hs : s.state.takesAck) (hp : s.ackPasses th skb) : ∃ t, ackField s th skb = .next t ∧ t.state = s.state ∧
        t.writeQueue.isEmpty = s.acksAll th := by
      rw [ackField_synchronized hs]
      rcases ackSynchronized_cases s th skb with ⟨-, t, ht, hst, hq, -⟩ | ⟨hno, -⟩
      · exact ⟨t, ht, hst, hq⟩
      · rw [hp] at hno
        cases hno
    unfold TcpSock.hearsAck at h
    cases hs : s.state <;> simp only [hs, Bool.and_eq_true, Bool.not_eq_true'] at h
    case synReceived =>
      have hopen : s.ackOpens th skb := by simp [TcpSock.ackOpens, hs, h]
      obtain ⟨t, ht, htext, -⟩ := ackField_opens hopen
      refine ⟨t, ht, fun hl => ?_⟩
      rw [hl.2] at htext
      cases htext
    case lastAck =>
      obtain ⟨t, ht, -, hq⟩ := sync (by rw [hs]; rfl) h.1
      refine ⟨t, ht, fun hl => ?_⟩
      rw [hq, h.2] at hl
      cases hl.1
    case timeWait =>
      refine ⟨s, by rw [ackField, hs], fun hl => ?_⟩
      rw [hs] at hl
      cases hl.2
    case listen | synSent | close => cases h
    all_goals
      obtain ⟨t, ht, hst, -⟩ := sync (by rw [hs]; rfl) h
      refine ⟨t, ht, fun hl => ?_⟩
      rw [hst, hs] at hl
      cases hl.2
  obtain ⟨t, ht, hnl⟩ := hnext
  have hr := ackField_rcv s th skb
  have hst := ackField_state s th skb
  rw [ht] at hr hst
  have hlate : t.state.late := by
    rw [show t.state = _ from hst]
    split
    · exact ⟨by simp, by simp, by simp⟩
    · unfold TcpSock.hearsAck at h
      cases hs : s.state <;> simp [hs, TcpState.late] at h ⊢
  cases hu : finAcked t th with
  | next u =>
    refine ⟨t, u, ht, hu, (finAcked_rcv hu).trans hr, finAcked_late hu hlate, ?_⟩
    rw [finAcked_takesText hu, show t.state = _ from hst]
    split
    next hsr => rw [hsr.1]; rfl
    next hsr =>
      cases hs : s.state <;> try rfl
      unfold TcpSock.hearsAck at h
      simp [hs] at h
      exact absurd ⟨hs, h.1⟩ hsr
  | ret u =>
    unfold finAcked at hu
    split at hu
    next hq =>
      split at hu
      case h_3 hl => exact absurd ⟨hq, hl⟩ hnl
      all_goals cases hu
    next => cases hu

/-- The receive side once text and FIN are processed, and the mark of the FIN. -/
theorem afterFin_rcv (hl : s.state.late) (th : Tcphdr) (skb : Skb) :
    ((afterFin s th skb).sock.rcv =
      let r := if s.state.takesText && (th.psh || skb.dlen > 0) then s.rcv.take skb else s.rcv
      if th.fin && skb.seq = s.tcb.rcvNxt then { r with nxt := r.nxt + 1 } else r) ∧
    (th.fin && skb.seq = s.tcb.rcvNxt → .peerFin ∈ (afterFin s th skb).sock.fx) := by
  have htext : (segmentText s th skb).rcv = if s.state.takesText && (th.psh || skb.dlen > 0) then s.rcv.take skb else s.rcv := by
    cases hs : s.state.takesText with
    | false => rw [segmentText_other hs]; rfl
    | true =>
      rw [segmentText_takes hs, Bool.true_and, apply_ite TcpSock.rcv]
      exact if_congr Iff.rfl (congrArg Core.rcv (tcpDataQueue_core s skb)) rfl
  have hfin : ∃ v, finBit (segmentText s th skb) th (skb.seq = s.tcb.rcvNxt) = .next v ∧
      (v.rcv = if th.fin && skb.seq = s.tcb.rcvNxt then
        { (segmentText s th skb).rcv with nxt := (segmentText s th skb).rcv.nxt + 1 } else (segmentText s th skb).rcv) ∧
      (th.fin && skb.seq = s.tcb.rcvNxt → .peerFin ∈ v.fx) := by
    have hlx : (segmentText s th skb).state.late := by rwa [segmentText_state]
    generalize segmentText s th skb = x at hlx
    unfold finBit
    split
    next =>
      let x₁ : TcpSock := { x with
        tcb.rcvNxt := x.tcb.rcvNxt + 1, flagFin := true, pollEvents := x.pollEvents ||| pollInMask }
      have hq := (quiet_tcpSendAck (x₁.emit .peerFin)).trans (quiet_wakeup _ .recvWait)
      split
      case h_1 hx => exact absurd hx hlx.1
      case h_2 hx => exact absurd hx hlx.2.1
      case h_3 hx => exact absurd hx hlx.2.2
      case h_4 =>
        refine ⟨_, rfl, (congrArg Core.rcv (finState_core _)).trans (congrArg Core.rcv hq.core), fun _ => ?_⟩
        rw [finState_fx]
        exact hq.logs.keeps (List.mem_append_right _ (List.mem_singleton.mpr rfl))
    next hno => exact ⟨x, rfl, rfl, fun h => absurd h hno⟩
  obtain ⟨v, hv, hrv, hmark⟩ := hfin
  obtain ⟨d, hd, -⟩ := ackData_core v th skb (skb.seq = s.tcb.rcvNxt)
  have hkeep : (ackData v th skb (skb.seq = s.tcb.rcvNxt)).rcv = v.rcv := congrArg Core.rcv hd
  rw [afterFin, hv]
  refine ⟨?_, fun h => (ackData_logs v th skb _).keeps (hmark h)⟩
  show (ackData v th skb (skb.seq = s.tcb.rcvNxt)).rcv = _
  rw [hkeep, hrv, htext]

theorem hearsFin_late (h : s.hearsFin th skb) : s.state.late := by
  simp only [TcpSock.hearsFin, Bool.and_eq_true] at h
  have ha := h.1.1.2
  unfold TcpSock.hearsAck at ha
  cases hs : s.state <;> simp [hs, TcpState.late] at ha ⊢

/-- A FIN that is consumed moves `rcv_nxt` past its text, past what that text
joins to, and by one. -/
theorem segmentArrives_fin (h : s.hearsFin th skb) : (segmentArrives s th skb).tcb.rcvNxt =
    (if s.hearsText th skb then (ofoDrain (skb.seq + skb.dlen) s.ofoQueue).1 else skb.seq) + 1 ∧
    .peerFin ∈ (segmentArrives s th skb).fx := by
  have hl := hearsFin_late h
  simp only [TcpSock.hearsFin, Bool.and_eq_true, decide_eq_true_eq] at h
  obtain ⟨⟨⟨hh, ha⟩, hf⟩, hseq⟩ := h
  obtain ⟨t, u, ht, hu, hr, hlu, htext⟩ := hearsAck_next ha
  have hnu : u.tcb.rcvNxt = s.tcb.rcvNxt := congrArg RcvSide.nxt hr
  have hfu : (th.fin && skb.seq = u.tcb.rcvNxt) = true := by
    rw [hnu, hf, hseq]
    simp
  obtain ⟨hrcv, hmark⟩ := afterFin_rcv hlu th skb
  have hrun : segmentArrives s th skb = (afterFin u th skb).sock := by
    rw [segmentArrives_late hl, tcpInputOtherwise_heard hh, ht, Ctl.andThen, afterAck_eq, hu]
    rfl
  rw [hrun]
  refine ⟨?_, hmark hfu⟩
  show (afterFin u th skb).sock.rcv.nxt = _
  rw [hrcv, if_pos hfu, htext, hr]
  show (if _ then s.rcv.take skb else s.rcv).nxt + 1 = _
  rw [TcpSock.hearsText]
  by_cases hx : ((s.state.takesText || s.state = .synReceived) && (th.psh || skb.dlen > 0)) = true
  · rw [if_pos hx, hx, Bool.true_and]
    unfold RcvSide.take
    by_cases hw : s.tcb.rcvWnd = 0
    · rw [if_pos (show s.rcv.wnd = 0 from hw), if_neg (by simpa using hw), hseq]
      rfl
    · rw [if_neg (show ¬ s.rcv.wnd = 0 from hw), if_pos (show skb.seq = s.rcv.nxt from hseq), if_pos (by simpa using hw), hseq]
      rfl
  · rw [if_neg hx, if_neg fun h => hx (Bool.and_eq_true_iff.mp h).1, hseq]
    rfl

/-- After the end of the stream any other segment leaves `rcv_nxt` alone, and
every segment the bytes to be read. -/
theorem segmentArrives_eos (hs : s.state.eos) : (segmentArrives s th skb).receiveQueue = s.receiveQueue ∧
    (s.hearsFin th skb = false → (segmentArrives s th skb).tcb.rcvNxt = s.tcb.rcvNxt) := by
  have hl : s.state.late := by cases hst : s.state <;> simp [hst, TcpState.eos, TcpState.late] at hs ⊢
  rw [segmentArrives_late hl]
  have same {t : TcpSock} (h : t.rcv = s.rcv) : t.receiveQueue = s.receiveQueue ∧
      (s.hearsFin th skb = false → t.tcb.rcvNxt = s.tcb.rcvNxt) :=
    ⟨congrArg RcvSide.queue h, fun _ => congrArg RcvSide.nxt h⟩
  rcases tcpInputOtherwise_cases s th skb with ⟨hh, hrun⟩ | ⟨-, -, hrun⟩ | ⟨-, hrun | hrun⟩
  · rw [hrun]
    have hr := ackField_rcv s th skb
    have hst := ackField_state s th skb
    cases ht : ackField s th skb with
    | ret t =>
      rw [ht] at hr
      exact same hr
    | next t =>
      rw [ht] at hr hst
      have hst : t.state = s.state := (show t.state = _ from hst).trans (if_neg fun h => by rw [h.1] at hs; cases hs)
      rw [Ctl.andThen, afterAck_eq]
      cases hu : finAcked t th with
      | ret u =>
        have hud : u = tcpDone t := by
          unfold finAcked at hu
          split at hu
          · split at hu <;> cases hu
            rfl
          · cases hu
        have hrd := congrArg Core.rcv (tcpDone_core t)
        rw [hud]
        refine ⟨?_, fun _ => ?_⟩
        · exact (congrArg RcvSide.queue hrd).trans (congrArg RcvSide.queue hr :)
        · exact (congrArg RcvSide.nxt hrd).trans (congrArg RcvSide.nxt hr :)
      | next u =>
        have hru := (finAcked_rcv hu).trans hr
        have hnu : u.tcb.rcvNxt = s.tcb.rcvNxt := congrArg RcvSide.nxt hru
        have hlu := finAcked_late hu (hst ▸ hl)
        have hxu : u.state.takesText = false := by
          rw [finAcked_takesText hu, hst]
          cases h : s.state <;> simp [h, TcpState.eos, TcpState.takesText] at hs ⊢
        obtain ⟨hrcv, -⟩ := afterFin_rcv hlu th skb
        rw [hxu] at hrcv
        have hrcv : (afterFin u th skb).sock.rcv = if th.fin && skb.seq = u.tcb.rcvNxt then { u.rcv with nxt := u.rcv.nxt + 1 } else u.rcv :=
          hrcv
        show (afterFin u th skb).sock.rcv.queue = s.rcv.queue ∧ (_ → (afterFin u th skb).sock.rcv.nxt = s.rcv.nxt)
        rw [hrcv, ← hru]
        constructor
        · split <;> rfl
        · intro hno
          have hack := ackField_hearsAck hl ht (finAcked_state hu).2.1
          rw [if_neg fun hf => ?_]
          rw [hnu] at hf
          rw [TcpSock.hearsFin, hh, hack, Bool.true_and, Bool.true_and, hf] at hno
          cases hno
  · rw [hrun]
    exact same (congrArg Core.rcv (tcpEnterTimeWait_core s))
  · rw [hrun]
    exact same rfl
  · rw [hrun]
    exact same (congrArg Core.rcv (quiet_tcpSendAck s).core)

/-- No other event moves `rcv_nxt` then. -/
theorem Move.rcvNxt_eos {a : Act} {c c' : Core} {es : List Effect} (hm : Move a c es c') (ha : ∀ c₀ th skb, a ≠ .arrive c₀ th skb) :
    c'.rcv.nxt = c.rcv.nxt := by
  cases hm <;> first | rfl | exact absurd rfl (ha _ _ _)

/-- Nor does a call that opens a socket. -/
theorem opens_rcvNxt {c c' : Core} (ho : c.Opens c') (h : c.state.eos) : c'.rcv.nxt = c.rcv.nxt := by
  cases ho with
  | fails => rfl
  | listen hs => rfl
  | connect _ hs _ =>
    rw [hs] at h
    cases h

/-! ## The run -/

/-- The number of the FIN of a segment. -/
def LifeEvent.finNumber : LifeEvent → Option U32
  | .conn (.segment th data psh) =>
    let skb := tcpInitSegment th data psh
    some (skb.seq + skb.dlen)
  | _ => none

/-- A socket, and the number of the FIN it has consumed first. -/
structure FinRun where
  conn : Conn
  fin : Option U32 := none

namespace FinRun

def step (h : FinRun) (e : LifeEvent) : FinRun :=
  { conn := h.conn.live e
    fin := if h.fin.isSome then h.fin else if .peerFin ∈ (h.conn.live e).sk.fx then e.finNumber else none }

/-- The acknowledgement number is the FIN's plus one. -/
def Acknowledged (h : FinRun) : Prop := ∀ n, h.fin = some n → h.conn.sk.tcb.rcvNxt = n + 1

/-- After the FIN a segment adds nothing to `receive_queue`. -/
def AddsNothing (h : FinRun) (e : LifeEvent) : Prop :=
  h.fin.isSome → ∀ th data psh, e = .conn (.segment th data psh) → (h.conn.live e).sk.receiveQueue = h.conn.sk.receiveQueue

/-- A segment whose FIN is consumed is the first, and `rcv_nxt` has come to its
FIN: its text is queued and joins to no segment that was early, or it has none. -/
def finishes (h : FinRun) : LifeEvent → Bool
  | .conn (.segment th data psh) =>
    let skb := tcpInitSegment th data psh
    if h.conn.sk.fault || !h.conn.sk.hearsFin th skb then true
    else h.fin.isNone && if h.conn.sk.hearsText th skb then
        (ofoDrain (skb.seq + skb.dlen) h.conn.sk.ofoQueue).1 = skb.seq + skb.dlen
      else skb.dlen = 0
  | _ => true

structure Inv (h : FinRun) : Prop where
  readers : h.conn.OnlyReaders
  eos : h.fin.isSome → h.conn.sk.state.eos
  marked : h.fin.isSome ↔ .peerFin ∈ h.conn.sk.fx

theorem Inv.step {h : FinRun} (hi : h.Inv) (e : LifeEvent) : (h.step e).Inv := by
  have hkeep : .peerFin ∈ h.conn.sk.fx → .peerFin ∈ (h.conn.live e).sk.fx := fun hm =>
    Conn.live_keeps (I := fun _ log => .peerFin ∈ log) (fun _ hm => List.mem_append_left _ hm)
      (fun _ _ hm => List.mem_append_left _ hm) hi.readers hm e
  have hmarked : (h.step e).fin.isSome ↔ .peerFin ∈ (h.conn.live e).sk.fx := by
    unfold FinRun.step
    dsimp only
    split
    next hs => exact iff_of_true hs (hkeep (hi.marked.mp hs))
    next hs =>
      split
      next hm =>
        obtain ⟨-, th, data, psh, rfl⟩ := Conn.live_peerFin hi.readers (fun h => hs (hi.marked.mpr h)) hm
        exact iff_of_true rfl hm
      next hm => exact iff_of_false (fun h => nomatch h) hm
  refine ⟨Conn.live_onlyReaders hi.readers e, fun hs => ?_, hmarked⟩
  exact Conn.live_keeps (I := fun k log => .peerFin ∈ log → k.state.eos)
    (fun hmv hk hm => (List.mem_append.mp hm).elim (fun h => hmv.eos (hk h)) fun h => (hmv.peerFin h).1)
    (fun ho hs hk hm => (List.mem_append.mp hm).elim (fun h => opens_eos ho (hk h)) fun h => absurd (hs _ h) nofun)
    hi.readers (fun hm => hi.eos (hi.marked.mpr hm)) e (hmarked.mp hs)

theorem Inv.born {s : TcpSock} (hb : Born s) : Inv { conn := { sk := s } } := by
  refine ⟨fun _ => by simp, nofun, iff_of_false nofun fun hm => ?_⟩
  cases hb with
  | fresh o => cases hm
  | forked _ hl =>
    obtain ⟨-, cwnd, e, hf, he⟩ := tcpListen_core hl
    rw [hf] at hm
    simp only [List.mem_cons, reduceCtorEq, List.not_mem_nil, or_false, false_or] at hm
    exact absurd hm.symm (sends_ne_peerFin he)

/-- What is no segment, or comes to a socket that is gone, changes neither. -/
theorem step_other {h : FinRun} (hi : h.Inv) (ha : h.Acknowledged) {e : LifeEvent}
    (he : ∀ th data psh, e = .conn (.segment th data psh) → h.conn.sk.fault) : h.AddsNothing e ∧ (h.step e).Acknowledged := by
  have hsame (hs : h.fin.isSome) : (h.conn.live e).sk.tcb.rcvNxt = h.conn.sk.tcb.rcvNxt := by
    cases e with
    | conn e =>
      show (h.conn.step e).sk.tcb.rcvNxt = _
      by_cases hf : h.conn.sk.fault
      · rw [Conn.step_of_fault hf]
      · obtain ⟨es, -, hm⟩ := Conn.step_moves hi.readers.ready e
        have hact := Conn.not_arrive (c := h.conn) (e := e) fun th data psh heq => hf (he th data psh (by rw [heq]))
        exact hm.keeps_core (I := fun k => k.rcv.nxt = h.conn.sk.tcb.rcvNxt) (fun hmv hk => (hmv.rcvNxt_eos hact).trans hk) rfl
    | listen =>
      simp only [Conn.live]
      split
      · rfl
      · exact opens_rcvNxt (tcpV4Listen_opens h.conn.sk).1 (hi.eos hs)
    | connect d iss =>
      simp only [Conn.live]
      split
      · rfl
      · exact opens_rcvNxt (inetStreamConnect_opens h.conn.sk d iss).1 (hi.eos hs)
  refine ⟨?_, fun n hn => ?_⟩
  · rintro - th data psh rfl
    exact congrArg (·.sk.receiveQueue) (Conn.step_of_fault (he _ _ _ rfl) (.segment th data psh))
  · cases hs : h.fin with
    | some m =>
      have hsome : h.fin.isSome := by rw [hs]; rfl
      rw [FinRun.step, if_pos hsome] at hn
      exact (hsame hsome).trans (ha n hn)
    | none =>
      -- no FIN comes with such an event
      have hm : .peerFin ∉ h.conn.sk.fx := fun hm => by
        have := hi.marked.mpr hm
        rw [hs] at this
        cases this
      rw [FinRun.step, hs, if_neg (by simp), if_neg fun hm' => ?_] at hn
      · cases hn
      · obtain ⟨hf, th, data, psh, rfl⟩ := Conn.live_peerFin hi.readers hm hm'
        rw [he _ _ _ rfl] at hf
        cases hf

/-- **One step.** After a step that is one `finishes` allows, and after no other,
the acknowledgement number is right. -/
theorem step_iff {h : FinRun} (hi : h.Inv) (ha : h.Acknowledged) (e : LifeEvent) :
    h.finishes e ↔ h.AddsNothing e ∧ (h.step e).Acknowledged := by
  by_cases he : ∀ th data psh, e = .conn (.segment th data psh) → h.conn.sk.fault
  · refine iff_of_true ?_ (step_other hi ha he)
    unfold finishes
    split
    · rw [if_pos (by rw [he _ _ _ rfl]; rfl)]
    · rfl
  push Not at he
  obtain ⟨th, data, psh, rfl, hf⟩ := he
  have hf : h.conn.sk.fault = false := by simpa using hf
  have hlive : (h.conn.live (.conn (.segment th data psh))).sk = segmentArrives h.conn.sk th (tcpInitSegment th data psh) := by
    simp [Conn.live, Conn.step, hf]
  have hadds : h.AddsNothing (.conn (.segment th data psh)) := by
    rintro hs - - - -
    rw [hlive]
    exact (segmentArrives_eos (hi.eos hs)).1
  rw [and_iff_right hadds]
  simp only [finishes, hf, Bool.false_or]
  unfold FinRun.step Acknowledged
  dsimp only
  rw [hlive]
  generalize hk : tcpInitSegment th data psh = skb
  cases hfin : h.conn.sk.hearsFin th skb with
  | true =>
    obtain ⟨hnxt, hmark⟩ := segmentArrives_fin hfin
    rw [if_pos hmark]
    cases hs : h.fin with
    | some m =>
      -- the second FIN has the number `rcv_nxt`
      refine iff_of_false (by simp) fun h' => ?_
      have htext : h.conn.sk.hearsText th skb = false := by
        have heos := hi.eos (by rw [hs]; rfl)
        unfold TcpSock.hearsText
        cases hst : h.conn.sk.state <;> simp [hst, TcpState.eos, TcpState.takesText] at heos ⊢
      have hseq : skb.seq = m + 1 := by
        simp only [TcpSock.hearsFin, Bool.and_eq_true, decide_eq_true_eq] at hfin
        exact hfin.2.trans (ha m hs)
      have hm : m + 1 = skb.seq + 1 := by
        have := (h' m rfl).symm.trans hnxt
        rwa [htext] at this
      rw [hseq] at hm
      bv_omega
    | none =>
      have hiff : (∀ n, some (skb.seq + skb.dlen) = some n → (segmentArrives h.conn.sk th skb).tcb.rcvNxt = n + 1) ↔
          (segmentArrives h.conn.sk th skb).tcb.rcvNxt = skb.seq + skb.dlen + 1 :=
        ⟨fun h' => h' _ rfl, fun h' n hn => by rw [← Option.some.inj hn]; exact h'⟩
      simp only [LifeEvent.finNumber, hk]
      refine Iff.trans ?_ hiff.symm
      rw [hnxt]
      cases htext : h.conn.sk.hearsText th skb with
      | true =>
        simp
      | false =>
        simp
  | false =>
    refine iff_of_true rfl fun n hn => ?_
    cases hs : h.fin with
    | some m =>
      rw [hs] at hn
      exact ((segmentArrives_eos (hi.eos (by rw [hs]; rfl))).2 hfin).trans (ha n (by rw [hs]; exact hn))
    | none =>
      have hm : .peerFin ∉ h.conn.sk.fx := fun hm => by
        have := hi.marked.mpr hm
        rw [hs] at this
        cases this
      rw [hs, if_neg (by simp), if_neg fun hm' => ?_] at hn
      · cases hn
      · rw [(segmentArrives_signals hm hm').1] at hfin
        cases hfin

end FinRun

/-- **The peer's FIN is consumed once.** In every run of a socket, from its
allocation or its fork: each segment whose FIN is consumed is the first such one
and brings `rcv_nxt` to its FIN exactly if after the FIN no segment adds to
`receive_queue` and in every state `rcv_nxt` is the FIN's number plus one. -/
theorem fin_once_iff {s : TcpSock} (hb : Born s) (es : List LifeEvent) :
    Machine.Meets FinRun.step (fun h e => h.finishes e) { conn := { sk := s } } es ↔
      Machine.Meets FinRun.step FinRun.AddsNothing { conn := { sk := s } } es ∧
      ∀ n, (Machine.run FinRun.step { conn := { sk := s } } (es.take n)).Acknowledged :=
  Machine.Meets.exact (I := FinRun.Inv) (fun _ e hi => hi.step e) (fun _ e hi ha => FinRun.step_iff hi ha e)
    (FinRun.Inv.born hb) nofun es

/-- A client is sent three bytes and the FIN, which come again. -/
def finAgain : List LifeEvent :=
  let fin : LifeEvent := .conn (.segment { seq := 501, ackSeq := 101, fin := true, ack := true, win := 10000 } (.ofTake 3 [1, 2, 3]) false)
  [.connect {} 100, .conn synAckEvent, fin, fin]

theorem fin_once_again :
    let c : FinRun := { conn := { sk := freshSock {} } }
    Machine.Meets FinRun.step FinRun.AddsNothing c finAgain ∧ ∀ n, (Machine.run FinRun.step c (finAgain.take n)).Acknowledged :=
  (fin_once_iff (.fresh {}) finAgain).mp (by decide +kernel)

/-- The client is sent a FIN and then another one, right behind it. -/
def finTwice : List LifeEvent :=
  let fin (seq : U32) : LifeEvent := .conn (.segment { seq := seq, ackSeq := 101, fin := true, ack := true, win := 10000 } Payload.nil false)
  [.connect {} 100, .conn synAckEvent, fin 501, fin 502]

/-- The second is consumed too: the socket is in CLOSE_WAIT and `rcv_nxt` moves on. -/
theorem fin_consumed_twice :
    let c : FinRun := { conn := { sk := freshSock {} } }
    (Machine.run FinRun.step c (finTwice.take 3)).conn.sk.tcb.rcvNxt = 502 ∧
      (Machine.run FinRun.step c finTwice).conn.sk.state = .closeWait ∧ (Machine.run FinRun.step c finTwice).conn.sk.tcb.rcvNxt = 503 ∧
      ¬ (Machine.run FinRun.step c finTwice).Acknowledged := by
  refine ⟨by decide +kernel, by decide +kernel, by decide +kernel, fun h => ?_⟩
  exact absurd (h 501 (by decide +kernel)) (by decide +kernel)

end LevelIp
