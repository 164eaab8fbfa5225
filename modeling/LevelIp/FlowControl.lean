/-
The peer's window. `update_snd_win` stands behind a test for a new ACK that
comes after `snd_una` has already moved to that ACK, so the test fails and
`snd_wnd` stays what the handshake left: the window of the SYN for a forked
child, the window of the SYN-ACK, shifted, for an active opener.
-/
import LevelIp.StepMoves
import LevelIp.Opening

namespace LevelIp

/-- A SYN-ACK that opens the connection in SYN_SENT. -/
def Core.opens (c : Core) (th : Tcphdr) : Bool :=
  th.syn && !th.rst && th.ack && c.snd.iss < th.ackSeq && c.snd.una ≤ th.ackSeq && th.ackSeq ≤ c.snd.nxt

/-- A segment at `rcv_nxt` with an acceptable ACK. -/
def Core.takes (c : Core) (th : Tcphdr) (skb : Skb) : Bool :=
  c.Heard th skb && c.snd.una ≤ th.ackSeq && th.ackSeq ≤ c.snd.nxt && th.seq = c.rcv.nxt

namespace Conn

/-- The window a processed segment advertises: scaled, unless it is a SYN. -/
def advertised (c : Conn) : Event → Option U32
  | .segment th data psh =>
    if c.sk.fault then none
    else
      match c.sk.state with
      | .close | .listen => none
      | .synSent => if c.sk.core.opens th then some (U16.wide th.win) else none
      | _ => if c.sk.core.takes th (tcpInitSegment th data psh) then some (U16.wide th.win <<< c.sk.sndScale.toNat)
        else none
  | .write _ | .read _ | .close | .abort | .resume _ | .dispatch _ | .handler _ | .tick _ | .fcntl _
  | .adjustPmtu6 _ => none

/-- The window last advertised over a run, from `w` on. -/
def lastWindow (w : U32) (c : Conn) : List Event → U32
  | [] => w
  | e :: es => lastWindow ((c.advertised e).getD w) (c.step e) es

end Conn

/-- What is advertised is the window the socket already has; for a SYN-ACK, what
its own shift makes of it. -/
def Conn.Repeats (c : Conn) (th : Tcphdr) : Option U32 → Prop
  | none => True
  | some w => if c.sk.state = .synSent then w <<< (synScale c.sk.sndScale th).toNat = w else w = c.sk.tcb.sndWnd

instance (c : Conn) (th : Tcphdr) : (o : Option U32) → Decidable (c.Repeats th o)
  | none => .isTrue trivial
  | some w => inferInstanceAs (Decidable (if c.sk.state = .synSent then w <<< (synScale c.sk.sndScale th).toNat = w
      else w = c.sk.tcb.sndWnd))

/-- The condition on a step: the window a segment advertises is no new one. -/
def FlowOk (c : Conn) : Event → Prop
  | .segment th data psh => c.Repeats th (c.advertised (.segment th data psh))
  | .write _ | .read _ | .close | .abort | .resume _ | .dispatch _ | .handler _ | .tick _ | .fcntl _
  | .adjustPmtu6 _ => True

instance (c : Conn) (e : Event) : Decidable (FlowOk c e) :=
  match e with
  | .segment .. | .write _ | .read _ | .close | .abort | .resume _ | .dispatch _ | .handler _ | .tick _ | .fcntl _
  | .adjustPmtu6 _ => by unfold FlowOk; infer_instance

/-! ## What moves the window -/

/-- Nothing is acknowledged in SYN_SENT. -/
def Core.Opening (c : Core) : Prop := c.state = .synSent → c.snd.una = c.snd.iss

theorem Core.Opening.move {a : Act} {c c' : Core} {es : List Effect} (h : c.Opening) (hm : Move a c es c') :
    c'.Opening := by
  intro hs
  have h := h (hm.synSent hs)
  cases hm with
  | reset hc => rw [show c.reset.state = c.state from rfl, hc] at hs; cases hs
  | ack _ ht => rw [show c.state = .synSent from hs] at ht; cases ht
  | sendNext _ hn => rw [hn.una, hn.iss]; exact h
  | connect | simultaneous | userTimeout | abort => cases hs
  | _ => exact h

/-- Outside SYN_SENT no move touches the window. -/
theorem Move.wnd {a : Act} {c c' : Core} {es : List Effect} (hm : Move a c es c') (h : c.state ≠ .synSent) :
    c'.snd.wnd = c.snd.wnd := by
  cases hm with
  | sendNext _ hn => exact hn.wnd
  | connect hs | simultaneous hs => exact absurd hs h
  | _ => rfl

theorem Move.wnd_send {c c' : Core} {es : List Effect} (hm : Move .send c es c') : c'.snd.wnd = c.snd.wnd := by
  cases hm with
  | _ => rfl

/-- Data is queued within the window. -/
theorem Move.queued {a : Act} {c c' : Core} {es : List Effect} (hm : Move a c es c') {k : Skb} {fl cwnd : U32}
    (he : .queued k fl cwnd ∈ es) : k.payload.bytes = [] ∨ a = .send ∧ fl ≤ umin cwnd c.snd.wnd := by
  have sends : ∀ {r : RcvSide} {k' : Skb} {n : U32}, r.Sends k' n (.queued k fl cwnd) → False := fun h => h
  cases hm with
  | quiet h | reset _ h | ack _ _ _ _ h | userTimeout h | abort h => exact (h _ he).elim
  | resend h =>
    obtain ⟨k', -, hk⟩ := h _ he
    exact hk.elim
  | sendNext _ h =>
    obtain ⟨k', -, -, n, hk⟩ := h.emits _ he
    exact hk.elim
  | fin _ _ _ _ _ _ _ h =>
    rcases List.mem_cons.mp he with h0 | he
    · cases h0
    · exact (h _ he).elim
  | connect _ _ _ _ h => exact (h _ he).elim
  | resendHead _ _ h => rw [← List.mem_singleton.mp he] at h; exact h.elim
  | simultaneous _ _ _ _ h | queueFin _ _ _ _ h =>
    simp only [List.mem_cons, List.not_mem_nil, or_false] at he
    rcases he with he | rfl
    · cases he
      exact .inl rfl
    · exact (sends h).elim
  | data _ hw h =>
    simp only [List.mem_cons, List.not_mem_nil, or_false] at he
    rcases he with he | rfl
    · cases he
      exact .inr ⟨rfl, hw⟩
    · exact (sends h).elim
  | rst | establish | fault | finWait2 | timeWait | lastAck | finAgain | inOrder | outOfOrder | refused | giveUp
  | finSent | finResent | linger | spin | closeRefused | closeDone | closeStart | dequeue | eof => simp at he

/-- What `tcp_synsent` makes of the window. -/
theorem tcpSynsent_wnd {s : TcpSock} (hs : s.state = .synSent) (hu : s.tcb.sndUna = s.tcb.iss) (th : Tcphdr) :
    (tcpSynsent s th).tcb.sndWnd =
      if s.core.opens th then U16.wide th.win <<< (synScale s.sndScale th).toNat else s.tcb.sndWnd := by
  have closed : s.core.opens th = false → (if s.core.opens th then U16.wide th.win <<< (synScale s.sndScale th).toNat
      else s.tcb.sndWnd) = s.tcb.sndWnd := fun h => by simp [h]
  rw [tcpSynsent_eq]
  split
  next h =>
    refine (closed ?_).symm
    obtain ⟨-, h | h⟩ := h
    · simp [Core.opens, TcpSock.core, TcpSock.snd, BitVec.not_lt.mpr h]
    · simp [Core.opens, TcpSock.core, TcpSock.snd, BitVec.not_le.mpr h]
  next h1 =>
  split
  next h =>
    refine (closed ?_).symm
    obtain ⟨-, h | h⟩ := h
    · simp [Core.opens, TcpSock.core, TcpSock.snd, BitVec.not_le.mpr h]
    · simp [Core.opens, TcpSock.core, TcpSock.snd, BitVec.not_le.mpr h]
  next h2 =>
  split
  next hr =>
    rw [closed (by simp [Core.opens, hr])]
    simp only [tcpReset, hs]
    exact congrArg (·.snd.wnd) (tcpDone_core _)
  next hr =>
  split
  next hsyn => exact (closed (by simpa [Core.opens] using fun h => absurd h (by simpa using hsyn))).symm
  next hsyn =>
  have hsyn : th.syn = true := by simpa using hsyn
  have hr : th.rst = false := by simpa using hr
  have hc := synAckedSock_core s th
  have hiss : (synAckedSock s th).tcb.iss = s.tcb.iss :=
    (congrArg (·.snd.iss) hc).trans (synAcked_iss _ _)
  by_cases ha : th.ack = true
  · -- a SYN-ACK: its number is acceptable, so the connection opens
    have g1 : ¬(th.ackSeq ≤ s.tcb.iss ∨ th.ackSeq > s.tcb.sndNxt) := fun h => h1 ⟨ha, h⟩
    have g2 : ¬(th.ackSeq < s.tcb.sndUna ∨ th.ackSeq > s.tcb.sndNxt) := fun h => h2 ⟨ha, h⟩
    simp only [not_or, BitVec.not_le, BitVec.not_lt, gt_iff_lt] at g1 g2
    have hopen : s.core.opens th = true := by
      simp [Core.opens, TcpSock.core, TcpSock.snd, hsyn, hr, ha, g1.1, g2.1, g2.2]
    have huna : (synAckedSock s th).tcb.sndUna = th.ackSeq := by
      have h := congrArg (·.snd.una) hc
      simp only [SndSide.synAcked, ha, if_true] at h
      exact h
    have hscale : (synAckedSock s th).core.snd.scale = s.sndScale := by
      have h := congrArg (·.snd.scale) hc
      simp only [SndSide.synAcked, ha, if_true] at h
      exact h
    have hgoal : (synsentEstablish (synAckedSock s th) th).tcb.sndWnd =
        U16.wide th.win <<< (synScale s.sndScale th).toNat := by
      have h := congrArg (·.snd.wnd) (synsentEstablish_core (synAckedSock s th) th)
      simp only [SndSide.opened, hscale] at h
      exact h
    have hgt : (synAckedSock s th).tcb.sndUna > (synAckedSock s th).tcb.iss := by
      rw [huna, hiss]
      exact g1.1
    rw [hopen, if_pos rfl, synTaken, if_pos hgt]
    exact hgoal
  · -- a bare SYN: the SYN-ACK goes out with the window as it was
    have ha : th.ack = false := by simpa using ha
    rw [closed (by simp [Core.opens, ha])]
    have hsock : synAckedSock s th = syncedSock s th := by simp [synAckedSock, ha]
    have hle : ¬(synAckedSock s th).tcb.sndUna > (synAckedSock s th).tcb.iss := by
      rw [hsock]
      simp only [syncedSock, hu]
      exact BitVec.lt_irrefl _
    have hcore := tcpSendSynack_core
      (s := { (synAckedSock s th).setState .synReceived with tcb.sndUna := (synAckedSock s th).tcb.iss }) rfl
    rw [synTaken, if_neg hle]
    refine (congrArg (·.snd.wnd) hcore).trans ?_
    rw [hsock]
    rfl

/-! ## Steps -/

/-- Outside SYN_SENT an event leaves the window alone. -/
theorem step_wnd {c : Conn} (hr : c.Ready) (hs : c.sk.state ≠ .synSent) (e : Event) :
    (c.step e).sk.tcb.sndWnd = c.sk.tcb.sndWnd := by
  obtain ⟨es, -, hm⟩ := Conn.step_moves hr e
  exact (hm.keeps_core (I := fun k => k.state ≠ .synSent ∧ k.snd.wnd = c.sk.tcb.sndWnd)
    (fun hm ⟨hk, hw⟩ => ⟨fun h => hk (hm.synSent h), (hm.wnd hk).trans hw⟩) ⟨hs, rfl⟩).2

/-- Only a segment moves the window. -/
theorem step_wnd_other {c : Conn} (hr : c.Ready) {e : Event} (he : ∀ th data psh, e ≠ .segment th data psh) :
    (c.step e).sk.tcb.sndWnd = c.sk.tcb.sndWnd := by
  obtain ⟨es, -, hm⟩ := Conn.step_moves hr e
  have ha := Conn.not_arrive (c := c) he
  generalize c.act e = a at ha hm
  refine hm.keeps_core (I := fun k => k.snd.wnd = c.sk.tcb.sndWnd) (fun hm hw => Eq.trans ?_ hw) rfl
  cases hm with
  | sendNext | connect | simultaneous => exact absurd rfl (ha _ _ _)
  | _ => rfl

theorem step_wnd_synSent {c : Conn} (ho : c.sk.core.Opening) (hf : c.sk.fault = false) (hs : c.sk.state = .synSent)
    (th : Tcphdr) (data : Payload) (psh : Bool) : (c.step (.segment th data psh)).sk.tcb.sndWnd =
      if c.sk.core.opens th then U16.wide th.win <<< (synScale c.sk.sndScale th).toNat else c.sk.tcb.sndWnd := by
  have hstep : (c.step (.segment th data psh)).sk = tcpSynsent c.sk th := by
    simp only [Conn.step, hf, segmentArrives, hs]
    rfl
  rw [hstep]
  exact tcpSynsent_wnd hs (ho hs) th

/-- **When a segment's window is taken over**: exactly when it is the window
already there, or comes through its own shift unchanged. -/
theorem advertised_exact {c : Conn} (hr : c.Ready) (ho : c.sk.core.Opening) {e : Event} {w : U32}
    (ha : c.advertised e = some w) : (c.step e).sk.tcb.sndWnd = w ↔ FlowOk c e := by
  cases e with
  | segment th data psh =>
    have hf : c.sk.fault = false := by
      by_contra hf
      simp [Conn.advertised, hf] at ha
    have hok : FlowOk c (.segment th data psh) ↔
        if c.sk.state = .synSent then w <<< (synScale c.sk.sndScale th).toNat = w else w = c.sk.tcb.sndWnd := by
      rw [FlowOk, ha]
      rfl
    rw [hok]
    by_cases hs : c.sk.state = .synSent
    · have hopen : c.sk.core.opens th = true ∧ U16.wide th.win = w := by
        simpa [Conn.advertised, hf, hs] using ha
      rw [step_wnd_synSent ho hf hs, if_pos hs, ← hopen.2, if_pos hopen.1]
    · rw [step_wnd hr hs, if_neg hs]
      exact eq_comm
  | _ => cases ha

/-- Without a window advertised it stays. -/
theorem step_wnd_of_none {c : Conn} (hr : c.Ready) (ho : c.sk.core.Opening) {e : Event} (ha : c.advertised e = none) :
    (c.step e).sk.tcb.sndWnd = c.sk.tcb.sndWnd := by
  by_cases hf : c.sk.fault
  · rw [Conn.step_of_fault hf]
  have hf : c.sk.fault = false := by simpa using hf
  by_cases he : ∃ th data psh, e = .segment th data psh
  · obtain ⟨th, data, psh, rfl⟩ := he
    by_cases hs : c.sk.state = .synSent
    · have hopen : c.sk.core.opens th = false := by simpa [Conn.advertised, hf, hs] using ha
      rw [step_wnd_synSent ho hf hs, hopen]
      rfl
    · exact step_wnd hr hs _
  · exact step_wnd_other hr fun th data psh h => he ⟨th, data, psh, h⟩

/-! ## Runs -/

/-- The window follows what was advertised. -/
theorem run_window {c : Conn} {es : List Event} (hm : Conn.Meets FlowOk c es) (hr : c.Ready) (ho : c.sk.core.Opening) :
    (c.run es).sk.tcb.sndWnd = c.lastWindow c.sk.tcb.sndWnd es := by
  induction es generalizing c with
  | nil => rfl
  | cons e es ih =>
    obtain ⟨mvs, -, hmv⟩ := Conn.step_moves hr e
    have ho' : (c.step e).sk.core.Opening := hmv.keeps_core (fun hm h => h.move hm) ho
    have hw : (c.advertised e).getD c.sk.tcb.sndWnd = (c.step e).sk.tcb.sndWnd := by
      cases ha : c.advertised e with
      | none => exact (step_wnd_of_none hr ho ha).symm
      | some w => exact ((advertised_exact hr ho ha).mpr hm.1).symm
    rw [Conn.lastWindow, hw]
    exact ih hm.2 (Conn.step_ready hr e) ho'

/-- Data is queued within the window of the state before the event. -/
theorem step_queued {c : Conn} (hr : c.Ready) (e : Event) {k : Skb} {fl cwnd : U32}
    (hk : .queued k fl cwnd ∈ (c.step e).sk.fx.drop c.sk.fx.length) (hd : k.payload.bytes ≠ []) :
    fl ≤ umin cwnd c.sk.tcb.sndWnd := by
  obtain ⟨es, hf, hm⟩ := Conn.step_moves hr e
  rw [hf, List.drop_left] at hk
  have h := hm.keeps (I := fun k' log => (c.act e = .send → k'.snd.wnd = c.sk.tcb.sndWnd) ∧
      ∀ skb fl cwnd, .queued skb fl cwnd ∈ log → skb.payload.bytes = [] ∨ fl ≤ umin cwnd c.sk.tcb.sndWnd)
    (fun {k' log es k''} hm ⟨hw, hl⟩ => ⟨fun ha => ?_, ?_⟩) [] ⟨fun _ => rfl, by simp⟩
  · exact (h.2 k fl cwnd hk).resolve_left hd
  · rw [ha] at hm
    exact hm.wnd_send.trans (hw ha)
  · intro skb fl cwnd hin
    rcases List.mem_append.mp hin with hin | hin
    · exact hl skb fl cwnd hin
    · rcases hm.queued hin with h0 | ⟨ha, hle⟩
      · exact .inl h0
      · rw [hw ha] at hle
        exact .inr hle

theorem Opened.opening {iss : U32} {s : TcpSock} (ho : Opened iss s) : s.core.Opening := by
  intro _
  obtain ⟨k, nxt, wnd, scale, cwnd, e, -, hsnd, -⟩ := ho.syn
  rw [hsnd]
  rfl

/-- A forked child starts with the window of the SYN, unscaled. -/
theorem tcpListen_wnd {l s : TcpSock} {th : Tcphdr} {env : SynEnv} (h : tcpListen l th env = some s) :
    s.tcb.sndWnd = U16.wide th.win := congrArg (·.snd.wnd) (tcpListen_core h).1

/-- **Flow control follows the peer** in every run whose steps are `FlowOk`:
a processed segment leaves `snd_wnd` at the window it advertises, so `snd_wnd`
is the window last advertised, and data is queued within it. -/
theorem flow_control {iss : U32} {s : TcpSock} (ho : Opened iss s) {es : List Event} {e : Event}
    (hm : Conn.Meets FlowOk { sk := s } (es ++ [e])) :
    let c := Conn.run { sk := s } es
    (∀ l th env, tcpListen l th env = some s → s.tcb.sndWnd = U16.wide th.win) ∧
    (∀ w, c.advertised e = some w → (c.step e).sk.tcb.sndWnd = w) ∧
    c.sk.tcb.sndWnd = Conn.lastWindow s.tcb.sndWnd { sk := s } es ∧
    ∀ k fl cwnd, .queued k fl cwnd ∈ (c.step e).sk.fx.drop c.sk.fx.length → k.payload.bytes ≠ [] →
      fl ≤ umin cwnd (Conn.lastWindow s.tcb.sndWnd { sk := s } es) := by
  intro c
  obtain ⟨hm, ok, -⟩ := Machine.Meets.append.mp hm
  have hr0 := Conn.ready_of_no_calls s
  have hr : c.Ready := Conn.run_ready hr0 es
  have hopen : c.sk.core.Opening :=
    Conn.run_keeps_all (I := fun k _ => k.Opening) (fun hm h => h.move hm) es hr0 ho.opening
  have hw : c.sk.tcb.sndWnd = Conn.lastWindow s.tcb.sndWnd { sk := s } es := run_window hm hr0 ho.opening
  refine ⟨fun l th env h => tcpListen_wnd h, fun w ha => (advertised_exact hr hopen ha).mpr ok, hw, ?_⟩
  intro k fl cwnd hk hd
  rw [← hw]
  exact step_queued hr e hk hd

/-- A write to a peer that keeps its window. -/
def steadyRun : List Event := [synAckEvent, .write [1, 2, 3]]

theorem flow_control_steady : (clientConn.run steadyRun).advertised (ackEvent 104) = some 10000 ∧
    ((clientConn.run steadyRun).step (ackEvent 104)).sk.tcb.sndWnd = 10000 := by
  have ha : (clientConn.run steadyRun).advertised (ackEvent 104) = some 10000 := by decide +kernel
  have hm : Conn.Meets FlowOk clientConn (steadyRun ++ [ackEvent 104]) := by decide +kernel
  exact ⟨ha, (flow_control (.active {} 100) hm).2.1 10000 ha⟩

/-- The peer closes its window with an ACK at `rcv_nxt`. -/
def shutEvent : Event := .segment { seq := 501, ackSeq := 101, ack := true, win := 0 } Payload.nil false

/-- The window the ACK advertises is 0; `snd_wnd` stays 10000, and the next write goes out. -/
theorem flow_control_frozen :
    (clientConn.run [synAckEvent]).advertised shutEvent = some 0 ∧
    (clientConn.run [synAckEvent, shutEvent]).sk.tcb.sndWnd = 10000 ∧
    (clientConn.run [synAckEvent, shutEvent, .write [1]]).sk.inflight = 1 := by
  decide +kernel

end LevelIp
