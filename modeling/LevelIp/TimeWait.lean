/-
TIME_WAIT ends: a socket in it has the 2MSL timer in `linger`, and neither an
RTO timer of the current epoch nor a delayed-ACK timer.

`tcp_enter_time_wait` sees to that. Two things get past it: CLOSING goes to
TIME_WAIT by `tcp_set_state` alone, and a writer or closer that was asleep when
an RST or a FIN came arms the RTO timer again as it queues its segment.
-/
import LevelIp.RtoCoverage
import LevelIp.PureAcks

namespace LevelIp

/-- The 2MSL timer is going to end the socket: `linger` is a timer of
`tcp_linger`, on the list or dispatched, and no other is armed. -/
structure Timing.Ending (g : Timing) : Prop where
  linger : ∃ t, g.linger = some t ∧ t.handler = .linger ∧ (t ∈ g.timers ∨ .linger ∈ g.spawned)
  rto : ¬g.Live
  delack : g.delack = none

namespace Timing

variable {g g' : Timing}

theorem Ok.timeWait_ending (h : g.Ok) : g.timeWait.Ending where
  linger := ⟨_, rfl, rfl, .inl (List.mem_append_right _ (List.mem_singleton_self _))⟩
  rto := h.timeWait_not_live
  delack := by
    show (g.stopRto.stopDelack.cancel _).delack = none
    rw [cancel_delack]
    rfl

/-- Handing a timer over ends nothing. -/
theorem Ending.dispatch (h : g.Ending) {i : Nat} {t : Timer} (hi : g.timers[i]? = some t) :
    Ending { g with timers := g.timers.eraseIdx i, spawned := g.spawned ++ [t.handler] } where
  linger := by
    obtain ⟨u, hu, hh, hm⟩ := h.linger
    refine ⟨u, hu, hh, ?_⟩
    rcases hm with hm | hm
    · obtain ⟨j, hj⟩ := List.mem_iff_getElem?.mp hm
      by_cases hji : j = i
      · subst hji
        rw [hi] at hj
        rw [Option.some.inj hj]
        exact .inr (List.mem_append_right _ (by simp [hh]))
      · exact .inl (List.mem_eraseIdx_iff_getElem?.mpr ⟨j, hji, hj⟩)
    · exact .inr (List.mem_append_left _ hm)
  rto := by
    rintro ⟨x, hx, hxe⟩
    exact h.rto ⟨x, (mem_pending_dispatch hi x).mp hx, hxe⟩
  delack := h.delack

/-- Another handler than the 2MSL timer's gets the lock. -/
theorem Ending.run (h : g.Ending) {i : Nat} {x : Handler} (hi : g.spawned[i]? = some x) (hx : x ≠ .linger) :
    Ending { g with spawned := g.spawned.eraseIdx i } where
  linger := by
    obtain ⟨u, hu, hh, hm⟩ := h.linger
    refine ⟨u, hu, hh, hm.imp_right fun hm => ?_⟩
    obtain ⟨j, hj⟩ := List.mem_iff_getElem?.mp hm
    refine List.mem_eraseIdx_iff_getElem?.mpr ⟨j, ?_, hj⟩
    rintro rfl
    exact hx (Option.some.inj (hi.symm.trans hj))
  rto := by
    rintro ⟨y, hy, hye⟩
    exact h.rto ⟨y, mem_pending_run hy, hye⟩
  delack := h.delack

end Timing

/-- The timers are told apart, and in TIME_WAIT they end the socket. -/
structure TcpSock.Waits (s : TcpSock) : Prop where
  ok : s.timing.Ok
  ending : s.state = .timeWait → s.timing.Ending

namespace TcpSock.Waits

variable {s t : TcpSock}

theorem of_eq (h : s.Waits) (hst : t.state = s.state) (ht : t.timing = s.timing) : t.Waits := by
  refine ⟨?_, fun hw => ?_⟩
  · rw [ht]
    exact h.ok
  · rw [ht]
    exact h.ending (hst ▸ hw)

theorem elsewhere (ho : s.timing.Ok) (hs : s.state ≠ .timeWait) : s.Waits := ⟨ho, fun hw => absurd hw hs⟩

theorem enter (ho : s.timing.Ok) : (tcpEnterTimeWait s).Waits := by
  refine ⟨?_, fun _ => ?_⟩
  · rw [tcpEnterTimeWait_timing]
    exact ho.timeWait
  · rw [tcpEnterTimeWait_timing]
    exact ho.timeWait_ending

theorem wakeup (h : s.Waits) (w : Wait) : (s.wakeup w).Waits := h.of_eq rfl rfl

end TcpSock.Waits

/-! ## A segment -/

variable {s t : TcpSock} {th : Tcphdr} {skb : Skb}

theorem ackField_timing_ok (h : s.timing.Ok) (th : Tcphdr) (skb : Skb) : (ackField s th skb).sock.timing.Ok := by
  have hsync : ∀ u : TcpSock, u.timing = s.timing → (ackSynchronized u th skb).sock.timing.Ok := fun u hu =>
    Timing.Ok.ops (hu ▸ h) (ackSynchronized_timerOps (W := fun _ => True) fun _ _ => trivial)
  unfold ackField
  split
  case h_1 =>
    split
    · dsimp only
      split
      · exact h
      · exact hsync _ rfl
    · exact h
  case h_8 | h_9 | h_10 | h_11 => exact h
  all_goals exact hsync s rfl

theorem ackField_waits (h : s.Waits) (th : Tcphdr) (skb : Skb) : (ackField s th skb).sock.Waits := by
  by_cases hs : s.state = .timeWait
  · have hnext : ackField s th skb = .next s := by
      unfold ackField
      rw [hs]
    rw [hnext]
    exact h
  · refine .elsewhere (ackField_timing_ok h.ok th skb) ?_
    rw [ackField_state]
    split
    · nofun
    · exact hs

/-- "Our FIN was acked", but not in CLOSING. -/
theorem finAcked_waits (h : s.Waits) (hc : ¬(s.state = .closing ∧ s.writeQueue.isEmpty)) (th : Tcphdr) :
    (finAcked s th).sock.Waits := by
  unfold finAcked
  split
  next hq =>
    split
    case h_1 => exact .elsewhere h.ok (by rintro ⟨⟩)
    case h_2 hs => exact absurd ⟨hs, hq⟩ hc
    case h_3 =>
      refine .elsewhere ?_ ?_
      · rw [Ctl.sock, tcpDone_timing]
        exact h.ok.clear
      · rw [Ctl.sock, tcpDone_state]
        simp
    case h_4 =>
      dsimp only [Ctl.sock]
      split
      · exact h.of_eq (quiet_tcpSendAck _).state (tcpSendAck_timing _)
      · exact h
    all_goals exact h
  next => exact h

theorem finState_waits (h : s.Waits) : (finState s).Waits := by
  unfold finState
  split
  case h_1 | h_2 => exact .elsewhere h.ok nofun
  case h_3 =>
    split
    · exact .enter h.ok
    · exact .elsewhere h.ok nofun
  case h_4 => exact .enter h.ok
  case h_5 => exact h

theorem finBit_waits (h : s.Waits) (th : Tcphdr) (expected : Bool) : (finBit s th expected).sock.Waits := by
  unfold finBit
  split
  · split
    case h_4 =>
      refine finState_waits (h.of_eq ?_ ?_)
      · exact (quiet_tcpSendAck _).state
      · exact tcpSendAck_timing _
    all_goals exact h
  · exact h

theorem ackData_waits (h : s.Waits) (th : Tcphdr) (skb : Skb) (expected : Bool) : (ackData s th skb expected).Waits := by
  by_cases hs : s.state = .timeWait
  · have hsame : ackData s th skb expected = s := by
      unfold ackData
      rw [hs]
    rw [hsame]
    exact h
  · refine .elsewhere (h.ok.ops (ackData_timerOps (W := fun _ => True) (fun _ _ => trivial) th skb expected)) ?_
    rw [ackData_state]
    exact hs

theorem Ctl.andThen_waits {k : Ctl} {f : TcpSock → Ctl} (hk : k.sock.Waits) (hf : ∀ t, k = .next t → t.Waits → (f t).sock.Waits) :
    (k.andThen f).sock.Waits := by
  cases k with
  | ret t => exact hk
  | next t => exact hf t rfl hk

theorem afterAck_waits (h : s.Waits) (hc : ¬(s.state = .closing ∧ s.writeQueue.isEmpty)) (th : Tcphdr) (skb : Skb) :
    (afterAck s th skb).sock.Waits := by
  rw [afterAck_eq]
  refine Ctl.andThen_waits (finAcked_waits h hc th) fun t _ ht => ?_
  have hx : (segmentText t th skb).Waits := ht.of_eq (segmentText_state t th skb) (segmentText_timing t th skb)
  exact Ctl.andThen_waits (finBit_waits hx th _) fun u _ hu => ackData_waits hu th skb _

/-- The ACK of everything in CLOSING: the socket goes to TIME_WAIT without its
timer. -/
def TcpSock.driftsToTimeWait (s : TcpSock) (th : Tcphdr) (skb : Skb) : Bool :=
  s.state = .closing && s.core.Heard th skb && s.ackPasses th skb && s.acksAll th

theorem heard_waits (h : s.Waits) (hh : s.core.Heard th skb) (hd : s.driftsToTimeWait th skb = false) :
    ((ackField s th skb).andThen fun s => afterAck s th skb).sock.Waits := by
  refine Ctl.andThen_waits (ackField_waits h th skb) fun t ht hw => afterAck_waits hw (fun ⟨hs, hq⟩ => ?_) th skb
  have hst := ackField_state s th skb
  rw [ht, Ctl.sock, hs] at hst
  split at hst
  · cases hst
  · have hcl : s.state = .closing := hst.symm
    rw [ackField_synchronized (by rw [hcl]; rfl)] at ht
    rcases ackSynchronized_cases s th skb with ⟨hp, u, hu, -, hall, -⟩ | ⟨-, u, hu, -⟩
    · rw [hu] at ht
      rw [Ctl.next.inj ht] at hall
      rw [hall] at hq
      simp [TcpSock.driftsToTimeWait, hcl, hh, hp, hq] at hd
    · rw [hu] at ht
      cases ht

theorem tcpInputOtherwise_waits (h : s.Waits) (hd : s.driftsToTimeWait th skb = false) : (tcpInputOtherwise s th skb).Waits := by
  rcases tcpInputOtherwise_cases s th skb with ⟨hh, he⟩ | ⟨-, -, he⟩ | ⟨-, he | he⟩
  · rw [he]
    exact heard_waits h hh hd
  · rw [he]
    exact (TcpSock.Waits.enter h.ok).wakeup _
  · rw [he]
    exact h
  · rw [he]
    exact h.of_eq (quiet_tcpSendAck s).state (tcpSendAck_timing s)

/-- Only a segment takes the socket to TIME_WAIT. -/
theorem Move.enters {a : Act} {c c' : Core} {es : List Effect} (hm : Move a c es c') (ha : ∀ c₀ th skb, a ≠ .arrive c₀ th skb)
    (h : c.state ≠ .timeWait) : c'.state ≠ .timeWait := by
  cases hm with
  | rst | timeWait | fin | finAgain => exact absurd rfl (ha _ _ _)
  | queueFin lastAck =>
    cases lastAck
    · exact h
    · nofun
  | _ => first | exact h | nofun

theorem segmentArrives_waits (h : s.Waits) (hd : s.driftsToTimeWait th skb = false) : (segmentArrives s th skb).Waits := by
  by_cases hl : s.state.late
  · rw [segmentArrives_late hl]
    exact tcpInputOtherwise_waits h hd
  · have hok := h.ok.ops (segmentArrives_timerOps (W := fun _ => True)
      (show s.SegmentArms _ th skb from ⟨fun _ _ => trivial, fun _ => trivial, fun _ _ => trivial⟩))
    refine .elsewhere hok ?_
    unfold segmentArrives
    split
    next hs =>
      rw [tcpClosed_state, hs]
      nofun
    next hs =>
      rw [hs]
      nofun
    next hs =>
      have hst := tcpSynsent_state hs th
      split at hst
      · rw [hst]
        nofun
      · rcases hst with hst | hst | hst <;> rw [hst] <;> nofun
    next h1 h2 h3 => exact absurd ⟨h1, h2, h3⟩ hl

/-! ## The other events -/

/-- In TIME_WAIT the user timeout is not armed. -/
theorem tcpRearmUserTimeout_timeWait (h : s.state = .timeWait) : tcpRearmUserTimeout s = s := if_pos h

theorem tcpReceiveTurn_timeWait (h : s.state = .timeWait) (len : Nat) (got : List U8) :
    (tcpReceiveTurn s len got).1.timing = s.timing := by
  have hd := tcpDataDequeue_timing s (len - got.length)
  have hs : (tcpDataDequeue s (len - got.length)).1.state = .timeWait := by
    simp only [tcpDataDequeue]
    split <;> exact h
  unfold tcpReceiveTurn
  generalize tcpDataDequeue s (len - got.length) = r at hd hs
  obtain ⟨t, copied⟩ := r
  dsimp only at hd hs ⊢
  split
  · rw [tcpRearmUserTimeout_timeWait (s := { t with flagPsh := false }) hs]
    exact hd
  · rw [tcpRearmUserTimeout_timeWait hs]
    split
    · exact hd
    · split
      · split <;> exact hd
      · exact hd

/-- With something queued a writer arms nothing. -/
theorem tcpSendLoop_timeWait (mss : U16) (len fuel : Nat) {s : TcpSock} (h : s.state = .timeWait)
    (hq : s.writeQueue.isEmpty = false) (buf : List U8) : (tcpSendLoop mss len fuel s buf).1.timing = s.timing := by
  induction fuel generalizing s buf with
  | zero =>
    cases buf with
    | nil => rw [tcpSendLoop, tcpRearmUserTimeout_timeWait h]
    | cons b buf => rfl
  | succ fuel ih =>
    cases buf with
    | nil => rw [tcpSendLoop, tcpRearmUserTimeout_timeWait h]
    | cons b buf =>
      rw [tcpSendLoop]
      split
      · have hne : ∀ k, (tcpQueueTransmitSkb s k).writeQueue.isEmpty = false := fun k => by
          rw [← queue_isEmpty, tcpQueueTransmitSkb_core]
          simp [SndSide.enqueue]
        rw [ih ((tcpQueueTransmitSkb_state _ _).trans h) (hne _), tcpQueueTransmitSkb_timing, hq]
        rfl
      · rfl

namespace Conn

/-- A writer, or a closer that does not go on to LAST_ACK, finds the window open
and the queue empty in TIME_WAIT: it arms the RTO timer. -/
def armsInTimeWait (c : Conn) (i : Nat) : Bool :=
  c.sk.state = .timeWait && c.sk.writeQueue.isEmpty && match c.calls[i]? with
    | some (.send _ chunk _ _) => sndWndOpen c.sk chunk.len
    | some (.fin lastAck) => !lastAck && sndWndOpen c.sk 0
    | some (.recv _ _) | none => false

/-- The event leaves the socket in TIME_WAIT with the wrong timers. -/
def upsetsTimeWait (c : Conn) : Event → Bool
  | .segment th data psh => c.sk.driftsToTimeWait th (tcpInitSegment th data psh)
  | .resume i => c.armsInTimeWait i
  | .write _ | .read _ | .close | .abort | .dispatch _ | .handler _ | .tick _ | .fcntl _ | .adjustPmtu6 _ => false

theorem resume_waits {c : Conn} (hw : c.sk.Waits) (hs : c.sk.state = .timeWait) {i : Nat} (ha : c.armsInTimeWait i = false)
    (hok : (c.resume i).sk.timing.Ok) : (c.resume i).sk.Waits := by
  unfold Conn.resume at hok ⊢
  unfold armsInTimeWait at ha
  cases hi : c.calls[i]? with
  | none => exact hw
  | some call =>
    rw [hi] at hok ha
    cases call with
    | recv len got =>
      dsimp only
      rw [settleRead_sk]
      exact hw.of_eq (tcpReceiveTurn_state _ _ _) (tcpReceiveTurn_timeWait hs _ _)
    | send mss chunk rest len =>
      have ht : (resumeSend c.sk (.send mss chunk rest len)).1.timing = c.sk.timing := by
        simp only [resumeSend]
        split
        next ho =>
          have hq : c.sk.writeQueue.isEmpty = false := by simpa [hs, ho] using ha
          have hne : ∀ k, (tcpQueueTransmitSkb c.sk k).writeQueue.isEmpty = false := fun k => by
            rw [← queue_isEmpty, tcpQueueTransmitSkb_core]
            simp [SndSide.enqueue]
          rw [tcpSendLoop_timeWait _ _ _ ((tcpQueueTransmitSkb_state _ _).trans hs) (hne _), tcpQueueTransmitSkb_timing, hq]
          rfl
        next => rfl
      have hst : (resumeSend c.sk (.send mss chunk rest len)).1.state = c.sk.state := by
        simp only [resumeSend]
        split
        · exact (tcpSendLoop_state _ _ _ _ _).trans (tcpQueueTransmitSkb_state _ _)
        · rfl
      exact hw.of_eq ((settle_state _ _).trans hst) ((settle_timing _ _).trans ht)
    | fin lastAck =>
      dsimp only at hok ⊢
      cases lastAck with
      | true =>
        by_cases ho : sndWndOpen c.sk 0
        · refine .elsewhere hok ?_
          rw [settle_state]
          simp only [resumeSend, tcpQueueFin, ho, if_true]
          rintro ⟨⟩
        · have hsame : resumeSend c.sk (.fin true) = (c.sk, .sleep (.fin true)) := by
            simp only [resumeSend, tcpQueueFin, ho]
            rfl
          exact hw.of_eq ((settle_state _ _).trans (by rw [hsame])) ((settle_timing _ _).trans (by rw [hsame]))
      | false =>
        have ht : (resumeSend c.sk (.fin false)).1.timing = c.sk.timing ∧ (resumeSend c.sk (.fin false)).1.state = c.sk.state := by
          simp only [resumeSend, tcpQueueFin]
          split
          next ho =>
            have hq : c.sk.writeQueue.isEmpty = false := by
              rw [hs, ho] at ha
              simpa using ha
            refine ⟨?_, tcpQueueTransmitSkb_state _ _⟩
            refine (tcpQueueTransmitSkb_timing _ _).trans ?_
            rw [hq]
            rfl
          next => exact ⟨rfl, rfl⟩
        exact hw.of_eq ((settle_state _ _).trans ht.2) ((settle_timing _ _).trans ht.1)

end Conn

/-- A handler that gets the lock in TIME_WAIT and does not end the connection:
the RTO handlers are stale. -/
theorem handle_waits (h : s.Waits) (hs : s.state = .timeWait) {i : Nat}
    (hf : (s.spawned[i]?).any (handlerFinishes s) = false) : (Conn.handle s i).Waits := by
  have he := h.ending hs
  unfold Conn.handle
  cases hi : s.spawned[i]? with
  | none => exact h
  | some x =>
    rw [hi] at hf
    let u : TcpSock := { s with spawned := s.spawned.eraseIdx i }
    have stale : ∀ n, x.epoch? = some n → n ≠ s.rtoEpoch := by
      rintro n hx rfl
      exact he.rto ⟨x, Timing.mem_pending.mpr (.inr (List.mem_of_getElem? hi)), hx⟩
    have hu : x ≠ .linger → u.Waits := fun hx =>
      ⟨h.ok.op (W := fun _ => True) (.run s.timing i), fun _ => he.run hi hx⟩
    cases x with
    | connectRto n =>
      show (tcpConnectRto u n).Waits
      rw [show tcpConnectRto u n = u from if_pos (stale n rfl)]
      exact hu nofun
    | retransmissionTimeout n =>
      show (tcpRetransmissionTimeout u n).Waits
      rw [show tcpRetransmissionTimeout u n = u from if_pos (stale n rfl)]
      exact hu nofun
    | sendDelack =>
      have hw := hu nofun
      refine ⟨?_, fun _ => ?_⟩
      · show (tcpSendDelack u).timing.Ok
        rw [tcpSendDelack_timing]
        exact hw.ok.op (W := fun _ => True) (.releaseDelack _)
      · show (tcpSendDelack u).timing.Ending
        rw [tcpSendDelack_timing]
        have hue := hw.ending hs
        exact ⟨hue.linger, hue.rto, rfl⟩
    | linger => cases hf
    | userTimeout => cases hf

theorem dispatch_waits (h : s.Waits) (i : Nat) : (Conn.dispatch s i).Waits := by
  unfold Conn.dispatch
  cases hi : s.timers[i]? with
  | none => exact h
  | some t => exact ⟨h.ok.op (W := fun _ => True) (.dispatch s.timing i t hi), fun hs => (h.ending hs).dispatch hi⟩

namespace Conn

theorem step_waits {c : Conn} (hw : c.sk.Waits) (hr : c.Ready) {e : Event} (hu : c.upsetsTimeWait e = false)
    (hf : c.finishes e = false) : (c.step e).sk.Waits := by
  have hok := step_timing_ok hw.ok e
  by_cases hfault : c.sk.fault
  · rw [step_of_fault hfault]
    exact hw
  · have hfault : c.sk.fault = false := by simpa using hfault
    by_cases hseg : ∃ th data psh, e = .segment th data psh
    · obtain ⟨th, data, psh, rfl⟩ := hseg
      simp only [step, hfault, Bool.false_eq_true, if_false]
      exact segmentArrives_waits hw hu
    · by_cases hs : c.sk.state = .timeWait
      · simp only [step, hfault, Bool.false_eq_true, if_false] at hok ⊢
        cases e with
        | segment th data psh => exact absurd ⟨th, data, psh, rfl⟩ hseg
        | write buf =>
          have hna : tcpWriteAccepts c.sk = false := by simp [tcpWriteAccepts, hs]
          refine hw.of_eq ((settle_state _ _).trans (tcpWrite_state c.sk buf)) ((settle_timing _ _).trans ?_)
          simp only [tcpWrite, hna]
          rfl
        | read len =>
          dsimp only
          rw [settleRead_sk]
          refine hw.of_eq (tcpRead_state c.sk len) ?_
          simp only [tcpRead, hs]
        | close =>
          refine hw.of_eq ((settle_state _ _).trans ?_) ((settle_timing _ _).trans ?_)
          · simp only [tcpClose, hs]
          · simp only [tcpClose, hs]
            rfl
        | abort => simp [finishes, hfault] at hf
        | resume i => exact resume_waits hw hs hu hok
        | dispatch i => exact dispatch_waits hw i
        | handler i => exact handle_waits hw hs (by simpa [finishes, hfault] using hf)
        | tick ms => exact ⟨hok, fun _ => ⟨(hw.ending hs).linger, (hw.ending hs).rto, (hw.ending hs).delack⟩⟩
        | fcntl nonblock => exact hw.of_eq rfl rfl
        | adjustPmtu6 mss => exact hw.of_eq (quiet_adjustPmtu6 _ _).state (adjustPmtu6_timing _ _)
      · refine .elsewhere hok ?_
        obtain ⟨es, -, hm⟩ := step_moves hr e
        have ha : ∀ c₀ th skb, c.act e ≠ .arrive c₀ th skb := by
          intro c₀ th skb
          cases e with
          | segment th data psh => exact absurd ⟨th, data, psh, rfl⟩ hseg
          | resume i =>
            simp only [act]
            split <;> simp
          | handler i =>
            simp only [act]
            split <;> simp
          | _ => rintro ⟨⟩
        exact hm.keeps_core (I := fun k => k.state ≠ .timeWait) (fun hmv hk => hmv.enters ha hk) hs

end Conn

namespace Ended

/-- Before `tcp_done` the event leaves TIME_WAIT its timers. -/
def sparesTimeWait (h : Ended) (e : LifeEvent) : Bool := h.finished || (e.event?.map fun e => !h.conn.upsetsTimeWait e).getD true

/-- Before `tcp_done` the timers of TIME_WAIT are as they should be. -/
def Waits (h : Ended) : Prop := h.finished = false → h.conn.sk.Waits

theorem Waits.step {h : Ended} (hw : h.Waits) (hi : h.Inv) {e : LifeEvent} (hk : h.sparesTimeWait e) : (h.step e).Waits := by
  intro hfin
  simp only [Ended.step, Bool.or_eq_false_iff] at hfin
  obtain ⟨hold, hnow⟩ := hfin
  simp only [sparesTimeWait, hold, Bool.false_or] at hk
  have hw := hw hold
  cases e with
  | conn e => exact Conn.step_waits hw hi.readers.ready (by simpa [LifeEvent.event?] using hk) hnow
  | listen =>
    cases hft : h.conn.sk.fault with
    | true =>
      simp only [Ended.step, Conn.live, hft, if_true]
      exact hw
    | false =>
      simp only [Ended.step, Conn.live, hft, Bool.false_eq_true, if_false]
      obtain ⟨-, hl⟩ | hl := tcpV4Listen_cases h.conn.sk
      · rw [hl]
        exact .elsewhere hw.ok (by rintro ⟨⟩)
      · rw [hl]
        exact hw
  | connect d iss =>
    have hok : (h.conn.live (.connect d iss)).sk.timing.Ok := Conn.live_timing_ok hw.ok _
    cases hft : h.conn.sk.fault with
    | true =>
      simp only [Ended.step, Conn.live, hft, if_true]
      exact hw
    | false =>
      simp only [Ended.step, Conn.live, hft, Bool.false_eq_true, if_false] at hok ⊢
      obtain ⟨hs, hc⟩ | ⟨err, hc⟩ := inetStreamConnect_cases h.conn.sk d iss
      · refine .elsewhere hok ?_
        have hst : (inetStreamConnect h.conn.sk d iss).state = .synSent := by
          rw [hc]
          exact tcpConnect_state (s := h.conn.sk.addressed d) hs iss
        rw [hst]
        simp
      · rw [hc]
        exact hw.of_eq rfl rfl

end Ended

/-- A socket is not born in TIME_WAIT. -/
theorem Born.waits (hb : Born s) : s.Waits := by
  refine .elsewhere hb.timing_ok ?_
  cases hb with
  | fresh o => nofun
  | forked _ hl =>
    have hst : s.state = .synReceived := congrArg (·.state) (tcpListen_core hl).1
    rw [hst]
    nofun

/-- **TIME_WAIT ends.** In a life in which no acknowledgement of the FIN comes
in CLOSING and no writer or closer wakes up in TIME_WAIT to an open window and
an empty queue, every TIME_WAIT socket that is reached before `tcp_done` has
its 2MSL timer, and no RTO or delayed-ACK timer. -/
theorem time_wait_ends {s : TcpSock} (hb : Born s) {es : List LifeEvent}
    (hk : Machine.Meets Ended.step (fun h e => h.sparesTimeWait e) { conn := { sk := s } } es) :
    let h := Machine.run Ended.step { conn := { sk := s } } es
    h.finished = false → h.conn.sk.state = .timeWait → h.conn.sk.timing.Ending := by
  intro h hfin hst
  have hi := hk.invariant (I := fun h => h.Inv ∧ h.Waits) (fun h e hk hi => ⟨hi.1.step e, hi.2.step hi.1 hk⟩)
    ⟨Ended.Inv.born hb, fun _ => hb.waits⟩
  exact (hi.2 hfin).ending hst

/-- The client of `timeWaitRun` has the 2MSL timer. -/
theorem time_wait_ends_client :
    (Machine.run Ended.step { conn := { sk := freshSock {} } } (timeWaitRun 100 500)).conn.sk.state = .timeWait ∧
    (Machine.run Ended.step { conn := { sk := freshSock {} } } (timeWaitRun 100 500)).conn.sk.timing.Ending :=
  ⟨by decide +kernel, time_wait_ends (.fresh {}) (by decide +kernel) (by decide +kernel) (by decide +kernel)⟩

/-- Both ends close at once: the peer's FIN comes before the ACK of ours. -/
def simultaneousCloseRun : List LifeEvent :=
  [.connect {} 100, .conn synAckEvent, .conn .close,
   .conn (.segment { seq := 501, ackSeq := 101, ack := true, fin := true, win := 10000 } .nil false),
   .conn (.segment { seq := 502, ackSeq := 102, ack := true, win := 10000 } .nil false)]

/-- It is in TIME_WAIT, and `linger` is still the user timeout. -/
theorem simultaneous_close_lingers :
    let h := Machine.run Ended.step { conn := { sk := freshSock {} } } simultaneousCloseRun
    h.finished = false ∧ h.conn.sk.fault = false ∧ h.conn.sk.state = .timeWait ∧ ¬h.conn.sk.timing.Ending := by
  refine ⟨by decide +kernel, by decide +kernel, by decide +kernel, fun hend => ?_⟩
  obtain ⟨t, ht, hh, -⟩ := hend.linger
  have huser : (Machine.run Ended.step { conn := { sk := freshSock {} } } simultaneousCloseRun).conn.sk.timing.linger.map Timer.handler =
      some .userTimeout := by decide +kernel
  rw [ht, Option.map_some, hh] at huser
  cases huser

end LevelIp
