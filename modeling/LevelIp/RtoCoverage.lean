/-
The retransmission timer over a connection's life: while something is queued,
an RTO timer of the current epoch is armed whose handler can retransmit, and
while nothing is, none is.

Arming happens when `write_queue` stops being empty, stopping when it is empty
or FlightSize is 0, and the handler is chosen by the state at that moment. So a
SYN in SYN_SENT leaves two segments queued under the handler of SYN_SENT, which
does nothing in SYN_RECEIVED, and an ACK that leaves a queue without payload
stops the timer over it unless the same segment arms it again further down.
-/
import LevelIp.TimerOps

namespace LevelIp

/-! ## The timer of the current epoch -/

/-- The handler can retransmit in this state. -/
def Handler.retransmits (st : TcpState) : Handler → Bool
  | .connectRto _ => st = .synSent
  | .retransmissionTimeout _ => true
  | .sendDelack | .linger | .userTimeout => false

namespace Timing

/-- An RTO handler of the current epoch is still to run. -/
def Live (g : Timing) : Prop := ∃ h ∈ g.pending, h.epoch? = some g.rtoEpoch

/-- One is, and it can retransmit in this state. -/
def Covers (g : Timing) (st : TcpState) : Prop := ∃ h ∈ g.pending, h.epoch? = some g.rtoEpoch ∧ h.retransmits st

instance (g : Timing) : Decidable g.Live := inferInstanceAs (Decidable (∃ _ ∈ _, _))
instance (g : Timing) (st : TcpState) : Decidable (g.Covers st) := inferInstanceAs (Decidable (∃ _ ∈ _, _))

/-- The RTO handlers and their epoch are the same. -/
structure SameRto (g g' : Timing) : Prop where
  epoch : g'.rtoEpoch = g.rtoEpoch
  pending : ∀ h, h.epoch? ≠ none → (h ∈ g'.pending ↔ h ∈ g.pending)

variable {g g' g'' : Timing}

theorem SameRto.refl (g : Timing) : SameRto g g := ⟨rfl, fun _ _ => .rfl⟩

theorem SameRto.trans (h : SameRto g g') (h' : SameRto g' g'') : SameRto g g'' :=
  ⟨h'.epoch.trans h.epoch, fun x hx => (h'.pending x hx).trans (h.pending x hx)⟩

theorem SameRto.live (h : SameRto g g') (hl : g'.Live) : g.Live := by
  obtain ⟨x, hx, hxe⟩ := hl
  rw [h.epoch] at hxe
  exact ⟨x, (h.pending x (by simp [hxe])).mp hx, hxe⟩

theorem SameRto.covers (h : SameRto g g') {st : TcpState} (hc : g.Covers st) : g'.Covers st := by
  obtain ⟨x, hx, hxe, hr⟩ := hc
  exact ⟨x, (h.pending x (by simp [hxe])).mpr hx, by rw [h.epoch]; exact hxe, hr⟩

/-- Cancelling a timer of another kind. -/
theorem Refers.sameRto {o : Option Timer} (h : g.Refers o (·.epoch? = none)) : SameRto g (g.cancel o) := by
  refine ⟨by simp, fun x hx => ⟨pending_cancel g o x, fun hm => ?_⟩⟩
  cases o with
  | none => exact hm
  | some t =>
    obtain ⟨ht, -, hu⟩ := h t rfl
    rcases mem_pending.mp hm with ⟨u, hum, rfl⟩ | hm
    · refine mem_pending.mpr (.inl ⟨u, List.mem_filter.mpr ⟨hum, ?_⟩, rfl⟩)
      have hne : u.id ≠ t.id := fun hid => hx (by rw [hu u hum hid, ht])
      simpa using hne
    · exact mem_pending.mpr (.inr hm)

theorem sameRto_add (g : Timing) (expire : U32) {x : Handler} (hx : x.epoch? = none) : SameRto g (g.add expire x) := by
  refine ⟨rfl, fun y hy => mem_pending_add.trans (or_iff_right ?_)⟩
  rintro rfl
  exact hy hx

theorem Ok.sameRto_stopDelack (h : g.Ok) : SameRto g g.stopDelack :=
  h.delack.sameRto.trans ⟨rfl, fun _ _ => .rfl⟩

theorem Ok.sameRto_userTimeout (h : g.Ok) : SameRto g g.userTimeout :=
  h.linger.sameRto.trans ((sameRto_add _ TCP_USER_TIMEOUT (x := .userTimeout) rfl).trans ⟨rfl, fun _ _ => .rfl⟩)

theorem sameRto_armDelack (g : Timing) : SameRto g g.armDelack :=
  (sameRto_add g 200 (x := .sendDelack) rfl).trans ⟨rfl, fun _ _ => .rfl⟩

/-- Stopping puts every RTO handler into the past. -/
theorem Ok.stopRto_not_live (h : g.Ok) : ¬g.stopRto.Live := by
  rintro ⟨x, hx, hxe⟩
  exact Nat.not_succ_le_self _ (h.bound x (pending_cancel g _ x hx) _ hxe)

theorem Ok.timeWait_not_live (h : g.Ok) : ¬g.timeWait.Live := by
  intro hl
  have h1 : SameRto g.stopRto g.stopRto.stopDelack := h.stopRto.sameRto_stopDelack
  have h2 : SameRto g.stopRto.stopDelack g.clear :=
    h.stopRto.stopDelack.linger.sameRto.trans ⟨rfl, fun _ _ => .rfl⟩
  have h3 : SameRto g.clear g.timeWait := (sameRto_add _ TCP_2MSL (x := .linger) rfl).trans ⟨rfl, fun _ _ => .rfl⟩
  exact h.stopRto_not_live (((h1.trans h2).trans h3).live hl)

theorem rearm_covers (g : Timing) {syn : Bool} (expire : U32) {st : TcpState} (h : syn → st = .synSent) :
    (g.rearm syn expire).Covers st := by
  cases syn with
  | false => exact ⟨.retransmissionTimeout (g.rtoEpoch + 1), mem_pending_add.mpr (.inl rfl), rfl, rfl⟩
  | true => exact ⟨.connectRto (g.rtoEpoch + 1), mem_pending_add.mpr (.inl rfl), rfl, by simp [Handler.retransmits, h rfl]⟩

end Timing

/-! ## What a socket's queue asks of its timers -/

/-- The states the queue is watched in: in FIN_WAIT_2 our FIN is acknowledged,
in TIME_WAIT the connection is over. -/
def TcpState.guarded (st : TcpState) : Bool := st ≠ .finWait2 && st ≠ .timeWait

/-- The timers fit a queue that is empty or not. -/
structure Guards (st : TcpState) (empty : Bool) (g : Timing) : Prop where
  ok : g.Ok
  idle : st.guarded → empty → ¬g.Live
  covers : st.guarded → empty = false → g.Covers st

namespace Guards

variable {st st' : TcpState} {empty : Bool} {g g' : Timing}

theorem same (h : Guards st empty g) (hs : g.SameRto g') (ho : g'.Ok) : Guards st empty g' :=
  ⟨ho, fun hg he hl => h.idle hg he (hs.live hl), fun hg he => hs.covers (h.covers hg he)⟩

theorem unguarded (ho : g.Ok) (hst : st.guarded = false) : Guards st empty g :=
  ⟨ho, fun hg => by simp [hst] at hg, fun hg => by simp [hst] at hg⟩

theorem quiet (ho : g.Ok) (hl : ¬g.Live) : Guards st true g := ⟨ho, fun _ _ => hl, nofun⟩

theorem armed (ho : g.Ok) {syn : Bool} (expire : U32) (hsyn : syn → st = .synSent) : Guards st false (g.rearm syn expire) :=
  ⟨ho.rearm syn expire, nofun, fun _ _ => g.rearm_covers expire hsyn⟩

/-- A state change on the way: from SYN_SENT only with an empty queue. -/
theorem move (h : Guards st empty g) (hst : st.guarded) (hne : empty = false → st ≠ .synSent) : Guards st' empty g := by
  refine ⟨h.ok, fun _ he => h.idle hst he, fun _ he => ?_⟩
  obtain ⟨x, hx, hxe, hr⟩ := h.covers hst he
  refine ⟨x, hx, hxe, ?_⟩
  cases x with
  | connectRto n => exact absurd (by simpa [Handler.retransmits] using hr) (hne he)
  | retransmissionTimeout n => rfl
  | sendDelack | linger | userTimeout => cases hr

end Guards

def TcpSock.Guarded (s : TcpSock) : Prop := Guards s.state s.writeQueue.isEmpty s.timing

variable {s t : TcpSock}

theorem TcpSock.Guarded.of_eq (h : s.Guarded) (hst : t.state = s.state) (hq : t.writeQueue.isEmpty = s.writeQueue.isEmpty)
    (ht : t.timing = s.timing) : t.Guarded := by
  unfold TcpSock.Guarded
  rw [hst, hq, ht]
  exact h

/-- `tcp_queue_transmit_skb` arms the timer if the queue was empty. -/
theorem tcpQueueTransmitSkb_guarded (h : s.Guarded) (k : Skb) : (tcpQueueTransmitSkb s k).Guarded := by
  have hq : (tcpQueueTransmitSkb s k).writeQueue.isEmpty = false := by
    rw [← queue_isEmpty, tcpQueueTransmitSkb_core]
    simp [SndSide.enqueue]
  unfold TcpSock.Guarded at h ⊢
  rw [tcpQueueTransmitSkb_timing, tcpQueueTransmitSkb_state, hq]
  split
  next he =>
    rw [he] at h
    exact .armed h.ok _ (by simp)
  next he =>
    rw [Bool.not_eq_true] at he
    rw [he] at h
    exact h

theorem tcpRearmUserTimeout_guarded (h : s.Guarded) : (tcpRearmUserTimeout s).Guarded := by
  have hst := (quiet_tcpRearmUserTimeout s).state
  have hq : (tcpRearmUserTimeout s).writeQueue.isEmpty = s.writeQueue.isEmpty := by
    rw [← queue_isEmpty, (quiet_tcpRearmUserTimeout s).core, queue_isEmpty]
  unfold TcpSock.Guarded at h ⊢
  rw [hst, hq, tcpRearmUserTimeout_timing]
  split
  · exact h
  · exact h.same h.ok.sameRto_userTimeout h.ok.userTimeout

/-! ## The socket calls -/

theorem tcpSendLoop_guarded (mss : U16) (len fuel : Nat) {s : TcpSock} (h : s.Guarded) (buf : List U8) :
    (tcpSendLoop mss len fuel s buf).1.Guarded := by
  induction fuel generalizing s buf with
  | zero =>
    cases buf with
    | nil => exact tcpRearmUserTimeout_guarded h
    | cons b buf => exact h
  | succ fuel ih =>
    cases buf with
    | nil => exact tcpRearmUserTimeout_guarded h
    | cons b buf =>
      rw [tcpSendLoop]
      split
      · exact ih (tcpQueueTransmitSkb_guarded h _) _
      · exact h

theorem tcpWrite_guarded (h : s.Guarded) (buf : List U8) : (tcpWrite s buf).1.Guarded := by
  unfold tcpWrite
  split
  · exact tcpSendLoop_guarded _ _ _ h _
  · exact h

theorem tcpDataDequeue_guarded (h : s.Guarded) (n : Nat) : (tcpDataDequeue s n).1.Guarded := by
  simp only [tcpDataDequeue]
  split <;> exact h

theorem tcpReceiveTurn_guarded (h : s.Guarded) (len : Nat) (got : List U8) : (tcpReceiveTurn s len got).1.Guarded := by
  have hd := tcpDataDequeue_guarded h (len - got.length)
  unfold tcpReceiveTurn
  generalize tcpDataDequeue s (len - got.length) = r at hd
  obtain ⟨t, copied⟩ := r
  dsimp only at hd ⊢
  split
  · exact tcpRearmUserTimeout_guarded (s := { t with flagPsh := false }) hd
  · split
    · exact tcpRearmUserTimeout_guarded hd
    · split
      · split
        · exact hd
        · exact tcpRearmUserTimeout_guarded hd
      · exact hd

theorem tcpRead_guarded (h : s.Guarded) (len : Nat) : (tcpRead s len).1.Guarded := by
  have hr : (tcpReceive s len).1.Guarded := by
    unfold tcpReceive
    split
    · exact tcpReceiveTurn_guarded h _ _
    · exact tcpRearmUserTimeout_guarded h
  unfold tcpRead
  split
  case h_8 =>
    split
    · exact h
    · exact hr
  all_goals first | exact h | exact hr

/-- `tcp_queue_fin`, from a state in which the queue is watched or with nothing queued. -/
theorem tcpQueueFin_guarded (h : s.Guarded) (lastAck : Bool) (hsyn : s.state ≠ .synSent)
    (hst : lastAck → sndWndOpen s 0 → s.state.guarded ∨ s.writeQueue.isEmpty) : (tcpQueueFin s lastAck).1.Guarded := by
  unfold tcpQueueFin
  split
  next hw =>
    have hq := tcpQueueTransmitSkb_guarded h finSkb
    cases lastAck with
    | false => exact hq
    | true =>
      show Guards .lastAck (tcpQueueTransmitSkb s finSkb).writeQueue.isEmpty (tcpQueueTransmitSkb s finSkb).timing
      unfold TcpSock.Guarded at hq
      rw [tcpQueueTransmitSkb_state] at hq
      rcases hst rfl hw with hg | he
      · exact hq.move hg fun _ => hsyn
      · -- nothing was queued: the timer has just been armed
        have hne : (tcpQueueTransmitSkb s finSkb).writeQueue.isEmpty = false := by
          rw [← queue_isEmpty, tcpQueueTransmitSkb_core]
          simp [SndSide.enqueue]
        rw [tcpQueueTransmitSkb_timing, if_pos he, hne]
        exact .armed h.ok _ (by simp [hsyn])
  next => exact h

/-! ## The handlers -/

namespace Guards

/-- A dispatched handler leaves the list: a stale one, or one that could not
retransmit here, or with nothing queued. -/
theorem drop {st : TcpState} {empty : Bool} {g : Timing} (h : Guards st empty g) {i : Nat} {x : Handler}
    (hi : g.spawned[i]? = some x) (hx : empty = true ∨ x.epoch? ≠ some g.rtoEpoch ∨ x.retransmits st = false) :
    Guards st empty { g with spawned := g.spawned.eraseIdx i } := by
  have hsub : ∀ y ∈ Timing.pending { g with spawned := g.spawned.eraseIdx i }, y ∈ g.pending := fun _ => Timing.mem_pending_run
  refine ⟨h.ok.shrink (fun _ ht => ht) hsub le_rfl le_rfl (.inr rfl) (.inr rfl), fun hg he => ?_, fun hg he => ?_⟩
  · rintro ⟨y, hy, hye⟩
    exact h.idle hg he ⟨y, hsub y hy, hye⟩
  · obtain ⟨y, hy, hye, hr⟩ := h.covers hg he
    refine ⟨y, ?_, hye, hr⟩
    rcases Timing.mem_pending.mp hy with hy | hy
    · exact Timing.mem_pending.mpr (.inl hy)
    · have hne : y ≠ x := by
        rintro rfl
        rcases hx with hx | hx | hx
        · rw [he] at hx
          cases hx
        · exact hx hye
        · rw [hr] at hx
          cases hx
      obtain ⟨j, hj⟩ := List.mem_iff_getElem?.mp hy
      have hji : j ≠ i := by
        rintro rfl
        rw [hi] at hj
        exact hne (Option.some.inj hj).symm
      refine Timing.mem_pending.mpr (.inr (List.mem_eraseIdx_iff_getElem?.mpr ⟨j, hji, hj⟩))

end Guards

/-- `tcp_rearm_rto_timer` with something queued. -/
theorem tcpRearmRtoTimer_guarded (ho : s.timing.Ok) (hq : s.writeQueue.isEmpty = false) : (tcpRearmRtoTimer s).Guarded := by
  have hqe : (tcpRearmRtoTimer s).writeQueue.isEmpty = false := by
    rw [← queue_isEmpty, (quiet_tcpRearmRtoTimer s).core, queue_isEmpty, hq]
  unfold TcpSock.Guarded
  rw [tcpRearmRtoTimer_timing, (quiet_tcpRearmRtoTimer s).state, hqe]
  exact .armed ho _ (by simp)

theorem tcpHandleFinState_guarded (h : s.Guarded) : (tcpHandleFinState s).Guarded := by
  unfold tcpHandleFinState
  split
  next hs =>
    unfold TcpSock.Guarded at h
    rw [hs] at h
    exact h.move rfl fun _ => nofun
  next hs =>
    unfold TcpSock.Guarded at h
    rw [hs] at h
    exact h.move rfl fun _ => nofun
  next => exact h

theorem rtoTail_guarded (ho : s.timing.Ok) (hq : s.writeQueue.isEmpty = false) (hr : ¬s.rto > 60000) (k : Skb) :
    (rtoTail s k).Guarded := by
  have h : (tcpRearmRtoTimer { s with rto := s.rto * 2, backoff := s.backoff + 1 }).Guarded :=
    tcpRearmRtoTimer_guarded (s := { s with rto := s.rto * 2, backoff := s.backoff + 1 }) ho hq
  rw [rtoTail, if_neg hr]
  split
  · exact tcpHandleFinState_guarded h
  · exact h

theorem isEmpty_of_head? {q : List Skb} {k : Skb} (h : q.head? = some k) : q.isEmpty = false := by
  cases q with
  | nil => cases h
  | cons k q => rfl

theorem tcpReleaseRtoTimer_ok (ho : s.timing.Ok) : (tcpReleaseRtoTimer s).timing.Ok :=
  ho.shrink (fun _ ht => ht) (fun _ hx => hx) le_rfl le_rfl (.inr rfl) (.inr rfl)

theorem tcpReleaseRtoTimer_guarded (h : s.Guarded) : (tcpReleaseRtoTimer s).Guarded :=
  Guards.same h ⟨rfl, fun _ _ => .rfl⟩ (tcpReleaseRtoTimer_ok h.ok)

/-- `tcp_connect_rto`, given what its own leaving the list keeps. -/
theorem tcpConnectRto_guarded {n : Nat} (ho : s.timing.Ok)
    (h : s.writeQueue.isEmpty ∨ n ≠ s.rtoEpoch ∨ s.state ≠ .synSent → s.Guarded)
    (hf : handlerFinishes s (.connectRto n) = false) : (tcpConnectRto s n).Guarded := by
  unfold tcpConnectRto
  split
  next hn => exact h (.inr (.inl hn))
  next hn =>
    dsimp only
    split
    next hs =>
      have hb : ¬(tcpReleaseRtoTimer s).backoff > TCP_CONN_RETRIES := by
        have hs : s.state = .synSent := hs
        simp only [handlerFinishes, not_not.mp hn, hs, decide_true, Bool.true_and] at hf
        exact of_decide_eq_false hf
      rw [if_neg hb]
      split
      next hq =>
        have hq : s.writeQueue = [] := List.head?_eq_none_iff.mp hq
        exact tcpReleaseRtoTimer_guarded (h (.inl (by simp [hq])))
      next k hk =>
        -- the SYN goes out again
        have hc : (tcpTransmitSkb (tcpReleaseRtoTimer s) k (tcpReleaseRtoTimer s).tcb.sndUna).writeQueue.isEmpty = false := by
          rw [← queue_isEmpty, tcpTransmitSkb_core, queue_isEmpty]
          exact isEmpty_of_head? hk
        have ht := tcpTransmitSkb_timing (tcpReleaseRtoTimer s) k (tcpReleaseRtoTimer s).tcb.sndUna
        have ho' := tcpReleaseRtoTimer_ok ho
        generalize tcpTransmitSkb (tcpReleaseRtoTimer s) k (tcpReleaseRtoTimer s).tcb.sndUna = t at hc ht
        rw [← ht] at ho'
        exact tcpRearmRtoTimer_guarded (s := { t with backoff := t.backoff + 1 }) ho' hc
    next hs => exact tcpReleaseRtoTimer_guarded (h (.inr (.inr hs)))

/-- `tcp_retransmission_timeout` likewise. -/
theorem tcpRetransmissionTimeout_guarded {n : Nat} (ho : s.timing.Ok)
    (h : s.writeQueue.isEmpty ∨ n ≠ s.rtoEpoch → s.Guarded)
    (hf : handlerFinishes s (.retransmissionTimeout n) = false) : (tcpRetransmissionTimeout s n).Guarded := by
  rcases tcpRetransmissionTimeout_cases s n with ⟨hn, he⟩ | ⟨-, hq, he⟩ | ⟨k, hn, hk, he⟩
  · rw [he]
    exact h (.inr hn)
  · have hr := tcpReleaseRtoTimer_guarded (s := s) (h (.inl (by simp [hq])))
    rw [he, rtoIdle]
    dsimp only
    split <;> exact hr
  · have hq : s.writeQueue.isEmpty = false := isEmpty_of_head? hk
    have hrto : ¬s.rto > 60000 := by
      simp only [handlerFinishes, hn, hq, decide_true, Bool.not_false, Bool.true_and] at hf
      exact of_decide_eq_false hf
    have hrt := tcpReleaseRtoTimer_ok (s := s) ho
    rw [he]
    refine rtoTail_guarded ?_ ?_ ?_ k
    · rw [tcpTransmitSkb_timing]
      exact hrt
    · rw [← queue_isEmpty, tcpTransmitSkb_core, (quiet_rtoSock s).core, queue_isEmpty, hq]
    · rw [tcpTransmitSkb_rto]
      exact hrto

theorem tcpSendDelack_guarded (h : s.Guarded) : (tcpSendDelack s).Guarded := by
  have hq : (tcpSendDelack s).writeQueue.isEmpty = s.writeQueue.isEmpty := by
    rw [← queue_isEmpty, (quiet_tcpSendDelack s).core, queue_isEmpty]
  unfold TcpSock.Guarded at h ⊢
  rw [(quiet_tcpSendDelack s).state, hq, tcpSendDelack_timing]
  exact h.same ⟨rfl, fun _ _ => .rfl⟩
    (h.ok.shrink (fun _ ht => ht) (fun _ hx => hx) le_rfl le_rfl (.inl rfl) (.inr rfl))

/-- A handler that got the lock and did not end the connection. -/
theorem handle_guarded (h : s.Guarded) (i : Nat) (hf : (s.spawned[i]?).any (handlerFinishes s) = false) :
    (Conn.handle s i).Guarded := by
  unfold Conn.handle
  cases hi : s.spawned[i]? with
  | none => exact h
  | some x =>
    have drop : s.writeQueue.isEmpty ∨ x.epoch? ≠ some s.rtoEpoch ∨ x.retransmits s.state = false →
        TcpSock.Guarded { s with spawned := s.spawned.eraseIdx i } := fun hx =>
      Guards.drop (g := s.timing) h hi hx
    have hover : Guards .timeWait true s.timing := .unguarded h.ok rfl
    have hok : Timing.Ok { s.timing with spawned := s.spawned.eraseIdx i } := (hover.drop hi (.inl rfl)).ok
    rw [hi] at hf
    cases x with
    | connectRto n =>
      refine tcpConnectRto_guarded (s := { s with spawned := s.spawned.eraseIdx i }) hok (fun hx => drop ?_) hf
      simpa [Handler.epoch?, Handler.retransmits] using hx
    | retransmissionTimeout n =>
      refine tcpRetransmissionTimeout_guarded (s := { s with spawned := s.spawned.eraseIdx i }) hok (fun hx => drop ?_) hf
      simpa [Handler.epoch?, Handler.retransmits] using hx
    | sendDelack => exact tcpSendDelack_guarded (drop (.inr (.inl (by rintro ⟨⟩))))
    | linger => cases hf
    | userTimeout => cases hf

/-- `timers_tick` hands a timer over. -/
theorem dispatch_guarded (h : s.Guarded) (i : Nat) : (Conn.dispatch s i).Guarded := by
  unfold Conn.dispatch
  cases hi : s.timers[i]? with
  | none => exact h
  | some t =>
    have hp : ∀ x, x ∈ Timing.pending { s.timing with timers := s.timers.eraseIdx i, spawned := s.spawned ++ [t.handler] } ↔
        x ∈ s.timing.pending := Timing.mem_pending_dispatch (g := s.timing) hi
    exact Guards.same h ⟨rfl, fun x _ => hp x⟩ (h.ok.shrink (fun _ ht => List.mem_of_mem_eraseIdx ht) (fun x => (hp x).mp)
      le_rfl le_rfl (.inr rfl) (.inr rfl))

/-! ## A segment, stage by stage -/

theorem TcpSock.Guarded.of_core (h : s.Guarded) (hc : t.core = s.core) (ht : t.timing = s.timing) : t.Guarded :=
  h.of_eq (congrArg Core.state hc) (by rw [← queue_isEmpty, hc, queue_isEmpty]) ht

theorem tcpSendAck_guarded (h : s.Guarded) : (tcpSendAck s).Guarded :=
  h.of_core (quiet_tcpSendAck s).core (tcpSendAck_timing s)

theorem tcpEnterTimeWait_guarded (ho : s.timing.Ok) : (tcpEnterTimeWait s).Guarded := by
  unfold TcpSock.Guarded
  rw [tcpEnterTimeWait_timing, show (tcpEnterTimeWait s).state = .timeWait from congrArg Core.state (tcpEnterTimeWait_core s)]
  exact .unguarded ho.timeWait rfl

/-- Stopping the timers with nothing queued. -/
theorem Guards.cleared {g : Timing} (ho : g.Ok) (st : TcpState) : Guards st true g.clear := by
  have h1 : g.stopRto.SameRto g.stopRto.stopDelack := ho.stopRto.sameRto_stopDelack
  have h2 : g.stopRto.stopDelack.SameRto g.clear :=
    ho.stopRto.stopDelack.linger.sameRto.trans ⟨rfl, fun _ _ => .rfl⟩
  exact .quiet ho.clear fun hl => ho.stopRto_not_live ((h1.trans h2).live hl)

theorem finAcked_guarded (h : s.Guarded) (th : Tcphdr) : (finAcked s th).sock.Guarded := by
  unfold finAcked
  cases hq : s.writeQueue.isEmpty with
  | false => exact h
  | true =>
    simp only [if_true]
    cases hs : s.state
    case finWait1 => exact .unguarded h.ok rfl
    case closing => exact .unguarded h.ok rfl
    case lastAck =>
      have hqd : (tcpDone s).writeQueue.isEmpty = true := by
        rw [← queue_isEmpty, tcpDone_core]
        exact (queue_isEmpty s).trans hq
      show Guards (tcpDone s).state (tcpDone s).writeQueue.isEmpty (tcpDone s).timing
      rw [hqd, tcpDone_timing]
      exact .cleared h.ok _
    case timeWait =>
      dsimp only [Ctl.sock]
      rw [← hs]
      split
      · exact tcpSendAck_guarded (s := { s with flagFin := true }) h
      · exact h
    all_goals exact h

theorem segmentText_guarded (h : s.Guarded) (th : Tcphdr) (skb : Skb) : (segmentText s th skb).Guarded :=
  h.of_eq (segmentText_state s th skb) (segmentText_queue s th skb) (segmentText_timing s th skb)

theorem finState_guarded (h : s.Guarded) : (finState s).Guarded := by
  unfold finState
  cases hs : s.state
  case synReceived | established =>
    unfold TcpSock.Guarded at h
    rw [hs] at h
    exact h.move rfl fun _ => nofun
  case finWait1 =>
    dsimp only
    split
    · exact tcpEnterTimeWait_guarded h.ok
    · unfold TcpSock.Guarded at h
      rw [hs] at h
      exact h.move rfl fun _ => nofun
  case finWait2 => exact tcpEnterTimeWait_guarded h.ok
  all_goals exact h

theorem finBit_guarded (h : s.Guarded) (th : Tcphdr) (expected : Bool) : (finBit s th expected).sock.Guarded := by
  unfold finBit
  split
  · split
    case h_4 =>
      have hfin : TcpSock.Guarded { s with
          tcb.rcvNxt := s.tcb.rcvNxt + 1, flagFin := true, pollEvents := s.pollEvents ||| pollInMask } := h
      dsimp only
      generalize ({ s with
        tcb.rcvNxt := s.tcb.rcvNxt + 1, flagFin := true, pollEvents := s.pollEvents ||| pollInMask } : TcpSock) = t at hfin
      exact finState_guarded (tcpSendAck_guarded (s := t.emit .peerFin) hfin)
    all_goals exact h
  · exact h

theorem tcpStopDelackTimer_guarded (h : s.Guarded) : (tcpStopDelackTimer s).Guarded := by
  have hc : (tcpStopDelackTimer s).core = s.core := (quiet_tcpStopDelackTimer s).core
  unfold TcpSock.Guarded at h ⊢
  rw [← queue_isEmpty, ← core_state, hc, tcpStopDelackTimer_timing, queue_isEmpty]
  exact h.same h.ok.sameRto_stopDelack h.ok.stopDelack

theorem renum_isEmpty {q q' : List Skb} (h : List.Forall₂ Skb.Renum q q') : q'.isEmpty = q.isEmpty := by
  cases h <;> rfl

theorem tcpSendNext_isEmpty (s : TcpSock) (amount : Nat) (extra : U32) :
    (tcpSendNext s amount extra).writeQueue.isEmpty = s.writeQueue.isEmpty := by
  obtain ⟨_, d, -, hc, hn⟩ := tcpSendNext_spec s amount extra
  rw [← queue_isEmpty, ← queue_isEmpty s, hc]
  exact renum_isEmpty hn.queue

/-- With something queued an in-sequence segment re-arms the timer. -/
theorem ackData_rearms (ho : s.timing.Ok) (hs : s.state.takesText) (hq : s.writeQueue.isEmpty = false) (th : Tcphdr) (skb : Skb) :
    (ackData s th skb true).Guarded := by
  have hc : (tcpStopDelackTimer s).core = s.core := (quiet_tcpStopDelackTimer s).core
  have hqs : (tcpStopDelackTimer s).writeQueue.isEmpty = false := by
    rw [← queue_isEmpty, hc, queue_isEmpty, hq]
  have hpos : (tcpStopDelackTimer s).writeQueue.length > 0 := by
    rw [gt_iff_lt, List.length_pos_iff_ne_nil, ne_eq, ← List.isEmpty_iff, hqs]
    nofun
  have h : (tcpRearmRtoTimer (tcpSendNext (tcpStopDelackTimer s) (tcpStopDelackTimer s).writeQueue.length 0)).Guarded := by
    refine tcpRearmRtoTimer_guarded ?_ ?_
    · rw [tcpSendNext_timing, tcpStopDelackTimer_timing]
      exact ho.stopDelack
    · rw [tcpSendNext_isEmpty, hqs]
  unfold ackData
  cases hst : s.state <;> rw [hst] at hs <;> cases hs
  all_goals
    simp only [if_true, if_pos hpos]
    exact h

theorem ackData_guarded (h : s.Guarded) (th : Tcphdr) (skb : Skb) (expected : Bool) : (ackData s th skb expected).Guarded := by
  by_cases hgo : s.state.takesText ∧ expected = true
  · obtain ⟨hs, rfl⟩ := hgo
    cases hq : s.writeQueue.isEmpty with
    | false => exact ackData_rearms h.ok hs hq th skb
    | true =>
      have hd := tcpStopDelackTimer_guarded h
      have hc : (tcpStopDelackTimer s).core = s.core := (quiet_tcpStopDelackTimer s).core
      have hpos : ¬(tcpStopDelackTimer s).writeQueue.length > 0 := by
        have : (tcpStopDelackTimer s).writeQueue.isEmpty = true := by rw [← queue_isEmpty, hc, queue_isEmpty, hq]
        simp [List.isEmpty_iff.mp this]
      have delacked : ∀ t : TcpSock, t.Guarded →
          (if th.psh || (skb.dlen > 1000 && t.delacks > 1) then tcpSendAck { t with delacks := 0 }
          else if skb.dlen > 0 then { t.timerAdd (t.newTimer 200 .sendDelack) with delack := some (t.newTimer 200 .sendDelack) }
          else t).Guarded := fun t ht => by
        split
        · exact tcpSendAck_guarded (s := { t with delacks := 0 }) ht
        · split
          · exact Guards.same (g := t.timing) ht (Timing.sameRto_armDelack _) ht.ok.armDelack
          · exact ht
      unfold ackData
      cases hst : s.state <;> rw [hst] at hs <;> cases hs
      all_goals
        simp only [if_true, if_neg hpos]
        refine delacked _ ?_
        split <;> exact hd
  · have he : ackData s th skb expected = s := by
      unfold ackData
      cases hst : s.state <;> rw [hst] at hgo
      all_goals
        have hne : expected = false := by simpa [TcpState.takesText] using hgo
        simp [hne]
    rw [he]
    exact h

theorem afterAck_guarded (h : s.Guarded) (th : Tcphdr) (skb : Skb) : (afterAck s th skb).sock.Guarded := by
  have hf := finAcked_guarded h th
  unfold afterAck
  cases hk : finAcked s th with
  | ret t =>
    rw [hk] at hf
    exact hf
  | next t =>
    have ht : t.Guarded := by
      rw [hk] at hf
      exact hf
    have hb := finBit_guarded (segmentText_guarded ht th skb) th (skb.seq = t.tcb.rcvNxt)
    simp only [Ctl.andThen]
    generalize finBit (segmentText t th skb) th (skb.seq = t.tcb.rcvNxt) = k at hb
    cases k with
    | ret u => exact hb
    | next u => exact ackData_guarded hb th skb _

/-- The timer has been stopped with something queued: an in-sequence segment
without FIN arms it again. -/
theorem afterAck_rearms (ho : s.timing.Ok) (hs : s.state.takesText) (hq : s.writeQueue.isEmpty = false) {th : Tcphdr}
    {skb : Skb} (hexp : skb.seq = s.tcb.rcvNxt) (hfin : th.fin = false) : (afterAck s th skb).sock.Guarded := by
  have hf : finAcked s th = .next s := by simp [finAcked, hq]
  have hb : ∀ t, finBit t th true = .next t := fun t => by simp [finBit, hfin]
  have hst : (segmentText s th skb).state.takesText := by rw [segmentText_state]; exact hs
  have hqt : (segmentText s th skb).writeQueue.isEmpty = false := by rw [segmentText_queue]; exact hq
  have hot : (segmentText s th skb).timing.Ok := by rw [segmentText_timing]; exact ho
  simp only [afterAck, hf, Ctl.andThen, hexp, decide_true, hb]
  exact ackData_rearms hot hst hqt th skb

theorem tcpHandleDupack_isEmpty (s : TcpSock) : (tcpHandleDupack s).writeQueue.isEmpty = s.writeQueue.isEmpty := by
  have hc : (dupackAction { s with dupacks := s.dupacks + 1 }).1.writeQueue.isEmpty = s.writeQueue.isEmpty := by
    rw [← queue_isEmpty, dupackAction_core]
    exact queue_isEmpty s
  unfold tcpHandleDupack
  dsimp only
  split
  · rw [tcpSendNext_isEmpty, hc]
  · exact hc

theorem tcpHandleDupack_guarded (h : s.Guarded) (hq : s.dupacks + 1 = 3 → s.state.guarded → s.writeQueue.isEmpty = false) :
    (tcpHandleDupack s).Guarded := by
  unfold TcpSock.Guarded at h ⊢
  rw [tcpHandleDupack_state, tcpHandleDupack_isEmpty, tcpHandleDupack_timing]
  split
  next h3 =>
    cases hg : s.state.guarded with
    | false => exact .unguarded (h.ok.rearm _ _) hg
    | true =>
      rw [hq h3 hg]
      exact .armed h.ok _ (by simp)
  next => exact h

/-- An ACK takes everything that counts for FlightSize and leaves something
queued: `tcp_clean_rto_queue` stops the timer over it. -/
def TcpSock.strands (s : TcpSock) (th : Tcphdr) : Bool :=
  ackIsNew s th && (s.core.snd.acked th.ackSeq).inflight = 0 && !s.acksAll th

/-- The ACK processing of the synchronized states, and what follows it. -/
theorem ackSynchronized_guarded (h : s.Guarded) {th : Tcphdr} {skb : Skb}
    (hdup : tcpIsDupack s th skb → s.dupacks + 1 = 3 → s.state.guarded → s.writeQueue.isEmpty = false)
    (hnew : s.strands th → s.state.guarded = false ∨ skb.seq = s.tcb.rcvNxt ∧ th.fin = false ∧ s.state.takesText) :
    ((ackSynchronized s th skb).andThen fun t => afterAck t th skb).sock.Guarded := by
  have htm := ackSynchronized_timing s th skb
  cases hd : tcpIsDupack s th skb with
  | true =>
    have ht := tcpHandleDupack_guarded h (hdup hd)
    rw [ackSynchronized, if_pos hd]
    generalize tcpHandleDupack s = t at ht
    exact ht
  | false =>
    cases hn : ackIsNew s th with
    | false =>
      simp only [hd, hn, Bool.false_eq_true, if_false] at htm
      by_cases hok : s.core.snd.AckOk th
      · obtain ⟨t, ht, hc⟩ := ackSynchronized_old hd hn hok.1 hok.2
        rw [ht] at htm ⊢
        exact afterAck_guarded (h.of_core hc htm) th skb
      · rw [ackSynchronized_outside hd hn hok]
        exact h
    | true =>
      obtain ⟨t, ht, hc⟩ := ackSynchronized_new skb hn
      simp only [hd, hn, Bool.false_eq_true, if_false, if_true] at htm
      rw [ht] at htm ⊢
      have htm : t.timing = if (s.core.snd.acked th.ackSeq).idle then s.timing.stopRto else s.timing := htm
      have hst : t.state = s.state := congrArg Core.state hc
      have hall : (s.core.snd.acked th.ackSeq).queue.isEmpty = s.acksAll th := by
        rw [TcpSock.acksAll, if_pos hn]
        exact cleanQueue_isEmpty _ _
      have hq : t.writeQueue.isEmpty = s.acksAll th := by
        rw [← queue_isEmpty, hc]
        exact hall
      have stopped : (s.core.snd.acked th.ackSeq).idle → t.timing = s.timing.stopRto := fun hi => by rw [htm, if_pos hi]
      cases ha : s.acksAll th with
      | true =>
        -- everything is acknowledged
        refine afterAck_guarded ?_ th skb
        unfold TcpSock.Guarded
        rw [hq, ha, stopped (by simp [SndSide.idle, hall, ha])]
        exact .quiet h.ok.stopRto h.ok.stopRto_not_live
      | false =>
        by_cases hfl : (s.core.snd.acked th.ackSeq).inflight = 0
        · -- the timer stops over what is left
          have hts := stopped (by simp [SndSide.idle, hfl])
          rcases hnew (by simp [TcpSock.strands, hn, hfl, ha]) with hg | ⟨hexp, hfin, htext⟩
          · refine afterAck_guarded ?_ th skb
            unfold TcpSock.Guarded
            rw [hts, hst]
            exact .unguarded h.ok.stopRto hg
          · have hr : t.tcb.rcvNxt = s.tcb.rcvNxt := congrArg (·.rcv.nxt) hc
            refine afterAck_rearms ?_ (by rw [hst]; exact htext) (hq.trans ha) (hexp.trans hr.symm) hfin
            rw [hts]
            exact h.ok.stopRto
        · have hne : s.writeQueue.isEmpty = false := by
            rw [TcpSock.acksAll, if_pos hn] at ha
            cases hs : s.writeQueue with
            | nil => rw [hs] at ha; cases ha
            | cons k q => rfl
          refine afterAck_guarded (h.of_eq hst (by rw [hq, ha, hne]) ?_) th skb
          rw [htm, if_neg (by simpa [SndSide.idle, hall, ha] using hfl)]

/-- The segment re-arms the timer after its ACK has been processed: it is in
sequence, has no FIN, and finds a state that takes text. -/
def TcpSock.rearms (s : TcpSock) (th : Tcphdr) (skb : Skb) : Bool :=
  skb.seq = s.tcb.rcvNxt && !th.fin && (s.state.takesText || s.state = .synReceived)

/-- A third duplicate ACK with nothing queued: it arms a timer all the same. -/
def TcpSock.armsIdle (s : TcpSock) (th : Tcphdr) (skb : Skb) : Bool :=
  s.state ≠ .synReceived && tcpIsDupack s th skb && s.dupacks + 1 = 3 && s.writeQueue.isEmpty

theorem ackField_guarded (h : s.Guarded) (hl : s.state.late) {th : Tcphdr} {skb : Skb}
    (hdup : s.state.guarded → s.armsIdle th skb = false) (hnew : s.state.guarded → s.strands th → s.rearms th skb)
    (hf : ((ackField s th skb).andThen fun t => afterAck t th skb).sock.fault = false) :
    ((ackField s th skb).andThen fun t => afterAck t th skb).sock.Guarded := by
  have sync : s.state.takesAck → ((ackField s th skb).andThen fun t => afterAck t th skb).sock.Guarded := fun ha => by
    have hne : s.state ≠ .synReceived := fun hs => by rw [hs] at ha; cases ha
    rw [ackField_synchronized ha]
    refine ackSynchronized_guarded h (fun hd h3 hg => ?_) fun hs => ?_
    · have hi := hdup hg
      rw [TcpSock.armsIdle, decide_eq_true hne, hd, decide_eq_true h3] at hi
      exact hi
    · cases hg : s.state.guarded with
      | false => exact .inl rfl
      | true =>
        have hr := hnew hg hs
        simp only [TcpSock.rearms, hne, decide_false, Bool.or_false, Bool.and_eq_true, decide_eq_true_eq,
          Bool.not_eq_true'] at hr
        exact .inr ⟨hr.1.1, hr.1.2, hr.2⟩
  cases hst : s.state
  case close => exact absurd hst hl.1
  case listen => exact absurd hst hl.2.1
  case synSent => exact absurd hst hl.2.2
  case timeWait =>
    have hk : ackField s th skb = .next s := by simp only [ackField, hst]
    rw [hk]
    exact afterAck_guarded h th skb
  case synReceived =>
    unfold ackField at hf ⊢
    simp only [hst] at hf ⊢
    split
    next hn =>
      rw [if_pos hn] at hf
      cases hp : s.ptsk with
      | none =>
        have hp' : (s.setState .established).ptsk = none := hp
        rw [hp'] at hf
        cases hf
      | some p =>
        have hp' : (s.setState .established).ptsk = some p := hp
        rw [hp']
        let t := ((s.setState .established).emit (.acceptQueue p)).wakeup .acceptWait
        have ht : t.Guarded := by
          unfold TcpSock.Guarded at h
          rw [hst] at h
          exact Guards.move h rfl fun _ => by simp
        have hn' : ackIsNew t th := hn
        refine ackSynchronized_guarded (s := t) ht (fun hd => ?_) fun hs => ?_
        · rw [tcpIsDupack_of_new skb hn'] at hd
          cases hd
        · have hr := hnew (by rw [hst]; rfl) hs
          simp only [TcpSock.rearms, Bool.and_eq_true, decide_eq_true_eq, Bool.not_eq_true'] at hr
          exact .inr ⟨hr.1.1, hr.1.2, rfl⟩
    next => exact h
  all_goals exact sync (by rw [hst]; rfl)

/-- The whole "Otherwise" section. -/
theorem tcpInputOtherwise_guarded (h : s.Guarded) (hl : s.state.late) {th : Tcphdr} {skb : Skb}
    (hdup : s.core.Heard th skb → s.state.guarded → s.armsIdle th skb = false)
    (hnew : s.core.Heard th skb → s.state.guarded → s.strands th → s.rearms th skb)
    (hf : (tcpInputOtherwise s th skb).fault = false) : (tcpInputOtherwise s th skb).Guarded := by
  unfold tcpInputOtherwise at hf ⊢
  split
  · split
    · exact tcpSendAck_guarded h
    · exact h
  next hv =>
    rw [if_neg hv] at hf
    split
    · exact tcpEnterTimeWait_guarded h.ok
    next hr =>
      rw [if_neg hr] at hf
      split
      · exact h
      next hsyn =>
        rw [if_neg hsyn] at hf
        split
        · exact h
        next hack =>
          rw [if_neg hack] at hf
          have hheard : s.core.Heard th skb := by
            have hv' : s.core.rcv.verify th skb = tcpVerifySegment s th skb := rfl
            simp only [Core.Heard, hv']
            simp_all
          exact ackField_guarded h hl (hdup hheard) (hnew hheard) hf

/-! ## SYN_SENT -/

theorem synsentEstablish_guarded (ho : s.timing.Ok) (hl : ¬s.timing.Live) (hq : s.writeQueue.isEmpty) (th : Tcphdr) :
    (synsentEstablish s th).Guarded := by
  have h0 : (openedSock s th).Guarded := by
    show Guards .established s.writeQueue.isEmpty s.timing
    rw [hq]
    exact .quiet ho hl
  have h1 := tcpRearmUserTimeout_guarded (tcpSendAck_guarded h0)
  have hq1 : (synsentEstablish s th).writeQueue.isEmpty = true := by
    rw [← queue_isEmpty, synsentEstablish_core]
    exact (queue_isEmpty s).trans hq
  have ht : (synsentEstablish s th).timing = (tcpRearmUserTimeout (tcpSendAck (openedSock s th))).timing := by
    have hc : ∀ t : TcpSock, (sockConnected (updateSndWin t th.win)).timing = t.timing := fun _ => rfl
    exact (hc _).trans (tcpParseOpts_timing _ th)
  have hst : (tcpRearmUserTimeout (tcpSendAck (openedSock s th))).state = .established :=
    (quiet_openedSock s th).state.trans rfl
  have hqo : (tcpRearmUserTimeout (tcpSendAck (openedSock s th))).writeQueue.isEmpty = true := by
    rw [← queue_isEmpty, (quiet_openedSock s th).core]
    exact (queue_isEmpty s).trans hq
  exact h1.of_eq ((congrArg Core.state (synsentEstablish_core s th)).trans hst.symm) (hq1.trans hqo.symm) ht

/-- A SYN that SYN_SENT takes acknowledges all of the queue. -/
def TcpSock.synCovers (s : TcpSock) (th : Tcphdr) : Bool := th.ack && s.writeQueue.all (Skb.covered th.ackSeq)

theorem tcpSynsent_guarded (h : s.Guarded) {th : Tcphdr}
    (hsyn : s.synsentAckOk th → th.rst = false → th.syn → s.synCovers th) (hrst : ¬(s.synsentAckOk th ∧ th.rst)) :
    (tcpSynsent s th).Guarded := by
  rw [tcpSynsent_eq]
  split
  · exact h
  next h1 =>
    split
    · exact h
    next h2 =>
      have hok : s.synsentAckOk th = true := (synsentAckOk_iff s th).mpr ⟨h1, h2⟩
      split
      next hr => exact absurd ⟨hok, hr⟩ hrst
      next hr =>
        split
        · exact h
        next hs =>
          have hc := hsyn hok (by simpa using hr) (by simpa using hs)
          simp only [TcpSock.synCovers, Bool.and_eq_true] at hc
          obtain ⟨hack, hall⟩ := hc
          have hcore := synAckedSock_core s th
          rw [SndSide.synAcked, if_pos hack] at hcore
          have hempty : (s.core.snd.acked th.ackSeq).queue.isEmpty = true := (cleanQueue_isEmpty _ _).trans hall
          have hidle : (s.core.snd.acked th.ackSeq).idle = true := by simp only [SndSide.idle, hempty, Bool.true_or]
          have hq : (synAckedSock s th).writeQueue.isEmpty = true := by
            rw [← queue_isEmpty, hcore]
            exact hempty
          have ht : (synAckedSock s th).timing = s.timing.stopRto := by
            have hclean := tcpCleanRtoQueue_timing { syncedSock s th with tcb.sndUna := th.ackSeq } th.ackSeq
            rw [synAckedSock, if_pos hack, hclean]
            exact if_pos hidle
          have hgt : (synAckedSock s th).tcb.sndUna > (synAckedSock s th).tcb.iss := by
            rw [show (synAckedSock s th).tcb.sndUna = th.ackSeq from congrArg (·.snd.una) hcore,
              show (synAckedSock s th).tcb.iss = s.tcb.iss from congrArg (·.snd.iss) hcore]
            exact BitVec.not_le.mp fun hle => h1 ⟨hack, .inl hle⟩
          rw [synTaken, if_pos hgt]
          refine synsentEstablish_guarded ?_ ?_ hq th
          · rw [ht]
            exact h.ok.stopRto
          · rw [ht]
            exact h.ok.stopRto_not_live

/-! ## Over whole lives -/

/-- The segment leaves the timer as the queue needs it. -/
def TcpSock.keepsRto (s : TcpSock) (th : Tcphdr) (skb : Skb) : Bool :=
  match s.state with
  | .close | .listen | .finWait2 | .timeWait => true
  | .synSent => !(s.synsentAckOk th && !th.rst && th.syn) || s.synCovers th
  | .synReceived | .established | .finWait1 | .closeWait | .closing | .lastAck =>
    !s.core.Heard th skb || !s.armsIdle th skb && (!s.strands th || s.rearms th skb)

theorem segmentArrives_guarded (h : s.Guarded) {th : Tcphdr} {skb : Skb} (hk : s.keepsRto th skb)
    (hfin : segmentFinishes s th skb = false) (hf : (segmentArrives s th skb).fault = false) :
    (segmentArrives s th skb).Guarded := by
  have late : s.state.late → segmentArrives s th skb = tcpInputOtherwise s th skb →
      (s.state.guarded → (!s.core.Heard th skb || !s.armsIdle th skb && (!s.strands th || s.rearms th skb)) = true) →
      (segmentArrives s th skb).Guarded := fun hl he hg => by
    rw [he] at hf ⊢
    refine tcpInputOtherwise_guarded h hl (fun hh hgd => ?_) (fun hh hgd hs => ?_) hf
    · have := hg hgd
      simp only [hh, Bool.not_true, Bool.false_or, Bool.and_eq_true, Bool.not_eq_true'] at this
      exact this.1
    · have := hg hgd
      simp only [hh, hs, Bool.not_true, Bool.false_or, Bool.and_eq_true] at this
      exact this.2
  cases hst : s.state
  case close =>
    have he : segmentArrives s th skb = tcpClosed s th := by simp only [segmentArrives, hst]
    rw [he, tcpClosed]
    split
    · exact h
    · refine h.of_eq (tcpSendReset_state s) ?_ (tcpSendReset_timing s)
      rw [← queue_isEmpty, tcpSendReset_core]
      exact queue_isEmpty s
  case listen =>
    have he : segmentArrives s th skb = s := by simp only [segmentArrives, hst]
    rw [he]
    exact h
  case synSent =>
    have he : segmentArrives s th skb = tcpSynsent s th := by simp only [segmentArrives, hst]
    have hfin : (s.synsentAckOk th && th.rst) = false := by simpa only [segmentFinishes, hst] using hfin
    simp only [TcpSock.keepsRto, hst] at hk
    rw [he]
    refine tcpSynsent_guarded h (fun hok hr hs => ?_) (by simpa using hfin)
    simpa [hok, hr, hs] using hk
  case timeWait | finWait2 =>
    refine late ⟨by simp [hst], by simp [hst], by simp [hst]⟩ (by simp only [segmentArrives, hst]) fun hg => ?_
    rw [hst] at hg
    cases hg
  all_goals
    refine late ⟨by simp [hst], by simp [hst], by simp [hst]⟩ (by simp only [segmentArrives, hst]) fun _ => ?_
    simpa only [TcpSock.keepsRto, hst] using hk

namespace Conn

/-- The event leaves the RTO timer as the queue needs it: a segment does, and
no `tcp_close` that slept goes on over a queue nobody watches. -/
def keepsRto (c : Conn) : Event → Bool
  | .segment th data psh => c.sk.keepsRto th (tcpInitSegment th data psh)
  | .resume i => !c.resumesClose (.resume i) || c.sk.state.guarded || c.sk.writeQueue.isEmpty
  | _ => true

theorem settle_guarded {c : Conn} {r : TcpSock × Outcome} (h : r.1.Guarded) : (c.settle r).sk.Guarded := by
  rcases settle_sk c r with hr | ⟨-, hr⟩ <;> rw [hr] <;> exact h

theorem resume_guarded {c : Conn} (h : c.sk.Guarded) (hr : c.Ready) (i : Nat) (hf : c.sk.fault = false)
    (hk : c.keepsRto (.resume i)) : (c.resume i).sk.Guarded := by
  unfold resume
  cases hc : c.calls[i]? with
  | none => exact h
  | some call =>
    cases call with
    | recv len got =>
      rw [settleRead_sk]
      exact tcpReceiveTurn_guarded h len got
    | send mss chunk rest len =>
      refine settle_guarded ?_
      rw [resumeSend]
      split
      · exact tcpSendLoop_guarded _ _ _ (tcpQueueTransmitSkb_guarded h _) _
      · exact h
    | fin lastAck =>
      refine settle_guarded (tcpQueueFin_guarded h lastAck ?_ fun hl hw => ?_)
      · intro hs
        obtain ⟨len, got, h0⟩ := hr hs _ (List.mem_of_getElem? hc)
        cases h0
      · subst hl
        simp only [keepsRto, resumesClose, hf, hc, hw] at hk
        simpa using hk

theorem tcpClose_guarded (h : s.Guarded) (hf : closeFinishes s = false) : (tcpClose s).1.Guarded := by
  unfold tcpClose
  split
  case h_7 hst | h_8 hst | h_9 hst => simp [closeFinishes, hst] at hf
  case h_10 hst =>
    have hm : (s.setState .finWait1).Guarded := by
      unfold TcpSock.Guarded at h
      rw [hst] at h
      exact Guards.move h rfl fun _ => nofun
    exact tcpQueueFin_guarded hm false nofun nofun
  case h_11 hst => exact tcpQueueFin_guarded h true (by simp [hst]) fun _ _ => .inl (by rw [hst]; rfl)
  all_goals exact h

/-- An event that does not end the connection. -/
theorem step_guarded {c : Conn} (h : c.sk.Guarded) (hr : c.Ready) {e : Event} (hk : c.keepsRto e)
    (hfin : c.finishes e = false) (hf : (c.step e).sk.fault = false) : (c.step e).sk.Guarded := by
  cases hft : c.sk.fault with
  | true =>
    rw [step_of_fault hft]
    exact h
  | false =>
    have hstep : ∀ e, c.step e = _ := fun e => if_neg (by simp [hft])
    cases e with
    | segment th data psh =>
      rw [hstep] at hf ⊢
      exact segmentArrives_guarded h hk (by simpa [finishes, hft] using hfin) hf
    | write buf =>
      rw [hstep]
      exact settle_guarded (tcpWrite_guarded h buf)
    | read len =>
      rw [hstep]
      dsimp only
      rw [settleRead_sk]
      exact tcpRead_guarded h len
    | close =>
      rw [hstep]
      exact settle_guarded (tcpClose_guarded h (by simpa [finishes, hft] using hfin))
    | abort => simp [finishes, hft] at hfin
    | resume i =>
      rw [hstep]
      exact resume_guarded h hr i hft hk
    | dispatch i =>
      rw [hstep]
      exact dispatch_guarded h i
    | handler i =>
      rw [hstep]
      exact handle_guarded h i (by simpa [finishes, hft] using hfin)
    | tick ms =>
      rw [hstep]
      exact Guards.same (g := c.sk.timing) h ⟨rfl, fun _ _ => .rfl⟩
        (h.ok.shrink (fun _ ht => ht) (fun _ hx => hx) le_rfl le_rfl (.inr rfl) (.inr rfl))
    | fcntl nonblock =>
      rw [hstep]
      exact h
    | adjustPmtu6 mss =>
      rw [hstep]
      dsimp only [adjustPmtu6]
      split <;> exact h

end Conn

theorem inetStreamConnect_guarded (h : s.Guarded) (d : Dest) (iss : U32) : (inetStreamConnect s d iss).Guarded := by
  rcases inetStreamConnect_cases s d iss with ⟨hs, he⟩ | ⟨err, he⟩
  · have hsyn : (synSock (s.addressed d) iss).Guarded := by
      unfold TcpSock.Guarded at h
      rw [hs] at h
      exact Guards.move h rfl fun _ => nofun
    have hq := tcpQueueTransmitSkb_guarded hsyn (synSkb (synSock (s.addressed d) iss))
    rw [he, tcpConnect_eq (s := s.addressed d) hs]
    exact hq
  · rw [he]
    exact h

theorem tcpV4Listen_guarded (h : s.Guarded) : (tcpV4Listen s).Guarded := by
  rcases tcpV4Listen_cases s with ⟨hs, he⟩ | he
  · rw [he]
    unfold TcpSock.Guarded at h
    rw [hs] at h
    exact Guards.move h rfl fun _ => nofun
  · rw [he]
    exact h

/-- A socket without timers and with nothing queued. -/
theorem Guards.fresh {g : Timing} (ht : g.timers = []) (hsp : g.spawned = []) (hd : g.delack = none) (hl : g.linger = none)
    (st : TcpState) : Guards st true g := by
  have hp : g.pending = [] := by simp [Timing.pending, ht, hsp]
  refine .quiet (Timing.ok_of_idle ht hsp hd hl) ?_
  rintro ⟨x, hx, -⟩
  simp [hp] at hx

theorem tcpSendSynack_guarded (h : s.Guarded) : (tcpSendSynack s).Guarded := by
  unfold tcpSendSynack
  split
  · exact h
  · have hq := tcpQueueTransmitSkb_guarded h { tcpAllocSkb 4 Payload.nil with syn := true, ack := true }
    generalize tcpQueueTransmitSkb s { tcpAllocSkb 4 Payload.nil with syn := true, ack := true } = t at hq
    exact hq

theorem forkSocket_guarded (l : TcpSock) (th : Tcphdr) (env : SynEnv) : (forkSocket l th env).Guarded := by
  have hq : (forkSocket l th env).writeQueue.isEmpty = true := by
    rw [← queue_isEmpty, forkSocket_core]
    rfl
  unfold TcpSock.Guarded
  rw [hq, forkSocket_timing]
  exact .fresh rfl rfl rfl rfl _

theorem Born.guarded (hb : Born s) : s.Guarded := by
  cases hb with
  | fresh o => exact .fresh rfl rfl rfl rfl _
  | forked _ hs =>
    rename_i l th env _
    unfold tcpListen at hs
    split at hs
    next =>
      have adopt : ∀ t : TcpSock, t.Guarded → TcpSock.Guarded { t with ptsk := some env.listener } := fun _ h => h
      have hf := adopt _ (forkSocket_guarded l th env)
      have hq := tcpSendSynack_guarded hf
      generalize tcpSendSynack { forkSocket l th env with ptsk := some env.listener } = t at hq hs
      rw [← Option.some.inj hs]
      exact hq
    next => cases hs

namespace Ended

/-- The event leaves the RTO timer as the queue needs it. -/
def keepsRto (h : Ended) (e : LifeEvent) : Bool := h.finished || (e.event?.map h.conn.keepsRto).getD true

/-- Before `tcp_done` the timers fit the queue. -/
def Watched (h : Ended) : Prop := h.conn.sk.fault = false → h.finished = false → h.conn.sk.Guarded

theorem Watched.step {h : Ended} (hw : h.Watched) (hi : h.Inv) {e : LifeEvent} (hk : h.keepsRto e) : (h.step e).Watched := by
  intro hf hfin
  simp only [Ended.step, Bool.or_eq_false_iff] at hf hfin
  obtain ⟨hold, hnow⟩ := hfin
  simp only [keepsRto, hold, Bool.false_or] at hk
  cases hft : h.conn.sk.fault with
  | true =>
    -- a faulted process takes no step
    have hstay : (h.conn.live e).sk = h.conn.sk := by
      cases e with
      | conn e => exact congrArg Conn.sk (Conn.step_of_fault hft e)
      | listen => simp [Conn.live, hft]
      | connect d iss => simp [Conn.live, hft]
    rw [hstay, hft] at hf
    cases hf
  | false =>
    have hg := hw hft hold
    cases e with
    | conn e => exact Conn.step_guarded hg hi.readers.ready hk hnow hf
    | listen =>
      simp only [Ended.step, Conn.live, hft, Bool.false_eq_true, if_false]
      exact tcpV4Listen_guarded hg
    | connect d iss =>
      simp only [Ended.step, Conn.live, hft, Bool.false_eq_true, if_false]
      exact inetStreamConnect_guarded hg d iss

end Ended

/-- The states of a live connection. -/
def TcpState.connected (st : TcpState) : Bool :=
  st = .synSent || st = .synReceived || st = .established || st = .finWait1 || st = .closeWait || st = .closing || st = .lastAck

/-- What a socket's queue asks of its timers: with something queued a timer of
the current epoch is armed whose handler can retransmit, with nothing queued
none is. -/
def TcpSock.RtoCovered (s : TcpSock) : Prop :=
  (s.writeQueue ≠ [] → s.timing.Covers s.state) ∧ (s.writeQueue = [] → ¬s.timing.Live)

instance (s : TcpSock) : Decidable s.RtoCovered := inferInstanceAs (Decidable (_ ∧ _))

/-- **The retransmission timer covers the queue.** In a run of any socket whose
segments and sleeping closers leave the timer alone or put it right, every
state of the live connection that is reached, before `tcp_done`, has its timer
as the queue needs it. -/
theorem rto_timer_covers {s : TcpSock} (hb : Born s) {es : List LifeEvent}
    (hk : Machine.Meets Ended.step (fun h e => h.keepsRto e) { conn := { sk := s } } es) :
    let h := Machine.run Ended.step { conn := { sk := s } } es
    h.conn.sk.fault = false → h.finished = false → h.conn.sk.state.connected → h.conn.sk.RtoCovered := by
  intro h hf hfin hst
  have hi := hk.invariant (I := fun h => h.Inv ∧ h.Watched) (fun h e hk hi => ⟨hi.1.step e, hi.2.step hi.1 hk⟩)
    ⟨Ended.Inv.born hb, fun _ _ => hb.guarded⟩
  have hg : h.conn.sk.Guarded := hi.2 hf hfin
  have hgd : h.conn.sk.state.guarded := by
    generalize h.conn.sk.state = st at hst
    cases st <;> first | rfl | cases hst
  refine ⟨fun hq => hg.covers hgd (by simpa using hq), fun hq => hg.idle hgd (by simp [hq])⟩

/-- A client whose peer closes first, and which still has a byte to send. -/
def lastWordsRun : List LifeEvent :=
  [.connect {} 100, .conn synAckEvent,
   .conn (.segment { seq := 501, ackSeq := 101, ack := true, fin := true, win := 1000 } .nil false),
   .conn (.write [1]), .conn .close]

/-- It ends in LAST_ACK with the byte and the FIN queued and a timer armed. -/
theorem rto_timer_covers_lastWords :
    (Machine.run Ended.step { conn := { sk := freshSock {} } } lastWordsRun).conn.sk.state = .lastAck ∧
    (Machine.run Ended.step { conn := { sk := freshSock {} } } lastWordsRun).conn.sk.writeQueue.length = 2 ∧
    (Machine.run Ended.step { conn := { sk := freshSock {} } } lastWordsRun).conn.sk.RtoCovered :=
  ⟨by decide +kernel, by decide +kernel,
    rto_timer_covers (.fresh {}) (by decide +kernel) (by decide +kernel) (by decide +kernel) (by decide +kernel)⟩

/-- Simultaneous open: in SYN_RECEIVED the SYN and the SYN-ACK are queued, and
the only timer of the current epoch runs `tcp_connect_rto`. -/
theorem simultaneous_open_uncovered :
    let h := Machine.run Ended.step { conn := { sk := freshSock {} } }
      [.connect {} 100, .conn (.segment { seq := 500, ackSeq := 0, syn := true, win := 10000 } .nil false)]
    h.finished = false ∧ h.conn.sk.fault = false ∧ h.conn.sk.state = .synReceived ∧ h.conn.sk.writeQueue.length = 2 ∧
      ¬h.conn.sk.RtoCovered := by
  decide +kernel

end LevelIp
