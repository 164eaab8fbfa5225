/-
What the functions that are not quiet do to the core of a socket, one lemma
for each: ending a connection, queueing and numbering an skb, cleaning the
queue on an ACK, resending.
-/
import LevelIp.Core

namespace LevelIp

/-! ## Ending a connection -/

/-- The core after `tcp_done`. -/
def Core.done (c : Core) : Core :=
  { c with state := .closing, sockState := .disconnecting, rcv := { c.rcv with ofo := [] } }

theorem tcpDone_core (s : TcpSock) : (tcpDone s).core = s.core.done := by
  have h := (quiet_tcpClearTimers (s.setState .closing)).core
  simp only [TcpSock.core, Core.mk.injEq] at h
  obtain ⟨h1, h2, h3, h4, h5, h6, -, h7, h8⟩ := h
  simp only [tcpDone, socketDelete, tcpFree, TcpSock.wakeup, TcpSock.emit, TcpSock.core, Core.done, Core.mk.injEq]
  refine ⟨h1, h2, h3, h4, h5, h6, trivial, ?_, h8⟩
  simp only [TcpSock.rcv, RcvSide.mk.injEq] at h7 ⊢
  exact ⟨h7.1, h7.2.1, h7.2.2.1, h7.2.2.2.1, h7.2.2.2.2.1, trivial, h7.2.2.2.2.2.2⟩

theorem tcpDone_logs (s : TcpSock) {P : Effect → Prop} (hw : P (.wakeup .sleep)) : Logs P s (tcpDone s) := by
  have hfx : (tcpClearTimers (s.setState .closing)).fx = s.fx := by
    simp only [tcpClearTimers, tcpStopLinger, tcpStopDelackTimer, tcpStopRtoTimer, TcpSock.timerCancel]
    split <;> split <;> split <;> rfl
  exact ⟨[.wakeup .sleep], congrArg (· ++ [Effect.wakeup .sleep]) hfx, by simpa using hw⟩

theorem tcpEnterTimeWait_core (s : TcpSock) : (tcpEnterTimeWait s).core = { s.core with state := .timeWait } :=
  (quiet_tcpClearTimers (s.setState .timeWait)).core

theorem tcpEnterTimeWait_fx (s : TcpSock) : (tcpEnterTimeWait s).fx = s.fx := by
  simp only [tcpEnterTimeWait, TcpSock.timerAdd, tcpClearTimers, tcpStopLinger, tcpStopDelackTimer,
    tcpStopRtoTimer, TcpSock.timerCancel]
  split <;> split <;> split <;> rfl

theorem setState_core (s : TcpSock) (st : TcpState) : (s.setState st).core = { s.core with state := st } := rfl

/-- The core after `tcp_send_reset`. -/
def Core.reset (c : Core) : Core := { c with snd := { c.snd with una := c.snd.nxt } }

theorem tcpSendReset_core (s : TcpSock) : (tcpSendReset s).core = s.core.reset := tcpTransmitSkb_core _ _ _

theorem tcpSendReset_logs (s : TcpSock) : Logs s.core.Plain s (tcpSendReset s) :=
  (quiet_tcpTransmitSkb { s with tcb.sndUna := s.tcb.sndNxt } rfl rfl rfl).logs

theorem tcpAbort_core (s : TcpSock) : (tcpAbort s).core = s.core.reset.done := by
  rw [tcpAbort, tcpDone_core, tcpSendReset_core]

theorem tcpAbort_logs (s : TcpSock) : Logs s.core.Plain s (tcpAbort s) :=
  (tcpSendReset_logs s).trans (tcpDone_logs _ trivial)

/-! ## Queueing -/

/-- `skb` with the numbers the send side gives it next. -/
def SndSide.number (d : SndSide) (skb : Skb) : Skb := { skb with seq := d.nxt, endSeq := d.nxt + skb.dlen }

/-- The counters after `skb` was given a number. -/
def SndSide.advance (d : SndSide) (skb : Skb) : SndSide :=
  { d with
    nxt := if skb.fin then d.nxt + skb.dlen + 1 else d.nxt + skb.dlen
    inflight := d.inflight + skb.dlen }

/-- The send side after `tcp_queue_transmit_skb`. -/
def SndSide.enqueue (d : SndSide) (skb : Skb) : SndSide :=
  { d.advance skb with queue := d.queue ++ [(d.number skb).plain] }

theorem queueNumbered_core (s : TcpSock) (skb : Skb) :
    (queueNumbered s (numbered s skb)).core = { s.core with snd := s.core.snd.enqueue skb } := by
  simp only [queueNumbered, TcpSock.emit, TcpSock.core, TcpSock.snd, SndSide.enqueue, SndSide.advance, List.map_append,
    List.map_cons, List.map_nil]
  rfl

/-- The socket `tcp_queue_transmit_skb` transmits from. -/
def queuedSock (s : TcpSock) (skb : Skb) : TcpSock :=
  if s.writeQueue.isEmpty then tcpRearmRtoTimer (queueNumbered s (numbered s skb))
  else queueNumbered s (numbered s skb)

theorem quiet_queuedSock (s : TcpSock) (skb : Skb) : Quiet (queueNumbered s (numbered s skb)) (queuedSock s skb) :=
  .ite (quiet_tcpRearmRtoTimer _) (.refl _)

theorem queuedSock_core (s : TcpSock) (skb : Skb) :
    (queuedSock s skb).core = { s.core with snd := s.core.snd.enqueue skb } :=
  (quiet_queuedSock s skb).core.trans (queueNumbered_core s skb)

theorem tcpQueueTransmitSkb_core (s : TcpSock) (skb : Skb) :
    (tcpQueueTransmitSkb s skb).core = { s.core with snd := s.core.snd.enqueue skb } :=
  (tcpTransmitSkb_core (queuedSock s skb) _ _).trans (queuedSock_core s skb)

/-- What queueing logs: the mark, then the segment with the skb's own number. -/
theorem tcpQueueTransmitSkb_fx (s : TcpSock) (skb : Skb) : ∃ e,
    (tcpQueueTransmitSkb s skb).fx = s.fx ++ [.queued (numbered s skb) (s.inflight + skb.dlen) s.cwnd, e] ∧
    s.rcv.Sends skb s.tcb.sndNxt e := by
  have hq : (queuedSock s skb).fx = s.fx ++ [.queued (numbered s skb) (s.inflight + skb.dlen) s.cwnd] := by
    unfold queuedSock
    split <;> rfl
  have ht := tcpTransmitSkb_fx (queuedSock s skb) (numbered s skb) s.tcb.sndNxt
  have hs := segOf_sends (queuedSock s skb) (numbered s skb) s.tcb.sndNxt
  rw [show (queuedSock s skb).rcv = s.rcv from congrArg Core.rcv (queuedSock_core s skb)] at hs
  rw [hq, List.append_assoc] at ht
  exact ⟨_, ht, hs⟩

/-! ## Resending -/

/-- An skb of the queue sent again with its own number. -/
def Core.Resends (c : Core) (e : Effect) : Prop := ∃ skb ∈ c.snd.queue, c.rcv.Sends skb skb.seq e

theorem sends_plain {r : RcvSide} {skb : Skb} {seq : U32} {e : Effect} :
    r.Sends skb.plain seq e ↔ r.Sends skb seq e := by
  cases e <;> rfl

theorem tcpRetransmitCandidate_mem {s : TcpSock} {skb : Skb} (h : tcpRetransmitCandidate s = some skb) :
    skb ∈ s.writeQueue := by
  simp only [tcpRetransmitCandidate, Option.or_eq_some_iff] at h
  rcases h with h | ⟨-, h⟩
  · split at h
    · exact List.mem_of_find?_eq_some h
    · cases h
  · exact List.mem_of_head? h

theorem tcpFastRetransmit_core (s : TcpSock) : (tcpFastRetransmit s).core = s.core := by
  unfold tcpFastRetransmit
  split
  · rfl
  · exact tcpTransmitSkb_core _ _ _

theorem tcpFastRetransmit_logs (s : TcpSock) : Logs s.core.Resends s (tcpFastRetransmit s) := by
  unfold tcpFastRetransmit
  split
  · exact .refl s
  next skb h =>
    refine (tcpTransmitSkb_logs s skb skb.seq).mono fun e he => ?_
    exact ⟨skb.plain, List.mem_map_of_mem (tcpRetransmitCandidate_mem h), sends_plain.mpr he⟩

/-! ## `tcp_send_next` -/

/-- What `tcp_send_next` may do to one skb of the queue. -/
def Skb.Renum (k k' : Skb) : Prop := k' = k ∨ k.seq = 0 ∧ ∃ n, k' = { k with seq := n, endSeq := n + k.dlen }

/-- The send side `d'` after `tcp_send_next`, with what it sent: only an skb
whose `seq` is 0 is sent and renumbered. -/
structure SendNext (r : RcvSide) (d : SndSide) (es : List Effect) (d' : SndSide) : Prop where
  iss : d'.iss = d.iss
  una : d'.una = d.una
  wnd : d'.wnd = d.wnd
  scale : d'.scale = d.scale
  queue : List.Forall₂ Skb.Renum d.queue d'.queue
  emits : ∀ e ∈ es, ∃ k ∈ d.queue, k.seq = 0 ∧ ∃ n, r.Sends k n e
  idle : (∀ k ∈ d.queue, k.seq ≠ 0) → es = [] ∧ d' = d
  nxt : (∀ k ∈ d.queue, k.seq = 0 → k.payload.bytes = [] ∧ k.fin = false) → d'.nxt = d.nxt
  inflight : ∀ n < 2 ^ 31, d.inflight.toNat ≤ n → d.wnd.toNat ≤ n → d'.inflight.toNat ≤ n

theorem umin_le_right (x y : U32) : umin x y ≤ y := by
  unfold umin
  split
  · exact BitVec.le_refl y
  · bv_omega

theorem Skb.Renum.refl (k : Skb) : k.Renum k := .inl rfl

theorem renum_refl (q : List Skb) : List.Forall₂ Skb.Renum q q := List.forall₂_same.mpr fun k _ => .refl k

theorem renum_mem {q q' : List Skb} (h : List.Forall₂ Skb.Renum q q') {k : Skb} (hk : k ∈ q') :
    ∃ k₀ ∈ q, k₀.Renum k := by
  induction h with
  | nil => cases hk
  | cons hr _ ih =>
    rcases List.mem_cons.mp hk with rfl | hk
    · exact ⟨_, List.mem_cons_self, hr⟩
    · obtain ⟨k₀, hk₀, hr₀⟩ := ih hk
      exact ⟨k₀, List.mem_cons_of_mem _ hk₀, hr₀⟩

theorem Skb.Renum.plain {k k' : Skb} (h : k.Renum k') : k.plain.Renum k'.plain := by
  rcases h with rfl | ⟨h0, n, rfl⟩
  · exact .refl _
  · exact .inr ⟨h0, n, rfl⟩

/-- The socket one renumbering of `tcp_send_next` leaves. -/
def renumSock (s : TcpSock) (k : Skb) : TcpSock :=
  let s := tcpTransmitSkb s k s.tcb.sndNxt
  let k := numbered s k
  let nxt := s.tcb.sndNxt + k.dlen
  { s with tcb.sndNxt := if k.fin then nxt + 1 else nxt, inflight := s.inflight + k.dlen }

theorem renumSock_core (s : TcpSock) (k : Skb) :
    (renumSock s k).core = { s.core with snd := s.core.snd.advance k } := by
  have h := tcpTransmitSkb_core s k s.tcb.sndNxt
  simp only [TcpSock.core, TcpSock.snd, SndSide.advance, Core.mk.injEq, SndSide.mk.injEq] at h ⊢
  obtain ⟨h1, h2, h3, h4, h5, h6, h6', h7, h8, h9, h10, h11, h12, h13, h14⟩ := h
  refine ⟨h1, h2, h3, h4, h5, h6, h6', h7, h8, h9, ?_, h11, h12, ?_, h14⟩
  · simp only [renumSock, numbered, Skb.dlen, h10]
  · simp only [renumSock, numbered, Skb.dlen, h13]

theorem renumSock_fx (s : TcpSock) (k : Skb) :
    (renumSock s k).fx = s.fx ++ [.xmit (segOf s k s.tcb.sndNxt) s.unread.length] :=
  tcpTransmitSkb_fx s k s.tcb.sndNxt

namespace SendNext

variable {r : RcvSide} {d d' : SndSide} {es : List Effect} {k : Skb}

theorem none (r : RcvSide) (d : SndSide) : SendNext r d [] d where
  iss := rfl
  una := rfl
  wnd := rfl
  scale := rfl
  queue := renum_refl _
  emits := by simp
  idle _ := ⟨rfl, rfl⟩
  nxt _ := rfl
  inflight _ _ h _ := h

/-- An skb is passed over. -/
theorem skip (h : SendNext r d es d') (k : Skb) :
    SendNext r { d with queue := k :: d.queue } es { d' with queue := k :: d'.queue } where
  iss := h.iss
  una := h.una
  wnd := h.wnd
  scale := h.scale
  queue := .cons (.refl k) h.queue
  emits e he := by
    obtain ⟨k', hk', rest⟩ := h.emits e he
    exact ⟨k', List.mem_cons_of_mem _ hk', rest⟩
  idle h0 := by
    obtain ⟨he, hd⟩ := h.idle fun k' hk' => h0 k' (List.mem_cons_of_mem _ hk')
    exact ⟨he, by rw [hd]⟩
  nxt h0 := h.nxt fun k' hk' => h0 k' (List.mem_cons_of_mem _ hk')
  inflight := h.inflight

/-- An skb without a number is sent at `snd_nxt` and numbered. -/
theorem renum {e : Effect} (h : SendNext r (d.advance k) es d') (hk : k.seq = 0) (he : r.Sends k d.nxt e)
    (hfl : d.inflight + k.dlen ≤ d.wnd) :
    SendNext r { d with queue := k :: d.queue } (e :: es) { d' with queue := d.number k :: d'.queue } where
  iss := h.iss
  una := h.una
  wnd := h.wnd
  scale := h.scale
  queue := .cons (.inr ⟨hk, d.nxt, rfl⟩) h.queue
  emits e' he' := by
    rcases List.mem_cons.mp he' with rfl | he'
    · exact ⟨k, List.mem_cons_self, hk, d.nxt, he⟩
    · obtain ⟨k', hk', rest⟩ := h.emits e' he'
      exact ⟨k', List.mem_cons_of_mem _ hk', rest⟩
  idle h0 := absurd hk (h0 k List.mem_cons_self)
  nxt h0 := by
    obtain ⟨hb, hf⟩ := h0 k List.mem_cons_self hk
    have hd : k.dlen = 0 := Payload.len_eq_zero.mpr hb
    have hn := h.nxt fun k' hk' => h0 k' (List.mem_cons_of_mem _ hk')
    simpa [SndSide.advance, hf, hd] using hn
  inflight n hn hi hw := by
    refine h.inflight n hn ?_ hw
    have hd : k.dlen.toNat < 65536 := by
      simpa only [Skb.dlen, Payload.len_toNat] using k.payload.short
    simp only [SndSide.advance] at hi hw ⊢
    bv_omega

end SendNext

/-- The turn of the loop that sends: what is queued next and what it starts from. -/
theorem tcpSendNextLoop_turn {limit : U32} {amount : Nat} {visited rest : List Skb} {next : Skb} {s : TcpSock}
    (h0 : next.seq = 0) (hroom : ¬s.inflight + next.dlen > limit) :
    tcpSendNextLoop limit (amount + 1) visited (next :: rest) s =
      tcpSendNextLoop limit amount (visited ++ [s.snd.number next]) rest (renumSock s next) := by
  have h := congrArg (·.snd.nxt) (tcpTransmitSkb_core s next s.tcb.sndNxt)
  have hnum : numbered (tcpTransmitSkb s next s.tcb.sndNxt) next = s.snd.number next := by
    simp only [TcpSock.core, TcpSock.snd] at h
    simp only [numbered, SndSide.number, TcpSock.snd, h]
  rw [tcpSendNextLoop, if_neg (not_not.mpr h0), if_neg hroom, ← hnum]
  rfl

theorem tcpSendNextLoop_spec (limit : U32) (amount : Nat) (visited rest : List Skb) (s : TcpSock)
    (hl : limit ≤ s.tcb.sndWnd) : ∃ es d',
    (tcpSendNextLoop limit amount visited rest s).fx = s.fx ++ es ∧
    (tcpSendNextLoop limit amount visited rest s).core =
      { s.core with snd := { d' with queue := visited.map Skb.plain ++ d'.queue } } ∧
    SendNext s.rcv { s.snd with queue := rest.map Skb.plain } es d' := by
  induction rest generalizing amount visited s with
  | nil =>
    refine ⟨[], _, ?_, ?_, .none _ _⟩
    · cases amount <;> simp [tcpSendNextLoop]
    · cases amount <;> simp [tcpSendNextLoop, TcpSock.core, TcpSock.snd, TcpSock.rcv]
  | cons next rest ih =>
    -- the loop stops before this skb, with nothing sent
    have stop : ∃ es d', ({ s with writeQueue := visited ++ next :: rest } : TcpSock).fx = s.fx ++ es ∧
        ({ s with writeQueue := visited ++ next :: rest } : TcpSock).core =
          { s.core with snd := { d' with queue := visited.map Skb.plain ++ d'.queue } } ∧
        SendNext s.rcv { s.snd with queue := (next :: rest).map Skb.plain } es d' :=
      ⟨[], _, by simp, by simp [TcpSock.core, TcpSock.snd, TcpSock.rcv], .none _ _⟩
    cases amount with
    | zero => exact stop
    | succ amount =>
      by_cases h0 : next.seq = 0
      · by_cases hroom : s.inflight + next.dlen > limit
        · rw [tcpSendNextLoop, if_neg (not_not.mpr h0), if_pos hroom]
          exact stop
        · have hrcv : (renumSock s next).rcv = s.rcv := congrArg Core.rcv (renumSock_core s next)
          have hsnd : (renumSock s next).snd = s.snd.advance next := congrArg Core.snd (renumSock_core s next)
          obtain ⟨es, d', hfx, hc, hn⟩ := ih amount (visited ++ [s.snd.number next]) (renumSock s next)
            (hl.trans_eq (congrArg SndSide.wnd hsnd).symm)
          rw [hrcv, hsnd] at hn
          rw [tcpSendNextLoop_turn h0 hroom, hfx, hc, renumSock_fx, renumSock_core]
          refine ⟨_ :: es, { d' with queue := (s.snd.number next).plain :: d'.queue }, ?_, ?_,
            SendNext.renum (d := { s.snd with queue := rest.map Skb.plain }) (k := next.plain) hn
              h0 (sends_plain.mpr (segOf_sends s next s.tcb.sndNxt)) ?_⟩
          · rw [List.append_assoc]
            rfl
          · simp
          · simp only [Skb.plain, Skb.dlen, TcpSock.snd] at *
            bv_omega
      · obtain ⟨es, d', hfx, hc, hn⟩ := ih amount (visited ++ [next]) s hl
        rw [tcpSendNextLoop, if_pos h0]
        refine ⟨es, _, hfx, ?_, hn.skip next.plain⟩
        simpa using hc

/-- The loop does nothing where no skb is numbered 0, or the first such does not fit. -/
theorem tcpSendNextLoop_idle {limit : U32} {rest : List Skb} {s : TcpSock}
    (h : ∀ k, rest.find? (fun k => k.seq = 0) = some k → s.inflight + k.dlen > limit) (amount : Nat) (visited : List Skb) :
    tcpSendNextLoop limit amount visited rest s = { s with writeQueue := visited ++ rest } := by
  induction rest generalizing amount visited with
  | nil => cases amount <;> simp [tcpSendNextLoop]
  | cons next rest ih =>
    cases amount with
    | zero => rfl
    | succ amount =>
      rw [tcpSendNextLoop]
      by_cases h0 : next.seq = 0
      · have hr := h next (by simp [h0])
        rw [if_neg (not_not.mpr h0), if_pos hr]
      · rw [if_pos h0, ih fun k hk => h k (by rwa [List.find?_cons_of_neg (by simpa using h0)])]
        simp

/-- **`tcp_send_next`** on the send side. -/
theorem tcpSendNext_spec (s : TcpSock) (amount : Nat) (extra : U32) : ∃ es d',
    (tcpSendNext s amount extra).fx = s.fx ++ es ∧ (tcpSendNext s amount extra).core = { s.core with snd := d' } ∧
    SendNext s.core.rcv s.core.snd es d' := by
  obtain ⟨es, d', hfx, hc, hn⟩ := tcpSendNextLoop_spec (umin (s.cwnd + extra) s.tcb.sndWnd) amount [] s.writeQueue s
    (umin_le_right _ _)
  exact ⟨es, d', hfx, hc, hn⟩

/-! ## Cleaning the queue -/

/-- The test of `tcp_clean_rto_queue`: the sentinel 0 is never acknowledged. -/
def Skb.covered (a : U32) (k : Skb) : Bool := 0 < k.seq && k.endSeq ≤ a

/-- What `tcp_clean_rto_queue` leaves of the queue. -/
def cleanQueue (a : U32) (q : List Skb) : List Skb := q.dropWhile (Skb.covered a)

/-- What `tcp_clean_rto_queue` leaves of FlightSize. -/
def cleanFlight (a : U32) : List Skb → U32 → U32
  | [], fl => fl
  | k :: q, fl => if k.covered a then cleanFlight a q (if fl ≥ k.dlen then fl - k.dlen else 0) else fl

/-- The send side after `tcp_clean_rto_queue`. -/
def SndSide.clean (d : SndSide) (a : U32) : SndSide :=
  { d with queue := cleanQueue a d.queue, inflight := cleanFlight a d.queue d.inflight }

theorem covered_iff {a : U32} {k : Skb} : k.covered a = true ↔ k.seq > 0 ∧ k.endSeq ≤ a := by
  simp [Skb.covered]

theorem tcpCleanOne_core (s : TcpSock) (k : Skb) : (tcpCleanOne s k).core = { s.core with
    snd := { s.core.snd with inflight := if s.inflight ≥ k.dlen then s.inflight - k.dlen else 0 } } :=
  (quiet_tcpCongAvoid _ _).core

theorem tcpCongAvoid_fx (s : TcpSock) (acked : U32) : (tcpCongAvoid s acked).fx = s.fx := by
  unfold tcpCongAvoid
  split
  · rfl
  · split
    · rfl
    · split
      · rfl
      · dsimp only
        split <;> rfl

theorem tcpCleanOne_fx (s : TcpSock) (k : Skb) : (tcpCleanOne s k).fx = s.fx ++ [.wakeup .writeWait] :=
  tcpCongAvoid_fx _ _

/-- The loop changes the queue and FlightSize as `cleanQueue` and `cleanFlight` say. -/
theorem tcpCleanLoop_core (a : U32) (q : List Skb) (s : TcpSock) :
    (tcpCleanLoop a q s).core = { s.core with snd := { s.core.snd with
      queue := cleanQueue a (q.map Skb.plain), inflight := cleanFlight a (q.map Skb.plain) s.inflight } } := by
  induction q generalizing s with
  | nil => rfl
  | cons k q ih =>
    have hk : k.plain.covered a = k.covered a := rfl
    rw [tcpCleanLoop, List.map_cons]
    simp only [cleanQueue, cleanFlight, List.dropWhile_cons, hk, ← covered_iff]
    split
    · rw [ih, tcpCleanOne_core]
      have : (tcpCleanOne s k).inflight = _ := congrArg (·.snd.inflight) (tcpCleanOne_core s k)
      rw [this]
      rfl
    · rfl

theorem tcpCleanLoop_logs {P : Effect → Prop} (hw : P (.wakeup .writeWait)) (a : U32) (q : List Skb) (s : TcpSock) :
    Logs P s (tcpCleanLoop a q s) := by
  induction q generalizing s with
  | nil => exact .same rfl
  | cons k q ih =>
    rw [tcpCleanLoop]
    split
    · exact Logs.trans ⟨_, tcpCleanOne_fx s k, by simpa using hw⟩ (ih _)
    · exact .same rfl

theorem tcpCleanRtoQueue_quiet (s : TcpSock) (a : U32) :
    Quiet (tcpCleanLoop a s.writeQueue s) (tcpCleanRtoQueue s a) := by
  unfold tcpCleanRtoQueue
  dsimp only
  split
  · exact quiet_tcpStopRtoTimer _
  · exact .refl _

theorem tcpCleanRtoQueue_core (s : TcpSock) (a : U32) :
    (tcpCleanRtoQueue s a).core = { s.core with snd := s.core.snd.clean a } :=
  (tcpCleanRtoQueue_quiet s a).core.trans (tcpCleanLoop_core a s.writeQueue s)

theorem tcpStopRtoTimer_fx (s : TcpSock) : (tcpStopRtoTimer s).fx = s.fx := by
  unfold tcpStopRtoTimer TcpSock.timerCancel
  cases s.retransmit <;> rfl

theorem tcpRtt_fx (s : TcpSock) : (tcpRtt s).fx = s.fx := by
  unfold tcpRtt
  split
  · rfl
  · split
    · rfl
    · dsimp only
      split
      · rfl
      · split <;> rfl

/-- Cleaning the queue only wakes senders. -/
theorem tcpCleanRtoQueue_logs {P : Effect → Prop} (hw : P (.wakeup .writeWait)) (s : TcpSock) (a : U32) :
    Logs P s (tcpCleanRtoQueue s a) := by
  unfold tcpCleanRtoQueue
  dsimp only
  split
  · exact (tcpCleanLoop_logs hw _ _ _).trans (.same (tcpStopRtoTimer_fx _))
  · exact tcpCleanLoop_logs hw _ _ _

/-- The send side after a new ACK. -/
def SndSide.acked (d : SndSide) (a : U32) : SndSide := { d with una := a }.clean a

theorem newAck_core (s : TcpSock) (th : Tcphdr) :
    (newAck s th).core = { s.core with snd := s.core.snd.acked th.ackSeq } := by
  have hr : (tcpRtt { s with tcb.sndUna := th.ackSeq }).core =
      { s.core with snd := { s.core.snd with una := th.ackSeq } } := (quiet_tcpRtt _).core
  have hc := tcpCleanRtoQueue_core (tcpRtt { s with tcb.sndUna := th.ackSeq }) th.ackSeq
  rw [hr] at hc
  simp only [newAck]
  split
  · exact hc
  · exact hc

/-- A new ACK only wakes senders. -/
theorem newAck_logs {P : Effect → Prop} (hw : P (.wakeup .writeWait)) (s : TcpSock) (th : Tcphdr) : Logs P s (newAck s th) := by
  have h : Logs P s (tcpCleanRtoQueue (tcpRtt { s with tcb.sndUna := th.ackSeq }) th.ackSeq) :=
    Logs.trans (.same (tcpRtt_fx { s with tcb.sndUna := th.ackSeq })) (tcpCleanRtoQueue_logs hw _ _)
  simp only [newAck]
  split
  · exact h
  · exact h

end LevelIp
