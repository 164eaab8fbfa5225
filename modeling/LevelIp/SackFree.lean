/-
What does not touch SACK. Almost every function leaves the scoreboard alone,
records no blocks and sends none; `Calm` says so, and there is one lemma for
each of them. The exceptions are `tcp_parse_opts`, on a SYN, and the
out-of-order branch of `tcp_data_queue`.
-/
import LevelIp.Life

namespace LevelIp

/-! ## The blocks in an option area -/

/-- The SACK blocks `tcp_parse_opts` finds in an option area. -/
def optBlocks (opts : List U8) : List (U32 × U32) :=
  let o := tcpParseOptsLoop opts 40 { optlen := BitVec.ofNat 8 opts.length, sndScale := 0 }
  if o.sackSeen then o.blocks.take o.nblocks else []

theorem optBlocks_unseen {opts : List U8}
    (h : (tcpParseOptsLoop opts 40 { optlen := BitVec.ofNat 8 opts.length, sndScale := 0 }).sackSeen = false) : optBlocks opts = [] := by
  unfold optBlocks
  rw [if_neg (by rw [h]; exact Bool.false_ne_true)]

/-- The scanner's turn on an option that is no SACK. -/
theorem tcpParseOptsLoop_turn {data : List U8} {fuel : Nat} {o : OptScan} (h0 : o.sackSeen = false)
    (h : (tcpParseOptsLoop data fuel (tcpParseOpt data o)).sackSeen = false) : (tcpParseOptsLoop data (fuel + 1) o).sackSeen = false := by
  rw [tcpParseOptsLoop]
  split
  · exact h
  · exact h0

/-- Where no byte is a SACK's kind the scanner finds none. -/
theorem tcpParseOptsLoop_unseen {data : List U8} (fuel : Nat) {o : OptScan} (h0 : o.sackSeen = false)
    (h : ∀ i, o.ptr ≤ i → data.getD i 0 ≠ TCP_OPT_SACK) : (tcpParseOptsLoop data fuel o).sackSeen = false := by
  induction fuel generalizing o with
  | zero => exact h0
  | succ fuel ih =>
    have hp : (tcpParseOpt data o).sackSeen = o.sackSeen ∧ o.ptr ≤ (tcpParseOpt data o).ptr := by
      have hk := h o.ptr (le_refl _)
      unfold tcpParseOpt
      dsimp only
      split
      · exact ⟨rfl, by dsimp only; omega⟩
      split
      · exact ⟨rfl, by dsimp only; omega⟩
      split
      · exact ⟨rfl, by dsimp only; omega⟩
      split
      · exact ⟨rfl, by dsimp only; omega⟩
      split
      · exact ⟨rfl, by dsimp only; omega⟩
      · exact ⟨rfl, le_refl _⟩
    exact tcpParseOptsLoop_turn h0 (ih (hp.1.trans h0) fun i hi => h i (le_trans hp.2 hi))

theorem optBlocks_zeroes (n : Nat) : optBlocks (List.replicate n 0) = [] := by
  refine optBlocks_unseen (tcpParseOptsLoop_unseen _ rfl fun i _ => ?_)
  rw [List.getD_eq_getElem?_getD, List.getElem?_replicate]
  split <;> nofun

/-- Past the window scale option. -/
theorem optBlocks_scale (scale : U8) {rest : List U8} (h : ∀ i, rest.getD i 0 ≠ TCP_OPT_SACK) :
    optBlocks ([TCP_OPT_NOOP, TCP_OPT_WSO, 3, scale] ++ rest) = [] := by
  refine optBlocks_unseen (tcpParseOptsLoop_turn rfl (tcpParseOptsLoop_turn rfl (tcpParseOptsLoop_unseen _ rfl ?_)))
  intro i hi
  obtain ⟨j, rfl⟩ := Nat.exists_eq_add_of_le' (show 4 ≤ i from hi)
  exact h j

theorem optBlocks_syn (a b : U8) : optBlocks ([TCP_OPT_MSS, 4, a, b] ++ [TCP_OPT_NOOP, TCP_OPT_NOOP, TCP_OPT_SACK_OK, 2]) = [] := by
  refine optBlocks_unseen (tcpParseOptsLoop_turn rfl (tcpParseOptsLoop_unseen _ rfl ?_))
  intro i hi
  obtain ⟨j, rfl⟩ := Nat.exists_eq_add_of_le' (show 4 ≤ i from hi)
  match j with
  | 0 | 1 | 2 | 3 => nofun
  | j + 4 => nofun

/-- Neither the option area nor what is left of it behind a window scale option
has a SACK block. -/
structure SackFree (opts : List U8) : Prop where
  whole : optBlocks opts = []
  tail : ∀ i, (opts.drop 4).getD i 0 ≠ TCP_OPT_SACK

theorem sackFree_zeroes (n : Nat) : SackFree (List.replicate n 0) := by
  refine ⟨optBlocks_zeroes n, fun i => ?_⟩
  rw [List.drop_replicate, List.getD_eq_getElem?_getD, List.getElem?_replicate]
  split <;> nofun

theorem sackFree_syn {s : TcpSock} (h : s.sackok) : SackFree (tcpSynOptions s) := by
  rw [tcpSynOptions, if_pos h]
  refine ⟨optBlocks_syn _ _, fun i => ?_⟩
  match i with
  | 0 | 1 | 2 | 3 => nofun
  | i + 4 => nofun

/-- What a socket with nothing to report makes of such an option area. -/
theorem segOf_sackFree {s : TcpSock} {k : Skb} (hp : s.sackPending = false) (hk : SackFree k.opts) (seq : U32) :
    optBlocks (segOf s k seq).opts = [] := by
  show optBlocks (writtenOpts s k ++ k.opts.drop (writtenOpts s k).length) = []
  unfold writtenOpts
  split
  · simp only [tcpWriteOptionsBytes, hp, Bool.false_eq_true, if_false, List.append_nil]
    split
    · exact optBlocks_scale _ hk.tail
    · exact hk.whole
  · exact hk.whole

/-! ## Calm -/

/-- No segment with a SACK block. -/
def Effect.sackless : Effect → Prop
  | .xmit seg _ => optBlocks seg.opts = []
  | .queued _ _ _ | .peerFin | .wakeup _ | .acceptQueue _ => True

namespace TcpSock

/-- The scoreboard is empty. -/
structure Unmarked (s : TcpSock) : Prop where
  right : s.sackMaxRight = 0
  queue : ∀ k ∈ s.writeQueue, k.sacked = false

/-- Nothing is to be reported. -/
structure Unsaid (s : TcpSock) : Prop where
  pending : s.sackPending = false
  queue : ∀ k ∈ s.writeQueue, SackFree k.opts

/-- Every value that `sacks_allowed` and `sacklen` can have anywhere: both are
cleared with the socket, and only `tcp_calculate_sacks` and `tcp_write_options`
assign the second. -/
inductive SackCount : TcpSock → Prop
  | alloc {s : TcpSock} : s.sacksAllowed = 0 → s.sacklen = 0 → SackCount s
  | other {s t : TcpSock} : SackCount s → t.sacksAllowed = s.sacksAllowed → t.sacklen = s.sacklen → SackCount t
  | calculate {s : TcpSock} (seq endSeq : U32) : SackCount s → SackCount (tcpCalculateSacks s seq endSeq)
  | write {s : TcpSock} : SackCount s → SackCount (tcpWriteOptionsClear s)

/-- The fields SACK is about. -/
def sackView (s : TcpSock) : List Skb × U32 × Bool × U8 × U8 × List (U32 × U32) :=
  (s.writeQueue, s.sackMaxRight, s.sackok, s.sacksAllowed, s.sacklen, s.sacks)

end TcpSock

/-- From `s` to `t` nothing is marked, and nothing is left to be reported. -/
structure Tame (s t : TcpSock) : Prop where
  ok : t.sackok = s.sackok
  allowed : t.sacksAllowed = s.sacksAllowed
  count : s.SackCount → t.SackCount
  unmarked : s.Unmarked → t.Unmarked
  unsaid : s.Unsaid → t.Unsaid

/-- From `s` to `t` nothing happens about SACK. -/
structure Calm (s t : TcpSock) : Prop extends Tame s t where
  sends : s.Unsaid → Logs Effect.sackless s t

theorem Tame.trans {s t u : TcpSock} (h₁ : Tame s t) (h₂ : Tame t u) : Tame s u where
  ok := h₂.ok.trans h₁.ok
  allowed := h₂.allowed.trans h₁.allowed
  count := fun h => h₂.count (h₁.count h)
  unmarked := fun h => h₂.unmarked (h₁.unmarked h)
  unsaid := fun h => h₂.unsaid (h₁.unsaid h)

namespace Calm

variable {s t u : TcpSock}

theorem refl (s : TcpSock) : Calm s s := ⟨⟨rfl, rfl, id, id, id⟩, fun _ => .refl s⟩

theorem trans (h₁ : Calm s t) (h₂ : Calm t u) : Calm s u where
  toTame := h₁.toTame.trans h₂.toTame
  sends := fun h => (h₁.sends h).trans (h₂.sends (h₁.unsaid h))

/-- What leaves these fields alone is calm, if what it logs is. -/
theorem of_view (h : t.sackView = s.sackView) (hl : Logs Effect.sackless s t) : Calm s t := by
  simp only [TcpSock.sackView, Prod.mk.injEq] at h
  obtain ⟨hq, hr, hok, ha, hn, hb⟩ := h
  refine ⟨⟨hok, ha, fun hc => .other hc ha hn, fun hu => ⟨hr.trans hu.right, by rw [hq]; exact hu.queue⟩,
    fun hp => ⟨?_, by rw [hq]; exact hp.queue⟩⟩, fun _ => hl⟩
  have hp := hp.pending
  simp only [TcpSock.sackPending, hok, hn, hb] at hp ⊢
  exact hp

theorem same (h : t.sackView = s.sackView) (hf : t.fx = s.fx) : Calm s t := of_view h (.same hf)

/-- The queue may get skbs that look like those it had, or that are unmarked
and have nothing to report. -/
theorem of_queue (h : { t with writeQueue := s.writeQueue }.sackView = s.sackView) (hf : t.fx = s.fx)
    (hq : ∀ k ∈ t.writeQueue, (∃ k₀ ∈ s.writeQueue, k.sacked = k₀.sacked ∧ k.opts = k₀.opts) ∨
      k.sacked = false ∧ SackFree k.opts) : Calm s t := by
  simp only [TcpSock.sackView, Prod.mk.injEq] at h
  obtain ⟨-, hr, hok, ha, hn, hb⟩ := h
  refine ⟨⟨hok, ha, fun hc => .other hc ha hn, fun hu => ⟨hr.trans hu.right, fun k hk => ?_⟩, fun hp => ⟨?_, fun k hk => ?_⟩⟩,
    fun _ => .same hf⟩
  · rcases hq k hk with ⟨k₀, hk₀, hm, -⟩ | ⟨hm, -⟩
    · rw [hm]
      exact hu.queue k₀ hk₀
    · exact hm
  · have hp := hp.pending
    simp only [TcpSock.sackPending, hok, hn, hb] at hp ⊢
    exact hp
  · rcases hq k hk with ⟨k₀, hk₀, -, ho⟩ | ⟨-, ho⟩
    · rw [ho]
      exact hp.queue k₀ hk₀
    · exact ho

end Calm

section

variable (s : TcpSock)

theorem calm_wakeup (w : Wait) : Calm s (s.wakeup w) := .of_view rfl (.emit trivial)

theorem calm_timerCancel (t : Option Timer) : Calm s (s.timerCancel t) := by
  cases t <;> exact .same rfl rfl

theorem calm_tcpStopRtoTimer : Calm s (tcpStopRtoTimer s) := (calm_timerCancel s s.retransmit).trans (.same rfl rfl)

theorem calm_tcpStopDelackTimer : Calm s (tcpStopDelackTimer s) := (calm_timerCancel s s.delack).trans (.same rfl rfl)

theorem calm_tcpStopLinger : Calm s (tcpStopLinger s) := (calm_timerCancel s s.linger).trans (.same rfl rfl)

theorem calm_tcpClearTimers : Calm s (tcpClearTimers s) :=
  ((calm_tcpStopRtoTimer s).trans (calm_tcpStopDelackTimer _)).trans (calm_tcpStopLinger _)

theorem calm_tcpRearmRtoTimer : Calm s (tcpRearmRtoTimer s) := .same rfl rfl

theorem calm_tcpRearmUserTimeout : Calm s (tcpRearmUserTimeout s) := by
  unfold tcpRearmUserTimeout
  split
  · exact .refl s
  · exact (calm_timerCancel s s.linger).trans (.same rfl rfl)

theorem calm_tcpEnterTimeWait : Calm s (tcpEnterTimeWait s) :=
  .trans (t := s.setState .timeWait) (.same rfl rfl) ((calm_tcpClearTimers _).trans (.same rfl rfl))

theorem calm_tcpDone : Calm s (tcpDone s) := by
  refine .trans (t := s.setState .closing) (.same rfl rfl) ((calm_tcpClearTimers _).trans ?_)
  exact .trans (t := { tcpClearTimers (s.setState .closing) with ofoQueue := [] }) (.same rfl rfl)
    ((calm_wakeup _ .sleep).trans (.same rfl rfl))

theorem calm_tcpRtt : Calm s (tcpRtt s) := by
  unfold tcpRtt
  split
  · exact .refl s
  · split
    · exact .refl s
    · dsimp only
      split
      · exact .refl s
      · split <;> exact .same rfl rfl

theorem calm_tcpHandleFinState : Calm s (tcpHandleFinState s) := by
  unfold tcpHandleFinState
  split <;> exact .same rfl rfl

/-- Clearing the scoreboard. -/
theorem calm_tcpSackClear : Calm s (tcpSackClear s) := by
  refine ⟨⟨rfl, rfl, fun h => .other h rfl rfl, fun _ => ⟨rfl, fun k hk => ?_⟩, fun h => ⟨h.pending, fun k hk => ?_⟩⟩, fun _ => .same rfl⟩
  · obtain ⟨k₀, -, rfl⟩ := List.mem_map.mp hk
    rfl
  · obtain ⟨k₀, hk₀, rfl⟩ := List.mem_map.mp hk
    exact h.queue k₀ hk₀

variable {s}

/-- Sending an skb: the blocks there are go out with it. -/
theorem calm_tcpTransmitSkb {k : Skb} (hk : s.Unsaid → SackFree k.opts) (seq : U32) : Calm s (tcpTransmitSkb s k seq) := by
  have hc : ∀ t : TcpSock, t.Unsaid → tcpWriteOptionsClear t = t := fun t h => by
    rw [tcpWriteOptionsClear, if_neg (by rw [h.pending]; exact Bool.false_ne_true)]
  have hview : (tcpTransmitSkb s k seq).writeQueue = s.writeQueue ∧ (tcpTransmitSkb s k seq).sackMaxRight = s.sackMaxRight ∧
      (tcpTransmitSkb s k seq).sackok = s.sackok ∧ (tcpTransmitSkb s k seq).sacksAllowed = s.sacksAllowed := by
    unfold tcpTransmitSkb tcpWriteOptionsClear
    split
    · split <;> exact ⟨rfl, rfl, rfl, rfl⟩
    · exact ⟨rfl, rfl, rfl, rfl⟩
  have hcount : s.SackCount → (tcpTransmitSkb s k seq).SackCount := by
    unfold tcpTransmitSkb
    split
    · exact fun h => .other (.write h) rfl rfl
    · exact fun h => .other h rfl rfl
  refine ⟨⟨hview.2.2.1, hview.2.2.2, hcount, fun h => ⟨hview.2.1.trans h.right, by rw [hview.1]; exact h.queue⟩, fun h => ?_⟩, fun h => ?_⟩
  · have he : tcpTransmitSkb s k seq = s.emit (.xmit (segOf s k seq) s.unread.length) := by
      rw [tcpTransmitSkb, hc s h, ite_self]
    rw [he]
    exact ⟨h.pending, h.queue⟩
  · have he : tcpTransmitSkb s k seq = s.emit (.xmit (segOf s k seq) s.unread.length) := by
      rw [tcpTransmitSkb, hc s h, ite_self]
    rw [he]
    exact .emit (segOf_sackFree h.pending (hk h) seq)

variable (s)

theorem calm_tcpSendAck : Calm s (tcpSendAck s) := by
  unfold tcpSendAck
  split
  · exact .refl s
  · exact calm_tcpTransmitSkb (fun _ => sackFree_zeroes _) _

theorem calm_tcpSendReset : Calm s (tcpSendReset s) :=
  .trans (t := { s with tcb.sndUna := s.tcb.sndNxt }) (.same rfl rfl) (calm_tcpTransmitSkb (fun _ => sackFree_zeroes _) _)

theorem calm_tcpAbort : Calm s (tcpAbort s) := (calm_tcpSendReset s).trans (calm_tcpDone _)

theorem calm_tcpSendDelack : Calm s (tcpSendDelack s) :=
  .trans (t := tcpReleaseDelackTimer { s with delacks := 0 }) (.same rfl rfl) (calm_tcpSendAck _)

/-! ## Queueing and sending -/

/-- An skb that is not marked and has nothing to report goes out. -/
theorem calm_tcpQueueTransmitSkb {k : Skb} (hm : k.sacked = false) (ho : SackFree k.opts) : Calm s (tcpQueueTransmitSkb s k) := by
  have hq : Calm s (queueNumbered s (numbered s k)) := by
    refine .trans (t := { s with writeQueue := s.writeQueue ++ [numbered s k] }) (.of_queue rfl rfl fun k' hk' => ?_)
      (.of_view rfl (.emit trivial))
    rcases List.mem_append.mp hk' with hk' | hk'
    · exact .inl ⟨k', hk', rfl, rfl⟩
    · rw [List.mem_singleton.mp hk']
      exact .inr ⟨hm, ho⟩
  unfold tcpQueueTransmitSkb
  dsimp only
  split
  · exact (hq.trans (calm_tcpRearmRtoTimer _)).trans (calm_tcpTransmitSkb (fun _ => ho) _)
  · exact hq.trans (calm_tcpTransmitSkb (fun _ => ho) _)

theorem calm_tcpSendSynack : Calm s (tcpSendSynack s) := by
  unfold tcpSendSynack
  split
  · exact .refl s
  · exact (calm_tcpQueueTransmitSkb s rfl (sackFree_zeroes _)).trans (.same rfl rfl)

theorem calm_tcpConnect (h : s.state = .close) (hok : s.sackok) (iss : U32) : Calm s (tcpConnect s iss) := by
  rw [tcpConnect_eq h]
  have hs : Calm s (synSock s iss) := .same rfl rfl
  exact (hs.trans (calm_tcpQueueTransmitSkb _ rfl (sackFree_syn (s := synSock s iss) hok))).trans (.same rfl rfl)

theorem tcpTransmitSkb_withQueue (q : List Skb) (k : Skb) (seq : U32) :
    { tcpTransmitSkb s k seq with writeQueue := q } = tcpTransmitSkb { s with writeQueue := q } k seq := by
  have hp : { s with writeQueue := q }.sackPending = s.sackPending := rfl
  unfold tcpTransmitSkb tcpWriteOptionsClear
  rw [hp]
  split
  · split <;> rfl
  · rfl

/-- Renumbering skbs keeps marks and options. -/
theorem calm_tcpSendNextLoop (limit : U32) (amount : Nat) (done rest : List Skb) :
    Calm { s with writeQueue := done ++ rest } (tcpSendNextLoop limit amount done rest s) := by
  induction amount generalizing done rest s with
  | zero => exact .refl _
  | succ amount ih =>
    cases rest with
    | nil =>
      rw [List.append_nil]
      exact .refl _
    | cons next rest =>
      rw [tcpSendNextLoop]
      split
      · have h := ih s (done ++ [next]) rest
        rwa [List.append_assoc] at h
      split
      · exact .refl _
      · dsimp only
        have hsend : Calm { s with writeQueue := done ++ next :: rest }
            { tcpTransmitSkb s next s.tcb.sndNxt with writeQueue := done ++ next :: rest } := by
          rw [tcpTransmitSkb_withQueue]
          exact calm_tcpTransmitSkb (fun h => h.queue next (List.mem_append_right _ List.mem_cons_self)) _
        generalize tcpTransmitSkb s next s.tcb.sndNxt = t at hsend
        refine Calm.trans (hsend.trans ?_) (ih _ _ rest)
        refine .of_queue rfl rfl fun k hk => .inl ?_
        rcases List.mem_append.mp hk with hk | hk
        · rcases List.mem_append.mp hk with hk | hk
          · exact ⟨k, List.mem_append_left _ hk, rfl, rfl⟩
          · rw [List.mem_singleton.mp hk]
            exact ⟨next, List.mem_append_right _ List.mem_cons_self, rfl, rfl⟩
        · exact ⟨k, List.mem_append_right _ (List.mem_cons_of_mem _ hk), rfl, rfl⟩

theorem calm_tcpSendNext (amount : Nat) (extra : U32) : Calm s (tcpSendNext s amount extra) :=
  calm_tcpSendNextLoop s _ amount [] s.writeQueue

theorem calm_resend {k : Skb} (hk : k ∈ s.writeQueue) (seq : U32) : Calm s (tcpTransmitSkb s k seq) :=
  calm_tcpTransmitSkb (fun h => h.queue k hk) seq

theorem calm_tcpFastRetransmit : Calm s (tcpFastRetransmit s) := by
  unfold tcpFastRetransmit
  split
  · exact .refl s
  next k hk => exact calm_resend s (tcpRetransmitCandidate_mem hk) _

/-! ## What an ACK does -/

theorem tcpCleanOne_view (q : List Skb) (k : Skb) :
    { tcpCleanOne s k with writeQueue := q }.sackView = { s with writeQueue := q }.sackView := by
  unfold tcpCleanOne tcpCongAvoid
  dsimp only
  split
  · rfl
  split
  · rfl
  split
  · rfl
  · split <;> rfl

theorem calm_tcpCleanLoop (una : U32) (q : List Skb) : Calm { s with writeQueue := q } (tcpCleanLoop una q s) := by
  induction q generalizing s with
  | nil => exact .refl _
  | cons k q ih =>
    rw [tcpCleanLoop]
    split
    · refine Calm.trans ?_ (ih _)
      refine .trans (t := { s with writeQueue := q }) (.of_queue rfl rfl fun k' hk' => ?_) (.of_view (tcpCleanOne_view s q k) ?_)
      · exact .inl ⟨k', List.mem_cons_of_mem _ hk', rfl, rfl⟩
      · exact ⟨_, tcpCleanOne_fx s k, by simp [Effect.sackless]⟩
    · exact .refl _

theorem calm_tcpCleanRtoQueue (una : U32) : Calm s (tcpCleanRtoQueue s una) := by
  have h : Calm s (tcpCleanLoop una s.writeQueue s) := calm_tcpCleanLoop s una s.writeQueue
  unfold tcpCleanRtoQueue
  dsimp only
  split
  · exact h.trans (calm_tcpStopRtoTimer _)
  · exact h

theorem calm_newAck (th : Tcphdr) : Calm s (newAck s th) := by
  have h : Calm s (tcpCleanRtoQueue (tcpRtt { s with tcb.sndUna := th.ackSeq }) th.ackSeq) :=
    .trans (t := { s with tcb.sndUna := th.ackSeq }) (.same rfl rfl) ((calm_tcpRtt _).trans (calm_tcpCleanRtoQueue _ _))
  unfold newAck
  dsimp only
  split
  · exact h.trans (.same rfl rfl)
  · exact h

theorem calm_dupackAction : Calm s (dupackAction s).1 := by
  unfold dupackAction
  split
  · exact .refl s
  split
  · dsimp only [tcpEnterFastRecovery]
    refine .trans ?_ (calm_tcpRearmRtoTimer _)
    refine .trans (t := { s with ssthresh := umax (s.inflight / 2) (2 * U16.wide s.smss) }) (.same rfl rfl) ?_
    exact (calm_tcpFastRetransmit _).trans (.same rfl rfl)
  · exact .same rfl rfl

theorem calm_tcpHandleDupack : Calm s (tcpHandleDupack s) := by
  have h : Calm s (dupackAction { s with dupacks := s.dupacks + 1 }).1 :=
    .trans (t := { s with dupacks := s.dupacks + 1 }) (.same rfl rfl) (calm_dupackAction _)
  unfold tcpHandleDupack
  dsimp only
  split
  · exact h.trans (calm_tcpSendNext _ _ _)
  · exact h

theorem calm_ackSynchronized (th : Tcphdr) (skb : Skb) : Calm s (ackSynchronized s th skb).sock := by
  have hc : ∀ t : TcpSock, Calm t (ackChecked t th).sock := fun t => by
    unfold ackChecked
    split
    · exact .refl t
    split
    · exact .refl t
    · dsimp only [Ctl.sock]
      split <;> exact .same rfl rfl
  unfold ackSynchronized
  split
  · exact (calm_tcpHandleDupack s).trans (.same rfl rfl)
  split
  · exact (calm_newAck s th).trans (hc _)
  · exact hc s

theorem calm_ackField (th : Tcphdr) (skb : Skb) : Calm s (ackField s th skb).sock := by
  unfold ackField
  split
  case h_1 =>
    split
    · dsimp only
      split
      · exact .same rfl rfl
      next p _ =>
        refine .trans (t := (s.setState .established).emit (.acceptQueue p)) (.of_view rfl (.emit trivial)) ?_
        exact (calm_wakeup _ .acceptWait).trans (calm_ackSynchronized _ th skb)
    · exact .refl s
  case h_8 | h_9 | h_10 | h_11 => exact .refl s
  all_goals exact calm_ackSynchronized s th skb

theorem calm_finAcked (th : Tcphdr) : Calm s (finAcked s th).sock := by
  unfold finAcked
  split
  · split
    case h_3 => exact calm_tcpDone s
    case h_4 =>
      dsimp only [Ctl.sock]
      split
      · exact .trans (t := { s with flagFin := true }) (.same rfl rfl) (calm_tcpSendAck _)
      · exact .refl s
    all_goals exact .same rfl rfl
  · exact .refl s

theorem calm_finBit (th : Tcphdr) (expected : Bool) : Calm s (finBit s th expected).sock := by
  have hst : ∀ t : TcpSock, Calm t (finState t) := fun t => by
    unfold finState
    split
    · exact .same rfl rfl
    · exact .same rfl rfl
    · split
      · exact calm_tcpEnterTimeWait t
      · exact .same rfl rfl
    · exact calm_tcpEnterTimeWait t
    · exact .refl t
  unfold finBit
  split
  · split
    case h_1 | h_2 | h_3 => exact .refl s
    · dsimp only [Ctl.sock]
      refine .trans ?_ (hst _)
      refine .trans ?_ (calm_wakeup _ .recvWait)
      refine .trans ?_ (calm_tcpSendAck _)
      exact .of_view rfl (.emit trivial)
  · exact .refl s

theorem calm_ackData (th : Tcphdr) (skb : Skb) (expected : Bool) : Calm s (ackData s th skb expected) := by
  unfold ackData
  split
  case h_4 => exact .refl s
  all_goals
    split
    case isFalse => exact .refl s
    refine (calm_tcpStopDelackTimer s).trans ?_
    generalize tcpStopDelackTimer s = t
    dsimp only
    split
    · exact (calm_tcpSendNext _ _ _).trans (calm_tcpRearmRtoTimer _)
    · have hd : Calm t (if !th.psh && skb.dlen > 1000 then { t with delacks := t.delacks + 1 } else t) := by
        split
        · exact .same rfl rfl
        · exact .refl t
      refine hd.trans ?_
      generalize (if !th.psh && skb.dlen > 1000 then { t with delacks := t.delacks + 1 } else t) = u
      split
      · exact .trans (t := { u with delacks := 0 }) (.same rfl rfl) (calm_tcpSendAck _)
      · split
        · exact .same rfl rfl
        · exact .refl u

end

end LevelIp
