/-
SACK over whole runs. `tcp_data_queue` is the only function that records blocks,
and it sends them at once; the rest is calm. So between two events no block
waits to be sent, at most one is ever recorded, and nothing is marked.
-/
import LevelIp.Life
import LevelIp.SackFree

namespace LevelIp

/-! ## Recording blocks -/

/-- With `sacks_allowed` at zero the loop stops before it records anything. -/
theorem tcpCalculateSacksLoop_none {s : TcpSock} (h : s.sacksAllowed = 0) (seq endSeq : U32) (q : List Skb) (sb : Nat) :
    tcpCalculateSacksLoop seq endSeq q s sb = s := by
  induction q with
  | nil => rfl
  | cons next rest ih =>
    rw [tcpCalculateSacksLoop]
    split
    · exact ih
    · rw [if_pos]
      rw [h]
      exact BitVec.le_def.mpr (Nat.zero_le _)

/-- One block is recorded, that of the segment just received. -/
theorem tcpCalculateSacks_eq {s : TcpSock} (h : s.sacksAllowed = 0) (seq endSeq : U32) :
    tcpCalculateSacks s seq endSeq = { s with sacks := (seq, endSeq) :: List.replicate 3 (0, 0), sacklen := 1 } := by
  refine tcpCalculateSacksLoop_none ?_ seq endSeq s.ofoQueue 1
  exact h

/-- **At most one block**, at every point of every run. -/
theorem TcpSock.SackCount.bound {s : TcpSock} (h : s.SackCount) : s.sacksAllowed = 0 ∧ s.sacklen ≤ 1 := by
  induction h with
  | alloc ha hn => exact ⟨ha, hn ▸ by decide⟩
  | other _ ha hn ih => exact ⟨ha.trans ih.1, hn ▸ ih.2⟩
  | calculate seq endSeq _ ih =>
    rw [tcpCalculateSacks_eq ih.1]
    exact ⟨ih.1, by show (1 : U8) ≤ 1; decide⟩
  | write _ ih =>
    unfold tcpWriteOptionsClear
    split
    · exact ⟨ih.1, by show (0 : U8) ≤ 1; decide⟩
    · exact ih

/-- What `tcp_options_len` then comes to. -/
theorem TcpSock.SackCount.optionsLen {s : TcpSock} (h : s.SackCount) :
    (tcpOptionsLen s).toNat = (if s.wsoAllowed then 4 else 0) + if s.sackPending then 12 else 0 := by
  have hlen : s.sackPending → s.sacklen = 1 := by
    intro hp
    have hle := h.bound.2
    simp only [TcpSock.sackPending, Bool.and_eq_true, decide_eq_true_eq] at hp
    have hpos := hp.1.2
    bv_omega
  unfold tcpOptionsLen
  cases hp : s.sackPending with
  | false =>
    simp only [Bool.false_eq_true, if_false]
    cases s.wsoAllowed <;> rfl
  | true =>
    rw [hlen hp]
    cases s.wsoAllowed <;> rfl

/-- An ACK takes the recorded blocks with it. -/
theorem tcpSendAck_unpending {s : TcpSock} (hc : s.SackCount) (hs : s.state ≠ .close) : (tcpSendAck s).sackPending = false := by
  unfold tcpSendAck
  rw [if_neg hs, tcpTransmitSkb]
  cases hp : s.sackPending with
  | false =>
    have hclear : tcpWriteOptionsClear s = s := by rw [tcpWriteOptionsClear, if_neg (by rw [hp]; exact Bool.false_ne_true)]
    rw [hclear, ite_self]
    exact hp
  | true =>
    have hopts : 4 ≤ ({ tcpAllocSkb (tcpOptionsLen s).toNat Payload.nil with ack := true } : Skb).opts.length := by
      show 4 ≤ (List.replicate _ _).length
      rw [List.length_replicate, hc.optionsLen, if_pos hp]
      omega
    rw [if_pos hopts, tcpWriteOptionsClear, if_pos hp]
    show (s.sackok && decide ((0 : U8) > 0) && _) = false
    rw [show decide ((0 : U8) > 0) = false by decide, Bool.and_false, Bool.false_and]

theorem tcpSendAck_writeQueue (s : TcpSock) : (tcpSendAck s).writeQueue = s.writeQueue := by
  unfold tcpSendAck
  split
  · rfl
  · unfold tcpTransmitSkb tcpWriteOptionsClear
    split
    · split <;> rfl
    · rfl

/-- **`tcp_data_queue`** leaves nothing to be reported. -/
theorem tame_tcpDataQueue {s : TcpSock} (hc : s.SackCount) (hs : s.state ≠ .close) (skb : Skb) : Tame s (tcpDataQueue s skb) := by
  unfold tcpDataQueue
  split
  · exact (Calm.refl s).toTame
  split
  · refine (Calm.trans ?_ (calm_wakeup _ .recvWait)).toTame
    exact .same rfl rfl
  · have hins : ∀ t : TcpSock, t.sackView = s.sackView → t.fx = s.fx → t.state = s.state →
        Tame s (tcpSendAck (if t.sackok then tcpCalculateSacks t skb.seq skb.endSeq else t)) := by
      intro t hview hf hst
      have ht : Calm s t := .same hview hf
      have hct := ht.count hc
      split
      · -- the blocks are recorded and sent
        have heq := tcpCalculateSacks_eq hct.bound.1 skb.seq skb.endSeq
        have hcount := hct.calculate skb.seq skb.endSeq
        have hack := (calm_tcpSendAck (tcpCalculateSacks t skb.seq skb.endSeq)).toTame
        have hstate : (tcpCalculateSacks t skb.seq skb.endSeq).state ≠ .close := by
          rw [heq]
          exact hst ▸ hs
        have hnone := tcpSendAck_unpending hcount hstate
        have hqueue : (tcpSendAck (tcpCalculateSacks t skb.seq skb.endSeq)).writeQueue = t.writeQueue := by
          rw [tcpSendAck_writeQueue, heq]
        rw [heq] at hack
        rw [heq] at hcount hnone hqueue ⊢
        exact ⟨hack.ok.trans ht.ok, hack.allowed.trans ht.allowed, fun _ => hack.count hcount,
          fun h => hack.unmarked ⟨(ht.unmarked h).right, (ht.unmarked h).queue⟩,
          fun h => ⟨hnone, by rw [hqueue]; exact (ht.unsaid h).queue⟩⟩
      · exact ht.toTame.trans (calm_tcpSendAck t).toTame
    exact hins _ rfl rfl rfl

/-! ## A segment -/

section

variable {s : TcpSock} (th : Tcphdr) (skb : Skb)

theorem tame_segmentText (hc : s.SackCount) : Tame s (segmentText s th skb) := by
  unfold segmentText
  split
  case h_4 => exact (Calm.refl s).toTame
  case h_1 h | h_2 h | h_3 h =>
    split
    · exact tame_tcpDataQueue hc (by rw [h]; exact nofun) skb
    · exact (Calm.refl s).toTame

theorem Ctl.andThen_tame {k : Ctl} {f : TcpSock → Ctl} (hk : Tame s k.sock) (hf : ∀ t, Tame s t → Tame t (f t).sock) :
    Tame s (k.andThen f).sock := by
  cases k with
  | ret t => exact hk
  | next t => exact Tame.trans hk (hf t hk)

theorem tame_afterAck (hc : s.SackCount) : Tame s (afterAck s th skb).sock := by
  unfold afterAck
  refine Ctl.andThen_tame (calm_finAcked s th).toTame fun t ht => ?_
  have htext := tame_segmentText th skb (ht.count hc)
  exact Ctl.andThen_tame (htext.trans (calm_finBit _ th _).toTame) fun u _ => (calm_ackData u th skb _).toTame

theorem tame_tcpInputOtherwise (hc : s.SackCount) : Tame s (tcpInputOtherwise s th skb) := by
  unfold tcpInputOtherwise
  split
  · split
    · exact (calm_tcpSendAck s).toTame
    · exact (Calm.refl s).toTame
  split
  · exact ((calm_tcpEnterTimeWait s).trans (calm_wakeup _ .recvWait)).toTame
  split
  · exact (Calm.refl s).toTame
  split
  · exact (Calm.refl s).toTame
  · exact Ctl.andThen_tame (calm_ackField s th skb).toTame fun t ht => tame_afterAck th skb (ht.count hc)

variable (s)

theorem calm_tcpReset : Calm s (tcpReset s) := by
  unfold tcpReset
  have hset : ∀ t : TcpSock, t.sackView = s.sackView → t.fx = s.fx → Calm s (tcpDone t) := fun t hv hf =>
    .trans (t := t) (.same hv hf) (calm_tcpDone t)
  dsimp only
  split
  · exact hset _ rfl rfl
  · exact hset _ rfl rfl
  · exact .same rfl rfl
  · exact hset _ rfl rfl

end

/-! ## The options of a SYN -/

/-- The blocks `tcp_parse_opts` finds in a header. -/
def Tcphdr.sackBlocks (th : Tcphdr) : List (U32 × U32) :=
  let o := tcpParseOptsLoop th.data 40 { optlen := (th.hl.setWidth 8 <<< 2) - 20, sndScale := 0 }
  if o.sackSeen then o.blocks.take o.nblocks else []

/-- The window scale plays no part in the scan. -/
theorem tcpParseOptsLoop_sndScale (data : List U8) (fuel : Nat) (o : OptScan) (a : U8) :
    ∃ x, tcpParseOptsLoop data fuel { o with sndScale := a } = { tcpParseOptsLoop data fuel o with sndScale := x } := by
  have hturn : ∀ (o : OptScan) (a : U8), ∃ x, tcpParseOpt data { o with sndScale := a } = { tcpParseOpt data o with sndScale := x } := by
    intro o a
    unfold tcpParseOpt
    dsimp only
    split
    · exact ⟨_, rfl⟩
    split
    · exact ⟨_, rfl⟩
    split
    · exact ⟨_, rfl⟩
    split
    · exact ⟨_, rfl⟩
    split
    · exact ⟨_, rfl⟩
    split
    · exact ⟨_, rfl⟩
    · exact ⟨_, rfl⟩
  induction fuel generalizing o a with
  | zero => exact ⟨a, rfl⟩
  | succ fuel ih =>
    rw [tcpParseOptsLoop, tcpParseOptsLoop]
    dsimp only
    split
    · obtain ⟨x, hx⟩ := hturn o a
      rw [hx]
      exact ih _ x
    · exact ⟨a, rfl⟩

/-- `tcp_parse_opts` marks by the header's blocks. -/
theorem tcpParseOpts_blocks (s : TcpSock) (th : Tcphdr) :
    ∃ scale, tcpParseOpts s th = tcpSackMarkWriteQueue { s with sndScale := scale, tsopt := false }
      (if s.sackok then th.sackBlocks else []) := by
  obtain ⟨x, hx⟩ := tcpParseOptsLoop_sndScale th.data 40 { optlen := (th.hl.setWidth 8 <<< 2) - 20, sndScale := 0 } s.sndScale
  have hnone : ∀ t : TcpSock, tcpSackMarkWriteQueue t [] = t := fun t => by
    unfold tcpSackMarkWriteQueue
    simp
  refine ⟨x, ?_⟩
  unfold tcpParseOpts Tcphdr.sackBlocks
  dsimp only at hx ⊢
  rw [hx]
  generalize tcpParseOptsLoop th.data 40 { optlen := (th.hl.setWidth 8 <<< 2) - 20, sndScale := 0 } = o
  dsimp only
  cases o.sackSeen with
  | false =>
    rw [Bool.false_and, if_neg Bool.false_ne_true, if_neg Bool.false_ne_true, ite_self, hnone]
  | true =>
    rw [Bool.true_and, if_pos rfl]
    cases s.sackok with
    | false => exact (hnone _).symm
    | true => rfl

/-- A calm function run after an update that SACK is not about. -/
theorem Calm.after {s t u : TcpSock} (h : Calm t u) (hv : t.sackView = s.sackView) (hf : t.fx = s.fx) : Calm s u :=
  (Calm.same hv hf).trans h

/-- From `s` to `t` SACK is as before, up to the marks of a SYN's options. -/
structure SynTame (th : Tcphdr) (s t : TcpSock) : Prop where
  ok : t.sackok = s.sackok
  count : s.SackCount → t.SackCount
  unsaid : s.Unsaid → t.Unsaid
  tame : (th.syn → th.sackBlocks = []) → Tame s t

/-- And no block is sent. -/
structure SynCalm (th : Tcphdr) (s t : TcpSock) : Prop extends SynTame th s t where
  sends : s.Unsaid → Logs Effect.sackless s t

theorem SynCalm.trans {th : Tcphdr} {s t u : TcpSock} (h₁ : SynCalm th s t) (h₂ : SynCalm th t u) : SynCalm th s u where
  ok := h₂.ok.trans h₁.ok
  count := fun h => h₂.count (h₁.count h)
  unsaid := fun h => h₂.unsaid (h₁.unsaid h)
  tame := fun h => (h₁.tame h).trans (h₂.tame h)
  sends := fun h => (h₁.sends h).trans (h₂.sends (h₁.unsaid h))

theorem Tame.synTame {s t : TcpSock} (h : Tame s t) (th : Tcphdr) : SynTame th s t := ⟨h.ok, h.count, h.unsaid, fun _ => h⟩

theorem Calm.synCalm {s t : TcpSock} (h : Calm s t) (th : Tcphdr) : SynCalm th s t := ⟨h.toTame.synTame th, h.sends⟩

/-- The option scan of a SYN. -/
theorem synCalm_tcpParseOpts (s : TcpSock) {th : Tcphdr} (hsyn : th.syn) : SynCalm th s (tcpParseOpts s th) := by
  obtain ⟨x, hx⟩ := tcpParseOpts_blocks s th
  rw [hx]
  refine ⟨⟨rfl, fun h => .other h rfl rfl, fun h => ⟨h.pending, fun k hk => ?_⟩, fun hnone => ?_⟩, fun _ => .same rfl⟩
  · -- the marks leave the options alone
    generalize (if s.sackok then th.sackBlocks else []) = bs at hk
    obtain ⟨k₀, hk₀, rfl⟩ := List.mem_map.mp hk
    have hopts := h.queue k₀ hk₀
    split <;> exact hopts
  · rw [hnone hsyn, ite_self]
    have hmark : tcpSackMarkWriteQueue { s with sndScale := x, tsopt := false } [] = { s with sndScale := x, tsopt := false } := by
      unfold tcpSackMarkWriteQueue
      simp
    rw [hmark]
    exact Calm.toTame (.same rfl rfl)

/-- The socket opens. -/
theorem synCalm_synsentEstablish (s : TcpSock) {th : Tcphdr} (hsyn : th.syn) : SynCalm th s (synsentEstablish s th) := by
  have hopen : Calm s (tcpRearmUserTimeout (tcpSendAck (openedSock s th))) :=
    .trans (t := openedSock s th) (.same rfl rfl) ((calm_tcpSendAck _).trans (calm_tcpRearmUserTimeout _))
  have hparse : SynCalm th s (tcpParseOpts (tcpRearmUserTimeout (tcpSendAck (openedSock s th))) th) :=
    (hopen.synCalm th).trans (synCalm_tcpParseOpts _ hsyn)
  have hdone : ∀ t : TcpSock, Calm t (sockConnected (updateSndWin t th.win)) := fun t => by
    unfold sockConnected
    refine .trans ?_ (calm_wakeup _ .sleep)
    exact .same rfl rfl
  exact hparse.trans ((hdone _).synCalm th)

theorem synCalm_tcpSynsent (s : TcpSock) (th : Tcphdr) : SynCalm th s (tcpSynsent s th) := by
  rw [tcpSynsent_eq]
  split
  · exact (Calm.refl s).synCalm th
  split
  · exact (Calm.refl s).synCalm th
  split
  · exact (calm_tcpReset s).synCalm th
  split
  · exact (Calm.refl s).synCalm th
  next hnsyn =>
    have hsyn : th.syn := by simpa using hnsyn
    have hack : Calm s (synAckedSock s th) := by
      unfold synAckedSock
      split
      · exact .trans (t := { syncedSock s th with tcb.sndUna := th.ackSeq }) (.same rfl rfl) (calm_tcpCleanRtoQueue _ _)
      · exact .same rfl rfl
    refine (hack.synCalm th).trans ?_
    unfold synTaken
    split
    · exact synCalm_synsentEstablish _ hsyn
    · refine Calm.synCalm ?_ th
      refine .trans ?_ (calm_tcpSendSynack _)
      exact .same rfl rfl

/-- **A segment**: it marks nothing, but for the options of a SYN that opens the
connection. -/
theorem synTame_segmentArrives {s : TcpSock} (hc : s.SackCount) (th : Tcphdr) (skb : Skb) :
    SynTame th s (segmentArrives s th skb) ∧ (s.state ≠ .synSent → Tame s (segmentArrives s th skb)) := by
  have htame : ∀ {t : TcpSock}, Tame s t → SynTame th s t ∧ (s.state ≠ .synSent → Tame s t) := fun h => ⟨h.synTame th, fun _ => h⟩
  unfold segmentArrives
  split
  · refine htame (Calm.toTame ?_)
    unfold tcpClosed
    split
    · exact .refl s
    · exact calm_tcpSendReset s
  · exact htame (Calm.refl s).toTame
  next hs => exact ⟨(synCalm_tcpSynsent s th).toSynTame, fun hne => absurd hs hne⟩
  · exact htame (tame_tcpInputOtherwise th skb hc)

/-! ## Calls and timers -/

section

variable (s : TcpSock)

theorem calm_tcpSendLoop (mss : U16) (len fuel : Nat) (buf : List U8) : Calm s (tcpSendLoop mss len fuel s buf).1 := by
  induction fuel generalizing s buf with
  | zero =>
    cases buf with
    | nil => exact calm_tcpRearmUserTimeout s
    | cons b buf => exact .refl s
  | succ fuel ih =>
    cases buf with
    | nil => exact calm_tcpRearmUserTimeout s
    | cons b buf =>
      rw [tcpSendLoop]
      split
      · exact (calm_tcpQueueTransmitSkb s rfl (sackFree_zeroes 0)).trans (ih _ _)
      · exact .refl s

theorem calm_tcpWrite (buf : List U8) : Calm s (tcpWrite s buf).1 := by
  unfold tcpWrite
  split
  · exact calm_tcpSendLoop s _ _ _ _
  · exact .refl s

theorem calm_tcpReceiveTurn (len : Nat) (got : List U8) : Calm s (tcpReceiveTurn s len got).1 := by
  have hcopy : ∀ n, Calm s (tcpDataDequeue s n).1 := fun n => by
    unfold tcpDataDequeue
    dsimp only
    split <;> exact .same rfl rfl
  unfold tcpReceiveTurn
  dsimp only
  split
  · refine (hcopy (len - got.length)).trans ?_
    exact (calm_tcpRearmUserTimeout { (tcpDataDequeue s (len - got.length)).1 with flagPsh := false }).after rfl rfl
  split
  · exact (hcopy _).trans (calm_tcpRearmUserTimeout _)
  split
  · split
    · exact hcopy _
    · exact (hcopy _).trans (calm_tcpRearmUserTimeout _)
  · exact hcopy _

theorem calm_tcpRead (len : Nat) : Calm s (tcpRead s len).1 := by
  have hreceive : Calm s (tcpReceive s len).1 := by
    unfold tcpReceive
    split
    · exact calm_tcpReceiveTurn s len []
    · exact calm_tcpRearmUserTimeout s
  unfold tcpRead
  split
  case h_8 =>
    split
    · exact .same rfl rfl
    · exact hreceive
  case h_1 | h_9 | h_10 | h_11 => exact .refl s
  all_goals exact hreceive

theorem calm_tcpQueueFin (lastAck : Bool) : Calm s (tcpQueueFin s lastAck).1 := by
  have hqueue : Calm s (tcpQueueTransmitSkb s finSkb) := calm_tcpQueueTransmitSkb s rfl (sackFree_zeroes 0)
  unfold tcpQueueFin
  split
  · dsimp only
    split
    · exact hqueue.trans (.same rfl rfl)
    · exact hqueue
  · exact .refl s

theorem calm_tcpClose : Calm s (tcpClose s).1 := by
  unfold tcpClose
  split
  case h_7 | h_8 | h_9 => exact calm_tcpDone s
  case h_10 => exact (calm_tcpQueueFin (s.setState .finWait1) false).after rfl rfl
  case h_11 => exact calm_tcpQueueFin s true
  all_goals exact .same rfl rfl

theorem calm_resumeSend (call : Call) : Calm s (resumeSend s call).1 := by
  cases call with
  | send mss chunk rest len =>
    rw [resumeSend]
    split
    · exact (calm_tcpQueueTransmitSkb s rfl (sackFree_zeroes 0)).trans (calm_tcpSendLoop _ _ _ _ _)
    · exact .refl s
  | fin lastAck => exact calm_tcpQueueFin s lastAck
  | recv len got => exact .refl s

theorem calm_tcpConnectRto (epoch : Nat) : Calm s (tcpConnectRto s epoch) := by
  have hrelease : Calm s (tcpReleaseRtoTimer s) := .same rfl rfl
  unfold tcpConnectRto
  split
  · exact .refl s
  dsimp only
  split
  · split
    · exact hrelease.trans ((calm_tcpDone _).after rfl rfl)
    · split
      · exact hrelease
      next k hk =>
        have hsend := calm_resend (tcpReleaseRtoTimer s) (List.mem_of_mem_head? hk) (tcpReleaseRtoTimer s).tcb.sndUna
        exact (hrelease.trans hsend).trans ((calm_tcpRearmRtoTimer _).after rfl rfl)
  · exact hrelease

/-- The RTO handler clears the marks. -/
theorem calm_tcpRetransmissionTimeout (epoch : Nat) : Calm s (tcpRetransmissionTimeout s epoch) := by
  rcases tcpRetransmissionTimeout_cases s epoch with ⟨-, he⟩ | ⟨-, -, he⟩ | ⟨k, -, hk, he⟩
  · rw [he]
    exact .refl s
  · rw [he]
    unfold rtoIdle
    dsimp only
    split
    · exact (calm_wakeup _ .sleep).after rfl rfl
    · exact .same rfl rfl
  · rw [he]
    have hclear : Calm s (rtoSock s) := (calm_tcpSackClear _).after rfl rfl
    have hsend : Calm (rtoSock s) (tcpTransmitSkb (rtoSock s) k (rtoSock s).tcb.sndUna) :=
      calm_tcpTransmitSkb (fun h => h.queue { k with sacked := false } (List.mem_map_of_mem (List.mem_of_mem_head? hk))) _
    refine (hclear.trans hsend).trans ?_
    generalize tcpTransmitSkb (rtoSock s) k (rtoSock s).tcb.sndUna = t
    have harm : Calm t (tcpRearmRtoTimer { t with rto := t.rto * 2, backoff := t.backoff + 1 }) := (calm_tcpRearmRtoTimer _).after rfl rfl
    unfold rtoTail
    split
    · exact (calm_tcpDone t).trans (.same rfl rfl)
    split
    · exact harm.trans (calm_tcpHandleFinState _)
    · exact harm

theorem calm_runHandler (x : Handler) : Calm s (runHandler s x) := by
  cases x with
  | connectRto epoch => exact calm_tcpConnectRto s epoch
  | retransmissionTimeout epoch => exact calm_tcpRetransmissionTimeout s epoch
  | sendDelack => exact calm_tcpSendDelack s
  | linger => exact (calm_tcpStopLinger s).trans (calm_tcpDone _)
  | userTimeout => exact (calm_tcpStopLinger s).trans (calm_tcpAbort _)

end

/-! ## Runs -/

namespace Conn

/-- Something calm happens to the socket of `c`. -/
theorem calm_settle {c : Conn} {r : TcpSock × Outcome} {s : TcpSock} (h : Calm s r.1) : Calm s (c.settle r).sk := by
  rcases settle_sk c r with he | ⟨-, he⟩
  · rw [he]
    exact h
  · rw [he]
    exact h.trans (.same rfl rfl)

theorem calm_resume (c : Conn) (i : Nat) : Calm c.sk (c.resume i).sk := by
  unfold resume
  split
  · exact .refl _
  · rw [settleRead_sk]
    exact calm_tcpReceiveTurn _ _ _
  · exact calm_settle (calm_resumeSend _ _)

/-- **Every event but a segment is calm.** -/
theorem calm_step (c : Conn) {e : Event} (he : ∀ th data psh, e ≠ .segment th data psh) : Calm c.sk (c.step e).sk := by
  unfold step
  split
  · exact .refl _
  · cases e with
    | segment th data psh => exact absurd rfl (he th data psh)
    | write buf => exact calm_settle (calm_tcpWrite _ _)
    | read len =>
      dsimp only
      rw [settleRead_sk]
      exact calm_tcpRead _ _
    | close => exact calm_settle (calm_tcpClose _)
    | abort => exact calm_tcpAbort _
    | resume i => exact calm_resume c i
    | dispatch i =>
      dsimp only [dispatch]
      split
      · exact .refl _
      · exact .same rfl rfl
    | handler i =>
      dsimp only [handle]
      split
      · exact .refl _
      · exact (calm_runHandler _ _).after rfl rfl
    | tick ms => exact .same rfl rfl
    | fcntl nonblock => exact .same rfl rfl
    | adjustPmtu6 mss =>
      dsimp only [adjustPmtu6]
      split
      · exact .same rfl rfl
      · exact .refl _

/-- One event. -/
theorem step_sack {c : Conn} (hc : c.sk.SackCount) (e : Event) : (c.step e).sk.sackok = c.sk.sackok ∧ (c.step e).sk.SackCount ∧
    (c.sk.Unsaid → (c.step e).sk.Unsaid) ∧ ((∀ th data psh, e = .segment th data psh → c.sk.state = .synSent → th.syn → th.sackBlocks = []) → Tame c.sk (c.step e).sk) := by
  have htame : ∀ {t : TcpSock} {P : Prop}, Tame c.sk t →
      t.sackok = c.sk.sackok ∧ t.SackCount ∧ (c.sk.Unsaid → t.Unsaid) ∧ (P → Tame c.sk t) :=
    fun h => ⟨h.ok, h.count hc, h.unsaid, fun _ => h⟩
  by_cases hseg : ∃ th data psh, e = .segment th data psh
  · obtain ⟨th, data, psh, rfl⟩ := hseg
    unfold step
    split
    · exact htame (Calm.refl _).toTame
    · obtain ⟨hsyn, hother⟩ := synTame_segmentArrives hc th (tcpInitSegment th data psh)
      refine ⟨hsyn.ok, hsyn.count hc, hsyn.unsaid, fun h => ?_⟩
      by_cases hs : c.sk.state = .synSent
      · exact hsyn.tame (h th data psh rfl hs)
      · exact hother hs
  · exact htame (calm_step c fun th data psh he => hseg ⟨th, data, psh, he⟩).toTame

end Conn

/-- What every socket has: the option is on, and at most one block counted. -/
structure TcpSock.SackLife (s : TcpSock) : Prop where
  ok : s.sackok
  count : s.SackCount

theorem Tame.sackLife {s t : TcpSock} (h : Tame s t) (hs : s.SackLife) : t.SackLife := ⟨h.ok.trans hs.ok, h.count hs.count⟩

/-- Connecting and listening are calm. -/
theorem calm_inetStreamConnect {s : TcpSock} (hok : s.sackok) (d : Dest) (iss : U32) : Calm s (inetStreamConnect s d iss) := by
  rcases inetStreamConnect_cases s d iss with ⟨hst, he⟩ | ⟨err, he⟩
  · rw [he]
    have hd : Calm (s.addressed d) (tcpConnect (s.addressed d) iss) := by
      refine calm_tcpConnect _ ?_ ?_ iss
      · exact hst
      · exact hok
    have hs : Calm s (tcpConnect (s.addressed d) iss) := hd.after rfl rfl
    exact hs.trans (.same rfl rfl)
  · rw [he]
    exact .same rfl rfl

theorem calm_tcpV4Listen (s : TcpSock) : Calm s (tcpV4Listen s) := by
  rcases tcpV4Listen_cases s with ⟨-, he⟩ | he
  · rw [he]
    exact .same rfl rfl
  · rw [he]
    exact .refl s

/-- **At most one block** is counted in a socket's whole life. -/
theorem Conn.live_sackLife {c : Conn} (hc : c.sk.SackLife) (e : LifeEvent) : (c.live e).sk.SackLife := by
  cases e with
  | listen =>
    rw [live]
    split
    · exact hc
    · exact (calm_tcpV4Listen c.sk).toTame.sackLife hc
  | connect d iss =>
    rw [live]
    split
    · exact hc
    · exact (calm_inetStreamConnect hc.ok d iss).toTame.sackLife hc
  | conn e =>
    obtain ⟨hok, hcount, -, -⟩ := Conn.step_sack hc.count e
    exact ⟨hok.trans hc.ok, hcount⟩

/-- Nor does one wait to be sent between two events. -/
theorem Conn.live_unsaid {c : Conn} (hc : c.sk.SackLife) (hu : c.sk.Unsaid) (e : LifeEvent) : (c.live e).sk.Unsaid := by
  cases e with
  | listen =>
    rw [live]
    split
    · exact hu
    · exact (calm_tcpV4Listen c.sk).unsaid hu
  | connect d iss =>
    rw [live]
    split
    · exact hu
    · exact (calm_inetStreamConnect hc.ok d iss).unsaid hu
  | conn e => exact (Conn.step_sack hc.count e).2.2.1 hu

/-- A child, with its SYN's options. -/
theorem forkSocket_sack (l : TcpSock) {th : Tcphdr} (hsyn : th.syn) (env : SynEnv) :
    (forkSocket l th env).SackLife ∧ (forkSocket l th env).Unsaid ∧ (th.sackBlocks = [] → (forkSocket l th env).Unmarked) := by
  have hfresh : (tcpAllocSock.setState .synReceived).Unmarked := ⟨rfl, List.forall_mem_nil _⟩
  have hquiet : (tcpAllocSock.setState .synReceived).Unsaid := ⟨rfl, List.forall_mem_nil _⟩
  have hparse := synCalm_tcpParseOpts (tcpAllocSock.setState .synReceived) hsyn
  have hlife : (tcpParseOpts (tcpAllocSock.setState .synReceived) th).SackLife := ⟨hparse.ok, hparse.count (.alloc rfl rfl)⟩
  have hunsaid := hparse.unsaid hquiet
  have hmarks : th.sackBlocks = [] → (tcpParseOpts (tcpAllocSock.setState .synReceived) th).Unmarked :=
    fun h => (hparse.tame fun _ => h).unmarked hfresh
  have hset : ∀ {t : TcpSock}, t.sackView = (tcpParseOpts (tcpAllocSock.setState .synReceived) th).sackView →
      t.fx = (tcpParseOpts (tcpAllocSock.setState .synReceived) th).fx → t.SackLife ∧ t.Unsaid ∧ (th.sackBlocks = [] → t.Unmarked) := by
    intro t hv hf
    have hcalm := Calm.same hv hf
    exact ⟨⟨hcalm.ok.trans hlife.ok, hcalm.count hlife.count⟩, hcalm.unsaid hunsaid, fun h => hcalm.unmarked (hmarks h)⟩
  unfold forkSocket
  dsimp only
  split
  · exact hset rfl rfl
  · exact hset rfl rfl

theorem tcpListen_sack {l s : TcpSock} {th : Tcphdr} {env : SynEnv} (hs : tcpListen l th env = some s) :
    s.SackLife ∧ s.Unsaid ∧ (th.sackBlocks = [] → s.Unmarked) := by
  unfold tcpListen at hs
  split at hs
  next hsyn =>
    cases hs
    have hack : Calm (forkSocket l th env) (tcpSendSynack { forkSocket l th env with ptsk := some env.listener }) :=
      (calm_tcpSendSynack _).after rfl rfl
    obtain ⟨hlife, hunsaid, hmarks⟩ := forkSocket_sack l hsyn env
    -- the SYN is counted again
    generalize tcpSendSynack { forkSocket l th env with ptsk := some env.listener } = t at hack
    have hcalm : Calm (forkSocket l th env) { t with tcb.sndNxt := t.tcb.sndNxt + 1 } := hack.trans (.same rfl rfl)
    exact ⟨hcalm.toTame.sackLife hlife, hcalm.unsaid hunsaid, fun h => hcalm.unmarked (hmarks h)⟩
  · cases hs

theorem Born.sackLife {s : TcpSock} (hb : Born s) : s.SackLife ∧ s.Unsaid := by
  cases hb with
  | fresh o => exact ⟨⟨rfl, .alloc rfl rfl⟩, ⟨rfl, List.forall_mem_nil _⟩⟩
  | forked hl hs => exact ⟨(tcpListen_sack hs).1, (tcpListen_sack hs).2.1⟩

end LevelIp
