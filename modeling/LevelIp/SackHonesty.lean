/-
Whether the blocks that are sent are held. The one block an ACK reports is taken
from the segment that triggers it, not from `ofo_queue`, and
`tcp_data_insert_ordered` may have dropped that segment for another with its
number.
-/
import LevelIp.OptionWriting
import LevelIp.PushMark
import LevelIp.SackRun
import LevelIp.Lib.Serial

namespace LevelIp

/-! ## The block on the wire -/

/-- The blocks a socket writes are read back, unless the area is full. -/
theorem TcpSock.Writes.read {s : TcpSock} {bs : List (U32 × U32)} (h : s.Writes bs) (hshort : (tcpWriteOptionsBytes s).length < 40) :
    optBlocks (tcpWriteOptionsBytes s) = bs := by
  have hat : OptScan.At (tcpWriteOptionsBytes s) { optlen := BitVec.ofNat 8 (tcpWriteOptionsBytes s).length, sndScale := 0 }
      (tcpWriteOptionsBytes s) := by
    refine ⟨⟨[], (List.append_nil _).symm⟩, ?_, hshort⟩
    rw [BitVec.toNat_ofNat]
    omega
  have hhanded := (tcpParseOptsLoop_known hat (Nat.le_of_lt hshort) h.split fun x hx => (writtenOptions_known s bs x hx).1).2
  rw [writtenOptions_seen, writtenOptions_blocks] at hhanded
  unfold optBlocks
  unfold OptScan.handed at hhanded
  split at hhanded
  next hseen =>
    rw [if_pos hseen]
    split at hhanded
    · cases hhanded
    · exact Option.some.inj hhanded
  next hseen =>
    rw [if_neg hseen]
    split at hhanded
    next hnil => exact hnil.symm
    next => cases hhanded

/-- One block recorded. -/
theorem writes_recorded {s : TcpSock} (hok : s.sackok) (ha : s.sacksAllowed = 0) {seq : U32} (h0 : seq ≠ 0) (endSeq : U32) :
    (tcpCalculateSacks s seq endSeq).Writes [(seq, endSeq)] := by
  rw [tcpCalculateSacks_eq ha]
  exact ⟨hok, rfl, rfl, Nat.le_add_left 1 3, by rintro b ⟨⟩; exact h0⟩

/-- **The ACK reports it.** -/
theorem tcpSendAck_reports {s : TcpSock} {b : U32 × U32} (h : s.Writes [b]) (hs : s.state ≠ .close) :
    ∃ seg n, (tcpSendAck s).fx = s.fx ++ [.xmit seg n] ∧ optBlocks seg.opts = [b] := by
  have hlen := h.length
  have hbytes := h.bytes_length
  rw [if_neg (List.cons_ne_nil _ _)] at hlen hbytes
  have hshort : (tcpWriteOptionsBytes s).length < 40 := by
    rw [hbytes, List.length_singleton]
    split <;> omega
  have hopts : 4 ≤ (tcpAllocSkb (tcpOptionsLen s).toNat Payload.nil).opts.length := by
    show 4 ≤ (List.replicate _ _).length
    rw [List.length_replicate, hlen]
    omega
  refine ⟨segOf s { tcpAllocSkb (tcpOptionsLen s).toNat Payload.nil with ack := true } s.tcb.sndNxt, s.unread.length, ?_, ?_⟩
  · unfold tcpSendAck
    rw [if_neg hs, tcpTransmitSkb, if_pos hopts]
    unfold tcpWriteOptionsClear
    split <;> rfl
  · -- the area is as long as what is written
    have harea : (List.replicate (tcpOptionsLen s).toNat (0 : U8)).drop (tcpWriteOptionsBytes s).length = [] := by
      rw [List.drop_replicate, hlen, hbytes, Nat.sub_self]
      rfl
    show optBlocks (writtenOpts s _ ++ (List.replicate (tcpOptionsLen s).toNat (0 : U8)).drop (writtenOpts s _).length) = [b]
    rw [writtenOpts, if_pos hopts, harea, List.append_nil, h.read hshort]

/-! ## A segment out of order -/

variable {s : TcpSock} {th : Tcphdr} {skb : Skb}

/-- The segment gets to its text, and `tcp_data_queue` puts it aside. -/
def TcpSock.setsAside (s : TcpSock) (th : Tcphdr) (skb : Skb) : Bool :=
  s.core.Heard th skb && s.ackOpens th skb && (th.psh || skb.dlen > 0) && s.tcb.rcvWnd ≠ 0 && skb.seq ≠ s.tcb.rcvNxt

/-- An acceptable segment that is not expected is not numbered 0. -/
theorem setsAside_seq (hseq : th.seq = skb.seq) (h : s.setsAside th skb) : skb.seq ≠ 0 := by
  simp only [TcpSock.setsAside, Bool.and_eq_true, decide_eq_true_eq] at h
  obtain ⟨⟨⟨⟨hh, -⟩, -⟩, -⟩, hne⟩ := h
  simp only [Core.Heard, RcvSide.verify, Bool.and_eq_true, Bool.not_eq_true', Bool.or_eq_false_iff, decide_eq_false_iff_not] at hh
  have hge : ¬th.seq < s.tcb.rcvNxt := hh.1.1.1.2.1
  rw [hseq] at hge
  rintro h0
  rw [h0] at hge hne
  exact hne (BitVec.eq_of_toNat_eq (by bv_omega))

/-- Up to its text nothing happens about SACK, and behind it nothing at all. -/
theorem segmentArrives_setsAside (h : s.setsAside th skb) : ∃ u, Calm s u ∧ u.rcv = s.rcv ∧ u.state.takesText ∧
    segmentArrives s th skb = tcpDataQueue u skb := by
  simp only [TcpSock.setsAside, Bool.and_eq_true, decide_eq_true_eq] at h
  obtain ⟨⟨⟨⟨hh, hopen⟩, htext⟩, -⟩, hne⟩ := h
  obtain ⟨t, ht, hst, hr⟩ := ackField_opens hopen
  obtain ⟨st, hfa, hst'⟩ := finAcked_textual hst th
  have hcalm : Calm s (t.setState st) := by
    have hack := calm_ackField s th skb
    rw [ht] at hack
    exact hack.trans (.same rfl rfl)
  have hexp : decide (skb.seq = (t.setState st).tcb.rcvNxt) = false := by
    rw [show (t.setState st).tcb.rcvNxt = s.tcb.rcvNxt from congrArg RcvSide.nxt hr]
    exact decide_eq_false hne
  refine ⟨t.setState st, hcalm, hr, hst', ?_⟩
  have hrun : ∀ u : TcpSock, ackData u th skb false = u := fun u => by
    unfold ackData
    split <;> rfl
  rw [segmentArrives_late (ackOpens_late hopen), tcpInputOtherwise_heard hh, ht, Ctl.andThen, afterAck_eq, hfa, Ctl.andThen, afterFin,
    hexp, segmentText_takes hst', if_pos htext, finBit, Bool.and_false, if_neg Bool.false_ne_true, Ctl.andThen, hrun]
  rfl

theorem Ctl.andThen_calm {k : Ctl} {f : TcpSock → Ctl} (hk : Calm s k.sock) (hf : ∀ t, Calm t (f t).sock) : Calm s (k.andThen f).sock := by
  cases k with
  | ret t => exact hk
  | next t => exact hk.trans (hf t)

/-- A segment that is not put aside makes no block. -/
theorem segmentArrives_inOrder (h : s.setsAside th skb = false) (hu : s.Unsaid) : Logs Effect.sackless s (segmentArrives s th skb) := by
  have hqueue : ∀ u : TcpSock, u.tcb.rcvWnd = 0 ∨ skb.seq = u.tcb.rcvNxt → Calm u (tcpDataQueue u skb) := by
    intro u hu
    unfold tcpDataQueue
    split
    · exact .refl u
    next hw =>
      rw [if_pos (hu.resolve_left hw)]
      refine Calm.trans ?_ (calm_wakeup _ .recvWait)
      exact .same rfl rfl
  have htext : s.core.Heard th skb → ∀ {t u}, ackField s th skb = .next t → finAcked t th = .next u → Calm u (segmentText u th skb) := by
    intro hh t u ht hfa
    cases hst : u.state.takesText with
    | false =>
      rw [segmentText_other hst]
      exact .refl u
    | true =>
      obtain ⟨hopen, hr⟩ := ackOpens_of_next ht (finAcked_text hfa hst)
      have hru : u.rcv = s.rcv := (finAcked_rcv hfa).trans hr
      rw [segmentText_takes hst]
      split
      next hx =>
        refine hqueue u ?_
        rw [show u.tcb.rcvWnd = s.tcb.rcvWnd from congrArg RcvSide.wnd hru, show u.tcb.rcvNxt = s.tcb.rcvNxt from congrArg RcvSide.nxt hru]
        by_contra hno
        obtain ⟨hw, hne⟩ := not_or.mp hno
        rw [TcpSock.setsAside, hh, hopen, hx, decide_eq_true hw, decide_eq_true hne] at h
        cases h
      next => exact .refl u
  have hheard : s.core.Heard th skb → Calm s ((ackField s th skb).andThen fun s => afterAck s th skb).sock := by
    intro hh
    have hack := calm_ackField s th skb
    cases ht : ackField s th skb with
    | ret t =>
      rw [ht] at hack
      exact hack
    | next t =>
      rw [ht] at hack
      have hfin := calm_finAcked t th
      rw [Ctl.andThen, afterAck_eq]
      cases hfa : finAcked t th with
      | ret u =>
        rw [hfa] at hfin
        exact hack.trans hfin
      | next u =>
        rw [hfa] at hfin
        have hafter : Calm u (afterFin u th skb).sock := by
          unfold afterFin
          exact Ctl.andThen_calm ((htext hh ht hfa).trans (calm_finBit _ th _)) fun v => calm_ackData v th skb _
        exact (hack.trans hfin).trans hafter
  unfold segmentArrives
  split
  · refine Calm.sends ?_ hu
    unfold tcpClosed
    split
    · exact .refl s
    · exact calm_tcpSendReset s
  · exact .refl s
  · exact (synCalm_tcpSynsent s th).sends hu
  · rcases tcpInputOtherwise_cases s th skb with ⟨hh, hrun⟩ | ⟨-, -, hrun⟩ | ⟨-, hrun | hrun⟩
    · rw [hrun]
      exact (hheard hh).sends hu
    · rw [hrun]
      exact ((calm_tcpEnterTimeWait s).trans (calm_wakeup _ .recvWait)).sends hu
    · rw [hrun]
      exact .refl s
    · rw [hrun]
      exact (calm_tcpSendAck s).sends hu

/-! ## What is held -/

/-- The skb has the byte numbered `x`. -/
def Skb.Has (k : Skb) (x : U32) : Prop := x - k.seq < k.dlen

instance (k : Skb) (x : U32) : Decidable (k.Has x) := inferInstanceAs (Decidable (_ < _))

/-- The byte numbered `x` is held in `ofo_queue`, or `rcv_nxt` is past it. -/
def TcpSock.Holds (s : TcpSock) (x : U32) : Prop := (∃ k ∈ s.ofoQueue, k.Has x) ∨ Serial.le s.tcb.rcvNxt x = false

instance (s : TcpSock) (x : U32) : Decidable (s.Holds x) := inferInstanceAs (Decidable (_ ∨ _))

/-- A segment reports only bytes that `s` holds. -/
def Effect.Honest (s : TcpSock) : Effect → Prop
  | .xmit seg _ => ∀ b ∈ optBlocks seg.opts, ∀ x, x - b.1 < b.2 - b.1 → s.Holds x
  | .queued _ _ _ | .peerFin | .wakeup _ | .acceptQueue _ => True

theorem Effect.sackless.honest {e : Effect} (h : e.sackless) (s : TcpSock) : e.Honest s := by
  cases e with
  | xmit seg n =>
    intro b hb
    rw [show optBlocks seg.opts = [] from h] at hb
    cases hb
  | _ => trivial

/-- With a place the segment is queued. -/
theorem mem_tcpDataInsertOrdered_placed {q : List Skb} (h : hasPlace skb.seq skb.endSeq q) : skb ∈ tcpDataInsertOrdered skb q := by
  induction q with
  | nil => exact List.mem_cons_self
  | cons next rest ih =>
    unfold hasPlace at h
    unfold tcpDataInsertOrdered
    split at h
    next hlt =>
      rw [if_pos hlt]
      split
      next hov =>
        rw [decide_eq_false (BitVec.not_le.mpr hov), Bool.false_or] at h
        exact List.mem_cons_of_mem _ (ih h)
      next => exact List.mem_cons_self
    next hlt =>
      simp only [Bool.and_eq_true, decide_eq_true_eq] at h
      rw [if_neg hlt, if_neg h.1]
      exact List.mem_cons_of_mem _ (ih h.2)

/-- What is put aside is reported. -/
theorem tcpDataQueue_reports {u : TcpSock} (hl : u.SackLife) (hst : u.state.takesText) (hw : u.tcb.rcvWnd ≠ 0)
    (hne : skb.seq ≠ u.tcb.rcvNxt) (h0 : skb.seq ≠ 0) : ∃ seg n, (tcpDataQueue u skb).fx = u.fx ++ [.xmit seg n] ∧
      optBlocks seg.opts = [(skb.seq, skb.endSeq)] := by
  have hsend : ∀ v : TcpSock, v.sackok → v.sacksAllowed = 0 → v.state = u.state →
      ∃ seg n, (tcpSendAck (tcpCalculateSacks v skb.seq skb.endSeq)).fx = v.fx ++ [.xmit seg n] ∧
        optBlocks seg.opts = [(skb.seq, skb.endSeq)] := by
    intro v hok ha hv
    have hwrites := writes_recorded hok ha h0 skb.endSeq
    rw [tcpCalculateSacks_eq ha] at hwrites ⊢
    refine tcpSendAck_reports hwrites fun hs => ?_
    rw [← hv, show v.state = .close from hs] at hst
    cases hst
  unfold tcpDataQueue
  rw [if_neg hw, if_neg hne]
  dsimp only
  rw [if_pos hl.ok]
  exact hsend { u with ofoQueue := tcpDataInsertOrdered skb u.ofoQueue } hl.ok hl.count.bound.1 rfl

/-- **A segment that is put aside** is reported as it is, and honestly so unless
it is dropped while a byte of it is missing. -/
theorem setsAside_honest_iff (hl : s.SackLife) (hu : s.Unsaid) (hseq : th.seq = skb.seq) (hend : skb.endSeq = skb.seq + skb.dlen)
    (h : s.setsAside th skb) : Logs (Effect.Honest (segmentArrives s th skb)) s (segmentArrives s th skb) ↔
      hasPlace skb.seq skb.endSeq s.ofoQueue ∨ ∀ x, skb.Has x → s.Holds x := by
  have h0 := setsAside_seq hseq h
  obtain ⟨u, hcalm, hr, hst, hrun⟩ := segmentArrives_setsAside h
  simp only [TcpSock.setsAside, Bool.and_eq_true, decide_eq_true_eq] at h
  obtain ⟨⟨-, hw⟩, hne⟩ := h
  obtain ⟨new, hfx, hnew⟩ := hcalm.sends hu
  have hwu : u.tcb.rcvWnd = s.tcb.rcvWnd := congrArg RcvSide.wnd hr
  have hnu : u.tcb.rcvNxt = s.tcb.rcvNxt := congrArg RcvSide.nxt hr
  obtain ⟨seg, n, hack, hblock⟩ := tcpDataQueue_reports (hcalm.toTame.sackLife hl) hst (hwu ▸ hw) (hnu ▸ hne) h0
  have hlog : (segmentArrives s th skb).fx = s.fx ++ (new ++ [.xmit seg n]) := by
    rw [hrun, hack, hfx, List.append_assoc]
  -- the queue
  have hrcv : (segmentArrives s th skb).rcv = s.rcv.insert skb := by
    rw [hrun]
    refine (congrArg Core.rcv (tcpDataQueue_core u skb)).trans ?_
    show u.rcv.take skb = _
    rw [hr, RcvSide.take, if_neg (show ¬s.rcv.wnd = 0 from hw), if_neg (show ¬skb.seq = s.rcv.nxt from hne)]
  have hofo : (segmentArrives s th skb).ofoQueue = tcpDataInsertOrdered skb s.ofoQueue := congrArg RcvSide.ofo hrcv
  have hnxt : (segmentArrives s th skb).tcb.rcvNxt = s.tcb.rcvNxt := congrArg RcvSide.nxt hrcv
  have hhonest : Logs (Effect.Honest (segmentArrives s th skb)) s (segmentArrives s th skb) ↔
      ∀ x, skb.Has x → (segmentArrives s th skb).Holds x := by
    have hblocks : (Effect.xmit seg n).Honest (segmentArrives s th skb) ↔ ∀ x, skb.Has x → (segmentArrives s th skb).Holds x := by
      show (∀ b ∈ optBlocks seg.opts, _) ↔ _
      rw [hblock]
      simp only [List.mem_singleton, forall_eq, hend, add_sub_cancel_left]
      rfl
    rw [← hblocks]
    constructor
    · rintro ⟨new', hfx', hall⟩
      rw [hlog, List.append_cancel_left_eq] at hfx'
      exact hall _ (hfx' ▸ List.mem_append_right _ (List.mem_singleton_self _))
    · intro hx
      refine ⟨_, hlog, fun e he => ?_⟩
      rcases List.mem_append.mp he with he | he
      · exact (hnew e he).honest _
      · rw [List.mem_singleton.mp he]
        exact hx
  rw [hhonest]
  unfold TcpSock.Holds
  rw [hofo, hnxt]
  cases hp : hasPlace skb.seq skb.endSeq s.ofoQueue with
  | true => exact iff_of_true (fun x hx => .inl ⟨skb, mem_tcpDataInsertOrdered_placed hp, hx⟩) (.inl rfl)
  | false =>
    rw [tcpDataInsertOrdered_placeless hp]
    exact (or_iff_right Bool.false_ne_true).symm

/-! ## Every run -/

namespace Conn

/-- What the step sends reports only bytes held once it is done. -/
def SackHonest (c : Conn) (e : LifeEvent) : Prop := Logs (Effect.Honest (c.live e).sk) c.sk (c.live e).sk

/-- **The condition**: a segment that is put aside is queued there, or each of its
bytes is held already. -/
def KeepsAside (c : Conn) : LifeEvent → Prop
  | .conn (.segment th data psh) =>
    let skb := tcpInitSegment th data psh
    c.sk.fault = false → c.sk.setsAside th skb → hasPlace skb.seq skb.endSeq c.sk.ofoQueue ∨ ∀ x, skb.Has x → c.sk.Holds x
  | .conn _ | .listen | .connect _ _ => True

/-- One event. -/
theorem sackHonest_iff {c : Conn} (hl : c.sk.SackLife) (hu : c.sk.Unsaid) (e : LifeEvent) : c.SackHonest e ↔ c.KeepsAside e := by
  have honest : ∀ {e}, Logs Effect.sackless c.sk (c.live e).sk → c.SackHonest e := fun h => h.mono fun _ h => h.honest _
  by_cases hseg : ∃ th data psh, e = .conn (.segment th data psh)
  · obtain ⟨th, data, psh, rfl⟩ := hseg
    cases hf : c.sk.fault with
    | true =>
      have hstep : (c.live (.conn (.segment th data psh))).sk = c.sk := congrArg Conn.sk (step_of_fault hf (.segment th data psh))
      refine iff_of_true (honest (by rw [hstep]; exact .refl _)) fun hno => ?_
      rw [hf] at hno
      cases hno
    | false =>
      have hstep : (c.live (.conn (.segment th data psh))).sk = segmentArrives c.sk th (tcpInitSegment th data psh) := by
        simp [Conn.live, Conn.step, hf]
      cases ha : c.sk.setsAside th (tcpInitSegment th data psh) with
      | true =>
        have hiff := setsAside_honest_iff hl hu (show th.seq = (tcpInitSegment th data psh).seq from rfl) rfl ha
        unfold SackHonest
        rw [hstep, hiff]
        exact ⟨fun h _ _ => h, fun h => h hf ha⟩
      | false =>
        refine iff_of_true (honest ?_) fun _ hno => ?_
        · rw [hstep]
          exact segmentArrives_inOrder ha hu
        · rw [ha] at hno
          cases hno
  · have hkeeps : c.KeepsAside e := by
      unfold KeepsAside
      split
      next th data psh => exact absurd ⟨th, data, psh, rfl⟩ hseg
      all_goals trivial
    refine iff_of_true (honest ?_) hkeeps
    cases e with
    | listen =>
      rw [live]
      split
      · exact .refl _
      · exact (calm_tcpV4Listen c.sk).sends hu
    | connect d iss =>
      rw [live]
      split
      · exact .refl _
      · exact (calm_inetStreamConnect hl.ok d iss).sends hu
    | conn e => exact (calm_step c fun th data psh he => hseg ⟨th, data, psh, by rw [he]⟩).sends hu

/-- **SACK honesty**: in a run no block is reported whose bytes are not held, if
and only if no segment that is put aside is dropped while a byte of it is missing. -/
theorem sack_honest_iff {s : TcpSock} (hb : Born s) (es : List LifeEvent) :
    Machine.Meets live SackHonest { sk := s } es ↔ Machine.Meets live KeepsAside { sk := s } es :=
  Machine.Meets.iff_of_invariant (I := fun c : Conn => c.sk.SackLife ∧ c.sk.Unsaid)
    (fun _ e h => ⟨live_sackLife h.1 e, live_unsaid h.1 h.2 e⟩) (fun _ e h => sackHonest_iff h.1 h.2 e) hb.sackLife es

/-- A client that gets four bytes early, then all of them up to there. -/
theorem sack_honest_reordered : Machine.Meets live SackHonest { sk := freshSock {} }
    [.connect {} 100, .conn synAckEvent, .conn (dataEvent 511 ⟨[1, 2, 3, 4], by decide⟩),
      .conn (dataEvent 501 ⟨[1, 2, 3, 4, 5, 6, 7, 8, 9, 10], by decide⟩)] :=
  (sack_honest_iff (.fresh {}) _).mpr ⟨trivial, fun _ h => absurd h (by decide +kernel), fun _ _ => .inl (by decide +kernel),
    fun _ h => absurd h (by decide +kernel), trivial⟩

/-- Four early bytes, then eight with the same number. -/
def resegmented : List LifeEvent :=
  [.connect {} 100, .conn synAckEvent, .conn (dataEvent 511 (.ofTake 4 [1, 2, 3, 4])),
    .conn (dataEvent 511 (.ofTake 8 [1, 2, 3, 4, 5, 6, 7, 8]))]

/-- **Bytes 515 to 518 are reported and not held.** -/
theorem discarded_bytes_reported : ¬Machine.Meets live SackHonest { sk := freshSock {} } resegmented := by
  intro h
  have hsteps : resegmented = resegmented.take 3 ++ resegmented.drop 3 := rfl
  rw [hsteps, Machine.Meets.append] at h
  have hlife : (Machine.run live { sk := freshSock {} } (resegmented.take 3)).sk.SackLife ∧
      (Machine.run live { sk := freshSock {} } (resegmented.take 3)).sk.Unsaid :=
    Machine.invariant (I := fun c : Conn => c.sk.SackLife ∧ c.sk.Unsaid)
      (fun _ e h => ⟨live_sackLife h.1 e, live_unsaid h.1 h.2 e⟩) _ (Born.fresh {}).sackLife
  have hkeeps := (sackHonest_iff hlife.1 hlife.2 _).mp h.2.1
  rcases hkeeps (by decide +kernel) (by decide +kernel) with hplace | hheld
  · exact absurd hplace (by decide +kernel)
  · exact absurd (hheld 515 (by decide)) (by decide +kernel)

end Conn

end LevelIp
