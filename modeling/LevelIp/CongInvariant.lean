/-
The congestion-control variables stay in range: on a connection with the IPv4
MSS that sends fewer than 2^31 bytes, no addition to `cwnd`, `bytes_acked` or
`inflight` overflows, whatever the order of ACKs, duplicates and timeouts.

What bounds `cwnd` is a budget: growth is paid for by bytes acknowledged, and
inflation by the 8-bit count of duplicates, which starts over only at the entry
into recovery.
-/
import LevelIp.CongFlow
import LevelIp.Sleepers

namespace LevelIp

/-! ## One operation -/

namespace Cong

/-- The additions of an operation stay below 2^32. -/
def Fits (g : Cong) : CongOp → Prop
  | .acked n =>
    if n = 0 ∨ g.inRecovery then True
    else if g.cwnd < g.ssthresh then g.cwnd.toNat + (umin n (U16.wide g.smss)).toNat < 2 ^ 32
    else g.bytesAcked.toNat + n.toNat < 2 ^ 32 ∧ g.cwnd.toNat + g.smss.toNat < 2 ^ 32
  | .dup =>
    if g.dupacks + 1 < 3 then g.cwnd.toNat + (g.dupacks + 1).toNat * g.smss.toNat < 2 ^ 32
    else if g.dupacks + 1 = 3 then g.half.toNat + 3 * g.smss.toNat < 2 ^ 32
    else g.cwnd.toNat + g.smss.toNat < 2 ^ 32
  | .queued n | .sent n => g.inflight.toNat + n.toNat < 2 ^ 32
  | .exit | .timeout | .pmtu _ => True

/-- The inflation `dupacks` accounts for: the count wraps to 0 within a
recovery, and then no duplicate inflates before the next entry. -/
def inflation (g : Cong) : Nat :=
  if g.inRecovery then 536 * (if g.dupacks.toNat < 3 then 256 else g.dupacks.toNat) else 0

end Cong

/-- The largest window a 16-bit field scaled by 14 can advertise. -/
def maxWnd : Nat := 65535 * 2 ^ 14

/-- The variables are in range after `n` bytes have been acknowledged. -/
structure CongOk (n : Nat) (g : Cong) : Prop where
  smss : g.smss = 536
  cwnd : 536 ≤ g.cwnd.toNat
  ssthresh : 1072 ≤ g.ssthresh.toNat
  bytesAcked : g.bytesAcked.toNat < g.cwnd.toNat
  inflight : g.inflight.toNat ≤ maxWnd
  counts : g.inRecovery = false → g.dupacks.toNat < 3
  recovers : g.inRecovery → g.ssthresh.toNat ≤ 2 ^ 29
  budget : g.cwnd.toNat + g.bytesAcked.toNat ≤ 2 ^ 29 + n + g.inflation

theorem umin_toNat (x y : U32) : (umin x y).toNat = min x.toNat y.toNat := by
  unfold umin
  split
  next h => rw [Nat.min_eq_right (Nat.le_of_lt h)]
  next h => rw [Nat.min_eq_left (Nat.le_of_not_lt h)]

theorem umax_toNat (x y : U32) : (umax x y).toNat = max x.toNat y.toNat := by
  unfold umax
  split
  next h => rw [Nat.max_eq_left (Nat.le_of_lt h)]
  next h => rw [Nat.max_eq_right (Nat.le_of_not_lt h)]

namespace CongOk

variable {n : Nat} {g : Cong}

theorem wide_smss (h : CongOk n g) : U16.wide g.smss = 536 := by
  rw [h.smss]
  rfl

theorem smss_toNat (h : CongOk n g) : g.smss.toNat = 536 := by
  rw [h.smss]
  rfl

theorem inflation_le (g : Cong) : g.inflation ≤ 137216 := by
  have := g.dupacks.isLt
  unfold Cong.inflation
  split
  · split <;> omega
  · omega

/-- `cwnd` with the bytes counted towards its next step. -/
theorem total_lt (h : CongOk n g) (hn : n ≤ 2 ^ 31) : g.cwnd.toNat + g.bytesAcked.toNat < 2 ^ 32 - 65536 := by
  have h1 := h.budget
  have h2 := inflation_le g
  omega

theorem half_toNat (h : CongOk n g) : g.half.toNat = max (g.inflight.toNat / 2) 1072 := by
  rw [Cong.half, h.wide_smss, umax_toNat, BitVec.toNat_udiv]
  rfl

theorem half_le (h : CongOk n g) : 1072 ≤ g.half.toNat ∧ g.half.toNat ≤ 2 ^ 29 := by
  have h1 := h.inflight
  rw [h.half_toNat]
  unfold maxWnd at h1
  omega

theorem landed (h : CongOk n g) (k : U32) : CongOk n (g.landed k) :=
  { h with
    inflight := by
      have h1 := h.inflight
      simp only [Cong.landed]
      split
      next hk =>
        rw [BitVec.toNat_sub_of_le hk]
        omega
      next => exact Nat.zero_le _ }

/-- `tcp_cong_avoid`: growth in slow start is at most what was acknowledged; in
congestion avoidance a step of `cwnd` uses up `cwnd` counted bytes. -/
theorem avoid (h : CongOk n g) {k : U32} (hk : k.toNat ≤ 536) (hn : n + k.toNat ≤ 2 ^ 31) :
    g.Fits (.acked k) ∧ CongOk (n + k.toNat) (g.avoid k) := by
  have htot := h.total_lt (by omega)
  have hlow := h.cwnd
  have hlt := h.bytesAcked
  have hbud := h.budget
  have hm := h.wide_smss
  have h536 : (536 : U32).toNat = 536 := rfl
  simp only [Cong.Fits, Cong.avoid, hm, h.smss_toNat, umin_toNat, h536]
  by_cases h0 : k = 0
  · rw [if_pos (.inl h0), if_pos h0]
    exact ⟨trivial, { h with budget := by omega }⟩
  · rw [if_neg h0]
    by_cases hr : g.inRecovery
    · rw [if_pos (.inr hr), if_pos hr]
      exact ⟨trivial, { h with budget := by omega }⟩
    · rw [if_neg (not_or.mpr ⟨h0, hr⟩), if_neg hr]
      by_cases hs : g.cwnd < g.ssthresh
      · rw [if_pos hs, if_pos hs]
        have hadd : (g.cwnd + umin k 536).toNat = g.cwnd.toNat + min k.toNat 536 := by
          rw [BitVec.toNat_add, umin_toNat, h536]
          omega
        refine ⟨by omega, { h with cwnd := ?_, bytesAcked := ?_, budget := ?_ }⟩
        · show 536 ≤ (g.cwnd + umin k 536).toNat
          omega
        · show g.bytesAcked.toNat < (g.cwnd + umin k 536).toNat
          omega
        · show (g.cwnd + umin k 536).toNat + g.bytesAcked.toNat ≤ 2 ^ 29 + (n + k.toNat) + g.inflation
          omega
      · rw [if_neg hs, if_neg hs]
        have hb : (g.bytesAcked + k).toNat = g.bytesAcked.toNat + k.toNat := by
          rw [BitVec.toNat_add]
          omega
        have hw : (g.cwnd + 536).toNat = g.cwnd.toNat + 536 := by
          rw [BitVec.toNat_add, h536]
          omega
        refine ⟨⟨by omega, by omega⟩, ?_⟩
        split
        next hge =>
          have hsub : (g.bytesAcked + k - g.cwnd).toNat = g.bytesAcked.toNat + k.toNat - g.cwnd.toNat := by
            rw [BitVec.toNat_sub_of_le hge, hb]
          have hge : g.cwnd.toNat ≤ g.bytesAcked.toNat + k.toNat := by
            rw [← hb]
            exact hge
          refine ⟨h.smss, ?_, h.ssthresh, ?_, h.inflight, h.counts, h.recovers, ?_⟩
          · show 536 ≤ (g.cwnd + 536).toNat
            omega
          · show (g.bytesAcked + k - g.cwnd).toNat < (g.cwnd + 536).toNat
            omega
          · simp only [Cong.inflation] at hbud ⊢
            omega
        next hlt' =>
          have hlt' : g.bytesAcked.toNat + k.toNat < g.cwnd.toNat := by
            rw [← hb]
            exact BitVec.not_le.mp hlt'
          refine { h with bytesAcked := ?_, budget := ?_ }
          · show (g.bytesAcked + k).toNat < g.cwnd.toNat
            omega
          · show g.cwnd.toNat + (g.bytesAcked + k).toNat ≤ 2 ^ 29 + (n + k.toNat) + g.inflation
            omega

/-- A duplicate ACK: entry starts the budget anew, inflation stays within the
count. -/
theorem dup (h : CongOk n g) (hn : n ≤ 2 ^ 31) : g.Fits .dup ∧ CongOk n (g.apply .dup) := by
  have htot := h.total_lt hn
  have hlow := h.cwnd
  have hlt := h.bytesAcked
  have hbud := h.budget
  have hm := h.wide_smss
  have hhalf := h.half_le
  have hd := g.dupacks.isLt
  have hmod : (g.dupacks + 1).toNat = (g.dupacks.toNat + 1) % 256 := BitVec.toNat_add _ _
  have h536 : (536 : U32).toNat = 536 := rfl
  simp only [Cong.Fits, Cong.apply, Cong.counted, hm, h.smss_toNat]
  by_cases h1 : g.dupacks + 1 < 3
  · rw [if_pos h1, if_pos h1]
    have h1 : (g.dupacks + 1).toNat < 3 := h1
    refine ⟨by omega, { h with counts := fun _ => h1, budget := ?_ }⟩
    have hi : g.inflation ≤ Cong.inflation { g with dupacks := g.dupacks + 1 } := by
      simp only [Cong.inflation, h1, if_true]
      split
      · split <;> omega
      · exact Nat.le_refl 0
    exact hbud.trans (Nat.add_le_add_left hi _)
  · rw [if_neg h1, if_neg h1]
    have h1 : ¬(g.dupacks + 1).toNat < 3 := h1
    by_cases h2 : g.dupacks + 1 = 3
    · rw [if_pos h2, if_pos h2]
      have h3 : (3 * 536 : U32).toNat = 1608 := rfl
      have hadd : (g.half + 3 * 536).toNat = g.half.toNat + 1608 := by
        rw [BitVec.toNat_add, h3]
        omega
      refine ⟨by omega, ⟨h.smss, ?_, hhalf.1, ?_, h.inflight, by simp, fun _ => hhalf.2, ?_⟩⟩
      · show 536 ≤ (g.half + 3 * 536).toNat
        omega
      · show (0 : U32).toNat < (g.half + 3 * 536).toNat
        rw [hadd]
        exact Nat.add_pos_right _ (by decide)
      · show (g.half + 3 * 536).toNat + (0 : U32).toNat ≤ 2 ^ 29 + n + 536 *
            (if (g.dupacks + 1).toNat < 3 then 256 else (g.dupacks + 1).toNat)
        rw [h2, hadd]
        have : (0 : U32).toNat = 0 := rfl
        have : ¬(3 : U8).toNat < 3 := by decide
        have h3 : (3 : U8).toNat = 3 := rfl
        rw [if_neg this]
        omega
    · rw [if_neg h2, if_neg h2]
      have h3 : (g.dupacks + 1).toNat ≠ 3 := fun he => h2 (BitVec.eq_of_toNat_eq he)
      have hadd : (g.cwnd + 536).toNat = g.cwnd.toNat + 536 := by
        rw [BitVec.toNat_add, h536]
        omega
      -- a count past 3 belongs to a recovery
      have hr : g.inRecovery := by
        by_contra hr
        have := h.counts (by simpa using hr)
        omega
      have hi : Cong.inflation { g with cwnd := g.cwnd + 536, dupacks := g.dupacks + 1 } = g.inflation + 536 := by
        simp only [Cong.inflation, hr, if_true, h1, if_false]
        have : ¬g.dupacks.toNat < 3 := by omega
        rw [if_neg this]
        omega
      refine ⟨by omega, ⟨h.smss, ?_, h.ssthresh, ?_, h.inflight, ?_, h.recovers, ?_⟩⟩
      · show 536 ≤ (g.cwnd + 536).toNat
        omega
      · show g.bytesAcked.toNat < (g.cwnd + 536).toNat
        omega
      · exact fun hrec => absurd (hr.symm.trans hrec) (by simp)
      · rw [hi]
        show (g.cwnd + 536).toNat + g.bytesAcked.toNat ≤ _
        omega

/-- The end of recovery: `ssthresh` has been set at its entry. -/
theorem exit (h : CongOk n g) (hr : g.inRecovery) : CongOk n (g.apply .exit) := by
  have h1 := h.ssthresh
  have h2 := h.recovers hr
  refine ⟨h.smss, ?_, h.ssthresh, ?_, h.inflight, fun _ => (by decide : (0 : U8).toNat < 3), nofun, ?_⟩
  · show 536 ≤ g.ssthresh.toNat
    omega
  · show (0 : U32).toNat < g.ssthresh.toNat
    exact Nat.lt_of_lt_of_le (by decide) h1
  · show g.ssthresh.toNat + (0 : U32).toNat ≤ 2 ^ 29 + n + _
    have : (0 : U32).toNat = 0 := rfl
    omega

/-- A timeout. -/
theorem timeout (h : CongOk n g) : CongOk n (g.apply .timeout) := by
  have hm : (U16.wide g.smss).toNat = 536 := by
    rw [h.wide_smss]
    rfl
  obtain ⟨h1, h2⟩ := h.half_le
  refine ⟨h.smss, ?_, h1, ?_, h.inflight, h.counts, fun _ => h2, ?_⟩
  · show 536 ≤ (U16.wide g.smss).toNat
    omega
  · show (0 : U32).toNat < (U16.wide g.smss).toNat
    rw [hm]
    decide
  · show (U16.wide g.smss).toNat + (0 : U32).toNat ≤ 2 ^ 29 + n + _
    have : (0 : U32).toNat = 0 := rfl
    omega

/-- Bytes sent: they fit the window, or there are none. -/
theorem sent (h : CongOk n g) {wnd k : U32} (hw : wnd.toNat ≤ maxWnd) (hk : k.toNat < 65536)
    (hg : k = 0 ∨ g.inflight + k ≤ wnd) :
    g.inflight.toNat + k.toNat < 2 ^ 32 ∧ CongOk n { g with inflight := g.inflight + k } := by
  have h1 := h.inflight
  have hadd : (g.inflight + k).toNat = g.inflight.toNat + k.toNat := by
    rw [BitVec.toNat_add]
    unfold maxWnd at h1
    omega
  refine ⟨by unfold maxWnd at h1; omega, { h with inflight := ?_ }⟩
  show (g.inflight + k).toNat ≤ maxWnd
  rcases hg with rfl | hle
  · rw [hadd]
    exact h1
  · exact Nat.le_trans hle hw

end CongOk

/-- The skbs acknowledged are from the queue `q`, those queued are empty but for
a writer's, and the MSS stays. -/
def CongOp.From (q : List Skb) (writer : Prop) : CongOp → Prop
  | .acked n => ∃ k ∈ q, n = k.dlen
  | .queued n => writer ∨ n = 0
  | .pmtu _ => False
  | .dup | .exit | .timeout | .sent _ => True

/-- **One operation** keeps the variables in range and does not overflow. -/
theorem CongOk.apply {n : Nat} {g : Cong} (h : CongOk n g) {wnd : U32} (hw : wnd.toNat ≤ maxWnd) {q : List Skb}
    (hq : ∀ k ∈ q, k.dlen.toNat ≤ 536) {op : CongOp} (hg : op.Guarded wnd g) {w : Prop} (hf : op.From q w) (hn : n + op.acks ≤ 2 ^ 31) :
    g.Fits op ∧ CongOk (n + op.acks) (g.apply op) := by
  cases op with
  | acked k =>
    obtain ⟨skb, hs, rfl⟩ := hf
    exact ⟨((h.landed skb.dlen).avoid (hq skb hs) hn).1, ((h.landed skb.dlen).avoid (hq skb hs) hn).2⟩
  | dup => exact h.dup hn
  | exit => exact ⟨trivial, h.exit hg⟩
  | timeout => exact ⟨trivial, h.timeout⟩
  | queued k | sent k => exact h.sent hw hg.1 hg.2
  | pmtu mss => exact hf.elim

/-- **A list of operations** does the same. -/
theorem CongOk.applyAll {n : Nat} {g : Cong} {wnd : U32} (hw : wnd.toNat ≤ maxWnd) {q : List Skb}
    (hq : ∀ k ∈ q, k.dlen.toNat ≤ 536) {ops : List CongOp} (h : CongOk n g) (hg : g.Meets (CongOp.Guarded wnd) ops)
    {w : Prop} (hf : ∀ op ∈ ops, op.From q w) (hn : n + ackedSum ops ≤ 2 ^ 31) :
    g.Meets Cong.Fits ops ∧ CongOk (n + ackedSum ops) (g.applyAll ops) := by
  induction ops generalizing n g with
  | nil => exact ⟨trivial, h⟩
  | cons op ops ih =>
    have hs : ackedSum (op :: ops) = op.acks + ackedSum ops := by simp [ackedSum]
    rw [hs] at hn ⊢
    obtain ⟨hfit, hok⟩ := h.apply hw hq hg.1 (hf op List.mem_cons_self) (by omega)
    obtain ⟨hfits, hoks⟩ := ih hok hg.2 (fun op' h' => hf op' (List.mem_cons_of_mem _ h')) (by omega)
    rw [← Nat.add_assoc]
    exact ⟨⟨hfit, hfits⟩, hoks⟩

/-! ## What the operations of an event acknowledge -/

theorem sendNextOps_from (limit : U32) (amount : Nat) (q : List Skb) (fl : U32) (q' : List Skb) (w : Prop) :
    ∀ op ∈ sendNextOps limit amount q fl, op.From q' w := by
  induction q generalizing amount fl with
  | nil => cases amount <;> simp [sendNextOps]
  | cons k q ih =>
    cases amount with
    | zero => simp [sendNextOps]
    | succ amount =>
      rw [sendNextOps]
      split
      · exact ih amount fl
      · split
        · simp
        · exact List.forall_mem_cons.mpr ⟨trivial, ih _ _⟩

theorem cleanOps_from (a : U32) (q : List Skb) (w : Prop) : ∀ op ∈ cleanOps a q, op.From q w := by
  intro op hop
  obtain ⟨k, hk, rfl⟩ := List.mem_map.mp hop
  exact ⟨k, List.takeWhile_subset _ hk, rfl⟩

theorem newAckOps_from (s : TcpSock) (a : U32) (w : Prop) : ∀ op ∈ newAckOps s a, op.From s.writeQueue w := by
  intro op hop
  rcases List.mem_append.mp hop with h | h
  · exact cleanOps_from a _ w op h
  · split at h
    · rw [List.mem_singleton.mp h]
      trivial
    · cases h

theorem dupackOps_from (s : TcpSock) (q : List Skb) (w : Prop) : ∀ op ∈ dupackOps s, op.From q w :=
  List.forall_mem_cons.mpr ⟨trivial, sendNextOps_from _ _ _ _ q w⟩

theorem ackFieldOps_from (s : TcpSock) (th : Tcphdr) (skb : Skb) (w : Prop) :
    ∀ op ∈ ackFieldOps s th skb, op.From s.writeQueue w := by
  unfold ackFieldOps ackOps
  split
  · split
    · exact dupackOps_from s _ w
    · split
      · exact newAckOps_from s _ w
      · simp
  · split
    · exact newAckOps_from s _ w
    · simp

theorem afterAckOps_from (s : TcpSock) (th : Tcphdr) (skb : Skb) (q : List Skb) (w : Prop) :
    ∀ op ∈ afterAckOps s th skb, op.From q w := by
  unfold afterAckOps
  split
  · simp
  · dsimp only
    split
    · simp
    · unfold ackDataOps
      split
      · exact sendNextOps_from _ _ _ _ q w
      · simp

theorem synsentOps_from (s : TcpSock) (th : Tcphdr) (w : Prop) : ∀ op ∈ synsentOps s th, op.From s.writeQueue w := by
  unfold synsentOps
  repeat' split
  all_goals simp only [List.not_mem_nil, false_implies, implies_true, List.append_nil, List.nil_append, List.mem_append,
    List.mem_singleton, forall_eq]
  all_goals first
    | exact cleanOps_from _ _ w | exact .inr rfl | exact fun op h => h.elim (cleanOps_from _ _ w op) fun h => h ▸ .inr rfl

theorem segmentOps_from (s : TcpSock) (th : Tcphdr) (skb : Skb) (w : Prop) :
    ∀ op ∈ segmentOps s th skb, op.From s.writeQueue w := by
  have heard : ∀ op ∈ (if s.core.Heard th skb then heardOps s th skb else []), op.From s.writeQueue w := by
    split
    · intro op hop
      rcases List.mem_append.mp hop with h | h
      · exact ackFieldOps_from s th skb w op h
      · split at h
        · cases h
        · exact afterAckOps_from _ th skb _ w op h
    · simp
  unfold segmentOps
  cases s.state
  case close | listen => simp
  case synSent => exact synsentOps_from s th w
  all_goals exact heard

theorem chunkOps_from (mss : U16) (fuel : Nat) (s : TcpSock) (buf : List U8) (q : List Skb) {w : Prop}
    (hw : w) : ∀ op ∈ chunkOps mss fuel s buf, op.From q w := by
  induction fuel generalizing s buf with
  | zero => cases buf <;> simp [chunkOps]
  | succ fuel ih =>
    cases buf with
    | nil => simp [chunkOps]
    | cons x xs =>
      simp only [chunkOps]
      split
      · exact List.forall_mem_cons.mpr ⟨.inl hw, ih _ _⟩
      · simp

theorem finOps_from (s : TcpSock) (q : List Skb) (w : Prop) : ∀ op ∈ finOps s, op.From q w := by
  unfold finOps
  split
  · exact List.forall_mem_cons.mpr ⟨.inr rfl, by simp⟩
  · simp

theorem congOps_from (c : Conn) {e : Event} (he : ∀ mss, e ≠ .adjustPmtu6 mss) :
    ∀ op ∈ c.congOps e, op.From c.sk.writeQueue (c.act e = .send) := by
  unfold Conn.congOps
  split
  · simp
  · cases e with
    | segment th data psh => exact segmentOps_from _ _ _ _
    | write buf =>
      dsimp only
      split
      · exact chunkOps_from _ _ _ _ _ rfl
      · simp
    | close =>
      dsimp only [closeOps]
      split
      · exact finOps_from _ _ _
      · simp
    | resume i =>
      dsimp only
      split
      · simp
      next call hi =>
        cases call with
        | send mss chunk rest len =>
          simp only [callOps]
          split
          · have ha : c.act (.resume i) = .send := by simp only [Conn.act, hi]
            exact List.forall_mem_cons.mpr ⟨.inl ha, chunkOps_from _ _ _ _ _ ha⟩
          · simp
        | fin lastAck => exact finOps_from _ _ _
        | recv len got => simp [callOps]
    | handler i =>
      dsimp only
      split
      · simp
      next h _ =>
        cases h with
        | retransmissionTimeout n =>
          simp only [handlerOps]
          split
          · exact List.forall_mem_cons.mpr ⟨trivial, by simp⟩
          · simp
        | _ => simp [handlerOps]
    | adjustPmtu6 mss => exact absurd rfl (he mss)
    | _ => simp

/-! ## What is queued is cut at the MSS -/

/-- A sleeping writer cuts its buffer at `m`. -/
def Call.CutAt (m : U16) : Call → Prop
  | .send mss chunk _ _ => mss = m ∧ chunk.bytes.length ≤ m.toNat
  | .fin _ | .recv _ _ => True

/-- Every skb of the queue holds at most `m` bytes. -/
def Core.QueueCut (m : U16) (c : Core) : Prop := ∀ k ∈ c.snd.queue, k.payload.bytes.length ≤ m.toNat

theorem inherent_cut (m : U16) : Skb.Inherent fun k => k.payload.bytes.length ≤ m.toNat :=
  ⟨fun _ _ h => h, fun h => h, Nat.zero_le _, Nat.zero_le _⟩

/-- Only a writer queues data. -/
theorem Move.queueCut {a : Act} {c c' : Core} {es : List Effect} (hm : Move a c es c') (ha : a ≠ .send) {m : U16}
    (h : c.QueueCut m) : c'.QueueCut m := hm.queue_forall (inherent_cut m) (fun h => absurd h ha) h

theorem tcpQueueTransmitSkb_queueCut {s : TcpSock} {m : U16} {skb : Skb} (h : s.core.QueueCut m)
    (hl : skb.payload.bytes.length ≤ m.toNat) : (tcpQueueTransmitSkb s skb).core.QueueCut m := by
  rw [tcpQueueTransmitSkb_core]
  exact enqueue_forall (inherent_cut m) hl h

/-- The loop of `tcp_send` queues chunks of at most the MSS, and sleeps with one. -/
theorem tcpSendLoop_cut {m : U16} {len fuel : Nat} {s : TcpSock} {buf : List U8} (h : s.core.QueueCut m) :
    (tcpSendLoop m len fuel s buf).1.core.QueueCut m ∧
    ∀ call, (tcpSendLoop m len fuel s buf).2 = .sleep call → call.CutAt m := by
  induction fuel generalizing s buf with
  | zero =>
    cases buf with
    | nil =>
      refine ⟨?_, by intro _ h; cases h⟩
      rw [tcpSendLoop, (quiet_tcpRearmUserTimeout s).core]
      exact h
    | cons => exact ⟨h, by intro _ h; cases h⟩
  | succ fuel ih =>
    cases buf with
    | nil =>
      refine ⟨?_, by intro _ h; cases h⟩
      rw [tcpSendLoop, (quiet_tcpRearmUserTimeout s).core]
      exact h
    | cons x xs =>
      have hl : (Payload.ofTake m (x :: xs)).bytes.length ≤ m.toNat := by
        simp only [Payload.ofTake_bytes, List.length_take]
        exact Nat.min_le_left _ _
      simp only [tcpSendLoop]
      split
      · exact ih (tcpQueueTransmitSkb_queueCut h hl)
      · refine ⟨h, fun call hc => ?_⟩
        cases hc
        exact ⟨rfl, hl⟩

/-- The MSS is `m`, and writers and queue are cut at it. -/
structure Conn.Cut (m : U16) (c : Conn) : Prop where
  smss : c.sk.smss = m
  calls : ∀ call ∈ c.calls, call.CutAt m
  queue : c.sk.core.QueueCut m

namespace Conn

variable {m : U16} {c : Conn}

theorem settle_queueCut {r : TcpSock × Outcome} (h : r.1.core.QueueCut m) : (c.settle r).sk.core.QueueCut m := by
  rcases settle_sk c r with he | ⟨-, he⟩
  · rw [he]
    exact h
  · rw [he]
    exact h

theorem recv_cutAt {call : Call} (h : ∃ len got, call = .recv len got) : call.CutAt m := by
  obtain ⟨len, got, rfl⟩ := h
  trivial

/-- Who sleeps after an event cuts at the MSS. -/
theorem step_calls_cut (h : c.Cut m) (e : Event) : ∀ call ∈ (c.step e).calls, call.CutAt m := by
  unfold step
  split
  · exact h.calls
  · cases e with
    | write buf =>
      refine settle_forall h.calls ?_
      unfold tcpWrite
      split
      · rw [tcpSend, h.smss]
        exact (tcpSendLoop_cut h.queue).2
      · nofun
    | read len => exact settleRead_forall h.calls fun call hc => recv_cutAt (tcpRead_sleep hc)
    | close =>
      refine settle_forall h.calls fun call hc => ?_
      rcases tcpClose_sleep hc with rfl | ⟨rfl, -⟩ <;> trivial
    | resume i =>
      have he : ∀ call ∈ c.calls.eraseIdx i, call.CutAt m := fun call hin => h.calls call (List.mem_of_mem_eraseIdx hin)
      simp only [resume]
      cases hi : c.calls[i]? with
      | none => exact h.calls
      | some call =>
        cases call with
        | recv len got => exact settleRead_forall he fun call hc => recv_cutAt (tcpReceiveTurn_sleep hc)
        | fin lastAck =>
          refine settle_forall he fun call hc => ?_
          obtain ⟨rfl, -⟩ := tcpQueueFin_sleep hc
          trivial
        | send mss chunk rest len =>
          obtain ⟨rfl, hl⟩ := h.calls _ (List.mem_of_getElem? hi)
          refine settle_forall he ?_
          simp only [resumeSend]
          split
          · exact (tcpSendLoop_cut (tcpQueueTransmitSkb_queueCut h.queue hl)).2
          · intro call hc
            cases hc
            exact ⟨rfl, hl⟩
    | _ => exact h.calls

/-- A writer leaves the queue cut at the MSS. -/
theorem step_send_queueCut (h : c.Cut m) {e : Event} (ha : c.act e = .send) : (c.step e).sk.core.QueueCut m := by
  unfold step
  split
  · exact h.queue
  · cases e with
    | write buf =>
      refine settle_queueCut ?_
      unfold tcpWrite
      split
      · rw [tcpSend, h.smss]
        exact (tcpSendLoop_cut h.queue).1
      · exact h.queue
    | resume i =>
      simp only [act] at ha
      simp only [resume]
      cases hi : c.calls[i]? with
      | none => exact h.queue
      | some call =>
        cases call with
        | send mss chunk rest len =>
          obtain ⟨rfl, hl⟩ := h.calls _ (List.mem_of_getElem? hi)
          refine settle_queueCut ?_
          simp only [resumeSend]
          split
          · exact (tcpSendLoop_cut (tcpQueueTransmitSkb_queueCut h.queue hl)).1
          · exact h.queue
        | _ => simp only [hi] at ha; cases ha
    | handler i =>
      simp only [act] at ha
      split at ha <;> cases ha
    | _ => cases ha

theorem step_smss (c : Conn) {e : Event} (he : ∀ mss, e ≠ .adjustPmtu6 mss) : (c.step e).sk.smss = c.sk.smss := by
  have hk : (c.sk.cong.applyAll (c.congOps e)).smss = c.sk.cong.smss := by
    refine Cong.applyAll_keeps (P := fun g => g.smss = c.sk.cong.smss) (fun g op hop hg => ?_) rfl
    have hf := congOps_from c he op hop
    cases op with
    | acked n =>
      refine Eq.trans ?_ hg
      simp only [Cong.apply, Cong.avoid]
      repeat' split
      all_goals rfl
    | dup =>
      refine Eq.trans ?_ hg
      simp only [Cong.apply, Cong.counted]
      repeat' split
      all_goals rfl
    | pmtu mss => exact hf.elim
    | _ => exact hg
  rw [← (step_flows c e).cong] at hk
  exact hk

/-- **Every event** keeps writers and queue cut at the MSS. -/
theorem step_cut (hr : c.Ready) (h : c.Cut m) {e : Event} (he : ∀ mss, e ≠ .adjustPmtu6 mss) : (c.step e).Cut m := by
  refine ⟨(step_smss c he).trans h.smss, step_calls_cut h e, ?_⟩
  by_cases ha : c.act e = .send
  · exact step_send_queueCut h ha
  · obtain ⟨es, -, hm⟩ := step_moves hr e
    exact hm.keeps_core (I := Core.QueueCut m) (fun hmv hq => hmv.queueCut ha hq) h.queue

end Conn

/-! ## The bytes sent -/

/-- The payload `tcp_queue_transmit_skb` has numbered and queued. -/
def Effect.sentBytes : Effect → Nat
  | .queued skb _ _ => skb.payload.bytes.length
  | .xmit _ _ | .peerFin | .wakeup _ | .acceptQueue _ => 0

def sentBytes (fx : List Effect) : Nat := (fx.map Effect.sentBytes).sum

theorem sentBytes_append (l l' : List Effect) : sentBytes (l ++ l') = sentBytes l + sentBytes l' := by
  simp [sentBytes]

theorem sentBytes_eq_zero {l : List Effect} (h : ∀ e ∈ l, e.sentBytes = 0) : sentBytes l = 0 := by
  refine List.sum_eq_zero fun n hn => ?_
  obtain ⟨e, he, rfl⟩ := List.mem_map.mp hn
  exact h e he

theorem Core.Plain.sentBytes {c : Core} {e : Effect} (h : c.Plain e) : e.sentBytes = 0 := by
  cases e with
  | queued => exact h.elim
  | _ => rfl

theorem RcvSide.Sends.sentBytes {r : RcvSide} {k : Skb} {n : U32} {e : Effect} (h : r.Sends k n e) : e.sentBytes = 0 := by
  cases e with
  | queued => exact h.elim
  | _ => rfl

/-- Only a writer sends payload. -/
theorem Move.sentBytes {a : Act} {c c' : Core} {es : List Effect} (hm : Move a c es c') (ha : a ≠ .send) : sentBytes es = 0 := by
  refine sentBytes_eq_zero fun e he => ?_
  cases hm with
  | quiet h | reset _ h | ack _ _ _ _ h | userTimeout h | abort h | connect _ _ _ _ h => exact (h e he).sentBytes
  | resend h =>
    obtain ⟨k, -, hk⟩ := h e he
    exact hk.sentBytes
  | sendNext _ h =>
    obtain ⟨k, -, -, n, hk⟩ := h.emits e he
    exact hk.sentBytes
  | fin _ _ _ _ _ _ _ h =>
    rcases List.mem_cons.mp he with rfl | he
    · rfl
    · exact (h e he).sentBytes
  | resendHead _ _ h =>
    rw [List.mem_singleton.mp he]
    exact h.sentBytes
  | simultaneous _ _ _ _ h | queueFin _ _ _ _ h =>
    rcases List.mem_cons.mp he with rfl | he
    · rfl
    · rw [List.mem_singleton.mp he]
      exact h.sentBytes
  | data => exact absurd rfl ha
  | rst | lastAck | inOrder | refused | giveUp | linger | closeDone =>
    rw [List.mem_singleton.mp he]
    rfl
  | establish =>
    simp only [List.mem_cons, List.not_mem_nil, or_false] at he
    rcases he with rfl | rfl <;> rfl
  | fault | finWait2 | timeWait | finAgain | outOfOrder | finSent | finResent | spin | closeRefused | closeStart | dequeue
  | eof => cases he

theorem queuedSum_eq_zero {q : List Skb} {ops : List CongOp} (h : ∀ op ∈ ops, op.From q False) : queuedSum ops = 0 := by
  refine List.sum_eq_zero fun n hn => ?_
  obtain ⟨op, hop, rfl⟩ := List.mem_map.mp hn
  have hf := h op hop
  cases op with
  | queued k =>
    rcases hf with hf | rfl
    · exact hf.elim
    · rfl
  | _ => rfl

theorem tcpQueueTransmitSkb_sent (s : TcpSock) (skb : Skb) :
    sentBytes (tcpQueueTransmitSkb s skb).fx = sentBytes s.fx + skb.dlen.toNat := by
  obtain ⟨e, hf, he⟩ := tcpQueueTransmitSkb_fx s skb
  rw [hf, sentBytes_append]
  simp only [sentBytes, List.map_cons, List.map_nil, List.sum_cons, List.sum_nil, he.sentBytes, Skb.dlen, Payload.len_toNat]
  rfl

theorem Quiet.sentBytes {s t : TcpSock} (h : Quiet s t) : sentBytes t.fx = sentBytes s.fx := by
  obtain ⟨es, hf, hp⟩ := h.logs
  rw [hf, sentBytes_append, sentBytes_eq_zero fun e he => (hp e he).sentBytes]
  rfl

theorem tcpSendLoop_sent (mss : U16) (len fuel : Nat) (s : TcpSock) (buf : List U8) :
    sentBytes (tcpSendLoop mss len fuel s buf).1.fx = sentBytes s.fx + queuedSum (chunkOps mss fuel s buf) := by
  induction fuel generalizing s buf with
  | zero =>
    cases buf with
    | nil => exact (quiet_tcpRearmUserTimeout s).sentBytes
    | cons => rfl
  | succ fuel ih =>
    cases buf with
    | nil => exact (quiet_tcpRearmUserTimeout s).sentBytes
    | cons x xs =>
      simp only [tcpSendLoop, chunkOps]
      split
      next =>
        rw [ih, tcpQueueTransmitSkb_sent]
        simp only [queuedSum, CongOp.queues, List.map_cons, List.sum_cons, dataSkb, tcpAllocSkb, Skb.dlen]
        omega
      next => rfl

namespace Conn

theorem settle_fx (c : Conn) (r : TcpSock × Outcome) : (c.settle r).sk.fx = r.1.fx := by
  rcases settle_sk c r with h | ⟨-, h⟩ <;> rw [h]

/-- A writer sends what its operations queue. -/
theorem step_send_sent {c : Conn} {e : Event} (ha : c.act e = .send) :
    sentBytes (c.step e).sk.fx = sentBytes c.sk.fx + queuedSum (c.congOps e) := by
  unfold step congOps
  split
  · rfl
  · cases e with
    | write buf =>
      dsimp only
      rw [settle_fx, tcpWrite]
      split
      · exact tcpSendLoop_sent _ _ _ _ _
      · rfl
    | resume i =>
      simp only [act] at ha
      simp only [resume]
      cases hi : c.calls[i]? with
      | none => rfl
      | some call =>
        cases call with
        | send mss chunk rest len =>
          dsimp only
          rw [settle_fx]
          simp only [resumeSend, callOps]
          split
          next =>
            rw [tcpSendLoop_sent, tcpQueueTransmitSkb_sent]
            simp only [queuedSum, CongOp.queues, List.map_cons, List.sum_cons, dataSkb, tcpAllocSkb, Skb.dlen]
            omega
          next => rfl
        | _ => simp only [hi] at ha; cases ha
    | handler i =>
      simp only [act] at ha
      split at ha <;> cases ha
    | _ => cases ha

/-- **Every event** sends what its operations queue. -/
theorem step_sent {c : Conn} (hr : c.Ready) {e : Event} (he : ∀ mss, e ≠ .adjustPmtu6 mss) :
    sentBytes (c.step e).sk.fx = sentBytes c.sk.fx + queuedSum (c.congOps e) := by
  by_cases ha : c.act e = .send
  · exact step_send_sent ha
  · obtain ⟨es, hf, hm⟩ := step_moves hr e
    have hz : sentBytes ([] ++ es) = 0 :=
      hm.keeps (I := fun _ log => sentBytes log = 0)
        (fun hmv hlog => by rw [sentBytes_append, hlog, hmv.sentBytes ha]) [] rfl
    have hq : queuedSum (c.congOps e) = 0 := by
      refine queuedSum_eq_zero (q := c.sk.writeQueue) fun op hop => ?_
      have hf := congOps_from c he op hop
      rwa [eq_false ha] at hf
    rw [hf, sentBytes_append, hq]
    exact congrArg (sentBytes c.sk.fx + ·) hz

theorem sentBytes_mono {c : Conn} (hr : c.Ready) {es : List Event} (he : ∀ e ∈ es, ∀ mss, e ≠ .adjustPmtu6 mss) :
    sentBytes c.sk.fx ≤ sentBytes (c.run es).sk.fx := by
  induction es generalizing c with
  | nil => exact Nat.le_refl _
  | cons e es ih =>
    have h1 := step_sent hr (he e List.mem_cons_self)
    have h2 := ih (step_ready hr e) fun e' h' => he e' (List.mem_cons_of_mem _ h')
    exact Nat.le_trans (by omega) h2

end Conn

/-! ## The window -/

/-- The peer's window and its shift are in range. -/
def Core.WndOk (c : Core) : Prop := c.snd.wnd.toNat ≤ maxWnd ∧ c.snd.scale.toNat ≤ 14

theorem tcpParseOpt_scale (data : List U8) {o : OptScan} (h : o.sndScale.toNat ≤ 14) :
    (tcpParseOpt data o).sndScale.toNat ≤ 14 := by
  unfold tcpParseOpt
  dsimp only
  split
  · exact h
  · split
    · exact h
    · split
      · exact h
      · split
        · exact h
        · split
          · exact h
          · split
            · dsimp only
              split
              next hw => exact hw
              next => exact Nat.le_refl 14
            · exact h

theorem tcpParseOptsLoop_scale (data : List U8) (fuel : Nat) {o : OptScan} (h : o.sndScale.toNat ≤ 14) :
    (tcpParseOptsLoop data fuel o).sndScale.toNat ≤ 14 := by
  induction fuel generalizing o with
  | zero => exact h
  | succ fuel ih =>
    rw [tcpParseOptsLoop]
    split
    · exact ih (tcpParseOpt_scale data h)
    · exact h

theorem synScale_le {scale : U8} (th : Tcphdr) (h : scale.toNat ≤ 14) : (synScale scale th).toNat ≤ 14 :=
  tcpParseOptsLoop_scale _ _ h

theorem wide_toNat (w : U16) : (U16.wide w).toNat = w.toNat := by
  have := w.isLt
  simp only [U16.wide, BitVec.toNat_setWidth]
  omega

theorem scaled_le (win : U16) {n : Nat} (h : n ≤ 14) : (U16.wide win <<< n).toNat ≤ maxWnd := by
  have hw := win.isLt
  have hp : 2 ^ n ≤ 2 ^ 14 := Nat.pow_le_pow_right (by decide) h
  rw [BitVec.toNat_shiftLeft, wide_toNat, Nat.shiftLeft_eq]
  calc win.toNat * 2 ^ n % 2 ^ 32 ≤ win.toNat * 2 ^ n := Nat.mod_le _ _
    _ ≤ 65535 * 2 ^ 14 := Nat.mul_le_mul (by omega) hp

theorem Move.wndOk {a : Act} {c c' : Core} {es : List Effect} (hm : Move a c es c') (h : c.WndOk) : c'.WndOk := by
  cases hm with
  | sendNext _ hn => exact ⟨by rw [hn.wnd]; exact h.1, by rw [hn.scale]; exact h.2⟩
  | @connect _ th =>
    have hs : (c.snd.synAcked th).scale = c.snd.scale := by
      unfold SndSide.synAcked
      split <;> rfl
    have hle : (synScale (c.snd.synAcked th).scale th).toNat ≤ 14 := synScale_le th (hs ▸ h.2)
    exact ⟨scaled_le th.win hle, hle⟩
  | _ => exact h

theorem Opened.wndOk {iss : U32} {s : TcpSock} (ho : Opened iss s) : s.core.WndOk := by
  cases ho with
  | active o iss =>
    rw [activeOpen_core]
    exact ⟨Nat.zero_le _, Nat.zero_le _⟩
  | @passive _ th _ _ _ hl =>
    rw [(tcpListen_core hl).1]
    refine ⟨?_, synScale_le th (Nat.zero_le _)⟩
    show (U16.wide th.win).toNat ≤ maxWnd
    rw [wide_toNat]
    have := th.win.isLt
    unfold maxWnd
    omega

/-! ## The whole run -/

/-- The child of a listener starts with the variables of a fresh socket. -/
theorem tcpListen_cong {l : TcpSock} {th : Tcphdr} {env : SynEnv} {s : TcpSock} (hl : tcpListen l th env = some s) :
    s.cong = tcpAllocSock.cong := by
  have hf : (forkSocket l th env).cong = tcpAllocSock.cong := by
    have h := tcpParseOpts_cong (tcpAllocSock.setState .synReceived) th
    unfold forkSocket
    generalize tcpParseOpts (tcpAllocSock.setState .synReceived) th = t at h
    dsimp only
    split <;> exact h
  have hst : (forkSocket l th env).state = .synReceived := congrArg Core.state (forkSocket_core l th env)
  unfold tcpListen at hl
  split at hl
  next =>
    have hs := (tcpSendSynack_flows (s := { forkSocket l th env with ptsk := some env.listener }) hst).cong
    generalize tcpSendSynack { forkSocket l th env with ptsk := some env.listener } = t at hl hs
    cases hl
    exact hs.trans (congrArg (Cong.applyAll · [.queued 0]) hf)
  next => cases hl

/-- The variables a connection starts with. -/
theorem Opened.cong {iss : U32} {s : TcpSock} (ho : Opened iss s) : s.cong =
    { cwnd := 2144, ssthresh := 0xFFFFFFFF, bytesAcked := 0, inflight := 0, dupacks := 0, inRecovery := false
      smss := s.smss } := by
  cases ho with
  | active o iss => rfl
  | @passive l th env s _ hl =>
    have hs : s.cong = tcpAllocSock.cong := tcpListen_cong hl
    have hm : s.smss = 536 := congrArg Cong.smss hs
    rw [hs, hm]
    rfl

/-- The congestion state of a connection is in range, with what that rests on:
what has been acknowledged is what was sent less what is still queued. -/
structure CongInv (c : Conn) : Prop where
  ready : c.Ready
  cut : c.Cut 536
  wnd : c.sk.core.WndOk
  ok : ∃ n, n + c.sk.pending = sentBytes c.sk.fx ∧ CongOk n c.sk.cong

theorem Opened.congInv {iss : U32} {s : TcpSock} (ho : Opened iss s) (hm : s.smss = 536) : CongInv { sk := s } := by
  obtain ⟨k, nxt, wnd, scale, cwnd, e, hk, hd, hf, he⟩ := ho.syn
  have hq : s.core.snd.queue = [{ k with seq := iss, endSeq := iss, sacked := false }] := by
    rw [hd]
    rfl
  refine ⟨Conn.ready_of_no_calls s, ⟨hm, by simp, fun k' hk' => ?_⟩, ho.wndOk, 0, ?_, ?_⟩
  · rw [hq] at hk'
    rw [List.mem_singleton.mp hk']
    simp [hk.payload]
  · show 0 + s.pending = sentBytes s.fx
    rw [TcpSock.pending, hq, hf]
    simp [queueBytes, sentBytes, hk.payload, he.sentBytes]
    rfl
  · show CongOk 0 s.cong
    rw [ho.cong, hm]
    exact ⟨rfl, by decide, by decide, by decide, by decide, fun _ => by decide, by simp, by decide⟩

/-- The operations of the event are what it does to the variables, and none of
their additions overflows. -/
def NoOverflow (c : Conn) (e : Event) : Prop :=
  (c.step e).sk.cong = c.sk.cong.applyAll (c.congOps e) ∧ c.sk.cong.Meets Cong.Fits (c.congOps e)

/-- **One event** keeps the congestion state in range, as long as fewer than
2^31 bytes have been sent. -/
theorem CongInv.step {c : Conn} (h : CongInv c) {e : Event} (he : ∀ mss, e ≠ .adjustPmtu6 mss)
    (hb : sentBytes (c.step e).sk.fx < 2 ^ 31) : CongInv (c.step e) ∧ NoOverflow c e := by
  obtain ⟨n, hn, hok⟩ := h.ok
  have hflow := c.step_flows e
  have hsent := Conn.step_sent h.ready he
  have hpend := hflow.pending
  have hq : ∀ k ∈ c.sk.writeQueue, k.dlen.toNat ≤ 536 := fun k hk => by
    rw [Skb.dlen, Payload.len_toNat]
    exact h.cut.queue k.plain (List.mem_map_of_mem hk)
  obtain ⟨hfits, hok'⟩ := hok.applyAll h.wnd.1 hq hflow.guarded (congOps_from c he) (by omega)
  rw [← hflow.cong] at hok'
  obtain ⟨es, -, hm⟩ := Conn.step_moves h.ready e
  exact ⟨⟨Conn.step_ready h.ready e, Conn.step_cut h.ready h.cut he, hm.keeps_core (fun hmv => hmv.wndOk) h.wnd,
    _, by omega, hok'⟩, hflow.cong, hfits⟩

theorem CongInv.run {c : Conn} (h : CongInv c) {es : List Event} (he : ∀ e ∈ es, ∀ mss, e ≠ .adjustPmtu6 mss)
    (hb : sentBytes (c.run es).sk.fx < 2 ^ 31) : CongInv (c.run es) ∧ Conn.Meets NoOverflow c es := by
  induction es generalizing c with
  | nil => exact ⟨h, trivial⟩
  | cons e es ih =>
    have hes : ∀ e' ∈ es, ∀ mss, e' ≠ .adjustPmtu6 mss := fun e' h' => he e' (List.mem_cons_of_mem _ h')
    have hmono := Conn.sentBytes_mono (Conn.step_ready h.ready e) hes
    obtain ⟨hinv, hno⟩ := h.step (he e List.mem_cons_self) (Nat.lt_of_le_of_lt hmono hb)
    obtain ⟨hrun, hmeets⟩ := ih hinv hes hb
    exact ⟨hrun, hno, hmeets⟩

/-- **The congestion state is in range.** On a connection whose MSS is that of
IPv4, in every run that sends fewer than 2^31 bytes: `cwnd` is at least one
segment, `ssthresh` at least two, `bytes_acked` less than `cwnd`, and no
addition on the way has overflowed. -/
theorem congestion_in_range {iss : U32} {s : TcpSock} (ho : Opened iss s) (hm : s.smss = 536) {es : List Event}
    (he : ∀ e ∈ es, ∀ mss, e ≠ .adjustPmtu6 mss) (hb : sentBytes (Conn.run { sk := s } es).sk.fx < 2 ^ 31) :
    let t := (Conn.run { sk := s } es).sk
    (t.smss = 536 ∧ U16.wide t.smss ≤ t.cwnd ∧ 2 * U16.wide t.smss ≤ t.ssthresh ∧ t.bytesAcked < t.cwnd) ∧
    Conn.Meets NoOverflow { sk := s } es := by
  obtain ⟨⟨-, -, -, n, -, hok⟩, hno⟩ := (ho.congInv hm).run he hb
  refine ⟨⟨hok.smss, ?_, ?_, hok.bytesAcked⟩, hno⟩
  · rw [show U16.wide (Conn.run { sk := s } es).sk.smss = 536 from hok.wide_smss]
    exact hok.cwnd
  · rw [show U16.wide (Conn.run { sk := s } es).sk.smss = 536 from hok.wide_smss]
    exact hok.ssthresh

/-- A client that writes, is acknowledged and then hears three duplicates. -/
def lossyRun : List Event :=
  [synAckEvent, .write (List.replicate 1200 7), ackEvent 637, .write (List.replicate 900 7), ackEvent 637, ackEvent 637,
    ackEvent 637]

theorem congestion_in_range_lossy :
    (Conn.run { sk := activeOpen {} 100 } lossyRun).sk.inRecovery = true ∧
    Conn.Meets NoOverflow { sk := activeOpen {} 100 } lossyRun := by
  have he : ∀ e ∈ lossyRun, ∀ mss, e ≠ .adjustPmtu6 mss := by
    simp only [lossyRun, List.forall_mem_cons]
    exact ⟨nofun, nofun, nofun, nofun, nofun, nofun, nofun, nofun⟩
  exact ⟨by decide +kernel, (congestion_in_range (.active {} 100) rfl he (by decide +kernel)).2⟩

end LevelIp
