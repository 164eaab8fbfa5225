/-
How far one ACK opens the congestion window. `tcp_cong_avoid` runs once for
every skb the ACK takes off the queue, so slow start adds up to an SMSS for each
of them, and not for the ACK.
-/
import LevelIp.CongInvariant
import LevelIp.Opening

namespace LevelIp

/-- The bytes of some skbs. -/
def total (ds : List U32) : Nat := (ds.map BitVec.toNat).sum

/-- What slow start adds for skbs of these lengths while `cwnd` is `room` short
of `ssthresh`, and the bytes that are left for congestion avoidance. -/
def slowGrowth (smss : Nat) : Nat → List U32 → Nat × Nat
  | _, [] => (0, 0)
  | 0, ds => (0, total ds)
  | room + 1, d :: ds =>
    let (growth, rest) := slowGrowth smss (room + 1 - min d.toNat smss) ds
    (min d.toNat smss + growth, rest)

namespace Cong

/-- `cwnd` and `bytes_acked` do not overflow. -/
structure Room (g : Cong) (ds : List U32) : Prop where
  cwnd : g.cwnd.toNat + ds.length * g.smss.toNat < 2 ^ 32
  bytes : g.bytesAcked.toNat + total ds < 2 ^ 32

variable {g : Cong} {n : U32} {ds : List U32}

theorem total_cons (n : U32) (ds : List U32) : total (n :: ds) = n.toNat + total ds := rfl

theorem toNat_umin (n : U32) (m : U16) : (umin n (U16.wide m)).toNat = min n.toNat m.toNat := by rw [umin_toNat, wide_toNat]

/-- An skb in slow start. -/
theorem acked_slow (hr : g.inRecovery = false) (hs : g.cwnd < g.ssthresh) (hroom : g.Room (n :: ds)) :
    ((g.apply (.acked n)).cwnd.toNat = g.cwnd.toNat + min n.toNat g.smss.toNat ∧ (g.apply (.acked n)).bytesAcked = g.bytesAcked ∧
      (g.apply (.acked n)).ssthresh = g.ssthresh ∧ (g.apply (.acked n)).smss = g.smss ∧ (g.apply (.acked n)).inRecovery = false) := by
  have hlt := hroom.cwnd
  rw [List.length_cons, Nat.add_mul, Nat.one_mul] at hlt
  have hr' : ¬ (g.landed n).inRecovery = true := by
    show ¬ g.inRecovery = true
    rw [hr]
    exact Bool.false_ne_true
  have hs' : (g.landed n).cwnd < (g.landed n).ssthresh := hs
  simp only [apply, avoid]
  by_cases h0 : n = 0
  · rw [if_pos h0, h0]
    exact ⟨by simp [landed], rfl, rfl, rfl, hr⟩
  · rw [if_neg h0, if_neg hr', if_pos hs']
    refine ⟨?_, rfl, rfl, rfl, hr⟩
    have hm : min n.toNat g.smss.toNat ≤ g.smss.toNat := Nat.min_le_right _ _
    rw [BitVec.toNat_add, toNat_umin]
    exact Nat.mod_eq_of_lt (by show g.cwnd.toNat + min n.toNat g.smss.toNat < 2 ^ 32; omega)

/-- An skb in congestion avoidance. -/
theorem acked_avoid (hr : g.inRecovery = false) (hs : ¬ g.cwnd < g.ssthresh) (hroom : g.Room (n :: ds)) :
    ((g.apply (.acked n)).ssthresh = g.ssthresh ∧ (g.apply (.acked n)).smss = g.smss ∧ (g.apply (.acked n)).inRecovery = false) ∧
    if 0 < n.toNat ∧ g.cwnd.toNat ≤ g.bytesAcked.toNat + n.toNat then
      (g.apply (.acked n)).cwnd.toNat = g.cwnd.toNat + g.smss.toNat ∧
        (g.apply (.acked n)).bytesAcked.toNat = g.bytesAcked.toNat + n.toNat - g.cwnd.toNat
    else (g.apply (.acked n)).cwnd = g.cwnd ∧ (g.apply (.acked n)).bytesAcked.toNat = g.bytesAcked.toNat + n.toNat := by
  have hlt := hroom.cwnd
  have hb := hroom.bytes
  rw [List.length_cons, Nat.add_mul, Nat.one_mul] at hlt
  rw [total_cons] at hb
  have hr' : ¬ (g.landed n).inRecovery = true := by
    show ¬ g.inRecovery = true
    rw [hr]
    exact Bool.false_ne_true
  have hs' : ¬ (g.landed n).cwnd < (g.landed n).ssthresh := hs
  have hsum : (g.bytesAcked + n).toNat = g.bytesAcked.toNat + n.toNat := by
    rw [BitVec.toNat_add]
    exact Nat.mod_eq_of_lt (by omega)
  simp only [apply, avoid]
  by_cases h0 : n = 0
  · rw [if_pos h0, h0]
    exact ⟨⟨rfl, rfl, hr⟩, by simp [landed]⟩
  have hpos : 0 < n.toNat := Nat.pos_of_ne_zero fun h => h0 (BitVec.eq_of_toNat_eq h)
  rw [if_neg h0, if_neg hr', if_neg hs']
  by_cases hge : (g.landed n).bytesAcked + n ≥ (g.landed n).cwnd
  · have hge' : g.cwnd.toNat ≤ (g.bytesAcked + n).toNat := hge
    rw [if_pos hge, if_pos ⟨hpos, hsum ▸ hge'⟩]
    refine ⟨⟨rfl, rfl, hr⟩, ?_, ?_⟩
    · rw [BitVec.toNat_add, wide_toNat]
      exact Nat.mod_eq_of_lt (by show g.cwnd.toNat + g.smss.toNat < 2 ^ 32; omega)
    · rw [BitVec.toNat_sub_of_le hge]
      exact congrArg (· - g.cwnd.toNat) hsum
  · have hge' : ¬ g.cwnd.toNat ≤ (g.bytesAcked + n).toNat := hge
    rw [if_neg hge, if_neg fun h => hge' (hsum ▸ h.2)]
    exact ⟨⟨rfl, rfl, hr⟩, rfl, hsum⟩

/-- The next skb has the room that is left. -/
theorem Room.avoid (hroom : g.Room (n :: ds)) (hr : g.inRecovery = false) (hs : ¬ g.cwnd < g.ssthresh) :
    (g.apply (.acked n)).Room ds := by
  obtain ⟨⟨-, hm, -⟩, hstep⟩ := acked_avoid hr hs hroom
  have hlt := hroom.cwnd
  have hb := hroom.bytes
  rw [List.length_cons, Nat.add_mul, Nat.one_mul] at hlt
  rw [total_cons] at hb
  split at hstep
  · exact ⟨by rw [hm, hstep.1]; omega, by rw [hstep.2]; omega⟩
  · exact ⟨by rw [hm, hstep.1]; omega, by rw [hstep.2]; omega⟩

theorem Room.slow (hroom : g.Room (n :: ds)) (hr : g.inRecovery = false) (hs : g.cwnd < g.ssthresh) :
    (g.apply (.acked n)).Room ds := by
  obtain ⟨hc, hb', -, hm, -⟩ := acked_slow hr hs hroom
  have hlt := hroom.cwnd
  have hb := hroom.bytes
  rw [List.length_cons, Nat.add_mul, Nat.one_mul] at hlt
  rw [total_cons] at hb
  exact ⟨by rw [hm, hc]; omega, by rw [hb']; omega⟩

/-- A list of skbs in congestion avoidance: `cwnd` only grows, and each SMSS it
grows by is paid for with `cwnd` of the bytes acknowledged. -/
theorem avoidance_pays (hr : g.inRecovery = false) (hs : ¬ g.cwnd < g.ssthresh) (hroom : g.Room ds) {c : Nat}
    (hc : c ≤ g.cwnd.toNat) :
    g.cwnd.toNat ≤ (g.applyAll (ds.map .acked)).cwnd.toNat ∧
      (g.applyAll (ds.map .acked)).cwnd.toNat * c + g.smss.toNat * (g.applyAll (ds.map .acked)).bytesAcked.toNat ≤
        g.cwnd.toNat * c + g.smss.toNat * (g.bytesAcked.toNat + total ds) := by
  induction ds generalizing g with
  | nil => exact ⟨Nat.le_refl _, Nat.le_refl _⟩
  | cons n ds ih =>
    obtain ⟨⟨ht, hm, hrec⟩, hstep⟩ := acked_avoid hr hs hroom
    have hroom' := hroom.avoid hr hs
    have hge : g.cwnd.toNat ≤ (g.apply (.acked n)).cwnd.toNat := by
      split at hstep
      · exact hstep.1 ▸ Nat.le_add_right _ _
      · exact Nat.le_of_eq (congrArg BitVec.toNat hstep.1.symm)
    have hs' : ¬ (g.apply (.acked n)).cwnd < (g.apply (.acked n)).ssthresh := by
      rw [ht]
      exact fun h => hs (BitVec.lt_def.mpr (Nat.lt_of_le_of_lt hge (BitVec.lt_def.mp h)))
    obtain ⟨hmono, hpay⟩ := ih hrec hs' hroom' (hc.trans hge)
    rw [hm] at hpay
    refine ⟨hge.trans hmono, hpay.trans ?_⟩
    rw [total_cons]
    split at hstep
    next hgrow =>
      obtain ⟨hcwnd, hbytes⟩ := hstep
      rw [hcwnd, hbytes, Nat.add_mul, Nat.add_assoc, ← Nat.mul_add]
      exact Nat.add_le_add_left (Nat.mul_le_mul_left _ (by omega)) _
    next =>
      rw [hstep.1, hstep.2, Nat.add_assoc]

theorem total_pos {n : U32} {ds : List U32} : 0 < total (n :: ds) ↔ 0 < n.toNat ∨ 0 < total ds := by
  rw [total_cons]
  omega

/-- Congestion avoidance grows `cwnd` exactly when the bytes acknowledged, with
those counted before, reach it. -/
theorem avoidance_still (hr : g.inRecovery = false) (hs : ¬ g.cwnd < g.ssthresh) (hroom : g.Room ds)
    (hlow : total ds = 0 ∨ g.bytesAcked.toNat + total ds < g.cwnd.toNat) : (g.applyAll (ds.map .acked)).cwnd = g.cwnd := by
  induction ds generalizing g with
  | nil => rfl
  | cons n ds ih =>
    obtain ⟨⟨ht, -, hrec⟩, hstep⟩ := acked_avoid hr hs hroom
    rw [total_cons] at hlow
    rw [if_neg (by omega)] at hstep
    obtain ⟨hcwnd, hbytes⟩ := hstep
    rw [List.map_cons, applyAll_cons, ih hrec (by rwa [hcwnd, ht]) (hroom.avoid hr hs) (by rw [hcwnd, hbytes]; omega), hcwnd]

theorem avoidance_grows (hr : g.inRecovery = false) (hs : ¬ g.cwnd < g.ssthresh) (hroom : g.Room ds)
    (hpos : 0 < total ds) (hhigh : g.cwnd.toNat ≤ g.bytesAcked.toNat + total ds) :
    g.cwnd.toNat + g.smss.toNat ≤ (g.applyAll (ds.map .acked)).cwnd.toNat := by
  induction ds generalizing g with
  | nil => exact absurd hpos (Nat.lt_irrefl 0)
  | cons n ds ih =>
    obtain ⟨⟨ht, hm, hrec⟩, hstep⟩ := acked_avoid hr hs hroom
    have hroom' := hroom.avoid hr hs
    rw [total_cons] at hhigh
    split at hstep
    next =>
      obtain ⟨hcwnd, -⟩ := hstep
      have hs' : ¬ (g.apply (.acked n)).cwnd < (g.apply (.acked n)).ssthresh := by
        rw [ht, BitVec.lt_def, hcwnd]
        exact fun h => hs (BitVec.lt_def.mpr (Nat.lt_of_le_of_lt (Nat.le_add_right _ _) h))
      exact hcwnd ▸ (avoidance_pays hrec hs' hroom' (Nat.zero_le _)).1
    next hlow =>
      obtain ⟨hcwnd, hbytes⟩ := hstep
      have hpos := total_pos.mp hpos
      have h := @ih (g.apply (.acked n)) hrec (by rwa [hcwnd, ht]) hroom' (by omega) (by rw [hcwnd, hbytes]; omega)
      rwa [hcwnd, hm] at h

end Cong

theorem slowGrowth_le {smss room : Nat} {ds : List U32} : (slowGrowth smss room ds).1 ≤ total ds := by
  fun_induction slowGrowth smss room ds with
  | case1 => exact Nat.zero_le _
  | case2 => exact Nat.zero_le _
  | case3 room d ds growth rest heq ih =>
    rw [heq] at ih
    exact Nat.add_le_add (Nat.min_le_left _ _) ih

/-- Bytes are left for congestion avoidance only after the whole room is
filled. -/
theorem slowGrowth_fills {smss room : Nat} {ds : List U32} (h : 0 < (slowGrowth smss room ds).2) :
    room ≤ (slowGrowth smss room ds).1 := by
  fun_induction slowGrowth smss room ds with
  | case1 => exact absurd h (Nat.lt_irrefl 0)
  | case2 => exact Nat.zero_le _
  | case3 room d ds growth rest heq ih =>
    rw [heq] at ih
    have := ih h
    show room + 1 ≤ min d.toNat smss + growth
    omega

namespace Cong

variable {g : Cong} {ds : List U32}

/-- A list of skbs, by the bytes slow start adds for them. -/
theorem growth (hr : g.inRecovery = false) (hroom : g.Room ds) {growth rest : Nat}
    (hg : slowGrowth g.smss.toNat (g.ssthresh.toNat - g.cwnd.toNat) ds = (growth, rest)) :
    if rest = 0 ∨ g.bytesAcked.toNat + rest < g.cwnd.toNat + growth then
      (g.applyAll (ds.map .acked)).cwnd.toNat = g.cwnd.toNat + growth
    else g.cwnd.toNat + growth + g.smss.toNat ≤ (g.applyAll (ds.map .acked)).cwnd.toNat := by
  generalize hk : g.ssthresh.toNat - g.cwnd.toNat = room at hg
  generalize hm : g.smss.toNat = smss at hg
  fun_induction slowGrowth smss room ds generalizing g growth rest with
  | case1 =>
    cases hg
    rw [if_pos (.inl rfl)]
    rfl
  | case2 ds =>
    cases hg
    have hs : ¬ g.cwnd < g.ssthresh := by
      rw [BitVec.lt_def]
      omega
    split
    next h => exact congrArg BitVec.toNat (avoidance_still hr hs hroom h)
    next h => exact hm ▸ avoidance_grows hr hs hroom (by omega) (by omega)
  | case3 room d ds growth' rest' heq ih =>
    cases hg
    have hs : g.cwnd < g.ssthresh := by
      rw [BitVec.lt_def]
      omega
    obtain ⟨hc, hb, ht, hm', hrec⟩ := acked_slow hr hs hroom
    have h := @ih (g.apply (.acked d)) hrec (hroom.slow hr hs) growth' rest' (by rw [ht, hc, hm]; omega) (by rw [hm', hm]) heq
    rw [hc, hb, hm, Nat.add_assoc] at h
    exact h

end Cong

/-- The lengths of the skbs that an ACK of `a` takes off the queue. -/
def TcpSock.ackedLens (s : TcpSock) (a : U32) : List U32 := (s.writeQueue.takeWhile (Skb.covered a)).map Skb.dlen

/-- An ACK raises `cwnd` by at most min(bytes acknowledged, SMSS) in slow start,
and otherwise by at most one SMSS for each `cwnd` of the bytes acknowledged and
counted. -/
def TcpSock.GrowsByAck (s : TcpSock) (a : U32) : Prop :=
  if s.cwnd < s.ssthresh then
    (tcpCleanRtoQueue s a).cwnd.toNat ≤ s.cwnd.toNat + min (total (s.ackedLens a)) s.smss.toNat
  else
    ((tcpCleanRtoQueue s a).cwnd.toNat - s.cwnd.toNat) * s.cwnd.toNat ≤
      s.smss.toNat * (s.bytesAcked.toNat + total (s.ackedLens a))

/-- Slow start adds no more than an SMSS for the skbs it sees, and the bytes after
them stop short of the `cwnd` that it leaves. -/
def TcpSock.GrowsOnce (s : TcpSock) (a : U32) : Prop :=
  let grown := slowGrowth s.smss.toNat (s.ssthresh.toNat - s.cwnd.toNat) (s.ackedLens a)
  grown.1 ≤ s.smss.toNat ∧ (grown.2 = 0 ∨ s.bytesAcked.toNat + grown.2 < s.cwnd.toNat + grown.1)

theorem tcpCleanRtoQueue_cwnd (s : TcpSock) (a : U32) :
    (tcpCleanRtoQueue s a).cwnd = (s.cong.applyAll ((s.ackedLens a).map .acked)).cwnd := by
  rw [TcpSock.ackedLens, List.map_map]
  exact congrArg Cong.cwnd (tcpCleanRtoQueue_cong s a)

theorem growsByAck_iff {s : TcpSock} {a : U32} (hr : s.inRecovery = false) (hroom : s.cong.Room (s.ackedLens a)) :
    s.GrowsByAck a ↔ (s.cwnd < s.ssthresh → s.GrowsOnce a) := by
  unfold TcpSock.GrowsByAck TcpSock.GrowsOnce
  rw [tcpCleanRtoQueue_cwnd]
  split
  next hs =>
    have hs' := BitVec.lt_def.mp hs
    have hle := @slowGrowth_le s.smss.toNat (s.ssthresh.toNat - s.cwnd.toNat) (s.ackedLens a)
    have hfill := @slowGrowth_fills s.smss.toNat (s.ssthresh.toNat - s.cwnd.toNat) (s.ackedLens a)
    rcases hg : slowGrowth s.smss.toNat (s.ssthresh.toNat - s.cwnd.toNat) (s.ackedLens a) with ⟨growth, rest⟩
    rw [hg] at hle hfill
    dsimp only at hle hfill ⊢
    have hgrow := Cong.growth (g := s.cong) hr hroom hg
    rw [forall_prop_of_true hs]
    split at hgrow
    next hquiet =>
      refine Iff.trans ?_ (and_iff_left hquiet).symm
      rw [hgrow]
      show s.cwnd.toNat + growth ≤ _ ↔ _
      omega
    next hloud =>
      have hfill := hfill (by omega)
      have hgrow : s.cwnd.toNat + growth + s.smss.toNat ≤ _ := hgrow
      refine iff_of_false ?_ fun h => hloud h.2
      omega
  next hs =>
    refine iff_of_true ?_ fun h => absurd h hs
    obtain ⟨-, hpay⟩ := Cong.avoidance_pays (g := s.cong) hr hs hroom (Nat.le_refl _)
    rw [Nat.sub_mul]
    exact Nat.sub_le_of_le_add ((Nat.le_add_right _ _).trans (hpay.trans (Nat.le_of_eq (Nat.add_comm _ _))))

/-- A client with two full segments in flight. -/
def twoSent : TcpSock := (clientConn.run [synAckEvent, .write (List.replicate 1072 0)]).sk

set_option maxRecDepth 8000 in
theorem growsByAck_one : twoSent.GrowsByAck 637 :=
  (growsByAck_iff (by decide +kernel) ⟨by decide +kernel, by decide +kernel⟩).mpr fun _ => by
    unfold TcpSock.GrowsOnce
    decide +kernel

set_option maxRecDepth 8000 in
/-- One ACK of both raises `cwnd` by two SMSS. -/
theorem cumulative_ack_grows : (twoSent.cwnd.toNat, (tcpCleanRtoQueue twoSent 1173).cwnd.toNat) = (2144, 3216) ∧
    ¬ ∀ (s : TcpSock) (a : U32), s.inRecovery = false → s.GrowsByAck a := by
  refine ⟨by decide +kernel, fun h => ?_⟩
  have hgrow := h twoSent 1173 (by decide +kernel)
  unfold TcpSock.GrowsByAck at hgrow
  exact absurd hgrow (by decide +kernel)

end LevelIp
