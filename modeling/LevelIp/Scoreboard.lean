/-
The SACK scoreboard. `tcp_parse_opts` marks what a block covers, but only the
options of a SYN ever reach it: whatever an ACK reports later, nothing is
marked and `sack_max_right` stays where it was.
-/
import LevelIp.SackRun

namespace LevelIp

/-- The skb lies inside the block. -/
def Skb.inside (k : Skb) (b : U32 × U32) : Prop := k.seq ≥ b.1 ∧ k.endSeq ≤ b.2

instance (k : Skb) (b : U32 × U32) : Decidable (k.inside b) := inferInstanceAs (Decidable (_ ∧ _))

/-- The highest right edge of some blocks. -/
def maxRight (bs : List (U32 × U32)) : U32 := bs.foldl (fun m b => if b.2 > m then b.2 else m) 0

theorem le_maxRight {bs : List (U32 × U32)} {b : U32 × U32} (h : b ∈ bs) : b.2 ≤ maxRight bs := by
  have hfold : ∀ (bs : List (U32 × U32)) (m : U32),
      m ≤ bs.foldl (fun m b => if b.2 > m then b.2 else m) m ∧ ∀ b ∈ bs, b.2 ≤ bs.foldl (fun m b => if b.2 > m then b.2 else m) m := by
    intro bs
    induction bs with
    | nil => exact fun m => ⟨BitVec.le_refl m, List.forall_mem_nil _⟩
    | cons c bs ih =>
      intro m
      rw [List.foldl_cons]
      obtain ⟨hm, hbs⟩ := ih (if c.2 > m then c.2 else m)
      have hstep : m ≤ (if c.2 > m then c.2 else m) ∧ c.2 ≤ (if c.2 > m then c.2 else m) := by
        split
        next hc => exact ⟨BitVec.le_of_lt hc, BitVec.le_refl _⟩
        next hc => exact ⟨BitVec.le_refl m, BitVec.not_lt.mp hc⟩
      exact ⟨BitVec.le_trans hstep.1 hm, List.forall_mem_cons.mpr ⟨BitVec.le_trans hstep.2 hm, hbs⟩⟩
  exact (hfold bs 0).2 b h

/-- **The scoreboard shows the blocks**: an skb is marked if and only if it lies
inside one, `sack_max_right` is the highest right edge, and what
`tcp_fast_retransmit` picks is not marked while an skb below that edge is not. -/
structure TcpSock.Scoreboard (s : TcpSock) (bs : List (U32 × U32)) : Prop where
  marked : ∀ k ∈ s.writeQueue, k.sacked ↔ ∃ b ∈ bs, k.inside b
  right : s.sackMaxRight = maxRight bs
  candidate : ∀ k, tcpRetransmitCandidate s = some k → k.sacked → ∀ k' ∈ s.writeQueue, k'.sacked = false → ¬k'.endSeq ≤ s.sackMaxRight

/-- With nothing reported the empty scoreboard is right. -/
theorem TcpSock.Unmarked.scoreboard {s : TcpSock} (h : s.Unmarked) : s.Scoreboard [] where
  marked := fun k hk => by
    rw [h.queue k hk]
    exact ⟨nofun, nofun⟩
  right := h.right
  candidate := fun k hk hm => by
    rw [h.queue k (tcpRetransmitCandidate_mem hk)] at hm
    cases hm

/-! ## The reports -/

/-- A socket with the blocks its peer has reported since the last RTO. -/
structure SackHistory where
  conn : Conn
  reported : List (U32 × U32) := []

namespace SackHistory

/-- The blocks of an acceptable ACK that arrives in ESTABLISHED or later. -/
def reports (c : Conn) : LifeEvent → List (U32 × U32)
  | .conn (.segment th data psh) =>
    if !c.sk.fault && c.sk.state.takesAck && c.sk.core.Heard th (tcpInitSegment th data psh) then th.sackBlocks else []
  | .conn _ | .listen | .connect _ _ => []

/-- The event is an RTO that finds something to send again. -/
def timesOut (c : Conn) : LifeEvent → Bool
  | .conn (.handler i) =>
    !c.sk.fault && !c.sk.writeQueue.isEmpty &&
      match c.sk.spawned[i]? with
      | some (.retransmissionTimeout epoch) => epoch = c.sk.rtoEpoch
      | _ => false
  | .conn _ | .listen | .connect _ _ => false

def step (h : SackHistory) (e : LifeEvent) : SackHistory where
  conn := h.conn.live e
  reported := if timesOut h.conn e then [] else h.reported ++ reports h.conn e

/-- The blocks in the SYN that answers ours. -/
def synReports (c : Conn) : LifeEvent → List (U32 × U32)
  | .conn (.segment th _ _) => if c.sk.state = .synSent ∧ th.syn then th.sackBlocks else []
  | .conn _ | .listen | .connect _ _ => []

/-- **The condition**: no ACK reports a block, and neither does the SYN. -/
abbrev Unreported (h : SackHistory) (e : LifeEvent) : Prop := reports h.conn e = [] ∧ synReports h.conn e = []

/-- The scoreboard shows what was reported. -/
def Shows (h : SackHistory) : Prop := h.conn.sk.Scoreboard h.reported

/-- Nothing is marked. -/
structure Blank (h : SackHistory) : Prop where
  life : h.conn.sk.SackLife
  unmarked : h.conn.sk.Unmarked

/-- An event marks nothing, unless it is the SYN. -/
theorem Blank.step {h : SackHistory} (hb : h.Blank) {e : LifeEvent} (hsyn : synReports h.conn e = []) : (h.step e).Blank := by
  refine ⟨Conn.live_sackLife hb.life e, ?_⟩
  show (h.conn.live e).sk.Unmarked
  cases e with
  | listen =>
    rw [Conn.live]
    split
    · exact hb.unmarked
    · exact (calm_tcpV4Listen _).unmarked hb.unmarked
  | connect d iss =>
    rw [Conn.live]
    split
    · exact hb.unmarked
    · exact (calm_inetStreamConnect hb.life.ok d iss).unmarked hb.unmarked
  | conn e =>
    refine ((Conn.step_sack hb.life.count e).2.2.2 fun th data psh he hst hs => ?_).unmarked hb.unmarked
    rw [he, synReports, if_pos ⟨hst, hs⟩] at hsyn
    exact hsyn

/-- **SACK scoreboard**: as long as no block is reported the scoreboard is right
in every state; and it is wrong as soon as an ACK reports a block whose right
edge is not zero. -/
theorem scoreboard_unreported {s : TcpSock} (hb : Born s) (hu : s.Unmarked) {es : List LifeEvent}
    (hm : Machine.Meets step Unreported { conn := { sk := s } } es) :
    (∀ n, (Machine.run step { conn := { sk := s } } (es.take n)).Shows) ∧
      ∀ e, (∃ b ∈ reports (Machine.run step { conn := { sk := s } } es).conn e, b.2 ≠ 0) →
        ¬((Machine.run step { conn := { sk := s } } es).step e).Shows := by
  have hblank : ∀ (h : SackHistory) (e : LifeEvent), h.Unreported e → h.Blank ∧ h.reported = [] → (h.step e).Blank ∧ (h.step e).reported = [] := by
    rintro h e ⟨hnone, hsyn⟩ ⟨hbl, hrep⟩
    refine ⟨hbl.step hsyn, ?_⟩
    show (if timesOut h.conn e then [] else h.reported ++ reports h.conn e) = []
    rw [hrep, hnone, List.append_nil, ite_self]
  have hstart : ({ conn := { sk := s } } : SackHistory).Blank ∧ ({ conn := { sk := s } } : SackHistory).reported = [] := ⟨⟨hb.sackLife.1, hu⟩, rfl⟩
  constructor
  · intro n
    have hprefix : Machine.Meets step Unreported { conn := { sk := s } } (es.take n) := by
      rw [← List.take_append_drop n es] at hm
      exact (Machine.Meets.append.mp hm).1
    obtain ⟨hbl, hrep⟩ := hprefix.invariant hblank hstart
    show TcpSock.Scoreboard _ _
    rw [hrep]
    exact hbl.unmarked.scoreboard
  · rintro e ⟨b, hmem, hne⟩ hshows
    obtain ⟨hbl, hrep⟩ := hm.invariant hblank hstart
    generalize Machine.run step { conn := { sk := s } } es = h at hmem hshows hbl hrep
    -- only a segment reports, and not in SYN_SENT
    have hseg : synReports h.conn e = [] ∧ timesOut h.conn e = false := by
      cases e with
      | conn e =>
        cases e with
        | segment th data psh =>
          refine ⟨if_neg ?_, rfl⟩
          rintro ⟨hst, -⟩
          rw [reports, hst, show TcpState.synSent.takesAck = false from rfl, Bool.and_false, Bool.false_and,
            if_neg Bool.false_ne_true] at hmem
          cases hmem
        | _ => cases hmem
      | _ => cases hmem
    obtain ⟨hsyn, hrto⟩ := hseg
    have hright : (h.conn.live e).sk.sackMaxRight = maxRight (if timesOut h.conn e then [] else h.reported ++ reports h.conn e) := hshows.right
    have hzero : (h.conn.live e).sk.sackMaxRight = 0 := (hbl.step hsyn).unmarked.right
    have hle := le_maxRight hmem
    rw [hrto, if_neg Bool.false_ne_true, hrep, List.nil_append, hzero] at hright
    rw [← hright] at hle
    exact hne (BitVec.eq_of_toNat_eq (Nat.le_zero.mp (BitVec.le_def.mp hle)))

/-- The option area of an ACK that reports one block. -/
def blockOptions (left right : U32) : List U8 := [TCP_OPT_NOOP, TCP_OPT_NOOP, TCP_OPT_SACK, 10] ++ toBe32 left ++ toBe32 right

/-- A client that sends two segments, of which its peer has the second. -/
def lostFirst : List LifeEvent :=
  [.connect {} 100, .conn synAckEvent, .conn (.write [1, 2, 3, 4]), .conn (.write [5, 6, 7, 8])]

def sackingAck : LifeEvent :=
  .conn (.segment { seq := 501, ackSeq := 101, hl := 8, ack := true, win := 10000, data := blockOptions 105 109 } Payload.nil false)

theorem scoreboard_unreported_client :
    (∀ n, (Machine.run step { conn := { sk := freshSock {} } } (lostFirst.take n)).Shows) ∧
      ¬((Machine.run step { conn := { sk := freshSock {} } } lostFirst).step sackingAck).Shows := by
  have h := scoreboard_unreported (.fresh {}) ⟨rfl, List.forall_mem_nil _⟩
    (show Machine.Meets step Unreported { conn := { sk := freshSock {} } } lostFirst by decide +kernel)
  exact ⟨h.1, h.2 sackingAck ⟨(105, 109), by decide +kernel, by decide⟩⟩

/-- **The second segment is reported and not marked.** -/
theorem block_unmarked : ¬∀ n, (Machine.run step { conn := { sk := freshSock {} } } ((lostFirst ++ [sackingAck]).take n)).Shows := by
  intro h
  have hshows := h 5
  have hmarked := hshows.marked { seq := 105, endSeq := 109, payload := ⟨[5, 6, 7, 8], by decide⟩, psh := true, ack := true } (by decide +kernel)
  exact absurd (hmarked.mpr ⟨(105, 109), by decide +kernel, by decide +kernel⟩) (by decide)

end SackHistory

end LevelIp
