/-
From one end to the other: a socket that connects, the child the listener forks
for its SYN, and a network that may deliver what either has sent in any order,
any number of times or never. What the child's readers get is what was written
to the opener, in order and once, however the segments travel.

The other direction is not like that: the child counts its own SYN twice, and
what it sends is one ahead of what the opener expects.
-/
import LevelIp.Peers
import LevelIp.HeirStream
import LevelIp.OpenerLedger

namespace LevelIp

namespace Peers

/-- How far the child has acknowledged. -/
def heard (iss : U32) (p : Peers) : U32 :=
  match p.child with
  | none => iss
  | some c => c.sk.tcb.rcvNxt

/-- What the child's readers have, and what is queued for them. -/
def received (p : Peers) : List U8 :=
  match p.child with
  | none => []
  | some c => c.delivered ++ c.sk.unread

/-- The opener's own events keep its writers in order, and its resets find
nothing queued. Nothing is asked of the child or the network. -/
def Orderly (p : Peers) : PeerEvent → Prop
  | .opener e => e.own → p.opener.Orderly e
  | .child _ | .toOpener _ | .toChild _ _ => True

instance (p : Peers) (e : PeerEvent) : Decidable (p.Orderly e) :=
  match e with
  | .opener e => inferInstanceAs (Decidable (e.own → p.opener.Orderly e))
  | .child _ | .toOpener _ | .toChild _ _ => .isTrue trivial

/-- No number the opener takes wraps. -/
def Numbered (iss : U32) (p : Peers) : Prop := iss.toNat + seqsOf p.opener.sk.fx < 2 ^ 32

/-- The opener's ledger, and the heir of it. -/
structure Flowing (iss : U32) (p : Peers) : Prop where
  opener : Dialing iss (p.heard iss) p.opener
  child : ∀ c, p.child = some c → Heeds iss p.opener.sk.tcb.sndNxt (queuedOf p.opener.sk.fx) c

variable {l : TcpSock} {p : Peers} {iss : U32}

namespace Flowing

/-- The opener takes a step of its own or hears a segment. -/
theorem moved (h : Flowing iss p) (hi : iss ≠ 0) {e : Event} (ok : p.opener.Orderly e)
    (hseg : e.Answers (p.heard iss) (queuedOf p.opener.sk.fx)) (hn : iss.toNat + seqsOf (p.opener.step e).sk.fx < 2 ^ 32) :
    Flowing iss { p with opener := p.opener.step e } := by
  have hd := h.opener.step hi ok hseg hn
  refine ⟨hd, fun c hc => ?_⟩
  obtain ⟨es, hf, -⟩ := Conn.step_moves h.opener.tallies.ready e
  have hr := hd.ledger.recorded
  show Heeds iss (p.opener.step e).sk.tcb.sndNxt (queuedOf (p.opener.step e).sk.fx) c
  rw [hf, queuedOf_append] at hr ⊢
  exact (h.child c hc).grow h.opener.ledger.recorded hr

/-- The child takes a step of its own or hears a segment. -/
theorem followed (h : Flowing iss p) {c c' : Conn} (hc : p.child = some c)
    (hs : HeedsOn iss p.opener.sk.tcb.sndNxt (queuedOf p.opener.sk.fx) c c') : Flowing iss { p with child := some c' } := by
  obtain ⟨hs, hle⟩ := hs
  have hheard : p.heard iss = c.sk.tcb.rcvNxt := by rw [heard, hc]
  refine ⟨⟨?_, h.opener.tallies, h.opener.waiting⟩, fun d hd => ?_⟩
  · have hl := h.opener.ledger
    rw [hheard] at hl
    exact hl.mono hle
  · cases hd
    exact hs

/-- The SYN forks the child. -/
theorem forks (h : Flowing iss p) (hch : p.child = none) {seg : Seg} {s : TcpSock} {env : SynEnv} {n : Nat}
    (hn : p.opener.sent n = some seg) (hl : tcpListen l seg.tcphdr env = some s) : Flowing iss { p with child := some { sk := s } } := by
  obtain ⟨unread, hm⟩ := Conn.sent_mem hn
  have hsyn : seg.syn := by
    unfold tcpListen at hl
    split at hl
    next hs => exact hs
    next => cases hl
  have hseq := (h.opener.ledger.wire hm).2 hsyn
  have hheeds : Heeds iss p.opener.sk.tcb.sndNxt (queuedOf p.opener.sk.fx) { sk := s } :=
    Heeds.forked hl hseq h.opener.ledger.recorded
  have hheard : p.heard iss = iss := by rw [heard, hch]
  refine ⟨⟨?_, h.opener.tallies, h.opener.waiting⟩, fun d hd => ?_⟩
  · have hlg := h.opener.ledger
    rw [hheard] at hlg
    exact hlg.mono (Nat.le_of_lt hheeds.heir.stands.start)
  · cases hd
    exact hheeds

/-- **Step lemma** of both ends. -/
theorem step (h : Flowing iss p) (hi : iss ≠ 0) {e : PeerEvent} (ok : p.Orderly e) (hn : (p.step l e).Numbered iss) :
    Flowing iss (p.step l e) := by
  have hr := h.opener.ledger.recorded
  cases e with
  | opener e =>
    simp only [Peers.step] at hn ⊢
    split at hn
    next he =>
      rw [if_pos he]
      refine h.moved hi (ok he) ?_ hn
      cases e with
      | segment => cases he
      | _ => trivial
    next he => rwa [if_neg he]
  | child e =>
    simp only [Peers.step]
    split
    next he =>
      cases hc : p.child with
      | none =>
        rw [Option.map_none, ← hc]
        exact h
      | some c => exact h.followed hc ((h.child c hc).own hr he)
    next => exact h
  | toOpener n =>
    simp only [Peers.step] at hn ⊢
    cases hs : p.child.bind (·.sent n) with
    | none => exact h
    | some seg =>
      rw [hs] at hn
      obtain ⟨c, hc, hs⟩ := Option.bind_eq_some_iff.mp hs
      obtain ⟨unread, hm⟩ := Conn.sent_mem hs
      obtain ⟨hack, hle, hcut⟩ := (h.child c hc).heir.wire hm
      have horderly : p.opener.Orderly (.segment seg.tcphdr seg.payload seg.psh) := by simp [Conn.Orderly, Conn.Patient]
      refine h.moved hi horderly ⟨hack, ?_, hcut⟩ hn
      rw [heard, hc]
      exact hle
  | toChild n env =>
    simp only [Peers.step]
    cases hs : p.opener.sent n with
    | none => exact h
    | some seg =>
      dsimp only
      cases hc : p.child with
      | none =>
        dsimp only
        cases hl : tcpListen l seg.tcphdr env with
        | none =>
          rw [Option.map_none, ← hc]
          exact h
        | some s => exact h.forks hc hs hl
      | some c =>
        obtain ⟨unread, hm⟩ := Conn.sent_mem hs
        exact h.followed hc ((h.child c hc).hears hr (h.opener.ledger.wire hm).1)

end Flowing

namespace Flowing

theorem ended (h : Flowing iss p) {c : Conn} (hc : p.child = some c) (hin : .peerFin ∈ c.sk.fx) :
    p.opener.sk.state.shut ∧ c.delivered ++ c.sk.unread = p.opener.written := by
  obtain ⟨-, ⟨k, hk, hf⟩, hb⟩ := (h.child c hc).stream.after hin
  exact ⟨(h.opener.tallies.ended k hk hf).2, hb.trans (h.opener.tallies.queued_all hk hf)⟩

/-- Whatever leaves the opener carries what was written at its number. -/
theorem wire (h : Flowing iss p) {seg : Seg} {unread : Nat} (hx : .xmit seg unread ∈ p.opener.sk.fx) :
    Slice.At p.opener.written (streamOffset iss seg.seq) seg.payload.bytes := by
  obtain ⟨hof, -⟩ := h.opener.ledger.wire hx
  obtain ⟨rest, hw⟩ := h.opener.tallies.queued_begins
  have hr := h.opener.ledger.recorded
  have listed : Listed (queuedOf p.opener.sk.fx) { seq := seg.seq, payload := seg.payload } := by
    cases hof with
    | empty he => exact .inl he.payload
    | data hk hf hseq hp => exact .inr ⟨_, hk, hf, hseq, hp⟩
    | fin _ _ hp => exact .inl hp
  have hat := listed.slice hr
  rw [← hw]
  by_cases hp : seg.payload.bytes = []
  · rw [hp]
    exact .nil
  · exact hat.mono rest (hat.length_le hp)

end Flowing

/-! ## Runs -/

section

variable {l : TcpSock} {o : OpenArgs} {iss : U32} {es : List PeerEvent}

end

/-- The second of two writes arrives first; the first is lost, and sent again by
the retransmission timer. The child reads across both, and then the FIN comes. -/
def lossyRun : List PeerEvent :=
  shakeRun ++ [.opener (.write [1, 2, 3]), .opener (.write [4, 5]), .toChild 8 { iss := 0, listener := 0, saddr := .v4 0 },
    .opener (.dispatch 0), .opener (.handler 0), .toChild 9 { iss := 0, listener := 0, saddr := .v4 0 }, .child (.read 4),
    .toOpener 7, .opener .close, .toChild 13 { iss := 0, listener := 0, saddr := .v4 0 }]

end Peers

end LevelIp
