/-
Both ends of a handshake: the socket that connects, the child the listener
forks for its SYN, and everything either has sent, which the network may
deliver to the other in any order, any number of times or never. What their
sequence numbers are once both are ESTABLISHED and neither has sent data.
-/
import LevelIp.Greeting

namespace LevelIp

/-! ## Both ends -/

/-- The `n`th effect of the socket, if it is a segment. -/
def Conn.sent (c : Conn) (n : Nat) : Option Seg :=
  match c.sk.fx[n]? with
  | some (.xmit seg _) => some seg
  | _ => none

theorem Conn.sent_mem {c : Conn} {n : Nat} {seg : Seg} (h : c.sent n = some seg) : ∃ unread, .xmit seg unread ∈ c.sk.fx := by
  unfold sent at h
  split at h
  next seg' unread hx =>
    cases h
    exact ⟨unread, List.mem_of_getElem? hx⟩
  next => cases h

/-- The socket that connects, and the child forked for its SYN once there is one. -/
structure Peers where
  opener : Conn
  child : Option Conn
deriving DecidableEq

/-- What happens at one end, or a segment the other has sent arriving: any it
ever sent, as often as the network likes. -/
inductive PeerEvent where
  | opener (e : Event)
  | child (e : Event)
  | toOpener (n : Nat)
  /-- With what `tcp_listen` finds outside itself, should it fork. -/
  | toChild (n : Nat) (env : SynEnv)

namespace Peers

/-- One event. `socket_lookup` finds the listener `l` for the SYN, and from then
on the child, which has the addresses and ports of the SYN. -/
def step (l : TcpSock) (p : Peers) : PeerEvent → Peers
  | .opener e => if e.own then { p with opener := p.opener.step e } else p
  | .child e => if e.own then { p with child := p.child.map (·.step e) } else p
  | .toOpener n =>
    match p.child.bind (·.sent n) with
    | none => p
    | some seg => { p with opener := p.opener.hears seg }
  | .toChild n env =>
    match p.opener.sent n with
    | none => p
    | some seg =>
      match p.child with
      | none => { p with child := (tcpListen l seg.tcphdr env).map fun s => { sk := s } }
      | some c => { p with child := some (c.hears seg) }

abbrev run (l : TcpSock) (p : Peers) (es : List PeerEvent) : Peers := Machine.run (step l) p es

/-- `tcp_connect` has sent its SYN to the listener. -/
def dial (l : TcpSock) (o : OpenArgs) (iss : U32) : Peers :=
  { opener := { sk := activeOpen { o with daddr := l.saddr, dport := l.sport } iss }, child := none }

/-- Both ends are opening or open, and nothing has been sent. -/
def Fresh (p : Peers) : Prop := p.opener.Fresh ∧ ∀ c, p.child = some c → c.Fresh

def Ready (p : Peers) : Prop := p.opener.Ready ∧ ∀ c, p.child = some c → c.Ready

/-- The window a child opens for this ISS does not wrap. -/
def Fits (iss : U32) : Prop := iss.toNat + 1 + tcpSelectInitialWindow.toNat < 2 ^ 32

/-- How far the handshake is: the SYN is sent, a child has answered it, or the
opener has taken the answer. A child whose window wraps hears nothing then. -/
inductive Stage (iss : U32) : Peers → Prop
  | calling {a : Conn} : a.Reading → a.sk.Greets false iss (iss + 1) 0 → Stage iss { opener := a, child := none }
  | answered {a b : Conn} {ciss : U32} : a.Reading → a.sk.Greets false iss (iss + 1) 0 →
      b.Reading → b.sk.Greets true ciss (ciss + 2) (iss + 1) → Stage iss { opener := a, child := some b }
  | taken {a b : Conn} {ciss : U32} : a.Reading → a.sk.Silent (iss + 1) (ciss + 1) →
      b.Reading → b.sk.Silent (ciss + 2) (iss + 1) → iss < iss + 1 → (¬Fits iss → b.sk.Greets true ciss (ciss + 2) (iss + 1)) →
      Stage iss { opener := a, child := some b }

variable {l : TcpSock} {p : Peers} {iss : U32}

theorem wraps (hlt : iss < iss + 1) (h : ¬Fits iss) : iss + 1 + tcpSelectInitialWindow < iss + 1 := by
  unfold Fits tcpSelectInitialWindow at h
  unfold tcpSelectInitialWindow
  bv_omega

theorem step_ready (h : p.Ready) (e : PeerEvent) : (p.step l e).Ready := by
  obtain ⟨ha, hc⟩ := h
  cases e with
  | opener e =>
    simp only [step]
    split
    · exact ⟨Conn.step_ready ha e, hc⟩
    · exact ⟨ha, hc⟩
  | child e =>
    simp only [step]
    split
    · refine ⟨ha, fun c hm => ?_⟩
      obtain ⟨c₀, hc₀, rfl⟩ := Option.map_eq_some_iff.mp hm
      exact Conn.step_ready (hc c₀ hc₀) e
    · exact ⟨ha, hc⟩
  | toOpener n =>
    simp only [step]
    split
    · exact ⟨ha, hc⟩
    · exact ⟨Conn.step_ready ha _, hc⟩
  | toChild n env =>
    simp only [step]
    split
    · exact ⟨ha, hc⟩
    · split
      · refine ⟨ha, fun c hm => ?_⟩
        obtain ⟨s, -, rfl⟩ := Option.map_eq_some_iff.mp hm
        exact Conn.ready_of_no_calls s
      next c hch =>
        refine ⟨ha, fun c' hm => ?_⟩
        cases hm
        exact Conn.step_ready (hc c hch) _

theorem fresh_of_step (hr : p.Ready) {e : PeerEvent} (h : (p.step l e).Fresh) : p.Fresh := by
  obtain ⟨ha, hc⟩ := hr
  cases e with
  | opener e =>
    simp only [step] at h
    split at h
    · exact ⟨Conn.fresh_of_step ha h.1, h.2⟩
    · exact h
  | child e =>
    simp only [step] at h
    split at h
    · refine ⟨h.1, fun c hm => ?_⟩
      have hf : (c.step e).Fresh := h.2 _ (by simp only [hm, Option.map_some])
      exact Conn.fresh_of_step (hc c hm) hf
    · exact h
  | toOpener n =>
    simp only [step] at h
    split at h
    · exact h
    · exact ⟨Conn.fresh_of_step ha h.1, h.2⟩
  | toChild n env =>
    simp only [step] at h
    split at h
    · exact h
    · split at h
      next hch =>
        refine ⟨h.1, fun c hm => ?_⟩
        rw [hch] at hm
        cases hm
      next c hch =>
        refine ⟨h.1, fun c' hm => ?_⟩
        rw [hch] at hm
        cases hm
        exact Conn.fresh_of_step (hc c hch) (h.2 _ rfl)

theorem Stage.opener {e : Event} (h : p.Stage iss) (he : e.own) (hf : (p.opener.step e).Fresh) :
    Stage iss { p with opener := p.opener.step e } := by
  cases h with
  | calling hr hg =>
    obtain ⟨hr', a, ha, hm⟩ := hr.own he hf
    exact .calling hr' (hg.moves hm ha hf.2)
  | answered hr hg hb hgb =>
    obtain ⟨hr', a, ha, hm⟩ := hr.own he hf
    exact .answered hr' (hg.moves hm ha hf.2) hb hgb
  | taken hr hs hb hsb hlt hw =>
    obtain ⟨hr', a, ha, hm⟩ := hr.own he hf
    exact .taken hr' (hs.moves hm (.inl ha) hf.2) hb hsb hlt hw

theorem Stage.child {e : Event} (h : p.Stage iss) (he : e.own) (hf : ∀ c, p.child = some c → (c.step e).Fresh) :
    Stage iss { p with child := p.child.map (·.step e) } := by
  cases h with
  | calling hr hg => exact .calling hr hg
  | answered hr hg hb hgb =>
    have hf := hf _ rfl
    obtain ⟨hb', a, ha, hm⟩ := hb.own he hf
    exact .answered hr hg hb' (hgb.moves hm ha hf.2)
  | taken hr hs hb hsb hlt hw =>
    have hf := hf _ rfl
    obtain ⟨hb', a, ha, hm⟩ := hb.own he hf
    exact .taken hr hs hb' (hsb.moves hm (.inl ha) hf.2) hlt fun h => (hw h).moves hm ha hf.2

theorem hears_reading {c : Conn} (h : c.Reading) (seg : Seg) : (c.hears seg).Reading := by
  unfold Conn.Reading
  rw [Conn.hears_calls]
  exact h

theorem Stage.toOpener {n : Nat} {seg : Seg} {c : Conn} (h : p.Stage iss) (hch : p.child = some c) (hn : c.sent n = some seg)
    (hf : (p.opener.hears seg).Fresh) : Stage iss { p with opener := p.opener.hears seg } := by
  obtain ⟨unread, hm⟩ := Conn.sent_mem hn
  cases h with
  | calling => cases hch
  | answered hr hg hb hgb =>
    cases hch
    obtain ⟨-, -, hsyn⟩ := hgb.log seg unread hm
    rcases Conn.hears_greeted hg (fun hs => (hsyn hs).1) hf.2 with hg' | ⟨hs, hlt, hsil⟩
    · exact .answered (hears_reading hr seg) hg' hb hgb
    · rw [(hsyn hs).2] at hsil
      exact .taken (hears_reading hr seg) hsil hb hgb.silent hlt fun _ => hgb
  | taken hr hs hb hsb hlt hw =>
    cases hch
    exact .taken (hears_reading hr seg) (Conn.hears_silent hs hr (hsb.log seg unread hm) hf.2) hb hsb hlt hw

theorem Stage.toChild {n : Nat} {seg : Seg} {c : Conn} (h : p.Stage iss) (hch : p.child = some c) (hn : p.opener.sent n = some seg)
    (hf : (c.hears seg).Fresh) : Stage iss { p with child := some (c.hears seg) } := by
  obtain ⟨unread, hm⟩ := Conn.sent_mem hn
  cases h with
  | calling => cases hch
  | answered hr hg hb hgb =>
    cases hch
    obtain ⟨-, hack, -⟩ := hg.log seg unread hm
    exact .answered hr hg (hears_reading hb seg) (Conn.hears_unanswered hgb hack hf.2)
  | taken hr hs hb hsb hlt hw =>
    cases hch
    refine .taken hr hs (hears_reading hb seg) (Conn.hears_silent hsb hb (hs.log seg unread hm) hf.2) hlt fun h => ?_
    exact Conn.hears_wrapped (hw h) (wraps hlt h) hf.2

/-- The SYN forks a child. -/
theorem Stage.forks {n : Nat} {seg : Seg} {s : TcpSock} {env : SynEnv} (h : p.Stage iss) (hch : p.child = none)
    (hn : p.opener.sent n = some seg) (hl : tcpListen l seg.tcphdr env = some s) : Stage iss { p with child := some { sk := s } } := by
  obtain ⟨unread, hm⟩ := Conn.sent_mem hn
  have hsyn : seg.syn := by
    unfold tcpListen at hl
    split at hl
    next hs => exact hs
    next => cases hl
  cases h with
  | calling hr hg =>
    obtain ⟨-, -, hseq⟩ := hg.log seg unread hm
    have hgb := tcpListen_greets hl
    rw [show seg.tcphdr.seq = iss from (hseq hsyn).2] at hgb
    exact .answered hr hg (fun call hc => by cases hc) hgb
  | answered | taken => cases hch

/-- **Step lemma** of the handshake. -/
theorem Stage.step (h : p.Stage iss) (e : PeerEvent) (hf : (p.step l e).Fresh) : (p.step l e).Stage iss := by
  cases e with
  | opener e =>
    simp only [Peers.step] at hf ⊢
    split at hf
    next he =>
      rw [if_pos he]
      exact h.opener he hf.1
    next he => rwa [if_neg he]
  | child e =>
    simp only [Peers.step] at hf ⊢
    split at hf
    next he =>
      rw [if_pos he]
      exact h.child he fun c hc => hf.2 _ (by simp only [hc, Option.map_some])
    next he => rwa [if_neg he]
  | toOpener n =>
    simp only [Peers.step] at hf ⊢
    cases hn : p.child.bind (·.sent n) with
    | none => exact h
    | some seg =>
      rw [hn] at hf
      obtain ⟨c, hc, hn⟩ := Option.bind_eq_some_iff.mp hn
      exact h.toOpener hc hn hf.1
  | toChild n env =>
    simp only [Peers.step] at hf ⊢
    cases hn : p.opener.sent n with
    | none => exact h
    | some seg =>
      rw [hn] at hf
      dsimp only at hf ⊢
      cases hc : p.child with
      | none =>
        dsimp only
        cases hl : tcpListen l seg.tcphdr env with
        | none =>
          rw [Option.map_none, ← hc]
          exact h
        | some s => exact h.forks hc hn hl
      | some c =>
        rw [hc] at hf
        exact h.toChild hc hn (hf.2 _ rfl)

/-- **Run lemma**: as long as nothing is sent or closed, the handshake is at one
of its stages. -/
theorem run_stage (l : TcpSock) (o : OpenArgs) (iss : U32) (es : List PeerEvent) (hf : ((dial l o iss).run l es).Fresh) :
    ((dial l o iss).run l es).Stage iss := by
  have hstep : ∀ (p : Peers) (e : PeerEvent), p.Ready ∧ (p.Fresh → p.Stage iss) →
      (p.step l e).Ready ∧ ((p.step l e).Fresh → (p.step l e).Stage iss) :=
    fun p e h => ⟨step_ready h.1 e, fun hf => (h.2 (fresh_of_step h.1 hf)).step e hf⟩
  refine (Machine.invariant (I := fun p : Peers => p.Ready ∧ (p.Fresh → p.Stage iss)) hstep es ?_).2 hf
  refine ⟨⟨Conn.ready_of_no_calls _, fun c hc => by cases hc⟩, fun _ => .calling (fun call hc => by cases hc) ?_⟩
  exact activeOpen_greets _ iss

end Peers

/-! ## The handshake completes -/

/-- The ACK of a SYN-ACK. -/
structure Seg.Acks (seg : Seg) (n a : U32) : Prop where
  empty : seg.Empty
  seq : seg.seq = n
  ackSeq : seg.ackSeq = a
  ack : seg.ack
  syn : seg.syn = false
  rst : seg.rst = false

theorem ackSeg_acks (s : TcpSock) : (ackSeg s).Acks s.tcb.sndNxt s.tcb.rcvNxt where
  empty := ⟨rfl, rfl⟩
  seq := rfl
  ackSeq := rfl
  ack := rfl
  syn := rfl
  rst := rfl

/-- An acceptable SYN-ACK opens the connection and is acknowledged. -/
theorem tcpSynsent_opens {s : TcpSock} (th : Tcphdr) (hsyn : th.syn) (hack : th.ack) (hrst : th.rst = false)
    (hi : s.tcb.iss < th.ackSeq) (hu : s.tcb.sndUna ≤ th.ackSeq) (hn : th.ackSeq ≤ s.tcb.sndNxt) :
    (tcpSynsent s th).state = .established ∧ Emits (fun seg => seg.Acks s.tcb.sndNxt (th.seq + 1)) s (tcpSynsent s th) := by
  have h1 : ¬(th.ack ∧ (th.ackSeq ≤ s.tcb.iss ∨ th.ackSeq > s.tcb.sndNxt)) := fun h => by
    rcases h.2 with h | h
    · exact BitVec.not_le.mpr hi h
    · exact BitVec.not_lt.mpr hn h
  have h2 : ¬(th.ack ∧ (th.ackSeq < s.tcb.sndUna ∨ th.ackSeq > s.tcb.sndNxt)) := fun h => by
    rcases h.2 with h | h
    · exact BitVec.not_lt.mpr hu h
    · exact BitVec.not_lt.mpr hn h
  rw [tcpSynsent_eq, if_neg h1, if_neg h2, if_neg (by simp [hrst]), if_neg (by simp [hsyn])]
  have hc := synAckedSock_core s th
  have hl := synAckedSock_logs s th
  generalize synAckedSock s th = t at hc hl
  have hsa : s.core.snd.synAcked th = s.core.snd.acked th.ackSeq := if_pos hack
  rw [hsa] at hc
  have huna : t.tcb.sndUna = th.ackSeq := congrArg (·.snd.una) hc
  have hiss : t.tcb.iss = s.tcb.iss := congrArg (·.snd.iss) hc
  have hnxt : t.tcb.sndNxt = s.tcb.sndNxt := congrArg (·.snd.nxt) hc
  have hrcv : t.tcb.rcvNxt = th.seq + 1 := congrArg (·.rcv.nxt) hc
  rw [synTaken, if_pos (by rw [huna, hiss]; exact hi)]
  refine ⟨congrArg Core.state (synsentEstablish_core t th), ?_⟩
  have hem : Emits (fun seg => seg.Acks s.tcb.sndNxt (th.seq + 1)) (openedSock t th) (tcpSendAck (openedSock t th)) := by
    refine tcpSendAck_emits (s := openedSock t th) (show TcpState.established ≠ .close by decide) ?_
    rw [← hnxt, ← hrcv]
    exact ackSeg_acks (openedSock t th)
  have hem := hem.then_logs (quiet_tcpRearmUserTimeout _).logs
  have hem := hem.then_logs (Logs.same (P := fun _ => True) (tcpParseOpts_fx _ th))
  have hem := hem.then_logs (u := synsentEstablish t th) (Q := fun _ => True) ⟨[.wakeup .sleep], rfl, fun _ _ => trivial⟩
  exact (hem.after_logs (Logs.same (P := fun _ => True) (s := t) rfl)).after_logs hl

/-- The ACK of the SYN-ACK, where the window does not wrap, opens the child. -/
theorem tcpInputOtherwise_opens {s : TcpSock} {seg : Seg} {n a : U32} (hs : s.state = .synReceived) (hp : s.ptsk.isSome)
    (ha : seg.Acks n a) (hn : s.tcb.rcvNxt = n) (hw : n ≤ n + s.tcb.rcvWnd) (hu : s.tcb.sndUna < a) (hx : a ≤ s.tcb.sndNxt) :
    (tcpInputOtherwise s seg.tcphdr (tcpInitSegment seg.tcphdr seg.payload seg.psh)).state = .established := by
  have hv : s.core.rcv.verify seg.tcphdr (tcpInitSegment seg.tcphdr seg.payload seg.psh) = true := by
    rw [verify_dataless _ _ (Payload.len_eq_zero.mpr ha.empty.payload)]
    have hseq : seg.tcphdr.seq = n := ha.seq
    have hr : s.core.rcv.nxt = n := hn
    have hw' : ¬n > n + s.core.rcv.wnd := BitVec.not_lt.mpr hw
    simp [hseq, hr, hw', BitVec.lt_irrefl]
  have hrst : seg.tcphdr.rst = false := ha.rst
  have hsyn : seg.tcphdr.syn = false := ha.syn
  have hack : seg.tcphdr.ack = true := ha.ack
  have hfin : seg.tcphdr.fin = false := ha.empty.fin
  have hnew : ackIsNew s seg.tcphdr = true := by
    have hseq : seg.tcphdr.ackSeq = a := ha.ackSeq
    simp [ackIsNew, hseq, hu, hx]
  rw [tcpInputOtherwise_state (by rw [hs]; exact ⟨by simp, by simp, by simp⟩)]
  simp only [Core.Heard, hv, hrst, hsyn, hack, TcpSock.heardState, hs, hnew, hp, hfin, Bool.not_false, Bool.and_true,
    Bool.and_false, Bool.false_and, if_true, if_false, Bool.false_eq_true]
  rfl

theorem Conn.sent_of_mem {c : Conn} {seg : Seg} {unread : Nat} (h : .xmit seg unread ∈ c.sk.fx) : ∃ n, c.sent n = some seg := by
  obtain ⟨n, hn⟩ := List.getElem?_of_mem h
  exact ⟨n, by rw [sent, hn]⟩

theorem Conn.hears_eq {c : Conn} (hf : c.sk.fault = false) (seg : Seg) : c.hears seg =
    { c with sk := segmentArrives c.sk seg.tcphdr (tcpInitSegment seg.tcphdr seg.payload seg.psh) } := by
  rw [hears, step, if_neg (by simp [hf])]

/-- ESTABLISHED, with nothing sent. -/
def Conn.isOpen (c : Conn) : Bool := c.sk.state = .established && c.written.isEmpty

namespace Peers

/-- Both ends are ESTABLISHED and neither has sent data. -/
def met (p : Peers) : Bool := p.opener.isOpen && p.child.any Conn.isOpen

/-- The answer to the SYN-ACK of a child. -/
theorem hears_synAck {a : Conn} {iss n : U32} {seg : Seg} (hf : a.sk.fault = false) (hg : a.sk.Greets false iss (iss + 1) 0)
    (hw : a.written = []) (hlt : iss < iss + 1) (hsyn : seg.syn) (hack : seg.ack) (hrst : seg.rst = false) (hseq : seg.seq = n)
    (ha : seg.ackSeq = iss + 1) : (a.hears seg).isOpen ∧ ∃ i ack, (a.hears seg).sent i = some ack ∧ ack.Acks (iss + 1) (n + 1) := by
  have hs : a.sk.state = .synSent := hg.stateEq
  have hi : a.sk.tcb.iss = iss := Core.Greets.number hg
  have hu : a.sk.tcb.sndUna = iss := Core.Greets.una hg
  have hn : a.sk.tcb.sndNxt = iss + 1 := Core.Greets.snd hg
  have ha : seg.tcphdr.ackSeq = iss + 1 := ha
  have h := tcpSynsent_opens (s := a.sk) seg.tcphdr hsyn hack hrst (by rw [hi, ha]; exact hlt)
    (by rw [hu, ha]; exact BitVec.le_of_lt hlt) (by rw [hn, ha]; exact BitVec.le_refl _)
  rw [hn, show seg.tcphdr.seq = n from hseq] at h
  obtain ⟨hst, new, hfx, ack, unread, hm, hacks⟩ := h
  have he : a.hears seg = { a with sk := tcpSynsent a.sk seg.tcphdr } := by
    rw [Conn.hears_eq hf]
    simp only [segmentArrives, hs]
  rw [he]
  obtain ⟨i, hi⟩ := Conn.sent_of_mem (c := { a with sk := tcpSynsent a.sk seg.tcphdr }) (by
    show _ ∈ (tcpSynsent a.sk seg.tcphdr).fx
    rw [hfx]
    exact List.mem_append_right _ hm)
  exact ⟨by simp [Conn.isOpen, hst, hw], i, ack, hi, hacks⟩

/-- The child, where its window does not wrap, hears the ACK of its SYN-ACK. -/
theorem child_opens {l s : TcpSock} {th : Tcphdr} {env : SynEnv} {seg : Seg} (hl : tcpListen l th env = some s)
    (ha : seg.Acks (th.seq + 1) (env.iss + 1)) (hw : th.seq + 1 ≤ th.seq + 1 + tcpSelectInitialWindow)
    (hi : env.iss < env.iss + 1) (hx : env.iss + 1 ≤ env.iss + 2) : (Conn.hears { sk := s } seg).isOpen := by
  obtain ⟨hc, -⟩ := tcpListen_core hl
  have hs : s.state = .synReceived := congrArg Core.state hc
  have hp : s.ptsk = some env.listener := congrArg Core.ptsk hc
  have hn : s.tcb.rcvNxt = th.seq + 1 := congrArg (·.rcv.nxt) hc
  have hwnd : s.tcb.rcvWnd = tcpSelectInitialWindow := congrArg (·.rcv.wnd) hc
  have hu : s.tcb.sndUna = env.iss := congrArg (·.snd.una) hc
  have hsx : s.tcb.sndNxt = env.iss + 2 := congrArg (·.snd.nxt) hc
  have hf : s.fault = false := congrArg Core.fault hc
  have ho := tcpInputOtherwise_opens hs (by rw [hp]; rfl) ha hn (by rw [hwnd]; exact hw) (by rw [hu]; exact hi) (by rw [hsx]; exact hx)
  rw [Conn.hears_eq hf]
  simp only [segmentArrives, hs]
  simp [Conn.isOpen, ho]

/-- A SYN, a SYN-ACK and an ACK that all arrive. -/
theorem exists_met (l : TcpSock) (o : OpenArgs) {iss : U32} (h : Fits iss) : ∃ es, ((dial l o iss).run l es).met := by
  have hlt : iss < iss + 1 ∧ iss + 1 ≤ iss + 1 + tcpSelectInitialWindow := by
    unfold Fits tcpSelectInitialWindow at h
    unfold tcpSelectInitialWindow
    bv_omega
  obtain ⟨cwnd, e, hf, he⟩ := activeOpen_fx { o with daddr := l.saddr, dport := l.sport } iss
  have hc := activeOpen_core { o with daddr := l.saddr, dport := l.sport } iss
  have hg := activeOpen_greets { o with daddr := l.saddr, dport := l.sport } iss
  unfold dial
  generalize activeOpen { o with daddr := l.saddr, dport := l.sport } iss = a at hf hc hg
  have hfault : a.fault = false := congrArg Core.fault hc
  cases e with
  | xmit syn unread =>
    obtain ⟨hseq, -, hsyn, -⟩ := he
    have hseq : syn.tcphdr.seq = iss := hseq
    let env : SynEnv := { iss := 500, listener := 0, saddr := o.saddr }
    have hl : ∃ s, tcpListen l syn.tcphdr env = some s := ⟨_, if_pos hsyn⟩
    obtain ⟨s, hl⟩ := hl
    obtain ⟨-, cwnd', e', hf', he'⟩ := tcpListen_core hl
    cases e' with
    | xmit synAck unread' =>
      obtain ⟨hseq', -, hsyn', -, hrst', hack', -, hackSeq, -⟩ := he'
      have hackSeq : synAck.ackSeq = iss + 1 := by rw [hackSeq, ← hseq]; rfl
      obtain ⟨hopen, i, ack, hi, hacks⟩ := hears_synAck (a := { sk := a }) hfault hg rfl hlt.1 hsyn' hack' hrst' hseq' hackSeq
      have h1 : (Peers.mk { sk := a } none).step l (.toChild 1 env) = { opener := { sk := a }, child := some { sk := s } } := by
        simp [step, Conn.sent, hf, hl]
      have h2 : (Peers.mk { sk := a } (some { sk := s })).step l (.toOpener 1) =
          { opener := Conn.hears { sk := a } synAck, child := some { sk := s } } := by
        simp [step, Conn.sent, hf']
      have h3 : (Peers.mk (Conn.hears { sk := a } synAck) (some { sk := s })).step l (.toChild i env) =
          { opener := Conn.hears { sk := a } synAck, child := some (Conn.hears { sk := s } ack) } := by
        simp [step, hi]
      refine ⟨[.toChild 1 env, .toOpener 1, .toChild i env], ?_⟩
      rw [run, Machine.run_cons, h1, Machine.run_cons, h2, Machine.run_cons, h3, Machine.run_nil]
      have hchild := child_opens hl (hseq ▸ hacks) (by rw [hseq]; exact hlt.2) (show (500 : U32) < 500 + 1 by decide)
        (show (500 : U32) + 1 ≤ 500 + 2 by decide)
      simp only [met, hopen, Option.any_some, hchild, Bool.and_true]
    | _ => exact absurd he' id
  | _ => exact absurd he id

/-! ## Agreement -/

/-- What each end sends next is what the other expects. -/
def Aligned (a b : Conn) : Prop := a.sk.tcb.sndNxt = b.sk.tcb.rcvNxt ∧ b.sk.tcb.sndNxt = a.sk.tcb.rcvNxt

/-- Where both ends are ESTABLISHED with nothing sent, they are aligned. -/
def Agrees (p : Peers) : Prop := p.met → ∃ c, p.child = some c ∧ Aligned p.opener c

/-- Two ends that have met: the child is one ahead of what the opener expects. -/
theorem met_ahead {l : TcpSock} {o : OpenArgs} {iss : U32} {es : List PeerEvent} (h : ((dial l o iss).run l es).met) :
    Fits iss ∧ ∃ c, ((dial l o iss).run l es).child = some c ∧
      ((dial l o iss).run l es).opener.sk.tcb.sndNxt = c.sk.tcb.rcvNxt ∧
      c.sk.tcb.sndNxt = ((dial l o iss).run l es).opener.sk.tcb.rcvNxt + 1 := by
  have hs := run_stage l o iss es
  generalize (dial l o iss).run l es = p at h hs
  have hopen : ∀ c : Conn, c.isOpen → c.sk.state = .established ∧ c.Fresh := fun c hc => by
    simp only [Conn.isOpen, Bool.and_eq_true, decide_eq_true_eq, List.isEmpty_iff] at hc
    exact ⟨hc.1, hc.2, by rw [hc.1]; rfl⟩
  simp only [met, Bool.and_eq_true, Option.any_eq_true] at h
  obtain ⟨ha, c, hc, hco⟩ := h
  have hst := hs ⟨(hopen _ ha).2, fun c' hc' => by
    rw [hc] at hc'
    cases hc'
    exact (hopen c hco).2⟩
  cases hst with
  | calling => cases hc
  | answered hr hg =>
    have hst := (hopen _ ha).1.symm.trans hg.stateEq
    cases hst
  | taken hr hsa hb hsb hlt hw =>
    cases hc
    refine ⟨?_, c, rfl, hsa.sndNxt.trans hsb.rcvNxt.symm, ?_⟩
    · by_contra hno
      have hst := (hopen c hco).1.symm.trans (hw hno).stateEq
      cases hst
    · rw [hsb.sndNxt, hsa.rcvNxt]
      bv_omega

/-- What the handshake promises this opener: wherever its run leads, the two ends agree. -/
def HandshakeAgrees (l : TcpSock) (o : OpenArgs) (iss : U32) : Prop := ∀ es, ((dial l o iss).run l es).Agrees

/-- **Handshake agreement** fails whenever the two ends meet, as the child has
counted its SYN twice, and they do unless the window wraps. -/
theorem handshakeAgrees_iff (l : TcpSock) (o : OpenArgs) (iss : U32) : HandshakeAgrees l o iss ↔ ¬Fits iss := by
  constructor
  · intro h hfit
    obtain ⟨es, hm⟩ := exists_met l o hfit
    obtain ⟨c, hc, -, hal⟩ := h es hm
    obtain ⟨-, c', hc', -, hah⟩ := met_ahead hm
    rw [hc] at hc'
    cases hc'
    rw [hal] at hah
    bv_omega
  · intro hno es hm
    exact absurd (met_ahead hm).1 hno

/-- A socket that listens. -/
def listener : TcpSock := (freshSock {}).setState .listen

/-- A client whose ISS is 100 and a child whose ISS is 500: the SYN, the SYN-ACK
and its ACK arrive. -/
def shakeRun : List PeerEvent :=
  [.toChild 1 { iss := 500, listener := 0, saddr := .v4 0 }, .toOpener 1, .toChild 3 { iss := 0, listener := 0, saddr := .v4 0 }]

/-- The child sends from 502, the client expects 501. -/
theorem child_counts_syn_twice : ((dial listener {} 100).run listener shakeRun).met ∧ ¬((dial listener {} 100).run listener shakeRun).Agrees := by
  have hm : ((dial listener {} 100).run listener shakeRun).met := by decide +kernel
  have hx : ((dial listener {} 100).run listener shakeRun).child.map (·.sk.tcb.sndNxt) = some 502 := by decide +kernel
  have hr : ((dial listener {} 100).run listener shakeRun).opener.sk.tcb.rcvNxt = 501 := by decide +kernel
  refine ⟨hm, fun h => ?_⟩
  obtain ⟨c, hc, -, hal⟩ := h hm
  rw [hc, Option.map_some, hal, hr] at hx
  cases hx

end Peers

end LevelIp
