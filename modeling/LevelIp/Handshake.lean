/-
How one socket gets into a handshake and out of it: which step leads to
SYN_RECEIVED, which from there to ESTABLISHED, and what ends a listener.
-/
import LevelIp.Ends

namespace LevelIp

/-- No move leads into a state before the answer to a SYN. -/
theorem Move.unopened_same {a : Act} {c c' : Core} {es : List Effect} (hm : Move a c es c') (h : c'.state.unopened) :
    c'.state = c.state := by
  cases hm with
  | fin =>
    simp only [Core.finState] at h ⊢
    split at h
    case h_3 => split at h <;> cases h
    all_goals first | cases h | rfl
  | queueFin lastAck =>
    cases lastAck
    · rfl
    · cases h
  | _ => first | rfl | cases h

/-- A move into SYN_RECEIVED takes a SYN in SYN_SENT. -/
theorem Move.synReceived {a : Act} {c c' : Core} {es : List Effect} (hm : Move a c es c') (h : c'.state = .synReceived) :
    c.state = .synReceived ∨ c.state = .synSent ∧ ∃ th skb, a = .arrive c th skb := by
  cases hm with
  | fin =>
    simp only [Core.finState] at h
    split at h
    case h_3 => split at h <;> cases h
    case h_4 => cases h
    case h_1 | h_2 => cases h
    all_goals exact .inl h
  | queueFin lastAck =>
    cases lastAck
    · exact .inl h
    · cases h
  | simultaneous hs => exact .inr ⟨hs, _, _, rfl⟩
  | _ => first | exact .inl h | cases h

/-- Only a segment makes a connection. -/
theorem Move.established {a : Act} {c c' : Core} {es : List Effect} (hm : Move a c es c')
    (h : c'.state = .established ∨ c'.state = .closeWait) :
    (c.state = .established ∨ c.state = .closeWait) ∨ ∃ c₀ th skb, a = .arrive c₀ th skb := by
  cases hm with
  | queueFin lastAck =>
    cases lastAck
    · exact .inl h
    · rcases h with h | h <;> cases h
  | _ =>
    first
    | exact .inr ⟨_, _, _, rfl⟩
    | exact .inl h
    | rcases h with h | h <;> cases h

/-- The segment is a SYN that crosses ours: it takes SYN_SENT to SYN_RECEIVED. -/
def TcpSock.crosses (s : TcpSock) (th : Tcphdr) : Bool :=
  s.state = .synSent && th.syn && !th.ack && !th.rst && !(s.tcb.sndUna > s.tcb.iss)

theorem tcpSynsent_synReceived {s : TcpSock} (hs : s.state = .synSent) (th : Tcphdr) :
    (tcpSynsent s th).state = .synReceived ↔ s.crosses th := by
  have hno : s.state ≠ .synReceived := by rw [hs]; nofun
  have hreset : (tcpReset s).state ≠ .synReceived := by
    unfold tcpReset
    simp only [hs]
    rw [tcpDone_state]
    nofun
  have htaken : ∀ t : TcpSock, (synTaken t th).state = .synReceived ↔ ¬t.tcb.sndUna > t.tcb.iss := fun t => by
    unfold synTaken
    split
    next h =>
      refine iff_of_false (fun he => ?_) (not_not.mpr h)
      rw [show (synsentEstablish t th).state = .established from congrArg Core.state (synsentEstablish_core t th)] at he
      cases he
    next h =>
      refine iff_of_true ?_ h
      exact congrArg Core.state (tcpSendSynack_core (s := { t.setState .synReceived with tcb.sndUna := t.tcb.iss }) rfl)
  simp only [TcpSock.crosses, hs, decide_true, Bool.true_and, Bool.and_eq_true, Bool.not_eq_true', decide_eq_false_iff_not]
  rw [tcpSynsent_eq]
  cases ha : th.ack with
  | false =>
    rw [if_neg (fun h => Bool.false_ne_true h.1), if_neg (fun h => Bool.false_ne_true h.1)]
    have hsock : synAckedSock s th = syncedSock s th := if_neg (by simp [ha])
    cases hr : th.rst with
    | true => simpa using hreset
    | false =>
      cases hy : th.syn with
      | false => simpa using hno
      | true =>
        simp only [Bool.false_eq_true, if_false, Bool.not_true, and_self, true_and]
        rw [htaken, hsock]
        rfl
  | true =>
    refine iff_of_false (fun he => ?_) (by simp)
    split at he
    · exact hno he
    next h1 =>
      split at he
      · exact hno he
      · split at he
        · exact hreset he
        · split at he
          · exact hno he
          · have hun := (htaken _).mp he
            have hiss : (synAckedSock s th).tcb.iss = s.tcb.iss :=
              (congrArg (·.snd.iss) (synAckedSock_core s th)).trans (synAcked_iss _ _)
            have huna : (synAckedSock s th).tcb.sndUna = th.ackSeq := by
              have hc := congrArg (·.snd.una) (synAckedSock_core s th)
              rw [show ((synAckedSock s th).core.snd.una) = (synAckedSock s th).tcb.sndUna from rfl] at hc
              rw [hc]
              simp only [SndSide.synAcked, ha, if_true]
              rfl
            rw [hiss, huna] at hun
            exact h1 ⟨rfl, .inl (BitVec.not_lt.mp hun)⟩

namespace Conn

variable {c : Conn}

/-- A SYN crosses ours. -/
def crosses (c : Conn) : Event → Bool
  | .segment th _ _ => !c.sk.fault && c.sk.crosses th
  | _ => false

/-- The ACK that ends SYN_RECEIVED arrives. -/
def shakes (c : Conn) : Event → Bool
  | .segment th data psh => !c.sk.fault && c.sk.shakes th (tcpInitSegment th data psh)
  | _ => false

theorem hands_eq (c : Conn) (e : Event) : c.hands e = if c.shakes e then c.sk.ptsk.toList else [] := by
  cases e <;> rfl

theorem step_ptsk (hr : c.OnlyReaders) (e : Event) : (c.step e).sk.ptsk = c.sk.ptsk := by
  obtain ⟨es, -, hm⟩ := step_moves hr.ready e
  exact hm.keeps_core (I := fun k => k.ptsk = c.sk.ptsk) (fun hmv h => hmv.ptsk.trans h) rfl

/-- **A step enters no state before the answer to a SYN.** -/
theorem step_unopened (hr : c.OnlyReaders) {e : Event} (h : (c.step e).sk.state.unopened) :
    (c.step e).sk.state = c.sk.state := by
  obtain ⟨es, -, hm⟩ := step_moves hr.ready e
  exact hm.keeps_core (I := fun k => k.state.unopened → k.state = c.sk.state)
    (fun hmv hk hu => (hmv.unopened_same hu).trans (hk (hmv.unopened_same hu ▸ hu))) (fun _ => rfl) h

/-- **What leads to SYN_RECEIVED** is a SYN that crosses ours. -/
theorem step_synReceived (hr : c.OnlyReaders) (e : Event) : (c.step e).sk.state = .synReceived ∧ c.sk.state ≠ .synReceived ↔
    c.crosses e := by
  constructor
  · rintro ⟨h, hne⟩
    obtain ⟨es, -, hm⟩ := step_moves hr.ready e
    have hs : c.sk.state = .synSent ∧ ∃ th skb, c.act e = .arrive c.sk.core th skb := by
      by_contra hno
      refine hm.keeps_core (I := fun k => k.state ≠ .synReceived) (fun {k es k'} hmv hk h' => ?_) hne h
      rcases hmv.synReceived h' with h' | ⟨hs, th, skb, ha⟩
      · exact hk h'
      · have hc : k = c.sk.core := by
          cases e with
          | segment th' data psh =>
            have ha : Act.arrive c.sk.core th' (tcpInitSegment th' data psh) = .arrive k th skb := ha
            injection ha with ha
            exact ha.symm
          | _ => exact absurd ha (not_arrive (by intros; simp) _ _ _)
        exact hno ⟨by rw [← hs, hc]; rfl, th, skb, hc ▸ ha⟩
    obtain ⟨hs, th, skb, ha⟩ := hs
    cases e with
    | segment th' data psh =>
      cases hf : c.sk.fault with
      | true =>
        rw [step_of_fault hf] at h
        exact absurd h hne
      | false =>
        have he : (c.step (.segment th' data psh)).sk = tcpSynsent c.sk th' := by
          rw [step, if_neg (by simp [hf])]
          simp only [segmentArrives, hs]
        rw [he] at h
        simp only [crosses, hf, Bool.not_false, Bool.true_and]
        exact (tcpSynsent_synReceived hs th').mp h
    | _ => exact absurd ha (not_arrive (by intros; simp) _ _ _)
  · intro h
    cases e with
    | segment th data psh =>
      simp only [crosses, Bool.and_eq_true, Bool.not_eq_true'] at h
      obtain ⟨hf, h⟩ := h
      have hs : c.sk.state = .synSent := by
        simp only [TcpSock.crosses, Bool.and_eq_true, decide_eq_true_eq] at h
        exact h.1.1.1.1
      refine ⟨?_, by rw [hs]; simp⟩
      rw [step, if_neg (by simp [hf])]
      simp only [segmentArrives, hs]
      exact (tcpSynsent_synReceived hs th).mpr h
    | _ => cases h

/-- **What ends SYN_RECEIVED in ESTABLISHED** is the ACK of our SYN. -/
theorem step_completes (hr : c.OnlyReaders) (e : Event) : completes c.sk (c.step e).sk = c.shakes e := by
  cases hs : c.sk.state
  case synReceived =>
    have hc : completes c.sk (c.step e).sk = ((c.step e).sk.state = .established || (c.step e).sk.state = .closeWait) := by
      rw [completes, hs]
      rfl
    rw [hc]
    cases e with
    | segment th data psh =>
      cases hf : c.sk.fault with
      | true =>
        rw [step_of_fault hf]
        simp [shakes, hf, hs]
      | false =>
        have hst : (c.step (.segment th data psh)).sk.state = (tcpInputOtherwise c.sk th (tcpInitSegment th data psh)).state := by
          rw [step, if_neg (by simp [hf])]
          simp only [segmentArrives, hs]
        rw [hst, tcpInputOtherwise_state (by rw [hs]; exact ⟨by simp, by simp, by simp⟩)]
        simp only [shakes, hf, TcpSock.shakes, hs, decide_true, Bool.true_and, Bool.not_false]
        split
        next hv =>
          simp only [Bool.and_eq_true] at hv
          simp [Core.Heard, hv.2]
        next hv =>
          cases hh : c.sk.core.Heard th (tcpInitSegment th data psh) with
          | false => simp
          | true =>
            simp only [if_true, TcpSock.heardState, hs, Bool.true_and]
            cases hn : ackIsNew c.sk th with
            | false => rfl
            | true =>
              simp only [if_true]
              split
              · simp only [TcpState.heard, Bool.false_and, Bool.false_eq_true, if_false]
                split <;> rfl
              · rfl
    | _ =>
      -- no move but a segment's leads to ESTABLISHED
      rw [show c.shakes _ = false from rfl]
      by_contra hno
      simp only [Bool.not_eq_false, Bool.or_eq_true, decide_eq_true_eq] at hno
      obtain ⟨es, -, hm⟩ := step_moves hr.ready _
      refine hm.keeps_core (I := fun k => ¬(k.state = .established ∨ k.state = .closeWait)) (fun hmv hk h => ?_)
        (by rw [core_state, hs]; simp) hno
      rcases hmv.established h with h | ⟨c₀, th, skb, ha⟩
      · exact hk h
      · exact absurd ha (not_arrive (by intros; simp) _ _ _)
  all_goals
    have hc : completes c.sk (c.step e).sk = false := by rw [completes, hs]; rfl
    rw [hc]
    cases e <;> simp [shakes, TcpSock.shakes, hs]

/-- A listener stays one until it is done with. -/
theorem step_listen (hr : c.OnlyReaders) (hs : c.sk.state = .listen) (e : Event) :
    (c.step e).sk.state = if c.finishes e then .closing else .listen := by
  have h := step_state c e
  have hrst : c.hearsRst e = false := by
    cases e <;> simp [hearsRst, TcpSock.hearsRst, hs]
  have hres : c.resumesClose e = false := by
    cases e with
    | resume i =>
      have hno : c.calls[i]? ≠ some (.fin true) := fun hcall => by
        obtain ⟨len, got, hc⟩ := hr (by rw [hs]; rfl) _ (List.mem_of_getElem? hcall)
        cases hc
      simp [resumesClose, hno]
    | _ => rfl
  rw [hrst, hres] at h
  simp only [Bool.false_eq_true, if_false] at h
  split
  next hf => rwa [if_pos hf] at h
  next hf =>
    rw [if_neg hf] at h
    rcases h with h | h
    · exact h.trans hs
    · have hne : (c.step e).sk.state ≠ .synReceived := fun h' => by
        have hx := (step_synReceived hr e).mp ⟨h', by rw [hs]; simp⟩
        cases e with
        | segment th data psh => simp [crosses, TcpSock.crosses, hs] at hx
        | _ => cases hx
      rw [hs] at h
      simp only [TcpState.next, List.mem_cons, List.not_mem_nil, or_false] at h
      rcases h with h | h | h
      · exact absurd h hne
      · exact (step_unopened hr (by rw [h]; rfl)).trans hs
      · exact (step_unopened hr (by rw [h]; rfl)).trans hs

end Conn

end LevelIp
