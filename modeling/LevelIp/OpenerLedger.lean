/-
A connecting socket event by event: its ledger and what has been written to it,
together. What the ledger asks of an act follows from the order its writers
keep, from what the network brings, and from resets that find nothing queued.
-/
import LevelIp.WrittenQueued

namespace LevelIp

/-- No writer or FIN overtakes a sleeping writer, and an abort or a user
timeout finds nothing queued. -/
def Conn.Orderly (c : Conn) (e : Event) : Prop :=
  c.Patient e ∧ (e = .abort → c.sk.writeQueue = []) ∧
    ∀ i, e = .handler i → c.sk.spawned[i]? = some .userTimeout → c.sk.writeQueue = []

instance (c : Conn) (e : Event) : Decidable (c.Orderly e) :=
  match e with
  | .handler i => decidable_of_iff ((c.sk.spawned[i]? = some .userTimeout → c.sk.writeQueue = [])) (by
      simp [Conn.Orderly, Conn.Patient])
  | .abort => decidable_of_iff (c.sk.writeQueue = []) (by simp [Conn.Orderly, Conn.Patient])
  | .write buf => decidable_of_iff (c.Patient (.write buf)) (by simp [Conn.Orderly])
  | .close => decidable_of_iff (c.Patient .close) (by simp [Conn.Orderly])
  | .resume i => decidable_of_iff (c.Patient (.resume i)) (by simp [Conn.Orderly])
  | .segment .. | .read _ | .dispatch _ | .tick _ | .fcntl _ | .adjustPmtu6 _ => .isTrue (by simp [Conn.Orderly, Conn.Patient])

/-- A segment that reaches a socket which has queued `l`: its acknowledgement
has been heard and cuts nothing, and with a SYN it has one. -/
def Event.Answers (heard : U32) (l : List Skb) : Event → Prop
  | .segment th _ _ => (th.syn → th.ack) ∧ th.ackSeq.toNat ≤ heard.toNat ∧ Cut l th.ackSeq
  | _ => True

/-- A connecting socket, with what sleeps on it. -/
structure Dialing (iss heard : U32) (c : Conn) : Prop where
  ledger : Ledger iss heard c.sk.core c.sk.fx
  tallies : Tallies c
  waiting : c.sk.tcb.sndUna = iss → c.Reading

namespace Dialing

variable {iss heard : U32} {c : Conn}

theorem queue_nil {s : TcpSock} (h : s.writeQueue = []) : s.core.snd.queue = [] := congrArg (List.map Skb.plain) h

/-- Who sends finds the SYN answered. -/
theorem answered (h : Dialing iss heard c) (hs : c.sk.state = .established ∨ c.sk.state = .closeWait) : c.sk.tcb.sndUna ≠ iss := by
  intro hu
  have hun := h.ledger.place.resolve_right fun ha => Nat.lt_irrefl _ (hu ▸ ha.una)
  have hst : c.sk.state = .synSent ∨ c.sk.state = .closing ∨ c.sk.state = .timeWait := hun.state
  rcases hs with hs | hs <;> rw [hs] at hst <;> simp at hst

/-- What an event of the socket asks of its acts. -/
theorem ledgerOk (h : Dialing iss heard c) {e : Event} (ok : c.Orderly e) (hseg : e.Answers heard (queuedOf c.sk.fx))
    (hw : ∀ buf, e = .write buf → tcpWriteAccepts c.sk) : (c.act e).LedgerOk iss heard (queuedOf c.sk.fx) c.sk.core := by
  cases e with
  | segment th data psh => exact hseg
  | write buf =>
    have hst := tcpWriteAccepts_state (hw buf rfl)
    refine ⟨h.answered hst, fun k hk => h.tallies.unended (.inr ?_) hk⟩
    rcases hst with hs | hs <;> rw [hs] <;> rfl
  | abort => exact queue_nil (ok.2.1 rfl)
  | resume i =>
    simp only [Conn.act]
    split
    case h_3 _ _ _ _ hi =>
      refine ⟨fun hu => ?_, fun k hk => h.tallies.unended (.inl fun h0 => ?_) hk⟩
      · obtain ⟨_, _, hr⟩ := h.waiting hu _ (List.mem_of_getElem? hi)
        cases hr
      · simp only [Conn.senders, List.countP_eq_zero] at h0
        exact absurd rfl (h0 _ (List.mem_of_getElem? hi))
    case h_4 lastAck hi =>
      intro hu
      obtain ⟨_, _, hr⟩ := h.waiting hu _ (List.mem_of_getElem? hi)
      cases hr
    all_goals trivial
  | handler i =>
    simp only [Conn.act]
    split
    · trivial
    next hd hi =>
      cases hd with
      | userTimeout => exact queue_nil (ok.2.2 i rfl hi)
      | _ => trivial
  | _ => trivial

/-- Who sleeps before the SYN is answered reads. -/
theorem step_waiting (h : Dialing iss heard c) {e : Event} (hu : c.sk.tcb.sndUna ≠ iss → (c.step e).sk.tcb.sndUna ≠ iss)
    (hn : (c.step e).sk.tcb.sndUna = iss) : (c.step e).Reading := by
  have hu : c.sk.tcb.sndUna = iss := by
    by_contra hne
    exact hu hne hn
  have hun := h.ledger.place.resolve_right fun ha => Nat.lt_irrefl _ (hu ▸ ha.una)
  have hst : c.sk.state = .synSent ∨ c.sk.state = .closing ∨ c.sk.state = .timeWait := hun.state
  refine Conn.step_readers ?_ (h.waiting hu) e
  rcases hst with hs | hs | hs <;> simp [hs]

theorem step_refused {buf : List U8} (hw : ¬tcpWriteAccepts c.sk) : c.step (.write buf) = c := by
  unfold Conn.step
  split
  · rfl
  · simp [tcpWrite, hw, Conn.settle]

/-- **Step lemma** of the connecting socket. -/
theorem step (h : Dialing iss heard c) (hi : iss ≠ 0) {e : Event} (ok : c.Orderly e) (hseg : e.Answers heard (queuedOf c.sk.fx))
    (hlt : iss.toNat + seqsOf (c.step e).sk.fx < 2 ^ 32) : Dialing iss heard (c.step e) := by
  by_cases hw : ∀ buf, e = .write buf → tcpWriteAccepts c.sk
  · obtain ⟨es, hf, hm⟩ := Conn.step_moves h.tallies.ready e
    rw [hf] at hlt
    obtain ⟨hl, hu⟩ := h.ledger.moves hi hm hlt (h.ledgerOk ok hseg hw)
    exact ⟨hf ▸ hl, h.tallies.step ok.1, h.step_waiting hu⟩
  · simp only [not_forall] at hw
    obtain ⟨buf, rfl, hw⟩ := hw
    rw [step_refused hw]
    exact h

/-- `tcp_connect` has sent its SYN. -/
theorem opened (o : OpenArgs) {iss : U32} (heard : U32) (hlt : iss.toNat + seqsOf (activeOpen o iss).fx < 2 ^ 32) :
    Dialing iss heard { sk := activeOpen o iss } := by
  obtain ⟨cwnd, e, hf, he⟩ := activeOpen_fx o iss
  have hc := activeOpen_core o iss
  have hsyn := synSkb_isSyn (connectSock o iss)
  have hq : queuedOf (activeOpen o iss).fx = [] := by
    rw [hf, queuedOf_pair he.queued?]
    rfl
  have hs : seqsOf (activeOpen o iss).fx = 1 := by
    rw [hf, seqsOf_queued he.seqs]
    rfl
  rw [hs] at hlt
  have hone : (iss + 1).toNat = iss.toNat + 1 := by bv_omega
  refine ⟨⟨?_, ?_, ?_, .inl ⟨?_, ?_, ?_, ?_, hq⟩, ?_⟩, .opened (.active o iss), fun _ call hx => by cases hx⟩
  · rw [hc]
    exact nofun
  · rw [hc, hs]
    exact hone
  · rw [hq, hc]
    exact .nil hone
  all_goals rw [hc]
  · rfl
  · rfl
  · exact .inl rfl
  · intro k hk
    rw [List.mem_singleton.mp hk]
    exact ⟨rfl, rfl, rfl, rfl⟩
  · intro seg unread hx
    rw [hf] at hx
    simp only [List.mem_cons, List.not_mem_nil, or_false, reduceCtorEq, false_or] at hx
    subst hx
    obtain ⟨hseq, hp, -, hfin, -⟩ := he
    exact ⟨.empty ⟨by rw [hp, hsyn.payload]; rfl, by rw [hfin]; exact hsyn.fin⟩, fun _ => hseq⟩

end Dialing

end LevelIp
