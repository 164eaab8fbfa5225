/-
What is written to a connecting socket against what it has queued: the data on
the list and what a sleeping writer still holds are the buffers `tcp_write`
took, in order, and once a FIN is on the list that is all there will be.

For that no writer may overtake a sleeping one, and neither may a FIN.
-/
import LevelIp.SendLedger
import LevelIp.Sleepers

namespace LevelIp

/-! ## A `tcp_send` -/

/-- The bytes a call still has to send that has gone to sleep. -/
def Outcome.unsent : Outcome → List U8
  | .sleep call => call.unsent
  | .ret _ | .spin => []

/-- A `tcp_send` of `rest` has queued data only: all of it but what it sleeps
with, or a part of it when it never returns. -/
def TcpSock.Pours (s : TcpSock) (rest : List U8) (r : TcpSock × Outcome) : Prop := ∃ new, r.1.fx = s.fx ++ new ∧
  (∀ k ∈ queuedOf new, k.fin = false) ∧
  (queueBytes (queuedOf new) ++ r.2.unsent = rest ∨ r.2 = .spin ∧ queueBytes (queuedOf new) <+: rest)

/-- What `tcp_queue_transmit_skb` logs for data. -/
theorem tcpQueueTransmitSkb_data (s : TcpSock) (chunk : Payload) (last : Bool) : ∃ new,
    (tcpQueueTransmitSkb s (dataSkb chunk last)).fx = s.fx ++ new ∧ queuedOf new = [(s.core.snd.number (dataSkb chunk last)).plain] := by
  obtain ⟨e, hf, he⟩ := tcpQueueTransmitSkb_fx s (dataSkb chunk last)
  exact ⟨_, hf, queuedOf_pair he.queued?⟩

namespace TcpSock.Pours

variable {s : TcpSock} {chunk : Payload} {rest : List U8} {r : TcpSock × Outcome}

theorem quiet {t : TcpSock} {o : Outcome} (h : Quiet s t) (ho : o.unsent = rest) : s.Pours rest (t, o) := by
  obtain ⟨new, hf, hp⟩ := h.logs
  have hq : queuedOf new = [] := queuedOf_eq_nil fun e he => (hp e he).queued?
  refine ⟨new, hf, by simp [hq], .inl ?_⟩
  rw [hq, ho]
  rfl

/-- One chunk is queued, and then the rest. -/
theorem queue {whole : List U8} {last : Bool} (hw : chunk.bytes ++ rest = whole)
    (h : (tcpQueueTransmitSkb s (dataSkb chunk last)).Pours rest r) : s.Pours whole r := by
  subst hw
  obtain ⟨one, hf, hq⟩ := tcpQueueTransmitSkb_data s chunk last
  obtain ⟨new, hn, hfin, hb⟩ := h
  rw [hf, List.append_assoc] at hn
  have hc : queueBytes (queuedOf (one ++ new)) = chunk.bytes ++ queueBytes (queuedOf new) := by
    rw [queuedOf_append, queueBytes_append, hq]
    exact congrArg (· ++ _) (List.append_nil _)
  refine ⟨one ++ new, hn, fun k hk => ?_, ?_⟩
  · rw [queuedOf_append, hq] at hk
    rcases List.mem_append.mp hk with hk | hk
    · rw [List.mem_singleton.mp hk]
      rfl
    · exact hfin k hk
  · rw [hc]
    rcases hb with hb | ⟨hs, hb⟩
    · left
      rw [List.append_assoc, hb]
    · exact .inr ⟨hs, (List.prefix_append_right_inj _).mpr hb⟩

end TcpSock.Pours

/-- The loop of `tcp_send` queues its buffer in order. -/
theorem tcpSendLoop_pours (mss : U16) (len fuel : Nat) (s : TcpSock) (rest : List U8) :
    s.Pours rest (tcpSendLoop mss len fuel s rest) := by
  induction fuel generalizing s rest with
  | zero =>
    cases rest with
    | nil => exact .quiet (quiet_tcpRearmUserTimeout s) rfl
    | cons b rest => exact ⟨[], (List.append_nil _).symm, by simp [queuedOf], .inr ⟨rfl, List.nil_prefix⟩⟩
  | succ fuel ih =>
    cases rest with
    | nil => exact .quiet (quiet_tcpRearmUserTimeout s) rfl
    | cons b rest =>
      have hsplit : (Payload.ofTake mss (b :: rest)).bytes ++ (b :: rest).drop mss.toNat = b :: rest := by
        rw [Payload.ofTake_bytes, List.take_append_drop]
      rw [tcpSendLoop]
      split
      · exact .queue hsplit (ih _ _)
      · exact .quiet (.refl s) hsplit

theorem resumeSend_pours (s : TcpSock) (mss : U16) (chunk : Payload) (rest : List U8) (len : Nat) :
    s.Pours (chunk.bytes ++ rest) (resumeSend s (.send mss chunk rest len)) := by
  rw [resumeSend]
  split
  · exact .queue rfl (tcpSendLoop_pours _ _ _ _ _)
  · exact .quiet (.refl s) rfl

/-! ## Events -/

/-- No writer overtakes a sleeping one, and neither does a FIN. -/
def Conn.Patient (c : Conn) : Event → Prop
  | .write buf => tcpWriteAccepts c.sk → buf ≠ [] → c.senders = 0
  | .close => c.queuesFin .close → c.senders = 0
  | .resume i => c.queuesFin (.resume i) → c.senders = 0
  | .segment _ _ _ | .read _ | .abort | .dispatch _ | .handler _ | .tick _ | .fcntl _ | .adjustPmtu6 _ => True

instance (c : Conn) (e : Event) : Decidable (c.Patient e) :=
  match e with
  | .segment .. | .write _ | .read _ | .close | .abort | .resume _ | .dispatch _ | .handler _ | .tick _ | .fcntl _
  | .adjustPmtu6 _ => by unfold Conn.Patient; infer_instance

/-- What is queued and what one writer sleeps with is what has been written, or
a part of it when the process is stuck; once a FIN is queued nobody writes. -/
structure Tallies (c : Conn) : Prop where
  ready : c.Ready
  one : c.senders ≤ 1
  closing : .fin false ∈ c.calls → c.sk.state.shut
  sent : queueBytes (queuedOf c.sk.fx) ++ c.unsent = c.written ∨
    c.sk.fault ∧ (∀ k ∈ queuedOf c.sk.fx, k.fin = false) ∧ queueBytes (queuedOf c.sk.fx) <+: c.written
  ended : ∀ k ∈ queuedOf c.sk.fx, k.fin → c.senders = 0 ∧ c.sk.state.shut

/-- The connection is closing once the FIN is queued. -/
theorem Act.Fins.shut {a : Act} {c : Core} {lastAck : Bool} (ha : a.Fins c lastAck) (hs : a = .finish false → c.state.shut) :
    (c.enqueueFin lastAck).state.shut := by
  cases lastAck with
  | true => rfl
  | false =>
    cases a with
    | close => exact (congrArg TcpState.shut ha : c.state.shut = _)
    | finish b => cases ha; exact hs rfl
    | _ => exact ha.elim

/-- What an event queues that sends no data: FINs, and then the connection is closing. -/
theorem Conn.step_queues {c : Conn} (hr : c.Ready) (hcl : .fin false ∈ c.calls → c.sk.state.shut) {e : Event} (ha : c.act e ≠ .send) :
    ∃ new, (c.step e).sk.fx = c.sk.fx ++ new ∧ queueBytes (queuedOf new) = [] ∧
      (queuedOf new = [] ∨ (∃ k b, (c.act e).Fins k b) ∧ (c.step e).sk.state.shut) := by
  obtain ⟨es, hf, hm⟩ := step_moves hr e
  have hcl : c.act e = .finish false → c.sk.core.state.shut := by
    intro hact
    cases e with
    | resume i =>
      simp only [act] at hact
      split at hact
      case h_4 lastAck hi =>
        cases hact
        exact hcl (List.mem_of_getElem? hi)
      all_goals cases hact
    | handler i =>
      simp only [act] at hact
      split at hact <;> cases hact
    | _ => cases hact
  have h := hm.keeps (I := fun k log => (c.act e = .finish false → k.state.shut) ∧ queueBytes (queuedOf log) = [] ∧
      (queuedOf log = [] ∨ (∃ k b, (c.act e).Fins k b) ∧ k.state.shut))
    (fun {k log es k'} hm h => ?_) [] ⟨hcl, rfl, .inl rfl⟩
  · rw [List.nil_append] at h
    exact ⟨es, hf, h.2⟩
  · obtain ⟨hs, hb, hq⟩ := h
    refine ⟨fun hact => hm.shut (hs hact), ?_⟩
    rw [queuedOf_append]
    rcases hm.queuedOf with hn | ⟨_, _, hsend, -⟩ | ⟨lastAck, hfin, hn, rfl⟩
    · rw [hn, List.append_nil]
      exact ⟨hb, hq.imp_right fun h => ⟨h.1, hm.shut h.2⟩⟩
    · exact absurd hsend ha
    · rw [hn, queueBytes_append, hb]
      exact ⟨rfl, .inr ⟨⟨_, _, hfin⟩, hfin.shut hs⟩⟩

namespace Tallies

variable {c : Conn}

/-- Without a sleeping writer all is queued. -/
theorem whole (h : Tallies c) (hf : c.sk.fault = false) (h0 : c.senders = 0) : queueBytes (queuedOf c.sk.fx) = c.written := by
  rcases h.sent with hs | ⟨hs, -⟩
  · rw [Conn.unsent, unsent_of_no_senders h0, List.append_nil] at hs
    exact hs
  · rw [hf] at hs
    cases hs

theorem queued_begins (h : Tallies c) : queueBytes (queuedOf c.sk.fx) <+: c.written := by
  rcases h.sent with hs | ⟨-, -, hs⟩
  · exact ⟨_, hs⟩
  · exact hs

/-- Once a FIN is queued, so is all that was written. -/
theorem queued_all (h : Tallies c) {k : Skb} (hk : k ∈ queuedOf c.sk.fx) (hfin : k.fin) : queueBytes (queuedOf c.sk.fx) = c.written := by
  rcases h.sent with hs | ⟨-, hn, -⟩
  · rw [Conn.unsent, unsent_of_no_senders (h.ended k hk hfin).1, List.append_nil] at hs
    exact hs
  · rw [hn k hk] at hfin
    cases hfin

/-- Before a sleeping writer no FIN has been queued. -/
theorem unended (h : Tallies c) (hs : c.senders ≠ 0 ∨ c.sk.state.shut = false) {k : Skb} (hk : k ∈ queuedOf c.sk.fx) : k.fin = false := by
  cases hfin : k.fin with
  | false => rfl
  | true =>
    obtain ⟨h0, hsh⟩ := h.ended k hk hfin
    rcases hs with hs | hs
    · exact absurd h0 hs
    · rw [hsh] at hs
      cases hs

/-- An event that sends no data. -/
theorem other (h : Tallies c) {e : Event} (ha : c.act e ≠ .send) (hfin : c.queuesFin e → c.senders = 0) : Tallies (c.step e) := by
  obtain ⟨hw, ⟨hcount, hunsent⟩, -⟩ := Conn.step_rests ha
  have hsend : (c.step e).senders = c.senders := hcount
  obtain ⟨new, hf, hb, hq⟩ := Conn.step_queues h.ready h.closing ha
  have hbytes : queueBytes (queuedOf (c.step e).sk.fx) = queueBytes (queuedOf c.sk.fx) := by
    rw [hf, queuedOf_append, queueBytes_append, hb, List.append_nil]
  obtain ⟨es, -, hm⟩ := Conn.step_moves h.ready e
  have hshut : c.sk.state.shut → (c.step e).sk.state.shut := hm.keeps_core (I := fun k => k.state.shut) fun hm hk => hm.shut hk
  refine ⟨Conn.step_ready h.ready e, by rw [hsend]; exact h.one, Conn.step_closing h.ready h.closing e, ?_, fun k hk hkf => ?_⟩
  · by_cases hfault : c.sk.fault
    · rw [Conn.step_of_fault hfault]
      exact h.sent
    · rcases h.sent with hs | ⟨hs, -⟩
      · rw [hbytes, hw, Conn.unsent, hunsent]
        exact .inl hs
      · exact absurd hs hfault
  · rw [hsend]
    rw [hf, queuedOf_append] at hk
    rcases List.mem_append.mp hk with hk | hk
    · obtain ⟨h0, hs⟩ := h.ended k hk hkf
      exact ⟨h0, hshut hs⟩
    · rcases hq with hq | ⟨hfins, hs⟩
      · rw [hq] at hk
        cases hk
      · refine ⟨hfin ?_, hs⟩
        -- a close that finds the window shut queues nothing
        by_contra hno
        have hidle := Conn.step_idle hfins (by simpa using hno)
        rcases hidle.fx with hx | hx <;> rw [hf] at hx
        · rw [List.append_right_eq_self.mp hx] at hk
          cases hk
        · rw [List.append_cancel_left hx] at hk
          cases hk

/-- A `tcp_send` has run or gone to sleep, with no other writer asleep. -/
theorem settle (h : Tallies c) {rest : List U8} {r : TcpSock × Outcome} (hp : c.sk.Pours rest r) (c₀ : Conn)
    (h0 : c₀.senders = 0) (hsub : ∀ call ∈ c₀.calls, call ∈ c.calls) (hw : queueBytes (queuedOf c.sk.fx) ++ rest = c₀.written)
    (hs : c.senders ≠ 0 ∨ c.sk.state.shut = false) (hm : SockMoves .send c.sk r.1) (hne : c.sk.state ≠ .synSent)
    (hcall : ∀ call, r.2 = .sleep call → call.sending) : Tallies (c₀.settle r) := by
  obtain ⟨t, o⟩ := r
  obtain ⟨new, hfx, hnofin, hb⟩ := hp
  obtain ⟨es, -, hm⟩ := hm
  have hne' : t.state ≠ .synSent := hm.keeps_core (I := fun k => k.state ≠ .synSent) (fun hm h hs => h (hm.synSent hs)) hne
  have hcl : .fin false ∈ c₀.calls → t.state.shut := fun hin =>
    hm.keeps_core (I := fun k => k.state.shut) (fun hm hk => hm.shut hk) (h.closing (hsub _ hin))
  have hfx : t.fx = c.sk.fx ++ new := hfx
  have hfin : ∀ k ∈ queuedOf t.fx, k.fin = false := by
    intro k hk
    rw [hfx, queuedOf_append] at hk
    rcases List.mem_append.mp hk with hk | hk
    · exact h.unended hs hk
    · exact hnofin k hk
  have hbytes : queueBytes (queuedOf t.fx) = queueBytes (queuedOf c.sk.fx) ++ queueBytes (queuedOf new) := by
    rw [hfx, queuedOf_append, queueBytes_append]
  have hu : c₀.calls.flatMap Call.unsent = [] := unsent_of_no_senders h0
  have hended : ∀ k ∈ queuedOf t.fx, ∀ {P : Prop}, k.fin → P := fun k hk P hkf => by
    rw [hfin k hk] at hkf
    cases hkf
  have all : o ≠ .spin → queueBytes (queuedOf t.fx) ++ o.unsent = c₀.written := by
    intro ho
    rcases hb with hb | ⟨hb, -⟩
    · rw [hbytes, List.append_assoc]
      exact hb ▸ hw
    · exact absurd hb ho
  cases o with
  | ret rc =>
    refine ⟨fun hs => absurd hs hne', h0.le.trans (Nat.zero_le 1), hcl, .inl ?_, fun k hk => hended k hk⟩
    have := all nofun
    show queueBytes (queuedOf t.fx) ++ c₀.calls.flatMap Call.unsent = c₀.written
    rw [hu]
    exact this
  | sleep call =>
    have hsending := hcall call rfl
    have h0 : c₀.calls.countP Call.sending = 0 := h0
    refine ⟨fun hs => absurd hs hne', ?_, fun hin => ?_, .inl ?_, fun k hk => hended k hk⟩
    · show (c₀.calls ++ [call]).countP Call.sending ≤ 1
      rw [List.countP_append, h0]
      simp [hsending]
    · rcases List.mem_append.mp hin with hin | hin
      · exact hcl hin
      · rw [← List.mem_singleton.mp hin] at hsending
        cases hsending
    · have := all nofun
      show queueBytes (queuedOf t.fx) ++ (c₀.calls ++ [call]).flatMap Call.unsent = c₀.written
      rw [List.flatMap_append, hu, List.nil_append, List.flatMap_singleton]
      exact this
  | spin =>
    refine ⟨fun hs => absurd hs hne', h0.le.trans (Nat.zero_le 1), hcl, .inr ⟨rfl, hfin, ?_⟩, fun k hk => hended k hk⟩
    show queueBytes (queuedOf t.fx) <+: c₀.written
    rw [hbytes, ← hw]
    refine (List.prefix_append_right_inj _).mpr ?_
    rcases hb with hb | ⟨-, hb⟩
    · exact ⟨_, hb⟩
    · exact hb

/-- A write of nothing, or one that is refused. -/
theorem quiet (h : Tallies c) {t : TcpSock} (hq : Quiet c.sk t) (hf : t.fault = c.sk.fault) : Tallies { c with sk := t } := by
  obtain ⟨new, hfx, hp⟩ := hq.logs
  have hn : queuedOf t.fx = queuedOf c.sk.fx := by
    rw [hfx, queuedOf_append, queuedOf_eq_nil fun e he => (hp e he).queued?, List.append_nil]
  have hst := hq.state
  refine ⟨fun hs => h.ready (hst.symm.trans hs), h.one, ?_, ?_, ?_⟩
  · rw [hst]
    exact h.closing
  · rw [hn, hf]
    exact h.sent
  · rw [hn, hst]
    exact h.ended

theorem write (h : Tallies c) {buf : List U8} (ok : c.Patient (.write buf)) : Tallies (c.step (.write buf)) := by
  by_cases hf : c.sk.fault
  · rw [Conn.step_of_fault hf]
    exact h
  rw [Conn.step, if_neg hf]
  by_cases hacc : tcpWriteAccepts c.sk
  swap
  · simp only [tcpWrite, hacc, Bool.false_eq_true, if_false]
    exact h
  have hst := tcpWriteAccepts_state hacc
  by_cases hb : buf = []
  · subst hb
    simp only [tcpWrite, hacc, if_true, tcpSend, List.length_nil, tcpSendLoop, Conn.settle, List.append_nil]
    have hq := quiet_tcpRearmUserTimeout c.sk
    exact h.quiet hq (congrArg Core.fault hq.core)
  · have h0 : c.senders = 0 := ok hacc hb
    have hw : tcpWrite c.sk buf = tcpSendLoop c.sk.smss buf.length buf.length c.sk buf := by
      simp only [tcpWrite, hacc, if_true]
      rfl
    have hm := tcpWrite_moves c.sk buf
    simp only [hacc, if_true]
    rw [hw] at hm ⊢
    refine h.settle (tcpSendLoop_pours _ _ _ _ _) { c with written := c.written ++ buf } h0 (fun _ => id) ?_ (.inr ?_) hm ?_
      fun _ => Conn.tcpSendLoop_sleep
    · rw [h.whole (by simpa using hf) h0]
    · rcases hst with hs | hs <;> rw [hs] <;> rfl
    · rcases hst with hs | hs <;> simp [hs]

/-- A writer that has slept goes on. -/
theorem resumeWrite (h : Tallies c) (hf : c.sk.fault = false) {i : Nat} {mss : U16} {chunk : Payload} {rest : List U8} {len : Nat}
    (hi : c.calls[i]? = some (.send mss chunk rest len)) :
    Tallies ({ c with calls := c.calls.eraseIdx i }.settle (resumeSend c.sk (.send mss chunk rest len))) := by
  obtain ⟨pre, post, hcalls, he⟩ := getElem?_split hi
  have hone : (pre ++ .send mss chunk rest len :: post).countP Call.sending ≤ 1 := hcalls ▸ h.one
  simp only [List.countP_append, List.countP_cons, Call.sending, if_true] at hone
  have hpre : pre.countP Call.sending = 0 := by omega
  have hpost : post.countP Call.sending = 0 := by omega
  have hu : c.unsent = chunk.bytes ++ rest := by
    rw [Conn.unsent, hcalls]
    simp [unsent_of_no_senders hpre, unsent_of_no_senders hpost, Call.unsent]
  have hne : c.sk.state ≠ .synSent := fun hs => by
    obtain ⟨_, _, hr⟩ := h.ready hs _ (List.mem_of_getElem? hi)
    cases hr
  have hm : SockMoves .send c.sk (resumeSend c.sk (.send mss chunk rest len)).1 := by
    rw [resumeSend]
    split
    next ho => exact (queueData_moves _ hne ho).trans (tcpSendLoop_moves _ _ _ (by rw [tcpQueueTransmitSkb_state]; exact hne) _)
    next => exact .refl _
  refine h.settle (resumeSend_pours _ _ _ _ _) { c with calls := c.calls.eraseIdx i } ?_ (fun _ => List.mem_of_mem_eraseIdx)
    ?_ (.inl ?_) hm hne fun _ => Conn.resumeSend_sleep
  · rw [Conn.senders, he, List.countP_append, hpre, hpost]
  · rcases h.sent with hs | ⟨hs, -⟩
    · rw [← hu]
      exact hs
    · rw [hf] at hs
      cases hs
  · rw [Conn.senders, hcalls, List.countP_append, List.countP_cons]
    simp [Call.sending]

/-- **Step lemma**: what is queued goes on to tally with what is written. -/
theorem step (h : Tallies c) {e : Event} (ok : c.Patient e) : Tallies (c.step e) := by
  by_cases ha : c.act e = .send
  · by_cases hf : c.sk.fault
    · rw [Conn.step_of_fault hf]
      exact h
    cases e with
    | write buf => exact h.write ok
    | resume i =>
      cases hi : c.calls[i]? with
      | none => simp only [Conn.act, hi] at ha; cases ha
      | some call =>
        cases call with
        | send mss chunk rest len =>
          rw [Conn.step, if_neg hf]
          simp only [Conn.resume, hi]
          exact h.resumeWrite (by simpa using hf) hi
        | _ => simp only [Conn.act, hi] at ha; cases ha
    | handler i =>
      simp only [Conn.act] at ha
      split at ha <;> cases ha
    | _ => cases ha
  · refine h.other ha fun hq => ?_
    cases e with
    | close | resume i => exact ok hq
    | _ => cases hq

/-- A connection that has just been opened has queued its SYN. -/
theorem opened {iss : U32} {s : TcpSock} (ho : Opened iss s) : Tallies { sk := s } := by
  obtain ⟨k, nxt, wnd, scale, cwnd, e, hk, hsnd, hfx, he⟩ := ho.syn
  have hq : queuedOf s.fx = [] := by
    rw [hfx, queuedOf_pair he.queued?]
    exact if_pos hk.syn
  refine ⟨Conn.ready_of_no_calls s, Nat.zero_le 1, (fun h => by cases h), .inl ?_, ?_⟩ <;> simp [hq, Conn.unsent]

end Tallies

end LevelIp
