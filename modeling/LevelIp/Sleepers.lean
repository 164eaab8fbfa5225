/-
The calls asleep on a connection: writers with bytes still to send, closers
with a FIN still to queue, readers. How an event changes who sleeps, and when
a close queues its FIN.
-/
import LevelIp.Opening

namespace LevelIp

/-! ## Writers -/

/-- The bytes a sleeping call still has to send. -/
def Call.unsent : Call → List U8
  | .send _ chunk rest _ => chunk.bytes ++ rest
  | .fin _ | .recv _ _ => []

/-- The call is a `tcp_write` that sleeps. -/
def Call.sending : Call → Bool
  | .send _ _ _ _ => true
  | .fin _ | .recv _ _ => false

namespace Conn

def unsent (c : Conn) : List U8 := c.calls.flatMap Call.unsent

/-- How many writers sleep. -/
def senders (c : Conn) : Nat := c.calls.countP Call.sending

end Conn

theorem Call.unsent_nil {call : Call} (h : call.sending = false) : call.unsent = [] := by
  cases call with
  | send => cases h
  | _ => rfl

/-- Without a sleeping writer nothing is unsent. -/
theorem unsent_of_no_senders {calls : List Call} (h : calls.countP Call.sending = 0) : calls.flatMap Call.unsent = [] := by
  simp only [List.countP_eq_zero, Bool.not_eq_true] at h
  simp only [List.flatMap_eq_nil_iff]
  intro call hc
  exact Call.unsent_nil (h call hc)

/-- Taking the `i`th entry off a list. -/
theorem getElem?_split {α : Type} {l : List α} {i : Nat} {a : α} (h : l[i]? = some a) :
    ∃ pre post, l = pre ++ a :: post ∧ l.eraseIdx i = pre ++ post := by
  obtain ⟨hi, rfl⟩ := List.getElem?_eq_some_iff.mp h
  refine ⟨l.take i, l.drop (i + 1), ?_, List.eraseIdx_eq_take_drop_succ l i⟩
  rw [List.getElem_cons_drop, List.take_append_drop]

/-- Two lists of sleepers with the same writers. -/
def SameSenders (calls calls' : List Call) : Prop :=
  calls'.countP Call.sending = calls.countP Call.sending ∧ calls'.flatMap Call.unsent = calls.flatMap Call.unsent

namespace SameSenders

variable {calls calls' : List Call} {call : Call}

theorem refl (calls : List Call) : SameSenders calls calls := ⟨rfl, rfl⟩

theorem concat (h : SameSenders calls calls') (hc : call.sending = false) : SameSenders calls (calls' ++ [call]) := by
  obtain ⟨h1, h2⟩ := h
  simp [SameSenders, hc, h1, h2, Call.unsent_nil hc]

theorem eraseIdx {i : Nat} (hi : calls[i]? = some call) (hc : call.sending = false) :
    SameSenders calls (calls.eraseIdx i) := by
  obtain ⟨pre, post, rfl, he⟩ := getElem?_split hi
  rw [he]
  simp [SameSenders, hc, Call.unsent_nil hc]

end SameSenders

/-! ## Closers -/

theorem tcpQueueFin_sleep {s : TcpSock} {lastAck : Bool} {call : Call} (h : (tcpQueueFin s lastAck).2 = .sleep call) :
    call = .fin lastAck ∧ (tcpQueueFin s lastAck).1 = s := by
  unfold tcpQueueFin at h ⊢
  split at h
  · cases h
  next ho =>
    cases h
    rw [if_neg ho]
    exact ⟨rfl, rfl⟩

theorem tcpQueueFin_closed {s : TcpSock} (lastAck : Bool) (h : ¬sndWndOpen s 0) : (tcpQueueFin s lastAck).1 = s := by
  rw [tcpQueueFin, if_neg h]

/-- Nothing has been sent: the send side is the same, no LAST_ACK was entered
and at most the sleepers were woken. -/
structure Idle (s t : TcpSock) : Prop where
  snd : t.core.snd = s.core.snd
  lastAck : t.state = .lastAck → s.state = .lastAck
  fx : t.fx = s.fx ∨ t.fx = s.fx ++ [.wakeup .sleep]

theorem Idle.refl (s : TcpSock) : Idle s s := ⟨rfl, id, .inl rfl⟩

theorem tcpClose_idle {s : TcpSock} (h : s.state = .established ∨ s.state = .closeWait → ¬sndWndOpen s 0) :
    Idle s (tcpClose s).1 := by
  unfold tcpClose
  split
  case h_7 | h_8 | h_9 =>
    have hst : (tcpDone s).state = .closing := congrArg Core.state (tcpDone_core s)
    exact ⟨congrArg (·.snd) (tcpDone_core s), (fun hl => by rw [hst] at hl; cases hl), .inr (tcpDone_fx s)⟩
  case h_10 hs =>
    rw [tcpQueueFin_closed (s := s.setState .finWait1) false (h (.inl hs))]
    exact ⟨rfl, nofun, .inl rfl⟩
  case h_11 hs =>
    rw [tcpQueueFin_closed true (h (.inr hs))]
    exact .refl s
  all_goals exact ⟨rfl, id, .inl rfl⟩

/-- A `tcp_close` that sleeps has left ESTABLISHED, or will enter LAST_ACK. -/
theorem tcpClose_sleep {s : TcpSock} {call : Call} (h : (tcpClose s).2 = .sleep call) :
    call = .fin true ∨ call = .fin false ∧ (tcpClose s).1.state = .finWait1 := by
  unfold tcpClose at h ⊢
  split at h
  case h_10 hs =>
    obtain ⟨hc, ht⟩ := tcpQueueFin_sleep h
    exact .inr ⟨hc, congrArg TcpSock.state ht⟩
  case h_11 => exact .inl (tcpQueueFin_sleep h).1
  all_goals cases h

theorem Conn.settle_written (c : Conn) (r : TcpSock × Outcome) : (c.settle r).written = c.written := by
  unfold Conn.settle
  split <;> rfl

theorem Conn.settleRead_written (c : Conn) (r : TcpSock × Outcome × List U8) : (c.settleRead r).written = c.written := by
  simp only [Conn.settleRead]
  split <;> rfl

theorem Conn.settle_close_sk {c : Conn} {r : TcpSock × Outcome} (h : r.2 ≠ .spin) : (c.settle r).sk = r.1 := by
  rcases settle_sk c r with he | ⟨he, -⟩
  · exact he
  · exact absurd he h

/-! ## Steps -/

namespace Conn

/-- The event queues a FIN: a `tcp_close` that has one to send, or one that has
slept, finds the window open. -/
def queuesFin (c : Conn) : Event → Bool
  | .close => (c.sk.state = .established || c.sk.state = .closeWait) && sndWndOpen c.sk 0
  | .resume i => (c.calls[i]? = some (.fin false) || c.calls[i]? = some (.fin true)) && sndWndOpen c.sk 0
  | .segment _ _ _ | .write _ | .read _ | .abort | .dispatch _ | .handler _ | .tick _ | .fcntl _ | .adjustPmtu6 _ => false

/-- From `c` to `c'` no writer has come or gone, and a closer that is new has
left ESTABLISHED behind. -/
structure Rests (c c' : Conn) : Prop where
  written : c'.written = c.written
  senders : SameSenders c.calls c'.calls
  closers : .fin false ∈ c'.calls → .fin false ∈ c.calls ∨ c'.sk.state.shut

variable {c : Conn}

theorem Rests.of_calls {c' : Conn} (hw : c'.written = c.written) (hc : c'.calls = c.calls) : c.Rests c' := by
  refine ⟨hw, ?_, ?_⟩ <;> rw [hc]
  · exact .refl _
  · exact .inl

/-- A read has run or gone to sleep. -/
theorem Rests.read {c₀ : Conn} {r : TcpSock × Outcome × List U8} (hw : c₀.written = c.written)
    (hr : ∀ call, r.2.1 = .sleep call → ∃ len got, call = .recv len got) (hs : SameSenders c.calls c₀.calls)
    (hf : .fin false ∈ c₀.calls → .fin false ∈ c.calls) : c.Rests (c₀.settleRead r) := by
  refine ⟨by rw [settleRead_written, hw], ?_, ?_⟩ <;>
    rcases settleRead_calls c₀ r with hc | ⟨call, hsl, hc⟩ <;> rw [hc]
  · exact hs
  · obtain ⟨len, got, rfl⟩ := hr call hsl
    exact hs.concat rfl
  · exact fun hin => .inl (hf hin)
  · obtain ⟨len, got, rfl⟩ := hr call hsl
    intro hin
    rcases List.mem_append.mp hin with hin | hin
    · exact .inl (hf hin)
    · cases List.mem_singleton.mp hin

theorem Rests.close (c : Conn) : c.Rests (c.settle (tcpClose c.sk)) := by
  refine ⟨settle_written _ _, ?_, ?_⟩ <;> rcases settle_calls c (tcpClose c.sk) with hc | ⟨call, hs, hc⟩ <;> rw [hc]
  · exact .refl _
  · refine (SameSenders.refl _).concat ?_
    rcases tcpClose_sleep hs with rfl | ⟨rfl, -⟩ <;> rfl
  · exact .inl
  · intro hin
    rcases List.mem_append.mp hin with hin | hin
    · exact .inl hin
    · rw [← List.mem_singleton.mp hin] at hs
      rw [settle_close_sk (tcpClose_ne_spin c.sk)]
      rcases tcpClose_sleep hs with h0 | ⟨-, h0⟩
      · cases h0
      · rw [h0]
        exact .inr rfl

theorem Rests.queueFin {i : Nat} {lastAck : Bool} (hi : c.calls[i]? = some (.fin lastAck)) :
    c.Rests ({ c with calls := c.calls.eraseIdx i }.settle (tcpQueueFin c.sk lastAck)) := by
  have hs : SameSenders c.calls (c.calls.eraseIdx i) := .eraseIdx hi rfl
  refine ⟨settle_written _ _, ?_, ?_⟩ <;>
    rcases settle_calls { c with calls := c.calls.eraseIdx i } (tcpQueueFin c.sk lastAck) with hc | ⟨call, hsl, hc⟩ <;>
    rw [hc]
  · exact hs
  · rw [(tcpQueueFin_sleep hsl).1]
    exact hs.concat rfl
  · exact fun hin => .inl (List.mem_of_mem_eraseIdx hin)
  · rw [(tcpQueueFin_sleep hsl).1]
    intro hin
    rcases List.mem_append.mp hin with hin | hin
    · exact .inl (List.mem_of_mem_eraseIdx hin)
    · rw [List.mem_singleton.mp hin]
      exact .inl (List.mem_of_getElem? hi)

/-- An event that sends no data leaves the writers alone. -/
theorem step_rests {e : Event} (ha : c.act e ≠ .send) : c.Rests (c.step e) := by
  by_cases hf : c.sk.fault
  · rw [step_of_fault hf]
    exact .of_calls rfl rfl
  cases e with
  | write buf => exact absurd rfl ha
  | close =>
    rw [step, if_neg hf]
    exact .close c
  | read len =>
    rw [step, if_neg hf]
    exact .read rfl (fun _ => tcpRead_sleep) (.refl _) id
  | resume i =>
    rw [step, if_neg hf]
    simp only [resume]
    cases hi : c.calls[i]? with
    | none => exact .of_calls rfl rfl
    | some call =>
      cases call with
      | send mss chunk rest len => exact absurd (by simp only [act, hi]) ha
      | fin lastAck => exact .queueFin hi
      | recv len got =>
        exact .read rfl (fun _ => tcpReceiveTurn_sleep) (.eraseIdx hi rfl) fun hin => List.mem_of_mem_eraseIdx hin
  | segment | abort | dispatch | handler | tick | fcntl | adjustPmtu6 =>
    rw [step, if_neg hf]
    exact .of_calls rfl rfl

/-- A close that queues no FIN sends nothing. -/
theorem step_idle {e : Event} (hb : ∃ k b, (c.act e).Fins k b) (hq : c.queuesFin e = false) :
    Idle c.sk (c.step e).sk := by
  obtain ⟨k, b, hb⟩ := hb
  by_cases hf : c.sk.fault
  · rw [step_of_fault hf]
    exact .refl _
  cases e with
  | close =>
    rw [step, if_neg hf, settle_close_sk (tcpClose_ne_spin c.sk)]
    refine tcpClose_idle fun hs ho => ?_
    rw [queuesFin, ho] at hq
    rcases hs with hs | hs <;> simp [hs] at hq
  | resume i =>
    cases hi : c.calls[i]? with
    | none => simp only [act, hi] at hb; exact hb.elim
    | some call =>
      cases call with
      | fin lastAck =>
        have ho : ¬sndWndOpen c.sk 0 := by
          intro ho
          rw [queuesFin, hi, ho] at hq
          cases lastAck <;> simp at hq
        rw [step, if_neg hf]
        simp only [resume, hi, resumeSend]
        rw [settle_close_sk (tcpQueueFin_ne_spin _ _), tcpQueueFin_closed _ ho]
        exact .refl _
      | _ => simp only [act, hi] at hb; exact hb.elim
  | handler i =>
    simp only [act] at hb
    split at hb <;> exact hb.elim
  | _ => exact hb.elim

theorem tcpSendLoop_sleep {mss : U16} {len fuel : Nat} {s : TcpSock} {buf : List U8} {call : Call}
    (h : (tcpSendLoop mss len fuel s buf).2 = .sleep call) : call.sending := by
  induction fuel generalizing s buf with
  | zero => cases buf <;> cases h
  | succ fuel ih =>
    cases buf with
    | nil => cases h
    | cons b buf =>
      rw [tcpSendLoop] at h
      split at h
      · exact ih h
      · cases h
        rfl

theorem resumeSend_sleep {mss : U16} {chunk : Payload} {rest : List U8} {len : Nat} {s : TcpSock} {call : Call}
    (h : (resumeSend s (.send mss chunk rest len)).2 = .sleep call) : call.sending := by
  rw [resumeSend] at h
  split at h
  · exact tcpSendLoop_sleep h
  · cases h
    rfl

/-- Who sleeps after a `tcp_send` slept before, or is a writer. -/
theorem settle_senders {c₀ : Conn} {r : TcpSock × Outcome} (h : ∀ call, r.2 = .sleep call → call.sending) :
    ∀ call ∈ (c₀.settle r).calls, call ∈ c₀.calls ∨ call.sending := by
  intro call hin
  rcases settle_calls c₀ r with hc | ⟨call', hs, hc⟩
  · exact .inl (hc ▸ hin)
  · rw [hc] at hin
    rcases List.mem_append.mp hin with hin | hin
    · exact .inl hin
    · rw [List.mem_singleton.mp hin]
      exact .inr (h call' hs)

theorem step_send_calls {e : Event} (ha : c.act e = .send) :
    ∀ call ∈ (c.step e).calls, call ∈ c.calls ∨ call.sending := by
  by_cases hf : c.sk.fault
  · rw [step_of_fault hf]
    exact fun call hin => .inl hin
  cases e with
  | write buf =>
    rw [step, if_neg hf]
    refine settle_senders fun call hs => ?_
    unfold tcpWrite at hs
    split at hs
    · exact tcpSendLoop_sleep hs
    · cases hs
  | resume i =>
    cases hi : c.calls[i]? with
    | none => simp only [act, hi] at ha; cases ha
    | some call =>
      cases call with
      | send mss chunk rest len =>
        rw [step, if_neg hf]
        simp only [resume, hi]
        intro call hin
        rcases settle_senders (fun _ => resumeSend_sleep) call hin with hin | hin
        · exact .inl (List.mem_of_mem_eraseIdx hin)
        · exact .inr hin
      | _ => simp only [act, hi] at ha; cases ha
  | handler i =>
    simp only [act] at ha
    split at ha <;> cases ha
  | _ => cases ha

/-- Once the connection is closing and no writer sleeps, nothing more is sent. -/
theorem step_send_shut {e : Event} (ha : c.act e = .send) (hs : c.sk.state.shut) (h0 : c.senders = 0) :
    (c.step e).sk = c.sk ∧ (c.step e).calls = c.calls := by
  by_cases hf : c.sk.fault
  · rw [step_of_fault hf]
    exact ⟨rfl, rfl⟩
  cases e with
  | write buf =>
    have hna : ¬tcpWriteAccepts c.sk := by
      intro hacc
      rcases tcpWriteAccepts_state hacc with hst | hst <;> rw [hst] at hs <;> cases hs
    rw [step, if_neg hf]
    simp [tcpWrite, hna, settle]
  | resume i =>
    cases hi : c.calls[i]? with
    | none => simp only [act, hi] at ha; cases ha
    | some call =>
      cases call with
      | send mss chunk rest len =>
        simp only [senders, List.countP_eq_zero] at h0
        exact absurd rfl (h0 _ (List.mem_of_getElem? hi))
      | _ => simp only [act, hi] at ha; cases ha
  | handler i =>
    simp only [act] at ha
    split at ha <;> cases ha
  | _ => cases ha

/-- A closer asleep outside CLOSE_WAIT has left ESTABLISHED behind. -/
theorem step_closing (hr : c.Ready) (h : .fin false ∈ c.calls → c.sk.state.shut) (e : Event)
    (hin : .fin false ∈ (c.step e).calls) : (c.step e).sk.state.shut := by
  obtain ⟨es, -, hm⟩ := step_moves hr e
  have keep : c.sk.state.shut → (c.step e).sk.state.shut :=
    hm.keeps_core (I := fun k => k.state.shut) fun hm hk => hm.shut hk
  by_cases ha : c.act e = .send
  · rcases step_send_calls ha _ hin with hin | hin
    · exact keep (h hin)
    · cases hin
  · rcases (step_rests ha).closers hin with hin | hin
    · exact keep (h hin)
    · exact hin

end Conn

end LevelIp
