/-
Who sleeps on a wait lock, and who has been signalled. `wait_wakeup` is
`pthread_cond_signal`: it wakes one thread, and none if nobody waits. Which
thread it is does not matter here, only how many there are.
-/
import LevelIp.Finished
import LevelIp.Sleepers

namespace LevelIp

/-- The wait lock a call sleeps on. -/
def Call.wait : Call → Wait
  | .recv _ _ => .recvWait
  | .send _ _ _ _ | .fin _ => .writeWait

/-- The call an outcome puts to sleep. -/
def Outcome.call? : Outcome → Option Call
  | .sleep call => some call
  | .ret _ | .spin => none

theorem call?_eq_some {o : Outcome} {call : Call} (h : o.call? = some call) : o = .sleep call := by
  cases o with
  | sleep c => exact congrArg _ (Option.some.inj h)
  | _ => cases h

/-- How often a wait lock has been signalled. -/
def signals (w : Wait) (fx : List Effect) : Nat := fx.countP (· = .wakeup w)

theorem signals_append (w : Wait) (fx es : List Effect) : signals w (fx ++ es) = signals w fx + signals w es :=
  List.countP_append

theorem Logs.signals {P : Effect → Prop} {s t : TcpSock} (h : Logs P s t) (w : Wait) :
    signals w s.fx ≤ signals w t.fx := by
  obtain ⟨es, hf, -⟩ := h
  rw [hf, signals_append]
  exact Nat.le_add_right _ _

namespace Conn

/-- How many calls sleep on a wait lock. -/
def waiting (c : Conn) (w : Wait) : Nat := c.calls.countP fun call => call.wait = w

/-- The event lets a call that sleeps on `w` run. -/
def resumes (c : Conn) (w : Wait) : LifeEvent → Bool
  | .conn (.resume i) => !c.sk.fault && (c.calls[i]?).any fun call => call.wait = w
  | _ => false

/-- The call an event puts to sleep. -/
def dozer (c : Conn) : LifeEvent → Option Call
  | .conn e =>
    if c.sk.fault then none
    else
      match e with
      | .write buf => (tcpWrite c.sk buf).2.call?
      | .read len => (tcpRead c.sk len).2.1.call?
      | .close => (tcpClose c.sk).2.call?
      | .resume i =>
        match c.calls[i]? with
        | none => none
        | some (.recv len got) => (tcpReceiveTurn c.sk len got).2.1.call?
        | some call => (resumeSend c.sk call).2.call?
      | .segment _ _ _ | .abort | .dispatch _ | .handler _ | .tick _ | .fcntl _ | .adjustPmtu6 _ => none
  | .listen | .connect _ _ => none

/-- The calls asleep that the event does not let run. -/
def undisturbed (c : Conn) : LifeEvent → List Call
  | .conn (.resume i) => if c.sk.fault then c.calls else c.calls.eraseIdx i
  | _ => c.calls

theorem settle_calls_eq (c : Conn) (r : TcpSock × Outcome) : (c.settle r).calls = c.calls ++ r.2.call?.toList := by
  unfold settle Outcome.call?
  split <;> simp_all

theorem settleRead_calls_eq (c : Conn) (r : TcpSock × Outcome × List U8) :
    (c.settleRead r).calls = c.calls ++ r.2.1.call?.toList := by
  simp only [settleRead, Outcome.call?]
  split <;> simp_all

/-- **Who is asleep after an event**: those it does not let run, and the call
it puts to sleep. -/
theorem live_calls (c : Conn) (e : LifeEvent) : (c.live e).calls = c.undisturbed e ++ (c.dozer e).toList := by
  cases e with
  | listen =>
    simp only [live, undisturbed, dozer]
    split <;> simp
  | connect d iss =>
    simp only [live, undisturbed, dozer]
    split <;> simp
  | conn e =>
    cases hf : c.sk.fault with
    | true =>
      have hu : c.undisturbed (.conn e) = c.calls := by
        unfold undisturbed
        split <;> simp [hf]
      simp only [live, step_of_fault hf, hu, dozer, hf, if_true, Option.toList_none, List.append_nil]
    | false =>
      simp only [live, step, dozer, hf, Bool.false_eq_true, if_false]
      cases e with
      | write buf => exact settle_calls_eq _ _
      | read len => exact settleRead_calls_eq _ _
      | close => exact settle_calls_eq _ _
      | resume i =>
        simp only [undisturbed, hf, Bool.false_eq_true, if_false, resume]
        cases hi : c.calls[i]? with
        | none =>
          rw [List.eraseIdx_of_length_le (List.getElem?_eq_none_iff.mp hi)]
          simp
        | some call =>
          cases call with
          | recv len got => exact settleRead_calls_eq _ _
          | send mss chunk rest len => exact settle_calls_eq _ _
          | fin lastAck => exact settle_calls_eq _ _
      | _ => simp [undisturbed]

theorem undisturbed_waiting (c : Conn) (w : Wait) (e : LifeEvent) :
    (c.undisturbed e).countP (fun call => call.wait = w) + (c.resumes w e).toNat = c.waiting w := by
  unfold undisturbed resumes waiting
  split
  next i =>
    cases hf : c.sk.fault with
    | true => rfl
    | false =>
      simp only [Bool.false_eq_true, if_false, Bool.not_false, Bool.true_and]
      cases hi : c.calls[i]? with
      | none =>
        rw [List.eraseIdx_of_length_le (List.getElem?_eq_none_iff.mp hi)]
        rfl
      | some call =>
        obtain ⟨hlt, rfl⟩ := List.getElem?_eq_some_iff.mp hi
        rw [← (List.getElem_cons_eraseIdx_perm hlt).countP_eq, List.countP_cons]
        simp only [Option.any_some]
        cases decide (c.calls[i].wait = w) <;> rfl
  next => rfl

/-- The calls asleep on a wait lock after an event. -/
theorem live_waiting (c : Conn) (w : Wait) (e : LifeEvent) :
    (c.live e).waiting w + (c.resumes w e).toNat = c.waiting w + ((c.dozer e).any fun call => call.wait = w).toNat := by
  have hu := c.undisturbed_waiting w e
  have hc : (c.live e).waiting w = (c.undisturbed e).countP (fun call => call.wait = w) +
      ((c.dozer e).any fun call => call.wait = w).toNat := by
    rw [waiting, live_calls, List.countP_append]
    cases c.dozer e with
    | none => rfl
    | some call =>
      rw [Option.toList_some, List.countP_singleton]
      simp only [Option.any_some]
      cases decide (call.wait = w) <;> rfl
  omega

/-- A reader is put to sleep by a read, or by a reader that runs again. -/
theorem dozer_recv {c : Conn} {e : LifeEvent} {call : Call} (h : c.dozer e = some call) (hw : call.wait = .recvWait) :
    c.sk.fault = false ∧ ((∃ len, e = .conn (.read len) ∧ (tcpRead c.sk len).2.1.call? = some call) ∨
      ∃ i len got, e = .conn (.resume i) ∧ c.calls[i]? = some (.recv len got) ∧
        (tcpReceiveTurn c.sk len got).2.1.call? = some call) := by
  have sending : ∀ {call : Call}, call.sending → call.wait = .recvWait → False := fun {call} hs hw => by
    cases call with
    | send => cases hw
    | _ => cases hs
  cases e with
  | listen => cases h
  | connect => cases h
  | conn e =>
    cases hf : c.sk.fault with
    | true =>
      simp only [dozer, hf, if_true] at h
      cases h
    | false =>
      refine ⟨rfl, ?_⟩
      simp only [dozer, hf, Bool.false_eq_true, if_false] at h
      cases e with
      | write buf =>
        have hs := call?_eq_some h
        unfold tcpWrite at hs
        split at hs
        · exact absurd (sending (tcpSendLoop_sleep hs) hw) id
        · cases hs
      | read len => exact .inl ⟨len, rfl, h⟩
      | close =>
        rcases tcpClose_sleep (call?_eq_some h) with rfl | ⟨rfl, -⟩ <;> cases hw
      | resume i =>
        cases hi : c.calls[i]? with
        | none =>
          simp only [hi] at h
          cases h
        | some call' =>
          simp only [hi] at h
          cases call' with
          | recv len got => exact .inr ⟨i, len, got, rfl, hi, h⟩
          | send mss chunk rest len => exact absurd (sending (resumeSend_sleep (call?_eq_some h)) hw) id
          | fin lastAck =>
            obtain ⟨rfl, -⟩ := tcpQueueFin_sleep (call?_eq_some h)
            cases hw
      | _ => cases h

/-- A closer is put to sleep by a `tcp_close`, or by a closer that runs again. -/
theorem dozer_fin {c : Conn} {e : LifeEvent} {lastAck : Bool} (h : c.dozer e = some (.fin lastAck)) :
    e = .conn .close ∧ (tcpClose c.sk).2.call? = some (.fin lastAck) ∨
      ∃ i, e = .conn (.resume i) ∧ c.calls[i]? = some (.fin lastAck) := by
  cases e with
  | listen => cases h
  | connect => cases h
  | conn e =>
    cases hf : c.sk.fault with
    | true =>
      simp only [dozer, hf, if_true] at h
      cases h
    | false =>
      simp only [dozer, hf, Bool.false_eq_true, if_false] at h
      cases e with
      | write buf =>
        have hs := call?_eq_some h
        unfold tcpWrite at hs
        split at hs
        · cases tcpSendLoop_sleep hs
        · cases hs
      | read len =>
        obtain ⟨len, got, hc⟩ := tcpRead_sleep (call?_eq_some h)
        cases hc
      | close => exact .inl ⟨rfl, h⟩
      | resume i =>
        cases hi : c.calls[i]? with
        | none =>
          simp only [hi] at h
          cases h
        | some call =>
          simp only [hi] at h
          cases call with
          | recv len got =>
            obtain ⟨len, got, hc⟩ := tcpReceiveTurn_sleep (call?_eq_some h)
            cases hc
          | send mss chunk rest len => cases resumeSend_sleep (call?_eq_some h)
          | fin lastAck =>
            obtain ⟨hc, -⟩ := tcpQueueFin_sleep (call?_eq_some h)
            injection hc with hc
            exact .inr ⟨i, rfl, hc ▸ hi⟩
      | _ => cases h

/-- A signal stays in the log. -/
theorem live_signals (c : Conn) (hr : c.OnlyReaders) (e : LifeEvent) (w : Wait) :
    signals w c.sk.fx ≤ signals w (c.live e).sk.fx :=
  live_keeps (I := fun _ log => signals w c.sk.fx ≤ signals w log)
    (fun _ hk => hk.trans (by rw [signals_append]; exact Nat.le_add_right _ _))
    (fun _ _ hk => hk.trans (by rw [signals_append]; exact Nat.le_add_right _ _)) hr (le_refl _) e

/-- An RST is a segment. -/
theorem hearsRst_segment {c : Conn} {e : LifeEvent} (h : e.event?.any c.hearsRst) :
    c.sk.fault = false ∧ ∃ th data psh, e = .conn (.segment th data psh) := by
  cases e with
  | conn e =>
    cases e with
    | segment th data psh =>
      have hr : (!c.sk.fault && c.sk.hearsRst th (tcpInitSegment th data psh)) = true := h
      rw [Bool.and_eq_true, Bool.not_eq_true'] at hr
      exact ⟨hr.1, th, data, psh, rfl⟩
    | _ => cases h
  | listen => cases h
  | connect => cases h

/-- Of the calls asleep on `w`, how many have been signalled: a call that runs
has used its signal up, and what the event signals wakes that many more. -/
def wokenAfter (c : Conn) (w : Wait) (woken : Nat) (e : LifeEvent) : Nat :=
  min ((c.live e).waiting w) (woken - (c.resumes w e).toNat + (signals w (c.live e).sk.fx - signals w c.sk.fx))

end Conn

end LevelIp
