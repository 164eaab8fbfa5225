/-
The lifetimes of an advertised prefix. Both timers get a heap copy of the
device, so their callbacks change the copy and the device itself never hears
of an expiry: once it has a global address it keeps it as valid for ever, and
the address is never DEPRECATED.
-/
import LevelIp.DadEvidence

namespace LevelIp

/-- Both lifetimes are finite, and the preferred one is no longer than the valid
one. -/
def PrefixOpt.Finite (p : PrefixOpt) : Prop :=
  0 < p.preferredLifetime ∧ p.preferredLifetime ≤ p.validLifetime ∧ p.validLifetime < infiniteLifetime

/-- The lifetimes of `q` end no earlier than those of `p`. -/
def PrefixOpt.Outlives (q p : PrefixOpt) : Prop :=
  p.preferredLifetime ≤ q.preferredLifetime ∧ p.validLifetime ≤ q.validLifetime

namespace Host6

/-- The host after the prefix option and what follows it. -/
def after (h : Host6) (p : PrefixOpt) (es : List AddrEvent) : Host6 := (h.step (.raPrefix p)).run es

/-- Before the preferred lifetime of `p`, counted from `since`, the global
address is not DEPRECATED, and before the valid one it is valid. -/
def NotEarly (since : Nat) (p : PrefixOpt) (t : Host6) : Prop :=
  (t.base.clock < since + 1000 * p.preferredLifetime.toNat → t.dev.addr6GlobalState ≠ .deprecated) ∧
    (t.base.clock < since + 1000 * p.validLifetime.toNat → t.dev.addr6GlobalValid = true)

/-- The lifetimes of the prefix `p`, advertised at `h`, take effect on the
device: neither early, nor, once the callbacks dispatched have run, late; and
where `q` prolongs them, not by the timers of `p`. -/
structure LifetimesHold (h : Host6) (p : PrefixOpt) : Prop where
  notEarly : ∀ es, (∀ e ∈ es, e.quiet = true) → NotEarly h.base.clock p (h.after p es)
  deprecates : ∀ es, (∀ e ∈ es, e.quiet = true) → (h.after p es).base.threads = [] →
    h.base.clock + 1000 * p.preferredLifetime.toNat < (h.after p es).base.clock →
      (h.after p es).dev.addr6GlobalState ≠ .preferred
  expires : ∀ es, (∀ e ∈ es, e.quiet = true) → (h.after p es).base.threads = [] →
    h.base.clock + 1000 * p.validLifetime.toNat < (h.after p es).base.clock →
      (h.after p es).dev.addr6GlobalValid = false
  prolonged : ∀ es q fs, (∀ e ∈ es, e.quiet = true) → q.prefixLen = 64 → q.pre = p.pre → q.Outlives p →
    (∀ e ∈ fs, e.quiet = true) → NotEarly (h.after p es).base.clock q ((h.after p es).after q fs)

/-! ## The device never hears of an expiry -/

/-- A global address stays valid. -/
theorem step_valid {h : Host6} {e : AddrEvent} (hv : h.dev.addr6GlobalValid = true) :
    (h.step e).dev.addr6GlobalValid = true := by
  by_cases hq : e.quiet = true
  · rcases step_quiet (h := h) hq with ⟨-, t, s, he⟩ | ⟨-, -, t, s, he⟩ | ⟨-, -, s⟩
    · rw [he, (decideDad_addrs t .invalid).2, s.valid, hv]
    · rw [he, (decideDad_addrs t .preferred).2, s.valid, hv]
    · rw [s.valid, hv]
  · cases e with
    | init => exact hv
    | raPrefix p =>
      by_cases hp : p.prefixLen = 64
      · exact (raPrefix_addrs hp).2.2
      · show (h.raPrefix p).dev.addr6GlobalValid = true
        rw [(sameConf_raPrefix hp).dev]
        exact hv
    | _ => exact absurd rfl hq

theorem run_valid {h : Host6} (es : List AddrEvent) (hv : h.dev.addr6GlobalValid = true) :
    (h.run es).dev.addr6GlobalValid = true :=
  Machine.invariant (I := fun h : Host6 => h.dev.addr6GlobalValid = true) (fun _ _ => step_valid) es hv

theorem decideDad_deprecated {h : Host6} {st : Addr6State} (hst : st ≠ .deprecated)
    (hn : h.dev.addr6GlobalState ≠ .deprecated) : (h.decideDad st).dev.addr6GlobalState ≠ .deprecated := by
  unfold decideDad
  split
  · exact hn
  dsimp only
  split
  · exact hn
  · next x _ =>
    split
    · cases x with
      | ll => exact hn
      | global => exact hst
    · exact hn

/-- The global address is never DEPRECATED. -/
theorem step_deprecated {h : Host6} {e : AddrEvent} (hn : h.dev.addr6GlobalState ≠ .deprecated) :
    (h.step e).dev.addr6GlobalState ≠ .deprecated := by
  by_cases hq : e.quiet = true
  · rcases step_quiet (h := h) hq with ⟨-, t, s, he⟩ | ⟨-, -, t, s, he⟩ | ⟨-, -, s⟩
    · rw [he]
      exact decideDad_deprecated nofun ((s.state .global).trans_ne hn)
    · rw [he]
      exact decideDad_deprecated nofun ((s.state .global).trans_ne hn)
    · exact (s.state .global).trans_ne hn
  · cases e with
    | init => exact hn
    | raPrefix p =>
      by_cases hp : p.prefixLen = 64
      · intro hd
        have := (started_raPrefix (h := h) hp).tentative
        rw [show (h.raPrefix p).dev.stateOf .global = .deprecated from hd] at this
        cases this
      · exact ((sameConf_raPrefix hp).stateOf .global).trans_ne hn
    | _ => exact absurd rfl hq

theorem run_deprecated {h : Host6} (es : List AddrEvent) (hn : h.dev.addr6GlobalState ≠ .deprecated) :
    (h.run es).dev.addr6GlobalState ≠ .deprecated :=
  Machine.invariant (I := fun h : Host6 => h.dev.addr6GlobalState ≠ .deprecated) (fun _ _ => step_deprecated) es hn

/-! ## Waiting -/

theorem run_ticks_clock (h : Host6) (n : Nat) :
    (Machine.run step h (List.replicate n (.tick []))).base.clock = h.base.clock + 10 * n := by
  induction n generalizing h with
  | zero => rfl
  | succ n ih =>
    rw [List.replicate_succ, Machine.run_cons, ih]
    show h.base.clock + 10 + 10 * n = _
    omega

@[simp] theorem runHandler6_base (h : Host6) (hd : Handler6) (a : Option Nat) : (h.runHandler6 hd a).base = h.base := by
  cases hd with
  | dadTimeout d => exact decideDad_base h _
  | preferredExpired => cases a <;> rfl
  | validExpired => cases a <;> rfl

/-- The first thread runs. -/
theorem runThread_zero (h : Host6) :
    (h.runThread 0).base.threads = h.base.threads.tail ∧ (h.runThread 0).base.clock = h.base.clock := by
  unfold runThread
  cases hth : h.base.threads with
  | nil => exact ⟨hth, rfl⟩
  | cons p ps => exact ⟨by rw [List.getElem?_cons_zero]; simp, by rw [List.getElem?_cons_zero]; simp⟩

/-- All threads run. -/
theorem run_threads (h : Host6) {n : Nat} (hn : h.base.threads.length ≤ n) :
    (Machine.run step h (List.replicate n (.thread 0))).base.threads = [] ∧
      (Machine.run step h (List.replicate n (.thread 0))).base.clock = h.base.clock := by
  induction n generalizing h with
  | zero => exact ⟨List.eq_nil_of_length_eq_zero (Nat.le_zero.1 hn), rfl⟩
  | succ n ih =>
    obtain ⟨ht, hc⟩ := runThread_zero h
    rw [List.replicate_succ, Machine.run_cons]
    have := ih (h.step (.thread 0)) (by
      show (h.runThread 0).base.threads.length ≤ n
      rw [ht, List.length_tail]
      omega)
    exact ⟨this.1, this.2.trans hc⟩

/-- A run that waits as long as one likes, until every callback has run. -/
theorem exists_wait (h : Host6) (n : Nat) :
    ∃ es : List AddrEvent, (∀ e ∈ es, e.quiet = true) ∧ (h.run es).base.threads = [] ∧
      h.base.clock + 10 * n = (h.run es).base.clock := by
  obtain ⟨t, ht⟩ : ∃ t, t = Machine.run step h (List.replicate n (.tick [])) := ⟨_, rfl⟩
  obtain ⟨h1, h2⟩ := run_threads t (le_refl _)
  refine ⟨List.replicate n (.tick []) ++ List.replicate t.base.threads.length (.thread 0), ?_, ?_, ?_⟩
  · intro e he
    rcases List.mem_append.1 he with he | he <;> rw [List.eq_of_mem_replicate he] <;> rfl
  · rw [run, Machine.run_append, ← ht]
    exact h1
  · rw [run, Machine.run_append, ← ht, h2, ht, run_ticks_clock]

/-- **Lifetimes never take effect**: whatever came before, and whatever the
lifetimes, the address outlasts them. In every later state it is valid and not
DEPRECATED. -/
theorem lifetimes_never_end (hw : HwAddr) (es : List AddrEvent) (p : PrefixOpt) (hp : p.prefixLen = 64)
    (_ : p.Finite) :
    ¬ ((bootHost6 hw).run es).LifetimesHold p ∧
      ∀ fs, (((bootHost6 hw).run es).after p fs).dev.addr6GlobalValid = true ∧
        (((bootHost6 hw).run es).after p fs).dev.addr6GlobalState ≠ .deprecated := by
  have hn : ((bootHost6 hw).run es).dev.addr6GlobalState ≠ .deprecated := run_deprecated es nofun
  generalize (bootHost6 hw).run es = h at hn
  have hv : (h.step (.raPrefix p)).dev.addr6GlobalValid = true := (raPrefix_addrs hp).2.2
  refine ⟨fun hl => ?_, fun fs => ⟨run_valid fs hv, run_deprecated fs (step_deprecated hn)⟩⟩
  obtain ⟨fs, hq, ht, hc⟩ := exists_wait (h.step (.raPrefix p)) (100 * p.validLifetime.toNat + 1)
  have hclock : (h.step (.raPrefix p)).base.clock = h.base.clock := (started_raPrefix hp).clock
  have := hl.expires fs hq ht (by unfold after; omega)
  rw [after, run_valid fs hv] at this
  cases this

/-- A prefix for a second. -/
def briefPrefix : PrefixOpt where
  prefixLen := 64
  validLifetime := 1
  preferredLifetime := 1
  pre := fieldOf [0x20, 0x01, 0x0d, 0xb8]

theorem brief_lifetime_never_ends :
    ¬ ((bootHost6 netdevMac).run []).LifetimesHold briefPrefix ∧
      ∀ fs, (((bootHost6 netdevMac).run []).after briefPrefix fs).dev.addr6GlobalValid = true ∧
        (((bootHost6 netdevMac).run []).after briefPrefix fs).dev.addr6GlobalState ≠ .deprecated :=
  lifetimes_never_end netdevMac [] briefPrefix rfl ⟨by decide, by decide, by decide⟩

/-- The second is over, all four callbacks have run, and the address is valid. -/
theorem brief_prefix_outlives : ¬ (bootHost6 netdevMac).LifetimesHold briefPrefix := by
  intro h
  have := h.expires (List.replicate 101 (.tick []) ++ List.replicate 4 (.thread 0)) (by decide) (by decide +kernel)
    (by decide +kernel)
  exact absurd this (by decide +kernel)

end Host6

end LevelIp
