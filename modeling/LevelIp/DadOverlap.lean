/-
Duplicate address detection over whole runs. There is one `dad_ctx` and one
`dad_done` for all detections, and `dad_timeout` does not know which detection
it was set for, so two detections under way at once disturb each other. Against
it stands what each address would see if its detection were its own
(`Progress`): under `detectsAlone` the device agrees with that.
-/
import LevelIp.AddrFacts

namespace LevelIp

/-- How far the last detection of an address has got, were each address to
have its own. -/
inductive Progress where
  | unstarted
  | running (since : Nat)
  | passed
  | failed
deriving DecidableEq

/-- The state an address should be in. -/
def Progress.state : Progress → Addr6State
  | .unstarted => .tentative
  | .running _ => .tentative
  | .passed => .preferred
  | .failed => .invalid

namespace AddrEvent

/-- The event starts a detection of the address in `x`. -/
def starts : AddrEvent → AddrSlot → Bool
  | .init, .ll => true
  | .raPrefix p, .global => p.prefixLen = 64
  | _, _ => false

/-- The event reports that the address in `x` is taken. -/
def failure (h : Host6) (x : AddrSlot) : AddrEvent → Bool
  | .na m => m.failsDad && m.target = h.dev.addr x
  | _ => false

/-- The detection whose timeout the event is. -/
def timeout (h : Host6) : AddrEvent → Option Detection
  | .thread i =>
    match h.base.threads[i]? with
    | some (.dadTimeout d, _) => some d
    | _ => none
  | _ => none

end AddrEvent

/-- The progress of the address in `x` after the event `e` at `h`. -/
def Progress.next (p : Progress) (h : Host6) (e : AddrEvent) (x : AddrSlot) : Progress :=
  if e.starts x then .running h.base.clock
  else
    match p with
    | .running since => if e.failure h x then .failed else if e.timeout h = some ⟨x, since⟩ then .passed else p
    | _ => p

/-- A host beside the progress each of its addresses should make. -/
structure Watch where
  host : Host6
  progress : AddrSlot → Progress

namespace Watch

def step (w : Watch) (e : AddrEvent) : Watch := ⟨w.host.step e, fun x => (w.progress x).next w.host e x⟩

abbrev run (w : Watch) (es : List AddrEvent) : Watch := Machine.run step w es

abbrev Meets (ok : Watch → AddrEvent → Prop) (w : Watch) (es : List AddrEvent) : Prop := Machine.Meets step ok w es

/-- At start-up the detection of the link-local address has just begun. -/
def boot (hw : HwAddr) : Watch where
  host := bootHost6 hw
  progress
    | .ll => .running 0
    | .global => .unstarted

/-- The progress is only looked at: the host runs as it does alone. -/
theorem run_host (w : Watch) (es : List AddrEvent) : (w.run es).host = w.host.run es := by
  induction es generalizing w with
  | nil => rfl
  | cons e es ih => exact ih _

/-- The detection of an address is its own in this step: the address leaves
TENTATIVE by its own timeout, which makes it PREFERRED and is not early, or by
its own failure, which makes it INVALID; and its own timeout, unless it has
failed, does not leave it TENTATIVE. -/
structure OwnDetection (w : Watch) (e : AddrEvent) (x : AddrSlot) : Prop where
  leaves : w.host.dev.stateOf x = .tentative → (w.host.step e).dev.stateOf x ≠ .tentative →
    (∃ since, w.progress x = .running since ∧ e.timeout w.host = some ⟨x, since⟩ ∧
        since + DAD_TIMEOUT_MS.toNat ≤ w.host.base.clock ∧ (w.host.step e).dev.stateOf x = .preferred) ∨
      (e.failure w.host x = true ∧ (w.host.step e).dev.stateOf x = .invalid)
  passes : ∀ since, w.progress x = .running since → e.timeout w.host = some ⟨x, since⟩ →
    (w.host.step e).dev.stateOf x ≠ .tentative

/-- No detection disturbs another in this step. -/
def Independent (w : Watch) (e : AddrEvent) : Prop := ∀ x, w.OwnDetection e x

end Watch

namespace Host6

/-- The last detection is decided and its timeout has come and gone. -/
def settled (h : Host6) : Bool :=
  h.dadDone && h.base.timers.all (fun e => e.cancelled || !e.handler.isDad) && h.base.threads.all (fun p => !p.1.isDad)

/-- The clock is not so near its wrap that the expiry of a detection wraps; on
the other side `timer_oneshot` prints an error. -/
def unwrapped (h : Host6) : Bool := h.base.tick ≤ h.base.tick + DAD_TIMEOUT_MS

/-- No detection starts while another is under way, for the link-local address
under both names, or at the wrap of the clock; and while one is under way, no
DAD-failing NA is about another address. -/
def detectsAlone (h : Host6) : AddrEvent → Bool
  | .init => h.settled && h.unwrapped
  | .raPrefix p =>
    p.prefixLen ≠ 64 || (h.settled && h.unwrapped && globalAddr p.pre h.dev.hwaddr ≠ h.dev.addr6Ll)
  | .na m => !m.failsDad || h.dadDone || m.target = h.dadCtx.target
  | _ => true

theorem settled_done {h : Host6} (hs : h.settled = true) : h.dadDone = true := by
  simp only [settled, Bool.and_eq_true] at hs
  exact hs.1.1

theorem settled_timers {h : Host6} (hs : h.settled = true) {e : TimerEntry Handler6 Nat} (he : e ∈ h.base.timers)
    (hc : e.cancelled = false) (d : Detection) : e.handler ≠ .dadTimeout d := by
  simp only [settled, Bool.and_eq_true, List.all_eq_true] at hs
  have := hs.1.2 e he
  intro hd
  rw [hc, hd] at this
  cases this

theorem settled_threads {h : Host6} (hs : h.settled = true) {d : Detection} {a : Option Nat} :
    (.dadTimeout d, a) ∉ h.base.threads := by
  simp only [settled, Bool.and_eq_true, List.all_eq_true] at hs
  intro hm
  have := hs.2 _ hm
  cases this

theorem unwrapped_clock {h : Host6} (hu : h.unwrapped = true) : h.base.clock % 2 ^ 32 + 1000 < 2 ^ 32 := by
  have hd : DAD_TIMEOUT_MS.toNat = 1000 := rfl
  simp only [unwrapped, decide_eq_true_eq, TimerBase.tick, BitVec.le_def, BitVec.toNat_add, BitVec.toNat_ofNat, hd] at hu
  omega

end Host6

/-! ## The invariant -/

namespace Watch

/-- The device agrees with the progress of its addresses, the context with the
one that is running, and each timeout to come with its detection. -/
structure Inv (w : Watch) : Prop where
  ll : w.host.dev.addr6Ll = ipv6GenerateLinklocal w.host.dev.hwaddr
  state : ∀ x, w.host.dev.stateOf x = (w.progress x).state
  running : ∀ x since, w.progress x = .running since →
    w.host.dadDone = false ∧ w.host.dadCtx = ⟨w.host.dev.addr x, some x⟩
  busy : w.host.dadDone = false → ∃ x since, w.progress x = .running since
  timers : ∀ e ∈ w.host.base.timers, e.cancelled = false → ∀ d, e.handler = .dadTimeout d →
    (w.host.dadDone = true ∨ w.progress d.slot = .running d.since) ∧
      e.expires = BitVec.ofNat 32 d.since + BitVec.ofNat 32 1000 ∧
      d.since % 2 ^ 32 + 1000 < 2 ^ 32 ∧ d.since ≤ w.host.base.clock
  threads : ∀ d a, (.dadTimeout d, a) ∈ w.host.base.threads →
    (w.host.dadDone = true ∨ w.progress d.slot = .running d.since) ∧ d.since + 1000 ≤ w.host.base.clock

/-- A detection starts on its own. -/
theorem Inv.started {w : Watch} {t : Host6} {x : AddrSlot} {pr : AddrSlot → Progress} (hi : w.Inv)
    (hs : w.host.settled = true) (hu : w.host.unwrapped = true) (ht : Host6.Started w.host t x)
    (hll : t.dev.addr6Ll = w.host.dev.addr6Ll) (hx : t.dadSlot (t.dev.addr x) = x)
    (hp : pr x = .running w.host.base.clock) (ho : ∀ y, y ≠ x → pr y = w.progress y) : Inv ⟨t, pr⟩ := by
  -- what ran before is over
  have hover : ∀ y, y ≠ x → ∀ since, w.progress y ≠ .running since := by
    intro y _ since hr
    have := (hi.running y since hr).1
    rw [Host6.settled_done hs] at this
    cases this
  refine ⟨?_, ?_, ?_, ?_, ?_, ?_⟩
  · dsimp only
    rw [hll, ht.hwaddr, hi.ll]
  · intro y
    dsimp only
    by_cases hy : y = x
    · subst hy
      rw [ht.tentative, hp]
      rfl
    · rw [ht.others y hy, ho y hy, hi.state y]
  · intro y since hr
    dsimp only at hr ⊢
    by_cases hy : y = x
    · subst hy
      exact ⟨ht.done, by rw [ht.ctx, hx]⟩
    · rw [ho y hy] at hr
      exact absurd hr (hover y hy since)
  · intro _
    exact ⟨x, _, hp⟩
  · intro e he hc d hd
    dsimp only at he ⊢
    rcases ht.timers e he hc d hd with h' | ⟨rfl, hexp⟩
    · exact absurd hd (Host6.settled_timers hs h' hc d)
    · refine ⟨.inr hp, hexp, Host6.unwrapped_clock hu, ?_⟩
      rw [ht.clock]
  · intro d a hm
    dsimp only at hm
    rw [ht.threads] at hm
    exact absurd hm (Host6.settled_threads hs)

/-- Nothing happens to the configuration. -/
theorem Inv.same {w : Watch} {t : Host6} (hi : w.Inv) (h : Host6.SameConf w.host t) : Inv ⟨t, w.progress⟩ where
  ll := by
    dsimp only
    rw [h.dev]
    exact hi.ll
  state x := by
    dsimp only
    rw [h.stateOf, hi.state]
  running x since hr := by
    dsimp only at hr ⊢
    rw [h.done, h.ctx, h.addr]
    exact hi.running x since hr
  busy hd := hi.busy (h.done ▸ hd)
  timers := by
    dsimp only
    rw [h.base, h.done]
    exact hi.timers
  threads := by
    dsimp only
    rw [h.base, h.done]
    exact hi.threads

/-- The running detection is decided. -/
theorem Inv.decided {w : Watch} {x : AddrSlot} {since : Nat} {s : Addr6State} {p : AddrSlot → Progress} (hi : w.Inv)
    (hr : w.progress x = .running since) (hp : (p x).state = s) (hn : ∀ since, p x ≠ .running since)
    (ho : ∀ y, y ≠ x → p y = w.progress y) : Inv ⟨w.host.decideDad s, p⟩ := by
  obtain ⟨hd, hctx⟩ := hi.running x since hr
  have hten : w.host.dev.stateOf x = .tentative := by rw [hi.state, hr]; rfl
  rw [Host6.decideDad_running hd (by rw [hctx]) hten]
  refine ⟨?_, ?_, ?_, ?_, ?_, ?_⟩
  · have := hi.ll
    cases x <;> exact this
  · intro y
    dsimp only
    by_cases hy : y = x
    · subst hy
      rw [Netdev.stateOf_setState, hp]
    · rw [Netdev.stateOf_setState_ne hy, ho y hy, hi.state]
  · intro y s' hr'
    dsimp only at hr'
    by_cases hy : y = x
    · subst hy
      exact absurd hr' (hn s')
    · -- two addresses cannot both be running
      rw [ho y hy] at hr'
      have := (hi.running y s' hr').2
      rw [hctx] at this
      exact absurd (Option.some.inj (congrArg DadCtx.statePtr this)).symm hy
  · intro h
    cases h
  · intro e he hc d hh
    exact ⟨.inl rfl, (hi.timers e he hc d hh).2⟩
  · intro d a hm
    exact ⟨.inl rfl, (hi.threads d a hm).2⟩

theorem inv_boot (hw : HwAddr) : (boot hw).Inv where
  ll := rfl
  state x := by cases x <;> rfl
  running x since hr := by
    cases x with
    | ll => exact ⟨rfl, (Host6.started_init _).ctx.trans (by rw [Host6.dadSlot_ll]; rfl)⟩
    | global => cases hr
  busy _ := ⟨.ll, 0, rfl⟩
  timers e he _ d hd := by
    rcases Host6.mem_timerOneshot (b := {}) he hd with h | ⟨rfl, hx⟩
    · cases h
    · exact ⟨.inr rfl, hx, show 0 % 2 ^ 32 + 1000 < 2 ^ 32 by decide, le_refl _⟩
  threads d a hm := by cases hm

/-- The timer list moves on: timers go, threads come from due timers. -/
theorem Inv.rebase {w : Watch} {b : TimerBase Handler6 Nat} (hi : w.Inv) (hc : w.host.base.clock ≤ b.clock)
    (ht : ∀ e ∈ b.timers, e.cancelled = false → e ∈ w.host.base.timers)
    (hth : ∀ d a, (.dadTimeout d, a) ∈ b.threads → (.dadTimeout d, a) ∈ w.host.base.threads ∨
      ∃ e ∈ w.host.base.timers, e.cancelled = false ∧ e.handler = .dadTimeout d ∧ d.since + 1000 ≤ b.clock) :
    Inv ⟨{ w.host with base := b }, w.progress⟩ where
  ll := hi.ll
  state := hi.state
  running := hi.running
  busy := hi.busy
  timers e he hn d hd := by
    obtain ⟨h1, h2, h3, h4⟩ := hi.timers e (ht e he hn) hn d hd
    exact ⟨h1, h2, h3, h4.trans hc⟩
  threads d a hm := by
    rcases hth d a hm with h | ⟨e, he, hn, hd, hx⟩
    · obtain ⟨h1, h2⟩ := hi.threads d a h
      exact ⟨h1, h2.trans hc⟩
    · exact ⟨(hi.timers e he hn d hd).1, hx⟩

/-! ## The steps -/

/-- An address whose detection the event neither starts nor decides. -/
theorem next_still {p : Progress} {h : Host6} {e : AddrEvent} {x : AddrSlot} (hs : e.starts x = false)
    (hp : ∀ since, p = .running since → e.failure h x = false ∧ e.timeout h ≠ some ⟨x, since⟩) : p.next h e x = p := by
  unfold Progress.next
  rw [if_neg (by rw [hs]; exact Bool.false_ne_true)]
  cases p with
  | running since =>
    obtain ⟨hf, ht⟩ := hp since rfl
    dsimp only
    rw [if_neg (by rw [hf]; exact Bool.false_ne_true), if_neg ht]
  | _ => rfl

theorem own_of_same {w : Watch} {e : AddrEvent} {x : AddrSlot} (h : (w.host.step e).dev.stateOf x = w.host.dev.stateOf x)
    (ht : e.timeout w.host = none) : w.OwnDetection e x where
  leaves hb ha := absurd (h.trans hb) ha
  passes _ _ ht' := by rw [ht] at ht'; cases ht'

/-- An event that leaves the configuration alone, and decides nothing. -/
theorem Inv.idle {w : Watch} {e : AddrEvent} (hi : w.Inv) (h : Host6.SameConf w.host (w.host.step e))
    (hs : ∀ x, e.starts x = false) (hf : ∀ x, e.failure w.host x = false) (ht : e.timeout w.host = none) :
    (w.step e).Inv ∧ w.Independent e := by
  have hp : (w.step e).progress = w.progress := by
    funext x
    exact next_still (hs x) fun since _ => ⟨hf x, by rw [ht]; nofun⟩
  refine ⟨?_, fun x => own_of_same (h.stateOf x) ht⟩
  have := hi.same h
  rw [← hp] at this
  exact this

/-- An event that starts a detection alone. -/
theorem Inv.start {w : Watch} {e : AddrEvent} {x : AddrSlot} (hi : w.Inv) (hset : w.host.settled = true)
    (hu : w.host.unwrapped = true) (ht : Host6.Started w.host (w.host.step e) x)
    (hll : (w.host.step e).dev.addr6Ll = w.host.dev.addr6Ll)
    (hx : (w.host.step e).dadSlot ((w.host.step e).dev.addr x) = x) (hs : ∀ y, e.starts y = true ↔ y = x)
    (hf : ∀ y, e.failure w.host y = false) (hto : e.timeout w.host = none) : (w.step e).Inv ∧ w.Independent e := by
  refine ⟨hi.started hset hu ht hll hx ?_ ?_, fun y => ?_⟩
  · dsimp only [Watch.step, Progress.next]
    rw [if_pos ((hs x).2 rfl)]
  · intro y hy
    refine next_still ?_ fun since _ => ⟨hf y, by rw [hto]; nofun⟩
    exact Bool.eq_false_iff.2 fun h => hy ((hs y).1 h)
  · by_cases hy : y = x
    · subst hy
      exact ⟨fun _ ha => absurd ht.tentative ha, fun _ _ h => by rw [hto] at h; cases h⟩
    · exact own_of_same (ht.others y hy) hto

/-- A timeout or a failure of the running detection. -/
theorem Inv.decide {w : Watch} {e : AddrEvent} {x : AddrSlot} {since : Nat} {st : Addr6State} {t : Host6} (hi : w.Inv)
    (hr : w.progress x = .running since) (hc : Host6.SameConf w.host t) (he : w.host.step e = t.decideDad st)
    (hp : ((w.progress x).next w.host e x).state = st)
    (hn : ∀ since, (w.progress x).next w.host e x ≠ .running since) (hs : ∀ y, e.starts y = false) :
    (w.step e).Inv := by
  have hd := (hi.same hc).decided (w := ⟨t, w.progress⟩) (p := (w.step e).progress) hr hp hn ?_
  · unfold Watch.step at hd ⊢
    rw [he]
    exact hd
  · intro y hy
    refine next_still (hs y) fun s' hr' => ?_
    have := (hi.running y s' hr').2
    rw [(hi.running x since hr).2] at this
    exact absurd (Option.some.inj (congrArg DadCtx.statePtr this)).symm hy

/-- A decision about `x` in one step: the running address goes to `st` and
nothing else moves. -/
theorem Inv.decide_state {w : Watch} {x : AddrSlot} {since : Nat} {st : Addr6State} {t : Host6} (hi : w.Inv)
    (hr : w.progress x = .running since) (hc : Host6.SameConf w.host t) (y : AddrSlot) :
    (t.decideDad st).dev.stateOf y = if y = x then st else w.host.dev.stateOf y := by
  obtain ⟨hd, hctx⟩ := hi.running x since hr
  have hten : t.dev.stateOf x = .tentative := by rw [hc.stateOf, hi.state, hr]; rfl
  rw [Host6.decideDad_running (hc.done.trans hd) (by rw [hc.ctx, hctx]) hten]
  dsimp only
  split
  · next h => rw [h, Netdev.stateOf_setState]
  · next h => rw [Netdev.stateOf_setState_ne h, hc.stateOf]

theorem Inv.step_na {w : Watch} {m : NdpMsg} (hi : w.Inv) (hok : w.host.detectsAlone (.na m) = true) :
    (w.step (.na m)).Inv ∧ w.Independent (.na m) := by
  obtain ⟨t, hc, ht⟩ := Host6.ndpNaProcess_conf w.host m
  by_cases hf : m.failsDad = true
  · rw [if_pos hf, Host6.ipv6AddrconfDadFailed_eq] at ht
    by_cases hd : w.host.dadDone = true
    · -- decided already
      rw [Host6.decideDad_done (hc.done.trans hd)] at ht
      have hst : Host6.SameConf w.host (w.host.step (.na m)) := by
        show Host6.SameConf w.host (w.host.ndpNaProcess m)
        rw [ht]
        exact hc
      have hp : (w.step (.na m)).progress = w.progress := by
        funext x
        refine next_still (e := .na m) rfl fun since hr => ?_
        rw [(hi.running x since hr).1] at hd
        cases hd
      refine ⟨?_, fun x => own_of_same (hst.stateOf x) rfl⟩
      have := hi.same hst
      rw [← hp] at this
      exact this
    · obtain ⟨x, since, hr⟩ := hi.busy (Bool.not_eq_true _ ▸ hd)
      have hctx := (hi.running x since hr).2
      have htarget : m.target = w.host.dev.addr x := by
        simp only [Host6.detectsAlone, hf, Bool.not_true, Bool.false_or, Bool.or_eq_true, decide_eq_true_eq] at hok
        replace hok := hok.resolve_left hd
        rw [hok, hctx]
      have hfail : AddrEvent.failure w.host x (.na m) = true := by
        simp only [AddrEvent.failure, hf, htarget, decide_true, Bool.and_self]
      have hnext : (w.progress x).next w.host (.na m) x = .failed := by
        unfold Progress.next
        rw [if_neg (by simp [AddrEvent.starts]), hr]
        dsimp only
        rw [if_pos hfail]
      refine ⟨hi.decide hr hc ht (by rw [hnext]; rfl) (by rw [hnext]; nofun) fun _ => rfl, fun y => ?_⟩
      have hst : (w.host.step (.na m)).dev.stateOf y = if y = x then .invalid else w.host.dev.stateOf y := by
        show (w.host.ndpNaProcess m).dev.stateOf y = _
        rw [ht]
        exact hi.decide_state hr hc y
      by_cases hy : y = x
      · subst hy
        rw [if_pos rfl] at hst
        exact ⟨fun _ _ => .inr ⟨hfail, hst⟩, fun _ _ h => by cases h⟩
      · rw [if_neg hy] at hst
        exact own_of_same hst rfl
  · rw [if_neg hf] at ht
    refine hi.idle ?_ (fun _ => rfl) (fun x => ?_) rfl
    · show Host6.SameConf w.host (w.host.ndpNaProcess m)
      rw [ht]
      exact hc
    · simp only [AddrEvent.failure, Bool.and_eq_false_imp]
      exact fun h => absurd h hf

theorem Inv.step_tick {w : Watch} (hi : w.Inv) (held : List Nat) :
    (w.step (.tick held)).Inv ∧ w.Independent (.tick held) := by
  have hp : (w.step (.tick held)).progress = w.progress := by
    funext x
    exact next_still (e := .tick held) rfl fun since _ => ⟨rfl, fun h => by cases h⟩
  refine ⟨?_, fun x => own_of_same rfl rfl⟩
  have h := hi.rebase (b := w.host.base.timersStart held) (Nat.le_add_right _ _)
    (fun e he hc => (TimerBase.mem_timersTick he hc).1) fun d a hm => ?_
  · rw [← hp] at h
    exact h
  · rcases TimerBase.mem_timersTick_threads hm with h | ⟨e, he, hdue, hpe⟩
    · exact .inl h
    · -- a due timer has waited out its time
      obtain ⟨hh, -⟩ := Prod.mk.inj hpe
      have hc : e.cancelled = false := by
        simp only [TimerBase.due, Bool.and_eq_true, Bool.not_eq_true'] at hdue
        exact hdue.1.2
      obtain ⟨-, hx, hw, hs⟩ := hi.timers e he hc d hh.symm
      exact .inr ⟨e, he, hc, hh.symm, TimerBase.not_early hx hw (hs.trans (Nat.le_add_right _ _)) hdue⟩

/-- A lifetime's callback runs. -/
theorem Inv.step_lifetime {w : Watch} {i : Nat} {hd : Handler6} {a : Option Nat} {t : Host6} (_ : w.Inv)
    (hth : w.host.base.threads[i]? = some (hd, a)) (hb : Inv ⟨t, w.progress⟩)
    (hst : w.host.step (.thread i) = t.runHandler6 hd a) (hdev : t.dev = w.host.dev) (hn : hd.isDad = false) :
    (w.step (.thread i)).Inv ∧ w.Independent (.thread i) := by
  have hto : AddrEvent.timeout w.host (.thread i) = none := by
    cases hd with
    | dadTimeout d => cases hn
    | _ => simp only [AddrEvent.timeout, hth]
  have hs : Host6.SameConf t (w.host.step (.thread i)) := by
    rw [hst]
    exact Host6.runHandler6_lifetime hn
  have hp : (w.step (.thread i)).progress = w.progress := by
    funext x
    exact next_still (e := .thread i) rfl fun since _ => ⟨rfl, by rw [hto]; nofun⟩
  refine ⟨?_, fun x => own_of_same (by rw [hs.stateOf, hdev]) hto⟩
  have := hb.same hs
  rw [← hp] at this
  exact this

theorem Inv.step_thread {w : Watch} (hi : w.Inv) (i : Nat) :
    (w.step (.thread i)).Inv ∧ w.Independent (.thread i) := by
  cases hth : w.host.base.threads[i]? with
  | none =>
    have hst : w.host.step (.thread i) = w.host := by
      show w.host.runThread i = _
      unfold Host6.runThread
      rw [hth]
    refine hi.idle (by rw [hst]; exact .refl _) (fun _ => rfl) (fun _ => rfl) ?_
    simp only [AddrEvent.timeout, hth]
  | some p =>
    obtain ⟨hd, a⟩ := p
    have hst : w.host.step (.thread i) =
        { w.host with base := { w.host.base with threads := w.host.base.threads.eraseIdx i } }.runHandler6 hd a := by
      show w.host.runThread i = _
      unfold Host6.runThread
      rw [hth]
    have hb := hi.rebase (b := { w.host.base with threads := w.host.base.threads.eraseIdx i }) (le_refl _)
      (fun _ he _ => he) fun _ _ hm => .inl (List.mem_of_mem_eraseIdx hm)
    obtain ⟨t, ht⟩ : ∃ t, t = { w.host with base := { w.host.base with threads := w.host.base.threads.eraseIdx i } } :=
      ⟨_, rfl⟩
    have hdev : t.dev = w.host.dev := by rw [ht]
    rw [← ht] at hst hb
    cases hd with
    | dadTimeout d =>
      have hto : AddrEvent.timeout w.host (.thread i) = some d := by
        simp only [AddrEvent.timeout, hth]
      by_cases hdone : w.host.dadDone = true
      · -- decided already
        have hst' : w.host.step (.thread i) = t :=
          hst.trans (Host6.decideDad_done (by rw [ht]; exact hdone) .preferred)
        have hrun : ∀ x since, w.progress x ≠ .running since := by
          intro x since hr
          rw [(hi.running x since hr).1] at hdone
          cases hdone
        have hp : (w.step (.thread i)).progress = w.progress := by
          funext x
          exact next_still (e := .thread i) rfl fun since hr => absurd hr (hrun x since)
        refine ⟨?_, fun x => ⟨fun hten hne => ?_, fun since hr => absurd hr (hrun x since)⟩⟩
        · rw [← hp, ← hst'] at hb
          exact hb
        · rw [hst', hdev] at hne
          exact absurd hten hne
      · have hr : w.progress d.slot = .running d.since :=
          (hi.threads d a (List.mem_of_getElem? hth)).1.resolve_left hdone
        have hnext : (w.progress d.slot).next w.host (.thread i) d.slot = .passed := by
          unfold Progress.next
          rw [if_neg (by simp [AddrEvent.starts]), hr]
          dsimp only
          rw [if_neg (by simp [AddrEvent.failure]), if_pos hto]
        have hother : ∀ y, y ≠ d.slot → (w.step (.thread i)).progress y = w.progress y := by
          intro y hy
          refine next_still (e := .thread i) rfl fun since _ => ⟨rfl, fun h => hy ?_⟩
          rw [hto] at h
          exact (congrArg Detection.slot (Option.some.inj h)).symm
        refine ⟨?_, fun y => ?_⟩
        · have := hb.decided (s := .preferred) (p := (w.step (.thread i)).progress) hr
            (congrArg Progress.state hnext) (by rw [show (w.step (.thread i)).progress d.slot = .passed from hnext]; nofun) hother
          rw [← Host6.dadTimeout_eq, ← show w.host.step (.thread i) = t.dadTimeout from hst] at this
          exact this
        · have hsy : (w.host.step (.thread i)).dev.stateOf y = if y = d.slot then .preferred else w.host.dev.stateOf y := by
            rw [hst, ← hdev]
            exact hb.decide_state hr (.refl t) y
          by_cases hy : y = d.slot
          · rw [if_pos hy] at hsy
            refine ⟨fun _ _ => .inl ⟨d.since, by rw [hy, hr], by rw [hto, hy], ?_, hsy⟩, fun _ _ _ => by rw [hsy]; nofun⟩
            exact (hi.threads d a (List.mem_of_getElem? hth)).2
          · rw [if_neg hy] at hsy
            refine ⟨fun hten hne => absurd (hsy.trans hten) hne, fun since _ h => ?_⟩
            rw [hto] at h
            exact absurd (congrArg Detection.slot (Option.some.inj h)).symm hy
    | preferredExpired => exact hi.step_lifetime hth hb hst hdev rfl
    | validExpired => exact hi.step_lifetime hth hb hst hdev rfl

theorem Inv.step {w : Watch} {e : AddrEvent} (hi : w.Inv) (hok : w.host.detectsAlone e = true) :
    (w.step e).Inv ∧ w.Independent e := by
  cases e with
  | init =>
    simp only [Host6.detectsAlone, Bool.and_eq_true] at hok
    refine hi.start hok.1 hok.2 (Host6.started_init w.host) hi.ll.symm (Host6.dadSlot_ll _) (fun y => ?_) (fun _ => rfl) rfl
    cases y <;> simp [AddrEvent.starts]
  | raPrefix p =>
    by_cases hp : p.prefixLen = 64
    · simp only [Host6.detectsAlone, hp, ne_eq, not_true_eq_false, decide_false, Bool.false_or, Bool.and_eq_true,
        decide_eq_true_eq] at hok
      obtain ⟨hll, hg, -⟩ := Host6.raPrefix_addrs (h := w.host) hp
      refine hi.start hok.1.1 hok.1.2 (Host6.started_raPrefix hp) hll (if_neg ?_) (fun y => ?_) (fun _ => rfl) rfl
      · show (w.host.raPrefix p).dev.addr6Global ≠ (w.host.raPrefix p).dev.addr6Ll
        rw [hg, hll]
        exact hok.2
      · cases y <;> simp [AddrEvent.starts, hp]
    · refine hi.idle (Host6.sameConf_raPrefix hp) (fun x => ?_) (fun _ => rfl) rfl
      cases x with
      | ll => rfl
      | global => exact decide_eq_false hp
  | raRoute gateway => exact hi.idle ⟨rfl, rfl, rfl, rfl⟩ (fun _ => rfl) (fun _ => rfl) rfl
  | na m => exact hi.step_na hok
  | ns m => exact hi.idle ⟨rfl, rfl, rfl, rfl⟩ (fun _ => rfl) (fun _ => rfl) rfl
  | tick held => exact hi.step_tick held
  | thread i => exact hi.step_thread i
  | output saddr daddr nexthdr =>
    exact hi.idle (Host6.sameConf_ipv6OutputEx _ _ _ _) (fun _ => rfl) (fun _ => rfl) rfl

/-- **Detections that do not overlap are independent**: in every run from
start-up whose events meet `detectsAlone`, each address is decided by its own
detection. -/
theorem detections_independent (hw : HwAddr) (es : List AddrEvent)
    (h : Meets (fun w e => w.host.detectsAlone e = true) (boot hw) es) : Meets Independent (boot hw) es :=
  h.derives (fun _ _ hok hi => hi.step hok) (inv_boot hw)

/-- 2001:db8::/64 for an hour, preferred for half of it. -/
def docPrefix : PrefixOpt where
  prefixLen := 64
  validLifetime := 3600
  preferredLifetime := 1800
  pre := #v[0x20, 0x01, 0x0d, 0xb8, 0, 0, 0, 0, 0, 0, 0, 0, 0, 0, 0, 0]

/-- A second and a tick. -/
def aSecond : List AddrEvent := List.replicate 101 (.tick [])

/-- A router that answers after the first detection. -/
theorem detections_in_turn :
    Meets Independent (boot netdevMac) (aSecond ++ [.thread 0, .raPrefix docPrefix] ++ aSecond ++ [.thread 0]) :=
  detections_independent netdevMac _ (by decide +kernel)

/-- A router that answers at once: the timeout of the link-local address is
spent on the global one, and the link-local address stays TENTATIVE. -/
theorem fast_router_disturbs :
    ¬ Meets Independent (boot netdevMac) ([.raPrefix docPrefix] ++ aSecond ++ [.thread 0]) := by
  intro h
  have hl := (Machine.Meets.append.1 h).2.1 .ll
  exact hl.passes 0 (by decide +kernel) (by decide +kernel) (by decide +kernel)

end Watch

end LevelIp
