/-
The 32-bit clock of `timer.c`. A timer expires at `tick + d`, and is due once that
number is below `tick`, both as unsigned numbers: before `tick` wraps every timer
whose expiry has wrapped is due, and after it none that has not.

The thread of `timers_start` adds to `tick` and then makes its pass; the others
add, release and cancel timers at any time between.
-/
import LevelIp.Timers
import LevelIp.Lib.Machine

namespace LevelIp

/-- The timers, and whether `tick` has been added to with the pass still to come. -/
structure TickHost (H A : Type) where
  base : TimerBase H A
  ticked : Bool := false
deriving DecidableEq

inductive TickEvent (H A : Type) where
  | oneshot (expire : U32) (handler : H) (arg : Option A)
  | add (expire : U32) (handler : H) (arg : Option A) (argFree : Bool)
  | release (t : Option Nat)
  | cancel (t : Option Nat)
  /-- `tick += 10`. -/
  | clock
  /-- `timers_tick`; `held` are the timers that others have locked at that moment. -/
  | pass (held : List Nat)
deriving DecidableEq

/-- The delay of a timer that is added. -/
def TickEvent.delay {H A : Type} : TickEvent H A → Option U32
  | oneshot expire _ _ | add expire _ _ _ => some expire
  | _ => none

namespace TickHost

variable {H A : Type}

def step (s : TickHost H A) : TickEvent H A → TickHost H A
  | .oneshot expire handler arg => { s with base := s.base.timerOneshot expire handler arg }
  | .add expire handler arg argFree => { s with base := s.base.timerAddWithRelease expire handler arg argFree }
  | .release t => { s with base := s.base.timerRelease t }
  | .cancel t => { s with base := s.base.timerCancel t }
  | .clock => if s.ticked then s else { base := { s.base with clock := s.base.clock + 10 }, ticked := true }
  | .pass held => if s.ticked then { base := s.base.timersTick held, ticked := false } else s

abbrev run (s : TickHost H A) (es : List (TickEvent H A)) : TickHost H A := Machine.run step s es

/-! ## What is asked -/

/-- The timer `t` is on the list, not cancelled and not dispatched. -/
def Waiting (s : TickHost H A) (t : Nat) : Prop := ∃ e ∈ s.base.timers, e.id = t ∧ e.cancelled = false

/-- The pass dispatches it. -/
def Dispatches (s : TickHost H A) (t : Nat) (held : List Nat) : Prop :=
  s.ticked = true ∧ ∃ e ∈ s.base.timers, e.id = t ∧ s.base.due held e

/-- A pass, at the time `c` or later. -/
def passSince (c : Nat) (s : TickHost H A) : TickEvent H A → Bool
  | .pass _ => s.ticked && c ≤ s.base.clock
  | _ => false

/-- How many of them there are in a run. -/
def passesSince (c : Nat) : TickHost H A → List (TickEvent H A) → Nat
  | _, [] => 0
  | s, e :: es => (s.passSince c e).toNat + passesSince c (s.step e) es

/-- The timer that `ev` adds with delay `d` is not dispatched before `d` has
passed, and is after the first two passes from then on, unless it is cancelled. -/
structure Punctual (s : TickHost H A) (ev : TickEvent H A) (d : U32) (es : List (TickEvent H A)) : Prop where
  early : ∀ pre held post, es = pre ++ .pass held :: post → ((s.step ev).run pre).Dispatches s.base.nextId held →
    s.base.clock + d.toNat ≤ ((s.step ev).run pre).base.clock
  late : ∀ pre, pre <+: es → .cancel (some s.base.nextId) ∉ pre → 2 ≤ (s.step ev).passesSince (s.base.clock + d.toNat) pre →
    ¬((s.step ev).run pre).Waiting s.base.nextId

/-- No pass finds the timer `t` locked by another thread. -/
def Uncontended (t : Nat) (es : List (TickEvent H A)) : Prop := ∀ held, .pass held ∈ es → t ∉ held

/-- **When it is**: neither the expiry nor the first tick after it has wrapped; or
the expiry has, and the next pass comes after `tick` has too. -/
def AddedInTime (s : TickHost H A) (d : U32) : Prop :=
  if s.base.tick.toNat + d.toNat < 2 ^ 32 then s.base.tick.toNat + 10 * (d.toNat / 10 + 1) < 2 ^ 32
  else s.ticked = false ∧ 2 ^ 32 ≤ s.base.tick.toNat + 10

/-! ## One timer -/

/-- Every entry of the timer `t` expires at `x`, and no other timer will be `t`. -/
structure Mine (t : Nat) (x : U32) (s : TickHost H A) : Prop where
  expires : ∀ e ∈ s.base.timers, e.id = t → e.expires = x
  fresh : t < s.base.nextId

section one
variable {s : TickHost H A} {t : Nat} {x : U32}

theorem due_iff {held : List Nat} {e : TimerEntry H A} :
    s.base.due held e = true ↔ e.id ∉ held ∧ e.cancelled = false ∧ e.expires < s.base.tick := by
  simp [TimerBase.due, and_assoc]

/-- The entries after a pass come from those before it. -/
theorem mem_pass {b : TimerBase H A} {held : List Nat} {u : TimerEntry H A} (h : u ∈ (b.timersTick held).timers) :
    ∃ e ∈ b.timers, u = b.turn held e ∧ TimerBase.gone held u = false := by
  obtain ⟨hmap, hgone⟩ := List.mem_filter.mp h
  obtain ⟨e, he, rfl⟩ := List.mem_map.mp hmap
  exact ⟨e, he, rfl, by simpa using hgone⟩

theorem turn_spec (b : TimerBase H A) (held : List Nat) (e : TimerEntry H A) :
    (b.turn held e).id = e.id ∧ (b.turn held e).expires = e.expires ∧
      (b.turn held e).cancelled = (e.cancelled || b.due held e) := by
  unfold TimerBase.turn
  split
  next h => exact ⟨rfl, rfl, by rw [h, Bool.or_true]⟩
  next h => exact ⟨rfl, rfl, by rw [Bool.eq_false_of_not_eq_true h, Bool.or_false]⟩

theorem Mine.step (h : Mine t x s) (ev : TickEvent H A) : Mine t x (s.step ev) := by
  obtain ⟨hexp, hfresh⟩ := h
  have hlink : ∀ (rc : Int) (d : U32) (hd : H) (a : Option A) (f : Bool),
      Mine t x { s with base := s.base.link rc d hd a f } := fun rc d hd a f => by
    refine ⟨fun e he ht => ?_, Nat.lt_succ_of_lt hfresh⟩
    obtain he | rfl := TimerBase.mem_link.mp he
    · exact hexp e he ht
    · exact absurd ht (Nat.ne_of_gt hfresh)
  have hmap : ∀ (f : TimerEntry H A → TimerEntry H A), (∀ e, (f e).id = e.id ∧ (f e).expires = e.expires) →
      Mine t x { s with base := { s.base with timers := s.base.timers.map f } } := fun f hf => by
    refine ⟨fun e he ht => ?_, hfresh⟩
    obtain ⟨u, hu, rfl⟩ := List.mem_map.mp he
    rw [(hf u).2]
    exact hexp u hu ((hf u).1 ▸ ht)
  cases ev with
  | oneshot d hd a => exact hlink 0 d hd a false
  | add d hd a f => exact hlink 1 d hd a f
  | release o => exact hmap _ fun e => by split <;> exact ⟨rfl, rfl⟩
  | cancel o => exact hmap _ fun e => by split <;> exact ⟨rfl, rfl⟩
  | clock =>
    rw [TickHost.step]
    split
    · exact ⟨hexp, hfresh⟩
    · exact ⟨hexp, hfresh⟩
  | pass held =>
    rw [TickHost.step]
    split
    · refine ⟨fun u hu ht => ?_, hfresh⟩
      obtain ⟨e, he, rfl, -⟩ := mem_pass hu
      obtain ⟨hid, hx, -⟩ := turn_spec s.base held e
      rw [hx]
      exact hexp e he (hid ▸ ht)
    · exact ⟨hexp, hfresh⟩

/-- Nothing brings a timer back. -/
theorem not_waiting_step (hf : t < s.base.nextId) (h : ¬s.Waiting t) (ev : TickEvent H A) : ¬(s.step ev).Waiting t := by
  rintro ⟨u, hu, hid, hc⟩
  have hlink : ∀ (rc : Int) (d : U32) (hd : H) (a : Option A) (f : Bool), u ∉ (s.base.link rc d hd a f).timers := by
    intro rc d hd a f hu
    obtain hu | rfl := TimerBase.mem_link.mp hu
    · exact h ⟨u, hu, hid, hc⟩
    · exact absurd hid (Nat.ne_of_gt hf)
  have hmap : ∀ (f : TimerEntry H A → TimerEntry H A),
      (∀ e, (f e).id = e.id ∧ ((f e).cancelled = false → e.cancelled = false)) → u ∉ s.base.timers.map f := by
    intro f hf hu
    obtain ⟨e, he, rfl⟩ := List.mem_map.mp hu
    exact h ⟨e, he, (hf e).1 ▸ hid, (hf e).2 hc⟩
  cases ev with
  | oneshot d hd a => exact hlink 0 d hd a false hu
  | add d hd a f => exact hlink 1 d hd a f hu
  | release o => exact hmap _ (fun e => by split <;> exact ⟨rfl, id⟩) hu
  | cancel o => exact hmap _ (fun e => by split <;> simp) hu
  | clock =>
    rw [TickHost.step] at hu
    split at hu <;> exact h ⟨u, hu, hid, hc⟩
  | pass held =>
    rw [TickHost.step] at hu
    split at hu
    · obtain ⟨e, he, rfl, -⟩ := mem_pass hu
      obtain ⟨hid', -, hcancelled⟩ := turn_spec s.base held e
      rw [hcancelled, Bool.or_eq_false_iff] at hc
      exact h ⟨e, he, hid' ▸ hid, hc.1⟩
    · exact h ⟨u, hu, hid, hc⟩

/-- A pass that gets the lock after the expiry dispatches the timer. -/
theorem not_waiting_pass (hm : Mine t x s) (hticked : s.ticked = true) {held : List Nat} (hheld : t ∉ held) (hx : x < s.base.tick) :
    ¬(s.step (.pass held)).Waiting t := by
  rintro ⟨u, hu, hid, hc⟩
  rw [TickHost.step, if_pos hticked] at hu
  obtain ⟨e, he, rfl, -⟩ := mem_pass hu
  obtain ⟨hid', -, hcancelled⟩ := turn_spec s.base held e
  rw [hid'] at hid
  rw [hcancelled, Bool.or_eq_false_iff] at hc
  have hdue : s.base.due held e = true := due_iff.mpr ⟨hid ▸ hheld, hc.1, hm.expires e he hid ▸ hx⟩
  rw [hdue] at hc
  cases hc.2

/-- One before it does not. -/
theorem waiting_pass (hm : Mine t x s) (hw : s.Waiting t) (held : List Nat) (hx : ¬x < s.base.tick) :
    (s.step (.pass held)).Waiting t := by
  obtain ⟨e, he, hid, hc⟩ := hw
  rw [TickHost.step]
  split
  · have hdue : s.base.due held e = false := by
      rw [Bool.eq_false_iff, ne_eq, due_iff, hm.expires e he hid]
      exact fun h => hx h.2.2
    have hturn : s.base.turn held e = e := if_neg (by rw [hdue]; decide)
    exact ⟨e, List.mem_filter.mpr ⟨List.mem_map.mpr ⟨e, he, hturn⟩, by simp [TimerBase.gone, hc]⟩, hid, hc⟩
  · exact ⟨e, he, hid, hc⟩

theorem passesSince_append (c : Nat) (s : TickHost H A) (es fs : List (TickEvent H A)) :
    s.passesSince c (es ++ fs) = s.passesSince c es + (s.run es).passesSince c fs := by
  induction es generalizing s with
  | nil => rw [List.nil_append, passesSince, Nat.zero_add]; rfl
  | cons e es ih => rw [List.cons_append, passesSince, passesSince, ih, Nat.add_assoc]; rfl

end one

/-! ## The arithmetic of the wrap -/

section wrap
variable {since c d : Nat}

/-- The first tick after the expiry. -/
def firstAfter (since d : Nat) : Nat := since + 10 * (d / 10 + 1)

/-- A timer added in time, in numbers. -/
def InTime (ticked : Bool) (since d : Nat) : Prop :=
  if since % 2 ^ 32 + d < 2 ^ 32 then since % 2 ^ 32 + 10 * (d / 10 + 1) < 2 ^ 32
  else ticked = false ∧ 2 ^ 32 ≤ since % 2 ^ 32 + 10

theorem InTime.not_before {ticked : Bool} (h : InTime ticked since d) (hd : d < 2 ^ 31) (hsince : since ≤ c) (hc : c < since + d)
    (hpass : ticked = false → since + 10 ≤ c) : ¬(since + d) % 2 ^ 32 < c % 2 ^ 32 := by
  unfold InTime at h
  split at h
  · omega
  · have h10 := hpass h.1
    omega

theorem InTime.due {ticked : Bool} (h : InTime ticked since d) (hd : d < 2 ^ 31) :
    (since + d) % 2 ^ 32 < firstAfter since d % 2 ^ 32 := by
  unfold InTime at h
  unfold firstAfter
  split at h
  · omega
  · omega

/-- An expiry that has wrapped is due at once. -/
theorem early_of_wrap (hd : d < 2 ^ 31) (hw : ¬since % 2 ^ 32 + d < 2 ^ 32) {k : Nat} (hk : since % 2 ^ 32 + k < 2 ^ 32) :
    (since + d) % 2 ^ 32 < (since + k) % 2 ^ 32 ∧ k < d := by
  omega

/-- One that has not is not due for the two passes after it, if `tick` wraps. -/
theorem late_of_wrap (hw : since % 2 ^ 32 + d < 2 ^ 32) (hn : ¬since % 2 ^ 32 + 10 * (d / 10 + 1) < 2 ^ 32) {k : Nat}
    (hd : d < 2 ^ 31) (hk : k ≤ d / 10 + 2) : ¬(since + d) % 2 ^ 32 < (since + 10 * k) % 2 ^ 32 := by
  have hexpires : (since + d) % 2 ^ 32 = since % 2 ^ 32 + d := by omega
  by_cases hbefore : k ≤ d / 10
  · have htick : (since + 10 * k) % 2 ^ 32 = since % 2 ^ 32 + 10 * k := by omega
    omega
  · have htick : (since + 10 * k) % 2 ^ 32 = since % 2 ^ 32 + 10 * k - 2 ^ 32 := by omega
    omega

end wrap

/-! ## A timer that is added -/

section added
variable {s : TickHost H A} {ev : TickEvent H A} {d : U32}

theorem lt_tick (since c : Nat) (d : U32) :
    BitVec.ofNat 32 since + d < BitVec.ofNat 32 c ↔ (since + d.toNat) % 2 ^ 32 < c % 2 ^ 32 := by
  rw [BitVec.lt_def, BitVec.toNat_add, BitVec.toNat_ofNat, BitVec.toNat_ofNat, Nat.mod_add_mod]

theorem addedInTime_iff : AddedInTime s d ↔ InTime s.ticked s.base.clock d.toNat := by
  have htick : s.base.tick.toNat = s.base.clock % 2 ^ 32 := BitVec.toNat_ofNat _ _
  rw [AddedInTime, InTime, htick]

/-- What the state is when the timer is on the list. -/
theorem added (hfresh : ∀ e ∈ s.base.timers, e.id < s.base.nextId) (hev : ev.delay = some d) :
    Mine s.base.nextId (s.base.tick + d) (s.step ev) ∧ (s.step ev).base.clock = s.base.clock ∧ (s.step ev).ticked = s.ticked ∧
      (s.step ev).Waiting s.base.nextId := by
  have hlink : ∀ (rc : Int) (hd : H) (a : Option A) (f : Bool),
      Mine s.base.nextId (s.base.tick + d) { s with base := s.base.link rc d hd a f } ∧
        Waiting { s with base := s.base.link rc d hd a f } s.base.nextId := fun rc hd a f => by
    refine ⟨⟨fun e he ht => ?_, Nat.lt_succ_self _⟩, ⟨_, TimerBase.mem_link.mpr (.inr rfl), rfl, rfl⟩⟩
    obtain he | rfl := TimerBase.mem_link.mp he
    · exact absurd ht (Nat.ne_of_lt (hfresh e he))
    · rfl
  cases ev with
  | oneshot expire hd a =>
    cases hev
    exact ⟨(hlink 0 hd a false).1, rfl, rfl, (hlink 0 hd a false).2⟩
  | add expire hd a f =>
    cases hev
    exact ⟨(hlink 1 hd a f).1, rfl, rfl, (hlink 1 hd a f).2⟩
  | release | cancel | clock | pass => cases hev

/-- What is so of the timer `t`, added at `since` with delay `d`, after a run in
which `n` passes came after the delay. -/
structure Tracks (t since d : Nat) (x : U32) (ticked : Bool) (n : Nat) (u : TickHost H A) : Prop where
  mine : Mine t x u
  grid : ∃ k, u.base.clock = since + 10 * k
  started : u.ticked = true → ticked = false → since + 10 ≤ u.base.clock
  gone : firstAfter since d < u.base.clock ∨ (firstAfter since d = u.base.clock ∧ u.ticked = false) → ¬u.Waiting t
  once : 1 ≤ n → since + d ≤ u.base.clock ∧ (u.ticked = true → since + d + 10 ≤ u.base.clock)
  twice : 2 ≤ n → firstAfter since d < u.base.clock ∨ (firstAfter since d = u.base.clock ∧ u.ticked = false)

theorem Tracks.step {t since d n : Nat} {x : U32} {ticked : Bool} {u : TickHost H A} (h : Tracks t since d x ticked n u)
    (hdue : ∀ c, firstAfter since d = c → x < BitVec.ofNat 32 c) {ev : TickEvent H A} (hev : ∀ held, ev = .pass held → t ∉ held) :
    Tracks t since d x ticked (n + (u.passSince (since + d) ev).toNat) (u.step ev) := by
  obtain ⟨k, hk⟩ := h.grid
  have hmine := h.mine.step ev
  have hgone := fun hw => not_waiting_step h.mine.fresh (h.gone hw) ev
  -- events that leave the clock and the phase alone
  have hquiet : (u.step ev).base.clock = u.base.clock → (u.step ev).ticked = u.ticked → (u.passSince (since + d) ev).toNat = 0 →
      Tracks t since d x ticked (n + (u.passSince (since + d) ev).toNat) (u.step ev) := by
    intro hclock hticked hzero
    rw [hzero, Nat.add_zero]
    refine ⟨hmine, ⟨k, hclock.trans hk⟩, ?_, ?_, ?_, ?_⟩
    · rw [hclock, hticked]; exact h.started
    · rw [hclock, hticked]; exact hgone
    · rw [hclock, hticked]; exact h.once
    · rw [hclock, hticked]; exact h.twice
  cases ev with
  | oneshot | add | release | cancel => exact hquiet rfl rfl rfl
  | clock =>
    by_cases hticked : u.ticked = true
    · have hsame : u.step .clock = u := if_pos hticked
      exact hquiet (by rw [hsame]) (by rw [hsame]) rfl
    · have hnext : u.step .clock = { base := { u.base with clock := u.base.clock + 10 }, ticked := true } := if_neg hticked
      have hf : u.ticked = false := Bool.eq_false_of_not_eq_true hticked
      rw [hnext] at hmine hgone ⊢
      refine ⟨hmine, ⟨k + 1, by dsimp only; omega⟩, fun _ _ => by dsimp only; omega, fun hw => hgone ?_, fun hn => ?_, fun hn => ?_⟩
      · -- the clock moves along the grid
        unfold firstAfter at hw ⊢
        obtain hw | ⟨-, hphase⟩ := hw
        · dsimp only at hw
          by_cases heq : since + 10 * (d / 10 + 1) = u.base.clock
          · exact .inr ⟨heq, hf⟩
          · exact .inl (by omega)
        · cases hphase
      · have ho := h.once hn
        exact ⟨by dsimp only; omega, fun _ => by dsimp only; omega⟩
      · have ht := h.twice hn
        exact .inl (by dsimp only; omega)
  | pass held =>
    by_cases hticked : u.ticked = true
    · have hnext : u.step (.pass held) = { base := u.base.timersTick held, ticked := false } := if_pos hticked
      have hclock : (u.step (.pass held)).base.clock = u.base.clock := by rw [hnext]; rfl
      have hphase : (u.step (.pass held)).ticked = false := by rw [hnext]
      refine ⟨hmine, ⟨k, hclock.trans hk⟩, fun ht => ?_, fun hw => ?_, fun hn => ?_, fun hn => ?_⟩
      · rw [hphase] at ht
        cases ht
      · rw [hclock] at hw
        by_cases heq : firstAfter since d = u.base.clock
        · exact not_waiting_pass h.mine hticked (hev held rfl) (hdue _ heq)
        · exact hgone (.inl (by omega))
      · rw [hclock, hphase]
        refine ⟨?_, fun hf => by cases hf⟩
        by_cases hn1 : 1 ≤ n
        · exact (h.once hn1).1
        · by_cases hc : since + d ≤ u.base.clock
          · exact hc
          · simp only [passSince, hc, decide_false, Bool.and_false, Bool.toNat_false] at hn
            omega
      · rw [hclock, hphase]
        have hn1 : 1 ≤ n := by
          have hle := Bool.toNat_le (u.passSince (since + d) (.pass held))
          omega
        have ho := (h.once hn1).2 hticked
        unfold firstAfter
        by_cases heq : since + 10 * (d / 10 + 1) = u.base.clock
        · exact .inr ⟨heq, rfl⟩
        · exact .inl (by omega)
    · have hsame : u.step (.pass held) = u := if_neg hticked
      have hzero : (u.passSince (since + d) (.pass held)).toNat = 0 := by
        simp only [passSince, Bool.eq_false_of_not_eq_true hticked, Bool.false_and, Bool.toNat_false]
      exact hquiet (by rw [hsame]) (by rw [hsame]) hzero

/-- **The run**: from the moment the timer is on the list. -/
theorem Tracks.run {t since d n : Nat} {x : U32} {ticked : Bool} {u : TickHost H A} (h : Tracks t since d x ticked n u)
    (hdue : ∀ c, firstAfter since d = c → x < BitVec.ofNat 32 c) {es : List (TickEvent H A)} (hes : Uncontended t es) :
    Tracks t since d x ticked (n + u.passesSince (since + d) es) (u.run es) := by
  induction es generalizing u n with
  | nil => exact h
  | cons ev es ih =>
    rw [passesSince, ← Nat.add_assoc]
    exact ih (h.step hdue fun held hh => hes held (hh ▸ List.mem_cons_self)) fun held hh => hes held (List.mem_cons_of_mem _ hh)

theorem punctual_of_inTime (hfresh : ∀ e ∈ s.base.timers, e.id < s.base.nextId) (hev : ev.delay = some d) (hd : d.toNat < 2 ^ 31)
    (hin : AddedInTime s d) {es : List (TickEvent H A)} (hes : Uncontended s.base.nextId es) : Punctual s ev d es := by
  rw [addedInTime_iff] at hin
  obtain ⟨hmine, hclock, hticked, -⟩ := added hfresh hev
  have hdue : ∀ c, firstAfter s.base.clock d.toNat = c → s.base.tick + d < BitVec.ofNat 32 c := by
    rintro c rfl
    exact (lt_tick _ _ d).mpr (hin.due hd)
  have hstart : Tracks s.base.nextId s.base.clock d.toNat (s.base.tick + d) s.ticked 0 (s.step ev) := by
    refine ⟨hmine, ⟨0, hclock⟩, fun ht hf => ?_, fun hw => ?_, fun hn => by omega, fun hn => by omega⟩
    · rw [hticked, hf] at ht
      cases ht
    · rw [hclock] at hw
      unfold firstAfter at hw
      omega
  constructor
  · rintro pre held post rfl ⟨hphase, e, he, hid, hdispatch⟩
    have ht := hstart.run hdue fun held' hh => hes held' (List.mem_append_left _ hh)
    obtain ⟨-, -, hlt⟩ := due_iff.mp hdispatch
    rw [ht.mine.expires e he hid] at hlt
    by_contra hearly
    obtain ⟨k, hk⟩ := ht.grid
    exact hin.not_before hd (by omega) (Nat.lt_of_not_le hearly) (ht.started hphase) ((lt_tick _ _ d).mp hlt)
  · intro pre hpre _ htwo
    have ht := hstart.run hdue fun held hh => hes held (hpre.subset hh)
    exact ht.gone (ht.twice (by omega))

/-! ## Runs that show it -/

/-- Rounds of `timers_start` with nobody else about. -/
def rounds : Nat → List (TickEvent H A)
  | 0 => []
  | n + 1 => .clock :: .pass [] :: rounds n

theorem rounds_add (m n : Nat) : (rounds (m + n) : List (TickEvent H A)) = rounds m ++ rounds n := by
  induction m with
  | zero => rw [Nat.zero_add]; rfl
  | succ m ih => rw [Nat.succ_add, rounds, ih]; rfl

theorem uncontended_rounds (t n : Nat) : Uncontended t (rounds n : List (TickEvent H A)) := by
  induction n with
  | zero => exact fun _ h => by cases h
  | succ n ih =>
    intro held h
    rw [rounds] at h
    obtain h | h := List.mem_cons.mp h
    · cases h
    · obtain h | h := List.mem_cons.mp h
      · cases h
        exact List.not_mem_nil
      · exact ih held h

theorem cancel_rounds (t n : Nat) : (.cancel (some t) : TickEvent H A) ∉ rounds n := by
  induction n with
  | zero => exact List.not_mem_nil
  | succ n ih => simpa [rounds] using ih

theorem step_round {u : TickHost H A} (hu : u.ticked = false) :
    (u.step .clock) = { base := { u.base with clock := u.base.clock + 10 }, ticked := true } ∧
      ((u.step .clock).step (.pass [])).base.clock = u.base.clock + 10 ∧ ((u.step .clock).step (.pass [])).ticked = false := by
  have hclock : u.step .clock = { base := { u.base with clock := u.base.clock + 10 }, ticked := true } :=
    if_neg (by rw [hu]; decide)
  rw [hclock]
  exact ⟨rfl, rfl, rfl⟩

/-- A timer that is never due in the rounds is still there after them. -/
theorem rounds_waiting {t n : Nat} {x : U32} {u : TickHost H A} (hu : u.ticked = false) (hm : Mine t x u) (hw : u.Waiting t)
    (hx : ∀ k ≤ n, ¬x < BitVec.ofNat 32 (u.base.clock + 10 * k)) :
    (u.run (rounds n)).Waiting t ∧ (u.run (rounds n)).base.clock = u.base.clock + 10 * n ∧ (u.run (rounds n)).ticked = false := by
  induction n generalizing u with
  | zero => exact ⟨hw, rfl, hu⟩
  | succ n ih =>
    obtain ⟨hstep, hclock, hphase⟩ := step_round hu
    have hw₁ : (u.step .clock).Waiting t := by
      rw [hstep]
      exact hw
    have hnot : ¬x < (u.step .clock).base.tick := by
      rw [hstep]
      exact hx 1 (by omega)
    have hw₂ := waiting_pass (hm.step .clock) hw₁ [] hnot
    obtain ⟨h1, h2, h3⟩ := ih hphase ((hm.step .clock).step (.pass [])) hw₂ fun k hk => by
      have h := hx (k + 1) (by omega)
      rwa [Nat.mul_succ, Nat.add_comm (10 * k), ← Nat.add_assoc, ← hclock] at h
    exact ⟨h1, by rw [rounds, run, Machine.run_cons, Machine.run_cons, h2, hclock]; omega, h3⟩

theorem passesSince_rounds {c n : Nat} {u : TickHost H A} (hu : u.ticked = false) (hc : c ≤ u.base.clock + 10) :
    u.passesSince c (rounds n) = n := by
  induction n generalizing u with
  | zero => rfl
  | succ n ih =>
    obtain ⟨hstep, hclock, hphase⟩ := step_round hu
    have hone : ((u.step .clock).passSince c (.pass [])).toNat = 1 := by
      rw [hstep, passSince]
      simp only [hc, decide_true, Bool.and_true, Bool.toNat_true]
    have hzero : (u.passSince c .clock).toNat = 0 := rfl
    rw [rounds, passesSince, passesSince, hone, hzero, ih hphase (by omega)]
    omega

/-- The thread up to its next sleep. -/
def settle (u : TickHost H A) : List (TickEvent H A) := if u.ticked then [.pass []] else []

theorem not_punctual_of_not_inTime (hfresh : ∀ e ∈ s.base.timers, e.id < s.base.nextId) (hev : ev.delay = some d)
    (hd : d.toNat < 2 ^ 31) (hin : ¬AddedInTime s d) : ∃ es, Uncontended s.base.nextId es ∧ ¬Punctual s ev d es := by
  rw [addedInTime_iff, InTime] at hin
  obtain ⟨hmine, hclock, hticked, hw⟩ := added hfresh hev
  have huncontended : ∀ n, Uncontended s.base.nextId (settle (s.step ev) ++ rounds n) := by
    intro n held hh
    obtain hh | hh := List.mem_append.mp hh
    · unfold settle at hh
      split at hh
      · cases List.mem_singleton.mp hh
        exact List.not_mem_nil
      · cases hh
    · exact uncontended_rounds _ n held hh
  -- a pass that is due for the timer dispatches it
  have hdispatch : ∀ u : TickHost H A, Mine s.base.nextId (s.base.tick + d) u → u.Waiting s.base.nextId → u.ticked = true →
      s.base.tick + d < u.base.tick → u.Dispatches s.base.nextId [] := by
    rintro u hm ⟨e, he, hid, hc⟩ hphase hlt
    exact ⟨hphase, e, he, hid, due_iff.mpr ⟨List.not_mem_nil, hc, hm.expires e he hid ▸ hlt⟩⟩
  split at hin
  next hwrap =>
    -- the tick wraps before the timer is due
    have hlate : ∀ k ≤ d.toNat / 10 + 2, ¬s.base.tick + d < BitVec.ofNat 32 (s.base.clock + 10 * k) := fun k hk h =>
      late_of_wrap hwrap hin hd hk ((lt_tick _ _ d).mp h)
    refine ⟨_, huncontended (d.toNat / 10 + 2), fun hp => ?_⟩
    have hsettled : ((s.step ev).run (settle (s.step ev))).ticked = false ∧ ((s.step ev).run (settle (s.step ev))).base.clock = s.base.clock ∧
        Mine s.base.nextId (s.base.tick + d) ((s.step ev).run (settle (s.step ev))) ∧
        ((s.step ev).run (settle (s.step ev))).Waiting s.base.nextId := by
      unfold settle
      split
      next hphase =>
        have hpass := waiting_pass hmine hw [] (by
          have h0 := hlate 0 (Nat.zero_le _)
          rwa [Nat.mul_zero, Nat.add_zero, ← hclock] at h0)
        have hm := hmine.step (.pass [])
        refine ⟨?_, ?_, hm, hpass⟩
        · rw [run, Machine.run_cons, Machine.run_nil, step, if_pos hphase]
        · rw [run, Machine.run_cons, Machine.run_nil, step, if_pos hphase]
          exact hclock
      next hphase => exact ⟨Bool.eq_false_of_not_eq_true hphase, hclock, hmine, hw⟩
    obtain ⟨hphase, hclock₁, hmine₁, hw₁⟩ := hsettled
    have hrounds : (s.step ev).run (settle (s.step ev) ++ rounds (d.toNat / 10 + 2)) =
        ((s.step ev).run (settle (s.step ev))).run (rounds (d.toNat / 10 + 2)) := Machine.run_append _ _ _
    refine hp.late _ (List.prefix_refl _) ?_ ?_ ?_
    · intro hmem
      obtain hmem | hmem := List.mem_append.mp hmem
      · unfold settle at hmem
        split at hmem <;> simp at hmem
      · exact cancel_rounds _ _ hmem
    · obtain ⟨-, hclock₂, hphase₂⟩ := rounds_waiting (n := d.toNat / 10) hphase hmine₁ hw₁ fun k hk => by
        rw [hclock₁]
        exact hlate k (by omega)
      rw [passesSince_append, rounds_add, passesSince_append, passesSince_rounds hphase₂ (by omega)]
      omega
    · rw [hrounds]
      refine (rounds_waiting hphase hmine₁ hw₁ fun k hk => ?_).1
      rw [hclock₁]
      exact hlate k hk
  next hwrap =>
    -- the expiry has wrapped, and the tick has not
    by_cases hphase : s.ticked = true
    · refine ⟨[.pass []], fun held hh => ?_, fun hp => ?_⟩
      · cases List.mem_singleton.mp hh
        exact List.not_mem_nil
      · have hearly : (s.base.clock + d.toNat) % 2 ^ 32 < (s.base.clock + 0) % 2 ^ 32 ∧ 0 < d.toNat :=
          early_of_wrap hd hwrap (Nat.mod_lt _ (by decide))
        have hlt : s.base.tick + d < (s.step ev).base.tick := by
          rw [TimerBase.tick, TimerBase.tick, hclock]
          exact (lt_tick _ _ d).mpr hearly.1
        have h := hp.early [] [] [] rfl (hdispatch _ hmine hw (hticked.trans hphase) hlt)
        rw [run, Machine.run_nil, hclock] at h
        omega
    · have hf := Bool.eq_false_of_not_eq_true hphase
      have hten : s.base.clock % 2 ^ 32 + 10 < 2 ^ 32 := by
        by_contra hle
        exact hin ⟨hf, Nat.le_of_not_lt hle⟩
      refine ⟨[.clock, .pass []], uncontended_rounds _ 1, fun hp => ?_⟩
      have hearly : (s.base.clock + d.toNat) % 2 ^ 32 < (s.base.clock + 10) % 2 ^ 32 ∧ 10 < d.toNat := early_of_wrap hd hwrap hten
      obtain ⟨hstep, -, -⟩ := step_round (u := s.step ev) (hticked.trans hf)
      have hw₁ : ((s.step ev).step .clock).Waiting s.base.nextId := by
        rw [hstep]
        exact hw
      have hlt : s.base.tick + d < ((s.step ev).step .clock).base.tick := by
        rw [hstep, TimerBase.tick, TimerBase.tick]
        dsimp only
        rw [hclock]
        exact (lt_tick _ _ d).mpr hearly.1
      have hphase₁ : ((s.step ev).step .clock).ticked = true := by rw [hstep]
      have h := hp.early [.clock] [] [] rfl (hdispatch _ (hmine.step .clock) hw₁ hphase₁ hlt)
      rw [run, Machine.run_cons, Machine.run_nil, hstep] at h
      dsimp only at h
      omega

end added

/-! ## Any run -/

theorem fresh_step {u : TickHost H A} (h : ∀ e ∈ u.base.timers, e.id < u.base.nextId) (ev : TickEvent H A) :
    ∀ e ∈ (u.step ev).base.timers, e.id < (u.step ev).base.nextId := by
  have hlink : ∀ (rc : Int) (d : U32) (hd : H) (a : Option A) (f : Bool), ∀ e ∈ (u.base.link rc d hd a f).timers,
      e.id < u.base.nextId + 1 := by
    intro rc d hd a f e he
    obtain he | rfl := TimerBase.mem_link.mp he
    · exact Nat.lt_succ_of_lt (h e he)
    · exact Nat.lt_succ_self _
  have hmap : ∀ f : TimerEntry H A → TimerEntry H A, (∀ e, (f e).id = e.id) → ∀ e ∈ u.base.timers.map f, e.id < u.base.nextId := by
    intro f hf e he
    obtain ⟨e, hmem, rfl⟩ := List.mem_map.mp he
    rw [hf]
    exact h e hmem
  cases ev with
  | oneshot d hd a => exact hlink 0 d hd a false
  | add d hd a f => exact hlink 1 d hd a f
  | release | cancel => exact hmap _ fun e => by split <;> rfl
  | clock =>
    rw [step]
    split <;> exact h
  | pass held =>
    rw [step]
    split
    · intro u' hu'
      obtain ⟨e, he, rfl, -⟩ := mem_pass hu'
      rw [(turn_spec u.base held e).1]
      exact h e he
    · exact h

theorem punctual_iff (clock : Nat) (pre : List (TickEvent H A)) {ev : TickEvent H A} {d : U32} (hev : ev.delay = some d)
    (hd : d.toNat < 2 ^ 31) :
    let s := run { base := { clock := clock } } pre
    (∀ es, Uncontended s.base.nextId es → Punctual s ev d es) ↔ AddedInTime s d := by
  intro s
  have hfresh : ∀ e ∈ s.base.timers, e.id < s.base.nextId :=
    Machine.invariant (I := fun u : TickHost H A => ∀ e ∈ u.base.timers, e.id < u.base.nextId) (fun _ ev h => fresh_step h ev) pre
      (fun _ he => absurd he List.not_mem_nil)
  refine ⟨fun h => ?_, fun h es hes => punctual_of_inTime hfresh hev hd h hes⟩
  by_contra hin
  obtain ⟨es, hes, hnot⟩ := not_punctual_of_not_inTime hfresh hev hd hin
  exact hnot (h es hes)

/-- A timer of 200 ms, added when the daemon starts. -/
theorem punctual_at_start : Punctual { base := { clock := 0 } } (.oneshot 200 () none : TickEvent Unit Unit) 200 (rounds 22) := by
  have hin : AddedInTime (run { base := { clock := 0 } } [] : TickHost Unit Unit) 200 := by
    unfold AddedInTime
    decide
  exact (punctual_iff 0 [] rfl (by decide)).mpr hin (rounds 22) (uncontended_rounds 0 22)

/-- The same timer, added 100 ms before the tick wraps, goes off in the next round. -/
theorem dispatched_early :
    ¬Punctual { base := { clock := 4294967196 } } (.oneshot 200 () none : TickEvent Unit Unit) 200 [.clock, .pass []] := by
  intro h
  have hearly := h.early [.clock] [] [] rfl ⟨rfl, ⟨_, List.mem_singleton.mpr rfl, rfl, by decide⟩⟩
  revert hearly
  decide

end TickHost

end LevelIp
