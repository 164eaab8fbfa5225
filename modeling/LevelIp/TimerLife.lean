/-
The life of a timer, from `timer_add` or `timer_oneshot` to `timer_free`. The
owner of a timer calls `timer_cancel` or `timer_release` on it, once; a pass of
`timers_tick` is a row of visits, one to each timer whose lock is free, and
calls of owners may come between two of them.

What a timer has gone through is counted beside the list, for the proofs.
-/
import LevelIp.Timers
import LevelIp.Lib.Keyed
import LevelIp.Lib.Machine

namespace LevelIp

namespace TimerBase

variable {H A : Type}

/-- The turn of timer `t` in `timers_tick`, whose lock is free. -/
def visit (b : TimerBase H A) (t : Nat) : TimerBase H A :=
  match Keyed.lookup TimerEntry.id b.timers t with
  | none => b
  | some e =>
    let u := b.turn [] e
    { b with
      timers := if gone [] u then Keyed.remove TimerEntry.id b.timers t else Keyed.update TimerEntry.id b.timers t (b.turn [])
      threads := if b.due [] e then b.threads ++ [(e.handler, e.arg)] else b.threads
      freed := if gone [] u && u.argFree then b.freed ++ u.arg.toList else b.freed }

theorem turn_id (b : TimerBase H A) (held : List Nat) (e : TimerEntry H A) : (b.turn held e).id = e.id := by
  unfold turn
  split <;> rfl

/-- A visit to a timer in the middle of the list. -/
theorem visit_split {b : TimerBase H A} {pre post : List (TimerEntry H A)} {e : TimerEntry H A} (hb : b.timers = pre ++ e :: post)
    (hn : (b.timers.map TimerEntry.id).Nodup) : b.visit e.id =
      { b with
        timers := pre ++ (if gone [] (b.turn [] e) then [] else [b.turn [] e]) ++ post
        threads := b.threads ++ (if b.due [] e then [(e.handler, e.arg)] else [])
        freed := b.freed ++ if gone [] (b.turn [] e) && (b.turn [] e).argFree then (b.turn [] e).arg.toList else [] } := by
  unfold visit
  rw [hb] at hn
  rw [hb, Keyed.lookup_split hn]
  dsimp only
  rw [Keyed.remove_split hn, Keyed.update_split hn]
  congr 1
  · split <;> simp
  · split <;> simp
  · split <;> simp

/-- `timers_tick` visits the timers on the list whose locks are free. -/
theorem timersTick_visits {b : TimerBase H A} (hd : (b.timers.map TimerEntry.id).Nodup) (held : List Nat) :
    b.timersTick held = ((b.timers.filter fun e => !held.contains e.id).map TimerEntry.id).foldl visit b := by
  have key : ∀ (post pre : List (TimerEntry H A)) (b : TimerBase H A), b.timers = pre ++ post →
      (b.timers.map TimerEntry.id).Nodup →
      ((post.filter fun e => !held.contains e.id).map TimerEntry.id).foldl visit b =
        { b with
          timers := pre ++ (post.map (b.turn held)).filter fun e => !gone held e
          threads := b.threads ++ (post.filter (b.due held)).map fun e => (e.handler, e.arg)
          freed := b.freed ++ ((post.map (b.turn held)).filter (gone held)).filterMap fun e =>
            if e.argFree then e.arg else none } := by
    intro post
    induction post with
    | nil =>
      intro pre b hb _
      obtain ⟨clock, timers, threads, freed, nextId⟩ := b
      cases hb
      simp
    | cons e post ih =>
      intro pre b hb hn
      cases hh : held.contains e.id with
      | true =>
        -- its lock is held: nothing happens to it
        have hdue : b.due held e = false := by unfold due; rw [hh]; rfl
        have hturn : b.turn held e = e := by unfold turn; rw [hdue]; rfl
        have hgone : gone held e = false := by unfold gone; rw [hh]; rfl
        have h := ih (pre ++ [e]) b (by rw [hb, List.append_assoc, List.singleton_append]) hn
        simp only [List.filter_cons, List.map_cons, hh, hdue, hturn, hgone, Bool.not_true, Bool.not_false, Bool.false_eq_true,
          if_false, if_true]
        rw [h, List.append_assoc, List.singleton_append]
      | false =>
        have hdue : b.due held e = b.due [] e := by unfold due; rw [hh]; rfl
        have hturn : b.turn held e = b.turn [] e := by unfold turn; rw [hdue]
        have hgone : gone held (b.turn [] e) = gone [] (b.turn [] e) := by
          unfold gone
          rw [turn_id, hh]
          rfl
        have hvisit := visit_split hb hn
        have hn' : ((b.visit e.id).timers.map TimerEntry.id).Nodup := by
          rw [hvisit]
          rw [hb] at hn
          refine hn.sublist ?_
          dsimp only
          split
          · rw [List.append_nil]
            exact ((List.sublist_cons_self e post).append_left pre).map _
          · rw [List.append_assoc, List.singleton_append, List.map_append, List.map_append, List.map_cons, List.map_cons, turn_id]
        have h := ih _ (b.visit e.id) (by rw [hvisit]) hn'
        have hturnV : (b.visit e.id).turn held = b.turn held := by rw [hvisit]; rfl
        have hdueV : (b.visit e.id).due held = b.due held := by rw [hvisit]; rfl
        rw [hturnV, hdueV, hvisit] at h
        simp only [List.filter_cons, List.map_cons, hh, Bool.not_false, if_true, List.foldl_cons]
        rw [hvisit, h, hdue, hturn, hgone]
        congr 1
        · cases gone [] (b.turn [] e) <;> simp
        · cases b.due [] e <;> simp
        · cases gone [] (b.turn [] e) <;> cases hf : (b.turn [] e).argFree <;> cases ha : (b.turn [] e).arg <;> simp [hf, ha]
  exact (key b.timers [] b rfl hd).symm

end TimerBase

/-! ## Lives -/

/-- What a timer was added with and has gone through: the owner's calls, how
many of them were `timer_cancel`, the threads created for its handler, its
`timer_free`s, and what `arg_free` was called with. -/
structure Life (A : Type) where
  owned : Bool
  arg : Option A
  argFree : Bool
  calls : Nat := 0
  cancels : Nat := 0
  dispatches : Nat := 0
  frees : Nat := 0
  handed : List A := []
deriving DecidableEq

namespace Life

variable {A : Type}

/-- The reference that `timer_add` gives the owner and its call takes back. -/
def refs (l : Life A) : Int := (if l.owned then 1 else 0) - (l.calls : Int)

/-- The timer has been cancelled, or its handler has been dispatched. -/
def ended (l : Life A) : Prop := 0 < l.cancels ∨ 0 < l.dispatches

/-- **What holds of a timer at all times**: its handler is dispatched and it is
freed at most once; it is freed when it is over and nobody refers to it; and
`arg_free` gets its argument, if it has one, exactly when it has been freed
without its handler dispatched. -/
structure Regular (l : Life A) : Prop where
  dispatched : l.dispatches ≤ 1
  freed : l.frees ≤ 1
  last : 0 < l.frees → l.ended ∧ l.refs = 0
  refs : 0 ≤ l.refs
  handed : l.handed = if l.frees = 1 ∧ l.dispatches = 0 ∧ l.argFree then l.arg.toList else []

end Life

/-- The timers with their lives; the life of timer `t` is at place `t`. -/
structure TimerWorld (H A : Type) where
  base : TimerBase H A := {}
  lives : List (Life A) := []
deriving DecidableEq

inductive TimerEvent (H A : Type) where
  | oneshot (expire : U32) (handler : H) (arg : Option A)
  /-- `timer_add_with_release`, and `timer_add` without `arg_free`. -/
  | add (expire : U32) (handler : H) (arg : Option A) (argFree : Bool)
  | cancel (t : Nat)
  | release (t : Nat)
  /-- `tick += 10` in `timers_start`. -/
  | clock
  /-- A pass of `timers_tick` comes to timer `t` and gets its lock. -/
  | visit (t : Nat)

namespace TimerWorld

variable {H A : Type}

/-- The life of a timer after the turn that makes `u` of its entry `e`. -/
def visited (b : TimerBase H A) (e : TimerEntry H A) (l : Life A) : Life A :=
  let u := b.turn [] e
  { l with
    dispatches := if b.due [] e then l.dispatches + 1 else l.dispatches
    frees := if TimerBase.gone [] u then l.frees + 1 else l.frees
    handed := if TimerBase.gone [] u && u.argFree then l.handed ++ u.arg.toList else l.handed }

def step (w : TimerWorld H A) : TimerEvent H A → TimerWorld H A
  | .oneshot expire handler arg =>
    { base := w.base.timerOneshot expire handler arg
      lives := w.lives ++ [{ owned := false, arg := arg, argFree := false }] }
  | .add expire handler arg argFree =>
    { base := w.base.timerAddWithRelease expire handler arg argFree
      lives := w.lives ++ [{ owned := true, arg := arg, argFree := argFree }] }
  | .cancel t =>
    { base := w.base.timerCancel (some t)
      lives := w.lives.modify t fun l => { l with calls := l.calls + 1, cancels := l.cancels + 1 } }
  | .release t =>
    { base := w.base.timerRelease (some t), lives := w.lives.modify t fun l => { l with calls := l.calls + 1 } }
  | .clock => { w with base := { w.base with clock := w.base.clock + 10 } }
  | .visit t =>
    match Keyed.lookup TimerEntry.id w.base.timers t with
    | none => w
    | some e => { base := w.base.visit t, lives := w.lives.modify t (visited w.base e) }

abbrev run (w : TimerWorld H A) (es : List (TimerEvent H A)) : TimerWorld H A := Machine.run step w es

/-- What a life counts is what the visit did. -/
theorem visited_recorded {b : TimerBase H A} {t : Nat} {e : TimerEntry H A} (he : Keyed.lookup TimerEntry.id b.timers t = some e)
    (l : Life A) : ∃ ths args, (b.visit t).threads = b.threads ++ ths ∧ (visited b e l).dispatches = l.dispatches + ths.length ∧
      (b.visit t).freed = b.freed ++ args ∧ (visited b e l).handed = l.handed ++ args := by
  refine ⟨if b.due [] e then [(e.handler, e.arg)] else [],
    if TimerBase.gone [] (b.turn [] e) && (b.turn [] e).argFree then (b.turn [] e).arg.toList else [], ?_⟩
  unfold TimerBase.visit visited
  rw [he]
  dsimp only
  refine ⟨?_, ?_, ?_, ?_⟩
  · split <;> simp
  · split <;> rfl
  · split <;> simp
  · split <;> simp

/-- A pass of `timers_tick` is a run of visits. -/
theorem run_visits (w : TimerWorld H A) (held : List Nat) (hd : (w.base.timers.map TimerEntry.id).Nodup) :
    (run w (((w.base.timers.filter fun e => !held.contains e.id).map TimerEntry.id).map .visit)).base =
      w.base.timersTick held := by
  rw [TimerBase.timersTick_visits hd]
  generalize (w.base.timers.filter fun e => !held.contains e.id).map TimerEntry.id = ts
  clear hd
  induction ts generalizing w with
  | nil => rfl
  | cons t ts ih =>
    have hbase : (w.step (.visit t)).base = w.base.visit t := by
      unfold TimerWorld.step TimerBase.visit
      dsimp only
      cases Keyed.lookup TimerEntry.id w.base.timers t <;> rfl
    rw [List.foldl_cons, ← hbase, ← ih]
    rfl

/-- An owner calls `timer_cancel` or `timer_release` on its timer, once. -/
def Proper (w : TimerWorld H A) (ev : TimerEvent H A) : Prop :=
  ∀ t, ev = .cancel t ∨ ev = .release t → ∃ l, w.lives[t]? = some l ∧ l.owned ∧ l.calls = 0

/-- **What a visit does**: it dispatches no handler after a `timer_cancel`, and
frees the timer if it is over then and nobody refers to it. -/
def Fair (w : TimerWorld H A) (ev : TimerEvent H A) : Prop :=
  ∀ t, ev = .visit t → ∀ l l', w.lives[t]? = some l → (w.step ev).lives[t]? = some l' →
    (0 < l.cancels → l'.dispatches = l.dispatches) ∧ (0 < l'.frees ↔ 0 < l.frees ∨ (l'.ended ∧ l.refs = 0))

/-- The life of a timer and its entry on the list, if it is still there. -/
def Fits (l : Life A) (o : Option (TimerEntry H A)) : Prop :=
  l.Regular ∧ (l.frees = 0 ↔ o.isSome) ∧
    ∀ e, o = some e → e.refcnt = l.refs ∧ (e.cancelled = true ↔ l.ended) ∧ e.argFree = l.argFree ∧
      e.arg = if l.dispatches = 0 then l.arg else none

/-- The invariant of a run. -/
structure Inv (w : TimerWorld H A) : Prop where
  count : w.base.nextId = w.lives.length
  ids : (w.base.timers.map TimerEntry.id).Nodup
  below : ∀ e ∈ w.base.timers, e.id < w.lives.length
  fits : ∀ (t : Nat) (l : Life A), w.lives[t]? = some l → Fits l (Keyed.lookup TimerEntry.id w.base.timers t)

namespace Fits

variable {l : Life A} {e : TimerEntry H A} {o : Option (TimerEntry H A)}

theorem fresh (owned : Bool) (arg : Option A) (argFree : Bool) (id : Nat) (expires : U32) (handler : H) :
    Fits { owned := owned, arg := arg, argFree := argFree }
      (some
        { id := id, refcnt := if owned then 1 else 0, expires := expires, handler := handler, arg := arg, argFree := argFree }) := by
  refine ⟨⟨by simp, by simp, by simp, ?_, by simp⟩, by simp, ?_⟩
  · unfold Life.refs
    split <;> simp
  · rintro e he
    cases he
    simp [Life.refs, Life.ended]

/-- The entry of a timer that its owner has yet to let go is on the list. -/
theorem held (h : Fits l o) (ho : l.owned) (hc : l.calls = 0) : l.frees = 0 := by
  by_contra hf
  have := (h.1.last (by omega)).2
  simp [Life.refs, ho, hc] at this

theorem call (h : Fits l o) (ho : l.owned) (hc : l.calls = 0) (cancels : Bool) :
    Fits { l with calls := l.calls + 1, cancels := if cancels then l.cancels + 1 else l.cancels }
      (o.map fun e => { e with refcnt := e.refcnt - 1, cancelled := e.cancelled || cancels }) := by
  have hf := h.held ho hc
  obtain ⟨hr, hs, he⟩ := h
  have hrefs : Life.refs { l with calls := l.calls + 1, cancels := if cancels then l.cancels + 1 else l.cancels } = 0 := by
    simp [Life.refs, ho, hc]
  refine ⟨⟨hr.dispatched, hr.freed, ?_, hrefs ▸ le_refl _, ?_⟩, ?_, ?_⟩
  · intro hpos
    exact absurd hf (Nat.pos_iff_ne_zero.mp hpos)
  · simp [hf, hr.handed]
  · simp [hs]
  · intro u hu
    obtain ⟨e, rfl, rfl⟩ := Option.map_eq_some_iff.mp hu
    obtain ⟨h1, h2, h3, h4⟩ := he e rfl
    refine ⟨?_, ?_, h3, h4⟩
    · rw [hrefs, h1]
      simp [Life.refs, ho, hc]
    · unfold Life.ended at h2 ⊢
      cases cancels <;> simp [h2]

/-- A visit frees the timer, or leaves it on the list as its turn made it. -/
theorem visit (h : Fits l (some e)) (b : TimerBase H A) :
    Fits (visited b e l) (if TimerBase.gone [] (b.turn [] e) then none else some (b.turn [] e)) ∧
      (0 < l.cancels → (visited b e l).dispatches = l.dispatches) ∧
      (0 < (visited b e l).frees ↔ 0 < l.frees ∨ ((visited b e l).ended ∧ l.refs = 0)) := by
  obtain ⟨hr, hs, he⟩ := h
  obtain ⟨h1, h2, h3, h4⟩ := he e rfl
  have hf : l.frees = 0 := by simpa using hs
  have hdue : b.due [] e = true → l.dispatches = 0 ∧ l.cancels = 0 := by
    intro hd
    have hc : e.cancelled = false := by
      simp only [TimerBase.due, Bool.and_eq_true, Bool.not_eq_true'] at hd
      exact hd.1.2
    have hn : ¬ l.ended := fun he => Bool.noConfusion (hc.symm.trans (h2.mpr he))
    unfold Life.ended at hn
    omega
  -- the turn keeps the reference count, and marks a dispatched timer
  have hu : (b.turn [] e).refcnt = l.refs ∧ (b.turn [] e).argFree = l.argFree ∧
      ((b.turn [] e).cancelled = true ↔ 0 < l.cancels ∨ 0 < (visited b e l).dispatches) ∧
      (b.turn [] e).arg = if (visited b e l).dispatches = 0 then l.arg else none := by
    cases hd : b.due [] e with
    | false =>
      have hturn : b.turn [] e = e := by unfold TimerBase.turn; rw [hd]; rfl
      have hdis : (visited b e l).dispatches = l.dispatches := by unfold visited; rw [hd]; rfl
      rw [hturn, hdis]
      exact ⟨h1, h3, h2, h4⟩
    | true =>
      have hturn : b.turn [] e = { e with arg := none, cancelled := true } := by unfold TimerBase.turn; rw [hd]; rfl
      have hdis : (visited b e l).dispatches = l.dispatches + 1 := by unfold visited; rw [hd]; rfl
      rw [hturn, hdis]
      exact ⟨h1, h3, iff_of_true rfl (.inr (Nat.succ_pos _)), (if_neg (Nat.succ_ne_zero _)).symm⟩
  obtain ⟨hu1, hu2, hu3, hu4⟩ := hu
  have hone : (visited b e l).dispatches ≤ 1 := by
    unfold visited
    dsimp only
    split
    · next hd => rw [(hdue hd).1]
    · exact hr.dispatched
  have hgone : TimerBase.gone [] (b.turn [] e) = true ↔ (visited b e l).ended ∧ l.refs = 0 := by
    unfold TimerBase.gone Life.ended
    rw [hu1]
    simp only [List.contains_nil, Bool.not_false, Bool.true_and, Bool.and_eq_true, beq_iff_eq, hu3]
    rfl
  have hfrees : (visited b e l).frees = if TimerBase.gone [] (b.turn [] e) then 1 else 0 := by
    unfold visited
    dsimp only
    rw [hf]
  have hhanded : (visited b e l).handed =
      if TimerBase.gone [] (b.turn [] e) && l.argFree then (b.turn [] e).arg.toList else [] := by
    have hnone : l.handed = [] := by rw [hr.handed, if_neg (by omega)]
    unfold visited
    dsimp only
    rw [hnone, hu2, List.nil_append]
  refine ⟨⟨⟨hone, ?_, ?_, hr.refs, ?_⟩, ?_, ?_⟩, ?_, ?_⟩
  · rw [hfrees]
    split <;> omega
  · intro hpos
    by_contra hn
    rw [hfrees, if_neg (fun hg => hn (hgone.mp hg))] at hpos
    exact absurd hpos (lt_irrefl 0)
  · rw [hhanded, hfrees, hu4]
    cases TimerBase.gone [] (b.turn [] e) with
    | false => simp
    | true =>
      show (if l.argFree = true then _ else _) = if 1 = 1 ∧ _ ∧ l.argFree = true then l.arg.toList else []
      by_cases hd : (visited b e l).dispatches = 0
      · simp [hd]
      · simp [hd]
  · rw [hfrees]
    cases TimerBase.gone [] (b.turn [] e) <;> simp
  · intro u hu
    cases hg : TimerBase.gone [] (b.turn [] e) with
    | false =>
      rw [hg] at hu
      cases hu
      exact ⟨hu1, hu3, hu2, hu4⟩
    | true =>
      rw [hg] at hu
      cases hu
  · intro hc
    unfold visited
    dsimp only
    rw [if_neg]
    intro hd
    have := (hdue hd).2
    omega
  · rw [hfrees, hf, ← hgone]
    cases TimerBase.gone [] (b.turn [] e) <;> simp

end Fits

namespace Inv

variable {w : TimerWorld H A}

theorem init : Inv ({} : TimerWorld H A) := ⟨rfl, List.nodup_nil, by simp, by simp⟩

theorem add (h : Inv w) (owned : Bool) (expire : U32) (handler : H) (arg : Option A) (argFree : Bool) :
    Inv { base := w.base.link (if owned then 1 else 0) expire handler arg argFree
          lives := w.lives ++ [{ owned := owned, arg := arg, argFree := argFree }] } := by
  have hnew : Keyed.lookup TimerEntry.id w.base.timers w.base.nextId = none :=
    Keyed.lookup_eq_none.mpr fun e he => by
      have := h.below e he
      rw [h.count]
      omega
  refine ⟨?_, Keyed.nodup_append h.ids hnew, ?_, ?_⟩
  · show w.base.nextId + 1 = _
    rw [List.length_append, h.count, List.length_singleton]
  · intro e he
    rw [List.length_append, List.length_singleton]
    rcases TimerBase.mem_link.mp he with he | rfl
    · have := h.below e he
      omega
    · have := h.count
      dsimp only
      omega
  · intro t l hl
    show Fits l (Keyed.lookup TimerEntry.id (w.base.timers ++ [_]) t)
    rw [Keyed.lookup_append hnew]
    dsimp only
    by_cases ht : t = w.base.nextId
    · subst ht
      rw [if_pos rfl]
      rw [h.count, List.getElem?_append_right (le_refl _), Nat.sub_self, List.getElem?_cons_zero] at hl
      cases hl
      exact Fits.fresh owned arg argFree _ _ handler
    · rw [if_neg ht]
      have hlt : t < w.lives.length := by
        have := (List.getElem?_eq_some_iff.mp hl).1
        rw [List.length_append, List.length_singleton] at this
        have := h.count
        omega
      exact h.fits t l (by rwa [List.getElem?_append_left hlt] at hl)

/-- `timer_cancel` and `timer_release` touch one entry and one life. -/
theorem call (h : Inv w) {t : Nat} (hp : ∃ l, w.lives[t]? = some l ∧ l.owned ∧ l.calls = 0) (cancels : Bool) :
    Inv { base :=
            { w.base with
              timers := w.base.timers.map fun e =>
                if t = e.id then { e with refcnt := e.refcnt - 1, cancelled := e.cancelled || cancels } else e }
          lives := w.lives.modify t fun l =>
            { l with calls := l.calls + 1, cancels := if cancels then l.cancels + 1 else l.cancels } } := by
  have hid : ∀ e : TimerEntry H A, TimerEntry.id
      (if t = e.id then { e with refcnt := e.refcnt - 1, cancelled := e.cancelled || cancels } else e) = e.id := by
    intro e
    split <;> rfl
  refine ⟨?_, ?_, ?_, ?_⟩
  · rw [List.length_modify]
    exact h.count
  · show (List.map TimerEntry.id (List.map _ _)).Nodup
    rw [List.map_map, show TimerEntry.id ∘ _ = TimerEntry.id from funext hid]
    exact h.ids
  · intro e he
    rw [List.length_modify]
    obtain ⟨u, hu, rfl⟩ := List.mem_map.mp he
    rw [hid]
    exact h.below u hu
  · intro j l hl
    show Fits l (Keyed.lookup TimerEntry.id (List.map _ _) j)
    rw [Keyed.lookup_map hid]
    by_cases hj : t = j
    · subst hj
      obtain ⟨l₀, hl₀, ho, hc⟩ := hp
      rw [List.getElem?_modify_eq, hl₀] at hl
      cases hl
      have hfit := (h.fits t l₀ hl₀).call ho hc cancels
      convert hfit using 1
      cases hk : Keyed.lookup TimerEntry.id w.base.timers t with
      | none => rfl
      | some e =>
        rw [Option.map_some, Option.map_some, if_pos (Keyed.lookup_key hk).symm]
    · have hl' : w.lives[j]? = some l := by rwa [List.getElem?_modify_ne _ _ hj] at hl
      have hsame : (Keyed.lookup TimerEntry.id w.base.timers j).map
          (fun e => if t = e.id then { e with refcnt := e.refcnt - 1, cancelled := e.cancelled || cancels } else e) =
          Keyed.lookup TimerEntry.id w.base.timers j := by
        cases hk : Keyed.lookup TimerEntry.id w.base.timers j with
        | none => rfl
        | some e =>
          rw [Option.map_some, if_neg]
          rw [Keyed.lookup_key hk]
          exact hj
      rw [hsame]
      exact h.fits j l hl'

theorem visited (h : Inv w) {t : Nat} {e : TimerEntry H A} (he : Keyed.lookup TimerEntry.id w.base.timers t = some e) :
    Inv { base := w.base.visit t, lives := w.lives.modify t (TimerWorld.visited w.base e) } := by
  have hid : ∀ x, TimerEntry.id (w.base.turn [] x) = x.id := TimerBase.turn_id _ _
  have htimers : (w.base.visit t).timers = if TimerBase.gone [] (w.base.turn [] e) then
      Keyed.remove TimerEntry.id w.base.timers t else Keyed.update TimerEntry.id w.base.timers t (w.base.turn []) := by
    unfold TimerBase.visit
    rw [he]
  have hnext : (w.base.visit t).nextId = w.base.nextId := by
    unfold TimerBase.visit
    rw [he]
  refine ⟨?_, ?_, ?_, ?_⟩
  · rw [List.length_modify, hnext]
    exact h.count
  · rw [htimers]
    split
    · exact Keyed.nodup_remove h.ids t
    · rw [Keyed.map_update hid]
      exact h.ids
  · intro x hx
    rw [List.length_modify]
    rw [htimers] at hx
    split at hx
    · exact h.below x (List.mem_filter.mp hx).1
    · rcases Keyed.mem_update hx with hx | ⟨y, hy, rfl⟩
      · exact h.below x hx
      · rw [hid]
        exact h.below y (Keyed.mem_of_lookup hy)
  · intro j l hl
    rw [htimers]
    by_cases hj : t = j
    · subst hj
      rw [List.getElem?_modify_eq] at hl
      obtain ⟨l₀, hl₀, rfl⟩ := Option.map_eq_some_iff.mp hl
      have hfit := ((he ▸ h.fits t l₀ hl₀ : Fits l₀ (some e)).visit w.base).1
      convert hfit using 1
      split
      · rw [Keyed.lookup_remove, if_pos rfl]
      · rw [Keyed.lookup_update hid, if_pos rfl, he, Option.map_some]
    · have hfit := h.fits j l (by rwa [List.getElem?_modify_ne _ _ hj] at hl)
      convert hfit using 1
      split
      · rw [Keyed.lookup_remove, if_neg (Ne.symm hj)]
      · rw [Keyed.lookup_update hid, if_neg (Ne.symm hj)]

theorem step {ev : TimerEvent H A} (h : Inv w) (hp : Proper w ev) : Inv (w.step ev) ∧ Fair w ev := by
  cases ev with
  | oneshot expire handler arg => exact ⟨h.add false expire handler arg false, by intro _ h; cases h⟩
  | add expire handler arg argFree => exact ⟨h.add true expire handler arg argFree, by intro _ h; cases h⟩
  | cancel t =>
    refine ⟨?_, by intro _ h; cases h⟩
    have hc := h.call (hp t (.inl rfl)) true
    simpa [TimerWorld.step, TimerBase.timerCancel] using hc
  | release t =>
    refine ⟨?_, by intro _ h; cases h⟩
    have hc := h.call (hp t (.inr rfl)) false
    simpa [TimerWorld.step, TimerBase.timerRelease] using hc
  | clock => exact ⟨⟨h.count, h.ids, h.below, h.fits⟩, by intro _ h; cases h⟩
  | visit t =>
    cases hk : Keyed.lookup TimerEntry.id w.base.timers t with
    | none =>
      have hstep : w.step (.visit t) = w := by
        unfold TimerWorld.step
        dsimp only
        rw [hk]
      rw [hstep]
      refine ⟨h, ?_⟩
      intro j hj l l' hl hl'
      cases hj
      rw [hstep, hl] at hl'
      cases hl'
      obtain ⟨hr, hs, -⟩ := h.fits t l hl
      -- a timer that is no longer on the list has been freed
      have hpos : 0 < l.frees := by
        rw [hk] at hs
        exact Nat.pos_of_ne_zero fun h0 => absurd (hs.mp h0) Bool.false_ne_true
      exact ⟨fun _ => rfl, iff_of_true hpos (.inl hpos)⟩
    | some e =>
      have hstep : w.step (.visit t) = { base := w.base.visit t, lives := w.lives.modify t (TimerWorld.visited w.base e) } := by
        unfold TimerWorld.step
        dsimp only
        rw [hk]
      rw [hstep]
      refine ⟨h.visited hk, ?_⟩
      intro j hj l l' hl hl'
      cases hj
      rw [hstep] at hl'
      dsimp only at hl'
      rw [List.getElem?_modify_eq, hl] at hl'
      cases hl'
      exact ((hk ▸ h.fits t l hl : Fits l (some e)).visit w.base).2

/-- An entry on the list counts the references that there are. -/
theorem refcnt_nonneg (h : Inv w) {e : TimerEntry H A} (he : e ∈ w.base.timers) : 0 ≤ e.refcnt := by
  have hlt := h.below e he
  have hfit := h.fits e.id _ (List.getElem?_eq_getElem hlt)
  rw [Keyed.lookup_of_mem h.ids he] at hfit
  rw [(hfit.2.2 e rfl).1]
  exact hfit.1.refs

end Inv

/-- The states in which every timer has lived regularly. -/
def AllRegular (w : TimerWorld H A) : Prop := (∀ l ∈ w.lives, l.Regular) ∧ ∀ e ∈ w.base.timers, 0 ≤ e.refcnt

theorem Inv.allRegular {w : TimerWorld H A} (h : Inv w) : w.AllRegular := by
  refine ⟨fun l hl => ?_, fun e he => h.refcnt_nonneg he⟩
  obtain ⟨t, ht⟩ := List.getElem?_of_mem hl
  exact (h.fits t l ht).1

/-- **The life cycle of timers.** Where every owner calls `timer_cancel` or
`timer_release` once on its own timer, whatever the order of additions, calls,
clock steps and visits of `timers_tick`: no timer is dispatched twice, nor
after it was cancelled; it is freed once, at the first visit at which it has
been cancelled or dispatched and nobody refers to it; no reference count
becomes negative; and `arg_free` gets the argument, if there is one, exactly
when the timer is freed without having been dispatched. -/
theorem lives_regular (es : List (TimerEvent H A)) (hp : Machine.Meets step Proper {} es) :
    Machine.Meets step Fair {} es ∧ ∀ n, (run {} (es.take n)).AllRegular := by
  constructor
  · exact hp.derives (I := Inv) (fun w ev hok hi => hi.step hok) Inv.init
  · intro n
    have hp' : Machine.Meets step Proper {} (es.take n) := by
      rw [← List.take_append_drop n es] at hp
      exact (Machine.Meets.append.mp hp).1
    exact (hp'.invariant (I := Inv) (fun w ev hok hi => (hi.step hok).1) Inv.init).allRegular

/-- A timer that is cancelled and freed. -/
def cancelledTimer (arg : Option Nat) : List (TimerEvent Unit Nat) := [.add 100 () arg true, .cancel 0, .clock, .visit 0]

theorem cancelledTimer_proper (arg : Option Nat) : Machine.Meets step Proper {} (cancelledTimer arg) := by
  refine ⟨nofun, ?_, nofun, nofun, trivial⟩
  rintro t (ht | ht)
  · cases ht
    exact ⟨_, rfl, rfl, rfl⟩
  · cases ht

theorem lives_regular_cancelled : Machine.Meets step Fair {} (cancelledTimer (some 7)) ∧
    (run {} (cancelledTimer (some 7))).lives.map Life.handed = [[7]] := by
  exact ⟨(lives_regular _ (cancelledTimer_proper _)).1, by decide⟩

/-- `timer_free` does not call `arg_free` with NULL. -/
theorem null_not_handed : ¬ ∀ es : List (TimerEvent Unit Nat), Machine.Meets step Proper {} es →
    ∀ l ∈ (run {} es).lives, l.frees = 1 → l.dispatches = 0 → l.argFree → l.handed ≠ [] := by
  intro h
  exact h _ (cancelledTimer_proper none) { owned := true, arg := none, argFree := true, calls := 1, cancels := 1, frees := 1 }
    (by decide) rfl rfl rfl rfl

end TimerWorld

end LevelIp
