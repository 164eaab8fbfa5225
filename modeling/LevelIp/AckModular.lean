/-
The ACK part of `tcp_input_state` on the circle of sequence numbers. Told in
differences, it would not see where on the circle the connection is; told in
unsigned comparisons with 0 as a mark, it does, and this is exactly when.
-/
import LevelIp.Congestion
import LevelIp.Opening
import LevelIp.Lib.Layout
import LevelIp.Lib.Serial

namespace LevelIp

open Layout

/-! ## Moving the sequence numbers -/

/-- All numbers of a queued skb moved by `n`. -/
def Skb.shift (n : U32) (k : Skb) : Skb := { k with seq := k.seq + n, endSeq := k.endSeq + n }

/-- `iss`, `snd_una`, `snd_nxt` and the queue moved by `n`. -/
def SndSide.shift (d : SndSide) (n : U32) : SndSide :=
  { d with iss := d.iss + n, una := d.una + n, nxt := d.nxt + n, queue := d.queue.map (Skb.shift n) }

def Core.shift (c : Core) (n : U32) : Core := { c with snd := c.snd.shift n }

def TcpSock.shift (s : TcpSock) (n : U32) : TcpSock :=
  { s with
    tcb := { s.tcb with iss := s.tcb.iss + n, sndUna := s.tcb.sndUna + n, sndNxt := s.tcb.sndNxt + n }
    writeQueue := s.writeQueue.map (Skb.shift n) }

/-- The header of a segment that acknowledges `n` more. -/
def Tcphdr.shiftAck (th : Tcphdr) (n : U32) : Tcphdr := { th with ackSeq := th.ackSeq + n }

theorem shift_core (s : TcpSock) (n : U32) : (s.shift n).core = s.core.shift n := by
  simp only [TcpSock.core, TcpSock.snd, TcpSock.shift, Core.shift, SndSide.shift, List.map_map]
  rfl

theorem tcpIsDupack_shift (s : TcpSock) (th : Tcphdr) (skb : Skb) (n : U32) :
    tcpIsDupack (s.shift n) (th.shiftAck n) skb = tcpIsDupack s th skb := by
  have hu : (th.ackSeq + n = s.tcb.sndUna + n) = (th.ackSeq = s.tcb.sndUna) := propext (add_left_inj n)
  simp only [tcpIsDupack, TcpSock.shift, Tcphdr.shiftAck, hu]
  rfl

/-! ## The ACK part on the circle -/

/-- The ACK number is in `(snd_una, snd_nxt]` modulo 2^32. -/
def SndSide.inWindow (d : SndSide) (a : U32) : Bool := Serial.within d.una d.nxt a

/-- The skb ends at or before the ACK number, modulo 2^32. -/
def Skb.ackedBy (a : U32) (k : Skb) : Bool := Serial.le k.endSeq a

/-- FlightSize once the skbs `gone` are acknowledged. -/
def flightAfter (gone : List Skb) (fl : U32) : U32 :=
  gone.foldl (fun fl k => if fl ≥ k.dlen then fl - k.dlen else 0) fl

/-- Exactly the skbs the ACK covers are removed. -/
def SndSide.cleanMod (d : SndSide) (a : U32) : SndSide :=
  { d with
    queue := d.queue.filter fun k => !k.ackedBy a
    inflight := flightAfter (d.queue.filter (Skb.ackedBy a)) d.inflight }

/-- What the ACK part should leave, and whether the segment goes on from it.
An ACK in the window is taken; one of `snd_una` itself changes nothing and goes
on unless it counts as a duplicate; any other is dropped. A SYN_RECEIVED socket
without a parent dies on the NULL pointer wherever its numbers are. -/
def Core.ackMod (c : Core) (dup : Bool) (a : U32) : Bool × Core :=
  if c.snd.inWindow a then
    if c.state = .synReceived ∧ c.ptsk = none then (false, { c with state := .established, fault := true })
    else (true, { c with
      state := if c.state = .synReceived then .established else c.state
      snd := { c.snd with una := a }.cleanMod a })
  else (c.state ≠ .synReceived && a = c.snd.una && !dup, c)

def Ctl.goesOn : Ctl → Bool
  | .ret _ => false
  | .next _ => true

/-- What the ACK part of `tcp_input_state` leaves, and whether the segment goes on. -/
def ackPart (s : TcpSock) (th : Tcphdr) (skb : Skb) : Bool × Core :=
  ((ackField s th skb).goesOn, (ackField s th skb).sock.core)

/-- The ACK part and, for an ACK in the window, `tcp_clean_rto_queue` work
modulo 2^32 here. -/
def AckRight (s : TcpSock) (th : Tcphdr) (skb : Skb) : Prop :=
  ackPart s th skb = s.core.ackMod (tcpIsDupack s th skb) th.ackSeq ∧
  (s.core.snd.inWindow th.ackSeq →
    (tcpCleanRtoQueue s th.ackSeq).core = { s.core with snd := s.core.snd.cleanMod th.ackSeq })

/-- They work so here and `n` numbers on, and moving the numbers has no other effect. -/
def AckShifts (s : TcpSock) (th : Tcphdr) (skb : Skb) (n : U32) : Prop :=
  AckRight s th skb ∧ AckRight (s.shift n) (th.shiftAck n) skb ∧
  ackPart (s.shift n) (th.shiftAck n) skb = ((ackPart s th skb).1, (ackPart s th skb).2.shift n) ∧
  (s.core.snd.inWindow th.ackSeq →
    (tcpCleanRtoQueue (s.shift n) (th.ackSeq + n)).core = (tcpCleanRtoQueue s th.ackSeq).core.shift n)

/-- Counted from `b`, less than 2^31 numbers lie up to `snd_nxt`; the queue is in
order there, and each of its skbs has taken a number. -/
structure SndSide.Spans (d : SndSide) (b : U32) : Prop where
  laid : Laid (fun k => (k.seq - b).toNat) (fun k => (k.endSeq - b).toNat) 0 (d.nxt - b).toNat d.queue
  una : (d.una - b).toNat ≤ (d.nxt - b).toNat
  short : (d.nxt - b).toNat < 2 ^ 31
  sent : ∀ k ∈ d.queue, k.seq ≠ d.nxt

/-- `tcp_send_next` after a duplicate ACK reaches no skb that it takes for
unsent, or has no room for the first one. -/
def DupackIdle (s : TcpSock) : Prop :=
  ∀ k, s.writeQueue.find? (fun k => k.seq = 0) = some k → s.inflight + k.dlen > dupackLimit s

/-- Nothing the ACK part compares straddles 2^32 and nothing it may take is
numbered 0. -/
def AckStraight (s : TcpSock) (th : Tcphdr) (skb : Skb) : Prop :=
  (s.core.snd.inWindow th.ackSeq → s.tcb.sndUna ≤ s.tcb.sndNxt ∧
    ∀ k ∈ s.core.snd.queue, k.ackedBy th.ackSeq → k.seq ≠ 0 ∧ k.endSeq ≤ th.ackSeq) ∧
  (th.ackSeq = s.tcb.sndUna → s.state ≠ .synReceived →
    if tcpIsDupack s th skb then DupackIdle s else s.tcb.sndUna ≤ s.tcb.sndNxt)

/-! ## The shift law of the definitions -/

theorem Skb.shift_dlen (n : U32) (k : Skb) : (k.shift n).dlen = k.dlen := rfl

theorem Skb.shift_ackedBy (n a : U32) (k : Skb) : (k.shift n).ackedBy (a + n) = k.ackedBy a := Serial.le_add _ _ _

theorem flightAfter_shift (n : U32) (gone : List Skb) (fl : U32) :
    flightAfter (gone.map (Skb.shift n)) fl = flightAfter gone fl := by
  simp only [flightAfter, List.foldl_map, Skb.shift_dlen]
  rfl

theorem cleanMod_shift (d : SndSide) (a n : U32) : (d.shift n).cleanMod (a + n) = (d.cleanMod a).shift n := by
  simp only [SndSide.cleanMod, SndSide.shift, List.filter_map, Function.comp_def, Skb.shift_ackedBy, flightAfter_shift]

theorem inWindow_shift (d : SndSide) (a n : U32) : (d.shift n).inWindow (a + n) = d.inWindow a :=
  Serial.within_add _ _ _ _

theorem ackMod_shift (c : Core) (dup : Bool) (a n : U32) :
    (c.shift n).ackMod dup (a + n) = ((c.ackMod dup a).1, (c.ackMod dup a).2.shift n) := by
  have hw : (c.shift n).snd.inWindow (a + n) = c.snd.inWindow a := inWindow_shift c.snd a n
  have hc : { c.snd.shift n with una := a + n }.cleanMod (a + n) = ({ c.snd with una := a }.cleanMod a).shift n :=
    cleanMod_shift { c.snd with una := a } a n
  have hu : (a + n = (c.shift n).snd.una) = (a = c.snd.una) := propext (add_left_inj n)
  by_cases hin : c.snd.inWindow a
  · by_cases hp : c.state = .synReceived ∧ c.ptsk = none
    · have hp' : (c.shift n).state = .synReceived ∧ (c.shift n).ptsk = none := hp
      rw [Core.ackMod, Core.ackMod, hw, if_pos hin, if_pos hin, if_pos hp, if_pos hp']
      rfl
    · have hp' : ¬((c.shift n).state = .synReceived ∧ (c.shift n).ptsk = none) := hp
      rw [Core.ackMod, Core.ackMod, hw, if_pos hin, if_pos hin, if_neg hp, if_neg hp']
      exact Prod.ext rfl (congrArg (Core.mk _ _ _ _ _ _ _ _) hc)
  · rw [Core.ackMod, Core.ackMod, hw, if_neg hin, if_neg hin]
    simp only [hu]
    rfl

theorem SndSide.Spans.shift {d : SndSide} {b : U32} (h : d.Spans b) (n : U32) : (d.shift n).Spans (b + n) := by
  have hl : ∀ {lo hi : Nat} {q : List Skb},
      Laid (fun k => (k.seq - b).toNat) (fun k => (k.endSeq - b).toNat) lo hi q →
      Laid (fun k => (k.seq - (b + n)).toNat) (fun k => (k.endSeq - (b + n)).toNat) lo hi (q.map (Skb.shift n)) := by
    intro lo hi q hq
    induction q generalizing lo with
    | nil => exact hq
    | cons k q ih =>
      simp only [List.map_cons, Laid, Skb.shift, add_sub_add_right_eq_sub]
      exact ⟨hq.1, hq.2.1, ih hq.2.2⟩
  refine ⟨?_, ?_, ?_, fun k hk => ?_⟩
  · simp only [SndSide.shift, add_sub_add_right_eq_sub]
    exact hl h.laid
  · simp only [SndSide.shift, add_sub_add_right_eq_sub]
    exact h.una
  · simp only [SndSide.shift, add_sub_add_right_eq_sub]
    exact h.short
  · obtain ⟨k₀, hk₀, rfl⟩ := List.mem_map.mp hk
    simpa [Skb.shift, SndSide.shift] using h.sent k₀ hk₀

/-! ## Cleaning the queue -/

theorem cleanFlight_eq (a : U32) (q : List Skb) (fl : U32) :
    cleanFlight a q fl = flightAfter (q.takeWhile (Skb.covered a)) fl := by
  induction q generalizing fl with
  | nil => rfl
  | cons k q ih =>
    rw [cleanFlight, List.takeWhile_cons]
    split
    · rw [ih]
      rfl
    · rfl

/-- Where the skbs one test takes come first, taking from the head is filtering. -/
theorem takeWhile_eq_filter {α : Type} {p q : α → Bool} {l : List α} (hpq : ∀ x ∈ l, p x = q x)
    (hs : l.Pairwise fun x y => q x = false → q y = false) :
    l.dropWhile p = l.filter (fun x => !q x) ∧ l.takeWhile p = l.filter q := by
  induction l with
  | nil => exact ⟨rfl, rfl⟩
  | cons x l ih =>
    obtain ⟨hx, hl⟩ := List.pairwise_cons.mp hs
    obtain ⟨h1, h2⟩ := ih (fun y hy => hpq y (List.mem_cons_of_mem _ hy)) hl
    rw [List.dropWhile_cons, List.takeWhile_cons, hpq x List.mem_cons_self]
    cases hq : q x with
    | true => simp [hq, h1, h2]
    | false =>
      have hall := hx
      have hn : ∀ y ∈ l, q y = false := fun y hy => hall y hy hq
      have hf : l.filter q = [] := List.filter_eq_nil_iff.mpr fun y hy => by simp [hn y hy]
      have ht : l.filter (fun y => !q y) = l := List.filter_eq_self.mpr fun y hy => by simp [hn y hy]
      simp [hq, hf, ht]

section
variable {d : SndSide} {b a : U32} (hb : d.Spans b)
include hb

/-- The skbs an ACK covers come first in the queue. -/
theorem SndSide.Spans.acked_first (hw : d.inWindow a) :
    d.queue.Pairwise fun k k' => k.ackedBy a = false → k'.ackedBy a = false := by
  obtain ⟨-, ha⟩ := Serial.offset_of_within hb.una hw
  have hoff : ∀ k ∈ d.queue, k.ackedBy a = true ↔ (k.endSeq - b).toNat ≤ (a - b).toNat := fun k hk => by
    have hk := (hb.laid.mem hk).2.2
    exact Serial.le_iff_offset (Nat.lt_of_le_of_lt hk hb.short) (Nat.lt_of_le_of_lt ha hb.short)
  refine hb.laid.pairwise.imp_of_mem fun {k k'} hk hk' hle h => ?_
  have h2 := (hb.laid.mem hk').2.1
  rw [← Bool.not_eq_true, hoff _ hk] at h
  rw [← Bool.not_eq_true, hoff _ hk']
  omega

/-- What `tcp_clean_rto_queue` takes is covered, where `snd_nxt` has not wrapped. -/
theorem SndSide.Spans.covered_acked (hw : d.inWindow a) (hle : d.una ≤ d.nxt) {k : Skb} (hk : k ∈ d.queue)
    (h : k.covered a) : k.ackedBy a := by
  obtain ⟨-, ha⟩ := Serial.offset_of_within hb.una hw
  have hw : (d.una < a && a ≤ d.nxt : Bool) = true := (Serial.within_eq hle a).symm.trans hw
  rw [Bool.and_eq_true, decide_eq_true_eq, decide_eq_true_eq] at hw
  exact Serial.le_of_ule (hb.laid.mem hk).2.2 ha hb.short hw.2 (covered_iff.mp h).2

/-- **`tcp_clean_rto_queue`** removes exactly what the ACK covers if and only if
no such skb is numbered 0 or ends past it as a plain number. -/
theorem SndSide.Spans.clean_iff (hw : d.inWindow a) (hle : d.una ≤ d.nxt) :
    d.clean a = d.cleanMod a ↔ ∀ k ∈ d.queue, k.ackedBy a → k.seq ≠ 0 ∧ k.endSeq ≤ a := by
  constructor
  · intro h k hk hka
    have hq : d.queue.dropWhile (Skb.covered a) = d.queue.filter fun k => !k.ackedBy a := congrArg SndSide.queue h
    have hmem : k ∈ d.queue.takeWhile (Skb.covered a) ++ d.queue.dropWhile (Skb.covered a) := by
      rwa [List.takeWhile_append_dropWhile]
    rcases List.mem_append.mp hmem with hk | hk
    · obtain ⟨h0, he⟩ := covered_iff.mp (List.mem_takeWhile_imp hk)
      exact ⟨(BitVec.ne_of_lt h0).symm, he⟩
    · rw [hq, List.mem_filter, hka] at hk
      cases hk.2
  · intro h
    have heq : ∀ k ∈ d.queue, k.covered a = k.ackedBy a := by
      intro k hk
      rw [Bool.eq_iff_iff]
      refine ⟨hb.covered_acked hw hle hk, fun hka => ?_⟩
      obtain ⟨h0, he⟩ := h k hk hka
      exact covered_iff.mpr ⟨by bv_omega, he⟩
    obtain ⟨hd, ht⟩ := takeWhile_eq_filter heq (hb.acked_first hw)
    rw [SndSide.clean, SndSide.cleanMod, cleanQueue, cleanFlight_eq, hd, ht]

end

/-! ## The ACK part -/

theorem ackSynchronized_dup {s : TcpSock} {th : Tcphdr} {skb : Skb} (hd : tcpIsDupack s th skb) :
    (ackSynchronized s th skb).goesOn = false ∧ (ackSynchronized s th skb).sock.core = (tcpHandleDupack s).core := by
  rw [ackSynchronized, if_pos hd]
  exact ⟨rfl, rfl⟩

/-! ## Duplicate ACKs -/

/-- An skb numbered 0 that fits is sent again, with another number. -/
theorem tcpSendNextLoop_sends {limit : U32} {rest : List Skb} {s : TcpSock} {k : Skb}
    (hk : rest.find? (fun k => k.seq = 0) = some k) (hroom : ¬s.inflight + k.dlen > limit)
    (hn : s.tcb.sndNxt ≠ 0) (hl : limit ≤ s.tcb.sndWnd) {amount : Nat} (ha : rest.length ≤ amount) (visited : List Skb) :
    (tcpSendNextLoop limit amount visited rest s).core.snd.queue ≠ (visited ++ rest).map Skb.plain := by
  induction rest generalizing amount visited with
  | nil => cases hk
  | cons next rest ih =>
    obtain ⟨amount, rfl⟩ : ∃ m, amount = m + 1 := ⟨amount - 1, by rw [List.length_cons] at ha; omega⟩
    by_cases h0 : next.seq = 0
    · obtain rfl : next = k := by simpa [h0] using hk
      have hw : limit ≤ (renumSock s next).tcb.sndWnd :=
        hl.trans_eq (congrArg (·.snd.wnd) (renumSock_core s next)).symm
      obtain ⟨es, d', -, hc, -⟩ :=
        tcpSendNextLoop_spec limit amount (visited ++ [s.snd.number next]) rest (renumSock s next) hw
      rw [tcpSendNextLoop_turn h0 hroom, hc]
      simp only [List.map_append, List.map_cons, List.map_nil, List.append_assoc, List.singleton_append]
      intro heq
      have hseq := congrArg Skb.seq (List.cons.inj (List.append_cancel_left heq)).1
      exact hn (hseq.trans h0)
    · rw [tcpSendNextLoop, if_pos h0]
      rw [List.find?_cons_of_neg (by simpa using h0)] at hk
      have := ih hk (Nat.le_of_succ_le_succ ha) (visited ++ [next])
      rwa [List.append_assoc] at this

/-- A duplicate ACK leaves the core alone if and only if `tcp_send_next` finds
nothing to send. -/
theorem tcpHandleDupack_core_iff {s : TcpSock} (hn : ∀ k ∈ s.core.snd.queue, k.seq ≠ s.core.snd.nxt) :
    (tcpHandleDupack s).core = s.core ↔ DupackIdle s := by
  obtain ⟨hq, hlim⟩ := dupackAction_frame s
  have hc : (dupackAction { s with dupacks := s.dupacks + 1 }).1.core = s.core := dupackAction_core _
  have hw : (dupackAction { s with dupacks := s.dupacks + 1 }).1.tcb.sndWnd = s.tcb.sndWnd := congrArg (·.snd.wnd) hc
  have hi : (dupackAction { s with dupacks := s.dupacks + 1 }).1.inflight = s.inflight := congrArg (·.snd.inflight) hc
  have hx : (dupackAction { s with dupacks := s.dupacks + 1 }).1.tcb.sndNxt = s.tcb.sndNxt := congrArg (·.snd.nxt) hc
  unfold tcpHandleDupack
  dsimp only
  generalize (dupackAction { s with dupacks := s.dupacks + 1 }).1 = t at *
  generalize (dupackAction { s with dupacks := s.dupacks + 1 }).2 = extra at *
  have hcore : (if t.writeQueue.length > 0 then tcpSendNext t t.writeQueue.length extra else t).core =
      (tcpSendNextLoop (dupackLimit s) s.writeQueue.length [] s.writeQueue t).core := by
    rw [tcpSendNext, hw, hlim, hq]
    split
    next => rfl
    next h =>
      have h : s.writeQueue = [] := List.length_eq_zero_iff.mp (Nat.eq_zero_of_not_pos h)
      have ht : t = { t with writeQueue := [] } := by rw [← h, ← hq]
      rw [h]
      exact congrArg TcpSock.core ht
  rw [hcore]
  constructor
  · intro h k hk
    by_contra hroom
    have h0 : k.seq = 0 := by simpa using List.find?_some hk
    refine tcpSendNextLoop_sends hk (hi ▸ hroom) ?_ ?_ (Nat.le_refl _) [] (congrArg (·.snd.queue) h)
    · intro hz
      exact hn k.plain (List.mem_map_of_mem (List.mem_of_find?_eq_some hk)) (h0.trans (hz ▸ hx))
    · rw [hw]
      exact umin_le_right _ _
  · intro h
    rw [tcpSendNextLoop_idle (fun k hk => hi ▸ h k hk), ← hc, List.nil_append, ← hq]

/-! ## The ACK part against the circle -/

theorem ackedMod_eq {d : SndSide} {a : U32} (h : d.clean a = d.cleanMod a) :
    d.acked a = { d with una := a }.cleanMod a := by
  have h1 := congrArg SndSide.queue h
  have h2 := congrArg SndSide.inflight h
  simp only [SndSide.clean, SndSide.cleanMod] at h1 h2
  simp only [SndSide.acked, SndSide.clean, SndSide.cleanMod, h1, h2]

section
variable {s : TcpSock} {th : Tcphdr} {skb : Skb}

theorem ackPart_synchronized (hs : s.state.takesAck) :
    ackPart s th skb = ((ackSynchronized s th skb).goesOn, (ackSynchronized s th skb).sock.core) := by
  rw [ackPart, ackField_synchronized hs]

/-- In SYN_RECEIVED a new ACK establishes the child of a listener. -/
theorem ackPart_established {p : Nat} (hs : s.state = .synReceived) (hp : s.ptsk = some p) (hn : ackIsNew s th) :
    ackPart s th skb = (true, { s.core with state := .established, snd := s.core.snd.acked th.ackSeq }) := by
  let t := ((s.setState .established).emit (.acceptQueue p)).wakeup .acceptWait
  have ht : ackField s th skb = ackSynchronized t th skb := by
    have hp' : (s.setState .established).ptsk = some p := hp
    simp only [ackField, hs, hn, if_true]
    split
    next h => cases hp'.symm.trans h
    next q h =>
      cases hp'.symm.trans h
      rfl
  obtain ⟨u, hu, hc⟩ := ackSynchronized_new (s := t) skb (show ackIsNew t th from hn)
  rw [ackPart, ht, hu, Ctl.sock, hc]
  rfl

theorem ackPart_orphan (hs : s.state = .synReceived) (hp : s.ptsk = none) (hn : ackIsNew s th) :
    ackPart s th skb = (false, { s.core with state := .established, fault := true }) := by
  have ht : ackField s th skb = .ret { s.setState .established with fault := true } := by
    unfold ackField
    simp only [hs, hn, if_true, TcpSock.setState, hp]
  rw [ackPart, ht]
  rfl

theorem ackPart_refused (hs : s.state = .synReceived) (hn : ackIsNew s th = false) : ackPart s th skb = (false, s.core) := by
  have ht : ackField s th skb = .ret s := by
    unfold ackField
    simp only [hs, hn, Bool.false_eq_true, if_false]
  rw [ackPart, ht]
  rfl

variable {b : U32} (hs : s.state.takesAck ∨ s.state = .synReceived) (hb : s.core.snd.Spans b)
include hs

/-- An ACK in the window of a send side that has not wrapped is taken; the
queue is cleaned as `tcp_clean_rto_queue` cleans it. -/
theorem ackPart_inWindow (hw : s.core.snd.inWindow th.ackSeq) (hle : s.tcb.sndUna ≤ s.tcb.sndNxt)
    (hc : s.core.snd.clean th.ackSeq = s.core.snd.cleanMod th.ackSeq) (dup : Bool) :
    ackPart s th skb = s.core.ackMod dup th.ackSeq := by
  have hn : ackIsNew s th = true := (Serial.within_eq hle th.ackSeq).symm.trans hw
  rw [Core.ackMod, if_pos hw, ← ackedMod_eq hc]
  rcases hs with hs | hs
  · have hne : s.core.state ≠ .synReceived := fun h => by rw [core_state] at h; rw [h] at hs; cases hs
    obtain ⟨t, ht, htc⟩ := ackSynchronized_new skb hn
    rw [ackPart_synchronized hs, ht, Ctl.sock, htc, if_neg (fun h => hne h.1), if_neg hne]
    rfl
  · cases hp : s.ptsk with
    | none =>
      rw [ackPart_orphan hs hp hn, if_pos ⟨hs, hp⟩]
    | some p =>
      have hne : ¬(s.core.state = .synReceived ∧ s.core.ptsk = none) := fun h => by
        have := hp.symm.trans h.2
        cases this
      rw [ackPart_established hs hp hn, if_neg hne, if_pos (show s.core.state = .synReceived from hs)]

/-- An ACK that is not new to the plain comparisons, nor of `snd_una`, is dropped. -/
theorem ackPart_dropped (hn : ackIsNew s th = false) (hu : th.ackSeq ≠ s.tcb.sndUna) : ackPart s th skb = (false, s.core) := by
  rcases hs with hs | hs
  · have hd : tcpIsDupack s th skb = false := by simp [tcpIsDupack, hu]
    have hout : ¬(s.tcb.sndUna ≤ th.ackSeq ∧ th.ackSeq ≤ s.tcb.sndNxt) := by
      have hu' : th.ackSeq.toNat ≠ s.tcb.sndUna.toNat := fun h => hu (BitVec.eq_of_toNat_eq h)
      simp only [ackIsNew, Bool.and_eq_false_iff, decide_eq_false_iff_not] at hn
      bv_omega
    rw [ackPart_synchronized hs, ackSynchronized_outside hd hn hout]
    rfl
  · exact ackPart_refused hs hn

/-- An ACK outside the window that is not of `snd_una` is dropped, wrapped or not. -/
theorem ackPart_outside (hw : s.core.snd.inWindow th.ackSeq = false) (hu : th.ackSeq ≠ s.tcb.sndUna) (dup : Bool) :
    ackPart s th skb = s.core.ackMod dup th.ackSeq := by
  have hn : ackIsNew s th = false := by
    by_cases hle : s.tcb.sndUna ≤ s.tcb.sndNxt
    · exact (Serial.within_eq hle th.ackSeq).symm.trans hw
    · exact Serial.interval_empty hle th.ackSeq
  have hu' : th.ackSeq ≠ s.core.snd.una := hu
  rw [ackPart_dropped hs hn hu, Core.ackMod, if_neg (by simp [hw])]
  simp [hu']

include hb

theorem ackRight_inWindow (hw : s.core.snd.inWindow th.ackSeq) : AckRight s th skb ↔ s.tcb.sndUna ≤ s.tcb.sndNxt ∧
    ∀ k ∈ s.core.snd.queue, k.ackedBy th.ackSeq → k.seq ≠ 0 ∧ k.endSeq ≤ th.ackSeq := by
  have hu : th.ackSeq ≠ s.tcb.sndUna := (Serial.within_iff.mp hw).1
  constructor
  · rintro ⟨hpart, hclean⟩
    have hle : s.tcb.sndUna ≤ s.tcb.sndNxt := by
      by_contra hle
      -- wrapped: the ACK is dropped, where it should have been taken
      rw [ackPart_dropped hs (Serial.interval_empty hle th.ackSeq) hu, Core.ackMod, if_pos hw] at hpart
      split at hpart
      next h =>
        have hst : s.core.state = .established := congrArg (fun r => r.2.state) hpart
        rw [h.1] at hst
        cases hst
      next => cases congrArg Prod.fst hpart
    have hc := hclean hw
    rw [tcpCleanRtoQueue_core] at hc
    exact ⟨hle, (hb.clean_iff hw hle).mp (congrArg Core.snd hc)⟩
  · rintro ⟨hle, hk⟩
    have hc := (hb.clean_iff hw hle).mpr hk
    refine ⟨ackPart_inWindow hs hw hle hc _, fun _ => ?_⟩
    rw [tcpCleanRtoQueue_core, hc]

theorem ackRight_una (hu : th.ackSeq = s.tcb.sndUna) : AckRight s th skb ↔ (s.state ≠ .synReceived →
    if tcpIsDupack s th skb then DupackIdle s else s.tcb.sndUna ≤ s.tcb.sndNxt) := by
  have hw : s.core.snd.inWindow th.ackSeq = false := by
    rw [← Bool.not_eq_true, SndSide.inWindow, Serial.within_iff]
    exact fun h => h.1 hu
  have hn : ackIsNew s th = false := by
    have : ¬s.tcb.sndUna < th.ackSeq := by rw [hu]; exact BitVec.lt_irrefl _
    simp [ackIsNew, this]
  have hmod : s.core.ackMod (tcpIsDupack s th skb) th.ackSeq =
      (s.core.state ≠ .synReceived && !tcpIsDupack s th skb, s.core) := by
    have hu : th.ackSeq = s.core.snd.una := hu
    rw [Core.ackMod, if_neg (by simp [hw])]
    simp [hu]
  have hright : AckRight s th skb ↔ ackPart s th skb =
      (s.core.state ≠ .synReceived && !tcpIsDupack s th skb, s.core) := by
    rw [AckRight, hmod]
    exact ⟨And.left, fun h => ⟨h, fun h' => by rw [hw] at h'; cases h'⟩⟩
  rw [hright]
  rcases hs with hs | hs
  · have hne : s.core.state ≠ .synReceived := fun h => by rw [core_state] at h; rw [h] at hs; cases hs
    rw [ackPart_synchronized hs]
    cases hd : tcpIsDupack s th skb with
    | true =>
      obtain ⟨h1, h2⟩ := ackSynchronized_dup hd
      rw [h1, h2, ← tcpHandleDupack_core_iff hb.sent]
      simp [core_state] at hne
      simp [hne]
    | false =>
      simp only [core_state] at hne
      by_cases hle : s.tcb.sndUna ≤ s.tcb.sndNxt
      · obtain ⟨t, ht, htc⟩ := ackSynchronized_old hd hn (BitVec.le_of_eq hu.symm) (hu ▸ hle)
        simp [ht, Ctl.goesOn, Ctl.sock, htc, hne, core_state, hle]
      · have hout : ¬(s.tcb.sndUna ≤ th.ackSeq ∧ th.ackSeq ≤ s.tcb.sndNxt) := fun h => hle (hu ▸ h.2)
        simp [ackSynchronized_outside hd hn hout, Ctl.goesOn, hne, core_state, hle]
  · rw [ackPart_refused hs hn]
    simp [core_state, hs]

/-- **One state**: the ACK part works modulo 2^32 here if and only if nothing it
compares straddles 2^32 and nothing it may take is numbered 0. -/
theorem ackRight_iff : AckRight s th skb ↔ AckStraight s th skb := by
  cases hw : s.core.snd.inWindow th.ackSeq with
  | true =>
    have hu : th.ackSeq ≠ s.tcb.sndUna := (Serial.within_iff.mp hw).1
    rw [ackRight_inWindow hs hb hw, AckStraight]
    exact ⟨fun h => ⟨fun _ => h, fun h' => absurd h' hu⟩, fun h => h.1 hw⟩
  | false =>
    rw [AckStraight, hw]
    by_cases hu : th.ackSeq = s.tcb.sndUna
    · rw [ackRight_una hs hb hu]
      exact ⟨fun h => ⟨nofun, fun _ => h⟩, fun h => h.2 hu⟩
    · refine ⟨fun _ => ⟨nofun, fun h => absurd h hu⟩, fun _ => ⟨ackPart_outside hs hw hu _, ?_⟩⟩
      rw [hw]
      exact nofun

end

/-- **ACK processing modulo 2^32.** Moving the send side and the ACK number by
`n` changes nothing but by that move, with the ACK taken exactly in
`(snd_una, snd_nxt]` and exactly the covered skbs removed, if and only if in
neither place anything compared straddles 2^32 or is numbered 0. -/
theorem ack_modular {s : TcpSock} {b : U32} (hs : s.state.takesAck ∨ s.state = .synReceived)
    (hb : s.core.snd.Spans b) (th : Tcphdr) (skb : Skb) (n : U32) :
    AckShifts s th skb n ↔ AckStraight s th skb ∧ AckStraight (s.shift n) (th.shiftAck n) skb := by
  have hb' : (s.shift n).core.snd.Spans (b + n) := by
    rw [shift_core]
    exact hb.shift n
  rw [← ackRight_iff hs hb, ← ackRight_iff (s := s.shift n) hs hb']
  constructor
  · rintro ⟨h1, h2, -, -⟩
    exact ⟨h1, h2⟩
  · rintro ⟨h1, h2⟩
    refine ⟨h1, h2, ?_, fun hw => ?_⟩
    · rw [h2.1, h1.1, shift_core, tcpIsDupack_shift]
      exact ackMod_shift _ _ _ _
    · have hw' : (s.shift n).core.snd.inWindow (th.shiftAck n).ackSeq := by
        rw [shift_core]
        exact (inWindow_shift _ _ _).trans hw
      rw [h1.2 hw]
      refine (h2.2 hw').trans ?_
      rw [shift_core]
      exact congrArg (Core.mk _ _ _ _ _ _ _ _) (cleanMod_shift s.core.snd th.ackSeq n)

/-- A client that has sent four bytes from ISS 100, and the header of the ACK for them. -/
def sentSock : TcpSock := (clientConn.run [synAckEvent, .write [1, 2, 3, 4]]).sk

def sentAck : Tcphdr := { seq := 501, ackSeq := 105, ack := true, win := 10000 }

theorem sentSock_spans : sentSock.core.snd.Spans 100 := by
  have hq : sentSock.core.snd.queue = [{ dataSkb ⟨[1, 2, 3, 4], by decide⟩ true with seq := 101, endSeq := 105 }] := by
    decide +kernel
  have hn : sentSock.core.snd.nxt = 105 := by decide +kernel
  have hu : sentSock.core.snd.una = 101 := by decide +kernel
  refine ⟨?_, ?_, ?_, ?_⟩ <;> simp only [hq, hn, hu, Laid] <;> decide

/-- Far from 2^32 the law holds. -/
theorem ack_modular_moved : AckShifts sentSock sentAck {} 1000 := by
  refine (ack_modular (.inl (by decide +kernel)) sentSock_spans sentAck {} 1000).mpr ⟨⟨fun _ => ?_, fun h => ?_⟩,
    ⟨fun _ => ?_, fun h => ?_⟩⟩
  · decide +kernel
  · exact absurd h (by decide +kernel)
  · decide +kernel
  · exact absurd h (by decide +kernel)

/-- The same connection opened from ISS 2^32 - 2 is not let go on: the ACK for
its four bytes is dropped and they stay queued. -/
theorem ack_dropped_past_zero :
    sentSock.state.takesAck ∧ sentSock.core.snd.Spans 100 ∧
    (sentSock.shift 0xFFFFFF9A).core = (Conn.run { sk := activeOpen {} 0xFFFFFFFE }
      [.segment { seq := 500, ackSeq := 0xFFFFFFFF, syn := true, ack := true, win := 10000 } Payload.nil false,
        .write [1, 2, 3, 4]]).sk.core ∧
    ackPart (sentSock.shift 0xFFFFFF9A) (sentAck.shiftAck 0xFFFFFF9A) {} = (false, (sentSock.shift 0xFFFFFF9A).core) ∧
    ¬AckShifts sentSock sentAck {} 0xFFFFFF9A :=
  ⟨by decide +kernel, sentSock_spans, by decide +kernel, by decide +kernel,
    fun h => absurd h.2.1.1 (by decide +kernel)⟩

end LevelIp
