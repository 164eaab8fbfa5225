/-
Arrival order does matter for the FIN. It is looked at once, when its segment
arrives, against `rcv_nxt` as it is then; its data may wait in `ofo_queue`,
but nothing remembers the bit. So a FIN that overtakes data is lost: with data
of its own for good, since its segment is then never acceptable again, and
without data until it is sent once more.
-/
import LevelIp.Reorder

namespace LevelIp

/-- Only the last piece may be empty. -/
theorem Tiles.empty_last {n : Nat} {l : List Piece} (h : Tiles n l) {x : Piece} (hx : x ∈ l) (he : x.data.bytes = []) :
    x.seq.toNat = n + (pieceBytes l).length := by
  induction l generalizing n with
  | nil => cases hx
  | cons y l ih =>
    rcases List.mem_cons.mp hx with rfl | hx
    · have hl : l = [] := by
        by_contra hl
        exact h.2.1 hl he
      subst hl
      simp [h.1, he]
    · rw [ih h.2.2 hx, pieceBytes_cons, List.length_append, Piece.len]
      omega

section
variable {n : Nat} {pre post : List Piece} {before : List U8} {seen : List Piece} {s : TcpSock} {th : Tcphdr}
  {data : Payload} (psh : Bool)

/-- An arrival that is not of the FIN in its turn: nothing is lost but perhaps
an empty FIN, which leaves no trace. -/
theorem Reassembles.arrive_waiting (h : Hears s th) (hr : Reassembles n pre post before seen s.core.rcv)
    (hfit : (pieceBytes (pre ++ post)).length ≤ 44477) (hx : ⟨th.seq, data⟩ ∈ pre ++ post)
    (hd : data.bytes ≠ [] ∨ th.fin) (hnot : ¬(th.fin ∧ th.seq = s.core.rcv.nxt)) :
    ∃ d r pre' post' seen', (segmentArrives s th (tcpInitSegment th data psh)).core = { s.core with rcv := r, snd := d } ∧
      r.wnd = s.core.rcv.wnd ∧ pre ++ post = pre' ++ post' ∧ (∀ x ∈ seen', x = ⟨th.seq, data⟩ ∨ x ∈ seen) ∧
      (∀ x ∈ seen, x ∈ seen') ∧ (data.bytes ≠ [] → ⟨th.seq, data⟩ ∈ seen') ∧
      Reassembles n pre' post' before seen' r := by
  by_cases hdata : data.bytes = []
  · -- an empty FIN that is not in its turn
    have hfin : th.fin = true := hd.resolve_left (not_not.mpr hdata)
    have hne : th.seq ≠ s.core.rcv.nxt := fun hs => hnot ⟨hfin, hs⟩
    have hx : ⟨th.seq, data⟩ ∈ post := by
      refine (List.mem_append.mp hx).resolve_left fun hx => hne (BitVec.eq_of_toNat_eq ?_)
      rw [hr.nxt]
      exact hr.tiles.left.empty_last hx hdata
    obtain ⟨d, hc⟩ := segmentArrives_heard h.state (h.heard psh hr hfit hx) (not_dupack (.inr hfin)) h.ackOk
    have hnot' : ¬(th.fin ∧ (tcpInitSegment th data psh).seq = s.core.rcv.nxt) := hnot
    have hne' : ¬(tcpInitSegment th data psh).seq = s.core.rcv.nxt := hne
    rw [Core.hear, if_neg hnot'] at hc
    by_cases hpsh : th.psh
    · have he : (tcpInitSegment th data psh).endSeq.toNat = th.seq.toNat + data.bytes.length := by
        have hl : data.len = 0 := Payload.len_eq_zero.mpr hdata
        simp [tcpInitSegment, hl, hdata]
      rw [RcvSide.text, if_pos (by simp [hpsh]), RcvSide.take, if_neg h.wnd_ne, if_neg hne'] at hc
      have hi := hr.insert (k := tcpInitSegment th data psh) hx hne he
      exact ⟨d, _, pre, post, _, hc, rfl, rfl, fun x hx => List.mem_cons.mp hx, fun x hx => List.mem_cons_of_mem _ hx,
        fun hne => absurd hdata hne, hi⟩
    · have hl : ¬(tcpInitSegment th data psh).dlen > 0 := by
        have : (tcpInitSegment th data psh).dlen = 0 := Payload.len_eq_zero.mpr hdata
        rw [this]
        exact BitVec.lt_irrefl _
      rw [RcvSide.text, if_neg (by simp only [hpsh, hl, decide_false, Bool.or_self, Bool.false_eq_true, not_false_iff])] at hc
      exact ⟨d, _, pre, post, seen, hc, rfl, rfl, fun x hx => .inr hx, fun x hx => hx, fun hne => absurd hdata hne, hr⟩
  · have hf : th.fin = false ∨ ⟨th.seq, data⟩ ∈ pre ∨ th.seq ≠ s.core.rcv.nxt := by
      cases hfin : th.fin with
      | false => exact .inl rfl
      | true => exact .inr (.inr fun hs => hnot ⟨hfin, hs⟩)
    obtain ⟨d, r, pre', post', hc, hw, hl, -, hr'⟩ := hr.arrive psh h hfit hx hdata hf
    exact ⟨d, r, pre', post', _, hc, hw, hl, fun x hx => List.mem_cons.mp hx, fun x hx => List.mem_cons_of_mem _ hx,
      fun _ => List.mem_cons_self, hr'⟩

/-- The text of a segment in its turn, when nothing waits behind it. -/
theorem text_due (th : Tcphdr) {r : RcvSide} {k : Skb} (hw : r.wnd ≠ 0) (hs : k.seq = r.nxt) (ho : r.ofo = []) :
    (r.text th k).wnd = r.wnd ∧ (r.text th k).nxt = r.nxt + k.dlen ∧
    queueBytes (r.text th k).queue = queueBytes r.queue ++ k.payload.bytes := by
  unfold RcvSide.text
  split
  next =>
    rw [RcvSide.take, if_neg hw, if_pos hs]
    simp [RcvSide.push, ho, ofoDrain]
  next hn =>
    have h0 : ¬k.dlen > 0 := fun h => hn (by simp only [h, decide_true, Bool.or_true])
    have hz : k.dlen = 0 := by bv_omega
    have hb : k.payload.bytes = [] := Payload.len_eq_zero.mp hz
    exact ⟨rfl, by rw [hz]; exact (BitVec.add_zero _).symm, by rw [hb]; exact (List.append_nil _).symm⟩

/-- When the number of the last piece is `rcv_nxt`, nothing waits and all other
pieces have come. -/
theorem Reassembles.last_due {r : RcvSide} {x : Piece} {others : List Piece}
    (hr : Reassembles n pre post before seen r) (hl : pre ++ post = others ++ [x]) (hx : x.seq = r.nxt) :
    r.ofo = [] ∧ (∀ y ∈ others, y ∈ seen) ∧ r.nxt.toNat + x.len = n + (pieceBytes (others ++ [x])).length ∧
    queueBytes r.queue ++ x.data.bytes = before ++ pieceBytes (others ++ [x]) := by
  rcases List.eq_nil_or_concat post with rfl | ⟨post', y, rfl⟩
  · -- the piece itself was let out already, so it is empty
    rw [List.append_nil] at hl
    have hm := hr.tiles.left.mem_le (x := x) (by rw [hl]; simp)
    have hn := hr.nxt
    rw [← hx] at hn
    have hlen : x.data.bytes = [] := List.length_eq_zero_iff.mp (by rw [Piece.len] at hm; omega)
    refine ⟨List.map_eq_nil_iff.mp hr.ofo, fun z hz => hr.got z (by rw [hl]; simp [hz]), ?_, ?_⟩
    · rw [← hl, hr.nxt, Piece.len, hlen]
      rfl
    · rw [← hl, hlen, List.append_nil, hr.bytes]
  · rw [List.concat_eq_append, ← List.append_assoc] at hl
    obtain ⟨ho, hy⟩ := List.append_inj' hl rfl
    obtain rfl := List.singleton_inj.mp hy
    obtain ⟨rest, hp⟩ := hr.due (x := y) (by simp) hx
    have hpost : post' = [] := by
      cases post' with
      | nil => rfl
      | cons z post' =>
        obtain ⟨rfl, -⟩ := List.cons.inj (by simpa using hp)
        have hnd := hr.tiles_post.nodup
        simp at hnd
    subst hpost
    rw [List.append_nil] at ho
    subst ho
    refine ⟨?_, hr.got, ?_, ?_⟩
    · have hofo := hr.ofo
      rw [List.concat_eq_append, List.nil_append, List.filter_cons, if_neg (by simpa using hr.next y rfl)] at hofo
      exact List.map_eq_nil_iff.mp hofo
    · rw [hr.nxt, pieceBytes_append, List.length_append, Nat.add_assoc]
      simp [Piece.len]
    · rw [hr.bytes, pieceBytes_append]
      simp

/-- The FIN in its turn: all data is in, and it is taken. -/
theorem Reassembles.arrive_fin (h : Hears s th) (hr : Reassembles n pre post before seen s.core.rcv)
    {others : List Piece} (hl : pre ++ post = others ++ [⟨th.seq, data⟩]) (hfin : th.fin)
    (hseq : th.seq = s.core.rcv.nxt) : ∃ d r,
    (segmentArrives s th (tcpInitSegment th data psh)).core =
        { s.core with state := .closeWait, flagFin := true, rcv := r, snd := d } ∧
      r.wnd = s.core.rcv.wnd ∧ r.nxt = th.seq + data.len + 1 ∧
      queueBytes r.queue = before ++ pieceBytes (others ++ [⟨th.seq, data⟩]) ∧ ∀ x ∈ others, x ∈ seen := by
  have hroom := h.room
  have hv : s.core.rcv.verify th (tcpInitSegment th data psh) = true := by
    rw [verify_iff h.wnd_ne, h.wnd, hseq, BitVec.le_def, BitVec.le_def, BitVec.toNat_add]
    have h44 : (44477 : U32).toNat = 44477 := rfl
    rw [h44, Nat.mod_eq_of_lt hroom]
    omega
  have hh : s.core.Heard th (tcpInitSegment th data psh) := by simp [Core.Heard, hv, h.rst, h.syn, h.ack]
  obtain ⟨d, hc⟩ := segmentArrives_heard h.state hh (not_dupack (.inr hfin)) h.ackOk
  have hdue : th.fin ∧ (tcpInitSegment th data psh).seq = s.core.rcv.nxt := ⟨hfin, hseq⟩
  rw [Core.hear, if_pos hdue] at hc
  obtain ⟨hofo, hgot, -, hbytes⟩ := hr.last_due hl hseq
  obtain ⟨h1, h2, h3⟩ := text_due th h.wnd_ne hdue.2 hofo
  refine ⟨d, _, hc, h1, ?_, ?_, hgot⟩
  · rw [hseq]
    exact congrArg (· + 1) h2
  · rw [← hbytes]
    exact h3

end

/-! ## When the FIN is in time -/

/-- Some arrival of the FIN's segment comes after all others have come; if it
has data, it is its first. -/
def FinInTime (others : List Piece) (fin : Piece) (arrivals : List Piece) : Prop :=
  ∃ as bs, arrivals = as ++ fin :: bs ∧ (∀ x ∈ others, x ∈ as) ∧ (fin.data.bytes ≠ [] → fin ∉ as)

section
variable {others arrivals : List Piece} {fin x : Piece}

theorem FinInTime.concat (h : FinInTime others fin arrivals) (x : Piece) : FinInTime others fin (arrivals ++ [x]) := by
  obtain ⟨as, bs, rfl, h1, h2⟩ := h
  exact ⟨as, bs ++ [x], by simp, h1, h2⟩

/-- What one more arrival can change. -/
theorem finInTime_concat (h : FinInTime others fin (arrivals ++ [x])) : FinInTime others fin arrivals ∨
    x = fin ∧ (∀ y ∈ others, y ∈ arrivals) ∧ (fin.data.bytes ≠ [] → fin ∉ arrivals) := by
  obtain ⟨as, bs, heq, h1, h2⟩ := h
  rcases List.eq_nil_or_concat bs with rfl | ⟨bs', y, rfl⟩
  · obtain ⟨rfl, hx⟩ := List.append_inj' heq rfl
    exact .inr ⟨List.singleton_inj.mp hx, h1, h2⟩
  · rw [List.concat_eq_append, ← List.cons_append, ← List.append_assoc] at heq
    exact .inl ⟨as, bs', (List.append_inj' heq rfl).1, h1, h2⟩

theorem not_finInTime_nil : ¬FinInTime others fin [] := by
  rintro ⟨as, bs, h, -, -⟩
  simp at h

end

/-! ## Runs of arrivals -/

theorem Tiles.concat {n : Nat} {l : List Piece} (h : Tiles n l) (hne : ∀ x ∈ l, x.data.bytes ≠ []) {x : Piece}
    (hx : x.seq.toNat = n + (pieceBytes l).length) : Tiles n (l ++ [x]) := by
  induction l generalizing n with
  | nil => exact ⟨by simpa using hx, fun h => absurd rfl h, trivial⟩
  | cons y l ih =>
    refine ⟨h.1, fun _ => hne y List.mem_cons_self, ih h.2.2 (fun z hz => hne z (List.mem_cons_of_mem _ hz)) ?_⟩
    rw [hx, pieceBytes_cons, List.length_append, Piece.len]
    omega

/-- A segment of the set: no SYN or RST, and FIN on the last piece only. -/
def Event.Carries (fin : Piece) : Event → Prop
  | .segment th data _ => th.syn = false ∧ th.rst = false ∧ th.ack = true ∧ th.fin = decide (⟨th.seq, data⟩ = fin)
  | _ => False

instance (fin : Piece) (e : Event) : Decidable (e.Carries fin) :=
  match e with
  | .segment .. | .write _ | .read _ | .close | .abort | .resume _ | .dispatch _ | .handler _ | .tick _ | .fcntl _
  | .adjustPmtu6 _ => by unfold Event.Carries; infer_instance

/-- The pieces that arrive, in the order they do. -/
def arrivals (es : List Event) : List Piece := es.filterMap Event.piece

/-- The stream is complete and its FIN consumed. -/
structure FinTaken (fin : Piece) (bytes : List U8) (s : TcpSock) : Prop where
  state : s.state = .closeWait
  flag : s.flagFin = true
  nxt : s.tcb.rcvNxt = fin.seq + fin.data.len + 1
  unread : s.unread = bytes

/-- The pieces `others`, then `fin`, tile the numbers from `n` on and fit the window. -/
structure FinStretch (n : Nat) (others : List Piece) (fin : Piece) : Prop where
  tiles : Tiles n (others ++ [fin])
  fits : (pieceBytes (others ++ [fin])).length ≤ 44477
  start : n + 44477 < 2 ^ 32
  full : ∀ x ∈ others, x.data.bytes ≠ []

/-- The socket of a live connection with the window as it always is. -/
structure Open (st : TcpState) (s : TcpSock) : Prop where
  wnd : s.core.rcv.wnd = 44477
  state : s.state = st
  live : s.fault = false

/-- No FIN yet; `came` are the pieces that have arrived. -/
structure FinWaits (n : Nat) (l : List Piece) (before : List U8) (came : List Piece) (s : TcpSock) : Prop where
  isOpen : Open .established s
  parts : ∃ pre post seen, l = pre ++ post ∧ Reassembles n pre post before seen s.core.rcv ∧
    (∀ x ∈ seen, x ∈ came) ∧ ∀ x ∈ came, x.data.bytes ≠ [] → x ∈ seen

theorem Open.step {st : TcpState} {c : Conn} (h : Open st c.sk) (th : Tcphdr) (data : Payload) (psh : Bool) :
    (c.step (.segment th data psh)).sk = segmentArrives c.sk th (tcpInitSegment th data psh) := by
  rw [Conn.step, if_neg (by simp [h.live])]

section
variable {n : Nat} {others : List Piece} {fin : Piece} {before : List U8} {came : List Piece} {c : Conn}
  {th : Tcphdr} {data : Payload} {psh : Bool}

/-- A socket whose window reaches past 2^32 hears nothing. -/
theorem unheard_of_no_room (th : Tcphdr) (data : Payload) (psh : Bool) {s : TcpSock} (hw : s.core.rcv.wnd = 44477) (hr : 2 ^ 32 ≤ s.core.rcv.nxt.toNat + 44477) :
    s.core.rcv.verify th (tcpInitSegment th data psh) = false := by
  rw [← Bool.not_eq_true, verify_iff (by rw [hw]; decide), hw, BitVec.le_def, BitVec.le_def, BitVec.toNat_add]
  have h44 : (44477 : U32).toNat = 44477 := rfl
  have hlt := s.core.rcv.nxt.isLt
  rw [h44]
  omega

/-- While the FIN is awaited, one arrival that is not of the FIN in its turn. -/
theorem FinWaits.step (h : FinWaits n (others ++ [fin]) before came c.sk) (hf : FinStretch n others fin)
    (hroom : c.sk.core.rcv.nxt.toNat + 44477 < 2 ^ 32) (hc : Event.Carries fin (.segment th data psh))
    (ha : AckAcceptable c (.segment th data psh)) (hx : ⟨th.seq, data⟩ ∈ others ++ [fin])
    (hnot : ¬(⟨th.seq, data⟩ = fin ∧ th.seq = c.sk.core.rcv.nxt)) :
    FinWaits n (others ++ [fin]) before (came ++ [⟨th.seq, data⟩]) (c.step (.segment th data psh)).sk := by
  obtain ⟨hsyn, hrst, hack, hfin⟩ := hc
  obtain ⟨pre, post, seen, hl, hr, hsub, hsup⟩ := h.parts
  have hh : Hears c.sk th := ⟨h.isOpen.wnd, hroom, h.isOpen.state, hrst, hsyn, hack, ha⟩
  have hd : data.bytes ≠ [] ∨ th.fin := by
    rcases List.mem_append.mp hx with hx | hx
    · exact .inl (hf.full _ hx)
    · exact .inr (by rw [hfin]; simpa using hx)
  have hfit := hf.fits
  rw [hl] at hx hfit
  obtain ⟨d, r, pre', post', seen', hcore, hw, hl', h1, h2, h3, hr'⟩ := hr.arrive_waiting psh hh hfit hx hd
    fun hn => hnot ⟨of_decide_eq_true (hfin.symm.trans hn.1), hn.2⟩
  rw [← h.isOpen.step] at hcore
  refine ⟨⟨by rw [hcore]; exact hw.trans h.isOpen.wnd, (congrArg Core.state hcore).trans h.isOpen.state,
    (congrArg Core.fault hcore).trans h.isOpen.live⟩, pre', post', seen', hl.trans hl', by rw [hcore]; exact hr', ?_, ?_⟩
  · intro x hx
    rcases h1 x hx with rfl | hx
    · simp
    · exact List.mem_append_left _ (hsub x hx)
  · intro x hx hne
    rcases List.mem_append.mp hx with hx | hx
    · exact h2 x (hsup x hx hne)
    · obtain rfl := List.mem_singleton.mp hx
      exact h3 hne

/-- Nothing that arrives at an unchanged core changes what has been seen of it. -/
theorem FinWaits.unheard (h : FinWaits n (others ++ [fin]) before came c.sk)
    (hv : c.sk.core.rcv.verify th (tcpInitSegment th data psh) = false) (hx : ⟨th.seq, data⟩ ∈ came) :
    FinWaits n (others ++ [fin]) before (came ++ [⟨th.seq, data⟩]) (c.step (.segment th data psh)).sk := by
  have hcore := segmentArrives_unheard (.inl h.isOpen.state) hv
  rw [← h.isOpen.step] at hcore
  obtain ⟨pre, post, seen, hl, hr, hsub, hsup⟩ := h.parts
  refine ⟨⟨by rw [hcore]; exact h.isOpen.wnd, (congrArg Core.state hcore).trans h.isOpen.state,
    (congrArg Core.fault hcore).trans h.isOpen.live⟩, pre, post, seen, hl, by rw [hcore]; exact hr, ?_, ?_⟩
  · exact fun x hx => List.mem_append_left _ (hsub x hx)
  · intro x hx' hne
    rcases List.mem_append.mp hx' with hx' | hx'
    · exact hsup x hx' hne
    · obtain rfl := List.mem_singleton.mp hx'
      exact hsup _ hx hne

/-- Whether all that comes before the FIN has come is what its number tells. -/
theorem FinWaits.due_iff (h : FinWaits n (others ++ [fin]) before came c.sk) (hf : FinStretch n others fin) :
    fin.seq = c.sk.core.rcv.nxt ↔ (∀ x ∈ others, x ∈ came) ∧ (fin.data.bytes ≠ [] → fin ∉ came) := by
  obtain ⟨pre, post, seen, hl, hr, hsub, hsup⟩ := h.parts
  constructor
  · intro hs
    obtain ⟨-, hgot, -, -⟩ := hr.last_due hl.symm hs
    refine ⟨fun x hx => hsub x (hgot x hx), fun hne hc => ?_⟩
    have hseen := hsup fin hc hne
    have hm : fin ∈ pre ++ post := by rw [← hl]; simp
    rcases List.mem_append.mp hm with hm | hm
    · have hle := (hr.tiles.left.mem_le hm).2
      have hpos : 0 < fin.len := List.length_pos_of_ne_nil hne
      rw [hs, hr.nxt] at hle
      omega
    · obtain ⟨rest, hp⟩ := hr.due hm hs
      exact hr.next fin (by rw [hp]; rfl) hseen
  · rintro ⟨hall, hne⟩
    cases post with
    | nil =>
      -- the FIN's own piece was let out, so it can only be empty
      rw [List.append_nil] at hl
      have hm : fin ∈ pre := by rw [← hl]; simp
      have he : fin.data.bytes = [] := by
        by_contra h0
        exact hne h0 (hsub _ (hr.got _ hm))
      refine BitVec.eq_of_toNat_eq ?_
      rw [hr.nxt]
      exact hr.tiles.left.empty_last hm he
    | cons y rest =>
      have hy : y = fin := by
        by_contra hy
        have hm : y ∈ others ++ [fin] := by rw [hl]; simp
        have hm : y ∈ others := (List.mem_append.mp hm).resolve_right (by simpa using hy)
        exact hr.next y rfl (hsup y (hall y hm) (hf.full y hm))
      rw [← hy]
      refine BitVec.eq_of_toNat_eq ?_
      have ht := hr.tiles_post
      exact ht.1

/-- The FIN in its turn. -/
theorem FinWaits.take (h : FinWaits n (others ++ [fin]) before came c.sk)
    (hroom : c.sk.core.rcv.nxt.toNat + 44477 < 2 ^ 32) (hc : Event.Carries fin (.segment th data psh))
    (ha : AckAcceptable c (.segment th data psh)) (hx : ⟨th.seq, data⟩ = fin) (hs : th.seq = c.sk.core.rcv.nxt) :
    Open .closeWait (c.step (.segment th data psh)).sk ∧
    FinTaken fin (before ++ pieceBytes (others ++ [fin])) (c.step (.segment th data psh)).sk := by
  obtain ⟨hsyn, hrst, hack, hfin⟩ := hc
  obtain ⟨pre, post, seen, hl, hr, -, -⟩ := h.parts
  have hh : Hears c.sk th := ⟨h.isOpen.wnd, hroom, h.isOpen.state, hrst, hsyn, hack, ha⟩
  subst hx
  obtain ⟨d, r, hcore, hw, hn, hb, -⟩ := hr.arrive_fin psh hh hl.symm (hfin.trans (decide_eq_true rfl)) hs
  rw [← h.isOpen.step] at hcore
  refine ⟨⟨by rw [hcore]; exact hw.trans h.isOpen.wnd, congrArg Core.state hcore,
    (congrArg Core.fault hcore).trans h.isOpen.live⟩, congrArg Core.state hcore, congrArg Core.flagFin hcore, ?_, ?_⟩
  · exact (congrArg (·.rcv.nxt) hcore).trans hn
  · exact (congrArg (fun k => queueBytes k.rcv.queue) hcore).trans hb

/-- After the FIN nothing of the set is acceptable. -/
theorem FinTaken.step {bytes : List U8} (ho : Open .closeWait c.sk) (h : FinTaken fin bytes c.sk)
    (hf : FinStretch n others fin) (psh : Bool) (hx : ⟨th.seq, data⟩ ∈ others ++ [fin]) :
    Open .closeWait (c.step (.segment th data psh)).sk ∧ FinTaken fin bytes (c.step (.segment th data psh)).sk := by
  have hm := hf.tiles.mem_le hx
  have hlast := hf.tiles.mem_le (x := fin) (by simp)
  have hfit := hf.fits
  have hstart := hf.start
  have hn : c.sk.core.rcv.nxt = fin.seq + fin.data.len + 1 := h.nxt
  have hend : fin.seq.toNat + fin.len = n + (pieceBytes (others ++ [fin])).length := by
    have ht := hf.tiles.append
    rw [pieceBytes_append, List.length_append, ht.1]
    simp [Piece.len, Nat.add_assoc]
  have hv : c.sk.core.rcv.verify th (tcpInitSegment th data psh) = false := by
    have hnat : c.sk.core.rcv.nxt.toNat = (fin.seq.toNat + fin.len + 1) % 2 ^ 32 := by
      have h1 : (1 : U32).toNat = 1 := rfl
      rw [hn, BitVec.toNat_add, BitVec.toNat_add, Payload.len_toNat, h1, Piece.len]
      omega
    have h44 : (44477 : U32).toNat = 44477 := rfl
    rw [← Bool.not_eq_true, verify_iff (by rw [ho.wnd]; decide), ho.wnd, BitVec.le_def, BitVec.le_def, BitVec.toNat_add,
      h44, hnat]
    dsimp only at hm
    omega
  have hcore := segmentArrives_unheard (.inr ho.state) hv
  rw [← ho.step] at hcore
  refine ⟨⟨by rw [hcore]; exact ho.wnd, (congrArg Core.state hcore).trans ho.state,
    (congrArg Core.fault hcore).trans ho.live⟩, (congrArg Core.state hcore).trans h.state,
    (congrArg Core.flagFin hcore).trans h.flag, (congrArg (·.rcv.nxt) hcore).trans h.nxt,
    (congrArg (fun k : Core => queueBytes k.rcv.queue) hcore).trans h.unread⟩

/-- While the FIN can still be heard in its turn: it is awaited, or taken exactly
when it was in time. -/
def FinTracked (n : Nat) (others : List Piece) (fin : Piece) (before : List U8) (came : List Piece) (s : TcpSock) : Prop :=
  FinWaits n (others ++ [fin]) before came s ∧ ¬FinInTime others fin came ∨
  Open .closeWait s ∧ FinTaken fin (before ++ pieceBytes (others ++ [fin])) s ∧ FinInTime others fin came

theorem FinTracked.step (hf : FinStretch n others fin) (hroom : fin.seq.toNat + 44477 < 2 ^ 32)
    (h : FinTracked n others fin before came c.sk) (hc : Event.Carries fin (.segment th data psh))
    (ha : AckAcceptable c (.segment th data psh)) (hx : ⟨th.seq, data⟩ ∈ others ++ [fin]) :
    FinTracked n others fin before (came ++ [⟨th.seq, data⟩]) (c.step (.segment th data psh)).sk := by
  rcases h with ⟨h, hnot⟩ | ⟨ho, h, hin⟩
  · by_cases hr : c.sk.core.rcv.nxt.toNat + 44477 < 2 ^ 32
    · by_cases hdue : ⟨th.seq, data⟩ = fin ∧ th.seq = c.sk.core.rcv.nxt
      · obtain ⟨hfin, hs⟩ := hdue
        obtain ⟨ho, ht⟩ := h.take hr hc ha hfin hs
        obtain ⟨h1, h2⟩ := (h.due_iff hf).mp (hfin ▸ hs)
        exact .inr ⟨ho, ht, came, [], by rw [hfin], h1, h2⟩
      · refine .inl ⟨h.step hf hr hc ha hx hdue, fun hin => ?_⟩
        rcases finInTime_concat hin with hin | ⟨hfin, hrest⟩
        · exact hnot hin
        · exact hdue ⟨hfin, (congrArg Piece.seq hfin).trans ((h.due_iff hf).mpr hrest)⟩
    · -- the FIN's data was let out: no piece is acceptable any more
      obtain ⟨pre, post, seen, hl, hre, hsub, hsup⟩ := h.parts
      have hend : fin.seq.toNat = n + (pieceBytes others).length := hf.tiles.append.1
      have hpost : post = [] := by
        rcases List.eq_nil_or_concat post with rfl | ⟨post', y, rfl⟩
        · rfl
        · rw [List.concat_eq_append, ← List.append_assoc] at hl
          obtain ⟨ho, -⟩ := List.append_inj' hl rfl
          rw [hre.nxt] at hr
          rw [ho, pieceBytes_append, List.length_append] at hend
          omega
      subst hpost
      rw [List.append_nil] at hl
      have hne : data.bytes ≠ [] := by
        rcases List.mem_append.mp hx with hx | hx
        · exact hf.full _ hx
        · intro he
          obtain rfl := List.mem_singleton.mp hx
          rw [hre.nxt, ← hl, pieceBytes_append, List.length_append] at hr
          simp only [pieceBytes_cons, pieceBytes_nil, List.append_nil, he, List.length_nil, Nat.add_zero] at hr
          rw [hend] at hroom
          exact hr hroom
      rw [hl] at hx
      have hcame := hsub _ (hre.got _ hx)
      have hw : c.sk.core.rcv.wnd ≠ 0 := by
        rw [h.isOpen.wnd]
        decide
      have hv : c.sk.core.rcv.verify th (tcpInitSegment th data psh) = false := hre.unheard psh hw hx hne
      refine .inl ⟨h.unheard hv hcame, fun hin => ?_⟩
      rcases finInTime_concat hin with hin | ⟨hfin, -, hrest⟩
      · exact hnot hin
      · rw [← hfin] at hrest
        exact hrest hne hcame
  · obtain ⟨ho', ht⟩ := FinTaken.step ho h hf psh hx
    exact .inr ⟨ho', ht, hin.concat _⟩

/-- The socket is established and its window reaches past 2^32. -/
def Stuck (s : TcpSock) : Prop := Open .established s ∧ 2 ^ 32 ≤ s.core.rcv.nxt.toNat + 44477

/-- From there nothing changes. -/
theorem Stuck.step (h : Stuck c.sk) : Stuck (c.step (.segment th data psh)).sk := by
  obtain ⟨ho, hr⟩ := h
  have hcore := segmentArrives_unheard (.inl ho.state) (unheard_of_no_room th data psh ho.wnd hr)
  rw [← ho.step] at hcore
  exact ⟨⟨by rw [hcore]; exact ho.wnd, (congrArg Core.state hcore).trans ho.state,
    (congrArg Core.fault hcore).trans ho.live⟩, by rw [hcore]; exact hr⟩

/-- Where the FIN's number has no room before 2^32 it is never heard in its turn. -/
def FinBeyond (n : Nat) (others : List Piece) (fin : Piece) (before : List U8) (came : List Piece) (s : TcpSock) : Prop :=
  FinWaits n (others ++ [fin]) before came s ∨ Stuck s

theorem FinBeyond.step (hf : FinStretch n others fin) (hroom : 2 ^ 32 ≤ fin.seq.toNat + 44477)
    (h : FinBeyond n others fin before came c.sk) (hc : Event.Carries fin (.segment th data psh))
    (ha : AckAcceptable c (.segment th data psh)) (hx : ⟨th.seq, data⟩ ∈ others ++ [fin]) :
    FinBeyond n others fin before (came ++ [⟨th.seq, data⟩]) (c.step (.segment th data psh)).sk := by
  rcases h with h | h
  · by_cases hr : c.sk.core.rcv.nxt.toNat + 44477 < 2 ^ 32
    · refine .inl (h.step hf hr hc ha hx fun hdue => ?_)
      have hs : fin.seq = c.sk.core.rcv.nxt := (congrArg Piece.seq hdue.1).symm.trans hdue.2
      rw [hs] at hroom
      omega
    · exact .inr (Stuck.step ⟨h.isOpen, Nat.le_of_not_lt hr⟩)
  · exact .inr h.step

end

/-- What every arrival keeps, a run of arrivals keeps. -/
theorem arrivals_keep {l : List Piece} {fin : Piece} {P : List Piece → TcpSock → Prop}
    (hP : ∀ {came : List Piece} {c : Conn} {th : Tcphdr} {data : Payload} {psh : Bool}, P came c.sk →
      Event.Carries fin (.segment th data psh) → AckAcceptable c (.segment th data psh) → ⟨th.seq, data⟩ ∈ l →
      P (came ++ [⟨th.seq, data⟩]) (c.step (.segment th data psh)).sk)
    {es : List Event} (hes : ∀ e ∈ es, e.Carries fin ∧ ∃ x ∈ l, e.piece = some x) {c : Conn} (came : List Piece)
    (hack : Conn.Meets AckAcceptable c es) (h : P came c.sk) : P (came ++ arrivals es) (c.run es).sk := by
  induction es generalizing c came with
  | nil => simpa [arrivals] using h
  | cons e es ih =>
    obtain ⟨hc, x, hx, hxe⟩ := hes e List.mem_cons_self
    cases e with
    | segment th data psh =>
      obtain rfl : ⟨th.seq, data⟩ = x := Option.some.inj hxe
      have hs := ih (fun e he => hes e (List.mem_cons_of_mem _ he)) _ hack.2 (hP h hc hack.1 hx)
      rwa [List.append_assoc] at hs
    | _ => exact hc.elim

/-- **FIN and arrival order.** On an ESTABLISHED connection with an empty
out-of-order queue, let the segments that complete the peer's stream arrive in
any order and number, the last of them with FIN: all of the stream and its FIN
are consumed if and only if some arrival of the FIN's segment comes after all
the others have come (its first, if it has data), and its number has the window
before 2^32. -/
theorem fin_order {iss : U32} {s : TcpSock} (ho : Opened iss s) {hist es : List Event} {c : Conn}
    (hc : c = Conn.run { sk := s } hist) (hlive : c.sk.fault = false) (hst : c.sk.state = .established)
    (hofo : c.sk.ofoQueue = []) {ps : List Payload} {f : Payload} (hne : ∀ p ∈ ps, p.bytes ≠ [])
    (hfit : (stretch ps).length + f.bytes.length ≤ 44477)
    (hes : ∀ e ∈ es, e.Carries ⟨cutEnd c.sk.tcb.rcvNxt ps, f⟩ ∧
      ∃ x ∈ cut c.sk.tcb.rcvNxt ps ++ [⟨cutEnd c.sk.tcb.rcvNxt ps, f⟩], e.piece = some x)
    (hack : Conn.Meets AckAcceptable c es) :
    FinTaken ⟨cutEnd c.sk.tcb.rcvNxt ps, f⟩ (c.sk.unread ++ (stretch ps ++ f.bytes)) (c.run es).sk ↔
    c.sk.tcb.rcvNxt.toNat + (stretch ps).length + 44477 < 2 ^ 32 ∧
      FinInTime (cut c.sk.tcb.rcvNxt ps) ⟨cutEnd c.sk.tcb.rcvNxt ps, f⟩ (arrivals es) := by
  have hopen : Open .established c.sk := ⟨by rw [hc]; exact ho.rcvWnd hist, hst, hlive⟩
  have hnot : ∀ {t : TcpSock}, Open .established t → ¬FinTaken ⟨cutEnd c.sk.tcb.rcvNxt ps, f⟩
      (c.sk.unread ++ (stretch ps ++ f.bytes)) t := fun ho ht => by
    have := ho.state.symm.trans ht.state
    cases this
  by_cases hstart : c.sk.tcb.rcvNxt.toNat + 44477 < 2 ^ 32
  · obtain ⟨htiles, hend⟩ := cut_tiles (n := c.sk.tcb.rcvNxt) hne (by omega)
    have hb := pieceBytes_cut c.sk.tcb.rcvNxt ps
    have hbytes : pieceBytes (cut c.sk.tcb.rcvNxt ps ++ [⟨cutEnd c.sk.tcb.rcvNxt ps, f⟩]) = stretch ps ++ f.bytes := by
      rw [pieceBytes_append, hb]
      simp
    have hfull : ∀ x ∈ cut c.sk.tcb.rcvNxt ps, x.data.bytes ≠ [] := fun x hx => hne _ (cut_data hx)
    have hlen : (pieceBytes (cut c.sk.tcb.rcvNxt ps ++ [⟨cutEnd c.sk.tcb.rcvNxt ps, f⟩])).length ≤ 44477 := by
      rw [hbytes, List.length_append]
      exact hfit
    have hf : FinStretch c.sk.tcb.rcvNxt.toNat (cut c.sk.tcb.rcvNxt ps) ⟨cutEnd c.sk.tcb.rcvNxt ps, f⟩ :=
      ⟨htiles.concat hfull (by rw [hb]; exact hend), hlen, hstart, hfull⟩
    have hwaits : FinWaits c.sk.tcb.rcvNxt.toNat (cut c.sk.tcb.rcvNxt ps ++ [⟨cutEnd c.sk.tcb.rcvNxt ps, f⟩])
        c.sk.unread [] c.sk := by
      refine ⟨hopen, [], _, [], rfl, ⟨hf.tiles, ?_, rfl, ?_, ?_, by simp, by simp⟩, by simp, by simp⟩
      · exact Nat.lt_of_le_of_lt (Nat.add_le_add_left hlen _) hstart
      · simp [TcpSock.unread, TcpSock.core, TcpSock.rcv]
      · simp [TcpSock.core, TcpSock.rcv, hofo]
    by_cases hroom : c.sk.tcb.rcvNxt.toNat + (stretch ps).length + 44477 < 2 ^ 32
    · have hr := arrivals_keep (fun h hc ha hx => FinTracked.step hf (by rw [hend]; exact hroom) h hc ha hx) hes [] hack
        (.inl ⟨hwaits, not_finInTime_nil⟩)
      rw [List.nil_append, FinTracked, hbytes] at hr
      rcases hr with ⟨hw, hin⟩ | ⟨-, ht, hin⟩
      · exact iff_of_false (hnot hw.isOpen) fun h => hin h.2
      · exact iff_of_true ht ⟨hroom, hin⟩
    · have hr := arrivals_keep (fun h hc ha hx => FinBeyond.step hf (by rw [hend]; omega) h hc ha hx) hes [] hack
        (.inl hwaits)
      refine iff_of_false ?_ fun h => hroom h.1
      rcases hr with hw | hs
      · exact hnot hw.isOpen
      · exact hnot hs.1
  · have hr := arrivals_keep (P := fun _ t => Stuck t) (fun h _ _ _ => h.step) hes [] hack
      ⟨hopen, Nat.le_of_not_lt hstart⟩
    exact iff_of_false (hnot hr.1) fun h => hstart (by omega)

/-- The peer's last segment: two bytes and FIN. -/
def lastEvent : Event :=
  .segment { seq := 503, ackSeq := 101, ack := true, fin := true, win := 10000 } (.ofTake 2 [3, 4]) false

/-- The FIN comes last, and once more. -/
theorem fin_order_last : FinTaken ⟨503, ⟨[3, 4], by decide⟩⟩ [1, 2, 3, 4]
    (clientConn.run ([synAckEvent] ++ [dataEvent 501 ⟨[1, 2], by decide⟩, lastEvent, lastEvent])).sk := by
  have hn : (clientConn.run [synAckEvent]).sk.tcb.rcvNxt = 501 := by decide +kernel
  have hu : (clientConn.run [synAckEvent]).sk.unread = [] := by decide +kernel
  have h := @fin_order _ _ (.active {} 100) _ [dataEvent 501 ⟨[1, 2], by decide⟩, lastEvent, lastEvent] _
    (show clientConn.run [synAckEvent] = _ from rfl) (by decide +kernel) (by decide +kernel) (by decide +kernel)
    [⟨[1, 2], by decide⟩] ⟨[3, 4], by decide⟩ (by decide) (by decide) (by rw [hn]; decide +kernel) (by decide +kernel)
  rw [hn, hu] at h
  rw [Conn.run, Machine.run_append]
  exact h.mpr ⟨by decide, [⟨501, ⟨[1, 2], by decide⟩⟩], [⟨503, ⟨[3, 4], by decide⟩⟩], by decide, by decide, by decide⟩

/-- The FIN overtakes the data before it: all bytes are there, the FIN is not,
and sending its segment again does not bring it back. -/
theorem fin_overtaking_lost :
    let c := clientConn.run [synAckEvent]
    let after := (c.run [lastEvent, dataEvent 501 ⟨[1, 2], by decide⟩, lastEvent]).sk
    c.sk.state = .established ∧ c.sk.ofoQueue = [] ∧ after.unread = [1, 2, 3, 4] ∧ after.state = .established ∧
    ¬FinTaken ⟨503, ⟨[3, 4], by decide⟩⟩ [1, 2, 3, 4] after := by
  refine ⟨by decide +kernel, by decide +kernel, by decide +kernel, by decide +kernel, fun h => ?_⟩
  exact absurd h.state (by decide +kernel)

end LevelIp
