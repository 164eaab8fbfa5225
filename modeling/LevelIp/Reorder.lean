/-
Arrival order does not matter for data: whatever order the pieces of the next
stretch of the peer's stream come in, and however often, they end up in
`receive_queue` in their own order.

What is still to come is a list of pieces that tile the sequence space from
`rcv_nxt` on. The out-of-order queue is that list with the pieces not yet seen
left out; insertion keeps this, and the drain loop takes the longest seen
front of it.
-/
import LevelIp.Arrival
import LevelIp.Opening
import LevelIp.ReceiveStream

namespace LevelIp

/-- A piece of the peer's stream: its number and its bytes. -/
structure Piece where
  seq : U32
  data : Payload
deriving DecidableEq

/-- The piece an skb carries. -/
def Skb.piece (k : Skb) : Piece := ⟨k.seq, k.payload⟩

def Piece.len (x : Piece) : Nat := x.data.bytes.length

/-- The bytes of a run of pieces. -/
def pieceBytes (l : List Piece) : List U8 := l.flatMap (·.data.bytes)

/-- The pieces follow one another from number `n` on; only the last may be empty. -/
def Tiles : Nat → List Piece → Prop
  | _, [] => True
  | n, x :: l => x.seq.toNat = n ∧ (l ≠ [] → x.data.bytes ≠ []) ∧ Tiles (n + x.len) l

@[simp] theorem pieceBytes_nil : pieceBytes [] = [] := rfl

@[simp] theorem pieceBytes_cons (x : Piece) (l : List Piece) : pieceBytes (x :: l) = x.data.bytes ++ pieceBytes l := rfl

@[simp] theorem pieceBytes_append (l l' : List Piece) : pieceBytes (l ++ l') = pieceBytes l ++ pieceBytes l' :=
  List.flatMap_append

theorem queueBytes_eq (q : List Skb) : queueBytes q = pieceBytes (q.map Skb.piece) := by
  simp only [queueBytes, pieceBytes, List.flatMap_map]
  rfl

theorem Tiles.mem_le {n : Nat} {l : List Piece} (h : Tiles n l) {x : Piece} (hx : x ∈ l) :
    n ≤ x.seq.toNat ∧ x.seq.toNat + x.len ≤ n + (pieceBytes l).length := by
  induction l generalizing n with
  | nil => cases hx
  | cons y l ih =>
    rw [pieceBytes_cons, List.length_append]
    rcases List.mem_cons.mp hx with rfl | hx
    · rw [h.1]
      exact ⟨Nat.le_refl _, by rw [Piece.len]; omega⟩
    · have := ih h.2.2 hx
      rw [Piece.len] at this ⊢
      rw [Piece.len] at this
      omega

/-- What follows the first piece begins behind it. -/
theorem Tiles.tail_lt {n : Nat} {x y : Piece} {l : List Piece} (h : Tiles n (x :: l)) (hy : y ∈ l) :
    x.seq.toNat < y.seq.toNat ∧ x.seq.toNat + x.len ≤ y.seq.toNat := by
  have hp : 0 < x.len := List.length_pos_of_ne_nil (h.2.1 (List.ne_nil_of_mem hy))
  have := (h.2.2.mem_le hy).1
  rw [h.1]
  omega

theorem Tiles.append {n : Nat} {l l' : List Piece} (h : Tiles n (l ++ l')) : Tiles (n + (pieceBytes l).length) l' := by
  induction l generalizing n with
  | nil => simpa using h
  | cons x l ih =>
    have := ih h.2.2
    rwa [Piece.len, Nat.add_assoc, ← List.length_append] at this

theorem Tiles.left {n : Nat} {l l' : List Piece} (h : Tiles n (l ++ l')) : Tiles n l := by
  induction l generalizing n with
  | nil => trivial
  | cons x l ih => exact ⟨h.1, fun hl => h.2.1 (List.append_ne_nil_of_left_ne_nil hl l'), ih h.2.2⟩

theorem Tiles.nodup {n : Nat} {l : List Piece} (h : Tiles n l) : l.Nodup := by
  induction l generalizing n with
  | nil => exact .nil
  | cons x l ih =>
    refine List.nodup_cons.mpr ⟨fun hx => ?_, ih h.2.2⟩
    exact Nat.lt_irrefl _ (h.tail_lt hx).1

/-! ## The out-of-order queue -/

/-- Inserting a piece of the tiling. -/
theorem insert_pieces {n : Nat} {l : List Piece} (hl : Tiles n l) {q : List Skb} {p : Piece → Bool}
    (hq : q.map Skb.piece = l.filter p) {k : Skb} (hk : k.piece ∈ l)
    (he : k.endSeq.toNat = k.seq.toNat + k.payload.bytes.length) :
    (tcpDataInsertOrdered k q).map Skb.piece = l.filter fun y => p y || y = k.piece := by
  induction l generalizing n q with
  | nil => cases hk
  | cons x l ih =>
    by_cases hx : k.piece = x
    · -- the piece belongs in front
      have hrest : l.filter (fun y => p y || y = k.piece) = l.filter p := by
        refine List.filter_congr fun y hy => ?_
        have hne : y ≠ k.piece := fun h => Nat.lt_irrefl _ (by
          have := (hl.tail_lt hy).1
          rwa [h, hx] at this)
        simp [hne]
      rw [List.filter_cons, if_pos (by simp [hx]), hrest]
      cases hp : p x with
      | true =>
        rw [List.filter_cons, if_pos hp] at hq
        obtain ⟨k', q', rfl, hk', hq'⟩ := List.map_eq_cons_iff.mp hq
        have hseq : k.seq = k'.seq := by rw [← hx] at hk'; exact (congrArg Piece.seq hk').symm
        rw [tcpDataInsertOrdered, if_neg (by rw [hseq]; exact BitVec.lt_irrefl _), if_pos hseq]
        simp [hk', hq']
      | false =>
        rw [List.filter_cons, if_neg (by simp [hp])] at hq
        cases q with
        | nil => simp [tcpDataInsertOrdered, hx, ← hq]
        | cons k' q' =>
          have hm : k'.piece ∈ l.filter p := by rw [← hq]; exact List.mem_cons_self
          have hm : k'.piece ∈ l := (List.mem_filter.mp hm).1
          have hlt := hl.tail_lt hm
          rw [← hx] at hlt
          have h1 : k.seq < k'.seq := hlt.1
          have h2 : ¬k.endSeq > k'.seq := by
            rw [gt_iff_lt, BitVec.lt_def, he, Nat.not_lt]
            exact hlt.2
          rw [tcpDataInsertOrdered, if_pos h1, if_neg h2]
          simp [hx, ← hq]
    · -- it belongs further on
      have hk : k.piece ∈ l := (List.mem_cons.mp hk).resolve_left hx
      rw [List.filter_cons]
      cases hp : p x with
      | true =>
        rw [List.filter_cons, if_pos hp] at hq
        obtain ⟨k', q', rfl, hk', hq'⟩ := List.map_eq_cons_iff.mp hq
        have hgt : k'.seq.toNat < k.seq.toNat := by
          have := (hl.tail_lt hk).1
          rwa [← hk'] at this
        have h1 : ¬k.seq < k'.seq := by rw [BitVec.lt_def]; omega
        have h2 : ¬k.seq = k'.seq := fun h => by rw [h] at hgt; exact Nat.lt_irrefl _ hgt
        rw [tcpDataInsertOrdered, if_neg h1, if_neg h2]
        simp [hk', ih hl.2.2 hq' hk]
      | false =>
        rw [List.filter_cons, if_neg (by simp [hp])] at hq
        rw [ih hl.2.2 hq hk, if_neg (by simp [Ne.symm hx])]

/-- The drain loop takes the longest front of the tiling that has been seen. -/
theorem drain_pieces {n : U32} {l : List Piece} (hl : Tiles n.toNat l) (hend : n.toNat + (pieceBytes l).length < 2 ^ 32)
    {q : List Skb} {p : Piece → Bool} (hq : q.map Skb.piece = l.filter p) :
    (ofoDrain n q).2.1.map Skb.piece = l.takeWhile p ∧
    (ofoDrain n q).2.2.map Skb.piece = (l.dropWhile p).filter p ∧
    (ofoDrain n q).1.toNat = n.toNat + (pieceBytes (l.takeWhile p)).length := by
  induction l generalizing n q with
  | nil =>
    obtain rfl : q = [] := by simpa using hq
    simp [ofoDrain]
  | cons x l ih =>
    cases hp : p x with
    | true =>
      rw [List.filter_cons, if_pos hp] at hq
      obtain ⟨k, q', rfl, hk, hq'⟩ := List.map_eq_cons_iff.mp hq
      have hseq : n = k.seq := BitVec.eq_of_toNat_eq (by rw [← hl.1, ← hk]; rfl)
      have hlen : k.payload.bytes.length = x.len := by rw [← hk]; rfl
      rw [pieceBytes_cons, List.length_append] at hend
      have hn : (n + k.dlen).toNat = n.toNat + x.len := by
        rw [BitVec.toNat_add, Skb.dlen, Payload.len_toNat, hlen]
        rw [Piece.len]
        omega
      obtain ⟨h1, h2, h3⟩ := ih (n := n + k.dlen) (hn ▸ hl.2.2) (by rw [hn, Piece.len]; omega) hq'
      rw [ofoDrain, if_pos hseq]
      simp only [List.takeWhile_cons, List.dropWhile_cons, hp, if_true, List.map_cons, h1, h2, hk, pieceBytes_cons,
        List.length_append, true_and]
      rw [h3, hn, Piece.len]
      omega
    | false =>
      rw [List.filter_cons, if_neg (by simp [hp])] at hq
      have hstop : ofoDrain n q = (n, [], q) := by
        cases q with
        | nil => rfl
        | cons k q =>
          have hm : k.piece ∈ l.filter p := by rw [← hq]; exact List.mem_cons_self
          have hm : k.piece ∈ l := (List.mem_filter.mp hm).1
          have hne : ¬n = k.seq := fun h => by
            have := (hl.tail_lt hm).1
            rw [hl.1, h] at this
            exact Nat.lt_irrefl _ this
          rw [ofoDrain, if_neg hne]
      rw [hstop]
      simp [hp, hq]

/-! ## Reassembly -/

/-- The pieces `pre` have been put before the reader, after the bytes `before`;
of `post` the seen ones wait in the out-of-order queue, and the next is not seen. -/
structure Reassembles (n : Nat) (pre post : List Piece) (before : List U8) (seen : List Piece) (r : RcvSide) : Prop where
  tiles : Tiles n (pre ++ post)
  short : n + (pieceBytes (pre ++ post)).length < 2 ^ 32
  nxt : r.nxt.toNat = n + (pieceBytes pre).length
  bytes : queueBytes r.queue = before ++ pieceBytes pre
  ofo : r.ofo.map Skb.piece = post.filter (· ∈ seen)
  next : ∀ x ∈ post.head?, x ∉ seen
  got : ∀ x ∈ pre, x ∈ seen

namespace Reassembles

variable {n : Nat} {pre post : List Piece} {before : List U8} {seen : List Piece} {r : RcvSide}

theorem tiles_post (h : Reassembles n pre post before seen r) : Tiles r.nxt.toNat post := by
  rw [h.nxt]
  exact h.tiles.append

theorem end_post (h : Reassembles n pre post before seen r) : r.nxt.toNat + (pieceBytes post).length < 2 ^ 32 := by
  have := h.short
  rw [pieceBytes_append, List.length_append] at this
  rw [h.nxt]
  omega

/-- Seeing again a piece that is no longer to come. -/
theorem again (h : Reassembles n pre post before seen r) {x : Piece} (hx : x ∉ post) :
    Reassembles n pre post before (x :: seen) r where
  tiles := h.tiles
  short := h.short
  nxt := h.nxt
  bytes := h.bytes
  ofo := by
    rw [h.ofo]
    refine List.filter_congr fun y hy => ?_
    have hne : y ≠ x := fun hyx => hx (hyx ▸ hy)
    simp [hne]
  next := by
    intro y hy
    have hne : y ≠ x := fun hyx => hx (hyx ▸ List.mem_of_mem_head? hy)
    simpa [hne] using h.next y hy
  got := fun y hy => List.mem_cons_of_mem _ (h.got y hy)

/-- A piece that is read past is not to come. -/
theorem not_mem_post (h : Reassembles n pre post before seen r) {x : Piece} (hx : x ∈ pre) : x ∉ post :=
  fun hp => (List.nodup_append.mp h.tiles.nodup).2.2 x hx x hp rfl

/-- The piece that is due, with all it lets out. -/
theorem push (h : Reassembles n pre post before seen r) {k : Skb} {rest : List Piece} (hp : post = k.piece :: rest) :
    ∃ pre' post', pre ++ post = pre' ++ post' ∧ k.piece ∈ pre' ∧ (∀ x ∈ pre, x ∈ pre') ∧
      Reassembles n pre' post' before (k.piece :: seen) (r.push k) := by
  subst hp
  have ht := h.tiles_post
  have he := h.end_post
  rw [pieceBytes_cons, List.length_append] at he
  have hn : (r.nxt + k.dlen).toNat = r.nxt.toNat + k.piece.len := by
    rw [BitVec.toNat_add, Skb.dlen, Payload.len_toNat, Piece.len]
    exact Nat.mod_eq_of_lt (Nat.lt_of_le_of_lt (Nat.add_le_add_left (Nat.le_add_right _ _) _) he)
  have hofo : r.ofo.map Skb.piece = rest.filter (· ∈ seen) := by
    rw [h.ofo, List.filter_cons, if_neg (by simpa using h.next k.piece rfl)]
  obtain ⟨h1, h2, h3⟩ := drain_pieces (n := r.nxt + k.dlen) (hn ▸ ht.2.2)
    (by rw [hn]; exact (Nat.add_assoc _ _ _).trans_lt he) hofo
  have hsplit : rest.takeWhile (· ∈ seen) ++ rest.dropWhile (· ∈ seen) = rest := List.takeWhile_append_dropWhile
  have hk : k.piece ∉ rest.dropWhile (· ∈ seen) := fun hm =>
    (List.nodup_cons.mp ht.nodup).1 ((List.dropWhile_sublist _).subset hm)
  have heq : pre ++ k.piece :: rest =
      (pre ++ k.piece :: rest.takeWhile (· ∈ seen)) ++ rest.dropWhile (· ∈ seen) := by
    rw [List.append_assoc, List.cons_append, hsplit]
  have hfilter : (rest.dropWhile (· ∈ seen)).filter (· ∈ k.piece :: seen) = (rest.dropWhile (· ∈ seen)).filter (· ∈ seen) := by
    refine List.filter_congr fun y hy => ?_
    have hne : y ≠ k.piece := fun hyk => hk (hyk ▸ hy)
    simp [hne]
  refine ⟨_, _, heq, by simp, fun x hx => List.mem_append_left _ hx, heq ▸ h.tiles, heq ▸ h.short, ?_, ?_, ?_, ?_, ?_⟩
  · rw [RcvSide.push]
    dsimp only
    rw [h3, hn, h.nxt]
    simp only [pieceBytes_append, pieceBytes_cons, List.length_append, Piece.len]
    omega
  · rw [RcvSide.push_queue, queueBytes_append, queueBytes_append, h.bytes, queueBytes_eq, queueBytes_eq, h1]
    simp
  · rw [RcvSide.push_ofo, h2, hfilter]
  · intro x hx
    have hnot := List.head?_dropWhile_not (· ∈ seen) rest
    rw [Option.mem_def.mp hx] at hnot
    have hne : x ≠ k.piece := fun hxk => hk (hxk ▸ List.mem_of_mem_head? hx)
    simpa [hne] using hnot
  · intro x hx
    rcases List.mem_append.mp hx with hx | hx
    · exact List.mem_cons_of_mem _ (h.got x hx)
    · rcases List.mem_cons.mp hx with rfl | hx
      · exact List.mem_cons_self
      · exact List.mem_cons_of_mem _ (by simpa using List.mem_takeWhile_imp hx)

/-- A piece that is not due waits. -/
theorem insert (h : Reassembles n pre post before seen r) {k : Skb} (hk : k.piece ∈ post) (hne : k.seq ≠ r.nxt)
    (he : k.endSeq.toNat = k.seq.toNat + k.payload.bytes.length) :
    Reassembles n pre post before (k.piece :: seen) (r.insert k) where
  tiles := h.tiles
  short := h.short
  nxt := h.nxt
  bytes := h.bytes
  ofo := by
    rw [RcvSide.insert, insert_pieces h.tiles_post h.ofo hk he]
    refine List.filter_congr fun y _ => ?_
    simp [or_comm]
  next := by
    intro y hy
    obtain ⟨rest, hp⟩ : ∃ rest, post = y :: rest := List.head?_eq_some_iff.mp hy
    have hyn : y.seq = r.nxt := BitVec.eq_of_toNat_eq (by
      have := h.tiles_post
      rw [hp] at this
      exact this.1)
    have hyk : y ≠ k.piece := fun e => hne (by rw [← hyn, e]; rfl)
    simpa [hyk] using h.next y hy
  got := fun y hy => List.mem_cons_of_mem _ (h.got y hy)

/-- A piece whose number is `rcv_nxt` is the one that is due. -/
theorem due (h : Reassembles n pre post before seen r) {x : Piece} (hx : x ∈ post) (hs : x.seq = r.nxt) :
    ∃ rest, post = x :: rest := by
  cases post with
  | nil => cases hx
  | cons y rest =>
    rcases List.mem_cons.mp hx with rfl | hx
    · exact ⟨rest, rfl⟩
    · have ht := h.tiles_post
      have hlt := (ht.tail_lt hx).1
      rw [ht.1, hs] at hlt
      exact absurd hlt (Nat.lt_irrefl _)

/-- `tcp_data_queue` on a piece that is to come. -/
theorem take (h : Reassembles n pre post before seen r) (hw : r.wnd ≠ 0) {k : Skb} (hk : k.piece ∈ post)
    (he : k.endSeq.toNat = k.seq.toNat + k.payload.bytes.length) :
    ∃ pre' post', pre ++ post = pre' ++ post' ∧ (∀ x ∈ pre, x ∈ pre') ∧
      Reassembles n pre' post' before (k.piece :: seen) (r.take k) := by
  rw [RcvSide.take, if_neg hw]
  split
  next hs =>
    obtain ⟨rest, hp⟩ := h.due hk hs
    obtain ⟨pre', post', h1, -, h2, h3⟩ := h.push hp
    exact ⟨pre', post', h1, h2, h3⟩
  next hs => exact ⟨pre, post, rfl, fun _ hx => hx, h.insert hk hs he⟩

end Reassembles

theorem verify_iff {r : RcvSide} {th : Tcphdr} {skb : Skb} (hw : r.wnd ≠ 0) :
    r.verify th skb = true ↔ r.nxt ≤ th.seq ∧ th.seq ≤ r.nxt + r.wnd := by
  simp only [RcvSide.verify, hw, decide_false, Bool.and_false, Bool.not_false, Bool.true_and, Bool.not_or,
    Bool.and_eq_true, Bool.not_eq_true', decide_eq_false_iff_not, BitVec.not_lt, gt_iff_lt]

/-- The receive window as `tcp_select_initial_window` sets it, the ACK number
acceptable, and room before 2^32. -/
structure Hears (s : TcpSock) (th : Tcphdr) : Prop where
  wnd : s.core.rcv.wnd = 44477
  room : s.core.rcv.nxt.toNat + 44477 < 2 ^ 32
  state : s.state = .established
  rst : th.rst = false
  syn : th.syn = false
  ack : th.ack = true
  ackOk : s.core.snd.AckOk th

section
variable {n : Nat} {pre post : List Piece} {before : List U8} {seen : List Piece} {s : TcpSock} {th : Tcphdr}
  {data : Payload} (psh : Bool)

theorem Hears.wnd_ne (h : Hears s th) : s.core.rcv.wnd ≠ 0 := by
  rw [h.wnd]
  decide

/-- A piece that is to come is heard. -/
theorem Hears.heard (h : Hears s th) (hr : Reassembles n pre post before seen s.core.rcv)
    (hfit : (pieceBytes (pre ++ post)).length ≤ 44477) (hx : ⟨th.seq, data⟩ ∈ post) :
    s.core.Heard th (tcpInitSegment th data psh) := by
  have hm := hr.tiles_post.mem_le hx
  have hlen : (pieceBytes post).length ≤ 44477 := by
    rw [pieceBytes_append, List.length_append] at hfit
    omega
  have hroom := h.room
  have hv : s.core.rcv.verify th (tcpInitSegment th data psh) = true := by
    rw [verify_iff h.wnd_ne, h.wnd, BitVec.le_def, BitVec.le_def, BitVec.toNat_add]
    have h44 : (44477 : U32).toNat = 44477 := rfl
    rw [h44, Nat.mod_eq_of_lt hroom]
    dsimp only at hm
    omega
  simp [Core.Heard, hv, h.rst, h.syn, h.ack]

/-- A piece that has bytes and was put before the reader is not acceptable again. -/
theorem Reassembles.unheard (hr : Reassembles n pre post before seen s.core.rcv) (hw : s.core.rcv.wnd ≠ 0)
    (hx : ⟨th.seq, data⟩ ∈ pre) (hd : data.bytes ≠ []) : s.core.rcv.verify th (tcpInitSegment th data psh) = false := by
  have hm := hr.tiles.left.mem_le hx
  have hp : 0 < data.bytes.length := List.length_pos_of_ne_nil hd
  rw [← Bool.not_eq_true, verify_iff hw, BitVec.le_def, hr.nxt]
  rw [Piece.len] at hm
  dsimp only at hm
  omega

theorem not_dupack {skb : Skb} (h : skb.dlen ≠ 0 ∨ th.fin) : tcpIsDupack s th skb = false := by
  rcases h with h | h
  · simp only [tcpIsDupack, h, decide_false, Bool.and_false, Bool.false_and]
  · simp [tcpIsDupack, h]

/-- **One arrival** of a piece with bytes and without FIN. -/
theorem Reassembles.arrive (h : Hears s th) (hr : Reassembles n pre post before seen s.core.rcv)
    (hfit : (pieceBytes (pre ++ post)).length ≤ 44477) (hx : ⟨th.seq, data⟩ ∈ pre ++ post) (hd : data.bytes ≠ [])
    (hf : th.fin = false ∨ ⟨th.seq, data⟩ ∈ pre ∨ th.seq ≠ s.core.rcv.nxt) :
    ∃ d r pre' post', (segmentArrives s th (tcpInitSegment th data psh)).core = { s.core with rcv := r, snd := d } ∧
      r.wnd = s.core.rcv.wnd ∧ pre ++ post = pre' ++ post' ∧ (∀ x ∈ pre, x ∈ pre') ∧
      Reassembles n pre' post' before (⟨th.seq, data⟩ :: seen) r := by
  rcases List.mem_append.mp hx with hx | hx
  · refine ⟨_, _, pre, post, segmentArrives_unheard (.inl h.state) (hr.unheard psh h.wnd_ne hx hd), rfl, rfl,
      fun _ hx => hx, hr.again (hr.not_mem_post hx)⟩
  · have hlen : (tcpInitSegment th data psh).dlen ≠ 0 := fun h0 => hd (Payload.len_eq_zero.mp h0)
    obtain ⟨d, hc⟩ := segmentArrives_heard h.state (h.heard psh hr hfit hx) (not_dupack (.inl hlen)) h.ackOk
    have hnofin : ¬(th.fin = true ∧ (tcpInitSegment th data psh).seq = s.core.rcv.nxt) := by
      rintro ⟨h1, h2⟩
      rcases hf with hf | hf | hf
      · rw [hf] at h1; cases h1
      · exact hr.not_mem_post hf hx
      · exact hf h2
    have htext : s.core.rcv.text th (tcpInitSegment th data psh) = s.core.rcv.take (tcpInitSegment th data psh) := by
      have hpos : (tcpInitSegment th data psh).dlen > 0 := by bv_omega
      rw [RcvSide.text, if_pos (by simp only [hpos, decide_true, Bool.or_true])]
    have he : (tcpInitSegment th data psh).endSeq.toNat = th.seq.toNat + data.bytes.length := by
      have hm := hr.tiles_post.mem_le hx
      have hs := hr.end_post
      rw [Piece.len] at hm
      dsimp only at hm
      simp only [tcpInitSegment, BitVec.toNat_add, Payload.len_toNat]
      exact Nat.mod_eq_of_lt (Nat.lt_of_le_of_lt hm.2 hs)
    obtain ⟨pre', post', h1, h2, h3⟩ := hr.take h.wnd_ne (k := tcpInitSegment th data psh) hx he
    rw [Core.hear, if_neg hnofin, htext] at hc
    refine ⟨d, _, pre', post', hc, ?_, h1, h2, h3⟩
    rw [RcvSide.take]
    split
    · rfl
    · split <;> rfl

end

/-! ## Runs of arrivals -/

/-- A stretch of the stream from number `n` on, cut up. -/
def cut (n : U32) : List Payload → List Piece
  | [] => []
  | p :: ps => ⟨n, p⟩ :: cut (n + p.len) ps

/-- The number after the stretch. -/
def cutEnd (n : U32) (ps : List Payload) : U32 := ps.foldl (fun n p => n + p.len) n

/-- The bytes of the stretch. -/
def stretch (ps : List Payload) : List U8 := ps.flatMap (·.bytes)

theorem pieceBytes_cut (n : U32) (ps : List Payload) : pieceBytes (cut n ps) = stretch ps := by
  induction ps generalizing n with
  | nil => rfl
  | cons p ps ih =>
    rw [cut, pieceBytes_cons, ih]
    rfl

theorem cut_data {n : U32} {ps : List Payload} {x : Piece} (h : x ∈ cut n ps) : x.data ∈ ps := by
  induction ps generalizing n with
  | nil => cases h
  | cons p ps ih =>
    rcases List.mem_cons.mp h with rfl | h
    · exact List.mem_cons_self
    · exact List.mem_cons_of_mem _ (ih h)

/-- A stretch that does not wrap is tiled by its pieces, which end at `cutEnd`. -/
theorem cut_tiles {n : U32} {ps : List Payload} (hne : ∀ p ∈ ps, p.bytes ≠ [])
    (hlt : n.toNat + (stretch ps).length < 2 ^ 32) :
    Tiles n.toNat (cut n ps) ∧ (cutEnd n ps).toNat = n.toNat + (stretch ps).length := by
  induction ps generalizing n with
  | nil => exact ⟨trivial, rfl⟩
  | cons p ps ih =>
    have hs : (stretch (p :: ps)).length = p.bytes.length + (stretch ps).length := List.length_append
    rw [hs] at hlt ⊢
    have hn : (n + p.len).toNat = n.toNat + p.bytes.length := by
      rw [BitVec.toNat_add, Payload.len_toNat]
      omega
    obtain ⟨h1, h2⟩ := ih (n := n + p.len) (fun q hq => hne q (List.mem_cons_of_mem _ hq)) (by omega)
    refine ⟨⟨rfl, fun _ => hne p List.mem_cons_self, ?_⟩, h2.trans (by omega)⟩
    rw [hn] at h1
    exact h1

/-- The piece a segment carries. -/
def Event.piece : Event → Option Piece
  | .segment th data _ => some ⟨th.seq, data⟩
  | _ => none

/-- A segment with ACK number `a` and no other control bit than ACK and PSH. -/
def Event.Plain (a : U32) : Event → Prop
  | .segment th _ _ => th.syn = false ∧ th.fin = false ∧ th.rst = false ∧ th.ack = true ∧ th.ackSeq = a
  | _ => False

/-- The ACK number is acceptable when the segment arrives. -/
def AckAcceptable (c : Conn) : Event → Prop
  | .segment th _ _ => c.sk.core.snd.AckOk th
  | _ => True

instance (a : U32) (e : Event) : Decidable (e.Plain a) :=
  match e with
  | .segment .. | .write _ | .read _ | .close | .abort | .resume _ | .dispatch _ | .handler _ | .tick _ | .fcntl _
  | .adjustPmtu6 _ => by unfold Event.Plain; infer_instance

instance (c : Conn) (e : Event) : Decidable (AckAcceptable c e) :=
  match e with
  | .segment .. | .write _ | .read _ | .close | .abort | .resume _ | .dispatch _ | .handler _ | .tick _ | .fcntl _
  | .adjustPmtu6 _ => by unfold AckAcceptable; infer_instance

theorem Move.rcvWnd {a : Act} {c c' : Core} {es : List Effect} (hm : Move a c es c') : c'.rcv.wnd = c.rcv.wnd := by
  cases hm <;> rfl

/-- `rcv_wnd` never changes. -/
theorem Opened.rcvWnd {iss : U32} {s : TcpSock} (ho : Opened iss s) (es : List Event) :
    (Conn.run { sk := s } es).sk.core.rcv.wnd = 44477 := by
  refine Conn.run_keeps_all (I := fun c _ => c.rcv.wnd = 44477) (fun hm h => hm.rcvWnd.trans h) es
    (Conn.ready_of_no_calls s) ?_
  cases ho with
  | active o iss => rw [activeOpen_core]; rfl
  | passive _ hl => rw [(tcpListen_core hl).1]; rfl

/-- A run of arrivals of the pieces of a stretch, in any order. -/
theorem arrivals_reassemble {n : Nat} {l : List Piece} {before : List U8} {a : U32} {es : List Event}
    (hfit : (pieceBytes l).length ≤ 44477) (hroom : n + (pieceBytes l).length + 44477 < 2 ^ 32)
    (hne : ∀ x ∈ l, x.data.bytes ≠ []) {c : Conn} {pre post seen : List Piece} (hl : l = pre ++ post)
    (hwnd : c.sk.core.rcv.wnd = 44477) (hst : c.sk.state = .established) (hlive : c.sk.fault = false)
    (hr : Reassembles n pre post before seen c.sk.core.rcv)
    (hes : ∀ e ∈ es, e.Plain a ∧ ∃ x ∈ l, e.piece = some x) (hack : Conn.Meets AckAcceptable c es) :
    ∃ pre' post' seen', l = pre' ++ post' ∧ (∀ x ∈ seen, x ∈ seen') ∧ (∀ e ∈ es, ∀ x, e.piece = some x → x ∈ seen') ∧
      Reassembles n pre' post' before seen' (c.run es).sk.core.rcv := by
  induction es generalizing c pre post seen with
  | nil => exact ⟨pre, post, seen, hl, fun _ h => h, fun _ h => (List.not_mem_nil h).elim, hr⟩
  | cons e es ih =>
    obtain ⟨hpl, x, hx, hxe⟩ := hes e List.mem_cons_self
    cases e with
    | segment th data psh =>
      obtain ⟨hsyn, hfin, hrst, hackb, -⟩ := hpl
      obtain rfl : ⟨th.seq, data⟩ = x := Option.some.inj hxe
      have hlen : (pieceBytes pre).length ≤ (pieceBytes l).length := by
        rw [hl, pieceBytes_append, List.length_append]
        exact Nat.le_add_right _ _
      have hh : Hears c.sk th := ⟨hwnd, by rw [hr.nxt]; omega, hst, hrst, hsyn, hackb, hack.1⟩
      subst hl
      obtain ⟨d, r, pre', post', hc, hw, hl', -, hr'⟩ := hr.arrive psh hh hfit hx (hne _ hx) (.inl hfin)
      have hstep : c.step (.segment th data psh) =
          { c with sk := segmentArrives c.sk th (tcpInitSegment th data psh) } := by
        rw [Conn.step, if_neg (by simp [hlive])]
      have hc' : (c.step (.segment th data psh)).sk.core = { c.sk.core with rcv := r, snd := d } := by
        rw [hstep]
        exact hc
      obtain ⟨pre'', post'', seen', h1, h2, h3, h4⟩ := ih (c := c.step (.segment th data psh)) hl'
        (by rw [hc']; exact hw.trans hwnd) ((congrArg Core.state hc').trans hst)
        ((congrArg Core.fault hc').trans hlive) (by rw [hc']; exact hr')
        (fun e he => hes e (List.mem_cons_of_mem _ he)) hack.2
      refine ⟨pre'', post'', seen', h1, fun y hy => h2 y (List.mem_cons_of_mem _ hy), fun e he y hy => ?_, h4⟩
      rcases List.mem_cons.mp he with rfl | he
      · exact h2 y ((Option.some.inj hy) ▸ List.mem_cons_self)
      · exact h3 e he y hy
    | _ => exact hpl.elim

/-- **Receive order independence.** On an ESTABLISHED connection with an empty
out-of-order queue, let the pieces of the next stretch of the stream arrive in
any order and any number of times, each at least once, with one acceptable ACK
number: `rcv_nxt` is the end of the stretch, `ofo_queue` is empty and
`receive_queue` has grown by exactly its bytes. -/
theorem receive_order_independent {iss a : U32} {s : TcpSock} (ho : Opened iss s) {hist es : List Event} {c : Conn}
    (hc : c = Conn.run { sk := s } hist) (hlive : c.sk.fault = false) (hst : c.sk.state = .established)
    (hofo : c.sk.ofoQueue = []) {ps : List Payload} (hne : ∀ p ∈ ps, p.bytes ≠ []) (hfit : (stretch ps).length ≤ 44477)
    (hwrap : c.sk.tcb.rcvNxt.toNat + (stretch ps).length + 44477 < 2 ^ 32)
    (hes : ∀ e ∈ es, e.Plain a ∧ ∃ x ∈ cut c.sk.tcb.rcvNxt ps, e.piece = some x)
    (hall : ∀ x ∈ cut c.sk.tcb.rcvNxt ps, ∃ e ∈ es, e.piece = some x) (hack : Conn.Meets AckAcceptable c es) :
    (c.run es).sk.tcb.rcvNxt = cutEnd c.sk.tcb.rcvNxt ps ∧ (c.run es).sk.ofoQueue = [] ∧
    (c.run es).sk.unread = c.sk.unread ++ stretch ps := by
  obtain ⟨htiles, hend⟩ := cut_tiles (n := c.sk.tcb.rcvNxt) hne (by omega)
  have hb := pieceBytes_cut c.sk.tcb.rcvNxt ps
  have hwnd : c.sk.core.rcv.wnd = 44477 := by
    rw [hc]
    exact ho.rcvWnd hist
  have hr : Reassembles c.sk.tcb.rcvNxt.toNat [] (cut c.sk.tcb.rcvNxt ps) c.sk.unread [] c.sk.core.rcv := by
    refine ⟨htiles, by rw [List.nil_append, hb]; omega, rfl, by simp [TcpSock.unread, TcpSock.core, TcpSock.rcv], ?_,
      by simp, by simp⟩
    simp [TcpSock.core, TcpSock.rcv, hofo]
  obtain ⟨pre, post, seen, hl, -, hseen, h⟩ := arrivals_reassemble (by rw [hb]; exact hfit) (by rw [hb]; omega)
    (fun x hx => hne _ (cut_data hx)) rfl hwnd hst hlive hr hes hack
  -- every piece has been seen, so none is due
  have hpost : post = [] := by
    cases post with
    | nil => rfl
    | cons x post =>
      obtain ⟨e, he, hx⟩ := hall x (by rw [hl]; simp)
      exact absurd (hseen e he x hx) (h.next x rfl)
  subst hpost
  rw [List.append_nil] at hl
  refine ⟨BitVec.eq_of_toNat_eq ?_, ?_, ?_⟩
  · rw [hend, ← hb, hl]
    exact h.nxt
  · exact List.map_eq_nil_iff.mp h.ofo
  · rw [← hb, hl]
    exact h.bytes

/-- Two pieces of a stretch, and the second before, after and once more. -/
def stretchPieces : List Payload := [.ofTake 2 [1, 2], .ofTake 2 [3, 4]]

def shuffledRun : List Event :=
  [dataEvent 503 (.ofTake 2 [3, 4]), dataEvent 503 (.ofTake 2 [3, 4]), dataEvent 501 (.ofTake 2 [1, 2]),
    dataEvent 503 (.ofTake 2 [3, 4])]

theorem receive_order_independent_shuffled :
    let c := clientConn.run [synAckEvent]
    c.sk.state = .established ∧ (c.run shuffledRun).sk.tcb.rcvNxt = cutEnd 501 stretchPieces ∧
    (c.run shuffledRun).sk.ofoQueue = [] ∧ (c.run shuffledRun).sk.unread = [] ++ stretch stretchPieces := by
  have hst : (clientConn.run [synAckEvent]).sk.state = .established := by decide +kernel
  have hn : (clientConn.run [synAckEvent]).sk.tcb.rcvNxt = 501 := by decide +kernel
  have hu : (clientConn.run [synAckEvent]).sk.unread = [] := by decide +kernel
  have h := @receive_order_independent _ 101 _ (.active {} 100) _ shuffledRun _
    (show clientConn.run [synAckEvent] = _ from rfl) (by decide +kernel) hst (by decide +kernel) stretchPieces
    (by decide +kernel) (by decide +kernel) (by rw [hn]; decide +kernel) (by rw [hn]; decide +kernel)
    (by rw [hn]; decide +kernel) (by decide +kernel)
  rw [hn, hu] at h
  exact ⟨hst, h⟩

end LevelIp
