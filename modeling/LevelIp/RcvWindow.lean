/-
The receive window: what `real_rcv_wnd` counts, what goes on the wire, and how
much a peer can make the socket hold.

`decrease_recv_win` is called for the segment that arrives in sequence and not
for those `tcp_consume_ofo_queue` moves behind it, so every drained byte stays
in the advertised window for good. And nothing compares an arrival with the
window: `tcp_verify_segment` tests the first sequence number against the
constant `rcv_wnd`.
-/
import LevelIp.Opening
import LevelIp.ReceiveStream

namespace LevelIp

/-- What an in-sequence segment lets out of the out-of-order queue. -/
def RcvSide.drained (r : RcvSide) (skb : Skb) : List U8 := queueBytes (ofoDrain (r.nxt + skb.dlen) r.ofo).2.1

/-- The payload held for the reader. -/
def RcvSide.unread (r : RcvSide) : Nat := (queueBytes r.queue).length

/-- The payload held in both queues. -/
def RcvSide.held (r : RcvSide) : Nat := (queueBytes r.queue).length + (queueBytes r.ofo).length

/-! ## The receive side under its operations -/

theorem ofoDrain_bytes (nxt : U32) (q : List Skb) :
    queueBytes (ofoDrain nxt q).2.1 ++ queueBytes (ofoDrain nxt q).2.2 = queueBytes q := by
  induction q generalizing nxt with
  | nil => rfl
  | cons k q ih =>
    rw [ofoDrain]
    split
    · simp [ih]
    · rfl

theorem push_unread (r : RcvSide) (skb : Skb) :
    (r.push skb).unread = r.unread + skb.dlen.toNat + (r.drained skb).length := by
  simp [RcvSide.push_queue, RcvSide.unread, RcvSide.drained, Skb.dlen, Nat.add_assoc]

theorem push_held (r : RcvSide) (skb : Skb) : (r.push skb).held = r.held + skb.dlen.toNat := by
  have h := congrArg List.length (ofoDrain_bytes (r.nxt + skb.dlen) r.ofo)
  rw [List.length_append] at h
  simp only [RcvSide.push_queue, RcvSide.push_ofo, RcvSide.held, queueBytes_append, queueBytes_cons, queueBytes_nil, List.append_nil,
    List.length_append]
  simp only [Skb.dlen, Payload.len_toNat] at h ⊢
  omega

theorem dequeue_unread (r : RcvSide) (n : Nat) :
    (r.dequeue n).unread + (dequeueLoop n r.queue).1.length = r.unread := by
  have h := congrArg List.length (dequeueLoop_bytes n r.queue)
  rw [List.length_append] at h
  rw [RcvSide.unread, RcvSide.unread, RcvSide.dequeue_queue]
  omega

/-- A read gives the window exactly the bytes it takes. -/
theorem dequeue_realWnd {r : RcvSide} (n : Nat) (h : r.realWnd.toNat + r.unread < 2 ^ 32) :
    (r.dequeue n).realWnd.toNat + (r.dequeue n).unread = r.realWnd.toNat + r.unread := by
  have hu := dequeue_unread r n
  have hw : (r.dequeue n).realWnd.toNat = r.realWnd.toNat + (dequeueLoop n r.queue).1.length := by
    simp only [RcvSide.dequeue, BitVec.toNat_add, BitVec.toNat_ofNat]
    omega
  omega

/-- An in-sequence segment takes its own length from the window and puts its own
length and what it drains before the reader. -/
theorem push_realWnd {r : RcvSide} {skb : Skb} (h : skb.dlen ≤ r.realWnd) :
    (r.push skb).realWnd.toNat + (r.push skb).unread = r.realWnd.toNat + r.unread + (r.drained skb).length := by
  have hu := push_unread r skb
  have hw : (r.push skb).realWnd.toNat = r.realWnd.toNat - skb.dlen.toNat := BitVec.toNat_sub_of_le h
  have hle : skb.dlen.toNat ≤ r.realWnd.toNat := h
  omega

/-! ## The window is the free space -/

/-- The step queues no in-sequence segment that drains bytes from `ofo_queue`,
or that is longer than `real_rcv_wnd`. -/
def WindowOk (c : Conn) : Event → Prop
  | .segment th data psh =>
    let skb := tcpInitSegment th data psh
    c.sk.core.Accepts th skb → th.seq = c.sk.tcb.rcvNxt →
      data.len ≤ c.sk.tcb.realRcvWnd ∧ c.sk.rcv.drained skb = []
  | .write _ | .read _ | .close | .abort | .resume _ | .dispatch _ | .handler _ | .tick _ | .fcntl _
  | .adjustPmtu6 _ => True

instance (c : Conn) (e : Event) : Decidable (WindowOk c e) :=
  match e with
  | .segment .. | .write _ | .read _ | .close | .abort | .resume _ | .dispatch _ | .handler _ | .tick _ | .fcntl _
  | .adjustPmtu6 _ => by unfold WindowOk; infer_instance

/-- A segment that went out with `unread` bytes queued shows the free space,
shifted unless it is a SYN. -/
def ShowsFree (scale : U8) (seg : Seg) (unread : Nat) : Prop :=
  unread ≤ 44477 ∧ seg.win.toNat = (44477 - unread) >>> (if seg.syn then 0 else scale.toNat)

/-- The window is the free space, and so was every window sent. -/
structure WindowExact (scale : U8) (c : Core) (log : List Effect) : Prop where
  shift : c.rcv.scale = scale
  free : c.rcv.realWnd.toNat + c.rcv.unread = 44477
  wire : ∀ {seg unread}, .xmit seg unread ∈ log → ShowsFree scale seg unread

theorem RcvSide.Stamps.showsFree {r : RcvSide} {seg : Seg} {unread : Nat} (h : r.Stamps seg unread)
    (hf : r.realWnd.toNat + r.unread = 44477) : ShowsFree r.scale seg unread := by
  obtain ⟨-, hw, hu⟩ := h
  have hu : unread = r.unread := hu
  have hcut : (r.realWnd.setWidth 16).toNat = 44477 - unread := by
    rw [BitVec.toNat_setWidth]
    omega
  refine ⟨by omega, ?_⟩
  rw [hw, RcvSide.win]
  split
  · simp [hcut]
  · rw [BitVec.toNat_ushiftRight, hcut]

/-- What the act may bring for the window to stay exact. -/
def Act.WindowOk : Act → Prop
  | .arrive c₀ th skb => c₀.Accepts th skb → skb.seq = c₀.rcv.nxt →
      skb.dlen ≤ c₀.rcv.realWnd ∧ c₀.rcv.drained skb = []
  | .fire _ _ | .abort | .send | .close | .finish _ | .read | .idle => True

theorem act_windowOk {c : Conn} {e : Event} (h : WindowOk c e) : (c.act e).WindowOk := by
  cases e with
  | segment th data psh => exact h
  | resume i => simp only [Conn.act]; split <;> trivial
  | handler i => simp only [Conn.act]; split <;> trivial
  | _ => trivial

/-- Only queueing in sequence and reading touch the window or the queue. -/
theorem Move.window {a : Act} {c c' : Core} {es : List Effect} (hm : Move a c es c') :
    c'.rcv.scale = c.rcv.scale ∧
    ((c'.rcv.realWnd = c.rcv.realWnd ∧ c'.rcv.queue = c.rcv.queue) ∨
      (∃ c₀ th skb, a = .arrive c₀ th skb ∧ c₀.Accepts th skb ∧ c.rcv = c₀.rcv ∧ skb.seq = c₀.rcv.nxt ∧
        c'.rcv = c.rcv.push skb) ∨
      ∃ n, c'.rcv = c.rcv.dequeue n) := by
  cases hm with
  | inOrder ha _ hr _ hseq => exact ⟨rfl, .inr (.inl ⟨_, _, _, rfl, ha, hr, hr ▸ hseq, rfl⟩)⟩
  | dequeue n => exact ⟨rfl, .inr (.inr ⟨n, rfl⟩)⟩
  | _ => exact ⟨rfl, .inl ⟨rfl, rfl⟩⟩

theorem WindowExact.move {scale : U8} {a : Act} {c c' : Core} {log es : List Effect} (ha : a.WindowOk)
    (hm : Move a c es c') (h : WindowExact scale c log) : WindowExact scale c' (log ++ es) := by
  obtain ⟨hs, hw⟩ := hm.window
  refine ⟨hs.trans h.shift, ?_, fun {seg unread} he => ?_⟩
  · rcases hw with ⟨hr, hq⟩ | ⟨c₀, th, skb, rfl, hacc, hr, hseq, hp⟩ | ⟨n, hn⟩
    · rw [hr, RcvSide.unread, hq]
      exact h.free
    · obtain ⟨hle, hd⟩ := ha hacc hseq
      rw [← hr] at hle hd
      rw [hp, push_realWnd hle, hd]
      exact h.free
    · rw [hn, dequeue_realWnd n (by rw [h.free]; decide)]
      exact h.free
  · rcases List.mem_append.mp he with he | he
    · exact h.wire he
    · obtain ⟨n, i, hst⟩ := hm.stamped he
      rw [← h.shift]
      exact hst.showsFree h.free

/-- **Receive-window accounting.** In every run whose steps are `WindowOk`,
`real_rcv_wnd` is 44477 minus the unread bytes in every state, and every
segment sent showed exactly that. -/
theorem rcv_window_accounting {iss : U32} {s : TcpSock} (ho : Opened iss s) {es : List Event}
    (hm : Conn.Meets WindowOk { sk := s } es) :
    (Conn.run { sk := s } es).sk.tcb.realRcvWnd.toNat + (Conn.run { sk := s } es).sk.unread.length = 44477 ∧
    ∀ seg unread, .xmit seg unread ∈ (Conn.run { sk := s } es).sk.fx →
      ShowsFree (Conn.run { sk := s } es).sk.rcvScale seg unread := by
  have h0 : WindowExact s.rcvScale s.core s.fx := by
    obtain ⟨hw, hq, -⟩ := ho.rcv
    have hf : s.core.rcv.realWnd.toNat + s.core.rcv.unread = 44477 := by
      rw [hw, RcvSide.unread, hq]
      rfl
    obtain ⟨k, _, _, _, cwnd, e, -, -, hfx, he⟩ := ho.syn
    refine ⟨rfl, hf, fun {seg unread} hmem => ?_⟩
    rw [hfx] at hmem
    simp only [List.mem_cons, List.not_mem_nil, or_false, reduceCtorEq, false_or] at hmem
    subst hmem
    exact RcvSide.Stamps.showsFree he.2.2.2.2.2.2.2 hf
  have h : WindowExact s.rcvScale (Conn.run { sk := s } es).sk.core (Conn.run { sk := s } es).sk.fx :=
    Conn.run_keeps (fun hok _ _ _ _ hm h => h.move (act_windowOk hok) hm) hm (Conn.ready_of_no_calls s) h0
  refine ⟨h.free, fun seg unread hmem => ?_⟩
  rw [show (Conn.run { sk := s } es).sk.rcvScale = s.rcvScale from h.shift]
  exact h.wire hmem

theorem rcv_window_accounting_inSequence :
    let c := clientConn.run [synAckEvent, dataEvent 501 ⟨[1, 2], by decide⟩, .read 1, dataEvent 503 ⟨[3], by decide⟩]
    c.sk.tcb.realRcvWnd.toNat + c.sk.unread.length = 44477 ∧
      ∀ seg unread, .xmit seg unread ∈ c.sk.fx → ShowsFree c.sk.rcvScale seg unread :=
  rcv_window_accounting (.active {} 100) (by decide +kernel)

/-- Two segments that arrive in the wrong order: four bytes are unread, but
`real_rcv_wnd` has gone down by two only. -/
theorem rcv_window_drifts :
    let c := clientConn.run [synAckEvent, dataEvent 503 ⟨[3, 4], by decide⟩, dataEvent 501 ⟨[1, 2], by decide⟩]
    c.sk.unread.length = 4 ∧ c.sk.tcb.realRcvWnd.toNat ≠ 44477 - c.sk.unread.length := by
  decide +kernel

/-! ## What a peer can make the socket hold -/

/-- Whether `tcp_data_insert_ordered` drops the segment for one with the same number. -/
def ofoDrops (skb : Skb) : List Skb → Bool
  | [] => false
  | next :: rest =>
    if skb.seq < next.seq then
      if skb.endSeq > next.seq then ofoDrops skb rest
      else false
    else if skb.seq = next.seq then true
    else ofoDrops skb rest

/-- A segment the step queues fits into what 44477 leaves free, unless it is
dropped as a duplicate; and the drained bytes that `real_rcv_wnd` counts twice
have not yet filled its 32 bits. -/
def FitsOk (c : Conn) : Event → Prop
  | .segment th data psh =>
    let skb := tcpInitSegment th data psh
    c.sk.core.Accepts th skb →
      if th.seq = c.sk.tcb.rcvNxt then
        c.sk.rcv.held + data.bytes.length ≤ 44477 ∧
          c.sk.tcb.realRcvWnd.toNat + c.sk.rcv.unread + (c.sk.rcv.drained skb).length < 2 ^ 32
      else c.sk.rcv.held + data.bytes.length ≤ 44477 ∨ ofoDrops skb c.sk.ofoQueue
  | .write _ | .read _ | .close | .abort | .resume _ | .dispatch _ | .handler _ | .tick _ | .fcntl _
  | .adjustPmtu6 _ => True

instance (c : Conn) (e : Event) : Decidable (FitsOk c e) :=
  match e with
  | .segment .. | .write _ | .read _ | .close | .abort | .resume _ | .dispatch _ | .handler _ | .tick _ | .fcntl _
  | .adjustPmtu6 _ => by unfold FitsOk; infer_instance

theorem insert_bytes (skb : Skb) (q : List Skb) : (queueBytes (tcpDataInsertOrdered skb q)).length =
    (queueBytes q).length + if ofoDrops skb q then 0 else skb.payload.bytes.length := by
  induction q with
  | nil => simp [tcpDataInsertOrdered, ofoDrops]
  | cons next rest ih =>
    simp only [tcpDataInsertOrdered, ofoDrops]
    split
    · split
      · simp only [queueBytes_cons, List.length_append, ih]
        omega
      · simp only [queueBytes_cons, List.length_append, Bool.false_eq_true, if_false]
        omega
    · split
      · simp
      · simp only [queueBytes_cons, List.length_append, ih]
        omega

/-- Both queues fit, and the window is no smaller than what is free. -/
structure Fits (c : Core) : Prop where
  held : c.rcv.held ≤ 44477
  free : 44477 ≤ c.rcv.realWnd.toNat + c.rcv.unread
  small : c.rcv.realWnd.toNat + c.rcv.unread < 2 ^ 32

/-- What the act may bring for the queues to stay within bounds. -/
def Act.FitsOk : Act → Prop
  | .arrive c₀ th skb => c₀.Accepts th skb →
      if skb.seq = c₀.rcv.nxt then
        c₀.rcv.held + skb.payload.bytes.length ≤ 44477 ∧
          c₀.rcv.realWnd.toNat + c₀.rcv.unread + (c₀.rcv.drained skb).length < 2 ^ 32
      else c₀.rcv.held + skb.payload.bytes.length ≤ 44477 ∨ ofoDrops skb c₀.rcv.ofo
  | .fire _ _ | .abort | .send | .close | .finish _ | .read | .idle => True

theorem act_fitsOk {c : Conn} {e : Event} (h : FitsOk c e) : (c.act e).FitsOk := by
  cases e with
  | segment th data psh => exact h
  | resume i => simp only [Conn.act]; split <;> trivial
  | handler i => simp only [Conn.act]; split <;> trivial
  | _ => trivial

/-- A segment that fits is not longer than the window. -/
theorem Fits.dlen_le {c : Core} {skb : Skb} (h : Fits c) (hl : c.rcv.held + skb.payload.bytes.length ≤ 44477) :
    skb.dlen ≤ c.rcv.realWnd := by
  have hf := h.free
  have hle : c.rcv.unread ≤ c.rcv.held := Nat.le_add_right _ _
  rw [BitVec.le_def, Skb.dlen, Payload.len_toNat]
  omega

/-- What a move leaves of the receive side when the queues change by less than a push. -/
theorem Fits.mono {c c' : Core} (h : Fits c) (hw : c'.rcv.realWnd = c.rcv.realWnd) (hq : c'.rcv.queue = c.rcv.queue)
    (ho : (queueBytes c'.rcv.ofo).length ≤ (queueBytes c.rcv.ofo).length) : Fits c' := by
  obtain ⟨h1, h2, h3⟩ := h
  simp only [RcvSide.held, RcvSide.unread] at h1 h2 h3
  refine ⟨?_, ?_, ?_⟩ <;> simp only [RcvSide.held, RcvSide.unread, hw, hq] <;> omega

theorem Fits.move {a : Act} {c c' : Core} {es : List Effect} (ha : a.FitsOk) (hm : Move a c es c') (h : Fits c) :
    Fits c' := by
  cases hm with
  | @inOrder _ _ _ skb hacc _ hr _ hseq =>
    have hok := ha hacc
    rw [← hr, if_pos hseq] at hok
    have hw := push_realWnd (h.dlen_le hok.1)
    have hh := push_held c.rcv skb
    have hf := h.free
    rw [Skb.dlen, Payload.len_toNat] at hh
    exact ⟨hh.trans_le hok.1, by rw [hw]; omega, by rw [hw]; exact hok.2⟩
  | @outOfOrder _ _ _ skb hacc _ hr _ hseq =>
    have hok := ha hacc
    rw [← hr, if_neg hseq] at hok
    have hb := insert_bytes skb c.rcv.ofo
    refine ⟨?_, h.free, h.small⟩
    have hh := h.held
    simp only [RcvSide.held, RcvSide.insert] at hh hok ⊢
    rw [hb]
    split
    · omega
    next hd =>
      rcases hok with hok | hok
      · omega
      · exact absurd hok hd
  | dequeue n =>
    have hw := dequeue_realWnd n h.small
    have hu := dequeue_unread c.rcv n
    have hh := h.held
    refine ⟨?_, by rw [hw]; exact h.free, by rw [hw]; exact h.small⟩
    have ho : (c.rcv.dequeue n).ofo = c.rcv.ofo := rfl
    simp only [RcvSide.held, RcvSide.unread, ho] at hh hu ⊢
    omega
  | lastAck | refused | giveUp | linger | userTimeout | abort | closeDone => exact h.mono rfl rfl (Nat.zero_le _)
  | _ => exact h.mono rfl rfl (Nat.le_refl _)

/-- **Receive buffering is bounded** in every run whose steps are `FitsOk`: the
two queues never hold more than 44477 bytes, and the next `real_rcv_wnd -= dlen`
does not wrap. -/
theorem rcv_buffer_bounded {iss : U32} {s : TcpSock} (ho : Opened iss s) {es : List Event}
    (hm : Conn.Meets FitsOk { sk := s } es) :
    (queueBytes (Conn.run { sk := s } es).sk.receiveQueue).length +
        (queueBytes (Conn.run { sk := s } es).sk.ofoQueue).length ≤ 44477 ∧
    ∀ th data psh, FitsOk (Conn.run { sk := s } es) (.segment th data psh) →
      (Conn.run { sk := s } es).sk.core.Accepts th (tcpInitSegment th data psh) →
      th.seq = (Conn.run { sk := s } es).sk.tcb.rcvNxt →
        data.len ≤ (Conn.run { sk := s } es).sk.tcb.realRcvWnd := by
  have h0 : Fits s.core := by
    obtain ⟨hw, hq, hoq⟩ := ho.rcv
    refine ⟨?_, ?_, ?_⟩ <;> simp [RcvSide.held, RcvSide.unread, hw, hq, hoq]
  have h : Fits (Conn.run { sk := s } es).sk.core :=
    Conn.run_keeps (I := fun c _ => Fits c) (fun hok _ _ _ _ hm h => h.move (act_fitsOk hok) hm) hm
      (Conn.ready_of_no_calls s) h0
  refine ⟨h.held, fun th data psh hok hacc hseq => ?_⟩
  have hl := hok hacc
  rw [if_pos hseq] at hl
  have hle : (tcpInitSegment th data psh).dlen ≤ (Conn.run { sk := s } es).sk.core.rcv.realWnd := h.dlen_le hl.1
  exact hle

theorem rcv_buffer_bounded_reordered :
    let es := [synAckEvent, dataEvent 503 ⟨[3, 4], by decide⟩, dataEvent 501 ⟨[1, 2], by decide⟩]
    (queueBytes (clientConn.run es).sk.receiveQueue).length + (queueBytes (clientConn.run es).sk.ofoQueue).length ≤
      44477 ∧
    ∀ th data psh, FitsOk (clientConn.run es) (.segment th data psh) →
      (clientConn.run es).sk.core.Accepts th (tcpInitSegment th data psh) →
      th.seq = (clientConn.run es).sk.tcb.rcvNxt → data.len ≤ (clientConn.run es).sk.tcb.realRcvWnd :=
  rcv_buffer_bounded (.active {} 100) (by decide +kernel)

/-! ### Nothing keeps a segment out

A segment with text that passes the ACK checks in ESTABLISHED is queued whole,
whatever the window. -/

theorem tcpStopDelackTimer_rcv (s : TcpSock) : (tcpStopDelackTimer s).rcv = s.rcv :=
  congrArg Core.rcv (quiet_tcpStopDelackTimer s).core

theorem ackData_rcv (s : TcpSock) (th : Tcphdr) (skb : Skb) (expected : Bool) :
    (ackData s th skb expected).rcv = s.rcv := by
  have hq : ∀ {s t : TcpSock}, Quiet s t → t.rcv = s.rcv := fun h => congrArg Core.rcv h.core
  unfold ackData
  split
  case h_4 => rfl
  all_goals
    split
    case isFalse => rfl
    rw [← tcpStopDelackTimer_rcv s]
    generalize tcpStopDelackTimer s = t
    dsimp only
    split
    · rw [hq (quiet_tcpRearmRtoTimer _), tcpSendNext_rcv]
    · have hd : Quiet t (if !th.psh && skb.dlen > 1000 then { t with delacks := t.delacks + 1 } else t) :=
        .ite (.of_eq rfl rfl) (.refl t)
      generalize (if !th.psh && skb.dlen > 1000 then { t with delacks := t.delacks + 1 } else t) = u at hd
      rw [← hq hd]
      split
      · exact hq ((quiet_tcpSendAck _).after rfl rfl)
      · split <;> rfl

/-- The ACK checks let the segment through and leave ESTABLISHED as it is. -/
theorem ackField_established {s : TcpSock} {th : Tcphdr} {skb : Skb} (hst : s.state = .established)
    (hd : skb.dlen > 0) (hu : s.tcb.sndUna ≤ th.ackSeq) (hn : th.ackSeq ≤ s.tcb.sndNxt) :
    ∃ t, ackField s th skb = .next t ∧ t.state = .established ∧ t.rcv = s.rcv := by
  have hdup : tcpIsDupack s th skb = false := by
    have : skb.dlen ≠ 0#32 := by bv_omega
    simp [tcpIsDupack, this]
  have hf : ackField s th skb = ackChecked (if ackIsNew s th then newAck s th else s) th := by
    rw [ackField, hst]
    simp [ackSynchronized, hdup]
  have hrcv := ackField_rcv s th skb
  obtain ⟨t, ht⟩ : ∃ t, ackField s th skb = .next t := by
    rw [hf]
    rcases ackTaken_cases s th with ⟨-, he⟩ | ⟨-, he⟩
    · have h1 : (newAck s th).tcb.sndUna = th.ackSeq := congrArg (·.snd.una) (newAck_core s th)
      have h2 : (newAck s th).tcb.sndNxt = s.tcb.sndNxt := congrArg (·.snd.nxt) (newAck_core s th)
      rw [he, ackChecked, if_neg (by rw [h1]; exact BitVec.lt_irrefl _), if_neg (by rw [h2]; exact BitVec.not_lt.mpr hn)]
      exact ⟨_, rfl⟩
    · rw [he, ackChecked, if_neg (BitVec.not_lt.mpr hu), if_neg (BitVec.not_lt.mpr hn)]
      exact ⟨_, rfl⟩
  refine ⟨t, ht, ?_, ?_⟩
  · rw [hf] at ht
    rw [(ackChecked_next ht).1]
    split
    · exact (congrArg Core.state (newAck_core s th)).trans hst
    · exact hst
  · rw [ht] at hrcv
    exact hrcv

/-- **An acceptable segment is queued whole**, with no look at the window. -/
theorem segmentArrives_push {s : TcpSock} {th : Tcphdr} {skb : Skb} (hst : s.state = .established)
    (hacc : s.core.Accepts th skb) (hd : skb.dlen > 0) (hfin : th.fin = false) (hw : s.tcb.rcvWnd ≠ 0)
    (hseq : skb.seq = s.tcb.rcvNxt) : (segmentArrives s th skb).rcv = s.rcv.push skb := by
  obtain ⟨hv, hr, hs, ha, -, hu, hn, -⟩ := hacc
  have hv : tcpVerifySegment s th skb = true := hv
  obtain ⟨t, ht, hts, htr⟩ := ackField_established hst hd hu hn
  have hfa : finAcked t th = .next t := by
    rw [finAcked, hts]
    split <;> rfl
  have hnxt : t.tcb.rcvNxt = s.tcb.rcvNxt := congrArg RcvSide.nxt htr
  have hwnd : t.tcb.rcvWnd = s.tcb.rcvWnd := congrArg RcvSide.wnd htr
  have htext : (segmentText t th skb).rcv = s.rcv.push skb := by
    rw [← htr, segmentText, hts]
    simp only [hd, decide_true, Bool.or_true, if_true]
    rw [tcpDataQueue, if_neg (hwnd ▸ hw), if_pos (hseq.trans hnxt.symm)]
    rfl
  rw [segmentArrives, hst]
  simp only [tcpInputOtherwise, hv, hr, hs, ha, ht, Ctl.andThen, afterAck, hfa, finBit, hfin]
  exact (ackData_rcv _ _ _ _).trans htext

/-- One byte more than the window. -/
def overrun : Payload := ⟨List.replicate 44478 0, by rw [List.length_replicate]; decide⟩

theorem overrun_len : overrun.len = 44478 := by
  rw [Payload.len, overrun, List.length_replicate]
  rfl

/-- The first segment after the handshake overruns the window: the subtraction
wraps, and the socket holds more than 44477 bytes. -/
theorem rcv_buffer_overrun :
    (clientConn.run [synAckEvent]).sk.tcb.realRcvWnd < overrun.len ∧
    let c := clientConn.run [synAckEvent, dataEvent 501 overrun]
    44477 < (queueBytes c.sk.receiveQueue).length + (queueBytes c.sk.ofoQueue).length := by
  have hs : (clientConn.run [synAckEvent]).sk.state = .established ∧ (clientConn.run [synAckEvent]).sk.fault = false ∧
      (clientConn.run [synAckEvent]).sk.rcv =
        { nxt := 501, irs := 500, wnd := 44477, realWnd := 44477, queue := [], ofo := [], scale := 0 } ∧
      (clientConn.run [synAckEvent]).sk.tcb.sndUna = 101 ∧ (clientConn.run [synAckEvent]).sk.tcb.sndNxt = 101 := by
    decide +kernel
  have hrun : clientConn.run [synAckEvent, dataEvent 501 overrun] =
      (clientConn.run [synAckEvent]).step (dataEvent 501 overrun) := rfl
  rw [hrun]
  generalize clientConn.run [synAckEvent] = c at hs
  obtain ⟨hst, hf, hr, hu, hn⟩ := hs
  refine ⟨?_, ?_⟩
  · rw [show c.sk.tcb.realRcvWnd = _ from congrArg RcvSide.realWnd hr, overrun_len]
    decide
  · let th : Tcphdr := { seq := 501, ackSeq := 101, ack := true, win := 10000 }
    have hd : (tcpInitSegment th overrun false).dlen = 44478 := overrun_len
    have hacc : c.sk.core.Accepts th (tcpInitSegment th overrun false) := by
      refine ⟨?_, rfl, rfl, rfl, .inl ?_, ?_, ?_, .inr ?_⟩
      · rw [show c.sk.core.rcv = _ from hr, RcvSide.verify, hd]
        decide
      · rw [core_state, hst]
        rfl
      · rw [show c.sk.core.snd.una = _ from hu]
        decide
      · rw [show c.sk.core.snd.nxt = _ from hn]
        decide
      · rw [hd]
        decide
    have hpush := segmentArrives_push hst hacc (by rw [hd]; decide) rfl
      (by rw [show c.sk.tcb.rcvWnd = _ from congrArg RcvSide.wnd hr]; decide)
      (show (501 : U32) = _ from (congrArg RcvSide.nxt hr).symm)
    have hstep : (c.step (dataEvent 501 overrun)).sk = segmentArrives c.sk th (tcpInitSegment th overrun false) := by
      simp only [Conn.step, hf]
      rfl
    have hheld : (c.step (dataEvent 501 overrun)).sk.rcv.held = 44478 := by
      rw [hstep, hpush, push_held, hd, hr]
      rfl
    exact Nat.lt_of_lt_of_eq (by decide) hheld.symm

end LevelIp
