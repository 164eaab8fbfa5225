/-
When a read returns 0. `tcp_read` answers from the state in CLOSING, LAST_ACK
and TIME_WAIT, where `err` is 0 unless somebody has set it; elsewhere
`tcp_receive` stops with nothing copied at the FIN flag, or at a PSH mark.

Only the flag comes from the peer's FIN. An RST leads to TIME_WAIT and the user
timeout to CLOSING, and neither sets `err`; and a PSH mark may come with a
segment that has no data.
-/
import LevelIp.EndOfStream
import LevelIp.ResetHandling

namespace LevelIp

/-! ## The end of the stream -/

/-- The stream ends with the FIN, with an accepted RST (`reset`) or with
`tcp_done`, and the flags of the reader follow the state. -/
structure Core.Ends (reset : Bool) (c : Core) (log : List Effect) : Prop where
  psh : c.flagPsh = false
  fin : .peerFin ∈ log → c.state.eos
  eos : c.state.eos → .peerFin ∈ log ∨ reset ∨ c.sockState = .disconnecting
  closeWait : c.state = .closeWait → .peerFin ∈ log
  flag : c.flagFin → c.state.eos

namespace Core.Ends

variable {reset : Bool} {c c' : Core} {log es : List Effect}

theorem mono (h : c.Ends reset log) {reset' : Bool} (hr : reset → reset') : c.Ends reset' log where
  psh := h.psh
  fin := h.fin
  eos := fun he => (h.eos he).imp_right (Or.imp_left hr)
  closeWait := h.closeWait
  flag := h.flag

/-- After `tcp_done` the state is CLOSING. -/
theorem closing (h : c.Ends reset log) (es : List Effect) (hs : c'.state = .closing) (hd : c'.sockState = .disconnecting)
    (hp : c'.flagPsh = c.flagPsh) : c'.Ends reset (log ++ es) where
  psh := hp.trans h.psh
  fin := fun _ => hs ▸ rfl
  eos := fun _ => .inr (.inr hd)
  closeWait := fun hcw => nomatch hs.symm.trans hcw
  flag := fun _ => hs ▸ rfl

/-- A state before the end of the stream. -/
theorem before (h : c.Ends reset log) (hc : c.state.eos = false) (hn : .peerFin ∈ es → c'.state.eos) (hs : c'.state.eos = false)
    (hp : c'.flagPsh = c.flagPsh) (hf : c'.flagFin = c.flagFin) : c'.Ends reset (log ++ es) := by
  have hno : ¬c.state.eos := by simp [hc]
  have hno' : ¬c'.state.eos := by simp [hs]
  refine ⟨hp.trans h.psh, fun hm => ?_, fun he => absurd he hno', fun hcw => ?_, fun hflag => absurd (h.flag (hf ▸ hflag)) hno⟩
  · exact (List.mem_append.mp hm).elim (fun hm => absurd (h.fin hm) hno) hn
  · rw [hcw] at hs
    cases hs

/-- The state stays. -/
theorem same (h : c.Ends reset log) (hn : .peerFin ∈ es → c'.state.eos) (hs : c'.state = c.state) (hp : c'.flagPsh = c.flagPsh)
    (hf : c'.flagFin → c.flagFin) (hk : c'.sockState = c.sockState) : c'.Ends reset (log ++ es) where
  psh := hp.trans h.psh
  fin := fun hm => (List.mem_append.mp hm).elim (fun hm => hs ▸ h.fin hm) hn
  eos := fun he => by
    rw [hk]
    exact (h.eos (hs ▸ he)).imp_left (List.mem_append_left es)
  closeWait := fun hcw => List.mem_append_left es (h.closeWait (hs ▸ hcw))
  flag := fun hflag => hs ▸ h.flag (hf hflag)

/-- At the end of the stream the state may change, though not to CLOSE_WAIT. -/
theorem after (h : c.Ends reset log) (he : c.state.eos) (hs : c'.state.eos) (hcw : c'.state ≠ .closeWait)
    (hp : c'.flagPsh = c.flagPsh) (hk : c'.sockState = c.sockState) : c'.Ends reset (log ++ es) where
  psh := hp.trans h.psh
  fin := fun _ => hs
  eos := fun _ => by
    rw [hk]
    exact (h.eos he).imp_left (List.mem_append_left es)
  closeWait := fun h => absurd h hcw
  flag := fun _ => hs

/-- The FIN is consumed. -/
theorem heard (h : c.Ends reset log) (hs : c'.state.eos) (hp : c'.flagPsh = c.flagPsh) (hm : .peerFin ∈ es) :
    c'.Ends reset (log ++ es) where
  psh := hp.trans h.psh
  fin := fun _ => hs
  eos := fun _ => .inl (List.mem_append_right log hm)
  closeWait := fun _ => List.mem_append_right log hm
  flag := fun _ => hs

/-- Every move keeps this, if a segment with RST counts as a reset and a
`tcp_close` that goes on to LAST_ACK has slept in CLOSE_WAIT. -/
theorem move {a : Act} (hm : Move a c es c') (hrst : ∀ c₀ th skb, a = .arrive c₀ th skb → th.rst → reset)
    (hclose : a = .finish true → c.state.eos) (h : c.Ends reset log) : c'.Ends reset (log ++ es) := by
  have hn : .peerFin ∈ es → c'.state.eos := fun hf => (hm.peerFin hf).1
  cases hm with
  | rst hv hr => exact ⟨h.psh, fun _ => rfl, fun _ => .inr (.inl (hrst _ _ _ rfl hr)), nofun, fun _ => rfl⟩
  | fin => exact h.heard (hn List.mem_cons_self) rfl List.mem_cons_self
  | lastAck | refused | giveUp | linger | userTimeout | abort | closeDone => exact h.closing _ rfl rfl rfl
  | establish hs | fault hs | finWait2 _ hs | closeStart hs | finResent _ _ hs | connect hs | simultaneous hs =>
    exact h.before (by rw [hs]; rfl) hn rfl rfl rfl
  | timeWait _ hs | finSent _ _ hs => exact h.after (by rw [hs]; rfl) rfl nofun rfl rfl
  | finAgain hs => exact h.after (by rw [hs]; rfl) (hs ▸ rfl) (by rw [hs]; nofun) rfl rfl
  | queueFin lastAck ha =>
    cases lastAck with
    | false => exact h.same hn rfl rfl id rfl
    | true =>
      refine h.after ?_ rfl nofun rfl rfl
      cases a with
      | close =>
        have hs : c.state = .closeWait := ha
        rw [hs]
        rfl
      | finish last =>
        have hlast : true = last := ha
        exact hclose (hlast ▸ rfl)
      | _ => exact ha.elim
  | dequeue n =>
    have hs : Core.Ends reset { c with rcv := c.rcv.dequeue n } (log ++ []) := h.same nofun rfl rfl id rfl
    exact ⟨rfl, hs.fin, hs.eos, hs.closeWait, hs.flag⟩
  | eof => exact h.same hn rfl rfl nofun rfl
  | quiet | reset | ack | resend | sendNext | inOrder | outOfOrder | resendHead | data | spin | closeRefused =>
    exact h.same hn rfl rfl id rfl

end Core.Ends

/-- An RST that is not accepted is dropped, or refuses the connection. -/
theorem segmentArrives_refused {s : TcpSock} {th : Tcphdr} {skb : Skb} (hr : th.rst) (hh : s.hearsRst th skb = false) :
    segmentArrives s th skb = s ∨ ∃ t, segmentArrives s th skb = tcpDone t ∧ t.fx = s.fx ∧ t.flagPsh = s.flagPsh := by
  by_cases hc : s.state = .close
  · left
    rw [segmentArrives, hc]
    exact if_pos hr
  by_cases hl : s.state = .listen
  · left
    rw [segmentArrives, hl]
  cases hd : s.dropsReset th skb with
  | true => exact .inl (reset_dropped hc hr hd)
  | false =>
    by_cases hs : s.state = .synSent
    · exact .inr ⟨_, reset_synSent hs hr hd, rfl, rfl⟩
    · have hv : tcpVerifySegment s th skb = true := by simpa [TcpSock.dropsReset, hs] using hd
      have hv : s.core.rcv.verify th skb = true := hv
      have hno : s.hearsRst th skb = true := by
        unfold TcpSock.hearsRst
        cases hst : s.state <;> first | exact absurd hst ‹_› | (rw [hv, hr]; rfl)
      rw [hno] at hh
      cases hh

/-- Only a segment adds to `receive_queue`, at its end, and none once the stream
has ended. -/
theorem Move.queue_grows {a : Act} {c c' : Core} {es : List Effect} (hm : Move a c es c') (hr : a ≠ .read) :
    ∃ more, c'.rcv.queue = c.rcv.queue ++ more ∧ (c.state.eos ∨ (∀ c₀ th skb, a ≠ .arrive c₀ th skb) → more = []) := by
  cases hm with
  | inOrder _ ht =>
    refine ⟨_, by rw [RcvSide.push_queue, List.append_assoc], fun h => ?_⟩
    rcases h with he | h
    · exfalso
      revert ht he
      cases c.state <;> decide
    · exact absurd rfl (h _ _ _)
  | dequeue | eof => exact absurd rfl hr
  | _ => exact ⟨[], (List.append_nil _).symm, fun _ => rfl⟩

theorem Moves.queue_grows {a : Act} {c c' : Core} {es : List Effect} (hm : Moves a c es c') (hr : a ≠ .read) :
    ∃ more, c'.rcv.queue = c.rcv.queue ++ more ∧ (c.state.eos ∨ (∀ c₀ th skb, a ≠ .arrive c₀ th skb) → more = []) :=
  (hm.keeps_core (I := fun k => (c.state.eos → k.state.eos) ∧ ∃ more, k.rcv.queue = c.rcv.queue ++ more ∧
      (c.state.eos ∨ (∀ c₀ th skb, a ≠ .arrive c₀ th skb) → more = []))
    (fun hm ⟨he, more, hq, hn⟩ => by
      obtain ⟨more', hq', hn'⟩ := hm.queue_grows hr
      exact ⟨fun h => hm.eos (he h), more ++ more', by rw [hq', hq, List.append_assoc],
        fun h => by rw [hn h, hn' (h.imp_left he)]; rfl⟩)
    ⟨id, [], (List.append_nil _).symm, fun _ => rfl⟩).2

/-! ## What a read returns 0 for -/

/-- Only data-less segments are queued. -/
def TcpSock.drained (s : TcpSock) : Bool := (queueBytes s.receiveQueue).isEmpty

/-- One of them has PSH. -/
def TcpSock.blankPush (s : TcpSock) : Bool := s.drained && s.receiveQueue.any (·.psh)

theorem dequeueLoop_nothing {q : List Skb} {room : Nat} (hr : 0 < room) : (dequeueLoop room q).1 = [] ↔ queueBytes q = [] := by
  by_cases h : room ≤ (queueBytes q).length
  · have hl := dequeueLoop_full h
    constructor <;> intro he
    · rw [he] at hl
      exact absurd hl hr.ne
    · rw [he] at h
      exact absurd h (Nat.not_le.mpr hr)
  · rw [dequeueLoop_all (not_le.mp h)]

/-- A turn of `tcp_receive` returns 0 if nothing has been copied, nothing is to be
copied and there is the FIN flag or a PSH mark. -/
theorem tcpReceiveTurn_zero {s : TcpSock} (hp : s.flagPsh = false) {len : Nat} {got : List U8} (hg : got.length < len) :
    (tcpReceiveTurn s len got).2.1 = .ret 0 ↔ got = [] ∧ (s.drained && s.flagFin || s.blankPush) := by
  have hfin : (tcpDataDequeue s (len - got.length)).1.flagFin = s.flagFin := by
    simp only [tcpDataDequeue]
    split <;> rfl
  have hpsh : (tcpDataDequeue s (len - got.length)).1.flagPsh = (dequeueLoop (len - got.length) s.receiveQueue).2.2 := by
    have h := congrArg Core.flagPsh (tcpDataDequeue_core s (len - got.length))
    rw [hp] at h
    exact h
  have hcop : (tcpDataDequeue s (len - got.length)).2 = (dequeueLoop (len - got.length) s.receiveQueue).1 := rfl
  have hnone : (tcpDataDequeue s (len - got.length)).2 = [] ↔ queueBytes s.receiveQueue = [] := by
    rw [hcop]
    exact dequeueLoop_nothing (by omega)
  have hmark : queueBytes s.receiveQueue = [] →
      (tcpDataDequeue s (len - got.length)).1.flagPsh = s.receiveQueue.any (·.psh) := fun h0 => by
    rw [hpsh, dequeueLoop_all (by rw [h0]; exact Nat.sub_pos_of_lt hg)]
  unfold tcpReceiveTurn TcpSock.blankPush TcpSock.drained
  generalize tcpDataDequeue s (len - got.length) = r at hfin hnone hmark
  obtain ⟨t, copied⟩ := r
  dsimp only at hfin hnone hmark ⊢
  have hsum : got.length + copied.length = 0 ↔ got = [] ∧ queueBytes s.receiveQueue = [] := by
    rw [Nat.add_eq_zero_iff, List.length_eq_zero_iff, List.length_eq_zero_iff, hnone]
  by_cases h0 : got.length + copied.length = 0
  · obtain ⟨hgot, hq⟩ := hsum.mp h0
    have hlen : ¬0 = len := by omega
    rw [hfin, hmark hq, h0, hq, decide_eq_false hlen]
    simp only [hgot, List.isEmpty_nil, Bool.true_and, Bool.or_false, true_and]
    cases s.receiveQueue.any (·.psh) with
    | true => simp
    | false =>
      cases s.flagFin with
      | true => simp
      | false =>
        simp only [Bool.false_eq_true, if_false, if_true, Bool.or_self, iff_false]
        split <;> rintro ⟨⟩
  · have hno : ¬(got = [] ∧ ((queueBytes s.receiveQueue).isEmpty && s.flagFin ||
        (queueBytes s.receiveQueue).isEmpty && s.receiveQueue.any (·.psh)) = true) := by
      rintro ⟨hgot, h⟩
      rw [← Bool.and_or_distrib_left, Bool.and_eq_true, List.isEmpty_iff] at h
      exact h0 (hsum.mpr ⟨hgot, h.1⟩)
    refine iff_of_false (fun hret => ?_) hno
    have hpos : ((got.length + copied.length : Nat) : Int) ≠ 0 := by exact_mod_cast h0
    split at hret
    · exact hpos (Outcome.ret.inj hret)
    · split at hret
      · exact hpos (Outcome.ret.inj hret)
      · split at hret
        · exact hpos (Outcome.ret.inj hret)
        · cases hret

/-- What a `tcp_read` of a connection returns 0 for. -/
def TcpSock.readsZero (s : TcpSock) : Bool :=
  if s.state.over then s.err = 0 else s.state ≠ .close && (s.drained && s.flagFin || s.blankPush)

theorem tcpRead_zero {s : TcpSock} (hp : s.flagPsh = false) {len : Nat} (hlen : 0 < len) :
    (tcpRead s len).2.1 = .ret 0 ↔ s.readsZero := by
  have hturn : (tcpReceive s len).2.1 = .ret 0 ↔ (s.drained && s.flagFin || s.blankPush) = true := by
    rw [tcpReceive, if_pos hlen, tcpReceiveTurn_zero hp (by exact hlen)]
    exact and_iff_right rfl
  unfold tcpRead TcpSock.readsZero
  cases hs : s.state with
  | close => exact iff_of_false nofun (by simp [TcpState.over])
  | closing | lastAck | timeWait =>
    simp only [TcpState.over, if_true, decide_eq_true_eq]
    exact ⟨fun h => Outcome.ret.inj h, fun h => congrArg Outcome.ret h⟩
  | closeWait =>
    simp only [TcpState.over, Bool.false_eq_true, if_false]
    split
    next he =>
      rw [Bool.and_eq_true, List.isEmpty_iff] at he
      exact iff_of_true rfl (by simp [TcpSock.drained, he])
    next => simpa using hturn
  | _ =>
    simp only [TcpState.over, Bool.false_eq_true, if_false]
    simpa using hturn

namespace Conn

/-- A `tcp_read` with room in its buffer ends and returns 0. -/
def returnsZero (c : Conn) (e : Event) : Bool := (c.step e).reads = c.reads ++ [0] && e ≠ .read 0

theorem settleRead_reads (c : Conn) (r : TcpSock × Outcome × List U8) :
    (c.settleRead r).reads = c.reads ++ [0] ↔ r.2.1 = .ret 0 := by
  have hno : c.reads ≠ c.reads ++ [0] := by simp
  unfold settleRead
  dsimp only
  split
  next rc hr => rw [hr, List.append_cancel_left_eq, List.singleton_inj, Outcome.ret.injEq]
  next call hr => rw [hr]; exact iff_of_false hno nofun
  next hr => rw [hr]; exact iff_of_false hno nofun

theorem settle_reads (c : Conn) (r : TcpSock × Outcome) : (c.settle r).reads = c.reads := by
  unfold settle
  split <;> rfl

/-- Which events return 0: a read, or a reader that runs again with nothing copied. -/
theorem returnsZero_cases {c : Conn} (hp : c.sk.flagPsh = false) (hroom : ∀ call ∈ c.calls, call.roomy) {e : Event} :
    c.returnsZero e ↔ c.sk.fault = false ∧
      match e with
      | .read len => 0 < len ∧ c.sk.readsZero
      | .resume i => ∃ len, c.calls[i]? = some (.recv len []) ∧ (c.sk.drained && c.sk.flagFin || c.sk.blankPush)
      | _ => False := by
  have hstays : ∀ {e}, (c.step e).reads = c.reads → c.returnsZero e = false := fun h => by
    have hno : c.reads ≠ c.reads ++ [0] := by simp
    rw [returnsZero, h, decide_eq_false hno]
    rfl
  cases hf : c.sk.fault with
  | true => simp [hstays (congrArg reads (step_of_fault hf e))]
  | false =>
    have hstep : ∀ e, c.step e = _ := fun e => if_neg (by simp [hf])
    simp only [true_and]
    cases e with
    | read len =>
      rw [returnsZero, hstep, Bool.and_eq_true, decide_eq_true_eq, settleRead_reads, decide_eq_true_eq, and_comm]
      have hlen : Event.read len ≠ .read 0 ↔ 0 < len := by simp [Nat.pos_iff_ne_zero]
      rw [hlen]
      exact and_congr_right fun h => tcpRead_zero hp h
    | resume i =>
      dsimp only
      cases hi : c.calls[i]? with
      | none =>
        have hsame : (c.step (.resume i)).reads = c.reads := by
          rw [hstep]
          simp only [resume, hi]
        simp [hstays hsame]
      | some call =>
        cases call with
        | recv len got =>
          have hlt : got.length < len := hroom _ (List.mem_of_getElem? hi)
          have hret : c.returnsZero (.resume i) ↔ (tcpReceiveTurn c.sk len got).2.1 = .ret 0 := by
            rw [returnsZero, hstep, Bool.and_eq_true, decide_eq_true_eq, decide_eq_true_eq]
            simp only [resume, hi, ne_eq, reduceCtorEq, not_false_eq_true, and_true]
            exact settleRead_reads { c with calls := c.calls.eraseIdx i } _
          rw [hret, tcpReceiveTurn_zero hp hlt]
          constructor
          · rintro ⟨rfl, h⟩
            exact ⟨len, rfl, h⟩
          · rintro ⟨len', he, h⟩
            cases he
            exact ⟨rfl, h⟩
        | send mss chunk rest len =>
          have hsame : (c.step (.resume i)).reads = c.reads := by
            rw [hstep]
            simp only [resume, hi, settle_reads]
          simp [hstays hsame]
        | fin lastAck =>
          have hsame : (c.step (.resume i)).reads = c.reads := by
            rw [hstep]
            simp only [resume, hi, settle_reads]
          simp [hstays hsame]
    | write buf | close => rw [hstays (by rw [hstep]; exact settle_reads _ _)]; simp
    | _ => rw [hstays (by rw [hstep])]; simp

end Conn

/-! ## Runs -/

/-- A connection with what is known of its peer's stream: whether it has been
established, whether an RST has been accepted, and the bytes `tcp_data_queue`
has taken in sequence, up to the FIN. -/
structure Eof where
  conn : Conn
  opened : Bool := false
  reset : Bool := false
  taken : List U8 := []

namespace Eof

/-- The peer's FIN has been processed. -/
def finned (h : Eof) : Bool := .peerFin ∈ h.conn.sk.fx

/-- What an event adds to `receive_queue`. -/
def takes (h : Eof) : Event → List U8
  | .segment th data psh =>
    (queueBytes (h.conn.step (.segment th data psh)).sk.receiveQueue).drop (queueBytes h.conn.sk.receiveQueue).length
  | _ => []

def step (h : Eof) (e : Event) : Eof :=
  { conn := h.conn.step e
    opened := h.opened || (h.conn.step e).sk.state = .established
    reset := h.reset || h.conn.hearsRst e
    taken := if h.finned then h.taken else h.taken ++ h.takes e }

/-- A `tcp_read` that returns 0 is at the end of the stream: the FIN has been
processed and what came before it has been copied out. -/
def Sound (h : Eof) (e : Event) : Prop :=
  h.opened → h.conn.returnsZero e → (h.step e).finned ∧ (h.step e).conn.delivered = (h.step e).taken

instance (h : Eof) (e : Event) : Decidable (h.Sound e) := by
  unfold Sound
  infer_instance

/-- The connection has been reset or finished, and no FIN came. -/
def cut (h : Eof) : Bool := (h.reset || h.conn.sk.sockState = .disconnecting) && !h.finned

/-- In CLOSING, LAST_ACK and TIME_WAIT a read finds an error, or the queue drained
and the connection not cut off; elsewhere it finds no PSH mark without data
before the FIN. A reader that runs again with nothing copied finds no such mark,
and no FIN flag on a connection that was cut off. -/
def spares (h : Eof) (e : Event) : Bool :=
  !h.opened || h.conn.sk.fault ||
  match e with
  | .read len =>
    len = 0 || if h.conn.sk.state.over then h.conn.sk.err ≠ 0 || !h.cut && h.conn.sk.drained
      else h.conn.sk.state = .close || !h.conn.sk.blankPush || h.finned
  | .resume i =>
    match h.conn.calls[i]? with
    | some (.recv _ []) => (!h.conn.sk.blankPush || h.finned) && !(h.conn.sk.drained && h.conn.sk.flagFin && h.cut)
    | _ => true
  | _ => true

/-- What holds of the reader's side over the life of a connection. -/
structure Inv (h : Eof) : Prop where
  readers : h.conn.OnlyReaders
  roomy : ∀ call ∈ h.conn.calls, call.roomy
  closers : .fin true ∈ h.conn.calls → h.conn.sk.state.eos
  ends : h.conn.sk.core.Ends h.reset h.conn.sk.fx
  taken : h.taken = h.conn.delivered ++ queueBytes h.conn.sk.receiveQueue

theorem Inv.step_ends {h : Eof} (hi : h.Inv) (e : Event) : (h.step e).conn.sk.core.Ends (h.step e).reset (h.step e).conn.sk.fx := by
  have hmono : h.conn.sk.core.Ends (h.step e).reset h.conn.sk.fx := hi.ends.mono fun hr => by simp [Eof.step, hr]
  by_cases hq : ∃ th data psh, e = .segment th data psh ∧ th.rst ∧ h.conn.hearsRst e = false
  · obtain ⟨th, data, psh, rfl, hr, hh⟩ := hq
    show ((h.conn.step _).sk).core.Ends _ (h.conn.step _).sk.fx
    cases hf : h.conn.sk.fault with
    | true =>
      rw [Conn.step_of_fault hf]
      exact hmono
    | false =>
      have hsk : (h.conn.step (.segment th data psh)).sk = segmentArrives h.conn.sk th (tcpInitSegment th data psh) := by
        simp [Conn.step, hf]
      have hh : h.conn.sk.hearsRst th (tcpInitSegment th data psh) = false := by simpa [Conn.hearsRst, hf] using hh
      rw [hsk]
      rcases segmentArrives_refused hr hh with he | ⟨t, he, hfx, hpsh⟩
      · rw [he]
        exact hmono
      · rw [he, tcpDone_fx, tcpDone_core, hfx]
        exact hmono.closing _ rfl rfl hpsh
  · obtain ⟨es, hfx, hm⟩ := Conn.step_moves hi.readers.ready e
    show ((h.conn.step e).sk).core.Ends _ (h.conn.step e).sk.fx
    have hrst : ∀ c₀ th skb, h.conn.act e = .arrive c₀ th skb → th.rst → (h.step e).reset := by
      intro c₀ th skb ha hr
      by_contra hno
      have hno : h.conn.hearsRst e = false := by
        simp only [Eof.step, Bool.or_eq_true, not_or] at hno
        simpa using hno.2
      by_cases he : ∀ th data psh, e ≠ .segment th data psh
      · exact Conn.not_arrive he c₀ th skb ha
      · push Not at he
        obtain ⟨th', data, psh, rfl⟩ := he
        cases ha
        exact hq ⟨_, data, psh, rfl, hr, hno⟩
    have hclose : h.conn.act e = .finish true → h.conn.sk.core.state.eos := by
      intro ha
      cases e with
      | resume i =>
        simp only [Conn.act] at ha
        split at ha
        case h_4 hc =>
          cases ha
          exact hi.closers (List.mem_of_getElem? hc)
        all_goals cases ha
      | handler i =>
        simp only [Conn.act] at ha
        split at ha <;> cases ha
      | _ => cases ha
    rw [hfx]
    exact (hm.keeps (I := fun k log => k.Ends (h.step e).reset log ∧ (h.conn.act e = .finish true → k.state.eos))
      (fun hm hk => ⟨hk.1.move hm hrst hk.2, fun ha => hm.eos (hk.2 ha)⟩) _ ⟨hmono, hclose⟩).1

theorem step_taken {h : Eof} (hi : h.Inv) (e : Event) :
    (h.step e).taken = (h.step e).conn.delivered ++ queueBytes (h.step e).conn.sk.receiveQueue := by
  show (if h.finned then h.taken else h.taken ++ h.takes e) =
    (h.conn.step e).delivered ++ queueBytes (h.conn.step e).sk.receiveQueue
  rcases h.conn.step_reads e with ⟨hr, hd⟩ | ⟨hr, n, hd, hrcv⟩
  · obtain ⟨es, -, hm⟩ := Conn.step_moves hi.readers.ready e
    obtain ⟨more, hq, hn⟩ := hm.queue_grows hr
    have hq : (h.conn.step e).sk.receiveQueue = h.conn.sk.receiveQueue ++ more := hq
    have htakes : (if h.finned then h.taken else h.taken ++ h.takes e) = h.taken ++ queueBytes more := by
      split
      next hf =>
        rw [hn (.inl (hi.ends.fin (of_decide_eq_true hf)))]
        exact (List.append_nil _).symm
      next =>
        by_cases he : ∃ th data psh, e = .segment th data psh
        · obtain ⟨th, data, psh, rfl⟩ := he
          rw [takes, hq, queueBytes_append, List.drop_left]
        · push Not at he
          have hnone : h.takes e = [] := by
            cases e with
            | segment th data psh => exact absurd rfl (he _ _ _)
            | _ => rfl
          rw [hnone, hn (.inr fun c₀ th skb => Conn.not_arrive he c₀ th skb)]
          rfl
    rw [htakes, hd, hq, queueBytes_append, hi.taken, List.append_assoc]
  · have hnone : h.takes e = [] := by
      cases e with
      | segment th data psh => cases hr
      | _ => rfl
    have hq : queueBytes (h.conn.step e).sk.receiveQueue = queueBytes (dequeueLoop n h.conn.sk.receiveQueue).2.1 :=
      congrArg (fun r => queueBytes r.queue) hrcv
    rw [hnone, List.append_nil, ite_self, hd, hq, List.append_assoc, dequeueLoop_bytes]
    exact hi.taken

theorem Inv.step {h : Eof} (hi : h.Inv) (e : Event) : (h.step e).Inv where
  readers := Conn.live_onlyReaders hi.readers (.conn e)
  roomy := Conn.live_roomy hi.roomy (.conn e)
  closers := Conn.live_closers hi.readers hi.closers (.conn e)
  ends := hi.step_ends e
  taken := step_taken hi e

/-- A read or a reader that runs again leaves the FIN as it is. -/
theorem step_finned {h : Eof} (hi : h.Inv) {e : Event} (he : ∀ th data psh, e ≠ .segment th data psh) :
    (h.step e).finned = h.finned := by
  unfold finned
  rw [decide_eq_decide]
  show .peerFin ∈ (h.conn.step e).sk.fx ↔ _
  obtain ⟨es, hfx, -⟩ := Conn.step_moves hi.readers.ready e
  refine ⟨fun hm => ?_, fun hm => ?_⟩
  · by_contra hn
    obtain ⟨-, th, data, psh, hseg⟩ := Conn.live_peerFin hi.readers hn (e := .conn e) hm
    exact he th data psh (LifeEvent.conn.inj hseg)
  · rw [hfx]
    exact List.mem_append_left es hm

/-- At the end of the stream a connection is cut off or has seen the FIN. -/
theorem cut_eq {h : Eof} (hi : h.Inv) (he : h.conn.sk.state.eos) : h.cut = !h.finned := by
  unfold cut
  cases hf : h.finned with
  | true => simp
  | false =>
    have hn : .peerFin ∉ h.conn.sk.fx := of_decide_eq_false hf
    rcases (hi.ends.eos he).resolve_left hn with hr | hd
    · simp [hr]
    · have hd : h.conn.sk.sockState = .disconnecting := hd
      simp [hd]

/-- A read that finds only data-less segments leaves only such. -/
theorem step_drained {h : Eof} (hd : h.conn.sk.drained) {e : Event} (ha : h.conn.act e = .read) : (h.conn.step e).sk.drained := by
  rcases h.conn.step_reads e with ⟨hr, -⟩ | ⟨-, n, -, hrcv⟩
  · exact absurd ha hr
  · have hq : queueBytes (h.conn.step e).sk.receiveQueue = queueBytes (dequeueLoop n h.conn.sk.receiveQueue).2.1 :=
      congrArg (fun r => queueBytes r.queue) hrcv
    have hb := dequeueLoop_bytes n h.conn.sk.receiveQueue
    rw [TcpSock.drained, List.isEmpty_iff] at hd ⊢
    rw [hd] at hb
    rw [hq]
    exact (List.append_eq_nil_iff.mp hb).2

/-- What a read has not copied out is still queued. -/
theorem Inv.delivered {h : Eof} (hi : h.Inv) : h.conn.delivered = h.taken ↔ h.conn.sk.drained := by
  rw [hi.taken, TcpSock.drained, List.isEmpty_iff]
  exact List.self_eq_append_right

/-- A read in a state that answers for itself. -/
theorem step_over {h : Eof} (ho : h.conn.sk.state.over) (len : Nat) : (h.conn.step (.read len)).sk = h.conn.sk := by
  have hsame : (tcpRead h.conn.sk len).1 = h.conn.sk := by
    unfold tcpRead
    cases hs : h.conn.sk.state <;> rw [hs] at ho <;> first | rfl | cases ho
  unfold Conn.step
  split
  · rfl
  · exact (Conn.settleRead_sk _ _).trans hsame

theorem drained_of_zero {s : TcpSock} (h : (s.drained && s.flagFin || s.blankPush) = true) : s.drained := by
  rw [TcpSock.blankPush, ← Bool.and_or_distrib_left, Bool.and_eq_true] at h
  exact h.1

/-- **The exact condition**: a read or a reader that runs again is sound if it is spared. -/
theorem sound_iff {h : Eof} (hi : h.Inv) (e : Event) : h.Sound e ↔ h.spares e := by
  have hz := Conn.returnsZero_cases hi.ends.psh hi.roomy (e := e)
  unfold Sound spares
  cases h.opened with
  | false => simp
  | true =>
    cases hf : h.conn.sk.fault with
    | true =>
      have hno : h.conn.returnsZero e = false := by simpa [hf] using hz
      simp [hno]
    | false =>
      simp only [hf, true_and] at hz
      simp only [forall_const, Bool.not_true, Bool.or_self, Bool.false_or, hz, (hi.step e).delivered]
      cases e with
      | read len =>
        have hfin : (h.step (.read len)).finned = h.finned := step_finned hi nofun
        dsimp only
        by_cases hlen : len = 0
        · simp [hlen]
        have hpos : 0 < len := Nat.pos_of_ne_zero hlen
        rw [hfin, decide_eq_false hlen, Bool.false_or, TcpSock.readsZero]
        cases ho : h.conn.sk.state.over with
        | true =>
          have hsame : (h.step (.read len)).conn.sk = h.conn.sk := step_over ho len
          have heos : h.conn.sk.state.eos := by
            revert ho
            cases h.conn.sk.state <;> decide
          rw [hsame, cut_eq hi heos]
          simp [hpos, imp_iff_not_or]
        | false =>
          -- a FIN flag here is in CLOSE_WAIT
          have hflag : h.conn.sk.flagFin → h.finned := fun hflag => by
            have heos := hi.ends.flag hflag
            have hcw : h.conn.sk.core.state = .closeWait := by
              have ho : h.conn.sk.core.state.over = false := ho
              revert ho heos
              cases h.conn.sk.core.state <;> decide
            exact decide_eq_true (hi.ends.closeWait hcw)
          by_cases hc : h.conn.sk.state = .close
          · simp [hc]
          simp only [hpos, hc, ne_eq, not_false_eq_true, decide_true, Bool.true_and, true_and, decide_false, Bool.false_or,
            Bool.false_eq_true, if_false]
          cases hfd : h.finned with
          | true =>
            simp only [Bool.or_true, true_and, iff_true]
            exact fun h0 => step_drained (drained_of_zero h0) rfl
          | false =>
            have hno : h.conn.sk.flagFin = false := by
              by_contra hno
              rw [hflag (by simpa using hno)] at hfd
              cases hfd
            simp [hno]
      | resume i =>
        have hfin : (h.step (.resume i)).finned = h.finned := step_finned hi nofun
        dsimp only
        rw [hfin]
        cases hcall : h.conn.calls[i]? with
        | none => simp
        | some call =>
          cases call with
          | send | fin => simp
          | recv len got =>
            cases got with
            | cons b got => simp
            | nil =>
              have hact : h.conn.act (.resume i) = .read := by simp only [Conn.act, hcall]
              simp only [Option.some.injEq, Call.recv.injEq, and_true, exists_eq_left']
              cases hfd : h.finned with
              | true =>
                have hcut : h.cut = false := by simp [cut, hfd]
                simp only [hcut, Bool.or_true, Bool.and_false, Bool.not_false, Bool.and_self, true_and, iff_true]
                exact fun h0 => step_drained (drained_of_zero h0) hact
              | false =>
                have hcut : h.conn.sk.flagFin → h.cut := fun hflag => by
                  rw [cut_eq hi (hi.ends.flag hflag), hfd]
                  rfl
                cases hflag : h.conn.sk.flagFin with
                | true =>
                  rw [hcut hflag]
                  cases h.conn.sk.drained <;> cases h.conn.sk.blankPush <;> simp
                | false => simp
      | _ => simp

theorem Inv.start {iss : U32} {s : TcpSock} (ho : Opened iss s) : Inv { conn := { sk := s } } := by
  obtain ⟨k, nxt, wnd, scale, cwnd, e, -, -, hfx, hs⟩ := ho.syn
  have hn : .peerFin ∉ s.fx := by
    rw [hfx]
    simp only [List.mem_cons, reduceCtorEq, List.not_mem_nil, or_false, false_or]
    exact fun h => sends_ne_peerFin hs h.symm
  have hcore : s.core.flagPsh = false ∧ s.core.flagFin = false ∧ s.core.state.eos = false := by
    cases ho with
    | active o iss => rw [activeOpen_core o iss]; exact ⟨rfl, rfl, rfl⟩
    | passive _ hl => rw [(tcpListen_core hl).1]; exact ⟨rfl, rfl, rfl⟩
  obtain ⟨hpsh, hfin, heos⟩ := hcore
  have hno : ¬s.core.state.eos := by simp [heos]
  refine ⟨fun _ => by simp, by simp, by simp, ⟨hpsh, fun h => absurd h hn, fun h => absurd h hno, fun h => ?_, fun h => ?_⟩, ?_⟩
  · exact absurd (by rw [h]; rfl) hno
  · have h : s.core.flagFin = true := h
    rw [hfin] at h
    cases h
  · have hq : s.receiveQueue = [] := ho.rcv.2.1
    show [] = [] ++ queueBytes s.receiveQueue
    rw [hq]
    rfl

end Eof

/-- **EOF soundness.** In a run of a connection every `tcp_read` that returns 0 is
at the end of the stream if and only if every one is spared: in CLOSING, LAST_ACK
and TIME_WAIT it finds an error, or an empty queue on a connection that has not
been reset, timed out or aborted; elsewhere it finds no PSH mark without data
before the FIN. -/
theorem eof_sound {iss : U32} {s : TcpSock} (ho : Opened iss s) (es : List Event) :
    Machine.Meets Eof.step Eof.Sound { conn := { sk := s } } es ↔
      Machine.Meets Eof.step (fun h e => h.spares e) { conn := { sk := s } } es :=
  Machine.Meets.iff_of_invariant (I := Eof.Inv) (fun _ e hi => hi.step e) (fun _ e hi => Eof.sound_iff hi e) (Eof.Inv.start ho) es

/-- The peer sends three bytes and its FIN; two reads take the bytes, the third
returns 0. -/
def readOut : List Event :=
  [synAckEvent, dataEvent 501 (.ofTake 3 [1, 2, 3]),
   .segment { seq := 504, ackSeq := 101, ack := true, fin := true, win := 10000 } .nil false, .read 2, .read 2, .read 2]

theorem eof_sound_readOut : Machine.Meets Eof.step Eof.Sound { conn := clientConn } readOut :=
  (eof_sound (.active {} 100) readOut).mpr (by decide +kernel)

/-- An RST in the window. -/
def rstEvent (seq : U32) : Event := .segment { seq := seq, ackSeq := 0, rst := true, win := 0 } .nil false

/-- Four ways to a false end of the stream: an RST, with three bytes unread; a
segment with PSH and no data; the user timeout; and, for a reader that was
asleep, an ACK in TIME_WAIT after an RST. -/
theorem false_eof :
    ¬Machine.Meets Eof.step Eof.Sound { conn := clientConn }
      [synAckEvent, dataEvent 501 ⟨[1, 2, 3], by decide⟩, rstEvent 504, .read 4] ∧
    ¬Machine.Meets Eof.step Eof.Sound { conn := clientConn }
      [synAckEvent, .segment { seq := 501, ackSeq := 101, ack := true, psh := true, win := 10000 } .nil true, .read 4] ∧
    ¬Machine.Meets Eof.step Eof.Sound { conn := clientConn }
      [synAckEvent, dataEvent 501 ⟨[1, 2, 3], by decide⟩, .read 3, .dispatch 1, .handler 0, .read 4] ∧
    ¬Machine.Meets Eof.step Eof.Sound { conn := clientConn }
      [synAckEvent, .read 4, rstEvent 501, dataEvent 501 .nil, .resume 0] := by
  decide +kernel

end LevelIp
