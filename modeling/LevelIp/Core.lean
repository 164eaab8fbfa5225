/-
The part of a TCP socket that carries its guarantees, apart from timers,
congestion control and bookkeeping: connection state, receive side, send side.

Most functions of the source leave it alone and emit only data-less segments
(`Quiet`); the others change it in one place, which their lemma here states.
No later proof unfolds a function for what it does not touch.
-/
import LevelIp.Conn

namespace LevelIp

/-- The receive side: `rcv_nxt`, `irs`, the two windows, the two queues and the
shift applied to outgoing windows. -/
structure RcvSide where
  nxt : U32
  irs : U32
  wnd : U32
  realWnd : U32
  queue : List Skb
  ofo : List Skb
  scale : U8
deriving DecidableEq

/-- The send side: sequence numbers, the peer's window with its shift, the
queue and FlightSize. -/
structure SndSide where
  iss : U32
  una : U32
  nxt : U32
  wnd : U32
  queue : List Skb
  inflight : U32
  scale : U8
deriving DecidableEq

structure Core where
  state : TcpState
  err : Int
  flagFin : Bool
  flagPsh : Bool
  ptsk : Option Nat
  fault : Bool
  sockState : SocketState
  rcv : RcvSide
  snd : SndSide
deriving DecidableEq

/-- An skb without its SACK mark, which only the choice of what to resend reads. -/
def Skb.plain (skb : Skb) : Skb := { skb with sacked := false }

namespace TcpSock

def rcv (s : TcpSock) : RcvSide :=
  { nxt := s.tcb.rcvNxt, irs := s.tcb.irs, wnd := s.tcb.rcvWnd, realWnd := s.tcb.realRcvWnd
    queue := s.receiveQueue, ofo := s.ofoQueue, scale := s.rcvScale }

def snd (s : TcpSock) : SndSide :=
  { iss := s.tcb.iss, una := s.tcb.sndUna, nxt := s.tcb.sndNxt, wnd := s.tcb.sndWnd
    queue := s.writeQueue.map Skb.plain, inflight := s.inflight, scale := s.sndScale }

def core (s : TcpSock) : Core :=
  { state := s.state, err := s.err, flagFin := s.flagFin, flagPsh := s.flagPsh, ptsk := s.ptsk
    fault := s.fault, sockState := s.sockState, rcv := s.rcv, snd := s.snd }

end TcpSock

/-- What the core leaves out and some results are about: the RTO with its
estimators, and the poll mask. -/
structure Dials where
  rto : U32
  srtt : Int
  rttvar : Int
  pollEvents : U16

def TcpSock.dials (s : TcpSock) : Dials := { rto := s.rto, srtt := s.srtt, rttvar := s.rttvar, pollEvents := s.pollEvents }

/-- The window field a segment gets, from the receive side. -/
def RcvSide.win (r : RcvSide) (syn : Bool) : U16 :=
  if syn then r.realWnd.setWidth 16 else r.realWnd.setWidth 16 >>> r.scale.toNat

/-- A segment stamped with this receive side. -/
def RcvSide.Stamps (r : RcvSide) (seg : Seg) (unread : Nat) : Prop :=
  seg.ackSeq = r.nxt ∧ seg.win = r.win seg.syn ∧ unread = (queueBytes r.queue).length

/-- `skb` sent with number `seq` by a socket with this receive side. -/
def RcvSide.Sends (r : RcvSide) (skb : Skb) (seq : U32) : Effect → Prop
  | .xmit seg unread =>
    seg.seq = seq ∧ seg.payload = skb.payload ∧ seg.syn = skb.syn ∧ seg.fin = skb.fin ∧ seg.rst = skb.rst ∧
      seg.ack = skb.ack ∧ seg.psh = skb.psh ∧ r.Stamps seg unread
  | _ => False

/-- Effects that carry no data and number none: wakeups, and data-less segments
without SYN or FIN at `snd_nxt`. -/
def Core.Plain (c : Core) : Effect → Prop
  | .xmit seg unread =>
    seg.payload.bytes = [] ∧ seg.syn = false ∧ seg.fin = false ∧ seg.seq = c.snd.nxt ∧ c.rcv.Stamps seg unread
  | .wakeup _ | .acceptQueue _ => True
  | .queued _ _ _ | .peerFin => False

theorem plain_ne_peerFin {c : Core} {e : Effect} (h : c.Plain e) : e ≠ .peerFin := by
  rintro rfl
  exact h

theorem sends_ne_peerFin {r : RcvSide} {skb : Skb} {seq : U32} {e : Effect} (h : r.Sends skb seq e) : e ≠ .peerFin := by
  rintro rfl
  exact h

/-- `s'` has logged effects after `s`, all of them as `P` says. -/
def Logs (P : Effect → Prop) (s s' : TcpSock) : Prop := ∃ new, s'.fx = s.fx ++ new ∧ ∀ e ∈ new, P e

theorem Logs.refl {P : Effect → Prop} (s : TcpSock) : Logs P s s := ⟨[], by simp, by simp⟩

theorem Logs.same {P : Effect → Prop} {s s' : TcpSock} (h : s'.fx = s.fx) : Logs P s s' := ⟨[], by simp [h], by simp⟩

theorem Logs.trans {P : Effect → Prop} {s t u : TcpSock} (h₁ : Logs P s t) (h₂ : Logs P t u) : Logs P s u := by
  obtain ⟨n₁, e₁, p₁⟩ := h₁
  obtain ⟨n₂, e₂, p₂⟩ := h₂
  refine ⟨n₁ ++ n₂, by rw [e₂, e₁, List.append_assoc], fun e he => ?_⟩
  rcases List.mem_append.mp he with h | h
  · exact p₁ e h
  · exact p₂ e h

theorem Logs.mono {P Q : Effect → Prop} {s s' : TcpSock} (h : Logs P s s') (hpq : ∀ e, P e → Q e) : Logs Q s s' := by
  obtain ⟨n, e, p⟩ := h
  exact ⟨n, e, fun e he => hpq e (p e he)⟩

theorem Logs.mem {P : Effect → Prop} {s s' : TcpSock} (h : Logs P s s') {e : Effect} (he : e ∈ s'.fx) :
    e ∈ s.fx ∨ P e := by
  obtain ⟨n, heq, p⟩ := h
  rw [heq] at he
  exact (List.mem_append.mp he).imp_right (p e)

theorem Logs.keeps {P : Effect → Prop} {s s' : TcpSock} (h : Logs P s s') {e : Effect} (he : e ∈ s.fx) :
    e ∈ s'.fx := by
  obtain ⟨n, heq, -⟩ := h
  rw [heq]
  exact List.mem_append_left _ he

theorem Logs.emit {P : Effect → Prop} {s : TcpSock} {e : Effect} (h : P e) : Logs P s (s.emit e) :=
  ⟨[e], rfl, by simpa using h⟩

/-- The core is as before and only plain effects were logged. -/
structure Quiet (s s' : TcpSock) : Prop where
  core : s'.core = s.core
  logs : Logs s.core.Plain s s'

theorem Quiet.refl (s : TcpSock) : Quiet s s := ⟨rfl, .refl s⟩

theorem Quiet.trans {s t u : TcpSock} (h₁ : Quiet s t) (h₂ : Quiet t u) : Quiet s u :=
  ⟨h₂.core.trans h₁.core, h₁.logs.trans (h₁.core ▸ h₂.logs)⟩

/-- An update outside the core and the log. -/
theorem Quiet.of_eq {s s' : TcpSock} (hc : s'.core = s.core) (hf : s'.fx = s.fx) : Quiet s s' := ⟨hc, .same hf⟩

/-- A quiet function run after an update outside the core and the log. -/
theorem Quiet.after {s t u : TcpSock} (h : Quiet t u) (hc : t.core = s.core) (hf : t.fx = s.fx) : Quiet s u :=
  (Quiet.of_eq hc hf).trans h

theorem Quiet.state {s s' : TcpSock} (h : Quiet s s') : s'.state = s.state := congrArg Core.state h.core

theorem Quiet.ite {s a b : TcpSock} {p : Prop} [Decidable p] (ha : Quiet s a) (hb : Quiet s b) :
    Quiet s (if p then a else b) := by
  split
  · exact ha
  · exact hb

/-! ## Quiet functions -/

theorem quiet_wakeup (s : TcpSock) (w : Wait) : Quiet s (s.wakeup w) := ⟨rfl, .emit trivial⟩

theorem quiet_timerCancel (s : TcpSock) (t : Option Timer) : Quiet s (s.timerCancel t) := by
  cases t <;> exact .of_eq rfl rfl

theorem quiet_tcpStopRtoTimer (s : TcpSock) : Quiet s (tcpStopRtoTimer s) :=
  (quiet_timerCancel s s.retransmit).trans (.of_eq rfl rfl)

theorem quiet_tcpStopDelackTimer (s : TcpSock) : Quiet s (tcpStopDelackTimer s) :=
  (quiet_timerCancel s s.delack).trans (.of_eq rfl rfl)

theorem quiet_tcpStopLinger (s : TcpSock) : Quiet s (tcpStopLinger s) :=
  (quiet_timerCancel s s.linger).trans (.of_eq rfl rfl)

theorem quiet_tcpClearTimers (s : TcpSock) : Quiet s (tcpClearTimers s) :=
  ((quiet_tcpStopRtoTimer s).trans (quiet_tcpStopDelackTimer _)).trans (quiet_tcpStopLinger _)

theorem quiet_tcpRearmRtoTimer (s : TcpSock) : Quiet s (tcpRearmRtoTimer s) := .of_eq rfl rfl

theorem quiet_tcpRearmUserTimeout (s : TcpSock) : Quiet s (tcpRearmUserTimeout s) := by
  unfold tcpRearmUserTimeout
  split
  · exact .refl s
  · exact (quiet_timerCancel s s.linger).trans (.of_eq rfl rfl)

theorem quiet_tcpRtt (s : TcpSock) : Quiet s (tcpRtt s) := by
  unfold tcpRtt
  split
  · exact .refl s
  · split
    · exact .refl s
    · dsimp only
      split
      · exact .refl s
      · split <;> exact .of_eq rfl rfl

theorem quiet_tcpSackMarkWriteQueue (s : TcpSock) (blocks : List (U32 × U32)) :
    Quiet s (tcpSackMarkWriteQueue s blocks) := by
  refine .of_eq ?_ rfl
  have hq : (tcpSackMarkWriteQueue s blocks).writeQueue.map Skb.plain = s.writeQueue.map Skb.plain := by
    simp only [tcpSackMarkWriteQueue, List.map_map, List.map_inj_left, Function.comp_apply]
    intro skb _
    split <;> rfl
  simp only [TcpSock.core, TcpSock.snd, hq]
  rfl

theorem quiet_tcpSackClear (s : TcpSock) : Quiet s (tcpSackClear s) := by
  refine .of_eq ?_ rfl
  have hq : (tcpSackClear s).writeQueue.map Skb.plain = s.writeQueue.map Skb.plain := by
    simp only [tcpSackClear, List.map_map, List.map_inj_left, Function.comp_apply]
    intro skb _
    rfl
  simp only [TcpSock.core, TcpSock.snd, hq]
  rfl

theorem quiet_tcpCalculateSacksLoop (seq endSeq : U32) (q : List Skb) (s : TcpSock) (sb : Nat) :
    Quiet s (tcpCalculateSacksLoop seq endSeq q s sb) := by
  induction q generalizing s sb with
  | nil => exact .refl s
  | cons next rest ih =>
    simp only [tcpCalculateSacksLoop]
    split
    · exact ih _ _
    · split
      · exact .refl s
      · split
        · exact (ih _ _).after rfl rfl
        · split <;> exact (ih _ _).after rfl rfl

theorem quiet_tcpCalculateSacks (s : TcpSock) (seq endSeq : U32) : Quiet s (tcpCalculateSacks s seq endSeq) :=
  (quiet_tcpCalculateSacksLoop _ _ _ _ _).after rfl rfl

theorem quiet_tcpWriteOptionsClear (s : TcpSock) : Quiet s (tcpWriteOptionsClear s) := by
  unfold tcpWriteOptionsClear
  split
  · exact .of_eq rfl rfl
  · exact .refl s

/-! ## Transmission -/

theorem tcpTransmitSkb_core (s : TcpSock) (skb : Skb) (seq : U32) : (tcpTransmitSkb s skb seq).core = s.core := by
  simp only [tcpTransmitSkb]
  split
  · exact (quiet_tcpWriteOptionsClear s).core
  · rfl

theorem tcpTransmitSkb_dials (s : TcpSock) (skb : Skb) (seq : U32) : (tcpTransmitSkb s skb seq).dials = s.dials := by
  simp only [tcpTransmitSkb, tcpWriteOptionsClear]
  split
  · split <;> rfl
  · rfl

theorem tcpTransmitSkb_rto (s : TcpSock) (skb : Skb) (seq : U32) : (tcpTransmitSkb s skb seq).rto = s.rto :=
  congrArg Dials.rto (tcpTransmitSkb_dials s skb seq)

theorem tcpTransmitSkb_fx (s : TcpSock) (skb : Skb) (seq : U32) :
    (tcpTransmitSkb s skb seq).fx = s.fx ++ [.xmit (segOf s skb seq) s.unread.length] := by
  simp only [tcpTransmitSkb, TcpSock.emit, tcpWriteOptionsClear]
  split
  · split <;> rfl
  · rfl

theorem segOf_sends (s : TcpSock) (skb : Skb) (seq : U32) :
    s.rcv.Sends skb seq (.xmit (segOf s skb seq) s.unread.length) :=
  ⟨rfl, rfl, rfl, rfl, rfl, rfl, rfl, rfl, rfl, rfl⟩

/-- Transmitting logs that one segment. -/
theorem tcpTransmitSkb_logs (s : TcpSock) (skb : Skb) (seq : U32) :
    Logs (s.rcv.Sends skb seq) s (tcpTransmitSkb s skb seq) :=
  ⟨_, tcpTransmitSkb_fx s skb seq, by simpa using segOf_sends s skb seq⟩

/-- A data-less skb without SYN or FIN sent at `snd_nxt` is a plain effect. -/
theorem RcvSide.Sends.plain {c : Core} {skb : Skb} {e : Effect} (h : c.rcv.Sends skb c.snd.nxt e)
    (hp : skb.payload = Payload.nil) (hs : skb.syn = false) (hf : skb.fin = false) : c.Plain e := by
  cases e with
  | xmit seg unread =>
    obtain ⟨h1, h2, h3, h4, -, -, -, h5⟩ := h
    exact ⟨by rw [h2, hp]; rfl, h3.trans hs, h4.trans hf, h1, h5⟩
  | _ => exact h.elim

theorem quiet_tcpTransmitSkb (s : TcpSock) {skb : Skb} (hp : skb.payload = Payload.nil) (hs : skb.syn = false)
    (hf : skb.fin = false) : Quiet s (tcpTransmitSkb s skb s.tcb.sndNxt) :=
  ⟨tcpTransmitSkb_core s skb _, (tcpTransmitSkb_logs s skb _).mono fun _ h => RcvSide.Sends.plain (c := s.core) h hp hs hf⟩

theorem quiet_tcpSendAck (s : TcpSock) : Quiet s (tcpSendAck s) := by
  unfold tcpSendAck
  split
  · exact .refl s
  · exact quiet_tcpTransmitSkb s rfl rfl rfl

theorem quiet_tcpSendDelack (s : TcpSock) : Quiet s (tcpSendDelack s) :=
  (quiet_tcpSendAck _).after rfl rfl

theorem quiet_tcpCongAvoid (s : TcpSock) (acked : U32) : Quiet s (tcpCongAvoid s acked) := by
  unfold tcpCongAvoid
  split
  · exact .refl s
  · split
    · exact .refl s
    · split
      · exact .of_eq rfl rfl
      · dsimp only
        split <;> exact .of_eq rfl rfl

theorem quiet_dispatch (s : TcpSock) (i : Nat) : Quiet s (Conn.dispatch s i) := by
  unfold Conn.dispatch
  split
  · exact .refl s
  · exact .of_eq rfl rfl

theorem quiet_adjustPmtu6 (s : TcpSock) (mss : U16) : Quiet s (Conn.adjustPmtu6 s mss) := by
  unfold Conn.adjustPmtu6
  split
  · exact .of_eq rfl rfl
  · exact .refl s

end LevelIp
