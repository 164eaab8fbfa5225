/-
The cores connections start with: the socket `tcp_connect` leaves in SYN_SENT
and the child `tcp_listen` forks into SYN_RECEIVED, each with its SYN queued.
-/
import LevelIp.StepMoves

namespace LevelIp

/-- A data-less skb with SYN. -/
structure Skb.IsSyn (k : Skb) : Prop where
  payload : k.payload = Payload.nil
  syn : k.syn = true
  fin : k.fin = false
  rst : k.rst = false
  seq : k.seq = 0

/-- The receive side before a SYN has arrived. -/
def RcvSide.fresh : RcvSide :=
  { nxt := 0, irs := 0, wnd := tcpSelectInitialWindow, realWnd := tcpSelectInitialWindow, queue := [], ofo := []
    scale := 0 }

/-- The send side of a connection whose SYN or SYN-ACK `k` has been queued. -/
def SndSide.start (iss nxt wnd : U32) (scale : U8) (k : Skb) : SndSide :=
  { iss := iss, una := iss, nxt := nxt, wnd := wnd, queue := [{ k with seq := iss, endSeq := iss, sacked := false }]
    inflight := 0, scale := scale }

theorem enqueue_syn {d : SndSide} {k : Skb} (hk : k.IsSyn) (hq : d.queue = []) (hi : d.inflight = 0)
    (hn : d.nxt = d.iss) (hu : d.una = d.iss) : d.enqueue k = SndSide.start d.iss d.iss d.wnd d.scale k := by
  have hl : k.dlen = 0 := by rw [Skb.dlen, hk.payload]; rfl
  cases d
  simp only at hq hi hn hu
  subst hq hi hn hu
  simp [SndSide.enqueue, SndSide.advance, SndSide.number, SndSide.start, Skb.plain, hl, hk.fin]

/-- The skb of a SYN. -/
def synSkb (s : TcpSock) : Skb := { opts := tcpSynOptions s, syn := true }

theorem synSkb_isSyn (s : TcpSock) : (synSkb s).IsSyn := ⟨rfl, rfl, rfl, rfl, rfl⟩

theorem synAckSkb_isSyn : synAckSkb.IsSyn := ⟨rfl, rfl, rfl, rfl, rfl⟩

/-- The socket `tcp_connect` sends the SYN from. -/
def connectSock (o : OpenArgs) (iss : U32) : TcpSock :=
  { freshSock o with state := .synSent, tcb := { iss := iss, sndUna := iss, sndUp := iss, sndNxt := iss
                                                 rcvWnd := tcpSelectInitialWindow, realRcvWnd := tcpSelectInitialWindow } }

theorem activeOpen_eq (o : OpenArgs) (iss : U32) : activeOpen o iss =
    let s := tcpQueueTransmitSkb (connectSock o iss) (synSkb (connectSock o iss))
    { s with tcb.sndNxt := s.tcb.sndNxt + 1, sockState := .connecting, err := -EINPROGRESS } := rfl

theorem activeOpen_core (o : OpenArgs) (iss : U32) : (activeOpen o iss).core =
    { state := .synSent, err := -EINPROGRESS, flagFin := false, flagPsh := false, ptsk := none, fault := false
      sockState := .connecting, rcv := RcvSide.fresh, snd := SndSide.start iss (iss + 1) 0 0 (synSkb (connectSock o iss)) } := by
  rw [activeOpen_eq]
  have hc := tcpQueueTransmitSkb_core (connectSock o iss) (synSkb (connectSock o iss))
  rw [enqueue_syn (synSkb_isSyn _) rfl rfl rfl rfl] at hc
  generalize tcpQueueTransmitSkb (connectSock o iss) (synSkb (connectSock o iss)) = t at hc
  have : ({ t with tcb.sndNxt := t.tcb.sndNxt + 1, sockState := .connecting, err := -EINPROGRESS } : TcpSock).core =
      { t.core with err := -EINPROGRESS, sockState := .connecting, snd := { t.core.snd with nxt := t.core.snd.nxt + 1 } } := rfl
  refine this.trans ?_
  rw [hc]
  rfl

theorem activeOpen_fx (o : OpenArgs) (iss : U32) : ∃ cwnd e, (activeOpen o iss).fx =
      [.queued { synSkb (connectSock o iss) with seq := iss, endSeq := iss } 0 cwnd, e] ∧
    RcvSide.fresh.Sends (synSkb (connectSock o iss)) iss e := by
  obtain ⟨e, hf, he⟩ := tcpQueueTransmitSkb_fx (connectSock o iss) (synSkb (connectSock o iss))
  refine ⟨(connectSock o iss).cwnd, e, ?_, he⟩
  rw [activeOpen_eq]
  refine hf.trans ?_
  have hnum : numbered (connectSock o iss) (synSkb (connectSock o iss)) =
      { synSkb (connectSock o iss) with seq := iss, endSeq := iss } := by
    simp [numbered, connectSock, synSkb, Skb.dlen]
  rw [hnum]
  rfl

/-- The receive side `fork_socket` starts. -/
def RcvSide.forked (th : Tcphdr) : RcvSide :=
  { nxt := th.seq + 1, irs := th.seq, wnd := tcpSelectInitialWindow, realWnd := tcpSelectInitialWindow
    queue := [], ofo := [], scale := synScale 0 th }

/-- The core of the child `tcp_listen` makes before it sends the SYN-ACK. -/
theorem forkSocket_core (l : TcpSock) (th : Tcphdr) (env : SynEnv) : (forkSocket l th env).core =
    { state := .synReceived, err := 0, flagFin := false, flagPsh := false, ptsk := none, fault := false
      sockState := .unconnected, rcv := RcvSide.forked th
      snd := { iss := env.iss, una := env.iss, nxt := env.iss, wnd := U16.wide th.win, queue := [], inflight := 0
               scale := synScale 0 th } } := by
  have hc := tcpParseOpts_core (tcpAllocSock.setState .synReceived) th
  unfold forkSocket
  generalize tcpParseOpts (tcpAllocSock.setState .synReceived) th = t at hc
  have hst : t.state = .synReceived := congrArg Core.state hc
  have herr : t.err = 0 := congrArg Core.err hc
  have hfin : t.flagFin = false := congrArg Core.flagFin hc
  have hpsh : t.flagPsh = false := congrArg Core.flagPsh hc
  have hpt : t.ptsk = none := congrArg Core.ptsk hc
  have hfl : t.fault = false := congrArg Core.fault hc
  have hss : t.sockState = .unconnected := congrArg Core.sockState hc
  have hrq : t.receiveQueue = [] := congrArg (·.rcv.queue) hc
  have hoq : t.ofoQueue = [] := congrArg (·.rcv.ofo) hc
  have hrs : t.rcvScale = 0 := congrArg (·.rcv.scale) hc
  have hwq : t.writeQueue.map Skb.plain = [] := congrArg (·.snd.queue) hc
  have hin : t.inflight = 0 := congrArg (·.snd.inflight) hc
  have hsc : t.sndScale = synScale 0 th := congrArg (·.snd.scale) hc
  dsimp only
  split
  next =>
    simp only [TcpSock.core, TcpSock.rcv, TcpSock.snd, RcvSide.forked, hst, herr, hfin, hpsh, hpt, hfl, hss, hrq, hoq,
      hwq, hin, hsc]
  next h0 =>
    rw [not_not, hsc] at h0
    simp only [TcpSock.core, TcpSock.rcv, TcpSock.snd, RcvSide.forked, hst, herr, hfin, hpsh, hpt, hfl, hss, hrq, hoq,
      hwq, hin, hsc, hrs, h0]

theorem forkSocket_fx (l : TcpSock) (th : Tcphdr) (env : SynEnv) : (forkSocket l th env).fx = [] := by
  have hf := tcpParseOpts_fx (tcpAllocSock.setState .synReceived) th
  unfold forkSocket
  generalize tcpParseOpts (tcpAllocSock.setState .synReceived) th = t at hf
  dsimp only
  split <;> exact hf

/-- The child `tcp_listen` makes: `snd_nxt` is two past the ISS. -/
theorem tcpListen_core {l s : TcpSock} {th : Tcphdr} {env : SynEnv} (h : tcpListen l th env = some s) :
    s.core = { state := .synReceived, err := 0, flagFin := false, flagPsh := false, ptsk := some env.listener
               fault := false, sockState := .unconnected, rcv := RcvSide.forked th
               snd := SndSide.start env.iss (env.iss + 2) (U16.wide th.win) (synScale 0 th) synAckSkb } ∧
    ∃ cwnd e, s.fx = [.queued { synAckSkb with seq := env.iss, endSeq := env.iss } 0 cwnd, e] ∧
      (RcvSide.forked th).Sends synAckSkb env.iss e := by
  unfold tcpListen at h
  split at h
  next =>
    have hf : ({ forkSocket l th env with ptsk := some env.listener } : TcpSock).core =
        { (forkSocket l th env).core with ptsk := some env.listener } := rfl
    rw [forkSocket_core] at hf
    have hfx : ({ forkSocket l th env with ptsk := some env.listener } : TcpSock).fx = [] := forkSocket_fx l th env
    generalize ({ forkSocket l th env with ptsk := some env.listener } : TcpSock) = t at h hf hfx
    have hst : t.state = .synReceived := congrArg Core.state hf
    have hrcv : t.rcv = RcvSide.forked th := congrArg Core.rcv hf
    have hnxt : t.tcb.sndNxt = env.iss := congrArg (·.snd.nxt) hf
    have hsnd : t.snd = _ := congrArg Core.snd hf
    obtain ⟨e, hfx', he⟩ := tcpSendSynack_fx hst
    have hc := tcpSendSynack_core hst
    rw [hfx, hsnd] at hfx'
    rw [hrcv, hnxt] at he
    rw [hf, SndSide.synack, enqueue_syn synAckSkb_isSyn rfl rfl rfl rfl] at hc
    generalize tcpSendSynack t = u at h hc hfx'
    cases h
    have hu : ({ u with tcb.sndNxt := u.tcb.sndNxt + 1 } : TcpSock).core =
        { u.core with snd := { u.core.snd with nxt := u.core.snd.nxt + 1 } } := rfl
    refine ⟨?_, t.cwnd, e, ?_, he⟩
    · rw [hu, hc]
      simp only [SndSide.start]
      congr 2
      bv_omega
    · refine hfx'.trans ?_
      have hi : t.inflight = 0 := congrArg (·.snd.inflight) hf
      simp [SndSide.number, synAckSkb, tcpAllocSkb, Skb.dlen, hi]
  next => cases h

/-- Both ways of opening leave one data-less SYN queued, and logged as sent. -/
theorem Opened.syn {iss : U32} {s : TcpSock} (h : Opened iss s) :
    ∃ k nxt wnd scale cwnd e, Skb.IsSyn k ∧ s.core.snd = SndSide.start iss nxt wnd scale k ∧
      s.fx = [.queued { k with seq := iss, endSeq := iss } 0 cwnd, e] ∧ s.core.rcv.Sends k iss e := by
  cases h with
  | active o iss =>
    obtain ⟨cwnd, e, hf, he⟩ := activeOpen_fx o iss
    have hc := activeOpen_core o iss
    exact ⟨_, _, _, _, cwnd, e, synSkb_isSyn _, congrArg Core.snd hc, hf, by rw [hc]; exact he⟩
  | passive _ hl =>
    obtain ⟨hc, cwnd, e, hf, he⟩ := tcpListen_core hl
    exact ⟨_, _, _, _, cwnd, e, synAckSkb_isSyn, congrArg Core.snd hc, hf, by rw [hc]; exact he⟩

/-- Both ways of opening start with empty receive queues and the whole window. -/
theorem Opened.rcv {iss : U32} {s : TcpSock} (h : Opened iss s) :
    s.core.rcv.realWnd = 44477 ∧ s.core.rcv.queue = [] ∧ s.core.rcv.ofo = [] := by
  cases h with
  | active o iss => rw [activeOpen_core o iss]; exact ⟨rfl, rfl, rfl⟩
  | passive _ hl => rw [(tcpListen_core hl).1]; exact ⟨rfl, rfl, rfl⟩

/-! ## A connection for concrete runs -/

/-- A connection opened from ISS 100. -/
def clientConn : Conn := { sk := activeOpen {} 100 }

/-- The SYN-ACK of its peer, whose ISS is 500. -/
def synAckEvent : Event :=
  .segment { seq := 500, ackSeq := 101, syn := true, ack := true, win := 10000 } Payload.nil false

/-- Data from the peer, acknowledging the SYN. -/
def dataEvent (seq : U32) (data : Payload) : Event :=
  .segment { seq := seq, ackSeq := 101, ack := true, win := 10000 } data false

/-- An ACK from the peer, before it has sent anything. -/
def ackEvent (a : U32) : Event := .segment { seq := 501, ackSeq := a, ack := true, win := 10000 } Payload.nil false

end LevelIp
