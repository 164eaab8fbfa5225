/-
How long the retransmission timer is set. A connection opened actively never
arms it for less than 200 ms, doubles the time at each expiration, and so gives
up after at most ten of them; the child of a listener starts with an RTO of 0,
and twice 0 is 0.
-/
import LevelIp.TimerOps

namespace LevelIp

/-- The RTO and the smoothed round-trip time. -/
def Dials.rtt (d : Dials) : U32 × Int := (d.rto, d.srtt)

def TcpSock.rtt (s : TcpSock) : U32 × Int := s.dials.rtt

variable {s t : TcpSock}

theorem rtt_of_dials (h : t.dials = s.dials) : t.rtt = s.rtt := congrArg Dials.rtt h

/-! ## What leaves the estimate alone -/

theorem tcpRearmRtoTimer_dials (s : TcpSock) : (tcpRearmRtoTimer s).dials = s.dials := rfl

theorem tcpRearmUserTimeout_dials (s : TcpSock) : (tcpRearmUserTimeout s).dials = s.dials := by
  unfold tcpRearmUserTimeout
  split
  · rfl
  · exact timerCancel_dials s s.linger

theorem tcpSendLoop_dials (mss : U16) (len fuel : Nat) (s : TcpSock) (buf : List U8) :
    (tcpSendLoop mss len fuel s buf).1.dials = s.dials := by
  induction fuel generalizing s buf with
  | zero =>
    cases buf with
    | nil => exact tcpRearmUserTimeout_dials s
    | cons b buf => rfl
  | succ fuel ih =>
    cases buf with
    | nil => exact tcpRearmUserTimeout_dials s
    | cons b buf =>
      rw [tcpSendLoop]
      split
      · rw [ih, tcpQueueTransmitSkb_dials]
      · rfl

theorem tcpWrite_dials (s : TcpSock) (buf : List U8) : (tcpWrite s buf).1.dials = s.dials := by
  unfold tcpWrite
  split
  · exact tcpSendLoop_dials _ _ _ _ _
  · rfl

theorem tcpQueueFin_dials (s : TcpSock) (lastAck : Bool) : (tcpQueueFin s lastAck).1.dials = s.dials := by
  have hq := tcpQueueTransmitSkb_dials s finSkb
  unfold tcpQueueFin
  generalize tcpQueueTransmitSkb s finSkb = t at hq
  split
  · cases lastAck <;> exact hq
  · rfl

theorem tcpClose_dials (s : TcpSock) : (tcpClose s).1.dials = s.dials := by
  unfold tcpClose
  split
  case h_7 | h_8 | h_9 => exact tcpDone_dials s
  case h_10 => exact tcpQueueFin_dials (s.setState .finWait1) false
  case h_11 => exact tcpQueueFin_dials s true
  all_goals rfl

theorem tcpAbort_dials (s : TcpSock) : (tcpAbort s).dials = s.dials :=
  (tcpDone_dials _).trans (tcpTransmitSkb_dials _ _ _)

theorem tcpSendDelack_dials (s : TcpSock) : (tcpSendDelack s).dials = s.dials := tcpSendAck_dials _

theorem resumeSend_dials (s : TcpSock) (call : Call) : (resumeSend s call).1.dials = s.dials := by
  cases call with
  | send mss chunk rest len =>
    simp only [resumeSend]
    split
    · rw [tcpSendLoop_dials, tcpQueueTransmitSkb_dials]
    · rfl
  | fin lastAck => exact tcpQueueFin_dials s lastAck
  | recv len got => rfl

/-- A turn of the reader touches the poll mask only. -/
theorem tcpReceiveTurn_rtt (s : TcpSock) (len : Nat) (got : List U8) : (tcpReceiveTurn s len got).1.rtt = s.rtt := by
  have hd : (tcpDataDequeue s (len - got.length)).1.rtt = s.rtt := by
    simp only [tcpDataDequeue]
    split <;> rfl
  have hr : ∀ u : TcpSock, (tcpRearmUserTimeout u).rtt = u.rtt := fun u => rtt_of_dials (tcpRearmUserTimeout_dials u)
  unfold tcpReceiveTurn
  generalize tcpDataDequeue s (len - got.length) = r at hd
  obtain ⟨t, copied⟩ := r
  dsimp only at hd ⊢
  split
  · exact (hr _).trans hd
  · split
    · exact (hr t).trans hd
    · split
      · split
        · exact hd
        · exact (hr t).trans hd
      · exact hd

theorem tcpRead_rtt (s : TcpSock) (len : Nat) : (tcpRead s len).1.rtt = s.rtt := by
  have hr : (tcpReceive s len).1.rtt = s.rtt := by
    unfold tcpReceive
    split
    · exact tcpReceiveTurn_rtt s len []
    · exact rtt_of_dials (tcpRearmUserTimeout_dials s)
  unfold tcpRead
  split
  case h_1 | h_9 | h_10 | h_11 => rfl
  case h_8 =>
    split
    · rfl
    · exact hr
  all_goals exact hr

/-! ## The handlers -/

theorem tcpDone_rtt (s : TcpSock) : (tcpDone s).rtt = s.rtt := rtt_of_dials (tcpDone_dials s)

theorem tcpConnectRto_rtt (s : TcpSock) (n : Nat) : (tcpConnectRto s n).rtt = s.rtt := by
  unfold tcpConnectRto
  split
  · rfl
  · dsimp only
    split
    · split
      · exact (tcpDone_rtt _).trans rfl
      · split
        · rfl
        next k _ =>
          have ht := tcpTransmitSkb_dials (tcpReleaseRtoTimer s) k (tcpReleaseRtoTimer s).tcb.sndUna
          generalize tcpTransmitSkb (tcpReleaseRtoTimer s) k (tcpReleaseRtoTimer s).tcb.sndUna = t at ht
          exact congrArg Dials.rtt ht
    · rfl

/-- Past the limit of 60 s the connection ends; up to it the RTO is doubled. -/
theorem rtoTail_rtt (s : TcpSock) (k : Skb) :
    (rtoTail s k).rtt = if s.rto > 60000 then s.rtt else (s.rto * 2, s.srtt) := by
  have hfin : ∀ u : TcpSock, (tcpHandleFinState u).rtt = u.rtt := fun u => by
    unfold tcpHandleFinState
    split <;> rfl
  unfold rtoTail
  split
  · exact tcpDone_rtt s
  · split
    · rw [hfin]
      rfl
    · rfl

/-- A handler changes the estimate only if it is a live data handler that finds
something to send and has not reached the limit. -/
theorem tcpRetransmissionTimeout_rtt (s : TcpSock) (n : Nat) : (tcpRetransmissionTimeout s n).rtt =
    if n = s.rtoEpoch ∧ s.writeQueue.isEmpty = false ∧ ¬s.rto > 60000 then (s.rto * 2, s.srtt) else s.rtt := by
  rcases tcpRetransmissionTimeout_cases s n with ⟨hn, he⟩ | ⟨-, hq, he⟩ | ⟨k, hn, hk, he⟩
  · rw [he, if_neg fun h => hn h.1]
  · rw [he, if_neg (by simp [hq])]
    unfold rtoIdle
    dsimp only
    split <;> rfl
  · have hq : s.writeQueue.isEmpty = false := by
      cases hw : s.writeQueue with
      | nil =>
        rw [hw] at hk
        cases hk
      | cons => rfl
    have ht : (tcpTransmitSkb (rtoSock s) k (rtoSock s).tcb.sndUna).rtt = s.rtt := rtt_of_dials (tcpTransmitSkb_dials _ _ _)
    have hr : (tcpTransmitSkb (rtoSock s) k (rtoSock s).tcb.sndUna).rto = s.rto := congrArg Prod.fst ht
    have hv : (tcpTransmitSkb (rtoSock s) k (rtoSock s).tcb.sndUna).srtt = s.srtt := congrArg Prod.snd ht
    rw [he, rtoTail_rtt, hr, hv, ht]
    by_cases h6 : s.rto > 60000
    · rw [if_pos h6, if_neg fun h => h.2.2 h6]
    · rw [if_neg h6, if_pos ⟨hn, hq, h6⟩]

/-- The data handler of the current epoch gets the lock and finds something to
send: the RTO has expired. -/
def TcpSock.expires (s : TcpSock) (i : Nat) : Bool :=
  s.spawned[i]? = some (.retransmissionTimeout s.rtoEpoch) && !s.writeQueue.isEmpty

theorem handle_rtt (s : TcpSock) (i : Nat) :
    (Conn.handle s i).rtt = if s.expires i ∧ ¬s.rto > 60000 then (s.rto * 2, s.srtt) else s.rtt := by
  have hstop : ∀ u : TcpSock, (tcpStopLinger u).rtt = u.rtt := fun u => rtt_of_dials (tcpStopLinger_dials u)
  unfold Conn.handle TcpSock.expires
  cases hi : s.spawned[i]? with
  | none => rw [if_neg (by simp)]
  | some x =>
    cases x with
    | connectRto n =>
      rw [if_neg (by simp)]
      exact tcpConnectRto_rtt _ n
    | retransmissionTimeout n =>
      refine (tcpRetransmissionTimeout_rtt _ n).trans ?_
      simp only [Option.some.injEq, Handler.retransmissionTimeout.injEq, Bool.and_eq_true, decide_eq_true_eq, Bool.not_eq_true',
        and_assoc]
      rfl
    | sendDelack =>
      rw [if_neg (by simp)]
      exact rtt_of_dials (tcpSendDelack_dials _)
    | linger =>
      rw [if_neg (by simp)]
      exact (tcpDone_rtt _).trans (hstop _)
    | userTimeout =>
      rw [if_neg (by simp)]
      exact (rtt_of_dials (tcpAbort_dials _)).trans (hstop _)

/-- Past the limit an expiration ends the connection. -/
theorem rtoTail_done (h : s.rto > 60000) (k : Skb) : (rtoTail s k).state = .closing ∧ (rtoTail s k).err = -ETIMEDOUT := by
  rw [rtoTail, if_pos h]
  exact ⟨tcpDone_state s, rfl⟩

/-- Up to it the timer is set for twice the RTO. -/
theorem rtoTail_armed (h : ¬s.rto > 60000) (hs : s.state ≠ .synSent) (k : Skb) :
    ∃ t ∈ (rtoTail s k).timers, t.handler = .retransmissionTimeout (rtoTail s k).rtoEpoch ∧
      t.expires - (rtoTail s k).tick = s.rto * 2 := by
  have ht : (rtoTail s k).timing = s.timing.rearm false (s.rto * 2) := by
    have ha := tcpRearmRtoTimer_timing { s with rto := s.rto * 2, backoff := s.backoff + 1 }
    rw [TcpSock.armed, TcpSock.rtoWait, if_neg hs, decide_eq_false hs] at ha
    rw [rtoTail, if_neg h]
    split
    · rw [tcpHandleFinState_timing]
      exact ha
    · exact ha
  have hmem : ⟨s.nextTimer, s.tick + s.rto * 2, .retransmissionTimeout (s.rtoEpoch + 1)⟩ ∈ (rtoTail s k).timing.timers := by
    rw [ht]
    exact List.mem_append_right _ (List.mem_singleton_self _)
  refine ⟨_, hmem, ?_, ?_⟩
  · rw [show (rtoTail s k).rtoEpoch = s.rtoEpoch + 1 from congrArg Timing.rtoEpoch ht]
  · rw [show (rtoTail s k).tick = s.tick from congrArg Timing.tick ht, BitVec.add_comm, BitVec.add_sub_cancel]

/-- An expiration in terms of what follows the transmission. -/
theorem handle_expires {i : Nat} (h : s.expires i) : ∃ u k, Conn.handle s i = rtoTail u k ∧ u.rto = s.rto ∧ u.state = s.state := by
  simp only [TcpSock.expires, Bool.and_eq_true, decide_eq_true_eq, Bool.not_eq_true'] at h
  obtain ⟨hi, hq⟩ := h
  unfold Conn.handle
  rw [hi]
  dsimp only [runHandler]
  generalize hu : ({ s with spawned := s.spawned.eraseIdx i } : TcpSock) = u
  have hur : u.rto = s.rto := by rw [← hu]
  have hus : u.state = s.state := by rw [← hu]
  have hue : u.rtoEpoch = s.rtoEpoch := by rw [← hu]
  have huq : u.writeQueue = s.writeQueue := by rw [← hu]
  rcases tcpRetransmissionTimeout_cases u s.rtoEpoch with ⟨hn, -⟩ | ⟨-, hnil, -⟩ | ⟨k, -, -, he⟩
  · exact absurd hue.symm hn
  · rw [← huq, hnil] at hq
    cases hq
  · refine ⟨_, k, he, ?_, ?_⟩
    · exact (tcpTransmitSkb_rto _ _ _).trans hur
    · exact (congrArg Core.state (tcpTransmitSkb_core _ _ (rtoSock u).tcb.sndUna)).trans ((quiet_rtoSock u).state.trans hus)

/-! ## A segment -/

variable {th : Tcphdr} {skb : Skb}

/-- The estimate after the sample of `tcp_rtt`. -/
def TcpSock.sampled (s : TcpSock) : U32 × Int :=
  (s.sampledRto, match s.rttSample with
    | none => s.srtt
    | some r => (s.smoothed r).1)

theorem tcpRtt_rtt (s : TcpSock) : (tcpRtt s).rtt = s.sampled := by
  rw [tcpRtt_eq, TcpSock.sampled, TcpSock.sampledRto]
  cases s.rttSample <;> rfl

theorem newAck_rtt (s : TcpSock) (th : Tcphdr) : (newAck s th).rtt = s.sampled := by
  have hs : TcpSock.sampled { s with tcb.sndUna := th.ackSeq } = s.sampled := rfl
  have hc := rtt_of_dials (tcpCleanRtoQueue_dials (tcpRtt { s with tcb.sndUna := th.ackSeq }) th.ackSeq)
  rw [tcpRtt_rtt, hs] at hc
  unfold newAck
  generalize tcpCleanRtoQueue (tcpRtt { s with tcb.sndUna := th.ackSeq }) th.ackSeq = t at hc
  dsimp only
  split
  · exact hc
  · exact hc

theorem taken_rtt (s : TcpSock) (th : Tcphdr) : (s.taken th).rtt = if ackIsNew s th then s.sampled else s.rtt := by
  unfold TcpSock.taken
  split
  · exact newAck_rtt s th
  · rfl

theorem ackData_dials (s : TcpSock) (th : Tcphdr) (skb : Skb) (expected : Bool) : (ackData s th skb expected).dials = s.dials := by
  have hstop := tcpStopDelackTimer_dials s
  unfold ackData
  generalize tcpStopDelackTimer s = t at hstop
  split
  case h_4 => rfl
  all_goals
    split
    case isFalse => rfl
    dsimp only
    split
    · refine (tcpRearmRtoTimer_dials _).trans ?_
      exact (tcpSendNext_dials t _ _).trans hstop
    · have hu : (if !th.psh && skb.dlen > 1000 then { t with delacks := t.delacks + 1 } else t).dials = t.dials := by
        split <;> rfl
      generalize (if !th.psh && skb.dlen > 1000 then { t with delacks := t.delacks + 1 } else t) = u at hu
      have hsu := hu.trans hstop
      split
      · exact (tcpSendAck_dials { u with delacks := 0 }).trans hsu
      · split
        · exact hsu
        · exact hsu

theorem ackData_rtt (s : TcpSock) (th : Tcphdr) (skb : Skb) (expected : Bool) : (ackData s th skb expected).rtt = s.rtt :=
  rtt_of_dials (ackData_dials s th skb expected)

theorem Ctl.andThen_rtt {k : Ctl} {f : TcpSock → Ctl} (hf : ∀ t, k = .next t → (f t).sock.rtt = t.rtt) :
    (k.andThen f).sock.rtt = k.sock.rtt := by
  cases k with
  | ret t => rfl
  | next t => exact hf t rfl

theorem afterAck_rtt (hl : s.state.late) (th : Tcphdr) (skb : Skb) : (afterAck s th skb).sock.rtt = s.rtt := by
  rw [afterAck_eq, Ctl.andThen_rtt, rtt_of_dials (finAcked_dials s th)]
  intro t ht
  have hxl : (segmentText t th skb).state.late := by
    rw [segmentText_state]
    exact finAcked_late ht hl
  have ht : (segmentText t th skb).rtt = t.rtt :=
    (congrArg Dials.rtt (segmentText_dials t th skb)).trans rfl
  have hb : (finBit (segmentText t th skb) th (skb.seq = t.tcb.rcvNxt)).sock.rtt = (segmentText t th skb).rtt :=
    (congrArg Dials.rtt (finBit_dials hxl th _)).trans rfl
  rw [← ht, ← hb]
  exact Ctl.andThen_rtt (f := fun u => .next (ackData u th skb (skb.seq = t.tcb.rcvNxt))) fun u _ => ackData_rtt u th skb _

theorem tcpHandleDupack_dials (s : TcpSock) : (tcpHandleDupack s).dials = s.dials := by
  have hfast : ∀ u : TcpSock, (tcpFastRetransmit u).dials = u.dials := fun u => by
    unfold tcpFastRetransmit
    split
    · rfl
    · exact tcpTransmitSkb_dials _ _ _
  have ha : (dupackAction { s with dupacks := s.dupacks + 1 }).1.dials = s.dials := by
    unfold dupackAction
    split
    · rfl
    · split
      · exact (tcpRearmRtoTimer_dials _).trans (hfast _)
      · rfl
  unfold tcpHandleDupack
  generalize dupackAction { s with dupacks := s.dupacks + 1 } = r at ha
  obtain ⟨t, extra⟩ := r
  dsimp only at ha ⊢
  split
  · exact (tcpSendNext_dials t _ extra).trans ha
  · exact ha

/-- The ACK field changes the estimate only if the ACK is new. -/
theorem ackSynchronized_rtt (s : TcpSock) (th : Tcphdr) (skb : Skb) :
    (ackSynchronized s th skb).sock.rtt = if ackIsNew s th then s.sampled else s.rtt := by
  unfold ackSynchronized
  split
  next hd =>
    have hnew : ackIsNew s th = false := by
      simp only [tcpIsDupack, Bool.and_eq_true, decide_eq_true_eq] at hd
      rw [ackIsNew, hd.1.1.1.1]
      simp
    rw [if_neg (by simp [hnew])]
    exact rtt_of_dials (tcpHandleDupack_dials s)
  next =>
    have ht := taken_rtt s th
    unfold TcpSock.taken at ht
    generalize (if ackIsNew s th then newAck s th else s) = t at ht
    rw [← ht]
    unfold ackChecked
    split
    · rfl
    · split
      · rfl
      · dsimp only
        split <;> rfl

/-- The ACK of the segment is heard and new. -/
def TcpSock.hearsNew (s : TcpSock) (th : Tcphdr) (skb : Skb) : Bool := s.core.Heard th skb && ackIsNew s th

theorem heard_rtt (hl : s.state.late) (th : Tcphdr) (skb : Skb) :
    ((ackField s th skb).andThen fun s => afterAck s th skb).sock.rtt = s.rtt ∨
    ackIsNew s th ∧ ((ackField s th skb).andThen fun s => afterAck s th skb).sock.rtt = s.sampled := by
  have hsync : ∀ u : TcpSock, u.state.late → ackIsNew u th = ackIsNew s th → u.sampled = s.sampled → u.rtt = s.rtt →
      ((ackSynchronized u th skb).andThen fun s => afterAck s th skb).sock.rtt = s.rtt ∨
      ackIsNew s th ∧ ((ackSynchronized u th skb).andThen fun s => afterAck s th skb).sock.rtt = s.sampled := by
    intro u hul hn hs hr
    have hk : ((ackSynchronized u th skb).andThen fun s => afterAck s th skb).sock.rtt = (ackSynchronized u th skb).sock.rtt := by
      refine Ctl.andThen_rtt fun t ht => afterAck_rtt ?_ th skb
      have hst := ackSynchronized_state u th skb
      rw [ht] at hst
      exact hst.symm ▸ hul
    rw [hk, ackSynchronized_rtt, hn, hs, hr]
    split
    next h => exact .inr ⟨h, rfl⟩
    next => exact .inl rfl
  have hnext : ((Ctl.next s).andThen fun s => afterAck s th skb).sock.rtt = s.rtt := afterAck_rtt hl th skb
  unfold ackField
  split
  case h_1 hs =>
    split
    · dsimp only
      split
      · exact .inl rfl
      next p _ => exact hsync (((s.setState .established).emit (.acceptQueue p)).wakeup .acceptWait) ⟨nofun, nofun, nofun⟩ rfl rfl rfl
    · exact .inl rfl
  case h_8 | h_9 | h_10 | h_11 => exact .inl hnext
  all_goals exact hsync s hl rfl rfl rfl

theorem synsentEstablish_rtt (s : TcpSock) (th : Tcphdr) : (synsentEstablish s th).rtt = (1000, s.srtt) := by
  have hp : ∀ u : TcpSock, (tcpParseOpts u th).rtt = u.rtt := fun u => by
    simp only [tcpParseOpts]
    split <;> rfl
  have hc : ∀ u : TcpSock, (sockConnected (updateSndWin u th.win)).rtt = u.rtt := fun _ => rfl
  have ha : (tcpRearmUserTimeout (tcpSendAck (openedSock s th))).rtt = (1000, s.srtt) :=
    rtt_of_dials ((tcpRearmUserTimeout_dials _).trans (tcpSendAck_dials (openedSock s th)))
  exact (hc _).trans ((hp _).trans ha)

theorem tcpSynsent_rtt (s : TcpSock) (th : Tcphdr) : (tcpSynsent s th).rtt = s.rtt ∨
    (tcpSynsent s th).rtt = (1000, s.srtt) := by
  have hacked : (synAckedSock s th).rtt = s.rtt := by
    unfold synAckedSock
    split
    · exact rtt_of_dials (tcpCleanRtoQueue_dials _ _)
    · rfl
  have hreset : (tcpReset s).rtt = s.rtt := by
    unfold tcpReset
    dsimp only
    split
    case h_3 => rfl
    all_goals exact tcpDone_rtt _
  rw [tcpSynsent_eq]
  split
  · exact .inl rfl
  · split
    · exact .inl rfl
    · split
      · exact .inl hreset
      · split
        · exact .inl rfl
        · have hsrtt : (synAckedSock s th).srtt = s.srtt := congrArg Prod.snd hacked
          generalize synAckedSock s th = t at hacked hsrtt
          unfold synTaken
          split
          · refine .inr ?_
            rw [← hsrtt]
            exact synsentEstablish_rtt t th
          · refine .inl ?_
            unfold tcpSendSynack
            split
            · exact hacked
            · exact (rtt_of_dials (tcpQueueTransmitSkb_dials _ _)).trans hacked

/-- What a segment does to the estimate: nothing, or it takes the sample of a
new ACK, or it opens the connection with an RTO of one second. -/
theorem segmentArrives_rtt (s : TcpSock) (th : Tcphdr) (skb : Skb) :
    (segmentArrives s th skb).rtt = s.rtt ∨
    s.hearsNew th skb ∧ (segmentArrives s th skb).rtt = s.sampled ∨
    s.state = .synSent ∧ (segmentArrives s th skb).rtt = (1000, s.srtt) := by
  by_cases hl : s.state.late
  · rw [segmentArrives_late hl]
    rcases tcpInputOtherwise_cases s th skb with ⟨hh, he⟩ | ⟨-, -, he⟩ | ⟨-, he | he⟩
    · rw [he]
      refine (heard_rtt hl th skb).imp_right fun ⟨hn, hr⟩ => .inl ⟨?_, hr⟩
      rw [TcpSock.hearsNew, hh, hn]
      rfl
    · rw [he]
      exact .inl (rtt_of_dials (tcpEnterTimeWait_dials s))
    · rw [he]
      exact .inl rfl
    · rw [he]
      exact .inl (rtt_of_dials (tcpSendAck_dials s))
  · unfold segmentArrives
    split
    next =>
      refine .inl ?_
      unfold tcpClosed
      split
      · rfl
      · exact rtt_of_dials (tcpTransmitSkb_dials _ _ _)
    next => exact .inl rfl
    next hs => exact (tcpSynsent_rtt s th).imp_right fun h => .inr ⟨hs, h⟩
    next h1 h2 h3 => exact absurd ⟨h1, h2, h3⟩ hl

/-! ## What was armed -/

namespace Timing

variable {W V : U32 → Prop} {g g' : Timing}

theorem Op.mono (hm : Op W g g') (h : ∀ x, W x → V x) : Op V g g' := by
  cases hm with
  | rearm syn expire hw => exact .rearm _ _ _ fun hs => h _ (hw hs)
  | armLinger expire x hx => exact .armLinger _ _ _ hx
  | dispatch i t hi => exact .dispatch _ _ _ hi
  | _ => constructor

theorem Ops.mono (hm : Ops W g g') (h : ∀ x, W x → V x) : Ops V g g' := by
  induction hm with
  | refl => exact .refl
  | tail _ hm ih => exact ih.tail (hm.mono h)

theorem Op.tick (hm : Op W g g') : g'.tick = g.tick := by
  cases hm with
  | stopRto | stopDelack | stopLinger | cancelLinger => exact cancel_tick g _
  | _ => rfl

/-- An entry on the list was there before, or it is not a data retransmission
timer, or it is set for a time with `W`. -/
theorem Op.armed (hm : Op W g g') {t : Timer} (ht : t ∈ g'.timers) :
    t ∈ g.timers ∨ ∀ n, t.handler = .retransmissionTimeout n → W (t.expires - g.tick) := by
  cases hm with
  | stopRto | stopDelack | stopLinger | cancelLinger => exact .inl (timers_cancel g _ t ht)
  | releaseRto | releaseDelack | run => exact .inl ht
  | dispatch => exact .inl (List.mem_of_mem_eraseIdx ht)
  | rearm syn expire hw =>
    refine (List.mem_append.mp ht).imp_right fun ht n hn => ?_
    rw [List.mem_singleton.mp ht] at hn ⊢
    cases syn with
    | true => cases hn
    | false =>
      rw [BitVec.add_comm, BitVec.add_sub_cancel]
      exact hw rfl
  | armDelack =>
    refine (List.mem_append.mp ht).imp_right fun ht n hn => ?_
    rw [List.mem_singleton.mp ht] at hn
    cases hn
  | armLinger expire x hx =>
    refine (List.mem_append.mp ht).imp_right fun ht n hn => ?_
    rw [List.mem_singleton.mp ht] at hn
    rw [show x = _ from hn] at hx
    cases hx

/-- Every data retransmission timer put on the list between `g` and `g'` is set
for a time with `W`. -/
def Arms (W : U32 → Prop) (g g' : Timing) : Prop :=
  ∀ t ∈ g'.timers, t ∉ g.timers → ∀ n, t.handler = .retransmissionTimeout n → W (t.expires - g.tick)

theorem Ops.arms (hm : Ops W g g') : g'.tick = g.tick ∧ Arms W g g' := by
  induction hm with
  | refl => exact ⟨rfl, fun t ht hn => absurd ht hn⟩
  | tail _ hm ih =>
    obtain ⟨htick, ih⟩ := ih
    refine ⟨hm.tick.trans htick, fun t ht hn n hh => ?_⟩
    rcases hm.armed ht with hin | hw
    · exact ih t hin hn n hh
    · exact htick ▸ hw n hh

/-- No data retransmission timer is armed or waiting for the lock. -/
def NoData (g : Timing) : Prop := ∀ n, Handler.retransmissionTimeout n ∉ g.pending

theorem NoData.op (h : g.NoData) (hm : Op (fun _ => False) g g') : g'.NoData := by
  intro n hn
  cases hm with
  | dispatch i t hi => exact h n ((mem_pending_dispatch hi _).mp hn)
  | run i => exact h n (mem_pending_run hn)
  | stopRto | stopDelack | stopLinger | cancelLinger => exact h n (pending_cancel g _ _ hn)
  | releaseRto | releaseDelack => exact h n hn
  | rearm syn expire hw =>
    cases syn with
    | true =>
      rcases mem_pending_add.mp hn with hn | hn
      · cases hn
      · exact h n hn
    | false => exact hw rfl
  | armDelack =>
    rcases mem_pending_add.mp hn with hn | hn
    · cases hn
    · exact h n hn
  | armLinger expire x hx =>
    rcases mem_pending_add.mp hn with hn | hn
    · rw [← hn] at hx
      cases hx
    · exact h n hn

theorem NoData.ops (h : g.NoData) (hm : Ops (fun _ => False) g g') : g'.NoData := by
  induction hm with
  | refl => exact h
  | tail _ hm ih => exact ih.op hm

end Timing

/-! ## Before the RTO is set -/

/-- Nothing is sent here that a data retransmission timer would cover. -/
def TcpState.silent (st : TcpState) : Bool :=
  st = .close || st = .listen || st = .synSent || st = .synReceived || st = .closing || st = .timeWait

theorem TcpState.silent_takesText {st : TcpState} (h : st.silent) : st.takesText = false := by
  cases st <;> first | rfl | cases h

/-- A connection that has not been opened, and that no listener made: nothing
in flight, no window, and the SYN still queued while it waits for its answer. -/
structure Core.Unset (c : Core) : Prop where
  ptsk : c.ptsk = none
  inflight : c.snd.inflight = 0
  wnd : c.snd.wnd = 0
  syn : c.state = .synSent → c.snd.queue ≠ []
  state : c.state.silent

theorem Core.Unset.done {c : Core} (h : c.Unset) (err : Int) : Core.Unset { c.done with err := err } :=
  ⟨h.ptsk, h.inflight, h.wnd, nofun, rfl⟩

theorem Core.Unset.not_established {c : Core} (h : c.Unset) : c.state ≠ .established := fun hs => by
  have hst := h.state
  rw [hs] at hst
  cases hst

theorem Core.Unset.not_closeWait {c : Core} (h : c.Unset) : c.state ≠ .closeWait := fun hs => by
  have hst := h.state
  rw [hs] at hst
  cases hst

theorem cleanFlight_zero (a : U32) (q : List Skb) : cleanFlight a q 0 = 0 := by
  induction q with
  | nil => rfl
  | cons k q ih =>
    have hz : (if (0 : U32) ≥ k.dlen then 0 - k.dlen else 0) = 0 := by
      split
      next hk =>
        have h0 : k.dlen = 0 := by bv_omega
        rw [h0]
        rfl
      next => rfl
    rw [cleanFlight, hz, ih, ite_self]

theorem acked_inflight {d : SndSide} (h : d.inflight = 0) (a : U32) : (d.acked a).inflight = 0 := by
  show cleanFlight a d.queue d.inflight = 0
  rw [h]
  exact cleanFlight_zero a d.queue

theorem SendNext.inflight_zero {r : RcvSide} {d d' : SndSide} {es : List Effect} (hn : SendNext r d es d') (h : d.inflight = 0)
    (hw : d.wnd = 0) : d'.inflight = 0 := by
  have hle := hn.inflight 0 (by norm_num) (by rw [h]; rfl) (by rw [hw]; rfl)
  exact BitVec.eq_of_toNat_eq (Nat.le_zero.mp hle)

/-- An arrival. -/
def Act.arrives : Act → Bool
  | .arrive _ _ _ => true
  | _ => false

/-- Short of an answer to its SYN, a move leaves a connection unopened, or
there is a fault. -/
theorem Move.unset {a : Act} {c c' : Core} {es : List Effect} (hm : Move a c es c') (hs : a ≠ .send)
    (hf : ∀ lastAck, a ≠ .finish lastAck) (h : c.Unset ∧ (a.arrives → c.state ≠ .synSent)) :
    (c'.Unset ∧ (a.arrives → c'.state ≠ .synSent)) ∨ c'.fault := by
  obtain ⟨h, ha⟩ := h
  have hst := h.state
  cases hm with
  | quiet | resend | resendHead => exact .inl ⟨h, ha⟩
  | reset hc => exact .inl ⟨⟨h.ptsk, h.inflight, h.wnd, h.syn, hst⟩, ha⟩
  | rst => exact .inl ⟨⟨h.ptsk, h.inflight, h.wnd, nofun, rfl⟩, fun _ => nofun⟩
  | establish _ _ hp =>
    rw [h.ptsk] at hp
    cases hp
  | fault => exact .inr rfl
  | ack _ ht _ _ _ =>
    refine .inl ⟨⟨h.ptsk, acked_inflight h.inflight _, h.wnd, fun hc => ?_, hst⟩, ha⟩
    exact absurd hc (ha rfl)
  | sendNext _ hn =>
    refine .inl ⟨⟨h.ptsk, hn.inflight_zero h.inflight h.wnd, hn.wnd.trans h.wnd, fun hc => ?_, hst⟩, ha⟩
    exact absurd hc (ha rfl)
  | timeWait => exact .inl ⟨⟨h.ptsk, h.inflight, h.wnd, nofun, rfl⟩, fun _ => nofun⟩
  | finWait2 _ hc | lastAck _ hc | finSent _ _ hc | finResent _ _ hc | closeStart hc =>
    rw [hc] at hst
    cases hst
  | inOrder _ hc | outOfOrder _ hc =>
    rw [TcpState.silent_takesText hst] at hc
    cases hc
  | finAgain => exact .inl ⟨⟨h.ptsk, h.inflight, h.wnd, h.syn, hst⟩, ha⟩
  | fin _ _ _ h1 h2 h3 h4 _ =>
    -- only CLOSING and TIME_WAIT get as far as the FIN bit, and they stay
    have hfin : c.finState = c.state := by
      unfold Core.finState
      cases hcs : c.state <;> first | rfl | exact absurd hcs h4 | (rw [hcs] at hst; cases hst)
    refine .inl ⟨⟨h.ptsk, h.inflight, h.wnd, fun hc => absurd (hfin ▸ hc) h3, ?_⟩, fun _ => hfin.symm ▸ h3⟩
    exact hfin.symm ▸ hst
  | refused hc | connect hc | simultaneous hc => exact absurd hc (ha rfl)
  | giveUp | linger | closeDone | userTimeout | abort =>
    exact .inl ⟨⟨h.ptsk, h.inflight, h.wnd, nofun, rfl⟩, nofun⟩
  | data | spin => exact absurd rfl hs
  | closeRefused | dequeue | eof => exact .inl ⟨⟨h.ptsk, h.inflight, h.wnd, h.syn, hst⟩, ha⟩
  | queueFin lastAck hfin =>
    cases a with
    | close =>
      have hc : c.state = if lastAck then .closeWait else .finWait1 := hfin
      rw [hc] at hst
      cases lastAck <;> cases hst
    | finish last => exact absurd rfl (hf last)
    | _ => exact absurd hfin id

/-- The answer to a SYN sets the RTO; any other segment leaves the connection
unopened. -/
theorem tcpSynsent_unset (h : s.core.Unset) (hs : s.state = .synSent) (th : Tcphdr) :
    (tcpSynsent s th).core.Unset ∨ (tcpSynsent s th).rto = 1000 ∧ (tcpSynsent s th).state = .established := by
  rw [tcpSynsent_eq]
  split
  · exact .inl h
  next h1 =>
    split
    · exact .inl h
    · split
      · refine .inl ?_
        unfold tcpReset
        simp only [hs]
        rw [tcpDone_core]
        exact ⟨h.ptsk, h.inflight, h.wnd, nofun, rfl⟩
      · split
        · exact .inl h
        · unfold synTaken
          split
          · exact .inr ⟨congrArg Prod.fst (synsentEstablish_rtt _ th), congrArg Core.state (synsentEstablish_core _ th)⟩
          next hle =>
            rw [synAckedSock_unacked h1 hle, tcpSendSynack_core rfl]
            refine .inl ⟨h.ptsk, ?_, h.wnd, nofun, rfl⟩
            show s.core.snd.inflight + 0 = 0
            rw [h.inflight]
            rfl

/-! ## The sample -/

theorem rttSample_nonneg {r : Int} (h : s.rttSample = some r) : 0 ≤ r := by
  unfold TcpSock.rttSample at h
  split at h
  · cases h
  · split at h
    · cases h
    · dsimp only at h
      split at h
      · cases h
      next hr =>
        rw [← Option.some.inj h]
        exact not_lt.mp hr

theorem smoothed_nonneg (h : 0 ≤ s.srtt) {r : Int} (hr : 0 ≤ r) : 0 ≤ (s.smoothed r).1 := by
  unfold TcpSock.smoothed
  split
  · exact hr
  · exact Int.tdiv_nonneg (by omega) (by norm_num)

/-- As long as it fits an `int`, the RTO of a sample is at least 200 ms. -/
theorem rtoAfter_bound (h : 0 ≤ s.srtt) {r : Int} (hr : 0 ≤ r) (hfit : s.rtoAfter r < 2 ^ 31) :
    200 ≤ BitVec.ofInt 32 (s.rtoAfter r) := by
  have hlow : 200 ≤ s.rtoAfter r := by
    have hs := smoothed_nonneg h hr
    simp only [TcpSock.rtoAfter]
    split <;> omega
  rw [BitVec.le_def, BitVec.toNat_ofInt]
  show 200 ≤ _
  omega

/-- A sample that fits leaves an RTO of at least 200 ms, or the RTO as it was. -/
theorem sampled_bound (h : 0 ≤ s.srtt) (hfit : s.rttSample.all fun r => s.rtoAfter r < 2 ^ 31) :
    0 ≤ s.sampled.2 ∧ (200 ≤ s.sampled.1 ∨ s.sampled.1 = s.rto) := by
  unfold TcpSock.sampled TcpSock.sampledRto
  cases hr : s.rttSample with
  | none => exact ⟨h, .inr rfl⟩
  | some r =>
    have hr0 := rttSample_nonneg hr
    rw [hr] at hfit
    exact ⟨smoothed_nonneg h hr0, .inl (rtoAfter_bound h hr0 (of_decide_eq_true hfit))⟩

/-! ## Runs -/

namespace Conn

/-- The RTO expires and the segment is sent again. -/
def backsOff (c : Conn) : LifeEvent → Bool
  | .conn (.handler i) => !c.sk.fault && c.sk.expires i && !decide (c.sk.rto > 60000)
  | _ => false

/-- A new ACK, or an answer to the SYN. -/
def newlyAcked (c : Conn) : LifeEvent → Bool
  | .conn (.segment th data psh) => c.sk.state = .synSent || c.sk.hearsNew th (tcpInitSegment th data psh)
  | _ => false

/-- If the event has a round-trip time measured, the RTO that `tcp_rtt`
computes fits an `int`. -/
def sampleFits (c : Conn) : LifeEvent → Bool
  | .conn (.segment th data psh) =>
    !c.sk.hearsNew th (tcpInitSegment th data psh) || c.sk.rttSample.all fun r => c.sk.rtoAfter r < 2 ^ 31
  | _ => true

/-- Not opened, with no data timer and nobody asleep who would send. -/
structure Unset (c : Conn) : Prop where
  core : c.sk.core.Unset
  timing : c.sk.timing.NoData
  readers : ∀ call ∈ c.calls, ∃ len got, call = .recv len got

theorem Unset.arms {c : Conn} (h : c.Unset) (e : Event) : c.Arms (fun _ => False) e := by
  have hst := h.core.state
  have hnt := TcpState.silent_takesText hst
  cases e with
  | segment th data psh =>
    refine ⟨fun hs he => ?_, fun hi => hi h.core.inflight, fun _ ht => ?_⟩
    · refine h.core.syn hs ?_
      rw [← queue_isEmpty] at he
      exact List.isEmpty_iff.mp he
    · rcases ht with ht | ⟨-, hp⟩
      · rw [show c.sk.state.takesText = false from hnt] at ht
        cases ht
      · rw [show c.sk.ptsk = none from h.core.ptsk] at hp
        cases hp
  | write buf =>
    intro ha
    simp only [tcpWriteAccepts, Bool.and_eq_true, Bool.or_eq_true, decide_eq_true_eq] at ha
    rcases ha.2 with hs | hs
    · exact h.core.not_established hs
    · exact h.core.not_closeWait hs
  | close =>
    rintro (hs | hs)
    · exact h.core.not_established hs
    · exact h.core.not_closeWait hs
  | resume i =>
    intro hw
    cases hi : c.calls[i]? with
    | none =>
      rw [hi] at hw
      cases hw
    | some call =>
      rw [hi] at hw
      obtain ⟨len, got, rfl⟩ := h.readers call (List.mem_of_getElem? hi)
      cases hw
  | handler i =>
    intro hi
    exact absurd (Timing.mem_pending.mpr (.inr (List.mem_of_getElem? hi))) (h.timing _)
  | read len | abort | dispatch i | tick ms | fcntl nonblock | adjustPmtu6 mss => trivial

/-- **An event leaves a connection unopened, or answers its SYN**, unless
there is a fault. -/
theorem Unset.step {c : Conn} (h : c.Unset) (e : Event) (hf : (c.step e).sk.fault = false) :
    (c.step e).Unset ∨ (c.step e).sk.rto = 1000 ∧ (c.step e).sk.state = .established := by
  have hcalls := step_readers ⟨h.core.not_established, h.core.not_closeWait⟩ h.readers e
  have htiming : (c.step e).sk.timing.NoData := by
    by_cases ht : ∃ ms, e = .tick ms
    · obtain ⟨ms, rfl⟩ := ht
      unfold Conn.step
      split
      · exact h.timing
      · exact h.timing
    · exact h.timing.ops (step_timerOps (h.arms e) fun ms he => ht ⟨ms, he⟩)
  by_cases hsyn : ∃ th data psh, e = .segment th data psh ∧ c.sk.state = .synSent
  · obtain ⟨th, data, psh, rfl, hs⟩ := hsyn
    unfold Conn.step at hf hcalls htiming ⊢
    split
    · exact .inl h
    next hft =>
      rw [if_neg hft] at hcalls htiming
      have harr : segmentArrives c.sk th (tcpInitSegment th data psh) = tcpSynsent c.sk th := by
        simp only [segmentArrives, hs]
      dsimp only at hcalls htiming ⊢
      rw [harr] at htiming ⊢
      exact (tcpSynsent_unset h.core hs th).imp_left fun hc => ⟨hc, htiming, hcalls⟩
  · refine .inl ⟨?_, htiming, hcalls⟩
    by_cases hact : c.act e = .send ∨ ∃ lastAck, c.act e = .finish lastAck
    · -- a write is refused, and nobody is asleep who would send
      suffices hsame : (Conn.step c e).sk.core = c.sk.core by
        rw [hsame]
        exact h.core
      cases e with
      | write buf =>
        unfold Conn.step
        split
        · rfl
        · have hna : tcpWriteAccepts c.sk = false := by
            have h1 : c.sk.state ≠ .established := h.core.not_established
            have h2 : c.sk.state ≠ .closeWait := h.core.not_closeWait
            simp [tcpWriteAccepts, h1, h2]
          simp only [tcpWrite, hna]
          rfl
      | resume i =>
        exfalso
        simp only [act] at hact
        cases hi : c.calls[i]? with
        | none => simp [hi] at hact
        | some call =>
          obtain ⟨len, got, rfl⟩ := h.readers call (List.mem_of_getElem? hi)
          simp [hi] at hact
      | handler i =>
        exfalso
        simp only [act] at hact
        split at hact <;> simp at hact
      | _ => simp [act] at hact
    · have hready : c.Ready := fun _ => h.readers
      obtain ⟨es, -, hm⟩ := step_moves hready e
      have hk := hm.keeps_core (I := fun k => (k.Unset ∧ ((c.act e).arrives → k.state ≠ .synSent)) ∨ k.fault)
        (fun hmv hk => ?_) (.inl ⟨h.core, fun ha hs => ?_⟩)
      · rcases hk with hk | hk
        · exact hk.1
        · rw [show (Conn.step c e).sk.core.fault = false from hf] at hk
          cases hk
      · rcases hk with hk | hk
        · exact hmv.unset (fun ha => hact (.inl ha)) (fun l ha => hact (.inr ⟨l, ha⟩)) hk
        · exact .inr (hmv.fault_mono hk)
      · refine hsyn ?_
        cases e with
        | segment th data psh => exact ⟨th, data, psh, rfl, hs⟩
        | resume i =>
          simp only [act] at ha
          split at ha <;> cases ha
        | handler i =>
          simp only [act] at ha
          split at ha <;> cases ha
        | _ => cases ha

/-- What an event does to the estimate. -/
theorem step_rtt (c : Conn) (e : Event) :
    c.backsOff (.conn e) ∧ (c.step e).sk.rtt = (c.sk.rto * 2, c.sk.srtt) ∨
    c.backsOff (.conn e) = false ∧ ((c.step e).sk.rtt = c.sk.rtt ∨ c.newlyAcked (.conn e) ∧
      ((c.step e).sk.rtt = (1000, c.sk.srtt) ∨
        ∃ th data psh, e = .segment th data psh ∧ c.sk.hearsNew th (tcpInitSegment th data psh) ∧
          (c.step e).sk.rtt = c.sk.sampled)) := by
  cases hf : c.sk.fault with
  | true =>
    rw [step_of_fault hf]
    refine .inr ⟨?_, .inl rfl⟩
    unfold backsOff
    split
    · rw [hf]
      rfl
    · rfl
  | false =>
    have hset : ∀ (c : Conn) (r : TcpSock × Outcome), (c.settle r).sk.rtt = r.1.rtt := fun c r => by
      rcases settle_sk c r with h | ⟨-, h⟩ <;> rw [h]
      rfl
    simp only [step, hf, Bool.false_eq_true, if_false]
    cases e with
    | segment th data psh =>
      refine .inr ⟨rfl, ?_⟩
      rcases segmentArrives_rtt c.sk th (tcpInitSegment th data psh) with h | ⟨hn, h⟩ | ⟨hs, h⟩
      · exact .inl h
      · exact .inr ⟨by simp [newlyAcked, hn], .inr ⟨th, data, psh, rfl, hn, h⟩⟩
      · exact .inr ⟨by simp [newlyAcked, hs], .inl h⟩
    | write buf => exact .inr ⟨rfl, .inl ((hset _ _).trans (rtt_of_dials (tcpWrite_dials c.sk buf)))⟩
    | read len =>
      dsimp only
      rw [settleRead_sk]
      exact .inr ⟨rfl, .inl (tcpRead_rtt c.sk len)⟩
    | close => exact .inr ⟨rfl, .inl ((hset _ _).trans (rtt_of_dials (tcpClose_dials c.sk)))⟩
    | abort => exact .inr ⟨rfl, .inl (rtt_of_dials (tcpAbort_dials c.sk))⟩
    | resume i =>
      refine .inr ⟨rfl, .inl ?_⟩
      show (c.resume i).sk.rtt = c.sk.rtt
      unfold resume
      split
      · rfl
      · rw [settleRead_sk]
        exact tcpReceiveTurn_rtt c.sk _ _
      · exact (hset _ _).trans (rtt_of_dials (resumeSend_dials c.sk _))
    | dispatch i =>
      refine .inr ⟨rfl, .inl ?_⟩
      simp only [dispatch]
      split <;> rfl
    | handler i =>
      have hh := handle_rtt c.sk i
      by_cases hx : c.sk.expires i ∧ ¬c.sk.rto > 60000
      · rw [if_pos hx] at hh
        refine .inl ⟨?_, hh⟩
        rw [backsOff, hf, hx.1, decide_eq_false hx.2]
        rfl
      · rw [if_neg hx] at hh
        refine .inr ⟨?_, .inl hh⟩
        simp only [backsOff, hf, Bool.not_false, Bool.true_and]
        cases hxe : c.sk.expires i with
        | false => rfl
        | true =>
          have hr : c.sk.rto > 60000 := by
            by_contra hr
            exact hx ⟨hxe, hr⟩
          rw [decide_eq_true hr]
          rfl
    | tick ms => exact .inr ⟨rfl, .inl rfl⟩
    | fcntl nonblock => exact .inr ⟨rfl, .inl rfl⟩
    | adjustPmtu6 mss =>
      refine .inr ⟨rfl, .inl ?_⟩
      simp only [adjustPmtu6]
      split <;> rfl

end Conn

/-- A socket, and how often its segment has been sent again since the last new
ACK. -/
structure Losses where
  conn : Conn
  streak : Nat := 0

namespace Losses

def step (h : Losses) (e : LifeEvent) : Losses :=
  { conn := h.conn.live e
    streak := if h.conn.backsOff e then h.streak + 1 else if h.conn.newlyAcked e then 0 else h.streak }

/-- What one event must do: data retransmission timers are set for 200 ms or
more; an expiration sets the next one for longer, or past the limit ends the
connection; only an expiration or a new ACK changes the RTO; and no segment is
sent again ten times without a new ACK. -/
structure Bounded (h : Losses) (e : LifeEvent) : Prop where
  arms : Timing.Arms (200 ≤ ·) h.conn.sk.timing (h.step e).conn.sk.timing
  grows : ∀ i, e = .conn (.handler i) → h.conn.sk.fault = false → h.conn.sk.expires i →
    if h.conn.sk.rto > 60000 then (h.step e).conn.sk.state = .closing ∧ (h.step e).conn.sk.err = -ETIMEDOUT
    else h.conn.sk.rto < (h.step e).conn.sk.rto ∧ ∃ t ∈ (h.step e).conn.sk.timers,
      t.handler = .retransmissionTimeout (h.step e).conn.sk.rtoEpoch ∧
      t.expires - (h.step e).conn.sk.tick = (h.step e).conn.sk.rto
  stays : h.conn.backsOff e = false → h.conn.newlyAcked e = false → (h.step e).conn.sk.rto = h.conn.sk.rto
  streak : (h.step e).streak < 10

/-- Opened with an RTO that has been doubled at each loss, or not opened. -/
structure Inv (h : Losses) : Prop where
  readers : h.conn.OnlyReaders
  srtt : 0 ≤ h.conn.sk.srtt
  streak : h.streak < 10
  rto : h.conn.sk.fault = false → h.conn.Unset ∧ h.streak = 0 ∨
    200 * 2 ^ h.streak ≤ h.conn.sk.rto.toNat ∧ ¬h.conn.sk.state.unopened

theorem Inv.unset_backsOff {h : Losses} (hu : h.conn.Unset) (e : LifeEvent) : h.conn.backsOff e = false := by
  unfold Conn.backsOff
  split
  next i =>
    have hx : h.conn.sk.expires i = false := by
      rw [TcpSock.expires, decide_eq_false, Bool.false_and]
      exact fun hi => hu.timing _ (Timing.mem_pending.mpr (.inr (List.mem_of_getElem? hi)))
    rw [hx, Bool.and_false, Bool.false_and]
  next => rfl

/-- After an event the smoothed time is not negative, and the RTO is what it
was, doubled, or set anew. -/
theorem Inv.rtt {h : Losses} (hi : h.Inv) {e : Event} (hk : h.conn.sampleFits (.conn e)) :
    0 ≤ (h.conn.step e).sk.srtt ∧
    (h.conn.backsOff (.conn e) ∧ (h.conn.step e).sk.rto = h.conn.sk.rto * 2 ∨
     h.conn.backsOff (.conn e) = false ∧ ((h.conn.step e).sk.rto = h.conn.sk.rto ∨
       h.conn.newlyAcked (.conn e) ∧ 200 ≤ (h.conn.step e).sk.rto)) := by
  have srtt : ∀ {x : U32} {y : Int}, (h.conn.step e).sk.rtt = (x, y) → 0 ≤ y → 0 ≤ (h.conn.step e).sk.srtt := fun hr hy =>
    le_of_le_of_eq hy (congrArg Prod.snd hr).symm
  rcases h.conn.step_rtt e with ⟨hb, hr⟩ | ⟨hb, hr | ⟨hn, hr | ⟨th, data, psh, rfl, hn', hr⟩⟩⟩
  · exact ⟨srtt hr hi.srtt, .inl ⟨hb, congrArg Prod.fst hr⟩⟩
  · exact ⟨srtt hr hi.srtt, .inr ⟨hb, .inl (congrArg Prod.fst hr)⟩⟩
  · refine ⟨srtt hr hi.srtt, .inr ⟨hb, .inr ⟨hn, ?_⟩⟩⟩
    rw [show (h.conn.step e).sk.rto = 1000 from congrArg Prod.fst hr]
    decide
  · simp only [Conn.sampleFits, hn', Bool.not_true, Bool.false_or] at hk
    obtain ⟨hs, hb'⟩ := sampled_bound hi.srtt hk
    refine ⟨srtt hr hs, .inr ⟨hb, ?_⟩⟩
    rw [show (h.conn.step (.segment th data psh)).sk.rto = h.conn.sk.sampled.1 from congrArg Prod.fst hr]
    exact hb'.symm.imp_right fun hw => ⟨hn, hw⟩

theorem streak_lt {k : Nat} {r : U32} (h : 200 * 2 ^ k ≤ r.toNat) (hr : ¬r > 60000) : k < 9 := by
  by_contra hk
  have hp : 2 ^ 9 ≤ 2 ^ k := Nat.pow_le_pow_right (by norm_num) (not_lt.mp hk)
  have hle : r.toNat ≤ 60000 := by bv_omega
  omega

theorem toNat_double {r : U32} (hr : ¬r > 60000) : (r * 2).toNat = 2 * r.toNat := by bv_omega

theorem backsOff_limit {c : Conn} {e : LifeEvent} (h : c.backsOff e) : c.sk.fault = false ∧ ¬c.sk.rto > 60000 := by
  unfold Conn.backsOff at h
  split at h
  · simp only [Bool.and_eq_true, Bool.not_eq_true', decide_eq_false_iff_not] at h
    exact ⟨h.1.1, h.2⟩
  · cases h

/-- An event of the socket keeps the invariant. -/
theorem Inv.conn {h : Losses} (hi : h.Inv) {e : Event} (hk : h.conn.sampleFits (.conn e)) : (h.step (.conn e)).Inv := by
  obtain ⟨hsrtt, hrto⟩ := hi.rtt hk
  refine ⟨Conn.live_onlyReaders hi.readers (.conn e), hsrtt, ?_, fun hf => ?_⟩
  · show (if h.conn.backsOff (.conn e) then h.streak + 1 else _) < 10
    split
    next hb =>
      obtain ⟨hf, hl⟩ := backsOff_limit hb
      rcases hi.rto hf with ⟨hu, -⟩ | ⟨hr, -⟩
      · rw [unset_backsOff hu] at hb
        cases hb
      · exact Nat.succ_lt_succ (streak_lt hr hl)
    next =>
      split
      · norm_num
      · exact hi.streak
  · have hfault : h.conn.sk.fault = false := by
      by_contra hft
      have hstay : h.conn.step e = h.conn := Conn.step_of_fault (by simpa using hft) e
      rw [show (h.step (.conn e)).conn = h.conn from hstay] at hf
      exact hft hf
    rcases hi.rto hfault with ⟨hu, hz⟩ | ⟨hr, hs⟩
    · have hz' : (h.step (.conn e)).streak = 0 := by
        show (if h.conn.backsOff (.conn e) then h.streak + 1 else _) = 0
        rw [unset_backsOff hu, if_neg nofun, hz, ite_self]
      rcases hu.step e hf with hu' | ⟨hr', hs'⟩
      · exact .inl ⟨hu', hz'⟩
      · refine .inr ⟨?_, ?_⟩
        · rw [hz', show (h.step (.conn e)).conn.sk.rto = 1000 from hr']
          decide
        · rw [show (h.step (.conn e)).conn.sk.state = .established from hs']
          nofun
    · refine .inr ⟨?_, ?_⟩
      · show 200 * 2 ^ (if h.conn.backsOff (.conn e) then h.streak + 1 else _) ≤ (h.conn.step e).sk.rto.toNat
        rcases hrto with ⟨hb, hr'⟩ | ⟨hb, hr' | ⟨hn, hr'⟩⟩
        · rw [if_pos hb, hr', toNat_double (backsOff_limit hb).2, pow_succ]
          omega
        · rw [hb, if_neg nofun, hr']
          split
          · have hp : 1 ≤ 2 ^ h.streak := Nat.one_le_two_pow
            omega
          · exact hr
        · rw [hb, if_neg nofun, if_pos hn]
          exact hr'
      · obtain ⟨es, -, hm⟩ := Conn.step_moves hi.readers.ready e
        exact hm.keeps_core (I := fun k => ¬k.state.unopened) (fun hmv hk hu => hk (hmv.unopened hu)) hs

/-- What an opened connection arms, it arms for 200 ms or more. -/
theorem Inv.arms {h : Losses} (hi : h.Inv) {e : Event} (hk : h.conn.sampleFits (.conn e))
    (hr : 200 * 2 ^ h.streak ≤ h.conn.sk.rto.toNat) : h.conn.Arms (200 ≤ ·) e := by
  have hw : 200 ≤ h.conn.sk.rto := by
    have hp : 1 ≤ 2 ^ h.streak := Nat.one_le_two_pow
    rw [BitVec.le_def]
    show 200 ≤ _
    omega
  cases e with
  | segment th data psh =>
    refine ⟨fun _ _ => hw, fun _ => hw, fun hh _ => ?_⟩
    rw [taken_rto]
    split
    next hn =>
      simp only [Conn.sampleFits, TcpSock.hearsNew, hh, hn, Bool.and_self, Bool.not_true, Bool.false_or] at hk
      rcases (sampled_bound hi.srtt hk).2 with hb | hb
      · exact hb
      · exact hw.trans_eq hb.symm
    next => exact hw
  | write buf => exact fun _ => hw
  | close => exact fun _ => hw
  | resume i => exact fun _ _ => hw
  | handler i =>
    intro _ hl _
    rw [BitVec.le_def, toNat_double hl]
    rw [BitVec.le_def] at hw
    omega
  | read len | abort | dispatch i | tick ms | fcntl nonblock | adjustPmtu6 mss => trivial

theorem tcpConnect_dials {s : TcpSock} (hs : s.state = .close) (iss : U32) : (tcpConnect s iss).dials = s.dials := by
  rw [tcpConnect_eq hs]
  exact tcpQueueTransmitSkb_dials (synSock s iss) _

/-- `tcp_connect` leaves a closed socket unopened, with its SYN queued. -/
theorem opens_unset {c c' : Core} (ho : c.Opens c') (h : c.Unset) : c'.Unset := by
  cases ho with
  | fails => exact ⟨h.ptsk, h.inflight, h.wnd, h.syn, h.state⟩
  | listen => exact ⟨h.ptsk, h.inflight, h.wnd, nofun, rfl⟩
  | @connect iss syn _ hk =>
    refine ⟨h.ptsk, ?_, rfl, fun _ => by simp [SndSide.connect, SndSide.enqueue], rfl⟩
    have hl : syn.dlen = 0 := by
      rw [Skb.dlen, hk.payload]
      rfl
    show c.snd.inflight + syn.dlen = 0
    rw [h.inflight, hl]
    rfl

theorem opens_opened {c c' : Core} (ho : c.Opens c') (h : ¬c.state.unopened) : ¬c'.state.unopened := by
  cases ho with
  | fails => exact h
  | listen hs | connect _ hs _ => exact absurd (by rw [hs]; rfl) h

/-- The calls that open a socket leave the estimate alone. -/
theorem live_rtt (c : Conn) {e : LifeEvent} (he : e.event? = none) : (c.live e).sk.rtt = c.sk.rtt := by
  cases e with
  | conn e => cases he
  | listen =>
    simp only [Conn.live]
    split
    · rfl
    · rcases tcpV4Listen_cases c.sk with ⟨-, hl⟩ | hl <;> rw [hl]
      rfl
  | connect d iss =>
    simp only [Conn.live]
    split
    · rfl
    · rcases inetStreamConnect_cases c.sk d iss with ⟨hs, hc⟩ | ⟨err, hc⟩
      · rw [hc]
        exact rtt_of_dials (tcpConnect_dials (s := c.sk.addressed d) hs iss)
      · rw [hc]
        rfl

theorem unset_live {c : Conn} (h : c.Unset) {e : LifeEvent} (he : e.event? = none) : (c.live e).Unset := by
  cases e with
  | conn e => cases he
  | listen =>
    simp only [Conn.live]
    split
    · exact h
    · exact ⟨opens_unset (tcpV4Listen_opens c.sk).1 h.core, (tcpV4Listen_timing c.sk).symm ▸ h.timing, h.readers⟩
  | connect d iss =>
    simp only [Conn.live]
    split
    · exact h
    · exact ⟨opens_unset (inetStreamConnect_opens c.sk d iss).1 h.core, h.timing.ops (inetStreamConnect_timerOps _ d iss), h.readers⟩

theorem live_fault {c : Conn} {e : LifeEvent} (hf : (c.live e).sk.fault = false) : c.sk.fault = false := by
  by_contra hft
  have hft : c.sk.fault = true := by simpa using hft
  have hstay : (c.live e).sk = c.sk := by
    cases e with
    | conn e => exact congrArg Conn.sk (Conn.step_of_fault hft e)
    | listen => simp [Conn.live, hft]
    | connect d iss => simp [Conn.live, hft]
  rw [hstay, hft] at hf
  cases hf

theorem Inv.step {h : Losses} (hi : h.Inv) {e : LifeEvent} (hk : h.conn.sampleFits e) : (h.step e).Inv := by
  by_cases he : e.event? = none
  · have hz : (h.step e).streak = h.streak := by
      cases e with
      | conn e => cases he
      | listen => rfl
      | connect d iss => rfl
    have hr := live_rtt h.conn he
    refine ⟨Conn.live_onlyReaders hi.readers e, ?_, hz ▸ hi.streak, fun hf => ?_⟩
    · exact le_of_le_of_eq hi.srtt (congrArg Prod.snd hr).symm
    · rw [hz, show (h.step e).conn.sk.rto = h.conn.sk.rto from congrArg Prod.fst hr]
      rcases hi.rto (live_fault hf) with ⟨hu, h0⟩ | ⟨hr, hs⟩
      · exact .inl ⟨unset_live hu he, h0⟩
      · refine .inr ⟨hr, ?_⟩
        exact Conn.live_keeps_core (I := fun k => ¬k.state.unopened) (fun hmv hk hu => hk (hmv.unopened hu))
          (fun ho hk => opens_opened ho hk) hi.readers hs e
  · cases e with
    | conn e => exact hi.conn hk
    | listen => exact absurd rfl he
    | connect d iss => exact absurd rfl he

theorem arms_self (W : U32 → Prop) (g : Timing) : Timing.Arms W g g := fun _ ht hn => absurd ht hn

/-- Data retransmission timers are set for 200 ms or more. -/
theorem Inv.timers {h : Losses} (hi : h.Inv) {e : LifeEvent} (hk : h.conn.sampleFits e) :
    Timing.Arms (200 ≤ ·) h.conn.sk.timing (h.step e).conn.sk.timing := by
  cases e with
  | listen =>
    simp only [Losses.step, Conn.live]
    split
    · exact arms_self _ _
    · rw [tcpV4Listen_timing]
      exact arms_self _ _
  | connect d iss =>
    simp only [Losses.step, Conn.live]
    split
    · exact arms_self _ _
    · exact (Timing.Ops.arms (inetStreamConnect_timerOps _ d iss)).2
  | conn e =>
    show Timing.Arms _ _ (h.conn.step e).sk.timing
    cases hf : h.conn.sk.fault with
    | true =>
      rw [Conn.step_of_fault hf]
      exact arms_self _ _
    | false =>
      by_cases ht : ∃ ms, e = .tick ms
      · obtain ⟨ms, rfl⟩ := ht
        simp only [Conn.step, hf]
        exact fun t ht hn => absurd ht hn
      · have ht : ∀ ms, e ≠ .tick ms := fun ms he => ht ⟨ms, he⟩
        rcases hi.rto hf with ⟨hu, -⟩ | ⟨hr, -⟩
        · exact (Timing.Ops.arms ((Conn.step_timerOps (hu.arms e) ht).mono fun _ hw => absurd hw id)).2
        · exact (Timing.Ops.arms (Conn.step_timerOps (hi.arms hk hr) ht)).2

/-- An expiration sets the next timer for longer, or ends the connection. -/
theorem Inv.expiration {h : Losses} (hi : h.Inv) {i : Nat} (hf : h.conn.sk.fault = false) (hx : h.conn.sk.expires i) :
    let c := h.conn.step (.handler i)
    if h.conn.sk.rto > 60000 then c.sk.state = .closing ∧ c.sk.err = -ETIMEDOUT
    else h.conn.sk.rto < c.sk.rto ∧ ∃ t ∈ c.sk.timers, t.handler = .retransmissionTimeout c.sk.rtoEpoch ∧
      t.expires - c.sk.tick = c.sk.rto := by
  have hset : 200 * 2 ^ h.streak ≤ h.conn.sk.rto.toNat ∧ ¬h.conn.sk.state.unopened := by
    rcases hi.rto hf with ⟨hu, -⟩ | hset
    · simp only [TcpSock.expires, Bool.and_eq_true, decide_eq_true_eq] at hx
      exact absurd (Timing.mem_pending.mpr (.inr (List.mem_of_getElem? hx.1))) (hu.timing _)
    · exact hset
  have hstep : (h.conn.step (.handler i)).sk = Conn.handle h.conn.sk i := by
    simp only [Conn.step, hf, Bool.false_eq_true, if_false]
  obtain ⟨u, k, he, hur, hus⟩ := handle_expires hx
  dsimp only
  rw [hstep, he]
  split
  next hr => exact rtoTail_done (hur.symm ▸ hr) k
  next hr =>
    have hur' : ¬u.rto > 60000 := hur.symm ▸ hr
    have hns : u.state ≠ .synSent := by
      intro hs
      rw [hus] at hs
      exact hset.2 (by rw [hs]; rfl)
    have hrto : (rtoTail u k).rto = h.conn.sk.rto * 2 := by
      have hr2 := rtoTail_rtt u k
      rw [if_neg hur', hur] at hr2
      exact congrArg Prod.fst hr2
    refine ⟨?_, ?_⟩
    · have hpos : 0 < h.conn.sk.rto.toNat := lt_of_lt_of_le (by positivity) hset.1
      rw [hrto, BitVec.lt_def, toNat_double hr]
      omega
    · rw [hrto, ← hur]
      exact rtoTail_armed hur' hns k

/-- **The invariant bounds every event.** -/
theorem Inv.bounded {h : Losses} (hi : h.Inv) {e : LifeEvent} (hk : h.conn.sampleFits e) : h.Bounded e where
  arms := hi.timers hk
  grows := by
    rintro i rfl hf hx
    exact hi.expiration hf hx
  stays := by
    intro hb hn
    by_cases he : e.event? = none
    · exact congrArg Prod.fst (live_rtt h.conn he)
    · cases e with
      | conn e =>
        rcases h.conn.step_rtt e with ⟨hb', -⟩ | ⟨-, hr | ⟨hn', -⟩⟩
        · rw [hb] at hb'
          cases hb'
        · exact congrArg Prod.fst hr
        · rw [hn] at hn'
          cases hn'
      | listen => exact absurd rfl he
      | connect d iss => exact absurd rfl he
  streak := (hi.step hk).streak

theorem Inv.fresh (o : OpenArgs) : Inv { conn := { sk := freshSock o } } where
  readers := fun _ call hc => absurd hc (List.not_mem_nil)
  srtt := le_rfl
  streak := by norm_num
  rto := fun _ => .inl ⟨⟨⟨rfl, rfl, rfl, nofun, rfl⟩, fun _ hn => absurd hn List.not_mem_nil, fun _ hc => absurd hc List.not_mem_nil⟩, rfl⟩

end Losses

/-- The data retransmission timers of a newborn socket are set for 200 ms or
more. -/
def TcpSock.BornArmed (s : TcpSock) : Prop :=
  ∀ t ∈ s.timers, ∀ n, t.handler = .retransmissionTimeout n → 200 ≤ t.expires - s.tick

/-- **The RTO is bounded from below, exactly for the sockets no listener
forked.** As long as the RTO of a sample fits an `int`, in every run of a
socket made by `tcp_alloc_sock` every event arms the data retransmission timer
for 200 ms or more, each expiration sets it for longer than the last, and a
segment is sent again at most nine times without a new ACK; the child of a
listener starts its life with a timer set for 0 ms. -/
theorem rto_bounded_iff {s : TcpSock} (hb : Born s) {es : List LifeEvent}
    (hk : Machine.Meets Losses.step (fun h e => h.conn.sampleFits e) { conn := { sk := s } } es) :
    s.BornArmed ∧ Machine.Meets Losses.step Losses.Bounded { conn := { sk := s } } es ↔ s.ptsk = none := by
  cases hb with
  | fresh o =>
    refine ⟨fun _ => rfl, fun _ => ⟨fun t ht => absurd ht List.not_mem_nil, ?_⟩⟩
    exact hk.derives (fun h e hk hi => ⟨Losses.Inv.step hi hk, Losses.Inv.bounded hi hk⟩) (Losses.Inv.fresh o)
  | @forked l th env _ _ hs =>
    have ht := tcpListen_timing hs
    refine ⟨fun ⟨harm, _⟩ => ?_, fun hp => ?_⟩
    · have hmem : ⟨0, l.tick + 0, .retransmissionTimeout 1⟩ ∈ s.timing.timers := by
        rw [ht]
        exact List.mem_append_right _ (List.mem_singleton_self _)
      have h200 := harm _ hmem 1 rfl
      rw [show s.tick = l.tick from congrArg Timing.tick ht] at h200
      simp at h200
    · have hsome : s.ptsk = some env.listener := congrArg Core.ptsk (tcpListen_core hs).1
      rw [hsome] at hp
      cases hp

/-- A client that loses its first byte. -/
def lossRun : List LifeEvent :=
  [.connect {} 100, .conn synAckEvent, .conn (.write [1]), .conn (.dispatch 0), .conn (.handler 0)]

/-- Its RTO goes from one second to two. -/
theorem rto_bounded_client :
    let h := Machine.run Losses.step { conn := { sk := freshSock {} } } lossRun
    (h.conn.sk.rto = 2000 ∧ h.streak = 1) ∧
    (freshSock {}).BornArmed ∧ Machine.Meets Losses.step Losses.Bounded { conn := { sk := freshSock {} } } lossRun :=
  ⟨by decide +kernel, (rto_bounded_iff (.fresh {}) (by decide +kernel)).mpr rfl⟩

/-- A SYN as it comes to a listener. -/
def firstSyn : Tcphdr := { seq := 500, ackSeq := 0, syn := true, win := 1000 }

/-- The child the listener forks for it. -/
def forkedSock : TcpSock := (tcpListen ((freshSock {}).setState .listen) firstSyn ⟨100, 0, .v4 1⟩).getD {}

/-- It arms its timer for 0 ms, and an expiration doubles that to 0 ms. -/
theorem forked_rto_zero :
    Born forkedSock ∧ ¬forkedSock.BornArmed ∧
    ¬Machine.Meets Losses.step Losses.Bounded { conn := { sk := forkedSock } } [.conn (.dispatch 0), .conn (.handler 0)] := by
  have hchild : tcpListen ((freshSock {}).setState .listen) firstSyn ⟨100, 0, .v4 1⟩ = some forkedSock := by decide +kernel
  refine ⟨.forked rfl hchild, ?_, ?_⟩
  · intro h
    exact absurd (h ⟨0, 0, .retransmissionTimeout 1⟩ (by decide +kernel) 1 rfl) (by decide +kernel)
  · intro h
    have hg := h.2.1.grows 0 rfl (by decide +kernel) (by decide +kernel)
    rw [if_neg (by decide +kernel)] at hg
    exact absurd hg.1 (by decide +kernel)

end LevelIp
