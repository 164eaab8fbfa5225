/-
Two data segments with different ACK numbers in either order: the one with the
lower number, if it comes second, is behind `snd_una` and is dropped with its
data.
-/
import LevelIp.Finished
import LevelIp.ReceiveOrder

namespace LevelIp

/-- Data, and an ACK, but no other control bit than PSH. -/
structure DataSegment.Plain (g : DataSegment) : Prop where
  syn : g.th.syn = false
  fin : g.th.fin = false
  rst : g.th.rst = false
  ack : g.th.ack = true

/-- The segment arrives. -/
def TcpSock.arrive (s : TcpSock) (g : DataSegment) : TcpSock := segmentArrives s g.th g.skb

theorem DataSegment.not_dupack (g : DataSegment) (s : TcpSock) : tcpIsDupack s g.th g.skb = false := by
  refine LevelIp.not_dupack (.inl ?_)
  have hp := g.proper
  have h1 := hp.1
  have h2 := hp.2
  bv_omega

theorem DataSegment.text (g : DataSegment) (r : RcvSide) : r.text g.th g.skb = r.take g.skb := by
  have hp := g.proper
  have h1 := hp.1
  have h2 := hp.2
  have hpos : g.skb.dlen > 0 := by bv_omega
  rw [RcvSide.text, decide_eq_true hpos, Bool.or_true]
  rfl

variable {s : TcpSock} {a b : DataSegment}

/-- Two bytes from `seq` that acknowledge up to `ack`. -/
def answer (seq ack : U32) (h : seq.toNat + 2 < 2 ^ 32) : DataSegment where
  th := { seq := seq, ackSeq := ack, ack := true, win := 10000 }
  data := ⟨[7, 8], by decide⟩
  psh := false
  nonempty := nofun
  nowrap := h

end LevelIp
