/-
What a refused `connect` leaves behind. `inet_stream_connect` reports the refusal
through `sk->err`, which nothing clears: the next `tcp_write` returns it, and so
does a `tcp_read` after the end of the stream.
-/
import LevelIp.Sockets

namespace LevelIp

def EAFNOSUPPORT : Int := 97

/-- The socket is connected, connecting or listening: anything but a fresh one. -/
def TcpSock.busy (s : TcpSock) : Bool := !(s.sockState = .unconnected && s.state = .close)

namespace Conn

/-- What an event comes to: the effects it has, and what a call returns with the
bytes it has read. -/
def result (c : Conn) (e : Event) : List Effect × Option (Outcome × List U8) :=
  ((c.step e).sk.fx.drop c.sk.fx.length,
    match e with
    | .write buf => some ((tcpWrite c.sk buf).2, [])
    | .read len => some (tcpRead c.sk len).2
    | .resume i =>
      match c.calls[i]? with
      | none => none
      | some (.recv len got) => some (tcpReceiveTurn c.sk len got).2
      | some call => some ((resumeSend c.sk call).2, [])
    | _ => none)

end Conn

variable {s : TcpSock}

end LevelIp
