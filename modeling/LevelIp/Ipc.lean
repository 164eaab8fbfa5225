/-
`ipc.c` and the senders of `liblevelip.c`: the messages that a client writes on
its UNIX stream socket, and the thread of the daemon that reads them,
`socket_ipc_open`. Structures are packed and numbers little-endian.

How many bytes a `read` returns, and what the socket calls return, are inputs.
Bytes that a sender leaves as it found them on its stack are its `junk`.
-/
import LevelIp.Lib.Bytes
import LevelIp.Lib.Machine
import LevelIp.Sock

namespace LevelIp

open Bytes (le numAt)

def IPC_BUFLEN : Nat := 8192

/-- The message types. -/
inductive IpcType where
  | socket
  | connect
  | write
  | read
  | close
  | poll
  | fcntl
  | getsockopt
  | setsockopt
  | getpeername
  | getsockname
  | bind
  | sendto
  | recvfrom
  | listen
  | accept
deriving DecidableEq

namespace IpcType

/-- The number of a type in `ipc.h`. -/
def code : IpcType → Nat
  | socket => 0x0001
  | connect => 0x0002
  | write => 0x0003
  | read => 0x0004
  | close => 0x0005
  | poll => 0x0006
  | fcntl => 0x0007
  | getsockopt => 0x0008
  | setsockopt => 0x0009
  | getpeername => 0x000A
  | getsockname => 0x000B
  | bind => 0x000C
  | sendto => 0x000D
  | recvfrom => 0x000E
  | listen => 0x000F
  | accept => 0x0010

def all : List IpcType :=
  [socket, connect, write, read, close, poll, fcntl, getsockopt, setsockopt, getpeername, getsockname, bind, sendto,
    recvfrom, listen, accept]

def ofCode (n : Nat) : Option IpcType := all.find? fun ty => ty.code = n

theorem ofCode_code (ty : IpcType) : ofCode ty.code = some ty := by cases ty <;> rfl

end IpcType

/-- `struct ipc_pollfd`. -/
structure IpcPollfd where
  fd : U32
  events : U16
  revents : U16
deriving DecidableEq

/-- A call of the socket layer, `_socket` and so on, with what it is given:
buffers and addresses with the bytes they hold. `fcntl` has an argument for
`F_SETFL` and none for `F_GETFL`. -/
inductive IpcCall where
  | socket (pid domain type protocol : U32)
  | connect (pid sockfd : U32) (addr : List U8)
  | write (pid sockfd : U32) (buf : List U8)
  | read (pid sockfd : U32) (len : Nat)
  | close (pid sockfd : U32)
  | poll (pid : U32) (fds : List IpcPollfd) (timeout : U32)
  | fcntl (pid sockfd : U32) (arg : Option U32)
  | getsockopt (pid fd level optname : U32) (optval : List U8)
  | getpeername (pid socket : U32)
  | getsockname (pid socket : U32)
  | bind (pid sockfd : U32) (addr : List U8)
  | sendto (pid sockfd : U32) (buf : List U8) (flags : U32) (addr : List U8)
  | recvfrom (pid sockfd : U32) (len : Nat) (flags addrlen : U32)
  | listen (pid sockfd n : U32)
  | accept (pid sockfd : U32) (addr : List U8)
deriving DecidableEq

def F_GETFL : Nat := 3
def F_SETFL : Nat := 4

/-! ## The senders -/

/-- `sizeof` of `sa_data` in `struct ipc_sockaddr`. -/
def SA_DATA_LEN : Nat := 28

/-- `SA_COPY_LEN`. -/
def saCopyLen (userLen : Nat) : Nat := if userLen < SA_DATA_LEN then userLen else SA_DATA_LEN

/-- `sa_data` after the copy into the zeroed structure. -/
def saData (addr : List U8) : List U8 :=
  addr.take (saCopyLen addr.length) ++ List.replicate (SA_DATA_LEN - saCopyLen addr.length) 0

/-- `struct ipc_pollfd`. -/
def IpcPollfd.bytes (p : IpcPollfd) : List U8 := [le 4 p.fd.toNat, le 2 p.events.toNat, le 2 p.revents.toNat].flatten

/-- The message for an address, `struct ipc_connect` and its like. -/
def addrMessage (type : IpcType) (pid sockfd : U32) (addr : List U8) : List U8 :=
  [le 2 type.code, le 4 pid.toNat, le 4 sockfd.toNat, saData addr, le 4 (saCopyLen addr.length)].flatten

/-- The message for a peer or own name, `struct ipc_sockname`: only its
`socket` is set. -/
def nameMessage (type : IpcType) (pid socket : U32) (junk : List U8) : List U8 :=
  [le 2 type.code, le 4 pid.toNat, le 4 socket.toNat, junk.takeD 132 0].flatten

namespace IpcCall

def type : IpcCall → IpcType
  | socket .. => .socket
  | connect .. => .connect
  | write .. => .write
  | read .. => .read
  | close .. => .close
  | poll .. => .poll
  | fcntl .. => .fcntl
  | getsockopt .. => .getsockopt
  | getpeername .. => .getpeername
  | getsockname .. => .getsockname
  | bind .. => .bind
  | sendto .. => .sendto
  | recvfrom .. => .recvfrom
  | listen .. => .listen
  | accept .. => .accept

/-- What the client writes for a call, as long as `msglen` is an `int`. -/
def message (junk : List U8) : IpcCall → List U8
  | socket pid domain type protocol =>
    [le 2 IpcType.socket.code, le 4 pid.toNat, le 4 domain.toNat, le 4 type.toNat, le 4 protocol.toNat].flatten
  | connect pid sockfd addr => addrMessage .connect pid sockfd addr
  | write pid sockfd buf =>
    [le 2 IpcType.write.code, le 4 pid.toNat, le 4 sockfd.toNat, le 8 buf.length, buf].flatten
  | read pid sockfd len => [le 2 IpcType.read.code, le 4 pid.toNat, le 4 sockfd.toNat, le 8 len].flatten
  | close pid sockfd => [le 2 IpcType.close.code, le 4 pid.toNat, le 4 sockfd.toNat].flatten
  | poll pid fds timeout =>
    [le 2 IpcType.poll.code, le 4 pid.toNat, le 8 fds.length, le 4 timeout.toNat, (fds.map IpcPollfd.bytes).flatten].flatten
  | fcntl pid sockfd none =>
    [le 2 IpcType.fcntl.code, le 4 pid.toNat, le 4 sockfd.toNat, le 4 F_GETFL, junk.takeD 36 0].flatten
  | fcntl pid sockfd (some arg) =>
    [le 2 IpcType.fcntl.code, le 4 pid.toNat, le 4 sockfd.toNat, le 4 F_SETFL, le 4 arg.toNat, junk.takeD 32 0].flatten
  | getsockopt pid fd level optname optval =>
    [le 2 IpcType.getsockopt.code, le 4 pid.toNat, le 4 fd.toNat, le 4 level.toNat, le 4 optname.toNat,
      le 4 optval.length, optval].flatten
  | getpeername pid fd => nameMessage .getpeername pid fd junk
  | getsockname pid fd => nameMessage .getsockname pid fd junk
  | bind pid sockfd addr => addrMessage .bind pid sockfd addr
  | sendto pid sockfd buf flags addr =>
    -- the length of the address is not cut to what was copied
    [le 2 IpcType.sendto.code, le 4 pid.toNat, le 4 sockfd.toNat, le 8 buf.length, le 4 flags.toNat, saData addr,
      le 4 addr.length, buf].flatten
  | recvfrom pid sockfd len flags addrlen =>
    [le 2 IpcType.recvfrom.code, le 4 pid.toNat, le 4 sockfd.toNat, le 8 len, le 4 flags.toNat, List.replicate 16 0,
      le 4 addrlen.toNat].flatten
  | listen pid sockfd n => [le 2 IpcType.listen.code, le 4 pid.toNat, le 4 sockfd.toNat, le 4 n.toNat].flatten
  | accept pid sockfd addr => addrMessage .accept pid sockfd addr

/-- The call that a message asks for: `liblevelip` cuts an address to what
`struct ipc_sockaddr` has room for. -/
def asked : IpcCall → IpcCall
  | connect pid sockfd addr => connect pid sockfd (addr.take (saCopyLen addr.length))
  | bind pid sockfd addr => bind pid sockfd (addr.take (saCopyLen addr.length))
  | accept pid sockfd addr => accept pid sockfd (addr.take (saCopyLen addr.length))
  | c => c

end IpcCall

/-! ## The daemon -/

/-- Fields of a structure in memory. -/
def u32At (m : List U8) (off : Nat) : U32 := BitVec.ofNat 32 (numAt m off 4)
def u16At (m : List U8) (off : Nat) : U16 := BitVec.ofNat 16 (numAt m off 2)

/-- `unsigned int count`, of a `size_t`. -/
def countOf (len : Nat) : Nat := len % 2 ^ 32

/-- The `n` bytes at `off`. -/
def bytesAt (m : List U8) (off n : Nat) : List U8 := (m.drop off).take n

/-! The message is at the start of `m`, which is the stack from `buf` on. -/

/-- `ipc_socket`. -/
def ipcSocket (m : List U8) : IpcCall := .socket (u32At m 2) (u32At m 6) (u32At m 10) (u32At m 14)

/-- The call of `ipc_connect`, `ipc_bind` and `ipc_accept`. -/
def ipcAddr (call : U32 → U32 → List U8 → IpcCall) (m : List U8) : IpcCall :=
  call (u32At m 2) (u32At m 6) (bytesAt m 10 (numAt m 38 4))

/-- `ipc_connect`. -/
def ipcConnect (m : List U8) : IpcCall := ipcAddr .connect m

/-- `ipc_bind`. -/
def ipcBind (m : List U8) : IpcCall := ipcAddr .bind m

/-- `ipc_accept`. -/
def ipcAccept (m : List U8) : IpcCall := ipcAddr .accept m

/-- `ipc_listen`. -/
def ipcListen (m : List U8) : IpcCall := .listen (u32At m 2) (u32At m 6) (u32At m 10)

/-- `ipc_read`. -/
def ipcRead (m : List U8) : IpcCall := .read (u32At m 2) (u32At m 6) (countOf (numAt m 10 8))

/-- `ipc_sendto`. -/
def ipcSendto (m : List U8) : IpcCall :=
  .sendto (u32At m 2) (u32At m 6) (bytesAt m 54 (countOf (numAt m 10 8))) (u32At m 18) (bytesAt m 22 (numAt m 50 4))

/-- `ipc_recvfrom`. -/
def ipcRecvfrom (m : List U8) : IpcCall :=
  .recvfrom (u32At m 2) (u32At m 6) (countOf (numAt m 10 8)) (u32At m 18) (u32At m 38)

/-- `ipc_close`. -/
def ipcClose (m : List U8) : IpcCall := .close (u32At m 2) (u32At m 6)

def pollfdAt (m : List U8) (off : Nat) : IpcPollfd where
  fd := u32At m off
  events := u16At m (off + 4)
  revents := u16At m (off + 6)

/-- `ipc_poll`. -/
def ipcPoll (m : List U8) : IpcCall :=
  .poll (u32At m 2) ((List.range (numAt m 6 8)).map fun i => pollfdAt m (18 + 8 * i)) (u32At m 14)

/-- `ipc_fcntl`, which calls nothing for another `cmd`. -/
def ipcFcntl (m : List U8) : Option IpcCall :=
  if numAt m 10 4 = F_GETFL then some (.fcntl (u32At m 2) (u32At m 6) none)
  else if numAt m 10 4 = F_SETFL then some (.fcntl (u32At m 2) (u32At m 6) (some (u32At m 14)))
  else none

/-- `ipc_getsockopt`. -/
def ipcGetsockopt (m : List U8) : IpcCall :=
  .getsockopt (u32At m 2) (u32At m 6) (u32At m 10) (u32At m 14) (bytesAt m 22 (numAt m 18 4))

/-- `ipc_getpeername`. -/
def ipcGetpeername (m : List U8) : IpcCall := .getpeername (u32At m 2) (u32At m 6)

/-- `ipc_getsockname`. -/
def ipcGetsockname (m : List U8) : IpcCall := .getsockname (u32At m 2) (u32At m 6)

/-- The thread of one client: what the client has written and nobody has read,
the stack from `buf` on, and the calls made so far. -/
structure IpcThread where
  stream : List U8
  mem : List U8
  calls : List IpcCall := []
  running : Bool := true

/-- What the kernel and the socket layer do in one turn of the loop: how much
`read` returns, how much the `read` of `ipc_write` returns, and the result of
the call. -/
structure IpcTurn where
  first : Nat
  second : Nat := 0
  rc : Int := 0

namespace IpcThread

/-- `head` in `ipc_write`. -/
def head : Nat := IPC_BUFLEN - 12 - 6

def log (d : IpcThread) (c : IpcCall) : IpcThread := { d with calls := d.calls ++ [c] }

/-- `ipc_write`; `tail` is an `int`, and `read` takes it as a `size_t`. -/
def ipcWrite (d : IpcThread) (second : Nat) : IpcThread :=
  let len := numAt d.mem 10 8
  if len > head then
    let tail := BitVec.ofNat 32 (len - head)
    let res := d.stream.take (min second (tail.signExtend 64).toNat)
    let buf := (bytesAt d.mem 18 head ++ res).takeD len 0
    { d with stream := d.stream.drop res.length }.log (.write (u32At d.mem 2) (u32At d.mem 6) (buf.take (countOf len)))
  else d.log (.write (u32At d.mem 2) (u32At d.mem 6) ((bytesAt d.mem 18 len).take (countOf len)))

/-- `demux_ipc_socket_call`, and what it returns. -/
def demuxIpcSocketCall (d : IpcThread) (t : IpcTurn) : IpcThread × Int :=
  match IpcType.ofCode (numAt d.mem 0 2) with
  | some .socket => (d.log (ipcSocket d.mem), 0)
  | some .connect => (d.log (ipcConnect d.mem), 0)
  | some .write => (d.ipcWrite t.second, 0)
  | some .read => (d.log (ipcRead d.mem), 0)
  | some .close => (d.log (ipcClose d.mem), 0)
  | some .poll => (d.log (ipcPoll d.mem), 0)
  | some .fcntl => ((ipcFcntl d.mem).elim d d.log, 0)
  | some .getsockopt => (d.log (ipcGetsockopt d.mem), t.rc)
  | some .getpeername => (d.log (ipcGetpeername d.mem), t.rc)
  | some .getsockname => (d.log (ipcGetsockname d.mem), t.rc)
  | some .bind => (d.log (ipcBind d.mem), 0)
  | some .sendto => (d.log (ipcSendto d.mem), 0)
  | some .recvfrom => (d.log (ipcRecvfrom d.mem), 0)
  | some .listen => (d.log (ipcListen d.mem), 0)
  | some .accept => (d.log (ipcAccept d.mem), 0)
  | some .setsockopt => (d, 0)
  | none => (d, 0)

/-- A turn of the loop in `socket_ipc_open`, once there is something to read. -/
def step (d : IpcThread) (t : IpcTurn) : IpcThread :=
  let chunk := d.stream.take (min t.first IPC_BUFLEN)
  if d.running = false ∨ chunk = [] then d
  else
    let buffered := { d with stream := d.stream.drop chunk.length, mem := chunk ++ d.mem.drop chunk.length }
    let (d', rc) := buffered.demuxIpcSocketCall t
    { d' with running := rc ≠ -1 }

abbrev run (d : IpcThread) (ts : List IpcTurn) : IpcThread := Machine.run step d ts

end IpcThread

end LevelIp
