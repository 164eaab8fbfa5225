/-
TCP options: `tcp_parse_opts`, `tcp_sack_mark_write_queue`, `tcp_sack_clear`
and `tcp_calculate_sacks` on the receiving side of a header, `tcp_options_len`,
`tcp_write_options` and the SYN options on the sending side.
-/
import LevelIp.TcpTimer

namespace LevelIp

def TCP_OPT_NOOP : U8 := 1
def TCP_OPT_MSS : U8 := 2
def TCP_OPT_WSO : U8 := 3
def TCP_OPT_SACK_OK : U8 := 4
def TCP_OPT_SACK : U8 := 5
def TCP_OPT_TS : U8 := 8

/-- `ntohl` of the four bytes at `i`. -/
def be32 (data : List U8) (i : Nat) : U32 :=
  let b (k : Nat) : U32 := (data.getD (i + k) 0).setWidth 32
  (b 0 <<< 24) ||| (b 1 <<< 16) ||| (b 2 <<< 8) ||| b 3

/-- The four bytes `htonl` stores. -/
def toBe32 (x : U32) : List U8 :=
  [(x >>> 24).setWidth 8, (x >>> 16).setWidth 8, (x >>> 8).setWidth 8, x.setWidth 8]

/-- The locals of `tcp_parse_opts` and the field it writes in its loop. -/
structure OptScan where
  ptr : Nat := 0
  optlen : U8
  sndScale : U8
  blocks : List (U32 × U32) := List.replicate 4 (0, 0)
  nblocks : Nat := 0
  sackSeen : Bool := false

/-- `nblocks` of a SACK option whose length byte is `n`: C division truncates,
so a length byte below 10 gives none. -/
def sackCount (n : U8) : Nat := min ((n.toNat - 2) / 8) 4

/-- One turn of the option loop. -/
def tcpParseOpt (data : List U8) (o : OptScan) : OptScan :=
  let kind := data.getD o.ptr 0
  if kind = TCP_OPT_MSS then { o with ptr := o.ptr + 4, optlen := o.optlen - 4 }
  else if kind = TCP_OPT_NOOP then { o with ptr := o.ptr + 1, optlen := o.optlen - 1 }
  else if kind = TCP_OPT_SACK_OK then { o with ptr := o.ptr + 2, optlen := o.optlen - 2 }
  else if kind = TCP_OPT_SACK then
    let n := sackCount (data.getD (o.ptr + 1) 0)
    let read := (List.range n).map fun i => (be32 data (o.ptr + 2 + 8 * i), be32 data (o.ptr + 6 + 8 * i))
    { o with
      ptr := o.ptr + 2 + 8 * n
      optlen := o.optlen - 2 - BitVec.ofNat 8 (8 * n)
      blocks := read ++ o.blocks.drop n
      nblocks := n
      sackSeen := true }
  else if kind = TCP_OPT_TS then { o with ptr := o.ptr + 10, optlen := o.optlen - 10 }
  else if kind = TCP_OPT_WSO then
    let wso := data.getD (o.ptr + 2) 0
    { o with ptr := o.ptr + 3, optlen := o.optlen - 3, sndScale := if wso ≤ 14 then wso else 14 }
  else
    -- an unknown option shortens the length but leaves `ptr` where it is
    { o with optlen := o.optlen - 1 }

/-- `while (optlen > 0 && optlen < 40)`; every turn lowers `optlen`, so 40
turns are enough. -/
def tcpParseOptsLoop (data : List U8) : Nat → OptScan → OptScan
  | 0, o => o
  | fuel + 1, o =>
    if 0 < o.optlen ∧ o.optlen < 40 then tcpParseOptsLoop data fuel (tcpParseOpt data o) else o

/-- `tcp_sack_mark_write_queue`. -/
def tcpSackMarkWriteQueue (s : TcpSock) (blocks : List (U32 × U32)) : TcpSock :=
  let covered (skb : Skb) : Bool := blocks.any fun b => skb.seq ≥ b.1 && skb.endSeq ≤ b.2
  let maxRight := blocks.foldl (fun m b => if b.2 > m then b.2 else m) 0
  { s with
    writeQueue := s.writeQueue.map fun skb => if covered skb then { skb with sacked := true } else skb
    sackMaxRight := if maxRight > s.sackMaxRight then maxRight else s.sackMaxRight }

/-- `tcp_parse_opts`. -/
def tcpParseOpts (s : TcpSock) (th : Tcphdr) : TcpSock :=
  let start : OptScan := { optlen := (th.hl.setWidth 8 <<< 2) - 20, sndScale := s.sndScale }
  let o := tcpParseOptsLoop th.data 40 start
  let s := { s with sndScale := o.sndScale, tsopt := false }
  if o.sackSeen && s.sackok then tcpSackMarkWriteQueue s (o.blocks.take o.nblocks) else s

/-- `tcp_sack_clear`. -/
def tcpSackClear (s : TcpSock) : TcpSock :=
  { s with writeQueue := s.writeQueue.map ({ · with sacked := false }), sackMaxRight := 0 }

/-- The loop of `tcp_calculate_sacks` over `ofo_queue`; `sb` is the index of the
block being filled. -/
def tcpCalculateSacksLoop (seq endSeq : U32) : List Skb → TcpSock → Nat → TcpSock
  | [], s, _ => s
  | next :: rest, s, sb =>
    let cur := s.sacks.getD sb (0, 0)
    if next.seq ≥ seq ∧ next.endSeq ≤ endSeq then tcpCalculateSacksLoop seq endSeq rest s sb
    else if s.sacklen ≥ s.sacksAllowed then s
    else if cur.1 = 0 then
      tcpCalculateSacksLoop seq endSeq rest
        { s with sacks := s.sacks.set sb (next.seq, next.endSeq), sacklen := s.sacklen + 1 } sb
    else if cur.2 = next.seq then
      tcpCalculateSacksLoop seq endSeq rest { s with sacks := s.sacks.set sb (cur.1, next.endSeq) } sb
    else
      tcpCalculateSacksLoop seq endSeq rest
        { s with sacks := s.sacks.set s.sacklen.toNat (next.seq, next.endSeq), sacklen := s.sacklen + 1 }
        s.sacklen.toNat

/-- `tcp_calculate_sacks`. -/
def tcpCalculateSacks (s : TcpSock) (seq endSeq : U32) : TcpSock :=
  tcpCalculateSacksLoop seq endSeq s.ofoQueue
    { s with sacks := (seq, endSeq) :: List.replicate 3 (0, 0), sacklen := 1 } 1

/-- Whether `tcp_write_options` and `tcp_options_len` include a SACK option. -/
def TcpSock.sackPending (s : TcpSock) : Bool :=
  s.sackok && s.sacklen > 0 && (s.sacks.getD 0 (0, 0)).1 ≠ 0

/-- `tcp_options_len`, the padding loop included. -/
def tcpOptionsLen (s : TcpSock) : U8 :=
  let wso : U8 := if s.wsoAllowed then 4 else 0
  let sack : U8 := if s.sackPending then 4 + s.sacklen * 8 else 0
  let optlen := wso + sack
  optlen + (4 - optlen % 4) % 4

/-- The bytes `tcp_write_options` puts at the start of the option area. -/
def tcpWriteOptionsBytes (s : TcpSock) : List U8 :=
  (if s.wsoAllowed then [TCP_OPT_NOOP, TCP_OPT_WSO, 3, s.rcvScale] else []) ++
  (if s.sackPending then
    [TCP_OPT_NOOP, TCP_OPT_NOOP, TCP_OPT_SACK, 2 + s.sacklen * 8] ++
      (s.sacks.take s.sacklen.toNat).flatMap fun b => toBe32 b.1 ++ toBe32 b.2
   else [])

/-- What `tcp_write_options` leaves in the socket. -/
def tcpWriteOptionsClear (s : TcpSock) : TcpSock :=
  if s.sackPending then { s with sacks := List.replicate 4 (0, 0), sacklen := 0 } else s

/-- `tcp_syn_options` and `tcp_write_syn_options`: the option area of a SYN. -/
def tcpSynOptions (s : TcpSock) : List U8 :=
  [TCP_OPT_MSS, 4, (s.rmss >>> 8).setWidth 8, s.rmss.setWidth 8] ++
    (if s.sackok then [TCP_OPT_NOOP, TCP_OPT_NOOP, TCP_OPT_SACK_OK, 2] else [])

end LevelIp
