import LevelIp.ReceiveStream
import LevelIp.RcvWindow
import LevelIp.Lib.Layout
import LevelIp.SendQueue
import LevelIp.SendStream
import LevelIp.FinAck
import LevelIp.FlowControl
import LevelIp.AckModular
import LevelIp.FinOrder
import LevelIp.CongFlow
import LevelIp.CongInvariant
import LevelIp.Recovery
import LevelIp.Life
import LevelIp.StateMachine
import LevelIp.Timing
import LevelIp.Finished
import LevelIp.RtoCoverage
import LevelIp.PureAcks
import LevelIp.TimerOps
import LevelIp.TimeWait
import LevelIp.RtoBound
import LevelIp.Waiters
import LevelIp.EndOfStream
import LevelIp.BlockedWriters
import LevelIp.SackFree
import LevelIp.Addrconf
import LevelIp.Ndp
import LevelIp.AddrFacts
import LevelIp.DadOverlap
import LevelIp.DadEvidence
import LevelIp.SourceAddress
import LevelIp.Advertisements
import LevelIp.Lifetimes
import LevelIp.SocketRefs
import LevelIp.Lib.Heap
import LevelIp.Skbuff
import LevelIp.SkbOwner
import LevelIp.SkbQueues
import LevelIp.SkbRings
import LevelIp.Ends
import LevelIp.HostMoves
import LevelIp.Handshake
import LevelIp.HostTurns
import LevelIp.ParentLink
import LevelIp.AcceptQueue
import LevelIp.FourTuple
import LevelIp.SeqCheck
import LevelIp.OfoOrder
import LevelIp.Lib.Keyed
import LevelIp.NdpQueue
import LevelIp.PathMtu
import LevelIp.SegmentDecoding
import LevelIp.TimerLife
import LevelIp.Ipc
import LevelIp.IpcFraming
import LevelIp.ChainIcmpv6
import LevelIp.ChainTcp
import LevelIp.AckReorder
import LevelIp.OptionParsing
import LevelIp.OptionWriting
import LevelIp.AckGrowth
import LevelIp.FinOnce
import LevelIp.ResetHandling
import LevelIp.BindListen
import LevelIp.Lib.OnesComplement
import LevelIp.SplitChecksum
import LevelIp.SackRun
import LevelIp.TxGeometry
import LevelIp.Scoreboard
import LevelIp.SackHonesty
import LevelIp.PollMask
import LevelIp.ExtHeaders
import LevelIp.Lib.BitPrefix
import LevelIp.LongestPrefix
import LevelIp.NaUpdate
import LevelIp.Lib.Memory
import LevelIp.SkbBytes
import LevelIp.EchoReply4
import LevelIp.IcmpErrors
import LevelIp.AddrGrammar
import LevelIp.UdpReceive
import LevelIp.DeferredOutput
import LevelIp.RtoEpoch
import LevelIp.EofReads
import LevelIp.Lib.Access
import LevelIp.UdpChecksum
import LevelIp.ArpCache
import LevelIp.Lib.Window
import LevelIp.PollSplit
import LevelIp.DispatchFailure
import LevelIp.IpcResult
import LevelIp.TickWrap
import LevelIp.AddrArrays
import LevelIp.AddrText
import LevelIp.ExtWalk
import LevelIp.NdpReads
import LevelIp.Lib.Loop
import LevelIp.OptionReads
import LevelIp.DequeueSplit
import LevelIp.HexDump
import LevelIp.Icmpv6Verify
import LevelIp.Greeting
import LevelIp.Peers
import LevelIp.SendLedger
import LevelIp.WrittenQueued
import LevelIp.OpenerLedger
import LevelIp.EndToEnd
import LevelIp.SegmentBytes
import LevelIp.ArpBytes
import LevelIp.ArpLan
import LevelIp.UdpWire
