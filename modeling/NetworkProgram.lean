import NetworkProgram.Lib.Run
import NetworkProgram.Lib.Relay
import NetworkProgram.Lib.EndAround
import NetworkProgram.Lib.Poke
import NetworkProgram.Lib.RingBuf
import NetworkProgram.Lib.Tally
import NetworkProgram.Lib.Ledger
import NetworkProgram.Lib.SlotTable
import NetworkProgram.Lib.Piece
import NetworkProgram.Lib.Holders
import NetworkProgram.Lib.Decimal
import NetworkProgram.Lib.Peek
import NetworkProgram.Lib.Ewma
import NetworkProgram.Lib.Grouped
import NetworkProgram.Lib.Sim
import NetworkProgram.Lib.Collect
import NetworkProgram.Lib.Lag
import NetworkProgram.Lib.Stutter
import NetworkProgram.Lib.Gains
import NetworkProgram.Lib.Answers
import NetworkProgram.Bytes
import NetworkProgram.Sys
import NetworkProgram.Fds
import NetworkProgram.ReadFd
import NetworkProgram.Stdio
import NetworkProgram.Number
import NetworkProgram.Writen
import NetworkProgram.Readn
import NetworkProgram.Readn.Stream
import NetworkProgram.StrEcho
import NetworkProgram.Readline.Impl
import NetworkProgram.Readline.Conserve
import NetworkProgram.Readline.Shared
import NetworkProgram.Readline.Pieces
import NetworkProgram.Readline.Buffered
import NetworkProgram.Readline.Turn
import NetworkProgram.Readline.Reader
import NetworkProgram.Readline.Reference
import NetworkProgram.Readline.Count
import NetworkProgram.Readline.Failure
import NetworkProgram.Rtt.Impl
import NetworkProgram.Rtt.SendRecv
import NetworkProgram.Rtt.Exchange
import NetworkProgram.Rtt.Timer
import NetworkProgram.Rtt.Estimate
import NetworkProgram.Rtt.Stamp
import NetworkProgram.StrCli.Impl
import NetworkProgram.StrCli.Buffer
import NetworkProgram.StrCli.Effect
import NetworkProgram.StrCli.Loop
import NetworkProgram.StrCli.Close
import NetworkProgram.Cksum.Impl
import NetworkProgram.Cksum.Verify
import NetworkProgram.Cksum.Sum
import NetworkProgram.Cksum.Order
import NetworkProgram.Cksum.Corrupt
import NetworkProgram.Cksum.Read
import NetworkProgram.Cksum.Write
import NetworkProgram.Icmpd.Impl
import NetworkProgram.Icmpd.Conn
import NetworkProgram.Icmpd.Notify
import NetworkProgram.Icmpd.Quoted
import NetworkProgram.Icmpd.Handshake
import NetworkProgram.Icmpd.World
import NetworkProgram.Icmpd.Entitled
import NetworkProgram.Icmpd.Admit
import NetworkProgram.Icmpd.Loop
import NetworkProgram.Icmpd.Books
import NetworkProgram.Icmpd.Accounts
import NetworkProgram.Icmpd.FdSet
import NetworkProgram.Serv01.Impl
import NetworkProgram.Serv01.Reap
import NetworkProgram.Serv05.Impl
import NetworkProgram.Serv05.Avail
import NetworkProgram.Serv05.Dispatch
import NetworkProgram.Serv08.Impl
import NetworkProgram.Serv08.Fifo
import NetworkProgram.Serv08.Wakeup
import NetworkProgram.StringEcho1.Impl
import NetworkProgram.StringEcho1.Parent
import NetworkProgram.StringEcho4.Impl
import NetworkProgram.StringEcho4.Table
import NetworkProgram.StringEcho4.Round
import NetworkProgram.StringEcho4.Isolation
import NetworkProgram.StringEcho4.FdSet
import NetworkProgram.StringEcho4.Live
import NetworkProgram.FdSet
import NetworkProgram.StringEcho5.Impl
import NetworkProgram.StringEcho5.Reset
import NetworkProgram.StringEcho5.Cover
import NetworkProgram.StringEcho5.Plain
import NetworkProgram.StringEcho5.Stale
import NetworkProgram.LineEcho.Impl
import NetworkProgram.LineEcho.Flow
import NetworkProgram.LineEcho.Lockstep
import NetworkProgram.SelectCli.Impl
import NetworkProgram.SelectCli.Window
import NetworkProgram.SelectShutdown.Impl
import NetworkProgram.SelectShutdown.Return
import NetworkProgram.Web.Impl
import NetworkProgram.Web.Books
import NetworkProgram.Web.Failure
import NetworkProgram.WebChild.Impl
import NetworkProgram.WebChild.Bench
import NetworkProgram.WebChild.Result
import NetworkProgram.Threaded.Impl
import NetworkProgram.Threaded.Continue
import NetworkProgram.Threaded.Counts
import NetworkProgram.UdpEcho2.Impl
import NetworkProgram.UdpEcho2.Pairing
import NetworkProgram.Heartbeat.Impl
import NetworkProgram.Heartbeat.Alarm
import NetworkProgram.Traceroute.Impl
import NetworkProgram.Traceroute.Recv
import NetworkProgram.Traceroute.Placed
import NetworkProgram.Ping.Impl
import NetworkProgram.Ping.Bounds
import NetworkProgram.Ping.RoundTrip
import NetworkProgram.Sntp
import NetworkProgram.Ifi.Impl
import NetworkProgram.Ifi.Sizing
import NetworkProgram.Ifi.Walk
import NetworkProgram.Ifi.Entries
import NetworkProgram.Mysdr.Impl
import NetworkProgram.Mysdr.Own
import NetworkProgram.Addrs.Impl
import NetworkProgram.Addrs.First
import NetworkProgram.ConnectNonb
import NetworkProgram.ErrDoit
import NetworkProgram.Oob.Impl
import NetworkProgram.Oob.Once
import NetworkProgram.Serv05.Make
import NetworkProgram.MyOpen.Impl
import NetworkProgram.MyOpen.Child
import NetworkProgram.MyOpen.Returns
import NetworkProgram.Broadcast.Client
import NetworkProgram.Broadcast.Pselect
import NetworkProgram.Broadcast.SelfPipe
import NetworkProgram.Broadcast.Jump
import NetworkProgram.Timeo.Client
import NetworkProgram.Timeo.Alarm
import NetworkProgram.Timeo.Select
import NetworkProgram.Timeo.Rcvtimeo
import NetworkProgram.Prefork.Impl
import NetworkProgram.Prefork.Once
import NetworkProgram.Prefork.Lock
import NetworkProgram.StrCliFork.Impl
import NetworkProgram.StrCliFork.Flow
import NetworkProgram.SockAddr.Impl
import NetworkProgram.SockAddr.Text
import NetworkProgram.Traceroute.Loop
import NetworkProgram.Traceroute.Rounds
import NetworkProgram.Traceroute.Lines
import NetworkProgram.TcpUdp.Impl
import NetworkProgram.TcpUdp.Books
import NetworkProgram.TcpUdp.Calls
import NetworkProgram.Ifi.Heap
import NetworkProgram.Ifi.Books
import NetworkProgram.Ping.Session
import NetworkProgram.Ping.Answered
import NetworkProgram.Oob.Recv02
import NetworkProgram.Oob.Inline
