import Mathlib.Data.Finset.Erase
import Mathlib.Data.Finset.Insert
import Mathlib.Logic.Function.Basic
import NetworkProgram.Bytes
import NetworkProgram.ReadFd

/-!
# The ICMP daemon

`icmpd/main.cpp`: the client table, the three handlers and the start of `main`.

* `readableListen`   a new connection goes into the first free slot;
* `readableConn`     a client passes a socket, or has closed;
* `readableV4`       an ICMPv4 error goes to the clients of its quoted source port;
* `mainInit`         `main` up to its loop.

`Out.acts` lists what a handler does to descriptors, in order.  A wrapper whose system call fails ends
the process, so a run in which one fails is a run that stops early.  The `printf` and `err_msg`
lines are left out.
-/

namespace Unp.Icmpd

def FD_SETSIZE : Nat := 1024
def AF_UNSPEC : Nat := 0
def AF_INET : Nat := 2
def AF_INET6 : Nat := 10

/-- a slot of `client[FD_SETSIZE]` -/
structure Client where
  connfd : Int
  family : Nat
  lport : Int
  deriving DecidableEq, Repr

structure Daemon where
  client : Nat → Client
  maxi : Int
  maxfd : Int
  nready : Int
  allset : Finset Int
  fd4 : Int
  listenfd : Int

def Daemon.setClient (d : Daemon) (i : Nat) (c : Client) : Daemon :=
  { d with client := Function.update d.client i c }

/-! ## sockets -/

/-- what the kernel answers about a passed descriptor: its family and port, then, after a wildcard
`bind`, its port again.  Ports are the 16-bit fields as they lie in memory. -/
structure Sock where
  udp : Bool
  name : Except Errno (Nat × UInt16)
  bind : Option Errno
  wildName : Except Errno UInt16

/-- `sock_get_port`; `ipv6` is `#ifdef IPV6` -/
def sockGetPort (ipv6 : Bool) (family : Nat) (port : UInt16) : Int :=
  if family = AF_INET then port.toNat
  else if ipv6 ∧ family = AF_INET6 then port.toNat
  else -1

/-- a case of `sock_bind_wild` -/
def bindWild (sock : Sock) : Int :=
  match sock.bind, sock.wildName with
  | some _, _ => -1
  | none, .error _ => -1
  | none, .ok port => port.toNat

def sockBindWild (ipv6 : Bool) (sock : Sock) (family : Nat) : Int :=
  if family = AF_INET then bindWild sock
  else if ipv6 ∧ family = AF_INET6 then bindWild sock
  else -1

/-! ## what a handler does -/

/-- `struct sockaddr_in` -/
structure Dest where
  sinFamily : Nat
  sinAddr : List UInt8
  sinPort : UInt16
  deriving DecidableEq, Repr

/-- `struct icmpd_err` -/
structure IcmpdErr where
  icmpdErrno : Errno
  icmpdType : UInt8
  icmpdCode : UInt8
  icmpdLen : Nat
  icmpdDest : Dest
  deriving DecidableEq, Repr

inductive Act where
  /-- `Accept` returned `fd` -/
  | accept (fd : Int)
  /-- `Read_fd` returned the descriptor `fd` -/
  | recvfd (fd : Int)
  /-- `readable_conn` has registered `sock` for the connection `fd` -/
  | register (fd : Int) (sock : Sock)
  | write (fd : Int) (bs : List UInt8)
  /-- `Write` of an `icmpd_err` to slot `i`, about the quoted source port `sport` -/
  | err (i : Nat) (fd : Int) (sport : Int) (icmpdErr : IcmpdErr)
  | close (fd : Int)

structure Out where
  d : Daemon
  acts : List Act
  stop : Option Stop

/-- `return --nready;` -/
def Daemon.done (d : Daemon) (acts : List Act) : Out := ⟨{ d with nready := d.nready - 1 }, acts, none⟩

/-! ## readable_listen -/

/-- `for (i = 0; i < FD_SETSIZE; ++i) if (client[i].connfd < 0) break;` with `left` turns left -/
def findFree (client : Nat → Client) : (left i : Nat) → Option Nat
  | 0, _ => none
  | left + 1, i => if (client i).connfd < 0 then some i else findFree client left (i + 1)

def Daemon.freeSlot (d : Daemon) : Option Nat := findFree d.client FD_SETSIZE 0

def readableListen (d : Daemon) (connfd : Int) : Out :=
  match d.freeSlot with
  | none => d.done [.accept connfd, .close connfd]
  | some i =>
    let d := d.setClient i { d.client i with connfd := connfd }
    let d := { d with
      allset := insert connfd d.allset
      maxfd := if connfd > d.maxfd then connfd else d.maxfd
      maxi := if i > d.maxi then i else d.maxi }
    d.done [.accept connfd]

/-! ## readable_conn -/

/-- the byte `'1'` -/
def one : UInt8 := 49

/-- from the label `clientdone` on -/
def clientdone (d : Daemon) (i : Nat) (unixfd : Int) (recvfd : Option (Passed Sock))
    (acts : List Act) : Out :=
  let acts : List Act := acts ++ [.close unixfd]
  let acts := match recvfd with
    | some p => acts ++ [.close p.fd]
    | none => acts
  let d := { d with allset := d.allset.erase unixfd }
  let d := d.setClient i { d.client i with connfd := -1 }
  d.done acts

/-- from the label `clienterr` on -/
def clienterr (d : Daemon) (i : Nat) (unixfd : Int) (recvfd : Option (Passed Sock))
    (acts : List Act) : Out :=
  clientdone d i unixfd recvfd (acts ++ [.write unixfd [one]])

/-- the end of `readable_conn` without an error -/
def registered (d : Daemon) (unixfd : Int) (p : Passed Sock) : Out :=
  d.done [.recvfd p.fd, .register unixfd p.obj, .write unixfd [one], .close p.fd]

def readableConn (ipv6 : Bool) (d : Daemon) (i : Nat) (m : RecvMsg Sock) : Out :=
  let unixfd := (d.client i).connfd
  match wrapReadFd m none with
  | .error stop => ⟨d, [], some stop⟩
  | .ok (n, recvfd) =>
    if n = 0 then clientdone d i unixfd recvfd []
    else match recvfd with
      | none => clienterr d i unixfd none []
      | some p =>
        match p.obj.name with
        | .error _ => clienterr d i unixfd (some p) [.recvfd p.fd]
        | .ok (family, port) =>
          let d := d.setClient i { d.client i with family := family }
          let d := d.setClient i { d.client i with lport := sockGetPort ipv6 family port }
          if (d.client i).lport = 0 then
            let d := d.setClient i { d.client i with lport := sockBindWild ipv6 p.obj family }
            if (d.client i).lport ≤ 0 then clienterr d i unixfd (some p) [.recvfd p.fd]
            else registered d unixfd p
          else registered d unixfd p

/-! ## readable_v4 -/

def ICMP_UNREACH : UInt8 := 3
def ICMP_SOURCEQUENCH : UInt8 := 4
def ICMP_TIMXCEED : UInt8 := 11
def ICMP_UNREACH_PORT : UInt8 := 3
def ICMP_UNREACH_NEEDFRAG : UInt8 := 4
def sizeofSockaddrIn : Nat := 16

/-- `ip_hl << 2` of the IP header at `off` -/
def hlen (buf : Nat → UInt8) (off : Nat) : Nat := (buf off).toNat % 16 * 4

/-- the `icmpd_errno` of an ICMP type and code -/
def icmpErrno (type code : UInt8) : Errno :=
  if type = ICMP_UNREACH then
    if code = ICMP_UNREACH_PORT then ECONNREFUSED
    else if code = ICMP_UNREACH_NEEDFRAG then EMSGSIZE
    else EHOSTUNREACH
  else EHOSTUNREACH

/-- the message for the ICMP message at `icmp`, the quoted IP header at `hip` and the quoted UDP
header at `udp` -/
def icmpdErr (e : Endian) (buf : Nat → UInt8) (icmp hip udp : Nat) : IcmpdErr where
  icmpdErrno := icmpErrno (buf icmp) (buf (icmp + 1))
  icmpdType := buf icmp
  icmpdCode := buf (icmp + 1)
  icmpdLen := sizeofSockaddrIn
  icmpdDest := ⟨AF_INET, (List.range 4).map (fun k => buf (hip + 16 + k)),
    word e (buf (udp + 2)) (buf (udp + 3))⟩

/-- the test on a slot -/
def Client.wants (c : Client) (sport : Int) : Bool :=
  c.connfd ≥ 0 && c.family = AF_INET && c.lport = sport

/-- `readable_v4` on the `n` bytes received into `buf`, which holds anything after them -/
def readableV4 (e : Endian) (d : Daemon) (buf : Nat → UInt8) (n : Nat) : Out :=
  let hlen1 := hlen buf 0
  let icmp := hlen1
  let icmplen : Int := n - hlen1
  if icmplen < 8 then ⟨d, [], some (.errQuit "icmplen (%d) < 8" [icmplen])⟩
  else if buf icmp = ICMP_UNREACH ∨ buf icmp = ICMP_TIMXCEED ∨ buf icmp = ICMP_SOURCEQUENCH then
    if icmplen < 8 + 20 + 8 then ⟨d, [], some (.errQuit "icmplen (%d)<8+20+8" [icmplen])⟩
    else
      let hip := hlen1 + 8
      let hlen2 := hlen buf hip
      if buf (hip + 9) = IPPROTO_UDP then
        let udp := hlen1 + 8 + hlen2
        let sport : Int := (word e (buf udp) (buf (udp + 1))).toNat
        d.done ((List.range d.maxi.toNat).flatMap (fun i =>
          if (d.client i).wants sport then
            [.err i (d.client i).connfd sport (icmpdErr e buf icmp hip udp)]
          else []))
      else d.done []
  else d.done []

/-! ## main -/

/-- `for (auto element : client) element.connfd = -1;`: `element` is a copy of the slot -/
def initLoop (client : Nat → Client) : Nat → Client :=
  (List.range FD_SETSIZE).foldl (fun client i =>
    let _element := { client i with connfd := -1 }
    client) client

/-- the start of `main`, with the descriptors that `Socket` returns -/
def mainInit (fd4 listenfd : Int) : Daemon where
  client := initLoop (fun _ => ⟨0, 0, 0⟩)
  maxi := -1
  maxfd := max fd4 listenfd
  nready := 0
  allset := {fd4, listenfd}
  fd4 := fd4
  listenfd := listenfd

end Unp.Icmpd
