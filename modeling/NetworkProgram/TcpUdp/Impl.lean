import NetworkProgram.Lib.Run
import NetworkProgram.Serv01.Impl

/-!
# A server for TCP and UDP

`tcpudp/ServerSelect/main.cpp` from its loop on: `select` waits for connections and for datagrams, a
child is forked for each connection, and `sig_chld` calls `waitpid` until there is nothing left to wait
for.  A step is a statement of `main`, one turn of the loop of `sig_chld`, the end of a child, or an
arrival.

* `St.select`, `St.test`   `select`, and the test of `errno` behind it;
* `St.reap`, `St.done`     the turns of `sig_chld`;
* `Step`                   the step relation.

`Signal` sets `SA_RESTART`, so of the calls of `main` only `select` is interrupted.  It fails with
`EINTR` only: a run in which it fails otherwise, and `main` ends at `select error` for that, is left
out.  So is what a child does on its connection, and what `sig_chld` prints.
-/

namespace Unp.TcpUdp

open Trans
open Serv01 (Phase)

def ECHILD : Errno := 10

/-- a datagram, with the address it comes from or goes to -/
structure Datagram where
  cliaddr : Nat
  bytes : List UInt8
  deriving DecidableEq

/-- as `Recvfrom` stores it, and `Sendto` sends it back -/
def Datagram.echo (d : Datagram) : Datagram := { d with bytes := d.bytes.take MAXLINE }

/-- where `main` is; `udp` is `FD_ISSET(udpfd, &rset)` -/
inductive Pc where
  | select
  /-- at `if (errno == EINTR)` -/
  | failed
  | accept (udp : Bool)
  | fork (connfd : Nat) (udp : Bool)
  | close (connfd : Nat) (udp : Bool)
  | recvfrom
  | sendto (d : Datagram)
  | stopped (why : Stop)
  deriving DecidableEq

/-- the connections are numbered in the order in which they are established, the children in the order
of the `Fork` calls -/
structure St where
  pc : Pc
  errno : Errno
  /-- `sig_chld` runs -/
  handler : Bool
  /-- `SIGCHLD` is pending -/
  pending : Bool
  /-- `sig_chld` has been called while `main` was at `select` -/
  interrupted : Bool
  forks : Nat
  child : Nat → Phase
  /-- the connections handed to children -/
  accepted : List Nat
  /-- the connections that wait at `listenfd` -/
  queue : List Nat
  established : Nat
  /-- the datagrams that wait at `udpfd`, and those sent back -/
  datagrams : List Datagram
  sent : List Datagram

def start : St where
  pc := .select
  errno := 0
  handler := false
  pending := false
  interrupted := false
  forks := 0
  child := fun _ => .reaped
  accepted := []
  queue := []
  established := 0
  datagrams := []
  sent := []

def Pc.running : Pc → Bool
  | .stopped _ => false
  | .select => true
  | .failed => true
  | .accept _ => true
  | .fork _ _ => true
  | .close _ _ => true
  | .recvfrom => true
  | .sendto _ => true

/-! ## main -/

/-- past `if (FD_ISSET(listenfd, &rset))` -/
def Pc.behind (udp : Bool) : Pc := if udp then .recvfrom else .select

/-- `select` has returned what is ready -/
def St.select (s : St) : St :=
  { s with
    pc := if s.queue ≠ [] then .accept (s.datagrams ≠ []) else .recvfrom
    interrupted := false }

/-- `select` has been interrupted -/
def St.eintr (s : St) : St := { s with pc := .failed, errno := EINTR, interrupted := false }

/-- `if (errno == EINTR) continue; else err_sys("select error");` -/
def St.test (s : St) : St :=
  { s with pc := if s.errno = EINTR then .select else .stopped (.errSys "select error") }

/-- `connfd = Accept(listenfd, (sockaddr*)&cliaddr, &len);` -/
def St.accept (s : St) (connfd : Nat) (rest : List Nat) (udp : Bool) : St :=
  { s with pc := .fork connfd udp, queue := rest }

/-- `Fork()` in the parent -/
def St.fork (s : St) (connfd : Nat) (udp : Bool) : St :=
  { s with
    pc := .close connfd udp
    child := Function.update s.child s.forks .running
    forks := s.forks + 1
    accepted := s.accepted ++ [connfd] }

/-- `n = Recvfrom(udpfd, mesg, MAXLINE, 0, (sockaddr*)&cliaddr, &len);` -/
def St.recvfrom (s : St) (d : Datagram) (rest : List Datagram) : St :=
  { s with pc := .sendto d.echo, datagrams := rest }

/-- `Sendto(udpfd, mesg, n, 0, (sockaddr*)&cliaddr, len);` -/
def St.sendto (s : St) (d : Datagram) : St := { s with pc := .select, sent := s.sent ++ [d] }

/-! ## sig_chld -/

/-- the pending signal is delivered -/
def St.deliver (s : St) : St :=
  { s with pending := false, handler := true, interrupted := s.interrupted || s.pc == .select }

/-- `waitpid` returns child `i` -/
def St.reap (s : St) (i : Nat) : St := { s with child := Function.update s.child i .reaped }

/-- `waitpid` returns 0, or -1 with `ECHILD`, and the handler returns -/
def St.done (s : St) (e : Errno) : St := { s with handler := false, errno := e }

/-- child `i` ends -/
def St.exit (s : St) (i : Nat) : St :=
  { s with child := Function.update s.child i .zombie, pending := true }

/-! ## the steps -/

inductive Event where
  | select
  | eintr
  | test
  | accept
  | fork
  | close
  | recvfrom
  | sendto
  | fail (msg : String)
  | deliver
  | reap (i : Nat)
  | noZombie
  | noChild
  | exit (i : Nat)
  | connect
  | abort (connfd : Nat)
  | datagram (d : Datagram)
  deriving DecidableEq

/-- `main` does a step -/
structure St.InMain (s : St) (pc : Pc) : Prop where
  off : s.handler = false
  pc : s.pc = pc

/-- the message of the wrapped call that `main` is at -/
def Pc.error : Pc → Option String
  | .accept _ => some "accept error"
  | .fork _ _ => some "fork error"
  | .close _ _ => some "close error"
  | .recvfrom => some "recvfrom error"
  | .sendto _ => some "sendto error"
  | .select => none
  | .failed => none
  | .stopped _ => none

inductive Step (s : St) : Event → St → Prop where
  | select (main : s.InMain .select) (ready : s.queue ≠ [] ∨ s.datagrams ≠ []) :
      Step s .select s.select
  | eintr (main : s.InMain .select) (interrupted : s.interrupted = true) : Step s .eintr s.eintr
  | test (main : s.InMain .failed) : Step s .test s.test
  | accept (connfd : Nat) (rest : List Nat) (udp : Bool) (main : s.InMain (.accept udp))
      (ready : s.queue = connfd :: rest) : Step s .accept (s.accept connfd rest udp)
  | fork (connfd : Nat) (udp : Bool) (main : s.InMain (.fork connfd udp)) :
      Step s .fork (s.fork connfd udp)
  | close (connfd : Nat) (udp : Bool) (main : s.InMain (.close connfd udp)) :
      Step s .close { s with pc := Pc.behind udp }
  | recvfrom (d : Datagram) (rest : List Datagram) (main : s.InMain .recvfrom)
      (ready : s.datagrams = d :: rest) : Step s .recvfrom (s.recvfrom d rest)
  | sendto (d : Datagram) (main : s.InMain (.sendto d)) : Step s .sendto (s.sendto d)
  /-- one of the wrapped calls fails -/
  | fail (msg : String) (off : s.handler = false) (pc : s.pc.error = some msg) :
      Step s (.fail msg) { s with pc := .stopped (.errSys msg) }
  /-- `SIGCHLD` is blocked while `sig_chld` runs -/
  | deliver (pending : s.pending = true) (off : s.handler = false) (run : s.pc.running = true) :
      Step s .deliver s.deliver
  | reap (i : Nat) (on : s.handler = true) (lt : i < s.forks) (ended : s.child i = .zombie) :
      Step s (.reap i) (s.reap i)
  /-- there are children, and none has ended -/
  | noZombie (on : s.handler = true) (none : ∀ i < s.forks, s.child i ≠ .zombie)
      (some : ∃ i < s.forks, s.child i = .running) : Step s .noZombie (s.done s.errno)
  | noChild (on : s.handler = true) (gone : ∀ i < s.forks, s.child i = .reaped) :
      Step s .noChild (s.done ECHILD)
  | exit (i : Nat) (lt : i < s.forks) (runs : s.child i = .running) (run : s.pc.running = true) :
      Step s (.exit i) (s.exit i)
  | connect :
      Step s .connect { s with queue := s.queue ++ [s.established], established := s.established + 1 }
  /-- the client resets a connection that waits, and the kernel takes it off the queue -/
  | abort (connfd : Nat) (mem : connfd ∈ s.queue) :
      Step s (.abort connfd) { s with queue := s.queue.erase connfd }
  | datagram (d : Datagram) : Step s (.datagram d) { s with datagrams := s.datagrams ++ [d] }

end Unp.TcpUdp
