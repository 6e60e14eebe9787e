import Mathlib.Logic.Function.Basic
import NetworkProgram.Lib.Run
import NetworkProgram.Sys

/-!
# The preforked servers

`server/serv02/main.cpp` with `child02.cpp`, and `server/serv03/main.cpp` with `child03.cpp` and
`lock_pthread.cpp`: main forks the children and pauses, and every child accepts connections from the
same listening socket.  In `serv02` a child calls `Select` before `Accept`, in `serv03` it holds the
mutex around `Accept`.  `cptr` is shared by all.

A step is a statement of one child, a `Fork` of main, or a client: it connects, or it aborts a
connection that waits.  What `web_child` does on its connection is left out; it returns, or it ends
the process.  The handler of `SIGINT`, which ends all the children, is left out.

* `Server.enter`, `Server.behind`   where the two `child_main` differ;
* `Step`                            the step relation.
-/

namespace Unp.Prefork

inductive Server where
  | serv02
  | serv03
  deriving DecidableEq, Repr

/-- where a child is: not forked yet, at `Select` or at `my_lock_wait`, and in the statements up to
`Close` -/
inductive Pc where
  | unborn
  | wait
  | accept
  | release (connfd : Nat)
  | count (connfd : Nat)
  | webChild (connfd : Nat)
  | close (connfd : Nat)
  | dead (why : Stop)
  deriving DecidableEq, Repr

/-- the connections are numbered in the order in which they are established -/
structure St where
  /-- how many children main has forked -/
  forked : Nat
  child : Nat → Pc
  /-- who holds the mutex of `lock_pthread.cpp` -/
  mptr : Option Nat
  /-- the connections that wait at the listening socket -/
  queue : List Nat
  established : Nat
  cptr : Nat → Nat
  /-- which child has accepted which connection, in the order of the calls -/
  accepted : List (Nat × Nat)

def start : St where
  forked := 0
  child := fun _ => .unborn
  mptr := none
  queue := []
  established := 0
  cptr := fun _ => 0
  accepted := []

def St.setChild (s : St) (i : Nat) (pc : Pc) : St :=
  { s with child := Function.update s.child i pc }

/-- behind `Accept`: `my_lock_release();` or `cptr[i]++;` -/
def Server.behind : Server → Nat → Pc
  | .serv02, connfd => .count connfd
  | .serv03, connfd => .release connfd

/-- what lets a child past `Select` or `my_lock_wait` -/
def Server.enter (server : Server) (s : St) : Bool :=
  match server with
  | .serv02 => !s.queue.isEmpty
  | .serv03 => s.mptr.isNone

/-- `my_lock_wait();` -/
def St.lock (server : Server) (s : St) (i : Nat) : St :=
  match server with
  | .serv02 => s
  | .serv03 => { s with mptr := some i }

/-- `connfd = Accept(listenfd, cliaddr, &clilen);` takes the first connection off the queue -/
def St.accept (server : Server) (s : St) (i connfd : Nat) : St :=
  { s with
    queue := s.queue.tail
    accepted := s.accepted ++ [(i, connfd)] }.setChild i (server.behind connfd)

/-- `my_lock_release();` -/
def St.release (s : St) (i connfd : Nat) : St := { s with mptr := none }.setChild i (.count connfd)

/-- `cptr[i]++;` -/
def St.count (s : St) (i connfd : Nat) : St :=
  { s with cptr := Function.update s.cptr i (s.cptr i + 1) }.setChild i (.webChild connfd)

/-! ## the steps -/

inductive Event where
  | fork
  | connect
  | abort (k : Nat)
  | enter (i : Nat)
  | accept (i : Nat)
  | acceptError (i : Nat)
  | release (i : Nat)
  | count (i : Nat)
  | webChild (i : Nat)
  | close (i : Nat)
  /-- another wrapper of child `i` gives up, or `web_child` ends the process -/
  | stop (i : Nat) (why : Stop)
  deriving DecidableEq, Repr

/-- the statement may end the process, and the mutex is not held in it -/
def Pc.stops (server : Server) : Pc → Bool
  | .wait => server = .serv02
  | .webChild _ => true
  | .close _ => true
  | _ => false

inductive Step (server : Server) (nchildren : Nat) (s : St) : Event → St → Prop where
  | fork (lt : s.forked < nchildren) :
      Step server nchildren s .fork
        ({ s with forked := s.forked + 1 }.setChild s.forked .wait)
  | connect :
      Step server nchildren s .connect
        { s with queue := s.queue ++ [s.established], established := s.established + 1 }
  | abort (k : Nat) (lt : k < s.queue.length) :
      Step server nchildren s (.abort k) { s with queue := s.queue.eraseIdx k }
  | enter (i : Nat) (pc : s.child i = .wait) (ok : server.enter s = true) :
      Step server nchildren s (.enter i) ((s.lock server i).setChild i .accept)
  | accept (i connfd : Nat) (rest : List Nat) (pc : s.child i = .accept)
      (ready : s.queue = connfd :: rest) :
      Step server nchildren s (.accept i) (s.accept server i connfd)
  | acceptError (i : Nat) (pc : s.child i = .accept) :
      Step server nchildren s (.acceptError i) (s.setChild i (.dead (.errSys "accept error")))
  | release (i connfd : Nat) (pc : s.child i = .release connfd) :
      Step server nchildren s (.release i) (s.release i connfd)
  | count (i connfd : Nat) (pc : s.child i = .count connfd) :
      Step server nchildren s (.count i) (s.count i connfd)
  | webChild (i connfd : Nat) (pc : s.child i = .webChild connfd) :
      Step server nchildren s (.webChild i) (s.setChild i (.close connfd))
  | close (i connfd : Nat) (pc : s.child i = .close connfd) :
      Step server nchildren s (.close i) (s.setChild i .wait)
  | stop (i : Nat) (why : Stop) (pc : (s.child i).stops server = true) :
      Step server nchildren s (.stop i why) (s.setChild i (.dead why))

end Unp.Prefork
