import Mathlib.Logic.Function.Basic
import NetworkProgram.Sys

/-!
# The server with a process for each connection

`server/serv01/main.cpp`: the parent accepts a connection and forks a child that serves it and
exits; `sig_chld` calls `wait` once.  A step is what the parent does between two system calls, in
`main` or in the handler, or the end of a child:

* `St.accept`, `St.fork`, `St.close`   the statements of `main`;
* `St.exit`                            a child has ended, and the kernel sends `SIGCHLD`;
* `St.deliver`, `St.wait`              `sig_chld`, which interrupts `main` anywhere.

`SIGCHLD` is a standard signal: there is one `pending` bit, and it stays set while the handler runs.
What a child does on its connection, `sig_int` and the command line are left out.
-/

namespace Unp.Serv01

/-- a child: it runs, it has ended and its parent has not waited for it, or it is gone -/
inductive Phase where
  | running
  | zombie
  | reaped
  deriving DecidableEq, Repr

/-- where `sig_chld` is: not called, at `wait(&stat)`, or behind it -/
inductive Handler where
  | off
  | waiting
  | waited
  deriving DecidableEq, Repr

/-- where `main` is -/
inductive Pc where
  | accept
  | fork (connfd : Int)
  | close (connfd : Int)
  | stopped (why : Stop)
  deriving DecidableEq, Repr

/-- the children are numbered in the order of the `Fork` calls -/
structure St where
  pc : Pc
  handler : Handler
  pending : Bool
  forks : Nat
  child : Nat → Phase

/-- at the loop, with the handler installed -/
def start : St where
  pc := .accept
  handler := .off
  pending := false
  forks := 0
  child := fun _ => .reaped

/-! ## main -/

/-- `accept` returns `connfd`, or -1 with the errno `e` -/
def St.accept (s : St) (connfd : Int) (e : Errno) : St :=
  if connfd < 0 then
    if e = EINTR then s
    else { s with pc := .stopped (.errSys "accept errro") }
  else { s with pc := .fork connfd }

/-- `Fork()` in the parent -/
def St.fork (s : St) (connfd : Int) : St :=
  { s with
    child := Function.update s.child s.forks .running
    forks := s.forks + 1
    pc := .close connfd }

/-- `Close(connfd);` -/
def St.close (s : St) : St := { s with pc := .accept }

/-! ## children and the signal -/

/-- child `i` ends -/
def St.exit (s : St) (i : Nat) : St :=
  { s with child := Function.update s.child i .zombie, pending := true }

/-- the pending signal is delivered, and `sig_chld` is called -/
def St.deliver (s : St) : St := { s with pending := false, handler := .waiting }

/-- `pid = wait(&stat);` returns child `i`, or -1 -/
def St.wait (s : St) : Option Nat → St
  | some i => { s with child := Function.update s.child i .reaped, handler := .waited }
  | none => { s with handler := .waited }

def St.ret (s : St) : St := { s with handler := .off }

/-! ## the steps -/

inductive Event where
  | accept (connfd : Int) (e : Errno)
  | fork
  | close
  | fail (msg : String)
  | exit (i : Nat)
  | deliver
  | wait (pid : Option Nat)
  | ret
  deriving DecidableEq, Repr

def Pc.running : Pc → Bool
  | .stopped _ => false
  | _ => true

/-- `main` does a step: no handler runs -/
structure St.InMain (s : St) (pc : Pc) : Prop where
  off : s.handler = .off
  pc : s.pc = pc

inductive Step (s : St) : Event → St → Prop where
  | accept (connfd : Int) (e : Errno) (main : s.InMain .accept) :
      Step s (.accept connfd e) (s.accept connfd e)
  | fork (connfd : Int) (main : s.InMain (.fork connfd)) : Step s .fork (s.fork connfd)
  | close (connfd : Int) (main : s.InMain (.close connfd)) : Step s .close s.close
  /-- `Fork` or `Close` fails -/
  | fail (msg : String) (off : s.handler = .off) (run : s.pc.running = true) :
      Step s (.fail msg) { s with pc := .stopped (.errSys msg) }
  /-- there is a parent to be told -/
  | exit (i : Nat) (lt : i < s.forks) (runs : s.child i = .running) (run : s.pc.running = true) :
      Step s (.exit i) (s.exit i)
  /-- `SIGCHLD` is blocked while `sig_chld` runs -/
  | deliver (pending : s.pending = true) (off : s.handler = .off) (run : s.pc.running = true) :
      Step s .deliver s.deliver
  | wait (i : Nat) (waiting : s.handler = .waiting) (lt : i < s.forks) (ended : s.child i = .zombie) :
      Step s (.wait (some i)) (s.wait (some i))
  /-- no child is left to wait for -/
  | waitNone (waiting : s.handler = .waiting) (gone : ∀ i < s.forks, s.child i = .reaped) :
      Step s (.wait none) (s.wait none)
  | ret (waited : s.handler = .waited) : Step s .ret s.ret

end Unp.Serv01
