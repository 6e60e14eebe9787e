import Mathlib.Logic.Function.Basic
import NetworkProgram.Lib.Tally
import NetworkProgram.Sys

/-!
# The pre-forked server that passes descriptors

`server/serv05/main.cpp` and `server/child05.cpp`: the parent accepts a connection, passes it to a
child without one, and reads a byte from the child's pipe when it is done.  A step is what the
parent does between two system calls, or what a child or a client does in between:

* `St.select`, `St.accept`, `St.writeFd`, `St.readPipe`   the statements of the parent's loop;
* `Worker`     a child: the descriptors on their way to it, and the bytes on their way back;
* `Step`       the step relation.

A connection is known by its number in the order of the `Accept` calls.  `sig_int`, the process ids
and the addresses are left out.
-/

namespace Unp.Serv05
open Finset

/-- `child.h` -/
structure Child where
  childStatus : Int
  childCount : Int
  deriving DecidableEq, Repr

/-- the descriptors of the parent: the listening socket and the pipe of each child -/
inductive Fd where
  | listen
  | pipe (i : Nat)
  deriving DecidableEq, Repr

abbrev FdSet := Fd → Bool

/-! ## the children -/

inductive Phase where
  | ready
  | serving (connfd : Nat)
  | exited
  deriving DecidableEq, Repr

/-- a child with what is in its pipe: connections passed to it, and its bytes for the parent -/
structure Worker where
  phase : Phase
  inbox : List Nat
  outbox : Nat

def Phase.isServing : Phase → Bool
  | .serving _ => true
  | _ => false

/-! ## the parent -/

/-- where the parent is: at the head of its loop, at `Accept`, at `Write_fd`, or in the second
`for` -/
inductive Pc where
  | head
  | accept
  | write (i connfd : Nat)
  | scan (i : Nat)
  | stopped (why : Stop)
  deriving DecidableEq, Repr

structure St where
  nchildren : Nat
  child : Nat → Child
  navail : Int
  rset : FdSet
  nsel : Int
  pc : Pc
  /-- clients waiting for `Accept` -/
  backlog : Nat
  accepted : Nat
  worker : Nat → Worker
  /-- which connection went to which child -/
  passed : List (Nat × Nat)

/-- all children have been forked -/
def start (nchildren : Nat) : St where
  nchildren := nchildren
  child := fun _ => ⟨0, 0⟩
  navail := nchildren
  rset := fun _ => false
  nsel := 0
  pc := .head
  backlog := 0
  accepted := 0
  worker := fun _ => ⟨.ready, [], 0⟩
  passed := []

/-- what is readable: a pipe is when it holds a byte or its child has exited -/
def St.readable (s : St) : FdSet
  | .listen => 0 < s.backlog
  | .pipe i => 0 < (s.worker i).outbox || (s.worker i).phase = .exited

/-- `rset = masterset; if (navail <= 0) FD_CLR(listenfd, &rset);` -/
def St.interest (s : St) : FdSet
  | .listen => !(s.navail ≤ 0)
  | .pipe i => i < s.nchildren

/-- the descriptors that `Select` reports -/
def St.reported (s : St) : FdSet := fun fd => s.interest fd && s.readable fd

/-- `Select` leaves them in `rset` and returns their number -/
def St.select (s : St) : St :=
  let rset := s.reported
  { s with
    rset := rset
    nsel := (rset .listen).toNat + Tally.count (range s.nchildren) id (fun i => rset (.pipe i))
    pc := if rset .listen then .accept else .scan 0 }

/-- `for (i = 0; i < nchildren; ++i) if (cptr[i].child_status == 0) break;` -/
def St.available (s : St) : Option Nat :=
  (List.range s.nchildren).find? (fun i => (s.child i).childStatus = 0)

/-- `Accept` -/
def St.take (s : St) : St := { s with backlog := s.backlog - 1, accepted := s.accepted + 1 }

/-- mark child `i` as busy -/
def St.mark (s : St) (i connfd : Nat) : St :=
  { s with
    child := Function.update s.child i ⟨1, (s.child i).childCount + 1⟩
    navail := s.navail - 1
    pc := .write i connfd }

/-- from `Accept` to the `Write_fd` -/
def St.accept (s : St) : St :=
  let connfd := s.accepted
  let s := s.take
  match s.available with
  | none => { s with pc := .stopped (.errQuit "no available children" []) }
  | some i => s.mark i connfd

/-- `Write_fd`, `Close(connfd)` and `if (--nsel == 0) continue;` -/
def St.writeFd (s : St) (i connfd : Nat) : St :=
  let nsel := s.nsel - 1
  { s with
    worker := Function.update s.worker i
      { s.worker i with inbox := (s.worker i).inbox ++ [connfd] }
    passed := s.passed ++ [(connfd, i)]
    nsel := nsel
    pc := if nsel = 0 then .head else .scan 0 }

/-- the second `for` on child `i`, when its `Read` has returned `n` -/
def St.readPipe (s : St) (i n : Nat) : St :=
  let s := { s with
    worker := Function.update s.worker i { s.worker i with outbox := (s.worker i).outbox - n } }
  -- `if ((n = Read(..)) = 0)`: the value of the second assignment is tested
  let n := 0
  if n ≠ 0 then
    { s with pc := .stopped (.errQuit "child %d terminated unexpectedly" [i]) }
  else
    let nsel := s.nsel - 1
    { s with
      child := Function.update s.child i { s.child i with childStatus := 0 }
      navail := s.navail + 1
      nsel := nsel
      pc := if nsel = 0 then .head else .scan (i + 1) }

/-! ## the steps -/

inductive Event where
  | arrive
  | recv (i : Nat)
  | done (i : Nat)
  | exit (i : Nat)
  | select
  | accept
  | writeFd
  | read (n : Nat)
  | skip
  | fail

def St.setWorker (s : St) (i : Nat) (w : Worker) : St :=
  { s with worker := Function.update s.worker i w }

inductive Step (s : St) : Event → St → Prop where
  | arrive : Step s .arrive { s with backlog := s.backlog + 1 }
  | recv (i connfd : Nat) (rest : List Nat) (lt : i < s.nchildren)
      (ready : (s.worker i).phase = .ready)
      (inbox : (s.worker i).inbox = connfd :: rest) :
      Step s (.recv i) (s.setWorker i ⟨.serving connfd, rest, (s.worker i).outbox⟩)
  | done (i connfd : Nat) (lt : i < s.nchildren) (serving : (s.worker i).phase = .serving connfd) :
      Step s (.done i) (s.setWorker i ⟨.ready, (s.worker i).inbox, (s.worker i).outbox + 1⟩)
  | exit (i : Nat) (lt : i < s.nchildren) :
      Step s (.exit i) (s.setWorker i ⟨.exited, (s.worker i).inbox, (s.worker i).outbox⟩)
  /-- `Select` waits until a descriptor is readable -/
  | select (pc : s.pc = .head) (some : ∃ fd, s.reported fd = true) :
      Step s .select s.select
  | accept (pc : s.pc = .accept) (waits : 0 < s.backlog) : Step s .accept s.accept
  | writeFd (i connfd : Nat) (pc : s.pc = .write i connfd) (alive : (s.worker i).phase ≠ .exited) :
      Step s .writeFd (s.writeFd i connfd)
  /-- a byte -/
  | readByte (i : Nat) (pc : s.pc = .scan i) (lt : i < s.nchildren) (isset : s.rset (.pipe i) = true)
      (byte : 0 < (s.worker i).outbox) : Step s (.read 1) (s.readPipe i 1)
  /-- the end of file -/
  | readEof (i : Nat) (pc : s.pc = .scan i) (lt : i < s.nchildren) (isset : s.rset (.pipe i) = true)
      (empty : (s.worker i).outbox = 0) (gone : (s.worker i).phase = .exited) :
      Step s (.read 0) (s.readPipe i 0)
  | skip (i : Nat) (pc : s.pc = .scan i) (lt : i < s.nchildren)
      (notset : s.rset (.pipe i) = false) : Step s .skip { s with pc := .scan (i + 1) }
  | last (pc : s.pc = .scan s.nchildren) : Step s .skip { s with pc := .head }
  /-- a system call of the parent fails; `Write_fd` does when the child is gone -/
  | fail (msg : String) (running : ∀ why, s.pc ≠ .stopped why) :
      Step s .fail { s with pc := .stopped (.errSys msg) }

end Unp.Serv05
