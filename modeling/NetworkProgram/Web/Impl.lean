import Mathlib.Data.Finset.Basic
import Mathlib.Logic.Function.Basic
import NetworkProgram.Sys

/-!
# The web client with simultaneous connections

`nonblock/webclient/web.cpp`: `main` opens up to `maxnconn` connections at a time, waits in `Select`,
and goes through the files.  A step is what it does up to the next decision of the kernel.

* `St.startConnect`, `St.writeGetCmd`   the two functions of the source;
* `St.connected`, `St.read`             the two branches of the completion loop;
* `Step`                                the step relation.

`f_flags` holds 0 or one of the three `F_` values.  `St.cmds` records for which files `write_get_cmd`
was called.  The addresses, the texts written and `home_page` are left out.
-/

namespace Unp.Web

def EINPROGRESS : Errno := 115

/-- `f_flags`: 0, `F_CONNECTING`, `F_READING` or `F_DONE` -/
inductive Flags where
  | zero
  | connecting
  | reading
  | done
  deriving DecidableEq, Repr

structure File where
  fd : Int
  flags : Flags
  deriving DecidableEq, Repr

/-- where the program is: at the head of the outer or of the inner loop, in the `for` over the files,
or behind the loop -/
inductive Pc where
  | head
  | inner
  | scan (i : Nat)
  | done
  | stopped (why : Stop)
  deriving DecidableEq, Repr

structure St where
  nfiles : Nat
  maxnconn : Int
  file : Nat → File
  nconn : Int
  nlefttoconn : Int
  nlefttoread : Int
  maxfd : Int
  rset : Finset Int
  wset : Finset Int
  rs : Finset Int
  ws : Finset Int
  pc : Pc
  opened : Finset Int
  cmds : List Nat

/-- at the outer loop; `mem` is what `f_fd` holds before -/
def start (nfiles : Nat) (maxnconn : Int) (mem : Nat → Int) (inherited : Finset Int) : St where
  nfiles := nfiles
  maxnconn := maxnconn
  file := fun i => ⟨mem i, .zero⟩
  nconn := 0
  nlefttoconn := nfiles
  nlefttoread := nfiles
  maxfd := -1
  rset := ∅
  wset := ∅
  rs := ∅
  ws := ∅
  pc := .head
  opened := inherited
  cmds := []

/-! ## the functions -/

def St.setFile (s : St) (i : Nat) (f : File) : St := { s with file := Function.update s.file i f }

/-- `if (fd > maxfd) maxfd = fd;` -/
def St.raise (s : St) (fd : Int) : St := { s with maxfd := if fd > s.maxfd then fd else s.maxfd }

/-- `write_get_cmd`; `written` says whether `Writen` writes everything -/
def St.writeGetCmd (s : St) (i : Nat) (written : Bool) : St :=
  let s := { s with cmds := s.cmds ++ [i] }
  if written then
    let fd := (s.file i).fd
    let s := s.setFile i ⟨fd, .reading⟩
    { s with rset := insert fd s.rset }.raise fd
  else { s with pc := .stopped (.errSys "writen error") }

/-- `start_connect`, when `Socket` has returned `fd` and `connect` 0 (`none`) or -1 with an errno -/
def St.startConnect (s : St) (i : Nat) (fd : Int) (ans : Option Errno) (written : Bool) : St :=
  let s := { s with opened := insert fd s.opened }.setFile i ⟨fd, (s.file i).flags⟩
  match ans with
  | some errno =>
    if errno ≠ EINPROGRESS then { s with pc := .stopped (.errSys "nonblocking connect error") }
    else
      let s := s.setFile i ⟨fd, .connecting⟩
      { s with rset := insert fd s.rset, wset := insert fd s.wset }.raise fd
  | none => s.writeGetCmd i written

/-! ## main -/

def Pc.running : Pc → Bool
  | .done => false
  | .stopped _ => false
  | _ => true

/-- go on, unless the process has ended -/
def St.andThen (s : St) (f : St → St) : St := if s.pc.running then f s else s

/-- `for (i = 0; i < nfiles; ++i) if (file[i].f_flags == 0) break;` -/
def St.find (s : St) : Option Nat :=
  (List.range s.nfiles).find? (fun i => (s.file i).flags = .zero)

/-- `start_connect(&file[i]); ++nconn; --nlefttoconn;` -/
def St.connect (s : St) (i : Nat) (fd : Int) (ans : Option Errno) (written : Bool) : St :=
  (s.startConnect i fd ans written).andThen fun s =>
    { s with nconn := s.nconn + 1, nlefttoconn := s.nlefttoconn - 1 }

/-- what `getsockopt(fd, SOL_SOCKET, SO_ERROR, ..)` does: it fails, or stores a pending error -/
inductive SoError where
  | fails
  | stores (error : Errno)
  deriving DecidableEq, Repr

/-- the branch for `F_CONNECTING`: after `err_ret` the program goes on as after a success -/
def St.connected (s : St) (i : Nat) (_so : SoError) (written : Bool) : St :=
  ({ s with wset := s.wset.erase (s.file i).fd }.writeGetCmd i written).andThen fun s =>
    { s with pc := .scan (i + 1) }

/-- the branch for `F_READING` -/
def St.read (s : St) (i : Nat) (r : ReadRes UInt8 MAXLINE) : St :=
  let fd := (s.file i).fd
  if r.ret = -1 then { s with pc := .stopped (.errSys "read error") }
  else if r.ret = 0 then
    { s.setFile i ⟨fd, .done⟩ with
      opened := s.opened.erase fd
      rset := s.rset.erase fd
      nconn := s.nconn - 1
      nlefttoread := s.nlefttoread - 1
      pc := .scan (i + 1) }
  else { s with pc := .scan (i + 1) }

/-! ## the steps -/

inductive Event where
  | head
  | connect (i : Nat) (fd : Int) (ans : Option Errno) (written : Bool)
  | nothing
  | select (rs ws : Finset Int)
  | sockopt (i : Nat) (so : SoError) (written : Bool)
  | read (i : Nat) (r : ReadRes UInt8 MAXLINE)
  | skip
  | fail

/-- `nconn < maxnconn && nlefttoconn > 0` -/
def St.opens (s : St) : Prop := s.nconn < s.maxnconn ∧ 0 < s.nlefttoconn

/-- what the completion loop tests for file `i` -/
def St.completes (s : St) (i : Nat) : Prop :=
  (s.file i).flags = .connecting ∧ ((s.file i).fd ∈ s.rs ∨ (s.file i).fd ∈ s.ws)

def St.readable (s : St) (i : Nat) : Prop := (s.file i).flags = .reading ∧ (s.file i).fd ∈ s.rs

inductive Step (s : St) : Event → St → Prop where
  | head (pc : s.pc = .head) :
      Step s .head { s with pc := if s.nlefttoread > 0 then .inner else .done }
  | connect (i : Nat) (fd : Int) (ans : Option Errno) (written : Bool) (pc : s.pc = .inner)
      (opens : s.opens) (found : s.find = some i) (nonneg : 0 ≤ fd) (unused : fd ∉ s.opened) :
      Step s (.connect i fd ans written) (s.connect i fd ans written)
  | nothing (pc : s.pc = .inner) (opens : s.opens) (none : s.find = none) :
      Step s .nothing { s with
        pc := .stopped (.errQuit "nlefttoconn = %d but nothing found" [s.nlefttoconn]) }
  | select (rs ws : Finset Int) (pc : s.pc = .inner) (full : ¬ s.opens) (sub : rs ⊆ s.rset)
      (wsub : ws ⊆ s.wset) : Step s (.select rs ws) { s with rs := rs, ws := ws, pc := .scan 0 }
  | sockopt (i : Nat) (so : SoError) (written : Bool) (pc : s.pc = .scan i) (lt : i < s.nfiles)
      (ready : s.completes i) : Step s (.sockopt i so written) (s.connected i so written)
  | read (i : Nat) (r : ReadRes UInt8 MAXLINE) (pc : s.pc = .scan i) (lt : i < s.nfiles)
      (ready : s.readable i) : Step s (.read i r) (s.read i r)
  | skip (i : Nat) (pc : s.pc = .scan i) (lt : i < s.nfiles)
      (notready : ¬ s.completes i ∧ ¬ s.readable i) : Step s .skip { s with pc := .scan (i + 1) }
  | last (pc : s.pc = .scan s.nfiles) : Step s .skip { s with pc := .head }
  /-- a wrapper whose system call fails -/
  | fail (msg : String) (running : s.pc.running = true) :
      Step s .fail { s with pc := .stopped (.errSys msg) }

end Unp.Web
