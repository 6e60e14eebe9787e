import Mathlib.Logic.Function.Basic
import NetworkProgram.Readline.Turn
import NetworkProgram.Serv08.Impl
import NetworkProgram.WebChild.Impl

/-!
# The threaded servers

`server/serv06`, `serv07` and `serv08`: in each of them a worker `w` calls `web_child` on a
connection and closes it, and all workers share one process, with the statics of `readline.cpp`.  A
step is a turn of the loop of `readline`, a `Writen`, a `Close`, or a connection handed out:

* `serv06`   main calls `accept`, whose result nobody looks at, and starts a thread;
* `serv07`   a worker calls `Accept`;
* `serv08`   main calls `Accept` and stores the connection in `clifd`, a worker takes it out.

Where a write answers nothing because `SIGPIPE` ends the process, the step is a `Writen` that fails.
-/

namespace Unp.Threaded
open WebChild Serv08

inductive Server where
  | serv06
  | serv07
  | serv08

/-- where a worker is: without a connection, in `web_child` at `Readline` or at `Writen`, or at
`Close` -/
inductive Phase where
  | idle
  | readline (connfd : Int) (l : Loop UInt8)
  | writen (connfd : Int) (ntowrite : Nat)
  | close (connfd : Int)

structure St (ω : Type) where
  phase : ω → Phase
  st : Statics UInt8
  /-- the ring of `serv08` -/
  clifd : Nat → Int
  iget : Nat
  iput : Nat
  /-- what has been written, and to which descriptor -/
  out : List (Int × List UInt8)
  exited : Option Stop

/-- no connection yet; `mem` and `clifd` hold anything -/
def start (ω : Type) (mem : Nat → UInt8) (clifd : Nat → Int) : St ω where
  phase := fun _ => .idle
  st := ⟨0, 0, mem⟩
  clifd := clifd
  iget := 0
  iput := 0
  out := []
  exited := none

/-- `if (++i == MAXNCLI) i = 0;` -/
def next (i : Nat) : Nat := if i + 1 = MAXNCLI then 0 else i + 1

variable {ω : Type} [DecidableEq ω]

def St.setPhase (s : St ω) (w : ω) (p : Phase) : St ω :=
  { s with phase := Function.update s.phase w p }

def St.exit (s : St ω) (why : Stop) : St ω := { s with exited := some why }

/-- `web_child(connfd)` is called -/
def St.serve (s : St ω) (w : ω) (connfd : Int) : St ω :=
  s.setPhase w (.readline connfd (Loop.init MAXLINE))

/-- `serv08`: main stores a connection -/
def St.insert (s : St ω) (connfd : Int) : St ω :=
  let s := { s with clifd := Function.update s.clifd s.iput connfd, iput := next s.iput }
  if s.iput = s.iget then s.exit (.errQuit "iput == iget = %d" [s.iput]) else s

/-- `serv08`: a worker takes a connection -/
def St.take (s : St ω) (w : ω) : St ω :=
  let connfd := s.clifd s.iget
  { s with iget := next s.iget }.serve w connfd

/-- `Readline` has read `line` -/
def St.returned (s : St ω) (w : ω) (connfd : Int) (line : Line UInt8) : St ω :=
  match WebChild.turn line.ret line.stored with
  | .closed => s.setPhase w (.close connfd)
  | .stopped why => s.exit why
  | .writen n => s.setPhase w (.writen connfd n)

/-- a turn of the loop of `readline`, when `read` answers `feed` -/
def St.turn (s : St ω) (w : ω) (connfd : Int) (l : Loop UInt8) (feed : Feed UInt8) : St ω :=
  let r := myRead s.st feed
  let s := { s with st := r.st }
  match l.turn isNl r.rc with
  | .inl l => s.setPhase w (.readline connfd l)
  | .inr line => s.returned w connfd line

/-- `Writen(connfd, result, n)`, when `writen` has done `r` -/
def St.writen (s : St ω) (w : ω) (connfd : Int) (n : Nat) (r : Written UInt8) : St ω :=
  let s := { s with out := s.out ++ [(connfd, r.out)] }
  if r.ret ≠ n then s.exit (.errSys "writen error") else s.serve w connfd

/-- `Close(connfd);` -/
def St.close (s : St ω) (w : ω) (closed : Bool) : St ω :=
  if closed then s.setPhase w .idle else s.exit (.errSys "close error")

/-! ## the steps -/

inductive Event (ω : Type) where
  | accept (w : ω) (connfd : Int)
  | acceptError
  | insert (connfd : Int)
  | take (w : ω)
  | readline (w : ω) (feed : Feed UInt8)
  | full (w : ω)
  | writen (w : ω) (ws : Writes)
  | close (w : ω) (closed : Bool)

/-- who takes the step; main is no worker -/
def Event.worker : Event ω → Option ω
  | .accept w _ => some w
  | .acceptError => none
  | .insert _ => none
  | .take w => some w
  | .readline w _ => some w
  | .full w => some w
  | .writen w _ => some w
  | .close w _ => some w

inductive Step (server : Server) (result : Nat → UInt8) (s : St ω) : Event ω → St ω → Prop where
  | accept06 (w : ω) (connfd : Int) (run : s.exited = none) (prog : server = .serv06)
      (idle : s.phase w = .idle) : Step server result s (.accept w connfd) (s.serve w connfd)
  | accept07 (w : ω) (connfd : Int) (run : s.exited = none) (prog : server = .serv07)
      (idle : s.phase w = .idle) (opened : 0 ≤ connfd) :
      Step server result s (.accept w connfd) (s.serve w connfd)
  | acceptError (run : s.exited = none) (prog : server ≠ .serv06) :
      Step server result s .acceptError (s.exit (.errSys "accept error"))
  | insert (connfd : Int) (run : s.exited = none) (prog : server = .serv08) (opened : 0 ≤ connfd) :
      Step server result s (.insert connfd) (s.insert connfd)
  | take (w : ω) (run : s.exited = none) (prog : server = .serv08) (idle : s.phase w = .idle)
      (some : s.iget ≠ s.iput) : Step server result s (.take w) (s.take w)
  | readline (w : ω) (connfd : Int) (l : Loop UInt8) (feed : Feed UInt8) (run : s.exited = none)
      (pc : s.phase w = .readline connfd l) (room : 0 < l.room) :
      Step server result s (.readline w feed) (s.turn w connfd l feed)
  | full (w : ω) (connfd : Int) (l : Loop UInt8) (run : s.exited = none)
      (pc : s.phase w = .readline connfd l) (room : l.room = 0) :
      Step server result s (.full w) (s.returned w connfd l.full)
  | writen (w : ω) (connfd : Int) (n : Nat) (ws : Writes) (r : Written UInt8)
      (run : s.exited = none) (pc : s.phase w = .writen connfd n)
      (wrote : Unp.writen result n ws = some r) :
      Step server result s (.writen w ws) (s.writen w connfd n r)
  | close (w : ω) (connfd : Int) (closed : Bool) (run : s.exited = none)
      (pc : s.phase w = .close connfd) : Step server result s (.close w closed) (s.close w closed)

end Unp.Threaded
