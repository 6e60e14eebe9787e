import NetworkProgram.LineEcho.Flow

/-!
# The client of two processes and the echo server

`str_cli` of `nonblock/strclifork.cpp` with `str_echo` of `str_echo.cpp`: the parent copies `fp` to
the socket, the child copies the socket to `stdout` and ends the parent with `SIGTERM`.  Either
direction of the connection holds at most `cap` bytes, so a `write` waits while there is no room.  A
step is one call of the C library or of the kernel by one of the three, as in `LineEcho`.

* `State.fgets`                     the parent between two calls;
* `State.turn`, `State.returned`    the child between two calls;
* `Step`                            the step relation.

`SIGTERM` has its default action, wherever the parent is.
-/

namespace Unp.StrCliFork
open LineEcho (Server)

/-- where the parent is: at `Fgets`, in `Writen` with `rest` to write, at `Shutdown`, in `pause`, or
ended by `SIGTERM` -/
inductive Parent where
  | fgets
  | writen (rest : List UInt8)
  | shutdown
  | pause
  | killed

/-- where the child is: in the loop of `readline`, at `kill`, or behind `exit(0)` -/
inductive Child where
  | readline (l : Loop UInt8)
  | kill
  | exited

structure State where
  /-- what is to come on `fp` -/
  fp : List UInt8
  parent : Parent
  toServer : List UInt8
  /-- the FIN has been sent -/
  fin : Bool
  server : Server
  toClient : List UInt8
  child : Child
  /-- the statics of `readline.cpp` in the child -/
  st : Statics UInt8
  stdout : List UInt8

/-- behind `Fork` -/
def start (input : List UInt8) (mem : Nat → UInt8) : State where
  fp := input
  parent := .fgets
  toServer := []
  fin := false
  server := .read
  toClient := []
  child := .readline (Loop.init MAXLINE)
  st := ⟨0, 0, mem⟩
  stdout := []

/-- `Writen` with `rest` to write goes on, or the loop does -/
def Parent.write (rest : List UInt8) : Parent := if rest = [] then .fgets else .writen rest

/-- `Fgets(sendline, MAXLINE, fp)`, then `Writen(sockfd, sendline, strlen(sendline))` -/
def State.fgets (s : State) : State :=
  match Unp.fgets MAXLINE s.fp with
  | none => { s with parent := .shutdown }
  | some (sendline, fp) => { s with fp := fp, parent := .write (cstr sendline) }

/-- `Readline` has read `line` -/
def State.returned (s : State) (line : Line UInt8) : State :=
  if line.ret > 0 then
    { s with stdout := fputs line.stored s.stdout, child := .readline (Loop.init MAXLINE) }
  else { s with child := .kill }

/-- a turn of the loop of `readline`, when `read` answers `feed` -/
def State.turn (s : State) (l : Loop UInt8) (feed : Feed UInt8) : State :=
  let r := myRead s.st feed
  let s := { s with st := r.st }
  match l.turn isNl r.rc with
  | .inl l => { s with child := .readline l }
  | .inr line => s.returned line

/-- the end of file comes with the FIN, or when both processes have ended -/
def State.closed (s : State) : Prop := s.fin = true ∨ s.parent = .killed ∧ s.child = .exited

/-! ## the steps -/

/-- who takes a step -/
inductive Party where
  | parent
  | child
  | server
  deriving DecidableEq, Repr

inductive Step (cap : Nat) (s : State) : Party → State → Prop where
  | fgets (pc : s.parent = .fgets) : Step cap s .parent s.fgets
  | write (bs rest : List UInt8) (pc : s.parent = .writen (bs ++ rest)) (some : bs ≠ [])
      (room : s.toServer.length + bs.length ≤ cap) :
      Step cap s .parent { s with parent := .write rest, toServer := s.toServer ++ bs }
  /-- `Shutdown(sockfd, SHUT_WR);` -/
  | shutdown (pc : s.parent = .shutdown) : Step cap s .parent { s with parent := .pause, fin := true }
  /-- `my_read` finds a byte in its buffer -/
  | fetch (l : Loop UInt8) (pc : s.child = .readline l) (room : 0 < l.room)
      (some : 0 < s.st.readCnt) : Step cap s .child (s.turn l [])
  | recv (l : Loop UInt8) (bs rest : List UInt8) (pc : s.child = .readline l) (room : 0 < l.room)
      (none : s.st.readCnt = 0) (chan : s.toClient = bs ++ rest) (pos : 0 < bs.length)
      (le : bs.length ≤ MAXLINE) :
      Step cap s .child (State.turn { s with toClient := rest } l [.data bs pos le])
  | eof (l : Loop UInt8) (pc : s.child = .readline l) (room : 0 < l.room)
      (none : s.st.readCnt = 0) (chan : s.toClient = []) (closed : s.server = .ret) :
      Step cap s .child (s.turn l [.eof])
  | full (l : Loop UInt8) (pc : s.child = .readline l) (room : l.room = 0) :
      Step cap s .child (s.returned l.full)
  /-- `kill(getppid(), SIGTERM); exit(0);` -/
  | kill (pc : s.child = .kill) : Step cap s .child { s with child := .exited, parent := .killed }
  | echoRead (bs rest : List UInt8) (pc : s.server = .read) (chan : s.toServer = bs ++ rest)
      (pos : 0 < bs.length) (le : bs.length ≤ MAXLINE) :
      Step cap s .server { s with server := .writen bs, toServer := rest }
  | echoEof (pc : s.server = .read) (chan : s.toServer = []) (closed : s.closed) :
      Step cap s .server { s with server := .ret }
  | echoWrite (bs rest : List UInt8) (pc : s.server = .writen (bs ++ rest)) (some : bs ≠ [])
      (room : s.toClient.length + bs.length ≤ cap) :
      Step cap s .server { s with server := .write rest, toClient := s.toClient ++ bs }

/-- all three have ended -/
structure Final (s : State) : Prop where
  parent : s.parent = .killed
  child : s.child = .exited
  server : s.server = .ret

end Unp.StrCliFork
