import NetworkProgram.Readline.Turn
import NetworkProgram.Stdio

/-!
# The line client and the echo server

`str_cli` of `str_cli.cpp` with `str_echo` of `str_echo.cpp` over two reliable byte channels.  A
step is one call of the C library or of the kernel by one of the two: `write` takes any part of what
it is given, `read` delivers any part of what is in the channel, and waits while it is empty and the
other side has not closed it.

* `State.fgets`, `State.turn`, `State.returned`   the client between two such calls;
* `Step`                                           the step relation.

A call that a signal interrupts is made again by the server and is not a step; the client has no
signal handler.
-/

namespace Unp.LineEcho

/-- where the client is: at `Fgets`, in `Writen` with `rest` to write, in the loop of `readline`, or
behind `str_cli` -/
inductive Client where
  | fgets
  | writen (rest : List UInt8)
  | readline (l : Loop UInt8)
  | ret
  | stopped (why : Stop)

/-- where the server is: at `read`, in `Writen`, or behind `str_echo` -/
inductive Server where
  | read
  | writen (rest : List UInt8)
  | ret

structure State where
  /-- what is to come on `fp` -/
  fp : List UInt8
  client : Client
  /-- the statics of `readline.cpp` in the client -/
  st : Statics UInt8
  stdout : List UInt8
  toServer : List UInt8
  server : Server
  toClient : List UInt8

def start (input : List UInt8) (mem : Nat → UInt8) : State where
  fp := input
  client := .fgets
  st := ⟨0, 0, mem⟩
  stdout := []
  toServer := []
  server := .read
  toClient := []

/-- `Writen` with `rest` to write goes on, or the client calls `Readline(sockfd, recvline, MAXLINE)` -/
def Client.write (rest : List UInt8) : Client :=
  if rest = [] then .readline (Loop.init MAXLINE) else .writen rest

def Server.write (rest : List UInt8) : Server := if rest = [] then .read else .writen rest

/-- the client has left `str_cli`, and its end of the connection is closed -/
def Client.gone : Client → Bool
  | .ret => true
  | .stopped _ => true
  | _ => false

/-- `Fgets(sendline, MAXLINE, fp)`, then `Writen(sockfd, sendline, strlen(sendline))` -/
def State.fgets (s : State) : State :=
  match Unp.fgets MAXLINE s.fp with
  | none => { s with client := .ret }
  | some (sendline, fp) => { s with fp := fp, client := .write (cstr sendline) }

/-- `Readline` has read `line` -/
def State.returned (s : State) (line : Line UInt8) : State :=
  if line.ret < 0 then { s with client := .stopped (.errSys "readline error") }
  else if line.ret = 0 then
    { s with client := .stopped (.errQuit "str_cli: server terminated prematurely" []) }
  else { s with client := .fgets, stdout := fputs line.stored s.stdout }

/-- a turn of the loop of `readline`, when `read` answers `feed` -/
def State.turn (s : State) (l : Loop UInt8) (feed : Feed UInt8) : State :=
  let r := myRead s.st feed
  let s := { s with st := r.st }
  match l.turn isNl r.rc with
  | .inl l => { s with client := .readline l }
  | .inr line => s.returned line

/-! ## the steps -/

/-- who takes a step -/
inductive Party where
  | client
  | server

inductive Step (s : State) : Party → State → Prop where
  | fgets (pc : s.client = .fgets) : Step s .client s.fgets
  | write (bs rest : List UInt8) (pc : s.client = .writen (bs ++ rest)) (some : bs ≠ []) :
      Step s .client { s with client := .write rest, toServer := s.toServer ++ bs }
  /-- `my_read` finds a byte in its buffer -/
  | fetch (l : Loop UInt8) (pc : s.client = .readline l) (room : 0 < l.room)
      (some : 0 < s.st.readCnt) : Step s .client (s.turn l [])
  | recv (l : Loop UInt8) (bs rest : List UInt8) (pc : s.client = .readline l) (room : 0 < l.room)
      (none : s.st.readCnt = 0) (chan : s.toClient = bs ++ rest) (pos : 0 < bs.length)
      (le : bs.length ≤ MAXLINE) :
      Step s .client (State.turn { s with toClient := rest } l [.data bs pos le])
  | eof (l : Loop UInt8) (pc : s.client = .readline l) (room : 0 < l.room)
      (none : s.st.readCnt = 0) (chan : s.toClient = []) (closed : s.server = .ret) :
      Step s .client (s.turn l [.eof])
  | full (l : Loop UInt8) (pc : s.client = .readline l) (room : l.room = 0) :
      Step s .client (s.returned l.full)
  | echoRead (bs rest : List UInt8) (pc : s.server = .read) (chan : s.toServer = bs ++ rest)
      (pos : 0 < bs.length) (le : bs.length ≤ MAXLINE) :
      Step s .server { s with server := .writen bs, toServer := rest }
  | echoEof (pc : s.server = .read) (chan : s.toServer = []) (closed : s.client.gone = true) :
      Step s .server { s with server := .ret }
  | echoWrite (bs rest : List UInt8) (pc : s.server = .writen (bs ++ rest)) (some : bs ≠ []) :
      Step s .server { s with server := .write rest, toClient := s.toClient ++ bs }

/-- the client waits in `Readline` and the server in `read`, and nothing is on its way -/
structure Stuck (s : State) : Prop where
  client : ∃ l, s.client = .readline l ∧ 0 < l.room ∧ s.st.readCnt = 0
  server : s.server = .read
  toServer : s.toServer = []
  toClient : s.toClient = []

end Unp.LineEcho
