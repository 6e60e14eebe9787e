import NetworkProgram.Readline.Turn
import NetworkProgram.Stdio

/-!
# The heartbeat client and server

`oob/heartbeat_cli/main.cpp` and `oob/heartbeat_serv/main.cpp`: `str_cli` with `str_echo` over a
connection, each side with its timer and its handlers of `SIGALRM` and `SIGURG`.  A step is one call
of the C library or of the kernel, or one signal.

Every out-of-band byte that is sent arrives, and its `SIGURG` is handled before the next alarm of
the side that receives it.  Between two alarms of the server the client's timer fires, if it is on.

* `State.fgets`, `State.turn`, `State.returned`   the client between two calls;
* `State.clientAlarm`, `State.serverAlarm`        the two `sig_alrm`;
* `State.clientUrg`, `State.serverUrg`            the two `sig_urg`;
* `Step`                                          the step relation.

Both have called `heartbeat_cli` and `heartbeat_serv` at the start.
-/

namespace Unp.Heartbeat

/-- `nsec` and the maximum, as `heartbeat_cli` and `heartbeat_serv` set them -/
def heartbeat (nsecArg maxArg : Int) : Int × Int :=
  let nsec := if nsecArg < 1 then 1 else nsecArg
  (nsec, if maxArg < nsec then nsec else maxArg)

def maxnprobes : Int := (heartbeat 1 5).2

def maxnalarms : Int := (heartbeat 1 5).2

/-- where the client is: at `select`, in the loop of `readline` with the `FD_ISSET` of `fp` that it
comes to next, at `Fgets`, in `Writen` with `rest` to write, or at its end -/
inductive Client where
  | select
  | readline (l : Loop UInt8) (fp : Bool)
  | fgets
  | writen (rest : List UInt8)
  | ret
  | unreachable
  | stopped (why : Stop)

/-- where the server is: at `read`, in `Writen` with `rest` to write, behind `str_echo`, or ended by
its `sig_alrm` with `rest` not written -/
inductive Server where
  | read
  | writen (rest : List UInt8)
  | ret
  | noProbes (rest : List UInt8)

/-- the two timers, the statics `nprobes` of the two programs, and the out-of-band bytes on their
way -/
structure Beat where
  /-- the client's timer is on -/
  alarm : Bool
  clientProbes : Int
  serverProbes : Int
  oobToServer : Nat
  oobToClient : Nat
  /-- whether the client's timer has fired since the last alarm of the server, if there was one -/
  fired : Option Bool

structure State where
  /-- what is to come on `fp` -/
  fp : List UInt8
  client : Client
  stdineof : Bool
  /-- the statics of `readline.cpp` in the client -/
  st : Statics UInt8
  stdout : List UInt8
  toServer : List UInt8
  server : Server
  toClient : List UInt8
  beat : Beat

def start (input : List UInt8) (mem : Nat → UInt8) : State where
  fp := input
  client := .select
  stdineof := false
  st := ⟨0, 0, mem⟩
  stdout := []
  toServer := []
  server := .read
  toClient := []
  beat := ⟨true, 0, 0, 0, 0, none⟩

/-- `Writen` with `rest` to write goes on, or the loop does -/
def Client.write (rest : List UInt8) : Client := if rest = [] then .select else .writen rest

def Server.write (rest : List UInt8) : Server := if rest = [] then .read else .writen rest

/-- the client has left `str_cli`, and its end of the connection is closed -/
def Client.gone : Client → Bool
  | .ret => true
  | .unreachable => true
  | .stopped _ => true
  | _ => false

def Server.gone : Server → Bool
  | .ret => true
  | .noProbes _ => true
  | _ => false

/-- `"no probes from client"` -/
def Server.gaveUp : Server → Bool
  | .noProbes _ => true
  | _ => false

/-- what the server has read and not written -/
def Server.rest : Server → List UInt8
  | .writen rest => rest
  | .noProbes rest => rest
  | _ => []

/-! ## str_cli -/

/-- `Fgets(sendline, MAXLINE, fp)`: a line to write, or `alarm(0); Shutdown(sockfd, SHUT_WR);` -/
def State.fgets (s : State) : State :=
  match Unp.fgets MAXLINE s.fp with
  | none =>
    { s with client := .select, stdineof := true, beat := { s.beat with alarm := false } }
  | some (sendline, fp) => { s with fp := fp, client := .write (cstr sendline) }

/-- `Readline` has read `line` -/
def State.returned (s : State) (fp : Bool) (line : Line UInt8) : State :=
  if line.ret < 0 then { s with client := .stopped (.errSys "readline error") }
  else if line.ret = 0 then
    if s.stdineof then { s with client := .ret }
    else { s with client := .stopped (.errQuit "str_cli: server terminated prematurely" []) }
  else
    { s with
      stdout := fputs line.stored s.stdout
      client := if fp then .fgets else .select }

/-- a turn of the loop of `readline`, when `read` answers `feed` -/
def State.turn (s : State) (l : Loop UInt8) (fp : Bool) (feed : Feed UInt8) : State :=
  let r := myRead s.st feed
  let s := { s with st := r.st }
  match l.turn isNl r.rc with
  | .inl l => { s with client := .readline l fp }
  | .inr line => s.returned fp line

/-! ## the signals -/

/-- `sig_alrm` of the client -/
def State.clientAlarm (s : State) : State :=
  let nprobes := s.beat.clientProbes + 1
  if nprobes > maxnprobes then
    { s with client := .unreachable, beat := { s.beat with clientProbes := nprobes } }
  else
    { s with
      beat := { s.beat with
        clientProbes := nprobes
        oobToServer := s.beat.oobToServer + 1
        fired := s.beat.fired.map (fun _ => true) } }

/-- `sig_urg` of the client -/
def State.clientUrg (s : State) : State :=
  { s with beat := { s.beat with oobToClient := s.beat.oobToClient - 1, clientProbes := 0 } }

/-- `sig_alrm` of the server -/
def State.serverAlarm (s : State) : State :=
  let nprobes := s.beat.serverProbes + 1
  if nprobes > maxnalarms then
    { s with server := .noProbes s.server.rest, beat := { s.beat with serverProbes := nprobes } }
  else { s with beat := { s.beat with serverProbes := nprobes, fired := some false } }

/-- `sig_urg` of the server, which sends the byte back -/
def State.serverUrg (s : State) : State :=
  { s with
    beat := { s.beat with
      oobToServer := s.beat.oobToServer - 1
      oobToClient := s.beat.oobToClient + 1
      serverProbes := 0 } }

/-! ## the steps -/

inductive Event where
  | select (sock fp : Bool)
  | fgets
  | write (bs : List UInt8)
  | readline (feed : Feed UInt8)
  | full
  | echoRead (bs : List UInt8)
  | echoEof
  | echoWrite (bs : List UInt8)
  | clientAlarm
  | clientUrg
  | serverAlarm
  | serverUrg

inductive Step (s : State) : Event → State → Prop where
  /-- `select` reports the socket, and perhaps `fp`; an interrupted `select` is called again -/
  | selectSock (fp : Bool) (pc : s.client = .select)
      (sock : s.toClient ≠ [] ∨ s.server.gone = true) (open_ : fp = true → s.stdineof = false) :
      Step s (.select true fp) { s with client := .readline (Loop.init MAXLINE) fp }
  | selectFp (pc : s.client = .select) (open_ : s.stdineof = false) :
      Step s (.select false true) { s with client := .fgets }
  | fgets (pc : s.client = .fgets) : Step s .fgets s.fgets
  | write (bs rest : List UInt8) (pc : s.client = .writen (bs ++ rest)) (some : bs ≠ []) :
      Step s (.write bs) { s with client := .write rest, toServer := s.toServer ++ bs }
  /-- `my_read` finds a byte in its buffer -/
  | fetch (l : Loop UInt8) (fp : Bool) (pc : s.client = .readline l fp) (room : 0 < l.room)
      (some : 0 < s.st.readCnt) : Step s (.readline []) (s.turn l fp [])
  | recv (l : Loop UInt8) (fp : Bool) (bs rest : List UInt8) (pc : s.client = .readline l fp)
      (room : 0 < l.room) (none : s.st.readCnt = 0) (chan : s.toClient = bs ++ rest)
      (pos : 0 < bs.length) (le : bs.length ≤ MAXLINE) :
      Step s (.readline [.data bs pos le])
        (State.turn { s with toClient := rest } l fp [.data bs pos le])
  | eof (l : Loop UInt8) (fp : Bool) (pc : s.client = .readline l fp) (room : 0 < l.room)
      (none : s.st.readCnt = 0) (chan : s.toClient = []) (closed : s.server.gone = true) :
      Step s (.readline [.eof]) (s.turn l fp [.eof])
  /-- `SIGALRM` interrupts the `read` of `my_read` -/
  | intr (l : Loop UInt8) (fp : Bool) (pc : s.client = .readline l fp) (room : 0 < l.room)
      (none : s.st.readCnt = 0) : Step s (.readline [.err EINTR]) (s.turn l fp [.err EINTR])
  | full (l : Loop UInt8) (fp : Bool) (pc : s.client = .readline l fp) (room : l.room = 0) :
      Step s .full (s.returned fp l.full)
  | echoRead (bs rest : List UInt8) (pc : s.server = .read) (chan : s.toServer = bs ++ rest)
      (pos : 0 < bs.length) (le : bs.length ≤ MAXLINE) :
      Step s (.echoRead bs) { s with server := .writen bs, toServer := rest }
  | echoEof (pc : s.server = .read) (chan : s.toServer = [])
      (closed : s.stdineof = true ∨ s.client.gone = true) :
      Step s .echoEof { s with server := .ret }
  | echoWrite (bs rest : List UInt8) (pc : s.server = .writen (bs ++ rest)) (some : bs ≠ []) :
      Step s (.echoWrite bs) { s with server := .write rest, toClient := s.toClient ++ bs }
  | clientAlarm (run : s.client.gone = false) (on : s.beat.alarm = true)
      (handled : s.beat.oobToClient = 0) : Step s .clientAlarm s.clientAlarm
  | clientUrg (run : s.client.gone = false) (some : 0 < s.beat.oobToClient) :
      Step s .clientUrg s.clientUrg
  | serverAlarm (run : s.server.gone = false) (handled : s.beat.oobToServer = 0)
      (fires : s.client.gone = false → s.beat.alarm = true → s.beat.fired ≠ some false) :
      Step s .serverAlarm s.serverAlarm
  | serverUrg (run : s.server.gone = false) (some : 0 < s.beat.oobToServer) :
      Step s .serverUrg s.serverUrg

end Unp.Heartbeat
