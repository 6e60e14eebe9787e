import NetworkProgram.Readline.Impl
import NetworkProgram.Stdio

/-!
# Two clients with `Select` and `Readline`

`str_cli_select` of `str_cli.cpp`, and `str_cli` of `oob/heartbeat_cli/main.cpp`.  A step is one turn
of the loop, from one `Select` to the next.  What `Select` reports and whether `Writen` can write
are the step's arguments; the server's bytes are a `Feed`.
-/

namespace Unp

/-- where the program is: at `Select`, or behind the loop -/
inductive SelectPc where
  | select
  | ret
  | stopped (why : Stop)
  deriving DecidableEq, Repr

/-! ## str_cli_select -/

namespace StrCliSelect

structure State where
  /-- what is to come on `fp` -/
  fp : List UInt8
  st : Statics UInt8
  feed : Feed UInt8
  stdout : List UInt8
  sent : List UInt8
  pc : SelectPc

/-- which descriptors `Select` reports, and whether `Writen` writes everything -/
structure Turn where
  sock : Bool
  fp : Bool
  written : Bool

/-- `FD_ISSET(sockfd, &rset)` -/
def State.recv (s : State) : State :=
  let r := readline isNl MAXLINE s.st s.feed
  let s := { s with st := r.st, feed := r.feed }
  if r.line.ret < 0 then { s with pc := .stopped (.errSys "readline error") }
  else if r.line.ret = 0 then
    { s with pc := .stopped (.errQuit "str_cli_select: server terminated prematurely" []) }
  else { s with stdout := fputs r.line.stored s.stdout }

/-- `FD_ISSET(fileno(fp), &rset)` -/
def State.send (s : State) (written : Bool) : State :=
  match fgets MAXLINE s.fp with
  | none => { s with pc := .ret }
  | some (sendline, fp) =>
    let s := { s with fp := fp }
    if written then { s with sent := s.sent ++ cstr sendline }
    else { s with pc := .stopped (.errSys "writen error") }

def State.turn (s : State) (e : Turn) : State :=
  let s := if e.sock then s.recv else s
  if e.fp ∧ s.pc = .select then s.send e.written else s

inductive Step (s : State) : Turn → State → Prop where
  | turn (e : Turn) (pc : s.pc = .select) (some : e.sock = true ∨ e.fp = true) :
      Step s e (s.turn e)

def start (fp : List UInt8) (mem : Nat → UInt8) (feed : Feed UInt8) : State :=
  ⟨fp, ⟨0, 0, mem⟩, feed, [], [], .select⟩

end StrCliSelect

/-! ## str_cli with a heartbeat -/

namespace HeartbeatCli

structure State where
  fp : List UInt8
  st : Statics UInt8
  feed : Feed UInt8
  stdout : List UInt8
  sent : List UInt8
  stdineof : Bool
  /-- `FD_ISSET(sockfd, &rset)` and `FD_ISSET(fileno(fp), &rset)` -/
  rsetSock : Bool
  rsetFp : Bool
  /-- the timer runs -/
  alarm : Bool
  pc : SelectPc

/-- what `select` does: it reports descriptors, or returns -1, and then leaves `rset` as it is -/
inductive Select where
  | ready (sock fp : Bool)
  | eintr
  | err

/-- whether `Writen` to `stdout` and to the socket write everything -/
structure Turn where
  sel : Select
  printed : Bool
  written : Bool

def State.recv (s : State) (printed : Bool) : State :=
  let r := readline isNl MAXLINE s.st s.feed
  let s := { s with st := r.st, feed := r.feed }
  if r.line.ret < 0 then { s with pc := .stopped (.errSys "readline error") }
  else if r.line.ret = 0 then
    if s.stdineof then { s with pc := .ret }
    else { s with pc := .stopped (.errQuit "str_cli: server terminated prematurely" []) }
  else if printed then { s with stdout := fputs r.line.stored s.stdout }
  else { s with pc := .stopped (.errSys "writen error") }

def State.send (s : State) (written : Bool) : State :=
  match fgets MAXLINE s.fp with
  | none => { s with stdineof := true, alarm := false, rsetFp := false }
  | some (sendline, fp) =>
    let s := { s with fp := fp }
    if written then { s with sent := s.sent ++ cstr sendline }
    else { s with pc := .stopped (.errSys "writen error") }

/-- the two `FD_SET` -/
def State.set (s : State) : State :=
  { s with rsetFp := if s.stdineof then s.rsetFp else true, rsetSock := true }

/-- the two branches on what is in `rset` -/
def State.branches (s : State) (e : Turn) : State :=
  let s := if s.rsetSock then s.recv e.printed else s
  if s.rsetFp ∧ s.pc = .select then s.send e.written else s

def State.turn (s : State) (e : Turn) : State :=
  let s := s.set
  match e.sel with
  | .ready sock fp =>
    State.branches { s with rsetSock := s.rsetSock && sock, rsetFp := s.rsetFp && fp } e
  | .eintr => s
  | .err => s.branches e

inductive Step (s : State) : Turn → State → Prop where
  | turn (e : Turn) (pc : s.pc = .select) : Step s e (s.turn e)

def start (fp : List UInt8) (mem : Nat → UInt8) (feed : Feed UInt8) : State :=
  ⟨fp, ⟨0, 0, mem⟩, feed, [], [], false, false, false, true, .select⟩

end HeartbeatCli

end Unp
