import NetworkProgram.Readline.Impl
import NetworkProgram.SelectCli.Impl
import NetworkProgram.StrCli.Impl
import NetworkProgram.Writen

/-!
# The client with `Select` and `Shutdown`

`str_cli_select_shutdown` of `str_cli.cpp`.  A step is what the function does up to its next system
call.  What `read` will answer on `fp` and on the socket are two `Feed`s; what `Select` reports and
what `write` takes are the steps' arguments.

`State.trace` records the reads, what was written, and the `Shutdown`.
-/

namespace Unp.SelectShutdown
open StrCli (Desc)

inductive Call where
  | read (d : Desc) (got : ReadRes UInt8 MAXLINE)
  | wrote (d : Desc) (bs : List UInt8)
  | shutdown

/-- where the function is: at `Select`, at one of the two branches, at `Write` or `Writen` of `n`
bytes, or behind the loop -/
inductive Pc where
  | select
  | sock
  | write (n : Nat)
  | fp
  | writen (n : Nat)
  | ret
  | stopped (why : Stop)

structure State where
  /-- what `read` will answer on `fp` and on `sockfd` -/
  fp : Feed UInt8
  sock : Feed UInt8
  buf : Nat → UInt8
  stdineof : Bool
  /-- `FD_ISSET(fileno(fp), &rset)` and `FD_ISSET(sockfd, &rset)` -/
  rsetFp : Bool
  rsetSock : Bool
  pc : Pc
  trace : List Call

def start (fp sock : Feed UInt8) (buf : Nat → UInt8) : State :=
  ⟨fp, sock, buf, false, false, false, .select, []⟩

/-- what the next `read` answers -/
def Feed.next (feed : Feed UInt8) : ReadRes UInt8 MAXLINE := feed.head?.getD .eof

def State.log (s : State) (c : Call) : State := { s with trace := s.trace ++ [c] }

/-- `read(.., buf, MAXLINE)` stores the bytes it delivers -/
def State.fill (s : State) (r : ReadRes UInt8 MAXLINE) : State :=
  { s with buf := fun k => r.bytes.getD k (s.buf k) }

/-- the `FD_SET`s and `Select`, which leaves what it reports in `rset` -/
def State.select (s : State) (fp sock : Bool) : State :=
  { s with
    rsetFp := (if s.stdineof then s.rsetFp else true) && fp
    rsetSock := sock
    pc := .sock }

/-- `n = Read(sockfd, buf, MAXLINE)` -/
def State.readSock (s : State) : State :=
  let r := Feed.next s.sock
  let s := (({ s with sock := s.sock.tail }).fill r).log (.read .sock r)
  if r.ret = -1 then { s with pc := .stopped (.errSys "read error") }
  else if r.ret = 0 then
    if s.stdineof then { s with pc := .ret }
    else { s with pc := .stopped (.errQuit "str_cli: server terminated prematurely" []) }
  else { s with pc := .write r.ret.toNat }

/-- `Write(fileno(stdout), buf, n)` -/
def State.write (s : State) (n : Nat) (w : WriteRes n) : State :=
  let s := s.log (.wrote .stdout (memory s.buf 0 w.count))
  if w.count ≠ n then { s with pc := .stopped (.errSys "write error") } else { s with pc := .fp }

/-- `n = Read(fileno(fp), buf, MAXLINE)` -/
def State.readFp (s : State) : State :=
  let r := Feed.next s.fp
  let s := (({ s with fp := s.fp.tail }).fill r).log (.read .stdin r)
  if r.ret = -1 then { s with pc := .stopped (.errSys "read error") }
  else if r.ret = 0 then
    { ({ s with stdineof := true }).log .shutdown with rsetFp := false, pc := .select }
  else { s with pc := .writen r.ret.toNat }

/-- `Writen(sockfd, buf, n)`, when `writen` has done `w` -/
def State.writen (s : State) (n : Nat) (w : Written UInt8) : State :=
  let s := s.log (.wrote .sock w.out)
  if w.ret ≠ n then { s with pc := .stopped (.errSys "writen error") } else { s with pc := .select }

/-! ## the steps -/

inductive Event where
  | select (fp sock : Bool)
  | skip
  | read
  | write
  deriving DecidableEq, Repr

inductive Step (s : State) : Event → State → Prop where
  | select (fp sock : Bool) (pc : s.pc = .select) : Step s (.select fp sock) (s.select fp sock)
  | skipSock (pc : s.pc = .sock) (notset : s.rsetSock = false) : Step s .skip { s with pc := .fp }
  | readSock (pc : s.pc = .sock) (isset : s.rsetSock = true) : Step s .read s.readSock
  | write (n : Nat) (w : WriteRes n) (pc : s.pc = .write n) : Step s .write (s.write n w)
  | skipFp (pc : s.pc = .fp) (notset : s.rsetFp = false) : Step s .skip { s with pc := .select }
  | readFp (pc : s.pc = .fp) (isset : s.rsetFp = true) : Step s .read s.readFp
  | writen (n : Nat) (ws : Writes) (w : Written UInt8) (pc : s.pc = .writen n)
      (returns : Unp.writen s.buf n ws = some w) : Step s .write (s.writen n w)

end Unp.SelectShutdown
