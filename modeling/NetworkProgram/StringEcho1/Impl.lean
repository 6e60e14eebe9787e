import Mathlib.Logic.Function.Basic
import NetworkProgram.StrEcho

/-!
# The echo servers that fork

`Server/main.cpp` of `StringEcho1`, `StringEcho2` and `StringEcho3`, which differ only in `sig_chld`:
the parent accepts a connection, calls `str_echo` on it, forks a child and closes it, and the child
calls `str_echo` too.  A step is a system call of a process, or what a client does in between:

* `Conn`       a connection as the kernel keeps it;
* `St.read`, `St.writen`   the two calls of `str_echo`, by the parent or by a child;
* `Step`       the step relation.

A connection is known by the number of its `connect`, a child by the number of its `fork`.
`sig_chld` and the addresses are left out; where a write answers nothing because `SIGPIPE` ends the
process, the step is a `Writen` that fails.
-/

namespace Unp.StringEcho1

/-! ## connections -/

structure Conn where
  sent : List UInt8
  closed : Bool
  /-- what has been read of `sent`, and what has been written back -/
  read : List UInt8
  back : List UInt8

/-- the bytes on their way to the server -/
def Conn.unread (c : Conn) : List UInt8 := c.sent.drop c.read.length

/-- a read may return `r` -/
def Conn.answers (c : Conn) : ReadRes UInt8 MAXLINE → Prop
  | .data bs _ _ => bs <+: c.unread
  | .eof => c.unread = [] ∧ c.closed = true
  | .err _ => True

/-! ## the server -/

/-- a process of the server -/
inductive Proc where
  | parent
  | child (k : Nat)
  deriving DecidableEq, Repr

/-- where the parent is: at `accept`, in `str_echo`, at `fork` or at `close(connfd)` -/
inductive Pc where
  | accept
  | strEcho (conn : Nat) (e : StrEcho.St UInt8)
  | fork (conn : Nat)
  | close (conn : Nat)
  | stopped (why : Stop)

/-- where a child is: at `close(listenfd)`, in `str_echo`, or at its end, by `exit(0)` or early -/
inductive ChildPc where
  | close
  | strEcho (e : StrEcho.St UInt8)
  | exited (why : Option Stop)

structure Child where
  conn : Nat
  pc : ChildPc

/-- a call that `str_echo` has made on a connection, with the bytes it has moved -/
inductive Op where
  | read (bs : List UInt8)
  | writen (bs : List UInt8)
  deriving DecidableEq, Repr

structure Access where
  proc : Proc
  conn : Nat
  op : Op
  deriving DecidableEq, Repr

structure St where
  pc : Pc
  forks : Nat
  child : Nat → Child
  /-- the kernel's: the connections, and those yet to be accepted -/
  backlog : List Nat
  conns : Nat → Conn
  connects : Nat
  log : List Access

/-- at the loop -/
def start : St where
  pc := .accept
  forks := 0
  child := fun _ => ⟨0, .exited none⟩
  backlog := []
  conns := fun _ => ⟨[], false, [], []⟩
  connects := 0
  log := []

def St.setConn (s : St) (id : Nat) (c : Conn) : St :=
  { s with conns := Function.update s.conns id c }

/-! ## str_echo -/

/-- `p` is in `str_echo` on the connection `id` -/
def St.Echoing (s : St) (p : Proc) (id : Nat) (e : StrEcho.St UInt8) : Prop :=
  match p with
  | .parent => s.pc = .strEcho id e
  | .child k => k < s.forks ∧ s.child k = ⟨id, .strEcho e⟩

/-- `str_echo` of `p` goes on as `e` -/
def St.setEcho (s : St) (p : Proc) (id : Nat) (e : StrEcho.St UInt8) : St :=
  match p with
  | .parent => { s with pc := .strEcho id e }
  | .child k => { s with child := Function.update s.child k ⟨id, .strEcho e⟩ }

/-- `p` has done `op` on the connection `id`, which is `c` now -/
def St.access (s : St) (p : Proc) (id : Nat) (op : Op) (c : Conn) : St :=
  { s.setConn id c with log := s.log ++ [Access.mk p id op] }

/-- `n = read(sockfd, buf, MAXLINE)` -/
def St.read (s : St) (p : Proc) (id : Nat) (e : StrEcho.St UInt8) (r : ReadRes UInt8 MAXLINE) : St :=
  let c := s.conns id
  (s.access p id (.read r.bytes) { c with read := c.read ++ r.bytes }).setEcho p id (e.read r)

/-- `Writen(sockfd, buf, n)`, when `writen` has done `w` -/
def St.writen (s : St) (p : Proc) (id : Nat) (e : StrEcho.St UInt8) (n : Nat) (w : Written UInt8) :
    St :=
  let c := s.conns id
  (s.access p id (.writen w.out) { c with back := c.back ++ w.out }).setEcho p id (e.writen n w)

/-- `str_echo` returns: the parent forks, a child calls `exit(0)` -/
def St.ret (s : St) (p : Proc) (id : Nat) : St :=
  match p with
  | .parent => { s with pc := .fork id }
  | .child k => { s with child := Function.update s.child k ⟨id, .exited none⟩ }

/-- `err_sys` in `str_echo` -/
def St.errSys (s : St) (p : Proc) (id : Nat) (why : Stop) : St :=
  match p with
  | .parent => { s with pc := .stopped why }
  | .child k => { s with child := Function.update s.child k ⟨id, .exited (some why)⟩ }

/-! ## main -/

/-- `accept` returns the oldest connection; `str_echo(connfd)` is called in the parent -/
def St.accept (s : St) (id : Nat) (buf : Nat → UInt8) : St :=
  { s with backlog := s.backlog.tail, pc := .strEcho id (StrEcho.start buf) }

/-- `accept` returns -1 -/
def St.acceptError (s : St) (e : Errno) : St :=
  if e = EINTR then s else { s with pc := .stopped (.errSys "accept error") }

/-- `fork` -/
def St.fork (s : St) (id : Nat) : St :=
  { s with
    child := Function.update s.child s.forks ⟨id, .close⟩
    forks := s.forks + 1
    pc := .close id }

/-! ## the steps -/

inductive Event where
  | connect
  | send (id : Nat) (bs : List UInt8)
  | close (id : Nat)
  | accept (buf : Nat → UInt8)
  | acceptError (e : Errno)
  | read (p : Proc) (r : ReadRes UInt8 MAXLINE)
  | writen (p : Proc) (ws : Writes)
  | ret (p : Proc)
  | errSys (p : Proc)
  | fork
  | forkError
  | closeConn
  | closeListen (k : Nat) (buf : Nat → UInt8)

inductive Step (s : St) : Event → St → Prop where
  | connect : Step s .connect { s with backlog := s.backlog ++ [s.connects], connects := s.connects + 1 }
  | send (id : Nat) (bs : List UInt8) (lt : id < s.connects) (opn : (s.conns id).closed = false) :
      Step s (.send id bs) (s.setConn id { s.conns id with sent := (s.conns id).sent ++ bs })
  | close (id : Nat) (lt : id < s.connects) :
      Step s (.close id) (s.setConn id { s.conns id with closed := true })
  | accept (id : Nat) (rest : List Nat) (buf : Nat → UInt8) (pc : s.pc = .accept)
      (waits : s.backlog = id :: rest) : Step s (.accept buf) (s.accept id buf)
  | acceptError (e : Errno) (pc : s.pc = .accept) : Step s (.acceptError e) (s.acceptError e)
  | read (p : Proc) (id : Nat) (e : StrEcho.St UInt8) (r : ReadRes UInt8 MAXLINE)
      (at_ : s.Echoing p id e) (pc : e.pc = .read) (answers : (s.conns id).answers r) :
      Step s (.read p r) (s.read p id e r)
  | writen (p : Proc) (id n : Nat) (e : StrEcho.St UInt8) (ws : Writes) (w : Written UInt8)
      (at_ : s.Echoing p id e) (pc : e.pc = .writen n) (returns : Unp.writen e.buf n ws = some w) :
      Step s (.writen p ws) (s.writen p id e n w)
  | ret (p : Proc) (id : Nat) (e : StrEcho.St UInt8) (at_ : s.Echoing p id e) (pc : e.pc = .ret) :
      Step s (.ret p) (s.ret p id)
  | errSys (p : Proc) (id : Nat) (e : StrEcho.St UInt8) (why : Stop) (at_ : s.Echoing p id e)
      (pc : e.pc = .stopped why) : Step s (.errSys p) (s.errSys p id why)
  | fork (id : Nat) (pc : s.pc = .fork id) : Step s .fork (s.fork id)
  | forkError (id : Nat) (pc : s.pc = .fork id) :
      Step s .forkError { s with pc := .stopped (.errSys "fork failed") }
  | closeConn (id : Nat) (pc : s.pc = .close id) : Step s .closeConn { s with pc := .accept }
  | closeListen (k id : Nat) (buf : Nat → UInt8) (lt : k < s.forks) (pc : s.child k = ⟨id, .close⟩) :
      Step s (.closeListen k buf)
        { s with child := Function.update s.child k ⟨id, .strEcho (StrEcho.start buf)⟩ }

end Unp.StringEcho1
