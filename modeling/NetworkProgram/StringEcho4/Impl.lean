import NetworkProgram.Fds
import NetworkProgram.Lib.SlotTable
import NetworkProgram.Writen

/-!
# The echo server with `select`

`StringEcho4_shutdown/Server/main.cpp`.  A step is a statement of the server between two system
calls, or what a client does in between.

* `Conn`     a connection, as the kernel keeps it: what its client has sent, what the server has
             read of that, and what has been written back;
* `St.select`, `St.accept`, `St.read`, `St.writen`   the parts of the loop;
* `Step`     the step relation; `alloc` says which number `Accept` may return when some are in use.

A connection is known by the number of its `connect`, and each byte carries the connection it was
sent on.  The addresses are left out.
-/

namespace Unp.StringEcho4
open Finset

/-! ## connections -/

/-- a byte, sent on the connection `conn` -/
structure Sent where
  conn : Nat
  byte : UInt8
  deriving DecidableEq, Repr

structure Conn where
  sent : List Sent
  closed : Bool
  read : List Sent
  back : List Sent

/-- the bytes on their way to the server -/
def Conn.unread (c : Conn) : List Sent := c.sent.drop c.read.length

/-- bytes or the end of file -/
def Conn.readable (c : Conn) : Bool := !c.unread.isEmpty || c.closed

/-- a read may return `r` -/
def Conn.answers (c : Conn) : ReadRes Sent MAXLINE → Prop
  | .data bs _ _ => bs <+: c.unread
  | .eof => c.unread = [] ∧ c.closed = true
  | .err _ => False

/-! ## the server -/

/-- where the server is: at `Select`, at `Accept`, in the `for` over the clients, or at `Writen` -/
inductive Pc where
  | head
  | accept
  | scan (j : Nat)
  | writen (j : Nat) (sockfd : Int) (n : Nat)
  | stopped (why : Stop)
  deriving DecidableEq, Repr

def Pc.running : Pc → Bool
  | .stopped _ => false
  | _ => true

structure St where
  listenfd : Int
  client : Nat → Int
  maxi : Int
  maxfd : Int
  nready : Int
  rset : Finset Int
  allset : Finset Int
  buf : Nat → Sent
  pc : Pc
  /-- the kernel's: the numbers in use, the connections behind them, and those yet to be accepted -/
  opened : Finset Int
  owner : Int → Option Nat
  backlog : List Nat
  conns : Nat → Conn
  connects : Nat
  /-- the descriptors served since the last `Select` -/
  served : List Int

/-- at the loop, when `Socket` has returned `listenfd`; `buf` holds anything -/
def start (inherited : Finset Int) (listenfd : Int) (buf : Nat → Sent) : St where
  listenfd := listenfd
  client := fun _ => -1
  maxi := -1
  maxfd := listenfd
  nready := 0
  rset := ∅
  allset := {listenfd}
  buf := buf
  pc := .head
  opened := insert listenfd inherited
  owner := fun _ => none
  backlog := []
  conns := fun _ => ⟨[], false, [], []⟩
  connects := 0
  served := []

def St.setConn (s : St) (id : Nat) (c : Conn) : St :=
  { s with conns := Function.update s.conns id c }

/-! ## the loop -/

def St.readable (s : St) (fd : Int) : Bool :=
  if fd = s.listenfd then !s.backlog.isEmpty
  else match s.owner fd with
    | some id => (s.conns id).readable
    | none => false

/-- `rset = allset; nready = Select(maxfd+1, &rset, ..);` -/
def St.select (s : St) : St :=
  let rset := s.allset.filter (fun fd => s.readable fd)
  { s with
    rset := rset
    nready := rset.card
    served := []
    pc := if s.listenfd ∈ rset then .accept else .scan 0 }

/-- `if (--nready <= 0)` leave the iteration, and else go on at `pc` -/
def St.next (s : St) (pc : Pc) : St :=
  let nready := s.nready - 1
  { s with nready := nready, pc := if nready ≤ 0 then .head else pc }

/-- the kernel's part of `Accept` -/
def St.take (s : St) (connfd : Int) : St :=
  { s with
    opened := insert connfd s.opened
    owner := Function.update s.owner connfd s.backlog.head?
    backlog := s.backlog.tail
    served := s.listenfd :: s.served }

/-- `connfd` is saved in slot `i` -/
def St.save (s : St) (i : Nat) (connfd : Int) : St :=
  { s with
    client := Function.update s.client i connfd
    allset := insert connfd s.allset
    maxfd := if connfd > s.maxfd then connfd else s.maxfd
    maxi := if i > s.maxi then i else s.maxi }

/-- from `Accept` to the end of its branch -/
def St.accept (s : St) (connfd : Int) : St :=
  let s := s.take connfd
  match firstFree s.client FD_SETSIZE 0 with
  | none => { s with pc := .stopped (.errQuit "too many clients" []) }
  | some i => (s.save i connfd).next (.scan 0)

/-- `Close(sockfd); FD_CLR(sockfd, &allset); client[j] = -1;` -/
def St.close (s : St) (j : Nat) (sockfd : Int) : St :=
  { s with
    opened := s.opened.erase sockfd
    owner := Function.update s.owner sockfd none
    allset := s.allset.erase sockfd
    client := Function.update s.client j (-1) }

/-- `read` delivers `bs` of the connection `id` into `buf` -/
def St.fill (s : St) (id : Nat) (bs : List Sent) : St :=
  let c := s.conns id
  { s.setConn id { c with read := c.read ++ bs } with buf := fun k => bs.getD k (s.buf k) }

/-- the `Read` of slot `j`, on the connection `id` -/
def St.read (s : St) (j : Nat) (sockfd : Int) (id : Nat) (r : ReadRes Sent MAXLINE) : St :=
  let s := { s with served := sockfd :: s.served }
  match r with
  | .err _ => { s with pc := .stopped (.errSys "read error") }
  | .eof => (s.close j sockfd).next (.scan (j + 1))
  | .data bs _ _ => { s.fill id bs with pc := .writen j sockfd bs.length }

/-- `Writen(sockfd, buf, n)`, when `writen` has done `w` -/
def St.writen (s : St) (j : Nat) (id n : Nat) (w : Written Sent) : St :=
  let c := s.conns id
  let s := s.setConn id { c with back := c.back ++ w.out }
  if w.ret ≠ n then { s with pc := .stopped (.errSys "writen error") }
  else s.next (.scan (j + 1))

/-! ## the steps -/

/-- a client connects -/
def St.connect (s : St) : St :=
  { s with backlog := s.backlog ++ [s.connects], connects := s.connects + 1 }

inductive Event where
  | connect
  | send (id : Nat) (bs : List UInt8)
  | close (id : Nat)
  | select
  | accept (connfd : Int)
  | read (r : ReadRes Sent MAXLINE)
  | writen (ws : Writes)
  | skip
  | fail

inductive Step (alloc : Finset Int → Int → Prop) (s : St) : Event → St → Prop where
  | connect : Step alloc s .connect s.connect
  | send (id : Nat) (bs : List UInt8) (lt : id < s.connects) (opn : (s.conns id).closed = false) :
      Step alloc s (.send id bs)
        (s.setConn id { s.conns id with sent := (s.conns id).sent ++ bs.map (fun b => ⟨id, b⟩) })
  | close (id : Nat) (lt : id < s.connects) :
      Step alloc s (.close id) (s.setConn id { s.conns id with closed := true })
  /-- `Select` waits until a descriptor is readable -/
  | select (pc : s.pc = .head) (some : ∃ fd ∈ s.allset, s.readable fd = true) :
      Step alloc s .select s.select
  | accept (connfd : Int) (pc : s.pc = .accept) (waits : s.backlog ≠ [])
      (number : alloc s.opened connfd) : Step alloc s (.accept connfd) (s.accept connfd)
  | read (j id : Nat) (r : ReadRes Sent MAXLINE) (pc : s.pc = .scan j) (le : j ≤ s.maxi)
      (used : 0 ≤ s.client j) (isset : s.client j ∈ s.rset) (owner : s.owner (s.client j) = some id)
      (answers : (s.conns id).answers r) : Step alloc s (.read r) (s.read j (s.client j) id r)
  | writen (j : Nat) (sockfd : Int) (n id : Nat) (ws : Writes) (w : Written Sent)
      (pc : s.pc = .writen j sockfd n) (owner : s.owner sockfd = some id)
      (returns : Unp.writen s.buf n ws = some w) : Step alloc s (.writen ws) (s.writen j id n w)
  | skip (j : Nat) (pc : s.pc = .scan j) (le : j ≤ s.maxi)
      (notset : s.client j < 0 ∨ s.client j ∉ s.rset) :
      Step alloc s .skip { s with pc := .scan (j + 1) }
  | last (j : Nat) (pc : s.pc = .scan j) (gt : s.maxi < j) :
      Step alloc s .skip { s with pc := .head }
  /-- a system call of the server fails -/
  | fail (msg : String) (running : s.pc.running = true) :
      Step alloc s .fail { s with pc := .stopped (.errSys msg) }

end Unp.StringEcho4
