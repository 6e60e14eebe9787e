import NetworkProgram.Fds
import NetworkProgram.Lib.SlotTable
import NetworkProgram.Lib.Tally
import NetworkProgram.Writen

/-!
# The echo server with `poll`

`StringEcho5_poll/Server/main.cpp`.  A step is what the server does up to its next system call, on
any answer of the kernel.

* `St.poll`     `Poll` sets the `revents` of the entries up to `maxi`, and counts those it has set;
* `St.accept`   a new connection goes into the first entry without a descriptor;
* `St.read`     the three branches on `n`, which is a `size_t`;
* `Step`        the step relation.

`client[]` holds anything where the program has not set it.  The addresses are left out.
-/

namespace Unp.StringEcho5
open Finset

/-- `<cstdio>` -/
def FOPEN_MAX : Nat := 16

def POLLERR : UInt16 := 8
def POLLHUP : UInt16 := 16
def POLLNVAL : UInt16 := 32
def POLLRDNORM : UInt16 := 64

/-- `struct pollfd` -/
structure PollFd where
  fd : Int
  events : UInt16
  revents : UInt16
  deriving DecidableEq, Repr

/-- `revents & (POLLRDNORM|POLLERR)` -/
def PollFd.ready (p : PollFd) : Bool := p.revents &&& (POLLRDNORM ||| POLLERR) ≠ 0

def PollFd.reported (p : PollFd) : Bool := p.revents ≠ 0

/-- what `Poll` may store in `revents` -/
def PollFd.mayReport (p : PollFd) (revents : UInt16) : Bool :=
  revents &&& (p.events ||| POLLERR ||| POLLHUP ||| POLLNVAL) = revents

/-- where the server is: at `Poll`, at `Accept`, in the `for` over the clients, or at `Writen` -/
inductive Pc where
  | head
  | accept
  | scan (i : Nat)
  | writen (i : Nat) (sockfd : Int) (n : Nat)
  | stopped (why : Stop)
  deriving DecidableEq, Repr

structure St where
  listenfd : Int
  client : Nat → PollFd
  maxi : Nat
  nready : Int
  buf : Nat → UInt8
  pc : Pc
  opened : Finset Int
  /-- `client[]` and `maxi` as the last `Poll` has left them -/
  polled : Nat → PollFd
  polledMaxi : Nat
  /-- what has been written, and to which descriptor -/
  out : List (Int × List UInt8)

/-- `c.fd = -1` for every entry, and `listenfd` in the first -/
def initClient (mem : Nat → PollFd) (listenfd : Int) : Nat → PollFd :=
  Function.update (fun i => { mem i with fd := -1 }) 0 ⟨listenfd, POLLRDNORM, (mem 0).revents⟩

/-- at the loop, when `Socket` has returned `listenfd`; `mem` and `buf` are what the arrays hold -/
def start (inherited : Finset Int) (listenfd : Int) (mem : Nat → PollFd) (buf : Nat → UInt8) : St where
  listenfd := listenfd
  client := initClient mem listenfd
  maxi := 0
  nready := 0
  buf := buf
  pc := .head
  opened := insert listenfd inherited
  polled := initClient mem listenfd
  polledMaxi := 0
  out := []

/-! ## the loop -/

/-- what `Poll` stores in entry `i`, when it reports `revents` for its descriptor -/
def PollFd.polled (p : PollFd) (revents : UInt16) : PollFd :=
  { p with revents := if p.fd < 0 then 0 else revents }

/-- `nready = Poll(client, maxi + 1, -1);` -/
def St.poll (s : St) (revents : Nat → UInt16) : St :=
  let client := fun i => if i ≤ s.maxi then (s.client i).polled (revents i) else s.client i
  { s with
    client := client
    nready := Tally.count (range (s.maxi + 1)) PollFd.reported client
    polled := client
    polledMaxi := s.maxi
    pc := if (client 0).revents &&& POLLRDNORM ≠ 0 then .accept else .scan 1 }

/-- `if (--nready <= 0)` leave the iteration, and else go on at `pc` -/
def St.next (s : St) (pc : Pc) : St :=
  let nready := s.nready - 1
  { s with nready := nready, pc := if nready ≤ 0 then .head else pc }

def St.setClient (s : St) (i : Nat) (p : PollFd) : St :=
  { s with client := Function.update s.client i p }

/-- from `Accept` to the end of its branch -/
def St.accept (s : St) (connfd : Int) : St :=
  let s := { s with opened := insert connfd s.opened }
  match firstFree (fun i => (s.client i).fd) (FOPEN_MAX - 1) 1 with
  | none => { s with pc := .stopped (.errQuit "too many clients" []) }
  | some i =>
    let s := s.setClient i ⟨connfd, POLLRDNORM, (s.client i).revents⟩
    { s with maxi := if i > s.maxi then i else s.maxi }.next (.scan 1)

/-- `Close(sockfd); client[i].fd = -1;` -/
def St.close (s : St) (i : Nat) (sockfd : Int) : St :=
  { s with opened := s.opened.erase sockfd }.setClient i { s.client i with fd := -1 }

/-- the `read` of entry `i` -/
def St.read (s : St) (i : Nat) (sockfd : Int) (r : ReadRes UInt8 MAXLINE) : St :=
  let n := sizeT r.ret
  let s := { s with buf := fun k => r.bytes.getD k (s.buf k) }
  if n < 0 then
    if r.errno = ECONNRESET then (s.close i sockfd).next (.scan (i + 1))
    else { s with pc := .stopped (.errSys "read error") }
  else if n = 0 then (s.close i sockfd).next (.scan (i + 1))
  else { s with pc := .writen i sockfd n }

/-- `Writen(sockfd, buf, n)`, when `writen` has done `w` -/
def St.writen (s : St) (i : Nat) (sockfd : Int) (n : Nat) (w : Written UInt8) : St :=
  let s := { s with out := s.out ++ [(sockfd, w.out)] }
  if w.ret ≠ n then { s with pc := .stopped (.errSys "writen error") }
  else s.next (.scan (i + 1))

/-! ## the steps -/

inductive Event where
  | poll (revents : Nat → UInt16)
  | accept (connfd : Int)
  | read (r : ReadRes UInt8 MAXLINE)
  | writen (ws : Writes)
  | skip
  | fail

def Pc.running : Pc → Bool
  | .stopped _ => false
  | _ => true

inductive Step (s : St) : Event → St → Prop where
  /-- `Poll` waits until it has something to report -/
  | poll (revents : Nat → UInt16) (pc : s.pc = .head)
      (may : ∀ i ≤ s.maxi, (s.client i).mayReport (revents i) = true)
      (some : ∃ i ≤ s.maxi, ((s.poll revents).client i).reported = true) :
      Step s (.poll revents) (s.poll revents)
  | accept (connfd : Int) (pc : s.pc = .accept) (nonneg : 0 ≤ connfd) (unused : connfd ∉ s.opened) :
      Step s (.accept connfd) (s.accept connfd)
  | read (i : Nat) (r : ReadRes UInt8 MAXLINE) (pc : s.pc = .scan i) (le : i ≤ s.maxi)
      (used : 0 ≤ (s.client i).fd) (ready : (s.client i).ready = true) :
      Step s (.read r) (s.read i (s.client i).fd r)
  | writen (i : Nat) (sockfd : Int) (n : Nat) (ws : Writes) (w : Written UInt8)
      (pc : s.pc = .writen i sockfd n) (returns : Unp.writen s.buf n ws = some w) :
      Step s (.writen ws) (s.writen i sockfd n w)
  | skip (i : Nat) (pc : s.pc = .scan i) (le : i ≤ s.maxi)
      (notready : (s.client i).fd < 0 ∨ (s.client i).ready = false) :
      Step s .skip { s with pc := .scan (i + 1) }
  | last (i : Nat) (pc : s.pc = .scan i) (gt : s.maxi < i) : Step s .skip { s with pc := .head }
  /-- another system call of the server fails -/
  | fail (msg : String) (running : s.pc.running = true) :
      Step s .fail { s with pc := .stopped (.errSys msg) }

end Unp.StringEcho5
