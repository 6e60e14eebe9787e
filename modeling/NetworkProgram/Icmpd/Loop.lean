import NetworkProgram.Fds
import NetworkProgram.Icmpd.World
import NetworkProgram.Lib.Ledger

/-!
# The loop of `main`

`icmpd/main.cpp`, from `for(;;)` on, with the three handlers as its steps.  `Select` reports any
nonempty part of `allset` and its size.  `accept` and `pass` say which numbers `Accept` and
`Read_fd` may return when some are in use: those of `inherited`, and those that the log has acquired
and not released.
-/

namespace Unp.Icmpd
open Trans

/-! ## descriptors in use -/

/-- what an action does to a descriptor -/
def Act.entry : Act → Option (Ledger.Entry Int)
  | .accept fd => some (.acquire fd)
  | .recvfd fd => some (.acquire fd)
  | .close fd => some (.release fd)
  | _ => none

def books (log : List Act) : List (Ledger.Entry Int) := log.filterMap Act.entry

/-- the descriptors in use -/
def World.opened (w : World) (inherited : Finset Int) : Finset Int :=
  inherited ∪ Ledger.held (books w.log)

/-! ## the loop -/

/-- where `main` is -/
inductive Pc where
  | head
  | listen
  | v4
  | scan (i : Nat)
  deriving DecidableEq, Repr

structure Loop where
  w : World
  rset : Finset Int
  pc : Pc
  /-- the world at the last `Select` -/
  selected : World

/-- the loop head, reached with the daemon `d` -/
def Loop.start (d : Daemon) : Loop := ⟨Icmpd.start d, ∅, .head, Icmpd.start d⟩

/-- `nready = Select(maxfd + 1, &rset, ..)` -/
def Loop.select (s : Loop) (rset : Finset Int) : Loop :=
  let w := { s.w with d := { s.w.d with nready := rset.card } }
  ⟨w, rset, .listen, w⟩

/-- a handler has done `o`; the loop goes on at `pc`, or at its head if `o` has returned 0 -/
def Loop.after (s : Loop) (o : Out) (pc : Pc) : Loop :=
  { s with w := s.w.after o, pc := if o.d.nready ≤ 0 then .head else pc }

inductive LoopEvent where
  | select (rset : Finset Int)
  | listen (connfd : Int)
  | v4 (buf : Nat → UInt8) (n : Nat)
  | conn (m : RecvMsg Sock)
  | skip

inductive LoopStep (ipv6 : Bool) (e : Endian) (accept pass : Finset Int → Int → Prop)
    (inherited : Finset Int) (s : Loop) : LoopEvent → Loop → Prop where
  | select (rset : Finset Int) (run : s.w.stopped = false) (pc : s.pc = .head)
      (sub : rset ⊆ s.w.d.allset) (some : rset.Nonempty) :
      LoopStep ipv6 e accept pass inherited s (.select rset) (s.select rset)
  | listen (connfd : Int) (run : s.w.stopped = false) (pc : s.pc = .listen)
      (isset : s.w.d.listenfd ∈ s.rset) (accepts : accept (s.w.opened inherited) connfd) :
      LoopStep ipv6 e accept pass inherited s (.listen connfd)
        (s.after (readableListen s.w.d connfd) .v4)
  | noListen (run : s.w.stopped = false) (pc : s.pc = .listen)
      (notset : s.w.d.listenfd ∉ s.rset) :
      LoopStep ipv6 e accept pass inherited s .skip { s with pc := .v4 }
  | v4 (buf : Nat → UInt8) (n : Nat) (run : s.w.stopped = false) (pc : s.pc = .v4)
      (isset : s.w.d.fd4 ∈ s.rset) :
      LoopStep ipv6 e accept pass inherited s (.v4 buf n)
        (s.after (readableV4 e s.w.d buf n) (.scan 0))
  | noV4 (run : s.w.stopped = false) (pc : s.pc = .v4) (notset : s.w.d.fd4 ∉ s.rset) :
      LoopStep ipv6 e accept pass inherited s .skip { s with pc := .scan 0 }
  | conn (i : Nat) (m : RecvMsg Sock) (run : s.w.stopped = false) (pc : s.pc = .scan i)
      (le : i ≤ s.w.d.maxi) (used : 0 ≤ (s.w.d.client i).connfd)
      (isset : (s.w.d.client i).connfd ∈ s.rset)
      (passes : ∀ p, Passes m p → pass (s.w.opened inherited) p.fd) :
      LoopStep ipv6 e accept pass inherited s (.conn m)
        (s.after (readableConn ipv6 s.w.d i m) (.scan (i + 1)))
  | noConn (i : Nat) (run : s.w.stopped = false) (pc : s.pc = .scan i) (le : i ≤ s.w.d.maxi)
      (notset : (s.w.d.client i).connfd < 0 ∨ (s.w.d.client i).connfd ∉ s.rset) :
      LoopStep ipv6 e accept pass inherited s .skip { s with pc := .scan (i + 1) }
  | last (i : Nat) (run : s.w.stopped = false) (pc : s.pc = .scan i) (gt : s.w.d.maxi < i) :
      LoopStep ipv6 e accept pass inherited s .skip { s with pc := .head }

end Unp.Icmpd
