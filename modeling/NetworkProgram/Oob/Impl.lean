import NetworkProgram.Lib.Run
import NetworkProgram.Stdio

/-!
# tcprecv03 takes urgent data

`oob/tcprecv03/main.cpp`, from `for(;;)` on, over a connection on which the peer sends one urgent byte.
A step is one call of the program, or an arrival.  What is sent arrives in order, in pieces of any
length.

* `State.exceptional`, `State.readable`   what `Select` reports;
* `State.room`                            how much `read` may return: it stops at the mark;
* `Step`                                  the step relation.
-/

namespace Unp.Oob

/-- what the peer sends: normal bytes, the urgent byte, and normal bytes again -/
structure Sent where
  before : List UInt8
  urgent : UInt8
  behind : List UInt8

def Sent.normal (x : Sent) : List UInt8 := x.before ++ x.behind

def Sent.length (x : Sent) : Nat := x.before.length + 1 + x.behind.length

/-- `sizeof(buff)-1` -/
def buffSize : Nat := 99

/-- what is printed -/
inductive Line where
  /-- `read %d OOB byte :%s` -/
  | oob (n : Nat) (text : List UInt8)
  /-- `read %d bytes:%s` -/
  | bytes (n : Nat) (text : List UInt8)
  /-- `received EOF` -/
  | eof
  deriving DecidableEq

/-- the next call: `Select`, `Recv` with what `Select` has said of `rset`, or `Read` -/
inductive Pc where
  | select
  | recv (rset : Bool)
  | read
  | returned
  | stopped (why : Stop)
  deriving DecidableEq

structure State where
  pc : Pc
  justreadoob : Bool
  /-- how much has arrived, with the urgent byte -/
  arrived : Nat
  fin : Bool
  /-- how many normal bytes have been read -/
  consumed : Nat
  /-- the urgent byte has been read -/
  oobRead : Bool
  out : List Line
  deriving DecidableEq

def start : State := ⟨.select, false, 0, false, 0, false, []⟩

/-! ## the kernel -/

/-- how many normal bytes have arrived -/
def State.normal (x : Sent) (s : State) : Nat :=
  if s.arrived ≤ x.before.length then s.arrived else s.arrived - 1

/-- the mark has arrived, and has not been read past -/
def State.exceptional (x : Sent) (s : State) : Bool :=
  x.before.length < s.arrived && s.consumed ≤ x.before.length

def State.readable (x : Sent) (s : State) : Bool := s.consumed < s.normal x || s.fin

/-- the most that `Read` returns -/
def State.room (x : Sent) (s : State) : Nat :=
  min buffSize ((if s.consumed < x.before.length then min (s.normal x) x.before.length
    else s.normal x) - s.consumed)

/-! ## the program -/

/-- `Select` has returned -/
def State.select (s : State) (xset rset : Bool) : State :=
  { s with pc := if xset then .recv rset else if rset then .read else .select }

/-- `Recv(connfd, buff, sizeof(buff)-1, MSG_OOB)` -/
def State.recv (x : Sent) (s : State) (rset : Bool) : State :=
  if s.oobRead then { s with pc := .stopped (.errSys "recv error") }
  else
    { s with
      pc := if rset then .read else .select
      justreadoob := true
      oobRead := true
      out := s.out ++ [.oob 1 (cstr [x.urgent])] }

/-- `Read` returns the next `n` normal bytes -/
def State.read (x : Sent) (s : State) (n : Nat) : State :=
  { s with
    pc := .select
    justreadoob := false
    consumed := s.consumed + n
    out := s.out ++ [.bytes n (cstr ((x.normal.drop s.consumed).take n))] }

inductive Event where
  | arrive (n : Nat)
  | fin
  | select
  | recv
  | read (n : Nat)
  | eof
  deriving DecidableEq

inductive Step (x : Sent) (s : State) : Event → State → Prop where
  | arrive (n : Nat) (le : s.arrived + n ≤ x.length) :
      Step x s (.arrive n) { s with arrived := s.arrived + n }
  | fin (all : s.arrived = x.length) : Step x s .fin { s with fin := true }
  | select (pc : s.pc = .select)
      (ready : ((!s.justreadoob && s.exceptional x) || s.readable x) = true) :
      Step x s .select (s.select (!s.justreadoob && s.exceptional x) (s.readable x))
  | recv {rset : Bool} (pc : s.pc = .recv rset) : Step x s .recv (s.recv x rset)
  | read (n : Nat) (pc : s.pc = .read) (pos : 0 < n) (le : n ≤ s.room x) :
      Step x s (.read n) (s.read x n)
  | eof (pc : s.pc = .read) (all : s.normal x ≤ s.consumed) (end_ : s.fin = true) :
      Step x s .eof { s with pc := .returned, out := s.out ++ [.eof] }

end Unp.Oob
