import Mathlib.Data.Fintype.Card
import Mathlib.Data.Fintype.Fin
import Mathlib.Logic.Function.Basic
import NetworkProgram.Sys

/-!
# The pre-threaded server

`server/serv08/main.cpp`: the main thread accepts connections and stores them in `clifd`, `n`
workers take them out.  `clifd`, `iget` and `iput` are touched only under the mutex `m`, so a step
is what one thread does while it holds the lock:

* `St.insert`   the acceptor stores a connection and calls `notify_one`;
* `St.locked`   a worker that has got the lock takes a connection or waits;
* `St.finish`, `St.spurious`   a worker is done with its connection, or wakes up by itself.

`accepted` and `taken` record what `Accept` returned and which worker took what.  `thread_count`
and `addrlen` are left out.
-/

namespace Unp.Serv08

def MAXNCLI : Nat := 32

/-- where a worker is: before `lock`, in `cv.wait` without or with a notification, or in
`web_child` -/
inductive Phase where
  | lock
  | waiting
  | notified
  | busy (connfd : Int)
  deriving DecidableEq, Repr

structure St (n : Nat) where
  clifd : Nat → Int
  iget : Nat
  iput : Nat
  phase : Fin n → Phase
  accepted : List Int
  taken : List (Fin n × Int)
  exited : Option Stop

/-- all workers have been started; `clifd` holds anything -/
def start (n : Nat) (clifd : Nat → Int) : St n where
  clifd := clifd
  iget := 0
  iput := 0
  phase := fun _ => .lock
  accepted := []
  taken := []
  exited := none

variable {n : Nat}

def St.setPhase (s : St n) (w : Fin n) (p : Phase) : St n :=
  { s with phase := Function.update s.phase w p }

/-- `cv.notify_one();` wakes the waiter `w`, if there is one -/
def St.notifyOne (s : St n) (w : Option (Fin n)) : St n :=
  match w with
  | some w => s.setPhase w .notified
  | none => s

/-- `clifd[iput++] = connfd; if (iput == MAXNCLI) iput = 0;` -/
def St.store (s : St n) (connfd : Int) : St n :=
  let clifd := Function.update s.clifd s.iput connfd
  let iput := s.iput + 1
  { s with clifd := clifd, iput := if iput = MAXNCLI then 0 else iput
           accepted := s.accepted ++ [connfd] }

/-- the acceptor under the lock -/
def St.insert (s : St n) (connfd : Int) (w : Option (Fin n)) : St n :=
  let s := s.store connfd
  if s.iput = s.iget then { s with exited := some (.errQuit "iput == iget = %d" [s.iput]) }
  else s.notifyOne w

/-- `connfd = clifd[iget]; if (++iget == MAXNCLI) iget = 0;` -/
def St.take (s : St n) (w : Fin n) : St n :=
  let connfd := s.clifd s.iget
  let iget := s.iget + 1
  { s with iget := if iget = MAXNCLI then 0 else iget
           phase := Function.update s.phase w (.busy connfd)
           taken := s.taken ++ [(w, connfd)] }

/-- a worker under the lock: `while (iget == iput) cv.wait(lock);` -/
def St.locked (s : St n) (w : Fin n) : St n :=
  if s.iget = s.iput then s.setPhase w .waiting else s.take w

/-! ## the steps -/

inductive Event (n : Nat) where
  | insert (connfd : Int) (w : Option (Fin n))
  | lock (w : Fin n)
  | spurious (w : Fin n)
  | finish (w : Fin n)

/-- whom `notify_one` can wake: a waiter, and nobody only if nobody waits -/
def St.wakes (s : St n) : Option (Fin n) → Prop
  | some w => s.phase w = .waiting
  | none => ∀ w, s.phase w ≠ .waiting

/-- a worker that will take the lock next -/
def Phase.wantsLock : Phase → Bool
  | .lock => true
  | .notified => true
  | _ => false

def Phase.isBusy : Phase → Bool
  | .busy _ => true
  | _ => false

inductive Step (s : St n) : Event n → St n → Prop where
  | insert (connfd : Int) (w : Option (Fin n)) (run : s.exited = none) (wakes : s.wakes w) :
      Step s (.insert connfd w) (s.insert connfd w)
  | lock (w : Fin n) (run : s.exited = none) (wants : (s.phase w).wantsLock = true) :
      Step s (.lock w) (s.locked w)
  | spurious (w : Fin n) (run : s.exited = none) (waits : s.phase w = .waiting) :
      Step s (.spurious w) (s.setPhase w .notified)
  | finish (w : Fin n) (run : s.exited = none) (busy : (s.phase w).isBusy = true) :
      Step s (.finish w) (s.setPhase w .lock)

end Unp.Serv08
