import NetworkProgram.Timeo.Alarm
import NetworkProgram.Timeo.Select

/-!
# The client with a receive timeout

`advio/Time_RCVTIMEO/Client/main.cpp`: with `SO_RCVTIMEO`, `recvfrom` fails with `EWOULDBLOCK` when
five seconds have passed.

* `State.failed`     the branch of an error;
* `Step`             the step relation;
* `sim`              the client is an asker that gives up;
* `Timeo.reported`   what the three clients with a time limit print.
-/

namespace Unp.Timeo

open Trans

namespace Rcvtimeo

inductive Pc where
  | fgets
  | sendto (sendline : List UInt8)
  | recvfrom
  | fputs (d : Numbered)
  | ret
  | stopped (why : Stop)
  deriving DecidableEq, Repr

structure State extends Client where
  pc : Pc

def start (input : List UInt8) : State := { Client.start input with pc := .fgets }

/-- `while (Fgets(sendline, MAXLINE, fp) != nullptr)` -/
def State.fgets (s : State) : State :=
  match s.toClient.fgets with
  | none => { s with pc := .ret }
  | some (sendline, c) => { s with toClient := c, pc := .sendto sendline }

/-- `recvfrom` has failed with the errno `e` -/
def State.failed (s : State) (e : Errno) : State :=
  if e = EWOULDBLOCK then { s with toClient := s.toClient.timeout, pc := .fgets }
  else { s with pc := .stopped (.errSys "recvfrom error") }

/-! ## the steps -/

inductive Event where
  | fgets
  | sendto (sendline : List UInt8)
  | recvfrom
  | error (e : Errno)
  | fputs
  | fail (msg : String)
  | net (e : NetEvent)
  deriving DecidableEq, Repr

def Pc.running : Pc → Bool
  | .ret => false
  | .stopped _ => false
  | _ => true

/-- the statement calls a wrapper that ends the process when the system call fails -/
def Pc.wrapper : Pc → Bool
  | .fgets => true
  | .sendto _ => true
  | _ => false

inductive Step (s : State) : Event → State → Prop where
  | fgets (pc : s.pc = .fgets) : Step s .fgets s.fgets
  | sendto (sendline : List UInt8) (pc : s.pc = .sendto sendline) :
      Step s (.sendto sendline) { s with toClient := s.toClient.sendto sendline, pc := .recvfrom }
  | recvfrom (d : Numbered) (rest : List Numbered) (pc : s.pc = .recvfrom)
      (data : s.socket = d :: rest) :
      Step s .recvfrom { s with toClient := s.toClient.recvfrom, pc := .fputs d }
  | timeout (pc : s.pc = .recvfrom) (none : s.socket = []) :
      Step s (.error EWOULDBLOCK) (s.failed EWOULDBLOCK)
  | error (e : Errno) (pc : s.pc = .recvfrom) (ne : e ≠ EWOULDBLOCK) :
      Step s (.error e) (s.failed e)
  | fputs (d : Numbered) (pc : s.pc = .fputs d) :
      Step s .fputs { s with toClient := s.toClient.fputs d, pc := .fgets }
  | fail (msg : String) (wrapper : s.pc.wrapper = true) :
      Step s (.fail msg) { s with pc := .stopped (.errSys msg) }
  | net (e : NetEvent) (c : Client) (run : s.pc.running = true) (step : NetStep s.toClient e c) :
      Step s (.net e) { s with toClient := c }

/-! ## the client as an asker -/

def Pc.hand : Pc → List Numbered
  | .fputs d => [d]
  | _ => []

/-- a line has been sent and neither answered nor given up -/
def Pc.waiting : Pc → Option Bool
  | .fgets => some false
  | .sendto _ => some false
  | .ret => none
  | .stopped _ => none
  | _ => some true

/-- how the asker sees an event -/
def obs : Event → List (Lag.Event (List UInt8))
  | .sendto sendline => [.ask (cstr sendline)]
  | .fputs => [.answer]
  | .error e => if e = EWOULDBLOCK then [.giveUp] else []
  | .net e => e.obs
  | _ => []

/-- the line at `Sendto` fits into `sendline` -/
def Pc.Fits : Pc → Prop
  | .sendto sendline => sendline.length ≤ MAXLINE
  | _ => True

/-- the client in the state `s` looks like the asker `a` -/
def State.Sees (s : State) (a : Lag.State (List UInt8)) : Prop :=
  Timeo.Sees s.pc.hand s.pc.waiting s.pc.Fits s.toClient a

variable {input : List UInt8} {s t : State} {e : Event} {es : List Event}
  {a : Lag.State (List UInt8)}

theorem State.Sees.at (h : s.Sees a) {pc : Pc} (hpc : s.pc = pc) :
    Timeo.Sees pc.hand pc.waiting pc.Fits s.toClient a := hpc ▸ h

theorem sim : Sim Step Lag.Step obs State.Sees := by
  refine ⟨?_⟩
  intro s e t a h hstep
  cases hstep with
  | fgets pc =>
    have looks := (h.at pc).running
    refine ⟨a, Run.nil, ?_⟩
    unfold State.fgets
    split
    · exact looks.ended trivial
    · rename_i sendline c hc
      obtain ⟨hl, hlen⟩ := looks.fgets hc
      exact hl.sees hlen
  | sendto sendline pc =>
    obtain ⟨b, hb, hl⟩ := (h.at pc).running.sendto (h.at pc).fits
    exact ⟨b, Run.single hb, hl.sees trivial⟩
  | recvfrom d rest pc data =>
    exact ⟨a, Run.nil, ((h.at pc).running.recvfrom data).sees trivial⟩
  | timeout pc none =>
    obtain ⟨b, hb, hl⟩ := (h.at pc).running.timeout
    exact ⟨b, Run.single hb, hl.sees trivial⟩
  | error e pc ne =>
    have hobs : obs (.error e) = [] := if_neg ne
    have ht : s.failed e = { s with pc := .stopped (.errSys "recvfrom error") } := if_neg ne
    rw [hobs, ht]
    exact ⟨a, Run.nil, (h.at pc).end trivial⟩
  | fputs d pc =>
    obtain ⟨b, hb, hl⟩ := (h.at pc).running.fputs
    exact ⟨b, Run.single hb, hl.sees trivial⟩
  | fail msg wrapper =>
    have hand : s.pc.hand = [] := by
      revert wrapper
      cases s.pc <;> simp [Pc.wrapper, Pc.hand]
    have hend : Timeo.Sees s.pc.hand none True s.toClient a := Timeo.Sees.end h trivial
    rw [hand] at hend
    exact ⟨a, Run.nil, hend⟩
  | net e c run step => exact Timeo.Sees.net h step

theorem sees_start (input : List UInt8) : (start input).Sees Lag.start :=
  (looks_start input).sees trivial

theorem sees (h : Run Step (start input) es s) :
    ∃ a, Run Lag.Step Lag.start (es.flatMap obs) a ∧ s.Sees a :=
  sim.run (sees_start input) h

end Rcvtimeo

/-- **The three clients with a time limit.**  In every run what is printed are echoes of lines that
were sent, in order and none twice.  A reply is printed in the iteration of its own line or in a
later one, late by at most the number of time-outs before it; by exactly that number where the
network loses nothing. -/
theorem reported (input : List UInt8) :
    (∀ es s, Run Alarm.Step (Alarm.start input) es s →
      Reported (es.flatMap Alarm.obs) s.pc.waiting s.toClient) ∧
    (∀ es s, Run Select.Step (Select.start input) es s →
      Reported (es.flatMap Select.obs) s.pc.waiting s.toClient) ∧
    ∀ es s, Run Rcvtimeo.Step (Rcvtimeo.start input) es s →
      Reported (es.flatMap Rcvtimeo.obs) s.pc.waiting s.toClient := by
  refine ⟨fun es s h => ?_, fun es s h => ?_, fun es s h => ?_⟩
  · obtain ⟨a, ha, hs⟩ := Alarm.sees h
    exact hs.toReported ha
  · obtain ⟨a, ha, hs⟩ := Select.sees h
    exact hs.toReported ha
  · obtain ⟨a, ha, hs⟩ := Rcvtimeo.sees h
    exact hs.toReported ha

/-- the first line is given up, and its reply is printed for the second -/
theorem reported_late :
    Reported [.ask [97, 10], .giveUp, .ask [98, 10], .answer] (some false)
      ⟨[], [[97, 10], [98, 10]], [([98, 10], 1)], [], [], [97, 10], 1⟩ := by
  have h1 : Run Rcvtimeo.Step (Rcvtimeo.start [97, 10, 98, 10])
      [.fgets, .sendto [97, 10], .error EWOULDBLOCK, .net .echo, .net .arrive]
      ⟨⟨[98, 10], [[97, 10]], [], [], [([97, 10], 0)], [], 1⟩, .fgets⟩ :=
    ((((Run.single (Rcvtimeo.Step.fgets rfl)).snoc (.sendto _ rfl)).snoc
      (.timeout rfl rfl)).snoc (.net _ _ rfl (.echo _ _ rfl))).snoc (.net _ _ rfl (.arrive _ _ rfl))
  have h2 : Run Rcvtimeo.Step (Rcvtimeo.start [97, 10, 98, 10])
      [.fgets, .sendto [97, 10], .error EWOULDBLOCK, .net .echo, .net .arrive, .fgets,
        .sendto [98, 10], .recvfrom, .fputs]
      ⟨⟨[], [[97, 10], [98, 10]], [([98, 10], 1)], [], [], [97, 10], 1⟩, .fgets⟩ :=
    (((h1.snoc (.fgets rfl)).snoc (.sendto [98, 10] rfl)).snoc (.recvfrom ([97, 10], 0) [] rfl rfl)).snoc
      (.fputs ([97, 10], 0) rfl)
  exact (reported [97, 10, 98, 10]).2.2 _ _ h2

end Unp.Timeo
