import NetworkProgram.Timeo.Client

/-!
# The client that asks select first

`advio/Time_select_timeout/Client/main.cpp` with `readable_timeo.cpp`: `recvfrom` is called when
`select` has reported a datagram within five seconds.

* `State.readable`   the branch on what `Readable_timeo` returns;
* `Step`             the step relation;
* `sim`              the client is an asker that gives up.
-/

namespace Unp.Timeo.Select

open Trans

inductive Pc where
  | fgets
  | sendto (sendline : List UInt8)
  | readable
  | recvfrom
  | fputs (d : Numbered)
  | ret
  | stopped (why : Stop)
  deriving DecidableEq, Repr

structure State extends Client where
  pc : Pc

def start (input : List UInt8) : State := { Client.start input with pc := .fgets }

/-- `while (Fgets(sendline, MAXLINE, fp) != nullptr)` -/
def State.fgets (s : State) : State :=
  match s.toClient.fgets with
  | none => { s with pc := .ret }
  | some (sendline, c) => { s with toClient := c, pc := .sendto sendline }

/-- `Readable_timeo(sockfd, 5)`, when `select` returns `n` -/
def State.readable (s : State) (n : Int) : State :=
  if n < 0 then { s with pc := .stopped (.errSys "readable_timeo error") }
  else if n = 0 then { s with toClient := s.toClient.timeout, pc := .fgets }
  else { s with pc := .recvfrom }

/-! ## the steps -/

inductive Event where
  | fgets
  | sendto (sendline : List UInt8)
  | readable (n : Int)
  | recvfrom
  | fputs
  | fail (msg : String)
  | net (e : NetEvent)
  deriving DecidableEq, Repr

def Pc.running : Pc → Bool
  | .ret => false
  | .stopped _ => false
  | _ => true

/-- the statement calls a wrapper that ends the process when the system call fails -/
def Pc.wrapper : Pc → Bool
  | .fgets => true
  | .sendto _ => true
  | .recvfrom => true
  | _ => false

inductive Step (s : State) : Event → State → Prop where
  | fgets (pc : s.pc = .fgets) : Step s .fgets s.fgets
  | sendto (sendline : List UInt8) (pc : s.pc = .sendto sendline) :
      Step s (.sendto sendline) { s with toClient := s.toClient.sendto sendline, pc := .readable }
  | ready (pc : s.pc = .readable) (data : s.socket ≠ []) : Step s (.readable 1) (s.readable 1)
  | timeout (pc : s.pc = .readable) (none : s.socket = []) : Step s (.readable 0) (s.readable 0)
  | error (pc : s.pc = .readable) : Step s (.readable (-1)) (s.readable (-1))
  | recvfrom (d : Numbered) (rest : List Numbered) (pc : s.pc = .recvfrom)
      (data : s.socket = d :: rest) :
      Step s .recvfrom { s with toClient := s.toClient.recvfrom, pc := .fputs d }
  | fputs (d : Numbered) (pc : s.pc = .fputs d) :
      Step s .fputs { s with toClient := s.toClient.fputs d, pc := .fgets }
  | fail (msg : String) (wrapper : s.pc.wrapper = true) :
      Step s (.fail msg) { s with pc := .stopped (.errSys msg) }
  | net (e : NetEvent) (c : Client) (run : s.pc.running = true) (step : NetStep s.toClient e c) :
      Step s (.net e) { s with toClient := c }

/-! ## the client as an asker -/

def Pc.hand : Pc → List Numbered
  | .fputs d => [d]
  | _ => []

/-- a line has been sent and neither answered nor given up -/
def Pc.waiting : Pc → Option Bool
  | .fgets => some false
  | .sendto _ => some false
  | .ret => none
  | .stopped _ => none
  | _ => some true

/-- how the asker sees an event -/
def obs : Event → List (Lag.Event (List UInt8))
  | .sendto sendline => [.ask (cstr sendline)]
  | .fputs => [.answer]
  | .readable n => if n = 0 then [.giveUp] else []
  | .net e => e.obs
  | _ => []

/-- the line at `Sendto` fits into `sendline` -/
def Pc.Fits : Pc → Prop
  | .sendto sendline => sendline.length ≤ MAXLINE
  | _ => True

/-- the client in the state `s` looks like the asker `a` -/
def State.Sees (s : State) (a : Lag.State (List UInt8)) : Prop :=
  Timeo.Sees s.pc.hand s.pc.waiting s.pc.Fits s.toClient a

variable {input : List UInt8} {s t : State} {e : Event} {es : List Event}
  {a : Lag.State (List UInt8)}

theorem State.Sees.at (h : s.Sees a) {pc : Pc} (hpc : s.pc = pc) :
    Timeo.Sees pc.hand pc.waiting pc.Fits s.toClient a := hpc ▸ h

theorem sim : Sim Step Lag.Step obs State.Sees := by
  refine ⟨?_⟩
  intro s e t a h hstep
  cases hstep with
  | fgets pc =>
    have looks := (h.at pc).running
    refine ⟨a, Run.nil, ?_⟩
    unfold State.fgets
    split
    · exact looks.ended trivial
    · rename_i sendline c hc
      obtain ⟨hl, hlen⟩ := looks.fgets hc
      exact hl.sees hlen
  | sendto sendline pc =>
    obtain ⟨b, hb, hl⟩ := (h.at pc).running.sendto (h.at pc).fits
    exact ⟨b, Run.single hb, hl.sees trivial⟩
  | ready pc data =>
    have hl := h.at pc
    exact ⟨a, Run.nil, hl⟩
  | timeout pc none =>
    obtain ⟨b, hb, hl⟩ := (h.at pc).running.timeout
    exact ⟨b, Run.single hb, hl.sees trivial⟩
  | error pc => exact ⟨a, Run.nil, (h.at pc).end trivial⟩
  | recvfrom d rest pc data =>
    exact ⟨a, Run.nil, ((h.at pc).running.recvfrom data).sees trivial⟩
  | fputs d pc =>
    obtain ⟨b, hb, hl⟩ := (h.at pc).running.fputs
    exact ⟨b, Run.single hb, hl.sees trivial⟩
  | fail msg wrapper =>
    have hand : s.pc.hand = [] := by
      revert wrapper
      cases s.pc <;> simp [Pc.wrapper, Pc.hand]
    have hend : Timeo.Sees s.pc.hand none True s.toClient a := Timeo.Sees.end h trivial
    rw [hand] at hend
    exact ⟨a, Run.nil, hend⟩
  | net e c run step => exact Timeo.Sees.net h step

theorem sees_start (input : List UInt8) : (start input).Sees Lag.start :=
  (looks_start input).sees trivial

theorem sees (h : Run Step (start input) es s) :
    ∃ a, Run Lag.Step Lag.start (es.flatMap obs) a ∧ s.Sees a :=
  sim.run (sees_start input) h

end Unp.Timeo.Select
