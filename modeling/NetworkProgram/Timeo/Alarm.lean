import NetworkProgram.Timeo.Client

/-!
# The client that is interrupted by the alarm

`advio/Time_alarm_timeout/Client/main.cpp`: `alarm(5)` before `recvfrom`, `alarm(0)` behind it.
`sig_alrm` only returns, so that `recvfrom` returns `EINTR`.  The signal is never blocked: when the
time is over the handler is called, wherever `dg_cli` is.  Between `alarm(5)` and `recvfrom` there
is a place, `Pc.call`, where the call does nothing.

* `State.failed`     the branch of an error;
* `Step`             the step relation;
* `sim`              the client is an asker that gives up;
* `unlimited_iff`    the runs in which `recvfrom` is never called without a limit.
-/

namespace Unp.Timeo.Alarm

open Trans

inductive Pc where
  | fgets
  | sendto (sendline : List UInt8)
  | alarm
  /-- behind `alarm(5)`, about to enter `recvfrom` -/
  | call
  | recvfrom
  /-- at `alarm(0)` -/
  | cancel (d : Numbered)
  | ret
  | stopped (why : Stop)
  deriving DecidableEq, Repr

structure State extends Client where
  pc : Pc
  /-- the alarm clock is set -/
  timer : Bool

def start (input : List UInt8) : State :=
  { Client.start input with pc := .fgets, timer := false }

/-- `while (Fgets(sendline, MAXLINE, fp) != nullptr)` -/
def State.fgets (s : State) : State :=
  match s.toClient.fgets with
  | none => { s with pc := .ret }
  | some (sendline, c) => { s with toClient := c, pc := .sendto sendline }

/-- `recvfrom` has failed with the errno `e` -/
def State.failed (s : State) (e : Errno) : State :=
  if e = EINTR then { s with toClient := s.toClient.timeout, pc := .fgets }
  else { s with pc := .stopped (.errSys "recvfrom error") }

/-! ## the steps -/

inductive Event where
  | fgets
  | sendto (sendline : List UInt8)
  | alarm
  | call
  | recvfrom
  | error (e : Errno)
  | cancel
  | fail (msg : String)
  /-- the time is over, and `sig_alrm` is called outside `recvfrom` -/
  | sigAlrm
  | net (e : NetEvent)
  deriving DecidableEq, Repr

def Pc.running : Pc → Bool
  | .ret => false
  | .stopped _ => false
  | _ => true

def Pc.wrapper : Pc → Bool
  | .fgets => true
  | .sendto _ => true
  | _ => false

inductive Step (s : State) : Event → State → Prop where
  | fgets (pc : s.pc = .fgets) : Step s .fgets s.fgets
  | sendto (sendline : List UInt8) (pc : s.pc = .sendto sendline) :
      Step s (.sendto sendline) { s with toClient := s.toClient.sendto sendline, pc := .alarm }
  | alarm (pc : s.pc = .alarm) : Step s .alarm { s with timer := true, pc := .call }
  | call (pc : s.pc = .call) : Step s .call { s with pc := .recvfrom }
  | recvfrom (d : Numbered) (rest : List Numbered) (pc : s.pc = .recvfrom)
      (data : s.socket = d :: rest) :
      Step s .recvfrom { s with toClient := s.toClient.recvfrom, pc := .cancel d }
  /-- the time is over in `recvfrom` -/
  | eintr (pc : s.pc = .recvfrom) (timer : s.timer = true) :
      Step s (.error EINTR) (State.failed { s with timer := false } EINTR)
  | error (e : Errno) (pc : s.pc = .recvfrom) (ne : e ≠ EINTR) : Step s (.error e) (s.failed e)
  /-- `alarm(0);`, and the line is printed -/
  | cancel (d : Numbered) (pc : s.pc = .cancel d) :
      Step s .cancel { s with toClient := s.toClient.fputs d, timer := false, pc := .fgets }
  /-- `Fgets` or `Sendto` gives up -/
  | fail (msg : String) (wrapper : s.pc.wrapper = true) :
      Step s (.fail msg) { s with pc := .stopped (.errSys msg) }
  | sigAlrm (run : s.pc.running = true) (pc : s.pc ≠ .recvfrom) (timer : s.timer = true) :
      Step s .sigAlrm { s with timer := false }
  | net (e : NetEvent) (c : Client) (run : s.pc.running = true) (step : NetStep s.toClient e c) :
      Step s (.net e) { s with toClient := c }

/-! ## the client as an asker -/

def Pc.hand : Pc → List Numbered
  | .cancel d => [d]
  | _ => []

/-- a line has been sent and neither answered nor given up -/
def Pc.waiting : Pc → Option Bool
  | .fgets => some false
  | .sendto _ => some false
  | .ret => none
  | .stopped _ => none
  | _ => some true

/-- how the asker sees an event -/
def obs : Event → List (Lag.Event (List UInt8))
  | .sendto sendline => [.ask (cstr sendline)]
  | .cancel => [.answer]
  | .error e => if e = EINTR then [.giveUp] else []
  | .net e => e.obs
  | _ => []

/-- the line at `Sendto` fits into `sendline` -/
def Pc.Fits : Pc → Prop
  | .sendto sendline => sendline.length ≤ MAXLINE
  | _ => True

/-- the client in the state `s` looks like the asker `a` -/
def State.Sees (s : State) (a : Lag.State (List UInt8)) : Prop :=
  Timeo.Sees s.pc.hand s.pc.waiting s.pc.Fits s.toClient a

variable {input : List UInt8} {s t : State} {e : Event} {es : List Event}
  {a : Lag.State (List UInt8)}

theorem State.Sees.at (h : s.Sees a) {pc : Pc} (hpc : s.pc = pc) :
    Timeo.Sees pc.hand pc.waiting pc.Fits s.toClient a := hpc ▸ h

theorem sim : Sim Step Lag.Step obs State.Sees := by
  refine ⟨?_⟩
  intro s e t a h hstep
  cases hstep with
  | fgets pc =>
    have looks := (h.at pc).running
    refine ⟨a, Run.nil, ?_⟩
    unfold State.fgets
    split
    · exact looks.ended trivial
    · rename_i sendline c hc
      obtain ⟨hl, hlen⟩ := looks.fgets hc
      exact hl.sees hlen
  | sendto sendline pc =>
    obtain ⟨b, hb, hl⟩ := (h.at pc).running.sendto (h.at pc).fits
    exact ⟨b, Run.single hb, hl.sees trivial⟩
  | alarm pc =>
    have hl := h.at pc
    exact ⟨a, Run.nil, hl⟩
  | call pc =>
    have hl := h.at pc
    exact ⟨a, Run.nil, hl⟩
  | recvfrom d rest pc data =>
    exact ⟨a, Run.nil, ((h.at pc).running.recvfrom data).sees trivial⟩
  | eintr pc timer =>
    obtain ⟨b, hb, hl⟩ := (h.at pc).running.timeout
    exact ⟨b, Run.single hb, hl.sees trivial⟩
  | error e pc ne =>
    have hobs : obs (.error e) = [] := if_neg ne
    have ht : s.failed e = { s with pc := .stopped (.errSys "recvfrom error") } := if_neg ne
    rw [hobs, ht]
    exact ⟨a, Run.nil, (h.at pc).end trivial⟩
  | cancel d pc =>
    obtain ⟨b, hb, hl⟩ := (h.at pc).running.fputs
    exact ⟨b, Run.single hb, hl.sees trivial⟩
  | fail msg wrapper =>
    have hand : s.pc.hand = [] := by
      revert wrapper
      cases s.pc <;> simp [Pc.wrapper, Pc.hand]
    have hend : Timeo.Sees s.pc.hand none True s.toClient a := Timeo.Sees.end h trivial
    rw [hand] at hend
    exact ⟨a, Run.nil, hend⟩
  | sigAlrm run pc timer => exact ⟨a, Run.nil, h⟩
  | net e c run step => exact Timeo.Sees.net h step

theorem sees_start (input : List UInt8) : (start input).Sees Lag.start :=
  (looks_start input).sees trivial

theorem sees (h : Run Step (start input) es s) :
    ∃ a, Run Lag.Step Lag.start (es.flatMap obs) a ∧ s.Sees a :=
  sim.run (sees_start input) h

/-! ## waiting without a limit -/

/-- `dg_cli` waits in `recvfrom`, or is about to call it, and no alarm will interrupt it -/
def State.Unlimited (s : State) : Prop := (s.pc = .call ∨ s.pc = .recvfrom) ∧ s.timer = false

/-- the alarm does not come between `alarm(5)` and `recvfrom` -/
def InTime (s : State) (e : Event) : Prop := e = .sigAlrm → s.pc ≠ .call

theorem limited_iff (hs : ¬ s.Unlimited) (h : Step s e t) : ¬ t.Unlimited ↔ InTime s e := by
  have hother {e : Event} (hne : e ≠ .sigAlrm) : InTime s e := fun he => absurd he hne
  have hgone {t : State} (h1 : t.pc ≠ .call) (h2 : t.pc ≠ .recvfrom) : ¬ t.Unlimited :=
    fun hu => hu.1.elim h1 h2
  cases h with
  | fgets pc =>
    refine iff_of_true ?_ (hother nofun)
    unfold State.fgets
    split <;> exact hgone nofun nofun
  | sendto sendline pc => exact iff_of_true (hgone nofun nofun) (hother nofun)
  | alarm pc => exact iff_of_true (fun hu => Bool.noConfusion hu.2) (hother nofun)
  | call pc => exact iff_of_true (fun hu => hs ⟨Or.inl pc, hu.2⟩) (hother nofun)
  | recvfrom d rest pc data => exact iff_of_true (hgone nofun nofun) (hother nofun)
  | eintr pc timer => exact iff_of_true (hgone nofun nofun) (hother nofun)
  | error e pc ne =>
    have ht : s.failed e = { s with pc := .stopped (.errSys "recvfrom error") } := if_neg ne
    rw [ht]
    exact iff_of_true (hgone nofun nofun) (hother nofun)
  | cancel d pc => exact iff_of_true (hgone nofun nofun) (hother nofun)
  | fail msg wrapper => exact iff_of_true (hgone nofun nofun) (hother nofun)
  | sigAlrm run pc timer =>
    constructor
    · exact fun hu _ hcall => hu ⟨Or.inl hcall, rfl⟩
    · exact fun hin hu => hu.1.elim (hin rfl) pc
  | net e c run step => exact iff_of_true (fun hu => hs hu) (hother nofun)

/-- **When the alarm is of no use.**  The runs in which `dg_cli` never comes to wait without a limit
are those in which no alarm comes between `alarm(5)` and `recvfrom`. -/
theorem unlimited_iff (input : List UInt8) (es : List Event) (s : State) :
    Run (Obey (fun _ _ u => ¬ u.Unlimited) Step) (start input) es s ↔
      Run (When InTime Step) (start input) es s :=
  Run.obey_iff_when (fun s => ¬ s.Unlimited) (fun hu => hu.1.elim nofun nofun)
    (fun _ _ _ hs h => limited_iff hs h) (fun _ _ _ hs h => (limited_iff hs h.2).mpr h.1)

end Unp.Timeo.Alarm
