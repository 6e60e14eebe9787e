import NetworkProgram.Broadcast.Client

/-!
# The broadcast client with pselect

`broadcast/dgclient_broadcast4/main.cpp`: `SIGALRM` is blocked, and `pselect` lets it through while
it waits.  A step is a statement of `dg_cli`, a datagram, or the alarm; when `pselect` has both a
datagram and a signal to report, it reports either of them.

* `State.fgets`, `State.pselect`   the statements that branch;
* `Step`                           the step relation;
* `sim`                            the client is a collector that loses no reply;
* `keeps_replies`                  what holds of every run.
-/

namespace Unp.Broadcast.Pselect

open Trans

/-- the statement `dg_cli` is at; behind `Recvfrom` it holds the datagram -/
inductive Pc where
  | fgets
  | sendto (sendline : List UInt8)
  | sigprocmask
  | alarm
  | pselect
  | recvfrom
  | printf (d : Datagram)
  | ret
  | stopped (why : Stop)
  deriving DecidableEq, Repr

structure State extends Client where
  pc : Pc
  /-- `SIGALRM` is in the signal mask -/
  blocked : Bool

def start (input : List UInt8) : State := { Client.start input with pc := .fgets, blocked := false }

/-- `while (Fgets(sendline, MAXLINE, fp) != nullptr)` -/
def State.fgets (s : State) : State :=
  match s.toClient.fgets with
  | none => { s with pc := .ret }
  | some (sendline, c) => { s with toClient := c, pc := .sendto sendline }

/-- `pselect` returns `n`, with the errno `e` -/
def State.pselect (s : State) (n : Int) (e : Errno) : State :=
  if n < 0 then
    if e = EINTR then { s with pc := .fgets }
    else { s with pc := .stopped (.errSys "pselect error: returned %d") }
  else if n ≠ 1 then { s with pc := .stopped (.errSys "pselect error: returned %d") }
  else { s with pc := .recvfrom }

/-! ## the steps -/

inductive Event where
  | fgets
  | sendto (sendline : List UInt8)
  | sigprocmask
  | alarm
  | pselect (n : Int) (e : Errno)
  | recvfrom
  | printf (d : Datagram)
  | fail (msg : String)
  | arrive (d : Datagram)
  | expire
  | deliver
  deriving DecidableEq, Repr

def Pc.running : Pc → Bool
  | .ret => false
  | .stopped _ => false
  | _ => true

/-- the statement calls a wrapper that ends the process when the system call fails -/
def Pc.wrapper : Pc → Bool
  | .fgets => true
  | .sendto _ => true
  | .sigprocmask => true
  | .recvfrom => true
  | _ => false

inductive Step (servlen : Nat) (s : State) : Event → State → Prop where
  | fgets (pc : s.pc = .fgets) : Step servlen s .fgets s.fgets
  | sendto (sendline : List UInt8) (pc : s.pc = .sendto sendline) :
      Step servlen s (.sendto sendline)
        { s with toClient := s.toClient.sendto sendline, pc := .sigprocmask }
  | sigprocmask (pc : s.pc = .sigprocmask) :
      Step servlen s .sigprocmask { s with blocked := true, pc := .alarm }
  | alarm (pc : s.pc = .alarm) :
      Step servlen s .alarm { s with toClient := s.toClient.alarm, pc := .pselect }
  | ready (pc : s.pc = .pselect) (data : s.queue ≠ []) :
      Step servlen s (.pselect 1 0) (s.pselect 1 0)
  /-- the mask is empty in `pselect`: `recvfrom_alarm` is called there -/
  | eintr (pc : s.pc = .pselect) (pending : s.pending = true) :
      Step servlen s (.pselect (-1) EINTR)
        (State.pselect { s with toClient := s.toClient.take } (-1) EINTR)
  | error (e : Errno) (pc : s.pc = .pselect) (ne : e ≠ EINTR) :
      Step servlen s (.pselect (-1) e) (s.pselect (-1) e)
  | recvfrom (d : Datagram) (rest : List Datagram) (pc : s.pc = .recvfrom)
      (data : s.queue = d :: rest) :
      Step servlen s .recvfrom { s with toClient := s.toClient.recvfrom, pc := .printf d }
  | printf (d : Datagram) (pc : s.pc = .printf d) :
      Step servlen s (.printf d) { s with toClient := s.toClient.printf servlen d, pc := .pselect }
  /-- the wrapper of a system call gives up -/
  | fail (msg : String) (wrapper : s.pc.wrapper = true) :
      Step servlen s (.fail msg) { s with pc := .stopped (.errSys msg) }
  | arrive (d : Datagram) (run : s.pc.running = true) :
      Step servlen s (.arrive d) { s with toClient := s.toClient.arrive d }
  | expire (run : s.pc.running = true) (timer : s.timer = true) :
      Step servlen s .expire { s with toClient := s.toClient.expire }
  /-- `recvfrom_alarm` is called outside `pselect` -/
  | deliver (run : s.pc.running = true) (unblocked : s.blocked = false) (pending : s.pending = true) :
      Step servlen s .deliver { s with toClient := s.toClient.take }

/-! ## what the statements do -/

def Pc.phase : Pc → Phase
  | .fgets => .idle
  | .sendto _ => .idle
  | .sigprocmask => .asked
  | .alarm => .asked
  | .pselect => .collecting
  | .recvfrom => .collecting
  | .printf _ => .collecting
  | .ret => .gone
  | .stopped _ => .gone

/-- what has been taken off the buffer and not printed -/
def Pc.hand : Pc → List Datagram
  | .printf d => [d]
  | _ => []

/-- `Sigprocmask` has been called since the line was sent -/
def Pc.masked : Pc → Bool
  | .alarm => true
  | .pselect => true
  | .recvfrom => true
  | .printf _ => true
  | _ => false

structure State.Inv (s : State) : Prop where
  timed : Timed s.pc.phase 0 s.toClient
  mask : s.pc.masked = true → s.blocked = true
  data : s.pc = .recvfrom → s.queue ≠ []

/-- how the collector sees an event -/
def obs : Event → List (Collect.Event (List UInt8) Datagram)
  | .sendto sendline => [.ask (cstr sendline)]
  | .pselect n e => if n < 0 ∧ e = EINTR then [.stop none] else []
  | .printf d => [.put d]
  | .arrive d => [.arrive d]
  | .expire => [.expire]
  | _ => []

def Event.arrived : Event → List Datagram
  | .arrive d => [d]
  | _ => []

variable {servlen : Nat} {input : List UInt8} {s t : State} {e : Event} {es : List Event}

theorem Pc.phase_ne_gone {pc : Pc} (h : pc.running = true) : pc.phase ≠ .gone := by
  cases pc <;> simp_all [Pc.phase, Pc.running]

theorem State.Inv.stopped {why : Stop} (h : s.pc = .stopped why) : s.Inv := by
  refine ⟨?_, ?_, ?_⟩
  · rw [h]
    exact timed_gone 0 _
  · rw [h]
    exact nofun
  · rw [h]
    exact nofun

theorem fgets_cases (s : State) :
    (s.toClient.fgets = none ∧ s.fgets = { s with pc := .ret }) ∨
    ∃ sendline c, s.toClient.fgets = some (sendline, c) ∧
      s.fgets = { s with toClient := c, pc := .sendto sendline } := by
  unfold State.fgets
  cases h : s.toClient.fgets with
  | none => exact Or.inl ⟨rfl, rfl⟩
  | some r => exact Or.inr ⟨r.1, r.2, rfl, rfl⟩

theorem inv_start : (start input).Inv :=
  ⟨Timed.idle rfl rfl, nofun, nofun⟩

/-- every place of the five seconds is behind `Sigprocmask` -/
theorem State.Inv.not_delivered (hs : s.Inv) (run : s.pc.running = true)
    (pending : s.pending = true) : s.blocked = true := by
  have hc := hs.timed.collecting (Pc.phase_ne_gone run) (Or.inr (Or.inl pending))
  refine hs.mask ?_
  revert hc
  cases s.pc <;> simp [Pc.phase, Pc.masked]

theorem Step.inv (h : Step servlen s e t) (hs : s.Inv) : t.Inv := by
  have hmask := hs.not_delivered
  obtain ⟨timed, mask, data⟩ := hs
  cases h with
  | fgets pc =>
    rw [pc] at timed
    obtain ⟨-, ht⟩ | ⟨sendline, c, hc, ht⟩ := fgets_cases s
    · rw [ht]
      exact ⟨timed_gone 0 _, nofun, nofun⟩
    · rw [ht]
      obtain ⟨fp, rfl⟩ := Client.fgets_some hc
      exact ⟨⟨timed.before, timed.one⟩, nofun, nofun⟩
  | sendto sendline pc =>
    rw [pc] at timed
    exact ⟨⟨timed.asked.before, timed.asked.one⟩, nofun, nofun⟩
  | sigprocmask pc =>
    rw [pc] at timed
    exact ⟨timed, fun _ => rfl, nofun⟩
  | alarm pc =>
    rw [pc] at timed mask
    exact ⟨timed.alarm, fun _ => mask rfl, nofun⟩
  | ready pc hdata =>
    rw [pc] at timed mask
    exact ⟨timed, fun _ => mask rfl, fun _ => hdata⟩
  | eintr pc pending =>
    rw [pc] at timed
    exact ⟨Timed.idle (timed.past pending).1 rfl, nofun, nofun⟩
  | error e pc ne =>
    have ht : s.pselect (-1) e =
        { s with pc := .stopped (.errSys "pselect error: returned %d") } := if_neg ne
    rw [ht]
    exact State.Inv.stopped rfl
  | recvfrom d rest pc hdata =>
    rw [pc] at timed mask
    exact ⟨⟨timed.before, timed.one⟩, fun _ => mask rfl, nofun⟩
  | printf d pc =>
    rw [pc] at timed mask
    exact ⟨⟨timed.before, timed.one⟩, fun _ => mask rfl, nofun⟩
  | fail msg wrapper => exact State.Inv.stopped rfl
  | arrive d run =>
    exact ⟨⟨timed.before, timed.one⟩, mask, fun h => by simp [Client.arrive]⟩
  | expire run timer =>
    have hc := timed.collecting (Pc.phase_ne_gone run) (Or.inl timer)
    rw [hc] at timed
    refine ⟨?_, mask, data⟩
    show Timed s.pc.phase 0 _
    rw [hc]
    exact timed.expire timer
  | deliver run unblocked pending =>
    rw [hmask run pending] at unblocked
    cases unblocked

theorem Run.inv (h : Run (Step servlen) (start input) es s) : s.Inv :=
  Trans.Run.inv inv_start (fun _ _ _ hs he => he.inv hs) h

/-! ## the client as a collector -/

/-- the client in the state `s` looks like the collector `a` -/
def State.Sees (servlen : Nat) (s : State) (a : Collect.State (List UInt8) Datagram) : Prop :=
  Broadcast.Sees s.Inv servlen s.pc.hand s.pc.phase s.toClient a

theorem sim (servlen : Nat) : Sim (Step servlen) Collect.Step obs (State.Sees servlen) := by
  refine ⟨?_⟩
  rintro s e t a ⟨inv, looks⟩ hstep
  have ht := hstep.inv inv
  cases hstep with
  | fgets pc =>
    rw [pc] at looks
    refine Sees.quiet ht ?_
    obtain ⟨-, hs⟩ | ⟨sendline, c, hc, hs⟩ := fgets_cases s
    · rw [hs]
      exact looks.gone
    · rw [hs]
      exact looks.fgets hc
  | sendto sendline pc =>
    rw [pc] at looks
    exact Sees.one ht (looks.sendto sendline)
  | sigprocmask pc =>
    rw [pc] at looks
    exact Sees.quiet ht looks
  | alarm pc =>
    rw [pc] at looks
    exact Sees.quiet ht looks.alarm
  | ready pc data =>
    rw [pc] at looks
    exact Sees.quiet ht looks
  | eintr pc pending =>
    rw [pc] at looks
    have timed := inv.timed
    rw [pc] at timed
    exact Sees.one ht (looks.take.stop (timed.past pending).1)
  | error e pc ne =>
    rw [pc] at looks
    have hobs : obs (.pselect (-1) e) = [] := if_neg (fun h => ne h.2)
    have hs : s.pselect (-1) e =
        { s with pc := .stopped (.errSys "pselect error: returned %d") } := if_neg ne
    rw [hobs]
    refine Sees.quiet ht ?_
    rw [hs]
    exact looks.gone
  | recvfrom d rest pc data =>
    rw [pc] at looks
    exact Sees.quiet ht (looks.recvfrom data)
  | printf d pc =>
    rw [pc] at looks
    exact Sees.one ht looks.printf
  | fail msg wrapper =>
    have hand : s.pc.hand = [] := by
      revert wrapper
      cases s.pc <;> simp [Pc.wrapper, Pc.hand]
    rw [hand] at looks
    exact Sees.quiet ht looks.gone
  | arrive d run =>
    exact ⟨_, Run.single (.arrive d), ht, looks.arrive d⟩
  | expire run timer =>
    have hc := inv.timed.collecting (Pc.phase_ne_gone run) (Or.inl timer)
    refine Sees.one ht ?_
    show ∃ b, _ ∧ Looks servlen s.pc.hand s.pc.phase _ b
    rw [hc] at looks ⊢
    exact looks.expire timer
  | deliver run unblocked pending => exact Sees.quiet ht looks.take

theorem sees (h : Run (Step servlen) (start input) es s) :
    ∃ a, Run Collect.Step Collect.start (es.flatMap obs) a ∧ s.Sees servlen a :=
  (sim servlen).run ⟨inv_start, looks_start input⟩ h

theorem obs_keeps (e : Event) : ∀ x ∈ obs e, x.Keeps := by
  intro x hx
  cases e with
  | pselect n e =>
    rw [obs] at hx
    split at hx
    · rw [List.mem_singleton.mp hx]
      trivial
    · cases hx
  | sendto | printf | arrive | expire =>
    rw [List.mem_singleton.mp hx]
    trivial
  | fgets | sigprocmask | alarm | recvfrom | fail | deliver => cases hx

theorem keeps_of_obs (es : List Event) : ∀ x ∈ es.flatMap obs, x.Keeps := by
  intro x hx
  obtain ⟨e, -, he⟩ := List.mem_flatMap.mp hx
  exact obs_keeps e x he

theorem obs_arrived (es : List Event) :
    (es.flatMap obs).flatMap Collect.Event.arrived = es.flatMap Event.arrived := by
  rw [List.flatMap_assoc]
  refine List.flatMap_congr fun e _ => ?_
  cases e with
  | pselect n e =>
    rw [obs]
    split <;> rfl
  | _ => rfl

theorem deliver_notMem (h : Run (Step servlen) (start input) es s) : Event.deliver ∉ es := by
  induction h with
  | nil => exact List.not_mem_nil
  | snoc hr he ih =>
    intro hmem
    rcases List.mem_append.mp hmem with hmem | hmem
    · exact ih hmem
    · rw [← List.mem_singleton.mp hmem] at he
      cases he with
      | deliver run unblocked pending =>
        rw [(Run.inv hr).not_delivered run pending] at unblocked
        cases unblocked

/-- **The client with pselect.**  It is a collector that loses no reply: what has arrived is printed
in order or waits, every line that is done with has had one alarm, the handler is called in
`pselect` only, and `pselect` is never called without an alarm to come. -/
theorem pselect_collects (h : Run (Step servlen) (start input) es s) :
    (∃ a, Run Collect.Step Collect.start (es.flatMap obs) a ∧ s.Sees servlen a) ∧
    s.stdout ++ (s.pc.hand ++ s.queue).map (out servlen) =
      (es.flatMap Event.arrived).map (out servlen) ∧
    (s.pc.phase = .idle → (es.flatMap obs).countP Collect.Event.expires = s.sent.length) ∧
    (s.pc.phase = .collecting → s.timer = true ∨ s.pending = true) ∧
    Event.deliver ∉ es := by
  obtain ⟨a, ha, inv, looks⟩ := sees h
  refine ⟨⟨a, ha, inv, looks⟩, ?_, fun hidle => ?_, fun hc => ?_, deliver_notMem h⟩
  · rw [looks.replies ha (keeps_of_obs es), obs_arrived]
  · rw [hidle] at looks
    exact looks.rounds ha
  · have timed := inv.timed
    rw [hc] at timed
    simpa using timed.coming

/-- one line, with one reply to it -/
theorem pselect_collects_one :
    (([.fgets, .sendto [97, 10], .sigprocmask, .alarm, .arrive ⟨[1], [98]⟩, .pselect 1 0, .recvfrom,
      .printf ⟨[1], [98]⟩, .expire, .pselect (-1) EINTR] : List Event).flatMap obs).countP
        Collect.Event.expires = 1 := by
  have h : Run (Step 16) (start [97, 10])
      [.fgets, .sendto [97, 10], .sigprocmask, .alarm, .arrive ⟨[1], [98]⟩, .pselect 1 0, .recvfrom,
        .printf ⟨[1], [98]⟩, .expire, .pselect (-1) EINTR]
      ⟨⟨[], [[97, 10]], [], [⟨[1], 1, [98]⟩], false, false⟩, .fgets, true⟩ :=
    (((((((((Run.single (Step.fgets rfl)).snoc (Step.sendto _ rfl)).snoc
      (Step.sigprocmask rfl)).snoc (Step.alarm rfl)).snoc (Step.arrive _ rfl)).snoc
      (Step.ready rfl (by decide))).snoc (Step.recvfrom _ _ rfl rfl)).snoc
      (Step.printf _ rfl)).snoc (Step.expire rfl rfl)).snoc (Step.eintr rfl rfl)
  exact (pselect_collects h).2.2.1 rfl

end Unp.Broadcast.Pselect
