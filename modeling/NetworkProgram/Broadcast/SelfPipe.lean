import NetworkProgram.Broadcast.Client

/-!
# The broadcast client with a pipe to itself

`broadcast/dgclient_broadcast6/main.cpp`: `recvfrom_alarm` writes a byte into a pipe, and `select`
waits for the socket and for the pipe.  The handler is called anywhere, between two statements or in
`select`, which then returns `EINTR`.  `select` marks all that is ready when it returns; the `Write`
of the handler does not fail.

* `State.fgets`, `State.select`, `Pc.behind`   the statements that branch;
* `Step`                                       the step relation;
* `sim`                                        the client is a collector that loses no reply;
* `selfPipe_collects`                          what holds of every run.
-/

namespace Unp.Broadcast.SelfPipe

open Trans

/-- the statement `dg_cli` is at, with the `FD_ISSET` of the pipe that it comes to next -/
inductive Pc where
  | fgets
  | sendto (sendline : List UInt8)
  | alarm
  | select
  | recvfrom (pipeSet : Bool)
  | printf (d : Datagram) (pipeSet : Bool)
  | read
  | ret
  | stopped (why : Stop)
  deriving DecidableEq, Repr

structure State extends Client where
  pc : Pc
  /-- the bytes in the pipe -/
  pipe : Nat

def start (input : List UInt8) : State := { Client.start input with pc := .fgets, pipe := 0 }

/-- `while (Fgets(sendline, MAXLINE, fp) != nullptr)` -/
def State.fgets (s : State) : State :=
  match s.toClient.fgets with
  | none => { s with pc := .ret }
  | some (sendline, c) => { s with toClient := c, pc := .sendto sendline }

/-- `if (FD_ISSET(pipefd[0], &rset))`, behind the `if` of the socket -/
def Pc.behind (pipeSet : Bool) : Pc := if pipeSet then .read else .select

/-- `select` returns `n`, with the errno `e` or with what is marked in `rset` -/
def State.select (s : State) (n : Int) (e : Errno) (sockSet pipeSet : Bool) : State :=
  if n < 0 then
    if e = EINTR then s
    else { s with pc := .stopped (.errSys "select error") }
  else if sockSet then { s with pc := .recvfrom pipeSet }
  else { s with pc := Pc.behind pipeSet }

/-- `recvfrom_alarm`: `Write(pipefd[1], ch, 1)` -/
def State.alarmed (s : State) : State :=
  { s with toClient := s.toClient.take, pipe := s.pipe + 1 }

/-- the socket is readable -/
def State.sockReady (s : State) : Bool := !s.queue.isEmpty

/-- the pipe is readable -/
def State.pipeReady (s : State) : Bool := decide (0 < s.pipe)

/-- how many are ready -/
def State.ready (s : State) : Nat := s.sockReady.toNat + s.pipeReady.toNat

/-! ## the steps -/

inductive Event where
  | fgets
  | sendto (sendline : List UInt8)
  | alarm
  | select (n : Int) (e : Errno)
  | recvfrom
  | printf (d : Datagram)
  | read
  | fail (msg : String)
  | arrive (d : Datagram)
  | expire
  | deliver
  deriving DecidableEq, Repr

def Pc.running : Pc → Bool
  | .ret => false
  | .stopped _ => false
  | _ => true

/-- the statement calls a wrapper that ends the process when the system call fails -/
def Pc.wrapper : Pc → Bool
  | .fgets => true
  | .sendto _ => true
  | .recvfrom _ => true
  | .read => true
  | _ => false

inductive Step (servlen : Nat) (s : State) : Event → State → Prop where
  | fgets (pc : s.pc = .fgets) : Step servlen s .fgets s.fgets
  | sendto (sendline : List UInt8) (pc : s.pc = .sendto sendline) :
      Step servlen s (.sendto sendline)
        { s with toClient := s.toClient.sendto sendline, pc := .alarm }
  | alarm (pc : s.pc = .alarm) :
      Step servlen s .alarm { s with toClient := s.toClient.alarm, pc := .select }
  | select (pc : s.pc = .select) (data : 0 < s.ready) :
      Step servlen s (.select s.ready 0) (s.select s.ready 0 s.sockReady s.pipeReady)
  | eintr (pc : s.pc = .select) (pending : s.pending = true) :
      Step servlen s (.select (-1) EINTR) (s.alarmed.select (-1) EINTR true true)
  | error (e : Errno) (pc : s.pc = .select) (ne : e ≠ EINTR) :
      Step servlen s (.select (-1) e) (s.select (-1) e true true)
  | recvfrom (d : Datagram) (rest : List Datagram) (pipeSet : Bool) (pc : s.pc = .recvfrom pipeSet)
      (data : s.queue = d :: rest) :
      Step servlen s .recvfrom { s with toClient := s.toClient.recvfrom, pc := .printf d pipeSet }
  | printf (d : Datagram) (pipeSet : Bool) (pc : s.pc = .printf d pipeSet) :
      Step servlen s (.printf d)
        { s with toClient := s.toClient.printf servlen d, pc := Pc.behind pipeSet }
  /-- `Read(pipefd[0], &n, 1)`, which waits for a byte -/
  | read (pc : s.pc = .read) (data : 0 < s.pipe) :
      Step servlen s .read { s with pipe := s.pipe - 1, pc := .fgets }
  /-- the wrapper of a system call gives up -/
  | fail (msg : String) (wrapper : s.pc.wrapper = true) :
      Step servlen s (.fail msg) { s with pc := .stopped (.errSys msg) }
  | arrive (d : Datagram) (run : s.pc.running = true) :
      Step servlen s (.arrive d) { s with toClient := s.toClient.arrive d }
  | expire (run : s.pc.running = true) (timer : s.timer = true) :
      Step servlen s .expire { s with toClient := s.toClient.expire }
  | deliver (run : s.pc.running = true) (pending : s.pending = true) :
      Step servlen s .deliver s.alarmed

/-! ## what the statements do -/

def Pc.phase : Pc → Phase
  | .fgets => .idle
  | .sendto _ => .idle
  | .alarm => .asked
  | .ret => .gone
  | .stopped _ => .gone
  | _ => .collecting

/-- what has been taken off the buffer and not printed -/
def Pc.hand : Pc → List Datagram
  | .printf d _ => [d]
  | _ => []

/-- `select` has marked the pipe -/
def Pc.pipeSet : Pc → Bool
  | .recvfrom b => b
  | .printf _ b => b
  | .read => true
  | _ => false

def Pc.atRecvfrom : Pc → Bool
  | .recvfrom _ => true
  | _ => false

structure State.Inv (s : State) : Prop where
  timed : Timed s.pc.phase s.pipe s.toClient
  marked : s.pc.pipeSet = true → 0 < s.pipe
  data : s.pc.atRecvfrom = true → s.queue ≠ []

/-- how the collector sees an event -/
def obs : Event → List (Collect.Event (List UInt8) Datagram)
  | .sendto sendline => [.ask (cstr sendline)]
  | .printf d => [.put d]
  | .read => [.stop none]
  | .arrive d => [.arrive d]
  | .expire => [.expire]
  | _ => []

def Event.arrived : Event → List Datagram
  | .arrive d => [d]
  | _ => []

variable {servlen : Nat} {input : List UInt8} {s t : State} {e : Event} {es : List Event}

theorem Pc.phase_ne_gone {pc : Pc} (h : pc.running = true) : pc.phase ≠ .gone := by
  cases pc <;> simp_all [Pc.phase, Pc.running]

theorem Pc.behind_phase (pipeSet : Bool) : (Pc.behind pipeSet).phase = .collecting := by
  cases pipeSet <;> rfl

theorem Pc.behind_hand (pipeSet : Bool) : (Pc.behind pipeSet).hand = [] := by
  cases pipeSet <;> rfl

theorem Pc.behind_pipeSet (pipeSet : Bool) : (Pc.behind pipeSet).pipeSet = pipeSet := by
  cases pipeSet <;> rfl

theorem Pc.behind_atRecvfrom (pipeSet : Bool) : (Pc.behind pipeSet).atRecvfrom = false := by
  cases pipeSet <;> rfl

theorem State.Inv.stopped {why : Stop} (h : s.pc = .stopped why) : s.Inv := by
  refine ⟨?_, ?_, ?_⟩
  · rw [h]
    exact timed_gone _ _
  · rw [h]
    exact nofun
  · rw [h]
    exact nofun

theorem fgets_cases (s : State) :
    (s.toClient.fgets = none ∧ s.fgets = { s with pc := .ret }) ∨
    ∃ sendline c, s.toClient.fgets = some (sendline, c) ∧
      s.fgets = { s with toClient := c, pc := .sendto sendline } := by
  unfold State.fgets
  cases h : s.toClient.fgets with
  | none => exact Or.inl ⟨rfl, rfl⟩
  | some r => exact Or.inr ⟨r.1, r.2, rfl, rfl⟩

/-- where `select` leads when something is ready -/
theorem select_ready (s : State) :
    s.select s.ready 0 s.sockReady s.pipeReady =
      { s with pc := if s.sockReady then .recvfrom s.pipeReady else Pc.behind s.pipeReady } := by
  unfold State.select
  rw [if_neg (by omega)]
  split <;> rfl

theorem select_eintr (s : State) (b b' : Bool) : s.select (-1) EINTR b b' = s := rfl

theorem select_error (s : State) {e : Errno} (ne : e ≠ EINTR) (b b' : Bool) :
    s.select (-1) e b b' = { s with pc := .stopped (.errSys "select error") } := if_neg ne

theorem inv_start : (start input).Inv := ⟨Timed.idle rfl rfl, nofun, nofun⟩

theorem State.Inv.alarmed (hs : s.Inv) (hgone : s.pc.phase ≠ .gone) (pending : s.pending = true) :
    s.alarmed.Inv :=
  ⟨hs.timed.write hgone pending, fun _ => Nat.succ_pos _, hs.data⟩

theorem Step.inv (h : Step servlen s e t) (hs : s.Inv) : t.Inv := by
  have halarmed := hs.alarmed
  obtain ⟨timed, marked, data⟩ := hs
  cases h with
  | fgets pc =>
    rw [pc] at timed
    obtain ⟨-, ht⟩ | ⟨sendline, c, hc, ht⟩ := fgets_cases s
    · rw [ht]
      exact ⟨timed_gone _ _, nofun, nofun⟩
    · rw [ht]
      obtain ⟨fp, rfl⟩ := Client.fgets_some hc
      exact ⟨⟨timed.before, timed.one⟩, nofun, nofun⟩
  | sendto sendline pc =>
    rw [pc] at timed
    exact ⟨⟨timed.asked.before, timed.asked.one⟩, nofun, nofun⟩
  | alarm pc =>
    rw [pc] at timed
    exact ⟨timed.alarm, nofun, nofun⟩
  | select pc hdata =>
    rw [pc] at timed
    rw [select_ready]
    have hpipe (h : s.pipeReady = true) : 0 < s.pipe := of_decide_eq_true h
    cases hsock : s.sockReady with
    | true =>
      refine ⟨timed, hpipe, fun _ hq => ?_⟩
      rw [State.sockReady, hq] at hsock
      cases hsock
    | false =>
      refine ⟨?_, fun h => hpipe ?_, fun h => ?_⟩
      · show Timed (Pc.behind s.pipeReady).phase s.pipe s.toClient
        rw [Pc.behind_phase]
        exact timed
      · rwa [← Pc.behind_pipeSet s.pipeReady]
      · exact absurd (h.symm.trans (Pc.behind_atRecvfrom s.pipeReady)) (by decide)
  | eintr pc pending =>
    rw [select_eintr]
    exact halarmed (by rw [pc]; decide) pending
  | error e pc ne =>
    rw [select_error s ne]
    exact State.Inv.stopped rfl
  | recvfrom d rest pipeSet pc hdata =>
    rw [pc] at timed marked
    exact ⟨⟨timed.before, timed.one⟩, marked, nofun⟩
  | printf d pipeSet pc =>
    rw [pc] at timed marked
    refine ⟨?_, fun h => marked ?_, fun h => ?_⟩
    · show Timed (Pc.behind pipeSet).phase s.pipe _
      rw [Pc.behind_phase]
      exact ⟨timed.before, timed.one⟩
    · exact (Pc.behind_pipeSet pipeSet).symm.trans h
    · exact absurd (h.symm.trans (Pc.behind_atRecvfrom pipeSet)) (by decide)
  | read pc hdata =>
    rw [pc] at timed
    obtain ⟨htimer, hpending, hpipe⟩ := timed.byte hdata
    refine ⟨?_, nofun, nofun⟩
    show Timed .idle (s.pipe - 1) s.toClient
    rw [hpipe]
    exact Timed.idle htimer hpending
  | fail msg wrapper => exact State.Inv.stopped rfl
  | arrive d run =>
    exact ⟨⟨timed.before, timed.one⟩, marked, fun h => by simp [Client.arrive]⟩
  | expire run timer =>
    have hc := timed.collecting (Pc.phase_ne_gone run) (Or.inl timer)
    rw [hc] at timed
    refine ⟨?_, marked, data⟩
    show Timed s.pc.phase s.pipe _
    rw [hc]
    exact timed.expire timer
  | deliver run pending => exact halarmed (Pc.phase_ne_gone run) pending

theorem Run.inv (h : Run (Step servlen) (start input) es s) : s.Inv :=
  Trans.Run.inv inv_start (fun _ _ _ hs he => he.inv hs) h

/-! ## the client as a collector -/

/-- the client in the state `s` looks like the collector `a` -/
def State.Sees (servlen : Nat) (s : State) (a : Collect.State (List UInt8) Datagram) : Prop :=
  Broadcast.Sees s.Inv servlen s.pc.hand s.pc.phase s.toClient a

theorem sim (servlen : Nat) : Sim (Step servlen) Collect.Step obs (State.Sees servlen) := by
  refine ⟨?_⟩
  rintro s e t a ⟨inv, looks⟩ hstep
  have ht := hstep.inv inv
  cases hstep with
  | fgets pc =>
    rw [pc] at looks
    refine Sees.quiet ht ?_
    obtain ⟨-, hs⟩ | ⟨sendline, c, hc, hs⟩ := fgets_cases s
    · rw [hs]
      exact looks.gone
    · rw [hs]
      exact looks.fgets hc
  | sendto sendline pc =>
    rw [pc] at looks
    exact Sees.one ht (looks.sendto sendline)
  | alarm pc =>
    rw [pc] at looks
    exact Sees.quiet ht looks.alarm
  | select pc data =>
    rw [pc] at looks
    refine Sees.quiet ht ?_
    rw [select_ready]
    cases s.sockReady with
    | true => exact looks
    | false =>
      show Looks servlen (Pc.behind s.pipeReady).hand (Pc.behind s.pipeReady).phase s.toClient a
      rw [Pc.behind_phase, Pc.behind_hand]
      exact looks
  | eintr pc pending => exact Sees.quiet ht looks.take
  | error e pc ne =>
    rw [pc] at looks
    refine Sees.quiet ht ?_
    rw [select_error s ne]
    exact looks.gone
  | recvfrom d rest pipeSet pc data =>
    rw [pc] at looks
    exact Sees.quiet ht (looks.recvfrom data)
  | printf d pipeSet pc =>
    rw [pc] at looks
    refine Sees.one ht ?_
    show ∃ b, _ ∧ Looks servlen (Pc.behind pipeSet).hand (Pc.behind pipeSet).phase _ b
    rw [Pc.behind_phase, Pc.behind_hand]
    exact looks.printf
  | read pc data =>
    rw [pc] at looks
    have timed := inv.timed
    rw [pc] at timed
    exact Sees.one ht (looks.stop (timed.byte data).1)
  | fail msg wrapper =>
    have hand : s.pc.hand = [] := by
      revert wrapper
      cases s.pc <;> simp [Pc.wrapper, Pc.hand]
    rw [hand] at looks
    exact Sees.quiet ht looks.gone
  | arrive d run => exact ⟨_, Run.single (.arrive d), ht, looks.arrive d⟩
  | expire run timer =>
    have hc := inv.timed.collecting (Pc.phase_ne_gone run) (Or.inl timer)
    refine Sees.one ht ?_
    show ∃ b, _ ∧ Looks servlen s.pc.hand s.pc.phase _ b
    rw [hc] at looks ⊢
    exact looks.expire timer
  | deliver run pending => exact Sees.quiet ht looks.take

theorem sees (h : Run (Step servlen) (start input) es s) :
    ∃ a, Run Collect.Step Collect.start (es.flatMap obs) a ∧ s.Sees servlen a :=
  (sim servlen).run ⟨inv_start, looks_start input⟩ h

theorem keeps_of_obs (es : List Event) : ∀ x ∈ es.flatMap obs, x.Keeps := by
  intro x hx
  obtain ⟨e, -, he⟩ := List.mem_flatMap.mp hx
  cases e with
  | sendto | printf | read | arrive | expire =>
    rw [List.mem_singleton.mp he]
    trivial
  | fgets | alarm | select | recvfrom | fail | deliver => cases he

theorem obs_arrived (es : List Event) :
    (es.flatMap obs).flatMap Collect.Event.arrived = es.flatMap Event.arrived := by
  rw [List.flatMap_assoc]
  refine List.flatMap_congr fun e _ => ?_
  cases e <;> rfl

/-- **The client with a pipe.**  It is a collector that loses no reply: what has arrived is printed
in order or waits, and every line that is done with has had one alarm.  The pipe is empty between
two lines and never holds more than one byte, `Read` has a byte to read, and `select` is never
called without an alarm or a byte to come. -/
theorem selfPipe_collects (h : Run (Step servlen) (start input) es s) :
    (∃ a, Run Collect.Step Collect.start (es.flatMap obs) a ∧ s.Sees servlen a) ∧
    s.stdout ++ (s.pc.hand ++ s.queue).map (out servlen) =
      (es.flatMap Event.arrived).map (out servlen) ∧
    (s.pc.phase = .idle →
      (es.flatMap obs).countP Collect.Event.expires = s.sent.length ∧ s.pipe = 0) ∧
    (s.pc.phase = .collecting →
      s.pipe ≤ 1 ∧ (s.timer = true ∨ s.pending = true ∨ 0 < s.pipe)) ∧
    (s.pc = .read → 0 < s.pipe) := by
  obtain ⟨a, ha, inv, looks⟩ := sees h
  refine ⟨⟨a, ha, inv, looks⟩, ?_, fun hidle => ?_, fun hc => ?_, fun hpc => ?_⟩
  · rw [looks.replies ha (keeps_of_obs es), obs_arrived]
  · refine ⟨?_, (inv.timed.before (Or.inl hidle)).2.2⟩
    rw [hidle] at looks
    exact looks.rounds ha
  · have timed := inv.timed
    rw [hc] at timed
    have hone := timed.one rfl
    exact ⟨by omega, timed.coming⟩
  · exact inv.marked (by rw [hpc]; rfl)

/-- one line, with a reply that is read together with the alarm -/
theorem selfPipe_collects_one :
    (([.fgets, .sendto [97, 10], .alarm, .arrive ⟨[1], [98]⟩, .expire, .deliver, .select 2 0,
      .recvfrom, .printf ⟨[1], [98]⟩, .read] : List Event).flatMap obs).countP
        Collect.Event.expires = 1 := by
  have h : Run (Step 16) (start [97, 10])
      [.fgets, .sendto [97, 10], .alarm, .arrive ⟨[1], [98]⟩, .expire, .deliver, .select 2 0,
        .recvfrom, .printf ⟨[1], [98]⟩, .read]
      ⟨⟨[], [[97, 10]], [], [⟨[1], 1, [98]⟩], false, false⟩, .fgets, 0⟩ :=
    (((((((((Run.single (Step.fgets rfl)).snoc (Step.sendto _ rfl)).snoc
      (Step.alarm rfl)).snoc (Step.arrive _ rfl)).snoc (Step.expire rfl rfl)).snoc
      (Step.deliver rfl rfl)).snoc (Step.select rfl (by decide))).snoc
      (Step.recvfrom _ _ _ rfl rfl)).snoc (Step.printf _ _ rfl)).snoc
      (Step.read rfl (by decide))
  exact ((selfPipe_collects h).2.2.1 rfl).1

end Unp.Broadcast.SelfPipe
