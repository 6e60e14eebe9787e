import NetworkProgram.Broadcast.Client

/-!
# The broadcast client that jumps out of the handler

`broadcast/dgclient_broadcast5/main.cpp`: `recvfrom_alarm` calls `siglongjmp`, which makes the last
`sigsetjmp` return 1, and the loop ends.  The signal is never blocked, so the jump may leave any
statement.  Before the first `sigsetjmp` has returned there is nowhere to jump to; and behind a jump
out of the middle of `printf`, or of the `err_sys` of a wrapper, `stdio` is in no known state.

* `State.fgets`       the statement that branches;
* `Step`              the step relation;
* `sim`               the client is a collector that may lose a reply when it stops;
* `jump_collects`     what holds of every run, and the runs that are undefined.
-/

namespace Unp.Broadcast.Jump

open Trans

/-- the statement `dg_cli` is at, or nothing is known of it -/
inductive Pc where
  | fgets
  | sendto (sendline : List UInt8)
  | alarm
  | sigsetjmp
  | recvfrom
  | printf (d : Datagram)
  /-- in the middle of `printf`, or of its `Sock_ntop_host` -/
  | printing (d : Datagram)
  /-- in the middle of `err_sys`, called from `Recvfrom`, where the alarm has been set, or before -/
  | errSys (timed : Bool) (msg : String)
  | ret
  | stopped (why : Stop)
  | undefined (hand : Option Datagram)
  deriving DecidableEq, Repr

structure State extends Client where
  pc : Pc
  /-- `jmpbuf` has been set -/
  jmpbuf : Bool

def start (input : List UInt8) : State := { Client.start input with pc := .fgets, jmpbuf := false }

/-- `while (Fgets(sendline, MAXLINE, fp) != nullptr)` -/
def State.fgets (s : State) : State :=
  match s.toClient.fgets with
  | none => { s with pc := .ret }
  | some (sendline, c) => { s with toClient := c, pc := .sendto sendline }

/-- what has been taken off the buffer and not printed -/
def Pc.hand : Pc → Option Datagram
  | .printf d => some d
  | .printing d => some d
  | .undefined d => d
  | _ => none

/-- the statement is in a function that no handler may leave with a jump -/
def Pc.unsafeCall : Pc → Bool
  | .printing _ => true
  | .errSys _ _ => true
  | _ => false

/-! ## the steps -/

inductive Event where
  | fgets
  | sendto (sendline : List UInt8)
  | alarm
  | sigsetjmp
  | recvfrom
  /-- `printf` is called -/
  | enter
  | printf (d : Datagram)
  | fail (msg : String)
  | exit
  | arrive (d : Datagram)
  | expire
  /-- `siglongjmp`, away from the datagram in hand -/
  | jump (lost : Option Datagram)
  /-- `siglongjmp` without a `sigsetjmp` before it -/
  | wild
  /-- `siglongjmp` out of the middle of `printf` or `err_sys` -/
  | torn
  deriving DecidableEq, Repr

def Pc.running : Pc → Bool
  | .ret => false
  | .stopped _ => false
  | .undefined _ => false
  | _ => true

/-- the statement calls a wrapper that ends the process when the system call fails -/
def Pc.wrapper : Pc → Bool
  | .fgets => true
  | .sendto _ => true
  | .recvfrom => true
  | _ => false

inductive Step (servlen : Nat) (s : State) : Event → State → Prop where
  | fgets (pc : s.pc = .fgets) : Step servlen s .fgets s.fgets
  | sendto (sendline : List UInt8) (pc : s.pc = .sendto sendline) :
      Step servlen s (.sendto sendline)
        { s with toClient := s.toClient.sendto sendline, pc := .alarm }
  | alarm (pc : s.pc = .alarm) :
      Step servlen s .alarm { s with toClient := s.toClient.alarm, pc := .sigsetjmp }
  | sigsetjmp (pc : s.pc = .sigsetjmp) :
      Step servlen s .sigsetjmp { s with jmpbuf := true, pc := .recvfrom }
  | recvfrom (d : Datagram) (rest : List Datagram) (pc : s.pc = .recvfrom)
      (data : s.queue = d :: rest) :
      Step servlen s .recvfrom { s with toClient := s.toClient.recvfrom, pc := .printf d }
  | enter (d : Datagram) (pc : s.pc = .printf d) :
      Step servlen s .enter { s with pc := .printing d }
  | printf (d : Datagram) (pc : s.pc = .printing d) :
      Step servlen s (.printf d) { s with toClient := s.toClient.printf servlen d, pc := .sigsetjmp }
  /-- the wrapper of a system call gives up -/
  | fail (msg : String) (wrapper : s.pc.wrapper = true) :
      Step servlen s (.fail msg) { s with pc := .errSys (s.pc = .recvfrom) msg }
  | exit (timed : Bool) (msg : String) (pc : s.pc = .errSys timed msg) :
      Step servlen s .exit { s with pc := .stopped (.errSys msg) }
  | arrive (d : Datagram) (run : s.pc.running = true) :
      Step servlen s (.arrive d) { s with toClient := s.toClient.arrive d }
  | expire (run : s.pc.running = true) (timer : s.timer = true) :
      Step servlen s .expire { s with toClient := s.toClient.expire }
  /-- `sigsetjmp` returns 1: `break;` -/
  | jump (run : s.pc.running = true) (pending : s.pending = true) (set : s.jmpbuf = true)
      (safe : s.pc.unsafeCall = false) :
      Step servlen s (.jump s.pc.hand) { s with toClient := s.toClient.take, pc := .fgets }
  | wild (run : s.pc.running = true) (pending : s.pending = true) (unset : s.jmpbuf = false)
      (safe : s.pc.unsafeCall = false) :
      Step servlen s .wild { s with toClient := s.toClient.take, pc := .undefined s.pc.hand }
  | torn (pending : s.pending = true) (call : s.pc.unsafeCall = true) :
      Step servlen s .torn { s with toClient := s.toClient.take, pc := .undefined s.pc.hand }

/-! ## what the statements do -/

def Pc.phase : Pc → Phase
  | .fgets => .idle
  | .sendto _ => .idle
  | .alarm => .asked
  | .sigsetjmp => .collecting
  | .recvfrom => .collecting
  | .printf _ => .collecting
  | .printing _ => .collecting
  | .errSys timed _ => if timed then .collecting else .idle
  | .ret => .gone
  | .stopped _ => .gone
  | .undefined _ => .gone

/-- `sigsetjmp` has been called in this turn of the loop -/
def Pc.inLoop : Pc → Bool
  | .recvfrom => true
  | .printf _ => true
  | .printing _ => true
  | .errSys timed _ => timed
  | _ => false

def Phase.lines : Phase → Nat
  | .idle => 0
  | _ => 1

structure State.Inv (s : State) : Prop where
  timed : Timed s.pc.phase 0 s.toClient
  set : s.pc.inLoop = true → s.jmpbuf = true
  /-- before the first `sigsetjmp` this is the first line -/
  first : s.jmpbuf = false → s.pc.phase ≠ .gone → s.sent.length = Phase.lines s.pc.phase

/-- how the collector sees an event -/
def obs : Event → List (Collect.Event (List UInt8) Datagram)
  | .sendto sendline => [.ask (cstr sendline)]
  | .printf d => [.put d]
  | .jump lost => [.stop lost]
  | .arrive d => [.arrive d]
  | .expire => [.expire]
  | _ => []

def Event.arrived : Event → List Datagram
  | .arrive d => [d]
  | _ => []

def Event.lost : Event → List Datagram
  | .jump (some d) => [d]
  | _ => []

variable {servlen : Nat} {input : List UInt8} {s t : State} {e : Event} {es : List Event}

theorem Pc.phase_ne_gone {pc : Pc} (h : pc.running = true) : pc.phase ≠ .gone := by
  cases pc with
  | errSys timed msg => cases timed <;> exact nofun
  | _ => simp_all [Pc.phase, Pc.running]

theorem fgets_cases (s : State) :
    (s.toClient.fgets = none ∧ s.fgets = { s with pc := .ret }) ∨
    ∃ sendline c, s.toClient.fgets = some (sendline, c) ∧
      s.fgets = { s with toClient := c, pc := .sendto sendline } := by
  unfold State.fgets
  cases h : s.toClient.fgets with
  | none => exact Or.inl ⟨rfl, rfl⟩
  | some r => exact Or.inr ⟨r.1, r.2, rfl, rfl⟩

theorem inv_start : (start input).Inv := ⟨Timed.idle rfl rfl, nofun, fun _ _ => rfl⟩

/-- the alarm is where it was when the system call failed -/
theorem fail_frame {pc : Pc} (msg : String) (h : pc.wrapper = true) :
    (Pc.errSys (pc = .recvfrom) msg).phase = pc.phase ∧
      (Pc.errSys (pc = .recvfrom) msg).inLoop = pc.inLoop ∧ pc.hand = none := by
  cases pc <;> simp_all [Pc.wrapper, Pc.phase, Pc.inLoop, Pc.hand]

theorem Step.inv (h : Step servlen s e t) (hs : s.Inv) : t.Inv := by
  obtain ⟨timed, set, first⟩ := hs
  cases h with
  | fgets pc =>
    rw [pc] at timed first
    obtain ⟨-, ht⟩ | ⟨sendline, c, hc, ht⟩ := fgets_cases s
    · rw [ht]
      exact ⟨timed_gone _ _, nofun, fun _ hne => absurd rfl hne⟩
    · rw [ht]
      obtain ⟨fp, rfl⟩ := Client.fgets_some hc
      exact ⟨⟨timed.before, timed.one⟩, nofun, fun hj _ => first hj (by decide)⟩
  | sendto sendline pc =>
    rw [pc] at timed first
    refine ⟨⟨timed.asked.before, timed.asked.one⟩, nofun, fun hj _ => ?_⟩
    have hnone : s.sent.length = 0 := first hj nofun
    show (s.sent ++ [cstr sendline]).length = 1
    rw [List.length_append, hnone]
    rfl
  | alarm pc =>
    rw [pc] at timed first
    exact ⟨timed.alarm, nofun, fun hj _ => first hj (by decide)⟩
  | sigsetjmp pc =>
    rw [pc] at timed
    exact ⟨timed, fun _ => rfl, nofun⟩
  | recvfrom d rest pc data =>
    rw [pc] at timed set first
    exact ⟨⟨timed.before, timed.one⟩, fun _ => set rfl, fun hj _ => first hj (by decide)⟩
  | enter d pc =>
    rw [pc] at timed set first
    exact ⟨timed, fun _ => set rfl, fun hj _ => first hj nofun⟩
  | printf d pc =>
    rw [pc] at timed first
    exact ⟨⟨timed.before, timed.one⟩, nofun, fun hj _ => first hj nofun⟩
  | fail msg wrapper =>
    obtain ⟨hphase, hloop, -⟩ := fail_frame msg wrapper
    refine ⟨?_, fun hin => set (hloop.symm.trans hin), fun hj hne => ?_⟩
    · exact hphase.symm ▸ timed
    · rw [hphase] at hne ⊢
      exact first hj hne
  | exit timed msg pc => exact ⟨timed_gone _ _, nofun, fun _ hne => absurd rfl hne⟩
  | arrive d run => exact ⟨⟨timed.before, timed.one⟩, set, first⟩
  | expire run timer =>
    have hc := timed.collecting (Pc.phase_ne_gone run) (Or.inl timer)
    rw [hc] at timed
    refine ⟨?_, set, first⟩
    show Timed s.pc.phase 0 _
    rw [hc]
    exact timed.expire timer
  | jump run pending hset safe =>
    obtain hc := timed.collecting (Pc.phase_ne_gone run) (Or.inr (Or.inl pending))
    rw [hc] at timed
    exact ⟨Timed.idle (timed.past pending).1 rfl, nofun,
      fun hj _ => absurd (hset.symm.trans hj) (by decide)⟩
  | wild run pending unset safe =>
    exact ⟨timed_gone _ _, nofun, fun _ hne => absurd rfl hne⟩
  | torn pending call => exact ⟨timed_gone _ _, nofun, fun _ hne => absurd rfl hne⟩

theorem Run.inv (h : Run (Step servlen) (start input) es s) : s.Inv :=
  Trans.Run.inv inv_start (fun _ _ _ hs he => he.inv hs) h

/-! ## the client as a collector -/

/-- the client in the state `s` looks like the collector `a` -/
def State.Sees (servlen : Nat) (s : State) (a : Collect.State (List UInt8) Datagram) : Prop :=
  Broadcast.Sees s.Inv servlen s.pc.hand.toList s.pc.phase s.toClient a

theorem sim (servlen : Nat) : Sim (Step servlen) Collect.Step obs (State.Sees servlen) := by
  refine ⟨?_⟩
  rintro s e t a ⟨inv, looks⟩ hstep
  have ht := hstep.inv inv
  cases hstep with
  | fgets pc =>
    rw [pc] at looks
    refine Sees.quiet ht ?_
    obtain ⟨-, hs⟩ | ⟨sendline, c, hc, hs⟩ := fgets_cases s
    · rw [hs]
      exact looks.gone
    · rw [hs]
      exact looks.fgets hc
  | sendto sendline pc =>
    rw [pc] at looks
    exact Sees.one ht (looks.sendto sendline)
  | alarm pc =>
    rw [pc] at looks
    exact Sees.quiet ht looks.alarm
  | sigsetjmp pc =>
    rw [pc] at looks
    exact Sees.quiet ht looks
  | recvfrom d rest pc data =>
    rw [pc] at looks
    exact Sees.quiet ht (looks.recvfrom data)
  | enter d pc =>
    rw [pc] at looks
    exact Sees.quiet ht looks
  | printf d pc =>
    rw [pc] at looks
    exact Sees.one ht looks.printf
  | fail msg wrapper =>
    obtain ⟨hphase, -, hand⟩ := fail_frame msg wrapper
    rw [hand, ← hphase] at looks
    exact Sees.quiet ht looks
  | exit timed msg pc =>
    rw [pc] at looks
    exact Sees.quiet ht looks.gone
  | arrive d run => exact ⟨_, Run.single (.arrive d), ht, looks.arrive d⟩
  | expire run timer =>
    have hc := inv.timed.collecting (Pc.phase_ne_gone run) (Or.inl timer)
    refine Sees.one ht ?_
    show ∃ b, _ ∧ Looks servlen s.pc.hand.toList s.pc.phase _ b
    rw [hc] at looks ⊢
    exact looks.expire timer
  | jump run pending set safe =>
    have hc := inv.timed.collecting (Pc.phase_ne_gone run) (Or.inr (Or.inl pending))
    have timed := inv.timed
    rw [hc] at timed looks
    have hover := (timed.past pending).1
    refine Sees.one ht ?_
    -- what is in hand at the jump is lost
    cases hand : s.pc.hand with
    | none =>
      rw [hand] at looks
      exact looks.take.stop hover
    | some d =>
      rw [hand] at looks
      exact looks.take.lose hover
  | wild run pending unset safe => exact Sees.quiet ht looks.take.gone
  | torn pending call => exact Sees.quiet ht looks.take.gone

theorem sees (h : Run (Step servlen) (start input) es s) :
    ∃ a, Run Collect.Step Collect.start (es.flatMap obs) a ∧ s.Sees servlen a :=
  (sim servlen).run ⟨inv_start, looks_start input⟩ h

theorem obs_arrived (es : List Event) :
    (es.flatMap obs).flatMap Collect.Event.arrived = es.flatMap Event.arrived := by
  rw [List.flatMap_assoc]
  refine List.flatMap_congr fun e _ => ?_
  cases e <;> rfl

theorem obs_lost (es : List Event) :
    (es.flatMap obs).flatMap Collect.Event.lost = es.flatMap Event.lost := by
  rw [List.flatMap_assoc]
  refine List.flatMap_congr fun e _ => ?_
  cases e with
  | jump lost => cases lost <;> rfl
  | _ => rfl

/-! ## the jump to nowhere -/

theorem jmpbuf_iff (h : Run (Step servlen) (start input) es s) :
    s.jmpbuf = true ↔ Event.sigsetjmp ∈ es := by
  induction h with
  | nil => exact ⟨nofun, nofun⟩
  | snoc _ he ih =>
    rw [List.mem_append, List.mem_singleton, ← ih]
    cases he with
    | fgets pc =>
      obtain ⟨-, ht⟩ | ⟨sendline, c, -, ht⟩ := fgets_cases _ <;> rw [ht] <;> simp
    | sigsetjmp pc => simp
    | _ => simp

/-- no step is taken where nothing is known -/
theorem Step.ne_undefined (h : Step servlen s e t) (hand : Option Datagram) :
    s.pc ≠ .undefined hand := by
  intro hpc
  cases h with
  | fail msg wrapper =>
    rw [hpc] at wrapper
    cases wrapper
  | arrive d run | expire run timer | jump run pending set safe | wild run pending unset safe =>
    rw [hpc] at run
    cases run
  | torn pending call =>
    rw [hpc] at call
    cases call
  | fgets pc | sendto sendline pc | alarm pc | sigsetjmp pc | recvfrom d rest pc data | enter d pc
  | printf d pc | exit timed msg pc =>
    rw [pc] at hpc
    cases hpc

/-- the jumps behind which nothing is known -/
def Event.Undefined (e : Event) : Prop := e = .wild ∨ e = .torn

theorem Step.undefined_iff (h : Step servlen s e t) :
    (∃ hand, t.pc = .undefined hand) ↔ e.Undefined := by
  have hne := h.ne_undefined
  cases h with
  | fgets pc =>
    refine iff_of_false ?_ nofun
    rintro ⟨hand, hpc⟩
    obtain ⟨-, ht⟩ | ⟨sendline, c, -, ht⟩ := fgets_cases s <;> rw [ht] at hpc <;> cases hpc
  | arrive d run | expire run timer => exact iff_of_false (fun ⟨hand, hpc⟩ => hne hand hpc) nofun
  | wild run pending unset safe => exact iff_of_true ⟨_, rfl⟩ (Or.inl rfl)
  | torn pending call => exact iff_of_true ⟨_, rfl⟩ (Or.inr rfl)
  | sendto sendline pc | alarm pc | sigsetjmp pc | recvfrom d rest pc data | enter d pc
  | printf d pc | fail msg wrapper | exit timed msg pc | jump run pending set safe =>
    exact iff_of_false (fun ⟨_, hpc⟩ => by cases hpc) nofun

/-- the runs that are undefined have ended with such a jump -/
theorem undefined_iff (h : Run (Step servlen) (start input) es s) :
    (∃ hand, s.pc = .undefined hand) ↔ ∃ x ∈ es, x.Undefined := by
  induction h with
  | nil => exact iff_of_false (fun ⟨_, hpc⟩ => by cases hpc) (fun ⟨_, hmem, _⟩ => by cases hmem)
  | snoc _ he ih =>
    have hnone := fun hx => (ih.mpr hx).elim fun hand hpc => he.ne_undefined hand hpc
    rw [he.undefined_iff]
    constructor
    · exact fun hx => ⟨_, List.mem_append_right _ List.mem_cons_self, hx⟩
    · rintro ⟨x, hmem, hx⟩
      rcases List.mem_append.mp hmem with hold | hnew
      · exact absurd ⟨x, hold, hx⟩ hnone
      · rwa [← List.mem_singleton.mp hnew]

theorem undefined_last (h : Run (Step servlen) (start input) es s) {x : Event} (hx : x.Undefined)
    (hmem : x ∈ es) : ∃ es' u, es = es' ++ [x] ∧ Run (Step servlen) (start input) es' u ∧
      Step servlen u x s := by
  cases h with
  | nil => cases hmem
  | @snoc es u e _ hr he =>
    rcases List.mem_append.mp hmem with hold | hnew
    · obtain ⟨hand, hpc⟩ := (undefined_iff hr).mpr ⟨x, hold, hx⟩
      exact absurd hpc (he.ne_undefined hand)
    · obtain rfl := List.mem_singleton.mp hnew
      exact ⟨es, u, rfl, hr, he⟩

/-- **The client that jumps.**  It is a collector that loses what is in hand at a jump, which is at
most one reply a line: what is printed keeps the order of arrival, and all that has arrived is
printed, lost so, in hand, or waits.  A run is undefined exactly if it ends with a jump before the
first `sigsetjmp`, which is the alarm of the first line, or out of the middle of `printf` or
`err_sys`. -/
theorem jump_collects (h : Run (Step servlen) (start input) es s) :
    (∃ a, Run Collect.Step Collect.start (es.flatMap obs) a ∧ s.Sees servlen a) ∧
    (∃ shown, shown.map (out servlen) = s.stdout ∧
      (shown ++ (s.pc.hand.toList ++ s.queue)).Sublist (es.flatMap Event.arrived) ∧
      (shown ++ es.flatMap Event.lost ++ (s.pc.hand.toList ++ s.queue)).Perm
        (es.flatMap Event.arrived)) ∧
    (es.flatMap Event.lost).length ≤ s.sent.length ∧
    (s.pc.phase = .idle → (es.flatMap obs).countP Collect.Event.expires = s.sent.length) ∧
    (s.pc.phase = .collecting → s.timer = true ∨ s.pending = true) ∧
    ((∃ hand, s.pc = .undefined hand) ↔ Event.wild ∈ es ∨ Event.torn ∈ es) ∧
    (Event.wild ∈ es → Event.sigsetjmp ∉ es ∧ s.sent.length = 1) ∧
    (Event.torn ∈ es → ∃ es' u, es = es' ++ [.torn] ∧ Run (Step servlen) (start input) es' u ∧
      u.pc.unsafeCall = true) := by
  obtain ⟨a, ha, inv, looks⟩ := sees h
  have hlosses := looks.losses ha
  rw [obs_arrived, obs_lost] at hlosses
  refine ⟨⟨a, ha, inv, looks⟩, hlosses.1, hlosses.2, fun hidle => ?_, fun hc => ?_, ?_,
    fun hwild => ?_, fun htorn => ?_⟩
  · rw [hidle] at looks
    exact looks.rounds ha
  · have timed := inv.timed
    rw [hc] at timed
    simpa using timed.coming
  · rw [undefined_iff h]
    constructor
    · rintro ⟨x, hmem, rfl | rfl⟩
      · exact Or.inl hmem
      · exact Or.inr hmem
    · rintro (hmem | hmem)
      · exact ⟨_, hmem, Or.inl rfl⟩
      · exact ⟨_, hmem, Or.inr rfl⟩
  · obtain ⟨es', u, rfl, hr, hstep⟩ := undefined_last h (Or.inl rfl) hwild
    cases hstep with
    | wild run pending unset safe =>
      have hinv := Run.inv hr
      have hc := hinv.timed.collecting (Pc.phase_ne_gone run) (Or.inr (Or.inl pending))
      have hlen := hinv.first unset (Pc.phase_ne_gone run)
      rw [hc] at hlen
      refine ⟨fun hset => ?_, hlen⟩
      have hset' : Event.sigsetjmp ∈ es' := by simpa using hset
      rw [(jmpbuf_iff hr).mpr hset'] at unset
      cases unset
  · obtain ⟨es', u, hes, hr, hstep⟩ := undefined_last h (Or.inr rfl) htorn
    cases hstep with
    | torn pending call => exact ⟨es', u, hes, hr, call⟩

/-! ## two replies -/

/-- the first reply is printed, and the second is in hand at the alarm -/
theorem jump_collects_two : ∃ es s, Run (Step 16) (start [97, 10]) es s ∧
    s.stdout = [out 16 ⟨[1], [98]⟩] ∧ es.flatMap Event.lost = [⟨[2], [99]⟩] ∧
    (es.flatMap Event.lost).length ≤ s.sent.length ∧
    (es.flatMap obs).countP Collect.Event.expires = s.sent.length ∧
    ¬ ∃ hand, s.pc = .undefined hand := by
  have hask := ((Run.single (Step.fgets rfl : Step 16 (start [97, 10]) _ _)).snoc
    (.sendto [97, 10] rfl)).snoc (.alarm rfl)
  have hfirst := ((((((hask.snoc (.arrive ⟨[1], [98]⟩ rfl)).snoc (.arrive ⟨[2], [99]⟩ rfl)).snoc
    (.sigsetjmp rfl)).snoc (.recvfrom ⟨[1], [98]⟩ _ rfl rfl)).snoc (.enter _ rfl)).snoc
      (.printf _ rfl))
  have hlost := (((hfirst.snoc (.sigsetjmp rfl)).snoc (.recvfrom ⟨[2], [99]⟩ _ rfl rfl)).snoc
    (.expire rfl rfl)).snoc (.jump rfl rfl rfl rfl)
  obtain ⟨-, -, hfew, hidle, -, hundef, -, -⟩ := jump_collects hlost
  exact ⟨_, _, hlost, rfl, rfl, hfew, hidle rfl, fun hu => absurd (hundef.mp hu) (by decide)⟩

end Unp.Broadcast.Jump
