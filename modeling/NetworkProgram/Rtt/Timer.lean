import NetworkProgram.Rtt.Exchange
import Mathlib.Data.Rat.Floor
import Mathlib.Tactic.Linarith
import Mathlib.Tactic.NormNum

/-!
# The bounds of the retransmission interval

The functions of `rtt.cpp` in the order in which `dg_send_recv` calls them.  `rtt_init` and
`rtt_stop` clamp `rtt_rto`; `rtt_timeout` doubles it and does not.

* `Timer.Step`                    the timer alone, with any sample and any clock;
* `Timer.bounded_throughout_iff`  the runs in which `rtt_rto` keeps to its bounds;
* `Timer.short_iff_timeouts`      their condition, by the timeouts of a call;
* `Dg.timer_run`                  what `dg_send_recv` does to `rttinfo` is such a run.
-/

namespace Unp.Timer
open Trans

inductive Pc where
  | idle
  | sendagain
  | wait
  deriving DecidableEq, Repr

structure State where
  pc : Pc
  rttinit : Bool
  rttinfo : RttInfo

/-- the statics are zero -/
def start : State := ⟨.idle, false, ⟨0, 0, 0, 0, 0, 0⟩⟩

inductive Event where
  | call (tv : Timeval)
  | start
  | stop (ms : UInt32)
  | timeout

/-- `rtt_init` before the first call and after a call that gave up, then `rtt_newpack` -/
def State.call (s : State) (tv : Timeval) : State where
  pc := .sendagain
  rttinit := true
  rttinfo := rttNewpack (if s.rttinit = false then rttInit s.rttinfo tv else s.rttinfo)

/-- `rtt_timeout`, and `goto sendagain` or `rttinit = 0` -/
def State.timeout (s : State) : State :=
  let (r, rttinfo) := rttTimeout s.rttinfo
  if r < 0 then ⟨.idle, false, rttinfo⟩ else { s with pc := .sendagain, rttinfo := rttinfo }

inductive Step (s : State) : Event → State → Prop where
  | call (tv : Timeval) (pc : s.pc = .idle) : Step s (.call tv) (s.call tv)
  | start (pc : s.pc = .sendagain) : Step s .start { s with pc := .wait }
  | stop (ms : UInt32) (pc : s.pc = .wait) :
      Step s (.stop ms) { s with pc := .idle, rttinfo := rttStop s.rttinfo ms }
  | timeout (pc : s.pc = .wait) : Step s .timeout s.timeout

/-- `rtt_rto` is between its bounds, and what `rtt_start` returns for it is -/
structure Bounded (s : State) : Prop where
  min : RTT_RXTMIN ≤ s.rttinfo.rttRto
  max : s.rttinfo.rttRto ≤ RTT_RXTMAX
  startMin : RTT_RXTMIN ≤ (rttStart s.rttinfo : Rat)
  startMax : (rttStart s.rttinfo : Rat) ≤ RTT_RXTMAX

/-- a timeout finds an interval of at most half of `RTT_RXTMAX` -/
def Short (s : State) (e : Event) : Prop :=
  e = .timeout → s.rttinfo.rttRto ≤ RTT_RXTMAX / 2

variable {s t : State} {ev : Event}

/-! ## the operations -/

theorem RTT_RXTMIN_eq : RTT_RXTMIN = 2 := rfl

theorem RTT_RXTMAX_eq : RTT_RXTMAX = 60 := rfl

theorem rttMinmax_bounds (rto : Rat) :
    RTT_RXTMIN ≤ rttMinmax rto ∧ rttMinmax rto ≤ RTT_RXTMAX := by
  have hmin := RTT_RXTMIN_eq
  have hmax := RTT_RXTMAX_eq
  unfold rttMinmax
  split
  · exact ⟨le_rfl, by rw [hmin, hmax]; norm_num⟩
  · rename_i hge
    split
    · exact ⟨by rw [hmin, hmax]; norm_num, le_rfl⟩
    · rename_i hle
      exact ⟨not_lt.mp hge, not_lt.mp hle⟩

/-- the cast to `int` cuts off, which for a positive number is the floor -/
theorem rttStart_eq_floor {ptr : RttInfo} (h : 0 ≤ ptr.rttRto) :
    rttStart ptr = ⌊ptr.rttRto + 1 / 2⌋ := by
  have hnum : 0 ≤ (ptr.rttRto + 1 / 2).num := Rat.num_nonneg.mpr (by linarith)
  show (ptr.rttRto + 1 / 2).num.tdiv (ptr.rttRto + 1 / 2).den = _
  rw [Int.tdiv_eq_ediv_of_nonneg hnum, Rat.floor_def']

/-- the bounds are whole numbers, so rounding does not leave them -/
theorem rttStart_bounds {ptr : RttInfo} (hmin : RTT_RXTMIN ≤ ptr.rttRto)
    (hmax : ptr.rttRto ≤ RTT_RXTMAX) :
    RTT_RXTMIN ≤ (rttStart ptr : Rat) ∧ (rttStart ptr : Rat) ≤ RTT_RXTMAX := by
  rw [RTT_RXTMIN_eq] at hmin ⊢
  rw [RTT_RXTMAX_eq] at hmax ⊢
  rw [rttStart_eq_floor (by linarith)]
  constructor
  · have hle : (2 : Int) ≤ ⌊ptr.rttRto + 1 / 2⌋ := Int.le_floor.mpr (by push_cast; linarith)
    exact_mod_cast hle
  · have hlt : ⌊ptr.rttRto + 1 / 2⌋ < (61 : Int) := Int.floor_lt.mpr (by push_cast; linarith)
    have hle : ⌊ptr.rttRto + 1 / 2⌋ ≤ (60 : Int) := by omega
    exact_mod_cast hle

theorem bounded_of (hmin : RTT_RXTMIN ≤ s.rttinfo.rttRto) (hmax : s.rttinfo.rttRto ≤ RTT_RXTMAX) :
    Bounded s :=
  ⟨hmin, hmax, (rttStart_bounds hmin hmax).1, (rttStart_bounds hmin hmax).2⟩

theorem rttInit_bounds (ptr : RttInfo) (tv : Timeval) :
    RTT_RXTMIN ≤ (rttInit ptr tv).rttRto ∧ (rttInit ptr tv).rttRto ≤ RTT_RXTMAX :=
  rttMinmax_bounds _

theorem rttStop_bounds (ptr : RttInfo) (ms : UInt32) :
    RTT_RXTMIN ≤ (rttStop ptr ms).rttRto ∧ (rttStop ptr ms).rttRto ≤ RTT_RXTMAX :=
  rttMinmax_bounds _

theorem rttTimeout_rto (ptr : RttInfo) : (rttTimeout ptr).2.rttRto = ptr.rttRto * 2 := rfl

/-- the two ways on from a timeout -/
theorem State.timeout_cases (s : State) :
    (RTT_MAXNREXMT ≤ s.rttinfo.rttNrexmt ∧ s.timeout = ⟨.idle, false, (rttTimeout s.rttinfo).2⟩) ∨
    (s.rttinfo.rttNrexmt < RTT_MAXNREXMT ∧
      s.timeout = { s with pc := .sendagain, rttinfo := (rttTimeout s.rttinfo).2 }) := by
  have hret := rttTimeout_ret s.rttinfo
  unfold State.timeout
  rcases Nat.lt_or_ge s.rttinfo.rttNrexmt RTT_MAXNREXMT with h | h
  · exact Or.inr ⟨h, if_neg (fun hlt => absurd (hret.mp hlt) (by omega))⟩
  · exact Or.inl ⟨h, if_pos (hret.mpr h)⟩

theorem State.timeout_rttinfo (s : State) : s.timeout.rttinfo = (rttTimeout s.rttinfo).2 := by
  rcases s.timeout_cases with ⟨_, ht⟩ | ⟨_, ht⟩
  · rw [ht]
  · rw [ht]

/-! ## runs -/

/-- the timer is bounded as soon as it is set up -/
def Inv (s : State) : Prop := (s.pc = .idle ∧ s.rttinit = false) ∨ Bounded s

theorem Inv.bounded_of_pc (h : Inv s) {pc : Pc} (hpc : s.pc = pc) (hne : pc ≠ .idle) : Bounded s :=
  h.resolve_left (fun hidle => hne (hpc.symm.trans hidle.1))

theorem Inv.call (h : Inv s) (tv : Timeval) : Bounded (s.call tv) := by
  have hrto : (s.call tv).rttinfo.rttRto =
      (if s.rttinit = false then rttInit s.rttinfo tv else s.rttinfo).rttRto := rfl
  by_cases hinit : s.rttinit = false
  · rw [if_pos hinit] at hrto
    obtain ⟨hmin, hmax⟩ := rttInit_bounds s.rttinfo tv
    exact bounded_of (hrto ▸ hmin) (hrto ▸ hmax)
  · rw [if_neg hinit] at hrto
    have hb := h.resolve_left (fun hidle => hinit hidle.2)
    exact bounded_of (hrto ▸ hb.min) (hrto ▸ hb.max)

theorem timeout_bounded_iff (h : Bounded s) :
    Bounded s.timeout ↔ s.rttinfo.rttRto ≤ RTT_RXTMAX / 2 := by
  have hrto : s.timeout.rttinfo.rttRto = s.rttinfo.rttRto * 2 := by
    rw [s.timeout_rttinfo, rttTimeout_rto]
  have hmin := h.min
  constructor
  · intro ht
    have hmax := ht.max
    rw [hrto] at hmax
    linarith
  · intro hshort
    rw [RTT_RXTMIN_eq] at hmin
    exact bounded_of (by rw [hrto, RTT_RXTMIN_eq]; linarith) (by rw [hrto]; linarith)

/-- only a timeout can leave the bounds -/
theorem Step.bounded_iff (h : Inv s) (hs : Step s ev t) : Bounded t ↔ Short s ev := by
  cases hs with
  | call tv pc => exact iff_of_true (h.call tv) (fun he => by cases he)
  | start pc =>
    have hb := h.bounded_of_pc pc (by decide)
    exact iff_of_true ⟨hb.min, hb.max, hb.startMin, hb.startMax⟩ (fun he => by cases he)
  | stop ms pc =>
    obtain ⟨hmin, hmax⟩ := rttStop_bounds s.rttinfo ms
    exact iff_of_true (bounded_of hmin hmax) (fun he => by cases he)
  | timeout pc =>
    rw [timeout_bounded_iff (h.bounded_of_pc pc (by decide))]
    exact ⟨fun hle _ => hle, fun hle => hle rfl⟩

/-- **Which runs keep to the bounds.**  After every call of a function of `rtt.cpp` both `rtt_rto`
and what `rtt_start` returns are between `RTT_RXTMIN` and `RTT_RXTMAX` exactly when no timeout finds
an interval of more than half of `RTT_RXTMAX`. -/
theorem bounded_throughout_iff (es : List Event) (t : State) :
    Run (Obey (fun _ _ => Bounded) Step) start es t ↔ Run (When Short Step) start es t :=
  Run.obey_iff_when Inv (Or.inl ⟨rfl, rfl⟩) (fun _ _ _ h hs => hs.bounded_iff h)
    (fun _ _ _ h hs => Or.inr ((hs.2.bounded_iff h).mpr hs.1))

/-! ## the timeouts of a call -/

def Event.isTimeout : Event → Bool
  | .timeout => true
  | _ => false

/-- `rtt_init`, if it is called, and `rtt_stop` are what sets the interval -/
theorem Step.rto (hs : Step s ev t) (hcall : ∀ tv, ev ≠ .call tv) (hstop : ∀ ms, ev ≠ .stop ms) :
    t.rttinfo.rttRto = if ev.isTimeout then s.rttinfo.rttRto * 2 else s.rttinfo.rttRto := by
  cases hs with
  | call tv pc => exact absurd rfl (hcall tv)
  | start pc => rfl
  | stop ms pc => exact absurd rfl (hstop ms)
  | timeout pc => exact congrArg RttInfo.rttRto s.timeout_rttinfo

/-- between two settings, each timeout doubles the interval -/
theorem rto_timeouts {es : List Event} (h : Run Step s es t) (hcall : ∀ tv, .call tv ∉ es)
    (hstop : ∀ ms, .stop ms ∉ es) :
    t.rttinfo.rttRto = s.rttinfo.rttRto * 2 ^ es.countP Event.isTimeout := by
  have hrun := h.iterate_countP (f := fun s => s.rttinfo.rttRto) (g := (· * 2))
    (p := Event.isTimeout) (fun _ _ _ hmem hs =>
      hs.rto (fun tv he => hcall tv (he ▸ hmem)) (fun ms he => hstop ms (he ▸ hmem)))
  rw [hrun, mul_right_iterate_apply]

/-- **The condition by the timeouts.**  Within one call, with `s` as its `rtt_newpack` has left it,
a timeout finds a short interval exactly when the interval of `s`, doubled by it and by the timeouts
before it, does not pass `RTT_RXTMAX`. -/
theorem short_iff_timeouts {es : List Event} (h : Run Step s es t) (hcall : ∀ tv, .call tv ∉ es)
    (hstop : ∀ ms, .stop ms ∉ es) :
    Short t .timeout ↔
      s.rttinfo.rttRto * 2 ^ (es.countP Event.isTimeout + 1) ≤ RTT_RXTMAX := by
  unfold Short
  rw [rto_timeouts h hcall hstop, pow_succ, ← mul_assoc]
  constructor
  · intro hshort
    have := hshort rfl
    linarith
  · intro hle _
    linarith

/-- two timeouts, an answer to the first datagram after 20 seconds, and two more timeouts in the
next call: `rtt_start` returns 99 -/
theorem not_bounded : ¬ ∀ es t, Run Step start es t → t.rttinit = true → Bounded t := by
  intro h
  have hcall := (Run.single (Step.call (s := start) ⟨0, 0⟩ rfl)).snoc (Step.start rfl)
  have htwo := (((hcall.snoc (Step.timeout rfl)).snoc (Step.start rfl)).snoc
    (Step.timeout rfl)).snoc (Step.start rfl)
  have hnext := ((htwo.snoc (Step.stop 20000 rfl)).snoc (Step.call ⟨20, 0⟩ rfl)).snoc
    (Step.start rfl)
  have hlast := (((hnext.snoc (Step.timeout rfl)).snoc (Step.start rfl)).snoc
    (Step.timeout rfl)).snoc (Step.start rfl)
  exact absurd (h _ _ hlast rfl).max (by decide +kernel)

end Unp.Timer

/-! ## the timer in `dg_send_recv` -/

namespace Unp
open Trans

/-- the place of the timer, as long as the process runs -/
def Pc.timer : Pc → Option Timer.Pc
  | .idle => some .idle
  | .sendagain | .send | .alarm => some .sendagain
  | .sigsetjmp | .recv | .test _ | .alarm0 _ | .stop _ | .timeout => some .wait
  | .exited => none

/-- where the timer is armed it has been started -/
theorem Pc.timer_of_waits {pc : Pc} (h : pc.waits) : pc.timer = some .wait := by
  cases pc with
  | sigsetjmp | recv | test _ | alarm0 _ => rfl
  | _ => exact h.elim

variable {e : Endian} {s t : Dg} {ev : Event}

/-- a step of `dg_send_recv` is a step of the timer, or leaves it alone -/
theorem Step.timer (hb : Budget s) (hs : Step e s ev t) {pc : Timer.Pc}
    (ht : t.pc.timer = some pc) :
    (s.pc.timer = some pc ∧ t.rttinit = s.rttinit ∧ t.rttinfo = s.rttinfo) ∨
    ∃ pc' ev', s.pc.timer = some pc' ∧
      Timer.Step ⟨pc', s.rttinit, s.rttinfo⟩ ev' ⟨pc, t.rttinit, t.rttinfo⟩ := by
  cases hs with
  | call tv outbuff inbytes hpc =>
    obtain rfl : Timer.Pc.sendagain = pc := Option.some.inj ht
    exact Or.inr ⟨.idle, .call tv, by rw [hpc]; rfl, Timer.Step.call tv rfl⟩
  | stamp tv hpc => exact Or.inl ⟨by rw [hpc]; exact ht, rfl, rfl⟩
  | sendmsg hpc => exact Or.inl ⟨by rw [hpc]; exact ht, rfl, rfl⟩
  | setAlarm hpc =>
    obtain rfl : Timer.Pc.wait = pc := Option.some.inj ht
    exact Or.inr ⟨.sendagain, .start, by rw [hpc]; rfl, Timer.Step.start rfl⟩
  | setjmp hpc => exact Or.inl ⟨by rw [hpc]; exact ht, rfl, rfl⟩
  | recvAnswer a hpc mem => exact Or.inl ⟨by rw [hpc]; exact ht, rfl, rfl⟩
  | recvShort d hpc short => exact Or.inl ⟨by rw [hpc]; exact ht, rfl, rfl⟩
  | test n hpc =>
    refine Or.inl ⟨?_, rfl, rfl⟩
    have hwait : (s.loop e n).pc.timer = some .wait := by
      show (if s.again e n then Pc.recv else Pc.alarm0 n).timer = _
      split <;> rfl
    rw [hpc]
    exact hwait.symm.trans ht
  | stopAlarm n hpc => exact Or.inl ⟨by rw [hpc]; exact ht, rfl, rfl⟩
  | stop n tv hpc =>
    obtain rfl : Timer.Pc.idle = pc := Option.some.inj ht
    exact Or.inr ⟨.wait, .stop _, by rw [hpc]; rfl, Timer.Step.stop _ rfl⟩
  | sigalrm armed saved =>
    exact Or.inl ⟨(Pc.timer_of_waits (hb.armed armed)).trans ht, rfl, rfl⟩
  | sigalrmStale armed stale => cases ht
  | timeout hpc =>
    refine Or.inr ⟨.wait, .timeout, by rw [hpc]; rfl, ?_⟩
    have hstep := Timer.Step.timeout (s := ⟨.wait, s.rttinit, s.rttinfo⟩) rfl
    rcases s.timeout_cases with ⟨hmax, hdg⟩ | ⟨hlt, hdg⟩
    · rw [hdg] at ht ⊢
      obtain rfl : Timer.Pc.idle = pc := Option.some.inj ht
      rcases Timer.State.timeout_cases ⟨.wait, s.rttinit, s.rttinfo⟩ with ⟨_, heq⟩ | ⟨hlt, _⟩
      · exact heq ▸ hstep
      · exact absurd hlt (Nat.not_lt.mpr hmax)
    · rw [hdg] at ht ⊢
      obtain rfl : Timer.Pc.sendagain = pc := Option.some.inj ht
      rcases Timer.State.timeout_cases ⟨.wait, s.rttinit, s.rttinfo⟩ with ⟨hmax, _⟩ | ⟨_, heq⟩
      · exact absurd hlt (Nat.not_lt.mpr hmax)
      · exact heq ▸ hstep
  | sysErr hpc => cases ht
  | serve req payload mem => exact Or.inl ⟨ht, rfl, rfl⟩

/-- **The timer of `dg_send_recv`.**  Along a run of calls, `rttinfo` goes through a run of the
timer. -/
theorem Dg.timer_run {es : List Event} (h : Run (Step e) Dg.init es s) {pc : Timer.Pc}
    (hpc : s.pc.timer = some pc) :
    ∃ es', Run Timer.Step Timer.start es' ⟨pc, s.rttinit, s.rttinfo⟩ := by
  induction h generalizing pc with
  | nil =>
    obtain rfl : Timer.Pc.idle = pc := Option.some.inj hpc
    exact ⟨[], Run.nil⟩
  | snoc hr hs ih =>
    rcases hs.timer (Inv.run hr).budget hpc with ⟨hsame, hinit, hinfo⟩ | ⟨pc', ev', hsame, hstep⟩
    · rw [hinit, hinfo]
      exact ih hsame
    · obtain ⟨es', hrun⟩ := ih hsame
      exact ⟨_, hrun.snoc hstep⟩

end Unp
