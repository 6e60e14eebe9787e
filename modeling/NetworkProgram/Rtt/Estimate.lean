import NetworkProgram.Lib.Ewma
import NetworkProgram.Rtt.Timer

/-!
# The estimators of the round-trip time

`rtt_stop` keeps two moving averages: `rtt_srtt` of the samples, with gain `1/8`, and `rtt_rttvar`
of their distances to the former, with gain `1/4`.

* `Estimates M p`        both are within the bounds that samples of at most `M` seconds give;
* `rttStop_srtt_foldl`   `rtt_srtt` after any samples, as a fold of its own;
* `Timer.estimates_run`  the bounds hold along the calls of `dg_send_recv`.
-/

namespace Unp
open Trans

/-- a sample in seconds -/
def seconds (ms : UInt32) : Rat := ms.toNat / 1000

structure Estimates (M : Rat) (p : RttInfo) : Prop where
  srtt0 : 0 ≤ p.rttSrtt
  srtt : p.rttSrtt ≤ M
  rttvar0 : 0 ≤ p.rttRttvar
  rttvar : p.rttRttvar ≤ max (3 / 4) M

variable {M : Rat} {p : RttInfo} {ms : UInt32}

theorem seconds_nonneg (ms : UInt32) : 0 ≤ seconds ms :=
  div_nonneg (Nat.cast_nonneg _) (by norm_num)

/-! ## one sample -/

theorem rttStop_srtt (p : RttInfo) (ms : UInt32) :
    (rttStop p ms).rttSrtt = Ewma.step (1 / 8) p.rttSrtt (seconds ms) := by
  show p.rttSrtt + (seconds ms - p.rttSrtt) / 8 = p.rttSrtt + 1 / 8 * (seconds ms - p.rttSrtt)
  ring

/-- the sign of `delta` is changed between the two updates -/
theorem rttStop_rttvar (p : RttInfo) (ms : UInt32) :
    (rttStop p ms).rttRttvar = Ewma.step (1 / 4) p.rttRttvar |seconds ms - p.rttSrtt| := by
  have habs : (if seconds ms - p.rttSrtt < 0 then -(seconds ms - p.rttSrtt)
      else seconds ms - p.rttSrtt) = |seconds ms - p.rttSrtt| := by
    split
    · rename_i hneg
      exact (abs_of_neg hneg).symm
    · rename_i hpos
      exact (abs_of_nonneg (not_lt.mp hpos)).symm
  have hstop : (rttStop p ms).rttRttvar = p.rttRttvar +
      ((if seconds ms - p.rttSrtt < 0 then -(seconds ms - p.rttSrtt)
        else seconds ms - p.rttSrtt) - p.rttRttvar) / 4 := rfl
  rw [hstop, habs]
  unfold Ewma.step
  ring

theorem estimates_rttInit (hM : 0 ≤ M) (p : RttInfo) (tv : Timeval) :
    Estimates M (rttInit p tv) := by
  refine ⟨le_rfl, hM, ?_, le_max_left _ _⟩
  show (0 : Rat) ≤ 3 / 4
  norm_num

theorem Estimates.rttStop (h : Estimates M p) (hms : seconds ms ≤ M) :
    Estimates M (rttStop p ms) := by
  have hdelta : |seconds ms - p.rttSrtt| ≤ M :=
    abs_sub_le_of_nonneg_of_le (seconds_nonneg ms) hms h.srtt0 h.srtt
  refine ⟨?_, ?_, ?_, ?_⟩
  · rw [rttStop_srtt]
    exact Ewma.le_step (by norm_num) (by norm_num) h.srtt0 (seconds_nonneg ms)
  · rw [rttStop_srtt]
    exact Ewma.step_le (by norm_num) (by norm_num) h.srtt hms
  · rw [rttStop_rttvar]
    exact Ewma.le_step (by norm_num) (by norm_num) h.rttvar0 (abs_nonneg _)
  · rw [rttStop_rttvar]
    exact Ewma.step_le (by norm_num) (by norm_num) h.rttvar (hdelta.trans (le_max_right _ _))

/-! ## sequences of samples -/

theorem Estimates.foldl (h : Estimates M p) (mss : List UInt32)
    (hmss : ∀ ms ∈ mss, seconds ms ≤ M) : Estimates M (mss.foldl Unp.rttStop p) := by
  induction mss generalizing p with
  | nil => exact h
  | cons ms mss ih =>
    have hfirst := h.rttStop (hmss ms (List.mem_cons_self ..))
    exact ih hfirst (fun x hx => hmss x (List.mem_cons_of_mem _ hx))

theorem rttStop_srtt_foldl (p : RttInfo) (mss : List UInt32) :
    (mss.foldl rttStop p).rttSrtt = (mss.map seconds).foldl (Ewma.step (1 / 8)) p.rttSrtt := by
  induction mss generalizing p with
  | nil => rfl
  | cons ms mss ih => rw [List.foldl_cons, List.map_cons, List.foldl_cons, ih, rttStop_srtt]

/-- the timer after `rtt_init` and `k` equal samples -/
def steady (p : RttInfo) (tv : Timeval) (ms : UInt32) (k : Nat) : RttInfo :=
  (List.replicate k ms).foldl rttStop (rttInit p tv)

theorem steady_srtt (p : RttInfo) (tv : Timeval) (ms : UInt32) (k : Nat) :
    (steady p tv ms k).rttSrtt = seconds ms * (1 - (7 / 8) ^ k) := by
  unfold steady
  have hinit : (rttInit p tv).rttSrtt = 0 := rfl
  have hgain : (1 : Rat) - 1 / 8 = 7 / 8 := by norm_num
  rw [rttStop_srtt_foldl, List.map_replicate, Ewma.foldl_replicate, hinit, hgain]
  ring

/-- **The estimators keep within the samples.**  After `rtt_init`, and after each of any samples of
at most `M` seconds, `rtt_srtt` is in `[0, M]` and `rtt_rttvar` in `[0, max (3/4) M]`; and after `k`
samples of `R` seconds `rtt_srtt` is `R * (1 - (7/8)^k)`, which rises with `k` and stays below `R`. -/
theorem rtt_estimators (p : RttInfo) (tv : Timeval) :
    (∀ (M : Rat) (mss : List UInt32), (∀ ms ∈ mss, seconds ms ≤ M) →
      ∀ done, done <+: mss → done ≠ [] → Estimates M (done.foldl rttStop (rttInit p tv))) ∧
    (∀ (ms : UInt32) (k : Nat), (steady p tv ms k).rttSrtt = seconds ms * (1 - (7 / 8) ^ k) ∧
      (steady p tv ms k).rttSrtt ≤ (steady p tv ms (k + 1)).rttSrtt ∧
      (steady p tv ms k).rttSrtt ≤ seconds ms) := by
  constructor
  · intro M mss hmss done hpre hne
    have hdone : ∀ ms ∈ done, seconds ms ≤ M := fun ms hms => hmss ms (hpre.subset hms)
    -- one sample is enough to know that `M` is not negative
    have hM : 0 ≤ M := by
      obtain ⟨ms, hms⟩ := List.exists_mem_of_ne_nil done hne
      exact (seconds_nonneg ms).trans (hdone ms hms)
    exact (estimates_rttInit hM p tv).foldl done hdone
  · intro ms k
    have hgap : 0 ≤ seconds ms * (7 / 8) ^ k := mul_nonneg (seconds_nonneg ms) (by positivity)
    refine ⟨steady_srtt p tv ms k, ?_, ?_⟩
    · rw [steady_srtt, steady_srtt, pow_succ]
      linarith
    · rw [steady_srtt]
      linarith

/-- samples of 100 ms and 300 ms -/
theorem rtt_estimators_two :
    Estimates (3 / 10) ([100, 300].foldl rttStop (rttInit ⟨0, 0, 0, 0, 0, 0⟩ ⟨0, 0⟩)) := by
  refine (rtt_estimators _ _).1 (3 / 10) [100, 300] ?_ _ (List.prefix_refl _) (List.cons_ne_nil _ _)
  intro ms hms
  have hlow : ms.toNat ≤ 300 := by
    rcases List.mem_pair.mp hms with rfl | rfl <;> decide
  calc seconds ms ≤ (300 : Nat) / 1000 := by unfold seconds; gcongr
    _ = 3 / 10 := by norm_num

/-! ## the calls of `dg_send_recv` -/

namespace Timer

/-- no sample is above `M` seconds -/
def Sampled (M : Rat) (_ : State) (e : Event) : Prop := ∀ ms, e = .stop ms → seconds ms ≤ M

theorem estimates_step {s t : State} {ev : Event} (hM : 0 ≤ M) (h : Estimates M s.rttinfo)
    (hs : When (Sampled M) Step s ev t) : Estimates M t.rttinfo := by
  obtain ⟨hms, hs⟩ := hs
  cases hs with
  | call tv pc =>
    have hinfo : Estimates M (if s.rttinit = false then rttInit s.rttinfo tv else s.rttinfo) := by
      split
      · exact estimates_rttInit hM _ _
      · exact h
    exact ⟨hinfo.srtt0, hinfo.srtt, hinfo.rttvar0, hinfo.rttvar⟩
  | start pc => exact h
  | stop ms pc => exact h.rttStop (hms ms rfl)
  | timeout pc =>
    rw [s.timeout_rttinfo]
    exact ⟨h.srtt0, h.srtt, h.rttvar0, h.rttvar⟩

/-- over any run of the timer, with its timeouts and its restarts -/
theorem estimates_run {es : List Event} {t : State} (hM : 0 ≤ M)
    (h : Run (When (Sampled M) Step) start es t) : Estimates M t.rttinfo := by
  induction h with
  | nil => exact ⟨le_rfl, hM, le_rfl, hM.trans (le_max_right _ _)⟩
  | snoc _ hs ih => exact estimates_step hM ih hs

end Timer

end Unp
