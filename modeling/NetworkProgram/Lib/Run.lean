import Mathlib.Tactic.TypeStar
import Mathlib.Data.List.Induction
import Mathlib.Logic.Function.Iterate

/-!
# Runs of a labelled step relation

`Run step s es t`: the events `es` lead from `s` to `t`.  Three ways to give the steps:

* a relation `step : σ → ε → σ → Prop`;
* `Fn f`    a total function `f : σ → ε → σ` (`Run.fn_iff`: the run is a fold);
* `Opt f`   a partial function `f : σ → ε → Option σ` (`Run.opt_iff`).

`When C step` keeps the steps that meet `C` (a condition on the state before and the event), so
a law that holds only along some runs is an invariant of `When C step`.  `Obey Q step` keeps the
steps that obey `Q`: a run of `step` obeys the law `Q` when it is a run of `Obey Q step`.
-/

namespace Trans

variable {σ ε : Type*}

inductive Run (step : σ → ε → σ → Prop) (s : σ) : List ε → σ → Prop where
  | nil : Run step s [] s
  | snoc {es : List ε} {t : σ} {e : ε} {u : σ} :
      Run step s es t → step t e u → Run step s (es ++ [e]) u

variable {step : σ → ε → σ → Prop} {s t u : σ} {es : List ε}

/-- **Invariant rule.** -/
theorem Run.inv {Inv : σ → Prop} (h0 : Inv s)
    (hstep : ∀ t e u, Inv t → step t e u → Inv u) (h : Run step s es t) : Inv t := by
  induction h with
  | nil => exact h0
  | snoc _ he ih => exact hstep _ _ _ ih he

theorem Run.snoc_iff {e : ε} :
    Run step s (es ++ [e]) u ↔ ∃ t, Run step s es t ∧ step t e u := by
  constructor
  · intro h
    generalize hes : es ++ [e] = es' at h
    cases h with
    | nil => exact absurd hes (by simp)
    | snoc h he =>
      obtain ⟨rfl, hlast⟩ := List.append_inj' hes rfl
      obtain rfl := List.singleton_inj.mp hlast
      exact ⟨_, h, he⟩
  · rintro ⟨t, h, he⟩
    exact h.snoc he

theorem Run.single {e : ε} (h : step s e t) : Run step s [e] t :=
  (Run.nil : Run step s [] s).snoc h

theorem Run.trans {es' : List ε} (h : Run step s es t) (h' : Run step t es' u) :
    Run step s (es ++ es') u := by
  induction h' with
  | nil => rw [List.append_nil]; exact h
  | snoc _ he ih => rw [← List.append_assoc]; exact ih.snoc he

theorem Run.mono {step' : σ → ε → σ → Prop} (hle : ∀ t e u, step t e u → step' t e u)
    (h : Run step s es t) : Run step' s es t := by
  induction h with
  | nil => exact Run.nil
  | snoc _ he ih => exact ih.snoc (hle _ _ _ he)

/-- **Counting rule.**  Where the events that `p` picks apply `g` to what `f` shows and the others
leave it, `f` has gone through `g` once for each of them. -/
theorem Run.iterate_countP {α : Type*} {f : σ → α} {g : α → α} {p : ε → Bool}
    (h : Run step s es t)
    (hstep : ∀ t e u, e ∈ es → step t e u → f u = if p e then g (f t) else f t) :
    f t = g^[es.countP p] (f s) := by
  induction h with
  | nil => rfl
  | snoc _ he ih =>
    have hold := ih (fun t e u hmem => hstep t e u (List.mem_append_left _ hmem))
    have hlast := hstep _ _ _ (List.mem_append_right _ List.mem_cons_self) he
    rw [hlast, hold, List.countP_append, List.countP_singleton]
    split
    · exact (Function.iterate_succ_apply' g _ _).symm
    · rfl

/-- a counter that goes up by one -/
theorem Run.countP_add {f : σ → Int} {p : ε → Bool} (h : Run step s es t)
    (hstep : ∀ t e u, e ∈ es → step t e u → f u = if p e then f t + 1 else f t) :
    f t = f s + es.countP p := by
  have hit : ∀ n : Nat, (· + 1)^[n] (f s) = f s + n := by
    intro n
    induction n with
    | zero => exact (Int.add_zero _).symm
    | succ n ih =>
      rw [Function.iterate_succ_apply', ih]
      exact Int.add_assoc _ _ _
  exact (h.iterate_countP hstep).trans (hit _)

/-! ## steps under a condition -/

/-- the steps of `step` taken where `C` holds -/
def When (C : σ → ε → Prop) (step : σ → ε → σ → Prop) : σ → ε → σ → Prop :=
  fun t e u => C t e ∧ step t e u

theorem Run.of_when {C : σ → ε → Prop} (h : Run (When C step) s es t) : Run step s es t :=
  h.mono (fun _ _ _ hs => hs.2)

/-- the steps of `step` that obey the law `Q` -/
def Obey (Q : σ → ε → σ → Prop) (step : σ → ε → σ → Prop) : σ → ε → σ → Prop :=
  fun t e u => step t e u ∧ Q t e u

/-- **Which runs obey a law.**  Where a step obeys `Q` exactly if it is taken where `C` holds, a run
obeys `Q` exactly if all of it is under the condition `C`. -/
theorem Run.obey_iff_when {C : σ → ε → Prop} {Q : σ → ε → σ → Prop} (Inv : σ → Prop) (h0 : Inv s)
    (hiff : ∀ t e u, Inv t → step t e u → (Q t e u ↔ C t e))
    (hkeep : ∀ t e u, Inv t → When C step t e u → Inv u) :
    Run (Obey Q step) s es t ↔ Run (When C step) s es t := by
  constructor
  · intro h
    induction h with
    | nil => exact Run.nil
    | snoc _ he ih =>
      have hinv := ih.inv h0 hkeep
      exact ih.snoc ⟨(hiff _ _ _ hinv he.1).mp he.2, he.1⟩
  · intro h
    induction h with
    | nil => exact Run.nil
    | snoc hr he ih =>
      have hinv := hr.inv h0 hkeep
      exact ih.snoc ⟨he.2, (hiff _ _ _ hinv he.2).mpr he.1⟩

/-! ## steps of a function -/

/-- the steps of a total function -/
def Fn (f : σ → ε → σ) : σ → ε → σ → Prop := fun t e u => f t e = u

theorem Run.fn_iff {f : σ → ε → σ} : Run (Fn f) s es t ↔ es.foldl f s = t := by
  constructor
  · intro h
    induction h with
    | nil => rfl
    | snoc _ he ih => rw [List.foldl_append, ih]; exact he
  · rintro rfl
    induction es using List.reverseRecOn with
    | nil => exact Run.nil
    | append_singleton es e ih => rw [List.foldl_append]; exact ih.snoc rfl

/-- the steps of a partial function -/
def Opt (f : σ → ε → Option σ) : σ → ε → σ → Prop := fun t e u => f t e = some u

theorem Run.opt_iff {f : σ → ε → Option σ} : Run (Opt f) s es t ↔ es.foldlM f s = some t := by
  constructor
  · intro h
    induction h with
    | nil => rfl
    | snoc _ he ih =>
      rw [List.foldlM_append, ih]
      show ([_] : List ε).foldlM f _ = _
      rw [List.foldlM_cons, show f _ _ = _ from he]
      rfl
  · intro h
    induction es using List.reverseRecOn generalizing t with
    | nil =>
      obtain rfl : s = t := by simpa using h
      exact Run.nil
    | append_singleton es e ih =>
      rw [List.foldlM_append] at h
      cases hm : es.foldlM f s with
      | none => rw [hm] at h; exact absurd h (by simp)
      | some m =>
        rw [hm] at h
        have he : f m e = some t := by simpa using h
        exact (ih hm).snoc he

end Trans
