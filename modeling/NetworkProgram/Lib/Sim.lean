import NetworkProgram.Lib.Run

/-!
# Forward simulations

`Sim step step' obs R`: a step `e` on the left, taken from related states, is matched on the right
by a run of the events `obs e`, and the states behind it are related again.

* `Sim.run`           a whole run on the left is matched by one on the right;
* `Run.when_of_all`   a run whose events all meet a condition is a run under it;
* `Run.length_le`     where every step makes a measure smaller, no run is longer than it.
-/

namespace Trans

variable {σ τ ε δ : Type*}

structure Sim (step : σ → ε → σ → Prop) (step' : τ → δ → τ → Prop) (obs : ε → List δ)
    (R : σ → τ → Prop) : Prop where
  step : ∀ s e t a, R s a → step s e t → ∃ b, Run step' a (obs e) b ∧ R t b

variable {step : σ → ε → σ → Prop} {step' : τ → δ → τ → Prop} {obs : ε → List δ}
  {R : σ → τ → Prop} {s t : σ} {a : τ} {es : List ε}

theorem Sim.run (h : Sim step step' obs R) (hr : R s a) (hrun : Run step s es t) :
    ∃ b, Run step' a (es.flatMap obs) b ∧ R t b := by
  induction hrun with
  | nil => exact ⟨a, Run.nil, hr⟩
  | snoc _ he ih =>
    obtain ⟨b, hb, hrb⟩ := ih
    obtain ⟨c, hc, hrc⟩ := h.step _ _ _ _ hrb he
    refine ⟨c, ?_, hrc⟩
    rw [List.flatMap_append, List.flatMap_singleton]
    exact hb.trans hc

theorem Run.when_of_all {C : σ → ε → Prop} {P : ε → Prop} (hP : ∀ s e, P e → C s e)
    (hall : ∀ e ∈ es, P e) (h : Run step s es t) : Run (When C step) s es t := by
  induction h with
  | nil => exact Run.nil
  | snoc _ he ih =>
    have hlast := hall _ (List.mem_append_right _ (List.mem_singleton_self _))
    exact (ih (fun e hmem => hall e (List.mem_append_left _ hmem))).snoc ⟨hP _ _ hlast, he⟩

/-- **The measure of a run.** -/
theorem Run.length_le {Inv : σ → Prop} (μ : σ → Nat) (h0 : Inv s)
    (hkeep : ∀ t e u, Inv t → step t e u → Inv u)
    (hdec : ∀ t e u, Inv t → step t e u → μ u < μ t) (h : Run step s es t) :
    es.length + μ t ≤ μ s := by
  induction h with
  | nil => exact Nat.le_of_eq (Nat.zero_add _)
  | snoc hr he ih =>
    have hlt := hdec _ _ _ (hr.inv h0 hkeep) he
    rw [List.length_append, List.length_singleton]
    omega

end Trans
