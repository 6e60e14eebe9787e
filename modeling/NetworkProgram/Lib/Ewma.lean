import Mathlib.Algebra.Order.Field.Basic
import Mathlib.Tactic.Linarith
import Mathlib.Tactic.Ring

/-!
# Exponentially weighted moving averages

`Ewma.step g x r` is the average `x` after the sample `r`, with gain `g`.  For a gain between 0 and
1 it is between the average and the sample; from samples that are all `r` the average closes in on
`r` by the factor `1 - g` each time (`foldl_replicate`).
-/

namespace Ewma

variable {K : Type*} [Field K] {g x y r : K}

def step (g x r : K) : K := x + g * (r - x)

theorem step_sub (g x r : K) : step g x r - r = (1 - g) * (x - r) := by
  unfold step
  ring

theorem foldl_replicate (g x r : K) (k : Nat) :
    (List.replicate k r).foldl (step g) x = r + (1 - g) ^ k * (x - r) := by
  induction k generalizing x with
  | zero => rw [List.replicate_zero, List.foldl_nil, pow_zero]; ring
  | succ k ih => rw [List.replicate_succ, List.foldl_cons, ih, step_sub, pow_succ]; ring

variable [LinearOrder K] [IsStrictOrderedRing K]

theorem step_le (hg0 : 0 ≤ g) (hg1 : g ≤ 1) (hx : x ≤ y) (hr : r ≤ y) : step g x r ≤ y := by
  have hx' : 0 ≤ (1 - g) * (y - x) := mul_nonneg (by linarith) (by linarith)
  have hr' : 0 ≤ g * (y - r) := mul_nonneg hg0 (by linarith)
  have heq : y - step g x r = (1 - g) * (y - x) + g * (y - r) := by
    unfold step
    ring
  linarith

theorem le_step (hg0 : 0 ≤ g) (hg1 : g ≤ 1) (hx : y ≤ x) (hr : y ≤ r) : y ≤ step g x r := by
  have hx' : 0 ≤ (1 - g) * (x - y) := mul_nonneg (by linarith) (by linarith)
  have hr' : 0 ≤ g * (r - y) := mul_nonneg hg0 (by linarith)
  have heq : step g x r - y = (1 - g) * (x - y) + g * (r - y) := by
    unfold step
    ring
  linarith

end Ewma
