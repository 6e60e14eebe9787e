import Mathlib.Algebra.BigOperators.Group.Finset.Piecewise
import Mathlib.Logic.Function.Basic
import Mathlib.Tactic.TypeStar

/-!
# Counting the entries of a table

`Tally.count S p f` is how many `i ∈ S` have `p (f i)`.  One updated entry changes the count by what
the old and the new value contribute (`count_update`), and so for any sum (`sum_update`).
-/

namespace Tally
open Finset

variable {ι α : Type*}

def count (S : Finset ι) (p : α → Bool) (f : ι → α) : Nat := (S.filter (fun i => p (f i))).card

variable {S : Finset ι} {p : α → Bool} {f : ι → α}

theorem count_eq_sum : count S p f = ∑ i ∈ S, (p (f i)).toNat := by
  unfold count
  rw [card_filter]
  apply sum_congr rfl
  intro i _
  cases p (f i) <;> rfl

theorem count_le : count S p f ≤ S.card := card_filter_le _ _

theorem count_all (h : ∀ i ∈ S, p (f i) = true) : count S p f = S.card := by
  unfold count
  rw [filter_true_of_mem h]

theorem count_eq_zero_iff : count S p f = 0 ↔ ∀ i ∈ S, p (f i) = false := by
  unfold count
  rw [card_eq_zero, filter_eq_empty_iff]
  simp only [Bool.not_eq_true]

theorem count_pos_iff : 0 < count S p f ↔ ∃ i ∈ S, p (f i) = true := by
  unfold count
  rw [card_pos]
  constructor
  · rintro ⟨i, hi⟩
    exact ⟨i, (mem_filter.mp hi).1, (mem_filter.mp hi).2⟩
  · rintro ⟨i, hi, hp⟩
    exact ⟨i, mem_filter.mpr ⟨hi, hp⟩⟩

variable [DecidableEq ι]

/-- one entry of a sum updated -/
theorem sum_update {M : Type*} [AddCommMonoid M] (g : α → M) {i : ι} (hi : i ∈ S) (x : α) :
    ∑ j ∈ S, g (Function.update f i x j) + g (f i) = ∑ j ∈ S, g (f j) + g x := by
  have hrest : ∑ j ∈ S.erase i, g (Function.update f i x j) = ∑ j ∈ S.erase i, g (f j) := by
    apply sum_congr rfl
    intro j hj
    rw [Function.update_of_ne (ne_of_mem_erase hj)]
  rw [← add_sum_erase S _ hi, ← add_sum_erase S _ hi, hrest, Function.update_self, add_comm (g x),
    add_comm (g (f i)), add_right_comm]

/-- **One entry updated.** -/
theorem count_update {i : ι} (hi : i ∈ S) (x : α) :
    count S p (Function.update f i x) + (p (f i)).toNat = count S p f + (p x).toNat := by
  rw [count_eq_sum, count_eq_sum]
  exact sum_update (fun a => (p a).toNat) hi x

/-- one entry more -/
theorem count_push (p : α → Bool) (f : Nat → α) (n : Nat) (x : α) :
    count (range (n + 1)) p (Function.update f n x) = count (range n) p f + (p x).toNat := by
  rw [count_eq_sum, count_eq_sum, sum_range_succ, Function.update_self]
  congr 1
  apply sum_congr rfl
  intro i hi
  rw [Function.update_of_ne (Nat.ne_of_lt (mem_range.mp hi))]

end Tally
