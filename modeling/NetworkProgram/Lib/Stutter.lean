import Mathlib.Data.List.Destutter

/-!
# Keeping what changes

`List.destutter R` keeps an element where `R` holds between the last one kept and it.  Read from the
left, with the last one kept at hand, it grows by one element or stays (`destutter_concat`).
-/

namespace Stutter

variable {α : Type*} {R : α → α → Prop} [DecidableRel R] {a b : α} {l : List α}

theorem destutter'_concat (h : (l.destutter' R a).getLast? = some b) (c : α) :
    (l ++ [c]).destutter' R a =
      if R b c then l.destutter' R a ++ [c] else l.destutter' R a := by
  induction l generalizing a with
  | nil =>
    obtain rfl : a = b := Option.some.inj h
    exact List.destutter'_singleton R
  | cons d l ih =>
    rw [List.cons_append]
    by_cases hd : R a d
    · rw [List.destutter'_cons_pos _ hd] at h
      rw [List.destutter'_cons_pos _ hd, List.destutter'_cons_pos _ hd]
      rw [List.getLast?_cons_of_ne_nil (List.destutter'_ne_nil _ _)] at h
      rw [ih h]
      split <;> rfl
    · rw [List.destutter'_cons_neg _ hd] at h
      rw [List.destutter'_cons_neg _ hd, List.destutter'_cons_neg _ hd]
      exact ih h

/-- **One more element**, behind the last one kept. -/
theorem destutter_concat (h : (l.destutter R).getLast? = some b) (c : α) :
    (l ++ [c]).destutter R = if R b c then l.destutter R ++ [c] else l.destutter R := by
  cases l with
  | nil => cases h
  | cons a l => exact destutter'_concat h c

/-- the first element is kept -/
theorem destutter_first (h : (l.destutter R).getLast? = none) (c : α) :
    (l ++ [c]).destutter R = l.destutter R ++ [c] := by
  rw [List.getLast?_eq_none_iff, List.destutter_eq_nil] at h
  rw [h]
  rfl

end Stutter
