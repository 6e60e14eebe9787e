import Mathlib.Data.List.Basic

/-!
# Lists in which equal keys are adjacent

* `fresh key x l`    the elements of `l` whose key is not that of the one before, `x` at first;
* `firsts key l`     the first element of each key, in the order of the list;
* `fresh_eq_firsts`  they are the same where equal keys are adjacent.
-/

namespace Grouped

variable {α κ : Type*}

/-- what stands between two equal keys is that key -/
def Adjacent (ks : List κ) : Prop := ∀ a b c x, ks = a ++ x :: (b ++ x :: c) → ∀ y ∈ b, y = x

section
variable [DecidableEq κ]

def fresh (key : α → κ) (x : κ) : List α → List α
  | [] => []
  | r :: l => if x = key r then fresh key x l else r :: fresh key (key r) l

def firsts (key : α → κ) (l : List α) : List α :=
  (l.map key).eraseDups.filterMap (fun k => l.find? (fun r => key r == k))

end

variable {key : α → κ} {x y : κ} {r : α} {l : List α} {ks : List κ}

theorem Adjacent.tail (h : Adjacent (x :: ks)) : Adjacent ks := by
  intro a b c y hks
  exact h (x :: a) b c y (congrArg (x :: ·) hks)

theorem Adjacent.skip (h : Adjacent (x :: x :: ks)) : Adjacent (x :: ks) := h.tail

/-- behind another key it does not come back -/
theorem Adjacent.not_mem (h : Adjacent (x :: y :: ks)) (hne : y ≠ x) : x ∉ ks := by
  intro hx
  obtain ⟨b, c, rfl⟩ := List.append_of_mem hx
  exact hne (h [] (y :: b) c x rfl y (List.mem_cons_self ..))

theorem Adjacent.cons (h : Adjacent ks) (hx : x ∉ ks) : Adjacent (x :: ks) := by
  intro a b c y hks
  cases a with
  | nil =>
    obtain ⟨rfl, rfl⟩ := List.cons.inj hks
    exact absurd (List.mem_append_right _ (List.mem_cons_self ..)) hx
  | cons a0 a => exact h a b c y (List.cons.inj hks).2

variable [DecidableEq κ]

theorem filter_ne_of_notMem (hx : x ∉ ks) : ks.filter (fun k => !(k == x)) = ks := by
  refine List.filter_eq_self.mpr fun k hk => ?_
  rw [Bool.not_eq_true', beq_eq_false_iff_ne]
  rintro rfl
  exact hx hk

theorem find?_here : (r :: l).find? (fun r' => key r' == key r) = some r :=
  List.find?_cons_of_pos (beq_self_eq_true (key r))

theorem find?_behind {k : κ} (hk : key r ≠ k) :
    (r :: l).find? (fun r => key r == k) = l.find? (fun r => key r == k) :=
  List.find?_cons_of_neg (fun h => hk (eq_of_beq h))

theorem filterMap_behind (hks : key r ∉ ks) :
    ks.filterMap (fun k => (r :: l).find? (fun r => key r == k)) =
      ks.filterMap (fun k => l.find? (fun r => key r == k)) :=
  List.filterMap_congr (fun _ hk => find?_behind (fun heq => hks (heq ▸ hk)))

theorem notMem_eraseDups_filter : x ∉ (ks.filter (fun k => !(k == x))).eraseDups := by
  intro hx
  have hmem := (List.mem_filter.mp (List.mem_eraseDups.mp hx)).2
  simp at hmem

theorem fresh_eq (h : Adjacent (x :: l.map key)) : fresh key x l =
    (((l.map key).filter (fun k => !(k == x))).eraseDups).filterMap
      (fun k => l.find? (fun r => key r == k)) := by
  induction l generalizing x with
  | nil => rfl
  | cons r l ih =>
    rw [List.map_cons] at h ⊢
    unfold fresh
    by_cases hr : x = key r
    · subst hr
      rw [if_pos rfl, ih h.skip, List.filter_cons_of_neg (by simp)]
      exact (filterMap_behind notMem_eraseDups_filter).symm
    · have hx : x ∉ key r :: l.map key := by
        intro hmem
        rcases List.mem_cons.mp hmem with heq | htail
        · exact hr heq
        · exact h.not_mem (Ne.symm hr) htail
      rw [if_neg hr, ih h.tail, filter_ne_of_notMem hx, List.eraseDups_cons, List.filterMap_cons,
        find?_here]
      exact congrArg (r :: ·) (filterMap_behind notMem_eraseDups_filter).symm

/-- **Where equal keys are adjacent, skipping repetitions leaves the first of each key.** -/
theorem fresh_eq_firsts (h : Adjacent (l.map key)) (hx : x ∉ l.map key) :
    fresh key x l = firsts key l := by
  rw [fresh_eq (h.cons hx), filter_ne_of_notMem hx]
  rfl

end Grouped
