import Mathlib.Data.List.DropRight

/-!
# Cutting a list into pieces

`cut p w l`: the first piece of `l`, which ends with the first element marked by `p`, or has
length `w`, or is all of `l`; and what comes after it.

* `Piece`         the three ways a piece ends (`cut_piece`);
* `tail`          what comes after the last mark;
* `Piece.settled` a piece keeps the length of the tail modulo `w`, but for a short last one.
-/

namespace Cut

variable {α : Type*} (p : α → Bool)

def cut : Nat → List α → List α × List α
  | 0, l => ([], l)
  | _ + 1, [] => ([], [])
  | w + 1, x :: l =>
    if p x then ([x], l)
    else
      let r := cut w l
      (x :: r.1, r.2)

def Unmarked (l : List α) : Prop := ∀ x ∈ l, p x = false

/-- the piece and the rest: it ends with a mark, or has length `w`, or nothing is left -/
inductive Piece (w : Nat) : List α → List α → Prop where
  | marked {a rest : List α} {x : α} (open_ : Unmarked p a) (mark : p x = true)
      (lt : a.length < w) : Piece w (a ++ [x]) rest
  | full {a rest : List α} (open_ : Unmarked p a) (eq : a.length = w) : Piece w a rest
  | last {a : List α} (open_ : Unmarked p a) (lt : a.length < w) : Piece w a []

/-- what comes after the last mark -/
def tail (l : List α) : List α := l.rtakeWhile (fun x => !p x)

variable {p} {w : Nat} {x : α} {a b l rest : List α}

theorem unmarked_nil : Unmarked p [] := fun _ h => absurd h List.not_mem_nil

theorem unmarked_cons : Unmarked p (x :: l) ↔ p x = false ∧ Unmarked p l := List.forall_mem_cons

theorem unmarked_append : Unmarked p (a ++ b) ↔ Unmarked p a ∧ Unmarked p b :=
  List.forall_mem_append

theorem unmarked_singleton : Unmarked p [x] ↔ p x = false := List.forall_mem_singleton

/-! ## the first piece -/

theorem cut_append (w : Nat) (l : List α) : (cut p w l).1 ++ (cut p w l).2 = l := by
  induction w generalizing l with
  | zero => rfl
  | succ w ih =>
    cases l with
    | nil => rfl
    | cons x l =>
      unfold cut
      split
      · rfl
      · exact congrArg (x :: ·) (ih l)

/-- the first mark ends the piece -/
theorem cut_marked (ha : Unmarked p a) (hx : p x = true) (hw : a.length < w) :
    cut p w (a ++ x :: rest) = (a ++ [x], rest) := by
  induction a generalizing w with
  | nil =>
    obtain ⟨v, rfl⟩ : ∃ v, w = v + 1 := ⟨w - 1, by omega⟩
    rw [List.nil_append]
    unfold cut
    rw [if_pos hx]
    rfl
  | cons y a ih =>
    obtain ⟨hy, ha⟩ := unmarked_cons.mp ha
    obtain ⟨v, rfl⟩ : ∃ v, w = v + 1 := ⟨w - 1, by omega⟩
    rw [List.cons_append]
    unfold cut
    rw [if_neg (by rw [hy]; exact Bool.false_ne_true), ih ha (Nat.lt_of_succ_lt_succ hw)]
    rfl

theorem Piece.cons (hx : p x = false) (h : Piece p w a rest) : Piece p (w + 1) (x :: a) rest := by
  cases h with
  | marked open_ mark lt =>
    exact Piece.marked (a := x :: _) (unmarked_cons.mpr ⟨hx, open_⟩) mark (Nat.succ_lt_succ lt)
  | full open_ eq => exact Piece.full (unmarked_cons.mpr ⟨hx, open_⟩) (congrArg (· + 1) eq)
  | last open_ lt => exact Piece.last (unmarked_cons.mpr ⟨hx, open_⟩) (Nat.succ_lt_succ lt)

theorem cut_piece (w : Nat) (l : List α) : Piece p w (cut p w l).1 (cut p w l).2 := by
  induction w generalizing l with
  | zero => exact Piece.full unmarked_nil rfl
  | succ w ih =>
    cases l with
    | nil => exact Piece.last unmarked_nil (Nat.succ_pos w)
    | cons x l =>
      unfold cut
      split
      · rename_i hx
        exact Piece.marked (a := []) unmarked_nil hx (Nat.succ_pos w)
      · rename_i hx
        exact (ih l).cons (Bool.not_eq_true _ ▸ hx)

/-- there is something to cut, and room for it -/
theorem cut_ne_nil (hw : 0 < w) (hl : l ≠ []) : (cut p w l).1 ≠ [] := by
  obtain ⟨v, rfl⟩ := Nat.exists_eq_add_of_lt hw
  cases l with
  | nil => exact absurd rfl hl
  | cons x l =>
    rw [show 0 + v + 1 = v + 1 by omega]
    unfold cut
    split <;> exact List.cons_ne_nil _ _

theorem Piece.length_le (h : Piece p w a rest) : a.length ≤ w := by
  cases h with
  | marked _ _ lt =>
    rw [List.length_append, List.length_singleton]
    omega
  | full _ eq => omega
  | last _ lt => omega

/-- a mark stands only at the end -/
theorem Piece.rest_nil (h : Piece p w (a ++ x :: b) rest) (hx : p x = true) : b = [] := by
  generalize hl : a ++ x :: b = l at h
  have hno : ¬ Unmarked p l := fun hu => by
    rw [← hl, unmarked_append, unmarked_cons, hx] at hu
    exact Bool.noConfusion hu.2.1
  cases h with
  | @marked a' _ y open_ mark lt =>
    rcases List.eq_nil_or_concat' b with rfl | ⟨b', z, rfl⟩
    · rfl
    · rw [← List.cons_append, ← List.append_assoc] at hl
      obtain ⟨rfl, _⟩ := List.append_inj' hl rfl
      rw [unmarked_append, unmarked_cons, hx] at open_
      exact Bool.noConfusion open_.2.1
  | full open_ _ => exact absurd open_ hno
  | last open_ _ => exact absurd open_ hno

/-! ## the tail -/

theorem tail_unmarked (h : Unmarked p l) : tail p l = l :=
  List.rtakeWhile_eq_self_iff.mpr (fun x hx => by rw [h x hx]; rfl)

theorem tail_concat_marked (h : p x = true) : tail p (l ++ [x]) = [] :=
  List.rtakeWhile_concat_neg _ _ _ (by rw [h]; exact Bool.false_ne_true)

theorem tail_concat (h : p x = false) : tail p (l ++ [x]) = tail p l ++ [x] :=
  List.rtakeWhile_concat_pos _ _ _ (by rw [h]; rfl)

theorem tail_append_unmarked (hb : Unmarked p b) : tail p (a ++ b) = tail p a ++ b := by
  induction b using List.reverseRecOn with
  | nil => rw [List.append_nil, List.append_nil]
  | append_singleton b x ih =>
    obtain ⟨hb, hx⟩ := unmarked_append.mp hb
    rw [← List.append_assoc, tail_concat (unmarked_singleton.mp hx), ih hb, List.append_assoc]

theorem tail_append_marked (hb : ¬ Unmarked p b) : tail p (a ++ b) = tail p b := by
  induction b using List.reverseRecOn with
  | nil => exact absurd unmarked_nil hb
  | append_singleton b x ih =>
    rw [← List.append_assoc]
    cases hx : p x with
    | true => rw [tail_concat_marked hx, tail_concat_marked hx]
    | false =>
      rw [tail_concat hx, tail_concat hx, ih (fun h => hb (unmarked_append.mpr
        ⟨h, unmarked_singleton.mpr hx⟩))]

/-- after a mark the tail is that of the rest -/
theorem tail_after_mark (hx : p x = true) : tail p (a ++ [x] ++ rest) = tail p rest := by
  by_cases h : Unmarked p rest
  · rw [tail_append_unmarked h, tail_concat_marked hx, tail_unmarked h, List.nil_append]
  · exact tail_append_marked h

/-! ## the tail's length modulo `w` -/

/-- in front of anything, `a` does not change the tail's length modulo `w` -/
def Settled (p : α → Bool) (w : Nat) (a : List α) : Prop :=
  ∀ x, (tail p (a ++ x)).length % w = (tail p x).length % w

theorem settled_nil : Settled p w [] := fun _ => rfl

theorem Settled.append (ha : Settled p w a) (hb : Settled p w b) : Settled p w (a ++ b) := by
  intro x
  rw [List.append_assoc, ha (b ++ x), hb x]

theorem settled_marked (hx : p x = true) : Settled p w (a ++ [x]) := fun _ => by
  rw [tail_after_mark hx]

theorem settled_full (ha : Unmarked p a) (hlen : a.length = w) : Settled p w a := by
  intro x
  by_cases hx : Unmarked p x
  · rw [tail_append_unmarked hx, tail_unmarked ha, tail_unmarked hx, List.length_append, hlen,
      Nat.add_mod_left]
  · rw [tail_append_marked hx]

/-- **A piece settles the tail, or it is the tail and too short.** -/
theorem Piece.settled (h : Piece p w a rest) :
    Settled p w a ∨ rest = [] ∧ Unmarked p a ∧ a.length < w := by
  cases h with
  | marked open_ mark lt => exact Or.inl (settled_marked mark)
  | full open_ eq => exact Or.inl (settled_full open_ eq)
  | last open_ lt => exact Or.inr ⟨rfl, open_, lt⟩

end Cut
