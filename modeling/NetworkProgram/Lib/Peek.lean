import Mathlib.Data.List.Basic

/-!
# Computations that look at a memory

A `Peek ι β α` looks at cells of a memory `ι → β`, one after the other, and each choice depends on
what it has seen before.

* `run m`        the result on the memory `m`;
* `cells m`      the cells it looks at on the way;
* `Within P m`   it looks at cells in `P` only (`within_bind`: a sequence does when its parts do);
* `Within.run_eq`  then the result depends on the cells in `P` only.
-/

inductive Peek (ι β α : Type) where
  | ret (a : α)
  | look (i : ι) (k : β → Peek ι β α)

namespace Peek

variable {ι β α γ : Type}

def andThen : Peek ι β α → (α → Peek ι β γ) → Peek ι β γ
  | .ret a, f => f a
  | .look i k, f => .look i (fun b => (k b).andThen f)

instance : Monad (Peek ι β) where
  pure := .ret
  bind := andThen

/-- the cell `i` -/
def cell (i : ι) : Peek ι β β := .look i .ret

/-- the cells in `l`, in this order -/
def cellsOf : List ι → Peek ι β (List β)
  | [] => pure []
  | i :: l => do
    let b ← cell i
    let bs ← cellsOf l
    return b :: bs

def run (m : ι → β) : Peek ι β α → α
  | .ret a => a
  | .look i k => (k (m i)).run m

def cells (m : ι → β) : Peek ι β α → List ι
  | .ret _ => []
  | .look i k => i :: (k (m i)).cells m

variable {m m' : ι → β} {P : ι → Prop}

/-! ## run -/

@[simp] theorem run_pure (a : α) : (pure a : Peek ι β α).run m = a := rfl

@[simp] theorem run_cell (i : ι) : (cell i : Peek ι β β).run m = m i := rfl

@[simp] theorem run_bind (t : Peek ι β α) (f : α → Peek ι β γ) :
    (t >>= f).run m = (f (t.run m)).run m := by
  show (t.andThen f).run m = _
  induction t with
  | ret a => rfl
  | look i k ih => exact ih (m i)

@[simp] theorem run_ite (c : Prop) [Decidable c] (t u : Peek ι β α) :
    (if c then t else u).run m = if c then t.run m else u.run m := by
  split <;> rfl

@[simp] theorem run_cellsOf (l : List ι) : (cellsOf l : Peek ι β (List β)).run m = l.map m := by
  induction l with
  | nil => rfl
  | cons i l ih =>
    unfold cellsOf
    rw [run_bind, run_bind, ih]
    rfl

/-! ## the cells looked at -/

theorem cells_bind (t : Peek ι β α) (f : α → Peek ι β γ) :
    (t >>= f).cells m = t.cells m ++ (f (t.run m)).cells m := by
  show (t.andThen f).cells m = _
  induction t with
  | ret a => rfl
  | look i k ih => exact congrArg (i :: ·) (ih (m i))

/-- **What a computation has not looked at makes no difference.** -/
theorem run_agree (t : Peek ι β α) (h : ∀ i ∈ t.cells m, m' i = m i) : t.run m' = t.run m := by
  induction t with
  | ret a => rfl
  | look i k ih =>
    have hi : m' i = m i := h i (List.mem_cons_self ..)
    show (k (m' i)).run m' = (k (m i)).run m
    rw [hi]
    exact ih (m i) (fun j hj => h j (List.mem_cons_of_mem _ hj))

/-- all cells looked at are in `P` -/
def Within (P : ι → Prop) (m : ι → β) (t : Peek ι β α) : Prop := ∀ i ∈ t.cells m, P i

@[simp] theorem within_pure (a : α) : Within P m (pure a : Peek ι β α) :=
  fun _ h => absurd h List.not_mem_nil

@[simp] theorem within_cell {i : ι} : Within P m (cell i : Peek ι β β) ↔ P i :=
  List.forall_mem_singleton

@[simp] theorem within_bind {t : Peek ι β α} {f : α → Peek ι β γ} :
    Within P m (t >>= f) ↔ Within P m t ∧ Within P m (f (t.run m)) := by
  unfold Within
  rw [cells_bind, List.forall_mem_append]

theorem within_ite {c : Prop} [Decidable c] {t u : Peek ι β α} (ht : c → Within P m t)
    (hu : ¬ c → Within P m u) : Within P m (if c then t else u) := by
  split
  · exact ht ‹_›
  · exact hu ‹_›

@[simp] theorem within_cellsOf {l : List ι} :
    Within P m (cellsOf l : Peek ι β (List β)) ↔ ∀ i ∈ l, P i := by
  induction l with
  | nil => exact ⟨fun _ _ h => absurd h List.not_mem_nil, fun _ => within_pure []⟩
  | cons i l ih =>
    unfold cellsOf
    rw [within_bind, within_bind, within_cell, ih, List.forall_mem_cons]
    exact ⟨fun h => ⟨h.1, h.2.1⟩, fun h => ⟨h.1, h.2, within_pure _⟩⟩

theorem Within.run_eq {t : Peek ι β α} (h : Within P m t) (hm : ∀ i, P i → m' i = m i) :
    t.run m' = t.run m := t.run_agree (fun i hi => hm i (h i hi))

end Peek
