import Mathlib.Data.Finset.Erase
import Mathlib.Data.Finset.Insert
import Mathlib.Data.List.Basic
import Mathlib.Tactic.TypeStar

/-!
# Acquisitions and releases

A log of entries, the latest first.  `held` is what has been acquired and not released; a log is
`Balanced` when only what is not held is acquired and only what is held is released.  Then every
acquisition is matched by one release, or by none and is still held (`Balanced.account`).
-/

namespace Ledger

inductive Entry (α : Type*) where
  | acquire (x : α)
  | release (x : α)
  deriving DecidableEq

variable {α : Type*} [DecidableEq α]

def Entry.item : Entry α → α
  | .acquire x => x
  | .release x => x

/-- what is held after an entry -/
def Entry.apply : Entry α → Finset α → Finset α
  | .acquire x, held => insert x held
  | .release x, held => held.erase x

def held : List (Entry α) → Finset α
  | [] => ∅
  | e :: log => e.apply (held log)

/-- the entry is in order when `held` is held -/
def Entry.Fits : Entry α → Finset α → Prop
  | .acquire x, held => x ∉ held
  | .release x, held => x ∈ held

def Balanced : List (Entry α) → Prop
  | [] => True
  | e :: log => e.Fits (held log) ∧ Balanced log

variable {x : α} {new old log : List (Entry α)}

@[simp] theorem held_acquire : held (.acquire x :: log) = insert x (held log) := rfl

@[simp] theorem held_release : held (.release x :: log) = (held log).erase x := rfl

@[simp] theorem balanced_acquire :
    Balanced (.acquire x :: log) ↔ x ∉ held log ∧ Balanced log := Iff.rfl

@[simp] theorem balanced_release :
    Balanced (.release x :: log) ↔ x ∈ held log ∧ Balanced log := Iff.rfl

theorem Balanced.older (h : Balanced (new ++ old)) : Balanced old := by
  induction new with
  | nil => exact h
  | cons e new ih => exact ih h.2

/-- after a log that leaves nothing held a new one begins -/
theorem held_append (h : held old = ∅) : held (new ++ old) = held new := by
  induction new with
  | nil => exact h
  | cons e new ih => exact congrArg e.apply ih

theorem Balanced.append (hnew : Balanced new) (hold : Balanced old) (h : held old = ∅) :
    Balanced (new ++ old) := by
  induction new with
  | nil => exact hold
  | cons e new ih => exact ⟨(held_append h).symm ▸ hnew.1, ih hnew.2⟩

/-- what is released is held -/
theorem Balanced.release_mem (h : Balanced (new ++ .release x :: old)) : x ∈ held old :=
  (balanced_release.mp h.older).1

/-- **One release for each acquisition**, or none while it is held. -/
theorem Balanced.account (h : Balanced (new ++ .acquire x :: old)) (hlast : .acquire x ∉ new) :
    (new.count (.release x) = 0 ∧ x ∈ held (new ++ .acquire x :: old)) ∨
    (new.count (.release x) = 1 ∧ x ∉ held (new ++ .acquire x :: old)) := by
  induction new with
  | nil => exact Or.inl ⟨rfl, Finset.mem_insert_self ..⟩
  | cons e new ih =>
    rw [List.mem_cons, not_or] at hlast
    have hrest := ih h.2 hlast.2
    rw [List.cons_append]
    cases e with
    | acquire y =>
      have hxy : x ≠ y := fun hxy => hlast.1 (congrArg Entry.acquire hxy)
      rw [List.count_cons_of_ne (by simp), held_acquire, Finset.mem_insert]
      simpa [hxy] using hrest
    | release y =>
      rw [held_release, Finset.mem_erase]
      by_cases hxy : y = x
      · subst hxy
        -- a second release of `y` does not fit
        have hmem := (balanced_release.mp h).1
        obtain ⟨hcount, _⟩ := hrest.resolve_right (fun hr => hr.2 hmem)
        rw [List.count_cons_self, hcount]
        exact Or.inr ⟨rfl, fun hc => hc.1 rfl⟩
      · rw [List.count_cons_of_ne (fun hc => hxy (Entry.release.inj hc))]
        simpa [Ne.symm hxy] using hrest

/-- an acquisition that is followed by another of the same has been released once in between -/
theorem Balanced.between {newer : List (Entry α)}
    (h : Balanced (newer ++ .acquire x :: (new ++ .acquire x :: old))) (hlast : .acquire x ∉ new) :
    new.count (.release x) = 1 := by
  obtain ⟨hnot, hbal⟩ := balanced_acquire.mp h.older
  rcases hbal.account hlast with ⟨_, hmem⟩ | ⟨hone, _⟩
  · exact absurd hmem hnot
  · exact hone

end Ledger
