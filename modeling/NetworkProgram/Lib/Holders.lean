import Mathlib.Data.Finset.Card
import Mathlib.Data.Finset.Image
import Mathlib.Logic.Function.Basic
import Mathlib.Tactic.TypeStar

/-!
# The keys held by some entries of a table

`held S p key f`: the keys of the entries `f i`, `i ∈ S`, that satisfy `p`.  Where no two of these
entries have the same key (`Apart`), one updated entry adds its key to the set, takes it out, or
leaves the set alone.
-/

set_option linter.unusedSectionVars false

namespace Holders
open Finset

variable {ι α κ : Type*} [DecidableEq κ]

def held (S : Finset ι) (p : α → Bool) (key : α → κ) (f : ι → α) : Finset κ :=
  (S.filter (fun i => p (f i))).image (fun i => key (f i))

/-- no two entries that satisfy `p` have the same key -/
def Apart (S : Finset ι) (p : α → Bool) (key : α → κ) (f : ι → α) : Prop :=
  ∀ i ∈ S, ∀ j ∈ S, p (f i) = true → p (f j) = true → key (f i) = key (f j) → i = j

variable {S : Finset ι} {p q : α → Bool} {key : α → κ} {f : ι → α} {i : ι} {x : α} {y : κ}

theorem mem_held : y ∈ held S p key f ↔ ∃ i ∈ S, p (f i) = true ∧ key (f i) = y := by
  unfold held
  simp only [mem_image, mem_filter, and_assoc]

theorem key_mem (hi : i ∈ S) (hp : p (f i) = true) : key (f i) ∈ held S p key f :=
  mem_held.mpr ⟨i, hi, hp, rfl⟩

theorem Apart.mono (h : Apart S q key f) (hpq : ∀ a, p a = true → q a = true) :
    Apart S p key f := fun i hi j hj hpi hpj => h i hi j hj (hpq _ hpi) (hpq _ hpj)

/-- no entry satisfies `p` -/
theorem held_empty (h : ∀ i ∈ S, p (f i) = false) : held S p key f = ∅ := by
  rw [eq_empty_iff_forall_notMem]
  intro y hy
  obtain ⟨i, hi, hp, _⟩ := mem_held.mp hy
  rw [h i hi] at hp
  cases hp

theorem apart_empty (h : ∀ i ∈ S, p (f i) = false) : Apart S p key f := by
  intro i hi j _ hp
  rw [h i hi] at hp
  cases hp

/-! ## one entry updated -/

variable [DecidableEq ι]

/-- what the other entries hold, and the new one -/
theorem mem_held_update (hi : i ∈ S) : y ∈ held S p key (Function.update f i x) ↔
    p x = true ∧ key x = y ∨ ∃ j ∈ S, j ≠ i ∧ p (f j) = true ∧ key (f j) = y := by
  rw [mem_held]
  constructor
  · rintro ⟨j, hj, hp, hkey⟩
    by_cases hji : j = i
    · rw [hji, Function.update_self] at hp hkey
      exact Or.inl ⟨hp, hkey⟩
    · rw [Function.update_of_ne hji] at hp hkey
      exact Or.inr ⟨j, hj, hji, hp, hkey⟩
  · rintro (⟨hp, hkey⟩ | ⟨j, hj, hji, hp, hkey⟩)
    · exact ⟨i, hi, by rw [Function.update_self]; exact ⟨hp, hkey⟩⟩
    · exact ⟨j, hj, by rw [Function.update_of_ne hji]; exact ⟨hp, hkey⟩⟩

/-- an entry that held nothing -/
theorem held_gain (hi : i ∈ S) (hold : p (f i) = false) (hx : p x = true) :
    held S p key (Function.update f i x) = insert (key x) (held S p key f) := by
  ext y
  rw [mem_held_update hi, mem_insert, mem_held]
  constructor
  · rintro (⟨_, rfl⟩ | ⟨j, hj, _, hp⟩)
    · exact Or.inl rfl
    · exact Or.inr ⟨j, hj, hp⟩
  · rintro (rfl | ⟨j, hj, hp, hkey⟩)
    · exact Or.inl ⟨hx, rfl⟩
    · refine Or.inr ⟨j, hj, ?_, hp, hkey⟩
      rintro rfl
      rw [hold] at hp
      cases hp

/-- an entry that holds nothing any more -/
theorem held_lose (h : Apart S p key f) (hi : i ∈ S) (hold : p (f i) = true) (hx : p x = false) :
    held S p key (Function.update f i x) = (held S p key f).erase (key (f i)) := by
  ext y
  rw [mem_held_update hi, mem_erase, mem_held]
  constructor
  · rintro (⟨hp, _⟩ | ⟨j, hj, hji, hp, rfl⟩)
    · rw [hx] at hp
      cases hp
    · exact ⟨fun hkey => hji (h j hj i hi hp hold hkey), j, hj, hp, rfl⟩
  · rintro ⟨hne, j, hj, hp, rfl⟩
    refine Or.inr ⟨j, hj, ?_, hp, rfl⟩
    rintro rfl
    exact hne rfl

/-- an entry that holds what it held -/
theorem held_keep (hi : i ∈ S) (hp : p x = p (f i)) (hkey : p x = true → key x = key (f i)) :
    held S p key (Function.update f i x) = held S p key f := by
  ext y
  rw [mem_held_update hi, mem_held]
  constructor
  · rintro (⟨hx, rfl⟩ | ⟨j, hj, _, hpj⟩)
    · exact ⟨i, hi, hp ▸ hx, (hkey hx).symm⟩
    · exact ⟨j, hj, hpj⟩
  · rintro ⟨j, hj, hpj, rfl⟩
    by_cases hji : j = i
    · subst hji
      have hx := hp.trans hpj
      exact Or.inl ⟨hx, hkey hx⟩
    · exact Or.inr ⟨j, hj, hji, hpj, rfl⟩

/-- the updated entry holds a key of its own, or nothing -/
theorem Apart.update (h : Apart S p key f) (hnew : p x = true →
    ∀ j ∈ S, j ≠ i → p (f j) = true → key (f j) ≠ key x) :
    Apart S p key (Function.update f i x) := by
  intro j hj k hk
  by_cases hji : j = i
  · rw [hji, Function.update_self]
    by_cases hki : k = i
    · intro _ _ _
      exact hki.symm
    · rw [Function.update_of_ne hki]
      intro hx hp hkey
      exact absurd hkey.symm (hnew hx k hk hki hp)
  · rw [Function.update_of_ne hji]
    by_cases hki : k = i
    · rw [hki, Function.update_self]
      intro hp hx hkey
      exact absurd hkey (hnew hx j hj hji hp)
    · rw [Function.update_of_ne hki]
      exact h j hj k hk

theorem Apart.gain (h : Apart S p key f) (hnew : key x ∉ held S p key f) :
    Apart S p key (Function.update f i x) :=
  h.update (fun _ _ hj _ hp hkey => hnew (hkey ▸ key_mem hj hp))

theorem Apart.keep (h : Apart S p key f) (hi : i ∈ S)
    (hkeep : p x = true → p (f i) = true ∧ key x = key (f i)) :
    Apart S p key (Function.update f i x) := by
  refine h.update (fun hx j hj hji hp hkey => ?_)
  obtain ⟨hpi, hkeyi⟩ := hkeep hx
  exact hji (h j hj i hi hp hpi (hkey.trans hkeyi))

end Holders
