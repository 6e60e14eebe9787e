import Mathlib.Data.Finset.Card
import Mathlib.Data.Finset.Image
import Mathlib.Logic.Function.Basic
import Mathlib.Data.Finset.Range

/-!
# A table of slots that hold descriptors

`slot i` is the descriptor in slot `i`, or negative if the slot is free.  `SlotTable` is what a
server that multiplexes over such a table keeps: no descriptor is in two slots, the set `watched` is
the descriptors in use together with `base`, `maxi` bounds the slots in use and `maxfd` the
descriptors.  A descriptor may be stored in a free slot (`SlotTable.store`), and a slot may be freed
(`SlotTable.free`).
-/

open Finset

/-- the descriptors in the first `cap` slots -/
def usedSlots (cap : Nat) (slot : Nat → Int) : Finset Int :=
  ((range cap).image slot).filter (fun x => 0 ≤ x)

structure SlotTable (cap : Nat) (slot : Nat → Int) (maxi maxfd : Int) (base watched : Finset Int) :
    Prop where
  distinct : ∀ i j, i < cap → j < cap → 0 ≤ slot i → slot i = slot j → i = j
  apart : ∀ i < cap, 0 ≤ slot i → slot i ∉ base
  top : ∀ i < cap, 0 ≤ slot i → (i : Int) ≤ maxi
  top_lt : maxi < cap
  watches : watched = base ∪ usedSlots cap slot
  bound : ∀ x ∈ watched, x ≤ maxfd

variable {cap : Nat} {slot : Nat → Int} {maxi maxfd x : Int} {base watched : Finset Int} {i : Nat}

theorem mem_usedSlots : x ∈ usedSlots cap slot ↔ 0 ≤ x ∧ ∃ i < cap, slot i = x := by
  unfold usedSlots
  rw [mem_filter, mem_image]
  simp only [mem_range]
  exact and_comm

theorem slot_mem_used (hi : i < cap) (hused : 0 ≤ slot i) : slot i ∈ usedSlots cap slot :=
  mem_usedSlots.mpr ⟨hused, i, hi, rfl⟩

/-- every slot is free -/
theorem usedSlots_eq_empty (h : ∀ i < cap, slot i < 0) : usedSlots cap slot = ∅ := by
  rw [eq_empty_iff_forall_notMem]
  intro x hx
  obtain ⟨h0, i, hi, rfl⟩ := mem_usedSlots.mp hx
  have hneg := h i hi
  omega

theorem usedSlots_store (hi : i < cap) (hfree : slot i < 0) (hx : 0 ≤ x) :
    usedSlots cap (Function.update slot i x) = insert x (usedSlots cap slot) := by
  ext y
  rw [mem_insert, mem_usedSlots, mem_usedSlots]
  constructor
  · rintro ⟨hy, j, hj, rfl⟩
    by_cases hji : j = i
    · rw [hji, Function.update_self]
      exact Or.inl rfl
    · rw [Function.update_of_ne hji] at hy ⊢
      exact Or.inr ⟨hy, j, hj, rfl⟩
  · rintro (rfl | ⟨hy, j, hj, rfl⟩)
    · exact ⟨hx, i, hi, Function.update_self ..⟩
    · have hji : j ≠ i := by
        rintro rfl
        omega
      exact ⟨hy, j, hj, Function.update_of_ne hji ..⟩

/-- the first free slot from `i` on, when `left` slots are looked at -/
def firstFree (slot : Nat → Int) : (left i : Nat) → Option Nat
  | 0, _ => none
  | left + 1, i => if slot i < 0 then some i else firstFree slot left (i + 1)

theorem firstFree_some {left i j : Nat} (h : firstFree slot left i = some j) :
    i ≤ j ∧ j < i + left ∧ slot j < 0 := by
  induction left generalizing i with
  | zero => cases h
  | succ left ih =>
    unfold firstFree at h
    split at h
    · rename_i hfree
      obtain rfl := Option.some.inj h
      exact ⟨Nat.le_refl _, by omega, hfree⟩
    · obtain ⟨hle, hlt, hfree⟩ := ih h
      exact ⟨by omega, by omega, hfree⟩

theorem firstFree_eq {left i j : Nat} (hle : i ≤ j) (hlt : j < i + left) (hfree : slot j < 0)
    (hused : ∀ k, i ≤ k → k < j → 0 ≤ slot k) : firstFree slot left i = some j := by
  induction left generalizing i with
  | zero => omega
  | succ left ih =>
    unfold firstFree
    by_cases hij : i = j
    · subst hij
      exact if_pos hfree
    · have hi := hused i (Nat.le_refl _) (by omega)
      rw [if_neg (by omega)]
      exact ih (by omega) (by omega) (fun k hk => hused k (by omega))

namespace SlotTable

theorem mem_watched (h : SlotTable cap slot maxi maxfd base watched) :
    x ∈ watched ↔ x ∈ base ∨ 0 ≤ x ∧ ∃ i < cap, slot i = x := by
  rw [h.watches, mem_union, mem_usedSlots]

theorem slot_mem (h : SlotTable cap slot maxi maxfd base watched) (hi : i < cap)
    (hused : 0 ≤ slot i) : slot i ∈ watched :=
  h.mem_watched.mpr (Or.inr ⟨hused, i, hi, rfl⟩)

/-- a table of free slots -/
theorem start (hfree : ∀ i < cap, slot i < 0) (htop : maxi < cap)
    (hbase : ∀ x ∈ base, x ≤ maxfd) :
    SlotTable cap slot maxi maxfd base base where
  distinct := by
    intro i j hi _ h0 _
    have hneg := hfree i hi
    omega
  apart := by
    intro i hi h0
    have hneg := hfree i hi
    omega
  top := by
    intro i hi h0
    have hneg := hfree i hi
    omega
  top_lt := htop
  watches := by rw [usedSlots_eq_empty hfree, union_empty]
  bound := hbase

/-- a new descriptor in a free slot -/
theorem store (h : SlotTable cap slot maxi maxfd base watched) (hi : i < cap) (hfree : slot i < 0)
    (hx : 0 ≤ x) (hnew : x ∉ watched) :
    SlotTable cap (Function.update slot i x) (max maxi i) (max maxfd x) base (insert x watched) where
  distinct := by
    have hother : ∀ j < cap, slot j ≠ x := fun j hj hc =>
      hnew (h.mem_watched.mpr (Or.inr ⟨hx, j, hj, hc⟩))
    intro j k hj hk h0 heq
    by_cases hji : j = i
    · by_cases hki : k = i
      · rw [hji, hki]
      · rw [hji, Function.update_self, Function.update_of_ne hki] at heq
        exact absurd heq.symm (hother k hk)
    · rw [Function.update_of_ne hji] at h0 heq
      by_cases hki : k = i
      · rw [hki, Function.update_self] at heq
        exact absurd heq (hother j hj)
      · rw [Function.update_of_ne hki] at heq
        exact h.distinct j k hj hk h0 heq
  apart := by
    apply (Function.forall_update_iff slot (fun j y => j < cap → 0 ≤ y → y ∉ base)).mpr
    exact ⟨fun _ _ hc => hnew (h.mem_watched.mpr (Or.inl hc)), fun j _ => h.apart j⟩
  top := by
    apply (Function.forall_update_iff slot (fun j y => j < cap → 0 ≤ y → (j : Int) ≤ max maxi i)).mpr
    exact ⟨fun _ _ => le_max_right .., fun j _ hj h0 => le_trans (h.top j hj h0) (le_max_left ..)⟩
  top_lt := max_lt h.top_lt (Int.ofNat_lt.mpr hi)
  watches := by rw [usedSlots_store hi hfree hx, h.watches, union_insert]
  bound := by
    intro y hy
    rcases mem_insert.mp hy with rfl | hold
    · exact le_max_right ..
    · exact le_trans (h.bound y hold) (le_max_left ..)

theorem used_free (h : SlotTable cap slot maxi maxfd base watched) (hi : i < cap)
    (hused : 0 ≤ slot i) {x : Int} (hx : x < 0) :
    usedSlots cap (Function.update slot i x) = (usedSlots cap slot).erase (slot i) := by
  ext y
  rw [mem_erase, mem_usedSlots, mem_usedSlots]
  constructor
  · rintro ⟨hy, j, hj, rfl⟩
    by_cases hji : j = i
    · rw [hji, Function.update_self] at hy
      omega
    · rw [Function.update_of_ne hji] at hy ⊢
      exact ⟨fun hc => hji (h.distinct j i hj hi hy hc), hy, j, hj, rfl⟩
  · rintro ⟨hne, hy, j, hj, rfl⟩
    have hji : j ≠ i := by
      rintro rfl
      exact hne rfl
    exact ⟨hy, j, hj, Function.update_of_ne hji ..⟩

/-- slot `i` is freed -/
theorem free (h : SlotTable cap slot maxi maxfd base watched) (hi : i < cap) (hused : 0 ≤ slot i)
    {x : Int} (hx : x < 0) :
    SlotTable cap (Function.update slot i x) maxi maxfd base (watched.erase (slot i)) where
  distinct := by
    intro j k hj hk h0 heq
    by_cases hji : j = i
    · rw [hji, Function.update_self] at h0
      omega
    · rw [Function.update_of_ne hji] at h0 heq
      by_cases hki : k = i
      · rw [hki, Function.update_self] at heq
        omega
      · rw [Function.update_of_ne hki] at heq
        exact h.distinct j k hj hk h0 heq
  apart := by
    apply (Function.forall_update_iff slot (fun j y => j < cap → 0 ≤ y → y ∉ base)).mpr
    exact ⟨fun _ h0 => absurd h0 (not_le.mpr hx), fun j _ => h.apart j⟩
  top := by
    apply (Function.forall_update_iff slot (fun j y => j < cap → 0 ≤ y → (j : Int) ≤ maxi)).mpr
    exact ⟨fun _ h0 => absurd h0 (not_le.mpr hx), fun j _ => h.top j⟩
  top_lt := h.top_lt
  watches := by
    rw [h.used_free hi hused hx, h.watches, erase_union_distrib,
      erase_eq_of_notMem (h.apart i hi hused)]
  bound := fun y hy => h.bound y (mem_of_mem_erase hy)

end SlotTable
