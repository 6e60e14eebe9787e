import Mathlib.Data.Int.Interval
import Mathlib.Data.Finset.Card

/-!
# Descriptor numbers

Which number a system call that opens a descriptor may return, when the numbers `opened` are in use
and the process may not have `limit` or more.
-/

namespace Unp
open Finset

/-- `<sys/select.h>` -/
def FD_SETSIZE : Nat := 1024

/-- a number that is not in use -/
def Unused (limit : Int) (opened : Finset Int) (fd : Int) : Prop := 0 ≤ fd ∧ fd < limit ∧ fd ∉ opened

/-- the lowest number that is not in use -/
def Lowest (limit : Int) (opened : Finset Int) (fd : Int) : Prop :=
  Unused limit opened fd ∧ ∀ k, 0 ≤ k → k < fd → k ∈ opened

/-- the numbers in use that fit into an `fd_set` for `n` descriptors -/
def below (n : Nat) (opened : Finset Int) : Finset Int := opened.filter (fun fd => 0 ≤ fd ∧ fd < n)

variable {limit fd : Int} {n : Nat} {opened opened' : Finset Int}

theorem mem_below : fd ∈ below n opened ↔ fd ∈ opened ∧ 0 ≤ fd ∧ fd < n := mem_filter

theorem below_union : below n (opened ∪ opened') = below n opened ∪ below n opened' :=
  filter_union ..

theorem card_below_insert (hnew : fd ∉ opened) (h0 : 0 ≤ fd) (hlt : fd < n) :
    #(below n (insert fd opened)) = #(below n opened) + 1 := by
  have hmem : below n (insert fd opened) = insert fd (below n opened) := by
    unfold below
    rw [filter_insert, if_pos ⟨h0, hlt⟩]
  rw [hmem, card_insert_of_notMem (fun hc => hnew (mem_below.mp hc).1)]

/-- **The lowest unused number is below `n` as long as not all numbers below `n` are in use.** -/
theorem lowest_lt_iff (h : Lowest limit opened fd) : fd < n ↔ #(below n opened) < n := by
  have hcard : #(Ico 0 (n : Int)) = n := by simp
  constructor
  · intro hlt
    have hsub : below n opened ⊆ (Ico 0 (n : Int)).erase fd := by
      intro k hk
      obtain ⟨hopen, h0, hn⟩ := mem_below.mp hk
      refine mem_erase.mpr ⟨?_, mem_Ico.mpr ⟨h0, hn⟩⟩
      rintro rfl
      exact h.1.2.2 hopen
    have hle := card_le_card hsub
    have hmem : fd ∈ Ico 0 (n : Int) := mem_Ico.mpr ⟨h.1.1, hlt⟩
    rw [card_erase_of_mem hmem, hcard] at hle
    have hpos : 0 < n := by
      have h0 := h.1.1
      omega
    omega
  · intro hlt
    by_contra hge
    have hsub : Ico 0 (n : Int) ⊆ below n opened := by
      intro k hk
      obtain ⟨h0, hn⟩ := mem_Ico.mp hk
      exact mem_below.mpr ⟨h.2 k h0 (by omega), h0, hn⟩
    have hle := card_le_card hsub
    rw [hcard] at hle
    omega

/-- among the numbers in use are `others`, and some that all fit -/
theorem lowest_fits_iff {others used : Finset Int} (h : Lowest limit (others ∪ used) fd)
    (hfit : ∀ x ∈ used, 0 ≤ x ∧ x < n) (hapart : Disjoint others used) :
    fd < n ↔ #(below n others) + #(used) < n := by
  have hused : below n used = used := filter_true_of_mem hfit
  have hbelow : Disjoint (below n others) used := hapart.mono_left (filter_subset ..)
  have hcard : #(below n (others ∪ used)) = #(below n others) + #(used) := by
    rw [below_union, hused, card_union_of_disjoint hbelow]
  rw [lowest_lt_iff h, hcard]

/-- a new number in a set of numbers that all fit -/
theorem insert_lt_iff {fds : Finset Int} (hfit : ∀ x ∈ fds, x < n) :
    (∀ x ∈ insert fd fds, x < n) ↔ fd < n := by
  constructor
  · intro h
    exact h fd (mem_insert_self ..)
  · intro h x hx
    rcases mem_insert.mp hx with rfl | hold
    · exact h
    · exact hfit x hold

end Unp
