import Mathlib.Data.Nat.ModEq
import Mathlib.Tactic.Ring

/-!
# End-around carry: one's complement sums in base `B`

A sum of digits below `B` has one value in one's complement arithmetic, but `0` and `B - 1` both
stand for zero.  `rep B s` is the representative that end-around carries lead to: `0` for the
sum `0`, otherwise the number in `1 .. B - 1` congruent to `s` modulo `B - 1`.

* `fold B s`            the high part of `s` added back to its low digit;
* `fold_fold_eq_rep`    two folds reach `rep` for every sum of two digits;
* `rep_eq_iff`          which sums have the same representative;
* `rep_complement`      adding the complement of `rep B s` to `s` gives the zero `B - 1`;
* `rep_add_full`        so does adding `B - 1` to a sum that is zero already;
* `rep_swap`            in base `C * C` a sum `C` times as large has the representative with the two
                        `C`-digits exchanged.
-/

namespace EndAround

def fold (B s : Nat) : Nat := s / B + s % B

def rep (B s : Nat) : Nat := if s = 0 then 0 else (s - 1) % (B - 1) + 1

theorem rep_zero (B : Nat) : rep B 0 = 0 := rfl

theorem rep_of_pos {B s : Nat} (hs : 0 < s) : rep B s = (s - 1) % (B - 1) + 1 :=
  if_neg (Nat.pos_iff_ne_zero.mp hs)

section
variable {B : Nat} (hB : 2 ≤ B)
include hB

theorem rep_le (s : Nat) : rep B s ≤ B - 1 := by
  rcases Nat.eq_zero_or_pos s with rfl | hs
  · rw [rep_zero]; omega
  · rw [rep_of_pos hs]
    have := Nat.mod_lt (s - 1) (show 0 < B - 1 by omega)
    omega

omit hB in
theorem rep_modEq (s : Nat) : rep B s ≡ s [MOD B - 1] := by
  rcases Nat.eq_zero_or_pos s with rfl | hs
  · exact Nat.ModEq.refl 0
  · rw [rep_of_pos hs]
    have h : (s - 1) % (B - 1) + 1 ≡ (s - 1) + 1 [MOD B - 1] := (Nat.mod_modEq _ _).add_right 1
    rwa [Nat.sub_add_cancel hs] at h

omit hB in
theorem rep_pos {s : Nat} (hs : 0 < s) : 0 < rep B s := by
  rw [rep_of_pos hs]
  exact Nat.succ_pos _

/-- `rep` is the only number in `1 .. B - 1` congruent to a positive sum -/
theorem rep_unique {s r : Nat} (hs : 0 < s) (hr : 0 < r) (hle : r ≤ B - 1) (hm : r ≡ s [MOD B - 1]) :
    r = rep B s := by
  have h1 : r ≡ rep B s [MOD B - 1] := hm.trans (rep_modEq s).symm
  have h2 := rep_le hB s
  have h3 := rep_pos (B := B) hs
  have h4 : r - 1 + 1 ≡ rep B s - 1 + 1 [MOD B - 1] := by
    rwa [Nat.sub_add_cancel hr, Nat.sub_add_cancel h3]
  have h5 := (Nat.ModEq.add_right_cancel' 1 h4).eq_of_lt_of_lt (by omega) (by omega)
  omega

/-- a positive multiple of `B - 1` is the zero `B - 1` -/
theorem rep_eq_full {s : Nat} (hs : 0 < s) (hd : s ≡ 0 [MOD B - 1]) : rep B s = B - 1 := by
  refine (rep_unique hB hs (by omega) (Nat.le_refl _) ?_).symm
  exact ((Nat.modEq_zero_iff_dvd).mpr (Nat.dvd_refl _)).trans hd.symm

/-- two sums have one representative when they are congruent and both or neither are 0 -/
theorem rep_eq_iff {s s' : Nat} :
    rep B s = rep B s' ↔ (s = 0 ↔ s' = 0) ∧ s ≡ s' [MOD B - 1] := by
  constructor
  · intro h
    have hm := rep_modEq (B := B) s
    rw [h] at hm
    refine ⟨⟨?_, ?_⟩, hm.symm.trans (rep_modEq s')⟩
    · rintro rfl
      by_contra hs'
      exact Nat.ne_of_lt (rep_pos (Nat.pos_of_ne_zero hs')) h
    · rintro rfl
      by_contra hs
      exact Nat.ne_of_gt (rep_pos (Nat.pos_of_ne_zero hs)) h
  · rintro ⟨hzero, hm⟩
    rcases Nat.eq_zero_or_pos s with rfl | hs
    · rw [hzero.mp rfl]
    · have hs' : 0 < s' := Nat.pos_of_ne_zero (fun h0 => Nat.ne_of_gt hs (hzero.mpr h0))
      exact rep_unique hB hs' (rep_pos hs) (rep_le hB s) ((rep_modEq s).trans hm)

theorem rep_complement (s : Nat) : rep B (s + (B - 1 - rep B s)) = B - 1 := by
  have hle := rep_le hB s
  have hm : s + (B - 1 - rep B s) ≡ 0 [MOD B - 1] := by
    have h1 : s + (B - 1 - rep B s) ≡ rep B s + (B - 1 - rep B s) [MOD B - 1] :=
      (rep_modEq s).symm.add_right _
    rw [Nat.add_sub_cancel' hle] at h1
    exact h1.trans ((Nat.modEq_zero_iff_dvd).mpr (Nat.dvd_refl _))
  rcases Nat.eq_zero_or_pos s with rfl | hs
  · exact rep_eq_full hB (by rw [rep_zero]; omega) hm
  · exact rep_eq_full hB (by omega) hm

theorem rep_add_full {s : Nat} (h : rep B s = B - 1) : rep B (s + (B - 1)) = B - 1 := by
  have hm : s + (B - 1) ≡ 0 [MOD B - 1] := by
    have h1 : s ≡ 0 [MOD B - 1] := by
      have h2 := rep_modEq (B := B) s
      rw [h] at h2
      exact h2.symm.trans ((Nat.modEq_zero_iff_dvd).mpr (Nat.dvd_refl _))
    exact (h1.add_right _).trans (by rw [Nat.zero_add]; exact (Nat.modEq_zero_iff_dvd).mpr (Nat.dvd_refl _))
  exact rep_eq_full hB (by omega) hm

theorem fold_modEq (s : Nat) : fold B s ≡ s [MOD B - 1] := by
  have h : s / B + s % B ≡ (B - 1 + 1) * (s / B) + s % B [MOD B - 1] := by
    apply Nat.ModEq.add_right
    have h0 : (B - 1 + 1) * (s / B) = (B - 1) * (s / B) + s / B := by ring
    rw [h0]
    exact (Nat.ModEq.symm (Nat.mul_add_mod _ _ _))
  rw [Nat.sub_add_cancel (by omega), Nat.div_add_mod] at h
  exact h

omit hB in
theorem fold_pos {s : Nat} (hs : 0 < s) : 0 < fold B s := by
  have h := Nat.div_add_mod s B
  unfold fold
  by_contra hc
  obtain ⟨h1, h2⟩ := Nat.add_eq_zero_iff.mp (Nat.eq_zero_of_not_pos hc)
  rw [h1, h2, Nat.mul_zero] at h
  omega

/-- one fold of a two-digit sum leaves a carry of at most one -/
theorem fold_le {s : Nat} (hs : s < B * B) : fold B s ≤ 2 * (B - 1) := by
  have h1 : s / B < B := Nat.div_lt_of_lt_mul hs
  have h2 := Nat.mod_lt s (show 0 < B by omega)
  unfold fold
  omega

omit hB in
/-- a carry of one -/
theorem div_mod_carry {t : Nat} (hle : B ≤ t) (hlt : t < 2 * B) : t / B = 1 ∧ t % B = t - B := by
  have hd : t / B = 1 := Nat.div_eq_of_lt_le (by omega) (by omega)
  have hm : t % B = t - B := by
    rw [Nat.mod_eq_sub_mod hle, Nat.mod_eq_of_lt (by omega)]
  exact ⟨hd, hm⟩

/-- with a carry of at most one, a second fold leaves none -/
theorem fold_carry {t : Nat} (ht : t ≤ 2 * (B - 1)) : fold B t ≤ B - 1 := by
  unfold fold
  by_cases hlt : t < B
  · rw [Nat.div_eq_of_lt hlt, Nat.mod_eq_of_lt hlt]
    omega
  · obtain ⟨hd, hm⟩ := div_mod_carry (Nat.le_of_not_lt hlt) (show t < 2 * B by omega)
    rw [hd, hm]
    omega

/-- **Two folds of a two-digit sum reach its representative.** -/
theorem fold_fold_eq_rep {s : Nat} (hs : s < B * B) : fold B (fold B s) = rep B s := by
  rcases Nat.eq_zero_or_pos s with rfl | hpos
  · simp [fold, rep_zero]
  · exact rep_unique hB hpos (fold_pos (fold_pos hpos)) (fold_carry hB (fold_le hB hs))
      ((fold_modEq hB _).trans (fold_modEq hB s))

/-- adding the carry and dropping what leaves the digit is a fold -/
theorem carry_mod {t : Nat} (ht : t ≤ 2 * (B - 1)) : (t + t / B) % B = fold B t := by
  unfold fold
  by_cases hlt : t < B
  · rw [Nat.div_eq_of_lt hlt, Nat.add_zero, Nat.zero_add]
  · obtain ⟨hd, hm⟩ := div_mod_carry (Nat.le_of_not_lt hlt) (show t < 2 * B by omega)
    rw [hd, hm, Nat.mod_eq_sub_mod (by omega), Nat.mod_eq_of_lt (by omega)]
    omega

end

/-! ## exchanging the halves of a digit -/

/-- `r` with its two `C`-digits exchanged -/
def swap (C r : Nat) : Nat := r % C * C + r / C

theorem swap_zero (C : Nat) : swap C 0 = 0 := by
  unfold swap
  rw [Nat.zero_mod, Nat.zero_mul, Nat.zero_div]

section
variable {C : Nat} (hC : 2 ≤ C)
include hC

theorem two_le_sq : 2 ≤ C * C := Nat.le_trans hC (Nat.le_mul_of_pos_left C (by omega))

/-- to exchange the digits is to multiply by `C` -/
theorem swap_modEq (r : Nat) : swap C r ≡ C * r [MOD C * C - 1] := by
  have hB := two_le_sq hC
  have hfold : C * (r % C) + 1 * (r / C) ≡ C * (r % C) + (C * C) * (r / C) [MOD C * C - 1] := by
    apply Nat.ModEq.add_left
    apply Nat.ModEq.mul_right
    have h1 : (C * C - 1) + 1 ≡ 0 + 1 [MOD C * C - 1] :=
      Nat.ModEq.add_right 1 (Nat.modEq_zero_iff_dvd.mpr (Nat.dvd_refl _))
    rw [Nat.sub_add_cancel (by omega), Nat.zero_add] at h1
    exact h1.symm
  have hmul : C * r = C * (r % C) + (C * C) * (r / C) := by
    conv_lhs => rw [← Nat.mod_add_div r C]
    ring
  have hswap : swap C r = C * (r % C) + 1 * (r / C) := by
    unfold swap
    ring
  rw [hmul, hswap]
  exact hfold

theorem swap_pos {r : Nat} (hr : 0 < r) : 0 < swap C r := by
  unfold swap
  by_contra hc
  obtain ⟨h1, h2⟩ := Nat.add_eq_zero_iff.mp (Nat.eq_zero_of_not_pos hc)
  have hdiv := Nat.mod_add_div r C
  rcases Nat.mul_eq_zero.mp h1 with h0 | h0
  · rw [h0, h2, Nat.mul_zero] at hdiv
    omega
  · omega

theorem swap_le {r : Nat} (hr : r ≤ C * C - 1) : swap C r ≤ C * C - 1 := by
  have hB := two_le_sq hC
  have hmod : r % C + 1 ≤ C := Nat.mod_lt r (by omega)
  have hdiv : r / C < C := Nat.div_lt_of_lt_mul (by omega)
  have hmul := Nat.mul_le_mul_right C hmod
  rw [Nat.add_mul, Nat.one_mul] at hmul
  unfold swap
  omega

/-- **A sum `C` times as large has the representative with its digits exchanged.** -/
theorem rep_swap {s s' : Nat} (hzero : s' = 0 ↔ s = 0) (hmod : s' ≡ C * s [MOD C * C - 1]) :
    rep (C * C) s' = swap C (rep (C * C) s) := by
  have hB := two_le_sq hC
  rcases Nat.eq_zero_or_pos s with rfl | hs
  · rw [hzero.mpr rfl, rep_zero, swap_zero]
  · have hs' : 0 < s' := Nat.pos_of_ne_zero (fun h0 => Nat.ne_of_gt hs (hzero.mp h0))
    refine (rep_unique hB hs' (swap_pos hC (rep_pos hs)) (swap_le hC (rep_le hB s)) ?_).symm
    exact (swap_modEq hC _).trans (((rep_modEq s).mul_left C).trans hmod.symm)

end

end EndAround
