import Mathlib.Data.Nat.Digits.Lemmas

/-!
# Decimal digits in ASCII

`digits n` is `n` in decimal, the most significant digit first, and `value` reads digits from the
left.

* `value_digits`    reading gives back what was written;
* `value_lt`        a bound on what so many digits can say;
* `digits_length`   the length of a bounded number;
* `value_take_lt`   what is left of a number that has been cut off.
-/

namespace Decimal

def digit (d : Nat) : UInt8 := UInt8.ofNat (48 + d)

def isDigit (c : UInt8) : Bool := 48 ≤ c && c ≤ 57

def digits (n : Nat) : List UInt8 :=
  if n = 0 then [digit 0] else ((Nat.digits 10 n).map digit).reverse

def value (l : List UInt8) : Nat := l.foldl (fun v c => v * 10 + (c.toNat - 48)) 0

variable {n d : Nat} {c : UInt8} {l : List UInt8}

theorem digit_toNat (h : d < 10) : (digit d).toNat = 48 + d :=
  UInt8.toNat_ofNat_of_lt' (by show 48 + d < 256; omega)

theorem isDigit_iff : isDigit c = true ↔ 48 ≤ c.toNat ∧ c.toNat ≤ 57 := by
  unfold isDigit
  rw [Bool.and_eq_true, decide_eq_true_eq, decide_eq_true_eq]
  rfl

theorem isDigit_digit (h : d < 10) : isDigit (digit d) = true := by
  rw [isDigit_iff, digit_toNat h]
  omega

theorem value_concat (l : List UInt8) (c : UInt8) : value (l ++ [c]) = value l * 10 + (c.toNat - 48) := by
  unfold value
  rw [List.foldl_append]
  rfl

/-- digits in the order of `Nat.digits`, from the least significant on -/
theorem value_reverse {ds : List Nat} (h : ∀ d ∈ ds, d < 10) :
    value (ds.map digit).reverse = Nat.ofDigits 10 ds := by
  induction ds with
  | nil => rfl
  | cons d ds ih =>
    have hd := digit_toNat (h d (List.mem_cons_self ..))
    have hrest := ih (fun d' hd' => h d' (List.mem_cons_of_mem _ hd'))
    rw [List.map_cons, List.reverse_cons, value_concat, hrest, hd, Nat.ofDigits_cons]
    show Nat.ofDigits 10 ds * 10 + (48 + d - 48) = d + 10 * Nat.ofDigits 10 ds
    omega

/-- **So many digits say no more.** -/
theorem value_lt (h : ∀ c ∈ l, isDigit c = true) : value l < 10 ^ l.length := by
  induction l using List.reverseRecOn with
  | nil => simp [value]
  | append_singleton l c ih =>
    have hc := isDigit_iff.mp (h c (by simp))
    have hl := ih fun c' hc' => h c' (by simp [hc'])
    rw [value_concat, List.length_append, List.length_singleton, pow_succ]
    omega

theorem digits_zero : digits 0 = [digit 0] := rfl

theorem digits_of_ne_zero (h : n ≠ 0) : digits n = ((Nat.digits 10 n).map digit).reverse := if_neg h

theorem lt_ten {m : Nat} (h : d ∈ Nat.digits 10 m) : d < 10 := Nat.digits_lt_base (by decide) h

/-- **Reading gives back what was written.** -/
theorem value_digits (n : Nat) : value (digits n) = n := by
  rcases eq_or_ne n 0 with rfl | h
  · rfl
  · rw [digits_of_ne_zero h, value_reverse (fun _ => lt_ten), Nat.ofDigits_digits]

theorem isDigit_of_mem (h : c ∈ digits n) : isDigit c = true := by
  rcases eq_or_ne n 0 with rfl | hn
  · rw [digits_zero, List.mem_singleton] at h
    rw [h]
    exact isDigit_digit (by decide)
  · rw [digits_of_ne_zero hn, List.mem_reverse] at h
    obtain ⟨d, hd, rfl⟩ := List.mem_map.mp h
    exact isDigit_digit (lt_ten hd)

theorem digits_ne_nil (n : Nat) : digits n ≠ [] := by
  rcases eq_or_ne n 0 with rfl | h
  · exact List.cons_ne_nil _ _
  · rw [digits_of_ne_zero h]
    simp [Nat.digits_ne_nil_iff_ne_zero.mpr h]

theorem digits_length {k : Nat} (hk : 0 < k) (h : n < 10 ^ k) : (digits n).length ≤ k := by
  rcases eq_or_ne n 0 with rfl | hn
  · exact hk
  · rw [digits_of_ne_zero hn, List.length_reverse, List.length_map]
    exact (Nat.digits_length_le_iff (by decide) n).mpr h

theorem digits_length_le_iff {k : Nat} (hk : 0 < k) : (digits n).length ≤ k ↔ n < 10 ^ k := by
  refine ⟨fun hle => ?_, digits_length hk⟩
  have hlt := value_lt fun _ => isDigit_of_mem (n := n)
  rw [value_digits] at hlt
  exact lt_of_lt_of_le hlt (Nat.pow_le_pow_right (by decide) hle)

theorem pow_le {k : Nat} (hn : n ≠ 0) (h : k < (digits n).length) : 10 ^ k ≤ n := by
  rcases Nat.eq_zero_or_pos k with rfl | hk
  · rw [pow_zero]
    omega
  · exact Nat.le_of_not_lt (mt (digits_length_le_iff hk).mpr (Nat.not_le.mpr h))

theorem value_take_lt_pow (n k : Nat) : value ((digits n).take k) < 10 ^ k := by
  have hlt := value_lt fun _ hc => isDigit_of_mem (n := n) (List.mem_of_mem_take (i := k) hc)
  have hlen : ((digits n).take k).length ≤ k := by simp
  exact lt_of_lt_of_le hlt (Nat.pow_le_pow_right (by decide) hlen)

/-- **A number that has been cut off is a smaller one.** -/
theorem value_take_lt {k : Nat} (hn : n ≠ 0) (h : k < (digits n).length) :
    value ((digits n).take k) < n := lt_of_lt_of_le (value_take_lt_pow n k) (pow_le hn h)

theorem value_take_le (n : Nat) {k : Nat} (hk : 0 < k) : value ((digits n).take k) ≤ n := by
  by_cases h : (digits n).length ≤ k
  · rw [List.take_of_length_le h, value_digits]
  · rcases eq_or_ne n 0 with rfl | hn
    · simp only [digits_zero, List.length_singleton] at h
      omega
    · exact (value_take_lt hn (Nat.lt_of_not_le h)).le

end Decimal
