import NetworkProgram.Lib.Decimal

/-!
# Numbers as text

`%ld` of `snprintf` and `atol`, in the C locale with 64 bits in a `long`.  The end of a list is the
NUL of the string.
-/

namespace Unp

/-- `isspace` -/
def isSpace (c : UInt8) : Bool := c == 32 || (9 ≤ c && c ≤ 13)

/-- `%ld` -/
def fmtLd (n : Int64) : List UInt8 :=
  if n.toInt < 0 then 45 :: Decimal.digits n.toInt.natAbs else Decimal.digits n.toInt.natAbs

/-- `%d` -/
def fmtD (n : Int32) : List UInt8 := fmtLd n.toInt64

/-- an optional sign, and what comes after it -/
def sign : List UInt8 → Int × List UInt8
  | [] => (1, [])
  | c :: s => if c = 45 then (-1, s) else if c = 43 then (1, s) else (1, c :: s)

/-- `atol`; of a number that is no `long` it is the nearest one -/
def atol (nptr : List UInt8) : Int64 :=
  let s := sign (nptr.dropWhile isSpace)
  let n := s.1 * Decimal.value (s.2.takeWhile Decimal.isDigit)
  Int64.ofInt (max (-2 ^ 63) (min n (2 ^ 63 - 1)))

/-- `strtol` with base 10, in an `int` -/
def strtol (nptr : List UInt8) : Int32 := (atol nptr).toInt32

variable {c : UInt8} {s rest : List UInt8}

theorem isSpace_of_isDigit (h : Decimal.isDigit c = true) : isSpace c = false := by
  rw [Decimal.isDigit_iff] at h
  unfold isSpace
  rw [Bool.or_eq_false_iff, Bool.and_eq_false_iff, beq_eq_false_iff_ne, decide_eq_false_iff_not,
    decide_eq_false_iff_not, ne_eq, ← UInt8.toNat_inj, UInt8.le_iff_toNat_le, UInt8.le_iff_toNat_le]
  simp only [UInt8.reduceToNat]
  omega

theorem sign_of_isDigit (h : Decimal.isDigit c = true) : sign (c :: s) = (1, c :: s) := by
  rw [Decimal.isDigit_iff] at h
  have h45 : c ≠ 45 := fun hc => by rw [hc] at h; exact absurd h.1 (by decide)
  have h43 : c ≠ 43 := fun hc => by rw [hc] at h; exact absurd h.1 (by decide)
  simp [sign, h45, h43]

/-! ## reading what `%ld` has written -/

theorem atol_of_sign {l ds : List UInt8} {k : Int}
    (hsign : sign (l.dropWhile isSpace) = (k, ds ++ c :: rest))
    (hds : ∀ d ∈ ds, Decimal.isDigit d = true) (hc : Decimal.isDigit c = false) :
    atol l = Int64.ofInt (max (-2 ^ 63) (min (k * Decimal.value ds) (2 ^ 63 - 1))) := by
  unfold atol
  rw [hsign]
  dsimp only
  rw [List.takeWhile_append_of_pos hds, List.takeWhile_cons_of_neg (by simp [hc]), List.append_nil]

/-- the number is a `long`: nothing is cut off -/
theorem clamp_toInt {k : Int} (hlo : -2 ^ 63 ≤ k) (hhi : k < 2 ^ 63) :
    (Int64.ofInt (max (-2 ^ 63) (min k (2 ^ 63 - 1)))).toInt = k := by
  rw [show max (-2 ^ 63) (min k (2 ^ 63 - 1)) = k by omega]
  exact Int64.toInt_ofInt_of_le hlo hhi

theorem atol_digits {ds : List UInt8} (hne : ds ≠ []) (hds : ∀ d ∈ ds, Decimal.isDigit d = true)
    (hc : Decimal.isDigit c = false) (hlt : Decimal.value ds < 2 ^ 63) :
    (atol (ds ++ c :: rest)).toInt = Decimal.value ds := by
  obtain ⟨d, ds', rfl⟩ := List.exists_cons_of_ne_nil hne
  have hd := hds d (List.mem_cons_self ..)
  have hsign : sign ((d :: ds' ++ c :: rest).dropWhile isSpace) = (1, d :: ds' ++ c :: rest) := by
    simp [isSpace_of_isDigit hd, sign_of_isDigit hd]
  rw [atol_of_sign hsign hds hc, clamp_toInt (by omega) (by omega)]
  omega

theorem atol_neg {ds : List UInt8} (hds : ∀ d ∈ ds, Decimal.isDigit d = true)
    (hc : Decimal.isDigit c = false) (hle : Decimal.value ds ≤ 2 ^ 63) :
    (atol (45 :: ds ++ c :: rest)).toInt = -Decimal.value ds := by
  have hsign : sign ((45 :: ds ++ c :: rest).dropWhile isSpace) = (-1, ds ++ c :: rest) := by
    simp [isSpace, sign]
  rw [atol_of_sign hsign hds hc, clamp_toInt (by omega) (by omega)]
  omega

/-- **`atol` reads back what `%ld` has written.** -/
theorem atol_fmtLd (n : Int64) (hc : Decimal.isDigit c = false) : atol (fmtLd n ++ c :: rest) = n := by
  have hlo := n.le_toInt
  have hhi := n.toInt_lt
  have hvalue := Decimal.value_digits n.toInt.natAbs
  rw [← Int64.toInt_inj]
  unfold fmtLd
  split
  · rw [atol_neg (fun _ => Decimal.isDigit_of_mem) hc (by omega)]
    omega
  · rw [atol_digits (Decimal.digits_ne_nil _) (fun _ => Decimal.isDigit_of_mem) hc (by omega)]
    omega

/-- a sign and 19 digits -/
theorem fmtLd_length (n : Int64) : (fmtLd n).length ≤ 20 := by
  have hlo := n.le_toInt
  have hhi := n.toInt_lt
  have hlen : (Decimal.digits n.toInt.natAbs).length ≤ 19 :=
    Decimal.digits_length (by decide) (by omega)
  unfold fmtLd
  split
  · rw [List.length_cons]
    omega
  · omega

theorem mem_fmtLd {n : Int64} (h : c ∈ fmtLd n) : c = 45 ∨ Decimal.isDigit c = true := by
  unfold fmtLd at h
  split at h
  · rcases List.mem_cons.mp h with rfl | h
    · exact Or.inl rfl
    · exact Or.inr (Decimal.isDigit_of_mem h)
  · exact Or.inr (Decimal.isDigit_of_mem h)

/-! ## a number in a buffer -/

/-- `snprintf` into `size` bytes: the text, as far as there is room, and the NUL -/
def snprintf (size : Nat) (text : List UInt8) : List UInt8 := text.take (size - 1) ++ [0]

theorem isDigit_of_mem_take {n k : Nat} (h : c ∈ (Decimal.digits n).take k) :
    Decimal.isDigit c = true := Decimal.isDigit_of_mem (List.mem_of_mem_take h)

variable {size : Nat} {n : Int64}

/-- of a negative number the sign takes one of the bytes -/
theorem atol_snprintf_neg (hsize : 2 ≤ size) (h : n.toInt < 0) :
    (atol (snprintf size (fmtLd n))).toInt =
      -Decimal.value ((Decimal.digits n.toInt.natAbs).take (size - 2)) := by
  have hlo := n.le_toInt
  have hle : Decimal.value ((Decimal.digits n.toInt.natAbs).take (size - 2)) ≤ n.toInt.natAbs := by
    rcases Nat.eq_zero_or_pos (size - 2) with h0 | hpos
    · simp [h0, Decimal.value]
    · exact Decimal.value_take_le _ hpos
  obtain ⟨k, rfl⟩ := Nat.exists_eq_add_of_le' hsize
  rw [Nat.add_sub_cancel] at hle ⊢
  have htext : snprintf (k + 2) (fmtLd n) =
      45 :: (Decimal.digits n.toInt.natAbs).take k ++ 0 :: [] := by simp [snprintf, fmtLd, h]
  rw [htext, atol_neg (fun _ => isDigit_of_mem_take) rfl (by omega)]

theorem atol_snprintf_nonneg (hsize : 2 ≤ size) (h : 0 ≤ n.toInt) :
    (atol (snprintf size (fmtLd n))).toInt =
      Decimal.value ((Decimal.digits n.toInt.natAbs).take (size - 1)) := by
  have hhi := n.toInt_lt
  have hle := Decimal.value_take_le n.toInt.natAbs (k := size - 1) (by omega)
  have hne : (Decimal.digits n.toInt.natAbs).take (size - 1) ≠ [] := by
    simp [Decimal.digits_ne_nil]
    omega
  have htext : snprintf size (fmtLd n) =
      (Decimal.digits n.toInt.natAbs).take (size - 1) ++ 0 :: [] := by
    simp [snprintf, fmtLd, Int.not_lt.mpr h]
  rw [htext, atol_digits hne (fun _ => isDigit_of_mem_take) rfl (by omega)]

theorem atol_snprintf_lt (hsize : 2 ≤ size) (n : Int64) :
    (atol (snprintf size (fmtLd n))).toInt.natAbs < 10 ^ (size - 1) := by
  rcases Int.lt_or_le n.toInt 0 with hneg | hpos
  · have hlt := Decimal.value_take_lt_pow n.toInt.natAbs (size - 2)
    have hpow : 10 ^ (size - 2) ≤ 10 ^ (size - 1) := Nat.pow_le_pow_right (by decide) (by omega)
    rw [atol_snprintf_neg hsize hneg]
    omega
  · have hlt := Decimal.value_take_lt_pow n.toInt.natAbs (size - 1)
    rw [atol_snprintf_nonneg hsize hpos]
    omega

/-- **What comes back is the number if and only if the buffer holds its text.** -/
theorem atol_snprintf (hsize : 2 ≤ size) (n : Int64) :
    (atol (snprintf size (fmtLd n))).toInt = n.toInt ↔ (fmtLd n).length < size := by
  constructor
  · intro heq
    by_contra hlong
    rcases Int.lt_or_le n.toInt 0 with hneg | hpos
    · have hlen : size - 2 < (Decimal.digits n.toInt.natAbs).length := by
        simp [fmtLd, hneg] at hlong
        omega
      have hlt := Decimal.value_take_lt (n := n.toInt.natAbs) (by omega) hlen
      rw [atol_snprintf_neg hsize hneg] at heq
      omega
    · have hlen : size - 1 < (Decimal.digits n.toInt.natAbs).length := by
        simp [fmtLd, Int.not_lt.mpr hpos] at hlong
        omega
      have hne : n.toInt.natAbs ≠ 0 := by
        intro h0
        rw [h0, Decimal.digits_zero, List.length_singleton] at hlen
        omega
      have hlt := Decimal.value_take_lt hne hlen
      rw [atol_snprintf_nonneg hsize hpos] at heq
      omega
  · intro hlen
    have htext : snprintf size (fmtLd n) = fmtLd n ++ 0 :: [] := by
      rw [snprintf, List.take_of_length_le (by omega)]
    rw [htext, atol_fmtLd n rfl]

theorem fmtLd_length_lt (hsize : 3 ≤ size) (n : Int64) :
    (fmtLd n).length < size ↔ -10 ^ (size - 2) < n.toInt ∧ n.toInt < 10 ^ (size - 1) := by
  have hneg := Decimal.digits_length_le_iff (n := n.toInt.natAbs) (k := size - 2) (by omega)
  have hpos := Decimal.digits_length_le_iff (n := n.toInt.natAbs) (k := size - 1) (by omega)
  have hpow1 : (0 : Int) < 10 ^ (size - 1) := by positivity
  have hpow2 : (0 : Int) < 10 ^ (size - 2) := by positivity
  zify at hneg hpos
  unfold fmtLd
  split
  · rename_i h
    rw [abs_of_neg h] at hneg
    rw [List.length_cons]
    omega
  · rename_i h
    rw [abs_of_nonneg (by omega)] at hpos
    omega

/-- **Ten bytes hold an `int` of up to nine characters.** -/
theorem strtol_snprintf (n : Int32) :
    strtol (snprintf 10 (fmtD n)) = n ↔ -100000000 < n.toInt ∧ n.toInt < 1000000000 := by
  have hbound := atol_snprintf_lt (show 2 ≤ 10 by decide) n.toInt64
  have hlen := fmtLd_length_lt (show 3 ≤ 10 by decide) n.toInt64
  have hback := atol_snprintf (show 2 ≤ 10 by decide) n.toInt64
  rw [Int32.toInt_toInt64] at hlen hback
  unfold strtol fmtD
  rw [← Int32.toInt_inj, Int64.toInt_toInt32, Int.bmod_eq_of_le (by omega) (by omega)]
  exact hback.trans hlen

end Unp
