import NetworkProgram.Cksum.Verify

/-!
# `in_cksum` on hosts of either byte order

Read big-endian, the words of a buffer have 256 times the sum that they have little-endian, modulo
65535 (`wordSum_order`).  So the checksum is the other one with its bytes exchanged, and it is stored
as the same two bytes (`inCksum_order`).
-/

namespace Unp
open EndAround

variable {b : List UInt8}

/-! ## words -/

theorem word_order (b0 b1 : UInt8) :
    (word .big b0 b1).toNat ≡ 256 * (word .little b0 b1).toNat [MOD 65535] := by
  rw [word_little_toNat, word_big_toNat]
  unfold Nat.ModEq
  omega

theorem word_zero_iff (b0 b1 : UInt8) :
    (word .big b0 b1).toNat = 0 ↔ (word .little b0 b1).toNat = 0 := by
  rw [word_little_toNat, word_big_toNat]
  omega

theorem wordSum_order (b : List UInt8) :
    wordSum .big b ≡ 256 * wordSum .little b [MOD 65535] ∧
      (wordSum .big b = 0 ↔ wordSum .little b = 0) := by
  fun_induction wordSum .big b with
  | case1 b0 b1 w ih =>
    obtain ⟨hmod, hzero⟩ := ih
    have hw := word_zero_iff b0 b1
    rw [wordSum_cons, Nat.mul_add]
    exact ⟨(word_order b0 b1).add hmod, by omega⟩
  | case2 b => exact ⟨word_order b 0, word_zero_iff b 0⟩
  | case3 => exact ⟨Nat.ModEq.refl 0, Iff.rfl⟩

/-! ## the checksum in memory -/

/-- two words that are stored as the same bytes -/
theorem wordBytes_order {w w' : UInt16} (h : w'.toNat = swap 256 w.toNat) :
    wordBytes .little w = wordBytes .big w' := by
  have hw := w.toNat_lt
  unfold swap at h
  have hquot : w'.toNat / 256 = w.toNat % 256 := by omega
  have hrem : w'.toNat % 256 = w.toNat / 256 := by omega
  have hlow : w.toUInt8 = (w' >>> 8).toUInt8 := by
    rw [← UInt8.toNat_inj, UInt16.toNat_toUInt8, UInt16.toNat_toUInt8, UInt16.toNat_shiftRight,
      Nat.shiftRight_eq_div_pow]
    show w.toNat % 256 = w'.toNat / 256 % 256
    rw [hquot, Nat.mod_mod]
  have hhigh : (w >>> 8).toUInt8 = w'.toUInt8 := by
    rw [← UInt8.toNat_inj, UInt16.toNat_toUInt8, UInt16.toNat_toUInt8, UInt16.toNat_shiftRight,
      Nat.shiftRight_eq_div_pow]
    show w.toNat / 256 % 256 = w'.toNat % 256
    rw [← hrem, Nat.mod_mod]
  show [w.toUInt8, (w >>> 8).toUInt8] = [(w' >>> 8).toUInt8, w'.toUInt8]
  rw [hlow, hhigh]

/-- **The stored checksum does not depend on the byte order.** -/
theorem inCksum_order (b : List UInt8) (h : b.length ≤ 131074) :
    wordBytes .little (inCksum .little b) = wordBytes .big (inCksum .big b) := by
  obtain ⟨hmod, hzero⟩ := wordSum_order b
  have hrep : rep 65536 (wordSum .big b) = swap 256 (rep 65536 (wordSum .little b)) :=
    rep_swap (C := 256) (by decide) hzero hmod
  have hle := rep_le (B := 65536) (by omega) (wordSum .little b)
  refine wordBytes_order ?_
  -- the complement of the exchanged digits
  rw [inCksum_eq .little b h, inCksum_eq .big b h, hrep]
  unfold swap
  omega

/-- an odd buffer -/
theorem inCksum_order_odd :
    wordBytes .little (inCksum .little [1, 2, 3]) = wordBytes .big (inCksum .big [1, 2, 3]) :=
  inCksum_order [1, 2, 3] (by decide)

end Unp
