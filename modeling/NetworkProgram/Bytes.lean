import Mathlib.Data.List.Basic

/-!
# Words in memory

`word e b0 b1` and `word32 e w0 w1` read an integer from memory on a host of byte order `e`,
`wordBytes` and `word32Bytes` are the bytes it is stored in, and reading gives back what was
stored.
-/

namespace Unp

inductive Endian where
  | little
  | big
  deriving DecidableEq, Repr

/-- the 16-bit word in two bytes of memory -/
def word : Endian → UInt8 → UInt8 → UInt16
  | .little, b0, b1 => b0.toUInt16 + b1.toUInt16 * 256
  | .big, b0, b1 => b0.toUInt16 * 256 + b1.toUInt16

/-- the two bytes in which a 16-bit word is stored -/
def wordBytes : Endian → UInt16 → List UInt8
  | .little, w => [w.toUInt8, (w >>> 8).toUInt8]
  | .big, w => [(w >>> 8).toUInt8, w.toUInt8]

def word32 : Endian → UInt16 → UInt16 → UInt32
  | .little, w0, w1 => w0.toUInt32 + w1.toUInt32 * 65536
  | .big, w0, w1 => w0.toUInt32 * 65536 + w1.toUInt32

/-- the four bytes in which a 32-bit word is stored -/
def word32Bytes (e : Endian) (w : UInt32) : List UInt8 :=
  match e with
  | .little => wordBytes e w.toUInt16 ++ wordBytes e (w >>> 16).toUInt16
  | .big => wordBytes e (w >>> 16).toUInt16 ++ wordBytes e w.toUInt16

/-- the 32-bit word at offset `off` -/
def load32 (e : Endian) (b : List UInt8) (off : Nat) : UInt32 :=
  word32 e (word e (b.getD off 0) (b.getD (off + 1) 0))
    (word e (b.getD (off + 2) 0) (b.getD (off + 3) 0))

/-! ## the values of words -/

theorem word_little_toNat (b0 b1 : UInt8) :
    (word .little b0 b1).toNat = b0.toNat + b1.toNat * 256 := by
  have h0 := b0.toNat_lt
  have h1 := b1.toNat_lt
  simp only [word, UInt16.toNat_add, UInt16.toNat_mul, UInt8.toNat_toUInt16, UInt16.toNat_ofNat]
  omega

theorem word_big_toNat (b0 b1 : UInt8) :
    (word .big b0 b1).toNat = b0.toNat * 256 + b1.toNat := by
  have h0 := b0.toNat_lt
  have h1 := b1.toNat_lt
  simp only [word, UInt16.toNat_add, UInt16.toNat_mul, UInt8.toNat_toUInt16, UInt16.toNat_ofNat]
  omega

theorem word32_little_toNat (w0 w1 : UInt16) :
    (word32 .little w0 w1).toNat = w0.toNat + w1.toNat * 65536 := by
  have h0 := w0.toNat_lt
  have h1 := w1.toNat_lt
  simp only [word32, UInt32.toNat_add, UInt32.toNat_mul, UInt16.toNat_toUInt32, UInt32.toNat_ofNat]
  omega

theorem word32_big_toNat (w0 w1 : UInt16) :
    (word32 .big w0 w1).toNat = w0.toNat * 65536 + w1.toNat := by
  have h0 := w0.toNat_lt
  have h1 := w1.toNat_lt
  simp only [word32, UInt32.toNat_add, UInt32.toNat_mul, UInt16.toNat_toUInt32, UInt32.toNat_ofNat]
  omega

theorem toUInt8_shiftRight_toNat (w : UInt16) : (w >>> 8).toUInt8.toNat = w.toNat / 256 := by
  have hlt := w.toNat_lt
  have hshift : (w >>> 8).toNat = w.toNat / 256 := Nat.shiftRight_eq_div_pow ..
  rw [UInt16.toNat_toUInt8, hshift]
  omega

theorem toUInt16_shiftRight_toNat (w : UInt32) : (w >>> 16).toUInt16.toNat = w.toNat / 65536 := by
  have hlt := w.toNat_lt
  have hshift : (w >>> 16).toNat = w.toNat / 65536 := Nat.shiftRight_eq_div_pow ..
  rw [UInt32.toNat_toUInt16, hshift]
  omega

/-! ## reading back -/

theorem word_wordBytes (e : Endian) (w : UInt16) :
    ∃ b0 b1, wordBytes e w = [b0, b1] ∧ word e b0 b1 = w := by
  have hdiv := Nat.mod_add_div' w.toNat 256
  cases e with
  | little =>
    refine ⟨_, _, rfl, UInt16.toNat_inj.mp ?_⟩
    rw [word_little_toNat, toUInt8_shiftRight_toNat, UInt16.toNat_toUInt8]
    exact hdiv
  | big =>
    refine ⟨_, _, rfl, UInt16.toNat_inj.mp ?_⟩
    rw [word_big_toNat, toUInt8_shiftRight_toNat, UInt16.toNat_toUInt8, Nat.add_comm]
    exact hdiv

theorem wordBytes_length (e : Endian) (w : UInt16) : (wordBytes e w).length = 2 := by
  cases e <;> rfl

theorem word32_halves (e : Endian) (w : UInt32) :
    ∃ w0 w1, word32Bytes e w = wordBytes e w0 ++ wordBytes e w1 ∧ word32 e w0 w1 = w := by
  have hdiv := Nat.mod_add_div' w.toNat 65536
  cases e with
  | little =>
    refine ⟨_, _, rfl, UInt32.toNat_inj.mp ?_⟩
    rw [word32_little_toNat, toUInt16_shiftRight_toNat, UInt32.toNat_toUInt16]
    exact hdiv
  | big =>
    refine ⟨_, _, rfl, UInt32.toNat_inj.mp ?_⟩
    rw [word32_big_toNat, toUInt16_shiftRight_toNat, UInt32.toNat_toUInt16, Nat.add_comm]
    exact hdiv

theorem word32Bytes_length (e : Endian) (w : UInt32) : (word32Bytes e w).length = 4 := by
  cases e <;> rfl

/-- a stored 32-bit word at the front of a buffer is read back -/
theorem load32_word32Bytes (e : Endian) (w : UInt32) (rest : List UInt8) :
    load32 e (word32Bytes e w ++ rest) 0 = w := by
  obtain ⟨w0, w1, hw, h⟩ := word32_halves e w
  obtain ⟨a0, a1, ha, h0⟩ := word_wordBytes e w0
  obtain ⟨b0, b1, hb, h1⟩ := word_wordBytes e w1
  rw [hw, ha, hb]
  show word32 e (word e a0 a1) (word e b0 b1) = w
  rw [h0, h1, h]

end Unp
