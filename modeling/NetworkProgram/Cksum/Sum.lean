import Mathlib.Data.List.Induction
import NetworkProgram.Cksum.Verify

/-!
# What `in_cksum` computes

`words` are the 16-bit words of a buffer, `onesSum` is their one's complement sum: 0 if they are all
0, and otherwise the number in `1 .. 65535` that is congruent to their sum modulo 65535.  `in_cksum`
returns its complement, and its 32-bit accumulator does not wrap (`inCksum_onesSum`).
-/

namespace Unp
open EndAround

variable {e : Endian} {b : List UInt8}

/-- the words that `in_cksum` adds up, an odd last byte padded with a zero byte -/
def words (e : Endian) : List UInt8 → List UInt16
  | b0 :: b1 :: w => word e b0 b1 :: words e w
  | [b] => [word e b 0]
  | [] => []

/-- the sum as an integer -/
def intSum (ws : List UInt16) : Nat := (ws.map UInt16.toNat).sum

/-- the one's complement sum -/
def onesSum (ws : List UInt16) : UInt16 :=
  if ws.all (· == 0) then 0 else UInt16.ofNat ((intSum ws - 1) % 65535 + 1)

/-- the loop of `in_cksum` over its words -/
def addUp (ws : List UInt16) : UInt32 := ws.foldl (fun sum w => sum + w.toUInt32) 0

/-! ## the two ways to add up -/

theorem intSum_words (e : Endian) (b : List UInt8) : intSum (words e b) = wordSum e b := by
  fun_induction wordSum e b with
  | case1 b0 b1 w ih => exact congrArg ((word e b0 b1).toNat + ·) ih
  | case2 b => rfl
  | case3 => rfl

theorem addWords_foldl (e : Endian) (b : List UInt8) (sum : UInt32) :
    addOdd e (addWords e sum b).1 (addWords e sum b).2 =
      (words e b).foldl (fun sum w => sum + w.toUInt32) sum := by
  fun_induction addWords e sum b with
  | case1 sum b0 b1 w ih => exact ih
  | case2 sum w hw =>
    rcases w with _ | ⟨c, _ | ⟨b1, w⟩⟩
    · rfl
    · rfl
    · exact absurd rfl (hw c b1 w)

theorem intSum_append (a b : List UInt16) : intSum (a ++ b) = intSum a + intSum b := by
  unfold intSum
  rw [List.map_append, List.sum_append]

/-- without a carry out of the 32 bits the accumulator holds the sum -/
theorem addUp_toNat {ws : List UInt16} (h : intSum ws < 2^32) : (addUp ws).toNat = intSum ws := by
  induction ws using List.reverseRecOn with
  | nil => rfl
  | append_singleton ws w ih =>
    rw [intSum_append] at h ⊢
    have hw : intSum [w] = w.toNat := Nat.add_zero _
    rw [hw] at h ⊢
    have hadd : addUp (ws ++ [w]) = addUp ws + w.toUInt32 := List.foldl_append ..
    rw [hadd, UInt32.toNat_add, ih (by omega), UInt16.toNat_toUInt32, Nat.mod_eq_of_lt h]

theorem intSum_take_le (k : Nat) (ws : List UInt16) : intSum (ws.take k) ≤ intSum ws := by
  have happ := intSum_append (ws.take k) (ws.drop k)
  rw [List.take_append_drop] at happ
  omega

theorem wordSum_lt (e : Endian) (h : b.length ≤ 131074) : wordSum e b < 2^32 := by
  have hle := wordSum_le e b
  omega

/-! ## the one's complement sum -/

theorem intSum_eq_zero_iff {ws : List UInt16} : intSum ws = 0 ↔ ∀ w ∈ ws, w = 0 := by
  unfold intSum
  rw [List.sum_eq_zero_iff_forall_eq_nat, List.forall_mem_map]
  constructor
  · intro h w hw
    exact UInt16.toNat_inj.mp (h w hw)
  · intro h w hw
    rw [h w hw]
    rfl

theorem all_zero_iff {ws : List UInt16} : ws.all (· == 0) = true ↔ ∀ w ∈ ws, w = 0 := by
  rw [List.all_eq_true]
  constructor
  · intro h w hw
    exact eq_of_beq (h w hw)
  · intro h w hw
    exact beq_iff_eq.mpr (h w hw)

theorem onesSum_toNat (ws : List UInt16) : (onesSum ws).toNat = rep 65536 (intSum ws) := by
  unfold onesSum
  split
  · rename_i h
    rw [intSum_eq_zero_iff.mpr (all_zero_iff.mp h)]
    rfl
  · rename_i h
    have hpos : 0 < intSum ws :=
      Nat.pos_of_ne_zero (fun hz => h (all_zero_iff.mpr (intSum_eq_zero_iff.mp hz)))
    rw [rep_of_pos hpos]
    exact Nat.mod_eq_of_lt (by omega)

/-- **`in_cksum` is the complement of the one's complement sum.**  The accumulator holds the sum of the
words read, which does not wrap, and the two folds of it give the representative. -/
theorem inCksum_onesSum (e : Endian) (b : List UInt8) (h : b.length ≤ 131074) :
    inCksum e b = ~~~ onesSum (words e b) ∧
    ((∀ w ∈ words e b, w = 0) → onesSum (words e b) = 0) ∧
    (¬ (∀ w ∈ words e b, w = 0) → 1 ≤ (onesSum (words e b)).toNat ∧
      (onesSum (words e b)).toNat ≤ 65535 ∧
      (onesSum (words e b)).toNat ≡ intSum (words e b) [MOD 65535]) ∧
    fold 65536 (fold 65536 (intSum (words e b))) = (onesSum (words e b)).toNat ∧
    addOdd e (addWords e 0 b).1 (addWords e 0 b).2 = addUp (words e b) ∧
    ∀ k, (addUp ((words e b).take k)).toNat = intSum ((words e b).take k) := by
  have hones := onesSum_toNat (words e b)
  have hlt := wordSum_lt e h
  rw [← intSum_words] at hlt
  refine ⟨?_, fun hz => if_pos (all_zero_iff.mpr hz), fun hz => ?_, ?_, addWords_foldl e b 0,
    fun k => addUp_toNat (Nat.lt_of_le_of_lt (intSum_take_le k _) hlt)⟩
  · have hcks := inCksum_eq e b h
    rw [← intSum_words, ← hones] at hcks
    rw [← UInt16.toNat_inj, hcks, UInt16.toNat_not]
    rfl
  · have hpos : 0 < intSum (words e b) :=
      Nat.pos_of_ne_zero (fun h0 => hz (intSum_eq_zero_iff.mp h0))
    rw [hones]
    exact ⟨rep_pos hpos, rep_le (B := 65536) (by omega) _, rep_modEq _⟩
  · rw [hones]
    exact fold_fold_eq_rep (by omega) (by omega)

/-- the sum `0xffff`, which is not 0 -/
theorem inCksum_onesSum_full :
    inCksum .big [255, 254, 0, 1] = 0 ∧ onesSum (words .big [255, 254, 0, 1]) = 65535 :=
  ⟨(inCksum_onesSum .big [255, 254, 0, 1] (by decide)).1.trans (by decide), by decide⟩

end Unp
