import NetworkProgram.Bytes
import NetworkProgram.Sys
import Mathlib.Data.Rat.Floor
import Mathlib.Tactic.NormNum

/-!
# The clock difference that sntp prints

`mcast/sntp/sntp_proc.cpp`.  The difference is computed in `long`s, and put into a `uint32_t` that is
printed with `%d`: `difference_mod` says what becomes of it, `printed_iff` when it is what it was.

The `double`s are rationals, which is exact: the product in microseconds is below `2^52`.
-/

namespace Unp.Sntp

def JAN_1970 : Nat := 2208988800

def VERSION_MASK : UInt8 := 0x38
def MODE_MASK : UInt8 := 0x07
def MODE_CLIENT : UInt8 := 3

/-- `sizeof(struct ntpdata)`: the status at 0, the stratum at 1, and at 40 the time of transmission,
its seconds and their fraction -/
def sizeofNtpdata : Int := 48

/-- `ntohl` of the field at `off` -/
def ntohl (buf : Nat → UInt8) (off : Nat) : UInt32 :=
  word32 .big (word .big (buf off) (buf (off + 1))) (word .big (buf (off + 2)) (buf (off + 3)))

/-- what is printed -/
inductive Printed where
  | tooSmall (n : Int)
  | client (version mode stratum : UInt8)
  | difference (version mode stratum : UInt8) (usec : Int)
  deriving DecidableEq

/-- the microseconds of a difference made positive -/
def borrow (diff : Timeval) : Timeval :=
  if diff.tvUsec < 0 then ⟨diff.tvSec - 1, diff.tvUsec + 1000000⟩ else diff

def sntpProc (buf : Nat → UInt8) (n : Int) (now : Timeval) : Printed :=
  if n < sizeofNtpdata then .tooSmall n
  else
    let version := (buf 0 &&& VERSION_MASK) >>> 3
    let mode := buf 0 &&& MODE_MASK
    let stratum := buf 1
    if mode = MODE_CLIENT then .client version mode stratum
    else
      let nsec : UInt32 := ntohl buf 40 - UInt32.ofNat JAN_1970
      let useci := ntohl buf 44
      let usecf : Rat := useci.toNat
      let usecf := usecf / 4294967296
      let useci := UInt32.ofNat (usecf * 1000000).floor.toNat
      let diff := borrow ⟨now.tvSec - nsec.toNat, now.tvUsec - useci.toNat⟩
      let useci := UInt32.ofInt (diff.tvSec * 1000000 + diff.tvUsec)
      .difference version mode stratum useci.toInt32.toInt

/-! ## the difference -/

/-- the packet's time of transmission, in microseconds since 1970 -/
def xmt (buf : Nat → UInt8) : Int :=
  ((ntohl buf 40).toNat - JAN_1970 : Int) % 4294967296 * 1000000 +
    ((ntohl buf 44).toNat * 1000000 / 4294967296 : Nat)

variable {buf : Nat → UInt8} {n : Int} {now : Timeval}

theorem nsec_toNat (w : UInt32) :
    ((w - UInt32.ofNat JAN_1970).toNat : Int) = (w.toNat - JAN_1970 : Int) % 4294967296 := by
  have hlt := w.toNat_lt
  have hjan : (UInt32.ofNat JAN_1970).toNat = 2208988800 := rfl
  have hval : JAN_1970 = 2208988800 := rfl
  rw [UInt32.toNat_sub, hjan, hval]
  omega

/-- the cast of a quotient to an integer -/
theorem floor_quotient (a : Int) (b : Nat) : ((a : Rat) / b).floor = a / b :=
  Rat.floor_intCast_div_natCast a b

/-- a fraction of a second, in whole microseconds -/
theorem usecf_floor (f : UInt32) :
    (UInt32.ofNat (((f.toNat : Rat) / 4294967296) * 1000000).floor.toNat).toNat =
      f.toNat * 1000000 / 4294967296 := by
  have hlt := f.toNat_lt
  have hcast : ((f.toNat : Rat) / 4294967296) * 1000000 =
      ((f.toNat * 1000000 : Int) : Rat) / (4294967296 : Nat) := by
    push_cast
    ring
  have hfloor : (((f.toNat : Rat) / 4294967296) * 1000000).floor =
      (f.toNat * 1000000 : Int) / (4294967296 : Nat) := by
    rw [hcast, floor_quotient]
  rw [hfloor, UInt32.toNat_ofNat_of_lt' (by show _ < 4294967296; omega)]
  omega

/-- a `long` in a `uint32_t`, printed with `%d` -/
theorem ofInt_toInt32 (x : Int) : (UInt32.ofInt x).toInt32.toInt = Int.bmod x 4294967296 := by
  have hint : (UInt32.ofInt x).toInt32.toInt = (UInt32.ofInt x).toBitVec.toInt := rfl
  have hnat : ((UInt32.ofInt x).toBitVec.toNat : Int) = x % 4294967296 := by
    have hval : (UInt32.ofInt x).toBitVec.toNat = (x % 4294967296).toNat :=
      UInt32.toNat_ofNat_of_lt' (by show _ < 4294967296; omega)
    rw [hval]
    omega
  rw [hint, BitVec.toInt_eq_toNat_bmod, hnat]
  exact Int.emod_bmod x 4294967296

theorem borrow_micros (diff : Timeval) :
    (borrow diff).tvSec * 1000000 + (borrow diff).tvUsec = diff.micros := by
  unfold borrow Timeval.micros
  split
  · dsimp only
    omega
  · rfl

/-- **What is printed.**  The difference of the two times, as far as 32 bits hold it. -/
theorem difference_mod (hn : sizeofNtpdata ≤ n) (hmode : buf 0 &&& MODE_MASK ≠ MODE_CLIENT) :
    sntpProc buf n now = .difference ((buf 0 &&& VERSION_MASK) >>> 3) (buf 0 &&& MODE_MASK) (buf 1)
      (Int.bmod (now.micros - xmt buf) 4294967296) := by
  have hdiff : (now.tvSec - ((ntohl buf 40).toNat - JAN_1970 : Int) % 4294967296) * 1000000 +
      (now.tvUsec - ((ntohl buf 44).toNat * 1000000 / 4294967296 : Nat)) = now.micros - xmt buf := by
    unfold xmt Timeval.micros
    omega
  unfold sntpProc
  dsimp only
  rw [if_neg (Int.not_lt.mpr hn), if_neg hmode, borrow_micros, ofInt_toInt32, nsec_toNat, usecf_floor,
    ← hdiff]
  rfl

/-- the clock difference is printed as it is -/
def Exact (buf : Nat → UInt8) (n : Int) (now : Timeval) : Prop :=
  ∃ version mode stratum,
    sntpProc buf n now = .difference version mode stratum (now.micros - xmt buf)

/-- **Which differences are printed as they are.**  For a packet that is long enough and no client's,
those of less than `2^31` microseconds, about 36 minutes. -/
theorem exact_iff (buf : Nat → UInt8) (n : Int) (now : Timeval) (hn : sizeofNtpdata ≤ n)
    (hmode : buf 0 &&& MODE_MASK ≠ MODE_CLIENT) :
    Exact buf n now ↔
      -2147483648 ≤ now.micros - xmt buf ∧ now.micros - xmt buf < 2147483648 := by
  have hbmod : Int.bmod (now.micros - xmt buf) 4294967296 = now.micros - xmt buf ↔
      -2147483648 ≤ now.micros - xmt buf ∧ now.micros - xmt buf < 2147483648 := by
    rw [Int.bmod_def]
    split <;> omega
  rw [← hbmod]
  unfold Exact
  rw [difference_mod hn hmode]
  constructor
  · rintro ⟨version, mode, stratum, heq⟩
    exact (Printed.difference.inj heq).2.2.2
  · intro heq
    exact ⟨_, _, _, congrArg _ heq⟩

/-- a server's packet, sent half a second after the beginning of 2025 -/
def newYear : Nat → UInt8 := fun k =>
  (([36, 1] : List UInt8) ++ List.replicate 38 0 ++ [235, 31, 4, 0, 128, 0, 0, 0]).getD k 0

/-- a clock that is a quarter of a second behind -/
theorem exact_iff_behind : Exact newYear 48 ⟨1735689600, 250000⟩ :=
  (exact_iff newYear 48 ⟨1735689600, 250000⟩ (by decide) (by decide)).mpr
    (by decide +kernel)

/-- a clock that is an hour ahead -/
theorem not_exact : ¬ ∀ (buf : Nat → UInt8) (n : Int) (now : Timeval), sizeofNtpdata ≤ n →
    buf 0 &&& MODE_MASK ≠ MODE_CLIENT → now.Normal → 0 ≤ now.tvSec → now.tvSec < 4294967296 →
    Exact buf n now := by
  intro h
  have hexact := h newYear 48 ⟨1735693200, 500000⟩ (by decide) (by decide) ⟨by decide, by decide⟩
    (by decide) (by decide)
  obtain ⟨_, _, _, heq⟩ := hexact
  rw [difference_mod (by decide) (by decide)] at heq
  exact absurd (Printed.difference.inj heq).2.2.2 (by decide +kernel)

end Unp.Sntp
