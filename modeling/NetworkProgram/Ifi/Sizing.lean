import NetworkProgram.Ifi.Impl
import Mathlib.Tactic.Ring

/-!
# The length of the buffer

The loop stops when two answers in a row are of one length.  A truncated answer is shorter than the
next one, so both are whole.

* `Kernel`            what the two kinds of `SIOCGIFCONF` answer;
* `Pending`           what the loop holds before it has seen a whole answer;
* `sizing_complete`   the loop ends, and with all records.
-/

namespace Unp.Ifi

/-- a `struct ifreq` of `s` bytes -/
abbrev Ifreq (s : Nat) := { bs : List UInt8 // bs.length = s }

def bytes {s : Nat} (recs : List (Ifreq s)) : List UInt8 := recs.flatMap Subtype.val

/-- a buffer that is too small is filled, or refused -/
inductive Kernel where
  | truncates
  | rejects
  deriving DecidableEq

def Kernel.ifconf {s : Nat} (kernel : Kernel) (recs : List (Ifreq s)) : Ifconf := fun len =>
  match kernel with
  | .truncates => .ok (bytes (recs.take (len.toNat / s)))
  | .rejects => if len < s * recs.length then .error EINVAL else .ok (bytes recs)

/-- all records are in the buffer -/
structure Complete {s : Nat} (recs : List (Ifreq s)) (b : Buffer) : Prop where
  bytes : b.bytes = bytes recs
  ifcLen : b.bytes.length = s * recs.length
  fits : (s * recs.length : Int) ≤ b.len

/-- the number of records for which the `j`-th buffer has room -/
def room (j : Nat) : Nat := 100 + 10 * j

/-- the first `j` with room for `k` records -/
def firstWhole (k : Nat) : Nat := (k - 100 + 9) / 10

/-- the most records for which room is made -/
def mostRoom (k : Nat) : Nat := room (firstWhole k + 1)

variable {s j l fuel : Nat} {kernel : Kernel} {recs : List (Ifreq s)}

/-! ## the answers -/

theorem bytes_length (recs : List (Ifreq s)) : (bytes recs).length = s * recs.length := by
  induction recs with
  | nil => rfl
  | cons r recs ih =>
    have hcons : bytes (r :: recs) = r.1 ++ bytes recs := List.flatMap_cons ..
    rw [hcons, List.length_append, r.2, ih, List.length_cons, Nat.mul_succ, Nat.add_comm]

theorem toInt_of_lt {x : Int} (h0 : 0 ≤ x) (h : x < 2147483648) : toInt x = x :=
  Int.bmod_eq_of_le (by omega) (by omega)

theorem ifconf_whole (hs : 0 < s) (h : recs.length ≤ room j) :
    kernel.ifconf recs (s * room j : Nat) = .ok (bytes recs) := by
  cases kernel with
  | truncates =>
    have hdiv : ((s * room j : Nat) : Int).toNat / s = room j := by
      rw [Int.toNat_natCast, Nat.mul_div_cancel_left _ hs]
    unfold Kernel.ifconf
    dsimp only
    rw [hdiv, List.take_of_length_le h]
  | rejects =>
    have hle : s * recs.length ≤ s * room j := Nat.mul_le_mul_left s h
    exact if_neg (by omega)

theorem ifconf_truncates (hs : 0 < s) (h : room j < recs.length) :
    ∃ bs, Kernel.truncates.ifconf recs (s * room j : Nat) = .ok bs ∧ bs.length = s * room j := by
  have hdiv : ((s * room j : Nat) : Int).toNat / s = room j := by
    rw [Int.toNat_natCast, Nat.mul_div_cancel_left _ hs]
  refine ⟨_, rfl, ?_⟩
  rw [bytes_length, hdiv, List.length_take, Nat.min_eq_left (Nat.le_of_lt h)]

theorem ifconf_rejects (hs : 0 < s) (h : room j < recs.length) :
    Kernel.rejects.ifconf recs (s * room j : Nat) = .error EINVAL := by
  have hlt : s * room j < s * recs.length := Nat.mul_lt_mul_of_pos_left h hs
  exact if_pos (by omega)

/-! ## one turn -/

/-- before a whole answer: the last one is shorter than the next -/
structure Pending (kernel : Kernel) (recs : List (Ifreq s)) (j l : Nat) : Prop where
  le : j ≤ firstWhole recs.length
  lt : l < s * min recs.length (room j)
  first : kernel = .rejects → l = 0

theorem room_le (h : j ≤ firstWhole recs.length) : room (j + 1) ≤ mostRoom recs.length := by
  unfold mostRoom room
  omega

theorem toInt_room (hsize : s * mostRoom recs.length < 2147483648)
    (h : j ≤ firstWhole recs.length) :
    toInt ((s * room j : Nat) + 10 * s) = (s * room (j + 1) : Nat) := by
  have hnext : s * room (j + 1) = s * room j + 10 * s := by
    unfold room
    ring
  have hle := Nat.mul_le_mul_left s (room_le h)
  rw [toInt_of_lt (by omega) (by omega)]
  omega

/-- the last answer was whole: the next one is too, and ends the loop -/
theorem sizing_whole (hs : 0 < s) (h : recs.length ≤ room j) (hl : l = s * recs.length) :
    sizing s (kernel.ifconf recs) (fuel + 1) l (s * room j : Nat) =
      some (.ok ⟨(s * room j : Nat), bytes recs⟩) := by
  unfold sizing
  rw [ifconf_whole hs h]
  dsimp only
  rw [if_pos (by rw [bytes_length, hl])]

theorem sizing_first (hs : 0 < s) (hsize : s * mostRoom recs.length < 2147483648)
    (h : recs.length ≤ room j) (hp : Pending kernel recs j l) :
    sizing s (kernel.ifconf recs) (fuel + 1) l (s * room j : Nat) =
      sizing s (kernel.ifconf recs) fuel (s * recs.length : Nat) (s * room (j + 1) : Nat) := by
  have hlt := hp.lt
  rw [Nat.min_eq_left h] at hlt
  rw [sizing, ifconf_whole hs h]
  dsimp only
  rw [if_neg (by rw [bytes_length]; omega), toInt_room hsize hp.le, bytes_length]

/-- no room for all: a longer answer than the last, or none -/
theorem sizing_pending (hs : 0 < s) (hsize : s * mostRoom recs.length < 2147483648)
    (h : room j < recs.length) (hp : Pending kernel recs j l) : ∃ l', Pending kernel recs (j + 1) l' ∧
      ∀ fuel, sizing s (kernel.ifconf recs) (fuel + 1) l (s * room j : Nat) =
        sizing s (kernel.ifconf recs) fuel l' (s * room (j + 1) : Nat) := by
  have hle : j + 1 ≤ firstWhole recs.length := by
    unfold room at h
    unfold firstWhole
    omega
  have hmore : s * room j < s * min recs.length (room (j + 1)) := by
    refine Nat.mul_lt_mul_of_pos_left (Nat.lt_min.mpr ⟨h, ?_⟩) hs
    unfold room
    omega
  have hlt := hp.lt
  rw [Nat.min_eq_right (Nat.le_of_lt h)] at hlt
  cases kernel with
  | truncates =>
    obtain ⟨bs, hbs, hlen⟩ := ifconf_truncates (j := j) hs h
    refine ⟨s * room j, ⟨hle, hmore, fun hk => by cases hk⟩, fun fuel => ?_⟩
    rw [sizing, hbs]
    dsimp only
    rw [if_neg (by omega), toInt_room hsize hp.le, hlen]
  | rejects =>
    obtain rfl := hp.first rfl
    refine ⟨0, ⟨hle, Nat.lt_of_le_of_lt (Nat.zero_le _) hmore, fun _ => rfl⟩, fun fuel => ?_⟩
    rw [sizing, ifconf_rejects hs h]
    dsimp only
    rw [if_neg (by simp), toInt_room hsize hp.le]

/-! ## the loop -/

def Answered (kernel : Kernel) (recs : List (Ifreq s)) (j l : Nat) : Prop :=
  (recs.length ≤ room j ∧ l = s * recs.length) ∨ Pending kernel recs j l

theorem complete_whole (h : recs.length ≤ room j) :
    Complete recs ⟨(s * room j : Nat), bytes recs⟩ where
  bytes := rfl
  ifcLen := bytes_length recs
  fits := by
    have hle := Nat.mul_le_mul_left s h
    show (s * recs.length : Int) ≤ (s * room j : Nat)
    omega

theorem sizing_sound (hs : 0 < s) (hsize : s * mostRoom recs.length < 2147483648)
    (h : Answered kernel recs j l) {r : Except Stop Buffer}
    (hr : sizing s (kernel.ifconf recs) fuel l (s * room j : Nat) = some r) :
    ∃ b, r = .ok b ∧ Complete recs b := by
  induction fuel generalizing j l with
  | zero => cases hr
  | succ fuel ih =>
    rcases h with ⟨hroom, hl⟩ | hp
    · rw [sizing_whole hs hroom hl] at hr
      exact ⟨_, (Option.some.inj hr).symm, complete_whole hroom⟩
    · by_cases hroom : recs.length ≤ room j
      · rw [sizing_first hs hsize hroom hp] at hr
        exact ih (Or.inl ⟨hroom.trans (by unfold room; omega), rfl⟩) hr
      · obtain ⟨l', hp', heq⟩ := sizing_pending hs hsize (Nat.lt_of_not_le hroom) hp
        rw [heq] at hr
        exact ih (Or.inr hp') hr

theorem sizing_twice (hs : 0 < s) (hsize : s * mostRoom recs.length < 2147483648)
    (h : recs.length ≤ room j) (hp : Pending kernel recs j l) :
    sizing s (kernel.ifconf recs) 2 l (s * room j : Nat) =
      some (.ok ⟨(s * room (j + 1) : Nat), bytes recs⟩) := by
  have hnext : recs.length ≤ room (j + 1) := h.trans (by unfold room; omega)
  rw [sizing_first hs hsize h hp, sizing_whole hs hnext rfl]

/-- with every turn there is more room, until there is enough -/
theorem sizing_ends (hs : 0 < s) (hsize : s * mostRoom recs.length < 2147483648)
    (h : Answered kernel recs j l) :
    ∃ fuel r, sizing s (kernel.ifconf recs) fuel l (s * room j : Nat) = some r := by
  rcases h with ⟨hroom, hl⟩ | hp
  · exact ⟨1, _, sizing_whole hs hroom hl⟩
  · obtain ⟨d, hd⟩ := Nat.exists_eq_add_of_le hp.le
    induction d generalizing j l with
    | zero =>
      have hroom : recs.length ≤ room j := by
        unfold firstWhole at hd
        unfold room
        omega
      exact ⟨2, _, sizing_twice hs hsize hroom hp⟩
    | succ d ih =>
      by_cases hroom : recs.length ≤ room j
      · exact ⟨2, _, sizing_twice hs hsize hroom hp⟩
      · obtain ⟨l', hp', heq⟩ := sizing_pending hs hsize (Nat.lt_of_not_le hroom) hp
        obtain ⟨fuel, r, hr⟩ := ih hp' (by omega)
        exact ⟨fuel + 1, r, (heq fuel).trans hr⟩

theorem answered_start (kernel : Kernel) (recs : List (Ifreq s)) (hs : 0 < s) :
    Answered kernel recs 0 0 := by
  rcases Nat.eq_zero_or_pos recs.length with h0 | hpos
  · exact Or.inl ⟨by rw [h0]; exact Nat.zero_le _, by rw [h0, Nat.mul_zero]⟩
  · refine Or.inr ⟨Nat.zero_le _, ?_, fun _ => rfl⟩
    exact Nat.mul_pos hs (Nat.lt_min.mpr ⟨hpos, by decide⟩)

theorem findBuffer_eq (ioctl : Ifconf) (hsize : s * mostRoom recs.length < 2147483648) :
    findBuffer s ioctl fuel = sizing s ioctl fuel (0 : Nat) (s * room 0 : Nat) := by
  have hle : s * room 0 ≤ s * mostRoom recs.length :=
    Nat.mul_le_mul_left s (by unfold mostRoom room; omega)
  have h0 : (100 * s : Int) = (s * room 0 : Nat) := by
    show (100 * s : Int) = (s * 100 : Nat)
    omega
  unfold findBuffer
  rw [h0, toInt_of_lt (by omega) (by omega)]
  rfl

/-- **The loop ends with all records.**  However many they are, and whether `SIOCGIFCONF` truncates or
rejects, the loop ends, and what it ends with is a buffer that holds them all. -/
theorem sizing_complete (kernel : Kernel) (recs : List (Ifreq s)) (hs : 0 < s)
    (hsize : s * mostRoom recs.length < 2147483648) :
    (∃ fuel b, findBuffer s (kernel.ifconf recs) fuel = some (.ok b) ∧ Complete recs b) ∧
    ∀ fuel r, findBuffer s (kernel.ifconf recs) fuel = some r →
      ∃ b, r = .ok b ∧ Complete recs b := by
  have hstart := answered_start kernel recs hs
  have hsound : ∀ fuel r, findBuffer s (kernel.ifconf recs) fuel = some r →
      ∃ b, r = .ok b ∧ Complete recs b := by
    intro fuel r hr
    rw [findBuffer_eq _ hsize] at hr
    exact sizing_sound hs hsize hstart hr
  refine ⟨?_, hsound⟩
  obtain ⟨fuel, r, hr⟩ := sizing_ends hs hsize hstart
  rw [← findBuffer_eq _ hsize] at hr
  obtain ⟨b, rfl, hb⟩ := hsound fuel r hr
  exact ⟨fuel, b, hr, hb⟩

/-- a record of zeros -/
def zeroIfreq : Ifreq 40 := ⟨List.replicate 40 0, List.length_replicate⟩

/-- 120 records: 100, 110 and 120 are stored, and 120 once more -/
theorem sizing_complete_truncates : ∃ fuel b,
    findBuffer 40 (Kernel.truncates.ifconf (List.replicate 120 zeroIfreq)) fuel = some (.ok b) ∧
      b.bytes.length = 4800 := by
  obtain ⟨⟨fuel, b, hb, hcomplete⟩, _⟩ := sizing_complete .truncates (List.replicate 120 zeroIfreq)
    (by decide) (by rw [List.length_replicate]; decide)
  exact ⟨fuel, b, hb, hcomplete.ifcLen⟩

end Unp.Ifi
