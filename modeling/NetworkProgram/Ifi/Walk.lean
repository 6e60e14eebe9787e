import NetworkProgram.Ifi.Sizing

/-!
# The walk through the buffer

The step from record to record is the length of the name and of a `struct sockaddr`, 32 bytes.  A
`struct ifreq` has 40: what follows its name is a union of 24.

* `walk_steps`        with records as long as the step all is well;
* `walk_exact_iff`    with those of 40 bytes only where there is none.
-/

namespace Unp.Ifi

/-- `sizeof(struct ifreq)` -/
def sizeofIfreq : Nat := 40

/-- the records at `buf`, and what is behind them -/
def image {s : Nat} (recs : List (Ifreq s)) (rest : Nat → UInt8) : Nat → UInt8 :=
  fun k => (bytes recs).getD k (rest k)

/-- each of the `k` records of `s` bytes is examined, in order, and nothing behind them -/
structure Exact (s k : Nat) (w : Walk) : Prop where
  examined : w.examined = (List.range k).map (s * ·)
  last : w.last = s * k
  inside : ∀ ptr ∈ w.examined, ptr + s ≤ s * k

variable {ipv6 : Bool} {e : Endian} {buf : Nat → UInt8} {ifcLen ptr s k j : Nat}

theorem walk_end (h : ifcLen ≤ ptr) : walk ipv6 e buf ifcLen ptr = ⟨[], ptr⟩ := by
  rw [walk, if_neg (Nat.not_lt_of_le h)]

theorem walk_step (h : ptr < ifcLen) : walk ipv6 e buf ifcLen ptr =
    ⟨ptr :: (walk ipv6 e buf ifcLen (next ipv6 e buf ptr)).examined,
      (walk ipv6 e buf ifcLen (next ipv6 e buf ptr)).last⟩ := by
  rw [walk, if_pos h]

/-! ## records as long as the step -/

theorem walk_from (hs : 0 < s) (hnext : ∀ ptr, next ipv6 e buf ptr = ptr + s) (n j : Nat) :
    walk ipv6 e buf (s * (j + n)) (s * j) = ⟨(List.range' j n).map (s * ·), s * (j + n)⟩ := by
  induction n generalizing j with
  | zero => exact walk_end (Nat.le_refl _)
  | succ n ih =>
    have hlt : s * j < s * (j + (n + 1)) := Nat.mul_lt_mul_of_pos_left (by omega) hs
    have hsum : j + (n + 1) = j + 1 + n := by omega
    rw [walk_step hlt, hnext, ← Nat.mul_succ, hsum, ih]
    rfl

/-- **Records as long as the step are examined one by one.** -/
theorem walk_steps (hs : 0 < s) (hnext : ∀ ptr, next ipv6 e buf ptr = ptr + s) (k : Nat) :
    Exact s k (walk ipv6 e buf (s * k) 0) := by
  have hwalk := walk_from hs hnext k 0
  rw [Nat.zero_add, Nat.mul_zero, ← List.range_eq_range'] at hwalk
  rw [hwalk]
  refine ⟨rfl, rfl, fun ptr hptr => ?_⟩
  obtain ⟨i, hi, rfl⟩ := List.mem_map.mp hptr
  rw [← Nat.mul_succ]
  exact Nat.mul_le_mul_left s (List.mem_range.mp hi)

/-- without `IPV6` that is 32 bytes -/
theorem walk_sockaddr (e : Endian) (buf : Nat → UInt8) (k : Nat) :
    Exact 32 k (walk false e buf (32 * k) 0) := walk_steps (by decide) (fun _ => rfl) k

/-! ## records of 40 bytes -/

theorem next_ne (ipv6 : Bool) (e : Endian) (buf : Nat → UInt8) (ptr : Nat) : next ipv6 e buf ptr ≠ ptr + sizeofIfreq := by
  have hname : IFNAMSIZ = 16 := rfl
  have hsize : sizeofIfreq = 40 := rfl
  unfold next sockaddrLen
  split <;> omega

/-- the second record is missed, or the end -/
theorem not_exact (hk : 0 < k) : ¬ Exact sizeofIfreq k (walk ipv6 e buf (sizeofIfreq * k) 0) := by
  intro h
  have hlt : 0 < sizeofIfreq * k := Nat.mul_pos (by decide) hk
  have hne := next_ne ipv6 e buf 0
  rw [walk_step hlt] at h
  by_cases hnext : next ipv6 e buf 0 < sizeofIfreq * k
  · rw [walk_step hnext] at h
    have hsecond : ((List.range k).map (sizeofIfreq * ·))[1]? = some (next ipv6 e buf 0) :=
      (congrArg (·[1]?) h.examined).symm
    rw [List.getElem?_map, Option.map_eq_some_iff] at hsecond
    obtain ⟨i, hi, hval⟩ := hsecond
    obtain ⟨hlen, hget⟩ := List.getElem?_eq_some_iff.mp hi
    obtain rfl : 1 = i := by rwa [List.getElem_range] at hget
    exact hne (hval.symm.trans (by rw [Nat.mul_one, Nat.zero_add]))
  · rw [walk_end (Nat.le_of_not_lt hnext)] at h
    obtain rfl : 1 = k := by
      have hlen := congrArg List.length h.examined
      rwa [List.length_map, List.length_range] at hlen
    exact hne (h.last.trans (by rw [Nat.mul_one, Nat.zero_add]))

/-- **The walk is right for no list of records but the empty one.** -/
theorem walk_exact_iff (ipv6 : Bool) (e : Endian) (recs : List (Ifreq sizeofIfreq))
    (rest : Nat → UInt8) :
    Exact sizeofIfreq recs.length (walk ipv6 e (image recs rest) (bytes recs).length 0) ↔ recs = [] := by
  rw [bytes_length]
  constructor
  · intro h
    by_contra hne
    exact not_exact (List.length_pos_iff.mpr hne) h
  · rintro rfl
    rw [walk_end (show sizeofIfreq * List.length [] ≤ 0 from Nat.le_refl 0)]
    exact ⟨rfl, rfl, fun _ hptr => absurd hptr List.not_mem_nil⟩

/-- two records: the second is looked for 8 bytes in front of it -/
theorem not_walk_exact : ¬ ∀ (ipv6 : Bool) (e : Endian) (recs : List (Ifreq sizeofIfreq))
    (rest : Nat → UInt8),
    Exact sizeofIfreq recs.length (walk ipv6 e (image recs rest) (bytes recs).length 0) := by
  intro h
  have hexact := h false .little [zeroIfreq, zeroIfreq] (fun _ => 0)
  rw [bytes_length] at hexact
  exact not_exact (by decide) hexact

end Unp.Ifi
