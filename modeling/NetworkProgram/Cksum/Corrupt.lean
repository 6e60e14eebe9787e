import NetworkProgram.Cksum.Sum
import NetworkProgram.Readn

/-!
# What the check of `udp_check` detects

Two buffers of one length that differ in one word have the same checksum only if the words are the two
representations of zero, `0x0000` and `0xffff`, and neither buffer is all zero (`DifferAt.inCksum_iff`).
`udpCheck` is `udp_check` (`udpchsum/udpread.cpp`); `udpCheck_ok_iff` is what it accepts.
-/

namespace Unp
open EndAround

variable {e : Endian} {b b' : List UInt8} {k : Nat} {w w' : UInt16}

/-! ## udp_check -/

def IPVERSION : UInt8 := 4

/-- the size of `struct ip` -/
def sizeofIp : Nat := 20

/-- `ip_v` and `ip_hl` of the header at `ptr` -/
def ipV (ptr : Nat → UInt8) : UInt8 := ptr 0 >>> 4
def ipHl (ptr : Nat → UInt8) : UInt8 := ptr 0 &&& 0xf

/-- the bytes of the header that are summed -/
def ipHlen (ptr : Nat → UInt8) : Nat := (ipHl ptr).toNat * 4

/-- `udp_check`: the memory at `ui`, or the exit -/
def udpCheck (e : Endian) (ptr : Nat → UInt8) (len : Int) : Except Stop (Nat → UInt8) :=
  if sizeT len < sizeofIp + sizeofUdphdr then .error (.errQuit "len=%d" [len])
  else if ipV ptr ≠ IPVERSION then .error (.errQuit "ip_v = %d" [(ipV ptr).toNat])
  else
    let hlen := ipHlen ptr
    if hlen < sizeofIp then .error (.errQuit "ip_hl=%d" [(ipHl ptr).toNat])
    else if sizeT len < hlen + sizeofUdphdr then .error (.errQuit "len=%d, hlen=%d" [len, hlen])
    else
      let sum := inCksum e (memory ptr 0 hlen)
      let ptr := store ptr 10 (wordBytes e sum)
      if sum ≠ 0 then .error (.errQuit "ip check sum error" [])
      else if ptr 9 = IPPROTO_UDP then .ok ptr
      else .error (.errQuit "not a udp packet" [])

/-- the tests before the checksum -/
structure Sized (ptr : Nat → UInt8) (len : Int) : Prop where
  size : sizeofIp + sizeofUdphdr ≤ sizeT len
  version : ipV ptr = IPVERSION
  hlen : sizeofIp ≤ ipHlen ptr
  room : ipHlen ptr + sizeofUdphdr ≤ sizeT len

variable {ptr q : Nat → UInt8} {len : Int}

/-- behind the first four tests the checksum decides -/
theorem Sized.udpCheck_eq (h : Sized ptr len) :
    udpCheck e ptr len =
      if inCksum e (memory ptr 0 (ipHlen ptr)) ≠ 0 then .error (.errQuit "ip check sum error" [])
      else if ptr 9 = IPPROTO_UDP then
        .ok (store ptr 10 (wordBytes e (inCksum e (memory ptr 0 (ipHlen ptr)))))
      else .error (.errQuit "not a udp packet" []) := by
  unfold udpCheck
  rw [if_neg (Nat.not_lt.mpr h.size), if_neg (not_not.mpr h.version), if_neg (Nat.not_lt.mpr h.hlen),
    if_neg (Nat.not_lt.mpr h.room)]
  dsimp only
  rw [store_of_lt (show 9 < 10 by decide)]

theorem not_sized (h : ¬ Sized ptr len) : ∃ why, udpCheck e ptr len = .error why := by
  unfold udpCheck
  split
  · exact ⟨_, rfl⟩
  rename_i hsize
  split
  · exact ⟨_, rfl⟩
  rename_i hversion
  dsimp only
  split
  · exact ⟨_, rfl⟩
  rename_i hhlen
  split
  · exact ⟨_, rfl⟩
  rename_i hroom
  exact absurd ⟨Nat.not_lt.mp hsize, not_not.mp hversion, Nat.not_lt.mp hhlen, Nat.not_lt.mp hroom⟩ h

/-- **What `udp_check` accepts**, with `ip_sum` overwritten by the 0 it compared. -/
theorem udpCheck_ok_iff :
    udpCheck e ptr len = .ok q ↔ Sized ptr len ∧ cksumOk e (memory ptr 0 (ipHlen ptr)) = true ∧
      ptr 9 = IPPROTO_UDP ∧ q = store ptr 10 (wordBytes e 0) := by
  by_cases hs : Sized ptr len
  · rw [hs.udpCheck_eq]
    unfold cksumOk
    by_cases hsum : inCksum e (memory ptr 0 (ipHlen ptr)) = 0
    · rw [hsum, if_neg (not_not.mpr rfl)]
      by_cases hp : ptr 9 = IPPROTO_UDP
      · rw [if_pos hp]
        constructor
        · intro h
          exact ⟨hs, rfl, hp, (Except.ok.inj h).symm⟩
        · rintro ⟨_, _, _, hq⟩
          rw [hq]
      · rw [if_neg hp]
        exact ⟨nofun, fun h => absurd h.2.2.1 hp⟩
    · rw [if_pos hsum]
      exact ⟨nofun, fun h => absurd (eq_of_beq h.2.1) hsum⟩
  · obtain ⟨why, hwhy⟩ := not_sized (e := e) hs
    rw [hwhy]
    exact ⟨nofun, fun h => absurd h.1 hs⟩

/-! ## one word changed -/

/-- the buffers differ in word `k`, which is `w` in one and `w'` in the other, and nowhere else -/
structure DifferAt (e : Endian) (b b' : List UInt8) (k : Nat) (w w' : UInt16) : Prop where
  left : (words e b)[k]? = some w
  right : (words e b')[k]? = some w'
  ne : w ≠ w'
  same : ∀ j, j ≠ k → (words e b)[j]? = (words e b')[j]?

/-- the two representations of zero -/
def Zeros (w w' : UInt16) : Prop := (w = 0 ∧ w' = 0xffff) ∨ (w = 0xffff ∧ w' = 0)

theorem zeros_iff (hne : w ≠ w') : w.toNat ≡ w'.toNat [MOD 65535] ↔ Zeros w w' := by
  have hw := w.toNat_lt
  have hw' := w'.toNat_lt
  have hne' : w.toNat ≠ w'.toNat := fun h => hne (UInt16.toNat_inj.mp h)
  unfold Zeros Nat.ModEq
  rw [← UInt16.toNat_inj, ← UInt16.toNat_inj, ← UInt16.toNat_inj, ← UInt16.toNat_inj]
  show _ ↔ w.toNat = 0 ∧ w'.toNat = 65535 ∨ w.toNat = 65535 ∧ w'.toNat = 0
  omega

theorem intSum_cons (w : UInt16) (ws : List UInt16) : intSum (w :: ws) = w.toNat + intSum ws := rfl

theorem intSum_set {ws : List UInt16} (h : ws[k]? = some w) :
    intSum (ws.set k w') + w.toNat = intSum ws + w'.toNat := by
  induction ws generalizing k with
  | nil => exact absurd h nofun
  | cons x ws ih =>
    cases k with
    | zero =>
      have hx : x = w := Option.some.inj h
      rw [List.set_cons_zero, intSum_cons, intSum_cons, hx]
      omega
    | succ k =>
      have hset := ih (k := k) h
      rw [List.set_cons_succ, intSum_cons, intSum_cons]
      omega

theorem DifferAt.of_set (hleft : (words e b)[k]? = some w) (hne : w ≠ w')
    (hset : words e b' = (words e b).set k w') : DifferAt e b b' k w w' := by
  obtain ⟨hk, -⟩ := List.getElem?_eq_some_iff.mp hleft
  refine ⟨hleft, ?_, hne, fun j hj => ?_⟩
  · rw [hset, List.getElem?_set_self hk]
  · rw [hset, List.getElem?_set_ne hj.symm]

theorem DifferAt.words_eq (h : DifferAt e b b' k w w') : words e b' = (words e b).set k w' := by
  obtain ⟨hk, -⟩ := List.getElem?_eq_some_iff.mp h.left
  refine List.ext_getElem? fun j => ?_
  rcases eq_or_ne j k with rfl | hj
  · rw [h.right, List.getElem?_set_self hk]
  · rw [List.getElem?_set_ne hj.symm, h.same j hj]

theorem DifferAt.sum (h : DifferAt e b b' k w w') :
    wordSum e b' + w.toNat = wordSum e b + w'.toNat := by
  rw [← intSum_words, ← intSum_words, h.words_eq]
  exact intSum_set h.left

/-- only the word that was changed tells the sums apart -/
theorem DifferAt.modEq_iff (h : DifferAt e b b' k w w') :
    wordSum e b ≡ wordSum e b' [MOD 65535] ↔ Zeros w w' := by
  have hsum := h.sum
  rw [← zeros_iff h.ne]
  unfold Nat.ModEq
  omega

theorem wordSum_ne_zero_iff : wordSum e b ≠ 0 ↔ ∃ v ∈ words e b, v ≠ 0 := by
  rw [← intSum_words, Ne, intSum_eq_zero_iff]
  push Not
  rfl

/-- the checksums agree when the representatives do -/
theorem inCksum_eq_iff (h : b.length ≤ 131074) (h' : b'.length ≤ 131074) :
    inCksum e b = inCksum e b' ↔ rep 65536 (wordSum e b) = rep 65536 (wordSum e b') := by
  have hle := rep_le (B := 65536) (by omega) (wordSum e b)
  have hle' := rep_le (B := 65536) (by omega) (wordSum e b')
  rw [← UInt16.toNat_inj, inCksum_eq e b h, inCksum_eq e b' h']
  omega

/-- **Which changes of one word the checksum misses.** -/
theorem DifferAt.inCksum_iff (hd : DifferAt e b b' k w w') (h : b.length ≤ 131074)
    (h' : b'.length ≤ 131074) :
    inCksum e b = inCksum e b' ↔
      Zeros w w' ∧ (∃ v ∈ words e b, v ≠ 0) ∧ ∃ v ∈ words e b', v ≠ 0 := by
  have hsum := hd.sum
  have hne : w.toNat ≠ w'.toNat := fun hw => hd.ne (UInt16.toNat_inj.mp hw)
  rw [inCksum_eq_iff h h', rep_eq_iff (B := 65536) (by omega), hd.modEq_iff, ← wordSum_ne_zero_iff,
    ← wordSum_ne_zero_iff, and_comm]
  apply and_congr_right
  intro _
  -- the sums differ, so they are not both 0
  omega

/-- **Any other change of one word is rejected**, by the comparison with 0 and by `udp_check`. -/
theorem inCksum_corrupt (e : Endian) (b b' : List UInt8) (k : Nat) (w w' : UInt16)
    (hlen : b'.length = b.length) (h : b.length ≤ 131074) (hd : DifferAt e b b' k w w')
    (hz : ¬ Zeros w w') :
    inCksum e b ≠ inCksum e b' ∧
    (cksumOk e b = true → cksumOk e b' = false) ∧
    ∀ (p p' q : Nat → UInt8) (len len' : Int), memory p 0 (ipHlen p) = b →
      memory p' 0 (ipHlen p') = b' → udpCheck e p len = .ok q →
      (∃ why, udpCheck e p' len' = .error why) ∧
      (Sized p' len' → udpCheck e p' len' = .error (.errQuit "ip check sum error" [])) := by
  have hne : inCksum e b ≠ inCksum e b' := fun heq =>
    hz ((hd.inCksum_iff h (hlen ▸ h)).mp heq).1
  have hbad : cksumOk e b = true → inCksum e b' ≠ 0 := fun hok h0 =>
    hne ((eq_of_beq hok).trans h0.symm)
  refine ⟨hne, fun hok => beq_false_of_ne (hbad hok), ?_⟩
  rintro p p' q len len' rfl rfl hp
  obtain ⟨-, hok, -⟩ := udpCheck_ok_iff.mp hp
  have hquit : Sized p' len' → udpCheck e p' len' = .error (.errQuit "ip check sum error" []) := by
    intro hs
    rw [hs.udpCheck_eq, if_pos (hbad hok)]
  refine ⟨?_, hquit⟩
  by_cases hs : Sized p' len'
  · exact ⟨_, hquit hs⟩
  · exact not_sized hs

/-- the header of an empty datagram to itself on `127.0.0.1`, in a memory of zeros -/
def loopback (ttl : UInt8) : List UInt8 :=
  [0x45, 0, 0, 28, 0, 0, 0, 0, ttl, 17, 0x7c, 0xcf, 127, 0, 0, 1, 127, 0, 0, 1]

def packet (ttl : UInt8) : Nat → UInt8 := fun k => (loopback ttl).getD k 0

/-- the time to live changed -/
theorem inCksum_corrupt_ttl :
    inCksum .big (loopback 64) ≠ inCksum .big (loopback 63) ∧
    udpCheck .big (packet 63) 28 = .error (.errQuit "ip check sum error" []) := by
  have hd : DifferAt .big (loopback 64) (loopback 63) 4 0x4011 0x3f11 :=
    .of_set rfl (by decide) rfl
  have hok : udpCheck .big (packet 64) 28 = .ok (store (packet 64) 10 (wordBytes .big 0)) :=
    udpCheck_ok_iff.mpr ⟨⟨by decide, by decide, by decide, by decide⟩, by decide, rfl, rfl⟩
  obtain ⟨hne, -, hcheck⟩ := inCksum_corrupt .big (loopback 64) (loopback 63) 4 0x4011 0x3f11 rfl
    (by decide) hd (by unfold Zeros; decide)
  exact ⟨hne, (hcheck (packet 64) (packet 63) _ 28 28 (by decide) (by decide) hok).2
    ⟨by decide, by decide, by decide, by decide⟩⟩

end Unp
