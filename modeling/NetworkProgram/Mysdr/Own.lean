import NetworkProgram.Mysdr.Impl
import Mathlib.Data.List.GetD

/-!
# What the listener prints of a datagram

The NUL behind the datagram ends the text if the text begins in the datagram or at the NUL.  The
authentication length moves its beginning and is not compared with what was received, and the 16
bytes skipped after `application/sdp` are one too many where its NUL is that one.

* `printed_within`    of a `Covered` datagram only its own bytes are looked at;
* `stale_text`        of the others, what an earlier one has left in `buf` is printed;
* `printed_own_iff`   so these are the ones that are printed wrongly.
-/

namespace Unp.Mysdr
open Peek

/-- the header as it is received, with the NUL for a byte that is not -/
def header (d : Datagram) : UInt32 := ntohl (d.bytes ++ [0])

/-- where the payload begins -/
def payload (d : Datagram) : Nat := sapData + (authlen (header d)).toNat

/-- what is printed of `d` is the same after all datagrams, and comes from `d` and the NUL behind it -/
structure Own (e : Endian) (beyond : Nat) (d : Datagram) : Prop where
  same : ∀ m h₁ h₂, (printed beyond).run (received (after e m h₁) d) =
    (printed beyond).run (received (after e m h₂) d)
  within : ∀ m h, Within (· ≤ d.bytes.length) (received (after e m h) d) (printed beyond)

/-- the header is received, and the packet is rejected or its text begins in it -/
def Covered (d : Datagram) : Prop :=
  3 ≤ d.bytes.length ∧ (rejection (header d) ≠ none ∨
    payload d ≤ d.bytes.length ∧ d.bytes.drop (payload d) ≠ applicationSdp)

instance (d : Datagram) : Decidable (Covered d) := inferInstanceAs (Decidable (_ ∧ _))

variable {e : Endian} {beyond : Nat} {d : Datagram} {m m' : Nat → UInt8} {i p n left : Nat}
  {s l : List UInt8} {c : UInt8}

/-! ## the memory with a datagram -/

theorem received_own (h : i ≤ d.bytes.length) :
    received m d i = (d.bytes ++ [0]).getD i 0 := by
  unfold received
  rcases Nat.lt_or_eq_of_le h with hlt | rfl
  · rw [if_pos hlt, List.getD_append _ _ _ _ hlt]
  · rw [if_neg (Nat.lt_irrefl _), if_pos rfl, List.getD_append_right _ _ _ _ (Nat.le_refl _),
      Nat.sub_self]
    rfl

theorem received_end : received m d d.bytes.length = 0 := by
  unfold received
  rw [if_neg (Nat.lt_irrefl _), if_pos rfl]

theorem received_beyond (h : d.bytes.length < i) : received m d i = m i := by
  unfold received
  rw [if_neg (Nat.lt_asymm h), if_neg (Nat.ne_of_gt h)]

theorem header_received (h : 3 ≤ d.bytes.length) :
    ntohl ([0, 1, 2, 3].map (received m d)) = header d := by
  simp only [List.map_cons, List.map_nil]
  rw [received_own (i := 0) (by omega), received_own (i := 1) (by omega),
    received_own (i := 2) (by omega), received_own (i := 3) (by omega)]
  rfl

theorem received_drop (h : p ≤ d.bytes.length) :
    ∀ j ≤ (d.bytes.drop p).length, received m d (p + j) = (d.bytes.drop p ++ [0]).getD j 0 := by
  intro j hj
  rw [List.length_drop] at hj
  rw [received_own (by omega), ← List.drop_append_of_le_length h, List.getD_eq_getElem?_getD,
    List.getD_eq_getElem?_getD, List.getElem?_drop]

/-! ## strings that end in a datagram -/

theorem str_within (hp : p ≤ n) (hn : m n = 0) (left : Nat) : Within (· ≤ n) m (str left p) := by
  induction left generalizing p with
  | zero => exact within_pure _
  | succ left ih =>
    unfold str
    rw [within_bind, within_cell, run_cell]
    refine ⟨hp, within_ite (fun _ => within_pure _) fun hc => ?_⟩
    have hne : p ≠ n := fun h => hc (h ▸ hn)
    rw [within_bind]
    exact ⟨ih (Nat.lt_of_le_of_ne hp hne), within_pure _⟩

theorem streq_within (hs : 0 ∉ s) (hp : p ≤ n) (hn : m n = 0) :
    Within (· ≤ n) m (streq p s) := by
  induction s generalizing p with
  | nil =>
    unfold streq
    rw [within_bind, within_cell]
    exact ⟨hp, within_pure _⟩
  | cons x s ih =>
    unfold streq
    rw [within_bind, within_cell, run_cell]
    refine ⟨hp, within_ite (fun hc => ?_) fun _ => within_pure _⟩
    have hne : p ≠ n := by
      rintro rfl
      exact hs (by rw [← hn, hc]; exact List.mem_cons_self ..)
    exact ih (fun h => hs (List.mem_cons_of_mem _ h)) (Nat.lt_of_le_of_ne hp hne)

/-- the bytes at `p` are those of `l`, and a NUL -/
theorem streq_run (hs : 0 ∉ s) (hm : ∀ j ≤ l.length, m (p + j) = (l ++ [0]).getD j 0) :
    (streq p s).run m = true ↔ ∃ rest, l ++ [0] = s ++ 0 :: rest := by
  have h0 : m p = (l ++ [0]).getD 0 0 := hm 0 (Nat.zero_le _)
  induction s generalizing p l with
  | nil =>
    unfold streq
    rw [run_bind, run_cell, run_pure, beq_iff_eq, h0]
    cases l with
    | nil => exact iff_of_true rfl ⟨[], rfl⟩
    | cons y l =>
      constructor
      · intro hy
        obtain rfl : y = 0 := hy
        exact ⟨l ++ [0], rfl⟩
      · rintro ⟨rest, hrest⟩
        exact (List.cons.inj hrest).1
  | cons x s ih =>
    unfold streq
    rw [run_bind, run_cell, run_ite, run_pure, h0]
    cases l with
    | nil =>
      have hx : (0 : UInt8) ≠ x := fun h => hs (h ▸ List.mem_cons_self ..)
      rw [List.nil_append, List.getD_cons_zero, if_neg hx]
      refine iff_of_false Bool.false_ne_true ?_
      rintro ⟨rest, hrest⟩
      exact hx (List.cons.inj hrest).1
    | cons y l =>
      have hm' : ∀ j ≤ l.length, m (p + 1 + j) = (l ++ [0]).getD j 0 := by
        intro j hj
        rw [Nat.add_right_comm, Nat.add_assoc]
        exact hm (j + 1) (Nat.succ_le_succ hj)
      rw [List.cons_append, List.getD_cons_zero]
      by_cases hy : y = x
      · rw [if_pos hy, hy]
        refine (ih (fun h => hs (List.mem_cons_of_mem _ h)) hm' (hm' 0 (Nat.zero_le _))).trans ?_
        simp only [List.cons_append, List.cons.injEq, true_and]
      · rw [if_neg hy]
        refine iff_of_false Bool.false_ne_true ?_
        rintro ⟨rest, hrest⟩
        exact hy (List.cons.inj hrest).1

theorem zero_notMem_applicationSdp : 0 ∉ applicationSdp := by decide

/-- the name has its NUL in the datagram, or the datagram ends with the name -/
theorem streq_received (h : p ≤ d.bytes.length)
    (heq : (streq p applicationSdp).run (received m d) = true) :
    p + 16 ≤ d.bytes.length ∨ d.bytes.drop p = applicationSdp := by
  obtain ⟨rest, hrest⟩ := (streq_run zero_notMem_applicationSdp (received_drop h)).mp heq
  have hlen := congrArg List.length hrest
  have hname : applicationSdp.length = 15 := rfl
  rw [List.length_append, List.length_append, List.length_drop, List.length_singleton,
    List.length_cons, hname] at hlen
  cases rest with
  | nil => exact Or.inr (List.append_cancel_right hrest)
  | cons x rest =>
    rw [List.length_cons] at hlen
    exact Or.inl (by omega)

/-! ## datagrams that are covered -/

theorem text_within (hp : p ≤ d.bytes.length) (hname : d.bytes.drop p ≠ applicationSdp) :
    Within (· ≤ d.bytes.length) (received m d) (text beyond p) := by
  unfold text
  rw [within_bind]
  refine ⟨streq_within zero_notMem_applicationSdp hp received_end, str_within ?_ received_end _⟩
  split
  · exact (streq_received hp ‹_›).resolve_right hname
  · exact hp

theorem printed_within (h : Covered d) :
    Within (· ≤ d.bytes.length) (received m d) (printed beyond) := by
  obtain ⟨hn, hrest⟩ := h
  unfold printed
  rw [within_bind, within_cellsOf, run_cellsOf, header_received hn]
  refine ⟨fun i hi => ?_, ?_⟩
  · have hi4 : i < 4 := by
      revert i
      decide
    omega
  dsimp only
  cases hrej : rejection (header d) with
  | some message => exact within_pure _
  | none =>
    obtain ⟨hpay, hname⟩ := hrest.resolve_left (not_not.mpr hrej)
    dsimp only
    rw [within_bind]
    exact ⟨text_within hpay hname, within_pure _⟩

theorem own_of_covered (h : Covered d) : Own e beyond d :=
  ⟨fun _ _ _ => (printed_within h).run_eq (fun _ hi => (received_own hi).trans (received_own hi).symm),
    fun _ _ => printed_within h⟩

/-! ## datagrams that are not -/

def fill (c : UInt8) : Datagram := ⟨List.replicate 300 c, by rw [List.length_replicate]; decide⟩

/-- `A` or `B` -/
def Letter (c : UInt8) : Prop := c = 65 ∨ c = 66

def printedAfter (e : Endian) (beyond : Nat) (c : UInt8) (d : Datagram) : List Line :=
  (printed beyond).run (received (after e (fun _ => 0) [fill c]) d)

/-- a header of four equal letters is the same in both orders -/
theorem header_fill (hc : Letter c) :
    word32Bytes e (ntohl [c, c, c, c]) = [c, c, c, c] := by
  rcases hc with rfl | rfl <;> cases e <;> rfl

theorem after_fill (hc : Letter c) (hi : i < 300) : after e m [fill c] i = c := by
  have hget : ∀ j < 300, received m (fill c) j = c := by
    intro j hj
    have hlen : j < (fill c).bytes.length := Nat.lt_of_lt_of_eq hj List.length_replicate.symm
    unfold received
    rw [if_pos hlen, List.getD_eq_getElem _ _ hlen]
    exact List.getElem_replicate hlen
  show swapped e (received m (fill c)) i = c
  unfold swapped
  split
  · simp only [List.map_cons, List.map_nil]
    rw [hget 0 (by decide), hget 1 (by decide), hget 2 (by decide), hget 3 (by decide),
      header_fill hc]
    have hlen : i < (List.replicate 4 c).length := by rwa [List.length_replicate]
    exact (List.getD_eq_getElem _ _ hlen).trans (List.getElem_replicate hlen)
  · exact hget i hi

theorem stale (hc : Letter c) (hn : d.bytes.length < i) (hi : i < 300) :
    received (after e m [fill c]) d i = c := (received_beyond hn).trans (after_fill hc hi)

theorem hash_mod (b0 b1 b2 b3 : UInt8) :
    (ntohl [b0, b1, b2, b3] &&& SAP_HASH_MASK).toNat % 256 = b3.toNat := by
  have h3 := b3.toNat_lt
  have hmask : SAP_HASH_MASK.toNat = 2 ^ 16 - 1 := rfl
  have hval : ntohl [b0, b1, b2, b3] = word32 .big (word .big b0 b1) (word .big b2 b3) := rfl
  rw [UInt32.toNat_and, hmask, Nat.and_two_pow_sub_one_eq_mod, hval, word32_big_toNat,
    word_big_toNat, word_big_toNat]
  omega

/-- the last byte of the hash is one of an earlier datagram -/
theorem stale_hash (e : Endian) (beyond : Nat) (hc : Letter c) (hn : d.bytes.length < 3) : ∃ hash lines,
    printedAfter e beyond c d = .printf "From %s hash 0x%04x\n" [hash] :: lines ∧
    hash.toNat % 256 = c.toNat := by
  unfold printedAfter printed
  rw [run_bind, run_cellsOf]
  simp only [List.map_cons, List.map_nil]
  rw [stale hc hn (by decide)]
  split
  · exact ⟨_, _, rfl, hash_mod ..⟩
  · rw [run_bind, run_pure]
    exact ⟨_, _, rfl, hash_mod ..⟩

theorem str_head (hleft : 0 < left) (hp : m p = c) (hc : c ≠ 0) :
    ((str left p).run m).head? = some c := by
  obtain ⟨left, rfl⟩ := Nat.exists_eq_succ_of_ne_zero (Nat.ne_of_gt hleft)
  unfold str
  rw [run_bind, run_cell, run_ite, hp, if_neg hc, run_bind, run_pure]
  rfl

def textAt (m : Nat → UInt8) (d : Datagram) : Nat :=
  if (streq (payload d) applicationSdp).run m then payload d + 16 else payload d

theorem printed_run (hn : 3 ≤ d.bytes.length) (hrej : rejection (header d) = none) :
    (printed beyond).run (received m d) =
      [.printf "From %s hash 0x%04x\n" [header d &&& SAP_HASH_MASK],
        .text ((text beyond (payload d)).run (received m d))] := by
  unfold printed
  rw [run_bind, run_cellsOf, header_received hn]
  dsimp only
  rw [hrej]
  dsimp only
  rw [run_bind, run_pure]
  rfl

theorem text_run : (text beyond (payload d)).run m =
    (str (sizeofBuf + beyond - textAt m d) (textAt m d)).run m := by
  unfold text textAt
  rw [run_bind]

theorem payload_le (d : Datagram) : payload d ≤ 263 := by
  have hand : (header d &&& SAP_AUTHLEN_MASK).toNat ≤ 0xff0000 := by
    rw [UInt32.toNat_and]
    exact Nat.and_le_right
  have hlen : (authlen (header d)).toNat = (header d &&& SAP_AUTHLEN_MASK).toNat / 65536 := by
    unfold authlen
    rw [UInt32.toNat_shiftRight, Nat.shiftRight_eq_div_pow]
    rfl
  unfold payload sapData
  omega

theorem textAt_beyond (hc : Letter c)
    (h : payload d ≤ d.bytes.length → d.bytes.drop (payload d) = applicationSdp) :
    d.bytes.length < textAt (received (after e m [fill c]) d) d ∧
      textAt (received (after e m [fill c]) d) d < 300 := by
  have hle := payload_le d
  unfold textAt
  by_cases hin : payload d ≤ d.bytes.length
  · have hlen := congrArg List.length (h hin)
    have hname : applicationSdp.length = 15 := rfl
    rw [List.length_drop, hname] at hlen
    rw [if_pos ((streq_run zero_notMem_applicationSdp (received_drop hin)).mpr ⟨[], by rw [h hin]⟩)]
    omega
  · have hne : c ≠ 97 := by rcases hc with rfl | rfl <;> decide
    have hfalse : (streq (payload d) applicationSdp).run (received (after e m [fill c]) d) = false := by
      unfold applicationSdp streq
      rw [run_bind, run_cell, run_ite, stale hc (Nat.lt_of_not_le hin) (by omega), if_neg hne,
        run_pure]
    rw [hfalse, if_neg Bool.false_ne_true]
    omega

/-- **The text is one of an earlier datagram.** -/
theorem stale_text (e : Endian) (beyond : Nat) (hc : Letter c) (hn : 3 ≤ d.bytes.length) (hrej : rejection (header d) = none)
    (h : payload d ≤ d.bytes.length → d.bytes.drop (payload d) = applicationSdp) : ∃ hash s,
    printedAfter e beyond c d = [hash, .text s] ∧ s.head? = some c := by
  obtain ⟨hout, hlt⟩ := textAt_beyond (e := e) (m := fun _ => 0) hc h
  have hbuf : sizeofBuf = 8200 := rfl
  have hc0 : c ≠ 0 := by rcases hc with rfl | rfl <;> decide
  unfold printedAfter
  rw [printed_run hn hrej, text_run]
  exact ⟨_, _, rfl, str_head (by omega) (stale hc hout hlt) hc0⟩

theorem covered_of_own (h : Own e beyond d) : Covered d := by
  have hsame : printedAfter e beyond 65 d = printedAfter e beyond 66 d :=
    h.same (fun _ => 0) [fill 65] [fill 66]
  by_contra hcov
  by_cases hn : 3 ≤ d.bytes.length
  · have hrej : rejection (header d) = none := by
      by_contra hrej
      exact hcov ⟨hn, Or.inl hrej⟩
    have hpay : payload d ≤ d.bytes.length → d.bytes.drop (payload d) = applicationSdp := by
      intro hin
      by_contra hname
      exact hcov ⟨hn, Or.inr ⟨hin, hname⟩⟩
    obtain ⟨hashA, sA, hA, hheadA⟩ := stale_text e beyond (Or.inl rfl) hn hrej hpay
    obtain ⟨hashB, sB, hB, hheadB⟩ := stale_text e beyond (Or.inr rfl) hn hrej hpay
    rw [hA, hB] at hsame
    obtain rfl : sA = sB := by simpa using (List.cons.inj hsame).2
    rw [hheadA] at hheadB
    exact absurd hheadB (by decide)
  · obtain ⟨hashA, linesA, hA, hmodA⟩ :=
      stale_hash e beyond (Or.inl rfl) (Nat.lt_of_not_le hn)
    obtain ⟨hashB, linesB, hB, hmodB⟩ :=
      stale_hash e beyond (Or.inr rfl) (Nat.lt_of_not_le hn)
    rw [hA, hB] at hsame
    obtain rfl : hashA = hashB := by simpa using (List.cons.inj hsame).1
    rw [hmodA] at hmodB
    exact absurd hmodB (by decide)

/-- **A datagram is printed rightly exactly if it is covered.** -/
theorem printed_own_iff (e : Endian) (beyond : Nat) (d : Datagram) : Own e beyond d ↔ Covered d :=
  ⟨covered_of_own, own_of_covered⟩

/-- a packet of 8 bytes that claims 255 bytes of authentication -/
def longAuth : Datagram := ⟨[0x20, 0xff, 0, 7, 192, 0, 2, 1], by decide⟩

theorem not_own : ¬ ∀ (e : Endian) (beyond : Nat) (d : Datagram), Own e beyond d :=
  fun h => absurd (covered_of_own (h .little 0 longAuth)) (by decide)

end Unp.Mysdr
