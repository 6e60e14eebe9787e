import NetworkProgram.SockAddr.Impl

/-!
# What the text of an address tells

* `inetNtop_inj`     a dotted quad is that of one address, whatever stands behind it;
* `cstr_portstr`     `portstr` holds every port;
* `memcmp_eq_zero`, `strcmp_eq_zero`   what the comparison finds equal;
* `setPort_setAddr`, `getPort_setPort`, `sockSetWild_eq`   what is stored;
* `ntop_tells`       texts and comparisons side by side.
-/

namespace Unp.SockAddr

variable {x y : InAddr} {p q : UInt16} {s t : List UInt8} {n m : Nat} {e : Endian}

/-! ## dotted quads -/

theorem digits_inj (h : Decimal.digits n = Decimal.digits m) : n = m := by
  rw [← Decimal.value_digits n, ← Decimal.value_digits m, h]

theorem notMem_digits {c : UInt8} (h : Decimal.isDigit c = false) : c ∉ Decimal.digits n :=
  fun hmem => Bool.false_ne_true (h.symm.trans (Decimal.isDigit_of_mem hmem))

/-- a text is cut at the first `c` in one way -/
theorem cut_inj {c : UInt8} {u v : List UInt8} (hu : c ∉ u) (hv : c ∉ v)
    (h : u ++ c :: s = v ++ c :: t) : u = v ∧ s = t := by
  induction u generalizing v with
  | nil =>
    cases v with
    | nil => exact ⟨rfl, (List.cons.inj h).2⟩
    | cons b v => exact absurd ((List.cons.inj h).1 ▸ List.mem_cons_self) hv
  | cons a u ih =>
    cases v with
    | nil => exact absurd ((List.cons.inj h).1 ▸ List.mem_cons_self) hu
    | cons b v =>
      obtain ⟨hab, hrest⟩ := List.cons.inj h
      obtain ⟨huv, hst⟩ := ih (fun hm => hu (List.mem_cons_of_mem _ hm))
        (fun hm => hv (List.mem_cons_of_mem _ hm)) hrest
      exact ⟨by rw [hab, huv], hst⟩

/-- a number that a byte which is no digit follows -/
theorem digits_cons_inj {c : UInt8} (hc : Decimal.isDigit c = false) :
    Decimal.digits n ++ c :: s = Decimal.digits m ++ c :: t ↔ n = m ∧ s = t := by
  constructor
  · intro h
    obtain ⟨hnm, hst⟩ := cut_inj (notMem_digits hc) (notMem_digits hc) h
    exact ⟨digits_inj hnm, hst⟩
  · rintro ⟨rfl, rfl⟩
    rfl

/-- what may stand behind the number: nothing, or a byte that is no digit -/
def Ends (s : List UInt8) : Prop := s = [] ∨ ∃ s', s = 58 :: s'

theorem digits_ends_inj (hs : Ends s) (ht : Ends t) :
    Decimal.digits n ++ s = Decimal.digits m ++ t ↔ n = m ∧ s = t := by
  have hno : ∀ {k l : Nat} {r : List UInt8}, Decimal.digits k ≠ Decimal.digits l ++ 58 :: r :=
    fun heq => notMem_digits (c := 58) rfl (heq ▸ List.mem_append_right _ List.mem_cons_self)
  rcases hs with rfl | ⟨s', rfl⟩
  · rcases ht with rfl | ⟨t', rfl⟩
    · rw [List.append_nil, List.append_nil]
      exact ⟨fun h => ⟨digits_inj h, rfl⟩, fun h => by rw [h.1]⟩
    · rw [List.append_nil]
      exact iff_of_false hno (fun h => absurd h.2 (by simp))
  · rcases ht with rfl | ⟨t', rfl⟩
    · rw [List.append_nil]
      exact iff_of_false (fun h => hno h.symm) (fun h => absurd h.2 (by simp))
    · rw [digits_cons_inj rfl, List.cons_inj_right]

theorem inetNtop_append (x : InAddr) (s : List UInt8) :
    inetNtop x ++ s = Decimal.digits x.a.toNat ++ 46 :: (Decimal.digits x.b.toNat ++ 46 ::
      (Decimal.digits x.c.toNat ++ 46 :: (Decimal.digits x.d.toNat ++ s))) := by
  simp [inetNtop]

/-- **A dotted quad is that of one address.** -/
theorem inetNtop_inj (hs : Ends s) (ht : Ends t) :
    inetNtop x ++ s = inetNtop y ++ t ↔ x = y ∧ s = t := by
  obtain ⟨xa, xb, xc, xd⟩ := x
  obtain ⟨ya, yb, yc, yd⟩ := y
  rw [inetNtop_append, inetNtop_append, digits_cons_inj rfl, digits_cons_inj rfl,
    digits_cons_inj rfl, digits_ends_inj hs ht]
  simp only [UInt8.toNat_inj, InAddr.mk.injEq]
  tauto

theorem digits_byte_length (c : UInt8) : (Decimal.digits c.toNat).length ≤ 3 :=
  Decimal.digits_length (by decide) (Nat.lt_trans c.toNat_lt (by decide))

theorem inetNtop_length (x : InAddr) : (inetNtop x).length ≤ 15 := by
  have ha := digits_byte_length x.a
  have hb := digits_byte_length x.b
  have hc := digits_byte_length x.c
  have hd := digits_byte_length x.d
  simp only [inetNtop, List.length_append, List.length_cons]
  omega

/-! ## ports -/

theorem ntohs_ntohs (e : Endian) (v : UInt16) : ntohs e (ntohs e v) = v := by
  cases e with
  | big => rfl
  | little =>
    have hv := v.toNat_lt
    have hswap : ∀ w : UInt16, (ntohs .little w).toNat = w.toNat % 256 * 256 + w.toNat / 256 := by
      intro w
      show (word .big _ _).toNat = _
      rw [word_big_toNat, toUInt8_shiftRight_toNat, UInt16.toNat_toUInt8]
    refine UInt16.toNat_inj.mp ?_
    rw [hswap, hswap]
    omega

theorem ntohs_inj (h : ntohs e p = ntohs e q) : p = q := by
  rw [← ntohs_ntohs e p, h, ntohs_ntohs]

/-- a 16-bit value in an `int`, as `%d` prints it -/
theorem fmtD_word (v : UInt16) : fmtD (Int32.ofNat v.toNat) = Decimal.digits v.toNat := by
  have hv := v.toNat_lt
  have hint : (Int32.ofNat v.toNat).toInt64.toInt = v.toNat := by
    rw [Int32.toInt_toInt64, Int32.toInt_ofNat_of_lt (by omega)]
  unfold fmtD fmtLd
  rw [hint, if_neg (by omega), Int.natAbs_natCast]

/-- **`portstr` holds every port.** -/
theorem cstr_portstr (e : Endian) (p : UInt16) :
    cstr (portstr e p) = 58 :: Decimal.digits (ntohs e p).toNat := by
  have hv := (ntohs e p).toNat_lt
  have hlen := Decimal.digits_length (k := 5) (by decide) (show (ntohs e p).toNat < 10 ^ 5 by omega)
  have hnul : 0 ∉ 58 :: Decimal.digits (ntohs e p).toNat :=
    List.not_mem_cons_of_ne_of_not_mem (by decide) (notMem_digits rfl)
  unfold portstr snprintf
  rw [fmtD_word, List.take_of_length_le (by rw [List.length_cons]; omega), cstr_append_zero,
    cstr_of_not_mem hnul]

theorem portstr_ends (e : Endian) (p : UInt16) : Ends (cstr (portstr e p)) :=
  Or.inr ⟨_, cstr_portstr e p⟩

theorem portstr_length (e : Endian) (p : UInt16) : (cstr (portstr e p)).length ≤ 6 := by
  have hv := (ntohs e p).toNat_lt
  have hlen := Decimal.digits_length (k := 5) (by decide) (show (ntohs e p).toNat < 10 ^ 5 by omega)
  rw [cstr_portstr, List.length_cons]
  omega

/-- the text behind the dotted quad -/
def behind (e : Endian) (p : UInt16) : List UInt8 :=
  if ntohs e p ≠ 0 then cstr (portstr e p) else []

theorem sockNtop_inet (e : Endian) (p : UInt16) (x : InAddr) (salen : Int32) :
    sockNtop e (.inet p x) salen = inetNtop x ++ behind e p := by
  show (if ntohs e p ≠ 0 then _ else _) = _
  unfold behind
  split
  · rfl
  · exact (List.append_nil _).symm

theorem behind_ends (e : Endian) (p : UInt16) : Ends (behind e p) := by
  unfold behind
  split
  · exact portstr_ends e p
  · exact Or.inl rfl

theorem behind_inj (h : behind e p = behind e q) : p = q := by
  have hcons : ∀ r, cstr (portstr e r) ≠ [] := fun r => by
    rw [cstr_portstr]
    exact List.cons_ne_nil _ _
  refine ntohs_inj (e := e) ?_
  unfold behind at h
  split at h
  · split at h
    · rw [cstr_portstr, cstr_portstr] at h
      exact UInt16.toNat_inj.mp (digits_inj (List.cons.inj h).2)
    · exact absurd h (hcons p)
  · split at h
    · exact absurd h.symm (hcons q)
    · exact (not_not.mp ‹¬ ntohs e p ≠ 0›).trans (not_not.mp ‹¬ ntohs e q ≠ 0›).symm

/-! ## comparing -/

theorem sub_toNat_ne {a b : UInt8} (h : a ≠ b) : (a.toNat : Int) - b.toNat ≠ 0 := fun heq =>
  h (UInt8.toNat_inj.mp (by omega))

theorem memcmp_eq_zero (h : s.length = t.length) : memcmp s t = 0 ↔ s = t := by
  induction s generalizing t with
  | nil =>
    rw [List.length_nil] at h
    rw [List.length_eq_zero_iff.mp h.symm]
    exact iff_of_true rfl rfl
  | cons a s ih =>
    cases t with
    | nil => exact absurd h (by simp)
    | cons b t =>
      show (if a = b then memcmp s t else (a.toNat : Int) - b.toNat) = 0 ↔ _
      split
      · rename_i hab
        rw [ih (by simpa using h), hab, List.cons_inj_right]
      · rename_i hab
        exact iff_of_false (sub_toNat_ne hab) (fun heq => hab (List.cons.inj heq).1)

/-- of strings without NUL -/
theorem strcmp_eq_zero (hs : 0 ∉ s) (ht : 0 ∉ t) : strcmp s t = 0 ↔ s = t := by
  have hpos : ∀ {a : UInt8} {u : List UInt8}, 0 ∉ a :: u → (a.toNat : Int) ≠ 0 := by
    intro a u hu hz
    have ha : a = 0 := UInt8.toNat_inj.mp (by rw [show (0 : UInt8).toNat = 0 from rfl]; omega)
    exact hu (ha ▸ List.mem_cons_self)
  induction s generalizing t with
  | nil =>
    cases t with
    | nil => exact iff_of_true rfl rfl
    | cons b t =>
      have hb := hpos ht
      exact iff_of_false (by show -(b.toNat : Int) ≠ 0; omega) (by simp)
  | cons a s ih =>
    cases t with
    | nil => exact iff_of_false (hpos hs) (by simp)
    | cons b t =>
      show (if a = b then strcmp s t else (a.toNat : Int) - b.toNat) = 0 ↔ _
      split
      · rename_i hab
        have hrest : strcmp s t = 0 ↔ s = t := ih (fun hm => hs (List.mem_cons_of_mem _ hm))
          (fun hm => ht (List.mem_cons_of_mem _ hm))
        rw [hrest, hab, List.cons_inj_right]
      · rename_i hab
        exact iff_of_false (sub_toNat_ne hab) (fun heq => hab (List.cons.inj heq).1)

theorem InAddr.bytes_inj : x.bytes = y.bytes ↔ x = y := by
  obtain ⟨xa, xb, xc, xd⟩ := x
  obtain ⟨ya, yb, yc, yd⟩ := y
  simp [InAddr.bytes]

theorem cmp_inet : sockCmpAddr (.inet p x) (.inet q y) = 0 ↔ x = y :=
  (memcmp_eq_zero (s := x.bytes) (t := y.bytes) rfl).trans InAddr.bytes_inj

theorem SunPath.bytes_inj {P Q : SunPath} : P = Q ↔ P.bytes = Q.bytes := by
  obtain ⟨s, hs, hs'⟩ := P
  obtain ⟨t, ht, ht'⟩ := Q
  simp

theorem cmp_unix {P Q : SunPath} : sockCmpAddr (.unix P) (.unix Q) = 0 ↔ P = Q :=
  (strcmp_eq_zero P.nul Q.nul).trans SunPath.bytes_inj.symm

/-! ## what is stored -/

/-- the `switch` of `sock_set_wild` lets through what that of `sock_set_addr` does -/
theorem sockSetWild_eq (sa : Sockaddr) : sockSetWild sa = sockSetAddr sa in4addrAny := by
  cases sa <;> rfl

/-- the two stores leave each other's field -/
theorem setPort_setAddr (sa : Sockaddr) (port : Int) (addr : InAddr) :
    sockSetPort (sockSetAddr sa addr) port = sockSetAddr (sockSetPort sa port) addr := by
  cases sa <;> rfl

theorem getPort_setWild (sa : Sockaddr) : sockGetPort (sockSetWild sa) = sockGetPort sa := by
  cases sa <;> rfl

/-- the port that is read back has lost what does not fit into `sin_port` -/
theorem getPort_setPort (port : Int) :
    sockGetPort (sockSetPort (.inet p x) port) = port % 2 ^ 16 := by
  show ((UInt16.ofInt port).toNat : Int) = port % 2 ^ 16
  have hnonneg : 0 ≤ port % 2 ^ 16 := Int.emod_nonneg port (by decide)
  have hlt : port % 2 ^ 16 < 2 ^ 16 := Int.emod_lt_of_pos port (by decide)
  have hfits : (port % 2 ^ 16).toNat < 2 ^ 16 := by omega
  have hstored : (UInt16.ofInt port).toNat = (port % 2 ^ 16).toNat :=
    UInt16.toNat_ofNat_of_lt' hfits
  rw [hstored, Int.toNat_of_nonneg hnonneg]

/-! ## texts and addresses -/

/-- `P` has no name, and `Q` has the name that is printed then -/
def Unnamed (P Q : SunPath) : Prop := P.bytes = [] ∧ Q.bytes = noPathname

theorem pathText_eq (P : SunPath) :
    pathText P = if P.bytes = [] then noPathname else P.bytes := by
  have hfits := P.fits
  unfold pathText snprintf sizeofStr
  rw [List.take_of_length_le (by omega), cstr_append_zero, cstr_of_not_mem P.nul]

theorem pathText_iff {P Q : SunPath} :
    pathText P = pathText Q ↔ P = Q ∨ Unnamed P Q ∨ Unnamed Q P := by
  rw [pathText_eq, pathText_eq, SunPath.bytes_inj]
  unfold Unnamed
  by_cases hP : P.bytes = []
  · by_cases hQ : Q.bytes = []
    · simp [hP, hQ]
    · rw [if_pos hP, if_neg hQ, hP]
      simp [hQ, eq_comm]
  · by_cases hQ : Q.bytes = []
    · rw [if_neg hP, if_pos hQ, hQ]
      simp [hP, eq_comm]
    · rw [if_neg hP, if_neg hQ]
      simp [hP, hQ]

theorem unknown_length (text : List UInt8) (family : UInt16) (salen : Int32) :
    (unknown text family salen).length < sizeofStr := by
  have hle := cstr_length_le ((text ++ fmtD (Int32.ofNat family.toNat) ++ lenText ++ fmtD salen).take
    (sizeofStr - 1))
  have htake := List.length_take_le (sizeofStr - 1)
    (text ++ fmtD (Int32.ofNat family.toNat) ++ lenText ++ fmtD salen)
  unfold unknown snprintf
  rw [cstr_append_zero]
  have hsize : sizeofStr = 128 := rfl
  omega

theorem sockNtop_length (e : Endian) (sa : Sockaddr) (salen : Int32) :
    (sockNtop e sa salen).length < sizeofStr := by
  have hsize : sizeofStr = 128 := rfl
  cases sa with
  | inet p x =>
    have hx := inetNtop_length x
    have hp := portstr_length e p
    rw [sockNtop_inet, List.length_append]
    unfold behind
    split
    · omega
    · rw [List.length_nil]
      omega
  | unix P =>
    have hfits := P.fits
    show (pathText P).length < sizeofStr
    rw [pathText_eq]
    split
    · decide
    · omega
  | other family ne => exact unknown_length unknownAf family salen

theorem sockNtopHost_length (sa : Sockaddr) (salen : Int32) :
    (sockNtopHost sa salen).length < sizeofStr := by
  have hsize : sizeofStr = 128 := rfl
  cases sa with
  | inet p x =>
    have hx := inetNtop_length x
    show (inetNtop x).length < sizeofStr
    omega
  | unix P => exact sockNtop_length .big (.unix P) salen
  | other family ne => exact unknown_length unknownAfHost family salen

/-- **What the text of an address tells.**  Two Internet addresses have the same `sock_ntop` exactly
if address and port agree, and the same `sock_ntop_host` exactly if `sock_cmp_addr` finds no
difference.  Two paths have the same text from either function exactly if they are one path, or one
is empty and the other spells what is printed for it.  Every text of both fits into `str`, and changing
the port changes no host. -/
theorem ntop_tells (e : Endian) :
    (∀ p x q y salen salen', sockNtop e (.inet p x) salen = sockNtop e (.inet q y) salen' ↔
      p = q ∧ x = y) ∧
    (∀ p x q y salen salen', sockNtopHost (.inet p x) salen = sockNtopHost (.inet q y) salen' ↔
      sockCmpAddr (.inet p x) (.inet q y) = 0) ∧
    (∀ P Q salen salen', sockNtop e (.unix P) salen = sockNtop e (.unix Q) salen' ↔
      sockCmpAddr (.unix P) (.unix Q) = 0 ∨ Unnamed P Q ∨ Unnamed Q P) ∧
    (∀ P Q salen salen', sockNtopHost (.unix P) salen = sockNtopHost (.unix Q) salen' ↔
      sockCmpAddr (.unix P) (.unix Q) = 0 ∨ Unnamed P Q ∨ Unnamed Q P) ∧
    (∀ sa salen, (sockNtop e sa salen).length < sizeofStr ∧
      (sockNtopHost sa salen).length < sizeofStr) ∧
    ∀ sa port salen, sockNtopHost (sockSetPort sa port) salen = sockNtopHost sa salen := by
  refine ⟨fun p x q y _ _ => ?_, fun p x q y _ _ => ?_, fun P Q _ _ => ?_, fun P Q _ _ => ?_,
    fun sa salen => ⟨sockNtop_length e sa salen, sockNtopHost_length sa salen⟩,
    fun sa port salen => ?_⟩
  · rw [sockNtop_inet, sockNtop_inet, inetNtop_inj (behind_ends e p) (behind_ends e q)]
    constructor
    · rintro ⟨hxy, hpq⟩
      exact ⟨behind_inj hpq, hxy⟩
    · rintro ⟨rfl, rfl⟩
      exact ⟨rfl, rfl⟩
  · have hinj := inetNtop_inj (x := x) (y := y) (Or.inl rfl) (Or.inl rfl)
    rw [List.append_nil, List.append_nil] at hinj
    rw [cmp_inet]
    exact hinj.trans (and_iff_left rfl)
  · rw [cmp_unix]
    exact pathText_iff
  · rw [cmp_unix]
    exact pathText_iff
  · cases sa <;> rfl

end Unp.SockAddr
