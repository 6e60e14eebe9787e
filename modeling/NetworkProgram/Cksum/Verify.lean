import Mathlib.Data.List.GetD
import NetworkProgram.Lib.EndAround
import NetworkProgram.Cksum.Impl

/-!
# A stored checksum verifies

`inCksum_eq`: below 131075 bytes the accumulator does not wrap and two folds suffice, so
`in_cksum` is the complement of the one's complement representative of the word sum.  From there
`inCksum_store`: the value of a zero field replaced by the checksum makes the checksum `0`, and
`stored_cksum_verifies` says so of the field stores of `send_v4` and `udp_write`.
-/

namespace Unp
open EndAround

/-! ## words -/

/-- the sum of the 16-bit words of `b`, an odd last byte padded with a zero byte -/
def wordSum (e : Endian) : List UInt8 → Nat
  | b0 :: b1 :: w => (word e b0 b1).toNat + wordSum e w
  | [b] => (word e b 0).toNat
  | [] => 0

theorem wordSum_cons (e : Endian) (b0 b1 : UInt8) (w : List UInt8) :
    wordSum e (b0 :: b1 :: w) = (word e b0 b1).toNat + wordSum e w := rfl

theorem wordSum_le (e : Endian) (b : List UInt8) : wordSum e b ≤ 65535 * ((b.length + 1) / 2) := by
  fun_induction wordSum e b with
  | case1 b0 b1 w ih =>
    have hw := (word e b0 b1).toNat_lt
    have hl : ((b0 :: b1 :: w).length + 1) / 2 = (w.length + 1) / 2 + 1 := by
      simp only [List.length_cons]; omega
    rw [hl]
    omega
  | case2 b =>
    have hw := (word e b 0).toNat_lt
    have hl : ([b].length + 1) / 2 = 1 := by simp
    rw [hl]
    omega
  | case3 => exact Nat.zero_le _

/-- words do not straddle an even offset -/
theorem wordSum_append (e : Endian) (a b : List UInt8) (h : a.length % 2 = 0) :
    wordSum e (a ++ b) = wordSum e a + wordSum e b := by
  fun_induction wordSum e a with
  | case1 b0 b1 w ih =>
    have hw : w.length % 2 = 0 := by simp only [List.length_cons] at h; omega
    rw [List.cons_append, List.cons_append, wordSum_cons, ih hw]
    omega
  | case2 b => simp at h
  | case3 => rw [List.nil_append, Nat.zero_add]

/-! ## the accumulator -/

/-- the loop and the odd byte add up the words, as long as the sum fits in 32 bits -/
theorem addWords_toNat (e : Endian) (b : List UInt8) (sum : UInt32)
    (h : sum.toNat + wordSum e b < 2^32) :
    (addOdd e (addWords e sum b).1 (addWords e sum b).2).toNat = sum.toNat + wordSum e b := by
  fun_induction addWords e sum b with
  | case1 sum b0 b1 w ih =>
    rw [wordSum_cons] at h ⊢
    have hadd : (sum + (word e b0 b1).toUInt32).toNat = sum.toNat + (word e b0 b1).toNat := by
      rw [UInt32.toNat_add, UInt16.toNat_toUInt32, Nat.mod_eq_of_lt (by omega)]
    rw [ih (by omega), hadd, Nat.add_assoc]
  | case2 sum w hw =>
    match w, hw with
    | [], _ => rfl
    | [c], _ =>
      show (sum + (word e c 0).toUInt32).toNat = sum.toNat + (word e c 0).toNat
      have h' : sum.toNat + (word e c 0).toNat < 2^32 := h
      rw [UInt32.toNat_add, UInt16.toNat_toUInt32, Nat.mod_eq_of_lt h']
    | b0 :: b1 :: w, hw => exact absurd rfl (hw b0 b1 w)

/-- the two folds of the source, on a 32-bit sum -/
theorem folds_toNat (sum : UInt32) :
    let t := (sum >>> 16) + (sum &&& 0xffff)
    (~~~ (t + (t >>> 16))).toUInt16.toNat = 65535 - rep 65536 sum.toNat := by
  intro t
  have hsum := sum.toNat_lt
  have ht : t.toNat = fold 65536 sum.toNat := by
    have hand : (sum &&& 0xffff).toNat = sum.toNat % 65536 := by
      rw [UInt32.toNat_and]
      exact Nat.and_two_pow_sub_one_eq_mod sum.toNat 16
    have hshr : (sum >>> 16).toNat = sum.toNat / 65536 := by
      rw [UInt32.toNat_shiftRight]
      exact Nat.shiftRight_eq_div_pow _ _
    show ((sum >>> 16) + (sum &&& 0xffff)).toNat = _
    rw [UInt32.toNat_add, hand, hshr, Nat.mod_eq_of_lt (by omega)]
    rfl
  have hfold : fold 65536 sum.toNat ≤ 2 * 65535 := fold_le (by omega) (by omega)
  have hshr : (t >>> 16).toNat = t.toNat / 65536 := by
    rw [UInt32.toNat_shiftRight]
    exact Nat.shiftRight_eq_div_pow _ _
  have hcarry : (t.toNat + t.toNat / 65536) % 65536 = rep 65536 sum.toNat := by
    rw [ht, carry_mod (by omega) hfold]
    exact fold_fold_eq_rep (by omega) (by omega)
  have hrep := rep_le (B := 65536) (by omega) sum.toNat
  have hnowrap : (t.toNat + t.toNat / 65536) % 2^32 = t.toNat + t.toNat / 65536 := by
    rw [Nat.mod_eq_of_lt (by rw [ht]; omega)]
  rw [UInt32.toNat_toUInt16, UInt32.toNat_not, UInt32.toNat_add, hshr, hnowrap]
  rw [← hcarry] at hrep ⊢
  show (4294967296 - 1 - (t.toNat + t.toNat / 65536)) % 65536 = _
  omega

/-- **`in_cksum` is the complement of the one's complement sum.** -/
theorem inCksum_eq (e : Endian) (b : List UInt8) (h : b.length ≤ 131074) :
    (inCksum e b).toNat = 65535 - rep 65536 (wordSum e b) := by
  have hle := wordSum_le e b
  have hsum := addWords_toNat e b 0 (by rw [UInt32.toNat_zero]; omega)
  rw [UInt32.toNat_zero, Nat.zero_add] at hsum
  rw [← hsum]
  exact folds_toNat _

theorem inCksum_eq_zero_iff (e : Endian) (b : List UInt8) (h : b.length ≤ 131074) :
    inCksum e b = 0 ↔ rep 65536 (wordSum e b) = 65535 := by
  have hle := rep_le (B := 65536) (by omega) (wordSum e b)
  rw [← UInt16.toNat_inj, inCksum_eq e b h]
  show 65535 - rep 65536 (wordSum e b) = 0 ↔ _
  omega

/-! ## a stored word -/

theorem store16_length {e : Endian} {b : List UInt8} {off : Nat} {v : UInt16}
    (h : off + 2 ≤ b.length) : (store16 e b off v).length = b.length :=
  Mem.poke_length (by rw [wordBytes_length]; exact h)

theorem drop_two {b : List UInt8} {off : Nat} (h : off + 2 ≤ b.length) :
    b.drop off = b.getD off 0 :: b.getD (off + 1) 0 :: b.drop (off + 2) := by
  rw [List.drop_eq_getElem_cons (show off < b.length by omega),
    List.drop_eq_getElem_cons (show off + 1 < b.length by omega),
    List.getD_eq_getElem _ _ (show off < b.length by omega),
    List.getD_eq_getElem _ _ (show off + 1 < b.length by omega)]

/-- a store at an even offset replaces one word of the sum -/
theorem wordSum_store (e : Endian) (b : List UInt8) (off : Nat) (v : UInt16) (heven : off % 2 = 0)
    (h : off + 2 ≤ b.length) :
    wordSum e (store16 e b off v) + (load16 e b off).toNat = wordSum e b + v.toNat := by
  have htake : (b.take off).length % 2 = 0 := by
    rw [List.length_take, Nat.min_eq_left (by omega)]
    exact heven
  obtain ⟨v0, v1, hv, hword⟩ := word_wordBytes e v
  have hb : wordSum e b = wordSum e (b.take off) +
      ((load16 e b off).toNat + wordSum e (b.drop (off + 2))) := by
    conv_lhs => rw [← List.take_append_drop off b, drop_two h]
    rw [wordSum_append e _ _ htake]
    rfl
  have hs : wordSum e (store16 e b off v) = wordSum e (b.take off) +
      (v.toNat + wordSum e (b.drop (off + 2))) := by
    unfold store16 Mem.poke
    rw [wordBytes_length, hv, List.append_assoc, wordSum_append e _ _ htake]
    show _ + ((word e v0 v1).toNat + wordSum e (b.drop (off + 2))) = _
    rw [hword]
  omega

/-- the checksum of a buffer with a zero field, stored into the field, verifies -/
theorem inCksum_store (e : Endian) (b : List UInt8) (off : Nat) (hlen : b.length ≤ 131074)
    (heven : off % 2 = 0) (h : off + 2 ≤ b.length) (hzero : load16 e b off = 0) :
    inCksum e (store16 e b off (inCksum e b)) = 0 := by
  rw [inCksum_eq_zero_iff e _ (by rw [store16_length h]; exact hlen)]
  have hs := wordSum_store e b off (inCksum e b) heven h
  rw [hzero, UInt16.toNat_zero, Nat.add_zero, inCksum_eq e b hlen] at hs
  rw [hs]
  exact rep_complement (by omega) _

/-- the other zero of one's complement, stored where the checksum is `0`, verifies too -/
theorem inCksum_store_ffff (e : Endian) (b : List UInt8) (off : Nat) (hlen : b.length ≤ 131074)
    (heven : off % 2 = 0) (h : off + 2 ≤ b.length) (hzero : load16 e b off = 0)
    (hc : inCksum e b = 0) : inCksum e (store16 e b off 0xffff) = 0 := by
  rw [inCksum_eq_zero_iff e _ (by rw [store16_length h]; exact hlen)]
  have hs := wordSum_store e b off 0xffff heven h
  rw [hzero, UInt16.toNat_zero, Nat.add_zero] at hs
  rw [hs]
  exact rep_add_full (by omega) ((inCksum_eq_zero_iff e b hlen).mp hc)

theorem load16_store16 (e : Endian) (b : List UInt8) (off : Nat) (v : UInt16)
    (h : off + 2 ≤ b.length) : load16 e (store16 e b off v) off = v := by
  obtain ⟨v0, v1, hv, hword⟩ := word_wordBytes e v
  have ht : (b.take off).length = off := by rw [List.length_take]; omega
  have hd : (store16 e b off v).drop off = v0 :: v1 :: b.drop (off + 2) := by
    unfold store16 Mem.poke
    rw [wordBytes_length, hv, List.append_assoc, List.drop_left' ht]
    rfl
  have h2 : (store16 e b off v).drop off = _ := drop_two (by rw [store16_length h]; exact h)
  rw [hd, List.cons.injEq, List.cons.injEq] at h2
  obtain ⟨h0, h1, _⟩ := h2
  show word e _ _ = v
  rw [← h0, ← h1, hword]

/-- the two bytes at `off` of a buffer of length `n` are zero -/
structure ZeroField (n off : Nat) (b : List UInt8) : Prop where
  length : b.length = n
  fst : b.getD off 0 = 0
  snd : b.getD (off + 1) 0 = 0

/-- a store beside the field -/
theorem ZeroField.poke {n off : Nat} {b : List UInt8} (hz : ZeroField n off b) (k : Nat)
    (xs : List UInt8) (h : k + xs.length ≤ n) (hk : off + 2 ≤ k ∨ k + xs.length ≤ off) :
    ZeroField n off (Mem.poke b k xs) := by
  have hk0 := Mem.getD_poke_out (z := 0) (k := off) (hz.length ▸ h) (by omega)
  have hk1 := Mem.getD_poke_out (z := 0) (k := off + 1) (hz.length ▸ h) (by omega)
  exact ⟨(Mem.poke_length (hz.length ▸ h)).trans hz.length, hk0.trans hz.fst, hk1.trans hz.snd⟩

theorem ZeroField.load16 {n off : Nat} {b : List UInt8} (hz : ZeroField n off b) (e : Endian) :
    Unp.load16 e b off = 0 := by
  rw [Unp.load16, hz.fst, hz.snd]
  cases e <;> rfl

theorem ZeroField.take {n off k : Nat} {b : List UInt8} (hz : ZeroField n off b) (hk : off + 2 ≤ k)
    (hn : k ≤ n) : ZeroField k off (b.take k) := by
  have hcut : ∀ i < k, (b.take k).getD i 0 = b.getD i 0 := fun i hi => by
    have hb : (b.take k ++ b.drop k).getD i 0 = (b.take k).getD i 0 :=
      List.getD_append _ _ _ _ (by rw [List.length_take, hz.length]; omega)
    rw [List.take_append_drop] at hb
    exact hb.symm
  refine ⟨?_, (hcut _ (by omega)).trans hz.fst, (hcut _ (by omega)).trans hz.snd⟩
  rw [List.length_take, hz.length, Nat.min_eq_left hn]

theorem store16_twice (e : Endian) (b : List UInt8) (off : Nat) (v w : UInt16)
    (h : off + 2 ≤ b.length) : store16 e (store16 e b off v) off w = store16 e b off w :=
  Mem.poke_poke (by rw [wordBytes_length, wordBytes_length]) (by rw [wordBytes_length]; exact h)

theorem take_store16 (e : Endian) (b : List UInt8) (off n : Nat) (v : UInt16) (h : off + 2 ≤ n)
    (hn : n ≤ b.length) : (store16 e b off v).take n = store16 e (b.take n) off v :=
  Mem.take_poke (by rw [wordBytes_length]; exact h) hn

/-! ## send_v4 and udp_write -/

theorem sendV4_cksumOk (e : Endian) (sendbuf : List UInt8) (pid nsent datalen : Nat) (now : Timeval)
    (hb : sendbuf.length = BUFSIZE) (hd : 8 + datalen ≤ BUFSIZE) :
    cksumOk e (sendV4 e sendbuf pid nsent datalen now) = true := by
  have hsz : BUFSIZE = 1500 := rfl
  have hnow : (now.bytes e).length = 16 := by cases e <;> simp [Timeval.bytes, longBytes]
  have hw := wordBytes_length e
  let b1 := Mem.poke sendbuf 0 [ICMP_ECHO]
  have h1 : b1.length = 1500 := (Mem.poke_length (by rw [hb]; decide)).trans hb
  let b2 := Mem.poke b1 1 [0]
  have h2 : b2.length = 1500 := (Mem.poke_length (by rw [h1]; decide)).trans h1
  let b3 := store16 e b2 4 (UInt16.ofNat pid)
  have h3 : b3.length = 1500 := (store16_length (by omega)).trans h2
  let b4 := store16 e b3 6 (UInt16.ofNat nsent)
  have h4 : b4.length = 1500 := (store16_length (by omega)).trans h3
  let b5 := Mem.poke b4 8 (List.replicate datalen 0xa5)
  have h5 : b5.length = 1500 :=
    (Mem.poke_length (by rw [List.length_replicate]; omega)).trans h4
  let b6 := Mem.poke b5 8 (now.bytes e)
  have h6 : b6.length = 1500 := (Mem.poke_length (by omega)).trans h5
  let b7 := store16 e b6 2 0
  have h7 : b7.length = 1500 := (store16_length (by omega)).trans h6
  have htake : (b7.take (8 + datalen)).length = 8 + datalen := by
    rw [List.length_take, h7]; omega
  have hzero : load16 e (b7.take (8 + datalen)) 2 = 0 := by
    rw [show b7 = store16 e b6 2 0 from rfl, take_store16 e b6 2 _ 0 (by omega) (by omega)]
    exact load16_store16 e _ 2 0 (by rw [List.length_take]; omega)
  have hfin : sendV4 e sendbuf pid nsent datalen now
      = store16 e (b7.take (8 + datalen)) 2 (inCksum e (b7.take (8 + datalen))) :=
    take_store16 e b7 2 _ _ (by omega) (by omega)
  have hok := inCksum_store e (b7.take (8 + datalen)) 2 (by omega) rfl (by omega) hzero
  rw [cksumOk, hfin, hok]
  rfl

/-- the UDP pseudo packet before the checksum has a zero checksum field -/
theorem udpFields_zero (buf : List UInt8) (userlen : Nat) (loc dest : SockaddrIn)
    (hb : sizeofUdpiphdr + userlen ≤ buf.length) :
    ZeroField buf.length 26 (udpFields buf userlen loc dest) := by
  have hsz : sizeofUdpiphdr = 28 := rfl
  have hlen : (htons (sizeofUdphdr + userlen)).length = 2 := wordBytes_length _ _
  have hbz : (List.replicate sizeofUdpiphdr (0 : UInt8)).length = 28 := List.length_replicate
  have h0 : ZeroField buf.length 26 (Mem.poke buf 0 (List.replicate sizeofUdpiphdr 0)) := by
    refine ⟨Mem.poke_length (by omega), ?_, ?_⟩
    · exact Mem.getD_poke_in 0 26 (by omega) (by decide)
    · exact Mem.getD_poke_in 0 27 (by omega) (by decide)
  have h1 := h0.poke 10 (htons (sizeofUdphdr + userlen)) (by omega) (by omega)
  have h2 := h1.poke 9 [IPPROTO_UDP] (by simp; omega) (by simp)
  have h3 := h2.poke 12 loc.addr (by simp [SockaddrIn.addr]; omega)
    (by simp [SockaddrIn.addr])
  have h4 := h3.poke 16 dest.addr (by simp [SockaddrIn.addr]; omega)
    (by simp [SockaddrIn.addr])
  have h5 := h4.poke 20 loc.port (by simp [SockaddrIn.port]; omega)
    (by simp [SockaddrIn.port])
  have h6 := h5.poke 22 dest.port (by simp [SockaddrIn.port]; omega)
    (by simp [SockaddrIn.port])
  exact h6.poke 24 (htons (sizeofUdphdr + userlen)) (by omega) (by omega)

theorem udpPseudo_cksumOk (e : Endian) (buf : List UInt8) (userlen : Nat) (loc dest : SockaddrIn)
    (hb : sizeofUdpiphdr + userlen ≤ buf.length) (hmax : sizeofUdpiphdr + userlen ≤ 131074) :
    cksumOk e ((udpPseudo e buf userlen false loc dest).take (sizeofUdpiphdr + userlen)) = true := by
  have hsz : sizeofUdpiphdr = 28 := rfl
  have hz := udpFields_zero buf userlen loc dest hb
  unfold udpPseudo
  generalize udpFields buf userlen loc dest = ui at hz ⊢
  have hlen := hz.length
  have hcut := hz.take (k := sizeofUdpiphdr + userlen) (by omega) hb
  have hcl := hcut.length
  dsimp only
  rw [if_pos rfl, Nat.add_comm userlen]
  generalize hc : inCksum e (ui.take (sizeofUdpiphdr + userlen)) = c
  by_cases h0 : c = 0
  · have hok := inCksum_store_ffff e _ 26 (by omega) rfl (by omega) (hcut.load16 e) (hc.trans h0)
    rw [if_pos h0, store16_twice e ui 26 _ _ (by omega), take_store16 e ui 26 _ _ (by omega)
      (by omega), cksumOk, hok]
    rfl
  · have hok := inCksum_store e _ 26 (by omega) rfl (by omega) (hcut.load16 e)
    rw [if_neg h0, take_store16 e ui 26 _ _ (by omega) (by omega), cksumOk, ← hc, hok]
    rfl

/-- **A stored checksum verifies.**  In any buffer of at most 131074 bytes the checksum of a zero
field makes the checksum zero, and so does `0xffff` for the checksum `0`; a receiver accepts the
packets of `send_v4` and the pseudo packets of `udp_write`. -/
theorem stored_cksum_verifies :
    (∀ (e : Endian) (b : List UInt8) (off : Nat), b.length ≤ 131074 → off % 2 = 0 →
      off + 2 ≤ b.length → load16 e b off = 0 →
      inCksum e (store16 e b off (inCksum e b)) = 0 ∧
      (inCksum e b = 0 → inCksum e (store16 e b off 0xffff) = 0)) ∧
    (∀ (e : Endian) (sendbuf : List UInt8) (pid nsent datalen : Nat) (now : Timeval),
      sendbuf.length = BUFSIZE → 8 + datalen ≤ BUFSIZE →
      cksumOk e (sendV4 e sendbuf pid nsent datalen now) = true) ∧
    (∀ (e : Endian) (buf : List UInt8) (userlen : Nat) (loc dest : SockaddrIn),
      sizeofUdpiphdr + userlen ≤ buf.length → sizeofUdpiphdr + userlen ≤ 131074 →
      cksumOk e ((udpPseudo e buf userlen false loc dest).take (sizeofUdpiphdr + userlen)) = true) :=
  ⟨fun e b off hlen heven h hz => ⟨inCksum_store e b off hlen heven h hz,
      inCksum_store_ffff e b off hlen heven h hz⟩,
    fun e sendbuf pid nsent datalen now hb hd => sendV4_cksumOk e sendbuf pid nsent datalen now hb hd,
    fun e buf userlen loc dest hb hmax => udpPseudo_cksumOk e buf userlen loc dest hb hmax⟩

/-- an odd buffer -/
theorem stored_cksum_verifies_odd :
    inCksum .little (store16 .little [9, 8, 0, 0, 7] 2 (inCksum .little [9, 8, 0, 0, 7])) = 0 ∧
    cksumOk .little ((udpPseudo .little (List.replicate 31 1) 3 false
      ⟨10, 0, 0, 1, 4, 210⟩ ⟨10, 0, 0, 2, 0, 53⟩).take 31) = true :=
  ⟨(stored_cksum_verifies.1 .little [9, 8, 0, 0, 7] 2 (by decide) rfl (by decide) rfl).1,
    stored_cksum_verifies.2.2 .little (List.replicate 31 1) 3 ⟨10, 0, 0, 1, 4, 210⟩
      ⟨10, 0, 0, 2, 0, 53⟩ (by decide) (by decide)⟩

end Unp
