import NetworkProgram.Cksum.Sum

/-!
# The packet of `udp_write`

`udp_write` sums a pseudo header that lies where the IP header goes afterwards.  `udpHead` are the 28
bytes in front of the data, with whatever is in the first 12 of them; the two headers differ in those
only (`udpPseudo_eq`, `udpWrite_eq`), so what was summed can be taken from the packet sent
(`udpWrite_packet`).
-/

namespace Unp
open EndAround

variable {e : Endian} {buf : List UInt8} {userlen : Nat} {loc dest : SockaddrIn} {s0 s1 : UInt8}

/-- 12 bytes, the addresses, and the UDP header with the checksum `s0 s1` -/
def udpHead (front : List UInt8) (userlen : Nat) (loc dest : SockaddrIn) (s0 s1 : UInt8) : List UInt8 :=
  front ++ loc.addr ++ dest.addr ++ loc.port ++ dest.port ++ htons (sizeofUdphdr + userlen) ++ [s0, s1]

/-- the front of the pseudo header: zeros, the protocol and the UDP length -/
def pseudoFront (userlen : Nat) : List UInt8 :=
  [0, 0, 0, 0, 0, 0, 0, 0, 0, IPPROTO_UDP] ++ htons (sizeofUdphdr + userlen)

/-- the front of the IP header; the UDP length is where the kernel puts the header checksum -/
def ipFront (userlen : Nat) : List UInt8 :=
  [0x45, 0] ++ htons (userlen + sizeofUdpiphdr) ++ [0, 0, 0, 0, TTL_OUT, IPPROTO_UDP] ++
    htons (sizeofUdphdr + userlen)

theorem htons_bytes (v : Nat) : ∃ b0 b1, htons v = [b0, b1] := ⟨_, _, rfl⟩

/-! ## the two headers -/

theorem udpFields_eq :
    udpFields buf userlen loc dest =
      udpHead (pseudoFront userlen) userlen loc dest 0 0 ++ buf.drop sizeofUdpiphdr := by
  obtain ⟨l0, l1, hl⟩ := htons_bytes (sizeofUdphdr + userlen)
  have hz : Mem.poke buf 0 (List.replicate sizeofUdpiphdr 0) =
      List.replicate 28 0 ++ buf.drop sizeofUdpiphdr := rfl
  unfold udpFields udpHead pseudoFront
  rw [hl, hz]
  generalize buf.drop sizeofUdpiphdr = rest
  simp [Mem.poke, SockaddrIn.addr, SockaddrIn.port, List.replicate]

/-- a checksum stored over `t0 t1` -/
theorem store16_head {t0 t1 : UInt8} {rest : List UInt8} {v : UInt16} (h : wordBytes e v = [s0, s1]) :
    store16 e (udpHead (pseudoFront userlen) userlen loc dest t0 t1 ++ rest) 26 v =
      udpHead (pseudoFront userlen) userlen loc dest s0 s1 ++ rest := by
  obtain ⟨l0, l1, hl⟩ := htons_bytes (sizeofUdphdr + userlen)
  unfold store16 udpHead pseudoFront
  rw [hl, h]
  simp [Mem.poke, SockaddrIn.addr, SockaddrIn.port]

/-- `udp_write` up to the checksum, which is not 0 -/
theorem udpPseudo_eq (e : Endian) (buf : List UInt8) (userlen : Nat) (loc dest : SockaddrIn) :
    ∃ s0 s1, word e s0 s1 ≠ 0 ∧ udpPseudo e buf userlen false loc dest =
      udpHead (pseudoFront userlen) userlen loc dest s0 s1 ++ buf.drop sizeofUdpiphdr := by
  unfold udpPseudo
  rw [udpFields_eq]
  dsimp only
  rw [if_pos rfl]
  generalize inCksum e _ = sum
  obtain ⟨c0, c1, hbytes, hword⟩ := word_wordBytes e sum
  split
  · obtain ⟨f0, f1, hfull, hne⟩ := word_wordBytes e 0xffff
    refine ⟨f0, f1, by rw [hne]; decide, ?_⟩
    rw [store16_head hbytes, store16_head hfull]
  · rename_i hsum
    exact ⟨c0, c1, by rw [hword]; exact hsum, store16_head hbytes⟩

/-- the IP header over the pseudo header -/
theorem udpIp_eq (rest : List UInt8) :
    udpIp (udpHead (pseudoFront userlen) userlen loc dest s0 s1 ++ rest) userlen =
      udpHead (ipFront userlen) userlen loc dest s0 s1 ++ rest.take userlen := by
  obtain ⟨l0, l1, hl⟩ := htons_bytes (sizeofUdphdr + userlen)
  obtain ⟨n0, n1, hn⟩ := htons_bytes (userlen + sizeofUdpiphdr)
  unfold udpIp udpHead pseudoFront ipFront
  dsimp only
  rw [hl, hn]
  simp [Mem.poke, SockaddrIn.addr, SockaddrIn.port, sizeofUdpiphdr]

theorem udpWrite_eq (e : Endian) (buf : List UInt8) (userlen : Nat) (loc dest : SockaddrIn) :
    ∃ s0 s1, word e s0 s1 ≠ 0 ∧ udpWrite e buf userlen false loc dest =
      udpHead (ipFront userlen) userlen loc dest s0 s1 ++ (buf.drop sizeofUdpiphdr).take userlen ∧
      udpPseudo e buf userlen false loc dest =
        udpHead (pseudoFront userlen) userlen loc dest s0 s1 ++ buf.drop sizeofUdpiphdr := by
  obtain ⟨s0, s1, hne, hps⟩ := udpPseudo_eq e buf userlen loc dest
  refine ⟨s0, s1, hne, ?_, hps⟩
  unfold udpWrite
  rw [hps, udpIp_eq]

/-! ## the packet as a receiver takes it -/

/-- the pseudo header of the packet `p`: source, destination, protocol and UDP length -/
def pseudoHeader (p : List UInt8) : List UInt8 :=
  (p.drop 12).take 4 ++ (p.drop 16).take 4 ++ [0, p.getD 9 0] ++ (p.drop 24).take 2

/-- what a receiver sums: the pseudo header, the UDP header and the data -/
def udpSummed (p : List UInt8) : List UInt8 := pseudoHeader p ++ p.drop 20

theorem pseudoHeader_head (rest : List UInt8) :
    pseudoHeader (udpHead (ipFront userlen) userlen loc dest s0 s1 ++ rest) =
      loc.addr ++ dest.addr ++ [0, IPPROTO_UDP] ++ htons (sizeofUdphdr + userlen) := by
  obtain ⟨l0, l1, hl⟩ := htons_bytes (sizeofUdphdr + userlen)
  obtain ⟨n0, n1, hn⟩ := htons_bytes (userlen + sizeofUdpiphdr)
  unfold pseudoHeader udpHead ipFront
  rw [hl, hn]
  simp [SockaddrIn.addr, SockaddrIn.port]

/-- the receiver sums the same words as `udp_write` -/
theorem wordSum_udpSummed (rest : List UInt8) :
    wordSum e (udpSummed (udpHead (ipFront userlen) userlen loc dest s0 s1 ++ rest)) =
      wordSum e (udpHead (pseudoFront userlen) userlen loc dest s0 s1 ++ rest) := by
  obtain ⟨l0, l1, hl⟩ := htons_bytes (sizeofUdphdr + userlen)
  obtain ⟨n0, n1, hn⟩ := htons_bytes (userlen + sizeofUdpiphdr)
  have hzero : (word e 0 0).toNat = 0 := by cases e <;> rfl
  unfold udpSummed
  rw [pseudoHeader_head]
  unfold udpHead pseudoFront ipFront
  rw [hl, hn]
  simp only [SockaddrIn.addr, SockaddrIn.port, List.cons_append, List.nil_append, List.drop_succ_cons,
    List.drop_zero, wordSum_cons, hzero]
  omega

theorem load16_append {off : Nat} (a b : List UInt8) (b0 b1 : UInt8) (hoff : a.length = off) :
    load16 e (a ++ ([b0, b1] ++ b)) off = word e b0 b1 := by
  subst hoff
  unfold load16
  rw [List.getD_append_right _ _ _ _ (Nat.le_refl _), List.getD_append_right _ _ _ _ (Nat.le_add_right _ 1),
    Nat.sub_self, Nat.add_sub_cancel_left]
  rfl

/-- a 16-bit number in network order -/
theorem load16_htons {v off : Nat} (a b : List UInt8) (hoff : a.length = off) (hv : v < 2^16) :
    (load16 .big (a ++ (htons v ++ b)) off).toNat = v := by
  obtain ⟨b0, b1, hb, hw⟩ := word_wordBytes .big (UInt16.ofNat v)
  have hv' : htons v = [b0, b1] := hb
  rw [hv', load16_append a b b0 b1 hoff, hw, UInt16.toNat_ofNat', Nat.mod_eq_of_lt hv]

/-- **The packet of `udp_write`.**  The lengths are in network order, the checksum is not 0, and the
sum that a receiver takes over the pseudo header, the UDP header and the data is `0xffff`. -/
theorem udpWrite_packet (e : Endian) (buf : List UInt8) (userlen : Nat) (loc dest : SockaddrIn)
    (hb : sizeofUdpiphdr + userlen ≤ buf.length) (hmax : userlen ≤ 65507) :
    let p := udpWrite e buf userlen false loc dest
    p.length = 28 + userlen ∧
    (load16 .big p 24).toNat = 8 + userlen ∧
    (load16 .big p 2).toNat = 28 + userlen ∧
    load16 e p 26 ≠ 0 ∧
    onesSum (words e (udpSummed p)) = 0xffff ∧
    pseudoHeader p = loc.addr ++ dest.addr ++ [0, IPPROTO_UDP] ++ htons (8 + userlen) ∧
    p.drop 28 = (buf.drop 28).take userlen := by
  have hsz : sizeofUdpiphdr = 28 := rfl
  obtain ⟨s0, s1, hne, hp, hps⟩ := udpWrite_eq e buf userlen loc dest
  have hdata : ((buf.drop sizeofUdpiphdr).take userlen).length = userlen := by
    rw [List.length_take, List.length_drop, Nat.min_eq_left (by omega)]
  have hlen : (udpHead (ipFront userlen) userlen loc dest s0 s1).length = 28 := rfl
  have hlen' : (udpHead (pseudoFront userlen) userlen loc dest s0 s1).length = 28 := rfl
  -- the sum of the pseudo packet
  have hsummed := udpPseudo_cksumOk e buf userlen loc dest hb (by omega)
  rw [hps, List.take_append, hlen', List.take_of_length_le (by rw [hlen', hsz]; omega), hsz,
    Nat.add_sub_cancel_left] at hsummed
  have hzero := (inCksum_eq_zero_iff e _ (by
    rw [List.length_append, hlen', ← hsz, hdata]; omega)).mp (eq_of_beq hsummed)
  intro p
  have hpe : p = udpHead (ipFront userlen) userlen loc dest s0 s1 ++
    (buf.drop sizeofUdpiphdr).take userlen := hp
  rw [hpe]
  refine ⟨?_, ?_, ?_, ?_, ?_, pseudoHeader_head _, ?_⟩
  · rw [List.length_append, hlen, hdata]
  · unfold udpHead
    rw [List.append_assoc, List.append_assoc]
    exact load16_htons (ipFront userlen ++ loc.addr ++ dest.addr ++ loc.port ++ dest.port) _ rfl
      (show 8 + userlen < 2^16 by omega)
  · unfold udpHead ipFront
    simp only [List.append_assoc]
    rw [Nat.add_comm 28]
    exact load16_htons [0x45, 0] _ rfl (show userlen + 28 < 2^16 by omega)
  · unfold udpHead
    rw [List.append_assoc]
    exact ne_of_eq_of_ne (load16_append _ _ s0 s1 rfl) hne
  · rw [← UInt16.toNat_inj, onesSum_toNat, intSum_words, wordSum_udpSummed]
    exact hzero
  · exact List.drop_left' hlen

/-- three bytes of data -/
theorem udpWrite_packet_odd :
    onesSum (words .little (udpSummed (udpWrite .little (List.replicate 31 1) 3 false
      ⟨10, 0, 0, 1, 4, 210⟩ ⟨10, 0, 0, 2, 0, 53⟩))) = 0xffff :=
  (udpWrite_packet .little (List.replicate 31 1) 3 ⟨10, 0, 0, 1, 4, 210⟩ ⟨10, 0, 0, 2, 0, 53⟩
    (by decide) (by decide)).2.2.2.2.1

end Unp
