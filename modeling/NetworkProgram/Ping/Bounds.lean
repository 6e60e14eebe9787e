import NetworkProgram.Ping.Impl

/-!
# What `proc_v4` looks at

`icmplen < 16` leaves room for the 8 bytes of the ICMP header and a time stamp of 8, but the one that
`send_v4` puts there, and that is taken out, has `sizeofTimeval`.

* `procV4_within`     what `proc_v4` looks at is in the packet, but for a `Truncated` reply;
* `procV4_fits_iff`   and all other replies without a whole time stamp are dropped.
-/

namespace Unp.Ping
open Peek

variable {e : Endian} {verbose : Bool} {pid : Int} {len : Nat} {tvrecv : Timeval}
  {m : Nat → UInt8}

/-- an echo reply to this process that has some of its time stamp only, and passes -/
structure Truncated (e : Endian) (pid : Int) (len : Nat) (m : Nat → UInt8) : Prop where
  proto : m 9 = IPPROTO_ICMP
  type : m (hlen1 m) = ICMP_ECHOREPLY
  id : ((halfAt e m (hlen1 m + 4)).toNat : Int) = pid
  enough : hlen1 m + 16 ≤ len
  short : len < hlen1 m + 8 + sizeofTimeval

/-- `proc_v4` looks at the packet only, and drops an echo reply without a whole time stamp -/
structure Fits (e : Endian) (verbose : Bool) (pid : Int) (len : Nat) (tvrecv : Timeval)
    (m : Nat → UInt8) : Prop where
  within : Within (· < len) m (procV4 e verbose pid len tvrecv)
  dropped : m 9 = IPPROTO_ICMP → m (hlen1 m) = ICMP_ECHOREPLY →
    len < hlen1 m + 8 + sizeofTimeval → (procV4 e verbose pid len tvrecv).run m = none

theorem hlen1_le (m : Nat → UInt8) : hlen1 m ≤ 60 := by
  unfold hlen1
  omega

theorem half_within {off : Nat} : Within (· < len) m (half e off) ↔ off + 1 < len := by
  unfold half
  rw [within_bind, within_cell, within_bind, within_cell]
  exact ⟨fun h => h.2.1, fun h => ⟨by omega, h, within_pure _⟩⟩

theorem long_within {off : Nat} : Within (· < len) m (long e off) ↔ off + 8 ≤ len := by
  unfold long
  rw [within_bind, within_cellsOf]
  constructor
  · intro h
    have hlast := h.1 (off + 7) (List.mem_map.mpr ⟨7, List.mem_range.mpr (by decide), rfl⟩)
    omega
  · intro h
    refine ⟨fun i hi => ?_, within_pure _⟩
    obtain ⟨k, hk, rfl⟩ := List.mem_map.mp hi
    have hlt := List.mem_range.mp hk
    omega

theorem timeval_within {off : Nat} :
    Within (· < len) m (timeval e off) ↔ off + sizeofTimeval ≤ len := by
  have hsize := sizeofTimeval_eq
  unfold timeval
  rw [within_bind, long_within, within_bind, long_within]
  exact ⟨fun h => by omega, fun h => ⟨by omega, by omega, within_pure _⟩⟩

theorem procV4_within (hn : 20 ≤ len) :
    Within (· < len) m (procV4 e verbose pid len tvrecv) ↔ ¬ Truncated e pid len m := by
  have hsize := sizeofTimeval_eq
  have hle := hlen1_le m
  have hhlen : (m 0).toNat % 16 * 4 = hlen1 m := rfl
  unfold procV4
  dsimp only
  rw [within_bind, within_cell, within_bind, within_cell, run_cell, run_cell, hhlen,
    and_iff_right (by omega : 0 < len), and_iff_right (by omega : 9 < len)]
  by_cases hproto : m 9 ≠ IPPROTO_ICMP
  · rw [if_pos hproto]
    exact iff_of_true (within_pure _) (fun ht => hproto ht.proto)
  rw [if_neg hproto]
  by_cases h8 : (len : Int) - hlen1 m < 8
  · rw [if_pos h8]
    refine iff_of_true (within_pure _) fun ht => ?_
    have henough := ht.enough
    omega
  rw [if_neg h8, within_bind, within_cell, run_cell, and_iff_right (by omega : hlen1 m < len)]
  by_cases htype : m (hlen1 m) = ICMP_ECHOREPLY
  · rw [if_pos htype, within_bind, half_within, half_run,
      and_iff_right (by omega : hlen1 m + 4 + 1 < len)]
    by_cases hid : ((halfAt e m (hlen1 m + 4)).toNat : Int) ≠ pid
    · rw [if_pos hid]
      exact iff_of_true (within_pure _) (fun ht => hid ht.id)
    rw [if_neg hid]
    by_cases h16 : (len : Int) - hlen1 m < 16
    · rw [if_pos h16]
      refine iff_of_true (within_pure _) fun ht => ?_
      have henough := ht.enough
      omega
    · -- here the time stamp is looked at, and `seq` and `ttl` are in the packet
      rw [if_neg h16, within_bind, timeval_within, within_bind, half_within, within_bind, within_cell]
      constructor
      · intro h ht
        have hshort := ht.short
        omega
      · intro h
        have hwhole : hlen1 m + 8 + sizeofTimeval ≤ len := by
          by_contra hc
          exact h ⟨not_not.mp hproto, htype, not_not.mp hid, by omega, Nat.lt_of_not_le hc⟩
        exact ⟨hwhole, by omega, by omega, within_pure _⟩
  · rw [if_neg htype]
    refine iff_of_true (within_ite (fun _ => ?_) fun _ => within_pure _)
      (fun ht => htype ht.type)
    rw [within_bind, within_cell]
    exact ⟨by omega, within_pure _⟩

/-- the test lets a truncated reply through only -/
theorem dropped_of_not (h : ¬ Truncated e pid len m) (hproto : m 9 = IPPROTO_ICMP)
    (htype : m (hlen1 m) = ICMP_ECHOREPLY) (hshort : len < hlen1 m + 8 + sizeofTimeval) :
    (procV4 e verbose pid len tvrecv).run m = none := by
  rw [procV4_run, if_neg (not_not.mpr hproto), if_pos htype]
  split
  · rfl
  split
  · rfl
  rename_i hid
  split
  · rfl
  rename_i h16
  exact absurd ⟨hproto, htype, not_not.mp hid, by omega, hshort⟩ h

/-- **Which packets `proc_v4` keeps to.**  Every byte that it uses is in the packet, and an echo reply
without a whole `struct timeval` is dropped, exactly when the packet is not an echo reply to this process
with an ICMP message of 16 to 23 bytes. -/
theorem procV4_fits_iff (e : Endian) (verbose : Bool) (pid : Int) (len : Nat) (tvrecv : Timeval)
    (m : Nat → UInt8) (hn : 20 ≤ len) :
    Fits e verbose pid len tvrecv m ↔ ¬ Truncated e pid len m :=
  ⟨fun h => (procV4_within hn).mp h.within,
    fun h => ⟨(procV4_within hn).mpr h, fun hproto htype hshort => dropped_of_not h hproto htype hshort⟩⟩

/-- an echo reply with id 1 and nothing but zeros behind it -/
def zeroReply : Nat → UInt8 := fun k =>
  ([0x45] ++ List.replicate 8 0 ++ [IPPROTO_ICMP] ++ List.replicate 14 0 ++ [1]).getD k 0

/-- 64 bytes of ICMP message, as `send_v4` sends them -/
theorem procV4_fits_iff_whole : Fits .little false 1 84 ⟨0, 0⟩ zeroReply :=
  (procV4_fits_iff .little false 1 84 ⟨0, 0⟩ zeroReply (by decide)).mpr
    (fun h => absurd h.short (by decide))

/-- 16 of them: the time stamp goes on behind the packet -/
theorem not_procV4_fits : ¬ ∀ (e : Endian) (verbose : Bool) (pid : Int) (len : Nat) (tvrecv : Timeval)
    (m : Nat → UInt8), 20 ≤ len → Fits e verbose pid len tvrecv m := by
  intro h
  have hfits := h .little false 1 36 ⟨0, 0⟩ zeroReply (by decide)
  exact (procV4_within (by decide)).mp hfits.within ⟨rfl, rfl, rfl, by decide, by decide⟩

end Unp.Ping
