import NetworkProgram.Lib.Peek
import NetworkProgram.Cksum.Corrupt

/-!
# What `udp_read` looks at

`udp_read` and `udp_check` (`udpchsum/udpread.cpp`) on a captured frame, as computations that look at
its bytes; the frame goes on behind the `caplen` captured bytes, with anything.

* `udpCheckAt`        `udp_check` at an offset of the frame; `udpCheckAt_run` it is `udpCheck`;
* `udpCheckAt_within` what it looks at, from the room there is;
* `udpRead_safe_iff`  the bytes are captured ones exactly if the link header is.
-/

namespace Unp
open Peek

/-! ## the code -/

/-- `udp_check(ptr, len)`: the offset returned, or the exit -/
def udpCheckAt (e : Endian) (ptr : Nat) (len : Int) : Peek Nat UInt8 (Except Stop Nat) :=
  if sizeT len < sizeofIp + sizeofUdphdr then pure (.error (.errQuit "len=%d" [len]))
  else do
    let ip ← cell ptr
    if ip >>> 4 ≠ IPVERSION then pure (.error (.errQuit "ip_v = %d" [(ip >>> 4).toNat]))
    else
      let hlen := (ip &&& 0xf).toNat * 4
      if hlen < sizeofIp then pure (.error (.errQuit "ip_hl=%d" [(ip &&& 0xf).toNat]))
      else if sizeT len < hlen + sizeofUdphdr then
        pure (.error (.errQuit "len=%d, hlen=%d" [len, hlen]))
      else do
        let header ← cellsOf ((List.range hlen).map (ptr + ·))
        if inCksum e header ≠ 0 then pure (.error (.errQuit "ip check sum error" []))
        else do
          let proto ← cell (ptr + 9)
          if proto = IPPROTO_UDP then pure (.ok ptr)
          else pure (.error (.errQuit "not a udp packet" []))

def DLT_NULL : Int := 0
def DLT_EN10MB : Int := 1
def DLT_SLIP : Int := 8
def DLT_PPP : Int := 9

def ETHERTYPE_IP : UInt16 := 0x0800

/-- `*len = hdr.caplen;` in `next_pcap`: a `bpf_u_int32` in an `int` -/
def caplenInt (caplen : UInt32) : Int := caplen.toInt32.toInt

/-- `udp_read` on a frame of which `caplen` bytes are captured -/
def udpRead (e : Endian) (datalink : Int) (caplen : UInt32) : Peek Nat UInt8 (Except Stop Nat) :=
  let len := caplenInt caplen
  if datalink = DLT_NULL then udpCheckAt e 4 (len - 4)
  else if datalink = DLT_EN10MB then do
    let b0 ← cell 12
    let b1 ← cell 13
    let etherType := word .big b0 b1
    if etherType ≠ ETHERTYPE_IP then
      pure (.error (.errQuit "ethernet type %x not iP" [etherType.toNat]))
    else udpCheckAt e 14 (len - 14)
  else if datalink = DLT_SLIP then udpCheckAt e 24 (len - 24)
  else if datalink = DLT_PPP then udpCheckAt e 24 (len - 24)
  else pure (.error (.errQuit "unsupported datalink (%d)" [datalink]))

variable {e : Endian} {frame : Nat → UInt8} {ptr n : Nat} {len : Int}

/-- the bytes of the IP header at `ptr` -/
def headerAt (frame : Nat → UInt8) (ptr : Nat) : List UInt8 :=
  ((List.range ((frame ptr &&& 0xf).toNat * 4)).map (ptr + ·)).map frame

theorem udpCheckAt_run :
    (udpCheckAt e ptr len).run frame =
      if sizeT len < sizeofIp + sizeofUdphdr then .error (.errQuit "len=%d" [len])
      else if frame ptr >>> 4 ≠ IPVERSION then .error (.errQuit "ip_v = %d" [(frame ptr >>> 4).toNat])
      else if (frame ptr &&& 0xf).toNat * 4 < sizeofIp then
        .error (.errQuit "ip_hl=%d" [(frame ptr &&& 0xf).toNat])
      else if sizeT len < (frame ptr &&& 0xf).toNat * 4 + sizeofUdphdr then
        .error (.errQuit "len=%d, hlen=%d" [len, (frame ptr &&& 0xf).toNat * 4])
      else if inCksum e (headerAt frame ptr) ≠ 0 then .error (.errQuit "ip check sum error" [])
      else if frame (ptr + 9) = IPPROTO_UDP then .ok ptr
      else .error (.errQuit "not a udp packet" []) := by
  unfold udpCheckAt
  dsimp only
  rw [run_ite, run_bind, run_ite, run_ite, run_ite, run_bind, run_ite, run_bind, run_ite, run_cellsOf]
  rfl

theorem memory_headerAt :
    memory (fun k => frame (ptr + k)) 0 (ipHlen fun k => frame (ptr + k)) = headerAt frame ptr := by
  unfold memory headerAt
  rw [List.map_map]
  exact List.map_congr_left (fun k _ => congrArg (frame ∘ (ptr + ·)) (Nat.zero_add k))

/-- **`udpCheckAt` is `udpCheck`**, which stores the sum into `ip_sum` too. -/
theorem udpCheckAt_eq :
    udpCheck e (fun k => frame (ptr + k)) len =
      ((udpCheckAt e ptr len).run frame).map
        (fun ui => store (fun k => frame (ui + k)) 10 (wordBytes e 0)) := by
  unfold udpCheck
  dsimp only
  rw [udpCheckAt_run, memory_headerAt, store_of_lt (show 9 < 10 by decide)]
  iterate 6 rw [apply_ite (Except.map _)]
  refine ite_congr rfl (fun _ => rfl) fun _ => ?_
  refine ite_congr rfl (fun _ => rfl) fun _ => ?_
  refine ite_congr rfl (fun _ => rfl) fun _ => ?_
  refine ite_congr rfl (fun _ => rfl) fun _ => ?_
  refine ite_congr rfl (fun _ => rfl) fun hsum => ?_
  rw [not_not.mp hsum]
  rfl

/-! ## the bytes looked at -/

/-- behind its first test `udp_check` looks at `ip_v` -/
theorem udpCheckAt_looks (h : sizeofIp + sizeofUdphdr ≤ sizeT len) :
    ptr ∈ (udpCheckAt e ptr len).cells frame := by
  unfold udpCheckAt
  rw [if_neg (Nat.not_lt.mpr h), cells_bind]
  exact List.mem_append_left _ (List.mem_singleton_self _)

/-- a header length is at most 60 -/
theorem hlen_le (b : UInt8) : (b &&& 0xf).toNat * 4 ≤ 60 := by
  have h : (b &&& 0xf).toNat ≤ 15 := by
    rw [UInt8.toNat_and]
    exact Nat.and_le_right
  omega

/-- what `len` promises is there, as far as `udp_check` goes: 60 bytes of IP header, 8 of UDP header -/
def Room (ptr n : Nat) (len : Int) : Prop := ∀ k ≤ 60 + sizeofUdphdr, k ≤ sizeT len → ptr + k ≤ n

theorem udpCheckAt_within (h : Room ptr n len) :
    Within (· < n) frame (udpCheckAt e ptr len) := by
  have hip : sizeofIp = 20 := rfl
  have hudp : sizeofUdphdr = 8 := rfl
  have hle := hlen_le (frame ptr)
  unfold udpCheckAt
  refine within_ite (fun _ => within_pure _) fun hsize => ?_
  have hfix := h 28 (by omega) (by omega)
  rw [within_bind, within_cell, run_cell]
  refine ⟨by omega, within_ite (fun _ => within_pure _) fun _ => ?_⟩
  dsimp only
  refine within_ite (fun _ => within_pure _) fun hmin => within_ite (fun _ => within_pure _) fun hroom => ?_
  have hhdr := h ((frame ptr &&& 0xf).toNat * 4 + sizeofUdphdr) (by omega) (by omega)
  rw [within_bind, within_cellsOf]
  refine ⟨?_, within_ite (fun _ => within_pure _) fun _ => ?_⟩
  · intro i hi
    obtain ⟨k, hk, rfl⟩ := List.mem_map.mp hi
    have hlt := List.mem_range.mp hk
    omega
  · rw [within_bind, within_cell]
    exact ⟨by omega, within_ite (fun _ => within_pure _) fun _ => within_pure _⟩

/-- the packet returned has a whole UDP header -/
theorem udpCheckAt_ok {ui : Nat} (hok : (udpCheckAt e ptr len).run frame = .ok ui) :
    ui = ptr ∧ (frame ptr &&& 0xf).toNat * 4 + sizeofUdphdr ≤ sizeT len := by
  rw [udpCheckAt_run] at hok
  split at hok
  · cases hok
  split at hok
  · cases hok
  split at hok
  · cases hok
  split at hok
  · cases hok
  rename_i hroom
  split at hok
  · cases hok
  split at hok
  · exact ⟨(Except.ok.inj hok).symm, Nat.not_lt.mp hroom⟩
  · cases hok

def Stop.isErrQuit : Stop → Prop
  | .errQuit _ _ => True
  | .errSys _ => False

/-- `udp_check` stops through `err_quit` only -/
theorem udpCheckAt_stop {why : Stop} (h : (udpCheckAt e ptr len).run frame = .error why) :
    why.isErrQuit := by
  rw [udpCheckAt_run] at h
  iterate 5
    split at h
    · rw [← Except.error.inj h]
      trivial
  split at h
  · cases h
  · rw [← Except.error.inj h]
    trivial

/-! ## udp_read -/

/-- `udp_read` stops through `err_quit` or returns, and looks at captured bytes only; so are the bytes
of the UDP header that it returns -/
structure ReadSafe (e : Endian) (datalink : Int) (caplen : UInt32) (frame : Nat → UInt8) : Prop where
  ends : ∀ why, (udpRead e datalink caplen).run frame = .error why → why.isErrQuit
  within : Within (· < caplen.toNat) frame (udpRead e datalink caplen)
  header : ∀ ui, (udpRead e datalink caplen).run frame = .ok ui →
    ui + (frame ui &&& 0xf).toNat * 4 + sizeofUdphdr ≤ caplen.toNat

/-- the length that `udp_read` takes off -/
def linkLen (datalink : Int) : Nat :=
  if datalink = DLT_NULL then 4
  else if datalink = DLT_EN10MB then 14
  else 24

def Supported (datalink : Int) : Prop :=
  datalink = DLT_NULL ∨ datalink = DLT_EN10MB ∨ datalink = DLT_SLIP ∨ datalink = DLT_PPP

theorem sizeT_neg {k : Nat} (h0 : 0 < k) (h : k < 2^63) : sizeT (-k) = 2^64 - k := by
  have hk : ((-k : Int) % 18446744073709551616).toNat = 18446744073709551616 - k := by omega
  show (UInt64.ofNat ((-k : Int) % 18446744073709551616).toNat).toNat = 2^64 - k
  rw [hk]
  exact UInt64.toNat_ofNat_of_lt' (by show _ < 18446744073709551616; omega)

theorem caplenInt_eq (caplen : UInt32) :
    caplenInt caplen = if caplen.toNat < 2^31 then (caplen.toNat : Int) else caplen.toNat - 2^32 := by
  have hcond := BitVec.toInt_eq_toNat_cond caplen.toBitVec
  have hint : caplenInt caplen = caplen.toBitVec.toInt := rfl
  have hnat : caplen.toBitVec.toNat = caplen.toNat := rfl
  rw [hint, hcond, hnat]
  split <;> split <;> omega

/-- where the link header is captured, `len` promises no more than what is -/
theorem room_link {caplen : UInt32} {link : Nat} (h : link ≤ caplen.toNat) (hlink : link ≤ 24) :
    Room link caplen.toNat (caplenInt caplen - link) := by
  have hudp : sizeofUdphdr = 8 := rfl
  intro k hk hsize
  rw [caplenInt_eq] at hsize
  by_cases hpos : caplen.toNat < 2^31
  · rw [if_pos hpos, ← Int.ofNat_sub h, sizeT_natCast (by omega)] at hsize
    omega
  · omega

/-- where it is not, the negative `len` passes for a large one -/
theorem sizeT_short (caplen : UInt32) (link : Nat) (h : caplen.toNat < link) (hlink : link ≤ 24) :
    sizeofIp + sizeofUdphdr ≤ sizeT (caplenInt caplen - link) := by
  have hip : sizeofIp = 20 := rfl
  have hudp : sizeofUdphdr = 8 := rfl
  have hlen : caplenInt caplen - link = -((link - caplen.toNat : Nat) : Int) := by
    rw [caplenInt_eq, if_pos (by omega)]
    omega
  rw [hlen, sizeT_neg (by omega) (by omega)]
  omega

/-- `udp_check` behind a link header -/
theorem udpCheckAt_safe {caplen : UInt32} (link : Nat) (hlink : link ≤ 24) :
    Within (· < caplen.toNat) frame (udpCheckAt e link (caplenInt caplen - link)) ↔
      link ≤ caplen.toNat := by
  constructor
  · intro h
    by_contra hshort
    have hlt := h link (udpCheckAt_looks (sizeT_short caplen link (Nat.lt_of_not_le hshort) hlink))
    exact hshort (Nat.le_of_lt hlt)
  · intro h
    exact udpCheckAt_within (room_link h hlink)

/-- a packet returned from behind a link header that is captured -/
theorem udpCheckAt_header {caplen : UInt32} (link : Nat) {ui : Nat} (h : link ≤ caplen.toNat)
    (hlink : link ≤ 24)
    (hok : (udpCheckAt e link (caplenInt caplen - link)).run frame = .ok ui) :
    ui + (frame ui &&& 0xf).toNat * 4 + sizeofUdphdr ≤ caplen.toNat := by
  obtain ⟨rfl, hsize⟩ := udpCheckAt_ok hok
  have hle := hlen_le (frame ui)
  have hroom := room_link h hlink _ (by omega) hsize
  omega

/-- without a test of the link header `udp_read` is `udp_check` behind it -/
theorem safe_behind {datalink : Int} {caplen : UInt32} (link : Nat) (hlink : link ≤ 24)
    (heq : udpRead e datalink caplen = udpCheckAt e link (caplenInt caplen - link)) :
    ReadSafe e datalink caplen frame ↔ link ≤ caplen.toNat := by
  constructor
  · intro h
    have hin := h.within
    rw [heq] at hin
    exact (udpCheckAt_safe link hlink).mp hin
  · intro h
    constructor
    · intro why hwhy
      rw [heq] at hwhy
      exact udpCheckAt_stop hwhy
    · rw [heq]
      exact (udpCheckAt_safe link hlink).mpr h
    · intro ui hok
      rw [heq] at hok
      exact udpCheckAt_header link h hlink hok

theorem udpRead_ethernet (e : Endian) (caplen : UInt32) :
    udpRead e DLT_EN10MB caplen = (do
      let b0 ← cell 12
      let b1 ← cell 13
      let etherType := word .big b0 b1
      if etherType ≠ ETHERTYPE_IP then
        pure (.error (.errQuit "ethernet type %x not iP" [etherType.toNat]))
      else udpCheckAt e 14 (caplenInt caplen - 14)) := rfl

theorem safe_ethernet (e : Endian) (caplen : UInt32) (frame : Nat → UInt8) :
    ReadSafe e DLT_EN10MB caplen frame ↔ 14 ≤ caplen.toNat := by
  have hrun : (udpRead e DLT_EN10MB caplen).run frame =
      if word .big (frame 12) (frame 13) ≠ ETHERTYPE_IP then
        .error (.errQuit "ethernet type %x not iP" [(word .big (frame 12) (frame 13)).toNat])
      else (udpCheckAt e 14 (caplenInt caplen - 14)).run frame := by
    rw [udpRead_ethernet, run_bind, run_bind, run_ite]
    rfl
  constructor
  · intro h
    have hin := h.within
    rw [udpRead_ethernet, within_bind, within_bind, within_cell, within_cell] at hin
    exact hin.2.1
  · intro h
    constructor
    · intro why hwhy
      rw [hrun] at hwhy
      split at hwhy
      · rw [← Except.error.inj hwhy]
        trivial
      · exact udpCheckAt_stop hwhy
    · rw [udpRead_ethernet, within_bind, within_bind, within_cell, within_cell]
      exact ⟨by omega, by omega, within_ite (fun _ => within_pure _)
        (fun _ => (udpCheckAt_safe 14 (by decide)).mpr h)⟩
    · intro ui hok
      rw [hrun] at hok
      split at hok
      · cases hok
      · exact udpCheckAt_header 14 h (by decide) hok

/-- **What `udp_read` looks at is captured exactly if the link header is.** -/
theorem udpRead_safe_iff (e : Endian) (datalink : Int) (caplen : UInt32) (frame : Nat → UInt8)
    (h : Supported datalink) :
    ReadSafe e datalink caplen frame ↔ linkLen datalink ≤ caplen.toNat := by
  rcases h with rfl | rfl | rfl | rfl
  · exact safe_behind 4 (by decide) rfl
  · exact safe_ethernet e caplen frame
  · exact safe_behind 24 (by decide) rfl
  · exact safe_behind 24 (by decide) rfl

/-- an Ethernet frame of 60 bytes -/
theorem udpRead_safe_iff_frame : ReadSafe .little DLT_EN10MB 60 (fun _ => 0) :=
  (udpRead_safe_iff .little DLT_EN10MB 60 (fun _ => 0) (Or.inr (Or.inl rfl))).mpr (by decide)

/-- a frame shorter than its link header -/
theorem not_udpRead_safe : ¬ ∀ (e : Endian) (datalink : Int) (caplen : UInt32) (frame : Nat → UInt8),
    Supported datalink → ReadSafe e datalink caplen frame := by
  intro h
  have hsafe := h .little DLT_NULL 3 (fun _ => 0) (Or.inl rfl)
  exact absurd ((safe_behind 4 (by decide) rfl).mp hsafe) (by decide)

end Unp
