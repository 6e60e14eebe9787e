import NetworkProgram.Lib.Peek
import NetworkProgram.Icmpd.Notify

/-!
# What `readable_v4` looks at

`readable_v4` again, as a computation that looks at the bytes of its buffer, those it prints included.
Its test `icmplen < 8+20+8` leaves room for a quoted IP header of 20 bytes, but the UDP header is looked
for behind the length that the header gives.

* `readableV4At`          the function; `readableV4At_run` it is `readableV4`;
* `readableV4At_within`   what it looks at;
* `received_iff`          it keeps to the bytes received exactly if the quoted ports are among them.
-/

namespace Unp.Icmpd
open Peek

/-- the loop over the slots `is`, for the ICMP type and code and the offsets of the quoted headers -/
def scanAt (e : Endian) (d : Daemon) (type code : UInt8) (hip udp : Nat) (sport : Int) :
    List Nat → Peek Nat UInt8 (List Act)
  | [] => pure []
  | i :: is =>
    if (d.client i).wants sport then do
      let sinAddr ← cellsOf ((List.range 4).map (hip + 16 + ·))
      let p0 ← cell (udp + 2)
      let p1 ← cell (udp + 3)
      let dest : Dest := ⟨AF_INET, sinAddr, word e p0 p1⟩
      let err : IcmpdErr := ⟨icmpErrno type code, type, code, sizeofSockaddrIn, dest⟩
      let acts ← scanAt e d type code hip udp sport is
      return .err i (d.client i).connfd sport err :: acts
    else scanAt e d type code hip udp sport is

def readableV4At (e : Endian) (d : Daemon) (n : Nat) : Peek Nat UInt8 Out := do
  let ip ← cell 0
  let hlen1 := ip.toNat % 16 * 4
  let icmp := hlen1
  let icmplen : Int := n - hlen1
  if icmplen < 8 then pure ⟨d, [], some (.errQuit "icmplen (%d) < 8" [icmplen])⟩
  else do
    let type ← cell icmp
    let code ← cell (icmp + 1)
    if type = ICMP_UNREACH ∨ type = ICMP_TIMXCEED ∨ type = ICMP_SOURCEQUENCH then
      if icmplen < 8 + 20 + 8 then pure ⟨d, [], some (.errQuit "icmplen (%d)<8+20+8" [icmplen])⟩
      else do
        let hip := hlen1 + 8
        let quoted ← cell hip
        let hlen2 := quoted.toNat % 16 * 4
        -- `ip_src` and `ip_dst` are printed
        let _ ← cellsOf ((List.range 8).map (hip + 12 + ·))
        let proto ← cell (hip + 9)
        if proto = IPPROTO_UDP then do
          let udp := hlen1 + 8 + hlen2
          let u0 ← cell udp
          let u1 ← cell (udp + 1)
          let sport : Int := (word e u0 u1).toNat
          let acts ← scanAt e d type code hip udp sport (List.range d.maxi.toNat)
          return d.done acts
        else pure (d.done [])
    else pure (d.done [])

variable {e : Endian} {d : Daemon} {buf : Nat → UInt8} {n : Nat}

/-! ## the same function -/

theorem scanAt_run (e : Endian) (d : Daemon) (buf : Nat → UInt8) (is : List Nat) :
    (scanAt e d (buf (hlen buf 0)) (buf (hlen buf 0 + 1)) (hlen buf 0 + 8) (quotedUdp buf)
      (quotedPort e buf) is).run buf =
      is.flatMap (fun i => if (d.client i).wants (quotedPort e buf) then [notice e d buf i] else []) := by
  induction is with
  | nil => rfl
  | cons i is ih =>
    unfold scanAt
    rw [run_ite, run_bind, run_cellsOf, run_bind, run_bind, run_bind, ih, List.flatMap_cons,
      List.map_map]
    by_cases hw : (d.client i).wants (quotedPort e buf) = true
    · rw [if_pos hw, if_pos hw]
      rfl
    · rw [if_neg hw, if_neg hw]
      rfl

theorem readableV4At_run : (readableV4At e d n).run buf = readableV4 e d buf n := by
  unfold readableV4At
  dsimp only
  rw [run_bind, run_ite, run_bind, run_bind, run_ite, run_ite, run_bind, run_bind, run_bind, run_ite,
    run_bind, run_bind, run_bind]
  have hscan := scanAt_run e d buf (List.range d.maxi.toNat)
  unfold readableV4
  dsimp only
  refine ite_congr rfl (fun _ => rfl) fun _ => ?_
  refine ite_congr rfl (fun _ => ?_) fun _ => rfl
  refine ite_congr rfl (fun _ => rfl) fun _ => ?_
  exact ite_congr rfl (fun _ => congrArg d.done hscan) fun _ => rfl

/-! ## the bytes looked at -/

/-- the tests on the way to the quoted ports -/
structure ReachesUdp (buf : Nat → UInt8) (n : Nat) : Prop where
  type : buf (hlen buf 0) = ICMP_UNREACH ∨ buf (hlen buf 0) = ICMP_TIMXCEED ∨
    buf (hlen buf 0) = ICMP_SOURCEQUENCH
  quote : hlen buf 0 + (8 + 20 + 8) ≤ n
  proto : buf (hlen buf 0 + 8 + 9) = IPPROTO_UDP

/-- a slot that is scanned wants the quoted port -/
def Wanted (e : Endian) (d : Daemon) (buf : Nat → UInt8) : Prop :=
  ∃ i < d.maxi.toNat, (d.client i).wants (quotedPort e buf) = true

/-- the source port is among the `n` bytes, and the destination port where it is copied -/
structure PortsIn (e : Endian) (d : Daemon) (buf : Nat → UInt8) (n : Nat) : Prop where
  sport : quotedUdp buf + 2 ≤ n
  dport : Wanted e d buf → quotedUdp buf + 4 ≤ n

theorem hlen_le (buf : Nat → UInt8) (off : Nat) : hlen buf off ≤ 60 := by
  unfold hlen
  omega

theorem scanAt_within {type code : UInt8} {hip udp : Nat} {sport : Int} (hhip : hip + 20 ≤ n)
    (is : List Nat) :
    Within (· < n) buf (scanAt e d type code hip udp sport is) ↔
      ((∃ i ∈ is, (d.client i).wants sport = true) → udp + 4 ≤ n) := by
  induction is with
  | nil => exact iff_of_true (within_pure []) (fun ⟨_, hi, _⟩ => absurd hi List.not_mem_nil)
  | cons i is ih =>
    unfold scanAt
    by_cases hw : (d.client i).wants sport = true
    · have haddr : ∀ j ∈ (List.range 4).map (hip + 16 + ·), j < n := by
        intro j hj
        obtain ⟨k, hk, rfl⟩ := List.mem_map.mp hj
        have hlt := List.mem_range.mp hk
        omega
      rw [if_pos hw, within_bind, within_bind, within_bind, within_bind, within_cellsOf, within_cell,
        within_cell, ih]
      constructor
      · intro h _
        have h3 := h.2.2.1
        omega
      · intro h
        have h4 := h ⟨i, List.mem_cons_self .., hw⟩
        exact ⟨haddr, by omega, by omega, fun _ => h4, within_pure _⟩
    · rw [if_neg hw, ih]
      constructor
      · rintro h ⟨j, hj, hwj⟩
        rcases List.mem_cons.mp hj with rfl | hj
        · exact absurd hwj hw
        · exact h ⟨j, hj, hwj⟩
      · rintro h ⟨j, hj, hwj⟩
        exact h ⟨j, List.mem_cons_of_mem _ hj, hwj⟩

/-- **What `readable_v4` looks at is received exactly if the quoted ports are**, where it comes to
them. -/
theorem readableV4At_within (hn : 20 ≤ n) :
    Within (· < n) buf (readableV4At e d n) ↔ (ReachesUdp buf n → PortsIn e d buf n) := by
  have hle := hlen_le buf 0
  have hhlen : (buf 0).toNat % 16 * 4 = hlen buf 0 := rfl
  unfold readableV4At
  dsimp only
  rw [within_bind, within_cell, run_cell, hhlen, and_iff_right (by omega : 0 < n)]
  by_cases h8 : (n : Int) - hlen buf 0 < 8
  · rw [if_pos h8]
    refine iff_of_true (within_pure _) fun hr => ?_
    have hquote := hr.quote
    omega
  rw [if_neg h8, within_bind, within_cell, within_bind, within_cell, run_cell, run_cell,
    and_iff_right (by omega : hlen buf 0 < n), and_iff_right (by omega : hlen buf 0 + 1 < n)]
  by_cases htype : buf (hlen buf 0) = ICMP_UNREACH ∨ buf (hlen buf 0) = ICMP_TIMXCEED ∨
      buf (hlen buf 0) = ICMP_SOURCEQUENCH
  · rw [if_pos htype]
    by_cases h36 : (n : Int) - hlen buf 0 < 8 + 20 + 8
    · rw [if_pos h36]
      refine iff_of_true (within_pure _) fun hr => ?_
      have hquote := hr.quote
      omega
    · have hprinted : ∀ i ∈ (List.range 8).map (hlen buf 0 + 8 + 12 + ·), i < n := by
        intro i hi
        obtain ⟨k, hk, rfl⟩ := List.mem_map.mp hi
        have hlt := List.mem_range.mp hk
        omega
      rw [if_neg h36, within_bind, within_cell, within_bind, within_cellsOf, within_bind, within_cell,
        run_cell, run_cell, and_iff_right (by omega : hlen buf 0 + 8 < n), and_iff_right hprinted,
        and_iff_right (by omega : hlen buf 0 + 8 + 9 < n)]
      by_cases hproto : buf (hlen buf 0 + 8 + 9) = IPPROTO_UDP
      · have hports : (ReachesUdp buf n → PortsIn e d buf n) ↔ PortsIn e d buf n :=
          ⟨fun h => h ⟨htype, by omega, hproto⟩, fun h _ => h⟩
        rw [if_pos hproto, hports, within_bind, within_cell, within_bind, within_cell, within_bind,
          scanAt_within (by omega), run_cell, run_cell]
        have hudp : hlen buf 0 + 8 + (buf (hlen buf 0 + 8)).toNat % 16 * 4 = quotedUdp buf := rfl
        rw [hudp]
        constructor
        · intro h
          refine ⟨h.2.1, fun hw => h.2.2.1 ?_⟩
          obtain ⟨i, hi, hwants⟩ := hw
          exact ⟨i, List.mem_range.mpr hi, hwants⟩
        · intro h
          have hsport := h.sport
          refine ⟨by omega, by omega, fun hw => h.dport ?_, within_pure _⟩
          obtain ⟨i, hi, hwants⟩ := hw
          exact ⟨i, List.mem_range.mp hi, hwants⟩
      · rw [if_neg hproto]
        exact iff_of_true (within_pure _) (fun hr => absurd hr.proto hproto)
  · rw [if_neg htype]
    exact iff_of_true (within_pure _) (fun hr => absurd hr.type htype)

/-! ## the bytes received -/

/-- `readable_v4` uses received bytes only, so whatever else is in the buffer it does the same -/
structure Received (e : Endian) (d : Daemon) (buf : Nat → UInt8) (n : Nat) : Prop where
  within : Within (· < n) buf (readableV4At e d n)
  same : ∀ buf', (∀ k < n, buf' k = buf k) → readableV4 e d buf' n = readableV4 e d buf n

/-- **Which datagrams are read from what was received.**  Every byte that `readable_v4` uses is among
the `n` received, and what it does depends on these only, exactly when a datagram whose quoted ports it
comes to has them: the source port behind the quoted header of whatever length, and the destination port
where a scanned slot wants the source port. -/
theorem received_iff (e : Endian) (d : Daemon) (buf : Nat → UInt8) (n : Nat) (hn : 20 ≤ n) :
    Received e d buf n ↔ (ReachesUdp buf n → PortsIn e d buf n) := by
  rw [← readableV4At_within hn]
  constructor
  · exact fun h => h.within
  · intro h
    refine ⟨h, fun buf' hbuf => ?_⟩
    rw [← readableV4At_run, ← readableV4At_run]
    exact h.run_eq hbuf

/-- a port-unreachable message of 56 bytes -/
theorem received_iff_portUnreach : Received .big (tableOf [⟨10, AF_INET, 1234⟩, ⟨11, AF_INET, 4321⟩])
    portUnreach 56 :=
  (received_iff .big _ portUnreach 56 (by decide)).mpr
    (fun _ => ⟨by decide, fun _ => by decide⟩)

/-- a message of 36 bytes whose quoted header is of 60: behind them is what an earlier datagram has
left, and the client that wants it as a port is told -/
def longQuote (left0 left1 : UInt8) : Nat → UInt8 := fun k =>
  ([0x45] ++ List.replicate 19 0 ++ [3, 3, 0, 0, 0, 0, 0, 0, 0x4f] ++ List.replicate 8 0 ++
    [IPPROTO_UDP] ++ List.replicate 50 0 ++ [left0, left1, 0, 53]).getD k 0

/-- not even a message to be written depends on the bytes received only -/
theorem not_received : ¬ ∀ (e : Endian) (d : Daemon) (buf buf' : Nat → UInt8) (n : Nat), 20 ≤ n →
    (∀ k < n, buf' k = buf k) →
    (readableV4 e d buf' n).acts.length = (readableV4 e d buf n).acts.length := by
  intro h
  have hlen := h .big (tableOf [⟨10, AF_INET, 1234⟩, ⟨11, AF_INET, 4321⟩]) (longQuote 4 210)
    (longQuote 0 0) 56 (by decide) (by decide)
  exact absurd hlen (by decide)

end Unp.Icmpd
