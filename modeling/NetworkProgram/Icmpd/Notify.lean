import Mathlib.Data.List.Basic
import NetworkProgram.Icmpd.Impl

/-!
# Who is told about an ICMP error

`readable_v4` scans the slots below `maxi`, the main loop the slots up to `maxi`.

* `Notifies`       every slot that wants the quoted port gets one message, no other slot any;
* `filter_scan`    what the scan sends to a slot;
* `notifies_iff`   the right slots are told exactly when slot `maxi` is not one of them.
-/

namespace Unp.Icmpd

/-- a slot that no connection has been in -/
def NeverUsed (c : Client) : Prop := c = ⟨-1, AF_UNSPEC, 0⟩ ∨ c = ⟨0, AF_UNSPEC, 0⟩

/-- `maxi` is the largest index ever used, or `-1` -/
structure MaxUsed (d : Daemon) : Prop where
  lo : -1 ≤ d.maxi
  hi : d.maxi < FD_SETSIZE
  above : ∀ i : Nat, i < FD_SETSIZE → d.maxi < i → NeverUsed (d.client i)

/-- the `n` bytes of `buf` are an ICMP error with a complete quoted UDP header -/
structure QuotesUdp (buf : Nat → UInt8) (n : Nat) : Prop where
  type : buf (hlen buf 0) = ICMP_UNREACH ∨ buf (hlen buf 0) = ICMP_TIMXCEED ∨
    buf (hlen buf 0) = ICMP_SOURCEQUENCH
  quote : hlen buf 0 + (8 + 20 + 8) ≤ n
  proto : buf (hlen buf 0 + 8 + 9) = IPPROTO_UDP
  udp : hlen buf 0 + 8 + hlen buf (hlen buf 0 + 8) + 8 ≤ n

/-- where the quoted UDP header is -/
def quotedUdp (buf : Nat → UInt8) : Nat := hlen buf 0 + 8 + hlen buf (hlen buf 0 + 8)

def quotedPort (e : Endian) (buf : Nat → UInt8) : Int :=
  (word e (buf (quotedUdp buf)) (buf (quotedUdp buf + 1))).toNat

/-- the message to slot `i` -/
def notice (e : Endian) (d : Daemon) (buf : Nat → UInt8) (i : Nat) : Act :=
  .err i (d.client i).connfd (quotedPort e buf)
    (icmpdErr e buf (hlen buf 0) (hlen buf 0 + 8) (quotedUdp buf))

def Act.isFor (i : Nat) : Act → Bool
  | .err j _ _ _ => j == i
  | _ => false

/-- every slot that wants the port gets one message, and nothing else is written -/
structure Notifies (e : Endian) (d : Daemon) (buf : Nat → UInt8) (acts : List Act) : Prop where
  slot : ∀ i < FD_SETSIZE, acts.filter (Act.isFor i) =
    if (d.client i).wants (quotedPort e buf) then [notice e d buf i] else []
  only : ∀ a ∈ acts, ∃ i < FD_SETSIZE, a = notice e d buf i

variable {e : Endian} {d : Daemon} {buf : Nat → UInt8} {n : Nat}

theorem Client.wants_iff (c : Client) (sport : Int) :
    c.wants sport = true ↔ 0 ≤ c.connfd ∧ c.family = AF_INET ∧ c.lport = sport := by
  unfold Client.wants
  rw [Bool.and_eq_true, Bool.and_eq_true, decide_eq_true_eq, decide_eq_true_eq, decide_eq_true_eq,
    and_assoc]

theorem NeverUsed.not_wants {c : Client} (h : NeverUsed c) (sport : Int) :
    c.wants sport = false := by
  rw [Bool.eq_false_iff]
  intro hw
  have hfam := ((c.wants_iff sport).mp hw).2.1
  rcases h with rfl | rfl <;> exact absurd hfam (by decide)

/-! ## the scan -/

/-- `for (i = 0; i < k; ++i)` -/
def scan (e : Endian) (d : Daemon) (buf : Nat → UInt8) (k : Nat) : List Act :=
  (List.range k).flatMap (fun i =>
    if (d.client i).wants (quotedPort e buf) then [notice e d buf i] else [])

theorem readableV4_quotesUdp (h : QuotesUdp buf n) :
    (readableV4 e d buf n).acts = scan e d buf d.maxi.toNat := by
  have hquote := h.quote
  have hlen8 : ¬ (n : Int) - hlen buf 0 < 8 := by omega
  have hlen36 : ¬ (n : Int) - hlen buf 0 < 8 + 20 + 8 := by omega
  unfold readableV4
  dsimp only
  rw [if_neg hlen8, if_pos h.type, if_neg hlen36, if_pos h.proto]
  rfl

theorem scan_succ (k : Nat) : scan e d buf (k + 1) = scan e d buf k ++
    if (d.client k).wants (quotedPort e buf) then [notice e d buf k] else [] := by
  unfold scan
  rw [List.range_succ, List.flatMap_append, List.flatMap_singleton]

/-- what the scan sends to slot `i`, by induction on its bound -/
theorem filter_scan (i k : Nat) : (scan e d buf k).filter (Act.isFor i) =
    if i < k ∧ (d.client i).wants (quotedPort e buf) then [notice e d buf i] else [] := by
  induction k with
  | zero => rw [if_neg (fun h => absurd h.1 (Nat.not_lt_zero i))]; rfl
  | succ k ih =>
    rw [scan_succ, List.filter_append, ih]
    by_cases hik : i = k
    · subst hik
      rw [if_neg (fun h => absurd h.1 (Nat.lt_irrefl i)), List.nil_append]
      by_cases hw : (d.client i).wants (quotedPort e buf) = true
      · rw [if_pos hw, if_pos ⟨Nat.lt_succ_self i, hw⟩]
        exact List.filter_cons_of_pos (beq_self_eq_true i)
      · rw [if_neg hw, if_neg (fun h => hw h.2)]
        rfl
    · have hlast : (if (d.client k).wants (quotedPort e buf) then [notice e d buf k]
          else []).filter (Act.isFor i) = [] := by
        have hne : ¬ Act.isFor i (notice e d buf k) = true := fun h => hik (eq_of_beq h).symm
        split
        · exact List.filter_cons_of_neg hne
        · rfl
      have hlt : i < k + 1 ↔ i < k := by omega
      rw [hlast, List.append_nil]
      simp only [hlt]

theorem mem_scan {a : Act} {k : Nat} (h : a ∈ scan e d buf k) :
    ∃ i < k, (d.client i).wants (quotedPort e buf) = true ∧ a = notice e d buf i := by
  obtain ⟨i, hi, ha⟩ := List.mem_flatMap.mp h
  split at ha
  · rename_i hw
    exact ⟨i, List.mem_range.mp hi, hw, List.mem_singleton.mp ha⟩
  · exact absurd ha List.not_mem_nil

/-- **The last slot.**  `readable_v4` tells the right clients exactly when the client in slot `maxi`
is not one of them. -/
theorem notifies_iff (e : Endian) (d : Daemon) (buf : Nat → UInt8) (n : Nat) (hmax : MaxUsed d)
    (hq : QuotesUdp buf n) :
    Notifies e d buf (readableV4 e d buf n).acts ↔
      ∀ i : Nat, (i : Int) = d.maxi → (d.client i).wants (quotedPort e buf) = false := by
  have hhi := hmax.hi
  rw [readableV4_quotesUdp hq]
  constructor
  · intro h i hi
    rw [Bool.eq_false_iff]
    intro hw
    have hslot := h.slot i (by omega)
    rw [filter_scan, if_pos hw, if_neg (fun hc => by omega)] at hslot
    exact absurd hslot (List.cons_ne_nil _ _).symm
  · intro h
    refine ⟨?_, ?_⟩
    · intro i hlt
      rw [filter_scan]
      by_cases hw : (d.client i).wants (quotedPort e buf) = true
      · have hle : ¬ d.maxi < i := by
          intro hgt
          rw [(hmax.above i hlt hgt).not_wants] at hw
          exact Bool.false_ne_true hw
        have hne : (i : Int) ≠ d.maxi := by
          intro heq
          rw [h i heq] at hw
          exact Bool.false_ne_true hw
        rw [if_pos hw, if_pos ⟨by omega, hw⟩]
      · rw [if_neg hw, if_neg (fun hc => hw hc.2)]
    · intro a ha
      obtain ⟨i, hi, _, rfl⟩ := mem_scan ha
      exact ⟨i, by omega, rfl⟩

/-! ## one port unreachable -/

/-- a port-unreachable message of 56 bytes about a datagram from port 1234 -/
def portUnreach : Nat → UInt8 := fun k =>
  [0x45, 0, 0, 56, 0, 0, 0, 0, 64, 1, 0, 0, 10, 0, 0, 2, 10, 0, 0, 1,
   3, 3, 0, 0, 0, 0, 0, 0,
   0x45, 0, 0, 40, 0, 0, 0, 0, 64, 17, 0, 0, 10, 0, 0, 1, 10, 0, 0, 2,
   4, 210, 0, 53, 0, 20, 0, 0].getD k 0

theorem portUnreach_quotesUdp : QuotesUdp portUnreach 56 where
  type := Or.inl rfl
  quote := by decide
  proto := rfl
  udp := by decide

/-- the daemon with the given first slots, all of them used -/
def tableOf (cs : List Client) : Daemon where
  client := fun i => cs.getD i ⟨-1, AF_UNSPEC, 0⟩
  maxi := cs.length - 1
  maxfd := 10
  nready := 1
  allset := {3, 4}
  fd4 := 3
  listenfd := 4

theorem tableOf_maxUsed {cs : List Client} (h : cs.length ≤ FD_SETSIZE) : MaxUsed (tableOf cs) where
  lo := by show (-1 : Int) ≤ cs.length - 1; omega
  hi := by show (cs.length : Int) - 1 < FD_SETSIZE; omega
  above := fun i _ hgt => Or.inl (by
    have hgt' : (cs.length : Int) - 1 < i := hgt
    show cs.getD i _ = _
    rw [List.getD_eq_getElem?_getD, List.getElem?_eq_none (by omega)]
    rfl)

/-- a single client, in slot 0, is not told -/
theorem not_notifies : ¬ ∀ (e : Endian) (d : Daemon) (buf : Nat → UInt8) (n : Nat), MaxUsed d →
    QuotesUdp buf n → Notifies e d buf (readableV4 e d buf n).acts := by
  intro h
  have hn := h .big (tableOf [⟨10, AF_INET, 1234⟩]) portUnreach 56 (tableOf_maxUsed (by decide))
    portUnreach_quotesUdp
  have hslot := hn.slot 0 (by decide)
  exact absurd (congrArg List.length hslot) (by decide)

/-- the client in slot 0 of two is told -/
theorem notifies_iff_first : Notifies .big (tableOf [⟨10, AF_INET, 1234⟩, ⟨11, AF_INET, 4321⟩])
    portUnreach
    (readableV4 .big (tableOf [⟨10, AF_INET, 1234⟩, ⟨11, AF_INET, 4321⟩]) portUnreach 56).acts := by
  refine (notifies_iff .big _ portUnreach 56 (tableOf_maxUsed (by decide))
    portUnreach_quotesUdp).mpr (fun i hi => ?_)
  have hi' : (i : Int) = ((2 : Nat) : Int) - 1 := hi
  obtain rfl : i = 1 := by omega
  rfl

end Unp.Icmpd
