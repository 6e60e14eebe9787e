import NetworkProgram.Ifi.Impl
import NetworkProgram.Lib.Grouped

/-!
# The list of interfaces

Only records of the requested family touch the list or `lastname`, so `lastname` is the name of the
one before, up or not.

* `Listed`       one node for each record of an interface that is up, or for the first one;
* `ifi_listed`   what `get_ifi_info` returns.
-/

namespace Unp.Ifi
open Grouped

def requested (family : Int) (records : List IfRecord) : List IfRecord :=
  records.filter (fun r => (r.family.toNat : Int) = family)

def up (ifs : Interfaces) (r : IfRecord) : Bool := ifs.flags r.base &&& IFF_UP != 0

/-- each record with the base name of the one before -/
def withPrev (prev : Option (List UInt8)) (rs : List IfRecord) :
    List (IfRecord × Option (List UInt8)) :=
  rs.zip (prev :: rs.map (fun r => some r.base))

/-- the `sockaddr_in6` or `sockaddr` at `ifr_addr` -/
def IfRecord.sockaddr (r : IfRecord) : List UInt8 := r.addr.take (sockaddrLen true r.family)

def Node.label (n : Node) : List UInt8 × Option (List UInt8) × Nat := (n.name, n.addr, n.myflags)

/-- the list for `records`, with `addr` for the address of the node of a record -/
structure Listed (ifs : Interfaces) (family doaliases : Int) (records : List IfRecord)
    (addr : IfRecord → Option (List UInt8)) : Prop where
  aliases : doaliases ≠ 0 → (ifiInfo ifs family doaliases records).map Node.label =
    ((withPrev none (requested family records)).filter (fun p => up ifs p.1)).map
      (fun p => (p.1.base, addr p.1, if p.2 = some p.1.base then IFI_ALIAS else 0))
  first : doaliases = 0 → Adjacent ((requested family records).map IfRecord.base) →
    (ifiInfo ifs family doaliases records).map Node.label =
      ((firsts IfRecord.base (requested family records)).filter (up ifs)).map
        (fun r => (r.base, addr r, 0))

variable {ifs : Interfaces} {family doaliases : Int} {s : Acc} {r : IfRecord}
  {records rs : List IfRecord} {myflags : Nat}

/-! ## one record -/

theorem base_length (r : IfRecord) : r.base.length < IFNAMSIZ :=
  Nat.lt_of_le_of_lt (List.takeWhile_prefix _).length_le r.name_lt

def nodeAddr (r : IfRecord) : Option (List UInt8) :=
  if r.family = AF_INET ∨ r.family = AF_INET6 then some r.sockaddr else none

theorem mkNode_label : (mkNode ifs r myflags).label = (r.base, nodeAddr r, myflags) := by
  have hname : r.base.take (IFI_NAME - 1) = r.base :=
    List.take_of_length_le (Nat.le_of_lt_succ (base_length r))
  have haddr : (addrLen r.family).map (fun len => r.addr.take len) = nodeAddr r := by
    unfold addrLen nodeAddr IfRecord.sockaddr sockaddrLen
    by_cases h4 : r.family = AF_INET
    · have hne : AF_INET ≠ AF_INET6 := by decide
      simp [h4, hne]
    · by_cases h6 : r.family = AF_INET6
      · have hne : AF_INET6 ≠ AF_INET := by decide
        simp [h6, hne]
      · simp [h4, h6]
  unfold mkNode Node.label
  dsimp only
  rw [hname, haddr]

theorem insert_other (h : (r.family.toNat : Int) ≠ family) : insert ifs family doaliases s r = s :=
  if_pos h

theorem insert_aliases (hd : doaliases ≠ 0) (h : (r.family.toNat : Int) = family) :
    insert ifs family doaliases s r =
      ⟨s.list ++ if up ifs r then [mkNode ifs r (if s.lastname = r.base then IFI_ALIAS else 0)] else [],
        r.base⟩ := by
  unfold insert up
  rw [if_neg (not_not.mpr h), if_neg (fun hc => hd hc.2)]
  by_cases hup : ifs.flags r.base &&& IFF_UP = 0
  · simp [hup]
  · simp [hup]

theorem insert_again (hd : doaliases = 0) (h : s.lastname = r.base) :
    insert ifs family doaliases s r = s := by
  unfold insert
  split
  · rfl
  · rw [if_pos ⟨h, hd⟩]

theorem insert_first (h : (r.family.toNat : Int) = family) (hne : s.lastname ≠ r.base) :
    insert ifs family doaliases s r =
      ⟨s.list ++ if up ifs r then [mkNode ifs r 0] else [], r.base⟩ := by
  unfold insert up
  rw [if_neg (not_not.mpr h), if_neg (fun hc => hne hc.1)]
  by_cases hup : ifs.flags r.base &&& IFF_UP = 0
  · simp [hup]
  · simp [hup, hne]

/-! ## all of them -/

theorem foldl_requested (s : Acc) (records : List IfRecord) :
    records.foldl (insert ifs family doaliases) s =
      (requested family records).foldl (insert ifs family doaliases) s := by
  induction records generalizing s with
  | nil => rfl
  | cons r records ih =>
    unfold requested
    by_cases h : (r.family.toNat : Int) = family
    · rw [List.filter_cons_of_pos (by simpa using h), List.foldl_cons, List.foldl_cons, ih]
      rfl
    · rw [List.filter_cons_of_neg (by simpa using h), List.foldl_cons, insert_other h, ih]
      rfl

theorem mem_requested : r ∈ requested family records ↔
    r ∈ records ∧ (r.family.toNat : Int) = family := by
  unfold requested
  rw [List.mem_filter, decide_eq_true_iff]

/-- `prev` is `lastname` -/
theorem foldl_aliases (hd : doaliases ≠ 0) (hrs : ∀ r ∈ rs, (r.family.toNat : Int) = family)
    (prev : Option (List UInt8)) (hprev : ∀ r ∈ rs, prev = some r.base ↔ s.lastname = r.base) :
    (rs.foldl (insert ifs family doaliases) s).list = s.list ++
      ((withPrev prev rs).filter (fun p => up ifs p.1)).map
        (fun p => mkNode ifs p.1 (if p.2 = some p.1.base then IFI_ALIAS else 0)) := by
  induction rs generalizing s prev with
  | nil => exact (List.append_nil _).symm
  | cons r rs ih =>
    have hcons : withPrev prev (r :: rs) = (r, prev) :: withPrev (some r.base) rs := rfl
    have hr := hprev r (List.mem_cons_self ..)
    rw [List.foldl_cons, insert_aliases hd (hrs r (List.mem_cons_self ..)),
      ih (fun r' h' => hrs r' (List.mem_cons_of_mem _ h')) (some r.base)
        (fun r' _ => Option.some_inj), hcons, List.append_assoc]
    congr 1
    rw [List.filter_cons]
    by_cases hup : up ifs r = true
    · rw [if_pos hup, if_pos hup, List.map_cons]
      simp only [hr]
      rfl
    · rw [if_neg hup, if_neg hup]
      rfl

theorem foldl_first (hd : doaliases = 0) (hrs : ∀ r ∈ rs, (r.family.toNat : Int) = family) :
    (rs.foldl (insert ifs family doaliases) s).list = s.list ++
      ((fresh IfRecord.base s.lastname rs).filter (up ifs)).map (fun r => mkNode ifs r 0) := by
  induction rs generalizing s with
  | nil => exact (List.append_nil _).symm
  | cons r rs ih =>
    have hrest : ∀ r' ∈ rs, (r'.family.toNat : Int) = family :=
      fun r' h' => hrs r' (List.mem_cons_of_mem _ h')
    rw [List.foldl_cons, fresh]
    by_cases hlast : s.lastname = r.base
    · rw [insert_again hd hlast, if_pos hlast, ih hrest]
    · rw [insert_first (hrs r (List.mem_cons_self ..)) hlast, if_neg hlast, ih hrest,
        List.append_assoc]
      congr 1
      by_cases hup : up ifs r = true
      · rw [if_pos hup, List.filter_cons_of_pos hup, List.map_cons]
        rfl
      · rw [if_neg hup, List.filter_cons_of_neg hup]
        rfl

/-- **What `get_ifi_info` returns.**  With `doaliases` there is a node for each record whose interface
is up, an alias if the record before is of the same interface; without, where the records of an
interface are adjacent, one for the first record of each.  A node of `AF_INET` or `AF_INET6` has the
address of its record, and others have none. -/
theorem ifi_listed (ifs : Interfaces) (family doaliases : Int) (records : List IfRecord)
    (hbase : ∀ r ∈ records, r.base ≠ []) : Listed ifs family doaliases records nodeAddr := by
  have hrs : ∀ r ∈ requested family records, (r.family.toNat : Int) = family :=
    fun r hr => (mem_requested.mp hr).2
  have hbase' : ∀ r ∈ requested family records, [] ≠ r.base :=
    fun r hr => (hbase r (mem_requested.mp hr).1).symm
  constructor
  · intro hd
    unfold ifiInfo
    rw [foldl_requested, foldl_aliases hd hrs none
      (fun r hr => iff_of_false (by simp) (hbase' r hr)), List.nil_append, List.map_map]
    exact List.map_congr_left (fun _ _ => mkNode_label)
  · intro hd hadj
    have hnil : [] ∉ (requested family records).map IfRecord.base := by
      intro hmem
      obtain ⟨r, hr, h0⟩ := List.mem_map.mp hmem
      exact hbase' r hr h0.symm
    unfold ifiInfo
    rw [foldl_requested, foldl_first hd hrs, fresh_eq_firsts hadj hnil, List.nil_append,
      List.map_map]
    exact List.map_congr_left (fun _ _ => mkNode_label)

/-! ## three records -/

/-- `name` with the address 0.0.0.0 -/
def record (name : List UInt8) (name_lt : name.length < IFNAMSIZ) (family : UInt16) : IfRecord :=
  ⟨name, name_lt, family, List.replicate 24 0⟩

def allUp : Interfaces := ⟨fun _ => IFF_UP, fun _ => [], fun _ => []⟩

def loAlias : List IfRecord :=
  [record [108, 111] (by decide) AF_INET, record [108, 111, 58, 49] (by decide) AF_INET,
    record [101, 116, 104, 48] (by decide) AF_INET]

theorem ifi_listed_alias : Listed allUp 2 1 loAlias nodeAddr :=
  ifi_listed allUp 2 1 loAlias (by decide)

/-- a name that begins with the colon passes for a repetition; a node of `AF_PACKET` has no address -/
theorem not_ifi_listed :
    (¬ ∀ (ifs : Interfaces) (doaliases : Int) (records : List IfRecord),
      (∀ r ∈ records, r.name ≠ []) →
        Listed ifs 2 doaliases records (fun r => some r.sockaddr)) ∧
    ¬ ∀ (ifs : Interfaces) (family doaliases : Int) (records : List IfRecord),
      (∀ r ∈ records, r.base ≠ []) →
        Listed ifs family doaliases records (fun r => some r.sockaddr) := by
  constructor
  · intro h
    have hlist := (h allUp 1 [record [58, 49] (by decide) AF_INET] (by decide)).aliases (by decide)
    exact absurd hlist (by decide)
  · intro h
    have hlist := (h allUp 17 1 [record [108, 111] (by decide) 17] (by decide)).aliases (by decide)
    exact absurd hlist (by decide)

end Unp.Ifi
