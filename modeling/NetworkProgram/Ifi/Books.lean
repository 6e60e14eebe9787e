import Mathlib.Data.Fintype.EquivFin
import Mathlib.Data.Nat.Find
import NetworkProgram.Ifi.Heap
import NetworkProgram.Ifi.Walk

/-!
# The books of `get_ifi_info`

Every buffer is freed but the last, which `get_ifi_info` frees when it has read it, and every block of the
list is freed by `free_ifi_info`.  The descriptor is never closed.

* `Request.list`   what a call returns, without the heap;
* `uses_kept`      what any number of calls return, and leave behind.
-/

namespace Unp.Ifi

open Ledger

/-- the list for `r`, by `findBuffer` and `ifiInfo` -/
def Request.list (r : Request) (fuel : Nat) : Option (Except Stop (List Node)) :=
  match findBuffer r.ifreq r.ioctl fuel with
  | none => none
  | some (.error why) => some (.error why)
  | some (.ok buffer) => some (.ok (ifiInfo r.ifs r.family r.doaliases (r.ifr buffer)))

def blockAt : Option Nat → List Res
  | none => []
  | some p => [.block p]

/-- the blocks of an `ifi_info`, in the order in which they are freed -/
def Cell.blocks (ifi : Cell) : List Res :=
  blockAt ifi.addr ++ (blockAt ifi.brdaddr ++ (blockAt ifi.dstaddr ++ [.block ifi.self]))

def blocks (list : List Cell) : List Res := list.flatMap Cell.blocks

variable {src : Source} {ifs : Interfaces} {family doaliases : Int} {ifreq fuel p : Nat}
  {ioctl : Ifconf} {lastlen len : Int} {log log₀ log' : Log} {l : List Res} {r : Request}

theorem blocks_cons (ifi : Cell) (list : List Cell) :
    blocks (ifi :: list) = ifi.blocks ++ blocks list := List.flatMap_cons

theorem blocks_concat (list : List Cell) (ifi : Cell) :
    blocks (list ++ [ifi]) = blocks list ++ ifi.blocks := by
  unfold blocks
  rw [List.flatMap_append, List.flatMap_singleton]

/-! ## the buffer -/

theorem gains_malloc (src : Source) (h : Gains log₀ log l) :
    Gains log₀ (src.malloc log).2 (.block (src.malloc log).1 :: l) :=
  h.acquire (src.block_fresh _)

theorem gains_free (h : Gains log₀ log (.block p :: l)) : Gains log₀ (free p log) l := h.release

/-- `sizingOn` is `sizing` with one block, the buffer -/
theorem sizingOn_eq (src : Source) (ifreq : Nat) (ioctl : Ifconf) (fuel : Nat) (lastlen len : Int)
    (h : Gains log₀ log l) :
    match sizingOn src ifreq ioctl fuel lastlen len log with
    | none => sizing ifreq ioctl fuel lastlen len = none
    | some (.error why) => sizing ifreq ioctl fuel lastlen len = some (.error why)
    | some (.ok (buffer, buf, log')) =>
      sizing ifreq ioctl fuel lastlen len = some (.ok buffer) ∧ Gains log₀ log' (.block buf :: l) := by
  induction fuel generalizing lastlen len log with
  | zero => rfl
  | succ fuel ih =>
    have hbuf := gains_malloc src h
    rw [sizingOn, sizing]
    cases hans : ioctl len with
    | error errno =>
      dsimp only
      by_cases hstop : errno ≠ EINVAL ∨ lastlen ≠ 0
      · rw [if_pos hstop, if_pos hstop]
      · rw [if_neg hstop, if_neg hstop]
        exact ih lastlen (toInt (len + 10 * ifreq)) (gains_free hbuf)
    | ok bytes =>
      dsimp only
      by_cases hsame : (bytes.length : Int) = lastlen
      · rw [if_pos hsame, if_pos hsame]
        exact ⟨rfl, hbuf⟩
      · rw [if_neg hsame, if_neg hsame]
        exact ih bytes.length (toInt (len + 10 * ifreq)) (gains_free hbuf)

/-! ## the list -/

theorem gains_callocFor (src : Source) (addr : Option (List UInt8)) (h : Gains log₀ log l) :
    Gains log₀ (callocFor src addr log).2 (blockAt (callocFor src addr log).1 ++ l) := by
  cases addr with
  | none => exact h
  | some _ => exact gains_malloc src h

theorem gains_callocNode (src : Source) (n : Node) (h : Gains log₀ log l) :
    Gains log₀ (callocNode src n log).2 ((callocNode src n log).1.blocks ++ l) := by
  have hself := gains_malloc src h
  have haddr := gains_callocFor src n.addr hself
  have hbrd := gains_callocFor src n.brdaddr haddr
  have hdst := gains_callocFor src n.dstaddr hbrd
  refine hdst.perm ?_
  unfold Cell.blocks callocNode
  rw [List.perm_iff_count]
  intro x
  simp only [List.count_append, List.count_cons, List.count_nil]
  omega

/-- `s` is the list in memory, `a` the list of `insert` -/
structure Builds (log₀ : Log) (l : List Res) (s : AccOn) (a : Acc) : Prop where
  nodes : s.list.map Cell.node = a.list
  lastname : s.lastname = a.lastname
  gains : Gains log₀ s.log (blocks s.list ++ l)

theorem Builds.insert {s : AccOn} {a : Acc} (h : Builds log₀ l s a) (src : Source)
    (ifs : Interfaces) (family doaliases : Int) (rec : IfRecord) :
    Builds log₀ l (insertOn src ifs family doaliases s rec)
      (Ifi.insert ifs family doaliases a rec) := by
  unfold insertOn Ifi.insert
  rw [h.lastname]
  by_cases hother : (rec.family.toNat : Int) ≠ family
  · rw [if_pos hother, if_pos hother]
    exact h
  rw [if_neg hother, if_neg hother]
  by_cases hagain : a.lastname = rec.base ∧ doaliases = 0
  · rw [if_pos hagain, if_pos hagain]
    exact h
  rw [if_neg hagain, if_neg hagain]
  dsimp only
  by_cases hup : ifs.flags rec.base &&& IFF_UP = 0
  · rw [if_pos hup, if_pos hup]
    exact ⟨h.nodes, rfl, h.gains⟩
  rw [if_neg hup, if_neg hup]
  have hnode := gains_callocNode src
    (mkNode ifs rec (if a.lastname = rec.base then IFI_ALIAS else 0)) h.gains
  refine ⟨?_, rfl, ?_⟩
  · rw [List.map_append, h.nodes]
    rfl
  · refine hnode.perm ?_
    dsimp only
    rw [blocks_concat, ← List.append_assoc]
    exact List.perm_append_comm.append_right l

theorem Builds.foldl {s : AccOn} {a : Acc} (h : Builds log₀ l s a) (src : Source)
    (ifs : Interfaces) (family doaliases : Int) (records : List IfRecord) :
    Builds log₀ l (records.foldl (insertOn src ifs family doaliases) s)
      (records.foldl (Ifi.insert ifs family doaliases) a) := by
  induction records generalizing s a with
  | nil => exact h
  | cons rec records ih => exact ih (h.insert src ifs family doaliases rec)

/-! ## one call -/

theorem gains_socket (src : Source) (h : Gains log₀ log l) :
    Gains log₀ (src.socket log).2 (.fd (src.socket log).1 :: l) :=
  h.acquire (src.fd_fresh _)

/-- a call returns what it does without the heap, and holds the list and a descriptor -/
theorem getIfiInfo_eq (src : Source) (r : Request) (fuel : Nat) (h : Gains log₀ log l) :
    match getIfiInfo src r fuel log with
    | none => r.list fuel = none
    | some (.error why) => r.list fuel = some (.error why)
    | some (.ok (list, log')) =>
      r.list fuel = some (.ok (list.map Cell.node)) ∧
        ∃ fd, Gains log₀ log' (blocks list ++ .fd fd :: l) := by
  have hsize := sizingOn_eq src r.ifreq r.ioctl fuel 0 (toInt (100 * r.ifreq))
    (gains_socket src h)
  unfold getIfiInfo findBufferOn Request.list findBuffer
  dsimp only
  generalize hon : sizingOn src r.ifreq r.ioctl fuel 0 (toInt (100 * r.ifreq)) (src.socket log).2 = res
    at hsize ⊢
  match res, hsize with
  | none, hsize => rw [hsize]
  | some (.error why), hsize => rw [hsize]
  | some (.ok (buffer, buf, log')), hsize =>
    obtain ⟨hplain, hgains⟩ := hsize
    rw [hplain]
    have hstart : Builds log₀ (.block buf :: .fd (src.socket log).1 :: l) ⟨[], [], log'⟩ ⟨[], []⟩ :=
      ⟨rfl, rfl, hgains⟩
    have hend := hstart.foldl src r.ifs r.family r.doaliases (r.ifr buffer)
    refine ⟨by rw [hend.nodes]; rfl, (src.socket log).1, gains_free ?_⟩
    exact hend.gains.perm List.perm_middle

theorem gains_freeOpt {p : Option Nat} (h : Gains log₀ log (blockAt p ++ l)) :
    Gains log₀ (freeOpt p log) l := by
  cases p with
  | none => exact h
  | some p => exact gains_free h

theorem gains_freeIfi {ifi : Cell} (h : Gains log₀ log (ifi.blocks ++ l)) :
    Gains log₀ (freeIfi ifi log) l := by
  unfold Cell.blocks at h
  rw [List.append_assoc, List.append_assoc, List.append_assoc] at h
  exact gains_free (gains_freeOpt (gains_freeOpt (gains_freeOpt h)))

theorem gains_freeIfiInfo {list : List Cell} (h : Gains log₀ log (blocks list ++ l)) :
    Gains log₀ (freeIfiInfo list log) l := by
  induction list generalizing log with
  | nil => exact h
  | cons ifi list ih =>
    rw [blocks_cons, List.append_assoc] at h
    exact ih (gains_freeIfi h)

/-! ## any number of calls -/

theorem uses_gains (rs : List Request) {lists : List (List Node)} {fds : List Nat}
    (h : Gains log₀ log (fds.map Res.fd)) (hu : uses src fuel rs log = some (.ok (lists, log'))) :
    rs.map (fun r => r.list fuel) = lists.map (fun list => some (.ok list)) ∧
      ∃ fds' : List Nat, fds'.length = fds.length + rs.length ∧ Gains log₀ log' (fds'.map Res.fd) := by
  induction rs generalizing lists fds log with
  | nil =>
    obtain ⟨rfl, rfl⟩ := Prod.mk.inj (Except.ok.inj (Option.some.inj hu))
    exact ⟨rfl, fds, rfl, h⟩
  | cons r rs ih =>
    have hcall := getIfiInfo_eq src r fuel h
    rw [uses] at hu
    generalize getIfiInfo src r fuel log = res at hcall hu
    match res, hcall, hu with
    | some (.ok (list, log₁)), hcall, hu =>
      obtain ⟨hlist, fd, hgains⟩ := hcall
      have hfreed : Gains log₀ (freeIfiInfo list log₁) ((fd :: fds).map Res.fd) :=
        gains_freeIfiInfo hgains
      dsimp only at hu
      generalize hrest : uses src fuel rs (freeIfiInfo list log₁) = res' at hu
      match res', hrest, hu with
      | some (.ok (lists', log₂)), hrest, hu =>
        obtain ⟨rfl, rfl⟩ := Prod.mk.inj (Except.ok.inj (Option.some.inj hu))
        obtain ⟨hlists, fds', hlen, hg'⟩ := ih hfreed hrest
        refine ⟨?_, fds', ?_, hg'⟩
        · rw [List.map_cons, List.map_cons, hlists, hlist]
        · rw [hlen, List.length_cons, List.length_cons]
          omega

/-- when no call fails without the heap, none does with it -/
theorem uses_succeed (rs : List Request) {lists : List (List Node)} (h : Gains log₀ log l)
    (hlists : rs.map (fun r => r.list fuel) = lists.map (fun list => some (.ok list))) :
    ∃ log', uses src fuel rs log = some (.ok (lists, log')) := by
  induction rs generalizing lists log l with
  | nil =>
    obtain rfl := List.map_eq_nil_iff.mp hlists.symm
    exact ⟨log, rfl⟩
  | cons r rs ih =>
    obtain ⟨list, lists, rfl, hlist, hrest⟩ := List.map_eq_cons_iff.mp hlists.symm
    have hr : r.list fuel = some (.ok list) := hlist.symm
    have hcall := getIfiInfo_eq src r fuel h
    rw [hr] at hcall
    rw [uses]
    generalize getIfiInfo src r fuel log = res at hcall ⊢
    match res, hcall with
    | some (.ok (cells, log₁)), hcall =>
      obtain ⟨hcells, fd, hgains⟩ := hcall
      obtain ⟨log', hlog'⟩ := ih (gains_freeIfiInfo hgains) hrest.symm
      refine ⟨log', ?_⟩
      dsimp only
      rw [hlog', Except.ok.inj (Option.some.inj hcells)]

/-- **The blocks are freed, the descriptors are not.**  However often `get_ifi_info` is called and its
list given to `free_ifi_info`, the lists are those without the heap, nothing is freed twice or before it
is allocated, and all that is held in the end beyond what was is one descriptor for each call. -/
theorem uses_kept (src : Source) (fuel : Nat) (rs : List Request) (log : Log) (hlog : Balanced log) :
    (∀ lists, (∃ log', uses src fuel rs log = some (.ok (lists, log'))) ↔
      rs.map (fun r => r.list fuel) = lists.map (fun list => some (.ok list))) ∧
    ∀ lists log', uses src fuel rs log = some (.ok (lists, log')) → Balanced log' ∧
      ∃ fds : List Nat, fds.length = rs.length ∧ fds.Nodup ∧
        (∀ fd ∈ fds, Res.fd fd ∉ held log) ∧
        ∀ x, x ∈ held log' ↔ x ∈ fds.map Res.fd ∨ x ∈ held log := by
  have hstart : Gains log log (([] : List Nat).map Res.fd) := Gains.refl hlog
  refine ⟨fun lists => ⟨?_, uses_succeed rs hstart⟩, fun lists log' hu => ?_⟩
  · rintro ⟨log', hu⟩
    exact (uses_gains rs hstart hu).1
  · obtain ⟨-, fds, hlen, hg⟩ := uses_gains rs hstart hu
    refine ⟨hg.balanced, fds, ?_, hg.nodup.of_map, ?_, hg.held⟩
    · rw [hlen, List.length_nil, Nat.zero_add]
    · exact fun fd hfd => hg.fresh _ (List.mem_map_of_mem hfd)

theorem exists_block (held : Finset Res) : ∃ p, Res.block p ∉ held := by
  obtain ⟨p, hp⟩ := Infinite.exists_notMem_finset (held.image fun | .block p => p | .fd _ => 0)
  exact ⟨p, fun h => hp (Finset.mem_image_of_mem _ h)⟩

theorem exists_fd (held : Finset Res) : ∃ fd, Res.fd fd ∉ held := by
  obtain ⟨fd, hfd⟩ := Infinite.exists_notMem_finset (held.image fun | .block _ => 0 | .fd fd => fd)
  exact ⟨fd, fun h => hfd (Finset.mem_image_of_mem _ h)⟩

/-- the lowest block and the lowest descriptor that is free -/
def lowest : Source where
  block held := Nat.find (exists_block held)
  fd held := Nat.find (exists_fd held)
  block_fresh held := Nat.find_spec (exists_block held)
  fd_fresh held := Nat.find_spec (exists_fd held)

/-- `eth0` and its alias, in records of 32 bytes -/
def eth0Bytes : List UInt8 :=
  [101, 116, 104, 48] ++ List.replicate 12 0 ++ [2, 0] ++ List.replicate 14 0 ++
    ([101, 116, 104, 48, 58, 49] ++ List.replicate 10 0 ++ [2, 0] ++ List.replicate 14 1)

def eth0 : Request where
  family := 2
  doaliases := 1
  ifreq := 32
  ioctl _ := .ok eth0Bytes
  ifs := ⟨fun _ => 3, fun _ => List.replicate 16 255, fun _ => []⟩
  ipv6 := false
  e := .little
  stale _ := 0

theorem eth0_ioctl (len : Int) : eth0.ioctl len = .ok eth0Bytes := rfl

def eth0Nodes : List Node :=
  [⟨[101, 116, 104, 48], 3, 0, some ([2, 0] ++ List.replicate 14 0), some (List.replicate 16 255), none⟩,
    ⟨[101, 116, 104, 48], 3, IFI_ALIAS, some ([2, 0] ++ List.replicate 14 1),
      some (List.replicate 16 255), none⟩]

theorem eth0_list : eth0.list 2 = some (.ok eth0Nodes) := by
  have hnext : ∀ ptr, next false .little (memory ⟨3520, eth0Bytes⟩ eth0.stale) ptr = ptr + 32 :=
    fun _ => rfl
  have hwalk := walk_steps (by decide) hnext 2
  have hifr : eth0.ifr ⟨3520, eth0Bytes⟩ =
      [0, 32].map (recordAt .little (memory ⟨3520, eth0Bytes⟩ eth0.stale)) :=
    congrArg (List.map _) hwalk.examined
  have hbuf : findBuffer eth0.ifreq eth0.ioctl 2 = some (.ok ⟨3520, eth0Bytes⟩) := by
    have hlen : (eth0Bytes.length : Int) ≠ 0 := by decide
    have hnext : toInt (toInt (100 * eth0.ifreq) + 10 * eth0.ifreq) = 3520 := by decide
    unfold findBuffer
    simp only [sizing, eth0_ioctl, if_neg hlen, if_pos, hnext]
  unfold Request.list
  rw [hbuf]
  dsimp only
  rw [hifr]
  decide +kernel

/-- two calls, with two nodes in each list -/
theorem uses_kept_twice : ∃ log', uses lowest 2 [eth0, eth0] [] =
      some (.ok ([eth0Nodes, eth0Nodes], log')) ∧ Balanced log' ∧
    ∃ fds : List Nat, fds.length = 2 ∧ ∀ x, x ∈ held log' ↔ x ∈ fds.map Res.fd := by
  obtain ⟨hlists, hkept⟩ := uses_kept lowest 2 [eth0, eth0] [] trivial
  obtain ⟨log', hu⟩ := (hlists [eth0Nodes, eth0Nodes]).mpr (by
    rw [List.map_cons, List.map_cons, eth0_list]
    rfl)
  obtain ⟨hbal, fds, hlen, -, -, hheld⟩ := hkept _ log' hu
  exact ⟨log', hu, hbal, fds, hlen, fun x => (hheld x).trans (or_iff_left (Finset.notMem_empty x))⟩

end Unp.Ifi
