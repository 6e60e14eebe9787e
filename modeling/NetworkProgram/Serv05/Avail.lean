import Mathlib.Algebra.BigOperators.Group.Finset.Basic
import NetworkProgram.Lib.Run
import NetworkProgram.Serv05.Impl

/-!
# `navail` counts the children without a connection

`Worker.load` is the number of connections of a child that the parent has not been told of as done.
`Inv`: it is at most the child's `child_status`, `navail` is the number of children with status 0,
and a pipe that `Select` has reported stays readable until the loop has come to it.  Every step
keeps it (`Inv.step`), unless the parent reads the end of a pipe.
-/

namespace Unp.Serv05
open Finset Trans

variable {s t : St} {e : Event}

/-! ## loads -/

/-- the connections passed to a child and not reported as done -/
def Worker.load (w : Worker) : Nat := w.inbox.length + w.phase.isServing.toNat + w.outbox

def St.outstanding (s : St) (i : Nat) : Nat := (s.worker i).load

def Child.isFree (c : Child) : Bool := c.childStatus = 0

/-- the number of children with `child_status` 0 -/
def St.free (s : St) : Nat := Tally.count (range s.nchildren) Child.isFree s.child

/-- a connection is about to be passed to child `i` -/
def Pc.writes : Pc → Nat → Bool
  | .write j _, i => j == i
  | _, _ => false

/-- an accepted connection that is not passed yet -/
def Pc.inHand : Pc → Nat
  | .write _ _ => 1
  | _ => 0

/-- the loop has not come to child `i` since `Select` -/
def Pc.due : Pc → Nat → Prop
  | .accept, _ => True
  | .write _ _, _ => True
  | .scan k, i => k ≤ i
  | _, _ => False

def Worker.readable (w : Worker) : Prop := 0 < w.outbox ∨ w.phase = .exited

/-- at the loop head or in the second `for`: no connection is on its way -/
def Pc.quiet : Pc → Bool
  | .head => true
  | .scan _ => true
  | _ => false

theorem load_update {w : Worker} {i j : Nat} : (Function.update s.worker i w j).load
    = if j = i then w.load else s.outstanding j := by
  split
  · rename_i hji
    rw [hji, Function.update_self]
  · rename_i hji
    rw [Function.update_of_ne hji]
    rfl

theorem readable_update {w : Worker} {i : Nat} (hw : (s.worker i).readable → w.readable) :
    ∀ j, (s.worker j).readable → (Function.update s.worker i w j).readable :=
  (Function.forall_update_iff s.worker (fun j w' => (s.worker j).readable → w'.readable)).mpr
    ⟨hw, fun _ _ hread => hread⟩

/-! ## the invariant -/

structure Inv (s : St) : Prop where
  load : ∀ i < s.nchildren,
    ((s.outstanding i + (s.pc.writes i).toNat : Nat) : Int) ≤ (s.child i).childStatus
  status : ∀ i < s.nchildren, (s.child i).childStatus = 0 ∨ (s.child i).childStatus = 1
  avail : s.navail = s.free
  due : ∀ i < s.nchildren, s.pc.due i → s.rset (.pipe i) = true → (s.worker i).readable
  listen : s.pc = .accept → 0 < s.navail
  target : ∀ i connfd, s.pc = .write i connfd → i < s.nchildren ∧ s.accepted = connfd + 1
  passed : (∀ why, s.pc ≠ .stopped why) →
    s.passed.map Prod.fst = List.range (s.accepted - s.pc.inHand)
  total : ∑ i ∈ range s.nchildren, (s.child i).childCount = s.accepted
  found : s.pc ≠ .stopped (.errQuit "no available children" [])

theorem inv_start (n : Nat) : Inv (start n) where
  load := fun _ _ => Int.le_refl 0
  status := fun _ _ => Or.inl rfl
  avail := by
    have hfree : (start n).free = (range n).card := by
      unfold St.free Tally.count
      exact congrArg card (filter_true_of_mem (fun i _ => rfl))
    rw [hfree, card_range]
    rfl
  due := fun _ _ hdue _ => hdue.elim
  listen := fun h => by cases h
  target := fun _ _ h => by cases h
  passed := fun _ => rfl
  total := sum_const_zero
  found := fun h => by cases h

/-- the state with nothing on its way -/
theorem Inv.of_quiet (hpc : t.pc.quiet = true)
    (hload : ∀ i < t.nchildren, (t.outstanding i : Int) ≤ (t.child i).childStatus)
    (hstatus : ∀ i < t.nchildren, (t.child i).childStatus = 0 ∨ (t.child i).childStatus = 1)
    (havail : t.navail = t.free)
    (hdue : ∀ i < t.nchildren, t.pc.due i → t.rset (.pipe i) = true → (t.worker i).readable)
    (hpassed : t.passed.map Prod.fst = List.range t.accepted)
    (htotal : ∑ i ∈ range t.nchildren, (t.child i).childCount = t.accepted) : Inv t := by
  have hhand : t.pc.inHand = 0 ∧ ∀ i, t.pc.writes i = false := by
    cases hp : t.pc with
    | head => exact ⟨rfl, fun _ => rfl⟩
    | scan i => exact ⟨rfl, fun _ => rfl⟩
    | _ => rw [hp] at hpc; cases hpc
  refine ⟨?_, hstatus, havail, hdue, ?_, ?_, ?_, htotal, ?_⟩
  · intro i hi
    rw [hhand.2 i]
    exact hload i hi
  · intro hacc
    rw [hacc] at hpc
    cases hpc
  · intro i connfd hw
    rw [hw] at hpc
    cases hpc
  · intro _
    rw [hhand.1]
    exact hpassed
  · intro hst
    rw [hst] at hpc
    cases hpc

/-- what the invariant says at a quiet state -/
theorem Inv.quiet (h : Inv s) (hpc : s.pc.quiet = true) :
    (∀ i < s.nchildren, (s.outstanding i : Int) ≤ (s.child i).childStatus) ∧
    s.passed.map Prod.fst = List.range s.accepted := by
  have hload := h.load
  have hpassed := h.passed
  cases hp : s.pc with
  | head =>
    rw [hp] at hload hpassed
    exact ⟨hload, hpassed (fun _ hc => by cases hc)⟩
  | scan i =>
    rw [hp] at hload hpassed
    exact ⟨hload, hpassed (fun _ hc => by cases hc)⟩
  | _ => rw [hp] at hpc; cases hpc

theorem quiet_ite {c : Prop} [Decidable c] {pc pc' : Pc} (h : pc.quiet = true)
    (h' : pc'.quiet = true) : (if c then pc else pc').quiet = true := by
  split
  · exact h
  · exact h'

/-! ## the children -/

/-- a child works on: its load does not grow, and its pipe stays readable -/
theorem Inv.setWorker (h : Inv s) {i : Nat} {w : Worker} (hload : w.load ≤ (s.worker i).load)
    (hread : (s.worker i).readable → w.readable) : Inv (s.setWorker i w) where
  load := by
    intro j hj
    have hold := h.load j hj
    show (((Function.update s.worker i w j).load + (s.pc.writes j).toNat : Nat) : Int)
      ≤ (s.child j).childStatus
    rw [load_update]
    split
    · rename_i hji
      subst hji
      have hle : w.load ≤ s.outstanding j := hload
      omega
    · exact hold
  status := h.status
  avail := h.avail
  due := fun j hj hdue hset => readable_update hread j (h.due j hj hdue hset)
  listen := h.listen
  target := h.target
  passed := h.passed
  total := h.total
  found := h.found

/-! ## an entry of `cptr` -/

theorem Inv.status_update (h : Inv s) (i : Nat) {c : Child}
    (hc : c.childStatus = 0 ∨ c.childStatus = 1) : ∀ j < s.nchildren,
    (Function.update s.child i c j).childStatus = 0 ∨
      (Function.update s.child i c j).childStatus = 1 :=
  (Function.forall_update_iff s.child (fun j c' => j < s.nchildren →
    c'.childStatus = 0 ∨ c'.childStatus = 1)).mpr ⟨fun _ => hc, fun j _ => h.status j⟩

theorem Inv.avail_update (h : Inv s) {i : Nat} (hi : i < s.nchildren) (c : Child) :
    ((Tally.count (range s.nchildren) Child.isFree (Function.update s.child i c) : Nat) : Int)
      = s.navail - (s.child i).isFree.toNat + c.isFree.toNat := by
  have hcount := Tally.count_update (p := Child.isFree) (f := s.child) (mem_range.mpr hi) c
  have havail := h.avail
  unfold St.free at havail
  omega

theorem Inv.total_update (h : Inv s) {i : Nat} (hi : i < s.nchildren) (c : Child) :
    ∑ j ∈ range s.nchildren, (Function.update s.child i c j).childCount
      = s.accepted - (s.child i).childCount + c.childCount := by
  have htot := h.total
  have hsum := Tally.sum_update (f := s.child) Child.childCount (mem_range.mpr hi) c
  omega

/-! ## the parent -/

theorem Inv.select (h : Inv s) (hpc : s.pc = .head) : Inv s.select := by
  obtain ⟨hload, hpassed⟩ := h.quiet (by rw [hpc]; rfl)
  have hread : ∀ i, s.select.rset (.pipe i) = true → (s.worker i).readable := by
    intro i hset
    have hbits : (decide (0 < (s.worker i).outbox) || decide ((s.worker i).phase = .exited)) = true :=
      (Bool.and_eq_true_iff.mp hset).2
    rw [Bool.or_eq_true, decide_eq_true_eq, decide_eq_true_eq] at hbits
    exact hbits
  by_cases hset : s.reported .listen = true
  · have hacc : s.select.pc = .accept := if_pos hset
    refine ⟨?_, h.status, h.avail, fun i _ _ => hread i, ?_, ?_, ?_, h.total, ?_⟩
    · intro i hi
      rw [hacc]
      exact hload i hi
    · -- `listenfd` is not cleared in `rset`
      intro _
      have hint : (!decide (s.navail ≤ 0)) = true := (Bool.and_eq_true_iff.mp hset).1
      have hlt : ¬ s.navail ≤ 0 := by simpa using hint
      show 0 < s.navail
      omega
    · intro i connfd hw
      rw [hacc] at hw
      cases hw
    · intro _
      rw [hacc]
      exact hpassed
    · intro hst
      rw [hacc] at hst
      cases hst
  · have hscan : s.select.pc = .scan 0 := if_neg hset
    exact Inv.of_quiet (by rw [hscan]; rfl) hload h.status h.avail (fun i _ _ => hread i) hpassed
      h.total

/-- with a child free, `Accept` finds one -/
theorem Inv.available (h : Inv s) (hpc : s.pc = .accept) :
    ∃ i, s.available = some i ∧ i < s.nchildren ∧ (s.child i).childStatus = 0 := by
  have hpos : 0 < s.free := by
    have hnav := h.listen hpc
    rw [h.avail] at hnav
    omega
  obtain ⟨k, hk, hfree⟩ := Tally.count_pos_iff.mp hpos
  cases hf : s.available with
  | none =>
    have hnone := List.find?_eq_none.mp hf k (List.mem_range.mpr (mem_range.mp hk))
    exact absurd hfree hnone
  | some i =>
    have hi := List.mem_range.mp (List.mem_of_find?_eq_some hf)
    have hst := List.find?_some hf
    exact ⟨i, rfl, hi, of_decide_eq_true hst⟩

theorem Inv.accept (h : Inv s) (hpc : s.pc = .accept) : Inv s.accept := by
  obtain ⟨k, hfind, hk, hzero⟩ := h.available hpc
  have hacc : s.accept = s.take.mark k s.accepted := by
    have hfind' : s.take.available = some k := hfind
    unfold St.accept
    dsimp only
    rw [hfind']
  rw [hacc]
  refine ⟨?_, ?_, ?_, ?_, (fun hc => by cases hc), ?_, ?_, ?_, (fun hc => by cases hc)⟩
  · intro i hi
    have hold := h.load i hi
    rw [hpc] at hold
    show ((s.outstanding i + ((Pc.write k s.accepted).writes i).toNat : Nat) : Int)
      ≤ (Function.update s.child k ⟨1, (s.child k).childCount + 1⟩ i).childStatus
    by_cases hik : i = k
    · subst hik
      rw [hzero] at hold
      rw [Function.update_self]
      have hw : ((Pc.write i s.accepted).writes i).toNat = 1 := by simp [Pc.writes]
      rw [hw]
      show ((s.outstanding i + 1 : Nat) : Int) ≤ 1
      omega
    · rw [Function.update_of_ne hik]
      have hw : ((Pc.write k s.accepted).writes i).toNat = 0 := by simp [Pc.writes, Ne.symm hik]
      rw [hw]
      exact hold
  · exact h.status_update k (Or.inr rfl)
  · have hcount := h.avail_update hk ⟨1, (s.child k).childCount + 1⟩
    have hold : (s.child k).isFree = true := decide_eq_true hzero
    have hnew : Child.isFree ⟨1, (s.child k).childCount + 1⟩ = false := rfl
    rw [hold, hnew] at hcount
    show s.navail - 1 = ((Tally.count (range s.nchildren) Child.isFree
      (Function.update s.child k ⟨1, (s.child k).childCount + 1⟩) : Nat) : Int)
    rw [hcount]
    exact (Int.add_zero _).symm
  · intro i hi _ hset
    exact h.due i hi (by rw [hpc]; trivial) hset
  · intro i connfd hw
    cases hw
    exact ⟨hk, rfl⟩
  · intro _
    have hold := h.passed (fun why hc => by rw [hpc] at hc; cases hc)
    rw [hpc] at hold
    exact hold
  · have hsum := h.total_update hk ⟨1, (s.child k).childCount + 1⟩
    show ∑ i ∈ range s.nchildren,
      (Function.update s.child k ⟨1, (s.child k).childCount + 1⟩ i).childCount
      = ((s.accepted + 1 : Nat) : Int)
    dsimp only at hsum
    omega

theorem Inv.writeFd (h : Inv s) {i connfd : Nat} (hpc : s.pc = .write i connfd) :
    Inv (s.writeFd i connfd) := by
  refine Inv.of_quiet (quiet_ite rfl rfl) ?_ h.status h.avail ?_ ?_ h.total
  · intro j hj
    have hold := h.load j hj
    rw [hpc] at hold
    show ((Function.update s.worker i _ j).load : Int) ≤ (s.child j).childStatus
    rw [load_update]
    split
    · rename_i hji
      subst hji
      have hw : ((Pc.write j connfd).writes j).toNat = 1 := by simp [Pc.writes]
      rw [hw] at hold
      have hload : Worker.load { s.worker j with inbox := (s.worker j).inbox ++ [connfd] }
          = s.outstanding j + 1 := by
        unfold St.outstanding Worker.load
        simp only [List.length_append, List.length_singleton]
        omega
      rw [hload]
      exact hold
    · omega
  · intro j hj _ hset
    have hold := h.due j hj (by rw [hpc]; trivial) hset
    exact readable_update (w := { s.worker i with inbox := (s.worker i).inbox ++ [connfd] })
      (fun hread => hread) j hold
  · have hold := h.passed (fun why hc => by rw [hpc] at hc; cases hc)
    rw [hpc] at hold
    obtain ⟨_, hnum⟩ := h.target i connfd hpc
    have hone : (Pc.write i connfd).inHand = 1 := rfl
    show (s.passed ++ [(connfd, i)]).map Prod.fst = List.range s.accepted
    rw [List.map_append, hold, hone, hnum, Nat.add_sub_cancel, List.range_succ]
    rfl

/-- a byte read from the pipe of child `i` -/
theorem Inv.readPipe (h : Inv s) {i : Nat} (hpc : s.pc = .scan i) (hi : i < s.nchildren)
    (hbyte : 0 < (s.worker i).outbox) : Inv (s.readPipe i 1) := by
  obtain ⟨hloads, hpassed⟩ := h.quiet (by rw [hpc]; rfl)
  -- the byte is a connection outstanding, so the child is marked as busy
  have hload : s.outstanding i =
      Worker.load { s.worker i with outbox := (s.worker i).outbox - 1 } + 1 := by
    unfold St.outstanding Worker.load
    dsimp only
    omega
  have hle := hloads i hi
  have hbusy : (s.child i).childStatus = 1 := by
    rcases h.status i hi with h0 | h1
    · omega
    · exact h1
  rw [hbusy] at hle
  refine Inv.of_quiet (quiet_ite rfl rfl) ?_ ?_ ?_ ?_ hpassed ?_
  · intro j hj
    show ((Function.update s.worker i _ j).load : Int)
      ≤ (Function.update s.child i ⟨0, (s.child i).childCount⟩ j).childStatus
    rw [load_update]
    split
    · rename_i hji
      subst hji
      rw [Function.update_self]
      show ((Worker.load { s.worker j with outbox := (s.worker j).outbox - 1 } : Nat) : Int) ≤ 0
      omega
    · rename_i hji
      rw [Function.update_of_ne hji]
      exact hloads j hj
  · exact h.status_update i (Or.inl rfl)
  · have hcount := h.avail_update hi ⟨0, (s.child i).childCount⟩
    have hold : (s.child i).isFree = false := by
      unfold Child.isFree
      rw [hbusy]
      rfl
    have hnew : Child.isFree ⟨0, (s.child i).childCount⟩ = true := rfl
    rw [hold, hnew] at hcount
    show s.navail + 1 = ((Tally.count (range s.nchildren) Child.isFree
      (Function.update s.child i ⟨0, (s.child i).childCount⟩) : Nat) : Int)
    rw [hcount, Bool.toNat_false, Bool.toNat_true]
    omega
  · intro j hj hdue hset
    have hlt : i + 1 ≤ j := by
      have hif : (if s.nsel - 1 = 0 then Pc.head else .scan (i + 1)).due j := hdue
      split at hif
      · exact hif.elim
      · exact hif
    have hold := h.due j hj (by rw [hpc]; exact Nat.le_of_succ_le hlt) hset
    show (Function.update s.worker i _ j).readable
    rw [Function.update_of_ne (by omega)]
    exact hold
  · have hsum := h.total_update hi ⟨0, (s.child i).childCount⟩
    show ∑ j ∈ range s.nchildren,
      (Function.update s.child i ⟨0, (s.child i).childCount⟩ j).childCount
      = ((s.accepted : Nat) : Int)
    dsimp only at hsum
    omega

theorem Inv.stop (h : Inv s) {why : Stop} (hwhy : why ≠ .errQuit "no available children" []) :
    Inv { s with pc := .stopped why } where
  load := by
    intro i hi
    have hold := h.load i hi
    show ((s.outstanding i + 0 : Nat) : Int) ≤ (s.child i).childStatus
    omega
  status := h.status
  avail := h.avail
  due := fun _ _ hdue _ => hdue.elim
  listen := fun hc => by cases hc
  target := fun _ _ hc => by cases hc
  passed := fun hrun => absurd rfl (hrun why)
  total := h.total
  found := fun hc => hwhy (Pc.stopped.inj hc)

/-- the scan goes on to `pc` -/
theorem Inv.skip (h : Inv s) {i : Nat} {pc : Pc} (hpc : s.pc = .scan i)
    (hnext : pc = .scan (i + 1) ∨ pc = .head) : Inv { s with pc := pc } := by
  obtain ⟨hload, hpassed⟩ := h.quiet (by rw [hpc]; rfl)
  refine Inv.of_quiet ?_ hload h.status h.avail ?_ hpassed h.total
  · rcases hnext with rfl | rfl
    · rfl
    · rfl
  · intro j hj hdue hset
    apply h.due j hj _ hset
    rw [hpc]
    rcases hnext with rfl | rfl
    · exact Nat.le_of_succ_le hdue
    · exact hdue.elim

/-! ## runs -/

/-- if the parent now reads a pipe, there is a byte in it -/
def HasByte (s : St) : Event → Prop
  | .read _ => ∀ i, s.pc = .scan i → 0 < (s.worker i).outbox
  | _ => True

theorem Inv.step (h : Inv s) (hs : When HasByte Step s e t) : Inv t := by
  obtain ⟨hbyte, hs⟩ := hs
  cases hs with
  | arrive => exact ⟨h.load, h.status, h.avail, h.due, h.listen, h.target, h.passed, h.total, h.found⟩
  | recv i connfd rest lt ready inbox =>
    apply h.setWorker
    · unfold Worker.load
      rw [ready, inbox]
      simp only [Phase.isServing, Bool.toNat_false, Bool.toNat_true, List.length_cons]
      omega
    · rintro (hout | hgone)
      · exact Or.inl hout
      · rw [ready] at hgone
        cases hgone
  | done i connfd lt serving =>
    apply h.setWorker
    · unfold Worker.load
      rw [serving]
      simp only [Phase.isServing, Bool.toNat_false, Bool.toNat_true]
      omega
    · intro _
      exact Or.inl (Nat.succ_pos _)
  | exit i lt =>
    apply h.setWorker
    · unfold Worker.load
      simp only [Phase.isServing, Bool.toNat_false]
      omega
    · intro _
      exact Or.inr rfl
  | select pc _ => exact h.select pc
  | accept pc _ => exact h.accept pc
  | writeFd i connfd pc _ => exact h.writeFd pc
  | readByte i pc lt _ byte => exact h.readPipe pc lt byte
  | readEof i pc _ _ empty _ =>
    have hpos := hbyte i pc
    omega
  | skip i pc _ _ => exact h.skip pc (Or.inl rfl)
  | last pc => exact h.skip pc (Or.inr rfl)
  | fail msg _ => exact h.stop (fun hc => by cases hc)

theorem inv_run {n : Nat} {es : List Event} (h : Run (When HasByte Step) (start n) es s) : Inv s :=
  h.inv (inv_start n) (fun _ _ _ hinv hs => hinv.step hs)

end Unp.Serv05
