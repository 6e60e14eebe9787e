import NetworkProgram.StringEcho4.Table

/-!
# Descriptors that do not fit into an `fd_set`

`Accept` returns the lowest number that is not in use.  The server tests for a free slot, and an
`fd_set` is indexed by the number, which also counts the descriptors that are in no slot.

* `Fits`            every descriptor passed to `FD_SET` so far is below `FD_SETSIZE`;
* `HasRoom`         those in the slots and the `others` below `FD_SETSIZE` are fewer than that;
* `fits_iff`        a run keeps to `Fits` exactly if it has room at every `Accept`;
* `crowd_run`       1021 clients, one after the other.
-/

namespace Unp.StringEcho4
open Finset Trans

variable {limit : Int} {s t : St} {e : Event} {others : Finset Int}

/-- every `FD_SET` is on `allset`, and what it sets is there after the step -/
def St.fits (s : St) : Prop := ∀ fd ∈ s.allset, fd < FD_SETSIZE

def Fits (_ : St) (_ : Event) (t : St) : Prop := t.fits

/-- at an `Accept` that finds a free slot, not all numbers below `FD_SETSIZE` are in use -/
def HasRoom (others : Finset Int) (s : St) : Event → Prop
  | .accept _ => (∃ i, firstFree s.client FD_SETSIZE 0 = some i) →
      #(below FD_SETSIZE others) + #(usedSlots FD_SETSIZE s.client) < FD_SETSIZE
  | _ => True

/-- in use are the `others`, which include `listenfd`, and the descriptors in the slots -/
structure Others (others : Finset Int) (s : St) : Prop where
  kept : Kept s
  opened : s.pc.running = true → s.opened = others ∪ usedSlots FD_SETSIZE s.client
  apart : Disjoint others (usedSlots FD_SETSIZE s.client)

theorem others_start (inherited : Finset Int) (listenfd : Int) (buf : Nat → Sent) :
    Others (insert listenfd inherited) (start inherited listenfd buf) := by
  have hused : usedSlots FD_SETSIZE (start inherited listenfd buf).client = ∅ :=
    usedSlots_eq_empty (fun _ _ => Int.negSucc_lt_zero 0)
  refine ⟨kept_start inherited listenfd buf, ?_, ?_⟩
  · intro _
    rw [hused, union_empty]
    rfl
  · rw [hused]
    exact disjoint_empty_right _

theorem running_of_pc {pc : Pc} (h : s.pc = pc) (hpc : pc.running = true) : s.pc.running = true := by
  rw [h]
  exact hpc

theorem Others.save (h : Others others s) (hpc : s.pc = .accept) {connfd : Int} {i : Nat}
    (h0 : 0 ≤ connfd) (hnew : connfd ∉ s.opened) (hi : firstFree s.client FD_SETSIZE 0 = some i) :
    insert connfd s.opened
        = others ∪ usedSlots FD_SETSIZE (Function.update s.client i connfd) ∧
      Disjoint others (usedSlots FD_SETSIZE (Function.update s.client i connfd)) := by
  obtain ⟨_, hlt, hfree⟩ := firstFree_some hi
  have hopened := h.opened (running_of_pc hpc rfl)
  rw [usedSlots_store (by omega) hfree h0, hopened]
  refine ⟨(union_insert ..).symm, ?_⟩
  rw [hopened] at hnew
  rw [disjoint_insert_right]
  exact ⟨fun hc => hnew (mem_union_left _ hc), h.apart⟩

theorem Others.close (h : Others others s) {j : Nat} (hj : j < FD_SETSIZE) (hused : 0 ≤ s.client j)
    (hrun : s.pc.running = true) :
    s.opened.erase (s.client j)
        = others ∪ usedSlots FD_SETSIZE (Function.update s.client j (-1)) ∧
      Disjoint others (usedSlots FD_SETSIZE (Function.update s.client j (-1))) := by
  have hneg : (-1 : Int) < 0 := by decide
  rw [h.kept.table.used_free hj hused hneg, h.opened hrun, erase_union_distrib]
  have hmem : s.client j ∈ usedSlots FD_SETSIZE s.client := slot_mem_used hj hused
  have hnot : s.client j ∉ others := fun hc => disjoint_left.mp h.apart hc hmem
  rw [erase_eq_of_notMem hnot]
  exact ⟨rfl, h.apart.mono_right (erase_subset ..)⟩

theorem Others.step (h : Others others s) (hs : Step (Lowest limit) s e t) : Others others t := by
  have hkept : Kept t := h.kept.step (fun _ _ hl => hl.1) hs
  cases hs with
  | accept connfd pc waits number =>
    obtain ⟨h0, _, hnew⟩ := number.1
    refine ⟨hkept, ?_, ?_⟩
    · unfold St.accept
      dsimp only
      split
      · exact fun hrun => by cases hrun
      · rename_i i hi
        intro _
        exact (h.save pc h0 hnew hi).1
    · unfold St.accept
      dsimp only
      split
      · exact h.apart
      · rename_i i hi
        exact (h.save pc h0 hnew hi).2
  | read j id r pc le used isset owner answers =>
    cases r with
    | err e => exact answers.elim
    | eof =>
      have hclose := h.close (h.kept.lt le) used (running_of_pc pc rfl)
      exact ⟨hkept, fun _ => hclose.1, hclose.2⟩
    | data bs pos len => exact ⟨hkept, fun _ => h.opened (running_of_pc pc rfl), h.apart⟩
  | writen j sockfd n id ws w pc owner returns =>
    have hopened := h.opened (running_of_pc pc rfl)
    refine ⟨hkept, ?_, ?_⟩
    · unfold St.writen
      dsimp only
      split
      · exact fun hrun => by cases hrun
      · exact fun _ => hopened
    · unfold St.writen
      dsimp only
      split <;> exact h.apart
  | select pc some => exact ⟨hkept, fun _ => h.opened (running_of_pc pc rfl), h.apart⟩
  | skip j pc le notset => exact ⟨hkept, fun _ => h.opened (running_of_pc pc rfl), h.apart⟩
  | last j pc gt => exact ⟨hkept, fun _ => h.opened (running_of_pc pc rfl), h.apart⟩
  | fail msg running => exact ⟨hkept, (fun hrun => by cases hrun), h.apart⟩
  | _ => exact ⟨hkept, h.opened, h.apart⟩

/-! ## the law and the condition -/

theorem used_fits (hk : Kept s) (hf : s.fits) :
    ∀ x ∈ usedSlots FD_SETSIZE s.client, 0 ≤ x ∧ x < FD_SETSIZE := by
  intro x hx
  refine ⟨(mem_usedSlots.mp hx).1, hf x ?_⟩
  rw [hk.table.watches]
  exact mem_union_right _ hx

/-- a step keeps to `Fits` exactly if it has room -/
theorem Others.fits_iff (h : Others others s) (hf : s.fits) (hs : Step (Lowest limit) s e t) :
    Fits s e t ↔ HasRoom others s e := by
  cases hs with
  | accept connfd pc waits number =>
    have hopened := h.opened (running_of_pc pc rfl)
    rw [hopened] at number
    have hlt := lowest_fits_iff number (used_fits h.kept hf) h.apart
    unfold Fits St.fits HasRoom St.accept
    dsimp only
    cases hi : firstFree (s.take connfd).client FD_SETSIZE 0 with
    | none =>
      have hnone : ¬ ∃ i, firstFree s.client FD_SETSIZE 0 = some i := by
        rintro ⟨i, hi'⟩
        rw [show firstFree s.client FD_SETSIZE 0 = none from hi] at hi'
        cases hi'
      exact ⟨fun _ hc => absurd hc hnone, fun _ => hf⟩
    | some i =>
      have hsome : ∃ i, firstFree s.client FD_SETSIZE 0 = some i := ⟨i, hi⟩
      show (∀ fd ∈ insert connfd s.allset, fd < FD_SETSIZE) ↔ _
      rw [insert_lt_iff hf, hlt]
      exact ⟨fun hroom _ => hroom, fun hroom => hroom hsome⟩
  | read j id r pc le used isset owner answers =>
    cases r with
    | err e => exact answers.elim
    | eof => exact ⟨fun _ => trivial, fun _ x hx => hf x (mem_of_mem_erase hx)⟩
    | data bs pos len => exact ⟨fun _ => trivial, fun _ => hf⟩
  | writen j sockfd n id ws w pc owner returns =>
    refine ⟨fun _ => trivial, fun _ => ?_⟩
    unfold Fits St.fits St.writen
    dsimp only
    split <;> exact hf
  | _ => exact ⟨fun _ => trivial, fun _ => hf⟩

/-- **When the test for a free slot is enough.**  `Accept` and `Socket` return the lowest number
that is not in use.  Every descriptor passed to `FD_SET` is below `FD_SETSIZE` exactly if there was
such a number for `listenfd`, and at every `Accept` that finds a free slot the descriptors in the
slots and the others below `FD_SETSIZE` are fewer than `FD_SETSIZE`. -/
theorem fits_run_iff {inherited : Finset Int} {listenfd : Int} {buf : Nat → Sent}
    (hlisten : Lowest limit inherited listenfd) (es : List Event) (s : St) :
    ((start inherited listenfd buf).fits ∧
        Run (Obey Fits (Step (Lowest limit))) (start inherited listenfd buf) es s) ↔
      (#(below FD_SETSIZE inherited) < FD_SETSIZE ∧
        Run (When (HasRoom (insert listenfd inherited)) (Step (Lowest limit)))
          (start inherited listenfd buf) es s) := by
  have hstart : (start inherited listenfd buf).fits ↔ #(below FD_SETSIZE inherited) < FD_SETSIZE := by
    rw [← lowest_lt_iff hlisten]
    constructor
    · intro h
      exact h listenfd (mem_singleton_self _)
    · intro h fd hfd
      rw [mem_singleton.mp hfd]
      exact h
  rw [← hstart]
  apply and_congr_right
  intro hf
  apply Run.obey_iff_when (fun s => Others (insert listenfd inherited) s ∧ s.fits)
  · exact ⟨others_start inherited listenfd buf, hf⟩
  · intro t e u hinv hs
    exact hinv.1.fits_iff hinv.2 hs
  · intro t e u hinv hs
    exact ⟨hinv.1.step hs.2, (hinv.1.fits_iff hinv.2 hs.2).mpr hs.1⟩

/-! ## a crowd -/

/-- the server with standard input, output and error, and then `k` clients that do nothing -/
def crowd : Nat → St
  | 0 => start {0, 1, 2} 3 (fun _ => ⟨0, 0⟩)
  | k + 1 => (crowd k).connect.select.accept (k + 4)

structure Crowd (k : Nat) (s : St) : Prop where
  pc : s.pc = .head
  listenfd : s.listenfd = 3
  backlog : s.backlog = []
  silent : ∀ id, (s.conns id).readable = false
  client : ∀ i, s.client i = if i < k then (i + 4 : Int) else -1
  opened : ∀ fd, fd ∈ s.opened ↔ 0 ≤ fd ∧ fd < k + 4
  listens : 3 ∈ s.allset

theorem crowd_start : Crowd 0 (crowd 0) where
  pc := rfl
  listenfd := rfl
  backlog := rfl
  silent := fun _ => rfl
  client := fun _ => rfl
  opened := by
    intro fd
    show fd ∈ ({3, 0, 1, 2} : Finset Int) ↔ _
    simp only [mem_insert, mem_singleton]
    omega
  listens := mem_singleton_self _

/-- `Select` reports `listenfd` alone -/
theorem Crowd.select {k : Nat} (h : Crowd k s) :
    s.connect.select.pc = .accept ∧ s.connect.select.nready = 1 := by
  have hreadable : ∀ fd, s.connect.readable fd = decide (fd = 3) := by
    intro fd
    unfold St.readable
    rw [show s.connect.listenfd = 3 from h.listenfd]
    split
    · rename_i hfd
      rw [show s.connect.backlog = s.backlog ++ [s.connects] from rfl, h.backlog, hfd]
      rfl
    · rename_i hfd
      rw [decide_eq_false hfd]
      cases s.connect.owner fd with
      | none => rfl
      | some id => exact h.silent id
  have hrset : s.connect.select.rset = {3} := by
    show s.allset.filter (fun fd => s.connect.readable fd) = {3}
    ext fd
    rw [mem_filter, mem_singleton, hreadable, decide_eq_true_eq]
    constructor
    · exact fun hfd => hfd.2
    · rintro rfl
      exact ⟨h.listens, rfl⟩
  constructor
  · show (if s.connect.listenfd ∈ s.connect.select.rset then Pc.accept else .scan 0) = .accept
    rw [hrset, show s.connect.listenfd = 3 from h.listenfd]
    exact if_pos (mem_singleton_self _)
  · show (s.connect.select.rset.card : Int) = 1
    rw [hrset]
    rfl

theorem Crowd.slot {k : Nat} (h : Crowd k s) (hk : k < FD_SETSIZE) :
    firstFree s.client FD_SETSIZE 0 = some k := by
  apply firstFree_eq (Nat.zero_le k) (by omega)
  · rw [h.client, if_neg (Nat.lt_irrefl k)]
    decide
  · intro j _ hj
    rw [h.client, if_pos hj]
    omega

theorem Crowd.accept {k : Nat} (h : Crowd k s) (hk : k < FD_SETSIZE) :
    s.connect.select.accept (k + 4) =
      ((s.connect.select.take (k + 4)).save k (k + 4)).next (.scan 0) := by
  unfold St.accept
  dsimp only
  rw [show firstFree (s.connect.select.take (k + 4)).client FD_SETSIZE 0 = some k from h.slot hk]

theorem Crowd.next {k : Nat} (h : Crowd k s) (hk : k < FD_SETSIZE) :
    Crowd (k + 1) (s.connect.select.accept (k + 4)) := by
  obtain ⟨_, hnready⟩ := h.select
  rw [h.accept hk]
  refine ⟨?_, h.listenfd, ?_, h.silent, ?_, ?_, mem_insert_of_mem h.listens⟩
  · show (if s.connect.select.nready - 1 ≤ 0 then Pc.head else .scan 0) = .head
    rw [hnready]
    rfl
  · show (s.backlog ++ [s.connects]).tail = []
    rw [h.backlog]
    rfl
  · intro i
    show Function.update s.client k ((k : Int) + 4) i = _
    by_cases hi : i = k
    · rw [hi, Function.update_self, if_pos (Nat.lt_succ_self k)]
    · rw [Function.update_of_ne hi, h.client]
      by_cases hik : i < k
      · rw [if_pos hik, if_pos (by omega)]
      · rw [if_neg hik, if_neg (by omega)]
  · intro fd
    show fd ∈ insert ((k : Int) + 4) s.opened ↔ _
    rw [mem_insert, h.opened]
    push_cast
    omega

theorem crowd_run (k : Nat) (hk : k ≤ FD_SETSIZE) :
    Crowd k (crowd k) ∧
      ∃ es, Run (Step (Lowest 2048)) (start {0, 1, 2} 3 (fun _ => ⟨0, 0⟩)) es (crowd k) := by
  have hsize : FD_SETSIZE = 1024 := rfl
  induction k with
  | zero => exact ⟨crowd_start, [], Run.nil⟩
  | succ k ih =>
    obtain ⟨hcrowd, es, hrun⟩ := ih (by omega)
    refine ⟨hcrowd.next hk, (es ++ [.connect]) ++ [.select] ++ [.accept (k + 4)], ?_⟩
    have hreadable : (crowd k).connect.readable 3 = true := by
      unfold St.readable
      rw [show (crowd k).connect.listenfd = 3 from hcrowd.listenfd, if_pos rfl]
      rw [show (crowd k).connect.backlog = (crowd k).backlog ++ [(crowd k).connects] from rfl,
        hcrowd.backlog]
      rfl
    have hselect := (hrun.snoc Step.connect).snoc
      (Step.select hcrowd.pc ⟨3, hcrowd.listens, hreadable⟩)
    apply hselect.snoc
    apply Step.accept (k + 4) hcrowd.select.1
    · show (crowd k).backlog ++ [(crowd k).connects] ≠ []
      simp
    · refine ⟨⟨by omega, by omega, ?_⟩, ?_⟩
      · intro hc
        have hlt := ((hcrowd.opened _).mp hc).2
        omega
      · intro x h0 hx
        exact (hcrowd.opened x).mpr ⟨h0, hx⟩

theorem crowd_succ (k : Nat) : crowd (k + 1) = (crowd k).connect.select.accept (k + 4) := rfl

/-- the descriptor of the client after `k` others is passed to `FD_SET` -/
theorem crowd_listed {k : Nat} (hk : k < FD_SETSIZE) :
    ∃ es s, Run (Step (Lowest 2048)) (start {0, 1, 2} 3 (fun _ => ⟨0, 0⟩)) es s ∧
      (k + 4 : Int) ∈ s.allset := by
  obtain ⟨_, es, hrun⟩ := crowd_run (k + 1) hk
  refine ⟨es, crowd (k + 1), hrun, ?_⟩
  rw [crowd_succ, (crowd_run k hk.le).1.accept hk]
  exact mem_insert_self ..

/-- the 1021st client gets the descriptor 1024, and slot 1020 is free -/
theorem not_fits : ∃ es s, Run (Step (Lowest 2048)) (start {0, 1, 2} 3 (fun _ => ⟨0, 0⟩)) es s ∧
    ∃ fd ∈ s.allset, fd = 1024 ∧ ¬ fd < FD_SETSIZE := by
  have hsize : FD_SETSIZE = 1024 := rfl
  have hlt : 1020 < FD_SETSIZE := by omega
  obtain ⟨es, s, hrun, hmem⟩ := crowd_listed hlt
  refine ⟨es, s, hrun, _, hmem, ?_, ?_⟩
  · rfl
  · omega

end Unp.StringEcho4
