import NetworkProgram.StringEcho5.Reset

/-!
# Reads that no `Poll` has called for

A new connection may go into the entry after `maxi`.  The `for` of the same iteration then comes to
that entry, whose `revents` no `Poll` has ever set.

* `Covered`       a `read` is on an entry that the last `Poll` has reported;
* `Blank`         an entry that no `Poll` has set has neither of the two bits from the beginning;
* `Seen`          how `client[]` differs from what the last `Poll` has left;
* `covered_iff`   a run is covered exactly if the entries it reads are blank.
-/

namespace Unp.StringEcho5
open Finset Trans

variable {mem : Nat → PollFd} {s t : St} {e : Event} {i : Nat} {pc : Pc}

/-- a `read` is on a descriptor for which the last `Poll` has reported one of the two bits -/
def Covered (s : St) (e : Event) (_ : St) : Prop :=
  ∀ r i, e = .read r → s.pc = .scan i →
    i ≤ s.polledMaxi ∧ (s.polled i).fd = (s.client i).fd ∧ (s.polled i).ready = true

/-- if the `for` is at an entry that no `Poll` has set, the array held neither of the two bits -/
def Blank (mem : Nat → PollFd) (s : St) : Event → Prop
  | .read _ => ∀ i, s.pc = .scan i → s.polledMaxi < i → (mem i).ready = false
  | _ => True

/-! ## since the last Poll -/

/-- the server is in the midst of an iteration, and has not come to entry `i` -/
def Pc.ahead : Pc → Nat → Prop
  | .accept, _ => True
  | .scan k, i => k ≤ i
  | .writen k _ _, i => k < i
  | _, _ => False

/-- `client[]` beside what `Poll` has left in it and what it held at first -/
structure Seen (mem : Nat → PollFd) (s : St) : Prop where
  le : s.polledMaxi ≤ s.maxi
  blank : ∀ i, s.polledMaxi < i → (s.client i).revents = (mem i).revents
  revents : ∀ i ≤ s.polledMaxi, (s.client i).revents = (s.polled i).revents
  empty : s.pc = .accept → ∀ i ≤ s.polledMaxi, (s.client i).fd < 0 → (s.client i).revents = 0
  fd : ∀ i ≤ s.polledMaxi, s.pc.ahead i → (s.client i).fd = (s.polled i).fd ∨ (s.client i).revents = 0

theorem seen_start (inherited : Finset Int) (listenfd : Int) (buf : Nat → UInt8) :
    Seen mem (start inherited listenfd mem buf) where
  le := Nat.le_refl 0
  blank := by
    intro i hi
    have hpos : i ≠ 0 := Nat.pos_iff_ne_zero.mp hi
    show (Function.update (fun i => { mem i with fd := -1 }) 0 _ i).revents = _
    rw [Function.update_of_ne hpos]
  revents := fun _ _ => rfl
  empty := fun hpc => by cases hpc
  fd := fun _ _ hahead => hahead.elim

theorem Seen.poll (h : Seen mem s) (revents : Nat → UInt16) : Seen mem (s.poll revents) where
  le := Nat.le_refl _
  blank := by
    intro i hi
    have hlt : s.maxi < i := hi
    have hle := h.le
    show (if i ≤ s.maxi then (s.client i).polled (revents i) else s.client i).revents = _
    rw [if_neg (by omega)]
    exact h.blank i (by omega)
  revents := fun _ _ => rfl
  empty := by
    intro _ i hi hfree
    have hle : i ≤ s.maxi := hi
    have hentry : (s.poll revents).client i = (s.client i).polled (revents i) := if_pos hle
    rw [hentry] at hfree ⊢
    exact if_pos hfree
  fd := fun _ _ _ => Or.inl rfl

/-- no `revents` is changed, and the `fd` only of an entry that lies behind or has reported nothing -/
theorem Seen.keep (h : Seen mem s) (hmaxi : s.maxi ≤ t.maxi) (hpolled : t.polled = s.polled)
    (hpolledMaxi : t.polledMaxi = s.polledMaxi)
    (hrevents : ∀ j, (t.client j).revents = (s.client j).revents)
    (hfd : ∀ j ≤ s.polledMaxi, t.pc.ahead j →
      (s.pc.ahead j ∧ (t.client j).fd = (s.client j).fd) ∨ (s.client j).revents = 0)
    (hpc : t.pc ≠ .accept) : Seen mem t := by
  refine ⟨?_, ?_, ?_, fun hc => absurd hc hpc, ?_⟩
  · rw [hpolledMaxi]
    exact h.le.trans hmaxi
  · intro j hj
    rw [hpolledMaxi] at hj
    exact (hrevents j).trans (h.blank j hj)
  · intro j hj
    rw [hpolledMaxi] at hj
    rw [hrevents, hpolled]
    exact h.revents j hj
  · intro j hj hahead
    rw [hpolledMaxi] at hj
    rw [hrevents, hpolled]
    rcases hfd j hj hahead with ⟨hbefore, hsame⟩ | hzero
    · rw [hsame]
      exact h.fd j hj hbefore
    · exact Or.inr hzero

/-- the server goes on to another `pc` -/
theorem Seen.goto (h : Seen mem s) (hclient : t.client = s.client) (hmaxi : t.maxi = s.maxi)
    (hpolled : t.polled = s.polled) (hpolledMaxi : t.polledMaxi = s.polledMaxi)
    (hbefore : ∀ j, t.pc.ahead j → s.pc.ahead j) (hpc : t.pc ≠ .accept) : Seen mem t := by
  apply h.keep (le_of_eq hmaxi.symm) hpolled hpolledMaxi _ _ hpc
  · intro j
    rw [hclient]
  · intro j _ hahead
    rw [hclient]
    exact Or.inl ⟨hbefore j hahead, rfl⟩

theorem update_revents (s : St) (i : Nat) {p : PollFd} (hp : p.revents = (s.client i).revents)
    (j : Nat) : (Function.update s.client i p j).revents = (s.client j).revents := by
  by_cases hj : j = i
  · rw [hj, Function.update_self, hp]
  · rw [Function.update_of_ne hj]

theorem next_ahead (s : St) (pc : Pc) {j : Nat} (h : (s.next pc).pc.ahead j) : pc.ahead j := by
  rcases next_pc s pc with hp | hp
  · rw [hp] at h
    exact h.elim
  · rw [hp] at h
    exact h

theorem next_not_accept (s : St) (k : Nat) : (s.next (.scan k)).pc ≠ .accept := by
  intro hacc
  rcases next_pc s (.scan k) with hp | hp <;> rw [hp] at hacc <;> cases hacc

theorem Seen.accept (h : Seen mem s) (hpc : s.pc = .accept) (connfd : Int) :
    Seen mem (s.accept connfd) := by
  unfold St.accept
  dsimp only
  split
  · exact h.goto rfl rfl rfl rfl (fun _ hc => hc.elim) (fun hc => by cases hc)
  · rename_i i hi
    obtain ⟨_, _, hfree⟩ := firstFree_some hi
    apply h.keep
    · show s.maxi ≤ if i > s.maxi then i else s.maxi
      split <;> omega
    · rfl
    · rfl
    · exact update_revents s i rfl
    · intro j hj _
      by_cases hji : j = i
      · subst hji
        exact Or.inr (h.empty hpc j hj hfree)
      · refine Or.inl ⟨?_, congrArg PollFd.fd (Function.update_of_ne hji ..)⟩
        rw [hpc]
        trivial
    · exact next_not_accept _ _

theorem Seen.read (h : Seen mem s) (hpc : s.pc = .scan i) (r : ReadRes UInt8 MAXLINE) :
    Seen mem (s.read i (s.client i).fd r) := by
  have hclose : ∀ buf, Seen mem
      ((St.close { s with buf := buf } i (s.client i).fd).next (.scan (i + 1))) := by
    intro buf
    apply h.keep
    · exact Nat.le_refl _
    · rfl
    · rfl
    · exact update_revents s i rfl
    · intro j _ hj
      have hlt : i + 1 ≤ j := next_ahead _ _ hj
      have hji : j ≠ i := by omega
      refine Or.inl ⟨?_, congrArg PollFd.fd (Function.update_of_ne hji ..)⟩
      rw [hpc]
      exact Nat.le_of_succ_le hlt
    · exact next_not_accept _ _
  unfold St.read
  dsimp only
  split
  · split
    · exact hclose _
    · exact h.goto rfl rfl rfl rfl (fun _ hc => hc.elim) (fun hc => by cases hc)
  · split
    · exact hclose _
    · refine h.goto rfl rfl rfl rfl ?_ (fun hc => by cases hc)
      intro j hj
      rw [hpc]
      exact Nat.le_of_lt hj

theorem Seen.writen (h : Seen mem s) {sockfd : Int} {n : Nat} (hpc : s.pc = .writen i sockfd n)
    (w : Written UInt8) : Seen mem (s.writen i sockfd n w) := by
  unfold St.writen
  dsimp only
  split
  · exact h.goto rfl rfl rfl rfl (fun _ hc => hc.elim) (fun hc => by cases hc)
  · refine h.goto rfl rfl rfl rfl ?_ (next_not_accept _ _)
    intro j hj
    have hlt : Pc.ahead (.scan (i + 1)) j := next_ahead _ _ hj
    rw [hpc]
    exact hlt

theorem Seen.step (h : Seen mem s) (hs : Step s e t) : Seen mem t := by
  cases hs with
  | poll revents pc may some => exact h.poll revents
  | accept connfd pc nonneg unused => exact h.accept pc connfd
  | read i r pc le used ready => exact h.read pc r
  | writen i sockfd n ws w pc returns => exact h.writen pc w
  | skip i pc le notready =>
    refine h.goto rfl rfl rfl rfl ?_ (fun hc => by cases hc)
    intro j hj
    rw [pc]
    exact Nat.le_of_succ_le hj
  | last i pc gt => exact h.goto rfl rfl rfl rfl (fun _ hc => hc.elim) (fun hc => by cases hc)
  | fail msg running => exact h.goto rfl rfl rfl rfl (fun _ hc => hc.elim) (fun hc => by cases hc)

/-! ## the law and the condition -/

theorem ready_congr {p q : PollFd} (h : p.revents = q.revents) : p.ready = q.ready := by
  unfold PollFd.ready
  rw [h]

/-- a `read` is covered exactly if its entry is blank -/
theorem Seen.covered_step (h : Seen mem s) (hs : Step s e t) : Covered s e t ↔ Blank mem s e := by
  cases hs with
  | read i r pc le used ready =>
    constructor
    · intro hc j hj hlt
      have hle := (hc r j rfl hj).1
      omega
    · intro hb r' j _ hj
      obtain rfl := Pc.scan.inj (pc.symm.trans hj)
      have hle : i ≤ s.polledMaxi := by
        by_contra hgt
        have hblank := hb i pc (by omega)
        rw [← ready_congr (h.blank i (by omega)), ready] at hblank
        cases hblank
      have hrevents := h.revents i hle
      refine ⟨hle, ?_, ?_⟩
      · rcases h.fd i hle (by rw [pc]; exact Nat.le_refl i) with hsame | hzero
        · exact hsame.symm
        · have hno : (s.client i).ready = false := by
            unfold PollFd.ready
            rw [hzero]
            rfl
          rw [hno] at ready
          cases ready
      · rw [← ready_congr hrevents]
        exact ready
  | _ => exact ⟨fun _ => trivial, fun _ _ _ hc => by cases hc⟩

/-- **Reads and `Poll`.**  Whatever `client[]` holds at first, each `read` of a run is on a
descriptor for which the last `Poll` has reported `POLLRDNORM` or `POLLERR`, exactly if in every
entry that the `for` reads and no `Poll` has set the array held neither of the two bits. -/
theorem covered_iff (inherited : Finset Int) (listenfd : Int) (mem : Nat → PollFd) (buf : Nat → UInt8)
    (es : List Event) (s : St) :
    Run (Obey Covered Step) (start inherited listenfd mem buf) es s ↔
      Run (When (Blank mem) Step) (start inherited listenfd mem buf) es s := by
  apply Run.obey_iff_when (Seen mem)
  · exact seen_start inherited listenfd buf
  · intro t e u hseen hs
    exact hseen.covered_step hs
  · intro t e u hseen hs
    exact hseen.step hs.2

/-- entry 2 holds `POLLRDNORM` -/
def stale : Nat → PollFd := fun i => if i = 2 then ⟨0, 0, POLLRDNORM⟩ else ⟨0, 0, 0⟩

def staleStart : St := start {0, 1, 2} 3 stale (fun _ => 0)

/-- one client is in entry 1; `Poll` reports `listenfd`, and a hang-up for entry 1 -/
def hangUp : St :=
  ((staleStart.poll (only 0)).accept 4).poll (fun j => if j = 1 then POLLHUP else only 0 j)

theorem hangUp_run : Run Step staleStart
    [.poll (only 0), .accept 4, .poll (fun j => if j = 1 then POLLHUP else only 0 j), .accept 5, .skip]
    { hangUp.accept 5 with pc := .scan 2 } := by
  have h1 : Run Step staleStart [.poll (only 0)] (staleStart.poll (only 0)) :=
    Run.single (Step.poll _ rfl (by decide) ⟨0, by decide, rfl⟩)
  have h2 := h1.snoc (Step.accept 4 rfl (by decide) (by decide))
  have h3 := h2.snoc (Step.poll (fun j => if j = 1 then POLLHUP else only 0 j) rfl (by decide)
    ⟨1, by decide, rfl⟩)
  have h4 := h3.snoc (Step.accept 5 rfl (by decide) (by decide))
  exact h4.snoc (Step.skip 1 rfl (by decide) (Or.inr rfl))

/-- the next client is read from before a `Poll` has covered it -/
theorem not_covered : ∃ es s t, Run Step staleStart es s ∧ Step s (.read .eof) t ∧
    ¬ Covered s (.read .eof) t := by
  refine ⟨_, _, _, hangUp_run, Step.read 2 .eof rfl (by decide) (by decide) rfl, ?_⟩
  intro hcovered
  have hle : 2 ≤ 1 := (hcovered .eof 2 rfl rfl).1
  omega

end Unp.StringEcho5
