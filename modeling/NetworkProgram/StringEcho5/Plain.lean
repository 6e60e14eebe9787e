import Mathlib.Algebra.BigOperators.Intervals
import NetworkProgram.StringEcho5.Cover

/-!
# How an entry is reached that no `Poll` has set

`Poll` counts each entry that it reports, and the `for` counts those that have one of the two bits
it tests.  While `Poll` reports no client without one of them (`Plain`), the two agree: `nready` is
the number of reported entries to come (`Counted`), and the `for` ends before it comes to an entry
that no `Poll` has set (`covered_of_plain`).
-/

namespace Unp.StringEcho5
open Finset Trans

variable {mem : Nat → PollFd} {s t : St} {e : Event} {k : Nat}

/-- each client that `Poll` reports has one of the two bits -/
def Plain (s : St) : Event → Prop
  | .poll revents => ∀ i, 1 ≤ i → ((s.poll revents).client i).reported = true →
      ((s.poll revents).client i).ready = true
  | _ => True

/-- how many of the entries from `k` on the last `Poll` has reported -/
def St.toCome (s : St) (k : Nat) : Nat :=
  Tally.count (Ico k (s.polledMaxi + 1)) PollFd.reported s.polled

theorem toCome_succ (hk : k ≤ s.polledMaxi) :
    s.toCome k = (s.polled k).reported.toNat + s.toCome (k + 1) := by
  unfold St.toCome
  rw [Tally.count_eq_sum, Tally.count_eq_sum]
  exact sum_eq_sum_Ico_succ_bot (by omega) _

/-- there is none beyond the last entry -/
theorem le_of_toCome (h : 0 < s.toCome k) : k ≤ s.polledMaxi := by
  obtain ⟨i, hi, _⟩ := Tally.count_pos_iff.mp h
  have hmem := mem_Ico.mp hi
  omega

theorem reported_of_ready {p : PollFd} (h : p.ready = true) : p.reported = true := by
  unfold PollFd.reported
  rw [decide_eq_true_eq]
  intro hzero
  unfold PollFd.ready at h
  rw [hzero] at h
  cases h

structure Counted (s : St) : Prop where
  plain : ∀ i, 1 ≤ i → i ≤ s.polledMaxi → (s.polled i).reported = true →
    (s.polled i).ready = true ∧ 0 ≤ (s.polled i).fd
  first : s.pc = .accept → s.nready = s.toCome 1 + 1
  scan : ∀ k, s.pc = .scan k → 1 ≤ k ∧ (s.maxi = s.polledMaxi ∨ 1 ≤ s.nready ∧ s.nready = s.toCome k)
  writen : ∀ k sockfd n, s.pc = .writen k sockfd n →
    1 ≤ k ∧ (s.maxi = s.polledMaxi ∨ s.nready = s.toCome (k + 1) + 1)

theorem counted_start (inherited : Finset Int) (listenfd : Int) (buf : Nat → UInt8) :
    Counted (start inherited listenfd mem buf) where
  plain := fun i h1 h0 _ => absurd (Nat.le_trans h1 h0) (Nat.not_succ_le_zero 0)
  first := fun hpc => by cases hpc
  scan := fun _ hpc => by cases hpc
  writen := fun _ _ _ hpc => by cases hpc

/-- `Poll` reports nothing without a descriptor -/
theorem polled_fd {p : PollFd} {revents : UInt16} (h : (p.polled revents).reported = true) :
    0 ≤ (p.polled revents).fd := by
  by_contra hneg
  have hfree : p.fd < 0 := by
    show (p.polled revents).fd < 0
    omega
  have hzero : (p.polled revents).revents = 0 := if_pos hfree
  unfold PollFd.reported at h
  rw [hzero] at h
  cases h

theorem Counted.poll {revents : Nat → UInt16} (hplain : Plain s (.poll revents)) :
    Counted (s.poll revents) where
  plain := by
    intro i h1 hle hrep
    have hentry : (s.poll revents).polled i = (s.client i).polled (revents i) := if_pos hle
    refine ⟨hplain i h1 hrep, ?_⟩
    rw [hentry] at hrep ⊢
    exact polled_fd hrep
  first := by
    intro hpc
    have hif : (if ((s.poll revents).client 0).revents &&& POLLRDNORM ≠ 0 then Pc.accept else .scan 1)
        = .accept := hpc
    have hbit : ((s.poll revents).client 0).revents &&& POLLRDNORM ≠ 0 := by
      by_contra hno
      rw [if_neg (fun hne => hne hno)] at hif
      cases hif
    have hrep : ((s.poll revents).polled 0).reported = true := by
      unfold PollFd.reported
      rw [decide_eq_true_eq]
      intro hzero
      apply hbit
      rw [show ((s.poll revents).client 0).revents = 0 from hzero]
      rfl
    have hsucc : (s.poll revents).toCome 0 = _ := toCome_succ (Nat.zero_le _)
    rw [hrep, Bool.toNat_true] at hsucc
    have hall : (s.poll revents).nready = (s.poll revents).toCome 0 := by
      unfold St.toCome
      rw [← range_eq_Ico]
      rfl
    rw [hall, hsucc]
    push_cast
    omega
  scan := by
    intro k hpc
    have hif : (if ((s.poll revents).client 0).revents &&& POLLRDNORM ≠ 0 then Pc.accept else .scan 1)
        = .scan k := hpc
    split at hif
    · cases hif
    · cases hif
      exact ⟨Nat.le_refl 1, Or.inl rfl⟩
  writen := by
    intro k sockfd n hpc
    have hif : (if ((s.poll revents).client 0).revents &&& POLLRDNORM ≠ 0 then Pc.accept else .scan 1)
        = .writen k sockfd n := hpc
    split at hif <;> cases hif

/-- at the loop head, or with the process ended -/
theorem Counted.idle (h : Counted s) (hpc : t.pc = .head ∨ ∃ why, t.pc = .stopped why)
    (hpolled : t.polled = s.polled) (hpolledMaxi : t.polledMaxi = s.polledMaxi) : Counted t := by
  refine ⟨?_, ?_, ?_, ?_⟩
  · rw [hpolled, hpolledMaxi]
    exact h.plain
  · intro hc
    rcases hpc with hp | ⟨why, hp⟩ <;> rw [hp] at hc <;> cases hc
  · intro k hc
    rcases hpc with hp | ⟨why, hp⟩ <;> rw [hp] at hc <;> cases hc
  · intro k sockfd n hc
    rcases hpc with hp | ⟨why, hp⟩ <;> rw [hp] at hc <;> cases hc

/-- the end of a branch: one entry has been counted, and the rest lie from `k` on -/
theorem Counted.next (hplain : ∀ i, 1 ≤ i → i ≤ s.polledMaxi → (s.polled i).reported = true →
      (s.polled i).ready = true ∧ 0 ≤ (s.polled i).fd) (h1 : 1 ≤ k)
    (hcount : s.maxi = s.polledMaxi ∨ s.nready = s.toCome k + 1) : Counted (s.next (.scan k)) := by
  refine ⟨hplain, ?_, ?_, ?_⟩
  · intro hpc
    exact absurd hpc (next_not_accept s k)
  · intro j hpc
    have hif : (if s.nready - 1 ≤ 0 then Pc.head else .scan k) = .scan j := hpc
    split at hif
    · cases hif
    · rename_i hpos
      cases hif
      refine ⟨h1, ?_⟩
      rcases hcount with hsame | heq
      · exact Or.inl hsame
      · right
        show 1 ≤ s.nready - 1 ∧ s.nready - 1 = s.toCome k
        omega
  · intro j sockfd n hpc
    exact absurd hpc (next_not_writen s k j sockfd n)

theorem Counted.accept (h : Counted s) (hpc : s.pc = .accept) (connfd : Int) :
    Counted (s.accept connfd) := by
  have hfirst := h.first hpc
  unfold St.accept
  dsimp only
  split
  · exact h.idle (Or.inr ⟨_, rfl⟩) rfl rfl
  · exact Counted.next h.plain (Nat.le_refl 1) (Or.inr hfirst)

/-- at an entry with one of the two bits -/
theorem Counted.here (h : Counted s) (hseen : Seen mem s) (hpc : s.pc = .scan k)
    (hready : (s.client k).ready = true) :
    1 ≤ k ∧ (s.maxi = s.polledMaxi ∨ s.nready = s.toCome (k + 1) + 1) := by
  obtain ⟨h1, hcount⟩ := h.scan k hpc
  refine ⟨h1, ?_⟩
  rcases hcount with hsame | ⟨hpos, heq⟩
  · exact Or.inl hsame
  · right
    have hle : k ≤ s.polledMaxi := le_of_toCome (by omega)
    have hrep : (s.polled k).reported = true :=
      reported_of_ready ((ready_congr (hseen.revents k hle)).symm.trans hready)
    have hsucc := toCome_succ hle
    rw [hrep, Bool.toNat_true] at hsucc
    omega

theorem Counted.read (h : Counted s) (hseen : Seen mem s) (hpc : s.pc = .scan k)
    (hready : (s.client k).ready = true) (sockfd : Int) (r : ReadRes UInt8 MAXLINE) :
    Counted (s.read k sockfd r) := by
  obtain ⟨h1, hcount⟩ := h.here hseen hpc hready
  unfold St.read
  dsimp only
  split
  · split
    · exact Counted.next h.plain (Nat.le_succ_of_le h1) hcount
    · exact h.idle (Or.inr ⟨_, rfl⟩) rfl rfl
  · split
    · exact Counted.next h.plain (Nat.le_succ_of_le h1) hcount
    · refine ⟨h.plain, (fun hc => by cases hc), (fun _ hc => by cases hc), ?_⟩
      intro j sockfd' n hw
      cases hw
      exact ⟨h1, hcount⟩

theorem Counted.skip (h : Counted s) (hseen : Seen mem s) (hpc : s.pc = .scan k)
    (hnot : (s.client k).fd < 0 ∨ (s.client k).ready = false) :
    Counted { s with pc := .scan (k + 1) } := by
  obtain ⟨h1, hcount⟩ := h.scan k hpc
  refine ⟨h.plain, (fun hc => by cases hc), ?_, (fun _ _ _ hc => by cases hc)⟩
  intro j hj
  cases hj
  refine ⟨Nat.le_succ_of_le h1, ?_⟩
  rcases hcount with hsame | ⟨hpos, heq⟩
  · exact Or.inl hsame
  · right
    have hle : k ≤ s.polledMaxi := le_of_toCome (by omega)
    -- an entry that is passed over has not been reported
    have hrep : (s.polled k).reported = false := by
      by_contra hc
      have hrep := eq_true_of_ne_false hc
      obtain ⟨hready, hfd⟩ := h.plain k h1 hle hrep
      have hready' : (s.client k).ready = true :=
        (ready_congr (hseen.revents k hle)).trans hready
      rcases hnot with hneg | hno
      · rcases hseen.fd k hle (by rw [hpc]; exact Nat.le_refl k) with hsame | hzero
        · omega
        · unfold PollFd.ready at hready'
          rw [hzero] at hready'
          cases hready'
      · rw [hno] at hready'
        cases hready'
    have hsucc := toCome_succ hle
    rw [hrep, Bool.toNat_false, Nat.zero_add] at hsucc
    exact ⟨hpos, heq.trans (congrArg Nat.cast hsucc)⟩

theorem Counted.step (h : Counted s) (hseen : Seen mem s) (hs : When Plain Step s e t) : Counted t := by
  obtain ⟨hplain, hs⟩ := hs
  cases hs with
  | poll revents pc may some => exact Counted.poll hplain
  | accept connfd pc nonneg unused => exact h.accept pc connfd
  | read i r pc le used ready => exact h.read hseen pc ready _ r
  | writen i sockfd n ws w pc returns =>
    obtain ⟨h1, hcount⟩ := h.writen i sockfd n pc
    unfold St.writen
    dsimp only
    split
    · exact h.idle (Or.inr ⟨_, rfl⟩) rfl rfl
    · exact Counted.next h.plain (Nat.le_succ_of_le h1) hcount
  | skip i pc le notready => exact h.skip hseen pc notready
  | last i pc gt => exact h.idle (Or.inl rfl) rfl rfl
  | fail msg running => exact h.idle (Or.inr ⟨_, rfl⟩) rfl rfl

/-- **Plain reports.**  Whatever `client[]` holds at first, every `read` is covered in the runs in
which `Poll` reports no client without `POLLRDNORM` or `POLLERR`. -/
theorem covered_of_plain {inherited : Finset Int} {listenfd : Int} {buf : Nat → UInt8}
    {es : List Event} (h : Run (When Plain Step) (start inherited listenfd mem buf) es s) :
    Run (Obey Covered Step) (start inherited listenfd mem buf) es s := by
  have hboth : Run (Obey Covered Step) (start inherited listenfd mem buf) es s ∧
      Seen mem s ∧ Counted s := by
    induction h with
    | nil => exact ⟨Run.nil, seen_start inherited listenfd buf, counted_start inherited listenfd buf⟩
    | @snoc es t e u _ hs ih =>
      obtain ⟨hrun, hseen, hcounted⟩ := ih
      refine ⟨hrun.snoc ⟨hs.2, (hseen.covered_step hs.2).mpr ?_⟩, hseen.step hs.2,
        hcounted.step hseen hs⟩
      cases hs.2 with
      | read i r pc le used ready =>
        intro j hj hlt
        obtain rfl := Pc.scan.inj (pc.symm.trans hj)
        have hle : i ≤ t.polledMaxi := by
          rcases (hcounted.scan i pc).2 with hsame | ⟨hpos, heq⟩
          · exact hsame ▸ le
          · exact le_of_toCome (by omega)
        omega
      | _ => trivial
  exact hboth.1

end Unp.StringEcho5
