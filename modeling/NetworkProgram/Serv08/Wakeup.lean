import NetworkProgram.Lib.Tally
import NetworkProgram.Serv08.Fifo

/-!
# No wake-up is lost

`St.awake` counts the workers that have been notified or are about to take the lock.  `Covered`:
while a worker waits without a notification, each pending connection has such a worker.  A
connection is stored together with a notification, and a worker goes to wait only when nothing is
pending, so every step keeps it.
-/

namespace Unp.Serv08
open Trans

variable {n : Nat} {s t : St n} {e : Event n}

/-- the workers that are notified or about to take the lock -/
def St.awake (s : St n) : Nat := Tally.count Finset.univ Phase.wantsLock s.phase

def St.waits (s : St n) : Prop := ∃ w, s.phase w = .waiting

def Covered (s : St n) : Prop := s.waits → s.pending.length ≤ s.awake

/-- one worker changes its phase -/
theorem awake_update (s : St n) (w : Fin n) (p : Phase) :
    Tally.count Finset.univ Phase.wantsLock (Function.update s.phase w p)
      + (s.phase w).wantsLock.toNat = s.awake + p.wantsLock.toNat :=
  Tally.count_update (Finset.mem_univ w) p

/-- who waits after a change of phase waited before, or has just gone to wait -/
theorem waits_update {s : St n} {w : Fin n} {p : Phase} (hp : p ≠ .waiting)
    (h : (s.setPhase w p).waits) : s.waits := by
  rcases (Function.exists_update_iff s.phase (fun _ p => p = .waiting)).mp h with hself | hother
  · exact absurd hself hp
  · obtain ⟨w', _, hw'⟩ := hother
    exact ⟨w', hw'⟩

theorem pending_store {q : RingBuf Int MAXNCLI} {r : Relay Int} (h : Refines s q r) (connfd : Int) :
    (s.store connfd).pending = s.pending ++ [connfd] := by
  have hle : s.taken.length ≤ s.accepted.length := by
    rw [← h.accepted, ← r.conserve, h.taken, List.length_append, List.length_map]
    omega
  exact List.drop_append_of_le_length hle

theorem covered_start (clifd : Nat → Int) : Covered (start n clifd) :=
  fun _ => Nat.zero_le _

/-- a store brings a connection and a notification -/
theorem Covered.insert (h : Covered s) {q : RingBuf Int MAXNCLI} {r : Relay Int}
    (href : Refines s q r) {connfd : Int} {w : Option (Fin n)} (hw : s.wakes w)
    (hrun : (s.insert connfd w).exited = none) : Covered (s.insert connfd w) := by
  have hpend := pending_store href connfd
  by_cases hfull : (s.store connfd).iput = (s.store connfd).iget
  · rw [insert_full w hfull] at hrun
    cases hrun
  · rw [insert_room w hfull]
    cases w with
    | none =>
      rintro ⟨w', hw'⟩
      exact absurd hw' (hw w')
    | some w =>
      intro hwaits
      have hbefore : s.waits := waits_update (s := s.store connfd) (by simp) hwaits
      have hle := h hbefore
      have hcount := awake_update s w .notified
      rw [show s.phase w = .waiting from hw] at hcount
      show (s.store connfd).pending.length
        ≤ Tally.count Finset.univ Phase.wantsLock (Function.update s.phase w .notified)
      rw [hpend, List.length_append, List.length_singleton]
      simp only [Phase.wantsLock, Bool.toNat_false, Bool.toNat_true] at hcount
      omega

/-- a worker under the lock takes one connection, or finds nothing pending -/
theorem Covered.locked (h : Covered s) {q : RingBuf Int MAXNCLI} {r : Relay Int}
    (href : Refines s q r) {w : Fin n} (hw : (s.phase w).wantsLock = true) :
    Covered (s.locked w) := by
  unfold St.locked
  by_cases hempty : s.iget = s.iput
  · rw [if_pos hempty]
    intro _
    have hnil : s.pending = [] := by
      have hq := q.empty_iff
      rw [href.get, href.put, ← href.pending] at hq
      exact hq.mp hempty
    show s.pending.length ≤ _
    rw [hnil]
    exact Nat.zero_le _
  · rw [if_neg hempty]
    intro hwaits
    have hbefore : s.waits := waits_update (p := .busy (s.clifd s.iget)) (by simp) hwaits
    have hle := h hbefore
    have hpend : s.pending = s.clifd s.iget :: (s.take w).pending := by
      rw [href.oldest hempty, (href.take w hempty).pending]
    have hcount := awake_update s w (.busy (s.clifd s.iget))
    rw [hw] at hcount
    rw [hpend, List.length_cons] at hle
    show (s.take w).pending.length
      ≤ Tally.count Finset.univ Phase.wantsLock (Function.update s.phase w (.busy (s.clifd s.iget)))
    simp only [Phase.wantsLock, Bool.toNat_false, Bool.toNat_true] at hcount
    omega

/-- a worker that was not awake and now is -/
theorem Covered.wake (h : Covered s) {w : Fin n} {p : Phase} (hw : (s.phase w).wantsLock = false)
    (hp : p.wantsLock = true) : Covered (s.setPhase w p) := by
  intro hwaits
  have hne : p ≠ .waiting := by
    rintro rfl
    cases hp
  have hle := h (waits_update hne hwaits)
  have hcount := awake_update s w p
  rw [hw, hp] at hcount
  show s.pending.length ≤ Tally.count Finset.univ Phase.wantsLock (Function.update s.phase w p)
  simp only [Bool.toNat_false, Bool.toNat_true] at hcount
  omega

theorem Covered.step (h : Covered s) {q : RingBuf Int MAXNCLI} {r : Relay Int}
    (href : Refines s q r) (hs : Step s e t) (hrun : t.exited = none) : Covered t := by
  cases hs with
  | insert connfd w run wakes => exact h.insert href wakes hrun
  | lock w run wants => exact h.locked href wants
  | spurious w run waits =>
    apply h.wake _ rfl
    rw [waits]
    rfl
  | finish w run busy =>
    apply h.wake _ rfl
    cases hp : s.phase w with
    | busy connfd => rfl
    | _ => rw [hp] at busy; cases busy

/-- **No wake-up is lost.**  In every state of every run, as long as the process has not exited:
while some worker waits without a notification there are at least as many workers notified or about
to take the lock as there are connections pending. -/
theorem no_lost_wakeup (n : Nat) (clifd : Nat → Int) (es : List (Event n)) (s : St n)
    (h : Run Step (start n clifd) es s) (hrun : s.exited = none) :
    (∃ w, s.phase w = .waiting) →
      s.pending.length ≤
        (Finset.univ.filter (fun w => s.phase w = .notified ∨ s.phase w = .lock)).card := by
  have hcov : Covered s := by
    induction h with
    | nil => exact covered_start clifd
    | snoc hr hs ih =>
      obtain ⟨q, r, href⟩ := refines_run hr hs.running
      exact (ih hs.running).step href hs hrun
  have hawake : s.awake
      = (Finset.univ.filter (fun w => s.phase w = .notified ∨ s.phase w = .lock)).card := by
    unfold St.awake Tally.count
    congr 1
    apply Finset.filter_congr
    intro w _
    cases s.phase w <;> simp [Phase.wantsLock]
  intro hwaits
  rw [← hawake]
  exact hcov hwaits

/-- worker 1 still waits -/
theorem no_lost_wakeup_two : oneWoken.phase 1 = .waiting ∧ oneWoken.pending = [5] ∧
    oneWoken.pending.length ≤ (Finset.univ.filter
      (fun w => oneWoken.phase w = .notified ∨ oneWoken.phase w = .lock)).card :=
  ⟨rfl, rfl, no_lost_wakeup 2 _ _ _ oneWoken_run rfl ⟨1, rfl⟩⟩

end Unp.Serv08
