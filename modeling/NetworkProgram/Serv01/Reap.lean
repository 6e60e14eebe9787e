import NetworkProgram.Lib.Run
import NetworkProgram.Lib.Tally
import NetworkProgram.Serv01.Impl

/-!
# Which children are reaped

Each run of `sig_chld` reaps one child.  `owed` counts the runs that are still to reap one: it is
never more than the number of zombies (`owed_le`), and every step keeps the difference, but for the
end of a child while `SIGCHLD` is pending (`Step.zombies`).  So when the signal is dealt with, all
children that have ended are reaped exactly if no signal was merged (`reaped_iff`).
-/

namespace Unp.Serv01
open Finset Trans

variable {s t : St} {e : Event} {es : List Event}

/-- no `SIGCHLD` is pending, and `sig_chld` does not run -/
structure St.Quiet (s : St) : Prop where
  pending : s.pending = false
  handler : s.handler = .off

/-- every child that has ended has been waited for -/
def St.Reaped (s : St) : Prop := ∀ i < s.forks, s.child i ≠ .zombie

/-- the end of the child sends a signal of its own -/
def Clear (s : St) (e : Event) : Prop := ∀ i, e = .exit i → s.pending = false

/-! ## zombies and the runs of the handler -/

def Phase.isZombie (p : Phase) : Bool := p = .zombie

def St.zombies (s : St) : Nat := Tally.count (range s.forks) Phase.isZombie s.child

/-- the calls of `wait` to come -/
def St.owed (s : St) : Nat := s.pending.toNat + (decide (s.handler = .waiting)).toNat

/-- the signal of this step is merged with the pending one -/
def merged (s : St) : Event → Bool
  | .exit _ => s.pending
  | _ => false

theorem clear_iff : Clear s e ↔ merged s e = false := by
  cases e with
  | exit i => exact ⟨fun h => h i rfl, fun h _ _ => h⟩
  | _ => exact ⟨fun _ => rfl, fun _ _ hc => by cases hc⟩

theorem St.Quiet.owed (h : s.Quiet) : s.owed = 0 := by
  unfold St.owed
  rw [h.pending, h.handler]
  rfl

theorem reaped_iff_zombies : s.Reaped ↔ s.zombies = 0 := by
  unfold St.zombies
  rw [Tally.count_eq_zero_iff]
  constructor
  · intro h i hi
    exact decide_eq_false (h i (mem_range.mp hi))
  · intro h i hi
    exact of_decide_eq_false (h i (mem_range.mpr hi))

theorem zombies_exit {i : Nat} (lt : i < s.forks) (runs : s.child i = .running) :
    (s.exit i).zombies = s.zombies + 1 := by
  have hcount := Tally.count_update (p := Phase.isZombie) (f := s.child) (mem_range.mpr lt) .zombie
  rw [runs] at hcount
  exact hcount

theorem zombies_wait {i : Nat} (lt : i < s.forks) (ended : s.child i = .zombie) :
    (s.wait (some i)).zombies + 1 = s.zombies := by
  have hcount := Tally.count_update (p := Phase.isZombie) (f := s.child) (mem_range.mpr lt) .reaped
  rw [ended] at hcount
  exact hcount

/-- **What a step does to the zombies and to the calls of `wait` to come.** -/
theorem Step.zombies (h : Step s e t) (hle : s.owed ≤ s.zombies) :
    t.zombies + s.owed = s.zombies + t.owed + (merged s e).toNat := by
  cases h with
  | accept connfd err main =>
    unfold St.accept
    split
    · split <;> rfl
    · rfl
  | fork connfd main =>
    have hcount := Tally.count_push Phase.isZombie s.child s.forks .running
    exact congrArg (· + s.owed) hcount
  | close connfd main => rfl
  | fail msg off run => rfl
  | exit i lt runs run =>
    have hone := zombies_exit lt runs
    show (s.exit i).zombies + (s.pending.toNat + (decide (s.handler = .waiting)).toNat) =
      s.zombies + (1 + (decide (s.handler = .waiting)).toNat) + s.pending.toNat
    omega
  | deliver pending off run =>
    show s.zombies + (s.pending.toNat + (decide (s.handler = .waiting)).toNat) = s.zombies + 1 + 0
    rw [pending, off]
    rfl
  | wait i waiting lt ended =>
    have hone := zombies_wait lt ended
    show (s.wait (some i)).zombies + (s.pending.toNat + (decide (s.handler = .waiting)).toNat) =
      s.zombies + (s.pending.toNat + 0) + 0
    rw [waiting, ← hone]
    show _ + (s.pending.toNat + 1) = _
    omega
  | waitNone waiting gone =>
    -- the handler is only called for a child that has ended
    have hzero : s.zombies = 0 := reaped_iff_zombies.mp (fun i hi hc => by
      rw [gone i hi] at hc
      cases hc)
    unfold St.owed at hle
    rw [hzero, waiting] at hle
    exact absurd (show s.pending.toNat + 1 ≤ 0 from hle) (Nat.not_succ_le_zero _)
  | ret waited =>
    show s.zombies + (s.pending.toNat + (decide (s.handler = .waiting)).toNat) =
      s.zombies + (s.pending.toNat + 0) + 0
    rw [waited]
    rfl

/-! ## runs -/

/-- `wait` never blocks: there is a zombie for each call to come -/
theorem owed_le (h : Run Step start es t) : t.owed ≤ t.zombies := by
  induction h with
  | nil => exact Nat.le_refl 0
  | snoc _ he ih =>
    have hz := he.zombies ih
    omega

/-- without a merged signal the zombies are those that `sig_chld` will be called for -/
theorem zombies_clear (h : Run (When Clear Step) start es t) : t.zombies = t.owed := by
  induction h with
  | nil => rfl
  | snoc _ he ih =>
    obtain ⟨hclear, hs⟩ := he
    have hz := hs.zombies (Nat.le_of_eq ih.symm)
    rw [clear_iff.mp hclear, Bool.toNat_false] at hz
    omega

/-- a zombie that a merged signal has left behind stays -/
theorem zombies_merged (h : Run Step start es t) (hlt : ¬ Run (When Clear Step) start es t) :
    t.owed < t.zombies := by
  induction h with
  | nil => exact absurd Run.nil hlt
  | @snoc es s e t hr he ih =>
    have hz := he.zombies (owed_le hr)
    by_cases hw : Run (When Clear Step) start es s
    · have hm : merged s e = true := by
        rw [← Bool.not_eq_false]
        exact fun hc => hlt (hw.snoc ⟨clear_iff.mpr hc, he⟩)
      have heq := zombies_clear hw
      rw [hm, Bool.toNat_true] at hz
      omega
    · have hold := ih hw
      omega

/-- **Reaping.**  In every run, when no `SIGCHLD` is pending and no handler runs, every child that
has ended has been reaped exactly if no child of the run ended while a `SIGCHLD` was pending. -/
theorem reaped_iff (es : List Event) (t : St) (h : Run Step start es t) (hq : t.Quiet) :
    t.Reaped ↔ Run (When Clear Step) start es t := by
  rw [reaped_iff_zombies]
  constructor
  · intro hz
    by_contra hw
    have hlt := zombies_merged h hw
    omega
  · intro hw
    rw [zombies_clear hw, hq.owed]

/-- two clients; the second child ends before the handler runs for the first -/
theorem not_reaped : ¬ ∀ (es : List Event) (t : St), Run Step start es t → t.Quiet → t.Reaped := by
  intro h
  let s1 := ((start.accept 4 0).fork 4).close
  let s2 := ((s1.accept 5 0).fork 5).close
  have h1 : Run Step start [.accept 4 0, .fork, .close] s1 :=
    ((Run.nil.snoc (.accept 4 0 ⟨rfl, rfl⟩)).snoc (.fork 4 ⟨rfl, rfl⟩)).snoc (.close 4 ⟨rfl, rfl⟩)
  have h2 : Run Step s1 [.accept 5 0, .fork, .close] s2 :=
    ((Run.nil.snoc (.accept 5 0 ⟨rfl, rfl⟩)).snoc (.fork 5 ⟨rfl, rfl⟩)).snoc (.close 5 ⟨rfl, rfl⟩)
  have h3 : Run Step s2 [.exit 0, .exit 1, .deliver, .wait (some 0), .ret]
      (((((s2.exit 0).exit 1).deliver).wait (some 0)).ret) :=
    ((((Run.nil.snoc (.exit 0 (by decide) rfl rfl)).snoc (.exit 1 (by decide) rfl rfl)).snoc
      (.deliver rfl rfl rfl)).snoc (.wait 0 rfl (by decide) rfl)).snoc (.ret rfl)
  exact h _ _ ((h1.trans h2).trans h3) ⟨rfl, rfl⟩ 1 (by decide) rfl

/-- one client at a time -/
theorem reaped_iff_one :
    (((((((start.accept 4 0).fork 4).close).exit 0).deliver).wait (some 0)).ret).Reaped :=
  (reaped_iff [.accept 4 0, .fork, .close, .exit 0, .deliver, .wait (some 0), .ret] _
    (((((((Run.nil.snoc (.accept 4 0 ⟨rfl, rfl⟩)).snoc (.fork 4 ⟨rfl, rfl⟩)).snoc
      (.close 4 ⟨rfl, rfl⟩)).snoc (.exit 0 (by decide) rfl rfl)).snoc (.deliver rfl rfl rfl)).snoc
      (.wait 0 rfl (by decide) rfl)).snoc (.ret rfl)) ⟨rfl, rfl⟩).mpr
    (((((((Run.nil.snoc ⟨clear_iff.mpr rfl, .accept 4 0 ⟨rfl, rfl⟩⟩).snoc
      ⟨clear_iff.mpr rfl, .fork 4 ⟨rfl, rfl⟩⟩).snoc ⟨clear_iff.mpr rfl, .close 4 ⟨rfl, rfl⟩⟩).snoc
      ⟨clear_iff.mpr rfl, .exit 0 (by decide) rfl rfl⟩).snoc
      ⟨clear_iff.mpr rfl, .deliver rfl rfl rfl⟩).snoc
      ⟨clear_iff.mpr rfl, .wait 0 rfl (by decide) rfl⟩).snoc ⟨clear_iff.mpr rfl, .ret rfl⟩)

end Unp.Serv01
