import Mathlib.Data.List.Perm.Basic
import NetworkProgram.Lib.Relay
import NetworkProgram.Lib.Sim

/-!
# Collecting until a deadline

A collector asks, shows the replies as they come in, and stops when the deadline of the question is
over; then it asks again.  What it has taken from the queue and not shown when it stops is lost.

* `good_of_run`   what is shown is part of what came in, in order, and at most one reply is lost
                  with each question that has ended;
* `lossless`      a run in which no stop loses a reply shows all that it takes;
* `expired`       every deadline ends one question.
-/

namespace Collect

open Trans

/-- the deadline is not set, it is to come, or it is past and not noticed -/
inductive Timer where
  | off
  | running
  | past
  deriving DecidableEq, Repr

structure State (ρ δ : Type*) where
  asked : List ρ
  /-- the replies that have come in, those taken from the queue, and the queue -/
  relay : Relay δ
  shown : List δ
  lost : List δ
  timer : Timer
  ended : Nat

inductive Event (ρ δ : Type*) where
  | arrive (d : δ)
  | ask (r : ρ)
  | expire
  | put (d : δ)
  | stop (lost : Option δ)
  deriving DecidableEq

section
variable {ρ δ : Type*}

def start : State ρ δ := ⟨[], Relay.empty, [], [], .off, 0⟩

inductive Step (s : State ρ δ) : Event ρ δ → State ρ δ → Prop where
  | arrive (d : δ) : Step s (.arrive d) { s with relay := s.relay.take [d] }
  | ask (r : ρ) (off : s.timer = .off) :
      Step s (.ask r) { s with asked := s.asked ++ [r], timer := .running }
  | expire (running : s.timer = .running) : Step s .expire { s with timer := .past }
  | put (d : δ) (rest : List δ) (on : s.timer ≠ .off) (held : s.relay.held = d :: rest) :
      Step s (.put d) { s with relay := s.relay.give 1, shown := s.shown ++ [d] }
  | stop (past : s.timer = .past) :
      Step s (.stop none) { s with timer := .off, ended := s.ended + 1 }
  | stopLost (d : δ) (rest : List δ) (past : s.timer = .past) (held : s.relay.held = d :: rest) :
      Step s (.stop (some d))
        { s with
          relay := s.relay.give 1
          lost := s.lost ++ [d]
          timer := .off
          ended := s.ended + 1 }

def Timer.isOn : Timer → Nat
  | .off => 0
  | _ => 1

def Timer.isOver : Timer → Nat
  | .past => 1
  | _ => 0

/-- what `arrive` brings in -/
def Event.arrived : Event ρ δ → List δ
  | .arrive d => [d]
  | _ => []

/-- what a stop loses -/
def Event.lost : Event ρ δ → List δ
  | .stop (some d) => [d]
  | _ => []

def Event.expires : Event ρ δ → Bool
  | .expire => true
  | _ => false

/-- no reply is lost with it -/
def Event.Keeps : Event ρ δ → Prop
  | .stop (some _) => False
  | _ => True

structure Good (s : State ρ δ) : Prop where
  sub : s.shown.Sublist s.relay.given
  perm : (s.shown ++ s.lost).Perm s.relay.given
  few : s.lost.length ≤ s.ended
  rounds : s.asked.length = s.ended + s.timer.isOn

variable {s t : State ρ δ} {e : Event ρ δ} {es : List (Event ρ δ)}

theorem give_one {r : Relay δ} {d : δ} {rest : List δ} (h : r.held = d :: rest) :
    (r.give 1).given = r.given ++ [d] ∧ (r.give 1).held = rest := by
  rw [Relay.give_given, Relay.give_held, h]
  exact ⟨rfl, rfl⟩

theorem Step.good (h : Step s e t) (hs : Good s) : Good t := by
  obtain ⟨sub, perm, few, rounds⟩ := hs
  cases h with
  | arrive d => exact ⟨sub, perm, few, rounds⟩
  | ask r off =>
    refine ⟨sub, perm, few, ?_⟩
    rw [off] at rounds
    rw [List.length_append, rounds]
    rfl
  | expire running =>
    refine ⟨sub, perm, few, ?_⟩
    rw [running] at rounds
    exact rounds
  | put d rest on held =>
    have hgiven := (give_one held).1
    refine ⟨?_, ?_, few, rounds⟩
    · rw [hgiven]
      exact sub.append (List.Sublist.refl _)
    · rw [hgiven, List.append_assoc]
      exact (List.Perm.append_left _ List.perm_append_comm).trans
        (by rw [← List.append_assoc]; exact perm.append_right [d])
  | stop past =>
    refine ⟨sub, perm, Nat.le_succ_of_le few, ?_⟩
    rw [past] at rounds
    exact rounds
  | stopLost d rest past held =>
    have hgiven := (give_one held).1
    refine ⟨?_, ?_, ?_, ?_⟩
    · rw [hgiven]
      exact sub.trans (List.sublist_append_left _ _)
    · rw [hgiven, ← List.append_assoc]
      exact perm.append_right [d]
    · rw [List.length_append]
      exact Nat.succ_le_succ few
    · rw [past] at rounds
      exact rounds

theorem good_start : Good (start : State ρ δ) :=
  ⟨List.Sublist.refl _, List.Perm.refl _, Nat.le_refl _, rfl⟩

theorem good_of_run (h : Run Step start es s) : Good s :=
  h.inv good_start (fun _ _ _ hg he => he.good hg)

theorem taken_of_run (h : Run Step start es s) : s.relay.taken = es.flatMap Event.arrived := by
  induction h with
  | nil => rfl
  | snoc _ he ih =>
    rw [List.flatMap_append, ← ih, List.flatMap_singleton]
    cases he <;> first | rfl | exact (List.append_nil _).symm

theorem lost_of_run (h : Run Step start es s) : s.lost = es.flatMap Event.lost := by
  induction h with
  | nil => rfl
  | snoc _ he ih =>
    rw [List.flatMap_append, ← ih, List.flatMap_singleton]
    cases he <;> first | rfl | exact (List.append_nil _).symm

/-- nothing is lost: what is taken is shown -/
theorem lossless (hkeeps : ∀ e ∈ es, e.Keeps) (h : Run Step start es s) :
    s.shown = s.relay.given ∧ s.lost = [] := by
  have hwhen := h.when_of_all (C := fun _ e => e.Keeps) (fun _ _ hk => hk) hkeeps
  clear h hkeeps
  induction hwhen with
  | nil => exact ⟨rfl, rfl⟩
  | snoc _ he ih =>
    obtain ⟨hshown, hlost⟩ := ih
    obtain ⟨hk, hstep⟩ := he
    cases hstep with
    | put d rest on held => exact ⟨by rw [(give_one held).1, hshown], hlost⟩
    | stopLost => exact hk.elim
    | arrive | ask | expire | stop => exact ⟨hshown, hlost⟩

theorem expired (h : Run Step start es s) :
    es.countP Event.expires = s.ended + s.timer.isOver := by
  induction h with
  | nil => rfl
  | snoc _ he ih =>
    rw [List.countP_append, ih]
    cases he with
    | arrive | put => rfl
    | ask r off => rw [off]; rfl
    | expire running => rw [running]; rfl
    | stop past => rw [past]; rfl
    | stopLost d rest past held => rw [past]; rfl

end

end Collect
