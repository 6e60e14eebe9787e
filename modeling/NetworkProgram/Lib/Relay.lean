import Mathlib.Tactic.TypeStar
import Mathlib.Data.List.Basic

/-!
# Relays: what goes in comes out, once and in order

A `Relay` has taken in some items, given out some of them and holds the rest.  That nothing is
lost, duplicated or reordered is a field of the structure, so every relay that can be built
obeys it:

* `Relay.take`   more items come in;
* `Relay.give`   the oldest `k` held items go out;
* `Relay.given_prefix`, `Relay.drained_iff`   what the outside can see.
-/

structure Relay (α : Type*) where
  taken : List α
  given : List α
  held : List α
  conserve : given ++ held = taken

namespace Relay

variable {α : Type*}

def empty : Relay α := ⟨[], [], [], rfl⟩

def take (r : Relay α) (xs : List α) : Relay α :=
  ⟨r.taken ++ xs, r.given, r.held ++ xs, by rw [← List.append_assoc, r.conserve]⟩

def give (r : Relay α) (k : Nat) : Relay α :=
  ⟨r.taken, r.given ++ r.held.take k, r.held.drop k, by
    rw [List.append_assoc, List.take_append_drop, r.conserve]⟩

@[simp] theorem take_held (r : Relay α) (xs : List α) : (r.take xs).held = r.held ++ xs := rfl
@[simp] theorem give_given (r : Relay α) (k : Nat) :
    (r.give k).given = r.given ++ r.held.take k := rfl
@[simp] theorem give_held (r : Relay α) (k : Nat) : (r.give k).held = r.held.drop k := rfl

theorem given_prefix (r : Relay α) : r.given <+: r.taken := ⟨r.held, r.conserve⟩

/-- everything taken has been given exactly when nothing is held -/
theorem drained_iff (r : Relay α) : r.given = r.taken ↔ r.held = [] := by
  constructor
  · intro h
    have hc := r.conserve
    rw [← h] at hc
    exact List.append_right_eq_self.mp hc
  · intro h
    have hc := r.conserve
    rw [h, List.append_nil] at hc
    exact hc

end Relay
