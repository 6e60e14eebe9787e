import Mathlib.Data.List.Nodup
import Mathlib.Data.List.ReduceOption
import NetworkProgram.Lib.Sim

/-!
# Numbered questions and their answers

Questions are numbered as they are asked, and answered at most once.  An answer waits in a queue, among
strays, is taken into the hand and shown; questions and answers get lost.

* `Kept`          every question is in one place;
* `kept_of_run`   that holds in every run;
* `all_shown`     where nothing is lost and nothing is on its way, each question is shown once.
-/

namespace Answers

open Trans

/-- the numbers of the questions; `none` is a stray -/
structure State where
  asked : Nat
  flight : List Nat
  queue : List (Option Nat)
  hand : Option (Option Nat)
  shown : List (Option Nat)
  lost : List Nat

inductive Event where
  | ask
  | answer
  | stray
  | lose
  | drop
  | take
  | put
  deriving DecidableEq, Repr

def start : State := ⟨0, [], [], none, [], []⟩

inductive Step (s : State) : Event → State → Prop where
  | ask : Step s .ask { s with asked := s.asked + 1, flight := s.flight ++ [s.asked] }
  | answer (k : Nat) (before after : List Nat) (flight : s.flight = before ++ k :: after) :
      Step s .answer { s with flight := before ++ after, queue := s.queue ++ [some k] }
  | stray : Step s .stray { s with queue := s.queue ++ [none] }
  | lose (k : Nat) (before after : List Nat) (flight : s.flight = before ++ k :: after) :
      Step s .lose { s with flight := before ++ after, lost := s.lost ++ [k] }
  | drop (o : Option Nat) (before after : List (Option Nat)) (queue : s.queue = before ++ o :: after) :
      Step s .drop { s with queue := before ++ after, lost := s.lost ++ o.toList }
  | take (o : Option Nat) (rest : List (Option Nat)) (hand : s.hand = none) (queue : s.queue = o :: rest) :
      Step s .take { s with queue := rest, hand := some o }
  | put (o : Option Nat) (hand : s.hand = some o) :
      Step s .put { s with hand := none, shown := s.shown ++ [o] }

/-- the numbers in all places -/
def State.places (s : State) : List Nat :=
  s.flight ++ (s.queue.reduceOption ++ (s.hand.toList.reduceOption ++ (s.shown.reduceOption ++ s.lost)))

def Kept (s : State) : Prop := s.places.Perm (List.range s.asked)

/-- nothing is lost with it -/
def Event.Keeps : Event → Prop
  | .lose => False
  | .drop => False
  | _ => True

variable {s t : State} {e : Event} {es : List Event}

theorem reduceOption_middle (before after : List (Option Nat)) (o : Option Nat) :
    (before ++ o :: after).reduceOption =
      before.reduceOption ++ (o.toList ++ after.reduceOption) := by
  rw [List.reduceOption_append]
  cases o <;> rfl

theorem reduceOption_last (l : List (Option Nat)) (o : Option Nat) :
    (l ++ [o]).reduceOption = l.reduceOption ++ o.toList := by
  rw [reduceOption_middle]
  exact congrArg _ (List.append_nil _)

theorem reduceOption_head (l : List (Option Nat)) (o : Option Nat) :
    (o :: l).reduceOption = o.toList ++ l.reduceOption := reduceOption_middle [] l o

/-- a step moves one number from place to place, or brings in the next one -/
theorem Step.kept (h : Step s e t) (hs : Kept s) : Kept t := by
  have hcount := List.perm_iff_count.mp hs
  refine List.perm_iff_count.mpr fun x => ?_
  have hx := hcount x
  unfold State.places at hx ⊢
  cases h with
  | ask =>
    rw [List.range_succ]
    simp only [List.count_append] at hx ⊢
    omega
  | answer k before after flight =>
    rw [flight] at hx
    rw [reduceOption_last]
    simp only [List.count_append, List.count_cons, List.count_nil, Option.toList_some] at hx ⊢
    omega
  | stray =>
    rw [reduceOption_last]
    simp only [List.count_append, List.count_nil, Option.toList_none] at hx ⊢
    omega
  | lose k before after flight =>
    rw [flight] at hx
    simp only [List.count_append, List.count_cons, List.count_nil] at hx ⊢
    omega
  | drop o before after queue =>
    rw [queue, reduceOption_middle] at hx
    rw [List.reduceOption_append]
    simp only [List.count_append] at hx ⊢
    omega
  | take o rest hand queue =>
    rw [queue, hand, reduceOption_head] at hx
    have hhand : (some o).toList.reduceOption = o.toList :=
      (reduceOption_head [] o).trans (List.append_nil _)
    rw [hhand]
    simp only [List.count_append, Option.toList_none, List.reduceOption_nil, List.count_nil] at hx ⊢
    omega
  | put o hand =>
    have hhand : (some o).toList.reduceOption = o.toList :=
      (reduceOption_head [] o).trans (List.append_nil _)
    rw [hand, hhand] at hx
    rw [reduceOption_last]
    simp only [List.count_append, Option.toList_none, List.reduceOption_nil, List.count_nil] at hx ⊢
    omega

theorem kept_start : Kept start := List.Perm.refl []

theorem kept_of_run (h : Run Step start es s) : Kept s :=
  h.inv kept_start (fun _ _ _ hk he => he.kept hk)

/-- what is shown has been asked, and no question is shown twice -/
theorem Kept.shown (h : Kept s) :
    s.shown.reduceOption.Nodup ∧ ∀ k ∈ s.shown.reduceOption, k < s.asked := by
  have hsub : s.shown.reduceOption.Sublist s.places := by
    unfold State.places
    refine List.Sublist.trans ?_ (List.sublist_append_right _ _)
    refine List.Sublist.trans ?_ (List.sublist_append_right _ _)
    refine List.Sublist.trans ?_ (List.sublist_append_right _ _)
    exact List.sublist_append_left _ _
  refine ⟨(h.nodup_iff.mpr List.nodup_range).sublist hsub, fun k hk => ?_⟩
  exact List.mem_range.mp (h.mem_iff.mp (hsub.subset hk))

theorem lost_of_run (hkeeps : ∀ e ∈ es, e.Keeps) (h : Run Step start es s) : s.lost = [] := by
  have hwhen := h.when_of_all (C := fun _ e => e.Keeps) (fun _ _ hk => hk) hkeeps
  clear h hkeeps
  induction hwhen with
  | nil => rfl
  | snoc _ he ih =>
    obtain ⟨hk, hstep⟩ := he
    cases hstep with
    | lose => exact hk.elim
    | drop => exact hk.elim
    | ask | answer | stray | take | put => exact ih

/-- **Nothing lost, nothing on its way:** each question is shown, and once. -/
theorem all_shown (hkeeps : ∀ e ∈ es, e.Keeps) (h : Run Step start es s) (hflight : s.flight = [])
    (hqueue : s.queue = []) (hhand : s.hand = none) :
    s.shown.reduceOption.Perm (List.range s.asked) := by
  have hkept := kept_of_run h
  unfold Kept State.places at hkept
  rw [lost_of_run hkeeps h, hflight, hqueue, hhand, List.append_nil] at hkept
  exact hkept

end Answers
