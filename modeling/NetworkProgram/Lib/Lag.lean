import Mathlib.Data.List.Nodup
import Mathlib.Data.List.Sublists
import NetworkProgram.Lib.Sim

/-!
# Questions that are given up

An asker asks one question after the other and waits for an answer, or gives the question up; it
takes any answer for the answer to the question it asked last.  The answers come in the order of the
questions, and some get lost on the way.

* `good_of_run`   an answer is late by no more than the number of questions given up before it, and
                  by exactly that number when nothing is lost.
-/

namespace Lag

open Trans

/-- an answer that was taken for that of question `iter`, when `before` questions had been given up;
it is the answer to question `num` -/
structure Answer (ρ : Type*) where
  iter : Nat
  text : ρ
  num : Nat
  before : Nat
  deriving DecidableEq, Repr

structure State (ρ : Type*) where
  asked : List ρ
  /-- the answers that are still to come, with the numbers of their questions -/
  flight : List (ρ × Nat)
  got : List (Answer ρ)
  gaveUp : Nat
  lost : Nat
  waiting : Bool

inductive Event (ρ : Type*) where
  | ask (r : ρ)
  | answer
  | giveUp
  | lose
  deriving DecidableEq, Repr

section
variable {ρ : Type*}

def start : State ρ := ⟨[], [], [], 0, 0, false⟩

inductive Step (s : State ρ) : Event ρ → State ρ → Prop where
  | ask (r : ρ) (idle : s.waiting = false) :
      Step s (.ask r)
        { s with
          asked := s.asked ++ [r]
          flight := s.flight ++ [(r, s.asked.length)]
          waiting := true }
  | answer (p : ρ × Nat) (rest : List (ρ × Nat)) (waiting : s.waiting = true)
      (flight : s.flight = p :: rest) :
      Step s .answer
        { s with
          flight := rest
          got := s.got ++ [⟨s.asked.length - 1, p.1, p.2, s.gaveUp⟩]
          waiting := false }
  | giveUp (waiting : s.waiting = true) :
      Step s .giveUp { s with gaveUp := s.gaveUp + 1, waiting := false }
  | lose (i : Nat) (lt : i < s.flight.length) :
      Step s .lose { s with flight := s.flight.eraseIdx i, lost := s.lost + 1 }

def Answer.pair (g : Answer ρ) : ρ × Nat := (g.text, g.num)

/-- the answers there are, with the numbers of their questions -/
def State.pairs (s : State ρ) : List (ρ × Nat) := s.got.map Answer.pair ++ s.flight

structure Good (s : State ρ) : Prop where
  sub : s.pairs.Sublist s.asked.zipIdx
  len : s.pairs.length + s.lost = s.asked.length
  count : s.got.length + s.gaveUp + s.waiting.toNat = s.asked.length
  late : ∀ g ∈ s.got, g.num ≤ g.iter ∧ g.iter ≤ g.num + g.before
  exact : s.lost = 0 → ∀ g ∈ s.got, g.iter = g.num + g.before

variable {s t : State ρ} {e : Event ρ} {es : List (Event ρ)} {l : List (ρ × Nat)} {asked : List ρ}

/-- the numbers of a part of the questions rise -/
theorem pairwise_of_sublist (h : l.Sublist asked.zipIdx) : (l.map Prod.snd).Pairwise (· < ·) := by
  have hmap := h.map Prod.snd
  rw [List.zipIdx_map_snd, ← List.range_eq_range'] at hmap
  exact List.pairwise_lt_range.sublist hmap

/-- a rising list has reached at least `k` behind its first `k` numbers -/
theorem length_le_of_pairwise {a b : List Nat} {n : Nat}
    (h : (a ++ n :: b).Pairwise (· < ·)) : a.length ≤ n := by
  have hnodup : a.Nodup := (List.pairwise_append.mp h).1.imp Nat.ne_of_lt
  have hlt : ∀ x ∈ a, x ∈ List.range n := fun x hx =>
    List.mem_range.mpr ((List.pairwise_append.mp h).2.2 x hx n List.mem_cons_self)
  have hle := (hnodup.subperm hlt).length_le
  rwa [List.length_range] at hle

/-- the answer that comes next is not older than the number of answers so far, nor younger than the
last question -/
theorem Good.next (hs : Good s) {p : ρ × Nat} {rest : List (ρ × Nat)} (hf : s.flight = p :: rest) :
    s.got.length ≤ p.2 ∧ p.2 < s.asked.length := by
  have hsub := hs.sub
  rw [State.pairs, hf] at hsub
  constructor
  · have hp := pairwise_of_sublist hsub
    rw [List.map_append, List.map_cons] at hp
    have hle := length_le_of_pairwise hp
    rwa [List.length_map, List.length_map] at hle
  · have hmem := hsub.subset (List.mem_append_right _ List.mem_cons_self)
    exact (List.getElem?_eq_some_iff.mp (List.mem_zipIdx_iff_getElem?.mp hmem)).1

theorem Good.next_eq (hs : Good s) (hl : s.lost = 0) {p : ρ × Nat} {rest : List (ρ × Nat)}
    (hf : s.flight = p :: rest) : p.2 = s.got.length := by
  have hlen := hs.len
  rw [hl, Nat.add_zero] at hlen
  have heq := hs.sub.eq_of_length (by rw [hlen, List.length_zipIdx])
  rw [State.pairs, hf] at heq
  have hget : s.asked.zipIdx[s.got.length]? = some p := by
    rw [← heq, List.getElem?_append_right (by rw [List.length_map]), List.length_map, Nat.sub_self]
    rfl
  rw [List.getElem?_zipIdx] at hget
  obtain ⟨x, -, hx⟩ := Option.map_eq_some_iff.mp hget
  rw [← hx, Nat.zero_add]

theorem Step.good (h : Step s e t) (hs : Good s) : Good t := by
  have hnext := @hs.next
  have hnextEq := @hs.next_eq
  obtain ⟨sub, len, count, late, exact⟩ := hs
  cases h with
  | ask r idle =>
    have hpairs : State.pairs { s with
        asked := s.asked ++ [r], flight := s.flight ++ [(r, s.asked.length)], waiting := true } =
        s.pairs ++ [(r, s.asked.length)] := (List.append_assoc ..).symm
    refine ⟨?_, ?_, ?_, late, exact⟩
    · rw [hpairs]
      show (s.pairs ++ [(r, s.asked.length)]).Sublist (s.asked ++ [r]).zipIdx
      rw [List.zipIdx_append, Nat.zero_add]
      exact sub.append (List.Sublist.refl _)
    · rw [hpairs]
      show (s.pairs ++ [_]).length + s.lost = (s.asked ++ [r]).length
      rw [List.length_append, List.length_append, ← len]
      exact Nat.add_right_comm ..
    · rw [idle] at count
      show s.got.length + s.gaveUp + 1 = (s.asked ++ [r]).length
      rw [List.length_append, ← count]
      rfl
  | answer p rest waiting flight =>
    obtain ⟨hlo, hhi⟩ := hnext flight
    have hpairs : State.pairs { s with
        flight := rest, got := s.got ++ [⟨s.asked.length - 1, p.1, p.2, s.gaveUp⟩],
        waiting := false } = s.pairs := by
      rw [State.pairs, State.pairs, flight, List.map_append, List.append_assoc]
      rfl
    rw [waiting, Bool.toNat_true] at count
    refine ⟨by rw [hpairs]; exact sub, by rw [hpairs]; exact len, ?_, ?_, ?_⟩
    · show (s.got ++ [_]).length + s.gaveUp + 0 = s.asked.length
      rw [List.length_append, List.length_singleton]
      omega
    · intro g hg
      rcases List.mem_append.mp hg with hg | hg
      · exact late g hg
      · rw [List.mem_singleton.mp hg]
        dsimp only
        omega
    · intro hl g hg
      rcases List.mem_append.mp hg with hg | hg
      · exact exact hl g hg
      · rw [List.mem_singleton.mp hg]
        have hnum := hnextEq hl flight
        dsimp only
        omega
  | giveUp waiting =>
    rw [waiting, Bool.toNat_true] at count
    refine ⟨sub, len, ?_, late, exact⟩
    show s.got.length + (s.gaveUp + 1) + 0 = s.asked.length
    omega
  | lose i lt =>
    refine ⟨?_, ?_, count, late, fun hl => absurd hl (Nat.succ_ne_zero _)⟩
    · exact (List.Sublist.append_left (List.eraseIdx_sublist ..) _).trans sub
    · show (s.got.map Answer.pair ++ s.flight.eraseIdx i).length + (s.lost + 1) = s.asked.length
      rw [State.pairs, List.length_append] at len
      rw [List.length_append, List.length_eraseIdx_of_lt lt]
      omega

theorem good_start : Good (start : State ρ) :=
  ⟨List.Sublist.refl _, rfl, rfl, nofun, fun _ => nofun⟩

theorem good_of_run (h : Run Step start es s) : Good s :=
  h.inv good_start (fun _ _ _ hg he => he.good hg)

theorem lossless (hlose : Event.lose ∉ es) (h : Run Step start es s) : s.lost = 0 := by
  have hwhen := h.when_of_all (C := fun _ e => e ≠ .lose) (P := fun e : Event ρ => e ≠ .lose)
    (fun _ _ hne => hne) (fun e he hlast => hlose (hlast ▸ he))
  clear h hlose
  induction hwhen with
  | nil => rfl
  | snoc _ he ih =>
    obtain ⟨hne, hstep⟩ := he
    cases hstep with
    | lose => exact absurd rfl hne
    | ask | answer | giveUp => exact ih

end

end Lag
