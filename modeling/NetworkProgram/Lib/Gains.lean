import Mathlib.Data.Finset.Lattice.Lemmas
import Mathlib.Data.Finset.Dedup
import NetworkProgram.Lib.Ledger

/-!
# What a piece of code comes to hold

`Gains log log' l`: from `log` to `log'` everything acquired and released is in order, and what is held
in the end is what was held before, and the items of `l`, each acquired anew.  The rules follow the
code: an acquisition puts an item to the list, a release takes one off, and two pieces one after the
other gain both lists.
-/

namespace Ledger

variable {α : Type*} [DecidableEq α] {log log' log'' : List (Entry α)} {l l' : List α} {x : α}

structure Gains (log log' : List (Entry α)) (l : List α) : Prop where
  balanced : Balanced log'
  held : ∀ x, x ∈ held log' ↔ x ∈ l ∨ x ∈ held log
  nodup : l.Nodup
  fresh : ∀ x ∈ l, x ∉ Ledger.held log

theorem Gains.refl (h : Balanced log) : Gains log log [] :=
  ⟨h, fun _ => ⟨Or.inr, fun hx => hx.resolve_left List.not_mem_nil⟩, List.nodup_nil, nofun⟩

theorem Gains.acquire (h : Gains log log' l) (hx : x ∉ Ledger.held log') :
    Gains log (.acquire x :: log') (x :: l) := by
  have hnot := not_or.mp (mt (h.held x).mpr hx)
  refine ⟨balanced_acquire.mpr ⟨hx, h.balanced⟩, fun y => ?_, List.nodup_cons.mpr ⟨hnot.1, h.nodup⟩,
    fun y hy => ?_⟩
  · rw [held_acquire, Finset.mem_insert, h.held, List.mem_cons, or_assoc]
  · rcases List.mem_cons.mp hy with rfl | hy
    · exact hnot.2
    · exact h.fresh y hy

theorem Gains.release (h : Gains log log' (x :: l)) : Gains log (.release x :: log') l := by
  obtain ⟨hx, hl⟩ := List.nodup_cons.mp h.nodup
  have hfresh := h.fresh x List.mem_cons_self
  refine ⟨balanced_release.mpr ⟨(h.held x).mpr (Or.inl List.mem_cons_self), h.balanced⟩,
    fun y => ?_, hl, fun y hy => h.fresh y (List.mem_cons_of_mem _ hy)⟩
  rw [held_release, Finset.mem_erase, h.held, List.mem_cons]
  constructor
  · rintro ⟨hne, (rfl | hy) | hy⟩
    · exact absurd rfl hne
    · exact Or.inl hy
    · exact Or.inr hy
  · rintro (hy | hy)
    · exact ⟨fun he => hx (he ▸ hy), Or.inl (Or.inr hy)⟩
    · exact ⟨fun he => hfresh (he ▸ hy), Or.inr hy⟩

/-- the order of the list does not matter -/
theorem Gains.perm (h : Gains log log' l) (hp : l.Perm l') : Gains log log' l' :=
  ⟨h.balanced, fun x => by rw [h.held, hp.mem_iff], hp.nodup_iff.mp h.nodup,
    fun x hx => h.fresh x (hp.mem_iff.mpr hx)⟩

/-- **One piece after the other.** -/
theorem Gains.trans (h : Gains log log' l) (h' : Gains log' log'' l') :
    Gains log log'' (l' ++ l) := by
  refine ⟨h'.balanced, fun x => ?_, ?_, fun x hx => ?_⟩
  · rw [h'.held, h.held, List.mem_append, or_assoc]
  · refine List.nodup_append'.mpr ⟨h'.nodup, h.nodup, fun x hx' hx => ?_⟩
    exact h'.fresh x hx' ((h.held x).mpr (Or.inl hx))
  · rcases List.mem_append.mp hx with hx | hx
    · exact fun hold => h'.fresh x hx ((h.held x).mpr (Or.inr hold))
    · exact h.fresh x hx

end Ledger
