import NetworkProgram.Readline.Pieces

/-!
# What `readline` returns

`n` starts at 1: at a newline it is the number of bytes stored, at the end of file `n - 1` is, but
when the buffer is full it is one too many.  So `readline` returns the number of bytes it has stored
exactly if it finds a newline or the end before the buffer is full (`readline_counts_iff`).
-/

namespace Unp
open Cut

variable {β : Type} {isNl : β → Bool} {s : Statics β} {feed : Feed β}

/-- the value returned is the number of bytes stored; it is 0 only at the end of file or without room
for a byte -/
structure CountsRight (isNl : β → Bool) (maxlen : Nat) (s : Statics β) (feed : Feed β) : Prop where
  ret : (readline isNl maxlen s feed).line.ret = (readline isNl maxlen s feed).line.stored.length
  zero : (readline isNl maxlen s feed).line.ret = 0 ↔ pending s feed = [] ∨ maxlen ≤ 1

/-- the stream ends a line before the buffer is full: by a newline or by its end -/
def Ends (isNl : β → Bool) (w : Nat) (stream : List β) : Prop :=
  (∃ c ∈ stream.take w, isNl c = true) ∨ stream.length < w

theorem not_ends_zero (stream : List β) : ¬ Ends isNl 0 stream := by
  rintro (⟨c, hc, _⟩ | h)
  · exact absurd hc List.not_mem_nil
  · exact absurd h (Nat.not_lt_zero _)

theorem ends_nil (w : Nat) : Ends isNl (w + 1) ([] : List β) := Or.inr (Nat.succ_pos w)

theorem ends_cons {w : Nat} {c : β} {stream : List β} :
    Ends isNl (w + 1) (c :: stream) ↔ isNl c = true ∨ Ends isNl w stream := by
  unfold Ends
  rw [List.take_succ_cons, List.exists_mem_cons_iff, List.length_cons, Nat.succ_lt_succ_iff, or_assoc]

/-- the loop at `n`, by induction on the turns left: the value returned is right if the line ends,
and else one more than the bytes stored -/
theorem readlineFrom_count (isNl : β → Bool) (room : Nat) (acc : List β) (s : Statics β) (feed : Feed β)
    (hf : feed.Data) :
    let r := readlineFrom isNl room (acc.length + 1) acc s feed
    (Ends isNl room (pending s feed) → r.line.ret = r.line.stored.length) ∧
      (¬ Ends isNl room (pending s feed) → r.line.ret = r.line.stored.length + 1) := by
  induction room generalizing acc s feed with
  | zero => exact ⟨fun h => absurd h (not_ends_zero _), fun _ => rfl⟩
  | succ room ih =>
    unfold readlineFrom
    dsimp only
    cases hp : pending s feed with
    | nil =>
      rw [(myRead_end hf hp).1]
      refine ⟨fun _ => ?_, fun h => absurd (ends_nil room) h⟩
      show ((acc.length + 1 : Nat) : Int) - 1 = (acc.length : Nat)
      omega
    | cons c rest =>
      obtain ⟨hrc, hrest, hdata⟩ := myRead_byte hf hp
      rw [hrc, ends_cons]
      dsimp only
      have hlen : (acc ++ [c]).length = acc.length + 1 := List.length_append
      by_cases hc : isNl c = true
      · rw [if_pos hc]
        refine ⟨fun _ => ?_, fun h => absurd (Or.inl hc) h⟩
        show ((acc.length + 1 : Nat) : Int) = ((acc ++ [c]).length : Nat)
        rw [hlen]
      · have hnext := ih (acc ++ [c]) (myRead s feed).st (myRead s feed).feed hdata
        rw [hrest, hlen] at hnext
        rw [if_neg hc, or_iff_right hc]
        exact hnext

/-- **`readline` counts right exactly if the line ends before the buffer is full.** -/
theorem readline_counts_iff (isNl : β → Bool) (maxlen : Nat) (s : Statics β) (feed : Feed β)
    (hf : feed.Data) :
    CountsRight isNl maxlen s feed ↔ Ends isNl (maxlen - 1) (pending s feed) := by
  obtain ⟨hright, hwrong⟩ := readlineFrom_count isNl (maxlen - 1) [] s feed hf
  constructor
  · intro h
    by_contra hne
    have hone := hwrong hne
    have hret : (readlineFrom isNl (maxlen - 1) 1 [] s feed).line.ret = _ := h.ret
    exact absurd (hret.symm.trans hone) (Int.ne_of_lt (Int.lt_succ _))
  · intro he
    have hret : (readline isNl maxlen s feed).line.ret =
      (readline isNl maxlen s feed).line.stored.length := hright he
    refine ⟨hret, ?_⟩
    have hroom : 0 < maxlen - 1 := by
      rcases Nat.eq_zero_or_pos (maxlen - 1) with h0 | hpos
      · rw [h0] at he
        exact absurd he (not_ends_zero _)
      · exact hpos
    have hst := (readline_cut isNl maxlen s feed hf).1
    rw [hret, Int.natCast_eq_zero, List.length_eq_zero_iff, hst, or_iff_left (by omega)]
    constructor
    · intro hnil
      by_contra hne
      exact cut_ne_nil hroom hne hnil
    · intro hnil
      have happ := cut_append (p := isNl) (maxlen - 1) (pending s feed)
      rw [hnil] at happ ⊢
      exact (List.append_eq_nil_iff.mp happ).1

/-- a newline in front of the limit -/
theorem readline_counts_iff_line :
    CountsRight (· == 10) 4096 ⟨0, 0, fun _ => 0⟩ [.data [97, 10, 98] (by decide) (by decide)] :=
  (readline_counts_iff (· == 10) 4096 ⟨0, 0, fun _ => 0⟩ _ (by
    intro r hr
    obtain rfl := List.mem_singleton.mp hr
    decide)).mpr (Or.inl ⟨10, by decide, rfl⟩)

/-- a buffer for one byte: it is full before the newline, and 2 is returned -/
theorem not_readline_counts :
    ¬ ∀ (maxlen : Nat) (s : Statics Nat) (feed : Feed Nat), feed.Data → 1 ≤ maxlen →
      CountsRight (· == 10) maxlen s feed := by
  intro h
  have hc := h 2 ⟨0, 0, fun _ => 0⟩ [.data [97, 10] (by decide) (by decide)] (by
    intro r hr
    obtain rfl := List.mem_singleton.mp hr
    decide) (by decide)
  have hret : (2 : Int) = 1 := hc.ret
  cases hret

end Unp
