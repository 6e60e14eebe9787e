import NetworkProgram.Readline.Pieces

/-!
# What `readline` leaves in its buffer

`received`: the bytes a call finds in the buffer and the chunks it has to read for a whole piece.
After the call the buffer holds what comes behind that piece (`readline_window`).
-/

namespace Unp
open Cut

variable {β : Type} (isNl : β → Bool)

/-- the buffer holds a piece that is not the last -/
def Complete (w : Nat) (buf : List β) : Prop := w ≤ buf.length ∨ ¬ Unmarked isNl buf

instance (w : Nat) (buf : List β) : Decidable (Complete isNl w buf) :=
  inferInstanceAs (Decidable (w ≤ buf.length ∨ ¬ ∀ c ∈ buf, isNl c = false))

/-- `buf`, and chunk after chunk until there is a piece of at most `w` bytes -/
def received (w : Nat) (buf : List β) : Feed β → List β
  | [] => buf
  | r :: feed => if Complete isNl w buf then buf else received w (buf ++ r.bytes) feed

variable {isNl} {w : Nat} {buf : List β} {feed : Feed β}

theorem received_complete (h : Complete isNl w buf) : received isNl w buf feed = buf := by
  cases feed with
  | nil => rfl
  | cons r feed => exact if_pos h

theorem received_step {r : ReadRes β MAXLINE} (h : ¬ Complete isNl w buf) :
    received isNl w buf (r :: feed) = received isNl w (buf ++ r.bytes) feed := if_neg h

theorem not_complete_nil (w : Nat) : ¬ Complete isNl (w + 1) [] := by
  rintro (h | h)
  · exact absurd h (Nat.not_succ_le_zero w)
  · exact h unmarked_nil

theorem complete_cons {c : β} (hc : isNl c = false) :
    Complete isNl (w + 1) (c :: buf) ↔ Complete isNl w buf := by
  unfold Complete
  rw [List.length_cons, Nat.succ_le_succ_iff, unmarked_cons, hc]
  simp only [true_and]

/-- a byte of the piece, and the rest -/
theorem received_cons {c : β} (hc : isNl c = false) :
    received isNl (w + 1) (c :: buf) feed = c :: received isNl w buf feed := by
  induction feed generalizing buf with
  | nil => rfl
  | cons r feed ih =>
    by_cases h : Complete isNl w buf
    · rw [received_complete h, received_complete ((complete_cons hc).mpr h)]
    · rw [received_step h, received_step (fun h' => h ((complete_cons hc).mp h')), List.cons_append,
        ih]

theorem received_marked {c : β} (hc : isNl c = true) :
    received isNl (w + 1) (c :: buf) feed = c :: buf := by
  refine received_complete (Or.inr (fun h => ?_))
  rw [(unmarked_cons.mp h).1] at hc
  cases hc

/-- what a call leaves, when the next byte is `c` -/
theorem cut_received_cons {c : β} :
    (cut isNl (w + 1) (received isNl (w + 1) (c :: buf) feed)).2 =
      if isNl c then buf else (cut isNl w (received isNl w buf feed)).2 := by
  cases hc : isNl c with
  | true =>
    rw [received_marked hc, cut, if_pos hc]
    rfl
  | false =>
    rw [received_cons hc, cut, if_neg (by rw [hc]; exact Bool.false_ne_true)]
    rfl

/-! ## readline -/

/-- the loop, by induction on the turns left -/
theorem readlineFrom_window (room n : Nat) (acc : List β) (s : Statics β) (feed : Feed β)
    (hf : feed.Data) :
    (readlineFrom isNl room n acc s feed).st.window =
      (cut isNl room (received isNl room s.window feed)).2 := by
  induction room generalizing n acc s feed with
  | zero =>
    rw [received_complete (Or.inl (Nat.zero_le _))]
    rfl
  | succ room ih =>
    unfold readlineFrom
    dsimp only
    rcases Nat.eq_zero_or_pos s.readCnt with h0 | hpos
    · rw [s.window_nil h0]
      cases feed with
      | nil =>
        obtain ⟨hrc, hend, _⟩ := myRead_end hf (show pending s [] = [] by
          rw [pending, s.window_nil h0]
          rfl)
        rw [hrc]
        exact (List.append_eq_nil_iff.mp hend).1
      | cons r feed =>
        obtain ⟨c, bs, pos, le, rfl, hdata⟩ := hf.cons
        obtain ⟨hrc, hwin, hfeed⟩ := myRead_refill feed h0 pos le
        rw [received_step (not_complete_nil room), hrc]
        dsimp only
        show _ = (cut isNl (room + 1) (received isNl (room + 1) (c :: bs) feed)).2
        rw [cut_received_cons]
        split
        · exact hwin
        · rw [ih _ _ _ _ (by rw [hfeed]; exact hdata), hwin, hfeed]
    · rw [myRead_buffered hpos, s.window_cons hpos]
      show (if isNl (s.readBuf s.readPtr) then _ else _ : Readline β).st.window = _
      rw [cut_received_cons]
      split
      · rfl
      · exact ih _ _ _ _ hf

/-- **The buffer after a call**: what comes behind the piece. -/
theorem readline_window (isNl : β → Bool) (maxlen : Nat) (s : Statics β) (feed : Feed β) (hf : feed.Data) :
    (readline isNl maxlen s feed).st.window =
      (cut isNl (maxlen - 1) (received isNl (maxlen - 1) s.window feed)).2 :=
  readlineFrom_window (maxlen - 1) 1 [] s feed hf

end Unp
