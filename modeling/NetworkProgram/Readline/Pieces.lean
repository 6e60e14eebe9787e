import NetworkProgram.Lib.Piece
import NetworkProgram.Readline.Conserve

/-!
# `readline` cuts the stream

Where `read` delivers bytes until the end of file (`Feed.Data`), a call of `readline` stores the
first piece of what is pending: up to a newline, to `maxlen - 1` bytes, or to the end
(`readline_cut`).  It returns 0 only where nothing is pending (`readline_ret`).
-/

namespace Unp
open Cut

variable {β : Type}

/-- every `read` delivers bytes, until there are no more -/
def Feed.Data (feed : Feed β) : Prop := ∀ r ∈ feed, 0 < r.ret

theorem Feed.Data.noErr {feed : Feed β} (h : feed.Data) : feed.NoErr := fun r hr => Int.le_of_lt (h r hr)

theorem Feed.data_nil : Feed.Data ([] : Feed β) := fun _ h => absurd h List.not_mem_nil

variable {s : Statics β} {feed : Feed β}

/-! ## my_read -/

/-- `read` refills the buffer -/
theorem myRead_refill (feed : Feed β) (h : s.readCnt = 0) {c : β} {bs : List β} (pos : 0 < (c :: bs).length)
    (le : (c :: bs).length ≤ MAXLINE) :
    let r := myRead s (.data (c :: bs) pos le :: feed)
    r.rc = .byte c ∧ r.st.window = bs ∧ r.feed = feed := by
  have hmy : myRead s (.data (c :: bs) pos le :: feed) =
      fetch ⟨(c :: bs).length, 0, fun k => (c :: bs).getD k (s.readBuf k)⟩ feed := by
    unfold myRead
    rw [if_pos (by omega)]
    unfold again
    dsimp only
    rw [sizeT_data, if_neg (Nat.not_lt_zero _), if_neg (by omega)]
    rfl
  have hfill := window_fill (c :: bs) s.readBuf
  rw [Statics.window_cons pos] at hfill
  rw [hmy]
  exact ⟨rfl, (List.cons.inj hfill).2, rfl⟩

theorem Feed.Data.cons {r : ReadRes β MAXLINE} (h : Feed.Data (r :: feed)) :
    ∃ c bs pos le, r = .data (c :: bs) pos le ∧ feed.Data := by
  have hr : 0 < r.ret := h r (List.mem_cons_self ..)
  cases r with
  | data bs pos le =>
    obtain ⟨c, bs, rfl⟩ := List.exists_cons_of_length_pos pos
    exact ⟨c, bs, pos, le, rfl, fun r' h' => h r' (List.mem_cons_of_mem _ h')⟩
  | eof => exact absurd (show (0 : Int) < 0 from hr) (by decide)
  | err e => exact absurd (show (0 : Int) < -1 from hr) (by decide)

/-- the next pending byte -/
theorem myRead_byte (hf : feed.Data) {c : β} {rest : List β} (h : pending s feed = c :: rest) :
    let r := myRead s feed
    r.rc = .byte c ∧ pending r.st r.feed = rest ∧ r.feed.Data := by
  rcases Nat.eq_zero_or_pos s.readCnt with h0 | hpos
  · rw [pending, s.window_nil h0, List.nil_append] at h
    cases feed with
    | nil => cases h
    | cons r feed =>
      obtain ⟨c', bs, pos, le, rfl, hdata⟩ := hf.cons
      obtain ⟨hrc, hwin, hfeed⟩ := myRead_refill feed h0 pos le
      obtain ⟨rfl, rfl⟩ := List.cons.inj (show c' :: (bs ++ Feed.bytes feed) = c :: rest from h)
      refine ⟨hrc, ?_, ?_⟩
      · rw [pending, hwin, hfeed]
      · rw [hfeed]
        exact hdata
  · rw [myRead_buffered hpos]
    have hspec := fetch_spec s feed hpos
    rw [h] at hspec
    obtain ⟨hc, hrest⟩ := List.cons.inj hspec
    exact ⟨congrArg Rc.byte hc, hrest, hf⟩

/-- the end of file -/
theorem myRead_end (hf : feed.Data) (h : pending s feed = []) :
    let r := myRead s feed
    r.rc = .eof ∧ pending r.st r.feed = [] ∧ r.feed.Data := by
  obtain ⟨hwin, hbytes⟩ := List.append_eq_nil_iff.mp h
  have h0 := s.readCnt_of_window hwin
  cases feed with
  | nil =>
    unfold myRead
    rw [if_pos (by omega)]
    exact ⟨rfl, rfl, Feed.data_nil⟩
  | cons r feed =>
    obtain ⟨c, bs, pos, le, rfl, _⟩ := hf.cons
    cases hbytes

/-! ## readline -/

variable (isNl : β → Bool)

/-- the loop at `n`, by induction on the turns left -/
theorem readlineFrom_cut (room n : Nat) (acc : List β) (s : Statics β) (feed : Feed β)
    (hf : feed.Data) :
    let r := readlineFrom isNl room n acc s feed
    r.line.stored = acc ++ (cut isNl room (pending s feed)).1 ∧
      pending r.st r.feed = (cut isNl room (pending s feed)).2 ∧ r.feed.Data := by
  induction room generalizing n acc s feed with
  | zero => exact ⟨(List.append_nil acc).symm, rfl, hf⟩
  | succ room ih =>
    unfold readlineFrom
    dsimp only
    cases hp : pending s feed with
    | nil =>
      obtain ⟨hrc, hend, hdata⟩ := myRead_end hf hp
      rw [hrc]
      exact ⟨(List.append_nil acc).symm, hend, hdata⟩
    | cons c rest =>
      obtain ⟨hrc, hrest, hdata⟩ := myRead_byte hf hp
      rw [hrc]
      unfold cut
      dsimp only
      split
      · exact ⟨rfl, hrest, hdata⟩
      · obtain ⟨hst, hpend, hdata'⟩ := ih (n + 1) (acc ++ [c]) _ _ hdata
        rw [hrest] at hst hpend
        refine ⟨?_, hpend, hdata'⟩
        rw [hst, List.append_assoc]
        rfl

/-- **A call of `readline` stores the first piece of what is pending**, and leaves the rest. -/
theorem readline_cut (maxlen : Nat) (s : Statics β) (feed : Feed β) (hf : feed.Data) :
    let r := readline isNl maxlen s feed
    r.line.stored = (cut isNl (maxlen - 1) (pending s feed)).1 ∧
      pending r.st r.feed = (cut isNl (maxlen - 1) (pending s feed)).2 ∧ r.feed.Data :=
  readlineFrom_cut isNl (maxlen - 1) 1 [] s feed hf

theorem readlineFrom_ret (room n : Nat) (acc : List β) (s : Statics β) (feed : Feed β)
    (hf : feed.Data) (hn : 1 ≤ n) (h : 1 < n ∨ room = 0 ∨ pending s feed ≠ []) :
    0 < (readlineFrom isNl room n acc s feed).line.ret := by
  induction room generalizing n acc s feed with
  | zero =>
    show (0 : Int) < n
    omega
  | succ room ih =>
    unfold readlineFrom
    dsimp only
    cases hp : pending s feed with
    | nil =>
      rw [(myRead_end hf hp).1]
      show (0 : Int) < (n : Int) - 1
      rcases h with h | h | h
      · omega
      · omega
      · exact absurd hp h
    | cons c rest =>
      obtain ⟨hrc, _, hdata⟩ := myRead_byte hf hp
      rw [hrc]
      dsimp only
      split
      · show (0 : Int) < n
        omega
      · exact ih (n + 1) _ _ _ hdata (by omega) (Or.inl (by omega))

/-- `readline` returns 0 only where nothing is pending -/
theorem readline_ret {maxlen : Nat} (h2 : 2 ≤ maxlen) (hf : feed.Data) :
    0 ≤ (readline isNl maxlen s feed).line.ret ∧
      ((readline isNl maxlen s feed).line.ret = 0 ↔ pending s feed = []) := by
  by_cases hp : pending s feed = []
  · obtain ⟨room, hroom⟩ : ∃ room, maxlen - 1 = room + 1 := ⟨maxlen - 2, by omega⟩
    have hret : (readline isNl maxlen s feed).line.ret = 0 := by
      unfold readline
      rw [hroom]
      unfold readlineFrom
      dsimp only
      rw [(myRead_end hf hp).1]
      rfl
    exact ⟨Int.le_of_eq hret.symm, iff_of_true hret hp⟩
  · have hpos : 0 < (readline isNl maxlen s feed).line.ret :=
      readlineFrom_ret isNl (maxlen - 1) 1 [] s feed hf le_rfl (Or.inr (Or.inr hp))
    exact ⟨Int.le_of_lt hpos, iff_of_false (Int.ne_of_gt hpos) hp⟩

end Unp
