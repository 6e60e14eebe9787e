import NetworkProgram.Readline.Reference

/-!
# `readline` when `read` fails

`read_cnt` is a `size_t`, so the test for a failed `read` is never true: the -1 becomes the length of
a full buffer, and the byte that lies at its beginning is delivered.  `Lawful` says what a step
should do when a `read` fails, and which bytes it may take from `read_buf`; a run is lawful exactly if
no `read` of it fails (`lawful_iff`).
-/

namespace Unp.Reader
open Trans

variable {β : Type} {isNl : β → Bool} {s t : Reader β} {l : Loop β} {e : Event β}

/-- the law of a step from `s` to `t` -/
structure Lawful (s : Reader β) (e : Event β) (t : Reader β) : Prop where
  /-- a `read` that a signal interrupts is made again -/
  retry : e = .read (.err EINTR) → t.pc = s.pc
  /-- after another failure `readline` returns -1, and the next call begins with a `read` -/
  fail : ∀ err, e = .read (.err err) → err ≠ EINTR →
    t.pc = .out ∧ (∃ line, t.lines = s.lines ++ [line] ∧ line.ret = -1) ∧ t.st.readCnt = 0
  /-- a byte that is stored is one of the last `read`, taken from the filled part of `read_buf` -/
  fetched : ∀ c, t.stored = s.stored ++ [c] →
    ∃ i, t.st.readPtr = i + 1 ∧ t.filled[i]? = some c

/-- the value of a failed `read` in a `size_t` is not negative, and it is not 0 -/
theorem round_err (st : Statics β) (err : Errno) :
    ∃ c st', round st (.err err) = .ret (.byte c) st' ∧ st'.readCnt = sizeT (-1) - 1 := by
  have hne : sizeT (ReadRes.ret (.err err : ReadRes β MAXLINE)) ≠ 0 := show sizeT (-1) ≠ 0 by decide
  unfold round
  dsimp only
  rw [if_neg (Nat.not_lt_zero _), if_neg hne]
  exact ⟨_, _, rfl, rfl⟩

/-- after a failed `read` the call neither reads again nor leaves an empty buffer -/
theorem read_err (isNl : β → Bool) (s : Reader β) (l : Loop β) (err : Errno) :
    (∀ l', (s.read isNl l (.err err)).pc ≠ .again l') ∧
      (s.read isNl l (.err err)).st.readCnt = sizeT (-1) - 1 := by
  obtain ⟨c, st', hround, hcnt⟩ := round_err s.st err
  unfold Reader.read
  dsimp only
  rw [hround]
  dsimp only
  obtain ⟨hst, _, _, hpc⟩ := turned_frame isNl
    { s with seen := s.seen ++ ReadRes.bytes (.err err), filled := ReadRes.bytes (.err err), st := st' } l (.byte c)
  exact ⟨hpc, (congrArg Statics.readCnt hst).trans hcnt⟩

/-- a failed `read` breaks the law -/
theorem not_lawful_err {err : Errno} (hs : s.step isNl (.read (.err err)) = some t) :
    ¬ Lawful s (.read (.err err)) t := by
  obtain ⟨l, hpc, rfl⟩ : ∃ l, s.pc = .again l ∧ t = s.read isNl l (.err err) := by
    rcases step_cases hs with ⟨_, he, _⟩ | ⟨_, he, _⟩ | ⟨l, r, he, hpc, ht⟩
    · cases he
    · cases he
    · cases he
      exact ⟨l, hpc, ht⟩
  intro h
  obtain ⟨hpc', hcnt⟩ := read_err isNl s l err
  by_cases herr : err = EINTR
  · subst herr
    exact hpc' l ((h.retry rfl).trans hpc)
  · obtain ⟨_, _, hzero⟩ := h.fail err rfl herr
    rw [hcnt] at hzero
    exact absurd hzero (by decide)

/-! ## steps without a failure -/

/-- a byte that `my_read` has taken at `i` -/
theorem fetched_turned {c : β} {i : Nat} (hptr : s.st.readPtr = i + 1) (hi : s.filled[i]? = some c) :
    ∀ c', (s.turned isNl l (.byte c)).stored = s.stored ++ [c'] →
      ∃ i, (s.turned isNl l (.byte c)).st.readPtr = i + 1 ∧
        (s.turned isNl l (.byte c)).filled[i]? = some c' := by
  intro c' hst
  obtain ⟨hst', hfilled, hstored, _⟩ := turned_frame isNl s l (.byte c)
  have hc : c = c' := List.singleton_inj.mp (List.append_cancel_left (hstored.symm.trans hst))
  rw [hst', hfilled]
  exact ⟨i, hptr, hc ▸ hi⟩

theorem not_stored {a : List β} {c : β} {P : Prop} (h : a = a ++ [c]) : P := by
  have hlen := congrArg List.length h
  rw [List.length_append] at hlen
  exact absurd hlen (Nat.ne_of_lt (Nat.lt_succ_self _))

theorem Inv.go_fetched (h : Inv s) : ∀ c, (s.go isNl l).stored = s.stored ++ [c] →
    ∃ i, (s.go isNl l).st.readPtr = i + 1 ∧ (s.go isNl l).filled[i]? = some c := by
  unfold Reader.go
  split
  · intro c hst
    exact not_stored hst
  · split
    · intro c hst
      exact not_stored hst
    · rename_i hcnt
      obtain ⟨hcons, _⟩ := h.fetch (Nat.lt_of_not_le hcnt)
      have hget := congrArg (fun w => w[0]?) hcons
      rw [List.getElem?_drop, List.getElem?_cons_zero, Nat.add_zero] at hget
      exact fetched_turned rfl hget

theorem read_fetched {r : ReadRes β MAXLINE} (hr : ∀ err, r ≠ .err err) :
    ∀ c, (s.read isNl l r).stored = s.stored ++ [c] →
      ∃ i, (s.read isNl l r).st.readPtr = i + 1 ∧ (s.read isNl l r).filled[i]? = some c := by
  unfold Reader.read
  dsimp only
  cases r with
  | data bs pos le =>
    obtain ⟨c, bs, rfl⟩ := List.exists_cons_of_length_pos pos
    obtain ⟨st', hround, _, hptr⟩ := round_data s.st pos le
    rw [hround]
    exact fetched_turned hptr rfl
  | eof =>
    rw [again_nil]
    intro c hst
    obtain ⟨_, _, hstored, _⟩ := turned_frame isNl
      { s with seen := s.seen ++ ReadRes.bytes .eof, filled := ReadRes.bytes .eof, st := (Unp.again s.st []).st }
      l .eof
    exact not_stored ((hstored.trans (List.append_nil _)).symm.trans hst)
  | err err => exact absurd rfl (hr err)

theorem Inv.lawful_step_iff (h : Inv s) (hs : s.step isNl e = some t) : Lawful s e t ↔ NoFail s e := by
  constructor
  · rintro hlaw err rfl
    exact not_lawful_err hs hlaw
  · intro hno
    refine ⟨fun he => absurd he (hno EINTR), fun err he => absurd he (hno err), ?_⟩
    rcases step_cases hs with ⟨maxlen, _, _, rfl⟩ | ⟨l, _, _, rfl⟩ | ⟨l, r, rfl, _, rfl⟩
    · intro c hst
      exact not_stored hst
    · exact h.go_fetched
    · exact read_fetched (fun err hr => hno err (congrArg Event.read hr))

/-- **A run is lawful exactly if no `read` of it fails.** -/
theorem lawful_iff (isNl : β → Bool) (mem : Nat → β) (es : List (Event β)) (t : Reader β) :
    Run (Obey Lawful (Opt (step isNl))) (start mem) es t ↔
      Run (When NoFail (Opt (step isNl))) (start mem) es t :=
  Run.obey_iff_when Inv (inv_start mem) (fun _ _ _ hi hs => hi.lawful_step_iff hs)
    (fun _ _ _ hi hw => hi.step hw.2 hw.1)

/-- a `read` that is interrupted: a byte that nobody has sent is stored -/
theorem not_lawful : ¬ ∀ (mem : Nat → Nat) (es : List (Event Nat)) (t : Reader Nat),
    Run (Opt (step (· == 10))) (start mem) es t →
      Run (Obey Lawful (Opt (step (· == 10)))) (start mem) es t := by
  intro h
  have hrun : Run (Opt (step (· == 10))) (start (fun _ => 0)) [.call 4, .go, .read (.err EINTR)] _ :=
    ((Run.nil.snoc (step_call rfl 4)).snoc (step_go rfl)).snoc (step_read rfl (.err EINTR))
  obtain ⟨m, _, hs, hlaw⟩ := Run.snoc_iff.mp (h _ ([.call 4, .go] ++ [.read (.err EINTR)]) _ hrun)
  exact not_lawful_err hs hlaw

end Unp.Reader
