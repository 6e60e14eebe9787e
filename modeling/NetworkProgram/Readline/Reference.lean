import NetworkProgram.Readline.Pieces
import NetworkProgram.Readline.Reader

/-!
# `readline` against an unbuffered reader

`reference`: what a reader without a buffer stores, call after call, one byte at a time.  In whatever
chunks the stream comes, `readline` stores the same, and what it has stored followed by what
`readlinebuf` exposes is what has been read (`readline_reference`).
-/

namespace Unp
open Cut Trans

variable {β : Type}

/-- calls with the lengths `ms` on a stream: each takes the next bytes, up to a newline, to
`maxlen - 1` bytes, or to the end -/
def reference (isNl : β → Bool) : List Nat → List β → List (List β)
  | [], _ => []
  | maxlen :: ms, stream =>
    let r := cut isNl (maxlen - 1) stream
    r.1 :: reference isNl ms r.2

theorem calls_reference (isNl : β → Bool) (ms : List Nat) (s : Statics β) (feed : Feed β)
    (hf : feed.Data) :
    (calls isNl ms s feed).1.map Line.stored = reference isNl ms (pending s feed) := by
  induction ms generalizing s feed with
  | nil => rfl
  | cons maxlen ms ih =>
    obtain ⟨hst, hpend, hdata⟩ := readline_cut isNl maxlen s feed hf
    have hrest := ih (readline isNl maxlen s feed).st (readline isNl maxlen s feed).feed hdata
    rw [hpend] at hrest
    show (readline isNl maxlen s feed).line.stored :: List.map Line.stored _ = _ :: _
    rw [hst, hrest]

namespace Reader

/-- no `read` fails -/
def NoFail (_ : Reader β) (e : Event β) : Prop := ∀ err, e ≠ .read (.err err)

/-- the buffer holds what is left of the last `read` -/
structure Inv (s : Reader β) : Prop where
  window : s.st.window = s.filled.drop s.st.readPtr
  seen : s.stored ++ s.st.window = s.seen
  again : ∀ l, s.pc = .again l → s.st.readCnt = 0

variable {isNl : β → Bool} {s t : Reader β} {l : Loop β} {e : Event β}

theorem inv_start (mem : Nat → β) : Inv (start mem) := ⟨rfl, rfl, fun _ hc => by cases hc⟩

/-- `my_read` has taken `rc` out of the buffer -/
theorem inv_turned {rc : Rc β} (hw : s.st.window = s.filled.drop s.st.readPtr)
    (hs : s.stored ++ (rc.bytes ++ s.st.window) = s.seen) : Inv (s.turned isNl l rc) := by
  rw [← List.append_assoc] at hs
  unfold turned
  dsimp only
  split
  · exact ⟨hw, hs, fun _ hc => by cases hc⟩
  · exact ⟨hw, hs, fun _ hc => by cases hc⟩

/-- a byte out of the buffer: it is a byte of the last `read` -/
theorem Inv.fetch (h : Inv s) (hpos : 0 < s.st.readCnt) :
    s.filled.drop s.st.readPtr = s.st.readBuf s.st.readPtr :: (Unp.fetch s.st []).st.window ∧
      (Unp.fetch s.st []).st.window = s.filled.drop (Unp.fetch s.st []).st.readPtr := by
  have hcons := h.window.symm.trans (s.st.window_cons hpos)
  refine ⟨hcons, ?_⟩
  have htail := congrArg List.tail hcons
  rw [List.tail_drop] at htail
  exact htail.symm

theorem Inv.go (h : Inv s) : Inv (s.go isNl l) := by
  unfold Reader.go
  split
  · exact ⟨h.window, h.seen, fun _ hc => by cases hc⟩
  · split
    · rename_i hcnt
      exact ⟨h.window, h.seen, fun _ _ => Nat.le_zero.mp hcnt⟩
    · rename_i hcnt
      obtain ⟨hcons, htail⟩ := h.fetch (Nat.lt_of_not_le hcnt)
      refine inv_turned htail ?_
      show s.stored ++ s.st.readBuf s.st.readPtr :: (Unp.fetch s.st []).st.window = s.seen
      rw [← hcons, ← h.window, h.seen]

/-- a `read` that delivers `c` and `bs` -/
theorem round_data (st : Statics β) {c : β} {bs : List β} (pos : 0 < (c :: bs).length)
    (le : (c :: bs).length ≤ MAXLINE) :
    ∃ st', round st (.data (c :: bs) pos le) = .ret (.byte c) st' ∧ st'.window = bs ∧
      st'.readPtr = 1 := by
  have hfill := window_fill (c :: bs) st.readBuf
  rw [Statics.window_cons pos] at hfill
  unfold round
  dsimp only
  rw [sizeT_data, if_neg (Nat.not_lt_zero _), if_neg (Nat.ne_of_gt pos)]
  exact ⟨_, rfl, (List.cons.inj hfill).2, rfl⟩

theorem Inv.read (h : Inv s) (hpc : s.pc = .again l) {r : ReadRes β MAXLINE} (hr : ∀ err, r ≠ .err err) :
    Inv (s.read isNl l r) := by
  have hseen : s.stored = s.seen := by
    have hs := h.seen
    rw [s.st.window_nil (h.again l hpc), List.append_nil] at hs
    exact hs
  unfold Reader.read
  dsimp only
  cases r with
  | data bs pos le =>
    obtain ⟨c, bs, rfl⟩ := List.exists_cons_of_length_pos pos
    obtain ⟨st', hround, hwin, hptr⟩ := round_data s.st pos le
    rw [hround]
    refine inv_turned ?_ ?_
    · show st'.window = (c :: bs).drop st'.readPtr
      rw [hwin, hptr]
      rfl
    · show s.stored ++ c :: st'.window = s.seen ++ (c :: bs)
      rw [hwin, hseen]
  | eof =>
    rw [again_nil]
    refine inv_turned List.drop_nil.symm ?_
    show s.stored ++ [] = s.seen ++ []
    rw [hseen]
  | err err => exact absurd rfl (hr err)

/-- what a step can be -/
theorem step_cases (h : s.step isNl e = some t) :
    (∃ maxlen, e = .call maxlen ∧ s.pc = .out ∧ t = { s with pc := .test (Loop.init maxlen) }) ∨
    (∃ l, e = .go ∧ s.pc = .test l ∧ t = s.go isNl l) ∨
    (∃ l r, e = .read r ∧ s.pc = .again l ∧ t = s.read isNl l r) := by
  unfold step at h
  cases e with
  | call maxlen =>
    cases hpc : s.pc with
    | out =>
      rw [hpc] at h
      exact Or.inl ⟨maxlen, rfl, rfl, (Option.some.inj h).symm⟩
    | _ => rw [hpc] at h; cases h
  | go =>
    cases hpc : s.pc with
    | test l =>
      rw [hpc] at h
      exact Or.inr (Or.inl ⟨l, rfl, rfl, (Option.some.inj h).symm⟩)
    | _ => rw [hpc] at h; cases h
  | read r =>
    cases hpc : s.pc with
    | again l =>
      rw [hpc] at h
      exact Or.inr (Or.inr ⟨l, r, rfl, rfl, (Option.some.inj h).symm⟩)
    | _ => rw [hpc] at h; cases h

theorem Inv.step (h : Inv s) (hs : s.step isNl e = some t) (hno : NoFail s e) : Inv t := by
  rcases step_cases hs with ⟨maxlen, _, _, rfl⟩ | ⟨l, _, _, rfl⟩ | ⟨l, r, rfl, hpc, rfl⟩
  · exact ⟨h.window, h.seen, fun _ hc => by cases hc⟩
  · exact h.go
  · exact h.read hpc (fun err hr => hno err (congrArg Event.read hr))

theorem inv_run {mem : Nat → β} {es : List (Event β)}
    (h : Run (When NoFail (Opt (step isNl))) (start mem) es t) : Inv t :=
  h.inv (inv_start mem) (fun _ _ _ hi hw => hi.step hw.2 hw.1)

end Reader

/-- **The buffer makes no difference.**  In whatever chunks a stream comes, a sequence of calls of
`readline` stores what the reference stores; and at all times what has been stored, followed by what
`readlinebuf` exposes, is what has been read. -/
theorem readline_reference (isNl : β → Bool) (mem : Nat → β) :
    (∀ (feed : Feed β) (ms : List Nat), feed.Data →
      (calls isNl ms ⟨0, 0, mem⟩ feed).1.map Line.stored = reference isNl ms feed.bytes) ∧
    (∀ (es : List (Reader.Event β)) (t : Reader β) (vptr : Nat),
      Run (When Reader.NoFail (Opt (Reader.step isNl))) (Reader.start mem) es t →
      t.stored ++ memory t.st.readBuf (readlinebuf t.st vptr).2 (readlinebuf t.st vptr).1 = t.seen) := by
  refine ⟨fun feed ms hf => calls_reference isNl ms ⟨0, 0, mem⟩ feed hf, fun es t vptr h => ?_⟩
  rw [readlinebuf_window]
  exact (Reader.inv_run h).seen

/-- three chunks, with a line over a boundary and the limit inside a line -/
theorem readline_reference_chunks :
    (calls (· == 10) [4, 3, 9] ⟨0, 0, fun _ => 0⟩
      [.data [97, 98] (by decide) (by decide), .data [10, 99] (by decide) (by decide),
        .data [100, 101] (by decide) (by decide)]).1.map Line.stored =
      [[97, 98, 10], [99, 100], [101]] ∧
    ∃ t, Run (When Reader.NoFail (Opt (Reader.step (· == 10)))) (Reader.start (fun _ => 0))
      [.call 4, .go, .read (.data [97, 98] (by decide) (by decide))] t ∧
      t.stored = [97] ∧ t.stored ++ memory t.st.readBuf (readlinebuf t.st 0).2 (readlinebuf t.st 0).1 = t.seen := by
  have hrun : Run (When Reader.NoFail (Opt (Reader.step (· == (10 : Nat))))) (Reader.start (fun _ => 0))
      [.call 4, .go, .read (.data [97, 98] (by decide) (by decide))] _ :=
    ((Run.nil.snoc ⟨fun _ => nofun, rfl⟩).snoc ⟨fun _ => nofun, rfl⟩).snoc
      ⟨fun _ => nofun, rfl⟩
  refine ⟨?_, _, hrun, rfl, (readline_reference (· == (10 : Nat)) (fun _ => 0)).2 _ _ 0 hrun⟩
  refine ((readline_reference (· == (10 : Nat)) (fun _ => 0)).1 _ [4, 3, 9] ?_).trans rfl
  intro r hr
  simp only [List.mem_cons, List.not_mem_nil, or_false] at hr
  rcases hr with rfl | rfl | rfl <;> decide

end Unp
