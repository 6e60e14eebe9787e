import NetworkProgram.Serv05.Avail

/-!
# Which connection goes to which child

* `dispatch`    the runs in which no child exits;
* `sound_iff`   children may exit: the parent is right exactly as long as its reads find bytes.
-/

namespace Unp.Serv05
open Finset Trans

variable {s t : St} {e : Event}

/-! ## children that never exit -/

/-- no child exits -/
def NoExit (_ : St) : Event → Prop
  | .exit _ => False
  | _ => True

def St.alive (s : St) : Prop := ∀ i, (s.worker i).phase ≠ .exited

theorem alive_update (h : s.alive) {i : Nat} {w : Worker} (hw : w.phase ≠ .exited) :
    ∀ j, (Function.update s.worker i w j).phase ≠ .exited :=
  (Function.forall_update_iff s.worker (fun _ w => w.phase ≠ .exited)).mpr ⟨hw, fun j _ => h j⟩

theorem accept_worker (s : St) : s.accept.worker = s.worker := by
  unfold St.accept
  dsimp only
  split <;> rfl

theorem alive_step (h : s.alive) (hs : When NoExit Step s e t) : t.alive := by
  obtain ⟨hno, hs⟩ := hs
  cases hs with
  | arrive => exact h
  | recv i connfd rest _ _ _ => exact alive_update h (fun hc => by cases hc)
  | done i connfd _ _ => exact alive_update h (fun hc => by cases hc)
  | exit i _ => exact hno.elim
  | select _ _ => exact h
  | accept _ _ =>
    unfold St.alive
    rw [accept_worker]
    exact h
  | writeFd i connfd _ _ => exact alive_update h (h i)
  | readByte i _ _ _ _ => exact alive_update h (h i)
  | readEof i _ _ _ _ _ => exact alive_update h (h i)
  | skip _ _ _ _ => exact h
  | last _ => exact h
  | fail _ _ => exact h

/-- a live child's pipe is readable only through its bytes -/
theorem hasByte_of_alive (h : s.alive) (hs : Step s e t) : HasByte s e := by
  cases hs with
  | readByte i pc _ _ byte =>
    intro j hj
    obtain rfl := Pc.scan.inj (pc.symm.trans hj)
    exact byte
  | readEof i _ _ _ _ gone => exact absurd gone (h i)
  | _ => trivial

theorem hasByte_run {n : Nat} {es : List Event} (h : Run (When NoExit Step) (start n) es s) :
    s.alive ∧ Run (When HasByte Step) (start n) es s := by
  induction h with
  | nil => exact ⟨(fun _ hc => by cases hc), Run.nil⟩
  | snoc _ he ih => exact ⟨alive_step ih.1 he, ih.2.snoc ⟨hasByte_of_alive ih.1 he.2, he.2⟩⟩

/-- `passed` grows at `Write_fd` only -/
theorem passed_step (hs : Step s e t) : t.passed = s.passed ∨
    ∃ i connfd, s.pc = .write i connfd ∧ t.passed = s.passed ++ [(connfd, i)] := by
  cases hs with
  | accept _ _ =>
    left
    unfold St.accept
    dsimp only
    split <;> rfl
  | writeFd i connfd pc _ => exact Or.inr ⟨i, connfd, pc, rfl⟩
  | _ => exact Or.inl rfl

/-- the child that a connection is about to be passed to has none -/
theorem Inv.idle (h : Inv s) {i connfd : Nat} (hpc : s.pc = .write i connfd) :
    i < s.nchildren ∧ s.outstanding i = 0 := by
  obtain ⟨hi, _⟩ := h.target i connfd hpc
  refine ⟨hi, ?_⟩
  have hload := h.load i hi
  rw [hpc] at hload
  have hw : ((Pc.write i connfd).writes i).toNat = 1 := by simp [Pc.writes]
  rw [hw] at hload
  rcases h.status i hi with h0 | h1 <;> omega

theorem Inv.outstanding_le (h : Inv s) {i : Nat} (hi : i < s.nchildren) : s.outstanding i ≤ 1 := by
  have hload := h.load i hi
  rcases h.status i hi with h0 | h1 <;> omega

/-- **Dispatch.**  No child exits.  At every loop head `navail` is the number of children with
status 0, the connections passed are those accepted, in order and each once, and the
`child_count`s add up to their number.  A connection is passed to a child with none outstanding, no
child ever has two, and a child is always found. -/
theorem dispatch (n : Nat) (es : List Event) (s : St) (h : Run (When NoExit Step) (start n) es s) :
    (s.pc = .head → s.navail = s.free ∧ s.passed.map Prod.fst = List.range s.accepted ∧
      ∑ i ∈ range s.nchildren, (s.child i).childCount = s.accepted) ∧
    (∀ e t, When NoExit Step s e t → t.passed = s.passed ∨
      ∃ i connfd, t.passed = s.passed ++ [(connfd, i)] ∧ i < s.nchildren ∧ s.outstanding i = 0) ∧
    (∀ i < s.nchildren, s.outstanding i ≤ 1) ∧
    s.pc ≠ .stopped (.errQuit "no available children" []) := by
  have hinv := inv_run (hasByte_run h).2
  refine ⟨?_, ?_, fun i hi => hinv.outstanding_le hi, hinv.found⟩
  · intro hpc
    refine ⟨hinv.avail, ?_, hinv.total⟩
    have hpassed := hinv.passed (fun why hc => by rw [hpc] at hc; cases hc)
    rw [hpc] at hpassed
    exact hpassed
  · intro e t hs
    rcases passed_step hs.2 with hsame | ⟨i, connfd, hpc, hgrow⟩
    · exact Or.inl hsame
    · exact Or.inr ⟨i, connfd, hgrow, hinv.idle hpc⟩

/-- one child, and a client that is accepted and passed to it -/
def oneClient : St := { start 1 with backlog := 1 }

theorem oneClient_run : Run (When NoExit Step) (start 1) [.arrive, .select, .accept, .writeFd]
    (oneClient.select.accept.writeFd 0 0) := by
  have harrive : Run (When NoExit Step) (start 1) [.arrive] oneClient := Run.single ⟨trivial, .arrive⟩
  have hselect := harrive.snoc (e := Event.select) ⟨trivial, Step.select rfl ⟨.listen, rfl⟩⟩
  have haccept := hselect.snoc (e := Event.accept) ⟨trivial, Step.accept rfl Nat.one_pos⟩
  exact haccept.snoc ⟨trivial, Step.writeFd 0 0 rfl (fun hc => by cases hc)⟩

theorem dispatch_one : (oneClient.select.accept.writeFd 0 0).pc = .head ∧
    (oneClient.select.accept.writeFd 0 0).passed = [(0, 0)] ∧
    (oneClient.select.accept.writeFd 0 0).navail = (oneClient.select.accept.writeFd 0 0).free :=
  ⟨rfl, rfl, ((dispatch 1 _ _ oneClient_run).1 rfl).1⟩

/-! ## children that exit -/

/-- What a step of the parent is to do when children may exit: a `Read` that returned 0 stops it
with nothing changed, and at the loop head `navail` counts the children with status 0. -/
structure Sound (s : St) (e : Event) (t : St) : Prop where
  eof : e = .read 0 → ∃ i : Nat, s.pc = .scan i ∧
    t = { s with pc := .stopped (.errQuit "child %d terminated unexpectedly" [(i : Int)]) }
  head : t.pc = .head → t.navail = t.free ∧ t.navail ≤ t.nchildren

theorem Inv.head (h : Inv s) : s.navail = s.free ∧ s.navail ≤ s.nchildren := by
  have havail := h.avail
  have hle : s.free ≤ (range s.nchildren).card := Tally.count_le
  rw [card_range] at hle
  exact ⟨havail, by omega⟩

/-- the exit is never taken: the test is of an assignment of 0 -/
theorem readPipe_running (s : St) (i n : Nat) (why : Stop) : (s.readPipe i n).pc ≠ .stopped why := by
  have hif : (s.readPipe i n).pc = if s.nsel - 1 = 0 then .head else .scan (i + 1) := rfl
  rw [hif]
  split <;> exact fun hc => by cases hc

/-- a step is right exactly if it reads no end of a pipe -/
theorem Inv.sound_step (h : Inv s) (hs : Step s e t) : Sound s e t ↔ HasByte s e := by
  constructor
  · intro hsound
    cases hs with
    | readByte i pc _ _ byte =>
      intro j hj
      obtain rfl := Pc.scan.inj (pc.symm.trans hj)
      exact byte
    | readEof i _ _ _ _ _ =>
      obtain ⟨j, _, hstop⟩ := hsound.eof rfl
      exact absurd (congrArg St.pc hstop) (readPipe_running s i 0 _)
    | _ => trivial
  · intro hbyte
    refine ⟨?_, fun _ => (h.step ⟨hbyte, hs⟩).head⟩
    rintro rfl
    cases hs with
    | readEof i pc _ _ empty _ =>
      have hpos := hbyte i pc
      omega

/-- **The end of a pipe.**  Children may exit.  In a run the parent stops at the first `Read` that
returns 0, and `navail` is right at every loop head, exactly if every `Read` of the run finds a byte
in its pipe. -/
theorem sound_iff (n : Nat) (es : List Event) (s : St) :
    Run (Obey Sound Step) (start n) es s ↔ Run (When HasByte Step) (start n) es s :=
  Run.obey_iff_when Inv (inv_start n) (fun _ _ _ hinv hs => hinv.sound_step hs)
    (fun _ _ _ hinv hs => hinv.step hs)

/-- one child, which exits before any connection -/
def oneExit : St := (start 1).setWorker 0 ⟨.exited, [], 0⟩

theorem oneExit_run :
    Run Step (start 1) [.exit 0, .select, .read 0] (oneExit.select.readPipe 0 0) := by
  have hexit : Run Step (start 1) [.exit 0] oneExit := Run.single (Step.exit 0 Nat.one_pos)
  have hselect := hexit.snoc (Step.select rfl ⟨.pipe 0, rfl⟩)
  exact hselect.snoc (Step.readEof 0 rfl Nat.one_pos rfl rfl rfl)

/-- the parent counts two children without a connection, of one -/
theorem not_sound : (oneExit.select.readPipe 0 0).pc = .head ∧
    (oneExit.select.readPipe 0 0).navail = 2 ∧
    ¬ ∀ es s, Run Step (start 1) es s → Run (Obey Sound Step) (start 1) es s := by
  refine ⟨rfl, rfl, ?_⟩
  intro hall
  have hobey : Run (Obey Sound Step) (start 1) ([.exit 0, .select] ++ [.read 0])
      (oneExit.select.readPipe 0 0) := hall _ _ oneExit_run
  obtain ⟨t, _, hlast⟩ := Run.snoc_iff.mp hobey
  obtain ⟨i, _, hstop⟩ := hlast.2.eof rfl
  exact readPipe_running oneExit.select 0 0 _ (congrArg St.pc hstop)

end Unp.Serv05
