import Mathlib.Data.Finset.Lattice.Fold
import Mathlib.Order.Lattice.Nat
import NetworkProgram.Sys

/-!
# The descriptors of a child

`child_make` of `server/child05.cpp`, and the `for` of `server/serv05/main.cpp` that calls it.  A
`Numbering` chooses the numbers of a pair.  `Socketpair` and `Fork` succeed.

The child closes `sockfd[0]` twice, and not `sockfd[1]`.

* `child_stops`      the second `Close` fails;
* `parent_keeps`     the parent keeps one descriptor;
* `made_right_iff`   how many children may be made.
-/

namespace Unp.Serv05

def STDERR_FILENO : Int := 2

/-- what a descriptor refers to: what the server had before, or an end of the pair for child `i` -/
inductive File where
  | inherited (k : Nat)
  | parentEnd (i : Nat)
  | childEnd (i : Nat)
  deriving DecidableEq

structure Table where
  opened : Finset Int
  file : Int → File

/-- the numbers of a pair when those in `opened` are in use -/
structure Numbering where
  fds : Finset Int → Int × Int
  ne : ∀ opened, (fds opened).1 ≠ (fds opened).2
  unused : ∀ opened, (fds opened).1 ∉ opened ∧ (fds opened).2 ∉ opened

/-! ## the calls -/

def Table.open (t : Table) (fd : Int) (file : File) : Table :=
  ⟨insert fd t.opened, Function.update t.file fd file⟩

/-- `Socketpair(AF_LOCAL, SOCK_STREAM, 0, sockfd)` for child `i` -/
def Table.socketpair (t : Table) (i : Nat) (num : Numbering) : (Int × Int) × Table :=
  let sockfd := num.fds t.opened
  (sockfd, (t.open sockfd.1 (.parentEnd i)).open sockfd.2 (.childEnd i))

def Table.close (t : Table) (fd : Int) : Except Stop Table :=
  if fd ∈ t.opened then .ok { t with opened := t.opened.erase fd }
  else .error (.errSys "close error")

def Table.dup2 (t : Table) (fd1 fd2 : Int) : Except Stop Table :=
  if fd1 ∈ t.opened then .ok (t.open fd2 (t.file fd1)) else .error (.errSys "dup2 error")

/-! ## child_make -/

/-- a call of `child_make`: what the parent returns with, and what the child enters `child_main` with -/
structure Call where
  i : Nat
  before : Table
  sockfd : Int × Int
  /-- its table, and `child_pipefd` -/
  parent : Except Stop (Table × Int)
  child : Except Stop Table

/-- from `Fork` on, in the parent -/
def parentMake (sockfd : Int × Int) (t : Table) : Except Stop (Table × Int) := do
  let t ← t.close sockfd.2
  return (t, sockfd.1)

/-- from `Fork` on, in the child -/
def childEnter (sockfd : Int × Int) (listenfd : Int) (t : Table) : Except Stop Table := do
  let t ← t.dup2 sockfd.2 STDERR_FILENO
  let t ← t.close sockfd.1
  let t ← t.close sockfd.1
  t.close listenfd

def childMake (i : Nat) (listenfd : Int) (num : Numbering) (t : Table) : Call :=
  let (sockfd, forked) := t.socketpair i num
  ⟨i, t, sockfd, parentMake sockfd forked, childEnter sockfd listenfd forked⟩

/-- the calls for the children from `i` on, of which there are `n` -/
def makeFrom (listenfd : Int) (nums : Nat → Numbering) : (n i : Nat) → Table → List Call
  | 0, _, _ => []
  | n + 1, i, t =>
    let c := childMake i listenfd (nums i) t
    match c.parent with
    | .ok (t, _) => c :: makeFrom listenfd nums n (i + 1) t
    | .error _ => [c]

/-- `for (i = 0; i < nchildren; ++i)` -/
def makeChildren (nchildren listenfd : Int) (nums : Nat → Numbering) (t : Table) : List Call :=
  makeFrom listenfd nums nchildren.toNat 0 t

/-- the child enters `child_main` with its end at `STDERR_FILENO`, and the rest closed -/
def ChildRight (listenfd : Int) (c : Call) : Prop :=
  ∃ t, c.child = .ok t ∧ STDERR_FILENO ∈ t.opened ∧ t.file STDERR_FILENO = .childEnd c.i ∧
    listenfd ∉ t.opened ∧ c.sockfd.1 ∉ t.opened ∧ c.sockfd.2 ∉ t.opened

/-- the parent has one descriptor more, its end of the pair -/
def ParentRight (c : Call) : Prop :=
  ∃ t pipefd, c.parent = .ok (t, pipefd) ∧ pipefd ∉ c.before.opened ∧
    t.opened = insert pipefd c.before.opened ∧ t.file pipefd = .parentEnd c.i ∧
    ∀ fd ∈ c.before.opened, t.file fd = c.before.file fd

variable {listenfd fd fd1 fd2 : Int} {nums : Nat → Numbering} {num : Numbering} {t t' : Table}
  {c : Call} {i n : Nat} {sockfd : Int × Int}

/-! ## one call -/

theorem close_of_mem (h : fd ∈ t.opened) :
    t.close fd = .ok { t with opened := t.opened.erase fd } := if_pos h

theorem close_of_notMem (h : fd ∉ t.opened) : t.close fd = .error (.errSys "close error") :=
  if_neg h

theorem close_again (t : Table) (fd : Int) :
    (Table.mk (t.opened.erase fd) t.file).close fd = .error (.errSys "close error") :=
  close_of_notMem (Finset.notMem_erase fd t.opened)

/-- **The second `Close` of `sockfd[0]` fails**, wherever the pair is. -/
theorem child_stops (i : Nat) (listenfd : Int) (num : Numbering) (t : Table) :
    (childMake i listenfd num t).child = .error (.errSys "close error") := by
  obtain ⟨sockfd, hsockfd⟩ : ∃ sockfd, num.fds t.opened = sockfd := ⟨_, rfl⟩
  unfold childMake Table.socketpair
  dsimp only
  rw [hsockfd]
  have hchild : sockfd.2 ∈ ((t.open sockfd.1 (.parentEnd i)).open sockfd.2 (.childEnd i)).opened :=
    Finset.mem_insert_self ..
  have hparent : sockfd.1 ∈ ((t.open sockfd.1 (.parentEnd i)).open sockfd.2 (.childEnd i)).opened :=
    Finset.mem_insert_of_mem (Finset.mem_insert_self ..)
  generalize (t.open sockfd.1 (.parentEnd i)).open sockfd.2 (.childEnd i) = forked at hchild hparent
  unfold childEnter Table.dup2
  rw [if_pos hchild]
  show ((forked.open STDERR_FILENO _).close sockfd.1).bind _ = _
  rw [close_of_mem (Finset.mem_insert_of_mem hparent)]
  show (Table.close _ sockfd.1).bind _ = _
  rw [close_again]
  rfl

theorem parent_keeps (i : Nat) (listenfd : Int) (num : Numbering) (t : Table) :
    ParentRight (childMake i listenfd num t) := by
  have hne := num.ne t.opened
  obtain ⟨hnew1, hnew2⟩ := num.unused t.opened
  unfold childMake Table.socketpair
  dsimp only
  generalize num.fds t.opened = sockfd at hne hnew1 hnew2
  unfold parentMake
  rw [close_of_mem (show sockfd.2 ∈ (Table.open _ sockfd.2 _).opened from Finset.mem_insert_self ..)]
  refine ⟨_, _, rfl, hnew1, ?_, ?_, fun fd hfd => ?_⟩
  · refine Finset.erase_insert fun hmem => ?_
    rcases Finset.mem_insert.mp hmem with heq | hmem
    · exact hne heq.symm
    · exact hnew2 hmem
  · show Function.update _ sockfd.2 _ sockfd.1 = _
    rw [Function.update_of_ne hne]
    exact Function.update_self ..
  · have hne1 : fd ≠ sockfd.1 := fun h => hnew1 (h ▸ hfd)
    have hne2 : fd ≠ sockfd.2 := fun h => hnew2 (h ▸ hfd)
    show Function.update (Function.update t.file sockfd.1 _) sockfd.2 _ fd = t.file fd
    rw [Function.update_of_ne hne2, Function.update_of_ne hne1]

/-! ## all children -/

theorem makeFrom_mem (h : c ∈ makeFrom listenfd nums n i t) :
    ∃ i num t, c = childMake i listenfd num t := by
  induction n generalizing i t with
  | zero => exact absurd h List.not_mem_nil
  | succ n ih =>
    unfold makeFrom at h
    dsimp only at h
    split at h
    · rcases List.mem_cons.mp h with rfl | h
      · exact ⟨_, _, _, rfl⟩
      · exact ih h
    · rw [List.mem_singleton] at h
      exact ⟨_, _, _, h⟩

theorem makeFrom_length : (makeFrom listenfd nums n i t).length = n := by
  induction n generalizing i t with
  | zero => rfl
  | succ n ih =>
    obtain ⟨t', pipefd, hparent, _⟩ := parent_keeps i listenfd (nums i) t
    unfold makeFrom
    dsimp only
    rw [hparent]
    exact congrArg (· + 1) ih

/-- **No child is made rightly**, and in the parent all is well. -/
theorem made_right_iff (nchildren listenfd : Int) (nums : Nat → Numbering) (t : Table) :
    (∀ c ∈ makeChildren nchildren listenfd nums t, ParentRight c) ∧
    ((∀ c ∈ makeChildren nchildren listenfd nums t, ChildRight listenfd c) ↔ nchildren ≤ 0) := by
  have hlen : (makeChildren nchildren listenfd nums t).length = nchildren.toNat := makeFrom_length
  refine ⟨fun c hc => ?_, fun h => ?_, fun h c hc => ?_⟩
  · obtain ⟨i, num, t', rfl⟩ := makeFrom_mem hc
    exact parent_keeps i listenfd num t'
  · by_contra hpos
    obtain ⟨c, hc⟩ := List.exists_mem_of_length_pos
      (show 0 < (makeChildren nchildren listenfd nums t).length by omega)
    obtain ⟨t', hok, _⟩ := h c hc
    obtain ⟨i, num, t'', rfl⟩ := makeFrom_mem hc
    rw [child_stops] at hok
    exact absurd hok (by simp)
  · have hnil : makeChildren nchildren listenfd nums t = [] :=
      List.eq_nil_of_length_eq_zero (by omega)
    rw [hnil] at hc
    exact absurd hc List.not_mem_nil

/-! ## one child -/

/-- the two numbers behind the highest one -/
def numberBehind : Numbering where
  fds opened := ((opened.sup Int.toNat : Nat) + 1, (opened.sup Int.toNat : Nat) + 2)
  ne opened h := by omega
  unused opened := by
    have hle : ∀ fd ∈ opened, Int.toNat fd ≤ opened.sup Int.toNat := fun fd hfd => Finset.le_sup hfd
    refine ⟨fun hmem => ?_, fun hmem => ?_⟩
    · have h := hle _ hmem
      omega
    · have h := hle _ hmem
      omega

theorem not_made_right : ¬ ∀ (nchildren listenfd : Int) (nums : Nat → Numbering) (t : Table),
    ∀ c ∈ makeChildren nchildren listenfd nums t, ChildRight listenfd c ∧ ParentRight c := by
  intro h
  have hright := h 1 3 (fun _ => numberBehind) ⟨{0, 1, 2, 3}, fun _ => .inherited 0⟩
    (childMake 0 3 numberBehind ⟨{0, 1, 2, 3}, fun _ => .inherited 0⟩) (List.mem_singleton_self _)
  obtain ⟨t, hok, _⟩ := hright.1
  rw [child_stops] at hok
  exact absurd hok (by simp)

end Unp.Serv05
