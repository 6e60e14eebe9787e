import Mathlib.Data.List.Pairwise
import NetworkProgram.Lib.Run
import NetworkProgram.Stdio

/-!
# tcprecv04 takes urgent data in line

`oob/tcprecv04/main.cpp`, from `for(;;)` on, with `SO_OOBINLINE`.  The peer sends any number of urgent
bytes; that one has been sent is known with its arrival at the latest, and there is one mark, which is
at the last one known.  `Read` stops at a mark in front of it.

* `Step`          the step relation;
* `marks`         where `ao OOB mark` is printed;
* `marks_iff`     what is announced, and when the last urgent byte is.
-/

namespace Unp.Oob.Inline
open Trans

/-- the bytes sent; those sent with `MSG_OOB` are marked -/
abbrev Stream := List (UInt8 × Bool)

def Urgent (x : Stream) (u : Nat) : Prop := ∃ b, x[u]? = some (b, true)

/-- `sizeof(buff)-1` -/
def buffSize : Nat := 99

/-- what is printed -/
inductive Line where
  /-- `ao OOB mark` -/
  | mark
  /-- `read %d bytes:%s` -/
  | bytes (n : Nat) (text : List UInt8)
  /-- `received EOF` -/
  | eof
  deriving DecidableEq

/-- the next call -/
inductive Pc where
  | sockatmark
  | read
  | returned
  deriving DecidableEq

structure State where
  pc : Pc
  arrived : Nat
  fin : Bool
  /-- the place of the mark -/
  mark : Option Nat
  consumed : Nat
  out : List Line

def start : State := ⟨.sockatmark, 0, false, none, 0, []⟩

/-! ## the kernel -/

/-- the mark when `arrived` bytes are there: it moves on only, and it is not behind an urgent byte that
is there -/
structure Marks (x : Stream) (arrived : Nat) (old new : Option Nat) : Prop where
  urgent : ∀ u, new = some u → Urgent x u
  later : ∀ u, old = some u → ∃ v, new = some v ∧ u ≤ v
  covers : ∀ u, Urgent x u → u < arrived → ∃ v, new = some v ∧ u ≤ v

/-- how far `Read` may go -/
def State.limit (s : State) : Nat :=
  match s.mark with
  | none => s.arrived
  | some u => if s.consumed < u then min u s.arrived else s.arrived

/-! ## the program -/

/-- `if (Sockatmark(connfd)) printf("ao OOB mark\n");` -/
def State.sockatmark (s : State) : State :=
  { s with
    pc := .read
    out := if s.mark = some s.consumed then s.out ++ [.mark] else s.out }

/-- `Read` returns the next `n` bytes -/
def State.read (x : Stream) (s : State) (n : Nat) : State :=
  { s with
    pc := .sockatmark
    consumed := s.consumed + n
    out := s.out ++ [.bytes n (cstr (((x.map Prod.fst).drop s.consumed).take n))] }

inductive Event where
  | arrive (n : Nat) (mark : Option Nat)
  | fin
  | sockatmark
  | read (n : Nat)
  | eof
  deriving DecidableEq

inductive Step (x : Stream) (s : State) : Event → State → Prop where
  | arrive (n : Nat) (mark : Option Nat) (le : s.arrived + n ≤ x.length)
      (marks : Marks x (s.arrived + n) s.mark mark) :
      Step x s (.arrive n mark) { s with arrived := s.arrived + n, mark := mark }
  | fin (all : s.arrived = x.length) : Step x s .fin { s with fin := true }
  | sockatmark (pc : s.pc = .sockatmark) : Step x s .sockatmark s.sockatmark
  | read (n : Nat) (pc : s.pc = .read) (pos : 0 < n) (le : n ≤ min buffSize (s.limit - s.consumed)) :
      Step x s (.read n) (s.read x n)
  | eof (pc : s.pc = .read) (all : s.consumed = s.arrived) (end_ : s.fin = true) :
      Step x s .eof { s with pc := .returned, out := s.out ++ [.eof] }

/-! ## what is printed -/

def Line.size : Line → Nat
  | .bytes n _ => n
  | _ => 0

/-- how many bytes the lines tell of -/
def size : List Line → Nat
  | [] => 0
  | l :: out => l.size + size out

/-- where the marks are, `k` bytes having been read before -/
def marksFrom : Nat → List Line → List Nat
  | _, [] => []
  | k, .mark :: out => k :: marksFrom k out
  | k, .bytes n _ :: out => marksFrom (k + n) out
  | k, .eof :: out => marksFrom k out

def marks (out : List Line) : List Nat := marksFrom 0 out

def Line.text : Line → List UInt8
  | .bytes _ text => text
  | _ => []

/-- the lines tell of the bytes sent, piece by piece -/
def Texts (x : Stream) (s : State) : Prop :=
  ∃ pieces : List (List UInt8), pieces.flatten = (x.map Prod.fst).take s.consumed ∧
    s.out.filter (fun l => l.size ≠ 0) = pieces.map (fun p => .bytes p.length (cstr p))

/-- the last urgent byte -/
structure Last (x : Stream) (u : Nat) : Prop where
  urgent : Urgent x u
  le : ∀ v, Urgent x v → v ≤ u

/-- no `Sockatmark` before `u` has been read and while the mark is there -/
def Unaware (u : Nat) (s : State) : Event → Prop
  | .sockatmark => ¬ (s.consumed ≤ u ∧ s.mark = some u)
  | _ => True

/-- of any run -/
structure Inv (x : Stream) (s : State) : Prop where
  arrived : s.arrived ≤ x.length
  fin : s.fin = true → s.arrived = x.length
  le : s.consumed ≤ s.arrived
  urgent : ∀ u, s.mark = some u → Urgent x u
  covers : ∀ u, Urgent x u → u < s.arrived → ∃ v, s.mark = some v ∧ u ≤ v
  size : size s.out = s.consumed
  sorted : (marks s.out).Pairwise (· < ·)
  marked : ∀ u ∈ marks s.out, Urgent x u ∧ u ≤ s.consumed ∧ (s.pc = .sockatmark → u < s.consumed)
  texts : Texts x s

/-- the mark is at `u`, and it is going to be announced -/
structure Ahead (x : Stream) (u : Nat) (s : State) : Prop where
  mark : s.mark = some u
  le : s.consumed ≤ u
  pc : s.pc = .sockatmark ∨ (s.pc = .read ∧ s.consumed < u)

variable {x : Stream} {s t v : State} {e : Event} {es es₀ es₁ : List Event} {u k n : Nat}

/-! ## lines -/

theorem marksFrom_append (k : Nat) (out more : List Line) :
    marksFrom k (out ++ more) = marksFrom k out ++ marksFrom (k + size out) more := by
  induction out generalizing k with
  | nil => rfl
  | cons l out ih =>
    have hsize : size (l :: out) = l.size + size out := rfl
    cases l with
    | mark =>
      rw [List.cons_append, marksFrom, ih, hsize]
      show _ = k :: marksFrom k out ++ marksFrom (k + (0 + size out)) more
      rw [Nat.zero_add, List.cons_append]
    | bytes n text =>
      rw [List.cons_append, marksFrom, ih, hsize, Nat.add_assoc]
      rfl
    | eof =>
      rw [List.cons_append, marksFrom, ih, hsize]
      show _ = marksFrom k out ++ marksFrom (k + (0 + size out)) more
      rw [Nat.zero_add]

theorem marks_append (out more : List Line) :
    marks (out ++ more) = marks out ++ marksFrom (size out) more := by
  unfold marks
  rw [marksFrom_append, Nat.zero_add]

theorem size_append (out more : List Line) : size (out ++ more) = size out + size more := by
  induction out with
  | nil => exact (Nat.zero_add _).symm
  | cons l out ih => rw [List.cons_append, size, size, ih, Nat.add_assoc]

theorem marks_sockatmark (hsize : size s.out = s.consumed) : marks s.sockatmark.out =
    marks s.out ++ if s.mark = some s.consumed then [s.consumed] else [] := by
  unfold State.sockatmark
  dsimp only
  split
  · rw [marks_append, hsize]
    rfl
  · rw [List.append_nil]

theorem mem_marks_sockatmark (hsize : size s.out = s.consumed) (hmem : u ∈ marks s.sockatmark.out) :
    u ∈ marks s.out ∨ (s.mark = some u ∧ s.consumed = u) := by
  rw [marks_sockatmark hsize] at hmem
  rcases List.mem_append.mp hmem with hmem | hmem
  · exact Or.inl hmem
  · split at hmem
    · rename_i hmark
      obtain rfl := List.mem_singleton.mp hmem
      exact Or.inr ⟨hmark, rfl⟩
    · cases hmem

theorem marks_read : marks (s.read x n).out = marks s.out := by
  show marks (s.out ++ _) = _
  rw [marks_append]
  exact List.append_nil _

theorem marks_eof : marks (s.out ++ [.eof]) = marks s.out := by
  rw [marks_append]
  exact List.append_nil _

/-! ## every run -/

theorem limit_le : s.limit ≤ s.arrived := by
  unfold State.limit
  split
  · exact Nat.le_refl _
  · split
    · exact Nat.min_le_right _ _
    · exact Nat.le_refl _

theorem limit_mark (hmark : s.mark = some u) (hlt : s.consumed < u) : s.limit ≤ u := by
  unfold State.limit
  rw [hmark]
  dsimp only
  rw [if_pos hlt]
  exact Nat.min_le_left _ _

theorem inv_start (x : Stream) : Inv x start where
  arrived := Nat.zero_le _
  fin h := by cases h
  le := Nat.le_refl _
  urgent _ h := by cases h
  covers _ _ h := absurd h (Nat.not_lt_zero _)
  size := rfl
  sorted := List.Pairwise.nil
  marked _ h := absurd h List.not_mem_nil
  texts := ⟨[], rfl, rfl⟩

theorem Texts.read (h : Texts x s) (pos : 0 < n) (hle : s.consumed + n ≤ x.length) :
    Texts x (s.read x n) := by
  obtain ⟨pieces, hflat, hlines⟩ := h
  have hlen : (((x.map Prod.fst).drop s.consumed).take n).length = n := by
    rw [List.length_take, List.length_drop, List.length_map]
    omega
  refine ⟨pieces ++ [((x.map Prod.fst).drop s.consumed).take n], ?_, ?_⟩
  · rw [List.flatten_append, hflat, List.flatten_singleton]
    exact List.take_add.symm
  · show (s.out ++ _).filter _ = _
    have hne : n ≠ 0 := by omega
    rw [List.filter_append, hlines, List.map_append]
    simp [Line.size, hne, hlen]

theorem Inv.step (h : Inv x s) (hs : Step x s e t) : Inv x t := by
  cases hs with
  | arrive n mark le marks =>
    exact ⟨le, fun hfin => Nat.le_antisymm le (by have hall := h.fin hfin; show _ ≤ s.arrived + n; omega),
      Nat.le_trans h.le (Nat.le_add_right ..), marks.urgent, marks.covers, h.size, h.sorted, h.marked,
      h.texts⟩
  | fin all => exact ⟨h.arrived, fun _ => all, h.le, h.urgent, h.covers, h.size, h.sorted, h.marked, h.texts⟩
  | sockatmark pc =>
    have hmarks := marks_sockatmark h.size
    refine ⟨h.arrived, h.fin, h.le, h.urgent, h.covers, ?_, ?_, ?_, ?_⟩
    · unfold State.sockatmark
      dsimp only
      split
      · rw [size_append, h.size]
        rfl
      · exact h.size
    · rw [hmarks]
      refine List.pairwise_append.mpr ⟨h.sorted, ?_, fun u hu w hw => ?_⟩
      · split
        · exact List.pairwise_singleton _ _
        · exact List.Pairwise.nil
      · split at hw
        · obtain rfl := List.mem_singleton.mp hw
          exact (h.marked u hu).2.2 pc
        · cases hw
    · intro u hu
      rcases mem_marks_sockatmark h.size hu with hu | ⟨hmark, hat⟩
      · obtain ⟨hurgent, hle, _⟩ := h.marked u hu
        exact ⟨hurgent, hle, (fun hpc => by cases hpc)⟩
      · exact ⟨h.urgent u hmark, Nat.le_of_eq hat.symm, (fun hpc => by cases hpc)⟩
    · obtain ⟨pieces, hflat, hlines⟩ := h.texts
      refine ⟨pieces, hflat, ?_⟩
      unfold State.sockatmark
      dsimp only
      split
      · rw [List.filter_append, hlines]
        exact List.append_nil _
      · exact hlines
  | read n pc pos le =>
    have hlimit := limit_le (s := s)
    have hroom : s.consumed + n ≤ s.arrived := by omega
    refine ⟨h.arrived, h.fin, hroom, h.urgent, h.covers, ?_, ?_, ?_, ?_⟩
    · show Inline.size (s.out ++ [.bytes n _]) = s.consumed + n
      rw [size_append, h.size]
      rfl
    · rw [marks_read]
      exact h.sorted
    · intro u hu
      rw [marks_read] at hu
      obtain ⟨hurgent, hle, _⟩ := h.marked u hu
      show _ ∧ u ≤ s.consumed + n ∧ (_ → u < s.consumed + n)
      exact ⟨hurgent, by omega, fun _ => by omega⟩
    · exact h.texts.read pos (Nat.le_trans hroom h.arrived)
  | eof pc all end_ =>
    refine ⟨h.arrived, h.fin, h.le, h.urgent, h.covers, ?_, ?_, ?_, ?_⟩
    · rw [size_append, h.size]
      rfl
    · rw [marks_eof]
      exact h.sorted
    · intro u hu
      rw [marks_eof] at hu
      obtain ⟨hurgent, hle, _⟩ := h.marked u hu
      exact ⟨hurgent, hle, (fun hpc => by cases hpc)⟩
    · obtain ⟨pieces, hflat, hlines⟩ := h.texts
      refine ⟨pieces, hflat, ?_⟩
      rw [List.filter_append, hlines]
      exact List.append_nil _

theorem run_inv (h : Run (Step x) start es s) : Inv x s :=
  h.inv (inv_start x) (fun _ _ _ hi hs => hi.step hs)

/-! ## the last urgent byte -/

theorem marks_subset (hs : Step x s e t) (hsize : size s.out = s.consumed) :
    ∀ u ∈ marks s.out, u ∈ marks t.out := by
  intro u hu
  cases hs with
  | arrive n mark le marks => exact hu
  | fin all => exact hu
  | sockatmark pc =>
    rw [marks_sockatmark hsize]
    exact List.mem_append_left _ hu
  | read n pc pos le => rwa [marks_read]
  | eof pc all end_ => rwa [marks_eof]

/-- the mark stays, and is announced when it is reached -/
theorem Ahead.step (hlast : Last x u) (hi : Inv x s) (h : Ahead x u s) (hs : Step x s e t) :
    Ahead x u t ∨ u ∈ marks t.out := by
  obtain ⟨hmark, hle, hpc⟩ := h
  cases hs with
  | arrive n mark le marks =>
    obtain ⟨v, hv, huv⟩ := marks.later u hmark
    obtain rfl : v = u := Nat.le_antisymm (hlast.le v (marks.urgent v hv)) huv
    exact Or.inl ⟨hv, hle, hpc⟩
  | fin all => exact Or.inl ⟨hmark, hle, hpc⟩
  | sockatmark pc =>
    by_cases heq : s.consumed = u
    · rw [marks_sockatmark hi.size, heq, if_pos hmark]
      exact Or.inr (List.mem_append_right _ (List.mem_singleton_self _))
    · exact Or.inl ⟨hmark, hle, Or.inr ⟨rfl, Nat.lt_of_le_of_ne hle heq⟩⟩
  | read n pc pos le =>
    rcases hpc with hpc | ⟨_, hlt⟩
    · exact absurd (pc.symm.trans hpc) (by decide)
    · have hlimit := limit_mark hmark hlt
      refine Or.inl ⟨hmark, ?_, Or.inl rfl⟩
      show s.consumed + n ≤ u
      omega
  | eof pc all end_ =>
    -- `u` has been read with all the rest
    obtain ⟨b, hb⟩ := hlast.urgent
    have hlen := (List.getElem?_eq_some_iff.mp hb).1
    have hall := hi.fin end_
    omega

theorem Ahead.run (hlast : Last x u) (hi : Inv x s) (h : Ahead x u s) (hrun : Run (Step x) s es t) :
    Ahead x u t ∨ u ∈ marks t.out := by
  induction hrun with
  | nil => exact Or.inl h
  | snoc hr hs ih =>
    have hinv := hr.inv hi (fun _ _ _ hi hs => hi.step hs)
    rcases ih with hahead | hmem
    · exact hahead.step hlast hinv hs
    · exact Or.inr (marks_subset hs hinv.size u hmem)

theorem Ahead.not_returned (h : Ahead x u s) : s.pc ≠ .returned := by
  rcases h.pc with hpc | ⟨hpc, _⟩
  · rw [hpc]
    decide
  · rw [hpc]
    decide

/-- a run is unaware of `u`, or it announces `u`, or is going to -/
theorem split (hlast : Last x u) (h : Run (Step x) start es s) :
    Run (When (Unaware u) (Step x)) start es s ∨ Ahead x u s ∨ u ∈ marks s.out := by
  induction h with
  | nil => exact Or.inl Run.nil
  | @snoc es s e t hrun hs ih =>
    have hi := run_inv hrun
    rcases ih with hwhen | hahead | hmem
    · by_cases hun : Unaware u s e
      · exact Or.inl (hwhen.snoc ⟨hun, hs⟩)
      · cases hs with
        | sockatmark pc =>
          obtain ⟨hle, hmark⟩ := not_not.mp hun
          exact Or.inr (Ahead.step hlast hi ⟨hmark, hle, Or.inl pc⟩ (.sockatmark pc))
        | arrive | fin | read | eof => exact absurd trivial hun
    · exact Or.inr (hahead.step hlast hi hs)
    · exact Or.inr (Or.inr (marks_subset hs hi.size u hmem))

theorem unaware_marks (h : Run (When (Unaware u) (Step x)) start es s) : u ∉ marks s.out := by
  induction h with
  | nil => exact List.not_mem_nil
  | snoc hrun hs ih =>
    have hi := run_inv hrun.of_when
    obtain ⟨hun, hs⟩ := hs
    cases hs with
    | arrive n mark le marks => exact ih
    | fin all => exact ih
    | sockatmark pc =>
      intro hmem
      rcases mem_marks_sockatmark hi.size hmem with hmem | ⟨hmark, hat⟩
      · exact ih hmem
      · exact hun ⟨Nat.le_of_eq hat, hmark⟩
    | read n pc pos le => rwa [marks_read]
    | eof pc all end_ => rwa [marks_eof]

/-! ## all has arrived before -/

theorem waiting (h : Run (Step x) start es s) (hnot : .sockatmark ∉ es) :
    s.pc = .sockatmark ∧ s.consumed = 0 ∧ s.out = [] := by
  induction h with
  | nil => exact ⟨rfl, rfl, rfl⟩
  | @snoc es s e t hrun hs ih =>
    obtain ⟨hpc, hrest⟩ := ih (fun hmem => hnot (List.mem_append_left _ hmem))
    cases hs with
    | arrive n mark le marks => exact ⟨hpc, hrest⟩
    | fin all => exact ⟨hpc, hrest⟩
    | sockatmark pc => exact absurd (List.mem_append_right _ List.mem_cons_self) hnot
    | read n pc pos le => exact absurd (pc.symm.trans hpc) (by decide)
    | eof pc all end_ => exact absurd (pc.symm.trans hpc) (by decide)

theorem mark_last (hlast : Last x u) (hi : Inv x s) (hall : s.arrived = x.length) :
    s.mark = some u := by
  obtain ⟨b, hb⟩ := hlast.urgent
  have hlt := (List.getElem?_eq_some_iff.mp hb).1
  obtain ⟨w, hw, hle⟩ := hi.covers u hlast.urgent (hall ▸ hlt)
  rw [hw, Nat.le_antisymm (hlast.le w (hi.urgent w hw)) hle]

/-- nothing but the last urgent byte is announced any more -/
theorem marks_only (hlast : Last x u) (hi : Inv x s) (hmark : s.mark = some u)
    (hnone : marks s.out = []) (h : Run (Step x) s es t) :
    t.mark = some u ∧ ∀ w ∈ marks t.out, w = u := by
  induction h with
  | nil => exact ⟨hmark, fun w hw => absurd (hnone ▸ hw) List.not_mem_nil⟩
  | snoc hrun hs ih =>
    have hinv := hrun.inv hi (fun _ _ _ hi hs => hi.step hs)
    obtain ⟨hmark, honly⟩ := ih
    cases hs with
    | arrive n mark le marks =>
      obtain ⟨w, hw, huw⟩ := marks.later u hmark
      exact ⟨hw.trans (congrArg some (Nat.le_antisymm (hlast.le w (marks.urgent w hw)) huw)), honly⟩
    | fin all => exact ⟨hmark, honly⟩
    | sockatmark pc =>
      refine ⟨hmark, fun w hw => ?_⟩
      rcases mem_marks_sockatmark hinv.size hw with hw | ⟨hat, _⟩
      · exact honly w hw
      · exact Option.some.inj (hat.symm.trans hmark)
    | read n pc pos le => exact ⟨hmark, by rwa [marks_read]⟩
    | eof pc all end_ => exact ⟨hmark, by rwa [marks_eof]⟩

theorem eq_singleton {l : List Nat} (hsort : l.Pairwise (· < ·)) (hall : ∀ w ∈ l, w = u)
    (hmem : u ∈ l) : l = [u] := by
  match l, hsort, hall, hmem with
  | [w], _, hall, _ => rw [hall w List.mem_cons_self]
  | w :: w' :: l, hsort, hall, _ =>
    have hlt := (List.pairwise_cons.mp hsort).1 w' List.mem_cons_self
    have hw := hall w List.mem_cons_self
    have hw' := hall w' (List.mem_cons_of_mem _ List.mem_cons_self)
    omega

/-- **What is announced.**  In every run all that is read is printed piece by piece, and `ao OOB mark`
stands at places of urgent bytes only, and at none twice.  The last urgent byte is announced unless the
run knows of it at no `Sockatmark` before it has read it; earlier ones may be missed, and are when all
has arrived before the first `Sockatmark`. -/
theorem marks_iff (x : Stream) :
    (∀ es s, Run (Step x) start es s →
      (marks s.out).Pairwise (· < ·) ∧ (∀ u ∈ marks s.out, Urgent x u) ∧ Texts x s) ∧
    ∀ u, Last x u →
      (∀ es s, Run (Step x) start es s → s.pc = .returned →
        (u ∈ marks s.out ↔ ¬ Run (When (Unaware u) (Step x)) start es s)) ∧
      ∀ es₀ v es₁ s, Run (Step x) start es₀ v → .sockatmark ∉ es₀ → v.arrived = x.length →
        Run (Step x) v es₁ s → s.pc = .returned → marks s.out = [u] := by
  refine ⟨fun es s h => ?_, fun u hlast => ⟨fun es s h hpc => ⟨?_, ?_⟩, ?_⟩⟩
  · have hi := run_inv h
    exact ⟨hi.sorted, fun u hu => (hi.marked u hu).1, hi.texts⟩
  · exact fun hmem hun => unaware_marks hun hmem
  · intro hnot
    rcases split hlast h with hun | hahead | hmem
    · exact absurd hun hnot
    · exact absurd hpc hahead.not_returned
    · exact hmem
  · intro es₀ v es₁ s h₀ hnot hall h₁ hpc
    have hi := run_inv h₀
    obtain ⟨hvpc, hzero, hout⟩ := waiting h₀ hnot
    have hmark := mark_last hlast hi hall
    have hahead : Ahead x u v := ⟨hmark, hzero ▸ Nat.zero_le u, Or.inl hvpc⟩
    have honly := (marks_only hlast hi hmark (by rw [hout]; rfl) h₁).2
    have hsort := (run_inv (h₀.trans h₁)).sorted
    rcases hahead.run hlast hi h₁ with hahead | hmem
    · exact absurd hpc hahead.not_returned
    · exact eq_singleton hsort honly hmem

/-- what `tcpsend04` sends -/
def tcpsend04 : Stream :=
  [(49, false), (50, false), (51, false), (52, true), (53, false), (54, true), (55, false)]

theorem last_tcpsend04 : Last tcpsend04 5 where
  urgent := ⟨54, rfl⟩
  le v hv := by
    obtain ⟨b, hb⟩ := hv
    match v, hb with
    | 0, hb | 1, hb | 2, hb | 3, hb | 4, hb | 5, hb => decide
    | 6, hb => cases hb
    | v + 7, hb => cases hb

theorem marks_tcpsend04 : Marks tcpsend04 7 none (some 5) where
  urgent u hu := by
    obtain rfl := Option.some.inj hu
    exact last_tcpsend04.urgent
  later u hu := by cases hu
  covers u hu _ := ⟨5, rfl, last_tcpsend04.le u hu⟩

/-- it has all arrived: the first urgent byte goes unnoticed -/
theorem marks_iff_tcpsend04 : ∃ es s, Run (Step tcpsend04) start es s ∧ s.pc = .returned ∧
    marks s.out = [5] := by
  have h₀ := Run.single (Step.arrive (s := start) 7 (some 5) (by decide) marks_tcpsend04)
  have h1 := Run.single (Step.sockatmark (x := tcpsend04) (s := ⟨.sockatmark, 7, false, some 5, 0, []⟩)
    rfl)
  have h2 := h1.snoc (.read 5 rfl (by decide) (by decide))
  have h3 := h2.snoc (.sockatmark rfl)
  have h4 := h3.snoc (.read 2 rfl (by decide) (by decide))
  have h5 := h4.snoc (.fin rfl)
  have h6 := h5.snoc (.sockatmark rfl)
  have h₁ := h6.snoc (.eof rfl rfl rfl)
  exact ⟨_, _, h₀.trans h₁, rfl,
    ((marks_iff tcpsend04).2 5 last_tcpsend04).2 _ _ _ _ h₀ (by decide) rfl h₁ rfl⟩

end Unp.Oob.Inline
