import NetworkProgram.Lib.Run
import NetworkProgram.Lib.Tally
import NetworkProgram.Serv08.Impl

/-!
# Whose counter a worker increments

`server/serv07/main.cpp` and `serv08/main.cpp`: the lambda of a thread captures the variable `i` of
main's loop by reference, and `++tptr[i].thread_count` reads it whenever a worker gets there.  After
the loop its storage holds the last value.  The statements are atomic; `clifd` is a list here.

* `Step`         main's loop, and worker `k`, the `k`-th that has been created;
* `InTime`       a worker counts before main's next `++i` (`inTime_iff_not_incr`);
* `counts_iff`   the runs in which every worker increments its own counter;
* `Step.late`    in `serv08` none is in time.
-/

namespace Unp.Counts
open Trans Serv08 Finset

inductive Server where
  | serv07
  | serv08

/-- where main is: at `i < nthreads` with the creation of a thread, at `++i`, or behind the loop -/
inductive Main where
  | create
  | incr
  | after

/-- where a worker is: not created, getting a connection, at `++tptr[i].thread_count`, or in
`web_child` and `Close` -/
inductive Phase where
  | none
  | get
  | count (connfd : Int)
  | serve (connfd : Int)

structure St where
  i : Nat
  main : Main
  created : Nat
  phase : Nat → Phase
  clifd : List Int
  /-- `thread_count` in the memory from `tptr` on -/
  count : Nat → Int
  /-- the connections that workers have got -/
  taken : List Int

/-- `Calloc` has cleared `nthreads` entries, behind them is `mem` -/
def start (nthreads : Nat) (mem : Nat → Int) : St where
  i := 0
  main := .create
  created := 0
  phase := fun _ => .none
  clifd := []
  count := fun j => if j < nthreads then 0 else mem j
  taken := []

def St.setPhase (s : St) (k : Nat) (p : Phase) : St :=
  { s with phase := Function.update s.phase k p }

/-- `std::thread(..).detach();` -/
def St.create (s : St) : St :=
  { s with main := .incr, created := s.created + 1 }.setPhase s.created .get

/-- worker `k` has got a connection -/
def St.take (s : St) (k : Nat) (connfd : Int) : St :=
  { s with taken := s.taken ++ [connfd] }.setPhase k (.count connfd)

/-- `++tptr[i].thread_count;` -/
def St.bump (s : St) (k : Nat) (connfd : Int) : St :=
  { s with count := Function.update s.count s.i (s.count s.i + 1) }.setPhase k (.serve connfd)

/-! ## the steps -/

inductive Event where
  | create
  | incr
  | leave
  | insert (connfd : Int)
  | take (k : Nat) (connfd : Int)
  | count (k : Nat)
  | done (k : Nat)
  deriving DecidableEq

inductive Step (server : Server) (nthreads : Nat) (s : St) : Event → St → Prop where
  | create (pc : s.main = .create) (lt : s.i < nthreads) : Step server nthreads s .create s.create
  | incr (pc : s.main = .incr) :
      Step server nthreads s .incr { s with i := s.i + 1, main := .create }
  | leave (pc : s.main = .create) (ge : ¬ s.i < nthreads) :
      Step server nthreads s .leave { s with main := .after }
  /-- `serv08`: main's second loop; with `clifd` full it ends the process -/
  | insert (connfd : Int) (prog : server = .serv08) (pc : s.main = .after)
      (room : s.clifd.length + 1 < MAXNCLI) :
      Step server nthreads s (.insert connfd) { s with clifd := s.clifd ++ [connfd] }
  /-- `serv07`: the worker calls `Accept` -/
  | accept (k : Nat) (connfd : Int) (prog : server = .serv07) (pc : s.phase k = .get) :
      Step server nthreads s (.take k connfd) (s.take k connfd)
  /-- `serv08`: the worker takes the connection from `clifd` -/
  | take (k : Nat) (connfd : Int) (rest : List Int) (prog : server = .serv08)
      (pc : s.phase k = .get) (queue : s.clifd = connfd :: rest) :
      Step server nthreads s (.take k connfd) (St.take { s with clifd := rest } k connfd)
  | count (k : Nat) (connfd : Int) (pc : s.phase k = .count connfd) :
      Step server nthreads s (.count k) (s.bump k connfd)
  | done (k : Nat) (connfd : Int) (pc : s.phase k = .serve connfd) :
      Step server nthreads s (.done k) (s.setPhase k .get)

/-! ## the law -/

/-- at `++tptr[i].thread_count` -/
def Phase.counting : Phase → Bool
  | .count _ => true
  | _ => false

/-- every connection that a worker has got is counted, but for those that it is about to count -/
def Balanced (nthreads : Nat) (s : St) : Prop :=
  ∑ j ∈ range nthreads, s.count j + Tally.count (range nthreads) Phase.counting s.phase =
    s.taken.length

/-- a worker increments the counter of its own and no other, and the counters sum up -/
def Own (nthreads : Nat) (s : St) (e : Event) (t : St) : Prop :=
  (∀ k, e = .count k → s.i < nthreads ∧ t.count = Function.update s.count k (s.count k + 1)) ∧
    Balanced nthreads t

/-- worker `k` counts while main's `i` is `k` -/
def InTime (s : St) (e : Event) : Prop := ∀ k, e = .count k → s.i = k

/-- main has created a worker for every `++i`, and one more in front of it -/
def AtLoop (s : St) : Prop :=
  s.main = .incr ∧ s.created = s.i + 1 ∨ s.main ≠ .incr ∧ s.created = s.i

/-- how main's loop and the workers fit -/
structure Inv (nthreads : Nat) (s : St) : Prop where
  /-- only created workers run -/
  born : ∀ k, s.phase k ≠ .none → k < s.created
  created : s.created ≤ nthreads
  i : AtLoop s
  balanced : Balanced nthreads s

variable {server : Server} {nthreads : Nat} {mem : Nat → Int} {s t : St} {e : Event}

theorem atLoop_start : AtLoop (start nthreads mem) := Or.inr ⟨Main.noConfusion, rfl⟩

theorem AtLoop.created (h : AtLoop s) (pc : s.main = .create) : s.created = s.i := by
  rcases h with ⟨hm, _⟩ | ⟨_, hc⟩
  · rw [pc] at hm
    cases hm
  · exact hc

theorem AtLoop.step (h : AtLoop s) (hs : Step server nthreads s e t) : AtLoop t := by
  cases hs with
  | create pc lt => exact Or.inl ⟨rfl, congrArg (· + 1) (h.created pc)⟩
  | incr pc =>
    refine Or.inr ⟨Main.noConfusion, ?_⟩
    rcases h with ⟨_, hc⟩ | ⟨hm, _⟩
    · exact hc
    · exact absurd pc hm
  | leave pc ge => exact Or.inr ⟨Main.noConfusion, h.created pc⟩
  | insert connfd prog pc room => exact h
  | accept k connfd prog pc => exact h
  | take k connfd rest prog pc queue => exact h
  | count k connfd pc => exact h
  | done k connfd pc => exact h

theorem inv_start : Inv nthreads (start nthreads mem) where
  born k h := absurd rfl h
  created := Nat.zero_le _
  i := atLoop_start
  balanced := by
    have hzero : ∑ j ∈ range nthreads, (start nthreads mem).count j = 0 :=
      sum_eq_zero (fun j hj => if_pos (mem_range.mp hj))
    have hnone : Tally.count (range nthreads) Phase.counting (start nthreads mem).phase = 0 :=
      Tally.count_eq_zero_iff.mpr (fun _ _ => rfl)
    unfold Balanced
    rw [hzero, hnone]
    rfl

theorem Inv.lt (h : Inv nthreads s) {k : Nat} (hk : s.phase k ≠ .none) : k < nthreads :=
  Nat.lt_of_lt_of_le (h.born k hk) h.created

/-- a worker that runs changes its phase -/
theorem born_setPhase {u : St} {k : Nat} {p : Phase} (hborn : ∀ k, s.phase k ≠ .none → k < s.created)
    (hk : s.phase k ≠ .none) (hph : u.phase = s.phase) (hcr : u.created = s.created) :
    ∀ k', (u.setPhase k p).phase k' ≠ .none → k' < (u.setPhase k p).created := by
  intro k' hk'
  show k' < u.created
  rw [hcr]
  rcases eq_or_ne k' k with rfl | hne
  · exact hborn _ hk
  · have hsame : (u.setPhase k p).phase k' = s.phase k' := by
      rw [← hph]
      exact Function.update_of_ne hne _ _
    exact hborn k' (hsame ▸ hk')

/-- the counters after one worker's phase has changed -/
theorem counting_update {k : Nat} (hk : k < nthreads) (f : Nat → Phase) (p : Phase) :
    Tally.count (range nthreads) Phase.counting (Function.update f k p) + (f k).counting.toNat =
      Tally.count (range nthreads) Phase.counting f + p.counting.toNat :=
  Tally.count_update (mem_range.mpr hk) p

theorem Inv.create (h : Inv nthreads s) (pc : s.main = .create) (lt : s.i < nthreads) :
    Inv nthreads s.create := by
  have hcr := h.i.created pc
  have hnone : s.phase s.created = .none := by
    by_contra hne
    exact absurd (h.born _ hne) (Nat.lt_irrefl _)
  refine ⟨fun k hk => ?_, ?_, h.i.step (Step.create pc lt : Step .serv07 nthreads s _ _), ?_⟩
  · show k < s.created + 1
    rcases eq_or_ne k s.created with rfl | hne
    · exact Nat.lt_succ_self _
    · have hsame : s.create.phase k = s.phase k := Function.update_of_ne hne _ _
      exact Nat.lt_succ_of_lt (h.born k (hsame ▸ hk))
  · show s.created + 1 ≤ nthreads
    omega
  · have hcount := counting_update (show s.created < nthreads by omega) s.phase .get
    rw [hnone] at hcount
    have hbal := h.balanced
    unfold Balanced at hbal ⊢
    have hph : s.create.phase = Function.update s.phase s.created .get := rfl
    rw [hph, show Tally.count (range nthreads) Phase.counting (Function.update s.phase s.created .get) =
      Tally.count (range nthreads) Phase.counting s.phase from hcount]
    exact hbal

/-- worker `k` moves on to `p` -/
theorem Inv.move (h : Inv nthreads s) {u : St} {k : Nat} {p : Phase} (hk : s.phase k ≠ .none)
    (hph : u.phase = s.phase) (hcr : u.created = s.created) (hmain : u.main = s.main)
    (hi : u.i = s.i)
    (hbal : ∑ j ∈ range nthreads, u.count j + p.counting.toNat + s.taken.length =
      ∑ j ∈ range nthreads, s.count j + (s.phase k).counting.toNat + u.taken.length) :
    Inv nthreads (u.setPhase k p) := by
  refine ⟨born_setPhase h.born hk hph hcr, ?_, ?_, ?_⟩
  · show u.created ≤ nthreads
    rw [hcr]
    exact h.created
  · show u.main = .incr ∧ u.created = u.i + 1 ∨ u.main ≠ .incr ∧ u.created = u.i
    rw [hcr, hmain, hi]
    exact h.i
  · have hcount := counting_update (h.lt hk) s.phase p
    have hold := h.balanced
    unfold Balanced at hold ⊢
    show ∑ j ∈ range nthreads, u.count j +
      ((Tally.count (range nthreads) Phase.counting (Function.update u.phase k p) : Nat) : Int) =
        (u.taken.length : Nat)
    rw [hph]
    omega

theorem Inv.take (h : Inv nthreads s) {k : Nat} (connfd : Int) (pc : s.phase k = .get)
    (clifd : List Int) : Inv nthreads (St.take { s with clifd := clifd } k connfd) := by
  refine h.move (by rw [pc]; exact Phase.noConfusion) rfl rfl rfl rfl ?_
  rw [pc, List.length_append, List.length_singleton]
  simp only [Phase.counting, Bool.toNat_true, Bool.toNat_false]
  omega

theorem Inv.done (h : Inv nthreads s) {k : Nat} {connfd : Int} (pc : s.phase k = .serve connfd) :
    Inv nthreads (s.setPhase k .get) := by
  refine h.move (by rw [pc]; exact Phase.noConfusion) rfl rfl rfl rfl ?_
  rw [pc]
  rfl

/-- a worker in time -/
theorem Inv.bump (h : Inv nthreads s) {k : Nat} {connfd : Int} (pc : s.phase k = .count connfd)
    (hi : s.i = k) : Inv nthreads (s.bump k connfd) := by
  have hne : s.phase k ≠ .none := by
    rw [pc]
    exact Phase.noConfusion
  have hsum := Tally.sum_update id (mem_range.mpr (h.lt hne)) (s.count k + 1) (f := s.count)
  simp only [id_eq] at hsum
  refine h.move hne rfl rfl rfl rfl ?_
  rw [pc, hi]
  simp only [Phase.counting, Bool.toNat_true, Bool.toNat_false]
  omega

theorem Inv.step (h : Inv nthreads s) (hs : Step server nthreads s e t) (hin : InTime s e) :
    Inv nthreads t := by
  have hloop := h.i.step hs
  cases hs with
  | create pc lt => exact h.create pc lt
  | incr pc => exact ⟨h.born, h.created, hloop, h.balanced⟩
  | leave pc ge => exact ⟨h.born, h.created, hloop, h.balanced⟩
  | insert connfd prog pc room => exact ⟨h.born, h.created, h.i, h.balanced⟩
  | accept k connfd prog pc => exact h.take connfd pc s.clifd
  | take k connfd rest prog pc queue => exact h.take connfd pc rest
  | count k connfd pc => exact h.bump pc (hin k rfl)
  | done k connfd pc => exact h.done pc

/-! ## main's `++i` -/

/-- `i` counts the `++i` -/
theorem i_count {es : List Event} (h : Run (Step server nthreads) s es t) :
    t.i = s.i + es.count .incr := by
  have hrun : (t.i : Int) = s.i + es.countP (· == .incr) := by
    refine h.countP_add (f := fun s => (s.i : Int)) (fun _ _ _ _ hs => ?_)
    cases hs <;> rfl
  exact_mod_cast hrun

/-- **In time is before the `++i` behind the creation.**  The worker that is created in `u` counts
in time as long as main has not come to its next `++i`. -/
theorem inTime_iff_not_incr {pre post : List Event} {u : St}
    (hpre : Run (Step server nthreads) (start nthreads mem) pre u) (pc : u.main = .create)
    (hpost : Run (Step server nthreads) u.create post s) :
    InTime s (.count u.created) ↔ .incr ∉ post := by
  have hloop : AtLoop u := hpre.inv atLoop_start (fun _ _ _ h hs => h.step hs)
  have hnumber := hloop.created pc
  have hi : s.i = u.create.i + post.count .incr := i_count hpost
  have hsame : u.create.i = u.i := rfl
  rw [← List.count_eq_zero]
  constructor
  · intro hin
    have := hin u.created rfl
    omega
  · rintro hnone k hk
    cases hk
    omega

/-! ## the counter that is incremented -/

/-- only the counter of its own makes the update the worker's own -/
theorem update_own {f : Nat → Int} {i k : Nat}
    (h : Function.update f i (f i + 1) = Function.update f k (f k + 1)) : i = k := by
  by_contra hne
  have hi := congrFun h i
  rw [Function.update_self, Function.update_of_ne hne] at hi
  omega

theorem Step.own_iff (h : Inv nthreads s) (hs : Step server nthreads s e t) :
    Own nthreads s e t ↔ InTime s e := by
  constructor
  · rintro ⟨hown, _⟩ k rfl
    cases hs with
    | count k connfd pc => exact update_own (hown k rfl).2
  · intro hin
    refine ⟨?_, (h.step hs hin).balanced⟩
    rintro k rfl
    cases hs with
    | count k connfd pc =>
      have hi := hin k rfl
      have hlt := h.lt (k := k) (by rw [pc]; exact Phase.noConfusion)
      refine ⟨by omega, ?_⟩
      show Function.update s.count s.i (s.count s.i + 1) = _
      rw [hi]

/-- **Which runs count right.**  Every worker increments its own counter, below `nthreads`, and the
counters sum up, exactly when every worker that counts does so while main's `i` is its number. -/
theorem counts_iff (server : Server) (nthreads : Nat) (mem : Nat → Int) (es : List Event) (t : St) :
    Run (Obey (Own nthreads) (Step server nthreads)) (start nthreads mem) es t ↔
      Run (When InTime (Step server nthreads)) (start nthreads mem) es t :=
  Run.obey_iff_when (Inv nthreads) inv_start (fun _ _ _ hinv hs => hs.own_iff hinv)
    (fun _ _ _ hinv hs => hinv.step hs.2 hs.1)

/-! ## serv08 -/

/-- in `serv08` nobody gets a connection before the end of main's loop -/
structure Late (nthreads : Nat) (s : St) : Prop where
  after : s.main = .after → s.i = nthreads
  before : s.main ≠ .after → s.i ≤ nthreads ∧ s.clifd = [] ∧ ∀ k connfd, s.phase k ≠ .count connfd
  incr : s.main = .incr → s.i < nthreads

theorem late_start : Late nthreads (start nthreads mem) where
  after h := by cases h
  before _ := ⟨Nat.zero_le _, rfl, fun _ _ h => by cases h⟩
  incr h := by cases h

/-- a phase that is not at the counter leaves nobody else there -/
theorem not_count_setPhase {k : Nat} {p : Phase} (h : ∀ k connfd, s.phase k ≠ .count connfd)
    (hp : ∀ connfd, p ≠ .count connfd) (k' : Nat) (connfd : Int) :
    Function.update s.phase k p k' ≠ .count connfd := by
  rcases eq_or_ne k' k with rfl | hne
  · rw [Function.update_self]
    exact hp connfd
  · rw [Function.update_of_ne hne]
    exact h k' connfd

theorem Late.step (h : Late nthreads s) (hs : Step .serv08 nthreads s e t) : Late nthreads t := by
  cases hs with
  | create pc lt =>
    obtain ⟨_, hnil, hno⟩ := h.before (by rw [pc]; exact Main.noConfusion)
    exact ⟨fun hm => Main.noConfusion hm,
      fun _ => ⟨Nat.le_of_lt lt, hnil, not_count_setPhase hno (fun _ => Phase.noConfusion)⟩,
      fun _ => lt⟩
  | incr pc =>
    obtain ⟨_, hnil, hno⟩ := h.before (by rw [pc]; exact Main.noConfusion)
    exact ⟨fun hm => Main.noConfusion hm, fun _ => ⟨h.incr pc, hnil, hno⟩,
      fun hm => Main.noConfusion hm⟩
  | leave pc ge =>
    obtain ⟨hle, _, _⟩ := h.before (by rw [pc]; exact Main.noConfusion)
    exact ⟨fun _ => Nat.le_antisymm hle (Nat.le_of_not_lt ge), fun hm => absurd rfl hm,
      fun hm => Main.noConfusion hm⟩
  | insert connfd prog pc room =>
    exact ⟨h.after, fun hm => absurd pc hm, h.incr⟩
  | accept k connfd prog pc => cases prog
  | take k connfd rest prog pc queue =>
    refine ⟨h.after, fun hm => ?_, h.incr⟩
    obtain ⟨_, hnil, _⟩ := h.before hm
    rw [hnil] at queue
    cases queue
  | count k connfd pc =>
    exact ⟨h.after, fun hm => absurd pc ((h.before hm).2.2 k connfd), h.incr⟩
  | done k connfd pc =>
    refine ⟨h.after, fun hm => ?_, h.incr⟩
    obtain ⟨hle, hnil, hno⟩ := h.before hm
    exact ⟨hle, hnil, not_count_setPhase hno (fun _ => Phase.noConfusion)⟩

/-- **In `serv08` every count goes behind the counters**, to `tptr[nthreads]`. -/
theorem Step.late {es : List Event} {k : Nat}
    (h : Run (Step .serv08 nthreads) (start nthreads mem) es s)
    (hs : Step .serv08 nthreads s (.count k) t) : s.i = nthreads := by
  have hlate : Late nthreads s := h.inv late_start (fun _ _ _ hl hst => hl.step hst)
  cases hs with
  | count k connfd pc =>
    by_contra hi
    exact (hlate.before (fun hm => hi (hlate.after hm))).2.2 k connfd pc

/-! ## one thread -/

/-- the thread counts its first connection when the loop has gone on: the index is out of range -/
theorem not_own {s₀ : St} {es : List Event} {k : Nat} (h1 : t.i = 1)
    (h : Run (Obey (Own 1) (Step server 1)) s₀ (es ++ [.count k]) t) : False := by
  obtain ⟨s, _, hs, hown⟩ := Run.snoc_iff.mp h
  have hlt := (hown.1 k rfl).1
  cases hs with
  | count k connfd pc =>
    have hi : s.i = 1 := h1
    omega

theorem not_counts : ¬ ∃ server : Server, ∀ nthreads mem es t,
    Run (Step server nthreads) (start nthreads mem) es t →
      Run (Obey (Own nthreads) (Step server nthreads)) (start nthreads mem) es t := by
  rintro ⟨server, h⟩
  have hincr : Run (Step server 1) (start 1 (fun _ => 0)) _ _ :=
    (Run.single (Step.create rfl Nat.zero_lt_one)).snoc (Step.incr rfl)
  cases server with
  | serv07 =>
    have hrun := (hincr.snoc (Step.accept 0 4 rfl rfl)).snoc (Step.count 0 4 rfl)
    exact not_own rfl (h _ _ _ _ hrun)
  | serv08 =>
    have hrun := (((hincr.snoc (Step.leave rfl (Nat.lt_irrefl 1))).snoc
      (Step.insert 4 rfl rfl (by decide))).snoc (Step.take 0 4 [] rfl rfl rfl)).snoc
      (Step.count 0 4 rfl)
    exact not_own rfl (h _ _ _ _ hrun)

end Unp.Counts
