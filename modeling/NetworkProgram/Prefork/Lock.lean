import NetworkProgram.Prefork.Once

/-!
# The mutex around Accept

In `serv03` a child is at `Accept` or at `my_lock_release` only while it holds the mutex
(`Mutex.holder`).  The mutex is not robust: a child that ends in `Accept` never releases it
(`wedged_iff`).

* `waiting_moves_iff`   a connection that waits and a child that is free come together, unless an
                        `Accept` of `serv03` has failed;
* `one_at_accept`       one child at a time, and what a failed `Accept` does to the others.
-/

namespace Unp.Prefork

open Trans

/-- between `my_lock_wait` and `my_lock_release` -/
def Pc.holds : Pc → Bool
  | .accept => true
  | .release _ => true
  | _ => false

/-- a connection waits, and so does a child -/
def St.Waiting (s : St) : Prop := s.queue ≠ [] ∧ ∃ i, s.child i = .wait ∨ s.child i = .accept

/-- a statement on the way to the end of `Accept` -/
def Event.toAccept : Event → Bool
  | .enter _ => true
  | .accept _ => true
  | .release _ => true
  | _ => false

/-- some child can do such a statement -/
def St.Moves (server : Server) (nchildren : Nat) (s : St) : Prop :=
  ∃ e t, e.toAccept = true ∧ Step server nchildren s e t

structure Mutex (s : St) : Prop where
  holder : ∀ i, (s.child i).holds = true → s.mptr = some i
  held : ∀ i, s.mptr = some i → (s.child i).holds = true ∨ ∃ why, s.child i = .dead why

/-- the child that holds the mutex has ended -/
def Wedged (s : St) : Prop := ∃ i why, s.mptr = some i ∧ s.child i = .dead why

def Event.isAcceptError : Event → Bool
  | .acceptError _ => true
  | _ => false

variable {server : Server} {nchildren : Nat} {s t : St} {e : Event} {es : List Event} {i : Nat}
  {pc : Pc}

/-- a child goes on and the mutex stays where it is -/
theorem Mutex.move (hs : Mutex s) (hholds : pc.holds = (s.child i).holds)
    (hliving : (s.child i).living = true) : Mutex (s.setChild i pc) := by
  refine ⟨fun j hj => ?_, fun j hj => ?_⟩
  · by_cases hji : j = i
    · subst hji
      rw [setChild_self, hholds] at hj
      exact hs.holder j hj
    · rw [setChild_of_ne s pc hji] at hj
      exact hs.holder j hj
  · by_cases hji : j = i
    · subst hji
      rw [setChild_self, hholds]
      rcases hs.held j hj with h | ⟨why, h⟩
      · exact Or.inl h
      · rw [h] at hliving
        cases hliving
    · rw [setChild_of_ne s pc hji]
      exact hs.held j hj

theorem Mutex.unique (hs : Mutex s) {j : Nat} (hi : (s.child i).holds = true)
    (hj : (s.child j).holds = true) : i = j :=
  Option.some.inj ((hs.holder i hi).symm.trans (hs.holder j hj))

/-- nobody holds the free mutex -/
theorem Mutex.free (hs : Mutex s) (h : s.mptr = none) : (s.child i).holds = false := by
  cases hh : (s.child i).holds with
  | false => rfl
  | true => exact absurd ((hs.holder i hh).symm.trans h) nofun

theorem Step.mutex (h : Step .serv03 nchildren s e t) (hb : Books s) (hs : Mutex s) : Mutex t := by
  cases h with
  | fork lt =>
    have hnew := hb.unborn s.forked (Nat.le_refl _)
    refine ⟨fun j hj => ?_, fun j hj => ?_⟩
    · by_cases hji : j = s.forked
      · subst hji
        rw [setChild_self] at hj
        cases hj
      · rw [setChild_of_ne _ _ hji] at hj
        exact hs.holder j hj
    · by_cases hji : j = s.forked
      · subst hji
        rcases hs.held _ hj with h | ⟨why, h⟩ <;> rw [hnew] at h <;> cases h
      · rw [setChild_of_ne _ _ hji]
        exact hs.held j hj
  | connect => exact ⟨hs.holder, hs.held⟩
  | abort k lt => exact ⟨hs.holder, hs.held⟩
  | enter i pc ok =>
    have hfree : s.mptr = none := Option.isNone_iff_eq_none.mp ok
    refine ⟨fun j hj => ?_, fun j hj => ?_⟩
    · by_cases hji : j = i
      · exact congrArg some hji.symm
      · rw [setChild_of_ne _ _ hji] at hj
        exact absurd (hj.symm.trans (hs.free hfree)) (by decide)
    · have hji : j = i := (Option.some.inj hj).symm
      rw [hji, setChild_self]
      exact Or.inl rfl
  | accept i connfd rest pc ready =>
    have hs' : Mutex { s with
        queue := s.queue.tail, accepted := s.accepted ++ [(i, connfd)] } := ⟨hs.holder, hs.held⟩
    exact hs'.move (by rw [pc]; rfl) (by rw [pc]; rfl)
  | acceptError i pc =>
    refine ⟨fun j hj => ?_, fun j hj => ?_⟩
    · by_cases hji : j = i
      · subst hji
        rw [setChild_self] at hj
        cases hj
      · rw [setChild_of_ne _ _ hji] at hj
        exact hs.holder j hj
    · by_cases hji : j = i
      · subst hji
        rw [setChild_self]
        exact Or.inr ⟨_, rfl⟩
      · rw [setChild_of_ne _ _ hji]
        exact hs.held j hj
  | release i connfd pc =>
    have hi : (s.child i).holds = true := by rw [pc]; rfl
    refine ⟨fun j hj => ?_, nofun⟩
    by_cases hji : j = i
    · subst hji
      rw [St.release, setChild_self] at hj
      cases hj
    · rw [St.release, setChild_of_ne _ _ hji] at hj
      exact absurd (hs.unique hj hi) hji
  | count i connfd pc =>
    have hs' : Mutex { s with cptr := Function.update s.cptr i (s.cptr i + 1) } :=
      ⟨hs.holder, hs.held⟩
    exact hs'.move (by rw [pc]; rfl) (by rw [pc]; rfl)
  | webChild i connfd pc => exact hs.move (by rw [pc]; rfl) (by rw [pc]; rfl)
  | close i connfd pc => exact hs.move (by rw [pc]; rfl) (by rw [pc]; rfl)
  | stop i why pc =>
    refine hs.move ?_ ?_ <;> revert pc <;> cases s.child i <;>
      simp [Pc.stops, Pc.holds, Pc.living]

theorem Run.mutex (h : Run (Step .serv03 nchildren) start es s) : Mutex s := by
  induction h with
  | nil => exact ⟨nofun, nofun⟩
  | snoc hr he ih => exact he.mutex (Run.books hr) ih

/-! ## an Accept that fails -/

/-- the dead holder stays, and only a failed `Accept` makes one -/
theorem Step.wedged_iff (h : Step .serv03 nchildren s e t) (hb : Books s) (hs : Mutex s) :
    Wedged t ↔ Wedged s ∨ e.isAcceptError = true := by
  -- the steps of a living child that leave the mutex alone
  have hmove {s' : St} {i : Nat} {pc : Pc} (hm : s'.mptr = s.mptr) (hc : s'.child = s.child)
      (hliving : (s.child i).living = true) (hpc : pc.living = true) :
      Wedged (s'.setChild i pc) ↔ Wedged s := by
    constructor
    · rintro ⟨j, why, hj, hdead⟩
      by_cases hji : j = i
      · subst hji
        rw [setChild_self] at hdead
        rw [hdead] at hpc
        cases hpc
      · rw [setChild_of_ne _ _ hji, hc] at hdead
        exact ⟨j, why, hm.symm.trans hj, hdead⟩
    · rintro ⟨j, why, hj, hdead⟩
      have hji : j ≠ i := by
        rintro rfl
        rw [hdead] at hliving
        cases hliving
      refine ⟨j, why, hm.trans hj, ?_⟩
      rw [setChild_of_ne _ _ hji, hc]
      exact hdead
  cases h with
  | fork lt =>
    have hnew := hb.unborn s.forked (Nat.le_refl _)
    refine Iff.trans ?_ (or_iff_left Bool.false_ne_true).symm
    constructor
    · rintro ⟨j, why, hj, hdead⟩
      by_cases hji : j = s.forked
      · subst hji
        rw [setChild_self] at hdead
        cases hdead
      · rw [setChild_of_ne _ _ hji] at hdead
        exact ⟨j, why, hj, hdead⟩
    · rintro ⟨j, why, hj, hdead⟩
      have hji : j ≠ s.forked := by
        rintro rfl
        rw [hnew] at hdead
        cases hdead
      refine ⟨j, why, hj, ?_⟩
      rw [setChild_of_ne _ _ hji]
      exact hdead
  | connect => exact (or_iff_left Bool.false_ne_true).symm
  | abort k lt => exact (or_iff_left Bool.false_ne_true).symm
  | enter i pc ok =>
    have hfree : s.mptr = none := Option.isNone_iff_eq_none.mp ok
    refine iff_of_false ?_ ?_
    · rintro ⟨j, why, hj, hdead⟩
      have hji : j = i := (Option.some.inj hj).symm
      rw [hji, setChild_self] at hdead
      cases hdead
    · rintro (⟨j, why, hj, -⟩ | h)
      · exact absurd (hj.symm.trans hfree) nofun
      · cases h
  | accept i connfd rest pc ready =>
    refine (hmove (i := i) ?_ ?_ ?_ ?_).trans (or_iff_left Bool.false_ne_true).symm
    · rfl
    · rfl
    · rw [pc]; rfl
    · rfl
  | acceptError i pc =>
    refine iff_of_true ⟨i, _, ?_, setChild_self ..⟩ (Or.inr rfl)
    exact hs.holder i (by rw [pc]; rfl)
  | release i connfd pc =>
    have hi : s.mptr = some i := hs.holder i (by rw [pc]; rfl)
    refine iff_of_false (fun ⟨j, why, hj, _⟩ => nomatch hj) ?_
    rintro (⟨j, why, hj, hdead⟩ | h)
    · have hji : j = i := Option.some.inj (hj.symm.trans hi)
      rw [hji, pc] at hdead
      cases hdead
    · cases h
  | count i connfd pc =>
    refine (hmove (i := i) ?_ ?_ ?_ ?_).trans (or_iff_left Bool.false_ne_true).symm
    · rfl
    · rfl
    · rw [pc]; rfl
    · rfl
  | webChild i connfd pc =>
    exact (hmove rfl rfl (by rw [pc]; rfl) rfl).trans (or_iff_left Bool.false_ne_true).symm
  | close i connfd pc =>
    exact (hmove rfl rfl (by rw [pc]; rfl) rfl).trans (or_iff_left Bool.false_ne_true).symm
  | stop i why pc =>
    -- the child that ends does not hold the mutex
    have hfree : s.mptr ≠ some i := by
      intro hm
      rcases hs.held i hm with h | ⟨w, h⟩
      · revert pc h
        cases s.child i <;> simp [Pc.stops, Pc.holds]
      · rw [h] at pc
        cases pc
    refine Iff.trans ?_ (or_iff_left Bool.false_ne_true).symm
    constructor
    · rintro ⟨j, w, hj, hdead⟩
      have hji : j ≠ i := fun h => hfree (h ▸ hj)
      rw [setChild_of_ne _ _ hji] at hdead
      exact ⟨j, w, hj, hdead⟩
    · rintro ⟨j, w, hj, hdead⟩
      have hji : j ≠ i := fun h => hfree (h ▸ hj)
      refine ⟨j, w, hj, ?_⟩
      rw [setChild_of_ne _ _ hji]
      exact hdead

theorem Run.wedged_iff (h : Run (Step .serv03 nchildren) start es s) :
    Wedged s ↔ ∃ i, Event.acceptError i ∈ es := by
  induction h with
  | nil => exact iff_of_false (fun ⟨i, why, hi, _⟩ => nomatch hi) (fun ⟨i, hi⟩ => nomatch hi)
  | @snoc es t e u hr he ih =>
    rw [he.wedged_iff (Run.books hr) (Run.mutex hr), ih]
    constructor
    · rintro (⟨i, hi⟩ | hlast)
      · exact ⟨i, List.mem_append_left _ hi⟩
      · cases e with
        | acceptError i => exact ⟨i, List.mem_append_right _ (List.mem_singleton_self _)⟩
        | _ => cases hlast
    · rintro ⟨i, hi⟩
      rcases List.mem_append.mp hi with hi | hi
      · exact Or.inl ⟨i, hi⟩
      · rw [← List.mem_singleton.mp hi]
        exact Or.inr rfl

/-! ## a connection and a child that wait -/

theorem moves_serv02 (hw : s.Waiting) : s.Moves .serv02 nchildren := by
  obtain ⟨hq, i, hi | hi⟩ := hw
  · refine ⟨.enter i, _, rfl, .enter i hi ?_⟩
    show (!s.queue.isEmpty) = true
    rw [List.isEmpty_eq_false_iff.mpr hq]
    rfl
  · obtain ⟨c, rest, hc⟩ := List.exists_cons_of_ne_nil hq
    exact ⟨.accept i, _, rfl, .accept i c rest hi hc⟩

theorem moves_serv03 (hs : Mutex s) (hwedged : ¬ Wedged s) (hw : s.Waiting) :
    s.Moves .serv03 nchildren := by
  obtain ⟨hq, i, hi⟩ := hw
  obtain ⟨c, rest, hc⟩ := List.exists_cons_of_ne_nil hq
  -- whoever holds the mutex can go on
  have hholder {j : Nat} (hj : (s.child j).holds = true) : s.Moves .serv03 nchildren := by
    cases hpc : s.child j with
    | accept => exact ⟨.accept j, _, rfl, .accept j c rest hpc hc⟩
    | release connfd => exact ⟨.release j, _, rfl, .release j connfd hpc⟩
    | _ =>
      rw [hpc] at hj
      cases hj
  cases hm : s.mptr with
  | some j =>
    rcases hs.held j hm with hj | ⟨why, hdead⟩
    · exact hholder hj
    · exact absurd ⟨j, why, hm, hdead⟩ hwedged
  | none =>
    rcases hi with hi | hi
    · exact ⟨.enter i, _, rfl, .enter i hi (Option.isNone_iff_eq_none.mpr hm)⟩
    · exact hholder (by rw [hi]; rfl)

theorem Wedged.stuck (hs : Mutex s) (hwedged : Wedged s) (hto : e.toAccept = true) :
    ¬ Step .serv03 nchildren s e t := by
  obtain ⟨j, why, hm, hdead⟩ := hwedged
  have hnone {i : Nat} : (s.child i).holds = false := by
    cases hi : (s.child i).holds with
    | false => rfl
    | true =>
      have hij : i = j := Option.some.inj ((hs.holder i hi).symm.trans hm)
      rw [hij, hdead] at hi
      cases hi
  intro h
  cases h with
  | enter i pc ok => exact absurd (hm.symm.trans (Option.isNone_iff_eq_none.mp ok)) nofun
  | accept i connfd rest pc ready => exact absurd hnone (by rw [pc]; decide)
  | release i connfd pc =>
    have hfree := hnone (i := i)
    rw [pc] at hfree
    cases hfree
  | fork | connect | abort | acceptError | count | webChild | close | stop => cases hto

/-- **A connection and a child that wait come together.**  In `serv02` this is always so.  In
`serv03` it is so exactly as long as no child has ended in `Accept`. -/
theorem waiting_moves_iff (h : Run (Step server nchildren) start es s) (hw : s.Waiting) :
    s.Moves server nchildren ↔ server = .serv02 ∨ ∀ i, Event.acceptError i ∉ es := by
  cases server with
  | serv02 => exact iff_of_true (moves_serv02 hw) (Or.inl rfl)
  | serv03 =>
    have hs := Run.mutex h
    have hiff := Run.wedged_iff h
    constructor
    · rintro ⟨e, t, hto, hstep⟩
      refine Or.inr (fun i hi => ?_)
      exact (hiff.mpr ⟨i, hi⟩).stuck hs hto hstep
    · rintro (hserver | hnone)
      · cases hserver
      · exact moves_serv03 hs (fun hwedged => (hiff.mp hwedged).elim hnone) hw

/-- two children of `serv03`, the first of which ends in `Accept` -/
theorem waiting_moves_iff_two : ∃ s, Run (Step .serv03 2) start
    [.fork, .fork, .enter 0, .acceptError 0, .connect] s ∧ ¬ s.Moves .serv03 2 := by
  have h1 : Run (Step .serv03 2) start [.fork] _ := Run.single (.fork (by decide))
  have h := (((h1.snoc (.fork (by decide))).snoc (.enter 0 rfl rfl)).snoc (.acceptError 0 rfl)).snoc
    .connect
  refine ⟨_, h, fun hm => ?_⟩
  rcases (waiting_moves_iff h ⟨by decide, 1, Or.inl rfl⟩).mp hm with hserver | hnone
  · cases hserver
  · exact hnone 0 (by decide)

/-- **One child at a time.**  In `serv03` no two children are between `my_lock_wait` and
`my_lock_release`, and behind an `Accept` that has failed no connection is accepted any more. -/
theorem one_at_accept (h : Run (Step .serv03 nchildren) start es s) :
    (∀ i j, (s.child i).holds = true → (s.child j).holds = true → i = j) ∧
    ∀ i es₁ es₂, es = es₁ ++ .acceptError i :: es₂ → ∀ e ∈ es₂, e.toAccept = false := by
  refine ⟨fun i j => (Run.mutex h).unique, ?_⟩
  induction h with
  | nil =>
    intro i es₁ es₂ hes
    exact absurd hes (by simp)
  | @snoc es t e u hr he ih =>
    intro i es₁ es₂ hes x hx
    rcases List.eq_nil_or_concat es₂ with rfl | ⟨es₃, y, rfl⟩
    · cases hx
    · rw [List.concat_eq_append, ← List.cons_append, ← List.append_assoc] at hes
      obtain ⟨hinit, hlast⟩ := List.append_inj' hes rfl
      rw [List.concat_eq_append] at hx
      rcases List.mem_append.mp hx with hx | hx
      · exact ih i es₁ es₃ hinit x hx
      · rw [List.mem_singleton.mp hx, ← List.singleton_inj.mp hlast]
        have hwedged := (Run.wedged_iff hr).mpr ⟨i, by rw [hinit]; simp⟩
        cases hto : e.toAccept with
        | false => rfl
        | true => exact absurd he (hwedged.stuck (Run.mutex hr) hto)

/-- the mutex is taken twice, one child after the other -/
theorem one_at_accept_two : ∃ s, Run (Step .serv03 2) start
    [.fork, .fork, .connect, .enter 0, .accept 0, .release 0, .enter 1] s ∧
    ∀ i j, (s.child i).holds = true → (s.child j).holds = true → i = j := by
  have h1 : Run (Step .serv03 2) start [.fork] _ := Run.single (.fork (by decide))
  have h := (((((h1.snoc (.fork (by decide))).snoc .connect).snoc (.enter 0 rfl rfl)).snoc
    (.accept 0 0 [] rfl rfl)).snoc (.release 0 0 rfl)).snoc (.enter 1 rfl rfl)
  exact ⟨_, h, (one_at_accept h).1⟩

end Unp.Prefork
