import NetworkProgram.Web.Books

/-!
# Connections that fail

`Law`: a command is written only on an established connection, and a connection that fails costs
only its own file.  The program neither tests the result of the failed `getsockopt` branch nor
survives an error of `connect`, so a step obeys the law exactly if no connection fails in it.
-/

namespace Unp.Web
open Trans

variable {s t : St} {e : Event} {i : Nat}

/-- the connection of file `i` is found to be established -/
def Event.establishes (i : Nat) : Event → Prop
  | .connect j _ none _ => j = i
  | .sockopt j (.stores 0) _ => j = i
  | _ => False

/-- the non-blocking connect of file `i` is found to have failed -/
def Event.connectFails (i : Nat) : Event → Prop
  | .connect j _ (some errno) _ => j = i ∧ errno ≠ EINPROGRESS
  | .sockopt j so _ => j = i ∧ so ≠ .stores 0
  | _ => False

structure Law (s : St) (e : Event) (t : St) : Prop where
  /-- a command goes out, or a file is moved to `F_READING` -/
  established : ∀ i, (t.cmds = s.cmds ++ [i] ∨
    (s.file i).flags ≠ .reading ∧ (t.file i).flags = .reading) → e.establishes i
  /-- no command is written, the process goes on, and the other files are as before -/
  failed : ∀ i, e.connectFails i → t.cmds = s.cmds ∧ (∀ why, t.pc ≠ .stopped why) ∧
    ∀ j ≠ i, t.file j = s.file j

/-- no non-blocking connect fails -/
def NoFailure (_ : St) (e : Event) : Prop := ∀ i, ¬ e.connectFails i

/-! ## what a step writes -/

theorem writeGetCmd_effect (s : St) (i : Nat) (written : Bool) :
    (s.writeGetCmd i written).cmds = s.cmds ++ [i] ∧
      ∀ j ≠ i, (s.writeGetCmd i written).file j = s.file j := by
  cases written with
  | false => exact ⟨rfl, fun _ _ => rfl⟩
  | true => exact ⟨rfl, fun j hj => Function.update_of_ne hj _ _⟩

theorem andThen_effect {f : St → St} (hf : ∀ s, (f s).cmds = s.cmds ∧ (f s).file = s.file) :
    (s.andThen f).cmds = s.cmds ∧ (s.andThen f).file = s.file := by
  unfold St.andThen
  split
  · exact hf s
  · exact ⟨rfl, rfl⟩

theorem connected_effect (s : St) (i : Nat) (so : SoError) (written : Bool) :
    (s.connected i so written).cmds = s.cmds ++ [i] ∧
      ∀ j ≠ i, (s.connected i so written).file j = s.file j := by
  obtain ⟨h1, h2⟩ := writeGetCmd_effect { s with wset := s.wset.erase (s.file i).fd } i written
  obtain ⟨h3, h4⟩ := andThen_effect
    (s := St.writeGetCmd { s with wset := s.wset.erase (s.file i).fd } i written)
    (f := fun s => { s with pc := .scan (i + 1) }) (fun _ => ⟨rfl, rfl⟩)
  exact ⟨h3.trans h1, fun j hj => (congrFun h4 j).trans (h2 j hj)⟩

theorem connect_done_effect (s : St) (i : Nat) (fd : Int) (written : Bool) :
    (s.connect i fd none written).cmds = s.cmds ++ [i] ∧
      ∀ j ≠ i, (s.connect i fd none written).file j = s.file j := by
  obtain ⟨h1, h2⟩ := writeGetCmd_effect
    (St.setFile { s with opened := insert fd s.opened } i ⟨fd, (s.file i).flags⟩) i written
  obtain ⟨h3, h4⟩ := andThen_effect (s := s.startConnect i fd none written) (f := fun s =>
    { s with nconn := s.nconn + 1, nlefttoconn := s.nlefttoconn - 1 }) (fun _ => ⟨rfl, rfl⟩)
  refine ⟨h3.trans h1, fun j hj => (congrFun h4 j).trans ((h2 j hj).trans ?_)⟩
  exact Function.update_of_ne hj _ _

theorem connect_progress_effect (s : St) (i : Nat) (fd : Int) (written : Bool) :
    (s.connect i fd (some EINPROGRESS) written).cmds = s.cmds ∧
      (s.connect i fd (some EINPROGRESS) written).file =
        Function.update s.file i ⟨fd, .connecting⟩ := by
  obtain ⟨h3, h4⟩ := andThen_effect (s := s.startConnect i fd (some EINPROGRESS) written)
    (f := fun s => { s with nconn := s.nconn + 1, nlefttoconn := s.nlefttoconn - 1 })
    (fun _ => ⟨rfl, rfl⟩)
  rw [startConnect_progress] at h3 h4
  unfold St.connect
  rw [startConnect_progress]
  exact ⟨h3, h4⟩

theorem connect_error (s : St) (i : Nat) (fd : Int) {errno : Errno} (h : errno ≠ EINPROGRESS)
    (written : Bool) :
    (s.connect i fd (some errno) written).pc = .stopped (.errSys "nonblocking connect error") := by
  have hstop := startConnect_error s i fd h written
  unfold St.connect
  rw [andThen_stopped hstop]
  exact hstop

/-- a file that is not moved to `F_READING` -/
theorem not_reading_update (s : St) (i : Nat) {f : File} (hf : f.flags ≠ .reading) :
    ∀ j, (s.file j).flags ≠ .reading → (Function.update s.file i f j).flags ≠ .reading :=
  (Function.forall_update_iff s.file
    (fun j f => (s.file j).flags ≠ .reading → f.flags ≠ .reading)).mpr ⟨fun _ => hf, fun _ _ h => h⟩

theorem read_effect (s : St) (i : Nat) (r : ReadRes UInt8 MAXLINE) :
    (s.read i r).cmds = s.cmds ∧ ∀ j, (s.file j).flags ≠ .reading →
      ((s.read i r).file j).flags ≠ .reading := by
  unfold St.read
  dsimp only
  split
  · exact ⟨rfl, fun _ h => h⟩
  · split
    · exact ⟨rfl, not_reading_update s i Flags.noConfusion⟩
    · exact ⟨rfl, fun _ h => h⟩

/-! ## the law -/

/-- a step that writes no command and moves no file to `F_READING` -/
theorem law_of_quiet (hno : NoFailure s e) (hcmds : t.cmds = s.cmds)
    (hflags : ∀ j, (s.file j).flags ≠ .reading → (t.file j).flags ≠ .reading) : Law s e t where
  established := by
    rintro k (h | ⟨h1, h2⟩)
    · rw [hcmds] at h
      exact absurd h.symm (by simp)
    · exact absurd h2 (hflags k h1)
  failed k hk := absurd hk (hno k)

/-- a step that writes the command of file `i`, whose connection is established -/
theorem law_of_command (hno : NoFailure s e) (he : e.establishes i) (hcmds : t.cmds = s.cmds ++ [i])
    (hfile : ∀ j ≠ i, t.file j = s.file j) : Law s e t where
  established := by
    rintro k (h | ⟨h1, h2⟩)
    · rw [hcmds] at h
      obtain rfl := List.singleton_inj.mp (List.append_cancel_left h)
      exact he
    · by_cases hk : k = i
      · exact hk ▸ he
      · rw [hfile k hk] at h2
        exact absurd h2 h1
  failed k hk := absurd hk (hno k)

theorem law_step (hs : Step s e t) : Law s e t ↔ NoFailure s e := by
  constructor
  · intro h k hk
    obtain ⟨hcmds, halive, _⟩ := h.failed k hk
    cases hs with
    | connect i fd ans written pc opens found nonneg unused =>
      cases ans with
      | some errno => exact halive _ (connect_error s i fd hk.2 written)
      | none => exact hk
    | sockopt i so written pc lt ready =>
      rw [(connected_effect s i so written).1] at hcmds
      exact absurd hcmds (by simp)
    | _ => exact hk
  · intro hno
    cases hs with
    | connect i fd ans written pc opens found nonneg unused =>
      cases ans with
      | some errno =>
        obtain rfl : errno = EINPROGRESS := by
          by_contra herr
          exact hno i ⟨rfl, herr⟩
        obtain ⟨hcmds, hfile⟩ := connect_progress_effect s i fd written
        refine law_of_quiet hno hcmds ?_
        rw [hfile]
        exact not_reading_update s i Flags.noConfusion
      | none =>
        obtain ⟨hcmds, hfile⟩ := connect_done_effect s i fd written
        exact law_of_command hno rfl hcmds hfile
    | sockopt i so written pc lt ready =>
      obtain rfl : so = .stores 0 := by
        by_contra hso
        exact hno i ⟨rfl, hso⟩
      obtain ⟨hcmds, hfile⟩ := connected_effect s i (.stores 0) written
      exact law_of_command hno rfl hcmds hfile
    | read i r pc lt ready =>
      obtain ⟨hcmds, hflags⟩ := read_effect s i r
      exact law_of_quiet hno hcmds hflags
    | _ => exact law_of_quiet hno rfl (fun _ h => h)

/-- **Failed connections.**  A run obeys the law exactly as long as no non-blocking connect
fails. -/
theorem law_iff (nfiles : Nat) (maxnconn : Int) (mem : Nat → Int) (inherited : Finset Int)
    (es : List Event) (s : St) :
    Run (Obey Law Step) (start nfiles maxnconn mem inherited) es s ↔
      Run (When NoFailure Step) (start nfiles maxnconn mem inherited) es s :=
  Run.obey_iff_when (fun _ => True) trivial (fun _ _ _ _ hs => law_step hs)
    (fun _ _ _ _ _ => trivial)

/-- two files, and the server refuses the first connection, where the command is not written either -/
theorem not_law : ¬ ∀ nfiles maxnconn mem inherited es s,
    Run Step (start nfiles maxnconn mem inherited) es s → ∀ e t, Step s e t → Law s e t := by
  intro h
  have h1 := Run.single (Step.head (s := start 2 1 (fun _ => 0) {0, 1, 2}) rfl)
  have h2 := h1.snoc (Step.connect 0 3 (some EINPROGRESS) true rfl ⟨by decide, by decide⟩ rfl
    (by decide) (by decide))
  have h3 := h2.snoc (Step.select {3} {3} rfl (fun h => absurd h.1 (by decide)) (by decide) (by decide))
  have hlaw := h _ _ _ _ _ _ h3 _ _
    (Step.sockopt 0 (.stores ECONNREFUSED) false rfl (by decide) ⟨rfl, by decide⟩)
  exact (law_step (Step.sockopt 0 (.stores ECONNREFUSED) false rfl (by decide) ⟨rfl, by decide⟩)).mp
    hlaw 0 ⟨rfl, by decide⟩

end Unp.Web
