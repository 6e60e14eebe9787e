import NetworkProgram.MyOpen.Child

/-!
# What `my_open` returns

`Right before pathname mode a r` says that a call may return `r` when the kernel answers `a`.

* `myOpen_killed`, `myOpen_failed`, `myOpen_lost`, `myOpen_passed`   the ways a call ends;
* `right_iff`                                                       which calls are right.
-/

namespace Unp.MyOpen

variable {ω : Type}

/-- a new descriptor, for the file opened with `mode` -/
def Gives (before : Nat → Option ω) (pathname : List UInt8) (mode : Int32)
    (r : Except Stop (Returned ω)) : Prop :=
  ∃ (ret : Returned ω) (fd : Nat), r = .ok ret ∧ ret.fd = fd ∧ before fd = none ∧
    ret.table fd = some (.opened pathname mode)

/-- -1, with `errno` -/
def Fails (errno : Errno) (r : Except Stop (Returned ω)) : Prop :=
  ∃ ret : Returned ω, r = .ok ret ∧ ret.fd = -1 ∧ ret.errno = errno

structure Right (before : Nat → Option ω) (pathname : List UInt8) (mode : Int32) (a : Answers)
    (r : Except Stop (Returned ω)) : Prop where
  killed : a.Killed → r = .error (.errQuit "child did not terminate" [])
  gives : ¬ a.Killed → (Gives before pathname mode r ↔ a.Succeed)
  fails : ¬ a.Killed → ¬ a.Succeed → ∃ errno, a.result = .err errno ∧ Fails errno r
  table : ∀ ret, r = .ok ret → ∀ fd : Nat, (fd : Int) ≠ ret.fd → ret.table fd = inherited before fd

/-- when a child that is not killed gets its arguments and its failures across -/
def Across (mode : Int32) (a : Answers) (sockfd : Nat) : Prop :=
  ¬ a.Killed →
    (∀ errno, a.execl = .err errno → errno = 1) ∧
    (∀ errno, a.execl = .ok → a.result = .err errno → 0 < errno ∧ errno < 256) ∧
    (a.Succeed → sockfd < 1000000000 ∧ -100000000 < mode.toInt ∧ mode.toInt < 1000000000)

variable {before : Nat → Option ω} {pathname : List UInt8} {mode : Int32} {a : Answers}
  {num : Numbers before} {passed : Nat} {file : File ω} {errno e : Errno}
  {left : Option (Passed (File ω))}

/-! ## the parent -/

theorem myOpen_eq (num : Numbers before) :
    myOpen before pathname mode a num errno left =
      reap (a.finish (childOf num pathname mode a).1).status (childOf num pathname mode a).2
        num.sockfd.1 num.passed errno left
        ((inherited before).set num.sockfd.1 (some .parentEnd)) := by
  unfold myOpen
  dsimp only
  rw [close_childEnd]
  rfl

theorem close_left (num : Numbers before) :
    ((inherited before).set num.sockfd.1 (some .parentEnd)).close num.sockfd.1 =
      .ok (inherited before) := by
  rw [Table.close_of_some (Table.set_self ..), set_parentEnd num.unused.1]

theorem myOpen_killed (h : a.Killed) :
    myOpen before pathname mode a num errno left =
      .error (.errQuit "child did not terminate" []) := by
  rw [myOpen_eq]
  obtain ⟨sig, hlast⟩ | ⟨sig, hres⟩ := h
  · simp [Answers.finish, hlast, End.status, reap]
  · rw [child_killed pathname mode num hres]
    cases hlast : a.last <;> simp [Answers.finish, hlast, End.status, reap]

theorem Answers.finish_of_not_killed (h : ¬ a.Killed) (e : End) : a.finish e = e := by
  cases hlast : a.last with
  | none => simp [Answers.finish, hlast]
  | some sig => exact absurd (Or.inl ⟨sig, hlast⟩) h

/-- the child reports a failure -/
theorem myOpen_failed {code : Nat} (h : ¬ a.Killed) (hcode : code ≠ 0)
    (hstatus : (childOf num pathname mode a).1.status = .exited code) :
    myOpen before pathname mode a num errno left = .ok ⟨-1, code, inherited before⟩ := by
  obtain ⟨code, rfl⟩ := Nat.exists_eq_succ_of_ne_zero hcode
  rw [myOpen_eq, Answers.finish_of_not_killed h, hstatus]
  unfold reap
  dsimp only
  rw [close_left]
  rfl

/-- the child reports success, and nothing has come: what stands in `fd` is returned -/
theorem myOpen_lost (h : ¬ a.Killed)
    (hstatus : (childOf num pathname mode a).1.status = .exited 0)
    (hsent : (childOf num pathname mode a).2 = none) :
    myOpen before pathname mode a num errno left = .ok ⟨number left, errno, inherited before⟩ := by
  rw [myOpen_eq, Answers.finish_of_not_killed h, hstatus, hsent]
  show (Table.close _ num.sockfd.1).bind _ = _
  rw [close_left]
  rfl

theorem close_passed (num : Numbers before) (file : File ω) :
    (((inherited before).set num.sockfd.1 (some .parentEnd)).set num.passed (some file)).close
      num.sockfd.1 = .ok ((inherited before).set num.passed (some file)) := by
  have hne := num.passed_unused.2
  have hopen : ((inherited before).set num.sockfd.1 (some .parentEnd)).set num.passed (some file)
      num.sockfd.1 = some .parentEnd := by rw [Table.set_of_ne hne.symm, Table.set_self]
  rw [Table.close_of_some hopen, Table.set_comm hne, set_parentEnd num.unused.1]

/-- a descriptor has come -/
theorem myOpen_passed {k : Nat} (h : ¬ a.Killed)
    (hstatus : (childOf num pathname mode a).1.status = .exited 0)
    (hsent : (childOf num pathname mode a).2 = some ⟨true, SOL_SOCKET, SCM_RIGHTS, ⟨k, file⟩⟩) :
    myOpen before pathname mode a num errno left =
      .ok ⟨num.passed, errno, (inherited before).set num.passed (some file)⟩ := by
  rw [myOpen_eq, Answers.finish_of_not_killed h, hstatus, hsent]
  show (Table.close _ num.sockfd.1).bind _ = _
  rw [close_passed]
  rfl

/-! ## which calls are right -/

variable {ret : Returned ω} {code : Nat} {oflag : Int32}

@[simp] theorem gives_ok : Gives before pathname mode (.ok ret) ↔
    ∃ fd : Nat, ret.fd = fd ∧ before fd = none ∧ ret.table fd = some (.opened pathname mode) := by
  simp [Gives]

@[simp] theorem fails_ok : Fails e (.ok ret) ↔ ret.fd = -1 ∧ ret.errno = e := by
  simp [Fails]

theorem not_gives (h : ret.table = inherited before) : ¬ Gives before pathname mode (.ok ret) := by
  rw [gives_ok]
  rintro ⟨fd, -, -, hfile⟩
  rw [h] at hfile
  exact (inherited_ne before fd).2 _ _ hfile

theorem Answers.not_succeed (h : a.result = .err e) : ¬ a.Succeed := by
  rw [← Answers.result_ok_iff, h]
  simp

theorem right_killed (hk : a.Killed) :
    Right before pathname mode a (.error (.errQuit "child did not terminate" [])) where
  killed _ := rfl
  gives hnot := absurd hk hnot
  fails hnot := absurd hk hnot
  table _ hret := by cases hret

/-- a failure is reported rightly if its number is the right one -/
theorem right_failed (hk : ¬ a.Killed) (h : a.result = .err e) :
    Right before pathname mode a (.ok ⟨-1, code, inherited before⟩) ↔ code = e := by
  have hns := Answers.not_succeed h
  constructor
  · intro hright
    obtain ⟨e', hres, hfails⟩ := hright.fails hk hns
    rw [h, Answer.err.injEq] at hres
    rw [hres]
    exact (fails_ok.mp hfails).2
  · rintro rfl
    exact
      { killed := fun hkilled => absurd hkilled hk
        gives := fun _ => iff_of_false (not_gives rfl) hns
        fails := fun _ _ => ⟨code, h, fails_ok.mpr ⟨rfl, rfl⟩⟩
        table := fun ret hret fd _ => by rw [← Except.ok.inj hret] }

/-- what is returned is neither a new descriptor nor -1 -/
theorem not_right_of_ne (hk : ¬ a.Killed) (hne : ret.fd ≠ -1) (h : ret.table = inherited before) :
    ¬ Right before pathname mode a (.ok ret) := by
  intro hright
  by_cases hs : a.Succeed
  · exact not_gives h ((hright.gives hk).mpr hs)
  · obtain ⟨e', -, hfails⟩ := hright.fails hk hs
    exact hne (fails_ok.mp hfails).1

/-- `fd` has not been set, and may be anything -/
theorem not_right_lost (hk : ¬ a.Killed)
    (hstatus : (childOf num pathname mode a).1.status = .exited 0)
    (hsent : (childOf num pathname mode a).2 = none) :
    ¬ ∀ errno left, Right before pathname mode a (myOpen before pathname mode a num errno left) := by
  intro hright
  have hlost := hright 0 (some ⟨0, .parentEnd⟩)
  rw [myOpen_lost hk hstatus hsent] at hlost
  exact not_right_of_ne hk (by simp [number]) rfl hlost

/-- a descriptor is right if the file has been opened with the mode that was asked for -/
theorem right_passed (hk : ¬ a.Killed) (hs : a.Succeed) (hnew : before passed = none) :
    Right before pathname mode a
      (.ok ⟨passed, errno, (inherited before).set passed (some (.opened pathname oflag))⟩) ↔
        oflag = mode := by
  constructor
  · intro hright
    obtain ⟨fd, hfd, -, hfile⟩ := gives_ok.mp ((hright.gives hk).mpr hs)
    have heq : passed = fd := Int.natCast_inj.mp hfd
    simpa [← heq] using hfile
  · rintro rfl
    exact
      { killed := fun hkilled => absurd hkilled hk
        gives := fun _ => iff_of_true (gives_ok.mpr ⟨passed, rfl, hnew, Table.set_self ..⟩) hs
        fails := fun _ hns => absurd hs hns
        table := fun ret hret fd hfd => by
          rw [← Except.ok.inj hret] at hfd ⊢
          exact Table.set_of_ne (fun heq => hfd (congrArg Nat.cast heq)) .. }

/-- `err_sys` exits with 1, whatever the reason is -/
theorem right_execl (hk : ¬ a.Killed) (h : a.execl = .err e) (num : Numbers before) :
    Right before pathname mode a (myOpen before pathname mode a num errno left) ↔ e = 1 := by
  have hres : a.result = .err e := by simp [Answers.result, h]
  have hstatus : (childOf num pathname mode a).1.status = .exited 1 := by
    rw [child_execl pathname mode num h]
    rfl
  rw [myOpen_failed hk one_ne_zero hstatus, right_failed hk hres]
  exact eq_comm

theorem exitCode_mod (e : Nat) : exitCode e % 256 = e ↔ 0 < e ∧ e < 256 := by
  by_cases h : 0 < e
  · rw [exitCode, if_pos h]
    omega
  · rw [exitCode, if_neg h]
    omega

/-- the status has 8 bits of `errno`; 0 of them stands for success -/
theorem right_openfile (hk : ¬ a.Killed) (hexecl : a.execl = .ok) (h : a.result = .err e)
    (num : Numbers before) :
    (∀ errno left, Right before pathname mode a (myOpen before pathname mode a num errno left)) ↔
      0 < e ∧ e < 256 := by
  have hchild := child_err pathname mode num hexecl h
  have hstatus : (childOf num pathname mode a).1.status = .exited (exitCode e % 256) := by
    rw [hchild]
    rfl
  by_cases hcode : exitCode e % 256 = 0
  · have hsent : (childOf num pathname mode a).2 = none := by rw [hchild]
    rw [hcode] at hstatus
    refine iff_of_false (not_right_lost hk hstatus hsent) (fun he => ?_)
    have hmod := (exitCode_mod e).mpr he
    rw [hcode] at hmod
    exact he.1.ne hmod
  · have hright (errno : Errno) (left : Option (Passed (File ω))) :
        Right before pathname mode a (myOpen before pathname mode a num errno left) ↔
          exitCode e % 256 = e := by
      rw [myOpen_failed hk hcode hstatus]
      exact right_failed hk h
    rw [← exitCode_mod]
    exact ⟨fun h => (hright 0 none).mp (h 0 none), fun he errno left => (hright errno left).mpr he⟩

/-- nine characters of the mode come to `open` -/
theorem right_of_sockfd (hk : ¬ a.Killed) (hs : a.Succeed) (num : Numbers before)
    (hfits : num.sockfd.2 < 1000000000) :
    Right before pathname mode a (myOpen before pathname mode a num errno left) ↔
      strtol (snprintf argSize (fmtD mode)) = mode := by
  have hsent := (sent_succeed pathname mode num hs).trans (passes_of_fits hfits)
  rw [myOpen_passed hk (status_succeed pathname mode num hs) hsent]
  exact right_passed hk hs num.passed_unused.1

theorem right_succeed (hk : ¬ a.Killed) (hs : a.Succeed) (num : Numbers before) :
    (∀ errno left, Right before pathname mode a (myOpen before pathname mode a num errno left)) ↔
      num.sockfd.2 < 1000000000 ∧ -100000000 < mode.toInt ∧ mode.toInt < 1000000000 := by
  by_cases hfits : num.sockfd.2 < 1000000000
  · rw [← strtol_snprintf, and_iff_right hfits]
    exact ⟨fun h => (right_of_sockfd hk hs num hfits).mp (h 0 none),
      fun h errno left => (right_of_sockfd hk hs num hfits).mpr h⟩
  · have hsent := (sent_succeed pathname mode num hs).trans (passes_of_cut hfits)
    exact iff_of_false (not_right_lost hk (status_succeed pathname mode num hs) hsent)
      (fun h => hfits h.1)

/-- **Which calls are right:** those in which `execl` does not fail but with 1, a failure of
`openfile` fits into its status, and of its arguments nothing has been cut off. -/
theorem right_iff (before : Nat → Option ω) (pathname : List UInt8) (mode : Int32) (a : Answers)
    (num : Numbers before) :
    (∀ errno left, Right before pathname mode a (myOpen before pathname mode a num errno left)) ↔
      Across mode a num.sockfd.2 := by
  by_cases hk : a.Killed
  · refine iff_of_true (fun errno left => ?_) (fun hnot => absurd hk hnot)
    rw [myOpen_killed hk]
    exact right_killed hk
  cases hres : a.result with
  | ok =>
    have hs := Answers.result_ok_iff.mp hres
    rw [right_succeed hk hs]
    unfold Across
    simp [hk, hs, hs.1, hres]
  | err e =>
    have hns := Answers.not_succeed hres
    cases hexecl : a.execl with
    | ok =>
      rw [right_openfile hk hexecl hres]
      simp [Across, hk, hns, hexecl, hres]
    | err e' =>
      have hright (errno : Errno) (left : Option (Passed (File ω))) :
          Right before pathname mode a (myOpen before pathname mode a num errno left) ↔ e' = 1 :=
        right_execl hk hexecl num
      simp [hright, Across, hk, hns, hexecl]
    | killed sig => simp [Answers.result, hexecl] at hres
  | killed sig => exact absurd (Or.inr ⟨sig, hres⟩) hk

/-! ## calls that are not right -/

/-- descriptors 0 to 2 are in use -/
def stdio (fd : Nat) : Option Unit := if fd < 3 then some () else none

def lowest : Numbers stdio where
  sockfd := (3, 4)
  ne := by decide
  unused := by decide
  int := by decide
  opened := 3
  opened_unused := by decide
  passed := 4
  passed_unused := by decide

/-- there is no `openfile` (2 is `ENOENT`), and a mode of ten digits -/
theorem not_right :
    ¬ Right stdio [102] 0 ⟨.err 2, .ok, .ok, none⟩
      (myOpen stdio [102] 0 ⟨.err 2, .ok, .ok, none⟩ lowest 0 none) ∧
    ¬ Right stdio [102] 1000000000 ⟨.ok, .ok, .ok, none⟩
      (myOpen stdio [102] 1000000000 ⟨.ok, .ok, .ok, none⟩ lowest 0 none) := by
  constructor
  · intro hright
    have hk : ¬ (⟨.err 2, .ok, .ok, none⟩ : Answers).Killed := by
      simp [Answers.Killed, Answers.result]
    have hexecl := (right_execl hk rfl lowest).mp hright
    exact absurd hexecl (by decide)
  · intro hright
    have hk : ¬ (⟨.ok, .ok, .ok, none⟩ : Answers).Killed := by
      simp [Answers.Killed, Answers.result]
    have hs : (⟨.ok, .ok, .ok, none⟩ : Answers).Succeed := ⟨rfl, rfl, rfl⟩
    have hmode := (right_of_sockfd hk hs lowest (by decide)).mp hright
    exact absurd (strtol_snprintf _ |>.mp hmode) (by decide)

end Unp.MyOpen
