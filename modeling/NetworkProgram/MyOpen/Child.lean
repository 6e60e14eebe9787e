import NetworkProgram.MyOpen.Impl

/-!
# The child of `my_open`

How it ends and what it has sent, for every answer of the kernel, from the table it is forked with.

* `child_execl`, `child_err`, `child_succeed`   by the first call that fails;
* `passes_of_fits`, `passes_of_cut`             what comes to the parent's end of the pair.
-/

namespace Unp.MyOpen

/-! ## the outcome -/

/-- the first answer that is not `ok` -/
def Answers.result (a : Answers) : Answer :=
  match a.execl with
  | .ok =>
    match a.open with
    | .ok => a.writeFd
    | r => r
  | r => r

/-- `openfile` runs, and its `open` and its `write_fd` succeed -/
def Answers.Succeed (a : Answers) : Prop := a.execl = .ok ∧ a.open = .ok ∧ a.writeFd = .ok

def Answers.Killed (a : Answers) : Prop :=
  (∃ sig, a.last = some sig) ∨ ∃ sig, a.result = .killed sig

variable {ω : Type} {before : Nat → Option ω} {pathname : List UInt8} {mode : Int32} {a : Answers}
  {num : Numbers before} {t : Table ω} {n fd sockfd sig : Nat} {file : File ω} {e : Errno}

theorem Answers.result_ok_iff : a.result = .ok ↔ a.Succeed := by
  unfold Answers.result Answers.Succeed
  cases hexecl : a.execl <;> cases hopen : a.open <;> simp

/-! ## tables -/

@[simp] theorem Table.set_self (t : Table ω) (fd : Nat) (file : Option (File ω)) :
    t.set fd file fd = file := Function.update_self ..

theorem Table.set_of_ne (h : n ≠ fd) (t : Table ω) (file : Option (File ω)) :
    t.set fd file n = t n := Function.update_of_ne h ..

theorem Table.set_comm (h : n ≠ fd) (t : Table ω) (f g : Option (File ω)) :
    (t.set n f).set fd g = (t.set fd g).set n f := Function.update_comm h ..

theorem Table.close_of_some (h : t fd = some file) : t.close fd = .ok (t.set fd none) := by
  simp [Table.close, h]

theorem inherited_of_none (h : before fd = none) : inherited before fd = none := by
  simp [inherited, h]

theorem inherited_ne (before : Nat → Option ω) (n : Nat) :
    inherited before n ≠ some .childEnd ∧ ∀ p m, inherited before n ≠ some (.opened p m) := by
  unfold inherited
  cases before n <;> simp

/-- `Close(sockfd[1])` in the parent -/
theorem close_childEnd (num : Numbers before) :
    ((inherited before).socketpair num.sockfd).close num.sockfd.2 =
      .ok ((inherited before).set num.sockfd.1 (some .parentEnd)) := by
  unfold Table.socketpair
  rw [Table.close_of_some (Table.set_self ..)]
  congr 1
  funext n
  by_cases h : n = num.sockfd.2
  · rw [h, Table.set_self, Table.set_of_ne num.ne.symm, inherited_of_none num.unused.2]
  · rw [Table.set_of_ne h, Table.set_of_ne h]

/-- what the parent has left when it closes `sockfd[0]` -/
theorem set_parentEnd (h : before sockfd = none) :
    ((inherited before).set sockfd (some .parentEnd)).set sockfd none = inherited before := by
  funext n
  by_cases hn : n = sockfd
  · rw [hn, Table.set_self, inherited_of_none h]
  · rw [Table.set_of_ne hn, Table.set_of_ne hn]

/-- what is open in the child from `execl` on -/
def childTable (num : Numbers before) : Table ω :=
  ((inherited before).socketpair num.sockfd).set num.sockfd.1 none

theorem close_parentEnd (num : Numbers before) :
    ((inherited before).socketpair num.sockfd).close num.sockfd.1 = .ok (childTable num) := by
  have hopen : (inherited before).socketpair num.sockfd num.sockfd.1 = some .parentEnd := by
    rw [Table.socketpair, Table.set_of_ne num.ne, Table.set_self]
  exact Table.close_of_some hopen

/-- only `sockfd[1]` is the child's end -/
theorem childTable_iff (num : Numbers before) (p : List UInt8) (m : Int32) (n : Nat) :
    (childTable num).set num.opened (some (.opened p m)) n = some .childEnd ↔ n = num.sockfd.2 := by
  by_cases hopened : n = num.opened
  · have hne := num.opened_unused.2
    rw [hopened, Table.set_self]
    simp [hne]
  rw [Table.set_of_ne hopened, childTable]
  by_cases h1 : n = num.sockfd.1
  · have hne := num.ne
    rw [h1, Table.set_self]
    simp [hne]
  rw [Table.set_of_ne h1, Table.socketpair]
  by_cases h2 : n = num.sockfd.2
  · simp [h2]
  · rw [Table.set_of_ne h2, Table.set_of_ne h1]
    simp [h2, (inherited_ne before n).1]

theorem childTable_at (num : Numbers before) (p : List UInt8) (m fd : Int32) :
    ((childTable num).set num.opened (some (.opened p m))).at fd = some .childEnd ↔
      fd.toInt = num.sockfd.2 := by
  have hint : fd < 0 ↔ fd.toInt < 0 := Int32.lt_iff_toInt_lt
  unfold Table.at
  split
  · rename_i h
    have hneg := hint.mp h
    simp only [reduceCtorEq, false_iff]
    omega
  · rename_i h
    have hpos := mt hint.mpr h
    rw [childTable_iff]
    omega

/-! ## the child -/

/-- the open file that the child passes -/
def passes (num : Numbers before) (pathname : List UInt8) (mode : Int32) :
    Option (Cmsg (File ω)) :=
  writeFd ((childTable num).set num.opened
      (some (.opened pathname (strtol (snprintf argSize (fmtD mode))))))
    (strtol (snprintf argSize (fmtD (Int32.ofNat num.sockfd.2)))) num.opened

theorem passes_of_fits (h : num.sockfd.2 < 1000000000) :
    passes num pathname mode = some ⟨true, SOL_SOCKET, SCM_RIGHTS,
      ⟨num.opened, .opened pathname (strtol (snprintf argSize (fmtD mode)))⟩⟩ := by
  have hint : (Int32.ofNat num.sockfd.2).toInt = num.sockfd.2 :=
    Int32.toInt_ofNat_of_lt num.int.2
  have hback := (strtol_snprintf (Int32.ofNat num.sockfd.2)).mpr (by omega)
  have hat := (childTable_at num pathname (strtol (snprintf argSize (fmtD mode)))
    (Int32.ofNat num.sockfd.2)).mpr hint
  unfold passes argSize at *
  rw [hback]
  simp [writeFd, hat]

theorem passes_of_cut (h : ¬ num.sockfd.2 < 1000000000) : passes num pathname mode = none := by
  have hint : (Int32.ofNat num.sockfd.2).toInt = num.sockfd.2 :=
    Int32.toInt_ofNat_of_lt num.int.2
  have hcut := mt (strtol_snprintf (Int32.ofNat num.sockfd.2)).mp (by omega)
  rw [← Int32.toInt_inj, hint] at hcut
  have hat := mt (childTable_at num pathname (strtol (snprintf argSize (fmtD mode)))
    (strtol (snprintf argSize (fmtD (Int32.ofNat num.sockfd.2))))).mp hcut
  unfold passes writeFd
  split
  · rename_i heq _
    exact absurd heq hat
  · rfl

/-- the process of the child, from `Fork` on -/
abbrev childOf (num : Numbers before) (pathname : List UInt8) (mode : Int32) (a : Answers) :
    End × Option (Cmsg (File ω)) :=
  child pathname mode num.sockfd a num.opened ((inherited before).socketpair num.sockfd)

variable (pathname mode num)

theorem child_execl (h : a.execl = .err e) :
    childOf num pathname mode a = (.stopped (.errSys "execl error"), none) := by
  simp [childOf, child, close_parentEnd, h]

theorem child_openfile (h : a.execl = .ok) :
    childOf num pathname mode a =
      openfile ["openfile".toUTF8.toList, snprintf argSize (fmtD (Int32.ofNat num.sockfd.2)),
        pathname, snprintf argSize (fmtD mode)] a num.opened (childTable num) := by
  simp [childOf, child, close_parentEnd, h]

theorem child_err (hexecl : a.execl = .ok) (h : a.result = .err e) :
    childOf num pathname mode a = (.exit (exitCode e), none) := by
  rw [child_openfile pathname mode num hexecl]
  cases hopen : a.open with
  | ok =>
    have hwrite : a.writeFd = .err e := by simpa [Answers.result, hexecl, hopen] using h
    simp [openfile, hopen, hwrite]
  | err e' =>
    have he : e' = e := by simpa [Answers.result, hexecl, hopen] using h
    simp [openfile, hopen, he]
  | killed sig => simp [Answers.result, hexecl, hopen] at h

theorem child_succeed (h : a.Succeed) :
    childOf num pathname mode a = (.exit 0, passes num pathname mode) := by
  obtain ⟨hexecl, hopen, hwrite⟩ := h
  rw [child_openfile pathname mode num hexecl]
  simp [openfile, hopen, hwrite, passes]

theorem status_succeed (h : a.Succeed) : (childOf num pathname mode a).1.status = .exited 0 := by
  rw [child_succeed pathname mode num h]
  rfl

theorem sent_succeed (h : a.Succeed) :
    (childOf num pathname mode a).2 = passes num pathname mode := by
  rw [child_succeed pathname mode num h]

theorem child_killed (h : a.result = .killed sig) :
    (childOf num pathname mode a).1 = .killed sig := by
  cases hexecl : a.execl with
  | ok =>
    rw [child_openfile pathname mode num hexecl]
    cases hopen : a.open with
    | ok =>
      have hwrite : a.writeFd = .killed sig := by simpa [Answers.result, hexecl, hopen] using h
      simp [openfile, hopen, hwrite]
    | err e => simp [Answers.result, hexecl, hopen] at h
    | killed sig' =>
      have hsig : sig' = sig := by simpa [Answers.result, hexecl, hopen] using h
      simp [openfile, hopen, hsig]
  | err e => simp [Answers.result, hexecl] at h
  | killed sig' =>
    have hsig : sig' = sig := by simpa [Answers.result, hexecl] using h
    simp [childOf, child, close_parentEnd, hexecl, hsig]

end Unp.MyOpen
