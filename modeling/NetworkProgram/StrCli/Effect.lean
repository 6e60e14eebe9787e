import Mathlib.Logic.Relation
import NetworkProgram.StrCli.Impl

/-!
# What one iteration of `str_cli` can do

`Eff s s'` lists the effects of the four branches, each with the conditions under which the loop
reaches it; `iter_eff`: an iteration is a chain of effects, whether it goes on to the next loop
head, returns or ends the process.  Every invariant of the loop is proved on `Eff`.
-/

namespace Unp.StrCli

inductive Eff (s : St) : St → Prop where
  | select : Eff s (s.log (.select (readSet s) (writeSet s)))
  | readErr (d : Desc) (len : Nat) (e : Errno) (h : 0 < len) : Eff s (s.log (.read d len (.err e)))
  /-- EOF on stdin with an empty buffer: the FIN goes out at once -/
  | eofShut (heof : s.stdineof = false) (hlt : s.toBuf.iptr < MAXLINE)
      (hempty : s.toBuf.optr = s.toBuf.iptr) :
      Eff s (St.log { s.log (.read .stdin (MAXLINE - s.toBuf.iptr) .eof) with stdineof := true }
        .shutdown)
  | eof (heof : s.stdineof = false) (hlt : s.toBuf.iptr < MAXLINE)
      (hne : s.toBuf.optr ≠ s.toBuf.iptr) :
      Eff s { s.log (.read .stdin (MAXLINE - s.toBuf.iptr) .eof) with stdineof := true }
  | stdinData (heof : s.stdineof = false) (bs : List UInt8) (pos : 0 < bs.length)
      (le : bs.length ≤ MAXLINE - s.toBuf.iptr) :
      Eff s { s.log (.read .stdin (MAXLINE - s.toBuf.iptr) (.data bs pos le)) with
        toBuf := s.toBuf.fill bs }
  | sockEof (hlt : s.frBuf.iptr < MAXLINE) :
      Eff s (s.log (.read .sock (MAXLINE - s.frBuf.iptr) .eof))
  | sockData (bs : List UInt8) (pos : 0 < bs.length) (le : bs.length ≤ MAXLINE - s.frBuf.iptr) :
      Eff s { s.log (.read .sock (MAXLINE - s.frBuf.iptr) (.data bs pos le)) with
        frBuf := s.frBuf.fill bs }
  | writeErr (d : Desc) (bs : List UInt8) (e : Errno) : Eff s (s.log (.write d bs (.err e)))
  | stdoutWrote (k : Nat) (le : k ≤ s.frBuf.window.length) :
      Eff s { s.log (.write .stdout s.frBuf.window (.wrote k le)) with frBuf := s.frBuf.drain k }
  /-- the buffer drains after EOF on stdin: the FIN goes out -/
  | sockShut (k : Nat) (le : k ≤ s.toBuf.window.length) (hlt : s.toBuf.optr < s.toBuf.iptr)
      (hall : s.toBuf.optr + k = s.toBuf.iptr) (heof : s.stdineof = true) :
      Eff s (St.log { s.log (.write .sock s.toBuf.window (.wrote k le)) with
        toBuf := s.toBuf.drain k } .shutdown)
  | sockWrote (k : Nat) (le : k ≤ s.toBuf.window.length) (hlt : s.toBuf.optr < s.toBuf.iptr)
      (hpart : s.toBuf.optr + k ≠ s.toBuf.iptr ∨ s.stdineof = false) :
      Eff s { s.log (.write .sock s.toBuf.window (.wrote k le)) with toBuf := s.toBuf.drain k }

/-- a chain of effects -/
abbrev Effs : St → St → Prop := Relation.ReflTransGen Eff

theorem Eff.one {s s' : St} (h : Eff s s') : Effs s s' := Relation.ReflTransGen.single h

/-! ## the branches -/

theorem stdinBranch_eff (t : Turn) (rset : FdSet) (s : St) (wset : FdSet)
    (h : rset .stdin = true → s.stdineof = false ∧ s.toBuf.iptr < MAXLINE) :
    Effs s (stdinBranch t rset s wset).st := by
  unfold stdinBranch
  dsimp only
  split
  · rename_i hr
    obtain ⟨heof, hlt⟩ := h hr
    have hlen : 0 < MAXLINE - s.toBuf.iptr := by omega
    cases hres : t.stdin (MAXLINE - s.toBuf.iptr) with
    | err e =>
      dsimp only
      split
      · exact (Eff.readErr _ _ e hlen).one
      · exact (Eff.readErr _ _ e hlen).one
    | eof =>
      dsimp only
      split
      · rename_i hemp
        exact (Eff.eofShut heof hlt hemp).one
      · rename_i hemp
        exact (Eff.eof heof hlt hemp).one
    | data bs pos le => exact (Eff.stdinData heof bs pos le).one
  · exact Relation.ReflTransGen.refl

/-- the stdin branch leaves the other buffer alone and stays in the loop or ends the process -/
theorem stdinBranch_frame (t : Turn) (rset : FdSet) (s : St) (wset : FdSet) :
    (stdinBranch t rset s wset).st.frBuf = s.frBuf ∧
      ∀ s', stdinBranch t rset s wset ≠ .ret s' := by
  unfold stdinBranch
  dsimp only
  split
  · cases t.stdin (MAXLINE - s.toBuf.iptr) with
    | err e =>
      dsimp only
      split
      · exact ⟨rfl, fun s' => by simp⟩
      · exact ⟨rfl, fun s' => by simp⟩
    | eof =>
      dsimp only
      split
      · exact ⟨rfl, fun s' => by simp⟩
      · exact ⟨rfl, fun s' => by simp⟩
    | data bs pos le => exact ⟨rfl, fun s' => by simp⟩
  · exact ⟨rfl, fun s' => by simp⟩

theorem sockBranch_eff (t : Turn) (rset : FdSet) (s : St) (wset : FdSet)
    (h : rset .sock = true → s.frBuf.iptr < MAXLINE) :
    Effs s (sockBranch t rset s wset).st := by
  unfold sockBranch
  dsimp only
  split
  · rename_i hr
    have hlt := h hr
    have hlen : 0 < MAXLINE - s.frBuf.iptr := by omega
    cases hres : t.sock (MAXLINE - s.frBuf.iptr) with
    | err e =>
      dsimp only
      split
      · exact (Eff.readErr _ _ e hlen).one
      · exact (Eff.readErr _ _ e hlen).one
    | eof =>
      dsimp only
      split
      · exact (Eff.sockEof hlt).one
      · exact (Eff.sockEof hlt).one
    | data bs pos le => exact (Eff.sockData bs pos le).one
  · exact Relation.ReflTransGen.refl

theorem stdoutBranch_eff (t : Turn) (s : St) (wset : FdSet) :
    Effs s (stdoutBranch t s wset).st := by
  unfold stdoutBranch
  dsimp only
  split
  · cases hres : t.stdoutW s.frBuf.window.length with
    | err e =>
      dsimp only
      split
      · exact (Eff.writeErr _ _ e).one
      · exact (Eff.writeErr _ _ e).one
    | wrote k le => exact (Eff.stdoutWrote k le).one
  · exact Relation.ReflTransGen.refl

theorem sockWBranch_eff (t : Turn) (s : St) (wset : FdSet) :
    Effs s (sockWBranch t s wset).st := by
  unfold sockWBranch
  dsimp only
  split
  · rename_i hw
    have hlt : s.toBuf.optr < s.toBuf.iptr := by omega
    cases hres : t.sockW s.toBuf.window.length with
    | err e =>
      dsimp only
      split
      · exact (Eff.writeErr _ _ e).one
      · exact (Eff.writeErr _ _ e).one
    | wrote k le =>
      dsimp only
      split
      · rename_i hall
        split
        · rename_i heof
          exact (Eff.sockShut k le hlt hall heof).one
        · rename_i heof
          exact (Eff.sockWrote k le hlt (.inr (Bool.eq_false_iff.mpr heof))).one
      · rename_i hall
        exact (Eff.sockWrote k le hlt (.inl hall)).one
  · exact Relation.ReflTransGen.refl

/-! ## the iteration -/

theorem Flow.bind_eff {s : St} {f : Flow} {g : St → FdSet → Flow} (hf : Effs s f.st)
    (hg : ∀ s' wset, f = .on s' wset → Effs s' (g s' wset).st) : Effs s (f.bind g).st := by
  cases f with
  | on s' wset => exact hf.trans (hg s' wset rfl)
  | ret s' => exact hf
  | stop s' why => exact hf

/-- a `FD_SET` under a condition -/
theorem FdSet.ite_set (c : Prop) [Decidable c] (fs : FdSet) (d d' : Desc) :
    (if c then fs.set d else fs) d' = (decide (c ∧ d' = d) || fs d') := by
  by_cases hc : c
  · by_cases hd : d' = d
    · simp [FdSet.set, hc, hd]
    · simp [FdSet.set, hc, hd]
  · simp [hc]

theorem readSet_stdin (s : St) :
    readSet s .stdin = decide (s.stdineof = false ∧ s.toBuf.iptr < MAXLINE) := by
  unfold readSet
  rw [FdSet.ite_set, FdSet.ite_set]
  simp [FdSet.zero]

theorem readSet_sock (s : St) : readSet s .sock = decide (s.frBuf.iptr < MAXLINE) := by
  unfold readSet
  rw [FdSet.ite_set, FdSet.ite_set]
  simp [FdSet.zero]

theorem writeSet_sock (s : St) : writeSet s .sock = decide (s.toBuf.optr ≠ s.toBuf.iptr) := by
  unfold writeSet
  rw [FdSet.ite_set, FdSet.ite_set]
  simp [FdSet.zero]

theorem writeSet_stdout (s : St) : writeSet s .stdout = decide (s.frBuf.optr ≠ s.frBuf.iptr) := by
  unfold writeSet
  rw [FdSet.ite_set, FdSet.ite_set]
  simp [FdSet.zero]

theorem writeSet_stdin (s : St) : writeSet s .stdin = false := by
  unfold writeSet
  rw [FdSet.ite_set, FdSet.ite_set]
  simp [FdSet.zero]

/-- **An iteration is a chain of effects.** -/
theorem iter_eff (s : St) (t : Turn) : Effs s (iter s t).st := by
  have hin : ∀ wset, Effs (s.log (.select (readSet s) (writeSet s)))
      (stdinBranch t (fun d => readSet s d && t.rready d)
        (s.log (.select (readSet s) (writeSet s))) wset).st := by
    intro wset
    apply stdinBranch_eff
    intro hr
    simp only [readSet_stdin, Bool.and_eq_true, decide_eq_true_eq] at hr
    exact hr.1
  apply Relation.ReflTransGen.trans Eff.select.one
  apply Flow.bind_eff (hin _)
  intro s1 w1 h1
  have hfr : s1.frBuf = s.frBuf := by
    have h := (stdinBranch_frame t (fun d => readSet s d && t.rready d)
      (s.log (.select (readSet s) (writeSet s))) (fun d => writeSet s d && t.wready d)).1
    rw [h1] at h
    exact h
  apply Flow.bind_eff
  · apply sockBranch_eff
    intro hr
    simp only [readSet_sock, Bool.and_eq_true, decide_eq_true_eq] at hr
    rw [hfr]
    exact hr.1
  · intro s2 w2 _
    exact Flow.bind_eff (stdoutBranch_eff t s2 w2) (fun s3 w3 _ => sockWBranch_eff t s3 w3)

theorem nextHead_eff {s s' : St} {t : Turn} (h : nextHead s t = some s') : Effs s s' := by
  have hi := iter_eff s t
  unfold nextHead at h
  split at h
  · rename_i s1 w1 hs
    rw [hs] at hi
    cases h
    exact hi
  · cases h

end Unp.StrCli
