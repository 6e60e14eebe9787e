import NetworkProgram.Lib.Holders
import NetworkProgram.Lib.Run
import NetworkProgram.Lib.Tally
import NetworkProgram.Web.Impl

/-!
# Counters, flags and descriptor sets of the web client

`Books`: the three counters are counts of the flags, and the two sets hold the descriptors of the
active and of the connecting files.  Every step that leaves the process running keeps it.
-/

namespace Unp.Web
open Finset Trans Holders Tally

def File.fresh (f : File) : Bool := f.flags = .zero
def File.connecting (f : File) : Bool := f.flags = .connecting
def File.active (f : File) : Bool := f.flags = .connecting || f.flags = .reading

structure Books (s : St) : Prop where
  toconn : s.nlefttoconn = count (range s.nfiles) File.fresh s.file
  conn : s.nconn = count (range s.nfiles) File.active s.file
  toread : s.nlefttoread = s.nlefttoconn + s.nconn
  bound : s.nconn ≤ max s.maxnconn 0
  apart : Apart (range s.nfiles) File.active File.fd s.file
  rset : s.rset = held (range s.nfiles) File.active File.fd s.file
  wset : s.wset = held (range s.nfiles) File.connecting File.fd s.file
  maxfd : ∀ fd ∈ s.rset, fd ≤ s.maxfd
  opened : s.rset ⊆ s.opened

variable {s t : St} {e : Event} {i : Nat}

/-! ## what the flags say -/

theorem File.of_zero {f : File} (h : f.flags = .zero) :
    f.fresh = true ∧ f.connecting = false ∧ f.active = false := by
  unfold File.fresh File.connecting File.active
  rw [h]
  exact ⟨rfl, rfl, rfl⟩

theorem File.of_connecting {f : File} (h : f.flags = .connecting) :
    f.fresh = false ∧ f.connecting = true ∧ f.active = true := by
  unfold File.fresh File.connecting File.active
  rw [h]
  exact ⟨rfl, rfl, rfl⟩

theorem File.of_reading {f : File} (h : f.flags = .reading) :
    f.fresh = false ∧ f.connecting = false ∧ f.active = true := by
  unfold File.fresh File.connecting File.active
  rw [h]
  exact ⟨rfl, rfl, rfl⟩

theorem connecting_active (f : File) (h : f.connecting = true) : f.active = true :=
  (File.of_connecting (of_decide_eq_true h)).2.2

/-! ## the counters and the sets -/

theorem books_start (nfiles : Nat) (maxnconn : Int) (mem : Nat → Int) (inherited : Finset Int) :
    Books (start nfiles maxnconn mem inherited) where
  toconn := by
    have hall : count (range nfiles) File.fresh (start nfiles maxnconn mem inherited).file = nfiles :=
      (count_all (fun _ _ => rfl)).trans (card_range nfiles)
    exact congrArg Nat.cast hall.symm
  conn := by
    have hnone : count (range nfiles) File.active (start nfiles maxnconn mem inherited).file = 0 :=
      count_eq_zero_iff.mpr (fun _ _ => rfl)
    exact congrArg Nat.cast hnone.symm
  toread := (Int.add_zero _).symm
  bound := le_max_right ..
  apart := apart_empty (fun _ _ => rfl)
  rset := (held_empty (fun _ _ => rfl)).symm
  wset := (held_empty (fun _ _ => rfl)).symm
  maxfd fd h := absurd h (notMem_empty fd)
  opened := empty_subset _

/-- `maxfd` with a descriptor put in `rset` -/
theorem Books.maxfd_insert (h : Books s) (fd : Int) :
    ∀ x ∈ insert fd s.rset, x ≤ if fd > s.maxfd then fd else s.maxfd := by
  intro x hx
  rcases mem_insert.mp hx with rfl | hold
  · split <;> omega
  · have hle := h.maxfd x hold
    split <;> omega

/-! ## the functions -/

theorem find_some (h : s.find = some i) : i ∈ range s.nfiles ∧ (s.file i).flags = .zero := by
  have hmem := List.mem_of_find?_eq_some h
  have hflag := List.find?_some h
  exact ⟨mem_range.mpr (List.mem_range.mp hmem), of_decide_eq_true hflag⟩

theorem find_none (h : s.find = none) : count (range s.nfiles) File.fresh s.file = 0 := by
  have hall := List.find?_eq_none.mp h
  refine count_eq_zero_iff.mpr (fun j hj => ?_)
  exact Bool.eq_false_iff.mpr (hall j (List.mem_range.mpr (mem_range.mp hj)))

/-- a file without a connection becomes active, with a descriptor that was not in use -/
theorem Books.open_ (h : Books s) (hi : i ∈ range s.nfiles) (hzero : (s.file i).flags = .zero)
    {fd : Int} (hnew : fd ∉ s.opened) (flags : Flags) (hact : (File.mk fd flags).active = true)
    (hless : s.nconn < s.maxnconn) {wset : Finset Int} {cmds : List Nat}
    (hw : wset = if flags = .connecting then insert fd s.wset else s.wset) :
    Books { s with
      file := Function.update s.file i ⟨fd, flags⟩
      opened := insert fd s.opened
      rset := insert fd s.rset
      wset := wset
      maxfd := if fd > s.maxfd then fd else s.maxfd
      nconn := s.nconn + 1
      nlefttoconn := s.nlefttoconn - 1
      cmds := cmds } := by
  obtain ⟨hfresh, hunconn, hidle⟩ := File.of_zero hzero
  have hnotfresh : (File.mk fd flags).fresh = false := by
    cases flags with
    | zero => cases hact
    | _ => rfl
  have hfd : fd ∉ held (range s.nfiles) File.active File.fd s.file := fun hc =>
    hnew (h.opened (h.rset ▸ hc))
  have hcount := count_update (p := File.fresh) (f := s.file) hi ⟨fd, flags⟩
  have hcount' := count_update (p := File.active) (f := s.file) hi ⟨fd, flags⟩
  rw [hfresh, hnotfresh, Bool.toNat_true, Bool.toNat_false] at hcount
  rw [hidle, hact, Bool.toNat_true, Bool.toNat_false] at hcount'
  have htoconn := h.toconn
  have hconn := h.conn
  exact
    { toconn := by
        show s.nlefttoconn - 1 =
          (count (range s.nfiles) File.fresh (Function.update s.file i ⟨fd, flags⟩) : Int)
        omega
      conn := by
        show s.nconn + 1 =
          (count (range s.nfiles) File.active (Function.update s.file i ⟨fd, flags⟩) : Int)
        omega
      toread := by
        show s.nlefttoread = s.nlefttoconn - 1 + (s.nconn + 1)
        rw [h.toread]
        omega
      bound := by
        show s.nconn + 1 ≤ max s.maxnconn 0
        omega
      apart := h.apart.gain hfd
      rset := by
        show insert fd s.rset = _
        rw [held_gain hi hidle hact, ← h.rset]
      wset := by
        show wset = _
        rw [hw]
        split
        · rename_i hc
          have hyes : (File.mk fd flags).connecting = true := decide_eq_true hc
          rw [held_gain hi hunconn hyes, ← h.wset]
        · rename_i hc
          have hno : (File.mk fd flags).connecting = false := decide_eq_false hc
          rw [held_keep hi (hno.trans hunconn.symm) (fun hx => by rw [hno] at hx; cases hx), ← h.wset]
      maxfd := h.maxfd_insert fd
      opened := insert_subset_insert fd h.opened }

/-- the connection of file `i` is complete, and its command is written -/
theorem Books.get (h : Books s) (hi : i ∈ range s.nfiles) (hc : (s.file i).flags = .connecting)
    {cmds : List Nat} :
    Books { s with
      file := Function.update s.file i ⟨(s.file i).fd, .reading⟩
      wset := s.wset.erase (s.file i).fd
      rset := insert (s.file i).fd s.rset
      maxfd := if (s.file i).fd > s.maxfd then (s.file i).fd else s.maxfd
      cmds := cmds } := by
  obtain ⟨hstale, hconn, hact⟩ := File.of_connecting hc
  have hmem : (s.file i).fd ∈ s.rset := h.rset ▸ key_mem hi hact
  have hcount := count_update (p := File.fresh) (f := s.file) hi ⟨(s.file i).fd, .reading⟩
  have hcount' := count_update (p := File.active) (f := s.file) hi ⟨(s.file i).fd, .reading⟩
  rw [hstale, show (File.mk (s.file i).fd .reading).fresh = false from rfl] at hcount
  rw [hact, show (File.mk (s.file i).fd .reading).active = true from rfl] at hcount'
  exact
    { toconn := h.toconn.trans (congrArg Nat.cast (Nat.add_right_cancel hcount).symm)
      conn := h.conn.trans (congrArg Nat.cast (Nat.add_right_cancel hcount').symm)
      toread := h.toread
      bound := h.bound
      apart := h.apart.keep hi (fun _ => ⟨hact, rfl⟩)
      rset := by
        show insert (s.file i).fd s.rset = _
        rw [insert_eq_of_mem hmem]
        exact h.rset.trans (held_keep hi (x := File.mk _ .reading) hact.symm (fun _ => rfl)).symm
      wset := by
        show s.wset.erase (s.file i).fd = _
        rw [held_lose (h.apart.mono connecting_active) hi hconn rfl, ← h.wset]
      maxfd := h.maxfd_insert _
      opened := by
        show insert (s.file i).fd s.rset ⊆ s.opened
        rw [insert_eq_of_mem hmem]
        exact h.opened }

/-- the end of file `i` -/
theorem Books.close (h : Books s) (hi : i ∈ range s.nfiles) (hr : (s.file i).flags = .reading) :
    Books { s with
      file := Function.update s.file i ⟨(s.file i).fd, .done⟩
      opened := s.opened.erase (s.file i).fd
      rset := s.rset.erase (s.file i).fd
      nconn := s.nconn - 1
      nlefttoread := s.nlefttoread - 1 } := by
  obtain ⟨hstale, hunconn, hact⟩ := File.of_reading hr
  have hcount := count_update (p := File.fresh) (f := s.file) hi ⟨(s.file i).fd, .done⟩
  have hcount' := count_update (p := File.active) (f := s.file) hi ⟨(s.file i).fd, .done⟩
  rw [hstale, show (File.mk (s.file i).fd .done).fresh = false from rfl] at hcount
  rw [hact, show (File.mk (s.file i).fd .done).active = false from rfl, Bool.toNat_true,
    Bool.toNat_false] at hcount'
  have hconn := h.conn
  have hbound := h.bound
  have htoread := h.toread
  exact
    { toconn := h.toconn.trans (congrArg Nat.cast (Nat.add_right_cancel hcount).symm)
      conn := by
        show s.nconn - 1 = (count (range s.nfiles) File.active
          (Function.update s.file i ⟨(s.file i).fd, .done⟩) : Int)
        omega
      toread := by
        show s.nlefttoread - 1 = s.nlefttoconn + (s.nconn - 1)
        omega
      bound := by
        show s.nconn - 1 ≤ max s.maxnconn 0
        omega
      apart := h.apart.keep hi (fun hx => by cases hx)
      rset := by
        show s.rset.erase (s.file i).fd = _
        rw [held_lose h.apart hi hact rfl, ← h.rset]
      wset := by
        show s.wset = _
        rw [held_keep hi hunconn.symm (fun hx => by cases hx), ← h.wset]
      maxfd := fun x hx => h.maxfd x (mem_of_mem_erase hx)
      opened := erase_subset_erase _ h.opened }

/-! ## the steps -/

/-- the process has ended in a wrapper, or the books are right -/
inductive Sound (s : St) : Prop where
  | stopped (msg : String) (pc : s.pc = .stopped (.errSys msg))
  | running (books : Books s) (done : s.pc = .done → s.nlefttoread ≤ 0)
      (alive : ∀ why, s.pc ≠ .stopped why)

/-- the program goes on at `pc` -/
theorem Books.goOn (h : Books s) {pc : Pc} (hpc : pc.running = true) {rs ws : Finset Int} :
    Sound { s with pc := pc, rs := rs, ws := ws } :=
  .running ⟨h.toconn, h.conn, h.toread, h.bound, h.apart, h.rset, h.wset, h.maxfd, h.opened⟩
    (fun hd => by rw [show pc = .done from hd] at hpc; cases hpc)
    (fun why hd => by rw [show pc = .stopped why from hd] at hpc; cases hpc)

/-- `connect` has returned 0 -/
theorem startConnect_done (s : St) (i : Nat) (fd : Int) : s.startConnect i fd none true =
    { s with
      file := Function.update s.file i ⟨fd, .reading⟩
      opened := insert fd s.opened
      rset := insert fd s.rset
      maxfd := if fd > s.maxfd then fd else s.maxfd
      cmds := s.cmds ++ [i] } := by
  simp only [St.startConnect, St.writeGetCmd, St.setFile, St.raise, if_true, Function.update_self,
    Function.update_idem]

/-- the connection is in progress -/
theorem startConnect_progress (s : St) (i : Nat) (fd : Int) (written : Bool) :
    s.startConnect i fd (some EINPROGRESS) written =
    { s with
      file := Function.update s.file i ⟨fd, .connecting⟩
      opened := insert fd s.opened
      rset := insert fd s.rset
      wset := insert fd s.wset
      maxfd := if fd > s.maxfd then fd else s.maxfd } := by
  simp only [St.startConnect, St.setFile, St.raise, ne_eq, not_true_eq_false, if_false,
    Function.update_idem]

/-- any other error of `connect` -/
theorem startConnect_error (s : St) (i : Nat) (fd : Int) {errno : Errno} (h : errno ≠ EINPROGRESS)
    (written : Bool) :
    (s.startConnect i fd (some errno) written).pc = .stopped (.errSys "nonblocking connect error") := by
  unfold St.startConnect
  dsimp only
  rw [if_pos h]

theorem andThen_stopped {f : St → St} {why : Stop} (h : s.pc = .stopped why) : s.andThen f = s := by
  unfold St.andThen
  rw [h]
  rfl

theorem andThen_running {f : St → St} (h : s.pc.running = true) : s.andThen f = f s := if_pos h

theorem Books.connect (h : Books s) (hpc : s.pc = .inner) (ho : s.opens) (hf : s.find = some i)
    {fd : Int} (hnew : fd ∉ s.opened) (ans : Option Errno) (written : Bool) :
    Sound (s.connect i fd ans written) := by
  obtain ⟨hi, hzero⟩ := find_some hf
  have hrun : s.pc.running = true := by rw [hpc]; rfl
  unfold St.connect
  cases ans with
  | some errno =>
    by_cases herr : errno = EINPROGRESS
    · rw [herr, startConnect_progress, andThen_running (by exact hrun)]
      exact (h.open_ hi hzero hnew .connecting rfl ho.1 rfl).goOn hrun
    · have hstop := startConnect_error s i fd herr written
      rw [andThen_stopped hstop]
      exact .stopped _ hstop
  | none =>
    cases written with
    | false => exact .stopped _ rfl
    | true =>
      rw [startConnect_done, andThen_running (by exact hrun)]
      exact (h.open_ hi hzero hnew .reading rfl ho.1 rfl).goOn hrun

theorem Books.connected (h : Books s) (hi : i ∈ range s.nfiles) (hpc : s.pc = .scan i)
    (hc : (s.file i).flags = .connecting) (so : SoError) (written : Bool) :
    Sound (s.connected i so written) := by
  have hrun : s.pc.running = true := by rw [hpc]; rfl
  unfold St.connected St.writeGetCmd St.andThen
  dsimp only
  cases written with
  | false => exact .stopped _ rfl
  | true =>
    show Sound (if s.pc.running = true then _ else _)
    rw [if_pos hrun]
    exact (h.get hi hc).goOn rfl

theorem Books.read (h : Books s) (hi : i ∈ range s.nfiles) (hr : (s.file i).flags = .reading)
    (r : ReadRes UInt8 MAXLINE) : Sound (s.read i r) := by
  unfold St.read
  dsimp only
  split
  · exact .stopped _ rfl
  · split
    · exact (h.close hi hr).goOn rfl
    · exact h.goOn rfl

theorem Sound.step (h : Sound s) (hs : Step s e t) : Sound t := by
  cases h with
  | stopped msg hpc => cases hs <;> simp_all [Pc.running]
  | running h hdone halive =>
    cases hs with
    | head pc =>
      by_cases hleft : s.nlefttoread > 0
      · rw [if_pos hleft]
        exact h.goOn rfl
      · rw [if_neg hleft]
        exact .running ⟨h.toconn, h.conn, h.toread, h.bound, h.apart, h.rset, h.wset, h.maxfd, h.opened⟩
          (fun _ => not_lt.mp hleft) (fun why => Pc.noConfusion)
    | connect i fd ans written pc opens found nonneg unused =>
      exact h.connect pc opens found unused ans written
    | nothing pc opens none =>
      have hnone := find_none none
      have htoconn := h.toconn
      have hpos := opens.2
      omega
    | select rs ws pc full sub wsub => exact h.goOn rfl
    | sockopt i so written pc lt ready => exact h.connected (mem_range.mpr lt) pc ready.1 so written
    | read i r pc lt ready => exact h.read (mem_range.mpr lt) ready.1 r
    | skip i pc lt notready => exact h.goOn rfl
    | last pc => exact h.goOn rfl
    | fail msg running => exact .stopped msg rfl

theorem sound_run {nfiles : Nat} {maxnconn : Int} {mem : Nat → Int} {inherited : Finset Int}
    {es : List Event} (h : Run Step (start nfiles maxnconn mem inherited) es s) : Sound s :=
  h.inv (.running (books_start nfiles maxnconn mem inherited) (fun hd => by cases hd)
    (fun _ hd => by cases hd)) (fun _ _ _ hinv hs => hinv.step hs)

/-! ## the constants -/

theorem writeGetCmd_const (s : St) (i : Nat) (written : Bool) :
    (s.writeGetCmd i written).nfiles = s.nfiles ∧ (s.writeGetCmd i written).maxnconn = s.maxnconn := by
  cases written <;> exact ⟨rfl, rfl⟩

theorem startConnect_const (s : St) (i : Nat) (fd : Int) (ans : Option Errno) (written : Bool) :
    (s.startConnect i fd ans written).nfiles = s.nfiles ∧
      (s.startConnect i fd ans written).maxnconn = s.maxnconn := by
  unfold St.startConnect
  dsimp only
  cases ans with
  | some errno =>
    dsimp only
    split <;> exact ⟨rfl, rfl⟩
  | none => exact writeGetCmd_const _ i written

theorem andThen_const {f : St → St} (hf : ∀ s, (f s).nfiles = s.nfiles ∧ (f s).maxnconn = s.maxnconn) :
    (s.andThen f).nfiles = s.nfiles ∧ (s.andThen f).maxnconn = s.maxnconn := by
  unfold St.andThen
  split
  · exact hf s
  · exact ⟨rfl, rfl⟩

theorem step_const (hs : Step s e t) : t.nfiles = s.nfiles ∧ t.maxnconn = s.maxnconn := by
  cases hs with
  | connect i fd ans written pc opens found nonneg unused =>
    obtain ⟨h1, h2⟩ := startConnect_const s i fd ans written
    obtain ⟨h3, h4⟩ := andThen_const (s := s.startConnect i fd ans written) (f := fun s =>
      { s with nconn := s.nconn + 1, nlefttoconn := s.nlefttoconn - 1 }) (fun _ => ⟨rfl, rfl⟩)
    exact ⟨h3.trans h1, h4.trans h2⟩
  | sockopt i so written pc lt ready =>
    obtain ⟨h1, h2⟩ := writeGetCmd_const { s with wset := s.wset.erase (s.file i).fd } i written
    obtain ⟨h3, h4⟩ := andThen_const
      (s := St.writeGetCmd { s with wset := s.wset.erase (s.file i).fd } i written)
      (f := fun s => { s with pc := .scan (i + 1) }) (fun _ => ⟨rfl, rfl⟩)
    exact ⟨h3.trans h1, h4.trans h2⟩
  | read i r pc lt ready =>
    unfold St.read
    dsimp only
    split
    · exact ⟨rfl, rfl⟩
    · split <;> exact ⟨rfl, rfl⟩
  | _ => exact ⟨rfl, rfl⟩

theorem const_run {nfiles : Nat} {maxnconn : Int} {mem : Nat → Int} {inherited : Finset Int}
    {es : List Event} (h : Run Step (start nfiles maxnconn mem inherited) es s) :
    s.nfiles = nfiles ∧ s.maxnconn = maxnconn := by
  induction h with
  | nil => exact ⟨rfl, rfl⟩
  | snoc _ hs ih => exact ⟨(step_const hs).1.trans ih.1, (step_const hs).2.trans ih.2⟩

theorem Flags.done_of {f : File} (h1 : f.fresh = false) (h2 : f.active = false) : f.flags = .done := by
  unfold File.fresh at h1
  unfold File.active at h2
  cases hf : f.flags with
  | done => rfl
  | _ => simp [hf] at h1 h2

/-- **The books.**  At every head of the outer loop the counters, the flags and the descriptor sets
agree; the exit for a file that is not found is never taken; and the loop ends only when every file
is done. -/
theorem books_run (nfiles : Nat) (maxnconn : Int) (mem : Nat → Int) (inherited : Finset Int)
    (es : List Event) (s : St) (h : Run Step (start nfiles maxnconn mem inherited) es s) :
    s.nfiles = nfiles ∧ s.maxnconn = maxnconn ∧
    (s.pc = .head → Books s) ∧
    (∀ n, s.pc ≠ .stopped (.errQuit "nlefttoconn = %d but nothing found" [n])) ∧
    (s.pc = .done → ∀ i < nfiles, (s.file i).flags = .done) := by
  obtain ⟨hn, hmax⟩ := const_run h
  refine ⟨hn, hmax, ?_⟩
  cases sound_run h with
  | stopped msg hpc =>
    rw [hpc]
    exact ⟨Pc.noConfusion, fun n hn => (by cases hn), Pc.noConfusion⟩
  | running hbooks hdone halive =>
    refine ⟨fun _ => hbooks, fun n => halive _, fun hpc i hi => ?_⟩
    have hleft := hdone hpc
    have htoread := hbooks.toread
    have htoconn := hbooks.toconn
    have hconn := hbooks.conn
    have hfresh := count_eq_zero_iff.mp (show count (range s.nfiles) File.fresh s.file = 0 by omega)
    have hactive := count_eq_zero_iff.mp (show count (range s.nfiles) File.active s.file = 0 by omega)
    have hmem : i ∈ range s.nfiles := mem_range.mpr (hn ▸ hi)
    exact Flags.done_of (hfresh i hmem) (hactive i hmem)

/-- two files: one connection is in progress while the other is established at once -/
theorem twoFiles_run :
    ∃ es s, Run Step (start 2 2 (fun _ => 0) {0, 1, 2}) es s ∧ s.pc = .done := by
  have hopen := ((Run.single (Step.head (s := start 2 2 (fun _ => 0) {0, 1, 2}) rfl)).snoc
    (Step.connect 0 3 (some EINPROGRESS) true rfl ⟨by decide, by decide⟩ rfl (by decide)
      (by decide))).snoc
    (Step.connect 1 4 none true rfl ⟨by decide, by decide⟩ rfl (by decide) (by decide))
  have hfirst := hopen.snoc
    (Step.select {4} {3} rfl (fun h => absurd h.2 (by decide)) (by decide) (by decide))
  have hscan := ((hfirst.snoc
    (Step.sockopt 0 (.stores 0) true rfl (by decide) ⟨rfl, Or.inr (by decide)⟩)).snoc
    (Step.read 1 .eof rfl (by decide) ⟨rfl, by decide⟩)).snoc (Step.last rfl)
  have hsecond := (hscan.snoc (Step.head rfl)).snoc
    (Step.select {3} ∅ rfl (fun h => absurd h.2 (by decide)) (by decide) (by decide))
  have hend := ((hsecond.snoc (Step.read 0 .eof rfl (by decide) ⟨rfl, by decide⟩)).snoc
    (Step.skip 1 rfl (by decide)
      ⟨fun h => absurd h.1 (by decide), fun h => absurd h.1 (by decide)⟩)).snoc (Step.last rfl)
  exact ⟨_, _, hend.snoc (Step.head rfl), rfl⟩

theorem books_run_twoFiles : ∃ s : St, s.pc = .done ∧ ∀ i < 2, (s.file i).flags = .done := by
  obtain ⟨es, s, hrun, hpc⟩ := twoFiles_run
  exact ⟨s, hpc, (books_run 2 2 (fun _ => 0) {0, 1, 2} es s hrun).2.2.2.2 hpc⟩

end Unp.Web
