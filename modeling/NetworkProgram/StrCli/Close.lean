import NetworkProgram.StrCli.Loop

/-!
# The half-close and the return of `str_cli`

* `CloseInv`               the FIN goes out once stdin is at EOF and `to` has drained, and never
                           before: `halfClose_once` reads it off for every run;
* `return_delivered_iff`   the function returns from the socket branch, before the two write
                           branches, so a normal return loses whatever the buffers still hold:
                           nothing is lost exactly when that iteration began with nothing to write.
-/

namespace Unp.StrCli

/-! ## the half-close -/

/-- each shutdown of the trace comes after EOF on stdin and after every byte of stdin, and no byte
goes to the socket after it -/
def ShutOk (tr : List Sys) : Prop :=
  ∀ pre post, tr = pre ++ .shutdown :: post →
    eofRead .stdin pre ∧ bytesWritten .sock pre = bytesRead .stdin pre ∧ bytesWritten .sock post = []

theorem snoc_eq_split {e : Sys} {tr pre post : List Sys} (h : tr ++ [e] = pre ++ .shutdown :: post) :
    (post = [] ∧ e = .shutdown ∧ pre = tr) ∨
      ∃ post', post = post' ++ [e] ∧ tr = pre ++ .shutdown :: post' := by
  rcases List.eq_nil_or_concat post with rfl | ⟨post', x, rfl⟩
  · obtain ⟨h1, h2⟩ := List.append_inj' h rfl
    exact .inl ⟨rfl, List.singleton_inj.mp h2, h1.symm⟩
  · have h' : tr ++ [e] = (pre ++ .shutdown :: post') ++ [x] := by rw [h]; simp
    obtain ⟨h1, h2⟩ := List.append_inj' h' rfl
    obtain rfl := List.singleton_inj.mp h2
    exact .inr ⟨post', List.concat_eq_append, h1⟩

theorem ShutOk.snoc {tr : List Sys} (h : ShutOk tr) {e : Sys} (hne : e ≠ .shutdown)
    (hq : Sys.shutdown ∈ tr → e.bytesWritten .sock = []) : ShutOk (tr ++ [e]) := by
  intro pre post heq
  rcases snoc_eq_split heq with ⟨_, he, _⟩ | ⟨post', rfl, htr⟩
  · exact absurd he hne
  · obtain ⟨h1, h2, h3⟩ := h pre post' htr
    refine ⟨h1, h2, ?_⟩
    rw [bytesWritten_snoc, h3, hq (by rw [htr]; simp)]
    rfl

theorem ShutOk.shutdown {tr : List Sys} (hno : Sys.shutdown ∉ tr) (heof : eofRead .stdin tr)
    (hw : bytesWritten .sock tr = bytesRead .stdin tr) : ShutOk (tr ++ [.shutdown]) := by
  intro pre post heq
  rcases snoc_eq_split heq with ⟨rfl, _, rfl⟩ | ⟨post', rfl, htr⟩
  · exact ⟨heof, hw, rfl⟩
  · exact absurd (by rw [htr]; simp) hno

theorem shutdowns_snoc (tr : List Sys) (e : Sys) :
    shutdowns (tr ++ [e]) = shutdowns tr + if e.isShutdown then 1 else 0 := by
  simp [shutdowns, List.countP_append, List.countP_cons]

theorem not_mem_of_shutdowns {tr : List Sys} (h : shutdowns tr = 0) : Sys.shutdown ∉ tr := by
  intro hm
  exact (List.countP_eq_zero.mp h) _ hm rfl

theorem mem_of_shutdowns {tr : List Sys} (h : shutdowns tr = 1) : Sys.shutdown ∈ tr := by
  have hpos : 0 < tr.countP Sys.isShutdown := by
    have h' : tr.countP Sys.isShutdown = 1 := h
    omega
  obtain ⟨e, hm, he⟩ := List.countP_pos_iff.mp hpos
  cases e with
  | shutdown => exact hm
  | select r w => cases he
  | read d len got => cases he
  | write d bs got => cases he

theorem eofRead_snoc (d : Desc) (tr : List Sys) (e : Sys) :
    eofRead d (tr ++ [e]) ↔ eofRead d tr ∨ e.isEof d := by
  constructor
  · rintro ⟨x, hx, he⟩
    rcases List.mem_append.mp hx with hm | hm
    · exact .inl ⟨x, hm, he⟩
    · rw [List.mem_singleton.mp hm] at he
      exact .inr he
  · rintro (⟨x, hx, he⟩ | he)
    · exact ⟨x, List.mem_append_left _ hx, he⟩
    · exact ⟨e, List.mem_append_right _ (List.mem_singleton_self e), he⟩

/-- stdin is at EOF and all of it has been written: the state in which the FIN is out -/
def St.done (s : St) : Prop := s.stdineof = true ∧ s.toBuf.optr = s.toBuf.iptr

instance (s : St) : Decidable s.done := inferInstanceAs (Decidable (_ ∧ _))

structure CloseInv (s : St) : Prop where
  eof : s.stdineof = true ↔ eofRead .stdin s.trace
  count : shutdowns s.trace = if s.done then 1 else 0
  order : ShutOk s.trace

theorem CloseInv.init (toMem frMem : Nat → UInt8) : CloseInv (init toMem frMem) where
  eof := ⟨fun h => (by cases h), fun ⟨_, hm, _⟩ => absurd hm List.not_mem_nil⟩
  count := rfl
  order := fun pre post h => absurd h (by simp [StrCli.init])

theorem CloseInv.none_sent {s : St} (h : CloseInv s) (hd : ¬ s.done) : shutdowns s.trace = 0 := by
  rw [h.count, if_neg hd]

/-- a call other than the shutdown and EOF on stdin, with the buffer as good as before -/
theorem CloseInv.call {s s' : St} (h : CloseInv s) (e : Sys) (htr : s'.trace = s.trace ++ [e])
    (hne : e.isShutdown = false) (heof : ¬ e.isEof .stdin) (hs : s'.stdineof = s.stdineof)
    (hd : s'.done ↔ s.done) (hq : s.done → e.bytesWritten .sock = []) : CloseInv s' where
  eof := by
    rw [hs, htr, eofRead_snoc, h.eof]
    exact ⟨.inl, fun hor => hor.resolve_right heof⟩
  count := by
    rw [htr, shutdowns_snoc, hne, h.count]
    simp [hd]
  order := by
    rw [htr]
    refine h.order.snoc (fun he => by rw [he] at hne; cases hne) (fun hm => hq ?_)
    by_contra hnd
    exact not_mem_of_shutdowns (h.none_sent hnd) hm

/-- the shutdown, sent in a state that has just become `done` -/
theorem CloseInv.shut {s : St} (hl : LoopInv s) (heof : eofRead .stdin s.trace)
    (h0 : shutdowns s.trace = 0) (hd : s.done) : CloseInv (s.log .shutdown) where
  eof := ⟨fun _ => (eofRead_snoc ..).mpr (.inl heof), fun _ => hd.1⟩
  count := by
    have hd' : (s.log .shutdown).done := hd
    rw [if_pos hd']
    show shutdowns (s.trace ++ [.shutdown]) = 1
    rw [shutdowns_snoc, h0]
    rfl
  order := ShutOk.shutdown (not_mem_of_shutdowns h0) heof
    ((hl.toRelay.drained_iff hl.toOk).mpr hd.2)

theorem not_done_of_eof {s : St} (h : s.stdineof = false) : ¬ s.done := by
  intro hd
  rw [hd.1] at h
  cases h

theorem not_done_of_lt {s : St} (h : s.toBuf.optr < s.toBuf.iptr) : ¬ s.done := fun hd => by
  have := hd.2
  omega

/-- **Every effect keeps the invariant of the half-close.** -/
theorem CloseInv.step {s s' : St} (hl : LoopInv s) (h : CloseInv s) (he : Eff s s') :
    CloseInv s' := by
  cases he with
  | select => exact h.call _ rfl rfl id rfl Iff.rfl (fun _ => rfl)
  | readErr d len e hlen => exact h.call _ rfl rfl id rfl Iff.rfl (fun _ => rfl)
  | eofShut heof hlt hempty =>
    have h0 : shutdowns (s.trace ++ [.read .stdin (MAXLINE - s.toBuf.iptr) .eof]) = 0 := by
      rw [shutdowns_snoc, h.none_sent (not_done_of_eof heof)]
      rfl
    have hl' := (hl.log (still_readEof .stdin (MAXLINE - s.toBuf.iptr))
      (fun _ _ _ heq => by cases heq; omega)).eof true
    exact CloseInv.shut hl' ((eofRead_snoc ..).mpr (.inr rfl)) h0 ⟨rfl, hempty⟩
  | eof heof hlt hne =>
    -- the FIN waits for the buffer: not done yet
    have hnd : ¬ (St.done { s.log (.read .stdin (MAXLINE - s.toBuf.iptr) .eof) with
        stdineof := true }) := fun hd => hne hd.2
    refine ⟨⟨fun _ => (eofRead_snoc ..).mpr (.inr rfl), fun _ => rfl⟩, ?_, ?_⟩
    · rw [if_neg hnd]
      show shutdowns (s.trace ++ [_]) = 0
      rw [shutdowns_snoc, h.none_sent (not_done_of_eof heof)]
      rfl
    · exact h.order.snoc (by simp) (fun _ => rfl)
  | stdinData heof bs pos le =>
    exact h.call _ rfl rfl id rfl
      ⟨fun hd => absurd hd (not_done_of_eof heof), fun hd => absurd hd (not_done_of_eof heof)⟩
      (fun _ => rfl)
  | sockEof hlt => exact h.call _ rfl rfl (fun he => by cases he) rfl Iff.rfl (fun _ => rfl)
  | sockData bs pos le => exact h.call _ rfl rfl id rfl Iff.rfl (fun _ => rfl)
  | writeErr d bs e => exact h.call _ rfl rfl id rfl Iff.rfl (fun _ => (still_writeErr d bs e .sock).2)
  | stdoutWrote k le => exact h.call _ rfl rfl id rfl Iff.rfl (fun _ => rfl)
  | sockShut k le hlt hall heof =>
    have h0 : shutdowns (s.trace ++ [.write .sock s.toBuf.window (.wrote k le)]) = 0 := by
      rw [shutdowns_snoc, h.none_sent (not_done_of_lt hlt)]
      rfl
    exact CloseInv.shut (hl.sockWrote k le) ((eofRead_snoc ..).mpr (.inl (h.eof.mp heof))) h0
      ⟨heof, (Buf.drain_empty_iff _ _).mpr hall⟩
  | sockWrote k le hlt hpart =>
    have hnd : ¬ (St.done { s.log (.write .sock s.toBuf.window (.wrote k le)) with
        toBuf := s.toBuf.drain k }) := by
      intro hd
      rcases hpart with hne | heof
      · exact hne ((Buf.drain_empty_iff _ _).mp hd.2)
      · have heof' : s.stdineof = true := hd.1
        rw [heof] at heof'
        cases heof'
    exact h.call _ rfl rfl id rfl
      ⟨fun hd => absurd hd hnd, fun hd => absurd hd (not_done_of_lt hlt)⟩
      (fun hd => absurd hd (not_done_of_lt hlt))

theorem CloseInv.effs {s s' : St} (hl : LoopInv s) (h : CloseInv s) (he : Effs s s') :
    LoopInv s' ∧ CloseInv s' := by
  induction he with
  | refl => exact ⟨hl, h⟩
  | tail _ hb ih => exact ⟨ih.1.step hb, ih.2.step ih.1 hb⟩

theorem CloseInv.head {toMem frMem : Nat → UInt8} {ts : List Turn} {s : St}
    (h : Heads toMem frMem ts s) : LoopInv s ∧ CloseInv s := by
  have hinv : ∀ I : St → Prop, I (StrCli.init toMem frMem) →
      (∀ t u, I t → Effs t u → I u) → I s := fun I h0 hstep =>
    h.inv h0 (fun t _ u ht he => hstep t u ht (nextHead_eff he))
  exact hinv (fun s => LoopInv s ∧ CloseInv s) ⟨LoopInv.init toMem frMem, CloseInv.init toMem frMem⟩
    (fun _ _ hi he => CloseInv.effs hi.1 hi.2 he)

/-- **The half-close happens at most once, after EOF on stdin and after every byte read from it,
with no byte to the socket after it; at a loop head with stdin at EOF and `to` empty it has
happened.**  The trace is that of any iteration `t` begun at any loop head, however it ends. -/
theorem halfClose_once (toMem frMem : Nat → UInt8) (ts : List Turn) (s : St)
    (h : Heads toMem frMem ts s) :
    (∀ t, shutdowns (iter s t).st.trace ≤ 1 ∧ ShutOk (iter s t).st.trace) ∧
    (s.stdineof = true → s.toBuf.window = [] → Sys.shutdown ∈ s.trace) := by
  obtain ⟨hl, hc⟩ := CloseInv.head h
  constructor
  · intro t
    have hc' := (CloseInv.effs hl hc (iter_eff s t)).2
    refine ⟨?_, hc'.order⟩
    rw [hc'.count]
    split <;> omega
  · intro heof hw
    have hd : s.done := ⟨heof, (Buf.window_nil_iff hl.toOk).mp hw⟩
    exact mem_of_shutdowns (by rw [hc.count, if_pos hd])

/-- stdin is at EOF -/
def Turn.stdinEof : Turn :=
  { Turn.idle with rready := FdSet.zero.set .stdin, stdin := fun _ => .eof }

/-- the socket takes all it is offered -/
def Turn.sockTakes : Turn :=
  { Turn.idle with wready := FdSet.zero.set .sock, sockW := fun len => .wrote len (Nat.le_refl _) }

theorem halfClose_once_late : ∃ s, Heads (fun _ => 0) (fun _ => 0)
      [.stdinByte 97, .stdinEof, .sockTakes] s ∧
    bytesWritten .sock s.trace = [97] ∧ Sys.shutdown ∈ s.trace := by
  obtain ⟨s, hs⟩ : ∃ s, [Turn.stdinByte 97, .stdinEof, .sockTakes].foldlM nextHead
    (init (fun _ => 0) (fun _ => 0)) = some s := ⟨_, rfl⟩
  have hrun : Heads (fun _ => 0) (fun _ => 0) [.stdinByte 97, .stdinEof, .sockTakes] s :=
    Trans.Run.opt_iff.mpr hs
  have hlast := (halfClose_once _ _ _ s hrun).2
  cases hs
  exact ⟨_, hrun, rfl, hlast rfl rfl⟩

/-! ## the return -/

theorem Flow.bind_ret {f : Flow} {g : St → FdSet → Flow} {s' : St} (h : f.bind g = .ret s')
    (hf : ∀ s, f ≠ .ret s) : ∃ s1 w1, f = .on s1 w1 ∧ g s1 w1 = .ret s' := by
  cases f with
  | on s1 w1 => exact ⟨s1, w1, rfl, h⟩
  | ret s1 => exact absurd rfl (hf s1)
  | stop s1 why => cases h

theorem stdoutBranch_not_ret (t : Turn) (s : St) (wset : FdSet) :
    ∀ s', stdoutBranch t s wset ≠ .ret s' := by
  intro s' h
  unfold stdoutBranch at h
  dsimp only at h
  split at h
  · cases hres : t.stdoutW s.frBuf.window.length with
    | err e =>
      rw [hres] at h
      dsimp only at h
      split at h <;> cases h
    | wrote k le =>
      rw [hres] at h
      cases h
  · cases h

theorem sockWBranch_not_ret (t : Turn) (s : St) (wset : FdSet) :
    ∀ s', sockWBranch t s wset ≠ .ret s' := by
  intro s' h
  unfold sockWBranch at h
  dsimp only at h
  split at h
  · cases hres : t.sockW s.toBuf.window.length with
    | err e =>
      rw [hres] at h
      dsimp only at h
      split at h <;> cases h
    | wrote k le =>
      rw [hres] at h
      dsimp only at h
      split at h
      · split at h <;> cases h
      · cases h
  · cases h

/-- the return leaves both buffers as the branch found them -/
theorem sockBranch_ret {t : Turn} {rset : FdSet} {s s' : St} {wset : FdSet}
    (h : sockBranch t rset s wset = .ret s') :
    s.stdineof = true ∧ s'.toBuf = s.toBuf ∧ s'.frBuf = s.frBuf := by
  unfold sockBranch at h
  dsimp only at h
  split at h
  · cases hres : t.sock (MAXLINE - s.frBuf.iptr) with
    | err e =>
      rw [hres] at h
      dsimp only at h
      split at h <;> cases h
    | eof =>
      rw [hres] at h
      dsimp only at h
      split at h
      · rename_i heof
        cases h
        exact ⟨heof, rfl, rfl⟩
      · cases h
    | data bs pos le =>
      rw [hres] at h
      cases h
  · cases h

/-- with stdin at EOF after the branch, the branch has read no bytes -/
theorem stdinBranch_on {t : Turn} {rset : FdSet} {s s' : St} {wset w' : FdSet}
    (h : stdinBranch t rset s wset = .on s' w') (hr : rset .stdin = true → s.stdineof = false)
    (heof : s'.stdineof = true) : s'.toBuf = s.toBuf := by
  unfold stdinBranch at h
  dsimp only at h
  split at h
  · rename_i hrd
    cases hres : t.stdin (MAXLINE - s.toBuf.iptr) with
    | err e =>
      rw [hres] at h
      dsimp only at h
      split at h <;> cases h
      rfl
    | eof =>
      rw [hres] at h
      dsimp only at h
      split at h <;> cases h <;> rfl
    | data bs pos le =>
      rw [hres] at h
      cases h
      have hf : s.stdineof = true := heof
      rw [hr hrd] at hf
      cases hf
  · cases h
    rfl

/-- a returning iteration leaves both buffers as they were at its head -/
theorem iter_ret {s s' : St} {t : Turn} (h : iter s t = .ret s') :
    s'.toBuf = s.toBuf ∧ s'.frBuf = s.frBuf := by
  obtain ⟨s1, w1, h1, hrest⟩ := Flow.bind_ret h (stdinBranch_frame _ _ _ _).2
  have hfr := (stdinBranch_frame t (fun d => readSet s d && t.rready d)
    (s.log (.select (readSet s) (writeSet s))) (fun d => writeSet s d && t.wready d)).1
  rw [h1] at hfr
  have hret : sockBranch t (fun d => readSet s d && t.rready d) s1 w1 = .ret s' := by
    cases hsock : sockBranch t (fun d => readSet s d && t.rready d) s1 w1 with
    | on s2 w2 =>
      rw [hsock] at hrest
      have hrest' : (stdoutBranch t s2 w2).bind (fun s wset => sockWBranch t s wset) = .ret s' := hrest
      obtain ⟨s3, w3, _, hlast⟩ := Flow.bind_ret hrest' (stdoutBranch_not_ret t s2 w2)
      exact absurd hlast (sockWBranch_not_ret t s3 w3 s')
    | ret s2 =>
      rw [hsock] at hrest
      exact hrest
    | stop s2 why =>
      rw [hsock] at hrest
      cases hrest
  obtain ⟨heof, hto, hfr'⟩ := sockBranch_ret hret
  have hin : s1.toBuf = s.toBuf := by
    apply stdinBranch_on (s := s.log (.select (readSet s) (writeSet s))) h1 _ heof
    intro hr
    simp only [readSet_stdin, Bool.and_eq_true, decide_eq_true_eq] at hr
    exact hr.1.1
  exact ⟨hto.trans hin, hfr'.trans hfr⟩

/-- all that was read has been written, and the buffers are empty -/
def Delivered (s : St) : Prop :=
  bytesWritten .stdout s.trace = bytesRead .sock s.trace ∧
  bytesWritten .sock s.trace = bytesRead .stdin s.trace ∧
  s.toBuf.window = [] ∧ s.frBuf.window = []

/-- **A normal return has delivered everything exactly when its iteration passed `Select` an empty
write set**: the return comes before the two write branches. -/
theorem return_delivered_iff (toMem frMem : Nat → UInt8) (ts : List Turn) (s : St)
    (h : Heads toMem frMem ts s) (t : Turn) (s' : St) (hret : iter s t = .ret s') :
    Delivered s' ↔ ∀ d, writeSet s d = false := by
  have hl := LoopInv.head h
  have hl' := hl.effs (iter_eff s t)
  rw [hret] at hl'
  obtain ⟨hto, hfr⟩ := iter_ret hret
  have hws : (∀ d, writeSet s d = false) ↔
      s.toBuf.optr = s.toBuf.iptr ∧ s.frBuf.optr = s.frBuf.iptr := by
    constructor
    · intro hall
      have h1 := hall .sock
      have h2 := hall .stdout
      rw [writeSet_sock] at h1
      rw [writeSet_stdout] at h2
      exact ⟨not_not.mp (of_decide_eq_false h1), not_not.mp (of_decide_eq_false h2)⟩
    · rintro ⟨h1, h2⟩ d
      cases d with
      | stdin => exact writeSet_stdin s
      | stdout => rw [writeSet_stdout]; exact decide_eq_false (not_not.mpr h2)
      | sock => rw [writeSet_sock]; exact decide_eq_false (not_not.mpr h1)
  rw [hws, ← hto, ← hfr]
  constructor
  · rintro ⟨_, _, h3, h4⟩
    exact ⟨(Buf.window_nil_iff hl'.toOk).mp h3, (Buf.window_nil_iff hl'.frOk).mp h4⟩
  · rintro ⟨h1, h2⟩
    exact ⟨(hl'.frRelay.drained_iff hl'.frOk).mpr h2, (hl'.toRelay.drained_iff hl'.toOk).mpr h1,
      (Buf.window_nil_iff hl'.toOk).mpr h1, (Buf.window_nil_iff hl'.frOk).mpr h2⟩

/-- the socket is at EOF -/
def Turn.sockEof : Turn :=
  { Turn.idle with rready := FdSet.zero.set .sock, sock := fun _ => .eof }

/-- stdin is at EOF and the socket delivers one byte, which stdout does not take -/
def Turn.lastByte (c : UInt8) : Turn :=
  { Turn.idle with
    rready := (FdSet.zero.set .stdin).set .sock, stdin := fun _ => .eof, sock := oneByte c }

/-- the socket delivers one byte, and stdout takes it -/
def Turn.echo (c : UInt8) : Turn :=
  { Turn.idle with
    rready := FdSet.zero.set .sock, wready := FdSet.zero.set .stdout, sock := oneByte c,
    stdoutW := fun len => .wrote len (Nat.le_refl _) }

/-- a byte goes to the server and comes back before both ends close -/
theorem return_delivered_iff_echo : ∃ s s', Heads (fun _ => 0) (fun _ => 0)
      [.stdinByte 97, .sockTakes, .echo 97, .stdinEof] s ∧
    iter s .sockEof = .ret s' ∧ bytesRead .stdin s.trace = [97] ∧ bytesRead .sock s.trace = [97] ∧
    Delivered s' := by
  obtain ⟨s, hs⟩ : ∃ s, [Turn.stdinByte 97, .sockTakes, .echo 97, .stdinEof].foldlM nextHead
    (init (fun _ => 0) (fun _ => 0)) = some s := ⟨_, rfl⟩
  have hrun : Heads (fun _ => 0) (fun _ => 0) [.stdinByte 97, .sockTakes, .echo 97, .stdinEof] s :=
    Trans.Run.opt_iff.mpr hs
  have hret : ∀ s', iter s .sockEof = .ret s' → (∀ d, writeSet s d = false) → Delivered s' :=
    fun s' h => (return_delivered_iff _ _ _ s hrun .sockEof s' h).mpr
  cases hs
  refine ⟨_, _, hrun, rfl, rfl, rfl, hret _ rfl ?_⟩
  intro d
  cases d <;> rfl

/-- the byte of `lastByte` is lost when the server then closes -/
theorem return_loses_byte : ¬ ∀ toMem frMem ts s t s', Heads toMem frMem ts s →
    iter s t = .ret s' → Delivered s' := by
  intro hall
  obtain ⟨s, hs⟩ : ∃ s, nextHead (init (fun _ => 0) (fun _ => 0)) (.lastByte 120) = some s := ⟨_, rfl⟩
  have hrun : Heads (fun _ => 0) (fun _ => 0) [.lastByte 120] s := Trans.Run.single hs
  cases hs
  have hd := hall _ _ _ _ .sockEof _ hrun rfl
  have hw : ([] : List UInt8) = [120] := hd.1
  cases hw

end Unp.StrCli
