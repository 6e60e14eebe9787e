import NetworkProgram.TcpUdp.Impl

/-!
# Where the server ends, and where it waits

`sig_chld` does not save `errno`, and `listenfd` is blocking.

* `select_error_iff`   the runs that end at `select error`;
* `blocked_iff`        the runs in which `main` never waits in `Accept`, and what that means for the
                       datagrams.
-/

namespace Unp.TcpUdp

open Trans

variable {s t : St} {e x : Event} {es : List Event}

/-! ## errno -/

/-- `select` has been interrupted, and `errno` has not been tested since -/
def Untested (es : List Event) : Prop := ∃ es₁ es₂, es = es₁ ++ .eintr :: es₂ ∧ .test ∉ es₂

/-- and since then `sig_chld` has found that there are no more children -/
def Lost (es : List Event) : Prop :=
  ∃ es₁ es₂, es = es₁ ++ .eintr :: es₂ ∧ .test ∉ es₂ ∧ .noChild ∈ es₂

/-- `errno` has been tested then -/
def Clobbered (es : List Event) : Prop := ∃ es₁ es₂, es = es₁ ++ .test :: es₂ ∧ Lost es₁

/-- an event of a longer run is the last one, or one of those before -/
theorem concat_eq_iff {es₁ es₂ : List Event} :
    es ++ [e] = es₁ ++ x :: es₂ ↔
      (es₁ = es ∧ x = e ∧ es₂ = []) ∨ ∃ es₃, es₂ = es₃ ++ [e] ∧ es = es₁ ++ x :: es₃ := by
  constructor
  · intro h
    rcases List.eq_nil_or_concat es₂ with rfl | ⟨es₃, y, rfl⟩
    · obtain ⟨hinit, hlast⟩ := List.append_inj' h rfl
      exact Or.inl ⟨hinit.symm, (List.singleton_inj.mp hlast).symm, rfl⟩
    · rw [List.concat_eq_append, ← List.cons_append, ← List.append_assoc] at h
      obtain ⟨hinit, hlast⟩ := List.append_inj' h rfl
      obtain rfl := List.singleton_inj.mp hlast
      exact Or.inr ⟨es₃, List.concat_eq_append, hinit⟩
  · rintro (⟨rfl, rfl, rfl⟩ | ⟨es₃, rfl, rfl⟩)
    · rfl
    · simp

theorem untested_concat : Untested (es ++ [e]) ↔ e = .eintr ∨ (e ≠ .test ∧ Untested es) := by
  constructor
  · rintro ⟨es₁, es₂, heq, htest⟩
    rcases concat_eq_iff.mp heq with ⟨-, rfl, -⟩ | ⟨es₃, rfl, rfl⟩
    · exact Or.inl rfl
    · have hne : e ≠ .test := fun he => htest (he ▸ List.mem_append_right _ List.mem_cons_self)
      exact Or.inr ⟨hne, es₁, es₃, rfl, fun hmem => htest (List.mem_append_left _ hmem)⟩
  · rintro (rfl | ⟨hne, es₁, es₂, rfl, htest⟩)
    · exact ⟨es, [], rfl, List.not_mem_nil⟩
    · refine ⟨es₁, es₂ ++ [e], by simp, fun hmem => ?_⟩
      rcases List.mem_append.mp hmem with hmem | hmem
      · exact htest hmem
      · exact hne (List.mem_singleton.mp hmem).symm

theorem lost_concat :
    Lost (es ++ [e]) ↔ e ≠ .test ∧ (Lost es ∨ (e = .noChild ∧ Untested es)) := by
  constructor
  · rintro ⟨es₁, es₂, heq, htest, hno⟩
    rcases concat_eq_iff.mp heq with ⟨-, -, rfl⟩ | ⟨es₃, rfl, rfl⟩
    · cases hno
    · have hne : e ≠ .test := fun he => htest (he ▸ List.mem_append_right _ List.mem_cons_self)
      have htest₃ : .test ∉ es₃ := fun hmem => htest (List.mem_append_left _ hmem)
      refine ⟨hne, ?_⟩
      rcases List.mem_append.mp hno with hno | hno
      · exact Or.inl ⟨es₁, es₃, rfl, htest₃, hno⟩
      · exact Or.inr ⟨(List.mem_singleton.mp hno).symm, es₁, es₃, rfl, htest₃⟩
  · rintro ⟨hne, ⟨es₁, es₂, rfl, htest, hno⟩ | ⟨rfl, es₁, es₂, rfl, htest⟩⟩
    · refine ⟨es₁, es₂ ++ [e], by simp, fun hmem => ?_, List.mem_append_left _ hno⟩
      rcases List.mem_append.mp hmem with hmem | hmem
      · exact htest hmem
      · exact hne (List.mem_singleton.mp hmem).symm
    · refine ⟨es₁, es₂ ++ [.noChild], by simp, fun hmem => ?_,
        List.mem_append_right _ List.mem_cons_self⟩
      rcases List.mem_append.mp hmem with hmem | hmem
      · exact htest hmem
      · exact hne (List.mem_singleton.mp hmem).symm

theorem clobbered_concat : Clobbered (es ++ [e]) ↔ Clobbered es ∨ (e = .test ∧ Lost es) := by
  constructor
  · rintro ⟨es₁, es₂, heq, hlost⟩
    rcases concat_eq_iff.mp heq with ⟨rfl, rfl, -⟩ | ⟨es₃, rfl, rfl⟩
    · exact Or.inr ⟨rfl, hlost⟩
    · exact Or.inl ⟨es₁, es₃, rfl, hlost⟩
  · rintro (⟨es₁, es₂, rfl, hlost⟩ | ⟨rfl, hlost⟩)
    · exact ⟨es₁, es₂ ++ [e], by simp, hlost⟩
    · exact ⟨es, [], rfl, hlost⟩

theorem Lost.untested (h : Lost es) : Untested es := by
  obtain ⟨es₁, es₂, heq, htest, -⟩ := h
  exact ⟨es₁, es₂, heq, htest⟩

/-- `main` has ended at `select error` -/
def St.Failed (s : St) : Prop := s.pc = .stopped (.errSys "select error")

structure Tested (es : List Event) (s : St) : Prop where
  failed : s.pc = .failed ↔ Untested es
  errno : s.pc = .failed → (s.errno ≠ EINTR ↔ Lost es)
  stopped : s.Failed ↔ Clobbered es

theorem tested_start : Tested [] start := by
  have hnil : ∀ (es₁ es₂ : List Event) (y : Event), [] ≠ es₁ ++ y :: es₂ := by simp
  refine ⟨iff_of_false nofun ?_, nofun, iff_of_false nofun ?_⟩
  · rintro ⟨es₁, es₂, heq, -⟩
    exact hnil _ _ _ heq
  · rintro ⟨es₁, es₂, heq, -⟩
    exact hnil _ _ _ heq

/-- a step that leaves `errno`, and `main` where it is or away from its test -/
theorem Tested.move (h : Tested es s) (htest : e ≠ .test) (heintr : e ≠ .eintr)
    (hno : e ≠ .noChild) (hpc : t.pc = .failed ↔ s.pc = .failed) (hfailed : t.Failed ↔ s.Failed)
    (herrno : s.pc = .failed → t.errno = s.errno) : Tested (es ++ [e]) t := by
  refine ⟨?_, fun hpc' => ?_, ?_⟩
  · rw [untested_concat, hpc, h.failed]
    simp [htest, heintr]
  · rw [lost_concat, herrno (hpc.mp hpc'), h.errno (hpc.mp hpc')]
    simp [htest, hno]
  · rw [clobbered_concat, hfailed, h.stopped]
    simp [htest]

theorem Tested.eintr (h : Tested es s) (pc : s.pc = .select) : Tested (es ++ [.eintr]) s.eintr := by
  have hno : ¬ Lost es := fun hl => by
    have hpc := h.failed.mpr hl.untested
    rw [pc] at hpc
    cases hpc
  have hrun : ¬ s.Failed := fun hf => by
    unfold St.Failed at hf
    rw [pc] at hf
    cases hf
  refine ⟨iff_of_true rfl (untested_concat.mpr (Or.inl rfl)), fun _ => ?_, ?_⟩
  · rw [lost_concat]
    exact iff_of_false (fun hne => hne rfl) (fun hl => hl.2.elim hno (fun hc => nomatch hc.1))
  · rw [clobbered_concat]
    exact iff_of_false nofun
      (fun hc => hc.elim (fun hc => hrun (h.stopped.mpr hc)) (fun hc => nomatch hc.1))

theorem Tested.test (h : Tested es s) (pc : s.pc = .failed) : Tested (es ++ [.test]) s.test := by
  have hrun : ¬ Clobbered es := fun hc => by
    have hf := h.stopped.mpr hc
    unfold St.Failed at hf
    rw [pc] at hf
    cases hf
  have hpc : s.test.pc ≠ .failed := by
    unfold St.test
    dsimp only
    split <;> nofun
  have hf : s.test.Failed ↔ s.errno ≠ EINTR := by
    unfold St.Failed St.test
    dsimp only
    split
    · rename_i heintr
      exact iff_of_false nofun (fun hne => hne heintr)
    · rename_i hne
      exact iff_of_true rfl hne
  refine ⟨?_, fun hp => absurd hp hpc, ?_⟩
  · rw [untested_concat]
    exact iff_of_false hpc (fun hu => hu.elim nofun (fun hne => hne.1 rfl))
  · rw [clobbered_concat, hf, h.errno pc]
    simp [hrun]

theorem Tested.noChild (h : Tested es s) : Tested (es ++ [.noChild]) (s.done ECHILD) := by
  refine ⟨?_, fun hpc => ?_, ?_⟩
  · rw [untested_concat, ← h.failed]
    simp [St.done]
  · rw [lost_concat]
    exact iff_of_true (show ECHILD ≠ EINTR by decide) ⟨nofun, Or.inr ⟨rfl, h.failed.mp hpc⟩⟩
  · rw [clobbered_concat, ← h.stopped]
    simp [St.Failed, St.done]

theorem Tested.step (h : Tested es s) (hs : Step s e t) : Tested (es ++ [e]) t := by
  -- `main` goes from a statement that is not the test to another
  have hgo : ∀ {u : St} {p : Pc}, s.pc = p → p ≠ .failed → p.running = true → u.pc ≠ .failed →
      u.pc.running = true → e ≠ .test → e ≠ .eintr → e ≠ .noChild → Tested (es ++ [e]) u := by
    intro u p pc hp hrun hu hurun h1 h2 h3
    have hnot : ∀ {v : St}, v.pc.running = true → ¬ v.Failed := fun hv hf => by
      unfold St.Failed at hf
      rw [hf] at hv
      cases hv
    exact h.move h1 h2 h3 (iff_of_false hu (by rw [pc]; exact hp))
      (iff_of_false (hnot hurun) (hnot (by rw [pc]; exact hrun))) (fun hf => absurd (pc ▸ hf) hp)
  cases hs with
  | select main ready =>
    refine hgo main.pc nofun rfl ?_ ?_ nofun nofun nofun
    · unfold St.select
      dsimp only
      split <;> nofun
    · unfold St.select
      dsimp only
      split <;> rfl
  | eintr main interrupted => exact h.eintr main.pc
  | test main => exact h.test main.pc
  | accept connfd rest udp main ready => exact hgo main.pc nofun rfl nofun rfl nofun nofun nofun
  | fork connfd udp main => exact hgo main.pc nofun rfl nofun rfl nofun nofun nofun
  | close connfd udp main =>
    refine hgo main.pc nofun rfl ?_ ?_ nofun nofun nofun
    · cases udp <;> nofun
    · cases udp <;> rfl
  | recvfrom d rest main ready => exact hgo main.pc nofun rfl nofun rfl nofun nofun nofun
  | sendto d main => exact hgo main.pc nofun rfl nofun rfl nofun nofun nofun
  | fail msg off pc =>
    have hmsg : msg ≠ "select error" := by
      rintro rfl
      revert pc
      cases s.pc <;> simp [Pc.error]
    have hne : s.pc ≠ .failed := fun hp => by
      rw [hp] at pc
      cases pc
    have hrun : ¬ s.Failed := fun hf => by
      rw [hf] at pc
      cases pc
    refine h.move nofun nofun nofun (iff_of_false nofun hne) (iff_of_false ?_ hrun)
      (fun hp => absurd hp hne)
    rintro ⟨⟩
    exact hmsg rfl
  | noChild on gone => exact h.noChild
  | deliver pending off run => exact h.move nofun nofun nofun Iff.rfl Iff.rfl (fun _ => rfl)
  | reap i on lt ended => exact h.move nofun nofun nofun Iff.rfl Iff.rfl (fun _ => rfl)
  | noZombie on none some => exact h.move nofun nofun nofun Iff.rfl Iff.rfl (fun _ => rfl)
  | exit i lt runs run => exact h.move nofun nofun nofun Iff.rfl Iff.rfl (fun _ => rfl)
  | connect => exact h.move nofun nofun nofun Iff.rfl Iff.rfl (fun _ => rfl)
  | abort connfd mem => exact h.move nofun nofun nofun Iff.rfl Iff.rfl (fun _ => rfl)
  | datagram d => exact h.move nofun nofun nofun Iff.rfl Iff.rfl (fun _ => rfl)

/-- **Where the server ends at `select error`.**  The runs that end there are those in which
`sig_chld`, between an interrupted `select` and the test of its `errno`, has waited for children until
there were no more: its last `waitpid` leaves `ECHILD` in `errno`. -/
theorem select_error_iff (h : Run Step start es s) :
    s.pc = .stopped (.errSys "select error") ↔ Clobbered es := by
  have htested : Tested es s := by
    induction h with
    | nil => exact tested_start
    | snoc _ hs ih => exact ih.step hs
  exact htested.stopped

/-! ## Accept -/

/-- `main` waits in `Accept` -/
def St.Blocked (s : St) : Prop := (∃ udp, s.pc = .accept udp) ∧ s.queue = []

/-- no client resets the last connection that waits between `select` and `Accept` -/
def Kept (s : St) (e : Event) : Prop :=
  ∀ connfd, e = .abort connfd → (∃ udp, s.pc = .accept udp) → s.queue ≠ [connfd]

/-- `select` has found a datagram, which has not been received yet -/
def Pc.promised : Pc → Bool
  | .accept udp => udp
  | .fork _ udp => udp
  | .close _ udp => udp
  | .recvfrom => true
  | .select => false
  | .failed => false
  | .sendto _ => false
  | .stopped _ => false

/-- the events of `main` -/
def Event.isMain : Event → Bool
  | .select | .eintr | .test | .accept | .fork | .close | .recvfrom | .sendto => true
  | _ => false

theorem Step.promised (hs : Step s e t) (h : s.pc.promised = true → s.datagrams ≠ []) :
    t.pc.promised = true → t.datagrams ≠ [] := by
  cases hs with
  | select main ready =>
    intro hp
    show s.datagrams ≠ []
    unfold St.select at hp
    dsimp only at hp
    split at hp
    · exact of_decide_eq_true hp
    · exact ready.resolve_left ‹_›
  | test main =>
    intro hp
    unfold St.test at hp
    dsimp only at hp
    split at hp <;> cases hp
  | close connfd udp main =>
    rw [main.pc] at h
    cases udp with
    | false => nofun
    | true => exact h
  | accept connfd rest udp main ready =>
    rw [main.pc] at h
    exact h
  | fork connfd udp main =>
    rw [main.pc] at h
    exact h
  | eintr => nofun
  | recvfrom => nofun
  | sendto => nofun
  | fail => nofun
  | deliver => exact h
  | reap => exact h
  | noZombie => exact h
  | noChild => exact h
  | exit => exact h
  | connect => exact h
  | abort => exact h
  | datagram d => exact fun _ => List.append_ne_nil_of_right_ne_nil _ (List.cons_ne_nil _ _)

theorem promised_run (h : Run Step start es s) : s.pc.promised = true → s.datagrams ≠ [] := by
  induction h with
  | nil => exact fun hp => absurd hp Bool.false_ne_true
  | snoc _ hs ih => exact hs.promised ih

/-- `main` waits exactly if the last connection has been reset -/
theorem Step.not_blocked_iff (hs : Step s e t) (h : ¬ s.Blocked) : ¬ t.Blocked ↔ Kept s e := by
  have hother : (∀ connfd, e ≠ .abort connfd) → ¬ t.Blocked → (¬ t.Blocked ↔ Kept s e) :=
    fun hne ht => iff_of_true ht (fun connfd he => absurd he (hne connfd))
  have hpc : ∀ {u : St}, (∀ udp, u.pc ≠ .accept udp) → ¬ u.Blocked :=
    fun hu hb => hb.1.elim hu
  cases hs with
  | select main ready =>
    refine hother nofun fun hb => ?_
    obtain ⟨⟨udp, hudp⟩, hq⟩ := hb
    have hnil : s.queue = [] := hq
    unfold St.select at hudp
    dsimp only at hudp
    rw [if_neg (fun hne => hne hnil)] at hudp
    cases hudp
  | test main =>
    refine hother nofun (hpc fun udp => ?_)
    unfold St.test
    dsimp only
    split <;> nofun
  | close connfd udp main => exact hother nofun (hpc fun _ => by cases udp <;> nofun)
  | eintr main interrupted => exact hother nofun (hpc nofun)
  | accept connfd rest udp main ready => exact hother nofun (hpc nofun)
  | fork connfd udp main => exact hother nofun (hpc nofun)
  | recvfrom d rest main ready => exact hother nofun (hpc nofun)
  | sendto d main => exact hother nofun (hpc nofun)
  | fail msg off pc => exact hother nofun (hpc nofun)
  | deliver pending off run => exact hother nofun h
  | reap i on lt ended => exact hother nofun h
  | noZombie on none some => exact hother nofun h
  | noChild on gone => exact hother nofun h
  | exit i lt runs run => exact hother nofun h
  | datagram d => exact hother nofun h
  | connect =>
    refine hother nofun fun hb => ?_
    exact List.append_ne_nil_of_right_ne_nil _ (List.cons_ne_nil _ _) hb.2
  | abort connfd mem =>
    constructor
    · rintro hb _ ⟨⟩ hacc heq
      refine hb ⟨hacc, ?_⟩
      show s.queue.erase connfd = []
      rw [heq]
      exact List.erase_cons_head ..
    · intro hk hb
      obtain ⟨hacc, hq⟩ := hb
      refine hk connfd rfl hacc ?_
      have hlen : (s.queue.erase connfd).length = 0 := by
        rw [show s.queue.erase connfd = [] from hq]
        rfl
      rw [List.length_erase_of_mem mem] at hlen
      have hpos := List.length_pos_of_mem mem
      obtain ⟨c, hc⟩ := List.length_eq_one_iff.mp (show s.queue.length = 1 by omega)
      rw [hc, List.mem_singleton] at mem
      rw [hc, mem]

/-- `main` can go on if something waits and it is not blocked -/
theorem moves_of_not_blocked (hp : s.pc.promised = true → s.datagrams ≠ [])
    (hrun : s.pc.running = true) (off : s.handler = false)
    (ready : s.queue ≠ [] ∨ s.datagrams ≠ []) (h : ¬ s.Blocked) :
    ∃ e t, e.isMain = true ∧ Step s e t := by
  cases hpc : s.pc with
  | select => exact ⟨_, _, rfl, .select ⟨off, hpc⟩ ready⟩
  | failed => exact ⟨_, _, rfl, .test ⟨off, hpc⟩⟩
  | accept udp =>
    obtain ⟨connfd, rest, hq⟩ := List.exists_cons_of_ne_nil (fun hnil => h ⟨⟨udp, hpc⟩, hnil⟩)
    exact ⟨_, _, rfl, .accept connfd rest udp ⟨off, hpc⟩ hq⟩
  | fork connfd udp => exact ⟨_, _, rfl, .fork connfd udp ⟨off, hpc⟩⟩
  | close connfd udp => exact ⟨_, _, rfl, .close connfd udp ⟨off, hpc⟩⟩
  | recvfrom =>
    obtain ⟨d, rest, hd⟩ := List.exists_cons_of_ne_nil (hp (by rw [hpc]; rfl))
    exact ⟨_, _, rfl, .recvfrom d rest ⟨off, hpc⟩ hd⟩
  | sendto d => exact ⟨_, _, rfl, .sendto d ⟨off, hpc⟩⟩
  | stopped why =>
    rw [hpc] at hrun
    cases hrun

/-- nothing that `main` could do, and no arrival of a datagram, ends the waiting -/
theorem Step.stays_blocked (hs : Step s e t) (h : s.Blocked) :
    e.isMain = false ∧ (t.Blocked ∨ e = .connect ∨ e = .fail "accept error") := by
  obtain ⟨⟨udp, hpc⟩, hq⟩ := h
  have hmain : ∀ {p : Pc}, s.InMain p → p = .accept udp := fun main => main.pc.symm.trans hpc
  cases hs with
  | select main ready => cases hmain main
  | eintr main interrupted => cases hmain main
  | test main => cases hmain main
  | accept connfd rest udp' main ready =>
    rw [hq] at ready
    cases ready
  | fork connfd udp' main => cases hmain main
  | close connfd udp' main => cases hmain main
  | recvfrom d rest main ready => cases hmain main
  | sendto d main => cases hmain main
  | fail msg off pc =>
    rw [hpc] at pc
    obtain rfl := Option.some.inj pc
    exact ⟨rfl, Or.inr (Or.inr rfl)⟩
  | connect => exact ⟨rfl, Or.inr (Or.inl rfl)⟩
  | abort connfd mem =>
    rw [hq] at mem
    cases mem
  | deliver => exact ⟨rfl, Or.inl ⟨⟨udp, hpc⟩, hq⟩⟩
  | reap => exact ⟨rfl, Or.inl ⟨⟨udp, hpc⟩, hq⟩⟩
  | noZombie => exact ⟨rfl, Or.inl ⟨⟨udp, hpc⟩, hq⟩⟩
  | noChild => exact ⟨rfl, Or.inl ⟨⟨udp, hpc⟩, hq⟩⟩
  | exit => exact ⟨rfl, Or.inl ⟨⟨udp, hpc⟩, hq⟩⟩
  | datagram => exact ⟨rfl, Or.inl ⟨⟨udp, hpc⟩, hq⟩⟩

/-- **Where the server waits in `Accept`.**  The runs in which it never does are those in which no
client resets the last connection that waits between `select` and `Accept`.  In every run, if `main`
is not blocked there, it can go on when a connection or a datagram waits; if it is, it serves nothing,
the datagrams included, until the next connection is there. -/
theorem blocked_iff :
    (∀ es s, Run (Obey (fun _ _ u => ¬ u.Blocked) Step) start es s ↔
      Run (When Kept Step) start es s) ∧
    ∀ es s, Run Step start es s →
      (s.pc.running = true → s.handler = false → s.queue ≠ [] ∨ s.datagrams ≠ [] → ¬ s.Blocked →
        ∃ e t, e.isMain = true ∧ Step s e t) ∧
      (s.Blocked → ∀ e t, Step s e t →
        e.isMain = false ∧ (t.Blocked ∨ e = .connect ∨ e = .fail "accept error")) := by
  refine ⟨fun es s => ?_, fun es s h => ⟨fun hrun off ready hb => ?_, fun hb _ _ hs => ?_⟩⟩
  · exact Run.obey_iff_when (fun s => ¬ s.Blocked) (fun hb => nomatch hb.1)
      (fun _ _ _ hb hs => hs.not_blocked_iff hb) (fun _ _ _ hb hs => (hs.2.not_blocked_iff hb).mpr hs.1)
  · exact moves_of_not_blocked (promised_run h) hrun off ready hb
  · exact hs.stays_blocked hb

/-! ## two children -/

/-- the second child ends when `select` has been interrupted by the end of the first -/
theorem select_error_iff_two : ∃ s, Run Step start
    [.connect, .select, .accept, .fork, .close, .connect, .select, .accept, .fork, .close,
      .exit 0, .deliver, .reap 0, .noZombie, .eintr, .exit 1, .deliver, .reap 1, .noChild, .test] s ∧
    s.pc = .stopped (.errSys "select error") := by
  have h1 : Run Step start [.connect, .select, .accept, .fork, .close] _ :=
    ((((Run.single .connect).snoc (.select ⟨rfl, rfl⟩ (Or.inl (List.cons_ne_nil _ _)))).snoc
      (.accept 0 [] false ⟨rfl, rfl⟩ rfl)).snoc (.fork 0 false ⟨rfl, rfl⟩)).snoc
      (.close 0 false ⟨rfl, rfl⟩)
  have h2 := ((((h1.snoc .connect).snoc (.select ⟨rfl, rfl⟩ (Or.inl (List.cons_ne_nil _ _)))).snoc
      (.accept 1 [] false ⟨rfl, rfl⟩ rfl)).snoc (.fork 1 false ⟨rfl, rfl⟩)).snoc
      (.close 1 false ⟨rfl, rfl⟩)
  have h3 := (((h2.snoc (.exit 0 (by decide) rfl rfl)).snoc (.deliver rfl rfl rfl)).snoc
    (.reap 0 rfl (by decide) rfl)).snoc (.noZombie rfl (by decide) ⟨1, by decide, rfl⟩)
  have h4 := (((h3.snoc (.eintr ⟨rfl, rfl⟩ rfl)).snoc (.exit 1 (by decide) rfl rfl)).snoc
    (.deliver rfl rfl rfl)).snoc (.reap 1 rfl (by decide) rfl)
  have h5 := (h4.snoc (.noChild rfl (by decide))).snoc (.test ⟨rfl, rfl⟩)
  refine ⟨_, h5, (select_error_iff h5).mpr ?_⟩
  exact ⟨_, [], rfl, [.connect, .select, .accept, .fork, .close, .connect, .select, .accept, .fork,
    .close, .exit 0, .deliver, .reap 0, .noZombie], [.exit 1, .deliver, .reap 1, .noChild], rfl,
    by decide, by decide⟩

end Unp.TcpUdp
