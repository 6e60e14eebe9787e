import NetworkProgram.StringEcho5.Cover

/-!
# What `client[]` holds at first

The first client comes when `Poll` has reported `listenfd` alone, which ends the iteration at its
`Accept`.  Any entry after the first may be looked at in the iteration that fills it: clients fill
those before it one after the other (`full_run`), and a hang-up, which the `for` does not count,
leads it past them (`stale_run`).

* `Full`                 the entries up to `k` have descriptors, and those beyond are untouched;
* `Bounded`              entry 1 is not looked at in the iteration that fills it;
* `reads_covered_iff`    which runs are covered, and for which content of the array all of them are.
-/

namespace Unp.StringEcho5
open Finset Trans

variable {mem : Nat → PollFd} {s t : St} {e : Event} {i k : Nat} {connfd : Int}
  {revents : Nat → UInt16}

/-! ## one client after the other -/

structure Full (mem : Nat → PollFd) (k : Nat) (s : St) : Prop where
  pc : s.pc = .head
  maxi : s.maxi = k
  events : ∀ i ≤ k, (s.client i).events = POLLRDNORM
  used : ∀ i ≤ k, 0 ≤ (s.client i).fd
  free : ∀ i, k < i → (s.client i).fd = -1
  blank : ∀ i, k < i → (s.client i).revents = (mem i).revents

theorem full_start (inherited : Finset Int) (listenfd : Nat) (buf : Nat → UInt8) :
    Full mem 0 (start inherited listenfd mem buf) where
  pc := rfl
  maxi := rfl
  events := by
    intro i hi
    obtain rfl := Nat.le_zero.mp hi
    rfl
  used := by
    intro i hi
    obtain rfl := Nat.le_zero.mp hi
    exact Int.natCast_nonneg listenfd
  free := by
    intro i hi
    show (Function.update (fun i => { mem i with fd := -1 }) 0 _ i).fd = -1
    rw [Function.update_of_ne (Nat.pos_iff_ne_zero.mp hi)]
  blank := by
    intro i hi
    show (Function.update (fun i => { mem i with fd := -1 }) 0 _ i).revents = _
    rw [Function.update_of_ne (Nat.pos_iff_ne_zero.mp hi)]

theorem Full.polled (h : Full mem k s) (hi : i ≤ k) :
    (s.poll revents).client i = { s.client i with revents := revents i } := by
  have hle : i ≤ s.maxi := by rw [h.maxi]; exact hi
  have hentry : (s.poll revents).client i = (s.client i).polled (revents i) := if_pos hle
  rw [hentry]
  unfold PollFd.polled
  rw [if_neg (not_lt.mpr (h.used i hi))]

theorem Full.beyond (h : Full mem k s) (hi : k < i) : (s.poll revents).client i = s.client i := by
  have hgt : ¬ i ≤ s.maxi := by rw [h.maxi]; omega
  exact if_neg hgt

/-- `listenfd` is reported -/
theorem Full.poll_pc (h : Full mem k s) (h0 : revents 0 = POLLRDNORM) :
    (s.poll revents).pc = .accept := by
  have hbit : ((s.poll revents).client 0).revents &&& POLLRDNORM ≠ 0 := by
    rw [h.polled (Nat.zero_le k)]
    show revents 0 &&& POLLRDNORM ≠ 0
    rw [h0]
    decide
  exact if_pos hbit

theorem Full.nready (h : Full mem k s) :
    (s.poll revents).nready = #((range (k + 1)).filter (fun i => revents i ≠ 0)) := by
  have hcount : (s.poll revents).nready
      = #((range (s.maxi + 1)).filter (fun i => ((s.poll revents).client i).reported)) := rfl
  rw [hcount, h.maxi]
  congr 2
  apply filter_congr
  intro i hi
  rw [h.polled (Nat.lt_succ_iff.mp (mem_range.mp hi))]
  exact decide_eq_true_iff

theorem Full.poll (h : Full mem k s) (h0 : revents 0 = POLLRDNORM)
    (hmay : ∀ i, 1 ≤ i → revents i = 0 ∨ revents i = POLLHUP) :
    Step s (.poll revents) (s.poll revents) := by
  apply Step.poll revents h.pc
  · intro i hi
    have hev := h.events i (by rw [← h.maxi]; exact hi)
    unfold PollFd.mayReport
    rw [hev]
    rcases Nat.eq_zero_or_pos i with rfl | hpos
    · rw [h0]
      decide
    · rcases hmay i hpos with hz | hh
      · rw [hz]
        decide
      · rw [hh]
        decide
  · refine ⟨0, Nat.zero_le _, ?_⟩
    rw [h.polled (Nat.zero_le k)]
    show decide (revents 0 ≠ 0) = true
    rw [h0]
    decide

/-- the first entry without a descriptor is `k + 1` -/
theorem Full.slot (h : Full mem k s) (hk : k + 1 < FOPEN_MAX) :
    firstFree (fun i => ((s.poll revents).client i).fd) (FOPEN_MAX - 1) 1 = some (k + 1) := by
  apply firstFree_eq (Nat.succ_le_succ (Nat.zero_le k)) (by omega)
  · rw [h.beyond (Nat.lt_succ_self k), h.free (k + 1) (Nat.lt_succ_self k)]
    decide
  · intro i _ hi
    rw [h.polled (Nat.lt_succ_iff.mp hi)]
    exact h.used i (Nat.lt_succ_iff.mp hi)

/-- the connection in its entry -/
def St.storeAt (s : St) (i : Nat) (connfd : Int) : St :=
  { s with
    opened := insert connfd s.opened
    client := Function.update s.client i ⟨connfd, POLLRDNORM, (s.client i).revents⟩
    maxi := i }

theorem Full.accept (h : Full mem k s) (hk : k + 1 < FOPEN_MAX) :
    (s.poll revents).accept connfd = ((s.poll revents).storeAt (k + 1) connfd).next (.scan 1) := by
  have hmaxi : (s.poll revents).maxi = k := h.maxi
  unfold St.accept
  dsimp only
  rw [h.slot hk]
  dsimp only
  rw [show (St.setClient { s.poll revents with opened := insert connfd (s.poll revents).opened }
    (k + 1) ⟨connfd, POLLRDNORM, ((s.poll revents).client (k + 1)).revents⟩).maxi = k from hmaxi,
    if_pos (Nat.lt_succ_self k)]
  rfl

/-- `Poll` reports `listenfd` alone: the connection is stored, and the iteration over -/
theorem Full.next (h : Full mem k s) (hk : k + 1 < FOPEN_MAX) (h0 : 0 ≤ connfd) :
    Full mem (k + 1) ((s.poll (only 0)).accept connfd) := by
  have hnready : (s.poll (only 0)).nready = 1 := by
    have hone : (range (k + 1)).filter (fun i => only 0 i ≠ 0) = {0} := by
      ext i
      rw [mem_filter, mem_singleton, mem_range]
      unfold only
      constructor
      · rintro ⟨_, hi⟩
        by_contra hne
        rw [if_neg hne] at hi
        exact hi rfl
      · rintro rfl
        exact ⟨Nat.succ_pos k, by decide⟩
    rw [h.nready, hone]
    rfl
  have hentry : ∀ i, i ≠ k + 1 → ((s.poll (only 0)).storeAt (k + 1) connfd).client i
      = (s.poll (only 0)).client i := fun i hi => Function.update_of_ne hi ..
  have hnew : ((s.poll (only 0)).storeAt (k + 1) connfd).client (k + 1)
      = ⟨connfd, POLLRDNORM, ((s.poll (only 0)).client (k + 1)).revents⟩ := Function.update_self ..
  rw [h.accept hk]
  refine ⟨?_, rfl, ?_, ?_, ?_, ?_⟩
  · show (if (s.poll (only 0)).nready - 1 ≤ 0 then Pc.head else .scan 1) = .head
    rw [hnready]
    rfl
  · intro i hi
    show (((s.poll (only 0)).storeAt (k + 1) connfd).client i).events = _
    by_cases hik : i = k + 1
    · rw [hik, hnew]
    · have hle : i ≤ k := by omega
      rw [hentry i hik, h.polled hle]
      exact h.events i hle
  · intro i hi
    show 0 ≤ (((s.poll (only 0)).storeAt (k + 1) connfd).client i).fd
    by_cases hik : i = k + 1
    · rw [hik, hnew]
      exact h0
    · have hle : i ≤ k := by omega
      rw [hentry i hik, h.polled hle]
      exact h.used i hle
  · intro i hi
    show (((s.poll (only 0)).storeAt (k + 1) connfd).client i).fd = -1
    rw [hentry i (by omega), h.beyond (by omega)]
    exact h.free i (by omega)
  · intro i hi
    show (((s.poll (only 0)).storeAt (k + 1) connfd).client i).revents = _
    rw [hentry i (by omega), h.beyond (by omega)]
    exact h.blank i (by omega)

theorem exists_unused (opened : Finset Int) : ∃ connfd, 0 ≤ connfd ∧ connfd ∉ opened := by
  obtain ⟨n, hn⟩ := Infinite.exists_notMem_finset (opened.image Int.toNat)
  exact ⟨n, Int.natCast_nonneg n, fun hc => hn (mem_image_of_mem Int.toNat hc)⟩

theorem full_run (inherited : Finset Int) (listenfd : Nat) (buf : Nat → UInt8) (hk : k < FOPEN_MAX) :
    ∃ es s, Run Step (start inherited listenfd mem buf) es s ∧ Full mem k s := by
  induction k with
  | zero => exact ⟨[], _, Run.nil, full_start inherited listenfd buf⟩
  | succ k ih =>
    obtain ⟨es, s, hrun, hfull⟩ := ih (Nat.lt_of_succ_lt hk)
    obtain ⟨connfd, h0, hnew⟩ := exists_unused (s.poll (only 0)).opened
    have hpoll : Step s (.poll (only 0)) (s.poll (only 0)) :=
      hfull.poll rfl (fun i hi => Or.inl (if_neg (Nat.pos_iff_ne_zero.mp hi)))
    have haccept := (hrun.snoc hpoll).snoc (Step.accept connfd (hfull.poll_pc rfl) h0 hnew)
    exact ⟨_, _, haccept, hfull.next hk h0⟩

/-! ## a hang-up -/

/-- `Poll` reports `listenfd`, and a hang-up for entry `k` -/
def hangUpOf (k : Nat) : Nat → UInt16 := fun i => if i = k then POLLHUP else only 0 i

theorem hangUpOf_zero (hk : 1 ≤ k) : hangUpOf k 0 = POLLRDNORM := by
  have hne : ¬ 0 = k := by omega
  unfold hangUpOf
  rw [if_neg hne]
  rfl

theorem hangUpOf_pos (k : Nat) (hi : 1 ≤ i) : hangUpOf k i = 0 ∨ hangUpOf k i = POLLHUP := by
  unfold hangUpOf
  split
  · exact Or.inr rfl
  · exact Or.inl (if_neg (Nat.pos_iff_ne_zero.mp hi))

/-- the state after the next `Accept`: the `for` begins, and has one entry yet to count -/
theorem Full.hangUp (h : Full mem k s) (h1 : 1 ≤ k) (hk : k + 1 < FOPEN_MAX) :
    ((s.poll (hangUpOf k)).accept connfd).pc = .scan 1 := by
  have htwo : (range (k + 1)).filter (fun i => hangUpOf k i ≠ 0) = {0, k} := by
    ext i
    rw [mem_filter, mem_insert, mem_singleton, mem_range]
    constructor
    · rintro ⟨_, hi⟩
      by_contra hne
      rw [not_or] at hne
      apply hi
      unfold hangUpOf only
      rw [if_neg hne.2, if_neg hne.1]
    · rintro (rfl | rfl)
      · refine ⟨Nat.succ_pos k, ?_⟩
        rw [hangUpOf_zero h1]
        decide
      · refine ⟨Nat.lt_succ_self i, ?_⟩
        unfold hangUpOf
        rw [if_pos rfl]
        decide
  have hnready : (s.poll (hangUpOf k)).nready = 2 := by
    rw [h.nready, htwo, card_pair (by omega)]
    rfl
  rw [h.accept hk]
  show (if (s.poll (hangUpOf k)).nready - 1 ≤ 0 then Pc.head else .scan 1) = .scan 1
  rw [hnready]
  rfl

/-- the `for` passes over the entries up to `j`, and comes to entry `j + 1` -/
theorem skips {es : List Event} (hpc : t.pc = .scan 1) (h : Run Step s es t) {j : Nat}
    (hle : j ≤ t.maxi) (hnot : ∀ i, 1 ≤ i → i ≤ j → (t.client i).ready = false) :
    ∃ es', Run Step s es' { t with pc := .scan (j + 1) } := by
  induction j with
  | zero =>
    have hsame : { t with pc := .scan 1 } = t := by rw [← hpc]
    exact ⟨es, hsame.symm ▸ h⟩
  | succ j ih =>
    obtain ⟨es', hrun⟩ := ih (Nat.le_of_succ_le hle) (fun i h1 hi => hnot i h1 (Nat.le_succ_of_le hi))
    have hskip := Step.skip (s := { t with pc := .scan (j + 1) }) (j + 1) rfl hle
      (Or.inr (hnot (j + 1) (Nat.succ_le_succ (Nat.zero_le j)) (Nat.le_refl _)))
    exact ⟨es' ++ [.skip], hrun.snoc hskip⟩

/-- **An entry with a stale bit is read.**  Every entry after the first can be the one that no
`Poll` has covered. -/
theorem stale_run (inherited : Finset Int) (listenfd : Nat) (buf : Nat → UInt8) (h2 : 2 ≤ i)
    (hi : i < FOPEN_MAX) (hready : (mem i).ready = true) :
    ∃ es s t, Run Step (start inherited listenfd mem buf) es s ∧ Step s (.read .eof) t ∧
      ¬ Covered s (.read .eof) t := by
  obtain ⟨k, rfl⟩ : ∃ k, i = k + 1 := ⟨i - 1, by omega⟩
  have h1 : 1 ≤ k := by omega
  obtain ⟨es, s, hrun, hfull⟩ :
      ∃ es s, Run Step (start inherited listenfd mem buf) es s ∧ Full mem k s :=
    full_run inherited listenfd buf (Nat.lt_of_succ_lt hi)
  obtain ⟨connfd, h0, hnew⟩ := exists_unused (s.poll (hangUpOf k)).opened
  have hpoll := hrun.snoc (hfull.poll (hangUpOf_zero h1) (fun i hi => hangUpOf_pos k hi))
  have haccept := hpoll.snoc (Step.accept connfd (hfull.poll_pc (hangUpOf_zero h1)) h0 hnew)
  have hstate : (s.poll (hangUpOf k)).accept connfd
      = ((s.poll (hangUpOf k)).storeAt (k + 1) connfd).next (.scan 1) := hfull.accept hi
  have hbeyond : (s.poll (hangUpOf k)).client (k + 1) = s.client (k + 1) :=
    hfull.beyond (Nat.lt_succ_self k)
  have hentry : ∀ j ≤ k, ((s.poll (hangUpOf k)).accept connfd).client j
      = { s.client j with revents := hangUpOf k j } := by
    intro j hj
    have hne : j ≠ k + 1 := by omega
    rw [hstate, ← hfull.polled hj]
    exact Function.update_of_ne hne ..
  have hlast : ((s.poll (hangUpOf k)).accept connfd).client (k + 1)
      = ⟨connfd, POLLRDNORM, (mem (k + 1)).revents⟩ := by
    rw [hstate, ← hfull.blank (k + 1) (Nat.lt_succ_self k), ← hbeyond]
    exact Function.update_self ..
  have hmaxi : ((s.poll (hangUpOf k)).accept connfd).maxi = k + 1 := by
    rw [hstate]
    rfl
  have hpolled : ((s.poll (hangUpOf k)).accept connfd).polledMaxi = k := by
    rw [hstate]
    exact hfull.maxi
  obtain ⟨es', hscan⟩ := skips (hfull.hangUp h1 hi) haccept (j := k) (by omega) (by
    intro j hj1 hj
    rw [hentry j hj]
    show decide (hangUpOf k j &&& (POLLRDNORM ||| POLLERR) ≠ 0) = false
    rcases hangUpOf_pos k hj1 with hz | hh
    · rw [hz]
      decide
    · rw [hh]
      decide)
  refine ⟨es', _, _, hscan, Step.read (k + 1) .eof rfl (le_of_eq hmaxi.symm) ?_ ?_, ?_⟩
  · rw [hlast]
    exact h0
  · rw [hlast]
    exact hready
  · intro hcovered
    have hle : k + 1 ≤ ((s.poll (hangUpOf k)).accept connfd).polledMaxi :=
      (hcovered .eof (k + 1) rfl rfl).1
    rw [hpolled] at hle
    omega

/-! ## all runs -/

/-- where `Poll` covers `listenfd` alone, the `for` finds no client -/
structure Bounded (s : St) : Prop where
  top : s.maxi < FOPEN_MAX
  first : s.pc = .accept → s.maxi = s.polledMaxi ∧ (s.polledMaxi = 0 → s.nready ≤ 1)
  alone : ∀ i, s.pc.ahead i → s.polledMaxi = 0 → s.maxi = 0
  pos : s.pc ≠ .accept → ∀ i, s.pc.ahead i → 1 ≤ i

theorem bounded_start (inherited : Finset Int) (listenfd : Int) (buf : Nat → UInt8) :
    Bounded (start inherited listenfd mem buf) where
  top := (by decide : 0 < FOPEN_MAX)
  first := fun hpc => by cases hpc
  alone := fun _ _ _ => rfl
  pos := fun _ _ hahead => hahead.elim

theorem Bounded.poll (h : Bounded s) (revents : Nat → UInt16) : Bounded (s.poll revents) where
  top := h.top
  first := by
    intro _
    refine ⟨rfl, ?_⟩
    intro hzero
    have hzero' : s.maxi = 0 := hzero
    have hle : Tally.count (range (s.maxi + 1)) PollFd.reported (s.poll revents).client
        ≤ #(range (s.maxi + 1)) := Tally.count_le
    rw [card_range, hzero'] at hle
    have hnready : (s.poll revents).nready
        = Tally.count (range (s.maxi + 1)) PollFd.reported (s.poll revents).client := rfl
    rw [hnready, hzero']
    omega
  alone := fun _ _ hzero => hzero
  pos := by
    intro hpc i hahead
    have hif : (s.poll revents).pc
        = if ((s.poll revents).client 0).revents &&& POLLRDNORM ≠ 0 then .accept else .scan 1 := rfl
    rw [hif] at hpc hahead
    split at hahead
    · rename_i hbit
      exact absurd (if_pos hbit) hpc
    · exact hahead

/-- the loop goes on, or the process ends -/
theorem Bounded.goto (h : Bounded s) (hmaxi : t.maxi = s.maxi) (hpolled : t.polledMaxi = s.polledMaxi)
    (hahead : ∀ i, t.pc.ahead i → s.pc.ahead i ∧ 1 ≤ i) (hpc : t.pc ≠ .accept) : Bounded t where
  top := by
    rw [hmaxi]
    exact h.top
  first := fun hc => absurd hc hpc
  alone := by
    intro i hi
    rw [hmaxi, hpolled]
    exact h.alone i (hahead i hi).1
  pos := fun _ i hi => (hahead i hi).2

theorem Bounded.accept (h : Bounded s) (hpc : s.pc = .accept) (connfd : Int) :
    Bounded (s.accept connfd) := by
  obtain ⟨_, hone⟩ := h.first hpc
  unfold St.accept
  dsimp only
  split
  · exact h.goto rfl rfl (fun _ hc => hc.elim) (fun hc => by cases hc)
  · rename_i i hi
    obtain ⟨_, hlt, _⟩ := firstFree_some hi
    refine ⟨?_, ?_, ?_, ?_⟩
    · show (if i > s.maxi then i else s.maxi) < FOPEN_MAX
      have htop := h.top
      have hsize : FOPEN_MAX = 16 := rfl
      split <;> omega
    · intro hc
      exact absurd hc (next_not_accept _ _)
    · -- the only report was that of `listenfd`
      intro j hj hzero
      have hlast : s.nready - 1 ≤ 0 := by
        have hle := hone hzero
        omega
      have hhead : Pc.ahead (if s.nready - 1 ≤ 0 then .head else .scan 1) j := hj
      rw [if_pos hlast] at hhead
      exact hhead.elim
    · intro _ j hj
      exact next_ahead _ _ hj

theorem Bounded.read (h : Bounded s) (hpc : s.pc = .scan i) (sockfd : Int)
    (r : ReadRes UInt8 MAXLINE) : Bounded (s.read i sockfd r) := by
  have h1 : 1 ≤ i := h.pos (by rw [hpc]; exact fun hc => by cases hc) i (by rw [hpc]; exact Nat.le_refl i)
  have hon : ∀ j, i + 1 ≤ j → s.pc.ahead j ∧ 1 ≤ j := by
    intro j hj
    rw [hpc]
    exact ⟨Nat.le_of_succ_le hj, Nat.le_trans h1 (Nat.le_of_succ_le hj)⟩
  unfold St.read
  dsimp only
  split
  · split
    · exact h.goto rfl rfl (fun j hj => hon j (next_ahead _ _ hj))
        (next_not_accept _ _)
    · exact h.goto rfl rfl (fun _ hc => hc.elim) (fun hc => by cases hc)
  · split
    · exact h.goto rfl rfl (fun j hj => hon j (next_ahead _ _ hj))
        (next_not_accept _ _)
    · exact h.goto rfl rfl hon (fun hc => by cases hc)

theorem Bounded.step (h : Bounded s) (hs : Step s e t) : Bounded t := by
  cases hs with
  | poll revents pc may some => exact h.poll revents
  | accept connfd pc nonneg unused => exact h.accept pc connfd
  | read i r pc le used ready => exact h.read pc _ r
  | writen i sockfd n ws w pc returns =>
    unfold St.writen
    dsimp only
    split
    · exact h.goto rfl rfl (fun _ hc => hc.elim) (fun hc => by cases hc)
    · refine h.goto rfl rfl ?_ (next_not_accept _ _)
      intro j hj
      have hlt : i < j := next_ahead _ _ hj
      rw [pc]
      exact ⟨hlt, Nat.one_le_of_lt hlt⟩
  | skip i pc le notready =>
    refine h.goto rfl rfl ?_ (fun hc => by cases hc)
    intro j hj
    have hlt : i < j := hj
    rw [pc]
    exact ⟨Nat.le_of_lt hlt, Nat.one_le_of_lt hlt⟩
  | last i pc gt => exact h.goto rfl rfl (fun _ hc => hc.elim) (fun hc => by cases hc)
  | fail msg running => exact h.goto rfl rfl (fun _ hc => hc.elim) (fun hc => by cases hc)

/-- with no stale bit in the entries after the first, every `read` is of a blank entry -/
theorem Bounded.blank (h : Bounded s) (hmem : ∀ i, 2 ≤ i → i < FOPEN_MAX → (mem i).ready = false)
    (hs : Step s e t) : Blank mem s e := by
  cases hs with
  | read i r pc le used ready =>
    intro j hj hlt
    obtain rfl := Pc.scan.inj (pc.symm.trans hj)
    have htop := h.top
    apply hmem i _ (by omega)
    by_contra hlow
    have hzero := h.alone i (by rw [pc]; exact Nat.le_refl i) (by omega)
    omega
  | _ => trivial

/-- **Reads and `Poll`.**  Each `read` of a run is on a descriptor for which the last `Poll` has
reported `POLLRDNORM` or `POLLERR`, exactly if in every entry that the `for` reads and no `Poll` has
set the array held neither of the two bits at first.  Every `read` of every run is, exactly if the
array held neither of them in any entry from the third on. -/
theorem reads_covered_iff (inherited : Finset Int) (listenfd : Nat) (mem : Nat → PollFd)
    (buf : Nat → UInt8) :
    (∀ es s, Run (Obey Covered Step) (start inherited listenfd mem buf) es s ↔
      Run (When (Blank mem) Step) (start inherited listenfd mem buf) es s) ∧
    ((∀ es s, Run Step (start inherited listenfd mem buf) es s →
        ∀ e t, Step s e t → Covered s e t) ↔
      ∀ i, 2 ≤ i → i < FOPEN_MAX → (mem i).ready = false) := by
  refine ⟨fun es s => covered_iff inherited listenfd mem buf es s, ?_, ?_⟩
  · intro hall i h2 hi
    by_contra hready
    obtain ⟨es, s, t, hrun, hread, hnot⟩ :=
      stale_run inherited listenfd buf h2 hi (eq_true_of_ne_false hready)
    exact hnot (hall es s hrun _ t hread)
  · intro hmem es s h e t hs
    have hseen : Seen mem s :=
      h.inv (seen_start inherited listenfd buf) (fun _ _ _ hseen hs => hseen.step hs)
    have hbounded : Bounded s :=
      h.inv (bounded_start inherited listenfd buf) (fun _ _ _ hb hs => hb.step hs)
    exact (hseen.covered_step hs).mpr (hbounded.blank hmem hs)

end Unp.StringEcho5
