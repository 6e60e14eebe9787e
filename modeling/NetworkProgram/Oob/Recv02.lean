import NetworkProgram.Oob.Once

/-!
# tcprecv02 asks for urgent data again

`oob/tcprecv02/main.cpp`: `tcprecv03` without `justreadoob`, which its steps set and never look at.
The mark is reported until a `Read` has gone past it, so that only the `Read` that comes right behind
`Recv`, and from the mark, keeps `Recv` from being called again.

* `Step02`          the step relation;
* `Inv02`, `Due`    what a step keeps, on the right way and off it;
* `returns_iff`     the runs that end well, which are runs of `tcprecv03`.
-/

namespace Unp.Oob
open Trans

inductive Step02 (x : Sent) (s : State) : Event → State → Prop where
  | select (pc : s.pc = .select) (ready : (s.exceptional x || s.readable x) = true) :
      Step02 x s .select (s.select (s.exceptional x) (s.readable x))
  | other {e : Event} {t : State} (step : Step x s e t) (ne : e ≠ .select) : Step02 x s e t

/-- `Recv` at the mark only, and with something to read behind it -/
def Behind (x : Sent) (s : State) : Event → Prop
  | .recv => s.pc = .recv true ∧ s.consumed = x.before.length
  | _ => True

/-- of a run under the condition -/
structure Inv02 (x : Sent) (s : State) : Prop where
  running : s.pc.stops = false
  recv : ∀ rset, s.pc = .recv rset → s.oobRead = false ∧ x.before.length < s.arrived
  early : s.oobRead = false → s.justreadoob = false ∧ s.consumed ≤ x.before.length ∧
    s.pc ≠ .returned ∧ (s.pc = .read → s.consumed < x.before.length)
  late : s.oobRead = true → s.pc = .returned ∨ (s.pc = .read ∧ s.consumed = x.before.length) ∨
    x.before.length < s.consumed

/-- the urgent byte has been read, and the mark is still reported -/
structure Due (x : Sent) (s : State) : Prop where
  oobRead : s.oobRead = true
  mark : x.before.length < s.arrived
  le : s.consumed ≤ x.before.length
  pc : s.pc = .select ∨ (∃ rset, s.pc = .recv rset) ∨ (s.pc = .read ∧ s.consumed < x.before.length)

variable {x : Sent} {s t : State} {e : Event} {es : List Event}

/-! ## every run -/

theorem Base.step02 (h : Base x s) (hs : Step02 x s e t) : Base x t := by
  cases hs with
  | select pc ready =>
    exact ⟨h.arrived, h.fin, h.le, fun hpc => absurd (select_stops.symm.trans hpc) Bool.false_ne_true⟩
  | other step ne => exact h.step step

theorem run_base02 (h : Run (Step02 x) start es s) : Base x s :=
  h.inv base_start (fun _ _ _ hb hs => hb.step02 hs)

/-! ## runs under the condition -/

theorem inv02_start : Inv02 x start where
  running := rfl
  recv _ h := by cases h
  early _ := ⟨rfl, Nat.zero_le _, (fun h => by cases h), (fun h => by cases h)⟩
  late h := by cases h

/-- back at `Select`, the mark has been passed -/
theorem Inv02.passed (h : Inv02 x s) (pc : s.pc = .select) (hoob : s.oobRead = true) :
    x.before.length < s.consumed := by
  rcases h.late hoob with hpc | ⟨hpc, _⟩ | hlt
  · exact absurd (pc.symm.trans hpc) (by decide)
  · exact absurd (pc.symm.trans hpc) (by decide)
  · exact hlt

/-- where the mark is reported, the urgent byte has not been read -/
theorem Inv02.at_mark (h : Inv02 x s) (pc : s.pc = .select) (hexc : s.exceptional x = true) :
    s.oobRead = false ∧ x.before.length < s.arrived ∧ s.consumed ≤ x.before.length := by
  obtain ⟨hmark, hle⟩ := (Bool.and_eq_true _ _).mp hexc
  rw [decide_eq_true_iff] at hmark hle
  refine ⟨?_, hmark, hle⟩
  by_contra hne
  have hlt := h.passed pc (eq_true_of_ne_false hne)
  omega

/-- nothing has been read behind the mark, and what is readable is in front of it -/
theorem before_mark (hb : Base x s) (hle : s.consumed ≤ x.before.length)
    (hexc : s.exceptional x = false) (hrset : s.readable x = true) : s.consumed < x.before.length := by
  have harr : s.arrived ≤ x.before.length := by
    by_contra hgt
    unfold State.exceptional at hexc
    rw [decide_eq_true (Nat.lt_of_not_le hgt), decide_eq_true hle] at hexc
    cases hexc
  have hlen : x.length = x.before.length + 1 + x.behind.length := rfl
  rcases (Bool.or_eq_true _ _).mp hrset with hlt | hfin
  · rw [decide_eq_true_iff] at hlt
    unfold State.normal at hlt
    rw [if_pos harr] at hlt
    omega
  · have hall := hb.fin hfin
    omega

theorem Inv02.select (hb : Base x s) (h : Inv02 x s) (pc : s.pc = .select)
    (ready : (s.exceptional x || s.readable x) = true) :
    Inv02 x (s.select (s.exceptional x) (s.readable x)) := by
  unfold State.select
  cases hexc : s.exceptional x with
  | true =>
    obtain ⟨hoob, hmark, hle⟩ := h.at_mark pc hexc
    have hjust := (h.early hoob).1
    exact ⟨rfl, fun _ _ => ⟨hoob, hmark⟩,
      fun _ => ⟨hjust, hle, (fun hpc => by cases hpc), (fun hpc => by cases hpc)⟩,
      fun hc => absurd (hoob.symm.trans hc) Bool.false_ne_true⟩
  | false =>
    have hrset : s.readable x = true := by rwa [hexc, Bool.false_or] at ready
    rw [if_neg Bool.false_ne_true, if_pos hrset]
    refine ⟨rfl, (fun _ hpc => by cases hpc), fun hoob => ?_, fun hoob => ?_⟩
    · obtain ⟨hjust, hle, _, _⟩ := h.early hoob
      have hlt := before_mark hb hle hexc hrset
      exact ⟨hjust, hle, (fun hpc => by cases hpc), fun _ => hlt⟩
    · exact Or.inr (Or.inr (h.passed pc hoob))

theorem Inv02.step (hb : Base x s) (h : Inv02 x s) (hs : When (Behind x) (Step02 x) s e t) :
    Inv02 x t := by
  obtain ⟨hbehind, hs⟩ := hs
  cases hs with
  | select pc ready => exact h.select hb pc ready
  | other step ne =>
    cases step with
    | arrive n le =>
      exact ⟨h.running, fun rset hpc => ⟨(h.recv rset hpc).1,
        Nat.lt_of_lt_of_le (h.recv rset hpc).2 (Nat.le_add_right ..)⟩, h.early, h.late⟩
    | fin all => exact ⟨h.running, h.recv, h.early, h.late⟩
    | select => exact absurd rfl ne
    | @recv rset pc =>
      obtain ⟨hpc, hmark⟩ := hbehind
      obtain rfl := Pc.recv.inj (pc.symm.trans hpc)
      rw [recv_first (h.recv _ pc).1]
      exact ⟨rfl, (fun _ hpc => by cases hpc), (fun hc => by cases hc),
        fun _ => Or.inr (Or.inl ⟨rfl, hmark⟩)⟩
    | read n pc pos le =>
      refine ⟨rfl, (fun _ hpc => by cases hpc), fun hoob => ?_, fun hoob => ?_⟩
      · have hlt := (h.early hoob).2.2.2 pc
        exact ⟨rfl, room_mark le hlt, (fun hpc => by cases hpc), (fun hpc => by cases hpc)⟩
      · refine Or.inr (Or.inr ?_)
        show x.before.length < s.consumed + n
        rcases h.late hoob with hpc | ⟨_, heq⟩ | hlt
        · exact absurd (pc.symm.trans hpc) (by decide)
        · omega
        · omega
    | eof pc all end_ =>
      refine ⟨rfl, (fun _ hpc => by cases hpc), fun hoob => ?_, fun _ => Or.inl rfl⟩
      have hlt := (h.early hoob).2.2.2 pc
      have hnormal := normal_fin (hb.fin end_)
      have hlen : x.normal.length = x.before.length + x.behind.length := List.length_append
      omega

/-- on the right way `justreadoob` makes no difference -/
theorem Inv02.step03 (h : Inv02 x s) (hs : Step02 x s e t) : Step x s e t := by
  cases hs with
  | select pc ready =>
    have hsame : (!s.justreadoob && s.exceptional x) = s.exceptional x := by
      cases hexc : s.exceptional x with
      | false => exact Bool.and_false _
      | true => rw [(h.early (h.at_mark pc hexc).1).1]; rfl
    have hstep : Step x s .select (s.select (!s.justreadoob && s.exceptional x) (s.readable x)) :=
      .select pc (by rw [hsame]; exact ready)
    rwa [hsame] at hstep
  | other step ne => exact step

/-! ## runs off the condition -/

theorem Due.step (h : Due x s) (hs : Step02 x s e t) : t.pc.stops = true ∨ Due x t := by
  obtain ⟨hoob, hmark, hle, hpc⟩ := h
  cases hs with
  | select pc ready =>
    have hexc : s.exceptional x = true := by
      unfold State.exceptional
      rw [decide_eq_true hmark, decide_eq_true hle]
      rfl
    rw [hexc]
    exact Or.inr ⟨hoob, hmark, hle, Or.inr (Or.inl ⟨_, rfl⟩)⟩
  | other step ne =>
    cases step with
    | arrive n le => exact Or.inr ⟨hoob, Nat.lt_of_lt_of_le hmark (Nat.le_add_right ..), hle, hpc⟩
    | fin all => exact Or.inr ⟨hoob, hmark, hle, hpc⟩
    | select => exact absurd rfl ne
    | recv pc =>
      rw [recv_again hoob]
      exact Or.inl rfl
    | read n pc pos le =>
      rcases hpc with hpc | ⟨rset, hpc⟩ | ⟨_, hlt⟩
      · exact absurd (pc.symm.trans hpc) (by decide)
      · exact absurd (pc.symm.trans hpc) (by simp)
      · exact Or.inr ⟨hoob, hmark, room_mark le hlt, Or.inl rfl⟩
    | eof pc all end_ =>
      rcases hpc with hpc | ⟨rset, hpc⟩ | ⟨_, hlt⟩
      · exact absurd (pc.symm.trans hpc) (by decide)
      · exact absurd (pc.symm.trans hpc) (by simp)
      · unfold State.normal at all
        split at all <;> omega

theorem stopped_step02 (h : s.pc.stops = true) (hs : Step02 x s e t) : t.pc.stops = true := by
  cases hs with
  | select pc ready =>
    rw [pc] at h
    cases h
  | other step ne => exact stopped_step h step

theorem Inv02.due (h : Inv02 x s) (hs : Step02 x s e t) (hnot : ¬ Behind x s e) : Due x t := by
  cases hs with
  | select pc ready => exact absurd trivial hnot
  | other step ne =>
    cases step with
    | arrive n le => exact absurd trivial hnot
    | fin all => exact absurd trivial hnot
    | select => exact absurd rfl ne
    | @recv rset pc =>
      obtain ⟨hoob, hmark⟩ := h.recv rset pc
      have hle := (h.early hoob).2.1
      rw [recv_first hoob]
      refine ⟨rfl, hmark, hle, ?_⟩
      cases rset with
      | true =>
        have hne : s.consumed ≠ x.before.length := fun heq => hnot ⟨pc, heq⟩
        exact Or.inr (Or.inr ⟨rfl, Nat.lt_of_le_of_ne hle hne⟩)
      | false => exact Or.inl rfl
    | read n pc pos le => exact absurd trivial hnot
    | eof pc all end_ => exact absurd trivial hnot

/-! ## the runs -/

theorem run_inv02 (h : Run (When (Behind x) (Step02 x)) start es s) : Inv02 x s := by
  induction h with
  | nil => exact inv02_start
  | snoc hrun hs ih => exact ih.step (run_base02 hrun.of_when) hs

/-- a run is under the condition, or `Recv` has failed, or is going to -/
theorem split02 (h : Run (Step02 x) start es s) :
    Run (When (Behind x) (Step02 x)) start es s ∨ s.pc.stops = true ∨ Due x s := by
  induction h with
  | nil => exact Or.inl Run.nil
  | @snoc es s e t hrun hs ih =>
    rcases ih with hwhen | hstop | hdue
    · by_cases hbehind : Behind x s e
      · exact Or.inl (hwhen.snoc ⟨hbehind, hs⟩)
      · exact Or.inr (Or.inr ((run_inv02 hwhen).due hs hbehind))
    · exact Or.inr (Or.inl (stopped_step02 hstop hs))
    · exact Or.inr (hdue.step hs)

theorem Due.not_returned (h : Due x s) : s.pc ≠ .returned := by
  rcases h.pc with hpc | ⟨rset, hpc⟩ | ⟨hpc, _⟩
  · rw [hpc]
    decide
  · rw [hpc]
    exact Pc.noConfusion
  · rw [hpc]
    decide

theorem run03 (h : Run (When (Behind x) (Step02 x)) start es s) : Run (Step x) start es s := by
  induction h with
  | nil => exact Run.nil
  | snoc hrun hs ih => exact ih.snoc ((run_inv02 hrun).step03 hs.2)

/-- **`tcprecv02` ends well only if the urgent byte is read at the mark, with something to read behind
it;** otherwise its `Recv` fails.  A run that ends well is one of `tcprecv03` too. -/
theorem returns_iff (x : Sent) (es : List Event) (s : State) (h : Run (Step02 x) start es s)
    (hend : s.Ended) :
    (s.pc = .returned ↔ Run (When (Behind x) (Step02 x)) start es s) ∧
    (s.pc = .returned → Run (Step x) start es s) := by
  have hiff : s.pc = .returned ↔ Run (When (Behind x) (Step02 x)) start es s := by
    constructor
    · intro hpc
      rcases split02 h with hwhen | hstop | hdue
      · exact hwhen
      · rw [hpc] at hstop
        cases hstop
      · exact absurd hpc hdue.not_returned
    · intro hwhen
      rcases hend with hpc | hstop
      · exact hpc
      · exact absurd ((run_inv02 hwhen).running.symm.trans hstop) Bool.false_ne_true
  exact ⟨hiff, fun hpc => run03 (hiff.mp hpc)⟩

/-- `abc` has been read, and `d` comes with the urgent byte -/
theorem returns_iff_behind : Run (Step ⟨[97, 98, 99], 33, [100]⟩) start
    [.arrive 3, .select, .read 3, .arrive 2, .select, .recv, .read 1, .fin, .select, .eof]
    ⟨.returned, false, 5, true, 4, true,
      [.bytes 3 [97, 98, 99], .oob 1 [33], .bytes 1 [100], .eof]⟩ := by
  have h1 := Run.single (Step02.other (x := ⟨[97, 98, 99], 33, [100]⟩) (s := start)
    (.arrive 3 (by decide)) (by decide))
  have h2 := h1.snoc (.select rfl rfl)
  have h3 := h2.snoc (.other (.read 3 rfl (by decide) (by decide)) (by decide))
  have h4 := h3.snoc (.other (.arrive 2 (by decide)) (by decide))
  have h5 := h4.snoc (.select rfl rfl)
  have h6 := h5.snoc (.other (.recv rfl) (by decide))
  have h7 := h6.snoc (.other (.read 1 rfl (by decide) (by decide)) (by decide))
  have h8 := h7.snoc (.other (.fin rfl) (by decide))
  have h9 := h8.snoc (.select rfl rfl)
  have h10 := h9.snoc (.other (.eof rfl (by decide) rfl) (by decide))
  exact (returns_iff _ _ _ h10 (Or.inl rfl)).2 rfl

end Unp.Oob
