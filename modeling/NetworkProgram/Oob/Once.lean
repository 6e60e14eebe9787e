import NetworkProgram.Oob.Impl

/-!
# The urgent byte is read once

`justreadoob` is cleared by any `Read`, and the condition that it stands for ends with the first one
past the mark.  The two agree if the urgent byte is read when the program has come to the mark
(`Inv`).  If not, one `Read` later `Recv` is called again (`Doomed`).

* `Inv.step`, `Lost.step`   what a step keeps, on the right way and off it;
* `split`                   a run is under the condition, or lost;
* `once_iff`                the runs in which the urgent byte is read once and all is printed.
-/

namespace Unp.Oob
open Trans

def Line.text : Line → List UInt8
  | .bytes _ text => text
  | _ => []

def State.text (s : State) : List UInt8 := s.out.flatMap Line.text

/-- `Recv` has failed -/
def Pc.stops : Pc → Bool
  | .stopped _ => true
  | _ => false

/-- the program has come to its end -/
def State.Ended (s : State) : Prop := s.pc = .returned ∨ s.pc.stops = true

/-- the run `es` to `s` has one `Recv` at most, and has printed what it has read -/
structure Once (x : Sent) (es : List Event) (s : State) : Prop where
  recv : es.count .recv ≤ 1
  printed : s.text = x.normal.take s.consumed
  all : s.pc = .returned → s.text = x.normal

/-- `Recv` at the mark only, and no NUL among the bytes of a `Read` -/
def AtMark (x : Sent) (s : State) : Event → Prop
  | .recv => s.consumed = x.before.length
  | .read n => 0 ∉ (x.normal.drop s.consumed).take n
  | _ => True

/-- of any run -/
structure Base (x : Sent) (s : State) : Prop where
  arrived : s.arrived ≤ x.length
  fin : s.fin = true → s.arrived = x.length
  le : s.consumed ≤ s.normal x
  stopped : s.pc.stops = true → s.oobRead = true

/-- of a run under the condition -/
structure Inv (x : Sent) (s : State) : Prop where
  text : s.text = x.normal.take s.consumed
  running : s.pc.stops = false
  recv : ∀ rset, s.pc = .recv rset → s.oobRead = false ∧ x.before.length < s.arrived
  early : s.oobRead = false → s.justreadoob = false ∧ s.consumed ≤ x.before.length ∧
    s.pc ≠ .returned ∧ (s.pc = .read → s.consumed < x.before.length)
  late : s.oobRead = true → x.before.length ≤ s.consumed ∧
    (s.justreadoob = true ∨ x.before.length < s.consumed)
  all : s.pc = .returned → s.consumed = x.normal.length

/-- the urgent byte has been read too early -/
structure Doomed (x : Sent) (s : State) : Prop where
  oobRead : s.oobRead = true
  mark : x.before.length < s.arrived
  pc : (s.justreadoob = true ∧ s.consumed < x.before.length ∧ (s.pc = .select ∨ s.pc = .read)) ∨
    (s.justreadoob = false ∧ s.consumed ≤ x.before.length ∧
      (s.pc = .select ∨ ∃ rset, s.pc = .recv rset))

/-- `Recv` has failed, or is going to, or bytes have not been printed -/
def Lost (x : Sent) (s : State) : Prop :=
  s.pc.stops = true ∨ Doomed x s ∨ s.text.length < s.consumed

variable {x : Sent} {s t : State} {e : Event} {es : List Event} {n : Nat} {rset : Bool}

/-! ## the stream -/

theorem normal_le (h : s.arrived ≤ x.length) : s.normal x ≤ x.normal.length := by
  unfold Sent.length at h
  unfold State.normal Sent.normal
  rw [List.length_append]
  split <;> omega

theorem normal_fin (h : s.arrived = x.length) : s.normal x = x.normal.length := by
  unfold Sent.length at h
  unfold State.normal Sent.normal
  rw [List.length_append, h, if_neg (by omega)]
  omega

theorem normal_mono (n : Nat) :
    s.normal x ≤ ({ s with arrived := s.arrived + n } : State).normal x := by
  unfold State.normal
  dsimp only
  split <;> split <;> omega

theorem room_le (h : n ≤ s.room x) (hle : s.consumed ≤ s.normal x) : s.consumed + n ≤ s.normal x := by
  unfold State.room at h
  split at h <;> omega

/-- a `Read` in front of the mark stops there -/
theorem room_mark (h : n ≤ s.room x) (hlt : s.consumed < x.before.length) :
    s.consumed + n ≤ x.before.length := by
  unfold State.room at h
  rw [if_pos hlt] at h
  omega

/-! ## every run -/

theorem base_start : Base x start where
  arrived := Nat.zero_le _
  fin h := by cases h
  le := Nat.zero_le _
  stopped h := by cases h

theorem select_stops {xset rset : Bool} : (s.select xset rset).pc.stops = false := by
  cases xset <;> cases rset <;> rfl

theorem Base.step (h : Base x s) (hs : Step x s e t) : Base x t := by
  cases hs with
  | arrive n le =>
    refine ⟨le, fun hfin => ?_, Nat.le_trans h.le (normal_mono n), h.stopped⟩
    have harr := h.fin hfin
    show s.arrived + n = x.length
    omega
  | fin all => exact ⟨h.arrived, fun _ => all, h.le, h.stopped⟩
  | select pc ready =>
    exact ⟨h.arrived, h.fin, h.le, fun hpc => absurd (select_stops.symm.trans hpc) Bool.false_ne_true⟩
  | @recv rset pc =>
    unfold State.recv
    split
    · exact ⟨h.arrived, h.fin, h.le, fun _ => ‹_›⟩
    · exact ⟨h.arrived, h.fin, h.le, fun _ => rfl⟩
  | read n pc pos le => exact ⟨h.arrived, h.fin, room_le le h.le, (fun hpc => by cases hpc)⟩
  | eof pc all end_ => exact ⟨h.arrived, h.fin, h.le, (fun hpc => by cases hpc)⟩

theorem text_read : (s.read x n).text = s.text ++ cstr ((x.normal.drop s.consumed).take n) := by
  unfold State.text State.read
  rw [List.flatMap_append]
  exact congrArg (_ ++ ·) (List.append_nil _)

theorem recv_first (h : s.oobRead = false) : s.recv x rset =
    { s with
      pc := if rset then .read else .select
      justreadoob := true
      oobRead := true
      out := s.out ++ [.oob 1 (cstr [x.urgent])] } := by
  unfold State.recv
  rw [h, if_neg Bool.false_ne_true]

theorem recv_again (h : s.oobRead = true) :
    s.recv x rset = { s with pc := .stopped (.errSys "recv error") } := if_pos h

theorem text_recv (x : Sent) (s : State) (rset : Bool) : (s.recv x rset).text = s.text := by
  unfold State.recv
  split
  · rfl
  · unfold State.text
    rw [List.flatMap_append]
    exact List.append_nil _

/-! ## runs under the condition -/

theorem inv_start : Inv x start where
  text := rfl
  running := rfl
  recv _ h := by cases h
  early _ := ⟨rfl, Nat.zero_le _, (fun h => by cases h), (fun h => by cases h)⟩
  late h := by cases h
  all h := by cases h

/-- `Select` reports the mark if the urgent byte has not been read -/
theorem Inv.select (hb : Base x s) (h : Inv x s)
    (ready : ((!s.justreadoob && s.exceptional x) || s.readable x) = true) :
    Inv x (s.select (!s.justreadoob && s.exceptional x) (s.readable x)) := by
  unfold State.select
  by_cases hx : (!s.justreadoob && s.exceptional x) = true
  · obtain ⟨hjust, hexc⟩ := (Bool.and_eq_true _ _).mp hx
    obtain ⟨hmark, hle⟩ := (Bool.and_eq_true _ _).mp hexc
    rw [Bool.not_eq_true'] at hjust
    rw [decide_eq_true_iff] at hmark hle
    have hoob : s.oobRead = false := by
      by_contra hne
      rcases (h.late (eq_true_of_ne_false hne)).2 with hj | hlt
      · exact absurd (hjust.symm.trans hj) Bool.false_ne_true
      · omega
    rw [if_pos hx]
    exact ⟨h.text, rfl, fun _ _ => ⟨hoob, hmark⟩,
      fun _ => ⟨hjust, hle, (fun hpc => by cases hpc), (fun hpc => by cases hpc)⟩, h.late,
      (fun hpc => by cases hpc)⟩
  · rw [if_neg hx]
    have hrset : s.readable x = true := by
      rcases (Bool.or_eq_true _ _).mp ready with hxset | hrset
      · exact absurd hxset hx
      · exact hrset
    rw [if_pos hrset]
    refine ⟨h.text, rfl, (fun _ hpc => by cases hpc), fun hoob => ?_, h.late,
      (fun hpc => by cases hpc)⟩
    obtain ⟨hjust, hle, _, _⟩ := h.early hoob
    refine ⟨hjust, hle, (fun hpc => by cases hpc), fun _ => ?_⟩
    -- the mark has not arrived, so there is something in front of it to read
    have harr : s.arrived ≤ x.before.length := by
      by_contra hgt
      apply hx
      unfold State.exceptional
      rw [hjust, decide_eq_true (Nat.lt_of_not_le hgt), decide_eq_true hle]
      rfl
    have hlen : x.length = x.before.length + 1 + x.behind.length := rfl
    rcases (Bool.or_eq_true _ _).mp hrset with hlt | hfin
    · rw [decide_eq_true_iff] at hlt
      unfold State.normal at hlt
      rw [if_pos harr] at hlt
      show s.consumed < x.before.length
      omega
    · have hall := hb.fin hfin
      omega

theorem Inv.read (h : Inv x s) (pc : s.pc = .read) (pos : 0 < n)
    (le : n ≤ s.room x) (hnul : 0 ∉ (x.normal.drop s.consumed).take n) : Inv x (s.read x n) := by
  refine ⟨?_, rfl, (fun _ hpc => by cases hpc), fun hoob => ?_, fun hoob => ?_,
    (fun hpc => by cases hpc)⟩
  · rw [text_read, cstr_of_not_mem hnul, h.text]
    exact List.take_add.symm
  · have hlt := (h.early hoob).2.2.2 pc
    exact ⟨rfl, room_mark le hlt, (fun hpc => by cases hpc), (fun hpc => by cases hpc)⟩
  · have hge := (h.late hoob).1
    show x.before.length ≤ s.consumed + n ∧ (_ ∨ x.before.length < s.consumed + n)
    exact ⟨by omega, Or.inr (by omega)⟩

theorem Inv.step (hb : Base x s) (h : Inv x s) (hs : When (AtMark x) (Step x) s e t) : Inv x t := by
  obtain ⟨hmark, hs⟩ := hs
  cases hs with
  | arrive n le =>
    exact ⟨h.text, h.running, fun rset hpc => ⟨(h.recv rset hpc).1,
      Nat.lt_of_lt_of_le (h.recv rset hpc).2 (Nat.le_add_right ..)⟩, h.early, h.late, h.all⟩
  | fin all => exact ⟨h.text, h.running, h.recv, h.early, h.late, h.all⟩
  | select pc ready => exact h.select hb ready
  | @recv rset pc =>
    have htext := text_recv x s rset
    rw [recv_first (h.recv rset pc).1] at htext ⊢
    refine ⟨htext.trans h.text, ?_, fun _ hpc => ?_, (fun hc => by cases hc),
      fun _ => ⟨Nat.le_of_eq hmark.symm, Or.inl rfl⟩, fun hpc => ?_⟩
    · cases rset <;> rfl
    · cases rset <;> cases hpc
    · cases rset <;> cases hpc
  | read n pc pos le => exact h.read pc pos le hmark
  | eof pc all end_ =>
    have hnormal := normal_fin (hb.fin end_)
    have hge := normal_le (x := x) (s := s) hb.arrived
    have hle := hb.le
    have htext : s.text = x.normal.take s.consumed := h.text
    refine ⟨?_, rfl, (fun _ hpc => by cases hpc), fun hoob => ?_, h.late, fun _ => ?_⟩
    · rw [← htext]
      unfold State.text
      rw [List.flatMap_append]
      exact List.append_nil _
    · have hlt := (h.early hoob).2.2.2 pc
      have hlen : x.normal.length = x.before.length + x.behind.length := List.length_append
      omega
    · show s.consumed = x.normal.length
      omega

/-! ## runs off the condition -/

theorem cstr_take_le (l : List UInt8) (n : Nat) : (cstr (l.take n)).length ≤ n :=
  Nat.le_trans (cstr_length_le _) (List.length_take_le ..)

/-- `Recv` is called again -/
theorem Doomed.step (h : Doomed x s) (hs : Step x s e t) :
    t.pc.stops = true ∨ Doomed x t := by
  obtain ⟨hoob, hmark, hpc⟩ := h
  cases hs with
  | arrive n le => exact Or.inr ⟨hoob, Nat.lt_of_lt_of_le hmark (Nat.le_add_right ..), hpc⟩
  | fin all => exact Or.inr ⟨hoob, hmark, hpc⟩
  | select pc ready =>
    refine Or.inr ⟨hoob, hmark, ?_⟩
    rcases hpc with ⟨hjust, hlt, _⟩ | ⟨hjust, hle, _⟩
    · refine Or.inl ⟨hjust, hlt, ?_⟩
      unfold State.select
      rw [hjust]
      cases s.readable x with
      | true => exact Or.inr rfl
      | false => exact Or.inl rfl
    · have hexc : s.exceptional x = true := by
        unfold State.exceptional
        rw [decide_eq_true hmark, decide_eq_true hle]
        rfl
      refine Or.inr ⟨hjust, hle, Or.inr ⟨s.readable x, ?_⟩⟩
      unfold State.select
      rw [hjust, hexc]
      rfl
  | recv pc =>
    rw [recv_again hoob]
    exact Or.inl rfl
  | read n pc pos le =>
    rcases hpc with ⟨_, hlt, _⟩ | ⟨_, _, hpc | ⟨rset, hpc⟩⟩
    · exact Or.inr ⟨hoob, hmark, Or.inr ⟨rfl, room_mark le hlt, Or.inl rfl⟩⟩
    · exact absurd (pc.symm.trans hpc) (by decide)
    · exact absurd (pc.symm.trans hpc) (by simp)
  | eof pc all end_ =>
    rcases hpc with ⟨_, hlt, _⟩ | ⟨_, _, hpc | ⟨rset, hpc⟩⟩
    · -- what is in front of the mark has arrived and has not been read
      unfold State.normal at all
      split at all <;> omega
    · exact absurd (pc.symm.trans hpc) (by decide)
    · exact absurd (pc.symm.trans hpc) (by simp)

theorem Doomed.not_ended (h : Doomed x s) : ¬ s.Ended := by
  have hpc : s.pc = .select ∨ s.pc = .read ∨ ∃ rset, s.pc = .recv rset := by
    rcases h.pc with ⟨_, _, hpc | hpc⟩ | ⟨_, _, hpc | hpc⟩
    · exact Or.inl hpc
    · exact Or.inr (Or.inl hpc)
    · exact Or.inl hpc
    · exact Or.inr (Or.inr hpc)
  unfold State.Ended
  rcases hpc with hpc | hpc | ⟨rset, hpc⟩
  · rw [hpc]
    decide
  · rw [hpc]
    decide
  · rw [hpc]
    rintro (hret | hstop)
    · cases hret
    · cases hstop

theorem stopped_step (h : s.pc.stops = true) (hs : Step x s e t) : t.pc.stops = true := by
  cases hs with
  | arrive n le => exact h
  | fin all => exact h
  | select pc ready =>
    rw [pc] at h
    cases h
  | recv pc =>
    rw [pc] at h
    cases h
  | read n pc pos le =>
    rw [pc] at h
    cases h
  | eof pc all end_ =>
    rw [pc] at h
    cases h

theorem short_step (h : s.text.length < s.consumed) (hs : Step x s e t) :
    t.text.length < t.consumed := by
  cases hs with
  | arrive n le => exact h
  | fin all => exact h
  | select pc ready => exact h
  | recv pc =>
    rw [text_recv]
    unfold State.recv
    split
    · exact h
    · exact h
  | read n pc pos le =>
    have hle := cstr_take_le (x.normal.drop s.consumed) n
    rw [text_read, List.length_append]
    show _ < s.consumed + n
    omega
  | eof pc all end_ =>
    unfold State.text at h ⊢
    rw [List.flatMap_append]
    rwa [show [Line.eof].flatMap Line.text = [] from rfl, List.append_nil]

theorem Lost.step (h : Lost x s) (hs : Step x s e t) : Lost x t := by
  rcases h with hstop | hdoomed | hshort
  · exact Or.inl (stopped_step hstop hs)
  · rcases hdoomed.step hs with hstop | hdoomed
    · exact Or.inl hstop
    · exact Or.inr (Or.inl hdoomed)
  · exact Or.inr (Or.inr (short_step hshort hs))

theorem Inv.lost (hb : Base x s) (h : Inv x s) (hs : Step x s e t) (hnot : ¬ AtMark x s e) :
    Lost x t := by
  cases hs with
  | arrive n le => exact absurd trivial hnot
  | fin all => exact absurd trivial hnot
  | select pc ready => exact absurd trivial hnot
  | @recv rset pc =>
    obtain ⟨hoob, hmark⟩ := h.recv rset pc
    have hle := (h.early hoob).2.1
    have hlt : s.consumed < x.before.length := Nat.lt_of_le_of_ne hle hnot
    rw [recv_first hoob]
    refine Or.inr (Or.inl ⟨rfl, hmark, Or.inl ⟨rfl, hlt, ?_⟩⟩)
    cases rset with
    | true => exact Or.inr rfl
    | false => exact Or.inl rfl
  | read n pc pos le =>
    refine Or.inr (Or.inr ?_)
    have hnul : 0 ∈ (x.normal.drop s.consumed).take n := not_not.mp hnot
    have hsum := Nat.le_trans (room_le le hb.le) (normal_le hb.arrived)
    have hlen : ((x.normal.drop s.consumed).take n).length = n := by
      rw [List.length_take, List.length_drop]
      omega
    have hcut := cstr_length_lt hnul
    rw [text_read, List.length_append, h.text, List.length_take]
    show _ < s.consumed + n
    omega
  | eof pc all end_ => exact absurd trivial hnot

/-! ## the runs -/

theorem run_base (h : Run (Step x) start es s) : Base x s :=
  h.inv base_start (fun _ _ _ hb hs => hb.step hs)

theorem run_inv (h : Run (When (AtMark x) (Step x)) start es s) : Inv x s := by
  induction h with
  | nil => exact inv_start
  | snoc hrun hs ih => exact ih.step (run_base hrun.of_when) hs

/-- **A run is under the condition, or it is lost.** -/
theorem split (h : Run (Step x) start es s) :
    Run (When (AtMark x) (Step x)) start es s ∨ Lost x s := by
  induction h with
  | nil => exact Or.inl Run.nil
  | @snoc es s e t hrun hs ih =>
    have hb := run_base hrun
    rcases ih with hwhen | hlost
    · by_cases hmark : AtMark x s e
      · exact Or.inl (hwhen.snoc ⟨hmark, hs⟩)
      · exact Or.inr ((run_inv hwhen).lost hb hs hmark)
    · exact Or.inr (hlost.step hs)

/-- the calls of `Recv`: the one that reads the byte, and the one that fails -/
def State.recvs (s : State) : Nat := s.oobRead.toNat + s.pc.stops.toNat

theorem recvs_step (hs : Step x s e t) : t.recvs = s.recvs + [e].count .recv := by
  unfold State.recvs
  cases hs with
  | arrive n le => rfl
  | fin all => rfl
  | select pc ready =>
    rw [pc, select_stops]
    rfl
  | @recv rset pc =>
    rw [pc]
    cases hoob : s.oobRead with
    | true =>
      rw [recv_again hoob]
      dsimp only
      rw [hoob]
      rfl
    | false =>
      rw [recv_first hoob]
      cases rset <;> rfl
  | read n pc pos le =>
    rw [pc]
    rfl
  | eof pc all end_ =>
    rw [pc]
    rfl

theorem count_recv (h : Run (Step x) start es s) : es.count .recv = s.recvs := by
  induction h with
  | nil => rfl
  | snoc _ hs ih => rw [List.count_append, ih, recvs_step hs]

theorem once_of_when (h : Run (When (AtMark x) (Step x)) start es s) : Once x es s := by
  have hinv := run_inv h
  refine ⟨?_, hinv.text, fun hpc => ?_⟩
  · rw [count_recv h.of_when]
    unfold State.recvs
    rw [hinv.running]
    exact Bool.toNat_le _
  · rw [hinv.text, hinv.all hpc, List.take_length]

theorem not_once_of_lost (h : Run (Step x) start es s) (hend : s.Ended) (hlost : Lost x s) :
    ¬ Once x es s := by
  intro honce
  have hb := run_base h
  rcases hlost with hpc | hdoomed | hshort
  · have hcount := count_recv h
    unfold State.recvs at hcount
    rw [hb.stopped hpc, hpc] at hcount
    exact absurd (hcount.symm.trans_le honce.recv) (by decide)
  · exact hdoomed.not_ended hend
  · have hle := Nat.le_trans hb.le (normal_le hb.arrived)
    rw [honce.printed, List.length_take] at hshort
    omega

/-- **The urgent byte is read once and all is printed** in the runs that call `Recv` at the mark and
read no NUL, and in no others that come to an end. -/
theorem once_iff (x : Sent) :
    (∀ es s, Run (When (AtMark x) (Step x)) start es s → Once x es s) ∧
    ∀ es s, s.Ended → Run (Step x) start es s →
      (Once x es s ↔ Run (When (AtMark x) (Step x)) start es s) :=
  ⟨fun _ _ => once_of_when, fun _ _ hend h =>
    ⟨fun honce => (split h).resolve_right (fun hlost => not_once_of_lost h hend hlost honce),
      once_of_when⟩⟩

/-! ## abc and an urgent byte -/

def abc : Sent := ⟨[97, 98, 99], 33, []⟩

/-- the urgent byte comes when `abc` has been read -/
theorem once_abc : Once abc [.arrive 3, .select, .read 3, .arrive 1, .select, .recv, .fin, .select, .eof]
    ⟨.returned, true, 4, true, 3, true, [.bytes 3 [97, 98, 99], .oob 1 [33], .eof]⟩ :=
  (once_iff abc).1 _ _ <|
    ((((((((Run.single ⟨trivial, Step.arrive 3 (by decide)⟩).snoc
      ⟨trivial, Step.select rfl rfl⟩).snoc
      ⟨(by decide : (0 : UInt8) ∉ [97, 98, 99]), Step.read 3 rfl (by decide) (by decide)⟩).snoc
      ⟨trivial, Step.arrive 1 (by decide)⟩).snoc
      ⟨trivial, Step.select rfl rfl⟩).snoc
      ⟨rfl, Step.recv rfl⟩).snoc
      ⟨trivial, Step.fin rfl⟩).snoc
      ⟨trivial, Step.select rfl rfl⟩).snoc
      ⟨trivial, Step.eof rfl (by decide) rfl⟩

/-- it comes with them: after one `Read`, `Recv` is called again -/
theorem not_once : ¬ ∀ (x : Sent) (es : List Event) (s : State),
    Run (Step x) start es s → Once x es s := by
  intro h
  have hrun : Run (Step abc) start [.arrive 4, .select, .recv, .read 3, .select, .recv]
      ⟨.stopped (.errSys "recv error"), false, 4, false, 3, true,
        [.oob 1 [33], .bytes 3 [97, 98, 99]]⟩ :=
    (((((Run.single (Step.arrive 4 (by decide))).snoc
      (Step.select rfl rfl)).snoc
      (Step.recv rfl)).snoc
      (Step.read 3 rfl (by decide) (by decide))).snoc
      (Step.select rfl rfl)).snoc
      (Step.recv rfl)
  exact absurd (h _ _ _ hrun).recv (by decide)

end Unp.Oob
