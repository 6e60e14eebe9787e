import NetworkProgram.Lib.Run
import NetworkProgram.WebChild.Impl

/-!
# Which bytes of `result` reach the client

`result` has `MAXLINE` bytes, and a request may be for `MAXN`.  `Child` is `web_child` with a step for
each call of `write`, and keeps the indices of the bytes that have been written.

* `webChild_run`      what `webChild` does is a run of it;
* `result_safe_iff`   for which connections no index is outside of the array.
-/

namespace Unp.WebChild
open Trans

/-- at `Readline`, or in the loop of `writen` with `nleft > 0` -/
inductive Pc where
  | readline
  | write (nleft ptr : Nat)
  | returned
  | stopped (why : Stop)

structure Child where
  pc : Pc
  st : Statics UInt8
  feed : Feed UInt8
  /-- the indices in `result` of the bytes written -/
  sent : List Nat

def begin (st : Statics UInt8) (feed : Feed UInt8) : Child := ⟨.readline, st, feed, []⟩

/-- `Readline`, and the test of the request -/
def Child.readline (s : Child) : Child :=
  let r := Unp.readline isNl MAXLINE s.st s.feed
  let s := { s with st := r.st, feed := r.feed }
  match turn r.line.ret r.line.stored with
  | .closed => { s with pc := .returned }
  | .stopped why => { s with pc := .stopped why }
  | .writen n => { s with pc := .write n 0 }

/-- `write(fd, ptr, nleft)` in the loop of `writen` -/
def Child.write (s : Child) (nleft ptr : Nat) (w : (len : Nat) → WriteRes len) : Child :=
  match w nleft with
  | .wrote k _ =>
    if k ≤ 0 then { s with pc := .stopped (.errSys "writen error") }
    else
      { s with
        pc := if nleft - k = 0 then .readline else .write (nleft - k) (ptr + k)
        sent := s.sent ++ List.range' ptr k }
  | .err e => if e = EINTR then s else { s with pc := .stopped (.errSys "writen error") }

inductive Event where
  | line
  | write (w : (len : Nat) → WriteRes len)

inductive Step (s : Child) : Event → Child → Prop where
  | line (pc : s.pc = .readline) : Step s .line s.readline
  | write {nleft ptr : Nat} (w : (len : Nat) → WriteRes len) (pc : s.pc = .write nleft ptr) :
      Step s (.write w) (s.write nleft ptr w)

/-- no byte from outside of the array has been written -/
def InArray (s : Child) : Prop := ∀ i ∈ s.sent, i < MAXLINE

/-- what is left in `read_buf` and on the connection after `k` lines -/
def after (st : Statics UInt8) (feed : Feed UInt8) : Nat → Statics UInt8 × Feed UInt8
  | 0 => (st, feed)
  | k + 1 =>
    let r := Unp.readline isNl MAXLINE (after st feed k).1 (after st feed k).2
    (r.st, r.feed)

def nextLine (st : Statics UInt8) (feed : Feed UInt8) : Turn :=
  let r := Unp.readline isNl MAXLINE st feed
  turn r.line.ret r.line.stored

def lineAt (st : Statics UInt8) (feed : Feed UInt8) (k : Nat) : Turn :=
  nextLine (after st feed k).1 (after st feed k).2

/-- the lines before line `k` are requests that are served -/
def ServedBefore (st : Statics UInt8) (feed : Feed UInt8) (k : Nat) : Prop :=
  ∀ j < k, ∃ m, lineAt st feed j = .writen m

/-- no request that is served is for more than the array has -/
def Small (st : Statics UInt8) (feed : Feed UInt8) : Prop :=
  ∀ k n, ServedBefore st feed k → lineAt st feed k = .writen n → n ≤ MAXLINE

variable {s t : Child} {nleft ptr n k : Nat} {vptr : Nat → UInt8} {result : Result} {out pre : List UInt8}
  {ws : Writes} {w : Written UInt8} {st : Statics UInt8} {feed : Feed UInt8}

/-! ## one step -/

theorem map_range' : (List.range' ptr k).map vptr = memory vptr ptr k := by
  rw [List.range'_eq_map_range, List.map_map]
  rfl

def Turn.pc : Turn → Pc
  | .closed => .returned
  | .stopped why => .stopped why
  | .writen n => .write n 0

theorem readline_eq (s : Child) :
    s.readline = ⟨(nextLine s.st s.feed).pc, (after s.st s.feed 1).1, (after s.st s.feed 1).2, s.sent⟩ := by
  unfold Child.readline nextLine
  dsimp only
  cases turn (Unp.readline isNl MAXLINE s.st s.feed).line.ret
    (Unp.readline isNl MAXLINE s.st s.feed).line.stored <;> rfl

theorem readline_after (h : after st feed k = (s.st, s.feed)) :
    s.readline = ⟨(lineAt st feed k).pc, (after st feed (k + 1)).1, (after st feed (k + 1)).2, s.sent⟩ := by
  rw [readline_eq]
  unfold lineAt
  simp only [after, h]

theorem ServedBefore.succ {m : Nat} (h : ServedBefore st feed k) (hk : lineAt st feed k = .writen m) :
    ServedBefore st feed (k + 1) := by
  intro j hj
  rcases Nat.lt_succ_iff_lt_or_eq.mp hj with hlt | rfl
  · exact h j hlt
  · exact ⟨m, hk⟩

theorem write_all (s : Child) (ptr : Nat) (hpos : 0 < nleft) :
    s.write nleft ptr takeAll = { s with pc := .readline, sent := s.sent ++ List.range' ptr nleft } := by
  unfold Child.write takeAll
  dsimp only
  rw [if_neg (Nat.not_le_of_lt hpos), if_pos (Nat.sub_self nleft)]

/-! ## the indices written -/

def Pc.Live : Pc → Prop
  | .readline => True
  | .write _ _ => True
  | _ => False

structure Inv (st : Statics UInt8) (feed : Feed UInt8) (s : Child) : Prop where
  read : s.pc.Live → ∃ k, after st feed k = (s.st, s.feed) ∧ ServedBefore st feed k
  room : ∀ nleft ptr, s.pc = .write nleft ptr → ptr + nleft ≤ MAXLINE
  sent : InArray s

/-- `web_child` has returned, or the process has ended -/
theorem Inv.ended (h : InArray s) (hpc : ¬ s.pc.Live) : Inv st feed s where
  read hl := absurd hl hpc
  room _ _ hw := absurd (by rw [hw]; trivial) hpc
  sent := h

theorem inv_begin : Inv st feed (begin st feed) where
  read _ := ⟨0, rfl, fun _ hj => absurd hj (Nat.not_lt_zero _)⟩
  room _ _ hpc := by cases hpc
  sent _ hi := absurd hi List.not_mem_nil

theorem Inv.line (hsmall : Small st feed) (h : Inv st feed s) (pc : s.pc = .readline) :
    Inv st feed s.readline := by
  obtain ⟨k, hk, hbefore⟩ := h.read (by rw [pc]; trivial)
  rw [readline_after hk]
  cases hline : lineAt st feed k with
  | closed => exact Inv.ended h.sent not_false
  | stopped why => exact Inv.ended h.sent not_false
  | writen n =>
    refine ⟨fun _ => ⟨k + 1, rfl, hbefore.succ hline⟩, ?_, h.sent⟩
    rintro _ _ ⟨⟩
    rw [Nat.zero_add]
    exact hsmall k n hbefore hline

/-- `ptr` and `nleft` stay within the request -/
theorem Inv.write (h : Inv st feed s) (pc : s.pc = .write nleft ptr)
    (w : (len : Nat) → WriteRes len) : Inv st feed (s.write nleft ptr w) := by
  have hread := h.read (by rw [pc]; trivial)
  have hroom := h.room nleft ptr pc
  unfold Child.write
  cases w nleft with
  | wrote k le =>
    dsimp only
    split
    · exact Inv.ended h.sent not_false
    · refine ⟨fun _ => hread, fun nleft' ptr' hpc => ?_, fun i hi => ?_⟩
      · dsimp only at hpc
        split at hpc
        · cases hpc
        · cases hpc
          omega
      · rcases List.mem_append.mp hi with hold | hnew
        · exact h.sent i hold
        · have hlt := (List.mem_range'_1.mp hnew).2
          omega
  | err e =>
    dsimp only
    split
    · exact h
    · exact Inv.ended h.sent not_false

theorem Inv.step {ev : Event} (hsmall : Small st feed) (h : Inv st feed s) (hs : Step s ev t) :
    Inv st feed t := by
  cases hs with
  | line pc => exact h.line hsmall pc
  | write w pc => exact h.write pc w

/-- a request that is served, with one `write` that takes everything -/
theorem serve_all (hpc : s.pc = .readline) (hk : after st feed k = (s.st, s.feed))
    (hn : lineAt st feed k = .writen n) : Run Step s [.line, .write takeAll]
      ⟨.readline, (after st feed (k + 1)).1, (after st feed (k + 1)).2,
        s.sent ++ List.range' 0 n⟩ := by
  have hline := Run.single (Step.line hpc)
  have hwrite := write_all s.readline 0 (turn_writen hn).1
  have hread := readline_after hk
  rw [hn] at hread
  have hrun := hline.snoc (Step.write takeAll (show s.readline.pc = .write n 0 by rw [hread]; rfl))
  rw [hwrite, hread] at hrun
  exact hrun

/-- `web_child` comes to line `k` if the lines before it are served -/
theorem line_reached (h : ServedBefore st feed k) : ∃ es t, Run Step (begin st feed) es t ∧
    t.pc = .readline ∧ after st feed k = (t.st, t.feed) := by
  induction k with
  | zero => exact ⟨[], _, Run.nil, rfl, rfl⟩
  | succ k ih =>
    obtain ⟨es, s, hrun, hpc, hk⟩ := ih (fun j hj => h j (Nat.lt_succ_of_lt hj))
    obtain ⟨n, hn⟩ := h k (Nat.lt_succ_self k)
    exact ⟨_, _, hrun.trans (serve_all hpc hk hn), rfl, rfl⟩

/-- **Which connections get bytes of `result` only.**  Whatever `write` takes, the bytes sent are in
the array, exactly when no request that is served is for more than `MAXLINE` bytes. -/
theorem result_safe_iff (st : Statics UInt8) (feed : Feed UInt8) :
    (∀ es t, Run Step (begin st feed) es t → InArray t) ↔ Small st feed := by
  constructor
  · intro h k n hbefore hn
    obtain ⟨es, s, hrun, hpc, hk⟩ := line_reached hbefore
    have hall := h _ _ (hrun.trans (serve_all hpc hk hn))
    by_contra hlarge
    have hmem : MAXLINE ∈ s.sent ++ List.range' 0 n :=
      List.mem_append_right _ (List.mem_range'_1.mpr ⟨Nat.zero_le _, by omega⟩)
    exact Nat.lt_irrefl _ (hall MAXLINE hmem)
  · intro hsmall es t hrun
    exact (hrun.inv inv_begin (fun _ _ _ hi hs => hi.step hsmall hs)).sent

/-! ## the function -/

/-- where the loop of `writen` has led, when `writen` has done `w` -/
def writenPc (n : Nat) (w : Written UInt8) : Pc :=
  if w.ret ≠ n then .stopped (.errSys "writen error") else .readline

theorem writenPc_failed (hn : n < sizeT (-1)) (out : List UInt8) :
    writenPc n ⟨sizeT (-1), out⟩ = .stopped (.errSys "writen error") := if_pos (Nat.ne_of_gt hn)

theorem writenPc_done (n : Nat) (out : List UInt8) : writenPc n ⟨n, out⟩ = .readline :=
  if_neg (fun hne => hne rfl)

/-- the loop of `writen` is a run of `write`s -/
theorem writenLoop_run (hpos : 0 < nleft) (hn : n < sizeT (-1)) (hpc : s.pc = .write nleft ptr)
    (hsent : s.sent.map vptr = pre ++ out)
    (h : writenLoop vptr n nleft ptr out ws = some w) :
    ∃ es t, Run Step s es t ∧ t.sent.map vptr = pre ++ w.out ∧ t.pc = writenPc n w ∧
      t.st = s.st ∧ t.feed = s.feed := by
  induction ws generalizing s nleft ptr out with
  | nil =>
    unfold writenLoop at h
    rw [if_neg (by omega)] at h
    cases h
  | cons ans ws ih =>
    have hstep := Run.single (Step.write ans hpc)
    unfold writenLoop at h
    rw [if_neg (by omega)] at h
    unfold Child.write at hstep
    cases hans : ans nleft with
    | wrote k le =>
      rw [hans] at h hstep
      dsimp only at h hstep
      by_cases hk : k ≤ 0
      · rw [if_pos hk] at h hstep
        obtain rfl := Option.some.inj h
        exact ⟨_, _, hstep, hsent, (writenPc_failed hn out).symm, rfl, rfl⟩
      · rw [if_neg hk] at h hstep
        have hsent' : (s.sent ++ List.range' ptr k).map vptr =
            pre ++ (out ++ memory vptr ptr k) := by
          rw [List.map_append, hsent, map_range', List.append_assoc]
        by_cases hleft : nleft - k = 0
        · rw [hleft, writenLoop_done] at h
          rw [if_pos hleft] at hstep
          obtain rfl := Option.some.inj h
          exact ⟨_, _, hstep, hsent', (writenPc_done n _).symm, rfl, rfl⟩
        · rw [if_neg hleft] at hstep
          obtain ⟨es, t, hrun, ht⟩ := ih (s := ⟨_, _, _, _⟩) (Nat.pos_of_ne_zero hleft) rfl hsent' h
          exact ⟨_, _, hstep.trans hrun, ht⟩
    | err e =>
      rw [hans] at h hstep
      dsimp only at h hstep
      by_cases he : e = EINTR
      · rw [if_pos he] at h hstep
        obtain ⟨es, t, hrun, ht⟩ := ih hpos hpc hsent h
        exact ⟨_, _, hstep.trans hrun, ht⟩
      · rw [if_neg he] at h hstep
        obtain rfl := Option.some.inj h
        exact ⟨_, _, hstep, hsent, (writenPc_failed hn out).symm, rfl, rfl⟩

def endPc : Option Stop → Pc
  | none => .returned
  | some why => .stopped why

theorem webChild_next {writes : List Writes} {served : Served} (hline : nextLine st feed = .writen n)
    (h : webChild result writes out st feed = some served) : ∃ ws rest w, writes = ws :: rest ∧
      writen result.byte n (result.writes n ws) = some w ∧
      ((w.ret ≠ n ∧ served = ⟨out ++ w.out, some (.errSys "writen error")⟩) ∨
        (w.ret = n ∧ webChild result rest (out ++ w.out) (after st feed 1).1 (after st feed 1).2 =
          some served)) := by
  unfold nextLine at hline
  unfold webChild at h
  dsimp only at h hline
  rw [hline] at h
  cases writes with
  | nil => cases h
  | cons ws rest =>
    dsimp only at h
    cases hw : writen result.byte n (result.writes n ws) with
    | none =>
      rw [hw] at h
      cases h
    | some w =>
      rw [hw] at h
      dsimp only at h
      split at h
      · rename_i hne
        exact ⟨ws, rest, w, rfl, hw, Or.inl ⟨hne, (Option.some.inj h).symm⟩⟩
      · rename_i hret
        exact ⟨ws, rest, w, rfl, hw, Or.inr ⟨not_not.mp hret, h⟩⟩

theorem webChild_ends {writes : List Writes} {served : Served} (hline : ∀ n, nextLine st feed ≠ .writen n)
    (h : webChild result writes out st feed = some served) :
    served.sent = out ∧ (nextLine st feed).pc = endPc served.stop := by
  unfold nextLine at hline ⊢
  unfold webChild at h
  dsimp only at h hline ⊢
  split at h
  · rename_i hclosed
    obtain rfl := Option.some.inj h
    rw [hclosed]
    exact ⟨rfl, rfl⟩
  · rename_i why hstop
    obtain rfl := Option.some.inj h
    rw [hstop]
    exact ⟨rfl, rfl⟩
  · rename_i n hn
    exact absurd hn (hline n)

/-- **What `webChild` sends is what a run sends**, taken from `result` at the indices. -/
theorem webChild_run {writes : List Writes} {served : Served} (hpc : s.pc = .readline)
    (h : webChild result writes (s.sent.map result.byte) s.st s.feed = some served) :
    ∃ es t, Run Step s es t ∧ t.sent.map result.byte = served.sent ∧ t.pc = endPc served.stop := by
  induction writes generalizing s with
  | nil =>
    have hstep := Run.single (Step.line hpc)
    rw [readline_eq] at hstep
    have hline : ∀ n, nextLine s.st s.feed ≠ .writen n := by
      intro n hn
      obtain ⟨_, _, _, hnil, _⟩ := webChild_next hn h
      cases hnil
    obtain ⟨hsent, hend⟩ := webChild_ends hline h
    exact ⟨_, _, hstep, hsent.symm, hend⟩
  | cons ws writes ih =>
    have hstep := Run.single (Step.line hpc)
    rw [readline_eq] at hstep
    by_cases hline : ∀ n, nextLine s.st s.feed ≠ .writen n
    · obtain ⟨hsent, hend⟩ := webChild_ends hline h
      exact ⟨_, _, hstep, hsent.symm, hend⟩
    · obtain ⟨n, hn⟩ := not_forall_not.mp hline
      obtain ⟨_, _, w, hcons, hw, hnext⟩ := webChild_next hn h
      cases hcons
      have hn' : n < sizeT (-1) := (turn_writen hn).2.trans_lt (by decide)
      rw [hn] at hstep
      obtain ⟨es, t, hrun, hsent, hwpc, hst, hfeed⟩ := writenLoop_run (s := ⟨_, _, _, _⟩)
        (turn_writen hn).1 hn' rfl (List.append_nil _).symm hw
      have hboth := hstep.trans hrun
      dsimp only at hsent hst hfeed
      rcases hnext with ⟨hne, rfl⟩ | ⟨hret, hrest⟩
      · exact ⟨_, t, hboth, hsent, hwpc.trans (if_pos hne)⟩
      · rw [← hsent, ← hst, ← hfeed] at hrest
        obtain ⟨es', u, hrun', hu⟩ := ih (hwpc.trans (if_neg (not_not.mpr hret))) hrest
        exact ⟨_, u, hboth.trans hrun', hu⟩

/-! ## a request for 5000 bytes -/

def large : Feed UInt8 := [.data [53, 48, 48, 48, 10] (by decide) (by decide)]

theorem not_result_safe : ¬ ∀ (st : Statics UInt8) (feed : Feed UInt8) (es : List Event) (t : Child),
    Run Step (begin st feed) es t → InArray t := by
  intro h
  have hline : lineAt ⟨0, 0, fun _ => 0⟩ large 0 = .writen 5000 := rfl
  have hall := h _ _ _ _ (serve_all (s := begin ⟨0, 0, fun _ => 0⟩ large) rfl rfl hline)
  exact absurd (hall 4096 (List.mem_range'_1.mpr (by decide))) (by decide)

end Unp.WebChild
