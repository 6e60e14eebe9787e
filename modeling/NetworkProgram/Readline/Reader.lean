import NetworkProgram.Lib.Run
import NetworkProgram.Readline.Conserve
import NetworkProgram.Readline.Turn

/-!
# `readline`, read by read

The calls of `readline` that a program makes on one descriptor, one after the other, in steps of one
`read`.

* `round`        one pass from the label `again`, with the answer of one `read`;
* `Reader.step`  the next step of the call in progress;
* `reader_calls` the steps of a sequence of calls lead to what `readline` returns.
-/

namespace Unp
open Trans

variable {β : Type}

/-- what follows a `read`: the next one, or the return of `my_read` -/
inductive Round (β : Type) where
  | retry (s : Statics β)
  | ret (rc : Rc β) (s : Statics β)

/-- from the label `again` to the next `read` or to the return -/
def round (s : Statics β) (r : ReadRes β MAXLINE) : Round β :=
  let s := { s with
    readCnt := sizeT r.ret
    readBuf := fun k => r.bytes.getD k (s.readBuf k) }
  if s.readCnt < 0 then
    if r.errno = EINTR then .retry s else .ret .fail s
  else if s.readCnt = 0 then .ret .eof s
  else
    let f := fetch { s with readPtr := 0 } []
    .ret f.rc f.st

theorem again_cons (s : Statics β) (r : ReadRes β MAXLINE) (feed : Feed β) :
    again s (r :: feed) =
      match round s r with
      | .retry s => again s feed
      | .ret rc s => ⟨rc, s, feed⟩ := by
  conv_lhs => unfold again
  unfold round
  dsimp only
  split
  · split <;> rfl
  · split <;> rfl

/-- after its end `read` answers 0 -/
theorem again_nil (s : Statics β) : round s .eof = .ret .eof (again s []).st := rfl

/-! ## the calls -/

/-- no call is in progress, or it is at `n < maxlen`, or at the label `again` -/
inductive Reader.Pc (β : Type) where
  | out
  | test (l : Loop β)
  | again (l : Loop β)

structure Reader (β : Type) where
  st : Statics β
  pc : Reader.Pc β
  /-- what the calls have returned -/
  lines : List (Line β)
  /-- what has been stored in the buffers of the callers, and what `read` has delivered, in all and
  last -/
  stored : List β
  seen : List β
  filled : List β

/-- before the first call; `mem` is what `read_buf` holds -/
def Reader.start (mem : Nat → β) : Reader β := ⟨⟨0, 0, mem⟩, .out, [], [], [], []⟩

inductive Reader.Event (β : Type) where
  | call (maxlen : Nat)
  | go
  | read (r : ReadRes β MAXLINE)

def Rc.bytes : Rc β → List β
  | .byte c => [c]
  | _ => []

namespace Reader

variable (isNl : β → Bool)

def returned (s : Reader β) (line : Line β) : Reader β :=
  { s with pc := .out, lines := s.lines ++ [line] }

/-- `my_read` has returned `rc` -/
def turned (s : Reader β) (l : Loop β) (rc : Rc β) : Reader β :=
  let s := { s with stored := s.stored ++ rc.bytes }
  match l.turn isNl rc with
  | .inl l => { s with pc := .test l }
  | .inr line => s.returned line

/-- a turn of the loop, up to the `read` if it needs one -/
def go (s : Reader β) (l : Loop β) : Reader β :=
  if l.room = 0 then s.returned l.full
  else if s.st.readCnt ≤ 0 then { s with pc := .again l }
  else
    let f := fetch s.st []
    { s with st := f.st }.turned isNl l f.rc

/-- `read` answers `r` -/
def read (s : Reader β) (l : Loop β) (r : ReadRes β MAXLINE) : Reader β :=
  let s := { s with seen := s.seen ++ r.bytes, filled := r.bytes }
  match round s.st r with
  | .retry st => { s with st := st }
  | .ret rc st => { s with st := st }.turned isNl l rc

def step (s : Reader β) : Event β → Option (Reader β)
  | .call maxlen =>
    match s.pc with
    | .out => some { s with pc := .test (Loop.init maxlen) }
    | _ => none
  | .go =>
    match s.pc with
    | .test l => some (s.go isNl l)
    | _ => none
  | .read r =>
    match s.pc with
    | .again l => some (s.read isNl l r)
    | _ => none

end Reader

/-! ## the calls, read by read -/

/-- the calls with the lengths `ms`, one after the other: what they return, and what they leave -/
def calls (isNl : β → Bool) : List Nat → Statics β → Feed β → List (Line β) × Statics β × Feed β
  | [], s, feed => ([], s, feed)
  | maxlen :: ms, s, feed =>
    let r := readline isNl maxlen s feed
    let rest := calls isNl ms r.st r.feed
    (r.line :: rest.1, rest.2)

namespace Reader

/-- the answers of the reads in `es` -/
def reads (es : List (Event β)) : Feed β :=
  es.flatMap (fun e => match e with
    | .read r => [r]
    | _ => [])

/-- the reads in `es` leave `rest` of `feed`; at its end they find the end of file -/
def Consumes (es : List (Event β)) (feed rest : Feed β) : Prop :=
  ∃ k, reads es ++ rest = feed ++ List.replicate k .eof

theorem consumes_nil (feed : Feed β) : Consumes [] feed feed := ⟨0, (List.append_nil feed).symm⟩

theorem Consumes.trans {es es' : List (Event β)} {feed mid rest : Feed β}
    (h : Consumes es feed mid) (h' : Consumes es' mid rest) : Consumes (es ++ es') feed rest := by
  obtain ⟨k, hk⟩ := h
  obtain ⟨k', hk'⟩ := h'
  refine ⟨k + k', ?_⟩
  unfold reads at hk hk' ⊢
  rw [List.flatMap_append, List.append_assoc, hk', ← List.append_assoc, hk, List.append_assoc,
    List.replicate_append_replicate]

theorem consumes_read (r : ReadRes β MAXLINE) (feed : Feed β) :
    Consumes [.read r] (r :: feed) feed := ⟨0, (List.append_nil _).symm⟩

variable {isNl : β → Bool} {s : Reader β} {l : Loop β}

theorem step_call (h : s.pc = .out) (maxlen : Nat) :
    s.step isNl (.call maxlen) = some { s with pc := .test (Loop.init maxlen) } := by
  unfold step
  rw [h]

theorem step_go (h : s.pc = .test l) : s.step isNl .go = some (s.go isNl l) := by
  unfold step
  rw [h]

theorem step_read (h : s.pc = .again l) (r : ReadRes β MAXLINE) :
    s.step isNl (.read r) = some (s.read isNl l r) := by
  unfold step
  rw [h]

/-- `again` goes on to the return of `my_read`, by induction on what `read` answers -/
theorem run_again (h : s.pc = .again l) (feed : Feed β) :
    ∃ es seen filled, Run (Opt (step isNl)) s es
        (turned isNl { s with st := (again s.st feed).st, seen := seen, filled := filled } l
          (again s.st feed).rc) ∧
      Consumes es feed (again s.st feed).feed := by
  induction feed generalizing s with
  | nil => exact ⟨_, _, _, Run.single (step_read h .eof), 1, rfl⟩
  | cons r feed ih =>
    have hstep : Run (Opt (step isNl)) s [.read r] (s.read isNl l r) := Run.single (step_read h r)
    unfold read at hstep
    dsimp only at hstep
    rw [again_cons]
    cases hr : round s.st r with
    | retry st =>
      rw [hr] at hstep
      obtain ⟨es, seen, filled, hrun, hcons⟩ :=
        ih (s := { s with st := st, seen := s.seen ++ r.bytes, filled := r.bytes }) h
      exact ⟨_, seen, filled, hstep.trans hrun, (consumes_read r feed).trans hcons⟩
    | ret rc st =>
      rw [hr] at hstep
      exact ⟨_, _, _, hstep, consumes_read r feed⟩

/-- a turn of the loop that needs no `read`, or ends with the last one it needs -/
theorem run_turn (h : s.pc = .test l) (hroom : 0 < l.room) (feed : Feed β) :
    ∃ es seen filled, Run (Opt (step isNl)) s es
        (turned isNl { s with st := (myRead s.st feed).st, seen := seen, filled := filled } l
          (myRead s.st feed).rc) ∧
      Consumes es feed (myRead s.st feed).feed := by
  have hstep : Run (Opt (step isNl)) s [.go] (s.go isNl l) := Run.single (step_go h)
  unfold go at hstep
  rw [if_neg (Nat.ne_of_gt hroom)] at hstep
  unfold myRead
  by_cases hcnt : s.st.readCnt ≤ 0
  · rw [if_pos hcnt] at hstep ⊢
    obtain ⟨es, seen, filled, hrun, hcons⟩ := run_again (s := { s with pc := .again l }) rfl feed
    refine ⟨_, seen, filled, hstep.trans ?_, (consumes_nil feed).trans hcons⟩
    unfold turned at hrun ⊢
    exact hrun
  · rw [if_neg hcnt] at hstep ⊢
    exact ⟨_, _, _, hstep, consumes_nil feed⟩

theorem turned_inl {rc : Rc β} {l' : Loop β} (h : l.turn isNl rc = .inl l') :
    (s.turned isNl l rc).pc = .test l' ∧ (s.turned isNl l rc).st = s.st ∧
      (s.turned isNl l rc).lines = s.lines := by
  unfold turned
  rw [h]
  exact ⟨rfl, rfl, rfl⟩

theorem turned_inr {rc : Rc β} {line : Line β} (h : l.turn isNl rc = .inr line) :
    (s.turned isNl l rc).pc = .out ∧ (s.turned isNl l rc).st = s.st ∧
      (s.turned isNl l rc).lines = s.lines ++ [line] := by
  unfold turned
  rw [h]
  exact ⟨rfl, rfl, rfl⟩

/-- what does not depend on the turn -/
theorem turned_frame (isNl : β → Bool) (s : Reader β) (l : Loop β) (rc : Rc β) :
    (s.turned isNl l rc).st = s.st ∧ (s.turned isNl l rc).filled = s.filled ∧
      (s.turned isNl l rc).stored = s.stored ++ rc.bytes ∧ ∀ l', (s.turned isNl l rc).pc ≠ .again l' := by
  unfold turned
  dsimp only
  split
  · exact ⟨rfl, rfl, rfl, fun _ hc => by cases hc⟩
  · exact ⟨rfl, rfl, rfl, fun _ hc => by cases hc⟩

/-- the loop, by induction on the turns left -/
theorem run_loop (isNl : β → Bool) (h : s.pc = .test l) (feed : Feed β) :
    let r := readlineFrom isNl l.room l.n l.acc s.st feed
    ∃ es t, Run (Opt (step isNl)) s es t ∧ t.pc = .out ∧ t.st = r.st ∧
      t.lines = s.lines ++ [r.line] ∧ Consumes es feed r.feed := by
  generalize hn : l.room = room
  induction room generalizing s l feed with
  | zero =>
    have hstep : Run (Opt (step isNl)) s [.go] (s.go isNl l) := Run.single (step_go h)
    unfold go at hstep
    rw [if_pos hn] at hstep
    rw [← hn, readlineFrom_full isNl hn]
    exact ⟨_, _, hstep, rfl, rfl, rfl, consumes_nil feed⟩
  | succ room ih =>
    have hpos : 0 < l.room := by omega
    obtain ⟨es, seen, filled, hrun, hcons⟩ := run_turn h hpos feed
    have hturn := readlineFrom_turn isNl hpos s.st feed
    rw [← hn, hturn]
    dsimp only
    cases hl : l.turn isNl (myRead s.st feed).rc with
    | inl l' =>
      obtain ⟨hpc, hst, hlines⟩ := turned_inl (s := { s with
        st := (myRead s.st feed).st, seen := seen, filled := filled }) hl
      have hroom := Loop.turn_room hl
      obtain ⟨es', t, hrun', hpc', hst', hlines', hcons'⟩ := ih hpc (myRead s.st feed).feed
        (by omega)
      rw [hst] at hst' hlines' hcons'
      have hroom' : l'.room = room := by omega
      rw [← hroom'] at hst' hlines' hcons'
      exact ⟨es ++ es', t, hrun.trans hrun', hpc', hst', hlines'.trans (by rw [hlines]),
        hcons.trans hcons'⟩
    | inr line =>
      obtain ⟨hpc, hst, hlines⟩ := turned_inr (s := { s with
        st := (myRead s.st feed).st, seen := seen, filled := filled }) hl
      exact ⟨es, _, hrun, hpc, hst, hlines, hcons⟩

/-- **The steps lead to what `readline` returns**, call after call. -/
theorem reader_calls (h : s.pc = .out) (ms : List Nat) (feed : Feed β) :
    ∃ es t, Run (Opt (step isNl)) s es t ∧ t.pc = .out ∧ t.st = (calls isNl ms s.st feed).2.1 ∧
      t.lines = s.lines ++ (calls isNl ms s.st feed).1 ∧
      Consumes es feed (calls isNl ms s.st feed).2.2 := by
  induction ms generalizing s feed with
  | nil => exact ⟨[], s, Run.nil, h, rfl, (List.append_nil _).symm, consumes_nil feed⟩
  | cons maxlen ms ih =>
    have hcall : Run (Opt (step isNl)) s [.call maxlen] _ := Run.single (step_call h maxlen)
    obtain ⟨es, m, hrun, hpc, hst, hlines, hcons⟩ :=
      run_loop isNl (s := { s with pc := .test (Loop.init maxlen) }) rfl feed
    obtain ⟨es', t, hrun', hpc', hst', hlines', hcons'⟩ := ih hpc
      (readline isNl maxlen s.st feed).feed
    rw [show m.st = (readline isNl maxlen s.st feed).st from hst] at hst' hlines' hcons'
    refine ⟨_, t, (hcall.trans hrun).trans hrun', hpc', hst', ?_,
      ((consumes_nil feed).trans hcons).trans hcons'⟩
    rw [hlines', hlines, List.append_assoc]
    rfl

end Reader

/-- `readlinebuf(vptrptr)`, with `vptr` in `*vptrptr`: the value returned, and what is there then -/
def readlinebuf (s : Statics β) (vptr : Nat) : Nat × Nat :=
  (s.readCnt, if s.readCnt ≠ 0 then s.readPtr else vptr)

/-- the bytes it exposes -/
theorem readlinebuf_window (s : Statics β) (vptr : Nat) :
    memory s.readBuf (readlinebuf s vptr).2 (readlinebuf s vptr).1 = s.window := by
  unfold readlinebuf
  dsimp only
  split
  · rfl
  · rename_i h
    have h0 : s.readCnt = 0 := not_not.mp h
    rw [h0, s.window_nil h0]
    rfl

end Unp
