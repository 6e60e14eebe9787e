import NetworkProgram.Lib.Run
import NetworkProgram.Readline.Conserve
import NetworkProgram.Writen

/-!
# `str_echo`

`str_echo.cpp`, with the `Writen` of `writen.cpp`: a step is a `read` or a `Writen`.

* `St.read`, `St.writen`   what the two return leads to;
* `Inv`                    what has been sent back is what has been read, but for the bytes that
                           `Writen` is about to write;
* `writen_echoes`          `writen` writes all or returns -1, and `str_echo` sends back its input.
-/

namespace Unp.StrEcho
open Trans

variable {β : Type}

/-- where `str_echo` is: at `read`, at `Writen(sockfd, buf, n)`, or behind its end -/
inductive Pc where
  | read
  | writen (n : Nat)
  | ret
  | stopped (why : Stop)
  deriving DecidableEq, Repr

structure St (β : Type) where
  pc : Pc
  buf : Nat → β
  /-- what `read` has delivered, and what `write` has taken -/
  got : List β
  sent : List β

/-- `str_echo(sockfd)` is called; `buf` holds anything -/
def start (buf : Nat → β) : St β := ⟨.read, buf, [], []⟩

/-- the test of the loop, and the two behind it -/
def afterRead (r : ReadRes β MAXLINE) : Pc :=
  if 0 < r.ret then .writen r.ret.toNat
  else if r.ret < 0 ∧ r.errno = EINTR then .read
  else if r.ret < 0 then .stopped (.errSys "str_echo: read error")
  else .ret

/-- `n = read(sockfd, buf, MAXLINE)` -/
def St.read (s : St β) (r : ReadRes β MAXLINE) : St β :=
  { s with
    pc := afterRead r
    buf := fun k => r.bytes.getD k (s.buf k)
    got := s.got ++ r.bytes }

/-- `Writen(sockfd, buf, n)`, when `writen` has done `w` -/
def St.writen (s : St β) (n : Nat) (w : Written β) : St β :=
  { s with
    pc := if w.ret ≠ n then .stopped (.errSys "writen error") else .read
    sent := s.sent ++ w.out }

inductive Event (β : Type) where
  | read (r : ReadRes β MAXLINE)
  | writen (ws : Writes)

/-- the next step, if the answers are to the call that is made -/
def St.step (s : St β) : Event β → Option (St β)
  | .read r => if s.pc = .read then some (s.read r) else none
  | .writen ws =>
    match s.pc with
    | .writen n => (Unp.writen s.buf n ws).map (s.writen n)
    | _ => none

variable {s t : St β} {e : Event β} {r : ReadRes β MAXLINE}

theorem step_read (h : s.pc = .read) : s.step (.read r) = some (s.read r) := if_pos h

theorem step_writen {n : Nat} {ws : Writes} (h : s.pc = .writen n) :
    s.step (.writen ws) = (Unp.writen s.buf n ws).map (s.writen n) := by
  unfold St.step
  rw [h]

/-- what a step can be -/
theorem step_cases (h : s.step e = some t) :
    (∃ r, e = .read r ∧ s.pc = .read ∧ t = s.read r) ∨
    (∃ n ws w, e = .writen ws ∧ s.pc = .writen n ∧ Unp.writen s.buf n ws = some w ∧
      t = s.writen n w) := by
  cases e with
  | read r =>
    unfold St.step at h
    dsimp only at h
    split at h
    · rename_i hpc
      exact Or.inl ⟨r, rfl, hpc, (Option.some.inj h).symm⟩
    · cases h
  | writen ws =>
    cases hpc : s.pc with
    | writen n =>
      rw [step_writen hpc, Option.map_eq_some_iff] at h
      obtain ⟨w, hw, ht⟩ := h
      exact Or.inr ⟨n, ws, w, rfl, rfl, hw, ht.symm⟩
    | _ =>
      unfold St.step at h
      rw [hpc] at h
      cases h

theorem afterRead_data {bs : List β} {pos : 0 < bs.length} {le : bs.length ≤ MAXLINE} :
    afterRead (.data bs pos le) = .writen bs.length := if_pos (Int.natCast_pos.mpr pos)

/-! ## what is sent back -/

/-- at `pc`, `sent` is what has been read, but for the bytes at `Writen` -/
def Pc.Agree (buf : Nat → β) (got sent : List β) : Pc → Prop
  | .read => sent = got
  | .writen n => n ≤ MAXLINE ∧ sent ++ memory buf 0 n = got
  | .ret => sent = got
  | .stopped _ => True

def Inv (s : St β) : Prop := s.pc.Agree s.buf s.got s.sent

theorem inv_start (buf : Nat → β) : Inv (start buf) := rfl

theorem Inv.read (h : Inv s) (hpc : s.pc = .read) (r : ReadRes β MAXLINE) : Inv (s.read r) := by
  have hsent : s.sent = s.got := by
    unfold Inv at h
    rw [hpc] at h
    exact h
  cases r with
  | data bs pos le =>
    show (afterRead (.data bs pos le)).Agree (fun k => bs.getD k (s.buf k)) (s.got ++ bs) s.sent
    rw [afterRead_data]
    refine ⟨le, ?_⟩
    rw [memory_getD, hsent]
  | eof => exact hsent.trans (List.append_nil _).symm
  | err e =>
    show (if (-1 : Int) < 0 ∧ e = EINTR then Pc.read else .stopped (.errSys "str_echo: read error")).Agree
      _ (s.got ++ []) s.sent
    split
    · exact hsent.trans (List.append_nil _).symm
    · trivial

theorem Inv.writen (h : Inv s) {n : Nat} {ws : Writes} {w : Written β} (hpc : s.pc = .writen n)
    (hw : Unp.writen s.buf n ws = some w) : Inv (s.writen n w) := by
  have hold : n ≤ MAXLINE ∧ s.sent ++ memory s.buf 0 n = s.got := by
    unfold Inv at h
    rw [hpc] at h
    exact h
  show (if w.ret ≠ n then Pc.stopped (.errSys "writen error") else .read).Agree s.buf s.got
    (s.sent ++ w.out)
  split
  · trivial
  · rename_i hret
    show s.sent ++ w.out = s.got
    rw [writen_full hw hold.1 (not_not.mp hret), hold.2]

theorem Inv.step (h : Inv s) (hs : s.step e = some t) : Inv t := by
  rcases step_cases hs with ⟨r, _, hpc, rfl⟩ | ⟨n, ws, w, _, hpc, hw, rfl⟩
  · exact h.read hpc r
  · exact h.writen hpc hw

theorem inv_run {buf : Nat → β} {es : List (Event β)} (h : Run (Opt St.step) (start buf) es t) :
    Inv t := h.inv (inv_start buf) (fun _ _ _ hi hs => hi.step hs)

/-- `Writen` has returned, or none has been called -/
def Pc.Boundary : Pc → Prop
  | .read => True
  | .ret => True
  | _ => False

/-- **At every boundary of `Writen` all that has been read is sent back.** -/
theorem Inv.boundary (h : Inv s) (hb : s.pc.Boundary) : s.sent = s.got := by
  unfold Inv at h
  cases hpc : s.pc with
  | read =>
    rw [hpc] at h
    exact h
  | ret =>
    rw [hpc] at h
    exact h
  | writen n =>
    rw [hpc] at hb
    exact hb.elim
  | stopped why =>
    rw [hpc] at hb
    exact hb.elim

/-! ## a whole stream -/

/-- what a turn of the loop is answered: by `read`, and by `write` to the `Writen` behind it -/
abbrev Turn (β : Type) := ReadRes β MAXLINE × Writes

/-- bytes that are written in any pieces, or an interruption -/
inductive Clean : Turn β → Prop where
  | data {bs : List β} {pos : 0 < bs.length} {le : bs.length ≤ MAXLINE} {ws : Writes}
      (takes : Takes bs.length ws) : Clean (.data bs pos le, ws)
  | intr {ws : Writes} : Clean (.err EINTR, ws)

/-- the calls of a turn -/
def calls : Turn β → List (Event β)
  | (.data bs pos le, ws) => [.read (.data bs pos le), .writen ws]
  | (r, _) => [.read r]

/-- the input -/
def stream (turns : List (Turn β)) : List β := turns.flatMap (fun turn => turn.1.bytes)

/-- one turn: back at `read`, with the bytes read -/
theorem turn_clean {turn : Turn β} (hc : Clean turn) (hpc : s.pc = .read) :
    ∃ t, Run (Opt St.step) s (calls turn) t ∧ t.pc = .read ∧ t.got = s.got ++ turn.1.bytes := by
  cases hc with
  | @data bs pos le ws takes =>
    have hread : (s.read (.data bs pos le)).pc = .writen bs.length := afterRead_data
    have hw : Unp.writen (s.read (.data bs pos le)).buf bs.length ws = _ := writen_takes takes
    have hwrite : (s.read (.data bs pos le)).step (.writen ws) = _ := step_writen hread
    rw [hw] at hwrite
    exact ⟨_, (Run.single (step_read hpc)).snoc hwrite, if_neg (not_not.mpr rfl), rfl⟩
  | @intr ws => exact ⟨_, Run.single (step_read hpc), rfl, rfl⟩

theorem turns_clean {turns : List (Turn β)} (hc : ∀ turn ∈ turns, Clean turn) (hpc : s.pc = .read) :
    ∃ t, Run (Opt St.step) s (turns.flatMap calls) t ∧ t.pc = .read ∧
      t.got = s.got ++ stream turns := by
  induction turns generalizing s with
  | nil => exact ⟨s, Run.nil, hpc, (List.append_nil _).symm⟩
  | cons turn turns ih =>
    obtain ⟨m, hrun, hm, hgot⟩ := turn_clean (hc turn (List.mem_cons_self ..)) hpc
    obtain ⟨t, hrun', ht, hgot'⟩ := ih (fun turn' h => hc turn' (List.mem_cons_of_mem _ h)) hm
    refine ⟨t, ?_, ht, ?_⟩
    · rw [List.flatMap_cons]
      exact hrun.trans hrun'
    · rw [hgot', hgot, List.append_assoc]
      rfl

/-- **`str_echo` returns with its whole input sent back.** -/
theorem echo_whole (buf : Nat → β) {turns : List (Turn β)} (hc : ∀ turn ∈ turns, Clean turn) :
    ∃ t, Run (Opt St.step) (start buf) (turns.flatMap calls ++ [.read .eof]) t ∧ t.pc = .ret ∧
      t.sent = stream turns := by
  obtain ⟨m, hrun, hm, hgot⟩ := turns_clean (s := start buf) hc rfl
  have hend := hrun.snoc (step_read (r := .eof) hm)
  refine ⟨m.read .eof, hend, rfl, ?_⟩
  rw [(inv_run hend).boundary trivial]
  show m.got ++ [] = stream turns
  rw [List.append_nil, hgot]
  rfl

/-- **`writen` and `str_echo`.**  `writen` returns, and its value is `n` exactly if the `n` bytes
have been written, once and in order; else it is -1, with a proper prefix written.  At every boundary
of `Writen`, whatever the calls answer, `str_echo` has sent back what it has read; and whatever the
pieces and the interruptions, it returns with its whole input sent back. -/
theorem writen_echoes :
    (∀ (vptr : Nat → β) (n : Nat) (ws : Writes), n < UInt64.size - 1 →
      (∃ r, Unp.writen vptr n (ws ++ [takeAll]) = some r) ∧
      ∀ r, Unp.writen vptr n ws = some r →
        (r.ret = n ↔ r.out = memory vptr 0 n) ∧
        (r.ret ≠ n → r.ret = sizeT (-1) ∧ ∃ k < n, r.out = memory vptr 0 k)) ∧
    (∀ (buf : Nat → β) (es : List (Event β)) (t : St β), Run (Opt St.step) (start buf) es t →
      t.pc.Boundary → t.sent = t.got) ∧
    (∀ (buf : Nat → β) (turns : List (Turn β)), (∀ turn ∈ turns, Clean turn) →
      ∃ t, Run (Opt St.step) (start buf) (turns.flatMap calls ++ [.read .eof]) t ∧ t.pc = .ret ∧
        t.sent = stream turns) := by
  refine ⟨fun vptr n ws hn => ⟨writen_ends vptr n ws, fun r hr => ?_⟩,
    fun buf es t h hb => (inv_run h).boundary hb, fun buf turns hc => echo_whole buf hc⟩
  obtain ⟨hiff, hfail⟩ := writen_exact hr hn
  exact ⟨hiff, fun hne => hfail hne⟩

/-- two chunks, the first written in two pieces -/
def pieces : List (Turn Nat) :=
  [(.data [1, 2] (by decide) (by decide),
      [fun len => .wrote (min 1 len) (Nat.min_le_right ..), fun _ => .err EINTR, takeAll]),
    (.err EINTR, []), (.data [3] (by decide) (by decide), [takeAll])]

theorem pieces_clean : ∀ turn ∈ pieces, Clean turn := by
  intro turn hturn
  simp only [pieces, List.mem_cons, List.not_mem_nil, or_false] at hturn
  rcases hturn with rfl | rfl | rfl
  · exact .data (@Takes.wrote 2 1 _ _ (by decide) rfl (by decide) (.intr rfl (takes_all 1)))
  · exact .intr
  · exact .data (takes_all 1)

theorem writen_echoes_pieces :
    (∃ r, Unp.writen (fun k => k) 3 ([fun _ => .err EINTR] ++ [takeAll]) = some r) ∧
    ∃ t, Run (Opt St.step) (start (fun _ => 0)) (pieces.flatMap calls ++ [.read .eof]) t ∧
      t.sent = [1, 2, 3] ∧ t.sent = t.got := by
  obtain ⟨t, hrun, hret, hsent⟩ := writen_echoes.2.2 (fun _ => 0) pieces pieces_clean
  refine ⟨(writen_echoes.1 (fun k => k) 3 [fun _ => .err EINTR] (by decide)).1, t, hrun, hsent, ?_⟩
  exact writen_echoes.2.1 _ _ t hrun (by rw [hret]; trivial)

end Unp.StrEcho
