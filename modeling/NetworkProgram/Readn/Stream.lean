import NetworkProgram.Readn

/-!
# `readn` on a stream

`Outcome` is what is decided about a `read` in advance: how much of the stream it delivers at most,
or how it fails.  `answers` are the answers that a schedule of outcomes gives to `readn`; behind the
schedule everything is delivered that is asked for.

* `At`           the heads of the loop that a call comes to, with `nleft` as an integer;
* `readn_exact`  `readn` stores the first `n` bytes of the stream, or returns -1 if a `read` fails
                 before.
-/

namespace Unp

variable {β : Type}

inductive Outcome where
  /-- at most `k + 1` bytes -/
  | upTo (k : Nat)
  | err (e : Errno)
  deriving DecidableEq, Repr

/-- the answer to a request of `len` bytes, when `chan` is left of the stream -/
def Outcome.answer (chan : List β) (len : Nat) : Outcome → ReadRes β len
  | .upTo k =>
    if h : 0 < (chan.take (min (k + 1) len)).length then
      .data (chan.take (min (k + 1) len)) h (by rw [List.length_take]; omega)
    else .eof
  | .err e => .err e

/-- the answers to a reader that has `nleft` bytes to read -/
def answers : List Outcome → List β → Nat → Reads β
  | [], chan, nleft => [fun len => (Outcome.upTo nleft).answer chan len, fun _ => .eof]
  | o :: os, chan, nleft =>
    let bs := (o.answer chan nleft).bytes
    (fun len => o.answer chan len) :: answers os (chan.drop bs.length) (nleft - bs.length)

/-- a `read` fails, and not with `EINTR`, before there are `nleft` bytes or the end of file -/
def fails : List Outcome → List β → Nat → Bool
  | [], _, _ => false
  | .upTo k :: os, chan, nleft =>
    let bs := ((Outcome.upTo k).answer chan nleft).bytes
    decide (0 < nleft) && !bs.isEmpty && fails os (chan.drop bs.length) (nleft - bs.length)
  | .err e :: os, chan, nleft => decide (0 < nleft) && (decide (e ≠ EINTR) || fails os chan nleft)

/-- the answers of which one is a failure, to a reader of `nleft` bytes -/
inductive Breaks : Nat → Reads β → Prop where
  | err {nleft : Nat} {e : Errno} {r : (len : Nat) → ReadRes β len} {rs : Reads β}
      (ans : r nleft = .err e) (ne : e ≠ EINTR) (pos : 0 < nleft) : Breaks nleft (r :: rs)
  | data {nleft : Nat} {bs : List β} {r : (len : Nat) → ReadRes β len} {rs : Reads β}
      {pos : 0 < bs.length} {le : bs.length ≤ nleft} (ans : r nleft = .data bs pos le)
      (next : Breaks (nleft - bs.length) rs) : Breaks nleft (r :: rs)
  | intr {nleft : Nat} {r : (len : Nat) → ReadRes β len} {rs : Reads β}
      (ans : r nleft = .err EINTR) (pos : 0 < nleft) (next : Breaks nleft rs) : Breaks nleft (r :: rs)

variable {n nleft ptr : Nat} {buf : Nat → β} {chan : List β} {rs : Reads β} {os : List Outcome}

/-! ## answers -/

theorem answer_data (k : Nat) (hpos : 0 < nleft) (hne : chan ≠ []) :
    ∃ bs pos le, (Outcome.upTo k).answer chan nleft = .data bs pos le ∧
      bs = chan.take (min (k + 1) nleft) := by
  have hlen := List.length_pos_iff.mpr hne
  have h : 0 < (chan.take (min (k + 1) nleft)).length := by
    rw [List.length_take]
    omega
  exact ⟨_, h, by rw [List.length_take]; omega, dif_pos h, rfl⟩

theorem answer_eof (k len : Nat) : (Outcome.upTo k).answer ([] : List β) len = .eof := by
  unfold Outcome.answer
  exact dif_neg (by simp)

/-- what is read and what is left -/
theorem take_drop_length {bs : List β} {k : Nat} (h : bs = chan.take k) :
    bs ++ chan.drop bs.length = chan := by
  rw [h, List.length_take]
  rcases Nat.le_total k chan.length with hle | hle
  · rw [Nat.min_eq_left hle, List.take_append_drop]
  · rw [Nat.min_eq_right hle, List.take_of_length_le hle, List.drop_length, List.append_nil]

/-- behind the schedule -/
theorem delivers_rest (chan : List β) (nleft : Nat) :
    Delivers chan nleft (answers [] chan nleft) := by
  rcases Nat.eq_zero_or_pos nleft with rfl | hpos
  · exact .done
  by_cases hne : chan = []
  · subst hne
    exact .eof (answer_eof nleft nleft)
  obtain ⟨bs, pos, le, hans, hbs⟩ := answer_data nleft hpos hne
  rw [Nat.min_eq_right (Nat.le_succ nleft)] at hbs
  have hnext : Delivers (chan.drop bs.length) (nleft - bs.length) [fun _ => (.eof : ReadRes β _)] := by
    rw [hbs, List.length_take]
    rcases Nat.le_total nleft chan.length with hle | hle
    · rw [Nat.min_eq_left hle, Nat.sub_self]
      exact .done
    · rw [Nat.min_eq_right hle, List.drop_length]
      exact .eof rfl
  have hall := Delivers.data (r := fun len => (Outcome.upTo nleft).answer chan len) hans hnext
  rw [take_drop_length hbs] at hall
  exact hall

/-- a schedule without a failure delivers the stream -/
theorem answers_deliver (h : fails os chan nleft = false) :
    Delivers chan nleft (answers os chan nleft) := by
  induction os generalizing chan nleft with
  | nil => exact delivers_rest chan nleft
  | cons o os ih =>
    rcases Nat.eq_zero_or_pos nleft with rfl | hpos
    · exact .done
    cases o with
    | upTo k =>
      by_cases hne : chan = []
      · subst hne
        exact .eof (answer_eof k nleft)
      obtain ⟨bs, pos, le, hans, hbs⟩ := answer_data k hpos hne
      unfold fails at h
      unfold answers
      rw [hans] at h ⊢
      dsimp only [ReadRes.bytes] at h ⊢
      rw [decide_eq_true hpos, List.isEmpty_eq_false_iff.mpr (List.ne_nil_of_length_pos pos)] at h
      have hall := Delivers.data (r := fun len => (Outcome.upTo k).answer chan len) hans (ih h)
      rw [take_drop_length hbs] at hall
      exact hall
    | err e =>
      unfold fails at h
      rw [decide_eq_true hpos, Bool.true_and, Bool.or_eq_false_iff, decide_eq_false_iff_not,
        not_not] at h
      obtain ⟨rfl, h⟩ := h
      exact .intr rfl (ih h)

/-- a schedule with a failure -/
theorem answers_break (h : fails os chan nleft = true) : Breaks nleft (answers os chan nleft) := by
  induction os generalizing chan nleft with
  | nil => cases h
  | cons o os ih =>
    cases o with
    | upTo k =>
      unfold fails at h
      dsimp only at h
      rw [Bool.and_eq_true, Bool.and_eq_true, decide_eq_true_eq] at h
      obtain ⟨⟨hpos, hbytes⟩, h⟩ := h
      by_cases hne : chan = []
      · subst hne
        rw [answer_eof] at hbytes
        cases hbytes
      obtain ⟨bs, pos, le, hans, _⟩ := answer_data k hpos hne
      unfold answers
      rw [hans] at h ⊢
      exact .data (r := fun len => (Outcome.upTo k).answer chan len) hans (ih h)
    | err e =>
      unfold fails at h
      rw [Bool.and_eq_true, decide_eq_true_eq, Bool.or_eq_true, decide_eq_true_eq] at h
      obtain ⟨hpos, h⟩ := h
      by_cases he : e = EINTR
      · subst he
        exact .intr rfl hpos (ih (h.resolve_left (fun hc => hc rfl)))
      · exact .err rfl he hpos

/-! ## the loop -/

/-- a failure ends the loop -/
theorem readnLoop_breaks (n ptr : Nat) (buf : Nat → β) (h : Breaks nleft rs) :
    ∃ r, readnLoop n nleft ptr buf rs = some r ∧ r.ret = -1 ∧
      ∀ k, ptr + nleft ≤ k → r.buf k = buf k := by
  induction h generalizing ptr buf with
  | @err nleft e r rs ans ne pos =>
    refine ⟨⟨-1, buf⟩, ?_, rfl, fun _ _ => rfl⟩
    unfold readnLoop
    rw [if_neg (Nat.ne_of_gt pos), ans]
    exact if_neg ne
  | @data nleft bs r rs pos le ans _ ih =>
    obtain ⟨res, hres, hret, hout⟩ := ih (ptr + bs.length) (store buf ptr bs)
    refine ⟨res, ?_, hret, ?_⟩
    · unfold readnLoop
      rw [if_neg (by omega), ans]
      exact hres
    · intro k hk
      rw [hout k (by omega)]
      exact store_of_ge (by omega)
  | @intr nleft r rs ans pos _ ih =>
    obtain ⟨res, hres, hspec⟩ := ih ptr buf
    refine ⟨res, ?_, hspec⟩
    unfold readnLoop
    rw [if_neg (Nat.ne_of_gt pos), ans]
    dsimp only
    rw [if_pos rfl]
    exact hres

/-- a head of the loop of `readn(fd, vptr, n)`: `nleft` as an integer, `ptr`, the memory, and what
`read` will answer -/
inductive At (n : Nat) (vptr : Nat → β) (rs : Reads β) : Int → Nat → (Nat → β) → Reads β → Prop where
  | start : At n vptr rs n 0 vptr rs
  | data {nleft : Int} {ptr : Nat} {buf : Nat → β} {r : (len : Nat) → ReadRes β len}
      {rest : Reads β} {bs : List β} {pos : 0 < bs.length} {le : bs.length ≤ nleft.toNat}
      (at_ : At n vptr rs nleft ptr buf (r :: rest)) (more : 0 < nleft)
      (ans : r nleft.toNat = .data bs pos le) :
      At n vptr rs (nleft - bs.length) (ptr + bs.length) (store buf ptr bs) rest
  | intr {nleft : Int} {ptr : Nat} {buf : Nat → β} {r : (len : Nat) → ReadRes β len}
      {rest : Reads β} (at_ : At n vptr rs nleft ptr buf (r :: rest)) (more : 0 < nleft)
      (ans : r nleft.toNat = .err EINTR) : At n vptr rs nleft ptr buf rest

/-- **`nleft` never underflows**, and the loop goes on from there. -/
theorem At.loop {vptr : Nat → β} {nleft : Int} {rest : Reads β} (h : At n vptr rs nleft ptr buf rest) :
    0 ≤ nleft ∧ ptr + nleft = n ∧ readn vptr n rs = readnLoop n nleft.toNat ptr buf rest := by
  induction h with
  | start => exact ⟨Int.natCast_nonneg n, Int.zero_add _, rfl⟩
  | @data nleft ptr buf r rest bs pos le at_ more ans ih =>
    obtain ⟨_, hsum, hloop⟩ := ih
    refine ⟨by omega, by omega, hloop.trans ?_⟩
    conv_lhs => unfold readnLoop
    rw [if_neg (by omega), ans]
    dsimp only
    rw [show (nleft - (bs.length : Int)).toNat = nleft.toNat - bs.length by omega]
  | @intr nleft ptr buf r rest at_ more ans ih =>
    obtain ⟨hpos, hsum, hloop⟩ := ih
    refine ⟨hpos, hsum, hloop.trans ?_⟩
    conv_lhs => unfold readnLoop
    rw [if_neg (by omega), ans]
    exact if_pos rfl

/-- **`readn` on a stream.**  Whatever the schedule, `readn` returns.  If a `read` fails before there
are `n` bytes or the end of file it returns -1, and else the number of bytes there are, up to `n`; then
it has stored just these.  It stores nothing behind `n` bytes, and `nleft` never underflows. -/
theorem readn_exact (vptr : Nat → β) (n : Nat) (stream : List β) (os : List Outcome) :
    (∃ r, readn vptr n (answers os stream n) = some r ∧
      r.ret = (if fails os stream n then (-1 : Int) else (min n stream.length : Nat)) ∧
      (fails os stream n = false → memory r.buf 0 (min n stream.length) = stream.take n) ∧
      ∀ k, n ≤ k → r.buf k = vptr k) ∧
    ∀ (nleft : Int) (ptr : Nat) (buf : Nat → β) (rest : Reads β),
      At n vptr (answers os stream n) nleft ptr buf rest → 0 ≤ nleft ∧ ptr + nleft = n := by
  refine ⟨?_, fun nleft ptr buf rest h => ⟨h.loop.1, h.loop.2.1⟩⟩
  cases hf : fails os stream n with
  | true =>
    obtain ⟨r, hr, hret, hout⟩ := readnLoop_breaks n 0 vptr (answers_break hf)
    rw [Nat.zero_add] at hout
    exact ⟨r, hr, hret, nofun, hout⟩
  | false =>
    obtain ⟨r, hr, hret, hmem, hout⟩ := readn_spec vptr (answers_deliver hf)
    exact ⟨r, hr, hret, fun _ => hmem, hout⟩

/-- a short read, an interruption, and the rest -/
theorem readn_exact_short :
    (∃ r, readn (fun _ => 0) 4 (answers [.upTo 0, .err EINTR] [5, 6, 7, 8, 9] 4) = some r ∧
      r.ret = 4 ∧ memory r.buf 0 4 = [5, 6, 7, 8]) ∧ (0 : Int) ≤ 4 - 1 := by
  obtain ⟨⟨r, hr, hret, hmem, _⟩, hleft⟩ :=
    readn_exact (fun _ => 0) 4 [5, 6, 7, 8, 9] [.upTo 0, .err EINTR]
  refine ⟨⟨r, hr, hret, hmem rfl⟩, (hleft _ _ _ _ (@At.data _ 4 (fun _ => 0) _ 4 0 _ _ _ [5]
    Nat.one_pos (by decide) .start (by decide) rfl)).1⟩

end Unp
