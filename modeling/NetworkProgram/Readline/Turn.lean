import NetworkProgram.Readline.Impl

/-!
# `readline`, turn by turn

A call of `readline` that waits in `my_read` is a `Loop`; what `my_read` returns takes it one turn
further (`readlineFrom_turn`).
-/

namespace Unp

variable {β : Type}

/-- the loop at `n`, with `room` turns left and `acc` stored -/
structure Loop (β : Type) where
  room : Nat
  n : Nat
  acc : List β

/-- `readline(fd, vptr, maxlen)` is called -/
def Loop.init (maxlen : Nat) : Loop β := ⟨maxlen - 1, 1, []⟩

/-- `n < maxlen` no longer holds -/
def Loop.full (l : Loop β) : Line β := ⟨l.n, l.acc, true⟩

/-- the turn in which `my_read` returns `rc`: the loop goes on, or `readline` returns -/
def Loop.turn (isNl : β → Bool) (l : Loop β) : Rc β → Loop β ⊕ Line β
  | .byte c =>
    if isNl c then .inr ⟨l.n, l.acc ++ [c], true⟩
    else .inl ⟨l.room - 1, l.n + 1, l.acc ++ [c]⟩
  | .eof => .inr ⟨l.n - 1, l.acc, true⟩
  | .fail => .inr ⟨-1, l.acc, false⟩

variable (isNl : β → Bool)

theorem readlineFrom_full {l : Loop β} (h : l.room = 0) (s : Statics β) (feed : Feed β) :
    readlineFrom isNl l.room l.n l.acc s feed = ⟨l.full, s, feed⟩ := by
  rw [h]
  rfl

/-- **The loop is its turns.** -/
theorem readlineFrom_turn {l : Loop β} (h : 0 < l.room) (s : Statics β) (feed : Feed β) :
    readlineFrom isNl l.room l.n l.acc s feed =
      let r := myRead s feed
      match l.turn isNl r.rc with
      | .inl l => readlineFrom isNl l.room l.n l.acc r.st r.feed
      | .inr line => ⟨line, r.st, r.feed⟩ := by
  obtain ⟨room, hroom⟩ : ∃ room, l.room = room + 1 := ⟨l.room - 1, by omega⟩
  conv_lhs => rw [hroom, readlineFrom]
  dsimp only
  cases (myRead s feed).rc with
  | byte c =>
    unfold Loop.turn
    dsimp only
    rw [hroom]
    split <;> rfl
  | eof => rfl
  | fail => rfl

/-- a turn that does not return takes one of those left -/
theorem Loop.turn_room {isNl : β → Bool} {l l' : Loop β} {rc : Rc β} (h : l.turn isNl rc = .inl l') :
    l'.room = l.room - 1 := by
  cases rc with
  | byte c =>
    unfold Loop.turn at h
    dsimp only at h
    split at h
    · cases h
    · cases h
      rfl
  | eof => cases h
  | fail => cases h

end Unp
