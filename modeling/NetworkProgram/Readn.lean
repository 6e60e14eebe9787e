import NetworkProgram.Writen

/-!
# `readn`

`readn.cpp`.  A `Reads` is what `read` answers, call after call, each to the length it is asked for.

* `readn`        the loop, with what it returns and the buffer it leaves;
* `Delivers`     the answers over a channel, in any pieces and with any interruptions;
* `readn_spec`   over a channel `readn` stores its first `n` bytes.
-/

namespace Unp

variable {β : Type}

abbrev Reads (β : Type) := List ((len : Nat) → ReadRes β len)

/-- the value returned, and the memory at `vptr` -/
structure ReadN (β : Type) where
  ret : Int
  buf : Nat → β

/-- `bs` is stored at `ptr` -/
def store (buf : Nat → β) (ptr : Nat) (bs : List β) : Nat → β :=
  fun k => if ptr ≤ k then bs.getD (k - ptr) (buf k) else buf k

/-- `while (nleft > 0)`; `none` if the answers end before it does -/
def readnLoop (n nleft ptr : Nat) (buf : Nat → β) : Reads β → Option (ReadN β)
  | [] => if nleft = 0 then some ⟨(n - nleft : Nat), buf⟩ else none
  | r :: rs =>
    if nleft = 0 then some ⟨(n - nleft : Nat), buf⟩
    else match r nleft with
      | .data bs _ _ => readnLoop n (nleft - bs.length) (ptr + bs.length) (store buf ptr bs) rs
      | .eof => some ⟨(n - nleft : Nat), buf⟩
      | .err e =>
        if e = EINTR then readnLoop n nleft ptr buf rs
        else some ⟨-1, buf⟩

def readn (buf : Nat → β) (n : Nat) (rs : Reads β) : Option (ReadN β) := readnLoop n n 0 buf rs

/-- what `read` answers to a reader of `nleft` bytes over a channel that holds `chan` and whose other
end is closed behind it -/
inductive Delivers : List β → Nat → Reads β → Prop where
  | done {chan : List β} {rs : Reads β} : Delivers chan 0 rs
  | data {bs chan : List β} {nleft : Nat} {r : (len : Nat) → ReadRes β len} {rs : Reads β}
      {pos : 0 < bs.length} {le : bs.length ≤ nleft} (ans : r nleft = .data bs pos le)
      (next : Delivers chan (nleft - bs.length) rs) : Delivers (bs ++ chan) nleft (r :: rs)
  | intr {chan : List β} {nleft : Nat} {r : (len : Nat) → ReadRes β len} {rs : Reads β}
      (ans : r nleft = .err EINTR) (next : Delivers chan nleft rs) : Delivers chan nleft (r :: rs)
  | eof {nleft : Nat} {r : (len : Nat) → ReadRes β len} {rs : Reads β} (ans : r nleft = .eof) :
      Delivers [] nleft (r :: rs)

variable {n nleft ptr : Nat} {buf : Nat → β} {bs chan : List β} {rs : Reads β}

/-! ## the buffer -/

theorem store_of_lt {k : Nat} (h : k < ptr) : store buf ptr bs k = buf k :=
  if_neg (Nat.not_le_of_lt h)

theorem store_of_ge {k : Nat} (h : ptr + bs.length ≤ k) : store buf ptr bs k = buf k := by
  unfold store
  rw [if_pos (by omega), List.getD_eq_default _ _ (by omega)]

/-- `store` extends what has been stored before -/
theorem memory_store : memory (store buf ptr bs) 0 (ptr + bs.length) = memory buf 0 ptr ++ bs := by
  rw [memory_add]
  congr 1
  · unfold memory
    apply List.map_congr_left
    intro k hk
    rw [List.mem_range] at hk
    exact store_of_lt (by omega)
  · calc memory (store buf ptr bs) (0 + ptr) bs.length
        = memory (fun k => bs.getD k (buf (ptr + k))) 0 bs.length := by
          unfold memory
          apply List.map_congr_left
          intro k _
          unfold store
          rw [if_pos (by omega)]
          simp
      _ = bs := memory_getD bs _

/-! ## the loop -/

theorem readnLoop_done (n ptr : Nat) (buf : Nat → β) (rs : Reads β) :
    readnLoop n 0 ptr buf rs = some ⟨n, buf⟩ := by
  cases rs with
  | nil => rfl
  | cons r rs => rfl

/-- the loop has stored `ptr` bytes, and `nleft` bytes are left -/
theorem readnLoop_spec (buf : Nat → β) (h : Delivers chan nleft rs) (hn : ptr + nleft = n) :
    ∃ r, readnLoop n nleft ptr buf rs = some r ∧
      r.ret = (ptr + min nleft chan.length : Nat) ∧
      memory r.buf 0 (ptr + min nleft chan.length) = memory buf 0 ptr ++ chan.take nleft ∧
      ∀ k, n ≤ k → r.buf k = buf k := by
  induction h generalizing ptr buf with
  | done =>
    refine ⟨_, readnLoop_done .., ?_, ?_, fun _ _ => rfl⟩
    · rw [Nat.zero_min]
      exact congrArg Nat.cast hn.symm
    · rw [Nat.zero_min, List.take_zero, List.append_nil]
      rfl
  | @data bs chan nleft r rs pos le ans _ ih =>
    obtain ⟨res, hres, hret, hmem, hout⟩ :=
      ih (store buf ptr bs) (show ptr + bs.length + (nleft - bs.length) = n by omega)
    have hmin : ptr + bs.length + min (nleft - bs.length) chan.length =
        ptr + min nleft (bs ++ chan).length := by
      rw [List.length_append]
      omega
    rw [hmin] at hret hmem
    refine ⟨res, ?_, hret, ?_, ?_⟩
    · unfold readnLoop
      rw [if_neg (by omega), ans]
      exact hres
    · rw [hmem, memory_store, List.append_assoc, List.take_append, List.take_of_length_le le]
    · intro k hk
      rw [hout k hk]
      exact store_of_ge (by omega)
  | @intr chan nleft r rs ans _ ih =>
    obtain ⟨res, hres, hspec⟩ := ih buf hn
    rcases Nat.eq_zero_or_pos nleft with rfl | hpos
    · rw [readnLoop_done] at hres ⊢
      exact ⟨res, hres, hspec⟩
    · refine ⟨res, ?_, hspec⟩
      unfold readnLoop
      rw [if_neg (by omega), ans]
      dsimp only
      rw [if_pos rfl]
      exact hres
  | @eof nleft r rs ans =>
    have hmin : ptr + min nleft ([] : List β).length = ptr := by
      rw [List.length_nil, Nat.min_zero, Nat.add_zero]
    rw [hmin, List.take_nil, List.append_nil]
    refine ⟨⟨(n - nleft : Nat), buf⟩, ?_, congrArg Nat.cast (by omega), rfl, fun _ _ => rfl⟩
    unfold readnLoop
    split
    · rfl
    · rw [ans]

/-- **`readn` stores the first `n` bytes of the channel**, and nothing behind them. -/
theorem readn_spec (buf : Nat → β) (h : Delivers chan n rs) :
    ∃ r, readn buf n rs = some r ∧ r.ret = (min n chan.length : Nat) ∧
      memory r.buf 0 (min n chan.length) = chan.take n ∧ ∀ k, n ≤ k → r.buf k = buf k := by
  obtain ⟨r, hr, hret, hmem, hout⟩ := readnLoop_spec buf h (Nat.zero_add n)
  rw [Nat.zero_add] at hret hmem
  exact ⟨r, hr, hret, hmem, hout⟩

end Unp
