import Mathlib.Data.List.GetD

/-!
# Stores into a buffer

`poke m off xs`: the buffer `m` with `xs` stored from offset `off` on.  A store inside the buffer
keeps its length, is read back, and leaves the rest alone.
-/

namespace Mem

variable {α : Type}

def poke (m : List α) (off : Nat) (xs : List α) : List α :=
  m.take off ++ xs ++ m.drop (off + xs.length)

theorem poke_length {m : List α} {off : Nat} {xs : List α} (h : off + xs.length ≤ m.length) :
    (poke m off xs).length = m.length := by
  simp only [poke, List.length_append, List.length_take, List.length_drop]
  omega

/-- bytes inside a store -/
theorem getD_poke_in {m : List α} (off k : Nat) {xs : List α} {z : α}
    (h : off + xs.length ≤ m.length) (hk : k < xs.length) :
    (poke m off xs).getD (off + k) z = xs.getD k z := by
  have ht : (m.take off).length = off := by rw [List.length_take]; omega
  rw [poke, List.append_assoc, List.getD_append_right _ _ _ _ (by omega), ht,
    Nat.add_sub_cancel_left, List.getD_append _ _ _ _ hk]

/-- bytes outside a store -/
theorem getD_poke_out {m : List α} {off k : Nat} {xs : List α} {z : α}
    (h : off + xs.length ≤ m.length) (hk : k < off ∨ off + xs.length ≤ k) :
    (poke m off xs).getD k z = m.getD k z := by
  have ht : (m.take off).length = off := by rw [List.length_take]; omega
  have htx : (m.take off ++ xs).length = off + xs.length := by rw [List.length_append, ht]
  rcases hk with hk | hk
  · have hm : (m.take off ++ m.drop off).getD k z = (m.take off).getD k z :=
      List.getD_append _ _ _ _ (by omega)
    rw [List.take_append_drop] at hm
    rw [poke, List.append_assoc, List.getD_append _ _ _ _ (by omega), hm]
  · have hd : (m.take (off + xs.length)).length = off + xs.length := by
      rw [List.length_take]; omega
    have hm : (m.take (off + xs.length) ++ m.drop (off + xs.length)).getD k z
        = (m.drop (off + xs.length)).getD (k - (off + xs.length)) z := by
      rw [List.getD_append_right _ _ _ _ (by omega), hd]
    rw [List.take_append_drop] at hm
    rw [poke, List.getD_append_right _ _ _ _ (by omega), htx, hm]

/-- a second store of the same length at the same place -/
theorem poke_poke {m : List α} {off : Nat} {xs ys : List α} (hl : xs.length = ys.length)
    (h : off + xs.length ≤ m.length) : poke (poke m off xs) off ys = poke m off ys := by
  have ht : (m.take off).length = off := by rw [List.length_take]; omega
  have h1 : (poke m off xs).take off = m.take off := by
    rw [poke, List.append_assoc, List.take_left' ht]
  have h2 : (poke m off xs).drop (off + ys.length) = m.drop (off + ys.length) := by
    have hlen : (m.take off ++ xs).length = off + ys.length := by rw [List.length_append, ht, hl]
    rw [poke, ← hlen, List.drop_left, hl, hlen]
  show (poke m off xs).take off ++ ys ++ (poke m off xs).drop (off + ys.length) = poke m off ys
  rw [h1, h2]
  rfl

/-- the first `n` bytes of a buffer after a store inside them -/
theorem take_poke {m : List α} {off n : Nat} {xs : List α} (h : off + xs.length ≤ n)
    (hn : n ≤ m.length) : (poke m off xs).take n = poke (m.take n) off xs := by
  have hlen : (m.take off ++ xs).length = off + xs.length := by
    rw [List.length_append, List.length_take, Nat.min_eq_left (by omega)]
  have ht : (m.take n).take off = m.take off := by rw [List.take_take, Nat.min_eq_left (by omega)]
  have hd : (m.drop (off + xs.length)).take (n - (off + xs.length))
      = (m.take n).drop (off + xs.length) := List.drop_take.symm
  show (m.take off ++ xs ++ m.drop (off + xs.length)).take n
    = (m.take n).take off ++ xs ++ (m.take n).drop (off + xs.length)
  rw [List.take_append, hlen, List.take_of_length_le (by omega), ht, hd]

end Mem
