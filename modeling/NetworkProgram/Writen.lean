import Mathlib.Data.List.GetD
import NetworkProgram.Sys

/-!
# `writen` and `Writen`

`writen.cpp`.  A `Writes` is what `write` answers, call after call, each to the length it is asked
for.  The memory at `vptr` is a parameter.

* `writen`        the loop, with what it returns and the bytes that `write` has taken;
* `writen_spec`   it returns its `n` with all bytes taken, or -1 as a `size_t` with fewer taken;
* `writen_ends`   it returns, whatever `write` answers before it takes the rest;
* `Takes`         the answers of a `write` that takes everything, in any pieces.
-/

namespace Unp

variable {β : Type}

abbrev Writes := List ((len : Nat) → WriteRes len)

/-- the value returned, and the bytes taken -/
structure Written (β : Type) where
  ret : Nat
  out : List β

/-- the bytes of `[ptr, ptr + n)` -/
def memory (vptr : Nat → β) (ptr n : Nat) : List β := (List.range n).map (fun k => vptr (ptr + k))

/-- `while (nleft > 0)`; `none` if the answers end before it does -/
def writenLoop (vptr : Nat → β) (n : Nat) (nleft ptr : Nat) (out : List β) :
    Writes → Option (Written β)
  | [] => if nleft = 0 then some ⟨n, out⟩ else none
  | w :: ws =>
    if nleft = 0 then some ⟨n, out⟩
    else match w nleft with
      | .wrote k _ =>
        if k ≤ 0 then some ⟨sizeT (-1), out⟩
        else writenLoop vptr n (nleft - k) (ptr + k) (out ++ memory vptr ptr k) ws
      | .err e =>
        if e = EINTR then writenLoop vptr n nleft ptr out ws
        else some ⟨sizeT (-1), out⟩

def writen (vptr : Nat → β) (n : Nat) (ws : Writes) : Option (Written β) :=
  writenLoop vptr n n 0 [] ws

/-- what `write` answers to a writer of `nleft` bytes where no write fails -/
inductive Takes : Nat → Writes → Prop where
  | done {ws : Writes} : Takes 0 ws
  | wrote {nleft k : Nat} {w : (len : Nat) → WriteRes len} {ws : Writes} {le : k ≤ nleft}
      (ans : w nleft = .wrote k le) (pos : 0 < k) (next : Takes (nleft - k) ws) :
      Takes nleft (w :: ws)
  | intr {nleft : Nat} {w : (len : Nat) → WriteRes len} {ws : Writes} (ans : w nleft = .err EINTR)
      (next : Takes nleft ws) : Takes nleft (w :: ws)

variable {vptr : Nat → β} {n nleft ptr : Nat} {out : List β} {ws : Writes} {r : Written β}

theorem memory_add (ptr k m : Nat) :
    memory vptr ptr (k + m) = memory vptr ptr k ++ memory vptr (ptr + k) m := by
  unfold memory
  rw [List.range_add, List.map_append, List.map_map]
  congr 2
  funext j
  exact congrArg vptr (Nat.add_assoc ptr k j).symm

theorem memory_zero (ptr : Nat) : memory vptr ptr 0 = [] := rfl

/-- the memory into which `bs` has been read -/
theorem memory_getD (bs : List β) (mem : Nat → β) :
    memory (fun k => bs.getD k (mem k)) 0 bs.length = bs := by
  unfold memory
  apply List.ext_getElem
  · rw [List.length_map, List.length_range]
  · intro i h1 h2
    rw [List.getElem_map, List.getElem_range, Nat.zero_add]
    exact List.getD_eq_getElem _ _ h2

theorem memory_length (ptr k : Nat) : (memory vptr ptr k).length = k := by
  unfold memory
  rw [List.length_map, List.length_range]

/-- `writen` has failed before it had written `nleft` more bytes -/
def Failed (vptr : Nat → β) (nleft ptr : Nat) (out : List β) (r : Written β) : Prop :=
  r.ret = sizeT (-1) ∧ ∃ k < nleft, r.out = out ++ memory vptr ptr k

theorem failed_now (hpos : nleft ≠ 0) : Failed vptr nleft ptr out ⟨sizeT (-1), out⟩ :=
  ⟨rfl, 0, Nat.pos_of_ne_zero hpos, (List.append_nil out).symm⟩

theorem Failed.wrote {k : Nat} (hk : k ≤ nleft)
    (h : Failed vptr (nleft - k) (ptr + k) (out ++ memory vptr ptr k) r) :
    Failed vptr nleft ptr out r := by
  obtain ⟨hret, m, hm, hout⟩ := h
  refine ⟨hret, k + m, by omega, ?_⟩
  rw [hout, List.append_assoc, ← memory_add]

theorem taken_now (hz : nleft = 0) : Takes nleft ws ∧ (Written.mk n out).ret = n ∧
    (Written.mk n out).out = out ++ memory vptr ptr nleft := by
  rw [hz, memory_zero, List.append_nil]
  exact ⟨Takes.done, rfl, rfl⟩

/-- the loop has written `out`, and `nleft` bytes from `ptr` on are left -/
theorem writenLoop_spec (h : writenLoop vptr n nleft ptr out ws = some r) :
    (Takes nleft ws ∧ r.ret = n ∧ r.out = out ++ memory vptr ptr nleft) ∨
      Failed vptr nleft ptr out r := by
  induction ws generalizing nleft ptr out with
  | nil =>
    unfold writenLoop at h
    split at h
    · rename_i hz
      obtain rfl := Option.some.inj h
      exact Or.inl (taken_now hz)
    · cases h
  | cons w ws ih =>
    unfold writenLoop at h
    split at h
    · rename_i hz
      obtain rfl := Option.some.inj h
      exact Or.inl (taken_now hz)
    · rename_i hne
      cases hw : w nleft with
      | wrote k le =>
        rw [hw] at h
        dsimp only at h
        split at h
        · obtain rfl := Option.some.inj h
          exact Or.inr (failed_now hne)
        · rename_i hk
          rcases ih h with ⟨ht, hret, hout⟩ | hfail
          · refine Or.inl ⟨Takes.wrote hw (Nat.lt_of_not_le hk) ht, hret, ?_⟩
            have hsplit : nleft = k + (nleft - k) := by omega
            rw [hout, List.append_assoc, ← memory_add, ← hsplit]
          · exact Or.inr (hfail.wrote le)
      | err e =>
        rw [hw] at h
        dsimp only at h
        split at h
        · rename_i he
          rcases ih h with ⟨ht, hrest⟩ | hfail
          · exact Or.inl ⟨Takes.intr (he ▸ hw) ht, hrest⟩
          · exact Or.inr hfail
        · obtain rfl := Option.some.inj h
          exact Or.inr (failed_now hne)

/-- **`writen` writes everything, or returns -1** with a proper prefix written. -/
theorem writen_spec (h : writen vptr n ws = some r) :
    (Takes n ws ∧ r.ret = n ∧ r.out = memory vptr 0 n) ∨ Failed vptr n 0 [] r := writenLoop_spec h

theorem writenLoop_done (n ptr : Nat) (out : List β) (ws : Writes) :
    writenLoop vptr n 0 ptr out ws = some ⟨n, out⟩ := by
  cases ws with
  | nil => rfl
  | cons w ws => rfl

theorem writenLoop_takes (h : Takes nleft ws) :
    writenLoop vptr n nleft ptr out ws = some ⟨n, out ++ memory vptr ptr nleft⟩ := by
  induction h generalizing ptr out with
  | done => rw [writenLoop_done, memory_zero, List.append_nil]
  | @wrote nleft k w ws le ans pos _ ih =>
    unfold writenLoop
    rw [if_neg (by omega), ans]
    dsimp only
    rw [if_neg (by omega), ih, List.append_assoc, ← memory_add, show k + (nleft - k) = nleft by omega]
  | @intr nleft w ws ans _ ih =>
    rcases Nat.eq_zero_or_pos nleft with rfl | hpos
    · rw [writenLoop_done, memory_zero, List.append_nil]
    · unfold writenLoop
      rw [if_neg (by omega), ans]
      dsimp only
      rw [if_pos rfl, ih]

/-- where no write fails, `writen` writes everything -/
theorem writen_takes (h : Takes n ws) : writen vptr n ws = some ⟨n, memory vptr 0 n⟩ :=
  writenLoop_takes h

/-- a write that takes everything -/
def takeAll (len : Nat) : WriteRes len := .wrote len (Nat.le_refl len)

/-- a single write may take everything -/
theorem takes_all (n : Nat) : Takes n [fun len => .wrote len (Nat.le_refl len)] := by
  rcases Nat.eq_zero_or_pos n with rfl | hpos
  · exact Takes.done
  · exact Takes.wrote rfl hpos (Nat.sub_self n ▸ Takes.done)

/-- the loop ends when the answers end with a write that takes the rest -/
theorem writenLoop_ends (n nleft ptr : Nat) (out : List β) (ws : Writes) :
    ∃ r, writenLoop vptr n nleft ptr out (ws ++ [takeAll]) = some r := by
  induction ws generalizing nleft ptr out with
  | nil => exact ⟨_, writenLoop_takes (takes_all nleft)⟩
  | cons w ws ih =>
    rw [List.cons_append]
    unfold writenLoop
    split
    · exact ⟨_, rfl⟩
    · split
      · split
        · exact ⟨_, rfl⟩
        · exact ih ..
      · split
        · exact ih ..
        · exact ⟨_, rfl⟩

/-- **`writen` returns**, whatever `write` answers before it takes the rest. -/
theorem writen_ends (vptr : Nat → β) (n : Nat) (ws : Writes) :
    ∃ r, writen vptr n (ws ++ [takeAll]) = some r := writenLoop_ends ..

/-- `writen` returns its `n` exactly with all bytes written -/
theorem writen_exact (h : writen vptr n ws = some r) (hn : n < sizeT (-1)) :
    (r.ret = n ↔ r.out = memory vptr 0 n) ∧ (r.ret ≠ n → Failed vptr n 0 [] r) := by
  rcases writen_spec h with ⟨_, hret, hout⟩ | hfail
  · exact ⟨iff_of_true hret hout, fun hne => absurd hret hne⟩
  · refine ⟨iff_of_false ?_ ?_, fun _ => hfail⟩
    · rw [hfail.1]
      exact Nat.ne_of_gt hn
    · obtain ⟨_, k, hk, hout⟩ := hfail
      intro hall
      have hlen := congrArg List.length (hout.symm.trans hall)
      rw [List.nil_append, memory_length, memory_length] at hlen
      omega

/-- `Writen` goes on only with all bytes written -/
theorem writen_full (h : writen vptr n ws = some r) (hn : n ≤ MAXLINE) (hret : r.ret = n) :
    r.out = memory vptr 0 n := by
  rcases writen_spec h with ⟨_, _, hout⟩ | hfail
  · exact hout
  · have hmax := maxline_lt_sizeT
    have hret' := hfail.1
    omega

end Unp
