import Mathlib.Data.List.GetD
import NetworkProgram.Lib.Relay
import NetworkProgram.StrCli.Impl

/-!
# A buffer with two pointers is a relay

`Buf.Ok` is the invariant of the pointers; `Buf.Relays inp out`: the buffer holds exactly what is
in `inp` and not yet in `out`, as a `Relay`.  `fill` is the relay's `take`, `drain` its `give`.
-/

namespace Unp.StrCli

structure Buf.Ok (b : Buf) : Prop where
  le : b.optr ≤ b.iptr
  bound : b.iptr ≤ MAXLINE
  /-- an empty buffer has been reset to its beginning -/
  reset : b.optr = b.iptr → b.iptr = 0

theorem Buf.window_length (b : Buf) : b.window.length = b.iptr - b.optr := by
  simp [Buf.window]

theorem Buf.window_nil_iff {b : Buf} (h : b.Ok) : b.window = [] ↔ b.optr = b.iptr := by
  have hle := h.le
  rw [← List.length_eq_zero_iff, Buf.window_length]
  omega

theorem Buf.fill_mem_lo (b : Buf) (bs : List UInt8) {k : Nat} (h : k < b.iptr) :
    (b.fill bs).mem k = b.mem k := if_pos h

theorem Buf.fill_mem_hi (b : Buf) (bs : List UInt8) {j : Nat} (h : j < bs.length) :
    (b.fill bs).mem (b.iptr + j) = bs[j] := by
  have hge : ¬ b.iptr + j < b.iptr := by omega
  show (if b.iptr + j < b.iptr then _ else bs.getD (b.iptr + j - b.iptr) _) = _
  rw [if_neg hge, Nat.add_sub_cancel_left, List.getD_eq_getElem _ _ h]

theorem Buf.window_fill {b : Buf} (h : b.optr ≤ b.iptr) (bs : List UInt8) :
    (b.fill bs).window = b.window ++ bs := by
  have hsub : b.iptr + bs.length - b.optr = (b.iptr - b.optr) + bs.length := by omega
  show (List.range (b.iptr + bs.length - b.optr)).map (fun k => (b.fill bs).mem (b.optr + k))
    = b.window ++ bs
  rw [hsub, List.range_add, List.map_append]
  congr 1
  · apply List.map_congr_left
    intro k hk
    have hlt : b.optr + k < b.iptr := by have := List.mem_range.mp hk; omega
    exact Buf.fill_mem_lo b bs hlt
  · apply List.ext_getElem
    · simp
    · intro k h1 h2
      have hidx : b.optr + (b.iptr - b.optr + k) = b.iptr + k := by omega
      simp only [List.getElem_map, List.getElem_range]
      rw [hidx, Buf.fill_mem_hi b bs h2]

theorem Buf.window_drain {b : Buf} (h : b.optr ≤ b.iptr) (k : Nat) (hk : k ≤ b.window.length) :
    (b.drain k).window = b.window.drop k := by
  rw [Buf.window_length] at hk
  unfold Buf.drain
  split
  · rename_i hall
    have hlen : b.window.length ≤ k := by rw [Buf.window_length]; omega
    rw [List.drop_eq_nil_of_le hlen]
    rfl
  · show (List.range (b.iptr - (b.optr + k))).map (fun j => b.mem (b.optr + k + j)) = _
    have hsplit : b.iptr - b.optr = k + (b.iptr - (b.optr + k)) := by omega
    have hw : b.window = (List.range k).map (fun j => b.mem (b.optr + j)) ++
        (List.range (b.iptr - (b.optr + k))).map (fun j => b.mem (b.optr + (k + j))) := by
      unfold Buf.window
      rw [hsplit, List.range_add, List.map_append, List.map_map]
      rfl
    rw [hw, List.drop_left' (by simp)]
    simp only [Nat.add_assoc]

theorem Buf.Ok.fill {b : Buf} (h : b.Ok) {bs : List UInt8} (pos : 0 < bs.length)
    (le : bs.length ≤ MAXLINE - b.iptr) : (b.fill bs).Ok := by
  have h1 := h.le
  have h2 := h.bound
  refine ⟨?_, ?_, ?_⟩
  · show b.optr ≤ b.iptr + bs.length
    omega
  · show b.iptr + bs.length ≤ MAXLINE
    omega
  · show b.optr = b.iptr + bs.length → b.iptr + bs.length = 0
    omega

theorem Buf.Ok.drain {b : Buf} (h : b.Ok) {k : Nat} (hk : k ≤ b.window.length) :
    (b.drain k).Ok := by
  have h1 := h.le
  have h2 := h.bound
  rw [Buf.window_length] at hk
  unfold Buf.drain
  split
  · exact ⟨Nat.le_refl _, Nat.zero_le _, fun _ => rfl⟩
  · rename_i hne
    refine ⟨?_, h2, fun heq => absurd heq hne⟩
    show b.optr + k ≤ b.iptr
    omega

/-- after `drain k` the buffer is empty exactly when all of it went out -/
theorem Buf.drain_empty_iff (b : Buf) (k : Nat) :
    (b.drain k).optr = (b.drain k).iptr ↔ b.optr + k = b.iptr := by
  unfold Buf.drain
  split
  · rename_i hall
    exact ⟨fun _ => hall, fun _ => rfl⟩
  · exact Iff.rfl

/-! ## the relay -/

/-- the buffer relays `inp` to `out`: it holds what was taken in and not yet given out -/
def Buf.Relays (b : Buf) (inp out : List UInt8) : Prop :=
  ∃ r : Relay UInt8, r.taken = inp ∧ r.given = out ∧ r.held = b.window

theorem Buf.Relays.conserve {b : Buf} {inp out : List UInt8} (h : b.Relays inp out) :
    out ++ b.window = inp := by
  obtain ⟨r, rfl, rfl, hw⟩ := h
  rw [← hw, r.conserve]

theorem Buf.Relays.drained_iff {b : Buf} {inp out : List UInt8} (h : b.Relays inp out) (hb : b.Ok) :
    out = inp ↔ b.optr = b.iptr := by
  obtain ⟨r, rfl, rfl, hw⟩ := h
  rw [r.drained_iff, hw, Buf.window_nil_iff hb]

/-- `fill` is `Relay.take` -/
theorem Buf.Relays.fill {b : Buf} {inp out : List UInt8} (h : b.Relays inp out)
    (hb : b.optr ≤ b.iptr) (bs : List UInt8) : (b.fill bs).Relays (inp ++ bs) out := by
  obtain ⟨r, rfl, rfl, hw⟩ := h
  exact ⟨r.take bs, rfl, rfl, by rw [Relay.take_held, hw, Buf.window_fill hb]⟩

/-- `drain` is `Relay.give` -/
theorem Buf.Relays.drain {b : Buf} {inp out : List UInt8} (h : b.Relays inp out)
    (hb : b.optr ≤ b.iptr) (k : Nat) (hk : k ≤ b.window.length) :
    (b.drain k).Relays inp (out ++ b.window.take k) := by
  obtain ⟨r, rfl, rfl, hw⟩ := h
  exact ⟨r.give k, rfl, by rw [Relay.give_given, hw], by rw [Relay.give_held, hw, Buf.window_drain hb k hk]⟩

end Unp.StrCli
