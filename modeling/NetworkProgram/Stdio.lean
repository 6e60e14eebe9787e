import NetworkProgram.Lib.Piece
import NetworkProgram.Sys

/-!
# Standard I/O and C strings

`Fgets` and `Fputs` of `wrapstdio.cpp`.  A stream opened for reading is the bytes that are still to
come, one opened for writing the bytes written to it; no error occurs on either.
-/

namespace Unp

/-- `c == '\n'` -/
def isNl (c : UInt8) : Bool := c == 10

/-- the bytes before the NUL -/
def cstr (buf : List UInt8) : List UInt8 := buf.takeWhile (fun c => c != 0)

/-- `fgets(ptr, n, stream)`: the bytes stored before the NUL and the rest of the stream; `none` is
the null pointer -/
def fgets (n : Nat) (stream : List UInt8) : Option (List UInt8 × List UInt8) :=
  if stream = [] then none else some (Cut.cut isNl (n - 1) stream)

/-- `fputs(ptr, stream)` -/
def fputs (ptr : List UInt8) (stream : List UInt8) : List UInt8 := stream ++ cstr ptr

theorem isNl_iff {c : UInt8} : isNl c = true ↔ c = 10 := beq_iff_eq

theorem cstr_of_not_mem {buf : List UInt8} (h : 0 ∉ buf) : cstr buf = buf :=
  List.takeWhile_eq_self_iff.mpr (fun _ hc => bne_iff_ne.mpr (fun h0 => h (h0 ▸ hc)))

theorem zero_notMem_cstr (buf : List UInt8) : 0 ∉ cstr buf :=
  fun h => absurd (List.mem_takeWhile_imp h) (by decide)

theorem cstr_length_le (buf : List UInt8) : (cstr buf).length ≤ buf.length :=
  (List.takeWhile_prefix _).length_le

/-- a NUL cuts something off -/
theorem cstr_length_lt {buf : List UInt8} (h : 0 ∈ buf) : (cstr buf).length < buf.length := by
  refine Nat.lt_of_le_of_ne (cstr_length_le buf) fun hlen => zero_notMem_cstr buf ?_
  have hself : cstr buf = buf := (List.takeWhile_prefix _).eq_of_length hlen
  rwa [hself]

theorem cstr_append_zero (a b : List UInt8) : cstr (a ++ 0 :: b) = cstr a := by
  induction a with
  | nil => rfl
  | cons c a ih =>
    unfold cstr at ih ⊢
    rw [List.cons_append, List.takeWhile_cons, List.takeWhile_cons, ih]

theorem cstr_append {a b : List UInt8} (h : 0 ∉ a) : cstr (a ++ b) = a ++ cstr b :=
  List.takeWhile_append_of_pos (fun _ hc => bne_iff_ne.mpr (fun h0 => h (h0 ▸ hc)))

theorem fgets_nil (n : Nat) : fgets n [] = none := rfl

theorem fgets_of_ne_nil {n : Nat} {stream : List UInt8} (h : stream ≠ []) :
    fgets n stream = some (Cut.cut isNl (n - 1) stream) := if_neg h

end Unp
