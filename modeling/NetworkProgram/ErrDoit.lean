import NetworkProgram.Lib.Poke
import NetworkProgram.Stdio

/-!
# The buffer of err_doit

`err_doit` of `error.cpp`, with and without `HAVE_VSNPRINTF`.  `msg` is what `fmt` and `ap` give; it may
have a NUL in it, by a `%c`.  The memory is the bytes from `buf` on.

* `copied`        what is in `buf` before the newline;
* `safe_iff`      when all that is stored is inside `buf`.

`n` is an `int`; a string that is too long for one is out of `buf` long before.
-/

namespace Unp.ErrDoit
open Mem

def sizeofBuf : Nat := MAXLINE + 1

structure Frame where
  mem : List UInt8
  stored : List Nat

def Frame.put (f : Frame) (off : Nat) (bs : List UInt8) : Frame :=
  ⟨poke f.mem off bs, f.stored ++ List.range' off bs.length⟩

def Frame.strlen (f : Frame) : Nat := (cstr f.mem).length

/-- `vsprintf(buf, ..)` of a text -/
def Frame.vsprintf (f : Frame) (text : List UInt8) : Frame := f.put 0 (text ++ [0])

/-- `snprintf(buf + off, size, ..)` of a text -/
def Frame.snprintf (f : Frame) (off size : Nat) (text : List UInt8) : Frame :=
  if size = 0 then f else f.put off (text.take (size - 1) ++ [0])

def Frame.strcat (f : Frame) (s : List UInt8) : Frame := f.put f.strlen (s ++ [0])

inductive Sink where
  | syslog (level : Int)
  | stderr
  deriving DecidableEq

structure Done where
  f : Frame
  n : Nat
  /-- the size for `snprintf`, if it is called -/
  size : Option Nat
  sink : Sink
  text : List UInt8

def colon (strerror : List UInt8) : List UInt8 := [58, 32] ++ cstr strerror

def errDoit (haveVsnprintf daemonProc errnoflag : Bool) (level : Int) (msg strerror : List UInt8)
    (mem : List UInt8) : Done :=
  let f : Frame := ⟨mem, []⟩
  let f := if haveVsnprintf then f.snprintf 0 MAXLINE msg else f.vsprintf msg
  let n := f.strlen
  let size := sizeT (MAXLINE - n)
  let f := if errnoflag then f.snprintf n size (colon strerror) else f
  let f := f.strcat [10]
  ⟨f, n, if errnoflag then some size else none, if daemonProc then .syslog level else .stderr,
    cstr f.mem⟩

/-- all stores are inside `buf`, the size does not wrap, and the text ends in a newline, with its NUL
inside `buf` -/
structure Safe (d : Done) : Prop where
  inside : ∀ i ∈ d.f.stored, i < sizeofBuf
  size : ∀ k, d.size = some k → (k : Int) = MAXLINE - d.n
  text : ∃ s, d.text = s ++ [10]
  terminated : d.text.length < sizeofBuf

/-- the text of the message fits, without a newline and a NUL -/
def Fits (haveVsnprintf : Bool) (msg : List UInt8) : Prop :=
  haveVsnprintf = true ∨ msg.length ≤ MAXLINE ∧ (cstr msg).length < MAXLINE

variable {haveVsnprintf daemonProc errnoflag : Bool} {level : Int}
  {msg strerror mem a b text : List UInt8} {f : Frame} {off size : Nat}

/-! ## what a store does -/

theorem cstr_vsprintf : cstr (f.vsprintf text).mem = cstr text := by
  have hmem : (f.vsprintf text).mem = text ++ 0 :: f.mem.drop (0 + (text ++ [0]).length) := by
    unfold Frame.vsprintf Frame.put poke
    simp
  rw [hmem, cstr_append_zero]

theorem cstr_put : cstr (f.put f.strlen (text ++ [0])).mem = cstr f.mem ++ cstr text := by
  have htake : f.mem.take f.strlen = cstr f.mem :=
    (List.prefix_iff_eq_take.mp (List.takeWhile_prefix _)).symm
  have hmem : (f.put f.strlen (text ++ [0])).mem =
      cstr f.mem ++ (text ++ 0 :: f.mem.drop (f.strlen + (text ++ [0]).length)) := by
    unfold Frame.put poke
    rw [htake]
    simp
  rw [hmem, cstr_append (zero_notMem_cstr _), cstr_append_zero]

theorem mem_put {i : Nat} : i ∈ (f.put off text).stored ↔
    i ∈ f.stored ∨ off ≤ i ∧ i < off + text.length := by
  unfold Frame.put
  rw [List.mem_append, List.mem_range'_1]

/-! ## a message that fits -/

/-- there is room for a newline and a NUL behind the text -/
structure Room (f : Frame) : Prop where
  strlen : f.strlen < MAXLINE
  inside : ∀ i ∈ f.stored, i < sizeofBuf

theorem room_vsprintf (hlen : text.length ≤ MAXLINE) (hstr : (cstr text).length < MAXLINE) :
    Room (Frame.vsprintf ⟨mem, []⟩ text) := by
  refine ⟨?_, fun i hi => ?_⟩
  · unfold Frame.strlen
    rwa [cstr_vsprintf]
  · have hbuf : sizeofBuf = MAXLINE + 1 := rfl
    have hlt := (mem_put.mp hi).resolve_left List.not_mem_nil
    rw [List.length_append, List.length_singleton] at hlt
    omega

theorem Room.snprintf (h : Room f) (text : List UInt8) :
    Room (f.snprintf f.strlen (MAXLINE - f.strlen) text) := by
  have hlt := h.strlen
  have hbuf : sizeofBuf = MAXLINE + 1 := rfl
  have hcut : (text.take (MAXLINE - f.strlen - 1)).length ≤ MAXLINE - f.strlen - 1 :=
    List.length_take_le ..
  unfold Frame.snprintf
  rw [if_neg (by omega)]
  refine ⟨?_, fun i hi => ?_⟩
  · have hle := cstr_length_le (text.take (MAXLINE - f.strlen - 1))
    have hold : (cstr f.mem).length = f.strlen := rfl
    show (cstr _).length < MAXLINE
    rw [cstr_put, List.length_append]
    omega
  · rcases mem_put.mp hi with hi | hi
    · exact h.inside i hi
    · rw [List.length_append, List.length_singleton] at hi
      omega

theorem sizeT_room (h : Room f) : sizeT ((MAXLINE : Int) - f.strlen) = MAXLINE - f.strlen := by
  have hlt := h.strlen
  have hcast : (MAXLINE : Int) - f.strlen = (MAXLINE - f.strlen : Nat) := by omega
  rw [hcast]
  exact sizeT_of_lt (Nat.sub_le ..)

def copied (haveVsnprintf : Bool) (msg mem : List UInt8) : Frame :=
  if haveVsnprintf then Frame.snprintf ⟨mem, []⟩ 0 MAXLINE msg else Frame.vsprintf ⟨mem, []⟩ msg

theorem room_copied (h : Fits haveVsnprintf msg) : Room (copied haveVsnprintf msg mem) := by
  unfold copied
  cases haveVsnprintf with
  | true =>
    have hmax : MAXLINE = 4096 := rfl
    have hcut : (msg.take (MAXLINE - 1)).length ≤ MAXLINE - 1 := List.length_take_le ..
    have hle := cstr_length_le (msg.take (MAXLINE - 1))
    exact room_vsprintf (by omega) (by omega)
  | false =>
    obtain ⟨hlen, hstr⟩ := h.resolve_left Bool.false_ne_true
    exact room_vsprintf hlen hstr

/-- with the text of `errno`, if `errnoflag` is set -/
def explained (errnoflag : Bool) (strerror : List UInt8) (f : Frame) : Frame :=
  if errnoflag then f.snprintf f.strlen (sizeT (MAXLINE - f.strlen)) (colon strerror) else f

theorem Room.explained (h : Room f) : Room (explained errnoflag strerror f) := by
  unfold ErrDoit.explained
  split
  · rw [sizeT_room h]
    exact h.snprintf _
  · exact h

theorem errDoit_frame : (errDoit haveVsnprintf daemonProc errnoflag level msg strerror mem).f =
    (explained errnoflag strerror (copied haveVsnprintf msg mem)).strcat [10] := rfl

theorem safe_of_fits (h : Fits haveVsnprintf msg) :
    Safe (errDoit haveVsnprintf daemonProc errnoflag level msg strerror mem) := by
  have hcopied : Room (copied haveVsnprintf msg mem) := room_copied h
  have hroom : Room (explained errnoflag strerror (copied haveVsnprintf msg mem)) :=
    hcopied.explained
  have hlt := hroom.strlen
  have hbuf : sizeofBuf = MAXLINE + 1 := rfl
  have htext : (errDoit haveVsnprintf daemonProc errnoflag level msg strerror mem).text =
      cstr (explained errnoflag strerror (copied haveVsnprintf msg mem)).mem ++ [10] := cstr_put
  refine ⟨fun i hi => ?_, fun k hk => ?_, ⟨_, htext⟩, ?_⟩
  · rw [errDoit_frame] at hi
    rcases mem_put.mp hi with hi | hi
    · exact hroom.inside i hi
    · have htwo : ([10] ++ [0] : List UInt8).length = 2 := rfl
      omega
  · have hn := hcopied.strlen
    have hsize : (if errnoflag then some (sizeT (MAXLINE - (copied haveVsnprintf msg mem).strlen))
      else none) = some k := hk
    obtain ⟨_, hval⟩ := Option.ite_none_right_eq_some.mp hsize
    obtain rfl := Option.some.inj hval
    rw [sizeT_room hcopied]
    show ((MAXLINE - (copied haveVsnprintf msg mem).strlen : Nat) : Int) =
      MAXLINE - (copied haveVsnprintf msg mem).strlen
    omega
  · rw [htext, List.length_append, List.length_singleton]
    show (explained errnoflag strerror (copied haveVsnprintf msg mem)).strlen + 1 < sizeofBuf
    omega

/-! ## a message that does not -/

theorem stored_explained {i : Nat} (h : i ∈ f.stored) :
    i ∈ (explained errnoflag strerror f).stored := by
  unfold explained Frame.snprintf
  split
  · split
    · exact h
    · exact mem_put.mpr (Or.inl h)
  · exact h

/-- `vsprintf` stores too much, or `strcat` does -/
theorem outside (daemonProc errnoflag : Bool) (level : Int) (strerror mem : List UInt8)
    (h : ¬ Fits haveVsnprintf msg) : ∃ i, sizeofBuf ≤ i ∧
    i ∈ (errDoit haveVsnprintf daemonProc errnoflag level msg strerror mem).f.stored := by
  have hbuf : sizeofBuf = MAXLINE + 1 := rfl
  rw [errDoit_frame]
  cases haveVsnprintf with
  | true => exact absurd (Or.inl rfl) h
  | false =>
    by_cases hlen : msg.length ≤ MAXLINE
    · have hlong : MAXLINE ≤ (cstr msg).length :=
        Nat.le_of_not_lt (fun hlt => h (Or.inr ⟨hlen, hlt⟩))
      have hle := cstr_length_le msg
      have hstrlen : (copied false msg mem).strlen = MAXLINE := by
        show (cstr (Frame.vsprintf ⟨mem, []⟩ msg).mem).length = MAXLINE
        rw [cstr_vsprintf]
        omega
      have hsame : explained errnoflag strerror (copied false msg mem) = copied false msg mem := by
        unfold explained
        rw [hstrlen]
        exact ite_self _
      rw [hsame]
      refine ⟨MAXLINE + 1, hbuf.le, mem_put.mpr (Or.inr ?_)⟩
      rw [hstrlen]
      exact ⟨Nat.le_succ _, Nat.lt_succ_self _⟩
    · refine ⟨msg.length, by omega, mem_put.mpr (Or.inl (stored_explained ?_))⟩
      refine mem_put.mpr (Or.inr ⟨Nat.zero_le _, ?_⟩)
      rw [List.length_append, List.length_singleton]
      omega

/-- **`err_doit` stays inside `buf` exactly if the message fits.** -/
theorem safe_iff (haveVsnprintf daemonProc errnoflag : Bool) (level : Int)
    (msg strerror mem : List UInt8) :
    Safe (errDoit haveVsnprintf daemonProc errnoflag level msg strerror mem) ↔
      Fits haveVsnprintf msg := by
  constructor
  · intro hsafe
    by_contra h
    obtain ⟨i, hge, hi⟩ := outside daemonProc errnoflag level strerror mem h
    exact absurd (hsafe.inside i hi) (Nat.not_lt_of_ge hge)
  · exact safe_of_fits

/-- 4096 times `x`: the newline comes at the last byte of `buf`, and the NUL behind it -/
theorem not_safe : ¬ ∀ (haveVsnprintf daemonProc errnoflag : Bool) (level : Int)
    (msg strerror mem : List UInt8),
    Safe (errDoit haveVsnprintf daemonProc errnoflag level msg strerror mem) := by
  intro h
  have hnot : ¬ Fits false (List.replicate 4096 120) := by
    rintro (hfalse | ⟨_, hlt⟩)
    · exact Bool.false_ne_true hfalse
    · have hzero : (0 : UInt8) ∉ List.replicate 4096 120 :=
        fun hmem => absurd (List.eq_of_mem_replicate hmem) (by decide)
      rw [cstr_of_not_mem hzero, List.length_replicate] at hlt
      exact Nat.lt_irrefl _ hlt
  obtain ⟨i, hge, hi⟩ := outside false false 3 [] [] hnot
  exact absurd ((h false false false 3 (List.replicate 4096 120) [] []).inside i hi)
    (Nat.not_lt_of_ge hge)

end Unp.ErrDoit
