import NetworkProgram.Sys

/-!
# `my_read` and `readline`

`readline.cpp`.  The statics `read_cnt`, `read_ptr` and `read_buf` are one `Statics` value; a `Feed`
is what `read` will still answer on a descriptor, and after its end `read` answers `0` for ever.

* `myRead`     one byte, from the buffer or after a new `read`;
* `readline`   the loop over `my_read`, with the bytes stored in the caller's buffer.

The byte type is a parameter (`isNl` says which bytes are a newline), so that bytes can carry the
descriptor they arrived on.
-/

namespace Unp

variable {β : Type}

abbrev Feed (β : Type) := List (ReadRes β MAXLINE)

/-- `read_ptr` is an offset into `read_buf`; the memory after `read_buf` is a part of `readBuf` -/
structure Statics (β : Type) where
  readCnt : Nat
  readPtr : Nat
  readBuf : Nat → β

/-- the bytes of `[read_ptr, read_ptr + read_cnt)` -/
def Statics.window (s : Statics β) : List β :=
  (List.range s.readCnt).map (fun k => s.readBuf (s.readPtr + k))

/-- what `my_read` returns: `1` with the byte, `0` or `-1` -/
inductive Rc (β : Type) where
  | byte (c : β)
  | eof
  | fail

structure MyRead (β : Type) where
  rc : Rc β
  st : Statics β
  feed : Feed β

/-- `read_cnt--; *ptr = *read_ptr++; return(1);` -/
def fetch (s : Statics β) (feed : Feed β) : MyRead β :=
  ⟨.byte (s.readBuf s.readPtr), { s with readCnt := s.readCnt - 1, readPtr := s.readPtr + 1 }, feed⟩

/-- from the label `again` on.  `read_cnt` is a `size_t`, so the test for a failed `read` compares
an unsigned value with 0. -/
def again (s : Statics β) : Feed β → MyRead β
  | [] => ⟨.eof, { s with readCnt := 0 }, []⟩
  | r :: feed =>
    let s := { s with
      readCnt := sizeT r.ret
      readBuf := fun k => r.bytes.getD k (s.readBuf k) }
    if s.readCnt < 0 then
      if r.errno = EINTR then again s feed else ⟨.fail, s, feed⟩
    else if s.readCnt = 0 then ⟨.eof, s, feed⟩
    else fetch { s with readPtr := 0 } feed

def myRead (s : Statics β) (feed : Feed β) : MyRead β :=
  if s.readCnt ≤ 0 then again s feed else fetch s feed

/-- a call of `readline`: the value returned, the bytes stored before the NUL, whether the NUL was
stored -/
structure Line (β : Type) where
  ret : Int
  stored : List β
  nul : Bool

structure Readline (β : Type) where
  line : Line β
  st : Statics β
  feed : Feed β

variable (isNl : β → Bool)

/-- the loop at `n`, with `room = maxlen - n` turns left and `acc` stored -/
def readlineFrom : (room n : Nat) → List β → Statics β → Feed β → Readline β
  | 0, n, acc, s, feed => ⟨⟨n, acc, true⟩, s, feed⟩
  | room + 1, n, acc, s, feed =>
    let r := myRead s feed
    match r.rc with
    | .byte c =>
      if isNl c then ⟨⟨n, acc ++ [c], true⟩, r.st, r.feed⟩
      else readlineFrom room (n + 1) (acc ++ [c]) r.st r.feed
    | .eof => ⟨⟨n - 1, acc, true⟩, r.st, r.feed⟩
    | .fail => ⟨⟨-1, acc, false⟩, r.st, r.feed⟩

def readline (maxlen : Nat) (s : Statics β) (feed : Feed β) : Readline β :=
  readlineFrom isNl (maxlen - 1) 1 [] s feed

end Unp
