import Mathlib.Logic.Function.Basic
import NetworkProgram.Number
import NetworkProgram.ReadFd

/-!
# Opening a file in another process

`my_open` of `unixdomain/myopen.cpp`, and the program `unixdomain/openfile/main.cpp` that its child
becomes.  What a descriptor of the caller stands for is of type `ω`.  The kernel answers `execl`,
`open` and `write_fd` (`Answers`) and chooses the numbers of new descriptors (`Numbers`);
`Socketpair`, `Fork` and `Waitpid` succeed.

* `openfile`   with the status it exits with, and what it has sent;
* `myOpen`     with the descriptor, `errno` and the table it returns with.
-/

namespace Unp.MyOpen

/-! ## descriptors -/

/-- what a descriptor refers to: what it stood for before the call, an end of the pair, or the file
that the child has opened -/
inductive File (ω : Type) where
  | inherited (x : ω)
  | parentEnd
  | childEnd
  | opened (pathname : List UInt8) (oflag : Int32)

/-- the descriptors of a process -/
abbrev Table (ω : Type) : Type := Nat → Option (File ω)

variable {ω : Type}

def Table.set (t : Table ω) (fd : Nat) (file : Option (File ω)) : Table ω :=
  Function.update t fd file

/-- `Close` -/
def Table.close (t : Table ω) (fd : Nat) : Except Stop (Table ω) :=
  match t fd with
  | some _ => .ok (t.set fd none)
  | none => .error (.errSys "close error")

/-- the descriptor is an `int` -/
def Table.at (t : Table ω) (fd : Int32) : Option (File ω) :=
  if fd < 0 then none else t fd.toInt.toNat

def inherited (before : Nat → Option ω) : Table ω := fun fd => (before fd).map .inherited

/-- the numbers of new descriptors; `before` are those of the caller -/
structure Numbers (before : Nat → Option ω) where
  sockfd : Nat × Nat
  ne : sockfd.1 ≠ sockfd.2
  unused : before sockfd.1 = none ∧ before sockfd.2 = none
  int : sockfd.1 < 2147483648 ∧ sockfd.2 < 2147483648
  /-- of `open` in the child -/
  opened : Nat
  opened_unused : before opened = none ∧ opened ≠ sockfd.2
  /-- of `recvmsg` in the parent -/
  passed : Nat
  passed_unused : before passed = none ∧ passed ≠ sockfd.1

/-- `Socketpair(AF_LOCAL, SOCK_STREAM, 0, sockfd)` -/
def Table.socketpair (t : Table ω) (sockfd : Nat × Nat) : Table ω :=
  (t.set sockfd.1 (some .parentEnd)).set sockfd.2 (some .childEnd)

/-! ## the child -/

/-- how a call ends; a signal ends the process before the call has done anything -/
inductive Answer where
  | ok
  | err (errno : Errno)
  | killed (sig : Nat)
  deriving DecidableEq

/-- the answers to the calls of the child that are made -/
structure Answers where
  execl : Answer
  «open» : Answer
  writeFd : Answer
  /-- a signal after the last of them -/
  last : Option Nat
  deriving DecidableEq

/-- how a process ends -/
inductive End where
  | exit (code : Nat)
  | stopped (stop : Stop)
  | killed (sig : Nat)

/-- what `waitpid` stores -/
inductive Status where
  | exited (code : Nat)
  | signaled (sig : Nat)

/-- 8 bits of the argument of `exit`, which is 1 in `err_quit` and `err_sys` -/
def End.status : End → Status
  | .exit code => .exited (code % 256)
  | .stopped _ => .exited 1
  | .killed sig => .signaled sig

/-- `(errno > 0) ? errno : 255` -/
def exitCode (errno : Errno) : Nat := if errno > 0 then errno else 255

/-- `write_fd`, when `sendmsg` succeeds: what comes to the parent's end of the pair -/
def writeFd (t : Table ω) (fd : Int32) (sendfd : Nat) : Option (Cmsg (File ω)) :=
  match t.at fd, t sendfd with
  | some .childEnd, some file => some ⟨true, SOL_SOCKET, SCM_RIGHTS, ⟨sendfd, file⟩⟩
  | _, _ => none

/-- `openfile/main.cpp`; `fd` is the number for `open` -/
def openfile (argv : List (List UInt8)) (a : Answers) (fd : Nat) (t : Table ω) :
    End × Option (Cmsg (File ω)) :=
  match argv with
  | [_, sockfd, filename, mode] =>
    match a.open with
    | .killed sig => (.killed sig, none)
    | .err errno => (.exit (exitCode errno), none)
    | .ok =>
      let t := t.set fd (some (.opened filename (strtol mode)))
      match a.writeFd with
      | .killed sig => (.killed sig, none)
      | .err errno => (.exit (exitCode errno), none)
      | .ok => (.exit 0, writeFd t (strtol sockfd) fd)
  | _ => (.stopped (.errQuit "openfile <sockfd#> <filename> <mode>" []), none)

/-- `char argsockfd[10], argmode[10]` -/
def argSize : Nat := 10

/-- from `Fork` on, in the child -/
def child (pathname : List UInt8) (mode : Int32) (sockfd : Nat × Nat) (a : Answers) (fd : Nat)
    (t : Table ω) : End × Option (Cmsg (File ω)) :=
  match t.close sockfd.1 with
  | .error stop => (.stopped stop, none)
  | .ok t =>
    let argsockfd := snprintf argSize (fmtD (Int32.ofNat sockfd.2))
    let argmode := snprintf argSize (fmtD mode)
    match a.execl with
    | .killed sig => (.killed sig, none)
    | .err _ => (.stopped (.errSys "execl error"), none)
    | .ok => openfile ["openfile".toUTF8.toList, argsockfd, pathname, argmode] a fd t

/-- a signal may be the last that happens -/
def Answers.finish (a : Answers) (e : End) : End :=
  match a.last with
  | some sig => .killed sig
  | none => e

/-! ## the parent -/

/-- `recvmsg` at the parent's end: the child has ended, so nothing sent is the end of the stream -/
def recvmsg (sent : Option (Cmsg (File ω))) (fd : Nat) (t : Table ω) :
    RecvMsg (File ω) × Table ω :=
  match sent with
  | some cmptr =>
    (⟨1, some { cmptr with data := ⟨fd, cmptr.data.obj⟩ }⟩, t.set fd (some cmptr.data.obj))
  | none => (⟨0, none⟩, t)

structure Returned (ω : Type) where
  fd : Int
  errno : Errno
  table : Table ω

/-- `fd` of `Read_fd` as an `int` -/
def number : Option (Passed (File ω)) → Int
  | some p => p.fd
  | none => -1

/-- from `Waitpid` on; `errno` is that of the caller, and `fd` what stands there before it is set -/
def reap (status : Status) (sent : Option (Cmsg (File ω))) (sockfd passed : Nat) (errno : Errno)
    (fd : Option (Passed (File ω))) (t : Table ω) : Except Stop (Returned ω) :=
  match status with
  | .signaled _ => .error (.errQuit "child did not terminate" [])
  | .exited 0 => do
    let (msg, t) := recvmsg sent passed t
    let (_, fd) ← wrapReadFd msg fd
    let t ← t.close sockfd
    return ⟨number fd, errno, t⟩
  | .exited status => do
    let t ← t.close sockfd
    return ⟨-1, status, t⟩

def myOpen (before : Nat → Option ω) (pathname : List UInt8) (mode : Int32) (a : Answers)
    (num : Numbers before) (errno : Errno) (fd : Option (Passed (File ω))) :
    Except Stop (Returned ω) := do
  let t := (inherited before).socketpair num.sockfd
  let (e, sent) := child pathname mode num.sockfd a num.opened t
  let t ← t.close num.sockfd.2
  reap (a.finish e).status sent num.sockfd.1 num.passed errno fd t

end Unp.MyOpen
