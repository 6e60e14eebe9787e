import NetworkProgram.Sys

/-!
# Receiving a descriptor

`read_fd.cpp` with `HAVE_MSGHDR_MSG_CONTROL`.  `ω` is what a descriptor stands for in the kernel; a
`Passed` is a new descriptor of the receiver and what it stands for.
-/

namespace Unp

structure Passed (ω : Type) where
  fd : Nat
  obj : ω

def SOL_SOCKET : Int := 1
def SCM_RIGHTS : Int := 1

/-- the first control message; `lenOk` is `cmsg_len == CMSG_LEN(sizeof(int))` -/
structure Cmsg (ω : Type) where
  lenOk : Bool
  level : Int
  type : Int
  data : Passed ω

/-- what `recvmsg` returns and stores -/
structure RecvMsg (ω : Type) where
  ret : Int
  cmsg : Option (Cmsg ω)

variable {ω : Type}

/-- `read_fd`; `none` stands for `*recvfd = -1`, and `recvfd` is what the caller has put there -/
def readFd (m : RecvMsg ω) (recvfd : Option (Passed ω)) :
    Except Stop (Int × Option (Passed ω)) :=
  if m.ret ≤ 0 then .ok (m.ret, recvfd)
  else match m.cmsg with
    | some cmptr =>
      if cmptr.lenOk then
        if cmptr.level ≠ SOL_SOCKET then .error (.errQuit "control level != SOL_SOCKET" [])
        else if cmptr.type ≠ SCM_RIGHTS then .error (.errQuit "control type != SCM_RIGHTS" [])
        else .ok (m.ret, some cmptr.data)
      else .ok (m.ret, none)
    | none => .ok (m.ret, none)

/-- `Read_fd` -/
def wrapReadFd (m : RecvMsg ω) (recvfd : Option (Passed ω)) :
    Except Stop (Int × Option (Passed ω)) :=
  match readFd m recvfd with
  | .error stop => .error stop
  | .ok (n, recvfd) => if n < 0 then .error (.errSys "read_fd error") else .ok (n, recvfd)

end Unp
