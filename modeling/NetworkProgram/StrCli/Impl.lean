import Mathlib.Logic.Function.Basic
import NetworkProgram.Sys

/-!
# The non-blocking `str_cli`

`nonblock/str_cli_nonblock.cpp`: one buffer `to` from stdin to the socket and one buffer `fr`
from the socket to stdout, each with an input and an output pointer.  An iteration of the loop is
`iter`: the sets for `Select`, then the four branches in the order of the source.

* `Buf`      a buffer with its two pointers (as offsets from its start);
* `Sys`      the system calls of the loop, as they appear in the trace `St.trace`;
* `Turn`     what the kernel answers during one iteration;
* `iter`     one iteration: on to the next loop head, a return, or the end of the process.

The `fprintf(stderr, ..)` lines and the `O_NONBLOCK` set-up are left out.
-/

namespace Unp.StrCli

/-- the three descriptors of the loop -/
inductive Desc where
  | stdin
  | stdout
  | sock
  deriving DecidableEq, Repr

/-! ## fd_set -/

abbrev FdSet := Desc → Bool

def FdSet.zero : FdSet := fun _ => false
def FdSet.set (fs : FdSet) (d : Desc) : FdSet := Function.update fs d true

/-! ## a buffer and its pointers -/

structure Buf where
  mem : Nat → UInt8
  iptr : Nat
  optr : Nat

/-- the bytes in `[optr, iptr)` -/
def Buf.window (b : Buf) : List UInt8 :=
  (List.range (b.iptr - b.optr)).map (fun k => b.mem (b.optr + k))

/-- `read(fd, iptr, ..)` stores `bs`, and `iptr += n` -/
def Buf.fill (b : Buf) (bs : List UInt8) : Buf :=
  { b with
    mem := fun k => if k < b.iptr then b.mem k else bs.getD (k - b.iptr) (b.mem k)
    iptr := b.iptr + bs.length }

/-- `optr += nwritten`, back to the beginning of the buffer when it is empty -/
def Buf.drain (b : Buf) (k : Nat) : Buf :=
  if b.optr + k = b.iptr then { b with iptr := 0, optr := 0 } else { b with optr := b.optr + k }

/-! ## the trace -/

inductive Sys where
  | select (rset wset : FdSet)
  | read (d : Desc) (len : Nat) (got : ReadRes UInt8 len)
  | write (d : Desc) (bs : List UInt8) (got : WriteRes bs.length)
  | shutdown

def Sys.bytesRead (d : Desc) : Sys → List UInt8
  | .read d' _ got => if d' = d then got.bytes else []
  | _ => []

def Sys.bytesWritten (d : Desc) : Sys → List UInt8
  | .write d' bs got => if d' = d then bs.take got.count else []
  | _ => []

def Sys.isEof (d : Desc) : Sys → Prop
  | .read d' _ .eof => d' = d
  | _ => False

def Sys.isShutdown : Sys → Bool
  | .shutdown => true
  | _ => false

/-- the bytes read from `d`, in order -/
def bytesRead (d : Desc) (tr : List Sys) : List UInt8 := tr.flatMap (Sys.bytesRead d)
/-- the bytes written to `d`, in order -/
def bytesWritten (d : Desc) (tr : List Sys) : List UInt8 := tr.flatMap (Sys.bytesWritten d)
/-- a read of `d` has returned 0 -/
def eofRead (d : Desc) (tr : List Sys) : Prop := ∃ e ∈ tr, e.isEof d
/-- how often `Shutdown(sockfd, SHUT_WR)` was called -/
def shutdowns (tr : List Sys) : Nat := tr.countP Sys.isShutdown

/-! ## the loop -/

structure St where
  toBuf : Buf
  frBuf : Buf
  stdineof : Bool
  trace : List Sys

/-- the state before the loop; the arrays `to` and `fr` hold anything -/
def init (toMem frMem : Nat → UInt8) : St :=
  { toBuf := ⟨toMem, 0, 0⟩, frBuf := ⟨frMem, 0, 0⟩, stdineof := false, trace := [] }

def St.log (s : St) (e : Sys) : St := { s with trace := s.trace ++ [e] }

/-- the answers of the kernel during one iteration; `Select` reports a part of what it is given -/
structure Turn where
  rready : FdSet
  wready : FdSet
  stdin : (len : Nat) → ReadRes UInt8 len
  sock : (len : Nat) → ReadRes UInt8 len
  stdoutW : (len : Nat) → WriteRes len
  sockW : (len : Nat) → WriteRes len

/-- where control is after a branch of the loop -/
inductive Flow where
  | on (s : St) (wset : FdSet)
  | ret (s : St)
  | stop (s : St) (why : Stop)

def Flow.bind (f : Flow) (g : St → FdSet → Flow) : Flow :=
  match f with
  | .on s wset => g s wset
  | .ret s => .ret s
  | .stop s why => .stop s why

def Flow.st : Flow → St
  | .on s _ => s
  | .ret s => s
  | .stop s _ => s

/-- the read set passed to `Select` -/
def readSet (s : St) : FdSet :=
  let rset := FdSet.zero
  let rset := if s.stdineof = false ∧ s.toBuf.iptr < MAXLINE then rset.set .stdin else rset
  if s.frBuf.iptr < MAXLINE then rset.set .sock else rset

/-- the write set passed to `Select` -/
def writeSet (s : St) : FdSet :=
  let wset := FdSet.zero
  let wset := if s.toBuf.optr ≠ s.toBuf.iptr then wset.set .sock else wset
  if s.frBuf.optr ≠ s.frBuf.iptr then wset.set .stdout else wset

/-- read from stdin into `to` -/
def stdinBranch (t : Turn) (rset : FdSet) (s : St) (wset : FdSet) : Flow :=
  if rset .stdin then
    let len := MAXLINE - s.toBuf.iptr
    let s := s.log (.read .stdin len (t.stdin len))
    match t.stdin len with
    | .err e => if e ≠ EWOULDBLOCK then .stop s (.errSys "read error on stdin") else .on s wset
    | .eof =>
      let s := { s with stdineof := true }
      if s.toBuf.optr = s.toBuf.iptr then .on (s.log .shutdown) wset else .on s wset
    | .data bs _ _ => .on { s with toBuf := s.toBuf.fill bs } (wset.set .sock)
  else .on s wset

/-- read from the socket into `fr` -/
def sockBranch (t : Turn) (rset : FdSet) (s : St) (wset : FdSet) : Flow :=
  if rset .sock then
    let len := MAXLINE - s.frBuf.iptr
    let s := s.log (.read .sock len (t.sock len))
    match t.sock len with
    | .err e => if e ≠ EWOULDBLOCK then .stop s (.errSys "read error no socket") else .on s wset
    | .eof =>
      if s.stdineof then .ret s
      else .stop s (.errQuit "str_cli: server terminated prematurely" [])
    | .data bs _ _ => .on { s with frBuf := s.frBuf.fill bs } (wset.set .stdout)
  else .on s wset

/-- write from `fr` to stdout -/
def stdoutBranch (t : Turn) (s : St) (wset : FdSet) : Flow :=
  if wset .stdout ∧ s.frBuf.iptr - s.frBuf.optr > 0 then
    let bs := s.frBuf.window
    let s := s.log (.write .stdout bs (t.stdoutW bs.length))
    match t.stdoutW bs.length with
    | .err e => if e ≠ EWOULDBLOCK then .stop s (.errSys "write error to stdout") else .on s wset
    | .wrote k _ => .on { s with frBuf := s.frBuf.drain k } wset
  else .on s wset

/-- write from `to` to the socket; the drain of the buffer after EOF sends the FIN -/
def sockWBranch (t : Turn) (s : St) (wset : FdSet) : Flow :=
  if wset .sock ∧ s.toBuf.iptr - s.toBuf.optr > 0 then
    let bs := s.toBuf.window
    let s := s.log (.write .sock bs (t.sockW bs.length))
    match t.sockW bs.length with
    | .err e => if e ≠ EWOULDBLOCK then .stop s (.errSys "write error to socket") else .on s wset
    | .wrote k _ =>
      if s.toBuf.optr + k = s.toBuf.iptr then
        let s := { s with toBuf := s.toBuf.drain k }
        if s.stdineof then .on (s.log .shutdown) wset else .on s wset
      else .on { s with toBuf := s.toBuf.drain k } wset
  else .on s wset

/-- one iteration of the loop, from its head -/
def iter (s : St) (t : Turn) : Flow :=
  let ri := readSet s
  let wi := writeSet s
  let s := s.log (.select ri wi)
  let rset : FdSet := fun d => ri d && t.rready d
  let wset : FdSet := fun d => wi d && t.wready d
  (stdinBranch t rset s wset).bind fun s wset =>
  (sockBranch t rset s wset).bind fun s wset =>
  (stdoutBranch t s wset).bind fun s wset =>
  sockWBranch t s wset

/-- from one loop head to the next -/
def nextHead (s : St) (t : Turn) : Option St :=
  match iter s t with
  | .on s' _ => some s'
  | _ => none

end Unp.StrCli
