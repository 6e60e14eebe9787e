import NetworkProgram.Bytes
import NetworkProgram.Lib.Poke
import NetworkProgram.Rtt.Impl

/-!
# `dg_send_recv` and its network

`rtt/dg_send_recv.cpp` as a state machine that makes a sequence of calls.  `Pc` is the place in the
code; a `SIGALRM` can come at every place while the timer is armed, and `siglongjmp` goes to the
call that saved `jmpbuf` last.

* `Dg`      the statics, the arguments of the call, the timer, and what happened so far: the
            requests sent, the answers of the server, the timeouts, the values returned;
* `Event`   one step of the client, of the server or of the clock;
* `Step`    the step relation.

An answer is never taken out of `answers`, so a datagram can be lost, duplicated, delayed and
reordered.  `rtt_d_flag` and the address arguments are left out.
-/

namespace Unp

/-- `struct hdr` -/
structure Hdr where
  seq : UInt32
  ts : UInt32
  deriving DecidableEq, Repr

def sizeofHdr : Nat := 8

def Hdr.bytes (e : Endian) (h : Hdr) : List UInt8 := word32Bytes e h.seq ++ word32Bytes e h.ts

/-- a datagram sent by the `call`-th call -/
structure Request where
  call : Nat
  hdr : Hdr
  outbuff : List UInt8
  deriving DecidableEq, Repr

/-- what the server sent for a request: its header, then a payload -/
structure Answer where
  req : Request
  payload : List UInt8
  deriving DecidableEq, Repr

def Answer.datagram (e : Endian) (a : Answer) : List UInt8 := a.req.hdr.bytes e ++ a.payload

/-- a call that has returned `n`; `inbuff` is what the last `Recvmsg` placed there, `accepted` the
answer it took -/
structure Return where
  call : Nat
  n : Int
  errno : Option Errno
  inbuff : List UInt8
  accepted : Option Answer

inductive Pc where
  | idle
  | sendagain
  | send
  | alarm
  | sigsetjmp
  | recv
  | test (n : Nat)
  | alarm0 (n : Nat)
  | stop (n : Nat)
  | timeout
  | exited
  deriving DecidableEq, Repr

structure Dg where
  pc : Pc
  rttinfo : RttInfo
  rttinit : Bool
  sendhdr : Hdr
  recvhdr : List UInt8
  outbuff : List UInt8
  inbytes : Nat
  inbuff : List UInt8
  armed : Bool
  jmpbuf : Option Nat
  calls : Nat
  sent : List Request
  answers : List Answer
  last : Option Answer
  timeouts : List Nat
  returned : List Return

/-- the statics are zero -/
def Dg.init : Dg where
  pc := .idle
  rttinfo := ⟨0, 0, 0, 0, 0, 0⟩
  rttinit := false
  sendhdr := ⟨0, 0⟩
  recvhdr := List.replicate sizeofHdr 0
  outbuff := []
  inbytes := 0
  inbuff := []
  armed := false
  jmpbuf := none
  calls := 0
  sent := []
  answers := []
  last := none
  timeouts := []
  returned := []

/-! ## the statements -/

/-- from the entry of the function to `rtt_newpack` -/
def Dg.enter (s : Dg) (tv : Timeval) (outbuff : List UInt8) (inbytes : Nat) : Dg :=
  let rttinfo := if s.rttinit = false then rttInit s.rttinfo tv else s.rttinfo
  { s with
    pc := .sendagain
    rttinfo := rttNewpack rttinfo
    rttinit := true
    sendhdr := { s.sendhdr with seq := s.sendhdr.seq + 1 }
    outbuff := outbuff
    inbytes := inbytes
    calls := s.calls + 1 }

/-- `sendhdr.ts = rtt_ts(&rttinfo);` -/
def Dg.stamp (s : Dg) (tv : Timeval) : Dg :=
  { s with pc := .send, sendhdr := { s.sendhdr with ts := rttTs s.rttinfo tv } }

def Dg.sendmsg (s : Dg) : Dg :=
  { s with pc := .alarm, sent := s.sent ++ [⟨s.calls, s.sendhdr, s.outbuff⟩] }

/-- `alarm(rtt_start(&rttinfo));` -/
def Dg.setAlarm (s : Dg) : Dg :=
  { s with pc := .sigsetjmp, armed := rttStart s.rttinfo != 0 }

def Dg.setjmp (s : Dg) : Dg := { s with pc := .recv, jmpbuf := some s.calls }

/-- `Recvmsg` of the datagram `d`: the first 8 bytes go over `recvhdr`, the next ones into `inbuff`,
and the rest is cut off -/
def Dg.recvmsg (s : Dg) (d : List UInt8) (a : Option Answer) : Dg :=
  { s with
    pc := .test (min d.length (sizeofHdr + s.inbytes))
    recvhdr := Mem.poke s.recvhdr 0 (d.take sizeofHdr)
    inbuff := (d.drop sizeofHdr).take s.inbytes
    last := a }

/-- `while (n < sizeof(struct hdr) || recvhdr.seq != sendhdr.seq)` -/
def Dg.again (e : Endian) (s : Dg) (n : Nat) : Bool :=
  n < sizeofHdr || load32 e s.recvhdr 0 != s.sendhdr.seq

def Dg.loop (e : Endian) (s : Dg) (n : Nat) : Dg :=
  { s with pc := if s.again e n then .recv else .alarm0 n }

/-- `alarm(0);` -/
def Dg.stopAlarm (s : Dg) (n : Nat) : Dg := { s with pc := .stop n, armed := false }

/-- `rtt_stop`, and the return -/
def Dg.stop (e : Endian) (s : Dg) (n : Nat) (tv : Timeval) : Dg :=
  { s with
    pc := .idle
    rttinfo := rttStop s.rttinfo (rttTs s.rttinfo tv - load32 e s.recvhdr 4)
    returned := s.returned ++ [⟨s.calls, n - sizeofHdr, none, s.inbuff, s.last⟩] }

/-- `sig_alrm` -/
def Dg.sigAlrm (s : Dg) : Dg :=
  { s with pc := .timeout, armed := false, timeouts := s.timeouts ++ [s.calls] }

/-- after `sigsetjmp` has returned `1` -/
def Dg.timeout (s : Dg) : Dg :=
  let (r, rttinfo) := rttTimeout s.rttinfo
  if r < 0 then
    { s with
      pc := .idle
      rttinfo := rttinfo
      rttinit := false
      returned := s.returned ++ [⟨s.calls, -1, some ETIMEDOUT, s.inbuff, none⟩] }
  else { s with pc := .sendagain, rttinfo := rttinfo }

def Dg.exit (s : Dg) : Dg := { s with pc := .exited, armed := false }

/-! ## the steps -/

inductive Event where
  | call (tv : Timeval) (outbuff : List UInt8) (inbytes : Nat)
  | stamp (tv : Timeval)
  | sendmsg
  | setAlarm
  | setjmp
  | recvAnswer (a : Answer)
  | recvShort (d : List UInt8)
  | test
  | stopAlarm
  | stop (tv : Timeval)
  | sigalrm
  | timeout
  | sysErr
  | serve (req : Request) (payload : List UInt8)

inductive Step (e : Endian) (s : Dg) : Event → Dg → Prop where
  | call (tv : Timeval) (outbuff : List UInt8) (inbytes : Nat) (pc : s.pc = .idle) :
      Step e s (.call tv outbuff inbytes) (s.enter tv outbuff inbytes)
  | stamp (tv : Timeval) (pc : s.pc = .sendagain) : Step e s (.stamp tv) (s.stamp tv)
  | sendmsg (pc : s.pc = .send) : Step e s .sendmsg s.sendmsg
  | setAlarm (pc : s.pc = .alarm) : Step e s .setAlarm s.setAlarm
  | setjmp (pc : s.pc = .sigsetjmp) : Step e s .setjmp s.setjmp
  | recvAnswer (a : Answer) (pc : s.pc = .recv) (mem : a ∈ s.answers) :
      Step e s (.recvAnswer a) (s.recvmsg (a.datagram e) (some a))
  | recvShort (d : List UInt8) (pc : s.pc = .recv) (short : d.length < sizeofHdr) :
      Step e s (.recvShort d) (s.recvmsg d none)
  | test (n : Nat) (pc : s.pc = .test n) : Step e s .test (s.loop e n)
  | stopAlarm (n : Nat) (pc : s.pc = .alarm0 n) : Step e s .stopAlarm (s.stopAlarm n)
  | stop (n : Nat) (tv : Timeval) (pc : s.pc = .stop n) : Step e s (.stop tv) (s.stop e n tv)
  /-- the frame that saved `jmpbuf` is that of this call, or an old one at the same place -/
  | sigalrm (armed : s.armed = true) (saved : s.jmpbuf ≠ none) : Step e s .sigalrm s.sigAlrm
  /-- no frame has saved `jmpbuf`, or it is gone: the process crashes -/
  | sigalrmStale (armed : s.armed = true) (stale : s.jmpbuf ≠ some s.calls) :
      Step e s .sigalrm s.exit
  | timeout (pc : s.pc = .timeout) : Step e s .timeout s.timeout
  /-- `Sendmsg` or `Recvmsg` fails -/
  | sysErr (pc : s.pc = .send ∨ s.pc = .recv) : Step e s .sysErr s.exit
  | serve (req : Request) (payload : List UInt8) (mem : req ∈ s.sent) :
      Step e s (.serve req payload) { s with answers := s.answers ++ [⟨req, payload⟩] }

end Unp
