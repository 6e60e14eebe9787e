import NetworkProgram.Ping.RoundTrip

/-!
# A session of ping

`readloop` of `ping/main.cpp`, with `sig_alrm`, `send_v4` and `proc_v4`, on a network that loses packets
and delivers others.  A step is a call of the loop, a signal (which may come at any of them), or what
the network does.

* `State.sigAlrm`   the handler, which sends a request;
* `State.proc`      a packet, given to `proc_v4`;
* `Own`             what makes a packet an answer to this process;
* `Step`            the step relation.

The host answers a request once.  The addresses are left out.
-/

namespace Unp.Ping.Session

open Trans

def BUFFSIZE : Nat := 8192

/-- `datalen`, as `main` sets it -/
def datalen : Nat := 56

/-- the byte order of the host, the option `-v`, and `getpid()` -/
structure Config where
  e : Endian
  verbose : Bool
  getpid : Nat

/-- `getpid() & 0xffff` -/
def Config.pid (c : Config) : Nat := c.getpid % 65536

/-- the call `readloop` is at -/
inductive Pc where
  | recvmsg
  | gettimeofday (n : Nat)
  | proc (n : Nat) (tval : Timeval)
  | stopped (why : Stop)

structure State where
  pc : Pc
  sendbuf : List UInt8
  nsent : Nat
  /-- an alarm is to come -/
  alarm : Bool
  recvbuf : Nat → UInt8
  out : List Line
  /-- the requests under way, and the packets at the socket -/
  wire : List (List UInt8)
  queue : List (List UInt8)
  /-- what `Gettimeofday` has stored, in `send_v4` and in `readloop` -/
  sent : List Timeval
  recvd : List Timeval

variable (c : Config)

def State.sigAlrm (s : State) (now : Timeval) : State :=
  let icmp := sendV4 c.e s.sendbuf c.pid s.nsent datalen now
  { s with
    sendbuf := Mem.poke s.sendbuf 0 icmp
    nsent := s.nsent + 1
    wire := s.wire ++ [icmp]
    sent := s.sent ++ [now]
    alarm := true }

/-- `sendbuf` is cleared; `sig_alrm(SIGALRM)` sends the first packet -/
def start (recvbuf : Nat → UInt8) (now : Timeval) : State :=
  State.sigAlrm c
    ⟨.recvmsg, List.replicate BUFSIZE 0, 0, false, recvbuf, [], [], [], [], []⟩ now

/-- `recvmsg` of the packet `p` -/
def State.recvmsg (s : State) (p : List UInt8) : State :=
  let p := p.take BUFFSIZE
  { s with pc := .gettimeofday p.length, recvbuf := received p s.recvbuf }

/-- `pr->fproc(recvbuf, n, &msg, &tval)` -/
def State.proc (s : State) (n : Nat) (tval : Timeval) : State :=
  { s with
    pc := .recvmsg
    out := s.out ++ ((procV4 c.e c.verbose c.pid n tval).run s.recvbuf).toList }

/-! ## the network -/

/-- an echo reply with the id of this process -/
def Own (n : Nat) (m : Nat → UInt8) : Prop :=
  m 9 = IPPROTO_ICMP ∧ 8 ≤ (n : Int) - hlen1 m ∧ m (hlen1 m) = ICMP_ECHOREPLY ∧
    (halfAt c.e m (hlen1 m + 4)).toNat = c.pid

/-- a packet that is none, whatever is in `recvbuf` behind it -/
def Stray (p : List UInt8) : Prop :=
  ∀ rest, ¬ Own c (p.take BUFFSIZE).length (received (p.take BUFFSIZE) rest)

/-- what `gettimeofday` stores -/
structure Clock (tv : Timeval) : Prop where
  normal : tv.Normal
  long : IsLong tv.tvSec

inductive Event where
  | alarm (now : Timeval)
  | recvmsg
  | gettimeofday (tval : Timeval)
  | proc
  | fail (msg : String)
  | answer
  | stray
  | lose
  | drop

inductive Step (s : State) : Event → State → Prop where
  /-- `SIGALRM`; in `recvmsg` it returns `EINTR`, and the loop goes on -/
  | alarm (now : Timeval) (set : s.alarm = true) (on : ∀ why, s.pc ≠ .stopped why)
      (clock : Clock now) : Step s (.alarm now) (s.sigAlrm c now)
  | recvmsg (p : List UInt8) (rest : List (List UInt8)) (pc : s.pc = .recvmsg)
      (queue : s.queue = p :: rest) : Step s .recvmsg { s.recvmsg p with queue := rest }
  | gettimeofday (n : Nat) (tval : Timeval) (pc : s.pc = .gettimeofday n) :
      Step s (.gettimeofday tval) { s with pc := .proc n tval, recvd := s.recvd ++ [tval] }
  | proc (n : Nat) (tval : Timeval) (pc : s.pc = .proc n tval) : Step s .proc (s.proc c n tval)
  /-- `Sendto` has failed in the handler, or `recvmsg`, but not with `EINTR` -/
  | fail (msg : String) (on : (s.alarm = true ∧ (∀ why, s.pc ≠ .stopped why) ∧ msg = "sendto error") ∨
        (s.pc = .recvmsg ∧ msg = "recvmsg error")) :
      Step s (.fail msg) { s with pc := .stopped (.errSys msg) }
  /-- the host, of any byte order, answers a request -/
  | answer (icmp : List UInt8) (before after : List (List UInt8)) (e' : Endian) (ip : IpHeader)
      (wire : s.wire = before ++ icmp :: after) :
      Step s .answer
        { s with wire := before ++ after, queue := s.queue ++ [ip.bytes ++ echoReply e' icmp] }
  | stray (p : List UInt8) (stray : Stray c p) : Step s .stray { s with queue := s.queue ++ [p] }
  | lose (icmp : List UInt8) (before after : List (List UInt8))
      (wire : s.wire = before ++ icmp :: after) : Step s .lose { s with wire := before ++ after }
  | drop (p : List UInt8) (before after : List (List UInt8)) (queue : s.queue = before ++ p :: after) :
      Step s .drop { s with queue := before ++ after }

end Unp.Ping.Session
