import NetworkProgram.SockAddr.Impl
import NetworkProgram.Traceroute.Placed

/-!
# traceroute sends its probes

`traceloop` of `traceroute/main.cpp` from its loop on, with `recv_v4` as in `Traceroute.Step`; `maxTtl`
and `pid` are what `main` has found.  A step is an iteration of a loop up to the next call that waits,
or a step of `recv_v4`; behind what is not defined there is none.

* `State.send`   a probe, and the call of `recv_v4`;
* `State.take`   what is done with its value;
* `Step`         the step relation.

The times are left out, and so is what is sent behind `rec_ttl`.
-/

namespace Unp.Traceroute.Loop

open Trans
open SockAddr (Sockaddr sockCmpAddr)

/-! ## what `main` sets -/

def nprobes : Nat := 3

def dport : UInt16 := 32768 + 666

/-- `(getpid() & 0xffff)|0x8000` -/
def sport (pid : UInt32) : UInt16 := (pid &&& 0xffff ||| 0x8000).toUInt16

/-- the datagram `seq`, as `recv_v4` looks for it -/
def probeOf (pid : UInt32) (seq : Nat) : Probe := ⟨sport pid, dport, seq⟩

/-- `setsockopt` takes no `IP_TTL` above this -/
def MAXTTL : Nat := 255

def ascii (s : String) : List UInt8 := s.toList.map fun c => .ofNat c.toNat

/-- the string at the value returned -/
def icmpcodeV4 (code : Int) : List UInt8 :=
  if code = 0 then ascii "network unreachable"
  else if code = 1 then ascii "host unreachable"
  else if code = 2 then ascii "protocol unreachable"
  else if code = 3 then ascii "port unreachable"
  else if code = 4 then ascii "fragmentation required but DF bit set"
  else if code = 5 then ascii "source route failed"
  else if code = 6 then ascii "destination network unknown"
  else if code = 7 then ascii "destination host unknown"
  else if code = 8 then ascii "source host isolated (obsolete)"
  else if code = 9 then ascii "destination network administratively prohibited"
  else if code = 10 then ascii "destination host administratively prohibited"
  else if code = 11 then ascii "network unreachable for TOS"
  else if code = 12 then ascii "host unreachable for TOS"
  else if code = 13 then ascii "communication administratively prohibited by filtering"
  else if code = 14 then ascii "host recedence violation"
  else if code = 15 then ascii "precedence cutoff in effect"
  else ascii "[unknown code " ++ fmtD (Int32.ofInt code) ++ ascii "]"

/-! ## states -/

/-- a datagram sent: `rec_seq` and `rec_ttl`, and its port -/
structure Sent where
  recSeq : UInt16
  recTtl : UInt16
  port : UInt16
  deriving DecidableEq

/-- what is printed on a line -/
inductive Item where
  /-- `%2d ` -/
  | ttl (ttl : Nat)
  /-- ` *` -/
  | timeout
  /-- ` %s (%s) `, or ` %s` where `getnameinfo` has failed -/
  | host (name : Option (List UInt8)) (sa : Sockaddr)
  /-- `    %3.f ms` -/
  | rtt
  /-- ` (ICMP %s)` -/
  | icmp (text : List UInt8)
  deriving DecidableEq

/-- a call of `recv_v4` that has returned: the probe, the datagrams received, the value, the address
in `sarecv`, and the name that it has -/
structure Call where
  sent : Sent
  got : List Datagram
  code : Int
  sarecv : Sockaddr
  name : Option (List UInt8)

inductive Pc where
  | outer
  | inner
  | recv (sent : Sent) (got : List Datagram) (call : Traceroute.State)
  | returned
  | stopped (why : Stop)

structure State where
  pc : Pc
  ttl : Nat
  probe : Nat
  seq : Nat
  done : Nat
  /-- between two calls -/
  recvbuf : Int → UInt8
  sarecv : Sockaddr
  salast : Sockaddr
  /-- the calls that have returned -/
  log : List Call
  /-- the lines printed, and the line that is being printed -/
  out : List (List Item)
  line : List Item

/-- `Calloc` has cleared the addresses -/
def start (recvbuf : Int → UInt8) : State := ⟨.outer, 1, 0, 0, 0, recvbuf, .zero, .zero, [], [], []⟩

/-- `ttl <= max_ttl && done == 0` -/
def State.Goes (maxTtl : Nat) (s : State) : Prop := s.ttl ≤ maxTtl ∧ s.done = 0

instance (maxTtl : Nat) (s : State) : Decidable (s.Goes maxTtl) :=
  inferInstanceAs (Decidable (_ ∧ _))

/-! ## the loops -/

/-- from `rec->rec_seq = ++seq` to the call of `recv_v4`, which finds anything in its variables -/
def State.send (pid : UInt32) (s : State) (l : Locals) : State :=
  let seq := s.seq + 1
  { s with
    pc := .recv ⟨.ofNat seq, .ofNat s.ttl, (probeOf pid seq).port⟩ []
      (Traceroute.start s.recvbuf l)
    seq := seq }

/-- a step of `recv_v4`; `sa` is the sender of a datagram -/
def State.recv (s : State) (sent : Sent) (got : List Datagram) (e : Traceroute.Event)
    (sa : Sockaddr) (call : Traceroute.State) : State :=
  { s with
    pc := .recv sent (got ++ datagrams [e]) call
    sarecv := if datagrams [e] = [] then s.sarecv else sa }

/-- `if (sock_cmp_addr(pr->sarecv, pr->salast, pr->salen) != 0)` -/
def State.host (s : State) (name : Option (List UInt8)) : State :=
  if sockCmpAddr s.sarecv s.salast ≠ 0 then
    { s with line := s.line ++ [.host name s.sarecv], salast := s.sarecv }
  else s

/-- `done`, or the text of the code -/
def State.verdict (s : State) (code : Int) : State :=
  if code = -1 then { s with done := s.done + 1 }
  else if 0 ≤ code then { s with line := s.line ++ [.icmp (icmpcodeV4 code)] }
  else s

/-- `recv_v4` has returned `code` -/
def State.print (s : State) (name : Option (List UInt8)) (code : Int) : State :=
  if code = -3 then { s with line := s.line ++ [.timeout] }
  else
    let s := s.host name
    let s := { s with line := s.line ++ [Item.rtt] }
    s.verdict code

def State.take (s : State) (sent : Sent) (got : List Datagram) (recvbuf : Int → UInt8)
    (name : Option (List UInt8)) (code : Int) : State :=
  { s.print name code with
    pc := .inner
    probe := s.probe + 1
    recvbuf := recvbuf
    log := s.log ++ [⟨sent, got, code, s.sarecv, name⟩] }

inductive Event where
  | setTtl
  | send (l : Locals)
  | recv (e : Traceroute.Event) (sa : Sockaddr)
  | take (name : Option (List UInt8)) (code : Int)
  | line
  | finish
  | fail (msg : String)

inductive Step (maxTtl : Nat) (pid : UInt32) (s : State) : Event → State → Prop where
  /-- the outer loop goes on: `Setsockopt`, and the new line -/
  | setTtl (pc : s.pc = .outer) (goes : s.Goes maxTtl) (le : s.ttl ≤ MAXTTL) :
      Step maxTtl pid s .setTtl
        { s with pc := .inner, probe := 0, salast := .zero, line := [.ttl s.ttl] }
  | send (l : Locals) (pc : s.pc = .inner) (lt : s.probe < nprobes) :
      Step maxTtl pid s (.send l) (s.send pid l)
  | recv (e : Traceroute.Event) (sa : Sockaddr) {sent : Sent} {got : List Datagram}
      {call call' : Traceroute.State} (pc : s.pc = .recv sent got call)
      (step : Traceroute.Step (probeOf pid s.seq) call e call') :
      Step maxTtl pid s (.recv e sa) (s.recv sent got e sa call')
  | take (name : Option (List UInt8)) (code : Int) {sent : Sent} {got : List Datagram}
      {call : Traceroute.State} (pc : s.pc = .recv sent got call) (ret : call.pc = .returned code) :
      Step maxTtl pid s (.take name code) (s.take sent got call.recvbuf name code)
  /-- the inner loop is left -/
  | line (pc : s.pc = .inner) (le : nprobes ≤ s.probe) :
      Step maxTtl pid s .line
        { s with pc := .outer, ttl := s.ttl + 1, out := s.out ++ [s.line], line := [] }
  | finish (pc : s.pc = .outer) (stops : ¬ s.Goes maxTtl) :
      Step maxTtl pid s .finish { s with pc := .returned }
  /-- `Setsockopt`, `Sendto` or `recvfrom` has failed -/
  | fail (msg : String)
      (pc : (s.pc = .outer ∧ s.Goes maxTtl ∧ msg = "setsockopt error") ∨
        (s.pc = .inner ∧ s.probe < nprobes ∧ msg = "sendto error") ∨
        ∃ sent got call, s.pc = .recv sent got call ∧ call.pc = .stopped (.errSys msg)) :
      Step maxTtl pid s (.fail msg) { s with pc := .stopped (.errSys msg) }

end Unp.Traceroute.Loop
