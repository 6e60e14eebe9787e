import NetworkProgram.Icmpd.Impl

/-!
# traceroute waits for an answer

`recv_v4` of `traceroute/main.cpp`, one call.  `hip` is a pointer, given from `recvbuf` on, and may
point to anything: `hip` and `hlen2` are not assigned before the loop.

* `State.tests`      the test of the quoted headers, at `hip` and `hlen2`;
* `State.datagram`   the body of the loop on a datagram;
* `Step`             the steps of the call, of its alarm and of the socket.

What it prints with `verbose`, and `tv`, are left out.
-/

namespace Unp.Traceroute
open Icmpd (ICMP_UNREACH ICMP_TIMXCEED ICMP_UNREACH_PORT)

/-- `trace.h` -/
def BUFSIZE : Nat := 1500

def ICMP_TIMXCEED_INTRANS : UInt8 := 0

/-- `sizeof(struct ip)` -/
def sizeofIp : Int := 20

def INT_MAX : Int := 2147483647

/-- the source port, the first destination port, and the number of the datagram sent -/
structure Probe where
  sport : UInt16
  dport : UInt16
  seq : Int

/-- `dport + seq` in the 16 bits of a port -/
def Probe.port (p : Probe) : UInt16 := UInt16.ofInt (p.dport.toNat + p.seq)

/-- a raw socket delivers the IP header too; what is longer than `recvbuf` is cut off -/
structure Datagram where
  bytes : List UInt8
  min : 20 ≤ bytes.length
  le : bytes.length ≤ BUFSIZE

/-- `ip_hl << 2` of the IP header at `off` -/
def hlen (buf : Int → UInt8) (off : Int) : Int := (buf off).toNat % 16 * 4

/-! ## states -/

inductive Pc where
  | head
  | recvfrom
  | returned (ret : Int)
  | stopped (why : Stop)
  /-- an `int` has overflowed, or what is not mapped has been read -/
  | undefined
  deriving DecidableEq

/-- what a call finds in its variables, and around `recvbuf` as far as it is mapped -/
structure Locals where
  around : Int → Option UInt8
  hip : Int
  hlen2 : Int32

structure State where
  pc : Pc
  gotalarm : Bool
  recvbuf : Int → UInt8
  around : Int → Option UInt8
  hip : Int
  hlen2 : Int32

def start (recvbuf : Int → UInt8) (l : Locals) : State :=
  ⟨.head, false, recvbuf, l.around, l.hip, l.hlen2⟩

/-- `bs` received into `recvbuf` -/
def deliver (buf : Int → UInt8) (bs : Datagram) : Int → UInt8 :=
  fun k => if 0 ≤ k ∧ k < bs.bytes.length then bs.bytes.getD k.toNat 0 else buf k

/-! ## the headers quoted -/

/-- the byte at `recvbuf + k` -/
def State.look (s : State) (k : Int) : Option UInt8 :=
  if 0 ≤ k ∧ k < BUFSIZE then some (s.recvbuf k) else s.around k

/-- a 16-bit field in network order, as compared with `htons` -/
def State.port (s : State) (off : Int) : Option UInt16 :=
  match s.look off, s.look (off + 1) with
  | some b0, some b1 => some (word .big b0 b1)
  | _, _ => none

/-- `hip->ip_p == IPPROTO_UDP && udp->uh_sport == htons(sport) && udp->uh_dport == htons(dport+seq)` -/
def State.quotes (p : Probe) (s : State) (hip udp : Int) : Option Bool :=
  (s.look (hip + 9)).bind fun ipP =>
    if ipP ≠ IPPROTO_UDP then some false
    else (s.port udp).bind fun uhSport =>
      if uhSport ≠ p.sport then some false
      else (s.port (udp + 2)).map fun uhDport => uhDport = p.port

/-- `if (icmplen < 8+hlen2+4) continue;`, and the headers -/
def State.tests (p : Probe) (s : State) (hlen1 icmplen : Int) : Option Bool :=
  if INT_MAX < 8 + s.hlen2.toInt + 4 then none
  else if icmplen < 8 + s.hlen2.toInt + 4 then some false
  else s.quotes p s.hip (hlen1 + 8 + s.hlen2.toInt)

/-! ## the loop -/

/-- an `ICMP_UNREACH` of code `code` has been taken -/
def unreachRet (code : UInt8) : Int := if code = ICMP_UNREACH_PORT then -1 else code.toNat

/-- out of the loop with `ret`, or on with it -/
def Pc.tested (ret : Int) : Option Bool → Pc
  | none => .undefined
  | some true => .returned ret
  | some false => .head

/-- the loop from `ip = (struct ip*)recvbuf` on, with `n` for the bytes received -/
def State.parse (p : Probe) (s : State) (n : Int) : State :=
  let hlen1 := hlen s.recvbuf 0
  let icmp := hlen1
  let icmplen := n - hlen1
  if icmplen < 8 then { s with pc := .head }
  else if s.recvbuf icmp = ICMP_TIMXCEED ∧ s.recvbuf (icmp + 1) = ICMP_TIMXCEED_INTRANS then
    if icmplen < 8 + sizeofIp then { s with pc := .head }
    else
      let s := { s with hip := hlen1 + 8, hlen2 := .ofInt (hlen s.recvbuf (hlen1 + 8)) }
      { s with pc := .tested (-2) (s.tests p hlen1 icmplen) }
  else if s.recvbuf icmp = ICMP_UNREACH then
    -- `hip` and `hlen2` are those of an earlier datagram, or not assigned
    { s with pc := .tested (unreachRet (s.recvbuf (icmp + 1))) (s.tests p hlen1 icmplen) }
  else { s with pc := .head }

def State.datagram (p : Probe) (s : State) (bs : Datagram) : State :=
  { s with recvbuf := deliver s.recvbuf bs }.parse p bs.bytes.length

inductive Event where
  | alarm
  | check
  | datagram (bs : Datagram)
  | err (e : Errno)

inductive Step (p : Probe) (s : State) : Event → State → Prop where
  /-- `sig_alrm` -/
  | alarm (pc : s.pc = .head ∨ s.pc = .recvfrom) : Step p s .alarm { s with gotalarm := true }
  /-- `if (gotalarm) return -3;` -/
  | check (pc : s.pc = .head) :
      Step p s .check { s with pc := if s.gotalarm then .returned (-3) else .recvfrom }
  | datagram (bs : Datagram) (pc : s.pc = .recvfrom) : Step p s (.datagram bs) (s.datagram p bs)
  | err (e : Errno) (pc : s.pc = .recvfrom) :
      Step p s (.err e)
        { s with pc := if e = EINTR then .head else .stopped (.errSys "recvfrom error") }

end Unp.Traceroute
