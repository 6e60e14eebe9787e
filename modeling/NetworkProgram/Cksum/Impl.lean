import NetworkProgram.Lib.Poke
import NetworkProgram.Bytes
import NetworkProgram.Sys

/-!
# `in_cksum` and the two functions that store its result

* `inCksum e b`   `in_cksum.cpp` on the bytes `b`, on a host of byte order `e`;
* `sendV4`        `ping/main.cpp`: the echo request with its checksum;
* `udpPseudo`, `udpIp`   the two halves of `udp_write` (`udpchsum/udpwrite.cpp`): the pseudo header
                  with the UDP checksum, then the IP header over it.

`Gettimeofday`, `Sendto` and the addresses come in as parameters.
-/

namespace Unp

/-- the bytes of a `long` -/
def longBytes (e : Endian) (x : Int) : List UInt8 :=
  let bs := (List.range 8).map (fun i => (UInt64.ofInt x >>> UInt64.ofNat (8 * i)).toUInt8)
  match e with
  | .little => bs
  | .big => bs.reverse

/-! ## in_cksum -/

/-- `while (nleft > 1) { sum += *w++; nleft -= 2; }`: the sum and the bytes left -/
def addWords (e : Endian) : UInt32 → List UInt8 → UInt32 × List UInt8
  | sum, b0 :: b1 :: w => addWords e (sum + (word e b0 b1).toUInt32) w
  | sum, w => (sum, w)

/-- `if (nleft == 1)`: the odd byte goes into the first byte of the zero word `answer` -/
def addOdd (e : Endian) (sum : UInt32) : List UInt8 → UInt32
  | [b] => sum + (word e b 0).toUInt32
  | _ => sum

def inCksum (e : Endian) (addr : List UInt8) : UInt16 :=
  let (sum, w) := addWords e 0 addr
  let sum := addOdd e sum w
  let sum := (sum >>> 16) + (sum &&& 0xffff)
  let sum := sum + (sum >>> 16)
  (~~~ sum).toUInt16

/-- the test of a receiver, as in `udp_check` -/
def cksumOk (e : Endian) (b : List UInt8) : Bool := inCksum e b == 0

def load16 (e : Endian) (b : List UInt8) (off : Nat) : UInt16 :=
  word e (b.getD off 0) (b.getD (off + 1) 0)

def store16 (e : Endian) (b : List UInt8) (off : Nat) (v : UInt16) : List UInt8 :=
  Mem.poke b off (wordBytes e v)

/-! ## send_v4 -/

def Timeval.bytes (e : Endian) (tv : Timeval) : List UInt8 :=
  longBytes e tv.tvSec ++ longBytes e tv.tvUsec

/-- `ping.h`: the size of `sendbuf` -/
def BUFSIZE : Nat := 1500

def ICMP_ECHO : UInt8 := 8

/-- the bytes passed to `Sendto`; `struct icmp` has the type at 0, the code at 1, the checksum at
2, the id at 4, the sequence number at 6 and the data at 8 -/
def sendV4 (e : Endian) (sendbuf : List UInt8) (pid nsent datalen : Nat) (now : Timeval) :
    List UInt8 :=
  let icmp := Mem.poke sendbuf 0 [ICMP_ECHO]
  let icmp := Mem.poke icmp 1 [0]
  let icmp := store16 e icmp 4 (UInt16.ofNat pid)
  let icmp := store16 e icmp 6 (UInt16.ofNat nsent)
  let icmp := Mem.poke icmp 8 (List.replicate datalen 0xa5)
  let icmp := Mem.poke icmp 8 (now.bytes e)
  let len := 8 + datalen
  let icmp := store16 e icmp 2 0
  let icmp := store16 e icmp 2 (inCksum e (icmp.take len))
  icmp.take len

/-! ## udp_write -/

/-- address and port of a `struct sockaddr_in`, in network order -/
structure SockaddrIn where
  a : UInt8
  b : UInt8
  c : UInt8
  d : UInt8
  p0 : UInt8
  p1 : UInt8

def SockaddrIn.addr (s : SockaddrIn) : List UInt8 := [s.a, s.b, s.c, s.d]
def SockaddrIn.port (s : SockaddrIn) : List UInt8 := [s.p0, s.p1]

/-- the bytes of `htons(v)` -/
def htons (v : Nat) : List UInt8 := wordBytes .big (UInt16.ofNat v)

def TTL_OUT : UInt8 := 64

/-- sizes of `struct udphdr` and `struct udpiphdr` -/
def sizeofUdphdr : Nat := 8
def sizeofUdpiphdr : Nat := 28

/-- `udp_write` before the checksum.  `struct udpiphdr`: 9 zero bytes, the protocol at 9, the length
at 10, the addresses at 12 and 16, then the UDP header: ports at 20 and 22, length at 24, checksum
at 26 -/
def udpFields (buf : List UInt8) (userlen : Nat) (loc dest : SockaddrIn) : List UInt8 :=
  let ui := Mem.poke buf 0 (List.replicate sizeofUdpiphdr 0)
  let uiLen := htons (sizeofUdphdr + userlen)
  let ui := Mem.poke ui 10 uiLen
  let ui := Mem.poke ui 9 [IPPROTO_UDP]
  let ui := Mem.poke ui 12 loc.addr
  let ui := Mem.poke ui 16 dest.addr
  let ui := Mem.poke ui 20 loc.port
  let ui := Mem.poke ui 22 dest.port
  Mem.poke ui 24 uiLen

/-- `udp_write` up to the checksum, with `zerosum` as in the `-0` option -/
def udpPseudo (e : Endian) (buf : List UInt8) (userlen : Nat) (zerosum : Bool)
    (loc dest : SockaddrIn) : List UInt8 :=
  let ui := udpFields buf userlen loc dest
  let userlen := userlen + sizeofUdpiphdr
  if zerosum = false then
    let sum := inCksum e (ui.take userlen)
    let ui := store16 e ui 26 sum
    if sum = 0 then store16 e ui 26 0xffff else ui
  else ui

/-- the IP header that `udp_write` puts over the pseudo header (linux branch), and the bytes passed
to `Sendto`; `ip_sum` is left to the kernel -/
def udpIp (ui : List UInt8) (userlen : Nat) : List UInt8 :=
  let userlen := userlen + sizeofUdpiphdr
  let ip := Mem.poke ui 0 [0x45]
  let ip := Mem.poke ip 1 [0]
  let ip := Mem.poke ip 2 (htons userlen)
  let ip := Mem.poke ip 4 [0, 0]
  let ip := Mem.poke ip 6 [0, 0]
  let ip := Mem.poke ip 8 [TTL_OUT]
  ip.take userlen

def udpWrite (e : Endian) (buf : List UInt8) (userlen : Nat) (zerosum : Bool)
    (loc dest : SockaddrIn) : List UInt8 :=
  udpIp (udpPseudo e buf userlen zerosum loc dest) userlen

end Unp
