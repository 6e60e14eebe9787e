import NetworkProgram.Bytes
import NetworkProgram.Sys

/-!
# `get_ifi_info`

`get_ifi_info.cpp` on Linux: neither `HAVE_SOCKADDR_SA_LEN` nor `HAVE_SOCKADDR_DL_STRUCT` is defined,
so `ifi_index` and `ifi_hlen` stay 0, and `ifi_mtu` is 0.

* `sizing`      the loop that finds the length of the buffer;
* `walk`        the places in the buffer that are taken for a record;
* `ifiInfo`     the list built from the records examined.
-/

namespace Unp.Ifi

def EINVAL : Errno := 22
def AF_INET : UInt16 := 2
def AF_INET6 : UInt16 := 10

/-! ## the buffer -/

/-- a value in an `int` -/
def toInt (x : Int) : Int := Int.bmod x 4294967296

/-- `ioctl(sockfd, SIOCGIFCONF, &ifc)` with `ifc_len` set: the bytes stored at `ifc_buf` -/
abbrev Ifconf := Int → Except Errno (List UInt8)

/-- the buffer of `len` bytes with which the loop is left, `bytes` of them filled -/
structure Buffer where
  len : Int
  bytes : List UInt8

/-- `fuel` turns of the loop, with `ifreq` for `sizeof(struct ifreq)` -/
def sizing (ifreq : Nat) (ioctl : Ifconf) : (fuel : Nat) → (lastlen len : Int) →
    Option (Except Stop Buffer)
  | 0, _, _ => none
  | fuel + 1, lastlen, len =>
    match ioctl len with
    | .error errno =>
      if errno ≠ EINVAL ∨ lastlen ≠ 0 then some (.error (.errSys "ioctl error"))
      else sizing ifreq ioctl fuel lastlen (toInt (len + 10 * ifreq))
    | .ok bytes =>
      if (bytes.length : Int) = lastlen then some (.ok ⟨len, bytes⟩)
      else sizing ifreq ioctl fuel bytes.length (toInt (len + 10 * ifreq))

/-- `lastlen = 0; len = 100 * sizeof(struct ifreq);` -/
def findBuffer (ifreq : Nat) (ioctl : Ifconf) (fuel : Nat) : Option (Except Stop Buffer) :=
  sizing ifreq ioctl fuel 0 (toInt (100 * ifreq))

/-! ## the walk -/

/-- `sizeof(ifr->ifr_name)` -/
def IFNAMSIZ : Nat := 16

/-- `ifr->ifr_addr.sa_family` of a record at `ptr` -/
def saFamily (e : Endian) (buf : Nat → UInt8) (ptr : Nat) : UInt16 :=
  word e (buf (ptr + IFNAMSIZ)) (buf (ptr + IFNAMSIZ + 1))

/-- `sizeof(struct sockaddr_in6)` with `IPV6` defined, else `sizeof(struct sockaddr)` -/
def sockaddrLen (ipv6 : Bool) (family : UInt16) : Nat :=
  if ipv6 = true ∧ family = AF_INET6 then 28 else 16

/-- `ptr` after the record at `ptr` -/
def next (ipv6 : Bool) (e : Endian) (buf : Nat → UInt8) (ptr : Nat) : Nat :=
  ptr + (IFNAMSIZ + sockaddrLen ipv6 (saFamily e buf ptr))

theorem lt_next (ipv6 : Bool) (e : Endian) (buf : Nat → UInt8) (ptr : Nat) :
    ptr < next ipv6 e buf ptr := by
  have hname : IFNAMSIZ = 16 := rfl
  unfold next
  omega

/-- the offsets at which a record is examined, and the offset at which the walk ends -/
structure Walk where
  examined : List Nat
  last : Nat

/-- `for (ptr = buf; ptr < buf + ifc.ifc_len; )` from `ptr` on -/
def walk (ipv6 : Bool) (e : Endian) (buf : Nat → UInt8) (ifcLen ptr : Nat) : Walk :=
  if ptr < ifcLen then
    let w := walk ipv6 e buf ifcLen (next ipv6 e buf ptr)
    { w with examined := ptr :: w.examined }
  else ⟨[], ptr⟩
termination_by ifcLen - ptr
decreasing_by
  have hlt := lt_next ipv6 e buf ptr
  omega

/-! ## the list -/

def IFF_UP : UInt16 := 0x1
def IFF_BROADCAST : UInt16 := 0x2
def IFF_POINTOPOINT : UInt16 := 0x10
def IFI_NAME : Nat := 16
def IFI_ALIAS : Nat := 1

/-- a record that the walk examines: its name, null-terminated in `ifr_name`, its family, and the
memory from `ifr_addr` on -/
structure IfRecord where
  name : List UInt8
  name_lt : name.length < IFNAMSIZ
  family : UInt16
  addr : List UInt8

/-- the name after the colon has been replaced with null -/
def IfRecord.base (r : IfRecord) : List UInt8 := r.name.takeWhile (fun c => c != 58)

/-- what `SIOCGIFFLAGS`, `SIOCGIFBRDADDR` and `SIOCGIFDSTADDR` store for a name -/
structure Interfaces where
  flags : List UInt8 → UInt16
  brdaddr : List UInt8 → List UInt8
  dstaddr : List UInt8 → List UInt8

/-- a `struct ifi_info` -/
structure Node where
  name : List UInt8
  flags : UInt16
  myflags : Nat
  addr : Option (List UInt8)
  brdaddr : Option (List UInt8)
  dstaddr : Option (List UInt8)
  deriving DecidableEq

/-- `sizeof(struct sockaddr_in)` and `sizeof(struct sockaddr_in6)` bytes are copied -/
def addrLen (family : UInt16) : Option Nat :=
  if family = AF_INET then some 16 else if family = AF_INET6 then some 28 else none

/-- the node for the record `r` -/
def mkNode (ifs : Interfaces) (r : IfRecord) (myflags : Nat) : Node where
  name := r.base.take (IFI_NAME - 1)
  flags := ifs.flags r.base
  myflags := myflags
  addr := (addrLen r.family).map (fun len => r.addr.take len)
  brdaddr :=
    if r.family = AF_INET ∧ ifs.flags r.base &&& IFF_BROADCAST ≠ 0 then
      some ((ifs.brdaddr r.base).take 16)
    else none
  dstaddr :=
    if ifs.flags r.base &&& IFF_POINTOPOINT ≠ 0 then
      (addrLen r.family).map (fun len => (ifs.dstaddr r.base).take len)
    else none

structure Acc where
  list : List Node
  lastname : List UInt8

/-- the body of the walk from `if (ifr->ifr_addr.sa_family != family)` on -/
def insert (ifs : Interfaces) (family doaliases : Int) (s : Acc) (r : IfRecord) : Acc :=
  if (r.family.toNat : Int) ≠ family then s
  else if s.lastname = r.base ∧ doaliases = 0 then s
  else
    let myflags := if s.lastname = r.base then IFI_ALIAS else 0
    let s := { s with lastname := r.base }
    if ifs.flags r.base &&& IFF_UP = 0 then s
    else { s with list := s.list ++ [mkNode ifs r myflags] }

/-- the list returned, when the walk examines `records` -/
def ifiInfo (ifs : Interfaces) (family doaliases : Int) (records : List IfRecord) : List Node :=
  (records.foldl (insert ifs family doaliases) ⟨[], []⟩).list

end Unp.Ifi
