import NetworkProgram.Lib.Peek
import NetworkProgram.Bytes

/-!
# The listener for session announcements

`loop` of `mcast/mysdr/main.cpp`.  The memory is the bytes from `buf` on, which is used for all
datagrams; `beyond` of them are behind it.  `printed` looks at cells of it and gives what is printed,
but for the sender; `turn` is the memory at the next datagram.
-/

namespace Unp.Mysdr
open Peek

def SAP_VERSION_MASK : UInt32 := 0xe0000000
def SAP_VERSION_SHIFT : UInt32 := 29
def SAP_IPV6 : UInt32 := 0x10000000
def SAP_DELETE : UInt32 := 0x04000000
def SAP_ENCRYPTED : UInt32 := 0x02000000
def SAP_COMPRESSED : UInt32 := 0x01000000
def SAP_AUTHLEN_MASK : UInt32 := 0x00ff0000
def SAP_AUTHLEN_SHIFT : UInt32 := 16
def SAP_HASH_MASK : UInt32 := 0x0000ffff

def BUFFSIZE : Nat := 8192

/-- the offset of `sap_data`: the header and the source address come before it -/
def sapData : Nat := 8

def sizeofBuf : Nat := sapData + BUFFSIZE

/-- what `Recvfrom` stores -/
structure Datagram where
  bytes : List UInt8
  bytes_lt : bytes.length < sizeofBuf

inductive Line where
  | printf (fmt : String) (args : List UInt32)
  | errMsg (fmt : String) (args : List UInt32)
  /-- `printf("%s\n", p)` -/
  | text (p : List UInt8)
  deriving DecidableEq

/-- `ntohl` of four bytes of memory -/
def ntohl (b : List UInt8) : UInt32 :=
  word32 .big (word .big (b.getD 0 0) (b.getD 1 0)) (word .big (b.getD 2 0) (b.getD 3 0))

def version (header : UInt32) : UInt32 := (header &&& SAP_VERSION_MASK) >>> SAP_VERSION_SHIFT

def authlen (header : UInt32) : UInt32 := (header &&& SAP_AUTHLEN_MASK) >>> SAP_AUTHLEN_SHIFT

/-- the message for a packet that is not printed -/
def rejection (header : UInt32) : Option Line :=
  if version header > 1 then
    some (.errMsg "... version field not 1 (0x%08x)" [header])
  else if header &&& SAP_IPV6 ≠ 0 then
    some (.errMsg "...IPv6" [])
  else if header &&& (SAP_DELETE ||| SAP_ENCRYPTED ||| SAP_COMPRESSED) ≠ 0 then
    some (.errMsg "... can't parse this packet type (0x%08x)" [header])
  else none

/-- `application/sdp` -/
def applicationSdp : List UInt8 :=
  [97, 112, 112, 108, 105, 99, 97, 116, 105, 111, 110, 47, 115, 100, 112]

/-! ## strings in memory -/

/-- `strcmp(p, s) == 0` -/
def streq (p : Nat) : List UInt8 → Peek Nat UInt8 Bool
  | [] => do
    let c ← cell p
    return c == 0
  | x :: s => do
    let c ← cell p
    if c = x then streq (p + 1) s else return false

/-- the string at `p`, where the memory ends after `left` more bytes -/
def str : Nat → Nat → Peek Nat UInt8 (List UInt8)
  | 0, _ => return []
  | left + 1, p => do
    let c ← cell p
    if c = 0 then return []
    else
      let s ← str left (p + 1)
      return c :: s

/-- the text at `p`, without the name of its type -/
def text (beyond p : Nat) : Peek Nat UInt8 (List UInt8) := do
  let sdp ← streq p applicationSdp
  let p := if sdp then p + 16 else p
  str (sizeofBuf + beyond - p) p

/-! ## the loop -/

/-- what `loop` prints for the datagram in memory -/
def printed (beyond : Nat) : Peek Nat UInt8 (List Line) := do
  let b ← cellsOf [0, 1, 2, 3]
  let sapHeader := ntohl b
  let hash := Line.printf "From %s hash 0x%04x\n" [sapHeader &&& SAP_HASH_MASK]
  match rejection sapHeader with
  | some message => return [hash, message]
  | none => do
    let s ← text beyond (sapData + (authlen sapHeader).toNat)
    return [hash, .text s]

/-- the datagram in memory, with a NUL at its end -/
def received (m : Nat → UInt8) (d : Datagram) : Nat → UInt8 :=
  fun i => if i < d.bytes.length then d.bytes.getD i 0 else if i = d.bytes.length then 0 else m i

/-- `buf.sap_header = ntohl(buf.sap_header)` on a host of byte order `e` -/
def swapped (e : Endian) (m : Nat → UInt8) : Nat → UInt8 :=
  fun i => if i < 4 then (word32Bytes e (ntohl ([0, 1, 2, 3].map m))).getD i 0 else m i

def turn (e : Endian) (m : Nat → UInt8) (d : Datagram) : Nat → UInt8 := swapped e (received m d)

/-- the memory after the datagrams in `history` -/
def after (e : Endian) (m : Nat → UInt8) (history : List Datagram) : Nat → UInt8 :=
  history.foldl (turn e) m

end Unp.Mysdr
