import NetworkProgram.Ifi.Impl
import NetworkProgram.Lib.Gains

/-!
# What `get_ifi_info` allocates

`get_ifi_info` and `free_ifi_info` of `get_ifi_info.cpp` once more, with the blocks of `Malloc`, `Calloc`
and `free` and the descriptor of `Socket`.  `findBufferOn` and `insertOn` are `findBuffer` and `insert`
with a log of what is acquired and released.

* `records`                     what the walk reads out of the buffer;
* `getIfiInfo`, `freeIfiInfo`   the two functions;
* `uses`                        a program that calls one behind the other.
-/

namespace Unp.Ifi

open Ledger (Entry held)

/-- a block of memory, or a descriptor -/
inductive Res where
  | block (p : Nat)
  | fd (fd : Nat)
  deriving DecidableEq

abbrev Log := List (Entry Res)

/-- what `Malloc` and `Socket` return where `held` is in use -/
structure Source where
  block : Finset Res → Nat
  fd : Finset Res → Nat
  block_fresh : ∀ held, Res.block (block held) ∉ held
  fd_fresh : ∀ held, Res.fd (fd held) ∉ held

def Source.malloc (src : Source) (log : Log) : Nat × Log :=
  let p := src.block (held log)
  (p, .acquire (.block p) :: log)

def Source.socket (src : Source) (log : Log) : Nat × Log :=
  let fd := src.fd (held log)
  (fd, .acquire (.fd fd) :: log)

def free (p : Nat) (log : Log) : Log := .release (.block p) :: log

/-! ## the buffer -/

/-- `sizing`, with the block `buf` that it leaves -/
def sizingOn (src : Source) (ifreq : Nat) (ioctl : Ifconf) : (fuel : Nat) → (lastlen len : Int) →
    Log → Option (Except Stop (Buffer × Nat × Log))
  | 0, _, _, _ => none
  | fuel + 1, lastlen, len, log =>
    let (buf, log) := src.malloc log
    match ioctl len with
    | .error errno =>
      if errno ≠ EINVAL ∨ lastlen ≠ 0 then some (.error (.errSys "ioctl error"))
      else sizingOn src ifreq ioctl fuel lastlen (toInt (len + 10 * ifreq)) (free buf log)
    | .ok bytes =>
      if (bytes.length : Int) = lastlen then some (.ok (⟨len, bytes⟩, buf, log))
      else sizingOn src ifreq ioctl fuel bytes.length (toInt (len + 10 * ifreq)) (free buf log)

def findBufferOn (src : Source) (ifreq : Nat) (ioctl : Ifconf) (fuel : Nat) (log : Log) :
    Option (Except Stop (Buffer × Nat × Log)) :=
  sizingOn src ifreq ioctl fuel 0 (toInt (100 * ifreq)) log

/-- the memory at `buf`, where `stale` is in what is not filled -/
def memory (b : Buffer) (stale : Nat → UInt8) : Nat → UInt8 := fun k => b.bytes.getD k (stale k)

/-- the record at `ptr`, its name null-terminated -/
def recordAt (e : Endian) (buf : Nat → UInt8) (ptr : Nat) : IfRecord where
  name := ((List.range (IFNAMSIZ - 1)).map (fun k => buf (ptr + k))).takeWhile (fun c => c != 0)
  name_lt := by
    refine Nat.lt_of_le_of_lt (List.takeWhile_prefix _).length_le ?_
    rw [List.length_map, List.length_range]
    decide
  family := saFamily e buf ptr
  addr := (List.range 28).map (fun k => buf (ptr + IFNAMSIZ + k))

/-- the records that the walk examines -/
def records (ipv6 : Bool) (e : Endian) (buf : Nat → UInt8) (ifcLen : Nat) : List IfRecord :=
  (walk ipv6 e buf ifcLen 0).examined.map (recordAt e buf)

/-! ## the list -/

/-- a `struct ifi_info` in memory: where it is, and its pointers -/
structure Cell where
  node : Node
  self : Nat
  addr : Option Nat
  brdaddr : Option Nat
  dstaddr : Option Nat

/-- `Calloc`, where there is an address to copy -/
def callocFor (src : Source) (addr : Option (List UInt8)) (log : Log) : Option Nat × Log :=
  match addr with
  | none => (none, log)
  | some _ =>
    let (p, log) := src.malloc log
    (some p, log)

/-- from `ifi = static_cast<ifi_info *>(Calloc(1, sizeof(struct ifi_info)))` on -/
def callocNode (src : Source) (n : Node) (log : Log) : Cell × Log :=
  let (self, log) := src.malloc log
  let (addr, log) := callocFor src n.addr log
  let (brdaddr, log) := callocFor src n.brdaddr log
  let (dstaddr, log) := callocFor src n.dstaddr log
  (⟨n, self, addr, brdaddr, dstaddr⟩, log)

structure AccOn where
  list : List Cell
  lastname : List UInt8
  log : Log

/-- `insert`, on the list in memory -/
def insertOn (src : Source) (ifs : Interfaces) (family doaliases : Int) (s : AccOn) (r : IfRecord) :
    AccOn :=
  if (r.family.toNat : Int) ≠ family then s
  else if s.lastname = r.base ∧ doaliases = 0 then s
  else
    let myflags := if s.lastname = r.base then IFI_ALIAS else 0
    let s := { s with lastname := r.base }
    if ifs.flags r.base &&& IFF_UP = 0 then s
    else
      let (ifi, log) := callocNode src (mkNode ifs r myflags) s.log
      { s with list := s.list ++ [ifi], log := log }

/-! ## the functions -/

/-- what a call depends on: its arguments, `sizeof(struct ifreq)`, what the `ioctl`s store, the build
and what is in fresh memory -/
structure Request where
  family : Int
  doaliases : Int
  ifreq : Nat
  ioctl : Ifconf
  ifs : Interfaces
  ipv6 : Bool
  e : Endian
  stale : Nat → UInt8

/-- the records of the buffer -/
def Request.ifr (r : Request) (b : Buffer) : List IfRecord :=
  records r.ipv6 r.e (memory b r.stale) b.bytes.length

def getIfiInfo (src : Source) (r : Request) (fuel : Nat) (log : Log) :
    Option (Except Stop (List Cell × Log)) :=
  let (_, log) := src.socket log
  match findBufferOn src r.ifreq r.ioctl fuel log with
  | none => none
  | some (.error why) => some (.error why)
  | some (.ok (buffer, buf, log)) =>
    let s := (r.ifr buffer).foldl (insertOn src r.ifs r.family r.doaliases) ⟨[], [], log⟩
    some (.ok (s.list, free buf s.log))

/-- `if (p != nullptr) free(p);` -/
def freeOpt (p : Option Nat) (log : Log) : Log :=
  match p with
  | none => log
  | some p => free p log

def freeIfi (ifi : Cell) (log : Log) : Log :=
  free ifi.self (freeOpt ifi.dstaddr (freeOpt ifi.brdaddr (freeOpt ifi.addr log)))

def freeIfiInfo : List Cell → Log → Log
  | [], log => log
  | ifi :: ifinext, log => freeIfiInfo ifinext (freeIfi ifi log)

/-- the calls `rs`, each with its list freed: what was in the lists; a call that fails ends it -/
def uses (src : Source) (fuel : Nat) : List Request → Log →
    Option (Except Stop (List (List Node) × Log))
  | [], log => some (.ok ([], log))
  | r :: rs, log =>
    match getIfiInfo src r fuel log with
    | none => none
    | some (.error why) => some (.error why)
    | some (.ok (list, log)) =>
      match uses src fuel rs (freeIfiInfo list log) with
      | none => none
      | some (.error why) => some (.error why)
      | some (.ok (lists, log)) => some (.ok (list.map Cell.node :: lists, log))

end Unp.Ifi
