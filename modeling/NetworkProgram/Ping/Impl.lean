import NetworkProgram.Lib.Peek
import NetworkProgram.Cksum.Impl

/-!
# ping takes a packet

`tv_sub` and `proc_v4` of `ping/main.cpp`.  `procV4` looks at the bytes of a packet of `len` bytes and
gives the line that is printed, if one is; `rtt` is exact.  `procV4_run` is the same on a given memory.

On a 64-bit host a `struct timeval` is two `long`s (`longOf`).  The address of the sender, which is
printed too, is left out.
-/

namespace Unp.Ping
open Peek

def ICMP_ECHOREPLY : UInt8 := 0
def IPPROTO_ICMP : UInt8 := 1

/-- `sizeof(struct timeval)` -/
def sizeofTimeval : Nat := 16

theorem sizeofTimeval_eq : sizeofTimeval = 16 := rfl

/-- the `long` in eight bytes -/
def longOf (e : Endian) (bs : List UInt8) : Int :=
  let bs := match e with
    | .little => bs
    | .big => bs.reverse
  Int.bmod (bs.foldr (fun b x => b.toNat + 256 * x) 0 : Nat) UInt64.size

def tvSub (out in_ : Timeval) : Timeval :=
  let out := { out with tvUsec := out.tvUsec - in_.tvUsec }
  let out := if out.tvUsec < 0 then
      let out := { out with tvSec := out.tvSec - 1 }
      { out with tvUsec := out.tvUsec + 1000000 }
    else out
  { out with tvSec := out.tvSec - in_.tvSec }

/-- what is printed -/
inductive Line where
  | reply (icmplen : Int) (seq : UInt16) (ttl : UInt8) (rtt : Rat)
  | other (icmplen : Int) (type code : UInt8)
  deriving DecidableEq

/-! ## the bytes of the packet -/

/-- a 16-bit field -/
def half (e : Endian) (off : Nat) : Peek Nat UInt8 UInt16 := do
  let b0 ← cell off
  let b1 ← cell (off + 1)
  return word e b0 b1

def long (e : Endian) (off : Nat) : Peek Nat UInt8 Int := do
  let bs ← cellsOf ((List.range 8).map (off + ·))
  return longOf e bs

/-- the `struct timeval` at `off`, as `tv_sub` reads it -/
def timeval (e : Endian) (off : Nat) : Peek Nat UInt8 Timeval := do
  let tvUsec ← long e (off + 8)
  let tvSec ← long e off
  return ⟨tvSec, tvUsec⟩

def procV4 (e : Endian) (verbose : Bool) (pid : Int) (len : Nat) (tvrecv : Timeval) :
    Peek Nat UInt8 (Option Line) := do
  let ip ← cell 0
  let hlen1 := ip.toNat % 16 * 4
  let ipP ← cell 9
  if ipP ≠ IPPROTO_ICMP then pure none
  else
    let icmp := hlen1
    let icmplen : Int := len - hlen1
    if icmplen < 8 then pure none
    else do
      let type ← cell icmp
      if type = ICMP_ECHOREPLY then do
        let id ← half e (icmp + 4)
        if (id.toNat : Int) ≠ pid then pure none
        else if icmplen < 16 then pure none
        else do
          let tvsend ← timeval e (icmp + 8)
          let tvrecv := tvSub tvrecv tvsend
          let rtt : Rat := tvrecv.tvSec * 1000 + tvrecv.tvUsec / 1000
          let seq ← half e (icmp + 6)
          let ttl ← cell 8
          return some (.reply icmplen seq ttl rtt)
      else if verbose then do
        let code ← cell (icmp + 1)
        return some (.other icmplen type code)
      else pure none

/-! ## on a given memory -/

variable {e : Endian} {verbose : Bool} {pid : Int} {len : Nat} {tvrecv : Timeval}
  {m : Nat → UInt8}

/-- `ip_hl << 2` -/
def hlen1 (m : Nat → UInt8) : Nat := (m 0).toNat % 16 * 4

def halfAt (e : Endian) (m : Nat → UInt8) (off : Nat) : UInt16 := word e (m off) (m (off + 1))

def longAt (e : Endian) (m : Nat → UInt8) (off : Nat) : Int :=
  longOf e (((List.range 8).map (off + ·)).map m)

/-- the `rtt` of a reply sent at `tvsend` -/
def rttOf (tvrecv tvsend : Timeval) : Rat :=
  (tvSub tvrecv tvsend).tvSec * 1000 + (tvSub tvrecv tvsend).tvUsec / 1000

theorem half_run (off : Nat) : (half e off).run m = halfAt e m off := rfl

theorem timeval_run (off : Nat) :
    (timeval e off).run m = ⟨longAt e m off, longAt e m (off + 8)⟩ := by
  unfold timeval long longAt
  rw [run_bind, run_bind, run_bind, run_bind, run_cellsOf, run_cellsOf, run_pure, run_pure, run_pure]

theorem procV4_run :
    (procV4 e verbose pid len tvrecv).run m =
      if m 9 ≠ IPPROTO_ICMP then none
      else if (len : Int) - hlen1 m < 8 then none
      else if m (hlen1 m) = ICMP_ECHOREPLY then
        if ((halfAt e m (hlen1 m + 4)).toNat : Int) ≠ pid then none
        else if (len : Int) - hlen1 m < 16 then none
        else some (.reply (len - hlen1 m) (halfAt e m (hlen1 m + 6)) (m 8)
          (rttOf tvrecv ⟨longAt e m (hlen1 m + 8), longAt e m (hlen1 m + 8 + 8)⟩))
      else if verbose then some (.other (len - hlen1 m) (m (hlen1 m)) (m (hlen1 m + 1)))
      else none := by
  unfold procV4
  dsimp only
  rw [run_bind, run_bind, run_ite, run_ite, run_bind, run_ite, run_bind, run_ite, run_ite, run_bind,
    timeval_run, run_bind, run_bind, run_ite, run_bind, half_run, half_run]
  refine ite_congr rfl (fun _ => rfl) fun _ => ?_
  refine ite_congr rfl (fun _ => rfl) fun _ => ?_
  refine ite_congr rfl (fun _ => ?_) fun _ => rfl
  refine ite_congr rfl (fun _ => rfl) fun _ => ?_
  exact ite_congr rfl (fun _ => rfl) fun _ => rfl

end Unp.Ping
