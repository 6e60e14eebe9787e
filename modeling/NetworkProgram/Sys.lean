import Mathlib.Data.List.Basic

/-!
# What the system calls answer

The errno values are those of Linux; `ReadRes β len` and `WriteRes len` are all the answers the
kernel can give to `read(fd, p, len)` and `write(fd, p, len)`: no answer carries more than was
asked for.  The byte type `β` of a read is a parameter, so that a model can follow bytes
together with where they came from.
-/

namespace Unp

abbrev Errno := Nat

def EINTR : Errno := 4
def EWOULDBLOCK : Errno := 11
def EFAULT : Errno := 14
def EMSGSIZE : Errno := 90
def ECONNRESET : Errno := 104
def ETIMEDOUT : Errno := 110
def ECONNREFUSED : Errno := 111
def EHOSTUNREACH : Errno := 113

def IPPROTO_UDP : UInt8 := 17

/-- `unp.h` -/
def MAXLINE : Nat := 4096

/-- a signed value in a `size_t` -/
def sizeT (n : Int) : Nat := (UInt64.ofInt n).toNat

theorem sizeT_natCast {k : Nat} (h : k < 18446744073709551616) : sizeT k = k := by
  have hk : ((k : Int) % 18446744073709551616).toNat = k := by omega
  show (UInt64.ofNat ((k : Int) % 18446744073709551616).toNat).toNat = k
  rw [hk]
  exact UInt64.toNat_ofNat_of_lt' h

theorem sizeT_of_lt {k : Nat} (h : k ≤ MAXLINE) : sizeT k = k := by
  have hm : MAXLINE = 4096 := rfl
  exact sizeT_natCast (by omega)

/-- -1 in a `size_t` is no length of a buffer -/
theorem maxline_lt_sizeT : MAXLINE < sizeT (-1) := by decide

/-- how a process of the repository ends early: `err_quit` or `err_sys` with its format and the
values printed -/
inductive Stop where
  | errQuit (fmt : String) (args : List Int)
  | errSys (fmt : String)
  deriving DecidableEq, Repr

/-- what `gettimeofday` stores -/
structure Timeval where
  tvSec : Int
  tvUsec : Int

/-- as `gettimeofday` stores it -/
def Timeval.Normal (tv : Timeval) : Prop := 0 ≤ tv.tvUsec ∧ tv.tvUsec < 1000000

/-- in microseconds -/
def Timeval.micros (tv : Timeval) : Int := tv.tvSec * 1000000 + tv.tvUsec

inductive ReadRes (β : Type) (len : Nat) where
  | data (bs : List β) (pos : 0 < bs.length) (le : bs.length ≤ len)
  | eof
  | err (e : Errno)

inductive WriteRes (len : Nat) where
  | wrote (k : Nat) (le : k ≤ len)
  | err (e : Errno)

/-- what `read` returns -/
def ReadRes.ret {β : Type} {len : Nat} : ReadRes β len → Int
  | .data bs _ _ => bs.length
  | .eof => 0
  | .err _ => -1

def ReadRes.errno {β : Type} {len : Nat} : ReadRes β len → Errno
  | .err e => e
  | _ => 0

/-- the bytes a read delivered -/
def ReadRes.bytes {β : Type} {len : Nat} : ReadRes β len → List β
  | .data bs _ _ => bs
  | .eof => []
  | .err _ => []

/-- the value a read returns for its bytes, in a `size_t` -/
theorem sizeT_data {β : Type} {bs : List β} {pos : 0 < bs.length} {le : bs.length ≤ MAXLINE} :
    sizeT (ReadRes.ret (.data bs pos le : ReadRes β MAXLINE)) = bs.length := sizeT_of_lt le

/-- the number of bytes a write took -/
def WriteRes.count {len : Nat} : WriteRes len → Nat
  | .wrote k _ => k
  | .err _ => 0

end Unp
