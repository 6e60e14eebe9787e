import NetworkProgram.Bytes
import NetworkProgram.Number
import NetworkProgram.Stdio

/-!
# Socket addresses

The functions of `sock_ntop.cpp`, `sock_ntop_host.cpp`, `sock_cmp_addr.cpp`, `sock_get_port.cpp`,
`sock_set_port.cpp`, `sock_set_addr.cpp` and `sock_set_wild.cpp`, where neither `IPV6` nor
`HAVE_SOCKADDR_DL_STRUCT` is defined.

* `Sockaddr`                    the addresses they tell apart;
* `sockNtop`, `sockNtopHost`    the text of an address;
* `sockCmpAddr`                 two addresses without their ports;
* `sockSetPort`, `sockSetAddr`  what is stored into an address.
-/

namespace Unp.SockAddr

def AF_UNIX : UInt16 := 1
def AF_INET : UInt16 := 2

/-- the bytes of a `struct in_addr` in memory -/
structure InAddr where
  a : UInt8
  b : UInt8
  c : UInt8
  d : UInt8
  deriving DecidableEq

def InAddr.bytes (x : InAddr) : List UInt8 := [x.a, x.b, x.c, x.d]

/-- a `sun_path` up to its NUL -/
structure SunPath where
  bytes : List UInt8
  nul : 0 ∉ bytes
  fits : bytes.length < 108
  deriving DecidableEq

/-- a `struct sockaddr`; `sinPort` is the word in memory -/
inductive Sockaddr where
  | inet (sinPort : UInt16) (sinAddr : InAddr)
  | unix (sunPath : SunPath)
  | other (saFamily : UInt16) (ne : saFamily ≠ AF_INET ∧ saFamily ≠ AF_UNIX)
  deriving DecidableEq

def Sockaddr.saFamily : Sockaddr → UInt16
  | .inet _ _ => AF_INET
  | .unix _ => AF_UNIX
  | .other saFamily _ => saFamily

/-- as `bzero` leaves it -/
def Sockaddr.zero : Sockaddr := .other 0 (by decide)

/-! ## comparing -/

def memcmp : List UInt8 → List UInt8 → Int
  | x :: xs, y :: ys => if x = y then memcmp xs ys else (x.toNat : Int) - y.toNat
  | [], _ => 0
  | _ :: _, [] => 0

/-- the end of a list is the NUL of the string -/
def strcmp : List UInt8 → List UInt8 → Int
  | x :: xs, y :: ys => if x = y then strcmp xs ys else (x.toNat : Int) - y.toNat
  | [], [] => 0
  | [], y :: _ => -(y.toNat : Int)
  | x :: _, [] => x.toNat

def sockCmpAddr (sa1 sa2 : Sockaddr) : Int :=
  match sa1, sa2 with
  | .inet _ addr1, .inet _ addr2 => memcmp addr1.bytes addr2.bytes
  | .unix path1, .unix path2 => strcmp path1.bytes path2.bytes
  | .inet _ _, .unix _ => -1
  | .inet _ _, .other _ _ => -1
  | .unix _, .inet _ _ => -1
  | .unix _, .other _ _ => -1
  | .other _ _, _ => -1

/-! ## storing -/

/-- `sin_port` in an `int` -/
def sockGetPort : Sockaddr → Int
  | .inet sinPort _ => sinPort.toNat
  | .unix _ => -1
  | .other _ _ => -1

/-- of `port` 16 bits are stored -/
def sockSetPort (sa : Sockaddr) (port : Int) : Sockaddr :=
  match sa with
  | .inet _ sinAddr => .inet (UInt16.ofInt port) sinAddr
  | .unix path => .unix path
  | .other family ne => .other family ne

def sockSetAddr (sa : Sockaddr) (addr : InAddr) : Sockaddr :=
  match sa with
  | .inet sinPort _ => .inet sinPort addr
  | .unix path => .unix path
  | .other family ne => .other family ne

/-- `INADDR_ANY` -/
def in4addrAny : InAddr := ⟨0, 0, 0, 0⟩

def sockSetWild (sa : Sockaddr) : Sockaddr :=
  match sa with
  | .inet sinPort sinAddr => sockSetAddr (.inet sinPort sinAddr) in4addrAny
  | .unix path => .unix path
  | .other family ne => .other family ne

/-! ## the text -/

/-- the value of a word in network order -/
def ntohs : Endian → UInt16 → UInt16
  | .little, v => word .big v.toUInt8 (v >>> 8).toUInt8
  | .big, v => v

/-- `inet_ntop(AF_INET, …)` -/
def inetNtop (x : InAddr) : List UInt8 :=
  Decimal.digits x.a.toNat ++ 46 :: (Decimal.digits x.b.toNat ++ 46 ::
    (Decimal.digits x.c.toNat ++ 46 :: Decimal.digits x.d.toNat))

/-- `(no pathname bound)` -/
def noPathname : List UInt8 :=
  [40, 110, 111, 32, 112, 97, 116, 104, 110, 97, 109, 101, 32, 98, 111, 117, 110, 100, 41]

/-- `sock_ntop: unknown AF_xxx: ` -/
def unknownAf : List UInt8 :=
  [115, 111, 99, 107, 95, 110, 116, 111, 112, 58, 32, 117, 110, 107, 110, 111, 119, 110, 32, 65,
    70, 95, 120, 120, 120, 58, 32]

/-- `sock_ntop_host: unknown AF_xxx: ` -/
def unknownAfHost : List UInt8 :=
  [115, 111, 99, 107, 95, 110, 116, 111, 112, 95, 104, 111, 115, 116, 58, 32, 117, 110, 107, 110,
    111, 119, 110, 32, 65, 70, 95, 120, 120, 120, 58, 32]

/-- `, len ` -/
def lenText : List UInt8 := [44, 32, 108, 101, 110, 32]

/-- `sizeof(str)` -/
def sizeofStr : Nat := 128

/-- `snprintf(portstr, sizeof(portstr), ":%d", ntohs(sin->sin_port))` -/
def portstr (e : Endian) (sinPort : UInt16) : List UInt8 :=
  snprintf 8 (58 :: fmtD (Int32.ofNat (ntohs e sinPort).toNat))

/-- the `default` of both functions -/
def unknown (text : List UInt8) (saFamily : UInt16) (salen : Int32) : List UInt8 :=
  cstr (snprintf sizeofStr
    (text ++ fmtD (Int32.ofNat saFamily.toNat) ++ lenText ++ fmtD salen))

/-- the case of `AF_UNIX` of both functions -/
def pathText (path : SunPath) : List UInt8 :=
  if path.bytes = [] then noPathname else cstr (snprintf sizeofStr path.bytes)

/-- the string at `str` -/
def sockNtop (e : Endian) (sa : Sockaddr) (salen : Int32) : List UInt8 :=
  match sa with
  | .inet sinPort sinAddr =>
    if ntohs e sinPort ≠ 0 then inetNtop sinAddr ++ cstr (portstr e sinPort) else inetNtop sinAddr
  | .unix path => pathText path
  | .other family _ => unknown unknownAf family salen

def sockNtopHost (sa : Sockaddr) (salen : Int32) : List UInt8 :=
  match sa with
  | .inet _ sinAddr => inetNtop sinAddr
  | .unix path => pathText path
  | .other family _ => unknown unknownAfHost family salen

end Unp.SockAddr
