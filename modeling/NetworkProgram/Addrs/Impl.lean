import NetworkProgram.Lib.Ledger
import NetworkProgram.Sys
import Mathlib.Data.Finset.Lattice.Fold
import Mathlib.Order.Lattice.Nat

/-!
# The addresses of a name, one after the other

`tcp_connect.cpp`, `tcp_listen.cpp` and `udp_server.cpp`: the same loop over the list of `getaddrinfo`,
each with its own calls (`Opener`).  An `Entry` is a member of the list with what the kernel does for
it; all other calls succeed.
-/

namespace Unp.Addrs

/-- the fields of a `struct addrinfo` that are used -/
structure Addrinfo where
  aiFamily : Int
  aiSocktype : Int
  aiProtocol : Int
  aiAddr : List UInt8
  aiAddrlen : Nat

/-- the number of a new descriptor when those in `opened` are in use -/
structure Numbering where
  fd : Finset Int → Int
  nonneg : ∀ opened, 0 ≤ fd opened
  unused : ∀ opened, fd opened ∉ opened

/-- the number behind the highest one -/
instance : Inhabited Numbering where
  default :=
    { fd := fun opened => (opened.sup Int.toNat : Nat) + 1
      nonneg := fun opened => Int.le_add_one (Int.natCast_nonneg _)
      unused := fun opened hmem => by
        have hle : Int.toNat _ ≤ opened.sup Int.toNat := Finset.le_sup hmem
        omega }

structure Entry where
  ai : Addrinfo
  /-- `none`: `socket` fails -/
  socket : Option Numbering
  /-- `connect` or `bind` returns 0 -/
  works : Bool

/-- `socket` and `connect`, or `bind`, succeed -/
def Entry.succeeds (e : Entry) : Bool := e.socket.isSome && e.works

/-- a call on a descriptor -/
inductive Use where
  | reuseaddr
  | connect (addr : List UInt8) (addrlen : Nat) (ret : Int)
  | bind (addr : List UInt8) (addrlen : Nat) (ret : Int)
  /-- of `Listen`, which may take another backlog from the environment -/
  | listen (backlog : Int)
  deriving DecidableEq

inductive Call where
  | socket (family socktype protocol ret : Int)
  | use (fd : Int) (u : Use)
  | close (fd : Int)
  deriving DecidableEq

def LISTENQ : Int := 1024

/-! ## the process -/

/-- the descriptors in use, and the calls made, the latest first -/
structure Proc where
  opened : Finset Int
  log : List Call

def Proc.uses (p : Proc) (fd : Int) (us : List Use) : Proc :=
  { p with log := us.map (.use fd) ++ p.log }

def Proc.socket (p : Proc) (e : Entry) : Int × Proc :=
  match e.socket with
  | none => (-1, { p with log := .socket e.ai.aiFamily e.ai.aiSocktype e.ai.aiProtocol (-1) :: p.log })
  | some n =>
    let fd := n.fd p.opened
    (fd, ⟨insert fd p.opened,
      .socket e.ai.aiFamily e.ai.aiSocktype e.ai.aiProtocol fd :: p.log⟩)

def Proc.close (p : Proc) (fd : Int) : Proc := ⟨p.opened.erase fd, .close fd :: p.log⟩

/-! ## the loop -/

/-- what one of the functions does on the way -/
structure Opener where
  /-- the formats for `getaddrinfo` and for the list -/
  gaiFmt : String
  fmt : String
  /-- before `request` -/
  setup : List Use
  /-- `connect` or `bind`, and what it returns -/
  request : Addrinfo → Int → Use
  /-- after the loop -/
  finish : List Use

/-- where the body of the loop ends: at its `break`, or at the advance to the next entry, with which
`continue` goes on too -/
inductive Jump where
  | leave
  | advance

def Opener.body (k : Opener) (res : Entry) (p : Proc) : Jump × Int × Proc :=
  let (sockfd, p) := p.socket res
  if sockfd < 0 then (.advance, sockfd, p)
  else
    let p := p.uses sockfd k.setup
    if res.works then (.leave, sockfd, p.uses sockfd [k.request res.ai 0])
    else
      let p := p.uses sockfd [k.request res.ai (-1)]
      (.advance, sockfd, p.close sockfd)

/-- from `res` on, which `next` come after; `none` is the null pointer -/
def Opener.loop (k : Opener) (res : Entry) (next : List Entry) (p : Proc) :
    Option Entry × Int × Proc :=
  match k.body res p with
  | (.leave, sockfd, p) => (some res, sockfd, p)
  | (.advance, sockfd, p) =>
    match next with
    | [] => (none, sockfd, p)
    | res :: next => k.loop res next p

/-- the descriptor returned, and what is stored through `addrlenp` -/
structure Ret where
  sockfd : Int
  addrlen : Option Nat

/-- `addrlenp` is whether the pointer is not null -/
def Opener.run (k : Opener) (addrlenp : Bool) (getaddrinfo : Except Int (Entry × List Entry))
    (p : Proc) : Except Stop Ret × Proc :=
  match getaddrinfo with
  | .error n => (.error (.errQuit k.gaiFmt [n]), p)
  | .ok (res, next) =>
    match k.loop res next p with
    | (none, _, p) => (.error (.errSys k.fmt), p)
    | (some res, sockfd, p) =>
      (.ok ⟨sockfd, if addrlenp then some res.ai.aiAddrlen else none⟩, p.uses sockfd k.finish)

/-! ## the three functions -/

def connecting : Opener :=
  { gaiFmt := "tcp_connect error for %s, %s: %s"
    fmt := "tcp_connect error for %s, %s"
    setup := []
    request := fun ai ret => .connect ai.aiAddr ai.aiAddrlen ret
    finish := [] }

def listening : Opener :=
  { gaiFmt := "tcp_listen error for %s, %s: %s"
    fmt := "tcp_listen error for %s, %s"
    setup := [.reuseaddr]
    request := fun ai ret => .bind ai.aiAddr ai.aiAddrlen ret
    finish := [.listen LISTENQ] }

def serving : Opener :=
  { gaiFmt := "udp_server error for %s, %s: %s"
    fmt := "udp_server error for %s, %s"
    setup := []
    request := fun ai ret => .bind ai.aiAddr ai.aiAddrlen ret
    finish := [] }

/-- it has no `addrlenp` -/
def tcpConnect : Except Int (Entry × List Entry) → Proc → Except Stop Ret × Proc :=
  connecting.run false

def tcpListen : Bool → Except Int (Entry × List Entry) → Proc → Except Stop Ret × Proc :=
  listening.run

def udpServer : Bool → Except Int (Entry × List Entry) → Proc → Except Stop Ret × Proc :=
  serving.run

end Unp.Addrs
