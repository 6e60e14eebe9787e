import NetworkProgram.Stdio

/-!
# The UDP client that looks at the sender

`dg_cli` of `udpEcho2/client/main.cpp` with a server that echoes.  Requests and replies stay in
order and none is lost; a datagram of any other sender may arrive at any time.  A request is carried
with its number, which is that of the iteration it was sent in.

* `State.fgets`      from `Fgets` to `Sendto`;
* `State.recvfrom`   from `Recvfrom` to the end of the iteration;
* `Step`             the step relation.
-/

namespace Unp.UdpEcho2

structure Datagram where
  src : List UInt8
  payload : List UInt8
  /-- the request that the server answers with it -/
  req : Option Nat

/-- what is printed in an iteration -/
inductive Out where
  | reply (iter : Nat) (line : List UInt8) (req : Option Nat)
  | ignored (src : List UInt8)
  deriving DecidableEq, Repr

/-- where the client is: at `Fgets`, at `Recvfrom`, or behind `dg_cli` -/
inductive Pc where
  | fgets
  | recvfrom
  | ret
  deriving DecidableEq, Repr

structure State where
  fp : List UInt8
  pc : Pc
  /-- the requests, by iteration -/
  sent : List (List UInt8)
  toServer : List (List UInt8 × Nat)
  fromServer : List (List UInt8 × Nat)
  /-- what has arrived at the client's socket -/
  socket : List Datagram
  stdout : List Out

def start (input : List UInt8) : State where
  fp := input
  pc := .fgets
  sent := []
  toServer := []
  fromServer := []
  socket := []
  stdout := []

/-- `Fgets(sendline, MAXLINE, fp)`, then `Sendto(sockfd, sendline, strlen(sendline), ..)` -/
def State.fgets (s : State) : State :=
  match Unp.fgets MAXLINE s.fp with
  | none => { s with pc := .ret }
  | some (sendline, fp) =>
    { s with
      fp := fp
      pc := .recvfrom
      sent := s.sent ++ [cstr sendline]
      toServer := s.toServer ++ [(cstr sendline, s.sent.length)] }

/-- `Recvfrom` returns `d`: the kernel stores its address as far as `servlen` goes, and its length
in `len` -/
def State.recvfrom (servaddr : List UInt8) (s : State) (d : Datagram) : State :=
  let replyAddr := d.src.take servaddr.length
  let len := d.src.length
  if len ≠ servaddr.length ∨ servaddr.take len ≠ replyAddr.take len then
    { s with pc := .fgets, stdout := s.stdout ++ [.ignored replyAddr] }
  else
    { s with
      pc := .fgets
      stdout := s.stdout ++ [.reply (s.sent.length - 1) (cstr (d.payload.take MAXLINE)) d.req] }

/-! ## the steps -/

inductive Event where
  | fgets
  | echo
  | arrive
  | foreign (src payload : List UInt8)
  | recvfrom

inductive Step (servaddr : List UInt8) (s : State) : Event → State → Prop where
  | fgets (pc : s.pc = .fgets) : Step servaddr s .fgets s.fgets
  /-- the server receives a request and sends it back -/
  | echo (r : List UInt8 × Nat) (rest : List (List UInt8 × Nat)) (chan : s.toServer = r :: rest) :
      Step servaddr s .echo { s with toServer := rest, fromServer := s.fromServer ++ [r] }
  | arrive (r : List UInt8 × Nat) (rest : List (List UInt8 × Nat)) (chan : s.fromServer = r :: rest) :
      Step servaddr s .arrive
        { s with fromServer := rest, socket := s.socket ++ [⟨servaddr, r.1, some r.2⟩] }
  | foreign (src payload : List UInt8) (other : src ≠ servaddr) :
      Step servaddr s (.foreign src payload)
        { s with socket := s.socket ++ [⟨src, payload, none⟩] }
  | recvfrom (d : Datagram) (rest : List Datagram) (pc : s.pc = .recvfrom)
      (chan : s.socket = d :: rest) :
      Step servaddr s .recvfrom (State.recvfrom servaddr { s with socket := rest } d)

end Unp.UdpEcho2
