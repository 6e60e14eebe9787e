import NetworkProgram.Icmpd.Conn

/-!
# The handshake of client and daemon

A client passes its socket and reads one byte (`ss`); the daemon answers in `readable_conn`.

* `Heard`           what the client reads on the connection;
* `Kept`            the daemon keeps the connection, with the family and port of the socket;
* `Agree`           the client reads `'1'` exactly when the daemon has kept it;
* `handshake_iff`   they agree exactly on a client that has closed and on a socket of an internet
                    family with a port.
-/

namespace Unp.Icmpd

/-! ## the client's side -/

inductive Heard where
  | byte (b : UInt8)
  | eof
  | nothing
  deriving DecidableEq, Repr

/-- the first byte written to `fd` -/
def Act.byteTo (fd : Int) : Act → Option UInt8
  | .write fd' bs => if fd' = fd then bs.head? else none
  | _ => none

def Act.closes (fd : Int) : Act → Bool
  | .close fd' => fd' == fd
  | _ => false

/-- what `Read(icmpfd, recvline, 1)` finds at the other end of `fd`; the end of the daemon closes all
its descriptors -/
def Out.heard (o : Out) (fd : Int) : Heard :=
  match o.acts.findSome? (Act.byteTo fd) with
  | some b => .byte b
  | none => if o.acts.any (Act.closes fd) || o.stop.isSome then .eof else .nothing

/-! ## the daemon's side -/

def Internet (ipv6 : Bool) (family : Nat) : Prop :=
  family = AF_INET ∨ ipv6 = true ∧ family = AF_INET6

/-- the port the socket is bound to after the handshake -/
def Sock.boundPort (sock : Sock) : Option UInt16 :=
  match sock.name with
  | .error _ => none
  | .ok (_, port) =>
    if port ≠ 0 then some port
    else match sock.bind, sock.wildName with
      | none, .ok q => some q
      | _, _ => none

/-- the daemon has kept the connection of slot `i`, with the family and the port of the socket -/
structure Kept (ipv6 : Bool) (d : Daemon) (i : Nat) (m : RecvMsg Sock) (o : Out) : Prop where
  running : o.stop = none
  opened : o.acts.any (Act.closes (d.client i).connfd) = false
  slot : (o.d.client i).connfd = (d.client i).connfd
  family : Internet ipv6 (o.d.client i).family
  port : ∃ p q, Passes m p ∧ p.obj.boundPort = some q ∧ q ≠ 0 ∧ (o.d.client i).lport = q.toNat

/-- client and daemon agree on what has become of the connection of slot `i` -/
structure Agree (ipv6 : Bool) (d : Daemon) (i : Nat) (m : RecvMsg Sock) (o : Out) : Prop where
  ok : o.heard (d.client i).connfd = .byte one ↔ Kept ipv6 d i m o
  fail : ¬ Kept ipv6 d i m o → o.heard (d.client i).connfd ≠ .nothing ∧
    ((o.d.client i).connfd = -1 ∨ o.stop.isSome)

/-- the passed socket is of an internet family, and has a port or gets one -/
def HasPort (ipv6 : Bool) (sock : Sock) : Prop :=
  ∃ family port, sock.name = .ok (family, port) ∧ Internet ipv6 family ∧
    (port ≠ 0 ∨ sock.bind = none ∧ ∃ q, sock.wildName = .ok q ∧ q ≠ 0)

variable {ipv6 : Bool} {d : Daemon} {i : Nat} {m : RecvMsg Sock} {family : Nat} {port : UInt16}

/-! ## ports -/

theorem sockGetPort_internet (h : Internet ipv6 family) :
    sockGetPort ipv6 family port = port.toNat := by
  unfold sockGetPort
  rcases h with h | h
  · exact if_pos h
  · rw [if_pos h, ite_self]

theorem sockGetPort_other (h : ¬ Internet ipv6 family) : sockGetPort ipv6 family port = -1 := by
  unfold sockGetPort
  rw [if_neg (fun hf => h (Or.inl hf)), if_neg (fun hf => h (Or.inr hf))]

theorem sockBindWild_internet {sock : Sock} (h : Internet ipv6 family) :
    sockBindWild ipv6 sock family = bindWild sock := by
  unfold sockBindWild
  rcases h with h | h
  · exact if_pos h
  · rw [if_pos h, ite_self]

theorem bindWild_pos {sock : Sock} :
    0 < bindWild sock ↔ sock.bind = none ∧ ∃ q, sock.wildName = .ok q ∧ q ≠ 0 := by
  unfold bindWild
  cases hb : sock.bind with
  | some errno => exact ⟨fun h => absurd (show (0 : Int) < -1 from h) (by omega),
      fun h => absurd h.1 (by simp)⟩
  | none =>
    cases hw : sock.wildName with
    | error errno =>
      constructor
      · intro h
        exact absurd (show (0 : Int) < -1 from h) (by omega)
      · rintro ⟨_, q, hq, _⟩
        exact absurd hq (by simp)
    | ok q =>
      have hq : 0 < (q.toNat : Int) ↔ q ≠ 0 := by
        rw [Ne, ← UInt16.toNat_inj, UInt16.toNat_zero]
        omega
      constructor
      · intro h
        exact ⟨rfl, q, rfl, hq.mp h⟩
      · rintro ⟨_, q', hq', hne⟩
        obtain rfl := Except.ok.inj hq'
        exact hq.mpr hne

theorem toNat_ne_zero : (port.toNat : Int) ≠ 0 ↔ port ≠ 0 := by
  rw [Ne, Ne, ← UInt16.toNat_inj, UInt16.toNat_zero]
  omega

/-! ## the exits -/

/-- the error exit answers `'1'` and frees the slot -/
theorem not_agree_clienterr {d' : Daemon} {r : Option (Passed Sock)} {acts : List Act}
    (hconn : 0 ≤ (d.client i).connfd)
    (hacts : acts.findSome? (Act.byteTo (d.client i).connfd) = none) :
    ¬ Agree ipv6 d i m (clienterr d' i (d.client i).connfd r acts) := by
  intro h
  have hheard : (clienterr d' i (d.client i).connfd r acts).heard (d.client i).connfd
      = .byte one := by
    unfold Out.heard
    rw [clienterr_acts, List.findSome?_append, hacts, Option.none_or, List.findSome?_cons]
    rw [show Act.byteTo (d.client i).connfd (.write (d.client i).connfd [one]) = some one from
      if_pos rfl]
  have hslot := (h.ok.mp hheard).slot
  unfold clienterr at hslot
  rw [clientdone_client, Function.update_self] at hslot
  have hslot' : (-1 : Int) = (d.client i).connfd := hslot
  omega

/-- the other exit answers `'1'` too -/
theorem registered_heard (d' : Daemon) (fd : Int) (p : Passed Sock) :
    (registered d' fd p).heard fd = .byte one := by
  simp [Out.heard, registered, Daemon.done, List.findSome?, Act.byteTo]

/-- so there they agree exactly when the family and the port are right -/
theorem agree_registered {p : Passed Sock} {lport : Int} (hp : Passes m p)
    (hfresh : (p.fd : Int) ≠ (d.client i).connfd) :
    Agree ipv6 d i m (registered (d.named i family lport) (d.client i).connfd p) ↔
      Internet ipv6 family ∧ ∃ q, p.obj.boundPort = some q ∧ q ≠ 0 ∧ lport = q.toNat := by
  have hheard := registered_heard (d.named i family lport) (d.client i).connfd p
  have hslot : (registered (d.named i family lport) (d.client i).connfd p).d.client i
      = ⟨(d.client i).connfd, family, lport⟩ := setClient_same _
  have hopen : (registered (d.named i family lport) (d.client i).connfd p).acts.any
      (Act.closes (d.client i).connfd) = false := by
    unfold registered Daemon.done
    simp [Act.closes, hfresh]
  constructor
  · intro h
    have hkept := h.ok.mp hheard
    have hfam := hkept.family
    obtain ⟨p', q, hp', hq, hne, hlp⟩ := hkept.port
    rw [hslot] at hfam hlp
    obtain rfl := hp.unique hp'
    exact ⟨hfam, q, hq, hne, hlp⟩
  · rintro ⟨hfam, q, hq, hne, hlp⟩
    have hkept : Kept ipv6 d i m (registered (d.named i family lport) (d.client i).connfd p) := by
      refine ⟨rfl, hopen, ?_, ?_, p, q, hp, hq, hne, ?_⟩
      · rw [hslot]
      · rw [hslot]; exact hfam
      · rw [hslot]; exact hlp
    exact ⟨⟨fun _ => hkept, fun _ => hheard⟩, fun h => absurd hkept h⟩

theorem agree_stopped {stop : Stop} : Agree ipv6 d i m ⟨d, [], some stop⟩ := by
  have hk : ¬ Kept ipv6 d i m ⟨d, [], some stop⟩ := fun h => absurd h.running (by simp)
  have hheard : (⟨d, [], some stop⟩ : Out).heard (d.client i).connfd = .eof := rfl
  refine ⟨⟨fun h => ?_, fun h => absurd h hk⟩, fun _ => ⟨?_, Or.inr rfl⟩⟩
  · rw [hheard] at h
    cases h
  · rw [hheard]
    exact fun h => by cases h

/-- a client that has closed reads EOF, and its slot is free -/
theorem agree_closed (hconn : 0 ≤ (d.client i).connfd) :
    Agree ipv6 d i m (clientdone d i (d.client i).connfd none []) := by
  have hslot : ((clientdone d i (d.client i).connfd none []).d.client i).connfd = -1 := by
    rw [clientdone_client, Function.update_self]
  have hk : ¬ Kept ipv6 d i m (clientdone d i (d.client i).connfd none []) := fun h => by
    have heq := h.slot
    rw [hslot] at heq
    omega
  have hheard : (clientdone d i (d.client i).connfd none []).heard (d.client i).connfd
      = .eof := by
    unfold Out.heard
    rw [clientdone_acts]
    simp [Act.byteTo, Act.closes]
  refine ⟨⟨fun h => ?_, fun h => absurd h hk⟩, fun _ => ⟨?_, Or.inl hslot⟩⟩
  · rw [hheard] at h
    cases h
  · rw [hheard]
    exact fun h => by cases h

/-! ## when a socket has a port -/

/-- without a port the socket needs one from the wildcard `bind` -/
theorem hasPort_zero {sock : Sock} (hname : sock.name = .ok (family, port))
    (hzero : sockGetPort ipv6 family port = 0) :
    HasPort ipv6 sock ↔ 0 < sockBindWild ipv6 sock family := by
  have hfam : Internet ipv6 family := by
    by_contra hno
    rw [sockGetPort_other hno] at hzero
    omega
  rw [sockGetPort_internet hfam] at hzero
  rw [sockBindWild_internet hfam, bindWild_pos]
  constructor
  · rintro ⟨family', port', h, _, hport⟩
    obtain ⟨rfl, rfl⟩ := Prod.mk.inj (Except.ok.inj (hname.symm.trans h))
    rcases hport with hne | hwild
    · exact absurd hzero (toNat_ne_zero.mpr hne)
    · exact hwild
  · intro h
    exact ⟨family, port, hname, hfam, Or.inr h⟩

theorem hasPort_nonzero {sock : Sock} (hname : sock.name = .ok (family, port))
    (hnz : sockGetPort ipv6 family port ≠ 0) : HasPort ipv6 sock ↔ Internet ipv6 family := by
  constructor
  · rintro ⟨family', port', h, hfam, _⟩
    obtain ⟨rfl, rfl⟩ := Prod.mk.inj (Except.ok.inj (hname.symm.trans h))
    exact hfam
  · intro hfam
    rw [sockGetPort_internet hfam] at hnz
    exact ⟨family, port, hname, hfam, Or.inl (toNat_ne_zero.mp hnz)⟩

/-- the port of the wildcard `bind` is the port of the socket -/
theorem boundPort_zero {sock : Sock} (hname : sock.name = .ok (family, port))
    (hfam : Internet ipv6 family) (hzero : sockGetPort ipv6 family port = 0)
    (hwild : 0 < sockBindWild ipv6 sock family) :
    ∃ q, sock.boundPort = some q ∧ q ≠ 0 ∧ sockBindWild ipv6 sock family = q.toNat := by
  rw [sockGetPort_internet hfam] at hzero
  rw [sockBindWild_internet hfam] at hwild ⊢
  obtain ⟨hb, q, hq, hne⟩ := bindWild_pos.mp hwild
  have hp0 : ¬ port ≠ 0 := fun hno => toNat_ne_zero.mpr hno hzero
  refine ⟨q, ?_, hne, ?_⟩
  · unfold Sock.boundPort
    rw [hname, hb, hq]
    exact if_neg hp0
  · unfold bindWild
    rw [hb, hq]

theorem boundPort_nonzero {sock : Sock} (hname : sock.name = .ok (family, port))
    (hfam : Internet ipv6 family) (hnz : sockGetPort ipv6 family port ≠ 0) :
    ∃ q, sock.boundPort = some q ∧ q ≠ 0 ∧ sockGetPort ipv6 family port = q.toNat := by
  rw [sockGetPort_internet hfam] at hnz ⊢
  have hne := toNat_ne_zero.mp hnz
  refine ⟨port, ?_, hne, rfl⟩
  unfold Sock.boundPort
  rw [hname]
  exact if_pos hne

/-- what a client must have done for the handshake to agree -/
theorem hasPort_iff {p : Passed Sock} (hret : 0 < m.ret) (hp : Passes m p) :
    ((∃ stop, wrapReadFd m none = .error stop) ∨ m.ret = 0 ∨
      ∃ p, 0 < m.ret ∧ Passes m p ∧ HasPort ipv6 p.obj) ↔ HasPort ipv6 p.obj := by
  constructor
  · rintro (⟨stop, h⟩ | h0 | ⟨p', _, hp', h⟩)
    · exact absurd (h.symm.trans hp) (by simp)
    · omega
    · rwa [hp.unique hp']
  · intro h
    exact Or.inr (Or.inr ⟨p, hret, hp, h⟩)

/-- **The handshake.**  Client and daemon agree exactly when the daemon ends or the client has
closed, and when the client passes a socket of an internet family that has a port or gets one. -/
theorem handshake_iff (ipv6 : Bool) (d : Daemon) (i : Nat) (m : RecvMsg Sock)
    (hconn : 0 ≤ (d.client i).connfd)
    (hfresh : ∀ p, Passes m p → (p.fd : Int) ≠ (d.client i).connfd) :
    Agree ipv6 d i m (readableConn ipv6 d i m) ↔
      (∃ stop, wrapReadFd m none = .error stop) ∨ m.ret = 0 ∨
      ∃ p, 0 < m.ret ∧ Passes m p ∧ HasPort ipv6 p.obj := by
  have hout := readableConn_outcome ipv6 d i m
  generalize readableConn ipv6 d i m = o at hout
  cases hout with
  | stopped stop err => exact iff_of_true agree_stopped (Or.inl ⟨stop, err⟩)
  | closed ret none => exact iff_of_true (agree_closed hconn) (Or.inr (Or.inl ret))
  | noFd ret none =>
    refine iff_of_false (not_agree_clienterr hconn rfl) ?_
    rintro (⟨stop, h⟩ | h0 | ⟨p, _, hp, _⟩)
    · exact absurd (h.symm.trans none) (by simp)
    · omega
    · exact absurd ((show wrapReadFd m .none = _ from hp).symm.trans none) (by simp)
  | noName p errno ret pass name =>
    rw [hasPort_iff ret pass]
    refine iff_of_false (not_agree_clienterr hconn rfl) ?_
    rintro ⟨family, port, h, _⟩
    exact absurd (name.symm.trans h) (by simp)
  | noPort p family port ret pass name zero wild =>
    rw [hasPort_iff ret pass, hasPort_zero name zero]
    exact iff_of_false (not_agree_clienterr hconn rfl) (by omega)
  | bound p family port ret pass name zero wild =>
    have hport := (hasPort_zero name zero).mpr wild
    have hfam : Internet ipv6 family := by
      obtain ⟨_, _, h, hfam, _⟩ := hport
      obtain ⟨rfl, rfl⟩ := Prod.mk.inj (Except.ok.inj (name.symm.trans h))
      exact hfam
    rw [hasPort_iff ret pass, agree_registered pass (hfresh p pass)]
    exact iff_of_true ⟨hfam, boundPort_zero name hfam zero wild⟩ hport
  | named p family port ret pass name nonzero =>
    rw [hasPort_iff ret pass, hasPort_nonzero name nonzero,
      agree_registered pass (hfresh p pass)]
    exact ⟨fun h => h.1, fun hfam => ⟨hfam, boundPort_nonzero name hfam nonzero⟩⟩

/-! ## two clients -/

/-- the daemon with one connection, descriptor 10 in slot 0 -/
def oneConn : Daemon := (mainInit 3 4).setClient 0 ⟨10, AF_UNSPEC, 0⟩

/-- the client has passed no descriptor: it is told `'1'` and its slot is freed -/
theorem not_agree_noFd : ¬ ∀ (ipv6 : Bool) (d : Daemon) (i : Nat) (m : RecvMsg Sock),
    0 ≤ (d.client i).connfd → (∀ p, Passes m p → (p.fd : Int) ≠ (d.client i).connfd) →
    Agree ipv6 d i m (readableConn ipv6 d i m) := by
  intro h
  have hconn : 0 ≤ (oneConn.client 0).connfd := by decide
  have hno : wrapReadFd (⟨1, none⟩ : RecvMsg Sock) none = .ok (1, none) := rfl
  have hagree := h false oneConn 0 ⟨1, none⟩ hconn
    (fun p hp => absurd (hno.symm.trans hp) (by simp))
  have hout : readableConn false oneConn 0 ⟨1, none⟩
      = clienterr oneConn 0 (oneConn.client 0).connfd none [] := rfl
  rw [hout] at hagree
  exact not_agree_clienterr hconn rfl hagree

/-- a UDP socket with port 1234, passed as descriptor 11 -/
def udp1234 : RecvMsg Sock :=
  ⟨1, some ⟨true, SOL_SOCKET, SCM_RIGHTS, ⟨11, ⟨true, .ok (AF_INET, 1234), none, .ok 0⟩⟩⟩⟩

theorem handshake_iff_udp :
    Agree false oneConn 0 udp1234 (readableConn false oneConn 0 udp1234) := by
  have hp : Passes udp1234 ⟨11, ⟨true, .ok (AF_INET, 1234), none, .ok 0⟩⟩ := rfl
  refine (handshake_iff false oneConn 0 udp1234 (by decide) (fun p h => ?_)).mpr
    (Or.inr (Or.inr ⟨_, by decide, hp, AF_INET, 1234, rfl, Or.inl rfl, Or.inl (by decide)⟩))
  rw [h.unique hp]
  decide

end Unp.Icmpd
