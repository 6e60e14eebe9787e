import NetworkProgram.Lib.Collect
import NetworkProgram.Stdio

/-!
# What the broadcast clients share

`dg_cli` of `broadcast/dgclient_broadcast4`, `5` and `6`: a line goes to the broadcast address, and
for five seconds every reply is printed.  The three end the five seconds in three ways; what they
have in common is a `Client`:

* `Client.fgets`, `Client.sendto`, `Client.alarm`     the statements before the inner loop;
* `Client.recvfrom`, `Client.printf`                  the statements at its end;
* `Client.arrive`, `Client.expire`                    what the network and the clock do.

`SIGALRM` is a standard signal: there is one `pending` bit.  A datagram that has arrived is good, so
`Recvfrom` returns it.  `Sock_ntop_host` and the values of the socket options are left out.
-/

namespace Unp.Broadcast

/-- a datagram, with the address it comes from -/
structure Datagram where
  src : List UInt8
  payload : List UInt8
  deriving DecidableEq, Repr

/-- what `printf` is given: `preply_addr` and `len`, and the string in `recvline` -/
structure Out where
  replyAddr : List UInt8
  len : Nat
  recvline : List UInt8
  deriving DecidableEq, Repr

/-- `Recvfrom(sockfd, recvline, MAXLINE, 0, preply_addr, &len)` returns `d`, and `recvline[n] = 0` -/
def out (servlen : Nat) (d : Datagram) : Out :=
  ⟨d.src.take servlen, d.src.length, cstr (d.payload.take MAXLINE)⟩

structure Client where
  /-- what is to come on `fp` -/
  fp : List UInt8
  sent : List (List UInt8)
  /-- the receive buffer of the socket -/
  queue : List Datagram
  stdout : List Out
  /-- the alarm clock is set -/
  timer : Bool
  pending : Bool

def Client.start (input : List UInt8) : Client := ⟨input, [], [], [], false, false⟩

/-- `Fgets(sendline, MAXLINE, fp)`: the line, and the client behind it -/
def Client.fgets (c : Client) : Option (List UInt8 × Client) :=
  (Unp.fgets MAXLINE c.fp).map (fun r => (r.1, { c with fp := r.2 }))

/-- `Sendto(sockfd, sendline, strlen(sendline), 0, pservaddr, servlen)` -/
def Client.sendto (c : Client) (sendline : List UInt8) : Client :=
  { c with sent := c.sent ++ [cstr sendline] }

/-- `alarm(5);` -/
def Client.alarm (c : Client) : Client := { c with timer := true }

/-- `Recvfrom` takes the first datagram off the buffer -/
def Client.recvfrom (c : Client) : Client := { c with queue := c.queue.tail }

/-- `printf("from %s:%s", Sock_ntop_host(preply_addr, len), recvline)` -/
def Client.printf (servlen : Nat) (c : Client) (d : Datagram) : Client :=
  { c with stdout := c.stdout ++ [out servlen d] }

/-- a datagram arrives -/
def Client.arrive (c : Client) (d : Datagram) : Client := { c with queue := c.queue ++ [d] }

/-- the alarm clock runs out, and the kernel sends `SIGALRM` -/
def Client.expire (c : Client) : Client := { c with timer := false, pending := true }

/-- the pending signal is taken for delivery -/
def Client.take (c : Client) : Client := { c with pending := false }

theorem Client.fgets_some {c c' : Client} {sendline : List UInt8}
    (h : c.fgets = some (sendline, c')) : ∃ fp, c' = { c with fp := fp } := by
  obtain ⟨r, -, hr⟩ := Option.map_eq_some_iff.mp h
  exact ⟨r.2, (Prod.mk.inj hr).2.symm⟩

/-! ## as a collector -/

/-- before a line is sent, behind `Sendto`, in the five seconds, or past the loop -/
inductive Phase where
  | idle
  | asked
  | collecting
  | gone
  deriving DecidableEq, Repr

def deadline : Phase → Client → Collect.Timer
  | .asked, _ => .running
  | .collecting, c => if c.timer then .running else .past
  | _, _ => .off

/-- the alarm of the five seconds is in one place: in the clock, pending, or in one of the `bytes`
that the handler has written -/
structure Timed (p : Phase) (bytes : Nat) (c : Client) : Prop where
  before : p = .idle ∨ p = .asked → c.timer = false ∧ c.pending = false ∧ bytes = 0
  one : p = .collecting → c.timer.toNat + c.pending.toNat + bytes = 1

variable {servlen : Nat} {hand rest : List Datagram} {p : Phase} {c c' : Client} {d : Datagram}
  {bytes : Nat} {sendline : List UInt8} {a : Collect.State (List UInt8) Datagram}

/-! ### where the alarm is -/

theorem timed_gone (bytes : Nat) (c : Client) : Timed .gone bytes c :=
  ⟨fun h => (by rcases h with h | h <;> cases h), nofun⟩

theorem Timed.idle (htimer : c.timer = false) (hpending : c.pending = false) :
    Timed .idle 0 c :=
  ⟨fun _ => ⟨htimer, hpending, rfl⟩, nofun⟩

theorem Timed.asked (h : Timed .idle bytes c) : Timed .asked bytes c :=
  ⟨fun _ => h.before (Or.inl rfl), nofun⟩

theorem Timed.alarm (h : Timed .asked bytes c) : Timed .collecting bytes c.alarm := by
  obtain ⟨-, hpending, hbytes⟩ := h.before (Or.inr rfl)
  refine ⟨fun h => (by rcases h with h | h <;> cases h), fun _ => ?_⟩
  show true.toNat + c.pending.toNat + bytes = 1
  rw [hpending, hbytes]
  rfl

theorem Timed.expire (h : Timed .collecting bytes c) (ht : c.timer = true) :
    Timed .collecting bytes c.expire := by
  have hone := h.one rfl
  rw [ht] at hone
  refine ⟨fun h => (by rcases h with h | h <;> cases h), fun _ => ?_⟩
  show false.toNat + true.toNat + bytes = 1
  simp only [Bool.toNat_true, Bool.toNat_false] at hone ⊢
  omega

/-- only in the five seconds is there an alarm -/
theorem Timed.collecting (h : Timed p bytes c) (hp : p ≠ .gone)
    (ht : c.timer = true ∨ c.pending = true ∨ 0 < bytes) : p = .collecting := by
  cases p with
  | collecting => rfl
  | gone => exact absurd rfl hp
  | idle | asked =>
    obtain ⟨htimer, hpending, hbytes⟩ := h.before (by simp)
    rcases ht with ht | ht | ht
    · exact absurd (ht.symm.trans htimer) (by decide)
    · exact absurd (ht.symm.trans hpending) (by decide)
    · omega

/-- an alarm that is pending is not in the clock, nor in the pipe -/
theorem Timed.past (h : Timed .collecting bytes c) (ht : c.pending = true) :
    c.timer = false ∧ bytes = 0 := by
  have hone := h.one rfl
  rw [ht] at hone
  cases hc : c.timer with
  | false =>
    rw [hc] at hone
    simp only [Bool.toNat_true, Bool.toNat_false] at hone
    exact ⟨rfl, by omega⟩
  | true =>
    rw [hc] at hone
    simp only [Bool.toNat_true] at hone
    omega

/-- the handler turns the pending alarm into a byte -/
theorem Timed.write (h : Timed p bytes c) (hp : p ≠ .gone) (ht : c.pending = true) :
    Timed p (bytes + 1) c.take := by
  obtain rfl := h.collecting hp (Or.inr (Or.inl ht))
  obtain ⟨htimer, rfl⟩ := h.past ht
  refine ⟨fun h => (by rcases h with h | h <;> cases h), fun _ => ?_⟩
  show c.timer.toNat + false.toNat + (0 + 1) = 1
  rw [htimer]
  rfl

/-- a byte is the only alarm there is -/
theorem Timed.byte (h : Timed .collecting bytes c) (hb : 0 < bytes) :
    c.timer = false ∧ c.pending = false ∧ bytes = 1 := by
  have hone := h.one rfl
  cases ht : c.timer <;> cases hp : c.pending <;> rw [ht, hp] at hone <;>
    simp only [Bool.toNat_true, Bool.toNat_false] at hone
  · exact ⟨rfl, rfl, by omega⟩
  all_goals omega

/-- in the five seconds there is an alarm to come -/
theorem Timed.coming (h : Timed .collecting bytes c) :
    c.timer = true ∨ c.pending = true ∨ 0 < bytes := by
  have hone := h.one rfl
  cases ht : c.timer with
  | true => exact Or.inl rfl
  | false =>
    cases hp : c.pending with
    | true => exact Or.inr (Or.inl rfl)
    | false =>
      rw [ht, hp] at hone
      simp only [Bool.toNat_false] at hone
      exact Or.inr (Or.inr (by omega))

/-! ### what the collector sees -/

/-- the client `c`, which has taken `hand` off the buffer, looks like the collector `a` -/
structure Looks (servlen : Nat) (hand : List Datagram) (p : Phase) (c : Client)
    (a : Collect.State (List UInt8) Datagram) : Prop where
  asked : a.asked = c.sent
  held : a.relay.held = hand ++ c.queue
  shown : a.shown.map (out servlen) = c.stdout
  timer : p ≠ .gone → a.timer = deadline p c

theorem looks_start (input : List UInt8) :
    Looks servlen [] .idle (Client.start input) Collect.start :=
  ⟨rfl, rfl, rfl, fun _ => rfl⟩

theorem Looks.gone (h : Looks servlen hand p c a) : Looks servlen hand .gone c a :=
  ⟨h.asked, h.held, h.shown, fun hne => absurd rfl hne⟩

theorem Looks.arrive (h : Looks servlen hand p c a) (d : Datagram) :
    Looks servlen hand p (c.arrive d) { a with relay := a.relay.take [d] } := by
  refine ⟨h.asked, ?_, h.shown, fun hne => ?_⟩
  · show (a.relay.take [d]).held = hand ++ (c.queue ++ [d])
    rw [Relay.take_held, h.held, List.append_assoc]
  · rw [h.timer hne]
    cases p <;> rfl

theorem Looks.fgets (h : Looks servlen [] .idle c a) (hc : c.fgets = some (sendline, c')) :
    Looks servlen [] .idle c' a := by
  obtain ⟨fp, rfl⟩ := Client.fgets_some hc
  exact ⟨h.asked, h.held, h.shown, h.timer⟩

theorem Looks.sendto (h : Looks servlen hand .idle c a) (sendline : List UInt8) :
    ∃ b, Collect.Step a (.ask (cstr sendline)) b ∧
      Looks servlen hand .asked (c.sendto sendline) b := by
  have hoff : a.timer = .off := h.timer (by decide)
  exact ⟨_, .ask _ hoff, congrArg (· ++ [cstr sendline]) h.asked, h.held, h.shown, fun _ => rfl⟩

theorem Looks.alarm (h : Looks servlen hand .asked c a) :
    Looks servlen hand .collecting c.alarm a :=
  ⟨h.asked, h.held, h.shown, fun _ => h.timer (by decide)⟩

theorem Looks.recvfrom (h : Looks servlen [] p c a) (hq : c.queue = d :: rest) :
    Looks servlen [d] p c.recvfrom a := by
  refine ⟨h.asked, ?_, h.shown, fun hne => ?_⟩
  · show a.relay.held = [d] ++ c.queue.tail
    rw [h.held, hq]
    rfl
  · rw [h.timer hne]
    cases p <;> rfl

theorem Looks.printf (h : Looks servlen [d] .collecting c a) :
    ∃ b, Collect.Step a (.put d) b ∧ Looks servlen [] .collecting (c.printf servlen d) b := by
  have hon : a.timer ≠ .off := by
    rw [h.timer (by decide), deadline]
    split <;> decide
  have hheld : a.relay.held = d :: c.queue := h.held
  refine ⟨_, .put d _ hon hheld, h.asked, (Collect.give_one hheld).2, ?_, h.timer⟩
  show (a.shown ++ [d]).map (out servlen) = c.stdout ++ [out servlen d]
  rw [List.map_append, h.shown]
  rfl

theorem Looks.expire (h : Looks servlen hand .collecting c a) (ht : c.timer = true) :
    ∃ b, Collect.Step a .expire b ∧ Looks servlen hand .collecting c.expire b := by
  have hrun : a.timer = .running := by
    rw [h.timer (by decide), deadline, ht]
    rfl
  exact ⟨_, .expire hrun, h.asked, h.held, h.shown, fun _ => rfl⟩

theorem Looks.take (h : Looks servlen hand p c a) : Looks servlen hand p c.take a := by
  refine ⟨h.asked, h.held, h.shown, fun hne => ?_⟩
  rw [h.timer hne]
  cases p <;> rfl

theorem Looks.past (h : Looks servlen hand .collecting c a) (ht : c.timer = false) :
    a.timer = .past := by
  rw [h.timer (by decide), deadline, ht]
  rfl

theorem Looks.stop (h : Looks servlen hand .collecting c a) (ht : c.timer = false) :
    ∃ b, Collect.Step a (.stop none) b ∧ Looks servlen hand .idle c b :=
  ⟨_, .stop (h.past ht), h.asked, h.held, h.shown, fun _ => rfl⟩

theorem Looks.lose (h : Looks servlen [d] .collecting c a) (ht : c.timer = false) :
    ∃ b, Collect.Step a (.stop (some d)) b ∧ Looks servlen [] .idle c b :=
  ⟨_, .stopLost d _ (h.past ht) h.held, h.asked, (Collect.give_one h.held).2, h.shown,
    fun _ => rfl⟩

/-- the client looks like the collector `a`, and its own invariant holds -/
structure Sees (Inv : Prop) (servlen : Nat) (hand : List Datagram) (p : Phase) (c : Client)
    (a : Collect.State (List UInt8) Datagram) : Prop where
  inv : Inv
  looks : Looks servlen hand p c a

variable {Inv : Prop} {x : Collect.Event (List UInt8) Datagram}
  {xs : List (Collect.Event (List UInt8) Datagram)}

theorem Sees.quiet (hi : Inv) (h : Looks servlen hand p c a) :
    ∃ b, Trans.Run Collect.Step a [] b ∧ Sees Inv servlen hand p c b :=
  ⟨a, Trans.Run.nil, hi, h⟩

theorem Sees.one (hi : Inv) (h : ∃ b, Collect.Step a x b ∧ Looks servlen hand p c b) :
    ∃ b, Trans.Run Collect.Step a [x] b ∧ Sees Inv servlen hand p c b := by
  obtain ⟨b, hb, hl⟩ := h
  exact ⟨b, Trans.Run.single hb, hi, hl⟩

/-! ### at the end of a run -/

/-- where no reply is lost, what has arrived is printed in order or waits -/
theorem Looks.replies (h : Looks servlen hand p c a)
    (ha : Trans.Run Collect.Step Collect.start xs a) (hkeeps : ∀ x ∈ xs, x.Keeps) :
    c.stdout ++ (hand ++ c.queue).map (out servlen) =
      (xs.flatMap Collect.Event.arrived).map (out servlen) := by
  obtain ⟨hshown, -⟩ := Collect.lossless hkeeps ha
  rw [← h.shown, ← h.held, ← List.map_append, hshown, a.relay.conserve, Collect.taken_of_run ha]

/-- what is printed is in the order of arrival, and only what the stops lose is missing -/
theorem Looks.losses (h : Looks servlen hand p c a)
    (ha : Trans.Run Collect.Step Collect.start xs a) :
    (∃ shown, shown.map (out servlen) = c.stdout ∧
      (shown ++ (hand ++ c.queue)).Sublist (xs.flatMap Collect.Event.arrived) ∧
      (shown ++ xs.flatMap Collect.Event.lost ++ (hand ++ c.queue)).Perm
        (xs.flatMap Collect.Event.arrived)) ∧
    (xs.flatMap Collect.Event.lost).length ≤ c.sent.length := by
  obtain ⟨sub, perm, few, rounds⟩ := Collect.good_of_run ha
  rw [← Collect.taken_of_run ha, ← Collect.lost_of_run ha, ← h.held, ← a.relay.conserve, ← h.asked]
  refine ⟨⟨a.shown, h.shown, sub.append (List.Sublist.refl _), perm.append_right _⟩, ?_⟩
  omega

/-- between two lines every line has had its alarm -/
theorem Looks.rounds (h : Looks servlen hand .idle c a)
    (ha : Trans.Run Collect.Step Collect.start xs a) :
    xs.countP Collect.Event.expires = c.sent.length := by
  have htimer : a.timer = .off := h.timer (by decide)
  have hrounds := (Collect.good_of_run ha).rounds
  rw [Collect.expired ha, ← h.asked, hrounds, htimer]
  rfl

end Unp.Broadcast
