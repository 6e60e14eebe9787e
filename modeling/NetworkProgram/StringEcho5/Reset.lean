import NetworkProgram.Lib.Run
import NetworkProgram.StringEcho5.Impl

/-!
# A read that fails

`n` is a `size_t`, so it is never below 0: a `read` that returns -1 gets into the branch that writes
`n` bytes.

* `ReadLaw`        what is to follow a `read` that fails, and how much `Writen` may be asked for;
* `readLaw_iff`    a run obeys it exactly if no `read` of it fails.
-/

namespace Unp.StringEcho5
open Trans

variable {s t : St} {e : Event} {i : Nat} {r : ReadRes UInt8 MAXLINE}

structure ReadLaw (s : St) (e : Event) (t : St) : Prop where
  /-- a reset: the descriptor is closed, its entry freed, and nothing else changed or written -/
  reset : ∀ i, s.pc = .scan i → e = .read (.err ECONNRESET) →
    t.opened = s.opened.erase (s.client i).fd ∧
    t.client = Function.update s.client i { s.client i with fd := -1 } ∧
    t.out = s.out ∧ ∀ j sockfd n, t.pc ≠ .writen j sockfd n
  error : ∀ errno, errno ≠ ECONNRESET → e = .read (.err errno) →
    t.pc = .stopped (.errSys "read error")
  writen : ∀ j sockfd n, t.pc = .writen j sockfd n → 1 ≤ n ∧ n ≤ MAXLINE

/-- the `read` does not fail -/
def Reads (_ : St) : Event → Prop
  | .read (.err _) => False
  | _ => True

theorem next_pc (s : St) (pc : Pc) : (s.next pc).pc = .head ∨ (s.next pc).pc = pc := by
  unfold St.next
  dsimp only
  split
  · exact Or.inl rfl
  · exact Or.inr rfl

theorem next_not_writen (s : St) (k j : Nat) (sockfd : Int) (n : Nat) :
    (s.next (.scan k)).pc ≠ .writen j sockfd n := by
  intro hw
  rcases next_pc s (.scan k) with hp | hp <;> rw [hp] at hw <;> cases hw

/-! ## the three branches -/

/-- bytes: as many for `Writen` -/
theorem read_data (s : St) (i : Nat) (sockfd : Int) {bs : List UInt8} (pos : 0 < bs.length)
    (le : bs.length ≤ MAXLINE) : (s.read i sockfd (.data bs pos le)).pc = .writen i sockfd bs.length := by
  unfold St.read
  dsimp only
  rw [sizeT_data, if_neg (Nat.not_lt_zero _), if_neg (by omega)]

/-- a failed `read`: `Writen` of 2^64 - 1 bytes -/
theorem read_err (s : St) (i : Nat) (sockfd : Int) (errno : Errno) :
    (s.read i sockfd (.err errno)).pc = .writen i sockfd (sizeT (-1)) := by
  have hne : ¬ sizeT (-1) = 0 := by decide
  unfold St.read
  dsimp only
  rw [show ReadRes.ret (.err errno : ReadRes UInt8 MAXLINE) = -1 from rfl,
    if_neg (Nat.not_lt_zero _), if_neg hne]

theorem read_eof (s : St) (i : Nat) (sockfd : Int) (j : Nat) (sockfd' : Int) (n : Nat) :
    (s.read i sockfd .eof).pc ≠ .writen j sockfd' n := by
  have hz : sizeT 0 = 0 := by decide
  unfold St.read
  dsimp only
  rw [show ReadRes.ret (.eof : ReadRes UInt8 MAXLINE) = 0 from rfl, hz]
  exact next_not_writen _ _ j sockfd' n

/-- only a `read` gets to `Writen` -/
theorem Step.not_writen (hs : Step s e t) (he : ∀ r, e ≠ .read r) (j : Nat) (sockfd : Int) (n : Nat) :
    t.pc ≠ .writen j sockfd n := by
  cases hs with
  | poll revents pc may some =>
    show (if (s.poll revents |>.client 0).revents &&& POLLRDNORM ≠ 0 then Pc.accept else .scan 1) ≠ _
    split <;> exact fun hc => by cases hc
  | accept connfd pc nonneg unused =>
    unfold St.accept
    dsimp only
    split
    · exact fun hc => by cases hc
    · exact next_not_writen _ _ j sockfd n
  | read i r pc le used ready => exact absurd rfl (he r)
  | writen i sockfd' n' ws w pc returns =>
    unfold St.writen
    dsimp only
    split
    · exact fun hc => by cases hc
    · exact next_not_writen _ _ j sockfd n
  | _ => exact fun hc => by cases hc

/-- a step obeys the law exactly if it is no failed `read` -/
theorem Step.readLaw (hs : Step s e t) : ReadLaw s e t ↔ Reads s e := by
  constructor
  · intro h
    cases hs with
    | read i r pc le used ready =>
      cases r with
      | err errno =>
        have hle := (h.writen _ _ _ (read_err s i (s.client i).fd errno)).2
        have hmax := maxline_lt_sizeT
        omega
      | _ => trivial
    | _ => trivial
  · intro h
    have hno : ∀ errno, e ≠ .read (.err errno) := by
      rintro errno rfl
      exact h
    refine ⟨fun _ _ he => absurd he (hno _), fun errno _ he => absurd he (hno errno), ?_⟩
    intro j sockfd n hpc
    cases e with
    | read r =>
      cases hs with
      | read i _ pc le used ready =>
        cases r with
        | data bs pos len =>
          rw [read_data] at hpc
          cases hpc
          exact ⟨pos, len⟩
        | eof => exact absurd hpc (read_eof s i _ j sockfd n)
        | err errno => exact h.elim
    | _ => exact absurd hpc (hs.not_writen (fun _ hc => by cases hc) j sockfd n)

/-- **Failed reads.**  A run obeys the law exactly if no `read` of it fails. -/
theorem readLaw_iff (inherited : Finset Int) (listenfd : Int) (mem : Nat → PollFd) (buf : Nat → UInt8)
    (es : List Event) (s : St) :
    Run (Obey ReadLaw Step) (start inherited listenfd mem buf) es s ↔
      Run (When Reads Step) (start inherited listenfd mem buf) es s :=
  Run.obey_iff_when (fun _ => True) trivial (fun _ _ _ _ hs => hs.readLaw) (fun _ _ _ _ _ => trivial)

/-- the server with standard input, output and error, and nothing in its arrays -/
def fresh : St := start {0, 1, 2} 3 (fun _ => ⟨0, 0, 0⟩) (fun _ => 0)

/-- `Poll` reports `POLLRDNORM` for entry `i` -/
def only (i : Nat) : Nat → UInt16 := fun j => if j = i then POLLRDNORM else 0

/-- a client has been accepted, and its descriptor reported -/
def oneClient : St := ((fresh.poll (only 0)).accept 4).poll (only 1)

theorem oneClient_run : Run Step fresh [.poll (only 0), .accept 4, .poll (only 1)] oneClient := by
  have h1 : Run Step fresh [.poll (only 0)] (fresh.poll (only 0)) :=
    Run.single (Step.poll _ rfl (by decide) ⟨0, by decide, rfl⟩)
  have h2 := h1.snoc (Step.accept 4 rfl (by decide) (by decide))
  exact h2.snoc (Step.poll _ rfl (by decide) ⟨1, by decide, rfl⟩)

/-- after a reset the server writes 2^64 - 1 bytes to the connection -/
theorem not_readLaw : (oneClient.read 1 4 (.err ECONNRESET)).pc = .writen 1 4 18446744073709551615 ∧
    ¬ ∀ es s, Run Step fresh es s → Run (Obey ReadLaw Step) fresh es s := by
  refine ⟨rfl, ?_⟩
  intro hall
  have hread : Step oneClient (.read (.err ECONNRESET)) (oneClient.read 1 4 (.err ECONNRESET)) :=
    Step.read 1 _ rfl (by decide) (by decide) rfl
  obtain ⟨t, _, hstep, hlaw⟩ := Run.snoc_iff.mp (hall _ _ (oneClient_run.snoc hread))
  exact hstep.readLaw.mp hlaw

end Unp.StringEcho5
