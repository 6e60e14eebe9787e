import NetworkProgram.Sys

/-!
# connect with a time limit

`connect_nonb.cpp`.  The socket is made non-blocking for the attempt.  Two of the returns are in front
of the one that restores its flags, and do not close it.

* `setfl_restore`      the flags stored at the beginning bring the old ones back;
* `returned_early`     the two returns;
* `tidy_iff`           when the socket is left closed, or as it was.
-/

namespace Unp.ConnectNonb

def O_APPEND : UInt32 := 0x400
def O_NONBLOCK : UInt32 := 0x800
def O_ASYNC : UInt32 := 0x2000
def O_DIRECT : UInt32 := 0x4000
def O_NOATIME : UInt32 := 0x40000

def EINPROGRESS : Errno := 115

/-- the flags that `F_SETFL` changes -/
def settable : UInt32 := O_APPEND ||| O_NONBLOCK ||| O_ASYNC ||| O_DIRECT ||| O_NOATIME

/-- `fcntl(fd, F_SETFL, arg)` where the flags are `flags` -/
def setfl (flags arg : UInt32) : UInt32 := (flags &&& ~~~settable) ||| (arg &&& settable)

/-- `O_NONBLOCK` is set -/
def Nonblocking (flags : UInt32) : Prop := flags ||| O_NONBLOCK = flags

inductive SoError where
  | fails (e : Errno)
  /-- the error with which the attempt has ended; 0: it is connected -/
  | error (error : Errno)

inductive SelectRes where
  | fails
  | timeout
  | ready (rset wset : Bool) (so : SoError)

/-- what becomes of the attempt -/
inductive Attempt where
  /-- `connect` returns 0 -/
  | connected
  /-- `connect` returns -1 with another errno -/
  | fails (e : Errno) (ne : e ≠ EINPROGRESS)
  /-- with `EINPROGRESS`, and `select` as its time limit lets it -/
  | started (select : Option Timeval → SelectRes)

/-- the socket, and `errno` -/
structure Sock where
  flags : UInt32
  closed : Bool
  errno : Errno

inductive Out where
  | ret (n : Int) (s : Sock)
  | stop (why : Stop)

/-- `nsec ? &tval : nullptr` -/
def limit (nsec : Int) : Option Timeval := if nsec ≠ 0 then some ⟨nsec, 0⟩ else none

/-- from `done` on -/
def done (flags : UInt32) (error : Errno) (s : Sock) : Out :=
  let s := { s with flags := setfl s.flags flags }
  if error ≠ 0 then
    let s := { s with closed := true }
    .ret (-1) { s with errno := error }
  else .ret 0 s

/-- on an open socket with the flags `flags` -/
def connectNonb (flags : UInt32) (errno : Errno) (nsec : Int) (a : Attempt) : Out :=
  let s : Sock := ⟨setfl flags (flags ||| O_NONBLOCK), false, errno⟩
  match a with
  | .connected => done flags 0 s
  | .fails e _ => .ret (-1) { s with errno := e }
  | .started select =>
    let s := { s with errno := EINPROGRESS }
    match select (limit nsec) with
    | .fails => .stop (.errSys "select error")
    | .timeout =>
      let s := { s with closed := true }
      .ret (-1) { s with errno := ETIMEDOUT }
    | .ready rset wset so =>
      if rset || wset then
        match so with
        | .fails e => .ret (-1) { s with errno := e }
        | .error error => done flags error s
      else .stop (.errQuit "select error: sockfd not set" [])

/-! ## the attempt -/

def Attempt.Connected (nsec : Int) : Attempt → Prop
  | .connected => True
  | .fails _ _ => False
  | .started select => ∃ rset wset, select (limit nsec) = .ready rset wset (.error 0)

def Attempt.Failed (nsec : Int) (e : Errno) : Attempt → Prop
  | .connected => False
  | .fails e' _ => e = e'
  | .started select => match select (limit nsec) with
    | .fails => False
    | .timeout => e = ETIMEDOUT
    | .ready _ _ (.fails e') => e = e'
    | .ready _ _ (.error e') => e = e' ∧ e' ≠ 0

/-- `connect` fails at once, or `getsockopt` is called and fails -/
def Attempt.Early (nsec : Int) : Attempt → Prop
  | .connected => False
  | .fails _ _ => True
  | .started select => ∃ rset wset e, (rset || wset) = true ∧
    select (limit nsec) = .ready rset wset (.fails e)

/-- how a return of `n` leaves a socket with the flags `flags` -/
structure Tidy (flags : UInt32) (nsec : Int) (a : Attempt) (n : Int) (s : Sock) : Prop where
  left : s.closed = true ∨ s.flags = flags
  value : n = 0 ∨ n = -1
  success : n = 0 → a.Connected nsec ∧ s.closed = false ∧ s.flags = flags
  failure : n = -1 → a.Failed nsec s.errno

variable {flags arg : UInt32} {errno error e : Errno} {nsec n : Int} {a : Attempt} {s : Sock}
  {select : Option Timeval → SelectRes} {rset wset : Bool}

/-! ## the flags -/

theorem nonblock_settable : O_NONBLOCK &&& settable = O_NONBLOCK := by decide

theorem setfl_bit (flags arg : UInt32) (i : Nat) (hi : i < 32) : (setfl flags arg).toBitVec[i] =
    if settable.toBitVec[i] then arg.toBitVec[i] else flags.toBitVec[i] := by
  unfold setfl
  simp only [UInt32.toBitVec_or, UInt32.toBitVec_and, UInt32.toBitVec_not, BitVec.getElem_or,
    BitVec.getElem_and, BitVec.getElem_not]
  cases settable.toBitVec[i] <;> simp

theorem setfl_restore (flags arg : UInt32) : setfl (setfl flags arg) flags = flags := by
  apply UInt32.toBitVec_inj.mp
  ext i hi
  rw [setfl_bit, setfl_bit]
  split <;> rfl

theorem setfl_nonblock (flags : UInt32) :
    setfl flags (flags ||| O_NONBLOCK) = flags ||| O_NONBLOCK := by
  apply UInt32.toBitVec_inj.mp
  ext i hi
  rw [setfl_bit, ← nonblock_settable]
  split
  · rfl
  · simp [*]

/-! ## the returns -/

theorem done_tidy (hconn : error = 0 → a.Connected nsec) (hfail : error ≠ 0 → a.Failed nsec error)
    (h : done flags error ⟨setfl flags arg, false, errno⟩ = .ret n s) :
    Tidy flags nsec a n s := by
  unfold done at h
  dsimp only at h
  rw [setfl_restore] at h
  split at h
  · rename_i herr
    obtain ⟨rfl, rfl⟩ := Out.ret.inj h
    exact ⟨Or.inl rfl, Or.inr rfl, fun h0 => absurd h0 (by decide), fun _ => hfail herr⟩
  · rename_i herr
    obtain ⟨rfl, rfl⟩ := Out.ret.inj h
    exact ⟨Or.inr rfl, Or.inl rfl, fun _ => ⟨hconn (not_not.mp herr), rfl, rfl⟩,
      fun h0 => absurd h0 (by decide)⟩

/-- **The two returns in front of `done`.** -/
theorem returned_early (flags : UInt32) (errno : Errno) (h : a.Early nsec) : ∃ e, a.Failed nsec e ∧
    connectNonb flags errno nsec a = .ret (-1) ⟨flags ||| O_NONBLOCK, false, e⟩ := by
  rw [← setfl_nonblock flags]
  cases a with
  | connected => exact absurd h id
  | fails e ne => exact ⟨e, rfl, rfl⟩
  | started select =>
    obtain ⟨rset, wset, e, hset, hsel⟩ := h
    unfold connectNonb Attempt.Failed
    dsimp only
    rw [hsel]
    dsimp only
    rw [if_pos hset]
    exact ⟨e, rfl, rfl⟩

theorem returned_tidy (hearly : ¬ a.Early nsec)
    (h : connectNonb flags errno nsec a = .ret n s) : Tidy flags nsec a n s := by
  unfold connectNonb at h
  cases a with
  | connected => exact done_tidy (fun _ => trivial) (fun h0 => absurd rfl h0) h
  | fails e ne => exact absurd trivial hearly
  | started select =>
    dsimp only at h
    cases hsel : select (limit nsec) with
    | fails =>
      rw [hsel] at h
      exact Out.noConfusion h
    | timeout =>
      rw [hsel] at h
      obtain ⟨rfl, rfl⟩ := Out.ret.inj h
      refine ⟨Or.inl rfl, Or.inr rfl, fun h0 => absurd h0 (by decide), fun _ => ?_⟩
      unfold Attempt.Failed
      dsimp only
      rw [hsel]
    | ready rset wset so =>
      rw [hsel] at h
      dsimp only at h
      split at h
      · rename_i hset
        cases so with
        | fails e => exact absurd ⟨rset, wset, e, hset, hsel⟩ hearly
        | error error =>
          refine done_tidy (fun h0 => ⟨rset, wset, h0 ▸ hsel⟩) (fun hne => ?_) h
          unfold Attempt.Failed
          dsimp only
          rw [hsel]
          exact ⟨rfl, hne⟩
      · exact Out.noConfusion h

/-- **The socket is left closed, or as it was**, exactly if it was non-blocking before, or neither
`connect` fails at once nor `getsockopt`. -/
theorem tidy_iff (flags : UInt32) (errno : Errno) (nsec : Int) (a : Attempt) :
    (∀ n s, connectNonb flags errno nsec a = .ret n s → Tidy flags nsec a n s) ↔
      Nonblocking flags ∨ ¬ a.Early nsec := by
  by_cases hearly : a.Early nsec
  · obtain ⟨e, hfail, hret⟩ := returned_early flags errno hearly
    constructor
    · intro h
      exact Or.inl ((h _ _ hret).left.resolve_left Bool.false_ne_true)
    · intro h n s hn
      obtain ⟨rfl, rfl⟩ := Out.ret.inj (hret.symm.trans hn)
      exact ⟨Or.inr (h.resolve_right (not_not.mpr hearly)), Or.inr rfl,
        fun h0 => absurd h0 (by decide), fun _ => hfail⟩
  · exact iff_of_true (fun _ _ => returned_tidy hearly) (Or.inr hearly)

/-- a blocking socket, opened for reading and writing, and nobody who listens -/
theorem not_tidy : ¬ ∀ (flags : UInt32) (errno : Errno) (nsec : Int) (a : Attempt) (n : Int) (s : Sock),
    connectNonb flags errno nsec a = .ret n s → Tidy flags nsec a n s := by
  intro h
  have hleft := (h 2 0 5 (.fails ECONNREFUSED (by decide)) _ _ rfl).left
  exact absurd hleft (by decide)

end Unp.ConnectNonb
