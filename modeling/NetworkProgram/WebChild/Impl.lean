import NetworkProgram.Number
import NetworkProgram.Readline.Impl
import NetworkProgram.Stdio
import NetworkProgram.Writen

/-!
# `web_child`

`server/web_clild.cpp`, with 32 bits in an `int`.  Up to `MAXN` bytes are written from `result`, which
has `MAXLINE`; what lies behind it on the stack can be read as far as it is mapped.

* `turn`           the loop between `Readline` and `Writen`;
* `Result.write`   a `write` from `result`, with `EFAULT` where nothing is mapped;
* `webChild`       the loop, with what it has written and how it ends.
-/

namespace Unp.WebChild

def MAXN : Nat := 16384

/-- where a turn goes: out of the function, out of the process, or to `Writen` -/
inductive Turn where
  | closed
  | stopped (why : Stop)
  | writen (ntowrite : Nat)

/-- `Readline` has returned `nread`, with `line` stored -/
def turn (nread : Int) (line : List UInt8) : Turn :=
  if nread < 0 then .stopped (.errSys "readline error")
  else if nread = 0 then .closed
  else
    let ntowrite := (atol line).toInt32.toInt
    if ntowrite ≤ 0 ∨ ntowrite > MAXN then
      .stopped (.errQuit "client request for %d bytes" [ntowrite])
    else .writen ntowrite.toNat

/-- `char result[MAXLINE]`, with what is mapped behind it -/
structure Result where
  bytes : List UInt8
  array : MAXLINE ≤ bytes.length

def Result.byte (result : Result) (i : Nat) : UInt8 := result.bytes.getD i 0

/-- the answer to a shorter `write` -/
def widen {m len : Nat} (h : m ≤ len) : WriteRes m → WriteRes len
  | .wrote k le => .wrote k (le.trans h)
  | .err e => .err e

/-- `write(fd, result + ptr, len)`: where the memory ends it takes less, or nothing -/
def Result.write (result : Result) (ptr : Nat) (w : (len : Nat) → WriteRes len) (len : Nat) :
    WriteRes len :=
  if result.bytes.length ≤ ptr then .err EFAULT
  else widen (Nat.min_le_left len (result.bytes.length - ptr)) (w _)

/-- the calls of `Writen(sockfd, result, n)`: the one for `nleft` bytes is for the last ones -/
def Result.writes (result : Result) (n : Nat) (ws : Writes) : Writes :=
  ws.map fun w nleft => result.write (n - nleft) w nleft

/-- what has been written, and what has ended the process, if `web_child` has not returned -/
structure Served where
  sent : List UInt8
  stop : Option Stop

/-- `writes` answers one `Writen` after the other; `none` if the answers end before the loop -/
def webChild (result : Result) (writes : List Writes) (sent : List UInt8) (st : Statics UInt8)
    (feed : Feed UInt8) : Option Served :=
  let r := readline isNl MAXLINE st feed
  match turn r.line.ret r.line.stored with
  | .closed => some ⟨sent, none⟩
  | .stopped why => some ⟨sent, some why⟩
  | .writen n =>
    match writes with
    | [] => none
    | ws :: writes =>
      match writen result.byte n (result.writes n ws) with
      | none => none
      | some w =>
        if w.ret ≠ n then some ⟨sent ++ w.out, some (.errSys "writen error")⟩
        else webChild result writes (sent ++ w.out) r.st r.feed

/-- the range in which a request is served -/
def InRange (n : Int) : Prop := 1 ≤ n ∧ n ≤ MAXN

instance (n : Int) : Decidable (InRange n) := inferInstanceAs (Decidable (_ ∧ _))

variable {result : Result} {ws : Writes} {writes : List Writes} {sent : List UInt8}
  {st : Statics UInt8} {feed : Feed UInt8} {nread : Int} {line : List UInt8} {n : Nat}

/-! ## one turn -/

theorem turn_closed (line : List UInt8) : turn 0 line = .closed := rfl

theorem turn_served (hread : 0 < nread) (h : InRange (atol line).toInt32.toInt) :
    turn nread line = .writen (atol line).toInt32.toInt.toNat := by
  obtain ⟨h1, hmax⟩ := h
  unfold turn
  rw [if_neg (by omega), if_neg (by omega), if_neg (by omega)]

theorem turn_refused (hread : 0 < nread) (h : ¬ InRange (atol line).toInt32.toInt) :
    turn nread line =
      .stopped (.errQuit "client request for %d bytes" [(atol line).toInt32.toInt]) := by
  unfold InRange at h
  unfold turn
  rw [if_neg (by omega), if_neg (by omega), if_pos (by omega)]

/-- the end of file, or a request in the range -/
def Acceptable (nread : Int) (line : List UInt8) : Prop :=
  0 ≤ nread ∧ (nread = 0 ∨ InRange (atol line).toInt32.toInt)

/-- the range test -/
theorem turn_writen (h : turn nread line = .writen n) : 0 < n ∧ n ≤ MAXN := by
  unfold turn at h
  dsimp only at h
  split at h
  · cases h
  · split at h
    · cases h
    · split at h
      · cases h
      · cases h
        omega

/-! ## the array -/

/-- as far as the memory goes, a `write` takes what it would take anywhere -/
theorem Result.write_of_le {w : (len : Nat) → WriteRes len} {ptr nleft : Nat} (hpos : 0 < nleft)
    (hle : ptr + nleft ≤ result.bytes.length) : result.write ptr w nleft = w nleft := by
  have hwhole : ∀ m (h : m ≤ nleft), m = nleft → widen h (w m) = w nleft := by
    rintro _ _ rfl
    cases w _ <;> rfl
  unfold Result.write
  rw [if_neg (by omega)]
  exact hwhole _ _ (by omega)

theorem Result.write_fault {w : (len : Nat) → WriteRes len} {ptr nleft : Nat}
    (hend : result.bytes.length ≤ ptr) : result.write ptr w nleft = .err EFAULT := if_pos hend

/-- a request for no more than the array has meets no end of the memory -/
theorem takes_writes {nleft : Nat} (h : Takes nleft ws) (hle : nleft ≤ n) (hn : n ≤ MAXLINE) :
    Takes nleft (result.writes n ws) := by
  have harray := result.array
  induction h with
  | done => exact .done
  | @wrote nleft k w ws le ans pos _ ih =>
    have hwrite : result.write (n - nleft) w nleft = w nleft :=
      result.write_of_le (by omega) (by omega)
    exact .wrote (hwrite.trans ans) pos (ih (by omega))
  | @intr nleft w ws ans _ ih =>
    rcases Nat.eq_zero_or_pos nleft with rfl | hpos
    · exact .done
    · have hwrite : result.write (n - nleft) w nleft = w nleft :=
        result.write_of_le hpos (by omega)
      exact .intr (hwrite.trans ans) (ih hle)

/-! ## the loop -/

theorem webChild_closed (h : (readline isNl MAXLINE st feed).line.ret = 0) :
    webChild result writes sent st feed = some ⟨sent, none⟩ := by
  unfold webChild
  dsimp only
  rw [h, turn_closed]

theorem webChild_stopped {why : Stop}
    (h : turn (readline isNl MAXLINE st feed).line.ret (readline isNl MAXLINE st feed).line.stored =
      .stopped why) : webChild result writes sent st feed = some ⟨sent, some why⟩ := by
  unfold webChild
  dsimp only
  rw [h]

/-- `Writen` has failed -/
theorem webChild_failed {w : Written UInt8}
    (h : turn (readline isNl MAXLINE st feed).line.ret (readline isNl MAXLINE st feed).line.stored =
      .writen n) (hw : writen result.byte n (result.writes n ws) = some w) (hret : w.ret ≠ n) :
    webChild result (ws :: writes) sent st feed =
      some ⟨sent ++ w.out, some (.errSys "writen error")⟩ := by
  rw [webChild]
  dsimp only
  rw [h]
  dsimp only
  rw [hw]
  dsimp only
  rw [if_pos hret]

theorem webChild_writen
    (h : turn (readline isNl MAXLINE st feed).line.ret (readline isNl MAXLINE st feed).line.stored =
      .writen n) (hw : Takes n (result.writes n ws)) : webChild result (ws :: writes) sent st feed =
      webChild result writes (sent ++ memory result.byte 0 n) (readline isNl MAXLINE st feed).st
        (readline isNl MAXLINE st feed).feed := by
  rw [webChild]
  dsimp only
  rw [h]
  dsimp only
  rw [writen_takes hw]
  dsimp only
  rw [if_neg (fun hne => hne rfl)]

/-- the answers end before the loop -/
theorem webChild_nil
    (h : turn (readline isNl MAXLINE st feed).line.ret (readline isNl MAXLINE st feed).line.stored =
      .writen n) : webChild result [] sent st feed = none := by
  unfold webChild
  dsimp only
  rw [h]

end Unp.WebChild
