import NetworkProgram.Readline.Impl
import NetworkProgram.Writen

/-!
# `readline` delivers what is pending

`pending s feed`: the bytes left in the buffer, then the bytes `read` will still deliver.  Where no
`read` fails, a call stores a prefix of what is pending and leaves the rest pending:

* `myRead_spec`     one byte of it, or none at EOF;
* `readline_spec`   a whole call;
* `readline_first`  a call with room for a byte begins with the byte at `read_ptr`.
-/

namespace Unp

variable {β : Type}

def Feed.bytes (feed : Feed β) : List β := feed.flatMap ReadRes.bytes

def Feed.NoErr (feed : Feed β) : Prop := ∀ r ∈ feed, 0 ≤ r.ret

def pending (s : Statics β) (feed : Feed β) : List β := s.window ++ feed.bytes

theorem Feed.bytes_cons (r : ReadRes β MAXLINE) (feed : Feed β) :
    Feed.bytes (r :: feed) = r.bytes ++ feed.bytes := List.flatMap_cons

/-! ## the window -/

theorem Statics.window_nil {s : Statics β} (h : s.readCnt = 0) : s.window = [] := by
  rw [Statics.window, h]
  rfl

theorem Statics.window_cons {s : Statics β} (h : 0 < s.readCnt) :
    s.window = s.readBuf s.readPtr ::
      Statics.window { s with readCnt := s.readCnt - 1, readPtr := s.readPtr + 1 } := by
  obtain ⟨k, hk⟩ : ∃ k, s.readCnt = k + 1 := ⟨s.readCnt - 1, by omega⟩
  unfold Statics.window
  rw [hk, List.range_succ_eq_map, List.map_cons, List.map_map]
  apply congrArg
  apply List.map_congr_left
  intro i _
  show s.readBuf (s.readPtr + (i + 1)) = s.readBuf (s.readPtr + 1 + i)
  rw [Nat.add_comm i 1, Nat.add_assoc]

theorem Statics.readCnt_of_window {s : Statics β} (h : s.window = []) : s.readCnt = 0 := by
  by_contra hne
  rw [s.window_cons (Nat.pos_of_ne_zero hne)] at h
  cases h

/-- a filled buffer holds what `read` delivered -/
theorem window_fill (bs : List β) (mem : Nat → β) :
    Statics.window ⟨bs.length, 0, fun k => bs.getD k (mem k)⟩ = bs := memory_getD bs mem

/-! ## my_read -/

theorem fetch_spec (s : Statics β) (feed : Feed β) (h : 0 < s.readCnt) :
    s.readBuf s.readPtr :: pending (fetch s feed).st feed = pending s feed := by
  unfold pending
  rw [s.window_cons h]
  rfl

/-- what a call of `my_read` does to the pending bytes -/
structure MyRead.Spec (before : List β) (r : MyRead β) : Prop where
  noErr : r.feed.NoErr
  byte : ∀ c, r.rc = .byte c → c :: pending r.st r.feed = before
  eof : r.rc = .eof → pending r.st r.feed = before
  fail : r.rc ≠ .fail

theorem again_spec {s : Statics β} {feed : Feed β} (hf : feed.NoErr) :
    (again s feed).Spec feed.bytes := by
  cases feed with
  | nil => exact ⟨hf, (fun c h => by cases h), (fun _ => rfl), (fun h => by cases h)⟩
  | cons r feed =>
    have hr : 0 ≤ r.ret := hf r (List.mem_cons_self ..)
    have hrest : Feed.NoErr feed := fun r' h => hf r' (List.mem_cons_of_mem r h)
    unfold again
    dsimp only
    rw [if_neg (Nat.not_lt_zero _), Feed.bytes_cons]
    cases r with
    | data bs pos le =>
      rw [sizeT_data, if_neg (by omega)]
      have hspec := fetch_spec ⟨bs.length, 0, fun k => bs.getD k (s.readBuf k)⟩ feed pos
      rw [pending, pending, window_fill] at hspec
      refine ⟨hrest, ?_, (fun h => by cases h), (fun h => by cases h)⟩
      intro c h
      cases h
      exact hspec
    | eof => exact ⟨hrest, (fun c h => by cases h), (fun _ => rfl), (fun h => by cases h)⟩
    | err e => exact absurd (show (0 : Int) ≤ -1 from hr) (by decide)

theorem myRead_spec {s : Statics β} {feed : Feed β} (hf : feed.NoErr) :
    (myRead s feed).Spec (pending s feed) := by
  unfold myRead
  by_cases h : s.readCnt ≤ 0
  · rw [if_pos h, pending, s.window_nil (by omega)]
    exact again_spec hf
  · rw [if_neg h]
    refine ⟨hf, ?_, (fun h => by cases h), (fun h => by cases h)⟩
    intro c hc
    cases hc
    exact fetch_spec s feed (by omega)

theorem myRead_buffered {s : Statics β} {feed : Feed β} (h : 0 < s.readCnt) :
    myRead s feed = fetch s feed := by
  unfold myRead
  rw [if_neg (by omega)]

/-! ## readline -/

variable (isNl : β → Bool)

/-- the loop stores a prefix of what is pending, by induction on the turns left -/
theorem readlineFrom_spec (room n : Nat) (acc : List β) (s : Statics β) (feed : Feed β)
    (hf : feed.NoErr) :
    let r := readlineFrom isNl room n acc s feed
    r.feed.NoErr ∧
      ∃ out, r.line.stored = acc ++ out ∧ out ++ pending r.st r.feed = pending s feed := by
  induction room generalizing n acc s feed with
  | zero => exact ⟨hf, [], (List.append_nil acc).symm, rfl⟩
  | succ room ih =>
    have hspec := myRead_spec (s := s) hf
    unfold readlineFrom
    dsimp only
    split
    · rename_i c hc
      have hbyte := hspec.byte c hc
      split
      · exact ⟨hspec.noErr, [c], rfl, hbyte⟩
      · obtain ⟨hne, out, hst, hout⟩ := ih (n + 1) (acc ++ [c]) _ _ hspec.noErr
        refine ⟨hne, c :: out, ?_, ?_⟩
        · rw [hst, List.append_assoc]
          rfl
        · rw [← hbyte, ← hout]
          rfl
    · rename_i hc
      exact ⟨hspec.noErr, [], (List.append_nil acc).symm, hspec.eof hc⟩
    · rename_i hc
      exact absurd hc hspec.fail

/-- **A call of `readline` stores the next pending bytes.** -/
theorem readline_spec (maxlen : Nat) (s : Statics β) (feed : Feed β) (hf : feed.NoErr) :
    let r := readline isNl maxlen s feed
    r.feed.NoErr ∧ r.line.stored ++ pending r.st r.feed = pending s feed := by
  obtain ⟨hne, out, hst, hout⟩ := readlineFrom_spec isNl (maxlen - 1) 1 [] s feed hf
  refine ⟨hne, ?_⟩
  unfold readline
  rw [hst]
  exact hout

/-- no room for a byte: nothing is touched -/
theorem readline_idle {maxlen : Nat} (h : maxlen ≤ 1) (s : Statics β) (feed : Feed β) :
    readline isNl maxlen s feed = ⟨⟨1, [], true⟩, s, feed⟩ := by
  unfold readline
  rw [show maxlen - 1 = 0 by omega]
  rfl

/-- room and a byte in the buffer: the call begins with that byte -/
theorem readline_first {maxlen : Nat} (h : 2 ≤ maxlen) {s : Statics β} (hs : 0 < s.readCnt)
    {feed : Feed β} (hf : feed.NoErr) :
    ∃ rest, (readline isNl maxlen s feed).line.stored = s.readBuf s.readPtr :: rest := by
  obtain ⟨room, hroom⟩ : ∃ room, maxlen - 1 = room + 1 := ⟨maxlen - 2, by omega⟩
  unfold readline
  rw [hroom]
  unfold readlineFrom
  rw [myRead_buffered hs]
  show ∃ rest, (if isNl (s.readBuf s.readPtr) then _ else _ : Readline β).line.stored = _
  split
  · exact ⟨[], rfl⟩
  · obtain ⟨_, out, hst, _⟩ := readlineFrom_spec isNl room 2
      ([] ++ [s.readBuf s.readPtr]) (fetch s feed).st (fetch s feed).feed hf
    exact ⟨out, hst⟩

end Unp
