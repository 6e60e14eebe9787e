import Mathlib.Logic.Function.Basic
import NetworkProgram.Lib.Relay
import NetworkProgram.Lib.Run
import NetworkProgram.Readline.Conserve

/-!
# One buffer for all descriptors

The workers of the threaded servers each call `readline` on their own connection, and all of them
share the statics of `readline.cpp`.  A run is any sequence of complete calls; every byte carries
the descriptor it arrived on.

* `Isolated`       every descriptor got a prefix of its own stream and nothing else;
* `OwnByte`        the call does not begin with a byte that another descriptor left in the buffer;
* `isolated_iff`   a run is isolated exactly when all its calls are `OwnByte`.
-/

namespace Unp.Threads
open Trans

structure Arrived where
  src : Nat
  val : UInt8
  deriving DecidableEq, Repr

/-- `c == '\n'` -/
def Arrived.isNl (b : Arrived) : Bool := b.val == 10

/-- what one `read` of a connection delivers -/
abbrev Chunk := { bs : List UInt8 // 0 < bs.length ∧ bs.length ≤ MAXLINE }

def Chunk.arrive (fd : Nat) (c : Chunk) : ReadRes Arrived MAXLINE :=
  .data (c.val.map (Arrived.mk fd)) (by rw [List.length_map]; exact c.2.1)
    (by rw [List.length_map]; exact c.2.2)

structure Call where
  fd : Nat
  maxlen : Nat

/-- the process: the statics, what each descriptor will still deliver, the calls made so far -/
structure Process where
  st : Statics Arrived
  feed : Nat → Feed Arrived
  log : List (Nat × Line Arrived)

def Process.call (p : Process) (c : Call) : Process :=
  let r := readline Arrived.isNl c.maxlen p.st (p.feed c.fd)
  { st := r.st, feed := Function.update p.feed c.fd r.feed, log := p.log ++ [(c.fd, r.line)] }

def start (mem : Nat → Arrived) (chunks : Nat → List Chunk) : Process :=
  { st := ⟨0, 0, mem⟩, feed := fun fd => (chunks fd).map (Chunk.arrive fd), log := [] }

/-- the input stream of a descriptor -/
def stream (chunks : List Chunk) : List UInt8 := chunks.flatMap Subtype.val

/-- the bytes stored by the calls made on `fd`, in call order -/
def Process.got (p : Process) (fd : Nat) : List Arrived :=
  p.log.flatMap (fun l => if l.1 = fd then l.2.stored else [])

def Isolated (chunks : Nat → List Chunk) (p : Process) : Prop :=
  ∀ fd, (p.got fd).map Arrived.val <+: stream (chunks fd) ∧ ∀ b ∈ p.got fd, b.src = fd

/-- the call has no room for a byte, or the buffer is empty, or the byte at `read_ptr` arrived on
the descriptor of the call -/
def OwnByte (p : Process) (c : Call) : Prop :=
  c.maxlen ≤ 1 ∨ p.st.readCnt = 0 ∨ (p.st.readBuf p.st.readPtr).src = c.fd

/-! ## one call -/

variable {chunks : Nat → List Chunk} {p : Process} {c : Call} {fd : Nat}

theorem got_call : (p.call c).got fd =
    p.got fd ++ if c.fd = fd then
      (readline Arrived.isNl c.maxlen p.st (p.feed c.fd)).line.stored else [] := by
  unfold Process.got Process.call
  rw [List.flatMap_append, List.flatMap_singleton]

theorem feed_call_ne (h : fd ≠ c.fd) : (p.call c).feed fd = p.feed fd :=
  Function.update_of_ne h _ _

theorem feed_call_self :
    (p.call c).feed c.fd = (readline Arrived.isNl c.maxlen p.st (p.feed c.fd)).feed :=
  Function.update_self ..

def Process.NoErr (p : Process) : Prop := ∀ fd, (p.feed fd).NoErr

theorem noErr_start (mem : Nat → Arrived) : (start mem chunks).NoErr := by
  intro fd r hr
  obtain ⟨c, _, rfl⟩ := List.mem_map.mp hr
  exact Int.natCast_nonneg _

theorem noErr_call (h : p.NoErr) : (p.call c).NoErr := by
  intro fd
  by_cases hfd : fd = c.fd
  · subst hfd
    rw [feed_call_self]
    exact (readline_spec Arrived.isNl c.maxlen p.st (p.feed c.fd) (h c.fd)).1
  · rw [feed_call_ne hfd]
    exact h fd

/-! ## calls that begin with their own bytes -/

/-- all bytes in the buffer are of one descriptor, and what `fd` got, what the buffer holds of it
and what it will deliver are its stream -/
structure Shared (chunks : Nat → List Chunk) (p : Process) : Prop where
  noErr : p.NoErr
  owner : ∃ o, ∀ b ∈ p.st.window, b.src = o
  conserve : ∀ fd, p.got fd ++ (p.st.window.filter (fun b => b.src = fd) ++ (p.feed fd).bytes)
    = (stream (chunks fd)).map (Arrived.mk fd)

theorem bytes_arrive (fd : Nat) (cs : List Chunk) :
    Feed.bytes (cs.map (Chunk.arrive fd)) = (stream cs).map (Arrived.mk fd) := by
  unfold Feed.bytes stream
  rw [List.flatMap_map, List.map_flatMap]
  rfl

theorem shared_start (mem : Nat → Arrived) : Shared chunks (start mem chunks) where
  noErr := noErr_start mem
  owner := ⟨0, fun _ hb => absurd hb List.not_mem_nil⟩
  conserve := fun fd => bytes_arrive fd (chunks fd)

/-- what `fd` will still deliver arrives on `fd` -/
theorem Shared.src_bytes (h : Shared chunks p) {b : Arrived} (hb : b ∈ (p.feed fd).bytes) :
    b.src = fd := by
  have hmem : b ∈ (stream (chunks fd)).map (Arrived.mk fd) := by
    rw [← h.conserve fd]
    exact List.mem_append_right _ (List.mem_append_right _ hb)
  obtain ⟨v, _, rfl⟩ := List.mem_map.mp hmem
  rfl

/-- a call that takes its first byte from the buffer only from its own descriptor finds no other
descriptor's byte there -/
theorem Shared.own_window (h : Shared chunks p)
    (hc : p.st.readCnt = 0 ∨ (p.st.readBuf p.st.readPtr).src = c.fd) :
    ∀ b ∈ p.st.window, b.src = c.fd := by
  intro b hb
  have hpos : 0 < p.st.readCnt := by
    rcases Nat.eq_zero_or_pos p.st.readCnt with h0 | h0
    · rw [p.st.window_nil h0] at hb
      exact absurd hb List.not_mem_nil
    · exact h0
  obtain ⟨o, ho⟩ := h.owner
  have hfst : p.st.readBuf p.st.readPtr ∈ p.st.window := by
    rw [p.st.window_cons hpos]
    exact List.mem_cons_self ..
  rcases hc with h0 | hsrc
  · omega
  · rw [ho b hb, ← ho _ hfst, hsrc]

theorem filter_own {l : List Arrived} (h : ∀ b ∈ l, b.src = fd) :
    l.filter (fun b => b.src = fd) = l :=
  List.filter_eq_self.mpr (fun b hb => decide_eq_true (h b hb))

theorem filter_other {l : List Arrived} {fd' : Nat} (h : ∀ b ∈ l, b.src = fd') (hne : fd ≠ fd') :
    l.filter (fun b => b.src = fd) = [] :=
  List.filter_eq_nil_iff.mpr (fun b hb => by
    rw [h b hb, decide_eq_true_eq]
    exact hne.symm)

theorem Shared.call (h : Shared chunks p) (hc : OwnByte p c) : Shared chunks (p.call c) := by
  have hspec := (readline_spec Arrived.isNl c.maxlen p.st (p.feed c.fd) (h.noErr c.fd)).2
  rcases hc with hidle | hown
  · have hcall : (p.call c).st = p.st ∧ (p.call c).feed = p.feed := by
      unfold Process.call
      rw [readline_idle _ hidle]
      exact ⟨rfl, Function.update_eq_self _ _⟩
    have hgot : ∀ fd, (p.call c).got fd = p.got fd := fun fd => by
      rw [got_call, readline_idle _ hidle, ite_self, List.append_nil]
    refine ⟨noErr_call h.noErr, ?_, ?_⟩
    · rw [hcall.1]
      exact h.owner
    · intro fd
      rw [hgot, hcall.1, hcall.2]
      exact h.conserve fd
  · have hold := h.own_window hown
    have hnew : ∀ b ∈ (p.call c).st.window, b.src = c.fd := by
      intro b hb
      have hmem : b ∈ pending p.st (p.feed c.fd) := by
        rw [← hspec]
        exact List.mem_append_right _ (List.mem_append_left _ hb)
      rcases List.mem_append.mp hmem with hb | hb
      · exact hold b hb
      · exact h.src_bytes hb
    refine ⟨noErr_call h.noErr, ⟨c.fd, hnew⟩, ?_⟩
    intro fd
    have hcons := h.conserve fd
    by_cases hfd : fd = c.fd
    · subst hfd
      rw [filter_own hold] at hcons
      rw [got_call, if_pos rfl, filter_own hnew, feed_call_self, List.append_assoc, ← hcons]
      exact congrArg _ hspec
    · rw [filter_other hold hfd] at hcons
      rw [got_call, if_neg (Ne.symm hfd), filter_other hnew hfd, feed_call_ne hfd,
        List.append_nil]
      exact hcons

theorem Shared.isolated (h : Shared chunks p) : Isolated chunks p := by
  intro fd
  -- the calls on `fd` are a relay of its stream
  have hpre : p.got fd <+: (stream (chunks fd)).map (Arrived.mk fd) :=
    Relay.given_prefix ⟨_, p.got fd, _, h.conserve fd⟩
  refine ⟨?_, ?_⟩
  · have hval := hpre.map Arrived.val
    rw [List.map_map] at hval
    have hid : Arrived.val ∘ Arrived.mk fd = id := rfl
    rw [hid, List.map_id] at hval
    exact hval
  · intro b hb
    obtain ⟨v, _, rfl⟩ := List.mem_map.mp (hpre.subset hb)
    rfl

/-! ## the other calls -/

theorem Isolated.before (h : Isolated chunks (p.call c)) : Isolated chunks p := by
  intro fd
  obtain ⟨hpre, hsrc⟩ := h fd
  rw [got_call] at hpre hsrc
  refine ⟨?_, fun b hb => hsrc b (List.mem_append_left _ hb)⟩
  rw [List.map_append] at hpre
  exact (List.prefix_append _ _).trans hpre

/-- a call that is not `OwnByte` stores a byte of another descriptor -/
theorem Isolated.ownByte (hne : p.NoErr) (h : Isolated chunks (p.call c)) : OwnByte p c := by
  by_cases hidle : c.maxlen ≤ 1
  · exact Or.inl hidle
  rcases Nat.eq_zero_or_pos p.st.readCnt with h0 | hpos
  · exact Or.inr (Or.inl h0)
  obtain ⟨rest, hst⟩ := readline_first Arrived.isNl (show 2 ≤ c.maxlen by omega) hpos
    (hne c.fd)
  refine Or.inr (Or.inr ((h c.fd).2 _ ?_))
  rw [got_call, if_pos rfl, hst]
  exact List.mem_append_right _ (List.mem_cons_self ..)

/-- **Isolation.**  A run of calls gives every descriptor its own bytes exactly when every call
begins with a byte of its own descriptor (or stores none, or finds the buffer empty). -/
theorem isolated_iff (mem : Nat → Arrived) (chunks : Nat → List Chunk) (calls : List Call)
    (p : Process) (h : Run (Fn Process.call) (start mem chunks) calls p) :
    Isolated chunks p ↔ Run (When OwnByte (Fn Process.call)) (start mem chunks) calls p := by
  constructor
  · intro hiso
    induction h with
    | nil => exact Run.nil
    | @snoc _ q c p' hr hc ih =>
      have hcall : q.call c = p' := hc
      subst hcall
      have hne : q.NoErr := hr.inv (noErr_start mem) (fun t e u ht (hs : t.call e = u) =>
        hs ▸ noErr_call ht)
      exact (ih hiso.before).snoc ⟨hiso.ownByte hne, hc⟩
  · intro hw
    have hsh : Shared chunks p := hw.inv (shared_start mem)
      (fun t e u ht (hs : OwnByte t e ∧ t.call e = u) => hs.2 ▸ ht.call hs.1)
    exact hsh.isolated

/-! ## two connections -/

/-- descriptor 4 has sent `"a\nb\n"` in one segment, descriptor 5 nothing -/
def twoLines (fd : Nat) : List Chunk :=
  if fd = 4 then [⟨[97, 10, 98, 10], by decide, by decide⟩] else []

/-- the line read on 5 is the second line of 4 -/
theorem not_isolated :
    ¬ ∀ (mem : Nat → Arrived) (chunks : Nat → List Chunk) (calls : List Call) (p : Process),
      Run (Fn Process.call) (start mem chunks) calls p → Isolated chunks p := by
  intro h
  have hiso := h (fun _ => ⟨0, 0⟩) twoLines [⟨4, MAXLINE⟩, ⟨5, MAXLINE⟩] _ (Run.fn_iff.mpr rfl)
  have hmem : Arrived.mk 4 98 ∈ Process.got ([⟨4, MAXLINE⟩, ⟨5, MAXLINE⟩].foldl Process.call
      (start (fun _ => ⟨0, 0⟩) twoLines)) 5 := by decide
  exact absurd ((hiso 5).2 _ hmem) (by decide)

/-- one line a segment on each connection -/
def oneLine (fd : Nat) : List Chunk :=
  [⟨[UInt8.ofNat (97 + fd), 10], Nat.succ_pos 1, show 2 ≤ 4096 by decide⟩]

theorem isolated_iff_turns :
    Isolated oneLine ([⟨4, MAXLINE⟩, ⟨5, MAXLINE⟩].foldl Process.call
      (start (fun _ => ⟨0, 0⟩) oneLine)) :=
  (isolated_iff _ _ _ _ (Run.fn_iff.mpr rfl)).mpr
    ((Run.nil.snoc ⟨Or.inr (Or.inl rfl), rfl⟩).snoc ⟨Or.inr (Or.inl rfl), rfl⟩)

end Unp.Threads
