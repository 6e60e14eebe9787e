import NetworkProgram.Lib.Run
import NetworkProgram.StrCli.Buffer
import NetworkProgram.StrCli.Effect

/-!
# The loop of `str_cli` loses, duplicates and reorders nothing

`LoopInv` holds at every loop head and after every effect of an iteration (`LoopInv.effs`): both
buffers are relays between the bytes read and the bytes written, and every read has room.
`loop_relay` reads it off at the loop heads of a run, together with the sets for `Select`.
-/

namespace Unp.StrCli

/-! ## the trace one call longer -/

theorem bytesRead_snoc (d : Desc) (tr : List Sys) (e : Sys) :
    bytesRead d (tr ++ [e]) = bytesRead d tr ++ e.bytesRead d := by
  simp [bytesRead]

theorem bytesWritten_snoc (d : Desc) (tr : List Sys) (e : Sys) :
    bytesWritten d (tr ++ [e]) = bytesWritten d tr ++ e.bytesWritten d := by
  simp [bytesWritten]

/-- calls that move no bytes -/
def Sys.still (e : Sys) : Prop := ∀ d, e.bytesRead d = [] ∧ e.bytesWritten d = []

theorem still_select (r w : FdSet) : (Sys.select r w).still := fun _ => ⟨rfl, rfl⟩
theorem still_shutdown : Sys.shutdown.still := fun _ => ⟨rfl, rfl⟩

theorem still_readErr (d : Desc) (len : Nat) (e : Errno) : (Sys.read d len (.err e)).still := by
  intro d'
  refine ⟨?_, rfl⟩
  show (if d = d' then [] else []) = _
  split <;> rfl

theorem still_readEof (d : Desc) (len : Nat) : (Sys.read d len .eof).still := by
  intro d'
  refine ⟨?_, rfl⟩
  show (if d = d' then [] else []) = _
  split <;> rfl

theorem still_writeErr (d : Desc) (bs : List UInt8) (e : Errno) :
    (Sys.write d bs (.err e)).still := by
  intro d'
  refine ⟨rfl, ?_⟩
  show (if d = d' then bs.take 0 else []) = _
  split <;> simp

theorem bytesRead_still (d : Desc) (tr : List Sys) {e : Sys} (h : e.still) :
    bytesRead d (tr ++ [e]) = bytesRead d tr := by
  rw [bytesRead_snoc, (h d).1, List.append_nil]

theorem bytesWritten_still (d : Desc) (tr : List Sys) {e : Sys} (h : e.still) :
    bytesWritten d (tr ++ [e]) = bytesWritten d tr := by
  rw [bytesWritten_snoc, (h d).2, List.append_nil]

theorem bytesRead_data (d d' : Desc) (tr : List Sys) (len : Nat) (bs : List UInt8)
    (pos : 0 < bs.length) (le : bs.length ≤ len) :
    bytesRead d (tr ++ [.read d' len (.data bs pos le)])
      = bytesRead d tr ++ if d' = d then bs else [] := bytesRead_snoc d tr _

theorem bytesWritten_wrote (d d' : Desc) (tr : List Sys) (bs : List UInt8) (k : Nat)
    (le : k ≤ bs.length) :
    bytesWritten d (tr ++ [.write d' bs (.wrote k le)])
      = bytesWritten d tr ++ if d' = d then bs.take k else [] := bytesWritten_snoc d tr _

theorem bytesWritten_read (d d' : Desc) (tr : List Sys) (len : Nat) (got : ReadRes UInt8 len) :
    bytesWritten d (tr ++ [.read d' len got]) = bytesWritten d tr := by
  rw [bytesWritten_snoc]
  exact List.append_nil _

theorem bytesRead_write (d d' : Desc) (tr : List Sys) (bs : List UInt8)
    (got : WriteRes bs.length) : bytesRead d (tr ++ [.write d' bs got]) = bytesRead d tr := by
  rw [bytesRead_snoc]
  exact List.append_nil _

/-! ## the invariant -/

/-- every read of the trace had room -/
def ReadsHaveRoom (tr : List Sys) : Prop := ∀ d len got, Sys.read d len got ∈ tr → 0 < len

theorem ReadsHaveRoom.snoc {tr : List Sys} (h : ReadsHaveRoom tr) {e : Sys}
    (he : ∀ d len got, e = .read d len got → 0 < len) : ReadsHaveRoom (tr ++ [e]) := by
  intro d len got hmem
  rcases List.mem_append.mp hmem with hm | hm
  · exact h d len got hm
  · exact he d len got (List.mem_singleton.mp hm).symm

structure LoopInv (s : St) : Prop where
  toOk : s.toBuf.Ok
  frOk : s.frBuf.Ok
  toRelay : s.toBuf.Relays (bytesRead .stdin s.trace) (bytesWritten .sock s.trace)
  frRelay : s.frBuf.Relays (bytesRead .sock s.trace) (bytesWritten .stdout s.trace)
  room : ReadsHaveRoom s.trace

theorem LoopInv.init (toMem frMem : Nat → UInt8) : LoopInv (init toMem frMem) where
  toOk := ⟨Nat.le_refl _, Nat.zero_le _, fun _ => rfl⟩
  frOk := ⟨Nat.le_refl _, Nat.zero_le _, fun _ => rfl⟩
  toRelay := ⟨Relay.empty, rfl, rfl, rfl⟩
  frRelay := ⟨Relay.empty, rfl, rfl, rfl⟩
  room := fun _ _ _ h => absurd h List.not_mem_nil

/-- a call that moves no bytes keeps the invariant -/
theorem LoopInv.log {s : St} (h : LoopInv s) {e : Sys} (hs : e.still)
    (he : ∀ d len got, e = .read d len got → 0 < len) : LoopInv (s.log e) where
  toOk := h.toOk
  frOk := h.frOk
  toRelay := by
    show s.toBuf.Relays (bytesRead .stdin (s.trace ++ [e])) (bytesWritten .sock (s.trace ++ [e]))
    rw [bytesRead_still _ _ hs, bytesWritten_still _ _ hs]
    exact h.toRelay
  frRelay := by
    show s.frBuf.Relays (bytesRead .sock (s.trace ++ [e])) (bytesWritten .stdout (s.trace ++ [e]))
    rw [bytesRead_still _ _ hs, bytesWritten_still _ _ hs]
    exact h.frRelay
  room := h.room.snoc he

/-- only `toBuf`, `frBuf` and the trace matter to the invariant -/
theorem LoopInv.eof {s : St} (h : LoopInv s) (b : Bool) : LoopInv { s with stdineof := b } :=
  ⟨h.toOk, h.frOk, h.toRelay, h.frRelay, h.room⟩

theorem LoopInv.stdinData {s : St} (h : LoopInv s) (bs : List UInt8) (pos : 0 < bs.length)
    (le : bs.length ≤ MAXLINE - s.toBuf.iptr) :
    LoopInv { s.log (.read .stdin (MAXLINE - s.toBuf.iptr) (.data bs pos le)) with
      toBuf := s.toBuf.fill bs } where
  toOk := h.toOk.fill pos le
  frOk := h.frOk
  toRelay := by
    show (s.toBuf.fill bs).Relays (bytesRead .stdin (s.trace ++ [_]))
      (bytesWritten .sock (s.trace ++ [_]))
    rw [bytesRead_data, if_pos rfl, bytesWritten_read]
    exact h.toRelay.fill h.toOk.le bs
  frRelay := by
    show s.frBuf.Relays (bytesRead .sock (s.trace ++ [_])) (bytesWritten .stdout (s.trace ++ [_]))
    rw [bytesRead_data, if_neg (by decide), List.append_nil, bytesWritten_read]
    exact h.frRelay
  room := h.room.snoc (fun d len got heq => by cases heq; omega)

theorem LoopInv.sockData {s : St} (h : LoopInv s) (bs : List UInt8) (pos : 0 < bs.length)
    (le : bs.length ≤ MAXLINE - s.frBuf.iptr) :
    LoopInv { s.log (.read .sock (MAXLINE - s.frBuf.iptr) (.data bs pos le)) with
      frBuf := s.frBuf.fill bs } where
  toOk := h.toOk
  frOk := h.frOk.fill pos le
  toRelay := by
    show s.toBuf.Relays (bytesRead .stdin (s.trace ++ [_])) (bytesWritten .sock (s.trace ++ [_]))
    rw [bytesRead_data, if_neg (by decide), List.append_nil, bytesWritten_read]
    exact h.toRelay
  frRelay := by
    show (s.frBuf.fill bs).Relays (bytesRead .sock (s.trace ++ [_]))
      (bytesWritten .stdout (s.trace ++ [_]))
    rw [bytesRead_data, if_pos rfl, bytesWritten_read]
    exact h.frRelay.fill h.frOk.le bs
  room := h.room.snoc (fun d len got heq => by cases heq; omega)

theorem LoopInv.stdoutWrote {s : St} (h : LoopInv s) (k : Nat) (le : k ≤ s.frBuf.window.length) :
    LoopInv { s.log (.write .stdout s.frBuf.window (.wrote k le)) with
      frBuf := s.frBuf.drain k } where
  toOk := h.toOk
  frOk := h.frOk.drain le
  toRelay := by
    show s.toBuf.Relays (bytesRead .stdin (s.trace ++ [_])) (bytesWritten .sock (s.trace ++ [_]))
    rw [bytesWritten_wrote, if_neg (by decide), List.append_nil, bytesRead_write]
    exact h.toRelay
  frRelay := by
    show (s.frBuf.drain k).Relays (bytesRead .sock (s.trace ++ [_]))
      (bytesWritten .stdout (s.trace ++ [_]))
    rw [bytesWritten_wrote, if_pos rfl, bytesRead_write]
    exact h.frRelay.drain h.frOk.le k le
  room := h.room.snoc (fun d len got heq => by cases heq)

theorem LoopInv.sockWrote {s : St} (h : LoopInv s) (k : Nat) (le : k ≤ s.toBuf.window.length) :
    LoopInv { s.log (.write .sock s.toBuf.window (.wrote k le)) with
      toBuf := s.toBuf.drain k } where
  toOk := h.toOk.drain le
  frOk := h.frOk
  toRelay := by
    show (s.toBuf.drain k).Relays (bytesRead .stdin (s.trace ++ [_]))
      (bytesWritten .sock (s.trace ++ [_]))
    rw [bytesWritten_wrote, if_pos rfl, bytesRead_write]
    exact h.toRelay.drain h.toOk.le k le
  frRelay := by
    show s.frBuf.Relays (bytesRead .sock (s.trace ++ [_])) (bytesWritten .stdout (s.trace ++ [_]))
    rw [bytesWritten_wrote, if_neg (by decide), List.append_nil, bytesRead_write]
    exact h.frRelay
  room := h.room.snoc (fun d len got heq => by cases heq)

/-- **Every effect keeps the invariant.** -/
theorem LoopInv.step {s s' : St} (h : LoopInv s) (he : Eff s s') : LoopInv s' := by
  have hshut : ∀ d len got, Sys.shutdown = .read d len got → 0 < len := fun _ _ _ h => by cases h
  cases he with
  | select => exact h.log (still_select _ _) (fun _ _ _ heq => by cases heq)
  | readErr d len e hlen => exact h.log (still_readErr d len e) (fun _ _ _ heq => by cases heq; exact hlen)
  | eofShut heof hlt hempty =>
    have h1 := (h.log (still_readEof .stdin (MAXLINE - s.toBuf.iptr))
      (fun _ _ _ heq => by cases heq; omega)).eof true
    exact h1.log still_shutdown hshut
  | eof heof hlt hne =>
    exact (h.log (still_readEof .stdin (MAXLINE - s.toBuf.iptr))
      (fun _ _ _ heq => by cases heq; omega)).eof true
  | stdinData heof bs pos le => exact h.stdinData bs pos le
  | sockEof hlt => exact h.log (still_readEof _ _) (fun _ _ _ heq => by cases heq; omega)
  | sockData bs pos le => exact h.sockData bs pos le
  | writeErr d bs e => exact h.log (still_writeErr d bs e) (fun _ _ _ heq => by cases heq)
  | stdoutWrote k le => exact h.stdoutWrote k le
  | sockShut k le hlt hall heof => exact (h.sockWrote k le).log still_shutdown hshut
  | sockWrote k le hlt hpart => exact h.sockWrote k le

theorem LoopInv.effs {s s' : St} (h : LoopInv s) (he : Effs s s') : LoopInv s' := by
  induction he with
  | refl => exact h
  | tail _ hb ih => exact ih.step hb

/-! ## the loop heads of a run -/

/-- the runs of the loop, from its first head to a later one -/
abbrev Heads (toMem frMem : Nat → UInt8) (ts : List Turn) (s : St) : Prop :=
  Trans.Run (Trans.Opt nextHead) (init toMem frMem) ts s

theorem LoopInv.head {toMem frMem : Nat → UInt8} {ts : List Turn} {s : St}
    (h : Heads toMem frMem ts s) : LoopInv s :=
  h.inv (LoopInv.init toMem frMem) (fun _ _ _ hi he => hi.effs (nextHead_eff he))

/-- the loop always waits for something -/
theorem LoopInv.waits {s : St} (h : LoopInv s) :
    ∃ d, readSet s d = true ∨ writeSet s d = true := by
  by_cases hfull : s.frBuf.iptr < MAXLINE
  · exact ⟨.sock, .inl (by rw [readSet_sock]; exact decide_eq_true hfull)⟩
  · refine ⟨.stdout, .inr ?_⟩
    rw [writeSet_stdout]
    have hne : s.frBuf.optr ≠ s.frBuf.iptr := by
      intro heq
      have hz := h.frOk.reset heq
      have hpos : 0 < MAXLINE := by decide
      omega
    exact decide_eq_true hne

/-- **At every loop head the two buffers hold exactly what has been read and not yet written, the
loop waits for something, and no read is issued without room.** -/
theorem loop_relay (toMem frMem : Nat → UInt8) (ts : List Turn) (s : St)
    (h : Heads toMem frMem ts s) :
    (s.toBuf.optr ≤ s.toBuf.iptr ∧ s.toBuf.iptr ≤ MAXLINE) ∧
    (s.frBuf.optr ≤ s.frBuf.iptr ∧ s.frBuf.iptr ≤ MAXLINE) ∧
    bytesWritten .sock s.trace ++ s.toBuf.window = bytesRead .stdin s.trace ∧
    bytesWritten .stdout s.trace ++ s.frBuf.window = bytesRead .sock s.trace ∧
    (∀ t d len got, Sys.read d len got ∈ (iter s t).st.trace → 0 < len) ∧
    (∃ d, readSet s d = true ∨ writeSet s d = true) ∧
    (s.toBuf.window ≠ [] → writeSet s .sock = true) ∧
    (s.frBuf.window ≠ [] → writeSet s .stdout = true) := by
  have hi := LoopInv.head h
  refine ⟨⟨hi.toOk.le, hi.toOk.bound⟩, ⟨hi.frOk.le, hi.frOk.bound⟩, hi.toRelay.conserve,
    hi.frRelay.conserve, fun t => (hi.effs (iter_eff s t)).room, hi.waits, fun hw => ?_, fun hw => ?_⟩
  · rw [writeSet_sock]
    exact decide_eq_true (fun heq => hw ((Buf.window_nil_iff hi.toOk).mpr heq))
  · rw [writeSet_stdout]
    exact decide_eq_true (fun heq => hw ((Buf.window_nil_iff hi.frOk).mpr heq))

/-- a kernel that has nothing to say: no descriptor ready -/
def Turn.idle : Turn where
  rready := FdSet.zero
  wready := FdSet.zero
  stdin := fun _ => .err EWOULDBLOCK
  sock := fun _ => .err EWOULDBLOCK
  stdoutW := fun _ => .err EWOULDBLOCK
  sockW := fun _ => .err EWOULDBLOCK

/-- the answer "one byte", where there is room for it -/
def oneByte (c : UInt8) (len : Nat) : ReadRes UInt8 len :=
  if h : 1 ≤ len then .data [c] Nat.one_pos h else .eof

/-- stdin delivers one byte; the socket does not take it yet -/
def Turn.stdinByte (c : UInt8) : Turn :=
  { Turn.idle with rready := FdSet.zero.set .stdin, stdin := oneByte c }

theorem loop_relay_one : ∃ s, Heads (fun _ => 0) (fun _ => 0) [.stdinByte 97] s ∧
    bytesRead .stdin s.trace = [97] ∧
    bytesWritten .sock s.trace ++ s.toBuf.window = bytesRead .stdin s.trace := by
  obtain ⟨s, hs⟩ : ∃ s, nextHead (init (fun _ => 0) (fun _ => 0)) (.stdinByte 97) = some s := ⟨_, rfl⟩
  have hrun : Heads (fun _ => 0) (fun _ => 0) [.stdinByte 97] s := Trans.Run.single hs
  refine ⟨s, hrun, ?_, (loop_relay _ _ _ s hrun).2.2.1⟩
  cases hs
  rfl

end Unp.StrCli
