import NetworkProgram.Lib.Run
import NetworkProgram.Readline.Buffered
import NetworkProgram.Readline.Shared
import NetworkProgram.SelectCli.Impl

/-!
# What waits in the buffer of `readline` at `Select`

`Quiet`: at `Select` the buffer holds no newline.  `OneLine`: behind the line that `Readline` is to
return, what it has to read for it holds no newline.

* `StrCliSelect.turn_window`, `HeartbeatCli.turn_window`   the buffer after one turn;
* `quiet_iff`   the runs that are quiet at every `Select`, for both programs.
-/

namespace Unp
open Trans Cut Threads

def Chunk.feed (c : Chunk) : ReadRes UInt8 MAXLINE := .data c.val c.2.1 c.2.2

/-- the server's bytes in the chunks in which `read` delivers them -/
def Feed.ofChunks (cs : List Chunk) : Feed UInt8 := cs.map Chunk.feed

theorem Feed.data_ofChunks (cs : List Chunk) : (Feed.ofChunks cs).Data := by
  intro r hr
  obtain ⟨c, _, rfl⟩ := List.mem_map.mp hr
  exact Int.natCast_pos.mpr c.2.1

/-- no newline comes behind the first piece of what `Readline` has to read -/
def OneLine (st : Statics UInt8) (feed : Feed UInt8) : Prop :=
  Unmarked isNl (cut isNl (MAXLINE - 1) (received isNl (MAXLINE - 1) st.window feed)).2

/-- nothing is pending: `Readline` reads nothing -/
theorem oneLine_of_end {st : Statics UInt8} {feed : Feed UInt8} (hf : feed.Data)
    (h : pending st feed = []) : OneLine st feed := by
  obtain ⟨hwin, hbytes⟩ := List.append_eq_nil_iff.mp h
  cases feed with
  | nil =>
    unfold OneLine
    rw [hwin]
    exact unmarked_nil
  | cons r feed =>
    obtain ⟨c, bs, pos, le, rfl, _⟩ := hf.cons
    cases hbytes

/-- what `Readline` leaves in the buffer, and when it returns 0 -/
theorem readline_select (st : Statics UInt8) {feed : Feed UInt8} (hf : feed.Data) :
    let r := readline isNl MAXLINE st feed
    r.st.window = (cut isNl (MAXLINE - 1) (received isNl (MAXLINE - 1) st.window feed)).2 ∧
      r.feed.Data ∧ 0 ≤ r.line.ret ∧ (r.line.ret = 0 ↔ pending st feed = []) := by
  obtain ⟨hnn, hret⟩ := readline_ret isNl (show 2 ≤ MAXLINE by decide) hf (s := st)
  exact ⟨readline_window isNl MAXLINE st feed hf, (readline_cut isNl MAXLINE st feed hf).2.2, hnn,
    hret⟩

/-! ## str_cli_select -/

namespace StrCliSelect

/-- the program goes on to another `Select` -/
def GoesOn (s : State) (e : Turn) : Prop := e.fp = true → s.fp ≠ [] ∧ e.written = true

def Calls (s : State) (e : Turn) : Prop := e.sock = true → GoesOn s e → OneLine s.st s.feed

def Quiet (_ : State) (_ : Turn) (t : State) : Prop := t.pc = .select → Unmarked isNl t.st.window

structure Inv (s : State) : Prop where
  data : s.feed.Data
  quiet : s.pc = .select → Unmarked isNl s.st.window

variable {s t : State} {e : Turn}

theorem Step.pc (h : Step s e t) : s.pc = .select := by
  cases h with
  | turn hpc _ => exact hpc

theorem Step.eq (h : Step s e t) : s.turn e = t := by
  cases h with
  | turn _ _ => rfl

theorem recv_st (hf : s.feed.Data) :
    s.recv.st.window = (cut isNl (MAXLINE - 1) (received isNl (MAXLINE - 1) s.st.window s.feed)).2 ∧
      s.recv.feed.Data ∧ s.recv.fp = s.fp ∧
      (s.pc = .select → (s.recv.pc = .select ↔ pending s.st s.feed ≠ [])) := by
  obtain ⟨hwin, hdata, hnn, hret⟩ := readline_select s.st hf
  unfold State.recv
  dsimp only
  rw [if_neg (by omega)]
  split
  · rename_i h
    exact ⟨hwin, hdata, rfl, fun _ => iff_of_false (fun hc => by cases hc) (fun hn => hn (hret.mp h))⟩
  · rename_i h
    exact ⟨hwin, hdata, rfl, fun hpc => iff_of_true hpc (fun hn => h (hret.mpr hn))⟩

theorem send_st (s : State) (written : Bool) :
    (s.send written).st = s.st ∧ (s.send written).feed = s.feed ∧
      (s.pc = .select → ((s.send written).pc = .select ↔ s.fp ≠ [] ∧ written = true)) := by
  unfold State.send
  by_cases h : s.fp = []
  · rw [h, fgets_nil]
    exact ⟨rfl, rfl, fun _ => iff_of_false (fun hc => by cases hc) (fun hn => hn.1 rfl)⟩
  · rw [fgets_of_ne_nil h]
    dsimp only
    cases written with
    | true => exact ⟨rfl, rfl, fun hpc => iff_of_true hpc ⟨h, rfl⟩⟩
    | false => exact ⟨rfl, rfl, fun _ => iff_of_false (fun hc => by cases hc) (fun hn => by cases hn.2)⟩

/-- one turn: what is in the buffer, and whether there is another `Select` -/
theorem turn_window (hf : s.feed.Data) (hpc : s.pc = .select) :
    (s.turn e).feed.Data ∧ ((s.turn e).pc = .select ↔
      (e.sock = true → pending s.st s.feed ≠ []) ∧ GoesOn s e) ∧
    (s.turn e).st.window = if e.sock then
      (cut isNl (MAXLINE - 1) (received isNl (MAXLINE - 1) s.st.window s.feed)).2
      else s.st.window := by
  obtain ⟨hwin, hdata, hfp, hrecv⟩ := recv_st hf
  -- the state between the two branches
  obtain ⟨u, hu⟩ : ∃ u, u = if e.sock then s.recv else s := ⟨_, rfl⟩
  have hmid : u.feed.Data ∧ u.fp = s.fp ∧
      (u.pc = .select ↔ (e.sock = true → pending s.st s.feed ≠ [])) ∧
      u.st.window = if e.sock then
        (cut isNl (MAXLINE - 1) (received isNl (MAXLINE - 1) s.st.window s.feed)).2
        else s.st.window := by
    rw [hu]
    cases e.sock with
    | true => exact ⟨hdata, hfp, (hrecv hpc).trans (by simp), hwin⟩
    | false => exact ⟨hf, rfl, iff_of_true hpc (fun hc => by cases hc), rfl⟩
  obtain ⟨hudata, hufp, hupc, huwin⟩ := hmid
  obtain ⟨hst, hfeed, hsend⟩ := send_st u e.written
  have hturn : s.turn e = if e.fp ∧ u.pc = .select then u.send e.written else u := by
    rw [hu]
    rfl
  rw [hturn, ← hupc, ← huwin]
  split
  · rename_i h
    refine ⟨hfeed ▸ hudata, ?_, by rw [hst]⟩
    rw [hsend h.2, hufp]
    exact ⟨fun hn => ⟨h.2, fun _ => hn⟩, fun hn => hn.2 h.1⟩
  · rename_i h
    refine ⟨hudata, ⟨fun hn => ⟨hn, fun hf => absurd ⟨hf, hn⟩ h⟩, fun hn => hn.1⟩, rfl⟩

theorem quiet_step (h : Inv s) (hs : Step s e t) : Quiet s e t ↔ Calls s e := by
  have hpc := hs.pc
  obtain rfl := hs.eq
  obtain ⟨_, hgo, hwin⟩ := turn_window (e := e) h.data hpc
  unfold Quiet Calls
  rw [hgo, hwin]
  cases e.sock with
  | true =>
    constructor
    · intro hq _ hon
      by_cases hp : pending s.st s.feed = []
      · exact oneLine_of_end h.data hp
      · exact hq ⟨fun _ => hp, hon⟩
    · intro hc hq
      exact hc rfl hq.2
  | false => exact iff_of_true (fun _ => h.quiet hpc) (fun hc => by cases hc)

theorem inv_step (h : Inv s) (hs : When Calls Step s e t) : Inv t := by
  obtain ⟨hc, hs⟩ := hs
  have hquiet := (quiet_step h hs).mpr hc
  obtain rfl := hs.eq
  exact ⟨(turn_window h.data hs.pc).1, hquiet⟩

theorem inv_start (fp : List UInt8) (mem : Nat → UInt8) (cs : List Chunk) :
    Inv (start fp mem (Feed.ofChunks cs)) := ⟨Feed.data_ofChunks cs, fun _ => unmarked_nil⟩

end StrCliSelect

/-! ## str_cli with a heartbeat -/

namespace HeartbeatCli

/-- the program calls `Readline`, and goes on to another `select` -/
def Calls (s : State) (e : Turn) : Prop :=
  match e.sel with
  | .ready sock fp =>
    sock = true → e.printed = true → (s.set.rsetFp = true → fp = true → s.fp ≠ [] → e.written = true) →
      OneLine s.st s.feed
  | .eintr => True
  | .err =>
    e.printed = true → (s.set.rsetFp = true → s.fp ≠ [] → e.written = true) → OneLine s.st s.feed

def Quiet (_ : State) (_ : Turn) (t : State) : Prop := t.pc = .select → Unmarked isNl t.st.window

structure Inv (s : State) : Prop where
  data : s.feed.Data
  quiet : s.pc = .select → Unmarked isNl s.st.window

variable {s t : State} {e : Turn}

theorem Step.pc (h : Step s e t) : s.pc = .select := by
  cases h with
  | turn hpc => exact hpc

theorem Step.eq (h : Step s e t) : s.turn e = t := by
  cases h with
  | turn _ => rfl

theorem recv_st (hf : s.feed.Data) (printed : Bool) :
    (s.recv printed).st.window =
        (cut isNl (MAXLINE - 1) (received isNl (MAXLINE - 1) s.st.window s.feed)).2 ∧
      (s.recv printed).feed.Data ∧ (s.recv printed).fp = s.fp ∧
      (s.recv printed).rsetFp = s.rsetFp ∧
      (s.pc = .select → ((s.recv printed).pc = .select ↔ pending s.st s.feed ≠ [] ∧ printed = true)) := by
  obtain ⟨hwin, hdata, hnn, hret⟩ := readline_select s.st hf
  unfold State.recv
  dsimp only
  rw [if_neg (by omega)]
  split
  · rename_i h
    have hno : ¬ (pending s.st s.feed ≠ [] ∧ printed = true) := fun hn => hn.1 (hret.mp h)
    cases s.stdineof
    · exact ⟨hwin, hdata, rfl, rfl, fun _ => iff_of_false (fun hc => by cases hc) hno⟩
    · exact ⟨hwin, hdata, rfl, rfl, fun _ => iff_of_false (fun hc => by cases hc) hno⟩
  · rename_i h
    cases printed with
    | true => exact ⟨hwin, hdata, rfl, rfl, fun hpc => iff_of_true hpc ⟨fun hn => h (hret.mpr hn), rfl⟩⟩
    | false =>
      exact ⟨hwin, hdata, rfl, rfl,
        fun _ => iff_of_false (fun hc => by cases hc) (fun hn => by cases hn.2)⟩

theorem send_st (s : State) (written : Bool) :
    (s.send written).st = s.st ∧ (s.send written).feed = s.feed ∧
      (s.pc = .select → ((s.send written).pc = .select ↔ (s.fp ≠ [] → written = true))) := by
  unfold State.send
  by_cases h : s.fp = []
  · rw [h, fgets_nil]
    exact ⟨rfl, rfl, fun hpc => iff_of_true hpc (fun hn => absurd rfl hn)⟩
  · rw [fgets_of_ne_nil h]
    dsimp only
    cases written with
    | true => exact ⟨rfl, rfl, fun hpc => iff_of_true hpc (fun _ => rfl)⟩
    | false =>
      exact ⟨rfl, rfl, fun _ => iff_of_false (fun hc => by cases hc) (fun hn => by cases hn h)⟩

/-- the two branches: what is in the buffer, and whether there is another `select` -/
theorem branches_window (hf : s.feed.Data) (hpc : s.pc = .select) :
    (s.branches e).feed.Data ∧ ((s.branches e).pc = .select ↔
      (s.rsetSock = true → pending s.st s.feed ≠ [] ∧ e.printed = true) ∧
        (s.rsetFp = true → s.fp ≠ [] → e.written = true)) ∧
    (s.branches e).st.window = if s.rsetSock then
      (cut isNl (MAXLINE - 1) (received isNl (MAXLINE - 1) s.st.window s.feed)).2
      else s.st.window := by
  obtain ⟨hwin, hdata, hfp, hrset, hrecv⟩ := recv_st hf e.printed
  obtain ⟨u, hu⟩ : ∃ u, u = if s.rsetSock then s.recv e.printed else s := ⟨_, rfl⟩
  have hmid : u.feed.Data ∧ u.fp = s.fp ∧ u.rsetFp = s.rsetFp ∧
      (u.pc = .select ↔ (s.rsetSock = true → pending s.st s.feed ≠ [] ∧ e.printed = true)) ∧
      u.st.window = if s.rsetSock then
        (cut isNl (MAXLINE - 1) (received isNl (MAXLINE - 1) s.st.window s.feed)).2
        else s.st.window := by
    rw [hu]
    cases s.rsetSock with
    | true => exact ⟨hdata, hfp, hrset, (hrecv hpc).trans (by simp), hwin⟩
    | false => exact ⟨hf, rfl, rfl, iff_of_true hpc (fun hc => by cases hc), rfl⟩
  obtain ⟨hudata, hufp, hurset, hupc, huwin⟩ := hmid
  obtain ⟨hst, hfeed, hsend⟩ := send_st u e.written
  have hbranches : s.branches e = if u.rsetFp ∧ u.pc = .select then u.send e.written else u := by
    rw [hu]
    rfl
  rw [hbranches, ← hupc, ← huwin]
  split
  · rename_i h
    refine ⟨hfeed ▸ hudata, ?_, by rw [hst]⟩
    rw [hsend h.2, hufp]
    exact ⟨fun hn => ⟨h.2, fun _ => hn⟩, fun hn => hn.2 (hurset ▸ h.1)⟩
  · rename_i h
    refine ⟨hudata, ⟨fun hn => ⟨hn, fun hr => absurd ⟨hurset.trans hr, hn⟩ h⟩, fun hn => hn.1⟩, rfl⟩

/-- the law for the two branches -/
theorem branches_quiet (hf : s.feed.Data) (hpc : s.pc = .select)
    (hq : Unmarked isNl s.st.window) :
    ((s.branches e).pc = .select → Unmarked isNl (s.branches e).st.window) ↔
      (s.rsetSock = true → e.printed = true → (s.rsetFp = true → s.fp ≠ [] → e.written = true) →
        OneLine s.st s.feed) := by
  obtain ⟨_, hgo, hwin⟩ := branches_window (e := e) hf hpc
  rw [hgo, hwin]
  cases s.rsetSock with
  | true =>
    constructor
    · intro hq _ hprinted hon
      by_cases hp : pending s.st s.feed = []
      · exact oneLine_of_end hf hp
      · exact hq ⟨fun _ => ⟨hp, hprinted⟩, hon⟩
    · intro hc hq
      exact hc rfl (hq.1 rfl).2 hq.2
  | false => exact iff_of_true (fun _ => hq) (fun hc => by cases hc)

theorem quiet_step (h : Inv s) (hs : Step s e t) : Quiet s e t ↔ Calls s e := by
  have hpc := hs.pc
  obtain rfl := hs.eq
  unfold Quiet Calls State.turn
  cases e.sel with
  | eintr => exact iff_of_true (fun _ => h.quiet hpc) trivial
  | err =>
    exact (branches_quiet (s := s.set) h.data hpc (h.quiet hpc)).trans ⟨fun hc => hc rfl, fun hc _ => hc⟩
  | ready sock fp =>
    refine (branches_quiet (s := { s.set with
      rsetSock := s.set.rsetSock && sock, rsetFp := s.set.rsetFp && fp }) h.data hpc (h.quiet hpc)).trans ?_
    show ((true && sock) = true → _ → ((s.set.rsetFp && fp) = true → _) → _) ↔ _
    rw [Bool.true_and, Bool.and_eq_true, and_imp]
    rfl

theorem data_step (h : Inv s) (hs : Step s e t) : t.feed.Data := by
  have hpc := hs.pc
  obtain rfl := hs.eq
  unfold State.turn
  cases e.sel with
  | eintr => exact h.data
  | err => exact (branches_window (s := s.set) h.data hpc).1
  | ready sock fp =>
    exact (branches_window (s := { s.set with
      rsetSock := s.set.rsetSock && sock, rsetFp := s.set.rsetFp && fp }) h.data hpc).1

theorem inv_step (h : Inv s) (hs : When Calls Step s e t) : Inv t :=
  ⟨data_step h hs.2, (quiet_step h hs.2).mpr hs.1⟩

theorem inv_start (fp : List UInt8) (mem : Nat → UInt8) (cs : List Chunk) :
    Inv (start fp mem (Feed.ofChunks cs)) := ⟨Feed.data_ofChunks cs, fun _ => unmarked_nil⟩

end HeartbeatCli

/-! ## both programs -/

/-- **Quiet at `Select`.**  In a run of `str_cli_select`, and in one of the heartbeat client, the
buffer of `readline` holds no newline at any `Select` if and only if at each call of `Readline` after
which there is another `Select`, what the call has to read holds no newline behind its line. -/
theorem quiet_iff (fp : List UInt8) (mem : Nat → UInt8) (cs : List Chunk)
    (es : List StrCliSelect.Turn) (t : StrCliSelect.State)
    (es' : List HeartbeatCli.Turn) (t' : HeartbeatCli.State) :
    (Run (Obey StrCliSelect.Quiet StrCliSelect.Step)
        (StrCliSelect.start fp mem (Feed.ofChunks cs)) es t ↔
      Run (When StrCliSelect.Calls StrCliSelect.Step)
        (StrCliSelect.start fp mem (Feed.ofChunks cs)) es t) ∧
    (Run (Obey HeartbeatCli.Quiet HeartbeatCli.Step)
        (HeartbeatCli.start fp mem (Feed.ofChunks cs)) es' t' ↔
      Run (When HeartbeatCli.Calls HeartbeatCli.Step)
        (HeartbeatCli.start fp mem (Feed.ofChunks cs)) es' t') :=
  ⟨Run.obey_iff_when StrCliSelect.Inv (StrCliSelect.inv_start fp mem cs)
      (fun _ _ _ h hs => StrCliSelect.quiet_step h hs) (fun _ _ _ h hs => StrCliSelect.inv_step h hs),
    Run.obey_iff_when HeartbeatCli.Inv (HeartbeatCli.inv_start fp mem cs)
      (fun _ _ _ h hs => HeartbeatCli.quiet_step h hs) (fun _ _ _ h hs => HeartbeatCli.inv_step h hs)⟩

/-- the server sends `"c\nd\n"` in one segment -/
def twoInOne : List Chunk := [⟨[99, 10, 100, 10], by decide, by decide⟩]

/-- after one turn both wait in `Select` with `"d\n"` in the buffer -/
theorem not_quiet :
    (¬ ∀ fp mem cs es t,
      Run StrCliSelect.Step (StrCliSelect.start fp mem (Feed.ofChunks cs)) es t →
      t.pc = .select → Unmarked isNl t.st.window) ∧
    ¬ ∀ fp mem cs es t,
      Run HeartbeatCli.Step (HeartbeatCli.start fp mem (Feed.ofChunks cs)) es t →
      t.pc = .select → Unmarked isNl t.st.window := by
  constructor
  · intro h
    have hq := h [] (fun _ => 0) twoInOne _ _
      (Run.single (StrCliSelect.Step.turn ⟨true, false, true⟩ rfl (Or.inl rfl))) rfl
    exact absurd (hq 10 (by decide)) (by decide)
  · intro h
    have hq := h [] (fun _ => 0) twoInOne _ _
      (Run.single (HeartbeatCli.Step.turn ⟨.ready true false, true, true⟩ rfl)) rfl
    exact absurd (hq 10 (by decide)) (by decide)

end Unp
