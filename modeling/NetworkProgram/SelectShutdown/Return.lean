import NetworkProgram.Lib.Run
import NetworkProgram.SelectShutdown.Impl

/-!
# What a normal return of the client has done

`Inv`: each byte read is written or in `buf`, and the trace is in one of two phases, before and after
the end of file on `fp`.  `return_complete`: at a normal return both directions are complete.
-/

namespace Unp.SelectShutdown
open Trans
open StrCli (Desc)

/-- the bytes before the end of file -/
def Feed.beforeEof : Feed UInt8 → List UInt8
  | [] => []
  | .eof :: _ => []
  | r :: feed => r.bytes ++ Feed.beforeEof feed

def Call.bytesRead (d : Desc) : Call → List UInt8
  | .read d' got => if d' = d then got.bytes else []
  | _ => []

def Call.bytesWritten (d : Desc) : Call → List UInt8
  | .wrote d' bs => if d' = d then bs else []
  | _ => []

/-- the bytes read from `d`, in order -/
def bytesRead (d : Desc) (tr : List Call) : List UInt8 := tr.flatMap (Call.bytesRead d)

/-- the bytes written to `d`, in order -/
def bytesWritten (d : Desc) (tr : List Call) : List UInt8 := tr.flatMap (Call.bytesWritten d)

/-- before the half-close: no `Shutdown`, and no end of file on `fp` -/
def Call.Before : Call → Prop
  | .read .stdin .eof => False
  | .shutdown => False
  | _ => True

/-- after the half-close: no `Shutdown`, no read of `fp`, and nothing is written to the socket -/
def Call.After : Call → Prop
  | .read .stdin _ => False
  | .wrote .sock _ => False
  | .shutdown => False
  | _ => True

/-- The end of file on `fp` and the `Shutdown` that follows it happen once, no byte is written to the
socket later, and `fp` is not read again. -/
def HalfClosed (tr : List Call) : Prop :=
  ∃ pre post, tr = pre ++ .read .stdin .eof :: .shutdown :: post ∧
    (∀ c ∈ pre, c.Before) ∧ ∀ c ∈ post, c.After

/-- what is in `buf`, on its way to `d` -/
def State.held (s : State) : Desc → List UInt8
  | .stdout => match s.pc with
    | .write n => memory s.buf 0 n
    | _ => []
  | .sock => match s.pc with
    | .writen n => memory s.buf 0 n
    | _ => []
  | .stdin => []

/-- the process has not been stopped -/
structure Inv (fp sock : Feed UInt8) (s : State) : Prop where
  out : bytesWritten .stdout s.trace ++ s.held .stdout = bytesRead .sock s.trace
  sent : bytesWritten .sock s.trace ++ s.held .sock = bytesRead .stdin s.trace
  toCome : s.pc ≠ .ret → bytesRead .sock s.trace ++ Feed.beforeEof s.sock = Feed.beforeEof sock
  toSend : s.stdineof = false → bytesRead .stdin s.trace ++ Feed.beforeEof s.fp = Feed.beforeEof fp
  before : s.stdineof = false → ∀ c ∈ s.trace, c.Before
  after : s.stdineof = true → HalfClosed s.trace ∧ s.rsetFp = false ∧
    bytesRead .stdin s.trace = Feed.beforeEof fp
  writing : ∀ n, s.pc = .writen n → s.stdineof = false ∧ n ≤ MAXLINE
  ret : s.pc = .ret → s.stdineof = true ∧ bytesRead .sock s.trace = Feed.beforeEof sock

variable {fp sock : Feed UInt8} {s t : State} {e : Event}

theorem inv_start (buf : Nat → UInt8) : Inv fp sock (start fp sock buf) where
  out := rfl
  sent := rfl
  toCome _ := rfl
  toSend _ := rfl
  before _ c hc := absurd hc List.not_mem_nil
  after h := by cases h
  writing n h := by cases h
  ret h := by cases h

/-! ## the trace -/

theorem bytesRead_snoc (d : Desc) (tr : List Call) (c : Call) :
    bytesRead d (tr ++ [c]) = bytesRead d tr ++ c.bytesRead d := by
  unfold bytesRead
  rw [List.flatMap_append, List.flatMap_singleton]

theorem bytesWritten_snoc (d : Desc) (tr : List Call) (c : Call) :
    bytesWritten d (tr ++ [c]) = bytesWritten d tr ++ c.bytesWritten d := by
  unfold bytesWritten
  rw [List.flatMap_append, List.flatMap_singleton]

theorem before_snoc {tr : List Call} {c : Call} (h : ∀ x ∈ tr, x.Before) (hc : c.Before) :
    ∀ x ∈ tr ++ [c], x.Before :=
  List.forall_mem_append.mpr ⟨h, List.forall_mem_singleton.mpr hc⟩

theorem HalfClosed.snoc {tr : List Call} {c : Call} (h : HalfClosed tr) (hc : c.After) :
    HalfClosed (tr ++ [c]) := by
  obtain ⟨pre, post, rfl, hpre, hpost⟩ := h
  refine ⟨pre, post ++ [c], ?_, hpre,
    List.forall_mem_append.mpr ⟨hpost, List.forall_mem_singleton.mpr hc⟩⟩
  rw [List.append_assoc]
  rfl

theorem halfClosed_now {tr : List Call} (h : ∀ c ∈ tr, c.Before) :
    HalfClosed (tr ++ [.read .stdin .eof] ++ [.shutdown]) :=
  ⟨tr, [], by rw [List.append_assoc]; rfl, h, fun _ hc => absurd hc List.not_mem_nil⟩

/-! ## reads -/

theorem beforeEof_next {feed : Feed UInt8} {bs : List UInt8} {pos : 0 < bs.length}
    {le : bs.length ≤ MAXLINE} (h : Feed.next feed = .data bs pos le) :
    Feed.beforeEof feed = bs ++ Feed.beforeEof feed.tail := by
  cases feed with
  | nil => cases h
  | cons r feed =>
    obtain rfl : r = .data bs pos le := h
    rfl

theorem beforeEof_end {feed : Feed UInt8} (h : Feed.next feed = .eof) :
    Feed.beforeEof feed = [] := by
  cases feed with
  | nil => rfl
  | cons r feed =>
    obtain rfl : r = .eof := h
    rfl

theorem Call.After.bytesRead {c : Call} (h : c.After) : c.bytesRead .stdin = [] := by
  cases c with
  | read d got =>
    cases d with
    | stdin => exact h.elim
    | stdout => rfl
    | sock => rfl
  | wrote d bs => rfl
  | shutdown => rfl

/-! ## the steps -/

def Pc.isStopped : Pc → Bool
  | .stopped _ => true
  | _ => false

/-- a step that makes no call -/
theorem Inv.quiet (h : Inv fp sock s) {pc : Pc} {rsetFp rsetSock : Bool} (hs : s.pc ≠ .ret)
    (hheld : ∀ d, State.held { s with pc := pc, rsetFp := rsetFp, rsetSock := rsetSock } d = s.held d)
    (hret : pc ≠ .ret) (hwn : ∀ n, pc ≠ .writen n) (hrset : s.stdineof = true → rsetFp = false) :
    Inv fp sock { s with pc := pc, rsetFp := rsetFp, rsetSock := rsetSock } where
  out := by
    rw [hheld]
    exact h.out
  sent := by
    rw [hheld]
    exact h.sent
  toCome _ := h.toCome hs
  toSend := h.toSend
  before := h.before
  after heof := ⟨(h.after heof).1, hrset heof, (h.after heof).2.2⟩
  writing n hn := absurd hn (hwn n)
  ret hr := absurd hr hret

/-- a step that makes one call, other than the end of file on `fp` -/
theorem Inv.call (h : Inv fp sock s) {c : Call} (hs : s.pc ≠ .ret) (htr : t.trace = s.trace ++ [c])
    (hout : c.bytesWritten .stdout ++ t.held .stdout = s.held .stdout ++ c.bytesRead .sock)
    (hsent : c.bytesWritten .sock ++ t.held .sock = s.held .sock ++ c.bytesRead .stdin)
    (hcome : t.pc ≠ .ret → c.bytesRead .sock ++ Feed.beforeEof t.sock = Feed.beforeEof s.sock)
    (hsend : s.stdineof = false → c.bytesRead .stdin ++ Feed.beforeEof t.fp = Feed.beforeEof s.fp)
    (hbefore : c.Before) (hafter : s.stdineof = true → c.After ∧ t.rsetFp = false)
    (heof : t.stdineof = s.stdineof) (hwn : ∀ n, t.pc = .writen n → s.stdineof = false ∧ n ≤ MAXLINE)
    (hret : t.pc = .ret → s.stdineof = true ∧ c.bytesRead .sock = Feed.beforeEof s.sock) :
    Inv fp sock t := by
  exact
    { out := by
        rw [htr, bytesWritten_snoc, bytesRead_snoc, List.append_assoc, hout, ← List.append_assoc,
          h.out]
      sent := by
        rw [htr, bytesWritten_snoc, bytesRead_snoc, List.append_assoc, hsent, ← List.append_assoc,
          h.sent]
      toCome := fun ht => by
        rw [htr, bytesRead_snoc, List.append_assoc, hcome ht]
        exact h.toCome hs
      toSend := fun he => by
        rw [heof] at he
        rw [htr, bytesRead_snoc, List.append_assoc, hsend he]
        exact h.toSend he
      before := fun he => by
        rw [htr]
        exact before_snoc (h.before (heof ▸ he)) hbefore
      after := fun he => by
        rw [heof] at he
        obtain ⟨hc, hrset⟩ := hafter he
        obtain ⟨hhalf, _, hread⟩ := h.after he
        rw [htr, bytesRead_snoc, hc.bytesRead, List.append_nil]
        exact ⟨hhalf.snoc hc, hrset, hread⟩
      writing := fun n hn => by
        rw [heof]
        exact hwn n hn
      ret := fun hr => by
        obtain ⟨he, hall⟩ := hret hr
        rw [htr, bytesRead_snoc, hall]
        exact ⟨heof.trans he, h.toCome hs⟩ }

/-- the end of file on `fp`, and the `Shutdown` -/
theorem Inv.halfClose (h : Inv fp sock s) (hs : s.pc ≠ .ret) (heof : s.stdineof = false)
    (hend : Feed.beforeEof s.fp = []) (hheld : ∀ d, s.held d = [])
    {buf : Nat → UInt8} {feed : Feed UInt8} {pc : Pc} {rsetSock : Bool}
    (hpc : ∀ d, State.held ⟨feed, s.sock, buf, true, false, rsetSock, pc,
      s.trace ++ [.read .stdin .eof] ++ [.shutdown]⟩ d = [])
    (hwn : ∀ n, pc ≠ .writen n) (hret : pc ≠ .ret) :
    Inv fp sock ⟨feed, s.sock, buf, true, false, rsetSock, pc,
      s.trace ++ [.read .stdin .eof] ++ [.shutdown]⟩ := by
  have hread : ∀ d, bytesRead d (s.trace ++ [.read .stdin .eof] ++ [.shutdown]) =
      bytesRead d s.trace := fun d => by
    rw [bytesRead_snoc, bytesRead_snoc]
    cases d <;> exact (List.append_nil _).trans (List.append_nil _)
  have hwritten : ∀ d, bytesWritten d (s.trace ++ [.read .stdin .eof] ++ [.shutdown]) =
      bytesWritten d s.trace := fun d => by
    rw [bytesWritten_snoc, bytesWritten_snoc]
    exact (List.append_nil _).trans (List.append_nil _)
  have hout := h.out
  have hsent := h.sent
  have hsend := h.toSend heof
  rw [hheld] at hout hsent
  rw [hend, List.append_nil] at hsend
  exact
    { out := by
        rw [hpc]
        exact (congrArg (· ++ []) (hwritten _)).trans (hout.trans (hread _).symm)
      sent := by
        rw [hpc]
        exact (congrArg (· ++ []) (hwritten _)).trans (hsent.trans (hread _).symm)
      toCome := fun _ => (congrArg (· ++ _) (hread _)).trans (h.toCome hs)
      toSend := fun hc => by cases hc
      before := fun hc => by cases hc
      after := fun _ => ⟨halfClosed_now (h.before heof), rfl, (hread _).trans hsend⟩
      writing := fun n hn => absurd hn (hwn n)
      ret := fun hr => absurd hr hret }

/-- at `Write` to `stdout` -/
theorem held_write {n : Nat} (h : s.pc = .write n) :
    s.held .stdout = memory s.buf 0 n ∧ s.held .sock = [] := by
  unfold State.held
  rw [h]
  exact ⟨rfl, rfl⟩

/-- at `Writen` to the socket -/
theorem held_writen {n : Nat} (h : s.pc = .writen n) :
    s.held .stdout = [] ∧ s.held .sock = memory s.buf 0 n := by
  unfold State.held
  rw [h]
  exact ⟨rfl, rfl⟩

theorem held_of_pc {pc : Pc} (h : s.pc = pc) (hw : ∀ n, pc ≠ .write n) (hwn : ∀ n, pc ≠ .writen n)
    (d : Desc) : s.held d = [] := by
  unfold State.held
  rw [h]
  cases d with
  | stdin => rfl
  | stdout =>
    cases pc with
    | write n => exact absurd rfl (hw n)
    | _ => rfl
  | sock =>
    cases pc with
    | writen n => exact absurd rfl (hwn n)
    | _ => rfl

/-- at `select` or at one of the two `FD_ISSET` -/
def Pc.Idle (pc : Pc) : Prop := pc = .select ∨ pc = .sock ∨ pc = .fp

theorem held_of_idle (h : s.pc.Idle) (d : Desc) : s.held d = [] := by
  rcases h with h | h | h <;> exact held_of_pc h (fun n => Pc.noConfusion) (fun n => Pc.noConfusion) d

theorem Inv.idle (h : Inv fp sock s) {pc : Pc} {rsetFp rsetSock : Bool} (hs : s.pc.Idle)
    (hpc : pc.Idle) (hrset : s.stdineof = true → rsetFp = false) :
    Inv fp sock { s with pc := pc, rsetFp := rsetFp, rsetSock := rsetSock } := by
  have hret : ∀ pc : Pc, pc.Idle → pc ≠ .ret := by
    rintro _ (rfl | rfl | rfl) <;> exact Pc.noConfusion
  refine h.quiet (hret _ hs) (fun d => ?_) (hret _ hpc) ?_ hrset
  · rw [held_of_idle hs, held_of_idle hpc]
  · rintro n rfl
    rcases hpc with hpc | hpc | hpc <;> cases hpc

theorem ret_eof {r : ReadRes UInt8 MAXLINE} (h : r.ret = 0) : r = .eof := by
  cases r with
  | data bs pos le => exact absurd (Int.natCast_eq_zero.mp h) (Nat.ne_of_gt pos)
  | eof => rfl
  | err e => exact absurd (show (-1 : Int) = 0 from h) (by decide)

theorem ret_data {r : ReadRes UInt8 MAXLINE} (h1 : r.ret ≠ -1) (h0 : r.ret ≠ 0) :
    ∃ bs pos le, r = .data bs pos le ∧ r.ret.toNat = bs.length := by
  cases r with
  | data bs pos le => exact ⟨bs, pos, le, rfl, Int.toNat_natCast _⟩
  | eof => exact absurd rfl h0
  | err e => exact absurd rfl h1

theorem Inv.readSock (h : Inv fp sock s) (hpc : s.pc = .sock) :
    s.readSock.pc.isStopped = true ∨ Inv fp sock s.readSock := by
  have hheld := held_of_pc hpc (fun n => Pc.noConfusion) (fun n => Pc.noConfusion)
  have hs : s.pc ≠ .ret := by rw [hpc]; exact Pc.noConfusion
  have hafter : ∀ {r}, s.stdineof = true → (Call.read .sock r).After ∧ s.rsetFp = false :=
    fun he => ⟨trivial, (h.after he).2.1⟩
  unfold State.readSock
  dsimp only
  split
  · exact Or.inl rfl
  · rename_i h1
    split
    · rename_i h0
      have hr := ret_eof h0
      rw [hr]
      split
      · rename_i heof
        refine Or.inr (h.call hs rfl ?_ ?_ (fun hn => absurd rfl hn) (fun _ => rfl) trivial hafter rfl
          (fun _ hc => by cases hc) (fun _ => ⟨heof, (beforeEof_end hr).symm⟩))
        · rw [hheld]
          rfl
        · rw [hheld]
          rfl
      · exact Or.inl rfl
    · rename_i h0
      obtain ⟨bs, pos, le, hr, hlen⟩ := ret_data h1 h0
      refine Or.inr (h.call hs rfl ?_ ?_ (fun _ => ?_) (fun _ => rfl) trivial hafter rfl
        (fun _ hc => by cases hc) (fun hc => by cases hc))
      · rw [hheld, hlen, hr]
        exact memory_getD bs s.buf
      · rw [hheld]
        rfl
      · rw [hr]
        exact (beforeEof_next hr).symm

theorem Inv.write (h : Inv fp sock s) {n : Nat} (hpc : s.pc = .write n) (w : WriteRes n) :
    (s.write n w).pc.isStopped = true ∨ Inv fp sock (s.write n w) := by
  unfold State.write
  dsimp only
  split
  · exact Or.inl rfl
  · rename_i hall
    rw [not_not.mp hall]
    obtain ⟨hout, hsock⟩ := held_write hpc
    refine Or.inr (h.call (by rw [hpc]; exact Pc.noConfusion) rfl ?_ ?_ (fun _ => rfl) (fun _ => rfl)
      trivial (fun he => ⟨trivial, (h.after he).2.1⟩) rfl (fun _ hc => by cases hc)
      (fun hc => by cases hc))
    · rw [hout]
      rfl
    · rw [hsock]
      rfl

theorem Inv.writen (h : Inv fp sock s) {n : Nat} (hpc : s.pc = .writen n) {ws : Writes}
    {w : Written UInt8} (hw : Unp.writen s.buf n ws = some w) :
    (s.writen n w).pc.isStopped = true ∨ Inv fp sock (s.writen n w) := by
  obtain ⟨heof, hn⟩ := h.writing n hpc
  unfold State.writen
  dsimp only
  split
  · exact Or.inl rfl
  · rename_i hall
    have hfull := writen_full hw hn (not_not.mp hall)
    obtain ⟨hout, hsock⟩ := held_writen hpc
    refine Or.inr (h.call (by rw [hpc]; exact Pc.noConfusion) rfl ?_ ?_ (fun _ => rfl) (fun _ => rfl)
      trivial (fun he => by rw [heof] at he; cases he) rfl (fun _ hc => by cases hc)
      (fun hc => by cases hc))
    · rw [hout]
      rfl
    · rw [hsock]
      exact (List.append_nil _).trans (hfull.trans (List.append_nil _).symm)

theorem Inv.readFp (h : Inv fp sock s) (hpc : s.pc = .fp) (hset : s.rsetFp = true) :
    s.readFp.pc.isStopped = true ∨ Inv fp sock s.readFp := by
  have hheld := held_of_pc hpc (fun n => Pc.noConfusion) (fun n => Pc.noConfusion)
  have hs : s.pc ≠ .ret := by rw [hpc]; exact Pc.noConfusion
  have heof : s.stdineof = false := by
    cases he : s.stdineof with
    | false => rfl
    | true =>
      have hclear := (h.after he).2.1
      rw [hset] at hclear
      cases hclear
  unfold State.readFp
  dsimp only
  split
  · exact Or.inl rfl
  · rename_i h1
    split
    · rename_i h0
      have hr := ret_eof h0
      rw [hr]
      exact Or.inr (h.halfClose hs heof (beforeEof_end hr) hheld (fun d => by cases d <;> rfl)
        (fun n hn => by cases hn) (fun hc => by cases hc))
    · rename_i h0
      obtain ⟨bs, pos, le, hr, hlen⟩ := ret_data h1 h0
      refine Or.inr (h.call hs rfl ?_ ?_ (fun _ => rfl) (fun _ => ?_) ?_
        (fun he => by rw [heof] at he; cases he) rfl (fun n hn => ?_) (fun hc => by cases hc))
      · rw [hheld]
        rfl
      · rw [hheld, hlen, hr]
        exact memory_getD bs s.buf
      · rw [hr]
        exact (beforeEof_next hr).symm
      · rw [hr]
        trivial
      · cases hn
        exact ⟨heof, hlen.trans_le le⟩

theorem Inv.step (h : Inv fp sock s) (hs : Step s e t) : t.pc.isStopped = true ∨ Inv fp sock t := by
  cases hs with
  | select fp' sock' pc =>
    refine Or.inr (h.idle (Or.inl pc) (Or.inr (Or.inl rfl)) fun he => ?_)
    rw [he, (h.after he).2.1]
    rfl
  | skipSock pc notset =>
    exact Or.inr (h.idle (Or.inr (Or.inl pc)) (Or.inr (Or.inr rfl)) (fun he => (h.after he).2.1))
  | readSock pc isset => exact h.readSock pc
  | write n w pc => exact h.write pc w
  | skipFp pc notset =>
    exact Or.inr (h.idle (Or.inr (Or.inr pc)) (Or.inl rfl) (fun he => (h.after he).2.1))
  | readFp pc isset => exact h.readFp pc isset
  | writen n ws w pc returns => exact h.writen pc returns

/-- a stopped process makes no step -/
theorem not_stopped (hs : Step s e t) : s.pc.isStopped = false := by
  cases hs <;> simp_all [Pc.isStopped]

theorem inv_run {buf : Nat → UInt8} {es : List Event} (h : Run Step (start fp sock buf) es t) :
    t.pc.isStopped = true ∨ Inv fp sock t := by
  induction h with
  | nil => exact Or.inr (inv_start buf)
  | snoc _ hs ih =>
    rcases ih with hstop | hinv
    · rw [not_stopped hs] at hstop
      cases hstop
    · exact hinv.step hs

/-! ## the return -/

/-- **A normal return.**  The socket has got all of `fp` and `stdout` all of the server's bytes, in
order; `Shutdown` was called once, after the last byte for the socket, and `fp` was not read after
its end of file. -/
theorem return_complete (fp sock : Feed UInt8) (buf : Nat → UInt8) (es : List Event) (t : State)
    (h : Run Step (start fp sock buf) es t) (hret : t.pc = .ret) :
    bytesWritten .sock t.trace = Feed.beforeEof fp ∧
      bytesWritten .stdout t.trace = Feed.beforeEof sock ∧ HalfClosed t.trace := by
  rcases inv_run h with hstop | hinv
  · rw [hret] at hstop
    cases hstop
  · have hheld := held_of_pc hret (fun n => Pc.noConfusion) (fun n => Pc.noConfusion)
    have hout := hinv.out
    have hsent := hinv.sent
    rw [hheld, List.append_nil] at hout hsent
    obtain ⟨heof, hall⟩ := hinv.ret hret
    obtain ⟨hhalf, _, hread⟩ := hinv.after heof
    exact ⟨hsent.trans hread, hout.trans hall, hhalf⟩

/-- one byte, and the end of file -/
def oneByte (c : UInt8) : Feed UInt8 := [.data [c] Nat.one_pos (show 1 ≤ 4096 by decide)]

/-- the answer comes before the end of file on `fp` -/
theorem oneByte_run : ∃ es t, Run Step (start (oneByte 97) (oneByte 98) (fun _ => 0)) es t ∧
    t.pc = .ret := by
  have h1 := Run.single (Step.select (s := start (oneByte 97) (oneByte 98) (fun _ => 0)) true true rfl)
  have h2 := h1.snoc (Step.readSock rfl rfl)
  have h3 := h2.snoc (Step.write 1 (.wrote 1 le_rfl) rfl)
  have h4 := h3.snoc (Step.readFp rfl rfl)
  have h5 := h4.snoc (Step.writen 1 [fun len => .wrote len le_rfl] ⟨1, [97]⟩ rfl rfl)
  have h6 := h5.snoc (Step.select true false rfl)
  have h7 := h6.snoc (Step.skipSock rfl rfl)
  have h8 := h7.snoc (Step.readFp rfl rfl)
  have h9 := h8.snoc (Step.select false true rfl)
  exact ⟨_, _, h9.snoc (Step.readSock rfl rfl), rfl⟩

theorem return_complete_oneByte : ∃ t : State, t.pc = .ret ∧ bytesWritten .sock t.trace = [97] ∧
    bytesWritten .stdout t.trace = [98] ∧ HalfClosed t.trace := by
  obtain ⟨es, t, hrun, hret⟩ := oneByte_run
  exact ⟨t, hret, return_complete (oneByte 97) (oneByte 98) (fun _ => 0) es t hrun hret⟩

end Unp.SelectShutdown
