import NetworkProgram.Lib.Sim
import NetworkProgram.StrCliFork.Impl

/-!
# Every byte comes back, and all three end

The bytes go from `fp` through the parent, the server and the child to `stdout`, in order
(`Inv.conserve`).  Each step takes some bytes on, or one of the three (`Step.weight_lt`), and while
not all three have ended one of them can take a step (`Inv.moves`).

* `fork_echo`   so every run ends with the input printed and nobody left.
-/

namespace Unp.StrCliFork
open Trans Cut
open LineEcho (Server Reading reading_init)

variable {inp : List UInt8} {cap : Nat} {s t : State} {w : Party} {l : Loop UInt8}

def Parent.rest : Parent → List UInt8
  | .fgets => []
  | .writen rest => rest
  | .shutdown => []
  | .pause => []
  | .killed => []

/-- the parent is behind its loop -/
def Parent.done : Parent → Bool
  | .shutdown => true
  | .pause => true
  | .killed => true
  | _ => false

/-- behind `Shutdown` -/
def Parent.shut : Parent → Bool
  | .pause => true
  | .killed => true
  | _ => false

/-- what `readline` has stored -/
def Child.acc : Child → List UInt8
  | .readline l => l.acc
  | .kill => []
  | .exited => []

def Child.done : Child → Bool
  | .readline _ => false
  | _ => true

/-- from `recvline` back to `sendline` -/
def State.flight (s : State) : List UInt8 :=
  s.child.acc ++ (s.st.window ++ (s.toClient ++ (s.server.rest ++ (s.toServer ++ s.parent.rest))))

structure Inv (inp : List UInt8) (s : State) : Prop where
  conserve : s.stdout ++ (s.flight ++ s.fp) = inp
  reading : ∀ l, s.child = .readline l → Reading l
  sent : s.parent.done = true → s.fp = []
  fin : s.fin = s.parent.shut
  serving : s.server = .ret → s.fin = true ∧ s.toServer = []
  drained : s.child.done = true → s.server = .ret ∧ s.toClient = [] ∧ s.st.window = []
  killed : s.parent = .killed ↔ s.child = .exited

theorem inv_start (mem : Nat → UInt8) : Inv inp (start inp mem) where
  conserve := rfl
  reading l h := by
    cases h
    exact reading_init
  sent := nofun
  fin := rfl
  serving := nofun
  drained := nofun
  killed := ⟨nofun, nofun⟩

/-! ## the parent -/

theorem Parent.write_cases (rest : List UInt8) :
    (rest = [] ∧ Parent.write rest = .fgets) ∨ (rest ≠ [] ∧ Parent.write rest = .writen rest) := by
  unfold Parent.write
  split
  · rename_i h
    exact Or.inl ⟨h, rfl⟩
  · rename_i h
    exact Or.inr ⟨h, rfl⟩

theorem Parent.write_rest (rest : List UInt8) : (Parent.write rest).rest = rest := by
  obtain ⟨h, hw⟩ | ⟨h, hw⟩ := Parent.write_cases rest
  · rw [hw, h]
    rfl
  · rw [hw]
    rfl

theorem Parent.write_done (rest : List UInt8) : (Parent.write rest).done = false := by
  obtain ⟨h, hw⟩ | ⟨h, hw⟩ := Parent.write_cases rest <;> rw [hw] <;> rfl

theorem Parent.write_shut (rest : List UInt8) : (Parent.write rest).shut = false := by
  obtain ⟨h, hw⟩ | ⟨h, hw⟩ := Parent.write_cases rest <;> rw [hw] <;> rfl

theorem Parent.write_ne_killed (rest : List UInt8) : Parent.write rest ≠ .killed := by
  obtain ⟨h, hw⟩ | ⟨h, hw⟩ := Parent.write_cases rest <;> rw [hw] <;> exact nofun

/-- while the parent is in its loop the server has not seen the end of file -/
theorem Inv.serving_ne (h : Inv inp s) (hp : s.parent.done = false) : s.server ≠ .ret := by
  intro hs
  have hfin := (h.serving hs).1
  rw [h.fin] at hfin
  revert hp hfin
  cases s.parent <;> simp [Parent.done, Parent.shut]

theorem fgets_end (h : s.fp = []) : s.fgets = { s with parent := .shutdown } := by
  unfold State.fgets
  rw [h]
  rfl

theorem fgets_piece (h : s.fp ≠ []) (h0 : 0 ∉ s.fp) : s.fgets =
    { s with
      fp := (cut isNl (MAXLINE - 1) s.fp).2
      parent := .write (cut isNl (MAXLINE - 1) s.fp).1 } := by
  have hno : 0 ∉ (cut isNl (MAXLINE - 1) s.fp).1 := fun hm =>
    h0 (cut_append (p := isNl) (MAXLINE - 1) s.fp ▸ List.mem_append_left _ hm)
  unfold State.fgets
  rw [fgets_of_ne_nil h]
  dsimp only
  rw [cstr_of_not_mem hno]

theorem Inv.zero_notMem_fp (h : Inv inp s) (h0 : 0 ∉ inp) : 0 ∉ s.fp := fun hm =>
  h0 (h.conserve ▸ List.mem_append_right _ (List.mem_append_right _ hm))

theorem Inv.fgets (h : Inv inp s) (h0 : 0 ∉ inp) (pc : s.parent = .fgets) : Inv inp s.fgets := by
  have hfin := h.fin
  have hserv := h.serving_ne (by rw [pc]; rfl)
  have hkill : s.child ≠ .exited := fun hc => by
    have hp := h.killed.mpr hc
    rw [pc] at hp
    cases hp
  have hcons := h.conserve
  unfold State.flight at hcons
  rw [pc] at hfin hcons
  rcases eq_or_ne s.fp [] with hnil | hne
  · rw [fgets_end hnil]
    exact ⟨hcons, h.reading, fun _ => hnil, hfin, h.serving, h.drained,
      ⟨nofun, fun hc => absurd hc hkill⟩⟩
  · rw [fgets_piece hne (h.zero_notMem_fp h0)]
    refine ⟨?_, h.reading, fun hd => ?_, ?_, fun hs => absurd hs hserv, h.drained,
      ⟨fun hp => absurd hp (Parent.write_ne_killed _), fun hc => absurd hc hkill⟩⟩
    · rw [← hcons]
      unfold State.flight
      dsimp only
      rw [Parent.write_rest]
      conv_rhs => rw [← cut_append (p := isNl) (MAXLINE - 1) s.fp]
      simp only [Parent.rest, List.append_assoc, List.nil_append]
    · exact absurd (hd.symm.trans (Parent.write_done _)) (by decide)
    · exact hfin.trans (Parent.write_shut _).symm

/-! ## the child -/

theorem turn_marked {feed : Feed UInt8} {c : UInt8} (hrc : (myRead s.st feed).rc = .byte c)
    (hnl : isNl c = true) :
    s.turn l feed =
      State.returned { s with st := (myRead s.st feed).st } ⟨l.n, l.acc ++ [c], true⟩ := by
  unfold State.turn Loop.turn
  dsimp only
  rw [hrc]
  dsimp only
  rw [if_pos hnl]

theorem turn_unmarked {feed : Feed UInt8} {c : UInt8} (hrc : (myRead s.st feed).rc = .byte c)
    (hnl : isNl c = false) :
    s.turn l feed =
      { s with
        st := (myRead s.st feed).st
        child := .readline ⟨l.room - 1, l.n + 1, l.acc ++ [c]⟩ } := by
  unfold State.turn Loop.turn
  dsimp only
  rw [hrc]
  dsimp only
  rw [if_neg (by rw [hnl]; exact Bool.false_ne_true)]

/-- a line that is not empty is printed -/
theorem returned_pos {line : Line UInt8} (hret : 0 < line.ret) (h0 : 0 ∉ line.stored) :
    s.returned line =
      { s with stdout := s.stdout ++ line.stored, child := .readline (Loop.init MAXLINE) } := by
  unfold State.returned fputs
  rw [if_pos hret, cstr_of_not_mem h0]

/-- the child goes on, and takes bytes on -/
theorem Inv.childStep (h : Inv inp s) (hpc : s.child = .readline l) (ht : t.child.done = false)
    (hread : ∀ l', t.child = .readline l' → Reading l') (hfp : t.fp = s.fp)
    (hparent : t.parent = s.parent) (htoServer : t.toServer = s.toServer) (hfin : t.fin = s.fin)
    (hserver : t.server = s.server)
    (hcons : t.stdout ++ (t.child.acc ++ (t.st.window ++ t.toClient)) =
      s.stdout ++ (l.acc ++ (s.st.window ++ s.toClient))) : Inv inp t := by
  have hkill : s.parent ≠ .killed := fun hp => by
    have hc := h.killed.mp hp
    rw [hpc] at hc
    cases hc
  refine ⟨?_, hread, ?_, ?_, ?_, ?_, ?_⟩
  · have hold := h.conserve
    unfold State.flight at hold ⊢
    rw [hpc] at hold
    rw [hfp, hparent, htoServer, hserver]
    have hnew := congrArg (· ++ (s.server.rest ++ (s.toServer ++ (s.parent.rest ++ s.fp)))) hcons
    simp only [Child.acc, List.append_assoc] at hold hnew ⊢
    rw [hnew]
    exact hold
  · rw [hparent, hfp]
    exact h.sent
  · rw [hfin, hparent]
    exact h.fin
  · rw [hserver, hfin, htoServer]
    exact h.serving
  · intro hd
    exact absurd (hd.symm.trans ht) (by decide)
  · rw [hparent]
    refine ⟨fun hp => absurd hp hkill, fun hc => ?_⟩
    rw [hc] at ht
    cases ht

theorem Inv.zero_notMem_acc (h : Inv inp s) (h0 : 0 ∉ inp) (hpc : s.child = .readline l) :
    0 ∉ l.acc := fun hm => by
  refine h0 (h.conserve ▸ List.mem_append_right _ (List.mem_append_left _ ?_))
  unfold State.flight
  rw [hpc]
  exact List.mem_append_left _ hm

/-- `my_read` has returned the next byte -/
theorem Inv.byte (h : Inv inp s) (h0 : 0 ∉ inp) (hpc : s.child = .readline l) (hroom : 0 < l.room)
    {feed : Feed UInt8} {c : UInt8} (chan : List UInt8) (hrc : (myRead s.st feed).rc = .byte c)
    (hnext : c :: ((myRead s.st feed).st.window ++ chan) = s.st.window ++ s.toClient) :
    Inv inp (State.turn { s with toClient := chan } l feed) := by
  have hread := h.reading l hpc
  have hacc : l.acc ++ (s.st.window ++ s.toClient) =
      (l.acc ++ [c]) ++ ((myRead s.st feed).st.window ++ chan) := by
    rw [← hnext, List.append_assoc]
    rfl
  cases hnl : isNl c with
  | true =>
    have hno : 0 ∉ l.acc ++ [c] := by
      intro hm
      rcases List.mem_append.mp hm with hm | hm
      · exact h.zero_notMem_acc h0 hpc hm
      · rw [← List.mem_singleton.mp hm] at hnl
        cases hnl
    rw [turn_marked (by exact hrc) hnl]
    rw [returned_pos (by show (0 : Int) < (l.n : Int); have := hread.n; omega) hno]
    refine h.childStep hpc rfl (fun l' hl' => ?_) rfl rfl rfl rfl rfl ?_
    · cases hl'
      exact reading_init
    · rw [hacc]
      exact List.append_assoc ..
  | false =>
    rw [turn_unmarked (by exact hrc) hnl]
    refine h.childStep hpc rfl (fun l' hl' => ?_) rfl rfl rfl rfl rfl ?_
    · cases hl'
      refine ⟨?_, ?_, unmarked_append.mpr ⟨hread.open_, unmarked_singleton.mpr hnl⟩⟩
      · show l.n + 1 = (l.acc ++ [c]).length + 1
        rw [List.length_append, hread.n]
        rfl
      · show l.room - 1 + (l.n + 1) = MAXLINE
        have := hread.room
        omega
    · rw [hacc]
      rfl

/-- `readline` has no more room -/
theorem Inv.full (h : Inv inp s) (h0 : 0 ∉ inp) (hpc : s.child = .readline l) :
    s.returned l.full = { s with stdout := s.stdout ++ l.acc, child := .readline (Loop.init MAXLINE) } ∧
      Inv inp (s.returned l.full) := by
  have hn := (h.reading l hpc).n
  have hpos : 0 < l.full.ret := by
    show (0 : Int) < (l.n : Int)
    omega
  have hret : s.returned l.full = _ := returned_pos hpos (h.zero_notMem_acc h0 hpc)
  refine ⟨hret, ?_⟩
  rw [hret]
  refine h.childStep hpc rfl (fun l' hl' => ?_) rfl rfl rfl rfl rfl ?_
  · cases hl'
    exact reading_init
  · exact List.append_assoc ..

theorem myRead_eof {st : Statics UInt8} (h : st.readCnt = 0) :
    (myRead st [.eof]).rc = .eof ∧ (myRead st [.eof]).st.window = [] := by
  have hmy : myRead st [.eof] = again st [.eof] := if_pos (Nat.le_of_eq h)
  rw [hmy]
  exact ⟨rfl, rfl⟩

/-- the end of file: the rest of a line is printed, or the child leaves its loop -/
theorem eof_cases (hread : Reading l) (h0 : 0 ∉ l.acc)
    (none : s.st.readCnt = 0) :
    ∃ st, st.window = [] ∧
      ((l.acc = [] ∧ s.turn l [.eof] = { s with st := st, child := .kill }) ∨
      (l.acc ≠ [] ∧ s.turn l [.eof] =
        { s with st := st, stdout := s.stdout ++ l.acc, child := .readline (Loop.init MAXLINE) })) := by
  obtain ⟨hrc, hwin⟩ := myRead_eof none
  have hturn : s.turn l [.eof] =
      State.returned { s with st := (myRead s.st [.eof]).st } ⟨l.n - 1, l.acc, true⟩ := by
    unfold State.turn
    dsimp only
    rw [hrc]
    rfl
  have hn := hread.n
  refine ⟨_, hwin, ?_⟩
  rw [hturn]
  rcases eq_or_ne l.acc [] with hnil | hne
  · refine Or.inl ⟨hnil, if_neg ?_⟩
    show ¬ (l.n : Int) - 1 > 0
    rw [hn, hnil]
    decide
  · refine Or.inr ⟨hne, returned_pos ?_ h0⟩
    have hpos := List.length_pos_iff.mpr hne
    show (0 : Int) < (l.n : Int) - 1
    omega

theorem Inv.eof (h : Inv inp s) (h0 : 0 ∉ inp) (hpc : s.child = .readline l)
    (none : s.st.readCnt = 0) (chan : s.toClient = []) (closed : s.server = .ret) :
    Inv inp (s.turn l [.eof]) := by
  obtain ⟨st, hwin, hcase⟩ :=
    eof_cases (h.reading l hpc) (h.zero_notMem_acc h0 hpc) none
  have hold := s.st.window_nil none
  rcases hcase with ⟨hnil, ht⟩ | ⟨-, ht⟩
  · -- nothing is left anywhere
    have hkill : s.parent ≠ .killed := fun hp => by
      have hc := h.killed.mp hp
      rw [hpc] at hc
      cases hc
    rw [ht]
    refine ⟨?_, nofun, h.sent, h.fin, h.serving, fun _ => ⟨closed, chan, hwin⟩,
      ⟨fun hp => absurd hp hkill, nofun⟩⟩
    have hcons := h.conserve
    unfold State.flight at hcons ⊢
    rw [hpc, hold] at hcons
    dsimp only [Child.acc] at hcons ⊢
    rw [hnil] at hcons
    rw [hwin]
    exact hcons
  · rw [ht]
    refine h.childStep hpc rfl (fun l' hl' => ?_) rfl rfl rfl rfl rfl ?_
    · cases hl'
      exact reading_init
    · show (s.stdout ++ l.acc) ++ ([] ++ (st.window ++ s.toClient)) = _
      rw [hwin, hold, List.append_assoc]
      rfl

/-! ## the steps -/

/-- bytes move between the parent, the two channels and the server -/
theorem Inv.move (h : Inv inp s) (hfp : t.fp = s.fp) (hchild : t.child = s.child)
    (hst : t.st = s.st) (hout : t.stdout = s.stdout) (hfin : t.fin = s.fin)
    (hdone : t.parent.done = s.parent.done) (hshut : t.parent.shut = s.parent.shut)
    (hkill : t.parent = .killed ↔ s.parent = .killed)
    (hserving : t.server = .ret → t.fin = true ∧ t.toServer = [])
    (hdrained : s.child.done = true → t.server = .ret ∧ t.toClient = [])
    (hflow : t.toClient ++ (t.server.rest ++ (t.toServer ++ t.parent.rest)) =
      s.toClient ++ (s.server.rest ++ (s.toServer ++ s.parent.rest))) : Inv inp t := by
  refine ⟨?_, ?_, ?_, ?_, hserving, ?_, ?_⟩
  · rw [← h.conserve]
    unfold State.flight
    rw [hout, hchild, hst, hflow, hfp]
  · rw [hchild]
    exact h.reading
  · rw [hdone, hfp]
    exact h.sent
  · rw [hfin, hshut]
    exact h.fin
  · rw [hchild, hst]
    exact fun hd => ⟨(hdrained hd).1, (hdrained hd).2, (h.drained hd).2.2⟩
  · rw [hkill, hchild]
    exact h.killed

theorem Server.write_ne_ret (rest : List UInt8) : Server.write rest ≠ .ret :=
  LineEcho.Server.write_ne_ret rest

theorem Inv.step (h : Inv inp s) (h0 : 0 ∉ inp) (hs : Step cap s w t) : Inv inp t := by
  -- while the server serves, the child has not seen the end of file
  have hbusy (hne : s.server ≠ .ret) : ¬ s.child.done = true := fun hd => hne (h.drained hd).1
  cases hs with
  | fgets pc => exact h.fgets h0 pc
  | write bs rest pc some room =>
    have hne := h.serving_ne (by rw [pc]; rfl)
    refine h.move rfl rfl rfl rfl rfl ?_ ?_ ?_ (fun hr => absurd hr hne)
      (fun hd => absurd hd (hbusy hne)) ?_
    · rw [pc]
      exact Parent.write_done rest
    · rw [pc]
      exact Parent.write_shut rest
    · rw [pc]
      exact iff_of_false (Parent.write_ne_killed rest) nofun
    · dsimp only
      rw [Parent.write_rest, pc]
      simp only [Parent.rest, List.append_assoc]
  | shutdown pc =>
    have hne : s.parent ≠ .killed := by rw [pc]; exact nofun
    have hfp := h.sent (by rw [pc]; rfl)
    have hcons := h.conserve
    unfold State.flight at hcons
    rw [pc] at hcons
    refine ⟨hcons, h.reading, fun _ => hfp, rfl, fun hr => ⟨rfl, (h.serving hr).2⟩, h.drained,
      ⟨nofun, fun hc => absurd (h.killed.mpr hc) hne⟩⟩
  | fetch l pc room some =>
    exact h.byte h0 pc room s.toClient (by rw [myRead_buffered some]; rfl)
      (by rw [myRead_buffered some, s.st.window_cons some]; rfl)
  | recv l bs rest pc room none chan pos le =>
    obtain ⟨c, bs, rfl⟩ : ∃ c bs', bs = c :: bs' := List.exists_cons_of_length_pos pos
    obtain ⟨hrc, hwin, _⟩ := myRead_refill [] none pos le
    refine h.byte h0 pc room rest hrc ?_
    rw [hwin, chan, s.st.window_nil none]
    rfl
  | eof l pc room none chan closed => exact h.eof h0 pc none chan closed
  | full l pc room => exact (h.full h0 pc).2
  | kill pc =>
    have hdr := h.drained (by rw [pc]; rfl)
    have hserv := h.serving hdr.1
    have hshut : s.parent.shut = true := h.fin.symm.trans hserv.1
    have hdone : s.parent.done = true ∧ s.parent.rest = [] := by
      revert hshut
      cases s.parent <;> simp [Parent.shut, Parent.done, Parent.rest]
    have hcons := h.conserve
    unfold State.flight at hcons
    rw [pc, hdone.2] at hcons
    exact ⟨hcons, nofun, fun _ => h.sent hdone.1, hserv.1, h.serving, fun _ => hdr,
      ⟨fun _ => rfl, fun _ => rfl⟩⟩
  | echoRead bs rest pc chan pos le =>
    have hne : s.server ≠ .ret := by rw [pc]; exact nofun
    refine h.move rfl rfl rfl rfl rfl rfl rfl Iff.rfl nofun (fun hd => absurd hd (hbusy hne)) ?_
    dsimp only
    rw [pc, chan]
    simp only [LineEcho.Server.rest, List.append_assoc, List.nil_append]
  | echoEof pc chan closed =>
    have hne : s.server ≠ .ret := by rw [pc]; exact nofun
    have hfin : s.fin = true := by
      rcases closed with hfin | ⟨hp, -⟩
      · exact hfin
      · rw [h.fin, hp]
        rfl
    refine h.move rfl rfl rfl rfl rfl rfl rfl Iff.rfl (fun _ => ⟨hfin, chan⟩)
      (fun hd => absurd hd (hbusy hne)) ?_
    dsimp only
    rw [pc]
    rfl
  | echoWrite bs rest pc some room =>
    have hne : s.server ≠ .ret := by rw [pc]; exact nofun
    refine h.move rfl rfl rfl rfl rfl rfl rfl Iff.rfl
      (fun hr => absurd hr (Server.write_ne_ret rest)) (fun hd => absurd hd (hbusy hne)) ?_
    dsimp only
    rw [LineEcho.Server.write_rest, pc]
    simp only [LineEcho.Server.rest, List.append_assoc]

/-! ## every run ends -/

def Parent.weight : Parent → Nat
  | .fgets => 3
  | .writen _ => 3
  | .shutdown => 2
  | .pause => 1
  | .killed => 0

def Child.weight : Child → Nat
  | .readline _ => 2
  | .kill => 1
  | .exited => 0

def serverWeight : Server → Nat
  | .read => 1
  | .writen _ => 1
  | .ret => 0

theorem rest_read : LineEcho.Server.rest .read = [] := rfl

theorem rest_writen (rest : List UInt8) : LineEcho.Server.rest (.writen rest) = rest := rfl

theorem rest_ret : LineEcho.Server.rest .ret = [] := rfl

/-- how far the bytes and the three have to go -/
def State.weight (s : State) : Nat :=
  7 * s.fp.length + 6 * s.parent.rest.length + 5 * s.toServer.length + 4 * s.server.rest.length +
    3 * s.toClient.length + 2 * s.st.window.length + s.child.acc.length +
    (s.parent.weight + s.child.weight + serverWeight s.server)

theorem Parent.write_weight (rest : List UInt8) : (Parent.write rest).weight = 3 := by
  obtain ⟨h, hw⟩ | ⟨h, hw⟩ := Parent.write_cases rest <;> rw [hw] <;> rfl

theorem serverWeight_write (rest : List UInt8) : serverWeight (Server.write rest) = 1 := by
  unfold Server.write
  split <;> rfl

theorem byte_weight {feed : Feed UInt8} {c : UInt8} (chan : List UInt8)
    (hpc : s.child = .readline l) (hrc : (myRead s.st feed).rc = .byte c) (hn : 0 < l.n)
    (h0 : 0 ∉ l.acc)
    (hless : 3 * chan.length + 2 * (myRead s.st feed).st.window.length + 1 <
      3 * s.toClient.length + 2 * s.st.window.length) :
    (State.turn { s with toClient := chan } l feed).weight < s.weight := by
  unfold State.weight
  cases hnl : isNl c with
  | true =>
    have hno : 0 ∉ l.acc ++ [c] := by
      intro hm
      rcases List.mem_append.mp hm with hm | hm
      · exact h0 hm
      · rw [← List.mem_singleton.mp hm] at hnl
        cases hnl
    rw [turn_marked (by exact hrc) hnl,
      returned_pos (by show (0 : Int) < (l.n : Int); omega) hno, hpc]
    simp only [Child.acc, Child.weight, Loop.init, List.length_nil]
    omega
  | false =>
    rw [turn_unmarked (by exact hrc) hnl, hpc]
    simp only [Child.acc, Child.weight, List.length_append, List.length_singleton]
    omega

theorem Step.weight_lt (h : Inv inp s) (h0 : 0 ∉ inp) (hs : Step cap s w t) :
    t.weight < s.weight := by
  cases hs with
  | fgets pc =>
    unfold State.weight
    rcases eq_or_ne s.fp [] with hnil | hne
    · rw [fgets_end hnil, pc]
      simp only [Parent.rest, Parent.weight]
      omega
    · have hcut := cut_append (p := isNl) (MAXLINE - 1) s.fp
      have hpos := List.length_pos_iff.mpr (cut_ne_nil (p := isNl) (w := MAXLINE - 1) (by decide) hne)
      have hlen := congrArg List.length hcut
      rw [List.length_append] at hlen
      rw [fgets_piece hne (h.zero_notMem_fp h0), pc]
      dsimp only
      rw [Parent.write_rest, Parent.write_weight]
      simp only [Parent.rest, Parent.weight, List.length_nil]
      omega
  | write bs rest pc some room =>
    have hpos := List.length_pos_iff.mpr some
    unfold State.weight
    rw [pc]
    dsimp only
    rw [Parent.write_rest, Parent.write_weight]
    simp only [Parent.rest, Parent.weight, List.length_append]
    omega
  | shutdown pc =>
    unfold State.weight
    rw [pc]
    simp only [Parent.rest, Parent.weight]
    omega
  | fetch l pc room some =>
    refine byte_weight s.toClient pc (by rw [myRead_buffered some]; rfl)
      (by have := (h.reading l pc).n; omega) (h.zero_notMem_acc h0 pc) ?_
    have hlen : s.st.window.length = (myRead s.st []).st.window.length + 1 := by
      rw [myRead_buffered some, s.st.window_cons some]
      rfl
    omega
  | recv l bs rest pc room none chan pos le =>
    obtain ⟨c, bs, rfl⟩ : ∃ c bs', bs = c :: bs' := List.exists_cons_of_length_pos pos
    obtain ⟨hrc, hwin, _⟩ := myRead_refill [] none pos le
    refine byte_weight rest pc hrc (by have := (h.reading l pc).n; omega)
      (h.zero_notMem_acc h0 pc) ?_
    rw [hwin, chan, s.st.window_nil none]
    simp only [List.length_append, List.length_cons, List.length_nil]
    omega
  | eof l pc room none chan closed =>
    have hold := s.st.window_nil none
    obtain ⟨st, hwin, hcase⟩ := eof_cases (h.reading l pc) (h.zero_notMem_acc h0 pc) none
    unfold State.weight
    rcases hcase with ⟨hnil, ht⟩ | ⟨hne, ht⟩
    · rw [ht, pc, hold]
      simp only [Child.acc, Child.weight, hwin, List.length_nil]
      omega
    · have hpos := List.length_pos_iff.mpr hne
      rw [ht, pc, hold]
      simp only [Child.acc, Child.weight, Loop.init, hwin, List.length_nil]
      omega
  | full l pc room =>
    have hread := h.reading l pc
    have hn := hread.n
    have hr := hread.room
    have hm : MAXLINE = 4096 := rfl
    unfold State.weight
    rw [(h.full h0 pc).1, pc]
    simp only [Child.acc, Child.weight, Loop.init, List.length_nil]
    omega
  | kill pc =>
    unfold State.weight
    rw [pc]
    simp only [Child.acc, Child.weight, Parent.rest, Parent.weight, List.length_nil]
    omega
  | echoRead bs rest pc chan pos le =>
    unfold State.weight
    rw [pc, chan]
    simp only [rest_read, rest_writen, serverWeight, List.length_append, List.length_nil]
    omega
  | echoEof pc chan closed =>
    unfold State.weight
    rw [pc]
    simp only [rest_read, rest_ret, serverWeight]
    omega
  | echoWrite bs rest pc some room =>
    have hpos := List.length_pos_iff.mpr some
    unfold State.weight
    rw [pc]
    dsimp only
    rw [LineEcho.Server.write_rest, serverWeight_write]
    simp only [rest_writen, serverWeight, List.length_append]
    omega

/-! ## somebody can go on -/

/-- there is room for a byte of what is to be written, or the channel is not empty -/
theorem room_or_data {chan rest : List UInt8} (hcap : 0 < cap) (hrest : rest ≠ []) :
    (∃ b bs, rest = [b] ++ bs ∧ chan.length + [b].length ≤ cap) ∨ chan ≠ [] := by
  rcases eq_or_ne chan [] with hnil | hne
  · obtain ⟨b, bs, hb⟩ := List.exists_cons_of_ne_nil hrest
    exact Or.inl ⟨b, bs, hb, by rw [hnil]; exact hcap⟩
  · exact Or.inr hne

/-- the child can take a byte, or see the end of file -/
theorem child_moves (hpc : s.child = .readline l)
    (hdata : s.toClient ≠ [] ∨ s.server = .ret ∨ 0 < s.st.readCnt ∨ l.room = 0) :
    ∃ w t, Step cap s w t := by
  rcases Nat.eq_zero_or_pos l.room with hroom | hroom
  · exact ⟨_, _, .full l hpc hroom⟩
  · rcases Nat.eq_zero_or_pos s.st.readCnt with hcnt | hcnt
    · rcases eq_or_ne s.toClient [] with hnil | hne
      · rcases hdata with hd | hd | hd | hd
        · exact absurd hnil hd
        · exact ⟨_, _, .eof l hpc hroom hcnt hnil hd⟩
        · omega
        · omega
      · obtain ⟨b, bs, hb⟩ := List.exists_cons_of_ne_nil hne
        exact ⟨_, _, .recv l [b] bs hpc hroom hcnt hb Nat.one_pos (show 1 ≤ MAXLINE by decide)⟩
    · exact ⟨_, _, .fetch l hpc hroom hcnt⟩

/-- nothing that is written is empty -/
structure Busy (s : State) : Prop where
  parent : ∀ rest, s.parent = .writen rest → rest ≠ []
  server : ∀ rest, s.server = .writen rest → rest ≠ []

theorem busy_start (mem : Nat → UInt8) : Busy (start inp mem) := ⟨nofun, nofun⟩

theorem Parent.write_writen {rest rest' : List UInt8} (h : Parent.write rest = .writen rest') :
    rest' ≠ [] := by
  obtain ⟨-, hw⟩ | ⟨hne, hw⟩ := Parent.write_cases rest
  · rw [hw] at h
    cases h
  · rw [hw] at h
    cases h
    exact hne

theorem server_write_writen {rest rest' : List UInt8} (h : Server.write rest = .writen rest') :
    rest' ≠ [] := by
  unfold Server.write at h
  split at h
  · cases h
  · rename_i hne
    cases h
    exact hne

theorem Step.busy (hs : Step cap s w t) (hinv : Inv inp s) (h0 : 0 ∉ inp) (h : Busy s) : Busy t := by
  -- a step of the child changes neither
  have hkeep {t : State} (hp : t.parent = s.parent) (hsv : t.server = s.server) : Busy t :=
    ⟨by rw [hp]; exact h.parent, by rw [hsv]; exact h.server⟩
  have hreturned (s' : State) (line : Line UInt8) :
      (s'.returned line).parent = s'.parent ∧ (s'.returned line).server = s'.server := by
    unfold State.returned
    split <;> exact ⟨rfl, rfl⟩
  have hturn (s' : State) (l : Loop UInt8) (feed : Feed UInt8) :
      (s'.turn l feed).parent = s'.parent ∧ (s'.turn l feed).server = s'.server := by
    unfold State.turn
    dsimp only
    split
    · exact ⟨rfl, rfl⟩
    · exact hreturned _ _
  cases hs with
  | fgets pc =>
    rcases eq_or_ne s.fp [] with hnil | hne
    · rw [fgets_end hnil]
      exact ⟨nofun, h.server⟩
    · rw [fgets_piece hne (hinv.zero_notMem_fp h0)]
      exact ⟨fun _ hw => Parent.write_writen hw, h.server⟩
  | write bs rest pc some room => exact ⟨fun _ hw => Parent.write_writen hw, h.server⟩
  | shutdown pc => exact ⟨nofun, h.server⟩
  | fetch l pc room some => exact hkeep (hturn s l []).1 (hturn s l []).2
  | recv l bs rest pc room none chan pos le => exact hkeep (hturn _ _ _).1 (hturn _ _ _).2
  | eof l pc room none chan closed => exact hkeep (hturn s l _).1 (hturn s l _).2
  | full l pc room => exact hkeep (hreturned s _).1 (hreturned s _).2
  | kill pc => exact ⟨nofun, h.server⟩
  | echoRead bs rest pc chan pos le =>
    refine ⟨h.parent, fun rest' hr => ?_⟩
    cases hr
    exact List.ne_nil_of_length_pos pos
  | echoEof pc chan closed => exact ⟨h.parent, nofun⟩
  | echoWrite bs rest pc some room => exact ⟨h.parent, fun _ hw => server_write_writen hw⟩

/-- **While not all have ended somebody can go on.** -/
theorem Inv.moves (h : Inv inp s) (hb : Busy s) (hcap : 0 < cap) (hfinal : ¬ Final s) :
    ∃ w t, Step cap s w t := by
  cases hchild : s.child with
  | kill => exact ⟨_, _, .kill hchild⟩
  | exited =>
    have hd := h.drained (by rw [hchild]; rfl)
    exact absurd ⟨h.killed.mpr hchild, hchild, hd.1⟩ hfinal
  | readline l =>
    cases hserver : s.server with
    | ret => exact child_moves hchild (Or.inr (Or.inl hserver))
    | writen rest =>
      have hor : _ ∨ s.toClient ≠ [] := room_or_data hcap (hb.server rest hserver)
      rcases hor with ⟨b, bs, hrest, hroom⟩ | hne
      · exact ⟨_, _, .echoWrite [b] bs (hrest ▸ hserver) (by simp) hroom⟩
      · exact child_moves hchild (Or.inl hne)
    | read =>
      rcases eq_or_ne s.toServer [] with hnil | hne
      · cases hparent : s.parent with
        | fgets => exact ⟨_, _, .fgets hparent⟩
        | writen rest =>
          have hor : _ ∨ s.toServer ≠ [] := room_or_data hcap (hb.parent rest hparent)
          rcases hor with ⟨b, bs, hrest, hroom⟩ | hne
          · exact ⟨_, _, .write [b] bs (hrest ▸ hparent) (by simp) hroom⟩
          · exact absurd hnil hne
        | shutdown => exact ⟨_, _, .shutdown hparent⟩
        | pause =>
          have hfin : s.fin = true := by rw [h.fin, hparent]; rfl
          exact ⟨_, _, .echoEof hserver hnil (Or.inl hfin)⟩
        | killed =>
          have hc := h.killed.mp hparent
          rw [hchild] at hc
          cases hc
      · obtain ⟨b, bs, hchan⟩ := List.exists_cons_of_ne_nil hne
        exact ⟨_, _, .echoRead [b] bs hserver hchan Nat.one_pos (show 1 ≤ MAXLINE by decide)⟩

theorem inv_run {mem : Nat → UInt8} (h0 : 0 ∉ inp) {ws : List Party}
    (h : Run (Step cap) (start inp mem) ws s) : Inv inp s ∧ Busy s := by
  induction h with
  | nil => exact ⟨inv_start mem, busy_start mem⟩
  | snoc _ he ih => exact ⟨ih.1.step h0 he, he.busy ih.1 h0 ih.2⟩

/-- when the child has left its loop everything has been printed -/
theorem Inv.printed (h : Inv inp s) (hd : s.child.done = true) : s.stdout = inp := by
  obtain ⟨hret, hchan, hwin⟩ := h.drained hd
  obtain ⟨hfin, hserver⟩ := h.serving hret
  have hshut : s.parent.shut = true := h.fin.symm.trans hfin
  have hparent : s.parent.done = true ∧ s.parent.rest = [] := by
    revert hshut
    cases s.parent <;> simp [Parent.shut, Parent.done, Parent.rest]
  have hacc : s.child.acc = [] := by
    revert hd
    cases s.child <;> simp [Child.done, Child.acc]
  have hcons := h.conserve
  unfold State.flight at hcons
  rw [hacc, hwin, hchan, hret, rest_ret, hserver, hparent.2, h.sent hparent.1] at hcons
  simpa using hcons

/-- **The two processes and the server.**  For every input without NUL bytes and every capacity of
the connection, no run takes more than `7 * inp.length + 6` steps, what is on `stdout` is always a
prefix of the input, `SIGTERM` comes after all of it has been printed, and where no step is possible
the parent, the child and the server have all ended. -/
theorem fork_echo (inp : List UInt8) (mem : Nat → UInt8) (cap : Nat) (hcap : 0 < cap)
    (h0 : 0 ∉ inp) (ws : List Party) (s : State) (h : Run (Step cap) (start inp mem) ws s) :
    ws.length ≤ 7 * inp.length + 6 ∧ s.stdout <+: inp ∧
      (s.child.done = true ∨ s.parent = .killed → s.stdout = inp) ∧
      ((∀ w t, ¬ Step cap s w t) → Final s ∧ s.stdout = inp) := by
  obtain ⟨hinv, hbusy⟩ := inv_run h0 h
  refine ⟨?_, ⟨_, hinv.conserve⟩, ?_, fun hstop => ?_⟩
  · have hle := h.length_le State.weight (inv_start mem) (fun _ _ _ hi he => hi.step h0 he)
      (fun _ _ _ hi he => he.weight_lt hi h0)
    have hstart : (start inp mem).weight = 7 * inp.length + 6 := rfl
    omega
  · rintro (hd | hk)
    · exact hinv.printed hd
    · exact hinv.printed (by rw [hinv.killed.mp hk]; rfl)
  · have hfinal : Final s := by
      by_contra hne
      obtain ⟨w, t, hstep⟩ := hinv.moves hbusy hcap hne
      exact hstop w t hstep
    exact ⟨hfinal, hinv.printed (by rw [hfinal.child]; rfl)⟩

/-- a line of two bytes, over a connection that holds one -/
theorem fork_echo_line : ∃ ws s, Run (Step 1) (start [97, 10] (fun _ => 0)) ws s ∧ Final s ∧
    s.stdout = [97, 10] ∧ ws.length ≤ 20 := by
  have hfirst : Run (Step 1) (start [97, 10] (fun _ => 0)) [.parent] _ := Run.single (.fgets rfl)
  have hsend := (((hfirst.snoc
    (.write [97] [10] rfl (by decide) (by decide))).snoc
    (.echoRead [97] [] rfl rfl (by decide) (by decide))).snoc
    (.echoWrite [97] [] rfl (by decide) (by decide))).snoc
    (.recv (Loop.init MAXLINE) [97] [] rfl (by decide) rfl rfl (by decide) (by decide))
  have hline := (((hsend.snoc (.write [10] [] rfl (by decide) (by decide))).snoc
    (.echoRead [10] [] rfl rfl (by decide) (by decide))).snoc
    (.echoWrite [10] [] rfl (by decide) (by decide))).snoc
    (.recv _ [10] [] rfl (by decide) rfl rfl (by decide) (by decide))
  have hend := ((((hline.snoc (.fgets rfl)).snoc (.shutdown rfl)).snoc
    (.echoEof rfl rfl (Or.inl rfl))).snoc
    (.eof (Loop.init MAXLINE) rfl (by decide) rfl rfl rfl)).snoc (.kill rfl)
  obtain ⟨hlen, -, hprinted, -⟩ := fork_echo [97, 10] (fun _ => 0) 1 (by decide) (by decide) _ _ hend
  exact ⟨_, _, hend, ⟨rfl, rfl, rfl⟩, hprinted (Or.inr rfl), hlen⟩

end Unp.StrCliFork
