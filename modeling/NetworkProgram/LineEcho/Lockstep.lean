import NetworkProgram.LineEcho.Flow

/-!
# When the two never wait for each other

`Whole inp`: the bytes after the last newline are none, or as many as some full buffers.

* `Inv.not_stuck`   then no reachable state is stuck;
* `stuck_reached`   else there is a run to a stuck state, built stage by stage;
* `lockstep_iff`    both together.
-/

namespace Unp.LineEcho
open Trans Cut

variable {inp : List UInt8} {s t : State}

/-- `fgets` never ends at the end of the file with less than a full buffer and without a newline -/
def Whole (inp : List UInt8) : Prop := (tail isNl inp).length % (MAXLINE - 1) = 0

/-! ## whole inputs -/

/-- a line on which both wait has no newline and has not filled `recvline` -/
theorem Inv.stuck_flight (h : Inv inp s) (hs : Stuck s) :
    Unmarked isNl s.flight ∧ s.flight.length < MAXLINE - 1 := by
  obtain ⟨l, hpc, hroom, hcnt⟩ := hs.client
  have hread := h.reading l hpc
  have hflight : s.flight = l.acc := by
    rw [h.flight_reading hpc, s.st.window_nil hcnt, hs.toClient, hs.server, hs.toServer]
    exact List.append_nil _
  rw [hflight]
  have hn := hread.n
  have hr := hread.room
  exact ⟨hread.open_, by omega⟩

theorem Inv.not_stuck (h : Inv inp s) (hw : Whole inp) : ¬ Stuck s := by
  intro hs
  obtain ⟨hopen, hlen⟩ := h.stuck_flight hs
  obtain ⟨l, hpc, _⟩ := hs.client
  obtain ⟨hpiece, hne⟩ := h.piece (by rw [hpc]; rfl)
  have hfp : s.fp = [] := by
    generalize hf : s.flight = f at hpiece hopen hlen
    generalize hg : s.fp = g at hpiece
    cases hpiece with
    | marked _ mark _ =>
      have hx := unmarked_singleton.mp (unmarked_append.mp hopen).2
      rw [mark] at hx
      cases hx
    | full _ eq => omega
    | last _ _ => rfl
  unfold Whole at hw
  rw [← h.conserve, h.settled, hfp, List.append_nil, tail_unmarked hopen, Nat.mod_eq_of_lt hlen]
    at hw
  exact hne (List.eq_nil_of_length_eq_zero hw)

/-- behind `str_cli` everything has been printed -/
theorem Inv.printed (h : Inv inp s) (ho : s.client.gone = true) : s.stdout = inp := by
  have hbusy : s.client.busy = false := by
    cases hc : s.client with
    | fgets => rfl
    | writen rest => rw [hc] at ho; cases ho
    | readline l => rw [hc] at ho; cases ho
    | ret => rfl
    | stopped why => rfl
  have hcons := h.conserve
  rw [h.idle hbusy, h.ended ho] at hcons
  rw [← hcons]
  exact (List.append_nil _).symm

/-! ## a line makes its way -/

/-- at `Fgets`, with nothing under way -/
structure Idle (s : State) : Prop where
  client : s.client = .fgets
  st : s.st.readCnt = 0
  toServer : s.toServer = []
  server : s.server = .read
  toClient : s.toClient = []

/-- `Fgets`, `Writen`, the server's `read` and its `Writen`, each in one go -/
theorem Idle.delivered (h : Idle s) (hne : s.fp ≠ []) (h0 : 0 ∉ s.fp) :
    ∃ ws, Run Step s ws { s with
      fp := (cut isNl (MAXLINE - 1) s.fp).2
      client := .readline (Loop.init MAXLINE)
      toClient := (cut isNl (MAXLINE - 1) s.fp).1 } := by
  have hfgets : Run Step s _ s.fgets := Run.single (.fgets h.client)
  rw [fgets_piece hne h0] at hfgets
  have hpiece := cut_ne_nil (p := isNl) (w := MAXLINE - 1) (by decide) hne
  have hlen := (cut_piece (p := isNl) (MAXLINE - 1) s.fp).length_le
  generalize (cut isNl (MAXLINE - 1) s.fp).1 = line at hfgets hpiece hlen ⊢
  generalize (cut isNl (MAXLINE - 1) s.fp).2 = fp at hfgets ⊢
  obtain ⟨_, _, st, out, _, _, _⟩ := s
  obtain ⟨rfl, _, rfl, rfl, rfl⟩ := h
  have hpos := List.length_pos_iff.mpr hpiece
  have hwrite := hfgets.snoc (Step.write line []
    (by show Client.write line = _; rw [List.append_nil, Client.write, if_neg hpiece]) hpiece)
  have hread := hwrite.snoc (Step.echoRead line [] rfl (List.append_nil line).symm hpos (by omega))
  have hecho := hread.snoc (Step.echoWrite line []
    (congrArg Server.writen (List.append_nil line).symm) hpiece)
  exact ⟨_, hecho⟩

/-- the next byte reaches `readline` -/
theorem next_byte {l : Loop UInt8} {c : UInt8} {rest : List UInt8} (hpc : s.client = .readline l)
    (hroom : 0 < l.room) (hnext : s.st.window ++ s.toClient = c :: rest)
    (hlen : s.toClient.length ≤ MAXLINE) :
    ∃ feed chan, Step s .client (State.turn { s with toClient := chan } l feed) ∧
      (myRead s.st feed).rc = .byte c ∧ (myRead s.st feed).st.window ++ chan = rest ∧
      chan.length ≤ MAXLINE := by
  rcases Nat.eq_zero_or_pos s.st.readCnt with hz | hpos
  · rw [s.st.window_nil hz, List.nil_append] at hnext
    rw [hnext] at hlen
    have hpos : 0 < (c :: rest).length := Nat.succ_pos _
    obtain ⟨hrc, hwin, _⟩ := myRead_refill [] hz hpos hlen
    refine ⟨[.data (c :: rest) hpos hlen], [], ?_, hrc, ?_, Nat.zero_le _⟩
    · exact Step.recv l _ [] hpc hroom hz (by rw [hnext, List.append_nil]) hpos hlen
    · rw [hwin, List.append_nil]
  · refine ⟨[], s.toClient, Step.fetch l hpc hroom hpos, ?_, ?_, hlen⟩
    · rw [s.st.window_cons hpos] at hnext
      rw [myRead_buffered hpos]
      exact congrArg Rc.byte (List.cons.inj hnext).1
    · rw [s.st.window_cons hpos] at hnext
      rw [myRead_buffered hpos]
      exact (List.cons.inj hnext).2

/-- bytes without a newline fill `recvline`, by induction on them -/
theorem fill {l : Loop UInt8} {u v : List UInt8} (hpc : s.client = .readline l)
    (hroom : u.length ≤ l.room) (hnext : s.st.window ++ s.toClient = u ++ v)
    (hlen : s.toClient.length ≤ MAXLINE) (hu : Unmarked isNl u) :
    ∃ ws st chan, st.window ++ chan = v ∧ chan.length ≤ MAXLINE ∧
      Run Step s ws { s with
        client := .readline ⟨l.room - u.length, l.n + u.length, l.acc ++ u⟩
        st := st
        toClient := chan } := by
  induction u generalizing s l with
  | nil =>
    refine ⟨[], s.st, s.toClient, hnext, hlen, ?_⟩
    obtain ⟨_, _, st, out, _, _, _⟩ := s
    obtain rfl := hpc
    rw [List.append_nil]
    exact Run.nil
  | cons c u ih =>
    obtain ⟨hc, hu⟩ := unmarked_cons.mp hu
    obtain ⟨feed, chan, hstep, hrc, hrest, hchan⟩ :=
      next_byte hpc (Nat.lt_of_lt_of_le (Nat.succ_pos _) hroom) hnext hlen
    rw [turn_unmarked (by exact hrc) hc] at hstep
    obtain ⟨ws, st, chan', hv, hchan', hrun⟩ := ih (l := ⟨l.room - 1, l.n + 1, l.acc ++ [c]⟩)
      (s := { s with
        toClient := chan
        st := (myRead s.st feed).st
        client := .readline ⟨l.room - 1, l.n + 1, l.acc ++ [c]⟩ })
      rfl (Nat.le_sub_of_add_le hroom) hrest hchan hu
    refine ⟨[.client] ++ ws, st, chan', hv, hchan', ?_⟩
    convert (Run.single hstep).trans hrun using 4
    · show l.room - (u.length + 1) = l.room - 1 - u.length
      omega
    · show l.n + (u.length + 1) = l.n + 1 + u.length
      omega
    · show l.acc ++ ([c] ++ u) = l.acc ++ [c] ++ u
      rw [List.append_assoc]

theorem returned_pos {line : Line UInt8} (h : 0 < line.ret) :
    s.returned line = { s with client := .fgets, stdout := fputs line.stored s.stdout } := by
  unfold State.returned
  rw [if_neg (by omega), if_neg (by omega)]

/-- a line that ends with a newline is printed -/
theorem print_marked {l : Loop UInt8} {u : List UInt8} {x : UInt8} (hpc : s.client = .readline l)
    (hn : 0 < l.n) (hroom : u.length < l.room) (hnext : s.st.window ++ s.toClient = u ++ [x])
    (hlen : s.toClient.length ≤ MAXLINE) (hu : Unmarked isNl u) (hx : isNl x = true) :
    ∃ ws st, st.readCnt = 0 ∧ Run Step s ws { s with
      client := .fgets
      st := st
      toClient := []
      stdout := fputs (l.acc ++ (u ++ [x])) s.stdout } := by
  obtain ⟨ws, st, chan, hv, hchan, hrun⟩ := fill hpc hroom.le hnext hlen hu
  obtain ⟨feed, chan', hstep, hrc, hrest, _⟩ :=
    next_byte (l := ⟨l.room - u.length, l.n + u.length, l.acc ++ u⟩)
      (s := { s with
        client := .readline ⟨l.room - u.length, l.n + u.length, l.acc ++ u⟩
        st := st
        toClient := chan })
      rfl (Nat.sub_pos_of_lt hroom) hv hchan
  obtain ⟨hwin, rfl⟩ := List.append_eq_nil_iff.mp hrest
  refine ⟨ws ++ [.client], (myRead st feed).st, Statics.readCnt_of_window hwin, ?_⟩
  convert hrun.snoc hstep using 1
  rw [turn_marked (by exact hrc) hx, returned_pos (show (0 : Int) < ((l.n + u.length : Nat) : Int) by omega),
    List.append_assoc]

/-- a line that fills `recvline` is printed -/
theorem print_full {l : Loop UInt8} {u : List UInt8} (hpc : s.client = .readline l) (hn : 0 < l.n)
    (hroom : u.length = l.room) (hnext : s.st.window ++ s.toClient = u)
    (hlen : s.toClient.length ≤ MAXLINE) (hu : Unmarked isNl u) :
    ∃ ws st, st.readCnt = 0 ∧ Run Step s ws { s with
      client := .fgets
      st := st
      toClient := []
      stdout := fputs (l.acc ++ u) s.stdout } := by
  obtain ⟨ws, st, chan, hv, _, hrun⟩ :=
    fill hpc hroom.le (hnext.trans (List.append_nil u).symm) hlen hu
  obtain ⟨hwin, rfl⟩ := List.append_eq_nil_iff.mp hv
  refine ⟨ws ++ [.client], st, st.readCnt_of_window hwin, ?_⟩
  convert hrun.snoc (Step.full _ rfl (Nat.sub_eq_zero_of_le hroom.ge)) using 1
  rw [returned_pos (show (0 : Int) < ((l.n + u.length : Nat) : Int) by omega)]
  rfl

/-! ## stuck -/

/-- **An input that is not whole gets stuck**, by induction on the lines to come. -/
theorem stuck_reached (h : Idle s) (h0 : 0 ∉ s.fp) (hw : ¬ Whole s.fp) :
    ∃ ws t, Run Step s ws t ∧ Stuck t := by
  induction hk : s.fp.length using Nat.strong_induction_on generalizing s with
  | _ k ih =>
    subst hk
    have hne : s.fp ≠ [] := fun hnil => hw (by rw [hnil]; rfl)
    obtain ⟨ws, hrun⟩ := h.delivered hne h0
    have hpiece := cut_piece (p := isNl) (MAXLINE - 1) s.fp
    have happ := cut_append (p := isNl) (MAXLINE - 1) s.fp
    have hcut := cut_ne_nil (p := isNl) (w := MAXLINE - 1) (by decide) hne
    have hle : _ ≤ MAXLINE := hpiece.length_le.trans (Nat.sub_le _ _)
    generalize (cut isNl (MAXLINE - 1) s.fp).1 = line at hrun hpiece happ hcut hle
    generalize (cut isNl (MAXLINE - 1) s.fp).2 = fp at hrun hpiece happ
    have hshort : fp.length < s.fp.length := by
      rw [← happ, List.length_append]
      have := List.length_pos_iff.mpr hcut
      omega
    have hno : 0 ∉ fp := fun hm => h0 (happ ▸ List.mem_append_right _ hm)
    have hnext : s.st.window ++ line = line := by rw [s.st.window_nil h.st, List.nil_append]
    -- after a printed line, the rest of the input gets stuck
    have hgo : ∀ {ws' st out}, st.readCnt = 0 → Settled isNl (MAXLINE - 1) line →
        Run Step s ws' { s with fp := fp, client := .fgets, st := st, toClient := [], stdout := out } →
        ∃ ws t, Run Step s ws t ∧ Stuck t := by
      intro ws' st out hst hset hprinted
      have hbad : ¬ Whole fp := fun hf => hw (by unfold Whole; rw [← happ, hset]; exact hf)
      obtain ⟨ws'', t, hrest, hstuck⟩ := ih fp.length hshort
        (s := { s with fp := fp, client := .fgets, st := st, toClient := [], stdout := out })
        ⟨rfl, hst, h.toServer, h.server, rfl⟩ hno hbad rfl
      exact ⟨_, t, hprinted.trans hrest, hstuck⟩
    cases hpiece with
    | @marked a _ x open_ mark lt =>
      obtain ⟨ws', st, hst, hprint⟩ := print_marked (s := { s with
        fp := fp, client := .readline (Loop.init MAXLINE), toClient := a ++ [x] })
        rfl Nat.one_pos lt hnext hle open_ mark
      exact hgo hst (settled_marked mark) (hrun.trans hprint)
    | full open_ eq =>
      obtain ⟨ws', st, hst, hprint⟩ := print_full (s := { s with
        fp := fp, client := .readline (Loop.init MAXLINE), toClient := line })
        rfl Nat.one_pos eq hnext hle open_
      exact hgo hst (settled_full open_ eq) (hrun.trans hprint)
    | last open_ lt =>
      obtain ⟨ws', st, chan, hv, _, hfill⟩ := fill (s := { s with
        fp := [], client := .readline (Loop.init MAXLINE), toClient := line })
        rfl lt.le (hnext.trans (List.append_nil line).symm) hle open_
      obtain ⟨hwin, rfl⟩ := List.append_eq_nil_iff.mp hv
      exact ⟨_, _, hrun.trans hfill, ⟨⟨_, rfl, Nat.sub_pos_of_lt lt, st.readCnt_of_window hwin⟩,
        h.server, h.toServer, rfl⟩⟩

theorem idle_start (mem : Nat → UInt8) : Idle (start inp mem) := ⟨rfl, rfl, rfl, rfl, rfl⟩

theorem whole_of_not_stuck {mem : Nat → UInt8} (h0 : 0 ∉ inp)
    (h : ∀ ws s, Run Step (start inp mem) ws s → Stuck s → s.stdout = inp) : Whole inp := by
  by_contra hw
  obtain ⟨ws, s, hrun, hs⟩ := stuck_reached (idle_start mem) h0 hw
  have hinv := inv_run h0 hrun
  obtain ⟨l, hpc, _⟩ := hs.client
  have hne : s.flight ≠ [] := (hinv.piece (by rw [hpc]; rfl)).2
  have hcons := hinv.conserve
  rw [h ws s hrun hs, List.append_right_eq_self] at hcons
  exact hne (List.append_eq_nil_iff.mp hcons).1

/-- **Lock step.**  For an input without NUL bytes, no reachable state is stuck before all of the
input has been printed, and the client leaves `str_cli` with exactly the input printed, if and only
if the bytes after the last newline are none or fill the buffer of `Fgets` some whole number of
times. -/
theorem lockstep_iff (inp : List UInt8) (mem : Nat → UInt8) (h0 : 0 ∉ inp) :
    (∀ ws s, Run Step (start inp mem) ws s → Stuck s → s.stdout = inp) ∧
      (∀ ws s, Run Step (start inp mem) ws s → s.client.gone = true → s.stdout = inp) ↔
    Whole inp := by
  constructor
  · rintro ⟨hstuck, _⟩
    exact whole_of_not_stuck h0 hstuck
  · intro hw
    exact ⟨fun ws s hrun hs => absurd hs ((inv_run h0 hrun).not_stuck hw),
      fun ws s hrun ho => (inv_run h0 hrun).printed ho⟩

theorem lockstep_line : Whole [97, 10] ∧
    ∀ ws s, Run Step (start [97, 10] (fun _ => 0)) ws s → Stuck s → s.stdout = [97, 10] :=
  ⟨rfl, ((lockstep_iff [97, 10] (fun _ => 0) (by decide)).mpr rfl).1⟩

/-- an `'a'` without a newline -/
theorem lockstep_unterminated :
    ¬ ∀ inp mem, 0 ∉ inp →
      (∀ ws s, Run Step (start inp mem) ws s → Stuck s → s.stdout = inp) ∧
        (∀ ws s, Run Step (start inp mem) ws s → s.client.gone = true → s.stdout = inp) := by
  intro h
  have hwhole := whole_of_not_stuck (by decide) (h [97] (fun _ => 0) (by decide)).1
  exact absurd hwhole (by unfold Whole; decide)

end Unp.LineEcho
