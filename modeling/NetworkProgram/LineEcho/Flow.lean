import NetworkProgram.Lib.Run
import NetworkProgram.LineEcho.Impl
import NetworkProgram.Readline.Pieces

/-!
# One line at a time

`State.flight`: the bytes between `Fgets` and `Fputs`, wherever they are.  The line in flight is a
piece of the input (`Inv`), and a piece that ends like a line comes back whole (`Inv.whole`).
-/

namespace Unp.LineEcho
open Trans Cut

variable {inp : List UInt8} {s t : State} {w : Party}

def Client.rest : Client → List UInt8
  | .writen rest => rest
  | _ => []

/-- what `readline` has stored -/
def Client.acc : Client → List UInt8
  | .readline l => l.acc
  | _ => []

def Client.busy : Client → Bool
  | .writen _ => true
  | .readline _ => true
  | _ => false

def Server.rest : Server → List UInt8
  | .writen rest => rest
  | _ => []

/-- from the client's `recvline` back to its `sendline` -/
def State.flight (s : State) : List UInt8 :=
  s.client.acc ++ (s.st.window ++ (s.toClient ++ (s.server.rest ++ (s.toServer ++ s.client.rest))))

/-- the loop of `readline(sockfd, recvline, MAXLINE)` -/
structure Reading (l : Loop UInt8) : Prop where
  n : l.n = l.acc.length + 1
  room : l.room + l.n = MAXLINE
  open_ : Unmarked isNl l.acc

structure Inv (inp : List UInt8) (s : State) : Prop where
  conserve : s.stdout ++ (s.flight ++ s.fp) = inp
  idle : s.client.busy = false → s.flight = []
  piece : s.client.busy = true → Piece isNl (MAXLINE - 1) s.flight s.fp ∧ s.flight ≠ []
  reading : ∀ l, s.client = .readline l → Reading l
  ended : s.client.gone = true → s.fp = []
  alive : ∀ why, s.client ≠ .stopped why
  serving : s.server = .ret → s.client.gone = true
  settled : Settled isNl (MAXLINE - 1) s.stdout

theorem inv_start (mem : Nat → UInt8) : Inv inp (start inp mem) where
  conserve := rfl
  idle _ := rfl
  piece h := by cases h
  reading l h := by cases h
  ended h := by cases h
  alive _ h := by cases h
  serving h := by cases h
  settled := settled_nil

/-! ## the two sides of a channel -/

theorem Client.write_acc (rest : List UInt8) : (Client.write rest).acc = [] := by
  unfold Client.write
  split <;> rfl

theorem Client.write_rest (rest : List UInt8) : (Client.write rest).rest = rest := by
  unfold Client.write
  split
  · rename_i h
    exact h.symm
  · rfl

theorem Client.write_busy (rest : List UInt8) : (Client.write rest).busy = true := by
  unfold Client.write
  split <;> rfl

theorem Client.write_gone (rest : List UInt8) : (Client.write rest).gone = false := by
  unfold Client.write
  split <;> rfl

theorem reading_init : Reading (Loop.init MAXLINE) := ⟨rfl, rfl, unmarked_nil⟩

theorem Client.reading_write {rest : List UInt8} {l : Loop UInt8}
    (h : Client.write rest = .readline l) : Reading l := by
  unfold Client.write at h
  split at h
  · cases h
    exact reading_init
  · cases h

theorem Client.write_ne_stopped (rest : List UInt8) (why : Stop) :
    Client.write rest ≠ .stopped why := by
  unfold Client.write
  split <;> exact fun h => by cases h

theorem Server.write_rest (rest : List UInt8) : (Server.write rest).rest = rest := by
  unfold Server.write
  split
  · rename_i h
    exact h.symm
  · rfl

theorem Server.write_ne_ret (rest : List UInt8) : Server.write rest ≠ .ret := by
  unfold Server.write
  split <;> exact fun h => by cases h

/-- bytes move, and the client stays where it is or goes on writing -/
theorem Inv.move (h : Inv inp s) (hfp : t.fp = s.fp) (hout : t.stdout = s.stdout)
    (hflight : t.flight = s.flight) (hbusy : t.client.busy = s.client.busy)
    (hread : ∀ l, t.client = .readline l → Reading l)
    (hover : t.client.gone = s.client.gone) (halive : ∀ why, t.client ≠ .stopped why)
    (hserv : t.server = .ret → t.client.gone = true) : Inv inp t where
  conserve := by rw [hout, hflight, hfp]; exact h.conserve
  idle hb := by rw [hflight]; exact h.idle (hbusy ▸ hb)
  piece hb := by rw [hflight, hfp]; exact h.piece (hbusy ▸ hb)
  reading := hread
  ended ho := by rw [hfp]; exact h.ended (hover ▸ ho)
  alive := halive
  serving := hserv
  settled := by rw [hout]; exact h.settled

/-! ## a call of `readline` -/

theorem Inv.flight_reading (_ : Inv inp s) {l : Loop UInt8} (hpc : s.client = .readline l) :
    s.flight = l.acc ++ (s.st.window ++ (s.toClient ++ (s.server.rest ++ s.toServer))) := by
  unfold State.flight
  rw [hpc]
  show l.acc ++ (_ ++ (_ ++ (_ ++ (_ ++ [])))) = _
  rw [List.append_nil]

theorem Inv.serving_ne (h : Inv inp s) {l : Loop UInt8} (hpc : s.client = .readline l) :
    s.server ≠ .ret := fun hs => by
  have hover := h.serving hs
  rw [hpc] at hover
  cases hover

/-- the call ends with the whole line: the client prints it -/
theorem Inv.returned (h : Inv inp s) (h0 : 0 ∉ inp) (hserv : s.server ≠ .ret) {u : State}
    {line : Line UInt8} (hret : 0 < line.ret) (hall : line.stored = s.flight)
    (hend : Settled isNl (MAXLINE - 1) line.stored)
    (hfp : u.fp = s.fp) (hout : u.stdout = s.stdout) (hserver : u.server = s.server)
    (hempty : u.st.window ++ (u.toClient ++ (u.server.rest ++ u.toServer)) = []) :
    Inv inp (u.returned line) := by
  have hno : 0 ∉ line.stored := by
    intro hm
    rw [hall] at hm
    exact h0 (h.conserve ▸ List.mem_append_right _ (List.mem_append_left _ hm))
  have hnew : u.returned line =
      { u with client := .fgets, stdout := u.stdout ++ line.stored } := by
    unfold State.returned fputs
    rw [if_neg (by omega), if_neg (by omega), cstr_of_not_mem hno]
  have hflight : State.flight { u with client := .fgets, stdout := u.stdout ++ line.stored } = [] := by
    show u.st.window ++ (u.toClient ++ (u.server.rest ++ (u.toServer ++ []))) = []
    rw [List.append_nil, hempty]
  rw [hnew]
  exact
    { conserve := by
        rw [hflight, ← h.conserve, ← hall]
        show (u.stdout ++ line.stored) ++ u.fp = _
        rw [hout, hfp, List.append_assoc]
      idle := fun _ => hflight
      piece := fun hb => by cases hb
      reading := fun l hl => by cases hl
      ended := fun ho => by cases ho
      alive := fun _ hc => by cases hc
      serving := fun hs => absurd (hserver ▸ hs) hserv
      settled := by
        show Settled isNl (MAXLINE - 1) (u.stdout ++ line.stored)
        rw [hout]
        exact h.settled.append hend }

theorem turn_marked {l : Loop UInt8} {feed : Feed UInt8} {c : UInt8}
    (hrc : (myRead s.st feed).rc = .byte c) (hnl : isNl c = true) :
    s.turn l feed =
      State.returned { s with st := (myRead s.st feed).st } ⟨l.n, l.acc ++ [c], true⟩ := by
  unfold State.turn Loop.turn
  dsimp only
  rw [hrc]
  dsimp only
  rw [if_pos hnl]

theorem turn_unmarked {l : Loop UInt8} {feed : Feed UInt8} {c : UInt8}
    (hrc : (myRead s.st feed).rc = .byte c) (hnl : isNl c = false) :
    s.turn l feed =
      { s with
        st := (myRead s.st feed).st
        client := .readline ⟨l.room - 1, l.n + 1, l.acc ++ [c]⟩ } := by
  unfold State.turn Loop.turn
  dsimp only
  rw [hrc]
  dsimp only
  rw [if_neg (by rw [hnl]; exact Bool.false_ne_true)]

/-- `my_read` has returned the next byte -/
theorem Inv.byte (h : Inv inp s) (h0 : 0 ∉ inp) {l : Loop UInt8} (hpc : s.client = .readline l)
    (hroom : 0 < l.room) {feed : Feed UInt8} {c : UInt8} (chan : List UInt8)
    (hrc : (myRead s.st feed).rc = .byte c)
    (hnext : c :: ((myRead s.st feed).st.window ++ chan) = s.st.window ++ s.toClient) :
    Inv inp (State.turn { s with toClient := chan } l feed) := by
  have hread := h.reading l hpc
  have hflight : s.flight = l.acc ++ c :: ((myRead s.st feed).st.window ++
      (chan ++ (s.server.rest ++ s.toServer))) := by
    rw [h.flight_reading hpc, ← List.append_assoc (myRead s.st feed).st.window,
      ← List.cons_append, hnext, List.append_assoc]
  have hserv := h.serving_ne hpc
  cases hnl : isNl c with
  | true =>
    have hpiece := (h.piece (by rw [hpc]; rfl)).1
    rw [hflight] at hpiece
    have hnil := hpiece.rest_nil hnl
    rw [turn_marked (by exact hrc) hnl]
    refine h.returned h0 hserv ?_ ?_ (settled_marked hnl) rfl rfl rfl hnil
    · show (0 : Int) < (l.n : Int)
      have := hread.n
      omega
    · rw [hflight, hnil]
  | false =>
    rw [turn_unmarked (by exact hrc) hnl]
    refine h.move rfl rfl ?_ (by rw [hpc]; rfl) ?_ (by rw [hpc]; rfl) (fun _ hc => by cases hc)
      (fun hs => absurd hs hserv)
    · rw [hflight]
      show (l.acc ++ [c]) ++ (_ ++ (chan ++ (s.server.rest ++ (s.toServer ++ [])))) = _
      rw [List.append_nil, List.append_assoc]
      rfl
    · intro l' hl'
      cases hl'
      refine ⟨?_, ?_, unmarked_append.mpr ⟨hread.open_, unmarked_singleton.mpr hnl⟩⟩
      · show l.n + 1 = (l.acc ++ [c]).length + 1
        rw [List.length_append, hread.n]
        rfl
      · show l.room - 1 + (l.n + 1) = MAXLINE
        have := hread.room
        omega

/-- `readline` has no more room -/
theorem Inv.full (h : Inv inp s) (h0 : 0 ∉ inp) {l : Loop UInt8} (hpc : s.client = .readline l)
    (hroom : l.room = 0) : Inv inp (s.returned l.full) := by
  have hread := h.reading l hpc
  have hn := hread.n
  have hr := hread.room
  have hlen := (h.piece (by rw [hpc]; rfl)).1.length_le
  have hflight := h.flight_reading hpc
  have hnil : s.st.window ++ (s.toClient ++ (s.server.rest ++ s.toServer)) = [] := by
    apply List.eq_nil_of_length_eq_zero
    rw [hflight, List.length_append] at hlen
    omega
  have hend : Settled isNl (MAXLINE - 1) l.acc := settled_full hread.open_ (by omega)
  refine h.returned h0 (h.serving_ne hpc) ?_ ?_ hend rfl rfl rfl hnil
  · show (0 : Int) < (l.n : Int)
    omega
  · rw [hflight, hnil, List.append_nil]
    rfl

/-! ## the steps -/

theorem fgets_end (h : s.fp = []) : s.fgets = { s with client := .ret } := by
  unfold State.fgets
  rw [h]
  rfl

theorem fgets_piece (h : s.fp ≠ []) (h0 : 0 ∉ s.fp) : s.fgets =
    { s with
      fp := (cut isNl (MAXLINE - 1) s.fp).2
      client := .write (cut isNl (MAXLINE - 1) s.fp).1 } := by
  have hno : 0 ∉ (cut isNl (MAXLINE - 1) s.fp).1 := fun hm =>
    h0 (cut_append (p := isNl) (MAXLINE - 1) s.fp ▸ List.mem_append_left _ hm)
  unfold State.fgets
  rw [fgets_of_ne_nil h]
  dsimp only
  rw [cstr_of_not_mem hno]

theorem Inv.fgets (h : Inv inp s) (h0 : 0 ∉ inp) (hpc : s.client = .fgets) : Inv inp s.fgets := by
  have hidle : s.flight = [] := h.idle (by rw [hpc]; rfl)
  have hserv : s.server ≠ .ret := fun hs => by
    have hover := h.serving hs
    rw [hpc] at hover
    cases hover
  have hcons := h.conserve
  rw [hidle] at hcons
  rcases eq_or_ne s.fp [] with hnil | hne
  · rw [fgets_end hnil]
    have hflight : State.flight { s with client := .ret } = [] := by
      unfold State.flight at hidle ⊢
      rw [hpc] at hidle
      exact hidle
    exact
      { conserve := by rw [hflight]; exact hcons
        idle := fun _ => hflight
        piece := fun hb => by cases hb
        reading := fun l hl => by cases hl
        ended := fun _ => hnil
        alive := fun _ hc => by cases hc
        serving := fun _ => rfl
        settled := h.settled }
  · rw [fgets_piece hne (fun hm => h0 (hcons ▸ List.mem_append_right _ hm))]
    have hflight : State.flight { s with
        fp := (cut isNl (MAXLINE - 1) s.fp).2
        client := .write (cut isNl (MAXLINE - 1) s.fp).1 } = (cut isNl (MAXLINE - 1) s.fp).1 := by
      unfold State.flight at hidle ⊢
      rw [hpc] at hidle
      simp only [Client.acc, Client.rest, List.append_eq_nil_iff] at hidle
      obtain ⟨-, hwin, hcl, hsr, hsv, -⟩ := hidle
      dsimp only
      rw [Client.write_acc, Client.write_rest, hwin, hcl, hsr, hsv]
      rfl
    exact
      { conserve := by
          rw [hflight]
          show s.stdout ++ _ = inp
          rw [cut_append]
          exact hcons
        idle := fun hb => by rw [Client.write_busy] at hb; cases hb
        piece := fun _ => by
          rw [hflight]
          exact ⟨cut_piece _ _, cut_ne_nil (by decide) hne⟩
        reading := fun l hl => Client.reading_write hl
        ended := fun ho => by rw [Client.write_gone] at ho; cases ho
        alive := fun why => Client.write_ne_stopped _ why
        serving := fun hs => absurd hs hserv
        settled := h.settled }

theorem Inv.step (h : Inv inp s) (h0 : 0 ∉ inp) (hs : Step s w t) : Inv inp t := by
  cases hs with
  | fgets pc => exact h.fgets h0 pc
  | write bs rest pc some =>
    refine h.move rfl rfl ?_ (by rw [Client.write_busy, pc]; rfl)
      (fun l hl => Client.reading_write hl) (by rw [Client.write_gone, pc]; rfl)
      (fun why => Client.write_ne_stopped _ why) (fun hsv => ?_)
    · unfold State.flight
      dsimp only
      rw [Client.write_acc, Client.write_rest, pc, List.append_assoc s.toServer]
      rfl
    · have hover := h.serving hsv
      rw [pc] at hover
      cases hover
  | fetch l pc room some =>
    exact h.byte h0 pc room s.toClient (by rw [myRead_buffered some]; rfl)
      (by rw [myRead_buffered some, s.st.window_cons some]; rfl)
  | recv l bs rest pc room none chan pos le =>
    obtain ⟨c, bs, rfl⟩ : ∃ c bs', bs = c :: bs' := List.exists_cons_of_length_pos pos
    obtain ⟨hrc, hwin, _⟩ := myRead_refill [] none pos le
    refine h.byte h0 pc room rest hrc ?_
    rw [hwin, chan, s.st.window_nil none]
    rfl
  | eof l pc room none chan closed => exact absurd closed (h.serving_ne pc)
  | full l pc room => exact h.full h0 pc room
  | echoRead bs rest pc chan pos le =>
    refine h.move rfl rfl ?_ rfl h.reading rfl h.alive (fun hs => by cases hs)
    unfold State.flight
    rw [pc, chan]
    show _ = _ ++ (_ ++ (_ ++ ([] ++ (bs ++ rest ++ _))))
    rw [List.nil_append, List.append_assoc bs]
    rfl
  | echoEof pc chan closed =>
    refine h.move rfl rfl ?_ rfl h.reading rfl h.alive (fun _ => closed)
    unfold State.flight
    rw [pc]
    rfl
  | echoWrite bs rest pc some =>
    refine h.move rfl rfl ?_ rfl h.reading rfl h.alive
      (fun hs => absurd hs (Server.write_ne_ret rest))
    unfold State.flight
    dsimp only
    rw [Server.write_rest, pc, List.append_assoc s.toClient]
    show _ = _ ++ (_ ++ (_ ++ (bs ++ rest ++ _)))
    rw [List.append_assoc bs]

theorem inv_run {mem : Nat → UInt8} (h0 : 0 ∉ inp) {ws : List Party}
    (h : Run Step (start inp mem) ws s) : Inv inp s :=
  h.inv (inv_start mem) (fun _ _ _ hinv hs => hinv.step h0 hs)

end Unp.LineEcho
