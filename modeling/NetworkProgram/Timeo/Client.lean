import NetworkProgram.Lib.Lag
import NetworkProgram.Stdio

/-!
# What the clients with a time limit share

`dg_cli` of `advio/Time_alarm_timeout`, `Time_select_timeout` and `Time_RCVTIMEO`, each with the
`dg_echo` of `udpEcho1/server/main.cpp`.  The network keeps the order of the datagrams and may lose
any of them.  A request is carried with its number; the server does not see it.

* `Client.fgets`, `Client.sendto`     a line is read and sent;
* `Client.recvfrom`, `Client.fputs`   a reply is received and printed;
* `Client.timeout`                    the message on `stderr`;
* `NetStep`                           the server and the network;
* `Looks`, `Reported`                 a client looks like an asker that gives up.
-/

namespace Unp.Timeo

open Trans

/-- a request or its reply, with the number of the request -/
abbrev Numbered := List UInt8 × Nat

structure Client where
  /-- what is to come on `fp` -/
  fp : List UInt8
  sent : List (List UInt8)
  toServer : List Numbered
  fromServer : List Numbered
  /-- the receive buffer of the client's socket -/
  socket : List Numbered
  stdout : List UInt8
  /-- the messages on `stderr` -/
  timeouts : Nat

def Client.start (input : List UInt8) : Client := ⟨input, [], [], [], [], [], 0⟩

/-- `Fgets(sendline, MAXLINE, fp)`: the line, and the client behind it -/
def Client.fgets (c : Client) : Option (List UInt8 × Client) :=
  (Unp.fgets MAXLINE c.fp).map (fun r => (r.1, { c with fp := r.2 }))

/-- `Sendto(sockfd, sendline, strlen(sendline), 0, pservaddr, servlen)` -/
def Client.sendto (c : Client) (sendline : List UInt8) : Client :=
  { c with
    sent := c.sent ++ [cstr sendline]
    toServer := c.toServer ++ [(cstr sendline, c.sent.length)] }

/-- the first datagram is taken off the buffer -/
def Client.recvfrom (c : Client) : Client := { c with socket := c.socket.tail }

/-- `recvline[n] = 0; Fputs(recvline, stdout);` -/
def Client.fputs (c : Client) (d : Numbered) : Client :=
  { c with stdout := Unp.fputs (d.1.take MAXLINE) c.stdout }

/-- `fprintf(stderr, "socket timeout\n")` -/
def Client.timeout (c : Client) : Client := { c with timeouts := c.timeouts + 1 }

/-! ## the server and the network -/

inductive NetEvent where
  | echo
  | arrive
  | loseRequest (i : Nat)
  | loseReply (i : Nat)
  deriving DecidableEq, Repr

inductive NetStep (c : Client) : NetEvent → Client → Prop where
  /-- `Recvfrom(sockfd, msg, MAXLINE, ..)`, then `Sendto(sockfd, msg, n, ..)` -/
  | echo (d : Numbered) (rest : List Numbered) (chan : c.toServer = d :: rest) :
      NetStep c .echo
        { c with toServer := rest, fromServer := c.fromServer ++ [(d.1.take MAXLINE, d.2)] }
  | arrive (d : Numbered) (rest : List Numbered) (chan : c.fromServer = d :: rest) :
      NetStep c .arrive { c with fromServer := rest, socket := c.socket ++ [d] }
  | loseRequest (i : Nat) (lt : i < c.toServer.length) :
      NetStep c (.loseRequest i) { c with toServer := c.toServer.eraseIdx i }
  | loseReply (i : Nat) (lt : i < c.fromServer.length) :
      NetStep c (.loseReply i) { c with fromServer := c.fromServer.eraseIdx i }

/-! ## as an asker -/

/-- fits into the buffers, and has no NUL -/
def Plain (line : List UInt8) : Prop := line.length ≤ MAXLINE ∧ 0 ∉ line

theorem Plain.take {line : List UInt8} (h : Plain line) : line.take MAXLINE = line :=
  List.take_of_length_le h.1

theorem Plain.cstr {line : List UInt8} (h : Plain line) : cstr line = line := cstr_of_not_mem h.2

/-- the client `c`, which has taken `hand` off the buffer, looks like the asker `a` -/
structure Looks (hand : List Numbered) (waiting : Bool) (c : Client) (a : Lag.State (List UInt8)) :
    Prop where
  asked : a.asked = c.sent
  flight : a.flight = hand ++ (c.socket ++ (c.fromServer ++ c.toServer))
  out : c.stdout = (a.got.map Lag.Answer.text).flatten
  gaveUp : a.gaveUp = c.timeouts
  waiting : a.waiting = waiting
  plain : ∀ d ∈ a.flight, Plain d.1

variable {hand : List Numbered} {w : Bool} {c c' : Client} {a : Lag.State (List UInt8)}
  {d : Numbered} {rest : List Numbered} {e : NetEvent} {input : List UInt8}

theorem looks_start (input : List UInt8) : Looks [] false (Client.start input) Lag.start :=
  ⟨rfl, rfl, rfl, rfl, rfl, nofun⟩

theorem fgets_length_le {stream : List UInt8} {r : List UInt8 × List UInt8}
    (h : Unp.fgets MAXLINE stream = some r) : r.1.length ≤ MAXLINE := by
  by_cases hs : stream = []
  · rw [hs] at h
    cases h
  · rw [fgets_of_ne_nil hs] at h
    rw [← Option.some.inj h]
    exact Nat.le_succ_of_le (Cut.cut_piece (p := isNl) (MAXLINE - 1) stream).length_le

theorem Looks.fgets (h : Looks hand w c a) {sendline : List UInt8}
    (hc : c.fgets = some (sendline, c')) : Looks hand w c' a ∧ sendline.length ≤ MAXLINE := by
  obtain ⟨r, hr, hrc⟩ := Option.map_eq_some_iff.mp hc
  obtain ⟨rfl, rfl⟩ := Prod.mk.inj hrc
  exact ⟨⟨h.asked, h.flight, h.out, h.gaveUp, h.waiting, h.plain⟩, fgets_length_le hr⟩

/-- a line is sent: the asker asks -/
theorem Looks.sendto (h : Looks hand false c a) {sendline : List UInt8}
    (hlen : sendline.length ≤ MAXLINE) :
    ∃ b, Lag.Step a (.ask (cstr sendline)) b ∧ Looks hand true (c.sendto sendline) b := by
  refine ⟨_, .ask _ h.waiting, congrArg (· ++ [cstr sendline]) h.asked, ?_, h.out, h.gaveUp,
    rfl, ?_⟩
  · show a.flight ++ [(cstr sendline, a.asked.length)] =
      hand ++ (c.socket ++ (c.fromServer ++ (c.toServer ++ [(cstr sendline, c.sent.length)])))
    rw [h.flight, h.asked]
    simp only [List.append_assoc]
  · intro d hd
    rcases List.mem_append.mp hd with hd | hd
    · exact h.plain d hd
    · rw [List.mem_singleton.mp hd]
      exact ⟨(cstr_length_le _).trans hlen, zero_notMem_cstr _⟩

theorem Looks.recvfrom (h : Looks [] w c a) (hs : c.socket = d :: rest) :
    Looks [d] w c.recvfrom a := by
  refine ⟨h.asked, ?_, h.out, h.gaveUp, h.waiting, h.plain⟩
  show a.flight = [d] ++ (c.socket.tail ++ (c.fromServer ++ c.toServer))
  rw [h.flight, hs]
  rfl

/-- a reply is printed: the asker has its answer -/
theorem Looks.fputs (h : Looks [d] true c a) :
    ∃ b, Lag.Step a .answer b ∧ Looks [] false (c.fputs d) b := by
  have hplain : Plain d.1 := h.plain d (by rw [h.flight]; exact List.mem_cons_self)
  let g : Lag.Answer (List UInt8) := ⟨a.asked.length - 1, d.1, d.2, a.gaveUp⟩
  refine ⟨_, .answer d _ h.waiting h.flight, h.asked, rfl, ?_, h.gaveUp, rfl, ?_⟩
  · show Unp.fputs (d.1.take MAXLINE) c.stdout = ((a.got ++ [g]).map Lag.Answer.text).flatten
    rw [List.map_append, List.flatten_append, ← h.out, Unp.fputs, hplain.take, hplain.cstr]
    exact congrArg (c.stdout ++ ·) (List.append_nil d.1).symm
  · exact fun x hx => h.plain x (by rw [h.flight]; exact List.mem_cons_of_mem _ hx)

theorem Looks.timeout (h : Looks [] true c a) :
    ∃ b, Lag.Step a .giveUp b ∧ Looks [] false c.timeout b :=
  ⟨_, .giveUp h.waiting, h.asked, h.flight, h.out, congrArg (· + 1) h.gaveUp, rfl, h.plain⟩

/-! ### the network -/

theorem eraseIdx_middle {a b b' : List Numbered} {i : Nat} (hi : i < b.length) :
    (a ++ (b ++ b')).eraseIdx (a.length + i) = a ++ (b.eraseIdx i ++ b') := by
  rw [List.eraseIdx_append_of_length_le (Nat.le_add_right ..), Nat.add_sub_cancel_left,
    List.eraseIdx_append_of_lt_length hi]

theorem lt_middle {a b b' : List Numbered} {i : Nat} (hi : i < b.length) :
    a.length + i < (a ++ (b ++ b')).length := by
  rw [List.length_append, List.length_append]
  omega

/-- how the asker sees an event of the network -/
def NetEvent.obs : NetEvent → List (Lag.Event (List UInt8))
  | .loseRequest _ => [.lose]
  | .loseReply _ => [.lose]
  | _ => []

theorem Looks.net (h : Looks hand w c a) (hn : NetStep c e c') :
    ∃ b, Run Lag.Step a e.obs b ∧ Looks hand w c' b := by
  obtain ⟨asked, flight, out, gaveUp, waiting, plain⟩ := h
  cases hn with
  | echo d rest chan =>
    have hplain : Plain d.1 := plain d (by rw [flight, chan]; simp)
    refine ⟨a, Run.nil, asked, ?_, out, gaveUp, waiting, plain⟩
    rw [flight, chan, hplain.take]
    simp only [List.append_assoc, List.singleton_append]
  | arrive d rest chan =>
    refine ⟨a, Run.nil, asked, ?_, out, gaveUp, waiting, plain⟩
    rw [flight, chan]
    simp only [List.append_assoc, List.cons_append, List.nil_append]
  | loseRequest i lt =>
    have hflight : a.flight = (hand ++ (c.socket ++ c.fromServer)) ++ (c.toServer ++ []) := by
      rw [flight]
      simp only [List.append_assoc, List.append_nil]
    have hlt : (hand ++ (c.socket ++ c.fromServer)).length + i < a.flight.length := by
      rw [hflight]
      exact lt_middle lt
    refine ⟨_, Run.single (.lose _ hlt), asked, ?_, out, gaveUp, waiting,
      fun x hx => plain x (List.mem_of_mem_eraseIdx hx)⟩
    show a.flight.eraseIdx _ = _
    rw [hflight, eraseIdx_middle lt]
    simp only [List.append_assoc, List.append_nil]
  | loseReply i lt =>
    have hflight : a.flight = (hand ++ c.socket) ++ (c.fromServer ++ c.toServer) := by
      rw [flight, List.append_assoc]
    have hlt : (hand ++ c.socket).length + i < a.flight.length := by
      rw [hflight]
      exact lt_middle lt
    refine ⟨_, Run.single (.lose _ hlt), asked, ?_, out, gaveUp, waiting,
      fun x hx => plain x (List.mem_of_mem_eraseIdx hx)⟩
    show a.flight.eraseIdx _ = _
    rw [hflight, eraseIdx_middle lt]
    simp only [List.append_assoc]

/-- the client looks like the asker `a`, which waits as `waiting` says, if the client has not
ended -/
structure Sees (hand : List Numbered) (waiting : Option Bool) (fits : Prop) (c : Client)
    (a : Lag.State (List UInt8)) : Prop where
  looks : ∃ w, Looks hand w c a ∧ ∀ b ∈ waiting, w = b
  fits : fits

variable {fits : Prop}

theorem Sees.running (h : Sees hand (some w) fits c a) : Looks hand w c a := by
  obtain ⟨v, hl, hv⟩ := h.looks
  rwa [hv w rfl] at hl

theorem Looks.sees (h : Looks hand w c a) (hf : fits) : Sees hand (some w) fits c a :=
  ⟨⟨w, h, fun _ hb => Option.some.inj hb⟩, hf⟩

theorem Looks.ended (h : Looks hand w c a) (hf : fits) : Sees hand none fits c a :=
  ⟨⟨w, h, nofun⟩, hf⟩

theorem Sees.net {waiting : Option Bool} (h : Sees hand waiting fits c a) (hn : NetStep c e c') :
    ∃ b, Run Lag.Step a e.obs b ∧ Sees hand waiting fits c' b := by
  obtain ⟨w, hl, hw⟩ := h.looks
  obtain ⟨b, hb, hl⟩ := hl.net hn
  exact ⟨b, hb, ⟨w, hl, hw⟩, h.fits⟩

theorem Sees.end {waiting : Option Bool} (h : Sees hand waiting fits c a) {fits' : Prop}
    (hf : fits') : Sees hand none fits' c a := by
  obtain ⟨w, hl, -⟩ := h.looks
  exact ⟨⟨w, hl, nofun⟩, hf⟩

/-! ### at the end of a run -/

/-- the answers `got` are what is on `stdout`: they are echoes of lines sent, in order, and each is
late by no more than the number of time-outs before it; by exactly that number where nothing is lost
in the network -/
structure Answered (lossless : Prop) (waiting : Bool) (c : Client)
    (got : List (Lag.Answer (List UInt8))) : Prop where
  stdout : c.stdout = (got.map Lag.Answer.text).flatten
  count : got.length + c.timeouts + waiting.toNat = c.sent.length
  order : (got.map Lag.Answer.num).Pairwise (· < ·)
  echo : ∀ g ∈ got, c.sent[g.num]? = some g.text
  late : ∀ g ∈ got, g.num ≤ g.iter ∧ g.iter ≤ g.num + g.before
  exact : lossless → ∀ g ∈ got, g.iter = g.num + g.before

variable {xs : List (Lag.Event (List UInt8))}

theorem Looks.answered (h : Looks hand w c a) (ha : Run Lag.Step Lag.start xs a) :
    Answered (Lag.Event.lose ∉ xs) w c a.got := by
  obtain ⟨sub, len, count, late, exact⟩ := Lag.good_of_run ha
  have hgot : (a.got.map Lag.Answer.pair).Sublist a.asked.zipIdx :=
    (List.sublist_append_left _ _).trans sub
  refine ⟨h.out, ?_, ?_, fun g hg => ?_, late, fun hlose => exact (Lag.lossless hlose ha)⟩
  · rw [← h.gaveUp, ← h.waiting, count, h.asked]
  · have hp := Lag.pairwise_of_sublist hgot
    rwa [List.map_map] at hp
  · have hmem := hgot.subset (List.mem_map_of_mem hg)
    rw [← h.asked]
    exact List.mem_zipIdx_iff_getElem?.mp hmem

/-- the events `xs` of the asker account for what the client has printed -/
def Reported (xs : List (Lag.Event (List UInt8))) (waiting : Option Bool) (c : Client) : Prop :=
  ∃ a w, Run Lag.Step Lag.start xs a ∧ Answered (Lag.Event.lose ∉ xs) w c a.got ∧
    ∀ b ∈ waiting, w = b

theorem Sees.toReported {waiting : Option Bool} (h : Sees hand waiting fits c a)
    (ha : Run Lag.Step Lag.start xs a) : Reported xs waiting c := by
  obtain ⟨w, hl, hw⟩ := h.looks
  exact ⟨a, w, ha, hl.answered ha, hw⟩

end Unp.Timeo
