import NetworkProgram.Lib.Answers
import NetworkProgram.Ping.Session

/-!
# What ping prints

Behind the packets of a session are the numbers of the requests: the session asks questions and shows
answers.  In `recvbuf` a packet is followed by what is left of the ones before.

* `Request`, `Arrived`, `Held`   what the bytes under way, at the socket and in `recvbuf` are;
* `Printed`                      the line for a request;
* `sim`                          the session asks and shows;
* `session_answers`              the lines of every run.
-/

namespace Unp.Ping.Session

open Trans

def fill : List UInt8 := List.replicate (datalen - sizeofTimeval) 0xa5

/-- the packet for request `k`, which was sent at `sent[k]` -/
def Request (c : Config) (sent : List Timeval) (k : Nat) (icmp : List UInt8) : Prop :=
  ∃ tv c0 c1, sent[k]? = some tv ∧ Clock tv ∧
    icmp = echoMsg c.e ICMP_ECHO c0 c1 (UInt16.ofNat c.pid) (UInt16.ofNat k) tv fill

/-- the answer to request `k`, or a stray -/
def Arrived (c : Config) (sent : List Timeval) (o : Option Nat) (p : List UInt8) : Prop :=
  match o with
  | none => Stray c p
  | some k => ∃ tv c0 c1, ∃ ip : IpHeader, sent[k]? = some tv ∧ Clock tv ∧
      p = ip.bytes ++ echoMsg c.e ICMP_ECHOREPLY c0 c1 (UInt16.ofNat c.pid) (UInt16.ofNat k) tv fill

/-- it is in `recvbuf` -/
def Held (c : Config) (sent : List Timeval) (o : Option Nat) (n : Nat) (m : Nat → UInt8) : Prop :=
  ∃ p rest, Arrived c sent o p ∧ n = (p.take BUFFSIZE).length ∧ m = received (p.take BUFFSIZE) rest

/-- the line for request `k`: it has the time from sending it to one of `recvd` -/
def Printed (sent recvd : List Timeval) (k : Nat) (l : Line) : Prop :=
  ∃ tv tval ttl, sent[k]? = some tv ∧ tval ∈ recvd ∧
    l = .reply (8 + datalen) (UInt16.ofNat k) ttl (((tval.micros - tv.micros : Int) : Rat) / 1000)

def Line.isReply : Line → Bool
  | .reply .. => true
  | .other .. => false

def replies (out : List Line) : List Line := out.filter Line.isReply

variable {c : Config} {s t : State} {e : Event} {es : List Event} {sent recvd : List Timeval}
  {k n : Nat} {o : Option Nat} {icmp p : List UInt8} {m : Nat → UInt8} {l : Line} {now tval : Timeval}

/-! ## later -/

theorem getElem?_later {tv : Timeval} (hk : sent[k]? = some tv) (more : List Timeval) :
    (sent ++ more)[k]? = some tv := by
  rw [List.getElem?_append_left (List.getElem?_eq_some_iff.mp hk).1, hk]

theorem Request.later (h : Request c sent k icmp) (more : List Timeval) :
    Request c (sent ++ more) k icmp := by
  obtain ⟨tv, c0, c1, hk, hrest⟩ := h
  exact ⟨tv, c0, c1, getElem?_later hk more, hrest⟩

theorem Arrived.later (h : Arrived c sent o p) (more : List Timeval) :
    Arrived c (sent ++ more) o p := by
  cases o with
  | none => exact h
  | some k =>
    obtain ⟨tv, c0, c1, ip, hk, hrest⟩ := h
    exact ⟨tv, c0, c1, ip, getElem?_later hk more, hrest⟩

theorem Held.later (h : Held c sent o n m) (more : List Timeval) : Held c (sent ++ more) o n m := by
  obtain ⟨p, rest, hp, hrest⟩ := h
  exact ⟨p, rest, hp.later more, hrest⟩

theorem Printed.later (h : Printed sent recvd k l) (more more' : List Timeval) :
    Printed (sent ++ more) (recvd ++ more') k l := by
  obtain ⟨tv, tval, ttl, hk, hmem, hl⟩ := h
  exact ⟨tv, tval, ttl, getElem?_later hk more,
    List.mem_append_left _ hmem, hl⟩

/-! ## the packets -/

theorem fill_length : fill.length = 40 := rfl

theorem request_sent {sendbuf : List UInt8} (hbuf : sendbuf.length = BUFSIZE) (hclock : Clock now)
    (hlen : sent.length = k) :
    Request c (sent ++ [now]) k (sendV4 c.e sendbuf c.pid k datalen now) := by
  have hroom : Roomy sendbuf datalen := ⟨hbuf, by decide, by decide⟩
  obtain ⟨c0, c1, heq⟩ := sendV4_eq c.e hroom c.pid k now
  exact ⟨now, c0, c1, hlen ▸ List.getElem?_concat_length, hclock, heq⟩

theorem Request.answer (h : Request c sent k icmp) (e' : Endian) (ip : IpHeader) :
    Arrived c sent (some k) (ip.bytes ++ echoReply e' icmp) := by
  obtain ⟨tv, c0, c1, hk, hclock, rfl⟩ := h
  obtain ⟨r0, r1, hreply⟩ := echoReply_eq c.e e' ICMP_ECHO c0 c1 (UInt16.ofNat c.pid)
    (UInt16.ofNat k) tv fill
  exact ⟨tv, r0, r1, ip, hk, hclock, by rw [hreply]⟩

/-- a stray prints no reply -/
theorem procV4_stray (h : ¬ Own c n m) :
    ∀ l ∈ ((procV4 c.e c.verbose c.pid n tval).run m).toList, Line.isReply l = false := by
  intro l hl
  rw [Option.mem_toList, procV4_run] at hl
  split at hl
  · cases hl
  rename_i hproto
  split at hl
  · cases hl
  rename_i hmin
  split at hl
  · rename_i htype
    split at hl
    · cases hl
    rename_i hid
    refine absurd ⟨not_not.mp hproto, by omega, htype, by omega⟩ h
  · split at hl
    · obtain rfl := Option.some.inj hl
      rfl
    · cases hl

theorem ip_length (ip : IpHeader) : ip.bytes.length ≤ 60 := by
  have hihl := ip.ihl
  omega

theorem Held.proc (h : Held c sent o n m) (htval : tval ∈ recvd) :
    List.Forall₂ (Printed sent recvd) o.toList
      (replies ((procV4 c.e c.verbose c.pid n tval).run m).toList) := by
  obtain ⟨p, rest, harr, rfl, rfl⟩ := h
  cases o with
  | none =>
    have hnone : replies ((procV4 c.e c.verbose c.pid (p.take BUFFSIZE).length tval).run
        (received (p.take BUFFSIZE) rest)).toList = [] :=
      List.filter_eq_nil_iff.mpr fun l hl => by
        rw [procV4_stray (harr rest) l hl]
        exact Bool.false_ne_true
    rw [hnone]
    exact List.Forall₂.nil
  | some k =>
    obtain ⟨tv, c0, c1, ip, hk, hclock, rfl⟩ := harr
    have hip := ip_length ip
    have hmsg : (echoMsg c.e ICMP_ECHOREPLY c0 c1 (UInt16.ofNat c.pid) (UInt16.ofNat k) tv
        fill).length = 8 + datalen := by rw [echoMsg_length, fill_length]; rfl
    have hshort : (ip.bytes ++ echoMsg c.e ICMP_ECHOREPLY c0 c1 (UInt16.ofNat c.pid)
        (UInt16.ofNat k) tv fill).length ≤ BUFFSIZE := by
      rw [List.length_append, hmsg, BUFFSIZE, datalen]
      omega
    have hpid : ((UInt16.ofNat c.pid).toNat : Int) = c.pid := by
      have hlt : c.pid < 65536 := Nat.mod_lt _ (by decide)
      rw [UInt16.toNat_ofNat_of_lt' hlt]
    rw [List.take_of_length_le hshort, procV4_echoMsg hpid hclock.normal hclock.long rfl, hmsg]
    exact List.Forall₂.cons ⟨tv, tval, _, hk, htval, rfl⟩ List.Forall₂.nil

/-! ## the questions -/

/-- the request or packet in `recvbuf` -/
def Hand (c : Config) (sent recvd : List Timeval) (m : Nat → UInt8) (hand : Option (Option Nat)) :
    Pc → Prop
  | .recvmsg => hand = none
  | .gettimeofday n => ∃ o, hand = some o ∧ Held c sent o n m
  | .proc n tval => ∃ o, hand = some o ∧ Held c sent o n m ∧ tval ∈ recvd
  | .stopped _ => True

theorem Hand.later {hand : Option (Option Nat)} {pc : Pc} (h : Hand c sent recvd m hand pc)
    (more : List Timeval) : Hand c (sent ++ more) recvd m hand pc := by
  cases pc with
  | recvmsg => exact h
  | gettimeofday n =>
    obtain ⟨o, ho, hheld⟩ := h
    exact ⟨o, ho, hheld.later more⟩
  | proc n tval =>
    obtain ⟨o, ho, hheld, hmem⟩ := h
    exact ⟨o, ho, hheld.later more, hmem⟩
  | stopped why => trivial

structure Asks (c : Config) (s : State) (a : Answers.State) : Prop where
  asked : a.asked = s.nsent
  sent : s.sent.length = s.nsent
  sendbuf : s.sendbuf.length = BUFSIZE
  alarm : s.alarm = true
  wire : List.Forall₂ (Request c s.sent) a.flight s.wire
  queue : List.Forall₂ (Arrived c s.sent) a.queue s.queue
  hand : Hand c s.sent s.recvd s.recvbuf a.hand s.pc
  out : List.Forall₂ (Printed s.sent s.recvd) a.shown.reduceOption (replies s.out)

def obs : Event → List Answers.Event
  | .alarm _ => [.ask]
  | .recvmsg => [.take]
  | .gettimeofday _ => []
  | .proc => [.put]
  | .fail _ => []
  | .answer => [.answer]
  | .stray => [.stray]
  | .lose => [.lose]
  | .drop => [.drop]

/-- where an element of the second list has been found, one of the first is related to it -/
theorem forall₂_middle {α β : Type} {R : α → β → Prop} {l : List α} {before after : List β} {y : β}
    (h : List.Forall₂ R l (before ++ y :: after)) :
    ∃ l₁ x l₂, l = l₁ ++ x :: l₂ ∧ R x y ∧ List.Forall₂ R (l₁ ++ l₂) (before ++ after) := by
  induction before generalizing l with
  | nil =>
    obtain ⟨x, l₂, hx, h₂, rfl⟩ := List.forall₂_cons_right_iff.mp h
    exact ⟨[], x, l₂, rfl, hx, h₂⟩
  | cons z before ih =>
    obtain ⟨w, l', hw, h', rfl⟩ := List.forall₂_cons_right_iff.mp h
    obtain ⟨l₁, x, l₂, rfl, hx, hrest⟩ := ih h'
    exact ⟨w :: l₁, x, l₂, rfl, hx, List.Forall₂.cons hw hrest⟩

theorem sendV4_length {sendbuf : List UInt8} (hbuf : sendbuf.length = BUFSIZE) :
    (sendV4 c.e sendbuf c.pid k datalen now).length = 8 + datalen := by
  have hroom : Roomy sendbuf datalen := ⟨hbuf, by decide, by decide⟩
  obtain ⟨c0, c1, heq⟩ := sendV4_eq c.e hroom c.pid k now
  rw [heq, echoMsg_length]
  rfl

/-- the request `icmp` is sent -/
theorem asks_send {a : Answers.State} (hreq : Request c (s.sent ++ [now]) s.nsent icmp)
    (hlen : icmp.length = 8 + datalen) (asked : a.asked = s.nsent) (sent : s.sent.length = s.nsent)
    (sendbuf : s.sendbuf.length = BUFSIZE) (wire : List.Forall₂ (Request c s.sent) a.flight s.wire)
    (queue : List.Forall₂ (Arrived c s.sent) a.queue s.queue)
    (hand : Hand c s.sent s.recvd s.recvbuf a.hand s.pc)
    (out : List.Forall₂ (Printed s.sent s.recvd) a.shown.reduceOption (replies s.out)) :
    Asks c
      { s with
        sendbuf := Mem.poke s.sendbuf 0 icmp
        nsent := s.nsent + 1
        wire := s.wire ++ [icmp]
        sent := s.sent ++ [now]
        alarm := true }
      { a with asked := a.asked + 1, flight := a.flight ++ [a.asked] } where
  asked := congrArg (· + 1) asked
  sent := by rw [List.length_append, sent]; rfl
  sendbuf := by
    have hfit : 0 + icmp.length ≤ s.sendbuf.length := by rw [hlen, sendbuf]; decide
    exact (Mem.poke_length hfit).trans sendbuf
  alarm := rfl
  wire := by
    refine List.rel_append (wire.imp fun _ _ h => h.later [now]) (List.Forall₂.cons ?_ List.Forall₂.nil)
    rw [asked]
    exact hreq
  queue := queue.imp fun _ _ h => h.later [now]
  hand := hand.later [now]
  out := out.imp fun _ _ h => List.append_nil s.recvd ▸ h.later [now] []

theorem asks_sigAlrm {a : Answers.State} (hclock : Clock now) (asked : a.asked = s.nsent)
    (sent : s.sent.length = s.nsent) (sendbuf : s.sendbuf.length = BUFSIZE)
    (wire : List.Forall₂ (Request c s.sent) a.flight s.wire)
    (queue : List.Forall₂ (Arrived c s.sent) a.queue s.queue)
    (hand : Hand c s.sent s.recvd s.recvbuf a.hand s.pc)
    (out : List.Forall₂ (Printed s.sent s.recvd) a.shown.reduceOption (replies s.out)) :
    Asks c (s.sigAlrm c now) { a with asked := a.asked + 1, flight := a.flight ++ [a.asked] } :=
  asks_send (request_sent sendbuf hclock sent) (sendV4_length sendbuf) asked sent sendbuf wire queue hand
    out

theorem Asks.step {a : Answers.State} (h : Asks c s a) (hs : Step c s e t) :
    ∃ b, Run Answers.Step a (obs e) b ∧ Asks c t b := by
  obtain ⟨asked, sent, sendbuf, alarm, wire, queue, hand, out⟩ := h
  cases hs with
  | alarm now set on clock =>
    exact ⟨_, Run.single .ask, asks_sigAlrm clock asked sent sendbuf wire queue hand out⟩
  | recvmsg p rest pc hq =>
    rw [hq] at queue
    obtain ⟨o, os, harr, hos, heq⟩ := List.forall₂_cons_right_iff.mp queue
    rw [pc] at hand
    refine ⟨_, Run.single (.take o os hand heq), asked, sent, sendbuf, alarm, wire, hos, ?_, out⟩
    exact ⟨o, rfl, p, s.recvbuf, harr, rfl, rfl⟩
  | gettimeofday n tval pc =>
    rw [pc] at hand
    obtain ⟨o, ho, hheld⟩ := hand
    refine ⟨a, Run.nil, asked, sent, sendbuf, alarm, wire, queue, ?_, ?_⟩
    · exact ⟨o, ho, hheld, List.mem_append_right _ List.mem_cons_self⟩
    · exact out.imp fun _ _ h => List.append_nil s.sent ▸ h.later [] [tval]
  | proc n tval pc =>
    rw [pc] at hand
    obtain ⟨o, ho, hheld, hmem⟩ := hand
    refine ⟨_, Run.single (.put o ho), asked, sent, sendbuf, alarm, wire, queue, rfl, ?_⟩
    show List.Forall₂ _ (a.shown ++ [o]).reduceOption (replies (s.out ++ _))
    rw [Answers.reduceOption_last, replies, List.filter_append]
    exact List.rel_append out (hheld.proc hmem)
  | fail msg on =>
    exact ⟨a, Run.nil, asked, sent, sendbuf, alarm, wire, queue, trivial, out⟩
  | answer icmp before after e' ip hwire =>
    rw [hwire] at wire
    obtain ⟨ks, k, ks', heq, hreq, hrest⟩ := forall₂_middle wire
    refine ⟨_, Run.single (.answer k ks ks' heq), asked, sent, sendbuf, alarm, hrest, ?_, hand, out⟩
    exact List.rel_append queue (List.Forall₂.cons (hreq.answer e' ip) List.Forall₂.nil)
  | stray p hstray =>
    refine ⟨_, Run.single .stray, asked, sent, sendbuf, alarm, wire, ?_, hand, out⟩
    exact List.rel_append queue (List.Forall₂.cons hstray List.Forall₂.nil)
  | lose icmp before after hwire =>
    rw [hwire] at wire
    obtain ⟨ks, k, ks', heq, _, hrest⟩ := forall₂_middle wire
    exact ⟨_, Run.single (.lose k ks ks' heq), asked, sent, sendbuf, alarm, hrest, queue, hand, out⟩
  | drop p before after hq =>
    rw [hq] at queue
    obtain ⟨os, o, os', heq, _, hrest⟩ := forall₂_middle queue
    exact ⟨_, Run.single (.drop o os os' heq), asked, sent, sendbuf, alarm, wire, hrest, hand, out⟩

theorem sim (c : Config) : Sim (Step c) Answers.Step obs (Asks c) where
  step _ _ _ _ h hs := h.step hs

theorem asks_start (recvbuf : Nat → UInt8) (hclock : Clock now) :
    ∃ a, Run Answers.Step Answers.start [.ask] a ∧ Asks c (start c recvbuf now) a := by
  refine ⟨_, Run.single .ask, asks_sigAlrm hclock rfl rfl List.length_replicate ?_ ?_ rfl ?_⟩
  · exact List.Forall₂.nil
  · exact List.Forall₂.nil
  · exact List.Forall₂.nil

/-! ## the lines -/

/-- no request and no packet is lost with it -/
def Event.Keeps : Event → Prop
  | .lose => False
  | .drop => False
  | _ => True

theorem keeps_obs (h : ∀ e ∈ es, e.Keeps) : ∀ e ∈ .ask :: es.flatMap obs, Answers.Event.Keeps e := by
  intro e he
  rcases List.mem_cons.mp he with rfl | he
  · trivial
  · obtain ⟨e', he', hobs⟩ := List.mem_flatMap.mp he
    have hkeeps := h e' he'
    cases e' with
    | lose => exact hkeeps.elim
    | drop => exact hkeeps.elim
    | alarm | recvmsg | proc | answer | stray =>
      obtain rfl := List.mem_singleton.mp hobs
      trivial
    | gettimeofday | fail => cases hobs

/-- **The replies printed are to requests sent, and no two to the same one.**  Each has the sequence
number and the length of its request, and the time from sending it to a reading of the clock behind
`recvmsg`.  An alarm is always to come, and where no packet is lost, every request is answered by a line
once nothing is under way. -/
theorem session_answers (recvbuf : Nat → UInt8) (hclock : Clock now)
    (h : Run (Step c) (start c recvbuf now) es s) :
    s.alarm = true ∧ s.sent.length = s.nsent ∧ ∃ ks : List Nat, ks.Nodup ∧ (∀ k ∈ ks, k < s.nsent) ∧
      List.Forall₂ (Printed s.sent s.recvd) ks (replies s.out) ∧
      ((∀ e ∈ es, e.Keeps) → s.wire = [] → s.queue = [] → s.pc = .recvmsg →
        ks.Perm (List.range s.nsent)) := by
  obtain ⟨a, ha, hr⟩ := asks_start (c := c) recvbuf hclock
  obtain ⟨b, hb, hr'⟩ := (sim c).run hr h
  have hrun : Run Answers.Step Answers.start (.ask :: es.flatMap obs) b := ha.trans hb
  have hshown := (Answers.kept_of_run hrun).shown
  rw [hr'.asked] at hshown
  refine ⟨hr'.alarm, hr'.sent, b.shown.reduceOption, hshown.1, hshown.2, hr'.out, ?_⟩
  intro hkeeps hwire hqueue hpc
  have hflight := hr'.wire
  have hq := hr'.queue
  have hhand := hr'.hand
  rw [hwire] at hflight
  rw [hqueue] at hq
  rw [hpc] at hhand
  rw [← hr'.asked]
  exact Answers.all_shown (keeps_obs hkeeps) hrun (List.forall₂_nil_right_iff.mp hflight)
    (List.forall₂_nil_right_iff.mp hq) hhand

/-- one request, answered: one line -/
theorem session_answers_one : ∃ es s, Run (Step ⟨.little, false, 70000⟩)
    (start ⟨.little, false, 70000⟩ (fun _ => 0) ⟨10, 900000⟩) es s ∧ s.nsent = 1 ∧
    ∃ l, replies s.out = [l] ∧ Printed s.sent s.recvd 0 l := by
  have h0 := (Run.nil : Run (Step ⟨.little, false, 70000⟩)
    (start ⟨.little, false, 70000⟩ (fun _ => 0) ⟨10, 900000⟩) [] _)
  have h1 := h0.snoc (.answer _ [] [] .big plainIp rfl)
  have h2 := h1.snoc (.recvmsg _ [] rfl rfl)
  have h3 := h2.snoc (.gettimeofday _ ⟨11, 100000⟩ rfl)
  have h4 := h3.snoc (.proc _ _ rfl)
  obtain ⟨_, _, ks, _, _, hlines, hall⟩ := session_answers (fun _ => 0)
    ⟨⟨by decide, by decide⟩, ⟨by decide, by decide⟩⟩ h4
  have hks := hall (by simp [Event.Keeps]) rfl rfl rfl
  obtain rfl := List.perm_singleton.mp hks
  obtain ⟨l, ls, hl, hls, heq⟩ := List.forall₂_cons_left_iff.mp hlines
  obtain rfl := List.forall₂_nil_left_iff.mp hls
  exact ⟨_, _, h4, rfl, l, heq, hl⟩

end Unp.Ping.Session
