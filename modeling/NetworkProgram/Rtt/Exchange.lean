import NetworkProgram.Lib.Run
import NetworkProgram.Rtt.SendRecv

/-!
# A call of `dg_send_recv` takes an answer to itself

Three invariants of the runs of `Step`:

* `Hist`      every request carries the number of its call as `seq`, every answer is to a request;
* `Budget`    what a call has sent and how often it timed out, by the place in the code;
* `Taken`     what `recvhdr` and `inbuff` hold after a `Recvmsg`, by the place in the code.

`Results` adds up what they say of the values returned, and below `2^32` calls the number of a call
can be read off its `seq` (`exchange`).
-/

namespace Unp
open Trans

variable {e : Endian} {s t : Dg} {ev : Event}

/-- the two ways on from a timeout -/
theorem Dg.timeout_cases (s : Dg) :
    (RTT_MAXNREXMT ≤ s.rttinfo.rttNrexmt ∧ s.timeout =
      { s with
        pc := .idle, rttinfo := (rttTimeout s.rttinfo).2, rttinit := false
        returned := s.returned ++ [⟨s.calls, -1, some ETIMEDOUT, s.inbuff, none⟩] }) ∨
    (s.rttinfo.rttNrexmt < RTT_MAXNREXMT ∧ s.timeout =
      { s with pc := .sendagain, rttinfo := (rttTimeout s.rttinfo).2 }) := by
  have hret := rttTimeout_ret s.rttinfo
  by_cases h : RTT_MAXNREXMT ≤ s.rttinfo.rttNrexmt
  · refine Or.inl ⟨h, ?_⟩
    unfold Dg.timeout
    exact if_pos (hret.mpr h)
  · refine Or.inr ⟨by omega, ?_⟩
    unfold Dg.timeout
    exact if_neg (fun hlt => h (hret.mp hlt))

/-! ## sequence numbers -/

structure Hist (s : Dg) : Prop where
  seq : s.sendhdr.seq = UInt32.ofNat s.calls
  sent : ∀ q ∈ s.sent, q.call ≤ s.calls ∧ q.hdr.seq = UInt32.ofNat q.call
  answers : ∀ a ∈ s.answers, a.req ∈ s.sent

theorem hist_init : Hist Dg.init :=
  ⟨rfl, fun _ h => absurd h List.not_mem_nil, fun _ h => absurd h List.not_mem_nil⟩

theorem Hist.step (h : Hist s) (hs : Step e s ev t) : Hist t := by
  cases hs with
  | call tv outbuff inbytes pc =>
    refine ⟨?_, fun q hq => ⟨Nat.le_succ_of_le (h.sent q hq).1, (h.sent q hq).2⟩, h.answers⟩
    show s.sendhdr.seq + 1 = UInt32.ofNat (s.calls + 1)
    rw [h.seq, UInt32.ofNat_add]
    rfl
  | stamp tv pc => exact ⟨h.seq, h.sent, h.answers⟩
  | sendmsg pc =>
    refine ⟨h.seq, ?_, fun a ha => List.mem_append_left _ (h.answers a ha)⟩
    intro q hq
    rcases List.mem_append.mp hq with hq | hq
    · exact h.sent q hq
    · obtain rfl := List.mem_singleton.mp hq
      exact ⟨Nat.le_refl _, h.seq⟩
  | serve req payload mem =>
    refine ⟨h.seq, h.sent, ?_⟩
    intro a ha
    rcases List.mem_append.mp ha with ha | ha
    · exact h.answers a ha
    · obtain rfl := List.mem_singleton.mp ha
      exact mem
  | timeout pc =>
    rcases s.timeout_cases with ⟨_, ht⟩ | ⟨_, ht⟩
    · rw [ht]; exact ⟨h.seq, h.sent, h.answers⟩
    · rw [ht]; exact ⟨h.seq, h.sent, h.answers⟩
  | setAlarm pc => exact ⟨h.seq, h.sent, h.answers⟩
  | setjmp pc => exact ⟨h.seq, h.sent, h.answers⟩
  | recvAnswer a pc mem => exact ⟨h.seq, h.sent, h.answers⟩
  | recvShort d pc short => exact ⟨h.seq, h.sent, h.answers⟩
  | test n pc => exact ⟨h.seq, h.sent, h.answers⟩
  | stopAlarm n pc => exact ⟨h.seq, h.sent, h.answers⟩
  | stop n tv pc => exact ⟨h.seq, h.sent, h.answers⟩
  | sigalrm armed saved => exact ⟨h.seq, h.sent, h.answers⟩
  | sigalrmStale armed stale => exact ⟨h.seq, h.sent, h.answers⟩
  | sysErr pc => exact ⟨h.seq, h.sent, h.answers⟩

/-! ## how often a call sends -/

/-- the datagrams sent by call `c` -/
def Dg.sends (s : Dg) (c : Nat) : Nat := s.sent.countP (fun q => q.call = c)

/-- the timer is armed at these places only -/
def Pc.waits : Pc → Prop
  | .sigsetjmp | .recv | .test _ | .alarm0 _ => True
  | _ => False

/-- `sends` and `timeouts` of the current call at a place, with `k` for `rtt_nrexmt` -/
def Pc.budget (pc : Pc) (k sends timeouts : Nat) : Prop :=
  match pc with
  | .idle | .exited => True
  | .sendagain | .send => sends = k ∧ timeouts = k ∧ k ≤ RTT_MAXNREXMT
  | .alarm | .sigsetjmp | .recv | .test _ | .alarm0 _ | .stop _ =>
    sends = k + 1 ∧ timeouts = k ∧ k ≤ RTT_MAXNREXMT
  | .timeout => sends = k + 1 ∧ timeouts = k + 1 ∧ k ≤ RTT_MAXNREXMT

structure Budget (s : Dg) : Prop where
  now : s.pc.budget s.rttinfo.rttNrexmt (s.sends s.calls) (s.timeouts.count s.calls)
  armed : s.armed = true → s.pc.waits
  all : ∀ c, s.sends c ≤ 1 + RTT_MAXNREXMT
  past : ∀ c ∈ s.timeouts, c ≤ s.calls

theorem budget_init : Budget Dg.init :=
  ⟨trivial, (fun h => absurd h Bool.false_ne_true), fun _ => Nat.zero_le _,
    fun _ h => absurd h List.not_mem_nil⟩

theorem Budget.off (h : Budget s) {pc : Pc} (hpc : s.pc = pc) (hw : ¬ pc.waits) :
    ¬ s.armed = true := fun ha => hw (hpc ▸ h.armed ha)

theorem Dg.sends_sendmsg (s : Dg) (c : Nat) :
    s.sendmsg.sends c = s.sends c + if s.calls = c then 1 else 0 := by
  show (s.sent ++ [_]).countP _ = _
  rw [List.countP_append, List.countP_singleton]
  simp only [decide_eq_true_eq]
  rfl

/-- a call that has just begun has sent nothing and has not timed out -/
theorem Budget.fresh (h : Budget s) (hh : Hist s) :
    s.sends (s.calls + 1) = 0 ∧ s.timeouts.count (s.calls + 1) = 0 := by
  refine ⟨List.countP_eq_zero.mpr ?_, List.count_eq_zero.mpr ?_⟩
  · intro q hq hc
    have hle := (hh.sent q hq).1
    rw [decide_eq_true_eq] at hc
    omega
  · intro hc
    have hle := h.past _ hc
    omega

/-- `sigalrm` at a place where the timer is armed -/
theorem Pc.budget_timeout {pc : Pc} {k sends timeouts : Nat} (hw : pc.waits)
    (hb : pc.budget k sends timeouts) : Pc.timeout.budget k sends (timeouts + 1) := by
  cases pc with
  | sigsetjmp | recv | test _ | alarm0 _ =>
    obtain ⟨hsends, htime, hk⟩ := hb
    exact ⟨hsends, congrArg (· + 1) htime, hk⟩
  | _ => exact hw.elim

/-- the current call sends once more, as far as the budget goes -/
theorem Budget.sendmsg (h : Budget s) (hpc : s.pc = .send) : Budget s.sendmsg := by
  have hnow := h.now
  rw [hpc] at hnow
  obtain ⟨hsends, htime, hk⟩ := hnow
  have hoff := h.off hpc id
  refine ⟨⟨?_, htime, hk⟩, fun ha => absurd ha hoff, ?_, h.past⟩
  · show s.sendmsg.sends s.calls = _
    rw [s.sends_sendmsg, if_pos rfl, hsends]
    rfl
  · intro c
    rw [s.sends_sendmsg]
    by_cases hc : s.calls = c
    · rw [if_pos hc, ← hc, hsends]
      omega
    · rw [if_neg hc]
      exact h.all c

theorem Budget.step (h : Budget s) (hh : Hist s) (hs : Step e s ev t) : Budget t := by
  have hnow := h.now
  cases hs with
  | call tv outbuff inbytes pc =>
    obtain ⟨h0, h1⟩ := h.fresh hh
    have hoff := h.off pc id
    exact ⟨⟨h0, h1, Nat.zero_le _⟩, fun ha => absurd ha hoff, h.all,
      fun c hc => Nat.le_succ_of_le (h.past c hc)⟩
  | stamp tv pc =>
    rw [pc] at hnow
    have hoff := h.off pc id
    exact ⟨hnow, fun ha => absurd ha hoff, h.all, h.past⟩
  | sendmsg pc => exact h.sendmsg pc
  | setAlarm pc =>
    rw [pc] at hnow
    exact ⟨hnow, fun _ => trivial, h.all, h.past⟩
  | setjmp pc =>
    rw [pc] at hnow
    exact ⟨hnow, fun _ => trivial, h.all, h.past⟩
  | recvAnswer a pc mem =>
    rw [pc] at hnow
    exact ⟨hnow, fun _ => trivial, h.all, h.past⟩
  | recvShort d pc short =>
    rw [pc] at hnow
    exact ⟨hnow, fun _ => trivial, h.all, h.past⟩
  | test n pc =>
    rw [pc] at hnow
    have hpc : (s.loop e n).pc = .recv ∨ (s.loop e n).pc = .alarm0 n := by
      show (if s.again e n then Pc.recv else Pc.alarm0 n) = _ ∨ _
      by_cases ha : s.again e n
      · exact Or.inl (if_pos ha)
      · exact Or.inr (if_neg ha)
    rcases hpc with hpc | hpc
    · refine ⟨?_, fun _ => ?_, h.all, h.past⟩
      · rw [hpc]; exact hnow
      · rw [hpc]; trivial
    · refine ⟨?_, fun _ => ?_, h.all, h.past⟩
      · rw [hpc]; exact hnow
      · rw [hpc]; trivial
  | stopAlarm n pc =>
    rw [pc] at hnow
    exact ⟨hnow, fun ha => absurd ha Bool.false_ne_true, h.all, h.past⟩
  | stop n tv pc =>
    have hoff := h.off pc id
    exact ⟨trivial, fun ha => absurd ha hoff, h.all, h.past⟩
  | sigalrm armed saved =>
    refine ⟨?_, fun ha => absurd ha Bool.false_ne_true, h.all, fun c hc => ?_⟩
    · show s.sends s.calls = _ ∧ (s.timeouts ++ [s.calls]).count s.calls = _ ∧ _
      rw [List.count_append, List.count_singleton_self]
      exact Pc.budget_timeout (h.armed armed) hnow
    · rcases List.mem_append.mp hc with hc | hc
      · exact h.past c hc
      · exact Nat.le_of_eq (List.mem_singleton.mp hc)
  | timeout pc =>
    rw [pc] at hnow
    obtain ⟨hsends, htime, hk⟩ := hnow
    have hoff := h.off pc id
    rcases s.timeout_cases with ⟨_, ht⟩ | ⟨hlt, ht⟩
    · rw [ht]
      exact ⟨trivial, fun ha => absurd ha hoff, h.all, h.past⟩
    · rw [ht]
      exact ⟨⟨hsends, htime, hlt⟩, fun ha => absurd ha hoff, h.all, h.past⟩
  | sigalrmStale armed stale =>
    exact ⟨trivial, fun ha => absurd ha Bool.false_ne_true, h.all, h.past⟩
  | sysErr pc => exact ⟨trivial, fun ha => absurd ha Bool.false_ne_true, h.all, h.past⟩
  | serve req payload mem => exact ⟨hnow, h.armed, h.all, h.past⟩

/-! ## what a `Recvmsg` leaves behind -/

/-- the last datagram was the answer `a`: its header is in `recvhdr`, its payload in `inbuff`, and
`n` counts both -/
structure Took (e : Endian) (s : Dg) (n : Nat) (a : Answer) : Prop where
  last : s.last = some a
  mem : a ∈ s.answers
  hdr : load32 e s.recvhdr 0 = a.req.hdr.seq
  inbuff : s.inbuff <+: a.payload
  n : n = sizeofHdr + s.inbuff.length

/-- the loop of `Recvmsg` is left with an answer to the current call -/
def Fits (e : Endian) (s : Dg) (n : Nat) : Prop :=
  ∃ a, Took e s n a ∧ a.req.hdr.seq = s.sendhdr.seq

def Pc.taken (e : Endian) (s : Dg) : Pc → Prop
  | .test n => sizeofHdr ≤ n → ∃ a, Took e s n a
  | .alarm0 n | .stop n => Fits e s n
  | _ => True

/-- new answers change nothing of it -/
theorem Pc.taken_mono (pc : Pc) (h : pc.taken e s) (hlast : t.last = s.last)
    (hans : s.answers ⊆ t.answers) (hhdr : t.recvhdr = s.recvhdr) (hin : t.inbuff = s.inbuff)
    (hseq : t.sendhdr = s.sendhdr) : pc.taken e t := by
  have hmono : ∀ n a, Took e s n a → Took e t n a := fun n a ht =>
    ⟨hlast.trans ht.last, hans ht.mem, hhdr ▸ ht.hdr, hin ▸ ht.inbuff, hin ▸ ht.n⟩
  cases pc with
  | test n => exact fun hn => (h hn).imp (fun a ht => hmono n a ht)
  | alarm0 n => exact h.imp (fun a ht => ⟨hmono n a ht.1, hseq ▸ ht.2⟩)
  | stop n => exact h.imp (fun a ht => ⟨hmono n a ht.1, hseq ▸ ht.2⟩)
  | _ => trivial

structure Taken (e : Endian) (s : Dg) : Prop where
  now : s.pc.taken e s
  hdrLen : s.recvhdr.length = sizeofHdr

theorem taken_init : Taken e Dg.init := ⟨trivial, rfl⟩

theorem Hdr.bytes_length (e : Endian) (h : Hdr) : (h.bytes e).length = sizeofHdr := by
  rw [Hdr.bytes, List.length_append, word32Bytes_length, word32Bytes_length]
  rfl

theorem Dg.recvmsg_hdrLen (h : s.recvhdr.length = sizeofHdr) (d : List UInt8) (a : Option Answer) :
    (s.recvmsg d a).recvhdr.length = sizeofHdr := by
  have hlen : (d.take sizeofHdr).length ≤ sizeofHdr := List.length_take_le ..
  exact (Mem.poke_length (by omega)).trans h

/-- a whole answer overwrites all of `recvhdr` -/
theorem Dg.recvmsg_hdr (h : s.recvhdr.length = sizeofHdr) (a : Answer) (last : Option Answer) :
    (s.recvmsg (a.datagram e) last).recvhdr = a.req.hdr.bytes e := by
  have hlen := a.req.hdr.bytes_length e
  have htake : (a.datagram e).take sizeofHdr = a.req.hdr.bytes e := List.take_left' hlen
  show Mem.poke s.recvhdr 0 ((a.datagram e).take sizeofHdr) = _
  rw [htake, Mem.poke, hlen, List.take_zero, List.nil_append, Nat.zero_add,
    List.drop_of_length_le (Nat.le_of_eq h), List.append_nil]

theorem Dg.recvmsg_took (h : s.recvhdr.length = sizeofHdr) {a : Answer} (ha : a ∈ s.answers) :
    Took e (s.recvmsg (a.datagram e) (some a))
      (min (a.datagram e).length (sizeofHdr + s.inbytes)) a := by
  have hlen := a.req.hdr.bytes_length e
  have hdrop : (a.datagram e).drop sizeofHdr = a.payload := List.drop_left' hlen
  refine ⟨rfl, ha, ?_, ?_, ?_⟩
  · rw [Dg.recvmsg_hdr h]
    exact load32_word32Bytes e _ _
  · show ((a.datagram e).drop sizeofHdr).take s.inbytes <+: a.payload
    rw [hdrop]
    exact List.take_prefix _ _
  · show _ = sizeofHdr + (((a.datagram e).drop sizeofHdr).take s.inbytes).length
    rw [hdrop, List.length_take, Answer.datagram, List.length_append, hlen]
    omega

theorem Taken.step (h : Taken e s) (hs : Step e s ev t) : Taken e t := by
  have hnow := h.now
  cases hs with
  | recvAnswer a pc mem =>
    exact ⟨fun _ => ⟨a, Dg.recvmsg_took h.hdrLen mem⟩, Dg.recvmsg_hdrLen h.hdrLen _ _⟩
  | recvShort d pc short =>
    refine ⟨fun hn => ?_, Dg.recvmsg_hdrLen h.hdrLen _ _⟩
    have hmin : min d.length (sizeofHdr + s.inbytes) < sizeofHdr := by omega
    omega
  | test n pc =>
    rw [pc] at hnow
    refine ⟨?_, h.hdrLen⟩
    show Pc.taken e (s.loop e n) (if s.again e n then .recv else .alarm0 n)
    by_cases ha : s.again e n = true
    · rw [if_pos ha]
      trivial
    · rw [if_neg ha]
      -- the condition of the loop is false: a whole header, with the right number
      rw [Bool.not_eq_true, Dg.again, Bool.or_eq_false_iff] at ha
      have hn : ¬ n < sizeofHdr := of_decide_eq_false ha.1
      have hseq : load32 e s.recvhdr 0 = s.sendhdr.seq := by
        have hbne := ha.2
        rwa [bne_eq_false_iff_eq] at hbne
      obtain ⟨a, htook⟩ := hnow (by omega)
      exact ⟨a, ⟨htook.last, htook.mem, htook.hdr, htook.inbuff, htook.n⟩, htook.hdr ▸ hseq⟩
  | stopAlarm n pc =>
    rw [pc] at hnow
    obtain ⟨a, htook, hseq⟩ := hnow
    exact ⟨⟨a, ⟨htook.last, htook.mem, htook.hdr, htook.inbuff, htook.n⟩, hseq⟩, h.hdrLen⟩
  | timeout pc =>
    rcases s.timeout_cases with ⟨_, ht⟩ | ⟨_, ht⟩
    · rw [ht]; exact ⟨trivial, h.hdrLen⟩
    · rw [ht]; exact ⟨trivial, h.hdrLen⟩
  | serve req payload mem =>
    refine ⟨?_, h.hdrLen⟩
    exact Pc.taken_mono s.pc hnow rfl (List.subset_append_left _ _) rfl rfl rfl
  | call tv outbuff inbytes pc => exact ⟨trivial, h.hdrLen⟩
  | stamp tv pc => exact ⟨trivial, h.hdrLen⟩
  | sendmsg pc => exact ⟨trivial, h.hdrLen⟩
  | setAlarm pc => exact ⟨trivial, h.hdrLen⟩
  | setjmp pc => exact ⟨trivial, h.hdrLen⟩
  | stop n tv pc => exact ⟨trivial, h.hdrLen⟩
  | sigalrm armed saved => exact ⟨trivial, h.hdrLen⟩
  | sigalrmStale armed stale => exact ⟨trivial, h.hdrLen⟩
  | sysErr pc => exact ⟨trivial, h.hdrLen⟩

/-! ## the values returned -/

/-- a value returned by call `r.call` -/
structure Return.Ok (s : Dg) (r : Return) : Prop where
  made : r.call ≤ s.calls
  answered : 0 ≤ r.n → ∃ a, r.accepted = some a ∧ a ∈ s.answers ∧
    a.req.hdr.seq = UInt32.ofNat r.call ∧ r.n = r.inbuff.length ∧ r.inbuff <+: a.payload
  gaveUp : r.n < 0 → r.n = -1 ∧ RTT_MAXNREXMT + 1 ≤ s.timeouts.count r.call

def Results (s : Dg) : Prop := ∀ r ∈ s.returned, r.Ok s

/-- answers, timeouts and calls are only added to -/
theorem Step.grows (hs : Step e s ev t) :
    s.calls ≤ t.calls ∧ s.answers ⊆ t.answers ∧ s.timeouts <+: t.timeouts := by
  have hrefl : s.calls ≤ s.calls ∧ s.answers ⊆ s.answers ∧ s.timeouts <+: s.timeouts :=
    ⟨Nat.le_refl _, List.Subset.refl _, List.prefix_refl _⟩
  cases hs with
  | call tv outbuff inbytes pc => exact ⟨Nat.le_succ _, hrefl.2⟩
  | sigalrm armed saved => exact ⟨hrefl.1, hrefl.2.1, List.prefix_append _ _⟩
  | serve req payload mem => exact ⟨hrefl.1, List.subset_append_left _ _, hrefl.2.2⟩
  | timeout pc =>
    rcases s.timeout_cases with ⟨_, ht⟩ | ⟨_, ht⟩
    · rw [ht]; exact hrefl
    · rw [ht]; exact hrefl
  | _ => exact hrefl

theorem Return.Ok.mono {r : Return} (h : r.Ok s) (hs : Step e s ev t) : r.Ok t := by
  obtain ⟨hcalls, hans, htime⟩ := hs.grows
  refine ⟨Nat.le_trans h.made hcalls, ?_, ?_⟩
  · intro hn
    obtain ⟨a, hacc, hmem, hrest⟩ := h.answered hn
    exact ⟨a, hacc, hans hmem, hrest⟩
  · intro hn
    obtain ⟨h1, hcount⟩ := h.gaveUp hn
    exact ⟨h1, Nat.le_trans hcount (htime.sublist.count_le _)⟩

/-- what a step adds to the values returned -/
theorem Step.returned (hh : Hist s) (hb : Budget s) (hk : Taken e s) (hs : Step e s ev t) :
    t.returned = s.returned ∨ ∃ r, t.returned = s.returned ++ [r] ∧ r.Ok s := by
  cases hs with
  | stop n tv pc =>
    have hnow := hk.now
    rw [pc] at hnow
    obtain ⟨a, htook, hseq⟩ := hnow
    have hn := htook.n
    refine Or.inr ⟨_, rfl, Nat.le_refl _, fun _ => ?_, fun hneg => ?_⟩
    · refine ⟨a, htook.last, htook.mem, hseq.trans hh.seq, ?_, htook.inbuff⟩
      show (n : Int) - sizeofHdr = s.inbuff.length
      omega
    · have hneg' : (n : Int) - sizeofHdr < 0 := hneg
      omega
  | timeout pc =>
    have hnow := hb.now
    rw [pc] at hnow
    rcases s.timeout_cases with ⟨hmax, ht⟩ | ⟨_, ht⟩
    · rw [ht]
      refine Or.inr ⟨_, rfl, Nat.le_refl _, fun hpos => ?_, fun _ => ⟨rfl, ?_⟩⟩
      · exact absurd (show (0 : Int) ≤ -1 from hpos) (by decide)
      · show RTT_MAXNREXMT + 1 ≤ s.timeouts.count s.calls
        rw [hnow.2.1]
        omega
    · rw [ht]
      exact Or.inl rfl
  | _ => exact Or.inl rfl

theorem Results.step (h : Results s) (hh : Hist s) (hb : Budget s) (hk : Taken e s)
    (hs : Step e s ev t) : Results t := by
  intro r hr
  rcases hs.returned hh hb hk with ht | ⟨r', ht, hok⟩
  · rw [ht] at hr
    exact (h r hr).mono hs
  · rw [ht] at hr
    rcases List.mem_append.mp hr with hr | hr
    · exact (h r hr).mono hs
    · obtain rfl := List.mem_singleton.mp hr
      exact hok.mono hs

/-! ## runs -/

/-- all of it -/
structure Inv (e : Endian) (s : Dg) : Prop where
  hist : Hist s
  budget : Budget s
  taken : Taken e s
  results : Results s

theorem Inv.run {es : List Event} (h : Run (Step e) Dg.init es s) : Inv e s :=
  h.inv ⟨hist_init, budget_init, taken_init, fun _ hr => absurd hr List.not_mem_nil⟩
    (fun _ _ _ hi hs => ⟨hi.hist.step hs, hi.budget.step hi.hist hs, hi.taken.step hs,
      hi.results.step hi.hist hi.budget hi.taken hs⟩)

/-- below `2^32` calls the sequence numbers are different -/
theorem ofNat_seq_inj {c d : Nat} (hc : c < UInt32.size) (hd : d < UInt32.size)
    (h : UInt32.ofNat c = UInt32.ofNat d) : c = d := by
  have hnat := congrArg UInt32.toNat h
  rw [UInt32.toNat_ofNat', UInt32.toNat_ofNat', Nat.mod_eq_of_lt hc, Nat.mod_eq_of_lt hd] at hnat
  exact hnat

/-- **Every call takes an answer to itself.**  In a run of fewer than `2^32` calls, a call that
returns `n ≥ 0` has taken an answer to one of its own requests and placed `n` bytes of its payload
in `inbuff`; a call sends at most `1 + RTT_MAXNREXMT` datagrams, all with one `seq`; and a call
that returns a negative value returns `-1` after `RTT_MAXNREXMT + 1` timeouts. -/
theorem exchange (e : Endian) (es : List Event) (s : Dg) (h : Run (Step e) Dg.init es s)
    (hcalls : s.calls < UInt32.size) :
    (∀ r ∈ s.returned, 0 ≤ r.n → ∃ a, r.accepted = some a ∧ a ∈ s.answers ∧ a.req ∈ s.sent ∧
      a.req.call = r.call ∧ r.n = r.inbuff.length ∧ r.inbuff <+: a.payload) ∧
    (∀ c, s.sends c ≤ 1 + RTT_MAXNREXMT) ∧
    (∀ q ∈ s.sent, ∀ q' ∈ s.sent, q.call = q'.call → q.hdr.seq = q'.hdr.seq) ∧
    (∀ r ∈ s.returned, r.n < 0 → r.n = -1 ∧ RTT_MAXNREXMT + 1 ≤ s.timeouts.count r.call) := by
  have hinv := Inv.run h
  refine ⟨?_, hinv.budget.all, ?_, fun r hr => (hinv.results r hr).gaveUp⟩
  · intro r hr hn
    obtain ⟨a, hacc, hmem, hseq, hlen, hpre⟩ := (hinv.results r hr).answered hn
    have hreq := hinv.hist.answers a hmem
    obtain ⟨hle, hown⟩ := hinv.hist.sent _ hreq
    have hmade := (hinv.results r hr).made
    refine ⟨a, hacc, hmem, hreq, ?_, hlen, hpre⟩
    exact ofNat_seq_inj (by omega) (by omega) (hown.symm.trans hseq)
  · intro q hq q' hq' hcall
    rw [(hinv.hist.sent q hq).2, (hinv.hist.sent q' hq').2, hcall]

/-- the first transmission times out, the second is on its way, and the answer to the first one
arrives -/
theorem exchange_late : ∃ es s, Run (Step .little) Dg.init es s ∧
    (s.returned.map (fun r => (r.call, r.n, r.inbuff)) = [(1, 2, [104, 105])] ∧
      s.sends 1 = 2) ∧
    (∀ r ∈ s.returned, 0 ≤ r.n → ∃ a, r.accepted = some a ∧ a ∈ s.answers ∧ a.req ∈ s.sent ∧
      a.req.call = r.call ∧ r.n = r.inbuff.length ∧ r.inbuff <+: a.payload) := by
  have h1 := (Run.nil : Run (Step .little) Dg.init [] Dg.init).snoc
    (Step.call ⟨5, 0⟩ [97] 10 rfl)
  have h2 := (((h1.snoc (Step.stamp ⟨5, 0⟩ rfl)).snoc (Step.sendmsg rfl)).snoc
    (Step.setAlarm rfl)).snoc (Step.setjmp rfl)
  have h3 := (h2.snoc (Step.sigalrm (by decide +kernel) (Option.some_ne_none 1))).snoc (Step.timeout rfl)
  have h4 := (((h3.snoc (Step.stamp ⟨8, 0⟩ rfl)).snoc (Step.sendmsg rfl)).snoc
    (Step.setAlarm rfl)).snoc (Step.setjmp rfl)
  have h5 := h4.snoc (Step.serve ⟨1, ⟨1, 0⟩, [97]⟩ [104, 105] (List.mem_cons_self ..))
  have h6 := h5.snoc (Step.recvAnswer ⟨⟨1, ⟨1, 0⟩, [97]⟩, [104, 105]⟩ rfl (List.mem_cons_self ..))
  have h7 := ((h6.snoc (Step.test 10 rfl)).snoc (Step.stopAlarm 10 rfl)).snoc
    (Step.stop 10 ⟨8, 30⟩ rfl)
  exact ⟨_, _, h7, ⟨rfl, rfl⟩, (exchange .little _ _ h7 (by decide)).1⟩

end Unp
