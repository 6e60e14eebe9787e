import NetworkProgram.Lib.Run
import NetworkProgram.Traceroute.Recv

/-!
# Which datagram answers

In the branch of `ICMP_UNREACH` the quoted headers are looked for at `hip` and `hlen2`, as the last
time-exceeded message of the call has left them, or nothing.

* `Left.step`          what the datagrams of a call leave in `hip`, `hlen2` and `recvbuf`;
* `Left.answered`      where they are `Placed` the next one is taken for what it is;
* `Uniform.placed_iff` that is a matter of their order, where all headers have the same lengths;
* `recv_answers_iff`   in no other sequence each is.
-/

namespace Unp.Traceroute
open Icmpd (ICMP_UNREACH)
open Trans

/-! ## what the datagrams of a call leave -/

/-- the place that the last time-exceeded message has named -/
def lastPlace (dgs : List Datagram) : Option Place := (dgs.filterMap Datagram.sets).getLast?

/-- the datagrams received one after the other, from `recvbuf` on -/
def received (buf : Int → UInt8) (dgs : List Datagram) : Int → UInt8 := dgs.foldl deliver buf

def Ignored (p : Probe) (dgs : List Datagram) : Prop := ∀ bs ∈ dgs, answer p bs = none

/-- The unreachable messages up to the answer: each comes behind a time-exceeded one, and with the
lengths of the last of these the protocol and the ports of the probe are found exactly if they are
found with its own. -/
def Placed (p : Probe) (dgs : List Datagram) : Prop :=
  ∀ before bs after, dgs = before ++ bs :: after → Ignored p before → bs.Unreach →
    ∃ q, lastPlace before = some q ∧
      (Shown p q (received (fun _ => 0) (before ++ [bs])) bs.length ↔ Own p bs.mem bs.length)

/-- the unreachable messages are complete, each behind a time-exceeded one with its lengths -/
def Aligned (dgs : List Datagram) : Prop :=
  ∀ before bs after, dgs = before ++ bs :: after → bs.Unreach →
    8 + sizeofIp ≤ bs.length - hlen bs.mem 0 ∧ lastPlace before = some (placeAt bs.mem)

/-- complete messages with the same two lengths, as where no header has options -/
def Uniform (q : Place) (dgs : List Datagram) : Prop :=
  ∀ bs ∈ dgs, 8 + sizeofIp ≤ bs.length - hlen bs.mem 0 ∧ placeAt bs.mem = q

def Event.bytes : Event → Option Datagram
  | .datagram bs => some bs
  | .alarm => none
  | .check => none
  | .err _ => none

/-- the datagrams received -/
def datagrams (es : List Event) : List Datagram := es.filterMap Event.bytes

/-- every run of the call over the first of the datagrams `dgs`, from anything in `recvbuf` and in
the variables, takes each for what it is -/
def Finds (p : Probe) (dgs : List Datagram) : Prop :=
  ∀ recvbuf l es t, Run (Step p) (start recvbuf l) es t → datagrams es <+: dgs →
    Run (Obey (Answered p) (Step p)) (start recvbuf l) es t

/-- the datagrams received before the call has come to `pc` -/
def Outcome (p : Probe) (dgs : List Datagram) : Pc → Prop
  | .returned ret => (ret = -3 ∧ Ignored p dgs) ∨
      ∃ before bs, dgs = before ++ [bs] ∧ Ignored p before ∧ answer p bs = some ret
  | .undefined => False
  | .head => Ignored p dgs
  | .recvfrom => Ignored p dgs
  | .stopped _ => Ignored p dgs

/-- the datagrams `dgs` have been received in a call that has found `buf` and `l` -/
structure Left (buf : Int → UInt8) (l : Locals) (dgs : List Datagram) (s : State) : Prop where
  recvbuf : s.recvbuf = received buf dgs
  around : s.around = l.around
  hip : s.hip = ((lastPlace dgs).map Place.hip).getD l.hip
  hlen2 : s.hlen2.toInt = ((lastPlace dgs).map Place.hlen2).getD l.hlen2.toInt

variable {p : Probe} {s t : State} {buf buf' : Int → UInt8} {bs : Datagram} {q : Place} {l : Locals}
  {dgs before : List Datagram} {e : Event} {es : List Event}

theorem datagrams_append (es : List Event) (e : Event) :
    datagrams (es ++ [e]) = datagrams es ++ datagrams [e] := List.filterMap_append ..

theorem lastPlace_concat (dgs : List Datagram) (bs : Datagram) :
    lastPlace (dgs ++ [bs]) = bs.sets.or (lastPlace dgs) := by
  unfold lastPlace
  rw [List.filterMap_append]
  cases hsets : bs.sets with
  | none => simp [hsets]
  | some q => simp [hsets]

theorem received_concat (buf : Int → UInt8) (dgs : List Datagram) (bs : Datagram) :
    received buf (dgs ++ [bs]) = deliver (received buf dgs) bs := List.foldl_concat ..

theorem sets_place (h : bs.sets = some q) : ExceededAt bs.mem bs.length ∧ placeAt bs.mem = q := by
  unfold Datagram.sets setsAt at h
  split at h
  · rename_i hexc
    exact ⟨hexc, Option.some.inj h⟩
  · cases h

/-- where the quoted header of 20 bytes lies -/
theorem place_bounds (h : bs.sets = some q) :
    0 ≤ q.hip ∧ q.hip + 20 ≤ bs.length ∧ q.hip ≤ 68 ∧ 0 ≤ q.hlen2 ∧ q.hlen2 ≤ 60 := by
  have hsize := sizeofIp_eq
  have hpos := hlen_nonneg bs.mem 0
  have hle := hlen_le bs.mem 0
  obtain ⟨hexc, rfl⟩ := sets_place h
  have hlen := hexc.1
  unfold placeAt
  dsimp only
  exact ⟨by omega, by omega, by omega, hlen_nonneg _ _, hlen_le _ _⟩

/-- the header that the last time-exceeded message has quoted has been received -/
theorem received_congr (h : lastPlace dgs = some q) {k : Int} (h0 : 0 ≤ k) (hk : k < q.hip + 20) :
    received buf dgs k = received buf' dgs k := by
  induction dgs using List.reverseRecOn with
  | nil => cases h
  | append_singleton dgs bs ih =>
    rw [received_concat, received_concat]
    rw [lastPlace_concat] at h
    cases hsets : bs.sets with
    | none =>
      rw [hsets] at h
      exact deliver_congr (ih h)
    | some q' =>
      rw [hsets] at h
      obtain rfl : q' = q := Option.some.inj h
      have hlen := (place_bounds hsets).2.1
      rw [deliver_eq _ _ h0 (by omega), deliver_eq _ _ h0 (by omega)]

theorem lastPlace_bounds (h : lastPlace dgs = some q) :
    0 ≤ q.hip ∧ q.hip ≤ 68 ∧ 0 ≤ q.hlen2 ∧ q.hlen2 ≤ 60 := by
  have hmem : q ∈ dgs.filterMap Datagram.sets := List.mem_of_getLast? h
  obtain ⟨bs, -, hsets⟩ := List.mem_filterMap.mp hmem
  obtain ⟨h0, -, h68, h2⟩ := place_bounds hsets
  exact ⟨h0, h68, h2⟩

/-- **A datagram** leaves its place in the variables if it is a time-exceeded message. -/
theorem Left.datagram (h : Left buf l dgs s) (p : Probe) (bs : Datagram) :
    Left buf l (dgs ++ [bs]) (s.datagram p bs) := by
  have hsets : setsAt (deliver s.recvbuf bs) bs.bytes.length = bs.sets :=
    setsAt_congr bs.length_pos (fun _ h0 hn => deliver_eq _ _ h0 hn)
  obtain ⟨hbuf, haround, -⟩ :=
    parse_frame p { s with recvbuf := deliver s.recvbuf bs } bs.bytes.length
  obtain ⟨hhip, hhlen2⟩ := parse_vars p { s with recvbuf := deliver s.recvbuf bs } bs.bytes.length
  rw [hsets] at hhip hhlen2
  refine ⟨?_, haround.trans h.around, hhip.trans ?_, hhlen2.trans ?_⟩
  · rw [received_concat, ← h.recvbuf]
    exact hbuf
  · dsimp only
    rw [h.hip, lastPlace_concat]
    cases bs.sets <;> rfl
  · dsimp only
    rw [h.hlen2, lastPlace_concat]
    cases bs.sets <;> rfl

theorem left_start : Left buf l [] (start buf l) := ⟨rfl, rfl, rfl, rfl⟩

theorem Left.step (h : Left buf l dgs s) (hs : Step p s e t) :
    Left buf l (dgs ++ datagrams [e]) t := by
  cases hs with
  | alarm pc => exact (List.append_nil dgs).symm ▸ ⟨h.recvbuf, h.around, h.hip, h.hlen2⟩
  | check pc => exact (List.append_nil dgs).symm ▸ ⟨h.recvbuf, h.around, h.hip, h.hlen2⟩
  | err e pc => exact (List.append_nil dgs).symm ▸ ⟨h.recvbuf, h.around, h.hip, h.hlen2⟩
  | datagram bs pc => exact h.datagram p bs

theorem left_run (h : Run (Step p) (start buf l) es t) : Left buf l (datagrams es) t := by
  induction h with
  | nil => exact left_start
  | snoc _ hs ih =>
    rw [datagrams_append]
    exact ih.step hs

/-! ## one datagram more -/

theorem Pc.after_inj {ret : Int} {P Q : Prop} [Decidable P] [Decidable Q] :
    Pc.after (if P then some ret else none) = Pc.after (if Q then some ret else none) ↔
      (P ↔ Q) := by
  by_cases hP : P
  · by_cases hQ : Q <;> simp [hP, hQ, Pc.after]
  · by_cases hQ : Q <;> simp [hP, hQ, Pc.after]

theorem unreachAt_deliver : UnreachAt (deliver buf bs) bs.length ↔ bs.Unreach :=
  unreachAt_congr bs.length_pos (fun _ h0 hn => deliver_eq _ _ h0 hn)

/-- an unreachable message received -/
theorem datagram_unreach (hu : bs.Unreach) : (s.datagram p bs).pc =
    Pc.tested (unreachRet (deliver s.recvbuf bs (hlen (deliver s.recvbuf bs) 0 + 1)))
      (State.tests p { s with recvbuf := deliver s.recvbuf bs }
        (hlen (deliver s.recvbuf bs) 0) (bs.length - hlen (deliver s.recvbuf bs) 0)) :=
  parse_unreach (s := { s with recvbuf := deliver s.recvbuf bs }) (unreachAt_deliver.mpr hu)

/-- behind a time-exceeded message the tests are those of its place -/
theorem Left.unreach_pc (h : Left buf l dgs s) (hlast : lastPlace dgs = some q) (hu : bs.Unreach) :
    (s.datagram p bs).pc = Pc.after (answer p bs) ↔
      (Shown p q (received (fun _ => 0) (dgs ++ [bs])) bs.length ↔ Own p bs.mem bs.length) := by
  obtain ⟨h0, h68, hlen0, hlen60⟩ := lastPlace_bounds hlast
  have hsize : (BUFSIZE : Int) = 1500 := rfl
  have hbuf : deliver s.recvbuf bs = received buf (dgs ++ [bs]) := by
    rw [received_concat, h.recvbuf]
  have hhip : s.hip = q.hip := by rw [h.hip, hlast]; rfl
  have hhlen2 : s.hlen2.toInt = q.hlen2 := by rw [h.hlen2, hlast]; rfl
  have hmem : ∀ k, 0 ≤ k → k < bs.length → deliver s.recvbuf bs k = bs.mem k :=
    fun _ h0 hn => deliver_eq _ _ h0 hn
  -- the byte of the protocol may lie behind the datagram, but an earlier one has reached it
  have hshown : Shown p q (deliver s.recvbuf bs) bs.length ↔
      Shown p q (received (fun _ => 0) (dgs ++ [bs])) bs.length := by
    rw [hbuf]
    refine shown_congr bs.length_pos (fun k hk0 hkn => ?_) ?_ hlen0
    · rw [received_concat, received_concat, deliver_eq _ _ hk0 hkn, deliver_eq _ _ hk0 hkn]
    · rw [received_concat, received_concat]
      exact deliver_congr (received_congr hlast (by omega) (by omega))
  have hq : (⟨s.hip, s.hlen2.toInt⟩ : Place) = q := by rw [hhip, hhlen2]
  have htests : State.tests p { s with recvbuf := deliver s.recvbuf bs }
      (hlen (deliver s.recvbuf bs) 0) (bs.length - hlen (deliver s.recvbuf bs) 0) =
        some (decide (Shown p ⟨s.hip, s.hlen2.toInt⟩ (deliver s.recvbuf bs) bs.length)) :=
    tests_recvbuf (by dsimp only; omega) (by dsimp only; omega) (by dsimp only; omega)
      (by dsimp only; omega) bs.length_le
  rw [datagram_unreach hu, htests, Pc.tested_decide, ← answerAt_deliver s.recvbuf bs,
    answerAt_unreach (unreachAt_deliver.mpr hu), Pc.after_inj, hq, hshown,
    own_congr bs.length_pos hmem]

theorem other_pc (h : ¬ bs.Unreach) : (s.datagram p bs).pc = Pc.after (answer p bs) := by
  rw [← answerAt_deliver s.recvbuf bs]
  exact parse_pc (s := { s with recvbuf := deliver s.recvbuf bs }) bs.length_le
    (fun hu => h (unreachAt_deliver.mp hu))

/-- where they are placed, the next datagram is taken for what it is -/
theorem Left.answered {after : List Datagram} (h : Left buf l before s) (hp : Placed p dgs)
    (hdgs : dgs = before ++ bs :: after) (hign : Ignored p before) :
    (s.datagram p bs).pc = Pc.after (answer p bs) := by
  by_cases hu : bs.Unreach
  · obtain ⟨q, hlast, hiff⟩ := hp before bs after hdgs hign hu
    exact (h.unreach_pc hlast hu).mpr hiff
  · exact other_pc hu

/-- `hip` behind `recvbuf`, where nothing is mapped, and a length that lets every message through -/
def nowhere : Locals := ⟨fun _ => none, BUFSIZE, -100⟩

/-- with no time-exceeded message before it, an unreachable one is looked up anywhere -/
theorem Left.lost (h : Left buf nowhere before s) (hlast : lastPlace before = none)
    (hu : bs.Unreach) : (s.datagram p bs).pc = .undefined := by
  have hhip : s.hip = BUFSIZE := by rw [h.hip, hlast]; rfl
  have hhlen2 : s.hlen2.toInt = -100 := by rw [h.hlen2, hlast]; rfl
  have hmax : INT_MAX = 2147483647 := rfl
  have hlook : State.look { s with recvbuf := deliver s.recvbuf bs } (s.hip + 9) = none := by
    unfold State.look
    rw [if_neg (by omega)]
    dsimp only
    rw [h.around]
    rfl
  have htests : State.tests p { s with recvbuf := deliver s.recvbuf bs }
      (hlen (deliver s.recvbuf bs) 0) (bs.length - hlen (deliver s.recvbuf bs) 0) = none := by
    have hun : UnreachAt (deliver s.recvbuf bs) bs.length := unreachAt_deliver.mpr hu
    have hlen := hun.1
    unfold State.tests State.quotes
    dsimp only
    rw [if_neg (by omega), if_neg (by omega), hlook]
    rfl
  rw [datagram_unreach hu, htests]
  rfl

/-! ## the datagrams of a call -/

theorem Outcome.step (h : Outcome p dgs s.pc) (hs : Step p s e t) (hans : Answered p s e t) :
    Outcome p (dgs ++ datagrams [e]) t.pc := by
  cases hs with
  | alarm pc =>
    rw [show datagrams [Event.alarm] = [] from rfl, List.append_nil]
    exact h
  | check pc =>
    rw [pc] at h
    rw [show datagrams [Event.check] = [] from rfl, List.append_nil]
    show Outcome p dgs (if s.gotalarm then .returned (-3) else .recvfrom)
    split
    · exact Or.inl ⟨rfl, h⟩
    · exact h
  | err e pc =>
    rw [pc] at h
    rw [show datagrams [Event.err e] = [] from rfl, List.append_nil]
    show Outcome p dgs (if e = EINTR then .head else .stopped (.errSys "recvfrom error"))
    split
    · exact h
    · exact h
  | datagram bs pc =>
    rw [pc] at h
    rw [show datagrams [Event.datagram bs] = [bs] from rfl, hans bs rfl]
    cases ha : answer p bs with
    | none => exact List.forall_mem_append.mpr ⟨h, List.forall_mem_singleton.mpr ha⟩
    | some ret => exact Or.inr ⟨dgs, bs, rfl, h, ha⟩

theorem Left.step_answered (h : Left buf l before s) (hp : Placed p dgs)
    (hout : Outcome p before s.pc) (hpre : before ++ datagrams [e] <+: dgs) (hs : Step p s e t) :
    Answered p s e t := by
  cases hs with
  | alarm pc => exact nofun
  | check pc => exact nofun
  | err e pc => exact nofun
  | datagram bs pc =>
    rw [pc] at hout
    obtain ⟨after, hafter⟩ := hpre
    rintro _ ⟨⟩
    exact h.answered hp (hafter.symm.trans (List.append_assoc ..)) hout

/-- **A call over placed datagrams.** -/
theorem Placed.run (hp : Placed p dgs) (h : Run (Step p) (start buf l) es t)
    (hpre : datagrams es <+: dgs) :
    Run (Obey (Answered p) (Step p)) (start buf l) es t ∧ Outcome p (datagrams es) t.pc := by
  induction h with
  | nil => exact ⟨Run.nil, fun _ hb => absurd hb List.not_mem_nil⟩
  | snoc hr hs ih =>
    rw [datagrams_append] at hpre ⊢
    obtain ⟨hobey, hout⟩ := ih ((List.prefix_append _ _).trans hpre)
    have hans := (left_run hr).step_answered hp hout hpre hs
    exact ⟨hobey.snoc ⟨hs, hans⟩, hout.step hs hans⟩

/-- one turn of the loop -/
theorem Finds.turn (h : Finds p dgs) (hr : Run (Step p) (start buf l) es s) (pc : s.pc = .head)
    (quiet : s.gotalarm = false) (hpre : datagrams es ++ [bs] <+: dgs) :
    ∃ es' s', Run (Step p) (start buf l) es' (s'.datagram p bs) ∧ Left buf l (datagrams es) s' ∧
      datagrams es' = datagrams es ++ [bs] ∧ s'.gotalarm = false ∧
      (s'.datagram p bs).pc = Pc.after (answer p bs) := by
  have hcheck := hr.snoc (.check pc)
  rw [quiet] at hcheck
  have hdgs : datagrams (es ++ [.check] ++ [.datagram bs]) = datagrams es ++ [bs] := by
    rw [datagrams_append, datagrams_append]
    exact congrArg (· ++ [bs]) (List.append_nil _)
  have hturn := hcheck.snoc (.datagram bs rfl)
  obtain ⟨_, -, hlast⟩ := Run.snoc_iff.mp (h _ _ _ _ hturn (hdgs.symm ▸ hpre))
  have hleft := left_run hr
  exact ⟨_, _, hturn, ⟨hleft.recvbuf, hleft.around, hleft.hip, hleft.hlen2⟩, hdgs, rfl,
    hlast.2 bs rfl⟩

/-- the datagrams before the answer all bring the call back to the head of the loop -/
theorem Finds.reach (h : Finds p dgs) (hpre : before <+: dgs) (hign : Ignored p before)
    (buf : Int → UInt8) (l : Locals) :
    ∃ es s, Run (Step p) (start buf l) es s ∧ datagrams es = before ∧ s.pc = .head ∧
      s.gotalarm = false := by
  induction before using List.reverseRecOn with
  | nil => exact ⟨[], _, Run.nil, rfl, rfl, rfl⟩
  | append_singleton before bs ih =>
    obtain ⟨es, s, hr, rfl, pc, quiet⟩ := ih ((List.prefix_append _ _).trans hpre)
      (fun b hb => hign b (List.mem_append_left _ hb))
    obtain ⟨es', s', hr', -, hdgs, quiet', hpc⟩ := h.turn hr pc quiet hpre
    have hnone := hign bs (List.mem_append_right _ List.mem_cons_self)
    rw [hnone] at hpc
    have hframe := parse_frame p { s' with recvbuf := deliver s'.recvbuf bs } bs.bytes.length
    exact ⟨es', _, hr', hdgs, hpc, hframe.2.2.trans quiet'⟩

/-- **A sequence in which every call finds its answer is placed.** -/
theorem Finds.placed (h : Finds p dgs) : Placed p dgs := by
  intro before bs after hdgs hign hu
  have hpre : before ++ [bs] <+: dgs := ⟨after, by rw [hdgs, List.append_assoc]; rfl⟩
  have hbefore : before <+: dgs := (List.prefix_append _ _).trans hpre
  cases hlast : lastPlace before with
  | none =>
    obtain ⟨es, s, hr, rfl, pc, quiet⟩ := h.reach hbefore hign (fun _ => 0) nowhere
    obtain ⟨_, s', -, hleft, -, -, hpc⟩ := h.turn hr pc quiet hpre
    rw [hleft.lost hlast hu] at hpc
    cases hans : answer p bs with
    | none =>
      rw [hans] at hpc
      cases hpc
    | some ret =>
      rw [hans] at hpc
      cases hpc
  | some q =>
    obtain ⟨es, s, hr, rfl, pc, quiet⟩ := h.reach hbefore hign (fun _ => 0) nowhere
    obtain ⟨_, s', -, hleft, -, -, hpc⟩ := h.turn hr pc quiet hpre
    exact ⟨q, rfl, (hleft.unreach_pc hlast hu).mp hpc⟩

/-- with the lengths of the datagram itself its headers are found -/
theorem shown_own (before : List Datagram) (hfull : 8 + sizeofIp ≤ bs.length - hlen bs.mem 0) :
    Shown p (placeAt bs.mem) (received (fun _ => 0) (before ++ [bs])) bs.length ↔
      Own p bs.mem bs.length := by
  have hsize := sizeofIp_eq
  have hpos := hlen_nonneg bs.mem 0
  have hmem : ∀ k, 0 ≤ k → k < bs.length →
      received (fun _ => 0) (before ++ [bs]) k = bs.mem k := fun k h0 hn => by
    rw [received_concat]
    exact deliver_eq _ _ h0 hn
  have hproto : (placeAt bs.mem).hip = hlen bs.mem 0 + 8 := rfl
  have hown : Own p bs.mem bs.length ↔ Shown p (placeAt bs.mem) bs.mem bs.length :=
    and_iff_right hfull
  rw [hown]
  exact shown_congr bs.length_pos hmem (hmem _ (by omega) (by omega)) (hlen_nonneg _ _)

theorem Aligned.placed (h : Aligned dgs) : Placed p dgs := by
  intro before bs after hdgs _ hu
  obtain ⟨hfull, hlast⟩ := h before bs after hdgs hu
  exact ⟨_, hlast, shown_own before hfull⟩

theorem lastPlace_none : lastPlace dgs = none ↔ ∀ a ∈ dgs, a.sets = none := by
  unfold lastPlace
  rw [List.getLast?_eq_none_iff, List.filterMap_eq_nil_iff]

/-- where all have the same lengths, the last place is theirs -/
theorem Uniform.lastPlace (h : Uniform q dgs) (hsome : lastPlace dgs ≠ none) :
    lastPlace dgs = some q := by
  obtain ⟨q', hq'⟩ := Option.ne_none_iff_exists'.mp hsome
  have hmem : q' ∈ dgs.filterMap Datagram.sets := List.mem_of_getLast? hq'
  obtain ⟨a, ha, hsets⟩ := List.mem_filterMap.mp hmem
  rw [hq', ← (sets_place hsets).2, (h a ha).2]

/-- **Headers of the same lengths.**  Then it is only the order that matters: each unreachable
message up to the answer has to come behind a time-exceeded one. -/
theorem Uniform.placed_iff (h : Uniform q dgs) : Placed p dgs ↔
    ∀ before bs after, dgs = before ++ bs :: after → Ignored p before → bs.Unreach →
      ∃ a ∈ before, a.sets ≠ none := by
  constructor
  · intro hp before bs after hdgs hign hu
    obtain ⟨q', hlast, -⟩ := hp before bs after hdgs hign hu
    by_contra hno
    have hnone : Traceroute.lastPlace before = none :=
      lastPlace_none.mpr (fun a ha => not_not.mp (fun hne => hno ⟨a, ha, hne⟩))
    rw [hnone] at hlast
    cases hlast
  · intro hp before bs after hdgs hign hu
    obtain ⟨a, ha, hsets⟩ := hp before bs after hdgs hign hu
    have hbefore : Uniform q before := fun b hb => h b (hdgs ▸ List.mem_append_left _ hb)
    have hsome : Traceroute.lastPlace before ≠ none :=
      fun hnone => hsets (lastPlace_none.mp hnone a ha)
    obtain ⟨hfull, hplace⟩ := h bs (hdgs ▸ List.mem_append_right _ List.mem_cons_self)
    exact ⟨q, hbefore.lastPlace hsome, hplace ▸ shown_own before hfull⟩

theorem port_ne {seq seq' : Int} (h : (seq - seq') % 65536 ≠ 0) (x : Int) :
    UInt16.ofInt (x + seq) ≠ UInt16.ofInt (x + seq') := by
  intro heq
  have hval : ((x + seq) % 65536).toNat = ((x + seq') % 65536).toNat := by
    have hnat := congrArg UInt16.toNat heq
    have hlt : ∀ y : Int, (y % 65536).toNat < UInt16.size := fun y => by
      show _ < 65536
      omega
    have hof : ∀ y : Int, (UInt16.ofInt y).toNat = (y % 65536).toNat := fun y =>
      UInt16.toNat_ofNat_of_lt' (hlt y)
    rwa [hof, hof] at hnat
  omega

theorem own_of_answer (h : answer p bs ≠ none) : Own p bs.mem bs.length := by
  by_contra hno
  exact h (if_neg hno)

/-- an answer to another probe is no answer to this one -/
theorem answer_other {seq : Int} (h : (p.seq - seq) % 65536 ≠ 0)
    (hother : answer { p with seq := seq } bs ≠ none) : answer p bs = none := by
  by_contra hown
  have hq := own_of_answer hown
  have hq' := own_of_answer hother
  exact port_ne h _ (hq.2.2.2.2.symm.trans hq'.2.2.2.2)

/-- **Which datagrams are taken for what they are.**  In every run of a call over `dgs`, whatever
the call finds in its variables, every datagram is ignored or returned as its own bytes say (and so
the verdict of the first that answers is returned, the others ignored) exactly if the unreachable
messages up to the answer are placed: none comes before a time-exceeded one, and with the lengths of
the last of these each shows the probe exactly if it does with its own.  An answer to another probe
is none to this one. -/
theorem recv_answers_iff (p : Probe) (dgs : List Datagram) :
    (Finds p dgs ↔ Placed p dgs) ∧
    (Placed p dgs → ∀ recvbuf l es t, Run (Step p) (start recvbuf l) es t →
      datagrams es <+: dgs → Outcome p (datagrams es) t.pc) ∧
    (∀ seq bs, (p.seq - seq) % 65536 ≠ 0 → answer { p with seq := seq } bs ≠ none →
      answer p bs = none) :=
  ⟨⟨Finds.placed, fun hp _ _ _ _ hr hpre => (hp.run hr hpre).1⟩,
    fun hp _ _ _ _ hr hpre => (hp.run hr hpre).2, fun _ _ h hother => answer_other h hother⟩

/-! ## two datagrams -/

/-- an ICMP message that quotes a datagram from port 32769 to port `33280 + lo` -/
def quoting (type code lo : UInt8) : Datagram where
  bytes := [0x45] ++ List.replicate 19 0 ++ [type, code] ++ List.replicate 6 0 ++
    [0x45] ++ List.replicate 8 0 ++ [IPPROTO_UDP] ++ List.replicate 10 0 ++ [128, 1, 130, lo]
  min := by simp
  le := by simp [BUFSIZE]

/-- the probe to port 33435 -/
def probe1 : Probe := ⟨32769, 33434, 1⟩

/-- an unreachable message behind a time-exceeded one with its lengths -/
theorem aligned_pair {a b : Datagram} (ha : ¬ a.Unreach)
    (hb : 8 + sizeofIp ≤ b.length - hlen b.mem 0)
    (hplace : a.sets = some (placeAt b.mem)) : Aligned [a, b] := by
  rintro before bs after hdgs hu
  match before with
  | [] =>
    obtain ⟨rfl, -⟩ := List.cons.inj hdgs
    exact absurd hu ha
  | [c] =>
    obtain ⟨rfl, htail⟩ := List.cons.inj hdgs
    obtain ⟨rfl, -⟩ := List.cons.inj htail
    refine ⟨hb, ?_⟩
    rw [← List.nil_append [a], lastPlace_concat, hplace]
    rfl
  | c :: d :: before =>
    obtain ⟨-, htail⟩ := List.cons.inj hdgs
    obtain ⟨-, htail⟩ := List.cons.inj htail
    exact absurd htail.symm (List.append_ne_nil_of_right_ne_nil _ (List.cons_ne_nil _ _))

/-- a late answer to the probe before, then the port is unreachable -/
theorem aligned_late : Aligned [quoting 11 0 154, quoting 3 3 155] :=
  aligned_pair (by decide +kernel) (by decide +kernel) (by decide +kernel)

theorem recv_answers_iff_late : Finds probe1 [quoting 11 0 154, quoting 3 3 155] ∧
    ∃ es t, Run (Step probe1) (start (fun _ => 0) nowhere) es t ∧
      datagrams es = [quoting 11 0 154, quoting 3 3 155] ∧ t.pc = .returned (-1) ∧
      Outcome probe1 (datagrams es) t.pc := by
  have hp : Placed probe1 [quoting 11 0 154, quoting 3 3 155] := aligned_late.placed
  have hfirst : Run (Step probe1) (start (fun _ => 0) nowhere) _ _ :=
    (Run.single (.check rfl)).snoc (.datagram (quoting 11 0 154) rfl)
  have hboth : Run (Step probe1) (start (fun _ => 0) nowhere) _ _ :=
    (hfirst.snoc (.check (by decide +kernel))).snoc (.datagram (quoting 3 3 155) rfl)
  have htheorem := recv_answers_iff probe1 [quoting 11 0 154, quoting 3 3 155]
  exact ⟨htheorem.1.mpr hp, _, _, hboth, rfl, by decide +kernel,
    htheorem.2.1 hp _ _ _ _ hboth (List.prefix_refl _)⟩

/-- the only datagram says that the port is unreachable, and with 1000 in `hlen2` it is ignored -/
theorem not_recv_answers : answer probe1 (quoting 3 3 155) = some (-1) ∧
    ¬ Finds probe1 [quoting 3 3 155] := by
  refine ⟨by decide +kernel, fun h => ?_⟩
  have hrun := (Run.single (Step.check (p := probe1)
    (s := start (fun _ => 0) ⟨fun _ => none, 0, 1000⟩) rfl)).snoc (.datagram (quoting 3 3 155) rfl)
  obtain ⟨_, _, hlast⟩ := Run.snoc_iff.mp (h _ _ _ _ hrun (List.prefix_refl _))
  exact absurd (hlast.2 _ rfl) (by decide +kernel)

end Unp.Traceroute
