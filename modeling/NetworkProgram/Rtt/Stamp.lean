import NetworkProgram.Rtt.Exchange
import Mathlib.Data.List.Forall2
import Mathlib.Data.List.GetD

/-!
# Which round trip is measured

`Timed` is `Dg` together with what the datagrams do not carry: the time at which each was stamped,
against which `rtt_base`, and which transmission each answer is to.  Its runs are those of
`dg_send_recv` (`Timed.run_iff`).

* `Stamp.sub_toNat`      the difference of two stamps, on the same base, is that of the times;
* `Timed.Inv`            every stamp, and what `recvhdr` holds, goes back to a transmission;
* `sample_eq`            what `rtt_stop` is given.
-/

namespace Unp
open Trans

/-- `sendhdr.ts` was computed at `tv`, against `base` -/
structure Stamp where
  tv : Timeval
  base : UInt32

def Stamp.ts (st : Stamp) : UInt32 :=
  UInt32.ofInt ((st.tv.tvSec - st.base.toNat) * 1000 + st.tv.tvUsec.tdiv 1000)

/-- whole milliseconds -/
def Timeval.floorMs (tv : Timeval) : Int := tv.micros / 1000

structure Timed where
  dg : Dg
  stamp : Stamp
  /-- for each of `dg.sent` -/
  sentAt : List Stamp
  /-- for each of `dg.answers` the index in `dg.sent` -/
  answersTo : List Nat
  /-- the transmission that `dg.last` answers -/
  lastTo : Option Nat

def Timed.init : Timed := ⟨Dg.init, ⟨⟨0, 0⟩, 0⟩, [], [], none⟩

/-- the steps that neither stamp nor move a datagram -/
def Event.Plain : Event → Prop
  | .stamp _ | .sendmsg | .recvAnswer _ | .recvShort _ | .serve _ _ => False
  | _ => True

inductive Timed.Step (e : Endian) (g : Timed) : Event → Timed → Prop where
  | plain {ev : Event} {d : Dg} (hs : Unp.Step e g.dg ev d) (hev : ev.Plain) :
      Timed.Step e g ev { g with dg := d }
  | stamp (tv : Timeval) (pc : g.dg.pc = .sendagain) :
      Timed.Step e g (.stamp tv)
        { g with dg := g.dg.stamp tv, stamp := ⟨tv, g.dg.rttinfo.rttBase⟩ }
  | sendmsg (pc : g.dg.pc = .send) :
      Timed.Step e g .sendmsg { g with dg := g.dg.sendmsg, sentAt := g.sentAt ++ [g.stamp] }
  | recvAnswer (j : Nat) (a : Answer) (pc : g.dg.pc = .recv) (mem : g.dg.answers[j]? = some a) :
      Timed.Step e g (.recvAnswer a)
        { g with dg := g.dg.recvmsg (a.datagram e) (some a), lastTo := g.answersTo[j]? }
  | recvShort (d : List UInt8) (pc : g.dg.pc = .recv) (short : d.length < sizeofHdr) :
      Timed.Step e g (.recvShort d) { g with dg := g.dg.recvmsg d none, lastTo := none }
  | serve (i : Nat) (req : Request) (payload : List UInt8) (mem : g.dg.sent[i]? = some req) :
      Timed.Step e g (.serve req payload)
        { g with
          dg := { g.dg with answers := g.dg.answers ++ [⟨req, payload⟩] }
          answersTo := g.answersTo ++ [i] }

variable {e : Endian} {s t : Dg} {g g' : Timed} {ev : Event}

/-! ## the same runs -/

theorem Timed.Step.dg (hs : Timed.Step e g ev g') : Unp.Step e g.dg ev g'.dg := by
  cases hs with
  | plain hs hev => exact hs
  | stamp tv pc => exact Unp.Step.stamp tv pc
  | sendmsg pc => exact Unp.Step.sendmsg pc
  | recvAnswer j a pc mem => exact Unp.Step.recvAnswer a pc (List.mem_of_getElem? mem)
  | recvShort d pc short => exact Unp.Step.recvShort d pc short
  | serve i req payload mem => exact Unp.Step.serve req payload (List.mem_of_getElem? mem)

theorem Step.timed (hs : Step e g.dg ev t) : ∃ g', Timed.Step e g ev g' ∧ g'.dg = t := by
  cases hs with
  | stamp tv pc => exact ⟨_, Timed.Step.stamp tv pc, rfl⟩
  | sendmsg pc => exact ⟨_, Timed.Step.sendmsg pc, rfl⟩
  | recvAnswer a pc mem =>
    obtain ⟨j, hj⟩ := List.mem_iff_getElem?.mp mem
    exact ⟨_, Timed.Step.recvAnswer j a pc hj, rfl⟩
  | recvShort d pc short => exact ⟨_, Timed.Step.recvShort d pc short, rfl⟩
  | serve req payload mem =>
    obtain ⟨i, hi⟩ := List.mem_iff_getElem?.mp mem
    exact ⟨_, Timed.Step.serve i req payload hi, rfl⟩
  | call tv outbuff inbytes pc =>
    exact ⟨_, Timed.Step.plain (Step.call tv outbuff inbytes pc) trivial, rfl⟩
  | setAlarm pc => exact ⟨_, Timed.Step.plain (Step.setAlarm pc) trivial, rfl⟩
  | setjmp pc => exact ⟨_, Timed.Step.plain (Step.setjmp pc) trivial, rfl⟩
  | test n pc => exact ⟨_, Timed.Step.plain (Step.test n pc) trivial, rfl⟩
  | stopAlarm n pc => exact ⟨_, Timed.Step.plain (Step.stopAlarm n pc) trivial, rfl⟩
  | stop n tv pc => exact ⟨_, Timed.Step.plain (Step.stop n tv pc) trivial, rfl⟩
  | sigalrm armed saved =>
    exact ⟨_, Timed.Step.plain (Step.sigalrm armed saved) trivial, rfl⟩
  | sigalrmStale armed stale =>
    exact ⟨_, Timed.Step.plain (Step.sigalrmStale armed stale) trivial, rfl⟩
  | timeout pc => exact ⟨_, Timed.Step.plain (Step.timeout pc) trivial, rfl⟩
  | sysErr pc => exact ⟨_, Timed.Step.plain (Step.sysErr pc) trivial, rfl⟩

theorem Timed.run_dg {es : List Event} (h : Run (Timed.Step e) Timed.init es g) :
    Run (Unp.Step e) Dg.init es g.dg := by
  induction h with
  | nil => exact Run.nil
  | snoc _ hs ih => exact ih.snoc hs.dg

/-- what `Timed` adds decides nothing -/
theorem Timed.run_iff {es : List Event} :
    Run (Unp.Step e) Dg.init es s ↔ ∃ g, Run (Timed.Step e) Timed.init es g ∧ g.dg = s := by
  constructor
  · intro h
    induction h with
    | nil => exact ⟨Timed.init, Run.nil, rfl⟩
    | snoc _ hs ih =>
      obtain ⟨g, hrun, rfl⟩ := ih
      obtain ⟨g', hstep, hdg⟩ := hs.timed
      exact ⟨g', hrun.snoc hstep, hdg⟩
  · rintro ⟨g, h, rfl⟩
    exact run_dg h

/-! ## stamps -/

theorem rttTs_eq (info : RttInfo) (tv : Timeval) : rttTs info tv = Stamp.ts ⟨tv, info.rttBase⟩ :=
  rfl

/-- the part of the microseconds is cut off, which is the floor -/
theorem Stamp.ts_eq {st : Stamp} (h : st.tv.Normal) :
    st.ts = UInt32.ofInt (st.tv.floorMs - st.base.toNat * 1000) := by
  have hdiv : st.tv.tvUsec.tdiv 1000 = st.tv.tvUsec / 1000 := Int.tdiv_eq_ediv_of_nonneg h.1
  have hms : (st.tv.tvSec - st.base.toNat) * 1000 + st.tv.tvUsec / 1000 =
      (st.tv.tvSec * 1000000 + st.tv.tvUsec) / 1000 - st.base.toNat * 1000 := by omega
  unfold Stamp.ts
  rw [hdiv, hms]
  rfl

theorem ofInt_sub_toNat (x y : Int) :
    ((UInt32.ofInt x - UInt32.ofInt y).toNat : Int) = (x - y) % UInt32.size := by
  have hadd : UInt32.ofInt (x - y) + UInt32.ofInt y = UInt32.ofInt x := by
    rw [← UInt32.ofInt_add, Int.sub_add_cancel]
  have hsub : UInt32.ofInt x - UInt32.ofInt y = UInt32.ofInt (x - y) := by
    rw [← hadd, UInt32.add_sub_cancel]
  rw [hsub]
  have hnn : 0 ≤ (x - y) % UInt32.size := Int.emod_nonneg _ (by decide)
  have hlt : (x - y) % UInt32.size < UInt32.size := Int.emod_lt_of_pos _ (by decide)
  show ((UInt32.ofNat ((x - y) % UInt32.size).toNat).toNat : Int) = _
  rw [UInt32.toNat_ofNat_of_lt' (by omega)]
  omega

/-- the base drops out, and so does every whole turn of the 32 bits -/
theorem Stamp.sub_toNat {a b : Stamp} (ha : a.tv.Normal) (hb : b.tv.Normal)
    (hbase : b.base = a.base) :
    ((a.ts - b.ts).toNat : Int) = (a.tv.floorMs - b.tv.floorMs) % UInt32.size := by
  have hdiff : a.tv.floorMs - a.base.toNat * 1000 - (b.tv.floorMs - a.base.toNat * 1000) =
      a.tv.floorMs - b.tv.floorMs := by omega
  rw [Stamp.ts_eq ha, Stamp.ts_eq hb, hbase, ofInt_sub_toNat, hdiff]

theorem Timeval.floorMs_mono {t0 t1 : Timeval} (h : t0.micros ≤ t1.micros) :
    t0.floorMs ≤ t1.floorMs := Int.ediv_le_ediv (by decide) h

/-! ## where the stamp in `recvhdr` comes from -/

theorem forall₂_getElem? {α β : Type*} {R : α → β → Prop} {as : List α} {bs : List β}
    (h : List.Forall₂ R as bs) {i : Nat} {a : α} (ha : as[i]? = some a) :
    ∃ b, bs[i]? = some b ∧ R a b := by
  induction h generalizing i with
  | nil => cases ha
  | cons hab _ ih =>
    cases i with
    | zero =>
      obtain rfl := Option.some.inj ha
      exact ⟨_, rfl, hab⟩
    | succ i => exact ih ha

/-- a new element does not move the others -/
theorem getElem?_append_some {α : Type*} {as bs : List α} {i : Nat} {a : α}
    (h : as[i]? = some a) : (as ++ bs)[i]? = some a := by
  obtain ⟨hlt, rfl⟩ := List.getElem?_eq_some_iff.mp h
  rw [List.getElem?_append_left hlt, List.getElem?_eq_getElem hlt]

theorem load32_append_right (e : Endian) (as bs : List UInt8) :
    load32 e (as ++ bs) as.length = load32 e bs 0 := by
  have hget : ∀ k, (as ++ bs).getD (as.length + k) 0 = bs.getD k 0 := by
    intro k
    rw [List.getD_append_right _ _ _ _ (Nat.le_add_right _ _), Nat.add_sub_cancel_left]
  unfold load32
  rw [← Nat.add_zero as.length]
  simp only [hget, Nat.add_assoc, Nat.zero_add]

theorem Hdr.load_ts (e : Endian) (h : Hdr) : load32 e (h.bytes e) 4 = h.ts := by
  have hlen : (word32Bytes e h.seq).length = 4 := word32Bytes_length e h.seq
  have hts := load32_word32Bytes e h.ts []
  rw [List.append_nil] at hts
  rw [Hdr.bytes, ← hlen, load32_append_right, hts]

structure Timed.Inv (e : Endian) (g : Timed) : Prop where
  stamp : g.dg.pc = .send → g.dg.sendhdr.ts = g.stamp.ts
  sent : List.Forall₂ (fun q st => q.hdr.ts = st.ts) g.dg.sent g.sentAt
  answers : List.Forall₂ (fun a i => g.dg.sent[i]? = some a.req) g.dg.answers g.answersTo
  last : ∀ a, g.dg.last = some a → g.dg.recvhdr = a.req.hdr.bytes e ∧
    ∃ i, g.lastTo = some i ∧ g.dg.sent[i]? = some a.req

/-- what the other steps leave alone -/
theorem Step.plain (hs : Step e s ev t) (hev : ev.Plain) :
    t.pc ≠ .send ∧ t.sent = s.sent ∧ t.answers = s.answers ∧ t.last = s.last ∧
      t.recvhdr = s.recvhdr := by
  cases hs with
  | test n pc =>
    refine ⟨?_, rfl, rfl, rfl, rfl⟩
    show (if s.again e n then Pc.recv else Pc.alarm0 n) ≠ .send
    split <;> exact Pc.noConfusion
  | timeout pc =>
    rcases s.timeout_cases with ⟨_, ht⟩ | ⟨_, ht⟩
    · rw [ht]; exact ⟨Pc.noConfusion, rfl, rfl, rfl, rfl⟩
    · rw [ht]; exact ⟨Pc.noConfusion, rfl, rfl, rfl, rfl⟩
  | stamp tv pc => exact hev.elim
  | sendmsg pc => exact hev.elim
  | recvAnswer a pc mem => exact hev.elim
  | recvShort d pc short => exact hev.elim
  | serve req payload mem => exact hev.elim
  | _ => exact ⟨Pc.noConfusion, rfl, rfl, rfl, rfl⟩

theorem Timed.inv_init : Timed.Inv e Timed.init where
  stamp h := by cases h
  sent := List.Forall₂.nil
  answers := List.Forall₂.nil
  last _ h := by cases h

theorem Timed.Inv.plain (h : Timed.Inv e g) (hev : ev.Plain) (hs : Unp.Step e g.dg ev t) :
    Timed.Inv e { g with dg := t } := by
  obtain ⟨hpc, hsent, hans, hlast, hhdr⟩ := hs.plain hev
  refine ⟨fun hsend => absurd hsend hpc, ?_, ?_, ?_⟩
  · rw [hsent]
    exact h.sent
  · rw [hsent, hans]
    exact h.answers
  · rw [hsent, hlast, hhdr]
    exact h.last

theorem Timed.Inv.sendmsg (h : Timed.Inv e g) (pc : g.dg.pc = .send) :
    Timed.Inv e { g with dg := g.dg.sendmsg, sentAt := g.sentAt ++ [g.stamp] } where
  stamp hsend := by cases hsend
  sent := List.rel_append h.sent (List.Forall₂.cons (h.stamp pc) List.Forall₂.nil)
  answers := h.answers.imp (fun _ _ hi => getElem?_append_some hi)
  last a ha := by
    obtain ⟨hhdr, i, hto, hi⟩ := h.last a ha
    exact ⟨hhdr, i, hto, getElem?_append_some hi⟩

/-- the answer `a` is now in `recvhdr`, and `lastTo` is the transmission it is to -/
theorem Timed.Inv.recvAnswer (h : Timed.Inv e g) (hlen : g.dg.recvhdr.length = sizeofHdr) {j : Nat}
    {a : Answer} (mem : g.dg.answers[j]? = some a) :
    Timed.Inv e { g with
      dg := g.dg.recvmsg (a.datagram e) (some a), lastTo := g.answersTo[j]? } where
  stamp hsend := by cases hsend
  sent := h.sent
  answers := h.answers
  last b hb := by
    obtain rfl := Option.some.inj hb
    obtain ⟨i, hi, hsent⟩ := forall₂_getElem? h.answers mem
    exact ⟨Dg.recvmsg_hdr hlen a _, i, hi, hsent⟩

theorem Timed.Inv.step (h : Timed.Inv e g) (hk : Taken e g.dg) (hs : Timed.Step e g ev g') :
    Timed.Inv e g' := by
  cases hs with
  | plain hs hev => exact h.plain hev hs
  | stamp tv pc => exact ⟨fun _ => rfl, h.sent, h.answers, h.last⟩
  | sendmsg pc => exact h.sendmsg pc
  | recvAnswer j a pc mem => exact h.recvAnswer hk.hdrLen mem
  | recvShort d pc short => exact ⟨(fun hsend => by cases hsend), h.sent, h.answers,
      (fun a ha => by cases ha)⟩
  | serve i req payload mem =>
    exact ⟨h.stamp, h.sent, List.rel_append h.answers (List.Forall₂.cons mem List.Forall₂.nil),
      h.last⟩

theorem Timed.Inv.run {es : List Event} (h : Run (Timed.Step e) Timed.init es g) :
    Timed.Inv e g := by
  induction h with
  | nil => exact Timed.inv_init
  | snoc hr hs ih => exact ih.step (Unp.Inv.run (Timed.run_dg hr)).taken hs

/-! ## the sample -/

/-- `i` is the transmission that the accepted reply answers, stamped at `st` -/
structure Timed.Answered (g : Timed) (i : Nat) (st : Stamp) : Prop where
  last : g.lastTo = some i
  seq : ∃ q, g.dg.sent[i]? = some q ∧ q.hdr.seq = g.dg.sendhdr.seq
  sentAt : g.sentAt[i]? = some st

/-- the argument of `rtt_stop` at time `tv` -/
def Dg.sample (e : Endian) (s : Dg) (tv : Timeval) : UInt32 :=
  rttTs s.rttinfo tv - load32 e s.recvhdr 4

/-- where the loop of `Recvmsg` has been left, a transmission with the current `seq` is answered -/
theorem Timed.answered {es : List Event} (h : Run (Timed.Step e) Timed.init es g) {n : Nat}
    (pc : g.dg.pc = .stop n) :
    ∃ i st, g.Answered i st ∧ load32 e g.dg.recvhdr 4 = st.ts := by
  have hnow := (Unp.Inv.run (Timed.run_dg h)).taken.now
  rw [pc] at hnow
  obtain ⟨a, htook, hseq⟩ := hnow
  have hinv := Timed.Inv.run h
  obtain ⟨hhdr, i, hto, hi⟩ := hinv.last a htook.last
  obtain ⟨st, hst, hts⟩ := forall₂_getElem? hinv.sent hi
  refine ⟨i, st, ⟨hto, ⟨a.req, hi, hseq⟩, hst⟩, ?_⟩
  rw [hhdr, Hdr.load_ts]
  exact hts

/-- **The sample belongs to the transmission that is answered.**  When a reply has been accepted it
answers a transmission with the current `seq`; and if that was stamped at `t0` on the present
`rtt_base`, `rtt_stop` at a later `t1` is given the whole milliseconds of `t1` less those of `t0`,
as long as they are fewer than `2^32`. -/
theorem sample_eq (e : Endian) (es : List Event) (g : Timed) (n : Nat)
    (h : Run (Timed.Step e) Timed.init es g) (pc : g.dg.pc = .stop n) :
    ∃ i st, g.Answered i st ∧ (st.base = g.dg.rttinfo.rttBase → st.tv.Normal →
      ∀ t1 : Timeval, t1.Normal → st.tv.micros ≤ t1.micros →
        t1.floorMs - st.tv.floorMs < UInt32.size →
        ((g.dg.sample e t1).toNat : Int) = t1.floorMs - st.tv.floorMs) := by
  obtain ⟨i, st, hans, hts⟩ := Timed.answered h pc
  refine ⟨i, st, hans, fun hbase h0 t1 h1 hle hlt => ?_⟩
  have hmono := Timeval.floorMs_mono hle
  have hsub : ((Stamp.ts ⟨t1, g.dg.rttinfo.rttBase⟩ - st.ts).toNat : Int) =
      (t1.floorMs - st.tv.floorMs) % UInt32.size := Stamp.sub_toNat h1 h0 hbase
  unfold Dg.sample
  rw [hts, rttTs_eq, hsub]
  exact Int.emod_eq_of_lt (by omega) hlt

/-- the first transmission, 2 ms before the stamps wrap, times out, and its answer arrives when the
second is on its way, 3206 ms after the first -/
theorem sample_eq_late : ∃ (g : Timed) (n : Nat), g.dg.pc = .stop n ∧ g.dg.sent.length = 2 ∧
    g.lastTo = some 0 ∧ ((g.dg.sample .little ⟨4294970, 500000⟩).toNat : Int) = 3206 := by
  have h1 := ((Run.single (Timed.Step.plain (e := .little) (g := Timed.init)
    (Step.call ⟨0, 0⟩ [97] 10 rfl) trivial)).snoc (Timed.Step.stamp ⟨4294967, 294000⟩ rfl)).snoc
    (Timed.Step.sendmsg rfl)
  have h2 := (h1.snoc (Timed.Step.plain (Step.setAlarm rfl) trivial)).snoc
    (Timed.Step.plain (Step.setjmp rfl) trivial)
  have h3 := (h2.snoc (Timed.Step.plain
    (Step.sigalrm (by decide +kernel) (Option.some_ne_none 1)) trivial)).snoc
    (Timed.Step.plain (Step.timeout rfl) trivial)
  have h4 := (h3.snoc (Timed.Step.stamp ⟨4294970, 294000⟩ rfl)).snoc (Timed.Step.sendmsg rfl)
  have h5 := (h4.snoc (Timed.Step.plain (Step.setAlarm rfl) trivial)).snoc
    (Timed.Step.plain (Step.setjmp rfl) trivial)
  have h6 := (h5.snoc (Timed.Step.serve 0 ⟨1, ⟨1, 4294967294⟩, [97]⟩ [104] rfl)).snoc
    (Timed.Step.recvAnswer 0 ⟨⟨1, ⟨1, 4294967294⟩, [97]⟩, [104]⟩ rfl rfl)
  have h7 := (h6.snoc (Timed.Step.plain (Step.test 9 rfl) trivial)).snoc
    (Timed.Step.plain (Step.stopAlarm 9 rfl) trivial)
  obtain ⟨i, st, hans, hsample⟩ := sample_eq .little _ _ 9 h7 rfl
  obtain rfl : 0 = i := Option.some.inj hans.last
  obtain rfl : (⟨⟨4294967, 294000⟩, 0⟩ : Stamp) = st := Option.some.inj hans.sentAt
  exact ⟨_, _, rfl, rfl, rfl, hsample rfl ⟨by decide, by decide⟩ ⟨4294970, 500000⟩
    ⟨by decide, by decide⟩ (by decide) (by decide)⟩

/-- a reply half a millisecond before `2^32` of them are over, from the end of one to the middle of
another: `rtt_stop` is given 0 -/
theorem not_sample_eq : ¬ ∀ (es : List Event) (g : Timed) (n i : Nat) (st : Stamp) (t1 : Timeval),
    Run (Timed.Step .little) Timed.init es g → g.dg.pc = .stop n → g.Answered i st →
    st.base = g.dg.rttinfo.rttBase → st.tv.Normal → t1.Normal → st.tv.micros ≤ t1.micros →
    t1.micros - st.tv.micros < UInt32.size * 1000 →
    ((g.dg.sample .little t1).toNat : Int) = t1.floorMs - st.tv.floorMs := by
  intro h
  have h1 := ((Run.single (Timed.Step.plain (e := .little) (g := Timed.init)
    (Step.call ⟨0, 0⟩ [97] 10 rfl) trivial)).snoc (Timed.Step.stamp ⟨0, 999⟩ rfl)).snoc
    (Timed.Step.sendmsg rfl)
  have h2 := (h1.snoc (Timed.Step.plain (Step.setAlarm rfl) trivial)).snoc
    (Timed.Step.plain (Step.setjmp rfl) trivial)
  have h3 := (h2.snoc (Timed.Step.serve 0 ⟨1, ⟨1, 0⟩, [97]⟩ [104] rfl)).snoc
    (Timed.Step.recvAnswer 0 ⟨⟨1, ⟨1, 0⟩, [97]⟩, [104]⟩ rfl rfl)
  have h4 := (h3.snoc (Timed.Step.plain (Step.test 9 rfl) trivial)).snoc
    (Timed.Step.plain (Step.stopAlarm 9 rfl) trivial)
  have hzero := h _ _ 9 0 ⟨⟨0, 999⟩, 0⟩ ⟨4294967, 296500⟩ h4 rfl ⟨rfl, ⟨_, rfl, rfl⟩, rfl⟩ rfl
    ⟨by decide, by decide⟩ ⟨by decide, by decide⟩ (by decide) (by decide)
  exact absurd hzero (by decide +kernel)

end Unp
