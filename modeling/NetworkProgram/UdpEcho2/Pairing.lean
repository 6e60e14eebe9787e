import NetworkProgram.Lib.Run
import NetworkProgram.UdpEcho2.Impl

/-!
# The reply to the request of the same iteration

The replies that have been printed and those that are on their way are the requests, in order
(`Flow.conserve`).  So an iteration that ignores a datagram leaves its reply to the next one.

* `Paired`        every line printed is the reply to the request of its iteration;
* `pairing_iff`   the runs in which it is so.
-/

namespace Unp.UdpEcho2
open Trans

/-- every reply printed answers the request of the same iteration -/
def Paired (s : State) : Prop :=
  ∀ iter line req, Out.reply iter line req ∈ s.stdout →
    req = some iter ∧ s.sent[iter]? = some line

def Out.isReply : Out → Bool
  | .reply _ _ _ => true
  | .ignored _ => false

/-- where the server's datagram is received, no datagram has been ignored before -/
def Undisturbed (servaddr : List UInt8) (s : State) (e : Event) : Prop :=
  e = .recvfrom → ∀ d rest, s.socket = d :: rest → d.src = servaddr →
    ∀ o ∈ s.stdout, o.isReply = true

/-- the request that a datagram answers -/
def Datagram.answer (d : Datagram) : Option (List UInt8 × Nat) := d.req.map (fun r => (d.payload, r))

def Out.answer : Out → Option (List UInt8 × Nat)
  | .reply _ line req => req.map (fun r => (line, r))
  | .ignored _ => none

/-- the requests between `Sendto` and `Recvfrom`, the oldest first -/
def State.outstanding (s : State) : List (List UInt8 × Nat) :=
  s.socket.filterMap Datagram.answer ++ (s.fromServer ++ s.toServer)

/-- the request fits into the reply's buffer -/
def Plain (req : List UInt8) : Prop := req.length ≤ MAXLINE ∧ 0 ∉ req

structure Flow (servaddr : List UInt8) (s : State) : Prop where
  conserve : s.stdout.filterMap Out.answer ++ s.outstanding = s.sent.zipIdx
  iter : s.stdout.length + (if s.pc = .recvfrom then 1 else 0) = s.sent.length
  genuine : ∀ d ∈ s.socket, d.src = servaddr ↔ d.req ≠ none
  printed : ∀ o ∈ s.stdout, o.isReply = true → o.answer ≠ none
  plain : ∀ req ∈ s.sent, Plain req

variable {servaddr input : List UInt8} {s t : State} {e : Event} {d : Datagram}

theorem flow_start : Flow servaddr (start input) where
  conserve := rfl
  iter := rfl
  genuine _ hd := absurd hd List.not_mem_nil
  printed _ ho := absurd ho List.not_mem_nil
  plain _ hreq := absurd hreq List.not_mem_nil

/-! ## the test of the address -/

theorem recvfrom_genuine (h : d.src = servaddr) : s.recvfrom servaddr d =
    { s with
      pc := .fgets
      stdout := s.stdout ++ [.reply (s.sent.length - 1) (cstr (d.payload.take MAXLINE)) d.req] } := by
  unfold State.recvfrom
  simp [h]

theorem recvfrom_foreign (h : d.src ≠ servaddr) : s.recvfrom servaddr d =
    { s with pc := .fgets, stdout := s.stdout ++ [.ignored (d.src.take servaddr.length)] } := by
  unfold State.recvfrom
  dsimp only
  rw [if_pos]
  by_contra hc
  obtain ⟨hlen, haddr⟩ := not_or.mp hc
  rw [not_not] at hlen haddr
  rw [hlen, List.take_length, List.take_take, Nat.min_self, ← hlen, List.take_length] at haddr
  exact h haddr.symm

/-! ## the requests -/

theorem mem_sent {req : List UInt8} {r : Nat} (h : (req, r) ∈ s.sent.zipIdx) : req ∈ s.sent := by
  rw [List.mem_zipIdx_iff_getElem?] at h
  exact List.mem_of_getElem? h

theorem plain_cstr (fp : List UInt8) : Plain (cstr (Cut.cut isNl (MAXLINE - 1) fp).1) := by
  constructor
  · have hlen := (Cut.cut_piece (p := isNl) (MAXLINE - 1) fp).length_le
    have hle := cstr_length_le (Cut.cut isNl (MAXLINE - 1) fp).1
    have hmax : MAXLINE - 1 ≤ MAXLINE := by decide
    exact Nat.le_trans hle (Nat.le_trans hlen hmax)
  · exact zero_notMem_cstr _

theorem Plain.printed {req : List UInt8} (h : Plain req) : cstr (req.take MAXLINE) = req := by
  rw [List.take_of_length_le h.1, cstr_of_not_mem h.2]

/-! ## the steps -/

theorem Flow.fgets (h : Flow servaddr s) (pc : s.pc = .fgets) : Flow servaddr s.fgets := by
  have hiter := h.iter
  rw [pc, if_neg (by decide)] at hiter
  unfold State.fgets
  by_cases hfp : s.fp = []
  · rw [hfp, fgets_nil]
    exact ⟨h.conserve, hiter, h.genuine, h.printed, h.plain⟩
  · rw [fgets_of_ne_nil hfp]
    refine ⟨?_, ?_, h.genuine, h.printed, fun req hreq => ?_⟩
    · dsimp only [State.outstanding]
      rw [List.zipIdx_append, ← h.conserve, State.outstanding, ← List.append_assoc s.fromServer,
        ← List.append_assoc (s.socket.filterMap _), ← List.append_assoc (s.stdout.filterMap _)]
      rw [Nat.zero_add]
      rfl
    · rw [if_pos rfl, List.length_append, List.length_singleton]
      dsimp only
      omega
    · rcases List.mem_append.mp hreq with hold | hnew
      · exact h.plain req hold
      · rw [List.mem_singleton.mp hnew]
        exact plain_cstr s.fp

/-- the oldest request outstanding is answered -/
theorem Flow.oldest (h : Flow servaddr s) {rest : List Datagram} (chan : s.socket = d :: rest)
    (hsrc : d.src = servaddr) :
    d.req = some (s.stdout.filterMap Out.answer).length ∧
      s.sent[(s.stdout.filterMap Out.answer).length]? = some d.payload ∧
      cstr (d.payload.take MAXLINE) = d.payload := by
  have hne := (h.genuine d (chan ▸ List.mem_cons_self ..)).mp hsrc
  obtain ⟨r, hr⟩ := Option.ne_none_iff_exists'.mp hne
  have hcons := h.conserve
  have hans : d.answer = some (d.payload, r) := by
    unfold Datagram.answer
    rw [hr]
    rfl
  rw [State.outstanding, chan, List.filterMap_cons_some hans] at hcons
  have hget : s.sent.zipIdx[(s.stdout.filterMap Out.answer).length]? = some (d.payload, r) := by
    rw [← hcons, List.getElem?_append_right (Nat.le_refl _), Nat.sub_self]
    rfl
  have hmem : (d.payload, r) ∈ s.sent.zipIdx := List.mem_of_getElem? hget
  have hplain := h.plain _ (mem_sent hmem)
  rw [List.getElem?_zipIdx] at hget
  obtain ⟨req, hreq, hpair⟩ := Option.map_eq_some_iff.mp hget
  obtain ⟨rfl, hidx⟩ := Prod.mk.inj hpair
  rw [Nat.zero_add] at hidx
  exact ⟨by rw [hr, hidx], hreq, hplain.printed⟩

/-- `Recvfrom` returns: the iteration is over, and `o` has been printed -/
theorem Flow.received (h : Flow servaddr s) (pc : s.pc = .recvfrom) {rest : List Datagram}
    (chan : s.socket = d :: rest) {o : Out} (hans : o.answer = d.answer)
    (hprint : o.isReply = true → o.answer ≠ none) :
    Flow servaddr { s with socket := rest, pc := .fgets, stdout := s.stdout ++ [o] } := by
  have hiter := h.iter
  rw [pc, if_pos rfl] at hiter
  refine ⟨?_, ?_, fun d' hd' => h.genuine d' (chan ▸ List.mem_cons_of_mem _ hd'), ?_, h.plain⟩
  · have hcons := h.conserve
    rw [State.outstanding, chan] at hcons
    rw [← hcons, List.filterMap_append, List.append_assoc]
    congr 1
    show [o].filterMap Out.answer ++ (rest.filterMap Datagram.answer ++ _) = _
    rw [List.filterMap_cons, List.filterMap_cons, hans]
    cases d.answer with
    | none => rfl
    | some a => rfl
  · rw [if_neg (show Pc.fgets ≠ .recvfrom by decide), List.length_append, List.length_singleton]
    exact hiter
  · intro o' ho' hrep
    rcases List.mem_append.mp ho' with hold | hnew
    · exact h.printed o' hold hrep
    · rw [List.mem_singleton.mp hnew] at hrep ⊢
      exact hprint hrep

theorem Flow.step (h : Flow servaddr s) (hs : Step servaddr s e t) : Flow servaddr t := by
  cases hs with
  | fgets pc => exact h.fgets pc
  | echo r rest chan =>
    refine ⟨?_, h.iter, h.genuine, h.printed, h.plain⟩
    have hcons := h.conserve
    rw [State.outstanding, chan] at hcons
    rw [← hcons, State.outstanding, List.append_assoc s.fromServer]
    rfl
  | arrive r rest chan =>
    refine ⟨?_, h.iter, fun d hd => ?_, h.printed, h.plain⟩
    · have hcons := h.conserve
      rw [State.outstanding, chan] at hcons
      rw [← hcons, State.outstanding, List.filterMap_append, List.append_assoc (s.socket.filterMap _)]
      rfl
    · rcases List.mem_append.mp hd with hold | hnew
      · exact h.genuine d hold
      · rw [List.mem_singleton.mp hnew]
        exact iff_of_true rfl (Option.some_ne_none _)
  | foreign src payload other =>
    refine ⟨?_, h.iter, fun d hd => ?_, h.printed, h.plain⟩
    · rw [← h.conserve, State.outstanding, List.filterMap_append]
      show _ ++ ((_ ++ []) ++ _) = _
      rw [List.append_nil]
      rfl
    · rcases List.mem_append.mp hd with hold | hnew
      · exact h.genuine d hold
      · rw [List.mem_singleton.mp hnew]
        exact iff_of_false other (fun hc => hc rfl)
  | recvfrom d rest pc chan =>
    by_cases hsrc : d.src = servaddr
    · obtain ⟨hreq, _, hline⟩ := h.oldest chan hsrc
      rw [recvfrom_genuine hsrc, hline]
      exact h.received pc chan rfl (fun _ hc => by rw [Out.answer, hreq] at hc; cases hc)
    · have hnone : d.req = none := by
        by_contra hne
        exact hsrc ((h.genuine d (chan ▸ List.mem_cons_self ..)).mpr hne)
      rw [recvfrom_foreign hsrc]
      refine h.received pc chan ?_ (fun hc => by cases hc)
      unfold Datagram.answer
      rw [hnone]
      rfl

/-! ## the pairing -/

/-- nothing has been ignored: as many replies as lines -/
theorem Flow.replies (h : Flow servaddr s) :
    (s.stdout.filterMap Out.answer).length = s.stdout.length ↔
      ∀ o ∈ s.stdout, o.isReply = true := by
  rw [List.filterMap_length_eq_length]
  refine forall₂_congr (fun o ho => ?_)
  constructor
  · intro hsome
    cases o with
    | reply iter line req => rfl
    | ignored src => cases hsome
  · intro hrep
    exact Option.isSome_iff_ne_none.mpr (h.printed o ho hrep)

/-- a step that prints no reply -/
theorem Paired.of_eq (h : Paired s) (hout : ∀ iter line req, Out.reply iter line req ∈ t.stdout →
    Out.reply iter line req ∈ s.stdout) (hsent : s.sent <+: t.sent) : Paired t := by
  intro iter line req hmem
  obtain ⟨hreq, hline⟩ := h iter line req (hout iter line req hmem)
  obtain ⟨later, hlater⟩ := hsent
  have hlt : iter < s.sent.length := (List.getElem?_eq_some_iff.mp hline).1
  rw [← hlater, List.getElem?_append_left hlt]
  exact ⟨hreq, hline⟩

/-- the server's datagram is received -/
theorem Flow.paired_recvfrom (h : Flow servaddr s) (hp : Paired s) (pc : s.pc = .recvfrom)
    {rest : List Datagram} (chan : s.socket = d :: rest) (hsrc : d.src = servaddr) :
    Paired (State.recvfrom servaddr { s with socket := rest } d) ↔
      ∀ o ∈ s.stdout, o.isReply = true := by
  have hiter := h.iter
  rw [pc, if_pos rfl] at hiter
  obtain ⟨hreq, hsent, hline⟩ := h.oldest chan hsrc
  rw [recvfrom_genuine hsrc, hline, hreq, ← h.replies]
  constructor
  · intro hpair
    have hnew := (hpair _ _ _ (List.mem_append_right _ (List.mem_singleton_self _))).1
    have heq := Option.some.inj hnew
    dsimp only at heq
    omega
  · intro heq iter line req hmem
    rcases List.mem_append.mp hmem with hold | hnew
    · exact hp iter line req hold
    · cases List.mem_singleton.mp hnew
      have hlast : s.sent.length - 1 = (s.stdout.filterMap Out.answer).length := by omega
      dsimp only
      rw [hlast]
      exact ⟨rfl, hsent⟩

/-- a reply is paired exactly if nothing has been ignored before -/
theorem Step.paired_iff (h : Flow servaddr s) (hp : Paired s) (hs : Step servaddr s e t) :
    Paired t ↔ Undisturbed servaddr s e := by
  cases hs with
  | fgets pc =>
    refine iff_of_true (hp.of_eq ?_ ?_) (fun hc => by cases hc)
    · unfold State.fgets
      cases Unp.fgets MAXLINE s.fp with
      | none => exact fun _ _ _ hm => hm
      | some r => exact fun _ _ _ hm => hm
    · unfold State.fgets
      cases Unp.fgets MAXLINE s.fp with
      | none => exact List.prefix_rfl
      | some r => exact List.prefix_append _ _
  | echo r rest chan => exact iff_of_true hp (fun hc => by cases hc)
  | arrive r rest chan => exact iff_of_true hp (fun hc => by cases hc)
  | foreign src payload other => exact iff_of_true hp (fun hc => by cases hc)
  | recvfrom d rest pc chan =>
    have hhead : ∀ d' rest', s.socket = d' :: rest' → d' = d := fun d' rest' h' =>
      (List.cons.inj (h'.symm.trans chan)).1
    by_cases hsrc : d.src = servaddr
    · rw [h.paired_recvfrom hp pc chan hsrc]
      constructor
      · intro hall _ d' rest' _ _
        exact hall
      · intro hund
        exact hund rfl d rest chan hsrc
    · refine iff_of_true ?_ (fun _ d' rest' h' hsrc' => absurd (hhead d' rest' h' ▸ hsrc') hsrc)
      rw [recvfrom_foreign hsrc]
      refine hp.of_eq (fun iter line req hm => ?_) List.prefix_rfl
      rcases List.mem_append.mp hm with hold | hnew
      · exact hold
      · cases List.mem_singleton.mp hnew

/-- **Which runs pair replies with requests.**  Every line printed in a run is the server's reply to
the request of the same iteration exactly when no datagram of the server is received after one that
has been ignored. -/
theorem pairing_iff (servaddr input : List UInt8) (es : List Event) (t : State) :
    Run (Obey (fun _ _ => Paired) (Step servaddr)) (start input) es t ↔
      Run (When (Undisturbed servaddr) (Step servaddr)) (start input) es t :=
  Run.obey_iff_when (fun s => Flow servaddr s ∧ Paired s)
    ⟨flow_start, fun _ _ _ hm => absurd hm List.not_mem_nil⟩
    (fun _ _ _ hinv hs => hs.paired_iff hinv.1 hinv.2)
    (fun _ _ _ hinv hs => ⟨hinv.1.step hs.2, (hs.2.paired_iff hinv.1 hinv.2).mpr hs.1⟩)

/-! ## one foreign datagram -/

/-- a `sockaddr_in` of 127.0.0.1, on a host of little endian -/
def loopback (port : UInt16) : List UInt8 :=
  [2, 0, (port >>> 8).toUInt8, port.toUInt8, 127, 0, 0, 1, 0, 0, 0, 0, 0, 0, 0, 0]

/-- `"a\n"` and `"b\n"`; another sender's datagram is received first, and the reply to `"a\n"` is
printed in the iteration of `"b\n"` -/
theorem not_paired : ¬ ∀ servaddr input es t,
    Run (Step servaddr) (start input) es t → Paired t := by
  intro h
  have hrun : Run (Step (loopback 1234)) (start [97, 10, 98, 10]) _ _ :=
    ((((((Run.single (Step.fgets rfl)).snoc (Step.foreign (loopback 1235) [] (by decide))).snoc
      (Step.recvfrom _ _ rfl rfl)).snoc (Step.fgets rfl)).snoc (Step.echo _ _ rfl)).snoc
      (Step.arrive _ _ rfl)).snoc (Step.recvfrom _ _ rfl rfl)
  have hlate := (h _ _ _ _ hrun 1 [97, 10] (some 0) (by decide)).1
  exact absurd hlate (by decide)

end Unp.UdpEcho2
