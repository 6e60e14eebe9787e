import NetworkProgram.Icmpd.Handshake
import NetworkProgram.Icmpd.World

/-!
# Who has asked for an ICMP error

An `icmpd_err` should go to a connection only if that connection has passed a UDP socket with the
quoted source port.  A slot keeps its `family` and `lport` when its connection ends, and
`readable_listen` gives it to the next connection as it is.

* `Registered`     the connection has registered a UDP socket with that port since it was accepted;
* `Entitled`       every `icmpd_err` written went to a registered connection;
* `CleanStep`      a new connection gets a slot without a port, a socket passed is a UDP socket;
* `entitled_run`   runs of such steps are entitled.
-/

namespace Unp.Icmpd
open Trans

/-- the connection `fd` has registered a UDP socket with the port `sport`, from the latest action
back to its `Accept` -/
def Registered (fd sport : Int) : List Act → Prop
  | [] => False
  | .accept fd' :: older => fd' ≠ fd ∧ Registered fd sport older
  | .register fd' sock :: older =>
    (fd' = fd ∧ sock.udp = true ∧ sock.boundPort.map (fun q => (q.toNat : Int)) = some sport) ∨
      Registered fd sport older
  | _ :: older => Registered fd sport older

/-- every `icmpd_err` went to a connection that had registered its source port -/
def Entitled : List Act → Prop
  | [] => True
  | .err _ fd sport _ :: older => Registered fd sport older ∧ Entitled older
  | _ :: older => Entitled older

/-- the slot carries a port of `AF_INET` -/
def Client.hasPort (c : Client) : Prop := c.family = AF_INET ∧ 0 ≤ c.lport

/-- what a step needs: a new connection gets a slot without a port, and an `AF_INET` socket that is
passed is a UDP socket -/
def CleanStep (w : World) : Event → Prop
  | .listen _ => ∀ i, w.d.freeSlot = some i → ¬ (w.d.client i).hasPort
  | .conn _ m => ∀ p port, Passes m p → p.obj.name = .ok (AF_INET, port) → p.obj.udp = true
  | .v4 _ _ => True

variable {ipv6 : Bool} {e : Endian} {d : Daemon} {w w' : World} {ev : Event} {fd sport : Int}
  {new log : List Act}

/-! ## what an action changes -/

/-- a registration lasts until its descriptor is accepted again -/
theorem Registered.add (h : Registered fd sport log) (hnew : .accept fd ∉ new) :
    Registered fd sport (new ++ log) := by
  induction new with
  | nil => exact h
  | cons a new ih =>
    have hrest := ih (fun ha => hnew (List.mem_cons_of_mem a ha))
    cases a with
    | accept fd' => exact ⟨fun heq => hnew (heq ▸ List.mem_cons_self ..), hrest⟩
    | register fd' sock => exact Or.inr hrest
    | recvfd fd' => exact hrest
    | write fd' bs => exact hrest
    | err i fd' sport' msg => exact hrest
    | close fd' => exact hrest

theorem Entitled.add (h : Entitled log) (hnew : ∀ i fd sport msg, Act.err i fd sport msg ∈ new →
    Registered fd sport log ∧ .accept fd ∉ new) : Entitled (new ++ log) := by
  induction new with
  | nil => exact h
  | cons a new ih =>
    have hrest := ih (fun i fd sport msg hmem => by
      obtain ⟨hreg, hacc⟩ := hnew i fd sport msg (List.mem_cons_of_mem a hmem)
      exact ⟨hreg, fun ha => hacc (List.mem_cons_of_mem a ha)⟩)
    cases a with
    | err i fd sport msg =>
      obtain ⟨hreg, hacc⟩ := hnew i fd sport msg (List.mem_cons_self ..)
      exact ⟨hreg.add (fun ha => hacc (List.mem_cons_of_mem _ ha)), hrest⟩
    | accept fd' => exact hrest
    | register fd' sock => exact hrest
    | recvfd fd' => exact hrest
    | write fd' bs => exact hrest
    | close fd' => exact hrest

/-! ## the invariant -/

/-- a slot in use that carries a port belongs to a connection registered for it -/
structure Owned (w : World) : Prop where
  table : Table w.d
  entitled : Entitled w.log
  slot : ∀ i, i < FD_SETSIZE → 0 ≤ (w.d.client i).connfd → (w.d.client i).hasPort →
    Registered (w.d.client i).connfd (w.d.client i).lport w.log

theorem owned_start (hfree : AllFree d) (hmaxi : d.maxi = -1) : Owned (start d) := by
  refine ⟨table_start hfree hmaxi, trivial, fun i hi h0 _ => ?_⟩
  have hneg := hfree i hi
  have h0' : 0 ≤ (d.client i).connfd := h0
  omega

theorem Owned.listen (h : Owned w) {connfd : Int}
    (fresh : ∀ i, i < FD_SETSIZE → (w.d.client i).connfd ≠ connfd)
    (hclean : CleanStep w (.listen connfd)) :
    Entitled (w.after (readableListen w.d connfd)).log ∧
    ∀ i, i < FD_SETSIZE → 0 ≤ ((readableListen w.d connfd).d.client i).connfd →
      ((readableListen w.d connfd).d.client i).hasPort →
      Registered ((readableListen w.d connfd).d.client i).connfd
        ((readableListen w.d connfd).d.client i).lport (w.after (readableListen w.d connfd)).log := by
  show Entitled ((readableListen w.d connfd).acts.reverse ++ w.log) ∧ ∀ i, _ → _ → _ →
    Registered _ _ ((readableListen w.d connfd).acts.reverse ++ w.log)
  cases listen_outcome w.d connfd with
  | full none stop client maxi acts =>
    rw [acts, client]
    refine ⟨h.entitled.add (fun i fd sport msg hmem => ?_), fun i hi h0 hp => ?_⟩
    · simp at hmem
    · refine (h.slot i hi h0 hp).add (fun hmem => fresh i hi ?_)
      simpa using hmem
  | stored k some lt free stop client maxi acts =>
    rw [acts, client]
    refine ⟨h.entitled.add (fun i fd sport msg hmem => ?_), fun i hi h0 hp => ?_⟩
    · simp at hmem
    · by_cases hik : i = k
      · subst hik
        rw [Function.update_self] at hp
        exact absurd hp (hclean i some)
      · rw [Function.update_of_ne hik] at h0 hp ⊢
        refine (h.slot i hi h0 hp).add (fun hmem => fresh i hi ?_)
        simpa using hmem

/-- the actions of `readable_conn`: no `Accept`, no `icmpd_err` -/
def Act.quiet : Act → Prop
  | .accept _ => False
  | .err _ _ _ _ => False
  | _ => True

theorem ConnOutcome.quiet {i : Nat} {m : RecvMsg Sock} {o : Out}
    (h : ConnOutcome ipv6 d i m o) : ∀ a ∈ o.acts, a.quiet := by
  cases h with
  | stopped stop err => exact fun a ha => absurd ha List.not_mem_nil
  | closed ret none =>
    rw [clientdone_acts]
    simp [Act.quiet]
  | noFd ret none =>
    rw [clienterr_acts]
    simp [Act.quiet]
  | noName p errno ret pass name =>
    rw [clienterr_acts]
    simp [Act.quiet]
  | noPort p family port ret pass name zero wild =>
    rw [clienterr_acts]
    simp [Act.quiet]
  | bound p family port ret pass name zero wild => simp [registered, Daemon.done, Act.quiet]
  | named p family port ret pass name nonzero => simp [registered, Daemon.done, Act.quiet]

theorem internet_inet (ipv6 : Bool) : Internet ipv6 AF_INET := Or.inl rfl

/-- `readable_conn` does nothing (and the daemon ends), or a port in its slot has just been
registered -/
theorem ConnOutcome.own {i : Nat} {m : RecvMsg Sock} {o : Out} (h : ConnOutcome ipv6 d i m o)
    (log : List Act)
    (hclean : ∀ p port, Passes m p → p.obj.name = .ok (AF_INET, port) → p.obj.udp = true)
    (h0 : 0 ≤ (o.d.client i).connfd) (hp : (o.d.client i).hasPort) :
    (o.d = d ∧ o.acts = []) ∨
      Registered (o.d.client i).connfd (o.d.client i).lport (o.acts.reverse ++ log) := by
  have hdone : ∀ (d' : Daemon) (fd : Int) (r : Option (Passed Sock)) (acts : List Act),
      ((clientdone d' i fd r acts).d.client i).connfd = -1 := fun d' fd r acts => by
    rw [clientdone_client, Function.update_self]
  cases h with
  | stopped stop err => exact Or.inl ⟨rfl, rfl⟩
  | closed ret none => rw [hdone] at h0; omega
  | noFd ret none => unfold clienterr at h0; rw [hdone] at h0; omega
  | noName p errno ret pass name => unfold clienterr at h0; rw [hdone] at h0; omega
  | noPort p family port ret pass name zero wild =>
    unfold clienterr at h0; rw [hdone] at h0; omega
  | bound p family port ret pass name zero wild =>
    have hslot : (registered (d.named i family (sockBindWild ipv6 p.obj family))
        (d.client i).connfd p).d.client i =
        ⟨(d.client i).connfd, family, sockBindWild ipv6 p.obj family⟩ := setClient_same _
    rw [hslot] at hp ⊢
    obtain rfl : family = AF_INET := hp.1
    obtain ⟨q, hq, _, hport⟩ := boundPort_zero name (internet_inet ipv6) zero wild
    refine Or.inr (Or.inl ⟨rfl, hclean p port pass name, ?_⟩)
    rw [hq, hport]
    rfl
  | named p family port ret pass name nonzero =>
    have hslot : (registered (d.named i family (sockGetPort ipv6 family port))
        (d.client i).connfd p).d.client i =
        ⟨(d.client i).connfd, family, sockGetPort ipv6 family port⟩ := setClient_same _
    rw [hslot] at hp ⊢
    obtain rfl : family = AF_INET := hp.1
    obtain ⟨q, hq, _, hport⟩ := boundPort_nonzero name (internet_inet ipv6) nonzero
    refine Or.inr (Or.inl ⟨rfl, hclean p port pass name, ?_⟩)
    rw [hq, hport]
    rfl

theorem Owned.step (h : Owned w) (hclean : CleanStep w ev) (hs : Step ipv6 e w ev w') :
    Owned w' := by
  have htable := h.table.changed hs.changed
  cases hs with
  | listen connfd run nonneg fresh =>
    obtain ⟨hent, hslot⟩ := h.listen fresh hclean
    exact ⟨htable, hent, hslot⟩
  | conn k m run lt le used =>
    have hout := readableConn_outcome ipv6 w.d k m
    have hown := hout.ownSlot
    have hquiet : ∀ a ∈ (readableConn ipv6 w.d k m).acts.reverse, a.quiet := fun a ha =>
      hout.quiet a (List.mem_reverse.mp ha)
    refine ⟨htable, h.entitled.add (fun i fd sport msg hmem => (hquiet _ hmem).elim), ?_⟩
    intro i hi h0 hp
    show Registered ((readableConn ipv6 w.d k m).d.client i).connfd
      ((readableConn ipv6 w.d k m).d.client i).lport
      ((readableConn ipv6 w.d k m).acts.reverse ++ w.log)
    have h0' : 0 ≤ ((readableConn ipv6 w.d k m).d.client i).connfd := h0
    have hp' : ((readableConn ipv6 w.d k m).d.client i).hasPort := hp
    by_cases hik : i = k
    · subst hik
      rcases hout.own w.log hclean h0' hp' with ⟨hd, hacts⟩ | hreg
      · rw [hd] at h0' hp' ⊢
        rw [hacts]
        exact h.slot i hi h0' hp'
      · exact hreg
    · rw [hown.other i hik] at h0' hp' ⊢
      exact (h.slot i hi h0' hp').add (fun hmem => (hquiet _ hmem).elim)
  | v4 buf n run =>
    obtain ⟨hclient, _, hacts⟩ := v4_outcome e w.d buf n
    have hmem : ∀ a ∈ (readableV4 e w.d buf n).acts.reverse, ∃ i : Nat, (i : Int) < w.d.maxi ∧
        (w.d.client i).wants (quotedPort e buf) = true ∧ a = notice e w.d buf i := by
      intro a ha
      rw [List.mem_reverse] at ha
      rcases hacts with hnil | hscan
      · rw [hnil] at ha
        exact absurd ha List.not_mem_nil
      · rw [hscan] at ha
        obtain ⟨i, hi, hw, rfl⟩ := mem_scan ha
        exact ⟨i, by omega, hw, rfl⟩
    have hacc : ∀ fd, Act.accept fd ∉ (readableV4 e w.d buf n).acts.reverse := fun fd ha => by
      obtain ⟨i, _, _, heq⟩ := hmem _ ha
      cases heq
    have hhi := h.table.hi
    refine ⟨htable, h.entitled.add (fun i fd sport msg ha => ⟨?_, hacc fd⟩), fun i hi h0 hp => ?_⟩
    · obtain ⟨k, hk, hw, heq⟩ := hmem _ ha
      obtain ⟨hconn, hfam, hport⟩ := ((w.d.client k).wants_iff _).mp hw
      cases heq
      have hreg := h.slot i (by omega) hconn ⟨hfam, hport ▸ Int.natCast_nonneg _⟩
      rw [hport] at hreg
      exact hreg
    · show Registered ((readableV4 e w.d buf n).d.client i).connfd
        ((readableV4 e w.d buf n).d.client i).lport ((readableV4 e w.d buf n).acts.reverse ++ w.log)
      have h0' : 0 ≤ ((readableV4 e w.d buf n).d.client i).connfd := h0
      have hp' : ((readableV4 e w.d buf n).d.client i).hasPort := hp
      rw [hclient] at h0' hp' ⊢
      exact (h.slot i hi h0' hp').add (hacc _)

/-- **Errors go to those who asked.**  In every run from a free table in which no connection gets a
slot that still carries a port, and every `AF_INET` socket passed is a UDP socket, an `icmpd_err`
is written only to a connection that has registered its source port. -/
theorem entitled_run (ipv6 : Bool) (e : Endian) (d : Daemon) (es : List Event) (w : World)
    (hfree : AllFree d) (hmaxi : d.maxi = -1)
    (h : Run (When CleanStep (Step ipv6 e)) (start d) es w) : Entitled w.log := by
  have howned : Owned w := by
    induction h with
    | nil => exact owned_start hfree hmaxi
    | snoc _ hs ih => exact ih.step hs.1 hs.2
  exact howned.entitled

/-! ## two histories -/

theorem cleanStep_listen {connfd : Int} {i : Nat} (hfree : w.d.freeSlot = some i)
    (hport : (w.d.client i).family ≠ AF_INET) : CleanStep w (.listen connfd) := by
  intro j hj hp
  obtain rfl := Option.some.inj (hfree.symm.trans hj)
  exact hport hp.1

theorem cleanStep_conn {i : Nat} {m : RecvMsg Sock} {p : Passed Sock} (hp : Passes m p)
    (hudp : p.obj.udp = true) : CleanStep w (.conn i m) := by
  intro p' _ hp' _
  rw [hp'.unique hp]
  exact hudp

theorem cleanStep_v4 (buf : Nat → UInt8) (n : Nat) : CleanStep w (.v4 buf n) := trivial

theorem allFree_tableOf : AllFree (tableOf []) := by
  intro i _
  show (-1 : Int) < 0
  omega

/-- the client on descriptor 10 has registered port 1234, and a second client has come -/
def twoClients : World :=
  let w := start (tableOf [])
  let w := w.after (readableListen w.d 10)
  let w := w.after (readableConn false w.d 0 udp1234)
  w.after (readableListen w.d 11)

theorem twoClients_run : Run (When CleanStep (Step false .big)) (start (tableOf []))
    [.listen 10, .conn 0 udp1234, .listen 11] twoClients := by
  have hmax : MaxUsed (tableOf []) := tableOf_maxUsed (Nat.zero_le _)
  have h0 : Run (When CleanStep (Step false .big)) (start (tableOf [])) [] (start (tableOf [])) :=
    Run.nil
  have h1 := h0.snoc ⟨cleanStep_listen rfl (by decide), Step.listen 10 rfl (by omega)
    ((maxUsed_run hmax h0.of_when).fresh 0 (by omega) (by decide) (by decide))⟩
  have h2 := h1.snoc ⟨cleanStep_conn (show Passes udp1234 _ from rfl) rfl,
    Step.conn 0 udp1234 rfl (by decide) (by decide) (by decide)⟩
  exact h2.snoc ⟨cleanStep_listen rfl (by decide), Step.listen 11 rfl (by omega)
    ((maxUsed_run hmax h2.of_when).fresh 1 (by omega) (by decide) (by decide))⟩

/-- a client with port 1234 leaves, and the next client in its slot is told about that port -/
theorem not_entitled : ¬ ∀ (ipv6 : Bool) (e : Endian) (d : Daemon) (es : List Event) (w : World),
    AllFree d → d.maxi = -1 → Run (Step ipv6 e) (start d) es w → Entitled w.log := by
  intro h
  have hmax : MaxUsed (tableOf []) := tableOf_maxUsed (Nat.zero_le _)
  have h1 := twoClients_run.of_when.snoc
    (Step.conn 0 ⟨0, none⟩ rfl (by decide) (by decide) (by decide))
  have h2 := h1.snoc (Step.listen 10 rfl (by omega)
    ((maxUsed_run hmax h1).fresh 2 (by omega) (by decide) (by decide)))
  have h3 := h2.snoc (Step.v4 portUnreach 56 rfl)
  have hent := h false .big (tableOf []) _ _ allFree_tableOf rfl h3
  have hreg : (10 : Int) ≠ 10 ∧ _ := hent.1
  exact hreg.1 rfl

/-- while it is connected it is told -/
theorem entitled_run_connected : ∃ es w,
    Run (When CleanStep (Step false .big)) (start (tableOf [])) es w ∧
    w.log.countP (Act.isFor 0) = 1 ∧ Entitled w.log := by
  have h1 := twoClients_run.snoc ⟨cleanStep_v4 portUnreach 56, Step.v4 portUnreach 56 rfl⟩
  exact ⟨_, _, h1, by decide, entitled_run false .big (tableOf []) _ _ allFree_tableOf rfl h1⟩

end Unp.Icmpd
