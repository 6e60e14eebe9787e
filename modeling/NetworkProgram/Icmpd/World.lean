import NetworkProgram.Icmpd.Conn
import NetworkProgram.Icmpd.Notify
import NetworkProgram.Lib.Run

/-!
# Histories of the daemon

A `World` is the daemon with everything it has done; a step is a call of one of the three handlers,
in any order.  `Accept` returns a descriptor that is not open, and `readable_conn` is called on
slots in use.

* `Step`             the step relation;
* `held`             the connections accepted and not closed;
* `listen_outcome`   what `readable_listen` does;
* `Changed`          what a step does to the table;
* `Table`, `maxUsed_run`   connections have different descriptors, and `maxi` is the largest index
                     ever used.
-/

namespace Unp.Icmpd
open Trans

inductive Event where
  | listen (connfd : Int)
  | conn (i : Nat) (m : RecvMsg Sock)
  | v4 (buf : Nat → UInt8) (n : Nat)

/-- `log` begins with the latest action -/
structure World where
  d : Daemon
  log : List Act
  stopped : Bool

def start (d : Daemon) : World := ⟨d, [], false⟩

def World.after (w : World) (o : Out) : World := ⟨o.d, o.acts.reverse ++ w.log, o.stop.isSome⟩

inductive Step (ipv6 : Bool) (e : Endian) (w : World) : Event → World → Prop where
  | listen (connfd : Int) (run : w.stopped = false) (nonneg : 0 ≤ connfd)
      (fresh : ∀ i, i < FD_SETSIZE → (w.d.client i).connfd ≠ connfd) :
      Step ipv6 e w (.listen connfd) (w.after (readableListen w.d connfd))
  | conn (i : Nat) (m : RecvMsg Sock) (run : w.stopped = false) (lt : i < FD_SETSIZE)
      (le : i ≤ w.d.maxi) (used : 0 ≤ (w.d.client i).connfd) :
      Step ipv6 e w (.conn i m) (w.after (readableConn ipv6 w.d i m))
  | v4 (buf : Nat → UInt8) (n : Nat) (run : w.stopped = false) :
      Step ipv6 e w (.v4 buf n) (w.after (readableV4 e w.d buf n))

/-- the connections accepted and not closed, from the latest action back -/
def held : List Act → List Int
  | [] => []
  | .accept fd :: older => fd :: held older
  | .close fd :: older => (held older).filter (fun fd' => fd' ≠ fd)
  | _ :: older => held older

/-- every slot is free -/
def AllFree (d : Daemon) : Prop := ∀ i, i < FD_SETSIZE → (d.client i).connfd < 0

variable {ipv6 : Bool} {e : Endian} {d : Daemon} {w w' : World} {ev : Event}

/-! ## readable_listen -/

theorem findFree_some {client : Nat → Client} {left i j : Nat}
    (h : findFree client left i = some j) : i ≤ j ∧ j < i + left ∧ (client j).connfd < 0 := by
  fun_induction findFree client left i with
  | case1 i => exact absurd h (by simp)
  | case2 left i hneg =>
    obtain rfl := Option.some.inj h
    exact ⟨Nat.le_refl _, by omega, hneg⟩
  | case3 left i hneg ih =>
    obtain ⟨h1, h2, h3⟩ := ih h
    exact ⟨by omega, by omega, h3⟩

theorem findFree_none {client : Nat → Client} {left i : Nat}
    (h : ∀ j, i ≤ j → j < i + left → 0 ≤ (client j).connfd) : findFree client left i = none := by
  fun_induction findFree client left i with
  | case1 i => rfl
  | case2 left i hneg =>
    have hi := h i (Nat.le_refl _) (by omega)
    omega
  | case3 left i hneg ih => exact ih (fun j h1 h2 => h j (by omega) (by omega))

inductive ListenOutcome (d : Daemon) (connfd : Int) (o : Out) : Prop where
  | full (none : d.freeSlot = none) (stop : o.stop = .none) (client : o.d.client = d.client)
      (maxi : o.d.maxi = d.maxi) (acts : o.acts = [.accept connfd, .close connfd])
  | stored (i : Nat) (some : d.freeSlot = some i) (lt : i < FD_SETSIZE)
      (free : (d.client i).connfd < 0) (stop : o.stop = .none)
      (client : o.d.client = Function.update d.client i { d.client i with connfd := connfd })
      (maxi : o.d.maxi = max d.maxi i) (acts : o.acts = [.accept connfd])

theorem listen_outcome (d : Daemon) (connfd : Int) :
    ListenOutcome d connfd (readableListen d connfd) := by
  cases h : d.freeSlot with
  | none =>
    have hout : readableListen d connfd = d.done [.accept connfd, .close connfd] := by
      unfold readableListen
      rw [h]
    rw [hout]
    exact .full h rfl rfl rfl rfl
  | some i =>
    obtain ⟨_, hlt, hfree⟩ := findFree_some h
    unfold readableListen
    rw [h]
    dsimp only
    refine .stored i h (by omega) hfree rfl rfl ?_ rfl
    show (if (i : Int) > d.maxi then (i : Int) else d.maxi) = max d.maxi i
    split <;> omega

/-! ## the other handlers -/

/-- `readable_conn` leaves the other slots and `maxi` alone, and keeps or frees its own slot -/
structure OwnSlot (d : Daemon) (i : Nat) (d' : Daemon) : Prop where
  maxi : d'.maxi = d.maxi
  other : ∀ j, j ≠ i → d'.client j = d.client j
  own : (d'.client i).connfd = (d.client i).connfd ∨ (d'.client i).connfd = -1

theorem ownSlot_clientdone {i : Nat} {unixfd : Int} {r : Option (Passed Sock)} {acts : List Act}
    {d' : Daemon} (hmaxi : d'.maxi = d.maxi) (hother : ∀ j, j ≠ i → d'.client j = d.client j) :
    OwnSlot d i (clientdone d' i unixfd r acts).d := by
  refine ⟨hmaxi, fun j hj => ?_, Or.inr ?_⟩
  · rw [clientdone_client, Function.update_of_ne hj]
    exact hother j hj
  · rw [clientdone_client, Function.update_self]

theorem ownSlot_named (d : Daemon) (i family : Nat) (lport : Int) :
    OwnSlot d i (d.named i family lport) := by
  refine ⟨rfl, fun j hj => setClient_other _ hj, Or.inl ?_⟩
  unfold Daemon.named
  rw [setClient_same]

theorem ConnOutcome.ownSlot {i : Nat} {m : RecvMsg Sock} {o : Out}
    (h : ConnOutcome ipv6 d i m o) : OwnSlot d i o.d := by
  have hnamed := ownSlot_named d i
  cases h with
  | stopped stop err => exact ⟨rfl, fun _ _ => rfl, Or.inl rfl⟩
  | closed ret none => exact ownSlot_clientdone rfl (fun _ _ => rfl)
  | noFd ret none => exact ownSlot_clientdone rfl (fun _ _ => rfl)
  | noName p errno ret pass name => exact ownSlot_clientdone rfl (fun _ _ => rfl)
  | noPort p family port ret pass name zero wild =>
    exact ownSlot_clientdone rfl (hnamed family _).other
  | bound p family port ret pass name zero wild =>
    exact ⟨rfl, (hnamed family _).other, (hnamed family _).own⟩
  | named p family port ret pass name nonzero =>
    exact ⟨rfl, (hnamed family _).other, (hnamed family _).own⟩

/-- `readable_v4` changes no slot, and writes nothing or scans the table -/
theorem v4_outcome (e : Endian) (d : Daemon) (buf : Nat → UInt8) (n : Nat) :
    (readableV4 e d buf n).d.client = d.client ∧ (readableV4 e d buf n).d.maxi = d.maxi ∧
    ((readableV4 e d buf n).acts = [] ∨
      (readableV4 e d buf n).acts = scan e d buf d.maxi.toNat) := by
  unfold readableV4
  dsimp only
  split
  · exact ⟨rfl, rfl, Or.inl rfl⟩
  · split
    · split
      · exact ⟨rfl, rfl, Or.inl rfl⟩
      · split
        · exact ⟨rfl, rfl, Or.inr rfl⟩
        · exact ⟨rfl, rfl, Or.inl rfl⟩
    · exact ⟨rfl, rfl, Or.inl rfl⟩

/-- what a step does to the table -/
inductive Changed (d d' : Daemon) : Prop where
  | same (client : d'.client = d.client) (maxi : d'.maxi = d.maxi)
  | stored (i : Nat) (connfd : Int) (lt : i < FD_SETSIZE)
      (fresh : ∀ j, j < FD_SETSIZE → (d.client j).connfd ≠ connfd)
      (client : d'.client = Function.update d.client i { d.client i with connfd := connfd })
      (maxi : d'.maxi = max d.maxi i)
  | own (i : Nat) (le : i ≤ d.maxi) (slot : OwnSlot d i d')

theorem Step.changed (hs : Step ipv6 e w ev w') : Changed w.d w'.d := by
  cases hs with
  | listen connfd run nonneg fresh =>
    cases listen_outcome w.d connfd with
    | full none stop client maxi acts => exact .same client maxi
    | stored i some lt free stop client maxi acts => exact .stored i connfd lt fresh client maxi
  | conn i m run lt le used => exact .own i le (readableConn_outcome ipv6 w.d i m).ownSlot
  | v4 buf n run =>
    obtain ⟨hclient, hmaxi, _⟩ := v4_outcome e w.d buf n
    exact .same hclient hmaxi

/-! ## the table along a run -/

structure Table (d : Daemon) : Prop where
  hi : d.maxi < FD_SETSIZE
  distinct : ∀ i j, i < FD_SETSIZE → j < FD_SETSIZE → 0 ≤ (d.client i).connfd →
    (d.client i).connfd = (d.client j).connfd → i = j

variable {d' : Daemon}

theorem table_start (hfree : AllFree d) (hmaxi : d.maxi = -1) : Table d := by
  refine ⟨by rw [hmaxi]; decide, ?_⟩
  intro i j hi _ h0 _
  have hneg := hfree i hi
  omega

theorem Table.changed (h : Table d) (hc : Changed d d') : Table d' := by
  have hhi := h.hi
  cases hc with
  | same client maxi =>
    refine ⟨by rw [maxi]; exact hhi, ?_⟩
    rw [client]
    exact h.distinct
  | stored k connfd lt fresh client maxi =>
    have hself : (d'.client k).connfd = connfd := by rw [client, Function.update_self]
    have hother : ∀ j, j ≠ k → d'.client j = d.client j := fun j hj => by
      rw [client, Function.update_of_ne hj]
    refine ⟨by rw [maxi]; omega, ?_⟩
    intro i j hi hj h0 heq
    by_cases hik : i = k
    · by_cases hjk : j = k
      · rw [hik, hjk]
      · rw [hik, hself, hother j hjk] at heq
        exact absurd heq.symm (fresh j hj)
    · by_cases hjk : j = k
      · rw [hjk, hself, hother i hik] at heq
        exact absurd heq (fresh i hi)
      · rw [hother i hik] at h0 heq
        rw [hother j hjk] at heq
        exact h.distinct i j hi hj h0 heq
  | own k le slot =>
    -- a slot in use after the step was in use before it, with the same descriptor
    have hback : ∀ l, 0 ≤ (d'.client l).connfd → (d'.client l).connfd = (d.client l).connfd := by
      intro l hl
      by_cases hlk : l = k
      · subst hlk
        rcases slot.own with hsame | hfree
        · exact hsame
        · omega
      · rw [slot.other l hlk]
    refine ⟨by rw [slot.maxi]; exact hhi, ?_⟩
    intro i j hi hj h0 heq
    have hi' := hback i h0
    have hj' := hback j (heq ▸ h0)
    exact h.distinct i j hi hj (hi' ▸ h0) (hi'.symm.trans (heq.trans hj'))

/-- `maxi` stays the largest index ever used -/
theorem MaxUsed.changed (h : MaxUsed d) (hc : Changed d d') : MaxUsed d' := by
  have hlo := h.lo
  have hhi := h.hi
  cases hc with
  | same client maxi =>
    refine ⟨by rw [maxi]; exact hlo, by rw [maxi]; exact hhi, ?_⟩
    intro i hi hgt
    rw [maxi] at hgt
    rw [client]
    exact h.above i hi hgt
  | stored k connfd lt fresh client maxi =>
    refine ⟨by rw [maxi]; omega, by rw [maxi]; omega, ?_⟩
    intro i hi hgt
    rw [maxi] at hgt
    rw [client, Function.update_of_ne (by omega)]
    exact h.above i hi (by omega)
  | own k le slot =>
    refine ⟨by rw [slot.maxi]; exact hlo, by rw [slot.maxi]; exact hhi, ?_⟩
    intro i hi hgt
    rw [slot.maxi] at hgt
    rw [slot.other i (by omega)]
    exact h.above i hi hgt

/-- **`maxi` is what the scan of `readable_v4` relies on**: in every run it is the largest index
ever used. -/
theorem maxUsed_run {es : List Event} (h0 : MaxUsed d) (h : Run (Step ipv6 e) (start d) es w) :
    MaxUsed w.d := by
  induction h with
  | nil => exact h0
  | snoc _ hs ih => exact ih.changed hs.changed

/-- a descriptor that is in none of the slots below `k` is in none, when the others were never
used -/
theorem MaxUsed.fresh (h : MaxUsed d) {connfd : Int} (k : Nat) (hpos : 0 < connfd)
    (hk : d.maxi < k) (hlow : ∀ i < k, (d.client i).connfd ≠ connfd) :
    ∀ i, i < FD_SETSIZE → (d.client i).connfd ≠ connfd := by
  intro i hi
  by_cases hik : i < k
  · exact hlow i hik
  · rcases h.above i hi (by omega) with hc | hc
    · rw [hc]; show (-1 : Int) ≠ connfd; omega
    · rw [hc]; show (0 : Int) ≠ connfd; omega

end Unp.Icmpd
