import NetworkProgram.Icmpd.World

/-!
# The table that `main` leaves behind

The loop of `main` that should free all slots works on copies of them, so they stay as the loader
made them, with descriptor 0.

* `Admits`          a new connection is stored while there is room, and closed only when the table
                    is full of live connections;
* `mainInit_full`   after `main`'s initialisation no slot is free, and in no run is a connection
                    ever stored.
-/

namespace Unp.Icmpd
open Trans

/-- what `readable_listen` should do in the state `w` -/
structure Admits (w : World) : Prop where
  store : ∀ connfd, (held w.log).length < FD_SETSIZE → ∃ i, i < FD_SETSIZE ∧
    (w.d.client i).connfd < 0 ∧ ((readableListen w.d connfd).d.client i).connfd = connfd
  close : ∀ connfd, .close connfd ∈ (readableListen w.d connfd).acts →
    FD_SETSIZE ≤ (held w.log).length

variable {ipv6 : Bool} {e : Endian} {w w' : World} {ev : Event}

/-- an assignment to the copy of a slot leaves the table alone -/
theorem initLoop_eq (client : Nat → Client) : initLoop client = client := by
  unfold initLoop
  generalize List.range FD_SETSIZE = is
  induction is with
  | nil => rfl
  | cons i is ih => exact ih

/-- no slot is free, none has been used, and no connection is held -/
structure Shut (w : World) : Prop where
  zero : ∀ i, w.d.client i = ⟨0, 0, 0⟩
  maxi : w.d.maxi = -1
  held : held w.log = []

theorem shut_mainInit (fd4 listenfd : Int) : Shut (start (mainInit fd4 listenfd)) := by
  unfold start mainInit
  rw [initLoop_eq]
  exact ⟨fun i => rfl, rfl, rfl⟩

theorem Shut.freeSlot (h : Shut w) : w.d.freeSlot = none :=
  findFree_none (fun j _ _ => by rw [h.zero j])

/-- a connection is accepted and closed -/
theorem Shut.listen (h : Shut w) (connfd : Int) :
    (readableListen w.d connfd).acts = [.accept connfd, .close connfd] ∧
    (readableListen w.d connfd).d.client = w.d.client ∧
    (readableListen w.d connfd).d.maxi = w.d.maxi := by
  cases listen_outcome w.d connfd with
  | full none stop client maxi acts => exact ⟨acts, client, maxi⟩
  | stored i some lt free stop client maxi acts => exact absurd (h.freeSlot.symm.trans some) (by simp)

theorem Shut.step (h : Shut w) (hs : Step ipv6 e w ev w') : Shut w' := by
  cases hs with
  | listen connfd run nonneg fresh =>
    obtain ⟨hacts, hclient, hmaxi⟩ := h.listen connfd
    refine ⟨fun i => ?_, hmaxi.trans h.maxi, ?_⟩
    · exact (congrFun hclient i).trans (h.zero i)
    · show Icmpd.held ((readableListen w.d connfd).acts.reverse ++ w.log) = []
      rw [hacts]
      show List.filter _ (connfd :: Icmpd.held w.log) = []
      rw [h.held]
      exact List.filter_cons_of_neg (by simp)
  | conn i m run lt le used =>
    have hmaxi := h.maxi
    omega
  | v4 buf n run =>
    obtain ⟨hclient, hmaxi, hacts⟩ := v4_outcome e w.d buf n
    have hnil : (readableV4 e w.d buf n).acts = [] := by
      rcases hacts with hnil | hscan
      · exact hnil
      · rw [hscan, h.maxi]
        rfl
    refine ⟨fun i => (congrFun hclient i).trans (h.zero i), hmaxi.trans h.maxi, ?_⟩
    show Icmpd.held ((readableV4 e w.d buf n).acts.reverse ++ w.log) = []
    rw [hnil]
    exact h.held

theorem Shut.not_admits (h : Shut w) : ¬ Admits w := by
  intro ha
  have hclose := ha.close 5 (by rw [(h.listen 5).1]; exact List.mem_cons_of_mem _ (List.mem_cons_self ..))
  rw [h.held] at hclose
  exact absurd hclose (by decide)

/-- **The daemon admits nobody.**  After the initialisation of `main` no slot is free; in every
state of every run no connection is held, and the next one is closed without being stored. -/
theorem mainInit_full (ipv6 : Bool) (e : Endian) (fd4 listenfd : Int) :
    (∀ i, i < FD_SETSIZE → ¬ ((mainInit fd4 listenfd).client i).connfd < 0) ∧
    ∀ es w, Run (Step ipv6 e) (start (mainInit fd4 listenfd)) es w →
      ¬ Admits w ∧ held w.log = [] ∧ ∀ connfd,
        (readableListen w.d connfd).acts = [.accept connfd, .close connfd] ∧
        (readableListen w.d connfd).d.client = w.d.client := by
  have h0 := shut_mainInit fd4 listenfd
  constructor
  · intro i _ hneg
    have hz : (mainInit fd4 listenfd).client i = ⟨0, 0, 0⟩ := h0.zero i
    rw [hz] at hneg
    exact absurd hneg (by decide)
  · intro es w hr
    have hshut : Shut w := by
      induction hr with
      | nil => exact h0
      | snoc _ hs ih => exact ih.step hs
    exact ⟨hshut.not_admits, hshut.held, fun connfd => ⟨(hshut.listen connfd).1,
      (hshut.listen connfd).2.1⟩⟩

/-- the first connection, descriptor 5 -/
theorem not_admits_first : ¬ ∀ (ipv6 : Bool) (e : Endian) (fd4 listenfd : Int),
    AllFree (mainInit fd4 listenfd) ∧
    ∀ es w, Run (Step ipv6 e) (start (mainInit fd4 listenfd)) es w → Admits w := by
  intro h
  have hadm := (h false .little 3 4).2 _ _ Run.nil
  have hclose := hadm.close 5 (by
    rw [((shut_mainInit 3 4).listen 5).1]
    exact List.mem_cons_of_mem _ (List.mem_cons_self ..))
  exact absurd hclose (by decide)

end Unp.Icmpd
