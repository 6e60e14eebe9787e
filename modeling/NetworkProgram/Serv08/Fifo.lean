import NetworkProgram.Lib.Relay
import NetworkProgram.Lib.RingBuf
import NetworkProgram.Lib.Run
import NetworkProgram.Serv08.Impl

/-!
# `clifd` is a queue

`Refines s q r`: the array and its two indices are the ring `q`, and the ring holds what the relay
`r` of the connections holds: what `Accept` returned and no worker has taken.  `Refines.step` is
the simulation, `fifo` what it says of every run.
-/

namespace Unp.Serv08
open Trans

variable {n : Nat} {s t : St n} {e : Event n}

/-- the connections that no worker has taken -/
def St.pending (s : St n) : List Int := s.accepted.drop s.taken.length

/-- where the `k`-th of them is -/
def St.slot (s : St n) (k : Nat) : Nat := RingBuf.index MAXNCLI s.iget k

structure Refines (s : St n) (q : RingBuf Int MAXNCLI) (r : Relay Int) : Prop where
  cell : q.cell = s.clifd
  get : q.get = s.iget
  put : q.put = s.iput
  accepted : r.taken = s.accepted
  taken : r.given = s.taken.map Prod.snd
  held : r.held = q.items

variable {q : RingBuf Int MAXNCLI} {r : Relay Int}

theorem Refines.pending (h : Refines s q r) : s.pending = q.items := by
  have hlen : s.taken.length = r.given.length := by rw [h.taken, List.length_map]
  unfold St.pending
  rw [← h.accepted, ← r.conserve, hlen, List.drop_left, h.held]

theorem Refines.size (h : Refines s q r) : q.size = s.pending.length := by
  rw [h.pending, q.items_length]

/-- the phases do not matter -/
theorem Refines.phase (h : Refines s q r) (phase : Fin n → Phase) :
    Refines { s with phase := phase } q r :=
  ⟨h.cell, h.get, h.put, h.accepted, h.taken, h.held⟩

theorem notifyOne_eq (s : St n) (w : Option (Fin n)) :
    ∃ phase, s.notifyOne w = { s with phase := phase } := by
  cases w with
  | none => exact ⟨s.phase, rfl⟩
  | some w => exact ⟨_, rfl⟩

/-- the test of the acceptor finds the indices equal -/
theorem insert_full {connfd : Int} (w : Option (Fin n))
    (hfull : (s.store connfd).iput = (s.store connfd).iget) :
    s.insert connfd w = { s.store connfd with
      exited := some (.errQuit "iput == iget = %d" [(s.store connfd).iput]) } := if_pos hfull

theorem insert_room {connfd : Int} (w : Option (Fin n))
    (hroom : (s.store connfd).iput ≠ (s.store connfd).iget) :
    s.insert connfd w = (s.store connfd).notifyOne w := if_neg hroom

/-! ## the two operations -/

theorem Refines.store_iput (h : Refines s q r) (connfd : Int) :
    (s.store connfd).iput = (q.push connfd).put := by
  show (if s.iput + 1 = MAXNCLI then 0 else s.iput + 1) = RingBuf.next MAXNCLI q.put
  rw [h.put]
  rfl

/-- the test of the acceptor finds the indices equal exactly when the ring had no room -/
theorem Refines.full_iff (h : Refines s q r) (connfd : Int) :
    (s.store connfd).iput = (s.store connfd).iget ↔ s.pending.length = MAXNCLI - 1 := by
  have hmeet := q.push_meets connfd
  have hget : (s.store connfd).iget = (q.push connfd).get := h.get.symm
  have hmax : MAXNCLI = 32 := rfl
  rw [h.store_iput, hget, hmeet, h.size]
  omega

/-- with room, a store is a push -/
theorem Refines.store (h : Refines s q r) {connfd : Int}
    (hroom : (s.store connfd).iput ≠ (s.store connfd).iget) :
    Refines (s.store connfd) (q.push connfd) (r.take [connfd]) where
  cell := by
    show Function.update q.cell q.put connfd = Function.update s.clifd s.iput connfd
    rw [h.cell, h.put]
  get := h.get
  put := (h.store_iput connfd).symm
  accepted := by
    show r.taken ++ [connfd] = s.accepted ++ [connfd]
    rw [h.accepted]
  taken := h.taken
  held := by
    have hlt := q.size_lt
    have hne : ¬ q.size + 1 = MAXNCLI := by
      intro hfull
      apply hroom
      rw [h.store_iput]
      exact ((q.push_meets connfd).mpr hfull).trans h.get
    rw [Relay.take_held, h.held, q.items_push connfd (by omega)]

/-- the connection a worker takes is the oldest one pending -/
theorem Refines.oldest (h : Refines s q r) (hne : s.iget ≠ s.iput) :
    s.pending = s.clifd s.iget :: q.pop.items := by
  have hne' : q.get ≠ q.put := by rwa [h.get, h.put]
  rw [h.pending, q.items_pop hne', h.cell, h.get]

/-- a take is a pop -/
theorem Refines.take (h : Refines s q r) (w : Fin n) (hne : s.iget ≠ s.iput) :
    Refines (s.take w) q.pop (r.give 1) where
  cell := h.cell
  get := by
    show RingBuf.next MAXNCLI q.get = _
    rw [h.get]
    rfl
  put := h.put
  accepted := h.accepted
  taken := by
    have hold := h.oldest hne
    rw [h.pending] at hold
    show r.given ++ r.held.take 1 = (s.taken ++ [(w, s.clifd s.iget)]).map Prod.snd
    rw [h.held, hold, h.taken, List.map_append]
    rfl
  held := by
    have hold := h.oldest hne
    rw [h.pending] at hold
    rw [Relay.give_held, h.held, hold]
    rfl

/-! ## one step -/

theorem refines_start (clifd : Nat → Int) :
    Refines (start n clifd) ⟨clifd, 0, 0, by decide, by decide⟩ Relay.empty :=
  ⟨rfl, rfl, rfl, rfl, rfl, rfl⟩

/-- **The simulation.** -/
theorem Refines.step (h : Refines s q r) (hs : Step s e t) (hrun : t.exited = none) :
    ∃ q' r', Refines t q' r' := by
  cases hs with
  | insert connfd w run wakes =>
    by_cases hfull : (s.store connfd).iput = (s.store connfd).iget
    · rw [insert_full w hfull] at hrun
      cases hrun
    · rw [insert_room w hfull]
      obtain ⟨phase, hphase⟩ := notifyOne_eq (s.store connfd) w
      rw [hphase]
      exact ⟨_, _, (h.store hfull).phase phase⟩
  | lock w run wants =>
    unfold St.locked
    by_cases hempty : s.iget = s.iput
    · rw [if_pos hempty]
      exact ⟨q, r, h.phase _⟩
    · rw [if_neg hempty]
      exact ⟨_, _, h.take w hempty⟩
  | spurious w run waits => exact ⟨q, r, h.phase _⟩
  | finish w run busy => exact ⟨q, r, h.phase _⟩

/-- the acceptor exits on the 32nd connection pending, and nobody else does -/
theorem Refines.exits_iff (h : Refines s q r) (hs : Step s e t) :
    t.exited ≠ none ↔ (∃ connfd w, e = .insert connfd w) ∧ s.pending.length = MAXNCLI - 1 := by
  cases hs with
  | insert connfd w run wakes =>
    have hfull := h.full_iff connfd
    by_cases hmeet : (s.store connfd).iput = (s.store connfd).iget
    · rw [insert_full w hmeet]
      exact iff_of_true (by simp) ⟨⟨connfd, w, rfl⟩, hfull.mp hmeet⟩
    · rw [insert_room w hmeet]
      obtain ⟨phase, hphase⟩ := notifyOne_eq (s.store connfd) w
      rw [hphase]
      exact iff_of_false (fun hne => hne run) (fun hc => hmeet (hfull.mpr hc.2))
  | lock w run wants =>
    have hnone : (s.locked w).exited = none := by
      unfold St.locked
      split
      · exact run
      · exact run
    exact iff_of_false (fun hne => hne hnone) (fun ⟨⟨_, _, hev⟩, _⟩ => by cases hev)
  | spurious w run waits =>
    exact iff_of_false (fun hne => hne run) (fun ⟨⟨_, _, hev⟩, _⟩ => by cases hev)
  | finish w run busy =>
    exact iff_of_false (fun hne => hne run) (fun ⟨⟨_, _, hev⟩, _⟩ => by cases hev)

/-- only a worker under the lock takes a connection: the oldest one pending -/
theorem Refines.takes (h : Refines s q r) (hs : Step s e t) :
    t.taken = s.taken ∨ ∃ w connfd, e = .lock w ∧ t.taken = s.taken ++ [(w, connfd)] ∧
      s.pending = connfd :: t.pending := by
  cases hs with
  | insert connfd w run wakes =>
    apply Or.inl
    by_cases hfull : (s.store connfd).iput = (s.store connfd).iget
    · rw [insert_full w hfull]
      rfl
    · rw [insert_room w hfull]
      obtain ⟨phase, hphase⟩ := notifyOne_eq (s.store connfd) w
      rw [hphase]
      rfl
  | lock w run wants =>
    unfold St.locked
    by_cases hempty : s.iget = s.iput
    · rw [if_pos hempty]
      exact Or.inl rfl
    · rw [if_neg hempty]
      refine Or.inr ⟨w, s.clifd s.iget, rfl, rfl, ?_⟩
      rw [h.oldest hempty, (h.take w hempty).pending]
  | spurious w run waits => exact Or.inl rfl
  | finish w run busy => exact Or.inl rfl

/-! ## runs -/

/-- a process that has exited stays as it is -/
theorem Step.running (hs : Step s e t) : s.exited = none := by
  cases hs with
  | insert connfd w run wakes => exact run
  | lock w run wants => exact run
  | spurious w run waits => exact run
  | finish w run busy => exact run

theorem refines_run {clifd : Nat → Int} {es : List (Event n)}
    (h : Run Step (start n clifd) es s) (hrun : s.exited = none) : ∃ q r, Refines s q r := by
  induction h with
  | nil => exact ⟨_, _, refines_start clifd⟩
  | snoc _ hs ih =>
    obtain ⟨q, r, hr⟩ := ih hs.running
    exact hr.step hs hrun

/-- what has been taken and what is pending is what has been accepted -/
theorem conserve_run {clifd : Nat → Int} {es : List (Event n)}
    (h : Run Step (start n clifd) es s) : s.taken.map Prod.snd ++ s.pending = s.accepted := by
  have hof : ∀ {s : St n} {q r}, Refines s q r → s.taken.map Prod.snd ++ s.pending = s.accepted :=
    fun {s q r} hr => by rw [hr.pending, ← hr.taken, ← hr.held, r.conserve, hr.accepted]
  cases h with
  | nil => exact hof (refines_start clifd)
  | @snoc es t e _ hr hs =>
    obtain ⟨q, r, href⟩ := refines_run hr hs.running
    by_cases hrun : s.exited = none
    · obtain ⟨q', r', href'⟩ := href.step hs hrun
      exact hof href'
    · -- the last store of a process that exits is not taken
      obtain ⟨⟨connfd, w, rfl⟩, hlen⟩ := (href.exits_iff hs).mp hrun
      have hfull := (href.full_iff connfd).mpr hlen
      have hst : s = t.insert connfd w := by
        cases hs
        rfl
      rw [insert_full w hfull] at hst
      have htaken : s.taken = t.taken := by rw [hst]; rfl
      have hacc : s.accepted = t.accepted ++ [connfd] := by rw [hst]; rfl
      have hcons := hof href
      have hle : t.taken.length ≤ t.accepted.length := by
        rw [← hcons, List.length_append, List.length_map]
        omega
      unfold St.pending
      rw [htaken, hacc, List.drop_append_of_le_length hle, ← List.append_assoc]
      exact congrArg (· ++ [connfd]) hcons

/-- **The connections go through `clifd` in order.**  In every run with any number of workers the
connections taken are those accepted, in their order, each by one worker; while the process runs
the indices stay in the array and are equal exactly when nothing is pending, and no connection
pending is in the cell that is stored to next; the acceptor exits exactly when it stores with
`MAXNCLI - 1` connections pending. -/
theorem fifo (n : Nat) (clifd : Nat → Int) (es : List (Event n)) (s : St n)
    (h : Run Step (start n clifd) es s) :
    s.taken.map Prod.snd ++ s.pending = s.accepted ∧
    (s.exited = none → s.iget < MAXNCLI ∧ s.iput < MAXNCLI ∧ (s.iget = s.iput ↔ s.pending = []) ∧
      ∀ k (hk : k < s.pending.length), s.clifd (s.slot k) = s.pending[k] ∧ s.slot k ≠ s.iput) ∧
    (∀ e t, Step s e t →
      (t.exited ≠ none ↔ (∃ connfd w, e = .insert connfd w) ∧ s.pending.length = MAXNCLI - 1) ∧
      (t.taken = s.taken ∨ ∃ w connfd, e = .lock w ∧ t.taken = s.taken ++ [(w, connfd)] ∧
        s.pending = connfd :: t.pending)) := by
  refine ⟨conserve_run h, ?_, ?_⟩
  · intro hrun
    obtain ⟨q, r, href⟩ := refines_run h hrun
    have hempty := q.empty_iff
    rw [href.get, href.put, ← href.pending] at hempty
    refine ⟨href.get ▸ q.get_lt, href.put ▸ q.put_lt, hempty, ?_⟩
    intro k hk
    have hk' : k < q.items.length := by rwa [← href.pending]
    have hget : s.pending[k] = q.items[k] := by simp only [href.pending]
    have hslot : s.slot k = RingBuf.index MAXNCLI q.get k := by rw [href.get]; rfl
    rw [hget, q.getElem_items hk', hslot, href.cell, ← href.put]
    exact ⟨rfl, q.index_ne_put (by rwa [← q.items_length])⟩
  · intro e t hs
    obtain ⟨q, r, href⟩ := refines_run h hs.running
    exact ⟨href.exits_iff hs, href.takes hs⟩

/-! ## two workers -/

/-- both workers find the queue empty, and the first connection wakes one of them -/
def oneWoken : St 2 :=
  let s := start 2 (fun _ => 0)
  let s := s.locked 0
  let s := s.locked 1
  s.insert 5 (some 0)

theorem oneWoken_run : Run Step (start 2 (fun _ => 0))
    [.lock 0, .lock 1, .insert 5 (some 0)] oneWoken := by
  have h0 : Run Step (start 2 (fun _ => 0)) [] (start 2 (fun _ => 0)) := Run.nil
  exact ((h0.snoc (Step.lock 0 rfl rfl)).snoc (Step.lock 1 rfl rfl)).snoc (Step.insert 5 _ rfl rfl)

/-- worker 0 takes the connection -/
theorem fifo_two : ∃ es s, Run Step (start 2 (fun _ => 0)) es s ∧
    s.taken = [(0, 5)] ∧ s.pending = [6] ∧ s.taken.map Prod.snd ++ s.pending = s.accepted := by
  have h1 := (oneWoken_run.snoc (Step.lock 0 rfl rfl)).snoc (Step.insert 6 (some 1) rfl rfl)
  exact ⟨_, _, h1, rfl, rfl, (fifo 2 _ _ _ h1).1⟩

end Unp.Serv08
