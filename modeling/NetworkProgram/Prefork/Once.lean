import Mathlib.Data.List.Count
import Mathlib.Data.List.Nodup
import NetworkProgram.Lib.Tally
import NetworkProgram.Prefork.Impl

/-!
# Every connection goes to one child

The connections that have been accepted and those that wait are a part of those established, in
order (`Books.sub`), so no connection is accepted twice.  A child counts what it has accepted in its
own slot of `cptr`, one statement late (`Books.slot`).

* `each_once`   one child for each connection, the sum of `cptr`, and the children that are left.
-/

namespace Unp.Prefork

open Trans Finset

/-- accepted, and `cptr[i]++` is to come -/
def Pc.uncounted : Pc → Bool
  | .release _ => true
  | .count _ => true
  | _ => false

/-- the connection the child has -/
def Pc.connfd : Pc → Option Nat
  | .release c => some c
  | .count c => some c
  | .webChild c => some c
  | .close c => some c
  | _ => none

def Pc.living : Pc → Bool
  | .unborn => false
  | .dead _ => false
  | _ => true

/-- a child ends -/
def Event.ends : Event → Bool
  | .acceptError _ => true
  | .stop _ _ => true
  | _ => false

structure Books (s : St) : Prop where
  sub : (s.accepted.map Prod.snd ++ s.queue).Sublist (List.range s.established)
  unborn : ∀ i, s.forked ≤ i → s.child i = .unborn
  slot : ∀ i, s.cptr i + (s.child i).uncounted.toNat = s.accepted.countP (fun p => p.1 == i)
  mine : ∀ i c, (s.child i).connfd = some c → (i, c) ∈ s.accepted
  who : ∀ p ∈ s.accepted, p.1 < s.forked

variable {server : Server} {nchildren : Nat} {s t : St} {e : Event} {es : List Event} {i : Nat}
  {pc : Pc}

theorem setChild_self (s : St) (i : Nat) (pc : Pc) : (s.setChild i pc).child i = pc :=
  Function.update_self ..

theorem setChild_of_ne (s : St) {i j : Nat} (pc : Pc) (h : j ≠ i) :
    (s.setChild i pc).child j = s.child j := Function.update_of_ne h ..

/-- a child that runs has been forked -/
theorem Books.lt (hs : Books s) (h : s.child i ≠ .unborn) : i < s.forked := by
  by_contra hle
  exact h (hs.unborn i (Nat.not_lt.mp hle))

/-- a child goes on, with the connection it has, or without it -/
theorem Books.move (hs : Books s) (hborn : s.child i ≠ .unborn)
    (hcount : pc.uncounted = (s.child i).uncounted)
    (hconn : ∀ c, pc.connfd = some c → (s.child i).connfd = some c) : Books (s.setChild i pc) := by
  have hlt := hs.lt hborn
  obtain ⟨sub, unborn, slot, mine, who⟩ := hs
  refine ⟨sub, fun j hj => ?_, fun j => ?_, fun j c hc => ?_, who⟩
  · rw [setChild_of_ne s pc (Nat.ne_of_gt (Nat.lt_of_lt_of_le hlt hj))]
    exact unborn j hj
  · by_cases hji : j = i
    · subst hji
      rw [setChild_self, hcount]
      exact slot j
    · rw [setChild_of_ne s pc hji]
      exact slot j
  · by_cases hji : j = i
    · subst hji
      rw [setChild_self] at hc
      exact mine j c (hconn c hc)
    · rw [setChild_of_ne s pc hji] at hc
      exact mine j c hc

theorem born_of_eq (h : s.child i = pc) (hp : pc ≠ .unborn) : s.child i ≠ .unborn := h ▸ hp

theorem behind_uncounted (server : Server) (c : Nat) : (server.behind c).uncounted = true := by
  cases server <;> rfl

theorem behind_connfd (server : Server) (c : Nat) : (server.behind c).connfd = some c := by
  cases server <;> rfl

theorem lock_books (server : Server) (i : Nat) (hs : Books s) : Books (s.lock server i) := by
  cases server with
  | serv02 => exact hs
  | serv03 => exact ⟨hs.sub, hs.unborn, hs.slot, hs.mine, hs.who⟩

theorem lock_child (server : Server) (s : St) (i : Nat) : (s.lock server i).child = s.child := by
  cases server <;> rfl

theorem Books.accept (hs : Books s) {connfd : Nat} {rest : List Nat} (hpc : s.child i = .accept)
    (ready : s.queue = connfd :: rest) : Books (s.accept server i connfd) := by
  have hlt := hs.lt (born_of_eq hpc nofun)
  obtain ⟨sub, unborn, slot, mine, who⟩ := hs
  have hchild (j : Nat) (hj : j ≠ i) : (s.accept server i connfd).child j = s.child j :=
    setChild_of_ne _ _ hj
  have hself : (s.accept server i connfd).child i = server.behind connfd := setChild_self ..
  refine ⟨?_, fun j hj => ?_, fun j => ?_, fun j c hc => ?_, fun p hp => ?_⟩
  · show ((s.accepted ++ [(i, connfd)]).map Prod.snd ++ s.queue.tail).Sublist _
    rw [ready] at sub ⊢
    rw [List.map_append, List.append_assoc]
    exact sub
  · rw [hchild j (Nat.ne_of_gt (Nat.lt_of_lt_of_le hlt hj))]
    exact unborn j hj
  · show s.cptr j + _ = (s.accepted ++ [(i, connfd)]).countP _
    rw [List.countP_append, ← slot j]
    by_cases hji : j = i
    · subst hji
      rw [hself, behind_uncounted, hpc]
      simp [Pc.uncounted]
    · rw [hchild j hji]
      simp [Ne.symm hji]
  · by_cases hji : j = i
    · subst hji
      rw [hself, behind_connfd] at hc
      rw [← Option.some.inj hc]
      exact List.mem_append_right _ (List.mem_singleton_self _)
    · rw [hchild j hji] at hc
      exact List.mem_append_left _ (mine j c hc)
  · rcases List.mem_append.mp hp with hp | hp
    · exact who p hp
    · rw [List.mem_singleton.mp hp]
      exact hlt

theorem Step.books (h : Step server nchildren s e t) (hs : Books s) : Books t := by
  cases h with
  | fork lt =>
    obtain ⟨sub, unborn, slot, mine, who⟩ := hs
    have hnew := unborn s.forked (Nat.le_refl _)
    refine ⟨sub, fun j hj => ?_, fun j => ?_, fun j c hc => ?_, fun p hp => ?_⟩
    · have hne : j ≠ s.forked := Nat.ne_of_gt hj
      rw [setChild_of_ne _ _ hne]
      exact unborn j (Nat.le_of_succ_le hj)
    · by_cases hj : j = s.forked
      · subst hj
        rw [setChild_self]
        have hold := slot s.forked
        rw [hnew] at hold
        exact hold
      · rw [setChild_of_ne _ _ hj]
        exact slot j
    · by_cases hj : j = s.forked
      · subst hj
        rw [setChild_self] at hc
        cases hc
      · rw [setChild_of_ne _ _ hj] at hc
        exact mine j c hc
    · exact Nat.lt_succ_of_lt (who p hp)
  | connect =>
    refine ⟨?_, hs.unborn, hs.slot, hs.mine, hs.who⟩
    show (s.accepted.map Prod.snd ++ (s.queue ++ [s.established])).Sublist _
    rw [← List.append_assoc, List.range_succ]
    exact hs.sub.append (List.Sublist.refl _)
  | abort k lt =>
    exact ⟨(List.Sublist.append_left (List.eraseIdx_sublist ..) _).trans hs.sub, hs.unborn, hs.slot,
      hs.mine, hs.who⟩
  | enter i pc ok =>
    have hl := lock_books server i hs
    have hpc : (s.lock server i).child i = .wait := by rw [lock_child, pc]
    exact hl.move (born_of_eq hpc nofun) (by rw [hpc]; rfl) nofun
  | accept i connfd rest pc ready => exact hs.accept pc ready
  | acceptError i pc => exact hs.move (born_of_eq pc nofun) (by rw [pc]; rfl) nofun
  | release i connfd pc =>
    have hl : Books { s with mptr := none } := ⟨hs.sub, hs.unborn, hs.slot, hs.mine, hs.who⟩
    exact hl.move (born_of_eq pc nofun) (by rw [pc]; rfl) (fun c hc => by rw [pc]; exact hc)
  | count i connfd pc =>
    have hlt := hs.lt (born_of_eq pc nofun)
    obtain ⟨sub, unborn, slot, mine, who⟩ := hs
    refine ⟨sub, fun j hj => ?_, fun j => ?_, fun j c hc => ?_, who⟩
    · have hne : j ≠ i := Nat.ne_of_gt (Nat.lt_of_lt_of_le hlt hj)
      rw [St.count, setChild_of_ne _ _ hne]
      exact unborn j hj
    · show Function.update s.cptr i (s.cptr i + 1) j + _ = s.accepted.countP _
      by_cases hji : j = i
      · subst hji
        rw [Function.update_self, St.count, setChild_self, ← slot, pc]
        rfl
      · rw [Function.update_of_ne hji, St.count, setChild_of_ne _ _ hji]
        exact slot j
    · by_cases hji : j = i
      · subst hji
        rw [St.count, setChild_self] at hc
        exact mine j c (by rw [pc]; exact hc)
      · rw [St.count, setChild_of_ne _ _ hji] at hc
        exact mine j c hc
  | webChild i connfd pc =>
    exact hs.move (born_of_eq pc nofun) (by rw [pc]; rfl) (fun c hc => by rw [pc]; exact hc)
  | close i connfd pc => exact hs.move (born_of_eq pc nofun) (by rw [pc]; rfl) nofun
  | stop i why pc =>
    refine hs.move (fun h => ?_) ?_ nofun
    · rw [h] at pc
      cases pc
    · revert pc
      cases s.child i <;> simp [Pc.stops, Pc.uncounted]

theorem books_start : Books start :=
  ⟨List.Sublist.refl _, fun _ _ => rfl, fun _ => rfl, nofun, nofun⟩

theorem Run.books (h : Run (Step server nchildren) start es s) : Books s :=
  h.inv books_start (fun _ _ _ hs he => he.books hs)

/-! ## the sums -/

/-- every entry belongs to one of the slots -/
theorem sum_countP {n : Nat} {l : List (Nat × Nat)} (h : ∀ p ∈ l, p.1 < n) :
    ∑ i ∈ range n, l.countP (fun p => p.1 == i) = l.length := by
  induction l with
  | nil => simp
  | cons p l ih =>
    have hp : p.1 ∈ range n := mem_range.mpr (h p List.mem_cons_self)
    simp only [List.countP_cons, beq_iff_eq, sum_add_distrib, sum_ite_eq, hp, if_true,
      List.length_cons]
    rw [ih (fun q hq => h q (List.mem_cons_of_mem _ hq))]

/-- what `sig_int` adds up is the number of connections accepted, less those not yet counted -/
theorem Books.sum_cptr (hs : Books s) :
    ∑ i ∈ range s.forked, s.cptr i + Tally.count (range s.forked) Pc.uncounted s.child =
      s.accepted.length := by
  rw [Tally.count_eq_sum, ← sum_add_distrib, ← sum_countP hs.who]
  exact sum_congr rfl (fun i _ => hs.slot i)

/-- a connection is served by one child -/
theorem Books.conn_inj (hs : Books s) {j c : Nat} (hi : (s.child i).connfd = some c)
    (hj : (s.child j).connfd = some c) : i = j := by
  have hnodup : (s.accepted.map Prod.snd).Nodup :=
    ((List.sublist_append_left _ _).trans hs.sub).nodup List.nodup_range
  have heq := List.inj_on_of_nodup_map hnodup (hs.mine i c hi) (hs.mine j c hj) rfl
  exact (Prod.mk.inj heq).1

/-- a step of a child that is alive before and behind it -/
theorem count_living (hs : Books s) (hborn : s.child i ≠ .unborn) (pc : Pc) :
    Tally.count (range s.forked) Pc.living (s.setChild i pc).child + (s.child i).living.toNat =
      Tally.count (range s.forked) Pc.living s.child + pc.living.toNat :=
  Tally.count_update (mem_range.mpr (hs.lt hborn)) pc

theorem Step.living (hs : Books s) (h : Step server nchildren s e t) :
    Tally.count (range t.forked) Pc.living t.child + e.ends.toNat + s.forked =
      Tally.count (range s.forked) Pc.living s.child + t.forked := by
  cases h with
  | fork lt =>
    have hpush := Tally.count_push Pc.living s.child s.forked .wait
    show Tally.count (range (s.forked + 1)) Pc.living (Function.update s.child s.forked .wait) + 0 +
      s.forked = _ + (s.forked + 1)
    rw [hpush, show Pc.wait.living.toNat = 1 from rfl]
    omega
  | connect => rfl
  | abort k lt => rfl
  | enter i pc ok =>
    have hm := count_living hs (born_of_eq pc nofun) .accept
    rw [pc] at hm
    have hlock : ((s.lock server i).setChild i .accept).child = (s.setChild i .accept).child := by
      cases server <;> rfl
    have hforked : ((s.lock server i).setChild i .accept).forked = s.forked := by
      cases server <;> rfl
    rw [hlock, hforked]
    exact congrArg (· + s.forked) (Nat.add_right_cancel hm)
  | accept i connfd rest pc ready =>
    have hm := count_living hs (born_of_eq pc nofun) (server.behind connfd)
    have hliving : (server.behind connfd).living = true := by cases server <;> rfl
    rw [pc, hliving] at hm
    exact congrArg (· + s.forked) (Nat.add_right_cancel hm)
  | acceptError i pc =>
    have hm := count_living hs (born_of_eq pc nofun) (.dead (.errSys "accept error"))
    rw [pc] at hm
    exact congrArg (· + s.forked) hm
  | release i connfd pc =>
    have hm := count_living hs (born_of_eq pc nofun) (.count connfd)
    rw [pc] at hm
    exact congrArg (· + s.forked) (Nat.add_right_cancel hm)
  | count i connfd pc =>
    have hm := count_living hs (born_of_eq pc nofun) (.webChild connfd)
    rw [pc] at hm
    exact congrArg (· + s.forked) (Nat.add_right_cancel hm)
  | webChild i connfd pc =>
    have hm := count_living hs (born_of_eq pc nofun) (.close connfd)
    rw [pc] at hm
    exact congrArg (· + s.forked) (Nat.add_right_cancel hm)
  | close i connfd pc =>
    have hm := count_living hs (born_of_eq pc nofun) .wait
    rw [pc] at hm
    exact congrArg (· + s.forked) (Nat.add_right_cancel hm)
  | stop i why pc =>
    have hliving : (s.child i).living = true := by
      revert pc
      cases s.child i <;> simp [Pc.stops, Pc.living]
    have hborn : s.child i ≠ .unborn := fun h => by rw [h] at hliving; cases hliving
    have hm := count_living hs hborn (.dead why)
    rw [hliving] at hm
    exact congrArg (· + s.forked) hm

theorem Run.living (h : Run (Step server nchildren) start es s) :
    Tally.count (range s.forked) Pc.living s.child + es.countP Event.ends = s.forked := by
  induction h with
  | nil => rfl
  | @snoc es t e u hr he ih =>
    have hstep := he.living (Run.books hr)
    rw [List.countP_append, List.countP_singleton]
    have hends : (if e.ends = true then 1 else 0) = e.ends.toNat := by cases e.ends <;> rfl
    rw [hends]
    omega

/-- **One child for each connection.**  In every run of `serv02` and of `serv03`, what has been
accepted and what waits are in the order of the connections and none is there twice, no two children
serve the same one, `cptr` adds up to the connections accepted and counted, and a child that has
ended is never replaced. -/
theorem each_once (h : Run (Step server nchildren) start es s) :
    (s.accepted.map Prod.snd ++ s.queue).Sublist (List.range s.established) ∧
    (∀ i j c, (s.child i).connfd = some c → (s.child j).connfd = some c → i = j) ∧
    (∀ i, s.cptr i + (s.child i).uncounted.toNat = s.accepted.countP (fun p => p.1 == i)) ∧
    ∑ i ∈ range s.forked, s.cptr i + Tally.count (range s.forked) Pc.uncounted s.child =
      s.accepted.length ∧
    Tally.count (range s.forked) Pc.living s.child + es.countP Event.ends = s.forked := by
  have hs := Run.books h
  exact ⟨hs.sub, fun _ _ _ => hs.conn_inj, hs.slot, hs.sum_cptr, Run.living h⟩

/-- two children, and one of them ends with its client's request -/
theorem each_once_two : ∃ s, Run (Step .serv02 2) start
    [.fork, .fork, .connect, .enter 0, .accept 0, .count 0,
      .stop 0 (.errQuit "client request for %d bytes" [0])] s ∧
    Tally.count (range s.forked) Pc.living s.child + 1 = s.forked := by
  have h1 : Run (Step .serv02 2) start [.fork] _ := Run.single (.fork (by decide))
  have h := (((((h1.snoc (.fork (by decide))).snoc .connect).snoc (.enter 0 rfl rfl)).snoc
    (.accept 0 0 [] rfl rfl)).snoc (.count 0 0 rfl)).snoc
    (.stop 0 (.errQuit "client request for %d bytes" [0]) rfl)
  exact ⟨_, h, (each_once h).2.2.2.2⟩

end Unp.Prefork
