import NetworkProgram.TcpUdp.Impl

/-!
# Connections, children and datagrams

* `Inv.step`       what a step keeps;
* `tcpudp_books`   what holds of every run.
-/

namespace Unp.TcpUdp

open Trans
open Serv01 (Phase)

/-- accepted, and not handed to a child yet -/
def Pc.hand : Pc → List Nat
  | .fork connfd _ => [connfd]
  | .select => []
  | .failed => []
  | .accept _ => []
  | .close _ _ => []
  | .recvfrom => []
  | .sendto _ => []
  | .stopped _ => []

/-- received, and not sent back yet -/
def Pc.hold : Pc → List Datagram
  | .sendto d => [d]
  | .select => []
  | .failed => []
  | .accept _ => []
  | .fork _ _ => []
  | .close _ _ => []
  | .recvfrom => []
  | .stopped _ => []

/-- no `SIGCHLD` is to be dealt with -/
structure St.Quiet (s : St) : Prop where
  pending : s.pending = false
  handler : s.handler = false

/-- the datagrams that arrive -/
def Event.arrived : Event → List Datagram
  | .datagram d => [d]
  | _ => []

/-- the answers to the datagrams of a run -/
def answers (es : List Event) : List Datagram := (es.flatMap Event.arrived).map Datagram.echo

/-- child `i` has been waited for -/
def St.gone (s : St) (i : Nat) : Nat := if i < s.forks ∧ s.child i = .reaped then 1 else 0

structure Inv (es : List Event) (s : St) : Prop where
  conns : (s.accepted ++ s.pc.hand ++ s.queue).Sublist (List.range s.established)
  forks : s.forks = s.accepted.length
  zombie : ∀ i < s.forks, s.child i = .zombie → s.pending = true ∨ s.handler = true
  reaped : ∀ i, es.count (.reap i) = s.gone i
  sent : s.sent <+: answers es
  echoes : s.pc.running = true →
    s.sent ++ s.pc.hold ++ s.datagrams.map Datagram.echo = answers es

variable {s t : St} {e : Event} {es : List Event} {i : Nat}

theorem inv_start : Inv [] start where
  conns := List.Sublist.refl _
  forks := rfl
  zombie _ h := absurd h (Nat.not_lt_zero _)
  reaped _ := rfl
  sent := List.prefix_rfl
  echoes _ := rfl

/-- an event that is no arrival and no return of `waitpid` -/
def Event.quiet : Event → Bool
  | .datagram _ => false
  | .reap _ => false
  | _ => true

theorem gone_congr (h : i < t.forks ∧ t.child i = .reaped ↔ i < s.forks ∧ s.child i = .reaped) :
    t.gone i = s.gone i := by
  unfold St.gone
  by_cases hs : i < s.forks ∧ s.child i = .reaped
  · rw [if_pos hs, if_pos (h.mpr hs)]
  · rw [if_neg hs, if_neg (fun ht => hs (h.mp ht))]

theorem answers_append (es : List Event) (e : Event) :
    answers (es ++ [e]) = answers es ++ e.arrived.map Datagram.echo := by
  unfold answers
  rw [List.flatMap_append, List.map_append, List.flatMap_singleton]

theorem answers_quiet (h : e.arrived = []) : answers (es ++ [e]) = answers es := by
  rw [answers_append, h]
  exact List.append_nil _

theorem arrived_of_quiet (h : e.quiet = true) : e.arrived = [] := by
  cases e with
  | datagram d => cases h
  | _ => rfl

theorem count_quiet (h : e.quiet = true) (i : Nat) :
    (es ++ [e]).count (.reap i) = es.count (.reap i) := by
  rw [List.count_append, List.count_singleton]
  cases e with
  | reap j => cases h
  | _ => rfl

/-- **`main` goes on**, and the children stay as they are. -/
theorem Inv.move (h : Inv es s) (hq : e.quiet = true) (hforks : t.forks = s.forks)
    (hchild : t.child = s.child) (hsignal : s.pending = true ∨ s.handler = true →
      (∃ i < s.forks, s.child i = .zombie) → t.pending = true ∨ t.handler = true)
    (haccepted : t.accepted = s.accepted) (hestablished : t.established = s.established)
    (hconns : (t.pc.hand ++ t.queue).Sublist (s.pc.hand ++ s.queue)) (hsent : t.sent = s.sent)
    (hechoes : t.pc.running = true → s.pc.running = true ∧
      t.pc.hold ++ t.datagrams.map Datagram.echo = s.pc.hold ++ s.datagrams.map Datagram.echo) :
    Inv (es ++ [e]) t := by
  have hans : answers (es ++ [e]) = answers es := answers_quiet (arrived_of_quiet hq)
  refine ⟨?_, ?_, fun i hi hz => ?_, fun i => ?_, ?_, fun hrun => ?_⟩
  · rw [haccepted, hestablished, List.append_assoc]
    refine List.Sublist.trans ((List.Sublist.refl _).append hconns) ?_
    rw [← List.append_assoc]
    exact h.conns
  · rw [hforks, haccepted]
    exact h.forks
  · rw [hforks] at hi
    rw [hchild] at hz
    exact hsignal (h.zombie i hi hz) ⟨i, hi, hz⟩
  · rw [count_quiet hq, h.reaped]
    unfold St.gone
    rw [hforks, hchild]
  · rw [hans, hsent]
    exact h.sent
  · obtain ⟨hruns, heq⟩ := hechoes hrun
    rw [hans, ← h.echoes hruns, hsent, List.append_assoc, heq, List.append_assoc]

theorem Inv.fork {connfd : Nat} {udp : Bool} (h : Inv es s) (pc : s.pc = .fork connfd udp) :
    Inv (es ++ [.fork]) (s.fork connfd udp) := by
  have hans : answers (es ++ [.fork]) = answers es := answers_quiet rfl
  refine ⟨?_, ?_, fun i hi hz => ?_, fun i => ?_, ?_, fun _ => ?_⟩
  · have hconns := h.conns
    rw [pc] at hconns
    show (s.accepted ++ [connfd] ++ [] ++ s.queue).Sublist _
    rw [List.append_nil]
    exact hconns
  · show s.forks + 1 = (s.accepted ++ [connfd]).length
    rw [List.length_append, h.forks]
    rfl
  · rcases Nat.lt_or_eq_of_le (Nat.lt_succ_iff.mp hi) with hlt | rfl
    · have hz' : s.child i = .zombie := by
        rwa [← Function.update_of_ne (Nat.ne_of_lt hlt) Phase.running s.child]
      exact h.zombie i hlt hz'
    · have hz' : Phase.running = .zombie := by
        rwa [← Function.update_self s.forks Phase.running s.child]
      cases hz'
  · rw [count_quiet rfl, h.reaped]
    refine (gone_congr ?_).symm
    show i < s.forks + 1 ∧ Function.update s.child s.forks .running i = .reaped ↔ _
    rcases eq_or_ne i s.forks with rfl | hne
    · simp
    · rw [Function.update_of_ne hne]
      exact and_congr_left fun _ => by omega
  · rw [hans]
    exact h.sent
  · have hechoes := h.echoes (by rw [pc]; rfl)
    rw [pc] at hechoes
    rw [hans]
    exact hechoes

theorem Inv.reap (h : Inv es s) (on : s.handler = true) (lt : i < s.forks)
    (ended : s.child i = .zombie) : Inv (es ++ [.reap i]) (s.reap i) := by
  have hans : answers (es ++ [.reap i]) = answers es := answers_quiet rfl
  refine ⟨h.conns, h.forks, fun _ _ _ => Or.inr on, fun j => ?_, ?_, fun hrun => ?_⟩
  · rw [List.count_append, h.reaped, List.count_singleton]
    rcases eq_or_ne j i with rfl | hne
    · have hgone : (s.reap j).gone j = 1 := if_pos ⟨lt, Function.update_self ..⟩
      rw [hgone]
      simp [St.gone, ended]
    · have hbeq : (Event.reap i == Event.reap j) = false := by simpa using hne.symm
      have hgone : (s.reap i).gone j = s.gone j := gone_congr (by
        show j < s.forks ∧ Function.update s.child i .reaped j = .reaped ↔ _
        rw [Function.update_of_ne hne])
      rw [hgone, hbeq]
      rfl
  · rw [hans]
    exact h.sent
  · rw [hans]
    exact h.echoes hrun

theorem Inv.exit (h : Inv es s) (lt : i < s.forks) (runs : s.child i = .running) :
    Inv (es ++ [.exit i]) (s.exit i) := by
  have hans : answers (es ++ [.exit i]) = answers es := answers_quiet rfl
  refine ⟨h.conns, h.forks, fun _ _ _ => Or.inl rfl, fun j => ?_, ?_, fun hrun => ?_⟩
  · rw [count_quiet rfl, h.reaped]
    refine (gone_congr ?_).symm
    show j < s.forks ∧ Function.update s.child i .zombie j = .reaped ↔ _
    rcases eq_or_ne j i with rfl | hne
    · simp [runs]
    · rw [Function.update_of_ne hne]
  · rw [hans]
    exact h.sent
  · rw [hans]
    exact h.echoes hrun

/-- a datagram arrives, is received, or is sent back -/
theorem Inv.datagram (h : Inv es s) (d : Datagram) :
    Inv (es ++ [.datagram d]) { s with datagrams := s.datagrams ++ [d] } := by
  have hans : answers (es ++ [.datagram d]) = answers es ++ [d.echo] := answers_append es _
  refine ⟨h.conns, h.forks, h.zombie, fun i => ?_, ?_, fun hrun => ?_⟩
  · rw [List.count_append, h.reaped]
    rfl
  · rw [hans]
    exact h.sent.trans (List.prefix_append _ _)
  · rw [hans, ← h.echoes hrun, List.map_append, ← List.append_assoc]
    rfl

theorem Inv.sendto {d : Datagram} (h : Inv es s) (pc : s.pc = .sendto d) :
    Inv (es ++ [.sendto]) (s.sendto d) := by
  have hans : answers (es ++ [.sendto]) = answers es := answers_quiet rfl
  have hechoes := h.echoes (by rw [pc]; rfl)
  rw [pc] at hechoes
  have hconns := h.conns
  rw [pc] at hconns
  refine ⟨hconns, h.forks, h.zombie, fun i => ?_, ?_, fun _ => ?_⟩
  · rw [count_quiet rfl]
    exact h.reaped i
  · rw [hans, ← hechoes]
    exact List.prefix_append _ _
  · rw [hans, ← hechoes]
    exact congrArg (· ++ _) (List.append_nil _)

theorem Inv.step (h : Inv es s) (hs : Step s e t) : Inv (es ++ [e]) t := by
  have hsame : ∀ {u : St}, u.pending = s.pending → u.handler = s.handler →
      s.pending = true ∨ s.handler = true → (∃ i < s.forks, s.child i = .zombie) →
      u.pending = true ∨ u.handler = true := by
    intro u hp hh hor _
    rwa [hp, hh]
  cases hs with
  | select main ready =>
    refine h.move rfl rfl rfl (hsame rfl rfl) rfl rfl ?_ rfl fun _ => ⟨by rw [main.pc]; rfl, ?_⟩
    · rw [main.pc]
      unfold St.select
      dsimp only
      split <;> exact List.Sublist.refl _
    · rw [main.pc]
      unfold St.select
      dsimp only
      split <;> rfl
  | eintr main interrupted =>
    refine h.move rfl rfl rfl (hsame rfl rfl) rfl rfl ?_ rfl fun _ => ⟨by rw [main.pc]; rfl, ?_⟩
    · rw [main.pc]
      exact List.Sublist.refl _
    · rw [main.pc]
      rfl
  | test main =>
    refine h.move rfl rfl rfl (hsame rfl rfl) rfl rfl ?_ rfl fun _ => ⟨by rw [main.pc]; rfl, ?_⟩
    · rw [main.pc]
      unfold St.test
      dsimp only
      split <;> exact List.Sublist.refl _
    · rw [main.pc]
      unfold St.test
      dsimp only
      split <;> rfl
  | accept connfd rest udp main ready =>
    refine h.move rfl rfl rfl (hsame rfl rfl) rfl rfl ?_ rfl fun _ => ⟨by rw [main.pc]; rfl, ?_⟩
    · rw [main.pc, ready]
      exact List.Sublist.refl _
    · rw [main.pc]
      rfl
  | fork connfd udp main => exact h.fork main.pc
  | close connfd udp main =>
    refine h.move rfl rfl rfl (hsame rfl rfl) rfl rfl ?_ rfl fun _ => ⟨by rw [main.pc]; rfl, ?_⟩
    · rw [main.pc]
      cases udp <;> exact List.Sublist.refl _
    · rw [main.pc]
      cases udp <;> rfl
  | recvfrom d rest main ready =>
    refine h.move rfl rfl rfl (hsame rfl rfl) rfl rfl ?_ rfl fun _ => ⟨by rw [main.pc]; rfl, ?_⟩
    · rw [main.pc]
      exact List.Sublist.refl _
    · rw [main.pc, ready]
      rfl
  | sendto d main => exact h.sendto main.pc
  | fail msg off pc =>
    exact h.move rfl rfl rfl (hsame rfl rfl) rfl rfl (List.sublist_append_right _ _) rfl nofun
  | deliver pending off run =>
    exact h.move rfl rfl rfl (fun _ _ => Or.inr rfl) rfl rfl (List.Sublist.refl _) rfl
      fun hrun => ⟨hrun, rfl⟩
  | reap i on lt ended => exact h.reap on lt ended
  | noZombie on none some =>
    refine h.move rfl rfl rfl ?_ rfl rfl (List.Sublist.refl _) rfl fun hrun => ⟨hrun, rfl⟩
    rintro - ⟨i, hi, hz⟩
    exact absurd hz (none i hi)
  | noChild on gone =>
    refine h.move rfl rfl rfl ?_ rfl rfl (List.Sublist.refl _) rfl fun hrun => ⟨hrun, rfl⟩
    rintro - ⟨i, hi, hz⟩
    rw [gone i hi] at hz
    cases hz
  | exit i lt runs run => exact h.exit lt runs
  | connect =>
    have hans : answers (es ++ [.connect]) = answers es := answers_quiet rfl
    refine ⟨?_, h.forks, h.zombie, fun i => ?_, ?_, fun hrun => ?_⟩
    · show (s.accepted ++ s.pc.hand ++ (s.queue ++ [s.established])).Sublist _
      rw [← List.append_assoc, List.range_succ]
      exact h.conns.append (List.Sublist.refl _)
    · rw [count_quiet rfl]
      exact h.reaped i
    · rw [hans]
      exact h.sent
    · rw [hans]
      exact h.echoes hrun
  | abort connfd mem =>
    exact h.move rfl rfl rfl (hsame rfl rfl) rfl rfl
      ((List.Sublist.refl _).append List.erase_sublist) rfl fun hrun => ⟨hrun, rfl⟩
  | datagram d => exact h.datagram d

theorem inv_run (h : Run Step start es s) : Inv es s := by
  induction h with
  | nil => exact inv_start
  | snoc _ hs ih => exact ih.step hs

/-- **Connections, children and datagrams.**  In every run what has been accepted and what waits are
in the order of the connections and none is there twice, there is one child for each connection
accepted, and each is waited for at most once; when no `SIGCHLD` is to be dealt with, every child that
has ended has been waited for.  What is sent back are the datagrams in the order of their arrival, cut
off at `MAXLINE`, each to its sender and none twice; while `main` runs the others wait. -/
theorem tcpudp_books (h : Run Step start es s) :
    (s.accepted ++ s.pc.hand ++ s.queue).Sublist (List.range s.established) ∧
    s.forks = s.accepted.length ∧ (∀ i, es.count (.reap i) ≤ 1) ∧
    (s.Quiet → ∀ i < s.forks, s.child i ≠ .zombie) ∧ s.sent <+: answers es ∧
    (s.pc.running = true →
      s.sent ++ s.pc.hold ++ s.datagrams.map Datagram.echo = answers es) := by
  have hinv := inv_run h
  refine ⟨hinv.conns, hinv.forks, fun i => ?_, fun hq i hi hz => ?_, hinv.sent, hinv.echoes⟩
  · rw [hinv.reaped]
    unfold St.gone
    split
    · exact Nat.le_refl 1
    · exact Nat.zero_le 1
  · rcases hinv.zombie i hi hz with hp | hh
    · exact absurd (hq.pending.symm.trans hp) Bool.false_ne_true
    · exact absurd (hq.handler.symm.trans hh) Bool.false_ne_true

/-! ## a datagram and a child -/

/-- a datagram is answered and a child is waited for -/
theorem tcpudp_books_both : ∃ s, Run Step start
    [.connect, .datagram ⟨7, [97]⟩, .select, .accept, .fork, .close, .recvfrom, .sendto,
      .exit 0, .deliver, .reap 0, .noChild] s ∧
    s.sent <+: [⟨7, [97]⟩] ∧ ∀ i < s.forks, s.child i ≠ .zombie := by
  have h1 : Run Step start [.connect, .datagram ⟨7, [97]⟩, .select] _ :=
    ((Run.single .connect).snoc (.datagram ⟨7, [97]⟩)).snoc
      (.select ⟨rfl, rfl⟩ (Or.inl (List.cons_ne_nil _ _)))
  have h2 := ((h1.snoc (.accept 0 [] true ⟨rfl, rfl⟩ rfl)).snoc (.fork 0 true ⟨rfl, rfl⟩)).snoc
    (.close 0 true ⟨rfl, rfl⟩)
  have h3 := (h2.snoc (.recvfrom ⟨7, [97]⟩ [] ⟨rfl, rfl⟩ rfl)).snoc (.sendto _ ⟨rfl, rfl⟩)
  have h4 := (((h3.snoc (.exit 0 (by decide) rfl rfl)).snoc (.deliver rfl rfl rfl)).snoc
    (.reap 0 rfl (by decide) rfl)).snoc (.noChild rfl (by decide))
  obtain ⟨-, -, -, hquiet, hsent, -⟩ := tcpudp_books h4
  exact ⟨_, h4, hsent, hquiet ⟨rfl, rfl⟩⟩

end Unp.TcpUdp
