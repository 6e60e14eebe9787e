import NetworkProgram.StringEcho1.Impl

/-!
# Who reads the connections

`Law`: only the child forked for a connection reads and echoes it, the parent is never in `str_echo`,
and so it never waits for one client while another one waits for `accept`.  The parent calls
`str_echo` on every connection it accepts, so the law holds as long as there is none (`childServes_iff`).
What happens instead: the parent reads every connection to its end, and no child reads a byte
(`parent_reads`).
-/

namespace Unp.StringEcho1
open Trans

variable {s t : St} {ev : Event} {es : List Event} {p : Proc} {id : Nat} {e : StrEcho.St UInt8}

/-- the parent waits for input of one client, and the connection of another one is pending -/
def St.Starves (s : St) : Prop :=
  ∃ id e, s.pc = .strEcho id e ∧ e.pc = .read ∧ (s.conns id).unread = [] ∧
    (s.conns id).closed = false ∧ ∃ id' ∈ s.backlog, id' ≠ id

structure Law (s : St) : Prop where
  own : ∀ a ∈ s.log, ∃ k < s.forks, a.proc = .child k ∧ (s.child k).conn = a.conn
  outside : ∀ id e, s.pc ≠ .strEcho id e
  free : ¬ s.Starves

/-- no connection is accepted -/
def NoAccept (_ : St) (ev : Event) : Prop := ∀ buf, ev ≠ .accept buf

/-! ## before the first connection -/

/-- the parent has no connection -/
def Pc.idle : Pc → Bool
  | .accept => true
  | .stopped _ => true
  | _ => false

structure Idle (s : St) : Prop where
  pc : s.pc.idle = true
  forks : s.forks = 0
  log : s.log = []

theorem idle_start : Idle start := ⟨rfl, rfl, rfl⟩

theorem Idle.not_at (h : Idle s) {pc : Pc} (hpc : s.pc = pc) (hbusy : pc.idle = false) : False := by
  rw [← hpc, h.pc] at hbusy
  cases hbusy

theorem Idle.outside (h : Idle s) (id : Nat) (e : StrEcho.St UInt8) : s.pc ≠ .strEcho id e :=
  fun hc => h.not_at hc rfl

theorem Idle.not_echoing (h : Idle s) : ¬ s.Echoing p id e := by
  cases p with
  | parent => exact h.outside id e
  | child k =>
    intro hc
    exact absurd (h.forks ▸ hc.1) (Nat.not_lt_zero k)

theorem Idle.law (h : Idle s) : Law s where
  own := by
    intro a ha
    rw [h.log] at ha
    exact absurd ha List.not_mem_nil
  outside := h.outside
  free := by
    rintro ⟨id, e, hpc, _⟩
    exact h.outside id e hpc

theorem Idle.step (h : Idle s) (hs : Step s ev t) (hno : NoAccept s ev) : Idle t := by
  cases hs with
  | connect => exact ⟨h.pc, h.forks, h.log⟩
  | send id bs lt opn => exact ⟨h.pc, h.forks, h.log⟩
  | close id lt => exact ⟨h.pc, h.forks, h.log⟩
  | accept id rest buf pc waits => exact absurd rfl (hno buf)
  | acceptError err pc =>
    unfold St.acceptError
    split
    · exact h
    · exact ⟨rfl, h.forks, h.log⟩
  | read p id e r at_ pc answers => exact absurd at_ h.not_echoing
  | writen p id n e ws w at_ pc returns => exact absurd at_ h.not_echoing
  | ret p id e at_ pc => exact absurd at_ h.not_echoing
  | errSys p id e why at_ pc => exact absurd at_ h.not_echoing
  | fork id pc => exact (h.not_at pc rfl).elim
  | forkError id pc => exact (h.not_at pc rfl).elim
  | closeConn id pc => exact (h.not_at pc rfl).elim
  | closeListen k id buf lt pc => exact absurd (h.forks ▸ lt) (Nat.not_lt_zero k)

theorem Idle.law_step_iff (h : Idle s) (hs : Step s ev t) : Law t ↔ NoAccept s ev := by
  constructor
  · rintro hlaw buf rfl
    cases hs with
    | accept id rest buf pc waits => exact hlaw.outside id (StrEcho.start buf) rfl
  · intro hno
    exact (h.step hs hno).law

/-- **The law holds throughout a run exactly if no connection is accepted in it.** -/
theorem childServes_iff (es : List Event) (t : St) :
    Run (Obey (fun _ _ t => Law t) Step) start es t ↔ Run (When NoAccept Step) start es t :=
  Run.obey_iff_when Idle idle_start (fun _ _ _ hi hs => hi.law_step_iff hs)
    (fun _ _ _ hi hw => hi.step hw.2 hw.1)

/-- two clients connect and are silent: the parent waits for the first, the second is pending -/
theorem not_childServes : ¬ ∀ (es : List Event) (t : St), Run Step start es t → Law t := by
  intro h
  have hnil : Run Step start [] start := Run.nil
  have hrun := ((hnil.snoc .connect).snoc .connect).snoc (.accept 0 [1] (fun _ => 0) rfl rfl)
  exact (h _ _ hrun).free ⟨0, _, rfl, rfl, rfl, rfl, 1, List.mem_cons_self .., by decide⟩

/-! ## the parent reads everything -/

/-- the connection has been read to its end -/
structure Conn.Drained (c : Conn) : Prop where
  unread : c.unread = []
  closed : c.closed = true

/-- the parent has left `str_echo` on the connection -/
def Pc.past : Pc → Nat → Prop
  | .strEcho id' e, id => id' = id ∧ e.pc = .ret
  | .fork id', id => id' = id
  | .close id', id => id' = id
  | _, _ => False

/-- a child in `str_echo` has nothing to write -/
def ChildPc.silent : ChildPc → Prop
  | .strEcho e => ∀ n, e.pc ≠ .writen n
  | _ => True

structure Past (s : St) : Prop where
  parent : ∀ id, s.pc.past id → (s.conns id).Drained
  child : ∀ k < s.forks, (s.conns (s.child k).conn).Drained
  silent : ∀ k < s.forks, (s.child k).pc.silent
  log : ∀ a ∈ s.log, a.proc ≠ .parent → a.op = .read []

theorem past_start : Past start where
  parent := fun _ h => h.elim
  child := fun k hk => absurd hk (Nat.not_lt_zero k)
  silent := fun k hk => absurd hk (Nat.not_lt_zero k)
  log := fun _ ha => absurd ha List.not_mem_nil

/-- at its end a connection delivers nothing more -/
theorem Conn.Drained.answers {c : Conn} (h : c.Drained) {r : ReadRes UInt8 MAXLINE}
    (ha : c.answers r) : r.bytes = [] ∧ ∀ n, StrEcho.afterRead r ≠ .writen n := by
  cases r with
  | data bs pos le =>
    have hnil : bs = [] := List.prefix_nil.mp (h.unread ▸ (show bs <+: c.unread from ha))
    rw [hnil] at pos
    exact absurd pos (Nat.lt_irrefl 0)
  | eof => exact ⟨rfl, fun n hc => by cases hc⟩
  | err err =>
    refine ⟨rfl, fun n hc => ?_⟩
    have hpc : (if (-1 : Int) < 0 ∧ err = EINTR then StrEcho.Pc.read
      else .stopped (.errSys "str_echo: read error")) = .writen n := hc
    split at hpc <;> cases hpc

/-- `str_echo` returns only at the end -/
theorem Conn.drained_of_ret {c : Conn} {r : ReadRes UInt8 MAXLINE} (ha : c.answers r)
    (hret : StrEcho.afterRead r = .ret) : c.Drained := by
  cases r with
  | data bs pos le =>
    rw [StrEcho.afterRead_data] at hret
    cases hret
  | eof => exact ⟨ha.1, ha.2⟩
  | err err =>
    have hpc : (if (-1 : Int) < 0 ∧ err = EINTR then StrEcho.Pc.read
      else .stopped (.errSys "str_echo: read error")) = .ret := hret
    split at hpc <;> cases hpc

/-- another state of one connection, which is still drained if it was -/
theorem drained_update {c : Conn} (h : (s.conns id).Drained → c.Drained) :
    ∀ id', (s.conns id').Drained → (Function.update s.conns id c id').Drained :=
  (Function.forall_update_iff s.conns (fun id' c' => (s.conns id').Drained → c'.Drained)).mpr
    ⟨h, fun _ _ hd => hd⟩

theorem Past.setConn (h : Past s) {c : Conn} (hc : (s.conns id).Drained → c.Drained) :
    Past (s.setConn id c) where
  parent := fun id' hp => drained_update hc id' (h.parent id' hp)
  child := fun k hk => drained_update hc _ (h.child k hk)
  silent := h.silent
  log := h.log

theorem Past.access (h : Past s) {op : Op} {c : Conn} (hc : (s.conns id).Drained → c.Drained)
    (hop : p ≠ .parent → op = .read []) : Past (s.access p id op c) := by
  have hset := h.setConn hc
  refine ⟨hset.parent, hset.child, hset.silent, ?_⟩
  intro a ha hne
  rcases List.mem_append.mp ha with hold | hnew
  · exact h.log a hold hne
  · obtain rfl := List.mem_singleton.mp hnew
    exact hop hne

/-- the parent goes on at `pc` -/
theorem Past.setPc (h : Past s) {pc : Pc} (hpc : ∀ id, pc.past id → (s.conns id).Drained) :
    Past { s with pc := pc } := ⟨hpc, h.child, h.silent, h.log⟩

/-- a child goes on at `pc`, on the same connection -/
theorem Past.setChild (h : Past s) {k : Nat} {c : Child} (hk : k < s.forks)
    (hconn : c.conn = (s.child k).conn) (hpc : c.pc.silent) :
    Past { s with child := Function.update s.child k c } where
  parent := h.parent
  child := (Function.forall_update_iff s.child (fun j c' => j < s.forks →
    (s.conns c'.conn).Drained)).mpr ⟨fun _ => hconn ▸ h.child k hk, fun j _ => h.child j⟩
  silent := (Function.forall_update_iff s.child (fun j c' => j < s.forks → c'.pc.silent)).mpr
    ⟨fun _ => hpc, fun j _ => h.silent j⟩
  log := h.log

/-- `str_echo` of `p` goes on as `e'` -/
theorem Past.setEcho (h : Past s) {e' : StrEcho.St UInt8} (hat : s.Echoing p id e)
    (hret : p = .parent → e'.pc = .ret → (s.conns id).Drained)
    (hsilent : p ≠ .parent → ∀ n, e'.pc ≠ .writen n) : Past (s.setEcho p id e') := by
  cases p with
  | parent =>
    refine h.setPc ?_
    rintro id' ⟨rfl, hpc⟩
    exact hret rfl hpc
  | child k => exact h.setChild hat.1 (by rw [hat.2]) (hsilent (fun hc => by cases hc))

theorem Past.echo (h : Past s) {op : Op} {c : Conn} {e' : StrEcho.St UInt8} (hat : s.Echoing p id e)
    (hc : (s.conns id).Drained → c.Drained) (hop : p ≠ .parent → op = .read [])
    (hret : p = .parent → e'.pc = .ret → c.Drained) (hsilent : p ≠ .parent → ∀ n, e'.pc ≠ .writen n) :
    Past ((s.access p id op c).setEcho p id e') := by
  have hacc := h.access hc hop
  have hat' : (s.access p id op c).Echoing p id e := by
    cases p with
    | parent => exact hat
    | child k => exact hat
  refine hacc.setEcho hat' (fun hp hpc => ?_) hsilent
  show (Function.update s.conns id c id).Drained
  rw [Function.update_self]
  exact hret hp hpc

/-- a child finds its connection at the end -/
theorem Past.drained (h : Past s) (hat : s.Echoing p id e) (hne : p ≠ .parent) :
    (s.conns id).Drained ∧ ∀ n, e.pc ≠ .writen n := by
  cases p with
  | parent => exact absurd rfl hne
  | child k =>
    have hd := h.child k hat.1
    have hs := h.silent k hat.1
    rw [hat.2] at hd hs
    exact ⟨hd, hs⟩

/-- one child more -/
theorem forall_push {P : Child → Prop} (hold : ∀ k < s.forks, P (s.child k)) {c : Child} (hc : P c) :
    ∀ k < s.forks + 1, P (Function.update s.child s.forks c k) := by
  intro k hk
  by_cases hkf : k = s.forks
  · rw [hkf, Function.update_self]
    exact hc
  · rw [Function.update_of_ne hkf]
    exact hold k (Nat.lt_of_le_of_ne (Nat.le_of_lt_succ hk) hkf)

/-- the new child has the connection that the parent has read -/
theorem Past.fork (h : Past s) (hpc : s.pc = .fork id) : Past (s.fork id) := by
  have hd : (s.conns id).Drained := h.parent id (by rw [hpc]; rfl)
  refine ⟨?_, forall_push (P := fun c => (s.conns c.conn).Drained) h.child hd,
    forall_push (P := fun c => c.pc.silent) h.silent trivial, h.log⟩
  rintro id' rfl
  exact hd

theorem Past.step (h : Past s) (hs : Step s ev t) : Past t := by
  cases hs with
  | connect => exact ⟨h.parent, h.child, h.silent, h.log⟩
  | send id bs lt opn =>
    refine h.setConn (fun hd => ?_)
    rw [hd.closed] at opn
    cases opn
  | close id lt => exact h.setConn (fun hd => ⟨hd.unread, rfl⟩)
  | accept id rest buf pc waits =>
    refine Past.setPc (s := { s with backlog := s.backlog.tail }) ⟨h.parent, h.child, h.silent, h.log⟩ ?_
    rintro id' ⟨_, hret⟩
    cases hret
  | acceptError err pc =>
    unfold St.acceptError
    split
    · exact h
    · exact h.setPc (fun _ hp => hp.elim)
  | read p id e r at_ pc answers =>
    -- what is read has been unread
    have hc : (s.conns id).Drained →
        Conn.Drained { s.conns id with read := (s.conns id).read ++ r.bytes } := by
      intro hd
      rw [(hd.answers answers).1, List.append_nil]
      exact ⟨hd.unread, hd.closed⟩
    refine h.echo at_ hc (fun hne => ?_) (fun _ hret => hc (Conn.drained_of_ret answers hret))
      (fun hne => ((h.drained at_ hne).1.answers answers).2)
    rw [((h.drained at_ hne).1.answers answers).1]
  | writen p id n e ws w at_ pc returns =>
    have hpar : p = .parent := by
      by_contra hne
      exact (h.drained at_ hne).2 n pc
    refine h.echo at_ (fun hd => ⟨hd.unread, hd.closed⟩) (fun hne => absurd hpar hne) (fun _ hret => ?_)
      (fun hne => absurd hpar hne)
    have hpc : (if w.ret ≠ n then StrEcho.Pc.stopped (.errSys "writen error") else .read) = .ret := hret
    split at hpc <;> cases hpc
  | ret p id e at_ pc =>
    cases p with
    | parent =>
      refine h.setPc ?_
      rintro id' rfl
      refine h.parent id ?_
      rw [show s.pc = .strEcho id e from at_]
      exact ⟨rfl, pc⟩
    | child k => exact h.setChild at_.1 (by rw [at_.2]) trivial
  | errSys p id e why at_ pc =>
    cases p with
    | parent => exact h.setPc (fun _ hp => hp.elim)
    | child k => exact h.setChild at_.1 (by rw [at_.2]) trivial
  | fork id pc => exact h.fork pc
  | forkError id pc => exact h.setPc (fun _ hp => hp.elim)
  | closeConn id pc => exact h.setPc (fun _ hp => hp.elim)
  | closeListen k id buf lt pc =>
    exact h.setChild lt (by rw [pc]) (fun _ hc => by cases hc)

/-- **The parent reads everything**: whatever a child does on a connection moves no byte. -/
theorem parent_reads (h : Run Step start es t) : ∀ a ∈ t.log, a.proc ≠ .parent → a.op = .read [] :=
  (h.inv past_start (fun _ _ _ hp hs => hp.step hs)).log

end Unp.StringEcho1
