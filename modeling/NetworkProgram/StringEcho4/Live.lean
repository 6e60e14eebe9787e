import NetworkProgram.StringEcho4.Round

/-!
# The server waits in `Select` alone

`Live`: every descriptor in `allset` but `listenfd` is a connection, each connection has one
descriptor or is yet to be accepted, and what `Select` has reported stays readable until it is
served.  So `Accept` finds a connection, and a `Read` finds bytes or the end of the file
(`never_waits`): the steps `Step.accept` and `Step.read` are there whenever the server comes to them.
-/

namespace Unp.StringEcho4
open Finset Trans

variable {alloc : Finset Int → Int → Prop} {limit : Int} {s t : St} {e : Event}

structure Live (s : St) : Prop where
  owned : ∀ fd ∈ s.allset, fd ≠ s.listenfd → ∃ id, s.owner fd = some id
  once : ∀ fd fd' id, s.owner fd = some id → s.owner fd' = some id → fd = fd'
  queued : ∀ id ∈ s.backlog, ∀ fd, s.owner fd ≠ some id
  nodup : s.backlog.Nodup
  known : ∀ id, (id ∈ s.backlog ∨ ∃ fd, s.owner fd = some id) → id < s.connects
  ready : ∀ fd ∈ s.rset, fd ∉ s.served → s.readable fd = true

theorem live_start (inherited : Finset Int) (listenfd : Int) (buf : Nat → Sent) :
    Live (start inherited listenfd buf) where
  owned := fun fd hfd hne => absurd (mem_singleton.mp hfd) hne
  once := fun _ _ _ h _ => by cases h
  queued := fun _ h => by cases h
  nodup := List.nodup_nil
  known := by
    rintro id (h | ⟨fd, h⟩) <;> cases h
  ready := fun fd hfd _ => absurd hfd (notMem_empty fd)

/-! ## what is readable -/

theorem readable_listenfd (s : St) : s.readable s.listenfd = !s.backlog.isEmpty := if_pos rfl

/-- a descriptor of a connection -/
theorem readable_iff {fd : Int} (hne : fd ≠ s.listenfd) :
    s.readable fd = true ↔ ∃ id, s.owner fd = some id ∧ (s.conns id).readable = true := by
  unfold St.readable
  rw [if_neg hne]
  cases s.owner fd with
  | none => exact ⟨fun hc => (by cases hc), fun ⟨_, hc, _⟩ => (by cases hc)⟩
  | some id =>
    constructor
    · intro h
      exact ⟨id, rfl, h⟩
    · rintro ⟨k, hk, h⟩
      rw [← Option.some.inj hk] at h
      exact h

theorem readable_of_unread {c : Conn} (h : c.unread ≠ []) : c.readable = true := by
  unfold Conn.readable
  rw [List.isEmpty_eq_false_iff.mpr h]
  rfl

/-- a connection stays readable when its client goes on -/
theorem Conn.readable_mono {c c' : Conn} (hsent : c.sent <+: c'.sent) (hread : c'.read = c.read)
    (hclosed : c.closed = true → c'.closed = true) (h : c.readable = true) : c'.readable = true := by
  rcases Bool.or_eq_true_iff.mp h with hbytes | heof
  · apply readable_of_unread
    intro hnone
    have hne : c.unread ≠ [] := List.isEmpty_eq_false_iff.mp (by simpa using hbytes)
    obtain ⟨more, hmore⟩ := hsent
    unfold Conn.unread at hnone hne
    rw [hread, ← hmore, List.drop_append, List.append_eq_nil_iff] at hnone
    exact hne hnone.1
  · exact Bool.or_eq_true_iff.mpr (Or.inr (hclosed heof))

/-- what is readable stays so, while its connection does and none of the backlog is lost -/
theorem readable_mono {fd : Int} (hlisten : t.listenfd = s.listenfd)
    (hback : fd = s.listenfd → s.backlog ≠ [] → t.backlog ≠ [])
    (hconn : ∀ id, s.owner fd = some id → (s.conns id).readable = true →
      t.owner fd = some id ∧ (t.conns id).readable = true)
    (h : s.readable fd = true) : t.readable fd = true := by
  by_cases hfd : fd = s.listenfd
  · subst hfd
    rw [readable_listenfd, Bool.not_eq_true', List.isEmpty_eq_false_iff] at h
    rw [← hlisten, readable_listenfd, Bool.not_eq_true', List.isEmpty_eq_false_iff]
    exact hback rfl h
  · obtain ⟨id, ho, hread⟩ := (readable_iff hfd).mp h
    rw [← hlisten] at hfd
    exact (readable_iff hfd).mpr ⟨id, hconn id ho hread⟩

/-- the kernel's tables but for `conns` are as before, and whatever has yet to be served is as
readable -/
theorem Live.conns (h : Live s) (howner : t.owner = s.owner) (hallset : t.allset = s.allset)
    (hlisten : t.listenfd = s.listenfd) (hbacklog : t.backlog = s.backlog)
    (hconnects : t.connects = s.connects)
    (hready : ∀ fd ∈ t.rset, fd ∉ t.served → t.readable fd = true) : Live t where
  owned := by
    rw [howner, hallset, hlisten]
    exact h.owned
  once := by
    rw [howner]
    exact h.once
  queued := by
    rw [howner, hbacklog]
    exact h.queued
  nodup := by
    rw [hbacklog]
    exact h.nodup
  known := by
    rw [howner, hbacklog, hconnects]
    exact h.known
  ready := hready

/-- the connection `id` changes to `c`, which is readable if it was -/
theorem Live.setConn (h : Live s) {id : Nat} {c : Conn}
    (hc : (s.conns id).readable = true → c.readable = true) : Live (s.setConn id c) := by
  have hkeep : ∀ k, (s.conns k).readable = true → ((s.setConn id c).conns k).readable = true :=
    (Function.forall_update_iff s.conns (fun k c' => (s.conns k).readable = true →
      c'.readable = true)).mpr ⟨hc, fun _ _ hread => hread⟩
  refine h.conns (t := s.setConn id c) rfl rfl rfl rfl rfl ?_
  intro fd hfd hnot
  exact readable_mono (s := s) rfl (fun _ hback => hback) (fun k ho hread => ⟨ho, hkeep k hread⟩)
    (h.ready fd hfd hnot)

/-! ## the parts of the loop -/

theorem Live.connect (h : Live s) : Live s.connect where
  owned := h.owned
  once := h.once
  queued := by
    intro id hid fd ho
    rcases List.mem_append.mp hid with hold | hnew
    · exact h.queued id hold fd ho
    · rw [List.mem_singleton.mp hnew] at ho
      exact absurd (h.known _ (Or.inr ⟨fd, ho⟩)) (Nat.lt_irrefl _)
  nodup := by
    apply List.nodup_append.mpr
    refine ⟨h.nodup, List.nodup_singleton _, ?_⟩
    rintro id hid k hk rfl
    rw [List.mem_singleton.mp hk] at hid
    exact absurd (h.known _ (Or.inl hid)) (Nat.lt_irrefl _)
  known := by
    rintro id (hid | ho)
    · rcases List.mem_append.mp hid with hold | hnew
      · exact Nat.lt_succ_of_lt (h.known id (Or.inl hold))
      · rw [List.mem_singleton.mp hnew]
        exact Nat.lt_succ_self _
    · exact Nat.lt_succ_of_lt (h.known id (Or.inr ho))
  ready := by
    intro fd hfd hnot
    apply readable_mono (s := s) (t := s.connect) rfl _ (fun _ ho hread => ⟨ho, hread⟩) (h.ready fd hfd hnot)
    intro _ _
    show s.backlog ++ [s.connects] ≠ []
    simp

theorem Live.select (h : Live s) : Live s.select :=
  h.conns rfl rfl rfl rfl rfl (fun fd hfd _ => by
    have hread := (mem_filter.mp hfd).2
    exact hread)

/-- `Accept` gives the oldest connection of the queue to `connfd`, and no other -/
theorem take_owner {connfd fd : Int} {id k : Nat} {rest : List Nat} (hback : s.backlog = id :: rest) :
    (s.take connfd).owner fd = some k ↔
      (fd = connfd ∧ k = id) ∨ (fd ≠ connfd ∧ s.owner fd = some k) := by
  have howner : (s.take connfd).owner = Function.update s.owner connfd (some id) := by
    show Function.update s.owner connfd s.backlog.head? = _
    rw [hback]
    rfl
  rw [howner]
  by_cases hc : fd = connfd
  · rw [hc, Function.update_self, Option.some.injEq]
    simp [eq_comm]
  · rw [Function.update_of_ne hc]
    simp [hc]

/-- the oldest connection gets the descriptor `connfd` -/
theorem Live.take (h : Live s) (hk : Kept s) (hround : Round s) (hpc : s.pc = .accept) {connfd : Int}
    (hnew : connfd ∉ s.opened) {id : Nat} {rest : List Nat} (hback : s.backlog = id :: rest) :
    Live { s.take connfd with allset := insert connfd s.allset } := by
  obtain ⟨_, _, hsub⟩ := hround.first hpc
  have hrest : (s.take connfd).backlog = rest := by
    show s.backlog.tail = rest
    rw [hback]
    rfl
  have hnodup := h.nodup
  rw [hback, List.nodup_cons] at hnodup
  have hfree : ∀ fd, s.owner fd ≠ some id := h.queued id (by rw [hback]; exact List.mem_cons_self ..)
  have hqueued : ∀ {k}, k ∈ (s.take connfd).backlog → k ∈ rest ∧ k ∈ s.backlog := by
    intro k hmem
    have hkrest : k ∈ rest := hrest ▸ hmem
    exact ⟨hkrest, by rw [hback]; exact List.mem_cons_of_mem _ hkrest⟩
  refine ⟨?_, ?_, ?_, ?_, ?_, ?_⟩
  · intro fd hfd hne
    by_cases hc : fd = connfd
    · exact ⟨id, (take_owner hback).mpr (Or.inl ⟨hc, rfl⟩)⟩
    · obtain ⟨k, hk'⟩ := h.owned fd (mem_of_mem_insert_of_ne hfd hc) hne
      exact ⟨k, (take_owner hback).mpr (Or.inr ⟨hc, hk'⟩)⟩
  · intro fd fd' k ho ho'
    rcases (take_owner hback).mp ho with ⟨hc, hkid⟩ | ⟨_, hold⟩
    · rcases (take_owner hback).mp ho' with ⟨hc', _⟩ | ⟨_, hold'⟩
      · exact hc.trans hc'.symm
      · exact absurd (hkid ▸ hold') (hfree fd')
    · rcases (take_owner hback).mp ho' with ⟨_, hkid⟩ | ⟨_, hold'⟩
      · exact absurd (hkid ▸ hold) (hfree fd)
      · exact h.once fd fd' k hold hold'
  · intro k hkmem fd ho
    obtain ⟨hkrest, hkold⟩ := hqueued hkmem
    rcases (take_owner hback).mp ho with ⟨_, hkid⟩ | ⟨_, hold⟩
    · exact hnodup.1 (hkid ▸ hkrest)
    · exact h.queued k hkold fd hold
  · show (s.take connfd).backlog.Nodup
    rw [hrest]
    exact hnodup.2
  · rintro k (hkmem | ⟨fd, ho⟩)
    · exact h.known k (Or.inl (hqueued hkmem).2)
    · rcases (take_owner hback).mp ho with ⟨_, hkid⟩ | ⟨_, hold⟩
      · exact h.known k (Or.inl (by rw [hback, hkid]; exact List.mem_cons_self ..))
      · exact h.known k (Or.inr ⟨fd, hold⟩)
  · intro fd hfd hnot
    obtain ⟨hne, hold⟩ := List.ne_and_not_mem_of_not_mem_cons hnot
    have hc : fd ≠ connfd := by
      rintro rfl
      exact hnew (hk.opened (hsub hfd))
    exact readable_mono (s := s) (t := { s.take connfd with allset := insert connfd s.allset }) rfl
      (fun heq => absurd heq hne)
      (fun k ho hread => ⟨(take_owner hback).mpr (Or.inr ⟨hc, ho⟩), hread⟩)
      (h.ready fd hfd hold)

/-- the descriptor `sockfd` is closed -/
theorem Live.close (h : Live s) {j : Nat} {sockfd : Int} :
    Live (St.close { s with served := sockfd :: s.served } j sockfd) := by
  have hother : ∀ fd, fd ≠ sockfd → Function.update s.owner sockfd none fd = s.owner fd :=
    fun fd hfd => Function.update_of_ne hfd ..
  have hback : ∀ fd k, Function.update s.owner sockfd none fd = some k → s.owner fd = some k := by
    intro fd k ho
    by_cases hc : fd = sockfd
    · rw [hc, Function.update_self] at ho
      cases ho
    · exact (hother fd hc).symm.trans ho
  refine ⟨?_, ?_, ?_, h.nodup, ?_, ?_⟩
  · intro fd hfd hne
    obtain ⟨hc, hmem⟩ := mem_erase.mp hfd
    obtain ⟨k, ho⟩ := h.owned fd hmem hne
    exact ⟨k, (hother fd hc).trans ho⟩
  · intro fd fd' k ho ho'
    exact h.once fd fd' k (hback fd k ho) (hback fd' k ho')
  · intro k hk fd ho
    exact h.queued k hk fd (hback fd k ho)
  · rintro k (hk | ⟨fd, ho⟩)
    · exact h.known k (Or.inl hk)
    · exact h.known k (Or.inr ⟨fd, hback fd k ho⟩)
  · intro fd hfd hnot
    obtain ⟨hne, hold⟩ := List.ne_and_not_mem_of_not_mem_cons hnot
    exact readable_mono (s := s) (t := St.close { s with served := sockfd :: s.served } j sockfd) rfl
      (fun _ hnone => hnone) (fun k ho hread => ⟨(hother fd hne).trans ho, hread⟩)
      (h.ready fd hfd hold)

/-- bytes are read from the connection of `sockfd`; another descriptor is not of this connection -/
theorem Live.fill (h : Live s) {sockfd : Int} {id : Nat} (ho : s.owner sockfd = some id)
    {bs : List Sent} : Live (St.fill { s with served := sockfd :: s.served } id bs) := by
  refine h.conns (t := St.fill { s with served := sockfd :: s.served } id bs) rfl rfl rfl rfl rfl ?_
  intro fd hfd hnot
  obtain ⟨hne, hold⟩ := List.ne_and_not_mem_of_not_mem_cons hnot
  apply readable_mono (s := s) (t := St.fill { s with served := sockfd :: s.served } id bs) rfl
    (fun _ hnone => hnone) _ (h.ready fd hfd hold)
  intro k hk hread
  have hkid : k ≠ id := by
    rintro rfl
    exact hne (h.once fd sockfd k hk ho)
  have hother : (St.fill { s with served := sockfd :: s.served } id bs).conns k = s.conns k :=
    Function.update_of_ne hkid ..
  rw [hother]
  exact ⟨hk, hread⟩

/-! ## runs -/

theorem Live.step (h : Live s) (hk : Kept s) (hround : Round s)
    (halloc : ∀ o fd, alloc o fd → Unused limit o fd) (hs : Step alloc s e t) : Live t := by
  have hsame : ∀ {u : St}, u.owner = s.owner → u.allset = s.allset → u.listenfd = s.listenfd →
      u.backlog = s.backlog → u.connects = s.connects → u.rset = s.rset → u.served = s.served →
      u.conns = s.conns → Live u := by
    intro u howner hallset hlisten hbacklog hconnects hrset hserved hconns
    apply h.conns howner hallset hlisten hbacklog hconnects
    intro fd hfd hnot
    rw [hrset] at hfd
    rw [hserved] at hnot
    apply readable_mono hlisten _ _ (h.ready fd hfd hnot)
    · intro _ hback
      rw [hbacklog]
      exact hback
    · intro id ho hread
      rw [howner, hconns]
      exact ⟨ho, hread⟩
  cases hs with
  | connect => exact h.connect
  | send id bs lt opn =>
    apply h.setConn
    exact Conn.readable_mono (List.prefix_append ..) rfl (fun hc => hc)
  | close id lt =>
    apply h.setConn
    exact Conn.readable_mono List.prefix_rfl rfl (fun _ => rfl)
  | select pc some => exact h.select
  | accept connfd pc waits number =>
    obtain ⟨id, rest, hback⟩ := List.exists_cons_of_ne_nil waits
    have htake := h.take hk hround pc (halloc _ _ number).2.2 hback
    unfold St.accept
    dsimp only
    split
    · refine ⟨?_, htake.once, htake.queued, htake.nodup, htake.known, htake.ready⟩
      intro fd hfd hne
      exact htake.owned fd (mem_insert_of_mem hfd) hne
    · exact ⟨htake.owned, htake.once, htake.queued, htake.nodup, htake.known, htake.ready⟩
  | read j id r pc le used isset owner answers =>
    cases r with
    | err e => exact answers.elim
    | eof =>
      have hclose : Live (St.close { s with served := s.client j :: s.served } j (s.client j)) := h.close
      exact ⟨hclose.owned, hclose.once, hclose.queued, hclose.nodup, hclose.known, hclose.ready⟩
    | data bs pos len =>
      have hfill : Live (St.fill { s with served := s.client j :: s.served } id bs) := h.fill owner
      exact ⟨hfill.owned, hfill.once, hfill.queued, hfill.nodup, hfill.known, hfill.ready⟩
  | writen j sockfd n id ws w pc owner returns =>
    have hwrite : Live (s.setConn id { s.conns id with back := (s.conns id).back ++ w.out }) :=
      h.setConn (fun hc => hc)
    unfold St.writen
    dsimp only
    split
    · exact ⟨hwrite.owned, hwrite.once, hwrite.queued, hwrite.nodup, hwrite.known, hwrite.ready⟩
    · exact ⟨hwrite.owned, hwrite.once, hwrite.queued, hwrite.nodup, hwrite.known, hwrite.ready⟩
  | skip j pc le notset => exact hsame rfl rfl rfl rfl rfl rfl rfl rfl
  | last j pc gt => exact hsame rfl rfl rfl rfl rfl rfl rfl rfl
  | fail msg running => exact hsame rfl rfl rfl rfl rfl rfl rfl rfl

theorem live_run (halloc : ∀ o fd, alloc o fd → Unused limit o fd) {inherited : Finset Int}
    {listenfd : Int} {buf : Nat → Sent} {es : List Event}
    (h : Run (Step alloc) (start inherited listenfd buf) es s) : Kept s ∧ Round s ∧ Live s := by
  induction h with
  | nil =>
    exact ⟨kept_start inherited listenfd buf, round_start inherited listenfd buf,
      live_start inherited listenfd buf⟩
  | snoc _ hs ih =>
    obtain ⟨hk, hround, hlive⟩ := ih
    exact ⟨hk.step halloc hs, hround.step hk halloc hs, hlive.step hk hround halloc hs⟩

/-- a connection that is readable answers a `read` -/
theorem exists_answer {c : Conn} (h : c.readable = true) : ∃ r, c.answers r := by
  by_cases hnone : c.unread = []
  · refine ⟨.eof, hnone, ?_⟩
    unfold Conn.readable at h
    rw [hnone] at h
    exact h
  · have hlen : 0 < c.unread.length := List.length_pos_iff.mpr hnone
    refine ⟨.data (c.unread.take 1) ?_ ?_, List.take_prefix 1 c.unread⟩
    · rw [List.length_take]
      omega
    · rw [List.length_take]
      exact le_trans (Nat.min_le_left ..) (by decide)

/-- **The server waits in `Select` alone.**  In every run, where the server comes to `Accept` a
connection is there, and where it comes to a `Read` the descriptor is that of a connection with
bytes or the end of the file. -/
theorem never_waits {inherited : Finset Int} {listenfd : Int} {buf : Nat → Sent} {es : List Event}
    (h : Run (Step (Unused limit)) (start inherited listenfd buf) es s) :
    (s.pc = .accept → s.backlog ≠ []) ∧
    ∀ j, s.pc = .scan j → j ≤ s.maxi → 0 ≤ s.client j → s.client j ∈ s.rset →
      ∃ id r, s.owner (s.client j) = some id ∧ (s.conns id).answers r := by
  obtain ⟨hk, hround, hlive⟩ := live_run (fun _ _ hu => hu) h
  constructor
  · intro hpc hnone
    obtain ⟨hserved, hlisten, _⟩ := hround.first hpc
    have hready := hlive.ready s.listenfd hlisten (by rw [hserved]; exact List.not_mem_nil)
    rw [readable_listenfd, hnone] at hready
    cases hready
  · intro j hpc hle hused hset
    have hj := hk.lt hle
    have hnot := hround.ahead j hj (by rw [hpc]; exact Nat.le_refl j) hused hset
    have hne : s.client j ≠ s.listenfd := fun hc =>
      hk.table.apart j hj hused (mem_singleton.mpr hc)
    obtain ⟨id, ho, hread⟩ := (readable_iff hne).mp (hlive.ready _ hset hnot)
    obtain ⟨r, hr⟩ := exists_answer hread
    exact ⟨id, r, ho, hr⟩

end Unp.StringEcho4
