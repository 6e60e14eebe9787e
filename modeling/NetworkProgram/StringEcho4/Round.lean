import NetworkProgram.StringEcho4.Table

/-!
# Who is served

`Round`: how far the server has come with the descriptors that `Select` has reported.  `nready` is
the number of those to come, and each of them is `listenfd` before `Accept`, or in a slot that the
`for` has not reached.  So when `nready` is 0, or the `for` is beyond `maxi`, all have been served
(`served_once`).
-/

namespace Unp.StringEcho4
open Finset Trans

variable {alloc : Finset Int → Int → Prop} {limit : Int} {s t : St} {e : Event} {pc : Pc}

/-! ## a round -/

/-- the `for` has not come to slot `i` -/
def Pc.ahead : Pc → Nat → Prop
  | .accept, _ => True
  | .scan j, i => j ≤ i
  | .writen j _ _, i => j < i
  | _, _ => False

/-- served, but `nready` not yet decremented -/
def Pc.between : Pc → Nat
  | .writen _ _ _ => 1
  | _ => 0

structure Round (s : St) : Prop where
  nodup : s.served.Nodup
  sub : ∀ fd ∈ s.served, fd ∈ s.rset
  ahead : ∀ i < FD_SETSIZE, s.pc.ahead i → 0 ≤ s.client i → s.client i ∈ s.rset →
    s.client i ∉ s.served
  count : s.pc.running = true →
    s.nready + s.served.length = s.rset.card + s.pc.between
  pending : s.pc.running = true → ∀ fd ∈ s.rset, fd ∉ s.served →
    (s.pc = .accept ∧ fd = s.listenfd) ∨
      ∃ i < FD_SETSIZE, s.pc.ahead i ∧ 0 ≤ s.client i ∧ s.client i = fd
  first : s.pc = .accept → s.served = [] ∧ s.listenfd ∈ s.rset ∧ s.rset ⊆ s.allset

theorem round_start (inherited : Finset Int) (listenfd : Int) (buf : Nat → Sent) :
    Round (start inherited listenfd buf) where
  nodup := List.nodup_nil
  sub := fun fd hfd => by cases hfd
  ahead := fun _ _ hahead => hahead.elim
  count := fun _ => rfl
  pending := fun _ fd hfd => absurd hfd (notMem_empty fd)
  first := fun hpc => by cases hpc

/-- the process has ended: nothing more is served -/
theorem Round.stopped {why : Stop} (hpc : t.pc = .stopped why) (hnodup : t.served.Nodup)
    (hsub : ∀ fd ∈ t.served, fd ∈ t.rset) : Round t where
  nodup := hnodup
  sub := hsub
  ahead := fun _ _ hahead => by rw [hpc] at hahead; exact hahead.elim
  count := fun hrun => by rw [hpc] at hrun; cases hrun
  pending := fun hrun => by rw [hpc] at hrun; cases hrun
  first := fun hacc => by rw [hpc] at hacc; cases hacc

/-- with as many served as reported, all are -/
theorem Round.all {served : List Int} {rset : Finset Int} (hnodup : served.Nodup)
    (hsub : ∀ fd ∈ served, fd ∈ rset) (hcard : rset.card ≤ served.length) {fd : Int}
    (hfd : fd ∈ rset) : fd ∈ served := by
  have hset : served.toFinset = rset := by
    apply eq_of_subset_of_card_le
    · intro x hx
      exact hsub x (List.mem_toFinset.mp hx)
    · rw [List.toFinset_card_of_nodup hnodup]
      exact hcard
  rw [← hset] at hfd
  exact List.mem_toFinset.mp hfd

/-- the end of a branch: one more served, and the rest in the slots ahead of `pc` -/
theorem Round.next (hnodup : s.served.Nodup) (hsub : ∀ fd ∈ s.served, fd ∈ s.rset)
    (hahead : ∀ i < FD_SETSIZE, pc.ahead i → 0 ≤ s.client i → s.client i ∈ s.rset →
      s.client i ∉ s.served)
    (hcount : s.nready + s.served.length = s.rset.card + 1) (hbetween : pc.between = 0)
    (hpending : ∀ fd ∈ s.rset, fd ∉ s.served →
      ∃ i < FD_SETSIZE, pc.ahead i ∧ 0 ≤ s.client i ∧ s.client i = fd)
    (hpc : pc ≠ .accept) : Round (s.next pc) := by
  by_cases hlast : s.nready - 1 ≤ 0
  · have hhead : (s.next pc).pc = .head := if_pos hlast
    have hall : ∀ fd ∈ s.rset, fd ∈ s.served :=
      fun fd hfd => Round.all hnodup hsub (by omega) hfd
    refine ⟨hnodup, hsub, ?_, ?_, ?_, ?_⟩
    · intro i _ hi
      rw [hhead] at hi
      exact hi.elim
    · intro _
      rw [hhead]
      show s.nready - 1 + s.served.length = s.rset.card + (0 : Nat)
      omega
    · intro _ fd hfd hnot
      exact absurd (hall fd hfd) hnot
    · intro hc
      rw [hhead] at hc
      cases hc
  · have hon : (s.next pc).pc = pc := if_neg hlast
    refine ⟨hnodup, hsub, ?_, ?_, ?_, ?_⟩
    · intro i hi hi'
      rw [hon] at hi'
      exact hahead i hi hi'
    · intro _
      rw [hon, hbetween]
      show s.nready - 1 + s.served.length = s.rset.card + (0 : Nat)
      omega
    · intro _ fd hfd hnot
      rw [hon]
      exact Or.inr (hpending fd hfd hnot)
    · intro hc
      rw [hon] at hc
      exact absurd hc hpc

theorem Round.select (hk : Kept s) : Round s.select := by
  have hif : s.select.pc = if s.listenfd ∈ s.select.rset then .accept else .scan 0 := rfl
  have hahead : ∀ i, s.select.pc.ahead i := by
    intro i
    rw [hif]
    split
    · trivial
    · exact Nat.zero_le i
  refine ⟨List.nodup_nil, (fun fd hfd => by cases hfd), (fun _ _ _ _ _ hc => by cases hc),
    ?_, ?_, ?_⟩
  · intro _
    have hbetween : s.select.pc.between = 0 := by
      rw [hif]
      split <;> rfl
    rw [hbetween]
    rfl
  · intro _ fd hfd _
    rcases hk.table.mem_watched.mp (mem_filter.mp hfd).1 with hbase | ⟨h0, i, hi, hslot⟩
    · rw [mem_singleton.mp hbase] at hfd ⊢
      left
      refine ⟨?_, rfl⟩
      rw [hif]
      exact if_pos hfd
    · exact Or.inr ⟨i, hi, hahead i, hslot ▸ h0, hslot⟩
  · intro hc
    rw [hif] at hc
    split at hc
    · rename_i hmem
      exact ⟨rfl, hmem, filter_subset ..⟩
    · cases hc

theorem save_other {i j : Nat} {connfd : Int} (hji : j ≠ i) :
    ((s.take connfd).save i connfd).client j = s.client j := Function.update_of_ne hji ..

/-- `Accept` serves `listenfd`; the new descriptor is none of those reported -/
theorem Round.accept (h : Round s) (hk : Kept s) (hpc : s.pc = .accept) {connfd : Int}
    (hnew : connfd ∉ s.opened) : Round (s.accept connfd) := by
  obtain ⟨hnone, hlisten, hsub⟩ := h.first hpc
  have hnotset : connfd ∉ s.rset := fun hc => hnew (hk.opened (hsub hc))
  have hserved : (s.take connfd).served = [s.listenfd] := by
    show s.listenfd :: s.served = _
    rw [hnone]
  have hsub' : ∀ fd ∈ (s.take connfd).served, fd ∈ s.rset := by
    intro fd hfd
    rw [hserved] at hfd
    rw [List.mem_singleton.mp hfd]
    exact hlisten
  have hnodup : (s.take connfd).served.Nodup := by
    rw [hserved]
    exact List.nodup_singleton _
  unfold St.accept
  dsimp only
  split
  · exact Round.stopped rfl hnodup hsub'
  · rename_i i hi
    obtain ⟨_, hlt, hfree⟩ := firstFree_some hi
    have hfree' : s.client i < 0 := hfree
    have hcount := h.count (by rw [hpc]; rfl)
    have hbetween : s.pc.between = 0 := by
      rw [hpc]
      rfl
    apply Round.next (s := (s.take connfd).save i connfd) hnodup hsub'
    · intro j hj _ h0 hmem
      rw [show ((s.take connfd).save i connfd).served = _ from hserved]
      intro hc
      have heq := List.mem_singleton.mp hc
      have hji : j ≠ i := by
        rintro rfl
        have hself : ((s.take connfd).save j connfd).client j = connfd := Function.update_self ..
        rw [hself] at hmem
        exact hnotset hmem
      rw [save_other hji] at h0 heq
      exact hk.table.apart j hj h0 (mem_singleton.mpr heq)
    · have hlen : ((s.take connfd).save i connfd).served.length = 1 := congrArg List.length hserved
      rw [hlen]
      rw [hnone, hbetween] at hcount
      have hcount' : s.nready + (0 : Nat) = s.rset.card + (0 : Nat) := hcount
      show s.nready + (1 : Nat) = s.rset.card + 1
      omega
    · rfl
    · intro fd hfd hnot
      have hnot' : fd ≠ s.listenfd := by
        rintro rfl
        apply hnot
        rw [show ((s.take connfd).save i connfd).served = _ from hserved]
        exact List.mem_singleton_self _
      rcases h.pending (by rw [hpc]; rfl) fd hfd (by rw [hnone]; exact List.not_mem_nil) with
        ⟨_, heq⟩ | ⟨j, hj, _, h0, hslot⟩
      · exact absurd heq hnot'
      · have hji : j ≠ i := by
          rintro rfl
          omega
        exact ⟨j, hj, Nat.zero_le j, by rw [save_other hji]; exact h0,
          by rw [save_other hji]; exact hslot⟩
    · exact fun hc => by cases hc

/-- at slot `j` the reported descriptors not served are in slots from `j` on -/
theorem Round.pending_scan (h : Round s) {j : Nat} (hpc : s.pc = .scan j) :
    ∀ fd ∈ s.rset, fd ∉ s.served → ∃ i < FD_SETSIZE, j ≤ i ∧ 0 ≤ s.client i ∧ s.client i = fd := by
  intro fd hfd hnot
  rcases h.pending (by rw [hpc]; rfl) fd hfd hnot with ⟨hacc, _⟩ | hslot
  · rw [hpc] at hacc
    cases hacc
  · rw [hpc] at hslot
    exact hslot

/-- and all others have been counted down -/
theorem Round.count_scan (h : Round s) {j : Nat} (hpc : s.pc = .scan j) :
    s.nready + s.served.length = s.rset.card := by
  have hcount := h.count (by rw [hpc]; rfl)
  rw [hpc] at hcount
  exact hcount

/-- the descriptor of slot `j` is served -/
theorem Round.serve (h : Round s) (hk : Kept s) {j : Nat} (hpc : s.pc = .scan j)
    (hj : j < FD_SETSIZE) (hused : 0 ≤ s.client j) (hset : s.client j ∈ s.rset) :
    (s.client j :: s.served).Nodup ∧ (∀ fd ∈ s.client j :: s.served, fd ∈ s.rset) ∧
    (∀ i < FD_SETSIZE, j < i → 0 ≤ s.client i → s.client i ∈ s.rset →
      s.client i ∉ s.client j :: s.served) ∧
    s.nready + (s.client j :: s.served).length = s.rset.card + 1 ∧
    (∀ fd ∈ s.rset, fd ∉ s.client j :: s.served →
      ∃ i < FD_SETSIZE, j < i ∧ 0 ≤ s.client i ∧ s.client i = fd) := by
  refine ⟨?_, ?_, ?_, ?_, ?_⟩
  · exact List.nodup_cons.mpr ⟨h.ahead j hj (by rw [hpc]; exact Nat.le_refl j) hused hset, h.nodup⟩
  · intro fd hfd
    rcases List.mem_cons.mp hfd with rfl | hold
    · exact hset
    · exact h.sub fd hold
  · intro i hi hji h0 hmem hc
    rcases List.mem_cons.mp hc with heq | hold
    · have hij := hk.table.distinct i j hi hj h0 heq
      omega
    · exact h.ahead i hi (by rw [hpc]; exact Nat.le_of_lt hji) h0 hmem hold
  · have hcount := h.count_scan hpc
    rw [List.length_cons]
    omega
  · intro fd hfd hnot
    rw [List.mem_cons, not_or] at hnot
    obtain ⟨i, hi, hle, h0, hslot⟩ := h.pending_scan hpc fd hfd hnot.2
    have hne : i ≠ j := by
      rintro rfl
      exact hnot.1 hslot.symm
    exact ⟨i, hi, by omega, h0, hslot⟩

theorem Round.read (h : Round s) (hk : Kept s) {j id : Nat} (hpc : s.pc = .scan j)
    (hj : j < FD_SETSIZE) (hused : 0 ≤ s.client j) (hset : s.client j ∈ s.rset)
    (r : ReadRes Sent MAXLINE) : Round (s.read j (s.client j) id r) := by
  obtain ⟨hnodup, hsub, hahead, hcount, hpending⟩ := h.serve hk hpc hj hused hset
  cases r with
  | err e =>
    exact Round.stopped rfl hnodup hsub
  | eof =>
    have hother : ∀ i, j < i → Function.update s.client j (-1) i = s.client i :=
      fun i hi => Function.update_of_ne (by omega) ..
    apply Round.next (s := St.close { s with served := s.client j :: s.served } j (s.client j)) hnodup hsub
    · intro i hi hji h0 hmem
      have hsame : (St.close { s with served := s.client j :: s.served } j (s.client j)).client i
          = s.client i := hother i hji
      rw [hsame] at h0 hmem ⊢
      exact hahead i hi hji h0 hmem
    · exact hcount
    · rfl
    · intro fd hfd hnot
      obtain ⟨i, hi, hji, h0, hslot⟩ := hpending fd hfd hnot
      have hsame : (St.close { s with served := s.client j :: s.served } j (s.client j)).client i
          = s.client i := hother i hji
      exact ⟨i, hi, hji, by rw [hsame]; exact h0, by rw [hsame]; exact hslot⟩
    · exact fun hc => by cases hc
  | data bs pos len =>
    exact ⟨hnodup, hsub, hahead, fun _ => hcount, fun _ fd hfd hnot => Or.inr (hpending fd hfd hnot),
      (fun hc => by cases hc)⟩

theorem Round.writen (h : Round s) {j n id : Nat} {sockfd : Int} (hpc : s.pc = .writen j sockfd n)
    (w : Written Sent) : Round (s.writen j id n w) := by
  have hcount := h.count (by rw [hpc]; rfl)
  rw [hpc] at hcount
  have hahead := h.ahead
  have hpending := h.pending (by rw [hpc]; rfl)
  rw [hpc] at hahead hpending
  unfold St.writen
  dsimp only
  split
  · exact Round.stopped rfl h.nodup h.sub
  · apply Round.next
    · exact h.nodup
    · exact h.sub
    · exact hahead
    · exact hcount
    · rfl
    · intro fd hfd hnot
      exact (hpending fd hfd hnot).resolve_left (fun hc => by cases hc.1)
    · exact fun hc => by cases hc

/-- slot `j` is passed over -/
theorem Round.skip (h : Round s) {j : Nat} (hpc : s.pc = .scan j)
    (hnotset : s.client j < 0 ∨ s.client j ∉ s.rset) : Round { s with pc := .scan (j + 1) } where
  nodup := h.nodup
  sub := h.sub
  ahead := by
    intro i hi hahead
    apply h.ahead i hi
    rw [hpc]
    exact Nat.le_of_succ_le hahead
  count := fun _ => h.count_scan hpc
  pending := by
    intro _ fd hfd hnot
    obtain ⟨i, hi, hle, h0, hslot⟩ := h.pending_scan hpc fd hfd hnot
    have hne : i ≠ j := by
      rintro rfl
      rcases hnotset with hneg | hnot'
      · omega
      · exact hnot' (hslot ▸ hfd)
    have hlt : j + 1 ≤ i := by omega
    exact Or.inr ⟨i, hi, hlt, h0, hslot⟩
  first := fun hc => by cases hc

/-- the `for` ends beyond `maxi`: no slot is left -/
theorem Round.last (h : Round s) (hk : Kept s) {j : Nat} (hpc : s.pc = .scan j) (hgt : s.maxi < j) :
    Round { s with pc := .head } where
  nodup := h.nodup
  sub := h.sub
  ahead := fun _ _ hc => hc.elim
  count := fun _ => h.count_scan hpc
  pending := by
    intro _ fd hfd hnot
    obtain ⟨i, hi, hle, h0, _⟩ := h.pending_scan hpc fd hfd hnot
    have htop := hk.table.top i hi h0
    omega
  first := fun hc => by cases hc

theorem Round.step (h : Round s) (hk : Kept s) (halloc : ∀ o fd, alloc o fd → Unused limit o fd)
    (hs : Step alloc s e t) : Round t := by
  cases hs with
  | connect => exact ⟨h.nodup, h.sub, h.ahead, h.count, h.pending, h.first⟩
  | send id bs lt opn => exact ⟨h.nodup, h.sub, h.ahead, h.count, h.pending, h.first⟩
  | close id lt => exact ⟨h.nodup, h.sub, h.ahead, h.count, h.pending, h.first⟩
  | select pc some => exact Round.select hk
  | accept connfd pc waits number => exact h.accept hk pc (halloc _ _ number).2.2
  | read j id r pc le used isset owner answers => exact h.read hk pc (hk.lt le) used isset r
  | writen j sockfd n id ws w pc owner returns => exact h.writen pc w
  | skip j pc le notset => exact h.skip pc notset
  | last j pc gt => exact h.last hk pc gt
  | fail msg running => exact Round.stopped rfl h.nodup h.sub

/-! ## runs -/

theorem kept_run (halloc : ∀ o fd, alloc o fd → Unused limit o fd) {inherited : Finset Int}
    {listenfd : Int} {buf : Nat → Sent} {es : List Event}
    (h : Run (Step alloc) (start inherited listenfd buf) es s) : Kept s ∧ Round s := by
  induction h with
  | nil => exact ⟨kept_start inherited listenfd buf, round_start inherited listenfd buf⟩
  | snoc _ hs ih => exact ⟨ih.1.step halloc hs, ih.2.step ih.1 halloc hs⟩

/-- **Everyone reported is served once.**  At every loop head the descriptors in the slots are
distinct and not `listenfd`, `allset` is these and `listenfd`, and `maxi` and `maxfd` bound them.
In the iteration before, each descriptor that `Select` reported was served once, and at no time has
another been. -/
theorem served_once (inherited : Finset Int) (listenfd : Int) (buf : Nat → Sent) (es : List Event)
    (s : St) (h : Run (Step (Unused FD_SETSIZE)) (start inherited listenfd buf) es s) :
    (∀ fd ∈ s.served, fd ∈ s.rset) ∧
    (s.pc = .head →
      SlotTable FD_SETSIZE s.client s.maxi s.maxfd {s.listenfd} s.allset ∧
      ∀ fd, s.served.count fd = if fd ∈ s.rset then 1 else 0) := by
  obtain ⟨hk, hround⟩ := kept_run (fun _ _ hu => hu) h
  refine ⟨hround.sub, ?_⟩
  intro hpc
  refine ⟨hk.table, ?_⟩
  intro fd
  have hall : ∀ fd ∈ s.rset, fd ∈ s.served := by
    intro fd hfd
    by_contra hnot
    rcases hround.pending (by rw [hpc]; rfl) fd hfd hnot with ⟨hacc, _⟩ | ⟨i, _, hahead, _⟩
    · rw [hpc] at hacc
      cases hacc
    · rw [hpc] at hahead
      exact hahead
  split
  · rename_i hmem
    exact List.count_eq_one_of_mem hround.nodup (hall fd hmem)
  · rename_i hmem
    exact List.count_eq_zero_of_not_mem (fun hc => hmem (hround.sub fd hc))

def nul : Sent := ⟨0, 0⟩

/-- a client has connected -/
def oneConnect : St :=
  { start {0, 1, 2} 3 (fun _ => nul) with backlog := [0], connects := 1 }

theorem oneConnect_run : Run (Step (Unused FD_SETSIZE)) (start {0, 1, 2} 3 (fun _ => nul))
    [.connect, .select, .accept 4] (oneConnect.select.accept 4) := by
  have h1 : Run (Step (Unused FD_SETSIZE)) (start {0, 1, 2} 3 (fun _ => nul)) [.connect] oneConnect :=
    Run.single Step.connect
  have h2 := h1.snoc (Step.select rfl ⟨3, by decide, rfl⟩)
  exact h2.snoc (Step.accept 4 rfl (by decide) ⟨by decide, by decide, by decide⟩)

theorem served_once_connect : (oneConnect.select.accept 4).pc = .head ∧
    (oneConnect.select.accept 4).client 0 = 4 ∧
    (oneConnect.select.accept 4).served.count 3 = 1 :=
  ⟨rfl, rfl, ((served_once {0, 1, 2} 3 _ _ _ oneConnect_run).2 rfl).2 3⟩

end Unp.StringEcho4
