import NetworkProgram.Icmpd.Books

/-!
# Every descriptor is accounted for

* `Accounts`       what the daemon's table says of the descriptors it holds, and its log of those it
                   has held;
* `Untouched`      a descriptor has been neither opened nor closed since the last `Select`;
* `accounts_run`   both along every run of the loop.
-/

namespace Unp.Icmpd
open Finset Trans

structure Accounts (d : Daemon) (log : List Act) : Prop where
  /-- held are the descriptors in the slots, each in one -/
  held : ∀ fd, fd ∈ Ledger.held (books log) ↔ 0 ≤ fd ∧ ∃ i < FD_SETSIZE, d.conn i = fd
  distinct : ∀ i j, i < FD_SETSIZE → j < FD_SETSIZE → 0 ≤ d.conn i → d.conn i = d.conn j → i = j
  allset : d.allset = {d.fd4, d.listenfd} ∪ Ledger.held (books log)
  maxi : ∀ i < FD_SETSIZE, 0 ≤ d.conn i → (i : Int) ≤ d.maxi
  maxfd : ∀ fd ∈ d.allset, fd ≤ d.maxfd
  /-- a descriptor obtained last is closed once, or never and in one slot -/
  last : ∀ new old fd, books log = new ++ .acquire fd :: old → .acquire fd ∉ new →
    (new.count (.release fd) = 0 ∧ ∃! i, i < FD_SETSIZE ∧ d.conn i = fd) ∨
    (new.count (.release fd) = 1 ∧ ∀ i < FD_SETSIZE, 0 ≤ d.conn i → d.conn i ≠ fd)
  /-- one obtained before is closed once -/
  earlier : ∀ newer new old fd, books log = newer ++ .acquire fd :: (new ++ .acquire fd :: old) →
    .acquire fd ∉ new → new.count (.release fd) = 1
  /-- what is closed is held -/
  close : ∀ new old fd, books log = new ++ .release fd :: old → fd ∈ Ledger.held old

variable {ipv6 : Bool} {e : Endian} {d : Daemon} {log : List Act} {i : Nat} {m : RecvMsg Sock}
  {fd : Int} {accept pass : Finset Int → Int → Prop} {inherited : Finset Int} {limit : Int}
  {s t : Loop} {ev : LoopEvent}

theorem Books.accounts (h : Books d log) : Accounts d log where
  held := by
    intro fd
    rw [h.held]
    exact mem_usedSlots
  distinct := h.table.distinct
  allset := by
    rw [h.held]
    exact h.table.watches
  maxi := h.table.top
  maxfd := h.table.bound
  last := by
    intro new old fd hlog hlast
    have hbal := h.balanced
    rw [hlog] at hbal
    have hheld : fd ∈ Ledger.held (new ++ .acquire fd :: old) ↔
        0 ≤ fd ∧ ∃ i < FD_SETSIZE, d.conn i = fd := by
      rw [← hlog, h.held]
      exact mem_usedSlots
    rcases hbal.account hlast with ⟨hcount, hmem⟩ | ⟨hcount, hnot⟩
    · obtain ⟨h0, i, hi, rfl⟩ := hheld.mp hmem
      refine Or.inl ⟨hcount, i, ⟨hi, rfl⟩, ?_⟩
      rintro j ⟨hj, hji⟩
      exact (h.table.distinct i j hi hj h0 hji.symm).symm
    · refine Or.inr ⟨hcount, ?_⟩
      rintro i hi h0 rfl
      exact hnot (hheld.mpr ⟨h0, i, hi, rfl⟩)
  earlier := by
    intro newer new old fd hlog hlast
    have hbal := h.balanced
    rw [hlog] at hbal
    exact hbal.between hlast
  close := by
    intro new old fd hlog
    have hbal := h.balanced
    rw [hlog] at hbal
    exact hbal.release_mem

/-! ## since the last Select -/

def Untouched (fd : Int) (older log : List Act) : Prop :=
  ∃ new, log = new ++ older ∧ ∀ a ∈ books new, a.item ≠ fd

theorem untouched_refl (fd : Int) (log : List Act) : Untouched fd log log :=
  ⟨[], rfl, fun a ha => by cases ha⟩

theorem Untouched.add {older : List Act} (h : Untouched fd older log) {acts : List Act}
    (hacts : ∀ a ∈ books acts, a.item ≠ fd) : Untouched fd older (acts.reverse ++ log) := by
  obtain ⟨new, rfl, hnew⟩ := h
  refine ⟨acts.reverse ++ new, (List.append_assoc ..).symm, ?_⟩
  intro a ha
  rw [books_append, books_reverse] at ha
  rcases List.mem_append.mp ha with ha | ha
  · exact hacts a (List.mem_reverse.mp ha)
  · exact hnew a ha

theorem readableListen_items (d : Daemon) (fd : Int) :
    ∀ a ∈ books (readableListen d fd).acts, a.item = fd := by
  intro a ha
  cases listen_outcome d fd with
  | full none stop client maxi acts =>
    rw [acts] at ha
    rcases List.mem_pair.mp ha with rfl | rfl <;> rfl
  | stored i some lt free stop client maxi acts =>
    rw [acts] at ha
    rw [List.mem_singleton.mp ha]
    rfl

theorem readableConn_items (ipv6 : Bool) (d : Daemon) (i : Nat) (m : RecvMsg Sock) :
    ∀ a ∈ books (readableConn ipv6 d i m).acts, a.item = d.conn i ∨ ∃ p, Passes m p ∧ a.item = p.fd := by
  have hout := readableConn_outcome ipv6 d i m
  generalize readableConn ipv6 d i m = o at hout ⊢
  -- the descriptor of the slot is closed, or the passed one opened and closed
  have hclose : ∀ a ∈ [Ledger.Entry.release (d.conn i)], a.item = d.conn i ∨
      ∃ p, Passes m p ∧ a.item = p.fd := by
    intro a ha
    rw [List.mem_singleton.mp ha]
    exact Or.inl rfl
  have hthree : ∀ p, Passes m p →
      ∀ a ∈ [Ledger.Entry.acquire (p.fd : Int), .release (d.conn i), .release (p.fd : Int)],
        a.item = d.conn i ∨ ∃ p, Passes m p ∧ a.item = p.fd := by
    intro p hp a ha
    simp only [List.mem_cons, List.not_mem_nil, or_false] at ha
    rcases ha with rfl | rfl | rfl
    · exact Or.inr ⟨p, hp, rfl⟩
    · exact Or.inl rfl
    · exact Or.inr ⟨p, hp, rfl⟩
  have htwo : ∀ p, Passes m p →
      ∀ a ∈ [Ledger.Entry.acquire (p.fd : Int), .release (p.fd : Int)],
        a.item = d.conn i ∨ ∃ p, Passes m p ∧ a.item = p.fd := by
    intro p hp a ha
    apply hthree p hp
    rcases List.mem_pair.mp ha with rfl | rfl <;> simp
  cases hout with
  | stopped stop err => exact fun a ha => by cases ha
  | closed ret none => exact hclose
  | noFd ret none => exact hclose
  | noName p errno ret pass name => exact hthree p pass
  | noPort p family port ret pass name zero wild => exact hthree p pass
  | bound p family port ret pass name zero wild => exact htwo p pass
  | named p family port ret pass name nonzero => exact htwo p pass

/-- the loop has not come to slot `i` since `Select` -/
def Pc.ahead : Pc → Nat → Prop
  | .head, _ => False
  | .listen, _ => True
  | .v4, _ => True
  | .scan k, i => k ≤ i

/-- the slots that the scan has yet to come to are as `Select` saw them, if it has reported them -/
structure Loop.Seen (s : Loop) : Prop where
  first : s.pc = .listen → s.selected.d.allset = s.w.d.allset
  sub : s.pc ≠ .head → s.rset ⊆ s.selected.d.allset
  slot : ∀ i < FD_SETSIZE, s.pc.ahead i → 0 ≤ s.w.d.conn i → s.w.d.conn i ∈ s.rset →
    s.selected.d.conn i = s.w.d.conn i ∧ Untouched (s.w.d.conn i) s.selected.log s.w.log

theorem seen_start (d : Daemon) : (Loop.start d).Seen where
  first := fun h => by cases h
  sub := fun h => absurd rfl h
  slot := fun _ _ h => h.elim

/-- the loop goes on to `pc` without a handler -/
theorem Loop.Seen.goto (h : s.Seen) {pc : Pc} (hhead : pc ≠ .head → s.pc ≠ .head)
    (hlisten : pc ≠ .listen) (hahead : ∀ i, pc.ahead i → s.pc.ahead i) :
    Loop.Seen { s with pc := pc } where
  first := fun hpc => absurd hpc hlisten
  sub := fun hpc => h.sub (hhead hpc)
  slot := fun i hi hi' => h.slot i hi (hahead i hi')

/-- a handler leaves the slots ahead alone and does nothing to their descriptors -/
theorem Loop.Seen.after (h : s.Seen) {o : Out} {pc : Pc} (hhead : s.pc ≠ .head)
    (hlisten : pc ≠ .listen)
    (hslot : ∀ i < FD_SETSIZE, pc.ahead i → 0 ≤ o.d.conn i → o.d.conn i ∈ s.rset →
      s.pc.ahead i ∧ o.d.conn i = s.w.d.conn i ∧ ∀ a ∈ books o.acts, a.item ≠ s.w.d.conn i) :
    (s.after o pc).Seen := by
  have hpc : (s.after o pc).pc = .head ∨ (s.after o pc).pc = pc := by
    show (if o.d.nready ≤ 0 then Pc.head else pc) = .head ∨ _
    split
    · exact Or.inl rfl
    · rename_i hpos
      exact Or.inr (if_neg hpos)
  refine ⟨?_, fun _ => h.sub hhead, ?_⟩
  · intro hc
    rcases hpc with hpc | hpc
    · rw [hpc] at hc
      cases hc
    · exact absurd (hpc.symm.trans hc) hlisten
  · intro i hi hahead h0 hmem
    rcases hpc with hpc | hpc
    · rw [hpc] at hahead
      exact hahead.elim
    · rw [hpc] at hahead
      obtain ⟨hbefore, hsame, hitems⟩ := hslot i hi hahead h0 hmem
      have h0' : 0 ≤ s.w.d.conn i := hsame ▸ h0
      have hmem' : s.w.d.conn i ∈ s.rset := hsame ▸ hmem
      obtain ⟨hsel, hunt⟩ := h.slot i hi hbefore h0' hmem'
      show s.selected.d.conn i = o.d.conn i ∧ Untouched (o.d.conn i) _ _
      rw [hsame]
      exact ⟨hsel, hunt.add hitems⟩

/-- `readable_listen` stores the new descriptor and leaves the other slots as they are -/
theorem listen_keeps {d : Daemon} {connfd : Int} {i : Nat}
    (h : (readableListen d connfd).d.conn i ≠ connfd) :
    (readableListen d connfd).d.conn i = d.conn i := by
  cases listen_outcome d connfd with
  | full none stop client maxi acts => exact congrArg Client.connfd (congrFun client i)
  | stored k some lt free stop client maxi acts =>
    unfold Daemon.conn at h ⊢
    rw [client] at h ⊢
    have hki : i ≠ k := by
      rintro rfl
      rw [Function.update_self] at h
      exact h rfl
    rw [Function.update_of_ne hki]

theorem Loop.Seen.step (h : s.Seen) (hk : s.Kept inherited)
    (haccept : ∀ o fd, accept o fd → Unused limit o fd)
    (hpass : ∀ o fd, pass o fd → Unused limit o fd)
    (hs : LoopStep ipv6 e accept pass inherited s ev t) : t.Seen := by
  have hne : ∀ {pc}, s.pc = pc → pc ≠ .head → s.pc ≠ .head := fun hpc hc heq => hc (hpc ▸ heq)
  cases hs with
  | select rset run pc sub some =>
    exact ⟨fun _ => rfl, fun _ => sub, fun i _ _ _ _ => ⟨rfl, untouched_refl _ _⟩⟩
  | listen connfd run pc isset accepts =>
    have hfree := haccept _ _ accepts
    have hnew : connfd ∉ s.w.d.allset := hk.unused hfree
    have hnotset : connfd ∉ s.rset := by
      rw [← h.first pc] at hnew
      exact fun hc => hnew (h.sub (hne pc (by decide)) hc)
    apply h.after (hne pc (by decide)) (by decide)
    intro i hi _ h0 hmem
    have hsame : (readableListen s.w.d connfd).d.conn i = s.w.d.conn i :=
      listen_keeps (fun heq => hnotset (heq ▸ hmem))
    refine ⟨pc ▸ trivial, hsame, ?_⟩
    intro a ha heq
    rw [readableListen_items s.w.d connfd a ha] at heq
    rw [hsame] at h0
    exact hnew (heq ▸ hk.books.table.slot_mem hi h0)
  | v4 buf n run pc isset =>
    obtain ⟨halike, hnil⟩ := readableV4_books e s.w.d buf n
    apply h.after (hne pc (by decide)) (by decide)
    intro i _ _ _ _
    rw [hnil]
    exact ⟨pc ▸ trivial, congrFun halike.conn i, fun a ha => by cases ha⟩
  | conn k m run pc le used isset passes =>
    apply h.after (hne pc (by simp)) (by simp)
    intro i hi hahead h0 hmem
    have hki : i ≠ k := by
      have hlt : k + 1 ≤ i := hahead
      omega
    have hown := (readableConn_outcome ipv6 s.w.d k m).ownSlot.other i hki
    have hsame : (readableConn ipv6 s.w.d k m).d.conn i = s.w.d.conn i := congrArg Client.connfd hown
    rw [hsame] at h0
    have hk' : k < FD_SETSIZE := by
      have htop := hk.books.table.top_lt
      omega
    refine ⟨?_, hsame, ?_⟩
    · rw [pc]
      exact Nat.le_of_succ_le hahead
    · intro a ha heq
      rcases readableConn_items ipv6 s.w.d k m a ha with hk0 | ⟨p, hp, hpfd⟩
      · exact hki (hk.books.table.distinct i k hi hk' h0 (heq.symm.trans hk0))
      · have hnew := hk.unused (hpass _ _ (passes p hp))
        rw [← hpfd, heq] at hnew
        exact hnew (hk.books.table.slot_mem hi h0)
  | noListen run pc notset =>
    exact h.goto (fun _ => hne pc (by decide)) (by decide) (fun i _ => pc ▸ trivial)
  | noV4 run pc notset =>
    exact h.goto (fun _ => hne pc (by decide)) (by decide) (fun i _ => pc ▸ trivial)
  | noConn i run pc le notset =>
    apply h.goto (fun _ => hne pc (by simp)) (by simp)
    intro j hj
    rw [pc]
    exact Nat.le_of_succ_le hj
  | last i run pc gt => exact h.goto (fun hc => absurd rfl hc) (by decide) (fun j hj => hj.elim)

/-! ## runs -/

/-- at the loop head with every slot free -/
structure Empty (d : Daemon) (inherited : Finset Int) : Prop where
  free : AllFree d
  maxi : d.maxi = -1
  maxfd : d.maxfd = max d.fd4 d.listenfd
  allset : d.allset = {d.fd4, d.listenfd}
  sockets : d.sockets ⊆ inherited

theorem Empty.kept (h : Empty d inherited) : (Loop.start d).Kept inherited := by
  have hused : usedSlots FD_SETSIZE d.conn = ∅ := usedSlots_eq_empty h.free
  refine ⟨⟨?_, trivial, hused.symm⟩, h.sockets⟩
  show SlotTable FD_SETSIZE d.conn d.maxi d.maxfd d.sockets d.allset
  have hall : d.allset = d.sockets := h.allset
  rw [hall]
  apply SlotTable.start h.free
  · rw [h.maxi]
    decide
  · intro fd hfd
    rw [h.maxfd]
    rcases mem_insert.mp hfd with rfl | hfd
    · exact le_max_left ..
    · rw [mem_singleton.mp hfd]
      exact le_max_right ..

theorem kept_run (haccept : ∀ o fd, accept o fd → Unused limit o fd)
    (hpass : ∀ o fd, pass o fd → Unused limit o fd) (h0 : Empty d inherited) {es : List LoopEvent}
    (h : Run (LoopStep ipv6 e accept pass inherited) (Loop.start d) es s) :
    s.Kept inherited ∧ s.Seen := by
  induction h with
  | nil => exact ⟨h0.kept, seen_start d⟩
  | snoc _ hs ih =>
    obtain ⟨hk, hseen⟩ := ih
    exact ⟨hk.step haccept hpass hs, hseen.step hk haccept hpass hs⟩

/-- **Every descriptor is accounted for.**  In every run of the loop from a table of free slots,
where `Accept` and `Read_fd` return numbers that are not in use, the descriptors held are those in
the slots, and every descriptor obtained is closed once or in one slot.  When `readable_conn` is
called on a slot, the last `Select` has reported its descriptor, it was in that slot then, and it
has not been closed or opened since. -/
theorem accounts_run (ipv6 : Bool) (e : Endian) (inherited : Finset Int) (d : Daemon)
    (h0 : Empty d inherited) (es : List LoopEvent) (s : Loop)
    (h : Run (LoopStep ipv6 e (Unused FD_SETSIZE) (Unused FD_SETSIZE) inherited) (Loop.start d) es s) :
    Accounts s.w.d s.w.log ∧
    ∀ i m t, s.pc = .scan i →
      LoopStep ipv6 e (Unused FD_SETSIZE) (Unused FD_SETSIZE) inherited s (.conn m) t →
      s.w.d.conn i ∈ s.rset ∧ s.selected.d.conn i = s.w.d.conn i ∧
        Untouched (s.w.d.conn i) s.selected.log s.w.log := by
  obtain ⟨hk, hseen⟩ := kept_run (fun _ _ hu => hu) (fun _ _ hu => hu) h0 h
  refine ⟨hk.books.accounts, ?_⟩
  intro i m t hpc hs
  cases hs with
  | conn k m run pc le used isset passes =>
    obtain rfl := Pc.scan.inj (pc.symm.trans hpc)
    have hk' : k < FD_SETSIZE := by
      have htop := hk.books.table.top_lt
      omega
    exact ⟨isset, hseen.slot k hk' (pc ▸ Nat.le_refl k) used isset⟩

/-- the sockets are 3 and 4 -/
def fresh34 : Daemon where
  client := fun _ => ⟨-1, AF_UNSPEC, 0⟩
  maxi := -1
  maxfd := 4
  nready := 0
  allset := {3, 4}
  fd4 := 3
  listenfd := 4

theorem empty_fresh34 : Empty fresh34 {0, 1, 2, 3, 4} where
  free := fun _ _ => Int.negSucc_lt_zero 0
  maxi := rfl
  maxfd := rfl
  allset := rfl
  sockets := by decide

/-- a client is accepted -/
def oneAccepted : Loop :=
  let s := (Loop.start fresh34).select {4}
  s.after (readableListen s.w.d 5) .v4

/-- and its descriptor reported -/
def oneReported : Loop := { oneAccepted.select {5} with pc := .scan 0 }

theorem oneReported_run :
    Run (LoopStep true .little (Unused FD_SETSIZE) (Unused FD_SETSIZE) {0, 1, 2, 3, 4})
      (Loop.start fresh34) [.select {4}, .listen 5, .select {5}, .skip, .skip] oneReported := by
  have h1 : Run (LoopStep true .little (Unused FD_SETSIZE) (Unused FD_SETSIZE) {0, 1, 2, 3, 4})
      (Loop.start fresh34) [.select {4}] ((Loop.start fresh34).select {4}) :=
    Run.single (LoopStep.select {4} rfl rfl (by decide) (by decide))
  have h2 := h1.snoc (LoopStep.listen 5 rfl rfl (by decide) ⟨by decide, by decide, by decide⟩)
  have h3 := h2.snoc (LoopStep.select {5} rfl rfl (by decide) (by decide))
  have h4 := h3.snoc (LoopStep.noListen rfl rfl (by decide))
  exact h4.snoc (LoopStep.noV4 rfl rfl (by decide))

/-- the client closes its end -/
theorem accounts_run_closed : ∃ s,
    Run (LoopStep true .little (Unused FD_SETSIZE) (Unused FD_SETSIZE) {0, 1, 2, 3, 4})
      (Loop.start fresh34) [.select {4}, .listen 5, .select {5}, .skip, .skip, .conn ⟨0, none⟩] s ∧
    books s.w.log = [.release 5, .acquire 5] ∧ Accounts s.w.d s.w.log := by
  have hclose := oneReported_run.snoc (LoopStep.conn 0 ⟨0, none⟩ rfl rfl (by decide) (by decide)
    (by decide) (fun p hp => by cases hp))
  exact ⟨_, hclose, rfl, (accounts_run true .little _ fresh34 empty_fresh34 _ _ hclose).1⟩

end Unp.Icmpd
