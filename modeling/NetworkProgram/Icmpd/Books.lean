import NetworkProgram.Icmpd.Loop
import NetworkProgram.Lib.SlotTable

/-!
# Which descriptors the daemon holds

`Books`: the descriptors acquired and not released are those in the slots, `allset` is these and the
two sockets, and `maxi` and `maxfd` bound them.  Each handler keeps it when the numbers it gets from
the kernel are not in use.
-/

namespace Unp.Icmpd
open Finset Trans

/-- the descriptor of slot `i`, negative if the slot is free -/
def Daemon.conn (d : Daemon) (i : Nat) : Int := (d.client i).connfd

def Daemon.sockets (d : Daemon) : Finset Int := {d.fd4, d.listenfd}

structure Books (d : Daemon) (log : List Act) : Prop where
  table : SlotTable FD_SETSIZE d.conn d.maxi d.maxfd d.sockets d.allset
  balanced : Ledger.Balanced (books log)
  held : Ledger.held (books log) = usedSlots FD_SETSIZE d.conn

variable {ipv6 : Bool} {e : Endian} {d d' : Daemon} {log : List Act} {i : Nat} {m : RecvMsg Sock}
  {fd : Int}

/-! ## the table -/

theorem conn_setClient (c : Client) :
    (d.setClient i c).conn = Function.update d.conn i c.connfd := by
  funext j
  exact Function.apply_update (fun _ => Client.connfd) d.client i c j

theorem conn_named (family : Nat) (lport : Int) : (d.named i family lport).conn = d.conn := by
  unfold Daemon.named
  rw [conn_setClient]
  exact Function.update_eq_self i d.conn

/-- what the books depend on -/
structure Alike (d d' : Daemon) : Prop where
  conn : d'.conn = d.conn
  maxi : d'.maxi = d.maxi
  maxfd : d'.maxfd = d.maxfd
  allset : d'.allset = d.allset
  sockets : d'.sockets = d.sockets

theorem alike_refl (d : Daemon) : Alike d d := ⟨rfl, rfl, rfl, rfl, rfl⟩

theorem alike_named (d : Daemon) (i family : Nat) (lport : Int) :
    Alike d (d.named i family lport) := ⟨conn_named family lport, rfl, rfl, rfl, rfl⟩

theorem Books.alike (h : Books d log) (ha : Alike d d') {log' : List Act}
    (hlog : books log' = books log) : Books d' log' where
  table := by
    rw [ha.conn, ha.maxi, ha.maxfd, ha.allset, ha.sockets]
    exact h.table
  balanced := by
    rw [hlog]
    exact h.balanced
  held := by
    rw [hlog, ha.conn]
    exact h.held

theorem Books.held_sub (h : Books d log) : Ledger.held (books log) ⊆ d.allset := by
  rw [h.held, h.table.watches]
  exact subset_union_right

/-! ## readable_listen -/

theorem Books.listen (h : Books d log) (h0 : 0 ≤ fd) (hnew : fd ∉ d.allset) :
    Books (readableListen d fd).d ((readableListen d fd).acts.reverse ++ log) := by
  have hheld : fd ∉ Ledger.held (books log) := fun hc => hnew (h.held_sub hc)
  cases hslot : d.freeSlot with
  | none =>
    have hout : readableListen d fd = d.done [.accept fd, .close fd] := by
      unfold readableListen
      rw [hslot]
    rw [hout]
    have hlog : books ([Act.accept fd, .close fd].reverse ++ log)
        = .release fd :: .acquire fd :: books log := rfl
    refine ⟨h.table, ?_, ?_⟩
    · show Ledger.Balanced (books ([Act.accept fd, .close fd].reverse ++ log))
      rw [hlog]
      exact ⟨mem_insert_self .., hheld, h.balanced⟩
    · show Ledger.held (books ([Act.accept fd, .close fd].reverse ++ log)) = _
      rw [hlog, Ledger.held_release, Ledger.held_acquire, erase_insert hheld]
      exact h.held
  | some i =>
    obtain ⟨_, hlt, hfree⟩ := findFree_some hslot
    have hi : i < FD_SETSIZE := by omega
    have hconn : (readableListen d fd).d.conn = Function.update d.conn i fd := by
      unfold readableListen
      rw [hslot]
      exact conn_setClient _
    have hmaxi : (readableListen d fd).d.maxi = max d.maxi i := by
      unfold readableListen
      rw [hslot]
      show (if (i : Int) > d.maxi then (i : Int) else d.maxi) = max d.maxi i
      split <;> omega
    have hmaxfd : (readableListen d fd).d.maxfd = max d.maxfd fd := by
      unfold readableListen
      rw [hslot]
      show (if fd > d.maxfd then fd else d.maxfd) = max d.maxfd fd
      split <;> omega
    have hrest : (readableListen d fd).d.allset = insert fd d.allset ∧
        (readableListen d fd).d.sockets = d.sockets ∧
        (readableListen d fd).acts = [.accept fd] := by
      unfold readableListen
      rw [hslot]
      exact ⟨rfl, rfl, rfl⟩
    obtain ⟨hall, hsock, hacts⟩ := hrest
    have hlog : books ((readableListen d fd).acts.reverse ++ log) = .acquire fd :: books log := by
      rw [hacts]
      rfl
    refine ⟨?_, ?_, ?_⟩
    · rw [hconn, hmaxi, hmaxfd, hall, hsock]
      exact h.table.store hi hfree h0 hnew
    · rw [hlog]
      exact ⟨hheld, h.balanced⟩
    · rw [hlog, hconn, usedSlots_store hi hfree h0, Ledger.held_acquire, h.held]

/-- the sockets stay -/
theorem readableListen_sockets (d : Daemon) (fd : Int) :
    (readableListen d fd).d.sockets = d.sockets := by
  unfold readableListen
  split <;> rfl

/-! ## readable_conn -/

theorem readableConn_sockets (ipv6 : Bool) (d : Daemon) (i : Nat) (m : RecvMsg Sock) :
    (readableConn ipv6 d i m).d.sockets = d.sockets := by
  have hout := readableConn_outcome ipv6 d i m
  generalize readableConn ipv6 d i m = o at hout ⊢
  cases hout <;> rfl

/-- slot `i` is freed, and its descriptor closed; a descriptor `p` passed before is closed too -/
theorem Books.freed (h : Books d log) (ha : Alike d d') (hi : i < FD_SETSIZE)
    (hused : 0 ≤ d.conn i) {p : Option Int} (hp : ∀ fd ∈ p, fd ∉ d.allset) {log' : List Act}
    (hlog : books log' = (p.map .release).toList ++ .release (d.conn i) ::
      ((p.map .acquire).toList ++ books log))
    {r : Option (Passed Sock)} {acts : List Act} :
    Books (clientdone d' i (d.conn i) r acts).d log' := by
  have hmem : d.conn i ∈ usedSlots FD_SETSIZE d.conn := slot_mem_used hi hused
  have hconn : (clientdone d' i (d.conn i) r acts).d.conn = Function.update d.conn i (-1) := by
    rw [← ha.conn]
    exact conn_setClient _
  have hheld : Ledger.held (books log') = (Ledger.held (books log)).erase (d.conn i) ∧
      Ledger.Balanced (books log') := by
    rw [hlog]
    cases p with
    | none => exact ⟨rfl, h.held ▸ hmem, h.balanced⟩
    | some fd =>
      have hfd : fd ∉ Ledger.held (books log) := fun hc => hp fd rfl (h.held_sub hc)
      have hne : fd ≠ d.conn i := by
        rintro rfl
        exact hfd (h.held ▸ hmem)
      refine ⟨?_, ?_, ?_, hfd, h.balanced⟩
      · show (((insert fd (Ledger.held (books log))).erase (d.conn i)).erase fd) = _
        rw [erase_right_comm, erase_insert hfd]
      · exact mem_erase.mpr ⟨hne, mem_insert_self ..⟩
      · exact mem_insert_of_mem (h.held ▸ hmem)
  refine ⟨?_, hheld.2, ?_⟩
  · rw [hconn]
    show SlotTable FD_SETSIZE (Function.update d.conn i (-1)) d'.maxi d'.maxfd d'.sockets
      (d'.allset.erase (d.conn i))
    rw [ha.maxi, ha.maxfd, ha.allset, ha.sockets]
    exact h.table.free hi hused (by decide)
  · rw [hheld.1, hconn, h.held, h.table.used_free hi hused (by decide)]

theorem Books.conn (h : Books d log) (hi : i < FD_SETSIZE) (hused : 0 ≤ (d.client i).connfd)
    (hnew : ∀ p, Passes m p → (p.fd : Int) ∉ d.allset) :
    Books (readableConn ipv6 d i m).d ((readableConn ipv6 d i m).acts.reverse ++ log) := by
  -- a passed descriptor is acquired and released, and the slot stays
  have hkeep : ∀ {d'} p, Alike d d' → Passes m p → Books (registered d' (d.client i).connfd p).d
      ((registered d' (d.client i).connfd p).acts.reverse ++ log) := by
    intro d' p ha hp
    have hfd : (p.fd : Int) ∉ Ledger.held (books log) := fun hc => hnew p hp (h.held_sub hc)
    have hbooks : Books d' log := h.alike ha rfl
    refine ⟨hbooks.table, ⟨mem_insert_self .., hfd, h.balanced⟩, ?_⟩
    show (insert (p.fd : Int) (Ledger.held (books log))).erase (p.fd : Int) = _
    rw [erase_insert hfd]
    exact hbooks.held
  have hpass : ∀ p, Passes m p → ∀ fd ∈ some (p.fd : Int), fd ∉ d.allset := by
    rintro p hp fd hfd
    obtain rfl := Option.some.inj hfd
    exact hnew p hp
  have hout := readableConn_outcome ipv6 d i m
  generalize readableConn ipv6 d i m = o at hout ⊢
  cases hout with
  | stopped stop err => exact h
  | closed ret none => exact h.freed (p := .none) (alike_refl d) hi hused (by simp) rfl
  | noFd ret none => exact h.freed (p := .none) (alike_refl d) hi hused (by simp) rfl
  | noName p errno ret pass name =>
    exact h.freed (alike_refl d) hi hused (hpass p pass) rfl
  | noPort p family port ret pass name zero wild =>
    exact h.freed (alike_named d i family _) hi hused (hpass p pass) rfl
  | bound p family port ret pass name zero wild => exact hkeep p (alike_named d i family _) pass
  | named p family port ret pass name nonzero => exact hkeep p (alike_named d i family _) pass

/-! ## readable_v4 -/

theorem books_scan (buf : Nat → UInt8) (k : Nat) : books (scan e d buf k) = [] := by
  apply List.filterMap_eq_nil_iff.mpr
  intro a ha
  obtain ⟨i, _, hi⟩ := List.mem_flatMap.mp ha
  split at hi
  · rw [List.mem_singleton.mp hi]
    rfl
  · cases hi

/-- `readable_v4` changes `nready` only, and neither opens nor closes anything -/
theorem readableV4_books (e : Endian) (d : Daemon) (buf : Nat → UInt8) (n : Nat) :
    Alike d (readableV4 e d buf n).d ∧ books (readableV4 e d buf n).acts = [] := by
  constructor
  · have hdone : ∀ acts, Alike d (d.done acts).d := fun _ => ⟨rfl, rfl, rfl, rfl, rfl⟩
    unfold readableV4
    dsimp only
    split
    · exact alike_refl d
    · split
      · split
        · exact alike_refl d
        · split
          · exact hdone _
          · exact hdone _
      · exact hdone _
  · obtain ⟨_, _, hacts⟩ := v4_outcome e d buf n
    rcases hacts with hacts | hacts
    · rw [hacts]
      rfl
    · rw [hacts]
      exact books_scan buf _

theorem books_append (new log : List Act) : books (new ++ log) = books new ++ books log :=
  List.filterMap_append ..

theorem books_reverse (acts : List Act) : books acts.reverse = (books acts).reverse :=
  List.filterMap_reverse ..

theorem Books.v4 (h : Books d log) (buf : Nat → UInt8) (n : Nat) :
    Books (readableV4 e d buf n).d ((readableV4 e d buf n).acts.reverse ++ log) := by
  obtain ⟨halike, hnil⟩ := readableV4_books e d buf n
  apply h.alike halike
  rw [books_append, books_reverse, hnil]
  rfl

/-! ## the loop -/

section
variable {accept pass : Finset Int → Int → Prop} {inherited : Finset Int} {limit : Int}
  {s t : Loop} {ev : LoopEvent}

/-- what the books say of the loop's world; the sockets were open before -/
structure Loop.Kept (inherited : Finset Int) (s : Loop) : Prop where
  books : Books s.w.d s.w.log
  sockets : s.w.d.sockets ⊆ inherited

/-- a number not in use is not in `allset` -/
theorem Loop.Kept.unused (h : s.Kept inherited) (hfd : Unused limit (s.w.opened inherited) fd) :
    fd ∉ s.w.d.allset := by
  intro hmem
  apply hfd.2.2
  rw [h.books.table.watches, ← h.books.held] at hmem
  exact union_subset_union_left h.sockets hmem

theorem Loop.Kept.step (h : s.Kept inherited) (haccept : ∀ o fd, accept o fd → Unused limit o fd)
    (hpass : ∀ o fd, pass o fd → Unused limit o fd)
    (hs : LoopStep ipv6 e accept pass inherited s ev t) : t.Kept inherited := by
  cases hs with
  | select rset run pc sub some =>
    have halike : Alike s.w.d (s.select rset).w.d := ⟨rfl, rfl, rfl, rfl, rfl⟩
    exact ⟨h.books.alike halike rfl, h.sockets⟩
  | listen connfd run pc isset accepts =>
    have hfree := haccept _ _ accepts
    refine ⟨h.books.listen hfree.1 (h.unused hfree), ?_⟩
    show (readableListen s.w.d connfd).d.sockets ⊆ inherited
    rw [readableListen_sockets]
    exact h.sockets
  | v4 buf n run pc isset =>
    refine ⟨h.books.v4 buf n, ?_⟩
    show (readableV4 e s.w.d buf n).d.sockets ⊆ inherited
    rw [(readableV4_books e s.w.d buf n).1.sockets]
    exact h.sockets
  | conn i m run pc le used isset passes =>
    have hi : i < FD_SETSIZE := by
      have htop := h.books.table.top_lt
      omega
    refine ⟨h.books.conn hi used (fun p hp => h.unused (hpass _ _ (passes p hp))), ?_⟩
    show (readableConn ipv6 s.w.d i m).d.sockets ⊆ inherited
    rw [readableConn_sockets]
    exact h.sockets
  | noListen run pc notset => exact ⟨h.books, h.sockets⟩
  | noV4 run pc notset => exact ⟨h.books, h.sockets⟩
  | noConn i run pc le notset => exact ⟨h.books, h.sockets⟩
  | last i run pc gt => exact ⟨h.books, h.sockets⟩

end

end Unp.Icmpd
