import NetworkProgram.Icmpd.Accounts

/-!
# Descriptors that do not fit into an `fd_set`

The daemon, like any server over a table of slots, tests for a free slot before `FD_SET`.

* `Fits`           every descriptor passed to `FD_SET` so far is below `FD_SETSIZE`;
* `HasRoom`        those in the slots and the others below `FD_SETSIZE` are fewer than that;
* `fits_run_iff`   a run keeps to `Fits` exactly if it has room at every `Accept`.
-/

namespace Unp.Icmpd
open Finset Trans

variable {ipv6 : Bool} {e : Endian} {limit : Int} {others : Finset Int} {d d' : Daemon} {i : Nat}
  {s t : Loop} {ev : LoopEvent}

def Loop.fits (s : Loop) : Prop := ∀ fd ∈ s.w.d.allset, fd < FD_SETSIZE

def Fits (_ : Loop) (_ : LoopEvent) (t : Loop) : Prop := t.fits

/-- at an `Accept` that finds a free slot, not all numbers below `FD_SETSIZE` are in use -/
def HasRoom (others : Finset Int) (s : Loop) : LoopEvent → Prop
  | .listen _ => (∃ i, s.w.d.freeSlot = some i) →
      #(below FD_SETSIZE others) + #(usedSlots FD_SETSIZE s.w.d.conn) < FD_SETSIZE
  | _ => True

/-! ## what the handlers do to `allset` -/

theorem readableListen_allset (d : Daemon) (fd : Int) :
    (readableListen d fd).d.allset = if d.freeSlot.isSome then insert fd d.allset else d.allset := by
  unfold readableListen
  cases d.freeSlot <;> rfl

theorem readableConn_allset (ipv6 : Bool) (d : Daemon) (i : Nat) (m : RecvMsg Sock) :
    (readableConn ipv6 d i m).d.allset ⊆ d.allset := by
  have hout := readableConn_outcome ipv6 d i m
  generalize readableConn ipv6 d i m = o at hout ⊢
  cases hout with
  | stopped stop err => exact Subset.refl _
  | bound p family port ret pass name zero wild => exact Subset.refl _
  | named p family port ret pass name nonzero => exact Subset.refl _
  | _ => exact erase_subset ..

theorem OwnSlot.used_sub (h : OwnSlot d i d') :
    usedSlots FD_SETSIZE d'.conn ⊆ usedSlots FD_SETSIZE d.conn := by
  intro x hx
  obtain ⟨h0, j, hj, rfl⟩ := mem_usedSlots.mp hx
  by_cases hji : j = i
  · subst hji
    rcases h.own with hsame | hfree
    · exact mem_usedSlots.mpr ⟨h0, j, hj, hsame.symm⟩
    · have hneg : d'.conn j = -1 := hfree
      omega
  · exact mem_usedSlots.mpr ⟨h0, j, hj, congrArg Client.connfd (h.other j hji).symm⟩

theorem used_listen (d : Daemon) (fd : Int) :
    usedSlots FD_SETSIZE (readableListen d fd).d.conn ⊆ insert fd (usedSlots FD_SETSIZE d.conn) := by
  intro x hx
  obtain ⟨h0, j, hj, rfl⟩ := mem_usedSlots.mp hx
  cases listen_outcome d fd with
  | full none stop client maxi acts =>
    have hsame : (readableListen d fd).d.conn j = d.conn j := congrArg Client.connfd (congrFun client j)
    rw [hsame] at h0 ⊢
    exact mem_insert_of_mem (slot_mem_used hj h0)
  | stored k some lt free stop client maxi acts =>
    unfold Daemon.conn at h0 ⊢
    by_cases hjk : j = k
    · rw [client, hjk, Function.update_self]
      exact mem_insert_self ..
    · rw [client, Function.update_of_ne hjk] at h0 ⊢
      exact mem_insert_of_mem (mem_usedSlots.mpr ⟨h0, j, hj, rfl⟩)

/-! ## the loop -/

/-- the descriptors in the slots are not among the `others` -/
structure Others (others : Finset Int) (s : Loop) : Prop where
  kept : s.Kept others
  apart : Disjoint others (usedSlots FD_SETSIZE s.w.d.conn)

theorem others_start (h : Empty d others) : Others others (Loop.start d) := by
  refine ⟨h.kept, ?_⟩
  have hused : usedSlots FD_SETSIZE d.conn = ∅ := usedSlots_eq_empty h.free
  show Disjoint others (usedSlots FD_SETSIZE d.conn)
  rw [hused]
  exact disjoint_empty_right _

theorem Others.step (h : Others others s)
    (hs : LoopStep ipv6 e (Lowest limit) (Unused limit) others s ev t) : Others others t := by
  have hkept : t.Kept others := h.kept.step (fun _ _ hl => hl.1) (fun _ _ hu => hu) hs
  refine ⟨hkept, ?_⟩
  cases hs with
  | listen connfd run pc isset accepts =>
    have hnot : connfd ∉ others := fun hc => accepts.1.2.2 (mem_union_left _ hc)
    apply Disjoint.mono_right (used_listen s.w.d connfd)
    rw [disjoint_insert_right]
    exact ⟨hnot, h.apart⟩
  | v4 buf n run pc isset =>
    have hsame := (readableV4_books e s.w.d buf n).1.conn
    show Disjoint others (usedSlots FD_SETSIZE (readableV4 e s.w.d buf n).d.conn)
    rw [hsame]
    exact h.apart
  | conn i m run pc le used isset passes =>
    exact h.apart.mono_right (readableConn_outcome ipv6 s.w.d i m).ownSlot.used_sub
  | _ => exact h.apart

/-- a step keeps to `Fits` exactly if it has room -/
theorem Others.fits_iff (h : Others others s) (hf : s.fits)
    (hs : LoopStep ipv6 e (Lowest limit) (Unused limit) others s ev t) :
    Fits s ev t ↔ HasRoom others s ev := by
  cases hs with
  | listen connfd run pc isset accepts =>
    have hfit : ∀ x ∈ usedSlots FD_SETSIZE s.w.d.conn, 0 ≤ x ∧ x < FD_SETSIZE := by
      intro x hx
      refine ⟨(mem_usedSlots.mp hx).1, hf x ?_⟩
      rw [h.kept.books.table.watches]
      exact mem_union_right _ hx
    have hopened : s.w.opened others = others ∪ usedSlots FD_SETSIZE s.w.d.conn := by
      unfold World.opened
      rw [h.kept.books.held]
    rw [hopened] at accepts
    have hlt := lowest_fits_iff accepts hfit h.apart
    show (∀ fd ∈ (readableListen s.w.d connfd).d.allset, fd < FD_SETSIZE) ↔
      ((∃ i, s.w.d.freeSlot = some i) → _)
    rw [readableListen_allset]
    cases hi : s.w.d.freeSlot with
    | none => exact ⟨(fun _ hc => by obtain ⟨_, hc⟩ := hc; cases hc), fun _ => hf⟩
    | some i =>
      rw [Option.isSome_some, if_pos rfl, insert_lt_iff hf, hlt]
      exact ⟨fun hroom _ => hroom, fun hroom => hroom ⟨i, rfl⟩⟩
  | v4 buf n run pc isset =>
    refine ⟨fun _ => trivial, fun _ => ?_⟩
    show ∀ fd ∈ (readableV4 e s.w.d buf n).d.allset, fd < FD_SETSIZE
    rw [(readableV4_books e s.w.d buf n).1.allset]
    exact hf
  | conn i m run pc le used isset passes =>
    exact ⟨fun _ => trivial, fun _ fd hfd => hf fd (readableConn_allset ipv6 s.w.d i m hfd)⟩
  | _ => exact ⟨fun _ => trivial, fun _ => hf⟩

/-- **When the test for a free slot is enough.**  `Socket` and `Accept` return the lowest number
that is not in use.  Every descriptor passed to `FD_SET` is below `FD_SETSIZE` exactly if there were
two such numbers for the sockets, and at every `Accept` that finds a free slot the descriptors in
the slots and the others below `FD_SETSIZE` are fewer than `FD_SETSIZE`. -/
theorem fits_run_iff {inherited : Finset Int} (hfd4 : Lowest limit inherited d.fd4)
    (hlisten : Lowest limit (insert d.fd4 inherited) d.listenfd)
    (h0 : Empty d (insert d.listenfd (insert d.fd4 inherited))) (es : List LoopEvent) (s : Loop) :
    ((Loop.start d).fits ∧
        Run (Obey Fits (LoopStep ipv6 e (Lowest limit) (Unused limit)
          (insert d.listenfd (insert d.fd4 inherited)))) (Loop.start d) es s) ↔
      (#(below FD_SETSIZE inherited) + 1 < FD_SETSIZE ∧
        Run (When (HasRoom (insert d.listenfd (insert d.fd4 inherited)))
          (LoopStep ipv6 e (Lowest limit) (Unused limit)
            (insert d.listenfd (insert d.fd4 inherited)))) (Loop.start d) es s) := by
  have hstart : (Loop.start d).fits ↔ #(below FD_SETSIZE inherited) + 1 < FD_SETSIZE := by
    have hall : (Loop.start d).fits ↔ d.fd4 < FD_SETSIZE ∧ d.listenfd < FD_SETSIZE := by
      show (∀ fd ∈ d.allset, fd < FD_SETSIZE) ↔ _
      rw [h0.allset]
      simp only [mem_insert, mem_singleton, forall_eq_or_imp, forall_eq]
    have hnew : d.fd4 ∉ inherited := hfd4.1.2.2
    rw [hall, lowest_lt_iff hlisten]
    constructor
    · rintro ⟨h4, hcount⟩
      rw [card_below_insert hnew hfd4.1.1 h4] at hcount
      exact hcount
    · intro hcount
      have h4 : d.fd4 < FD_SETSIZE := (lowest_lt_iff hfd4).mpr (by omega)
      rw [card_below_insert hnew hfd4.1.1 h4]
      exact ⟨h4, hcount⟩
  rw [← hstart]
  apply and_congr_right
  intro hf
  apply Run.obey_iff_when (fun s => Others (insert d.listenfd (insert d.fd4 inherited)) s ∧ s.fits)
  · exact ⟨others_start h0, hf⟩
  · intro t ev u hinv hs
    exact hinv.1.fits_iff hinv.2 hs
  · intro t ev u hinv hs
    exact ⟨hinv.1.step hs.2, (hinv.1.fits_iff hinv.2 hs.2).mpr hs.1⟩

end Unp.Icmpd
