import NetworkProgram.Lib.Run
import NetworkProgram.StringEcho4.Impl

/-!
# The client table

`Kept`: the slots with `allset`, `maxi` and `maxfd` form a `SlotTable`, and all descriptors in it are
open.  The two branches of the loop change it as `SlotTable.store` and `SlotTable.free` do.
-/

namespace Unp.StringEcho4
open Finset Trans

variable {alloc : Finset Int → Int → Prop} {limit : Int} {s t : St} {e : Event}

/-! ## the table -/

structure Kept (s : St) : Prop where
  table : SlotTable FD_SETSIZE s.client s.maxi s.maxfd {s.listenfd} s.allset
  opened : s.allset ⊆ s.opened

theorem kept_start (inherited : Finset Int) (listenfd : Int) (buf : Nat → Sent) :
    Kept (start inherited listenfd buf) where
  table := by
    apply SlotTable.start (fun _ _ => Int.negSucc_lt_zero 0) (show (-1 : Int) < FD_SETSIZE by decide)
    intro x hx
    rw [mem_singleton.mp hx]
    exact Int.le_refl _
  opened := by
    intro x hx
    rw [mem_singleton.mp hx]
    exact mem_insert_self ..

theorem Kept.save (h : Kept s) {connfd : Int} {i : Nat} (h0 : 0 ≤ connfd)
    (hnew : connfd ∉ s.opened) (hi : firstFree s.client FD_SETSIZE 0 = some i) :
    Kept ((s.take connfd).save i connfd) := by
  obtain ⟨_, hlt, hfree⟩ := firstFree_some hi
  have hstore := h.table.store (by omega) hfree h0 (fun hc => hnew (h.opened hc))
  refine ⟨?_, insert_subset_insert connfd h.opened⟩
  have hmaxi : ((s.take connfd).save i connfd).maxi = max s.maxi i := by
    show (if (i : Int) > s.maxi then (i : Int) else s.maxi) = max s.maxi i
    split <;> omega
  have hmaxfd : ((s.take connfd).save i connfd).maxfd = max s.maxfd connfd := by
    show (if connfd > s.maxfd then connfd else s.maxfd) = max s.maxfd connfd
    split <;> omega
  rw [hmaxi, hmaxfd]
  exact hstore

theorem Kept.close (h : Kept s) {j : Nat} (hj : j < FD_SETSIZE) (hused : 0 ≤ s.client j) :
    Kept (s.close j (s.client j)) where
  table := h.table.free hj hused (Int.negSucc_lt_zero 0)
  opened := erase_subset_erase _ h.opened

/-- a slot up to `maxi` is one of the table -/
theorem Kept.lt (h : Kept s) {j : Nat} (hj : (j : Int) ≤ s.maxi) : j < FD_SETSIZE := by
  have htop := h.table.top_lt
  omega

theorem Kept.step (h : Kept s) (halloc : ∀ o fd, alloc o fd → Unused limit o fd)
    (hs : Step alloc s e t) : Kept t := by
  cases hs with
  | accept connfd pc waits number =>
    obtain ⟨h0, _, hnew⟩ := halloc _ _ number
    unfold St.accept
    dsimp only
    split
    · exact ⟨h.table, h.opened.trans (subset_insert ..)⟩
    · rename_i i hi
      have hsave := h.save h0 hnew hi
      exact ⟨hsave.table, hsave.opened⟩
  | read j id r pc le used isset owner answers =>
    cases r with
    | err e => exact answers.elim
    | eof =>
      have hclose := h.close (h.lt le) used
      exact ⟨hclose.table, hclose.opened⟩
    | data bs pos len => exact ⟨h.table, h.opened⟩
  | writen j sockfd n id ws w pc owner returns =>
    unfold St.writen
    dsimp only
    split <;> exact ⟨h.table, h.opened⟩
  | _ => exact ⟨h.table, h.opened⟩

end Unp.StringEcho4
