import NetworkProgram.Icmpd.FdSet
import NetworkProgram.StringEcho4.FdSet
import NetworkProgram.StringEcho4.Round

/-!
# Two servers with a table of `FD_SETSIZE` slots

The echo server with `select` and the ICMP daemon both test whether a slot is free, and both pass
the number of the descriptor to `FD_SET`.  The numbers in the slots begin after those that the
process holds otherwise, so the test comes too late by as many.
-/

namespace Unp
open Finset Trans

/-- **The slot test and the size of an `fd_set`.**  `Socket` and `Accept` return the lowest number
that is not in use, below any `limit`.  In a run of either server every descriptor passed to `FD_SET`
is below `FD_SETSIZE` exactly if the sockets found such numbers, and at every `Accept` that finds a
free slot the descriptors in the slots and the others below `FD_SETSIZE` are fewer than
`FD_SETSIZE`. -/
theorem fd_set_iff (limit : Int) (inherited : Finset Int) :
    (∀ (listenfd : Int) (buf : Nat → StringEcho4.Sent) (es : List StringEcho4.Event)
      (s : StringEcho4.St), Lowest limit inherited listenfd →
      ((StringEcho4.start inherited listenfd buf).fits ∧
          Run (Obey StringEcho4.Fits (StringEcho4.Step (Lowest limit)))
            (StringEcho4.start inherited listenfd buf) es s ↔
        #(below FD_SETSIZE inherited) < FD_SETSIZE ∧
          Run (When (StringEcho4.HasRoom (insert listenfd inherited))
            (StringEcho4.Step (Lowest limit))) (StringEcho4.start inherited listenfd buf) es s)) ∧
    (∀ (ipv6 : Bool) (e : Endian) (d : Icmpd.Daemon) (es : List Icmpd.LoopEvent) (s : Icmpd.Loop),
      Lowest limit inherited d.fd4 →
      Lowest limit (insert d.fd4 inherited) d.listenfd →
      Icmpd.Empty d (insert d.listenfd (insert d.fd4 inherited)) →
      ((Icmpd.Loop.start d).fits ∧
          Run (Obey Icmpd.Fits (Icmpd.LoopStep ipv6 e (Lowest limit) (Unused limit)
            (insert d.listenfd (insert d.fd4 inherited)))) (Icmpd.Loop.start d) es s ↔
        #(below Icmpd.FD_SETSIZE inherited) + 1 < Icmpd.FD_SETSIZE ∧
          Run (When (Icmpd.HasRoom (insert d.listenfd (insert d.fd4 inherited)))
            (Icmpd.LoopStep ipv6 e (Lowest limit) (Unused limit)
              (insert d.listenfd (insert d.fd4 inherited)))) (Icmpd.Loop.start d) es s)) := by
  constructor
  · intro listenfd buf es s hlisten
    exact StringEcho4.fits_run_iff hlisten es s
  · intro ipv6 e d es s hfd4 hlisten h0
    exact Icmpd.fits_run_iff hfd4 hlisten h0 es s

theorem lowest_three : Lowest 2048 {0, 1, 2} 3 := by
  refine ⟨⟨by decide, by decide, by decide⟩, ?_⟩
  intro k h0 hk
  simp only [mem_insert, mem_singleton]
  omega

theorem lowest_four : Lowest 2048 {3, 0, 1, 2} 4 := by
  refine ⟨⟨by decide, by decide, by decide⟩, ?_⟩
  intro k h0 hk
  simp only [mem_insert, mem_singleton]
  omega

/-- a first client of the echo server, and the daemon before its first -/
theorem fd_set_iff_first :
    (StringEcho4.start {0, 1, 2} 3 (fun _ => StringEcho4.nul)).fits ∧
    Run (Obey StringEcho4.Fits (StringEcho4.Step (Lowest 2048)))
      (StringEcho4.start {0, 1, 2} 3 (fun _ => StringEcho4.nul)) [.connect, .select, .accept 4]
      (StringEcho4.oneConnect.select.accept 4) ∧
    (Icmpd.Loop.start Icmpd.fresh34).fits := by
  have hcard : #(below FD_SETSIZE {0, 1, 2}) < FD_SETSIZE := by decide
  have hcard' : #(below FD_SETSIZE {3, 0, 1, 2}) + 0 < FD_SETSIZE := by decide
  have hconnect : Run (When (StringEcho4.HasRoom {3, 0, 1, 2}) (StringEcho4.Step (Lowest 2048)))
      (StringEcho4.start {0, 1, 2} 3 (fun _ => StringEcho4.nul)) [.connect] StringEcho4.oneConnect :=
    Run.single ⟨trivial, StringEcho4.Step.connect⟩
  have hselect := hconnect.snoc (e := StringEcho4.Event.select)
    ⟨trivial, StringEcho4.Step.select rfl ⟨3, by decide, rfl⟩⟩
  have hroom : StringEcho4.HasRoom {3, 0, 1, 2} StringEcho4.oneConnect.select (.accept 4) := by
    intro _
    have hused : usedSlots FD_SETSIZE StringEcho4.oneConnect.select.client = ∅ :=
      usedSlots_eq_empty (fun _ _ => Int.negSucc_lt_zero 0)
    rw [hused]
    exact hcard'
  have haccept := hselect.snoc ⟨hroom, StringEcho4.Step.accept 4 rfl (by decide) lowest_four⟩
  have hecho := ((fd_set_iff 2048 {0, 1, 2}).1 3 _ _ _ lowest_three).mpr ⟨hcard, haccept⟩
  have hempty : Icmpd.Empty Icmpd.fresh34 {4, 3, 0, 1, 2} :=
    ⟨Icmpd.empty_fresh34.free, rfl, rfl, rfl, by decide⟩
  have hdaemon := ((fd_set_iff 2048 {0, 1, 2}).2 true .little Icmpd.fresh34 [] _ lowest_three
    lowest_four hempty).mpr ⟨by decide, Run.nil⟩
  exact ⟨hecho.1, hecho.2, hdaemon.1⟩

end Unp
