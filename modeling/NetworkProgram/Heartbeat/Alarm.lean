import NetworkProgram.Heartbeat.Impl
import NetworkProgram.Lib.Run

/-!
# When the server gives its client up

While the client's timer is on, the server never counts more than one alarm (`Inv.probes`).  The
client turns it off at the end of its input, and from there on the server's count only rises.

* `Served`                  the server has not given up a client that waits for its echo;
* `Inv.step`                only an alarm of the server can break it;
* `served_throughout_iff`   the runs in which it holds;
* `timely_iff_alarms`       their condition, by the alarms since the last probe.
-/

namespace Unp.Heartbeat
open Trans

/-- what the client has written and the server has not written back -/
def State.owed (s : State) : List UInt8 := s.toServer ++ s.server.rest

/-- `sig_alrm` has not ended the server while the client waits in `str_cli` for its echo -/
def Served (s : State) : Prop :=
  s.server.gaveUp = true → s.client.gone = false → s.owed = []

/-- an alarm of the server behind the client's half-close, with something left to echo, comes before
`maxnalarms` others have come since the last probe -/
def Timely (s : State) (e : Event) : Prop :=
  e = .serverAlarm → s.stdineof = true → s.client.gone = false → s.owed ≠ [] →
    s.beat.serverProbes < maxnalarms

/-- the client is on its way to write to the socket -/
def Client.upstream : Client → Bool
  | .readline _ fp => fp
  | .fgets => true
  | .writen _ => true
  | _ => false

/-- the client's timer and the server's count -/
structure Beating (b : Beat) : Prop where
  first : b.fired = none → b.serverProbes = 0
  fired : b.fired = some true → 0 < b.oobToServer ∨ b.serverProbes = 0

structure Inv (s : State) : Prop where
  beating : Beating s.beat
  alarm : s.client.gone = false → s.stdineof = false → s.beat.alarm = true
  probes : s.client.gone = false → s.stdineof = false →
    s.beat.serverProbes ≤ 1 ∧ s.server.gaveUp = false
  upstream : s.client.upstream = true → s.stdineof = false
  served : Served s

variable {inp : List UInt8} {mem : Nat → UInt8} {s t : State} {e : Event}

theorem maxnalarms_eq : maxnalarms = 5 := rfl

theorem inv_start : Inv (start inp mem) where
  beating := ⟨fun _ => rfl, (fun h => by cases h)⟩
  alarm _ _ := rfl
  probes _ _ := ⟨Int.zero_le_ofNat 1, rfl⟩
  upstream h := by cases h
  served h := by cases h

/-! ## str_cli -/

/-- the client goes on, or leaves `str_cli` -/
structure Onward (s t : State) : Prop where
  beat : t.beat = s.beat
  server : t.server = s.server
  toServer : t.toServer = s.toServer
  stdineof : t.stdineof = s.stdineof
  gone : t.client.gone = false → s.client.gone = false
  upstream : t.client.upstream = true → s.stdineof = false

/-- `fp` is reported only while it is watched -/
theorem Inv.upstream_fp (h : Inv s) {l : Loop UInt8} {fp : Bool} (pc : s.client = .readline l fp)
    (hfp : fp = true) : s.stdineof = false := h.upstream (by rw [pc]; exact hfp)

theorem Inv.onward (h : Inv s) (ho : Onward s t) : Inv t where
  beating := ho.beat ▸ h.beating
  alarm hrun heof := by
    rw [ho.beat]
    exact h.alarm (ho.gone hrun) (ho.stdineof ▸ heof)
  probes hrun heof := by
    rw [ho.beat, ho.server]
    exact h.probes (ho.gone hrun) (ho.stdineof ▸ heof)
  upstream hup := by
    rw [ho.stdineof]
    exact ho.upstream hup
  served hserv hrun := by
    unfold State.owed
    rw [ho.toServer, ho.server]
    exact h.served (ho.server ▸ hserv) (ho.gone hrun)

theorem onward_returned (fp : Bool) (line : Line UInt8) (hrun : s.client.gone = false)
    (hfp : fp = true → s.stdineof = false) : Onward s (s.returned fp line) := by
  unfold State.returned
  split
  · exact ⟨rfl, rfl, rfl, rfl, (fun h => by cases h), (fun h => by cases h)⟩
  · split
    · split
      · exact ⟨rfl, rfl, rfl, rfl, (fun h => by cases h), (fun h => by cases h)⟩
      · exact ⟨rfl, rfl, rfl, rfl, (fun h => by cases h), (fun h => by cases h)⟩
    · refine ⟨rfl, rfl, rfl, rfl, fun _ => hrun, fun h => ?_⟩
      cases fp with
      | true => exact hfp rfl
      | false => cases h

theorem onward_turn {l : Loop UInt8} {fp : Bool} {feed : Feed UInt8}
    (hrun : s.client.gone = false) (hfp : fp = true → s.stdineof = false) :
    Onward s (s.turn l fp feed) := by
  unfold State.turn
  dsimp only
  cases l.turn isNl (myRead s.st feed).rc with
  | inl l' => exact ⟨rfl, rfl, rfl, rfl, fun _ => hrun, hfp⟩
  | inr line =>
    have ho := onward_returned (s := { s with st := (myRead s.st feed).st }) fp line hrun hfp
    exact ⟨ho.beat, ho.server, ho.toServer, ho.stdineof, ho.gone, ho.upstream⟩

/-- a server that has not given up serves everybody -/
theorem served_of (h : s.server.gaveUp = false) : Served s := fun hc => by
  rw [h] at hc
  cases hc

theorem Inv.fgets (h : Inv s) (pc : s.client = .fgets) : Inv s.fgets := by
  have hrun : s.client.gone = false := by rw [pc]; rfl
  have hopen : s.stdineof = false := h.upstream (by rw [pc]; rfl)
  unfold State.fgets
  cases Unp.fgets MAXLINE s.fp with
  | none =>
    exact
      { beating := ⟨h.beating.first, h.beating.fired⟩
        alarm := fun _ heof => by cases heof
        probes := fun _ heof => by cases heof
        upstream := fun hup => by cases hup
        served := served_of (h.probes hrun hopen).2 }
  | some r => exact h.onward ⟨rfl, rfl, rfl, rfl, fun _ => hrun, fun _ => hopen⟩

/-- bytes move to the server, which is there to take them -/
theorem Inv.write (h : Inv s) {bs rest : List UInt8} (pc : s.client = .writen (bs ++ rest)) :
    Inv { s with client := .write rest, toServer := s.toServer ++ bs } := by
  have hrun : s.client.gone = false := by rw [pc]; rfl
  have hopen : s.stdineof = false := h.upstream (by rw [pc]; rfl)
  exact
    { beating := h.beating
      alarm := fun _ => h.alarm hrun
      probes := fun _ => h.probes hrun
      upstream := fun _ => hopen
      served := served_of (h.probes hrun hopen).2 }

/-! ## str_echo -/

theorem Server.gaveUp_of_gone {r : Server} (h : r.gone = false) : r.gaveUp = false := by
  cases r with
  | read => rfl
  | writen rest => rfl
  | ret => rfl
  | noProbes rest => cases h

theorem Server.write_gaveUp (rest : List UInt8) : (Server.write rest).gaveUp = false := by
  unfold Server.write
  split <;> rfl

/-- the server moves on, or returns -/
theorem Inv.echo (h : Inv s) {server : Server} {toServer toClient : List UInt8}
    (hne : server.gaveUp = false) :
    Inv { s with server := server, toServer := toServer, toClient := toClient } where
  beating := h.beating
  alarm := h.alarm
  probes hcl heof := ⟨(h.probes hcl heof).1, hne⟩
  upstream := h.upstream
  served := served_of hne

/-! ## the signals -/

theorem Inv.clientAlarm (h : Inv s) : Inv s.clientAlarm := by
  unfold State.clientAlarm
  dsimp only
  split
  · exact
      { beating := ⟨h.beating.first, h.beating.fired⟩
        alarm := fun hc => by cases hc
        probes := fun hc => by cases hc
        upstream := fun hc => by cases hc
        served := fun _ hc => by cases hc }
  · exact
      { beating :=
          { first := fun hnone => h.beating.first (Option.map_eq_none_iff.mp hnone)
            fired := fun _ => Or.inl (Nat.succ_pos _) }
        alarm := h.alarm
        probes := h.probes
        upstream := h.upstream
        served := h.served }

theorem Inv.clientUrg (h : Inv s) : Inv s.clientUrg :=
  ⟨⟨h.beating.first, h.beating.fired⟩, h.alarm, h.probes, h.upstream, h.served⟩

theorem Inv.serverUrg (h : Inv s) : Inv s.serverUrg where
  beating := ⟨fun _ => rfl, fun _ => Or.inr rfl⟩
  alarm := h.alarm
  probes hcl heof := ⟨Int.zero_le_ofNat 1, (h.probes hcl heof).2⟩
  upstream := h.upstream
  served := h.served

/-- with the client's timer on, a probe has been handled since the last alarm -/
theorem Inv.no_alarms (h : Inv s) (hcl : s.client.gone = false) (heof : s.stdineof = false)
    (handled : s.beat.oobToServer = 0)
    (fires : s.client.gone = false → s.beat.alarm = true → s.beat.fired ≠ some false) :
    s.beat.serverProbes = 0 := by
  have hne := fires hcl (h.alarm hcl heof)
  cases hf : s.beat.fired with
  | none => exact h.beating.first hf
  | some b =>
    cases b with
    | false => exact absurd hf hne
    | true => exact (h.beating.fired hf).resolve_left (by omega)

/-- the server's alarm leaves what it owes -/
theorem serverAlarm_owed : s.serverAlarm.owed = s.owed := by
  unfold State.serverAlarm
  dsimp only
  split <;> rfl

theorem serverAlarm_gaveUp (hrun : s.server.gone = false) :
    s.serverAlarm.server.gaveUp = true ↔ maxnalarms ≤ s.beat.serverProbes := by
  unfold State.serverAlarm
  dsimp only
  split
  · exact iff_of_true rfl (by omega)
  · rw [Server.gaveUp_of_gone hrun]
    exact iff_of_false Bool.false_ne_true (by omega)

/-- an alarm that does not leave a waiting client -/
theorem Inv.serverAlarm (h : Inv s) (hrun : s.server.gone = false)
    (handled : s.beat.oobToServer = 0)
    (fires : s.client.gone = false → s.beat.alarm = true → s.beat.fired ≠ some false)
    (hserved : Served s.serverAlarm) : Inv s.serverAlarm := by
  have hmax := maxnalarms_eq
  unfold State.serverAlarm at hserved ⊢
  dsimp only at hserved ⊢
  split
  · rename_i hgive
    rw [if_pos hgive] at hserved
    exact
      { beating :=
          { first := fun hnone => absurd (h.beating.first hnone) (by omega)
            fired := fun hfired => Or.inl ((h.beating.fired hfired).resolve_right (by omega)) }
        alarm := h.alarm
        probes := fun hcl heof => absurd (h.no_alarms hcl heof handled fires) (by omega)
        upstream := h.upstream
        served := hserved }
  · exact
      { beating := ⟨(fun hc => by cases hc), (fun hc => by cases hc)⟩
        alarm := h.alarm
        probes := fun hcl heof => by
          have hzero := h.no_alarms hcl heof handled fires
          exact ⟨by dsimp only; omega, Server.gaveUp_of_gone hrun⟩
        upstream := h.upstream
        served := served_of (Server.gaveUp_of_gone hrun) }

/-- when the server's alarm does not leave a waiting client -/
theorem Inv.served_alarm (h : Inv s) (hrun : s.server.gone = false)
    (handled : s.beat.oobToServer = 0)
    (fires : s.client.gone = false → s.beat.alarm = true → s.beat.fired ≠ some false) :
    Served s.serverAlarm ↔ Timely s .serverAlarm := by
  have hmax := maxnalarms_eq
  have hclient : s.serverAlarm.client = s.client := by
    unfold State.serverAlarm
    dsimp only
    split <;> rfl
  unfold Served
  rw [serverAlarm_gaveUp hrun, serverAlarm_owed, hclient]
  constructor
  · intro hserved _ _ hcl howed
    by_contra hge
    exact howed (hserved (by omega) hcl)
  · intro htime hge hcl
    by_contra howed
    rcases Bool.eq_false_or_eq_true s.stdineof with heof | heof
    · have hlt := htime rfl heof hcl howed
      omega
    · have hzero := h.no_alarms hcl heof handled fires
      omega

/-! ## the steps -/

/-- **Only an alarm of the server can leave a waiting client.** -/
theorem Inv.step (h : Inv s) (hs : Step s e t) (hserved : e = .serverAlarm → Served t) : Inv t := by
  cases hs with
  | selectSock fp pc sock open_ =>
    exact h.onward ⟨rfl, rfl, rfl, rfl, fun _ => by rw [pc]; rfl, open_⟩
  | selectFp pc open_ => exact h.onward ⟨rfl, rfl, rfl, rfl, fun _ => by rw [pc]; rfl, fun _ => open_⟩
  | fgets pc => exact h.fgets pc
  | write bs rest pc some => exact h.write pc
  | fetch l fp pc room some => exact h.onward (onward_turn (by rw [pc]; rfl) (h.upstream_fp pc))
  | recv l fp bs rest pc room none chan pos le =>
    have hmove : Inv { s with toClient := rest } := ⟨h.beating, h.alarm, h.probes, h.upstream, h.served⟩
    exact hmove.onward (onward_turn (show s.client.gone = false by rw [pc]; rfl) (h.upstream_fp pc))
  | eof l fp pc room none chan closed =>
    exact h.onward (onward_turn (by rw [pc]; rfl) (h.upstream_fp pc))
  | intr l fp pc room none => exact h.onward (onward_turn (by rw [pc]; rfl) (h.upstream_fp pc))
  | full l fp pc room => exact h.onward (onward_returned fp l.full (by rw [pc]; rfl) (h.upstream_fp pc))
  | echoRead bs rest pc chan pos le => exact h.echo rfl
  | echoEof pc chan closed => exact h.echo rfl
  | echoWrite bs rest pc some => exact h.echo (Server.write_gaveUp rest)
  | clientAlarm run on handled => exact h.clientAlarm
  | clientUrg run some => exact h.clientUrg
  | serverAlarm run handled fires => exact h.serverAlarm run handled fires (hserved rfl)
  | serverUrg run some => exact h.serverUrg

theorem Step.served_iff (h : Inv s) (hs : Step s e t) : Served t ↔ Timely s e := by
  by_cases he : e = .serverAlarm
  · subst he
    cases hs with
    | serverAlarm run handled fires => exact h.served_alarm run handled fires
  · exact iff_of_true (h.step hs (fun hc => absurd hc he)).served (fun hc => absurd hc he)

/-- **Which runs serve the client to the end.**  In every state of a run the server has not given up
a client that waits for its echo exactly when, behind the client's half-close, no alarm of the
server comes after `maxnalarms` others since the last probe while there is something to echo. -/
theorem served_throughout_iff (inp : List UInt8) (mem : Nat → UInt8) (es : List Event) (t : State) :
    Run (Obey (fun _ _ => Served) Step) (start inp mem) es t ↔
      Run (When Timely Step) (start inp mem) es t :=
  Run.obey_iff_when Inv inv_start (fun _ _ _ h hs => hs.served_iff h)
    (fun _ _ _ h hs => h.step hs.2 (fun _ => (hs.2.served_iff h).mpr hs.1))

/-! ## the server's count -/

def Event.isServerAlarm : Event → Bool
  | .serverAlarm => true
  | _ => false

theorem State.returned_beat (fp : Bool) (line : Line UInt8) :
    (s.returned fp line).beat = s.beat := by
  unfold State.returned
  split
  · rfl
  · split
    · split <;> rfl
    · rfl

theorem State.turn_beat (l : Loop UInt8) (fp : Bool) (feed : Feed UInt8) :
    (s.turn l fp feed).beat = s.beat := by
  unfold State.turn
  dsimp only
  split
  · rfl
  · exact State.returned_beat fp _

theorem State.fgets_probes : s.fgets.beat.serverProbes = s.beat.serverProbes := by
  unfold State.fgets
  split <;> rfl

theorem clientAlarm_probes : s.clientAlarm.beat.serverProbes = s.beat.serverProbes := by
  unfold State.clientAlarm
  dsimp only
  split <;> rfl

theorem serverAlarm_probes : s.serverAlarm.beat.serverProbes = s.beat.serverProbes + 1 := by
  unfold State.serverAlarm
  dsimp only
  split <;> rfl

/-- an alarm counts one, and only `sig_urg` sets the count back -/
theorem Step.serverProbes (hs : Step s e t) (hurg : e ≠ .serverUrg) :
    t.beat.serverProbes =
      if e.isServerAlarm then s.beat.serverProbes + 1 else s.beat.serverProbes := by
  cases hs with
  | fgets pc => exact State.fgets_probes
  | fetch l fp pc room some => exact congrArg Beat.serverProbes (State.turn_beat l fp _)
  | recv l fp bs rest pc room none chan pos le =>
    exact congrArg Beat.serverProbes (State.turn_beat l fp _)
  | eof l fp pc room none chan closed => exact congrArg Beat.serverProbes (State.turn_beat l fp _)
  | intr l fp pc room none => exact congrArg Beat.serverProbes (State.turn_beat l fp _)
  | full l fp pc room => exact congrArg Beat.serverProbes (State.returned_beat fp _)
  | clientAlarm run on handled => exact clientAlarm_probes
  | serverAlarm run handled fires => exact serverAlarm_probes
  | serverUrg run some => exact absurd rfl hurg
  | _ => rfl

/-- behind a probe that it has handled, the server counts its alarms -/
theorem serverProbes_alarms {u : State} {es : List Event} (h0 : u.beat.serverProbes = 0)
    (h : Run Step u es s) (hurg : Event.serverUrg ∉ es) :
    s.beat.serverProbes = es.countP Event.isServerAlarm := by
  have hrun : s.beat.serverProbes = u.beat.serverProbes + es.countP Event.isServerAlarm := by
    refine h.countP_add (f := fun s => s.beat.serverProbes) (fun _ e _ hmem hs => ?_)
    exact hs.serverProbes (fun he => hurg (he ▸ hmem))
  rw [hrun, h0, Int.zero_add]

/-- **The condition by the alarms.**  With nothing handled since `u`, where the count was 0 (at the
start, or behind a `sig_urg`), an alarm is timely exactly when the client does not wait for an echo
behind its half-close, or fewer than `maxnalarms` alarms have come since. -/
theorem timely_iff_alarms {u : State} {es : List Event} (h0 : u.beat.serverProbes = 0)
    (h : Run Step u es s) (hurg : Event.serverUrg ∉ es) :
    Timely s .serverAlarm ↔ (s.stdineof = true → s.client.gone = false → s.owed ≠ [] →
      es.countP Event.isServerAlarm < maxnalarms) := by
  unfold Timely
  rw [serverProbes_alarms h0 h hurg]
  exact ⟨fun htime => htime rfl, fun hcount _ => hcount⟩

/-! ## a backlog -/

/-- with the client's timer off, the server's alarms follow each other -/
theorem Step.alarm_off (run : s.server.gone = false) (handled : s.beat.oobToServer = 0)
    (off : s.beat.alarm = false) : Step s .serverAlarm s.serverAlarm :=
  Step.serverAlarm run handled (fun _ hon => by rw [off] at hon; cases hon)

/-- the client has written `"a\n"` and closed its half, and six alarms come before the echo -/
theorem not_served : ¬ ∀ inp mem es t, Run Step (start inp mem) es t → Served t := by
  intro h
  have hclosed : Run Step (start [97, 10] (fun _ => 0)) _ _ :=
    ((((Run.single (Step.selectFp rfl rfl)).snoc (Step.fgets rfl)).snoc
      (Step.write [97, 10] [] rfl (by decide))).snoc (Step.selectFp rfl rfl)).snoc (Step.fgets rfl)
  have hthree := ((hclosed.snoc (Step.alarm_off rfl rfl rfl)).snoc
    (Step.alarm_off rfl rfl rfl)).snoc (Step.alarm_off rfl rfl rfl)
  have hsix := ((hthree.snoc (Step.alarm_off rfl rfl rfl)).snoc
    (Step.alarm_off rfl rfl rfl)).snoc (Step.alarm_off rfl rfl rfl)
  exact absurd (h _ _ _ _ hsix rfl rfl) (by decide)

end Unp.Heartbeat
