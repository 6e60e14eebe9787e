import Mathlib.Tactic.Linarith
import NetworkProgram.Traceroute.Loop

/-!
# The probes of a run

* `Inv.step`          what a step keeps;
* `Heard.step`        the calls of a run are runs of `recv_v4`;
* `probes_in_order`   what is sent, and when the loop ends;
* `attributed`        to which probe a datagram counts.
-/

namespace Unp.Traceroute.Loop

open Trans
open SockAddr (Sockaddr)

/-! ## what is to be shown -/

def Pc.sent : Pc → List Sent
  | .recv sent _ _ => [sent]
  | .outer => []
  | .inner => []
  | .returned => []
  | .stopped _ => []

/-- the probes on the wire whose calls have returned or wait -/
def State.sent (s : State) : List Sent := s.log.map Call.sent ++ s.pc.sent

/-- the datagram sent behind `k` others -/
def probeAt (pid : UInt32) (k : Nat) : Sent :=
  ⟨.ofNat (k + 1), .ofNat (k / nprobes + 1), (probeOf pid (k + 1)).port⟩

/-- the destination has answered -/
def Call.reached (c : Call) : Bool := c.code = -1

/-- `m` hops have been probed, and no more are -/
structure Ended (maxTtl : Nat) (log : List Call) (m : Nat) : Prop where
  length : log.length = nprobes * m
  le : m ≤ maxTtl
  before : ∀ c ∈ log.take (nprobes * (m - 1)), c.reached = false
  last : m = maxTtl ∨ ∃ c ∈ log.drop (nprobes * (m - 1)), c.reached = true

/-! ## the invariant -/

/-- the inner loop runs -/
def Pc.inLine : Pc → Bool
  | .inner => true
  | .recv _ _ _ => true
  | .outer => false
  | .returned => false
  | .stopped _ => false

/-- between two lines -/
def Pc.atEnd : Pc → Bool
  | .outer => true
  | .returned => true
  | .inner => false
  | .recv _ _ _ => false
  | .stopped _ => false

structure Inv (maxTtl : Nat) (pid : UInt32) (s : State) : Prop where
  sent : s.sent = (List.range s.sent.length).map (probeAt pid)
  length : s.sent.length ≤ nprobes * MAXTTL
  seq : s.pc.inLine = true ∨ s.pc.atEnd = true → s.seq = s.sent.length
  done : s.done = s.log.countP Call.reached
  inLine : s.pc.inLine = true → 1 ≤ s.ttl ∧ s.ttl ≤ maxTtl ∧ s.ttl ≤ MAXTTL ∧ s.probe ≤ nprobes ∧
    s.log.length = nprobes * (s.ttl - 1) + s.probe ∧
    ∀ c ∈ s.log.take (nprobes * (s.ttl - 1)), c.reached = false
  lt : s.pc.sent ≠ [] → s.probe < nprobes
  atEnd : s.pc.atEnd = true → 1 ≤ s.ttl ∧ s.ttl - 1 ≤ maxTtl ∧ s.ttl - 1 ≤ MAXTTL ∧
    s.log.length = nprobes * (s.ttl - 1) ∧
    ∀ c ∈ s.log.take (nprobes * (s.ttl - 1 - 1)), c.reached = false
  returned : s.pc = .returned → ¬ s.Goes maxTtl

variable {maxTtl : Nat} {pid : UInt32} {recvbuf : Int → UInt8} {s t : State} {e : Event}
  {es : List Event} {code : Int} {name : Option (List UInt8)}

theorem host_done (s : State) (name : Option (List UInt8)) : (s.host name).done = s.done := by
  unfold State.host
  split <;> rfl

theorem print_done (s : State) (name : Option (List UInt8)) (code : Int) :
    (s.print name code).done = s.done + if code = -1 then 1 else 0 := by
  unfold State.print State.verdict
  dsimp only
  split
  · rename_i hc
    rw [hc]
    rfl
  · split
    · exact congrArg (· + 1) (host_done s name)
    · split <;> exact host_done s name

theorem print_ttl (s : State) (name : Option (List UInt8)) (code : Int) :
    (s.print name code).ttl = s.ttl := by
  unfold State.print State.verdict State.host
  dsimp only
  split_ifs <;> rfl

theorem print_seq (s : State) (name : Option (List UInt8)) (code : Int) :
    (s.print name code).seq = s.seq := by
  unfold State.print State.verdict State.host
  dsimp only
  split_ifs <;> rfl

theorem print_out (s : State) (name : Option (List UInt8)) (code : Int) :
    (s.print name code).out = s.out := by
  unfold State.print State.verdict State.host
  dsimp only
  split_ifs <;> rfl

theorem inv_start (recvbuf : Int → UInt8) : Inv maxTtl pid (start recvbuf) where
  sent := rfl
  length := Nat.zero_le _
  seq _ := rfl
  done := rfl
  inLine := nofun
  lt h := absurd rfl h
  atEnd _ := ⟨Nat.le_refl 1, Nat.zero_le _, Nat.zero_le _, rfl, nofun⟩
  returned := nofun

theorem sent_of_nil (h : s.pc.sent = []) : s.sent = s.log.map Call.sent := by
  unfold State.sent
  rw [h, List.append_nil]

/-- the log and what waits stay -/
theorem sent_congr (hlog : t.log = s.log) (hpc : t.pc.sent = s.pc.sent) : t.sent = s.sent := by
  unfold State.sent
  rw [hlog, hpc]

/-- **The next probe.** -/
theorem Inv.send (h : Inv maxTtl pid s) (l : Locals) (pc : s.pc = .inner)
    (lt : s.probe < nprobes) : Inv maxTtl pid (s.send pid l) := by
  have hin : s.pc.inLine = true := by rw [pc]; rfl
  obtain ⟨hpos, hmax, hle, -, hlen, hbefore⟩ := h.inLine hin
  have hsent := sent_of_nil (s := s) (by rw [pc]; rfl)
  have hseq := h.seq (Or.inl hin)
  have hlength : s.sent.length = s.log.length := by rw [hsent, List.length_map]
  have hdiv : s.log.length / nprobes + 1 = s.ttl := by
    rw [hlen]
    unfold nprobes at lt ⊢
    omega
  have hprobe : probeAt pid s.sent.length =
      ⟨.ofNat (s.seq + 1), .ofNat s.ttl, (probeOf pid (s.seq + 1)).port⟩ := by
    unfold probeAt
    rw [hseq, hlength, hdiv]
  have hnew : (s.send pid l).sent = s.sent ++ [probeAt pid s.sent.length] := by
    rw [hprobe, hsent]
    rfl
  refine ⟨?_, ?_, fun _ => ?_, h.done, fun _ => ⟨hpos, hmax, hle, lt.le, hlen, hbefore⟩,
    fun _ => lt, nofun, nofun⟩
  · rw [hnew, List.length_append, List.length_singleton, List.range_succ, List.map_append, ← h.sent]
    rfl
  · rw [hnew, List.length_append, List.length_singleton, hlength, hlen]
    unfold nprobes MAXTTL at *
    omega
  · rw [hnew, List.length_append, List.length_singleton, ← hseq]
    rfl

/-- **A call that has returned.** -/
theorem Inv.take {sent : Sent} {got : List Datagram} {call : Traceroute.State}
    (h : Inv maxTtl pid s) (pc : s.pc = .recv sent got call) :
    Inv maxTtl pid (s.take sent got call.recvbuf name code) := by
  have hin : s.pc.inLine = true := by rw [pc]; rfl
  have hout : s.pc.sent = [sent] := by rw [pc]; rfl
  have hlt := h.lt (by rw [hout]; exact List.cons_ne_nil _ _)
  obtain ⟨hpos, hmax, hle, -, hlen, hbefore⟩ := h.inLine hin
  have hnew : (s.take sent got call.recvbuf name code).sent = s.sent := by
    unfold State.sent State.take
    rw [hout]
    simp [Pc.sent]
  have hlog : (s.take sent got call.recvbuf name code).log =
      s.log ++ [⟨sent, got, code, s.sarecv, name⟩] := rfl
  refine ⟨?_, ?_, fun _ => ?_, ?_, fun _ => ?_, fun hne => absurd rfl hne, nofun, nofun⟩
  · rw [hnew]
    exact h.sent
  · rw [hnew]
    exact h.length
  · rw [hnew, ← h.seq (Or.inl hin)]
    exact print_seq s name code
  · rw [hlog, List.countP_append, ← h.done]
    show (s.print name code).done = _
    rw [print_done]
    simp [Call.reached, List.countP_cons]
  · have httl : (s.take sent got call.recvbuf name code).ttl = s.ttl := print_ttl s name code
    rw [httl, hlog]
    refine ⟨hpos, hmax, hle, hlt, ?_, ?_⟩
    · rw [List.length_append, hlen]
      rfl
    · rw [List.take_append_of_le_length (by omega)]
      exact hbefore

theorem Inv.line (h : Inv maxTtl pid s) (pc : s.pc = .inner) (le : nprobes ≤ s.probe) :
    Inv maxTtl pid
      { s with pc := .outer, ttl := s.ttl + 1, out := s.out ++ [s.line], line := [] } := by
  have hin : s.pc.inLine = true := by rw [pc]; rfl
  obtain ⟨hpos, hmax, hle, hprobe, hlen, hbefore⟩ := h.inLine hin
  have hsent : State.sent
      { s with pc := .outer, ttl := s.ttl + 1, out := s.out ++ [s.line], line := [] } = s.sent :=
    sent_congr rfl (by rw [pc]; rfl)
  refine ⟨?_, ?_, fun _ => ?_, h.done, nofun, fun hne => absurd rfl hne, fun _ => ?_, nofun⟩
  · rw [hsent]
    exact h.sent
  · rw [hsent]
    exact h.length
  · rw [hsent]
    exact h.seq (Or.inl hin)
  · refine ⟨Nat.le_add_left 1 _, hmax, hle, ?_, ?_⟩
    · show s.log.length = nprobes * s.ttl
      unfold nprobes at *
      omega
    · exact hbefore

theorem Inv.step (h : Inv maxTtl pid s) (hs : Step maxTtl pid s e t) : Inv maxTtl pid t := by
  cases hs with
  | setTtl pc goes le =>
    have hend : s.pc.atEnd = true := by rw [pc]; rfl
    obtain ⟨hpos, hmax, hle, hlen, hbefore⟩ := h.atEnd hend
    have hsent : State.sent
        { s with pc := .inner, probe := 0, salast := .zero, line := [.ttl s.ttl] } = s.sent :=
      sent_congr rfl (by rw [pc]; rfl)
    -- `done` is still 0, so no call has reached the destination
    have hnone : ∀ c ∈ s.log, c.reached = false := fun c hc =>
      eq_false_of_ne_true (List.countP_eq_zero.mp (h.done.symm.trans goes.2) c hc)
    refine ⟨?_, ?_, fun _ => ?_, h.done, fun _ => ?_, fun hne => absurd rfl hne, nofun, nofun⟩
    · rw [hsent]
      exact h.sent
    · rw [hsent]
      exact h.length
    · rw [hsent]
      exact h.seq (Or.inr hend)
    · exact ⟨hpos, goes.1, le, Nat.zero_le _, hlen, fun c hc => hnone c (List.mem_of_mem_take hc)⟩
  | send l pc lt => exact h.send l pc lt
  | @recv e sa sent got call call' pc step =>
    have hin : s.pc.inLine = true := by rw [pc]; rfl
    have hsent : (s.recv sent got e sa call').sent = s.sent := sent_congr rfl (by rw [pc]; rfl)
    refine ⟨?_, ?_, fun _ => ?_, h.done, fun _ => h.inLine hin, fun _ => h.lt (by rw [pc]; nofun),
      nofun, nofun⟩
    · rw [hsent]
      exact h.sent
    · rw [hsent]
      exact h.length
    · rw [hsent]
      exact h.seq (Or.inl hin)
  | take name code pc ret => exact h.take pc
  | line pc le => exact h.line pc le
  | finish pc stops =>
    have hend : s.pc.atEnd = true := by rw [pc]; rfl
    have hsent : State.sent { s with pc := .returned } = s.sent := sent_congr rfl (by rw [pc]; rfl)
    refine ⟨?_, ?_, fun _ => ?_, h.done, nofun, fun hne => absurd rfl hne, fun _ => h.atEnd hend,
      fun _ => stops⟩
    · rw [hsent]
      exact h.sent
    · rw [hsent]
      exact h.length
    · rw [hsent]
      exact h.seq (Or.inr hend)
  | fail msg pc =>
    have hlog : State.sent { s with pc := .stopped (.errSys msg) } = s.log.map Call.sent :=
      List.append_nil _
    have hle : s.log.length ≤ s.sent.length := by
      unfold State.sent
      rw [List.length_append, List.length_map]
      exact Nat.le_add_right _ _
    refine ⟨?_, ?_, nofun, h.done, nofun, fun hne => absurd rfl hne, nofun, nofun⟩
    · have htake := congrArg (List.take s.log.length) h.sent
      rw [hlog, List.length_map]
      rw [← List.map_take, List.take_range, Nat.min_eq_left hle] at htake
      rw [← htake]
      unfold State.sent
      rw [List.take_left' (List.length_map _)]
    · rw [hlog, List.length_map]
      exact hle.trans h.length

theorem inv_run (h : Run (Step maxTtl pid) (start recvbuf) es s) : Inv maxTtl pid s :=
  h.inv (inv_start recvbuf) (fun _ _ _ hi hs => hi.step hs)

/-! ## the probes -/

theorem probe_ne (pid : UInt32) {j k : Nat} (hj : j < nprobes * MAXTTL) (hk : k < nprobes * MAXTTL) (hjk : j ≠ k) :
    ((probeOf pid (k + 1)).seq - ((j + 1 : Nat) : Int)) % 65536 ≠ 0 := by
  unfold nprobes MAXTTL at hj hk
  unfold probeOf
  dsimp only
  omega

theorem port_inj {j k : Nat} (hj : j < nprobes * MAXTTL) (hk : k < nprobes * MAXTTL)
    (h : (probeAt pid k).port = (probeAt pid j).port) : k = j := by
  by_contra hne
  exact port_ne (probe_ne pid hj hk (Ne.symm hne)) _ h

theorem Inv.nodup (h : Inv maxTtl pid s) : (s.sent.map Sent.port).Nodup := by
  have hle := h.length
  rw [h.sent, List.map_map]
  refine List.Nodup.map_on (fun k hk j hj heq => ?_) List.nodup_range
  rw [List.mem_range] at hk hj
  exact port_inj (lt_of_lt_of_le hj hle) (lt_of_lt_of_le hk hle) heq

theorem Inv.ended (h : Inv maxTtl pid s) (pc : s.pc = .returned) :
    Ended maxTtl s.log (s.ttl - 1) := by
  obtain ⟨hpos, hmax, -, hlen, hbefore⟩ := h.atEnd (by rw [pc]; rfl)
  refine ⟨hlen, hmax, hbefore, ?_⟩
  by_cases hlast : s.ttl - 1 = maxTtl
  · exact Or.inl hlast
  · -- the loop has ended for `done`, and the hops before the last have not set it
    have hdone : s.log.countP Call.reached ≠ 0 := by
      rw [← h.done]
      exact fun hz => h.returned pc ⟨by omega, hz⟩
    obtain ⟨c, hc, hreached⟩ := List.countP_pos_iff.mp (Nat.pos_of_ne_zero hdone)
    rw [← List.take_append_drop (nprobes * (s.ttl - 1 - 1)) s.log, List.mem_append] at hc
    rcases hc with hc | hc
    · exact absurd hreached (by rw [hbefore c hc]; exact Bool.false_ne_true)
    · exact Or.inr ⟨c, hc, hreached⟩

/-- **What traceroute sends.**  In every run the probes go out in the order of their numbers, three to
a hop, no two to one port, and when the loop returns all three of the last hop are done with: it is
the first at which a call has returned -1, or hop `maxTtl`. -/
theorem probes_in_order (h : Run (Step maxTtl pid) (start recvbuf) es s) :
    s.sent = (List.range s.sent.length).map (probeAt pid) ∧ (s.sent.map Sent.port).Nodup ∧
      (s.pc = .returned → ∃ m, Ended maxTtl s.log m) :=
  ⟨(inv_run h).sent, (inv_run h).nodup, fun pc => ⟨_, (inv_run h).ended pc⟩⟩

/-! ## the answers -/

/-- from something in `recvbuf` and in the variables `recv_v4` comes to `call`, with `got` received -/
def Called (p : Probe) (got : List Datagram) (call : Traceroute.State) : Prop :=
  ∃ buf l es, Run (Traceroute.Step p) (Traceroute.start buf l) es call ∧ datagrams es = got

structure Heard (pid : UInt32) (s : State) : Prop where
  log : ∀ k c, s.log[k]? = some c →
    ∃ call, Called (probeOf pid (k + 1)) c.got call ∧ call.pc = .returned c.code
  call : ∀ sent got call, s.pc = .recv sent got call → Called (probeOf pid s.seq) got call

theorem Called.step {p : Probe} {got : List Datagram} {call call' : Traceroute.State}
    {e : Traceroute.Event} (h : Called p got call) (hs : Traceroute.Step p call e call') :
    Called p (got ++ datagrams [e]) call' := by
  obtain ⟨buf, l, es, hr, rfl⟩ := h
  exact ⟨buf, l, _, hr.snoc hs, datagrams_append es e⟩

theorem Heard.step (hi : Inv maxTtl pid s) (h : Heard pid s) (hs : Step maxTtl pid s e t) :
    Heard pid t := by
  cases hs with
  | setTtl => exact ⟨h.log, nofun⟩
  | line => exact ⟨h.log, nofun⟩
  | finish => exact ⟨h.log, nofun⟩
  | fail => exact ⟨h.log, nofun⟩
  | send l pc lt =>
    refine ⟨h.log, ?_⟩
    rintro _ _ _ ⟨⟩
    exact ⟨s.recvbuf, l, [], Run.nil, rfl⟩
  | @recv e sa sent got call call' pc step =>
    refine ⟨h.log, ?_⟩
    rintro _ _ _ ⟨⟩
    exact (h.call _ _ _ pc).step step
  | @take name code sent got call pc ret =>
    refine ⟨fun k c hk => ?_, nofun⟩
    have hseq : s.seq = s.log.length + 1 := by
      rw [hi.seq (Or.inl (by rw [pc]; rfl))]
      unfold State.sent
      rw [pc, List.length_append, List.length_map]
      rfl
    have hlog : (s.log ++ [⟨sent, got, code, s.sarecv, name⟩])[k]? = some c := hk
    rcases Nat.lt_or_ge k s.log.length with hlt | hge
    · rw [List.getElem?_append_left hlt] at hlog
      exact h.log k c hlog
    · rw [List.getElem?_append_right hge, List.getElem?_singleton] at hlog
      split at hlog
      · rename_i hk0
        obtain rfl := Option.some.inj hlog
        have hcall := h.call _ _ _ pc
        rw [hseq] at hcall
        rw [show k = s.log.length by omega]
        exact ⟨call, hcall, ret⟩
      · cases hlog

/-- a run of `recv_v4` in a run of the loop -/
theorem recv_run {sent : Sent} {got : List Datagram} {call call' : Traceroute.State}
    {es' : List Traceroute.Event} (sa : Sockaddr) (pc : s.pc = .recv sent got call)
    (h : Run (Traceroute.Step (probeOf pid s.seq)) call es' call') :
    ∃ es, Run (Step maxTtl pid) s es
      { s with
        pc := .recv sent (got ++ datagrams es') call'
        sarecv := if datagrams es' = [] then s.sarecv else sa } := by
  induction h with
  | nil =>
    refine ⟨[], ?_⟩
    have hsame : { s with
        pc := .recv sent (got ++ datagrams []) call
        sarecv := if datagrams [] = [] then s.sarecv else sa } = s := by
      rw [show datagrams [] = [] from rfl, List.append_nil, if_pos rfl, ← pc]
    rw [hsame]
    exact Run.nil
  | @snoc es' u e v _ hs ih =>
    obtain ⟨es, hr⟩ := ih
    have hnext := hr.snoc (.recv e sa rfl hs)
    unfold State.recv at hnext
    dsimp only at hnext
    have hsa : (if datagrams [e] = [] then if datagrams es' = [] then s.sarecv else sa else sa) =
        if datagrams es' ++ datagrams [e] = [] then s.sarecv else sa := by
      by_cases he : datagrams [e] = []
      · rw [if_pos he, he, List.append_nil]
      · rw [if_neg he, if_neg (List.append_ne_nil_of_right_ne_nil _ he)]
    rw [hsa, List.append_assoc, ← datagrams_append] at hnext
    exact ⟨_, hnext⟩

/-- between `s` and `t` a call has returned -/
structure Next (s : State) (got : List Datagram) (code : Int) (sa : Sockaddr) (t : State) :
    Prop where
  pc : t.pc = .inner
  ttl : t.ttl = s.ttl
  probe : t.probe = s.probe + 1
  seq : t.seq = s.seq + 1
  done : t.done = s.done + if code = -1 then 1 else 0
  out : t.out = s.out
  sarecv : t.sarecv = if got = [] then s.sarecv else sa
  log : ∃ sent, t.log = s.log ++ [⟨sent, got, code, if got = [] then s.sarecv else sa, none⟩]

theorem print_sarecv (s : State) (name : Option (List UInt8)) (code : Int) :
    (s.print name code).sarecv = s.sarecv := by
  unfold State.print State.verdict State.host
  dsimp only
  split_ifs <;> rfl

theorem next_run {call : Traceroute.State} {es' : List Traceroute.Event} {l : Locals}
    (h : Run (Step maxTtl pid) (start recvbuf) es s) (pc : s.pc = .inner) (lt : s.probe < nprobes)
    (hcall : Run (Traceroute.Step (probeOf pid (s.seq + 1))) (Traceroute.start s.recvbuf l) es' call)
    (ret : call.pc = .returned code) (sa : Sockaddr) :
    ∃ es'' t, Run (Step maxTtl pid) (start recvbuf) es'' t ∧ Next s (datagrams es') code sa t := by
  have hsend := h.snoc (.send l pc lt)
  obtain ⟨es2, hr⟩ := recv_run sa rfl hcall (s := s.send pid l)
  have htake := (hsend.trans hr).snoc (.take none code rfl ret)
  refine ⟨_, _, htake, ?_⟩
  exact ⟨rfl, print_ttl _ _ _, rfl, print_seq _ _ _, print_done _ _ _, print_out _ _ _,
    print_sarecv _ _ _, _, rfl⟩

/-- a late message, then one that answers -/
theorem late_run {p : Probe} {a b : Datagram} {ret : Int} (ha : answer p a = none)
    (hb : answer p b = some ret) (hal : Aligned [a, b]) (buf : Int → UInt8) (l : Locals) :
    ∃ es' call, Run (Traceroute.Step p) (Traceroute.start buf l) es' call ∧
      datagrams es' = [a, b] ∧ call.pc = .returned ret := by
  have hfinds : Finds p [a, b] := fun _ _ _ _ hr hpre => (hal.placed.run hr hpre).1
  have hfirst : [a] <+: [a, b] := ⟨[b], rfl⟩
  obtain ⟨es, s, hr, hdgs, pc, quiet⟩ :=
    hfinds.reach hfirst (List.forall_mem_singleton.mpr ha) buf l
  have hnext : datagrams es ++ [b] <+: [a, b] := by
    rw [hdgs]
    exact List.prefix_refl _
  obtain ⟨es', s', hr', -, hdgs', -, hpc⟩ := hfinds.turn hr pc quiet hnext
  rw [hb] at hpc
  exact ⟨es', _, hr', by rw [hdgs', hdgs]; rfl, hpc⟩

/-- the alarm comes before the call looks at its socket -/
theorem silent_run (p : Probe) (buf : Int → UInt8) :
    ∃ call, Run (Traceroute.Step p) (Traceroute.start buf nowhere) [.alarm, .check] call ∧
      call.pc = .returned (-3) :=
  ⟨_, (Run.single (.alarm (Or.inl rfl))).snoc (.check rfl), rfl⟩

/-- the datagrams of the first call: a late message, then an unreachable one of code `code` -/
def hopGot (code : UInt8) : List Datagram := [quoting 11 0 154, quoting 3 code 155]

/-- the first hop, where the last two calls time out -/
theorem hop_run (code : UInt8) (ret : Int) (sa : Sockaddr)
    (hans : answer (probeOf 1 1) (quoting 3 code 155) = some ret) (hal : Aligned (hopGot code)) :
    ∃ es s s1 s2 s3, Run (Step 30 1) (start (fun _ => 0)) es s ∧ s.pc = .outer ∧ s.ttl = 2 ∧
      s.done = (if ret = -1 then 1 else 0) ∧ s.out.length = 1 ∧
      s.log = [⟨s1, hopGot code, ret, sa, none⟩, ⟨s2, [], -3, sa, none⟩, ⟨s3, [], -3, sa, none⟩] := by
  have h0 : Run (Step 30 1) (start (fun _ => 0)) [.setTtl]
      ⟨.inner, 1, 0, 0, 0, fun _ => 0, .zero, .zero, [], [], [.ttl 1]⟩ :=
    Run.single (.setTtl rfl ⟨by decide, rfl⟩ (by decide))
  have hlate : answer (probeOf 1 1) (quoting 11 0 154) = none := by decide +kernel
  obtain ⟨es1, _, hcall, hdgs, hret⟩ := late_run hlate hans hal (fun _ => 0) nowhere
  obtain ⟨_, t1, h1, n1⟩ := next_run h0 rfl (by decide) hcall hret sa
  rw [hdgs] at n1
  obtain ⟨_, hsilent, hret2⟩ := silent_run (probeOf 1 (t1.seq + 1)) t1.recvbuf
  obtain ⟨_, t2, h2, n2⟩ := next_run h1 n1.pc (by rw [n1.probe]; decide) hsilent hret2 sa
  obtain ⟨_, hsilent, hret3⟩ := silent_run (probeOf 1 (t2.seq + 1)) t2.recvbuf
  obtain ⟨_, t3, h3, n3⟩ := next_run h2 n2.pc (by rw [n2.probe, n1.probe]; decide) hsilent hret3 sa
  have hdone := h3.snoc (.line n3.pc (by rw [n3.probe, n2.probe, n1.probe]; decide))
  obtain ⟨s1, hlog1⟩ := n1.log
  obtain ⟨s2, hlog2⟩ := n2.log
  obtain ⟨s3, hlog3⟩ := n3.log
  refine ⟨_, _, s1, s2, s3, hdone, rfl, ?_, ?_, ?_, ?_⟩
  · show t3.ttl + 1 = 2
    rw [n3.ttl, n2.ttl, n1.ttl]
  · show t3.done = _
    rw [n3.done, n2.done, n1.done]
    exact Nat.zero_add _
  · show (t3.out ++ [t3.line]).length = 1
    rw [n3.out, n2.out, n1.out]
    rfl
  · show t3.log = _
    rw [hlog3, hlog2, hlog1, n2.sarecv, n1.sarecv]
    rfl

/-- the port is unreachable at the first hop, and the loop returns -/
theorem probes_in_order_hop : ∃ s : State, s.pc = .returned ∧ s.log.map Call.code = [-1, -3, -3] ∧
    s.sent = (List.range s.sent.length).map (probeAt 1) ∧ (s.sent.map Sent.port).Nodup ∧
    ∃ m, Ended 30 s.log m := by
  obtain ⟨_, s, _, _, _, h, pc, httl, hdone, -, hlog⟩ := hop_run 3 (-1) .zero (by decide +kernel)
    aligned_late
  have hstops : ¬ s.Goes 30 := fun hg => absurd (hdone.symm.trans hg.2) (by decide)
  obtain ⟨hsent, hnodup, hended⟩ := probes_in_order (h.snoc (.finish pc hstops))
  exact ⟨_, rfl, by rw [show State.log _ = s.log from rfl, hlog]; rfl, hsent, hnodup, hended rfl⟩

end Unp.Traceroute.Loop
