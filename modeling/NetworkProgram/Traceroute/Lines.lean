import NetworkProgram.Lib.Stutter
import NetworkProgram.SockAddr.Text
import NetworkProgram.Traceroute.Rounds

/-!
# The lines of traceroute

* `shown`            the line of a hop, from its calls;
* `icmpcodeV4_inj`   the text of a code is that of no other;
* `Lined.step`       what a step keeps;
* `lines_show`       the lines of a run.
-/

namespace Unp.Traceroute.Loop

open Trans
open SockAddr (Sockaddr sockCmpAddr)

/-! ## what is to be shown -/

/-- `sock_cmp_addr` tells the new address `sa` from the `last` one -/
def Differs (last sa : Sockaddr) : Prop := sockCmpAddr sa last ≠ 0

instance : DecidableRel Differs := fun last sa => inferInstanceAs (Decidable (sockCmpAddr sa last ≠ 0))

def Item.sa : Item → Option Sockaddr
  | .host _ sa => some sa
  | .ttl _ => none
  | .timeout => none
  | .rtt => none
  | .icmp _ => none

/-- `recv_v4` has timed out -/
def Call.silent (c : Call) : Bool := c.code = -3

/-- the addresses of the answers -/
def answers (calls : List Call) : List Sockaddr :=
  (calls.filter (fun c => !c.silent)).map Call.sarecv

/-- a reply from `sa` behind `calls` is from another address than the last one, or is the first -/
def New (calls : List Call) (sa : Sockaddr) : Prop :=
  ∀ last ∈ (answers calls).getLast?, Differs last sa

instance (calls : List Call) (sa : Sockaddr) : Decidable (New calls sa) :=
  inferInstanceAs (Decidable (∀ last ∈ (answers calls).getLast?, Differs last sa))

/-- a star, or a time with an address that is new before it and the text of a code behind it -/
def added (calls : List Call) (c : Call) : List Item :=
  if c.silent then [.timeout]
  else
    (if New calls c.sarecv then [.host c.name c.sarecv] else []) ++ [.rtt] ++
      (if 0 ≤ c.code then [.icmp (icmpcodeV4 c.code)] else [])

/-- the line about the calls `calls` with the time to live `ttl` -/
def shown (ttl : Nat) (calls : List Call) : List Item :=
  .ttl ttl :: calls.zipIdx.flatMap fun x => added (calls.take x.2) x.1

/-- the calls of the `m`-th hop -/
def hop (log : List Call) (m : Nat) : List Call := (log.drop (nprobes * m)).take nprobes

/-- the calls of the hop that is being probed -/
def State.calls (s : State) : List Call := s.log.drop (nprobes * (s.ttl - 1))

structure Lined (s : State) : Prop where
  shows : s.pc.inLine = true → s.line = shown s.ttl s.calls
  salast : s.pc.inLine = true →
    s.salast = ((answers s.calls).destutter Differs).getLast?.getD .zero
  length : s.pc.inLine = true ∨ s.pc.atEnd = true → s.out.length = s.ttl - 1
  le : nprobes * s.out.length ≤ s.log.length
  lines : ∀ m line, s.out[m]? = some line → line = shown (m + 1) (hop s.log m)

variable {maxTtl : Nat} {pid : UInt32} {recvbuf : Int → UInt8} {s t : State} {e : Event}
  {es : List Event} {code : Int} {name : Option (List UInt8)} {ttl : Nat} {calls : List Call}
  {c : Call} {m : Nat} {last sa : Sockaddr} {addrs : List Sockaddr}

/-! ## the texts of the codes -/

theorem differs_zero (sa : Sockaddr) : Differs .zero sa := by
  cases sa <;> exact (by decide : (-1 : Int) ≠ 0)

/-- what does not differ from the last address differs from the same ones -/
theorem differs_congr (h : ¬ Differs last sa) (sa' : Sockaddr) :
    Differs last sa' ↔ Differs sa sa' := by
  have heq : sockCmpAddr sa last = 0 := not_not.mp h
  cases sa with
  | inet p x =>
    cases last with
    | inet q y =>
      obtain rfl := SockAddr.cmp_inet.mp heq
      cases sa' <;> exact Iff.rfl
    | unix Q => exact absurd heq (by decide : (-1 : Int) ≠ 0)
    | other family ne => exact absurd heq (by decide : (-1 : Int) ≠ 0)
  | unix P =>
    cases last with
    | inet q y => exact absurd heq (by decide : (-1 : Int) ≠ 0)
    | unix Q =>
      obtain rfl := SockAddr.cmp_unix.mp heq
      exact Iff.rfl
    | other family ne => exact absurd heq (by decide : (-1 : Int) ≠ 0)
  | other family ne => cases last <;> exact absurd heq (by decide : (-1 : Int) ≠ 0)

/-- an address is kept where it differs from the last one kept -/
theorem destutter_concat (hlast : last = (addrs.destutter Differs).getLast?.getD .zero)
    (sa : Sockaddr) : (addrs ++ [sa]).destutter Differs =
      if Differs last sa then addrs.destutter Differs ++ [sa] else addrs.destutter Differs := by
  cases hget : (addrs.destutter Differs).getLast? with
  | none =>
    obtain rfl : last = .zero := by rw [hlast, hget]; rfl
    rw [Stutter.destutter_first hget, if_pos (differs_zero _)]
  | some last' =>
    obtain rfl : last = last' := by rw [hlast, hget]; rfl
    exact Stutter.destutter_concat hget _

/-- an address differs from the last one kept exactly if it differs from the last one -/
theorem differs_iff (hlast : last = (addrs.destutter Differs).getLast?.getD .zero) :
    Differs last sa ↔ ∀ sa' ∈ addrs.getLast?, Differs sa' sa := by
  induction addrs using List.reverseRecOn generalizing last with
  | nil =>
    subst hlast
    exact iff_of_true (differs_zero sa) nofun
  | append_singleton addrs sa' ih =>
    have hone : (∀ sa'' ∈ (addrs ++ [sa']).getLast?, Differs sa'' sa) ↔ Differs sa' sa := by
      rw [List.getLast?_concat]
      simp
    rw [hone]
    rw [destutter_concat rfl] at hlast
    split at hlast
    · rw [List.getLast?_concat] at hlast
      rw [hlast]
      rfl
    · rename_i hsame
      rw [← hlast] at hsame
      exact differs_congr hsame sa

/-! ## one call -/

theorem answers_reply (hc : c.silent = false) :
    answers (calls ++ [c]) = answers calls ++ [c.sarecv] := by
  unfold answers
  rw [List.filter_append, List.map_append]
  simp [hc]

theorem answers_silent (hc : c.silent = true) : answers (calls ++ [c]) = answers calls := by
  unfold answers
  rw [List.filter_append]
  simp [hc]

/-- one call more -/
theorem shown_concat (ttl : Nat) (calls : List Call) (c : Call) :
    shown ttl (calls ++ [c]) = shown ttl calls ++ added calls c := by
  have hold : calls.zipIdx.flatMap (fun x => added ((calls ++ [c]).take x.2) x.1) =
      calls.zipIdx.flatMap (fun x => added (calls.take x.2) x.1) := by
    refine List.flatMap_congr fun x hx => ?_
    have hlt : x.2 < calls.length := by
      have hidx := List.mem_zipIdx hx
      omega
    rw [List.take_append_of_le_length hlt.le]
  unfold shown
  rw [List.zipIdx_append, List.flatMap_append, hold, List.zipIdx_singleton, List.flatMap_singleton]
  dsimp only
  rw [Nat.zero_add, List.take_left, List.cons_append]

theorem host_line (s : State) (name : Option (List UInt8)) :
    (s.host name).line =
        s.line ++ (if Differs s.salast s.sarecv then [.host name s.sarecv] else []) ∧
      (s.host name).salast = if Differs s.salast s.sarecv then s.sarecv else s.salast := by
  unfold State.host
  by_cases hd : sockCmpAddr s.sarecv s.salast ≠ 0
  · have hdiff : Differs s.salast s.sarecv := hd
    rw [if_pos hd, if_pos hdiff, if_pos hdiff]
    exact ⟨rfl, rfl⟩
  · have hdiff : ¬ Differs s.salast s.sarecv := hd
    rw [if_neg hd, if_neg hdiff, if_neg hdiff]
    exact ⟨(List.append_nil _).symm, rfl⟩

theorem verdict_line (s : State) (code : Int) :
    (s.verdict code).line = s.line ++ (if 0 ≤ code then [.icmp (icmpcodeV4 code)] else []) ∧
      (s.verdict code).salast = s.salast := by
  unfold State.verdict
  by_cases hc : code = -1
  · rw [if_pos hc, hc]
    exact ⟨(List.append_nil _).symm, rfl⟩
  · rw [if_neg hc]
    split
    · exact ⟨rfl, rfl⟩
    · exact ⟨(List.append_nil _).symm, rfl⟩

theorem print_silent (name : Option (List UInt8)) (h : code = -3) :
    s.print name code = { s with line := s.line ++ [.timeout] } := if_pos h

theorem print_line (name : Option (List UInt8)) (h : code ≠ -3) :
    (s.print name code).line =
        s.line ++ (if Differs s.salast s.sarecv then [.host name s.sarecv] else []) ++ [.rtt] ++
          (if 0 ≤ code then [.icmp (icmpcodeV4 code)] else []) ∧
      (s.print name code).salast = if Differs s.salast s.sarecv then s.sarecv else s.salast := by
  obtain ⟨hline, hlast⟩ := host_line s name
  have hv := verdict_line { s.host name with line := (s.host name).line ++ [.rtt] } code
  unfold State.print
  rw [if_neg h]
  dsimp only at hv ⊢
  rw [hv.1, hv.2, hline, hlast]
  exact ⟨rfl, rfl⟩

/-- **What a call prints** is what the line is to show of it. -/
theorem print_added (sent : Sent) (got : List Datagram) (code : Int) (name : Option (List UInt8))
    (hlast : s.salast = ((answers calls).destutter Differs).getLast?.getD .zero)
    (hline : s.line = shown ttl calls) :
    let c : Call := ⟨sent, got, code, s.sarecv, name⟩
    (s.print name code).line = shown ttl (calls ++ [c]) ∧
      (s.print name code).salast =
        ((answers (calls ++ [c])).destutter Differs).getLast?.getD .zero := by
  intro c
  rw [shown_concat, ← hline]
  by_cases hcode : code = -3
  · have hsilent : c.silent = true := decide_eq_true hcode
    rw [print_silent name hcode, answers_silent hsilent]
    unfold added
    rw [if_pos hsilent]
    exact ⟨rfl, hlast⟩
  · have hreply : c.silent = false := decide_eq_false hcode
    obtain ⟨hprint, hnext⟩ := print_line name hcode (s := s)
    have hnew : New calls c.sarecv ↔ Differs s.salast s.sarecv := (differs_iff hlast).symm
    rw [hprint, hnext, answers_reply hreply, destutter_concat hlast]
    unfold added
    rw [hreply, if_neg Bool.false_ne_true, if_congr hnew rfl rfl]
    refine ⟨by rw [List.append_assoc, List.append_assoc, List.append_assoc], ?_⟩
    by_cases hd : Differs s.salast s.sarecv
    · rw [if_pos hd, if_pos hd, List.getLast?_concat]
      rfl
    · rw [if_neg hd, if_neg hd]
      exact hlast

/-! ## the run -/

/-- nothing is printed, and the calls stay -/
theorem Lined.move (h : Lined s) (hlog : t.log = s.log) (hout : t.out = s.out)
    (hend : t.pc.inLine = false) (httl : t.pc.atEnd = true → s.out.length = t.ttl - 1) : Lined t := by
  refine ⟨fun hin => absurd hin (by rw [hend]; exact Bool.false_ne_true),
    fun hin => absurd hin (by rw [hend]; exact Bool.false_ne_true), ?_, ?_, ?_⟩
  · rintro (hin | hat)
    · exact absurd hin (by rw [hend]; exact Bool.false_ne_true)
    · rw [hout]
      exact httl hat
  · rw [hlog, hout]
    exact h.le
  · rw [hlog, hout]
    exact h.lines

theorem hop_concat (h : nprobes * (m + 1) ≤ s.log.length) :
    hop (s.log ++ [c]) m = hop s.log m := by
  unfold hop
  rw [List.drop_append_of_le_length (by rw [Nat.mul_succ] at h; omega),
    List.take_append_of_le_length]
  rw [List.length_drop]
  rw [Nat.mul_succ] at h
  omega

/-- the calls of the hop after one more -/
theorem calls_concat (h : nprobes * (s.ttl - 1) ≤ s.log.length) :
    (s.log ++ [c]).drop (nprobes * (s.ttl - 1)) = s.calls ++ [c] :=
  List.drop_append_of_le_length h

/-- **A call is shown on the line of its hop.** -/
theorem Lined.take {sent : Sent} {got : List Datagram} {call : Traceroute.State}
    (hi : Inv maxTtl pid s) (h : Lined s) (pc : s.pc = .recv sent got call) :
    Lined (s.take sent got call.recvbuf name code) := by
  have hin : s.pc.inLine = true := by rw [pc]; rfl
  obtain ⟨hpos, -, -, -, hlen, -⟩ := hi.inLine hin
  have hcalls : (s.take sent got call.recvbuf name code).calls =
      s.calls ++ [⟨sent, got, code, s.sarecv, name⟩] := by
    have httl : (s.take sent got call.recvbuf name code).ttl = s.ttl := print_ttl s name code
    unfold State.calls
    rw [httl]
    exact calls_concat (by omega)
  have hout : (s.take sent got call.recvbuf name code).out = s.out := print_out s name code
  have httl : (s.take sent got call.recvbuf name code).ttl = s.ttl := print_ttl s name code
  have hnext := print_added sent got code name (h.salast hin) (h.shows hin)
  refine ⟨fun _ => ?_, fun _ => ?_, fun _ => ?_, ?_, fun m line hm => ?_⟩
  · rw [hcalls, httl]
    exact hnext.1
  · rw [hcalls]
    exact hnext.2
  · rw [hout, httl]
    exact h.length (Or.inl hin)
  · rw [hout]
    show _ ≤ (s.log ++ [_]).length
    rw [List.length_append]
    exact Nat.le_add_right_of_le h.le
  · rw [hout] at hm
    have hlt : m + 1 ≤ s.out.length := (List.getElem?_eq_some_iff.mp hm).1
    show line = shown (m + 1) (hop (s.log ++ [_]) m)
    rw [hop_concat ((Nat.mul_le_mul_left nprobes hlt).trans h.le)]
    exact h.lines m line hm

/-- **The line of a hop is finished.** -/
theorem Lined.finish (hi : Inv maxTtl pid s) (h : Lined s) (pc : s.pc = .inner)
    (le : nprobes ≤ s.probe) :
    Lined { s with pc := .outer, ttl := s.ttl + 1, out := s.out ++ [s.line], line := [] } := by
  have hin : s.pc.inLine = true := by rw [pc]; rfl
  obtain ⟨hpos, -, -, hprobe, hlen, -⟩ := hi.inLine hin
  have hout := h.length (Or.inl hin)
  have hcalls : hop s.log (s.ttl - 1) = s.calls := by
    unfold hop
    rw [List.take_of_length_le (by rw [List.length_drop]; omega)]
    rfl
  refine ⟨nofun, nofun, fun _ => ?_, ?_, fun m line hm => ?_⟩
  · show (s.out ++ [s.line]).length = s.ttl + 1 - 1
    rw [List.length_append, hout]
    exact Nat.sub_add_cancel hpos
  · show nprobes * (s.out ++ [s.line]).length ≤ s.log.length
    rw [List.length_append, hout, hlen, List.length_singleton, Nat.mul_succ]
    omega
  · have hm' : (s.out ++ [s.line])[m]? = some line := hm
    rcases Nat.lt_or_ge m s.out.length with hlt | hge
    · rw [List.getElem?_append_left hlt] at hm'
      exact h.lines m line hm'
    · rw [List.getElem?_append_right hge, List.getElem?_singleton] at hm'
      split at hm'
      · rename_i hm0
        obtain rfl := Option.some.inj hm'
        obtain rfl : m = s.ttl - 1 := by omega
        rw [Nat.sub_add_cancel hpos]
        show s.line = shown s.ttl (hop s.log (s.ttl - 1))
        rw [hcalls]
        exact h.shows hin
      · cases hm'

theorem Lined.step (hi : Inv maxTtl pid s) (h : Lined s) (hs : Step maxTtl pid s e t) :
    Lined t := by
  cases hs with
  | setTtl pc goes le =>
    have hend : s.pc.atEnd = true := by rw [pc]; rfl
    have hcalls : s.calls = [] := List.drop_eq_nil_of_le (hi.atEnd hend).2.2.2.1.le
    have hnone : State.calls
        { s with pc := .inner, probe := 0, salast := .zero, line := [.ttl s.ttl] } = [] := hcalls
    refine ⟨fun _ => ?_, fun _ => ?_, fun _ => h.length (Or.inr hend), h.le, h.lines⟩
    · rw [hnone]
      rfl
    · rw [hnone]
      rfl
  | send l pc lt =>
    have hin : s.pc.inLine = true := by rw [pc]; rfl
    exact ⟨fun _ => h.shows hin, fun _ => h.salast hin, fun _ => h.length (Or.inl hin), h.le, h.lines⟩
  | recv e sa pc step =>
    have hin : s.pc.inLine = true := by rw [pc]; rfl
    exact ⟨fun _ => h.shows hin, fun _ => h.salast hin, fun _ => h.length (Or.inl hin), h.le, h.lines⟩
  | take name code pc ret => exact h.take hi pc
  | line pc le => exact h.finish hi pc le
  | finish pc stops =>
    exact h.move rfl rfl rfl (fun _ => h.length (Or.inr (by rw [pc]; rfl)))
  | fail msg pc => exact h.move rfl rfl rfl nofun

end Unp.Traceroute.Loop
