import NetworkProgram.Icmpd.Impl

/-!
# The outcomes of `readable_conn`

`ConnOutcome` says once what a call of `readable_conn` can do, one constructor for each way through
it (`readableConn_outcome`), with the lemmas about the table that its users need.
-/

namespace Unp

variable {ω : Type}

/-- the message brings the descriptor `p` -/
def Passes (m : RecvMsg ω) (p : Passed ω) : Prop := wrapReadFd m none = .ok (m.ret, some p)

theorem Passes.unique {m : RecvMsg ω} {p p' : Passed ω} (h : Passes m p) (h' : Passes m p') :
    p = p' := by
  have heq := Except.ok.inj ((show wrapReadFd m none = _ from h).symm.trans h')
  exact Option.some.inj (congrArg Prod.snd heq)

/-- `Read_fd` fails, or returns what `recvmsg` returned, and a descriptor only with some data -/
theorem wrapReadFd_cases (m : RecvMsg ω) :
    (∃ stop, wrapReadFd m none = .error stop) ∨
    (m.ret = 0 ∧ wrapReadFd m none = .ok (0, none)) ∨
    (0 < m.ret ∧ ∃ r, wrapReadFd m none = .ok (m.ret, r)) := by
  rcases Int.lt_trichotomy m.ret 0 with hneg | h0 | hpos
  · refine Or.inl ⟨.errSys "read_fd error", ?_⟩
    unfold wrapReadFd readFd
    rw [if_pos (by omega)]
    exact if_pos hneg
  · refine Or.inr (Or.inl ⟨h0, ?_⟩)
    unfold wrapReadFd readFd
    rw [if_pos (by omega), h0]
    rfl
  · have hn : ¬ m.ret ≤ 0 := by omega
    have hn' : ¬ m.ret < 0 := by omega
    unfold wrapReadFd
    cases hr : readFd m none with
    | error stop => exact Or.inl ⟨stop, rfl⟩
    | ok nr =>
      obtain ⟨n, r⟩ := nr
      have hret : n = m.ret := by
        unfold readFd at hr
        rw [if_neg hn] at hr
        split at hr
        · split at hr
          · split at hr
            · exact absurd hr (by simp)
            · split at hr
              · exact absurd hr (by simp)
              · exact (congrArg Prod.fst (Except.ok.inj hr)).symm
          · exact (congrArg Prod.fst (Except.ok.inj hr)).symm
        · exact (congrArg Prod.fst (Except.ok.inj hr)).symm
      subst hret
      exact Or.inr (Or.inr ⟨hpos, r, if_neg hn'⟩)

end Unp

namespace Unp.Icmpd

variable {ipv6 : Bool} {d : Daemon} {i j : Nat} {m : RecvMsg Sock}

/-! ## the table -/

@[simp] theorem setClient_same (c : Client) : (d.setClient i c).client i = c :=
  Function.update_self ..

theorem setClient_other (c : Client) (h : j ≠ i) : (d.setClient i c).client j = d.client j :=
  Function.update_of_ne h _ _

@[simp] theorem setClient_setClient (c c' : Client) :
    (d.setClient i c).setClient i c' = d.setClient i c' := by
  unfold Daemon.setClient
  rw [Function.update_idem]

/-! ## the two exits -/

theorem clientdone_client (unixfd : Int) (r : Option (Passed Sock)) (acts : List Act) :
    (clientdone d i unixfd r acts).d.client =
      Function.update d.client i { d.client i with connfd := -1 } := rfl

theorem clientdone_acts (unixfd : Int) (r : Option (Passed Sock)) (acts : List Act) :
    (clientdone d i unixfd r acts).acts =
      acts ++ .close unixfd :: (r.map (fun p => Act.close p.fd)).toList := by
  cases r with
  | none => rfl
  | some p => exact List.append_assoc ..

theorem clienterr_acts (unixfd : Int) (r : Option (Passed Sock)) (acts : List Act) :
    (clienterr d i unixfd r acts).acts =
      acts ++ .write unixfd [one] :: .close unixfd :: (r.map (fun p => Act.close p.fd)).toList := by
  unfold clienterr
  rw [clientdone_acts, List.append_assoc]
  rfl

/-! ## the ways through -/

/-- the slot after its `family` and `lport` have been set -/
def Daemon.named (d : Daemon) (i : Nat) (family : Nat) (lport : Int) : Daemon :=
  d.setClient i ⟨(d.client i).connfd, family, lport⟩

inductive ConnOutcome (ipv6 : Bool) (d : Daemon) (i : Nat) (m : RecvMsg Sock) : Out → Prop where
  | stopped (stop : Stop) (err : wrapReadFd m none = .error stop) :
      ConnOutcome ipv6 d i m ⟨d, [], some stop⟩
  | closed (ret : m.ret = 0) (none : wrapReadFd m none = .ok (0, none)) :
      ConnOutcome ipv6 d i m (clientdone d i (d.client i).connfd .none [])
  | noFd (ret : 0 < m.ret) (none : wrapReadFd m none = .ok (m.ret, none)) :
      ConnOutcome ipv6 d i m (clienterr d i (d.client i).connfd .none [])
  | noName (p : Passed Sock) (errno : Errno) (ret : 0 < m.ret) (pass : Passes m p)
      (name : p.obj.name = .error errno) :
      ConnOutcome ipv6 d i m (clienterr d i (d.client i).connfd (some p) [.recvfd p.fd])
  | noPort (p : Passed Sock) (family : Nat) (port : UInt16) (ret : 0 < m.ret) (pass : Passes m p)
      (name : p.obj.name = .ok (family, port)) (zero : sockGetPort ipv6 family port = 0)
      (wild : sockBindWild ipv6 p.obj family ≤ 0) :
      ConnOutcome ipv6 d i m (clienterr (d.named i family (sockBindWild ipv6 p.obj family)) i
        (d.client i).connfd (some p) [.recvfd p.fd])
  | bound (p : Passed Sock) (family : Nat) (port : UInt16) (ret : 0 < m.ret) (pass : Passes m p)
      (name : p.obj.name = .ok (family, port)) (zero : sockGetPort ipv6 family port = 0)
      (wild : 0 < sockBindWild ipv6 p.obj family) :
      ConnOutcome ipv6 d i m (registered (d.named i family (sockBindWild ipv6 p.obj family))
        (d.client i).connfd p)
  | named (p : Passed Sock) (family : Nat) (port : UInt16) (ret : 0 < m.ret) (pass : Passes m p)
      (name : p.obj.name = .ok (family, port)) (nonzero : sockGetPort ipv6 family port ≠ 0) :
      ConnOutcome ipv6 d i m (registered (d.named i family (sockGetPort ipv6 family port))
        (d.client i).connfd p)

/-- what `readable_conn` does with a passed descriptor -/
theorem readableConn_passes {p : Passed Sock} (hret : 0 < m.ret) (hp : Passes m p) :
    readableConn ipv6 d i m =
      match p.obj.name with
      | .error _ => clienterr d i (d.client i).connfd (some p) [.recvfd p.fd]
      | .ok (family, port) =>
        if sockGetPort ipv6 family port = 0 then
          if sockBindWild ipv6 p.obj family ≤ 0 then
            clienterr (d.named i family (sockBindWild ipv6 p.obj family)) i (d.client i).connfd
              (some p) [.recvfd p.fd]
          else registered (d.named i family (sockBindWild ipv6 p.obj family)) (d.client i).connfd p
        else registered (d.named i family (sockGetPort ipv6 family port)) (d.client i).connfd p := by
  have hne : ¬ m.ret = 0 := by omega
  unfold readableConn
  rw [show wrapReadFd m none = _ from hp]
  dsimp only
  rw [if_neg hne]
  cases p.obj.name with
  | error errno => rfl
  | ok fp =>
    simp only [setClient_same, setClient_setClient]
    rfl

theorem readableConn_outcome (ipv6 : Bool) (d : Daemon) (i : Nat) (m : RecvMsg Sock) :
    ConnOutcome ipv6 d i m (readableConn ipv6 d i m) := by
  rcases wrapReadFd_cases m with ⟨stop, h⟩ | ⟨h0, h⟩ | ⟨hpos, r, h⟩
  · have hout : readableConn ipv6 d i m = ⟨d, [], some stop⟩ := by
      unfold readableConn
      rw [h]
    rw [hout]
    exact .stopped stop h
  · have hout : readableConn ipv6 d i m = clientdone d i (d.client i).connfd none [] := by
      unfold readableConn
      rw [h]
      rfl
    rw [hout]
    exact .closed h0 h
  · cases r with
    | none =>
      have hout : readableConn ipv6 d i m = clienterr d i (d.client i).connfd none [] := by
        unfold readableConn
        rw [h]
        exact if_neg (by omega)
      rw [hout]
      exact .noFd hpos h
    | some p =>
      rw [readableConn_passes hpos h]
      cases hname : p.obj.name with
      | error errno => exact .noName p errno hpos h hname
      | ok fp =>
        obtain ⟨family, port⟩ := fp
        dsimp only
        by_cases hz : sockGetPort ipv6 family port = 0
        · rw [if_pos hz]
          by_cases hw : sockBindWild ipv6 p.obj family ≤ 0
          · rw [if_pos hw]
            exact .noPort p family port hpos h hname hz hw
          · rw [if_neg hw]
            exact .bound p family port hpos h hname hz (by omega)
        · rw [if_neg hz]
          exact .named p family port hpos h hname hz

end Unp.Icmpd
