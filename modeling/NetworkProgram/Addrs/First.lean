import NetworkProgram.Addrs.Impl

/-!
# The first address that works

The descriptor of an entry that fails is closed before the next entry is tried, so each entry finds the
table as it was.

* `body_fails`, `body_succeeds`   what the body of the loop does for an entry;
* `loop_none`, `loop_first`       the loop;
* `first_opened`                  the three functions.
-/

namespace Unp.Addrs

def Call.entry : Call → Option (Ledger.Entry Int)
  | .socket _ _ _ ret => if ret < 0 then none else some (.acquire ret)
  | .use _ _ => none
  | .close fd => some (.release fd)

/-- the descriptors made and closed -/
def books (log : List Call) : List (Ledger.Entry Int) := log.filterMap Call.entry

def Call.tried : Call → Option (Int × Int × Int)
  | .socket family socktype protocol _ => some (family, socktype, protocol)
  | _ => none

def Entry.args (e : Entry) : Int × Int × Int := (e.ai.aiFamily, e.ai.aiSocktype, e.ai.aiProtocol)

/-- `es` have been tried, one after the other, and each descriptor made has been closed once -/
structure Failed (es : List Entry) (calls : List Call) : Prop where
  tried : calls.filterMap Call.tried = (es.map Entry.args).reverse
  balanced : Ledger.Balanced (books calls)
  held : Ledger.held (books calls) = ∅

/-- the calls for an entry that succeeds with `fd` -/
def Opener.chosen (k : Opener) (e : Entry) (fd : Int) : List Call :=
  .use fd (k.request e.ai 0) :: k.setup.map (.use fd) ++
    [.socket e.ai.aiFamily e.ai.aiSocktype e.ai.aiProtocol fd]

/-- the first entry of `es` that succeeds is used, and if there is none the process stops -/
structure First (k : Opener) (addrlenp : Bool) (es : List Entry) (p : Proc)
    (out : Except Stop Ret × Proc) : Prop where
  found : ∀ pre e post, es = pre ++ e :: post → (∀ s ∈ pre, s.succeeds = false) →
    e.succeeds = true → ∃ fd calls, 0 ≤ fd ∧ fd ∉ p.opened ∧ Failed pre calls ∧
      out = (.ok ⟨fd, if addrlenp then some e.ai.aiAddrlen else none⟩,
        ⟨insert fd p.opened, k.finish.map (.use fd) ++ (k.chosen e fd ++ (calls ++ p.log))⟩)
  none : (∀ e ∈ es, e.succeeds = false) → ∃ calls, Failed es calls ∧
    out = (.error (.errSys k.fmt), ⟨p.opened, calls ++ p.log⟩)
  stops : out.1 = .error (.errSys k.fmt) ↔ ∀ e ∈ es, e.succeeds = false

variable {k : Opener} {e res : Entry} {es es' pre post next : List Entry} {p : Proc}
  {calls calls' : List Call} {fd : Int}

/-! ## the books -/

theorem entry_socket {family socktype protocol ret : Int} (h : 0 ≤ ret) :
    (Call.socket family socktype protocol ret).entry = some (.acquire ret) :=
  if_neg (Int.not_lt_of_ge h)

theorem filterMap_uses {γ : Type} {f : Call → Option γ} (hf : ∀ u, f (.use fd u) = none)
    (us : List Use) (calls : List Call) :
    (us.map (Call.use fd) ++ calls).filterMap f = calls.filterMap f := by
  have hnone : (us.map (Call.use fd)).filterMap f = [] :=
    List.filterMap_eq_nil_iff.mpr (fun c hc => by
      obtain ⟨u, _, rfl⟩ := List.mem_map.mp hc
      exact hf u)
  rw [List.filterMap_append, hnone, List.nil_append]

theorem failed_nil : Failed [] [] := ⟨rfl, trivial, rfl⟩

theorem Failed.append (h : Failed es calls) (h' : Failed es' calls') :
    Failed (es ++ es') (calls' ++ calls) := by
  have hbooks : books (calls' ++ calls) = books calls' ++ books calls := List.filterMap_append ..
  refine ⟨?_, ?_, ?_⟩
  · rw [List.filterMap_append, List.map_append, List.reverse_append, h'.tried, h.tried]
  · rw [hbooks]
    exact h'.balanced.append h.balanced h.held
  · rw [hbooks, Ledger.held_append h.held, h'.held]

/-! ## one entry -/

def unmade (e : Entry) : List Call :=
  [.socket e.ai.aiFamily e.ai.aiSocktype e.ai.aiProtocol (-1)]

def Opener.undone (k : Opener) (e : Entry) (fd : Int) : List Call :=
  .close fd :: .use fd (k.request e.ai (-1)) :: (k.setup.map (.use fd) ++
    [.socket e.ai.aiFamily e.ai.aiSocktype e.ai.aiProtocol fd])

theorem unmade_failed (e : Entry) : Failed [e] (unmade e) := by
  have hbooks : books (unmade e) = [] := rfl
  exact ⟨rfl, hbooks ▸ trivial, hbooks ▸ rfl⟩

theorem undone_failed (k : Opener) (e : Entry) (h : 0 ≤ fd) : Failed [e] (k.undone e fd) := by
  have hbooks : books (k.undone e fd) = [.release fd, .acquire fd] := by
    show Ledger.Entry.release fd :: (k.setup.map (Call.use fd) ++ [_]).filterMap Call.entry = _
    rw [filterMap_uses (fun _ => rfl), List.filterMap_cons_some (entry_socket h)]
    rfl
  refine ⟨?_, ?_, ?_⟩
  · exact filterMap_uses (f := Call.tried) (fun _ => rfl) k.setup _
  · rw [hbooks]
    exact ⟨Finset.mem_insert_self .., Finset.notMem_empty _, trivial⟩
  · rw [hbooks]
    exact Finset.erase_insert (Finset.notMem_empty fd)

theorem body_fails (k : Opener) (p : Proc) (h : e.succeeds = false) : ∃ fd calls, Failed [e] calls ∧
    k.body e p = (.advance, fd, ⟨p.opened, calls ++ p.log⟩) := by
  unfold Opener.body Proc.socket
  cases hsock : e.socket with
  | none => exact ⟨-1, unmade e, unmade_failed e, rfl⟩
  | some n =>
    have hworks : e.works = false := by
      unfold Entry.succeeds at h
      rwa [hsock, Option.isSome_some, Bool.true_and] at h
    have hge := n.nonneg p.opened
    refine ⟨n.fd p.opened, k.undone e (n.fd p.opened), undone_failed k e hge, ?_⟩
    dsimp only
    rw [if_neg (Int.not_lt_of_ge hge), hworks, if_neg Bool.false_ne_true]
    unfold Proc.close Proc.uses Opener.undone
    simp [Finset.erase_insert (n.unused p.opened)]

theorem body_succeeds (k : Opener) (p : Proc) (h : e.succeeds = true) : ∃ fd, 0 ≤ fd ∧ fd ∉ p.opened ∧
    k.body e p = (.leave, fd, ⟨insert fd p.opened, k.chosen e fd ++ p.log⟩) := by
  obtain ⟨hsome, hworks⟩ := (Bool.and_eq_true _ _).mp h
  obtain ⟨n, hsock⟩ := Option.isSome_iff_exists.mp hsome
  refine ⟨n.fd p.opened, n.nonneg _, n.unused _, ?_⟩
  unfold Opener.body Proc.socket
  rw [hsock]
  dsimp only
  rw [if_neg (Int.not_lt_of_ge (n.nonneg _)), hworks, if_pos rfl]
  unfold Proc.uses Opener.chosen
  simp

/-! ## the list -/

theorem loop_advance {p' : Proc} (h : k.body e p = (.advance, fd, p')) :
    k.loop e (res :: next) p = k.loop res next p' := by
  rw [Opener.loop, h]

theorem loop_none (h : ∀ e ∈ res :: next, e.succeeds = false) : ∃ fd calls,
    Failed (res :: next) calls ∧ k.loop res next p = (none, fd, ⟨p.opened, calls ++ p.log⟩) := by
  induction next generalizing res p with
  | nil =>
    obtain ⟨fd, calls, hfail, hbody⟩ := body_fails k p (h res (List.mem_cons_self ..))
    refine ⟨fd, calls, hfail, ?_⟩
    rw [Opener.loop, hbody]
  | cons res' next ih =>
    obtain ⟨_, calls, hfail, hbody⟩ := body_fails k p (h res (List.mem_cons_self ..))
    obtain ⟨fd, calls', hfail', hloop⟩ :=
      ih (p := ⟨p.opened, calls ++ p.log⟩) (fun e he => h e (List.mem_cons_of_mem _ he))
    refine ⟨fd, calls' ++ calls, hfail.append hfail', ?_⟩
    rw [loop_advance hbody, hloop, List.append_assoc]

/-- **The loop ends at the first entry that succeeds**, which finds the table as it was. -/
theorem loop_first (hes : res :: next = pre ++ e :: post) (hpre : ∀ s ∈ pre, s.succeeds = false)
    (he : e.succeeds = true) : ∃ fd calls, 0 ≤ fd ∧ fd ∉ p.opened ∧ Failed pre calls ∧
      k.loop res next p =
        (some e, fd, ⟨insert fd p.opened, k.chosen e fd ++ (calls ++ p.log)⟩) := by
  induction pre generalizing res next p with
  | nil =>
    obtain ⟨rfl, rfl⟩ := List.cons.inj hes
    obtain ⟨fd, h0, hnew, hbody⟩ := body_succeeds k p he
    refine ⟨fd, [], h0, hnew, failed_nil, ?_⟩
    rw [Opener.loop, hbody]
    rfl
  | cons s pre ih =>
    obtain ⟨rfl, hnext⟩ := List.cons.inj hes
    obtain ⟨_, calls, hfail, hbody⟩ := body_fails k p (hpre res (List.mem_cons_self ..))
    cases next with
    | nil => exact absurd hnext.symm (List.append_ne_nil_of_right_ne_nil pre (by simp))
    | cons res' next =>
      obtain ⟨fd, calls', h0, hnew, hfail', hloop⟩ := ih (p := ⟨p.opened, calls ++ p.log⟩)
        hnext (fun s hs => hpre s (List.mem_cons_of_mem _ hs))
      refine ⟨fd, calls' ++ calls, h0, hnew, hfail.append hfail', ?_⟩
      rw [loop_advance hbody, hloop, List.append_assoc]

theorem first_split (es : List Entry) : (∀ e ∈ es, e.succeeds = false) ∨
    ∃ pre e post, es = pre ++ e :: post ∧ (∀ s ∈ pre, s.succeeds = false) ∧ e.succeeds = true := by
  cases hfind : es.find? Entry.succeeds with
  | none => exact Or.inl (fun e he => Bool.eq_false_iff.mpr (List.find?_eq_none.mp hfind e he))
  | some e =>
    obtain ⟨he, pre, post, hes, hpre⟩ := List.find?_eq_some_iff_append.mp hfind
    exact Or.inr ⟨pre, e, post, hes, fun s hs => (Bool.not_eq_true' _).mp (hpre s hs), he⟩

theorem run_first (k : Opener) (addrlenp : Bool) (res : Entry) (next : List Entry) (p : Proc) :
    First k addrlenp (res :: next) p (k.run addrlenp (.ok (res, next)) p) := by
  have hfound : ∀ pre e post, res :: next = pre ++ e :: post →
      (∀ s ∈ pre, s.succeeds = false) → e.succeeds = true →
      ∃ fd calls, 0 ≤ fd ∧ fd ∉ p.opened ∧ Failed pre calls ∧
        k.run addrlenp (.ok (res, next)) p =
          (.ok ⟨fd, if addrlenp then some e.ai.aiAddrlen else none⟩,
          ⟨insert fd p.opened, k.finish.map (.use fd) ++ (k.chosen e fd ++ (calls ++ p.log))⟩) := by
    intro pre e post hes hpre he
    obtain ⟨fd, calls, h0, hnew, hfail, hloop⟩ := loop_first (k := k) (p := p) hes hpre he
    refine ⟨fd, calls, h0, hnew, hfail, ?_⟩
    unfold Opener.run
    dsimp only
    rw [hloop]
    rfl
  have hnone : (∀ e ∈ res :: next, e.succeeds = false) → ∃ calls, Failed (res :: next) calls ∧
      k.run addrlenp (.ok (res, next)) p = (.error (.errSys k.fmt), ⟨p.opened, calls ++ p.log⟩) := by
    intro h
    obtain ⟨fd, calls, hfail, hloop⟩ := loop_none (k := k) (p := p) h
    refine ⟨calls, hfail, ?_⟩
    unfold Opener.run
    dsimp only
    rw [hloop]
  refine ⟨hfound, hnone, fun hstop => ?_, fun h => ?_⟩
  · refine (first_split (res :: next)).resolve_right ?_
    rintro ⟨pre, e, post, hes, hpre, he⟩
    obtain ⟨fd, calls, _, _, _, hrun⟩ := hfound pre e post hes hpre he
    rw [hrun] at hstop
    exact absurd hstop (by simp)
  · obtain ⟨calls, _, hrun⟩ := hnone h
    rw [hrun]

/-- **The first address that works is used**, by each of the three functions. -/
theorem first_opened (res : Entry) (next : List Entry) (p : Proc) :
    First connecting false (res :: next) p (tcpConnect (.ok (res, next)) p) ∧
    (∀ addrlenp, First listening addrlenp (res :: next) p (tcpListen addrlenp (.ok (res, next)) p)) ∧
    ∀ addrlenp, First serving addrlenp (res :: next) p (udpServer addrlenp (.ok (res, next)) p) :=
  ⟨run_first .., fun _ => run_first .., fun _ => run_first ..⟩

end Unp.Addrs
