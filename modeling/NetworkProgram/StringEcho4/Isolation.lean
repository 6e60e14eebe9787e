import Mathlib.Data.List.GetD
import NetworkProgram.Lib.Relay
import NetworkProgram.Lib.Run
import NetworkProgram.StringEcho4.Impl

/-!
# Each client gets its own bytes back

Every connection is a `Relay`: it takes what the server reads from the connection, gives what has
been written back, and holds what is in `buf` between a `Read` and its `Writen` (`St.held`).  `buf`
is shared by all connections, but it holds bytes of one connection at a time.
-/

namespace Unp.StringEcho4
open Finset Trans

variable {alloc : Finset Int → Int → Prop} {s t : St} {e : Event}

/-- what of the connection `id` is in `buf`, read and not written -/
def St.held (s : St) (id : Nat) : List Sent :=
  match s.pc with
  | .writen _ sockfd n => if s.owner sockfd = some id then memory s.buf 0 n else []
  | _ => []

/-- not between a `Read` and its `Writen` -/
def Pc.idle : Pc → Bool
  | .writen _ _ _ => false
  | _ => true

theorem held_of_idle (h : s.pc.idle = true) (id : Nat) : s.held id = [] := by
  unfold St.held
  split
  · rename_i j sockfd n hw
    rw [hw] at h
    cases h
  · rfl

theorem next_idle (s : St) {pc : Pc} (h : pc.idle = true) : (s.next pc).pc.idle = true := by
  unfold St.next
  dsimp only
  split
  · rfl
  · exact h

structure Echo (s : St) : Prop where
  own : ∀ id, ∀ b ∈ (s.conns id).sent, b.conn = id
  read : ∀ id, (s.conns id).read <+: (s.conns id).sent
  back : s.pc.running = true → ∀ id, (s.conns id).back ++ s.held id = (s.conns id).read
  fits : ∀ j sockfd n, s.pc = .writen j sockfd n → n ≤ MAXLINE

theorem echo_start (inherited : Finset Int) (listenfd : Int) (buf : Nat → Sent) :
    Echo (start inherited listenfd buf) where
  own := fun _ b hb => by cases hb
  read := fun _ => List.prefix_rfl
  back := fun _ _ => rfl
  fits := fun _ _ _ hpc => by cases hpc

/-- the connection `id` as a relay -/
def Echo.relay (h : Echo s) (hrun : s.pc.running = true) (id : Nat) : Relay Sent :=
  ⟨(s.conns id).read, (s.conns id).back, s.held id, h.back hrun id⟩

/-! ## the parts of the loop -/

/-- the server goes on; nothing was in `buf`, and nothing is -/
theorem Echo.goto (h : Echo s) (hrun : s.pc.running = true) (hidle : s.pc.idle = true)
    (hconns : t.conns = s.conns) (hpc : t.pc.idle = true) : Echo t where
  own := by
    rw [hconns]
    exact h.own
  read := by
    rw [hconns]
    exact h.read
  back := by
    intro _ id
    have hold := h.back hrun id
    rw [held_of_idle hidle] at hold
    rw [held_of_idle hpc, hconns]
    exact hold
  fits := fun j sockfd n hw => by rw [hw] at hpc; cases hpc

/-- the process ends -/
theorem Echo.stop (h : Echo s) {why : Stop} (hconns : ∀ id, (t.conns id).sent = (s.conns id).sent ∧
    (t.conns id).read = (s.conns id).read) (hpc : t.pc = .stopped why) : Echo t where
  own := by
    intro id b hb
    rw [(hconns id).1] at hb
    exact h.own id b hb
  read := by
    intro id
    rw [(hconns id).1, (hconns id).2]
    exact h.read id
  back := fun hrun => by rw [hpc] at hrun; cases hrun
  fits := fun j sockfd n hw => by rw [hpc] at hw; cases hw

/-- the client of the connection `id` does something -/
theorem Echo.client (h : Echo s) {id : Nat} {c : Conn} (hown : ∀ b ∈ c.sent, b.conn = id)
    (hsent : (s.conns id).sent <+: c.sent) (hread : c.read = (s.conns id).read)
    (hback : c.back = (s.conns id).back) : Echo (s.setConn id c) where
  own := by
    apply (Function.forall_update_iff s.conns (fun k c => ∀ b ∈ c.sent, b.conn = k)).mpr
    exact ⟨hown, fun k _ => h.own k⟩
  read := by
    apply (Function.forall_update_iff s.conns (fun _ c => c.read <+: c.sent)).mpr
    refine ⟨?_, fun k _ => h.read k⟩
    rw [hread]
    exact (h.read id).trans hsent
  back := by
    intro hrun
    apply (Function.forall_update_iff s.conns (fun k c => c.back ++ s.held k = c.read)).mpr
    refine ⟨?_, fun k _ => h.back hrun k⟩
    rw [hread, hback]
    exact h.back hrun id
  fits := h.fits

/-- **`Read`**: the connection takes the bytes, and they are what `buf` holds. -/
theorem Echo.data (h : Echo s) {j id : Nat} {sockfd : Int} {bs : List Sent} (hpc : s.pc = .scan j)
    (howner : s.owner sockfd = some id) (hbs : bs <+: (s.conns id).unread)
    (hlen : bs.length ≤ MAXLINE) {served : List Int} :
    Echo { St.fill { s with served := served } id bs with pc := .writen j sockfd bs.length } where
  own := by
    apply (Function.forall_update_iff s.conns (fun k c => ∀ b ∈ c.sent, b.conn = k)).mpr
    exact ⟨h.own id, fun k _ => h.own k⟩
  read := by
    apply (Function.forall_update_iff s.conns (fun _ c => c.read <+: c.sent)).mpr
    refine ⟨?_, fun k _ => h.read k⟩
    obtain ⟨rest, hrest⟩ := h.read id
    obtain ⟨more, hmore⟩ := hbs
    have hdrop : (s.conns id).unread = rest := by
      unfold Conn.unread
      rw [← hrest, List.drop_left]
    refine ⟨more, ?_⟩
    show ((s.conns id).read ++ bs) ++ more = (s.conns id).sent
    rw [List.append_assoc, hmore, hdrop, hrest]
  back := by
    have hold : ∀ k, (s.conns k).back = (s.conns k).read := by
      intro k
      have hback := h.back (by rw [hpc]; rfl) k
      rw [held_of_idle (by rw [hpc]; rfl), List.append_nil] at hback
      exact hback
    intro _
    apply (Function.forall_update_iff s.conns (fun k c => c.back ++
      (if s.owner sockfd = some k then memory (fun k => bs.getD k (s.buf k)) 0 bs.length else [])
        = c.read)).mpr
    rw [memory_getD, howner]
    constructor
    · rw [if_pos rfl]
      show (s.conns id).back ++ bs = (s.conns id).read ++ bs
      rw [hold id]
    · intro k hk
      rw [if_neg (fun hc => hk (Option.some.inj hc).symm), List.append_nil]
      exact hold k
  fits := by
    intro _ _ n hw
    cases hw
    exact hlen

/-- **`Writen`**: the connection gives what `buf` holds, or the process ends. -/
theorem Echo.writen (h : Echo s) {j n id : Nat} {sockfd : Int} {ws : Writes} {w : Written Sent}
    (hpc : s.pc = .writen j sockfd n) (howner : s.owner sockfd = some id)
    (hw : Unp.writen s.buf n ws = some w) : Echo (s.writen j id n w) := by
  have hconns : ∀ k, ((s.setConn id
      { s.conns id with back := (s.conns id).back ++ w.out }).conns k).sent = (s.conns k).sent ∧
      ((s.setConn id { s.conns id with back := (s.conns id).back ++ w.out }).conns k).read
        = (s.conns k).read := by
    apply (Function.forall_update_iff s.conns
      (fun k c => c.sent = (s.conns k).sent ∧ c.read = (s.conns k).read)).mpr
    exact ⟨⟨rfl, rfl⟩, fun _ _ => ⟨rfl, rfl⟩⟩
  unfold St.writen
  dsimp only
  split
  · exact h.stop hconns rfl
  · rename_i hret
    have hout := writen_full hw (h.fits j sockfd n hpc) (not_not.mp hret)
    have hold : ∀ k, (s.conns k).back ++ (if some id = some k then memory s.buf 0 n else [])
        = (s.conns k).read := by
      intro k
      have hback := h.back (by rw [hpc]; rfl) k
      unfold St.held at hback
      rw [hpc] at hback
      dsimp only at hback
      rw [howner] at hback
      exact hback
    refine ⟨?_, ?_, ?_, ?_⟩
    · intro k b hb
      exact h.own k b ((hconns k).1 ▸ hb)
    · intro k
      have hread := h.read k
      rw [← (hconns k).1, ← (hconns k).2] at hread
      exact hread
    · intro _ k
      rw [held_of_idle (next_idle _ rfl), List.append_nil]
      revert k
      apply (Function.forall_update_iff s.conns (fun _ c => c.back = c.read)).mpr
      constructor
      · have hself := hold id
        rw [if_pos rfl] at hself
        rw [hout]
        exact hself
      · intro k hk
        have hother := hold k
        rw [if_neg (fun hc => hk (Option.some.inj hc).symm), List.append_nil] at hother
        exact hother
    · intro j' sockfd' n' hc
      have hidle : (St.next (s.setConn id { s.conns id with back := (s.conns id).back ++ w.out })
        (.scan (j + 1))).pc.idle = true := next_idle _ rfl
      rw [hc] at hidle
      cases hidle

/-! ## runs -/

theorem Echo.step (h : Echo s) (hs : Step alloc s e t) : Echo t := by
  cases hs with
  | connect => exact ⟨h.own, h.read, h.back, h.fits⟩
  | send id bs lt opn =>
    apply h.client
    · intro b hb
      rcases List.mem_append.mp hb with hold | hnew
      · exact h.own id b hold
      · obtain ⟨x, _, rfl⟩ := List.mem_map.mp hnew
        rfl
    · exact List.prefix_append ..
    · rfl
    · rfl
  | close id lt => exact h.client (h.own id) List.prefix_rfl rfl rfl
  | select pc some =>
    refine h.goto (t := s.select) (by rw [pc]; rfl) (by rw [pc]; rfl) rfl ?_
    show (if s.listenfd ∈ s.select.rset then Pc.accept else .scan 0).idle = true
    split <;> rfl
  | accept connfd pc waits number =>
    have hidle : s.pc.idle = true := by rw [pc]; rfl
    have hrun : s.pc.running = true := by rw [pc]; rfl
    unfold St.accept
    dsimp only
    split
    · exact h.goto hrun hidle rfl rfl
    · exact h.goto hrun hidle rfl (next_idle _ rfl)
  | read j id r pc le used isset owner answers =>
    cases r with
    | err e => exact answers.elim
    | eof => exact h.goto (by rw [pc]; rfl) (by rw [pc]; rfl) rfl (next_idle _ rfl)
    | data bs pos len => exact h.data pc owner answers len
  | writen j sockfd n id ws w pc owner returns => exact h.writen pc owner returns
  | skip j pc le notset => exact h.goto (by rw [pc]; rfl) (by rw [pc]; rfl) rfl rfl
  | last j pc gt => exact h.goto (by rw [pc]; rfl) (by rw [pc]; rfl) rfl rfl
  | fail msg running => exact h.stop (fun _ => ⟨rfl, rfl⟩) rfl

/-- **Each client gets its own bytes back.**  At every loop head of every run, what has been written
to a connection is what the server has read from it, which is a beginning of what its client has
sent, and nothing that was sent on another connection. -/
theorem echo_own (inherited : Finset Int) (listenfd : Int) (buf : Nat → Sent) (es : List Event)
    (s : St) (h : Run (Step (Unused FD_SETSIZE)) (start inherited listenfd buf) es s)
    (hpc : s.pc = .head) (id : Nat) :
    (s.conns id).back = (s.conns id).read ∧ (s.conns id).read <+: (s.conns id).sent ∧
    ∀ b ∈ (s.conns id).back, b.conn = id := by
  have hecho : Echo s := h.inv (echo_start inherited listenfd buf) (fun _ _ _ he hs => he.step hs)
  have hrun : s.pc.running = true := by rw [hpc]; rfl
  have hdrained : (s.conns id).back = (s.conns id).read := by
    apply (hecho.relay hrun id).drained_iff.mpr
    exact held_of_idle (by rw [hpc]; rfl) id
  refine ⟨hdrained, hecho.read id, ?_⟩
  intro b hb
  rw [hdrained] at hb
  exact hecho.own id b ((hecho.read id).subset hb)

/-- a client is accepted, sends a byte, and has it back -/
theorem echo_own_byte : ∃ s, Run (Step (Unused FD_SETSIZE)) (start {0, 1, 2} 3 (fun _ => ⟨0, 0⟩))
      [.connect, .select, .accept 4, .send 0 [97], .select,
        .read (.data [⟨0, 97⟩] (by decide) (by decide)), .writen [fun len => .wrote len (Nat.le_refl _)]] s ∧
    (s.conns 0).back = [⟨0, 97⟩] ∧ (s.conns 0).back = (s.conns 0).read := by
  have h1 : Run (Step (Unused FD_SETSIZE)) (start {0, 1, 2} 3 (fun _ => ⟨0, 0⟩)) [.connect] _ :=
    Run.single Step.connect
  have h2 := h1.snoc (Step.select rfl ⟨3, by decide, rfl⟩)
  have h3 := h2.snoc (Step.accept 4 rfl (by decide) ⟨by decide, by decide, by decide⟩)
  have h4 := h3.snoc (Step.send 0 [97] (by decide) rfl)
  have h5 := h4.snoc (Step.select rfl ⟨4, by decide, rfl⟩)
  have h6 := h5.snoc (Step.read 0 0 (.data [⟨0, 97⟩] (by decide) (by decide)) rfl (by decide)
    (by decide) (by decide) rfl List.prefix_rfl)
  have h7 := h6.snoc (Step.writen 0 4 1 0 [fun len => .wrote len (Nat.le_refl _)] _ rfl rfl rfl)
  exact ⟨_, h7, rfl, (echo_own {0, 1, 2} 3 _ _ _ h7 rfl 0).1⟩

end Unp.StringEcho4
