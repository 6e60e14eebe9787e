import NetworkProgram.Readn
import NetworkProgram.SelectCli.Window
import NetworkProgram.WebChild.Impl

/-!
# The benchmark client and `web_child`

`server/client/main.cpp`: a child writes one request, reads the reply with `Readn` and closes.
`nbytes` is a `long`, and `ntowrite` in `web_child` an `int`.

* `Agree`         the two ends agree on `nbytes`, however the bytes are cut on their way;
* `serve_short`   what comes of a request for more than can be read from `result` on;
* `agree_iff`     for which `nbytes` they agree.
-/

namespace Unp.WebChild
open Cut Threads

/-- `snprintf(request, sizeof(request), "%ld\n", nbytes)` -/
def request (nbytes : Int64) : List UInt8 := fmtLd nbytes ++ [10]

/-- `web_child` on a new connection that delivers `cs` -/
def serve (result : Result) (mem : Nat → UInt8) (writes : List Writes) (cs : List Chunk) :
    Option Served :=
  webChild result writes [] ⟨0, 0, mem⟩ (Feed.ofChunks cs)

/-- the server writes `nbytes` bytes and returns, and `Readn(fd, reply, nbytes)` returns `nbytes`,
whatever lies behind `result`, where no write fails for the connection -/
def Answered (nbytes : Int64) (cs : List Chunk) : Prop :=
  ∀ (result : Result) (mem reply : Nat → UInt8) (ws : Writes), Takes nbytes.toInt.toNat ws →
    ∃ served, serve result mem [ws] cs = some served ∧ served.stop = none ∧
      served.sent.length = nbytes.toInt ∧
      ∀ rs, Delivers served.sent nbytes.toInt.toNat rs →
        ∃ r, readn reply nbytes.toInt.toNat rs = some r ∧ r.ret = nbytes.toInt

/-- the server writes nothing and rejects the request -/
def Rejected (cs : List Chunk) : Prop :=
  ∀ (result : Result) (mem : Nat → UInt8) (writes : List Writes), ∃ ntowrite,
    serve result mem writes cs = some ⟨[], some (.errQuit "client request for %d bytes" [ntowrite])⟩

def Agree (nbytes : Int64) : Prop :=
  ∀ cs, stream cs = request nbytes →
    (InRange nbytes.toInt → Answered nbytes cs) ∧ (¬ InRange nbytes.toInt → Rejected cs)

variable {nbytes : Int64} {cs : List Chunk} {result : Result} {mem : Nat → UInt8} {ws : Writes}
  {n : Nat}

/-! ## the request -/

theorem bytes_ofChunks (cs : List Chunk) : (Feed.ofChunks cs).bytes = stream cs := by
  unfold Feed.bytes Feed.ofChunks stream
  rw [List.flatMap_map]
  rfl

theorem cut_request (nbytes : Int64) :
    cut isNl (MAXLINE - 1) (request nbytes) = (request nbytes, []) := by
  have hlen := fmtLd_length nbytes
  refine cut_marked (fun c hc => ?_) rfl (by show (fmtLd nbytes).length < 4095; omega)
  rcases mem_fmtLd hc with rfl | hd
  · rfl
  · rw [Decimal.isDigit_iff] at hd
    rw [← Bool.not_eq_true, isNl_iff]
    rintro rfl
    exact absurd hd.1 (by decide)

/-- `Readline` returns the request, and finds the end of file behind it -/
theorem readline_request (h : stream cs = request nbytes) (mem : Nat → UInt8) :
    let r := readline isNl MAXLINE ⟨0, 0, mem⟩ (Feed.ofChunks cs)
    0 < r.line.ret ∧ r.line.stored = request nbytes ∧
      (readline isNl MAXLINE r.st r.feed).line.ret = 0 := by
  have hdata := Feed.data_ofChunks cs
  have hpend : pending ⟨0, 0, mem⟩ (Feed.ofChunks cs) = request nbytes :=
    (bytes_ofChunks cs).trans h
  have h2 : 2 ≤ MAXLINE := by decide
  obtain ⟨hst, hrest, hdata'⟩ := readline_cut isNl MAXLINE ⟨0, 0, mem⟩ (Feed.ofChunks cs) hdata
  rw [hpend, cut_request] at hst hrest
  obtain ⟨hnn, hzero⟩ := readline_ret isNl h2 hdata (s := ⟨0, 0, mem⟩)
  have hne : pending ⟨0, 0, mem⟩ (Feed.ofChunks cs) ≠ [] := by
    rw [hpend]
    exact List.append_ne_nil_of_right_ne_nil _ (List.cons_ne_nil _ _)
  exact ⟨lt_of_le_of_ne hnn (fun h0 => hne (hzero.mp h0.symm)), hst,
    (readline_ret isNl h2 hdata').2.mpr hrest⟩

theorem atol_request (nbytes : Int64) : atol (request nbytes) = nbytes := atol_fmtLd nbytes rfl

/-! ## the server -/

/-- **What the server does with the request**: it goes by the value cut down to an `int`. -/
theorem serve_served (h : stream cs = request nbytes) (hin : InRange nbytes.toInt32.toInt)
    (hw : Takes nbytes.toInt32.toInt.toNat (result.writes nbytes.toInt32.toInt.toNat ws)) :
    serve result mem [ws] cs = some ⟨memory result.byte 0 nbytes.toInt32.toInt.toNat, none⟩ := by
  obtain ⟨hret, hst, hend⟩ := readline_request h mem
  have hturn := turn_served hret (atol_request nbytes ▸ hin)
  rw [atol_request] at hturn
  unfold serve
  rw [webChild_writen (by rw [hst]; exact hturn) hw, webChild_closed hend, List.nil_append]

/-- the first `write` takes what can be read, and the second finds nothing -/
theorem writen_short (hlt : result.bytes.length < n) :
    writen result.byte n (result.writes n [takeAll, takeAll]) =
      some ⟨sizeT (-1), memory result.byte 0 result.bytes.length⟩ := by
  have harray := result.array
  have hmax : MAXLINE = 4096 := rfl
  have hmin : min n (result.bytes.length - (n - n)) = result.bytes.length := by omega
  have hfirst : ∃ le, result.write (n - n) takeAll n = .wrote result.bytes.length le := by
    have htook : ∃ k le, result.write (n - n) takeAll n = .wrote k le ∧ k = result.bytes.length :=
      ⟨_, _, if_neg (by omega), hmin⟩
    obtain ⟨_, le, hwrite, rfl⟩ := htook
    exact ⟨le, hwrite⟩
  obtain ⟨le, hfirst⟩ := hfirst
  have hsecond : result.write (n - (n - result.bytes.length)) takeAll (n - result.bytes.length) =
      .err EFAULT := result.write_fault (by omega)
  have hlist : result.writes n [takeAll, takeAll] =
      [fun nleft => result.write (n - nleft) takeAll nleft,
        fun nleft => result.write (n - nleft) takeAll nleft] := rfl
  rw [hlist]
  unfold writen writenLoop
  rw [if_neg (by omega)]
  dsimp only
  rw [hfirst]
  dsimp only
  rw [if_neg (by omega)]
  unfold writenLoop
  rw [if_neg (by omega)]
  dsimp only
  rw [hsecond]
  rfl

/-- **What comes of a request for more than can be read**: a part of it is sent, then the process
ends. -/
theorem serve_short (h : stream cs = request nbytes) (hin : InRange nbytes.toInt32.toInt)
    (hlt : result.bytes.length < nbytes.toInt32.toInt.toNat) :
    serve result mem [[takeAll, takeAll]] cs =
      some ⟨memory result.byte 0 result.bytes.length, some (.errSys "writen error")⟩ := by
  obtain ⟨hret, hst, _⟩ := readline_request h mem
  have hturn := turn_served hret (atol_request nbytes ▸ hin)
  rw [atol_request] at hturn
  have hmax : (MAXN : Int) = 16384 := rfl
  have hne : sizeT (-1) ≠ nbytes.toInt32.toInt.toNat := by
    have hsize : sizeT (-1) = 18446744073709551615 := by decide
    have hle := hin.2
    omega
  exact webChild_failed (by rw [hst]; exact hturn) (writen_short hlt) hne

/-- with no answers left it is still at `Writen` -/
theorem serve_nil (h : stream cs = request nbytes) (hin : InRange nbytes.toInt32.toInt) :
    serve result mem [] cs = none := by
  obtain ⟨hret, hst, _⟩ := readline_request h mem
  have hturn := turn_served hret (atol_request nbytes ▸ hin)
  exact webChild_nil (by rw [hst]; exact hturn)

theorem serve_refused (h : stream cs = request nbytes) (hout : ¬ InRange nbytes.toInt32.toInt)
    (writes : List Writes) : serve result mem writes cs =
      some ⟨[], some (.errQuit "client request for %d bytes" [nbytes.toInt32.toInt])⟩ := by
  obtain ⟨hret, hst, _⟩ := readline_request h mem
  have hturn := turn_refused hret (atol_request nbytes ▸ hout)
  rw [atol_request] at hturn
  exact webChild_stopped (by rw [hst]; exact hturn)

/-! ## the agreement -/

/-- in the range an `int` holds the value -/
theorem InRange.toInt32 (h : InRange nbytes.toInt) : nbytes.toInt32.toInt = nbytes.toInt := by
  have hmax : (MAXN : Int) = 16384 := rfl
  obtain ⟨h1, h2⟩ := h
  rw [Int64.toInt_toInt32]
  exact Int.bmod_eq_of_le (by omega) (by omega)

/-- the array holds the reply -/
theorem answered (h : stream cs = request nbytes) (hin : InRange nbytes.toInt)
    (harray : nbytes.toInt ≤ MAXLINE) : Answered nbytes cs := by
  intro result mem reply ws hw
  have hpos : 0 ≤ nbytes.toInt := Int.le_trans (by decide) hin.1
  have hlen : ((memory result.byte 0 nbytes.toInt.toNat).length : Int) = nbytes.toInt := by
    rw [memory_length]
    exact Int.toNat_of_nonneg hpos
  have hwrites : Takes nbytes.toInt.toNat (result.writes nbytes.toInt.toNat ws) :=
    takes_writes hw (Nat.le_refl _) (by omega)
  rw [← hin.toInt32] at hwrites
  have hserve : serve result mem [ws] cs = _ := serve_served h (hin.toInt32 ▸ hin) hwrites
  rw [hin.toInt32] at hserve
  refine ⟨_, hserve, rfl, hlen, fun rs hrs => ?_⟩
  obtain ⟨r, hr, hret, _⟩ := readn_spec reply hrs
  refine ⟨r, hr, ?_⟩
  rw [hret, memory_length, Nat.min_self]
  exact Int.toNat_of_nonneg hpos

/-- the whole request in one segment -/
def oneSegment (nbytes : Int64) : List Chunk :=
  [⟨request nbytes, by
    have hlen := fmtLd_length nbytes
    unfold request
    rw [List.length_append]
    exact ⟨by simp, by show _ + 1 ≤ 4096; omega⟩⟩]

theorem stream_oneSegment (nbytes : Int64) : stream (oneSegment nbytes) = request nbytes :=
  List.append_nil _

/-- nothing is mapped behind `result` -/
def bare : Result := ⟨List.replicate MAXLINE 0, (List.length_replicate).ge⟩

/-- a request for more than the array has may end the process -/
theorem not_answered (h : stream cs = request nbytes) (hin : InRange nbytes.toInt)
    (harray : (MAXLINE : Int) < nbytes.toInt) : ¬ Answered nbytes cs := by
  intro hans
  have htakes : Takes nbytes.toInt.toNat [takeAll, takeAll] :=
    .wrote rfl (by omega) (Nat.sub_self _ ▸ .done)
  obtain ⟨served, hserve, hstop, -⟩ := hans bare (fun _ => 0) (fun _ => 0) _ htakes
  have hlt : bare.bytes.length < nbytes.toInt32.toInt.toNat := by
    rw [hin.toInt32, show bare.bytes.length = MAXLINE from List.length_replicate]
    omega
  rw [serve_short h (hin.toInt32.symm ▸ hin) hlt] at hserve
  obtain rfl := Option.some.inj hserve
  cases hstop

/-- a request out of the range that the `int` brings into it is served -/
theorem not_agree (hout : ¬ InRange nbytes.toInt) (hin : InRange nbytes.toInt32.toInt) :
    ¬ Agree nbytes := by
  intro h
  have hone := stream_oneSegment nbytes
  obtain ⟨ntowrite, hrej⟩ := (h _ hone).2 hout bare (fun _ => 0) []
  rw [serve_nil hone hin] at hrej
  cases hrej

/-- **The ends agree** on the numbers of bytes that the array has, and on those which as an `int` are
out of the range. -/
theorem agree_iff (nbytes : Int64) :
    Agree nbytes ↔
      (1 ≤ nbytes.toInt ∧ nbytes.toInt ≤ MAXLINE) ∨ ¬ InRange nbytes.toInt32.toInt := by
  have hle : (MAXLINE : Int) ≤ MAXN := by decide
  constructor
  · intro h
    by_cases hin32 : InRange nbytes.toInt32.toInt
    · refine Or.inl ?_
      have hin : InRange nbytes.toInt := by
        by_contra hout
        exact not_agree hout hin32 h
      refine ⟨hin.1, ?_⟩
      by_contra harray
      have hone := stream_oneSegment nbytes
      exact not_answered hone hin (Int.not_le.mp harray) ((h _ hone).1 hin)
    · exact Or.inr hin32
  · rintro (⟨hpos, harray⟩ | hout32) cs hcs
    · have hin : InRange nbytes.toInt := ⟨hpos, harray.trans hle⟩
      exact ⟨fun _ => answered hcs hin harray, fun hout => absurd hin hout⟩
    · refine ⟨fun hin => absurd (hin.toInt32.symm ▸ hin) hout32, fun _ => ?_⟩
      exact fun result mem writes => ⟨_, serve_refused hcs hout32 writes⟩

/-- a request for `2^32 + 5` bytes: the server sends five -/
theorem disagree_wrapped : ¬ Agree 4294967301 ∧
    serve bare (fun _ => 0) [[takeAll]] (oneSegment 4294967301) = some ⟨[0, 0, 0, 0, 0], none⟩ := by
  have hin : InRange (4294967301 : Int64).toInt32.toInt := by decide
  refine ⟨not_agree (by decide) hin, ?_⟩
  exact serve_served (stream_oneSegment _) hin
    (takes_writes (takes_all _) (Nat.le_refl _) (by decide))

end Unp.WebChild
