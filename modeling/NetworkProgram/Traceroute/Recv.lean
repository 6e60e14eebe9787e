import NetworkProgram.Traceroute.Impl

/-!
# One datagram

`answer p bs` is what `recv_v4` should return for the datagram `bs`, from its own bytes.

* `parse_pc`        what is not an `ICMP_UNREACH` is dealt with as it should be;
* `parse_unreach`   an `ICMP_UNREACH` goes by `hip` and `hlen2`, which that branch does not set;
* `parse_vars`      a time-exceeded message sets them.
-/

namespace Unp.Traceroute
open Icmpd (ICMP_UNREACH ICMP_TIMXCEED ICMP_UNREACH_PORT)

/-! ## the answer -/

def Datagram.mem (bs : Datagram) : Int → UInt8 := fun k => bs.bytes.getD k.toNat 0

def Datagram.length (bs : Datagram) : Int := bs.bytes.length

/-- where a quoted IP header begins, and its length -/
structure Place where
  hip : Int
  hlen2 : Int
  deriving DecidableEq

/-- the place that the lengths of the datagram at 0 name -/
def placeAt (m : Int → UInt8) : Place := ⟨hlen m 0 + 8, hlen m (hlen m 0 + 8)⟩

/-- a 16-bit field in network order -/
def port (m : Int → UInt8) (off : Int) : UInt16 := word .big (m off) (m (off + 1))

/-- the IP header at `hip` and the UDP header at `udp` are those of the datagram sent -/
def Quotes (p : Probe) (m : Int → UInt8) (hip udp : Int) : Prop :=
  m (hip + 9) = IPPROTO_UDP ∧ port m udp = p.sport ∧ port m (udp + 2) = p.port

instance (p : Probe) (m : Int → UInt8) (hip udp : Int) : Decidable (Quotes p m hip udp) :=
  inferInstanceAs (Decidable (_ ∧ _))

/-- in the `n` bytes at 0 the protocol and the ports of the datagram sent stand as at the place `q` -/
def Shown (p : Probe) (q : Place) (m : Int → UInt8) (n : Int) : Prop :=
  8 + q.hlen2 + 4 ≤ n - hlen m 0 ∧ Quotes p m q.hip (hlen m 0 + 8 + q.hlen2)

instance (p : Probe) (q : Place) (m : Int → UInt8) (n : Int) : Decidable (Shown p q m n) :=
  inferInstanceAs (Decidable (_ ∧ _))

/-- the ICMP message is complete up to the ports of the datagram it quotes, which is the one sent -/
def Own (p : Probe) (m : Int → UInt8) (n : Int) : Prop :=
  8 + sizeofIp ≤ n - hlen m 0 ∧ Shown p (placeAt m) m n

instance (p : Probe) (m : Int → UInt8) (n : Int) : Decidable (Own p m n) :=
  inferInstanceAs (Decidable (_ ∧ _))

/-- `-2` for time exceeded, `-1` for an unreachable port, the code for another unreachable -/
def verdict (type code : UInt8) : Option Int :=
  if type = ICMP_TIMXCEED ∧ code = ICMP_TIMXCEED_INTRANS then some (-2)
  else if type = ICMP_UNREACH then some (unreachRet code)
  else none

def answerAt (p : Probe) (m : Int → UInt8) (n : Int) : Option Int :=
  if Own p m n then verdict (m (hlen m 0)) (m (hlen m 0 + 1)) else none

/-- the datagram `bs` alone -/
def answer (p : Probe) (bs : Datagram) : Option Int := answerAt p bs.mem bs.length

/-- ignored, or returned -/
def Pc.after : Option Int → Pc
  | none => .head
  | some ret => .returned ret

/-- a datagram is taken for what it is -/
def Answered (p : Probe) (_ : State) (e : Event) (t : State) : Prop :=
  ∀ bs, e = .datagram bs → t.pc = Pc.after (answer p bs)

/-! ## what a datagram leaves -/

/-- an `ICMP_UNREACH` in the `n` bytes at 0 -/
def UnreachAt (m : Int → UInt8) (n : Int) : Prop := 8 ≤ n - hlen m 0 ∧ m (hlen m 0) = ICMP_UNREACH

instance (m : Int → UInt8) (n : Int) : Decidable (UnreachAt m n) :=
  inferInstanceAs (Decidable (_ ∧ _))

def Datagram.Unreach (bs : Datagram) : Prop := UnreachAt bs.mem bs.length

instance (bs : Datagram) : Decidable bs.Unreach := inferInstanceAs (Decidable (UnreachAt _ _))

/-- a time-exceeded message in the `n` bytes at 0, with all of a quoted header of 20 bytes -/
def ExceededAt (m : Int → UInt8) (n : Int) : Prop :=
  8 + sizeofIp ≤ n - hlen m 0 ∧ m (hlen m 0) = ICMP_TIMXCEED ∧
    m (hlen m 0 + 1) = ICMP_TIMXCEED_INTRANS

instance (m : Int → UInt8) (n : Int) : Decidable (ExceededAt m n) :=
  inferInstanceAs (Decidable (_ ∧ _))

/-- what a datagram puts into `hip` and `hlen2` -/
def setsAt (m : Int → UInt8) (n : Int) : Option Place :=
  if ExceededAt m n then some (placeAt m) else none

def Datagram.sets (bs : Datagram) : Option Place := setsAt bs.mem bs.length

variable {p : Probe} {s : State} {m m' buf : Int → UInt8} {n : Int} {bs : Datagram} {q : Place}

/-! ## lengths -/

theorem hlen_nonneg (m : Int → UInt8) (off : Int) : 0 ≤ hlen m off := by
  unfold hlen
  omega

theorem hlen_le (m : Int → UInt8) (off : Int) : hlen m off ≤ 60 := by
  unfold hlen
  omega

theorem sizeofIp_eq : sizeofIp = 20 := rfl

theorem toInt_hlen (m : Int → UInt8) (off : Int) :
    (Int32.ofInt (hlen m off)).toInt = hlen m off := by
  have hpos := hlen_nonneg m off
  have hle := hlen_le m off
  exact Int32.toInt_ofInt_of_le (by omega) (by omega)

theorem Datagram.length_pos (bs : Datagram) : 0 < bs.length := by
  have hmin := bs.min
  unfold Datagram.length
  omega

theorem Datagram.length_le (bs : Datagram) : bs.length ≤ BUFSIZE := Int.ofNat_le.mpr bs.le

/-! ## what depends on which bytes -/

theorem hlen_congr {off : Int} (h : m' off = m off) : hlen m' off = hlen m off := by
  unfold hlen
  rw [h]

theorem quotes_congr {hip udp : Int} (hproto : m' (hip + 9) = m (hip + 9))
    (hports : ∀ k, 0 ≤ k → k < 4 → m' (udp + k) = m (udp + k)) :
    Quotes p m' hip udp ↔ Quotes p m hip udp := by
  have h0 := hports 0 (by decide) (by decide)
  have h1 := hports 1 (by decide) (by decide)
  have h2 := hports 2 (by decide) (by decide)
  have h3 := hports 3 (by decide) (by decide)
  rw [Int.add_zero] at h0
  have h3' : m' (udp + 2 + 1) = m (udp + 2 + 1) := by rw [Int.add_assoc]; exact h3
  unfold Quotes port
  rw [hproto, h0, h1, h2, h3']

/-- the ports are among the `n` bytes, the protocol need not be -/
theorem shown_congr (hn : 0 < n) (h : ∀ k, 0 ≤ k → k < n → m' k = m k)
    (hproto : m' (q.hip + 9) = m (q.hip + 9)) (hlen2 : 0 ≤ q.hlen2) :
    Shown p q m' n ↔ Shown p q m n := by
  have h1 : hlen m' 0 = hlen m 0 := hlen_congr (h 0 (by omega) hn)
  have hpos := hlen_nonneg m 0
  unfold Shown
  rw [h1]
  refine and_congr_right fun hports => ?_
  exact quotes_congr hproto (fun k hk0 hk4 => h _ (by omega) (by omega))

theorem placeAt_congr (hn : 0 < n) (h : ∀ k, 0 ≤ k → k < n → m' k = m k)
    (hlen : 8 + sizeofIp ≤ n - hlen m 0) : placeAt m' = placeAt m := by
  have hsize := sizeofIp_eq
  have hpos := hlen_nonneg m 0
  have h1 : Traceroute.hlen m' 0 = Traceroute.hlen m 0 := hlen_congr (h 0 (by omega) hn)
  unfold placeAt
  rw [h1, hlen_congr (h _ (by omega) (by omega))]

/-- a message quotes what is in it -/
theorem own_congr (hn : 0 < n) (h : ∀ k, 0 ≤ k → k < n → m' k = m k) :
    Own p m' n ↔ Own p m n := by
  have hsize := sizeofIp_eq
  have hpos := hlen_nonneg m 0
  have h1 : hlen m' 0 = hlen m 0 := hlen_congr (h 0 (by omega) hn)
  unfold Own
  rw [h1]
  refine and_congr_right fun hip => ?_
  have hproto : m' ((placeAt m).hip + 9) = m ((placeAt m).hip + 9) :=
    h (hlen m 0 + 8 + 9) (by omega) (by omega)
  rw [placeAt_congr hn h hip]
  exact shown_congr hn h hproto (hlen_nonneg m _)

theorem answerAt_congr (hn : 0 < n) (h : ∀ k, 0 ≤ k → k < n → m' k = m k) :
    answerAt p m' n = answerAt p m n := by
  have hsize := sizeofIp_eq
  have hown := own_congr (p := p) hn h
  have h1 : hlen m' 0 = hlen m 0 := hlen_congr (h 0 (by omega) hn)
  have hpos := hlen_nonneg m 0
  unfold answerAt
  by_cases ho : Own p m n
  · have hlen := ho.1
    rw [if_pos ho, if_pos (hown.mpr ho), h1, h _ (by omega) (by omega), h _ (by omega) (by omega)]
  · rw [if_neg ho, if_neg (fun hc => ho (hown.mp hc))]

theorem unreachAt_congr (hn : 0 < n) (h : ∀ k, 0 ≤ k → k < n → m' k = m k) :
    UnreachAt m' n ↔ UnreachAt m n := by
  have h1 : hlen m' 0 = hlen m 0 := hlen_congr (h 0 (by omega) hn)
  have hpos := hlen_nonneg m 0
  unfold UnreachAt
  rw [h1]
  exact and_congr_right fun hlen => by rw [h _ (by omega) (by omega)]

theorem setsAt_congr (hn : 0 < n) (h : ∀ k, 0 ≤ k → k < n → m' k = m k) :
    setsAt m' n = setsAt m n := by
  have hsize := sizeofIp_eq
  have h1 : hlen m' 0 = hlen m 0 := hlen_congr (h 0 (by omega) hn)
  have hpos := hlen_nonneg m 0
  have hexc : ExceededAt m' n ↔ ExceededAt m n := by
    unfold ExceededAt
    rw [h1]
    exact and_congr_right fun hlen => by rw [h _ (by omega) (by omega), h _ (by omega) (by omega)]
  unfold setsAt
  by_cases he : ExceededAt m n
  · rw [if_pos he, if_pos (hexc.mpr he), placeAt_congr hn h he.1]
  · rw [if_neg he, if_neg (fun hc => he (hexc.mp hc))]

/-- a datagram in `recvbuf` -/
theorem deliver_eq (buf : Int → UInt8) (bs : Datagram) {k : Int} (h0 : 0 ≤ k) (hn : k < bs.length) :
    deliver buf bs k = bs.mem k := if_pos ⟨h0, hn⟩

theorem deliver_congr {k : Int} (h : buf k = m k) : deliver buf bs k = deliver m bs k := by
  unfold deliver
  rw [h]

theorem answerAt_deliver (buf : Int → UInt8) (bs : Datagram) :
    answerAt p (deliver buf bs) bs.length = answer p bs :=
  answerAt_congr bs.length_pos (fun _ h0 hn => deliver_eq buf bs h0 hn)

/-! ## the tests -/

theorem look_recvbuf {k : Int} (h0 : 0 ≤ k) (hn : k < BUFSIZE) : s.look k = some (s.recvbuf k) :=
  if_pos ⟨h0, hn⟩

theorem port_recvbuf {off : Int} (h0 : 0 ≤ off) (hn : off + 1 < BUFSIZE) :
    s.port off = some (port s.recvbuf off) := by
  unfold State.port
  rw [look_recvbuf h0 (by omega), look_recvbuf (by omega) hn]
  rfl

theorem quotes_recvbuf {hip udp : Int} (hip0 : 0 ≤ hip) (hipn : hip + 9 < BUFSIZE) (udp0 : 0 ≤ udp)
    (udpn : udp + 3 < BUFSIZE) :
    s.quotes p hip udp = some (decide (Quotes p s.recvbuf hip udp)) := by
  unfold State.quotes Quotes
  rw [look_recvbuf (by omega) hipn, port_recvbuf udp0 (by omega),
    port_recvbuf (by omega) (by omega)]
  simp only [Option.bind_some, Option.map_some]
  by_cases hproto : s.recvbuf (hip + 9) = IPPROTO_UDP
  · rw [if_neg (fun hne => hne hproto)]
    by_cases hsport : port s.recvbuf udp = p.sport
    · rw [if_neg (fun hne => hne hsport)]
      simp [hproto, hsport]
    · rw [if_pos hsport]
      simp [hsport]
  · rw [if_pos hproto]
    simp [hproto]

/-- a quoted header that a datagram has named lies in `recvbuf` -/
theorem tests_recvbuf (hip0 : 0 ≤ s.hip) (hip : s.hip + 9 < BUFSIZE) (h0 : 0 ≤ s.hlen2.toInt)
    (h60 : s.hlen2.toInt ≤ 60) (hn : n ≤ BUFSIZE) :
    s.tests p (hlen s.recvbuf 0) (n - hlen s.recvbuf 0) =
      some (decide (Shown p ⟨s.hip, s.hlen2.toInt⟩ s.recvbuf n)) := by
  have hmax : INT_MAX = 2147483647 := rfl
  have hpos := hlen_nonneg s.recvbuf 0
  unfold State.tests
  rw [if_neg (by omega)]
  split
  · rename_i hports
    have hno : ¬ Shown p ⟨s.hip, s.hlen2.toInt⟩ s.recvbuf n :=
      fun hs => absurd hs.1 (Int.not_le.mpr hports)
    rw [decide_eq_false hno]
  · rename_i hports
    have hshown : Shown p ⟨s.hip, s.hlen2.toInt⟩ s.recvbuf n ↔
        Quotes p s.recvbuf s.hip (hlen s.recvbuf 0 + 8 + s.hlen2.toInt) :=
      and_iff_right (Int.not_lt.mp hports)
    rw [quotes_recvbuf hip0 hip (by omega) (by omega), decide_eq_decide.mpr hshown]

/-! ## the loop -/

theorem Own.icmplen (h : Own p m n) : ¬ n - hlen m 0 < 8 := by
  have hsize := sizeofIp_eq
  have hlen := h.1
  omega

theorem Pc.tested_decide (ret : Int) (P : Prop) [Decidable P] :
    Pc.tested ret (some (decide P)) = Pc.after (if P then some ret else none) := by
  by_cases hP : P
  · rw [decide_eq_true hP, if_pos hP]
    rfl
  · rw [decide_eq_false hP, if_neg hP]
    rfl

/-- the body of the loop but for its `continue`s and `break`s -/
theorem parse_frame (p : Probe) (s : State) (n : Int) :
    (s.parse p n).recvbuf = s.recvbuf ∧ (s.parse p n).around = s.around ∧
      (s.parse p n).gotalarm = s.gotalarm := by
  unfold State.parse
  dsimp only
  split_ifs <;> exact ⟨rfl, rfl, rfl⟩

/-- `hip` and `hlen2` are set by a time-exceeded message only -/
theorem parse_vars (p : Probe) (s : State) (n : Int) :
    (s.parse p n).hip = ((setsAt s.recvbuf n).map Place.hip).getD s.hip ∧
      (s.parse p n).hlen2.toInt = ((setsAt s.recvbuf n).map Place.hlen2).getD s.hlen2.toInt := by
  have hsize := sizeofIp_eq
  unfold State.parse setsAt
  dsimp only
  by_cases hlen8 : n - hlen s.recvbuf 0 < 8
  · have hno : ¬ ExceededAt s.recvbuf n := fun he => absurd he.1 (by omega)
    rw [if_pos hlen8, if_neg hno]
    exact ⟨rfl, rfl⟩
  rw [if_neg hlen8]
  by_cases htype : s.recvbuf (hlen s.recvbuf 0) = ICMP_TIMXCEED ∧
      s.recvbuf (hlen s.recvbuf 0 + 1) = ICMP_TIMXCEED_INTRANS
  · rw [if_pos htype]
    by_cases hip : n - hlen s.recvbuf 0 < 8 + sizeofIp
    · have hno : ¬ ExceededAt s.recvbuf n := fun he => absurd he.1 (Int.not_le.mpr hip)
      rw [if_pos hip, if_neg hno]
      exact ⟨rfl, rfl⟩
    · have hyes : ExceededAt s.recvbuf n := ⟨Int.not_lt.mp hip, htype⟩
      rw [if_neg hip, if_pos hyes]
      exact ⟨rfl, toInt_hlen _ _⟩
  · have hno : ¬ ExceededAt s.recvbuf n := fun he => htype he.2
    rw [if_neg htype, if_neg hno]
    split <;> exact ⟨rfl, rfl⟩

/-- the branch of `ICMP_TIMXCEED` -/
theorem parse_timxceed (hn : n ≤ BUFSIZE) (hlen8 : ¬ n - hlen s.recvbuf 0 < 8)
    (htype : s.recvbuf (hlen s.recvbuf 0) = ICMP_TIMXCEED ∧
      s.recvbuf (hlen s.recvbuf 0 + 1) = ICMP_TIMXCEED_INTRANS) :
    (s.parse p n).pc = Pc.after (answerAt p s.recvbuf n) := by
  have hsize := sizeofIp_eq
  have hpos := hlen_nonneg s.recvbuf 0
  have hpos2 := hlen_nonneg s.recvbuf (hlen s.recvbuf 0 + 8)
  have hle2 := hlen_le s.recvbuf (hlen s.recvbuf 0 + 8)
  have hans : answerAt p s.recvbuf n = if Own p s.recvbuf n then some (-2) else none := by
    unfold answerAt verdict
    rw [if_pos htype]
  rw [hans]
  unfold State.parse
  dsimp only
  rw [if_neg hlen8, if_pos htype]
  split
  · rename_i hip
    rw [if_neg (fun ho => absurd ho.1 (Int.not_le.mpr hip))]
    rfl
  · rename_i hip
    have htests := tests_recvbuf (p := p) (n := n)
      (s := { s with
        hip := hlen s.recvbuf 0 + 8, hlen2 := .ofInt (hlen s.recvbuf (hlen s.recvbuf 0 + 8)) })
      (by dsimp only; omega) (by dsimp only; omega) (by rw [toInt_hlen]; omega)
      (by rw [toInt_hlen]; omega) hn
    dsimp only at htests ⊢
    rw [htests, Pc.tested_decide, toInt_hlen]
    have hown : Own p s.recvbuf n ↔ Shown p (placeAt s.recvbuf) s.recvbuf n :=
      and_iff_right (Int.not_lt.mp hip)
    exact congrArg Pc.after (if_congr hown.symm rfl rfl)

/-- the branch of `ICMP_UNREACH` -/
theorem parse_unreach (h : UnreachAt s.recvbuf n) :
    (s.parse p n).pc = Pc.tested (unreachRet (s.recvbuf (hlen s.recvbuf 0 + 1)))
      (s.tests p (hlen s.recvbuf 0) (n - hlen s.recvbuf 0)) := by
  obtain ⟨hlen8, htype⟩ := h
  have hne : ¬ (s.recvbuf (hlen s.recvbuf 0) = ICMP_TIMXCEED ∧
      s.recvbuf (hlen s.recvbuf 0 + 1) = ICMP_TIMXCEED_INTRANS) := by
    rw [htype]
    exact fun hc => absurd hc.1 (by decide)
  unfold State.parse
  dsimp only
  rw [if_neg (Int.not_lt.mpr hlen8), if_neg hne, if_pos htype]

theorem answerAt_unreach (h : UnreachAt m n) :
    answerAt p m n = if Own p m n then some (unreachRet (m (hlen m 0 + 1))) else none := by
  have hne : ICMP_UNREACH ≠ ICMP_TIMXCEED := by decide
  unfold answerAt verdict
  rw [h.2, if_neg (c := ICMP_UNREACH = ICMP_TIMXCEED ∧ _) (fun hc => hne hc.1), if_pos rfl]

/-- what is not unreachable does not meet `hip` or `hlen2` -/
theorem parse_pc (hn : n ≤ BUFSIZE) (h : ¬ UnreachAt s.recvbuf n) :
    (s.parse p n).pc = Pc.after (answerAt p s.recvbuf n) := by
  by_cases hlen8 : n - hlen s.recvbuf 0 < 8
  · have hans : answerAt p s.recvbuf n = none := if_neg (fun ho => ho.icmplen hlen8)
    unfold State.parse
    dsimp only
    rw [if_pos hlen8, hans]
    rfl
  by_cases htype : s.recvbuf (hlen s.recvbuf 0) = ICMP_TIMXCEED ∧
      s.recvbuf (hlen s.recvbuf 0 + 1) = ICMP_TIMXCEED_INTRANS
  · exact parse_timxceed hn hlen8 htype
  · have hunreach : s.recvbuf (hlen s.recvbuf 0) ≠ ICMP_UNREACH :=
      fun hu => h ⟨Int.not_lt.mp hlen8, hu⟩
    have hans : answerAt p s.recvbuf n = none := by
      unfold answerAt verdict
      rw [if_neg htype, if_neg hunreach, ite_self]
    unfold State.parse
    dsimp only
    rw [if_neg hlen8, if_neg htype, if_neg hunreach, hans]
    rfl

end Unp.Traceroute
