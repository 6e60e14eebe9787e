import NetworkProgram.Ping.Impl
import NetworkProgram.Cksum.Verify

/-!
# The round trip of ping

The packet of `send_v4` comes back as an echo reply, behind an IP header, and `proc_v4` takes it.

* `sendV4_eq`            the packet, field by field;
* `longOf_longBytes`     a `long` is taken out of memory as it was stored;
* `procV4_echoReply`     what is printed.
-/

namespace Unp.Ping
open Peek

variable {e : Endian}

/-! ## a long in memory -/

/-- the lower `n` bytes of `w`, put together -/
theorem foldr_bytes (n w : Nat) :
    ((List.range n).map (fun i => w / 256 ^ i % 256)).foldr (fun b x => b + 256 * x) 0 =
      w % 256 ^ n := by
  induction n generalizing w with
  | zero => rw [pow_zero, Nat.mod_one]; rfl
  | succ n ih =>
    have hrest : (fun i => w / 256 ^ i % 256) ∘ Nat.succ = fun i => w / 256 / 256 ^ i % 256 := by
      funext i
      rw [Function.comp_apply, Nat.pow_succ', Nat.div_div_eq_div_mul]
    rw [List.range_succ_eq_map, List.map_cons, List.map_map, hrest, List.foldr_cons, ih, pow_zero,
      Nat.div_one, Nat.pow_succ', Nat.mod_mul]

theorem shiftRight_toUInt8 (w : UInt64) {i : Nat} (hi : i < 8) :
    (w >>> UInt64.ofNat (8 * i)).toUInt8.toNat = w.toNat / 256 ^ i % 256 := by
  have hshift : (UInt64.ofNat (8 * i)).toNat % 64 = 8 * i := by
    rw [UInt64.toNat_ofNat_of_lt' (by show _ < 18446744073709551616; omega)]
    omega
  rw [UInt64.toNat_toUInt8, UInt64.toNat_shiftRight, hshift, Nat.shiftRight_eq_div_pow, pow_mul]
  rfl

theorem longOf_foldr (w : UInt64) :
    ((List.range 8).map (fun i => (w >>> UInt64.ofNat (8 * i)).toUInt8)).foldr
      (fun b x => b.toNat + 256 * x) 0 = w.toNat := by
  have hbytes : (List.range 8).map (fun i => (w >>> UInt64.ofNat (8 * i)).toUInt8.toNat) =
      (List.range 8).map (fun i => w.toNat / 256 ^ i % 256) :=
    List.map_congr_left (fun i hi => shiftRight_toUInt8 w (List.mem_range.mp hi))
  have hlt : w.toNat < 256 ^ 8 := w.toNat_lt
  have hfold := foldr_bytes 8 w.toNat
  rw [← hbytes, Nat.mod_eq_of_lt hlt, List.foldr_map] at hfold
  rw [List.foldr_map]
  exact hfold

/-- the values of a `long` -/
def IsLong (x : Int) : Prop := -9223372036854775808 ≤ x ∧ x < 9223372036854775808

theorem longOf_longBytes {x : Int} (h : IsLong x) : longOf e (longBytes e x) = x := by
  have hfold := longOf_foldr (UInt64.ofInt x)
  have hval : (UInt64.ofInt x).toNat = (x % 18446744073709551616).toNat := by
    show (UInt64.ofNat (x % 18446744073709551616).toNat).toNat = _
    exact UInt64.toNat_ofNat_of_lt' (by show _ < 18446744073709551616; omega)
  have hsize : UInt64.size = 18446744073709551616 := rfl
  have hmod : Int.bmod ((UInt64.ofInt x).toNat : Nat) UInt64.size = x := by
    obtain ⟨hlo, hhi⟩ := h
    rw [hval, hsize, Int.bmod_def]
    split <;> omega
  unfold longOf longBytes
  cases e with
  | little =>
    dsimp only
    rw [hfold, hmod]
  | big =>
    dsimp only
    rw [List.reverse_reverse, hfold, hmod]

theorem longBytes_length (e : Endian) (x : Int) : (longBytes e x).length = 8 := by
  cases e <;> rfl

theorem timevalBytes_length (e : Endian) (tv : Timeval) : (tv.bytes e).length = 16 := by
  rw [Timeval.bytes, List.length_append, longBytes_length, longBytes_length]

/-! ## the packet -/

/-- an ICMP echo message: type, code 0, checksum, id, sequence number and data, which begins with a time
stamp -/
def echoMsg (e : Endian) (type c0 c1 : UInt8) (id seq : UInt16) (tv : Timeval) (fill : List UInt8) :
    List UInt8 :=
  [type, 0, c0, c1] ++ wordBytes e id ++ wordBytes e seq ++ tv.bytes e ++ fill

/-- the host answers: the type is changed and the checksum recomputed -/
def echoReply (e : Endian) (icmp : List UInt8) : List UInt8 :=
  let icmp := Mem.poke icmp 0 [ICMP_ECHOREPLY]
  let icmp := store16 e icmp 2 0
  store16 e icmp 2 (inCksum e icmp)

/-- the data: the fill pattern, a time stamp over it, and the end of the buffer cut off -/
theorem stamped_fill {stamp rest : List UInt8} {n k : Nat} {x : UInt8} (hk : stamp.length = k)
    (h : k ≤ n) :
    (stamp ++ (List.replicate n x ++ rest).drop k).take n = stamp ++ List.replicate (n - k) x := by
  have hdrop : (List.replicate n x ++ rest).drop k = List.replicate (n - k) x ++ rest := by
    rw [List.drop_append_of_le_length (by rw [List.length_replicate]; exact h), List.drop_replicate]
  have hlen : (stamp ++ List.replicate (n - k) x).length = n := by
    rw [List.length_append, List.length_replicate, hk]
    omega
  rw [hdrop, ← List.append_assoc, List.take_left' hlen]

theorem eight_cons {bs : List UInt8} (h : 8 ≤ bs.length) :
    ∃ b0 b1 b2 b3 b4 b5 b6 b7 rest, bs = b0 :: b1 :: b2 :: b3 :: b4 :: b5 :: b6 :: b7 :: rest := by
  match bs, h with
  | b0 :: b1 :: b2 :: b3 :: b4 :: b5 :: b6 :: b7 :: rest, _ =>
    exact ⟨b0, b1, b2, b3, b4, b5, b6, b7, rest, rfl⟩

/-- the data has room for a time stamp, and `sendbuf` for the data (`main` sets `datalen` to 56) -/
structure Roomy (sendbuf : List UInt8) (datalen : Nat) : Prop where
  length : sendbuf.length = BUFSIZE
  stamp : sizeofTimeval ≤ datalen
  fit : 8 + datalen ≤ BUFSIZE

theorem sendV4_eq (e : Endian) {sendbuf : List UInt8} {datalen : Nat} (h : Roomy sendbuf datalen)
    (pid nsent : Nat) (now : Timeval) :
    ∃ c0 c1, sendV4 e sendbuf pid nsent datalen now =
      echoMsg e ICMP_ECHO c0 c1 (UInt16.ofNat pid) (UInt16.ofNat nsent) now
        (List.replicate (datalen - sizeofTimeval) 0xa5) := by
  have hsize : BUFSIZE = 1500 := rfl
  have h16 := sizeofTimeval_eq
  have hnow := timevalBytes_length e now
  have hbuf := h.length
  obtain ⟨b0, b1, b2, b3, b4, b5, b6, b7, rest, rfl⟩ := eight_cons (show 8 ≤ sendbuf.length by omega)
  obtain ⟨i0, i1, hi, _⟩ := word_wordBytes e (UInt16.ofNat pid)
  obtain ⟨s0, s1, hs, _⟩ := word_wordBytes e (UInt16.ofNat nsent)
  obtain ⟨z0, z1, hz, _⟩ := word_wordBytes e 0
  unfold sendV4 echoMsg store16
  dsimp only
  rw [hi, hs, hz]
  generalize inCksum e _ = sum
  obtain ⟨c0, c1, hc, _⟩ := word_wordBytes e sum
  rw [hc]
  refine ⟨c0, c1, ?_⟩
  simp only [Mem.poke, List.take_succ_cons, List.take_zero, List.drop_succ_cons, List.drop_zero,
    List.length_cons, List.length_nil, List.cons_append, List.nil_append, Nat.zero_add, Nat.reduceAdd,
    List.length_replicate, hnow, Nat.add_comm 8]
  rw [h16, stamped_fill hnow h.stamp]

theorem echoReply_eq (e e' : Endian) (type c0 c1 : UInt8) (id seq : UInt16) (tv : Timeval)
    (fill : List UInt8) :
    ∃ r0 r1, echoReply e' (echoMsg e type c0 c1 id seq tv fill) =
      echoMsg e ICMP_ECHOREPLY r0 r1 id seq tv fill := by
  obtain ⟨i0, i1, hi, _⟩ := word_wordBytes e id
  obtain ⟨s0, s1, hs, _⟩ := word_wordBytes e seq
  obtain ⟨z0, z1, hz, _⟩ := word_wordBytes e' 0
  unfold echoReply echoMsg store16
  dsimp only
  rw [hi, hs, hz]
  generalize inCksum e' _ = sum
  obtain ⟨r0, r1, hr, _⟩ := word_wordBytes e' sum
  rw [hr]
  exact ⟨r0, r1, rfl⟩

theorem echoMsg_length {type c0 c1 : UInt8} {id seq : UInt16} {tv : Timeval} {fill : List UInt8} :
    (echoMsg e type c0 c1 id seq tv fill).length = 24 + fill.length := by
  unfold echoMsg
  simp only [List.length_append, List.length_cons, List.length_nil, wordBytes_length,
    timevalBytes_length]

/-! ## proc_v4 -/

/-- an IPv4 header of `ihl` words -/
structure IpHeader where
  bytes : List UInt8
  ihl : bytes.length = (bytes.getD 0 0).toNat % 16 * 4
  min : 20 ≤ bytes.length
  proto : bytes.getD 9 0 = IPPROTO_ICMP

/-- a packet in `recvbuf`, which holds anything behind it -/
def received (packet : List UInt8) (rest : Nat → UInt8) : Nat → UInt8 :=
  fun k => if k < packet.length then packet.getD k 0 else rest k

variable {rest : Nat → UInt8} {ip : IpHeader} {msg : List UInt8}

theorem received_ip {k : Nat} (h : k < ip.bytes.length) :
    received (ip.bytes ++ msg) rest k = ip.bytes.getD k 0 := by
  have hlt : k < (ip.bytes ++ msg).length := by rw [List.length_append]; omega
  unfold received
  rw [if_pos hlt, List.getD_append _ _ _ _ h]

theorem received_msg {k : Nat} (h : k < msg.length) :
    received (ip.bytes ++ msg) rest (ip.bytes.length + k) = msg.getD k 0 := by
  have hlt : ip.bytes.length + k < (ip.bytes ++ msg).length := by rw [List.length_append]; omega
  unfold received
  rw [if_pos hlt, List.getD_append_right _ _ _ _ (Nat.le_add_right _ _), Nat.add_sub_cancel_left]

theorem hlen1_received : hlen1 (received (ip.bytes ++ msg) rest) = ip.bytes.length := by
  have hmin := ip.min
  unfold hlen1
  rw [received_ip (by omega), ← ip.ihl]

/-- eight bytes of the message -/
theorem longAt_received {off : Nat} (before bs after : List UInt8)
    (hmsg : msg = before ++ bs ++ after) (hoff : before.length = off) (hlen : bs.length = 8) :
    longAt e (received (ip.bytes ++ msg) rest) (ip.bytes.length + off) = longOf e bs := by
  have hbytes : ((List.range 8).map (ip.bytes.length + off + ·)).map
      (received (ip.bytes ++ msg) rest) = bs := by
    refine List.ext_getElem (by simp [hlen]) fun k hk hk' => ?_
    have hin : off + k < msg.length := by
      rw [hmsg, List.length_append, List.length_append]
      omega
    rw [List.getElem_map, List.getElem_map, List.getElem_range, Nat.add_assoc, received_msg hin, hmsg,
      List.append_assoc, List.getD_append_right _ _ _ _ (by omega), hoff, Nat.add_sub_cancel_left,
      List.getD_append _ _ _ _ hk', List.getD_eq_getElem _ _ hk']
  unfold longAt
  rw [hbytes]

theorem halfAt_received {off : Nat} {w : UInt16} (before after : List UInt8)
    (hmsg : msg = before ++ wordBytes e w ++ after) (hoff : before.length = off) :
    halfAt e (received (ip.bytes ++ msg) rest) (ip.bytes.length + off) = w := by
  obtain ⟨w0, w1, hw, hword⟩ := word_wordBytes e w
  have hlen : off + 2 ≤ msg.length := by
    rw [hmsg, hw, List.length_append, List.length_append, hoff]
    exact Nat.le_add_right _ _
  have hget : ∀ k, k < 2 → msg.getD (off + k) 0 = [w0, w1].getD k 0 := by
    intro k hk
    rw [hmsg, hw, List.append_assoc, List.getD_append_right _ _ _ _ (by omega), hoff,
      Nat.add_sub_cancel_left, List.getD_append _ _ _ _ hk]
  have h0 := hget 0 (by decide)
  rw [Nat.add_zero] at h0
  unfold halfAt
  rw [Nat.add_assoc, received_msg (by omega), received_msg (by omega), h0, hget 1 (by decide)]
  exact hword

/-- the borrow of `tv_sub` does not change the value -/
theorem rttOf_eq (tvrecv tvsend : Timeval) :
    rttOf tvrecv tvsend = ((tvrecv.micros - tvsend.micros : Int) : Rat) / 1000 := by
  unfold rttOf tvSub Timeval.micros
  dsimp only
  split
  · push_cast
    ring
  · push_cast
    ring

/-- an echo reply to another process -/
theorem procV4_other {verbose : Bool} {pid : Int} {len : Nat} {tvrecv : Timeval} {m : Nat → UInt8}
    (htype : m (hlen1 m) = ICMP_ECHOREPLY) (hid : ((halfAt e m (hlen1 m + 4)).toNat : Int) ≠ pid) :
    (procV4 e verbose pid len tvrecv).run m = none := by
  rw [procV4_run, if_pos htype, if_pos hid, ite_self, ite_self]

theorem procV4_echoMsg {verbose : Bool} {pid : Int} {tvrecv tv : Timeval} {c0 c1 : UInt8}
    {id seq : UInt16} {fill : List UInt8} (hid : (id.toNat : Int) = pid) (htv : tv.Normal)
    (hlong : IsLong tv.tvSec)
    (hmsg : msg = echoMsg e ICMP_ECHOREPLY c0 c1 id seq tv fill) :
    (procV4 e verbose pid (ip.bytes ++ msg).length tvrecv).run (received (ip.bytes ++ msg) rest) =
      some (.reply msg.length seq (ip.bytes.getD 8 0)
        (((tvrecv.micros - tv.micros : Int) : Rat) / 1000)) := by
  have hmin := ip.min
  have hlen : msg.length = 24 + fill.length := by rw [hmsg, echoMsg_length]
  have hicmplen : ((ip.bytes ++ msg).length : Int) - ip.bytes.length = msg.length := by
    rw [List.length_append]
    omega
  have hproto : received (ip.bytes ++ msg) rest 9 = IPPROTO_ICMP := by
    rw [received_ip (by omega), ip.proto]
  have htype : received (ip.bytes ++ msg) rest ip.bytes.length = ICMP_ECHOREPLY := by
    have hget : received (ip.bytes ++ msg) rest (ip.bytes.length + 0) = msg.getD 0 0 :=
      received_msg (by omega)
    rw [Nat.add_zero] at hget
    rw [hget, hmsg]
    rfl
  have hidAt : halfAt e (received (ip.bytes ++ msg) rest) (ip.bytes.length + 4) = id :=
    halfAt_received [ICMP_ECHOREPLY, 0, c0, c1] (wordBytes e seq ++ tv.bytes e ++ fill)
      (by rw [hmsg, echoMsg]; simp only [List.append_assoc]) rfl
  have hseqAt : halfAt e (received (ip.bytes ++ msg) rest) (ip.bytes.length + 6) = seq :=
    halfAt_received ([ICMP_ECHOREPLY, 0, c0, c1] ++ wordBytes e id) (tv.bytes e ++ fill)
      (by rw [hmsg, echoMsg]; simp only [List.append_assoc])
      (by rw [List.length_append, wordBytes_length]; rfl)
  have hsec : longAt e (received (ip.bytes ++ msg) rest) (ip.bytes.length + 8) = tv.tvSec := by
    rw [longAt_received ([ICMP_ECHOREPLY, 0, c0, c1] ++ wordBytes e id ++ wordBytes e seq)
      (longBytes e tv.tvSec) (longBytes e tv.tvUsec ++ fill)
      (by rw [hmsg, echoMsg, Timeval.bytes]; simp only [List.append_assoc])
      (by rw [List.length_append, List.length_append, wordBytes_length, wordBytes_length]; rfl)
      (longBytes_length e _)]
    exact longOf_longBytes hlong
  have husec : longAt e (received (ip.bytes ++ msg) rest) (ip.bytes.length + 8 + 8) =
      tv.tvUsec := by
    rw [Nat.add_assoc, longAt_received ([ICMP_ECHOREPLY, 0, c0, c1] ++ wordBytes e id ++
      wordBytes e seq ++ longBytes e tv.tvSec) (longBytes e tv.tvUsec) fill
      (by rw [hmsg, echoMsg, Timeval.bytes]; simp only [List.append_assoc])
      (by rw [List.length_append, List.length_append, List.length_append, wordBytes_length,
        wordBytes_length, longBytes_length]; rfl)
      (longBytes_length e _)]
    exact longOf_longBytes ⟨by have h0 := htv.1; omega, by have h1 := htv.2; omega⟩
  have httl : received (ip.bytes ++ msg) rest 8 = ip.bytes.getD 8 0 := received_ip (by omega)
  rw [procV4_run, hlen1_received, hicmplen, hidAt, hseqAt, hsec, husec, httl,
    if_neg (not_not.mpr hproto), if_neg (by omega), if_pos htype, if_neg (not_not.mpr hid),
    if_neg (by omega), rttOf_eq]

/-- **The round trip.**  The packet of `send_v4`, answered, behind an IP header of any length, is taken
by `proc_v4` of the same process: it prints the length and the sequence number that were sent, and the
time from sending to receiving.  An echo reply with another id prints nothing. -/
theorem procV4_echoReply (e e' : Endian) (verbose : Bool) (sendbuf : List UInt8)
    (getpid nsent datalen : Nat) (tvsend tvrecv : Timeval) (ip : IpHeader) (rest : Nat → UInt8)
    (hroom : Roomy sendbuf datalen) (hsend : tvsend.Normal) (hlong : IsLong tvsend.tvSec) :
    let pid := getpid % 65536
    let packet := ip.bytes ++ echoReply e' (sendV4 e sendbuf pid nsent datalen tvsend)
    (procV4 e verbose pid packet.length tvrecv).run (received packet rest) =
      some (.reply (8 + datalen) (UInt16.ofNat nsent) (ip.bytes.getD 8 0)
        (((tvrecv.micros - tvsend.micros : Int) : Rat) / 1000)) ∧
    ∀ (len : Nat) (m : Nat → UInt8), m (hlen1 m) = ICMP_ECHOREPLY →
      (halfAt e m (hlen1 m + 4)).toNat ≠ pid → (procV4 e verbose pid len tvrecv).run m = none := by
  intro pid packet
  constructor
  · obtain ⟨c0, c1, hsent⟩ := sendV4_eq e hroom pid nsent tvsend
    obtain ⟨r0, r1, hreply⟩ := echoReply_eq e e' ICMP_ECHO c0 c1 (UInt16.ofNat pid)
      (UInt16.ofNat nsent) tvsend (List.replicate (datalen - sizeofTimeval) 0xa5)
    rw [← hsent] at hreply
    have hpid : ((UInt16.ofNat pid).toNat : Int) = pid := by
      rw [UInt16.toNat_ofNat_of_lt' (Nat.mod_lt _ (by decide))]
    have hstamp := hroom.stamp
    have h16 := sizeofTimeval_eq
    have hlen : ((echoReply e' (sendV4 e sendbuf pid nsent datalen tvsend)).length : Int) =
        8 + datalen := by
      rw [hreply, echoMsg_length, List.length_replicate]
      omega
    rw [← hlen]
    exact procV4_echoMsg hpid hsend hlong hreply
  · intro len m htype hid
    exact procV4_other htype (by omega)

/-- an IP header without options, of TTL 64 -/
def plainIp : IpHeader where
  bytes := [0x45, 0, 0, 84, 0, 0, 0, 0, 64, 1, 0, 0, 10, 0, 0, 2, 10, 0, 0, 1]
  ihl := rfl
  min := by decide
  proto := rfl

/-- process 70000 and its 65538th packet: the id is 4464, the sequence number 1, and the microseconds
borrow -/
theorem procV4_echoReply_borrow :
    let packet := plainIp.bytes ++ echoReply .big (sendV4 .little (List.replicate BUFSIZE 0)
      (70000 % 65536) 65537 56 ⟨10, 900000⟩)
    (procV4 .little false (70000 % 65536 : Nat) packet.length ⟨11, 100000⟩).run
      (received packet (fun _ => 0)) = some (.reply (8 + (56 : Nat)) 1 64 200) := by
  intro packet
  have hreply := (procV4_echoReply .little .big false (List.replicate BUFSIZE 0) 70000 65537 56
    ⟨10, 900000⟩ ⟨11, 100000⟩ plainIp (fun _ => 0) ⟨List.length_replicate, by decide, by decide⟩
    ⟨by decide, by decide⟩ ⟨by decide, by decide⟩).1
  have hrtt : ((Timeval.micros ⟨11, 100000⟩ - Timeval.micros ⟨10, 900000⟩ : Int) : Rat) / 1000 =
      200 := by norm_num [Timeval.micros]
  rw [hrtt] at hreply
  exact hreply

end Unp.Ping
