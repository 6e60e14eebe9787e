import NetworkProgram.Sys

/-!
# The retransmission timer

`rtt.cpp` and `unprtt.h`, with the `float` fields as rationals.  `rtt_debug` is left out.
-/

namespace Unp

def RTT_RXTMIN : Rat := 2
def RTT_RXTMAX : Rat := 60
def RTT_MAXNREXMT : Nat := 3

structure RttInfo where
  rttRtt : Rat
  rttSrtt : Rat
  rttRttvar : Rat
  rttRto : Rat
  rttNrexmt : Nat
  rttBase : UInt32

/-- `RTT_RTOCALC` -/
def RttInfo.rtocalc (ptr : RttInfo) : Rat := ptr.rttSrtt + 4 * ptr.rttRttvar

def rttMinmax (rto : Rat) : Rat :=
  if rto < RTT_RXTMIN then RTT_RXTMIN else if rto > RTT_RXTMAX then RTT_RXTMAX else rto

def rttInit (ptr : RttInfo) (tv : Timeval) : RttInfo :=
  let ptr := { ptr with
    rttBase := UInt32.ofInt tv.tvSec, rttRtt := 0, rttSrtt := 0, rttRttvar := 3 / 4 }
  { ptr with rttRto := rttMinmax ptr.rtocalc }

def rttTs (ptr : RttInfo) (tv : Timeval) : UInt32 :=
  UInt32.ofInt ((tv.tvSec - ptr.rttBase.toNat) * 1000 + tv.tvUsec.tdiv 1000)

def rttNewpack (ptr : RttInfo) : RttInfo := { ptr with rttNrexmt := 0 }

/-- `(int) (rto + 0.5)` -/
def rttStart (ptr : RttInfo) : Int :=
  let x := ptr.rttRto + 1 / 2
  x.num.tdiv x.den

def rttStop (ptr : RttInfo) (ms : UInt32) : RttInfo :=
  let ptr := { ptr with rttRtt := ms.toNat / 1000 }
  let delta := ptr.rttRtt - ptr.rttSrtt
  let ptr := { ptr with rttSrtt := ptr.rttSrtt + delta / 8 }
  let delta := if delta < 0 then -delta else delta
  let ptr := { ptr with rttRttvar := ptr.rttRttvar + (delta - ptr.rttRttvar) / 4 }
  { ptr with rttRto := rttMinmax ptr.rtocalc }

def rttTimeout (ptr : RttInfo) : Int × RttInfo :=
  let ptr := { ptr with rttRto := ptr.rttRto * 2 }
  let ptr := { ptr with rttNrexmt := ptr.rttNrexmt + 1 }
  (if ptr.rttNrexmt > RTT_MAXNREXMT then -1 else 0, ptr)

theorem rttTimeout_ret (ptr : RttInfo) :
    (rttTimeout ptr).1 < 0 ↔ RTT_MAXNREXMT ≤ ptr.rttNrexmt := by
  unfold rttTimeout
  dsimp only
  split <;> omega

end Unp
