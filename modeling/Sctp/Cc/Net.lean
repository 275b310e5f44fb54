import Sctp.Lib.Checked
import Sctp.Tsn

/-! Congestion control: what its modules keep for a destination and for the association. Words of 32
bits are numbers below `2 ^ 32`. -/
namespace Sctp.Cc

def u32 (n : ℕ) : ℕ := n % 2 ^ 32

def u64 (n : ℕ) : ℕ := n % 2 ^ 64

/-- An `int` with the bits of a word. -/
def toInt (n : ℕ) : ℤ := if n % 2 ^ 32 < 2 ^ 31 then (n % 2 ^ 32 : ℕ) else (n % 2 ^ 32 : ℕ) - 2 ^ 32

def sub32 (a b : ℕ) : Checked ℕ := Checked.sub 32 a b

theorem u32_of_lt {n : ℕ} (h : n < 2 ^ 32) : u32 n = n := Nat.mod_eq_of_lt h

theorem u32_lt (n : ℕ) : u32 n < 2 ^ 32 := Nat.mod_lt n (by norm_num)

theorem u32_le (n : ℕ) : u32 n ≤ n := Nat.mod_le n _

theorem sub32_val_of_le {a b : ℕ} (hle : b ≤ a) (ha : a < 2 ^ 32) : (sub32 a b).val = a - b :=
  Checked.sub_val_of_le hle ha

@[simp] theorem sub32_ok (a b : ℕ) : (sub32 a b).ok = true ↔ b ≤ a := Checked.sub_ok 32 a b

/-- `sizeof(struct sctphdr)`. -/
def sctphdrLen : ℕ := 12

def initialCwndBytes : ℕ := 4380

/-- `asoc.sctp_cmt_on_off`. -/
inductive CmtOnOff
  | off
  | base
  | rpv1
  | rpv2
  | mptcp
deriving DecidableEq, Repr

/-- `sctp_cmt_on_off > 0`. -/
def CmtOnOff.isOn : CmtOnOff → Bool
  | .off => false
  | _ => true

/-- The two variants that pool the windows of all destinations. -/
def CmtOnOff.isRp : CmtOnOff → Bool
  | .rpv1 => true
  | .rpv2 => true
  | _ => false

/-- `struct rtcc_cc`. -/
structure Rtcc where
  lbw : ℕ
  lbwRtt : ℕ
  bwBytes : ℕ
  newTotTime : ℕ
  bwBytesAtLastRttc : ℕ
  cwndAtBwSet : ℕ
  volReduce : ℕ
  steadyStep : ℕ
  stepCnt : ℕ
  retFromEq : Bool
  useDcccEcn : Bool
  tlsNeedsSet : ℕ
  lastStepState : ℕ
  rttSetThisSack : Bool
  lastInstInd : ℕ
deriving DecidableEq, Repr

/-- `struct htcp`. -/
structure Htcp where
  alpha : ℕ
  beta : ℕ
  modeswitch : Bool
  lastCong : ℕ
  undoLastCong : ℕ
  bytesAcked : ℕ
  bytecount : ℕ
  minRTT : ℕ
  maxRTT : ℕ
  undoMaxRTT : ℕ
  undoOldMaxB : ℕ
  minB : ℕ
  maxB : ℕ
  oldMaxB : ℕ
  bi : ℕ
  lasttime : ℕ
deriving DecidableEq, Repr

/-- What congestion control uses of `struct sctp_nets`. The two parts of `cc_mod` are a union of which a
module uses one. -/
structure CcNet where
  cwnd : ℕ
  ssthresh : ℕ
  mtu : ℕ
  flightSize : ℕ
  netAck : ℕ
  partialBytesAcked : ℕ
  prevCwnd : ℕ
  ecnPrevCwnd : ℕ
  rto : ℕ
  /-- In microseconds, 64 bits. -/
  rtt : ℕ
  /-- An `int`. -/
  lastsa : ℤ
  lastHsUsed : ℕ
  newPseudoCumack : Bool
  fastRetranIp : Bool
  fastRetranLossRecovery : Bool
  fastRecoveryTsn : Tsn
  /-- `lan_type == SCTP_LAN_LOCAL` -/
  lanLocal : Bool
  rtcc : Rtcc
  htcp : Htcp
deriving DecidableEq, Repr

/-- What congestion control uses of `struct sctp_association`. -/
structure CcAsoc where
  nets : List CcNet
  numnets : ℕ
  cmtOnOff : CmtOnOff
  maxCwnd : ℕ
  maxBurst : ℕ
  peersRwnd : ℕ
  fastRetranLossRecovery : Bool
  fastRecoveryTsn : Tsn
  sendingSeq : Tsn
  /-- The TSN of the first chunk on `send_queue`. -/
  sendQueueFirst : Option Tsn
  seenASackThisPkt : Bool
deriving DecidableEq, Repr

structure CcConfig where
  /-- `sctp_initial_cwnd`, in units of the MTU. -/
  initialCwnd : ℕ
  /-- `sctp_L2_abc_variable`. -/
  abcVariable : ℕ
  /-- `sctp_rttvar_bw` and `sctp_rttvar_rtt`, numbers of bits to shift by. -/
  rttvarBw : ℕ
  rttvarRtt : ℕ
  /-- Ticks in a second. -/
  hz : ℕ
  useRttScaling : Bool
  useBandwidthSwitch : Bool
deriving DecidableEq, Repr

namespace CcNet

/-- `net->mtu - sizeof(struct sctphdr)`, which is of 64 bits. -/
def payloadMtu (net : CcNet) : ℕ := u64 (net.mtu + 2 ^ 64 - sctphdrLen)

/-- `lastsa` as an unsigned number. -/
def srtt (net : CcNet) : ℕ := (net.lastsa % 2 ^ 32).toNat

/-- `flight_size + net_ack >= cwnd`. -/
def cwndFull (net : CcNet) : Bool := decide (net.cwnd ≤ u32 (net.flightSize + net.netAck))

theorem payloadMtu_eq {net : CcNet} (hlo : sctphdrLen ≤ net.mtu) (hhi : net.mtu < 2 ^ 32) :
    net.payloadMtu = net.mtu - sctphdrLen := by
  unfold payloadMtu u64
  unfold sctphdrLen at *
  omega

end CcNet

def enforceCwndLimit (maxCwnd : ℕ) (net : CcNet) : CcNet :=
  if 0 < maxCwnd ∧ maxCwnd < net.cwnd ∧ net.payloadMtu < net.cwnd then
    { net with cwnd := if maxCwnd < net.payloadMtu then u32 net.payloadMtu else maxCwnd }
  else net

theorem enforceCwndLimit_eq (maxCwnd : ℕ) (net : CcNet) :
    enforceCwndLimit maxCwnd net = { net with cwnd := (enforceCwndLimit maxCwnd net).cwnd } := by
  unfold enforceCwndLimit
  split_ifs <;> rfl

/-- The limit does not make a window larger. -/
theorem enforceCwndLimit_cwnd_le (maxCwnd : ℕ) (net : CcNet) :
    (enforceCwndLimit maxCwnd net).cwnd ≤ net.cwnd := by
  unfold enforceCwndLimit
  split_ifs with hover hlow
  · exact (u32_le _).trans hover.2.2.le
  · exact hover.2.1.le
  · exact le_rfl

theorem enforceCwndLimit_cwnd_congr (maxCwnd : ℕ) {x y : CcNet} (hcwnd : x.cwnd = y.cwnd)
    (hmtu : x.mtu = y.mtu) : (enforceCwndLimit maxCwnd x).cwnd = (enforceCwndLimit maxCwnd y).cwnd := by
  have hpay : x.payloadMtu = y.payloadMtu := by
    unfold CcNet.payloadMtu
    rw [hmtu]
  unfold enforceCwndLimit
  rw [hcwnd, hpay]
  split_ifs
  · rfl
  · rfl
  · exact hcwnd

@[simp] theorem enforceCwndLimit_lastHsUsed (maxCwnd : ℕ) (net : CcNet) :
    (enforceCwndLimit maxCwnd net).lastHsUsed = net.lastHsUsed := by
  rw [enforceCwndLimit_eq]

def freshRtcc : Rtcc where
  lbw := 0
  lbwRtt := 0
  bwBytes := 0
  newTotTime := 0
  bwBytesAtLastRttc := 0
  cwndAtBwSet := 0
  volReduce := 0
  steadyStep := 0
  stepCnt := 0
  retFromEq := false
  useDcccEcn := false
  tlsNeedsSet := 0
  lastStepState := 0
  rttSetThisSack := false
  lastInstInd := 0

/-- `htcp_init` at time zero. -/
def freshHtcp (mtu : ℕ) : Htcp where
  alpha := 128
  beta := 64
  modeswitch := false
  lastCong := 0
  undoLastCong := 0
  bytesAcked := mtu
  bytecount := 0
  minRTT := 0
  maxRTT := 0
  undoMaxRTT := 0
  undoOldMaxB := 0
  minB := 0
  maxB := 0
  oldMaxB := 0
  bi := 0
  lasttime := 0

/-- A destination whose window is full and that a SACK acks an MTU of. -/
def freshCcNet (cwnd ssthresh mtu : ℕ) : CcNet where
  cwnd := cwnd
  ssthresh := ssthresh
  mtu := mtu
  flightSize := cwnd
  netAck := mtu
  partialBytesAcked := 0
  prevCwnd := cwnd
  ecnPrevCwnd := cwnd
  rto := 1000
  rtt := 100000
  lastsa := 800
  lastHsUsed := 0
  newPseudoCumack := false
  fastRetranIp := false
  fastRetranLossRecovery := false
  fastRecoveryTsn := 0
  lanLocal := false
  rtcc := freshRtcc
  htcp := freshHtcp mtu

end Sctp.Cc
