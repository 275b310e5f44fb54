import Sctp.Cc.Net

/-! The bandwidth measurement of the RTCC module: whether the window is held although a SACK would
let it grow. -/
namespace Sctp.Cc

def instLoosing : ℕ := 1
def instNeutral : ℕ := 2
def instGaining : ℕ := 3

/-- The window is made smaller by choice when it did not matter `steady_step` times in a row. The flag
says that it was. -/
def tryStepDown (net : CcNet) : Checked (CcNet × Bool) := do
  let cnt := if net.rtcc.lastStepState = 5 then (net.rtcc.stepCnt + 1) % 2 ^ 16 else 1
  let due ← if cnt = net.rtcc.steadyStep then pure true
    else if net.rtcc.steadyStep < cnt then (· == 0) <$> Checked.mod cnt net.rtcc.steadyStep
    else pure false
  let rtcc := { net.rtcc with stepCnt := cnt, lastStepState := 5 }
  if due then
    if u32 (4 * net.mtu) < net.cwnd then do
      let cwnd ← sub32 net.cwnd net.mtu
      pure ({ net with cwnd := cwnd, rtcc := { rtcc with volReduce := u32 (rtcc.volReduce + 1) } }, true)
    else pure ({ net with rtcc := { rtcc with stepCnt := 0 } }, false)
  else pure ({ net with rtcc := rtcc }, false)

/-- The step down that is tried when nothing says that other flows gain. -/
def steadyStepDown (net : CcNet) (instInd : ℕ) : Checked (CcNet × Bool) :=
  if net.rtcc.steadyStep ≠ 0 ∧ instInd ≠ instLoosing then tryStepDown net else pure (net, false)

def ccBwSame (net : CcNet) (nbw rttOffset instInd : ℕ) : Checked (CcNet × Bool) :=
  if u64 (net.rtcc.lbwRtt + rttOffset) < net.rtt then do
    let r ← steadyStepDown net instInd
    pure (r.1, true)
  else if net.rtt < net.rtcc.lbwRtt - rttOffset then
    let rtcc := { net.rtcc with lbw := nbw, lbwRtt := net.rtt, cwndAtBwSet := net.cwnd }
    let hold := instInd == instGaining || instInd == instNeutral
    if net.rtcc.steadyStep ≠ 0 then
      if net.rtcc.lastStepState = 5 ∧ net.rtcc.steadyStep < net.rtcc.stepCnt then
        pure ({ net with rtcc := { net.rtcc with stepCnt := 0 } }, true)
      else pure ({ net with rtcc := { rtcc with lastStepState := 6, stepCnt := 0 } }, hold)
    else pure ({ net with rtcc := rtcc }, hold)
  else do
    let r ← steadyStepDown net instInd
    pure (r.1, r.2 || instInd == instGaining || instInd == instNeutral || net.rtcc.retFromEq)

def takeBack (maxCwnd : ℕ) (net : CcNet) (instInd state : ℕ) : CcNet :=
  if net.rtcc.steadyStep = 0 then net
  else
    let net :=
      if net.rtcc.volReduce ≠ 0 ∧ instInd ≠ instGaining then
        let grown := enforceCwndLimit maxCwnd { net with cwnd := u32 (net.cwnd + net.mtu) }
        { grown with rtcc := { net.rtcc with volReduce := net.rtcc.volReduce - 1 } }
      else net
    { net with rtcc := { net.rtcc with lastStepState := state, stepCnt := 0 } }

def ccBwDecrease (maxCwnd : ℕ) (net : CcNet) (nbw rttOffset instInd : ℕ) : Checked (CcNet × Bool) :=
  let decided (net : CcNet) : CcNet × Bool :=
    ({ net with rtcc := { net.rtcc with lbw := nbw, lbwRtt := net.rtt, cwndAtBwSet := net.cwnd } },
      instInd == instGaining)
  if u64 (net.rtcc.lbwRtt + rttOffset) < net.rtt then
    if net.rtcc.cwndAtBwSet < net.cwnd ∧ instInd ≠ instLoosing then
      if net.rtcc.retFromEq then do
        let ssthresh ← sub32 net.cwnd 1
        pure ({ net with ssthresh := ssthresh, partialBytesAcked := 0 }, true)
      else pure (net, true)
    else pure (decided (takeBack maxCwnd net instInd 2))
  else if net.rtt < net.rtcc.lbwRtt - rttOffset then
    pure (decided (takeBack maxCwnd net instInd 3))
  else pure (decided (takeBack maxCwnd net instInd 4))

def ccBwIncrease (net : CcNet) (nbw : ℕ) : CcNet × Bool :=
  let rtcc :=
    if net.rtcc.steadyStep ≠ 0 then
      { net.rtcc with lastStepState := 0, stepCnt := 0, volReduce := 0 }
    else net.rtcc
  ({ net with rtcc := { rtcc with lbw := nbw, lbwRtt := net.rtt, cwndAtBwSet := net.cwnd } }, false)

/-- What the bandwidth of the last round trip says about other flows. -/
def instIndication (cfg : CcConfig) (net : CcNet) (nbw : ℕ) : Checked ℕ :=
  if net.rtcc.rttSetThisSack ∧ net.rtt ≠ 0 ∧ net.rtt / 1000 ≠ 0 then do
    let bytes := u64 (net.rtcc.bwBytes + 2 ^ 64 - net.rtcc.bwBytesAtLastRttc)
    let instBw ← Checked.div bytes (net.rtt / 1000)
    pure (if nbw < instBw then instGaining
      else if u64 (instBw + instBw / 2 ^ cfg.rttvarBw) < nbw then instLoosing
      else instNeutral)
  else pure net.rtcc.lastInstInd

/-- `cc_bw_limit`: whether the window is to be held. -/
def ccBwLimit (cfg : CcConfig) (maxCwnd : ℕ) (net : CcNet) (nbw : ℕ) : Checked (CcNet × Bool) := do
  let instInd ← instIndication cfg net nbw
  let net :=
    if net.rtcc.rttSetThisSack then
      { net with
        rtcc := { net.rtcc with rttSetThisSack := false, bwBytesAtLastRttc := net.rtcc.bwBytes } }
    else net
  let bwOffset := net.rtcc.lbw / 2 ^ cfg.rttvarBw
  let rttOffset := net.rtcc.lbwRtt / 2 ^ cfg.rttvarRtt
  let r ← if u64 (net.rtcc.lbw + bwOffset) < nbw then pure (ccBwIncrease net nbw)
    else if nbw < net.rtcc.lbw - bwOffset then ccBwDecrease maxCwnd net nbw rttOffset instInd
    else ccBwSame net nbw rttOffset instInd
  pure ({ r.1 with rtcc := { r.1.rtcc with lastInstInd := instInd } }, r.2)

/-- The measurement in `sctp_cwnd_update_after_sack_common`; the flag says that there is no update. -/
def rtccHolds (cfg : CcConfig) (maxCwnd : ℕ) (net : CcNet) : Checked (CcNet × Bool) :=
  if net.rtcc.tlsNeedsSet = 0 then pure (net, false)
  else do
    let nbw ← if net.rtcc.newTotTime / 1000 ≠ 0 then
        Checked.div net.rtcc.bwBytes (net.rtcc.newTotTime / 1000)
      else pure net.rtcc.bwBytes
    if net.rtcc.lbw ≠ 0 then ccBwLimit cfg maxCwnd net nbw
    else
      let rtcc := { net.rtcc with lbw := nbw, lbwRtt := net.rtt }
      pure ({ net with
        rtcc := if rtcc.rttSetThisSack then
          { rtcc with rttSetThisSack := false, bwBytesAtLastRttc := rtcc.bwBytes } else rtcc }, false)

end Sctp.Cc
