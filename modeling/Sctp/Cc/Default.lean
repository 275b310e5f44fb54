import Sctp.Cc.Rtcc

/-! The congestion control of the default module, and what the other modules take from it. -/
namespace Sctp.Cc

/-- What the variants that pool resources add up. -/
structure PathSums where
  ssthresh : ℕ
  cwnd : ℕ
  ucwndSbw : ℕ
deriving DecidableEq, Repr

/-- The sums of `sctp_cwnd_update_after_fr`, where `lastsa` is compared as a signed number, and of
`sctp_cwnd_update_after_timeout`, where it is not. -/
def pathSums (counts : CcNet → Bool) : List CcNet → Checked PathSums
  | [] => pure { ssthresh := 0, cwnd := 0, ucwndSbw := 0 }
  | net :: rest => do
    let t ← pathSums counts rest
    let sbw ← if counts net then Checked.div net.cwnd net.srtt else pure 0
    pure
      { ssthresh := u32 (net.ssthresh + t.ssthresh)
        cwnd := u32 (net.cwnd + t.cwnd)
        ucwndSbw := u64 (sbw + t.ucwndSbw) }

def atLeastOne (n : ℕ) : ℕ := if n = 0 then 1 else n

def CcNet.srttFactor (net : CcNet) : ℕ := atLeastOne net.srtt

/-- The smaller of the burst limit and the configured window, in units of the MTU. -/
def cwndInMtu (cfg : CcConfig) (a : CcAsoc) : ℕ :=
  if 0 < a.maxBurst ∧ a.maxBurst < cfg.initialCwnd then a.maxBurst else cfg.initialCwnd

/-- The window at the start; a configuration of zero means what RFC 4960 says. -/
def initialWindow (cfg : CcConfig) (a : CcAsoc) (net : CcNet) : ℕ :=
  if cfg.initialCwnd = 0 then
    min (u32 (net.mtu * 4)) (max (u32 (2 * net.mtu)) initialCwndBytes)
  else u32 (net.payloadMtu * cwndInMtu cfg a)

def setInitialCcParam (cfg : CcConfig) (a : CcAsoc) (net : CcNet) : Checked CcNet := do
  let cwnd := initialWindow cfg a net
  let cwnd ← if a.cmtOnOff.isRp then do
      let cwnd ← Checked.div cwnd a.numnets
      pure (if cwnd < net.payloadMtu then u32 net.payloadMtu else cwnd)
    else pure cwnd
  pure { enforceCwndLimit a.maxCwnd { net with cwnd := cwnd } with ssthresh := a.peersRwnd }

/-- What the window loses against half of all windows is no more than the threshold keeps. -/
def poolFloor (net : CcNet) (tCwnd ssthresh : ℕ) : Checked ℕ := do
  let ssthresh ← if tCwnd / 2 < net.cwnd then do
      let excess ← sub32 net.cwnd (tCwnd / 2)
      pure (if ssthresh < excess then excess else ssthresh)
    else pure ssthresh
  pure (if ssthresh < net.mtu then net.mtu else ssthresh)

def frSsthresh (cmt : CmtOnOff) (t : PathSums) (net : CcNet) : Checked ℕ :=
  match cmt with
  | .rpv1 => do
    let s ← Checked.div (u64 (4 * net.mtu * net.ssthresh)) t.ssthresh
    poolFloor net t.cwnd (u32 s)
  | .rpv2 => do
    let s ← Checked.div (u64 (4 * net.mtu * net.cwnd)) (u64 (net.srttFactor * t.ucwndSbw))
    poolFloor net t.cwnd (u32 s)
  | _ => pure (max (net.cwnd / 2) (u32 (net.mtu * 2)))

/-- The end of the fast recovery that begins now. -/
def CcAsoc.recoveryTsn (a : CcAsoc) : Tsn :=
  match a.sendQueueFirst with
  | none => a.sendingSeq - 1
  | some tsn => tsn - 1

/-- The loop of `sctp_cwnd_update_after_fr`. A destination that enters fast recovery keeps those behind
it out of it, unless there is CMT. The limit of the window is a parameter. -/
def frLoop (a : CcAsoc) (update : CcNet → Checked CcNet) : Bool → List CcNet →
    Checked (Bool × List CcNet)
  | inRecovery, [] => pure (inRecovery, [])
  | inRecovery, net :: rest =>
    if (!inRecovery || a.cmtOnOff.isOn) && net.netAck != 0 then do
      let net ← update net
      let r ← frLoop a update true rest
      pure (r.1, { net with
        partialBytesAcked := 0, fastRetranLossRecovery := true,
        fastRecoveryTsn := a.recoveryTsn } :: r.2)
    else do
      let r ← frLoop a update inRecovery rest
      pure (r.1, net :: r.2)

def runFr (a : CcAsoc) (update : CcNet → Checked CcNet) : Checked CcAsoc := do
  let r ← frLoop a update a.fastRetranLossRecovery a.nets
  pure { a with
    nets := r.2
    fastRetranLossRecovery := r.1
    fastRecoveryTsn :=
      if a.nets.any (fun net => (!a.fastRetranLossRecovery || a.cmtOnOff.isOn) && net.netAck != 0)
      then a.recoveryTsn else a.fastRecoveryTsn }

def frNet (a : CcAsoc) (t : PathSums) (net : CcNet) : Checked CcNet := do
  let ssthresh ← frSsthresh a.cmtOnOff t net
  pure (enforceCwndLimit a.maxCwnd { net with ssthresh := ssthresh, cwnd := ssthresh })

def frSums (a : CcAsoc) : Checked PathSums :=
  if a.cmtOnOff.isRp then do
    let t ← pathSums (fun net => decide (0 < net.lastsa)) a.nets
    pure { t with ucwndSbw := atLeastOne t.ucwndSbw }
  else pure { ssthresh := 0, cwnd := 0, ucwndSbw := 0 }

def cwndUpdateAfterFr (a : CcAsoc) : Checked CcAsoc := do
  let t ← frSums a
  runFr a (frNet a t)

/-- The two further sums of `sctp_cwnd_update_after_sack_common`: `t_path_mptcp` and `max_path`. -/
def mptcpSums : List CcNet → Checked (ℕ × ℕ)
  | [] => pure (0, 0)
  | net :: rest => do
    let t ← mptcpSums rest
    if net.srtt = 0 then pure t
    else do
      let path ← Checked.div (u64 (net.cwnd * 2 ^ 16)) (u64 (net.mtu * net.srtt))
      -- the square is one of 32 bits
      let tmp ← Checked.div (u64 (net.cwnd * 2 ^ 40)) (u64 (net.mtu * u32 (net.srtt * net.srtt)))
      pure (u64 (path + t.1), max tmp t.2)

structure SackSums extends PathSums where
  mptcpLikeAlpha : ℕ
deriving DecidableEq, Repr

def sackSums (a : CcAsoc) : Checked SackSums :=
  if a.cmtOnOff.isRp || a.cmtOnOff == .mptcp then do
    let t ← pathSums (fun net => decide (0 < net.srtt)) a.nets
    let m ← mptcpSums a.nets
    let alpha ← if 0 < m.1 then Checked.div m.2 (u64 (m.1 * m.1)) else pure 1
    pure
      { ssthresh := atLeastOne t.ssthresh, cwnd := t.cwnd, ucwndSbw := atLeastOne t.ucwndSbw,
        mptcpLikeAlpha := alpha }
  else pure { ssthresh := 1, cwnd := 0, ucwndSbw := 1, mptcpLikeAlpha := 1 }

def slowStartIncr (cfg : CcConfig) (cmt : CmtOnOff) (t : SackSums) (net : CcNet) : Checked ℕ :=
  match cmt with
  | .rpv1 => do
    let limit ← Checked.div (u64 (net.mtu * cfg.abcVariable * net.ssthresh)) t.ssthresh
    let incr ← Checked.div (u64 (net.netAck * net.ssthresh)) t.ssthresh
    pure (atLeastOne (min (u32 incr) (u32 limit)))
  | .rpv2 => do
    let limit ← Checked.div (u64 (net.mtu * cfg.abcVariable * net.cwnd))
      (u64 (net.srttFactor * t.ucwndSbw))
    let incr ← Checked.div (u64 (net.netAck * net.cwnd)) (u64 (net.srttFactor * t.ucwndSbw))
    pure (atLeastOne (min (u32 incr) (u32 limit)))
  | .mptcp =>
    let limit := u32 (u64 (net.mtu * t.mptcpLikeAlpha * cfg.abcVariable) / 2 ^ 8)
    let incr := u32 (u64 (net.netAck * t.mptcpLikeAlpha) / 2 ^ 8)
    pure (min (min (min incr limit) net.netAck) net.mtu)
  | _ => pure (min net.netAck (u32 (net.mtu * cfg.abcVariable)))

/-- By how much the window grows in congestion avoidance. -/
def avoidanceIncr (cmt : CmtOnOff) (t : SackSums) (net : CcNet) : Checked ℕ :=
  match cmt with
  | .rpv1 => do
    let incr ← Checked.div (u64 (net.mtu * net.ssthresh)) t.ssthresh
    pure (atLeastOne (u32 incr))
  | .rpv2 => do
    let incr ← Checked.div (u64 (net.mtu * net.cwnd)) (u64 (net.srttFactor * t.ucwndSbw))
    pure (atLeastOne (u32 incr))
  | .mptcp => pure (min (u32 (u64 (t.mptcpLikeAlpha * net.cwnd) / 2 ^ 8)) net.mtu)
  | _ => pure net.mtu

def CcNet.grow (maxCwnd : ℕ) (net : CcNet) (incr : ℕ) : CcNet :=
  enforceCwndLimit maxCwnd { net with cwnd := u32 (net.cwnd + incr) }

/-- The window of a destination that the cumulative ack has moved on. -/
def growNet (cfg : CcConfig) (a : CcAsoc) (t : SackSums) (net : CcNet) : Checked CcNet :=
  if net.cwnd ≤ net.ssthresh then
    if net.cwndFull then do
      let incr ← slowStartIncr cfg a.cmtOnOff t net
      pure (net.grow a.maxCwnd incr)
    else pure net
  else
    let pba := u32 (net.partialBytesAcked + net.netAck)
    if net.cwndFull && decide (net.cwnd ≤ pba) then do
      let incr ← avoidanceIncr a.cmtOnOff t net
      pure ({ net with partialBytesAcked := pba - net.cwnd }.grow a.maxCwnd incr)
    else pure { net with partialBytesAcked := pba }

/-- A SACK that reaches a destination: nothing is done when the bandwidth says so. -/
def sackNet (cfg : CcConfig) (a : CcAsoc) (t : SackSums) (accumMoved useRtcc : Bool) (net : CcNet) :
    Checked CcNet := do
  let r ← if useRtcc then rtccHolds cfg a.maxCwnd net else pure (net, false)
  if r.2 then pure r.1
  else if accumMoved || (a.cmtOnOff.isOn && r.1.newPseudoCumack) then growNet cfg a t r.1
  else pure r.1

/-- The loop over the destinations. In fast recovery it ends at the first one that was acked. -/
def sackLoop (a : CcAsoc) (willExit : Bool) (update : CcNet → Checked CcNet) : List CcNet →
    Checked (List CcNet)
  | [] => pure []
  | net :: rest =>
    if net.netAck = 0 then (net :: ·) <$> sackLoop a willExit update rest
    else if a.fastRetranLossRecovery && !willExit && !a.cmtOnOff.isOn then pure (net :: rest)
    else do
      let net ← update net
      (net :: ·) <$> sackLoop a willExit update rest

def cwndUpdateAfterSackCommon (cfg : CcConfig) (a : CcAsoc) (accumMoved willExit useRtcc : Bool) :
    Checked CcAsoc := do
  let t ← sackSums a
  let nets ← sackLoop a willExit (sackNet cfg a t accumMoved useRtcc) a.nets
  pure { a with nets := nets }

def cwndUpdateAfterSack (cfg : CcConfig) (a : CcAsoc) (accumMoved willExit : Bool) : Checked CcAsoc :=
  cwndUpdateAfterSackCommon cfg a accumMoved willExit false

/-- `sctp_cwnd_update_exit_pf_common` -/
def cwndUpdateExitPf (net : CcNet) : CcNet := { net with cwnd := net.mtu }

def timeoutSsthresh (a : CcAsoc) (net : CcNet) : Checked ℕ :=
  if a.cmtOnOff.isRp then do
    let t ← pathSums (fun net => decide (0 < net.srtt)) a.nets
    let s ← if a.cmtOnOff = .rpv1 then
        u32 <$> Checked.div (u64 (4 * net.mtu * net.ssthresh)) (atLeastOne t.ssthresh)
      else
        let ccDelta := u64 (atLeastOne t.ucwndSbw * net.srttFactor) / 2
        if ccDelta < t.cwnd then u32 <$> Checked.sub 64 t.cwnd ccDelta else pure net.mtu
    poolFloor net t.cwnd s
  else pure (max (net.cwnd / 2) (u32 (4 * net.mtu)))

def cwndUpdateAfterTimeout (a : CcAsoc) (net : CcNet) : Checked CcNet := do
  let ssthresh ← timeoutSsthresh a net
  pure { net with ssthresh := ssthresh, cwnd := net.mtu, partialBytesAcked := 0 }

def cwndUpdateAfterEcnEchoCommon (net : CcNet) (inWindow : Bool) (numPktLost : ℕ) (useRtcc : Bool) :
    Checked CcNet :=
  let lost := u32 (net.mtu * numPktLost)
  if useRtcc && net.lanLocal && net.rtcc.useDcccEcn then
    if !inWindow then do
      let cwnd ← if net.ecnPrevCwnd < net.cwnd then sub32 net.ecnPrevCwnd lost
        else pure (net.cwnd / 2)
      let ssthresh ← sub32 cwnd lost
      pure { net with cwnd := cwnd, ssthresh := ssthresh }
    else do
      let ssthresh ← sub32 net.ssthresh lost
      let cwnd ← sub32 net.cwnd lost
      pure { net with cwnd := cwnd, ssthresh := ssthresh }
  else if !inWindow then
    if net.cwnd / 2 < net.mtu then
      pure { net with ssthresh := net.mtu, cwnd := net.mtu, rto := u32 (net.rto * 2) }
    else pure { net with ssthresh := net.cwnd / 2, cwnd := net.cwnd / 2 }
  else pure net

def cwndUpdateAfterEcnEcho (net : CcNet) (inWindow : Bool) (numPktLost : ℕ) : Checked CcNet :=
  cwndUpdateAfterEcnEchoCommon net inWindow numPktLost false

/-- An `int` is subtracted from a word. The difference wraps when it is negative. -/
def subInt (a : ℕ) (b : ℤ) : Checked ℕ := ⟨((a - b) % 2 ^ 32).toNat, decide (b ≤ a)⟩

/-- The share of this sender in what is queued too much, less what the window is ahead of the flight
already. -/
def pktdropPortion (net : CcNet) (cwnd onQueue bwAvail : ℕ) : Checked ℤ := do
  let segInflight ← Checked.div net.flightSize net.mtu
  let segOnqueue ← Checked.div onQueue net.mtu
  let portion ← Checked.div (u32 ((onQueue - bwAvail) * segInflight)) segOnqueue
  let myPortion := toInt portion
  if net.flightSize < cwnd then
    let diffAdj := toInt (cwnd - net.flightSize)
    pure (if myPortion < diffAdj then 0 else myPortion - diffAdj)
  else pure myPortion

/-- The window that the reduction starts from: a SACK in the same packet is undone. -/
def windowBefore (a : CcAsoc) (net : CcNet) : ℕ :=
  if a.seenASackThisPkt then net.prevCwnd else net.cwnd

/-- The bottleneck is full: the window goes back. -/
def pktdropReduce (a : CcAsoc) (net : CcNet) (onQueue bwAvail : ℕ) : Checked CcNet := do
  let cwnd := windowBefore a net
  let myPortion ← pktdropPortion net cwnd onQueue bwAvail
  let cwnd ← subInt cwnd myPortion
  let cwnd := if cwnd ≤ net.mtu then net.mtu else cwnd
  let ssthresh ← sub32 cwnd 1
  pure { net with cwnd := cwnd, ssthresh := ssthresh, partialBytesAcked := 0 }

/-- There is room left: the window takes a quarter of it, or a burst. -/
def pktdropGrow (a : CcAsoc) (net : CcNet) (onQueue bwAvail : ℕ) : CcNet :=
  let incr := (bwAvail - onQueue) / 4
  let burst := u32 (a.maxBurst * net.mtu)
  { net with
    cwnd := u32 (net.cwnd + if 0 < a.maxBurst ∧ burst < incr then burst else incr) }

def bwAvailable (net : CcNet) (bottleBw : ℕ) : ℕ :=
  min (u32 (u64 (bottleBw * net.rtt) / 1000000)) bottleBw

/-- `sctp_cwnd_update_after_packet_dropped`: `bottleBw` and `currentOnq` are what the chunk says. -/
def cwndUpdateAfterPacketDropped (a : CcAsoc) (net : CcNet) (bottleBw currentOnq : ℕ) :
    Checked CcNet := do
  let onQueue := max currentOnq net.flightSize
  let bwAvail := bwAvailable net bottleBw
  let net ← if bwAvail < onQueue then pktdropReduce a net onQueue bwAvail
    else pure (pktdropGrow a net onQueue bwAvail)
  let cwnd := min net.cwnd bwAvail
  pure (enforceCwndLimit a.maxCwnd { net with cwnd := max cwnd net.mtu })

def cwndUpdateAfterOutput (a : CcAsoc) (net : CcNet) (burstLimit : ℕ) : CcNet :=
  let net := { net with ssthresh := max net.ssthresh net.cwnd }
  if burstLimit ≠ 0 then
    enforceCwndLimit a.maxCwnd
      { net with cwnd := u32 (net.flightSize + u32 (burstLimit * net.mtu)) }
  else net

end Sctp.Cc
