import Sctp.Sender.State

/-! The two SACK handlers of `sctp_indata.c`. A handler returns nothing when it aborts the
association. -/
namespace Sctp
open Ledger

variable {n : ℕ}

namespace SentChunk

/-- The chunk after `sctp_total_flight_decrease`. -/
def unprobed (c : SentChunk n) : SentChunk n := { c with windowProbe := false }

end SentChunk

/-- A potentially failed destination with unambiguous acks; it is done with. -/
def Net.exitPf (net : Net) : Net :=
  if decide (0 < net.netAck2) && net.pf then { net with pf := false, netAck := 0 } else net

namespace Asoc

def leaveFlight (s : Asoc n) (c : SentChunk n) : Asoc n := { s with toFlight := s.toFlight.leave c }

def enterFlight (s : Asoc n) (c : SentChunk n) : Asoc n := { s with toFlight := s.toFlight.enter c }

def retranDecr (s : Asoc n) : Asoc n := { s with toFlight := s.toFlight.retranDecr }

def retranIncr (s : Asoc n) : Asoc n := { s with toFlight := s.toFlight.retranIncr }

def setNet (s : Asoc n) (i : Fin n) (net : Net) : Asoc n :=
  { s with nets := Function.update s.nets i net }

/-- `net_ack` and `net_ack2` of a newly acked chunk; Karn's rule for the second. -/
def creditNet (s : Asoc n) (c : SentChunk n) : Asoc n :=
  s.setNet c.whoTo
    { s.nets c.whoTo with
      netAck := (s.nets c.whoTo).netAck + c.sendSize
      netAck2 := (s.nets c.whoTo).netAck2 + if c.sndCount < 2 then c.sendSize else 0 }

/-- `net_ack` and `net_ack2` are set up for the congestion control. -/
def resetNets (s : Asoc n) : Asoc n :=
  { s with nets := fun i => { s.nets i with netAck := 0, netAck2 := 0 } }

/-- A chunk the cumulative ack passes leaves the flight, or the count of retransmissions. -/
def ackChunk (s : Asoc n) (c : SentChunk n) : Asoc n :=
  if c.sent < datagramResend then (s.leaveFlight c).creditNet c
  else if c.sent < datagramAcked then
    if c.sent = datagramResend then (s.creditNet c).retranDecr else s.creditNet c
  else s

/-- `chunks_on_queues` of the chunk's stream goes down. -/
def offQueue (s : Asoc n) (c : SentChunk n) : Asoc n :=
  { s with
    chunksOnQueues :=
      Function.update s.chunksOnQueues c.streamNumber (s.chunksOnQueues c.streamNumber - 1) }

/-- A chunk taken off the sent queue; one that was NR-acked left its stream before. -/
def dropChunk (s : Asoc n) (c : SentChunk n) : Asoc n :=
  if c.sent = datagramNrAcked then { s with sentQueueCnt := s.sentQueueCnt - 1 }
  else { s.offQueue c with sentQueueCnt := s.sentQueueCnt - 1 }

/-- The PR-SCTP counts of a dropped chunk, kept by `sctp_handle_sack` only. -/
def dropPrSctp (cfg : SenderConfig) (s : Asoc n) (c : SentChunk n) : Asoc n :=
  { s with
    prSctpCnt := if prSctpEnabled c.flags then s.prSctpCnt - 1 else s.prSctpCnt
    sentQueueCntRemoveable :=
      if c.hasData && cfg.prsctpSupported && prSctpBufEnabled c.flags then
        s.sentQueueCntRemoveable - 1
      else s.sentQueueCntRemoveable }

def rwndLeft (cfg : SenderConfig) (s : Asoc n) (rwnd : ℕ) : ℕ :=
  swsCut cfg (sbspaceSub rwnd
    ((s.totalFlight + s.totalFlightCount * cfg.peerChunkOh) % 2 ^ 32))

/-- Destinations with unambiguous acks leave the potentially failed state. -/
def exitPf (s : Asoc n) : Asoc n := { s with nets := fun i => (s.nets i).exitPf }

/-- The congestion control is told what was acked, unless an ECN echo came with the SACK. -/
def cwndUpdateAfterSack (s : Asoc n) (ecneSeen : Bool) : Asoc n :=
  if ecneSeen then s
  else { s.exitPf with cwndInput := fun i => ((s.exitPf.nets i).netAck, (s.exitPf.nets i).netAck2) }

/-- `advanced_peer_ack_point` follows the cumulative ack. -/
def advancePeerAckPoint (s : Asoc n) (cumAck : Tsn) : Asoc n :=
  { s with
    advancedPeerAckPoint :=
      if tsnGt cumAck s.advancedPeerAckPoint then cumAck else s.advancedPeerAckPoint }

end Asoc

def windowProbeRecovery (s : Asoc n) (c : SentChunk n) : Asoc n × SentChunk n :=
  if datagramAcked ≤ c.sent ∨ c.hasData = false then (s, c.unprobed)
  else ((s.leaveFlight c).retranIncr, { c.unprobed with sent := datagramResend })

def recoverFirstProbe (s : Sender n) : Sender n :=
  match s.sentQueue.findIdx? (·.windowProbe) with
  | none => s
  | some i =>
    match s.sentQueue[i]? with
    | none => s
    | some c =>
      { toAsoc := (windowProbeRecovery s.toAsoc c).1
        sentQueue := s.sentQueue.set i (windowProbeRecovery s.toAsoc c).2 }

def fsAudit (s : Sender n) : Bool :=
  decide (s.prSctpCnt < s.sentQueueCnt) &&
    s.sentQueue.any fun c =>
      decide (c.sent < datagramResend) ||
        (decide (datagramResend < c.sent) && decide (c.sent < datagramAcked))

/-- The counters are made from the queue again when the audit asks for it. -/
def auditFlight (s : Sender n) : Sender n :=
  if fsAudit s then { s with toFlight := s.toFlight.recount s.sentQueue } else s

/-- State of the loop that assures a timer on every destination with outstanding data. -/
structure TimerLoop (n : ℕ) extends Sender n where
  /-- Destinations with something in flight. -/
  busy : ℕ
  winProbeRecovered : Bool

/-- A destination that was probed has its probe recovered when the window opened. -/
def probeRecovered (winProbeRecovery : Bool) (s : Sender n) (i : Fin n) : Sender n :=
  if winProbeRecovery && (s.nets i).windowProbe then recoverFirstProbe s else s

/-- `window_probe` comes off a destination. -/
def clearProbe (s : Sender n) (i : Fin n) : Sender n :=
  { s with toAsoc := s.toAsoc.setNet i { s.nets i with windowProbe := false } }

/-- One destination. The express handler takes `window_probe` off an idle destination too. -/
def assureTimer (winProbeRecovery clearIdle : Bool) (t : TimerLoop n) (i : Fin n) : TimerLoop n :=
  let s := probeRecovered winProbeRecovery t.toSender i
  { toSender := if clearIdle || s.flightSize i != 0 then clearProbe s i else s
    busy := if s.flightSize i = 0 then t.busy else t.busy + 1
    winProbeRecovered := t.winProbeRecovered || (winProbeRecovery && (t.nets i).windowProbe) }

def assureTimers (winProbeRecovery clearIdle : Bool) (s : Sender n) (recovered : Bool) :
    TimerLoop n :=
  (List.finRange n).foldl (assureTimer winProbeRecovery clearIdle)
    { toSender := s, busy := 0, winProbeRecovered := recovered }

/-- Nothing is in flight or to be resent although chunks wait for an ack. -/
def TimerLoop.suspicious (t : TimerLoop n) : Bool :=
  t.busy == 0 && !t.sentQueue.isEmpty && t.sentQueueRetranCnt == 0 && !t.winProbeRecovered

/-- The part behind `again`: at most one audit, then the destinations are gone through again. -/
def againLoop (winProbeRecovery clearIdle : Bool) (s : Sender n) : Sender n :=
  let t := assureTimers winProbeRecovery clearIdle s false
  if t.suspicious then
    (assureTimers winProbeRecovery clearIdle (auditFlight t.toSender) t.winProbeRecovered).toSender
  else t.toSender

/-- The last message on the locked stream was sent but not completed by the user. -/
def Backlog.leavePartial (b : Backlog) (clearLock : Bool) : Backlog :=
  if b.streamQueueCnt = 1 ∧ (b.has stateShutdownPending ∨ b.has stateShutdownReceived) then
    match b.lockedOnSending with
    | some (some (0, complete)) =>
      { b with
        streamQueueCnt := 0
        lockedOnSending := if clearLock || !complete then none else b.lockedOnSending
        state := if complete then b.state else b.state ||| statePartialMsgLeft }
    | _ => b
  else b

inductive ShutdownMove where
  | stay
  | abort
  | shut (b : Backlog)
deriving DecidableEq

/-- With both queues empty a pending shutdown goes on. -/
def Backlog.shutdownMove (b : Backlog) : ShutdownMove :=
  if b.has stateShutdownPending ∧ b.streamQueueCnt = 0 then
    if b.has statePartialMsgLeft then .abort else .shut (b.enter stateShutdownSent)
  else if b.getState = stateShutdownReceived ∧ b.streamQueueCnt = 0 then
    if b.has statePartialMsgLeft then .abort else .shut (b.enter stateShutdownAckSent)
  else .stay

def Sender.drained (s : Sender n) : Bool := s.sendQueue.isNone && s.sentQueue.isEmpty

/-- First TSN that was never sent, `send_s`. -/
def Sender.sendS (s : Sender n) : Tsn :=
  match s.sentQueue.getLast? with
  | some c => c.tsn + 1
  | none => s.sendingSeq

/-- The flights are zero once nothing is outstanding. -/
def Sender.syncFlight (s : Sender n) : Sender n :=
  if s.sentQueue.isEmpty then { s with toFlight := s.toFlight.clear } else s

/-- One chunk of the express handler: acked and freed, or the end of the loop. -/
def expressAck (cumack : Tsn) (s : Asoc n) (c : SentChunk n) :
    Option (Asoc n × List (SentChunk n)) :=
  if tsnGe cumack c.tsn then some ((s.ackChunk c).dropChunk c, []) else none

/-- The shutdown part of the express handler; it goes on behind it. -/
def expressShutdown (s : Sender n) : Option (Sender n) :=
  if s.drained then
    let b := s.toBacklog.leavePartial false
    match b.shutdownMove with
    | .stay => some { s with toBacklog := b }
    | .abort => none
    | .shut b => some { s with toBacklog := b }
  else some s

/-- From `again` to the end. -/
def expressTail (winProbeRecovery : Bool) (cumack : Tsn) (s : Sender n) : Option (Sender n) :=
  (expressShutdown (againLoop winProbeRecovery true s)).map fun s =>
    { s with toAsoc := s.toAsoc.advancePeerAckPoint cumack }

/-- The cumulative ack moves: chunks are freed, the congestion control hears of it. -/
def expressMove (cumack : Tsn) (ecneSeen : Bool) (s : Sender n) : Sender n :=
  let a := { s.toAsoc.resetNets with thisSackHighestGap := cumack }
  let r := if tsnGt cumack a.lastAckedSeq then walk (expressAck cumack) a s.sentQueue
    else (a, s.sentQueue)
  Sender.syncFlight
    { toAsoc := { r.1.cwndUpdateAfterSack ecneSeen with lastAckedSeq := cumack }
      sentQueue := r.2 }

def Sender.setRwnd (cfg : SenderConfig) (rwnd : ℕ) (s : Sender n) : Sender n :=
  { s with peersRwnd := s.toAsoc.rwndLeft cfg rwnd }

/-- The ghost field that records what the congestion control is told starts empty. -/
def Sender.hushed (s : Sender n) : Sender n := { s with cwndInput := fun _ => (0, 0) }

def expressHandleSack (cfg : SenderConfig) (cumack : Tsn) (rwnd : ℕ) (ecneSeen : Bool)
    (s : Sender n) : Option (Sender n) :=
  if tsnGt s.lastAckedSeq cumack then some s.hushed
  else if s.lastAckedSeq = cumack then
    -- a window update; `win_probe_recovery` is not set on this way to `again`
    let s' := s.hushed.setRwnd cfg rwnd
    if s.peersRwnd < s'.peersRwnd then expressTail false cumack s' else some s'
  else if cfg.strictSacks && tsnGe cumack s.sendS then none
  else
    let s' := (expressMove cumack ecneSeen s.hushed).setRwnd cfg rwnd
    expressTail (decide (s.peersRwnd < s'.peersRwnd)) cumack s'

end Sctp
