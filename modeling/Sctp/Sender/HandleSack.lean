import Sctp.Sender.Sack

/-! `sctp_handle_sack`: the cumulative ack, gap blocks, revocation and fast retransmission. -/
namespace Sctp
open Ledger

variable {n : ℕ}

structure CumAcks (n : ℕ) extends Asoc n where
  accumMoved : Bool
  thisSackLowestNewack : Tsn

def CumAcks.ack (s : CumAcks n) (c : SentChunk n) : CumAcks n :=
  let a := s.toAsoc.ackChunk c
  if c.sent < datagramAcked then
    { toAsoc := a.setNet c.whoTo { a.nets c.whoTo with sawNewack := true }
      accumMoved := true
      thisSackLowestNewack := c.tsn }
  else { s with toAsoc := a, accumMoved := true }

def cumAckedChunk (c : SentChunk n) : SentChunk n :=
  { c with
    chunkWasRevoked := false
    windowProbe := c.windowProbe && !decide (c.sent < datagramResend)
    sent := if c.sent = datagramNrAcked then c.sent else datagramAcked }

/-- One chunk at or below the cumulative ack is marked acked; the loop ends at the first above. -/
def markCumAcked (lastTsn : Tsn) (s : CumAcks n) (c : SentChunk n) :
    Option (CumAcks n × List (SentChunk n)) :=
  if tsnGe lastTsn c.tsn then
    if c.sent = datagramUnsent then some (s, [c]) else some (s.ack c, [cumAckedChunk c])
  else none

/-- One chunk passed by the cumulative ack is freed; the loop ends at the first above. -/
def dropCumAcked (cfg : SenderConfig) (cumAck : Tsn) (s : Asoc n) (c : SentChunk n) :
    Option (Asoc n × List (SentChunk n)) :=
  if tsnGt c.tsn cumAck then none else some ((s.dropChunk c).dropPrSctp cfg c, [])

structure GapAcks (n : ℕ) extends Asoc n where
  biggestTsnAcked : Tsn
  biggestTsnNewlyAcked : Tsn
  thisSackLowestNewack : Tsn

namespace GapAcks

/-- A chunk in flight is acked for the first time. -/
def newlyAcked (g : GapAcks n) (c : SentChunk n) : GapAcks n :=
  let net := g.nets c.whoTo
  let a := g.toAsoc.setNet c.whoTo
    { net with
      sawNewack := net.sawNewack || !c.chunkWasRevoked
      thisSackHighestNewack :=
        if tsnGt c.tsn net.thisSackHighestNewack then c.tsn else net.thisSackHighestNewack }
  { toAsoc := (a.leaveFlight c).creditNet c
    biggestTsnAcked := g.biggestTsnAcked
    biggestTsnNewlyAcked :=
      if tsnGt c.tsn g.biggestTsnNewlyAcked then c.tsn else g.biggestTsnNewlyAcked
    thisSackLowestNewack :=
      if g.thisSackLowestNewack = 0 then c.tsn else g.thisSackLowestNewack }

/-- `this_sack_highest_gap` follows the chunk. -/
def raiseGap (g : GapAcks n) (c : SentChunk n) : GapAcks n :=
  { g with
    thisSackHighestGap :=
      if tsnGt c.tsn g.thisSackHighestGap then c.tsn else g.thisSackHighestGap }

def ackGap (g : GapAcks n) (c : SentChunk n) : GapAcks n :=
  if c.sent < datagramResend then (g.newlyAcked c).raiseGap c
  else if c.sent = datagramResend then
    { g.raiseGap c with toAsoc := (g.raiseGap c).toAsoc.retranDecr }
  else g

end GapAcks

/-- The chunk itself is marked, chunks to be skipped and NR-acked chunks apart. -/
def markGap (c : SentChunk n) : SentChunk n :=
  { c with
    sent := if c.sent = datagramSkip ∨ c.sent = datagramNrAcked then c.sent else datagramMarked
    windowProbe := c.windowProbe && !decide (c.sent < datagramResend)
    chunkWasRevoked := false }

/-- A chunk hit by a block of `sctp_process_segment_range`. -/
def segmentChunk (nrSacking : Bool) (g : GapAcks n) (c : SentChunk n) :
    GapAcks n × SentChunk n :=
  if c.sent = datagramUnsent then (g, c)
  else if nrSacking && (markGap c).sent != datagramNrAcked then
    ({ g.ackGap c with toAsoc := (g.ackGap c).toAsoc.offQueue c },
      { markGap c with sent := datagramNrAcked, hasData := false })
  else (g.ackGap c, markGap c)

/-- The place `tp1` in the sent queue, beside the queue itself. -/
structure Cursor (n : ℕ) extends GapAcks n where
  queue : List (SentChunk n)
  tp1 : ℕ

/-- From `tp1` on, then once from the start: the first chunk with this TSN or one above it. The
second component is `circled`. -/
def seekTsn (q : List (SentChunk n)) (theTsn : Tsn) (tp1 : ℕ) (circled : Bool) :
    Option ℕ × Bool :=
  match (q.drop tp1).findIdx? fun c => c.tsn == theTsn || tsnGt c.tsn theTsn with
  | some i => (some (tp1 + i), circled)
  | none =>
    if circled then (none, true)
    else (q.findIdx? fun c => c.tsn == theTsn || tsnGt c.tsn theTsn, true)

/-- The chunk at place `i`, if its TSN is the one looked for. -/
def hitChunk (nrSacking : Bool) (theTsn : Tsn) (k : Cursor n) (i : ℕ) : Cursor n :=
  match k.queue[i]? with
  | none => { k with tp1 := i }
  | some c =>
    if c.tsn = theTsn then
      { toGapAcks := (segmentChunk nrSacking k.toGapAcks c).1
        queue := k.queue.set i (segmentChunk nrSacking k.toGapAcks c).2
        tp1 := i }
    else { k with tp1 := i }

def segmentTsn (lastTsn : Tsn) (nrSacking : Bool) (k : Cursor n × Bool) (j : ℕ) :
    Cursor n × Bool :=
  let theTsn := BitVec.ofNat 32 j + lastTsn
  match seekTsn k.1.queue theTsn k.1.tp1 k.2 with
  | (none, _) => ({ k.1 with tp1 := 0 }, false)
  | (some i, circled) => (hitChunk nrSacking theTsn k.1 i, circled)

def processSegmentRange (lastTsn : Tsn) (nrSacking : Bool) (k : Cursor n) (fragStrt fragEnd : ℕ) :
    Cursor n :=
  ((List.range' fragStrt (fragEnd + 1 - fragStrt)).foldl (segmentTsn lastTsn nrSacking)
    (k, false)).1

def handleSegment (lastTsn : Tsn) (nrSacking : Bool) (k : Cursor n × ℕ) (frag : ℕ × ℕ) :
    Cursor n × ℕ :=
  if frag.2 < frag.1 then k
  else
    let top := BitVec.ofNat 32 frag.2 + lastTsn
    let k' : Cursor n :=
      { k.1 with
        tp1 := if frag.1 ≤ k.2 then 0 else k.1.tp1
        biggestTsnAcked := if tsnGt top k.1.biggestTsnAcked then top else k.1.biggestTsnAcked }
    (processSegmentRange lastTsn nrSacking k' frag.1 frag.2, frag.2)

/-- `sctp_handle_segments`: the blocks that may be revoked, then those that may not. -/
def handleSegments (lastTsn : Tsn) (segs nrSegs : List (ℕ × ℕ)) (g : GapAcks n)
    (q : List (SentChunk n)) : Cursor n :=
  let k := segs.foldl (handleSegment lastTsn false)
    ({ toGapAcks := g, queue := q, tp1 := 0 }, 0)
  (nrSegs.foldl (handleSegment lastTsn true) ({ k.1 with tp1 := 0 }, 0)).1

/-- A chunk acked before and not any more goes back into the flight. -/
def revoke (s : Asoc n) (c : SentChunk n) : Asoc n × List (SentChunk n) :=
  (s.enterFlight c, [{ c with sent := datagramSent, chunkWasRevoked := true }])

def checkForRevoked (cumack biggestTsnAcked : Tsn) (s : Asoc n) (c : SentChunk n) :
    Option (Asoc n × List (SentChunk n)) :=
  if c.sent = datagramUnsent then none
  else if tsnGt c.tsn cumack then
    if tsnGt c.tsn biggestTsnAcked then none
    else if c.sent = datagramAcked then some (revoke s c)
    else if c.sent = datagramMarked then some (s, [{ c with sent := datagramAcked }])
    else some (s, [c])
  else some (s, [c])

/-- A SACK without blocks after one with blocks revokes every acked chunk. -/
def revokeAcked (s : Asoc n) (c : SentChunk n) : Option (Asoc n × List (SentChunk n)) :=
  if c.sent = datagramAcked then some (revoke s c) else some (s, [c])

/-- What `sctp_strike_gap_ack_chunks` is called with, and what it reads besides. -/
structure StrikeEnv (n : ℕ) where
  biggestTsnAcked : Tsn
  biggestTsnNewlyAcked : Tsn
  thisSackLowestNewack : Tsn
  accumMoved : Bool
  fastRetranLossRecovery : Bool
  numDestsSacked : ℕ
  /-- `sctp_find_alternate_net`. -/
  alternate : Fin n → Fin n

/-- One more strike when a CMT SACK says that two packets arrived. -/
def strikeDac (cfg : SenderConfig) (e : StrikeEnv n) (c : SentChunk n) (sent : ℕ) : ℕ :=
  if cfg.cmtOnOff ∧ cfg.cmtUseDac ∧ sent < datagramResend ∧ e.numDestsSacked = 1 ∧
    tsnGt e.thisSackLowestNewack c.tsn then sent + 1 else sent

def strikeSent (cfg : SenderConfig) (e : StrikeEnv n) (c : SentChunk n) : ℕ :=
  if e.accumMoved && e.fastRetranLossRecovery then strikeDac cfg e c (c.sent + 1)
  else if c.doingFastRetransmit && !cfg.cmtOnOff then
    if tsnGe e.biggestTsnNewlyAcked c.fastRetranTsn then strikeDac cfg e c (c.sent + 1)
    else c.sent
  else if tsnGt c.tsn e.biggestTsnNewlyAcked then c.sent
  else strikeDac cfg e c (c.sent + 1)

/-- A chunk struck often enough is marked for retransmission. -/
def fastRetransmit (cfg : SenderConfig) (e : StrikeEnv n) (s : Asoc n) (c : SentChunk n) :
    Asoc n × List (SentChunk n) :=
  let net := s.nets c.whoTo
  let a := ((s.setNet c.whoTo { net with netAck := net.netAck + 1 }).leaveFlight c).retranIncr
  ({ a with peersRwnd := a.peersRwnd + (c.sendSize + cfg.peerChunkOh) },
    [{ c.unprobed with
      sent := datagramResend
      noFrAllowed := c.noFrAllowed || cfg.cmtOnOff
      whoTo := if cfg.cmtOnOff then e.alternate c.whoTo else c.whoTo
      doingFastRetransmit := true
      fastRetranTsn := s.sendQueue.getD s.sendingSeq }])

/-- One chunk of `sctp_strike_gap_ack_chunks`. -/
def strikeChunk (cfg : SenderConfig) (e : StrikeEnv n) (s : Asoc n) (c : SentChunk n) :
    Option (Asoc n × List (SentChunk n)) :=
  if c.noFrAllowed then some (s, [c])
  else if tsnGt c.tsn e.biggestTsnAcked ∨ c.sent = datagramUnsent then none
  else if tsnGt c.tsn s.thisSackHighestGap then none
  else if datagramResend ≤ c.sent then some (s, [c])
  else if (s.nets c.whoTo).sawNewack = false ∨
      tsnGt c.tsn (s.nets c.whoTo).thisSackHighestNewack then some (s, [c])
  else if strikeSent cfg e c = datagramResend then some (fastRetransmit cfg e s c)
  else some (s, [{ c with sent := strikeSent cfg e c }])

/-- A SACK or NR-SACK, and what the handler takes from outside it. -/
structure Sack (n : ℕ) where
  cumAck : Tsn
  rwnd : ℕ
  segs : List (ℕ × ℕ)
  nrSegs : List (ℕ × ℕ)
  /-- `SCTP_SACK_CMT_DAC` -/
  cmtDacFlag : Bool
  ecneSeen : Bool
  fastRetranLossRecovery : Bool
  alternate : Fin n → Fin n

def Sender.idleSack (cfg : SenderConfig) (rwnd : ℕ) (s : Sender n) : Sender n :=
  { s with
    peersRwnd := swsCut cfg rwnd
    toFlight := { s.toFlight.clear with sentQueueRetranCnt := 0 } }

/-- The association and its queue between two parts of the handler. -/
structure SackRun (n : ℕ) extends Sender n where
  accumMoved : Bool
  biggestTsnAcked : Tsn
  biggestTsnNewlyAcked : Tsn
  thisSackLowestNewack : Tsn

/-- The cumulative ack is worked in and the chunks it passes are marked. -/
def cumAckPart (sack : Sack n) (s : Sender n) : SackRun n :=
  let r := walk (markCumAcked sack.cumAck)
    { toAsoc := s.toAsoc.resetNets, accumMoved := false, thisSackLowestNewack := 0 } s.sentQueue
  { toAsoc := { r.1.toAsoc with thisSackHighestGap := sack.cumAck }
    sentQueue := r.2
    accumMoved := r.1.accumMoved
    biggestTsnAcked := sack.cumAck
    biggestTsnNewlyAcked := sack.cumAck
    thisSackLowestNewack := r.1.thisSackLowestNewack }

def Sack.hasSegs (sack : Sack n) : Bool := !sack.segs.isEmpty || !sack.nrSegs.isEmpty

def gapPart (sack : Sack n) (r : SackRun n) : SackRun n :=
  if sack.hasSegs then
    let a : Asoc n :=
      { r.toAsoc with
        nets := fun i =>
          { r.nets i with sawNewack := false, thisSackHighestNewack := sack.cumAck } }
    let k := handleSegments sack.cumAck sack.segs sack.nrSegs
      { toAsoc := a
        biggestTsnAcked := r.biggestTsnAcked
        biggestTsnNewlyAcked := r.biggestTsnNewlyAcked
        thisSackLowestNewack := r.thisSackLowestNewack } r.sentQueue
    { toAsoc := k.toAsoc
      sentQueue := k.queue
      accumMoved := r.accumMoved
      biggestTsnAcked := k.biggestTsnAcked
      biggestTsnNewlyAcked := k.biggestTsnNewlyAcked
      thisSackLowestNewack := k.thisSackLowestNewack }
  else r

/-- The chunks at or below the cumulative ack leave the sent queue. -/
def dropPart (cfg : SenderConfig) (sack : Sack n) (s : Sender n) : Sender n :=
  let r := walk (dropCumAcked cfg sack.cumAck) { s.toAsoc with lastAckedSeq := sack.cumAck }
    s.sentQueue
  { toAsoc := if r.2.isEmpty && decide (0 < r.1.totalFlight) then { r.1 with totalFlight := 0 }
      else r.1
    sentQueue := r.2 }

/-- Chunks the peer acked before and does not ack any more. -/
def revokePart (sack : Sack n) (biggestTsnAcked : Tsn) (s : Sender n) : Sender n :=
  let r :=
    if !sack.segs.isEmpty then walk (checkForRevoked sack.cumAck biggestTsnAcked) s.toAsoc s.sentQueue
    else if s.sawSackWithFrags then walk revokeAcked s.toAsoc s.sentQueue
    else (s.toAsoc, s.sentQueue)
  { toAsoc := { r.1 with
      sawSackWithFrags := !sack.segs.isEmpty
      sawSackWithNrFrags := !sack.nrSegs.isEmpty }
    sentQueue := r.2 }

def strikePart (cfg : SenderConfig) (sack : Sack n) (e : StrikeEnv n) (s : Sender n) : Sender n :=
  let a := { s.toAsoc with nets := fun i => { s.nets i with netAck := 0 } }
  if sack.hasSegs then
    let r := walk (strikeChunk cfg e) a s.sentQueue
    { toAsoc := r.1, sentQueue := r.2 }
  else { toAsoc := a, sentQueue := s.sentQueue }

/-- The arguments of `sctp_strike_gap_ack_chunks`. -/
def strikeEnv (cfg : SenderConfig) (sack : Sack n) (r : SackRun n) (nets : Fin n → Net) :
    StrikeEnv n :=
  { biggestTsnAcked := r.biggestTsnAcked
    biggestTsnNewlyAcked := r.biggestTsnNewlyAcked
    thisSackLowestNewack :=
      if cfg.cmtOnOff && cfg.cmtUseDac && !sack.cmtDacFlag then sack.cumAck
      else r.thisSackLowestNewack
    accumMoved := r.accumMoved
    fastRetranLossRecovery := sack.fastRetranLossRecovery
    numDestsSacked := (List.finRange n).countP fun i => (nets i).sawNewack
    alternate := sack.alternate }

def sackTail (cfg : SenderConfig) (sack : Sack n) (oldRwnd : ℕ) (e : StrikeEnv n) (s : Sender n) :
    Sender n :=
  let s := (strikePart cfg sack e s).setRwnd cfg sack.rwnd
  let s := againLoop (decide (oldRwnd < s.peersRwnd)) false s
  { s with toAsoc := s.toAsoc.advancePeerAckPoint sack.cumAck }

/-- The shutdown part; unlike the express handler it returns when the shutdown goes on. -/
def sackShutdown (cfg : SenderConfig) (rwnd : ℕ) (s : Sender n) (rest : Sender n → Sender n) :
    Option (Sender n) :=
  if s.drained then
    let b := s.toBacklog.leavePartial true
    let s := { s with peersRwnd := swsCut cfg rwnd }
    match b.shutdownMove with
    | .stay => some (rest { s with toBacklog := b })
    | .abort => none
    | .shut b => some { s with toBacklog := b }
  else some (rest s)

/-- Behind the gap blocks: drop, revoke, congestion control. -/
def settlePart (cfg : SenderConfig) (sack : Sack n) (r : SackRun n) : Sender n :=
  let s := revokePart sack r.biggestTsnAcked (dropPart cfg sack r.toSender)
  Sender.syncFlight { s with toAsoc := s.toAsoc.cwndUpdateAfterSack sack.ecneSeen }

def handleSack (cfg : SenderConfig) (sack : Sack n) (s : Sender n) : Option (Sender n) :=
  if cfg.strictSacks && tsnGe sack.cumAck s.sendS then none
  else if tsnGt s.lastAckedSeq sack.cumAck then some s.hushed
  else if s.drained && s.streamQueueCnt == 0 then some (s.hushed.idleSack cfg sack.rwnd)
  else
    let r := gapPart sack (cumAckPart sack s.hushed)
    if cfg.strictSacks && sack.hasSegs && tsnGe r.biggestTsnAcked s.sendS then none
    else
      let s' := settlePart cfg sack r
      sackShutdown cfg sack.rwnd s'
        (sackTail cfg sack s.peersRwnd (strikeEnv cfg sack r s'.nets))

end Sctp
