import Sctp.ForwardTsn
import Sctp.Output.MoveToOutqueue
import Sctp.Receiver.State
import Sctp.StreamReset.Model

/-! A peer that restarted: what `sctp_process_cookie_existing` makes of the old association when a
COOKIE-ECHO has two new tags and the right tie-tags (case A of the table in section 5.2.4). -/
namespace Sctp
open Bitmap

structure RestartNet where
  addr : ℕ
  flightSize : ℕ
deriving DecidableEq, Repr

structure RestartAsoc extends TsnMap where
  myVtag : BitVec 32
  peerVtag : BitVec 32
  myVtagNonce : BitVec 32
  peerVtagNonce : BitVec 32
  peerSupportsNat : Bool
  /-- `SCTP_STATE_ABOUT_TO_BE_FREED` and `SCTP_STATE_CLOSED_SOCKET` of the association,
  `SCTP_PCB_FLAGS_SOCKET_GONE` and `SCTP_PCB_FLAGS_SOCKET_ALLGONE` of its endpoint. -/
  aboutToBeFreed : Bool
  closedSocket : Bool
  socketGone : Bool
  sentQueue : List TmitChunk
  sentQueueCnt : BitVec 32
  sendQueue : List TmitChunk
  sendQueueCnt : BitVec 32
  totalFlight : ℕ
  totalFlightCount : ℕ
  sentQueueRetranCnt : ℕ
  prSctpCnt : ℕ
  nets : List RestartNet
  strmout : StreamNo → StreamOut
  streamoutcnt : ℕ
  strmRealoutsize : ℕ
  preOpenStreams : ℕ
  streamQueueCnt : BitVec 32
  lockedOnSending : Option StreamNo
  /-- The streams the scheduler has, and the one it served last. -/
  wheel : List StreamNo
  lastOutStream : Option StreamNo
  sendingSeq : Tsn
  lastAckedSeq : Tsn
  advancedPeerAckPoint : Tsn
  asconfSeqOut : Tsn
  asconfSeqOutAcked : Tsn
  asconfSeqIn : Tsn
  maxInboundStreams : ℕ
  streamincnt : ℕ
  strmin : StreamNo → StreamIn
  readQueue : List Control
  strResetSeqOut : ResetSeq
  strResetSeqIn : ResetSeq
  streamResetOutstanding : ℕ
  streamResetOutIsOutstanding : Bool
  strReset : Option ℕ
  /-- The STREAM-RESET chunks on `control_send_queue`. -/
  controlSendQueue : List ResetChunk
  strmPendingAddSize : ℕ
  resetHead : List StreamResetList
  pendingReplyQueue : List Control

/-- The cookie, with the INIT of the peer and the INIT-ACK it was answered with. -/
structure RestartCookie where
  /-- `initiate_tag`, `num_outbound_streams` and `initial_tsn` of the INIT-ACK. -/
  myTag : BitVec 32
  myNumOutboundStreams : ℕ
  myInitialTsn : Tsn
  /-- The same of the INIT, and `num_inbound_streams`. -/
  peerTag : BitVec 32
  peerNumOutboundStreams : ℕ
  peerNumInboundStreams : ℕ
  peerInitialTsn : Tsn
  /-- The addresses in the INIT and the one it came from. -/
  addrs : List ℕ
  tieTagMyVtag : BitVec 32
  tieTagPeerVtag : BitVec 32

/-- What the allocators do, and whether the addresses could be loaded. -/
structure RestartEnv where
  strminOk : Bool
  addressesOk : Bool

namespace RestartAsoc

/-- Case A: both tags are new, and the tie-tags are those of this association. -/
def caseA (s : RestartAsoc) (c : RestartCookie) : Bool :=
  c.myTag != s.myVtag && c.peerTag != s.peerVtag && c.tieTagMyVtag == s.myVtagNonce &&
    c.tieTagPeerVtag == s.peerVtagNonce && c.tieTagPeerVtag != 0 && !s.peerSupportsNat

def releaseChunk (strmout : StreamNo → StreamOut) (chk : TmitChunk) : StreamNo → StreamOut :=
  if chk.sent = datagramNrAcked then strmout
  else fun i =>
    if i = chk.streamNumber then
      { strmout i with chunksOnQueues := (strmout i).chunksOnQueues - 1 }
    else strmout i

def reports (s : RestartAsoc) : Bool := !s.aboutToBeFreed && !s.socketGone && !s.closedSocket

/-- The messages on the streams from `lo` to `hi`. -/
def pending (s : RestartAsoc) (lo hi : ℕ) : ℕ :=
  ((List.range' lo (hi - lo)).map fun i => (s.strmout (BitVec.ofNat 16 i)).outqueue.length).sum

def reportAllOutbound (s : RestartAsoc) : RestartAsoc :=
  if !s.reports then s
  else
    let strmout := s.sendQueue.foldl releaseChunk (s.sentQueue.foldl releaseChunk s.strmout)
    { s with
      sentQueue := []
      sentQueueCnt := s.sentQueueCnt - BitVec.ofNat 32 s.sentQueue.length
      sendQueue := []
      sendQueueCnt := s.sendQueueCnt - BitVec.ofNat 32 s.sendQueue.length
      strmout := fun i =>
        if i.toNat < s.streamoutcnt then { strmout i with outqueue := [] } else strmout i
      streamQueueCnt := s.streamQueueCnt - BitVec.ofNat 32 (s.pending 0 s.streamoutcnt)
      lockedOnSending := if s.streamoutcnt = 0 then s.lockedOnSending else none }

def restartStreams (s : RestartAsoc) : RestartAsoc :=
  { s with
    strmout := fun i =>
      if i.toNat < s.streamoutcnt then
        { s.strmout i with
          chunksOnQueues := 0, streamNo := i, nextSequenceSend := 0, lastMsgIncomplete := false }
      else s.strmout i }

/-- The peer takes fewer streams than we asked for: what is queued for the others goes. -/
def abandonUpperStreams (s : RestartAsoc) (newcnt : ℕ) : RestartAsoc :=
  let gone := s.sendQueue.filter fun chk => decide (newcnt ≤ chk.streamNumber.toNat)
  let strmout := gone.foldl releaseChunk s.strmout
  { s with
    sendQueue := s.sendQueue.filter fun chk => !decide (newcnt ≤ chk.streamNumber.toNat)
    sendQueueCnt := s.sendQueueCnt - BitVec.ofNat 32 gone.length
    strmout := fun i =>
      if newcnt ≤ i.toNat ∧ i.toNat < s.preOpenStreams then { strmout i with outqueue := [] }
      else strmout i
    streamQueueCnt := s.streamQueueCnt - BitVec.ofNat 32 (s.pending newcnt s.preOpenStreams)
    preOpenStreams := newcnt }

def freshStreamIn : StreamIn :=
  { inqueue := [], unoInqueue := [], unoPd := none, lastSequenceDelivered := 0xffff
    pdApiStarted := false }

def fewerStreams (s : RestartAsoc) (c : RestartCookie) : RestartAsoc :=
  if c.peerNumInboundStreams < s.preOpenStreams then s.abandonUpperStreams c.peerNumInboundStreams
  else s

def takeInit (s : RestartAsoc) (c : RestartCookie) : RestartAsoc :=
  { s with
    peerVtag := c.peerTag
    highestTsnInsideMap := c.peerInitialTsn - 1
    highestTsnInsideNrMap := c.peerInitialTsn - 1
    asconfSeqIn := c.peerInitialTsn - 1
    strmRealoutsize := s.preOpenStreams
    streamoutcnt := s.preOpenStreams
    strResetSeqIn := c.peerInitialTsn - 1 + 1
    mappingArrayBaseTsn := c.peerInitialTsn
    cumulativeTsn := c.peerInitialTsn - 1
    advancedPeerAckPoint := s.lastAckedSeq
    streamincnt := min s.maxInboundStreams c.peerNumOutboundStreams
    strmin := fun _ => freshStreamIn }

/-- `sctp_process_init`; nothing is left without memory for the incoming streams. -/
def processInit (env : RestartEnv) (s : RestartAsoc) (c : RestartCookie) : Option RestartAsoc :=
  if !env.strminOk then none else some ((s.fewerStreams c).takeInit c)

/-- `sctp_load_addresses_from_init`: addresses that are not in the INIT go, new ones come. -/
def loadAddresses (s : RestartAsoc) (addrs : List ℕ) : RestartAsoc :=
  { s with
    nets := s.nets.filter (fun net => addrs.contains net.addr) ++
      (addrs.filter fun addr => !(s.nets.map (·.addr)).contains addr).map
        fun addr => { addr := addr, flightSize := 0 } }

/-- The sequence numbers of both directions, before the INIT is looked at. -/
def takeInitAck (s : RestartAsoc) (c : RestartCookie) : RestartAsoc :=
  { s with
    preOpenStreams := c.myNumOutboundStreams
    sendingSeq := c.myInitialTsn
    asconfSeqOut := c.myInitialTsn
    strResetSeqOut := c.myInitialTsn
    asconfSeqOutAcked := c.myInitialTsn - 1
    asconfSeqIn := c.myInitialTsn - 1
    lastAckedSeq := c.myInitialTsn - 1
    strResetSeqIn := c.myInitialTsn
    advancedPeerAckPoint := c.myInitialTsn - 1
    mappingArray := TsnMap.zeroBytes s.mappingArray s.mappingArraySize
    nrMappingArray := TsnMap.zeroBytes s.nrMappingArray s.mappingArraySize }

/-- The old association is reported and its counters start again, before the INIT is looked at. -/
def leaveOld (s : RestartAsoc) (c : RestartCookie) : RestartAsoc :=
  { (s.takeInitAck c).reportAllOutbound.restartStreams with
    myVtag := c.myTag, totalFlight := 0, totalFlightCount := 0 }

/-- `sctp_process_cookie_existing` in case A. Nothing is left when it does not accept the cookie. -/
def processCookieExisting (env : RestartEnv) (s : RestartAsoc) (c : RestartCookie) :
    Option RestartAsoc :=
  if !s.caseA c then none
  else
    match (s.leaveOld c).processInit env c with
    | none => none
    | some s => if !env.addressesOk then none else some (s.loadAddresses c.addrs)

/-- An association as the cookie describes it, without a trace of the old one. -/
structure Clean (s : RestartAsoc) (c : RestartCookie) : Prop where
  sentQueue : s.sentQueue = []
  sendQueue : s.sendQueue = []
  outqueues : ∀ i : StreamNo, i.toNat < s.streamoutcnt → (s.strmout i).outqueue = []
  totalFlight : s.totalFlight = 0
  totalFlightCount : s.totalFlightCount = 0
  sentQueueRetranCnt : s.sentQueueRetranCnt = 0
  sentQueueCnt : s.sentQueueCnt = 0
  sendQueueCnt : s.sendQueueCnt = 0
  prSctpCnt : s.prSctpCnt = 0
  flightSizes : ∀ net ∈ s.nets, net.flightSize = 0
  scheduler : s.wheel = [] ∧ s.lastOutStream = none
  ssns : ∀ i : StreamNo, i.toNat < s.streamoutcnt → (s.strmout i).nextSequenceSend = 0
  sending : s.sendingSeq = c.myInitialTsn ∧ s.lastAckedSeq = c.myInitialTsn - 1 ∧
    s.advancedPeerAckPoint = c.myInitialTsn - 1
  receiving : s.cumulativeTsn = c.peerInitialTsn - 1 ∧ s.mappingArrayBaseTsn = c.peerInitialTsn ∧
    s.highestTsnInsideMap = c.peerInitialTsn - 1 ∧ s.highestTsnInsideNrMap = c.peerInitialTsn - 1
  maps : ∀ k, s.has k = false
  numbersIn : s.asconfSeqIn = c.peerInitialTsn - 1 ∧ s.strResetSeqIn = c.peerInitialTsn
  requests : s.streamResetOutstanding = 0 ∧ s.streamResetOutIsOutstanding = false ∧
    s.strReset = none ∧ s.controlSendQueue = [] ∧ s.strmPendingAddSize = 0
  resets : s.resetHead = [] ∧ s.pendingReplyQueue = []
  partialDelivery : (∀ control ∈ s.readQueue, control.endAdded = true) ∧
    ∀ i : StreamNo, i.toNat < s.streamincnt →
      (s.strmin i).pdApiStarted = false ∧ (s.strmin i).unoPd = none

def newStreamoutcnt (c : RestartCookie) : ℕ :=
  min c.myNumOutboundStreams c.peerNumInboundStreams

/-- What nothing cleans up is clean already: the retransmission and PR-SCTP counters, the flight of
the destinations that stay, the scheduler, stream resets and partial delivery; and the queues, where
the streams change in number or nothing is reported any more. -/
structure Quiet (s : RestartAsoc) (c : RestartCookie) : Prop where
  sentQueue : s.reports = false → s.sentQueue = []
  sendQueue : s.reports = false → ∀ chk ∈ s.sendQueue,
    c.peerNumInboundStreams < c.myNumOutboundStreams ∧
      c.peerNumInboundStreams ≤ chk.streamNumber.toNat
  outqueues : ∀ i : StreamNo, i.toNat < newStreamoutcnt c →
    (s.reports = true → s.streamoutcnt ≤ i.toNat) → (s.strmout i).outqueue = []
  sentQueueCnt : s.sentQueueCnt = BitVec.ofNat 32 s.sentQueue.length
  sendQueueCnt : s.sendQueueCnt = BitVec.ofNat 32 s.sendQueue.length
  sentQueueRetranCnt : s.sentQueueRetranCnt = 0
  prSctpCnt : s.prSctpCnt = 0
  flightSizes : ∀ net ∈ s.nets, net.addr ∈ c.addrs → net.flightSize = 0
  scheduler : s.wheel = [] ∧ s.lastOutStream = none
  ssns : ∀ i : StreamNo, i.toNat < newStreamoutcnt c → s.streamoutcnt ≤ i.toNat →
    (s.strmout i).nextSequenceSend = 0
  requests : s.streamResetOutstanding = 0 ∧ s.streamResetOutIsOutstanding = false ∧
    s.strReset = none ∧ s.controlSendQueue = [] ∧ s.strmPendingAddSize = 0
  resets : s.resetHead = [] ∧ s.pendingReplyQueue = []
  partialDelivery : ∀ control ∈ s.readQueue, control.endAdded = true

theorem releaseChunk_frame (strmout : StreamNo → StreamOut) (chk : TmitChunk) (i : StreamNo) :
    (releaseChunk strmout chk i).outqueue = (strmout i).outqueue ∧
      (releaseChunk strmout chk i).nextSequenceSend = (strmout i).nextSequenceSend := by
  unfold releaseChunk
  split_ifs
  · exact ⟨rfl, rfl⟩
  · dsimp only
    split_ifs <;> exact ⟨rfl, rfl⟩

theorem releaseChunks_frame (q : List TmitChunk) (strmout : StreamNo → StreamOut) (i : StreamNo) :
    (q.foldl releaseChunk strmout i).outqueue = (strmout i).outqueue ∧
      (q.foldl releaseChunk strmout i).nextSequenceSend = (strmout i).nextSequenceSend := by
  induction q generalizing strmout with
  | nil => exact ⟨rfl, rfl⟩
  | cons chk q ih =>
    obtain ⟨h1, h2⟩ := ih (releaseChunk strmout chk)
    obtain ⟨h3, h4⟩ := releaseChunk_frame strmout chk i
    exact ⟨h1.trans h3, h2.trans h4⟩

structure Reported (s t : RestartAsoc) : Prop where
  sentQueue : t.sentQueue = if s.reports then [] else s.sentQueue
  sentQueueCnt : t.sentQueueCnt =
    s.sentQueueCnt - BitVec.ofNat 32 (if s.reports then s.sentQueue.length else 0)
  sendQueue : t.sendQueue = if s.reports then [] else s.sendQueue
  sendQueueCnt : t.sendQueueCnt =
    s.sendQueueCnt - BitVec.ofNat 32 (if s.reports then s.sendQueue.length else 0)
  outqueue : ∀ i, (t.strmout i).outqueue =
    if s.reports = true ∧ i.toNat < s.streamoutcnt then [] else (s.strmout i).outqueue
  nextSequenceSend : ∀ i, (t.strmout i).nextSequenceSend = (s.strmout i).nextSequenceSend
  rest : t = { s with
    sentQueue := t.sentQueue, sentQueueCnt := t.sentQueueCnt, sendQueue := t.sendQueue
    sendQueueCnt := t.sendQueueCnt, strmout := t.strmout, streamQueueCnt := t.streamQueueCnt
    lockedOnSending := t.lockedOnSending }

theorem reported_reportAllOutbound (s : RestartAsoc) : Reported s s.reportAllOutbound := by
  unfold reportAllOutbound
  cases hr : s.reports with
  | false =>
    simp only [Bool.not_false, if_true]
    exact ⟨by simp [hr], by simp [hr], by simp [hr], by simp [hr], by simp [hr], fun _ => rfl, rfl⟩
  | true =>
    have hq := fun i => releaseChunks_frame s.sendQueue (s.sentQueue.foldl releaseChunk s.strmout) i
    have hq' := fun i => releaseChunks_frame s.sentQueue s.strmout i
    simp only [Bool.not_true, Bool.false_eq_true, if_false]
    refine ⟨by simp [hr], by simp [hr], by simp [hr], by simp [hr], fun i => ?_, fun i => ?_, rfl⟩
    · simp only [hr, true_and]
      split_ifs
      · rfl
      · exact (hq i).1.trans (hq' i).1
    · dsimp only
      split_ifs <;> exact (hq i).2.trans (hq' i).2

/-- The streams that are there on both sides. -/
theorem newStreamoutcnt_eq (c : RestartCookie) :
    (if c.peerNumInboundStreams < c.myNumOutboundStreams then c.peerNumInboundStreams
      else c.myNumOutboundStreams) = newStreamoutcnt c := by
  unfold newStreamoutcnt
  split_ifs <;> omega

structure Abandoned (s : RestartAsoc) (c : RestartCookie) (t : RestartAsoc) : Prop where
  sendQueue : t.sendQueue = s.sendQueue.filter fun chk =>
    !decide (c.peerNumInboundStreams < c.myNumOutboundStreams ∧
      c.peerNumInboundStreams ≤ chk.streamNumber.toNat)
  sendQueueCnt : t.sendQueueCnt =
    s.sendQueueCnt - BitVec.ofNat 32 (s.sendQueue.length - t.sendQueue.length)
  preOpenStreams : t.preOpenStreams = newStreamoutcnt c
  outqueue : ∀ i : StreamNo, i.toNat < newStreamoutcnt c →
    (t.strmout i).outqueue = (s.strmout i).outqueue
  nextSequenceSend : ∀ i, (t.strmout i).nextSequenceSend = (s.strmout i).nextSequenceSend
  rest : t = { s with
    sendQueue := t.sendQueue, sendQueueCnt := t.sendQueueCnt, strmout := t.strmout
    streamQueueCnt := t.streamQueueCnt, preOpenStreams := t.preOpenStreams }

theorem abandoned_fewerStreams {s : RestartAsoc} {c : RestartCookie}
    (hpre : s.preOpenStreams = c.myNumOutboundStreams) :
    Abandoned s c (s.fewerStreams c) := by
  rw [fewerStreams, hpre]
  have hcnt := newStreamoutcnt_eq c
  split_ifs at hcnt ⊢ with hlt
  · have hframe := fun i => releaseChunks_frame
      (s.sendQueue.filter fun chk => decide (c.peerNumInboundStreams ≤ chk.streamNumber.toNat))
      s.strmout i
    refine ⟨?_, ?_, hcnt, fun i hi => ?_, fun i => ?_, rfl⟩
    · simp [abandonUpperStreams, hlt]
    · have hlen := List.length_eq_length_filter_add (l := s.sendQueue)
        (fun chk => decide (c.peerNumInboundStreams ≤ chk.streamNumber.toNat))
      simp only [abandonUpperStreams]
      congr 2
      omega
    · rw [← hcnt] at hi
      simp only [abandonUpperStreams]
      rw [if_neg (by omega)]
      exact (hframe i).1
    · simp only [abandonUpperStreams]
      split_ifs <;> exact (hframe i).2
  · refine ⟨?_, ?_, hpre.trans hcnt, fun i _ => rfl, fun i => rfl, rfl⟩
    · simp [hlt]
    · simp

/-- The association behind a restart, in terms of the one before it. -/
structure Restarted (s : RestartAsoc) (c : RestartCookie) (r : RestartAsoc) : Prop where
  sentQueue : r.sentQueue = if s.reports then [] else s.sentQueue
  sentQueueCnt : r.sentQueueCnt =
    s.sentQueueCnt - BitVec.ofNat 32 (if s.reports then s.sentQueue.length else 0)
  sendQueue : r.sendQueue = (if s.reports then [] else s.sendQueue).filter fun chk =>
    !decide (c.peerNumInboundStreams < c.myNumOutboundStreams ∧
      c.peerNumInboundStreams ≤ chk.streamNumber.toNat)
  sendQueueCnt : r.sendQueueCnt =
    s.sendQueueCnt - BitVec.ofNat 32 (s.sendQueue.length - r.sendQueue.length)
  streamoutcnt : r.streamoutcnt = newStreamoutcnt c
  outqueue : ∀ i : StreamNo, i.toNat < newStreamoutcnt c → (r.strmout i).outqueue =
    if s.reports = true ∧ i.toNat < s.streamoutcnt then [] else (s.strmout i).outqueue
  nextSequenceSend : ∀ i, (r.strmout i).nextSequenceSend =
    if i.toNat < s.streamoutcnt then 0 else (s.strmout i).nextSequenceSend
  nets : r.nets = s.nets.filter (fun net => c.addrs.contains net.addr) ++
    (c.addrs.filter fun addr => !(s.nets.map (·.addr)).contains addr).map
      fun addr => { addr := addr, flightSize := 0 }
  flight : r.totalFlight = 0 ∧ r.totalFlightCount = 0 ∧
    r.sentQueueRetranCnt = s.sentQueueRetranCnt ∧ r.prSctpCnt = s.prSctpCnt
  scheduler : r.wheel = s.wheel ∧ r.lastOutStream = s.lastOutStream
  sending : r.sendingSeq = c.myInitialTsn ∧ r.lastAckedSeq = c.myInitialTsn - 1 ∧
    r.advancedPeerAckPoint = c.myInitialTsn - 1
  receiving : r.toTsnMap = { s.toTsnMap.restartAt (c.peerInitialTsn - 1) with
    mappingArrayBaseTsn := c.peerInitialTsn }
  numbersIn : r.asconfSeqIn = c.peerInitialTsn - 1 ∧ r.strResetSeqIn = c.peerInitialTsn
  requests : r.streamResetOutstanding = s.streamResetOutstanding ∧
    r.streamResetOutIsOutstanding = s.streamResetOutIsOutstanding ∧ r.strReset = s.strReset ∧
    r.controlSendQueue = s.controlSendQueue ∧ r.strmPendingAddSize = s.strmPendingAddSize
  resets : r.resetHead = s.resetHead ∧ r.pendingReplyQueue = s.pendingReplyQueue
  readQueue : r.readQueue = s.readQueue
  strmin : ∀ i, r.strmin i = freshStreamIn

theorem restarted_processCookieExisting {env : RestartEnv} {s r : RestartAsoc} {c : RestartCookie}
    (h : s.processCookieExisting env c = some r) : Restarted s c r := by
  have hr : r = (((s.leaveOld c).fewerStreams c).takeInit c).loadAddresses c.addrs := by
    unfold processCookieExisting processInit at h
    cases henv : env.strminOk with
    | false => simp [henv] at h
    | true =>
      simp only [henv, Bool.not_true, Bool.false_eq_true, if_false] at h
      split_ifs at h
      exact (Option.some.inj h).symm
  have hrep := reported_reportAllOutbound (s.takeInitAck c)
  have hleave : s.leaveOld c = { (s.takeInitAck c).reportAllOutbound.restartStreams with
    myVtag := c.myTag, totalFlight := 0, totalFlightCount := 0 } := rfl
  generalize (s.takeInitAck c).reportAllOutbound = t at hrep hleave
  have hpre : (s.leaveOld c).preOpenStreams = c.myNumOutboundStreams := by
    rw [hleave, restartStreams, hrep.rest]
    rfl
  have hab := abandoned_fewerStreams hpre
  generalize (s.leaveOld c).fewerStreams c = u at hab hr
  have hcnt : t.streamoutcnt = s.streamoutcnt := by rw [hrep.rest]; rfl
  have hsent : u.sentQueue = t.sentQueue := by rw [hab.rest, hleave]; rfl
  have hsentCnt : u.sentQueueCnt = t.sentQueueCnt := by rw [hab.rest, hleave]; rfl
  have hsend : (s.leaveOld c).sendQueue = t.sendQueue := by rw [hleave]; rfl
  have hsendCnt : (s.leaveOld c).sendQueueCnt = t.sendQueueCnt := by rw [hleave]; rfl
  have hout : ∀ i, ((s.leaveOld c).strmout i).outqueue = (t.strmout i).outqueue := by
    intro i
    rw [hleave, restartStreams]
    dsimp only
    split_ifs <;> rfl
  have hssn : ∀ i, ((s.leaveOld c).strmout i).nextSequenceSend =
      if i.toNat < s.streamoutcnt then 0 else (s.strmout i).nextSequenceSend := by
    intro i
    rw [hleave, restartStreams]
    dsimp only
    rw [hcnt]
    split_ifs
    · rfl
    · exact hrep.nextSequenceSend i
  subst hr
  refine
    { sentQueue := hsent.trans hrep.sentQueue
      sentQueueCnt := hsentCnt.trans hrep.sentQueueCnt
      sendQueue := ?_
      sendQueueCnt := ?_
      streamoutcnt := hab.preOpenStreams
      outqueue := fun i hi => (hab.outqueue i hi).trans ((hout i).trans (hrep.outqueue i))
      nextSequenceSend := fun i => (hab.nextSequenceSend i).trans (hssn i)
      nets := ?_
      flight := ?_
      scheduler := ?_
      sending := ?_
      receiving := ?_
      numbersIn := ⟨rfl, BitVec.sub_add_cancel _ _⟩
      requests := ?_
      resets := ?_
      readQueue := ?_
      strmin := fun _ => rfl }
  · exact hab.sendQueue.trans (by rw [hsend, hrep.sendQueue]; rfl)
  · change u.sendQueueCnt = s.sendQueueCnt - BitVec.ofNat 32 (s.sendQueue.length - u.sendQueue.length)
    have hle : u.sendQueue.length ≤ t.sendQueue.length := by
      rw [hab.sendQueue, hsend]
      exact List.length_filter_le _ _
    rw [hab.sendQueueCnt, hsendCnt, hrep.sendQueueCnt, hsend]
    have hq : t.sendQueue = if s.reports then [] else s.sendQueue := hrep.sendQueue
    change s.sendQueueCnt - BitVec.ofNat 32 (if s.reports then s.sendQueue.length else 0) - _ = _
    cases hrp : s.reports with
    | false => simp [hq, hrp]
    | true =>
      have hnil : t.sendQueue = [] := by rw [hq, hrp]; rfl
      rw [hnil] at hle
      have hu : u.sendQueue.length = 0 := by simpa using hle
      simp [hnil, hu]
  · have hnets : (u.takeInit c).nets = s.nets := by
      rw [takeInit, hab.rest, hleave, restartStreams, hrep.rest]
      rfl
    rw [loadAddresses]
    dsimp only
    rw [hnets]
  · refine ⟨?_, ?_, ?_, ?_⟩ <;>
      simp only [loadAddresses, takeInit] <;>
      rw [hab.rest, hleave, restartStreams] <;> rw [hrep.rest] <;> rfl
  · refine ⟨?_, ?_⟩ <;>
      simp only [loadAddresses, takeInit] <;>
      rw [hab.rest, hleave, restartStreams] <;> rw [hrep.rest] <;> rfl
  · refine ⟨?_, ?_, ?_⟩ <;>
      simp only [loadAddresses, takeInit] <;>
      rw [hab.rest, hleave, restartStreams] <;> rw [hrep.rest] <;> rfl
  · simp only [loadAddresses, takeInit]
    rw [hab.rest, hleave, restartStreams, hrep.rest]
    rfl
  · refine ⟨?_, ?_, ?_, ?_, ?_⟩ <;>
      simp only [loadAddresses, takeInit] <;>
      rw [hab.rest, hleave, restartStreams] <;> rw [hrep.rest] <;> rfl
  · refine ⟨?_, ?_⟩ <;>
      simp only [loadAddresses, takeInit] <;>
      rw [hab.rest, hleave, restartStreams] <;> rw [hrep.rest] <;> rfl
  · simp only [loadAddresses, takeInit]
    rw [hab.rest, hleave, restartStreams, hrep.rest]
    rfl

end RestartAsoc

/-- A restart leaves a clean association exactly when nothing that it does not clean up is left. -/
theorem processCookieExisting_clean_iff {env : RestartEnv} {s r : RestartAsoc} {c : RestartCookie}
    (hsize : s.Sized) (h : s.processCookieExisting env c = some r) : r.Clean c ↔ s.Quiet c := by
  have hr := RestartAsoc.restarted_processCookieExisting h
  have hmaps : ∀ k, r.has k = false := fun k => by
    rw [hr.receiving]
    exact TsnMap.has_restartAt hsize (c.peerInitialTsn - 1) k
  have hsent : r.sentQueue = [] ↔ (s.reports = false → s.sentQueue = []) := by
    rw [hr.sentQueue]
    cases s.reports <;> simp
  have hsend : r.sendQueue = [] ↔ (s.reports = false → ∀ chk ∈ s.sendQueue,
      c.peerNumInboundStreams < c.myNumOutboundStreams ∧
        c.peerNumInboundStreams ≤ chk.streamNumber.toNat) := by
    rw [hr.sendQueue, List.filter_eq_nil_iff]
    cases s.reports <;> simp
  have hout : (∀ i : StreamNo, i.toNat < r.streamoutcnt → (r.strmout i).outqueue = []) ↔
      ∀ i : StreamNo, i.toNat < RestartAsoc.newStreamoutcnt c →
        (s.reports = true → s.streamoutcnt ≤ i.toNat) → (s.strmout i).outqueue = [] := by
    rw [hr.streamoutcnt]
    refine forall_congr' fun i => forall_congr' fun hi => ?_
    rw [hr.outqueue i hi]
    split_ifs with hif
    · exact ⟨fun _ hno => absurd (hno hif.1) (not_le.2 hif.2), fun _ => rfl⟩
    · refine ⟨fun hnil _ => hnil, fun hnil => hnil fun hrp => ?_⟩
      exact not_lt.1 fun hlt => hif ⟨hrp, hlt⟩
  have hssn : (∀ i : StreamNo, i.toNat < r.streamoutcnt → (r.strmout i).nextSequenceSend = 0) ↔
      ∀ i : StreamNo, i.toNat < RestartAsoc.newStreamoutcnt c → s.streamoutcnt ≤ i.toNat →
        (s.strmout i).nextSequenceSend = 0 := by
    rw [hr.streamoutcnt]
    refine forall_congr' fun i => forall_congr' fun _ => ?_
    rw [hr.nextSequenceSend]
    split_ifs with hif
    · exact ⟨fun _ hle => absurd hif (not_lt.2 hle), fun _ => rfl⟩
    · exact ⟨fun hz _ => hz, fun hz => hz (not_lt.1 hif)⟩
  have hnets : (∀ net ∈ r.nets, net.flightSize = 0) ↔
      ∀ net ∈ s.nets, net.addr ∈ c.addrs → net.flightSize = 0 := by
    rw [hr.nets]
    simp only [List.mem_append, List.mem_filter, List.contains_iff_mem, List.mem_map]
    constructor
    · exact fun hz net hnet haddr => hz net (.inl ⟨hnet, haddr⟩)
    · rintro hz net (⟨hnet, haddr⟩ | ⟨addr, -, rfl⟩)
      · exact hz net hnet haddr
      · rfl
  have hsentCnt : (s.reports = false → s.sentQueue = []) →
      (r.sentQueueCnt = 0 ↔ s.sentQueueCnt = BitVec.ofNat 32 s.sentQueue.length) := by
    intro hnil
    have hlen : (if s.reports then s.sentQueue.length else 0) = s.sentQueue.length := by
      split_ifs with hrp
      · rfl
      · rw [hnil (by simpa using hrp)]
        rfl
    rw [hr.sentQueueCnt, hlen]
    exact sub_eq_zero
  have hsendCnt : r.sendQueue = [] →
      (r.sendQueueCnt = 0 ↔ s.sendQueueCnt = BitVec.ofNat 32 s.sendQueue.length) := by
    intro hnil
    rw [hr.sendQueueCnt, hnil, List.length_nil, Nat.sub_zero]
    exact sub_eq_zero
  have hrequests := hr.requests
  constructor
  · intro hc
    exact
      { sentQueue := hsent.1 hc.sentQueue
        sendQueue := hsend.1 hc.sendQueue
        outqueues := hout.1 hc.outqueues
        sentQueueCnt := (hsentCnt (hsent.1 hc.sentQueue)).1 hc.sentQueueCnt
        sendQueueCnt := (hsendCnt hc.sendQueue).1 hc.sendQueueCnt
        sentQueueRetranCnt := hr.flight.2.2.1 ▸ hc.sentQueueRetranCnt
        prSctpCnt := hr.flight.2.2.2 ▸ hc.prSctpCnt
        flightSizes := hnets.1 hc.flightSizes
        scheduler := hr.scheduler.1 ▸ hr.scheduler.2 ▸ hc.scheduler
        ssns := hssn.1 hc.ssns
        requests := by
          obtain ⟨h1, h2, h3, h4, h5⟩ := hrequests
          rw [← h1, ← h2, ← h3, ← h4, ← h5]
          exact hc.requests
        resets := hr.resets.1 ▸ hr.resets.2 ▸ hc.resets
        partialDelivery := hr.readQueue ▸ hc.partialDelivery.1 }
  · intro hq
    exact
      { sentQueue := hsent.2 hq.sentQueue
        sendQueue := hsend.2 hq.sendQueue
        outqueues := hout.2 hq.outqueues
        totalFlight := hr.flight.1
        totalFlightCount := hr.flight.2.1
        sentQueueRetranCnt := hr.flight.2.2.1.trans hq.sentQueueRetranCnt
        sentQueueCnt := (hsentCnt hq.sentQueue).2 hq.sentQueueCnt
        sendQueueCnt := (hsendCnt (hsend.2 hq.sendQueue)).2 hq.sendQueueCnt
        prSctpCnt := hr.flight.2.2.2.trans hq.prSctpCnt
        flightSizes := hnets.2 hq.flightSizes
        scheduler := ⟨hr.scheduler.1.trans hq.scheduler.1, hr.scheduler.2.trans hq.scheduler.2⟩
        ssns := hssn.2 hq.ssns
        sending := hr.sending
        receiving := by
          rw [hr.receiving]
          exact ⟨rfl, rfl, rfl, rfl⟩
        maps := hmaps
        numbersIn := hr.numbersIn
        requests := by
          obtain ⟨h1, h2, h3, h4, h5⟩ := hrequests
          rw [h1, h2, h3, h4, h5]
          exact hq.requests
        resets := ⟨hr.resets.1.trans hq.resets.1, hr.resets.2.trans hq.resets.2⟩
        partialDelivery := by
          refine ⟨fun control hmem => hq.partialDelivery control (hr.readQueue ▸ hmem), ?_⟩
          intro i _
          rw [hr.strmin i]
          exact ⟨rfl, rfl⟩ }

/-- An established association with one destination; its cookie is answered below. -/
def idleAsoc : RestartAsoc :=
  { mappingArray := [3], nrMappingArray := [0], mappingArraySize := 1
    mappingArrayBaseTsn := 500, cumulativeTsn := 501
    highestTsnInsideMap := 501, highestTsnInsideNrMap := 499
    myVtag := 11, peerVtag := 12, myVtagNonce := 21, peerVtagNonce := 22, peerSupportsNat := false
    aboutToBeFreed := false, closedSocket := false, socketGone := false
    sentQueue := [], sentQueueCnt := 0, sendQueue := [], sendQueueCnt := 0
    totalFlight := 0, totalFlightCount := 0, sentQueueRetranCnt := 0, prSctpCnt := 0
    nets := [{ addr := 1, flightSize := 0 }]
    strmout := fun i =>
      { outqueue := [], streamNo := i, nextSequenceSend := 7, chunksOnQueues := 0
        lastMsgIncomplete := false }
    streamoutcnt := 2, strmRealoutsize := 2, preOpenStreams := 2, streamQueueCnt := 0
    lockedOnSending := none, wheel := [], lastOutStream := none
    sendingSeq := 300, lastAckedSeq := 299, advancedPeerAckPoint := 299
    asconfSeqOut := 200, asconfSeqOutAcked := 199, asconfSeqIn := 400
    maxInboundStreams := 2048, streamincnt := 2, strmin := fun _ => RestartAsoc.freshStreamIn
    readQueue := []
    strResetSeqOut := 200, strResetSeqIn := 401, streamResetOutstanding := 0
    streamResetOutIsOutstanding := false, strReset := none, controlSendQueue := []
    strmPendingAddSize := 0, resetHead := [], pendingReplyQueue := [] }

/-- The same association with a chunk of a thousand bytes that was sent. -/
def busyAsoc : RestartAsoc :=
  { idleAsoc with
    sentQueue := [{ tsn := 300, streamNumber := 0, streamSeq := 7, rcvFlags := { first := true }
                    payloadtype := 0, data := [], streamId := 0, chunkLength := 1016, msgId := 0
                    fsn := 0, sendSize := 1000, bookSize := 1000, padInplace := false
                    sent := datagramSent, context := 0, timetodrop := 0, flags := 0
                    whoTo := some 1, origin := 0 }]
    sentQueueCnt := 1
    totalFlight := 1000, totalFlightCount := 1, nets := [{ addr := 1, flightSize := 1000 }]
    sendingSeq := 301 }

def restartCookie : RestartCookie :=
  { myTag := 31, myNumOutboundStreams := 2, myInitialTsn := 9000, peerTag := 32
    peerNumOutboundStreams := 2, peerNumInboundStreams := 2, peerInitialTsn := 8000, addrs := [1]
    tieTagMyVtag := 21, tieTagPeerVtag := 22 }

def restartEnv : RestartEnv := { strminOk := true, addressesOk := true }

theorem idleAsoc_clean :
    ∃ r, idleAsoc.processCookieExisting restartEnv restartCookie = some r ∧ r.Clean restartCookie := by
  have hsome : (idleAsoc.processCookieExisting restartEnv restartCookie).isSome := by
    decide +kernel
  obtain ⟨r, hr⟩ := Option.isSome_iff_exists.1 hsome
  refine ⟨r, hr, (processCookieExisting_clean_iff ⟨rfl, rfl⟩ hr).2 ?_⟩
  refine
    { sentQueue := fun _ => rfl, sendQueue := by simp [idleAsoc], outqueues := fun _ _ _ => rfl
      sentQueueCnt := rfl, sendQueueCnt := rfl, sentQueueRetranCnt := rfl, prSctpCnt := rfl
      flightSizes := by simp [idleAsoc], scheduler := ⟨rfl, rfl⟩, ssns := ?_
      requests := ⟨rfl, rfl, rfl, rfl, rfl⟩, resets := ⟨rfl, rfl⟩
      partialDelivery := by simp [idleAsoc] }
  intro i hi hle
  have hi' : i.toNat < 2 := hi
  have hle' : 2 ≤ i.toNat := hle
  omega

/-- The flight of the destination outlives the chunk. -/
theorem busyAsoc_not_clean :
    ∃ r, busyAsoc.processCookieExisting restartEnv restartCookie = some r ∧
      ¬ r.Clean restartCookie := by
  have hbad : (busyAsoc.processCookieExisting restartEnv restartCookie).map (·.nets) =
      some [{ addr := 1, flightSize := 1000 }] := by decide +kernel
  obtain ⟨r, hr, hnets⟩ := Option.map_eq_some_iff.1 hbad
  refine ⟨r, hr, fun h => ?_⟩
  have := h.flightSizes { addr := 1, flightSize := 1000 } (by rw [hnets]; exact List.mem_cons_self)
  cases this

end Sctp
