import Sctp.Receiver.Stream

/-! `sctp_process_a_data_chunk`: what becomes of one DATA or I-DATA chunk. -/
namespace Sctp
open Bitmap

structure DataChunk where
  tsn : Tsn
  streamId : StreamNo
  streamSequence : Ssn
  protocolId : BitVec 32
  chunkFlags : RcvFlags
  /-- `msg_id` and `fsn` of an I-DATA chunk. -/
  ndata : Option (BitVec 32 × BitVec 32)
  data : List Byte
deriving DecidableEq, Repr

namespace DataChunk

variable (ch : DataChunk)

def oldData : Bool := ch.ndata.isNone

def msgId : BitVec 32 :=
  match ch.ndata with
  | some nch => nch.1
  | none => ch.streamSequence.setWidth 32

def fsn : BitVec 32 :=
  match ch.ndata with
  | some nch => nch.2
  | none => ch.tsn

def ordered : Bool := !ch.chunkFlags.unordered

def buildReadqEntryMac (id : ℕ) : Control :=
  { id := id, sinfoStream := ch.streamId, sinfoSsn := ch.streamSequence, sinfoFlags := ch.chunkFlags
    sinfoPpid := ch.protocolId, sinfoTsn := ch.tsn, msgId := ch.msgId, length := 0, topFsn := ch.fsn
    fsnIncluded := 0, data := if ch.chunkFlags.notFrag then ch.data else [], reasm := []
    endAdded := false, lastFragSeen := false, firstFragSeen := false, onReadQ := false
    oldData := ch.oldData }

def recvChunk : RecvChunk :=
  { tsn := ch.tsn, fsn := ch.fsn, streamNumber := ch.streamId, streamSeq := ch.streamSequence
    payloadtype := ch.protocolId, rcvFlags := ch.chunkFlags, data := ch.data }

def fault (spot : AbortSpot) : Fault := .abort spot ch.tsn ch.streamId ch.streamSequence

end DataChunk

/-- What a data chunk meets outside the association. -/
structure ChunkEnv extends RecvConfig where
  /-- Nobody is left to read from the socket. -/
  socketGone : Bool
  cntMsgOnSb : ℕ
  myRwnd : BitVec 32

/-- The association with what the next SACK is told. -/
structure DataReceiver extends Receiver where
  sendSack : Bool
  dupTsns : List Tsn

def maxDupTsns : ℕ := 20

inductive ChunkDone where
  /-- A duplicate, or out of reach of the map. -/
  | ignored
  /-- Marked as received and thrown away. -/
  | badStream
  /-- No room: the rest of the packet is not looked at. -/
  | full
  /-- The function returns 1. -/
  | taken
deriving DecidableEq, Repr

inductive ChunkEnd where
  | gone
  | fault (f : Fault)
deriving DecidableEq, Repr

namespace StreamIn

def findReasmEntry (strm : StreamIn) (msgId : BitVec 32) (ordered old : Bool) : Option Control :=
  if ordered then strm.inqueue.find? fun reasm => reasm.msgId == msgId
  else if old then strm.unoInqueue.head?.filter fun reasm => reasm.oldData
  else strm.unoInqueue.find? fun reasm => reasm.msgId == msgId

def findReasmEntryToo (strm : StreamIn) (stream : StreamNo) (seq : Ssn) (ordered old : Bool) :
    Option Control :=
  if ordered then
    strm.inqueue.find? fun reasm => reasm.sinfoStream == stream && reasm.sinfoSsn == seq
  else if old then strm.unoInqueue.head?
  else strm.unoInqueue.find? fun reasm => reasm.sinfoStream == stream

end StreamIn

namespace RecvAsoc

/-- The chunk at `gap` is marked, as one that may be revoked if the receiver drains. -/
def markChunk (asoc : RecvAsoc) (drain : Bool) (tsn : Tsn) (gap : ℕ) : RecvAsoc :=
  { asoc with
    toTsnMap := if drain then asoc.toTsnMap.setPresent tsn gap else asoc.toTsnMap.setNrPresent tsn gap }

/-- As many chunks wait as may, or the window is closed. -/
def noRoom (asoc : RecvAsoc) (env : ChunkEnv) : Bool :=
  decide (env.maxChunksOnQueue ≤ asoc.cntOnAllStreams + asoc.cntOnReasmQueue + env.cntMsgOnSb) ||
    decide (env.myRwnd.toInt ≤ 0)

/-- Without room only what fills a hole is let through. -/
def dumps (asoc : RecvAsoc) (ch : DataChunk) (control : Option Control) : Bool :=
  if ch.oldData then
    tsnGt ch.tsn asoc.highestTsnInsideMap && tsnGt ch.tsn asoc.highestTsnInsideNrMap
  else control.all fun control => tsnGt ch.fsn control.topFsn

end RecvAsoc

/-- The place on `pending_reply_queue`, by TSN. -/
def insertPending (control : Control) : List Control → List Control
  | [] => [control]
  | ctlOn :: q =>
    if tsnGt control.sinfoTsn ctlOn.sinfoTsn then ctlOn :: insertPending control q
    else control :: ctlOn :: q

namespace Receiver

def resetInStream (s : Receiver) (list : List StreamNo) : Receiver :=
  { s with
    strmin := fun strm =>
      if (list.isEmpty || list.contains strm) && decide (strm.toNat < s.streamincnt) then
        { s.strmin strm with lastSequenceDelivered := 0xffff }
      else s.strmin strm }

/-- `sctp_deliver_reasm_check` on one of the streams. -/
def deliver (cfg : RecvConfig) (s : Receiver) (strmno : StreamNo) : Except Fault Receiver :=
  (deliverReasmCheck cfg (s.onStream strmno)).map fun r => s.setAt strmno r.1

/-- A control goes to a stream, `sctp_queue_data_to_stream`. -/
def queueTo (cfg : RecvConfig) (strmno : StreamNo) (s : Receiver) (control : Control) :
    Except Fault (Receiver × Bool) :=
  (queueDataToStream cfg (s.onStream strmno) control).map fun r => (s.setAt strmno r.1, r.2)

/-- The parked messages that the reset `next` does not hold back, and the others. -/
def splitPending (pending : List Control) : List StreamResetList → List Control × List Control
  | [] => (pending, [])
  | next :: _ => pending.span fun ctl => !tsnGt ctl.sinfoTsn next.tsn

/-- The streams are reset, and what was parked for that goes to the stream of the current chunk. -/
def serviceReset (cfg : RecvConfig) (s : Receiver) (strmno : StreamNo) (liste : StreamResetList)
    (rest : List StreamResetList) : Except Fault Receiver := do
  let parked := splitPending s.pendingReplyQueue rest
  let s ← parked.1.foldlM (fun s ctl => (s.queueTo cfg strmno ctl).map (·.1))
    { s.resetInStream liste.listOfStreams with resetHead := rest, pendingReplyQueue := parked.2 }
  s.deliver cfg strmno

/-- Behind `finish_express_del`. -/
def finish (cfg : RecvConfig) (s : Receiver) (ch : DataChunk) (needReasmCheck : Bool) :
    Except Fault Receiver :=
  let s := { s with toTsnMap := s.toTsnMap.bumpCumAck ch.tsn }
  match s.resetHead with
  | liste :: rest =>
    if tsnGe s.cumulativeTsn liste.tsn then s.serviceReset cfg ch.streamId liste rest
    else if needReasmCheck then s.deliver cfg ch.streamId
    else .ok s
  | [] => if needReasmCheck then s.deliver cfg ch.streamId else .ok s

/-- A whole message that can go to the read queue at once. -/
def express (s : Receiver) (ch : DataChunk) : Bool :=
  s.resetHead.isEmpty &&
    (!ch.ordered || ((s.strmin ch.streamId).lastSequenceDelivered + 1 == ch.streamSequence &&
      (s.strmin ch.streamId).inqueue.isEmpty))

def expressDelivered (s : Receiver) (ch : DataChunk) (gap : ℕ) (control : Control) : Receiver :=
  let strm := s.strmin ch.streamId
  s.setAt ch.streamId
    { toRecvAsoc := RecvAsoc.addToReadq
        { s.toRecvAsoc with toTsnMap := s.toTsnMap.setNrPresent ch.tsn gap } control true
      strm := if ch.ordered then
        { strm with lastSequenceDelivered := strm.lastSequenceDelivered + 1 } else strm }

/-- A message behind the TSN of a stream reset is parked. -/
def parks (s : Receiver) (ch : DataChunk) : Bool :=
  s.resetHead.head?.any fun liste => tsnGt ch.tsn liste.tsn

def storeWhole (cfg : RecvConfig) (s : Receiver) (ch : DataChunk) (gap : ℕ) :
    Except Fault Receiver := do
  let control := ch.buildReadqEntryMac s.nextId
  let s := { s with nextId := s.nextId + 1 }
  if s.express ch then (s.expressDelivered ch gap control).finish cfg ch false
  else
    let s := { s with toRecvAsoc := s.toRecvAsoc.markChunk cfg.doDrain ch.tsn gap }
    if s.parks ch then
      Receiver.finish cfg
        { s with pendingReplyQueue := insertPending control s.pendingReplyQueue } ch false
    else if ch.chunkFlags.unordered then
      Receiver.finish cfg
        { s with
          toRecvAsoc := RecvAsoc.addToReadq
            { s.toRecvAsoc with toTsnMap := s.toTsnMap.markNonRevokable cfg.doDrain ch.tsn }
            control true } ch false
    else
      let r ← s.queueTo cfg ch.streamId control
      r.1.finish cfg ch r.2

def storeFragment (cfg : RecvConfig) (s : Receiver) (ch : DataChunk) (gap : ℕ)
    (control : Option Control) : Except Fault Receiver := do
  let created := control.isNone
  let control := control.getD (ch.buildReadqEntryMac s.nextId)
  let s := { s with
    toRecvAsoc := RecvAsoc.markChunk
      { s.toRecvAsoc with nextId := if created then s.nextId + 1 else s.nextId } cfg.doDrain ch.tsn gap }
  let x ← queueDataForReasm cfg (s.onStream ch.streamId) control ch.recvChunk created
  (s.setAt ch.streamId x).finish cfg ch true

def entry (s : Receiver) (ch : DataChunk) : Option Control :=
  if ch.chunkFlags.notFrag then none
  else (s.strmin ch.streamId).findReasmEntry ch.msgId ch.ordered ch.oldData

def misfits (s : Receiver) (ch : DataChunk) : Bool :=
  if ch.chunkFlags.notFrag then
    ((s.strmin ch.streamId).findReasmEntryToo ch.streamId ch.streamSequence ch.ordered
      ch.oldData).isSome
  else (s.entry ch).any fun control =>
    (ch.ordered && ch.streamSequence != control.sinfoSsn) ||
      ch.ordered == control.sinfoFlags.unordered

/-- A message starts behind what was delivered already. -/
def behind (s : Receiver) (ch : DataChunk) : Bool :=
  ch.chunkFlags.first && s.resetHead.isEmpty && ch.ordered &&
    ssnGe (s.strmin ch.streamId).lastSequenceDelivered ch.streamSequence

def accept (env : ChunkEnv) (s : Receiver) (ch : DataChunk) (gap : ℕ) :
    Except Fault (Receiver × ChunkDone) :=
  if s.streamincnt ≤ ch.streamId.toNat then
    .ok ({ s with toTsnMap := (s.toTsnMap.setNrPresent ch.tsn gap).bumpCumAck ch.tsn }, .badStream)
  else if s.misfits ch then .error (ch.fault .loc7)
  else if s.noRoom env && s.dumps ch (s.entry ch) then .ok (s, .full)
  else if s.behind ch then .error (ch.fault .loc8)
  else
    (if ch.chunkFlags.notFrag then s.storeWhole env.toRecvConfig ch gap
      else s.storeFragment env.toRecvConfig ch gap (s.entry ch)).map (·, .taken)

end Receiver

/-- The map has a bit at `gap`. -/
def TsnMap.reach (s : TsnMap) (gap : ℕ) : TsnMap :=
  if 8 * s.mappingArraySize ≤ gap then s.expandMappingArray gap else s

/-- The TSN is ahead of the cumulative TSN, and the map can be made to reach it. -/
def TsnMap.InReach (s : TsnMap) (tsn : Tsn) : Prop :=
  tsnGe s.cumulativeTsn tsn = false ∧
    (calcTsnToGap tsn s.mappingArrayBaseTsn).toNat < 8 * mappingArrayMax

namespace DataReceiver

def noteDup (s : DataReceiver) (tsn : Tsn) : DataReceiver :=
  { s with
    sendSack := true
    dupTsns := if s.dupTsns.length < maxDupTsns then s.dupTsns ++ [tsn] else s.dupTsns }

def processADataChunk (env : ChunkEnv) (s : DataReceiver) (ch : DataChunk) :
    Except ChunkEnd (DataReceiver × ChunkDone) :=
  let s := { s with sendSack := s.sendSack || ch.chunkFlags.sackImmediately }
  if tsnGe s.cumulativeTsn ch.tsn then .ok (s.noteDup ch.tsn, .ignored)
  else
    let gap := (calcTsnToGap ch.tsn s.mappingArrayBaseTsn).toNat
    if 8 * mappingArrayMax ≤ gap then .ok (s, .ignored)
    else
      let s := { s with toTsnMap := s.toTsnMap.reach gap }
      if isSet s.mappingArray gap || isSet s.nrMappingArray gap then .ok (s.noteDup ch.tsn, .ignored)
      else if env.socketGone then .error .gone
      else
        (s.toReceiver.accept env ch gap).mapError ChunkEnd.fault |>.map fun r =>
          ({ s with toReceiver := r.1 }, r.2)

end DataReceiver

end Sctp
