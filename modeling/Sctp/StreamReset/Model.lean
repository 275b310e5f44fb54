import Sctp.Lib.Trace
import Sctp.ForwardTsn
import Sctp.Chunk

/-! Stream reset: requests of our own and their responses, requests of the peer and our answers. -/
namespace Sctp

abbrev ResetSeq := BitVec 32

/-- `SCTP_STREAM_RESET_RESULT_*`. -/
def resultPerformed : BitVec 32 := 1
def resultDenied : BitVec 32 := 2
def resultErrInProgress : BitVec 32 := 4
def resultErrBadSeqno : BitVec 32 := 5

def streamResetTsnDelta : Tsn := 0x1000

def maxResetParams : ℕ := 2

/-- Bytes of a parameter that are looked at, `SCTP_CHUNK_BUFFER_SIZE`. -/
def chunkBufferSize : ℕ := 512

/-- Streams that fit into a request in a cluster. -/
def resetEntriesMax : ℕ := (2048 - 52 - 4 - 16) / 2

inductive ResetParam
  | outRequest (requestSeq responseSeq : ResetSeq) (sendResetAtTsn : Tsn) (streams : List StreamNo)
  | inRequest (requestSeq : ResetSeq) (streams : List StreamNo)
  | tsnRequest (requestSeq : ResetSeq)
  | addOutStreams (requestSeq : ResetSeq) (numberOfStreams : BitVec 16)
  | addInStreams (requestSeq : ResetSeq) (numberOfStreams : BitVec 16)
  | response (responseSeq : ResetSeq) (result : BitVec 32)
  | responseTsn (responseSeq : ResetSeq) (result : BitVec 32) (sendersNextTsn receiversNextTsn : Tsn)
  /-- A parameter that ends the loop: of another type, or of a length that does not fit. -/
  | unfit
deriving DecidableEq, Repr

namespace ResetParam

def seqWord : ResetParam → ResetSeq
  | .outRequest seq _ _ _ => seq
  | .inRequest seq _ => seq
  | .tsnRequest seq => seq
  | .addOutStreams seq _ => seq
  | .addInStreams seq _ => seq
  | .response seq _ => seq
  | .responseTsn seq _ _ _ => seq
  | .unfit => 0

def isRequest : ResetParam → Bool
  | .response .. => false
  | .responseTsn .. => false
  | .unfit => false
  | _ => true

/-- The number of the request of the other side that it answers: an OUT request may do that too. -/
def answerTo : ResetParam → Option ResetSeq
  | .outRequest _ seq _ _ => some seq
  | .response seq _ => some seq
  | .responseTsn seq _ _ _ => some seq
  | _ => none

end ResetParam

/-- A STREAM-RESET chunk, with a number that stands for its address. -/
structure ResetChunk where
  id : ℕ
  params : List ResetParam
deriving DecidableEq, Repr

structure ResetAsoc extends TsnMap where
  strResetSeqOut : ResetSeq
  strResetSeqIn : ResetSeq
  streamResetOutstanding : ℕ
  streamResetOutIsOutstanding : Bool
  /-- The chunk with our requests. -/
  strReset : Option ℕ
  /-- The STREAM-RESET chunks on `control_send_queue`. -/
  controlSendQueue : List ResetChunk
  /-- Other chunks are on `control_send_queue`. -/
  otherControls : Bool
  /-- The chunk that an incoming one is being answered with. -/
  building : Option ResetChunk
  lastResetAction : BitVec 32 × BitVec 32
  lastSendingSeq : Tsn × Tsn
  lastBaseTsnsent : Tsn × Tsn
  /-- `SCTP_ENABLE_RESET_STREAM_REQ` and `SCTP_ENABLE_CHANGE_ASSOC_REQ` of
  `local_strreset_support`. -/
  enableResetStream : Bool
  enableChangeAssoc : Bool
  sendingSeq : Tsn
  lastAckedSeq : Tsn
  maxInboundStreams : ℕ
  streamincnt : ℕ
  /-- `last_sequence_delivered` of the incoming streams. -/
  lastSequenceDelivered : ℕ → Ssn
  streamoutcnt : ℕ
  strmRealoutsize : ℕ
  strmPendingAddSize : ℕ
  peerReqOut : Bool
  /-- `next_sequence_send` of the outgoing streams. -/
  nextSequenceSend : ℕ → Ssn
  /-- `resetHead`: TSN and streams of the requests that wait. -/
  resetHead : List (Tsn × List StreamNo)
  nextChunk : ℕ
  /-- The chunk that is being built was freed, and is still worked on: what follows is not defined.
  No field of the source. -/
  freedChunk : Bool
  /-- The requests we sent for which no answer arrived; no field of the source. -/
  unanswered : List ResetParam
  /-- The requests of the peer that were carried out with our answers, the last one first; no
  field of the source. -/
  history : List (ResetParam × ResetParam)

/-- What the allocators do, and the room in the receive buffer. -/
structure ResetEnv where
  chunkOk : Bool
  listOk : Bool
  strminOk : Bool
  sendChunkOk : Bool
  strmoutOk : Bool
  sbspace : ℕ
deriving DecidableEq, Repr

namespace ResetAsoc

/-- The indices below `n`, or those of a list that are below `n`. -/
def selects (streams : List StreamNo) (n i : ℕ) : Bool :=
  decide (i < n) && (streams.isEmpty || streams.any (fun sid => sid.toNat == i))

def resetInStream (s : ResetAsoc) (streams : List StreamNo) : ResetAsoc :=
  { s with
    lastSequenceDelivered := fun i =>
      if selects streams s.streamincnt i then 0xffff else s.lastSequenceDelivered i }

def resetOutStreams (s : ResetAsoc) (streams : List StreamNo) : ResetAsoc :=
  { s with
    nextSequenceSend := fun i =>
      if selects streams s.streamoutcnt i then 0 else s.nextSequenceSend i }

def strResetChunk (s : ResetAsoc) : Option ResetChunk :=
  s.strReset.bind fun id => (s.controlSendQueue ++ s.building.toList).find? (·.id == id)

/-- `sctp_find_stream_reset`: one of the first two parameters of the chunk. -/
def findStreamReset (s : ResetAsoc) (seq : ResetSeq) : ResetAsoc × Option ResetParam :=
  if (s.controlSendQueue.isEmpty && !s.otherControls) || s.strReset.isNone then
    ({ s with streamResetOutstanding := 0 }, none)
  else
    match s.strResetChunk with
    | none => (s, none)
    | some chunk => (s, (chunk.params.take 2).find? (·.seqWord == seq))

/-- `sctp_clean_up_stream_reset`. The chunk is freed although it may be the one that is being built,
which is on no queue. -/
def cleanUpStreamReset (s : ResetAsoc) : ResetAsoc :=
  match s.strReset with
  | none => s
  | some id =>
    { s with
      controlSendQueue := s.controlSendQueue.filter (·.id != id)
      building := s.building.filter (·.id != id)
      freedChunk := s.freedChunk || s.building.any (·.id == id)
      strReset := none }

/-- The new TSNs of both directions, as the peer that carried out our TSN reset gave them. -/
def adoptTsns (s : ResetAsoc) (map : TsnMap) (sendersNextTsn receiversNextTsn : Tsn) : ResetAsoc :=
  let map := map.restartAt (sendersNextTsn - 1)
  let s := { s with
    toTsnMap := { map with mappingArrayBaseTsn := sendersNextTsn }
    sendingSeq := receiversNextTsn
    lastAckedSeq := map.cumulativeTsn }
  (s.resetOutStreams []).resetInStream []

def retire (s : ResetAsoc) : ResetAsoc :=
  { s with streamResetOutstanding := s.streamResetOutstanding - 1 }

def settle (s : ResetAsoc) : ResetAsoc :=
  if s.streamResetOutstanding = 0 then s.cleanUpStreamReset else s

/-- What a response does to the request it is for; nothing is left when a FORWARD-TSN aborts the
association. `tsns` are the TSNs of a response that is long enough to have them. -/
def answerRequest (env : ResetEnv) (s : ResetAsoc) (req : ResetParam) (action : BitVec 32)
    (tsns : Option (Tsn × Tsn)) : Option ResetAsoc :=
  match req with
  | .outRequest _ _ _ streams =>
    let s := { s.retire with streamResetOutIsOutstanding := false }
    some (if action = resultPerformed then s.resetOutStreams streams else s).settle
  | .inRequest _ _ => some s.retire.settle
  | .addOutStreams _ _ =>
    let n := min s.strmPendingAddSize (s.strmRealoutsize - s.streamoutcnt)
    let s := { s.retire with strmPendingAddSize := 0 }
    some (if action = resultPerformed then { s with streamoutcnt := s.streamoutcnt + n }
      else s).settle
  | .addInStreams _ _ => some s.retire.settle
  | .tsnRequest _ =>
    match tsns with
    | none => some s
    | some (sendersNextTsn, receiversNextTsn) =>
      if action = resultPerformed then
        (s.toTsnMap.forwardTsn (sendersNextTsn - 1) env.sbspace).map fun map =>
          (s.retire.adoptTsns map sendersNextTsn receiversNextTsn).settle
      else some s.settle
  | .response _ _ => some s.settle
  | .responseTsn _ _ _ _ => some s.settle
  | .unfit => some s.settle

/-- What is left of requests behind an answer: one to the oldest request answers it. -/
def answered (reqs : List ResetParam) (seq : Option ResetSeq) : List ResetParam :=
  if reqs.head?.map (·.seqWord) = seq then reqs.tail else reqs

def noteAnswer (s : ResetAsoc) (seq : ResetSeq) : ResetAsoc :=
  { s with unanswered := answered s.unanswered (some seq) }

def handleStreamResetResponse (env : ResetEnv) (s : ResetAsoc) (seq : ResetSeq)
    (action : BitVec 32) (tsns : Option (Tsn × Tsn)) : Option ResetAsoc :=
  let s := s.noteAnswer seq
  if s.streamResetOutstanding = 0 then some s
  else if seq = s.strResetSeqOut then
    match s.findStreamReset seq with
    | (s, none) => some s
    | (s, some req) =>
      { s with strResetSeqOut := s.strResetSeqOut + 1 }.answerRequest env req action tsns
  else some s

structure AddStreams where
  out : Bool
  inc : Bool
  addingO : BitVec 16
  addingI : BitVec 16
deriving DecidableEq, Repr

/-- The errors of `sctp_send_str_reset_req`. -/
inductive SendError
  | ebusy
  | einval
  | enomem
deriving DecidableEq, Repr

/-- The requests that go into the chunk, from `str_reset_seq_out` on. -/
def numbered (seq : ResetSeq) : List (ResetSeq → ResetParam) → List ResetParam
  | [] => []
  | f :: fs => f seq :: numbered (seq + 1) fs

/-- The room for more outgoing streams is there, or can be had. -/
def hasRoom (env : ResetEnv) (s : ResetAsoc) (add : AddStreams) : Bool :=
  decide (add.addingO.toNat ≤ s.strmRealoutsize - s.streamoutcnt) || env.strmoutOk

def chosenRequests (env : ResetEnv) (s : ResetAsoc) (list : List StreamNo)
    (sendOutReq sendInReq sendTsnReq : Bool) (add : AddStreams) : List (ResetSeq → ResetParam) :=
  (if sendOutReq then
    [fun seq => .outRequest seq (s.strResetSeqIn - 1) (s.sendingSeq - 1) list] else []) ++
  (if add.out && s.hasRoom env add && add.addingO != 0 then
    [fun seq => .addOutStreams seq add.addingO] else []) ++
  (if add.inc && add.addingI != 0 then [fun seq => .addInStreams seq add.addingI] else []) ++
  (if sendInReq then [fun seq => .inRequest seq list] else []) ++
  (if sendTsnReq then [fun seq => .tsnRequest seq] else [])

def sendStrResetReq (env : ResetEnv) (s : ResetAsoc) (list : List StreamNo)
    (sendOutReq sendInReq sendTsnReq : Bool) (add : AddStreams) (peerAsked : Bool) :
    Except SendError ResetAsoc :=
  if s.streamResetOutstanding ≠ 0 then .error .ebusy
  else if !sendOutReq && !sendInReq && !sendTsnReq && !add.out && !add.inc then .error .einval
  else if sendTsnReq && (sendOutReq || sendInReq) then .error .einval
  else if resetEntriesMax < list.length then .error .enomem
  else if !env.sendChunkOk then .error .enomem
  else
    let reqs := numbered s.strResetSeqOut
      (s.chosenRequests env list sendOutReq sendInReq sendTsnReq add)
    let grows := add.out && s.hasRoom env add
    .ok { s with
      streamResetOutIsOutstanding := s.streamResetOutIsOutstanding || sendOutReq
      strmRealoutsize :=
        if grows && decide (s.strmRealoutsize - s.streamoutcnt < add.addingO.toNat) then
          s.streamoutcnt + add.addingO.toNat
        else s.strmRealoutsize
      strmPendingAddSize :=
        if grows && add.addingO != 0 then add.addingO.toNat else s.strmPendingAddSize
      peerReqOut := if grows && add.addingO != 0 then peerAsked else s.peerReqOut
      streamResetOutstanding := s.streamResetOutstanding + reqs.length
      strReset := some s.nextChunk
      controlSendQueue := s.controlSendQueue ++ [{ id := s.nextChunk, params := reqs }]
      nextChunk := s.nextChunk + 1
      unanswered := s.unanswered ++ reqs }

/-- The result goes into the chunk that is being built. -/
def addParam (s : ResetAsoc) (p : ResetParam) : ResetAsoc :=
  { s with building := s.building.map fun chunk => { chunk with params := chunk.params ++ [p] } }

/-- The action of a new request is remembered, with the one before it. -/
def noteAction (s : ResetAsoc) (action : BitVec 32) : ResetAsoc :=
  { s with lastResetAction := (action, s.lastResetAction.1) }

/-- A request was carried out: it is answered and the next one is expected. -/
def answer (s : ResetAsoc) (req resp : ResetParam) : ResetAsoc :=
  { s.addParam resp with
    strResetSeqIn := s.strResetSeqIn + 1
    history := (req, resp) :: s.history }

/-- A request that is not new is answered from memory. -/
def answerOld (s : ResetAsoc) (seq : ResetSeq) : ResetAsoc :=
  if s.strResetSeqIn - 1 = seq then s.addParam (.response seq s.lastResetAction.1)
  else if s.strResetSeqIn - 2 = seq then s.addParam (.response seq s.lastResetAction.2)
  else s.addParam (.response seq resultErrBadSeqno)

/-- The chunk that is being built has a request of ours now. -/
def adoptOut (s : ResetAsoc) (out : ResetParam) : ResetAsoc :=
  { s with
    streamResetOutIsOutstanding := true
    strReset := s.building.map fun chunk => chunk.id
    streamResetOutstanding := s.streamResetOutstanding + 1
    unanswered := s.unanswered ++ [out] }

def handleStrResetRequestIn (s : ResetAsoc) (seq : ResetSeq) (streams : List StreamNo) : ResetAsoc :=
  let req : ResetParam := .inRequest seq streams
  if s.strResetSeqIn = seq then
    if !s.enableResetStream || decide (chunkBufferSize < 8 + 2 * streams.length) then
      (s.noteAction resultDenied).answer req (.response seq resultDenied)
    else if !s.streamResetOutIsOutstanding then
      let out : ResetParam := .outRequest s.strResetSeqOut seq (s.sendingSeq - 1) streams
      (((s.noteAction resultPerformed).addParam out).adoptOut out).answer req
        (.response seq resultPerformed)
    else (s.noteAction resultErrInProgress).answer req (.response seq resultErrInProgress)
  else s.answerOld seq

/-- The TSN reset itself; nothing is left when the FORWARD-TSN aborts the association. -/
def performTsnReset (env : ResetEnv) (s : ResetAsoc) : Option ResetAsoc :=
  (s.toTsnMap.forwardTsn (s.highestTsnInsideMap + 1) env.sbspace).map fun map =>
    let map := map.restartAt (map.highestTsnInsideMap + streamResetTsnDelta)
    let s := { s with
      toTsnMap := map
      sendingSeq := s.sendingSeq + 1
      lastSendingSeq := (s.sendingSeq + 1, s.lastSendingSeq.1)
      lastBaseTsnsent := (map.mappingArrayBaseTsn, s.lastBaseTsnsent.1) }
    (s.resetOutStreams []).resetInStream []

def handleStrResetRequestTsn (env : ResetEnv) (s : ResetAsoc) (seq : ResetSeq) : Option ResetAsoc :=
  if s.strResetSeqIn = seq then
    if !s.enableChangeAssoc then
      some ((s.noteAction resultDenied).answer (.tsnRequest seq)
        (.responseTsn seq resultDenied s.lastSendingSeq.1 s.lastBaseTsnsent.1))
    else
      (s.performTsnReset env).map fun s =>
        (s.noteAction resultPerformed).answer (.tsnRequest seq)
          (.responseTsn seq resultPerformed s.lastSendingSeq.1 s.lastBaseTsnsent.1)
  else if s.strResetSeqIn - 1 = seq then
    some (s.addParam (.responseTsn seq s.lastResetAction.1 s.lastSendingSeq.1 s.lastBaseTsnsent.1))
  else if s.strResetSeqIn - 2 = seq then
    some (s.addParam (.responseTsn seq s.lastResetAction.2 s.lastSendingSeq.2 s.lastBaseTsnsent.2))
  else some (s.addParam (.response seq resultErrBadSeqno))

def handleStrResetRequestOut (env : ResetEnv) (s : ResetAsoc) (seq respSeq : ResetSeq) (tsn : Tsn)
    (streams : List StreamNo) : ResetAsoc :=
  let req : ResetParam := .outRequest seq respSeq tsn streams
  if s.strResetSeqIn = seq then
    if !s.enableResetStream || decide (chunkBufferSize < 16 + 2 * streams.length) then
      (s.noteAction resultDenied).answer req (.response seq resultDenied)
    else if tsnGe s.cumulativeTsn tsn then
      ((s.resetInStream streams).noteAction resultPerformed).answer req
        (.response seq resultPerformed)
    else if !env.listOk then
      -- `str_reset_seq_in` stays
      (s.noteAction resultDenied).addParam (.response seq resultDenied)
    else
      ({ s with resetHead := s.resetHead ++ [(tsn, streams)] }.noteAction resultPerformed).answer req
        (.response seq resultPerformed)
  else s.answerOld seq

def handleStrResetAddStrm (env : ResetEnv) (s : ResetAsoc) (seq : ResetSeq)
    (numberOfStreams : BitVec 16) : ResetAsoc :=
  let req : ResetParam := .addOutStreams seq numberOfStreams
  let n := numberOfStreams.toNat + s.streamincnt
  if s.strResetSeqIn = seq then
    if !s.enableChangeAssoc || decide (s.maxInboundStreams < n) || decide (0xffff < n) ||
        !env.strminOk then
      (s.noteAction resultDenied).answer req (.response seq resultDenied)
    else
      let s := { s with
        streamincnt := n
        lastSequenceDelivered := fun i =>
          if s.streamincnt ≤ i ∧ i < n then 0xffff else s.lastSequenceDelivered i }
      (s.noteAction resultPerformed).answer req (.response seq resultPerformed)
  else s.answerOld seq

def handleStrResetAddOutStrm (env : ResetEnv) (s : ResetAsoc) (seq : ResetSeq)
    (numberOfStreams : BitVec 16) : ResetAsoc :=
  let req : ResetParam := .addInStreams seq numberOfStreams
  if s.strResetSeqIn = seq then
    if !s.enableChangeAssoc then
      (s.noteAction resultDenied).answer req (.response seq resultDenied)
    else if s.streamResetOutstanding ≠ 0 then
      (s.noteAction resultErrInProgress).answer req (.response seq resultErrInProgress)
    else if s.streamoutcnt + numberOfStreams.toNat < 0x10000 then
      match s.sendStrResetReq env [] false false false
          { out := true, inc := false, addingO := numberOfStreams, addingI := 0 } true with
      | .ok s => (s.noteAction resultPerformed).answer req (.response seq resultPerformed)
      | .error _ => (s.noteAction resultDenied).answer req (.response seq resultDenied)
    else (s.noteAction resultDenied).answer req (.response seq resultDenied)
  else s.answerOld seq

/-- An OUT request may be a response to a request of ours. -/
def implicitAck (env : ResetEnv) (s : ResetAsoc) (respSeq : ResetSeq) : Option ResetAsoc :=
  if s.streamResetOutstanding ≠ 0 ∧ respSeq = s.strResetSeqOut then
    s.handleStreamResetResponse env respSeq resultPerformed none
  else some s

def handleParam (env : ResetEnv) (s : ResetAsoc) : ResetParam → Option ResetAsoc
  | .outRequest seq respSeq tsn streams =>
    -- the result of the response function is not looked at
    (s.implicitAck env respSeq).map (·.handleStrResetRequestOut env seq respSeq tsn streams)
  | .inRequest seq streams => some (s.handleStrResetRequestIn seq streams)
  | .tsnRequest seq => s.handleStrResetRequestTsn env seq
  | .addOutStreams seq n => some (s.handleStrResetAddStrm env seq n)
  | .addInStreams seq n => some (s.handleStrResetAddOutStrm env seq n)
  | .response seq result => s.handleStreamResetResponse env seq result none
  | .responseTsn seq result sendersNextTsn receiversNextTsn =>
    s.handleStreamResetResponse env seq result (some (sendersNextTsn, receiversNextTsn))
  | .unfit => some s

/-- A TSN request is the last parameter that is looked at, and what is unfit is not looked at any more. -/
def upToTsn : List ResetParam → List ResetParam
  | [] => []
  | .tsnRequest seq :: _ => [.tsnRequest seq]
  | .unfit :: _ => []
  | p :: ps => p :: upToTsn ps

/-- The parameters that the loop over a chunk gets to. -/
def lookedAt (params : List ResetParam) : List ResetParam := upToTsn (params.take maxResetParams)

def overlooked (params : List ResetParam) : List ResetParam := params.drop (lookedAt params).length

/-- Parameters that nothing looks at: an answer among them is lost. -/
def overlook (s : ResetAsoc) (params : List ResetParam) : ResetAsoc :=
  { s with unanswered := (params.map ResetParam.answerTo).foldl answered s.unanswered }

def openChunk (s : ResetAsoc) : ResetAsoc :=
  { s with building := some { id := s.nextChunk, params := [] }, nextChunk := s.nextChunk + 1 }

/-- The chunk with the answers is queued, or freed when there was no request. -/
def closeChunk (s : ResetAsoc) (answers : Bool) : ResetAsoc :=
  { s with
    building := none
    controlSendQueue :=
      if answers then s.controlSendQueue ++ s.building.toList else s.controlSendQueue }

/-- `sctp_handle_stream_reset`; nothing is left when the association is aborted. -/
def handleStreamReset (env : ResetEnv) (s : ResetAsoc) (params : List ResetParam) :
    Option ResetAsoc :=
  if !env.chunkOk then some (s.overlook params)
  else
    (Trace.run (handleParam env) s.openChunk (lookedAt params)).map fun s =>
      (s.overlook (overlooked params)).closeChunk ((lookedAt params).any (·.isRequest))

/-- `sctp_clean_up_ctl`: answers that were sent go, our requests stay. -/
def cleanUpCtl (s : ResetAsoc) : ResetAsoc :=
  { s with
    controlSendQueue := s.controlSendQueue.filter fun chunk => s.strReset == some chunk.id
    otherControls := false }

/-- `sctp_strreset_timer`, as far as the requests are concerned. -/
def strresetTimer (s : ResetAsoc) : ResetAsoc :=
  if s.streamResetOutstanding = 0 then s else (s.findStreamReset s.strResetSeqOut).1

/-- The rest of the association changes what is not kept for stream resets. -/
def elsewhere (s t : ResetAsoc) : ResetAsoc :=
  { t with
    strResetSeqOut := s.strResetSeqOut
    strResetSeqIn := s.strResetSeqIn
    streamResetOutstanding := s.streamResetOutstanding
    streamResetOutIsOutstanding := s.streamResetOutIsOutstanding
    strReset := s.strReset
    controlSendQueue := s.controlSendQueue
    building := s.building
    lastResetAction := s.lastResetAction
    lastSendingSeq := s.lastSendingSeq
    lastBaseTsnsent := s.lastBaseTsnsent
    nextChunk := s.nextChunk
    freedChunk := s.freedChunk
    unanswered := s.unanswered
    history := s.history }

/-- The arguments of `sctp_send_str_reset_req`. -/
structure SendArgs where
  list : List StreamNo
  sendOutReq : Bool
  sendInReq : Bool
  sendTsnReq : Bool
  add : AddStreams
  peerAsked : Bool
deriving DecidableEq, Repr

end ResetAsoc

inductive ResetEvent
  /-- A STREAM-RESET chunk comes in. -/
  | receive (env : ResetEnv) (params : List ResetParam)
  | send (env : ResetEnv) (args : ResetAsoc.SendArgs)
  /-- A packet left. -/
  | cleanUpCtl
  | strresetTimer
  /-- TSNs are received and sent, streams used, options set. -/
  | elsewhere (t : ResetAsoc)

/-- An association before its first stream reset. -/
def freshReset : ResetAsoc :=
  { mappingArray := List.replicate 16 0, nrMappingArray := List.replicate 16 0
    mappingArraySize := 16, mappingArrayBaseTsn := 2000, cumulativeTsn := 1999
    highestTsnInsideMap := 1999, highestTsnInsideNrMap := 1999
    strResetSeqOut := 1000, strResetSeqIn := 2000, streamResetOutstanding := 0
    streamResetOutIsOutstanding := false, strReset := none, controlSendQueue := []
    otherControls := false, building := none
    lastResetAction := (0, 0), lastSendingSeq := (0, 0), lastBaseTsnsent := (0, 0)
    enableResetStream := true, enableChangeAssoc := true
    sendingSeq := 1000, lastAckedSeq := 999, maxInboundStreams := 2048, streamincnt := 10
    lastSequenceDelivered := fun _ => 0xffff, streamoutcnt := 10, strmRealoutsize := 10
    strmPendingAddSize := 0, peerReqOut := false, nextSequenceSend := fun _ => 0
    resetHead := [], nextChunk := 0, freedChunk := false, unanswered := [], history := [] }

/-- Allocations succeed, those of a list aside. -/
def resetEnv (listOk : Bool) : ResetEnv :=
  { chunkOk := true, listOk := listOk, strminOk := true, sendChunkOk := true, strmoutOk := true
    sbspace := 65536 }

def resetStep (s : ResetAsoc) : ResetEvent → Option ResetAsoc
  | .receive env params => s.handleStreamReset env params
  | .send env a =>
    match s.sendStrResetReq env a.list a.sendOutReq a.sendInReq a.sendTsnReq a.add a.peerAsked with
    | .ok s' => some s'
    | .error _ => some s
  | .cleanUpCtl => some s.cleanUpCtl
  | .strresetTimer => some s.strresetTimer
  | .elsewhere t => some (s.elsewhere t)

end Sctp
