import Sctp.MappingArray
import Sctp.Chunk

/-! The receiving side of an association: controls, incoming streams and the read queue. -/
namespace Sctp
open Bitmap

/-- `SCTP_DATA_NOT_FRAG`: the chunk is a whole message. -/
def RcvFlags.notFrag (f : RcvFlags) : Bool := f.first && f.last

/-- A received fragment. Its `send_size` is the length of its data. -/
structure RecvChunk where
  tsn : Tsn
  fsn : BitVec 32
  streamNumber : StreamNo
  streamSeq : Ssn
  payloadtype : BitVec 32
  rcvFlags : RcvFlags
  data : List Byte
deriving DecidableEq, Repr

/-- `struct sctp_queued_to_read`. -/
structure Control where
  /-- Stands for the address. A message that is delivered in parts is one control on a stream and
  on the read queue. -/
  id : ℕ
  sinfoStream : StreamNo
  sinfoSsn : Ssn
  sinfoFlags : RcvFlags
  sinfoPpid : BitVec 32
  sinfoTsn : Tsn
  msgId : BitVec 32
  length : ℕ
  topFsn : BitVec 32
  fsnIncluded : BitVec 32
  data : List Byte
  reasm : List RecvChunk
  endAdded : Bool
  lastFragSeen : Bool
  firstFragSeen : Bool
  onReadQ : Bool
  oldData : Bool
deriving DecidableEq, Repr

/-- `struct sctp_stream_in`. -/
structure StreamIn where
  inqueue : List Control
  unoInqueue : List Control
  unoPd : Option Control
  lastSequenceDelivered : Ssn
  pdApiStarted : Bool
deriving DecidableEq, Repr

structure RecvAsoc extends TsnMap where
  readQueue : List Control
  sizeOnReasmQueue : ℤ
  cntOnReasmQueue : ℕ
  sizeOnAllStreams : ℤ
  cntOnAllStreams : ℕ
  /-- The next control gets this number. -/
  nextId : ℕ
deriving DecidableEq, Repr

structure StreamRx extends RecvAsoc where
  strm : StreamIn
deriving DecidableEq, Repr

/-- `struct sctp_stream_reset_list`. -/
structure StreamResetList where
  tsn : Tsn
  listOfStreams : List StreamNo
deriving DecidableEq, Repr

structure Receiver extends RecvAsoc where
  streamincnt : ℕ
  strmin : StreamNo → StreamIn
  resetHead : List StreamResetList
  pendingReplyQueue : List Control

structure RecvConfig where
  /-- `sctp_do_drain`. -/
  doDrain : Bool
  maxChunksOnQueue : ℕ
  /-- The smaller of `partial_delivery_point` and the share of the receive buffer. -/
  pdPoint : ℕ
deriving DecidableEq, Repr

inductive AbortSpot
  /-- A stream sequence number at or behind the last delivered one, or a TSN at or behind the
  cumulative TSN, in `sctp_queue_data_to_stream`. -/
  | loc2
  | loc3
  | loc4
  | loc5
  | loc6
  | loc7
  | loc8
  | loc24
deriving DecidableEq, Repr

/-- How a function ends when the association does not go on. -/
inductive Fault
  /-- An ABORT that names the TSN, stream and stream sequence number. -/
  | abort (spot : AbortSpot) (tsn : Tsn) (sid : StreamNo) (ssn : Ssn)
  /-- A panic, or a control that is freed while it is on a queue. -/
  | crash
deriving DecidableEq, Repr

namespace TsnMap

/-- The first set bit below `n`, looking downwards. -/
def backDown (a : List Byte) : ℕ → Option ℕ
  | 0 => none
  | n + 1 => if isSet a n then some n else backDown a n

/-- The new highest TSN in `mapping_array` when `tsn` has left it. -/
def loweredHighest (s : TsnMap) (tsn : Tsn) : Tsn :=
  let n := if tsnGe (tsn - 1) s.mappingArrayBaseTsn then
    (calcTsnToGap (tsn - 1) s.mappingArrayBaseTsn).toNat + 1 else 0
  match backDown s.mappingArray n with
  | some k => s.mappingArrayBaseTsn + BitVec.ofNat 32 k
  | none => s.mappingArrayBaseTsn - 1

def markNonRevokable (drain : Bool) (s : TsnMap) (tsn : Tsn) : TsnMap :=
  if !drain then s
  else if tsnGt (s.cumulativeTsn + 1) tsn then s
  else
    let gap := (calcTsnToGap tsn s.mappingArrayBaseTsn).toNat
    let inR := isSet s.mappingArray gap
    let inNr := isSet s.nrMappingArray gap
    let s := { s with
      nrMappingArray := if inNr then s.nrMappingArray else setBit s.nrMappingArray gap
      mappingArray := if inR then clearBit s.mappingArray gap else s.mappingArray
      highestTsnInsideNrMap :=
        if tsnGt tsn s.highestTsnInsideNrMap then tsn else s.highestTsnInsideNrMap }
    if tsn = s.highestTsnInsideMap then { s with highestTsnInsideMap := s.loweredHighest tsn }
    else s

/-- `SCTP_SET_TSN_PRESENT` in `nr_mapping_array`, with the mark. -/
def setNrPresent (s : TsnMap) (tsn : Tsn) (gap : ℕ) : TsnMap :=
  { s with
    nrMappingArray := setBit s.nrMappingArray gap
    highestTsnInsideNrMap :=
      if tsnGt tsn s.highestTsnInsideNrMap then tsn else s.highestTsnInsideNrMap }

/-- `SCTP_SET_TSN_PRESENT` in `mapping_array`, with the mark. -/
def setPresent (s : TsnMap) (tsn : Tsn) (gap : ℕ) : TsnMap :=
  { s with
    mappingArray := setBit s.mappingArray gap
    highestTsnInsideMap :=
      if tsnGt tsn s.highestTsnInsideMap then tsn else s.highestTsnInsideMap }

/-- The cumulative TSN follows a TSN that is next. -/
def bumpCumAck (s : TsnMap) (tsn : Tsn) : TsnMap :=
  if tsn = s.cumulativeTsn + 1 then { s with cumulativeTsn := tsn } else s

end TsnMap

namespace Control

/-- The part of `sctp_add_chk_to_control` that changes the control. -/
def merge (control : Control) (chk : RecvChunk) : Control :=
  { control with
    data := control.data ++ chk.data
    length := if control.data = [] then chk.data.length else control.length + chk.data.length
    fsnIncluded := chk.fsn
    firstFragSeen := control.firstFragSeen || chk.rcvFlags.first
    lastFragSeen := control.lastFragSeen || chk.rcvFlags.last
    endAdded := control.endAdded || chk.rcvFlags.last }

/-- A write to the control `c` as another holder of the address sees it. -/
def put (c x : Control) : Control := if x.id = c.id then c else x

end Control

def buildReadqEntryChk (id : ℕ) (chk : RecvChunk) : Control :=
  { id := id, sinfoStream := chk.streamNumber, sinfoSsn := chk.streamSeq, sinfoFlags := chk.rcvFlags
    sinfoPpid := chk.payloadtype, sinfoTsn := chk.tsn, msgId := 0, length := 0, topFsn := 0
    fsnIncluded := 0, data := [], reasm := [], endAdded := false, lastFragSeen := false
    firstFragSeen := false, onReadQ := false, oldData := false }

namespace RecvAsoc

/-- The part of `sctp_add_chk_to_control` that changes the association. -/
def merged (drain : Bool) (asoc : RecvAsoc) (chk : RecvChunk) : RecvAsoc :=
  { asoc with
    toTsnMap := asoc.toTsnMap.markNonRevokable drain chk.tsn
    sizeOnReasmQueue := asoc.sizeOnReasmQueue - chk.data.length
    cntOnReasmQueue := asoc.cntOnReasmQueue - 1 }

def queued (asoc : RecvAsoc) (chk : RecvChunk) : RecvAsoc :=
  { asoc with
    sizeOnReasmQueue := asoc.sizeOnReasmQueue + chk.data.length
    cntOnReasmQueue := asoc.cntOnReasmQueue + 1 }

/-- The control as `sctp_add_to_readq` leaves it. -/
def readqControl (control : Control) (last : Bool) : Control :=
  { control with
    length := control.data.length
    endAdded := control.endAdded || last
    onReadQ := true }

/-- `sctp_add_to_readq`; a control without data is freed. -/
def addToReadq (asoc : RecvAsoc) (control : Control) (last : Bool) : RecvAsoc :=
  if control.data = [] then asoc
  else { asoc with readQueue := asoc.readQueue ++ [readqControl control last] }

def putRead (asoc : RecvAsoc) (control : Control) : RecvAsoc :=
  { asoc with readQueue := asoc.readQueue.map control.put }

end RecvAsoc

namespace StreamIn

def put (strm : StreamIn) (control : Control) : StreamIn :=
  { strm with
    inqueue := strm.inqueue.map control.put
    unoInqueue := strm.unoInqueue.map control.put
    unoPd := strm.unoPd.map control.put }

end StreamIn

namespace StreamRx

def put (s : StreamRx) (control : Control) : StreamRx :=
  { toRecvAsoc := s.toRecvAsoc.putRead control, strm := s.strm.put control }

end StreamRx

namespace Receiver

def onStream (s : Receiver) (strmno : StreamNo) : StreamRx :=
  { toRecvAsoc := s.toRecvAsoc, strm := s.strmin strmno }

def setAt (s : Receiver) (strmno : StreamNo) (x : StreamRx) : Receiver :=
  { s with toRecvAsoc := x.toRecvAsoc, strmin := Function.update s.strmin strmno x.strm }

end Receiver

end Sctp
