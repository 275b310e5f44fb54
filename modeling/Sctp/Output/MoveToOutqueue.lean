import Sctp.Lib.Chain
import Sctp.Chunk

/-! From the stream queues to the send queue: `sctp_move_to_outqueue`. The user thread that fills
a message runs between two calls only. -/
namespace Sctp
open Bitmap

/-- A message on a stream, `struct sctp_stream_queue_pending`. -/
structure StreamQueuePending where
  /-- Identity of the message; in the source the address of the structure. -/
  id : ℕ
  data : List (List Byte)
  length : ℕ
  stream : StreamNo
  ppid : BitVec 32
  context : BitVec 32
  ts : ℕ
  unordered : Bool
  eof : Bool
  sackImmediately : Bool
  actFlags : BitVec 16
  net : Option NetId
  msgId : BitVec 32
  fsn : BitVec 32
  msgIsComplete : Bool
  someTaken : Bool
  senderAllDone : Bool
  putLastOut : Bool
  discardRest : Bool
deriving DecidableEq, Repr

structure StreamOut where
  outqueue : List StreamQueuePending
  streamNo : StreamNo
  nextSequenceSend : Ssn
  chunksOnQueues : ℕ
  lastMsgIncomplete : Bool
deriving DecidableEq, Repr

/-- The sending side of an association, as far as it is filled from the streams. -/
structure OutAssoc where
  strmout : StreamNo → StreamOut
  lockedOnSending : Option StreamNo
  sendQueue : List TmitChunk
  sendingSeq : Tsn
  sendQueueCnt : ℕ
  chunksOnOutQueue : ℕ
  streamQueueCnt : ℕ
  prSctpCnt : ℕ
  totalOutputQueueSize : ℕ

/-- What the functions read and do not change: features, limits and the state of the socket. -/
structure OutConfig where
  peerSupportsNdata : Bool
  explicitEor : Bool
  closedSocket : Bool
  enableSackImmediately : Bool
  sbLimitSnd : ℕ
  minResidual : ℕ
  minSplitPoint : ℕ
deriving Repr

namespace OutConfig

def headerSize (cfg : OutConfig) : ℕ :=
  if cfg.peerSupportsNdata then ndataChunkSize else dataChunkSize

end OutConfig

/-- The arguments of one call, the flight it sees, and what the allocators do during it. -/
structure MoveCall where
  goalMtu : ℕ
  fragPoint : ℕ
  eeorMode : Bool
  totalFlight : ℕ
  chunkAllocFails : Bool
  copyFails : Bool
  leadingSpace : ℕ
  mbufAllocFails : Bool
  padFails : Bool
deriving Repr

/-- `sctp_can_we_split_this`; the differences are unsigned. -/
def canWeSplitThis (cfg : OutConfig) (call : MoveCall) (length : ℕ) : ℕ :=
  if call.eeorMode then
    if length ≤ call.goalMtu then if call.totalFlight = 0 then length else 0
    else call.goalMtu
  else if cfg.sbLimitSnd < call.fragPoint then length
  else if length ≤ call.goalMtu ∨ length - call.goalMtu < cfg.minResidual then 0
  else if min cfg.minSplitPoint call.fragPoint ≤ call.goalMtu then min call.goalMtu call.fragPoint
  else 0

/-- What `sctp_get_frag_point` reads. -/
structure FragConfig where
  boundV6 : Bool
  peerSupportsNdata : Bool
  sctpFragPoint : ℕ
  smallestMtu : ℕ
  /-- `sctp_get_auth_chunk_len` when DATA chunks have to be authenticated. -/
  authChunkLen : Option ℕ
deriving Repr

namespace FragConfig

/-- IP and common header and the header of the data chunk. -/
def overhead (fc : FragConfig) : ℕ :=
  (if fc.boundV6 then 52 else 32) + if fc.peerSupportsNdata then ndataChunkSize else dataChunkSize

/-- `sctp_get_frag_point`, a signed value. -/
def getFragPoint (fc : FragConfig) : ℤ :=
  let siz : ℤ :=
    if fc.sctpFragPoint > fc.smallestMtu then fc.smallestMtu - fc.overhead
    else fc.sctpFragPoint - fc.overhead
  let siz := siz - fc.authChunkLen.getD 0
  siz - siz.tmod 4

end FragConfig

/-- How much to take of a message with data, the fragment flags, and the message with
`put_last_out` and `some_taken` updated. Nothing is taken when this is `none`. -/
def takeHowMuch (cfg : OutConfig) (call : MoveCall) (sp : StreamQueuePending) :
    Option (ℕ × RcvFlags × StreamQueuePending) :=
  if sp.msgIsComplete then
    let toMove := min sp.length call.fragPoint
    if toMove = sp.length then
      some (toMove, { last := true, first := !sp.someTaken }, { sp with putLastOut := true })
    else some (toMove, { first := !sp.someTaken }, { sp with someTaken := true })
  else
    let toMove := canWeSplitThis cfg call sp.length
    if toMove = 0 then none
    else some (min toMove sp.length, { first := !sp.someTaken }, { sp with someTaken := true })

/-- Outcome of a call: `moved` is its return value, the flags are its out parameters. -/
structure MoveResult where
  assoc : OutAssoc
  moved : ℕ
  locked : Bool
  giveup : Bool
  bail : Bool

namespace MoveResult

/-- `giveup`: nothing was moved, and there is no more to move for now. -/
def giveUp (a : OutAssoc) (locked : Bool) : MoveResult :=
  { assoc := a, moved := 0, locked := locked, giveup := true, bail := false }

/-- `bail`: nothing was moved because memory ran out. -/
def bailOut (a : OutAssoc) : MoveResult :=
  { assoc := a, moved := 0, locked := false, giveup := false, bail := true }

end MoveResult

namespace OutAssoc

def setStream (a : OutAssoc) (i : StreamNo) (strq : StreamOut) : OutAssoc :=
  { a with strmout := Function.update a.strmout i strq }

/-- Replace the message at the head of stream `i`. -/
def setHead (a : OutAssoc) (i : StreamNo) (sp : StreamQueuePending) : OutAssoc :=
  a.setStream i { a.strmout i with outqueue := sp :: (a.strmout i).outqueue.tail }

end OutAssoc

/-- A message whose data is all gone and that the sender has released. -/
def StreamQueuePending.finished (sp : StreamQueuePending) : Bool :=
  sp.msgIsComplete && sp.length == 0 && sp.senderAllDone

/-- Deferred cleanup at the head of the queue, the loop over `one_more_time`. -/
def reapFinished (a : OutAssoc) (i : StreamNo) : OutAssoc :=
  let queue := (a.strmout i).outqueue
  let gone := (queue.takeWhile StreamQueuePending.finished).length
  if gone = 0 then a
  else
    { a.setStream i
        { a.strmout i with outqueue := queue.dropWhile StreamQueuePending.finished } with
      lockedOnSending := none
      streamQueueCnt := a.streamQueueCnt - gone }

/-- The chunk for `toMove` bytes `data` of `sp`. Sizes are 16 bit values in the source. -/
def makeChunk (cfg : OutConfig) (call : MoveCall) (a : OutAssoc) (strq : StreamOut)
    (sp : StreamQueuePending) (flags : RcvFlags) (data : List (List Byte)) (toMove : ℕ) :
    TmitChunk :=
  let bookSize := (toMove + cfg.headerSize) % 2 ^ 16
  { tsn := a.sendingSeq
    streamNumber := sp.stream
    streamSeq := strq.nextSequenceSend
    rcvFlags := flags
    payloadtype := sp.ppid
    data := data
    streamId := strq.streamNo
    chunkLength := bookSize
    msgId := sp.msgId
    fsn := sp.fsn
    sendSize := size32 bookSize % 2 ^ 16
    bookSize := bookSize
    padInplace := bookSize % 4 != 0 && !call.padFails
    sent := datagramUnsent
    context := sp.context
    timetodrop := sp.ts
    flags := sp.actFlags
    whoTo := sp.net
    origin := sp.id }

/-- Put a chunk on the send queue and update the message it was taken from. -/
def putChunk (cfg : OutConfig) (a : OutAssoc) (i : StreamNo) (sp : StreamQueuePending)
    (chk : TmitChunk) (toMove : ℕ) : MoveResult :=
  let strq := a.strmout i
  let done := sp.finished
  let sp := if cfg.peerSupportsNdata then { sp with fsn := sp.fsn + 1 } else sp
  let strq :=
    { strq with
      outqueue := if done then strq.outqueue.tail else sp :: strq.outqueue.tail
      nextSequenceSend :=
        if chk.rcvFlags.last && !chk.rcvFlags.unordered then strq.nextSequenceSend + 1
        else strq.nextSequenceSend
      chunksOnQueues := strq.chunksOnQueues + 1 }
  let a :=
    { a.setStream i strq with
      lockedOnSending := if done then none else a.lockedOnSending
      sendQueue := a.sendQueue ++ [chk]
      sendingSeq := a.sendingSeq + 1
      sendQueueCnt := a.sendQueueCnt + 1
      chunksOnOutQueue := a.chunksOnOutQueue + 1
      streamQueueCnt := if done then a.streamQueueCnt - 1 else a.streamQueueCnt
      prSctpCnt := if prSctpEnabled chk.flags then a.prSctpCnt + 1 else a.prSctpCnt
      totalOutputQueueSize := a.totalOutputQueueSize + cfg.headerSize }
  { assoc := a
    moved := toMove
    locked := !done && !cfg.peerSupportsNdata
    giveup := false
    bail := false }

/-- Take `toMove` bytes of `old`, whose flags have become those of `sp`. -/
def copyOut (cfg : OutConfig) (call : MoveCall) (a : OutAssoc) (i : StreamNo)
    (old sp : StreamQueuePending) (flags : RcvFlags) (toMove : ℕ) : MoveResult :=
  let back := { sp with someTaken := old.someTaken }
  -- a failed allocation of the chunk puts back neither `some_taken` nor the lock
  if call.chunkAllocFails then .giveUp (a.setHead i sp) false
  else
    let flags :=
      { flags with
        unordered := sp.unordered
        sackImmediately := (cfg.enableSackImmediately && sp.eof) || sp.sackImmediately }
    if sp.length ≤ toMove then
      -- steal the whole chain
      if call.leadingSpace < cfg.headerSize ∧ call.mbufAllocFails then .bailOut (a.setHead i back)
      else
        putChunk cfg a i { sp with data := [], length := sp.length - toMove }
          (makeChunk cfg call a (a.strmout i) sp flags sp.data toMove) toMove
    -- a copy of no bytes at all is a null pointer, like a failed one
    else if call.copyFails ∨ toMove = 0 then .bailOut (a.setHead i back)
    else
      let data := Chain.copy toMove sp.data
      let rest := Chain.compact (Chain.trim toMove sp.data)
      if call.leadingSpace < cfg.headerSize ∧ call.mbufAllocFails then
        .bailOut (a.setHead i { back with data := data ++ rest })
      else
        putChunk cfg a i { sp with data := rest, length := sp.length - toMove }
          (makeChunk cfg call a (a.strmout i) sp flags data toMove) toMove

/-- No more data comes for a message once the socket is closed. -/
def StreamQueuePending.closeIf (sp : StreamQueuePending) (closedSocket : Bool) :
    StreamQueuePending :=
  { sp with msgIsComplete := sp.msgIsComplete || closedSocket }

/-- The part of `sctp_move_to_outqueue` for a message `sp` with data. -/
def moveHead (cfg : OutConfig) (call : MoveCall) (a : OutAssoc) (i : StreamNo)
    (sp : StreamQueuePending) : MoveResult :=
  match takeHowMuch cfg call sp with
  | none => .giveUp (a.setHead i sp) (sp.someTaken && !cfg.peerSupportsNdata)
  | some (toMove, flags, sp') => copyOut cfg call a i sp sp' flags toMove

/-- `sctp_move_to_outqueue` on stream `i` once the finished messages are gone. -/
def moveFirst (cfg : OutConfig) (call : MoveCall) (a : OutAssoc) (i : StreamNo) : MoveResult :=
  let strq := a.strmout i
  match strq.outqueue with
  | [] =>
    let incomplete := strq.lastMsgIncomplete && (cfg.explicitEor || cfg.peerSupportsNdata)
    { assoc := a.setStream i { strq with lastMsgIncomplete := incomplete }
      moved := 0
      locked := false
      giveup := false
      bail := false }
  | sp :: _ =>
    if sp.length = 0 then .giveUp a (!cfg.peerSupportsNdata)
    else if sp.discardRest then
      .giveUp
        { a.setHead i { sp with data := [], length := 0, someTaken := true } with
          totalOutputQueueSize := a.totalOutputQueueSize - sp.length }
        (!cfg.peerSupportsNdata)
    else moveHead cfg call a i (sp.closeIf cfg.closedSocket)

def moveToOutqueue (cfg : OutConfig) (call : MoveCall) (a : OutAssoc) (i : StreamNo) :
    MoveResult :=
  moveFirst cfg call (reapFinished a i) i

end Sctp
