import Sctp.Lib.Trace
import Sctp.Sender.Accounting

/-! The two queues of the sender under PR-SCTP: first transmissions, acks and timers of the sender
together with `sctp_release_pr_sctp_chunk` of `sctputil.c`. -/
namespace Sctp

variable {n : ℕ}

/-- `stream_seq` and `SCTP_DATA_LAST_FRAG` of a chunk. -/
structure MsgInfo where
  streamSeq : Ssn
  lastFrag : Bool
deriving DecidableEq, Repr

/-- The sender with `send_queue`, and with the message of each chunk by its TSN. -/
structure OutQueues (n : ℕ) where
  sender : Sender n
  sendList : List (DataItem n)
  info : Tsn → MsgInfo

namespace OutQueues

def sent (s : OutQueues n) : List Tsn := s.sender.sentQueue.map SentChunk.tsn

def unsent (s : OutQueues n) : List Tsn := s.sendList.map fun d => d.chunk.tsn

/-- What the sender knows of `send_queue`. -/
def noteHead (s : OutQueues n) : OutQueues n :=
  { s with sender := { s.sender with sendQueue := s.unsent.head? } }

/-- The end of `sctp_move_to_outqueue`: the chunk gets the next TSN. -/
def moveChunk (s : OutQueues n) (chunk : SentChunk n) (whoTo : Option (Fin n)) (info : MsgInfo) :
    OutQueues n :=
  let tsn := s.sender.sendingSeq
  noteHead
    { sender := { s.sender with sendingSeq := tsn + 1 }
      sendList := s.sendList ++ [⟨{ chunk with tsn := tsn }, whoTo⟩]
      info := Function.update s.info tsn info }

/-- A packet with some of the waiting chunks, in the order of the queue. -/
def transmitPicked (cfg : SenderConfig) (net : Fin n) (lastSentTime : ℕ) (oneChunk : Bool)
    (picked : List Tsn) (s : OutQueues n) : OutQueues n :=
  let rest := s.sendList.filter fun d => !decide (d.chunk.tsn ∈ picked)
  { s with
    sender := transmit cfg net lastSentTime oneChunk
      (s.sendList.filter fun d => decide (d.chunk.tsn ∈ picked))
      (rest.head?.map fun d => d.chunk.tsn) s.sender
    sendList := rest }

def skipChunk (c : SentChunk n) : SentChunk n :=
  { c with
    sent := datagramSkip
    hasData := false
    windowProbe := c.windowProbe && !(c.hasData && decide (c.sent < datagramResend)) }

def skipAsoc (cfg : SenderConfig) (a : Asoc n) (c : SentChunk n) : Asoc n :=
  if c.hasData then
    let a := if c.sent < datagramResend then a.leaveFlight c else a
    { a with
      peersRwnd := (a.peersRwnd + c.sendSize + cfg.peerChunkOh) % 2 ^ 32
      sentQueueCntRemoveable :=
        if prSctpBufEnabled c.flags then a.sentQueueCntRemoveable - 1
        else a.sentQueueCntRemoveable }
  else a

/-- The first loop, on `sent_queue`: from the chunk on to the first last fragment, whichever message
that is of. -/
def skipSent (cfg : SenderConfig) (info : Tsn → MsgInfo) :
    Asoc n → List (SentChunk n) → Asoc n × List (SentChunk n)
  | a, [] => (a, [])
  | a, c :: q =>
    if (info c.tsn).lastFrag then (skipAsoc cfg a c, skipChunk c :: q)
    else
      let r := skipSent cfg info (skipAsoc cfg a c) q
      (r.1, skipChunk c :: r.2)

/-- The first loop, on `send_queue`. The flight of a destination that is not chosen yet is a null
pointer. -/
def skipUnsent (cfg : SenderConfig) (info : Tsn → MsgInfo) :
    Asoc n → List (DataItem n) → Option (Asoc n × List (DataItem n))
  | a, [] => some (a, [])
  | a, d :: q =>
    match d.chunk.hasData && decide (d.chunk.sent < datagramResend), d.whoTo with
    | true, none => none
    | _, whoTo =>
      let c := { d.chunk with whoTo := whoTo.getD d.chunk.whoTo }
      let d' := { d with chunk := skipChunk d.chunk }
      if (info d.chunk.tsn).lastFrag then some (skipAsoc cfg a c, d' :: q)
      else (skipUnsent cfg info (skipAsoc cfg a c) q).map fun r => (r.1, d' :: r.2)

/-- A waiting chunk on its way to `sent_queue` without having been sent. -/
def skippedItem (d : DataItem n) : SentChunk n :=
  { d.chunk with
    sent := datagramSkip
    hasData := false
    bookSize := 0
    whoTo := d.whoTo.getD d.chunk.whoTo }

/-- The chunks of the message at the head of `send_queue`. -/
def scattered (s : OutQueues n) (stream : StreamNo) (seq : Ssn) : List (DataItem n) :=
  s.sendList.takeWhile fun d =>
    d.chunk.streamNumber == stream && (s.info d.chunk.tsn).streamSeq == seq

/-- The second loop: they go to the end of `sent_queue`. -/
def moveScattered (s : OutQueues n) (stream : StreamNo) (seq : Ssn) : OutQueues n :=
  let run := s.scattered stream seq
  noteHead
    { s with
      sender := { s.sender with
        sentQueue := s.sender.sentQueue ++ run.map skippedItem
        sentQueueCnt := s.sender.sentQueueCnt + run.length }
      sendList := s.sendList.drop run.length }

/-- The chunk that holds the TSN of the last fragment; its destination is a null pointer that is not
looked at. -/
def placeholder (tsn : Tsn) (stream : StreamNo) (flags : BitVec 16) (whoTo : Fin n) : SentChunk n where
  tsn := tsn
  streamNumber := stream
  sendSize := 0
  bookSize := 0
  bookSizeScale := false
  sent := datagramSkip
  sndCount := 0
  whoTo := whoTo
  flags := flags
  hasData := false
  windowProbe := false
  chunkWasRevoked := false
  doingFastRetransmit := false
  fastRetranTsn := 0
  noFrAllowed := false
  sentRcvTime := 0
  authKeyid := 0

structure StreamRest where
  /-- `next_sequence_send` of the stream. -/
  nextSequenceSend : Ssn
  /-- `act_flags` of the first message. -/
  actFlags : BitVec 16
  /-- `sctp_alloc_a_chunk` fails. -/
  allocFails : Bool
deriving DecidableEq, Repr

/-- No last fragment on either queue: the last chunk moved becomes one, or a new one is made. -/
def settleRest (s : OutQueues n) (moved : Option Tsn) (stream : StreamNo) (whoTo : Fin n) :
    Option StreamRest → OutQueues n
  | none => s
  | some rest =>
    match moved with
    | some tsn => { s with info := Function.update s.info tsn { s.info tsn with lastFrag := true } }
    | none =>
      if rest.allocFails then s
      else
        let tsn := s.sender.sendingSeq
        { s with
          sender := { s.sender with
            sendingSeq := tsn + 1
            sentQueue := s.sender.sentQueue ++ [placeholder tsn stream rest.actFlags whoTo]
            sentQueueCnt := s.sender.sentQueueCnt + 1
            prSctpCnt := s.sender.prSctpCnt + 1
            chunksOnQueues := Function.update s.sender.chunksOnQueues stream
              (s.sender.chunksOnQueues stream + 1) }
          info := Function.update s.info tsn ⟨rest.nextSequenceSend, true⟩ }

/-- Behind the first loop: `foundeom` is still 0. -/
def releaseScattered (s : OutQueues n) (stream : StreamNo) (seq : Ssn) (whoTo : Fin n)
    (rest : Option StreamRest) : OutQueues n :=
  let run := s.scattered stream seq
  let s' := s.moveScattered stream seq
  if run.any fun d => (s.info d.chunk.tsn).lastFrag then s'
  else s'.settleRest (run.getLast?.map fun d => d.chunk.tsn) stream whoTo rest

/-- The call for a chunk on `sent_queue`. -/
def releaseSent (cfg : SenderConfig) (place : ℕ) (rest : Option StreamRest) (s : OutQueues n) :
    OutQueues n :=
  match s.sender.sentQueue[place]? with
  | none => s
  | some c =>
    let q := s.sender.sentQueue.drop place
    let r := skipSent cfg s.info s.sender.toAsoc q
    let s' : OutQueues n :=
      { s with sender := { toAsoc := r.1, sentQueue := s.sender.sentQueue.take place ++ r.2 } }
    if q.any fun c => (s.info c.tsn).lastFrag then s'
    else s'.releaseScattered c.streamNumber (s.info c.tsn).streamSeq c.whoTo rest

/-- The call for a chunk on `send_queue`. -/
def releaseUnsent (cfg : SenderConfig) (place : ℕ) (rest : Option StreamRest) (s : OutQueues n) :
    Option (OutQueues n) :=
  match s.sendList[place]? with
  | none => some s
  | some d =>
    let q := s.sendList.drop place
    (skipUnsent cfg s.info s.sender.toAsoc q).map fun r =>
      let s' : OutQueues n :=
        { s with
          sender := { s.sender with toAsoc := r.1 }
          sendList := s.sendList.take place ++ r.2 }
      if q.any fun d => (s.info d.chunk.tsn).lastFrag then s'
      else s'.releaseScattered d.chunk.streamNumber (s.info d.chunk.tsn).streamSeq
        (d.whoTo.getD d.chunk.whoTo) rest

end OutQueues

inductive QueueEvent (n : ℕ) where
  /-- A chunk is cut from a message. -/
  | move (chunk : SentChunk n) (whoTo : Option (Fin n)) (info : MsgInfo)
  | transmit (net : Fin n) (lastSentTime : ℕ) (oneChunk : Bool) (picked : List Tsn)
  | retransmit (env : RetranEnv n)
  | expressSack (cumack : Tsn) (rwnd : ℕ) (ecneSeen : Bool)
  | sack (sack : Sack n)
  | t3 (t : T3 n)
  /-- The chunk at a place of `sent_queue` is abandoned, with what its stream queue still has. -/
  | releaseSent (place : ℕ) (rest : Option OutQueues.StreamRest)
  | releaseUnsent (place : ℕ) (rest : Option OutQueues.StreamRest)

open OutQueues

def queueStep (cfg : SenderConfig) (s : OutQueues n) : QueueEvent n → Option (OutQueues n)
  | .move chunk whoTo info => some (s.moveChunk chunk whoTo info)
  | .transmit net time oneChunk picked => some (s.transmitPicked cfg net time oneChunk picked)
  | .retransmit env => (chunkRetransmission cfg env s.sender).map fun t => { s with sender := t }
  | .expressSack cumack rwnd ecneSeen =>
    (expressHandleSack cfg cumack rwnd ecneSeen s.sender).map fun t => { s with sender := t }
  | .sack sack => (handleSack cfg sack s.sender).map fun t => { s with sender := t }
  | .t3 t => some { s with sender := markAllForResend cfg t s.sender }
  | .releaseSent place rest => some (s.releaseSent cfg place rest)
  | .releaseUnsent place rest => s.releaseUnsent cfg place rest

def queueRun (cfg : SenderConfig) : OutQueues n → List (QueueEvent n) → Option (OutQueues n) :=
  Trace.run (queueStep cfg)

end Sctp
