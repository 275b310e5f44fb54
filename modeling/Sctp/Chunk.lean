import Sctp.Lib.Bitmap
import Sctp.Tsn

/-! Outgoing DATA chunks, `struct sctp_tmit_chunk`. -/
namespace Sctp
open Bitmap

/-- Index into `strmout`. -/
abbrev StreamNo := BitVec 16

abbrev NetId := ℕ

/-- Values of `sent`. A chunk in flight is struck by counting `sent` up from `datagramSent`. -/
def datagramUnsent : ℕ := 0
def datagramSent : ℕ := 1
def datagramResend : ℕ := 4
def datagramAcked : ℕ := 10010
def datagramMarked : ℕ := 20010
def datagramSkip : ℕ := 30010
def datagramNrAcked : ℕ := 40010

/-- The flags of a DATA chunk; `SCTP_DATA_NOT_FRAG` is first and last together. -/
structure RcvFlags where
  last : Bool := false
  first : Bool := false
  unordered : Bool := false
  sackImmediately : Bool := false
deriving DecidableEq, Repr

/-- The data of a chunk is its payload, without header and padding. -/
structure TmitChunk where
  tsn : Tsn
  streamNumber : StreamNo
  streamSeq : Ssn
  rcvFlags : RcvFlags
  payloadtype : BitVec 32
  data : List (List Byte)
  /-- `stream_id` and `chunk_length` of the chunk header, in host order. -/
  streamId : StreamNo
  chunkLength : ℕ
  msgId : BitVec 32
  fsn : BitVec 32
  sendSize : ℕ
  bookSize : ℕ
  padInplace : Bool
  sent : ℕ
  context : BitVec 32
  timetodrop : ℕ
  flags : BitVec 16
  whoTo : Option NetId
  /-- The message the chunk was cut from; no field of the source. -/
  origin : ℕ
deriving DecidableEq, Repr

namespace TmitChunk

def payload (chk : TmitChunk) : List Byte := chk.data.flatten

end TmitChunk

def dataChunkSize : ℕ := 16
def ndataChunkSize : ℕ := 24

/-- `SCTP_SIZE32`: round up to a multiple of four. -/
def size32 (n : ℕ) : ℕ := (n + 3) / 4 * 4

/-- `PR_SCTP_ENABLED`: a policy is set that is neither none nor all. -/
def prSctpEnabled (flags : BitVec 16) : Bool := (flags &&& 0x0f) != 0 && (flags &&& 0x0f) != 0x0f

end Sctp
