import Sctp.Lib.Ledger
import Sctp.Chunk

/-! The sending side of an association: the sent queue, the counters kept beside it and the
macros of `sctp_var.h` that move them. -/
namespace Sctp

/-- A chunk on `sent_queue`. Destinations are numbered below `n`. -/
structure SentChunk (n : ℕ) where
  tsn : Tsn
  streamNumber : StreamNo
  sendSize : ℕ
  bookSize : ℕ
  bookSizeScale : Bool
  sent : ℕ
  sndCount : ℕ
  whoTo : Fin n
  flags : BitVec 16
  /-- `data` is not null. -/
  hasData : Bool
  windowProbe : Bool
  chunkWasRevoked : Bool
  doingFastRetransmit : Bool
  fastRetranTsn : Tsn
  noFrAllowed : Bool
  /-- `sent_rcv_time` in microseconds. -/
  sentRcvTime : ℕ
  authKeyid : BitVec 16
deriving DecidableEq, Repr

def prSctpBufEnabled (flags : BitVec 16) : Bool := (flags &&& 0x0f) == 2

/-- `CHUNK_FLAGS_FRAGMENT_OK`. -/
def fragmentOk (flags : BitVec 16) : Bool := (flags &&& 0x0100) != 0

/-- The flight counters, with the `flight_size` of every destination. The last field is no field
of the source: it records that a counter was about to fall below zero. -/
structure Flight (n : ℕ) where
  totalFlight : ℕ
  totalFlightCount : ℕ
  flightSize : Fin n → ℕ
  sentQueueRetranCnt : ℕ
  saturated : Bool
deriving DecidableEq

/-- The fields of `struct sctp_nets` that SACK processing moves, `flight_size` apart. -/
structure Net where
  netAck : ℕ
  netAck2 : ℕ
  windowProbe : Bool
  sawNewack : Bool
  thisSackHighestNewack : Tsn
  /-- `SCTP_ADDR_PF`. -/
  pf : Bool
deriving DecidableEq, Repr

def stateCookieWait : BitVec 16 := 0x0002
def stateCookieEchoed : BitVec 16 := 0x0004
def stateShutdownSent : BitVec 16 := 0x0010
def stateShutdownReceived : BitVec 16 := 0x0020
def stateShutdownAckSent : BitVec 16 := 0x0040
def stateShutdownPending : BitVec 16 := 0x0080
def statePartialMsgLeft : BitVec 16 := 0x0400
def stateMask : BitVec 16 := 0x007f

/-- What waits behind the sent queue, and the state of the association. -/
structure Backlog where
  /-- TSN of the first chunk on `send_queue`, if there is one. -/
  sendQueue : Option Tsn
  sendingSeq : Tsn
  streamQueueCnt : ℕ
  state : BitVec 16
  /-- Of the stream `locked_on_sending`: length and `msg_is_complete` of its last message. -/
  lockedOnSending : Option (Option (ℕ × Bool))
deriving DecidableEq

namespace Backlog

/-- `asoc->state & flag`. -/
def has (b : Backlog) (flag : BitVec 16) : Bool := (b.state &&& flag) != 0

def getState (b : Backlog) : BitVec 16 := b.state &&& stateMask

/-- `SCTP_SET_STATE` and `SCTP_CLEAR_SUBSTATE(SCTP_STATE_SHUTDOWN_PENDING)`. -/
def enter (b : Backlog) (newstate : BitVec 16) : Backlog :=
  { b with state := ((b.state &&& ~~~stateMask) ||| newstate) &&& ~~~stateShutdownPending }

end Backlog

structure Asoc (n : ℕ) extends Flight n, Backlog where
  nets : Fin n → Net
  lastAckedSeq : Tsn
  sentQueueCnt : ℕ
  prSctpCnt : ℕ
  sentQueueCntRemoveable : ℤ
  /-- `chunks_on_queues` of every outgoing stream. -/
  chunksOnQueues : StreamNo → ℕ
  peersRwnd : ℕ
  advancedPeerAckPoint : Tsn
  thisSackHighestGap : Tsn
  sawSackWithFrags : Bool
  sawSackWithNrFrags : Bool
  /-- `net_ack` and `net_ack2` of the destinations as the last SACK handed them to
  `sctp_cwnd_update_after_sack`; no field of the source. -/
  cwndInput : Fin n → ℕ × ℕ

structure Sender (n : ℕ) extends Asoc n where
  sentQueue : List (SentChunk n)

/-- The sysctl variables and endpoint settings read on the way. -/
structure SenderConfig where
  swsSender : ℕ
  peerChunkOh : ℕ
  strictSacks : Bool
  cmtOnOff : Bool
  cmtUseDac : Bool
  prsctpSupported : Bool
deriving DecidableEq, Repr

def sbspaceSub (a b : ℕ) : ℕ := if b < a then a - b else 0

def swsCut (cfg : SenderConfig) (rwnd : ℕ) : ℕ := if rwnd < cfg.swsSender then 0 else rwnd

namespace Flight

variable {n : ℕ}

def flightSizeDecrease (f : Flight n) (c : SentChunk n) : Flight n :=
  if c.bookSize ≤ f.flightSize c.whoTo then
    { f with
      flightSize := Function.update f.flightSize c.whoTo (f.flightSize c.whoTo - c.bookSize) }
  else
    { f with flightSize := Function.update f.flightSize c.whoTo 0, saturated := true }

def flightSizeIncrease (f : Flight n) (c : SentChunk n) : Flight n :=
  { f with flightSize := Function.update f.flightSize c.whoTo (f.flightSize c.whoTo + c.bookSize) }

/-- `sctp_total_flight_decrease`, which also takes the window probe flag off the chunk. -/
def totalFlightDecrease (f : Flight n) (c : SentChunk n) : Flight n :=
  if c.bookSize ≤ f.totalFlight then
    { f with
      totalFlight := f.totalFlight - c.bookSize
      totalFlightCount := f.totalFlightCount - 1
      saturated := f.saturated || f.totalFlightCount == 0 }
  else
    { f with totalFlight := 0, totalFlightCount := 0, saturated := true }

def totalFlightIncrease (f : Flight n) (c : SentChunk n) : Flight n :=
  { f with
    totalFlight := f.totalFlight + c.bookSize
    totalFlightCount := f.totalFlightCount + 1 }

/-- `sctp_ucount_decr` of `sent_queue_retran_cnt`. -/
def retranDecr (f : Flight n) : Flight n :=
  { f with
    sentQueueRetranCnt := f.sentQueueRetranCnt - 1
    saturated := f.saturated || f.sentQueueRetranCnt == 0 }

/-- `sctp_ucount_incr` of `sent_queue_retran_cnt`. -/
def retranIncr (f : Flight n) : Flight n :=
  { f with sentQueueRetranCnt := f.sentQueueRetranCnt + 1 }

/-- Both decrements for a chunk that leaves the flight. -/
def leave (f : Flight n) (c : SentChunk n) : Flight n :=
  (f.flightSizeDecrease c).totalFlightDecrease c

def enter (f : Flight n) (c : SentChunk n) : Flight n :=
  (f.flightSizeIncrease c).totalFlightIncrease c

def clear (f : Flight n) : Flight n :=
  { f with totalFlight := 0, totalFlightCount := 0, flightSize := fun _ => 0 }

/-- The recount of the flights in `sctp_mark_all_for_resend`. -/
def recountFlight (f : Flight n) (q : List (SentChunk n)) : Flight n :=
  q.foldl (fun f c => if c.sent < datagramResend then f.enter c else f) f.clear

/-- The recount of the SACK handlers, retransmissions included. -/
def recount (f : Flight n) (q : List (SentChunk n)) : Flight n :=
  q.foldl
    (fun f c =>
      if c.sent < datagramResend then f.enter c
      else if c.sent = datagramResend then f.retranIncr else f)
    { f.clear with sentQueueRetranCnt := 0 }

end Flight

/-- Amounts of total flight, chunks in flight, flight of each destination and chunks to resend. -/
abbrev Amount (n : ℕ) := ℕ × ℕ × (Fin n → ℕ) × ℕ

namespace SentChunk

variable {n : ℕ}

def inFlight (c : SentChunk n) : Bool := decide (c.sent < datagramResend)

def toResend (c : SentChunk n) : Bool := c.sent == datagramResend

/-- What a chunk adds to the counters while it is in flight. -/
def load (c : SentChunk n) : Amount n := (c.bookSize, 1, Pi.single c.whoTo c.bookSize, 0)

def amount (c : SentChunk n) : Amount n :=
  if c.sent < datagramResend then c.load
  else if c.sent = datagramResend then (0, 0, 0, 1) else 0

end SentChunk

namespace Flight

variable {n : ℕ} {f : Flight n} {r : Amount n} {c : SentChunk n}

/-- The counters hold the amount `r` and none of them ever fell below zero. -/
structure Holds (f : Flight n) (r : Amount n) : Prop where
  saturated : f.saturated = false
  totalFlight : f.totalFlight = r.1
  totalFlightCount : f.totalFlightCount = r.2.1
  flightSize : f.flightSize = r.2.2.1
  sentQueueRetranCnt : f.sentQueueRetranCnt = r.2.2.2

theorem Holds.leave (h : f.Holds (r + c.load)) : (f.leave c).Holds r := by
  obtain ⟨hsat, ht, hc, hf, hr⟩ := h
  simp only [SentChunk.load, Prod.fst_add, Prod.snd_add, add_zero] at ht hc hf hr
  have hw : f.flightSize c.whoTo = r.2.2.1 c.whoTo + c.bookSize := by
    rw [hf, Pi.add_apply, Pi.single_eq_same]
  have hd : f.flightSizeDecrease c = { f with flightSize := r.2.2.1 } := by
    rw [flightSizeDecrease, if_pos (by omega)]
    congr 1
    funext i
    by_cases hi : i = c.whoTo
    · subst hi
      rw [Function.update_self, hw, Nat.add_sub_cancel]
    · rw [Function.update_of_ne hi, hf, Pi.add_apply, Pi.single_eq_of_ne hi, add_zero]
  rw [Flight.leave, hd, totalFlightDecrease, if_pos (by simp only [ht]; omega)]
  constructor
  · simp [hsat, hc]
  · simp [ht]
  · simp [hc]
  · rfl
  · exact hr

theorem Holds.enter (h : f.Holds r) : (f.enter c).Holds (r + c.load) := by
  obtain ⟨hsat, ht, hc, hf, hr⟩ := h
  constructor
  · exact hsat
  · simp [Flight.enter, flightSizeIncrease, totalFlightIncrease, SentChunk.load, ht]
  · simp [Flight.enter, flightSizeIncrease, totalFlightIncrease, SentChunk.load, hc]
  · funext i
    simp only [Flight.enter, flightSizeIncrease, totalFlightIncrease, SentChunk.load,
      Prod.snd_add, Prod.fst_add, Pi.add_apply]
    by_cases hi : i = c.whoTo
    · subst hi
      rw [Function.update_self, Pi.single_eq_same, hf]
    · rw [Function.update_of_ne hi, Pi.single_eq_of_ne hi, hf, add_zero]
  · simp [Flight.enter, flightSizeIncrease, totalFlightIncrease, SentChunk.load, hr]

theorem Holds.retranDecr (h : f.Holds (r + (0, 0, 0, 1))) : f.retranDecr.Holds r := by
  obtain ⟨hsat, ht, hc, hf, hr⟩ := h
  simp only [Prod.fst_add, Prod.snd_add, add_zero] at ht hc hf hr
  exact ⟨by simp [Flight.retranDecr, hsat, hr], ht, hc, hf, by simp [Flight.retranDecr, hr]⟩

theorem Holds.retranIncr (h : f.Holds r) : f.retranIncr.Holds (r + (0, 0, 0, 1)) := by
  obtain ⟨hsat, ht, hc, hf, hr⟩ := h
  simp only [Flight.retranIncr]
  exact ⟨hsat, by simpa using ht, by simpa using hc, by simpa using hf, by simp [hr]⟩

/-- Counters that hold the amount of nothing read zero. -/
theorem Holds.clear (h : f.Holds r) : f.clear.Holds (0, 0, 0, r.2.2.2) :=
  ⟨h.saturated, rfl, rfl, rfl, h.sentQueueRetranCnt⟩

theorem Holds.unique (h : f.Holds r) : r = (f.totalFlight, f.totalFlightCount, f.flightSize,
    f.sentQueueRetranCnt) := by
  obtain ⟨a, b, g, d⟩ := r
  obtain ⟨-, rfl, rfl, rfl, rfl⟩ := h
  rfl

end Flight

end Sctp
