import Sctp.Sender.State

/-! Sending: first transmissions and retransmissions of `sctp_output.c`, and the marking for
retransmission when T3 expires, `sctp_timer.c`. -/
namespace Sctp
open Ledger

variable {n : ℕ}

/-- The place of a chunk on the sent queue is looked for from the end. -/
def insertSent (q : List (SentChunk n)) (c : SentChunk n) : List (SentChunk n) :=
  (q.reverse.dropWhile fun d => tsnGt d.tsn c.tsn).reverse ++ c ::
    (q.reverse.takeWhile fun d => tsnGt d.tsn c.tsn).reverse

/-- A chunk of `send_queue` that was put in a packet, with `whoTo` if it is set already. -/
structure DataItem (n : ℕ) where
  chunk : SentChunk n
  whoTo : Option (Fin n)

/-- The chunk as `sctp_clean_up_datalist` leaves it. -/
def DataItem.sentChunk (d : DataItem n) (net : Fin n) (lastSentTime : ℕ) : SentChunk n :=
  { d.chunk with
    sentRcvTime := lastSentTime
    fastRetranTsn := d.chunk.tsn
    whoTo := d.whoTo.getD net
    sent := datagramSent
    sndCount := 1
    chunkWasRevoked := false }

def cleanUpChunk (cfg : SenderConfig) (net : Fin n) (lastSentTime : ℕ) (s : Sender n)
    (d : DataItem n) : Sender n :=
  let c := d.sentChunk net lastSentTime
  { s with
    sentQueue := insertSent s.sentQueue c
    sentQueueCnt := s.sentQueueCnt + 1
    toFlight := s.toFlight.enter c
    peersRwnd := swsCut cfg (sbspaceSub s.peersRwnd (c.sendSize + cfg.peerChunkOh)) }

/-- `sctp_clean_up_datalist`; the chunks leave `send_queue`, of which `sendQueue` is what is
then its first TSN. -/
def cleanUpDatalist (cfg : SenderConfig) (net : Fin n) (lastSentTime : ℕ)
    (dataList : List (DataItem n)) (sendQueue : Option Tsn) (s : Sender n) : Sender n :=
  dataList.foldl (cleanUpChunk cfg net lastSentTime) { s with sendQueue := sendQueue }

/-- The window probe flags `sctp_med_chunk_output` sets on a bundle. -/
def fillBundle (oneChunk : Bool) (s : Sender n) : List (DataItem n) → List (DataItem n)
  | [] => []
  | d :: ds =>
    { d with chunk := { d.chunk with windowProbe := oneChunk && s.totalFlight == 0 } } ::
      ds.map fun d => { d with chunk := { d.chunk with windowProbe := false } }

/-- A bundle on its way out of `sctp_med_chunk_output`. -/
def transmit (cfg : SenderConfig) (net : Fin n) (lastSentTime : ℕ) (oneChunk : Bool)
    (dataList : List (DataItem n)) (sendQueue : Option Tsn) (s : Sender n) : Sender n :=
  let s' : Sender n :=
    if oneChunk && s.totalFlight == 0 then
      { s with nets := Function.update s.nets net { s.nets net with windowProbe := true } }
    else s
  cleanUpDatalist cfg net lastSentTime (fillBundle oneChunk s dataList) sendQueue s'

/-- What `sctp_chunk_retransmission` reads besides the association. -/
structure RetranEnv (n : ℕ) where
  /-- MTU of the destination less the headers. -/
  mtu : Fin n → ℕ
  cwnd : Fin n → ℕ
  /-- Length of the AUTH chunk when DATA has to be authenticated. -/
  authChunkLen : Option ℕ
  maxRetranChunk : ℕ
  /-- `sctp_copy_mbufchain` finds memory for the chunk. -/
  copies : Tsn → Bool
  /-- `sctp_lowlevel_chunk_output` succeeds. -/
  lowerLayer : Bool
  timeLastSent : ℕ

def maxDataBundling : ℕ := 256

/-- Room in a packet, with the AUTH chunk to come subtracted in unsigned arithmetic. -/
def roomLeft (mtu dmtu : ℕ) : ℕ := (mtu + 2 ^ 32 - dmtu) % 2 ^ 32

/-- The bundle in the making: places of its chunks, room left, key of the AUTH chunk in it. -/
structure Bundle where
  dataList : List ℕ
  mtu : ℕ
  auth : Option (BitVec 16)

/-- What the AUTH chunk still takes. -/
def Bundle.dmtu (env : RetranEnv n) (b : Bundle) : ℕ :=
  match env.authChunkLen with
  | some len => if b.auth.isNone then len else 0
  | none => 0

/-- A chunk with another key does not go into the packet. -/
def Bundle.otherKey (env : RetranEnv n) (b : Bundle) (c : SentChunk n) : Bool :=
  env.authChunkLen.isSome && b.auth.any fun k => k != c.authKeyid

def Bundle.add (env : RetranEnv n) (b : Bundle) (c : SentChunk n) (i : ℕ) : Bundle :=
  { dataList := b.dataList ++ [i]
    mtu := b.mtu - (c.sendSize + b.dmtu env)
    auth := if env.authChunkLen.isSome && b.auth.isNone then some c.authKeyid else b.auth }

/-- The chunks behind the first that go into the same packet; `none` when memory runs out. -/
def bundleForward (env : RetranEnv n) (net : Fin n) (q : List (SentChunk n)) :
    List ℕ → Bundle → Option Bundle
  | [], b => some b
  | i :: is, b =>
    match q[i]? with
    | none => some b
    | some c =>
      if c.sent ≠ datagramResend ∨ c.whoTo ≠ net then bundleForward env net q is b
      else if c.sendSize ≤ roomLeft b.mtu (b.dmtu env) then
        if b.otherKey env c then some b
        else if env.copies c.tsn = false then none
        else if maxDataBundling ≤ (b.dataList ++ [i]).length then some (b.add env c i)
        else bundleForward env net q is (b.add env c i)
      else some b

/-- The first chunk of the packet, then those behind it unless only one may go. -/
def gatherBundle (env : RetranEnv n) (q : List (SentChunk n)) (i : ℕ) (c : SentChunk n)
    (oneChunk : Bool) : Option Bundle :=
  let b : Bundle := { dataList := [], mtu := env.mtu c.whoTo, auth := none }
  let rest := List.range' (i + 1) (q.length - (i + 1))
  if c.sendSize ≤ roomLeft b.mtu (b.dmtu env) ∨ fragmentOk c.flags then
    if env.copies c.tsn = false then none
    else if oneChunk then some (b.add env c i)
    else bundleForward env c.whoTo q rest (b.add env c i)
  else if oneChunk then some b
  else bundleForward env c.whoTo q rest b

/-- A probe of a closed window is marked on the chunk and its destination. -/
def markProbe (s : Sender n) (i : ℕ) (c : SentChunk n) : Sender n :=
  if s.peersRwnd = 0 ∧ s.totalFlight = 0 then
    { s with
      sentQueue := s.sentQueue.set i { c with windowProbe := true }
      nets := Function.update s.nets c.whoTo { s.nets c.whoTo with windowProbe := true } }
  else s

/-- With less room than a packet only one chunk goes, maybe as a probe. -/
def narrowProbe (env : RetranEnv n) (s : Sender n) (i : ℕ) (c : SentChunk n) : Sender n :=
  if s.peersRwnd < env.mtu c.whoTo then markProbe s i c else s

inductive RetranPick where
  /-- Nothing goes out now. -/
  | idle
  /-- A chunk was retransmitted too often. -/
  | abort
  /-- The chunk at this place, alone if the flag is set. -/
  | first (i : ℕ) (oneChunk : Bool)

/-- The loop over the sent queue up to the chunk that starts a packet. -/
def pickRetran (env : RetranEnv n) : List ℕ → Bool → Sender n → Sender n × RetranPick
  | [], _, s => (s, .idle)
  | i :: is, oneChunk, s =>
    match s.sentQueue[i]? with
    | none => (s, .idle)
    | some c =>
      if c.sent ≠ datagramResend ∨ c.hasData = false then pickRetran env is oneChunk s
      else if 0 < env.maxRetranChunk ∧ env.maxRetranChunk ≤ c.sndCount then (s, .abort)
      else if s.peersRwnd < env.mtu c.whoTo ∧ 0 < s.totalFlight ∧ s.lastAckedSeq + 1 ≠ c.tsn then
        (s, .idle)
      else
        let narrow := decide (s.peersRwnd < env.mtu c.whoTo)
        if c.doingFastRetransmit = false ∧ env.cwnd c.whoTo ≤ s.flightSize c.whoTo then
          pickRetran env is (oneChunk || narrow) (narrowProbe env s i c)
        else (narrowProbe env s i c, .first i (oneChunk || narrow))

def resentChunk (env : RetranEnv n) (c : SentChunk n) : SentChunk n :=
  { c with
    sent := datagramSent
    chunkWasRevoked := false
    sndCount := c.sndCount + 1
    sentRcvTime := env.timeLastSent
    bookSizeScale := false
    bookSize := if c.bookSizeScale then 2 * c.bookSize % 2 ^ 16 else c.bookSize }

def resend (cfg : SenderConfig) (env : RetranEnv n) (s : Asoc n) (c : SentChunk n) : Asoc n :=
  { s with
    toFlight := s.toFlight.retranDecr.enter (resentChunk env c)
    peersRwnd := swsCut cfg
      (if c.bookSizeScale then s.peersRwnd
       else sbspaceSub s.peersRwnd (c.sendSize + cfg.peerChunkOh)) }

/-- The chunk at place `i` of the queue went out. -/
def resendAt (cfg : SenderConfig) (env : RetranEnv n) (s : Sender n) (i : ℕ) : Sender n :=
  match s.sentQueue[i]? with
  | none => s
  | some c =>
    { toAsoc := resend cfg env s.toAsoc c, sentQueue := s.sentQueue.set i (resentChunk env c) }

/-- The packet that starts with the chunk at place `i`. An empty bundle fits nothing; a failing
lower layer leaves the chunks as they are. -/
def sendPacket (cfg : SenderConfig) (env : RetranEnv n) (s : Sender n) (i : ℕ) (oneChunk : Bool) :
    Sender n :=
  match s.sentQueue[i]? with
  | none => s
  | some c =>
    match gatherBundle env s.sentQueue i c oneChunk with
    | none => s
    | some b => if env.lowerLayer then b.dataList.foldl (resendAt cfg env) s else s

/-- The data part of `sctp_chunk_retransmission`; nothing when the association is aborted. -/
def chunkRetransmission (cfg : SenderConfig) (env : RetranEnv n) (s : Sender n) :
    Option (Sender n) :=
  if s.getState = stateCookieEchoed ∨ s.getState = stateCookieWait then some s
  else
    let p := pickRetran env (List.range s.sentQueue.length) false s
    match p.2 with
    | .idle => some p.1
    | .abort => none
    | .first i oneChunk => some (sendPacket cfg env p.1 i oneChunk)

/-- The arguments of `sctp_mark_all_for_resend`, and the clock less the RTO. -/
structure T3 (n : ℕ) where
  net : Fin n
  alt : Fin n
  windowProbe : Bool
  minWait : ℕ

structure T3Run (n : ℕ) extends Asoc n where
  cntMk : ℕ

/-- Sent after `min_wait`: too recent to be marked. -/
def T3.tooRecent (t : T3 n) (c : SentChunk n) : Bool :=
  !t.windowProbe && decide (t.minWait ≤ c.sentRcvTime)

def t3Chunk (cfg : SenderConfig) (t : T3 n) (s : Asoc n) (c : SentChunk n) : SentChunk n :=
  { c with
    sent := datagramResend
    windowProbe := c.windowProbe && !decide (c.sent < datagramResend)
    chunkWasRevoked := c.chunkWasRevoked && !decide (c.sent < datagramResend)
    doingFastRetransmit := false
    whoTo := t.alt
    fastRetranTsn := if t.alt = t.net then s.sendQueue.getD s.sendingSeq else c.fastRetranTsn
    noFrAllowed := cfg.cmtOnOff || decide (t.alt ≠ t.net) }

def t3Asoc (cfg : SenderConfig) (s : Asoc n) (c : SentChunk n) : Asoc n :=
  if c.sent < datagramResend then
    { s with
      toFlight := (s.toFlight.retranIncr).leave c
      peersRwnd := s.peersRwnd + c.sendSize + cfg.peerChunkOh }
  else s

/-- One chunk. The loop is left at a chunk the cumulative ack has passed; a chunk that is too
recent is skipped together with the count behind it. -/
def t3Mark (cfg : SenderConfig) (t : T3 n) (s : T3Run n) (c : SentChunk n) :
    Option (T3Run n × List (SentChunk n)) :=
  if tsnGe s.lastAckedSeq c.tsn then none
  else if c.whoTo = t.net ∧ c.sent < datagramAcked then
    if t.tooRecent c then some (s, [c])
    else
      some ({ toAsoc := t3Asoc cfg s.toAsoc c, cntMk := s.cntMk + 1 },
        [t3Chunk cfg t s.toAsoc c])
  else if c.sent = datagramResend then some ({ s with cntMk := s.cntMk + 1 }, [c])
  else some (s, [c])

/-- `sctp_recover_sent_list`, one chunk: what the cumulative ack has passed is freed. -/
def recoverSentChunk (cfg : SenderConfig) (s : Asoc n) (c : SentChunk n) :
    Option (Asoc n × List (SentChunk n)) :=
  if tsnGe s.lastAckedSeq c.tsn then
    let s' : Asoc n :=
      { s with
        sentQueueCnt := s.sentQueueCnt - 1
        prSctpCnt := if prSctpEnabled c.flags then s.prSctpCnt - 1 else s.prSctpCnt
        sentQueueCntRemoveable :=
          if c.hasData && cfg.prsctpSupported && prSctpBufEnabled c.flags then
            s.sentQueueCntRemoveable - 1
          else s.sentQueueCntRemoveable
        chunksOnQueues :=
          if c.sent = datagramNrAcked then s.chunksOnQueues
          else Function.update s.chunksOnQueues c.streamNumber
            (s.chunksOnQueues c.streamNumber - 1) }
    some (s', [])
  else some (s, [c])

/-- The marking loop; it starts again, with the counts it has, after the list was repaired. -/
def t3Loop (cfg : SenderConfig) (t : T3 n) (s : Sender n) : T3Run n × List (SentChunk n) :=
  let r := walk (t3Mark cfg t) { toAsoc := s.toAsoc, cntMk := 0 } s.sentQueue
  if r.2.any fun c => tsnGe s.lastAckedSeq c.tsn then
    let p := walk (recoverSentChunk cfg) r.1.toAsoc r.2
    walk (t3Mark cfg t) { toAsoc := p.1, cntMk := r.1.cntMk } p.2
  else r

/-- The flights of the destination and of the association fell by different amounts. -/
def flightsDiffer (net : Fin n) (f f' : Flight n) : Bool :=
  BitVec.ofInt 32 (f.flightSize net - f'.flightSize net) !=
    BitVec.ofInt 32 (f.totalFlight - f'.totalFlight)

def markAllForResend (cfg : SenderConfig) (t : T3 n) (s : Sender n) : Sender n :=
  let r := t3Loop cfg t s
  let a : Asoc n := { r.1.toAsoc with sentQueueRetranCnt := r.1.cntMk }
  { toAsoc := if flightsDiffer t.net s.toFlight a.toFlight then
      { a with toFlight := a.toFlight.recountFlight r.2 } else a
    sentQueue := r.2 }

end Sctp
