import Sctp.Lib.Trace
import Sctp.Sender.Accounting

/-! The congestion windows of the sender while a peer revokes what it acked: `cwnd` is made larger
with the flight of a revoked chunk, and smaller again in five other places. -/
namespace Sctp
open Ledger

variable {n : ℕ}

/-- A statement `cwnd += book_size` or `cwnd -= book_size`: the chunk, its `whoTo`, the amount, and
the window before it is made smaller. -/
inductive Adjust (n : ℕ) where
  | inflate (tsn : Tsn) (net : Fin n) (size : ℕ)
  | deflate (tsn : Tsn) (net : Fin n) (size before : ℕ)
deriving DecidableEq

/-- `cwnd` of every destination. The second field is no field of the source: it records the
adjustments, the last one first. -/
structure Books (n : ℕ) where
  cwnd : Fin n → ℕ
  log : List (Adjust n)

namespace Books

def inflate (b : Books n) (c : SentChunk n) : Books n where
  cwnd := Function.update b.cwnd c.whoTo ((b.cwnd c.whoTo + c.bookSize) % 2 ^ 32)
  log := .inflate c.tsn c.whoTo c.bookSize :: b.log

def deflate (b : Books n) (c : SentChunk n) : Books n where
  cwnd := Function.update b.cwnd c.whoTo
    (if c.bookSize ≤ b.cwnd c.whoTo then b.cwnd c.whoTo - c.bookSize
     else b.cwnd c.whoTo + 2 ^ 32 - c.bookSize)
  log := .deflate c.tsn c.whoTo c.bookSize (b.cwnd c.whoTo) :: b.log

/-- `chunk_was_revoked` says that the window was made larger for the chunk. -/
def settle (b : Books n) (c : SentChunk n) : Books n :=
  if c.chunkWasRevoked then b.deflate c else b

end Books

/-- The loop of `sctp_express_handle_sack`. -/
def expressBooks (cumack : Tsn) (s : Sender n) (b : Books n) : Books n :=
  if tsnGt cumack s.lastAckedSeq then
    (walk (alongside (expressAck cumack) Books.settle)
      ({ s.toAsoc.resetNets with thisSackHighestGap := cumack }, b) s.sentQueue).1.2
  else b

/-- The loop of `sctp_handle_sack` over what the cumulative ack passes. -/
def cumAckBooks (sack : Sack n) (s : Sender n) (b : Books n) : Books n :=
  (walk (alongside (markCumAcked sack.cumAck)
      fun b c => if c.sent = datagramUnsent then b else b.settle c)
    ({ toAsoc := s.toAsoc.resetNets, accumMoved := false, thisSackLowestNewack := 0 }, b)
    s.sentQueue).1.2

/-- The chunk at place `i`, if its TSN is the one looked for. -/
def hitBooks (theTsn : Tsn) (q : List (SentChunk n)) (i : ℕ) (b : Books n) : Books n :=
  match q[i]? with
  | none => b
  | some c => if c.tsn = theTsn ∧ c.sent ≠ datagramUnsent then b.settle c else b

def segmentBooks (lastTsn : Tsn) (k : Cursor n × Bool) (j : ℕ) (b : Books n) : Books n :=
  let theTsn := BitVec.ofNat 32 j + lastTsn
  match (seekTsn k.1.queue theTsn k.1.tp1 k.2).1 with
  | none => b
  | some i => hitBooks theTsn k.1.queue i b

/-- One gap block, `sctp_process_segment_range`. -/
def blockBooks (lastTsn : Tsn) (nrSacking : Bool) (k : Cursor n × ℕ) (frag : ℕ × ℕ) (b : Books n) :
    Books n :=
  if frag.2 < frag.1 then b
  else
    let top := BitVec.ofNat 32 frag.2 + lastTsn
    let k' : Cursor n :=
      { k.1 with
        tp1 := if frag.1 ≤ k.2 then 0 else k.1.tp1
        biggestTsnAcked := if tsnGt top k.1.biggestTsnAcked then top else k.1.biggestTsnAcked }
    (foldBeside (segmentTsn lastTsn nrSacking) (segmentBooks lastTsn) ((k', false), b)
      (List.range' frag.1 (frag.2 + 1 - frag.1))).2

/-- `sctp_handle_segments` -/
def segmentsBooks (lastTsn : Tsn) (segs nrSegs : List (ℕ × ℕ)) (g : GapAcks n)
    (q : List (SentChunk n)) (b : Books n) : Books n :=
  let p := foldBeside (handleSegment lastTsn false) (blockBooks lastTsn false)
    (({ toGapAcks := g, queue := q, tp1 := 0 }, 0), b) segs
  (foldBeside (handleSegment lastTsn true) (blockBooks lastTsn true)
    (({ p.1.1 with tp1 := 0 }, 0), p.2) nrSegs).2

def gapBooks (sack : Sack n) (r : SackRun n) (b : Books n) : Books n :=
  if sack.hasSegs then
    segmentsBooks sack.cumAck sack.segs sack.nrSegs
      { toAsoc :=
          { r.toAsoc with
            nets := fun i =>
              { r.nets i with sawNewack := false, thisSackHighestNewack := sack.cumAck } }
        biggestTsnAcked := r.biggestTsnAcked
        biggestTsnNewlyAcked := r.biggestTsnNewlyAcked
        thisSackLowestNewack := r.thisSackLowestNewack } r.sentQueue b
  else b

/-- `sctp_check_for_revoked`, and the loop for a SACK without blocks. -/
def revokeBooks (sack : Sack n) (biggestTsnAcked : Tsn) (s : Sender n) (b : Books n) : Books n :=
  if !sack.segs.isEmpty then
    (walk (alongside (checkForRevoked sack.cumAck biggestTsnAcked) fun b c =>
        if tsnGt c.tsn sack.cumAck ∧ c.sent = datagramAcked then b.inflate c else b)
      (s.toAsoc, b) s.sentQueue).1.2
  else if s.sawSackWithFrags then
    (walk (alongside revokeAcked fun b c => if c.sent = datagramAcked then b.inflate c else b)
      (s.toAsoc, b) s.sentQueue).1.2
  else b

/-- `sctp_handle_sack` up to the congestion control. -/
def sackAcks (cfg : SenderConfig) (sack : Sack n) (s : Sender n) : Option (Sender n) :=
  if cfg.strictSacks && tsnGe sack.cumAck s.sendS then none
  else if tsnGt s.lastAckedSeq sack.cumAck then some s.hushed
  else if s.drained && s.streamQueueCnt == 0 then some (s.hushed.idleSack cfg sack.rwnd)
  else
    let r := gapPart sack (cumAckPart sack s.hushed)
    if cfg.strictSacks && sack.hasSegs && tsnGe r.biggestTsnAcked s.sendS then none
    else some (settlePart cfg sack r)

def sackBooks (cfg : SenderConfig) (sack : Sack n) (s : Sender n) (b : Books n) : Books n :=
  if tsnGt s.lastAckedSeq sack.cumAck then b
  else if s.drained && s.streamQueueCnt == 0 then b
  else
    let r := gapPart sack (cumAckPart sack s.hushed)
    revokeBooks sack r.biggestTsnAcked (dropPart cfg sack r.toSender)
      (gapBooks sack (cumAckPart sack s.hushed) (cumAckBooks sack s.hushed b))

/-- The rest of `sctp_handle_sack`: shutdown and fast retransmission. -/
def sackRest (cfg : SenderConfig) (sack : Sack n) (oldRwnd : ℕ) (e : StrikeEnv n) (s : Sender n) :
    Option (Sender n) :=
  sackShutdown cfg sack.rwnd s (sackTail cfg sack oldRwnd e)

/-- The two parts make the handler. -/
theorem handleSack_parts {cfg : SenderConfig} {sack : Sack n} {s t : Sender n}
    (h : handleSack cfg sack s = some t) :
    sackAcks cfg sack s = some t ∨
      ∃ s' e, sackAcks cfg sack s = some s' ∧ sackRest cfg sack s.peersRwnd e s' = some t := by
  unfold handleSack at h
  unfold sackAcks
  split at h
  · cases h
  · rename_i hstrict
    rw [if_neg hstrict]
    split at h
    · rename_i hold
      rw [if_pos hold]
      exact .inl h
    · rename_i hnew
      rw [if_neg hnew]
      split at h
      · rename_i hidle
        rw [if_pos hidle]
        exact .inl h
      · rename_i hbusy
        rw [if_neg hbusy]
        dsimp only at h ⊢
        split at h
        · cases h
        · rename_i hgap
          rw [if_neg hgap]
          exact .inr ⟨_, _, rfl, h⟩

/-- The chunk at place `i` of the queue went out. -/
def resendBooks (s : Sender n) (i : ℕ) (b : Books n) : Books n :=
  match s.sentQueue[i]? with
  | none => b
  | some c => b.settle c

def packetBooks (cfg : SenderConfig) (env : RetranEnv n) (s : Sender n) (i : ℕ) (oneChunk : Bool)
    (b : Books n) : Books n :=
  match s.sentQueue[i]? with
  | none => b
  | some c =>
    match gatherBundle env s.sentQueue i c oneChunk with
    | none => b
    | some d =>
      if env.lowerLayer then
        (foldBeside (resendAt cfg env) resendBooks (s, b) d.dataList).2
      else b

/-- The data part of `sctp_chunk_retransmission`. -/
def retransmitBooks (cfg : SenderConfig) (env : RetranEnv n) (s : Sender n) (b : Books n) : Books n :=
  if s.getState = stateCookieEchoed ∨ s.getState = stateCookieWait then b
  else
    let p := pickRetran env (List.range s.sentQueue.length) false s
    match p.2 with
    | .idle => b
    | .abort => b
    | .first i oneChunk => packetBooks cfg env p.1 i oneChunk b

/-- One chunk of `sctp_mark_all_for_resend`. -/
def t3Settle (t : T3 n) (b : Books n) (c : SentChunk n) : Books n :=
  if c.whoTo = t.net ∧ t.tooRecent c = false ∧ c.sent < datagramResend then b.settle c else b

/-- The marking loop; it starts again after the list was repaired. -/
def t3Books (cfg : SenderConfig) (t : T3 n) (s : Sender n) (b : Books n) : Books n :=
  let r := walk (alongside (t3Mark cfg t) (t3Settle t)) ({ toAsoc := s.toAsoc, cntMk := 0 }, b)
    s.sentQueue
  if r.2.any fun c => tsnGe s.lastAckedSeq c.tsn then
    let p := walk (recoverSentChunk cfg) r.1.1.toAsoc r.2
    (walk (alongside (t3Mark cfg t) (t3Settle t))
      ({ toAsoc := p.1, cntMk := r.1.1.cntMk }, r.1.2) p.2).1.2
  else r.1.2

structure Windows (n : ℕ) where
  sender : Sender n
  books : Books n

inductive WindowEvent (n : ℕ) where
  | transmit (net : Fin n) (lastSentTime : ℕ) (oneChunk : Bool) (dataList : List (DataItem n))
      (sendQueue : Option Tsn)
  | retransmit (env : RetranEnv n)
  | expressSack (cumack : Tsn) (rwnd : ℕ) (ecneSeen : Bool)
  /-- `sctp_handle_sack` up to the congestion control. -/
  | sackAcks (sack : Sack n)
  /-- A function of the congestion control module sets the windows. -/
  | congestion (cwnd : Fin n → ℕ)
  /-- `sctp_handle_sack` behind the congestion control. -/
  | sackRest (sack : Sack n) (oldRwnd : ℕ) (e : StrikeEnv n)
  | t3 (t : T3 n)

def windowStep (cfg : SenderConfig) (s : Windows n) : WindowEvent n → Option (Windows n)
  | .transmit net time oneChunk dataList sendQueue =>
    some { s with sender := transmit cfg net time oneChunk dataList sendQueue s.sender }
  | .retransmit env =>
    let env := { env with cwnd := s.books.cwnd }
    (chunkRetransmission cfg env s.sender).map fun t =>
      ⟨t, retransmitBooks cfg env s.sender s.books⟩
  | .expressSack cumack rwnd ecneSeen =>
    (expressHandleSack cfg cumack rwnd ecneSeen s.sender).map fun t =>
      ⟨t, expressBooks cumack s.sender s.books⟩
  | .sackAcks sack =>
    (Sctp.sackAcks cfg sack s.sender).map fun t => ⟨t, sackBooks cfg sack s.sender s.books⟩
  | .congestion cwnd => some { s with books := { s.books with cwnd := cwnd } }
  | .sackRest sack oldRwnd e =>
    (Sctp.sackRest cfg sack oldRwnd e s.sender).map fun t => { s with sender := t }
  | .t3 t => some ⟨markAllForResend cfg t s.sender, t3Books cfg t s.sender s.books⟩

def windowRun (cfg : SenderConfig) : Windows n → List (WindowEvent n) → Option (Windows n) :=
  Trace.run (windowStep cfg)

abbrev Adjustment (n : ℕ) := Tsn × Fin n × ℕ

/-- The inflations of a log that are not undone yet. Nothing when a chunk's window was made smaller
without having been made larger before, by the same amount on the same destination, or when the
window was smaller than the amount. -/
def owed : List (Adjust n) → Option (Multiset (Adjustment n))
  | [] => some 0
  | .inflate tsn net size :: log => (owed log).map fun l => (tsn, net, size) ::ₘ l
  | .deflate tsn net size before :: log =>
    (owed log).bind fun l =>
      if (tsn, net, size) ∈ l ∧ size ≤ before then some (l.erase (tsn, net, size)) else none

/-- Every inflation is undone at most once, where it was made, and no window falls below zero. -/
def Symmetric (log : List (Adjust n)) : Prop := (owed log).isSome

end Sctp
