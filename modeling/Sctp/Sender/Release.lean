import Sctp.Sender.Abandon

/-! What `sctp_release_pr_sctp_chunk` gives up, and when that is one message and nothing else. -/
namespace Sctp

variable {n : ℕ}

/-- `struct sctp_stream_queue_pending`. The user message is no field of the source. -/
structure PrPending where
  msg : ℕ
  length : ℕ
  /-- `data` is not null. -/
  hasData : Bool
  discardRest : Bool
  someTaken : Bool
  actFlags : BitVec 16
deriving DecidableEq, Repr

def PrPending.dropRest (sp : PrPending) : PrPending :=
  if sp.hasData then
    { sp with discardRest := true, someTaken := true, hasData := false, length := 0 }
  else { sp with discardRest := true }

/-- The queues of the sender with the stream queues, and with the user message of each TSN, which is
no field of the source. -/
structure PrQueues (n : ℕ) extends OutQueues n where
  outqueue : StreamNo → List PrPending
  nextSequenceSend : StreamNo → Ssn
  msg : Tsn → ℕ

/-- A call of `sctp_release_pr_sctp_chunk`, for a chunk on `sent_queue` or on `send_queue`. -/
inductive ReleaseCall where
  | sent (place : ℕ)
  | unsent (place : ℕ)
deriving DecidableEq, Repr

namespace PrQueues

/-- What the stream queue has for the third part of the function. -/
def restOf (s : PrQueues n) (stream : StreamNo) (allocFails : Bool) : Option OutQueues.StreamRest :=
  (s.outqueue stream).head?.map fun sp =>
    { nextSequenceSend := s.nextSequenceSend stream, actFlags := sp.actFlags, allocFails := allocFails }

/-- A last fragment stands on the sent queue from a place on. -/
def endsSent (s : PrQueues n) (place : ℕ) : Bool :=
  (s.sender.sentQueue.drop place).any fun x => (s.info x.tsn).lastFrag

/-- The chunks at the head of the send queue that are taken for the message of a chunk. -/
def run (s : PrQueues n) (c : SentChunk n) : List (DataItem n) :=
  s.scattered c.streamNumber (s.info c.tsn).streamSeq

/-- A last fragment is among them. -/
def endsUnsent (s : PrQueues n) (c : SentChunk n) : Bool :=
  (s.run c).any fun d => (s.info d.chunk.tsn).lastFrag

/-- The stream queue behind the call; `found` says whether the first loop came to a last fragment. -/
def settleStream (s : PrQueues n) (c : SentChunk n) (allocFails found : Bool) (t : OutQueues n) :
    PrQueues n :=
  if found || s.endsUnsent c then { s with toOutQueues := t }
  else match s.outqueue c.streamNumber with
    | [] => { s with toOutQueues := t }
    | sp :: sps =>
      { toOutQueues := t
        outqueue := Function.update s.outqueue c.streamNumber (sp.dropRest :: sps)
        nextSequenceSend :=
          if (s.run c).isEmpty && allocFails then s.nextSequenceSend
          else Function.update s.nextSequenceSend c.streamNumber
            (s.nextSequenceSend c.streamNumber + 1)
        msg :=
          if (s.run c).isEmpty && !allocFails then
            Function.update s.msg s.sender.sendingSeq (s.msg c.tsn)
          else s.msg }

def chosen (s : PrQueues n) : ReleaseCall → Option (SentChunk n)
  | .sent place => s.sender.sentQueue[place]?
  | .unsent place => s.sendList[place]?.map DataItem.chunk

/-- `sctp_release_pr_sctp_chunk` -/
def release (cfg : SenderConfig) (allocFails : Bool) (s : PrQueues n) (call : ReleaseCall) :
    Option (PrQueues n) :=
  match call, s.chosen call with
  | _, none => some s
  | .sent place, some c =>
    some (s.settleStream c allocFails (s.endsSent place)
      (s.releaseSent cfg place (s.restOf c.streamNumber allocFails)))
  | .unsent place, some c =>
    (s.releaseUnsent cfg place (s.restOf c.streamNumber allocFails)).map fun t =>
      s.settleStream c allocFails
        ((s.sendList.drop place).any fun d => (s.info d.chunk.tsn).lastFrag) t

def GivenUp (c : SentChunk n) : Prop := c.sent = datagramSkip ∧ c.hasData = false

/-- The chunks of a message that are in flight, and those to be retransmitted. -/
def flying (s : PrQueues n) (m : ℕ) : List (SentChunk n) :=
  s.sender.sentQueue.filter fun c => s.msg c.tsn == m && c.inFlight

def resending (s : PrQueues n) (m : ℕ) : List (SentChunk n) :=
  s.sender.sentQueue.filter fun c => s.msg c.tsn == m && c.toResend

/-- All of the message is given up and the counters follow; nothing else has changed. The window is a number
of 32 bits. -/
structure Abandons (cfg : SenderConfig) (s s' : PrQueues n) (m : ℕ) : Prop where
  sent : ∀ c ∈ s'.sender.sentQueue, s'.msg c.tsn = m → GivenUp c
  unsent : ∀ d ∈ s'.sendList, s'.msg d.chunk.tsn = m → GivenUp d.chunk
  kept : ∀ tsn ∈ s.sent ++ s.unsent, tsn ∈ s'.sent ++ s'.unsent
  otherSent : s'.sender.sentQueue.filter (fun c => s'.msg c.tsn != m) =
    s.sender.sentQueue.filter fun c => s.msg c.tsn != m
  otherUnsent : s'.sendList.filter (fun d => s'.msg d.chunk.tsn != m) =
    s.sendList.filter fun d => s.msg d.chunk.tsn != m
  outqueue : ∀ stream, s'.outqueue stream =
    (s.outqueue stream).map fun sp => if sp.msg = m then sp.dropRest else sp
  totalFlight : s'.sender.totalFlight =
    s.sender.totalFlight - ((s.flying m).map SentChunk.bookSize).sum
  flightSize : ∀ net, s'.sender.flightSize net = s.sender.flightSize net -
    (((s.flying m).filter fun c => c.whoTo = net).map SentChunk.bookSize).sum
  peersRwnd : s'.sender.peersRwnd =
    (s.sender.peersRwnd + ((s.flying m).map fun c => c.sendSize + cfg.peerChunkOh).sum) % 2 ^ 32
  retranCnt : s'.sender.sentQueueRetranCnt = s.sender.sentQueueRetranCnt - (s.resending m).length

/-- What the data of some chunks is worth in the window of the peer. -/
def credit (cfg : SenderConfig) (l : List (SentChunk n)) : ℕ :=
  ((l.filter SentChunk.hasData).map fun c => c.sendSize + cfg.peerChunkOh).sum

/-- What the sender sees to elsewhere: the next TSN is on no queue, chunks in flight or to be resent
have data, data has a size, and all the data there is can be counted in 32 bits. -/
structure Consistent (s : PrQueues n) (cfg : SenderConfig) : Prop where
  freshSent : ∀ c ∈ s.sender.sentQueue, c.tsn ≠ s.sender.sendingSeq
  freshUnsent : ∀ d ∈ s.sendList, d.chunk.tsn ≠ s.sender.sendingSeq
  data : ∀ c ∈ s.sender.sentQueue, c.sent ≤ datagramResend → c.hasData = true
  sizeSent : ∀ c ∈ s.sender.sentQueue, c.hasData = true → 0 < c.sendSize
  sizeUnsent : ∀ d ∈ s.sendList, d.chunk.hasData = true → 0 < d.chunk.sendSize
  window : s.sender.peersRwnd < 2 ^ 32
  creditSent : credit cfg s.sender.sentQueue < 2 ^ 32
  creditUnsent : credit cfg (s.sendList.map DataItem.chunk) < 2 ^ 32

def upToLast (info : Tsn → MsgInfo) : List (SentChunk n) → List (SentChunk n)
  | [] => []
  | c :: q => if (info c.tsn).lastFrag then [c] else c :: upToLast info q

def behindLast (info : Tsn → MsgInfo) : List (SentChunk n) → List (SentChunk n)
  | [] => []
  | c :: q => if (info c.tsn).lastFrag then q else behindLast info q

def reachesStream (s : PrQueues n) (place : ℕ) (c : SentChunk n) : Bool :=
  !s.endsSent place && !s.endsUnsent c

/-- On the sent queue, the chunks from the chosen one up to the next last fragment belong to its message
and have data only while they are in flight; all else of the message is given up already or will be
found: where there is no last fragment, at the head of the send queue, and where there is none either,
at the head of the stream queue. -/
structure Releasable (s : PrQueues n) (place : ℕ) (c : SentChunk n) : Prop where
  marked : ∀ x ∈ upToLast s.info (s.sender.sentQueue.drop place), s.msg x.tsn = s.msg c.tsn ∨ GivenUp x
  flying : ∀ x ∈ upToLast s.info (s.sender.sentQueue.drop place), x.hasData = true → x.inFlight = true
  before : ∀ x ∈ s.sender.sentQueue.take place, s.msg x.tsn = s.msg c.tsn → GivenUp x
  behind : ∀ x ∈ behindLast s.info (s.sender.sentQueue.drop place), s.msg x.tsn = s.msg c.tsn → GivenUp x
  found : s.endsSent place = false → ∀ d ∈ s.run c, s.msg d.chunk.tsn = s.msg c.tsn
  unsent : ∀ d ∈ s.sendList.drop (if s.endsSent place then 0 else (s.run c).length),
    s.msg d.chunk.tsn = s.msg c.tsn → GivenUp d.chunk
  outqueue : ∀ stream i sp, (s.outqueue stream)[i]? = some sp →
    if s.reachesStream place c ∧ stream = c.streamNumber ∧ i = 0 then
      sp.msg = s.msg c.tsn ∨ sp.dropRest = sp
    else sp.msg = s.msg c.tsn → sp.dropRest = sp

theorem peersRwnd_skipAsoc (cfg : SenderConfig) (a : Asoc n) (c : SentChunk n) :
    (OutQueues.skipAsoc cfg a c).peersRwnd =
      if c.hasData then (a.peersRwnd + (c.sendSize + cfg.peerChunkOh)) % 2 ^ 32 else a.peersRwnd := by
  unfold OutQueues.skipAsoc
  split
  · rw [← Nat.add_assoc]
    split
    · rfl
    · rfl
  · rfl

theorem credit_cons (cfg : SenderConfig) (c : SentChunk n) (l : List (SentChunk n)) :
    credit cfg (c :: l) = (if c.hasData then c.sendSize + cfg.peerChunkOh else 0) + credit cfg l := by
  unfold credit
  split
  · rename_i hdata
    rw [List.filter_cons_of_pos hdata, List.map_cons, List.sum_cons]
  · rename_i hdata
    rw [List.filter_cons_of_neg hdata, Nat.zero_add]

theorem credit_le (cfg : SenderConfig) {l q : List (SentChunk n)} (h : l.Sublist q) :
    credit cfg l ≤ credit cfg q :=
  ((h.filter _).map _).sum_le_sum fun _ _ => Nat.zero_le _

/-- A chunk is credited in 32 bits. -/
theorem peersRwnd_skipAsoc_eq (cfg : SenderConfig) {a : Asoc n} (ha : a.peersRwnd < 2 ^ 32) (c : SentChunk n) :
    (OutQueues.skipAsoc cfg a c).peersRwnd = (a.peersRwnd + credit cfg [c]) % 2 ^ 32 := by
  rw [peersRwnd_skipAsoc, credit_cons]
  split
  · rfl
  · exact (Nat.mod_eq_of_lt ha).symm

theorem peersRwnd_foldl_skipAsoc (cfg : SenderConfig) (l : List (SentChunk n)) {a : Asoc n}
    (ha : a.peersRwnd < 2 ^ 32) :
    (l.foldl (OutQueues.skipAsoc cfg) a).peersRwnd = (a.peersRwnd + credit cfg l) % 2 ^ 32 := by
  induction l generalizing a with
  | nil => exact (Nat.mod_eq_of_lt ha).symm
  | cons c l ih =>
    have hstep := peersRwnd_skipAsoc_eq cfg ha c
    have hlt : (OutQueues.skipAsoc cfg a c).peersRwnd < 2 ^ 32 := by
      rw [hstep]
      exact Nat.mod_lt _ (by decide)
    rw [List.foldl_cons, ih hlt, hstep, credit_cons cfg c l, credit_cons cfg c [], Nat.mod_add_mod]
    congr 1
    exact Nat.add_assoc _ _ _

theorem leave_totalFlight (f : Flight n) (c : SentChunk n) :
    (f.leave c).totalFlight = f.totalFlight - c.bookSize := by
  have hsame : (f.flightSizeDecrease c).totalFlight = f.totalFlight := by
    unfold Flight.flightSizeDecrease
    split
    · rfl
    · rfl
  unfold Flight.leave Flight.totalFlightDecrease
  rw [hsame]
  split
  · rfl
  · change 0 = _
    omega

theorem leave_flightSize (f : Flight n) (c : SentChunk n) (net : Fin n) :
    (f.leave c).flightSize net = f.flightSize net - if c.whoTo = net then c.bookSize else 0 := by
  have hsame : (f.leave c).flightSize = (f.flightSizeDecrease c).flightSize := by
    unfold Flight.leave Flight.totalFlightDecrease
    split
    · rfl
    · rfl
  rw [hsame]
  unfold Flight.flightSizeDecrease
  by_cases hnet : c.whoTo = net
  · subst hnet
    split
    · rw [if_pos rfl]
      exact Function.update_self _ _ _
    · rw [if_pos rfl]
      refine (Function.update_self _ _ _).trans ?_
      omega
  · rw [if_neg hnet, Nat.sub_zero]
    split
    · exact Function.update_of_ne (Ne.symm hnet) _ _
    · exact Function.update_of_ne (Ne.symm hnet) _ _

theorem leave_retranCnt (f : Flight n) (c : SentChunk n) :
    (f.leave c).sentQueueRetranCnt = f.sentQueueRetranCnt := by
  unfold Flight.leave Flight.totalFlightDecrease Flight.flightSizeDecrease
  split
  · split
    · rfl
    · rfl
  · split
    · rfl
    · rfl

/-- A chunk that the first loop takes out of the flight. -/
def leaves (c : SentChunk n) : Bool := c.hasData && c.inFlight

theorem skipAsoc_toFlight (cfg : SenderConfig) (a : Asoc n) (c : SentChunk n) :
    (OutQueues.skipAsoc cfg a c).toFlight = if leaves c then a.toFlight.leave c else a.toFlight := by
  unfold OutQueues.skipAsoc leaves SentChunk.inFlight
  by_cases hdata : c.hasData = true
  · by_cases hsent : c.sent < datagramResend
    · simp [hdata, hsent, Asoc.leaveFlight]
    · simp [hdata, hsent]
  · simp [hdata]

theorem sendingSeq_skipAsoc (cfg : SenderConfig) (a : Asoc n) (c : SentChunk n) :
    (OutQueues.skipAsoc cfg a c).sendingSeq = a.sendingSeq := by
  unfold OutQueues.skipAsoc
  split
  · split
    · rfl
    · rfl
  · rfl

theorem sendingSeq_foldl_skipAsoc (cfg : SenderConfig) (l : List (SentChunk n)) (a : Asoc n) :
    (l.foldl (OutQueues.skipAsoc cfg) a).sendingSeq = a.sendingSeq := by
  induction l generalizing a with
  | nil => rfl
  | cons c l ih => exact (ih _).trans (sendingSeq_skipAsoc cfg a c)

/-- The counters behind the first loop. -/
theorem foldl_skipAsoc (cfg : SenderConfig) (l : List (SentChunk n)) (a : Asoc n) :
    let a' := l.foldl (OutQueues.skipAsoc cfg) a
    a'.totalFlight = a.totalFlight - ((l.filter leaves).map SentChunk.bookSize).sum ∧
    (∀ net, a'.flightSize net = a.flightSize net -
      (((l.filter leaves).filter fun c => c.whoTo = net).map SentChunk.bookSize).sum) ∧
    a'.sentQueueRetranCnt = a.sentQueueRetranCnt := by
  induction l generalizing a with
  | nil => exact ⟨rfl, fun _ => rfl, rfl⟩
  | cons c l ih =>
    obtain ⟨htotal, hsize, hretran⟩ := ih (OutQueues.skipAsoc cfg a c)
    have hflight := skipAsoc_toFlight cfg a c
    refine ⟨?_, fun net => ?_, ?_⟩
    · refine htotal.trans ?_
      rw [hflight]
      by_cases hc : leaves c = true
      · rw [if_pos hc, leave_totalFlight, List.filter_cons_of_pos hc, List.map_cons, List.sum_cons,
          Nat.sub_sub]
      · rw [if_neg hc, List.filter_cons_of_neg hc]
    · refine (hsize net).trans ?_
      rw [hflight]
      by_cases hc : leaves c = true
      · rw [if_pos hc, leave_flightSize, List.filter_cons_of_pos hc, Nat.sub_sub]
        by_cases hnet : c.whoTo = net
        · rw [if_pos hnet, List.filter_cons_of_pos (by simpa using hnet), List.map_cons, List.sum_cons]
        · rw [if_neg hnet, List.filter_cons_of_neg (by simpa using hnet), Nat.zero_add]
      · rw [if_neg hc, List.filter_cons_of_neg hc]
    · refine hretran.trans ?_
      rw [hflight]
      split
      · exact leave_retranCnt _ _
      · rfl

theorem upToLast_append (info : Tsn → MsgInfo) (q : List (SentChunk n)) :
    upToLast info q ++ behindLast info q = q := by
  induction q with
  | nil => rfl
  | cons c q ih =>
    unfold upToLast behindLast
    split
    · rfl
    · rw [List.cons_append, ih]

theorem behindLast_of_none {info : Tsn → MsgInfo} {q : List (SentChunk n)}
    (h : (q.any fun x => (info x.tsn).lastFrag) = false) : behindLast info q = [] := by
  induction q with
  | nil => rfl
  | cons c q ih =>
    rw [List.any_cons, Bool.or_eq_false_iff] at h
    unfold behindLast
    rw [if_neg (by rw [h.1]; exact Bool.false_ne_true), ih h.2]

theorem skipSent_eq (cfg : SenderConfig) (info : Tsn → MsgInfo) (a : Asoc n)
    (q : List (SentChunk n)) :
    OutQueues.skipSent cfg info a q = ((upToLast info q).foldl (OutQueues.skipAsoc cfg) a,
      (upToLast info q).map OutQueues.skipChunk ++ behindLast info q) := by
  induction q generalizing a with
  | nil => rfl
  | cons c q ih =>
    unfold OutQueues.skipSent upToLast behindLast
    split
    · rfl
    · rw [ih]
      rfl

/-- The queues before and behind a call for message `m`: chunks `marked` are marked, and those of `moved`
go to the sent queue; a placeholder may follow. -/
structure Outcome (cfg : SenderConfig) (s s' : PrQueues n) (m : ℕ)
    (before marked behind : List (SentChunk n)) (moved left : List (DataItem n)) : Prop where
  oldSent : s.sender.sentQueue = before ++ (marked ++ behind)
  newSent : ∃ ph, s'.sender.sentQueue =
    before ++ (marked.map OutQueues.skipChunk ++ (behind ++ (moved.map OutQueues.skippedItem ++ ph))) ∧
      (∀ x ∈ ph, x.tsn = s.sender.sendingSeq ∧ GivenUp x) ∧
      (s'.msg = s.msg ∧ ph = [] ∨ s'.msg = Function.update s.msg s.sender.sendingSeq m)
  oldUnsent : s.sendList = moved ++ left
  newUnsent : s'.sendList = left
  counters : let a' := marked.foldl (OutQueues.skipAsoc cfg) s.sender.toAsoc
    s'.sender.totalFlight = a'.totalFlight ∧ s'.sender.flightSize = a'.flightSize ∧
    s'.sender.peersRwnd = a'.peersRwnd ∧ s'.sender.sentQueueRetranCnt = a'.sentQueueRetranCnt

/-- The third part of the function at most adds a placeholder. -/
theorem settleRest_spec (s : OutQueues n) (moved : Option Tsn) (stream : StreamNo) (whoTo : Fin n)
    (rest : Option OutQueues.StreamRest) :
    let t := s.settleRest moved stream whoTo rest
    t.sendList = s.sendList ∧ t.sender.toFlight = s.sender.toFlight ∧
      t.sender.peersRwnd = s.sender.peersRwnd ∧
      ∃ ph, t.sender.sentQueue = s.sender.sentQueue ++ ph ∧
        (ph = [] ∨ moved = none ∧ ∃ r, rest = some r ∧ r.allocFails = false ∧
          ph = [OutQueues.placeholder s.sender.sendingSeq stream r.actFlags whoTo]) := by
  unfold OutQueues.settleRest
  cases rest with
  | none => exact ⟨rfl, rfl, rfl, [], (List.append_nil _).symm, .inl rfl⟩
  | some r =>
    cases moved with
    | some tsn => exact ⟨rfl, rfl, rfl, [], (List.append_nil _).symm, .inl rfl⟩
    | none =>
      cases hfails : r.allocFails with
      | true =>
        simp only [hfails, if_true]
        exact ⟨trivial, trivial, trivial, [], (List.append_nil _).symm, .inl rfl⟩
      | false =>
        simp only [hfails, Bool.false_eq_true, if_false]
        exact ⟨trivial, trivial, trivial, _, rfl, .inr ⟨trivial, r, rfl, hfails, rfl⟩⟩

/-- The second part moves the run at the head of the send queue. -/
theorem releaseScattered_spec (s : OutQueues n) (stream : StreamNo) (seq : Ssn) (whoTo : Fin n)
    (rest : Option OutQueues.StreamRest) :
    let t := s.releaseScattered stream seq whoTo rest
    t.sendList = s.sendList.drop (s.scattered stream seq).length ∧
      t.sender.toFlight = s.sender.toFlight ∧ t.sender.peersRwnd = s.sender.peersRwnd ∧
      ∃ ph, t.sender.sentQueue =
          s.sender.sentQueue ++ ((s.scattered stream seq).map OutQueues.skippedItem ++ ph) ∧
        (ph = [] ∨ s.scattered stream seq = [] ∧ ∃ r, rest = some r ∧ r.allocFails = false ∧
          ph = [OutQueues.placeholder s.sender.sendingSeq stream r.actFlags whoTo]) := by
  unfold OutQueues.releaseScattered
  dsimp only
  split
  · refine ⟨rfl, rfl, rfl, [], ?_, .inl rfl⟩
    rw [List.append_nil]
    rfl
  · obtain ⟨hlist, hflight, hrwnd, ph, hsent, hph⟩ := settleRest_spec (s.moveScattered stream seq)
      ((s.scattered stream seq).getLast?.map fun d => d.chunk.tsn) stream whoTo rest
    refine ⟨hlist, hflight, hrwnd, ph, ?_, ?_⟩
    · refine hsent.trans ?_
      rw [← List.append_assoc]
      rfl
    · obtain hnil | ⟨hmoved, hrest⟩ := hph
      · exact .inl hnil
      · rw [Option.map_eq_none_iff, List.getLast?_eq_none_iff] at hmoved
        exact .inr ⟨hmoved, hrest⟩

theorem run_append (s : PrQueues n) (c : SentChunk n) :
    s.run c ++ s.sendList.drop (s.run c).length = s.sendList := by
  have hpre : s.run c <+: s.sendList := List.takeWhile_prefix _
  obtain ⟨r, hr⟩ := hpre
  rw [← hr, List.drop_left]

/-- The two fields of the stream queues are all that a call changes outside of the other queues. -/
theorem settleStream_toOutQueues (s : PrQueues n) (c : SentChunk n) (allocFails found : Bool)
    (t : OutQueues n) : (s.settleStream c allocFails found t).toOutQueues = t := by
  unfold settleStream
  split
  · rfl
  · split
    · rfl
    · rfl

theorem settleStream_msg (s : PrQueues n) (c : SentChunk n) (allocFails found : Bool)
    (t : OutQueues n) :
    (s.settleStream c allocFails found t).msg = s.msg ∨
      (s.settleStream c allocFails found t).msg =
        Function.update s.msg s.sender.sendingSeq (s.msg c.tsn) := by
  unfold settleStream
  split
  · exact .inl rfl
  · split
    · exact .inl rfl
    · dsimp only
      split
      · exact .inr rfl
      · exact .inl rfl

/-- The user message of a placeholder is known. -/
theorem settleStream_placeholder (s : PrQueues n) (c : SentChunk n) {allocFails found : Bool}
    {r : OutQueues.StreamRest} (t : OutQueues n) (hfound : found = false)
    (hrun : s.run c = []) (hrest : s.restOf c.streamNumber allocFails = some r)
    (hfails : r.allocFails = false) :
    (s.settleStream c allocFails found t).msg =
      Function.update s.msg s.sender.sendingSeq (s.msg c.tsn) := by
  obtain ⟨sp, hsp, rfl⟩ := Option.map_eq_some_iff.1 hrest
  have hends : s.endsUnsent c = false := by
    unfold endsUnsent
    rw [hrun]
    rfl
  cases hout : s.outqueue c.streamNumber with
  | nil =>
    rw [hout] at hsp
    cases hsp
  | cons sp' sps =>
    unfold settleStream
    have hfails : allocFails = false := hfails
    simp only [hfound, hends, Bool.or_self, Bool.false_eq_true, if_false, hout, hrun, hfails,
      List.isEmpty_nil, Bool.not_false, Bool.and_self, if_true]

theorem settleStream_outqueue (s : PrQueues n) (c : SentChunk n) (allocFails found : Bool)
    (t : OutQueues n) (stream : StreamNo) :
    (s.settleStream c allocFails found t).outqueue stream =
      if (!found && !s.endsUnsent c) = true ∧ stream = c.streamNumber then
        (s.outqueue stream).modifyHead PrPending.dropRest
      else s.outqueue stream := by
  by_cases hends : (found || s.endsUnsent c) = true
  · have hnot : ¬((!found && !s.endsUnsent c) = true ∧ stream = c.streamNumber) := by
      rintro ⟨hnot, -⟩
      rw [← Bool.not_or, hends] at hnot
      cases hnot
    rw [if_neg hnot]
    unfold settleStream
    rw [if_pos hends]
  · have hnot : (!found && !s.endsUnsent c) = true := by
      rw [← Bool.not_or]
      simpa using hends
    by_cases hstream : stream = c.streamNumber
    · subst hstream
      have hboth := And.intro hnot (Eq.refl c.streamNumber)
      rw [if_pos hboth]
      unfold settleStream
      rw [if_neg hends]
      cases hout : s.outqueue c.streamNumber with
      | nil => exact hout
      | cons sp sps => exact Function.update_self _ _ _
    · have hboth : ¬((!found && !s.endsUnsent c) = true ∧ stream = c.streamNumber) :=
        fun h => hstream h.2
      rw [if_neg hboth]
      unfold settleStream
      rw [if_neg hends]
      split
      · rfl
      · exact Function.update_of_ne hstream _ _

/-- The call for a chunk on the sent queue. -/
theorem release_sent (cfg : SenderConfig) (allocFails : Bool) {s : PrQueues n} {place : ℕ}
    {c : SentChunk n} (hc : s.chosen (.sent place) = some c) :
    ∃ s', s.release cfg allocFails (.sent place) = some s' ∧
      Outcome cfg s s' (s.msg c.tsn) (s.sender.sentQueue.take place)
        (upToLast s.info (s.sender.sentQueue.drop place))
        (behindLast s.info (s.sender.sentQueue.drop place))
        (if s.endsSent place then [] else s.run c)
        (s.sendList.drop (if s.endsSent place then 0 else (s.run c).length)) ∧
      ∀ stream, s'.outqueue stream =
        if s.reachesStream place c = true ∧ stream = c.streamNumber then
          (s.outqueue stream).modifyHead PrPending.dropRest
        else s.outqueue stream := by
  have hget : s.sender.sentQueue[place]? = some c := hc
  refine ⟨s.settleStream c allocFails (s.endsSent place)
    (s.releaseSent cfg place (s.restOf c.streamNumber allocFails)), ?_, ?_,
    fun stream => settleStream_outqueue s c allocFails _ _ stream⟩
  · unfold release
    rw [hc]
  have hold : s.sender.sentQueue = s.sender.sentQueue.take place ++
      (upToLast s.info (s.sender.sentQueue.drop place) ++
        behindLast s.info (s.sender.sentQueue.drop place)) := by
    rw [upToLast_append, List.take_append_drop]
  have hmsg := settleStream_msg s c allocFails (s.endsSent place)
    (s.releaseSent cfg place (s.restOf c.streamNumber allocFails))
  have hplaceholder := fun (r : OutQueues.StreamRest) => @settleStream_placeholder n s c allocFails
    (s.endsSent place) r (s.releaseSent cfg place (s.restOf c.streamNumber allocFails))
  generalize hs' : s.settleStream c allocFails (s.endsSent place)
    (s.releaseSent cfg place (s.restOf c.streamNumber allocFails)) = s' at hmsg hplaceholder ⊢
  have hout : s'.toOutQueues = s.releaseSent cfg place (s.restOf c.streamNumber allocFails) := by
    rw [← hs', settleStream_toOutQueues]
  unfold OutQueues.releaseSent at hout
  simp only [hget, skipSent_eq] at hout
  cases hends : s.endsSent place with
  | true =>
    have hany : ((s.sender.sentQueue.drop place).any fun x => (s.info x.tsn).lastFrag) = true := hends
    rw [if_pos hany] at hout
    refine ⟨hold, ⟨[], ?_, fun x hx => absurd hx List.not_mem_nil, ?_⟩, rfl, ?_, ?_⟩
    · refine (congrArg (fun t => t.sender.sentQueue) hout).trans ?_
      simp
    · obtain hsame | hupdate := hmsg
      · exact .inl ⟨hsame, rfl⟩
      · exact .inr hupdate
    · exact congrArg (fun t => t.sendList) hout
    · dsimp only
      refine ⟨?_, ?_, ?_, ?_⟩
      · exact congrArg (fun t => t.sender.totalFlight) hout
      · exact congrArg (fun t => t.sender.flightSize) hout
      · exact congrArg (fun t => t.sender.peersRwnd) hout
      · exact congrArg (fun t => t.sender.sentQueueRetranCnt) hout
  | false =>
    have hany : ((s.sender.sentQueue.drop place).any fun x => (s.info x.tsn).lastFrag) = false := hends
    have hbehind := behindLast_of_none hany
    rw [if_neg (by rw [hany]; exact Bool.false_ne_true), hbehind, List.append_nil] at hout
    rw [hbehind] at hold ⊢
    obtain ⟨hlist, hflight, hrwnd, ph, hsent, hph⟩ := releaseScattered_spec
      { s.toOutQueues with
        sender := {
          toAsoc := (upToLast s.info (s.sender.sentQueue.drop place)).foldl
            (OutQueues.skipAsoc cfg) s.sender.toAsoc
          sentQueue := s.sender.sentQueue.take place ++
            (upToLast s.info (s.sender.sentQueue.drop place)).map OutQueues.skipChunk } }
      c.streamNumber (s.info c.tsn).streamSeq c.whoTo (s.restOf c.streamNumber allocFails)
    rw [← hout] at hlist hflight hrwnd hsent
    have hseq : ((upToLast s.info (s.sender.sentQueue.drop place)).foldl
        (OutQueues.skipAsoc cfg) s.sender.toAsoc).sendingSeq = s.sender.sendingSeq :=
      sendingSeq_foldl_skipAsoc _ _ _
    refine ⟨hold, ⟨ph, ?_, fun x hx => ?_, ?_⟩, (run_append s c).symm, hlist, ?_⟩
    · refine hsent.trans ?_
      rw [List.append_assoc]
      rfl
    · obtain hnil | ⟨-, r, -, -, hr⟩ := hph
      · rw [hnil] at hx
        cases hx
      · rw [hr] at hx
        obtain rfl := List.mem_singleton.1 hx
        exact ⟨hseq, rfl, rfl⟩
    · obtain hnil | ⟨hrun, r, hrest, hfails, -⟩ := hph
      · obtain hsame | hupdate := hmsg
        · exact .inl ⟨hsame, hnil⟩
        · exact .inr hupdate
      · exact .inr (hplaceholder r hends hrun hrest hfails)
    · dsimp only
      refine ⟨?_, ?_, hrwnd, ?_⟩
      · exact congrArg Flight.totalFlight hflight
      · exact congrArg Flight.flightSize hflight
      · exact congrArg Flight.sentQueueRetranCnt hflight

theorem skipChunk_eq_self_iff {c : SentChunk n} : OutQueues.skipChunk c = c ↔ GivenUp c := by
  constructor
  · intro h
    exact ⟨(congrArg SentChunk.sent h).symm, (congrArg SentChunk.hasData h).symm⟩
  · rintro ⟨hsent, hdata⟩
    unfold OutQueues.skipChunk
    rw [hdata, Bool.false_and, Bool.not_false, Bool.and_true, ← hsent, ← hdata]

theorem skipChunk_givenUp (c : SentChunk n) : GivenUp (OutQueues.skipChunk c) := ⟨rfl, rfl⟩

theorem GivenUp.not_inFlight {c : SentChunk n} (h : GivenUp c) : c.inFlight = false := by
  unfold SentChunk.inFlight
  rw [h.1]
  rfl

theorem GivenUp.not_toResend {c : SentChunk n} (h : GivenUp c) : c.toResend = false := by
  unfold SentChunk.toResend
  rw [h.1]
  rfl

section Call

variable {cfg : SenderConfig} {s s' : PrQueues n} {m : ℕ}
  {before marked behind : List (SentChunk n)} {moved left : List (DataItem n)}

/-- Chunks on the queues keep their message. -/
theorem Outcome.msg_eq (h : Outcome cfg s s' m before marked behind moved left) {tsn : Tsn}
    (hne : tsn ≠ s.sender.sendingSeq) : s'.msg tsn = s.msg tsn := by
  obtain ⟨ph, -, -, ⟨hsame, -⟩ | hupdate⟩ := h.newSent
  · rw [hsame]
  · rw [hupdate]
    exact Function.update_of_ne hne _ _

theorem Outcome.filter_sent (h : Outcome cfg s s' m before marked behind moved left)
    {l : List (SentChunk n)} (hl : ∀ c ∈ l, c.tsn ≠ s.sender.sendingSeq) :
    l.filter (fun c => s'.msg c.tsn != m) = l.filter fun c => s.msg c.tsn != m :=
  List.filter_congr fun c hc => by rw [h.msg_eq (hl c hc)]

/-- The placeholder is of the message. -/
theorem Outcome.filter_placeholder (h : Outcome cfg s s' m before marked behind moved left) :
    ∃ ph, s'.sender.sentQueue =
        before ++ (marked.map OutQueues.skipChunk ++ (behind ++ (moved.map OutQueues.skippedItem ++ ph))) ∧
      (∀ x ∈ ph, GivenUp x) ∧ ph.filter (fun c => s'.msg c.tsn != m) = [] := by
  obtain ⟨ph, hsent, hph, hmsg⟩ := h.newSent
  refine ⟨ph, hsent, fun x hx => (hph x hx).2, ?_⟩
  obtain ⟨-, rfl⟩ | hupdate := hmsg
  · rfl
  · rw [List.filter_eq_nil_iff]
    intro x hx
    rw [(hph x hx).1, hupdate, Function.update_self]
    simp

theorem filter_map_skipChunk (p : Tsn → Bool) (l : List (SentChunk n)) :
    (l.map OutQueues.skipChunk).filter (fun c => p c.tsn) =
      (l.filter fun c => p c.tsn).map OutQueues.skipChunk :=
  List.filter_map

theorem map_eq_self_iff {l : List (SentChunk n)} :
    l.map OutQueues.skipChunk = l ↔ ∀ c ∈ l, GivenUp c := by
  have hid := List.map_inj_left (f := OutQueues.skipChunk) (g := id) (l := l)
  rw [List.map_id] at hid
  rw [hid]
  exact forall₂_congr fun c _ => skipChunk_eq_self_iff

/-- The chunks of a message that is all marked or given up, and which counters they are in. -/
theorem Outcome.flying_eq (h : Outcome cfg s s' m before marked behind moved left)
    (hs : s.Consistent cfg) (hmarked : ∀ x ∈ marked, s.msg x.tsn = m ∨ GivenUp x)
    (hbefore : ∀ x ∈ before, s.msg x.tsn = m → GivenUp x)
    (hbehind : ∀ x ∈ behind, s.msg x.tsn = m → GivenUp x) :
    s.flying m = marked.filter leaves := by
  have hout : ∀ l : List (SentChunk n), (∀ x ∈ l, s.msg x.tsn = m → GivenUp x) →
      l.filter (fun c => s.msg c.tsn == m && c.inFlight) = [] := by
    intro l hl
    rw [List.filter_eq_nil_iff]
    intro x hx hboth
    rw [Bool.and_eq_true, beq_iff_eq] at hboth
    rw [(hl x hx hboth.1).not_inFlight] at hboth
    cases hboth.2
  unfold flying
  rw [h.oldSent, List.filter_append, List.filter_append, hout _ hbefore, hout _ hbehind,
    List.nil_append, List.append_nil]
  apply List.filter_congr
  intro x hx
  have hin : x ∈ s.sender.sentQueue := by
    rw [h.oldSent]
    exact List.mem_append_right _ (List.mem_append_left _ hx)
  unfold leaves
  obtain hmsg | hup := hmarked x hx
  · rw [hmsg, beq_self_eq_true, Bool.true_and]
    cases hflight : x.inFlight with
    | false => rw [Bool.and_false]
    | true =>
      have hlt : x.sent < datagramResend := by simpa [SentChunk.inFlight] using hflight
      rw [hs.data x hin hlt.le, Bool.and_self]
  · rw [hup.not_inFlight, Bool.and_false, Bool.and_false]

/-- Splitting off what the first loop credits without need. -/
theorem sum_hasData (f : SentChunk n → ℕ) (l : List (SentChunk n)) :
    ((l.filter SentChunk.hasData).map f).sum = ((l.filter leaves).map f).sum +
      ((l.filter fun c => c.hasData && !c.inFlight).map f).sum := by
  induction l with
  | nil => rfl
  | cons c l ih =>
    cases hdata : c.hasData with
    | false => simp [leaves, hdata, ih]
    | true =>
      cases hflight : c.inFlight with
      | false =>
        simp [leaves, hdata, hflight, ih]
        omega
      | true =>
        simp [leaves, hdata, hflight, ih]
        omega

/-- The counters are right when nothing outside of the flight had data. -/
theorem Outcome.counters_iff (h : Outcome cfg s s' m before marked behind moved left)
    (hs : s.Consistent cfg) (hmarked : ∀ x ∈ marked, s.msg x.tsn = m ∨ GivenUp x)
    (hbefore : ∀ x ∈ before, s.msg x.tsn = m → GivenUp x)
    (hbehind : ∀ x ∈ behind, s.msg x.tsn = m → GivenUp x) :
    s'.sender.peersRwnd =
        (s.sender.peersRwnd + ((s.flying m).map fun c => c.sendSize + cfg.peerChunkOh).sum) % 2 ^ 32 ↔
      ∀ x ∈ marked, x.hasData = true → x.inFlight = true := by
  obtain ⟨-, -, hrwnd, -⟩ := h.counters
  have hsub : marked.Sublist s.sender.sentQueue := by
    rw [h.oldSent]
    exact (List.sublist_append_left _ _).trans (List.sublist_append_right _ _)
  have hlt := (credit_le cfg hsub).trans_lt hs.creditSent
  rw [hrwnd, peersRwnd_foldl_skipAsoc cfg marked hs.window, h.flying_eq hs hmarked hbefore hbehind]
  rw [credit, sum_hasData] at hlt ⊢
  have hsum : ∀ a b c : ℕ, b + c < 2 ^ 32 → ((a + (b + c)) % 2 ^ 32 = (a + b) % 2 ^ 32 ↔ c = 0) := by omega
  rw [hsum _ _ _ hlt, List.sum_eq_zero_iff]
  constructor
  · intro hzero x hx hdata
    by_contra hflight
    rw [Bool.not_eq_true] at hflight
    have hin : x ∈ s.sender.sentQueue := by
      rw [h.oldSent]
      exact List.mem_append_right _ (List.mem_append_left _ hx)
    have hmem : x ∈ marked.filter fun c => c.hasData && !c.inFlight := by
      refine List.mem_filter.2 ⟨hx, ?_⟩
      rw [hdata, hflight]
      rfl
    have := hzero _ (List.mem_map_of_mem hmem)
    have hsize := hs.sizeSent x hin hdata
    omega
  · intro hall k hk
    obtain ⟨x, hx, -⟩ := List.mem_map.1 hk
    obtain ⟨hx, hboth⟩ := List.mem_filter.1 hx
    rw [Bool.and_eq_true] at hboth
    rw [hall x hx hboth.1] at hboth
    cases hboth.2

/-- A chunk to be resent has data and is not in flight. -/
theorem Outcome.resending_eq (h : Outcome cfg s s' m before marked behind moved left)
    (hs : s.Consistent cfg) (hbefore : ∀ x ∈ before, s.msg x.tsn = m → GivenUp x)
    (hbehind : ∀ x ∈ behind, s.msg x.tsn = m → GivenUp x)
    (hflying : ∀ x ∈ marked, x.hasData = true → x.inFlight = true) : s.resending m = [] := by
  unfold resending
  rw [List.filter_eq_nil_iff]
  intro x hx hboth
  rw [Bool.and_eq_true, beq_iff_eq] at hboth
  obtain ⟨hmsg, hresend⟩ := hboth
  have hgone : ¬GivenUp x := by
    intro hup
    rw [hup.not_toResend] at hresend
    cases hresend
  have hsent : x.sent = datagramResend := by simpa [SentChunk.toResend] using hresend
  have hdata := hs.data x hx hsent.le
  rw [h.oldSent] at hx
  obtain hx | hx := List.mem_append.1 hx
  · exact hgone (hbefore x hx hmsg)
  obtain hx | hx := List.mem_append.1 hx
  · have hflight := hflying x hx hdata
    unfold SentChunk.inFlight at hflight
    rw [hsent] at hflight
    simp at hflight
  · exact hgone (hbehind x hx hmsg)

theorem Outcome.fresh (h : Outcome cfg s s' m before marked behind moved left) (hs : s.Consistent cfg) :
    (∀ c ∈ before, c.tsn ≠ s.sender.sendingSeq) ∧ (∀ c ∈ marked, c.tsn ≠ s.sender.sendingSeq) ∧
      (∀ c ∈ behind, c.tsn ≠ s.sender.sendingSeq) ∧
      (∀ d ∈ moved, d.chunk.tsn ≠ s.sender.sendingSeq) ∧
      ∀ d ∈ left, d.chunk.tsn ≠ s.sender.sendingSeq := by
  have hsent := hs.freshSent
  have hunsent := hs.freshUnsent
  rw [h.oldSent] at hsent
  rw [h.oldUnsent] at hunsent
  refine ⟨fun c hc => hsent c ?_, fun c hc => hsent c ?_, fun c hc => hsent c ?_,
    fun d hd => hunsent d ?_, fun d hd => hunsent d ?_⟩
  · exact List.mem_append_left _ hc
  · exact List.mem_append_right _ (List.mem_append_left _ hc)
  · exact List.mem_append_right _ (List.mem_append_right _ hc)
  · exact List.mem_append_left _ hd
  · exact List.mem_append_right _ hd

theorem Outcome.otherUnsent_iff (h : Outcome cfg s s' m before marked behind moved left)
    (hs : s.Consistent cfg) :
    s'.sendList.filter (fun d => s'.msg d.chunk.tsn != m) =
        s.sendList.filter (fun d => s.msg d.chunk.tsn != m) ↔
      ∀ d ∈ moved, s.msg d.chunk.tsn = m := by
  obtain ⟨-, -, -, -, hleft⟩ := h.fresh hs
  have hsame : left.filter (fun d => s'.msg d.chunk.tsn != m) =
      left.filter fun d => s.msg d.chunk.tsn != m :=
    List.filter_congr fun d hd => by rw [h.msg_eq (hleft d hd)]
  rw [h.newUnsent, h.oldUnsent, List.filter_append, hsame, eq_comm, List.append_left_eq_self,
    List.filter_eq_nil_iff]
  exact forall₂_congr fun d _ => by simp

theorem Outcome.otherSent_iff (h : Outcome cfg s s' m before marked behind moved left)
    (hs : s.Consistent cfg) (hmoved : ∀ d ∈ moved, s.msg d.chunk.tsn = m) :
    s'.sender.sentQueue.filter (fun c => s'.msg c.tsn != m) =
        s.sender.sentQueue.filter (fun c => s.msg c.tsn != m) ↔
      ∀ x ∈ marked, s.msg x.tsn = m ∨ GivenUp x := by
  obtain ⟨hfb, hfm, hfh, hfd, -⟩ := h.fresh hs
  obtain ⟨ph, hsent, -, hph⟩ := h.filter_placeholder
  have hgone : (moved.map OutQueues.skippedItem).filter (fun c => s'.msg c.tsn != m) = [] := by
    rw [List.filter_eq_nil_iff]
    intro x hx
    obtain ⟨d, hd, rfl⟩ := List.mem_map.1 hx
    have hmsg : s'.msg (OutQueues.skippedItem d).tsn = m :=
      (h.msg_eq (hfd d hd)).trans (hmoved d hd)
    simpa using hmsg
  rw [hsent, h.oldSent]
  simp only [List.filter_append, hgone, hph, List.append_nil]
  rw [h.filter_sent hfb, h.filter_sent hfh, List.append_cancel_left_eq, List.append_cancel_right_eq,
    filter_map_skipChunk fun t => s'.msg t != m, h.filter_sent hfm, map_eq_self_iff]
  constructor
  · intro hall x hx
    by_cases hmsg : s.msg x.tsn = m
    · exact .inl hmsg
    · exact .inr (hall x (List.mem_filter.2 ⟨hx, by simpa using hmsg⟩))
  · intro hall x hx
    obtain ⟨hx, hmsg⟩ := List.mem_filter.1 hx
    exact (hall x hx).resolve_left (by simpa using hmsg)

/-- What is left to ask when the outcome of a call is known. -/
theorem Outcome.abandons_iff (h : Outcome cfg s s' m before marked behind moved left)
    (hs : s.Consistent cfg) :
    Abandons cfg s s' m ↔
      ((∀ x ∈ marked, s.msg x.tsn = m ∨ GivenUp x) ∧
        (∀ x ∈ marked, x.hasData = true → x.inFlight = true) ∧
        (∀ x ∈ before, s.msg x.tsn = m → GivenUp x) ∧ (∀ x ∈ behind, s.msg x.tsn = m → GivenUp x) ∧
        (∀ d ∈ moved, s.msg d.chunk.tsn = m) ∧
        ∀ d ∈ left, s.msg d.chunk.tsn = m → GivenUp d.chunk) ∧
      ∀ stream, s'.outqueue stream =
        (s.outqueue stream).map fun sp => if sp.msg = m then sp.dropRest else sp := by
  obtain ⟨hfb, hfm, hfh, hfd, hfl⟩ := h.fresh hs
  obtain ⟨ph, hsent, hph, -⟩ := h.filter_placeholder
  constructor
  · intro ha
    have hmoved := (h.otherUnsent_iff hs).1 ha.otherUnsent
    have hmarked := (h.otherSent_iff hs hmoved).1 ha.otherSent
    have hup := ha.sent
    rw [hsent] at hup
    have hbefore : ∀ x ∈ before, s.msg x.tsn = m → GivenUp x := fun x hx hmsg =>
      hup x (List.mem_append_left _ hx) ((h.msg_eq (hfb x hx)).trans hmsg)
    have hbehind : ∀ x ∈ behind, s.msg x.tsn = m → GivenUp x := fun x hx hmsg =>
      hup x (List.mem_append_right _ (List.mem_append_right _ (List.mem_append_left _ hx)))
        ((h.msg_eq (hfh x hx)).trans hmsg)
    refine ⟨⟨hmarked, ?_, hbefore, hbehind, hmoved, fun d hd hmsg => ?_⟩, ha.outqueue⟩
    · exact (h.counters_iff hs hmarked hbefore hbehind).1 ha.peersRwnd
    · exact ha.unsent d (h.newUnsent ▸ hd) ((h.msg_eq (hfl d hd)).trans hmsg)
  · rintro ⟨⟨hmarked, hflying, hbefore, hbehind, hmoved, hleft⟩, hout⟩
    obtain ⟨htotal, hsize, -, hretran⟩ := h.counters
    obtain ⟨ftotal, fsize, fretran⟩ := foldl_skipAsoc cfg marked s.sender.toAsoc
    have hflying_eq := h.flying_eq hs hmarked hbefore hbehind
    constructor
    · intro c hc hmsg
      rw [hsent] at hc
      simp only [List.mem_append] at hc
      obtain hc | hc | hc | hc | hc := hc
      · exact hbefore c hc ((h.msg_eq (hfb c hc)).symm.trans hmsg)
      · obtain ⟨x, -, rfl⟩ := List.mem_map.1 hc
        exact skipChunk_givenUp x
      · exact hbehind c hc ((h.msg_eq (hfh c hc)).symm.trans hmsg)
      · obtain ⟨d, -, rfl⟩ := List.mem_map.1 hc
        exact ⟨rfl, rfl⟩
      · exact hph c hc
    · intro d hd hmsg
      rw [h.newUnsent] at hd
      exact hleft d hd ((h.msg_eq (hfl d hd)).symm.trans hmsg)
    · intro tsn
      unfold OutQueues.sent OutQueues.unsent
      rw [hsent, h.oldSent, h.oldUnsent, h.newUnsent]
      simp only [List.map_append, List.map_map, List.mem_append]
      have hskip : (SentChunk.tsn ∘ OutQueues.skipChunk : SentChunk n → Tsn) = SentChunk.tsn := rfl
      have hitem : (SentChunk.tsn ∘ OutQueues.skippedItem : DataItem n → Tsn) =
          fun d => d.chunk.tsn := rfl
      rw [hskip, hitem]
      tauto
    · exact (h.otherSent_iff hs hmoved).2 hmarked
    · exact (h.otherUnsent_iff hs).2 hmoved
    · exact hout
    · rw [htotal, ftotal, hflying_eq]
    · intro net
      rw [hsize, fsize, hflying_eq]
    · exact (h.counters_iff hs hmarked hbefore hbehind).2 hflying
    · rw [hretran, fretran, h.resending_eq hs hbefore hbehind hflying]
      rfl

end Call

theorem map_dropRest_iff {m : ℕ} {l : List PrPending} :
    l = l.map (fun sp => if sp.msg = m then sp.dropRest else sp) ↔
      ∀ (i : ℕ) sp, l[i]? = some sp → sp.msg = m → sp.dropRest = sp := by
  have hid := List.map_inj_left (f := fun sp : PrPending => if sp.msg = m then sp.dropRest else sp)
    (g := id) (l := l)
  rw [List.map_id] at hid
  rw [eq_comm, hid]
  constructor
  · intro h i sp hsp hmsg
    have := h sp (List.mem_of_getElem? hsp)
    rwa [if_pos hmsg] at this
  · intro h sp hsp
    obtain ⟨i, hi⟩ := List.mem_iff_getElem?.1 hsp
    by_cases hmsg : sp.msg = m
    · rw [if_pos hmsg]
      exact h i sp hi hmsg
    · rw [if_neg hmsg]
      rfl

theorem modifyHead_dropRest_iff {m : ℕ} {l : List PrPending} :
    l.modifyHead PrPending.dropRest = l.map (fun sp => if sp.msg = m then sp.dropRest else sp) ↔
      ∀ i sp, l[i]? = some sp →
        if i = 0 then sp.msg = m ∨ sp.dropRest = sp else sp.msg = m → sp.dropRest = sp := by
  cases l with
  | nil => simp
  | cons sp l =>
    rw [List.modifyHead_cons, List.map_cons, List.cons.injEq, map_dropRest_iff]
    have hhead : sp.dropRest = (if sp.msg = m then sp.dropRest else sp) ↔
        sp.msg = m ∨ sp.dropRest = sp := by
      by_cases hmsg : sp.msg = m
      · simp [hmsg]
      · simp [hmsg]
    rw [hhead]
    constructor
    · rintro ⟨hfirst, hrest⟩ i sp' hsp'
      cases i with
      | zero =>
        obtain rfl : sp = sp' := Option.some.inj hsp'
        exact hfirst
      | succ i => exact hrest i sp' hsp'
    · intro h
      exact ⟨h 0 sp rfl, fun i sp' hsp' => h (i + 1) sp' hsp'⟩

/-- The first loop on the send queue credits the first chunk and some of those behind it. -/
theorem skipUnsent_peersRwnd {cfg : SenderConfig} {info : Tsn → MsgInfo} {a : Asoc n}
    {q : List (DataItem n)} {r : Asoc n × List (DataItem n)} (ha : a.peersRwnd < 2 ^ 32)
    (h : OutQueues.skipUnsent cfg info a q = some r) :
    ∃ k ≤ credit cfg (q.map DataItem.chunk), r.1.peersRwnd = (a.peersRwnd + k) % 2 ^ 32 ∧
      credit cfg ((q.take 1).map DataItem.chunk) ≤ k := by
  induction q generalizing a r with
  | nil =>
    obtain rfl := Option.some.inj h
    exact ⟨0, Nat.zero_le _, (Nat.mod_eq_of_lt ha).symm, le_rfl⟩
  | cons d q ih =>
    have hstep : ∀ whoTo, (OutQueues.skipAsoc cfg a { d.chunk with whoTo := whoTo }).peersRwnd =
        (a.peersRwnd + credit cfg [d.chunk]) % 2 ^ 32 := by
      intro whoTo
      rw [peersRwnd_skipAsoc_eq cfg ha, credit_cons, credit_cons]
    have hcredit := credit_cons cfg d.chunk (q.map DataItem.chunk)
    have hfirst := credit_cons cfg d.chunk []
    have hnil : credit cfg ([] : List (SentChunk n)) = 0 := rfl
    unfold OutQueues.skipUnsent at h
    split at h
    · cases h
    · dsimp only at h
      split at h
      · obtain rfl := Option.some.inj h
        refine ⟨credit cfg [d.chunk], ?_, hstep _, le_rfl⟩
        rw [List.map_cons]
        omega
      · obtain ⟨r', hr', rfl⟩ := Option.map_eq_some_iff.1 h
        have hlt : ∀ whoTo, (OutQueues.skipAsoc cfg a { d.chunk with whoTo := whoTo }).peersRwnd < 2 ^ 32 := by
          intro whoTo
          rw [hstep]
          exact Nat.mod_lt _ (by decide)
        obtain ⟨k, hk, hrest, -⟩ := ih (hlt _) hr'
        refine ⟨credit cfg [d.chunk] + k, ?_, ?_, Nat.le_add_right _ _⟩
        · rw [List.map_cons]
          omega
        · rw [hrest, hstep, Nat.mod_add_mod, Nat.add_assoc]

/-- A chunk that has not been sent is credited to the window all the same. -/
theorem releaseUnsent_spec {cfg : SenderConfig} {s t : OutQueues n} {place : ℕ} {d : DataItem n}
    {rest : Option OutQueues.StreamRest} (hs : s.sender.peersRwnd < 2 ^ 32) (hd : s.sendList[place]? = some d)
    (hdata : d.chunk.hasData = true) (ht : s.releaseUnsent cfg place rest = some t) :
    s.sender.sentQueue <+: t.sender.sentQueue ∧
      ∃ k ≤ credit cfg (s.sendList.map DataItem.chunk),
        t.sender.peersRwnd = (s.sender.peersRwnd + k) % 2 ^ 32 ∧ d.chunk.sendSize ≤ k := by
  have hdrop : s.sendList.drop place = d :: s.sendList.drop (place + 1) := by
    obtain ⟨hlt, hget⟩ := List.getElem?_eq_some_iff.1 hd
    rw [List.drop_eq_getElem_cons hlt, hget]
  unfold OutQueues.releaseUnsent at ht
  simp only [hd] at ht
  obtain ⟨r, hr, rfl⟩ := Option.map_eq_some_iff.1 ht
  obtain ⟨k, hk, hcredit, hfirst⟩ := skipUnsent_peersRwnd hs hr
  have hrwnd : ∃ k ≤ credit cfg (s.sendList.map DataItem.chunk),
      r.1.peersRwnd = (s.sender.peersRwnd + k) % 2 ^ 32 ∧ d.chunk.sendSize ≤ k := by
    refine ⟨k, hk.trans (credit_le cfg ((List.drop_sublist _ _).map _)), hcredit, ?_⟩
    rw [hdrop, List.take_succ_cons, List.map_cons, credit_cons, if_pos hdata] at hfirst
    omega
  split
  · exact ⟨List.prefix_rfl, hrwnd⟩
  · obtain ⟨-, -, hsame, ph, hsent, -⟩ := releaseScattered_spec
      { s with
        sender := { s.sender with toAsoc := r.1 }
        sendList := s.sendList.take place ++ r.2 }
      d.chunk.streamNumber (s.info d.chunk.tsn).streamSeq (d.whoTo.getD d.chunk.whoTo) rest
    constructor
    · exact ⟨_, hsent.symm⟩
    · rw [hsame]
      exact hrwnd

theorem release_unsent_not_abandons {cfg : SenderConfig} {allocFails : Bool} {s s' : PrQueues n}
    (hs : s.Consistent cfg) {place : ℕ} {c : SentChunk n} (hc : s.chosen (.unsent place) = some c)
    (hdata : c.hasData = true) (hrelease : s.release cfg allocFails (.unsent place) = some s') :
    ¬Abandons cfg s s' (s.msg c.tsn) := by
  intro ha
  obtain ⟨d, hd, rfl⟩ := Option.map_eq_some_iff.1 hc
  unfold release at hrelease
  simp only [hc] at hrelease
  obtain ⟨t, ht, rfl⟩ := Option.map_eq_some_iff.1 hrelease
  obtain ⟨hpre, k, hk, hrwnd, hle⟩ := releaseUnsent_spec hs.window hd hdata ht
  have hcredit := ha.peersRwnd
  have hup := ha.sent
  have hmsg := settleStream_msg s d.chunk allocFails
    ((s.sendList.drop place).any fun d => (s.info d.chunk.tsn).lastFrag) t
  generalize hs' : s.settleStream d.chunk allocFails
    ((s.sendList.drop place).any fun d => (s.info d.chunk.tsn).lastFrag) t = s' at hcredit hup hmsg
  have hout : s'.toOutQueues = t := by rw [← hs', settleStream_toOutQueues]
  -- Nothing of the message may be in flight behind the call, so nothing was.
  have hflying : s.flying (s.msg d.chunk.tsn) = [] := by
    unfold flying
    rw [List.filter_eq_nil_iff]
    intro x hx hboth
    rw [Bool.and_eq_true, beq_iff_eq] at hboth
    have hsame : s'.msg x.tsn = s.msg x.tsn := by
      obtain hsame | hupdate := hmsg
      · rw [hsame]
      · rw [hupdate]
        exact Function.update_of_ne (hs.freshSent x hx) _ _
    have hin : x ∈ s'.sender.sentQueue := by
      rw [hout]
      exact hpre.subset hx
    rw [(hup x hin (hsame.trans hboth.1)).not_inFlight] at hboth
    cases hboth.2
  rw [hflying, hout] at hcredit
  have hsize := hs.sizeUnsent d (List.mem_of_getElem? hd) hdata
  have hroom := hs.creditUnsent
  rw [hrwnd, List.map_nil, List.sum_nil, Nat.add_zero] at hcredit
  omega

/-- A call abandons the message of its chunk and nothing else exactly when the chunk is on the sent
queue and the chunks up to the next last fragment are those of the message that have to be marked. -/
theorem release_abandons_iff (cfg : SenderConfig) (allocFails : Bool) {s : PrQueues n}
    (hs : s.Consistent cfg) (call : ReleaseCall) {c : SentChunk n} (hc : s.chosen call = some c)
    (hdata : c.hasData = true) :
    (∃ s', s.release cfg allocFails call = some s' ∧ Abandons cfg s s' (s.msg c.tsn)) ↔
      ∃ place, call = .sent place ∧ s.Releasable place c := by
  cases call with
  | unsent place =>
    constructor
    · rintro ⟨s', hrelease, ha⟩
      exact absurd ha (release_unsent_not_abandons hs hc hdata hrelease)
    · rintro ⟨_, hcall, _⟩
      cases hcall
  | sent place =>
    obtain ⟨s', hrelease, houtcome, hout⟩ := release_sent cfg allocFails hc
    have hstreams : (∀ stream, s'.outqueue stream = (s.outqueue stream).map fun sp =>
          if sp.msg = s.msg c.tsn then sp.dropRest else sp) ↔
        ∀ stream i sp, (s.outqueue stream)[i]? = some sp →
          if s.reachesStream place c ∧ stream = c.streamNumber ∧ i = 0 then
            sp.msg = s.msg c.tsn ∨ sp.dropRest = sp
          else sp.msg = s.msg c.tsn → sp.dropRest = sp := by
      apply forall_congr'
      intro stream
      rw [hout stream]
      by_cases hreach : s.reachesStream place c = true ∧ stream = c.streamNumber
      · rw [if_pos hreach, modifyHead_dropRest_iff]
        simp only [hreach.1, hreach.2, true_and]
      · have hnot : ∀ i : ℕ, ¬(s.reachesStream place c = true ∧ stream = c.streamNumber ∧ i = 0) :=
          fun i h => hreach ⟨h.1, h.2.1⟩
        rw [if_neg hreach, map_dropRest_iff]
        simp only [if_neg (hnot _)]
    have hmoved : (∀ d ∈ (if s.endsSent place then [] else s.run c), s.msg d.chunk.tsn = s.msg c.tsn) ↔
        (s.endsSent place = false → ∀ d ∈ s.run c, s.msg d.chunk.tsn = s.msg c.tsn) := by
      cases s.endsSent place with
      | true => simp
      | false => simp
    have hiff := houtcome.abandons_iff hs
    rw [hstreams, hmoved] at hiff
    constructor
    · rintro ⟨u, hu, ha⟩
      obtain rfl := Option.some.inj (hrelease.symm.trans hu)
      obtain ⟨⟨hmarked, hflying, hbefore, hbehind, hfound, hunsent⟩, hqueue⟩ := hiff.1 ha
      exact ⟨place, rfl, hmarked, hflying, hbefore, hbehind, hfound, hunsent, hqueue⟩
    · rintro ⟨place', hplace, h⟩
      cases hplace
      refine ⟨s', hrelease, hiff.2 ⟨⟨h.marked, h.flying, h.before, h.behind, h.found, h.unsent⟩, ?_⟩⟩
      exact h.outqueue

/-- A sender whose only chunk, a whole message, is in a given state. -/
def oneMessage (sent totalFlight retranCnt : ℕ) : PrQueues 1 where
  sender := { freshSender with
    totalFlight := totalFlight
    flightSize := fun _ => totalFlight
    sentQueueRetranCnt := retranCnt
    sendingSeq := 2
    sentQueue := [{ (plainItem 1).chunk with sent := sent }] }
  sendList := []
  info _ := ⟨0, true⟩
  outqueue _ := []
  nextSequenceSend _ := 1
  msg _ := 0

theorem oneMessage_consistent (sent totalFlight retranCnt : ℕ) :
    (oneMessage sent totalFlight retranCnt).Consistent freshConfig := by
  constructor
  · intro c hc
    obtain rfl := List.mem_singleton.1 hc
    change (1 : Tsn) ≠ 2
    decide
  · intro d hd
    cases hd
  · intro c hc _
    obtain rfl := List.mem_singleton.1 hc
    rfl
  · intro c hc _
    obtain rfl := List.mem_singleton.1 hc
    change 0 < 1400
    decide
  · intro d hd
    cases hd
  · change freshSender.peersRwnd < 2 ^ 32
    decide
  · change credit freshConfig [{ (plainItem 1).chunk with sent := sent }] < 2 ^ 32
    rw [credit_cons]
    change (if true = true then 1400 + freshConfig.peerChunkOh else 0) + 0 < 2 ^ 32
    decide
  · change credit freshConfig [] < 2 ^ 32
    decide

/-- The message in flight is abandoned. -/
theorem release_oneMessage :
    ∃ s', (oneMessage datagramSent 1400 0).release freshConfig false (.sent 0) = some s' ∧
      Abandons freshConfig (oneMessage datagramSent 1400 0) s' 0 := by
  have hiff := release_abandons_iff freshConfig false (oneMessage_consistent datagramSent 1400 0)
    (.sent 0) rfl rfl
  apply hiff.2
  refine ⟨0, rfl, ?_, ?_, ?_, ?_, ?_, ?_, ?_⟩
  · exact fun x _ => .inl rfl
  · intro x hx _
    obtain rfl := List.mem_singleton.1 hx
    decide
  · exact fun x hx => absurd hx List.not_mem_nil
  · exact fun x hx => absurd hx List.not_mem_nil
  · exact fun _ d _ => rfl
  · exact fun d hd => absurd hd List.not_mem_nil
  · intro stream i sp hsp
    cases hsp

/-- The message waits to be resent: the window is credited again, and the count of chunks to be resent
stays. -/
theorem release_resent_not_abandons :
    ¬∃ s', (oneMessage datagramResend 0 1).release freshConfig false (.sent 0) = some s' ∧
      Abandons freshConfig (oneMessage datagramResend 0 1) s' 0 := by
  rintro ⟨s', hrelease, ha⟩
  have hcount : ((oneMessage datagramResend 0 1).release freshConfig false (.sent 0)).map
      (fun s => s.sender.sentQueueRetranCnt) = some 1 := by
    decide +kernel
  rw [hrelease, Option.map_some, ha.retranCnt] at hcount
  exact absurd (Option.some.inj hcount) (by decide)

end PrQueues

end Sctp
