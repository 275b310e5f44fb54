import Sctp.Output.FillOutqueue
import Sctp.Output.Fragment

/-! What the send queue holds when whole messages are written and nothing fails: the fragments of one message
after those of another, the messages of each stream in the order in which they were written. -/
namespace Sctp
open Bitmap Serial

/-- No allocation and no copy fails, the sizes fit into 16 bits, and no fragment is longer than `point`; the
peer has no I-DATA. -/
structure FillCall.Succeeds (point : ℕ) (fc : FillCall) : Prop where
  plain : fc.cfg.peerSupportsNdata = false
  chunk : ∀ n, fc.chunkAllocFails n = false
  copy : ∀ n, fc.copyFails n = false
  mbuf : ∀ n, fc.mbufAllocFails n = false
  fragPoint : fc.fragPoint ≠ 0
  size : fc.fragPoint + dataChunkSize < 2 ^ 16
  point : fc.fragPoint ≤ point

namespace FillEvent

def Whole (point : ℕ) : FillEvent → Prop
  | .sender (.enqueue _ sp) =>
    sp.msgIsComplete = true ∧ 0 < sp.data.flatten.length ∧ sp.discardRest = false
  | .sender (.allDone _ _) => True
  | .sender _ => False
  | .fill fc => fc.Succeeds point

def writes : FillEvent → List StreamQueuePending
  | .sender (.enqueue i sp) => [{ sp with stream := i }]
  | _ => []

end FillEvent

def written (evs : List FillEvent) : List StreamQueuePending := evs.flatMap FillEvent.writes

def onStream (i : StreamNo) (ms : List StreamQueuePending) : List StreamQueuePending :=
  ms.filter (·.stream == i)

/-- The chunks are the fragments of messages with their sequence numbers, one message after the other. -/
def Blocks : List (StreamQueuePending × Ssn) → List TmitChunk → Prop
  | [], cs => cs = []
  | (m, ssn) :: out, cs => ∃ cs₁ cs₂, cs = cs₁ ++ cs₂ ∧ cs₁ ≠ [] ∧ Fragments m ssn cs₁ [] ∧ Blocks out cs₂

/-- Each message has the number that the ones before it leave for its stream. -/
def Numbered (out : List (StreamQueuePending × Ssn)) : Prop :=
  ∀ k m ssn, out[k]? = some (m, ssn) →
    ssn = ssnAfter 0 (onStream m.stream ((out.take k).map Prod.fst))

/-- A stream to which the messages `ms` were written. Those of `out` are gone, and of the next one the chunks
`cs`. -/
structure StreamOrder (i : StreamNo) (ms : List StreamQueuePending) (strq : StreamOut)
    (out : List (StreamQueuePending × Ssn)) (cs : List TmitChunk) : Prop where
  streamNo : strq.streamNo = i
  streams : ∀ m ∈ ms, m.stream = i
  next : strq.nextSequenceSend = ssnAfter 0 (onStream i (out.map Prod.fst))
  split : ∃ rest spent sps, ms = onStream i (out.map Prod.fst) ++ rest ∧
    strq.outqueue = spent ++ sps ∧ (∀ sp ∈ spent, sp.length = 0) ∧
    PendingQueue (ssnAfter 0 (onStream i (out.map Prod.fst))) rest sps cs ∧ (cs ≠ [] → spent = [])

/-- The association behind a run. The messages of `out` are on the send queue with all their fragments, and
behind them a message of stream `i₀` with the fragments `cs`. -/
structure SendOrder (point : ℕ) (init : Tsn) (ms : List StreamQueuePending) (a : OutAssoc)
    (i₀ : StreamNo) (out : List (StreamQueuePending × Ssn)) (cs : List TmitChunk) : Prop where
  sendingSeq : a.sendingSeq = advance init a.sendQueue.length
  tsn : ∀ k c, a.sendQueue[k]? = some c → c.tsn = advance init k
  chunkLength : ∀ c ∈ a.sendQueue, c.chunkLength = c.payload.length + dataChunkSize
  payload : ∀ c ∈ a.sendQueue, 0 < c.payload.length ∧ c.payload.length ≤ point
  blocks : ∃ q, a.sendQueue = q ++ cs ∧ Blocks out q
  numbered : Numbered out
  stream : ∀ i, StreamOrder i (onStream i ms) (a.strmout i) out (if i = i₀ then cs else [])

theorem Blocks.concat {out : List (StreamQueuePending × Ssn)} {q cs : List TmitChunk}
    {m : StreamQueuePending} {ssn : Ssn} (h : Blocks out q) (hcs : cs ≠ []) (hm : Fragments m ssn cs []) :
    Blocks (out ++ [(m, ssn)]) (q ++ cs) := by
  induction out generalizing q with
  | nil =>
    obtain rfl : q = [] := h
    exact ⟨cs, [], (List.append_nil cs).symm, hcs, hm, rfl⟩
  | cons x out ih =>
    obtain ⟨cs₁, cs₂, rfl, hne, hx, hout⟩ := h
    exact ⟨cs₁, cs₂ ++ cs, List.append_assoc cs₁ cs₂ cs, hne, hx, ih hout⟩

theorem Numbered.concat {out : List (StreamQueuePending × Ssn)} (h : Numbered out)
    (m : StreamQueuePending) :
    Numbered (out ++ [(m, ssnAfter 0 (onStream m.stream (out.map Prod.fst)))]) := by
  intro k m' ssn hk
  obtain ⟨hlt, hk⟩ | ⟨rfl, heq⟩ := getElem?_concat hk
  · rw [List.take_append_of_le_length hlt.le]
    exact h k m' ssn hk
  · obtain ⟨rfl, rfl⟩ := Prod.mk.inj heq
    rw [List.take_append_of_le_length le_rfl, List.take_length]

theorem onStream_append (i : StreamNo) (ms ms' : List StreamQueuePending) :
    onStream i (ms ++ ms') = onStream i ms ++ onStream i ms' :=
  List.filter_append ms ms'

theorem onStream_singleton (i : StreamNo) (m : StreamQueuePending) :
    onStream i [m] = if m.stream = i then [m] else [] := by
  unfold onStream
  rw [List.filter_singleton]
  simp

theorem ssnAfter_concat (ssn : Ssn) (ms : List StreamQueuePending) (m : StreamQueuePending) :
    ssnAfter ssn (ms ++ [m]) = if m.unordered then ssnAfter ssn ms else ssnAfter ssn ms + 1 := by
  simp [ssnAfter]

section

variable {cfg : OutConfig} {call : MoveCall} {a : OutAssoc} {i : StreamNo} {ssn : Ssn}
  {m sp : StreamQueuePending} {cs : List TmitChunk}

/-- A fragment behind which there is more of the message. -/
theorem Pending.middle (h : Pending ssn m sp cs) (hno : (a.strmout i).streamNo = i)
    (hseq : (a.strmout i).nextSequenceSend = ssn) (hstream : m.stream = i)
    (hlt : call.fragPoint < sp.length) (hfp : call.fragPoint ≠ 0) {sp' : StreamQueuePending}
    (hdata : sp'.data = Chain.compact (Chain.trim call.fragPoint sp.data))
    (hlen : sp'.length = sp.length - call.fragPoint) (htaken : sp'.someTaken = true)
    (hsame : sp'.msgIsComplete = sp.msgIsComplete ∧ sp'.discardRest = sp.discardRest ∧
      sp'.stream = sp.stream ∧ sp'.unordered = sp.unordered ∧ sp'.ppid = sp.ppid) :
    Pending ssn m sp' (cs ++ [makeChunk cfg call a (a.strmout i) { sp with someTaken := true }
      (cutFlags cfg sp false) (Chain.copy call.fragPoint sp.data) call.fragPoint]) := by
  have hall := h.length_eq
  have hpay : (makeChunk cfg call a (a.strmout i) { sp with someTaken := true }
      (cutFlags cfg sp false) (Chain.copy call.fragPoint sp.data) call.fragPoint).payload =
      sp.data.flatten.take call.fragPoint := by
    simp [TmitChunk.payload, makeChunk]
  obtain ⟨hcomplete, hkeep, hs, hu, hppid⟩ := hsame
  constructor
  · rw [hdata, Chain.flatten_compact, Chain.flatten_trim]
    have hfrags := h.frags
    rw [← List.take_append_drop call.fragPoint sp.data.flatten, ← hpay] at hfrags
    refine hfrags.concat ?_ ?_ ?_ ?_
    · rw [hpay]
      intro hnil
      have := congrArg List.length hnil
      rw [List.length_take, List.length_nil] at this
      omega
    · exact ⟨h.stream, hno.trans hstream.symm, hseq, h.unordered, h.ppid⟩
    · change (!sp.someTaken) = true ↔ cs = []
      rw [Bool.not_eq_true', ← Bool.not_eq_true, h.taken, not_not]
    · have hmore : sp.data.flatten.drop call.fragPoint ≠ [] := by
        rw [Ne, List.drop_eq_nil_iff]
        omega
      exact iff_of_false Bool.false_ne_true hmore
  · rw [hdata, Chain.flatten_compact, Chain.flatten_trim, List.length_drop, hlen]
    omega
  · rw [hlen]
    omega
  · exact hcomplete.trans h.complete
  · rw [htaken]
    simp
  · exact hkeep.trans h.keep
  · exact hs.trans h.stream
  · exact hu.trans h.unordered
  · exact hppid.trans h.ppid

/-- The last fragment. -/
theorem Pending.last (cfg : OutConfig) (call : MoveCall) (h : Pending ssn m sp cs)
    (hno : (a.strmout i).streamNo = i)
    (hseq : (a.strmout i).nextSequenceSend = ssn) (hstream : m.stream = i) :
    Fragments m ssn (cs ++ [makeChunk cfg call a (a.strmout i) { sp with putLastOut := true }
      (cutFlags cfg sp true) sp.data sp.length]) [] := by
  have hall := h.length_eq
  have hpos := h.pos
  have hfrags := h.frags
  rw [← List.append_nil sp.data.flatten] at hfrags
  refine Fragments.concat hfrags ?_ ?_ ?_ ?_
  · intro hnil
    change sp.data.flatten = [] at hnil
    rw [hnil, List.length_nil] at hall
    omega
  · exact ⟨h.stream, hno.trans hstream.symm, hseq, h.unordered, h.ppid⟩
  · change (!sp.someTaken) = true ↔ cs = []
    rw [Bool.not_eq_true', ← Bool.not_eq_true, h.taken, not_not]
  · exact iff_of_true rfl rfl

end

section

variable {point : ℕ} {init : Tsn} {ms : List StreamQueuePending} {a : OutAssoc} {i i₀ : StreamNo}
  {out : List (StreamQueuePending × Ssn)} {cs : List TmitChunk}

theorem StreamOrder.reap {strq : StreamOut} (h : StreamOrder i ms strq out cs) :
    StreamOrder i ms { strq with outqueue := strq.outqueue.dropWhile StreamQueuePending.finished }
      out cs := by
  obtain ⟨hno, hstreams, hnext, rest, spent, sps, hms, hq, hspent, hpend, hopen⟩ := h
  refine ⟨hno, hstreams, hnext, rest, spent.dropWhile StreamQueuePending.finished, sps, hms, ?_,
    fun sp hsp => hspent sp (List.dropWhile_subset _ hsp), hpend, fun hcs => ?_⟩
  · dsimp only
    rw [hq, List.dropWhile_append, hpend.dropWhile_finished]
    split
    · rename_i hnil
      rw [List.isEmpty_iff.1 hnil, List.nil_append]
    · rfl
  · rw [hopen hcs]
    rfl

theorem SendOrder.reap (h : SendOrder point init ms a i₀ out cs) (i : StreamNo) :
    SendOrder point init ms (reapFinished a i) i₀ out cs := by
  refine ⟨?_, ?_, ?_, ?_, ?_, h.numbered, fun j => ?_⟩
  · rw [reapFinished_sendingSeq, reapFinished_sendQueue]
    exact h.sendingSeq
  · rw [reapFinished_sendQueue]
    exact h.tsn
  · rw [reapFinished_sendQueue]
    exact h.chunkLength
  · rw [reapFinished_sendQueue]
    exact h.payload
  · rw [reapFinished_sendQueue]
    exact h.blocks
  · rw [reapFinished_strmout]
    split
    · rename_i hj
      subst hj
      exact (h.stream j).reap
    · exact h.stream j

/-- Of which stream there is an open message does not matter when there is none. -/
theorem SendOrder.at (h : SendOrder point init ms a i₀ out cs) (hopen : cs ≠ [] → i = i₀) :
    SendOrder point init ms a i out cs := by
  refine ⟨h.sendingSeq, h.tsn, h.chunkLength, h.payload, h.blocks, h.numbered, fun j => ?_⟩
  by_cases hcs : cs = []
  · have hj := h.stream j
    subst hcs
    simpa using hj
  · rw [hopen hcs]
    exact h.stream j

/-- A chunk goes to the send queue from the message at the head of a stream. -/
theorem SendOrder.put (h : SendOrder point init ms a i out cs) (cfg : OutConfig)
    {sp : StreamQueuePending} {c : TmitChunk} {n : ℕ} {out' : List (StreamQueuePending × Ssn)}
    {cs' : List TmitChunk} (htsn : c.tsn = a.sendingSeq)
    (hlen : c.chunkLength = c.payload.length + dataChunkSize)
    (hpay : 0 < c.payload.length ∧ c.payload.length ≤ point)
    (hblocks : ∃ q, a.sendQueue ++ [c] = q ++ cs' ∧ Blocks out' q) (hnumbered : Numbered out')
    (hstream : StreamOrder i (onStream i ms) ((putChunk cfg a i sp c n).assoc.strmout i) out' cs')
    (hother : ∀ j ≠ i, onStream j (out'.map Prod.fst) = onStream j (out.map Prod.fst)) :
    SendOrder point init ms (putChunk cfg a i sp c n).assoc i out' cs' := by
  refine ⟨?_, fun k d hd => ?_, fun d hd => ?_, fun d hd => ?_, hblocks, hnumbered, fun j => ?_⟩
  · rw [putChunk_sendingSeq, putChunk_sendQueue, h.sendingSeq, List.length_append,
      List.length_singleton, ← advance_add]
    rfl
  · rw [putChunk_sendQueue] at hd
    obtain ⟨-, hd⟩ | ⟨rfl, rfl⟩ := getElem?_concat hd
    · exact h.tsn k d hd
    · rw [htsn, h.sendingSeq]
  · rw [putChunk_sendQueue] at hd
    obtain hd | hd := List.mem_append.1 hd
    · exact h.chunkLength d hd
    · rw [List.mem_singleton.1 hd]
      exact hlen
  · rw [putChunk_sendQueue] at hd
    obtain hd | hd := List.mem_append.1 hd
    · exact h.payload d hd
    · rw [List.mem_singleton.1 hd]
      exact hpay
  · by_cases hj : j = i
    · subst hj
      rw [if_pos rfl]
      exact hstream
    · rw [if_neg hj, putChunk_strmout cfg a i sp c n hj]
      have hold := h.stream j
      rw [if_neg hj] at hold
      obtain ⟨hno, hstreams, hnext, hsplit⟩ := hold
      rw [← hother j hj] at hnext hsplit
      exact ⟨hno, hstreams, hnext, hsplit⟩

/-- The size in the header of a chunk. -/
theorem makeChunk_chunkLength {cfg : OutConfig} (hnd : cfg.peerSupportsNdata = false) {call : MoveCall}
    (hsize : call.fragPoint + dataChunkSize < 2 ^ 16) (strq : StreamOut) (sp : StreamQueuePending)
    (flags : RcvFlags) {data : List (List Byte)} {n : ℕ} (hdata : data.flatten.length = n)
    (hn : n ≤ call.fragPoint) : (makeChunk cfg call a strq sp flags data n).chunkLength =
      (makeChunk cfg call a strq sp flags data n).payload.length + dataChunkSize := by
  change (n + cfg.headerSize) % 2 ^ 16 = data.flatten.length + dataChunkSize
  rw [OutConfig.headerSize, hnd, hdata, if_neg Bool.false_ne_true]
  exact Nat.mod_eq_of_lt (by omega)

/-- The message at the head of the stream has its last chunk. -/
theorem SendOrder.cutLast (h : SendOrder point init ms a i out cs) {cfg : OutConfig}
    (hnd : cfg.peerSupportsNdata = false) {call : MoveCall}
    (hsize : call.fragPoint + dataChunkSize < 2 ^ 16) (hpoint : call.fragPoint ≤ point)
    {m sp : StreamQueuePending} {rest sps : List StreamQueuePending} (hq : (a.strmout i).outqueue = sp :: sps)
    (hms : onStream i ms = onStream i (out.map Prod.fst) ++ m :: rest) (hm : m.stream = i)
    (hp : Pending (ssnAfter 0 (onStream i (out.map Prod.fst))) m sp cs)
    (hrest : List.Forall₂ Untaken rest sps) (hfit : sp.length ≤ call.fragPoint) :
    SendOrder point init ms (putChunk cfg a i { sp with putLastOut := true, data := [], length := 0 }
      (makeChunk cfg call a (a.strmout i) { sp with putLastOut := true } (cutFlags cfg sp true) sp.data
        sp.length) sp.length).assoc i
      (out ++ [(m, ssnAfter 0 (onStream m.stream (out.map Prod.fst)))]) [] := by
  have hi := h.stream i
  rw [if_pos rfl] at hi
  obtain ⟨q, hsend, hblocks⟩ := h.blocks
  have hlast := hp.last cfg call hi.streamNo hi.next hm
  have hlen := makeChunk_chunkLength (a := a) hnd hsize (a.strmout i) { sp with putLastOut := true }
    (cutFlags cfg sp true) hp.length_eq.symm hfit
  have hpay : 0 < sp.data.flatten.length ∧ sp.data.flatten.length ≤ point := by
    rw [← hp.length_eq]
    exact ⟨hp.pos, hfit.trans hpoint⟩
  have hsame : (makeChunk cfg call a (a.strmout i) { sp with putLastOut := true } (cutFlags cfg sp true)
      sp.data sp.length).payload = sp.data.flatten := rfl
  rw [← hsame] at hpay
  have hordered : (makeChunk cfg call a (a.strmout i) { sp with putLastOut := true } (cutFlags cfg sp true)
      sp.data sp.length).rcvFlags = cutFlags cfg sp true := rfl
  have htsn : (makeChunk cfg call a (a.strmout i) { sp with putLastOut := true } (cutFlags cfg sp true)
      sp.data sp.length).tsn = a.sendingSeq := rfl
  generalize makeChunk cfg call a (a.strmout i) { sp with putLastOut := true } (cutFlags cfg sp true)
    sp.data sp.length = c at hlast hlen hpay hordered htsn ⊢
  have hout : onStream i ((out ++ [(m, ssnAfter 0 (onStream m.stream (out.map Prod.fst)))]).map
      Prod.fst) = onStream i (out.map Prod.fst) ++ [m] := by
    rw [List.map_append, onStream_append, List.map_singleton, onStream_singleton, if_pos hm]
  refine h.put cfg htsn hlen hpay ⟨q ++ (cs ++ [c]), ?_, hblocks.concat (by simp) ?_⟩ (h.numbered.concat m)
    ?_ fun j hj => ?_
  · rw [hsend, List.append_nil, List.append_assoc]
  · rw [hm]
    exact hlast
  · have hqueue := putChunk_outqueue cfg a i { sp with putLastOut := true, data := [], length := 0 } c
      sp.length
    rw [hq, List.tail_cons] at hqueue
    -- the emptied message stays in front until the user thread lets go of it
    refine ⟨?_, hi.streams, ?_, rest, ((putChunk cfg a i
      { sp with putLastOut := true, data := [], length := 0 } c sp.length).assoc.strmout i).outqueue.take
        (((putChunk cfg a i { sp with putLastOut := true, data := [], length := 0 } c
          sp.length).assoc.strmout i).outqueue.length - sps.length), sps, ?_, ?_, ?_, ?_,
      fun hcs => absurd rfl hcs⟩
    · rw [putChunk_streamNo, hi.streamNo]
    · rw [putChunk_nextSequenceSend, hout, ssnAfter_concat, hordered, hi.next]
      change (if (true && !sp.unordered) = true then _ else _) = _
      rw [hp.unordered]
      cases m.unordered <;> rfl
    · rw [hout, hms, List.append_assoc, List.singleton_append]
    · rw [hqueue]
      split <;> simp
    · rw [hqueue]
      split <;> simp
    · exact pendingQueue_of_untaken hrest _
  · rw [List.map_append, onStream_append, List.map_singleton, onStream_singleton,
      if_neg fun heq => hj (heq.symm.trans hm), List.append_nil]

/-- There is more of the message at the head of the stream. -/
theorem SendOrder.cutMiddle (h : SendOrder point init ms a i out cs) {cfg : OutConfig}
    (hnd : cfg.peerSupportsNdata = false) {call : MoveCall} (hfp : call.fragPoint ≠ 0)
    (hsize : call.fragPoint + dataChunkSize < 2 ^ 16) (hpoint : call.fragPoint ≤ point)
    {m sp : StreamQueuePending} {rest sps : List StreamQueuePending} (hq : (a.strmout i).outqueue = sp :: sps)
    (hms : onStream i ms = onStream i (out.map Prod.fst) ++ m :: rest) (hm : m.stream = i)
    (hp : Pending (ssnAfter 0 (onStream i (out.map Prod.fst))) m sp cs)
    (hrest : List.Forall₂ Untaken rest sps) (hlong : call.fragPoint < sp.length) :
    SendOrder point init ms (putChunk cfg a i
        { sp with
          someTaken := true
          data := Chain.compact (Chain.trim call.fragPoint sp.data)
          length := sp.length - call.fragPoint }
        (makeChunk cfg call a (a.strmout i) { sp with someTaken := true } (cutFlags cfg sp false)
          (Chain.copy call.fragPoint sp.data) call.fragPoint) call.fragPoint).assoc i out
      (cs ++ [makeChunk cfg call a (a.strmout i) { sp with someTaken := true } (cutFlags cfg sp false)
        (Chain.copy call.fragPoint sp.data) call.fragPoint]) := by
  have hi := h.stream i
  rw [if_pos rfl] at hi
  obtain ⟨q, hsend, hblocks⟩ := h.blocks
  have hdata : (Chain.copy call.fragPoint sp.data).flatten.length = call.fragPoint := by
    have hall := hp.length_eq
    rw [Chain.flatten_copy, List.length_take]
    omega
  have hlen := makeChunk_chunkLength (a := a) hnd hsize (a.strmout i) { sp with someTaken := true }
    (cutFlags cfg sp false) hdata le_rfl
  have hpay : 0 < (Chain.copy call.fragPoint sp.data).flatten.length ∧
      (Chain.copy call.fragPoint sp.data).flatten.length ≤ point := by
    rw [hdata]
    exact ⟨Nat.pos_of_ne_zero hfp, hpoint⟩
  refine h.put cfg rfl hlen hpay ⟨q, ?_, hblocks⟩ h.numbered ?_ fun j hj => rfl
  · rw [hsend, List.append_assoc]
  · refine ⟨?_, hi.streams, ?_, m :: rest, [], { sp with
        someTaken := true
        data := Chain.compact (Chain.trim call.fragPoint sp.data)
        length := sp.length - call.fragPoint
        fsn := if cfg.peerSupportsNdata then sp.fsn + 1 else sp.fsn } :: sps, hms, ?_,
      fun sp hsp => absurd hsp List.not_mem_nil,
      ⟨hp.middle hi.streamNo hi.next hm hlong hfp rfl rfl rfl ⟨rfl, rfl, rfl, rfl, rfl⟩, hrest⟩,
      fun _ => rfl⟩
    · rw [putChunk_streamNo, hi.streamNo]
    · rw [putChunk_nextSequenceSend, hi.next]
      rfl
    · rw [putChunk_outqueue, hq, if_neg]
      · rfl
      · simp only [StreamQueuePending.finished, Bool.and_eq_true, beq_iff_eq]
        omega

/-- What becomes of the open message: it stays open and keeps the lock, or it is gone. -/
theorem SendOrder.moveFirst (h : SendOrder point init ms a i out cs) {cfg : OutConfig}
    (hnd : cfg.peerSupportsNdata = false) {call : MoveCall} (hc : call.Succeeds)
    (hfp : call.fragPoint ≠ 0) (hsize : call.fragPoint + dataChunkSize < 2 ^ 16)
    (hpoint : call.fragPoint ≤ point) :
    ∃ out' cs', SendOrder point init ms (moveFirst cfg call a i).assoc i out' cs' ∧
      (cs' ≠ [] → (Sctp.moveFirst cfg call a i).locked = true) := by
  have hi := h.stream i
  rw [if_pos rfl] at hi
  obtain ⟨hno, hstreams, hnext, rest, spent, sps, hms, hq, hspent, hpend, hopen⟩ := hi
  cases spent with
  | cons z spent =>
    have hz := hspent z List.mem_cons_self
    rw [List.cons_append] at hq
    have hsame : Sctp.moveFirst cfg call a i = .giveUp a (!cfg.peerSupportsNdata) := by
      unfold Sctp.moveFirst
      simp only [hq, hz, if_true]
    rw [hsame]
    exact ⟨out, cs, h, fun hcs => absurd (hopen hcs) (List.cons_ne_nil z spent)⟩
  | nil =>
    rw [List.nil_append] at hq
    cases sps with
    | nil =>
      have hcs : cs = [] := by
        cases rest with
        | nil => exact hpend
        | cons m rest => exact hpend.elim
      refine ⟨out, cs, ?_, fun h => absurd hcs h⟩
      have hsame : (Sctp.moveFirst cfg call a i).assoc = a.setStream i { a.strmout i with
          lastMsgIncomplete := (a.strmout i).lastMsgIncomplete &&
            (cfg.explicitEor || cfg.peerSupportsNdata) } := by
        unfold Sctp.moveFirst
        simp only [hq]
      rw [hsame]
      refine ⟨h.sendingSeq, h.tsn, h.chunkLength, h.payload, h.blocks, h.numbered, fun j => ?_⟩
      rw [setStream_strmout]
      have hj := h.stream j
      split
      · rename_i hji
        subst hji
        rw [if_pos rfl] at hj
        exact ⟨hj.streamNo, hj.streams, hj.next, hj.split⟩
      · rename_i hji
        rw [if_neg hji] at hj
        exact hj
    | cons sp sps =>
      cases rest with
      | nil => exact hpend.elim
      | cons m rest =>
        obtain ⟨hp, hrest⟩ := hpend
        have hpos := hp.pos
        have hm : m.stream = i := hstreams m (by rw [hms]; simp)
        have hmove : Sctp.moveFirst cfg call a i = moveHead cfg call a i sp := by
          unfold Sctp.moveFirst
          simp only [hq]
          rw [if_neg (by omega), hp.keep, if_neg (by decide), closeIf_of_complete hp.complete]
        rw [hmove, moveHead_complete cfg a i hc hp.complete, if_neg hfp]
        split
        · rename_i hfit
          exact ⟨_, [], h.cutLast hnd hsize hpoint hq hms hm hp hrest hfit, fun hcs => absurd rfl hcs⟩
        · rename_i hlong
          refine ⟨out, _, h.cutMiddle hnd hfp hsize hpoint hq hms hm hp hrest (not_le.1 hlong), fun _ => ?_⟩
          simp only [putChunk, hnd, StreamQueuePending.finished]
          have hmore : (sp.length - call.fragPoint == 0) = false := by
            rw [beq_eq_false_iff_ne]
            omega
          simp [hmore]

theorem SendOrder.move (h : SendOrder point init ms a i out cs) {cfg : OutConfig}
    (hnd : cfg.peerSupportsNdata = false) {call : MoveCall} (hc : call.Succeeds)
    (hfp : call.fragPoint ≠ 0) (hsize : call.fragPoint + dataChunkSize < 2 ^ 16)
    (hpoint : call.fragPoint ≤ point) :
    ∃ out' cs', SendOrder point init ms (moveToOutqueue cfg call a i).assoc i out' cs' ∧
      (cs' ≠ [] → (moveToOutqueue cfg call a i).locked = true) :=
  (h.reap i).moveFirst hnd hc hfp hsize hpoint

theorem SendOrder.setLocked (h : SendOrder point init ms a i out cs) (l : Option StreamNo) :
    SendOrder point init ms { a with lockedOnSending := l } i out cs :=
  ⟨h.sendingSeq, h.tsn, h.chunkLength, h.payload, h.blocks, h.numbered, h.stream⟩

end

/-- Behind each step: the open message, if there is one, has the lock. -/
def InSendOrder (point : ℕ) (init : Tsn) (ms : List StreamQueuePending) (a : OutAssoc) : Prop :=
  ∃ i out cs, SendOrder point init ms a i out cs ∧ (cs ≠ [] → a.lockedOnSending = some i)

section

variable {point : ℕ} {init : Tsn} {ms : List StreamQueuePending} {a : OutAssoc} {i : StreamNo}

theorem moveCall_succeeds_of {fc : FillCall} (h : fc.Succeeds point) (n : ℕ) (goal : ℤ) :
    (fc.moveCall n goal).Succeeds :=
  ⟨h.chunk n, h.copy n, h.mbuf n⟩

theorem SendOrder.fillLoop {fc : FillCall} (hfc : fc.Succeeds point) {fuel n : ℕ} {goal : ℤ}
    {out : List (StreamQueuePending × Ssn)} {cs : List TmitChunk} (h : SendOrder point init ms a i out cs)
    (hlock : cs ≠ [] → a.lockedOnSending = some i) :
    InSendOrder point init ms (fillLoop fc fuel n goal i a).assoc := by
  induction fuel generalizing n goal i a out cs with
  | zero => exact ⟨i, out, cs, h, hlock⟩
  | succ fuel ih =>
    obtain ⟨out', cs', hmoved, hlocked⟩ :=
      h.move hfc.plain (moveCall_succeeds_of hfc n goal) hfc.fragPoint hfc.size hfc.point
    unfold Sctp.fillLoop
    split
    · exact ⟨i, out, cs, h, hlock⟩
    · dsimp only
      split
      · have hkept := hmoved.setLocked (some i)
        split
        · exact ⟨i, out', cs', hkept, fun _ => rfl⟩
        · exact ih hkept fun _ => rfl
      · rename_i hfree
        have hnone : cs' = [] := by
          by_contra hcs
          exact hfree (hlocked hcs)
        subst hnone
        have hkept := hmoved.setLocked none
        split
        · exact ⟨i, out', [], hkept, fun hcs => absurd rfl hcs⟩
        · split
          · exact ⟨i, out', [], hkept, fun hcs => absurd rfl hcs⟩
          · exact ih (hkept.at fun hcs => absurd rfl hcs) fun hcs => absurd rfl hcs

theorem InSendOrder.fillOutqueue {fc : FillCall} (hfc : fc.Succeeds point) (h : InSendOrder point init ms a) :
    InSendOrder point init ms (fillOutqueue fc a).assoc := by
  obtain ⟨i, out, cs, h, hlock⟩ := h
  unfold Sctp.fillOutqueue
  dsimp only
  split
  · exact ⟨i, out, cs, h, hlock⟩
  · rename_i j hj
    have hopen : cs ≠ [] → j = i := by
      intro hcs
      rw [hlock hcs] at hj
      exact (Option.some.inj hj).symm
    exact (h.at hopen).fillLoop hfc fun hcs => hopen hcs ▸ hlock hcs

/-- Nothing waits, or the message in front and the untouched ones behind it. -/
theorem PendingQueue.cases {ssn : Ssn} {rest sps : List StreamQueuePending} {cs : List TmitChunk}
    (h : PendingQueue ssn rest sps cs) : (rest = [] ∧ sps = [] ∧ cs = []) ∨
      ∃ m rest' sp sps', rest = m :: rest' ∧ sps = sp :: sps' ∧ Pending ssn m sp cs ∧
        List.Forall₂ Untaken rest' sps' := by
  cases rest with
  | nil =>
    cases sps with
    | nil => exact .inl ⟨rfl, rfl, h⟩
    | cons sp sps => exact h.elim
  | cons m rest =>
    cases sps with
    | nil => exact h.elim
    | cons sp sps => exact .inr ⟨m, rest, sp, sps, rfl, rfl, h.1, h.2⟩

theorem PendingQueue.concat {ssn : Ssn} {rest sps : List StreamQueuePending} {cs : List TmitChunk}
    (h : PendingQueue ssn rest sps cs) {m sp : StreamQueuePending} (hsp : Untaken m sp) :
    PendingQueue ssn (rest ++ [m]) (sps ++ [sp]) cs := by
  obtain ⟨rfl, rfl, rfl⟩ | ⟨m', rest, sp', sps, rfl, rfl, hp, hrest⟩ := h.cases
  · exact ⟨hsp ssn, .nil⟩
  · exact ⟨hp, List.rel_append hrest (.cons hsp .nil)⟩

/-- A new message behind the others of its stream. -/
theorem InSendOrder.enqueue {sp : StreamQueuePending} {s : FillState} (h : InSendOrder point init ms s.assoc)
    (hsp : FillEvent.Whole point (.sender (.enqueue i sp))) :
    InSendOrder point init (ms ++ [{ sp with stream := i }])
      (SenderEvent.apply s (.enqueue i sp)).assoc := by
  obtain ⟨hcomplete, hpos, hkeep⟩ := hsp
  obtain ⟨i₀, out, cs, h, hlock⟩ := h
  refine ⟨i₀, out, cs, ⟨h.sendingSeq, h.tsn, h.chunkLength, h.payload, h.blocks, h.numbered, fun j => ?_⟩,
    hlock⟩
  obtain ⟨hno, hstreams, hnext, rest, spent, sps, hms, hq, hspent, hpend, hopen⟩ := h.stream j
  unfold SenderEvent.apply
  rw [onStream_append, onStream_singleton, setStream_strmout]
  by_cases hj : j = i
  · subst hj
    rw [if_pos rfl, if_pos rfl]
    refine ⟨hno, fun m hm => ?_, hnext, rest ++ [{ sp with stream := j }], spent, sps ++ [{ sp with
        id := s.nextId
        length := sp.data.flatten.length
        stream := j
        someTaken := false
        putLastOut := false }], ?_, ?_, hspent, hpend.concat fun ssn => ?_, hopen⟩
    · obtain hm | hm := List.mem_append.1 hm
      · exact hstreams m hm
      · rw [List.mem_singleton.1 hm]
    · rw [hms, List.append_assoc]
    · dsimp only
      rw [hq, List.append_assoc]
    · refine ⟨Fragments.nil _ ssn, rfl, hpos, hcomplete, ?_, hkeep, rfl, rfl, rfl⟩
      exact iff_of_false Bool.false_ne_true fun h => h rfl
  · rw [if_neg (Ne.symm hj), if_neg hj, List.append_nil]
    exact ⟨hno, hstreams, hnext, rest, spent, sps, hms, hq, hspent, hpend, hopen⟩

theorem Pending.allDone {ssn : Ssn} {m sp : StreamQueuePending} {cs : List TmitChunk}
    (h : Pending ssn m sp cs) (id : ℕ) :
    Pending ssn m (if sp.id = id then { sp with senderAllDone := true } else sp) cs := by
  split
  · exact ⟨h.frags, h.length_eq, h.pos, h.complete, h.taken, h.keep, h.stream, h.unordered, h.ppid⟩
  · exact h

theorem PendingQueue.allDone {ssn : Ssn} {rest sps : List StreamQueuePending} {cs : List TmitChunk}
    (h : PendingQueue ssn rest sps cs) (id : ℕ) : PendingQueue ssn rest
      (sps.map fun sp => if sp.id = id then { sp with senderAllDone := true } else sp) cs := by
  obtain ⟨rfl, rfl, rfl⟩ | ⟨m, rest, sp, sps, rfl, rfl, hp, hrest⟩ := h.cases
  · exact h
  · refine ⟨hp.allDone id, ?_⟩
    rw [List.forall₂_map_right_iff]
    exact hrest.imp fun m sp hu ssn => (hu ssn).allDone id

/-- The user thread lets go of a message. -/
theorem InSendOrder.allDone {s : FillState} (h : InSendOrder point init ms s.assoc) (id : ℕ) :
    InSendOrder point init ms (SenderEvent.apply s (.allDone i id)).assoc := by
  obtain ⟨i₀, out, cs, h, hlock⟩ := h
  refine ⟨i₀, out, cs, ⟨h.sendingSeq, h.tsn, h.chunkLength, h.payload, h.blocks, h.numbered, fun j => ?_⟩,
    hlock⟩
  obtain ⟨hno, hstreams, hnext, rest, spent, sps, hms, hq, hspent, hpend, hopen⟩ := h.stream j
  unfold SenderEvent.apply OutAssoc.modifyMessage
  rw [setStream_strmout]
  by_cases hj : j = i
  · subst hj
    rw [if_pos rfl]
    refine ⟨hno, hstreams, hnext, rest,
      spent.map fun sp => if sp.id = id then { sp with senderAllDone := true } else sp,
      sps.map fun sp => if sp.id = id then { sp with senderAllDone := true } else sp, hms, ?_,
      fun sp hsp => ?_, hpend.allDone id, fun hcs => ?_⟩
    · dsimp only
      rw [hq, List.map_append]
    · obtain ⟨z, hz, rfl⟩ := List.mem_map.1 hsp
      split
      · exact hspent z hz
      · exact hspent z hz
    · rw [hopen hcs]
      rfl
  · rw [if_neg hj]
    exact ⟨hno, hstreams, hnext, rest, spent, sps, hms, hq, hspent, hpend, hopen⟩

theorem FillEvent.apply_inSendOrder {s : FillState} {ev : FillEvent} (h : InSendOrder point init ms s.assoc)
    (hev : ev.Whole point) : InSendOrder point init (ms ++ ev.writes) (ev.apply s).assoc := by
  cases ev with
  | fill fc =>
    change InSendOrder point init (ms ++ []) _
    rw [List.append_nil]
    exact h.fillOutqueue hev
  | sender ev =>
    cases ev with
    | enqueue i sp => exact h.enqueue hev
    | allDone i n =>
      change InSendOrder point init (ms ++ []) _
      rw [List.append_nil]
      exact h.allDone n
    | extend i n data => exact absurd hev id
    | complete i n => exact absurd hev id
    | discard i n => exact absurd hev id

end

theorem freshState_inSendOrder (point : ℕ) (init : Tsn) :
    InSendOrder point init [] (freshState init).assoc := by
  refine ⟨0, [], [], ⟨(advance_zero init).symm, fun k c hk => ?_, fun c hc => ?_, fun c hc => ?_,
    ⟨[], rfl, rfl⟩, fun k m ssn hk => ?_, fun i => ⟨rfl, fun m hm => ?_, rfl, [], [], [], rfl, rfl,
      fun sp hsp => ?_, ?_, fun hcs => rfl⟩⟩, fun hcs => absurd rfl hcs⟩
  · cases hk
  · cases hc
  · cases hc
  · cases hk
  · cases hm
  · cases hsp
  · split <;> rfl

/-- In every state of a run in which whole messages are written and nothing fails, the send queue holds the
fragments of the messages one after the other, those of each stream in the order in which they were written and
with consecutive numbers for the ordered ones. -/
theorem fillRun_inSendOrder (point : ℕ) (init : Tsn) (evs : List FillEvent)
    (hevs : ∀ ev ∈ evs, ev.Whole point) :
    InSendOrder point init (written evs) (fillRun (freshState init) evs).assoc := by
  induction evs using List.reverseRecOn with
  | nil => exact freshState_inSendOrder point init
  | append_singleton evs ev ih =>
    have hrest := ih fun e he => hevs e (List.mem_append_left _ he)
    have hstep := FillEvent.apply_inSendOrder hrest (hevs ev (by simp))
    have hwritten : written (evs ++ [ev]) = written evs ++ ev.writes := by simp [written]
    rw [hwritten, fillRun, List.foldl_append]
    exact hstep

end Sctp
