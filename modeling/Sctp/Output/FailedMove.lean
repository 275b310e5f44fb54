import Sctp.Output.Fragment

/-! A move that runs out of memory, and what a later one makes of what it leaves behind. -/
namespace Sctp
open Bitmap

inductive MoveFailure where
  | chunk
  | copy
  | header
deriving DecidableEq, Repr

/-- The first allocation or copy that fails for `toMove` bytes of `sp`; a copy of no bytes fails. -/
def moveFailure (cfg : OutConfig) (call : MoveCall) (sp : StreamQueuePending) (toMove : ℕ) :
    Option MoveFailure :=
  if call.chunkAllocFails then some .chunk
  else if toMove < sp.length ∧ (call.copyFails ∨ toMove = 0) then some .copy
  else if call.leadingSpace < cfg.headerSize ∧ call.mbufAllocFails then some .header
  else none

/-- The move comes to the pending message `sp` of the stream and runs out of memory. -/
structure FailedMove (cfg : OutConfig) (call : MoveCall) (a : OutAssoc) (i : StreamNo)
    (sp : StreamQueuePending) : Prop where
  head : ((reapFinished a i).strmout i).outqueue.head? = some sp
  length : sp.length ≠ 0
  discardRest : sp.discardRest = false
  fails : ∃ r, takeHowMuch cfg call (sp.closeIf cfg.closedSocket) = some r ∧
    moveFailure cfg call r.2.2 r.1 ≠ none

/-- The bytes, whatever buffers they are in, and the fields that say how far the message has gone. -/
structure SamePending (sp sp' : StreamQueuePending) : Prop where
  data : sp'.data.flatten = sp.data.flatten
  length : sp'.length = sp.length
  someTaken : sp'.someTaken = sp.someTaken
  putLastOut : sp'.putLastOut = sp.putLastOut

/-- The pending message `sp`, the stream and the send queue are as they were. -/
structure LeftAsWas (a a' : OutAssoc) (i : StreamNo) (sp : StreamQueuePending) : Prop where
  pending : ∃ sp', (a'.strmout i).outqueue.head? = some sp' ∧ SamePending sp sp'
  behind : (a'.strmout i).outqueue.tail = ((reapFinished a i).strmout i).outqueue.tail
  nextSequenceSend : (a'.strmout i).nextSequenceSend = (a.strmout i).nextSequenceSend
  sendQueue : a'.sendQueue = a.sendQueue

def StreamQueuePending.joinBuffers (sp : StreamQueuePending) : StreamQueuePending :=
  { sp with data := [sp.data.flatten] }

def TmitChunk.joinBuffers (chk : TmitChunk) : TmitChunk := { chk with data := [chk.data.flatten] }

def StreamOut.joinBuffers (strq : StreamOut) : StreamOut :=
  { strq with outqueue := strq.outqueue.map StreamQueuePending.joinBuffers }

def OutAssoc.joinBuffers (a : OutAssoc) : OutAssoc :=
  { a with
    strmout := fun i => (a.strmout i).joinBuffers
    sendQueue := a.sendQueue.map TmitChunk.joinBuffers }

def MoveResult.joinBuffers (r : MoveResult) : MoveResult :=
  { r with assoc := r.assoc.joinBuffers }

def RetriesAlike (cfg : OutConfig) (a a' : OutAssoc) (i : StreamNo) : Prop :=
  ∀ call, (moveToOutqueue cfg call a' i).joinBuffers = (moveToOutqueue cfg call a i).joinBuffers

structure Undone (cfg : OutConfig) (call : MoveCall) (a : OutAssoc) (i : StreamNo)
    (sp : StreamQueuePending) : Prop where
  leftAsWas : LeftAsWas a (moveToOutqueue cfg call a i).assoc i sp
  retriesAlike : RetriesAlike cfg a (moveToOutqueue cfg call a i).assoc i

/-- What is left of a complete message is to be taken. -/
def TakesRest (cfg : OutConfig) (call : MoveCall) (sp : StreamQueuePending) : Prop :=
  (sp.msgIsComplete || cfg.closedSocket) = true ∧ sp.length ≤ call.fragPoint

instance (cfg : OutConfig) (call : MoveCall) (sp : StreamQueuePending) :
    Decidable (TakesRest cfg call sp) := inferInstanceAs (Decidable (_ ∧ _))

/-- The flag that the move sets was set before, or it is one that the failure puts back. -/
def PutsBack (cfg : OutConfig) (call : MoveCall) (sp : StreamQueuePending) : Prop :=
  if TakesRest cfg call sp then sp.putLastOut = true
  else call.chunkAllocFails = true → sp.someTaken = true

instance (cfg : OutConfig) (call : MoveCall) (sp : StreamQueuePending) :
    Decidable (PutsBack cfg call sp) := by
  unfold PutsBack
  infer_instance

section Failed

variable {cfg : OutConfig} {call : MoveCall} {a : OutAssoc} {i : StreamNo}
  {sp sp' : StreamQueuePending} {toMove : ℕ} {flags : RcvFlags}

/-- One of the two flags is set, before anything is allocated. -/
theorem takeHowMuch_marks (h : takeHowMuch cfg call sp = some (toMove, flags, sp')) :
    sp' = if sp.msgIsComplete = true ∧ sp.length ≤ call.fragPoint then { sp with putLastOut := true }
      else { sp with someTaken := true } := by
  unfold takeHowMuch at h
  split at h
  · rename_i hcomplete
    dsimp only at h
    split at h
    · rename_i hall
      have hle : sp.length ≤ call.fragPoint := by omega
      rw [if_pos ⟨hcomplete, hle⟩]
      cases h
      rfl
    · rename_i hall
      rw [if_neg fun hrest => hall (Nat.min_eq_left hrest.2)]
      cases h
      rfl
  · rename_i hcomplete
    dsimp only at h
    rw [if_neg fun hrest => hcomplete hrest.1]
    split at h <;> cases h
    rfl

/-- A failed move puts the bytes back, and `some_taken` unless there was no chunk. -/
theorem copyOut_failed {old : StreamQueuePending} (h : moveFailure cfg call sp toMove ≠ none) :
    ∃ data, data.flatten = sp.data.flatten ∧
      (copyOut cfg call a i old sp flags toMove).assoc =
        a.setHead i
          { sp with
            data := data
            someTaken := if call.chunkAllocFails then sp.someTaken else old.someTaken } := by
  unfold moveFailure at h
  unfold copyOut
  by_cases hchunk : call.chunkAllocFails = true
  · refine ⟨sp.data, rfl, ?_⟩
    simp only [hchunk, if_true]
    rfl
  · rw [if_neg hchunk] at h
    simp only [if_neg hchunk]
    by_cases hall : sp.length ≤ toMove
    · have hnotcopy : ¬(toMove < sp.length ∧ (call.copyFails = true ∨ toMove = 0)) := by omega
      rw [if_neg hnotcopy] at h
      have hheader : call.leadingSpace < cfg.headerSize ∧ call.mbufAllocFails = true := by
        by_contra hno
        exact h (if_neg hno)
      refine ⟨sp.data, rfl, ?_⟩
      rw [if_pos hall, if_pos hheader]
      rfl
    · rw [if_neg hall]
      by_cases hcopy : call.copyFails = true ∨ toMove = 0
      · refine ⟨sp.data, rfl, ?_⟩
        rw [if_pos hcopy]
        rfl
      · have hnotcopy : ¬(toMove < sp.length ∧ (call.copyFails = true ∨ toMove = 0)) :=
          fun hboth => hcopy hboth.2
        rw [if_neg hnotcopy] at h
        have hheader : call.leadingSpace < cfg.headerSize ∧ call.mbufAllocFails = true := by
          by_contra hno
          exact h (if_neg hno)
        refine ⟨Chain.copy toMove sp.data ++ Chain.compact (Chain.trim toMove sp.data), ?_, ?_⟩
        · rw [List.flatten_append, Chain.flatten_copy, Chain.flatten_compact, Chain.flatten_trim,
            List.take_append_drop]
        · rw [if_neg hcopy, if_pos hheader]
          rfl

def leftPending (cfg : OutConfig) (call : MoveCall) (sp : StreamQueuePending)
    (data : List (List Byte)) : StreamQueuePending :=
  { sp.closeIf cfg.closedSocket with
    data := data
    someTaken := sp.someTaken || (call.chunkAllocFails && !decide (TakesRest cfg call sp))
    putLastOut := sp.putLastOut || decide (TakesRest cfg call sp) }

theorem FailedMove.assoc_eq (h : FailedMove cfg call a i sp) :
    ∃ data, data.flatten = sp.data.flatten ∧
      (moveToOutqueue cfg call a i).assoc =
        (reapFinished a i).setHead i (leftPending cfg call sp data) := by
  obtain ⟨⟨toMove, flags, sp'⟩, htake, hfails⟩ := h.fails
  obtain ⟨rest, hrest⟩ := List.head?_eq_some_iff.1 h.head
  obtain ⟨data, hdata, hcopy⟩ := copyOut_failed (a := reapFinished a i) (i := i) hfails
  have hmarks := takeHowMuch_marks htake
  have hbytes : sp'.data = sp.data := by
    rw [hmarks]
    split <;> rfl
  refine ⟨data, hbytes ▸ hdata, ?_⟩
  have hmove : moveToOutqueue cfg call a i =
      copyOut cfg call (reapFinished a i) i (sp.closeIf cfg.closedSocket) sp' flags toMove := by
    simp only [moveToOutqueue, moveFirst, hrest, if_neg h.length, h.discardRest, moveHead, htake,
      Bool.false_eq_true, if_false]
  rw [hmove, hcopy]
  congr 1
  by_cases htakes : TakesRest cfg call sp
  · have hrestmarks : sp' = { sp.closeIf cfg.closedSocket with putLastOut := true } :=
      hmarks.trans (if_pos htakes)
    simp only [leftPending, hrestmarks, htakes, decide_true, Bool.not_true, Bool.and_false,
      Bool.or_false, Bool.or_true, StreamQueuePending.closeIf, ite_self]
  · have hrestmarks : sp' = { sp.closeIf cfg.closedSocket with someTaken := true } :=
      hmarks.trans (if_neg htakes)
    cases hchunk : call.chunkAllocFails <;>
      simp [leftPending, hrestmarks, htakes, hchunk, StreamQueuePending.closeIf]

@[simp] theorem setHead_strmout_same (x : StreamQueuePending) :
    (a.setHead i x).strmout i =
      { a.strmout i with outqueue := x :: (a.strmout i).outqueue.tail } :=
  Function.update_self ..

theorem setHead_setHead (x y : StreamQueuePending) : (a.setHead i x).setHead i y = a.setHead i y := by
  simp only [OutAssoc.setHead, OutAssoc.setStream, Function.update_self, Function.update_idem,
    List.tail_cons]

theorem leftAsWas_iff (h : FailedMove cfg call a i sp) :
    LeftAsWas a (moveToOutqueue cfg call a i).assoc i sp ↔ PutsBack cfg call sp := by
  obtain ⟨data, hdata, heq⟩ := h.assoc_eq
  rw [heq]
  constructor
  · intro hleft
    obtain ⟨x, hx, hsame⟩ := hleft.pending
    rw [setHead_strmout_same] at hx
    obtain rfl : leftPending cfg call sp data = x := Option.some.inj hx
    have htaken := hsame.someTaken
    have hlast := hsame.putLastOut
    unfold PutsBack
    split
    · rename_i htakes
      simpa [leftPending, htakes] using hlast
    · rename_i htakes
      intro hchunk
      simpa [leftPending, htakes, hchunk] using htaken
  · intro hback
    refine ⟨⟨leftPending cfg call sp data, ?_, hdata, rfl, ?_, ?_⟩, ?_, ?_, ?_⟩
    · rw [setHead_strmout_same]
      rfl
    · unfold PutsBack at hback
      by_cases htakes : TakesRest cfg call sp
      · simp [leftPending, htakes]
      · rw [if_neg htakes] at hback
        cases hchunk : call.chunkAllocFails
        · simp [leftPending, hchunk]
        · simp [leftPending, hback hchunk]
    · unfold PutsBack at hback
      by_cases htakes : TakesRest cfg call sp
      · rw [if_pos htakes] at hback
        simp [leftPending, hback]
      · simp [leftPending, htakes]
    · rw [setHead_strmout_same, List.tail_cons]
    · rw [setHead_strmout_same]
      simp only [reapFinished_strmout, if_true]
    · exact reapFinished_sendQueue a i

end Failed

section Retry

variable {cfg : OutConfig} {call : MoveCall} {a : OutAssoc} {i : StreamNo}
  {x m old old' : StreamQueuePending} {d c : List (List Byte)} {flags : RcvFlags} {n : ℕ}

/-- The buffers of the first message do not matter. -/
theorem joinBuffers_setHead (hd : d.flatten = m.data.flatten) :
    ((a.setHead i x).setHead i { m with data := d }).joinBuffers = (a.setHead i m).joinBuffers := by
  rw [setHead_setHead]
  have hm : { m with data := d }.joinBuffers = m.joinBuffers := by
    simp only [StreamQueuePending.joinBuffers, hd]
  simp only [OutAssoc.joinBuffers, OutAssoc.setHead, OutAssoc.setStream]
  congr 1
  funext j
  by_cases hj : j = i
  · subst hj
    simp only [Function.update_self, StreamOut.joinBuffers, List.map_cons, hm]
  · simp only [Function.update_of_ne hj]

theorem putChunk_alike {chk : TmitChunk} (hd : d.flatten = m.data.flatten)
    (hc : c.flatten = chk.data.flatten) :
    (putChunk cfg (a.setHead i x) i { m with data := d } { chk with data := c } n).joinBuffers =
      (putChunk cfg a i m chk n).joinBuffers := by
  have hchk : { chk with data := c }.joinBuffers = chk.joinBuffers := by
    simp only [TmitChunk.joinBuffers, hc]
  have hm (fsn : BitVec 32) :
      StreamQueuePending.joinBuffers { m with data := d, fsn := fsn } =
        StreamQueuePending.joinBuffers { m with fsn := fsn } := by
    simp only [StreamQueuePending.joinBuffers, hd]
  have hdone : StreamQueuePending.finished { m with data := d } = m.finished := rfl
  simp only [putChunk, MoveResult.joinBuffers, OutAssoc.joinBuffers, setHead_strmout_same,
    List.tail_cons, hdone]
  congr 2
  · funext j
    by_cases hj : j = i
    · subst hj
      simp only [OutAssoc.setStream, Function.update_self, StreamOut.joinBuffers]
      split <;> split <;> simp only [List.map_cons, hm]
    · simp only [OutAssoc.setStream, OutAssoc.setHead, Function.update_of_ne hj]
  · simp only [OutAssoc.setStream, OutAssoc.setHead, List.map_append, List.map_cons, List.map_nil,
      hchk]

theorem setHead_alike (hd : d.flatten = m.data.flatten) (locked : Bool) :
    (MoveResult.giveUp ((a.setHead i x).setHead i { m with data := d }) locked).joinBuffers =
      (MoveResult.giveUp (a.setHead i m) locked).joinBuffers :=
  congrArg (fun b => MoveResult.giveUp b locked) (joinBuffers_setHead hd)

theorem bailOut_alike (hd : d.flatten = m.data.flatten) :
    (MoveResult.bailOut ((a.setHead i x).setHead i { m with data := d })).joinBuffers =
      (MoveResult.bailOut (a.setHead i m)).joinBuffers :=
  congrArg MoveResult.bailOut (joinBuffers_setHead hd)

theorem makeChunk_alike (c' : List (List Byte)) :
    makeChunk cfg call (a.setHead i x) ((a.setHead i x).strmout i) { m with data := d } flags c n =
      { makeChunk cfg call a (a.strmout i) m flags c' n with data := c } := by
  rw [setHead_strmout_same]
  rfl

/-- A move does the same with the bytes in other buffers. -/
theorem copyOut_alike (hd : d.flatten = m.data.flatten) (hold : old.someTaken = old'.someTaken) :
    (copyOut cfg call (a.setHead i x) i old { m with data := d } flags n).joinBuffers =
      (copyOut cfg call a i old' m flags n).joinBuffers := by
  unfold copyOut
  by_cases hchunk : call.chunkAllocFails = true
  · rw [if_pos hchunk, if_pos hchunk]
    exact setHead_alike hd false
  · rw [if_neg hchunk, if_neg hchunk]
    dsimp only
    rw [hold]
    by_cases hall : m.length ≤ n
    · rw [if_pos hall, if_pos hall]
      split
      · exact bailOut_alike (m := { m with someTaken := old'.someTaken }) hd
      · rw [makeChunk_alike m.data]
        exact putChunk_alike (m := { m with data := [], length := m.length - n }) rfl hd
    · rw [if_neg hall, if_neg hall]
      have hcopied : (Chain.copy n d).flatten = (Chain.copy n m.data).flatten := by
        rw [Chain.flatten_copy, Chain.flatten_copy, hd]
      have hrest : (Chain.compact (Chain.trim n d)).flatten =
          (Chain.compact (Chain.trim n m.data)).flatten := by
        rw [Chain.flatten_compact, Chain.flatten_compact, Chain.flatten_trim, Chain.flatten_trim, hd]
      have hboth : (Chain.copy n d ++ Chain.compact (Chain.trim n d)).flatten =
          (Chain.copy n m.data ++ Chain.compact (Chain.trim n m.data)).flatten := by
        rw [List.flatten_append, List.flatten_append, hcopied, hrest]
      split
      · exact bailOut_alike (m := { m with someTaken := old'.someTaken }) hd
      · split
        · exact bailOut_alike
            (m := { m with
              someTaken := old'.someTaken
              data := Chain.copy n m.data ++ Chain.compact (Chain.trim n m.data) }) hboth
        · rw [makeChunk_alike (Chain.copy n m.data)]
          exact putChunk_alike
            (m := { m with
              data := Chain.compact (Chain.trim n m.data)
              length := m.length - n }) hrest hcopied

/-- How much to take does not depend on the bytes. -/
theorem takeHowMuch_data (d : List (List Byte)) :
    takeHowMuch cfg call { m with data := d } =
      (takeHowMuch cfg call m).map fun r => (r.1, r.2.1, { r.2.2 with data := d }) := by
  unfold takeHowMuch
  split
  · dsimp only
    split <;> rfl
  · dsimp only
    split <;> rfl

theorem takeHowMuch_bytes {r : ℕ × RcvFlags × StreamQueuePending}
    (h : takeHowMuch cfg call m = some r) : r.2.2.data = m.data := by
  obtain ⟨toMove, flags, sp'⟩ := r
  have hmarks := takeHowMuch_marks h
  change sp'.data = m.data
  rw [hmarks]
  split <;> rfl

theorem moveHead_alike (hd : d.flatten = m.data.flatten) :
    (moveHead cfg call (a.setHead i x) i { m with data := d }).joinBuffers =
      (moveHead cfg call a i m).joinBuffers := by
  unfold moveHead
  rw [takeHowMuch_data]
  cases htake : takeHowMuch cfg call m with
  | none => exact setHead_alike hd _
  | some r =>
    have hbytes : d.flatten = r.2.2.data.flatten := by rw [takeHowMuch_bytes htake, hd]
    exact copyOut_alike hbytes rfl

/-- A message that still has bytes is not cleaned up. -/
theorem reapFinished_of_length {sp : StreamQueuePending} {rest : List StreamQueuePending}
    (hq : (a.strmout i).outqueue = sp :: rest) (hlen : sp.length ≠ 0) : reapFinished a i = a := by
  have hunfinished : ¬ sp.finished = true := by
    simp [StreamQueuePending.finished, hlen]
  unfold reapFinished
  dsimp only
  rw [hq, List.takeWhile_cons_of_neg hunfinished]
  exact if_pos rfl

theorem retriesAlike_of_putsBack {sp : StreamQueuePending} (h : FailedMove cfg call a i sp)
    (hback : PutsBack cfg call sp) :
    RetriesAlike cfg a (moveToOutqueue cfg call a i).assoc i := by
  intro retry
  obtain ⟨data, hdata, heq⟩ := h.assoc_eq
  obtain ⟨rest, hrest⟩ := List.head?_eq_some_iff.1 h.head
  obtain ⟨x, hx, hsame⟩ := ((leftAsWas_iff h).2 hback).pending
  rw [heq] at hx ⊢
  rw [setHead_strmout_same] at hx
  obtain rfl : leftPending cfg call sp data = x := Option.some.inj hx
  have hleft : (leftPending cfg call sp data).closeIf cfg.closedSocket =
      { sp.closeIf cfg.closedSocket with data := data } := by
    have htaken : (leftPending cfg call sp data).someTaken = sp.someTaken := hsame.someTaken
    have hlast : (leftPending cfg call sp data).putLastOut = sp.putLastOut := hsame.putLastOut
    simp only [leftPending] at htaken hlast
    simp only [leftPending, StreamQueuePending.closeIf, htaken, hlast, Bool.or_assoc, Bool.or_self]
  have hlen : (leftPending cfg call sp data).length ≠ 0 := h.length
  have hdiscard : (leftPending cfg call sp data).discardRest = false := h.discardRest
  have hqueue : (((reapFinished a i).setHead i (leftPending cfg call sp data)).strmout i).outqueue =
      leftPending cfg call sp data :: rest := by
    rw [setHead_strmout_same, hrest, List.tail_cons]
  rw [moveToOutqueue, reapFinished_of_length hqueue hlen, moveToOutqueue, moveFirst, moveFirst]
  simp only [hqueue, hrest, if_neg hlen, if_neg h.length, hdiscard, h.discardRest,
    Bool.false_eq_true, if_false, hleft]
  exact moveHead_alike (m := sp.closeIf cfg.closedSocket) hdata

/-- A move that runs out of memory is undone exactly when the flag that it sets was set before or is
put back. -/
theorem failedMove_undone_iff {sp : StreamQueuePending} (h : FailedMove cfg call a i sp) :
    Undone cfg call a i sp ↔ PutsBack cfg call sp := by
  refine ⟨fun hundone => (leftAsWas_iff h).1 hundone.leftAsWas, fun hback => ⟨?_, ?_⟩⟩
  · exact (leftAsWas_iff h).2 hback
  · exact retriesAlike_of_putsBack h hback

end Retry

/-- A complete message of eight bytes, of which `someTaken` says whether it has been begun. -/
def eightBytes (someTaken : Bool) : StreamQueuePending where
  id := 1
  data := [[1, 2, 3, 4, 5, 6, 7, 8]]
  length := 8
  stream := 0
  ppid := 0
  context := 0
  ts := 0
  unordered := false
  eof := false
  sackImmediately := false
  actFlags := 0
  net := none
  msgId := 0
  fsn := 0
  msgIsComplete := true
  someTaken := someTaken
  senderAllDone := true
  putLastOut := false
  discardRest := false

def eightBytesQueued (someTaken : Bool) : OutAssoc where
  strmout _ :=
    { outqueue := [eightBytes someTaken]
      streamNo := 0
      nextSequenceSend := 7
      chunksOnQueues := 0
      lastMsgIncomplete := false }
  lockedOnSending := none
  sendQueue := []
  sendingSeq := 100
  sendQueueCnt := 0
  chunksOnOutQueue := 0
  streamQueueCnt := 1
  prSctpCnt := 0
  totalOutputQueueSize := 8

/-- A move that fragments at four bytes, with or without memory for the chunk. -/
def fourByteMove (chunkAllocFails : Bool) : MoveCall where
  goalMtu := 1400
  fragPoint := 4
  eeorMode := false
  totalFlight := 0
  chunkAllocFails := chunkAllocFails
  copyFails := false
  leadingSpace := 64
  mbufAllocFails := false
  padFails := false

theorem failedMove_eightBytes (someTaken : Bool) :
    FailedMove plainConfig (fourByteMove true) (eightBytesQueued someTaken) 0
      (eightBytes someTaken) where
  head := by cases someTaken <;> rfl
  length := nofun
  discardRest := rfl
  fails := by cases someTaken <;> exact ⟨_, rfl, by decide⟩

theorem begun_undone :
    Undone plainConfig (fourByteMove true) (eightBytesQueued true) 0 (eightBytes true) :=
  (failedMove_undone_iff (failedMove_eightBytes true)).2 (by decide)

/-- The first chunk of the retry is no first fragment. -/
theorem fresh_not_undone :
    FailedMove plainConfig (fourByteMove true) (eightBytesQueued false) 0 (eightBytes false) ∧
      ¬ Undone plainConfig (fourByteMove true) (eightBytesQueued false) 0 (eightBytes false) ∧
      (moveToOutqueue plainConfig (fourByteMove false) (eightBytesQueued false) 0).assoc.sendQueue.map
        (·.rcvFlags.first) = [true] ∧
      (moveToOutqueue plainConfig (fourByteMove false)
        (moveToOutqueue plainConfig (fourByteMove true) (eightBytesQueued false) 0).assoc
        0).assoc.sendQueue.map (·.rcvFlags.first) = [false] := by
  refine ⟨failedMove_eightBytes false, fun h => ?_, rfl, rfl⟩
  obtain ⟨x, hx, hsame⟩ := h.leftAsWas.pending
  have hmarked : x.someTaken = true := by
    cases hx
    rfl
  rw [hsame.someTaken] at hmarked
  cases hmarked

end Sctp
