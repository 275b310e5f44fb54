import Sctp.Output.MoveToOutqueue

/-! Complete messages are fragmented without loss. -/
namespace Sctp
open Bitmap

/-- No allocation and no copy fails during the call. -/
structure MoveCall.Succeeds (call : MoveCall) : Prop where
  chunk : call.chunkAllocFails = false
  copy : call.copyFails = false
  mbuf : call.mbufAllocFails = false

instance (call : MoveCall) : Decidable call.Succeeds :=
  decidable_of_iff
    (call.chunkAllocFails = false ∧ call.copyFails = false ∧ call.mbufAllocFails = false)
    ⟨fun ⟨h1, h2, h3⟩ => ⟨h1, h2, h3⟩, fun ⟨h1, h2, h3⟩ => ⟨h1, h2, h3⟩⟩

/-- The user thread lets go of message `id`. -/
def senderDone (a : OutAssoc) (i : StreamNo) (id : ℕ) : OutAssoc :=
  a.setStream i
    { a.strmout i with
      outqueue := (a.strmout i).outqueue.map fun sp =>
        if sp.id = id then { sp with senderAllDone := true } else sp }

/-- A step of a run over complete messages. -/
inductive MoveEvent where
  | move (i : StreamNo) (call : MoveCall)
  | senderDone (i : StreamNo) (id : ℕ)

def MoveEvent.apply (cfg : OutConfig) (a : OutAssoc) : MoveEvent → OutAssoc
  | .move i call => (moveToOutqueue cfg call a i).assoc
  | .senderDone i id => Sctp.senderDone a i id

def moveRun (cfg : OutConfig) (a : OutAssoc) (evs : List MoveEvent) : OutAssoc :=
  evs.foldl (MoveEvent.apply cfg) a

def MoveEvent.Succeeds : MoveEvent → Prop
  | .move _ call => call.Succeeds
  | .senderDone _ _ => True

/-- What every chunk of a message carries. -/
structure CutFrom (sp : StreamQueuePending) (ssn : Ssn) (c : TmitChunk) : Prop where
  streamNumber : c.streamNumber = sp.stream
  streamId : c.streamId = sp.stream
  streamSeq : c.streamSeq = ssn
  unordered : c.rcvFlags.unordered = sp.unordered
  payloadtype : c.payloadtype = sp.ppid

/-- The chunks `cs` carry the message up to `rest`, with first and last flags where they belong. -/
structure Fragments (sp : StreamQueuePending) (ssn : Ssn) (cs : List TmitChunk)
    (rest : List Byte) : Prop where
  bytes : (cs.map TmitChunk.payload).flatten ++ rest = sp.data.flatten
  cut : ∀ c ∈ cs, CutFrom sp ssn c
  first : ∀ k c, cs[k]? = some c → (c.rcvFlags.first = true ↔ k = 0)
  last : ∀ k c, cs[k]? = some c → (c.rcvFlags.last = true ↔ k + 1 = cs.length ∧ rest = [])

/-- The sequence number after the messages `ms`: one step for each ordered one. -/
def ssnAfter (ssn : Ssn) (ms : List StreamQueuePending) : Ssn :=
  ms.foldl (fun ssn sp => if sp.unordered then ssn else ssn + 1) ssn

/-- The chunks are the fragments of the messages, one message after the other. -/
def Fragmented : Ssn → List StreamQueuePending → List TmitChunk → Prop
  | _, [], cs => cs = []
  | ssn, sp :: ms, cs => ∃ cs₁ cs₂, cs = cs₁ ++ cs₂ ∧ Fragments sp ssn cs₁ [] ∧
    Fragmented (ssnAfter ssn [sp]) ms cs₂

theorem Fragmented.concat {ssn : Ssn} {ms : List StreamQueuePending} {cs cs' : List TmitChunk}
    {sp : StreamQueuePending} (h : Fragmented ssn ms cs)
    (hsp : Fragments sp (ssnAfter ssn ms) cs' []) : Fragmented ssn (ms ++ [sp]) (cs ++ cs') := by
  induction ms generalizing ssn cs with
  | nil =>
    obtain rfl : cs = [] := h
    exact ⟨cs', [], by simp, hsp, rfl⟩
  | cons m ms ih =>
    obtain ⟨cs₁, cs₂, rfl, h1, h2⟩ := h
    exact ⟨cs₁, cs₂ ++ cs', by simp, h1, ih h2 hsp⟩

theorem Fragments.nil (sp : StreamQueuePending) (ssn : Ssn) :
    Fragments sp ssn [] sp.data.flatten := by
  constructor <;> simp

/-- An element of a list that was extended by one. -/
theorem getElem?_concat {α : Type*} {l : List α} {x y : α} {k : ℕ}
    (h : (l ++ [x])[k]? = some y) : (k < l.length ∧ l[k]? = some y) ∨ (k = l.length ∧ y = x) := by
  rcases Nat.lt_or_ge k l.length with hk | hk
  · rw [List.getElem?_append_left hk] at h
    exact Or.inl ⟨hk, h⟩
  · rw [List.getElem?_append_right hk] at h
    obtain ⟨hlt, heq⟩ := List.getElem?_eq_some_iff.mp h
    rw [List.length_singleton] at hlt
    exact Or.inr ⟨by omega, by simpa using heq.symm⟩

/-- One more chunk. -/
theorem Fragments.concat {sp : StreamQueuePending} {ssn : Ssn} {cs : List TmitChunk}
    {c : TmitChunk} {rest : List Byte} (h : Fragments sp ssn cs (c.payload ++ rest))
    (hne : c.payload ≠ []) (hc : CutFrom sp ssn c)
    (hfirst : c.rcvFlags.first = true ↔ cs = []) (hlast : c.rcvFlags.last = true ↔ rest = []) :
    Fragments sp ssn (cs ++ [c]) rest := by
  constructor
  · rw [← h.bytes]
    simp
  · intro d hd
    rcases List.mem_append.mp hd with hd | hd
    · exact h.cut d hd
    · rw [List.mem_singleton.mp hd]
      exact hc
  · intro k d hd
    rcases getElem?_concat hd with ⟨_, hd⟩ | ⟨rfl, rfl⟩
    · exact h.first k d hd
    · rw [hfirst, List.length_eq_zero_iff]
  · intro k d hd
    rw [List.length_append, List.length_singleton]
    rcases getElem?_concat hd with ⟨hk, hd⟩ | ⟨rfl, rfl⟩
    · rw [h.last k d hd]
      simp [hne]
      omega
    · simp [hlast]

/-- What is left of message `m` on the queue, after the chunks `cs`. -/
structure Pending (ssn : Ssn) (m sp : StreamQueuePending) (cs : List TmitChunk) : Prop where
  frags : Fragments m ssn cs sp.data.flatten
  length_eq : sp.length = sp.data.flatten.length
  pos : 0 < sp.length
  complete : sp.msgIsComplete = true
  taken : sp.someTaken = true ↔ cs ≠ []
  keep : sp.discardRest = false
  stream : sp.stream = m.stream
  unordered : sp.unordered = m.unordered
  ppid : sp.ppid = m.ppid

def Untaken (m sp : StreamQueuePending) : Prop := ∀ ssn, Pending ssn m sp []

/-- Only the first message of a queue has been started. -/
def PendingQueue (ssn : Ssn) :
    List StreamQueuePending → List StreamQueuePending → List TmitChunk → Prop
  | [], [], cs => cs = []
  | m :: ms, sp :: sps, cs => Pending ssn m sp cs ∧ List.Forall₂ Untaken ms sps
  | _, _, _ => False

theorem pendingQueue_of_untaken {ms sps : List StreamQueuePending}
    (h : List.Forall₂ Untaken ms sps) (ssn : Ssn) : PendingQueue ssn ms sps [] := by
  cases h with
  | nil => rfl
  | cons h1 h2 => exact ⟨h1 ssn, h2⟩

/-- A stream after the messages `ms` of its queue have led to the chunks `cs`. -/
structure StreamCut (i : StreamNo) (ssn : Ssn) (ms : List StreamQueuePending) (strq : StreamOut)
    (cs : List TmitChunk) : Prop where
  streamNo : strq.streamNo = i
  split : ∃ ms₁ ms₂ spent sps cs₁ cs₂, ms = ms₁ ++ ms₂ ∧ cs = cs₁ ++ cs₂ ∧
    Fragmented ssn ms₁ cs₁ ∧ strq.outqueue = spent ++ sps ∧
    (∀ sp ∈ spent, sp.length = 0) ∧
    strq.nextSequenceSend = ssnAfter ssn ms₁ ∧ PendingQueue (ssnAfter ssn ms₁) ms₂ sps cs₂

section step
variable (cfg : OutConfig) (a : OutAssoc) (i : StreamNo)

@[simp] theorem setStream_strmout (strq : StreamOut) (j : StreamNo) :
    (a.setStream i strq).strmout j = if j = i then strq else a.strmout j := by
  simp [OutAssoc.setStream, Function.update_apply]

@[simp] theorem setStream_sendQueue (strq : StreamOut) :
    (a.setStream i strq).sendQueue = a.sendQueue := rfl

@[simp] theorem setStream_sendingSeq (strq : StreamOut) :
    (a.setStream i strq).sendingSeq = a.sendingSeq := rfl

theorem reapFinished_strmout (j : StreamNo) : (reapFinished a i).strmout j =
    if j = i then
      { a.strmout i with
        outqueue := (a.strmout i).outqueue.dropWhile StreamQueuePending.finished }
    else a.strmout j := by
  unfold reapFinished
  simp only
  split_ifs with hz hj hj
  · subst hj
    have hnil : (a.strmout j).outqueue.takeWhile StreamQueuePending.finished = [] :=
      List.length_eq_zero_iff.mp hz
    have hdrop := List.takeWhile_append_dropWhile (p := StreamQueuePending.finished)
      (l := (a.strmout j).outqueue)
    rw [hnil, List.nil_append] at hdrop
    rw [hdrop]
  · rfl
  · simp [hj]
  · simp [hj]

@[simp] theorem reapFinished_sendQueue : (reapFinished a i).sendQueue = a.sendQueue := by
  unfold reapFinished
  simp only
  split_ifs <;> rfl

@[simp] theorem reapFinished_sendingSeq : (reapFinished a i).sendingSeq = a.sendingSeq := by
  unfold reapFinished
  simp only
  split_ifs <;> rfl

@[simp] theorem putChunk_sendQueue (sp : StreamQueuePending) (c : TmitChunk) (n : ℕ) :
    (putChunk cfg a i sp c n).assoc.sendQueue = a.sendQueue ++ [c] := rfl

@[simp] theorem putChunk_sendingSeq (sp : StreamQueuePending) (c : TmitChunk) (n : ℕ) :
    (putChunk cfg a i sp c n).assoc.sendingSeq = a.sendingSeq + 1 := rfl

theorem putChunk_strmout (sp : StreamQueuePending) (c : TmitChunk) (n : ℕ) {j : StreamNo}
    (hj : j ≠ i) : (putChunk cfg a i sp c n).assoc.strmout j = a.strmout j := by
  simp [putChunk, hj]

theorem putChunk_outqueue (sp : StreamQueuePending) (c : TmitChunk) (n : ℕ) :
    ((putChunk cfg a i sp c n).assoc.strmout i).outqueue =
      if sp.finished then (a.strmout i).outqueue.tail
      else { sp with fsn := if cfg.peerSupportsNdata then sp.fsn + 1 else sp.fsn } ::
        (a.strmout i).outqueue.tail := by
  unfold putChunk
  simp only [setStream_strmout, if_true]
  split_ifs <;> rfl

theorem putChunk_nextSequenceSend (sp : StreamQueuePending) (c : TmitChunk) (n : ℕ) :
    ((putChunk cfg a i sp c n).assoc.strmout i).nextSequenceSend =
      if c.rcvFlags.last && !c.rcvFlags.unordered then (a.strmout i).nextSequenceSend + 1
      else (a.strmout i).nextSequenceSend := by
  simp [putChunk]

@[simp] theorem putChunk_streamNo (sp : StreamQueuePending) (c : TmitChunk) (n : ℕ) :
    ((putChunk cfg a i sp c n).assoc.strmout i).streamNo = (a.strmout i).streamNo := by
  simp [putChunk]

theorem setHead_strmout (sp : StreamQueuePending) {j : StreamNo} (hj : j ≠ i) :
    (a.setHead i sp).strmout j = a.strmout j := by
  simp [OutAssoc.setHead, hj]

theorem copyOut_strmout (call : MoveCall) (old sp : StreamQueuePending) (flags : RcvFlags) (n : ℕ)
    {j : StreamNo} (hj : j ≠ i) :
    (copyOut cfg call a i old sp flags n).assoc.strmout j = a.strmout j := by
  unfold copyOut
  simp only
  split_ifs
  · exact setHead_strmout a i _ hj
  · exact setHead_strmout a i _ hj
  · exact putChunk_strmout cfg a i _ _ _ hj
  · exact setHead_strmout a i _ hj
  · exact setHead_strmout a i _ hj
  · exact putChunk_strmout cfg a i _ _ _ hj

theorem moveFirst_strmout (call : MoveCall) {j : StreamNo} (hj : j ≠ i) :
    (moveFirst cfg call a i).assoc.strmout j = a.strmout j := by
  unfold moveFirst
  simp only
  split
  · simp [hj]
  · split_ifs
    · rfl
    · exact setHead_strmout a i _ hj
    · unfold moveHead
      split
      · exact setHead_strmout a i _ hj
      · exact copyOut_strmout cfg a i call _ _ _ _ hj

/-- A call changes no other stream. -/
theorem moveToOutqueue_strmout (call : MoveCall) {j : StreamNo} (hj : j ≠ i) :
    (moveToOutqueue cfg call a i).assoc.strmout j = a.strmout j := by
  unfold moveToOutqueue
  rw [moveFirst_strmout cfg _ i call hj, reapFinished_strmout, if_neg hj]

/-- The flags of a chunk of `sp`. -/
def cutFlags (cfg : OutConfig) (sp : StreamQueuePending) (last : Bool) : RcvFlags where
  last := last
  first := !sp.someTaken
  unordered := sp.unordered
  sackImmediately := (cfg.enableSackImmediately && sp.eof) || sp.sackImmediately

/-- What a call does with a complete message, nothing failing. -/
theorem moveHead_complete {call : MoveCall} (hc : call.Succeeds) {sp : StreamQueuePending}
    (hcomp : sp.msgIsComplete = true) : moveHead cfg call a i sp =
      if sp.length ≤ call.fragPoint then
        putChunk cfg a i { sp with putLastOut := true, data := [], length := 0 }
          (makeChunk cfg call a (a.strmout i) { sp with putLastOut := true }
            (cutFlags cfg sp true) sp.data sp.length) sp.length
      else if call.fragPoint = 0 then .bailOut (a.setHead i sp)
      else
        putChunk cfg a i
          { sp with
            someTaken := true
            data := Chain.compact (Chain.trim call.fragPoint sp.data)
            length := sp.length - call.fragPoint }
          (makeChunk cfg call a (a.strmout i) { sp with someTaken := true } (cutFlags cfg sp false)
            (Chain.copy call.fragPoint sp.data) call.fragPoint) call.fragPoint := by
  have h1 := hc.chunk
  have h2 := hc.copy
  have h3 := hc.mbuf
  by_cases hfit : sp.length ≤ call.fragPoint
  · have htake : takeHowMuch cfg call sp = some (sp.length,
        { last := true, first := !sp.someTaken }, { sp with putLastOut := true }) := by
      unfold takeHowMuch
      rw [if_pos hcomp]
      dsimp only
      rw [Nat.min_eq_left hfit, if_pos rfl]
    rw [moveHead, htake, if_pos hfit]
    simp only [copyOut, h1, h3, Bool.false_eq_true, if_false, and_false, le_refl, if_true,
      Nat.sub_self, cutFlags]
  · have htake : takeHowMuch cfg call sp = some (call.fragPoint,
        { first := !sp.someTaken }, { sp with someTaken := true }) := by
      unfold takeHowMuch
      rw [if_pos hcomp]
      dsimp only
      rw [Nat.min_eq_right (by omega), if_neg (by omega)]
    rw [moveHead, htake, if_neg hfit]
    simp only [copyOut, h1, h2, h3, Bool.false_eq_true, if_false, and_false, hfit, false_or,
      cutFlags]

end step

section cut
variable {cfg : OutConfig} {a : OutAssoc} {i : StreamNo} {ssn : Ssn}
  {ms : List StreamQueuePending} {cs : List TmitChunk}

theorem PendingQueue.dropWhile_finished {ms sps : List StreamQueuePending} {cs : List TmitChunk}
    (h : PendingQueue ssn ms sps cs) : sps.dropWhile StreamQueuePending.finished = sps := by
  cases sps with
  | nil => rfl
  | cons sp sps =>
    cases ms with
    | nil => exact h.elim
    | cons m ms =>
      have hpos := h.1.pos
      rw [List.dropWhile_cons_of_neg]
      simp only [StreamQueuePending.finished, Bool.and_eq_true, beq_iff_eq]
      omega

theorem StreamCut.reap (h : StreamCut i ssn ms (a.strmout i) cs) :
    StreamCut i ssn ms ((reapFinished a i).strmout i) cs := by
  obtain ⟨hno, ms₁, ms₂, spent, sps, cs₁, cs₂, rfl, rfl, hfr, hq, hspent, hseq, hpend⟩ := h
  rw [reapFinished_strmout, if_pos rfl]
  refine ⟨hno, ms₁, ms₂, spent.dropWhile StreamQueuePending.finished, sps, cs₁, cs₂, rfl, rfl, hfr,
    ?_, ?_, hseq, hpend⟩
  · simp only [hq]
    rw [List.dropWhile_append, hpend.dropWhile_finished]
    split_ifs with he
    · rw [List.isEmpty_iff.mp he, List.nil_append]
    · rfl
  · intro sp hsp
    exact hspent sp (List.dropWhile_subset _ hsp)

theorem closeIf_of_complete {sp : StreamQueuePending} (h : sp.msgIsComplete = true) (b : Bool) :
    sp.closeIf b = sp := by
  cases sp
  simp only at h
  subst h
  rfl

/-- The effect of one call: at most one chunk, and it is one of stream `i`. -/
structure MoveStep (call : MoveCall) (a a' : OutAssoc) (i : StreamNo) (new : List TmitChunk) :
    Prop where
  sendQueue : a'.sendQueue = a.sendQueue ++ new
  sendingSeq : a'.sendingSeq = Serial.advance a.sendingSeq new.length
  tsn : ∀ k c, new[k]? = some c → c.tsn = Serial.advance a.sendingSeq k
  streamId : ∀ c ∈ new, c.streamId = i
  payload_le : ∀ c ∈ new, c.payload.length ≤ call.fragPoint
  payload_pos : ∀ c ∈ new, 0 < c.payload.length

theorem MoveStep.none {call : MoveCall} {a a' : OutAssoc} (h1 : a'.sendQueue = a.sendQueue)
    (h2 : a'.sendingSeq = a.sendingSeq) : MoveStep call a a' i [] := by
  constructor <;> simp [h1, h2]

theorem MoveStep.one {call : MoveCall} {a a' : OutAssoc} {c : TmitChunk}
    (h1 : a'.sendQueue = a.sendQueue ++ [c]) (h2 : a'.sendingSeq = a.sendingSeq + 1)
    (h3 : c.tsn = a.sendingSeq) (h4 : c.streamId = i) (h5 : c.payload.length ≤ call.fragPoint)
    (h6 : 0 < c.payload.length) : MoveStep call a a' i [c] := by
  constructor
  · exact h1
  · simpa [Serial.advance] using h2
  · intro k d hd
    obtain ⟨hk, rfl⟩ := List.getElem?_eq_some_iff.mp hd
    obtain rfl : k = 0 := by simpa using hk
    simpa using h3
  · simpa using h4
  · simpa using h5
  · simpa using h6

/-- A chunk cut from the head of the queue, with more of the message to come. -/
theorem StreamCut.cutMiddle {call : MoveCall} {ms₁ ms₂ sps : List StreamQueuePending}
    {m sp : StreamQueuePending} {cs₁ cs₂ : List TmitChunk} (hno : (a.strmout i).streamNo = i)
    (hfr : Fragmented ssn ms₁ cs₁) (hq : (a.strmout i).outqueue = sp :: sps)
    (hseq : (a.strmout i).nextSequenceSend = ssnAfter ssn ms₁)
    (hp : Pending (ssnAfter ssn ms₁) m sp cs₂) (hrest : List.Forall₂ Untaken ms₂ sps)
    (hstream : m.stream = i) (hlt : call.fragPoint < sp.length) (hfp : call.fragPoint ≠ 0) :
    let c := makeChunk cfg call a (a.strmout i) { sp with someTaken := true }
      (cutFlags cfg sp false) (Chain.copy call.fragPoint sp.data) call.fragPoint
    let a' := (putChunk cfg a i
      { sp with
        someTaken := true
        data := Chain.compact (Chain.trim call.fragPoint sp.data)
        length := sp.length - call.fragPoint } c call.fragPoint).assoc
    MoveStep call a a' i [c] ∧
      StreamCut i ssn (ms₁ ++ m :: ms₂) (a'.strmout i) (cs₁ ++ cs₂ ++ [c]) := by
  intro c a'
  have hlen := hp.length_eq
  have hpay : c.payload = sp.data.flatten.take call.fragPoint := by
    simp [c, TmitChunk.payload, makeChunk]
  have hfin : StreamQueuePending.finished { sp with
      someTaken := true
      data := Chain.compact (Chain.trim call.fragPoint sp.data)
      length := sp.length - call.fragPoint } = false := by
    simp only [StreamQueuePending.finished, Bool.and_eq_false_iff, beq_eq_false_iff_ne]
    omega
  refine ⟨MoveStep.one rfl rfl rfl hno ?_ ?_, ?_⟩
  · rw [hpay, List.length_take]
    omega
  · rw [hpay, List.length_take]
    omega
  refine ⟨?_, ms₁, m :: ms₂, [], { sp with
    someTaken := true
    data := Chain.compact (Chain.trim call.fragPoint sp.data)
    length := sp.length - call.fragPoint
    fsn := if cfg.peerSupportsNdata then sp.fsn + 1 else sp.fsn } :: sps, cs₁, cs₂ ++ [c], rfl, ?_,
    hfr, ?_, ?_, ?_, ?_, hrest⟩
  · rw [putChunk_streamNo, hno]
  · rw [List.append_assoc]
  · rw [putChunk_outqueue, hq, hfin]
    rfl
  · simp
  · rw [putChunk_nextSequenceSend, hseq]
    rfl
  · constructor
    · simp only [Chain.flatten_compact, Chain.flatten_trim]
      have hfrags := hp.frags
      rw [← List.take_append_drop call.fragPoint sp.data.flatten, ← hpay] at hfrags
      refine hfrags.concat ?_ ?_ ?_ ?_
      · rw [hpay]
        intro hnil
        have := congrArg List.length hnil
        rw [List.length_take, List.length_nil] at this
        omega
      · exact ⟨hp.stream, hno.trans hstream.symm, hseq, hp.unordered, hp.ppid⟩
      · have htaken := hp.taken
        change (!sp.someTaken) = true ↔ cs₂ = []
        rw [Bool.not_eq_true', ← Bool.not_eq_true, htaken, not_not]
      · change false = true ↔ _
        have : ¬ sp.data.flatten.drop call.fragPoint = [] := by
          rw [List.drop_eq_nil_iff]
          omega
        simp [this]
    · simp only [Chain.flatten_compact, Chain.flatten_trim, List.length_drop]
      omega
    · change 0 < sp.length - call.fragPoint
      omega
    · exact hp.complete
    · simp
    · exact hp.keep
    · exact hp.stream
    · exact hp.unordered
    · exact hp.ppid

/-- The last chunk of the message at the head of the queue. -/
theorem StreamCut.cutLast {call : MoveCall} {ms₁ ms₂ sps : List StreamQueuePending}
    {m sp : StreamQueuePending} {cs₁ cs₂ : List TmitChunk} (hno : (a.strmout i).streamNo = i)
    (hfr : Fragmented ssn ms₁ cs₁) (hq : (a.strmout i).outqueue = sp :: sps)
    (hseq : (a.strmout i).nextSequenceSend = ssnAfter ssn ms₁)
    (hp : Pending (ssnAfter ssn ms₁) m sp cs₂) (hrest : List.Forall₂ Untaken ms₂ sps)
    (hstream : m.stream = i) (hle : sp.length ≤ call.fragPoint) :
    let c := makeChunk cfg call a (a.strmout i) { sp with putLastOut := true }
      (cutFlags cfg sp true) sp.data sp.length
    let a' := (putChunk cfg a i { sp with putLastOut := true, data := [], length := 0 } c
      sp.length).assoc
    MoveStep call a a' i [c] ∧
      StreamCut i ssn (ms₁ ++ m :: ms₂) (a'.strmout i) (cs₁ ++ cs₂ ++ [c]) := by
  intro c a'
  have hlen := hp.length_eq
  have hpos := hp.pos
  have hpay : c.payload = sp.data.flatten := rfl
  have hafter : ssnAfter ssn (ms₁ ++ [m]) =
      if m.unordered then ssnAfter ssn ms₁ else ssnAfter ssn ms₁ + 1 := by
    simp [ssnAfter]
  have hfrags : Fragments m (ssnAfter ssn ms₁) (cs₂ ++ [c]) [] := by
    have hfrags := hp.frags
    rw [← hpay, ← List.append_nil c.payload] at hfrags
    refine hfrags.concat ?_ ?_ ?_ ?_
    · rw [hpay]
      intro hnil
      rw [hnil, List.length_nil] at hlen
      omega
    · exact ⟨hp.stream, hno.trans hstream.symm, hseq, hp.unordered, hp.ppid⟩
    · have htaken := hp.taken
      change (!sp.someTaken) = true ↔ cs₂ = []
      rw [Bool.not_eq_true', ← Bool.not_eq_true, htaken, not_not]
    · change true = true ↔ _
      simp
  refine ⟨MoveStep.one rfl rfl rfl hno ?_ ?_, ?_⟩
  · rw [hpay, ← hlen]
    exact hle
  · rw [hpay, ← hlen]
    exact hpos
  -- the emptied message stays in front until the user thread lets go of it
  refine ⟨?_, ms₁ ++ [m], ms₂, (a'.strmout i).outqueue.take
    ((a'.strmout i).outqueue.length - sps.length), sps, cs₁ ++ (cs₂ ++ [c]), [], by simp, by simp,
    hfr.concat hfrags, ?_, ?_, ?_, pendingQueue_of_untaken hrest _⟩
  · rw [putChunk_streamNo, hno]
  · rw [putChunk_outqueue, hq]
    split_ifs <;> simp
  · rw [putChunk_outqueue, hq]
    split_ifs <;> simp
  · rw [putChunk_nextSequenceSend, hafter, hseq]
    change (if true && !sp.unordered then _ else _) = _
    rw [hp.unordered]
    cases m.unordered <;> rfl

/-- One call on a stream keeps `StreamCut`. -/
theorem StreamCut.moveFirst (cfg : OutConfig) (h : StreamCut i ssn ms (a.strmout i) cs)
    (hms : ∀ m ∈ ms, m.stream = i) {call : MoveCall} (hc : call.Succeeds) :
    ∃ new, MoveStep call a (moveFirst cfg call a i).assoc i new ∧
      StreamCut i ssn ms ((Sctp.moveFirst cfg call a i).assoc.strmout i) (cs ++ new) := by
  obtain ⟨hno, ms₁, ms₂, spent, sps, cs₁, cs₂, rfl, rfl, hfr, hq, hspent, hseq, hpend⟩ := h
  have same : StreamCut i ssn (ms₁ ++ ms₂) (a.strmout i) (cs₁ ++ cs₂) :=
    ⟨hno, ms₁, ms₂, spent, sps, cs₁, cs₂, rfl, rfl, hfr, hq, hspent, hseq, hpend⟩
  cases spent with
  | cons z spent =>
    have hz : z.length = 0 := hspent z List.mem_cons_self
    rw [List.cons_append] at hq
    refine ⟨[], ?_, ?_⟩
    · unfold Sctp.moveFirst
      simp only [hq, hz, if_true]
      exact MoveStep.none rfl rfl
    · unfold Sctp.moveFirst
      simp only [hq, hz, if_true, List.append_nil]
      exact same
  | nil =>
    rw [List.nil_append] at hq
    cases sps with
    | nil =>
      refine ⟨[], ?_, ?_⟩
      · unfold Sctp.moveFirst
        simp only [hq]
        exact MoveStep.none rfl rfl
      · unfold Sctp.moveFirst
        simp only [hq, setStream_strmout, if_true, List.append_nil]
        exact ⟨hno, ms₁, ms₂, [], [], cs₁, cs₂, rfl, rfl, hfr, rfl, hspent, hseq, hpend⟩
    | cons sp sps =>
      cases ms₂ with
      | nil => exact hpend.elim
      | cons m ms₂ =>
        obtain ⟨hp, hrest⟩ := hpend
        have hpos := hp.pos
        have hm : m.stream = i := hms m (by simp)
        have hmove : Sctp.moveFirst cfg call a i = moveHead cfg call a i sp := by
          unfold Sctp.moveFirst
          simp only [hq]
          rw [if_neg (by omega), hp.keep, if_neg (by decide), closeIf_of_complete hp.complete]
        rw [hmove, moveHead_complete cfg a i hc hp.complete]
        split_ifs with hle hz
        · exact ⟨_, StreamCut.cutLast hno hfr hq hseq hp hrest hm hle⟩
        · refine ⟨[], MoveStep.none rfl rfl, ?_⟩
          have hset : ((a.setHead i sp).strmout i) = a.strmout i := by
            simp only [OutAssoc.setHead, setStream_strmout, if_true, hq, List.tail_cons]
            rw [← hq]
          rw [List.append_nil]
          change StreamCut i ssn _ ((a.setHead i sp).strmout i) _
          rw [hset]
          exact same
        · exact ⟨_, StreamCut.cutMiddle hno hfr hq hseq hp hrest hm (by omega) hz⟩

theorem StreamCut.senderDone (h : StreamCut i ssn ms (a.strmout i) cs) (id : ℕ) :
    StreamCut i ssn ms ((senderDone a i id).strmout i) cs := by
  obtain ⟨hno, ms₁, ms₂, spent, sps, cs₁, cs₂, rfl, rfl, hfr, hq, hspent, hseq, hpend⟩ := h
  let f := fun sp : StreamQueuePending =>
    if sp.id = id then { sp with senderAllDone := true } else sp
  have hf : ∀ ssn m sp cs, Pending ssn m sp cs → Pending ssn m (f sp) cs := by
    intro ssn m sp cs hp
    dsimp only [f]
    split_ifs
    · exact ⟨hp.frags, hp.length_eq, hp.pos, hp.complete, hp.taken, hp.keep, hp.stream,
        hp.unordered, hp.ppid⟩
    · exact hp
  have hlen : ∀ sp, (f sp).length = sp.length := by
    intro sp
    dsimp only [f]
    split_ifs <;> rfl
  unfold Sctp.senderDone
  rw [setStream_strmout, if_pos rfl]
  refine ⟨hno, ms₁, ms₂, spent.map f, sps.map f, cs₁, cs₂, rfl, rfl, hfr, ?_, ?_, hseq, ?_⟩
  · simp only [hq, List.map_append, f]
  · intro sp hsp
    obtain ⟨sp', hsp', rfl⟩ := List.mem_map.mp hsp
    rw [hlen]
    exact hspent sp' hsp'
  · cases ms₂ with
    | nil =>
      cases sps with
      | nil => exact hpend
      | cons sp sps => exact hpend.elim
    | cons m ms₂ =>
      cases sps with
      | nil => exact hpend.elim
      | cons sp sps =>
        refine ⟨hf _ _ _ _ hpend.1, ?_⟩
        rw [List.forall₂_map_right_iff]
        exact hpend.2.imp fun m sp hu ssn => hf _ _ _ _ (hu ssn)

end cut

/-- All queues hold complete messages that nothing has been taken of. -/
structure CompleteQueues (a : OutAssoc) : Prop where
  streamNo : ∀ i, (a.strmout i).streamNo = i
  message : ∀ i, ∀ sp ∈ (a.strmout i).outqueue, sp.length = sp.data.flatten.length ∧
    0 < sp.length ∧ sp.msgIsComplete = true ∧ sp.someTaken = false ∧ sp.discardRest = false ∧
    sp.stream = i

theorem CompleteQueues.streamCut {a : OutAssoc} (h : CompleteQueues a) (i : StreamNo) :
    StreamCut i (a.strmout i).nextSequenceSend (a.strmout i).outqueue (a.strmout i) [] := by
  refine ⟨h.streamNo i, [], (a.strmout i).outqueue, [], (a.strmout i).outqueue, [], [], rfl, rfl,
    rfl, rfl, by simp, rfl, pendingQueue_of_untaken ?_ _⟩
  rw [List.forall₂_same]
  intro sp hsp ssn
  obtain ⟨h1, h2, h3, h4, h5, -⟩ := h.message i sp hsp
  exact ⟨Fragments.nil sp ssn, h1, h2, h3, by simp [h4], h5, rfl, rfl, rfl⟩

/-- The send queue since `a`, and how far each stream has come. -/
structure CutSince (a a' : OutAssoc) (new : List TmitChunk) : Prop where
  sendQueue : a'.sendQueue = a.sendQueue ++ new
  sendingSeq : a'.sendingSeq = Serial.advance a.sendingSeq new.length
  tsn : ∀ k c, new[k]? = some c → c.tsn = Serial.advance a.sendingSeq k
  stream : ∀ i, StreamCut i (a.strmout i).nextSequenceSend (a.strmout i).outqueue (a'.strmout i)
    (new.filter fun c => c.streamId == i)

section run
variable (cfg : OutConfig) {a a' : OutAssoc} {new : List TmitChunk}

theorem CutSince.move (ha : CompleteQueues a) (h : CutSince a a' new) (i : StreamNo)
    {call : MoveCall} (hc : call.Succeeds) :
    ∃ add, MoveStep call a' (moveToOutqueue cfg call a' i).assoc i add ∧
      CutSince a (moveToOutqueue cfg call a' i).assoc (new ++ add) := by
  have hms : ∀ m ∈ (a.strmout i).outqueue, m.stream = i := fun m hm =>
    (ha.message i m hm).2.2.2.2.2
  obtain ⟨add, hstep, hcut⟩ := (h.stream i).reap.moveFirst cfg hms hc
  have hstep : MoveStep call a' (moveToOutqueue cfg call a' i).assoc i add := by
    obtain ⟨h1, h2, h3, h4, h5, h6⟩ := hstep
    simp only [reapFinished_sendQueue, reapFinished_sendingSeq] at h1 h2 h3
    exact ⟨h1, h2, h3, h4, h5, h6⟩
  refine ⟨add, hstep, ?_, ?_, ?_, ?_⟩
  · rw [hstep.sendQueue, h.sendQueue, List.append_assoc]
  · rw [hstep.sendingSeq, h.sendingSeq, Serial.advance_add, List.length_append]
  · intro k c hk
    rcases Nat.lt_or_ge k new.length with hlt | hge
    · rw [List.getElem?_append_left hlt] at hk
      exact h.tsn k c hk
    · rw [List.getElem?_append_right hge] at hk
      rw [hstep.tsn _ c hk, h.sendingSeq, Serial.advance_add, Nat.add_sub_cancel' hge]
  · intro j
    rw [List.filter_append]
    by_cases hj : j = i
    · subst hj
      have hadd : add.filter (fun c => c.streamId == j) = add :=
        List.filter_eq_self.mpr fun c hc => by simpa using hstep.streamId c hc
      rw [hadd]
      exact hcut
    · have hadd : add.filter (fun c => c.streamId == j) = [] := by
        rw [List.filter_eq_nil_iff]
        intro c hc
        rw [hstep.streamId c hc, beq_iff_eq]
        exact fun he => hj he.symm
      rw [hadd, List.append_nil, moveToOutqueue_strmout cfg a' i call hj]
      exact h.stream j

theorem CutSince.senderDone (h : CutSince a a' new) (i : StreamNo) (id : ℕ) :
    CutSince a (senderDone a' i id) new := by
  refine ⟨h.sendQueue, h.sendingSeq, h.tsn, ?_⟩
  intro j
  by_cases hj : j = i
  · subst hj
    exact (h.stream j).senderDone id
  · have : (Sctp.senderDone a' i id).strmout j = a'.strmout j := by
      unfold Sctp.senderDone
      rw [setStream_strmout, if_neg hj]
    rw [this]
    exact h.stream j

theorem moveRun_concat (evs : List MoveEvent) (ev : MoveEvent) :
    moveRun cfg a (evs ++ [ev]) = ev.apply cfg (moveRun cfg a evs) := by
  simp [moveRun]

theorem cutSince_moveRun (ha : CompleteQueues a) (evs : List MoveEvent)
    (hevs : ∀ ev ∈ evs, ev.Succeeds) : ∃ new, CutSince a (moveRun cfg a evs) new := by
  induction evs using List.reverseRecOn with
  | nil =>
    exact ⟨[], by simp [moveRun], by simp [moveRun], by simp, fun i => ha.streamCut i⟩
  | append_singleton evs ev ih =>
    obtain ⟨new, hnew⟩ := ih fun e he => hevs e (List.mem_append_left _ he)
    rw [moveRun_concat]
    cases ev with
    | move i call =>
      obtain ⟨add, -, h⟩ := hnew.move cfg ha i (hevs (.move i call) (by simp))
      exact ⟨_, h⟩
    | senderDone i id => exact ⟨new, hnew.senderDone i id⟩

/-- A drained stream has led to the fragments of all its messages. -/
theorem StreamCut.drained {i : StreamNo} {ssn : Ssn} {ms : List StreamQueuePending}
    {strq : StreamOut} {cs : List TmitChunk} (h : StreamCut i ssn ms strq cs)
    (hd : ∀ sp ∈ strq.outqueue, sp.length = 0) :
    Fragmented ssn ms cs ∧ strq.nextSequenceSend = ssnAfter ssn ms := by
  obtain ⟨-, ms₁, ms₂, spent, sps, cs₁, cs₂, rfl, rfl, hfr, hq, -, hseq, hpend⟩ := h
  cases sps with
  | nil =>
    cases ms₂ with
    | nil =>
      obtain rfl : cs₂ = [] := hpend
      simpa using ⟨hfr, hseq⟩
    | cons m ms₂ => exact hpend.elim
  | cons sp sps =>
    cases ms₂ with
    | nil => exact hpend.elim
    | cons m ms₂ =>
      have hpos := hpend.1.pos
      have := hd sp (by simp [hq])
      omega

end run

/-- The payload a chunk may have when its call got the value of `sctp_get_frag_point`. -/
theorem FragConfig.payload_le (fc : FragConfig) {n f : ℕ} (hf : (f : ℤ) = fc.getFragPoint)
    (hpos : 0 < n) (hn : n ≤ f) :
    n + (fc.overhead + fc.authChunkLen.getD 0) ≤ min fc.sctpFragPoint fc.smallestMtu := by
  unfold getFragPoint at hf
  simp only at hf
  generalize hz : (if fc.sctpFragPoint > fc.smallestMtu then
    (fc.smallestMtu : ℤ) - fc.overhead else fc.sctpFragPoint - fc.overhead) -
      (fc.authChunkLen.getD 0 : ℕ) = z at hf
  have hle : (f : ℤ) ≤ z := by
    rcases Int.le_total 0 z with h | h
    · have := Int.tmod_nonneg 4 h
      omega
    · have h1 := Int.tmod_add_mul_tdiv z 4
      have h2 : 0 ≤ (-z).tdiv 4 := Int.tdiv_nonneg (by omega) (by norm_num)
      rw [Int.neg_tdiv] at h2
      omega
  split_ifs at hz with hc <;> omega

def appended (a a' : OutAssoc) : List TmitChunk := a'.sendQueue.drop a.sendQueue.length

/-- A message of three mbufs and an unordered one behind it, on stream 0. -/
def twoMessages : OutAssoc where
  strmout i :=
    { outqueue := if i = 0 then [message 1 [[1], [], [2, 3]] false, message 2 [[9]] true] else []
      streamNo := i, nextSequenceSend := 0xffff, chunksOnQueues := 0, lastMsgIncomplete := false }
  lockedOnSending := none
  sendQueue := []
  sendingSeq := 7
  sendQueueCnt := 0
  chunksOnOutQueue := 0
  streamQueueCnt := 2
  prSctpCnt := 0
  totalOutputQueueSize := 4
where
  message (id : ℕ) (data : List (List Byte)) (unordered : Bool) : StreamQueuePending :=
    { id := id, data := data, length := data.flatten.length, stream := 0, ppid := 0, context := 0
      ts := 0, unordered := unordered, eof := false, sackImmediately := false, actFlags := 0
      net := none, msgId := 0, fsn := 0, msgIsComplete := true, someTaken := false
      senderAllDone := true, putLastOut := false, discardRest := false }

def plainConfig : OutConfig where
  peerSupportsNdata := false
  explicitEor := false
  closedSocket := false
  enableSackImmediately := false
  sbLimitSnd := 65536
  minResidual := 1452
  minSplitPoint := 2904

def moveCall (fragPoint : ℕ) : MoveCall where
  goalMtu := 1452
  fragPoint := fragPoint
  eeorMode := false
  totalFlight := 0
  chunkAllocFails := false
  copyFails := false
  leadingSpace := 0
  mbufAllocFails := false
  padFails := false

theorem moveCall_succeeds (fragPoint : ℕ) : (moveCall fragPoint).Succeeds := ⟨rfl, rfl, rfl⟩

end Sctp
