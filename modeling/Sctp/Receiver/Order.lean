import Sctp.Receiver.Run
import Sctp.Receiver.Sequence

/-! The order in which messages reach the user: the ordered messages of each stream are read by their
stream sequence numbers, from 0 on and without a gap, in whatever order their chunks arrive. -/
namespace Sctp

namespace Receiver

/-- The controls of an association by their numbers. -/
structure Keyed (names : ℕ → MsgKey) (s : Receiver) : Prop where
  read : ∀ d ∈ s.readQueue, d.Named names s.nextId
  strmin : ∀ strmno, (s.strmin strmno).Keyed names s.nextId strmno

structure NoReset (s : Receiver) : Prop where
  head : s.resetHead = []
  pending : s.pendingReplyQueue = []

/-- Messages enter the read queue, the ordered ones of each stream by their numbers. -/
structure Enters (s t : Receiver) : Prop where
  nextId : s.nextId ≤ t.nextId
  entered : ∃ keys, t.readQueue.map Control.key = s.readQueue.map Control.key ++ keys ∧
    ∀ strmno, ∃ m, ssns strmno keys = numbersBehind (s.strmin strmno).lastSequenceDelivered m ∧
      (t.strmin strmno).lastSequenceDelivered =
        (s.strmin strmno).lastSequenceDelivered + BitVec.ofNat 16 m

variable {names names' names'' : ℕ → MsgKey} {s t u : Receiver} {strmno : StreamNo}

theorem Enters.of_same (hnext : s.nextId ≤ t.nextId)
    (hread : t.readQueue.map Control.key = s.readQueue.map Control.key)
    (hlast : ∀ strmno, (t.strmin strmno).lastSequenceDelivered =
      (s.strmin strmno).lastSequenceDelivered) : Enters s t := by
  refine ⟨hnext, [], ?_, fun strmno => ⟨0, rfl, ?_⟩⟩
  · rw [hread, List.append_nil]
  · rw [hlast]
    exact (BitVec.add_zero _).symm

theorem Enters.trans (h : Enters s t) (h' : Enters t u) : Enters s u := by
  obtain ⟨hnext, keys, hread, hlast⟩ := h
  obtain ⟨hnext', keys', hread', hlast'⟩ := h'
  refine ⟨hnext.trans hnext', keys ++ keys', ?_, fun strmno => ?_⟩
  · rw [hread', hread, List.append_assoc]
  · obtain ⟨m, hssns, hlast⟩ := hlast strmno
    obtain ⟨m', hssns', hlast'⟩ := hlast' strmno
    refine ⟨m + m', ?_, ?_⟩
    · rw [ssns_append, hssns, hssns', hlast, numbersBehind_add]
    · rw [hlast', hlast, BitVec.ofNat_add, BitVec.add_assoc]

/-- A step without stream resets; new controls get numbers that were free. -/
structure Advances (names names' : ℕ → MsgKey) (s t : Receiver) : Prop where
  agrees : ∀ id < s.nextId, names' id = names id
  keyed : t.Keyed names'
  noReset : t.NoReset
  enters : Enters s t

theorem Advances.trans (h : Advances names names' s t) (h' : Advances names' names'' t u) :
    Advances names names'' s u := by
  refine ⟨fun id hid => ?_, h'.keyed, h'.noReset, h.enters.trans h'.enters⟩
  rw [h'.agrees id (hid.trans_le h.enters.nextId), h.agrees id hid]

theorem Keyed.onStream (h : s.Keyed names) (strmno : StreamNo) :
    (s.onStream strmno).Keyed names strmno :=
  ⟨h.read, h.strmin strmno⟩

/-- The maps do not matter here. -/
theorem Keyed.mapped (h : s.Keyed names) (hnone : s.NoReset) (m : TsnMap) :
    Advances names names s { s with toTsnMap := m } :=
  ⟨fun _ _ => rfl, ⟨h.read, h.strmin⟩, ⟨hnone.head, hnone.pending⟩, .of_same le_rfl rfl fun _ => rfl⟩

/-- What happens on one stream leaves the others alone. -/
theorem Keyed.setAt (hs : s.Keyed names) (hnone : s.NoReset) {x : StreamRx}
    (hx : StreamRx.Advances names names' strmno (s.onStream strmno) x) :
    Advances names names' s (s.setAt strmno x) := by
  obtain ⟨hagrees, hkeyed, hnext, keys, m, hread, hstream, hssns, hlast⟩ := hx
  refine ⟨hagrees, ⟨hkeyed.read, fun other => ?_⟩, ⟨hnone.head, hnone.pending⟩, hnext, keys, hread,
    fun other => ?_⟩
  · change StreamIn.Keyed names' x.nextId other (Function.update s.strmin strmno x.strm other)
    obtain rfl | hother := eq_or_ne other strmno
    · rw [Function.update_self]
      exact hkeyed.strm
    · rw [Function.update_of_ne hother]
      exact (hs.strmin other).mono hnext hagrees
  · change ∃ m, _ ∧ (Function.update s.strmin strmno x.strm other).lastSequenceDelivered = _
    obtain rfl | hother := eq_or_ne other strmno
    · rw [Function.update_self]
      exact ⟨m, hssns, hlast⟩
    · rw [Function.update_of_ne hother, ssns_other hstream hother.symm]
      exact ⟨0, rfl, (BitVec.add_zero _).symm⟩

variable {cfg : RecvConfig} {ch : DataChunk}

theorem deliver_advances (hs : s.Keyed names) (hnone : s.NoReset) (h : s.deliver cfg strmno = .ok t) :
    ∃ names', Advances names names' s t := by
  obtain ⟨r, hr, rfl⟩ := Attempt.map_ok h
  obtain ⟨names', hadvances⟩ := deliverReasmCheck_advances (hs.onStream strmno) hr
  exact ⟨names', hs.setAt hnone hadvances⟩

theorem finish_advances {need : Bool} (hs : s.Keyed names) (hnone : s.NoReset)
    (h : s.finish cfg ch need = .ok t) : ∃ names', Advances names names' s t := by
  have hbumped := hs.mapped hnone (s.toTsnMap.bumpCumAck ch.tsn)
  unfold finish at h
  dsimp only at h
  split at h
  · rename_i hhead
    cases hnone.head.symm.trans hhead
  · split at h
    · obtain ⟨names', hdelivered⟩ := deliver_advances hbumped.keyed hbumped.noReset h
      exact ⟨names', hbumped.trans hdelivered⟩
    · cases h
      exact ⟨names, hbumped⟩

/-- A step before the end of the function. -/
theorem Advances.finish {need : Bool} (h : Advances names names' s t) (hu : t.finish cfg ch need = .ok u) :
    ∃ names'', Advances names names'' s u := by
  obtain ⟨names'', hfinished⟩ := finish_advances h.keyed h.noReset hu
  exact ⟨names'', h.trans hfinished⟩

/-- The control that is made for the chunk, with the names of the controls from then on. -/
def newNames (names : ℕ → MsgKey) (s : Receiver) (ch : DataChunk) : ℕ → MsgKey :=
  Function.update names s.nextId (ch.buildReadqEntryMac s.nextId).key

theorem newNames_agrees (names : ℕ → MsgKey) (s : Receiver) (ch : DataChunk) :
    ∀ id < s.nextId, s.newNames names ch id = names id :=
  fun _ hid => Function.update_of_ne hid.ne _ _

theorem buildReadqEntryMac_placed (names : ℕ → MsgKey) (s : Receiver) (hdata : ch.data ≠ []) :
    (ch.buildReadqEntryMac s.nextId).Placed (s.newNames names ch) (s.nextId + 1) ch.streamId
      ch.chunkFlags.unordered := by
  refine ⟨⟨Nat.lt_succ_self _, ?_⟩, rfl, rfl, fun _ hwhole => ?_, fun chk hc => absurd hc List.not_mem_nil⟩
  · exact (Function.update_self s.nextId _ names).symm
  · obtain hwhole | hfirst := hwhole
    · have hcopied : (ch.buildReadqEntryMac s.nextId).data = ch.data := if_pos hwhole
      rw [hcopied]
      exact hdata
    · cases hfirst

/-- A control is made. -/
theorem Keyed.make (hs : s.Keyed names) (hnone : s.NoReset) (ch : DataChunk) :
    Advances names (s.newNames names ch) s { s with nextId := s.nextId + 1 } := by
  have hagrees := newNames_agrees names s ch
  refine ⟨hagrees, ⟨fun d hd => ?_, fun strmno => ?_⟩, ⟨hnone.head, hnone.pending⟩,
    .of_same (Nat.le_succ _) rfl fun _ => rfl⟩
  · exact (hs.read d hd).mono (Nat.le_succ _) hagrees
  · exact (hs.strmin strmno).mono (Nat.le_succ _) hagrees

theorem queueTo_advances {control : Control} {r : Receiver × Bool} (hs : s.Keyed names)
    (hnone : s.NoReset) (hc : control.Placed names s.nextId strmno false) (hdata : control.data ≠ [])
    (h : s.queueTo cfg strmno control = .ok r) : Advances names names s r.1 := by
  obtain ⟨x, hx, rfl⟩ := Attempt.map_ok h
  exact hs.setAt hnone (queueDataToStream_advances (hs.onStream strmno) hc hdata hx)

theorem setAt_same (s : Receiver) (strmno : StreamNo) (asoc : RecvAsoc) :
    s.setAt strmno ⟨asoc, s.strmin strmno⟩ = { s with toRecvAsoc := asoc } := by
  rw [setAt, Function.update_eq_self]

/-- An unordered message goes to the read queue. -/
theorem Keyed.readUnordered {control : Control} (hs : s.Keyed names) (hnone : s.NoReset)
    (hc : control.Placed names s.nextId strmno true) (last : Bool) :
    Advances names names s { s with toRecvAsoc := s.toRecvAsoc.addToReadq control last } := by
  rw [← setAt_same s strmno]
  apply hs.setAt hnone
  exact (hs.onStream strmno).readUnordered hc.named hc.stream hc.flag last (hs.strmin strmno) rfl

/-- Express delivery takes an unordered message, or the next one of the stream. -/
theorem expressDelivered_advances {control : Control} (gap : ℕ) (hs : s.Keyed names)
    (hnone : s.NoReset) (hc : control.Placed names s.nextId ch.streamId ch.chunkFlags.unordered)
    (hdata : control.data ≠ []) (hssn : control.sinfoSsn = ch.streamSequence)
    (h : s.express ch = true) : Advances names names s (s.expressDelivered ch gap control) := by
  have hmarked := hs.mapped hnone (s.toTsnMap.setNrPresent ch.tsn gap)
  apply hmarked.trans
  apply hmarked.keyed.setAt hmarked.noReset
  cases hflag : ch.chunkFlags.unordered with
  | true =>
    rw [hflag] at hc
    simp only [DataChunk.ordered, hflag]
    exact (hmarked.keyed.onStream ch.streamId).readUnordered hc.named hc.stream hc.flag true
      (hs.strmin ch.streamId) rfl
  | false =>
    rw [hflag] at hc
    unfold express at h
    simp only [DataChunk.ordered, hflag, Bool.and_eq_true, Bool.not_false, Bool.not_true, Bool.false_or,
      beq_iff_eq] at h
    simp only [DataChunk.ordered, hflag]
    exact (hmarked.keyed.onStream ch.streamId).readNext hc hdata (hssn.trans h.2.1.symm) true rfl rfl

theorem storeWhole_advances {gap : ℕ} (hs : s.Keyed names) (hnone : s.NoReset) (hdata : ch.data ≠ [])
    (hwhole : ch.chunkFlags.notFrag = true) (h : s.storeWhole cfg ch gap = .ok t) :
    ∃ names', Advances names names' s t := by
  have hcontrol := buildReadqEntryMac_placed names s hdata
  have hcopied : (ch.buildReadqEntryMac s.nextId).data ≠ [] := by
    have hcopied : (ch.buildReadqEntryMac s.nextId).data = ch.data := if_pos hwhole
    rw [hcopied]
    exact hdata
  have hmade := hs.make hnone ch
  have hmarked := hmade.trans (hmade.keyed.mapped hmade.noReset
    (s.toRecvAsoc.markChunk cfg.doDrain ch.tsn gap).toTsnMap)
  unfold storeWhole at h
  dsimp only at h
  split at h
  · rename_i hexpress
    exact (hmade.trans (expressDelivered_advances gap hmade.keyed hmade.noReset hcontrol hcopied rfl
      hexpress)).finish h
  · split at h
    · rename_i hparks
      unfold parks at hparks
      rw [hnone.head] at hparks
      cases hparks
    · split at h
      · rename_i hunordered
        rw [hunordered] at hcontrol
        have hrevoked := hmarked.trans (hmarked.keyed.mapped hmarked.noReset
          (TsnMap.markNonRevokable cfg.doDrain
            (s.toRecvAsoc.markChunk cfg.doDrain ch.tsn gap).toTsnMap ch.tsn))
        exact (hrevoked.trans (hrevoked.keyed.readUnordered hrevoked.noReset hcontrol true)).finish h
      · rename_i hordered
        rw [Bool.eq_false_iff.2 hordered] at hcontrol
        obtain ⟨r, hr, h⟩ := Attempt.bind_ok h
        exact (hmarked.trans (queueTo_advances hmarked.keyed hmarked.noReset hcontrol hcopied hr)).finish h

theorem recvChunk_fits (hdata : ch.data ≠ []) :
    ch.recvChunk.Fits ch.streamId ch.chunkFlags.unordered :=
  ⟨rfl, rfl, hdata⟩

/-- The control of a fragment that is not the first of its message. -/
theorem entry_placed {control : Control} (hs : s.Keyed names) (h : s.entry ch = some control) :
    control.Placed names s.nextId ch.streamId ch.chunkFlags.unordered := by
  unfold entry at h
  split at h
  · cases h
  · have hstrm := hs.strmin ch.streamId
    unfold StreamIn.findReasmEntry at h
    cases hflag : ch.chunkFlags.unordered with
    | false =>
      simp only [DataChunk.ordered, hflag, Bool.not_false, if_true] at h
      exact hstrm.inqueue control (List.mem_of_find?_eq_some h)
    | true =>
      simp only [DataChunk.ordered, hflag, Bool.not_true, Bool.false_eq_true, if_false] at h
      split at h
      · exact hstrm.unoInqueue control (List.mem_of_mem_head? (Option.mem_filter_iff.1 h).1)
      · exact hstrm.unoInqueue control (List.mem_of_find?_eq_some h)

theorem storeFragment_advances {gap : ℕ} (hs : s.Keyed names) (hnone : s.NoReset) (hdata : ch.data ≠ [])
    (h : s.storeFragment cfg ch gap (s.entry ch) = .ok t) : ∃ names', Advances names names' s t := by
  obtain ⟨x, hx, h⟩ := Attempt.bind_ok h
  have hchk := recvChunk_fits hdata
  cases hentry : s.entry ch with
  | none =>
    rw [hentry] at hx h
    have hmade := hs.make hnone ch
    have hmarked := hmade.trans (hmade.keyed.mapped hmade.noReset
      (s.toRecvAsoc.markChunk cfg.doDrain ch.tsn gap).toTsnMap)
    exact (hmarked.trans (hmarked.keyed.setAt hmarked.noReset
      (queueDataForReasm_advances (hmarked.keyed.onStream ch.streamId)
        (buildReadqEntryMac_placed names s hdata) hchk hx))).finish h
  | some control =>
    rw [hentry] at hx h
    have hmarked := hs.mapped hnone (s.toRecvAsoc.markChunk cfg.doDrain ch.tsn gap).toTsnMap
    exact (hmarked.trans (hmarked.keyed.setAt hmarked.noReset
      (queueDataForReasm_advances (hmarked.keyed.onStream ch.streamId) (entry_placed hs hentry)
        hchk hx))).finish h

theorem accept_advances {env : ChunkEnv} {gap : ℕ} {r : Receiver × ChunkDone} (hs : s.Keyed names)
    (hnone : s.NoReset) (hdata : ch.data ≠ []) (h : s.accept env ch gap = .ok r) :
    ∃ names', Advances names names' s r.1 := by
  unfold accept at h
  split at h
  · cases h
    exact ⟨names, hs.mapped hnone _⟩
  · split at h
    · cases h
    · split at h
      · cases h
        exact ⟨names, hs.mapped hnone s.toTsnMap⟩
      · split at h
        · cases h
        · obtain ⟨u, hu, rfl⟩ := Attempt.map_ok h
          split at hu
          · rename_i hwhole
            exact storeWhole_advances hs hnone hdata hwhole hu
          · exact storeFragment_advances hs hnone hdata hu

end Receiver

/-- What `sctp_process_a_data_chunk` does to the order. -/
theorem DataReceiver.processADataChunk_advances {names : ℕ → MsgKey} {env : ChunkEnv}
    {s : DataReceiver} {ch : DataChunk} {r : DataReceiver × ChunkDone}
    (hs : s.toReceiver.Keyed names) (hnone : s.toReceiver.NoReset) (hdata : ch.data ≠ [])
    (h : s.processADataChunk env ch = .ok r) :
    ∃ names', Receiver.Advances names names' s.toReceiver r.1.toReceiver := by
  have hstay := hs.mapped hnone s.toTsnMap
  unfold processADataChunk at h
  dsimp only at h
  split at h
  · cases h
    exact ⟨names, hstay⟩
  · split at h
    · cases h
      exact ⟨names, hstay⟩
    · have hreach := hs.mapped hnone
        (s.toTsnMap.reach (calcTsnToGap ch.tsn s.mappingArrayBaseTsn).toNat)
      split at h
      · cases h
        exact ⟨names, hreach⟩
      · split at h
        · cases h
        · obtain ⟨r', hr', rfl⟩ := Attempt.map_ok h
          obtain ⟨names', haccepted⟩ := Receiver.accept_advances hreach.keyed hreach.noReset hdata
            (Attempt.mapError_ok hr')
          exact ⟨names', hreach.trans haccepted⟩

/-- The receiver and its user; what was taken is no field of the source. -/
structure UserRun extends RecvRun where
  /-- The messages that the user took, in this order. -/
  taken : List Control

namespace RecvEvent

def takes (readQueue : List Control) : RecvEvent → List Control
  | .read n => readQueue.take n
  | _ => []

/-- No stream is reset. `sctp_process_data` lets no chunk without data through. -/
def Plain : RecvEvent → Prop
  | .chunk _ ch => ch.data ≠ []
  | .resetRequest _ => False
  | _ => True

end RecvEvent

def userStep (s : UserRun) (e : RecvEvent) : Option UserRun :=
  (recvStep s.toRecvRun e).map fun t =>
    { toRecvRun := t, taken := s.taken ++ e.takes s.readQueue }

def userRun : UserRun → List RecvEvent → Option UserRun := Trace.run userStep

namespace UserRun

/-- Nothing was delivered, and nothing waits. -/
structure Begins (s : UserRun) : Prop where
  read : s.readQueue = []
  taken : s.taken = []
  strmin : ∀ strmno, (s.strmin strmno).inqueue = [] ∧ (s.strmin strmno).unoInqueue = [] ∧
    (s.strmin strmno).unoPd = none ∧ (s.strmin strmno).lastSequenceDelivered = 0xffff
  noReset : s.toReceiver.NoReset

/-- The ordered messages of the stream that the user took, and behind them those on the read queue. -/
def ordered (s : UserRun) (strmno : StreamNo) : List Ssn :=
  ssns strmno ((s.taken ++ s.readQueue).map Control.key)

/-- What holds in every state of a run without stream resets. -/
structure InOrder (s : UserRun) : Prop where
  keyed : ∃ names, s.toReceiver.Keyed names
  noReset : s.toReceiver.NoReset
  order : ∀ strmno, ∃ m, s.ordered strmno = numbersBehind 0xffff m ∧
    (s.strmin strmno).lastSequenceDelivered = 0xffff + BitVec.ofNat 16 m

variable {s t : UserRun}

theorem Begins.inOrder (h : s.Begins) : s.InOrder := by
  refine ⟨⟨fun _ => ⟨0, 0, false, 0, 0, false⟩, ?_, fun strmno => ?_⟩, h.noReset, fun strmno => ⟨0, ?_, ?_⟩⟩
  · rw [h.read]
    exact fun d hd => absurd hd List.not_mem_nil
  · obtain ⟨hin, huno, hpd, -⟩ := h.strmin strmno
    constructor
    · rw [hin]
      exact fun c hc => absurd hc List.not_mem_nil
    · rw [huno]
      exact fun c hc => absurd hc List.not_mem_nil
    · rw [hpd]
      exact fun c hc => nomatch hc
  · rw [ordered, h.read, h.taken]
    rfl
  · rw [(h.strmin strmno).2.2.2]
    exact (BitVec.add_zero _).symm

/-- What enters the read queue continues the order. -/
theorem InOrder.advance (h : s.InOrder) (hadvances : ∀ names,
    s.toReceiver.Keyed names → ∃ names', Receiver.Advances names names' s.toReceiver t.toReceiver)
    (htaken : t.taken = s.taken) : t.InOrder := by
  obtain ⟨names, hkeyed⟩ := h.keyed
  obtain ⟨names', -, hkeyed', hnone, -, keys, hread, hlast⟩ := hadvances names hkeyed
  refine ⟨⟨names', hkeyed'⟩, hnone, fun strmno => ?_⟩
  obtain ⟨m, hordered, hdelivered⟩ := h.order strmno
  obtain ⟨m', hssns, hlast'⟩ := hlast strmno
  refine ⟨m + m', ?_, ?_⟩
  · rw [ordered, htaken, List.map_append, hread, ← List.append_assoc, ssns_append, hssns, hdelivered,
      numbersBehind_add, ← List.map_append]
    exact congrArg (· ++ _) hordered
  · rw [hlast', hdelivered, BitVec.ofNat_add, BitVec.add_assoc]

theorem userStep_inOrder {e : RecvEvent} (h : s.InOrder) (he : e.Plain) (ht : userStep s e = some t) :
    t.InOrder := by
  obtain ⟨u, hu, rfl⟩ := Option.map_eq_some_iff.1 ht
  cases e with
  | chunk env ch =>
    obtain ⟨r, hr, rfl⟩ := Attempt.map_ok (RecvRun.recvStep_chunk hu)
    exact h.advance (fun names hkeyed => DataReceiver.processADataChunk_advances hkeyed h.noReset he hr)
      (List.append_nil _)
  | sendSack env =>
    obtain rfl := Option.some.inj hu
    exact h.advance (fun names hkeyed => ⟨names, hkeyed.mapped h.noReset _⟩) (List.append_nil _)
  | read n =>
    obtain rfl := Option.some.inj hu
    obtain ⟨names, hkeyed⟩ := h.keyed
    refine ⟨⟨names, fun d hd => hkeyed.read d (List.mem_of_mem_drop hd), hkeyed.strmin⟩,
      ⟨h.noReset.head, h.noReset.pending⟩, fun strmno => ?_⟩
    obtain ⟨m, hordered, hdelivered⟩ := h.order strmno
    refine ⟨m, ?_, hdelivered⟩
    rw [← hordered, ordered, ordered]
    change ssns strmno ((s.taken ++ s.readQueue.take n ++ s.readQueue.drop n).map Control.key) = _
    rw [List.append_assoc, List.take_append_drop]
  | resetRequest liste => exact absurd he id

theorem userRun_holds {es : List RecvEvent} (h : s.InOrder) (hes : ∀ e ∈ es, e.Plain)
    (ht : userRun s es = some t) : t.InOrder :=
  Trace.run_invariant InOrder (fun _ _ _ hs he hstep => userStep_inOrder hs he hstep) h
    (Trace.along_of_forall hes s) ht

theorem numbersBehind_first (m : ℕ) : numbersBehind 0xffff m = (List.range m).map (BitVec.ofNat 16) := by
  apply List.map_congr_left
  intro j _
  change (0 : Ssn) + BitVec.ofNat 16 j = _
  exact BitVec.zero_add _

def fresh (init : Tsn) (streamincnt : ℕ) : UserRun where
  toRecvRun := RecvRun.fresh init streamincnt
  taken := []

theorem fresh_begins (init : Tsn) (streamincnt : ℕ) : (fresh init streamincnt).Begins :=
  ⟨rfl, rfl, fun _ => ⟨rfl, rfl, rfl, rfl⟩, ⟨rfl, rfl⟩⟩

/-- The third message comes before the second, which comes in two parts that change places; the user reads
in between. -/
def shuffled : List RecvEvent :=
  let env : ChunkEnv := ⟨⟨true, 100, 4096⟩, false, 0, 65536⟩
  let ch (tsn : Tsn) (ssn : Ssn) (first last : Bool) : DataChunk :=
    ⟨tsn, 0, ssn, 0, ⟨last, first, false, false⟩, none, [1, 2, 3]⟩
  [.chunk env (ch 7 0 true true), .chunk env (ch 10 2 true true), .read 1,
    .chunk env (ch 9 1 false true), .chunk env (ch 8 1 true false), .read 1]

theorem userRun_shuffled :
    (userRun (fresh 7 1) shuffled).map (fun t => (t.taken.map (·.sinfoSsn), t.ordered 0)) =
      some ([0, 1], [0, 1, 2]) := by
  decide +kernel

end UserRun

end Sctp
