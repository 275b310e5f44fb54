import Sctp.Receiver.Intact

/-! Runs of the receiver with a peer that sends its messages in fragments: what the user is given of a
message is its beginning, and all of it when the message is complete. -/
namespace Sctp

namespace Receiver

/-- All controls hold parts of messages. -/
structure Intact (messages : List Message) (s : Receiver) : Prop where
  read : ∀ d ∈ s.readQueue, d.Intact messages
  strmin : ∀ strmno, (s.strmin strmno).Intact messages

/-- A control that waits under the number of the message is of this message. -/
def Clear (s : Receiver) (ch : DataChunk) (m : Message) : Prop :=
  ∀ c ∈ s.entry ch, (m.unordered = true ∧ m.msgId = none) ∨
    ∃ j < m.parts.length, c.sinfoTsn = m.tsn j

instance Clear.decidable (s : Receiver) (ch : DataChunk) (m : Message) : Decidable (s.Clear ch m) :=
  inferInstanceAs (Decidable (∀ c ∈ s.entry ch, (m.unordered = true ∧ m.msgId = none) ∨
    ∃ j < m.parts.length, c.sinfoTsn = m.tsn j))

variable {messages : List Message} {names : ℕ → MsgKey} {cfg : RecvConfig} {s t : Receiver}
  {strmno : StreamNo} {ch : DataChunk} {m : Message} {i : ℕ}

theorem Intact.onStream (h : s.Intact messages) (strmno : StreamNo) :
    (s.onStream strmno).Intact messages :=
  ⟨h.read, h.strmin strmno⟩

theorem Intact.setAt (h : s.Intact messages) {x : StreamRx} (hx : x.Intact messages) :
    (s.setAt strmno x).Intact messages := by
  refine ⟨hx.read, fun other => ?_⟩
  change StreamIn.Intact messages (Function.update s.strmin strmno x.strm other)
  obtain rfl | hother := eq_or_ne other strmno
  · rw [Function.update_self]
    exact hx.strm
  · rw [Function.update_of_ne hother]
    exact h.strmin other

theorem deliver_intact (hi : s.Intact messages) (hk : s.Keyed names) (hd : DistinctTsns messages)
    (hfit : PartsFit messages cfg) (h : s.deliver cfg strmno = .ok t) : t.Intact messages := by
  obtain ⟨r, hr, rfl⟩ := Attempt.map_ok h
  exact hi.setAt (deliverReasmCheck_intact (hi.onStream strmno) (hk.onStream strmno) hd hfit hr)

theorem finish_intact {need : Bool} (hi : s.Intact messages) (hk : s.Keyed names) (hnone : s.NoReset)
    (hd : DistinctTsns messages) (hfit : PartsFit messages cfg) (h : s.finish cfg ch need = .ok t) :
    t.Intact messages := by
  have hbumped : Intact messages { s with toTsnMap := s.toTsnMap.bumpCumAck ch.tsn } :=
    ⟨hi.read, hi.strmin⟩
  unfold finish at h
  dsimp only at h
  split at h
  · rename_i hhead
    cases hnone.head.symm.trans hhead
  · split at h
    · exact deliver_intact hbumped (hk.mapped hnone _).keyed hd hfit h
    · cases h
      exact hbumped

/-- The new control of a message. -/
theorem buildReadqEntryMac_waits (hch : ch.PartOf m i) (id : ℕ) : (ch.buildReadqEntryMac id).Waits m := by
  have hlt := hch.lt
  refine ⟨⟨hch.streamId, hch.streamSequence, hch.unordered, ⟨i, hlt, hch.tsn⟩, ?_⟩, hch.msgId, hch.oldData,
    hch.notFrag, fun chk hc => absurd hc List.not_mem_nil⟩
  by_cases hwhole : m.parts.length = 1
  · refine ⟨1, hwhole.ge, ?_, fun _ => hwhole.symm, ?_, ?_, ?_, fun _ => hwhole.symm⟩
    · change (if ch.chunkFlags.notFrag = true then ch.data else []) = _
      obtain rfl : i = 0 := by omega
      rw [if_pos (hch.notFrag.2 hwhole), List.take_add_one, hch.data]
      simp
    · exact fun hsplit => absurd hwhole hsplit.ne'
    · exact fun hsplit => absurd hwhole hsplit.ne'
    · exact fun hsplit => absurd hwhole hsplit.ne'
  · have hsplit : m.Split := by
      have hpos := m.nonempty
      unfold Message.Split
      omega
    refine ⟨0, .none hsplit ?_ rfl rfl⟩
    exact if_neg fun h => hwhole (hch.notFrag.1 h)

/-- The new control on which unordered fragments gather. -/
theorem buildReadqEntryMac_gathers (hm : m ∈ messages) (hch : ch.PartOf m i)
    (hunordered : m.unordered = true) (hold : m.msgId = none) (hfrag : ¬ch.chunkFlags.notFrag = true)
    (id : ℕ) : (ch.buildReadqEntryMac id).Gathers messages := by
  refine ⟨?_, if_neg hfrag, rfl, Bool.eq_false_iff.2 hfrag, hch.unordered.trans hunordered,
    ⟨m, hm, hold, i, hch.lt, hch.tsn⟩, fun chk hc => absurd hc List.not_mem_nil⟩
  change ch.oldData = true
  rw [hch.oldData, hold]
  rfl

theorem split_of_notFrag (hch : ch.PartOf m i) (hfrag : ¬ch.chunkFlags.notFrag = true) : m.Split := by
  have hpos := m.nonempty
  have hone : m.parts.length ≠ 1 := fun hone => hfrag (hch.notFrag.2 hone)
  unfold Message.Split
  omega

/-- A fragment that makes its control. -/
theorem buildReadqEntryMac_takes (hm : m ∈ messages) (hch : ch.PartOf m i)
    (hfrag : ¬ch.chunkFlags.notFrag = true) (id : ℕ) :
    (ch.buildReadqEntryMac id).Takes messages ch.recvChunk := by
  have hsplit := split_of_notFrag hch hfrag
  by_cases hold : m.unordered = true ∧ m.msgId = none
  · exact .inr ⟨buildReadqEntryMac_gathers hm hch hold.1 hold.2 hfrag id, m, hm, hold.1, hold.2, hsplit, i,
      hch.recvChunk⟩
  · refine .inl ⟨m, hm, fun hunordered => ?_, buildReadqEntryMac_waits hch id, hsplit, i, hch.recvChunk⟩
    rw [Option.isSome_iff_ne_none]
    exact fun hnone => hold ⟨hunordered, hnone⟩

theorem entry_stays {control : Control} (hi : s.Intact messages) (h : s.entry ch = some control) :
    control.Stays messages := by
  have hstrm := hi.strmin ch.streamId
  unfold entry at h
  split at h
  · cases h
  · unfold StreamIn.findReasmEntry at h
    split at h
    · exact hstrm.inqueue control (List.mem_of_find?_eq_some h)
    · split at h
      · exact hstrm.unoInqueue control (List.mem_of_mem_head? (Option.mem_filter_iff.1 h).1)
      · exact hstrm.unoInqueue control (List.mem_of_find?_eq_some h)

/-- The control on which unordered fragments gather is found by its format. -/
theorem entry_old {control : Control} (h : s.entry ch = some control)
    (hunordered : ch.chunkFlags.unordered = true) (hold : ch.oldData = true) :
    control.oldData = true := by
  unfold entry at h
  split at h
  · cases h
  · unfold StreamIn.findReasmEntry at h
    simp only [DataChunk.ordered, hunordered, hold, Bool.not_true, Bool.false_eq_true, if_false,
      if_true] at h
    exact (Option.mem_filter_iff.1 h).2

/-- A fragment that finds its control. -/
theorem entry_takes {control : Control} (hi : s.Intact messages) (hk : s.Keyed names)
    (hd : DistinctTsns messages) (hm : m ∈ messages) (hch : ch.PartOf m i) (hclear : s.Clear ch m)
    (hfrag : ¬ch.chunkFlags.notFrag = true) (hentry : s.entry ch = some control) :
    control.Takes messages ch.recvChunk := by
  have hsplit := split_of_notFrag hch hfrag
  have hflag : control.sinfoFlags.unordered = m.unordered :=
    (entry_placed hk hentry).flag.trans hch.unordered
  have hstays := entry_stays hi hentry
  by_cases hold : m.unordered = true ∧ m.msgId = none
  · have hcontrol : control.oldData = true := by
      refine entry_old hentry (hch.unordered.trans hold.1) ?_
      rw [hch.oldData, hold.2]
      rfl
    exact .inr ⟨hstays.gathers (hflag.trans hold.1) hcontrol, m, hm, hold.1, hold.2, hsplit, i,
      hch.recvChunk⟩
  · obtain hold' | ⟨j, hj, htsn⟩ := hclear control hentry
    · exact absurd hold' hold
    · obtain ⟨m', hm', hnew, hwaits⟩ | hgathers := hstays
      · obtain ⟨j', hj', htsn'⟩ := hwaits.tsn
        obtain ⟨rfl, -⟩ := hd m hm m' hm' j hj j' hj' (htsn.symm.trans htsn')
        exact .inl ⟨m, hm, hnew, hwaits, hsplit, i, hch.recvChunk⟩
      · obtain ⟨m', hm', hnone, j', hj', htsn'⟩ := hgathers.tsn
        obtain ⟨rfl, -⟩ := hd m hm m' hm' j hj j' hj' (htsn.symm.trans htsn')
        exact absurd ⟨hflag.symm.trans hgathers.unordered, hnone⟩ hold

/-- A fragment is put to its control. -/
theorem reassembled_intact {control : Control} {created : Bool} {x : StreamRx} (hi : s.Intact messages)
    (hk : s.Keyed names) (hnone : s.NoReset) (hd : DistinctTsns messages)
    (hfit : PartsFit messages cfg) (hdata : ch.data ≠ [])
    (hp : control.Placed names s.nextId ch.streamId ch.chunkFlags.unordered)
    (hc : control.Takes messages ch.recvChunk)
    (hx : queueDataForReasm cfg (s.onStream ch.streamId) control ch.recvChunk created = .ok x)
    (h : (s.setAt ch.streamId x).finish cfg ch true = .ok t) : t.Intact messages := by
  have hfits := recvChunk_fits hdata
  have hon := hk.onStream ch.streamId
  have hadvances := hk.setAt hnone (queueDataForReasm_advances hon hp hfits hx)
  have hx' := queueDataForReasm_intact (hi.onStream ch.streamId) hon hd hp hc hfits hx
  exact finish_intact (hi.setAt hx') hadvances.keyed hadvances.noReset hd hfit h

theorem storeFragment_intact {gap : ℕ} (hi : s.Intact messages) (hk : s.Keyed names) (hnone : s.NoReset)
    (hd : DistinctTsns messages) (hfit : PartsFit messages cfg) (hm : m ∈ messages)
    (hch : ch.PartOf m i) (hclear : s.Clear ch m) (hfrag : ¬ch.chunkFlags.notFrag = true)
    (hdata : ch.data ≠ []) (h : s.storeFragment cfg ch gap (s.entry ch) = .ok t) :
    t.Intact messages := by
  obtain ⟨x, hx, h⟩ := Attempt.bind_ok h
  cases hentry : s.entry ch with
  | none =>
    rw [hentry] at hx h
    have hmade := hk.make hnone ch
    have hmarked := hmade.trans (hmade.keyed.mapped hmade.noReset
      (s.toRecvAsoc.markChunk cfg.doDrain ch.tsn gap).toTsnMap)
    refine reassembled_intact ?_ hmarked.keyed hmarked.noReset hd hfit hdata
      (buildReadqEntryMac_placed names s hdata) (buildReadqEntryMac_takes hm hch hfrag s.nextId) hx h
    exact ⟨hi.read, hi.strmin⟩
  | some control =>
    rw [hentry] at hx h
    have hmarked := hk.mapped hnone (s.toRecvAsoc.markChunk cfg.doDrain ch.tsn gap).toTsnMap
    have hplaced := entry_placed hk hentry
    have htakes := entry_takes hi hk hd hm hch hclear hfrag hentry
    refine reassembled_intact ?_ hmarked.keyed hmarked.noReset hd hfit hdata hplaced htakes hx h
    exact ⟨hi.read, hi.strmin⟩

/-- A whole message on the read queue. -/
theorem buildReadqEntryMac_readq (hm : m ∈ messages) (hch : ch.PartOf m i)
    (hwhole : ch.chunkFlags.notFrag = true) (id : ℕ) :
    (RecvAsoc.readqControl (ch.buildReadqEntryMac id) true).Intact messages := by
  refine .inr ⟨m, hm, (buildReadqEntryMac_waits hch id).readq true fun _ => .inr fun hsplit => ?_⟩
  exact absurd (hch.notFrag.1 hwhole) hsplit.ne'

theorem storeWhole_intact {gap : ℕ} (hi : s.Intact messages) (hk : s.Keyed names) (hnone : s.NoReset)
    (hd : DistinctTsns messages) (hfit : PartsFit messages cfg) (hm : m ∈ messages)
    (hch : ch.PartOf m i) (hwhole : ch.chunkFlags.notFrag = true) (hdata : ch.data ≠ [])
    (h : s.storeWhole cfg ch gap = .ok t) : t.Intact messages := by
  have hread := buildReadqEntryMac_readq hm hch hwhole s.nextId
  have hcontrol := buildReadqEntryMac_placed names s hdata
  have hcopied : (ch.buildReadqEntryMac s.nextId).data ≠ [] := by
    have hcopied : (ch.buildReadqEntryMac s.nextId).data = ch.data := if_pos hwhole
    rw [hcopied]
    exact hdata
  have hmade := hk.make hnone ch
  have hmarked := hmade.trans (hmade.keyed.mapped hmade.noReset
    (s.toRecvAsoc.markChunk cfg.doDrain ch.tsn gap).toTsnMap)
  unfold storeWhole at h
  dsimp only at h
  split at h
  · rename_i hexpress
    have hdelivered :=
      expressDelivered_advances gap hmade.keyed hmade.noReset hcontrol hcopied rfl hexpress
    refine finish_intact ?_ hdelivered.keyed hdelivered.noReset hd hfit h
    refine Intact.setAt ⟨hi.read, hi.strmin⟩ ⟨RecvAsoc.addToReadq_intact hi.read hread, ?_⟩
    have hstrm := hi.strmin ch.streamId
    dsimp only
    split
    · exact ⟨hstrm.inqueue, hstrm.unoInqueue, hstrm.unoPd⟩
    · exact hstrm
  · split at h
    · rename_i hparks
      unfold parks at hparks
      rw [hnone.head] at hparks
      cases hparks
    · split at h
      · rename_i hunordered
        rw [hunordered] at hcontrol
        have hrevoked := hmarked.trans (hmarked.keyed.mapped hmarked.noReset
          (TsnMap.markNonRevokable cfg.doDrain
            (s.toRecvAsoc.markChunk cfg.doDrain ch.tsn gap).toTsnMap ch.tsn))
        have hadvances := hrevoked.keyed.readUnordered hrevoked.noReset hcontrol true
        refine finish_intact ?_ hadvances.keyed hadvances.noReset hd hfit h
        exact ⟨RecvAsoc.addToReadq_intact hi.read hread, hi.strmin⟩
      · rename_i hordered
        have hflag : m.unordered = false := hch.unordered ▸ Bool.eq_false_iff.2 hordered
        rw [Bool.eq_false_iff.2 hordered] at hcontrol
        obtain ⟨r, hr, h⟩ := Attempt.bind_ok h
        have hadvances := queueTo_advances hmarked.keyed hmarked.noReset hcontrol hcopied hr
        obtain ⟨x, hx, rfl⟩ := Attempt.map_ok hr
        have hstays : (ch.buildReadqEntryMac s.nextId).Stays messages := by
          refine .inl ⟨m, hm, fun hunordered => ?_, buildReadqEntryMac_waits hch s.nextId⟩
          rw [hflag] at hunordered
          cases hunordered
        refine finish_intact ?_ hadvances.keyed hadvances.noReset hd hfit h
        refine Intact.setAt ⟨hi.read, hi.strmin⟩ ?_
        exact queueDataToStream_intact ⟨hi.read, hi.strmin ch.streamId⟩ hstays hwhole hx

theorem accept_intact {env : ChunkEnv} {gap : ℕ} {r : Receiver × ChunkDone} (hi : s.Intact messages)
    (hk : s.Keyed names) (hnone : s.NoReset) (hd : DistinctTsns messages)
    (hfit : PartsFit messages env.toRecvConfig) (hm : m ∈ messages) (hch : ch.PartOf m i)
    (hclear : s.Clear ch m) (hdata : ch.data ≠ []) (h : s.accept env ch gap = .ok r) :
    r.1.Intact messages := by
  unfold accept at h
  split at h
  · cases h
    exact ⟨hi.read, hi.strmin⟩
  · split at h
    · cases h
    · split at h
      · cases h
        exact hi
      · split at h
        · cases h
        · obtain ⟨u, hu, rfl⟩ := Attempt.map_ok h
          split at hu
          · rename_i hwhole
            exact storeWhole_intact hi hk hnone hd hfit hm hch hwhole hdata hu
          · rename_i hfrag
            exact storeFragment_intact hi hk hnone hd hfit hm hch hclear hfrag hdata hu

end Receiver

/-- What `sctp_process_a_data_chunk` does with a chunk of the peer. -/
theorem DataReceiver.processADataChunk_intact {messages : List Message} {names : ℕ → MsgKey}
    {env : ChunkEnv} {s : DataReceiver} {ch : DataChunk} {m : Message} {i : ℕ}
    {r : DataReceiver × ChunkDone} (hi : s.toReceiver.Intact messages) (hk : s.toReceiver.Keyed names)
    (hnone : s.toReceiver.NoReset) (hd : DistinctTsns messages) (hfit : PartsFit messages env.toRecvConfig)
    (hm : m ∈ messages) (hch : ch.PartOf m i)
    (hclear : s.toTsnMap.InReach ch.tsn → s.toReceiver.Clear ch m) (hdata : ch.data ≠ [])
    (h : s.processADataChunk env ch = .ok r) : r.1.toReceiver.Intact messages := by
  unfold processADataChunk at h
  dsimp only at h
  split at h
  · cases h
    exact ⟨hi.read, hi.strmin⟩
  · rename_i hahead
    split at h
    · cases h
      exact ⟨hi.read, hi.strmin⟩
    · rename_i hnear
      split at h
      · cases h
        exact ⟨hi.read, hi.strmin⟩
      · split at h
        · cases h
        · obtain ⟨r', hr', rfl⟩ := Attempt.map_ok h
          have hreach := hk.mapped hnone
            (s.toTsnMap.reach (calcTsnToGap ch.tsn s.mappingArrayBaseTsn).toNat)
          have hclear' : Receiver.Clear { s.toReceiver with
              toTsnMap := s.toTsnMap.reach (calcTsnToGap ch.tsn s.mappingArrayBaseTsn).toNat } ch m :=
            hclear ⟨Bool.eq_false_iff.2 hahead, not_le.1 hnear⟩
          refine Receiver.accept_intact ?_ hreach.keyed hreach.noReset hd hfit hm hch hclear' hdata
            (Attempt.mapError_ok hr')
          exact ⟨hi.read, hi.strmin⟩

namespace DataChunk.PartOf

theorem iff (ch : DataChunk) (m : Message) (i : ℕ) : ch.PartOf m i ↔
    (m.parts[i]? = some ch.data ∧ ch.tsn = m.tsn i) ∧
      (ch.streamId = m.streamId ∧ ch.streamSequence = m.ssn ∧ ch.chunkFlags.unordered = m.unordered) ∧
      ch.chunkFlags.first = decide (i = 0) ∧ ch.chunkFlags.last = decide (i + 1 = m.parts.length) ∧
      ch.ndata = m.msgId.map fun id => (id, BitVec.ofNat 32 i) :=
  ⟨fun h => ⟨⟨h.data, h.tsn⟩, ⟨h.streamId, h.streamSequence, h.unordered⟩, h.first, h.last, h.ndata⟩,
    fun ⟨⟨hdata, htsn⟩, ⟨hstream, hssn, hunordered⟩, hfirst, hlast, hndata⟩ =>
      ⟨hdata, htsn, hstream, hssn, hunordered, hfirst, hlast, hndata⟩⟩

instance decidable (ch : DataChunk) (m : Message) (i : ℕ) : Decidable (ch.PartOf m i) :=
  decidable_of_iff _ (iff ch m i).symm

end DataChunk.PartOf

instance PartsFit.decidable (messages : List Message) (cfg : RecvConfig) :
    Decidable (PartsFit messages cfg) :=
  inferInstanceAs (Decidable (∀ m ∈ messages, m.unordered = true → m.msgId = none →
    ∀ part ∈ m.parts, part.length ≤ cfg.pdPoint))

/-- What the user is given of a message. -/
theorem Control.Intact.message {messages : List Message} {d : Control} (h : d.Intact messages)
    (hsome : d.data ≠ [] ∨ d.endAdded = true) : ∃ m ∈ messages, d.sinfoStream = m.streamId ∧
      d.sinfoSsn = m.ssn ∧ d.sinfoFlags.unordered = m.unordered ∧ d.data <+: m.parts.flatten ∧
      (d.endAdded = true → d.data = m.parts.flatten) := by
  obtain ⟨hdata, hended⟩ | ⟨m, hm, hstream, hssn, hunordered, -, k, hhas⟩ := h
  · exfalso
    obtain hsome | hsome := hsome
    · exact hsome hdata
    · rw [hended] at hsome
      cases hsome
  · refine ⟨m, hm, hstream, hssn, hunordered, ?_, fun hended => ?_⟩
    · rw [hhas.data]
      exact (List.take_prefix k m.parts).flatten
    · rw [hhas.data, hhas.ended hended, List.take_length]

namespace UserRun

/-- What arrives is a fragment of one of the peer's messages, and nothing waits under the number of that
message but its own fragments. -/
def Arrives (messages : List Message) (s : UserRun) : RecvEvent → Prop
  | .chunk env ch => ch.data ≠ [] ∧ PartsFit messages env.toRecvConfig ∧
      ∃ m ∈ messages, s.toReceiver.Clear ch m ∧ ∃ i < m.parts.length, ch.PartOf m i
  | .resetRequest _ => False
  | _ => True

instance Arrives.decidable (messages : List Message) (s : UserRun) :
    ∀ e, Decidable (s.Arrives messages e)
  | .chunk env ch => inferInstanceAs (Decidable (ch.data ≠ [] ∧ PartsFit messages env.toRecvConfig ∧
      ∃ m ∈ messages, s.toReceiver.Clear ch m ∧ ∃ i < m.parts.length, ch.PartOf m i))
  | .resetRequest _ => .isFalse id
  | .sendSack _ => .isTrue trivial
  | .read _ => .isTrue trivial

theorem Arrives.plain {messages : List Message} {s : UserRun} {e : RecvEvent} (h : s.Arrives messages e) :
    e.Plain := by
  cases e with
  | chunk env ch => exact h.1
  | sendSack env => exact trivial
  | read n => exact trivial
  | resetRequest liste => exact h

structure Delivers (messages : List Message) (s : UserRun) : Prop where
  inOrder : s.InOrder
  intact : s.toReceiver.Intact messages
  taken : ∀ d ∈ s.taken, d.Intact messages

variable {messages : List Message} {s t : UserRun}

theorem Begins.delivers (h : s.Begins) (messages : List Message) : s.Delivers messages := by
  refine ⟨h.inOrder, ⟨?_, fun strmno => ?_⟩, ?_⟩
  · rw [h.read]
    exact fun d hd => absurd hd List.not_mem_nil
  · obtain ⟨hin, huno, hpd, -⟩ := h.strmin strmno
    constructor
    · rw [hin]
      exact fun c hc => absurd hc List.not_mem_nil
    · rw [huno]
      exact fun c hc => absurd hc List.not_mem_nil
    · rw [hpd]
      exact fun c hc => nomatch hc
  · rw [h.taken]
    exact fun d hd => absurd hd List.not_mem_nil

/-- A chunk of the peer arrives. Nothing is asked of one that is out of reach. -/
theorem Delivers.receive {env : ChunkEnv} {ch : DataChunk} {m : Message} {i : ℕ} (hd : DistinctTsns messages)
    (h : s.Delivers messages) (hdata : ch.data ≠ []) (hfit : PartsFit messages env.toRecvConfig)
    (hm : m ∈ messages) (hch : ch.PartOf m i)
    (hclear : s.toTsnMap.InReach ch.tsn → s.toReceiver.Clear ch m)
    (ht : userStep s (.chunk env ch) = some t) : t.Delivers messages := by
  suffices hboth : t.toReceiver.Intact messages ∧ ∀ d ∈ t.taken, d.Intact messages from
    ⟨userStep_inOrder h.inOrder (e := .chunk env ch) hdata ht, hboth.1, hboth.2⟩
  obtain ⟨names, hkeyed⟩ := h.inOrder.keyed
  obtain ⟨u, hu, rfl⟩ := Option.map_eq_some_iff.1 ht
  obtain ⟨r, hr, rfl⟩ := Attempt.map_ok (RecvRun.recvStep_chunk hu)
  refine ⟨DataReceiver.processADataChunk_intact h.intact hkeyed h.inOrder.noReset hd hfit hm hch hclear
    hdata hr, ?_⟩
  change ∀ d ∈ s.taken ++ [], d.Intact messages
  rw [List.append_nil]
  exact h.taken

theorem Delivers.sendSack {env : SackEnv} (h : s.Delivers messages)
    (ht : userStep s (.sendSack env) = some t) : t.Delivers messages := by
  have horder := userStep_inOrder h.inOrder (e := .sendSack env) trivial ht
  obtain ⟨u, hu, rfl⟩ := Option.map_eq_some_iff.1 ht
  obtain rfl := Option.some.inj hu
  refine ⟨horder, ⟨h.intact.read, h.intact.strmin⟩, ?_⟩
  change ∀ d ∈ s.taken ++ [], d.Intact messages
  rw [List.append_nil]
  exact h.taken

theorem Delivers.read {n : ℕ} (h : s.Delivers messages) (ht : userStep s (.read n) = some t) :
    t.Delivers messages := by
  have horder := userStep_inOrder h.inOrder (e := .read n) trivial ht
  obtain ⟨u, hu, rfl⟩ := Option.map_eq_some_iff.1 ht
  obtain rfl := Option.some.inj hu
  refine ⟨horder, ⟨fun d hmem => h.intact.read d (List.mem_of_mem_drop hmem), h.intact.strmin⟩,
    fun d hmem => ?_⟩
  obtain hmem | hmem := List.mem_append.1 hmem
  · exact h.taken d hmem
  · exact h.intact.read d (List.mem_of_mem_take hmem)

theorem userStep_delivers {e : RecvEvent} (hd : DistinctTsns messages) (h : s.Delivers messages)
    (he : s.Arrives messages e) (ht : userStep s e = some t) : t.Delivers messages := by
  cases e with
  | chunk env ch =>
    obtain ⟨hdata, hfit, m, hm, hclear, i, -, hch⟩ := he
    exact h.receive hd hdata hfit hm hch (fun _ => hclear) ht
  | sendSack env => exact h.sendSack ht
  | read n => exact h.read ht
  | resetRequest liste => exact absurd he id

/-- The messages of `shuffled`: the second one is sent in two fragments. -/
def sent : List Message :=
  [.ofData 0 0 false 7 [[1, 2, 3]] Nat.zero_lt_one Message.one_lt,
    .ofData 0 1 false 8 [[1, 2, 3], [1, 2, 3]] Nat.zero_lt_two Message.two_lt,
    .ofData 0 2 false 10 [[1, 2, 3]] Nat.zero_lt_one Message.one_lt]

theorem sent_distinct : DistinctTsns sent := by
  intro m hm m' hm' i hi j hj htsn
  simp only [sent, List.mem_cons, List.not_mem_nil, or_false] at hm hm'
  obtain rfl | rfl | rfl := hm <;> obtain rfl | rfl | rfl := hm' <;>
    simp only [Message.ofData, List.length_cons, List.length_nil, Nat.zero_add] at hi hj htsn <;>
    interval_cases i <;> interval_cases j <;> first | exact ⟨rfl, rfl⟩ | exact absurd htsn (by decide)

theorem arrives_shuffled : Trace.Along userStep (Arrives sent) (fresh 7 1) shuffled := by
  decide +kernel

end UserRun

end Sctp
