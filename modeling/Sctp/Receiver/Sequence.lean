import Sctp.Receiver.Kept

/-! One stream of the receiver: whatever is done on it, its ordered messages enter the read queue by their
stream sequence numbers, one after the other. -/
namespace Sctp

structure MsgKey where
  stream : StreamNo
  ssn : Ssn
  unordered : Bool
  tsn : Tsn
  msgId : BitVec 32
  oldData : Bool
deriving DecidableEq, Repr

def Control.key (c : Control) : MsgKey :=
  ⟨c.sinfoStream, c.sinfoSsn, c.sinfoFlags.unordered, c.sinfoTsn, c.msgId, c.oldData⟩

/-- SSNs of the ordered messages of a stream. -/
def ssns (strmno : StreamNo) (keys : List MsgKey) : List Ssn :=
  (keys.filter fun k => k.stream == strmno && !k.unordered).map (·.ssn)

theorem ssns_append (strmno : StreamNo) (keys keys' : List MsgKey) :
    ssns strmno (keys ++ keys') = ssns strmno keys ++ ssns strmno keys' := by
  rw [ssns, List.filter_append, List.map_append, ssns, ssns]

theorem ssns_unordered (strmno : StreamNo) {keys : List MsgKey} (h : ∀ k ∈ keys, k.unordered = true) :
    ssns strmno keys = [] := by
  rw [ssns, List.filter_eq_nil_iff.2, List.map_nil]
  intro k hk
  simp [h k hk]

theorem ssns_other {strmno strmno' : StreamNo} {keys : List MsgKey}
    (h : ∀ k ∈ keys, k.stream = strmno) (hne : strmno ≠ strmno') : ssns strmno' keys = [] := by
  rw [ssns, List.filter_eq_nil_iff.2, List.map_nil]
  intro k hk
  simp [h k hk, hne]

/-- The `m` numbers behind `last`. -/
def numbersBehind (last : Ssn) (m : ℕ) : List Ssn :=
  (List.range m).map fun j => last + 1 + BitVec.ofNat 16 j

theorem numbersBehind_one (last : Ssn) : numbersBehind last 1 = [last + 1] := by
  simp [numbersBehind]

theorem numbersBehind_add (last : Ssn) (m m' : ℕ) :
    numbersBehind last (m + m') = numbersBehind last m ++ numbersBehind (last + BitVec.ofNat 16 m) m' := by
  rw [numbersBehind, List.range_add, List.map_append, List.map_map, numbersBehind, numbersBehind]
  congr 1
  apply List.map_congr_left
  intro j _
  change last + 1 + BitVec.ofNat 16 (m + j) = last + BitVec.ofNat 16 m + 1 + BitVec.ofNat 16 j
  rw [BitVec.ofNat_add]
  ac_rfl

namespace Control

/-- The number of the control stands for its key. -/
def Named (names : ℕ → MsgKey) (top : ℕ) (c : Control) : Prop := c.id < top ∧ c.key = names c.id

end Control

/-- A fragment of an unordered or of an ordered message of the stream. -/
structure RecvChunk.Fits (strmno : StreamNo) (unordered : Bool) (chk : RecvChunk) : Prop where
  stream : chk.streamNumber = strmno
  flag : chk.rcvFlags.unordered = unordered
  data : chk.data ≠ []

namespace Control

/-- A control on the queues of its stream. What is delivered in order has data. -/
structure Placed (names : ℕ → MsgKey) (top : ℕ) (strmno : StreamNo) (unordered : Bool) (c : Control) :
    Prop where
  named : c.Named names top
  stream : c.sinfoStream = strmno
  flag : c.sinfoFlags.unordered = unordered
  data : unordered = false → c.sinfoFlags.notFrag = true ∨ c.firstFragSeen = true → c.data ≠ []
  reasm : ∀ chk ∈ c.reasm, chk.Fits strmno unordered

variable {names names' : ℕ → MsgKey} {top top' : ℕ} {strmno : StreamNo} {u v : Bool} {c x : Control}

theorem Named.mono (h : c.Named names top) (htop : top ≤ top') (hnames : ∀ id < top, names' id = names id) :
    c.Named names' top' :=
  ⟨h.1.trans_le htop, h.2.trans (hnames c.id h.1).symm⟩

theorem Placed.mono (h : c.Placed names top strmno u) (htop : top ≤ top')
    (hnames : ∀ id < top, names' id = names id) : c.Placed names' top' strmno u :=
  ⟨h.named.mono htop hnames, h.stream, h.flag, h.data, h.reasm⟩

/-- A control that is written to keeps its key. -/
theorem Named.put (hc : c.Named names top) (hx : x.Named names top) :
    (c.put x).Named names top ∧ (c.put x).key = x.key := by
  unfold Control.put
  split
  · rename_i hid
    refine ⟨hc, ?_⟩
    rw [hc.2, hx.2, hid]
  · exact ⟨hx, rfl⟩

/-- The control that is written to stays ordered or unordered. -/
theorem Placed.put (hc : c.Placed names top strmno u) (hx : x.Placed names top strmno v) :
    (c.put x).Placed names top strmno v := by
  unfold Control.put
  split
  · rename_i hid
    have hkey : c.key = x.key := by rw [hc.named.2, hx.named.2, hid]
    have hflag : c.sinfoFlags.unordered = x.sinfoFlags.unordered := congrArg MsgKey.unordered hkey
    obtain rfl : u = v := by rw [← hc.flag, hflag, hx.flag]
    exact hc
  · exact hx

end Control

structure StreamIn.Keyed (names : ℕ → MsgKey) (top : ℕ) (strmno : StreamNo) (strm : StreamIn) : Prop where
  inqueue : ∀ c ∈ strm.inqueue, c.Placed names top strmno false
  unoInqueue : ∀ c ∈ strm.unoInqueue, c.Placed names top strmno true
  unoPd : ∀ c ∈ strm.unoPd, c.Placed names top strmno true

theorem StreamIn.Keyed.mono {names names' : ℕ → MsgKey} {top top' : ℕ} {strmno : StreamNo}
    {strm : StreamIn} (h : strm.Keyed names top strmno) (htop : top ≤ top')
    (hnames : ∀ id < top, names' id = names id) : strm.Keyed names' top' strmno :=
  ⟨fun c hc => (h.inqueue c hc).mono htop hnames, fun c hc => (h.unoInqueue c hc).mono htop hnames,
    fun c hc => (h.unoPd c hc).mono htop hnames⟩

namespace StreamRx

/-- The controls of a stream and of the read queue by their numbers. -/
structure Keyed (names : ℕ → MsgKey) (strmno : StreamNo) (s : StreamRx) : Prop where
  read : ∀ d ∈ s.readQueue, d.Named names s.nextId
  strm : s.strm.Keyed names s.nextId strmno

/-- Messages of the stream enter the read queue, the ordered ones by their numbers behind the last one
delivered. -/
structure Enters (strmno : StreamNo) (s t : StreamRx) : Prop where
  nextId : s.nextId ≤ t.nextId
  entered : ∃ keys m, t.readQueue.map Control.key = s.readQueue.map Control.key ++ keys ∧
    (∀ k ∈ keys, k.stream = strmno) ∧
    ssns strmno keys = numbersBehind s.strm.lastSequenceDelivered m ∧
    t.strm.lastSequenceDelivered = s.strm.lastSequenceDelivered + BitVec.ofNat 16 m

variable {names names' names'' : ℕ → MsgKey} {strmno : StreamNo} {s t u : StreamRx}

/-- Nothing enters. -/
theorem Enters.of_same (hnext : s.nextId ≤ t.nextId)
    (hread : t.readQueue.map Control.key = s.readQueue.map Control.key)
    (hlast : t.strm.lastSequenceDelivered = s.strm.lastSequenceDelivered) : Enters strmno s t := by
  refine ⟨hnext, [], 0, ?_, fun k hk => absurd hk List.not_mem_nil, rfl, ?_⟩
  · rw [hread, List.append_nil]
  · rw [hlast]
    exact (BitVec.add_zero _).symm

theorem Enters.refl (s : StreamRx) : Enters strmno s s := .of_same le_rfl rfl rfl

theorem Enters.trans (h : Enters strmno s t) (h' : Enters strmno t u) : Enters strmno s u := by
  obtain ⟨hnext, keys, m, hread, hstream, hssns, hlast⟩ := h
  obtain ⟨hnext', keys', m', hread', hstream', hssns', hlast'⟩ := h'
  refine ⟨hnext.trans hnext', keys ++ keys', m + m', ?_, fun k hk => ?_, ?_, ?_⟩
  · rw [hread', hread, List.append_assoc]
  · obtain hk | hk := List.mem_append.1 hk
    · exact hstream k hk
    · exact hstream' k hk
  · rw [ssns_append, hssns, hssns', hlast, numbersBehind_add]
  · rw [hlast', hlast, BitVec.ofNat_add, BitVec.add_assoc]

/-- An unordered control enters, if it has data. -/
theorem Enters.of_unordered {c : Control} (hnext : s.nextId ≤ t.nextId)
    (hread : t.readQueue.map Control.key = s.readQueue.map Control.key ∨
      t.readQueue.map Control.key = s.readQueue.map Control.key ++ [c.key])
    (hstream : c.sinfoStream = strmno) (hunordered : c.sinfoFlags.unordered = true)
    (hlast : t.strm.lastSequenceDelivered = s.strm.lastSequenceDelivered) : Enters strmno s t := by
  obtain hread | hread := hread
  · exact .of_same hnext hread hlast
  · refine ⟨hnext, [c.key], 0, hread, fun k hk => ?_, ?_, ?_⟩
    · rw [List.mem_singleton.1 hk]
      exact hstream
    · refine ssns_unordered strmno fun k hk => ?_
      rw [List.mem_singleton.1 hk]
      exact hunordered
    · rw [hlast]
      exact (BitVec.add_zero _).symm

/-- The next ordered control enters. -/
theorem Enters.of_next {c : Control} (hnext : s.nextId ≤ t.nextId)
    (hread : t.readQueue.map Control.key = s.readQueue.map Control.key ++ [c.key])
    (hstream : c.sinfoStream = strmno) (hordered : c.sinfoFlags.unordered = false)
    (hssn : c.sinfoSsn = s.strm.lastSequenceDelivered + 1)
    (hlast : t.strm.lastSequenceDelivered = s.strm.lastSequenceDelivered + 1) : Enters strmno s t := by
  refine ⟨hnext, [c.key], 1, hread, fun k hk => ?_, ?_, hlast⟩
  · rw [List.mem_singleton.1 hk]
    exact hstream
  · rw [numbersBehind_one, ← hssn]
    simp [ssns, Control.key, hstream, hordered]

/-- A step on the stream; the controls that it makes get numbers that were free. -/
structure Advances (names names' : ℕ → MsgKey) (strmno : StreamNo) (s t : StreamRx) : Prop where
  agrees : ∀ id < s.nextId, names' id = names id
  keyed : t.Keyed names' strmno
  enters : Enters strmno s t

theorem Advances.trans (h : Advances names names' strmno s t) (h' : Advances names' names'' strmno t u) :
    Advances names names'' strmno s u := by
  refine ⟨fun id hid => ?_, h'.keyed, h.enters.trans h'.enters⟩
  rw [h'.agrees id (hid.trans_le h.enters.nextId), h.agrees id hid]

theorem Keyed.advances (h : t.Keyed names strmno) (he : Enters strmno s t) :
    Advances names names strmno s t :=
  ⟨fun _ _ => rfl, h, he⟩

/-- Only the queues of the stream change. -/
theorem Keyed.requeued (hs : s.Keyed names strmno) {strm : StreamIn}
    (hstrm : strm.Keyed names s.nextId strmno)
    (hlast : strm.lastSequenceDelivered = s.strm.lastSequenceDelivered) :
    Advances names names strmno s { s with strm := strm } :=
  Keyed.advances ⟨hs.read, hstrm⟩ (.of_same le_rfl rfl hlast)

theorem Keyed.put (hs : s.Keyed names strmno) {u : Bool} {c : Control}
    (hc : c.Placed names s.nextId strmno u) : Advances names names strmno s (s.put c) := by
  refine Keyed.advances ⟨fun d hd => ?_, fun d hd => ?_, fun d hd => ?_, fun d hd => ?_⟩
    (.of_same le_rfl ?_ rfl)
  · obtain ⟨x, hx, rfl⟩ := List.mem_map.1 hd
    exact (hc.named.put (hs.read x hx)).1
  · obtain ⟨x, hx, rfl⟩ := List.mem_map.1 hd
    exact hc.put (hs.strm.inqueue x hx)
  · obtain ⟨x, hx, rfl⟩ := List.mem_map.1 hd
    exact hc.put (hs.strm.unoInqueue x hx)
  · obtain ⟨x, hx, rfl⟩ := Option.map_eq_some_iff.1 hd
    exact hc.put (hs.strm.unoPd x hx)
  · change (s.readQueue.map c.put).map Control.key = _
    rw [List.map_map]
    exact List.map_congr_left fun x hx => (hc.named.put (hs.read x hx)).2

end StreamRx

namespace RecvAsoc

variable (asoc : RecvAsoc) (c : Control) (last : Bool)

theorem addToReadq_nextId : (asoc.addToReadq c last).nextId = asoc.nextId := by
  unfold addToReadq
  split <;> rfl

theorem map_addToReadq : (asoc.addToReadq c last).readQueue.map Control.key =
    asoc.readQueue.map Control.key ∨
      (asoc.addToReadq c last).readQueue.map Control.key = asoc.readQueue.map Control.key ++ [c.key] := by
  unfold addToReadq
  split
  · exact .inl rfl
  · exact .inr (List.map_append)

theorem map_addToReadq_of_data (h : c.data ≠ []) : (asoc.addToReadq c last).readQueue.map Control.key =
    asoc.readQueue.map Control.key ++ [c.key] := by
  rw [addToReadq, if_neg h]
  exact List.map_append

theorem addToReadq_named {names : ℕ → MsgKey} {top : ℕ} (hread : ∀ d ∈ asoc.readQueue, d.Named names top)
    (hc : c.Named names top) : ∀ d ∈ (asoc.addToReadq c last).readQueue, d.Named names top := by
  unfold addToReadq
  split
  · exact hread
  · intro d hd
    obtain hd | hd := List.mem_append.1 hd
    · exact hread d hd
    · rw [List.mem_singleton.1 hd]
      exact hc

end RecvAsoc

namespace StreamRx

variable {names : ℕ → MsgKey} {strmno : StreamNo} {s : StreamRx} {c : Control}

/-- An unordered control goes to the read queue. -/
theorem Keyed.readUnordered (hs : s.Keyed names strmno) (hc : c.Named names s.nextId)
    (hstream : c.sinfoStream = strmno) (hunordered : c.sinfoFlags.unordered = true) (last : Bool)
    {strm : StreamIn} (hstrm : strm.Keyed names s.nextId strmno)
    (hlast : strm.lastSequenceDelivered = s.strm.lastSequenceDelivered) :
    Advances names names strmno s { toRecvAsoc := s.toRecvAsoc.addToReadq c last, strm := strm } := by
  have hnext := RecvAsoc.addToReadq_nextId s.toRecvAsoc c last
  refine Keyed.advances ⟨?_, ?_⟩ (.of_unordered hnext.ge ?_ hstream hunordered hlast)
  · change ∀ d ∈ _, Control.Named names (s.toRecvAsoc.addToReadq c last).nextId d
    rw [hnext]
    exact RecvAsoc.addToReadq_named s.toRecvAsoc c last hs.read hc
  · change StreamIn.Keyed names (s.toRecvAsoc.addToReadq c last).nextId strmno strm
    rw [hnext]
    exact hstrm
  · exact RecvAsoc.map_addToReadq s.toRecvAsoc c last

/-- The next ordered control goes to the read queue; the association may have changed in what does not
matter here. -/
theorem Keyed.readNext (hs : s.Keyed names strmno) (hc : c.Placed names s.nextId strmno false)
    (hdata : c.data ≠ []) (hssn : c.sinfoSsn = s.strm.lastSequenceDelivered + 1) (last : Bool)
    {asoc : RecvAsoc} (hread : asoc.readQueue = s.readQueue) (hid : asoc.nextId = s.nextId) :
    Advances names names strmno s
      { toRecvAsoc := asoc.addToReadq c last
        strm := { s.strm with lastSequenceDelivered := s.strm.lastSequenceDelivered + 1 } } := by
  have hnext := (RecvAsoc.addToReadq_nextId asoc c last).trans hid
  refine Keyed.advances ⟨?_, ?_⟩ (.of_next hnext.ge ?_ hc.stream hc.flag hssn rfl)
  · change ∀ d ∈ _, Control.Named names (asoc.addToReadq c last).nextId d
    rw [hnext]
    exact RecvAsoc.addToReadq_named asoc c last (hread ▸ hs.read) hc.named
  · change StreamIn.Keyed names (asoc.addToReadq c last).nextId strmno _
    rw [hnext]
    exact ⟨hs.strm.inqueue, hs.strm.unoInqueue, hs.strm.unoPd⟩
  · rw [← hread]
    exact RecvAsoc.map_addToReadq_of_data asoc c last hdata

/-- A control is written to, on the read queue too. -/
theorem Keyed.putRead {u : Bool} (hs : s.Keyed names strmno) (hc : c.Placed names s.nextId strmno u)
    {asoc : RecvAsoc} (hread : asoc.readQueue = s.readQueue) (hid : asoc.nextId = s.nextId)
    {strm : StreamIn} (hstrm : strm.Keyed names s.nextId strmno)
    (hlast : strm.lastSequenceDelivered = s.strm.lastSequenceDelivered) :
    Advances names names strmno s { toRecvAsoc := asoc.putRead c, strm := strm } := by
  refine Keyed.advances ⟨?_, ?_⟩ (.of_same hid.ge ?_ hlast)
  · intro d hd
    obtain ⟨x, hx, rfl⟩ := List.mem_map.1 hd
    rw [hread] at hx
    change Control.Named names asoc.nextId _
    rw [hid]
    exact (hc.named.put (hs.read x hx)).1
  · change StreamIn.Keyed names asoc.nextId strmno strm
    rw [hid]
    exact hstrm
  · change (asoc.readQueue.map c.put).map Control.key = _
    rw [hread, List.map_map]
    exact List.map_congr_left fun x hx => (hc.named.put (hs.read x hx)).2

end StreamRx

open StreamRx

section

variable {cfg : RecvConfig} {names : ℕ → MsgKey} {top : ℕ} {strmno : StreamNo} {u : Bool}

theorem drainInqueue_advances {q : List Control} {s : StreamRx} (hs : s.Keyed names strmno)
    (hq : ∀ c ∈ q, c.Placed names s.nextId strmno false) :
    Advances names names strmno s (drainInqueue cfg q s).1 := by
  induction q generalizing s with
  | nil =>
    have hnone : ∀ c ∈ ([] : List Control), c.Placed names s.nextId strmno false :=
      fun c hc => absurd hc List.not_mem_nil
    exact hs.requeued ⟨hnone, hs.strm.unoInqueue, hs.strm.unoPd⟩ rfl
  | cons control q ih =>
    have hc := hq control List.mem_cons_self
    have hstay : Advances names names strmno s
        { s with strm := { s.strm with inqueue := control :: q } } :=
      hs.requeued ⟨hq, hs.strm.unoInqueue, hs.strm.unoPd⟩ rfl
    unfold drainInqueue
    split
    · rename_i hssn
      split
      · rename_i hwhole
        have hout : Advances names names strmno s
            (deliverSingle cfg { s with toRecvAsoc := s.toRecvAsoc.countOut control } control) :=
          hs.readNext hc (hc.data rfl (.inl hwhole)) hssn.symm true rfl rfl
        apply hout.trans
        apply ih hout.keyed
        intro c hmem
        exact (hq c (List.mem_cons_of_mem control hmem)).mono hout.enters.nextId fun _ _ => rfl
      · exact hstay
    · exact hstay

theorem wholeControl_placed {control : Control} (h : control.Placed names top strmno u) :
    (wholeControl control).Placed names top strmno u := by
  unfold wholeControl
  split
  · rename_i hwhole
    exact ⟨h.named, h.stream, h.flag, fun hu _ => h.data hu (.inl hwhole), h.reasm⟩
  · exact h

theorem placeControlInStream_advances {s : StreamRx} {control : Control} {r : StreamRx × Bool}
    (hs : s.Keyed names strmno) (hc : control.Placed names s.nextId strmno u)
    (h : placeControlInStream s control = .ok r) : Advances names names strmno s r.1 := by
  unfold placeControlInStream at h
  split at h
  · rename_i hunordered
    obtain rfl : u = true := hc.flag.symm.trans hunordered
    obtain ⟨t, ht, rfl⟩ := Attempt.map_ok h
    unfold placeUnordered at ht
    split_ifs at ht
    · cases ht
      refine hs.requeued ⟨hs.strm.inqueue, fun c hmem => ?_, hs.strm.unoPd⟩ rfl
      obtain rfl | hmem := List.mem_cons.1 hmem
      · exact hc
      · exact hs.strm.unoInqueue c hmem
    · cases ht
      refine hs.requeued ⟨hs.strm.inqueue, fun c hmem => ?_, hs.strm.unoPd⟩ rfl
      obtain hmem | hmem := List.mem_append.1 hmem
      · exact hs.strm.unoInqueue c hmem
      · exact List.mem_singleton.1 hmem ▸ hc
  · rename_i hordered
    obtain rfl : u = false := hc.flag.symm.trans (Bool.not_eq_true _ ▸ hordered)
    split at h
    · rename_i q hq
      cases h
      refine hs.requeued ⟨fun c hmem => ?_, hs.strm.unoInqueue, hs.strm.unoPd⟩ rfl
      obtain rfl | hmem := mem_insertByMsgId hq hmem
      · exact wholeControl_placed hc
      · exact hs.strm.inqueue c hmem
    · cases h
      exact Keyed.advances ⟨hs.read, hs.strm⟩ (.of_same le_rfl rfl rfl)

theorem queueDataToStream_advances {s : StreamRx} {control : Control} {r : StreamRx × Bool}
    (hs : s.Keyed names strmno) (hc : control.Placed names s.nextId strmno false)
    (hdata : control.data ≠ []) (h : queueDataToStream cfg s control = .ok r) :
    Advances names names strmno s r.1 := by
  unfold queueDataToStream at h
  dsimp only at h
  split at h
  · cases h
  · split at h
    · rename_i hssn
      cases h
      have hout : Advances names names strmno s (deliverSingle cfg
          { s with toRecvAsoc := (s.toRecvAsoc.countIn control).countOut control } control) :=
        hs.readNext hc hdata hssn.symm true rfl rfl
      apply hout.trans
      apply drainInqueue_advances hout.keyed
      exact hout.keyed.strm.inqueue
    · obtain ⟨x, hx, heq⟩ := Attempt.map_ok h
      have hin : Advances names names strmno s { s with toRecvAsoc := s.toRecvAsoc.countIn control } :=
        Keyed.advances ⟨hs.read, hs.strm⟩ (.of_same le_rfl rfl rfl)
      rw [← heq]
      exact hin.trans (placeControlInStream_advances (r := x) hin.keyed hc hx)

theorem Control.Placed.merge {c : Control} {chk : RecvChunk} (h : c.Placed names top strmno u)
    (hchk : chk.data ≠ []) : (c.merge chk).Placed names top strmno u := by
  refine ⟨h.named, h.stream, h.flag, fun _ _ => ?_, h.reasm⟩
  exact fun hnil => hchk (List.append_eq_nil_iff.1 hnil).2

theorem foldl_merge_placed {chks : List RecvChunk} {c : Control} (h : c.Placed names top strmno u)
    (hchks : ∀ chk ∈ chks, chk.Fits strmno u) : (chks.foldl Control.merge c).Placed names top strmno u := by
  induction chks generalizing c with
  | nil => exact h
  | cons chk chks ih =>
    exact ih (h.merge (hchks chk List.mem_cons_self).data) fun x hx => hchks x (List.mem_cons_of_mem chk hx)

theorem foldl_merged_same (drain : Bool) (chks : List RecvChunk) (asoc : RecvAsoc) :
    (chks.foldl (RecvAsoc.merged drain) asoc).readQueue = asoc.readQueue ∧
      (chks.foldl (RecvAsoc.merged drain) asoc).nextId = asoc.nextId := by
  induction chks generalizing asoc with
  | nil => exact ⟨rfl, rfl⟩
  | cons chk chks ih => exact ih (asoc.merged drain chk)

/-- The new control takes the next number. -/
theorem mergeNew_advances (cfg : RecvConfig) {s : StreamRx} {chks : List RecvChunk} {fchk : RecvChunk}
    (hs : s.Keyed names strmno) (hchks : ∀ chk ∈ chks, chk.Fits strmno true)
    (hfchk : fchk.Fits strmno true) :
    ∃ names', Advances names names' strmno s (mergeNew cfg s chks fchk).1 ∧
      (mergeNew cfg s chks fchk).2.Placed names' (mergeNew cfg s chks fchk).1.nextId strmno true := by
  obtain ⟨hread, -⟩ := foldl_merged_same cfg.doDrain chks s.toRecvAsoc
  have hagrees : ∀ id < s.nextId,
      Function.update names s.nextId (buildReadqEntryChk s.nextId fchk).key id = names id :=
    fun id hid => Function.update_of_ne hid.ne _ _
  refine ⟨_, ⟨hagrees, ⟨?_, hs.strm.mono (Nat.le_succ _) hagrees⟩, .of_same (Nat.le_succ _) ?_ rfl⟩, ?_⟩
  · intro d hd
    change d ∈ (chks.foldl (RecvAsoc.merged cfg.doDrain) s.toRecvAsoc).readQueue at hd
    rw [hread] at hd
    exact (hs.read d hd).mono (Nat.le_succ _) hagrees
  · change (chks.foldl (RecvAsoc.merged cfg.doDrain) s.toRecvAsoc).readQueue.map Control.key = _
    rw [hread]
  · refine foldl_merge_placed ⟨⟨Nat.lt_succ_self _, ?_⟩, hfchk.stream, hfchk.flag, fun hu => ?_, ?_⟩ hchks
    · exact (Function.update_self s.nextId _ names).symm
    · cases hu
    · exact fun chk hc => absurd hc List.not_mem_nil

theorem buildOneUpTo_advances (cfg : RecvConfig) {s : StreamRx} {chks : List RecvChunk} {fchk : RecvChunk}
    (hs : s.Keyed names strmno) (hchks : ∀ chk ∈ chks, chk.Fits strmno true)
    (hfchk : fchk.Fits strmno true) :
    ∃ names', Advances names names' strmno s (buildOneUpTo cfg s chks fchk) := by
  obtain ⟨names', hnew, hc⟩ := mergeNew_advances cfg hs hchks hfchk
  have hwhole : Control.Named names' (mergeNew cfg s chks fchk).1.nextId
      { (mergeNew cfg s chks fchk).2 with endAdded := true, lastFragSeen := true, firstFragSeen := true } :=
    hc.named
  exact ⟨names', hnew.trans
    (hnew.keyed.readUnordered hwhole hc.stream hc.flag true hnew.keyed.strm rfl)⟩

theorem buildPdUnordered_advances (cfg : RecvConfig) {s : StreamRx} {chks : List RecvChunk} {fchk : RecvChunk}
    (hs : s.Keyed names strmno) (hchks : ∀ chk ∈ chks, chk.Fits strmno true)
    (hfchk : fchk.Fits strmno true) :
    ∃ names', Advances names names' strmno s (buildPdUnordered cfg s chks fchk) := by
  obtain ⟨names', hnew, hc⟩ := mergeNew_advances cfg hs hchks hfchk
  refine ⟨names', hnew.trans ?_⟩
  refine hnew.keyed.readUnordered hc.named hc.stream hc.flag _ ⟨?_, ?_, fun c hmem => ?_⟩ rfl
  · exact hnew.keyed.strm.inqueue
  · exact hnew.keyed.strm.unoInqueue
  · obtain rfl := Option.some.inj hmem
    exact ⟨hc.named, hc.stream, hc.flag, hc.data, hc.reasm⟩

theorem appendRun_placed (cfg : RecvConfig) {q : List RecvChunk} (asoc : RecvAsoc) {control : Control}
    (hc : control.Placed names top strmno u) (hq : ∀ chk ∈ q, chk.Fits strmno u) :
    (appendRun cfg q asoc control).2.2.Placed names top strmno u ∧
      (∀ chk ∈ (appendRun cfg q asoc control).1, chk.Fits strmno u) ∧
      (appendRun cfg q asoc control).2.1.readQueue = asoc.readQueue ∧
      (appendRun cfg q asoc control).2.1.nextId = asoc.nextId := by
  induction q generalizing asoc control with
  | nil => exact ⟨hc, hq, rfl, rfl⟩
  | cons chk q ih =>
    have hrest : ∀ x ∈ q, x.Fits strmno u := fun x hx => hq x (List.mem_cons_of_mem chk hx)
    have hmerged := hc.merge (hq chk List.mem_cons_self).data
    unfold appendRun
    split
    · dsimp only
      split
      · exact ⟨hmerged, hrest, rfl, rfl⟩
      · obtain ⟨hplaced, hfits, hread, hid⟩ := ih (asoc.merged cfg.doDrain chk) hmerged hrest
        exact ⟨hplaced, hfits, hread, hid⟩
    · exact ⟨hc, hq, rfl, rfl⟩

theorem appendPd_advances (cfg : RecvConfig) {s : StreamRx} {pd : Control} {reasm : List RecvChunk}
    (hs : s.Keyed names strmno) (hpd : pd.Placed names s.nextId strmno true)
    (hreasm : ∀ chk ∈ reasm, chk.Fits strmno true) :
    Advances names names strmno s (appendPd cfg s pd reasm).2 ∧
      ∀ chk ∈ (appendPd cfg s pd reasm).1, chk.Fits strmno true := by
  obtain ⟨hplaced, hfits, hread, hid⟩ := appendRun_placed cfg s.toRecvAsoc hpd hreasm
  refine ⟨hs.putRead hplaced hread hid ⟨hs.strm.inqueue, hs.strm.unoInqueue, fun c hc => ?_⟩ rfl, hfits⟩
  split at hc
  · cases hc
  · obtain rfl := Option.some.inj hc
    exact hplaced

theorem handleOldDataLoop_advances (cfg : RecvConfig) (fuel : ℕ) {reasm : List RecvChunk} {s : StreamRx}
    (hs : s.Keyed names strmno) (hreasm : ∀ chk ∈ reasm, chk.Fits strmno true) :
    (∃ names', Advances names names' strmno s (handleOldDataLoop cfg fuel reasm s).2) ∧
      ∀ chk ∈ (handleOldDataLoop cfg fuel reasm s).1, chk.Fits strmno true := by
  have hstay : ∃ names', Advances names names' strmno s s := ⟨names, hs.advances (.refl s)⟩
  induction fuel generalizing reasm s names with
  | zero => exact ⟨hstay, hreasm⟩
  | succ fuel ih =>
    cases reasm with
    | nil => exact ⟨hstay, hreasm⟩
    | cons fchk rest =>
      have hfchk := hreasm fchk List.mem_cons_self
      have htake : ∀ k, ∀ chk ∈ (fchk :: rest).take k, chk.Fits strmno true :=
        fun k chk hc => hreasm chk (List.mem_of_mem_take hc)
      have hdrop : ∀ k, ∀ chk ∈ (fchk :: rest).drop k, chk.Fits strmno true :=
        fun k chk hc => hreasm chk (List.mem_of_mem_drop hc)
      unfold handleOldDataLoop
      split
      · split
        · exact ⟨hstay, hreasm⟩
        · dsimp only
          split
          · obtain ⟨names', hbuilt⟩ := buildOneUpTo_advances cfg hs (htake _) hfchk
            obtain ⟨⟨names'', hrest⟩, hfits⟩ := ih hbuilt.keyed (hdrop _) ⟨_, hbuilt.keyed.advances (.refl _)⟩
            exact ⟨⟨names'', hbuilt.trans hrest⟩, hfits⟩
          · split
            · exact ⟨buildPdUnordered_advances cfg hs (htake _) hfchk, hdrop _⟩
            · exact ⟨hstay, hreasm⟩
      · rename_i pd hpd
        obtain ⟨hmore, hfits⟩ := appendPd_advances cfg hs (hs.strm.unoPd pd hpd) hreasm
        dsimp only
        split
        · obtain ⟨⟨names', hrest⟩, hfits'⟩ := ih hmore.keyed hfits ⟨_, hmore.keyed.advances (.refl _)⟩
          exact ⟨⟨names', hmore.trans hrest⟩, hfits'⟩
        · exact ⟨⟨names, hmore⟩, hfits⟩

theorem handleOldData_advances (cfg : RecvConfig) {s : StreamRx} {control : Control} (hs : s.Keyed names strmno)
    (hc : control ∈ s.strm.unoInqueue) :
    ∃ names', Advances names names' strmno s (handleOldData cfg s control) := by
  have hplaced := hs.strm.unoInqueue control hc
  obtain ⟨⟨names', hloop⟩, hfits⟩ := handleOldDataLoop_advances cfg (control.reasm.length + 1) hs
    hplaced.reasm
  have hafter := hplaced.mono hloop.enters.nextId hloop.agrees
  refine ⟨names', hloop.trans (hloop.keyed.put (u := true) ?_)⟩
  exact ⟨hafter.named, hafter.stream, hafter.flag, hafter.data, hfits⟩

theorem deliverUnordered_advances {q : List Control} {s : StreamRx} {r : List Control × StreamRx}
    (hs : s.Keyed names strmno) (hq : ∀ c ∈ q, c.Placed names s.nextId strmno true)
    (h : deliverUnordered cfg q s = .ok r) :
    Advances names names strmno s r.2 ∧ ∀ c ∈ r.1, c.Placed names r.2.nextId strmno true := by
  induction q generalizing s r with
  | nil =>
    cases h
    exact ⟨hs.advances (.refl s), hq⟩
  | cons control q ih =>
    have hc := hq control List.mem_cons_self
    have hrest : ∀ c ∈ q, c.Placed names s.nextId strmno true :=
      fun c hc => hq c (List.mem_cons_of_mem control hc)
    have hread := hs.readUnordered hc.named hc.stream hc.flag control.endAdded hs.strm rfl
    unfold deliverUnordered at h
    split at h
    · split at h
      · exact ih hs hrest h
      · have hlater : ∀ c ∈ q, c.Placed names (s.toRecvAsoc.addToReadq control control.endAdded).nextId strmno true :=
          fun c hmem => (hrest c hmem).mono hread.enters.nextId fun _ _ => rfl
        obtain ⟨hmore, hleft⟩ := ih hread.keyed hlater h
        exact ⟨hread.trans hmore, hleft⟩
    · split at h
      · split at h
        · cases h
        cases h
        have hstrm : StreamIn.Keyed names s.nextId strmno { s.strm with pdApiStarted := true } :=
          ⟨hs.strm.inqueue, hs.strm.unoInqueue, hs.strm.unoPd⟩
        have hstart := hs.readUnordered hc.named hc.stream hc.flag control.endAdded hstrm rfl
        refine ⟨hstart, fun c hmem => ?_⟩
        obtain rfl | hmem := List.mem_cons.1 hmem
        · have hlater := hc.mono hstart.enters.nextId fun _ _ => rfl
          exact ⟨hlater.named, hlater.stream, hlater.flag, hlater.data, hlater.reasm⟩
        · exact (hrest c hmem).mono hstart.enters.nextId fun _ _ => rfl
      · obtain ⟨r', hr', rfl⟩ := Attempt.map_ok h
        obtain ⟨hmore, hleft⟩ := ih hs hrest hr'
        refine ⟨hmore, fun c hmem => ?_⟩
        obtain rfl | hmem := List.mem_cons.1 hmem
        · exact hc.mono hmore.enters.nextId fun _ _ => rfl
        · exact hleft c hmem

/-- A control that is delivered now is the next one of the stream. -/
theorem deliverNext_advances {s : StreamRx} {control : Control} (hs : s.Keyed names strmno)
    (hc : control.Placed names s.nextId strmno false) (h : deliverable cfg s control = true) :
    Advances names names strmno s (deliverNext cfg s control) := by
  unfold deliverable at h
  simp only [Bool.and_eq_true, decide_eq_true_iff] at h
  obtain ⟨⟨hssn, hfirst⟩, -⟩ := h
  exact hs.readNext hc (hc.data rfl (.inr hfirst)) hssn _ rfl rfl

theorem deliverMore_advances {q : List Control} {lag : Bool} {s : StreamRx} (hs : s.Keyed names strmno)
    (hq : ∀ c ∈ q, c.Placed names s.nextId strmno false) :
    Advances names names strmno s (deliverMore cfg lag q s).1 := by
  induction q generalizing lag s with
  | nil =>
    have hnone : ∀ c ∈ ([] : List Control), c.Placed names s.nextId strmno false :=
      fun c hc => absurd hc List.not_mem_nil
    exact hs.requeued ⟨hnone, hs.strm.unoInqueue, hs.strm.unoPd⟩ rfl
  | cons control q ih =>
    have hc := hq control List.mem_cons_self
    have hrest : ∀ c ∈ q, c.Placed names s.nextId strmno false :=
      fun c hc => hq c (List.mem_cons_of_mem control hc)
    unfold deliverMore
    dsimp only
    split
    · refine hs.requeued ⟨fun c hmem => ?_, hs.strm.unoInqueue, hs.strm.unoPd⟩ rfl
      dsimp only at hmem
      split at hmem
      · exact hrest c hmem
      · exact hq c hmem
    · split
      · exact ih hs hrest
      · split
        · rename_i hnow
          have hnext := deliverNext_advances hs hc hnow
          have hlater : ∀ c ∈ control :: q,
              c.Placed names (deliverNext cfg s control).nextId strmno false :=
            fun c hmem => (hq c hmem).mono hnext.enters.nextId fun _ _ => rfl
          have hrest' : ∀ c ∈ q, c.Placed names (deliverNext cfg s control).nextId strmno false :=
            fun c hmem => hlater c (List.mem_cons_of_mem control hmem)
          split
          · split
            · exact hnext.trans (ih hnext.keyed hrest')
            · refine hnext.trans (hnext.keyed.requeued ⟨hrest', ?_, ?_⟩ rfl)
              · exact hnext.keyed.strm.unoInqueue
              · exact hnext.keyed.strm.unoPd
          · refine hnext.trans (hnext.keyed.requeued ⟨fun c hmem => ?_, ?_, ?_⟩ rfl)
            · obtain rfl | hmem := List.mem_cons.1 hmem
              · have hhead := hlater control List.mem_cons_self
                exact ⟨hhead.named, hhead.stream, hhead.flag, hhead.data, hhead.reasm⟩
              · exact hrest' c hmem
            · exact hnext.keyed.strm.unoInqueue
            · exact hnext.keyed.strm.unoPd
        · exact hs.requeued ⟨hq, hs.strm.unoInqueue, hs.strm.unoPd⟩ rfl

theorem deliverUnorderedFrom_advances {s t : StreamRx} {k : ℕ} (hs : s.Keyed names strmno)
    (h : deliverUnorderedFrom cfg k s = .ok t) : Advances names names strmno s t := by
  obtain ⟨r, hr, rfl⟩ := Attempt.map_ok h
  have hdrop : ∀ c ∈ s.strm.unoInqueue.drop k, c.Placed names s.nextId strmno true :=
    fun c hc => hs.strm.unoInqueue c (List.mem_of_mem_drop hc)
  obtain ⟨hmore, hleft⟩ := deliverUnordered_advances hs hdrop hr
  refine hmore.trans (hmore.keyed.requeued ⟨hmore.keyed.strm.inqueue, fun c hmem => ?_, ?_⟩ rfl)
  · obtain hmem | hmem := List.mem_append.1 hmem
    · exact (hs.strm.unoInqueue c (List.mem_of_mem_take hmem)).mono hmore.enters.nextId fun _ _ => rfl
    · exact hleft c hmem
  · exact hmore.keyed.strm.unoPd

theorem deliverRest_advances {s : StreamRx} {lost : Bool} {k : ℕ} {r : StreamRx × ℕ}
    (hs : s.Keyed names strmno)
    (h : (if lost = true then Except.error Fault.crash
      else if s.strm.pdApiStarted = true then .ok (s, 0)
      else (deliverUnorderedFrom cfg k s).map fun t => deliverMore cfg false t.strm.inqueue t) = .ok r) :
    Advances names names strmno s r.1 := by
  split at h
  · cases h
  · split at h
    · cases h
      exact hs.advances (.refl s)
    · obtain ⟨t, ht, rfl⟩ := Attempt.map_ok h
      have hfrom := deliverUnorderedFrom_advances hs ht
      exact hfrom.trans (deliverMore_advances hfrom.keyed hfrom.keyed.strm.inqueue)

theorem deliverReasmCheck_advances {s : StreamRx} {r : StreamRx × ℕ} (hs : s.Keyed names strmno)
    (h : deliverReasmCheck cfg s = .ok r) : ∃ names', Advances names names' strmno s r.1 := by
  unfold deliverReasmCheck at h
  dsimp only at h
  cases hold : s.strm.unoInqueue.head?.filter (·.oldData) with
  | none =>
    rw [hold] at h
    exact ⟨names, deliverRest_advances hs h⟩
  | some control =>
    rw [hold] at h
    have hmem : control ∈ s.strm.unoInqueue :=
      List.mem_of_mem_head? (Option.mem_filter_iff.1 hold).1
    obtain ⟨names', hhandled⟩ := handleOldData_advances cfg hs hmem
    exact ⟨names', hhandled.trans (deliverRest_advances hhandled.keyed h)⟩

theorem queueFragment_advances {s : StreamRx} {control : Control} {chk : RecvChunk}
    (hs : s.Keyed names strmno) (hc : control.Placed names s.nextId strmno u)
    (hchk : chk.Fits strmno u) :
    Advances names names strmno s (queueFragment s control chk).1 ∧
      (queueFragment s control chk).2.1.Placed names (queueFragment s control chk).1.nextId strmno u := by
  unfold queueFragment
  split
  · rename_i q hq
    refine ⟨Keyed.advances ⟨hs.read, hs.strm⟩ (.of_same le_rfl rfl rfl), hc.named, hc.stream, hc.flag,
      hc.data, fun c hmem => ?_⟩
    obtain rfl | hmem := mem_insertByFsn hq hmem
    · exact hchk
    · exact hc.reasm c hmem
  · exact ⟨hs.advances (.refl s), hc⟩

theorem suckUp_advances (cfg : RecvConfig) {q : List RecvChunk} {s : StreamRx} (control : Control)
    (hs : s.Keyed names strmno) (hc : control.Placed names s.nextId strmno u)
    (hq : ∀ chk ∈ q, chk.Fits strmno u) :
    Advances names names strmno s (suckUp cfg q s control).1 ∧
      (suckUp cfg q s control).2.Placed names (suckUp cfg q s control).1.nextId strmno u := by
  induction q generalizing s control with
  | nil =>
    refine ⟨hs.advances (.refl s), hc.named, hc.stream, hc.flag, hc.data, fun chk hmem => ?_⟩
    exact absurd hmem List.not_mem_nil
  | cons chk q ih =>
    unfold suckUp
    split
    · have hmerged := hc.merge (hq chk List.mem_cons_self).data
      have hstep : Advances names names strmno s
          { toRecvAsoc := s.toRecvAsoc.merged cfg.doDrain chk
            strm := { s.strm with
              pdApiStarted := s.strm.pdApiStarted &&
                !((control.merge chk).onReadQ && (control.merge chk).endAdded) } } :=
        Keyed.advances ⟨hs.read, hs.strm.inqueue, hs.strm.unoInqueue, hs.strm.unoPd⟩
          (.of_same le_rfl rfl rfl)
      obtain ⟨hmore, hplaced⟩ := ih (control.merge chk) hstep.keyed hmerged
        fun x hx => hq x (List.mem_cons_of_mem chk hx)
      exact ⟨hstep.trans hmore, hplaced⟩
    · exact ⟨hs.advances (.refl s), hc.named, hc.stream, hc.flag, hc.data, hq⟩

theorem noteLast_placed {control c : Control} {chk : RecvChunk}
    (hc : control.Placed names top strmno u) (h : noteLast control chk = .ok c) :
    c.Placed names top strmno u := by
  unfold noteLast at h
  split at h
  · cases h
    exact ⟨hc.named, hc.stream, hc.flag, hc.data, hc.reasm⟩
  · split at h
    · cases h
    · split at h
      · cases h
      · cases h
        exact hc

theorem firstFragment_advances (cfg : RecvConfig) {s : StreamRx} {control : Control} {chk : RecvChunk}
    (hs : s.Keyed names strmno) (hc : control.Placed names s.nextId strmno u)
    (hchk : chk.Fits strmno u) :
    Advances names names strmno s (firstFragment cfg s control chk).1 ∧
      (firstFragment cfg s control chk).2.Placed names s.nextId strmno u :=
  ⟨Keyed.advances ⟨hs.read, hs.strm⟩ (.of_same le_rfl rfl rfl), hc.named, hc.stream, hc.flag,
    fun _ _ => hchk.data, hc.reasm⟩

theorem reassemble_advances {s t : StreamRx} {control : Control} {chk : RecvChunk}
    (hs : s.Keyed names strmno) (hc : control.Placed names s.nextId strmno u) (hchk : chk.Fits strmno u)
    (h : reassemble cfg s control chk = .ok t) : Advances names names strmno s t := by
  unfold reassemble at h
  split at h
  · split at h
    · cases h
    · cases h
      obtain ⟨hfirst, hstarted⟩ := firstFragment_advances cfg hs hc hchk
      obtain ⟨hsuck, hplaced⟩ := suckUp_advances cfg _ hfirst.keyed hstarted hc.reasm
      exact (hfirst.trans hsuck).trans (hsuck.keyed.put hplaced)
  · obtain ⟨c, hnote, rfl⟩ := Attempt.map_ok h
    dsimp only
    obtain ⟨hqueued, hplaced⟩ := queueFragment_advances hs (noteLast_placed hc hnote) hchk
    split
    · obtain ⟨hsuck, hleft⟩ := suckUp_advances cfg _ hqueued.keyed hplaced hplaced.reasm
      exact (hqueued.trans hsuck).trans (hsuck.keyed.put hleft)
    · exact hqueued.trans (hqueued.keyed.put hplaced)

theorem queuePlaced_advances {t : StreamRx} {r : StreamRx × Bool} {control : Control} {chk : RecvChunk}
    {gap : Bool} {fault : AbortSpot → Fault} (hr : r.1.Keyed names strmno)
    (hc : control.Placed names r.1.nextId strmno u) (hchk : chk.Fits strmno u)
    (h : (if r.2 = true then Except.ok r.1
      else if gap = true then .error (fault .loc3)
      else if (control.oldData && control.sinfoFlags.unordered) = true then
        .ok ((queueFragment r.1 control chk).1.put (queueFragment r.1 control chk).2.1)
      else (reassemble cfg r.1 control chk).mapError fault) = .ok t) :
    Advances names names strmno r.1 t := by
  split at h
  · cases h
    exact hr.advances (.refl _)
  · split at h
    · cases h
    · split at h
      · cases h
        obtain ⟨hqueued, hplaced⟩ := queueFragment_advances hr hc hchk
        exact hqueued.trans (hqueued.keyed.put hplaced)
      · exact reassemble_advances hr hc hchk (Attempt.mapError_ok h)

theorem queueDataForReasm_advances {s t : StreamRx} {control : Control} {chk : RecvChunk}
    {created : Bool} (hs : s.Keyed names strmno) (hc : control.Placed names s.nextId strmno u)
    (hchk : chk.Fits strmno u) (h : queueDataForReasm cfg s control chk created = .ok t) :
    Advances names names strmno s t := by
  unfold queueDataForReasm at h
  dsimp only at h
  split at h
  · obtain ⟨r, hr, h⟩ := Attempt.bind_ok h
    have hplace := placeControlInStream_advances hs hc hr
    exact hplace.trans (queuePlaced_advances hplace.keyed
      (hc.mono hplace.enters.nextId fun _ _ => rfl) hchk h)
  · exact queuePlaced_advances (r := (s, false)) hs hc hchk h

end

end Sctp
