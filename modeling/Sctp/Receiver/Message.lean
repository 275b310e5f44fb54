import Sctp.Receiver.Sequence
import Sctp.Receiver.Process

/-! The peer's messages in fragments, and how much of one is in a control. -/
namespace Sctp
open Bitmap

structure Message where
  streamId : StreamNo
  ssn : Ssn
  unordered : Bool
  /-- `msg_id`, if the message is sent in I-DATA chunks. -/
  msgId : Option (BitVec 32)
  tsn : ℕ → Tsn
  /-- The data of the fragments. -/
  parts : List (List Byte)
  nonempty : 0 < parts.length
  small : parts.length < 2 ^ 32
  /-- In DATA chunks the TSNs number the fragments. -/
  consecutive : msgId = none → ∀ i, tsn i = tsn 0 + BitVec.ofNat 32 i

namespace Message

theorem one_lt : 1 < 2 ^ 32 := by decide

theorem two_lt : 2 < 2 ^ 32 := by decide

theorem tsn_add (tsn : Tsn) (i : ℕ) :
    tsn + BitVec.ofNat 32 i = tsn + BitVec.ofNat 32 0 + BitVec.ofNat 32 i := by
  bv_omega

def ofData (streamId : StreamNo) (ssn : Ssn) (unordered : Bool) (tsn : Tsn) (parts : List (List Byte))
    (nonempty : 0 < parts.length) (small : parts.length < 2 ^ 32) : Message where
  streamId := streamId
  ssn := ssn
  unordered := unordered
  msgId := none
  tsn := fun i => tsn + BitVec.ofNat 32 i
  parts := parts
  nonempty := nonempty
  small := small
  consecutive := fun _ => tsn_add tsn

variable (m : Message)

def number : BitVec 32 := m.msgId.getD (m.ssn.setWidth 32)

def fsn (i : ℕ) : BitVec 32 := if m.msgId.isSome then BitVec.ofNat 32 i else m.tsn i

def Split : Prop := 1 < m.parts.length

theorem fsn_eq (i : ℕ) : m.fsn i = m.fsn 0 + BitVec.ofNat 32 i := by
  unfold fsn
  split
  · exact (BitVec.zero_add _).symm
  · rename_i hnone
    exact m.consecutive (Option.not_isSome_iff_eq_none.1 hnone) i

theorem fsn_succ (i : ℕ) : m.fsn (i + 1) = m.fsn i + 1 := by
  rw [m.fsn_eq (i + 1), m.fsn_eq i, BitVec.ofNat_add, ← BitVec.add_assoc]
  rfl

theorem fsn_inj {i j : ℕ} (hi : i < 2 ^ 32) (hj : j < 2 ^ 32) (h : m.fsn i = m.fsn j) : i = j := by
  rw [m.fsn_eq i, m.fsn_eq j] at h
  bv_omega

end Message

structure DataChunk.PartOf (ch : DataChunk) (m : Message) (i : ℕ) : Prop where
  data : m.parts[i]? = some ch.data
  tsn : ch.tsn = m.tsn i
  streamId : ch.streamId = m.streamId
  streamSequence : ch.streamSequence = m.ssn
  unordered : ch.chunkFlags.unordered = m.unordered
  first : ch.chunkFlags.first = decide (i = 0)
  last : ch.chunkFlags.last = decide (i + 1 = m.parts.length)
  ndata : ch.ndata = m.msgId.map fun id => (id, BitVec.ofNat 32 i)

structure RecvChunk.PartOf (chk : RecvChunk) (m : Message) (i : ℕ) : Prop where
  data : m.parts[i]? = some chk.data
  tsn : chk.tsn = m.tsn i
  fsn : chk.fsn = m.fsn i
  streamNumber : chk.streamNumber = m.streamId
  streamSeq : chk.streamSeq = m.ssn
  unordered : chk.rcvFlags.unordered = m.unordered
  first : chk.rcvFlags.first = decide (i = 0)
  last : chk.rcvFlags.last = decide (i + 1 = m.parts.length)

/-- A fragment of an unordered message in the format without `fsn`. -/
def RecvChunk.OldPart (messages : List Message) (chk : RecvChunk) : Prop :=
  ∃ m ∈ messages, m.unordered = true ∧ m.msgId = none ∧ m.Split ∧ ∃ i, chk.PartOf m i

def DistinctTsns (messages : List Message) : Prop :=
  ∀ m ∈ messages, ∀ m' ∈ messages, ∀ i < m.parts.length, ∀ j < m'.parts.length,
    m.tsn i = m'.tsn j → m = m' ∧ i = j

namespace DataChunk.PartOf

variable {ch : DataChunk} {m : Message} {i : ℕ}

theorem lt (h : ch.PartOf m i) : i < m.parts.length :=
  (List.getElem?_eq_some_iff.1 h.data).1

theorem oldData (h : ch.PartOf m i) : ch.oldData = m.msgId.isNone := by
  rw [DataChunk.oldData, h.ndata, Option.isNone_map]

theorem msgId (h : ch.PartOf m i) : ch.msgId = m.number := by
  rw [DataChunk.msgId, h.ndata, Message.number, h.streamSequence]
  cases m.msgId with
  | none => rfl
  | some id => rfl

theorem fsn (h : ch.PartOf m i) : ch.fsn = m.fsn i := by
  rw [DataChunk.fsn, h.ndata, Message.fsn, h.tsn]
  cases m.msgId with
  | none => rfl
  | some id => rfl

theorem notFrag (h : ch.PartOf m i) : ch.chunkFlags.notFrag = true ↔ m.parts.length = 1 := by
  have hlt := h.lt
  rw [RcvFlags.notFrag, h.first, h.last, Bool.and_eq_true, decide_eq_true_iff, decide_eq_true_iff]
  omega

theorem recvChunk (h : ch.PartOf m i) : ch.recvChunk.PartOf m i :=
  ⟨h.data, h.tsn, h.fsn, h.streamId, h.streamSequence, h.unordered, h.first, h.last⟩

end DataChunk.PartOf

namespace Control

/-- The control has the first `k` fragments of the message. -/
structure Has (c : Control) (m : Message) (k : ℕ) : Prop where
  le : k ≤ m.parts.length
  data : c.data = (m.parts.take k).flatten
  ended : c.endAdded = true → k = m.parts.length
  opened : m.Split → k = m.parts.length → c.endAdded = true
  fsn : m.Split → ∀ j, k = j + 1 → c.fsnIncluded = m.fsn j
  seen : m.Split → (c.firstFragSeen = true ↔ 0 < k)
  whole : ¬m.Split → k = m.parts.length

structure Carries (c : Control) (m : Message) : Prop where
  stream : c.sinfoStream = m.streamId
  ssn : c.sinfoSsn = m.ssn
  unordered : c.sinfoFlags.unordered = m.unordered
  tsn : ∃ i < m.parts.length, c.sinfoTsn = m.tsn i
  has : ∃ k, c.Has m k

structure Waits (c : Control) (m : Message) : Prop extends c.Carries m where
  msgId : c.msgId = m.number
  oldData : c.oldData = m.msgId.isNone
  notFrag : c.sinfoFlags.notFrag = true ↔ m.parts.length = 1
  reasm : ∀ chk ∈ c.reasm, ∃ i, chk.PartOf m i

variable {c : Control} {m : Message} {chk : RecvChunk} {k i : ℕ}

/-- The next fragment is appended. -/
theorem Has.merge (h : c.Has m k) (hsplit : m.Split) (hchk : chk.PartOf m k) :
    (c.merge chk).Has m (k + 1) := by
  obtain ⟨hlt, hdata⟩ := List.getElem?_eq_some_iff.1 hchk.data
  constructor
  · exact hlt
  · change c.data ++ chk.data = _
    rw [h.data, List.take_add_one, hchk.data, List.flatten_append]
    simp
  · intro hended
    change (c.endAdded || chk.rcvFlags.last) = true at hended
    rw [hchk.last, Bool.or_eq_true, decide_eq_true_iff] at hended
    obtain hended | hended := hended
    · exact absurd (h.ended hended) hlt.ne
    · exact hended
  · intro _ hk
    change (c.endAdded || chk.rcvFlags.last) = true
    rw [hchk.last, hk, decide_eq_true rfl, Bool.or_true]
  · intro _ j hj
    obtain rfl : k = j := Nat.succ.inj hj
    exact hchk.fsn
  · intro _
    refine ⟨fun _ => Nat.succ_pos k, fun _ => ?_⟩
    change (c.firstFragSeen || chk.rcvFlags.first) = true
    rw [hchk.first, Bool.or_eq_true, decide_eq_true_iff, h.seen hsplit]
    omega
  · exact fun hwhole => absurd hsplit hwhole

/-- The fragment behind the ones the control has. -/
theorem Has.next (h : c.Has m k) (hsplit : m.Split) (hpos : 0 < k) (hchk : chk.PartOf m i)
    (hfsn : chk.fsn = c.fsnIncluded + 1) : i = k := by
  obtain ⟨j, rfl⟩ := Nat.exists_eq_add_of_lt hpos
  have hlt := (List.getElem?_eq_some_iff.1 hchk.data).1
  have hle := h.le
  have hsmall := m.small
  rw [h.fsn hsplit _ rfl, ← m.fsn_succ, hchk.fsn] at hfsn
  exact m.fsn_inj (by omega) (by omega) hfsn

/-- A control without data, made for a fragment. -/
theorem Has.none (hsplit : m.Split) (hdata : c.data = []) (hended : c.endAdded = false)
    (hseen : c.firstFragSeen = false) : c.Has m 0 := by
  have hpos := m.nonempty
  constructor
  · exact Nat.zero_le _
  · exact hdata
  · intro h
    rw [hended] at h
    cases h
  · exact fun _ h => absurd h hpos.ne
  · exact fun _ j hj => absurd hj (Nat.succ_ne_zero j).symm
  · intro _
    rw [hseen]
    exact ⟨fun h => absurd h Bool.false_ne_true, fun h => absurd h (lt_irrefl 0)⟩
  · exact fun hwhole => absurd hsplit hwhole

/-- The first fragment starts the data. -/
theorem Has.start (h : c.Has m 0) (hsplit : m.Split) (hchk : chk.PartOf m 0) :
    Has { c with firstFragSeen := true, fsnIncluded := chk.fsn, data := chk.data
                 length := chk.data.length } m 1 := by
  constructor
  · exact hsplit.le
  · rw [List.take_add_one, hchk.data]
    simp
  · exact fun hended => absurd (h.ended hended) m.nonempty.ne
  · exact fun _ hone => absurd hone hsplit.ne
  · intro _ j hj
    obtain rfl : 0 = j := Nat.succ.inj hj
    exact hchk.fsn
  · exact fun _ => ⟨fun _ => Nat.zero_lt_one, fun _ => rfl⟩
  · exact fun hwhole => absurd hsplit hwhole

/-- What else changes in a control does not matter. -/
theorem Has.congr (h : c.Has m k) {c' : Control} (hdata : c'.data = c.data)
    (hended : c'.endAdded = c.endAdded) (hfsn : c'.fsnIncluded = c.fsnIncluded)
    (hseen : c'.firstFragSeen = c.firstFragSeen) : c'.Has m k := by
  constructor
  · exact h.le
  · rw [hdata]
    exact h.data
  · rw [hended]
    exact h.ended
  · rw [hended]
    exact h.opened
  · rw [hfsn]
    exact h.fsn
  · rw [hseen]
    exact h.seen
  · exact h.whole

/-- The control goes on to wait. -/
theorem Waits.again (h : c.Waits m) {c' : Control} (hkey : c'.key = c.key)
    (hflags : c'.sinfoFlags = c.sinfoFlags) (hreasm : ∀ chk ∈ c'.reasm, ∃ i, chk.PartOf m i)
    (hhas : ∃ k, c'.Has m k) : c'.Waits m := by
  have hstream : c'.sinfoStream = c.sinfoStream := congrArg MsgKey.stream hkey
  have hssn : c'.sinfoSsn = c.sinfoSsn := congrArg MsgKey.ssn hkey
  have htsn : c'.sinfoTsn = c.sinfoTsn := congrArg MsgKey.tsn hkey
  have hmsgId : c'.msgId = c.msgId := congrArg MsgKey.msgId hkey
  have hold : c'.oldData = c.oldData := congrArg MsgKey.oldData hkey
  exact ⟨⟨hstream.trans h.stream, hssn.trans h.ssn, hflags ▸ h.unordered, htsn ▸ h.tsn, hhas⟩,
    hmsgId.trans h.msgId, hold.trans h.oldData, hflags ▸ h.notFrag, hreasm⟩

/-- A control that is given to the user; only a whole message is complete by that. -/
theorem Carries.readq (h : c.Carries m) (last : Bool) (hlast : last = true → c.endAdded = true ∨ ¬m.Split) :
    (RecvAsoc.readqControl c last).Carries m := by
  obtain ⟨hstream, hssn, hunordered, htsn, k, hhas⟩ := h
  refine ⟨hstream, hssn, hunordered, htsn, k, hhas.le, hhas.data, fun hended => ?_, fun hsplit hk => ?_,
    hhas.fsn, hhas.seen, hhas.whole⟩
  · change (c.endAdded || last) = true at hended
    obtain hended | hended := Bool.or_eq_true _ _ ▸ hended
    · exact hhas.ended hended
    · obtain hended | hwhole := hlast hended
      · exact hhas.ended hended
      · exact hhas.whole hwhole
  · change (c.endAdded || last) = true
    rw [hhas.opened hsplit hk, Bool.true_or]

end Control

namespace Control

/-- The control holds part of a message, or nothing yet. -/
def Intact (messages : List Message) (c : Control) : Prop :=
  (c.data = [] ∧ c.endAdded = false) ∨ ∃ m ∈ messages, c.Carries m

/-- The control on which all unordered fragments of a stream gather, in the format without `fsn`. -/
structure Gathers (messages : List Message) (c : Control) : Prop where
  oldData : c.oldData = true
  data : c.data = []
  ended : c.endAdded = false
  notFrag : c.sinfoFlags.notFrag = false
  unordered : c.sinfoFlags.unordered = true
  tsn : ∃ m ∈ messages, m.msgId = none ∧ ∃ i < m.parts.length, c.sinfoTsn = m.tsn i
  reasm : ∀ chk ∈ c.reasm, chk.OldPart messages

def Stays (messages : List Message) (c : Control) : Prop :=
  (∃ m ∈ messages, (m.unordered = true → m.msgId.isSome = true) ∧ c.Waits m) ∨ c.Gathers messages

/-- The control of an unordered message that is delivered in parts. -/
structure Partial (messages : List Message) (c : Control) (m : Message) : Prop extends c.Carries m where
  mem : m ∈ messages
  old : m.msgId = none
  split : m.Split
  begun : c.firstFragSeen = true
  ended : c.endAdded = false
  oldData : c.oldData = false

variable {messages : List Message} {c : Control}

theorem Stays.intact (h : c.Stays messages) : c.Intact messages := by
  obtain ⟨m, hm, -, hwaits⟩ | hgathers := h
  · exact .inr ⟨m, hm, hwaits.toCarries⟩
  · exact .inl ⟨hgathers.data, hgathers.ended⟩

/-- A whole message that is given to the user. -/
theorem Stays.readqWhole (h : c.Stays messages) (hwhole : c.sinfoFlags.notFrag = true) :
    (RecvAsoc.readqControl c true).Intact messages := by
  obtain ⟨m, hm, -, hwaits⟩ | hgathers := h
  · refine .inr ⟨m, hm, hwaits.toCarries.readq true fun _ => .inr ?_⟩
    rw [Message.Split, hwaits.notFrag.1 hwhole]
    exact lt_irrefl 1
  · rw [hgathers.notFrag] at hwhole
    cases hwhole

theorem Intact.readq (h : c.Intact messages) : (RecvAsoc.readqControl c c.endAdded).Intact messages := by
  obtain ⟨hdata, hended⟩ | ⟨m, hm, hcarries⟩ := h
  · refine .inl ⟨hdata, ?_⟩
    change (c.endAdded || c.endAdded) = false
    rw [hended]
    rfl
  · exact .inr ⟨m, hm, hcarries.readq _ .inl⟩

theorem Intact.put {x : Control} (hc : c.Intact messages) (hx : x.Intact messages) :
    (c.put x).Intact messages := by
  unfold Control.put
  split
  · exact hc
  · exact hx

theorem Stays.put {x : Control} (hc : c.Stays messages) (hx : x.Stays messages) :
    (c.put x).Stays messages := by
  unfold Control.put
  split
  · exact hc
  · exact hx

end Control

end Sctp
