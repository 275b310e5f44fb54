import Sctp.Receiver.Delivery
import Sctp.Receiver.Layout
import Sctp.Receiver.Moves

/-! What the user of a stream is given are the messages that the peer sent on it, each one once and in the
order in which they were sent. A stream sequence number alone would leave open which of many messages with
the same number it is; that nothing waits for long decides it. -/
namespace Sctp
open Serial

/-- The key of a control that was made for a fragment of the message. -/
structure MsgKey.Of (k : MsgKey) (m : Message) : Prop where
  stream : k.stream = m.streamId
  ssn : k.ssn = m.ssn
  unordered : k.unordered = m.unordered
  tsn : ∃ a < m.parts.length, k.tsn = m.tsn a

theorem DataChunk.PartOf.key {ch : DataChunk} {m : Message} {i : ℕ} (h : ch.PartOf m i) : ch.key.Of m :=
  ⟨h.streamId, h.streamSequence, h.unordered, i, h.lt, h.tsn⟩

theorem Control.Carries.key {c : Control} {m : Message} (h : c.Carries m) : c.key.Of m :=
  ⟨h.stream, h.ssn, h.unordered, h.tsn⟩

/-- Far behind a TSN that was accepted all others were accepted too. -/
def Gapless (init : Tsn) (accepted : List Tsn) : Prop :=
  ∀ u ∈ accepted, ∀ q, q + 2 ^ 14 ≤ place init u → advance init q ∈ accepted

namespace RecvRun

variable {init : Tsn} {s : RecvRun}

theorem Sound.gapless (h : s.Sound init) : Gapless init s.accepted := by
  obtain ⟨w, hw⟩ := h.window
  intro u hu q hq
  have hlt := hw.lt_of_mem (mem_places.2 hu)
  have := hw.size_lt
  have := hw.base_le
  unfold place at hq
  exact advance_mem (hw.below q (by omega))

theorem Sound.place_lt (h : s.Sound init) (hroom : s.accepted.length + 2 ^ 14 < 2 ^ 31) {u : Tsn}
    (hu : u ∈ s.accepted) : place init u < 2 ^ 31 := by
  obtain ⟨w, hw⟩ := h.window
  have hlt := hw.lt_of_mem (mem_places.2 hu)
  have := hw.end_lt (few init hroom)
  unfold place
  omega

/-- What was accepted is not far ahead of a TSN in reach. -/
theorem Sound.inReach (h : s.Sound init) (hroom : s.accepted.length + 2 ^ 14 < 2 ^ 31) {tsn : Tsn}
    (hreach : s.toTsnMap.InReach tsn) :
    place init tsn < 2 ^ 31 ∧ ∀ u ∈ s.accepted, place init u < place init tsn + 2 ^ 14 := by
  obtain ⟨w, hw⟩ := h.window
  have hfew := few init hroom
  obtain ⟨htsn, hnext⟩ := hw.chunk_place hfew hreach.1 rfl hreach.2
  have hgap := hreach.2
  generalize (calcTsnToGap tsn s.mappingArrayBaseTsn).toNat = gap at htsn hnext hgap
  have hlim : mappingArrayMax = 512 := rfl
  have hcard := hw.next_le
  have hbase := hw.base_le
  have hfew' := hfew
  unfold TsnMap.Few at hfew'
  have hplace : place init tsn = w.base + gap := by
    rw [htsn]
    exact place_advance init (by omega)
  refine ⟨by omega, fun u hu => ?_⟩
  have hlt := hw.lt_of_mem (mem_places.2 hu)
  have := hw.size_lt
  rw [hplace]
  unfold place
  omega

end RecvRun

/-- A message that may be delivered when the TSN arrives: an ordered one of the stream, not far behind. -/
structure Candidate (init : Tsn) (messages : List Message) (tsn : Tsn) (i : StreamNo) (k : MsgKey) : Prop where
  stream : k.stream = i
  ordered : k.unordered = false
  near : place init tsn < place init k.tsn + 2 ^ 15
  below : place init k.tsn < place init tsn + 2 ^ 14
  of : ∃ (j : ℕ) (m : Message), (orderedOn i messages)[j]? = some m ∧ k.Of m

section

variable {init : Tsn} {messages : List Message} {tsn : Tsn} {i : StreamNo} {k k' : MsgKey} {j j' : ℕ}
  {m m' : Message}

/-- One message is not far ahead of another when neither is far from the same TSN. -/
theorem Posted.spread (hsent : Posted init messages) (hm : (orderedOn i messages)[j]? = some m)
    (hm' : (orderedOn i messages)[j']? = some m') (hk : k.Of m) (hk' : k'.Of m')
    (hnear : place init tsn < place init k.tsn + 2 ^ 15)
    (hbelow : place init k'.tsn < place init tsn + 2 ^ 14) : j' < j + (2 ^ 15 + 2 ^ 14) := by
  by_contra hfar
  obtain ⟨a, ha, htsn⟩ := hk.tsn
  obtain ⟨b, hb, htsn'⟩ := hk'.tsn
  have hsmall := hsent.small
  have := hsent.laid.apart (by omega) hm hm' (by omega) ha hb
  rw [htsn] at hnear
  rw [htsn'] at hbelow
  omega

theorem index_of_number {n : ℕ} (hssn : BitVec.ofNat 16 j = BitVec.ofNat 16 n) (hlt : j < n + 2 ^ 16)
    (hlt' : n < j + 2 ^ 16) : j = n := by
  have hmod := congrArg BitVec.toNat hssn
  rw [BitVec.toNat_ofNat, BitVec.toNat_ofNat] at hmod
  omega

/-- A control is made for one message only. -/
theorem Posted.index_inj (hsent : Posted init messages) (hm : (orderedOn i messages)[j]? = some m)
    (hm' : (orderedOn i messages)[j']? = some m') (hk : k.Of m) (hk' : k.Of m') : j = j' := by
  obtain ⟨a, ha, htsn⟩ := hk.tsn
  obtain ⟨b, hb, htsn'⟩ := hk'.tsn
  have hsmall := hsent.small
  obtain hlt | heq | hlt := Nat.lt_trichotomy j j'
  · have := hsent.laid.apart (by omega) hm hm' hlt ha hb
    rw [← htsn, ← htsn'] at this
    omega
  · exact heq
  · have := hsent.laid.apart (by omega) hm' hm hlt hb ha
    rw [← htsn, ← htsn'] at this
    omega

/-- Two such messages with the same number are the same. -/
theorem Candidate.same (hsent : Posted init messages) (h : Candidate init messages tsn i k)
    (h' : Candidate init messages tsn i k') (hssn : k'.ssn = k.ssn) (hk : k.Of m)
    (hm : (orderedOn i messages)[j]? = some m) : k'.Of m := by
  obtain ⟨j', m', hm', hk'⟩ := h'.of
  have hlt := hsent.spread hm hm' hk hk' h.near h'.below
  have hlt' := hsent.spread hm' hm hk' hk h'.near h.below
  have hnumber : BitVec.ofNat 16 j = BitVec.ofNat 16 j' := by
    rw [← hsent.numbered i j m hm, ← hsent.numbered i j' m' hm', ← hk.ssn, ← hk'.ssn, hssn]
  obtain rfl := index_of_number hnumber (by omega) (by omega)
  obtain rfl := Option.some.inj (hm.symm.trans hm')
  exact hk'

/-- The message is not far ahead of the first one that does not wait and was not delivered. -/
theorem Candidate.lt (hsent : Posted init messages) (h : Candidate init messages tsn i k) {accepted : List Tsn}
    (hgapless : Gapless init (accepted ++ [tsn])) (hk : k.tsn ∈ accepted ++ [tsn]) {waiting : List MsgKey}
    (hwaiting : ∀ k' ∈ waiting, Candidate init messages tsn i k') {n : ℕ}
    (hcovers : ∀ m, (orderedOn i messages)[n]? = some m → m.tsn 0 ∈ accepted → ∃ k' ∈ waiting, k'.Of m)
    (hof : k.Of m) (hm : (orderedOn i messages)[j]? = some m) : j < n + (2 ^ 15 + 2 ^ 14) := by
  by_contra hfar
  have hlen := (List.getElem?_eq_some_iff.1 hm).1
  obtain ⟨m', hm'⟩ : ∃ m', (orderedOn i messages)[n]? = some m' :=
    ⟨_, List.getElem?_eq_getElem (by omega)⟩
  obtain ⟨b, hb, htsn⟩ := hof.tsn
  have hsmall := hsent.small
  have hapart := hsent.laid.apart (by omega) hm' hm (by omega) m'.nonempty hb
  rw [← htsn] at hapart
  have hbelow := h.below
  -- its first fragment is so far behind that it was accepted, and before this one
  have hold := hgapless k.tsn hk (place init (m'.tsn 0)) (by omega)
  rw [advance_place] at hold
  obtain hold | hnew := List.mem_append.1 hold
  · obtain ⟨k', hmem, hof'⟩ := hcovers m' hm' hold
    have := hsent.spread hm' hm hof' hof (hwaiting k' hmem).near hbelow
    omega
  · rw [List.mem_singleton.1 hnew] at hapart
    omega

end

/-- Only a chunk in reach is marked. -/
theorem DataReceiver.processADataChunk_inReach {env : ChunkEnv} {s : DataReceiver} {ch : DataChunk}
    {r : DataReceiver × ChunkDone} (h : s.processADataChunk env ch = .ok r) (hmarks : r.2.marks = true) :
    s.toTsnMap.InReach ch.tsn := by
  unfold processADataChunk at h
  dsimp only at h
  split at h
  · cases h
    cases hmarks
  · rename_i hahead
    split at h
    · cases h
      cases hmarks
    · rename_i hnear
      exact ⟨Bool.eq_false_iff.2 hahead, not_le.1 hnear⟩

/-- Nothing waits on the stream of the chunk that is far behind it. -/
def Receiver.Recent (s : Receiver) (ch : DataChunk) : Prop :=
  ∀ c ∈ (s.strmin ch.streamId).inqueue, (ch.tsn - c.sinfoTsn).toInt < 2 ^ 15

instance Receiver.Recent.decidable (s : Receiver) (ch : DataChunk) : Decidable (s.Recent ch) :=
  inferInstanceAs (Decidable (∀ c ∈ (s.strmin ch.streamId).inqueue, (ch.tsn - c.sinfoTsn).toInt < 2 ^ 15))

namespace UserRun

/-- The ordered messages of the stream that the user took, and behind them those on the read queue. -/
def orderedControls (s : UserRun) (i : StreamNo) : List Control :=
  (s.taken ++ s.readQueue).filter fun d => d.sinfoStream == i && !d.sinfoFlags.unordered

def orderedKeys (s : UserRun) (i : StreamNo) : List MsgKey := (s.orderedControls i).map Control.key

/-- What holds in every state of a run: what was delivered on a stream are its first messages, and of the
others those wait of which something was accepted. -/
structure Exactly (init : Tsn) (messages : List Message) (s : UserRun) : Prop where
  delivers : s.Delivers messages
  sound : s.toRecvRun.Sound init
  exact : ∀ (i : StreamNo) (n : ℕ) (k : MsgKey), (s.orderedKeys i)[n]? = some k →
    k.tsn ∈ s.accepted ∧ ∃ m, (orderedOn i messages)[n]? = some m ∧ k.Of m
  covers : ∀ i : StreamNo, i.toNat < s.streamincnt → ∀ (n : ℕ) (m : Message),
    (orderedOn i messages)[n]? = some m → (∃ a < m.parts.length, m.tsn a ∈ s.accepted) →
      n < (s.orderedKeys i).length ∨ ∃ k ∈ (s.strmin i).waiting, k.Of m

variable {init : Tsn} {messages : List Message} {s t : UserRun} {i : StreamNo} {ch : DataChunk} {m : Message}

theorem ordered_eq (s : UserRun) (i : StreamNo) : s.ordered i = (s.orderedKeys i).map (·.ssn) := by
  rw [ordered, ssns, List.filter_map, orderedKeys, orderedControls]
  rfl

theorem InOrder.ssn (h : s.InOrder) {n : ℕ} {k : MsgKey} (hk : (s.orderedKeys i)[n]? = some k) :
    k.ssn = BitVec.ofNat 16 n := by
  obtain ⟨m, hordered, -⟩ := h.order i
  rw [ordered_eq, numbersBehind_first] at hordered
  have hn := congrArg (·[n]?) hordered
  simp only [List.getElem?_map, hk, Option.map_some] at hn
  obtain ⟨x, hx, hssn⟩ := Option.map_eq_some_iff.1 hn.symm
  obtain ⟨hlt, hx⟩ := List.getElem?_eq_some_iff.1 hx
  rw [List.getElem_range] at hx
  rw [← hssn, ← hx]

theorem InOrder.last (h : s.InOrder) (i : StreamNo) : (s.strmin i).lastSequenceDelivered + 1 =
    BitVec.ofNat 16 (s.orderedKeys i).length := by
  obtain ⟨m, hordered, hlast⟩ := h.order i
  have hlen := congrArg List.length hordered
  rw [ordered_eq, List.length_map, numbersBehind, List.length_map, List.length_range] at hlen
  rw [hlen, hlast, BitVec.add_assoc, BitVec.add_comm _ 1, ← BitVec.add_assoc]
  exact BitVec.zero_add _

/-- What waits on a stream is an ordered message of it. -/
theorem Exactly.waits (h : s.Exactly init messages) {k : MsgKey} (hk : k ∈ (s.strmin i).waiting) :
    k.stream = i ∧ k.unordered = false ∧ k.tsn ∈ s.accepted ∧
      ∃ (j : ℕ) (m : Message), (orderedOn i messages)[j]? = some m ∧ k.Of m := by
  obtain ⟨c, hc, rfl⟩ := List.mem_map.1 hk
  obtain ⟨names, hkeyed⟩ := h.delivers.inOrder.keyed
  have hplaced := (hkeyed.strmin i).inqueue c hc
  refine ⟨hplaced.stream, hplaced.flag, ((h.sound.waiting.strmin i).inqueue c hc).tsn, ?_⟩
  obtain ⟨m, hm, -, hwaits⟩ | hgathers := (h.delivers.intact.strmin i).inqueue c hc
  · have hmem : m ∈ orderedOn i messages := by
      rw [mem_orderedOn]
      exact ⟨hm, hwaits.stream.symm.trans hplaced.stream, hwaits.unordered.symm.trans hplaced.flag⟩
    obtain ⟨j, hj⟩ := List.getElem?_of_mem hmem
    exact ⟨j, m, hj, hwaits.toCarries.key⟩
  · have hflag := hplaced.flag
    rw [hgathers.unordered] at hflag
    cases hflag

/-- What waits on the stream of a chunk in reach. -/
theorem Exactly.candidate (h : s.Exactly init messages) (hroom : s.accepted.length + 2 ^ 14 < 2 ^ 31)
    (hreach : s.toTsnMap.InReach ch.tsn) (hrecent : s.toReceiver.Recent ch) {k : MsgKey}
    (hk : k ∈ (s.strmin ch.streamId).waiting) : Candidate init messages ch.tsn ch.streamId k := by
  obtain ⟨hstream, hordered, haccepted, hof⟩ := h.waits hk
  obtain ⟨hplace, hbelow⟩ := h.sound.inReach hroom hreach
  refine ⟨hstream, hordered, ?_, hbelow k.tsn haccepted, hof⟩
  obtain ⟨c, hc, rfl⟩ := List.mem_map.1 hk
  have hplaced : place init c.sinfoTsn < 2 ^ 31 := h.sound.place_lt hroom haccepted
  have hnear := hrecent c hc
  have hdist : (ch.tsn - c.sinfoTsn).toInt = (place init ch.tsn : ℤ) - place init c.sinfoTsn := by
    apply dist_sub (by decide) init
    · rw [dist_eq_toNat hplace, dist_eq_toNat hplaced]
      rfl
    · norm_num
      omega
    · norm_num
      omega
  change place init ch.tsn < place init c.sinfoTsn + 2 ^ 15
  omega

/-- The place of the message among the ordered ones of its stream. -/
theorem exists_index (hm : m ∈ messages) {a : ℕ} (hch : ch.PartOf m a)
    (hordered : ch.chunkFlags.unordered = false) : ∃ j : ℕ, (orderedOn ch.streamId messages)[j]? = some m := by
  apply List.getElem?_of_mem
  rw [mem_orderedOn]
  exact ⟨hm, hch.streamId.symm, hch.unordered.symm.trans hordered⟩

/-- The message of an ordered chunk. -/
theorem candidate_key (init : Tsn) (hm : m ∈ messages) {a : ℕ} (hch : ch.PartOf m a)
    (hordered : ch.chunkFlags.unordered = false) : Candidate init messages ch.tsn ch.streamId ch.key := by
  obtain ⟨j, hj⟩ := exists_index hm hch hordered
  refine ⟨rfl, hordered, ?_, ?_, j, m, hj, hch.key⟩
  · exact Nat.lt_add_of_pos_right (by norm_num)
  · exact Nat.lt_add_of_pos_right (by norm_num)

/-- Controls of old messages with one `msg_id` have one number. -/
theorem Exactly.number (hsent : Posted init messages) (h : s.Exactly init messages) (hm : m ∈ messages) {a : ℕ}
    (hch : ch.PartOf m a) {c : Control} (hc : c ∈ (s.strmin ch.streamId).inqueue)
    (hmsgId : c.msgId = ch.msgId) : c.sinfoSsn = ch.streamSequence := by
  obtain ⟨names, hkeyed⟩ := h.delivers.inOrder.keyed
  obtain ⟨m', hm', -, hwaits⟩ | hgathers := (h.delivers.intact.strmin ch.streamId).inqueue c hc
  · rw [hwaits.msgId, hch.msgId, Message.number, Message.number, hsent.old m hm, hsent.old m' hm'] at hmsgId
    rw [hwaits.ssn, hch.streamSequence]
    change m'.ssn.setWidth 32 = m.ssn.setWidth 32 at hmsgId
    bv_omega
  · have hflag := ((hkeyed.strmin ch.streamId).inqueue c hc).flag
    rw [hgathers.unordered] at hflag
    cases hflag

/-- The control that is found for an ordered chunk waits for the same message. -/
def Finds (s : UserRun) (ch : DataChunk) (m : Message) : Prop :=
  ch.chunkFlags.unordered = false → ∀ c, s.entry ch = some c →
    c.key ∈ (s.strmin ch.streamId).waiting ∧ c.key.Of m

theorem Exactly.finds (hsent : Posted init messages) (h : s.Exactly init messages)
    (hroom : s.accepted.length + 2 ^ 14 < 2 ^ 31) (hm : m ∈ messages) {a : ℕ} (hch : ch.PartOf m a)
    (hrecent : s.toReceiver.Recent ch) (hreach : s.toTsnMap.InReach ch.tsn) : s.Finds ch m := by
  intro hflag c hc
  unfold Receiver.entry at hc
  split at hc
  · cases hc
  · unfold StreamIn.findReasmEntry at hc
    simp only [DataChunk.ordered, hflag, Bool.not_false, if_true] at hc
    have hmem := List.mem_of_find?_eq_some hc
    have hmsgId : c.msgId = ch.msgId := by simpa using List.find?_some hc
    have hwaiting : c.key ∈ (s.strmin ch.streamId).waiting := List.mem_map_of_mem hmem
    obtain ⟨j, hj⟩ := exists_index hm hch hflag
    refine ⟨hwaiting, ?_⟩
    exact (candidate_key init hm hch hflag).same hsent (h.candidate hroom hreach hrecent hwaiting)
      (h.number hsent hm hch hmem hmsgId) hch.key hj

theorem Finds.clear (hsent : Posted init messages) (h : s.Finds ch m) (hm : m ∈ messages) {a : ℕ}
    (hch : ch.PartOf m a) : s.toReceiver.Clear ch m := by
  intro c hc
  cases hflag : ch.chunkFlags.unordered with
  | true => exact .inl ⟨hch.unordered.symm.trans hflag, hsent.old m hm⟩
  | false => exact .inr (h hflag c hc).2.tsn

theorem orderedKeys_append {keys : List MsgKey} (htaken : t.taken = s.taken)
    (hread : t.readQueue.map Control.key = s.readQueue.map Control.key ++ keys) (i : StreamNo) :
    t.orderedKeys i = s.orderedKeys i ++ keys.filter fun k => k.stream == i && !k.unordered := by
  have hkeys : ∀ u : UserRun, u.orderedKeys i =
      ((u.taken ++ u.readQueue).map Control.key).filter fun k => k.stream == i && !k.unordered := by
    intro u
    rw [List.filter_map]
    rfl
  rw [hkeys, hkeys, htaken, List.map_append, hread, ← List.append_assoc, ← List.map_append,
    List.filter_append]

/-- A chunk is accepted, and ordered messages of its stream are moved. -/
structure Accepts (init : Tsn) (messages : List Message) (ch : DataChunk) (keys : List MsgKey) (s t : UserRun) :
    Prop where
  before : s.Exactly init messages
  delivers : t.Delivers messages
  sound : t.toRecvRun.Sound init
  below : ∀ u ∈ t.accepted, place init u < place init ch.tsn + 2 ^ 14
  accepted : t.accepted = s.accepted ++ [ch.tsn]
  taken : t.taken = s.taken
  valid : ch.streamId.toNat < s.streamincnt
  moves : Receiver.Moves ch.streamId (s.brings ch) keys s.toReceiver t.toReceiver
  waiting : ∀ k ∈ (s.strmin ch.streamId).waiting, Candidate init messages ch.tsn ch.streamId k
  brings : ∀ k ∈ s.brings ch, k = ch.key ∧ Candidate init messages ch.tsn ch.streamId k

variable {keys : List MsgKey}

theorem Accepts.candidate (h : Accepts init messages ch keys s t) {k : MsgKey}
    (hk : k ∈ (s.strmin ch.streamId).waiting ++ s.brings ch) :
    Candidate init messages ch.tsn ch.streamId k ∧ k.tsn ∈ t.accepted := by
  rw [h.accepted]
  obtain hk | hk := List.mem_append.1 hk
  · exact ⟨h.waiting k hk, List.mem_append_left _ (h.before.waits hk).2.2.1⟩
  · obtain ⟨rfl, hcandidate⟩ := h.brings k hk
    exact ⟨hcandidate, List.mem_append_right _ List.mem_cons_self⟩

/-- What enters the read queue. -/
theorem Accepts.mem_filter (h : Accepts init messages ch keys s t) {k : MsgKey}
    (hk : k ∈ keys.filter fun k => k.stream == i && !k.unordered) :
    i = ch.streamId ∧ Candidate init messages ch.tsn ch.streamId k ∧ k.tsn ∈ t.accepted := by
  obtain ⟨hmem, hboth⟩ := List.mem_filter.1 hk
  simp only [Bool.and_eq_true, beq_iff_eq, Bool.not_eq_true'] at hboth
  have hall := h.candidate (h.moves.stream.source k hmem hboth.2)
  exact ⟨hboth.1.symm.trans hall.1.stream, hall⟩

theorem Accepts.orderedKeys (h : Accepts init messages ch keys s t) (i : StreamNo) :
    t.orderedKeys i = s.orderedKeys i ++ keys.filter fun k => k.stream == i && !k.unordered :=
  orderedKeys_append h.taken h.moves.stream.read i

/-- The message is far ahead of none that is next. -/
theorem Accepts.lt (hsent : Posted init messages) (h : Accepts init messages ch keys s t) {k : MsgKey}
    (hk : Candidate init messages ch.tsn ch.streamId k) (haccepted : k.tsn ∈ t.accepted) (hof : k.Of m) {j : ℕ}
    (hm : (orderedOn ch.streamId messages)[j]? = some m) {n : ℕ}
    (hn : (s.orderedKeys ch.streamId).length ≤ n) : j < n + (2 ^ 15 + 2 ^ 14) := by
  have hgapless := h.sound.gapless
  rw [h.accepted] at hgapless haccepted
  refine hk.lt hsent hgapless haccepted h.waiting (fun m' hm' hfirst => ?_) hof hm
  obtain hlt | hwaits := h.before.covers ch.streamId h.valid n m' hm' ⟨0, m'.nonempty, hfirst⟩
  · omega
  · exact hwaits

/-- What was delivered on the stream are its first messages. -/
theorem Accepts.exact (hsent : Posted init messages) (h : Accepts init messages ch keys s t) (i : StreamNo)
    (n : ℕ) (k : MsgKey) (hk : (t.orderedKeys i)[n]? = some k) :
    k.tsn ∈ t.accepted ∧ ∃ m, (orderedOn i messages)[n]? = some m ∧ k.Of m := by
  induction n using Nat.strong_induction_on generalizing k with
  | _ n ih =>
    have hall := h.orderedKeys i
    by_cases hold : n < (s.orderedKeys i).length
    · rw [hall, List.getElem?_append_left hold] at hk
      obtain ⟨haccepted, hof⟩ := h.before.exact i n k hk
      rw [h.accepted]
      exact ⟨List.mem_append_left _ haccepted, hof⟩
    · have hssn := h.delivers.inOrder.ssn hk
      have hlen := (List.getElem?_eq_some_iff.1 hk).1
      have hmem := hk
      rw [hall, List.getElem?_append_right (not_lt.1 hold)] at hmem
      obtain ⟨rfl, hcandidate, haccepted⟩ := h.mem_filter (List.mem_of_getElem? hmem)
      refine ⟨haccepted, ?_⟩
      obtain ⟨j, m, hm, hof⟩ := hcandidate.of
      have hlt := h.lt hsent hcandidate haccepted hof hm (not_lt.1 hold)
      have hlt' : n < j + 2 ^ 16 := by
        cases n with
        | zero => omega
        | succ n =>
          obtain ⟨k', hk'⟩ : ∃ k', (t.orderedKeys ch.streamId)[n]? = some k' :=
            ⟨_, List.getElem?_eq_getElem (by omega)⟩
          obtain ⟨haccepted', m', hm', hof'⟩ := ih n (Nat.lt_succ_self n) k' hk'
          have := hsent.spread hm hm' hof hof' hcandidate.near (h.below k'.tsn haccepted')
          omega
      rw [hof.ssn, hsent.numbered _ j m hm] at hssn
      obtain rfl := index_of_number hssn (by omega) hlt'
      exact ⟨m, hm, hof⟩

theorem Accepts.length_le (h : Accepts init messages ch keys s t) (i : StreamNo) :
    (s.orderedKeys i).length ≤ (t.orderedKeys i).length := by
  rw [h.orderedKeys, List.length_append]
  exact Nat.le_add_right _ _

/-- A message that leaves the stream without being delivered now was the last one delivered. -/
theorem Accepts.delivered (hsent : Posted init messages) (h : Accepts init messages ch keys s t) {k : MsgKey}
    (hk : Candidate init messages ch.tsn ch.streamId k) (haccepted : k.tsn ∈ t.accepted) (hof : k.Of m) {n : ℕ}
    (hm : (orderedOn ch.streamId messages)[n]? = some m)
    (hlast : k.ssn = (s.strmin ch.streamId).lastSequenceDelivered) :
    n < (s.orderedKeys ch.streamId).length := by
  have hnext := h.before.delivers.inOrder.last ch.streamId
  rw [← hlast, hof.ssn, hsent.numbered _ n m hm] at hnext
  have hnumber : BitVec.ofNat 16 (n + 1) = BitVec.ofNat 16 (s.orderedKeys ch.streamId).length := by
    rw [← hnext, BitVec.ofNat_add]
    rfl
  have hlt := h.lt hsent hk haccepted hof hm le_rfl
  have hlt' : (s.orderedKeys ch.streamId).length < n + 1 + 2 ^ 16 := by
    generalize hlen : (s.orderedKeys ch.streamId).length = len
    cases len with
    | zero => omega
    | succ len =>
      obtain ⟨k', hk'⟩ : ∃ k', (s.orderedKeys ch.streamId)[len]? = some k' :=
        ⟨_, List.getElem?_eq_getElem (by omega)⟩
      obtain ⟨haccepted', m', hm', hof'⟩ := h.before.exact ch.streamId len k' hk'
      have hmem : k'.tsn ∈ t.accepted := by
        rw [h.accepted]
        exact List.mem_append_left _ haccepted'
      have := hsent.spread hm hm' hof hof' hk.near (h.below k'.tsn hmem)
      omega
  have := index_of_number hnumber (by omega) hlt'
  omega

/-- A message with a control stays on its stream or is delivered. -/
theorem Accepts.kept (hsent : Posted init messages) (h : Accepts init messages ch keys s t) {k : MsgKey}
    (hk : k ∈ (s.strmin ch.streamId).waiting ++ s.brings ch) (hof : k.Of m) {n : ℕ}
    (hm : (orderedOn ch.streamId messages)[n]? = some m) :
    n < (t.orderedKeys ch.streamId).length ∨ ∃ k ∈ (t.strmin ch.streamId).waiting, k.Of m := by
  obtain ⟨hcandidate, haccepted⟩ := h.candidate hk
  obtain hlast | ⟨k', hk', hssn⟩ | ⟨k', hk', hordered, hssn⟩ := h.moves.stream.kept k hk
  · exact .inl ((h.delivered hsent hcandidate haccepted hof hm hlast).trans_le (h.length_le _))
  · obtain ⟨hcandidate', -⟩ := h.candidate (h.moves.stream.waiting k' hk')
    exact .inr ⟨k', hk', hcandidate.same hsent hcandidate' hssn hof hm⟩
  · obtain ⟨hcandidate', -⟩ := h.candidate (h.moves.stream.source k' hk' hordered)
    have hof' := hcandidate.same hsent hcandidate' hssn hof hm
    have hmem : k' ∈ t.orderedKeys ch.streamId := by
      rw [h.orderedKeys]
      apply List.mem_append_right
      simp [List.mem_filter, hk', hcandidate'.stream, hordered]
    obtain ⟨n', hn'⟩ := List.getElem?_of_mem hmem
    obtain ⟨-, m', hm', hof''⟩ := h.exact hsent ch.streamId n' k' hn'
    obtain rfl := hsent.index_inj hm hm' hof' hof''
    exact .inl (List.getElem?_eq_some_iff.1 hn').1

theorem Accepts.covers (hsent : Posted init messages) (h : Accepts init messages ch keys s t) {m₀ : Message}
    (hm₀ : m₀ ∈ messages) {a₀ : ℕ} (hch : ch.PartOf m₀ a₀) (hfinds : s.Finds ch m₀) (i : StreamNo)
    (hi : i.toNat < t.streamincnt) (n : ℕ) (m : Message) (hm : (orderedOn i messages)[n]? = some m)
    (hsome : ∃ a < m.parts.length, m.tsn a ∈ t.accepted) :
    n < (t.orderedKeys i).length ∨ ∃ k ∈ (t.strmin i).waiting, k.Of m := by
  obtain ⟨a, ha, haccepted⟩ := hsome
  obtain ⟨hmem, hstream, hordered⟩ := mem_orderedOn.1 (List.mem_of_getElem? hm)
  have hsmall := hsent.small
  have hnew : m.tsn a = ch.tsn → m = m₀ := fun htsn =>
    (hsent.laid.distinct (by omega) m hmem m₀ hm₀ a ha a₀ hch.lt (htsn.trans hch.tsn)).1
  rw [h.moves.count] at hi
  have hbefore := h.before.covers i hi n m hm
  rw [h.accepted] at haccepted
  obtain rfl | hother := eq_or_ne i ch.streamId
  · obtain haccepted | hlast := List.mem_append.1 haccepted
    · obtain hlt | ⟨k, hk, hof⟩ := hbefore ⟨a, ha, haccepted⟩
      · exact .inl (hlt.trans_le (h.length_le _))
      · exact h.kept hsent (List.mem_append_left _ hk) hof hm
    · obtain rfl := hnew (List.mem_singleton.1 hlast)
      have hflag := hch.unordered.trans hordered
      cases hentry : s.entry ch with
      | none =>
        have hbrings : s.brings ch = [ch.key] := by
          rw [Receiver.brings, hentry, DataChunk.brings, hflag]
          rfl
        refine h.kept hsent (k := ch.key) ?_ hch.key hm
        rw [hbrings]
        exact List.mem_append_right _ List.mem_cons_self
      | some c =>
        obtain ⟨hk, hof⟩ := hfinds hflag c hentry
        exact h.kept hsent (List.mem_append_left _ hk) hof hm
  · have haccepted : m.tsn a ∈ s.accepted := by
      obtain haccepted | hlast := List.mem_append.1 haccepted
      · exact haccepted
      · obtain rfl := hnew (List.mem_singleton.1 hlast)
        exact absurd (hstream.symm.trans hch.streamId.symm) hother
    obtain hlt | hwaits := hbefore ⟨a, ha, haccepted⟩
    · exact .inl (hlt.trans_le (h.length_le i))
    · rw [h.moves.others i hother]
      exact .inr hwaits

/-- Nothing happens to the ordered messages. -/
theorem Exactly.congr (h : s.Exactly init messages) (hdelivers : t.Delivers messages)
    (hsound : t.toRecvRun.Sound init) (hkeys : ∀ i, t.orderedKeys i = s.orderedKeys i)
    (hstrmin : t.strmin = s.strmin) (hcount : t.streamincnt = s.streamincnt)
    (hmore : ∀ u ∈ s.accepted, u ∈ t.accepted)
    (hback : ∀ m ∈ messages, m.streamId.toNat < s.streamincnt → ∀ a < m.parts.length,
      m.tsn a ∈ t.accepted → m.tsn a ∈ s.accepted) : t.Exactly init messages := by
  refine ⟨hdelivers, hsound, fun i n k hk => ?_, fun i hi n m hm hsome => ?_⟩
  · rw [hkeys] at hk
    obtain ⟨haccepted, hof⟩ := h.exact i n k hk
    exact ⟨hmore k.tsn haccepted, hof⟩
  · obtain ⟨a, ha, haccepted⟩ := hsome
    obtain ⟨hmem, rfl, -⟩ := mem_orderedOn.1 (List.mem_of_getElem? hm)
    rw [hcount] at hi
    rw [hkeys, hstrmin]
    exact h.covers m.streamId hi n m hm ⟨a, ha, hback m hmem hi a ha haccepted⟩

theorem orderedKeys_congr (htaken : t.taken = s.taken) (hread : t.readQueue = s.readQueue) (i : StreamNo) :
    t.orderedKeys i = s.orderedKeys i := by
  rw [orderedKeys, orderedControls, htaken, hread]
  rfl

/-- A chunk of the peer arrives. -/
theorem Exactly.receive (hsent : Posted init messages) (h : s.Exactly init messages)
    (hroom : (s.accepted.length + 1) + 2 ^ 14 < 2 ^ 31) {env : ChunkEnv} (hdata : ch.data ≠ [])
    (hfit : PartsFit messages env.toRecvConfig) (hrecent : s.toReceiver.Recent ch) (hm : m ∈ messages) {a : ℕ}
    (hch : ch.PartOf m a) (ht : userStep s (.chunk env ch) = some t) : t.Exactly init messages := by
  have hfew : s.accepted.length + 2 ^ 14 < 2 ^ 31 := by omega
  have hsmall := hsent.small
  have hdistinct := hsent.laid.distinct (by omega)
  have hfinds : s.toTsnMap.InReach ch.tsn → s.Finds ch m :=
    fun hreach => h.finds hsent hfew hm hch hrecent hreach
  have hdelivers := h.delivers.receive hdistinct hdata hfit hm hch
    (fun hreach => (hfinds hreach).clear hsent hm hch) ht
  obtain ⟨names, hkeyed⟩ := h.delivers.inOrder.keyed
  obtain ⟨u, hu, rfl⟩ := Option.map_eq_some_iff.1 ht
  obtain ⟨hsound, -⟩ := RecvRun.recvStep_sound h.sound hroom hu
  obtain ⟨r, hr, rfl⟩ := Attempt.map_ok (RecvRun.recvStep_chunk hu)
  have htaken : s.taken ++ RecvEvent.takes s.readQueue (.chunk env ch) = s.taken := List.append_nil _
  obtain ⟨hmarks, hquiet⟩ | ⟨hmarks, hvalid, keys, hmoves⟩ := DataReceiver.processADataChunk_moves hkeyed
    h.delivers.inOrder.noReset hdata (fun c hc hmsgId => h.number hsent hm hch hc hmsgId) hr
  · refine h.congr hdelivers hsound (orderedKeys_congr htaken hquiet.read) hquiet.strmin hquiet.count
      (fun v hv => ?_) fun m' hm' hvalid b hb haccepted => ?_
    · change v ∈ if r.2.marks = true then s.accepted ++ [ch.tsn] else s.accepted
      split
      · exact List.mem_append_left _ hv
      · exact hv
    · change m'.tsn b ∈ if r.2.marks = true then s.accepted ++ [ch.tsn] else s.accepted at haccepted
      split at haccepted
      · rename_i hmarked
        obtain haccepted | hnew := List.mem_append.1 haccepted
        · exact haccepted
        · obtain ⟨rfl, -⟩ := hdistinct m' hm' m hm b hb a hch.lt ((List.mem_singleton.1 hnew).trans hch.tsn)
          rw [hmarks (hch.streamId ▸ hvalid)] at hmarked
          cases hmarked
      · exact haccepted
  · have hreach := DataReceiver.processADataChunk_inReach hr hmarks
    have haccepted : (if r.2.marks = true then s.accepted ++ [ch.tsn] else s.accepted) =
        s.accepted ++ [ch.tsn] := if_pos hmarks
    have haccepts : Accepts init messages ch keys s _ := {
      before := h
      delivers := hdelivers
      sound := hsound
      below := fun v hv => by
        change v ∈ if r.2.marks = true then s.accepted ++ [ch.tsn] else s.accepted at hv
        rw [haccepted] at hv
        obtain hv | hv := List.mem_append.1 hv
        · exact (h.sound.inReach hfew hreach).2 v hv
        · rw [List.mem_singleton.1 hv]
          exact Nat.lt_add_of_pos_right (by norm_num)
      accepted := haccepted
      taken := htaken
      valid := hvalid
      moves := hmoves
      waiting := fun k hk => h.candidate hfew hreach hrecent hk
      brings := fun k hk => by
        unfold Receiver.brings DataChunk.brings at hk
        split at hk
        · split at hk
          · cases hk
          · rename_i hordered
            obtain rfl := List.mem_singleton.1 hk
            exact ⟨rfl, candidate_key init hm hch (Bool.eq_false_iff.2 hordered)⟩
        · cases hk }
    exact ⟨hdelivers, hsound, haccepts.exact hsent, haccepts.covers hsent hm hch (hfinds hreach)⟩

/-- What arrives is a fragment of one of the peer's messages, and no message waits for long. -/
def InTime (messages : List Message) (s : UserRun) : RecvEvent → Prop
  | .chunk env ch => ch.data ≠ [] ∧ PartsFit messages env.toRecvConfig ∧ s.toReceiver.Recent ch ∧
      ∃ m ∈ messages, ∃ a < m.parts.length, ch.PartOf m a
  | .resetRequest _ => False
  | _ => True

instance InTime.decidable (messages : List Message) (s : UserRun) : ∀ e, Decidable (s.InTime messages e)
  | .chunk env ch => inferInstanceAs (Decidable (ch.data ≠ [] ∧ PartsFit messages env.toRecvConfig ∧
      s.toReceiver.Recent ch ∧ ∃ m ∈ messages, ∃ a < m.parts.length, ch.PartOf m a))
  | .resetRequest _ => .isFalse id
  | .sendSack _ => .isTrue trivial
  | .read _ => .isTrue trivial

theorem userStep_exactly {e : RecvEvent} (hsent : Posted init messages) (h : s.Exactly init messages)
    (hroom : (s.accepted.length + 1) + 2 ^ 14 < 2 ^ 31) (he : s.InTime messages e)
    (ht : userStep s e = some t) : t.Exactly init messages := by
  have hstep := ht
  obtain ⟨u, hu, rfl⟩ := Option.map_eq_some_iff.1 ht
  obtain ⟨hsound, -⟩ := RecvRun.recvStep_sound h.sound hroom hu
  cases e with
  | chunk env ch =>
    obtain ⟨hdata, hfit, hrecent, m, hm, a, -, hch⟩ := he
    exact h.receive hsent hroom hdata hfit hrecent hm hch hstep
  | sendSack env =>
    have hdelivers := h.delivers.sendSack hstep
    obtain rfl := Option.some.inj hu
    exact h.congr hdelivers hsound (orderedKeys_congr (List.append_nil _) rfl) rfl rfl (fun _ hv => hv)
      fun _ _ _ _ _ hv => hv
  | read n =>
    have hdelivers := h.delivers.read hstep
    obtain rfl := Option.some.inj hu
    refine h.congr hdelivers hsound (fun i => ?_) rfl rfl (fun _ hv => hv) fun _ _ _ _ _ hv => hv
    rw [orderedKeys, orderedControls, orderedKeys, orderedControls]
    change List.map _ (List.filter _ (s.taken ++ s.readQueue.take n ++ s.readQueue.drop n)) = _
    rw [List.append_assoc, List.take_append_drop]
  | resetRequest liste => exact absurd he id

theorem Begins.exactly (h : s.Begins) (hfresh : s.toRecvRun.Fresh init) (messages : List Message) :
    s.Exactly init messages := by
  have hnone : ∀ i, s.orderedKeys i = [] := by
    intro i
    rw [orderedKeys, orderedControls, h.taken, h.read]
    rfl
  refine ⟨h.delivers messages, hfresh.sound, fun i n k hk => ?_, fun i _ n m _ hsome => ?_⟩
  · rw [hnone] at hk
    cases hk
  · obtain ⟨a, -, haccepted⟩ := hsome
    rw [hfresh.accepted] at haccepted
    exact absurd haccepted List.not_mem_nil

theorem userRun_exactly (hsent : Posted init messages) {es : List RecvEvent} (h : s.Exactly init messages)
    (hes : Trace.Along userStep (InTime messages) s es)
    (hroom : (s.accepted.length + es.length) + 2 ^ 14 < 2 ^ 31) (ht : userRun s es = some t) :
    t.Exactly init messages := by
  have hstep : ∀ (s : UserRun) (k : ℕ) (e : RecvEvent) (s' : UserRun),
      s.Exactly init messages ∧ s.accepted.length = k → s.InTime messages e → k < 2 ^ 31 - 2 ^ 14 - 1 →
        userStep s e = some s' → ∃ k' ≤ k + 1, s'.Exactly init messages ∧ s'.accepted.length = k' := by
    rintro s k e s' ⟨hs, rfl⟩ he hk hs'
    obtain ⟨x, hx, heq⟩ := Option.map_eq_some_iff.1 hs'
    obtain ⟨-, hlen⟩ := RecvRun.recvStep_sound hs.sound (by omega) hx
    refine ⟨_, ?_, userStep_exactly hsent hs (by omega) he hs', rfl⟩
    rw [← heq]
    exact hlen
  obtain ⟨-, -, hexactly, -⟩ := Trace.run_counted _ hstep ⟨h, rfl⟩ hes (by omega) ht
  exact hexactly

/-- What the user is given as the `n`th ordered message of a stream. -/
theorem Exactly.control (hsent : Posted init messages) (h : s.Exactly init messages) {n : ℕ} {d : Control}
    (hd : (s.orderedControls i)[n]? = some d) : ∃ m, (orderedOn i messages)[n]? = some m ∧
      d.data <+: m.parts.flatten ∧ (d.endAdded = true → d.data = m.parts.flatten) := by
  have hkey : (s.orderedKeys i)[n]? = some d.key := by
    rw [orderedKeys, List.getElem?_map, hd]
    rfl
  obtain ⟨-, m, hm, hof⟩ := h.exact i n d.key hkey
  refine ⟨m, hm, ?_⟩
  have hintact : d.Intact messages := by
    obtain ⟨hmem, -⟩ := List.mem_filter.1 (List.mem_of_getElem? hd)
    obtain hmem | hmem := List.mem_append.1 hmem
    · exact h.delivers.taken d hmem
    · exact h.delivers.intact.read d hmem
  obtain ⟨hdata, hended⟩ | ⟨m', hm', hcarries⟩ := hintact
  · rw [hdata, hended]
    exact ⟨List.nil_prefix, fun hcon => absurd hcon Bool.false_ne_true⟩
  · obtain ⟨a, ha, htsn⟩ := hof.tsn
    obtain ⟨b, hb, htsn'⟩ := hcarries.tsn
    have hsmall := hsent.small
    obtain ⟨hmem, -, -⟩ := mem_orderedOn.1 (List.mem_of_getElem? hm)
    obtain ⟨rfl, -⟩ := hsent.laid.distinct (by omega) m hmem m' hm' a ha b hb (htsn.symm.trans htsn')
    obtain ⟨k, hhas⟩ := hcarries.has
    rw [hhas.data]
    refine ⟨(List.take_prefix k m.parts).flatten, fun hended => ?_⟩
    rw [hhas.ended hended, List.take_length]

theorem sent_posted : Posted 7 sent := by
  have hfrom : ∀ (o : ℕ) (x : Tsn), x = advance 7 o → ∀ k, x + BitVec.ofNat 32 k = advance 7 (o + k) := by
    intro o x hx k
    rw [hx, ← advance_add]
    rfl
  refine ⟨⟨hfrom 0 7 rfl, hfrom 1 8 rfl, hfrom 3 10 rfl, trivial⟩, by decide, fun m hm => ?_,
    fun i k m hm => ?_⟩
  · simp only [sent, List.mem_cons, List.not_mem_nil, or_false] at hm
    obtain rfl | rfl | rfl := hm <;> rfl
  · obtain ⟨hmem, rfl, -⟩ := mem_orderedOn.1 (List.mem_of_getElem? hm)
    have hzero : m.streamId = 0 := by
      simp only [sent, List.mem_cons, List.not_mem_nil, or_false] at hmem
      obtain rfl | rfl | rfl := hmem <;> rfl
    rw [hzero] at hm
    have hlen := (List.getElem?_eq_some_iff.1 hm).1
    change k < 3 at hlen
    interval_cases k <;> obtain rfl := Option.some.inj hm <;> rfl

theorem inTime_shuffled : Trace.Along userStep (InTime sent) (fresh 7 1) shuffled := by
  decide +kernel

end UserRun

end Sctp
