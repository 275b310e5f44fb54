import Mathlib.Algebra.Order.BigOperators.Group.List
import Mathlib.Data.List.Perm.Subperm
import Sctp.Output.SendOrder
import Sctp.Receiver.Layout

/-! What the chunks on the send queue are for the receiver: the fragments of the messages that were written. -/
namespace Sctp
open Bitmap Serial

/-- The DATA chunk that goes out: what the header says is the length of the data. -/
def TmitChunk.wire (c : TmitChunk) : DataChunk where
  tsn := c.tsn
  streamId := c.streamId
  streamSequence := c.streamSeq
  protocolId := c.payloadtype
  chunkFlags := c.rcvFlags
  ndata := none
  data := c.payload.take (c.chunkLength - dataChunkSize)

structure Message.Holds (M : Message) (x : StreamQueuePending × Ssn) : Prop where
  streamId : M.streamId = x.1.stream
  ssn : M.ssn = x.2
  unordered : M.unordered = x.1.unordered
  old : M.msgId = none
  parts : M.parts.flatten = x.1.data.flatten

structure Chunked (point : ℕ) (init : Tsn) (o : ℕ) (cs : List TmitChunk) : Prop where
  chunkLength : ∀ c ∈ cs, c.chunkLength = c.payload.length + dataChunkSize
  payload : ∀ c ∈ cs, 0 < c.payload.length ∧ c.payload.length ≤ point
  tsn : ∀ k c, cs[k]? = some c → c.tsn = advance init (o + k)

section

variable {point : ℕ} {init : Tsn} {o : ℕ} {cs cs' : List TmitChunk} {m : StreamQueuePending} {ssn : Ssn}
  {rest : List Byte}

theorem Chunked.left (h : Chunked point init o (cs ++ cs')) : Chunked point init o cs := by
  refine ⟨fun c hc => h.chunkLength c (List.mem_append_left _ hc),
    fun c hc => h.payload c (List.mem_append_left _ hc), fun k c hk => h.tsn k c ?_⟩
  rw [List.getElem?_append_left (List.getElem?_eq_some_iff.1 hk).1]
  exact hk

theorem Chunked.right (h : Chunked point init o (cs ++ cs')) : Chunked point init (o + cs.length) cs' := by
  refine ⟨fun c hc => h.chunkLength c (List.mem_append_right _ hc),
    fun c hc => h.payload c (List.mem_append_right _ hc), fun k c hk => ?_⟩
  rw [Nat.add_assoc]
  apply h.tsn
  rw [List.getElem?_append_right (Nat.le_add_right _ _), Nat.add_sub_cancel_left]
  exact hk

theorem TmitChunk.wire_data {c : TmitChunk} (h : c.chunkLength = c.payload.length + dataChunkSize) :
    c.wire.data = c.payload := by
  change c.payload.take (c.chunkLength - dataChunkSize) = c.payload
  rw [h, Nat.add_sub_cancel, List.take_length]

/-- The parts of a message of which the chunks are cut; the rest of it byte by byte. -/
def messageParts (cs : List TmitChunk) (rest : List Byte) : List (List Byte) :=
  cs.map TmitChunk.payload ++ rest.map fun b => [b]

theorem flatten_singles (rest : List Byte) : (rest.map fun b => [b]).flatten = rest := by
  induction rest with
  | nil => rfl
  | cons b rest ih => rw [List.map_cons, List.flatten_cons, ih, List.singleton_append]

/-- The message of which the chunks are fragments. -/
theorem Fragments.message (h : Fragments m ssn cs rest) (hcs : Chunked point init o cs) (hne : cs ≠ [])
    (hsmall : cs.length + rest.length < 2 ^ 32) : ∃ M : Message, M.Holds (m, ssn) ∧
      (∀ k, M.tsn k = advance init (o + k)) ∧ M.parts.length = cs.length + rest.length ∧
      (∀ p ∈ M.parts, p.length ≤ point) ∧ ∀ c ∈ cs, ∃ k < M.parts.length, c.wire.PartOf M k := by
  have hlen : (messageParts cs rest).length = cs.length + rest.length := by
    rw [messageParts, List.length_append, List.length_map, List.length_map]
  have hpos := List.length_pos_of_ne_nil hne
  refine ⟨.ofData m.stream ssn m.unordered (advance init o) (messageParts cs rest) (by omega) (by omega),
    ⟨rfl, rfl, rfl, rfl, ?_⟩, fun k => ?_, hlen, fun p hp => ?_, fun c hc => ?_⟩
  · change (messageParts cs rest).flatten = m.data.flatten
    rw [messageParts, List.flatten_append, flatten_singles, h.bytes]
  · rw [← advance_add]
    rfl
  · obtain hp | hp := List.mem_append.1 hp
    · obtain ⟨c, hc, rfl⟩ := List.mem_map.1 hp
      exact (hcs.payload c hc).2
    · obtain ⟨b, -, rfl⟩ := List.mem_map.1 hp
      obtain ⟨c, hc⟩ := List.exists_mem_of_ne_nil cs hne
      have := hcs.payload c hc
      change 1 ≤ point
      omega
  · obtain ⟨k, hk⟩ := List.getElem?_of_mem hc
    have hlt := (List.getElem?_eq_some_iff.1 hk).1
    have hcut := h.cut c hc
    have hpart : (messageParts cs rest)[k]? = some c.payload := by
      rw [messageParts, List.getElem?_append_left (by rw [List.length_map]; exact hlt), List.getElem?_map, hk]
      rfl
    have hplace : k < (messageParts cs rest).length := by omega
    refine ⟨k, hplace, ?_⟩
    constructor
    · rw [TmitChunk.wire_data (hcs.chunkLength c hc)]
      exact hpart
    · rw [show c.wire.tsn = c.tsn from rfl, hcs.tsn k c hk, ← advance_add]
      rfl
    · exact hcut.streamId
    · exact hcut.streamSeq
    · exact hcut.unordered
    · rw [Bool.eq_iff_iff, decide_eq_true_iff]
      exact h.first k c hk
    · rw [Bool.eq_iff_iff, decide_eq_true_iff]
      change c.rcvFlags.last = true ↔ k + 1 = (messageParts cs rest).length
      rw [h.last k c hk, hlen, ← List.length_eq_zero_iff]
      omega
    · rfl

end

/-- The messages of the chunks `q` that begin at the place `o`. -/
structure Describes (point : ℕ) (init : Tsn) (o : ℕ) (out : List (StreamQueuePending × Ssn))
    (q : List TmitChunk) (messages : List Message) : Prop where
  holds : List.Forall₂ Message.Holds messages out
  laid : Laid init o messages
  parts : ∀ M ∈ messages, ∀ p ∈ M.parts, p.length ≤ point
  chunks : ∀ c ∈ q, ∃ M ∈ messages, ∃ k < M.parts.length, c.wire.PartOf M k

section

variable {point : ℕ} {init : Tsn} {o : ℕ} {out : List (StreamQueuePending × Ssn)} {q cs : List TmitChunk}
  {messages : List Message} {M : Message} {x : StreamQueuePending × Ssn}

theorem Laid.concat (h : Laid init o messages) (hM : ∀ k, M.tsn k = advance init (o + fragments messages + k)) :
    Laid init o (messages ++ [M]) := by
  induction messages generalizing o with
  | nil => exact ⟨hM, trivial⟩
  | cons m messages ih =>
    refine ⟨h.1, ih h.2 fun k => ?_⟩
    rw [hM, fragments_cons]
    congr 1
    omega

theorem fragments_concat (messages : List Message) (M : Message) :
    fragments (messages ++ [M]) = fragments messages + M.parts.length := by
  simp [fragments]

/-- One message more, at the end. -/
theorem Describes.concat (h : Describes point init o out q messages) (hM : M.Holds x)
    (htsn : ∀ k, M.tsn k = advance init (o + fragments messages + k))
    (hparts : ∀ p ∈ M.parts, p.length ≤ point)
    (hcs : ∀ c ∈ cs, ∃ k < M.parts.length, c.wire.PartOf M k) :
    Describes point init o (out ++ [x]) (q ++ cs) (messages ++ [M]) := by
  refine ⟨List.rel_append h.holds (.cons hM .nil), h.laid.concat htsn, fun M' hM' => ?_, fun c hc => ?_⟩
  · obtain hM' | hM' := List.mem_append.1 hM'
    · exact h.parts M' hM'
    · rw [List.mem_singleton.1 hM']
      exact hparts
  · obtain hc | hc := List.mem_append.1 hc
    · obtain ⟨M', hM', hpart⟩ := h.chunks c hc
      exact ⟨M', List.mem_append_left _ hM', hpart⟩
    · exact ⟨M, List.mem_append_right _ List.mem_cons_self, hcs c hc⟩

theorem Blocks.describes (h : Blocks out q) (hq : Chunked point init o q) (hsmall : q.length < 2 ^ 32) :
    ∃ messages, Describes point init o out q messages ∧ fragments messages = q.length := by
  induction out generalizing q o with
  | nil =>
    obtain rfl : q = [] := h
    exact ⟨[], ⟨.nil, trivial, fun _ hM => absurd hM List.not_mem_nil, fun _ hc => absurd hc List.not_mem_nil⟩,
      rfl⟩
  | cons x out ih =>
    obtain ⟨cs₁, cs₂, rfl, hne, hfragments, hout⟩ := h
    rw [List.length_append] at hsmall
    obtain ⟨M, hM, htsn, hlen, hparts, hchunks⟩ := hfragments.message hq.left hne (by simp; omega)
    rw [List.length_nil, Nat.add_zero] at hlen
    obtain ⟨messages, hrest, hcount⟩ := ih hout hq.right (by omega)
    refine ⟨M :: messages, ⟨.cons hM hrest.holds, ⟨htsn, ?_⟩, fun M' hM' => ?_, fun c hc => ?_⟩, ?_⟩
    · rw [hlen]
      exact hrest.laid
    · obtain rfl | hM' := List.mem_cons.1 hM'
      · exact hparts
      · exact hrest.parts M' hM'
    · obtain hc | hc := List.mem_append.1 hc
      · exact ⟨M, List.mem_cons_self, hchunks c hc⟩
      · obtain ⟨M', hM', hpart⟩ := hrest.chunks c hc
        exact ⟨M', List.mem_cons_of_mem M hM', hpart⟩
    · rw [fragments_cons, hlen, hcount, List.length_append]

end

def orderedWritten (i : StreamNo) (ms : List StreamQueuePending) : List StreamQueuePending :=
  (onStream i ms).filter fun m => !m.unordered

theorem ssnAfter_zero (ms : List StreamQueuePending) :
    ssnAfter 0 ms = BitVec.ofNat 16 (ms.filter fun m => !m.unordered).length := by
  induction ms using List.reverseRecOn with
  | nil => rfl
  | append_singleton ms m ih =>
    rw [ssnAfter_concat, List.filter_append, List.length_append, ih]
    cases hm : m.unordered with
    | true => simp [hm]
    | false =>
      simp [hm, BitVec.ofNat_add]

/-- An element that a filter lets through. -/
theorem getElem?_filter {α : Type*} (f : α → Bool) {l : List α} {k : ℕ} {x : α}
    (h : (l.filter f)[k]? = some x) : ∃ p : ℕ, l[p]? = some x ∧ ((l.take p).filter f).length = k := by
  induction l generalizing k with
  | nil => cases h
  | cons y l ih =>
    rw [List.filter_cons] at h
    split at h
    · rename_i hy
      cases k with
      | zero => exact ⟨0, h, rfl⟩
      | succ k =>
        obtain ⟨p, hp, hlen⟩ := ih h
        refine ⟨p + 1, hp, ?_⟩
        rw [List.take_succ_cons, List.filter_cons, if_pos hy, List.length_cons, hlen]
    · rename_i hy
      obtain ⟨p, hp, hlen⟩ := ih h
      refine ⟨p + 1, hp, ?_⟩
      rw [List.take_succ_cons, List.filter_cons, if_neg hy, hlen]

theorem forall₂_getElem? {α β : Type*} {R : α → β → Prop} {l : List α} {l' : List β}
    (h : List.Forall₂ R l l') {p : ℕ} {x : α} (hx : l[p]? = some x) : ∃ y, l'[p]? = some y ∧ R x y := by
  induction h generalizing p with
  | nil => cases hx
  | cons hhead htail ih =>
    cases p with
    | zero =>
      obtain rfl := Option.some.inj hx
      exact ⟨_, rfl, hhead⟩
    | succ p => exact ih hx

section

variable {messages : List Message} {out : List (StreamQueuePending × Ssn)}

theorem orderedOn_holds (h : List.Forall₂ Message.Holds messages out) (i : StreamNo) :
    List.Forall₂ Message.Holds (orderedOn i messages)
      (out.filter fun x => x.1.stream == i && !x.1.unordered) := by
  apply List.rel_filter _ h
  intro M x hM
  dsimp only
  rw [hM.streamId, hM.unordered]

theorem orderedWritten_map (i : StreamNo) (out : List (StreamQueuePending × Ssn)) :
    orderedWritten i (out.map Prod.fst) =
      (out.filter fun x => x.1.stream == i && !x.1.unordered).map Prod.fst := by
  rw [orderedWritten, onStream, List.filter_filter, List.filter_map]
  congr 1
  apply List.filter_congr
  intro x _
  exact Bool.and_comm _ _

theorem Numbered.numbered (hout : Numbered out) (h : List.Forall₂ Message.Holds messages out) (i : StreamNo)
    (k : ℕ) (M : Message) (hM : (orderedOn i messages)[k]? = some M) : M.ssn = BitVec.ofNat 16 k := by
  obtain ⟨-, hstream, -⟩ := mem_orderedOn.1 (List.mem_of_getElem? hM)
  obtain ⟨p, hp, hlen⟩ := getElem?_filter _ hM
  obtain ⟨⟨m, ssn⟩, hx, hholds⟩ := forall₂_getElem? h hp
  have hcount := (orderedOn_holds (List.forall₂_take p h) i).length_eq
  rw [hholds.ssn, hout p m ssn hx, ← hlen]
  change ssnAfter 0 (onStream m.stream ((out.take p).map Prod.fst)) = BitVec.ofNat 16 (orderedOn i _).length
  have hsame : m.stream = i := hholds.streamId.symm.trans hstream
  rw [ssnAfter_zero, hcount, hsame, ← List.length_map Prod.fst, ← orderedWritten_map]
  rfl

end

/-- A list that has the elements of each key in the order of another one, and no others. -/
theorem subperm_of_filter {α κ : Type*} [DecidableEq κ] (key : α → κ) {l l' rest : List α} {i : κ}
    (hi : l'.filter (key · == i) = l.filter (key · == i) ++ rest)
    (hother : ∀ j, l.filter (key · == j) <+: l'.filter (key · == j)) : (l ++ rest).Subperm l' := by
  classical
  have hcount : ∀ (x : α) (xs : List α), xs.count x = (xs.filter (key · == key x)).count x := by
    intro x xs
    exact (List.count_filter (p := fun y => key y == key x) (beq_self_eq_true (key x))).symm
  rw [List.subperm_ext_iff]
  intro x hx
  rw [List.count_append, hcount x l, hcount x l']
  obtain heq | hne := eq_or_ne (key x) i
  · rw [heq, hi, List.count_append]
  · have hnone : rest.count x = 0 := by
      rw [List.count_eq_zero]
      intro hmem
      have hfound : x ∈ l'.filter (key · == i) := by
        rw [hi]
        exact List.mem_append_right _ hmem
      exact hne (beq_iff_eq.1 (List.mem_filter.1 hfound).2)
    rw [hnone, Nat.add_zero]
    exact (hother (key x)).sublist.count_le x

theorem sum_le_of_subperm {α : Type*} (f : α → ℕ) {l l' : List α} (h : l.Subperm l') :
    (l.map f).sum ≤ (l'.map f).sum := by
  obtain ⟨l'', hperm, hsub⟩ := h
  rw [← (hperm.map f).sum_eq]
  exact (hsub.map f).sum_le_sum fun _ _ => Nat.zero_le _

def StreamQueuePending.bytes (m : StreamQueuePending) : ℕ := m.data.flatten.length

/-- Each fragment has a byte. -/
theorem Fragments.length_le {m : StreamQueuePending} {ssn : Ssn} {cs : List TmitChunk} {rest : List Byte}
    (h : Fragments m ssn cs rest) (hcs : ∀ c ∈ cs, 0 < c.payload.length) :
    cs.length + rest.length ≤ m.bytes := by
  have hlen := congrArg List.length h.bytes
  rw [List.length_append, List.length_flatten, List.map_map] at hlen
  have hpos : cs.length ≤ (cs.map (List.length ∘ TmitChunk.payload)).sum := by
    have := List.card_nsmul_le_sum (cs.map (List.length ∘ TmitChunk.payload)) 1 fun n hn => by
      obtain ⟨c, hc, rfl⟩ := List.mem_map.1 hn
      exact hcs c hc
    simpa using this
  unfold StreamQueuePending.bytes
  omega

theorem Blocks.length_le {out : List (StreamQueuePending × Ssn)} {q : List TmitChunk} (h : Blocks out q)
    (hq : ∀ c ∈ q, 0 < c.payload.length) : q.length ≤ ((out.map Prod.fst).map (·.bytes)).sum := by
  induction out generalizing q with
  | nil =>
    obtain rfl : q = [] := h
    exact le_rfl
  | cons x out ih =>
    obtain ⟨cs₁, cs₂, rfl, -, hfragments, hout⟩ := h
    have hfirst := hfragments.length_le fun c hc => hq c (List.mem_append_left _ hc)
    have hothers := ih hout fun c hc => hq c (List.mem_append_right _ hc)
    rw [List.length_nil] at hfirst
    rw [List.length_append, List.map_cons, List.map_cons, List.sum_cons]
    omega

theorem Untaken.length_eq {m sp : StreamQueuePending} (h : Untaken m sp) : sp.length = m.bytes := by
  have hwhole := (h 0).frags.bytes
  rw [List.map_nil, List.flatten_nil, List.nil_append] at hwhole
  rw [(h 0).length_eq, hwhole]
  rfl

theorem sum_length_of_untaken {rest sps : List StreamQueuePending} (h : List.Forall₂ Untaken rest sps) :
    (sps.map (·.length)).sum = (rest.map (·.bytes)).sum := by
  induction h with
  | nil => rfl
  | cons hu _ ih => rw [List.map_cons, List.map_cons, List.sum_cons, List.sum_cons, ih, hu.length_eq]

theorem PendingQueue.length_le {ssn : Ssn} {rest sps : List StreamQueuePending} {cs : List TmitChunk}
    (h : PendingQueue ssn rest sps cs) (hcs : ∀ c ∈ cs, 0 < c.payload.length) :
    cs.length + (sps.map (·.length)).sum ≤ (rest.map (·.bytes)).sum := by
  obtain ⟨rfl, rfl, rfl⟩ | ⟨m, rest, sp, sps, rfl, rfl, hp, hrest⟩ := h.cases
  · exact le_rfl
  · have hopen := hp.frags.length_le hcs
    have hlen := hp.length_eq
    have hothers := sum_length_of_untaken hrest
    rw [List.map_cons, List.map_cons, List.sum_cons, List.sum_cons]
    omega

/-- The chunks and what is left of the messages are not more than the bytes that were written. -/
theorem SendOrder.length_le {point : ℕ} {init : Tsn} {ms : List StreamQueuePending} {a : OutAssoc}
    {i₀ : StreamNo} {out : List (StreamQueuePending × Ssn)} {cs : List TmitChunk}
    (h : SendOrder point init ms a i₀ out cs) :
    a.sendQueue.length + ((a.strmout i₀).outqueue.map (·.length)).sum ≤ (ms.map (·.bytes)).sum := by
  have hpayload := h.payload
  obtain ⟨q, hq, hblocks⟩ := h.blocks
  rw [hq] at hpayload ⊢
  have hopen := h.stream i₀
  rw [if_pos rfl] at hopen
  obtain ⟨rest, spent, sps, hms, houtqueue, hspent, hpend, -⟩ := hopen.split
  have hout := hblocks.length_le fun c hc => (hpayload c (List.mem_append_left _ hc)).1
  have hrest := hpend.length_le fun c hc => (hpayload c (List.mem_append_right _ hc)).1
  have hnothing : (spent.map (·.length)).sum = 0 := by
    rw [List.sum_eq_zero_iff]
    intro n hn
    obtain ⟨sp, hsp, rfl⟩ := List.mem_map.1 hn
    exact hspent sp hsp
  have hall : (out.map Prod.fst ++ rest).Subperm ms := by
    refine subperm_of_filter StreamQueuePending.stream (i := i₀) hms fun j => ?_
    obtain ⟨rest', -, -, hother, -⟩ := (h.stream j).split
    exact ⟨rest', hother.symm⟩
  have hsum := sum_le_of_subperm (·.bytes) hall
  rw [List.map_append, List.sum_append] at hsum
  rw [houtqueue, List.length_append, List.map_append, List.sum_append]
  omega

structure SentBy (point : ℕ) (init : Tsn) (ms : List StreamQueuePending) (q : List TmitChunk)
    (messages : List Message) : Prop where
  sent : Posted init messages
  parts : ∀ M ∈ messages, ∀ p ∈ M.parts, p.length ≤ point
  chunks : ∀ c ∈ q, ∃ M ∈ messages, ∃ k < M.parts.length, c.wire.PartOf M k
  payload : ∀ c ∈ q, c.wire.data ≠ []
  written : ∀ (i : StreamNo) (n : ℕ) (M : Message), (orderedOn i messages)[n]? = some M →
    ∃ m, (orderedWritten i ms)[n]? = some m ∧ M.parts.flatten = m.data.flatten

section

variable {point : ℕ} {init : Tsn} {ms : List StreamQueuePending} {a : OutAssoc} {i₀ : StreamNo}
  {out : List (StreamQueuePending × Ssn)} {cs : List TmitChunk} {messages : List Message}

theorem SendOrder.chunked (h : SendOrder point init ms a i₀ out cs) :
    Chunked point init 0 a.sendQueue := by
  refine ⟨h.chunkLength, h.payload, fun k c hk => ?_⟩
  rw [Nat.zero_add]
  exact h.tsn k c hk

/-- The messages that are on the queue, with the open one, are the first ones of their streams. -/
theorem sentBy_of_describes {q : List TmitChunk} (h : Describes point init 0 out q messages)
    (hq : Chunked point init 0 q) (hsmall : fragments messages < 2 ^ 32) (hout : Numbered out)
    (hfirst : ∀ i, onStream i (out.map Prod.fst) <+: onStream i ms) :
    SentBy point init ms q messages := by
  refine ⟨⟨h.laid, hsmall, fun M hM => ?_, hout.numbered h.holds⟩, h.parts, h.chunks, fun c hc hnil => ?_,
    fun i n M hM => ?_⟩
  · obtain ⟨p, hp⟩ := List.getElem?_of_mem hM
    obtain ⟨x, -, hholds⟩ := forall₂_getElem? h.holds hp
    exact hholds.old
  · have hpos := (hq.payload c hc).1
    rw [TmitChunk.wire_data (hq.chunkLength c hc)] at hnil
    rw [hnil] at hpos
    exact absurd hpos (lt_irrefl 0)
  · obtain ⟨x, hx, hholds⟩ := forall₂_getElem? (orderedOn_holds h.holds i) hM
    refine ⟨x.1, ?_, hholds.parts⟩
    have hmap : (orderedWritten i (out.map Prod.fst))[n]? = some x.1 := by
      rw [orderedWritten_map, List.getElem?_map, hx]
      rfl
    have hlt := (List.getElem?_eq_some_iff.1 hmap).1
    obtain ⟨rest, hrest⟩ := (hfirst i).filter fun m => !m.unordered
    have hlong : n < ((onStream i (out.map Prod.fst)).filter fun m => !m.unordered).length := hlt
    rw [orderedWritten, ← hrest, List.getElem?_append_left hlong]
    exact hmap

theorem length_le_sum {sps : List StreamQueuePending} {sp : StreamQueuePending} (h : sp ∈ sps) :
    sp.length ≤ (sps.map (·.length)).sum :=
  List.le_sum_of_mem (List.mem_map_of_mem h)

theorem SendOrder.sentBy (h : SendOrder point init ms a i₀ out cs)
    (hsmall : (ms.map (·.bytes)).sum < 2 ^ 32) :
    ∃ messages, SentBy point init ms a.sendQueue messages := by
  have hchunked := h.chunked
  obtain ⟨q, hq, hblocks⟩ := h.blocks
  have hcount := h.length_le
  rw [hq] at hcount hchunked ⊢
  rw [List.length_append] at hcount
  obtain ⟨messages, hdescribes, hlen⟩ := hblocks.describes hchunked.left (by omega)
  have hfirst : ∀ i, onStream i (out.map Prod.fst) <+: onStream i ms := by
    intro i
    obtain ⟨rest, -, -, hms, -⟩ := (h.stream i).split
    exact ⟨rest, hms.symm⟩
  by_cases hcs : cs = []
  · subst hcs
    rw [List.append_nil] at hchunked ⊢
    exact ⟨messages, sentBy_of_describes hdescribes hchunked (by omega) h.numbered hfirst⟩
  · have hopen := h.stream i₀
    rw [if_pos rfl] at hopen
    obtain ⟨rest, spent, sps, hms, houtqueue, -, hpend, -⟩ := hopen.split
    obtain ⟨-, -, hnil⟩ | ⟨m, rest, sp, sps, rfl, rfl, hp, -⟩ := hpend.cases
    · exact absurd hnil hcs
    have hm : m.stream = i₀ := hopen.streams m (by rw [hms]; simp)
    have hrest : sp.length ≤ ((a.strmout i₀).outqueue.map (·.length)).sum := by
      apply length_le_sum
      rw [houtqueue]
      simp
    have hall := hp.length_eq
    obtain ⟨M, hM, htsn, hparts, hpoint, hchunks⟩ := hp.frags.message hchunked.right hcs (by omega)
    rw [← hm] at hM
    rw [← hlen] at htsn
    refine ⟨messages ++ [M], sentBy_of_describes (hdescribes.concat hM htsn hpoint hchunks) hchunked ?_
      (h.numbered.concat m) fun i => ?_⟩
    · rw [fragments_concat, hparts]
      omega
    · rw [List.map_append, onStream_append, List.map_singleton, onStream_singleton]
      split
      · rename_i hi
        obtain rfl : i₀ = i := hm.symm.trans hi
        rw [hms]
        exact ⟨rest, by simp⟩
      · rw [List.append_nil]
        exact hfirst i

end

end Sctp
