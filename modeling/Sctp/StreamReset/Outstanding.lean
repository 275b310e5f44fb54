import Sctp.StreamReset.Answers

/-! Our own requests: the ones that were not answered are counted, numbered and kept in one chunk. -/
namespace Sctp

namespace ResetAsoc

/-- The requests stand among the first two parameters of the chunk, where they are looked for,
and nothing before them has one of their numbers. -/
def Finds (params reqs : List ResetParam) : Prop :=
  ∃ pre post, params.take 2 = pre ++ reqs ++ post ∧
    ∀ p ∈ pre, ∀ r ∈ reqs, p.seqWord ≠ r.seqWord

def chunks (s : ResetAsoc) : List ResetChunk := s.controlSendQueue ++ s.building.toList

/-- The requests that were not answered are counted, numbered and kept. -/
structure Tracked (s : ResetAsoc) : Prop where
  requests : ∀ r ∈ s.unanswered, r.isRequest = true
  count : s.streamResetOutstanding = s.unanswered.length
  numbers : ∀ i r, s.unanswered[i]? = some r → r.seqWord = s.strResetSeqOut + BitVec.ofNat 32 i
  none_iff : s.strReset = none ↔ s.unanswered = []
  kept : ∀ id, s.strReset = some id →
    ∃ chunk ∈ s.chunks, chunk.id = id ∧ Finds chunk.params s.unanswered
  nodup : (s.chunks.map (·.id)).Nodup
  fresh : ∀ chunk ∈ s.chunks, chunk.id < s.nextChunk
  sound : s.freedChunk = false

/-- Nothing that is kept about our requests changed. -/
structure SameRequests (s s' : ResetAsoc) : Prop where
  strResetSeqOut : s'.strResetSeqOut = s.strResetSeqOut
  streamResetOutstanding : s'.streamResetOutstanding = s.streamResetOutstanding
  strReset : s'.strReset = s.strReset
  controlSendQueue : s'.controlSendQueue = s.controlSendQueue
  building : s'.building = s.building
  nextChunk : s'.nextChunk = s.nextChunk
  unanswered : s'.unanswered = s.unanswered
  freedChunk : s'.freedChunk = s.freedChunk

theorem SameRequests.refl (s : ResetAsoc) : SameRequests s s := ⟨rfl, rfl, rfl, rfl, rfl, rfl, rfl, rfl⟩

theorem SameRequests.chunks {s s' : ResetAsoc} (h : SameRequests s s') : s'.chunks = s.chunks := by
  rw [ResetAsoc.chunks, h.controlSendQueue, h.building, ResetAsoc.chunks]

theorem Tracked.sameRequests {s s' : ResetAsoc} (h : s.Tracked) (hs : SameRequests s s') :
    s'.Tracked := by
  refine ⟨?_, ?_, ?_, ?_, ?_, ?_, ?_, hs.freedChunk.trans h.sound⟩
  · rw [hs.unanswered]; exact h.requests
  · rw [hs.streamResetOutstanding, hs.unanswered]; exact h.count
  · rw [hs.unanswered, hs.strResetSeqOut]; exact h.numbers
  · rw [hs.strReset, hs.unanswered]; exact h.none_iff
  · rw [hs.strReset, hs.chunks, hs.unanswered]; exact h.kept
  · rw [hs.chunks]; exact h.nodup
  · rw [hs.chunks, hs.nextChunk]; exact h.fresh

/-- Nothing is kept while nothing is outstanding. -/
theorem Tracked.idle {s : ResetAsoc} (h : s.Tracked) (h0 : s.streamResetOutstanding = 0) :
    s.unanswered = [] ∧ s.strReset = none := by
  have hun : s.unanswered = [] := List.length_eq_zero_iff.1 (h.count.symm.trans h0)
  exact ⟨hun, h.none_iff.2 hun⟩

theorem Finds.append {params reqs : List ResetParam} (h : Finds params reqs) (p : ResetParam) :
    Finds (params ++ [p]) reqs := by
  obtain ⟨pre, post, htake, hpre⟩ := h
  refine ⟨pre, post ++ [p].take (2 - params.length), ?_, hpre⟩
  rw [List.take_append, htake, List.append_assoc]

theorem Finds.length_le {params reqs : List ResetParam} (h : Finds params reqs) :
    reqs.length ≤ 2 := by
  obtain ⟨pre, post, htake, -⟩ := h
  have := congrArg List.length htake
  simp only [List.length_take, List.length_append] at this
  omega

/-- The oldest request is the one that is found. -/
theorem Finds.find {params rest : List ResetParam} {req : ResetParam}
    (h : Finds params (req :: rest)) :
    (params.take 2).find? (·.seqWord == req.seqWord) = some req := by
  obtain ⟨pre, post, htake, hpre⟩ := h
  have hno : pre.find? (·.seqWord == req.seqWord) = none := by
    rw [List.find?_eq_none]
    intro p hp
    simpa using hpre p hp req List.mem_cons_self
  rw [htake, List.append_assoc, List.find?_append, hno]
  simp

/-- Behind an answer to the oldest request the others are still found. -/
theorem Finds.tail {params rest : List ResetParam} {req : ResetParam}
    (h : Finds params (req :: rest)) (hne : ∀ r ∈ rest, req.seqWord ≠ r.seqWord) :
    Finds params rest := by
  obtain ⟨pre, post, htake, hpre⟩ := h
  refine ⟨pre ++ [req], post, by simpa using htake, ?_⟩
  intro p hp r hr
  rcases List.mem_append.1 hp with hp | hp
  · exact hpre p hp r (List.mem_cons_of_mem _ hr)
  · rw [List.mem_singleton.1 hp]
    exact hne r hr

/-- An answer is put into the chunk that is being built. -/
theorem Tracked.addParam {s : ResetAsoc} (h : s.Tracked) (p : ResetParam) :
    (s.addParam p).Tracked := by
  have hids : (s.addParam p).chunks.map (·.id) = s.chunks.map (·.id) := by
    unfold chunks ResetAsoc.addParam
    cases s.building <;> simp
  have hmem : ∀ chunk ∈ (s.addParam p).chunks, ∃ chunk' ∈ s.chunks, chunk.id = chunk'.id := by
    intro chunk hc
    have : chunk.id ∈ s.chunks.map (·.id) := hids ▸ List.mem_map_of_mem hc
    obtain ⟨chunk', hc', hid⟩ := List.mem_map.1 this
    exact ⟨chunk', hc', hid.symm⟩
  refine ⟨h.requests, h.count, h.numbers, h.none_iff, ?_, hids ▸ h.nodup, ?_, h.sound⟩
  · intro id hid
    obtain ⟨chunk, hc, hcid, hfind⟩ := h.kept id hid
    rcases List.mem_append.1 hc with hc | hc
    · exact ⟨chunk, List.mem_append_left _ hc, hcid, hfind⟩
    · refine ⟨{ chunk with params := chunk.params ++ [p] }, List.mem_append_right _ ?_, hcid,
        hfind.append p⟩
      rw [Option.mem_toList] at hc ⊢
      simp [ResetAsoc.addParam, Option.mem_def.1 hc]
  · intro chunk hc
    obtain ⟨chunk', hc', hid⟩ := hmem chunk hc
    exact hid ▸ h.fresh chunk' hc'

/-- One answered request less, before the chunk is looked after. -/
structure Retired (s t : ResetAsoc) (rest : List ResetParam) : Prop where
  strResetSeqOut : t.strResetSeqOut = s.strResetSeqOut + 1
  streamResetOutstanding : t.streamResetOutstanding = rest.length
  strReset : t.strReset = s.strReset
  controlSendQueue : t.controlSendQueue = s.controlSendQueue
  building : t.building = s.building
  nextChunk : t.nextChunk = s.nextChunk
  unanswered : t.unanswered = rest
  freedChunk : t.freedChunk = s.freedChunk

theorem Tracked.numbers_tail {s : ResetAsoc} (h : s.Tracked) {req : ResetParam}
    {rest : List ResetParam} (hreq : s.unanswered = req :: rest) (i : ℕ) (r : ResetParam)
    (hr : rest[i]? = some r) : r.seqWord = s.strResetSeqOut + 1 + BitVec.ofNat 32 i := by
  have := h.numbers (i + 1) r (by rw [hreq]; exact hr)
  rw [this, Nat.add_comm i 1, BitVec.ofNat_add, ← BitVec.add_assoc]
  rfl

theorem Tracked.seqWord_head {s : ResetAsoc} (h : s.Tracked) {req : ResetParam}
    {rest : List ResetParam} (hreq : s.unanswered = req :: rest) :
    req.seqWord = s.strResetSeqOut := by
  have := h.numbers 0 req (by rw [hreq]; rfl)
  simpa using this

/-- The chunk goes with the last answer, and stays with the others. -/
theorem Tracked.settle {s t : ResetAsoc} (h : s.Tracked) {req : ResetParam}
    {rest : List ResetParam} (hreq : s.unanswered = req :: rest) (hq : s.ChunkQueued)
    (ht : Retired s t rest) :
    t.settle.Tracked ∧ t.settle.unanswered = rest ∧
      t.settle.strResetSeqOut = s.strResetSeqOut + 1 ∧ t.settle.building = s.building ∧
      (t.settle.strReset = s.strReset ∨ t.settle.strReset = none) := by
  have hchunks : t.chunks = s.chunks := by
    rw [chunks, ht.controlSendQueue, ht.building, chunks]
  have hsome : s.strReset ≠ none := fun hn => by
    have := h.none_iff.1 hn
    rw [hreq] at this
    cases this
  obtain ⟨id, hid⟩ := Option.ne_none_iff_exists'.1 hsome
  have hkind : ∀ r ∈ t.unanswered, r.isRequest = true := by
    rw [ht.unanswered]
    exact fun r hr => h.requests r (hreq ▸ List.mem_cons_of_mem _ hr)
  unfold ResetAsoc.settle
  split_ifs with h0
  · have hrest : rest = [] := List.length_eq_zero_iff.1 (ht.streamResetOutstanding ▸ h0)
    subst hrest
    have hqt : t.ChunkQueued := by
      rw [ChunkQueued, ht.strReset, ht.building]
      exact hq
    rw [hqt.cleanUpStreamReset (ht.strReset.trans hid)]
    have hsub : (t.controlSendQueue.filter (·.id != id) ++ t.building.toList).Sublist s.chunks :=
      hchunks ▸ List.Sublist.append_right List.filter_sublist _
    refine ⟨⟨hkind, ?_, ?_, ?_, ?_, ?_, ?_, ht.freedChunk.trans h.sound⟩, ht.unanswered,
      ht.strResetSeqOut, ht.building, .inr rfl⟩
    · exact ht.streamResetOutstanding.trans (congrArg List.length ht.unanswered.symm)
    · intro i r hr
      have hr' : ([] : List ResetParam)[i]? = some r := ht.unanswered ▸ hr
      simp at hr'
    · exact ⟨fun _ => ht.unanswered, fun _ => rfl⟩
    · intro id' hid'
      cases hid'
    · exact h.nodup.sublist (hsub.map _)
    · intro chunk hc
      exact lt_of_lt_of_eq (h.fresh chunk (hsub.mem hc)) ht.nextChunk.symm
  · refine ⟨⟨hkind, ?_, ?_, ?_, ?_, ?_, ?_, ht.freedChunk.trans h.sound⟩, ht.unanswered,
      ht.strResetSeqOut, ht.building, .inl ht.strReset⟩
    · exact ht.streamResetOutstanding.trans (congrArg List.length ht.unanswered.symm)
    · rw [ht.unanswered, ht.strResetSeqOut]
      exact h.numbers_tail hreq
    · rw [ht.strReset, ht.unanswered]
      refine ⟨fun hn => absurd hn hsome, fun hn => ?_⟩
      rw [ht.streamResetOutstanding, hn] at h0
      exact absurd rfl h0
    · intro id' hid'
      rw [hchunks, ht.unanswered]
      obtain ⟨chunk, hc, hcid, hfind⟩ := h.kept id' (ht.strReset ▸ hid')
      rw [hreq] at hfind
      refine ⟨chunk, hc, hcid, hfind.tail fun r hr => ?_⟩
      obtain ⟨i, hi, rfl⟩ := List.mem_iff_getElem.1 hr
      have hlen := hfind.length_le
      simp only [List.length_cons] at hlen
      rw [h.seqWord_head hreq, h.numbers_tail hreq i _ (List.getElem?_eq_getElem hi)]
      have hi0 : i = 0 := by omega
      subst hi0
      simp
    · rw [hchunks]; exact h.nodup
    · rw [hchunks, ht.nextChunk]; exact h.fresh

/-- The condition on a response to the oldest request: the chunk with the requests was queued, and
a TSN reset was performed. -/
def AnswerFits (s : ResetAsoc) (action : BitVec 32) (tsns : Option (Tsn × Tsn)) : Prop :=
  s.ChunkQueued ∧
    ∀ req ∈ s.unanswered.head?, req = .tsnRequest req.seqWord →
      tsns.isSome = true ∧ action = resultPerformed

/-- The oldest request is found in its chunk. -/
theorem Tracked.findStreamReset {s : ResetAsoc} (h : s.Tracked) {req : ResetParam}
    {rest : List ResetParam} (hreq : s.unanswered = req :: rest)
    (hq : s.ChunkQueued) {t : ResetAsoc} (ht : t.strReset = s.strReset)
    (htq : t.controlSendQueue = s.controlSendQueue) (htb : t.building = s.building) :
    t.findStreamReset s.strResetSeqOut = (t, some req) := by
  have hsome : s.strReset ≠ none := fun hn => by
    have := h.none_iff.1 hn
    rw [hreq] at this
    cases this
  obtain ⟨id, hid⟩ := Option.ne_none_iff_exists'.1 hsome
  obtain ⟨chunk, hc, hcid, hfind⟩ := h.kept id hid
  have hqueue : chunk ∈ s.controlSendQueue := by
    rcases List.mem_append.1 hc with hc | hc
    · exact hc
    · rw [Option.mem_toList] at hc
      exact absurd (by rw [hid, hc, Option.map_some, hcid]) hq
  have hne : t.controlSendQueue.isEmpty = false := by
    rw [htq]
    cases hs : s.controlSendQueue with
    | nil => rw [hs] at hqueue; cases hqueue
    | cons a as => rfl
  have hchunk : t.strResetChunk = some chunk := by
    rw [strResetChunk, ht, hid, Option.bind_some, htq, htb]
    have hf : (s.chunks.find? (·.id == id)) = some chunk := by
      rw [List.find?_eq_some_iff_append]
      obtain ⟨l₁, l₂, hl⟩ := List.append_of_mem hc
      refine ⟨by simp [hcid], l₁, l₂, hl, fun c hcl => ?_⟩
      have hnd := h.nodup
      rw [hl, List.map_append, List.map_cons, List.nodup_append] at hnd
      have := hnd.2.2 c.id (List.mem_map_of_mem hcl) chunk.id List.mem_cons_self
      simpa [hcid] using fun heq : c.id = id => this (heq.trans hcid.symm)
    exact hf
  rw [hreq] at hfind
  rw [ResetAsoc.findStreamReset, hne, ht, hid, hchunk]
  simp only [Bool.false_and, Option.isNone_some, Bool.or_self, Bool.false_eq_true, if_false]
  rw [← h.seqWord_head hreq, hfind.find]

/-- A response to the oldest request retires it, whatever its result. -/
theorem Tracked.answerRequest {env : ResetEnv} {s t s' : ResetAsoc} (h : s.Tracked)
    {req : ResetParam} {rest : List ResetParam} {action : BitVec 32} {tsns : Option (Tsn × Tsn)}
    (hreq : s.unanswered = req :: rest) (hq : s.ChunkQueued)
    (ht : SameRequests s { t with unanswered := s.unanswered }) (hrest : t.unanswered = rest)
    (htsn : req = .tsnRequest req.seqWord → tsns.isSome = true ∧ action = resultPerformed)
    (hs : { t with strResetSeqOut := t.strResetSeqOut + 1 }.answerRequest env req action tsns =
      some s') :
    s'.Tracked ∧ s'.unanswered = rest ∧ s'.strResetSeqOut = s.strResetSeqOut + 1 ∧
      s'.building = s.building ∧ (s'.strReset = s.strReset ∨ s'.strReset = none) := by
  have hkind : req.isRequest = true := h.requests req (hreq ▸ List.mem_cons_self)
  have hcount : t.streamResetOutstanding = rest.length + 1 := by
    have := ht.streamResetOutstanding.trans h.count
    rw [hreq] at this
    exact this
  have hsettle : ∀ u : ResetAsoc, Retired s u rest → some u.settle = some s' →
      s'.Tracked ∧ s'.unanswered = rest ∧ s'.strResetSeqOut = s.strResetSeqOut + 1 ∧
        s'.building = s.building ∧ (s'.strReset = s.strReset ∨ s'.strReset = none) :=
    fun u hu hus => (Option.some.inj hus) ▸ h.settle hreq hq hu
  have hretired : ∀ u : ResetAsoc, SameRequests
      { t with strResetSeqOut := t.strResetSeqOut + 1 }.retire u → Retired s u rest := by
    intro u hu
    refine ⟨hu.1.trans (congrArg (· + 1) ht.1), ?_, hu.3.trans ht.3, hu.4.trans ht.4,
      hu.5.trans ht.5, hu.6.trans ht.6, hu.7.trans hrest, hu.8.trans ht.8⟩
    rw [hu.streamResetOutstanding]
    exact (congrArg (· - 1) hcount).trans (Nat.add_sub_cancel _ _)
  cases req with
  | outRequest seq respSeq tsn streams =>
    refine hsettle _ (hretired _ ?_) hs
    split_ifs <;> exact ⟨rfl, rfl, rfl, rfl, rfl, rfl, rfl, rfl⟩
  | inRequest seq streams =>
    refine hsettle _ (hretired _ ?_) hs
    exact .refl _
  | tsnRequest seq =>
    obtain ⟨hsome, rfl⟩ := htsn rfl
    obtain ⟨⟨a, b⟩, rfl⟩ := Option.isSome_iff_exists.1 hsome
    simp only [ResetAsoc.answerRequest, if_true] at hs
    obtain ⟨map, -, hmap⟩ := Option.map_eq_some_iff.1 hs
    refine hsettle _ (hretired _ ?_) (congrArg some hmap)
    exact ⟨rfl, rfl, rfl, rfl, rfl, rfl, rfl, rfl⟩
  | addOutStreams seq n =>
    refine hsettle _ (hretired _ ?_) hs
    split_ifs <;> exact ⟨rfl, rfl, rfl, rfl, rfl, rfl, rfl, rfl⟩
  | addInStreams seq n =>
    refine hsettle _ (hretired _ ?_) hs
    exact .refl _
  | response seq result => cases hkind
  | responseTsn seq result a b => cases hkind
  | unfit => cases hkind

/-- Behind parameters, the requests that they answered are gone, the oldest first and the oldest for
certain if it was answered, and others may have come. -/
structure Retires (s : ResetAsoc) (params : List ResetParam) (s' : ResetAsoc) (k : ℕ)
    (new : List ResetParam) : Prop where
  unanswered : s'.unanswered = s.unanswered.drop k ++ new
  strResetSeqOut : s'.strResetSeqOut = s.strResetSeqOut + BitVec.ofNat 32 k
  answered : ∀ r ∈ s.unanswered.take k, ∃ p ∈ params, p.answerTo = some r.seqWord
  oldest : s.unanswered ≠ [] → (∃ p ∈ params, p.answerTo = some s.strResetSeqOut) → 0 < k

/-- Parameters that answer nothing. -/
theorem Retires.of_unanswered {s s' : ResetAsoc} {params new : List ResetParam}
    (hun : s'.unanswered = s.unanswered ++ new) (hout : s'.strResetSeqOut = s.strResetSeqOut)
    (hno : s.unanswered ≠ [] → ∀ p ∈ params, p.answerTo ≠ some s.strResetSeqOut) :
    Retires s params s' 0 new := by
  refine ⟨hun, hout.trans (BitVec.add_zero _).symm, ?_, ?_⟩
  · intro r hr
    rw [List.take_zero] at hr
    cases hr
  · rintro hne ⟨p, hp, hans⟩
    exact absurd hans (hno hne p hp)

theorem Retires.trans {s t s' : ResetAsoc} {ps qs new new' : List ResetParam} {k k' : ℕ}
    (h : Retires s ps t k new) (h' : Retires t qs s' k' new') :
    Retires s (ps ++ qs) s' (k + k')
      (new.drop (k' - (s.unanswered.drop k).length) ++ new') := by
  refine ⟨?_, ?_, ?_, ?_⟩
  · rw [h'.unanswered, h.unanswered, List.drop_append, List.drop_drop, List.append_assoc]
  · rw [h'.strResetSeqOut, h.strResetSeqOut, BitVec.ofNat_add, BitVec.add_assoc]
  · intro r hr
    rw [List.take_add, List.mem_append] at hr
    rcases hr with hr | hr
    · obtain ⟨p, hp, hans⟩ := h.answered r hr
      exact ⟨p, List.mem_append_left _ hp, hans⟩
    · have hr' : r ∈ t.unanswered.take k' := by
        rw [h.unanswered, List.take_append]
        exact List.mem_append_left _ hr
      obtain ⟨p, hp, hans⟩ := h'.answered r hr'
      exact ⟨p, List.mem_append_right _ hp, hans⟩
  · rintro hne ⟨p, hp, hans⟩
    cases hk : k with
    | succ k => omega
    | zero =>
      subst hk
      have hnone : p ∉ ps := fun hmem => absurd (h.oldest hne ⟨p, hmem, hans⟩) (lt_irrefl 0)
      have hun : t.unanswered = s.unanswered ++ new := h.unanswered
      have hout : t.strResetSeqOut = s.strResetSeqOut :=
        h.strResetSeqOut.trans (BitVec.add_zero _)
      have hpos := h'.oldest (by rw [hun]; exact List.append_ne_nil_of_left_ne_nil hne _)
        ⟨p, (List.mem_append.1 hp).resolve_left hnone, by rw [hout]; exact hans⟩
      omega

/-- A response retires the oldest request when it is for it, and does nothing otherwise. -/
theorem Tracked.response {env : ResetEnv} {s s' : ResetAsoc} (h : s.Tracked) {seq : ResetSeq}
    {action : BitVec 32} {tsns : Option (Tsn × Tsn)}
    (hfits : s.streamResetOutstanding ≠ 0 → seq = s.strResetSeqOut → s.AnswerFits action tsns)
    (hs : s.handleStreamResetResponse env seq action tsns = some s') :
    s'.Tracked ∧ s'.building = s.building ∧ (s'.strReset = s.strReset ∨ s'.strReset = none) ∧
      (s.strReset = s.building.map (·.id) → s'.strReset = s.strReset) ∧
      ∀ p : ResetParam, p.answerTo = some seq → ∃ k, Retires s [p] s' k [] := by
  have hsame : ∀ t, some t = some s' → SameRequests s t →
      (s.unanswered ≠ [] → seq ≠ s.strResetSeqOut) →
      s'.Tracked ∧ s'.building = s.building ∧ (s'.strReset = s.strReset ∨ s'.strReset = none) ∧
        (s.strReset = s.building.map (·.id) → s'.strReset = s.strReset) ∧
        ∀ p : ResetParam, p.answerTo = some seq → ∃ k, Retires s [p] s' k [] := by
    intro t ht hst hno
    obtain rfl := Option.some.inj ht
    refine ⟨h.sameRequests hst, hst.building, .inl hst.strReset, fun _ => hst.strReset,
      fun p hp => ⟨0, .of_unanswered ?_ hst.strResetSeqOut ?_⟩⟩
    · rw [hst.unanswered, List.append_nil]
    · intro hne q hq
      rw [List.mem_singleton.1 hq, hp]
      exact fun hseq => hno hne (Option.some.inj hseq)
  unfold handleStreamResetResponse at hs
  simp only at hs
  cases hun : s.unanswered with
  | nil =>
    have h0 : s.streamResetOutstanding = 0 := by rw [h.count, hun]; rfl
    rw [if_pos (by exact h0)] at hs
    refine hsame _ hs ⟨rfl, rfl, rfl, rfl, rfl, rfl, ?_, rfl⟩ fun hne => absurd hun hne
    simp [noteAnswer, ResetAsoc.answered, hun]
  | cons req rest =>
    have hhead := h.seqWord_head hun
    have h0 : s.streamResetOutstanding ≠ 0 := by rw [h.count, hun]; simp
    rw [if_neg (by exact h0)] at hs
    by_cases hseq : seq = s.strResetSeqOut
    · subst hseq
      have hfit := hfits h0 rfl
      have hrest : (s.noteAnswer s.strResetSeqOut).unanswered = rest := by
        simp [noteAnswer, ResetAsoc.answered, hun, hhead]
      have hnote : SameRequests s
          { s.noteAnswer s.strResetSeqOut with unanswered := s.unanswered } :=
        ⟨rfl, rfl, rfl, rfl, rfl, rfl, rfl, rfl⟩
      rw [if_pos (by rfl), h.findStreamReset (t := s.noteAnswer s.strResetSeqOut) hun hfit.1 rfl rfl
        rfl] at hs
      obtain ⟨ht, hun', hout, hb, hstr⟩ := h.answerRequest hun hfit.1 hnote hrest
        (fun hk => hfit.2 req (by rw [hun]; rfl) hk) hs
      refine ⟨ht, hb, hstr, fun hk => absurd hk hfit.1, fun p hp => ⟨1, ?_, hout, ?_, ?_⟩⟩
      · rw [hun', hun, List.append_nil]
        rfl
      · intro r hr
        rw [hun] at hr
        rw [List.mem_singleton.1 hr, hhead]
        exact ⟨p, List.mem_singleton_self p, hp⟩
      · exact fun _ _ => Nat.one_pos
    · rw [if_neg (by exact hseq)] at hs
      refine hsame _ hs ⟨rfl, rfl, rfl, rfl, rfl, rfl, ?_, rfl⟩ fun _ => hseq
      have : ¬ s.strResetSeqOut = seq := fun hk => hseq hk.symm
      simp [noteAnswer, ResetAsoc.answered, hun, hhead, this]

def askedRequests (s : ResetAsoc) (a : SendArgs) : List (ResetSeq → ResetParam) :=
  (if a.sendOutReq then
    [fun seq => .outRequest seq (s.strResetSeqIn - 1) (s.sendingSeq - 1) a.list] else []) ++
  (if a.add.out then [fun seq => .addOutStreams seq a.add.addingO] else []) ++
  (if a.add.inc then [fun seq => .addInStreams seq a.add.addingI] else []) ++
  (if a.sendInReq then [fun seq => .inRequest seq a.list] else []) ++
  (if a.sendTsnReq then [fun seq => .tsnRequest seq] else [])

/-- The condition on a request of ours: no more than two, and streams to add are some and find
memory. -/
def SendFits (env : ResetEnv) (s : ResetAsoc) (a : SendArgs) : Prop :=
  (s.askedRequests a).length ≤ 2 ∧
    (a.add.out = true → a.add.addingO ≠ 0 ∧ s.hasRoom env a.add = true) ∧
    (a.add.inc = true → a.add.addingI ≠ 0)

theorem SendFits.chosen {env : ResetEnv} {s : ResetAsoc} {a : SendArgs} (h : s.SendFits env a) :
    s.chosenRequests env a.list a.sendOutReq a.sendInReq a.sendTsnReq a.add = s.askedRequests a := by
  obtain ⟨-, hout, hinc⟩ := h
  have ho : (a.add.out && s.hasRoom env a.add && a.add.addingO != 0) = a.add.out := by
    cases hb : a.add.out with
    | false => rfl
    | true =>
      have h0 : (a.add.addingO != 0) = true := bne_iff_ne.2 (hout hb).1
      rw [(hout hb).2, h0]
      rfl
  have hi : (a.add.inc && a.add.addingI != 0) = a.add.inc := by
    cases hb : a.add.inc with
    | false => rfl
    | true => exact bne_iff_ne.2 (hinc hb)
  rw [chosenRequests, ho, hi, askedRequests]

theorem numbered_getElem? (seq : ResetSeq) (fs : List (ResetSeq → ResetParam)) (i : ℕ) :
    (numbered seq fs)[i]? = (fs[i]?).map (· (seq + BitVec.ofNat 32 i)) := by
  induction fs generalizing seq i with
  | nil => simp [numbered]
  | cons f fs ih =>
    cases i with
    | zero => simp [numbered]
    | succ i =>
      simp only [numbered, List.getElem?_cons_succ, ih]
      rw [Nat.add_comm i 1, BitVec.ofNat_add, ← BitVec.add_assoc]
      rfl

theorem length_numbered (seq : ResetSeq) (fs : List (ResetSeq → ResetParam)) :
    (numbered seq fs).length = fs.length := by
  induction fs generalizing seq with
  | nil => rfl
  | cons f fs ih => simp [numbered, ih]

/-- A request that is asked for is a request and has the number it is given. -/
theorem askedRequests_spec {s : ResetAsoc} {a : SendArgs} {f : ResetSeq → ResetParam}
    (hf : f ∈ s.askedRequests a) (seq : ResetSeq) :
    (f seq).isRequest = true ∧ (f seq).seqWord = seq := by
  simp only [askedRequests, List.mem_append, List.mem_ite_nil_right, List.mem_singleton] at hf
  rcases hf with (((⟨-, rfl⟩ | ⟨-, rfl⟩) | ⟨-, rfl⟩) | ⟨-, rfl⟩) | ⟨-, rfl⟩ <;> exact ⟨rfl, rfl⟩

theorem ne_nil_of_asked {s : ResetAsoc} {a : SendArgs}
    (h : ¬ (!a.sendOutReq && !a.sendInReq && !a.sendTsnReq && !a.add.out && !a.add.inc) = true) :
    s.askedRequests a ≠ [] := by
  intro hnil
  simp only [askedRequests, List.append_eq_nil_iff, ite_eq_right_iff, List.cons_ne_self,
    imp_false, Bool.not_eq_true] at hnil
  obtain ⟨⟨⟨⟨h1, h2⟩, h3⟩, h4⟩, h5⟩ := hnil
  simp [h1, h2, h3, h4, h5] at h

/-- A send that succeeds has queued the requests it was asked for. -/
theorem Tracked.sendStrResetReq {env : ResetEnv} {s s' : ResetAsoc} (h : s.Tracked) {a : SendArgs}
    (hfits : s.SendFits env a)
    (hs : s.sendStrResetReq env a.list a.sendOutReq a.sendInReq a.sendTsnReq a.add a.peerAsked =
      .ok s') :
    s'.Tracked ∧ s'.unanswered = numbered s.strResetSeqOut (s.askedRequests a) ∧
      s'.building = s.building := by
  unfold ResetAsoc.sendStrResetReq at hs
  split_ifs at hs with h0 hnone h2 h3 h4
  cases hs
  have hun := (h.idle (not_not.1 h0)).1
  have hne := ne_nil_of_asked (s := s) hnone
  simp only [hfits.chosen, hun, List.nil_append]
  have hlen := length_numbered s.strResetSeqOut (s.askedRequests a)
  have hnum := numbered_getElem? s.strResetSeqOut (s.askedRequests a)
  generalize numbered s.strResetSeqOut (s.askedRequests a) = reqs at hlen hnum ⊢
  have hasked : ∀ i r, reqs[i]? = some r → r.isRequest = true ∧
      r.seqWord = s.strResetSeqOut + BitVec.ofNat 32 i := by
    intro i r hr
    rw [hnum] at hr
    obtain ⟨f, hf, rfl⟩ := Option.map_eq_some_iff.1 hr
    exact askedRequests_spec (List.mem_of_getElem? hf) _
  obtain ⟨chunk, hchunk⟩ : ∃ chunk : ResetChunk, chunk = { id := s.nextChunk, params := reqs } :=
    ⟨_, rfl⟩
  have hid : chunk.id = s.nextChunk := by rw [hchunk]
  have hperm : (s.controlSendQueue ++ [chunk] ++ s.building.toList).Perm (chunk :: s.chunks) := by
    rw [List.append_assoc]
    exact List.perm_middle
  rw [← hchunk]
  refine ⟨⟨?_, ?_, ?_, ?_, ?_, ?_, ?_, h.sound⟩, trivial, trivial⟩
  · intro r hr
    obtain ⟨i, hi, rfl⟩ := List.mem_iff_getElem.1 hr
    exact (hasked i _ (List.getElem?_eq_getElem hi)).1
  · rw [not_not.1 h0, Nat.zero_add]
  · exact fun i r hr => (hasked i r hr).2
  · refine ⟨fun hk => absurd hk (Option.some_ne_none _), fun hk => ?_⟩
    have : reqs.length = 0 := congrArg List.length hk
    exact absurd (List.length_eq_zero_iff.1 (hlen ▸ this)) hne
  · intro id hk
    refine ⟨chunk, hperm.mem_iff.2 List.mem_cons_self, hid.trans (Option.some.inj hk), [], [], ?_,
      by simp⟩
    rw [hchunk, List.take_of_length_le (hlen ▸ hfits.1)]
    simp
  · refine (hperm.map _).nodup_iff.2 (List.nodup_cons.2 ⟨fun hk => ?_, h.nodup⟩)
    obtain ⟨c, hc, hcid⟩ := List.mem_map.1 hk
    exact absurd (hcid.trans hid) (h.fresh c hc).ne
  · intro c hc
    rcases List.mem_cons.1 (hperm.mem_iff.1 hc) with rfl | hc
    · exact lt_of_eq_of_lt hid (Nat.lt_succ_self _)
    · exact (h.fresh c hc).trans (Nat.lt_succ_self _)

/-- A request of the peer for a reset of ours: the chunk that answers it carries our request. -/
theorem Tracked.adoptOut {s : ResetAsoc} (h : s.Tracked) {chunk : ResetChunk}
    (hb : s.building = some chunk) (h0 : s.streamResetOutstanding = 0)
    (hlen : chunk.params.length ≤ 1) (hpre : ∀ p ∈ chunk.params, p.seqWord ≠ s.strResetSeqOut)
    (out : ResetParam) (hout : out.isRequest = true) (hseq : out.seqWord = s.strResetSeqOut) :
    ((s.addParam out).adoptOut out).Tracked := by
  have hun := (h.idle h0).1
  have hadd := h.addParam out
  have hun' : ((s.addParam out).adoptOut out).unanswered = [out] :=
    congrArg (· ++ [out]) hun
  have hbuild : (s.addParam out).building = some { chunk with params := chunk.params ++ [out] } := by
    rw [ResetAsoc.addParam, hb, Option.map_some]
  have hstr : ((s.addParam out).adoptOut out).strReset = some chunk.id := by
    rw [ResetAsoc.adoptOut, hbuild, Option.map_some]
  refine ⟨?_, ?_, ?_, ?_, ?_, hadd.nodup, hadd.fresh, hadd.sound⟩
  · rw [hun']
    exact fun r hr => (List.mem_singleton.1 hr) ▸ hout
  · rw [hun']
    exact congrArg (· + 1) h0
  · intro i r hr
    rw [hun'] at hr
    cases i with
    | zero =>
      have : out = r := Option.some.inj hr
      rw [← this, hseq]
      exact (BitVec.add_zero _).symm
    | succ i => simp at hr
  · rw [hstr, hun']
    simp
  · intro id hid
    rw [hstr] at hid
    rw [hun']
    refine ⟨{ chunk with params := chunk.params ++ [out] }, List.mem_append_right _ ?_,
      Option.some.inj hid, chunk.params, [], ?_, ?_⟩
    · rw [Option.mem_toList]
      exact hbuild
    · rw [List.take_of_length_le (by simp; omega), List.append_nil]
    · intro p hp r hr
      rw [List.mem_singleton.1 hr, hseq]
      exact hpre p hp

/-- A response to the oldest request fits, an IN request that makes us send one meets no request of
ours and no answer with its number, and an ADD-IN request can be sent. -/
def Trackable (env : ResetEnv) (s : ResetAsoc) : ResetParam → Prop
  | .outRequest _ respSeq _ _ => s.streamResetOutstanding ≠ 0 → respSeq = s.strResetSeqOut →
    s.AnswerFits resultPerformed none
  | .inRequest seq streams =>
    s.strResetSeqIn = seq → s.enableResetStream = true → 8 + 2 * streams.length ≤ chunkBufferSize →
    s.streamResetOutIsOutstanding = false →
    s.streamResetOutstanding = 0 ∧
      ∀ chunk ∈ s.building, ∀ p ∈ chunk.params, p.seqWord ≠ s.strResetSeqOut
  | .addInStreams seq n =>
    s.strResetSeqIn = seq → s.enableChangeAssoc = true → s.streamResetOutstanding = 0 →
    s.streamoutcnt + n.toNat < 0x10000 → env.sendChunkOk = true →
    n ≠ 0 ∧ s.hasRoom env { out := true, inc := false, addingO := n, addingI := 0 } = true
  | .response seq result => s.streamResetOutstanding ≠ 0 → seq = s.strResetSeqOut →
    s.AnswerFits result none
  | .responseTsn seq result a b => s.streamResetOutstanding ≠ 0 → seq = s.strResetSeqOut →
    s.AnswerFits result (some (a, b))
  | _ => True

instance AnswerFits.decidable (s : ResetAsoc) (action : BitVec 32) (tsns : Option (Tsn × Tsn)) :
    Decidable (s.AnswerFits action tsns) := by
  unfold AnswerFits ChunkQueued
  infer_instance

instance decidableTrackable (env : ResetEnv) (s : ResetAsoc) :
    (p : ResetParam) → Decidable (s.Trackable env p)
  | .outRequest .. | .inRequest .. | .addInStreams .. | .response .. | .responseTsn .. =>
    inferInstanceAs (Decidable (_ → _))
  | .tsnRequest _ | .addOutStreams .. | .unfit => .isTrue trivial

/-- A chunk is being built: it has few parameters, or a request of ours. -/
structure Slots (s : ResetAsoc) (k : ℕ) : Prop where
  exists_chunk : ∃ chunk, s.building = some chunk ∧
    (chunk.params.length ≤ k ∨ s.strReset = some chunk.id)

theorem Slots.addParam {s : ResetAsoc} {k : ℕ} (h : s.Slots k) (p : ResetParam) :
    (s.addParam p).Slots (k + 1) := by
  obtain ⟨chunk, hb, hk⟩ := h.exists_chunk
  refine ⟨{ chunk with params := chunk.params ++ [p] }, by simp [ResetAsoc.addParam, hb], ?_⟩
  rcases hk with hk | hk
  · exact .inl (by simpa using hk)
  · exact .inr hk

theorem Slots.sameRequests {s s' : ResetAsoc} {k : ℕ} (h : s.Slots k) (hs : SameRequests s s') :
    s'.Slots k := by
  obtain ⟨chunk, hb, hk⟩ := h.exists_chunk
  exact ⟨chunk, hs.building.trans hb, hs.strReset ▸ hk⟩

/-- A request that has nothing to do with ours is answered. -/
theorem Tracked.answered {s t : ResetAsoc} {k : ℕ} (h : s.Tracked) (hslots : s.Slots k)
    (hst : SameRequests s t) (p : ResetParam) :
    (t.addParam p).Tracked ∧ (t.addParam p).Slots (k + 1) :=
  ⟨(h.sameRequests hst).addParam p, (hslots.sameRequests hst).addParam p⟩

theorem Tracked.answer {s t : ResetAsoc} {k : ℕ} (h : s.Tracked) (hslots : s.Slots k)
    (hst : SameRequests s t) (req resp : ResetParam) :
    (t.answer req resp).Tracked ∧ (t.answer req resp).Slots (k + 1) := by
  have := h.answered hslots hst resp
  exact ⟨this.1.sameRequests ⟨rfl, rfl, rfl, rfl, rfl, rfl, rfl, rfl⟩,
    this.2.sameRequests ⟨rfl, rfl, rfl, rfl, rfl, rfl, rfl, rfl⟩⟩

theorem Tracked.answerOld {s : ResetAsoc} {k : ℕ} (h : s.Tracked) (hslots : s.Slots k)
    (seq : ResetSeq) : (s.answerOld seq).Tracked ∧ (s.answerOld seq).Slots (k + 1) := by
  obtain ⟨r, hr⟩ := answerOld_eq s seq
  rw [hr]
  exact h.answered hslots (.refl s) r

theorem Tracked.handleStrResetRequestIn {env : ResetEnv} {s : ResetAsoc} {k : ℕ} (h : s.Tracked)
    (hslots : s.Slots k) (hk : k ≤ 1) {seq : ResetSeq} {streams : List StreamNo}
    (hok : s.Trackable env (.inRequest seq streams)) :
    (s.handleStrResetRequestIn seq streams).Tracked ∧
      (s.handleStrResetRequestIn seq streams).Slots (k + 1) := by
  unfold ResetAsoc.handleStrResetRequestIn
  split_ifs with hseq hden hout
  · refine h.answer hslots ?_ _ _
    exact ⟨rfl, rfl, rfl, rfl, rfl, rfl, rfl, rfl⟩
  · simp only [Bool.or_eq_true, Bool.not_eq_true', decide_eq_true_eq, not_or, not_lt] at hden hout
    obtain ⟨h0, hpre⟩ := hok hseq (by simpa using hden.1) hden.2 hout
    obtain ⟨chunk, hb, hroom⟩ := hslots.exists_chunk
    have hlen : chunk.params.length ≤ 1 := by
      rcases hroom with hroom | hroom
      · exact hroom.trans hk
      · rw [(h.idle h0).2] at hroom
        cases hroom
    have hnote : (s.noteAction resultPerformed).Tracked :=
      h.sameRequests ⟨rfl, rfl, rfl, rfl, rfl, rfl, rfl, rfl⟩
    obtain ⟨out, hout'⟩ : ∃ out, out =
        ResetParam.outRequest s.strResetSeqOut seq (s.sendingSeq - 1) streams := ⟨_, rfl⟩
    have hadopt := hnote.adoptOut hb h0 hlen (hpre chunk hb) out (by rw [hout']; rfl)
      (by rw [hout']; rfl)
    have hslots' : (((s.noteAction resultPerformed).addParam out).adoptOut out).Slots k := by
      refine ⟨{ chunk with params := chunk.params ++ [out] }, ?_, .inr ?_⟩
      · simp [ResetAsoc.addParam, ResetAsoc.adoptOut, noteAction, hb]
      · simp [ResetAsoc.addParam, ResetAsoc.adoptOut, noteAction, hb]
    rw [hout'] at hadopt hslots'
    exact hadopt.answer hslots' (.refl _) _ _
  · refine h.answer hslots ?_ _ _
    exact ⟨rfl, rfl, rfl, rfl, rfl, rfl, rfl, rfl⟩
  · exact h.answerOld hslots seq

theorem Tracked.handleStrResetRequestTsn {env : ResetEnv} {s s' : ResetAsoc} {k : ℕ}
    (h : s.Tracked) (hslots : s.Slots k) {seq : ResetSeq}
    (hs : s.handleStrResetRequestTsn env seq = some s') : s'.Tracked ∧ s'.Slots (k + 1) := by
  unfold ResetAsoc.handleStrResetRequestTsn at hs
  split_ifs at hs
  · refine Option.some.inj hs ▸ h.answer hslots ?_ _ _
    exact ⟨rfl, rfl, rfl, rfl, rfl, rfl, rfl, rfl⟩
  · obtain ⟨t, ht, rfl⟩ := Option.map_eq_some_iff.1 hs
    obtain ⟨map, -, rfl⟩ := Option.map_eq_some_iff.1 ht
    refine h.answer hslots ?_ _ _
    exact ⟨rfl, rfl, rfl, rfl, rfl, rfl, rfl, rfl⟩
  all_goals exact Option.some.inj hs ▸ h.answered hslots (.refl s) _

theorem Tracked.handleStrResetRequestOut {s : ResetAsoc} {k : ℕ} (h : s.Tracked)
    (hslots : s.Slots k) (env : ResetEnv) (seq respSeq : ResetSeq) (tsn : Tsn)
    (streams : List StreamNo) :
    (s.handleStrResetRequestOut env seq respSeq tsn streams).Tracked ∧
      (s.handleStrResetRequestOut env seq respSeq tsn streams).Slots (k + 1) := by
  unfold ResetAsoc.handleStrResetRequestOut
  split_ifs
  · refine h.answer hslots ?_ _ _
    exact ⟨rfl, rfl, rfl, rfl, rfl, rfl, rfl, rfl⟩
  · refine h.answer hslots ?_ _ _
    exact ⟨rfl, rfl, rfl, rfl, rfl, rfl, rfl, rfl⟩
  · refine h.answered hslots ?_ _
    exact ⟨rfl, rfl, rfl, rfl, rfl, rfl, rfl, rfl⟩
  · refine h.answer hslots ?_ _ _
    exact ⟨rfl, rfl, rfl, rfl, rfl, rfl, rfl, rfl⟩
  · exact h.answerOld hslots seq

theorem Tracked.handleStrResetAddStrm {s : ResetAsoc} {k : ℕ} (h : s.Tracked)
    (hslots : s.Slots k) (env : ResetEnv) (seq : ResetSeq) (n : BitVec 16) :
    (s.handleStrResetAddStrm env seq n).Tracked ∧
      (s.handleStrResetAddStrm env seq n).Slots (k + 1) := by
  unfold ResetAsoc.handleStrResetAddStrm
  simp only
  split_ifs
  · refine h.answer hslots ?_ _ _
    exact ⟨rfl, rfl, rfl, rfl, rfl, rfl, rfl, rfl⟩
  · refine h.answer hslots ?_ _ _
    exact ⟨rfl, rfl, rfl, rfl, rfl, rfl, rfl, rfl⟩
  · exact h.answerOld hslots seq

theorem sendChunkOk_of_send {env : ResetEnv} {s s' : ResetAsoc} {a : SendArgs}
    (hs : s.sendStrResetReq env a.list a.sendOutReq a.sendInReq a.sendTsnReq a.add a.peerAsked =
      .ok s') : env.sendChunkOk = true := by
  unfold ResetAsoc.sendStrResetReq at hs
  split_ifs at hs with h0 h1 h2 h3 h4
  simpa using h4

theorem Tracked.handleStrResetAddOutStrm {env : ResetEnv} {s : ResetAsoc} {k : ℕ} (h : s.Tracked)
    (hslots : s.Slots k) {seq : ResetSeq} {n : BitVec 16}
    (hok : s.Trackable env (.addInStreams seq n)) :
    (s.handleStrResetAddOutStrm env seq n).Tracked ∧
      (s.handleStrResetAddOutStrm env seq n).Slots (k + 1) := by
  have hsame : ∀ action, ((s.noteAction action).answer (.addInStreams seq n)
      (.response seq action)).Tracked ∧ ((s.noteAction action).answer (.addInStreams seq n)
      (.response seq action)).Slots (k + 1) := by
    intro action
    refine h.answer hslots ?_ _ _
    exact ⟨rfl, rfl, rfl, rfl, rfl, rfl, rfl, rfl⟩
  unfold ResetAsoc.handleStrResetAddOutStrm
  split_ifs with hseq hen h0 hcnt
  · exact hsame _
  · exact hsame _
  · split
    · rename_i t ht
      let a : SendArgs :=
        { list := [], sendOutReq := false, sendInReq := false, sendTsnReq := false
          add := { out := true, inc := false, addingO := n, addingI := 0 }, peerAsked := true }
      have hroom := hok hseq (by simpa using hen) (not_not.1 h0) hcnt
        (sendChunkOk_of_send (a := a) ht)
      have hfits : s.SendFits env a := ⟨by simp [a, askedRequests], fun _ => hroom, by simp [a]⟩
      obtain ⟨htr, -, hb⟩ := h.sendStrResetReq hfits ht
      obtain ⟨chunk, hb', hlen⟩ := hslots.exists_chunk
      have hslots' : t.Slots k := by
        refine ⟨chunk, hb.trans hb', .inl (hlen.resolve_right fun hk => ?_)⟩
        rw [(h.idle (not_not.1 h0)).2] at hk
        cases hk
      refine htr.answer hslots' ?_ _ _
      exact ⟨rfl, rfl, rfl, rfl, rfl, rfl, rfl, rfl⟩
    · exact hsame _
  · exact hsame _
  · exact h.answerOld hslots seq

/-- One parameter of an incoming chunk. -/
theorem Tracked.handleParam {env : ResetEnv} {s s' : ResetAsoc} {k : ℕ} (h : s.Tracked)
    (hslots : s.Slots k) (hk : k ≤ 1) {p : ResetParam} (hok : s.Trackable env p)
    (hs : s.handleParam env p = some s') : s'.Tracked ∧ s'.Slots (k + 1) := by
  have hresp : ∀ {seq action tsns t},
      (s.streamResetOutstanding ≠ 0 → seq = s.strResetSeqOut → s.AnswerFits action tsns) →
      s.handleStreamResetResponse env seq action tsns = some t → t.Tracked ∧ t.Slots k := by
    intro seq action tsns t hfits ht
    obtain ⟨htr, hb, -, hkeep, -⟩ := h.response hfits ht
    obtain ⟨chunk, hc, hlen⟩ := hslots.exists_chunk
    refine ⟨htr, chunk, hb.trans hc, hlen.imp_right fun hstr => ?_⟩
    rw [hkeep (by rw [hstr, hc]; rfl), hstr]
  have hmono : s'.Slots k → s'.Slots (k + 1) := by
    rintro ⟨chunk, hc, hlen⟩
    exact ⟨chunk, hc, hlen.imp_left fun hl => hl.trans (Nat.le_succ k)⟩
  cases p with
  | outRequest seq respSeq tsn streams =>
    obtain ⟨t, ht, rfl⟩ := Option.map_eq_some_iff.1 hs
    have htr : t.Tracked ∧ t.Slots k := by
      unfold implicitAck at ht
      split_ifs at ht
      · exact hresp hok ht
      · exact Option.some.inj ht ▸ ⟨h, hslots⟩
    exact htr.1.handleStrResetRequestOut htr.2 env seq respSeq tsn streams
  | inRequest seq streams =>
    exact Option.some.inj hs ▸ h.handleStrResetRequestIn hslots hk hok
  | tsnRequest seq => exact h.handleStrResetRequestTsn hslots hs
  | addOutStreams seq n => exact Option.some.inj hs ▸ h.handleStrResetAddStrm hslots env seq n
  | addInStreams seq n => exact Option.some.inj hs ▸ h.handleStrResetAddOutStrm hslots hok
  | response seq result =>
    obtain ⟨htr, hsl⟩ := hresp hok hs
    exact ⟨htr, hmono hsl⟩
  | responseTsn seq result a b =>
    obtain ⟨htr, hsl⟩ := hresp hok hs
    exact ⟨htr, hmono hsl⟩
  | unfit =>
    obtain rfl := Option.some.inj hs
    exact ⟨h, hmono hslots⟩

/-- A chunk of responses leaves the chunk with our requests, or takes it away. -/
theorem strReset_of_responses {env : ResetEnv} {s s' : ResetAsoc} {p : ResetParam} (h : s.Tracked)
    (hok : s.Trackable env p) (hp : p.isRequest = false) (hs : s.handleParam env p = some s') :
    s'.building = s.building ∧ (s'.strReset = s.strReset ∨ s'.strReset = none) := by
  cases p with
  | response seq result =>
    obtain ⟨-, hb, hstr, -, -⟩ := h.response hok hs
    exact ⟨hb, hstr⟩
  | responseTsn seq result a b =>
    obtain ⟨-, hb, hstr, -, -⟩ := h.response hok hs
    exact ⟨hb, hstr⟩
  | unfit =>
    obtain rfl := Option.some.inj hs
    exact ⟨rfl, .inl rfl⟩
  | _ => cases hp

/-- Requests of ours may have come, and none is answered. -/
def Asks (s s' : ResetAsoc) : Prop :=
  ∃ new, s'.unanswered = s.unanswered ++ new ∧ s'.strResetSeqOut = s.strResetSeqOut

theorem Asks.of_same {s s' : ResetAsoc} (hun : s'.unanswered = s.unanswered)
    (hout : s'.strResetSeqOut = s.strResetSeqOut) : Asks s s' :=
  ⟨[], hun.trans (List.append_nil _).symm, hout⟩

theorem asks_answerOld (s : ResetAsoc) (seq : ResetSeq) : Asks s (s.answerOld seq) := by
  obtain ⟨r, hr⟩ := answerOld_eq s seq
  rw [hr]
  exact .of_same rfl rfl

theorem asks_handleStrResetRequestIn (s : ResetAsoc) (seq : ResetSeq) (streams : List StreamNo) :
    Asks s (s.handleStrResetRequestIn seq streams) := by
  unfold ResetAsoc.handleStrResetRequestIn
  split_ifs
  · exact .of_same rfl rfl
  · exact ⟨_, rfl, rfl⟩
  · exact .of_same rfl rfl
  · exact asks_answerOld s seq

theorem asks_handleStrResetRequestTsn {env : ResetEnv} {s s' : ResetAsoc} {seq : ResetSeq}
    (hs : s.handleStrResetRequestTsn env seq = some s') : Asks s s' := by
  unfold ResetAsoc.handleStrResetRequestTsn at hs
  split_ifs at hs
  · exact Option.some.inj hs ▸ .of_same rfl rfl
  · obtain ⟨t, ht, rfl⟩ := Option.map_eq_some_iff.1 hs
    obtain ⟨map, -, rfl⟩ := Option.map_eq_some_iff.1 ht
    exact .of_same rfl rfl
  all_goals exact Option.some.inj hs ▸ .of_same rfl rfl

theorem asks_handleStrResetRequestOut (env : ResetEnv) (s : ResetAsoc) (seq respSeq : ResetSeq)
    (tsn : Tsn) (streams : List StreamNo) :
    Asks s (s.handleStrResetRequestOut env seq respSeq tsn streams) := by
  unfold ResetAsoc.handleStrResetRequestOut
  split_ifs
  · exact .of_same rfl rfl
  · exact .of_same rfl rfl
  · exact .of_same rfl rfl
  · exact .of_same rfl rfl
  · exact asks_answerOld s seq

theorem asks_handleStrResetAddStrm (env : ResetEnv) (s : ResetAsoc) (seq : ResetSeq)
    (n : BitVec 16) : Asks s (s.handleStrResetAddStrm env seq n) := by
  unfold ResetAsoc.handleStrResetAddStrm
  simp only
  split_ifs
  · exact .of_same rfl rfl
  · exact .of_same rfl rfl
  · exact asks_answerOld s seq

theorem asks_handleStrResetAddOutStrm (env : ResetEnv) (s : ResetAsoc) (seq : ResetSeq)
    (n : BitVec 16) : Asks s (s.handleStrResetAddOutStrm env seq n) := by
  unfold ResetAsoc.handleStrResetAddOutStrm
  split_ifs
  · exact .of_same rfl rfl
  · exact .of_same rfl rfl
  · split
    · rename_i t ht
      unfold ResetAsoc.sendStrResetReq at ht
      split_ifs at ht
      cases ht
      exact ⟨_, rfl, rfl⟩
    · exact .of_same rfl rfl
  · exact .of_same rfl rfl
  · exact asks_answerOld s seq

/-- What one parameter does to our requests. -/
theorem Tracked.handleParam_retires {env : ResetEnv} {s s' : ResetAsoc} {p : ResetParam}
    (h : s.Tracked) (hok : s.Trackable env p) (hs : s.handleParam env p = some s') :
    ∃ k new, Retires s [p] s' k new := by
  have hasks : ∀ t, some t = some s' → Asks s t → p.answerTo = none →
      ∃ k new, Retires s [p] s' k new := by
    rintro t ht ⟨new, hun, hout⟩ hnone
    obtain rfl := Option.some.inj ht
    refine ⟨0, new, .of_unanswered hun hout fun _ q hq => ?_⟩
    rw [List.mem_singleton.1 hq, hnone]
    simp
  cases p with
  | outRequest seq respSeq tsn streams =>
    obtain ⟨t, ht, rfl⟩ := Option.map_eq_some_iff.1 hs
    obtain ⟨new, hun, hout⟩ := asks_handleStrResetRequestOut env t seq respSeq tsn streams
    have hack : ∃ k, Retires s [.outRequest seq respSeq tsn streams] t k [] := by
      unfold implicitAck at ht
      split_ifs at ht with hthere
      · exact (h.response hok ht).2.2.2.2 _ rfl
      · obtain rfl := Option.some.inj ht
        refine ⟨0, .of_unanswered (List.append_nil _).symm rfl fun hne q hq hseq => hthere ?_⟩
        rw [List.mem_singleton.1 hq] at hseq
        refine ⟨?_, Option.some.inj hseq⟩
        rw [h.count]
        exact fun h0 => hne (List.length_eq_zero_iff.1 h0)
    obtain ⟨k, hk⟩ := hack
    refine ⟨k, new, ?_, hout.trans hk.strResetSeqOut, hk.answered, hk.oldest⟩
    rw [hun, hk.unanswered, List.append_nil]
  | inRequest seq streams => exact hasks _ hs (asks_handleStrResetRequestIn s seq streams) rfl
  | tsnRequest seq => exact hasks _ rfl (asks_handleStrResetRequestTsn hs) rfl
  | addOutStreams seq n => exact hasks _ hs (asks_handleStrResetAddStrm env s seq n) rfl
  | addInStreams seq n => exact hasks _ hs (asks_handleStrResetAddOutStrm env s seq n) rfl
  | response seq result =>
    obtain ⟨k, hk⟩ := (h.response hok hs).2.2.2.2 (.response seq result) rfl
    exact ⟨k, [], hk⟩
  | responseTsn seq result a b =>
    obtain ⟨k, hk⟩ := (h.response hok hs).2.2.2.2 (.responseTsn seq result a b) rfl
    exact ⟨k, [], hk⟩
  | unfit => exact hasks s hs (.of_same rfl rfl) rfl

/-- All the parameters that are looked at. -/
theorem Tracked.handleParams {env : ResetEnv} {s s' : ResetAsoc} {k : ℕ} {ps : List ResetParam}
    (h : s.Tracked) (hslots : s.Slots k) (hk : k + ps.length ≤ 2)
    (hok : Trace.Along (ResetAsoc.handleParam env) (fun s p => s.Trackable env p) s ps)
    (hs : Trace.run (ResetAsoc.handleParam env) s ps = some s') :
    s'.Tracked ∧ (∃ k new, Retires s ps s' k new) ∧ (ps.any (·.isRequest) = false →
      s'.building = s.building ∧ (s'.strReset = s.strReset ∨ s'.strReset = none)) := by
  induction ps generalizing s k with
  | nil =>
    have : s = s' := Option.some.inj hs
    subst this
    exact ⟨h, ⟨0, [], .of_unanswered (List.append_nil _).symm rfl (by simp)⟩, fun _ => ⟨rfl, .inl rfl⟩⟩
  | cons p ps ih =>
    obtain ⟨t, ht, hrest⟩ := Option.bind_eq_some_iff.1 hs
    simp only [List.length_cons] at hk
    obtain ⟨htr, hsl⟩ := h.handleParam hslots (by omega) hok.1 ht
    obtain ⟨n, new, hret⟩ := h.handleParam_retires hok.1 ht
    obtain ⟨hdone, ⟨n', new', hret'⟩, hresp⟩ := ih htr hsl (by omega) (hok.2 t ht) hrest
    refine ⟨hdone, ⟨_, _, hret.trans hret'⟩, fun hany => ?_⟩
    rw [List.any_cons, Bool.or_eq_false_iff] at hany
    obtain ⟨hb, hstr⟩ := strReset_of_responses h hok.1 hany.1 ht
    obtain ⟨hb', hstr'⟩ := hresp hany.2
    refine ⟨hb'.trans hb, ?_⟩
    rcases hstr' with hstr' | hstr'
    · exact hstr.imp hstr'.trans hstr'.trans
    · exact .inr hstr'

theorem upToTsn_prefix_self (ps : List ResetParam) : upToTsn ps <+: ps := by
  induction ps with
  | nil => exact List.nil_prefix
  | cons p ps ih =>
    cases p with
    | tsnRequest seq => exact List.prefix_append [ResetParam.tsnRequest seq] ps
    | unfit => exact List.nil_prefix
    | _ => exact List.cons_prefix_cons.2 ⟨rfl, ih⟩

theorem length_lookedAt (params : List ResetParam) : (lookedAt params).length ≤ 2 := by
  have htake : (params.take maxResetParams).length ≤ 2 := by
    rw [List.length_take]
    exact min_le_left _ _
  exact (upToTsn_prefix_self _).length_le.trans htake

theorem lookedAt_append_overlooked (params : List ResetParam) :
    lookedAt params ++ overlooked params = params := by
  have hpre : lookedAt params <+: params := (upToTsn_prefix_self _).trans (List.take_prefix _ _)
  unfold overlooked
  conv_rhs => rw [← List.take_append_drop (lookedAt params).length params,
    ← List.prefix_iff_eq_take.1 hpre]

/-- No answer to our oldest request is among the parameters. -/
def NoAnswer (s : ResetAsoc) (params : List ResetParam) : Prop :=
  s.unanswered ≠ [] → ∀ p ∈ params, p.answerTo ≠ some s.strResetSeqOut

theorem Tracked.overlook {s : ResetAsoc} (h : s.Tracked) {params : List ResetParam}
    (hno : s.NoAnswer params) : s.overlook params = s := by
  have hkeep : ∀ seqs : List (Option ResetSeq),
      (s.unanswered ≠ [] → ∀ seq ∈ seqs, seq ≠ some s.strResetSeqOut) →
      seqs.foldl ResetAsoc.answered s.unanswered = s.unanswered := by
    intro seqs hseqs
    induction seqs with
    | nil => rfl
    | cons seq seqs ih =>
      have hone : ResetAsoc.answered s.unanswered seq = s.unanswered := by
        unfold ResetAsoc.answered
        cases hun : s.unanswered with
        | nil => exact ite_self []
        | cons req rest =>
          have hne := hseqs (by rw [hun]; simp) seq List.mem_cons_self
          rw [if_neg]
          rw [List.head?_cons, Option.map_some, h.seqWord_head hun]
          exact fun heq => hne heq.symm
      rw [List.foldl_cons, hone]
      exact ih fun hne q hq => hseqs hne q (List.mem_cons_of_mem _ hq)
  unfold ResetAsoc.overlook
  rw [hkeep]
  intro hne seq hseq
  obtain ⟨p, hp, rfl⟩ := List.mem_map.1 hseq
  exact hno hne p hp

/-- The condition on a chunk of the peer: its parameters are trackable where they are handled, and
no answer to our oldest request is lost behind them, or with the whole chunk. -/
def Receivable (env : ResetEnv) (s : ResetAsoc) (params : List ResetParam) : Prop :=
  if env.chunkOk then
    Trace.Along (handleParam env) (fun s p => s.Trackable env p) s.openChunk (lookedAt params) ∧
      ∀ t ∈ Trace.run (handleParam env) s.openChunk (lookedAt params), t.NoAnswer (overlooked params)
  else s.NoAnswer params

instance decidableNoAnswer (s : ResetAsoc) (params : List ResetParam) :
    Decidable (s.NoAnswer params) :=
  inferInstanceAs (Decidable (_ → _))

instance decidableReceivable (env : ResetEnv) (s : ResetAsoc) (params : List ResetParam) :
    Decidable (s.Receivable env params) :=
  inferInstanceAs (Decidable (if env.chunkOk then
    Trace.Along (handleParam env) (fun s p => s.Trackable env p) s.openChunk (lookedAt params) ∧
      ∀ t ∈ Trace.run (handleParam env) s.openChunk (lookedAt params), t.NoAnswer (overlooked params)
    else s.NoAnswer params))

theorem Tracked.openChunk {s : ResetAsoc} (h : s.Tracked) (hb : s.building = none) :
    s.openChunk.Tracked ∧ s.openChunk.Slots 0 := by
  have hchunks : s.openChunk.chunks = s.chunks ++ [{ id := s.nextChunk, params := [] }] := by
    rw [chunks, chunks, hb]
    simp [ResetAsoc.openChunk]
  refine ⟨⟨h.requests, h.count, h.numbers, h.none_iff, ?_, ?_, ?_, h.sound⟩,
    _, rfl, .inl le_rfl⟩
  · intro id hid
    obtain ⟨chunk, hc, hrest⟩ := h.kept id hid
    exact ⟨chunk, hchunks ▸ List.mem_append_left _ hc, hrest⟩
  · rw [hchunks, List.map_append, List.nodup_append]
    refine ⟨h.nodup, List.nodup_singleton _, ?_⟩
    intro a ha b hb' hab
    obtain ⟨chunk, hc, rfl⟩ := List.mem_map.1 ha
    have hbid : b = s.nextChunk := by simpa using hb'
    exact (h.fresh chunk hc).ne (hab.trans hbid)
  · intro chunk hc
    rw [hchunks, List.mem_append, List.mem_singleton] at hc
    rcases hc with hc | rfl
    · exact (h.fresh chunk hc).trans (Nat.lt_succ_self _)
    · exact Nat.lt_succ_self _

theorem Tracked.closeChunk {s : ResetAsoc} (h : s.Tracked) {answers : Bool}
    (hno : answers = false → ∀ chunk ∈ s.building, s.strReset ≠ some chunk.id) :
    (s.closeChunk answers).Tracked := by
  have hsub : (s.closeChunk answers).chunks.Sublist s.chunks := by
    unfold chunks ResetAsoc.closeChunk
    cases answers <;> simp
  refine ⟨h.requests, h.count, h.numbers, h.none_iff, ?_, h.nodup.sublist (hsub.map _),
    fun chunk hc => h.fresh chunk (hsub.mem hc), h.sound⟩
  intro id hid
  obtain ⟨chunk, hc, hcid, hfind⟩ := h.kept id hid
  refine ⟨chunk, ?_, hcid, hfind⟩
  unfold chunks ResetAsoc.closeChunk
  cases answers with
  | true => simpa [chunks] using hc
  | false =>
    rcases List.mem_append.1 hc with hc | hc
    · simpa using hc
    · rw [Option.mem_toList] at hc
      exact absurd (by rw [hcid]; exact hid) (hno rfl chunk hc)

/-- A STREAM-RESET chunk as a whole. -/
theorem Tracked.handleStreamReset {env : ResetEnv} {s s' : ResetAsoc} {params : List ResetParam}
    (h : s.Tracked) (hb : s.building = none) (hok : s.Receivable env params)
    (hs : s.handleStreamReset env params = some s') :
    s'.Tracked ∧ s'.building = none ∧ ∃ k new, Retires s params s' k new := by
  unfold Receivable at hok
  unfold ResetAsoc.handleStreamReset at hs
  split_ifs at hs with hchunk
  · rw [if_neg (by simpa using hchunk)] at hok
    rw [h.overlook hok] at hs
    obtain rfl := Option.some.inj hs
    exact ⟨h, hb, 0, [], .of_unanswered (List.append_nil _).symm rfl hok⟩
  · rw [if_pos (by simpa using hchunk)] at hok
    obtain ⟨t, ht, rfl⟩ := Option.map_eq_some_iff.1 hs
    obtain ⟨hopen, hslots⟩ := h.openChunk hb
    obtain ⟨htr, ⟨k, new, hret⟩, hresp⟩ := hopen.handleParams hslots
      (by have := length_lookedAt params; omega) hok.1 ht
    have hlost := hok.2 t ht
    have hall := hret.trans (.of_unanswered (List.append_nil _).symm rfl hlost : Retires t _ t 0 [])
    rw [lookedAt_append_overlooked] at hall
    rw [htr.overlook hlost]
    refine ⟨htr.closeChunk fun hany chunk hc hid => ?_, rfl, _, _, hall.1, hall.2, hall.3, hall.4⟩
    obtain ⟨hb', hstr⟩ := hresp hany
    rw [hb'] at hc
    have hcid : chunk.id = s.nextChunk := by
      have : ({ id := s.nextChunk, params := [] } : ResetChunk) = chunk := Option.some.inj hc
      rw [← this]
    rw [hid] at hstr
    rcases hstr with hstr | hstr
    · obtain ⟨old, hold, holdid, -⟩ := h.kept chunk.id hstr.symm
      have := h.fresh old hold
      omega
    · cases hstr

end ResetAsoc

/-- The condition on an event, for our own requests. -/
def ResetEvent.Trackable (s : ResetAsoc) : ResetEvent → Prop
  | .receive env params => s.Receivable env params
  | .send env a => s.streamResetOutstanding = 0 → env.sendChunkOk = true →
    (a.sendTsnReq && (a.sendOutReq || a.sendInReq)) = false →
    a.list.length ≤ resetEntriesMax → s.SendFits env a
  | _ => True

namespace ResetAsoc

instance SendFits.decidable (env : ResetEnv) (s : ResetAsoc) (a : SendArgs) :
    Decidable (s.SendFits env a) := by
  unfold SendFits
  infer_instance

theorem sendFits_of_send {env : ResetEnv} {s s' : ResetAsoc} {a : SendArgs}
    (hok : (ResetEvent.send env a).Trackable s)
    (hs : s.sendStrResetReq env a.list a.sendOutReq a.sendInReq a.sendTsnReq a.add a.peerAsked =
      .ok s') : s.SendFits env a := by
  unfold ResetAsoc.sendStrResetReq at hs
  split_ifs at hs with h0 h1 h2 h3 h4
  exact hok (not_not.1 h0) (by simpa using h4) (by simpa using h2) (not_lt.1 h3)

theorem Tracked.resetStep {s s' : ResetAsoc} {e : ResetEvent} (h : s.Tracked)
    (hb : s.building = none) (hok : e.Trackable s) (hs : Sctp.resetStep s e = some s') :
    s'.Tracked ∧ s'.building = none := by
  cases e with
  | receive env params =>
    obtain ⟨htr, hbuilt, -⟩ := h.handleStreamReset hb hok hs
    exact ⟨htr, hbuilt⟩
  | send env a =>
    simp only [Sctp.resetStep] at hs
    split at hs
    · rename_i t ht
      obtain ⟨htr, -, hbt⟩ := h.sendStrResetReq (sendFits_of_send hok ht) ht
      exact Option.some.inj hs ▸ ⟨htr, hbt.trans hb⟩
    · exact Option.some.inj hs ▸ ⟨h, hb⟩
  | cleanUpCtl =>
    refine Option.some.inj hs ▸ ⟨?_, hb⟩
    have hsub : s.cleanUpCtl.chunks.Sublist s.chunks :=
      List.Sublist.append_right List.filter_sublist _
    refine ⟨h.requests, h.count, h.numbers, h.none_iff, ?_, h.nodup.sublist (hsub.map _),
      fun chunk hc => h.fresh chunk (hsub.mem hc), h.sound⟩
    intro id hid
    obtain ⟨chunk, hc, hcid, hfind⟩ := h.kept id hid
    refine ⟨chunk, ?_, hcid, hfind⟩
    rcases List.mem_append.1 hc with hc | hc
    · refine List.mem_append_left _ (List.mem_filter.2 ⟨hc, ?_⟩)
      have hid' : s.strReset = some id := hid
      simp [hid', hcid]
    · exact List.mem_append_right _ hc
  | strresetTimer =>
    have hsame : s.strresetTimer = s := by
      unfold ResetAsoc.strresetTimer
      split_ifs with h0
      · rfl
      · cases hun : s.unanswered with
        | nil => exact absurd (h.count.trans (by rw [hun]; rfl)) h0
        | cons req rest =>
          have hne : s.strReset ≠ s.building.map (·.id) := by
            rw [hb, Option.map_none]
            exact fun hn => by rw [h.none_iff.1 hn] at hun; cases hun
          rw [h.findStreamReset hun hne rfl rfl rfl]
    exact Option.some.inj hs ▸ (by rw [hsame]; exact ⟨h, hb⟩)
  | elsewhere t =>
    exact Option.some.inj hs ▸ ⟨h.sameRequests ⟨rfl, rfl, rfl, rfl, rfl, rfl, rfl, rfl⟩, hb⟩

/-- The requests of ours that were not answered are tracked exactly, as far as `okReceive` and
`okSend` go. -/
structure OutstandingExact (okReceive : ResetEnv → List ResetParam → Prop)
    (okSend : ResetEnv → SendArgs → Prop) (s : ResetAsoc) : Prop where
  count : s.streamResetOutstanding = s.unanswered.length
  numbers : ∀ i r, s.unanswered[i]? = some r → r.seqWord = s.strResetSeqOut + BitVec.ofNat 32 i
  none_iff : s.strReset = none ↔ s.streamResetOutstanding = 0
  kept : ∀ id, s.strReset = some id →
    ∃ chunk ∈ s.controlSendQueue, chunk.id = id ∧ ∀ r ∈ s.unanswered, r ∈ chunk.params
  /-- Wherever in the chunk the answers are. -/
  retires : ∀ env params s', okReceive env params →
    Sctp.resetStep s (.receive env params) = some s' →
    s'.streamResetOutstanding = s'.unanswered.length ∧ ∃ k new, Retires s params s' k new
  queues : ∀ env a s', okSend env a →
    s.sendStrResetReq env a.list a.sendOutReq a.sendInReq a.sendTsnReq a.add a.peerAsked = .ok s' →
    ∃ chunk ∈ s'.controlSendQueue, s'.strReset = some chunk.id ∧
      ∀ r ∈ numbered s.strResetSeqOut (s.askedRequests a), r ∈ chunk.params

theorem Tracked.exists_kept {s : ResetAsoc} (h : s.Tracked) (hb : s.building = none) {id : ℕ}
    (hid : s.strReset = some id) :
    ∃ chunk ∈ s.controlSendQueue, chunk.id = id ∧ ∀ r ∈ s.unanswered, r ∈ chunk.params := by
  obtain ⟨chunk, hc, hcid, pre, post, htake, -⟩ := h.kept id hid
  rw [chunks, hb] at hc
  refine ⟨chunk, by simpa using hc, hcid, fun r hr => ?_⟩
  refine List.mem_of_mem_take (i := 2) ?_
  rw [htake]
  exact List.mem_append_left _ (List.mem_append_right _ hr)

theorem Tracked.exact {s : ResetAsoc} (h : s.Tracked) (hb : s.building = none) :
    s.OutstandingExact (fun env params => s.Receivable env params)
      (fun env a => s.SendFits env a) := by
  refine ⟨h.count, h.numbers, ?_, fun id hid => h.exists_kept hb hid, ?_, ?_⟩
  · rw [h.none_iff, h.count, List.length_eq_zero_iff]
  · intro env params s' hok hs
    obtain ⟨htr, -, hret⟩ := h.handleStreamReset hb hok hs
    exact ⟨htr.count, hret⟩
  · intro env a s' hfits hs
    obtain ⟨htr, hun, hbs⟩ := h.sendStrResetReq hfits hs
    obtain ⟨id, hid⟩ : ∃ id, s'.strReset = some id := by
      unfold ResetAsoc.sendStrResetReq at hs
      split_ifs at hs
      cases hs
      exact ⟨_, rfl⟩
    obtain ⟨chunk, hc, hcid, hmem⟩ := htr.exists_kept (hbs.trans hb) hid
    exact ⟨chunk, hc, hid.trans (congrArg some hcid.symm), hun ▸ hmem⟩

structure Idle (s : ResetAsoc) : Prop where
  streamResetOutstanding : s.streamResetOutstanding = 0
  strReset : s.strReset = none
  controlSendQueue : s.controlSendQueue = []
  building : s.building = none
  unanswered : s.unanswered = []
  freedChunk : s.freedChunk = false

theorem Idle.tracked {s : ResetAsoc} (h : s.Idle) : s.Tracked := by
  have hchunks : s.chunks = [] := by
    rw [chunks, h.controlSendQueue, h.building]
    rfl
  refine ⟨?_, ?_, ?_, ?_, ?_, ?_, ?_, h.freedChunk⟩
  · rw [h.unanswered]; simp
  · rw [h.unanswered]; exact h.streamResetOutstanding
  · rw [h.unanswered]; simp
  · exact ⟨fun _ => h.unanswered, fun _ => h.strReset⟩
  · rw [h.strReset]; simp
  · rw [hchunks]; exact List.nodup_nil
  · rw [hchunks]; simp

end ResetAsoc

instance ResetEvent.decidableTrackable (s : ResetAsoc) :
    (e : ResetEvent) → Decidable (e.Trackable s)
  | .receive env params => inferInstanceAs (Decidable (s.Receivable env params))
  | .send .. => inferInstanceAs (Decidable (_ → _))
  | .cleanUpCtl | .strresetTimer | .elsewhere _ => .isTrue trivial

def askTsnReset (result : BitVec 32) : List ResetEvent :=
  [.send (resetEnv true)
      { list := [], sendOutReq := false, sendInReq := false, sendTsnReq := true
        add := { out := false, inc := false, addingO := 0, addingI := 0 }, peerAsked := false },
    .receive (resetEnv true) [.responseTsn 1000 result 3000 1001]]

theorem freshReset_idle : freshReset.Idle := ⟨rfl, rfl, rfl, rfl, rfl, rfl⟩

end Sctp
