import Sctp.StreamReset.Model

/-! Requests of the peer are carried out once, and a request that comes again gets the answer of
the first time. -/
namespace Sctp

/-- The answer to a request with this result and, for a TSN reset, these TSNs. -/
def ResetParam.reply (req : ResetParam) (action : BitVec 32) (tsns : Tsn × Tsn) : ResetParam :=
  match req with
  | .tsnRequest seq => .responseTsn seq action tsns.1 tsns.2
  | req => .response req.seqWord action

namespace ResetAsoc

/-- The registers that answers come from, the requests they are for, and whether the chunk with them
is still there. -/
structure SameMemory (s s' : ResetAsoc) : Prop where
  strResetSeqIn : s'.strResetSeqIn = s.strResetSeqIn
  lastResetAction : s'.lastResetAction = s.lastResetAction
  lastSendingSeq : s'.lastSendingSeq = s.lastSendingSeq
  lastBaseTsnsent : s'.lastBaseTsnsent = s.lastBaseTsnsent
  history : s'.history = s.history
  freedChunk : s'.freedChunk = s.freedChunk

theorem SameMemory.refl (s : ResetAsoc) : SameMemory s s := ⟨rfl, rfl, rfl, rfl, rfl, rfl⟩

theorem SameMemory.trans {s t u : ResetAsoc} (h : SameMemory s t) (h' : SameMemory t u) :
    SameMemory s u :=
  ⟨h'.1.trans h.1, h'.2.trans h.2, h'.3.trans h.3, h'.4.trans h.4, h'.5.trans h.5, h'.6.trans h.6⟩

/-- The last request that was carried out was a TSN reset, and it was performed. -/
def lastIsTsnReset (s : ResetAsoc) : Bool :=
  match s.history.head? with
  | some (.tsnRequest _, .responseTsn _ result _ _) => result == resultPerformed
  | _ => false

def lastTsns (s : ResetAsoc) : Tsn × Tsn := (s.lastSendingSeq.1, s.lastBaseTsnsent.1)

/-- The TSNs behind those of the last answer. -/
def formerTsns (s : ResetAsoc) : Tsn × Tsn := (s.lastSendingSeq.2, s.lastBaseTsnsent.2)

/-- The registers hold the answers to the last two requests. The TSNs of the second one have only
moved back when the last one was a TSN reset. -/
structure Remembers (s : ResetAsoc) : Prop where
  sound : s.freedChunk = false
  last : ∀ req resp, s.history[0]? = some (req, resp) →
    req.isRequest = true ∧ req.seqWord = s.strResetSeqIn - 1 ∧
      resp = req.reply s.lastResetAction.1 s.lastTsns
  former : ∀ req resp, s.history[1]? = some (req, resp) →
    req.isRequest = true ∧ req.seqWord = s.strResetSeqIn - 2 ∧
      resp = req.reply s.lastResetAction.2 (if s.lastIsTsnReset then s.formerTsns else s.lastTsns)

theorem Remembers.sameMemory {s s' : ResetAsoc} (h : s.Remembers) (hs : SameMemory s s') :
    s'.Remembers := by
  have hreset : s'.lastIsTsnReset = s.lastIsTsnReset := by
    rw [lastIsTsnReset, hs.history, lastIsTsnReset]
  have hlast : s'.lastTsns = s.lastTsns := by
    rw [lastTsns, hs.lastSendingSeq, hs.lastBaseTsnsent, lastTsns]
  have hformer : s'.formerTsns = s.formerTsns := by
    rw [formerTsns, hs.lastSendingSeq, hs.lastBaseTsnsent, formerTsns]
  refine ⟨hs.freedChunk.trans h.sound, fun req resp hk => ?_, fun req resp hk => ?_⟩
  · rw [hs.strResetSeqIn, hs.lastResetAction, hlast]
    exact h.last req resp (hs.history ▸ hk)
  · rw [hs.strResetSeqIn, hs.lastResetAction, hreset, hlast, hformer]
    exact h.former req resp (hs.history ▸ hk)

/-- A request was carried out: it was the next one, it is answered, and the registers moved. -/
structure Executed (s : ResetAsoc) (req : ResetParam) (s' : ResetAsoc) : Prop where
  isRequest : req.isRequest = true
  seqWord : req.seqWord = s.strResetSeqIn
  strResetSeqIn : s'.strResetSeqIn = s.strResetSeqIn + 1
  formerAction : s'.lastResetAction.2 = s.lastResetAction.1
  history : s'.history = (req, req.reply s'.lastResetAction.1 s'.lastTsns) :: s.history
  tsns : (if s'.lastIsTsnReset then s'.formerTsns else s'.lastTsns) = s.lastTsns
  freedChunk : s'.freedChunk = s.freedChunk

theorem Remembers.executed {s s' : ResetAsoc} {req : ResetParam} (h : s.Remembers)
    (hs : Executed s req s') : s'.Remembers := by
  refine ⟨hs.freedChunk.trans h.sound, fun q r hk => ?_, fun q r hk => ?_⟩
  · rw [hs.history] at hk
    obtain ⟨rfl, rfl⟩ := Prod.mk.inj (Option.some.inj hk)
    refine ⟨hs.isRequest, ?_, rfl⟩
    rw [hs.seqWord, hs.strResetSeqIn]
    bv_omega
  · rw [hs.history] at hk
    obtain ⟨hq, hseq, hr⟩ := h.last q r hk
    refine ⟨hq, ?_, ?_⟩
    · rw [hseq, hs.strResetSeqIn]
      bv_omega
    · rw [hs.formerAction, hs.tsns, hr]

theorem sameMemory_resetOutStreams (s : ResetAsoc) (streams : List StreamNo) :
    SameMemory s (s.resetOutStreams streams) := ⟨rfl, rfl, rfl, rfl, rfl, rfl⟩

theorem sameMemory_resetInStream (s : ResetAsoc) (streams : List StreamNo) :
    SameMemory s (s.resetInStream streams) := ⟨rfl, rfl, rfl, rfl, rfl, rfl⟩

theorem sameMemory_addParam (s : ResetAsoc) (p : ResetParam) : SameMemory s (s.addParam p) :=
  ⟨rfl, rfl, rfl, rfl, rfl, rfl⟩

/-- The chunk with our requests is not the one that is being built. -/
def ChunkQueued (s : ResetAsoc) : Prop := s.strReset ≠ s.building.map (·.id)

theorem ChunkQueued.cleanUpStreamReset {s : ResetAsoc} (h : s.ChunkQueued) {id : ℕ}
    (hid : s.strReset = some id) : s.cleanUpStreamReset =
      { s with controlSendQueue := s.controlSendQueue.filter (·.id != id), strReset := none } := by
  have hother : ∀ chunk ∈ s.building, chunk.id ≠ id := by
    rintro chunk hc rfl
    apply h
    rw [hid, Option.mem_def.1 hc, Option.map_some]
  have hkept : s.building.filter (·.id != id) = s.building ∧
      (s.freedChunk || s.building.any (·.id == id)) = s.freedChunk := by
    cases hb : s.building with
    | none => exact ⟨rfl, Bool.or_false _⟩
    | some chunk =>
      have hne := hother chunk hb
      simp [Option.filter, hne]
  rw [ResetAsoc.cleanUpStreamReset, hid]
  dsimp only
  rw [hkept.1, hkept.2]

theorem ChunkQueued.sameMemory_settle {s : ResetAsoc} (h : s.ChunkQueued) :
    SameMemory s s.settle := by
  unfold settle
  split_ifs
  · cases hid : s.strReset with
    | none =>
      rw [ResetAsoc.cleanUpStreamReset, hid]
      exact .refl s
    | some id =>
      rw [h.cleanUpStreamReset hid]
      exact ⟨rfl, rfl, rfl, rfl, rfl, rfl⟩
  · exact .refl s

theorem sameMemory_findStreamReset (s : ResetAsoc) (seq : ResetSeq) :
    SameMemory s (s.findStreamReset seq).1 := by
  unfold findStreamReset
  split_ifs
  · exact ⟨rfl, rfl, rfl, rfl, rfl, rfl⟩
  · split <;> exact .refl s

theorem sameMemory_answerRequest {env : ResetEnv} {s s' : ResetAsoc} {req : ResetParam}
    {action : BitVec 32} {tsns : Option (Tsn × Tsn)} (hq : s.ChunkQueued)
    (h : s.answerRequest env req action tsns = some s') : SameMemory s s' := by
  have hsettle : ∀ t : ResetAsoc, SameMemory s t → t.strReset = s.strReset →
      t.building = s.building → some t.settle = some s' → SameMemory s s' := by
    intro t ht hstr hb hs
    have hqt : t.ChunkQueued := by
      rw [ChunkQueued, hstr, hb]
      exact hq
    exact Option.some.inj hs ▸ ht.trans hqt.sameMemory_settle
  cases req with
  | outRequest seq respSeq tsn streams =>
    refine hsettle _ ?_ ?_ ?_ h
    · split_ifs <;> exact ⟨rfl, rfl, rfl, rfl, rfl, rfl⟩
    · split_ifs <;> rfl
    · split_ifs <;> rfl
  | inRequest seq streams =>
    refine hsettle s.retire ?_ rfl rfl h
    exact ⟨rfl, rfl, rfl, rfl, rfl, rfl⟩
  | tsnRequest seq =>
    simp only [answerRequest] at h
    split at h
    · exact Option.some.inj h ▸ .refl s
    · split_ifs at h
      · obtain ⟨map, -, hmap⟩ := Option.map_eq_some_iff.1 h
        refine hsettle _ ?_ ?_ ?_ (congrArg some hmap)
        · exact ⟨rfl, rfl, rfl, rfl, rfl, rfl⟩
        · rfl
        · rfl
      · exact hsettle s (.refl s) rfl rfl h
  | addOutStreams seq n =>
    refine hsettle _ ?_ ?_ ?_ h
    · split_ifs <;> exact ⟨rfl, rfl, rfl, rfl, rfl, rfl⟩
    · split_ifs <;> rfl
    · split_ifs <;> rfl
  | addInStreams seq n =>
    refine hsettle s.retire ?_ rfl rfl h
    exact ⟨rfl, rfl, rfl, rfl, rfl, rfl⟩
  | response seq result => exact hsettle s (.refl s) rfl rfl h
  | responseTsn seq result sendersNextTsn receiversNextTsn => exact hsettle s (.refl s) rfl rfl h
  | unfit => exact hsettle s (.refl s) rfl rfl h

/-- The request that is answered, if there is one, is not in the chunk that is being built. -/
def AnswerQueued (s : ResetAsoc) (seq : ResetSeq) : Prop :=
  s.streamResetOutstanding ≠ 0 → seq = s.strResetSeqOut → s.ChunkQueued

theorem findStreamReset_kept (s : ResetAsoc) (seq : ResetSeq) :
    (s.findStreamReset seq).1.strReset = s.strReset ∧
      (s.findStreamReset seq).1.building = s.building := by
  unfold findStreamReset
  split_ifs
  · exact ⟨rfl, rfl⟩
  · split <;> exact ⟨rfl, rfl⟩

theorem sameMemory_handleStreamResetResponse {env : ResetEnv} {s s' : ResetAsoc} {seq : ResetSeq}
    {action : BitVec 32} {tsns : Option (Tsn × Tsn)} (hq : s.AnswerQueued seq)
    (h : s.handleStreamResetResponse env seq action tsns = some s') : SameMemory s s' := by
  have hnote : SameMemory s (s.noteAnswer seq) := ⟨rfl, rfl, rfl, rfl, rfl, rfl⟩
  unfold handleStreamResetResponse at h
  simp only at h
  split_ifs at h with h0 hseq
  · exact Option.some.inj h ▸ hnote
  · have hfind := sameMemory_findStreamReset (s.noteAnswer seq) seq
    split at h
    · rename_i t heq
      rw [heq] at hfind
      exact Option.some.inj h ▸ hnote.trans hfind
    · rename_i t req heq
      obtain ⟨hstr, hb⟩ := findStreamReset_kept (s.noteAnswer seq) seq
      rw [heq] at hfind hstr hb
      have hqt : { t with strResetSeqOut := t.strResetSeqOut + 1 }.ChunkQueued := by
        have hqs : s.ChunkQueued := hq h0 hseq
        change t.strReset ≠ t.building.map (·.id)
        rw [hstr, hb]
        exact hqs
      refine (hnote.trans hfind).trans (.trans ?_ (sameMemory_answerRequest hqt h))
      exact ⟨rfl, rfl, rfl, rfl, rfl, rfl⟩
  · exact Option.some.inj h ▸ hnote

theorem sameMemory_implicitAck {env : ResetEnv} {s s' : ResetAsoc} {respSeq : ResetSeq}
    (hq : s.AnswerQueued respSeq) (h : s.implicitAck env respSeq = some s') : SameMemory s s' := by
  unfold implicitAck at h
  split_ifs at h
  · exact sameMemory_handleStreamResetResponse hq h
  · exact Option.some.inj h ▸ .refl s

theorem sameMemory_sendStrResetReq {env : ResetEnv} {s s' : ResetAsoc} {list : List StreamNo}
    {sendOutReq sendInReq sendTsnReq : Bool} {add : AddStreams} {peerAsked : Bool}
    (h : s.sendStrResetReq env list sendOutReq sendInReq sendTsnReq add peerAsked = .ok s') :
    SameMemory s s' := by
  unfold sendStrResetReq at h
  split_ifs at h
  cases h
  exact ⟨rfl, rfl, rfl, rfl, rfl, rfl⟩

/-- A request other than a TSN reset that is carried out: its action is remembered, something is
done, and it is answered. -/
theorem executed_answer {s t : ResetAsoc} (req : ResetParam) {action : BitVec 32}
    (hst : SameMemory (s.noteAction action) t) (hreq : req.isRequest = true)
    (htsn : ∀ seq, req ≠ .tsnRequest seq) (hseq : req.seqWord = s.strResetSeqIn) :
    Executed s req (t.answer req (.response req.seqWord action)) := by
  have hreply : ∀ tsns, req.reply action tsns = .response req.seqWord action := by
    intro tsns
    cases req with
    | tsnRequest seq => exact absurd rfl (htsn seq)
    | _ => rfl
  have hlast : (t.answer req (.response req.seqWord action)).lastIsTsnReset = false := by
    cases req with
    | tsnRequest seq => exact absurd rfl (htsn seq)
    | _ => rfl
  have haction : (t.answer req (.response req.seqWord action)).lastResetAction =
      (action, s.lastResetAction.1) := hst.lastResetAction
  refine ⟨hreq, hseq, congrArg (· + 1) hst.strResetSeqIn, congrArg Prod.snd haction, ?_, ?_,
    hst.freedChunk⟩
  · rw [haction, hreply]
    exact congrArg (List.cons _) hst.history
  · rw [hlast]
    exact congrArg₂ (fun a b : Tsn × Tsn => (a.1, b.1)) hst.lastSendingSeq hst.lastBaseTsnsent

/-- A request that is not the next one is answered, and no more. -/
theorem answerOld_eq (s : ResetAsoc) (seq : ResetSeq) : ∃ r, s.answerOld seq = s.addParam r := by
  unfold answerOld
  split_ifs <;> exact ⟨_, rfl⟩

theorem handleStrResetRequestIn_executed {s : ResetAsoc} {seq : ResetSeq}
    {streams : List StreamNo} (h : s.strResetSeqIn = seq) :
    Executed s (.inRequest seq streams) (s.handleStrResetRequestIn seq streams) := by
  unfold handleStrResetRequestIn
  rw [if_pos h]
  split_ifs
  · exact executed_answer (.inRequest seq streams) (.refl _) rfl (by simp) h.symm
  · refine executed_answer (.inRequest seq streams) ?_ rfl (by simp) h.symm
    exact ⟨rfl, rfl, rfl, rfl, rfl, rfl⟩
  · exact executed_answer (.inRequest seq streams) (.refl _) rfl (by simp) h.symm

theorem handleStrResetRequestTsn_executed {env : ResetEnv} {s s' : ResetAsoc} {seq : ResetSeq}
    (h : s.strResetSeqIn = seq) (hs : s.handleStrResetRequestTsn env seq = some s') :
    Executed s (.tsnRequest seq) s' := by
  unfold handleStrResetRequestTsn at hs
  rw [if_pos h] at hs
  split_ifs at hs
  · have := Option.some.inj hs
    subst this
    exact ⟨rfl, h.symm, rfl, rfl, rfl, rfl, rfl⟩
  · obtain ⟨t, ht, rfl⟩ := Option.map_eq_some_iff.1 hs
    obtain ⟨map, -, rfl⟩ := Option.map_eq_some_iff.1 ht
    exact ⟨rfl, h.symm, rfl, rfl, rfl, rfl, rfl⟩

theorem handleStrResetAddStrm_executed {env : ResetEnv} {s : ResetAsoc} {seq : ResetSeq}
    {n : BitVec 16} (h : s.strResetSeqIn = seq) :
    Executed s (.addOutStreams seq n) (s.handleStrResetAddStrm env seq n) := by
  unfold handleStrResetAddStrm
  rw [if_pos h]
  split_ifs
  · exact executed_answer (.addOutStreams seq n) (.refl _) rfl (by simp) h.symm
  · refine executed_answer (.addOutStreams seq n) ?_ rfl (by simp) h.symm
    exact ⟨rfl, rfl, rfl, rfl, rfl, rfl⟩

theorem handleStrResetAddOutStrm_executed {env : ResetEnv} {s : ResetAsoc} {seq : ResetSeq}
    {n : BitVec 16} (h : s.strResetSeqIn = seq) :
    Executed s (.addInStreams seq n) (s.handleStrResetAddOutStrm env seq n) := by
  have hsame : ∀ action, Executed s (.addInStreams seq n)
      ((s.noteAction action).answer (.addInStreams seq n) (.response seq action)) := fun action =>
    executed_answer (.addInStreams seq n) (.refl _) rfl (by simp) h.symm
  unfold handleStrResetAddOutStrm
  rw [if_pos h]
  split_ifs
  · exact hsame _
  · exact hsame _
  · split
    · rename_i t ht
      have hsent := sameMemory_sendStrResetReq ht
      refine executed_answer (.addInStreams seq n) ?_ rfl (by simp) h.symm
      exact ⟨hsent.1, congrArg (fun a => (resultPerformed, a.1)) hsent.2, hsent.3, hsent.4, hsent.5,
        hsent.6⟩
    · exact hsame _
  · exact hsame _

/-- The request finds the memory it needs, should it have to wait for its TSN. -/
def ListAtHand (env : ResetEnv) (s : ResetAsoc) (tsn : Tsn) (streams : List StreamNo) : Prop :=
  s.enableResetStream = false ∨ chunkBufferSize < 16 + 2 * streams.length ∨
    tsnGe s.cumulativeTsn tsn = true ∨ env.listOk = true

theorem handleStrResetRequestOut_executed {env : ResetEnv} {s : ResetAsoc}
    {seq respSeq : ResetSeq} {tsn : Tsn} {streams : List StreamNo} (h : s.strResetSeqIn = seq)
    (hlist : s.ListAtHand env tsn streams) :
    Executed s (.outRequest seq respSeq tsn streams)
      (s.handleStrResetRequestOut env seq respSeq tsn streams) := by
  unfold handleStrResetRequestOut
  rw [if_pos h]
  split_ifs with hden hge hok
  · exact executed_answer (.outRequest seq respSeq tsn streams) (.refl _) rfl (by simp) h.symm
  · refine executed_answer (.outRequest seq respSeq tsn streams) ?_ rfl (by simp) h.symm
    exact ⟨rfl, rfl, rfl, rfl, rfl, rfl⟩
  · simp only [Bool.or_eq_true, Bool.not_eq_true', decide_eq_true_eq, not_or] at hden hok
    rcases hlist with hl | hl | hl | hl
    · exact absurd hl hden.1
    · exact absurd hl hden.2
    · exact absurd hl hge
    · rw [hl] at hok
      cases hok
  · refine executed_answer (.outRequest seq respSeq tsn streams) ?_ rfl (by simp) h.symm
    exact ⟨rfl, rfl, rfl, rfl, rfl, rfl⟩

/-- A new OUT request finds memory, an old one is no response to a request of ours, a TSN request
comes again behind another request only when that was a TSN reset too, and no response is to a
request that is only being put into a chunk. -/
def Regular (env : ResetEnv) (s : ResetAsoc) : ResetParam → Prop
  | .outRequest seq respSeq tsn streams =>
    if s.strResetSeqIn = seq then s.ListAtHand env tsn streams ∧ s.AnswerQueued respSeq
    else ¬ (s.streamResetOutstanding ≠ 0 ∧ respSeq = s.strResetSeqOut)
  | .response seq _ => s.AnswerQueued seq
  | .responseTsn seq _ _ _ => s.AnswerQueued seq
  | .tsnRequest seq => s.history[1]?.map Prod.fst = some (.tsnRequest seq) →
    s.lastIsTsnReset = true ∨ s.formerTsns = s.lastTsns
  | _ => True

instance decidableRegular (env : ResetEnv) (s : ResetAsoc) (p : ResetParam) :
    Decidable (s.Regular env p) := by
  unfold Regular ListAtHand AnswerQueued ChunkQueued
  split <;> infer_instance

/-- The chunk with the answers is there, requests are carried out once, and the last two get the
same answer again and change nothing when they come again, as far as `ok` goes. -/
structure Stable (ok : ResetParam → Prop) (env : ResetEnv) (s : ResetAsoc) : Prop where
  sound : s.freedChunk = false
  once : ∀ p, p.isRequest = true → ok p → ∀ s', s.handleParam env p = some s' →
    s'.freedChunk = false ∧
      (p.seqWord = s.strResetSeqIn ∧ s'.strResetSeqIn = s.strResetSeqIn + 1 ∨
        p.seqWord ≠ s.strResetSeqIn ∧ ∃ r, s' = s.addParam r)
  last : ∀ p r, s.history[0]? = some (p, r) → p.seqWord = s.strResetSeqIn - 1 ∧
    (ok p → s.handleParam env p = some (s.addParam r))
  former : ∀ p r, s.history[1]? = some (p, r) → p.seqWord = s.strResetSeqIn - 2 ∧
    (ok p → s.handleParam env p = some (s.addParam r))

/-- What an OUT request looks at before it waits. -/
structure SameTsn (s s' : ResetAsoc) : Prop where
  enableResetStream : s'.enableResetStream = s.enableResetStream
  cumulativeTsn : s'.cumulativeTsn = s.cumulativeTsn

theorem SameTsn.trans {s t u : ResetAsoc} (h : SameTsn s t) (h' : SameTsn t u) : SameTsn s u :=
  ⟨h'.1.trans h.1, h'.2.trans h.2⟩

theorem sameTsn_settle (s : ResetAsoc) : SameTsn s s.settle := by
  unfold settle cleanUpStreamReset
  split_ifs
  · split <;> exact ⟨rfl, rfl⟩
  · exact ⟨rfl, rfl⟩

theorem sameTsn_answerRequest {env : ResetEnv} {s s' : ResetAsoc} {req : ResetParam}
    {action : BitVec 32} (h : s.answerRequest env req action none = some s') : SameTsn s s' := by
  have hsettle : ∀ t : ResetAsoc, SameTsn s t → some t.settle = some s' → SameTsn s s' :=
    fun t ht hs => (Option.some.inj hs) ▸ ht.trans (sameTsn_settle t)
  cases req with
  | outRequest seq respSeq tsn streams =>
    refine hsettle _ ?_ h
    split_ifs <;> exact ⟨rfl, rfl⟩
  | inRequest seq streams =>
    refine hsettle s.retire ?_ h
    exact ⟨rfl, rfl⟩
  | tsnRequest seq => exact Option.some.inj h ▸ ⟨rfl, rfl⟩
  | addOutStreams seq n =>
    refine hsettle _ ?_ h
    split_ifs <;> exact ⟨rfl, rfl⟩
  | addInStreams seq n =>
    refine hsettle s.retire ?_ h
    exact ⟨rfl, rfl⟩
  | response seq result => exact hsettle s ⟨rfl, rfl⟩ h
  | responseTsn seq result sendersNextTsn receiversNextTsn => exact hsettle s ⟨rfl, rfl⟩ h
  | unfit => exact hsettle s ⟨rfl, rfl⟩ h

/-- A response without TSNs moves no map. -/
theorem sameTsn_implicitAck {env : ResetEnv} {s s' : ResetAsoc} {respSeq : ResetSeq}
    (h : s.implicitAck env respSeq = some s') : SameTsn s s' := by
  unfold implicitAck handleStreamResetResponse at h
  simp only at h
  split_ifs at h
  · exact Option.some.inj h ▸ ⟨rfl, rfl⟩
  · have hfind : SameTsn s ((s.noteAnswer respSeq).findStreamReset respSeq).1 := by
      unfold findStreamReset
      split_ifs
      · exact ⟨rfl, rfl⟩
      · split <;> exact ⟨rfl, rfl⟩
    split at h
    · rename_i t heq
      rw [heq] at hfind
      exact Option.some.inj h ▸ hfind
    · rename_i t req heq
      rw [heq] at hfind
      refine hfind.trans (.trans ?_ (sameTsn_answerRequest h))
      exact ⟨rfl, rfl⟩
  · exact Option.some.inj h ▸ ⟨rfl, rfl⟩
  · exact Option.some.inj h ▸ ⟨rfl, rfl⟩

def recalled (s : ResetAsoc) (p : ResetParam) : ResetParam :=
  if s.strResetSeqIn - 1 = p.seqWord then p.reply s.lastResetAction.1 s.lastTsns
  else if s.strResetSeqIn - 2 = p.seqWord then p.reply s.lastResetAction.2 s.formerTsns
  else .response p.seqWord resultErrBadSeqno

/-- A request that is not the next one is answered from memory and changes nothing. -/
theorem handleParam_old {env : ResetEnv} {s : ResetAsoc} {p : ResetParam}
    (hp : p.isRequest = true) (hok : s.Regular env p) (hseq : p.seqWord ≠ s.strResetSeqIn) :
    s.handleParam env p = some (s.addParam (s.recalled p)) := by
  have hold : ∀ q : ResetParam, q.isRequest = true → (∀ seq, q ≠ .tsnRequest seq) →
      s.answerOld q.seqWord = s.addParam (s.recalled q) := by
    intro q hq htsn
    have hreply : ∀ action tsns, q.reply action tsns = .response q.seqWord action := by
      intro action tsns
      cases q with
      | tsnRequest seq => exact absurd rfl (htsn seq)
      | _ => rfl
    unfold answerOld recalled
    split_ifs <;> simp only [hreply]
  cases p with
  | outRequest seq respSeq tsn streams =>
    have hne : ¬ s.strResetSeqIn = seq := fun h => hseq h.symm
    have hack : s.implicitAck env respSeq = some s := by
      have hno : ¬ (s.streamResetOutstanding ≠ 0 ∧ respSeq = s.strResetSeqOut) := by
        rwa [Regular, if_neg hne] at hok
      rw [implicitAck, if_neg hno]
    simp only [handleParam, hack, Option.map_some, handleStrResetRequestOut, if_neg hne]
    exact congrArg some (hold (.outRequest seq respSeq tsn streams) rfl (by simp))
  | inRequest seq streams =>
    have hne : ¬ s.strResetSeqIn = seq := fun h => hseq h.symm
    simp only [handleParam, handleStrResetRequestIn, if_neg hne]
    exact congrArg some (hold (.inRequest seq streams) rfl (by simp))
  | tsnRequest seq =>
    have hne : ¬ s.strResetSeqIn = seq := fun h => hseq h.symm
    simp only [handleParam, handleStrResetRequestTsn, if_neg hne]
    have hrec : s.recalled (.tsnRequest seq) =
        if s.strResetSeqIn - 1 = seq then
          .responseTsn seq s.lastResetAction.1 s.lastSendingSeq.1 s.lastBaseTsnsent.1
        else if s.strResetSeqIn - 2 = seq then
          .responseTsn seq s.lastResetAction.2 s.lastSendingSeq.2 s.lastBaseTsnsent.2
        else .response seq resultErrBadSeqno := rfl
    rw [hrec]
    split_ifs <;> rfl
  | addOutStreams seq n =>
    have hne : ¬ s.strResetSeqIn = seq := fun h => hseq h.symm
    simp only [handleParam, handleStrResetAddStrm, if_neg hne]
    exact congrArg some (hold (.addOutStreams seq n) rfl (by simp))
  | addInStreams seq n =>
    have hne : ¬ s.strResetSeqIn = seq := fun h => hseq h.symm
    simp only [handleParam, handleStrResetAddOutStrm, if_neg hne]
    exact congrArg some (hold (.addInStreams seq n) rfl (by simp))
  | response seq result => cases hp
  | responseTsn seq result sendersNextTsn receiversNextTsn => cases hp
  | unfit => cases hp

/-- The next request is carried out. -/
theorem handleParam_new {env : ResetEnv} {s s' : ResetAsoc} {p : ResetParam}
    (hp : p.isRequest = true) (hok : s.Regular env p) (hseq : p.seqWord = s.strResetSeqIn)
    (h : s.handleParam env p = some s') : ∃ t, SameMemory s t ∧ Executed t p s' := by
  have hnow : ∀ t, some t = some s' → Executed s p t → ∃ t, SameMemory s t ∧ Executed t p s' :=
    fun t ht hex => ⟨s, .refl s, Option.some.inj ht ▸ hex⟩
  cases p with
  | outRequest seq respSeq tsn streams =>
    obtain ⟨t, ht, rfl⟩ := Option.map_eq_some_iff.1 h
    have hnew : s.strResetSeqIn = seq := hseq.symm
    rw [Regular, if_pos hnew] at hok
    obtain ⟨hlist, hqueued⟩ := hok
    have hmem := sameMemory_implicitAck hqueued ht
    have htsn := sameTsn_implicitAck ht
    refine ⟨t, hmem, handleStrResetRequestOut_executed (hmem.strResetSeqIn.trans hseq.symm) ?_⟩
    rwa [ListAtHand, htsn.enableResetStream, htsn.cumulativeTsn]
  | inRequest seq streams => exact hnow _ h (handleStrResetRequestIn_executed hseq.symm)
  | tsnRequest seq => exact ⟨s, .refl s, handleStrResetRequestTsn_executed hseq.symm h⟩
  | addOutStreams seq n => exact hnow _ h (handleStrResetAddStrm_executed hseq.symm)
  | addInStreams seq n => exact hnow _ h (handleStrResetAddOutStrm_executed hseq.symm)
  | response seq result => cases hp
  | responseTsn seq result sendersNextTsn receiversNextTsn => cases hp
  | unfit => cases hp

/-- While the registers hold the answers, requests are stable. -/
theorem Remembers.stable {s : ResetAsoc} (h : s.Remembers) (env : ResetEnv) :
    s.Stable (s.Regular env) env := by
  refine ⟨h.sound, fun p hp hok s' hs => ?_, fun p r hk => ?_, fun p r hk => ?_⟩
  · by_cases hseq : p.seqWord = s.strResetSeqIn
    · obtain ⟨t, ht, hex⟩ := handleParam_new hp hok hseq hs
      refine ⟨(hex.freedChunk.trans ht.freedChunk).trans h.sound, .inl ⟨hseq, ?_⟩⟩
      exact hex.strResetSeqIn.trans (congrArg (· + 1) ht.strResetSeqIn)
    · rw [handleParam_old hp hok hseq] at hs
      obtain rfl := Option.some.inj hs
      exact ⟨h.sound, .inr ⟨hseq, _, rfl⟩⟩
  · obtain ⟨hp, hseq, hr⟩ := h.last p r hk
    refine ⟨hseq, fun hok => ?_⟩
    have hne : p.seqWord ≠ s.strResetSeqIn := by rw [hseq]; bv_omega
    rw [handleParam_old hp hok hne, recalled, if_pos hseq.symm, ← hr]
  · obtain ⟨hp, hseq, hr⟩ := h.former p r hk
    refine ⟨hseq, fun hok => ?_⟩
    have hne : p.seqWord ≠ s.strResetSeqIn := by rw [hseq]; bv_omega
    have hne' : ¬ s.strResetSeqIn - 1 = p.seqWord := by rw [hseq]; bv_omega
    rw [handleParam_old hp hok hne, recalled, if_neg hne', if_pos hseq.symm, hr]
    congr 2
    cases p with
    | tsnRequest seq =>
      rcases hok (by rw [hk]; rfl) with hlast | hsame
      · rw [if_pos hlast]
      · rw [hsame, ite_self]
    | _ => rfl

theorem Remembers.handleParam {env : ResetEnv} {s s' : ResetAsoc} {p : ResetParam}
    (h : s.Remembers) (hok : s.Regular env p) (hs : s.handleParam env p = some s') :
    s'.Remembers := by
  by_cases hp : p.isRequest = true
  · by_cases hseq : p.seqWord = s.strResetSeqIn
    · obtain ⟨t, ht, hex⟩ := handleParam_new hp hok hseq hs
      exact (h.sameMemory ht).executed hex
    · rw [handleParam_old hp hok hseq] at hs
      exact Option.some.inj hs ▸ h.sameMemory (sameMemory_addParam s _)
  · cases p with
    | response seq result => exact h.sameMemory (sameMemory_handleStreamResetResponse hok hs)
    | responseTsn seq result sendersNextTsn receiversNextTsn =>
      exact h.sameMemory (sameMemory_handleStreamResetResponse hok hs)
    | unfit => exact Option.some.inj hs ▸ h
    | _ => exact absurd rfl hp

end ResetAsoc

/-- The parameters of a chunk that comes in are all regular where they are handled. -/
def ResetEvent.Regular (s : ResetAsoc) : ResetEvent → Prop
  | .receive env params => env.chunkOk = true →
    Trace.Along (ResetAsoc.handleParam env) (fun s p => s.Regular env p) s.openChunk
      (ResetAsoc.lookedAt params)
  | _ => True

instance ResetEvent.decidableRegular (s : ResetAsoc) (e : ResetEvent) : Decidable (e.Regular s) := by
  unfold ResetEvent.Regular
  split <;> infer_instance

namespace ResetAsoc

theorem Remembers.handleParams {env : ResetEnv} {s s' : ResetAsoc} {ps : List ResetParam}
    (h : s.Remembers) (hok : Trace.Along (ResetAsoc.handleParam env) (fun s p => s.Regular env p) s ps)
    (hs : Trace.run (ResetAsoc.handleParam env) s ps = some s') : s'.Remembers :=
  Trace.run_invariant Remembers (fun _ _ _ hr hreg => hr.handleParam hreg) h hok hs

theorem Remembers.resetStep {s s' : ResetAsoc} {e : ResetEvent} (h : s.Remembers)
    (hok : e.Regular s) (hs : Sctp.resetStep s e = some s') : s'.Remembers := by
  cases e with
  | receive env params =>
    simp only [Sctp.resetStep, handleStreamReset] at hs
    split_ifs at hs with hchunk
    · exact Option.some.inj hs ▸ h.sameMemory ⟨rfl, rfl, rfl, rfl, rfl, rfl⟩
    · obtain ⟨t, ht, rfl⟩ := Option.map_eq_some_iff.1 hs
      have hopen : s.openChunk.Remembers := h.sameMemory ⟨rfl, rfl, rfl, rfl, rfl, rfl⟩
      have hdone := hopen.handleParams (hok (by simpa using hchunk)) ht
      exact hdone.sameMemory ⟨rfl, rfl, rfl, rfl, rfl, rfl⟩
  | send env args =>
    simp only [Sctp.resetStep] at hs
    split at hs
    · rename_i t ht
      exact Option.some.inj hs ▸ h.sameMemory (sameMemory_sendStrResetReq ht)
    · exact Option.some.inj hs ▸ h
  | cleanUpCtl => exact Option.some.inj hs ▸ h.sameMemory ⟨rfl, rfl, rfl, rfl, rfl, rfl⟩
  | strresetTimer =>
    refine Option.some.inj hs ▸ h.sameMemory ?_
    unfold ResetAsoc.strresetTimer
    split_ifs
    · exact .refl s
    · exact sameMemory_findStreamReset s _
  | elsewhere t => exact Option.some.inj hs ▸ h.sameMemory ⟨rfl, rfl, rfl, rfl, rfl, rfl⟩

end ResetAsoc

/-- Behind every regular run, and behind any parameters of the next chunk, the next request is
carried out once and the last two requests get the answers they got before. -/
theorem resetRun_requests_stable {s₀ s t : ResetAsoc} {es : List ResetEvent} {env : ResetEnv}
    (ps : List ResetParam) (h₀ : s₀.history = []) (hsound : s₀.freedChunk = false)
    (hes : Trace.Along resetStep (fun s e => e.Regular s) s₀ es)
    (hs : Trace.run resetStep s₀ es = some s)
    (hps : Trace.Along (ResetAsoc.handleParam env) (fun s p => s.Regular env p) s.openChunk ps)
    (ht : Trace.run (ResetAsoc.handleParam env) s.openChunk ps = some t) :
    t.Stable (t.Regular env) env := by
  have hfresh : s₀.Remembers := by
    refine ⟨hsound, fun req resp hk => ?_, fun req resp hk => ?_⟩ <;> rw [h₀] at hk <;> cases hk
  have hrun : s.Remembers :=
    Trace.run_invariant ResetAsoc.Remembers (fun _ _ _ hr hreg => hr.resetStep hreg) hfresh hes hs
  have hopen : s.openChunk.Remembers := hrun.sameMemory ⟨rfl, rfl, rfl, rfl, rfl, rfl⟩
  exact (hopen.handleParams hps ht).stable env

/-- More streams are asked for, then a reset that has to wait for its TSN. -/
def addThenReset (listOk : Bool) : List ResetEvent :=
  [.receive (resetEnv true) [.addOutStreams 2000 1],
    .receive (resetEnv listOk) [.outRequest 2001 999 3000 []]]

theorem addThenReset_stable : ∃ s, Trace.run resetStep freshReset (addThenReset true) = some s ∧
    s.openChunk.Stable (s.openChunk.Regular (resetEnv true)) (resetEnv true) := by
  have hsome : (Trace.run resetStep freshReset (addThenReset true)).isSome := by decide +kernel
  have hreg : Trace.Along resetStep (fun s e => e.Regular s) freshReset (addThenReset true) := by
    decide +kernel
  exact ⟨_, (Option.some_get hsome).symm,
    resetRun_requests_stable [] rfl rfl hreg (Option.some_get hsome).symm trivial rfl⟩

/-- Without memory for the list the reset is denied, and so is, when it comes again, the request
before it, which was carried out. -/
theorem addThenReset_not_stable :
    freshReset.history = [] ∧ freshReset.freedChunk = false ∧
      ∃ s, Trace.run resetStep freshReset (addThenReset false) = some s ∧
        ¬ s.openChunk.Stable (fun _ => True) (resetEnv true) := by
  have hbad : (Trace.run resetStep freshReset (addThenReset false)).map (fun s =>
      (s.openChunk.history[0]?,
        (s.openChunk.handleParam (resetEnv true) (.addOutStreams 2000 1)).map (·.building))) =
      some (some (.addOutStreams 2000 1, .response 2000 resultPerformed),
        some (some { id := 2, params := [.response 2000 resultDenied] })) := by decide +kernel
  obtain ⟨s, hs, hv⟩ := Option.map_eq_some_iff.1 hbad
  obtain ⟨hhist, hans⟩ := Prod.mk.inj hv
  refine ⟨rfl, rfl, s, hs, fun h => ?_⟩
  rw [(h.last _ _ hhist).2 trivial] at hans
  revert hans
  simp [ResetAsoc.addParam, ResetAsoc.openChunk, resultPerformed, resultDenied]

end Sctp
