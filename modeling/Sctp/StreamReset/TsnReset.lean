import Sctp.StreamReset.Outstanding

/-! A TSN reset between two ends: A asks for it, B carries it out. -/
namespace Sctp
open Bitmap

/-- Both ends, and the chunks that B answered with; copies of them may arrive at any time. -/
structure TsnExchange where
  a : ResetAsoc
  b : ResetAsoc
  wire : List (List ResetParam)

inductive ExchangeEvent
  /-- A copy of the request reaches B. -/
  | request (env : ResetEnv)
  /-- A copy of an answer reaches A. -/
  | response (env : ResetEnv) (k : ℕ)

def exchangeStep (seq : ResetSeq) (x : TsnExchange) : ExchangeEvent → Option TsnExchange
  | .request env => (x.b.handleStreamReset env [.tsnRequest seq]).map fun b =>
    { x with
      b := b
      wire := x.wire ++ (b.controlSendQueue.drop x.b.controlSendQueue.length).map (·.params) }
  | .response env k =>
    match x.wire[k]? with
    | none => some x
    | some params => (x.a.handleStreamReset env params).map fun a => { x with a := a }

/-- The TSNs that were received: the cumulative one and those in the maps. -/
def TsnMap.Seen (m : TsnMap) (tsn : Tsn) : Prop :=
  tsn = m.cumulativeTsn ∨ ∃ k, m.has k = true ∧ tsn = Serial.advance m.mappingArrayBaseTsn k

def TsnMap.accepts (m : TsnMap) (tsn : Tsn) : Bool :=
  !tsnGe m.cumulativeTsn tsn &&
    decide ((calcTsnToGap tsn m.mappingArrayBaseTsn).toNat < 8 * mappingArrayMax) &&
    !m.has (calcTsnToGap tsn m.mappingArrayBaseTsn).toNat

namespace ResetAsoc

/-- A SACK with this cumulative TSN is neither old nor for what was not sent. -/
def acceptsSack (s : ResetAsoc) (cumAck : Tsn) : Bool :=
  !tsnGt s.lastAckedSeq cumAck && tsnGt s.sendingSeq cumAck

/-- All stream sequence numbers start again. -/
def SsnsReset (s : ResetAsoc) : Prop :=
  (∀ i < s.streamoutcnt, s.nextSequenceSend i = 0) ∧
    ∀ i < s.streamincnt, s.lastSequenceDelivered i = 0xffff

/-- The maps are empty and start behind the cumulative TSN. -/
def MapsReset (s : ResetAsoc) : Prop :=
  (∀ k, s.has k = false) ∧ s.mappingArrayBaseTsn = s.cumulativeTsn + 1

end ResetAsoc

/-- The two ends agree behind a TSN reset, before which B had received some TSNs. -/
structure InStep (a b : ResetAsoc) (received : Tsn → Prop) : Prop where
  aNext : a.sendingSeq = b.cumulativeTsn + 1
  aAcked : a.lastAckedSeq = a.sendingSeq - 1
  bNext : b.sendingSeq = a.cumulativeTsn + 1
  aSsns : a.SsnsReset
  bSsns : b.SsnsReset
  aMaps : a.MapsReset
  bMaps : b.MapsReset
  above : ∀ tsn, received tsn → tsnGt tsn b.cumulativeTsn = false
  dataToB : b.accepts a.sendingSeq = true
  dataToA : a.accepts b.sendingSeq = true
  sackToA : a.acceptsSack b.cumulativeTsn = true
  sackToB : b.acceptsSack a.cumulativeTsn = true

def TsnMap.resetCum (m : TsnMap) : Tsn := m.forwardedMark + streamResetTsnDelta

/-- B's TSNs in one direction happen to be those of the other; if the mark of its map is behind its
cumulative TSN, nothing that it received is far ahead of the mark; and what B sent is not ahead of
what it acked. -/
def TsnsMeet (b : ResetAsoc) : Prop :=
  b.sendingSeq = b.resetCum ∧
    (tsnGe b.cumulativeTsn (b.highestTsnInsideMap + 1) = true →
      ∀ tsn, b.Seen tsn → tsnGt tsn (b.highestTsnInsideMap + streamResetTsnDelta) = false) ∧
    tsnGt b.lastAckedSeq b.sendingSeq = false

/-- Nothing received lies ahead of the cumulative TSN that a TSN reset chooses, unless the mark is
behind the cumulative TSN. -/
theorem TsnMap.Receiving.seen_le_resetCum {m : TsnMap} (h : m.Receiving) :
    (∀ tsn, m.Seen tsn → tsnGt tsn m.resetCum = false) ↔
      (tsnGe m.cumulativeTsn (m.highestTsnInsideMap + 1) = true →
        ∀ tsn, m.Seen tsn → tsnGt tsn (m.highestTsnInsideMap + streamResetTsnDelta) = false) := by
  cases hge : tsnGe m.cumulativeTsn (m.highestTsnInsideMap + 1) with
  | true =>
    have hsame : m.resetCum = m.highestTsnInsideMap + streamResetTsnDelta := by
      unfold TsnMap.resetCum TsnMap.forwardedMark
      dsimp only
      rw [hge, if_pos rfl]
    rw [hsame]
    exact ⟨fun hall _ => hall, fun hall => hall rfl⟩
  | false =>
    refine ⟨fun _ hcon => absurd hcon Bool.false_ne_true, fun _ tsn hseen => ?_⟩
    obtain ⟨hcum, hlow, hhigh⟩ := h.forwardedMark_spec hge
    have hsize := h.size_lt
    have hcge := h.cum_ge
    have hdelta : Serial.dist m.mappingArrayBaseTsn m.resetCum =
        Serial.dist m.mappingArrayBaseTsn m.forwardedMark + 4096 := by
      unfold TsnMap.resetCum streamResetTsnDelta
      simp only [Serial.dist, BitVec.toInt_eq_toNat_cond, BitVec.toNat_sub, BitVec.toNat_add,
        BitVec.toNat_ofNat, BitVec.ofNat_eq_ofNat] at hlow hhigh ⊢
      have := m.mappingArrayBaseTsn.isLt
      have := m.forwardedMark.isLt
      split_ifs at hlow hhigh ⊢ <;> omega
    have hle : -1 ≤ Serial.dist m.mappingArrayBaseTsn tsn ∧
        Serial.dist m.mappingArrayBaseTsn tsn ≤ Serial.dist m.mappingArrayBaseTsn m.resetCum := by
      rcases hseen with rfl | ⟨k, hk, rfl⟩
      · omega
      · have hwithin : k < 4096 := h.within k hk
        rw [Serial.dist_advance _ (by norm_num; omega)]
        omega
    rw [Bool.eq_false_iff, Ne, tsnGt_iff_dist m.mappingArrayBaseTsn _ _ (by omega)]
    omega

namespace ResetAsoc

/-- B behind the request: the state `b₀` before it was reset. -/
structure Performed (b₀ : ResetAsoc) (seq : ResetSeq) (b : ResetAsoc) : Prop where
  building : b.building = none
  strResetSeqIn : b.strResetSeqIn = seq + 1
  lastAction : b.lastResetAction.1 = resultPerformed
  lastTsns : b.lastTsns = (b₀.sendingSeq + 1, b₀.resetCum + 1)
  sendingSeq : b.sendingSeq = b₀.sendingSeq + 1
  lastAckedSeq : b.lastAckedSeq = b₀.lastAckedSeq
  cumulativeTsn : b.cumulativeTsn = b₀.resetCum
  maps : b.MapsReset
  ssns : b.SsnsReset

structure Adopted (sendersNextTsn receiversNextTsn : Tsn) (a : ResetAsoc) : Prop where
  building : a.building = none
  idle : a.streamResetOutstanding = 0
  sendingSeq : a.sendingSeq = receiversNextTsn
  cumulativeTsn : a.cumulativeTsn = sendersNextTsn - 1
  lastAckedSeq : a.lastAckedSeq = sendersNextTsn - 1
  maps : a.MapsReset
  ssns : a.SsnsReset

theorem ssnsReset_resetStreams (s : ResetAsoc) :
    ((s.resetOutStreams []).resetInStream []).SsnsReset := by
  refine ⟨fun i hi => ?_, fun i hi => ?_⟩
  · have hi' : i < s.streamoutcnt := hi
    simp [resetInStream, resetOutStreams, selects, hi']
  · have hi' : i < s.streamincnt := hi
    simp [resetInStream, resetOutStreams, selects, hi']

/-- A chunk with a single parameter. -/
theorem handleStreamReset_single {env : ResetEnv} {s s' : ResetAsoc} {p : ResetParam}
    (hchunk : env.chunkOk = true) (h : s.handleStreamReset env [p] = some s') (hp : p ≠ .unfit) :
    ∃ t, s.openChunk.handleParam env p = some t ∧ s' = t.closeChunk p.isRequest := by
  have hlook : lookedAt [p] = [p] ∧ overlooked [p] = [] := by
    cases p with
    | unfit => exact absurd rfl hp
    | _ => exact ⟨rfl, rfl⟩
  simp only [handleStreamReset, hchunk, hlook] at h
  obtain ⟨t, ht, rfl⟩ := Option.map_eq_some_iff.1 h
  refine ⟨t, by simpa [Trace.run] using ht, ?_⟩
  simp [overlook]

/-- B carries the request out. -/
theorem performed_handleStreamReset {env : ResetEnv} {b₀ b : ResetAsoc} {seq : ResetSeq}
    (hchunk : env.chunkOk = true) (hmaps : b₀.Receiving) (hseq : b₀.strResetSeqIn = seq)
    (hen : b₀.enableChangeAssoc = true)
    (h : b₀.handleStreamReset env [.tsnRequest seq] = some b) :
    Performed b₀ seq b ∧ b.controlSendQueue = b₀.controlSendQueue ++
      [{ id := b₀.nextChunk, params :=
          [.responseTsn seq resultPerformed (b₀.sendingSeq + 1) (b₀.resetCum + 1)] }] := by
  obtain ⟨t, ht, rfl⟩ := handleStreamReset_single hchunk h nofun
  have hen' : b₀.openChunk.enableChangeAssoc = true := hen
  simp only [handleParam, handleStrResetRequestTsn, hen', Bool.not_true, Bool.false_eq_true,
    if_false] at ht
  rw [if_pos (by exact hseq)] at ht
  obtain ⟨u, hu, rfl⟩ := Option.map_eq_some_iff.1 ht
  obtain ⟨map, hmap, rfl⟩ := Option.map_eq_some_iff.1 hu
  have hfwd : b₀.toTsnMap.forwardTsn (b₀.highestTsnInsideMap + 1) env.sbspace = some map := hmap
  have hcum : b₀.resetCum = map.highestTsnInsideMap + streamResetTsnDelta := by
    rw [TsnMap.resetCum, hmaps.forwardTsn_mark hfwd]
  have hsized := TsnMap.sized_forwardTsn hmaps.toSized hfwd
  refine ⟨⟨rfl, congrArg (· + 1) hseq, rfl, ?_, rfl, rfl, hcum.symm, ⟨fun k => ?_, rfl⟩, ?_⟩, ?_⟩
  · exact congrArg (fun tsn => (b₀.sendingSeq + 1, tsn + 1)) hcum.symm
  · exact TsnMap.has_restartAt hsized _ k
  · exact ssnsReset_resetStreams b₀
  · exact congrArg (fun tsn => b₀.controlSendQueue ++ [{ id := b₀.nextChunk, params :=
      [.responseTsn seq resultPerformed (b₀.sendingSeq + 1) (tsn + 1)] }]) hcum.symm

/-- A copy of the request only gets the answer again. -/
theorem Performed.handleStreamReset {env : ResetEnv} {b₀ b b' : ResetAsoc} {seq : ResetSeq}
    (hb : Performed b₀ seq b) (hchunk : env.chunkOk = true)
    (h : b.handleStreamReset env [.tsnRequest seq] = some b') :
    Performed b₀ seq b' ∧ b'.controlSendQueue = b.controlSendQueue ++
      [{ id := b.nextChunk, params :=
          [.responseTsn seq resultPerformed (b₀.sendingSeq + 1) (b₀.resetCum + 1)] }] := by
  obtain ⟨t, ht, rfl⟩ := handleStreamReset_single hchunk h nofun
  have hin := hb.strResetSeqIn
  have hnew : ¬ b.openChunk.strResetSeqIn = seq := by
    change ¬ b.strResetSeqIn = seq
    bv_omega
  have hold : b.openChunk.strResetSeqIn - 1 = seq := by
    change b.strResetSeqIn - 1 = seq
    bv_omega
  simp only [handleParam, handleStrResetRequestTsn, if_neg hnew, if_pos hold] at ht
  have := Option.some.inj ht
  subst this
  have hanswer : (ResetParam.responseTsn seq b.openChunk.lastResetAction.1
      b.openChunk.lastSendingSeq.1 b.openChunk.lastBaseTsnsent.1) =
      .responseTsn seq resultPerformed (b₀.sendingSeq + 1) (b₀.resetCum + 1) := by
    have h1 : b.openChunk.lastResetAction.1 = resultPerformed := hb.lastAction
    obtain ⟨h2, h3⟩ := Prod.mk.inj hb.lastTsns
    rw [h1]
    exact congrArg₂ (ResetParam.responseTsn seq resultPerformed) h2 h3
  rw [hanswer]
  exact ⟨⟨rfl, hb.2, hb.3, hb.4, hb.5, hb.6, hb.7, hb.8, hb.9⟩, rfl⟩

theorem answered_none (reqs : List ResetParam) : answered reqs none = reqs := by
  cases reqs with
  | nil => exact ite_self []
  | cons req rest => exact if_neg (by simp)

theorem settle_eq (s : ResetAsoc) :
    ∃ queue building freed strReset, s.settle = { s with
      controlSendQueue := queue, building := building, freedChunk := freed, strReset := strReset } := by
  unfold settle cleanUpStreamReset
  split_ifs
  · split <;> exact ⟨_, _, _, _, rfl⟩
  · exact ⟨_, _, _, _, rfl⟩

/-- The first answer at A that it has memory for, whatever was lost before. -/
theorem adopted_handleStreamReset {env : ResetEnv} {a a' : ResetAsoc} {s r : Tsn}
    (ha : a.Tracked) (hb : a.building = none) (hsize : a.Sized)
    (hun : a.unanswered = [.tsnRequest a.strResetSeqOut]) (hchunk : env.chunkOk = true)
    (lost : List ResetParam)
    (h : { a with unanswered := lost }.handleStreamReset env
      [.responseTsn a.strResetSeqOut resultPerformed s r] = some a') : Adopted s r a' := by
  obtain ⟨t, ht, rfl⟩ := handleStreamReset_single hchunk h nofun
  have hopen := (ha.openChunk hb).1
  have hqueued : a.openChunk.ChunkQueued := by
    intro hid
    obtain ⟨chunk, hc, hcid, -⟩ := ha.kept a.nextChunk hid
    exact absurd hcid (ha.fresh chunk hc).ne
  have hone : a.streamResetOutstanding = 1 := by
    rw [ha.count, hun]
    rfl
  have hfind := hopen.findStreamReset hun hqueued
    (t := { a.openChunk with unanswered := lost }.noteAnswer a.strResetSeqOut) rfl rfl rfl
  simp only [handleParam, handleStreamResetResponse] at ht
  rw [if_neg (by change ¬ a.streamResetOutstanding = 0; omega), if_pos (by rfl)] at ht
  have hfind' : ({ a with unanswered := lost }.openChunk.noteAnswer a.strResetSeqOut).findStreamReset
      a.strResetSeqOut = ({ a with unanswered := lost }.openChunk.noteAnswer a.strResetSeqOut,
        some (.tsnRequest a.strResetSeqOut)) := hfind
  rw [hfind'] at ht
  simp only [answerRequest, if_true] at ht
  obtain ⟨map, hmap, hsettle⟩ := Option.map_eq_some_iff.1 ht
  have hsized : map.Sized := TsnMap.sized_forwardTsn (m := a.toTsnMap) hsize hmap
  obtain ⟨queue, building, freed, strReset, heq⟩ := settle_eq _
  rw [heq] at hsettle
  subst hsettle
  refine ⟨rfl, ?_, rfl, rfl, rfl, ⟨fun k => ?_, ?_⟩, ?_⟩
  · exact congrArg (· - 1) hone
  · exact TsnMap.has_restartAt hsized (s - 1) k
  · change s = s - 1 + 1
    bv_omega
  · exact ssnsReset_resetStreams a

/-- A copy of the answer is a duplicate. -/
theorem Adopted.handleStreamReset {env : ResetEnv} {a a' : ResetAsoc} {s r : Tsn} {seq : ResetSeq}
    {x y : Tsn} {action : BitVec 32} (ha : Adopted s r a) (hchunk : env.chunkOk = true)
    (h : a.handleStreamReset env [.responseTsn seq action x y] = some a') : Adopted s r a' := by
  obtain ⟨t, ht, rfl⟩ := handleStreamReset_single hchunk h nofun
  simp only [handleParam, handleStreamResetResponse] at ht
  rw [if_pos (by exact ha.idle)] at ht
  have := Option.some.inj ht
  subst this
  exact ⟨rfl, ha.2, ha.3, ha.4, ha.5, ha.6, ha.7⟩

end ResetAsoc

/-- How far the exchange has come: B has not seen the request, or has carried it out and A has not
seen an answer, or has adopted it. -/
def Exchanged (seq : ResetSeq) (a₁ b₀ : ResetAsoc) (x : TsnExchange) : Prop :=
  x.b = b₀ ∧ x.wire = [] ∧ (∃ lost, x.a = { a₁ with unanswered := lost }) ∨
    ResetAsoc.Performed b₀ seq x.b ∧
      (∀ params ∈ x.wire,
        params = [.responseTsn seq resultPerformed (b₀.sendingSeq + 1) (b₀.resetCum + 1)]) ∧
      ((∃ lost, x.a = { a₁ with unanswered := lost }) ∨
        ResetAsoc.Adopted (b₀.sendingSeq + 1) (b₀.resetCum + 1) x.a)

theorem Exchanged.step {seq : ResetSeq} {a₁ b₀ : ResetAsoc} {x y : TsnExchange} {e : ExchangeEvent}
    (ha : a₁.Tracked) (hab : a₁.building = none) (hasize : a₁.Sized)
    (haseq : a₁.strResetSeqOut = seq) (hun : a₁.unanswered = [.tsnRequest seq])
    (hbmaps : b₀.Receiving) (hbseq : b₀.strResetSeqIn = seq) (hen : b₀.enableChangeAssoc = true)
    (h : Exchanged seq a₁ b₀ x) (hs : exchangeStep seq x e = some y) : Exchanged seq a₁ b₀ y := by
  cases e with
  | request env =>
    obtain ⟨b, hb, rfl⟩ := Option.map_eq_some_iff.1 hs
    by_cases hchunk : env.chunkOk = true
    · have hanswer : ∀ {b' : ResetAsoc}, b.controlSendQueue = x.b.controlSendQueue ++ [⟨b'.nextChunk,
          [.responseTsn seq resultPerformed (b₀.sendingSeq + 1) (b₀.resetCum + 1)]⟩] →
          (b.controlSendQueue.drop x.b.controlSendQueue.length).map (·.params) =
            [[.responseTsn seq resultPerformed (b₀.sendingSeq + 1) (b₀.resetCum + 1)]] := by
        intro b' hq
        rw [hq, List.drop_left]
        rfl
      rcases h with ⟨hxb, hw, hxa⟩ | ⟨hperf, hw, hxa⟩
      · subst hxb
        obtain ⟨hperf, hq⟩ := ResetAsoc.performed_handleStreamReset hchunk hbmaps hbseq hen hb
        refine .inr ⟨hperf, ?_, .inl hxa⟩
        simp only [hanswer hq, hw, List.nil_append, List.mem_singleton]
        exact fun params hp => hp
      · obtain ⟨hperf', hq⟩ := hperf.handleStreamReset hchunk hb
        refine .inr ⟨hperf', ?_, hxa⟩
        simp only [hanswer hq, List.mem_append, List.mem_singleton]
        rintro params (hp | hp)
        · exact hw params hp
        · exact hp
    · have hsame : b = x.b := by
        simp only [ResetAsoc.handleStreamReset, hchunk] at hb
        rw [← Option.some.inj hb]
        change { x.b with unanswered := ResetAsoc.answered x.b.unanswered none } = x.b
        rw [ResetAsoc.answered_none]
      subst hsame
      simpa [Exchanged] using h
  | response env k =>
    simp only [exchangeStep] at hs
    split at hs
    · exact Option.some.inj hs ▸ h
    · rename_i params hp
      obtain ⟨a, ha', rfl⟩ := Option.map_eq_some_iff.1 hs
      rcases h with ⟨hxb, hw, hxa⟩ | ⟨hperf, hw, hxa⟩
      · rw [hw] at hp
        cases hp
      · refine .inr ⟨hperf, hw, ?_⟩
        rw [hw params (List.mem_of_getElem? hp)] at ha'
        by_cases hchunk : env.chunkOk = true
        · rcases hxa with ⟨lost, hxa⟩ | hxa
          · subst haseq
            rw [hxa] at ha'
            exact .inr (ResetAsoc.adopted_handleStreamReset ha hab hasize hun hchunk lost ha')
          · exact .inr (hxa.handleStreamReset hchunk ha')
        · simp only [ResetAsoc.handleStreamReset, hchunk] at ha'
          obtain rfl := Option.some.inj ha'
          rcases hxa with ⟨lost, hxa⟩ | hxa
          · refine .inl ⟨(x.a.overlook [.responseTsn seq resultPerformed (b₀.sendingSeq + 1)
              (b₀.resetCum + 1)]).unanswered, ?_⟩
            simp only [ResetAsoc.overlook, hxa]
          · exact .inr ⟨hxa.1, hxa.2, hxa.3, hxa.4, hxa.5, hxa.6, hxa.7⟩

private theorem tsnGt_add_one (c : Tsn) : tsnGt (c + 1) c = true := by
  rw [tsnGt_iff, show c + 1 - c = 1 by bv_omega]
  decide

private theorem tsnGe_add_one (c : Tsn) : tsnGe c (c + 1) = false := by
  rw [Bool.eq_false_iff, Ne, tsnGe_iff, show c - (c + 1) = -1 by bv_omega]
  decide

/-- The first TSN behind maps that were reset is accepted. -/
theorem ResetAsoc.MapsReset.accepts {s : ResetAsoc} (h : s.MapsReset) :
    s.accepts (s.cumulativeTsn + 1) = true := by
  have hgap : calcTsnToGap (s.cumulativeTsn + 1) s.mappingArrayBaseTsn = 0 := by
    rw [calcTsnToGap_eq, h.2]
    bv_omega
  rw [TsnMap.accepts, hgap, tsnGe_add_one, h.1]
  decide

/-- Behind both handlers the ends agree in everything but A's last acked TSN, unless the TSNs
happen to meet. -/
theorem inStep_iff {seq : ResetSeq} {a b b₀ : ResetAsoc} (hmaps : b₀.Receiving)
    (hb : ResetAsoc.Performed b₀ seq b)
    (ha : ResetAsoc.Adopted (b₀.sendingSeq + 1) (b₀.resetCum + 1) a) :
    InStep a b b₀.Seen ↔ TsnsMeet b₀ := by
  have hacum : a.cumulativeTsn = b₀.sendingSeq := by
    rw [ha.cumulativeTsn]
    bv_omega
  have hacked : a.lastAckedSeq = b₀.sendingSeq := by
    rw [ha.lastAckedSeq]
    bv_omega
  have hsackB : b.acceptsSack a.cumulativeTsn = !tsnGt b₀.lastAckedSeq b₀.sendingSeq := by
    rw [ResetAsoc.acceptsSack, hacum, hb.sendingSeq, hb.lastAckedSeq, tsnGt_add_one, Bool.and_true]
  constructor
  · intro h
    refine ⟨?_, ?_, ?_⟩
    · have := h.aAcked
      rw [hacked, ha.sendingSeq] at this
      rw [this]
      bv_omega
    · rw [← hmaps.seen_le_resetCum]
      intro tsn htsn
      exact hb.cumulativeTsn ▸ h.above tsn htsn
    · have := h.sackToB
      rw [hsackB] at this
      simpa using this
  · rintro ⟨hmeet, habove, hback⟩
    have hnext : a.sendingSeq = b.cumulativeTsn + 1 := by
      rw [ha.sendingSeq, hb.cumulativeTsn]
    have hbnext : b.sendingSeq = a.cumulativeTsn + 1 := by
      rw [hb.sendingSeq, hacum]
    have hacked' : a.lastAckedSeq = b.cumulativeTsn := by
      rw [hacked, hb.cumulativeTsn, hmeet]
    refine ⟨hnext, ?_, hbnext, ha.ssns, hb.ssns, ha.maps, hb.maps, ?_, ?_, ?_, ?_, ?_⟩
    · rw [hacked', hnext]
      bv_omega
    · intro tsn htsn
      exact hb.cumulativeTsn ▸ hmaps.seen_le_resetCum.2 habove tsn htsn
    · rw [hnext]
      exact hb.maps.accepts
    · rw [hbnext]
      exact ha.maps.accepts
    · have hself : tsnGt b.cumulativeTsn b.cumulativeTsn = false := by
        rw [Bool.eq_false_iff, Ne, tsnGt_iff, BitVec.sub_self]
        decide
      rw [ResetAsoc.acceptsSack, hacked', hnext, hself, tsnGt_add_one]
      rfl
    · rw [hsackB, hback]
      rfl

def noStreams : ResetAsoc.AddStreams := { out := false, inc := false, addingO := 0, addingI := 0 }

/-- The peer of an association before its first stream reset, with a TSN to send next. -/
def freshPeer (sendingSeq : Tsn) : ResetAsoc :=
  { freshReset with
    mappingArrayBaseTsn := 1000, cumulativeTsn := 999
    highestTsnInsideMap := 999, highestTsnInsideNrMap := 999
    strResetSeqOut := sendingSeq, strResetSeqIn := 1000
    sendingSeq := sendingSeq, lastAckedSeq := sendingSeq - 1 }

def askingReset : ResetAsoc :=
  { freshReset with
    streamResetOutstanding := 1, strReset := some 0
    controlSendQueue := [{ id := 0, params := [.tsnRequest 1000] }]
    nextChunk := 1, unanswered := [.tsnRequest 1000] }

/-- The request arrives twice, then both answers. -/
def doubledExchange : List ExchangeEvent :=
  [.request (resetEnv true), .request (resetEnv true), .response (resetEnv true) 1,
    .response (resetEnv true) 0]

theorem freshReset_sized (sendingSeq : Tsn) : freshReset.Sized ∧ (freshPeer sendingSeq).Sized :=
  ⟨⟨rfl, rfl⟩, ⟨rfl, rfl⟩⟩

theorem freshPeer_has (sendingSeq : Tsn) (k : ℕ) : (freshPeer sendingSeq).has k = false := by
  change (isSet (List.replicate 16 0) k || isSet (List.replicate 16 0) k) = false
  rw [isSet_replicate_zero]
  rfl

theorem freshPeer_received {sendingSeq tsn : Tsn} (h : (freshPeer sendingSeq).Seen tsn) :
    tsn = 999 := by
  rcases h with h | ⟨k, hk, -⟩
  · exact h
  · rw [freshPeer_has] at hk
    cases hk

theorem freshPeer_receiving (sendingSeq : Tsn) : (freshPeer sendingSeq).Receiving where
  toSized := (freshReset_sized sendingSeq).2
  size_le := (by decide : 16 ≤ TsnMap.mappingArrayLimit)
  map_le k hk := by
    have hzero : isSet (List.replicate 16 (0 : Byte)) k = true := hk
    rw [isSet_replicate_zero] at hzero
    cases hzero
  nr_le k hk := by
    have hzero : isSet (List.replicate 16 (0 : Byte)) k = true := hk
    rw [isSet_replicate_zero] at hzero
    cases hzero
  map_lt := (by decide : tsnGt (Serial.advance 1000 128) 999 = true)
  nr_lt := (by decide : tsnGt (Serial.advance 1000 128) 999 = true)
  cum_ge := (by decide : -1 ≤ Serial.dist 1000 999)
  cum_lt := (by decide : Serial.dist 1000 999 < 8 * (16 : ℕ))
  within k hk := by
    rw [freshPeer_has] at hk
    cases hk

end Sctp
