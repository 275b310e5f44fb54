import Sctp.SackReport

/-! Exactness of the gap reports of `sctp_send_sack`. -/
namespace Sctp
open Bitmap TsnMap

/-- The TSNs the receiver has: all up to the end of the contiguous prefix of the map, and those
whose bit is set. -/
def TsnMap.Received (s : TsnMap) (t : Tsn) : Prop :=
  tsnGe (s.mappingArrayBaseTsn + (BitVec.ofNat 32 s.leading - 1)) t = true ∨
    ∃ k, s.has k = true ∧ t = Serial.advance s.mappingArrayBaseTsn k

def SackChunk.Covers (c : SackChunk) (t : Tsn) : Prop :=
  tsnGe c.cumTsnAck t = true ∨ Reports c.gapAckBlks c.cumTsnAck t ∨
    Reports c.nrGapAckBlks c.cumTsnAck t

/-- A gap report says nothing wrong, and everything unless it ran out of room. -/
structure SackChunk.Exact (c : SackChunk) (s : TsnMap) : Prop where
  sound : ∀ t, c.Covers t → s.Received t
  complete : c.limitReached = false → ∀ t, s.Received t → c.Covers t
  gaps : WellFormedBlocks c.gapAckBlks
  nrGaps : WellFormedBlocks c.nrGapAckBlks

/-- No TSN beyond the contiguous prefix has been received. -/
def TsnMap.Contiguous (s : TsnMap) : Prop := ∀ k, s.leading ≤ k → s.has k = false

/-- The start of the map after the whole bytes of the contiguous prefix are dropped. -/
def TsnMap.slidBase (s : TsnMap) : Tsn :=
  Serial.advance s.mappingArrayBaseTsn (8 * (s.leading / 8))

/-- The one offset an NR-SACK pass misses: the highest TSN of an array, when it is in the first
bit of its byte and its number has wrapped past the start of the map. -/
def TsnMap.Missed (s : TsnMap) (mark : Tsn) (k : ℕ) : Prop :=
  Serial.advance s.mappingArrayBaseTsn k = mark ∧ mark ≤ s.slidBase ∧ k % 8 = 0

/-- When the report is complete. A SACK looks at no byte at all once the highest TSN has
wrapped past the start of the map. -/
def SackComplete (nrsack : Bool) (s : TsnMap) : Prop :=
  if nrsack then
    ∀ k, s.leading ≤ k → s.has k = true →
      (isSet s.mappingArray k = true ∧ ¬ s.Missed s.highestTsnInsideMap k) ∨
        (isSet s.nrMappingArray k = true ∧ ¬ s.Missed s.highestTsnInsideNrMap k)
  else s.Contiguous ∨ s.slidBase < s.highestTsn

/-- Everything in the contiguous prefix is behind the cumulative TSN. -/
theorem TsnMap.received_iff {s : TsnMap} (h : s.Marked) (t : Tsn) : s.Received t ↔
    tsnGe (s.mappingArrayBaseTsn + (BitVec.ofNat 32 s.leading - 1)) t = true ∨
      ∃ k, s.leading ≤ k ∧ s.has k = true ∧ t = Serial.advance s.mappingArrayBaseTsn k := by
  constructor
  · rintro (hc | ⟨k, hk, rfl⟩)
    · exact Or.inl hc
    · by_cases hkl : k < s.leading
      · left
        have hl := h.leading_lt
        have hdk : Serial.dist s.mappingArrayBaseTsn
            (Serial.advance s.mappingArrayBaseTsn k) = k :=
          Serial.dist_advance _ (by norm_num; omega)
        rw [tsnGe_iff_dist s.mappingArrayBaseTsn _ _ (by rw [h.dist_cum, hdk]; omega), h.dist_cum,
          hdk]
        omega
      · exact Or.inr ⟨k, by omega, hk, rfl⟩
  · rintro (hc | ⟨k, -, hk, rfl⟩)
    · exact Or.inl hc
    · exact Or.inr ⟨k, hk, rfl⟩

namespace TsnMap.Slid
variable {s s' : TsnMap} {q : ℕ} (hs : Slid s s' q)
include hs

/-- The mark `sctp_send_sack` picks is the larger one, as in the slide. -/
theorem markSlid_highest (h : s.Marked) : MarkSlid s.mappingArrayBaseTsn s.leading s.highestTsn
    (if tsnGt s'.highestTsnInsideMap s'.highestTsnInsideNrMap then s'.highestTsnInsideMap
      else s'.highestTsnInsideNrMap) := by
  have h1 := h.dist_map
  have h2 := h.dist_nr
  have hn := h.size_lt
  have hl := leading_le h.toSized
  have hH := h.dist_highestTsn
  have hm := hs.highMap
  have hnr := hs.highNr
  have hgt : tsnGt s'.highestTsnInsideMap s'.highestTsnInsideNrMap = true ↔
      Serial.dist s.mappingArrayBaseTsn s'.highestTsnInsideNrMap <
        Serial.dist s.mappingArrayBaseTsn s'.highestTsnInsideMap := by
    apply tsnGt_iff_dist
    rcases hm with hm | hm <;> rcases hnr with hnr | hnr <;> try rw [hm]
    all_goals try rw [hnr]
    all_goals omega
  generalize s'.highestTsnInsideMap = m at *
  generalize s'.highestTsnInsideNrMap = m' at *
  unfold MarkSlid
  rcases hm with rfl | hm <;> rcases hnr with rfl | hnr
  · left
    apply dist_inj
    rw [hH]
    split_ifs with hc
    · exact (max_eq_left (hgt.mp hc).le).symm
    · exact (max_eq_right (not_lt.mp (hc ∘ hgt.mpr))).symm
  · rcases le_or_gt (s.leading : ℤ)
      (Serial.dist s.mappingArrayBaseTsn s.highestTsnInsideMap) with hp | hp
    · left
      rw [if_pos (hgt.mpr (by omega))]
      exact dist_inj (by rw [hH]; omega)
    · right
      rw [hH]
      split_ifs with hc
      · have := hgt.mp hc
        omega
      · omega
  · rcases le_or_gt (s.leading : ℤ)
      (Serial.dist s.mappingArrayBaseTsn s.highestTsnInsideNrMap) with hp | hp
    · left
      rw [if_neg (fun hc => by have := hgt.mp hc; omega)]
      exact dist_inj (by rw [hH]; omega)
    · right
      rw [hH]
      split_ifs with hc
      · omega
      · have := mt hgt.mpr hc
        omega
  · right
    rw [hH]
    split_ifs <;> omega

theorem slidBase_eq {k : ℕ} (hk : s.leading ≤ k) (hh : s.has k = true) :
    q = 8 * (s.leading / 8) ∧ s'.mappingArrayBaseTsn = s.slidBase := by
  rcases hs.aligned with hq | hno
  · exact ⟨hq, by rw [hs.base, TsnMap.slidBase, ← hq]⟩
  · exact absurd (hh.symm.trans (hno k hk)) (by decide)

/-- How far a pass of an NR-SACK reaches for the map with highest mark `m`. -/
theorem lt_nrSackSiz_iff {m : Tsn} (h : s.Marked)
    (hd : Serial.dist s.mappingArrayBaseTsn m < 8 * s.mappingArraySize) {k : ℕ}
    (hk : s.leading ≤ k) (hh : s.has k = true)
    (hkm : (k : ℤ) ≤ Serial.dist s.mappingArrayBaseTsn m) :
    k < q + 8 * nrSackSiz m s'.mappingArrayBaseTsn ↔ ¬ s.Missed m k := by
  have hn := h.size_lt
  have hle := hs.le
  obtain ⟨hq, hb⟩ := hs.slidBase_eq hk hh
  obtain ⟨d, hdm⟩ := Int.eq_ofNat_of_zero_le (show 0 ≤ Serial.dist s.mappingArrayBaseTsn m by omega)
  rw [hdm] at hd hkm
  have hmiss : s.Missed m k ↔ k = d ∧ ¬ s'.mappingArrayBaseTsn < m ∧ k % 8 = 0 := by
    unfold Missed
    rw [← hb, BitVec.not_lt]
    refine and_congr_left' ?_
    have hdk : Serial.dist s.mappingArrayBaseTsn (Serial.advance s.mappingArrayBaseTsn k) = k :=
      Serial.dist_advance _ (by norm_num; omega)
    constructor
    · intro he
      rw [he, hdm] at hdk
      exact_mod_cast hdk.symm
    · rintro rfl
      exact dist_inj (hdk.trans hdm.symm)
  rw [hmiss, hs.base, nrSackSiz_eq hdm (by omega) (by omega), ← hs.base]
  split_ifs with hc
  · simp only [hc, not_true, false_and, and_false, not_false_iff, iff_true]
    omega
  · simp only [hc, not_false_iff, true_and]
    omega

end TsnMap.Slid

/-- With this much room no report is ever cut short. -/
def roomyEnv (nrsack : Bool) : SackEnv :=
  { nrsackSupported := nrsack, myRwnd := 0, dupTsns := [], trailingSpace := 2 ^ 20, mtu := 0 }

theorem roomyEnv_fits (nrsack : Bool) {n : ℕ} (hn : n ≤ 2 ^ 16) :
    (roomyEnv nrsack).fits n = true := by
  cases nrsack <;>
    simp only [SackEnv.fits, SackEnv.header, SackEnv.space, roomyEnv, minOverhead] <;>
    norm_num <;> omega

theorem TsnMap.Slid.getLsbD_or {s s' : TsnMap} {q : ℕ} (hs : Slid s s' q) (k : ℕ) :
    (s'.mappingArray.getD (k / 8) 0 ||| s'.nrMappingArray.getD (k / 8) 0).getLsbD (k % 8) =
      s.has (k + q) := by
  have h1 : (s'.mappingArray.getD (k / 8) 0).getLsbD (k % 8) = isSet s'.mappingArray k := rfl
  have h2 : (s'.nrMappingArray.getD (k / 8) 0).getLsbD (k % 8) = isSet s'.nrMappingArray k := rfl
  rw [BitVec.getLsbD_or, h1, h2, hs.isSet_map, hs.isSet_nr, has]

section exact
variable {s : TsnMap} (h : s.Marked)
include h

theorem not_tsnGe_cum {k : ℕ} (hk : s.leading ≤ k) (hh : s.has k = true) :
    tsnGe (s.mappingArrayBaseTsn + (BitVec.ofNat 32 s.leading - 1))
      (Serial.advance s.mappingArrayBaseTsn k) = false := by
  have hn := h.size_lt
  have hkn := lt_of_has h.toSized hh
  have hdk : Serial.dist s.mappingArrayBaseTsn (Serial.advance s.mappingArrayBaseTsn k) = k :=
    Serial.dist_advance _ (by norm_num; omega)
  rw [Bool.eq_false_iff, ne_eq,
    tsnGe_iff_dist s.mappingArrayBaseTsn _ _ (by rw [h.dist_cum, hdk]; omega), h.dist_cum, hdk]
  omega

/-- A report made of the bits `r` beyond the cumulative TSN is exact when these are all. -/
theorem exact_iff {c : SackChunk} {r : ℕ → Prop}
    (hcum : c.cumTsnAck = s.mappingArrayBaseTsn + (BitVec.ofNat 32 s.leading - 1))
    (hg : WellFormedBlocks c.gapAckBlks) (hnr : WellFormedBlocks c.nrGapAckBlks)
    (hr : ∀ k, r k → s.leading ≤ k ∧ s.has k = true)
    (hsound : ∀ t, Reports c.gapAckBlks c.cumTsnAck t ∨ Reports c.nrGapAckBlks c.cumTsnAck t →
      ∃ k, r k ∧ t = Serial.advance s.mappingArrayBaseTsn k)
    (hcomplete : c.limitReached = false → ∀ k, r k →
      Reports c.gapAckBlks c.cumTsnAck (Serial.advance s.mappingArrayBaseTsn k) ∨
        Reports c.nrGapAckBlks c.cumTsnAck (Serial.advance s.mappingArrayBaseTsn k)) :
    c.Exact s ↔
      (c.limitReached = false → ∀ k, s.leading ≤ k → s.has k = true → r k) := by
  constructor
  · intro he hlim k hk hh
    have := he.complete hlim (Serial.advance s.mappingArrayBaseTsn k) (Or.inr ⟨k, hh, rfl⟩)
    unfold SackChunk.Covers at this
    rw [hcum, not_tsnGe_cum h hk hh, ← hcum] at this
    obtain ⟨k', hk', heq⟩ := hsound _ (this.resolve_left (by decide))
    have hn := h.size_lt
    have h1 := lt_of_has h.toSized hh
    have h2 := lt_of_has h.toSized (hr k' hk').2
    rw [Serial.advance_inj (by omega) (by omega)] at heq
    exact heq ▸ hk'
  · intro hall
    refine ⟨?_, ?_, hg, hnr⟩
    · rintro t (ht | ht)
      · exact Or.inl (hcum ▸ ht)
      · obtain ⟨k, hk, rfl⟩ := hsound t ht
        exact Or.inr ⟨k, (hr k hk).2, rfl⟩
    · intro hlim t ht
      rw [received_iff h] at ht
      unfold SackChunk.Covers
      rw [hcum]
      rcases ht with ht | ⟨k, hk, hh, rfl⟩
      · exact Or.inl ht
      · exact Or.inr (hcum ▸ hcomplete hlim k (hall hlim k hk hh))

/-- A SACK is exact unless bits beyond the cumulative TSN are hidden by the wrap. -/
theorem sack_exact_iff (env : SackEnv) (henv : env.nrsackSupported = false) :
    (sendSack env s).2.Exact s ↔ s.Contiguous ∨ s.slidBase < s.highestTsn := by
  obtain ⟨q, hs⟩ := slideMappingArrays_slid h
  have hn := h.size_lt
  have hle := hs.le
  have hdH : (8 * s.mappingArraySize : ℤ) - 2 ^ 31 <
        Serial.dist s.mappingArrayBaseTsn s.highestTsn ∧
      Serial.dist s.mappingArrayBaseTsn s.highestTsn < 8 * s.mappingArraySize := by
    have h1 := h.dist_map
    have h2 := h.dist_nr
    rw [h.dist_highestTsn]
    omega
  have hsiz : (s.leading : ℤ) ≤ Serial.dist s.mappingArrayBaseTsn s.highestTsn →
      sackSiz s.highestTsn s.slideMappingArrays.mappingArrayBaseTsn =
        if s.slideMappingArrays.mappingArrayBaseTsn < s.highestTsn then
          ((Serial.dist s.mappingArrayBaseTsn s.highestTsn).toNat - q) / 8 + 1
        else 0 := by
    intro hl
    have := sackSiz_eq (b := s.mappingArrayBaseTsn) (m := s.highestTsn) (q := q)
      (d := (Serial.dist s.mappingArrayBaseTsn s.highestTsn).toNat) (by omega) (by omega) (by omega)
    rwa [← hs.base] at this
  have hpass : s.PassReports s.has _ _ (sackGaps env s.slideMappingArrays) :=
    hs.passReports h (hs.markSlid_highest h) hdH (fun k hk => h.le_dist_highestTsn hk)
      (fun i => s.slideMappingArrays.mappingArray.getD i 0 |||
        s.slideMappingArrays.nrMappingArray.getD i 0) hs.getLsbD_or sackSiz
      (fun hl => by rw [hsiz hl]; split_ifs <;> omega) env.fits
  rw [sendSack, buildSack, henv, if_neg (by decide)]
  refine (exact_iff h (r := fun k => s.leading ≤ k ∧ s.has k = true ∧
    k < q + 8 * sackSiz s.highestTsn s.slideMappingArrays.mappingArrayBaseTsn) hs.cum
    hpass.wellFormed wellFormedBlocks_nil (fun k hk => ⟨hk.1, hk.2.1⟩) ?_ ?_).trans ?_
  · rintro t (ht | ht)
    · obtain ⟨k, h1, h2, h3, rfl⟩ := hpass.sound t ht
      exact ⟨k, ⟨h1, h3, h2⟩, rfl⟩
    · exact absurd ht (not_reports_nil _ _)
  · intro hlim k hk
    exact Or.inl (hpass.complete hlim k hk.1 hk.2.2 hk.2.1)
  constructor
  · intro hall
    by_contra hcon
    obtain ⟨hnc, hwrap⟩ := not_or.mp hcon
    obtain ⟨k, hk⟩ := not_forall.mp hnc
    obtain ⟨hk, hh⟩ := Classical.not_imp.mp hk
    rw [Bool.not_eq_false] at hh
    have hkH := h.le_dist_highestTsn hh
    have hsiz := hsiz (by omega)
    rw [(hs.slidBase_eq hk hh).2, if_neg hwrap] at hsiz
    have hlim : (sackGaps env s.slideMappingArrays).limitReached = false := by
      have hmark := (hs.mark_gt h (hs.markSlid_highest h) hdH).2
      unfold sackGaps
      generalize (if tsnGt _ _ = true then _ else _ : Tsn) = m at hmark ⊢
      dsimp only
      split_ifs with hc
      · rw [hmark hc, (hs.slidBase_eq hk hh).2, hsiz]
        rfl
      · rfl
    have := (hall hlim k hk hh).2.2
    rw [(hs.slidBase_eq hk hh).2, hsiz] at this
    omega
  · rintro (hc | hlt) _ k hk hh
    · exact absurd (hh.symm.trans (hc k hk)) (by decide)
    · have hkH := h.le_dist_highestTsn hh
      have hsiz := hsiz (by omega)
      rw [(hs.slidBase_eq hk hh).2, if_pos hlt] at hsiz
      refine ⟨hk, hh, ?_⟩
      rw [(hs.slidBase_eq hk hh).2, hsiz]
      omega

/-- An NR-SACK is exact, whatever the room, unless it has to report a missed bit. -/
theorem nrSack_exact_iff : (∀ env : SackEnv, env.nrsackSupported = true →
      (sendSack env s).2.Exact s) ↔ SackComplete true s := by
  obtain ⟨q, hs⟩ := slideMappingArrays_slid h
  have hn := h.size_lt
  have hle := hs.le
  let r := fun k => s.leading ≤ k ∧
    ((isSet s.mappingArray k = true ∧ ¬ s.Missed s.highestTsnInsideMap k) ∨
      (isSet s.nrMappingArray k = true ∧ ¬ s.Missed s.highestTsnInsideNrMap k))
  have hsiz : ∀ {m : Tsn}, (s.leading : ℤ) ≤ Serial.dist s.mappingArrayBaseTsn m →
      Serial.dist s.mappingArrayBaseTsn m < 8 * s.mappingArraySize →
      8 * nrSackSiz m s.slideMappingArrays.mappingArrayBaseTsn < 2 ^ 14 + 8 := by
    intro m hl hlt
    have := nrSackSiz_eq (b := s.mappingArrayBaseTsn) (m := m) (q := q)
      (d := (Serial.dist s.mappingArrayBaseTsn m).toNat) (by omega) (by omega) (by omega)
    rw [hs.base, this]
    split_ifs <;> omega
  have hgaps : ∀ env, s.PassReports (isSet s.mappingArray) _ _
      (nrSackGaps env s.slideMappingArrays) := fun env =>
    hs.passReports h hs.highMap h.dist_map (fun k hk => h.le_dist_map hk)
      (fun i => s.slideMappingArrays.mappingArray.getD i 0) hs.isSet_map nrSackSiz
      (fun hl => by have := hsiz hl h.dist_map.2; omega) env.fits
  have hnrGaps : ∀ env n, s.PassReports (isSet s.nrMappingArray) _ _
      (nrSackNrGaps env s.slideMappingArrays n) := fun env n =>
    hs.passReports h hs.highNr h.dist_nr (fun k hk => h.le_dist_nr hk)
      (fun i => s.slideMappingArrays.nrMappingArray.getD i 0) hs.isSet_nr nrSackSiz
      (fun hl => by have := hsiz hl h.dist_nr.2; omega) (fun i => env.fits (n + i))
  have hmap : ∀ k, s.leading ≤ k → isSet s.mappingArray k = true →
      (k < q + 8 * nrSackSiz s.highestTsnInsideMap s.slideMappingArrays.mappingArrayBaseTsn ↔
        ¬ s.Missed s.highestTsnInsideMap k) := fun k hk hb =>
    hs.lt_nrSackSiz_iff h h.dist_map.2 hk (by simp [has, hb]) (h.le_dist_map hb)
  have hnr : ∀ k, s.leading ≤ k → isSet s.nrMappingArray k = true →
      (k < q + 8 * nrSackSiz s.highestTsnInsideNrMap s.slideMappingArrays.mappingArrayBaseTsn ↔
        ¬ s.Missed s.highestTsnInsideNrMap k) := fun k hk hb =>
    hs.lt_nrSackSiz_iff h h.dist_nr.2 hk (by simp [has, hb]) (h.le_dist_nr hb)
  have hchunk : ∀ env : SackEnv, env.nrsackSupported = true → ((sendSack env s).2.Exact s ↔
      ((sendSack env s).2.limitReached = false → ∀ k, s.leading ≤ k → s.has k = true → r k)) := by
    intro env henv
    rw [sendSack, buildSack, henv, if_pos rfl]
    refine exact_iff h hs.cum (hgaps env).wellFormed ?_ ?_ ?_ ?_
    · simp only
      split_ifs
      · exact wellFormedBlocks_nil
      · exact (hnrGaps env _).wellFormed
    · rintro k ⟨hk, hb | hb⟩
      · exact ⟨hk, by simp [has, hb.1]⟩
      · exact ⟨hk, by simp [has, hb.1]⟩
    · rintro t (ht | ht)
      · obtain ⟨k, h1, h2, h3, rfl⟩ := (hgaps env).sound t ht
        exact ⟨k, ⟨h1, Or.inl ⟨h3, (hmap k h1 h3).mp h2⟩⟩, rfl⟩
      · simp only at ht
        split_ifs at ht with hc
        · exact absurd ht (not_reports_nil _ _)
        · obtain ⟨k, h1, h2, h3, rfl⟩ := (hnrGaps env _).sound t ht
          exact ⟨k, ⟨h1, Or.inr ⟨h3, (hnr k h1 h3).mp h2⟩⟩, rfl⟩
    · intro hlim k hk
      simp only [Bool.or_eq_false_iff] at hlim
      obtain ⟨hl1, hl2⟩ := hlim
      simp only [hl1, Bool.false_eq_true, if_false] at hl2 ⊢
      rcases hk with ⟨hk, hb | hb⟩
      · exact Or.inl ((hgaps env).complete hl1 k hk ((hmap k hk hb.1).mpr hb.2) hb.1)
      · exact Or.inr ((hnrGaps env _).complete hl2 k hk ((hnr k hk hb.1).mpr hb.2) hb.1)
  rw [SackComplete, if_pos rfl]
  constructor
  · intro hall k hk hh
    have he := hall (roomyEnv true) rfl
    rw [hchunk _ rfl] at he
    refine (he ?_ k hk hh).2
    obtain ⟨hl1, hlen⟩ : (nrSackGaps (roomyEnv true) s.slideMappingArrays).limitReached = false ∧
        (nrSackGaps (roomyEnv true) s.slideMappingArrays).blocks.length ≤ 2 ^ 14 :=
      hs.pass_room h hs.highMap h.dist_map _ nrSackSiz
        (fun hl => by have := hsiz hl h.dist_map.2; omega)
        (fun n hn => roomyEnv_fits true (by omega))
    have hl2 : (nrSackNrGaps (roomyEnv true) s.slideMappingArrays
        (nrSackGaps (roomyEnv true) s.slideMappingArrays).blocks.length).limitReached = false :=
      (hs.pass_room h hs.highNr h.dist_nr _ nrSackSiz (N := 2 ^ 14)
        (fun hl => by have := hsiz hl h.dist_nr.2; omega)
        (fun n hn => roomyEnv_fits true (by omega))).1
    have hnrs : (roomyEnv true).nrsackSupported = true := rfl
    rw [sendSack, buildSack, if_pos hnrs]
    simp only [hl1, hl2, Bool.false_eq_true, if_false, Bool.or_false]
  · intro hall env henv
    rw [hchunk env henv]
    exact fun _ k hk hh => ⟨hk, hall k hk hh⟩

end exact

/-- A gap report is exact, however little room it has, if and only if `SackComplete` holds. -/
theorem sendSack_exact_iff (s : TsnMap) (h : s.Marked) (nrsack : Bool) :
    (∀ env : SackEnv, env.nrsackSupported = nrsack → (sendSack env s).2.Exact s) ↔
      SackComplete nrsack s := by
  cases nrsack with
  | false =>
    rw [SackComplete, if_neg (by decide)]
    constructor
    · intro hall
      exact (sack_exact_iff h (roomyEnv false) rfl).mp (hall _ rfl)
    · intro hc env henv
      exact (sack_exact_iff h env henv).mpr hc
  | true => exact nrSack_exact_iff h

/-- A map of initial size that starts at `base` and holds `base + 10` and, non-revocable,
`base + 12`. -/
def sparseMap (base : Tsn) : TsnMap where
  mappingArray := [0, 4] ++ List.replicate 14 0
  nrMappingArray := [0, 16] ++ List.replicate 14 0
  mappingArraySize := 16
  mappingArrayBaseTsn := base
  cumulativeTsn := base - 1
  highestTsnInsideMap := base + 10
  highestTsnInsideNrMap := base + 12

theorem sparseMap_bits (base : Tsn) (k : ℕ) :
    (isSet (sparseMap base).mappingArray k = true → k = 10) ∧
      (isSet (sparseMap base).nrMappingArray k = true → k = 12) := by
  have hmap : ∀ k < 128, isSet ([0, 4] ++ List.replicate 14 0) k = true → k = 10 := by
    decide +kernel
  have hnr : ∀ k < 128, isSet ([0, 16] ++ List.replicate 14 0) k = true → k = 12 := by
    decide +kernel
  exact ⟨fun hk => hmap k (lt_of_isSet hk) hk, fun hk => hnr k (lt_of_isSet hk) hk⟩

theorem sparseMap_marked (base : Tsn) : (sparseMap base).Marked := by
  have hlt : ∀ n < 128, tsnGt (Serial.advance base 128) (Serial.advance base n) = true := by
    intro n hn
    have h1 : Serial.dist base (Serial.advance base 128) = (128 : ℕ) :=
      Serial.dist_advance base (by norm_num)
    have h2 : Serial.dist base (Serial.advance base n) = n :=
      Serial.dist_advance base (by norm_num; omega)
    rw [tsnGt_iff_dist base _ _ (by rw [h1, h2]; omega), h1, h2]
    exact_mod_cast hn
  refine ⟨⟨rfl, rfl⟩, ?_, ?_, ?_, hlt 10 (by norm_num), hlt 12 (by norm_num)⟩
  · change 16 ≤ mappingArrayLimit
    decide
  · intro k hk
    rw [(sparseMap_bits base k).1 hk]
    exact Serial.ge_self _
  · intro k hk
    rw [(sparseMap_bits base k).2 hk]
    exact Serial.ge_self _

theorem sendSack_sparseMap_exact : (sparseMap 1000).Marked ∧
    ∀ env : SackEnv, (sendSack env (sparseMap 1000)).2.Exact (sparseMap 1000) := by
  refine ⟨sparseMap_marked 1000, ?_⟩
  intro env
  refine (sendSack_exact_iff (sparseMap 1000) (sparseMap_marked 1000) env.nrsackSupported).mpr ?_
    env rfl
  unfold SackComplete
  split_ifs
  · intro k _ hk
    rcases Bool.or_eq_true_iff.mp hk with hb | hb
    · refine Or.inl ⟨hb, fun hm => ?_⟩
      exact absurd hm.2.1 (by decide +kernel)
    · refine Or.inr ⟨hb, fun hm => ?_⟩
      exact absurd hm.2.1 (by decide +kernel)
  · exact Or.inr (by decide +kernel)

/-- TSNs `2` and `4` wait behind a hole that spans the wrap: the SACK does not mention them. -/
theorem sendSack_not_exact_of_wrap : (sparseMap 0xfffffff8).Marked ∧
    ¬ (sendSack (roomyEnv false) (sparseMap 0xfffffff8)).2.Exact (sparseMap 0xfffffff8) := by
  refine ⟨sparseMap_marked _, ?_⟩
  intro he
  have hrec : (sparseMap 0xfffffff8).Received 2 := Or.inr ⟨10, by decide, by decide⟩
  have hlim : (sendSack (roomyEnv false) (sparseMap 0xfffffff8)).2.limitReached = false := by
    decide +kernel
  rcases he.complete hlim 2 hrec with hc | ⟨b, hb, _⟩ | ⟨b, hb, _⟩
  · revert hc
    decide +kernel
  · have hnil : (sendSack (roomyEnv false) (sparseMap 0xfffffff8)).2.gapAckBlks = [] := by
      decide +kernel
    rw [hnil] at hb
    exact absurd hb List.not_mem_nil
  · have hnil : (sendSack (roomyEnv false) (sparseMap 0xfffffff8)).2.nrGapAckBlks = [] := by
      decide +kernel
    rw [hnil] at hb
    exact absurd hb List.not_mem_nil

end Sctp
