import Sctp.MappingArray

/-! What `sctp_slide_mapping_arrays` does to the two bitmaps. -/
namespace Sctp
open Bitmap

namespace TsnMap

theorem dist_sub_one (b : Tsn) {p : ℕ} (hp : p < 2 ^ 31) :
    Serial.dist b (b + (BitVec.ofNat 32 p - 1)) = p - 1 := by
  simp only [Serial.dist, BitVec.toInt_eq_toNat_cond, BitVec.toNat_sub, BitVec.toNat_add,
    BitVec.toNat_ofNat, BitVec.ofNat_eq_ofNat]
  have hb := b.isLt
  split_ifs <;> omega

/-- A TSN in front of the one at distance `c`. -/
theorem dist_of_add_one {b x : Tsn} {c : ℕ} (h : x + 1 = Serial.advance b c) (hc : c < 2 ^ 31) :
    Serial.dist b x = c - 1 := by
  have hx : x = b + (BitVec.ofNat 32 c - 1) := by
    unfold Serial.advance at h
    bv_omega
  rw [hx]
  exact dist_sub_one b hc

theorem dist_add_of_add_one_eq {b m : Tsn} (he : m + 1 = b) {n : ℕ} (hn : n < 2 ^ 31) :
    Serial.dist b (m + BitVec.ofNat 32 n) = n - 1 := by
  subst he
  simp only [Serial.dist, BitVec.toInt_eq_toNat_cond, BitVec.toNat_sub, BitVec.toNat_add,
    BitVec.toNat_ofNat, BitVec.ofNat_eq_ofNat]
  have hm := m.isLt
  split_ifs <;> omega

namespace Marked
variable {s : TsnMap} (h : s.Marked)
include h

theorem leading_lt : s.leading < 2 ^ 14 := by
  have := leading_le h.toSized
  have := h.size_lt
  omega

theorem dist_cum : Serial.dist s.mappingArrayBaseTsn
    (s.mappingArrayBaseTsn + (BitVec.ofNat 32 s.leading - 1)) = s.leading - 1 :=
  dist_sub_one _ (by have := h.leading_lt; omega)

/-- One of the marks reaches the end of the contiguous prefix unless that prefix is empty. -/
theorem leading_sub_one_le : (s.leading : ℤ) - 1 ≤
    max (Serial.dist s.mappingArrayBaseTsn s.highestTsn) (-1) := by
  by_cases hp : s.leading = 0
  · rw [hp]
    exact le_max_right _ _
  · have := h.le_dist_highestTsn (has_of_lt_leading h.toSized (k := s.leading - 1) (by omega))
    refine le_max_of_le_left ?_
    omega

theorem no_has_of_cum_gt
    (hc : Serial.dist s.mappingArrayBaseTsn s.highestTsn < (s.leading : ℤ) - 1) (k : ℕ) :
    s.has k = false := by
  rw [Bool.eq_false_iff]
  intro hk
  have h1 := h.le_dist_highestTsn hk
  have h2 := h.leading_sub_one_le
  omega

theorem updateCumAck : (s.updateCumAck s.leading).Marked := by
  have hd := h.dist_cum
  have h1 := h.dist_map
  have h2 := h.dist_nr
  have hs := h.size_lt
  have hl := leading_le h.toSized
  simp only [TsnMap.updateCumAck]
  split_ifs with hc
  · rw [Bool.and_eq_true, tsnGt_iff_dist s.mappingArrayBaseTsn _ _ (by rw [hd]; omega),
      tsnGt_iff_dist s.mappingArrayBaseTsn _ _ (by rw [hd]; omega), hd] at hc
    have hno := h.no_has_of_cum_gt (by rw [h.dist_highestTsn]; exact max_lt hc.1 hc.2)
    have hz : s.leading = 0 := by
      by_contra hne
      have := hno 0
      rw [has_of_lt_leading h.toSized (by omega)] at this
      exact Bool.false_ne_true this.symm
    have hlt : tsnGt (Serial.advance s.mappingArrayBaseTsn (8 * s.mappingArraySize))
        (s.mappingArrayBaseTsn + (BitVec.ofNat 32 s.leading - 1)) = true := by
      have ha : Serial.dist s.mappingArrayBaseTsn
          (Serial.advance s.mappingArrayBaseTsn (8 * s.mappingArraySize)) =
          (8 * s.mappingArraySize : ℕ) := Serial.dist_advance _ (by norm_num; omega)
      rw [tsnGt_iff_dist s.mappingArrayBaseTsn _ _ (by rw [hd, ha]; omega), hd, ha]
      omega
    refine ⟨⟨h.map, h.nr⟩, h.size_le, ?_, ?_, hlt, hlt⟩
    · intro k hk
      have := hno k
      simp only [has, Bool.or_eq_false_iff] at this
      exact absurd (hk.symm.trans this.1) (by decide)
    · intro k hk
      have := hno k
      simp only [has, Bool.or_eq_false_iff] at this
      exact absurd (hk.symm.trans this.2) (by decide)
  · exact ⟨⟨h.map, h.nr⟩, h.size_le, h.map_le, h.nr_le, h.map_lt, h.nr_lt⟩

end Marked

/-- What the slide may do to a highest mark: a mark behind the cumulative TSN may be moved up,
but not past it. -/
def MarkSlid (b : Tsn) (p : ℕ) (m m' : Tsn) : Prop :=
  m' = m ∨ Serial.dist b m < p ∧ -1 ≤ Serial.dist b m' ∧ Serial.dist b m' < p

/-- The effect of `sctp_slide_mapping_arrays`: `q` bits in front of the map are dropped, and
only bits of the contiguous prefix are among them. -/
structure Slid (s s' : TsnMap) (q : ℕ) : Prop extends s'.Sized where
  le : q ≤ s.leading
  lt : s.leading < q + 8
  aligned : q = 8 * (s.leading / 8) ∨ ∀ k, s.leading ≤ k → s.has k = false
  base : s'.mappingArrayBaseTsn = Serial.advance s.mappingArrayBaseTsn q
  cum : s'.cumulativeTsn = s.mappingArrayBaseTsn + (BitVec.ofNat 32 s.leading - 1)
  isSet_map : ∀ k, isSet s'.mappingArray k = isSet s.mappingArray (k + q)
  isSet_nr : ∀ k, isSet s'.nrMappingArray k = isSet s.nrMappingArray (k + q)
  size : s'.mappingArraySize = s.mappingArraySize
  highMap : MarkSlid s.mappingArrayBaseTsn s.leading s.highestTsnInsideMap s'.highestTsnInsideMap
  highNr : MarkSlid s.mappingArrayBaseTsn s.leading s.highestTsnInsideNrMap s'.highestTsnInsideNrMap

theorem MarkSlid.refl (b : Tsn) (p : ℕ) (m : Tsn) : MarkSlid b p m m := Or.inl rfl

theorem Marked.updateCumAck_markSlid {s : TsnMap} (h : s.Marked) :
    MarkSlid s.mappingArrayBaseTsn s.leading s.highestTsnInsideMap
        (s.updateCumAck s.leading).highestTsnInsideMap ∧
      MarkSlid s.mappingArrayBaseTsn s.leading s.highestTsnInsideNrMap
        (s.updateCumAck s.leading).highestTsnInsideNrMap := by
  have hd := h.dist_cum
  have h1 := h.dist_map
  have h2 := h.dist_nr
  have hs := h.size_lt
  have hl := leading_le h.toSized
  simp only [TsnMap.updateCumAck]
  split_ifs with hc
  · rw [Bool.and_eq_true, tsnGt_iff_dist s.mappingArrayBaseTsn _ _ (by rw [hd]; omega),
      tsnGt_iff_dist s.mappingArrayBaseTsn _ _ (by rw [hd]; omega), hd] at hc
    exact ⟨Or.inr ⟨by omega, by rw [hd]; omega, by rw [hd]; omega⟩,
      Or.inr ⟨by omega, by rw [hd]; omega, by rw [hd]; omega⟩⟩
  · exact ⟨MarkSlid.refl _ _ _, MarkSlid.refl _ _ _⟩

theorem updateCumAck_frame (s : TsnMap) (p : ℕ) :
    (s.updateCumAck p).mappingArray = s.mappingArray ∧
      (s.updateCumAck p).nrMappingArray = s.nrMappingArray ∧
      (s.updateCumAck p).mappingArraySize = s.mappingArraySize ∧
      (s.updateCumAck p).mappingArrayBaseTsn = s.mappingArrayBaseTsn ∧
      (s.updateCumAck p).cumulativeTsn =
        s.mappingArrayBaseTsn + (BitVec.ofNat 32 p - 1) := by
  simp only [TsnMap.updateCumAck]
  split_ifs <;> simp

/-- The slide, when the cumulative TSN is the highest one received. -/
theorem slid_clearArrays {s : TsnMap} (h : s.Marked) (hp : 8 ≤ s.leading)
    (hc : (s.updateCumAck s.leading).cumulativeTsn = (s.updateCumAck s.leading).highestTsn) :
    Slid s ((s.updateCumAck s.leading).clearArrays s.leading) s.leading := by
  obtain ⟨f1, f2, f3, f4, f5⟩ := updateCumAck_frame s s.leading
  have hl := leading_le h.toSized
  have hd := h.dist_cum
  have hm := h.updateCumAck
  have hhigh : Serial.dist s.mappingArrayBaseTsn (s.updateCumAck s.leading).highestTsn =
      s.leading - 1 := by rw [← hc, f5, hd]
  have hno : ∀ k, s.leading ≤ k → s.has k = false := by
    intro k hk
    rw [Bool.eq_false_iff]
    intro hk'
    have := hm.le_dist_highestTsn (k := k) (by simpa [has, f1, f2] using hk')
    rw [f4, hhigh] at this
    omega
  have hclr : min ((s.leading + 7) / 8) s.mappingArraySize = (s.leading + 7) / 8 :=
    min_eq_left (by omega)
  have hzero : ∀ a : List Byte, (∀ k, isSet a k = true → s.has k = true) → ∀ k,
      isSet (zeroBytes a ((s.leading + 7) / 8)) k = isSet a (k + s.leading) := by
    intro a ha k
    have hr : isSet a (k + s.leading) = false := by
      rw [Bool.eq_false_iff]
      intro hk
      exact absurd (ha _ hk) (by rw [hno _ (by omega)]; decide)
    rw [hr, isSet_zeroBytes, Bool.and_eq_false_iff]
    by_cases hk : 8 * ((s.leading + 7) / 8) ≤ k
    · right
      rw [Bool.eq_false_iff]
      intro hk'
      exact absurd (ha _ hk') (by rw [hno _ (by omega)]; decide)
    · exact Or.inl (by simpa using hk)
  have hmax := hm.dist_highestTsn
  rw [f4, hhigh] at hmax
  have hms := h.updateCumAck_markSlid
  have hcum : -1 ≤ ((s.leading : ℤ) - 1) ∧ ((s.leading : ℤ) - 1) < s.leading := by omega
  have hlow : ∀ {m m' : Tsn}, MarkSlid s.mappingArrayBaseTsn s.leading m m' →
      Serial.dist s.mappingArrayBaseTsn m' ≤ s.leading - 1 →
      MarkSlid s.mappingArrayBaseTsn s.leading m
        (s.mappingArrayBaseTsn + (BitVec.ofNat 32 s.leading - 1)) := by
    rintro m m' (rfl | ⟨hlt, _⟩) hle
    · exact Or.inr ⟨by omega, by rw [hd]; exact hcum⟩
    · exact Or.inr ⟨hlt, by rw [hd]; exact hcum⟩
  have hlen : (s.leading + 7) / 8 ≤ s.mappingArraySize := by omega
  refine
    { map := ?_, nr := ?_, le := le_rfl, lt := by omega, aligned := Or.inr hno, base := ?_,
      cum := f5, isSet_map := ?_, isSet_nr := ?_, size := f3, highMap := ?_, highNr := ?_ }
  · simp only [clearArrays, f1, f3, hclr]
    rw [length_zeroBytes (by rw [h.map]; exact hlen), h.map]
  · simp only [clearArrays, f2, f3, hclr]
    rw [length_zeroBytes (by rw [h.nr]; exact hlen), h.nr]
  · simp only [clearArrays, f5, Serial.advance]
    bv_omega
  · simp only [clearArrays, f1, f3, hclr]
    exact hzero _ (fun k hk => by simp [has, hk])
  · simp only [clearArrays, f2, f3, hclr]
    exact hzero _ (fun k hk => by simp [has, hk])
  · simp only [clearArrays, f5]
    exact hlow hms.1 (hmax ▸ le_max_left _ _)
  · simp only [clearArrays, f5]
    exact hlow hms.2 (hmax ▸ le_max_right _ _)

/-- The slide, when bits beyond the contiguous prefix are kept. -/
theorem slid_shiftArrays {s : TsnMap} (h : s.Marked) (hp : 8 ≤ s.leading) {d : ℕ}
    (hd : Serial.dist s.mappingArrayBaseTsn (s.updateCumAck s.leading).highestTsn <
      8 * (d + s.leading / 8 : ℕ)) :
    Slid s ((s.updateCumAck s.leading).shiftArrays (s.leading / 8) d) (8 * (s.leading / 8)) := by
  obtain ⟨f1, f2, f3, f4, f5⟩ := updateCumAck_frame s s.leading
  have hl := leading_le h.toSized
  have hs := h.size_lt
  have hm := h.updateCumAck
  have hms := h.updateCumAck_markSlid
  have hmove : ∀ a : List Byte, a.length = s.mappingArraySize →
      (∀ k, isSet a k = true → s.has k = true) → ∀ k,
      isSet (moveBytes a (s.leading / 8) d s.mappingArraySize) k =
        isSet a (k + 8 * (s.leading / 8)) := by
    intro a ha hsub k
    rw [isSet_moveBytes ha]
    by_cases hk : k < 8 * d
    · simp [hk]
    · rw [show isSet a (k + 8 * (s.leading / 8)) = false from ?_]
      · simp
      · rw [Bool.eq_false_iff]
        intro hk'
        have := hm.le_dist_highestTsn (k := k + 8 * (s.leading / 8))
          (by simpa [has, f1, f2] using hsub _ hk')
        rw [f4] at this
        push_cast at this hd
        omega
  have hbump : ∀ {m m' : Tsn}, MarkSlid s.mappingArrayBaseTsn s.leading m m' →
      MarkSlid s.mappingArrayBaseTsn s.leading m
        (if m' + 1 = s.mappingArrayBaseTsn then m' + BitVec.ofNat 32 (8 * (s.leading / 8))
          else m') := by
    intro m m' hmm
    split_ifs with he
    · have hdist := dist_add_of_add_one_eq he (n := 8 * (s.leading / 8)) (by omega)
      have hm' := dist_add_of_add_one_eq he (n := 0) (by norm_num)
      simp only [BitVec.add_zero] at hm'
      refine Or.inr ⟨?_, by rw [hdist]; omega, by rw [hdist]; omega⟩
      rcases hmm with rfl | hlt
      · omega
      · exact hlt.1
    · exact hmm
  refine
    { map := by simp [shiftArrays], nr := by simp [shiftArrays], le := by omega, lt := by omega,
      aligned := Or.inl rfl, base := ?_, cum := f5, isSet_map := ?_, isSet_nr := ?_, size := f3,
      highMap := ?_, highNr := ?_ }
  · simp only [shiftArrays, f4, Serial.advance]
  · simp only [shiftArrays, f1, f3]
    exact hmove _ h.map (fun k hk => by simp [has, hk])
  · simp only [shiftArrays, f2, f3]
    exact hmove _ h.nr (fun k hk => by simp [has, hk])
  · simp only [shiftArrays, f4]
    exact hbump hms.1
  · simp only [shiftArrays, f4]
    exact hbump hms.2

theorem slid_updateCumAck {s : TsnMap} (h : s.Marked) (hp : s.leading < 8) :
    Slid s (s.updateCumAck s.leading) 0 := by
  obtain ⟨f1, f2, f3, f4, f5⟩ := updateCumAck_frame s s.leading
  obtain ⟨h1, h2⟩ := h.updateCumAck_markSlid
  exact
    { map := by rw [f1, f3, h.map], nr := by rw [f2, f3, h.nr], le := Nat.zero_le _, lt := hp,
      aligned := Or.inl (by omega), base := by rw [f4, Serial.advance_zero], cum := f5,
      isSet_map := fun k => by rw [f1, Nat.add_zero],
      isSet_nr := fun k => by rw [f2, Nat.add_zero], size := f3, highMap := h1, highNr := h2 }

/-- The marks are moved only when nothing is set. -/
theorem updateCumAck_marks {s : TsnMap} (h : s.Marked) :
    ((s.updateCumAck s.leading).highestTsnInsideMap = s.highestTsnInsideMap ∧
        (s.updateCumAck s.leading).highestTsnInsideNrMap = s.highestTsnInsideNrMap) ∨
      ∀ k, s.has k = false := by
  have hd := h.dist_cum
  have h1 := h.dist_map
  have h2 := h.dist_nr
  have hs := h.size_lt
  have hl := leading_le h.toSized
  simp only [TsnMap.updateCumAck]
  split_ifs with hc
  · rw [Bool.and_eq_true, tsnGt_iff_dist s.mappingArrayBaseTsn _ _ (by rw [hd]; omega),
      tsnGt_iff_dist s.mappingArrayBaseTsn _ _ (by rw [hd]; omega), hd] at hc
    exact .inr (h.no_has_of_cum_gt (by rw [h.dist_highestTsn]; exact max_lt hc.1 hc.2))
  · exact .inl ⟨rfl, rfl⟩

theorem scan_orBytes_eq {s : TsnMap} (h : s.Sized) : scan s.orBytes = (s.leading / 8, s.leading) := by
  rw [← scan_orBytes h, ← scan_fst]

/-- The slide when the contiguous prefix does not reach the highest TSN. -/
theorem Marked.slideMappingArrays_shift {s : TsnMap} (h : s.Marked) (hp : 8 ≤ s.leading)
    (hc : (s.updateCumAck s.leading).cumulativeTsn ≠ (s.updateCumAck s.leading).highestTsn) :
    ∃ d : ℕ, s.slideMappingArrays = (s.updateCumAck s.leading).shiftArrays (s.leading / 8) d ∧
      Serial.dist s.mappingArrayBaseTsn (s.updateCumAck s.leading).highestTsn <
        8 * (d + s.leading / 8 : ℕ) := by
  obtain ⟨f1, f2, f3, f4, f5⟩ := updateCumAck_frame s s.leading
  have hm := h.updateCumAck
  have hcum := h.dist_cum
  have hsize := h.size_lt
  have hgap : (calcTsnToGap (s.updateCumAck s.leading).highestTsn
      (s.updateCumAck s.leading).mappingArrayBaseTsn).toInt =
      Serial.dist s.mappingArrayBaseTsn (s.updateCumAck s.leading).highestTsn := by
    rw [calcTsnToGap_eq, f4]
    rfl
  have hlt : Serial.dist s.mappingArrayBaseTsn (s.updateCumAck s.leading).highestTsn <
      8 * s.mappingArraySize := by
    have h1 := hm.dist_map
    have h2 := hm.dist_nr
    rw [f3, f4] at h1 h2
    rw [← f4, hm.dist_highestTsn, f4]
    exact max_lt h1.2 h2.2
  have hge : (s.leading : ℤ) ≤
      Serial.dist s.mappingArrayBaseTsn (s.updateCumAck s.leading).highestTsn := by
    have hle := hm.le_dist_highestTsn (k := s.leading - 1) (by
      have := has_of_lt_leading h.toSized (k := s.leading - 1) (by omega)
      simpa [has, f1, f2] using this)
    rw [f4] at hle
    rcases hle.lt_or_eq with hl | he
    · omega
    · refine absurd (dist_inj (b := s.mappingArrayBaseTsn) ?_) hc
      rw [← he, f5, hcum]
      omega
  unfold slideMappingArrays
  rw [scan_orBytes_eq h.toSized]
  dsimp only
  rw [if_neg (fun hh => hc hh.1), if_pos hp, hgap, f3]
  generalize hH : Serial.dist s.mappingArrayBaseTsn (s.updateCumAck s.leading).highestTsn = H
    at hlt hge
  rw [if_neg (by omega), if_neg (by omega), if_neg (by omega)]
  refine ⟨_, rfl, ?_⟩
  push_cast
  omega

/-- `sctp_slide_mapping_arrays` drops part of the contiguous prefix and nothing else. -/
theorem slideMappingArrays_slid {s : TsnMap} (h : s.Marked) :
    ∃ q, Slid s s.slideMappingArrays q := by
  by_cases hp : 8 ≤ s.leading
  · by_cases hc : (s.updateCumAck s.leading).cumulativeTsn = (s.updateCumAck s.leading).highestTsn
    · refine ⟨s.leading, ?_⟩
      unfold slideMappingArrays
      rw [scan_orBytes_eq h.toSized]
      dsimp only
      rw [if_pos ⟨hc, hp⟩]
      exact slid_clearArrays h hp hc
    · obtain ⟨d, hshift, hd⟩ := h.slideMappingArrays_shift hp hc
      rw [hshift]
      exact ⟨_, slid_shiftArrays h hp hd⟩
  · refine ⟨0, ?_⟩
    unfold slideMappingArrays
    rw [scan_orBytes_eq h.toSized]
    dsimp only
    rw [if_neg (fun hh => hp hh.2), if_neg hp]
    exact slid_updateCumAck h (by omega)

end TsnMap

end Sctp
