import Sctp.Receiver.Window

/-! The slide keeps the window, and no report of it says more than was received. -/
namespace Sctp
open Bitmap Serial

namespace TsnMap

theorem isSet_eq_false_of_has {s : TsnMap} {k : ℕ} (h : s.has k = false) :
    isSet s.mappingArray k = false ∧ isSet s.nrMappingArray k = false := by
  rwa [has, Bool.or_eq_false_iff] at h

/-- A mark in front of the map is the mark of an empty map. -/
theorem Marked.empty_of_mark {s : TsnMap} (h : s.Marked) :
    (s.highestTsnInsideMap + 1 = s.mappingArrayBaseTsn → ∀ k, isSet s.mappingArray k = false) ∧
      (s.highestTsnInsideNrMap + 1 = s.mappingArrayBaseTsn →
        ∀ k, isSet s.nrMappingArray k = false) := by
  constructor
  · intro he k
    have hdist := dist_add_of_add_one_eq he (n := 0) (by norm_num)
    rw [BitVec.add_zero] at hdist
    rw [Bool.eq_false_iff]
    intro hk
    have := h.le_dist_map hk
    omega
  · intro he k
    have hdist := dist_add_of_add_one_eq he (n := 0) (by norm_num)
    rw [BitVec.add_zero] at hdist
    rw [Bool.eq_false_iff]
    intro hk
    have := h.le_dist_nr hk
    omega

/-- A highest TSN that the slide moves is that of an empty map. -/
theorem slideMappingArrays_marks {s : TsnMap} (h : s.Marked) :
    (s.slideMappingArrays.highestTsnInsideMap = s.highestTsnInsideMap ∨
        ∀ k, isSet s.slideMappingArrays.mappingArray k = false) ∧
      (s.slideMappingArrays.highestTsnInsideNrMap = s.highestTsnInsideNrMap ∨
        ∀ k, isSet s.slideMappingArrays.nrMappingArray k = false) := by
  obtain ⟨hmap, hnr⟩ | hnone := updateCumAck_marks h
  · obtain ⟨f1, f2, f3, f4, f5⟩ := updateCumAck_frame s s.leading
    unfold slideMappingArrays
    rw [scan_orBytes_eq h.toSized]
    dsimp only
    by_cases hp : 8 ≤ s.leading
    · by_cases hc : (s.updateCumAck s.leading).cumulativeTsn = (s.updateCumAck s.leading).highestTsn
      · rw [if_pos ⟨hc, hp⟩]
        have hs := slid_clearArrays h hp hc
        have hnone : ∀ k, s.has (k + s.leading) = false := by
          intro k
          rw [Bool.eq_false_iff]
          intro hk
          have hle := h.updateCumAck.le_dist_highestTsn (k := k + s.leading)
            (by simpa [has, f1, f2] using hk)
          rw [← hc, f4, f5, h.dist_cum] at hle
          omega
        refine ⟨.inr fun k => ?_, .inr fun k => ?_⟩
        · rw [hs.isSet_map]
          exact (isSet_eq_false_of_has (hnone k)).1
        · rw [hs.isSet_nr]
          exact (isSet_eq_false_of_has (hnone k)).2
      · rw [if_neg (fun hh => hc hh.1), if_pos hp]
        have hempty : ∀ (a : List Byte) i d k, a.length = s.mappingArraySize →
            (∀ k, isSet a k = false) → isSet (moveBytes a i d s.mappingArraySize) k = false := by
          intro a i d k ha hno
          rw [isSet_moveBytes ha, hno, Bool.and_false]
        have hshift : ∀ i d,
            (((s.updateCumAck s.leading).shiftArrays i d).highestTsnInsideMap = s.highestTsnInsideMap ∨
              ∀ k, isSet ((s.updateCumAck s.leading).shiftArrays i d).mappingArray k = false) ∧
            (((s.updateCumAck s.leading).shiftArrays i d).highestTsnInsideNrMap =
                s.highestTsnInsideNrMap ∨
              ∀ k, isSet ((s.updateCumAck s.leading).shiftArrays i d).nrMappingArray k = false) := by
          intro i d
          simp only [shiftArrays, f1, f2, f3, f4, hmap, hnr]
          constructor
          · split_ifs with he
            · exact .inr fun k => hempty _ _ _ k h.map (h.empty_of_mark.1 he)
            · exact .inl rfl
          · split_ifs with he
            · exact .inr fun k => hempty _ _ _ k h.nr (h.empty_of_mark.2 he)
            · exact .inl rfl
        split_ifs
        all_goals first
          | exact ⟨.inl hmap, .inl hnr⟩
          | exact hshift _ _
    · rw [if_neg (fun hh => hp hh.2), if_neg hp]
      exact ⟨.inl hmap, .inl hnr⟩
  · obtain ⟨q, hs⟩ := slideMappingArrays_slid h
    refine ⟨.inr fun k => ?_, .inr fun k => ?_⟩
    · rw [hs.isSet_map]
      exact (isSet_eq_false_of_has (hnone _)).1
    · rw [hs.isSet_nr]
      exact (isSet_eq_false_of_has (hnone _)).2

namespace Tracks

variable {m : TsnMap} {init : Tsn} {received : Finset ℕ} {w : Window}

/-- Where the highest TSN of a map is after the slide. -/
theorem slid_mark {q b p c : ℕ} {x x' : Tsn} {a a' : List Byte} (hx : x + 1 = advance init c)
    (hslid : MarkSlid (advance init b) p x x') (hp : p < 2 ^ 31)
    (hbits : ∀ k, isSet a' k = isSet a (k + q)) (hlt : ∀ k, isSet a k = true → b + k < c)
    (hempty : x' = x ∨ ∀ k, isSet a' k = false) :
    ∃ c', x' + 1 = advance init c' ∧ (∀ k, isSet a' k = true → b + q + k < c') ∧
      c' ≤ max c (b + p) := by
  have hsame : x' = x → ∃ c', x' + 1 = advance init c' ∧
      (∀ k, isSet a' k = true → b + q + k < c') ∧ c' ≤ max c (b + p) := by
    rintro rfl
    refine ⟨c, hx, fun k hk => ?_, le_max_left _ _⟩
    rw [hbits] at hk
    have := hlt _ hk
    omega
  obtain heq | ⟨-, hlo, hhi⟩ := hslid
  · exact hsame heq
  · obtain heq | hnone := hempty
    · exact hsame heq
    · obtain ⟨d, hd⟩ := Int.eq_ofNat_of_zero_le (show 0 ≤ dist (advance init b) x' + 1 by omega)
      have hx' : x' = advance init b + (BitVec.ofNat 32 d - 1) := by
        apply dist_inj (b := advance init b)
        rw [dist_sub_one _ (by omega)]
        omega
      refine ⟨b + d, ?_, fun k hk => ?_, le_max_of_le_right (by omega)⟩
      · rw [hx', ← advance_add]
        unfold advance
        bv_omega
      · rw [hnone k] at hk
        cases hk

/-- The window moves on, and what is received stays the same. -/
theorem slide (h : m.Tracks init received w) (hfew : Few received) :
    ∃ w', m.slideMappingArrays.Tracks init received w' ∧ w'.next = w.base + m.leading := by
  have hmarked := h.marked hfew
  have hlead := leading_le h.toSized
  have hsize := h.size_lt
  obtain ⟨q, hs⟩ := slideMappingArrays_slid hmarked
  obtain ⟨hm, hn⟩ := slideMappingArrays_marks hmarked
  have hhighMap := hs.highMap
  have hhighNr := hs.highNr
  rw [h.base] at hhighMap hhighNr
  obtain ⟨c, hc, hclt, hcle⟩ := slid_mark h.high hhighMap (by omega) hs.isSet_map h.lt_mark hm
  obtain ⟨d, hd, hdlt, hdle⟩ := slid_mark h.nrHigh hhighNr (by omega) hs.isSet_nr h.lt_nrMark hn
  have hq := hs.le
  have hhas : ∀ k, m.slideMappingArrays.has k = m.has (k + q) := by
    intro k
    rw [has, has, hs.isSet_map, hs.isSet_nr]
  have hmark := h.mark_le
  have hnrMark := h.nrMark_le
  refine ⟨⟨w.base + q, w.base + m.leading, c, d⟩, ⟨hs.toSized, ?_, ?_, ?_, hc, hd, ?_, ?_, ?_, ?_, hclt,
    hdlt, ?_, ?_, ?_⟩, rfl⟩
  · rw [hs.size]
    exact h.size_le
  · rw [hs.base, h.place]
  · rw [hs.cum, ← h.place]
    unfold advance
    bv_omega
  · exact Nat.add_le_add_left hq _
  · intro j hj
    by_cases hlt : j < w.base
    · exact h.below j (hlt.trans_le h.base_le)
    · change j < w.base + m.leading at hj
      have hset := has_of_lt_leading h.toSized (k := j - w.base) (by omega)
      rwa [h.has_iff, Nat.add_sub_cancel' (by omega)] at hset
  · intro k
    rw [hhas, h.has_iff, show w.base + (k + q) = w.base + q + k by omega]
  · intro k hk
    rw [hs.isSet_map] at hk
    rw [hs.isSet_nr]
    exact h.disjoint _ hk
  · rw [hs.size]
    change c ≤ w.base + q + _
    omega
  · rw [hs.size]
    change d ≤ w.base + q + _
    omega
  · intro j hj
    have := h.within j hj
    change j < w.base + q + 8 * mappingArrayMax
    omega

end Tracks

end TsnMap

open TsnMap

/-- How many bytes a pass of a SACK looks at. -/
theorem TsnMap.Slid.sackSiz_lt {s s' : TsnMap} {q : ℕ} (hs : Slid s s' q) (h : s.Marked) {x : Tsn}
    (hlo : (s.leading : ℤ) ≤ dist s.mappingArrayBaseTsn x)
    (hhi : dist s.mappingArrayBaseTsn x < 8 * s.mappingArraySize) :
    8 * sackSiz x s'.mappingArrayBaseTsn < 2 ^ 15 ∧ 8 * nrSackSiz x s'.mappingArrayBaseTsn < 2 ^ 15 := by
  have hsize := h.size_lt
  have hq := hs.le
  obtain ⟨d, hd⟩ := Int.eq_ofNat_of_zero_le (show 0 ≤ dist s.mappingArrayBaseTsn x by omega)
  rw [hs.base, sackSiz_eq hd (by omega) (by omega), nrSackSiz_eq hd (by omega) (by omega)]
  constructor
  · split_ifs <;> omega
  · split_ifs <;> omega

/-- No SACK reports a TSN that was not received. -/
theorem sendSack_sound {s : TsnMap} (h : s.Marked) (env : SackEnv) {t : Tsn}
    (ht : (sendSack env s).2.Covers t) : s.Received t := by
  obtain ⟨q, hs⟩ := slideMappingArrays_slid h
  have hcum : (sendSack env s).2.cumTsnAck = s.slideMappingArrays.cumulativeTsn := by
    rw [sendSack, buildSack]
    split_ifs <;> rfl
  obtain hbelow | hgaps := ht
  · rw [hcum, hs.cum] at hbelow
    exact .inl hbelow
  suffices hbit : ∃ k, s.has k = true ∧ t = advance s.mappingArrayBaseTsn k from .inr hbit
  rw [hcum] at hgaps
  rw [sendSack, buildSack] at hgaps
  by_cases hnr : env.nrsackSupported = true
  · rw [if_pos hnr] at hgaps
    obtain hgap | hgap := hgaps
    · have hpass := hs.passReports h hs.highMap h.dist_map (fun k hk => h.le_dist_map hk)
        (fun i => s.slideMappingArrays.mappingArray.getD i 0) hs.isSet_map nrSackSiz
        (fun hl => (hs.sackSiz_lt h hl h.dist_map.2).2) env.fits
      obtain ⟨k, -, -, hk, rfl⟩ := hpass.sound t hgap
      exact ⟨k, by simp [has, hk], rfl⟩
    · dsimp only at hgap
      split_ifs at hgap with hlim
      · exact absurd hgap (not_reports_nil _ _)
      · have hpass := hs.passReports h hs.highNr h.dist_nr (fun k hk => h.le_dist_nr hk)
          (fun i => s.slideMappingArrays.nrMappingArray.getD i 0) hs.isSet_nr nrSackSiz
          (fun hl => (hs.sackSiz_lt h hl h.dist_nr.2).2)
          (fun i => env.fits ((nrSackGaps env s.slideMappingArrays).blocks.length + i))
        obtain ⟨k, -, -, hk, rfl⟩ := hpass.sound t hgap
        exact ⟨k, by simp [has, hk], rfl⟩
  · rw [if_neg hnr] at hgaps
    obtain hgap | hgap := hgaps
    · have hdist : (8 * s.mappingArraySize : ℤ) - 2 ^ 31 < dist s.mappingArrayBaseTsn s.highestTsn ∧
          dist s.mappingArrayBaseTsn s.highestTsn < 8 * s.mappingArraySize := by
        have h1 := h.dist_map
        have h2 := h.dist_nr
        rw [h.dist_highestTsn]
        omega
      have hpass := hs.passReports h (hs.markSlid_highest h) hdist
        (fun k hk => h.le_dist_highestTsn hk)
        (fun i => s.slideMappingArrays.mappingArray.getD i 0 |||
          s.slideMappingArrays.nrMappingArray.getD i 0) hs.getLsbD_or sackSiz
        (fun hl => (hs.sackSiz_lt h hl hdist.2).1) env.fits
      obtain ⟨k, -, -, hk, rfl⟩ := hpass.sound t hgap
      exact ⟨k, hk, rfl⟩
    · exact absurd hgap (not_reports_nil _ _)

namespace TsnMap.Tracks

variable {m : TsnMap} {init : Tsn} {received : Finset ℕ} {w : Window}

/-- The cumulative TSN of a SACK is in front of the first TSN that was not received. -/
theorem sendSack_first (h : m.Tracks init received w) (hfew : Few received) (env : SackEnv) :
    ∃ next, (Sctp.sendSack env m).2.cumTsnAck + 1 = advance init next ∧ (∀ j < next, j ∈ received) ∧
      next ∉ received := by
  obtain ⟨w', hw', hnext⟩ := h.slide hfew
  have hcum : (Sctp.sendSack env m).2.cumTsnAck = m.slideMappingArrays.cumulativeTsn := by
    rw [Sctp.sendSack, buildSack]
    split_ifs <;> rfl
  refine ⟨w'.next, ?_, hw'.below, ?_⟩
  · rw [hcum]
    exact hw'.cum
  · rw [hnext, ← h.has_iff, has_leading h.toSized]
    exact Bool.false_ne_true

/-- What a SACK says to the sender of the sequence. -/
theorem sendSack (h : m.Tracks init received w) (hfew : Few received) (env : SackEnv) :
    (∃ w', (Sctp.sendSack env m).1.Tracks init received w') ∧
      (∃ next, (Sctp.sendSack env m).2.cumTsnAck + 1 = advance init next ∧
        ∀ j < next, j ∈ received) ∧
      ∀ j < 2 ^ 31, (Sctp.sendSack env m).2.Covers (advance init j) → j ∈ received := by
  obtain ⟨w', hw', -⟩ := h.slide hfew
  obtain ⟨next, hcum, hbelow, -⟩ := h.sendSack_first hfew env
  refine ⟨⟨w', hw'⟩, ⟨next, hcum, hbelow⟩, fun j hj hcovers => ?_⟩
  exact h.mem_of_received hfew hj (sendSack_sound (h.marked hfew) env hcovers)

end TsnMap.Tracks

end Sctp
