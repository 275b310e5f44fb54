import Sctp.Slide

/-! The part of `sctp_handle_forward_tsn` that moves the TSN maps. -/
namespace Sctp
open Bitmap

namespace TsnMap

/-- One TSN that the peer gave up is marked as received, unless it was. -/
def fillBit (s : TsnMap) (i : ℕ) : TsnMap :=
  if isSet s.mappingArray i || isSet s.nrMappingArray i then s
  else
    let tsn := s.mappingArrayBaseTsn + BitVec.ofNat 32 i
    { s with
      nrMappingArray := setBit s.nrMappingArray i
      highestTsnInsideNrMap :=
        if tsnGt tsn s.highestTsnInsideNrMap then tsn else s.highestTsnInsideNrMap }

/-- Both maps are emptied and start behind `tsn`. -/
def restartAt (s : TsnMap) (tsn : Tsn) : TsnMap :=
  { s with
    mappingArray := zeroBytes s.mappingArray s.mappingArraySize
    nrMappingArray := zeroBytes s.nrMappingArray s.mappingArraySize
    mappingArrayBaseTsn := tsn + 1
    cumulativeTsn := tsn
    highestTsnInsideMap := tsn
    highestTsnInsideNrMap := tsn }

/-- The maps behind a new cumulative TSN, before they slide. Nothing is left when the gap is larger
than the room in the receive buffer: then the association is aborted. -/
def skipTo (s : TsnMap) (newCumTsn : Tsn) (sbspace : ℕ) : Option TsnMap :=
  let gap := (calcTsnToGap newCumTsn s.mappingArrayBaseTsn).toNat
  if 8 * s.mappingArraySize ≤ gap then
    if sbspace < gap then none else some (s.restartAt newCumTsn)
  else some ((List.range (gap + 1)).foldl fillBit { s with cumulativeTsn := newCumTsn })

/-- `sctp_handle_forward_tsn` without a list of streams. -/
def forwardTsn (s : TsnMap) (newCumTsn : Tsn) (sbspace : ℕ) : Option TsnMap :=
  if tsnGe s.cumulativeTsn newCumTsn then some s
  else (s.skipTo newCumTsn sbspace).map slideMappingArrays

theorem sized_restartAt {m : TsnMap} (h : m.Sized) (tsn : Tsn) : (m.restartAt tsn).Sized := by
  refine ⟨?_, ?_⟩
  · exact (length_zeroBytes (le_of_eq h.map.symm)).trans h.map
  · exact (length_zeroBytes (le_of_eq h.nr.symm)).trans h.nr

/-- Nothing is set in maps that restarted. -/
theorem has_restartAt {m : TsnMap} (h : m.Sized) (tsn : Tsn) (k : ℕ) :
    (m.restartAt tsn).has k = false := by
  have hzero : ∀ a : List Byte, a.length = m.mappingArraySize →
      isSet (zeroBytes a m.mappingArraySize) k = false := by
    intro a ha
    rw [isSet_zeroBytes, Bool.and_eq_false_iff]
    by_cases hk : 8 * m.mappingArraySize ≤ k
    · exact .inr (isSet_of_length_le (by rw [ha]; exact hk))
    · exact .inl (by simpa using hk)
  rw [has, Bool.or_eq_false_iff]
  exact ⟨hzero _ h.map, hzero _ h.nr⟩

theorem sized_fillBit {m : TsnMap} (h : m.Sized) (i : ℕ) : (m.fillBit i).Sized := by
  unfold fillBit
  split_ifs
  · exact h
  · exact ⟨h.map, (length_setBit _ _).trans h.nr⟩

theorem sized_slideMappingArrays {m : TsnMap} (h : m.Sized) : m.slideMappingArrays.Sized := by
  obtain ⟨f1, f2, f3, -, -⟩ := updateCumAck_frame m (scan m.orBytes).2
  have hup : (m.updateCumAck (scan m.orBytes).2).Sized :=
    ⟨by rw [f1, f3, h.map], by rw [f2, f3, h.nr]⟩
  unfold slideMappingArrays
  dsimp only
  split_ifs
  · refine ⟨?_, ?_⟩
    · exact (length_zeroBytes (by rw [hup.map]; exact min_le_right _ _)).trans hup.map
    · exact (length_zeroBytes (by rw [hup.nr]; exact min_le_right _ _)).trans hup.nr
  all_goals first
    | exact hup
    | exact ⟨by simp [shiftArrays, moveBytes], by simp [shiftArrays, moveBytes]⟩

theorem sized_skipTo {m m' : TsnMap} (h : m.Sized) {tsn : Tsn} {sbspace : ℕ}
    (hm : m.skipTo tsn sbspace = some m') : m'.Sized := by
  unfold skipTo at hm
  simp only at hm
  split_ifs at hm
  · exact Option.some.inj hm ▸ sized_restartAt h tsn
  · refine Option.some.inj hm ▸ ?_
    exact List.foldlRecOn (motive := fun m : TsnMap => m.Sized) _ _ ⟨h.map, h.nr⟩
      fun m hm i _ => sized_fillBit hm i

theorem sized_forwardTsn {m m' : TsnMap} (h : m.Sized) {tsn : Tsn} {sbspace : ℕ}
    (hm : m.forwardTsn tsn sbspace = some m') : m'.Sized := by
  unfold forwardTsn at hm
  split_ifs at hm
  · exact Option.some.inj hm ▸ h
  · obtain ⟨t, ht, rfl⟩ := Option.map_eq_some_iff.1 hm
    exact sized_slideMappingArrays (sized_skipTo h ht)

/-- What the receiver keeps its maps to: the cumulative TSN lies in front of the maps or in them, and
every TSN in them was near enough when it arrived. -/
structure Receiving (m : TsnMap) : Prop extends m.Marked where
  cum_ge : -1 ≤ Serial.dist m.mappingArrayBaseTsn m.cumulativeTsn
  cum_lt : Serial.dist m.mappingArrayBaseTsn m.cumulativeTsn < 8 * m.mappingArraySize
  within : ∀ k, m.has k = true → k < 8 * mappingArrayMax

/-- The first place from `k` on, of `n` places, that is not taken. -/
def firstFree (taken : ℕ → Bool) : ℕ → ℕ → ℕ
  | 0, k => k
  | n + 1, k => if taken k then firstFree taken n (k + 1) else k

/-- The first offset behind another one at which no TSN was received. -/
def freeBehind (m : TsnMap) (gap : ℕ) : ℕ := firstFree m.has (8 * m.mappingArraySize) (gap + 1)

/-- The highest TSN of the map behind a FORWARD-TSN to the one behind it: the mark stays unless the
maps start again, or everything received is in a row and the row is long enough, or the map was
empty and moves. -/
def forwardedMark (m : TsnMap) : Tsn :=
  let next := m.highestTsnInsideMap + 1
  let gap := (calcTsnToGap next m.mappingArrayBaseTsn).toNat
  let free := m.freeBehind gap
  let last := Serial.advance m.mappingArrayBaseTsn (free - 1)
  if tsnGe m.cumulativeTsn next then m.highestTsnInsideMap
  else if 8 * m.mappingArraySize ≤ gap then next
  else if free < 8 then m.highestTsnInsideMap
  else if tsnGt m.highestTsnInsideNrMap last = false then last
  else if next = m.mappingArrayBaseTsn then
    Serial.advance m.highestTsnInsideMap (8 * (free / 8))
  else m.highestTsnInsideMap

theorem firstFree_spec (taken : ℕ → Bool) (n k : ℕ) :
    k ≤ firstFree taken n k ∧ (∀ j, k ≤ j → j < firstFree taken n k → taken j = true) ∧
      (firstFree taken n k = k + n ∨ taken (firstFree taken n k) = false) := by
  induction n generalizing k with
  | zero =>
    refine ⟨le_rfl, fun j hj hlt => ?_, .inl rfl⟩
    exact absurd hlt (not_lt.2 hj)
  | succ n ih =>
    rw [firstFree]
    split_ifs with hk
    · obtain ⟨hle, hall, hend⟩ := ih (k + 1)
      refine ⟨by omega, fun j hj hlt => ?_, ?_⟩
      · by_cases heq : j = k
        · rw [heq]
          exact hk
        · exact hall j (by omega) hlt
      · rw [show k + (n + 1) = k + 1 + n by omega]
        exact hend
    · refine ⟨le_rfl, fun j hj hlt => absurd hlt (not_lt.2 hj), .inr ?_⟩
      simpa using hk

theorem freeBehind_spec {m : TsnMap} (h : m.Sized) {gap : ℕ} (hgap : gap < 8 * m.mappingArraySize) :
    gap < m.freeBehind gap ∧ m.freeBehind gap ≤ 8 * m.mappingArraySize ∧
      (∀ k, gap < k → k < m.freeBehind gap → m.has k = true) ∧ m.has (m.freeBehind gap) = false := by
  obtain ⟨hle, hall, hend⟩ := firstFree_spec m.has (8 * m.mappingArraySize) (gap + 1)
  change gap + 1 ≤ m.freeBehind gap at hle
  change ∀ j, gap + 1 ≤ j → j < m.freeBehind gap → m.has j = true at hall
  change m.freeBehind gap = _ ∨ m.has (m.freeBehind gap) = false at hend
  have hlast : m.freeBehind gap ≤ 8 * m.mappingArraySize := by
    by_contra hgt
    have := lt_of_has h (hall (8 * m.mappingArraySize) (by omega) (by omega))
    omega
  refine ⟨hle, hlast, hall, ?_⟩
  rcases hend with hend | hend
  · omega
  · exact hend

/-- Maps in which all offsets below a number are filled. -/
structure Filled (m m' : TsnMap) (n : ℕ) : Prop extends m'.Marked where
  base : m'.mappingArrayBaseTsn = m.mappingArrayBaseTsn
  size : m'.mappingArraySize = m.mappingArraySize
  mark : m'.highestTsnInsideMap = m.highestTsnInsideMap
  has_eq : ∀ k, m'.has k = (decide (k < n) || m.has k)
  nrMark_ge : Serial.dist m.mappingArrayBaseTsn m.highestTsnInsideNrMap ≤
    Serial.dist m.mappingArrayBaseTsn m'.highestTsnInsideNrMap
  nrMark_le : Serial.dist m.mappingArrayBaseTsn m'.highestTsnInsideNrMap ≤
    max (Serial.dist m.mappingArrayBaseTsn m.highestTsnInsideNrMap) ((n : ℤ) - 1)

theorem Filled.fillBit {m m' : TsnMap} {n : ℕ} (h : Filled m m' n) (hn : n < 8 * m.mappingArraySize) :
    Filled m (m'.fillBit n) (n + 1) := by
  have hhas := h.has_eq
  have hge := h.nrMark_ge
  have hle := h.nrMark_le
  have hstep : ∀ k, (decide (k < n + 1) || m.has k) = (decide (k = n) || (decide (k < n) || m.has k)) := by
    intro k
    rw [← Bool.or_assoc, ← Bool.decide_or]
    congr 2
    simp only [eq_iff_iff]
    omega
  unfold TsnMap.fillBit
  split_ifs with hset
  · refine ⟨h.toMarked, h.base, h.size, h.mark, fun k => ?_, hge, ?_⟩
    · rw [hstep, ← hhas]
      by_cases hk : k = n
      · subst hk
        simpa [TsnMap.has] using hset
      · simp [hk]
    · refine hle.trans (max_le_max le_rfl ?_)
      push_cast
      omega
  · dsimp only
    have hsize := h.toMarked.size_lt
    have hnr := h.toMarked.dist_nr
    have hn' : n < 8 * m'.mappingArraySize := h.size ▸ hn
    have hdn : Serial.dist m'.mappingArrayBaseTsn (m'.mappingArrayBaseTsn + BitVec.ofNat 32 n) = n :=
      Serial.dist_advance _ (by norm_num; omega)
    have hmax : Serial.dist m'.mappingArrayBaseTsn
        (if tsnGt (m'.mappingArrayBaseTsn + BitVec.ofNat 32 n) m'.highestTsnInsideNrMap then
          m'.mappingArrayBaseTsn + BitVec.ofNat 32 n else m'.highestTsnInsideNrMap) =
        max (Serial.dist m'.mappingArrayBaseTsn m'.highestTsnInsideNrMap) n := by
      have hgt := tsnGt_iff_dist m'.mappingArrayBaseTsn (m'.mappingArrayBaseTsn + BitVec.ofNat 32 n)
        m'.highestTsnInsideNrMap (by rw [hdn]; omega)
      split_ifs with hc
      · rw [hgt, hdn] at hc
        rw [hdn, max_eq_right hc.le]
      · rw [hgt, hdn] at hc
        rw [max_eq_left (not_lt.1 hc)]
    generalize (if tsnGt (m'.mappingArrayBaseTsn + BitVec.ofNat 32 n) m'.highestTsnInsideNrMap then
          m'.mappingArrayBaseTsn + BitVec.ofNat 32 n else m'.highestTsnInsideNrMap) = mark at hmax ⊢
    have hbit : ∀ k, isSet (setBit m'.nrMappingArray n) k =
        (decide (k = n) || isSet m'.nrMappingArray k) := by
      intro k
      rw [isSet_setBit (by rw [h.nr, h.size]; exact hn)]
    have hdist : ∀ {j : ℕ}, j ≤ 8 * m'.mappingArraySize →
        Serial.dist m'.mappingArrayBaseTsn (Serial.advance m'.mappingArrayBaseTsn j) = j := by
      intro j hj
      exact Serial.dist_advance _ (by norm_num; omega)
    refine ⟨⟨⟨h.map, (length_setBit _ _).trans h.nr⟩, h.size_le, h.map_le, ?_, h.map_lt, ?_⟩, h.base,
      h.size, h.mark, fun k => ?_, ?_, ?_⟩
    · intro k hk
      have hk8 : k < 8 * m'.mappingArraySize := by
        have := lt_of_isSet hk
        rwa [length_setBit, h.nr] at this
      rw [hbit, Bool.or_eq_true, decide_eq_true_eq] at hk
      change tsnGe mark (Serial.advance m'.mappingArrayBaseTsn k) = true
      rw [tsnGe_iff_dist m'.mappingArrayBaseTsn _ _ (by rw [hmax, hdist hk8.le]; omega), hmax,
        hdist hk8.le]
      rcases hk with rfl | hk
      · exact le_max_right _ _
      · exact le_max_of_le_left (h.toMarked.le_dist_nr hk)
    · change tsnGt (Serial.advance m'.mappingArrayBaseTsn (8 * m'.mappingArraySize)) mark = true
      rw [tsnGt_iff_dist m'.mappingArrayBaseTsn _ _ (by rw [hmax, hdist le_rfl]; push_cast; omega), hmax,
        hdist le_rfl]
      push_cast
      omega
    · rw [hstep, ← hhas, TsnMap.has, hbit, TsnMap.has, Bool.or_left_comm]
    · rw [← h.base] at hge ⊢
      change _ ≤ Serial.dist m'.mappingArrayBaseTsn mark
      rw [hmax]
      exact hge.trans (le_max_left _ _)
    · rw [← h.base] at hle ⊢
      change Serial.dist m'.mappingArrayBaseTsn mark ≤ _
      rw [hmax]
      push_cast
      omega

theorem Marked.filled {m : TsnMap} (h : m.Marked) {n : ℕ} (hn : n ≤ 8 * m.mappingArraySize) (cum : Tsn) :
    Filled m ((List.range n).foldl TsnMap.fillBit { m with cumulativeTsn := cum }) n := by
  induction n with
  | zero =>
    exact ⟨⟨⟨h.map, h.nr⟩, h.size_le, h.map_le, h.nr_le, h.map_lt, h.nr_lt⟩, rfl, rfl, rfl,
      fun k => by simp [TsnMap.has], le_rfl, le_max_left _ _⟩
  | succ n ih =>
    rw [List.range_succ, List.foldl_append]
    exact (ih (by omega)).fillBit hn

/-- Maps that start again do not slide. -/
theorem slideMappingArrays_restartAt {m : TsnMap} (h : m.Sized) (tsn : Tsn) :
    (m.restartAt tsn).slideMappingArrays.highestTsnInsideMap = tsn := by
  have hsized := sized_restartAt h tsn
  have hlead : (m.restartAt tsn).leading = 0 := by
    by_contra hne
    have hhas := has_of_lt_leading hsized (k := 0) (by omega)
    rw [has_restartAt h] at hhas
    cases hhas
  have hcum : tsnGt (tsn + 1 + (BitVec.ofNat 32 0 - 1)) tsn = false := by
    rw [show tsn + 1 + (BitVec.ofNat 32 0 - 1) = tsn by bv_omega]
    exact Serial.gt_self tsn
  unfold slideMappingArrays
  rw [scan_orBytes_eq hsized, hlead]
  dsimp only
  rw [if_neg (by omega), if_neg (by omega), updateCumAck]
  change (if tsnGt (tsn + 1 + (BitVec.ofNat 32 0 - 1)) tsn && _ then _ else _ : TsnMap).highestTsnInsideMap = _
  rw [hcum, Bool.false_and, if_neg Bool.false_ne_true]
  rfl

/-- The mark behind the map that a FORWARD-TSN to the TSN behind it has filled. -/
theorem Filled.slid_mark {m m' : TsnMap} {gap : ℕ} (h : m.Marked) (hf : Filled m m' (gap + 1))
    (hgap : gap < 8 * m.mappingArraySize)
    (hmark : m.highestTsnInsideMap + 1 = Serial.advance m.mappingArrayBaseTsn gap) :
    m'.slideMappingArrays.highestTsnInsideMap =
      if m.freeBehind gap < 8 then m.highestTsnInsideMap
      else if tsnGt m.highestTsnInsideNrMap
          (Serial.advance m.mappingArrayBaseTsn (m.freeBehind gap - 1)) = false then
        Serial.advance m.mappingArrayBaseTsn (m.freeBehind gap - 1)
      else if m.highestTsnInsideMap + 1 = m.mappingArrayBaseTsn then
        Serial.advance m.highestTsnInsideMap (8 * (m.freeBehind gap / 8))
      else m.highestTsnInsideMap := by
  obtain ⟨hlt, hle, hall, hfree⟩ := freeBehind_spec h.toSized hgap
  have hsize := h.size_lt
  have hlead : m'.leading = m.freeBehind gap := by
    apply length_takeWhile_range
    · intro k hk
      rw [hf.has_eq, Bool.or_eq_true, decide_eq_true_eq]
      by_cases hkg : k < gap + 1
      · exact .inl hkg
      · exact .inr (hall k (by omega) hk)
    · rw [hf.size]
      exact hle
    · rw [hf.has_eq, hfree, Bool.or_false]
      simpa using hlt
  generalize m.freeBehind gap = free at hlt hle hlead ⊢
  have hfm := hf.toMarked
  have hdm : Serial.dist m.mappingArrayBaseTsn m.highestTsnInsideMap = gap - 1 :=
    dist_of_add_one hmark (by omega)
  have hlast : Serial.dist m.mappingArrayBaseTsn (Serial.advance m.mappingArrayBaseTsn (free - 1)) =
      free - 1 := by
    rw [Serial.dist_advance _ (by norm_num; omega)]
    omega
  -- what is set in front of the first free offset is behind the mark, so the other map has it
  have hnr : (free : ℤ) - 1 ≤ Serial.dist m.mappingArrayBaseTsn m'.highestTsnInsideNrMap := by
    have htop := hfm.le_dist_highestTsn (has_of_lt_leading hfm.toSized (k := free - 1) (by omega))
    rw [hfm.dist_highestTsn, hf.base, hf.mark, hdm] at htop
    omega
  have hnrlt := h.dist_nr
  have hnr' := hfm.dist_nr
  rw [hf.base, hf.size] at hnr'
  have hge := hf.nrMark_ge
  have hle' := hf.nrMark_le
  obtain ⟨hmarkEq, hnrEq⟩ := (updateCumAck_marks hfm).resolve_right fun hnone => by
    have := hnone 0
    rw [hf.has_eq] at this
    simp at this
  obtain ⟨f1, f2, f3, f4, f5⟩ := updateCumAck_frame m' m'.leading
  rw [hlead] at hmarkEq hnrEq f1 f2 f3 f4 f5
  have hcum : (m'.updateCumAck free).cumulativeTsn = Serial.advance m.mappingArrayBaseTsn (free - 1) := by
    apply dist_inj (b := m.mappingArrayBaseTsn)
    rw [f5, hf.base, dist_sub_one _ (by omega), hlast]
  have hup := hfm.updateCumAck
  rw [hlead] at hup
  have hhigh := hup.dist_highestTsn
  rw [hmarkEq, hnrEq, f4, hf.base, hf.mark, hdm, max_eq_right (by omega)] at hhigh
  have hreach : (m'.updateCumAck free).cumulativeTsn = (m'.updateCumAck free).highestTsn ↔
      tsnGt m.highestTsnInsideNrMap (Serial.advance m.mappingArrayBaseTsn (free - 1)) = false := by
    rw [Bool.eq_false_iff, Ne, tsnGt_iff_dist m.mappingArrayBaseTsn _ _ (by rw [hlast]; omega), hlast,
      not_lt, hcum]
    constructor
    · intro heq
      rw [← heq, hlast] at hhigh
      omega
    · intro hn
      apply dist_inj (b := m.mappingArrayBaseTsn)
      rw [hlast, hhigh]
      omega
  by_cases h8 : free < 8
  · rw [if_pos h8]
    unfold slideMappingArrays
    rw [scan_orBytes_eq hfm.toSized, hlead]
    dsimp only
    rw [if_neg (by omega), if_neg (by omega), hmarkEq, hf.mark]
  · rw [if_neg h8]
    by_cases hc : (m'.updateCumAck free).cumulativeTsn = (m'.updateCumAck free).highestTsn
    · rw [if_pos (hreach.1 hc)]
      unfold slideMappingArrays
      rw [scan_orBytes_eq hfm.toSized, hlead]
      dsimp only
      rw [if_pos ⟨hc, by omega⟩]
      exact hcum
    · rw [if_neg (fun hn => hc (hreach.2 hn))]
      obtain ⟨d, hshift, -⟩ := hfm.slideMappingArrays_shift (by omega) (by rw [hlead]; exact hc)
      rw [hshift, hlead]
      simp only [shiftArrays, hmarkEq, f4, hf.mark, hf.base]
      rfl

/-- The mark behind a FORWARD-TSN to the TSN behind it. -/
theorem Marked.forwardTsn_mark {m m' : TsnMap} (h : m.Marked) {sbspace : ℕ}
    (hm : m.forwardTsn (m.highestTsnInsideMap + 1) sbspace = some m') :
    m'.highestTsnInsideMap = m.forwardedMark := by
  have hmark : m.highestTsnInsideMap + 1 = Serial.advance m.mappingArrayBaseTsn
      (calcTsnToGap (m.highestTsnInsideMap + 1) m.mappingArrayBaseTsn).toNat := by
    rw [calcTsnToGap_eq, Serial.advance_toNat_sub]
  unfold forwardTsn skipTo at hm
  unfold forwardedMark
  dsimp only at hm ⊢
  generalize (calcTsnToGap (m.highestTsnInsideMap + 1) m.mappingArrayBaseTsn).toNat = gap
    at hm hmark ⊢
  by_cases hge : tsnGe m.cumulativeTsn (m.highestTsnInsideMap + 1) = true
  · rw [if_pos hge] at hm ⊢
    rw [Option.some.inj hm]
  · rw [if_neg hge] at hm ⊢
    obtain ⟨t, ht, rfl⟩ := Option.map_eq_some_iff.1 hm
    by_cases hgap : 8 * m.mappingArraySize ≤ gap
    · rw [if_pos hgap] at ht ⊢
      split_ifs at ht
      obtain rfl := Option.some.inj ht
      exact slideMappingArrays_restartAt h.toSized _
    · rw [if_neg hgap] at ht ⊢
      obtain rfl := Option.some.inj ht
      exact (h.filled (by omega) _).slid_mark h (by omega) hmark

/-- When the mark of the map is not behind the cumulative TSN, it only moves up. -/
theorem Receiving.forwardedMark_spec {m : TsnMap} (h : m.Receiving)
    (hge : tsnGe m.cumulativeTsn (m.highestTsnInsideMap + 1) = false) :
    Serial.dist m.mappingArrayBaseTsn m.cumulativeTsn ≤
        Serial.dist m.mappingArrayBaseTsn m.forwardedMark ∧
      -1 ≤ Serial.dist m.mappingArrayBaseTsn m.forwardedMark ∧
      Serial.dist m.mappingArrayBaseTsn m.forwardedMark ≤ 8 * m.mappingArraySize := by
  have hsize := h.size_lt
  have hmap := h.dist_map
  have hcge := h.cum_ge
  have hclt := h.cum_lt
  have hnext : Serial.dist m.mappingArrayBaseTsn (m.highestTsnInsideMap + 1) =
      Serial.dist m.mappingArrayBaseTsn m.highestTsnInsideMap + 1 := by
    simp only [Serial.dist, BitVec.toInt_eq_toNat_cond, BitVec.toNat_sub, BitVec.toNat_add,
      BitVec.toNat_ofNat, BitVec.ofNat_eq_ofNat] at hmap ⊢
    have := m.mappingArrayBaseTsn.isLt
    have := m.highestTsnInsideMap.isLt
    split_ifs at hmap ⊢ <;> omega
  have hup : Serial.dist m.mappingArrayBaseTsn m.cumulativeTsn ≤
      Serial.dist m.mappingArrayBaseTsn m.highestTsnInsideMap := by
    rw [Bool.eq_false_iff, Ne, tsnGe_iff_dist m.mappingArrayBaseTsn _ _ (by rw [hnext]; omega),
      hnext] at hge
    omega
  unfold forwardedMark
  dsimp only
  rw [hge]
  have hmark : m.highestTsnInsideMap + 1 = Serial.advance m.mappingArrayBaseTsn
      (calcTsnToGap (m.highestTsnInsideMap + 1) m.mappingArrayBaseTsn).toNat := by
    rw [calcTsnToGap_eq, Serial.advance_toNat_sub]
  generalize (calcTsnToGap (m.highestTsnInsideMap + 1) m.mappingArrayBaseTsn).toNat = gap at hmark ⊢
  rw [if_neg Bool.false_ne_true]
  by_cases hgap : 8 * m.mappingArraySize ≤ gap
  · rw [if_pos hgap, hnext]
    omega
  · rw [if_neg hgap]
    obtain ⟨hlt, hle, -, -⟩ := freeBehind_spec h.toSized (not_le.1 hgap)
    generalize m.freeBehind gap = free at hlt hle ⊢
    have hdm : Serial.dist m.mappingArrayBaseTsn m.highestTsnInsideMap = gap - 1 :=
      dist_of_add_one hmark (by omega)
    split_ifs with h8 hlast hbase
    · omega
    · rw [Serial.dist_advance _ (by norm_num; omega)]
      omega
    · rw [Serial.advance, dist_add_of_add_one_eq hbase (by omega)]
      have := dist_add_of_add_one_eq hbase (n := 0) (by norm_num)
      rw [BitVec.add_zero] at this
      omega
    · omega

end TsnMap

end Sctp
