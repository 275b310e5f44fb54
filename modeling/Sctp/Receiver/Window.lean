import Mathlib.Data.Finset.Card
import Sctp.ForwardTsn
import Sctp.Receiver.Process
import Sctp.SackExact

/-! The TSN maps of the receiver as a window on the sequence of all TSNs: what was received is counted
from the initial TSN of the peer on, so that nothing wraps. -/
namespace Sctp
open Bitmap Serial

/-- The larger of two marks. -/
theorem raised {init x : Tsn} {c j : ℕ} (h : x + 1 = advance init c) (hc : c < 2 ^ 31)
    (hj : j + 1 < 2 ^ 31) :
    (if tsnGt (advance init j) x then advance init j else x) + 1 = advance init (max c (j + 1)) := by
  have hdx := TsnMap.dist_of_add_one h hc
  have hdj : dist init (advance init j) = j := dist_advance init (by norm_num; omega)
  have hgt : tsnGt (advance init j) x = true ↔ c ≤ j := by
    rw [tsnGt_iff_dist init _ _ (by rw [hdx, hdj]; omega), hdx, hdj]
    omega
  by_cases hle : c ≤ j
  · rw [if_pos (hgt.2 hle), max_eq_right (by omega), ← advance_add]
    rfl
  · rw [if_neg (fun hcon => hle (hgt.1 hcon)), max_eq_left (by omega), h]

/-- Places in the sequence: where the maps start, and behind the cumulative TSN and the two highest
TSNs. -/
structure Window where
  base : ℕ
  next : ℕ
  mark : ℕ
  nrMark : ℕ

namespace TsnMap

/-- The maps hold the received places from `w.base` on, and everything up to the cumulative TSN is
received. -/
structure Tracks (m : TsnMap) (init : Tsn) (received : Finset ℕ) (w : Window) : Prop
    extends m.Sized where
  size_le : m.mappingArraySize ≤ mappingArrayLimit
  base : m.mappingArrayBaseTsn = advance init w.base
  cum : m.cumulativeTsn + 1 = advance init w.next
  high : m.highestTsnInsideMap + 1 = advance init w.mark
  nrHigh : m.highestTsnInsideNrMap + 1 = advance init w.nrMark
  base_le : w.base ≤ w.next
  below : ∀ j < w.next, j ∈ received
  has_iff : ∀ k, m.has k = true ↔ w.base + k ∈ received
  disjoint : ∀ k, isSet m.mappingArray k = true → isSet m.nrMappingArray k = false
  lt_mark : ∀ k, isSet m.mappingArray k = true → w.base + k < w.mark
  lt_nrMark : ∀ k, isSet m.nrMappingArray k = true → w.base + k < w.nrMark
  mark_le : w.mark ≤ w.base + 8 * m.mappingArraySize
  nrMark_le : w.nrMark ≤ w.base + 8 * m.mappingArraySize
  within : ∀ j ∈ received, j < w.base + 8 * mappingArrayMax

/-- So few TSNs that the largest map is less than half the circle away from the first one. -/
def Few (received : Finset ℕ) : Prop := received.card + 2 ^ 14 < 2 ^ 31

namespace Tracks

variable {m : TsnMap} {init : Tsn} {received : Finset ℕ} {w : Window}

theorem next_le (h : m.Tracks init received w) : w.next ≤ received.card := by
  have hsub : Finset.range w.next ⊆ received := fun j hj => h.below j (Finset.mem_range.1 hj)
  have hcard := Finset.card_le_card hsub
  rwa [Finset.card_range] at hcard

theorem size_lt (h : m.Tracks init received w) : 8 * m.mappingArraySize < 2 ^ 14 := by
  have := h.size_le
  unfold mappingArrayLimit mappingArrayMax mappingArrayIncr at this
  omega

theorem end_lt (h : m.Tracks init received w) (hfew : Few received) :
    w.base + 8 * m.mappingArraySize + 1 < 2 ^ 31 := by
  have := h.next_le
  have := h.base_le
  have := h.size_lt
  unfold Few at hfew
  omega

theorem dist_cum (h : m.Tracks init received w) (hfew : Few received) :
    dist init m.cumulativeTsn = w.next - 1 := by
  have := h.next_le
  unfold Few at hfew
  exact dist_of_add_one h.cum (by omega)

theorem dist_high (h : m.Tracks init received w) (hfew : Few received) :
    dist init m.highestTsnInsideMap = w.mark - 1 := by
  have := h.end_lt hfew
  have := h.mark_le
  exact dist_of_add_one h.high (by omega)

theorem dist_nrHigh (h : m.Tracks init received w) (hfew : Few received) :
    dist init m.highestTsnInsideNrMap = w.nrMark - 1 := by
  have := h.end_lt hfew
  have := h.nrMark_le
  exact dist_of_add_one h.nrHigh (by omega)

theorem dist_place (init : Tsn) {j : ℕ} (hj : j < 2 ^ 31) : dist init (advance init j) = j :=
  dist_advance init (by norm_num; omega)

theorem place (h : m.Tracks init received w) (k : ℕ) :
    advance m.mappingArrayBaseTsn k = advance init (w.base + k) := by
  rw [h.base, advance_add]

/-- The invariant of the gap reports. -/
theorem marked (h : m.Tracks init received w) (hfew : Few received) : m.Marked := by
  have hend := h.end_lt hfew
  have hhigh := h.dist_high hfew
  have hnrHigh := h.dist_nrHigh hfew
  have hmark := h.mark_le
  have hnrMark := h.nrMark_le
  constructor
  · exact h.toSized
  · exact h.size_le
  · intro k hk
    have hlt := h.lt_mark k hk
    have hdk := dist_place init (j := w.base + k) (by omega)
    rw [h.place, tsnGe_iff_dist init _ _ (by rw [hhigh, hdk]; omega), hhigh, hdk]
    omega
  · intro k hk
    have hlt := h.lt_nrMark k hk
    have hdk := dist_place init (j := w.base + k) (by omega)
    rw [h.place, tsnGe_iff_dist init _ _ (by rw [hnrHigh, hdk]; omega), hnrHigh, hdk]
    omega
  · have hde := dist_place init (j := w.base + 8 * m.mappingArraySize) (by omega)
    rw [h.place, tsnGt_iff_dist init _ _ (by rw [hhigh, hde]; omega), hhigh, hde]
    omega
  · have hde := dist_place init (j := w.base + 8 * m.mappingArraySize) (by omega)
    rw [h.place, tsnGt_iff_dist init _ _ (by rw [hnrHigh, hde]; omega), hnrHigh, hde]
    omega

/-- What a FORWARD-TSN finds. -/
theorem receiving (h : m.Tracks init received w) (hfew : Few received) : m.Receiving := by
  have hend := h.end_lt hfew
  have hle := h.base_le
  have hdist : Serial.dist m.mappingArrayBaseTsn m.cumulativeTsn = (w.next : ℤ) - w.base - 1 := by
    have hnext : m.cumulativeTsn + 1 = advance m.mappingArrayBaseTsn (w.next - w.base) := by
      rw [h.place, Nat.add_sub_cancel' hle]
      exact h.cum
    have hcard := h.next_le
    rw [dist_of_add_one hnext (by unfold Few at hfew; omega)]
    omega
  refine ⟨h.marked hfew, ?_, ?_, ?_⟩
  · rw [hdist]
    omega
  · rw [hdist]
    by_contra hge
    have hin := h.below (w.next - 1) (by omega)
    have hhas := (h.has_iff (w.next - 1 - w.base)).2 (by
      rw [show w.base + (w.next - 1 - w.base) = w.next - 1 by omega]
      exact hin)
    have := lt_of_has h.toSized hhas
    omega
  · intro k hk
    have := h.within _ ((h.has_iff k).1 hk)
    omega

/-- No place behind the map is received. -/
theorem lt_of_mem (h : m.Tracks init received w) {j : ℕ} (hj : j ∈ received) :
    j < w.base + 8 * m.mappingArraySize := by
  by_contra hge
  have hhas : m.has (j - w.base) = true := by
    rw [h.has_iff, Nat.add_sub_cancel' (by omega)]
    exact hj
  have := lt_of_has h.toSized hhas
  omega

/-- What a SACK is about: behind the cumulative TSN or in the map, it is received. -/
theorem mem_of_received (h : m.Tracks init received w) (hfew : Few received) {j : ℕ} (hj : j < 2 ^ 31)
    (hr : m.Received (advance init j)) : j ∈ received := by
  have hend := h.end_lt hfew
  have hdj := dist_place init hj
  obtain hcum | ⟨k, hk, heq⟩ := hr
  · have hlead := leading_le h.toSized
    have hcumEq : m.mappingArrayBaseTsn + (BitVec.ofNat 32 m.leading - 1) + 1 =
        advance init (w.base + m.leading) := by
      rw [← h.place]
      unfold advance
      bv_omega
    have hdc := dist_of_add_one hcumEq (by omega)
    rw [tsnGe_iff_dist init _ _ (by rw [hdc, hdj]; omega), hdc, hdj] at hcum
    by_cases hlt : j < w.base
    · exact h.below j (hlt.trans_le h.base_le)
    · have hhas := has_of_lt_leading h.toSized (k := j - w.base) (by omega)
      rwa [h.has_iff, Nat.add_sub_cancel' (by omega)] at hhas
  · have hlt := lt_of_has h.toSized hk
    rw [h.place, advance_inj (by omega) (by omega)] at heq
    rw [heq]
    exact (h.has_iff k).1 hk

/-- A chunk that is neither behind the cumulative TSN nor out of reach has a place in the map. -/
theorem chunk_place (h : m.Tracks init received w) (hfew : Few received) {tsn : Tsn}
    (hnew : tsnGe m.cumulativeTsn tsn = false) {gap : ℕ}
    (hgap : (calcTsnToGap tsn m.mappingArrayBaseTsn).toNat = gap) (hlt : gap < 8 * mappingArrayMax) :
    tsn = advance init (w.base + gap) ∧ w.next ≤ w.base + gap := by
  have htsn : tsn = advance init (w.base + gap) := by
    rw [← h.place, ← hgap, calcTsnToGap_eq, advance_toNat_sub]
  refine ⟨htsn, ?_⟩
  have := h.next_le
  have := h.base_le
  have hfew' := hfew
  unfold Few at hfew'
  have hmax : mappingArrayMax = 512 := rfl
  have hdc := h.dist_cum hfew
  have hdj := dist_place init (j := w.base + gap) (by omega)
  by_contra hcon
  have hge : tsnGe m.cumulativeTsn tsn = true := by
    rw [htsn, tsnGe_iff_dist init _ _ (by rw [hdc, hdj]; omega), hdc, hdj]
    omega
  rw [hnew] at hge
  cases hge

/-- A larger map. -/
theorem expand (h : m.Tracks init received w) {gap : ℕ} (hgap : gap < 8 * mappingArrayMax)
    (hle : 8 * m.mappingArraySize ≤ gap) : (m.expandMappingArray gap).Tracks init received w := by
  have hmax : mappingArrayMax = 512 := rfl
  have hmap : ∀ k, isSet (m.expandMappingArray gap).mappingArray k = isSet m.mappingArray k := by
    intro k
    unfold expandMappingArray
    dsimp only
    rw [List.take_of_length_le h.map.le, isSet_append_zero]
  have hnr : ∀ k, isSet (m.expandMappingArray gap).nrMappingArray k = isSet m.nrMappingArray k := by
    intro k
    unfold expandMappingArray
    dsimp only
    rw [List.take_of_length_le h.nr.le, isSet_append_zero]
  have hsize : (m.expandMappingArray gap).mappingArraySize =
      m.mappingArraySize + ((gap + 7) / 8 + 32) := rfl
  have hmark := h.mark_le
  have hnrMark := h.nrMark_le
  constructor
  · constructor
    · simp only [expandMappingArray, List.length_append, List.length_take, List.length_replicate, h.map]
      omega
    · simp only [expandMappingArray, List.length_append, List.length_take, List.length_replicate, h.nr]
      omega
  · rw [hsize]
    unfold mappingArrayLimit mappingArrayIncr
    omega
  · exact h.base
  · exact h.cum
  · exact h.high
  · exact h.nrHigh
  · exact h.base_le
  · exact h.below
  · intro k
    rw [has, hmap, hnr]
    exact h.has_iff k
  · intro k hk
    rw [hnr]
    exact h.disjoint k (hmap k ▸ hk)
  · exact fun k hk => h.lt_mark k (hmap k ▸ hk)
  · exact fun k hk => h.lt_nrMark k (hnr k ▸ hk)
  · rw [hsize]
    omega
  · rw [hsize]
    omega
  · exact h.within

theorem reach (h : m.Tracks init received w) {gap : ℕ} (hgap : gap < 8 * mappingArrayMax) :
    (m.reach gap).Tracks init received w ∧ gap < 8 * (m.reach gap).mappingArraySize := by
  unfold TsnMap.reach
  split_ifs with hle
  · refine ⟨h.expand hgap hle, ?_⟩
    change gap < 8 * (m.mappingArraySize + ((gap + 7) / 8 + 32))
    omega
  · exact ⟨h, by omega⟩

/-- A chunk is marked that has not been received. -/
theorem setPresent (h : m.Tracks init received w) {gap : ℕ} (hgap : gap < 8 * m.mappingArraySize)
    (hmax : gap < 8 * mappingArrayMax) (hnew : w.base + gap ∉ received) (hfew : Few received) :
    (m.setPresent (advance init (w.base + gap)) gap).Tracks init (insert (w.base + gap) received)
      { w with mark := max w.mark (w.base + gap + 1) } := by
  have hend := h.end_lt hfew
  have hmark := h.mark_le
  have hhas : ¬ m.has gap = true := fun hk => hnew ((h.has_iff gap).1 hk)
  have hset : ∀ k, isSet (setBit m.mappingArray gap) k = (decide (k = gap) || isSet m.mappingArray k) :=
    isSet_setBit (by rw [h.map]; exact hgap)
  constructor
  · exact ⟨(length_setBit _ _).trans h.map, h.nr⟩
  · exact h.size_le
  · exact h.base
  · exact h.cum
  · exact raised h.high (by omega) (by omega)
  · exact h.nrHigh
  · exact h.base_le
  · exact fun j hj => Finset.mem_insert_of_mem (h.below j hj)
  · intro k
    have hiff := h.has_iff k
    rw [has, Bool.or_eq_true] at hiff
    simp only [TsnMap.setPresent, has, hset, Bool.or_eq_true, decide_eq_true_eq, Finset.mem_insert,
      Nat.add_left_cancel_iff]
    tauto
  · intro k hk
    simp only [TsnMap.setPresent, hset, Bool.or_eq_true, decide_eq_true_eq] at hk
    obtain rfl | hk := hk
    · rw [has, Bool.or_eq_true, not_or, Bool.not_eq_true, Bool.not_eq_true] at hhas
      exact hhas.2
    · exact h.disjoint k hk
  · intro k hk
    simp only [TsnMap.setPresent, hset, Bool.or_eq_true, decide_eq_true_eq] at hk
    obtain rfl | hk := hk
    · exact lt_max_of_lt_right (Nat.lt_succ_self _)
    · exact lt_max_of_lt_left (h.lt_mark k hk)
  · exact h.lt_nrMark
  · exact max_le hmark (by change w.base + gap + 1 ≤ w.base + 8 * m.mappingArraySize; omega)
  · exact h.nrMark_le
  · intro j hj
    obtain rfl | hj := Finset.mem_insert.1 hj
    · exact Nat.add_lt_add_left hmax w.base
    · exact h.within j hj

theorem setNrPresent (h : m.Tracks init received w) {gap : ℕ} (hgap : gap < 8 * m.mappingArraySize)
    (hmax : gap < 8 * mappingArrayMax) (hnew : w.base + gap ∉ received) (hfew : Few received) :
    (m.setNrPresent (advance init (w.base + gap)) gap).Tracks init (insert (w.base + gap) received)
      { w with nrMark := max w.nrMark (w.base + gap + 1) } := by
  have hend := h.end_lt hfew
  have hmark := h.nrMark_le
  have hhas : ¬ m.has gap = true := fun hk => hnew ((h.has_iff gap).1 hk)
  have hset : ∀ k,
      isSet (setBit m.nrMappingArray gap) k = (decide (k = gap) || isSet m.nrMappingArray k) :=
    isSet_setBit (by rw [h.nr]; exact hgap)
  constructor
  · exact ⟨h.map, (length_setBit _ _).trans h.nr⟩
  · exact h.size_le
  · exact h.base
  · exact h.cum
  · exact h.high
  · exact raised h.nrHigh (by omega) (by omega)
  · exact h.base_le
  · exact fun j hj => Finset.mem_insert_of_mem (h.below j hj)
  · intro k
    have hiff := h.has_iff k
    rw [has, Bool.or_eq_true] at hiff
    simp only [TsnMap.setNrPresent, has, hset, Bool.or_eq_true, decide_eq_true_eq, Finset.mem_insert,
      Nat.add_left_cancel_iff]
    tauto
  · intro k hk
    simp only [TsnMap.setNrPresent, hset, Bool.or_eq_false_iff, decide_eq_false_iff_not]
    refine ⟨?_, h.disjoint k hk⟩
    rintro rfl
    rw [has, Bool.or_eq_true, not_or] at hhas
    exact hhas.1 hk
  · exact h.lt_mark
  · intro k hk
    simp only [TsnMap.setNrPresent, hset, Bool.or_eq_true, decide_eq_true_eq] at hk
    obtain rfl | hk := hk
    · exact lt_max_of_lt_right (Nat.lt_succ_self _)
    · exact lt_max_of_lt_left (h.lt_nrMark k hk)
  · exact h.mark_le
  · exact max_le hmark (by change w.base + gap + 1 ≤ w.base + 8 * m.mappingArraySize; omega)
  · intro j hj
    obtain rfl | hj := Finset.mem_insert.1 hj
    · exact Nat.add_lt_add_left hmax w.base
    · exact h.within j hj

/-- The cumulative TSN follows a TSN that is received. -/
theorem bumpCumAck (h : m.Tracks init received w) {j : ℕ} (hj : j ∈ received) (hfew : Few received) :
    ∃ next, (m.bumpCumAck (advance init j)).Tracks init received { w with next } := by
  have hend := h.end_lt hfew
  have hlt := h.lt_of_mem hj
  have hnext := h.next_le
  have hle := h.base_le
  unfold Few at hfew
  unfold TsnMap.bumpCumAck
  rw [h.cum]
  split_ifs with heq
  · rw [advance_inj (by omega) (by omega)] at heq
    refine ⟨w.next + 1, ⟨⟨h.map, h.nr⟩, h.size_le, h.base, ?_, h.high, h.nrHigh, by dsimp only; omega, ?_,
      h.has_iff, h.disjoint, h.lt_mark, h.lt_nrMark, h.mark_le, h.nrMark_le, h.within⟩⟩
    · rw [heq]
      exact advance_add init w.next 1
    · intro i hi
      obtain hi | rfl := Nat.lt_succ_iff_lt_or_eq.1 hi
      · exact h.below i hi
      · exact heq ▸ hj
  · exact ⟨w.next, h⟩

/-- The highest bit below `n`. -/
theorem backDown_spec (a : List Byte) (n : ℕ) :
    match backDown a n with
    | some k => k < n ∧ ∀ i, isSet a i = true → i < n → i ≤ k
    | none => ∀ i, isSet a i = true → n ≤ i := by
  induction n with
  | zero => exact fun i _ => Nat.zero_le i
  | succ n ih =>
    unfold backDown
    by_cases hset : isSet a n = true
    · rw [if_pos hset]
      exact ⟨Nat.lt_succ_self n, fun i _ hi => Nat.lt_succ_iff.1 hi⟩
    · rw [if_neg hset]
      revert ih
      cases backDown a n with
      | none =>
        intro ih i hi
        have hge := ih i hi
        obtain rfl | hne := eq_or_ne i n
        · exact absurd hi hset
        · omega
      | some k =>
        rintro ⟨hk, hmax⟩
        refine ⟨by omega, fun i hi hlt => ?_⟩
        obtain rfl | hne := eq_or_ne i n
        · exact absurd hi hset
        · exact hmax i hi (by omega)

/-- The highest TSN of a map that loses the place `j`. -/
theorem loweredHighest_spec {m' : TsnMap} {b j : ℕ} (hbase : m'.mappingArrayBaseTsn = advance init b)
    (hle : b ≤ j) (hj : j < 2 ^ 31) (hlt : ∀ k, isSet m'.mappingArray k = true → b + k < j) :
    ∃ c ≤ j, m'.loweredHighest (advance init j) + 1 = advance init c ∧
      ∀ k, isSet m'.mappingArray k = true → b + k < c := by
  have hprev : advance init j - 1 + 1 = advance init j := by bv_omega
  have hdp := dist_of_add_one hprev hj
  have hdb := dist_place init (j := b) (by omega)
  have hn : (if tsnGe (advance init j - 1) m'.mappingArrayBaseTsn then
      (calcTsnToGap (advance init j - 1) m'.mappingArrayBaseTsn).toNat + 1 else 0) = j - b := by
    rw [hbase, calcTsnToGap_eq]
    by_cases hlt : b < j
    · rw [if_pos (by rw [tsnGe_iff_dist init _ _ (by rw [hdp, hdb]; omega), hdp, hdb]; omega)]
      have hsub : advance init j - 1 - advance init b = BitVec.ofNat 32 (j - b - 1) := by
        unfold advance
        apply BitVec.eq_of_toNat_eq
        simp only [BitVec.toNat_sub, BitVec.toNat_add, BitVec.toNat_ofNat, BitVec.ofNat_eq_ofNat]
        omega
      rw [hsub, BitVec.toNat_ofNat, Nat.mod_eq_of_lt (by omega)]
      omega
    · rw [if_neg (by rw [tsnGe_iff_dist init _ _ (by rw [hdp, hdb]; omega), hdp, hdb]; omega)]
      omega
  have hspec := backDown_spec m'.mappingArray (j - b)
  unfold loweredHighest
  dsimp only
  rw [hn]
  revert hspec
  cases backDown m'.mappingArray (j - b) with
  | none =>
    intro hspec
    refine ⟨b, hle, ?_, fun k hk => ?_⟩
    · rw [hbase]
      bv_omega
    · have := hspec k hk
      have := hlt k hk
      omega
  | some k =>
    rintro ⟨hk, hmax⟩
    refine ⟨b + k + 1, by omega, ?_, fun i hi => ?_⟩
    · rw [hbase]
      change advance (advance init b) k + 1 = _
      rw [advance_add]
      exact advance_add init (b + k) 1
    · have := hlt i hi
      have := hmax i hi (by omega)
      omega

/-- A bit goes over from one map to the other. -/
theorem moveBit (h : m.Tracks init received w) {j : ℕ} (hj : j ∈ received) (hle : w.base ≤ j)
    (hfew : Few received) {a nr : List Byte} (ha : a.length = m.mappingArray.length)
    (hnr : nr.length = m.nrMappingArray.length)
    (hclear : ∀ k, isSet a k = (!decide (k = j - w.base) && isSet m.mappingArray k))
    (hset : ∀ k, isSet nr k = (decide (k = j - w.base) || isSet m.nrMappingArray k)) :
    Tracks { m with
        nrMappingArray := nr
        mappingArray := a
        highestTsnInsideNrMap :=
          if tsnGt (advance init j) m.highestTsnInsideNrMap then advance init j
          else m.highestTsnInsideNrMap } init received { w with nrMark := max w.nrMark (j + 1) } := by
  have hend := h.end_lt hfew
  have hlt := h.lt_of_mem hj
  have hnrMark := h.nrMark_le
  constructor
  · exact ⟨ha.trans h.map, hnr.trans h.nr⟩
  · exact h.size_le
  · exact h.base
  · exact h.cum
  · exact h.high
  · exact raised h.nrHigh (by omega) (by omega)
  · exact h.base_le
  · exact h.below
  · intro k
    have hiff := h.has_iff k
    rw [has, Bool.or_eq_true] at hiff
    simp only [has, hclear, hset, Bool.or_eq_true, Bool.and_eq_true, Bool.not_eq_true',
      decide_eq_false_iff_not, decide_eq_true_eq]
    constructor
    · rintro (hk | rfl | hk)
      · exact hiff.1 (.inl hk.2)
      · rwa [Nat.add_sub_cancel' hle]
      · exact hiff.1 (.inr hk)
    · intro hk
      have hor := hiff.2 hk
      by_cases heq : k = j - w.base
      · exact .inr (.inl heq)
      · exact hor.imp (fun hmap => ⟨heq, hmap⟩) .inr
  · intro k hk
    simp only [hclear, hset, Bool.and_eq_true, Bool.not_eq_true', Bool.or_eq_false_iff] at hk ⊢
    exact ⟨hk.1, h.disjoint k hk.2⟩
  · intro k hk
    rw [hclear, Bool.and_eq_true] at hk
    exact h.lt_mark k hk.2
  · intro k hk
    rw [hset, Bool.or_eq_true, decide_eq_true_eq] at hk
    obtain rfl | hk := hk
    · exact lt_max_of_lt_right (by change w.base + (j - w.base) < j + 1; omega)
    · exact lt_max_of_lt_left (h.lt_nrMark k hk)
  · exact h.mark_le
  · exact max_le hnrMark (by change j + 1 ≤ w.base + 8 * m.mappingArraySize; omega)
  · exact h.within

/-- The highest TSN has left the map. -/
theorem lowered (h : m.Tracks init received w) {j : ℕ} (hmark : w.mark = j + 1) (hle : w.base ≤ j)
    (hclear : isSet m.mappingArray (j - w.base) = false) (hfew : Few received) :
    ∃ mark, Tracks { m with highestTsnInsideMap := m.loweredHighest (advance init j) } init received
      { w with mark } := by
  have hend := h.end_lt hfew
  have hmarkLe := h.mark_le
  obtain ⟨c, hc, hhigh, hlt⟩ := loweredHighest_spec h.base hle (by omega) fun k hk => by
    have hk' := h.lt_mark k hk
    have hne : k ≠ j - w.base := by
      rintro rfl
      rw [hclear] at hk
      cases hk
    omega
  exact ⟨c, ⟨h.map, h.nr⟩, h.size_le, h.base, h.cum, hhigh, h.nrHigh, h.base_le, h.below, h.has_iff,
    h.disjoint, hlt, h.lt_nrMark, by change c ≤ w.base + 8 * m.mappingArraySize; omega, h.nrMark_le,
    h.within⟩

/-- A received TSN becomes non-revokable. -/
theorem markNonRevokable (h : m.Tracks init received w) {j : ℕ} (hj : j ∈ received)
    (hfew : Few received) (drain : Bool) :
    ∃ w', w'.base = w.base ∧ w'.next = w.next ∧
      (m.markNonRevokable drain (advance init j)).Tracks init received w' := by
  have hend := h.end_lt hfew
  have hlt := h.lt_of_mem hj
  have hnext := h.next_le
  have hbase := h.base_le
  have hmark := h.mark_le
  unfold TsnMap.markNonRevokable
  by_cases hdrain : (!drain) = true
  · rw [if_pos hdrain]
    exact ⟨w, rfl, rfl, h⟩
  rw [if_neg hdrain]
  by_cases hbehind : tsnGt (m.cumulativeTsn + 1) (advance init j) = true
  · rw [if_pos hbehind]
    exact ⟨w, rfl, rfl, h⟩
  rw [if_neg hbehind]
  have hle : w.base ≤ j := by
    by_contra hcon
    apply hbehind
    have hdn := dist_place init (j := w.next) (by unfold Few at hfew; omega)
    have hdj := dist_place init (j := j) (by omega)
    rw [h.cum, tsnGt_iff_dist init _ _ (by rw [hdn, hdj]; unfold Few at hfew; omega), hdn, hdj]
    omega
  have hgap : (calcTsnToGap (advance init j) m.mappingArrayBaseTsn).toNat = j - w.base := by
    rw [calcTsnToGap_eq]
    conv_lhs => rw [← Nat.add_sub_cancel' hle, ← h.place]
    exact toNat_advance_sub _ (by omega)
  rw [hgap]
  dsimp only
  have hclear : ∀ k, isSet (if isSet m.mappingArray (j - w.base) then
      clearBit m.mappingArray (j - w.base) else m.mappingArray) k =
        (!decide (k = j - w.base) && isSet m.mappingArray k) := by
    intro k
    split_ifs with hin
    · exact isSet_clearBit (by rw [h.map]; omega) k
    · by_cases heq : k = j - w.base
      · simp [heq, hin]
      · simp [heq]
  have hset : ∀ k, isSet (if isSet m.nrMappingArray (j - w.base) then m.nrMappingArray
      else setBit m.nrMappingArray (j - w.base)) k =
        (decide (k = j - w.base) || isSet m.nrMappingArray k) := by
    intro k
    split_ifs with hin
    · by_cases heq : k = j - w.base
      · simp [heq, hin]
      · simp [heq]
    · exact isSet_setBit (by rw [h.nr]; omega) k
  have hmoved := h.moveBit hj hle hfew (by split_ifs <;> simp) (by split_ifs <;> simp) hclear hset
  by_cases hlast : advance init j = m.highestTsnInsideMap
  · rw [if_pos hlast]
    have hplace : w.mark = j + 1 := by
      have hhigh := h.high
      rw [← hlast, show advance init j + 1 = advance init (j + 1) from advance_add init j 1,
        advance_inj (by omega) (by omega)] at hhigh
      exact hhigh.symm
    obtain ⟨mark, hlow⟩ := hmoved.lowered hplace hle (by simp [hclear]) hfew
    exact ⟨{ w with mark, nrMark := max w.nrMark (j + 1) }, rfl, rfl, hlow⟩
  · rw [if_neg hlast]
    exact ⟨{ w with nrMark := max w.nrMark (j + 1) }, rfl, rfl, hmoved⟩

end Tracks

end TsnMap

end Sctp
