import Sctp.Lib.Bitmap
import Sctp.Tsn

/-! The receiver's two TSN bitmaps: `mapping_array` holds received TSNs that may still be
revoked, `nr_mapping_array` those that may not. Both start at `mapping_array_base_tsn`. -/
namespace Sctp
open Bitmap

structure TsnMap where
  mappingArray : List Byte
  nrMappingArray : List Byte
  mappingArraySize : ℕ
  mappingArrayBaseTsn : Tsn
  cumulativeTsn : Tsn
  highestTsnInsideMap : Tsn
  highestTsnInsideNrMap : Tsn
deriving DecidableEq, Repr

def mappingArrayMax : ℕ := 512
def mappingArrayIncr : ℕ := 32

/-- For each byte the number of one bits before its lowest zero bit. -/
def sctpMapLookupTab : List ℕ := [
  0, 1, 0, 2, 0, 1, 0, 3, 0, 1, 0, 2, 0, 1, 0, 4, 0, 1, 0, 2, 0, 1, 0, 3, 0, 1, 0, 2, 0, 1, 0, 5,
  0, 1, 0, 2, 0, 1, 0, 3, 0, 1, 0, 2, 0, 1, 0, 4, 0, 1, 0, 2, 0, 1, 0, 3, 0, 1, 0, 2, 0, 1, 0, 6,
  0, 1, 0, 2, 0, 1, 0, 3, 0, 1, 0, 2, 0, 1, 0, 4, 0, 1, 0, 2, 0, 1, 0, 3, 0, 1, 0, 2, 0, 1, 0, 5,
  0, 1, 0, 2, 0, 1, 0, 3, 0, 1, 0, 2, 0, 1, 0, 4, 0, 1, 0, 2, 0, 1, 0, 3, 0, 1, 0, 2, 0, 1, 0, 7,
  0, 1, 0, 2, 0, 1, 0, 3, 0, 1, 0, 2, 0, 1, 0, 4, 0, 1, 0, 2, 0, 1, 0, 3, 0, 1, 0, 2, 0, 1, 0, 5,
  0, 1, 0, 2, 0, 1, 0, 3, 0, 1, 0, 2, 0, 1, 0, 4, 0, 1, 0, 2, 0, 1, 0, 3, 0, 1, 0, 2, 0, 1, 0, 6,
  0, 1, 0, 2, 0, 1, 0, 3, 0, 1, 0, 2, 0, 1, 0, 4, 0, 1, 0, 2, 0, 1, 0, 3, 0, 1, 0, 2, 0, 1, 0, 5,
  0, 1, 0, 2, 0, 1, 0, 3, 0, 1, 0, 2, 0, 1, 0, 4, 0, 1, 0, 2, 0, 1, 0, 3, 0, 1, 0, 2, 0, 1, 0, 8]

theorem sctpMapLookupTab_spec (v : Byte) (h : v ≠ 0xff) :
    sctpMapLookupTab.getD v.toNat 0 < 8 ∧
      (∀ i < sctpMapLookupTab.getD v.toNat 0, v.getLsbD i = true) ∧
      v.getLsbD (sctpMapLookupTab.getD v.toNat 0) = false := by
  revert v
  decide +kernel

namespace TsnMap

/-- `sctp_expand_mapping_array`, when both allocations succeed. -/
def expandMappingArray (s : TsnMap) (needed : ℕ) : TsnMap :=
  let newSize := s.mappingArraySize + ((needed + 7) / 8 + mappingArrayIncr)
  { s with
    mappingArray := s.mappingArray.take s.mappingArraySize ++
      List.replicate (newSize - s.mappingArraySize) 0
    nrMappingArray := s.nrMappingArray.take s.mappingArraySize ++
      List.replicate (newSize - s.mappingArraySize) 0
    mappingArraySize := newSize }

/-- The bytes the slide looks at, both arrays or-ed together. -/
def orBytes (s : TsnMap) : List Byte :=
  (List.range s.mappingArraySize).map fun i => s.nrMappingArray.getD i 0 ||| s.mappingArray.getD i 0

/-- First byte that is not `0xff` and the number of one bits in front of the first zero bit. -/
def scan : List Byte → ℕ × ℕ
  | [] => (0, 0)
  | val :: rest =>
    if val = 0xff then
      let r := scan rest
      (r.1 + 1, r.2 + 8)
    else (0, sctpMapLookupTab.getD val.toNat 0)

def highestTsn (s : TsnMap) : Tsn :=
  if tsnGt s.highestTsnInsideNrMap s.highestTsnInsideMap then s.highestTsnInsideNrMap
  else s.highestTsnInsideMap

/-- First part of the slide: recompute the cumulative TSN from the bits. -/
def updateCumAck (s : TsnMap) (bits : ℕ) : TsnMap :=
  let cum := s.mappingArrayBaseTsn + (BitVec.ofNat 32 bits - 1)
  if tsnGt cum s.highestTsnInsideMap && tsnGt cum s.highestTsnInsideNrMap then
    { s with
      cumulativeTsn := cum
      highestTsnInsideMap := cum
      highestTsnInsideNrMap := cum }
  else { s with cumulativeTsn := cum }

/-- `memset(array, 0, n)`. -/
def zeroBytes (a : List Byte) (n : ℕ) : List Byte := List.replicate n 0 ++ a.drop n

/-- Everything up to the highest TSN is contiguous: clear the arrays and restart behind it. -/
def clearArrays (s : TsnMap) (bits : ℕ) : TsnMap :=
  let clr := min ((bits + 7) / 8) s.mappingArraySize
  { s with
    mappingArray := zeroBytes s.mappingArray clr
    nrMappingArray := zeroBytes s.nrMappingArray clr
    mappingArrayBaseTsn := s.cumulativeTsn + 1
    highestTsnInsideNrMap := s.cumulativeTsn
    highestTsnInsideMap := s.cumulativeTsn }

/-- Move `distance` bytes from position `slideFrom` to the front and zero the rest. -/
def moveBytes (a : List Byte) (slideFrom distance size : ℕ) : List Byte :=
  (List.range size).map fun i => if i < distance then a.getD (slideFrom + i) 0 else 0

def shiftArrays (s : TsnMap) (slideFrom distance : ℕ) : TsnMap :=
  let step := BitVec.ofNat 32 (8 * slideFrom)
  { s with
    mappingArray := moveBytes s.mappingArray slideFrom distance s.mappingArraySize
    nrMappingArray := moveBytes s.nrMappingArray slideFrom distance s.mappingArraySize
    highestTsnInsideMap :=
      if s.highestTsnInsideMap + 1 = s.mappingArrayBaseTsn then s.highestTsnInsideMap + step
      else s.highestTsnInsideMap
    highestTsnInsideNrMap :=
      if s.highestTsnInsideNrMap + 1 = s.mappingArrayBaseTsn then s.highestTsnInsideNrMap + step
      else s.highestTsnInsideNrMap
    mappingArrayBaseTsn := s.mappingArrayBaseTsn + step }

def slideMappingArrays (s : TsnMap) : TsnMap :=
  let (slideFrom, bits) := scan s.orBytes
  let s := s.updateCumAck bits
  let highest := s.highestTsn
  if s.cumulativeTsn = highest ∧ 8 ≤ bits then s.clearArrays bits
  else if 8 ≤ bits then
    -- `lgap` is a signed int in the source
    let lgap := (calcTsnToGap highest s.mappingArrayBaseTsn).toInt
    let slideEnd := lgap / 8
    if slideEnd < slideFrom then s
    else
      let slideEnd := if slideEnd > s.mappingArraySize then (s.mappingArraySize : ℤ) else slideEnd
      let distance := slideEnd - slideFrom + 1
      if distance + slideFrom > s.mappingArraySize ∨ distance < 0 then s
      else s.shiftArrays slideFrom distance.toNat
  else s

theorem isSet_cons (v : Byte) (l : List Byte) (k : ℕ) :
    isSet (v :: l) k = if k < 8 then v.getLsbD k else isSet l (k - 8) := by
  unfold isSet
  split_ifs with h
  · rw [Nat.div_eq_of_lt h, Nat.mod_eq_of_lt h, List.getD_cons_zero]
  · rw [show k / 8 = (k - 8) / 8 + 1 by omega, List.getD_cons_succ,
      show k % 8 = (k - 8) % 8 by omega]

theorem scan_fst (l : List Byte) : (scan l).1 = (scan l).2 / 8 := by
  induction l with
  | nil => rfl
  | cons v l ih =>
    unfold scan
    split_ifs with h
    · simp only [ih]
      omega
    · have := (sctpMapLookupTab_spec v h).1
      simp only
      omega

theorem scan_le (l : List Byte) : (scan l).2 ≤ 8 * l.length := by
  induction l with
  | nil => simp [scan]
  | cons v l ih =>
    unfold scan
    rw [List.length_cons]
    split_ifs with h
    · simp only
      omega
    · have := (sctpMapLookupTab_spec v h).1
      simp only
      omega

theorem isSet_of_lt_scan (l : List Byte) {k : ℕ} (hk : k < (scan l).2) : isSet l k = true := by
  induction l generalizing k with
  | nil => simp [scan] at hk
  | cons v l ih =>
    unfold scan at hk
    rw [isSet_cons]
    split_ifs at hk with h
    · split_ifs with h8
      · subst h
        have : ∀ i < 8, BitVec.getLsbD (0xff : Byte) i = true := by decide
        exact this k h8
      · exact ih (by simp only at hk; omega)
    · obtain ⟨h1, h2, _⟩ := sctpMapLookupTab_spec v h
      rw [if_pos (by omega)]
      exact h2 k hk

theorem isSet_scan (l : List Byte) : isSet l (scan l).2 = false := by
  induction l with
  | nil => rfl
  | cons v l ih =>
    rw [isSet_cons]
    unfold scan
    split_ifs with h h8 h8
    · simp only at h8
      omega
    · simpa using ih
    · exact (sctpMapLookupTab_spec v h).2.2
    · exact absurd (sctpMapLookupTab_spec v h).1 h8

/-- A TSN at offset `k` has been received. -/
def has (s : TsnMap) (k : ℕ) : Bool := isSet s.mappingArray k || isSet s.nrMappingArray k

theorem isSet_map_range (f : ℕ → Byte) (n k : ℕ) :
    isSet ((List.range n).map f) k = (decide (k < 8 * n) && (f (k / 8)).getLsbD (k % 8)) := by
  unfold isSet
  by_cases h : k / 8 < n
  · have hk : k < 8 * n := by omega
    simp [List.getD_eq_getElem?_getD, List.getElem?_map, List.getElem?_range h, hk]
  · have hk : ¬ k < 8 * n := by omega
    rw [List.getD_eq_getElem?_getD, List.getElem?_eq_none (by simp; omega)]
    simp [hk]

structure Sized (s : TsnMap) : Prop where
  map : s.mappingArray.length = s.mappingArraySize
  nr : s.nrMappingArray.length = s.mappingArraySize

theorem isSet_orBytes {s : TsnMap} (h : s.Sized) (k : ℕ) : isSet s.orBytes k = s.has k := by
  unfold orBytes has
  rw [isSet_map_range]
  by_cases hk : k < 8 * s.mappingArraySize
  · simp only [hk, decide_true, Bool.true_and, BitVec.getLsbD_or, isSet]
    exact Bool.or_comm _ _
  · rw [isSet_of_length_le (a := s.mappingArray) (by have := h.map; omega),
      isSet_of_length_le (a := s.nrMappingArray) (by have := h.nr; omega)]
    simp [hk]

/-- The number of received TSNs in a row from the start of the map on. -/
def leading (s : TsnMap) : ℕ := (List.range (8 * s.mappingArraySize)).takeWhile s.has |>.length

theorem length_takeWhile_range {f : ℕ → Bool} {n p : ℕ} (h1 : ∀ k < p, f k = true)
    (h2 : p ≤ n) (h3 : f p = false) : ((List.range n).takeWhile f).length = p := by
  obtain ⟨m, rfl⟩ := Nat.exists_eq_add_of_le h2
  rw [List.range_add, List.takeWhile_append_of_pos (by simpa using h1), List.length_append,
    List.length_range]
  cases m with
  | zero => simp
  | succ m => simp [List.range_succ_eq_map, h3]

theorem scan_orBytes {s : TsnMap} (h : s.Sized) : (scan s.orBytes).2 = s.leading := by
  symm
  apply length_takeWhile_range
  · intro k hk
    rw [← isSet_orBytes h]
    exact isSet_of_lt_scan _ hk
  · simpa [orBytes] using scan_le s.orBytes
  · rw [← isSet_orBytes h]
    exact isSet_scan _

theorem has_of_lt_leading {s : TsnMap} (h : s.Sized) {k : ℕ} (hk : k < s.leading) :
    s.has k = true := by
  rw [← isSet_orBytes h]
  exact isSet_of_lt_scan _ (by rwa [scan_orBytes h])

theorem has_leading {s : TsnMap} (h : s.Sized) : s.has s.leading = false := by
  rw [← isSet_orBytes h, ← scan_orBytes h]
  exact isSet_scan _

theorem leading_le {s : TsnMap} (h : s.Sized) : s.leading ≤ 8 * s.mappingArraySize := by
  rw [← scan_orBytes h]
  simpa [orBytes] using scan_le s.orBytes

theorem lt_of_has {s : TsnMap} (h : s.Sized) {k : ℕ} (hk : s.has k = true) :
    k < 8 * s.mappingArraySize := by
  rcases Bool.or_eq_true_iff.mp hk with hk | hk
  · exact h.map ▸ lt_of_isSet hk
  · exact h.nr ▸ lt_of_isSet hk

theorem isSet_moveBytes {a : List Byte} {n : ℕ} (ha : a.length = n) (i d k : ℕ) :
    isSet (moveBytes a i d n) k = (decide (k < 8 * d) && isSet a (k + 8 * i)) := by
  unfold moveBytes
  rw [isSet_map_range]
  by_cases hd : k / 8 < d
  · have hk : k < 8 * d := by omega
    simp only [hd, if_true, hk, decide_true, Bool.true_and]
    by_cases hn : k < 8 * n
    · simp only [hn, decide_true, Bool.true_and, isSet]
      rw [show (k + 8 * i) / 8 = i + k / 8 by omega, show (k + 8 * i) % 8 = k % 8 by omega]
    · rw [isSet_of_length_le (a := a) (by omega)]
      simp [hn]
  · have hk : ¬ k < 8 * d := by omega
    simp [hd, hk]

theorem isSet_zeroBytes (a : List Byte) (n k : ℕ) :
    isSet (zeroBytes a n) k = (decide (8 * n ≤ k) && isSet a k) := by
  unfold zeroBytes isSet
  by_cases h : k / 8 < n
  · have hk : ¬ 8 * n ≤ k := by omega
    rw [List.getD_eq_getElem?_getD, List.getElem?_append_left (by simpa using h)]
    simp [hk, h]
  · have hk : 8 * n ≤ k := by omega
    rw [List.getD_eq_getElem?_getD, List.getElem?_append_right (by simpa using h)]
    simp only [List.length_replicate, hk, decide_true, Bool.true_and,
      List.getD_eq_getElem?_getD, List.getElem?_drop]
    rw [show n + (k / 8 - n) = k / 8 by omega]

@[simp] theorem length_moveBytes (a : List Byte) (i d n : ℕ) : (moveBytes a i d n).length = n := by
  simp [moveBytes]

theorem length_zeroBytes {a : List Byte} {n : ℕ} (hn : n ≤ a.length) :
    (zeroBytes a n).length = a.length := by
  simp only [zeroBytes, List.length_append, List.length_replicate, List.length_drop]
  omega

/-- No map grows past this many bytes: an array is expanded for an offset below
`8 * mappingArrayMax` only, and only when it is shorter than that. -/
def mappingArrayLimit : ℕ := 2 * mappingArrayMax + mappingArrayIncr

/-- The highest marks bound the set bits and lie inside the map or behind it. -/
structure Marked (s : TsnMap) : Prop extends s.Sized where
  size_le : s.mappingArraySize ≤ mappingArrayLimit
  map_le : ∀ k, isSet s.mappingArray k = true →
    tsnGe s.highestTsnInsideMap (Serial.advance s.mappingArrayBaseTsn k) = true
  nr_le : ∀ k, isSet s.nrMappingArray k = true →
    tsnGe s.highestTsnInsideNrMap (Serial.advance s.mappingArrayBaseTsn k) = true
  map_lt : tsnGt (Serial.advance s.mappingArrayBaseTsn (8 * s.mappingArraySize))
    s.highestTsnInsideMap = true
  nr_lt : tsnGt (Serial.advance s.mappingArrayBaseTsn (8 * s.mappingArraySize))
    s.highestTsnInsideNrMap = true

theorem dist_of_tsnGt {b m : Tsn} {n : ℕ} (hn : n < 2 ^ 31)
    (h : tsnGt (Serial.advance b n) m = true) :
    (n : ℤ) - 2 ^ 31 < Serial.dist b m ∧ Serial.dist b m < n := by
  rw [tsnGt_iff] at h
  simp only [Serial.dist, Serial.advance, BitVec.toInt_eq_toNat_cond, BitVec.toNat_sub,
    BitVec.toNat_add, BitVec.toNat_ofNat] at h ⊢
  have hb := b.isLt
  have hm := m.isLt
  split_ifs at h ⊢ <;> omega

theorem le_dist_of_tsnGe {b m : Tsn} {n k : ℕ} (hn : n < 2 ^ 31) (hk : k < n)
    (h : tsnGt (Serial.advance b n) m = true) (hg : tsnGe m (Serial.advance b k) = true) :
    (k : ℤ) ≤ Serial.dist b m := by
  have hd := dist_of_tsnGt hn h
  have hdk : Serial.dist b (Serial.advance b k) = k :=
    Serial.dist_advance b (by norm_num; omega)
  rwa [tsnGe_iff_dist b _ _ (by rw [hdk]; omega), hdk] at hg

namespace Marked
variable {s : TsnMap} (h : s.Marked)
include h

theorem size_lt : 8 * s.mappingArraySize < 2 ^ 14 := by
  have := h.size_le
  unfold mappingArrayLimit mappingArrayMax mappingArrayIncr at this
  omega

theorem dist_map : (8 * s.mappingArraySize : ℤ) - 2 ^ 31 <
      Serial.dist s.mappingArrayBaseTsn s.highestTsnInsideMap ∧
    Serial.dist s.mappingArrayBaseTsn s.highestTsnInsideMap < 8 * s.mappingArraySize := by
  have := dist_of_tsnGt (by have := h.size_lt; omega) h.map_lt
  push_cast at this
  exact this

theorem dist_nr : (8 * s.mappingArraySize : ℤ) - 2 ^ 31 <
      Serial.dist s.mappingArrayBaseTsn s.highestTsnInsideNrMap ∧
    Serial.dist s.mappingArrayBaseTsn s.highestTsnInsideNrMap < 8 * s.mappingArraySize := by
  have := dist_of_tsnGt (by have := h.size_lt; omega) h.nr_lt
  push_cast at this
  exact this

theorem le_dist_map {k : ℕ} (hk : isSet s.mappingArray k = true) :
    (k : ℤ) ≤ Serial.dist s.mappingArrayBaseTsn s.highestTsnInsideMap :=
  le_dist_of_tsnGe (by have := h.size_lt; omega) (h.map ▸ lt_of_isSet hk) h.map_lt (h.map_le k hk)

theorem le_dist_nr {k : ℕ} (hk : isSet s.nrMappingArray k = true) :
    (k : ℤ) ≤ Serial.dist s.mappingArrayBaseTsn s.highestTsnInsideNrMap :=
  le_dist_of_tsnGe (by have := h.size_lt; omega) (h.nr ▸ lt_of_isSet hk) h.nr_lt (h.nr_le k hk)

/-- The larger mark as a distance: it is the maximum of the two. -/
theorem dist_highestTsn : Serial.dist s.mappingArrayBaseTsn s.highestTsn =
    max (Serial.dist s.mappingArrayBaseTsn s.highestTsnInsideMap)
      (Serial.dist s.mappingArrayBaseTsn s.highestTsnInsideNrMap) := by
  have h1 := h.dist_map
  have h2 := h.dist_nr
  have hs := h.size_lt
  unfold highestTsn
  have hgt := tsnGt_iff_dist s.mappingArrayBaseTsn s.highestTsnInsideNrMap s.highestTsnInsideMap
    (by omega)
  split_ifs with hc
  · rw [hgt] at hc
    exact (max_eq_right hc.le).symm
  · rw [hgt] at hc
    exact (max_eq_left (not_lt.mp hc)).symm

theorem le_dist_highestTsn {k : ℕ} (hk : s.has k = true) :
    (k : ℤ) ≤ Serial.dist s.mappingArrayBaseTsn s.highestTsn := by
  rw [h.dist_highestTsn]
  rcases Bool.or_eq_true_iff.mp hk with hk | hk
  · exact le_max_of_le_left (h.le_dist_map hk)
  · exact le_max_of_le_right (h.le_dist_nr hk)

end Marked

end TsnMap

end Sctp
