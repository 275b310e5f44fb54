import Mathlib.Data.BitVec
import Mathlib.Tactic

/-! Bitmaps kept in an array of bytes, least significant bit first. -/
namespace Bitmap

abbrev Byte := BitVec 8

/-- Bits past the end of the array read as zero. -/
def isSet (a : List Byte) (k : ℕ) : Bool := (a.getD (k / 8) 0).getLsbD (k % 8)

def setBit (a : List Byte) (k : ℕ) : List Byte :=
  a.modify (k / 8) (· ||| (1#8 <<< (k % 8)))

def clearBit (a : List Byte) (k : ℕ) : List Byte :=
  a.modify (k / 8) (· &&& ~~~(1#8 <<< (k % 8)))

@[simp] theorem length_setBit (a : List Byte) (k : ℕ) : (setBit a k).length = a.length := by
  simp [setBit]

@[simp] theorem length_clearBit (a : List Byte) (k : ℕ) : (clearBit a k).length = a.length := by
  simp [clearBit]

theorem isSet_of_length_le {a : List Byte} {k : ℕ} (h : 8 * a.length ≤ k) :
    isSet a k = false := by
  have hk : a.length ≤ k / 8 := by omega
  simp [isSet, List.getD_eq_getElem?_getD, List.getElem?_eq_none hk]

theorem lt_of_isSet {a : List Byte} {k : ℕ} (h : isSet a k = true) : k < 8 * a.length := by
  by_contra hk
  rw [isSet_of_length_le (by omega)] at h
  exact Bool.false_ne_true h

private theorem getLsbD_one_shiftLeft (i j : ℕ) (hi : i < 8) :
    (1#8 <<< j).getLsbD i = decide (i = j) := by
  rw [BitVec.getLsbD_shiftLeft, BitVec.getLsbD_one]
  by_cases h : i = j
  · subst h
    simp [hi]
  · have hne : i < j ∨ i - j ≠ 0 := by omega
    rcases hne with h' | h' <;> simp [h', h]

private theorem getD_modify (a : List Byte) (i j : ℕ) (f : Byte → Byte) (hi : i < a.length) :
    (a.modify i f).getD j 0 = if i = j then f (a.getD j 0) else a.getD j 0 := by
  simp only [List.getD_eq_getElem?_getD, List.getElem?_modify]
  by_cases h : i = j
  · subst h
    simp [List.getElem?_eq_getElem hi]
  · simp [h]

theorem isSet_setBit {a : List Byte} {k : ℕ} (hk : k < 8 * a.length) (j : ℕ) :
    isSet (setBit a k) j = (decide (j = k) || isSet a j) := by
  have hi : k / 8 < a.length := by omega
  have hj : j % 8 < 8 := Nat.mod_lt _ (by norm_num)
  simp only [isSet, setBit, getD_modify a _ _ _ hi]
  by_cases hb : k / 8 = j / 8
  · have hiff : (j % 8 = k % 8) ↔ j = k := by omega
    simp only [hb, if_pos, BitVec.getLsbD_or, getLsbD_one_shiftLeft _ _ hj, hiff]
    exact Bool.or_comm _ _
  · have hne : j ≠ k := by rintro rfl; exact hb rfl
    simp [hb, hne]

theorem isSet_clearBit {a : List Byte} {k : ℕ} (hk : k < 8 * a.length) (j : ℕ) :
    isSet (clearBit a k) j = (!decide (j = k) && isSet a j) := by
  have hi : k / 8 < a.length := by omega
  have hj : j % 8 < 8 := Nat.mod_lt _ (by norm_num)
  simp only [isSet, clearBit, getD_modify a _ _ _ hi]
  by_cases hb : k / 8 = j / 8
  · have hiff : (j % 8 = k % 8) ↔ j = k := by omega
    simp only [hb, if_pos, BitVec.getLsbD_and, BitVec.getLsbD_not, hj, decide_true, Bool.true_and,
      getLsbD_one_shiftLeft _ _ hj, hiff]
    exact Bool.and_comm _ _
  · have hne : j ≠ k := by rintro rfl; exact hb rfl
    simp [hb, hne]

@[simp] theorem isSet_replicate_zero (n k : ℕ) : isSet (List.replicate n 0) k = false := by
  simp only [isSet, List.getD_eq_getElem?_getD, List.getElem?_replicate]
  split <;> simp

theorem isSet_append_zero (a : List Byte) (n k : ℕ) :
    isSet (a ++ List.replicate n 0) k = isSet a k := by
  by_cases h : k / 8 < a.length
  · simp [isSet, List.getD_eq_getElem?_getD, List.getElem?_append_left h]
  · have hz := isSet_replicate_zero n (k - 8 * a.length)
    rw [isSet_of_length_le (a := a) (by omega), ← hz]
    simp only [isSet, List.getD_eq_getElem?_getD, List.getElem?_append_right (not_lt.mp h)]
    rw [show (k - 8 * a.length) / 8 = k / 8 - a.length by omega,
      show (k - 8 * a.length) % 8 = k % 8 by omega]

end Bitmap
