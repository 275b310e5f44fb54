import Sctp.Auth.Model

/-! The association key: `sctp_compute_hashkey` and the order of the two key vectors in it. -/
namespace Sctp.Auth

/-- `sctp_get_keylen`; a null pointer counts as the empty key. -/
def getKeylen (key : Option Key) : ℕ := (key.map fun k => k.bytes.length).getD 0

def keyBytes (key : Option Key) : Bytes := (key.map Key.bytes).getD []

@[simp] theorem length_keyBytes (key : Option Key) : (keyBytes key).length = getKeylen key := by
  cases key <;> rfl

/-- A byte of the key, padded with zeros on the left to `maxlen` bytes. -/
def paddedByte (key : Bytes) (maxlen i : ℕ) : BitVec 8 :=
  if i < maxlen - key.length then 0 else key.getD (i - (maxlen - key.length)) 0

/-- The loop of `sctp_compare_key`, over the places still to come. -/
def compareFrom (key1 key2 : Bytes) (maxlen : ℕ) : List ℕ → ℤ
  | [] => 0
  | i :: is =>
    let val1 := paddedByte key1 maxlen i
    let val2 := paddedByte key2 maxlen i
    if val2 < val1 then 1
    else if val1 < val2 then -1
    else compareFrom key1 key2 maxlen is

/-- Keys of the same value are ordered by their lengths. -/
def compareLength (len1 len2 : ℕ) : ℤ :=
  if len1 = len2 then 0 else if len1 < len2 then -1 else 1

/-- `maxlen` of `sctp_compare_key`. -/
def maxKeylen (len1 len2 : ℕ) : ℕ := if len1 < len2 then len2 else len1

def compareKey (key1 key2 : Option Key) : ℤ :=
  let key1len := getKeylen key1
  let key2len := getKeylen key2
  if key1len = 0 ∧ key2len = 0 then 0
  else if key1len = 0 then -1
  else if key2len = 0 then 1
  else
    let maxlen := maxKeylen key1len key2len
    let c := compareFrom (keyBytes key1) (keyBytes key2) maxlen (List.range maxlen)
    if c ≠ 0 then c else compareLength key1len key2len

def appendKey (dst : Key × ℕ) (key : Option Key) : Key × ℕ :=
  if getKeylen key = 0 then dst
  else (dst.1.copyIn dst.2 (keyBytes key), dst.2 + getKeylen key)

/-- `sctp_compute_hashkey`. The length is a sum of 32-bit numbers; `garbage` is what the new memory
holds, `memory` whether there is any. -/
def computeHashkey (memory : Bool) (garbage : ℕ → BitVec 8) (key1 key2 shared : Option Key) :
    Option Key :=
  let keylen := (getKeylen key1 + getKeylen key2 + getKeylen shared) % 2 ^ 32
  if keylen = 0 then none
  else if memory then
    let new := (Key.alloc garbage keylen, 0)
    if compareKey key1 key2 ≤ 0 then
      some (appendKey (appendKey (appendKey new shared) key1) key2).1
    else some (appendKey (appendKey (appendKey new shared) key2) key1).1
  else none

theorem compareFrom_swap (key1 key2 : Bytes) (maxlen : ℕ) (is : List ℕ) :
    compareFrom key2 key1 maxlen is = -compareFrom key1 key2 maxlen is := by
  induction is with
  | nil => rfl
  | cons i is ih =>
    unfold compareFrom
    dsimp only
    by_cases h21 : paddedByte key2 maxlen i < paddedByte key1 maxlen i
    · have h12 : ¬ paddedByte key1 maxlen i < paddedByte key2 maxlen i := by
        intro h
        exact absurd (BitVec.lt_trans h21 h) (BitVec.lt_irrefl _)
      rw [if_neg h12, if_pos h21, if_pos h21]
    · by_cases h12 : paddedByte key1 maxlen i < paddedByte key2 maxlen i
      · rw [if_pos h12, if_neg h21, if_pos h12, neg_neg]
      · rw [if_neg h12, if_neg h21, if_neg h21, if_neg h12, ih]

/-- Where the loop finds no difference the padded bytes agree. -/
theorem paddedByte_eq_of_compareFrom {key1 key2 : Bytes} {maxlen : ℕ} {is : List ℕ}
    (h : compareFrom key1 key2 maxlen is = 0) :
    ∀ i ∈ is, paddedByte key1 maxlen i = paddedByte key2 maxlen i := by
  induction is with
  | nil =>
    intro i hi
    cases hi
  | cons j is ih =>
    unfold compareFrom at h
    dsimp only at h
    split_ifs at h with h21 h12
    · exact absurd h one_ne_zero
    · intro i hi
      rcases List.mem_cons.mp hi with rfl | hi
      · exact BitVec.le_antisymm (BitVec.not_lt.mp h21) (BitVec.not_lt.mp h12)
      · exact ih h i hi

theorem paddedByte_length (key : Bytes) (i : ℕ) : paddedByte key key.length i = key.getD i 0 := by
  unfold paddedByte
  rw [Nat.sub_self, if_neg (Nat.not_lt_zero i), Nat.sub_zero]

theorem compareLength_swap (len1 len2 : ℕ) : compareLength len2 len1 = -compareLength len1 len2 := by
  unfold compareLength
  split_ifs <;> omega

theorem maxKeylen_comm (len1 len2 : ℕ) : maxKeylen len2 len1 = maxKeylen len1 len2 := by
  unfold maxKeylen
  split_ifs <;> omega

theorem compareKey_swap (key1 key2 : Option Key) : compareKey key2 key1 = -compareKey key1 key2 := by
  unfold compareKey
  dsimp only
  rw [maxKeylen_comm (getKeylen key1), compareFrom_swap (keyBytes key1) (keyBytes key2),
    compareLength_swap (getKeylen key1)]
  split_ifs <;> omega

theorem eq_of_compareLength {len1 len2 : ℕ} (h : compareLength len1 len2 = 0) : len1 = len2 := by
  unfold compareLength at h
  split_ifs at h with heq
  · exact heq
  · exact absurd h one_ne_zero

/-- Keys of one length that the loop does not tell apart are the same. -/
theorem eq_of_compareFrom {key1 key2 : Bytes} (hlen : key1.length = key2.length)
    (h : compareFrom key1 key2 key1.length (List.range key1.length) = 0) : key1 = key2 := by
  have hagree := paddedByte_eq_of_compareFrom h
  apply List.ext_getElem hlen
  intro i hi1 hi2
  have hi := hagree i (List.mem_range.mpr hi1)
  rw [paddedByte_length, hlen, paddedByte_length] at hi
  rwa [List.getD_eq_getElem _ _ hi1, List.getD_eq_getElem _ _ hi2] at hi

/-- Keys that compare as equal are byte by byte the same. -/
theorem keyBytes_eq_of_compareKey {key1 key2 : Option Key} (h : compareKey key1 key2 = 0) :
    keyBytes key1 = keyBytes key2 := by
  have hl1 := length_keyBytes key1
  have hl2 := length_keyBytes key2
  unfold compareKey at h
  dsimp only at h
  split_ifs at h with hboth h1 h2 hc
  · have he1 : keyBytes key1 = [] := List.length_eq_zero_iff.mp (by omega)
    have he2 : keyBytes key2 = [] := List.length_eq_zero_iff.mp (by omega)
    rw [he1, he2]
  · exact absurd h one_ne_zero
  · exact absurd h hc
  · have hlen := eq_of_compareLength h
    have hmax : maxKeylen (getKeylen key1) (getKeylen key2) = (keyBytes key1).length := by
      rw [hlen, hl1, hlen]
      exact ite_self _
    rw [not_not, hmax] at hc
    exact eq_of_compareFrom (by omega) hc

/-- Only the bytes of a key are copied. -/
theorem appendKey_congr (dst : Key × ℕ) {key1 key2 : Option Key}
    (h : keyBytes key1 = keyBytes key2) : appendKey dst key1 = appendKey dst key2 := by
  unfold appendKey
  rw [← length_keyBytes, ← length_keyBytes, h]

/-- Both ends of an association, each with its own key vector as the first argument, derive the
same key. -/
theorem computeHashkey_comm (memory : Bool) (garbage : ℕ → BitVec 8)
    (key1 key2 shared : Option Key) :
    computeHashkey memory garbage key1 key2 shared =
      computeHashkey memory garbage key2 key1 shared := by
  have hlen : getKeylen key2 + getKeylen key1 + getKeylen shared =
      getKeylen key1 + getKeylen key2 + getKeylen shared := by omega
  have hswap := compareKey_swap key1 key2
  unfold computeHashkey
  dsimp only
  rw [hlen]
  rcases lt_trichotomy (compareKey key1 key2) 0 with hlt | heq | hgt
  · have h12 : compareKey key1 key2 ≤ 0 := by omega
    have h21 : ¬ compareKey key2 key1 ≤ 0 := by omega
    rw [if_pos h12, if_neg h21]
  · have hb := keyBytes_eq_of_compareKey heq
    have h21 : compareKey key2 key1 ≤ 0 := by omega
    rw [if_pos heq.le, if_pos h21]
    simp only [appendKey_congr _ hb]
  · have h12 : ¬ compareKey key1 key2 ≤ 0 := by omega
    have h21 : compareKey key2 key1 ≤ 0 := by omega
    rw [if_neg h12, if_pos h21]

/-- A key and the same key behind a zero byte have the same value; the shorter one comes first. -/
example :
    (computeHashkey true (fun _ => 0) (some ⟨[0, 7], false⟩) (some ⟨[7], false⟩) none).map Key.bytes =
      some [7, 0, 7] := by
  decide

end Sctp.Auth
