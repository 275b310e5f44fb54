import Mathlib.Data.BitVec
import Mathlib.Data.List.GetD
import Mathlib.Tactic

/-! What `sctp_bzero_m` and `sctp_hmac_m` touch in a chain of mbufs. The cells are left open: with bytes in
them this is the memory, with marks in them it shows which cells are written. -/
namespace Sctp.Auth

/-- An mbuf: its data, and what its storage holds behind them. -/
structure Mbuf (α : Type) where
  data : List α
  room : List α
  size_lt : data.length + room.length < 2 ^ 31

variable {α β : Type}

namespace Mbuf

/-- `SCTP_BUF_LEN` -/
def len (m : Mbuf α) : ℕ := m.data.length

def storage (m : Mbuf α) : List α := m.data ++ m.room

@[simp] theorem length_storage (m : Mbuf α) : m.storage.length = m.data.length + m.room.length := by
  simp [storage]

/-- Cells with another value at each place. -/
def mapIdx (m : Mbuf α) (f : ℕ → α → β) : Mbuf β where
  data := m.data.mapIdx f
  room := m.room.mapIdx fun k => f (m.len + k)
  size_lt := by
    have := m.size_lt
    simpa using this

/-- `bzero` of `n` cells from the `o`-th on. -/
def bzero (z : α) (m : Mbuf α) (o n : ℕ) : Option (Mbuf α) :=
  if o + n ≤ m.storage.length then some (m.mapIdx fun k c => if o ≤ k ∧ k < o + n then z else c)
  else none

/-- `n` cells from the `o`-th on. -/
def read (m : Mbuf α) (o n : ℕ) : Option (List α) :=
  if o + n ≤ m.storage.length then some ((m.storage.drop o).take n) else none

theorem mapIdx_congr (m : Mbuf α) {f g : ℕ → α → β}
    (h : ∀ k c, k < m.storage.length → f k c = g k c) : m.mapIdx f = m.mapIdx g := by
  rw [length_storage] at h
  unfold mapIdx
  congr 1
  · apply List.ext_getElem
    · simp
    · intro k hk _
      simp only [List.length_mapIdx] at hk
      simp only [List.getElem_mapIdx]
      exact h _ _ (by omega)
  · apply List.ext_getElem
    · simp
    · intro k hk _
      simp only [List.length_mapIdx] at hk
      simp only [List.getElem_mapIdx]
      apply h
      unfold len
      omega

theorem mapIdx_id (m : Mbuf α) : (m.mapIdx fun _ c => c) = m := by
  have hid : ∀ l : List α, l.mapIdx (fun _ c => c) = l := by
    intro l
    apply List.ext_getElem
    · simp
    · intro k _ _
      simp
  cases m
  simp [mapIdx, hid]

end Mbuf

/-- The second loop of `sctp_bzero_m`: from the mbuf on that the offset lies in. -/
def bzeroLoop (z : α) : List (Mbuf α) → ℕ → ℕ → Option (List (Mbuf α))
  | [], _, _ => some []
  | m :: ms, o, size =>
    if size = 0 then some (m :: ms)
    else if m.len < size then do
      let m' ← m.bzero z o m.len
      let ms' ← bzeroLoop z ms 0 (size - m.len)
      return m' :: ms'
    else do
      let m' ← m.bzero z o size
      return m' :: ms

def bzeroM (z : α) : List (Mbuf α) → ℕ → ℕ → Option (List (Mbuf α))
  | [], _, _ => some []
  | m :: ms, offset, size =>
    if m.len ≤ offset then (bzeroM z ms (offset - m.len) size).map (m :: ·)
    else bzeroLoop z (m :: ms) offset size

/-- The updates of the inner hash in `sctp_hmac_m`, from the mbuf on that the offset lies in. The lengths
are 32-bit differences. -/
def textLoop (trailer : BitVec 32) : List (Mbuf α) → ℕ → Option (List α)
  | [], _ => some []
  | m :: ms, o => do
    let count := if ms.isEmpty ∧ trailer ≠ 0#32 then
        BitVec.ofNat 32 m.len - (trailer + BitVec.ofNat 32 o)
      else BitVec.ofNat 32 m.len - BitVec.ofNat 32 o
    let text ← m.read o count.toNat
    let texts ← textLoop trailer ms 0
    return text ++ texts

/-- The text that `sctp_hmac_m` hashes. -/
def textM (trailer : BitVec 32) : List (Mbuf α) → ℕ → Option (List α)
  | [], _ => some []
  | m :: ms, offset =>
    if m.len ≤ offset then textM trailer ms (offset - m.len) else textLoop trailer (m :: ms) offset

def flat (m : List (Mbuf α)) : List α := m.flatMap Mbuf.data

/-- The cells of a list from `lo` to `hi` take a value. The list begins at place `p`. -/
def paintList (z : α) (lo hi p : ℕ) (cells : List α) : List α :=
  cells.mapIdx fun k c => if lo ≤ p + k ∧ p + k < hi then z else c

/-- The same for the bytes of a chain; what is behind the data of an mbuf stays. -/
def paint (z : α) (lo hi : ℕ) : ℕ → List (Mbuf α) → List (Mbuf α)
  | _, [] => []
  | p, m :: ms =>
    (m.mapIdx fun k c => if k < m.len ∧ lo ≤ p + k ∧ p + k < hi then z else c) ::
      paint z lo hi (p + m.len) ms

/-- A range that begins inside an mbuf ends in it. -/
def Within : List (Mbuf α) → ℕ → ℕ → Prop
  | [], _, _ => True
  | m :: ms, offset, size =>
    if m.len ≤ offset then Within ms (offset - m.len) size else offset = 0 ∨ offset + size ≤ m.len

instance Within.decidable : ∀ (m : List (Mbuf α)) (offset size : ℕ), Decidable (Within m offset size)
  | [], _, _ => .isTrue trivial
  | m :: ms, offset, size =>
    if hskip : m.len ≤ offset then
      have := Within.decidable ms (offset - m.len) size
      decidable_of_iff (Within ms (offset - m.len) size) (by rw [Within, if_pos hskip])
    else decidable_of_iff (offset = 0 ∨ offset + size ≤ m.len) (by rw [Within, if_neg hskip])

def TrailerFitsLoop (trailer : BitVec 32) : List (Mbuf α) → ℕ → Prop
  | [], _ => True
  | [m], o => trailer.toNat = 0 ∨ trailer.toNat + o ≤ m.len
  | _ :: m :: ms, _ => TrailerFitsLoop trailer (m :: ms) 0

/-- The trailer lies in the last mbuf, behind the offset. -/
def TrailerFits (trailer : BitVec 32) : List (Mbuf α) → ℕ → Prop
  | [], _ => True
  | m :: ms, offset =>
    if m.len ≤ offset then TrailerFits trailer ms (offset - m.len)
    else TrailerFitsLoop trailer (m :: ms) offset

/-- A chain of the same shape without marks. -/
def blank (m : List (Mbuf α)) : List (Mbuf Bool) := m.map fun b => b.mapIdx fun _ _ => false

/-- `sctp_bzero_m` writes the cells of the range and no others. -/
def BzeroExact (m : List (Mbuf α)) (offset size : ℕ) : Prop :=
  bzeroM true (blank m) offset size = some (paint true offset (offset + size) 0 (blank m))

/-- `sctp_hmac_m` reads the bytes from the offset on, less the trailer. -/
def HmacExact (trailer : BitVec 32) (m : List (Mbuf α)) (offset : ℕ) : Prop :=
  textM trailer m offset =
    some (((flat m).drop offset).take ((flat m).length - offset - trailer.toNat))

theorem length_flat_cons (m : Mbuf α) (ms : List (Mbuf α)) :
    (flat (m :: ms)).length = m.len + (flat ms).length := by
  simp [flat, Mbuf.len]

theorem flat_paint (z : α) (lo hi p : ℕ) (m : List (Mbuf α)) :
    flat (paint z lo hi p m) = paintList z lo hi p (flat m) := by
  induction m generalizing p with
  | nil => rfl
  | cons m ms ih =>
    have hdata : (m.mapIdx fun k c => if k < m.len ∧ lo ≤ p + k ∧ p + k < hi then z else c).data =
        paintList z lo hi p m.data := by
      apply List.ext_getElem
      · simp [Mbuf.mapIdx, paintList]
      · intro k hk _
        have hlen : k < m.len := by
          unfold Mbuf.len
          simpa [Mbuf.mapIdx] using hk
        simp [Mbuf.mapIdx, paintList, hlen]
    have hrest : paintList z lo hi (p + m.len) (flat ms) =
        (flat ms).mapIdx fun k c => if lo ≤ p + (k + m.len) ∧ p + (k + m.len) < hi then z else c := by
      unfold paintList
      congr 1
      funext k c
      rw [Nat.add_assoc p, Nat.add_comm m.len]
    unfold paint
    rw [flat, List.flatMap_cons, hdata, ← flat, ih, hrest]
    unfold paintList flat
    rw [List.flatMap_cons, List.mapIdx_append]
    rfl

/-- A chain before the range stays. -/
theorem mapIdx_paint_before (z : α) {lo hi p : ℕ} (m : Mbuf α) (h : p + m.len ≤ lo) :
    (m.mapIdx fun k c => if k < m.len ∧ lo ≤ p + k ∧ p + k < hi then z else c) = m := by
  conv_rhs => rw [← m.mapIdx_id]
  apply m.mapIdx_congr
  intro k c _
  rw [if_neg]
  omega

/-- A chain behind the range stays, and every chain if the range is empty. -/
theorem paint_after (z : α) {lo hi : ℕ} (p : ℕ) (m : List (Mbuf α)) (h : hi ≤ p ∨ hi ≤ lo) :
    paint z lo hi p m = m := by
  induction m generalizing p with
  | nil => rfl
  | cons m ms ih =>
    unfold paint
    rw [ih _ (by omega)]
    congr 1
    conv_rhs => rw [← m.mapIdx_id]
    apply m.mapIdx_congr
    intro k c _
    rw [if_neg]
    omega

/-- A stretch of an mbuf is cleared in place. -/
theorem bzero_eq_paint (z : α) {lo hi p : ℕ} (m : Mbuf α) {o n : ℕ} (hn : o + n ≤ m.len)
    (hplaces : ∀ k < m.len, lo ≤ p + k ∧ p + k < hi ↔ o ≤ k ∧ k < o + n) :
    m.bzero z o n =
      some (m.mapIdx fun k c => if k < m.len ∧ lo ≤ p + k ∧ p + k < hi then z else c) := by
  have hstore : m.len ≤ m.storage.length := by
    rw [m.length_storage]
    exact Nat.le_add_right _ _
  unfold Mbuf.bzero
  rw [if_pos (hn.trans hstore)]
  congr 1
  apply m.mapIdx_congr
  intro k c _
  congr 1
  rw [eq_iff_iff]
  constructor
  · intro hk
    exact ⟨by omega, (hplaces k (by omega)).mpr hk⟩
  · rintro ⟨hk, hrange⟩
    exact (hplaces k hk).mp hrange

/-- From the front of an mbuf on the loop clears the range. -/
theorem bzeroLoop_zero (z : α) (m : List (Mbuf α)) {lo p : ℕ} (size : ℕ) (hlo : lo ≤ p) :
    bzeroLoop z m 0 size = some (paint z lo (p + size) p m) := by
  induction m generalizing p size with
  | nil => rfl
  | cons m ms ih =>
    unfold bzeroLoop
    by_cases hzero : size = 0
    · rw [if_pos hzero, paint_after _ _ _ (by omega)]
    · rw [if_neg hzero]
      by_cases hlt : m.len < size
      · have hend : p + size = p + m.len + (size - m.len) := by omega
        have hfirst : m.bzero z 0 m.len = some (m.mapIdx fun k c =>
            if k < m.len ∧ lo ≤ p + k ∧ p + k < p + size then z else c) := by
          apply bzero_eq_paint z m (by omega)
          intro k hk
          omega
        rw [if_pos hlt, hfirst, ih (size - m.len) (Nat.le_add_right_of_le hlo), ← hend]
        rfl
      · have hfirst : m.bzero z 0 size = some (m.mapIdx fun k c =>
            if k < m.len ∧ lo ≤ p + k ∧ p + k < p + size then z else c) := by
          apply bzero_eq_paint z m (by omega)
          intro k hk
          omega
        rw [if_neg hlt, hfirst, paint, paint_after z (p + m.len) ms (by omega)]
        rfl

/-- Where the range does not cross the border of its first mbuf it is cleared. -/
theorem bzeroM_of_within (z : α) (m : List (Mbuf α)) {p offset size : ℕ}
    (hw : Within m offset size) :
    bzeroM z m offset size = some (paint z (p + offset) (p + offset + size) p m) := by
  induction m generalizing p offset with
  | nil => rfl
  | cons m ms ih =>
    unfold bzeroM
    unfold Within at hw
    by_cases hskip : m.len ≤ offset
    · rw [if_pos hskip] at hw ⊢
      have hat : p + m.len + (offset - m.len) = p + offset := by omega
      rw [ih hw (p := p + m.len), hat, paint, mapIdx_paint_before z m (by omega)]
      rfl
    · rw [if_neg hskip] at hw ⊢
      rcases hw with rfl | hend
      · exact bzeroLoop_zero z (m :: ms) size (Nat.le_refl p)
      · unfold bzeroLoop
        by_cases hzero : size = 0
        · rw [if_pos hzero, paint_after _ _ _ (by omega)]
        · have hfirst : m.bzero z offset size = some (m.mapIdx fun k c =>
              if k < m.len ∧ p + offset ≤ p + k ∧ p + k < p + offset + size then z else c) := by
            apply bzero_eq_paint z m hend
            intro k hk
            omega
          rw [if_neg hzero, if_neg (by omega), hfirst, paint,
            paint_after z (p + m.len) ms (by omega)]
          rfl

theorem room_paint (z : α) (lo hi p : ℕ) (m : Mbuf α) :
    (m.mapIdx fun k c => if k < m.len ∧ lo ≤ p + k ∧ p + k < hi then z else c).room = m.room := by
  apply List.ext_getElem
  · simp [Mbuf.mapIdx]
  · intro k _ _
    simp [Mbuf.mapIdx]

/-- What is cleared behind the data of an mbuf is not of the range. -/
theorem bzero_behind {m : Mbuf Bool} {o n : ℕ} (ho : o ≤ m.len) (hn : m.len < o + n)
    {m' : Mbuf Bool} (h : m.bzero true o n = some m') : true ∈ m'.room := by
  unfold Mbuf.bzero at h
  split at h
  · next hstore =>
    cases h
    rw [m.length_storage] at hstore
    have hroom : 0 < m.room.length := by
      unfold Mbuf.len at hn
      omega
    apply List.mem_iff_getElem.mpr
    refine ⟨0, ?_, ?_⟩
    · simpa [Mbuf.mapIdx] using hroom
    · simp [Mbuf.mapIdx, ho, hn]
  · cases h

/-- The first call of the loop: the length of the mbuf is not cut at the offset. -/
theorem bzeroLoop_cons {z : α} {m : Mbuf α} {ms : List (Mbuf α)} {o size : ℕ} {ms' : List (Mbuf α)}
    (hsize : size ≠ 0) (h : bzeroLoop z (m :: ms) o size = some ms') :
    ∃ m' rest, m.bzero z o (min m.len size) = some m' ∧ ms' = m' :: rest := by
  unfold bzeroLoop at h
  rw [if_neg hsize] at h
  by_cases hlt : m.len < size
  · rw [if_pos hlt, Option.bind_eq_bind, Option.bind_eq_some_iff] at h
    obtain ⟨m', hm', hrest⟩ := h
    rw [Option.bind_eq_bind, Option.bind_eq_some_iff] at hrest
    obtain ⟨rest, _, hcons⟩ := hrest
    rw [Nat.min_eq_left hlt.le]
    exact ⟨m', rest, hm', (Option.some.inj hcons).symm⟩
  · rw [if_neg hlt, Option.bind_eq_bind, Option.bind_eq_some_iff] at h
    obtain ⟨m', hm', hcons⟩ := h
    rw [Nat.min_eq_right (Nat.le_of_not_lt hlt)]
    exact ⟨m', ms, hm', (Option.some.inj hcons).symm⟩

theorem bzeroM_of_not_within (m : List (Mbuf α)) (p : ℕ) {offset size : ℕ}
    (hw : ¬ Within m offset size) :
    bzeroM true (blank m) offset size ≠
      some (paint true (p + offset) (p + offset + size) p (blank m)) := by
  induction m generalizing p offset with
  | nil => exact absurd trivial hw
  | cons m ms ih =>
    have hlen : (m.mapIdx fun _ _ => false).len = m.len := by
      simp [Mbuf.len, Mbuf.mapIdx]
    intro heq
    rw [blank, List.map_cons, ← blank] at heq
    unfold bzeroM paint at heq
    unfold Within at hw
    by_cases hskip : m.len ≤ offset
    · have hat : p + m.len + (offset - m.len) = p + offset := by omega
      rw [if_pos hskip] at hw
      rw [hlen, if_pos hskip, Option.map_eq_some_iff] at heq
      obtain ⟨ms', hms', hcons⟩ := heq
      apply ih (p + m.len) hw
      rw [hat, hms', (List.cons.inj hcons).2]
    · rw [if_neg hskip] at hw
      rw [hlen, if_neg hskip] at heq
      -- the first call writes behind the data of its mbuf, or behind its storage
      obtain ⟨m', rest, hcall, hcons⟩ := bzeroLoop_cons (by omega) heq
      rw [hlen] at hcall
      have hmark := bzero_behind (by rw [hlen]; omega) (by rw [hlen]; omega) hcall
      rw [← (List.cons.inj hcons).1, ← hlen, room_paint] at hmark
      simp [Mbuf.mapIdx, List.mem_iff_getElem] at hmark

theorem within_blank (m : List (Mbuf α)) (offset size : ℕ) :
    Within (blank m) offset size ↔ Within m offset size := by
  induction m generalizing offset with
  | nil => rfl
  | cons m ms ih =>
    have hlen : (m.mapIdx fun _ _ => false).len = m.len := by
      simp [Mbuf.len, Mbuf.mapIdx]
    rw [blank, List.map_cons, ← blank]
    unfold Within
    rw [hlen, ih]

theorem bzeroExact_iff (m : List (Mbuf α)) (offset size : ℕ) :
    BzeroExact m offset size ↔ Within m offset size := by
  unfold BzeroExact
  constructor
  · intro h
    by_contra hw
    have hne := bzeroM_of_not_within m 0 hw
    rw [Nat.zero_add] at hne
    exact hne h
  · intro hw
    have heq := bzeroM_of_within true (blank m) (p := 0) ((within_blank m offset size).mpr hw)
    rw [Nat.zero_add] at heq
    exact heq

theorem read_data (m : Mbuf α) (o n : ℕ) (h : o + n ≤ m.len) :
    m.read o n = some ((m.data.drop o).take n) := by
  unfold Mbuf.read Mbuf.storage
  unfold Mbuf.len at h
  rw [if_pos (by rw [List.length_append]; omega), List.drop_append_of_le_length (by omega),
    List.take_append_of_le_length (by rw [List.length_drop]; omega)]

theorem length_read {m : Mbuf α} {o n : ℕ} {text : List α} (h : m.read o n = some text) :
    text.length = n := by
  unfold Mbuf.read at h
  split at h
  · next hle =>
    cases h
    rw [List.length_take, List.length_drop]
    omega
  · cases h

theorem len_lt (m : Mbuf α) : m.len < 2 ^ 31 := by
  have := m.size_lt
  unfold Mbuf.len
  omega

theorem rest_toNat (m : Mbuf α) {o : ℕ} (ho : o ≤ m.len) :
    (BitVec.ofNat 32 m.len - BitVec.ofNat 32 o).toNat = m.len - o := by
  have hlt := len_lt m
  rw [BitVec.toNat_sub, BitVec.toNat_ofNat, BitVec.toNat_ofNat]
  omega

/-- The length of the last piece of the text, and when it is right. -/
theorem lastRest_toNat (m : Mbuf α) (trailer : BitVec 32) {o : ℕ} (ho : o ≤ m.len) :
    (trailer.toNat + o ≤ m.len →
      (BitVec.ofNat 32 m.len - (trailer + BitVec.ofNat 32 o)).toNat = m.len - o - trailer.toNat) ∧
    (m.len < trailer.toNat + o →
      0 < (BitVec.ofNat 32 m.len - (trailer + BitVec.ofNat 32 o)).toNat) := by
  have hlt := len_lt m
  have ht := trailer.isLt
  rw [BitVec.toNat_sub, BitVec.toNat_add, BitVec.toNat_ofNat, BitVec.toNat_ofNat]
  constructor <;> intro h <;> omega

theorem le_of_trailerFitsLoop {trailer : BitVec 32} {m : Mbuf α} {ms : List (Mbuf α)} {o : ℕ}
    (h : TrailerFitsLoop trailer (m :: ms) o) : trailer.toNat ≤ (flat (m :: ms)).length := by
  induction ms generalizing m o with
  | nil =>
    rw [TrailerFitsLoop] at h
    rw [length_flat_cons]
    omega
  | cons m₂ ms ih =>
    have := ih h
    rw [length_flat_cons]
    omega

theorem flat_cons_drop (m : Mbuf α) (ms : List (Mbuf α)) {o : ℕ} (ho : o ≤ m.len) :
    (flat (m :: ms)).drop o = m.data.drop o ++ flat ms := by
  rw [flat, List.flatMap_cons, List.drop_append_of_le_length ho, ← flat]

theorem textLoop_of_fits (trailer : BitVec 32) (m : Mbuf α) (ms : List (Mbuf α)) {o : ℕ}
    (ho : o ≤ m.len) (hfits : TrailerFitsLoop trailer (m :: ms) o) :
    textLoop trailer (m :: ms) o =
      some (((flat (m :: ms)).drop o).take ((flat (m :: ms)).length - o - trailer.toNat)) := by
  have hwhole : m.read o (m.len - o) = some (m.data.drop o) := by
    rw [read_data m _ _ (by omega), List.take_of_length_le]
    rw [List.length_drop]
    rfl
  induction ms generalizing m o with
  | nil =>
    rw [flat_cons_drop m [] ho, length_flat_cons]
    rw [TrailerFitsLoop] at hfits
    unfold textLoop
    by_cases hzero : trailer = 0#32
    · subst hzero
      simp only [ne_eq, not_true_eq_false, and_false, if_false]
      rw [rest_toNat m ho, hwhole]
      simp [flat, textLoop, Mbuf.len]
    · have hle : trailer.toNat + o ≤ m.len := by
        rcases hfits with h | h
        · exact absurd (BitVec.eq_of_toNat_eq h) hzero
        · exact h
      rw [if_pos ⟨rfl, hzero⟩]
      dsimp only
      rw [(lastRest_toNat m trailer ho).1 hle, read_data m _ _ (by omega)]
      simp [flat, textLoop]
  | cons m₂ ms ih =>
    have hrest : TrailerFitsLoop trailer (m₂ :: ms) 0 := hfits
    have hle := le_of_trailerFitsLoop hrest
    have hlen : (m.data.drop o).length = m.len - o := List.length_drop
    have hcut : m.len + (flat (m₂ :: ms)).length - o - trailer.toNat =
        (m.data.drop o).length + ((flat (m₂ :: ms)).length - trailer.toNat) := by omega
    have hwhole₂ : m₂.read 0 (m₂.len - 0) = some (m₂.data.drop 0) := by
      rw [read_data m₂ _ _ (by omega), List.take_of_length_le]
      rw [List.length_drop]
      rfl
    rw [flat_cons_drop m _ ho, length_flat_cons, hcut, List.take_length_add_append, textLoop,
      if_neg (by simp), rest_toNat m ho, hwhole, ih m₂ (Nat.zero_le _) hrest hwhole₂]
    rfl

theorem textLoop_of_not_fits (trailer : BitVec 32) (m : Mbuf α) (ms : List (Mbuf α)) {o : ℕ}
    (ho : o ≤ m.len) (hfits : ¬ TrailerFitsLoop trailer (m :: ms) o) {text : List α}
    (h : textLoop trailer (m :: ms) o = some text) :
    (flat (m :: ms)).length - o - trailer.toNat < text.length := by
  induction ms generalizing m o text with
  | nil =>
    rw [TrailerFitsLoop, not_or] at hfits
    have hzero : trailer ≠ 0#32 := by
      rintro rfl
      exact hfits.1 rfl
    rw [textLoop, if_pos ⟨rfl, hzero⟩, Option.bind_eq_bind, Option.bind_eq_some_iff] at h
    obtain ⟨first, hfirst, htext⟩ := h
    have htext : text = first := by simpa [textLoop] using htext.symm
    have hpos := (lastRest_toNat m trailer ho).2 (by omega)
    rw [htext, length_read hfirst, length_flat_cons]
    have hnone : (flat ([] : List (Mbuf α))).length = 0 := rfl
    omega
  | cons m₂ ms ih =>
    have hrest : ¬ TrailerFitsLoop trailer (m₂ :: ms) 0 := hfits
    rw [textLoop, if_neg (by simp), rest_toNat m ho, Option.bind_eq_bind,
      Option.bind_eq_some_iff] at h
    obtain ⟨first, hfirst, h⟩ := h
    rw [Option.bind_eq_some_iff] at h
    obtain ⟨rest, hrestText, htext⟩ := h
    have hlen := ih m₂ (Nat.zero_le _) hrest hrestText
    rw [← Option.some.inj htext, List.length_append, length_read hfirst, length_flat_cons]
    omega

theorem hmacExact_iff (trailer : BitVec 32) (m : List (Mbuf α)) (offset : ℕ) :
    HmacExact trailer m offset ↔ TrailerFits trailer m offset := by
  unfold HmacExact
  induction m generalizing offset with
  | nil => simp [textM, TrailerFits, flat]
  | cons m ms ih =>
    by_cases hskip : m.len ≤ offset
    · have hdrop : (flat (m :: ms)).drop offset = (flat ms).drop (offset - m.len) := by
        rw [flat, List.flatMap_cons, List.drop_append, List.drop_of_length_le hskip, List.nil_append]
        rfl
      have hlen : (flat (m :: ms)).length - offset = (flat ms).length - (offset - m.len) := by
        rw [length_flat_cons]
        omega
      rw [textM, TrailerFits, if_pos hskip, if_pos hskip, hdrop, hlen]
      exact ih _
    · have ho : offset ≤ m.len := Nat.le_of_not_le hskip
      rw [textM, TrailerFits, if_neg hskip, if_neg hskip]
      constructor
      · intro h
        by_contra hfits
        have hlt := textLoop_of_not_fits trailer m ms ho hfits h
        rw [List.length_take] at hlt
        omega
      · exact textLoop_of_fits trailer m ms ho

end Sctp.Auth
