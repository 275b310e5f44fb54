import Sctp.SackPass

/-! What a pass reports after the slide, and when it is cut short. -/
namespace Sctp
open Bitmap TsnMap

namespace TsnMap.Slid
variable {s s' : TsnMap} {q : ℕ} (hs : Slid s s' q)
include hs

theorem sackOffset_eq (h : s.Marked) : sackOffset s'.mappingArrayBaseTsn s'.cumulativeTsn =
    1 - ((s.leading - q : ℕ) : ℤ) := by
  have hle := hs.le
  have hl := h.leading_lt
  have hdist : (s'.mappingArrayBaseTsn - s'.cumulativeTsn).toInt = 1 - ((s.leading - q : ℕ) : ℤ) := by
    rw [hs.base, hs.cum]
    have h1 : Serial.dist s.mappingArrayBaseTsn (Serial.advance s.mappingArrayBaseTsn q) = q :=
      Serial.dist_advance _ (by norm_num; omega)
    refine Serial.dist_sub (by norm_num) s.mappingArrayBaseTsn _ _ ?_ (by norm_num; omega)
      (by norm_num; omega)
    rw [h1, h.dist_cum]
    omega
  unfold sackOffset
  rw [hdist]
  split_ifs with hgt
  · rw [tsnGt_iff, hdist] at hgt
    omega
  · rfl

theorem cum_add {k : ℕ} (hk : s.leading - q ≤ k) :
    s'.cumulativeTsn + BitVec.ofNat 32 (k + 1 - (s.leading - q)) =
      Serial.advance s.mappingArrayBaseTsn (k + q) := by
  have hle := hs.le
  rw [hs.cum, Serial.advance]
  have : BitVec.ofNat 32 (k + q) =
      BitVec.ofNat 32 s.leading + BitVec.ofNat 32 (k + 1 - (s.leading - q)) - 1 := by
    have : k + q = s.leading + (k + 1 - (s.leading - q)) - 1 := by omega
    apply BitVec.eq_of_toNat_eq
    simp only [BitVec.toNat_sub, BitVec.toNat_add, BitVec.toNat_ofNat, BitVec.ofNat_eq_ofNat]
    omega
  rw [this]
  bv_omega

/-- A mark beyond the cumulative TSN is one the slide has not touched. -/
theorem mark_gt (h : s.Marked) {m m' : Tsn} (hm : MarkSlid s.mappingArrayBaseTsn s.leading m m')
    (hd : (8 * s.mappingArraySize : ℤ) - 2 ^ 31 < Serial.dist s.mappingArrayBaseTsn m ∧
      Serial.dist s.mappingArrayBaseTsn m < 8 * s.mappingArraySize) :
    (tsnGt m' s'.cumulativeTsn = true ↔ (s.leading : ℤ) ≤ Serial.dist s.mappingArrayBaseTsn m) ∧
      (tsnGt m' s'.cumulativeTsn = true → m' = m) := by
  have hl := leading_le h.toSized
  have hn := h.size_lt
  have hc := h.dist_cum
  rw [hs.cum]
  rcases hm with rfl | ⟨h1, h2, h3⟩
  · rw [tsnGt_iff_dist s.mappingArrayBaseTsn _ _ (by rw [hc]; omega), hc]
    exact ⟨by omega, fun _ => rfl⟩
  · rw [tsnGt_iff_dist s.mappingArrayBaseTsn _ _ (by rw [hc]; omega), hc]
    exact ⟨by omega, fun hh => by omega⟩

section pass
variable {g : ℕ → Bool} {byte : ℕ → Byte} {siz : ℕ} (fits : ℕ → Bool)
  (hsiz : 8 * siz < 2 ^ 15) (hg : ∀ k, (byte (k / 8)).getLsbD (k % 8) = g (k + q))
include hsiz

theorem pass_wellFormed :
    WellFormedBlocks (sackPass fits (1 - ((s.leading - q : ℕ) : ℤ)) byte siz).blocks := by
  have hlt := hs.lt
  exact (sackPass_spec fits (by omega) byte siz).wellFormed hsiz

include hg

theorem pass_sound {t : Tsn}
    (ht : Reports (sackPass fits (1 - ((s.leading - q : ℕ) : ℤ)) byte siz).blocks
      s'.cumulativeTsn t) :
    ∃ k, s.leading ≤ k ∧ k < q + 8 * siz ∧ g k = true ∧
      t = Serial.advance s.mappingArrayBaseTsn k := by
  have hlt := hs.lt
  obtain ⟨k, hk, hb, rfl⟩ :=
    (sackPass_spec fits (by omega) byte siz).reports_sound hsiz ht
  simp only [passBits, Bool.and_eq_true, decide_eq_true_eq, hg] at hb
  exact ⟨k + q, by omega, by omega, hb.2, hs.cum_add hb.1⟩

theorem pass_complete {k : ℕ} (hk : s.leading ≤ k) (hkn : k < q + 8 * siz) (hgk : g k = true)
    (hlim : (sackPass fits (1 - ((s.leading - q : ℕ) : ℤ)) byte siz).limitReached = false) :
    Reports (sackPass fits (1 - ((s.leading - q : ℕ) : ℤ)) byte siz).blocks s'.cumulativeTsn
      (Serial.advance s.mappingArrayBaseTsn k) := by
  have hlt := hs.lt
  have hle := hs.le
  have hb : passBits (s.leading - q) byte (k - q) = true := by
    simp only [passBits, Bool.and_eq_true, decide_eq_true_eq, hg]
    exact ⟨by omega, by rwa [Nat.sub_add_cancel (by omega)]⟩
  have := (sackPass_spec fits (by omega) byte siz).reports_complete hsiz
    s'.cumulativeTsn hlim (by omega) hb
  rwa [hs.cum_add (by omega), Nat.sub_add_cancel (by omega)] at this

end pass

end TsnMap.Slid

theorem wellFormedBlocks_nil : WellFormedBlocks [] := ⟨by simp, List.isChain_nil⟩

theorem not_reports_nil (cum t : Tsn) : ¬ Reports [] cum t := by simp [Reports]

/-- Number of bytes in front of the end of a pass, for a mark `d` bits behind the base. -/
theorem sub_advance_toNat {b m : Tsn} {q d : ℕ} (hd : Serial.dist b m = d) (hqd : q ≤ d)
    (hdn : d < 2 ^ 31) : (m - Serial.advance b q).toNat = d - q := by
  have hm : m = Serial.advance b d := by
    have h1 : Serial.dist b (Serial.advance b d) = d := Serial.dist_advance b (by simpa using hdn)
    have : m - b = Serial.advance b d - b :=
      BitVec.eq_of_toInt_eq (by change Serial.dist b m = Serial.dist b _; rw [hd, h1])
    bv_omega
  rw [hm]
  simp only [Serial.advance, BitVec.toNat_sub, BitVec.toNat_add, BitVec.toNat_ofNat]
  have := b.isLt
  omega

theorem nrSackSiz_eq {b m : Tsn} {q d : ℕ} (hd : Serial.dist b m = d) (hqd : q ≤ d)
    (hdn : d < 2 ^ 15) : nrSackSiz m (Serial.advance b q) =
      if Serial.advance b q < m then (d - q) / 8 + 1 else (d - q + 7) / 8 := by
  have hsub := sub_advance_toNat hd hqd (by omega)
  have h8 : (8 : Tsn).toNat = 8 := rfl
  unfold nrSackSiz maxTsn
  split_ifs with hlt
  · have : (m - Serial.advance b q + 1 + 7).toNat = d - q + 8 := by
      rw [BitVec.toNat_add, BitVec.toNat_add, hsub]
      simp only [BitVec.ofNat_eq_ofNat, BitVec.toNat_ofNat]
      omega
    rw [BitVec.toNat_udiv, this, h8, Nat.add_div_right _ (by norm_num)]
  · have he : 4294967295 - Serial.advance b q + 1 + m + 7 = (m - Serial.advance b q) + 7 := by
      bv_omega
    have : (4294967295 - Serial.advance b q + 1 + m + 7).toNat = d - q + 7 := by
      rw [he, BitVec.toNat_add, hsub]
      simp only [BitVec.ofNat_eq_ofNat, BitVec.toNat_ofNat]
      omega
    rw [BitVec.toNat_udiv, this, h8]

theorem sackSiz_eq {b m : Tsn} {q d : ℕ} (hd : Serial.dist b m = d) (hqd : q ≤ d)
    (hdn : d < 2 ^ 15) : sackSiz m (Serial.advance b q) =
      if Serial.advance b q < m then (d - q) / 8 + 1 else 0 := by
  have hnr := nrSackSiz_eq hd hqd hdn
  unfold nrSackSiz at hnr
  unfold sackSiz maxTsn
  split_ifs at hnr ⊢ with hlt
  · exact hnr
  · have he : 4294967295 - m + 1 + m + 7 = (7 : Tsn) := by bv_omega
    rw [he]
    rfl

/-- The bits `leading ≤ k < n` of `g` are what a pass reports, all of them if there is room. -/
structure TsnMap.PassReports (s : TsnMap) (g : ℕ → Bool) (n : ℕ) (cum : Tsn) (st : SackBuild) :
    Prop where
  wellFormed : WellFormedBlocks st.blocks
  sound : ∀ t, Reports st.blocks cum t → ∃ k, s.leading ≤ k ∧ k < n ∧ g k = true ∧
    t = Serial.advance s.mappingArrayBaseTsn k
  complete : st.limitReached = false → ∀ k, s.leading ≤ k → k < n → g k = true →
    Reports st.blocks cum (Serial.advance s.mappingArrayBaseTsn k)

/-- A pass is made only when the mark of its map is beyond the cumulative TSN. -/
theorem TsnMap.Slid.passReports {s s' : TsnMap} {q : ℕ} (hs : Slid s s' q) (h : s.Marked)
    {m m' : Tsn} (hm : MarkSlid s.mappingArrayBaseTsn s.leading m m')
    (hd : (8 * s.mappingArraySize : ℤ) - 2 ^ 31 < Serial.dist s.mappingArrayBaseTsn m ∧
      Serial.dist s.mappingArrayBaseTsn m < 8 * s.mappingArraySize)
    {g : ℕ → Bool} (hgm : ∀ k, g k = true → (k : ℤ) ≤ Serial.dist s.mappingArrayBaseTsn m)
    (byte : ℕ → Byte) (hg : ∀ k, (byte (k / 8)).getLsbD (k % 8) = g (k + q))
    (siz : Tsn → Tsn → ℕ)
    (hsiz : (s.leading : ℤ) ≤ Serial.dist s.mappingArrayBaseTsn m →
      8 * siz m s'.mappingArrayBaseTsn < 2 ^ 15) (fits : ℕ → Bool) :
    s.PassReports g (q + 8 * siz m s'.mappingArrayBaseTsn) s'.cumulativeTsn
      (if tsnGt m' s'.cumulativeTsn then
        sackPass fits (sackOffset s'.mappingArrayBaseTsn s'.cumulativeTsn) byte
          (siz m' s'.mappingArrayBaseTsn)
      else sackStart) := by
  obtain ⟨hgt, heq⟩ := hs.mark_gt h hm hd
  rw [hs.sackOffset_eq h]
  split_ifs with hc
  · obtain rfl := heq hc
    have hsz := hsiz (hgt.mp hc)
    exact ⟨hs.pass_wellFormed fits hsz, fun t ht => hs.pass_sound fits hsz hg ht,
      fun hlim k hk hkn hgk => hs.pass_complete fits hsz hg hk hkn hgk hlim⟩
  · refine ⟨wellFormedBlocks_nil, fun t ht => absurd ht (not_reports_nil _ _), ?_⟩
    intro _ k hk _ hgk
    have := hgm k hgk
    exact absurd (hgt.mpr (by omega)) hc

section room
variable {fits : ℕ → Bool} {N : ℕ} (hf : ∀ n ≤ N, fits n = true)
include hf

theorem putGaps_room (r : ℕ) (offset : ℤ) (gs : List (ℕ × ℕ)) (st : SackBuild)
    (hN : st.blocks.length + gs.length ≤ N) :
    (putGaps fits r offset gs st).limitReached = st.limitReached ∧
      (putGaps fits r offset gs st).blocks.length = st.blocks.length + gs.length := by
  induction gs generalizing st with
  | nil => exact ⟨rfl, rfl⟩
  | cons g gs ih =>
    rw [List.length_cons] at hN
    unfold putGaps
    simp only [List.length_append, List.length_cons, List.length_nil]
    rw [if_pos (hf _ (by omega))]
    obtain ⟨h1, h2⟩ := ih { st with
      blocks := st.blocks ++ [⟨if st.mergeable ∧ r ≠ 0 then st.cur.start
        else BitVec.ofInt 16 (g.1 + offset), BitVec.ofInt 16 (g.2 + offset)⟩]
      mergeable := false } (by simp only [List.length_append, List.length_singleton]; omega)
    refine ⟨h1, h2.trans ?_⟩
    simp only [List.length_append, List.length_singleton]
    omega

theorem putByte_room (offset : ℤ) (b : Byte) (st : SackBuild) (hN : st.blocks.length + 4 ≤ N) :
    (putByte fits offset b st).limitReached = st.limitReached ∧
      (putByte fits offset b st).blocks.length ≤ st.blocks.length + 4 := by
  have h4 := selector_entries_length b
  unfold putByte
  simp only
  generalize hst : (if st.mergeable = true ∧ (selector b).rightEdge ≠ 0 then
    { st with blocks := st.blocks.dropLast, cur := st.blocks.getLastD st.cur } else st) = st'
  have hl : st'.limitReached = st.limitReached ∧ st'.blocks.length ≤ st.blocks.length := by
    rw [← hst]
    split_ifs
    · exact ⟨rfl, by simp⟩
    · exact ⟨rfl, le_rfl⟩
  obtain ⟨h1, h2⟩ := putGaps_room hf (selector b).rightEdge offset (selector b).entries st'
    (by omega)
  split_ifs
  · exact ⟨hl.1, by simp only; omega⟩
  · exact ⟨h1.trans hl.1, by simp only [h2]; omega⟩
  · exact ⟨h1.trans hl.1, by rw [h2]; omega⟩

theorem putBytes_room (offset : ℤ) (bs : List Byte) (st : SackBuild)
    (hl : st.limitReached = false) (hN : st.blocks.length + 4 * bs.length ≤ N) :
    (putBytes fits offset bs st).limitReached = false ∧
      (putBytes fits offset bs st).blocks.length ≤ st.blocks.length + 4 * bs.length := by
  induction bs generalizing offset st with
  | nil => exact ⟨hl, le_rfl⟩
  | cons b bs ih =>
    rw [List.length_cons] at hN ⊢
    obtain ⟨h1, h2⟩ := putByte_room hf offset b st (by omega)
    unfold putBytes
    simp only [h1, hl, Bool.false_eq_true, if_false]
    obtain ⟨h3, h4⟩ := ih (offset + 8) (putByte fits offset b st) (h1.trans hl) (by omega)
    exact ⟨h3, by omega⟩

/-- No byte needs more than four blocks. -/
theorem sackPass_room (offset : ℤ) (byte : ℕ → Byte) (siz : ℕ) (hN : 4 * siz ≤ N) :
    (sackPass fits offset byte siz).limitReached = false ∧
      (sackPass fits offset byte siz).blocks.length ≤ 4 * siz := by
  have hlen : (maskFirst offset ((List.range siz).map byte)).length = siz := by
    cases siz with
    | zero => rfl
    | succ siz => simp [maskFirst, List.range_succ_eq_map]
  have := putBytes_room hf offset (maskFirst offset ((List.range siz).map byte)) sackStart rfl
    (by simpa [hlen, sackStart] using hN)
  have hstart : sackStart.blocks.length = 0 := rfl
  rw [hlen, hstart, Nat.zero_add] at this
  exact this

end room

/-- A pass with enough room is not cut short. -/
theorem TsnMap.Slid.pass_room {s s' : TsnMap} {q : ℕ} (hs : Slid s s' q) (h : s.Marked)
    {m m' : Tsn} (hm : MarkSlid s.mappingArrayBaseTsn s.leading m m')
    (hd : (8 * s.mappingArraySize : ℤ) - 2 ^ 31 < Serial.dist s.mappingArrayBaseTsn m ∧
      Serial.dist s.mappingArrayBaseTsn m < 8 * s.mappingArraySize)
    (byte : ℕ → Byte) (siz : Tsn → Tsn → ℕ) {N : ℕ}
    (hsiz : (s.leading : ℤ) ≤ Serial.dist s.mappingArrayBaseTsn m →
      4 * siz m s'.mappingArrayBaseTsn ≤ N) {fits : ℕ → Bool} (hf : ∀ n ≤ N, fits n = true) :
    (if tsnGt m' s'.cumulativeTsn then
        sackPass fits (sackOffset s'.mappingArrayBaseTsn s'.cumulativeTsn) byte
          (siz m' s'.mappingArrayBaseTsn)
      else sackStart).limitReached = false ∧
    (if tsnGt m' s'.cumulativeTsn then
        sackPass fits (sackOffset s'.mappingArrayBaseTsn s'.cumulativeTsn) byte
          (siz m' s'.mappingArrayBaseTsn)
      else sackStart).blocks.length ≤ N := by
  obtain ⟨hgt, heq⟩ := hs.mark_gt h hm hd
  split_ifs with hc
  · obtain rfl := heq hc
    have hN := hsiz (hgt.mp hc)
    obtain ⟨h1, h2⟩ := sackPass_room hf (sackOffset s'.mappingArrayBaseTsn s'.cumulativeTsn) byte
      (siz m' s'.mappingArrayBaseTsn) hN
    exact ⟨h1, h2.trans hN⟩
  · exact ⟨rfl, Nat.zero_le _⟩

end Sctp
