import Sctp.SendSack

/-! One pass of `sctp_send_sack` over a bitmap writes the runs of its one bits. -/
namespace Sctp
open Bitmap

/-- The block that reports the run `a` of bits. -/
def gapBlock (offset : ℤ) (a : ℕ × ℕ) : GapBlock :=
  ⟨BitVec.ofInt 16 (a.1 + offset), BitVec.ofInt 16 (a.2 + offset)⟩

theorem gapBlock_add (offset : ℤ) (n : ℕ) (a : ℕ × ℕ) :
    gapBlock (offset + n) a = gapBlock offset (a.1 + n, a.2 + n) := by
  simp only [gapBlock, GapBlock.mk.injEq]
  constructor <;> congr 1 <;> push_cast <;> ring

theorem map_gapBlock_add (offset : ℤ) (n : ℕ) (l : List (ℕ × ℕ)) :
    l.map (gapBlock (offset + n)) = (Runs.shift n l).map (gapBlock offset) := by
  simp only [Runs.shift, List.map_map]
  apply List.map_congr_left
  intro a _
  exact gapBlock_add offset n a

/-- Entries that do not continue the last block are all written with their start. -/
theorem putGaps_of_not_merge (fits : ℕ → Bool) (r : ℕ) (offset : ℤ) (gs : List (ℕ × ℕ))
    (st : SackBuild) (hm : ¬ (st.mergeable = true ∧ r ≠ 0)) (hl : st.limitReached = false) :
    ∃ m, (putGaps fits r offset gs st).blocks = st.blocks ++ (gs.take m).map (gapBlock offset) ∧
      ((putGaps fits r offset gs st).limitReached = false → gs.length ≤ m) ∧
      (gs ≠ [] ∨ st.mergeable = false → (putGaps fits r offset gs st).mergeable = false) := by
  induction gs generalizing st with
  | nil => exact ⟨0, by simp [putGaps], by simp, by simp [putGaps]⟩
  | cons g gs ih =>
    unfold putGaps
    simp only [hm, if_false]
    split_ifs with hf
    · obtain ⟨m, h1, h2, h3⟩ := ih { st with
          blocks := st.blocks ++ [⟨BitVec.ofInt 16 (g.1 + offset), BitVec.ofInt 16 (g.2 + offset)⟩]
          mergeable := false } (by simp) hl
      refine ⟨m + 1, ?_, ?_, fun _ => h3 (Or.inr rfl)⟩
      · rw [h1]
        simp [gapBlock]
      · intro h
        simpa using h2 h
    · exact ⟨1, by simp [gapBlock], by simp, fun _ => rfl⟩

/-- When the byte continues the last block, its first entry keeps that block's start. -/
theorem putGaps_of_mergeable (fits : ℕ → Bool) {r : ℕ} (hr : r ≠ 0) (offset : ℤ) (g : ℕ × ℕ)
    (gs : List (ℕ × ℕ)) (st : SackBuild) (hm : st.mergeable = true)
    (hl : st.limitReached = false) :
    ∃ m, (putGaps fits r offset (g :: gs) st).blocks = st.blocks ++
        ⟨st.cur.start, BitVec.ofInt 16 (g.2 + offset)⟩ :: (gs.take m).map (gapBlock offset) ∧
      ((putGaps fits r offset (g :: gs) st).limitReached = false → gs.length ≤ m) ∧
      (putGaps fits r offset (g :: gs) st).mergeable = false := by
  unfold putGaps
  simp only [hm, ne_eq, hr, not_false_eq_true, and_self, if_true]
  split_ifs with hf
  · obtain ⟨m, h1, h2, h3⟩ := putGaps_of_not_merge fits r offset gs { st with
        blocks := st.blocks ++ [⟨st.cur.start, BitVec.ofInt 16 (g.2 + offset)⟩]
        mergeable := false } (by simp) hl
    exact ⟨m, by rw [h1]; simp, h2, h3 (Or.inr rfl)⟩
  · exact ⟨0, by simp, by simp, rfl⟩

/-- State of a pass in front of bit `n`: the blocks describe the bits before it. -/
structure PassAt (f : ℕ → Bool) (offset : ℤ) (n : ℕ) (st : SackBuild) : Prop where
  limit : st.limitReached = false
  mergeable : st.mergeable = true ↔ 0 < n ∧ f (n - 1) = true
  blocks : ∃ l, st.blocks = l.map (gapBlock offset) ∧ Runs.Describes l f n

/-- Outcome of a pass over `n` bits that may have run out of room. -/
structure PassDone (f : ℕ → Bool) (offset : ℤ) (n : ℕ) (st : SackBuild) : Prop where
  blocks : ∃ l, st.blocks = l.map (gapBlock offset) ∧ Runs.Separated l ∧ Runs.Within l f n ∧
    (st.limitReached = false → Runs.Covers l f n)

theorem putByte_spec (fits : ℕ → Bool) {f : ℕ → Bool} {offset : ℤ} {n : ℕ} {st : SackBuild}
    (h : PassAt f offset n st) {b : Byte} (hb : ∀ k < 8, b.getLsbD k = f (n + k)) :
    PassDone f offset (n + 8) (putByte fits (offset + n) b st) ∧
      ((putByte fits (offset + n) b st).limitReached = false →
        PassAt f offset (n + 8) (putByte fits (offset + n) b st)) := by
  obtain ⟨l, hl, hd⟩ := h.blocks
  have hsel : Runs.Describes (selector b).entries (fun k => f (n + k)) 8 := by
    have h0 := selector_describes b
    refine ⟨h0.separated, ?_, ?_⟩
    · intro a ha
      obtain ⟨h1, h2, h3⟩ := h0.within a ha
      exact ⟨h1, h2, fun k hk1 hk2 => (hb k (by omega)).symm.trans (h3 k hk1 hk2)⟩
    · intro k hk hf
      exact h0.covers k hk ((hb k hk).trans hf)
  have h7 : (selector b).leftEdge ≠ 0 ↔ f (n + 7) = true := by
    rw [selector_leftEdge, hb 7 (by norm_num)]
  have hr0 : (selector b).rightEdge ≠ 0 ↔ f n = true := by
    rw [selector_rightEdge, hb 0 (by norm_num), Nat.add_zero]
  -- the byte as a whole leads to the blocks `L`, of which the room allows a front part
  suffices hmain : ∃ L m, Runs.Describes L f (n + 8) ∧
      (putByte fits (offset + n) b st).blocks = (L.take m).map (gapBlock offset) ∧
      ((putByte fits (offset + n) b st).limitReached = false → L.length ≤ m ∧
        ((putByte fits (offset + n) b st).mergeable = true ↔ f (n + 7) = true)) by
    obtain ⟨L, m, hL, hblk, hlim⟩ := hmain
    refine ⟨⟨L.take m, hblk, hL.separated.take m, hL.within.take m, ?_⟩, ?_⟩
    · intro hf
      rw [List.take_of_length_le (hlim hf).1]
      exact hL.covers
    · intro hf
      refine ⟨hf, ?_, L, ?_, hL⟩
      · rw [(hlim hf).2]
        simp
      · rw [hblk, List.take_of_length_le (hlim hf).1]
  unfold putByte
  simp only
  by_cases hmerge : st.mergeable = true ∧ (selector b).rightEdge ≠ 0
  · obtain ⟨e, r, her⟩ := selector_head ((selector_rightEdge b).mp hmerge.2)
    have hne : (selector b).numEntries ≠ 0 := by
      rw [ne_eq, selector_numEntries, her]
      exact List.cons_ne_nil _ _
    obtain ⟨hn, hfn⟩ := h.mergeable.mp hmerge.1
    obtain ⟨a, ha, han⟩ := Runs.Describes.getLast_of_border (n := n - 1)
      (by rwa [Nat.sub_add_cancel hn]) hfn
    obtain ⟨l, rfl⟩ : ∃ l', l = l' ++ [a] := by
      exact ⟨l.dropLast, (List.dropLast_append_getLast? a ha).symm⟩
    rw [if_pos hmerge, if_neg hne, her]
    obtain ⟨m, h1, h2, h3⟩ := putGaps_of_mergeable fits hmerge.2 (offset + n) (0, e) r
      { st with blocks := st.blocks.dropLast, cur := st.blocks.getLastD st.cur } hmerge.1 h.limit
    have hcur : (st.blocks.getLastD st.cur).start = (gapBlock offset a).start := by
      rw [hl]
      simp
    refine ⟨l ++ (a.1, e + n) :: Runs.shift n r, l.length + 1 + m,
      hd.merge (by omega) (her ▸ hsel), ?_, ?_⟩
    · have hblk : (putGaps fits (selector b).rightEdge (offset + n) ((0, e) :: r)
          { st with blocks := st.blocks.dropLast, cur := st.blocks.getLastD st.cur }).blocks =
          ((l ++ (a.1, e + n) :: Runs.shift n r).take (l.length + 1 + m)).map
            (gapBlock offset) := by
        rw [h1, hcur, hl, map_gapBlock_add]
        simp only [List.map_append, List.map_cons, List.map_nil, List.dropLast_concat]
        rw [show l.length + 1 + m = l.length + (m + 1) by omega, List.take_length_add_append,
          List.take_succ_cons, List.map_append, List.map_cons]
        congr 1
        congr 1
        · simp only [gapBlock, GapBlock.mk.injEq, true_and]
          congr 1
          push_cast
          ring
        · simp [Runs.shift, List.map_take]
      split_ifs <;> exact hblk
    · split_ifs with hle
      · intro hf
        refine ⟨?_, by simp [h7.mp hle]⟩
        have := h2 hf
        simp only [List.length_append, List.length_cons, Runs.shift, List.length_map]
        omega
      · intro hf
        refine ⟨?_, ?_⟩
        · have := h2 hf
          simp only [List.length_append, List.length_cons, Runs.shift, List.length_map]
          omega
        · rw [h3]
          simp [← h7, hle]
  · rw [if_neg hmerge]
    have hborder : 0 < n → f (n - 1) = true → f n = false := by
      intro hn hfn
      rw [Bool.eq_false_iff]
      intro hf
      exact hmerge ⟨h.mergeable.mpr ⟨hn, hfn⟩, hr0.mpr hf⟩
    have hL := hd.append hsel hborder
    refine ⟨l ++ Runs.shift n (selector b).entries, ?_⟩
    by_cases hne : (selector b).numEntries = 0
    · rw [if_pos hne]
      have hnil := (selector_numEntries b).mp hne
      refine ⟨l.length, hL, ?_, ?_⟩
      · simp [hl, hnil, Runs.shift]
      · intro _
        refine ⟨by simp [hnil, Runs.shift], ?_⟩
        have hf7 : f (n + 7) ≠ true := by
          intro hf
          obtain ⟨a, ha, _⟩ := hsel.covers 7 (by norm_num) hf
          simp [hnil] at ha
        simp [hf7]
    · rw [if_neg hne]
      obtain ⟨m, h1, h2, h3⟩ := putGaps_of_not_merge fits (selector b).rightEdge (offset + n)
        (selector b).entries st hmerge h.limit
      have h3 := h3 (Or.inl (fun hnil => hne ((selector_numEntries b).mpr hnil)))
      have hblk : (putGaps fits (selector b).rightEdge (offset + n) (selector b).entries st).blocks =
          ((l ++ Runs.shift n (selector b).entries).take (l.length + m)).map (gapBlock offset) := by
        rw [h1, hl, map_gapBlock_add, List.take_length_add_append, List.map_append]
        simp [Runs.shift, List.map_take]
      have hlen : (putGaps fits (selector b).rightEdge (offset + n) (selector b).entries
          st).limitReached = false →
          (l ++ Runs.shift n (selector b).entries).length ≤ l.length + m := by
        intro hf
        simpa [Runs.shift] using h2 hf
      refine ⟨l.length + m, hL, ?_, ?_⟩
      · split_ifs <;> exact hblk
      · split_ifs with hle
        · intro hf
          exact ⟨hlen hf, by simp [h7.mp hle]⟩
        · intro hf
          refine ⟨hlen hf, ?_⟩
          rw [h3]
          simp [← h7, hle]

/-- A pass over the bytes of `f` reports exactly the bits of `f`, if there is room. -/
theorem putBytes_spec (fits : ℕ → Bool) {f : ℕ → Bool} {offset : ℤ} (bs : List Byte) {n : ℕ}
    {st : SackBuild} (h : PassAt f offset n st)
    (hb : ∀ k < 8 * bs.length, isSet bs k = f (n + k)) :
    PassDone f offset (n + 8 * bs.length) (putBytes fits (offset + n) bs st) := by
  induction bs generalizing n st with
  | nil =>
    obtain ⟨l, hl, hd⟩ := h.blocks
    exact ⟨l, hl, hd.separated, hd.within, fun _ => hd.covers⟩
  | cons b bs ih =>
    have hbyte : ∀ k < 8, b.getLsbD k = f (n + k) := by
      intro k hk
      rw [← hb k (by simp only [List.length_cons]; omega), TsnMap.isSet_cons, if_pos hk]
    obtain ⟨h1, h2⟩ := putByte_spec fits h hbyte
    unfold putBytes
    simp only [List.length_cons]
    split_ifs with hlim
    · obtain ⟨l, hl, hs, hw, _⟩ := h1.blocks
      exact ⟨l, hl, hs, hw.mono (by omega), fun hf => absurd (hlim.symm.trans hf) (by decide)⟩
    · have := ih (h2 (by simpa using hlim)) (fun k hk => by
        rw [Nat.add_assoc, ← hb (8 + k) (by simp only [List.length_cons]; omega),
          TsnMap.isSet_cons, if_neg (by omega), Nat.add_sub_cancel_left])
      rw [show n + 8 * (bs.length + 1) = n + 8 + 8 * bs.length by ring,
        show offset + (n : ℤ) + 8 = offset + ((n + 8 : ℕ) : ℤ) by push_cast; ring]
      exact this

theorem isSet_maskFirst {r : ℕ} (hr : r ≤ 7) (byte : ℕ → Byte) (siz : ℕ) {k : ℕ}
    (hk : k < 8 * siz) :
    isSet (maskFirst (1 - r) ((List.range siz).map byte)) k =
      (decide (r ≤ k) && (byte (k / 8)).getLsbD (k % 8)) := by
  cases siz with
  | zero => omega
  | succ siz =>
    have hplain := TsnMap.isSet_map_range byte (siz + 1) k
    rw [List.range_succ_eq_map, List.map_cons] at hplain ⊢
    rw [TsnMap.isSet_cons] at hplain
    rw [maskFirst, TsnMap.isSet_cons]
    split_ifs at hplain ⊢ with h8
    · rw [BitVec.getLsbD_and, BitVec.getLsbD_shiftLeft, BitVec.getLsbD_allOnes, hplain]
      by_cases hrk : r ≤ k
      · have h8' : k - r < 8 := by omega
        simp [h8, hk, hrk, h8']
      · simp [hrk]
    · have hrk : r ≤ k := by omega
      rw [hplain]
      simp [hk, hrk]

/-- The bits a pass reports: those behind the cumulative TSN. -/
def passBits (r : ℕ) (byte : ℕ → Byte) (k : ℕ) : Bool :=
  decide (r ≤ k) && (byte (k / 8)).getLsbD (k % 8)

theorem sackPass_spec (fits : ℕ → Bool) {r : ℕ} (hr : r ≤ 7) (byte : ℕ → Byte) (siz : ℕ) :
    PassDone (passBits r byte) (1 - r) (8 * siz) (sackPass fits (1 - r) byte siz) := by
  have hlen : (maskFirst (1 - (r : ℤ)) ((List.range siz).map byte)).length = siz := by
    cases siz with
    | zero => rfl
    | succ siz => simp [maskFirst, List.range_succ_eq_map]
  have hstart : PassAt (passBits r byte) (1 - r) 0 sackStart :=
    ⟨rfl, by simp [sackStart], [], rfl, Runs.describes_nil _⟩
  have := putBytes_spec fits (maskFirst (1 - (r : ℤ)) ((List.range siz).map byte)) hstart
    (fun k hk => by
      rw [hlen] at hk
      rw [Nat.zero_add, isSet_maskFirst hr byte siz hk, passBits])
  rw [hlen, Nat.zero_add, Nat.cast_zero, add_zero] at this
  exact this

/-- A TSN that `sctp_process_segment_range` reads out of a list of gap blocks. -/
def Reports (blocks : List GapBlock) (cum t : Tsn) : Prop :=
  ∃ b ∈ blocks, ∃ j, b.start.toNat ≤ j ∧ j ≤ b.stop.toNat ∧ t = cum + BitVec.ofNat 32 j

/-- Blocks in strictly increasing order that neither overlap nor touch. -/
structure WellFormedBlocks (blocks : List GapBlock) : Prop where
  start_le_stop : ∀ b ∈ blocks, b.start.toNat ≤ b.stop.toNat
  separated : blocks.IsChain fun a b => a.stop.toNat + 1 < b.start.toNat

private theorem toNat_gapBlock {r n : ℕ} (hn : n < 2 ^ 15) {k : ℕ} (hrk : r ≤ k) (hk : k < n) :
    (BitVec.ofInt 16 ((k : ℤ) + (1 - r))).toNat = k + 1 - r := by
  rw [BitVec.toNat_ofInt]
  norm_num
  omega

section
variable {r n : ℕ} {byte : ℕ → Byte} {st : SackBuild} (hn : n < 2 ^ 15)
  (h : PassDone (passBits r byte) (1 - r) n st)
include hn h

theorem PassDone.wellFormed : WellFormedBlocks st.blocks := by
  obtain ⟨l, hl, hsep, hw, -⟩ := h.blocks
  have hin : ∀ a ∈ l, r ≤ a.1 ∧ a.1 ≤ a.2 ∧ a.2 < n := by
    intro a ha
    obtain ⟨h1, h2, h3⟩ := hw a ha
    have := h3 a.1 le_rfl h1
    simp only [passBits, Bool.and_eq_true, decide_eq_true_eq] at this
    exact ⟨this.1, h1, h2⟩
  have hval : ∀ a ∈ l, (gapBlock (1 - r) a).start.toNat = a.1 + 1 - r ∧
      (gapBlock (1 - r) a).stop.toNat = a.2 + 1 - r := by
    intro a ha
    obtain ⟨h1, h2, h3⟩ := hin a ha
    exact ⟨toNat_gapBlock hn h1 (by omega), toNat_gapBlock hn (by omega) h3⟩
  rw [hl]
  refine ⟨?_, ?_⟩
  · intro b hb
    obtain ⟨a, ha, rfl⟩ := List.mem_map.mp hb
    rw [(hval a ha).1, (hval a ha).2]
    have := hin a ha
    omega
  · rw [List.isChain_map]
    refine List.IsChain.imp_of_mem_imp ?_ hsep
    intro a b ha hb hab
    rw [(hval a ha).2, (hval b hb).1]
    have := hin a ha
    have := hin b hb
    omega

theorem PassDone.reports_sound {cum t : Tsn} (ht : Reports st.blocks cum t) :
    ∃ k < n, passBits r byte k = true ∧ t = cum + BitVec.ofNat 32 (k + 1 - r) := by
  obtain ⟨l, hl, -, hw, -⟩ := h.blocks
  obtain ⟨b, hb, j, hj1, hj2, rfl⟩ := ht
  rw [hl] at hb
  obtain ⟨a, ha, rfl⟩ := List.mem_map.mp hb
  obtain ⟨h1, h2, h3⟩ := hw a ha
  have hra := h3 a.1 le_rfl h1
  simp only [passBits, Bool.and_eq_true, decide_eq_true_eq] at hra
  have hs : (gapBlock (1 - r) a).start.toNat = a.1 + 1 - r :=
    toNat_gapBlock hn hra.1 (by omega)
  have he : (gapBlock (1 - r) a).stop.toNat = a.2 + 1 - r :=
    toNat_gapBlock hn (by omega) h2
  rw [hs] at hj1
  rw [he] at hj2
  refine ⟨j + r - 1, by omega, h3 _ (by omega) (by omega), ?_⟩
  rw [show j + r - 1 + 1 - r = j by omega]

theorem PassDone.reports_complete (cum : Tsn) (hlim : st.limitReached = false) {k : ℕ}
    (hk : k < n) (hb : passBits r byte k = true) :
    Reports st.blocks cum (cum + BitVec.ofNat 32 (k + 1 - r)) := by
  obtain ⟨l, hl, -, hw, hc⟩ := h.blocks
  obtain ⟨a, ha, hak1, hak2⟩ := hc hlim k hk hb
  obtain ⟨h1, h2, h3⟩ := hw a ha
  have hra := h3 a.1 le_rfl h1
  simp only [passBits, Bool.and_eq_true, decide_eq_true_eq] at hra
  have hs : (gapBlock (1 - r) a).start.toNat = a.1 + 1 - r :=
    toNat_gapBlock hn hra.1 (by omega)
  have he : (gapBlock (1 - r) a).stop.toNat = a.2 + 1 - r :=
    toNat_gapBlock hn (by omega) h2
  refine ⟨gapBlock (1 - r) a, hl ▸ List.mem_map_of_mem ha, k + 1 - r, ?_, ?_, rfl⟩
  · rw [hs]
    omega
  · rw [he]
    omega

end

end Sctp
