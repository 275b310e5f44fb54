import Sctp.SendSack
import Sctp.Sender.TsnFrame

/-! `sctp_handle_segments` marks what the gap blocks name, in whatever order they come. -/
namespace Sctp

variable {n : ℕ}

namespace GapBlock

/-- `start` and `end` of a block, as the SACK carries them. -/
def bounds (f : GapBlock) : ℕ × ℕ := (f.start.toNat, f.stop.toNat)

/-- The block names the TSN; a block with `start > end` names none. -/
def names (lastTsn : Tsn) (f : GapBlock) (t : Tsn) : Bool :=
  decide (f.start.toNat ≤ (t - lastTsn).toNat) && decide ((t - lastTsn).toNat ≤ f.stop.toNat)

end GapBlock

/-- `sent` of a chunk that a block hits. Chunks never sent stay, and so do, for a block that may be
revoked, NR-acked chunks and those to be skipped. -/
def markSent (nrSacking : Bool) (sent : ℕ) : ℕ :=
  if sent = datagramUnsent then sent
  else if nrSacking then datagramNrAcked
  else if sent = datagramSkip ∨ sent = datagramNrAcked then sent
  else datagramMarked

/-- TSN and `sent` of the chunks. -/
def marks (q : List (SentChunk n)) : List (Tsn × ℕ) := q.map fun c => (c.tsn, c.sent)

theorem markSent_markSent (nrSacking : Bool) (sent : ℕ) :
    markSent nrSacking (markSent nrSacking sent) = markSent nrSacking sent := by
  unfold markSent
  split_ifs <;> simp_all

theorem segmentChunk_marks (nrSacking : Bool) (g : GapAcks n) (c : SentChunk n) :
    (segmentChunk nrSacking g c).2.tsn = c.tsn ∧
      (segmentChunk nrSacking g c).2.sent = markSent nrSacking c.sent := by
  refine ⟨(SameCursor.segmentChunk nrSacking g c).2, ?_⟩
  unfold segmentChunk markSent
  by_cases hunsent : c.sent = datagramUnsent
  · rw [if_pos hunsent, if_pos hunsent]
  · rw [if_neg hunsent, if_neg hunsent]
    cases nrSacking with
    | false => rfl
    | true =>
      by_cases hnr : (markGap c).sent = datagramNrAcked
      · simp [hnr]
      · simp [hnr]

/-- Nothing before the cursor has a TSN that is still to come. -/
def NothingBehind (lastTsn : Tsn) (next : ℕ) (q : List (Tsn × ℕ)) (tp1 : ℕ) : Prop :=
  ∀ i < tp1, ∀ x ∈ q[i]?, ∀ j, next ≤ j → j < 2 ^ 16 → x.1 ≠ BitVec.ofNat 32 j + lastTsn

theorem NothingBehind.mono {lastTsn : Tsn} {next next' tp1 : ℕ} {q : List (Tsn × ℕ)}
    (h : NothingBehind lastTsn next q tp1) (hle : next ≤ next') :
    NothingBehind lastTsn next' q tp1 :=
  fun i hi x hx j hj => h i hi x hx j (hle.trans hj)

theorem nothingBehind_zero (lastTsn : Tsn) (next : ℕ) (q : List (Tsn × ℕ)) :
    NothingBehind lastTsn next q 0 :=
  fun i hi => absurd hi (Nat.not_lt_zero i)

/-- Only the TSNs matter. -/
theorem NothingBehind.congr {lastTsn : Tsn} {next tp1 : ℕ} {q q' : List (Tsn × ℕ)}
    (h : NothingBehind lastTsn next q tp1) (htsns : q'.map Prod.fst = q.map Prod.fst) :
    NothingBehind lastTsn next q' tp1 := by
  intro i hi x hx
  have hget : (q'.map Prod.fst)[i]? = some x.1 := by
    rw [List.getElem?_map, Option.mem_def.1 hx]
    rfl
  rw [htsns, List.getElem?_map] at hget
  obtain ⟨y, hy, hyx⟩ := Option.map_eq_some_iff.1 hget
  rw [← hyx]
  exact h i hi y hy

/-- A later TSN of a block is later in serial order. -/
theorem tsnGt_of_lt {lastTsn : Tsn} {j k : ℕ} (hjk : j < k) (hk : k < 2 ^ 16) :
    tsnGt (BitVec.ofNat 32 k + lastTsn) (BitVec.ofNat 32 j + lastTsn) = true := by
  have hsub : BitVec.ofNat 32 k + lastTsn - (BitVec.ofNat 32 j + lastTsn) = BitVec.ofNat 32 (k - j) := by
    apply BitVec.eq_of_toNat_eq
    simp only [BitVec.toNat_sub, BitVec.toNat_add, BitVec.toNat_ofNat]
    omega
  have hpos : (BitVec.ofNat 32 (k - j)).toNat = k - j := by
    rw [BitVec.toNat_ofNat]
    exact Nat.mod_eq_of_lt (by omega)
  rw [tsnGt_iff, hsub, BitVec.toInt_eq_toNat_of_lt (by omega), hpos]
  omega

theorem not_tsnGt_of_tsnGt {a b : Tsn} (h : tsnGt a b = true) : tsnGt b a = false := by
  have hge : tsnGe a b = true := (tsnGe_iff a b).2 ((tsnGt_iff a b).1 h).le
  simpa using not_tsnGt_of_tsnGe hge

def TsnSorted (q : List (SentChunk n)) : Prop :=
  q.Pairwise fun c d => tsnGt d.tsn c.tsn = true

def stopsAt (theTsn : Tsn) (c : SentChunk n) : Bool := c.tsn == theTsn || tsnGt c.tsn theTsn

theorem seekTsn_none {q : List (SentChunk n)} {theTsn : Tsn} {tp1 : ℕ} {circled : Bool}
    (h : (seekTsn q theTsn tp1 circled).1 = none) : ∀ c ∈ q.drop tp1, stopsAt theTsn c = false := by
  unfold seekTsn at h
  split at h
  · cases h
  · rename_i hnone
    exact List.findIdx?_eq_none_iff.1 hnone

theorem seekTsn_some {q : List (SentChunk n)} {theTsn : Tsn} {tp1 i : ℕ} {circled : Bool}
    (h : (seekTsn q theTsn tp1 circled).1 = some i) :
    (tp1 ≤ i ∧ (∃ c, q[i]? = some c ∧ stopsAt theTsn c = true) ∧
      ∀ m, tp1 ≤ m → m < i → ∀ c ∈ q[m]?, stopsAt theTsn c = false) ∨
    (i ≤ tp1 ∧ ∀ c ∈ q.drop tp1, stopsAt theTsn c = false) := by
  unfold seekTsn at h
  split at h
  · rename_i k hk
    cases h
    obtain ⟨hlt, hstop, hbefore⟩ := List.findIdx?_eq_some_iff_getElem.1 hk
    refine .inl ⟨Nat.le_add_right _ _, ⟨_, ?_, hstop⟩, fun m hm hmk c hc => ?_⟩
    · rw [← List.getElem?_drop, List.getElem?_eq_getElem hlt]
    · obtain ⟨d, rfl⟩ := Nat.exists_eq_add_of_le hm
      have hd : d < k := by omega
      rw [← List.getElem?_drop, Option.mem_def, List.getElem?_eq_getElem (hd.trans hlt)] at hc
      have hnot := hbefore d hd
      rw [Option.some.inj hc] at hnot
      exact Bool.not_eq_true _ ▸ hnot
  · rename_i hnone
    have hrest := List.findIdx?_eq_none_iff.1 hnone
    split at h
    · cases h
    · obtain ⟨hlt, hstop, -⟩ := List.findIdx?_eq_some_iff_getElem.1 h
      refine .inr ⟨?_, hrest⟩
      -- what the second search finds lies before the cursor
      by_contra hle
      have hmem : q[i] ∈ q.drop tp1 :=
        List.mem_drop_iff_getElem.2 ⟨i - tp1, by omega, by congr 1; omega⟩
      have hnot := hrest _ hmem
      rw [hstop] at hnot
      cases hnot

/-- The search finds the chunk with the TSN. -/
theorem seekTsn_hits {q : List (SentChunk n)} {lastTsn : Tsn} {j tp1 m : ℕ} {circled : Bool}
    {c : SentChunk n} (hsorted : TsnSorted q) (hbehind : NothingBehind lastTsn j (marks q) tp1)
    (hj : j < 2 ^ 16) (hm : q[m]? = some c) (hc : c.tsn = BitVec.ofNat 32 j + lastTsn) :
    (seekTsn q (BitVec.ofNat 32 j + lastTsn) tp1 circled).1 = some m := by
  have hmark : (marks q)[m]? = some (c.tsn, c.sent) := by
    rw [marks, List.getElem?_map, hm]
    rfl
  have htp1 : tp1 ≤ m := by
    by_contra hlt
    exact hbehind m (by omega) _ hmark j le_rfl hj hc
  have hstop : stopsAt (BitVec.ofNat 32 j + lastTsn) c = true := by
    simp [stopsAt, hc]
  have hin : c ∈ q.drop tp1 := by
    rw [List.mem_iff_getElem?]
    exact ⟨m - tp1, by rw [List.getElem?_drop, Nat.add_sub_cancel' htp1, hm]⟩
  cases hseek : (seekTsn q (BitVec.ofNat 32 j + lastTsn) tp1 circled).1 with
  | none =>
    have hnot := seekTsn_none hseek c hin
    rw [hstop] at hnot
    cases hnot
  | some i =>
    obtain ⟨-, ⟨d, hd, hdstop⟩, hbefore⟩ | ⟨-, hrest⟩ := seekTsn_some hseek
    · congr 1
      by_contra hne
      obtain hlt | hlt := Nat.lt_or_gt_of_ne hne
      · -- a chunk before it stops the scan only if its TSN is later
        have horder : tsnGt c.tsn d.tsn = true := by
          obtain ⟨hi, rfl⟩ := List.getElem?_eq_some_iff.1 hd
          obtain ⟨hm', rfl⟩ := List.getElem?_eq_some_iff.1 hm
          exact List.pairwise_iff_getElem.1 hsorted i m hi hm' hlt
        rw [hc] at horder
        unfold stopsAt at hdstop
        obtain heq | hgt := Bool.or_eq_true_iff.1 hdstop
        · rw [beq_iff_eq] at heq
          rw [heq] at horder
          have hself := not_tsnGt_of_tsnGt horder
          rw [horder] at hself
          cases hself
        · rw [not_tsnGt_of_tsnGt hgt] at horder
          cases horder
      · have hnot := hbefore m htp1 hlt c hm
        rw [hstop] at hnot
        cases hnot
    · have hnot := hrest c hin
      rw [hstop] at hnot
      cases hnot

def hitMark (nrSacking : Bool) (theTsn : Tsn) (x : Tsn × ℕ) : Tsn × ℕ :=
  if x.1 = theTsn then (x.1, markSent nrSacking x.2) else x

theorem hitChunk_marks (nrSacking : Bool) (theTsn : Tsn) (k : Cursor n) (i : ℕ)
    (honly : ∀ m c, k.queue[m]? = some c → c.tsn = theTsn → i = m) :
    marks (hitChunk nrSacking theTsn k i).queue = (marks k.queue).map (hitMark nrSacking theTsn) := by
  have hkeep : ∀ m, m ≠ i → (marks k.queue)[m]? = ((marks k.queue).map (hitMark nrSacking theTsn))[m]? := by
    intro m hm
    rw [List.getElem?_map, marks, List.getElem?_map]
    cases hc : k.queue[m]? with
    | none => rfl
    | some c =>
      have hne : c.tsn ≠ theTsn := fun heq => hm (honly m c hc heq).symm
      simp [hitMark, hne]
  apply List.ext_getElem?
  intro m
  unfold hitChunk
  cases hi : k.queue[i]? with
  | none =>
    dsimp only
    by_cases hm : m = i
    · subst hm
      simp [marks, hi]
    · exact hkeep m hm
  | some c =>
    dsimp only
    obtain ⟨htsn, hsent⟩ := segmentChunk_marks nrSacking k.toGapAcks c
    have hlt : i < k.queue.length := (List.getElem?_eq_some_iff.1 hi).1
    split
    · rename_i heq
      by_cases hm : m = i
      · subst hm
        rw [marks, List.getElem?_map, List.getElem?_set_self hlt, List.getElem?_map, marks,
          List.getElem?_map, hi]
        simp [hitMark, heq, htsn, hsent]
      · rw [← hkeep m hm, marks, marks, List.getElem?_map, List.getElem?_map,
          List.getElem?_set_ne (Ne.symm hm)]
    · rename_i hne
      by_cases hm : m = i
      · subst hm
        simp [marks, hi, hitMark, hne]
      · exact hkeep m hm

theorem tp1_hitChunk (nrSacking : Bool) (theTsn : Tsn) (k : Cursor n) (i : ℕ) :
    (hitChunk nrSacking theTsn k i).tp1 = i := by
  unfold hitChunk
  split
  · rfl
  · split <;> rfl

/-- What the scan goes over is earlier than the TSN, hence than those to come. -/
theorem NothingBehind.scan {lastTsn : Tsn} {j tp1 i : ℕ} {circled : Bool} {q : List (SentChunk n)}
    (h : NothingBehind lastTsn j (marks q) tp1)
    (hseek : (seekTsn q (BitVec.ofNat 32 j + lastTsn) tp1 circled).1 = some i) :
    NothingBehind lastTsn (j + 1) (marks q) i := by
  intro m hm x hx k hk hk'
  obtain ⟨-, -, hbefore⟩ | ⟨hle, -⟩ := seekTsn_some hseek
  · by_cases htp1 : m < tp1
    · exact h m htp1 x hx k (by omega) hk'
    · rw [marks, List.getElem?_map] at hx
      obtain ⟨c, hc, rfl⟩ := Option.map_eq_some_iff.1 hx
      have hstop := hbefore m (by omega) hm c hc
      intro heq
      have hgt : tsnGt c.tsn (BitVec.ofNat 32 j + lastTsn) = true := by
        rw [show c.tsn = BitVec.ofNat 32 k + lastTsn from heq]
        exact tsnGt_of_lt hk hk'
      simp [stopsAt, hgt] at hstop
  · exact h m (by omega) x hx k (by omega) hk'

/-- One TSN: its chunk is hit, and nothing that is still to come is left behind. -/
theorem segmentTsn_marks {lastTsn : Tsn} {k : Cursor n × Bool} {j : ℕ} (hsorted : TsnSorted k.1.queue)
    (hbehind : NothingBehind lastTsn j (marks k.1.queue) k.1.tp1) (hj : j < 2 ^ 16)
    (nrSacking : Bool) :
    marks (segmentTsn lastTsn nrSacking k j).1.queue =
        (marks k.1.queue).map (hitMark nrSacking (BitVec.ofNat 32 j + lastTsn)) ∧
      NothingBehind lastTsn (j + 1) (marks k.1.queue) (segmentTsn lastTsn nrSacking k j).1.tp1 := by
  have hhits : ∀ m c, k.1.queue[m]? = some c → c.tsn = BitVec.ofNat 32 j + lastTsn →
      (seekTsn k.1.queue (BitVec.ofNat 32 j + lastTsn) k.1.tp1 k.2).1 = some m :=
    fun m c hm hc => seekTsn_hits hsorted hbehind hj hm hc
  have hscan : ∀ i, (seekTsn k.1.queue (BitVec.ofNat 32 j + lastTsn) k.1.tp1 k.2).1 = some i →
      NothingBehind lastTsn (j + 1) (marks k.1.queue) i := fun i hi => hbehind.scan hi
  unfold segmentTsn
  dsimp only
  cases hseek : seekTsn k.1.queue (BitVec.ofNat 32 j + lastTsn) k.1.tp1 k.2 with
  | mk r circled =>
    rw [hseek] at hhits hscan
    cases r with
    | none =>
      refine ⟨?_, nothingBehind_zero _ _ _⟩
      symm
      refine (List.map_congr_left fun x hx => ?_).trans (List.map_id _)
      obtain ⟨c, hc, rfl⟩ := List.mem_map.1 hx
      obtain ⟨m, hm⟩ := List.mem_iff_getElem?.1 hc
      refine if_neg fun heq => ?_
      cases hhits m c hm heq
    | some i =>
      refine ⟨hitChunk_marks nrSacking _ k.1 i fun m c hm hc => ?_, ?_⟩
      · exact Option.some.inj (hhits m c hm hc)
      · rw [tp1_hitChunk]
        exact hscan i rfl

/-- A hit on every chunk with a TSN from `first` on, `len` of them. -/
def rangeMark (nrSacking : Bool) (lastTsn : Tsn) (first len : ℕ) (x : Tsn × ℕ) : Tsn × ℕ :=
  if first ≤ (x.1 - lastTsn).toNat ∧ (x.1 - lastTsn).toNat < first + len then
    (x.1, markSent nrSacking x.2) else x

theorem eq_ofNat_add_iff {lastTsn t : Tsn} {j : ℕ} (hj : j < 2 ^ 16) :
    t = BitVec.ofNat 32 j + lastTsn ↔ (t - lastTsn).toNat = j := by
  constructor
  · rintro rfl
    rw [BitVec.add_sub_cancel, BitVec.toNat_ofNat]
    exact Nat.mod_eq_of_lt (by omega)
  · rintro rfl
    rw [BitVec.ofNat_toNat, BitVec.setWidth_eq, BitVec.sub_add_cancel]

theorem rangeMark_hitMark {lastTsn : Tsn} {first len : ℕ} (hlen : first + (len + 1) ≤ 2 ^ 16)
    (nrSacking : Bool) (x : Tsn × ℕ) :
    rangeMark nrSacking lastTsn (first + 1) len (hitMark nrSacking (BitVec.ofNat 32 first + lastTsn) x) =
      rangeMark nrSacking lastTsn first (len + 1) x := by
  unfold hitMark
  have hiff : x.1 = BitVec.ofNat 32 first + lastTsn ↔ (x.1 - lastTsn).toNat = first :=
    eq_ofNat_add_iff (by omega)
  by_cases heq : x.1 = BitVec.ofNat 32 first + lastTsn
  · rw [if_pos heq]
    have := hiff.1 heq
    unfold rangeMark
    rw [if_neg (by dsimp only; omega), if_pos (by omega)]
  · rw [if_neg heq]
    have hne : (x.1 - lastTsn).toNat ≠ first := fun h => heq (hiff.2 h)
    unfold rangeMark
    by_cases hin : first + 1 ≤ (x.1 - lastTsn).toNat ∧ (x.1 - lastTsn).toNat < first + 1 + len
    · rw [if_pos hin, if_pos (by omega)]
    · rw [if_neg hin, if_neg (by omega)]

theorem TsnSorted.congr {q q' : List (SentChunk n)} (h : TsnSorted q)
    (htsns : q'.map SentChunk.tsn = q.map SentChunk.tsn) : TsnSorted q' := by
  have hq : (q.map SentChunk.tsn).Pairwise fun a b => tsnGt b a = true := List.pairwise_map.2 h
  rw [← htsns] at hq
  exact List.pairwise_map.1 hq

theorem marks_fst (q : List (SentChunk n)) : (marks q).map Prod.fst = q.map SentChunk.tsn := by
  rw [marks, List.map_map]
  rfl

theorem foldl_segmentTsn_marks {lastTsn : Tsn} {k : Cursor n × Bool} {first len : ℕ}
    (hsorted : TsnSorted k.1.queue) (hbehind : NothingBehind lastTsn first (marks k.1.queue) k.1.tp1)
    (hlen : first + len ≤ 2 ^ 16) (nrSacking : Bool) :
    marks ((List.range' first len).foldl (segmentTsn lastTsn nrSacking) k).1.queue =
        (marks k.1.queue).map (rangeMark nrSacking lastTsn first len) ∧
      NothingBehind lastTsn (first + len) (marks k.1.queue)
        ((List.range' first len).foldl (segmentTsn lastTsn nrSacking) k).1.tp1 := by
  induction len generalizing first k with
  | zero =>
    refine ⟨?_, hbehind⟩
    symm
    refine (List.map_congr_left fun x _ => ?_).trans (List.map_id _)
    exact if_neg (by omega)
  | succ len ih =>
    rw [List.range'_succ, List.foldl_cons]
    obtain ⟨hmarks, hnext⟩ := segmentTsn_marks hsorted hbehind (by omega) nrSacking
    have htsns := (SameCursor.segmentTsn lastTsn nrSacking k first).tsns
    have hfst : (marks k.1.queue).map Prod.fst =
        (marks (segmentTsn lastTsn nrSacking k first).1.queue).map Prod.fst := by
      rw [marks_fst, marks_fst, htsns]
    obtain ⟨hrest, hlast⟩ := ih (hsorted.congr htsns) (hnext.congr hfst.symm) (by omega)
    constructor
    · rw [hrest, hmarks, List.map_map]
      exact List.map_congr_left fun x _ => rangeMark_hitMark hlen nrSacking x
    · have := hlast.congr hfst
      rwa [show first + 1 + len = first + (len + 1) by omega] at this

/-- A hit on every chunk that one of the blocks names. -/
def blocksMark (nrSacking : Bool) (lastTsn : Tsn) (fs : List GapBlock) (x : Tsn × ℕ) : Tsn × ℕ :=
  if fs.any fun f => f.names lastTsn x.1 then (x.1, markSent nrSacking x.2) else x

theorem blocksMark_singleton (nrSacking : Bool) (lastTsn : Tsn) (f : GapBlock) (x : Tsn × ℕ) :
    blocksMark nrSacking lastTsn [f] x =
      rangeMark nrSacking lastTsn f.start.toNat (f.stop.toNat + 1 - f.start.toNat) x := by
  unfold blocksMark rangeMark GapBlock.names
  have hiff : (f.start.toNat ≤ (x.1 - lastTsn).toNat ∧ (x.1 - lastTsn).toNat ≤ f.stop.toNat) ↔
      f.start.toNat ≤ (x.1 - lastTsn).toNat ∧
        (x.1 - lastTsn).toNat < f.start.toNat + (f.stop.toNat + 1 - f.start.toNat) := by
    omega
  simp only [List.any_cons, List.any_nil, Bool.or_false, Bool.and_eq_true, decide_eq_true_eq, hiff]

theorem blocksMark_cons (nrSacking : Bool) (lastTsn : Tsn) (f : GapBlock) (fs : List GapBlock)
    (x : Tsn × ℕ) :
    blocksMark nrSacking lastTsn fs (blocksMark nrSacking lastTsn [f] x) =
      blocksMark nrSacking lastTsn (f :: fs) x := by
  unfold blocksMark
  cases hf : f.names lastTsn x.1 with
  | false => simp [hf]
  | true =>
    cases hfs : fs.any fun f => f.names lastTsn x.1 with
    | false => simp [hf, hfs]
    | true => simp [hf, hfs, markSent_markSent]

/-- One block. A block in order starts where the last one ended, any other from the head. -/
theorem handleSegment_marks {lastTsn : Tsn} {k : Cursor n × ℕ} (hsorted : TsnSorted k.1.queue)
    (hbehind : NothingBehind lastTsn (k.2 + 1) (marks k.1.queue) k.1.tp1) (nrSacking : Bool)
    (f : GapBlock) :
    marks (handleSegment lastTsn nrSacking k f.bounds).1.queue =
        (marks k.1.queue).map (blocksMark nrSacking lastTsn [f]) ∧
      NothingBehind lastTsn ((handleSegment lastTsn nrSacking k f.bounds).2 + 1) (marks k.1.queue)
        (handleSegment lastTsn nrSacking k f.bounds).1.tp1 := by
  have hstop : f.stop.toNat < 2 ^ 16 := f.stop.isLt
  rw [List.map_congr_left fun x _ => blocksMark_singleton nrSacking lastTsn f x]
  unfold handleSegment GapBlock.bounds
  dsimp only
  split
  · rename_i hbad
    refine ⟨?_, hbehind⟩
    symm
    refine (List.map_congr_left fun x _ => ?_).trans (List.map_id _)
    exact if_neg (by omega)
  · rename_i hgood
    have hstart : NothingBehind lastTsn f.start.toNat (marks k.1.queue)
        (if f.start.toNat ≤ k.2 then 0 else k.1.tp1) := by
      split
      · exact nothingBehind_zero _ _ _
      · exact hbehind.mono (by omega)
    have hlen : f.start.toNat + (f.stop.toNat + 1 - f.start.toNat) = f.stop.toNat + 1 := by omega
    have hroom : f.start.toNat + (f.stop.toNat + 1 - f.start.toNat) ≤ 2 ^ 16 := by omega
    obtain ⟨hmarks, hlast⟩ := foldl_segmentTsn_marks
      (k := ({ k.1 with
        tp1 := if f.start.toNat ≤ k.2 then 0 else k.1.tp1
        biggestTsnAcked :=
          if tsnGt (BitVec.ofNat 32 f.stop.toNat + lastTsn) k.1.biggestTsnAcked then
            BitVec.ofNat 32 f.stop.toNat + lastTsn else k.1.biggestTsnAcked }, false))
      hsorted hstart hroom nrSacking
    rw [hlen] at hlast
    exact ⟨hmarks, hlast⟩

theorem foldl_handleSegment_marks {lastTsn : Tsn} (fs : List GapBlock) {k : Cursor n × ℕ}
    (hsorted : TsnSorted k.1.queue)
    (hbehind : NothingBehind lastTsn (k.2 + 1) (marks k.1.queue) k.1.tp1) (nrSacking : Bool) :
    marks ((fs.map GapBlock.bounds).foldl (handleSegment lastTsn nrSacking) k).1.queue =
      (marks k.1.queue).map (blocksMark nrSacking lastTsn fs) := by
  induction fs generalizing k with
  | nil =>
    symm
    refine (List.map_congr_left fun x _ => ?_).trans (List.map_id _)
    rfl
  | cons f fs ih =>
    rw [List.map_cons, List.foldl_cons]
    obtain ⟨hmarks, hnext⟩ := handleSegment_marks hsorted hbehind nrSacking f
    have htsns := (SameCursor.handleSegment lastTsn nrSacking k f.bounds).tsns
    have hfst : (marks (handleSegment lastTsn nrSacking k f.bounds).1.queue).map Prod.fst =
        (marks k.1.queue).map Prod.fst := by
      rw [marks_fst, marks_fst, htsns]
    rw [ih (hsorted.congr htsns) (hnext.congr hfst), hmarks, List.map_map]
    exact List.map_congr_left fun x _ => blocksMark_cons nrSacking lastTsn f fs x

/-- What the blocks of a SACK do to `sent` of a chunk. -/
def gapSent (lastTsn : Tsn) (segs nrSegs : List GapBlock) (c : SentChunk n) : ℕ :=
  if c.sent = datagramUnsent then c.sent
  else if nrSegs.any fun f => f.names lastTsn c.tsn then datagramNrAcked
  else if segs.any fun f => f.names lastTsn c.tsn then
    if c.sent = datagramSkip ∨ c.sent = datagramNrAcked then c.sent else datagramMarked
  else c.sent

theorem blocksMark_blocksMark (lastTsn : Tsn) (segs nrSegs : List GapBlock) (c : SentChunk n) :
    blocksMark true lastTsn nrSegs (blocksMark false lastTsn segs (c.tsn, c.sent)) =
      (c.tsn, gapSent lastTsn segs nrSegs c) := by
  have hmarked : datagramMarked ≠ datagramUnsent := by decide
  unfold blocksMark gapSent markSent
  by_cases hunsent : c.sent = datagramUnsent
  · cases nrSegs.any fun f => f.names lastTsn c.tsn <;>
      cases segs.any fun f => f.names lastTsn c.tsn <;> simp_all
  · cases hsegs : segs.any fun f => f.names lastTsn c.tsn with
    | false =>
      cases hnr : nrSegs.any fun f => f.names lastTsn c.tsn <;> simp [hnr, hunsent]
    | true =>
      by_cases hkept : c.sent = datagramSkip ∨ c.sent = datagramNrAcked
      · cases hnr : nrSegs.any fun f => f.names lastTsn c.tsn <;>
          simp [hnr, hunsent, hkept]
      · cases hnr : nrSegs.any fun f => f.names lastTsn c.tsn <;>
          simp [hnr, hunsent, hkept, hmarked]

theorem gapSent_perm {lastTsn : Tsn} {segs segs' nrSegs nrSegs' : List GapBlock}
    (hsegs : segs.Perm segs') (hnr : nrSegs.Perm nrSegs') (c : SentChunk n) :
    gapSent lastTsn segs nrSegs c = gapSent lastTsn segs' nrSegs' c := by
  have hany : ∀ {l l' : List GapBlock}, l.Perm l' →
      (l.any fun f => f.names lastTsn c.tsn) = l'.any fun f => f.names lastTsn c.tsn := by
    intro l l' h
    rw [Bool.eq_iff_iff, List.any_eq_true, List.any_eq_true]
    simp only [h.mem_iff]
  unfold gapSent
  rw [hany hsegs, hany hnr]

/-- Exactly the sent chunks that a block names are marked, in whatever order the blocks come; those
given up stay as they are unless an NR block names them. -/
theorem handleSegments_marks_exactly (lastTsn : Tsn) (segs nrSegs : List GapBlock) (g : GapAcks n)
    (q : List (SentChunk n)) (hsorted : TsnSorted q) :
    marks (handleSegments lastTsn (segs.map GapBlock.bounds) (nrSegs.map GapBlock.bounds) g q).queue =
        q.map (fun c => (c.tsn, gapSent lastTsn segs nrSegs c)) ∧
      ∀ segs' nrSegs', segs.Perm segs' → nrSegs.Perm nrSegs' →
        marks (handleSegments lastTsn (segs'.map GapBlock.bounds) (nrSegs'.map GapBlock.bounds) g
            q).queue =
          marks (handleSegments lastTsn (segs.map GapBlock.bounds) (nrSegs.map GapBlock.bounds) g
            q).queue := by
  have hmarks : ∀ fs fs' : List GapBlock,
      marks (handleSegments lastTsn (fs.map GapBlock.bounds) (fs'.map GapBlock.bounds) g q).queue =
        q.map fun c => (c.tsn, gapSent lastTsn fs fs' c) := by
    intro fs fs'
    have hfirst := foldl_handleSegment_marks fs (k := ({ toGapAcks := g, queue := q, tp1 := 0 }, 0))
      hsorted (nothingBehind_zero lastTsn _ _) false
    have htsns := (SameCursor.foldl_handleSegment lastTsn false (fs.map GapBlock.bounds)
      ({ toGapAcks := g, queue := q, tp1 := 0 }, 0)).tsns
    unfold handleSegments
    dsimp only
    refine (foldl_handleSegment_marks fs'
      (k := ({ ((fs.map GapBlock.bounds).foldl (handleSegment lastTsn false)
        ({ toGapAcks := g, queue := q, tp1 := 0 }, 0)).1 with tp1 := 0 }, 0))
      (hsorted.congr htsns) (nothingBehind_zero lastTsn _ _) true).trans ?_
    rw [show marks ((fs.map GapBlock.bounds).foldl (handleSegment lastTsn false)
      ({ toGapAcks := g, queue := q, tp1 := 0 }, 0)).1.queue = _ from hfirst, marks, List.map_map,
      List.map_map]
    exact List.map_congr_left fun c _ => blocksMark_blocksMark lastTsn fs fs' c
  refine ⟨hmarks segs nrSegs, fun segs' nrSegs' hsegs hnr => ?_⟩
  rw [hmarks, hmarks]
  exact List.map_congr_left fun c _ => by rw [gapSent_perm hsegs hnr c]

local instance gapMarks_neZero : NeZero 1 := ⟨Nat.one_ne_zero⟩

/-- A chunk on the sent queue of an association with one destination. -/
def queuedChunk (tsn : Tsn) (sent : ℕ) : SentChunk 1 :=
  { tsn := tsn, streamNumber := 0, sendSize := 1400, bookSize := 1400, bookSizeScale := false
    sent := sent, sndCount := 1, whoTo := 0, flags := 1, hasData := false, windowProbe := false
    chunkWasRevoked := false, doingFastRetransmit := false, fastRetranTsn := 0
    noFrAllowed := false, sentRcvTime := 0, authKeyid := 0 }

def noGapAcks : GapAcks 1 :=
  { totalFlight := 0, totalFlightCount := 0, flightSize := fun _ => 0, sentQueueRetranCnt := 0
    saturated := false
    sendQueue := none, sendingSeq := 4, streamQueueCnt := 0, state := 0x0008
    lockedOnSending := none
    nets := fun _ =>
      { netAck := 0, netAck2 := 0, windowProbe := false, sawNewack := false
        thisSackHighestNewack := 0, pf := false }
    lastAckedSeq := 0, sentQueueCnt := 3, prSctpCnt := 1, sentQueueCntRemoveable := 0
    chunksOnQueues := fun _ => 3, peersRwnd := 65536, advancedPeerAckPoint := 0
    thisSackHighestGap := 0, sawSackWithFrags := false, sawSackWithNrFrags := false
    cwndInput := fun _ => (0, 0)
    biggestTsnAcked := 0, biggestTsnNewlyAcked := 0, thisSackLowestNewack := 0 }

/-- The blocks 3-3 and 2-2, in the wrong order. -/
theorem handleSegments_marks_exactly_disordered :
    marks (handleSegments 0 ([⟨3, 3⟩, ⟨2, 2⟩].map GapBlock.bounds) ([].map GapBlock.bounds) noGapAcks
      [queuedChunk 1 1, queuedChunk 2 1, queuedChunk 3 1]).queue =
        [(1, 1), (2, datagramMarked), (3, datagramMarked)] := by
  have hsorted : TsnSorted [queuedChunk 1 1, queuedChunk 2 1, queuedChunk 3 1] := by
    unfold TsnSorted
    decide
  exact (handleSegments_marks_exactly 0 [⟨3, 3⟩, ⟨2, 2⟩] [] noGapAcks _ hsorted).1.trans (by decide)

/-- A chunk that was sent and then given up is in a block and is not marked. -/
theorem skipped_not_marked :
    TsnSorted [queuedChunk 1 datagramSkip] ∧
      (⟨1, 1⟩ : GapBlock).names 0 1 = true ∧
      marks (handleSegments 0 ([⟨1, 1⟩].map GapBlock.bounds) [] noGapAcks
        [queuedChunk 1 datagramSkip]).queue = [(1, datagramSkip)] := by
  refine ⟨List.pairwise_singleton _ _, by decide, ?_⟩
  decide +kernel

end Sctp
