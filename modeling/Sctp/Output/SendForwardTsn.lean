import Mathlib.Data.List.TakeWhile
import Sctp.Chunk

/-! The FORWARD-TSN chunk, `send_forward_tsn` of `sctp_output.c`, and when it names what it skips. -/
namespace Sctp

/-- `SCTP_MIN_OVERHEAD`, `SCTP_MIN_V4_OVERHEAD` and the sizes of the two structures, in bytes. -/
def minOverheadBytes : BitVec 32 := 52
def minV4OverheadBytes : BitVec 32 := 32
def sizeofForwardTsnChunk : ℕ := 8
def sizeofStrseq : ℕ := 4

/-- A FORWARD-TSN chunk with the `strseq` entries that were written behind it. -/
structure ForwardTsnOut where
  chunkLength : ℕ
  newCumulativeTsn : Tsn
  strseq : List (StreamNo × Ssn)
deriving DecidableEq, Repr

namespace TmitChunk

def skipped (chk : TmitChunk) : Bool := chk.sent == datagramSkip || chk.sent == datagramNrAcked

def ordered (chk : TmitChunk) : Bool := !chk.rcvFlags.unordered

def strseq (chk : TmitChunk) : StreamNo × Ssn := (chk.streamNumber, chk.streamSeq)

end TmitChunk

open TmitChunk

/-- The first loop: ordered chunks of the skipped prefix. -/
def cntOfSkipped : List TmitChunk → ℕ
  | [] => 0
  | at' :: q =>
    if !at'.skipped then 0
    else if at'.rcvFlags.unordered then cntOfSkipped q
    else cntOfSkipped q + 1

/-- `cnt_of_space`: the trailing space of the mbuf, trimmed to a mtu. -/
def cntOfSpace (trailing : ℕ) (smallestMtu : BitVec 32) (boundV6 : Bool) : ℕ :=
  let ovh := if boundV6 then minOverheadBytes else minV4OverheadBytes
  if (smallestMtu - ovh).toNat < trailing then (smallestMtu - ovh).toNat else trailing

/-- The second loop, which ends at the last chunk at the latest. -/
def lastToReport : ℕ → List TmitChunk → Option TmitChunk
  | _, [] => none
  | 0, at' :: _ => some at'
  | _ + 1, [at'] => some at'
  | i + 1, _ :: tp1 :: q => lastToReport i (tp1 :: q)

/-- The third loop. There is no entry for the last chunk of the queue; behind an empty queue a null
pointer is followed. -/
def fillStrseq : ℕ → List TmitChunk → Option (List (StreamNo × Ssn))
  | 0, _ => some []
  | _ + 1, [] => none
  | _ + 1, [_] => some []
  | i + 1, at' :: tp1 :: q =>
    if at'.rcvFlags.unordered then fillStrseq (i + 1) (tp1 :: q)
    else (fillStrseq i (tp1 :: q)).map fun l => at'.strseq :: l

/-- `cnt_of_skipped` after trimming; the difference of unsigned numbers wraps around. -/
def trimmedCnt (space : ℕ) : ℕ := (space + 2 ^ 32 - sizeofForwardTsnChunk) % 2 ^ 32 / sizeofStrseq

/-- The part of `send_forward_tsn` that fills in the chunk. `send_size` has 16 bits. -/
def sendForwardTsn (sentQueue : List TmitChunk) (advancedPeerAckPoint : Tsn) (space : ℕ) :
    Option ForwardTsnOut :=
  let cnt := cntOfSkipped sentQueue
  if space < sizeofForwardTsnChunk + cnt * sizeofStrseq then
    let cnt := trimmedCnt space
    (fillStrseq cnt sentQueue).map fun strseq =>
      { chunkLength := (sizeofForwardTsnChunk + cnt * sizeofStrseq) % 2 ^ 16
        newCumulativeTsn := match lastToReport cnt sentQueue with
          | some last => last.tsn
          | none => advancedPeerAckPoint
        strseq := strseq }
  else
    (fillStrseq cnt sentQueue).map fun strseq =>
      { chunkLength := (sizeofForwardTsnChunk + cnt * sizeofStrseq) % 2 ^ 16
        newCumulativeTsn := advancedPeerAckPoint
        strseq := strseq }

def skippedPrefix (q : List TmitChunk) : List TmitChunk := q.takeWhile skipped

/-- The entries are those of the ordered chunks of the prefix up to the TSN that is reported, each of
them is written, and the chunk fits. -/
structure NamesSkipped (q : List TmitChunk) (adv : Tsn) (space : ℕ) (f : ForwardTsnOut) : Prop where
  le : tsnGe adv f.newCumulativeTsn = true
  entries : f.strseq =
    ((skippedPrefix q).filter fun c => c.ordered && tsnGe f.newCumulativeTsn c.tsn).map strseq
  length : f.chunkLength = sizeofForwardTsnChunk + sizeofStrseq * f.strseq.length
  fits : f.chunkLength ≤ space

def InTsnOrder (q : List TmitChunk) : Prop := q.Pairwise fun a b => tsnGt b.tsn a.tsn = true

/-- Everything fits: the last chunk of the queue is no ordered one to be reported, and the chunks to be
reported are not ahead of the peer ack point. -/
structure FitsWhole (q : List TmitChunk) (adv : Tsn) (space : ℕ) : Prop where
  room : sizeofForwardTsnChunk + cntOfSkipped q * sizeofStrseq ≤ space
  size : sizeofForwardTsnChunk + cntOfSkipped q * sizeofStrseq < 2 ^ 16
  last : (∀ c ∈ q, c.skipped = true) → ∀ c ∈ q.getLast?, c.ordered = false
  le : ∀ c ∈ skippedPrefix q, c.ordered = true → tsnGe adv c.tsn = true

/-- Something has to be left out: one of the chunks up to the one whose TSN is reported is unordered,
and only one. -/
structure FitsTrimmed (q : List TmitChunk) (adv : Tsn) (space : ℕ) : Prop where
  short : space < sizeofForwardTsnChunk + cntOfSkipped q * sizeofStrseq
  header : sizeofForwardTsnChunk ≤ space
  size : sizeofForwardTsnChunk + trimmedCnt space * sizeofStrseq < 2 ^ 16
  one : (q.take (trimmedCnt space + 1)).countP (fun c => !c.ordered) = 1
  le : ∀ c ∈ q[trimmedCnt space]?, tsnGe adv c.tsn = true

theorem cntOfSkipped_eq (q : List TmitChunk) :
    cntOfSkipped q = ((skippedPrefix q).filter ordered).length := by
  induction q with
  | nil => rfl
  | cons c q ih =>
    unfold cntOfSkipped skippedPrefix
    rw [List.takeWhile_cons]
    cases hskipped : c.skipped with
    | false => rfl
    | true =>
      cases hunordered : c.rcvFlags.unordered with
      | true =>
        rw [Bool.not_true, if_neg Bool.false_ne_true, if_pos rfl, if_pos rfl, List.filter_cons_of_neg, ih]
        · rfl
        · simp [ordered, hunordered]
      | false =>
        rw [Bool.not_true, if_neg Bool.false_ne_true, if_neg Bool.false_ne_true, if_pos rfl,
          List.filter_cons_of_pos, List.length_cons, ih]
        · rfl
        · simp [ordered, hunordered]

/-- The loop stays at the last chunk of the queue. -/
theorem lastToReport_eq {i : ℕ} {q : List TmitChunk} (hi : i < q.length) :
    lastToReport i q = q[i]? := by
  induction q generalizing i with
  | nil => cases hi
  | cons c q ih =>
    cases i with
    | zero => rfl
    | succ i =>
      cases q with
      | nil => simp at hi
      | cons d q =>
        rw [lastToReport, ih (by simpa using hi)]
        rfl

/-- The entries are those of the first ordered chunks, the last chunk apart. -/
theorem fillStrseq_eq {i : ℕ} {q : List TmitChunk} (hq : i = 0 ∨ q ≠ []) :
    fillStrseq i q = some (((q.dropLast.filter ordered).take i).map strseq) := by
  induction q generalizing i with
  | nil =>
    obtain rfl | hne := hq
    · rfl
    · exact absurd rfl hne
  | cons c q ih =>
    cases i with
    | zero =>
      rw [List.take_zero]
      rfl
    | succ i =>
      cases q with
      | nil => rfl
      | cons d q =>
        rw [fillStrseq, List.dropLast_cons_of_ne_nil (List.cons_ne_nil d q)]
        cases hunordered : c.rcvFlags.unordered with
        | true =>
          rw [if_pos rfl, ih (.inr (List.cons_ne_nil d q)), List.filter_cons_of_neg]
          simp [ordered, hunordered]
        | false =>
          rw [if_neg Bool.false_ne_true, ih (.inr (List.cons_ne_nil d q)), List.filter_cons_of_pos,
            List.take_succ_cons]
          · rfl
          · simp [ordered, hunordered]

theorem cntOfSpace_lt (trailing : ℕ) (smallestMtu : BitVec 32) (boundV6 : Bool) :
    cntOfSpace trailing smallestMtu boundV6 < 2 ^ 32 := by
  have hv6 := (smallestMtu - minOverheadBytes).isLt
  have hv4 := (smallestMtu - minV4OverheadBytes).isLt
  unfold cntOfSpace
  dsimp only
  split_ifs
  all_goals omega

theorem trimmedCnt_eq {space : ℕ} (hspace : space < 2 ^ 32) (hheader : sizeofForwardTsnChunk ≤ space) :
    trimmedCnt space = (space - 8) / 4 := by
  unfold trimmedCnt sizeofForwardTsnChunk sizeofStrseq at *
  rw [show space + 2 ^ 32 - 8 = space - 8 + 2 ^ 32 by omega, Nat.add_mod_right, Nat.mod_eq_of_lt]
  omega

theorem tsnGe_of_gt {a b : Tsn} (h : tsnGt a b = true) : tsnGe a b = true := by
  rw [tsnGt_iff] at h
  rw [tsnGe_iff]
  exact h.le

theorem not_tsnGe_of_gt {a b : Tsn} (h : tsnGt a b = true) : tsnGe b a = false := by
  obtain ⟨hpos, hlt⟩ := (Serial.gt_iff (by norm_num) a b).1 h
  rw [Bool.eq_false_iff, Ne, tsnGe, Serial.ge_iff (by norm_num)]
  bv_omega

theorem tsnGe_refl (a : Tsn) : tsnGe a a = true := by
  rw [tsnGe_iff, BitVec.sub_self]
  decide

/-- Chunks up to a TSN of the queue stand at its front. -/
theorem filter_upto {s r : List TmitChunk} {t : TmitChunk} (h : InTsnOrder (s ++ t :: r)) :
    (s ++ t :: r).filter (fun c => tsnGe t.tsn c.tsn) = s ++ [t] := by
  obtain ⟨-, htail, hcross⟩ := List.pairwise_append.1 h
  obtain ⟨hafter, -⟩ := List.pairwise_cons.1 htail
  have hs : s.filter (fun c => tsnGe t.tsn c.tsn) = s :=
    List.filter_eq_self.2 fun c hc => tsnGe_of_gt (hcross c hc t List.mem_cons_self)
  have hr : r.filter (fun c => tsnGe t.tsn c.tsn) = [] := by
    rw [List.filter_eq_nil_iff]
    intro c hc
    rw [not_tsnGe_of_gt (hafter c hc)]
    exact Bool.false_ne_true
  rw [List.filter_append, List.filter_cons, hs, hr, if_pos (tsnGe_refl _)]

theorem skippedPrefix_append (q : List TmitChunk) :
    ∃ r, q = skippedPrefix q ++ r :=
  ⟨q.dropWhile skipped, (List.takeWhile_append_dropWhile).symm⟩

/-- The last chunk apart, the ordered chunks of the queue begin with those of the prefix. -/
theorem take_entries {q : List TmitChunk} {i : ℕ}
    (hi : i < ((skippedPrefix q).filter ordered).length) :
    (q.dropLast.filter ordered).take i = ((skippedPrefix q).filter ordered).take i := by
  obtain ⟨r, hr⟩ := skippedPrefix_append q
  generalize skippedPrefix q = l at hi hr ⊢
  subst hr
  obtain rfl | hne := eq_or_ne r []
  · rw [List.append_nil]
    obtain rfl | ⟨s, c, rfl⟩ := l.eq_nil_or_concat
    · rfl
    rw [List.concat_eq_append] at hi ⊢
    rw [List.dropLast_concat, List.filter_append, List.take_append_of_le_length]
    rw [List.filter_append, List.length_append] at hi
    have : ([c].filter ordered).length ≤ 1 := List.length_filter_le _ _
    omega
  · rw [List.dropLast_append_of_ne_nil hne, List.filter_append, List.take_append_of_le_length hi.le]

/-- All entries are written, or the last one is not. -/
theorem take_all_entries (q : List TmitChunk) :
    (((∀ c ∈ q, c.skipped = true) → ∀ c ∈ q.getLast?, c.ordered = false) ∧
      (q.dropLast.filter ordered).take (cntOfSkipped q) = (skippedPrefix q).filter ordered) ∨
    (¬((∀ c ∈ q, c.skipped = true) → ∀ c ∈ q.getLast?, c.ordered = false) ∧
      ((q.dropLast.filter ordered).take (cntOfSkipped q)).length + 1 = cntOfSkipped q) := by
  rw [cntOfSkipped_eq]
  obtain ⟨r, hr⟩ := skippedPrefix_append q
  obtain rfl | hne := eq_or_ne r []
  · rw [List.append_nil] at hr
    rw [← hr]
    have hall : ∀ c ∈ q, c.skipped = true := by
      rw [hr]
      exact fun c hc => List.mem_takeWhile_imp hc
    obtain hnil | ⟨s, c, hs⟩ := q.eq_nil_or_concat
    · rw [hnil]
      exact .inl ⟨fun _ c hc => (by cases hc), rfl⟩
    rw [List.concat_eq_append] at hs
    have hlast : q.getLast? = some c := by rw [hs, List.getLast?_concat]
    rw [hlast, hs, List.dropLast_concat, List.filter_append]
    cases hc : c.ordered with
    | false =>
      left
      constructor
      · intro _ d hd
        obtain rfl := Option.some.inj hd
        exact hc
      · rw [List.filter_cons_of_neg (by rw [hc]; exact Bool.false_ne_true), List.filter_nil,
          List.append_nil, List.take_length]
    | true =>
      right
      constructor
      · intro h
        have := h (hs ▸ hall) c rfl
        rw [hc] at this
        cases this
      · rw [List.filter_cons_of_pos hc, List.filter_nil, List.length_append, List.length_singleton,
          List.take_of_length_le (Nat.le_succ _)]
  · left
    constructor
    · intro hall
      exfalso
      obtain ⟨c, r, rfl⟩ := List.exists_cons_of_ne_nil hne
      have hdrop : q.dropWhile skipped = c :: r := by
        have := List.takeWhile_append_dropWhile (p := skipped) (l := q)
        exact List.append_cancel_left (this.trans hr)
      have hbad := List.head_dropWhile_not skipped (l := q) (by rw [hdrop]; exact List.cons_ne_nil _ _)
      have hin : c ∈ q := by
        rw [hr]
        exact List.mem_append_right _ List.mem_cons_self
      simp only [hdrop, List.head_cons] at hbad
      rw [hall c hin] at hbad
      cases hbad
    · generalize skippedPrefix q = l at hr ⊢
      subst hr
      rw [List.dropLast_append_of_ne_nil hne, List.filter_append, List.take_left]

/-- Entries of a sublist are the entries of the list only when nothing is left out. -/
theorem map_filter_eq_iff {l : List TmitChunk} {p : TmitChunk → Bool} :
    l.map strseq = (l.filter p).map strseq ↔ ∀ c ∈ l, p c = true := by
  constructor
  · intro h
    have hlen := congrArg List.length h
    rw [List.length_map, List.length_map] at hlen
    exact List.length_filter_eq_length_iff.1 hlen.symm
  · intro h
    rw [List.filter_eq_self.2 h]

theorem filter_and (l : List TmitChunk) (t : Tsn) :
    l.filter (fun c => c.ordered && tsnGe t c.tsn) =
      (l.filter ordered).filter fun c => tsnGe t c.tsn := by
  rw [List.filter_filter]
  exact List.filter_congr fun c _ => Bool.and_comm _ _

theorem whole_iff {q : List TmitChunk} {adv : Tsn} {space : ℕ}
    (hroom : sizeofForwardTsnChunk + cntOfSkipped q * sizeofStrseq ≤ space) :
    (∃ f, sendForwardTsn q adv space = some f ∧ NamesSkipped q adv space f) ↔
      FitsWhole q adv space := by
  have hfill : cntOfSkipped q = 0 ∨ q ≠ [] := by
    obtain rfl | hne := eq_or_ne q []
    · exact .inl rfl
    · exact .inr hne
  unfold sendForwardTsn
  rw [if_neg (not_lt.2 hroom), fillStrseq_eq hfill, Option.map_some]
  have hcnt := cntOfSkipped_eq q
  obtain ⟨hlast, hall⟩ | ⟨hlast, hlen⟩ := take_all_entries q
  · rw [hall]
    constructor
    · rintro ⟨f, hf, -, hentries, hlength, hfits⟩
      obtain rfl := Option.some.inj hf
      refine ⟨hroom, ?_, hlast, ?_⟩
      · simp only [List.length_map] at hlength
        have := Nat.mod_lt (sizeofForwardTsnChunk + cntOfSkipped q * sizeofStrseq) (by norm_num : 0 < 2 ^ 16)
        rw [hcnt, Nat.mul_comm] at this ⊢
        omega
      · rw [filter_and] at hentries
        intro c hc hordered
        exact map_filter_eq_iff.1 hentries c (List.mem_filter.2 ⟨hc, hordered⟩)
    · rintro ⟨-, hsize, -, hle⟩
      refine ⟨_, rfl, tsnGe_refl _, ?_, ?_, ?_⟩
      · rw [filter_and]
        apply map_filter_eq_iff.2
        intro c hc
        obtain ⟨hc, hordered⟩ := List.mem_filter.1 hc
        exact hle c hc hordered
      · simp only [List.length_map, Nat.mod_eq_of_lt hsize]
        rw [← hcnt, Nat.mul_comm]
      · simp only [Nat.mod_eq_of_lt hsize]
        exact hroom
  · constructor
    · rintro ⟨f, hf, -, -, hlength, -⟩
      obtain rfl := Option.some.inj hf
      simp only [List.length_map] at hlength
      unfold sizeofForwardTsnChunk sizeofStrseq at hlength
      omega
    · exact fun h => absurd h.last hlast

/-- Less space than for a chunk without entries: its length is wrong. -/
theorem not_namesSkipped_of_lt_header {q : List TmitChunk} {adv : Tsn} {space : ℕ}
    (hheader : space < sizeofForwardTsnChunk) :
    ¬∃ f, sendForwardTsn q adv space = some f ∧ NamesSkipped q adv space f := by
  rintro ⟨f, hf, -, -, hlength, -⟩
  unfold sendForwardTsn at hf
  rw [if_pos (Nat.lt_of_lt_of_le hheader (Nat.le_add_right _ _))] at hf
  obtain ⟨l, -, rfl⟩ := Option.map_eq_some_iff.1 hf
  unfold trimmedCnt sizeofForwardTsnChunk sizeofStrseq at *
  simp only at hlength
  omega

theorem length_filter_ordered (l : List TmitChunk) :
    (l.filter ordered).length + l.countP (fun c => !c.ordered) = l.length := by
  rw [← List.countP_eq_length_filter, List.length_eq_countP_add_countP ordered]
  congr 1
  exact List.countP_congr fun c _ => by simp

theorem trimmed_iff {q : List TmitChunk} {adv : Tsn} {space : ℕ} (hq : InTsnOrder q)
    (hspace : space < 2 ^ 32) (hheader : sizeofForwardTsnChunk ≤ space)
    (hshort : space < sizeofForwardTsnChunk + cntOfSkipped q * sizeofStrseq) :
    (∃ f, sendForwardTsn q adv space = some f ∧ NamesSkipped q adv space f) ↔
      FitsTrimmed q adv space := by
  have hcnt := trimmedCnt_eq hspace hheader
  have hfits : sizeofForwardTsnChunk + trimmedCnt space * sizeofStrseq ≤ space := by
    unfold sizeofForwardTsnChunk sizeofStrseq at *
    omega
  have hlt : trimmedCnt space < ((skippedPrefix q).filter ordered).length := by
    rw [← cntOfSkipped_eq]
    unfold sizeofForwardTsnChunk sizeofStrseq at *
    omega
  have hin := hlt.trans_le (List.length_filter_le ordered (skippedPrefix q))
  obtain ⟨s, t, r, hpre, hs⟩ : ∃ s t r, skippedPrefix q = s ++ t :: r ∧ s.length = trimmedCnt space := by
    refine ⟨(skippedPrefix q).take (trimmedCnt space), (skippedPrefix q)[trimmedCnt space],
      (skippedPrefix q).drop (trimmedCnt space + 1), ?_, List.length_take_of_le hin.le⟩
    rw [← List.drop_eq_getElem_cons hin, List.take_append_drop]
  obtain ⟨rest, hrest⟩ := skippedPrefix_append q
  have hsplit : q = s ++ t :: (r ++ rest) := by
    rw [hrest, hpre, List.append_assoc, List.cons_append]
  have hget : q[trimmedCnt space]? = some t := by
    rw [hsplit, ← hs, List.getElem?_append_right le_rfl, Nat.sub_self]
    rfl
  have htake : q.take (trimmedCnt space + 1) = s ++ [t] := by
    rw [hsplit, ← hs, List.take_append]
    simp
  have hlen : q ≠ [] := by
    rw [hsplit]
    exact List.append_ne_nil_of_right_ne_nil _ (List.cons_ne_nil _ _)
  have hlast : lastToReport (trimmedCnt space) q = some t := by
    rw [lastToReport_eq, hget]
    exact (List.getElem?_eq_some_iff.1 hget).1
  have hsend : sendForwardTsn q adv space = some
      { chunkLength := (sizeofForwardTsnChunk + trimmedCnt space * sizeofStrseq) % 2 ^ 16
        newCumulativeTsn := t.tsn
        strseq := (((skippedPrefix q).filter ordered).take (trimmedCnt space)).map strseq } := by
    unfold sendForwardTsn
    simp only [if_pos hshort, fillStrseq_eq (.inr hlen), take_entries hlt, hlast, Option.map_some]
  have horder : InTsnOrder (s ++ t :: r) := by
    rw [hrest, hpre] at hq
    exact (List.pairwise_append.1 hq).1
  have hupto : (skippedPrefix q).filter (fun c => c.ordered && tsnGe t.tsn c.tsn) =
      (s ++ [t]).filter ordered := by
    rw [← filter_upto horder, List.filter_filter, hpre]
  have hbegin : (skippedPrefix q).filter ordered = (s ++ [t]).filter ordered ++ r.filter ordered := by
    rw [hpre, ← List.filter_append, List.append_assoc]
    rfl
  have hcount := length_filter_ordered (s ++ [t])
  rw [List.length_append, List.length_singleton, hs] at hcount
  rw [hsend]
  constructor
  · rintro ⟨f, hf, hle, hentries, hlength, -⟩
    obtain rfl := Option.some.inj hf
    simp only [hupto] at hentries
    have hsame := congrArg List.length hentries
    simp only [List.length_map, List.length_take_of_le hlt.le] at hsame hlength
    refine ⟨hshort, hheader, ?_, ?_, ?_⟩
    · have := Nat.mod_lt (sizeofForwardTsnChunk + trimmedCnt space * sizeofStrseq)
        (by norm_num : 0 < 2 ^ 16)
      rw [hlength, Nat.mul_comm] at this
      exact this
    · rw [htake]
      omega
    · rw [hget]
      intro c hc
      obtain rfl := Option.some.inj hc
      exact hle
  · rintro ⟨-, -, hsize, hone, hle⟩
    rw [htake] at hone
    refine ⟨_, rfl, hle t (by rw [hget]; rfl), ?_, ?_, ?_⟩
    · simp only [hupto]
      rw [hbegin, List.take_append_of_le_length (by omega), List.take_of_length_le (by omega)]
    · simp only [List.length_map, List.length_take_of_le hlt.le, Nat.mod_eq_of_lt hsize]
      rw [Nat.mul_comm]
    · simp only [Nat.mod_eq_of_lt hsize]
      exact hfits

/-- The chunk names what it skips exactly when everything fits and the last chunk of the queue has not
to be named, or what does not fit begins behind a single unordered chunk. -/
theorem sendForwardTsn_namesSkipped_iff (q : List TmitChunk) (adv : Tsn) (trailing : ℕ)
    (smallestMtu : BitVec 32) (boundV6 : Bool) (hq : InTsnOrder q) :
    (∃ f, sendForwardTsn q adv (cntOfSpace trailing smallestMtu boundV6) = some f ∧
      NamesSkipped q adv (cntOfSpace trailing smallestMtu boundV6) f) ↔
      FitsWhole q adv (cntOfSpace trailing smallestMtu boundV6) ∨
        FitsTrimmed q adv (cntOfSpace trailing smallestMtu boundV6) := by
  have hspace := cntOfSpace_lt trailing smallestMtu boundV6
  generalize cntOfSpace trailing smallestMtu boundV6 = space at hspace ⊢
  by_cases hshort : space < sizeofForwardTsnChunk + cntOfSkipped q * sizeofStrseq
  · have hnot : ¬FitsWhole q adv space := fun h => absurd h.room (not_le.2 hshort)
    by_cases hheader : sizeofForwardTsnChunk ≤ space
    · rw [trimmed_iff hq hspace hheader hshort, or_iff_right hnot]
    · constructor
      · exact fun h => absurd h (not_namesSkipped_of_lt_header (not_le.1 hheader))
      · rintro (h | h)
        · exact absurd h hnot
        · exact absurd h.header hheader
  · have hnot : ¬FitsTrimmed q adv space := fun h => hshort h.short
    rw [whole_iff (not_lt.1 hshort), or_iff_left hnot]

def sentFragment (tsn : Tsn) (streamSeq : Ssn) (sent : ℕ) : TmitChunk where
  tsn := tsn
  streamNumber := 0
  streamSeq := streamSeq
  rcvFlags := { last := true, first := true }
  payloadtype := 0
  data := []
  streamId := 0
  chunkLength := 17
  msgId := 0
  fsn := 0
  sendSize := 20
  bookSize := 20
  padInplace := false
  sent := sent
  context := 0
  timetodrop := 0
  flags := 0
  whoTo := none
  origin := 0

/-- A skipped chunk in front of one that is in flight. -/
theorem sendForwardTsn_inFlight :
    ∃ f, sendForwardTsn [sentFragment 1 5 datagramSkip, sentFragment 2 6 datagramSent] 1
        (cntOfSpace 2000 1500 true) = some f ∧
      NamesSkipped [sentFragment 1 5 datagramSkip, sentFragment 2 6 datagramSent] 1
        (cntOfSpace 2000 1500 true) f := by
  apply (sendForwardTsn_namesSkipped_iff _ 1 2000 1500 true _).2
  · left
    constructor
    · decide
    · decide
    · intro hall
      exact absurd (hall _ (List.mem_cons_of_mem _ List.mem_cons_self)) (by decide)
    · intro c hc _
      obtain rfl := List.mem_singleton.1 hc
      decide
  · exact List.pairwise_pair.2 (by decide)

/-- A skipped chunk that is the last one: its entry is counted and not written. -/
theorem sendForwardTsn_lastSkipped :
    ¬∃ f, sendForwardTsn [sentFragment 1 5 datagramSkip] 1 (cntOfSpace 2000 1500 true) = some f ∧
      NamesSkipped [sentFragment 1 5 datagramSkip] 1 (cntOfSpace 2000 1500 true) f := by
  rintro ⟨f, hf, hnames⟩
  have hwritten : sendForwardTsn [sentFragment 1 5 datagramSkip] 1 (cntOfSpace 2000 1500 true) =
      some ⟨12, 1, []⟩ := by
    decide
  obtain rfl := Option.some.inj (hwritten.symm.trans hf)
  exact absurd hnames.length (by decide)

end Sctp
