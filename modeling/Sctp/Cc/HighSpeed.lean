import Sctp.Cc.Default
import Sctp.Lib.Trace

/-! The module for high speed: a table says how fast a large window grows and by how much it drops. The
row that was used last is remembered. -/
namespace Sctp.Cc

/-- `struct sctp_hs_raise_drop`. -/
structure HsRaiseDrop where
  cwnd : ℕ
  increase : ℕ
  dropPercent : ℕ
deriving DecidableEq, Repr

def sctpCwndAdjust : List HsRaiseDrop :=
  [⟨38, 1, 50⟩, ⟨118, 2, 44⟩, ⟨221, 3, 41⟩, ⟨347, 4, 38⟩, ⟨495, 5, 37⟩, ⟨663, 6, 35⟩, ⟨851, 7, 34⟩,
    ⟨1058, 8, 33⟩, ⟨1284, 9, 32⟩, ⟨1529, 10, 31⟩, ⟨1793, 11, 30⟩, ⟨2076, 12, 29⟩, ⟨2378, 13, 28⟩,
    ⟨2699, 14, 28⟩, ⟨3039, 15, 27⟩, ⟨3399, 16, 27⟩, ⟨3778, 17, 26⟩, ⟨4177, 18, 26⟩, ⟨4596, 19, 25⟩,
    ⟨5036, 20, 25⟩, ⟨5497, 21, 24⟩, ⟨5979, 22, 24⟩, ⟨6483, 23, 23⟩, ⟨7009, 24, 23⟩, ⟨7558, 25, 22⟩,
    ⟨8130, 26, 22⟩, ⟨8726, 27, 22⟩, ⟨9346, 28, 21⟩, ⟨9991, 29, 21⟩, ⟨10661, 30, 21⟩,
    ⟨11358, 31, 20⟩, ⟨12082, 32, 20⟩, ⟨12834, 33, 20⟩, ⟨13614, 34, 19⟩, ⟨14424, 35, 19⟩,
    ⟨15265, 36, 19⟩, ⟨16137, 37, 19⟩, ⟨17042, 38, 18⟩, ⟨17981, 39, 18⟩, ⟨18955, 40, 18⟩,
    ⟨19965, 41, 17⟩, ⟨21013, 42, 17⟩, ⟨22101, 43, 17⟩, ⟨23230, 44, 17⟩, ⟨24402, 45, 16⟩,
    ⟨25618, 46, 16⟩, ⟨26881, 47, 16⟩, ⟨28193, 48, 16⟩, ⟨29557, 49, 15⟩, ⟨30975, 50, 15⟩,
    ⟨32450, 51, 15⟩, ⟨33986, 52, 15⟩, ⟨35586, 53, 14⟩, ⟨37253, 54, 14⟩, ⟨38992, 55, 14⟩,
    ⟨40808, 56, 14⟩, ⟨42707, 57, 13⟩, ⟨44694, 58, 13⟩, ⟨46776, 59, 13⟩, ⟨48961, 60, 13⟩,
    ⟨51258, 61, 13⟩, ⟨53677, 62, 12⟩, ⟨56230, 63, 12⟩, ⟨58932, 64, 12⟩, ⟨61799, 65, 12⟩,
    ⟨64851, 66, 11⟩, ⟨68113, 67, 11⟩, ⟨71617, 68, 11⟩, ⟨75401, 69, 10⟩, ⟨79517, 70, 10⟩,
    ⟨84035, 71, 10⟩, ⟨89053, 72, 10⟩, ⟨94717, 73, 9⟩]

def hsTableSize : ℕ := 73

def hsRow (i : ℕ) : HsRaiseDrop := sctpCwndAdjust.getD i ⟨0, 0, 0⟩

/-- `cwnd >> 10`. -/
def curVal (cwnd : ℕ) : ℕ := cwnd / 2 ^ 10

/-- `cur_val < sctp_cwnd_adjust[0].cwnd`: the table is not used. -/
def normalMode (cwnd : ℕ) : Bool := decide (curVal cwnd < (hsRow 0).cwnd)

/-- A search from row `i` on, over `n` rows, for one whose window is larger. -/
def searchUp (curVal : ℕ) : ℕ → ℕ → ℕ
  | 0, _ => hsTableSize - 1
  | n + 1, i => if curVal < (hsRow i).cwnd then i else searchUp curVal n (i + 1)

/-- The row that an increase uses; the search begins at the row used last. -/
def hsIndex (net : CcNet) : ℕ :=
  searchUp (curVal net.cwnd) (hsTableSize - net.lastHsUsed) net.lastHsUsed

/-- `incr` of `sctp_hs_cwnd_increase`. -/
def hsIncr (net : CcNet) : ℕ := (hsRow (hsIndex net)).increase * 2 ^ 10

def hsCwndIncrease (maxCwnd : ℕ) (net : CcNet) : CcNet :=
  if normalMode net.cwnd then net.grow maxCwnd (min net.netAck net.mtu)
  else { net with lastHsUsed := hsIndex net }.grow maxCwnd (hsIncr net)

/-- The percentage that `sctp_hs_cwnd_decrease` takes: that of the row used last. -/
def hsDropPercent (net : CcNet) : ℕ := (hsRow net.lastHsUsed).dropPercent

def hsCwndDecrease (maxCwnd : ℕ) (net : CcNet) : Checked CcNet :=
  if normalMode net.cwnd then
    let ssthresh := max (net.cwnd / 2) (u32 (net.mtu * 2))
    pure (enforceCwndLimit maxCwnd { net with ssthresh := ssthresh, cwnd := ssthresh })
  else do
    let ssthresh ← sub32 net.cwnd (net.cwnd / 100 * hsDropPercent net)
    -- the loop that looks for the row of the new window leaves it in `i`, which nothing reads
    pure (enforceCwndLimit maxCwnd { net with
      ssthresh := ssthresh
      cwnd := ssthresh
      lastHsUsed := if normalMode ssthresh then 0 else net.lastHsUsed })

/-- The first row whose window is larger, or the last row. -/
def IsHsRow (curVal i : ℕ) : Prop :=
  i < hsTableSize ∧ (∀ j < i, (hsRow j).cwnd ≤ curVal) ∧
    (curVal < (hsRow i).cwnd ∨ i + 1 = hsTableSize)

def hsRowOf (cwnd : ℕ) : ℕ := searchUp (curVal cwnd) hsTableSize 0

/-- Windows and increases both become larger from row to row. -/
theorem hsRow_lt_succ {i : ℕ} (hi : i + 1 < hsTableSize) :
    (hsRow i).cwnd < (hsRow (i + 1)).cwnd ∧ (hsRow i).increase < (hsRow (i + 1)).increase := by
  have hall : ∀ i < 72, (hsRow i).cwnd < (hsRow (i + 1)).cwnd ∧
      (hsRow i).increase < (hsRow (i + 1)).increase := by decide
  exact hall i (Nat.lt_of_succ_lt_succ hi)

theorem hsRow_lt {i j : ℕ} (hij : i < j) (hj : j < hsTableSize) :
    (hsRow i).cwnd < (hsRow j).cwnd ∧ (hsRow i).increase < (hsRow j).increase := by
  induction j with
  | zero => omega
  | succ j ih =>
    have hstep := hsRow_lt_succ hj
    rcases Nat.lt_succ_iff_lt_or_eq.mp hij with hlt | rfl
    · have hrest := ih hlt (by omega)
      exact ⟨hrest.1.trans hstep.1, hrest.2.trans hstep.2⟩
    · exact hstep

theorem hsRow_increase_inj {i j : ℕ} (hi : i < hsTableSize) (hj : j < hsTableSize)
    (heq : (hsRow i).increase = (hsRow j).increase) : i = j := by
  rcases lt_trichotomy i j with hlt | hij | hlt
  · exact absurd heq (hsRow_lt hlt hj).2.ne
  · exact hij
  · exact absurd heq (hsRow_lt hlt hi).2.ne'

/-- The search finds the first row from its start on. -/
theorem searchUp_spec (w : ℕ) {n i : ℕ} (hi : i + n = hsTableSize) (hn : 0 < n) :
    i ≤ searchUp w n i ∧ searchUp w n i < hsTableSize ∧
      (∀ j, i ≤ j → j < searchUp w n i → (hsRow j).cwnd ≤ w) ∧
      (w < (hsRow (searchUp w n i)).cwnd ∨ searchUp w n i + 1 = hsTableSize) := by
  induction n generalizing i with
  | zero => omega
  | succ n ih =>
    unfold searchUp
    by_cases hw : w < (hsRow i).cwnd
    · rw [if_pos hw]
      refine ⟨le_rfl, by omega, ?_, Or.inl hw⟩
      intro j hij hji
      omega
    · rw [if_neg hw]
      rcases Nat.eq_zero_or_pos n with rfl | hpos
      · unfold searchUp
        refine ⟨by omega, by omega, ?_, Or.inr (by omega)⟩
        intro j hij hjn
        obtain rfl : j = i := by omega
        exact not_lt.mp hw
      · obtain ⟨hle, hlt, hbelow, hfound⟩ := ih (i := i + 1) (by omega) hpos
        refine ⟨by omega, hlt, ?_, hfound⟩
        intro j hij hjs
        rcases Nat.eq_or_lt_of_le hij with rfl | hlt'
        · exact not_lt.mp hw
        · exact hbelow j hlt' hjs

theorem isHsRow_unique {w i j : ℕ} (hi : IsHsRow w i) (hj : IsHsRow w j) : i = j := by
  obtain ⟨hi₁, hi₂, hi₃⟩ := hi
  obtain ⟨hj₁, hj₂, hj₃⟩ := hj
  rcases lt_trichotomy i j with hlt | hij | hlt
  · have := hj₂ i hlt
    omega
  · exact hij
  · have := hi₂ j hlt
    omega

theorem isHsRow_hsRowOf (cwnd : ℕ) : IsHsRow (curVal cwnd) (hsRowOf cwnd) := by
  obtain ⟨_, hlt, hbelow, hfound⟩ := searchUp_spec (curVal cwnd) (n := hsTableSize) (i := 0) rfl
    (by decide)
  exact ⟨hlt, fun j hj => hbelow j (Nat.zero_le j) hj, hfound⟩

theorem isHsRow_iff {cwnd i : ℕ} : IsHsRow (curVal cwnd) i ↔ i = hsRowOf cwnd := by
  constructor
  · intro hi
    exact isHsRow_unique hi (isHsRow_hsRowOf cwnd)
  · rintro rfl
    exact isHsRow_hsRowOf cwnd

theorem hsRowOf_lt (cwnd : ℕ) : hsRowOf cwnd < hsTableSize := (isHsRow_hsRowOf cwnd).1

theorem hsRowOf_of_normalMode {cwnd : ℕ} (h : normalMode cwnd = true) : hsRowOf cwnd = 0 := by
  symm
  rw [← isHsRow_iff]
  exact ⟨by decide, by simp, Or.inl (of_decide_eq_true h)⟩

/-- A search that begins behind the row of the window stops where it begins. -/
theorem hsIndex_eq {net : CcNet} (hlast : net.lastHsUsed < hsTableSize) :
    hsIndex net = max net.lastHsUsed (hsRowOf net.cwnd) := by
  obtain ⟨hle, hlt, hbelow, hfound⟩ := searchUp_spec (curVal net.cwnd)
    (n := hsTableSize - net.lastHsUsed) (i := net.lastHsUsed) (by omega) (by omega)
  change net.lastHsUsed ≤ hsIndex net at hle
  change hsIndex net < hsTableSize at hlt
  change ∀ j, net.lastHsUsed ≤ j → j < hsIndex net → (hsRow j).cwnd ≤ curVal net.cwnd at hbelow
  change curVal net.cwnd < (hsRow (hsIndex net)).cwnd ∨ hsIndex net + 1 = hsTableSize at hfound
  obtain ⟨hrow, hbefore, hrowFound⟩ := isHsRow_hsRowOf net.cwnd
  rcases le_total net.lastHsUsed (hsRowOf net.cwnd) with hcase | hcase
  · rw [max_eq_right hcase]
    refine isHsRow_unique ⟨hlt, ?_, hfound⟩ ⟨hrow, hbefore, hrowFound⟩
    intro j hj
    rcases lt_or_ge j net.lastHsUsed with hjl | hjl
    · exact hbefore j (by omega)
    · exact hbelow j hjl hj
  · rw [max_eq_left hcase]
    by_contra hne
    have hpassed := hbelow net.lastHsUsed le_rfl (by omega)
    have hlater : (hsRow (hsRowOf net.cwnd)).cwnd ≤ (hsRow net.lastHsUsed).cwnd := by
      rcases Nat.eq_or_lt_of_le hcase with heq | hlt'
      · rw [heq]
      · exact (hsRow_lt hlt' hlast).1.le
    omega

/-- What happens to a destination: the operations of the module, a timeout, and changes of the fields
that are neither the window nor the row. -/
inductive HsOp
  | increase (maxCwnd : ℕ)
  | decrease (maxCwnd : ℕ)
  | timeout (a : CcAsoc)
  | elsewhere (t : CcNet)

namespace HsOp

def step (net : CcNet) : HsOp → CcNet
  | increase maxCwnd => hsCwndIncrease maxCwnd net
  | decrease maxCwnd => (hsCwndDecrease maxCwnd net).val
  | timeout a => (cwndUpdateAfterTimeout a net).val
  | elsewhere t => { t with cwnd := net.cwnd, lastHsUsed := net.lastHsUsed }

def UsesRow (net : CcNet) : HsOp → Prop
  | increase maxCwnd =>
    (normalMode net.cwnd = false → ∀ i, IsHsRow (curVal net.cwnd) i →
      hsIncr net = (hsRow i).increase * 2 ^ 10) ∧
    IsHsRow (curVal (hsCwndIncrease maxCwnd net).cwnd) (hsCwndIncrease maxCwnd net).lastHsUsed
  | decrease maxCwnd =>
    (normalMode net.cwnd = false → ∀ i, IsHsRow (curVal net.cwnd) i →
      hsDropPercent net = (hsRow i).dropPercent) ∧
    IsHsRow (curVal (hsCwndDecrease maxCwnd net).val.cwnd)
      (hsCwndDecrease maxCwnd net).val.lastHsUsed
  | _ => True

/-- The window that is left when the drop is that of its row. -/
def dropped (net : CcNet) : ℕ :=
  (sub32 net.cwnd (net.cwnd / 100 * (hsRow (hsRowOf net.cwnd)).dropPercent)).val

/-- The window stays in its row, or falls out of the table. `seen` is the row of the window that the last
increase or decrease left. -/
def StaysInRow (seen : ℕ) (net : CcNet) : HsOp → Prop
  | increase maxCwnd =>
    if normalMode net.cwnd then hsRowOf (net.grow maxCwnd (min net.netAck net.mtu)).cwnd = seen
    else seen ≤ hsRowOf net.cwnd ∧
      hsRowOf (net.grow maxCwnd ((hsRow (hsRowOf net.cwnd)).increase * 2 ^ 10)).cwnd =
        hsRowOf net.cwnd
  | decrease maxCwnd =>
    if normalMode net.cwnd then
      hsRowOf (enforceCwndLimit maxCwnd
        { net with cwnd := max (net.cwnd / 2) (u32 (net.mtu * 2)) }).cwnd = seen
    else (hsRow seen).dropPercent = (hsRow (hsRowOf net.cwnd)).dropPercent ∧
      (normalMode (dropped net) = true ∨
        hsRowOf (enforceCwndLimit maxCwnd { net with cwnd := dropped net }).cwnd = seen)
  | _ => True

instance (seen : ℕ) (net : CcNet) : (op : HsOp) → Decidable (op.StaysInRow seen net)
  | increase _ => instDecidableIte
  | decrease _ => instDecidableIte
  | timeout _ => inferInstanceAs (Decidable True)
  | elsewhere _ => inferInstanceAs (Decidable True)

/-- The row of the window that an increase or a decrease leaves. -/
def seenAfter (seen : ℕ) (net : CcNet) : HsOp → ℕ
  | increase maxCwnd => hsRowOf (hsCwndIncrease maxCwnd net).cwnd
  | decrease maxCwnd => hsRowOf (hsCwndDecrease maxCwnd net).val.cwnd
  | _ => seen

def UsesRowRun : CcNet → List HsOp → Prop :=
  Trace.Along (fun net op => some (op.step net)) fun net op => op.UsesRow net

def StaysInRowRun (seen : ℕ) (net : CcNet) : List HsOp → Prop :=
  Trace.Along (fun s op => some (op.seenAfter s.1 s.2, op.step s.2)) (fun s op => op.StaysInRow s.1 s.2)
    (seen, net)

instance (seen : ℕ) (net : CcNet) (ops : List HsOp) : Decidable (StaysInRowRun seen net ops) :=
  inferInstanceAs (Decidable (Trace.Along _ _ _ _))

theorem forall_isHsRow_iff {cwnd : ℕ} {P : ℕ → Prop} :
    (∀ i, IsHsRow (curVal cwnd) i → P i) ↔ P (hsRowOf cwnd) := by
  constructor
  · intro h
    exact h _ (isHsRow_hsRowOf cwnd)
  · intro h i hi
    rwa [isHsRow_iff.mp hi]

theorem grow_lastHsUsed (maxCwnd : ℕ) (net : CcNet) (k : ℕ) :
    (net.grow maxCwnd k).lastHsUsed = net.lastHsUsed := enforceCwndLimit_lastHsUsed _ _

/-- The row that is remembered is no part of how the window grows. -/
theorem grow_cwnd_lastHsUsed (maxCwnd i k : ℕ) (net : CcNet) :
    ({ net with lastHsUsed := i }.grow maxCwnd k).cwnd = (net.grow maxCwnd k).cwnd := by
  unfold CcNet.grow
  exact enforceCwndLimit_cwnd_congr maxCwnd rfl rfl

/-- The increase is that of the row of the window when the search does not begin behind it. -/
theorem hsIncr_eq_iff {net : CcNet} (hlast : net.lastHsUsed < hsTableSize) :
    hsIncr net = (hsRow (hsRowOf net.cwnd)).increase * 2 ^ 10 ↔
      net.lastHsUsed ≤ hsRowOf net.cwnd := by
  have hrow := hsRowOf_lt net.cwnd
  unfold hsIncr
  rw [hsIndex_eq hlast, ← max_eq_right_iff]
  constructor
  · intro heq
    have hpos : 0 < 2 ^ 10 := by norm_num
    have hincr := Nat.eq_of_mul_eq_mul_right hpos heq
    exact hsRow_increase_inj (max_lt hlast hrow) hrow hincr
  · intro heq
    rw [heq]

theorem usesRow_increase_iff {maxCwnd : ℕ} {net : CcNet} (hlast : net.lastHsUsed < hsTableSize) :
    (increase maxCwnd).UsesRow net ↔ (increase maxCwnd).StaysInRow net.lastHsUsed net := by
  unfold UsesRow StaysInRow hsCwndIncrease
  dsimp only
  rw [isHsRow_iff, forall_isHsRow_iff]
  by_cases hn : normalMode net.cwnd = true
  · rw [if_pos hn, if_pos hn, grow_lastHsUsed]
    constructor
    · rintro ⟨_, hrow⟩
      exact hrow.symm
    · intro hrow
      exact ⟨fun hf => absurd (hn.symm.trans hf) (by decide), hrow.symm⟩
  · rw [if_neg hn, if_neg hn, grow_lastHsUsed, grow_cwnd_lastHsUsed]
    dsimp only
    have hincr := hsIncr_eq_iff hlast
    constructor
    · rintro ⟨huse, hrow⟩
      have heq := huse (Bool.eq_false_iff.mpr hn)
      have hle := hincr.mp heq
      rw [heq, hsIndex_eq hlast, max_eq_right hle] at hrow
      exact ⟨hle, hrow.symm⟩
    · rintro ⟨hle, hrow⟩
      rw [hincr.mpr hle, hsIndex_eq hlast, max_eq_right hle]
      exact ⟨fun _ => rfl, hrow.symm⟩

theorem normalMode_mono {v w : ℕ} (hle : v ≤ w) (h : normalMode w = true) : normalMode v = true := by
  unfold normalMode at *
  rw [decide_eq_true_eq] at *
  exact lt_of_le_of_lt (Nat.div_le_div_right hle) h

theorem usesRow_decrease_iff {maxCwnd : ℕ} {net : CcNet} :
    (decrease maxCwnd).UsesRow net ↔ (decrease maxCwnd).StaysInRow net.lastHsUsed net := by
  unfold UsesRow StaysInRow hsCwndDecrease
  dsimp only
  rw [isHsRow_iff, forall_isHsRow_iff]
  by_cases hn : normalMode net.cwnd = true
  · rw [if_pos hn, if_pos hn, Checked.pure_val, enforceCwndLimit_lastHsUsed,
      enforceCwndLimit_cwnd_congr (x := { net with
        ssthresh := max (net.cwnd / 2) (u32 (net.mtu * 2))
        cwnd := max (net.cwnd / 2) (u32 (net.mtu * 2)) })
        (y := { net with cwnd := max (net.cwnd / 2) (u32 (net.mtu * 2)) }) maxCwnd rfl rfl]
    constructor
    · rintro ⟨_, hrow⟩
      exact hrow.symm
    · intro hrow
      exact ⟨fun hf => absurd (hn.symm.trans hf) (by decide), hrow.symm⟩
  · rw [if_neg hn, if_neg hn, Checked.bind_val, Checked.pure_val, enforceCwndLimit_lastHsUsed]
    dsimp only
    have hdropped : hsDropPercent net = (hsRow (hsRowOf net.cwnd)).dropPercent →
        (sub32 net.cwnd (net.cwnd / 100 * hsDropPercent net)).val = dropped net := by
      intro heq
      rw [heq]
      rfl
    have hcongr : ∀ i, (enforceCwndLimit maxCwnd { net with
        ssthresh := dropped net, cwnd := dropped net, lastHsUsed := i }).cwnd =
        (enforceCwndLimit maxCwnd { net with cwnd := dropped net }).cwnd :=
      fun i => enforceCwndLimit_cwnd_congr maxCwnd rfl rfl
    constructor
    · rintro ⟨huse, hrow⟩
      have heq := huse (Bool.eq_false_iff.mpr hn)
      refine ⟨heq, ?_⟩
      rw [hdropped heq, hcongr] at hrow
      by_cases hfell : normalMode (dropped net) = true
      · exact Or.inl hfell
      · rw [if_neg hfell] at hrow
        exact Or.inr hrow.symm
    · rintro ⟨heq, hrow⟩
      refine ⟨fun _ => heq, ?_⟩
      rw [hdropped heq, hcongr]
      by_cases hfell : normalMode (dropped net) = true
      · have hlow := normalMode_mono
          (enforceCwndLimit_cwnd_le maxCwnd { net with cwnd := dropped net }) hfell
        rw [if_pos hfell, hsRowOf_of_normalMode hlow]
      · rw [if_neg hfell]
        exact (hrow.resolve_left hfell).symm

theorem usesRow_iff {net : CcNet} (hlast : net.lastHsUsed < hsTableSize) (op : HsOp) :
    op.UsesRow net ↔ op.StaysInRow net.lastHsUsed net := by
  cases op with
  | increase maxCwnd => exact usesRow_increase_iff hlast
  | decrease maxCwnd => exact usesRow_decrease_iff
  | timeout a => exact Iff.rfl
  | elsewhere t => exact Iff.rfl

/-- As long as the row of the window is used, the row that is remembered is the one seen last. -/
theorem step_lastHsUsed {net : CcNet} {op : HsOp} (huse : op.UsesRow net) :
    (op.step net).lastHsUsed = op.seenAfter net.lastHsUsed net := by
  cases op with
  | increase maxCwnd => exact isHsRow_iff.mp huse.2
  | decrease maxCwnd => exact isHsRow_iff.mp huse.2
  | timeout a => rfl
  | elsewhere t => rfl

theorem seenAfter_lt {seen : ℕ} (hseen : seen < hsTableSize) (net : CcNet) (op : HsOp) :
    op.seenAfter seen net < hsTableSize := by
  cases op with
  | increase maxCwnd => exact hsRowOf_lt _
  | decrease maxCwnd => exact hsRowOf_lt _
  | timeout a => exact hseen
  | elsewhere t => exact hseen

theorem usesRowRun_iff_of_seen {net : CcNet} (hlast : net.lastHsUsed < hsTableSize) (ops : List HsOp) :
    UsesRowRun net ops ↔ StaysInRowRun net.lastHsUsed net ops := by
  apply Trace.along_iff_of_related fun net s => s = (net.lastHsUsed, net) ∧ net.lastHsUsed < hsTableSize
  · rintro net s op ⟨rfl, hlt⟩
    exact usesRow_iff hlt op
  · rintro net s op ⟨rfl, hlt⟩ huse
    have hseen := step_lastHsUsed huse
    refine .some ⟨?_, ?_⟩
    · rw [hseen]
    · rw [hseen]
      exact seenAfter_lt hlt net op
  · exact ⟨rfl, hlast⟩

/-- A run on a new destination uses the row of the window everywhere if the window does not leave the row
it was last seen in, but out of the table, and only then. -/
theorem usesRowRun_iff {net : CcNet} (hnew : net.lastHsUsed = 0) (ops : List HsOp) :
    UsesRowRun net ops ↔ StaysInRowRun 0 net ops := by
  have hlast : net.lastHsUsed < hsTableSize := by
    rw [hnew]
    decide
  rw [usesRowRun_iff_of_seen hlast, hnew]

/-- Slow start and a drop that leave the window below the table. -/
theorem usesRowRun_small :
    UsesRowRun (freshCcNet 4380 65536 1500) [increase 0, increase 0, decrease 0] :=
  (usesRowRun_iff (by decide) _).mpr (by decide +kernel)

/-- A window of 118 KiB grows and drops twice. The second drop is by the percentage of the row that the
first one was in. -/
theorem secondDrop_wrongRow :
    let net := freshCcNet 120832 65536 1500
    let grown := hsCwndIncrease 0 net
    let first := (hsCwndDecrease 0 grown).val
    hsRowOf first.cwnd = 1 ∧ first.lastHsUsed = 2 ∧ hsDropPercent first = 41 ∧
      (hsRow (hsRowOf first.cwnd)).dropPercent = 44 ∧
      ¬ UsesRowRun net [increase 0, decrease 0, decrease 0] := by
  intro net grown first
  have hrow : hsRowOf first.cwnd = 1 := by decide +kernel
  refine ⟨hrow, by decide +kernel, by decide +kernel, by decide +kernel, ?_⟩
  intro hrun
  have huse := ((hrun.2 _ rfl).2 _ rfl).1
  have hpercent := huse.1 (by decide +kernel) 1 (isHsRow_iff.mpr hrow.symm)
  exact absurd hpercent (by decide +kernel)

end HsOp

end Sctp.Cc
