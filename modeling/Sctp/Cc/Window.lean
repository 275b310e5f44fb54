import Sctp.Lib.Trace
import Sctp.Cc.Default

/-! The window of the default module over runs of all its updates: how small and how large it can get. -/
namespace Sctp.Cc

/-- The values of a destination are those of a path: a window of two MTU, the window, and what is in
flight or was acked are below `2 ^ 31`. -/
structure InRange (net : CcNet) : Prop where
  mtu_ge : 512 ≤ net.mtu
  mtu_lt : net.mtu < 2 ^ 30
  flightSize_lt : net.flightSize < 2 ^ 31
  netAck_lt : net.netAck < 2 ^ 31
  cwnd_lt : net.cwnd < 2 ^ 31
  prevCwnd_lt : net.prevCwnd < 2 ^ 32

instance (net : CcNet) : Decidable (InRange net) :=
  decidable_of_iff (512 ≤ net.mtu ∧ net.mtu < 2 ^ 30 ∧ net.flightSize < 2 ^ 31 ∧
      net.netAck < 2 ^ 31 ∧ net.cwnd < 2 ^ 31 ∧ net.prevCwnd < 2 ^ 32)
    ⟨fun ⟨h₁, h₂, h₃, h₄, h₅, h₆⟩ => ⟨h₁, h₂, h₃, h₄, h₅, h₆⟩,
      fun ⟨h₁, h₂, h₃, h₄, h₅, h₆⟩ => ⟨h₁, h₂, h₃, h₄, h₅, h₆⟩⟩

/-- The window is no smaller than an MTU without the common header. -/
def Floored (net : CcNet) : Prop := net.mtu - sctphdrLen ≤ net.cwnd

/-- With a limit set, the window is not above it, or it is as small as a window gets. -/
def Capped (maxCwnd : ℕ) (net : CcNet) : Prop :=
  0 < maxCwnd → net.cwnd ≤ max maxCwnd (net.mtu - sctphdrLen)

/-- A loss does not make a window of two MTU or more larger, and leaves a threshold of an MTU. -/
structure Reduced (net net' : CcNet) : Prop where
  cwnd_le : net'.cwnd ≤ max net.cwnd (2 * net.mtu)
  ssthresh_ge : net.mtu - 1 ≤ net'.ssthresh

theorem InRange.payloadMtu {net : CcNet} (h : InRange net) :
    net.payloadMtu = net.mtu - sctphdrLen := by
  have hlo := h.mtu_ge
  have hhi := h.mtu_lt
  apply CcNet.payloadMtu_eq
  · unfold sctphdrLen
    omega
  · omega

section Limit

variable {maxCwnd : ℕ} {net : CcNet}

@[simp] theorem enforceCwndLimit_mtu : (enforceCwndLimit maxCwnd net).mtu = net.mtu := by
  rw [enforceCwndLimit_eq]

@[simp] theorem enforceCwndLimit_ssthresh :
    (enforceCwndLimit maxCwnd net).ssthresh = net.ssthresh := by
  rw [enforceCwndLimit_eq]

theorem floored_enforceCwndLimit (hpay : net.payloadMtu = net.mtu - sctphdrLen)
    (hmtu : net.mtu < 2 ^ 32) (hfloor : Floored net) : Floored (enforceCwndLimit maxCwnd net) := by
  unfold Floored at *
  rw [enforceCwndLimit_mtu]
  unfold enforceCwndLimit
  rw [hpay]
  split_ifs with hover hlow
  · dsimp only
    rw [u32_of_lt (by omega)]
  · exact not_lt.mp hlow
  · exact hfloor

theorem capped_enforceCwndLimit (hpay : net.payloadMtu = net.mtu - sctphdrLen) :
    Capped maxCwnd (enforceCwndLimit maxCwnd net) := by
  intro hpos
  rw [enforceCwndLimit_mtu]
  unfold enforceCwndLimit
  rw [hpay]
  split_ifs with hover hlow
  · exact (u32_le _).trans (le_max_right _ _)
  · exact le_max_left _ _
  · have hnot : ¬ (maxCwnd < net.cwnd ∧ net.mtu - sctphdrLen < net.cwnd) := fun h => hover ⟨hpos, h⟩
    omega

/-- The update sets a window and has the limit enforced. -/
theorem limited_of_enforce {net' : CcNet} (h : InRange net) (hfloor : Floored net')
    (hmtu : net'.mtu = net.mtu) :
    Floored (enforceCwndLimit maxCwnd net') ∧ Capped maxCwnd (enforceCwndLimit maxCwnd net') := by
  have hpay : net'.payloadMtu = net'.mtu - sctphdrLen := by
    unfold CcNet.payloadMtu
    rw [hmtu]
    exact h.payloadMtu
  have hlt := h.mtu_lt
  exact ⟨floored_enforceCwndLimit hpay (by omega) hfloor, capped_enforceCwndLimit hpay⟩

end Limit

section Updates

variable {cfg : CcConfig} {a : CcAsoc} {net : CcNet}

/-- The window at the start is below `2 ^ 31` when it is counted in MTU. -/
def InitialFits (cfg : CcConfig) (a : CcAsoc) (net : CcNet) : Prop :=
  cfg.initialCwnd ≠ 0 → (net.mtu - sctphdrLen) * cwndInMtu cfg a < 2 ^ 31

theorem cwndInMtu_pos (hcfg : cfg.initialCwnd ≠ 0) : 0 < cwndInMtu cfg a := by
  unfold cwndInMtu
  split_ifs with h
  · exact h.1
  · exact Nat.pos_of_ne_zero hcfg

theorem initialWindow_ge (h : InRange net) (hfits : InitialFits cfg a net) :
    net.mtu - sctphdrLen ≤ initialWindow cfg a net := by
  have hlo := h.mtu_ge
  have hhi := h.mtu_lt
  unfold initialWindow
  split_ifs with hcfg
  · rw [u32_of_lt (by omega), u32_of_lt (by omega)]
    omega
  · rw [h.payloadMtu, u32_of_lt ((hfits hcfg).trans (by norm_num))]
    exact Nat.le_mul_of_pos_right _ (cwndInMtu_pos hcfg)

theorem setInitialCcParam_val (hoff : a.cmtOnOff = .off) :
    (setInitialCcParam cfg a net).val =
      { enforceCwndLimit a.maxCwnd { net with cwnd := initialWindow cfg a net } with
        ssthresh := a.peersRwnd } := by
  unfold setInitialCcParam
  simp [hoff, CmtOnOff.isRp]

theorem setInitialCcParam_limited (hoff : a.cmtOnOff = .off) (h : InRange net)
    (hfits : InitialFits cfg a net) :
    Floored (setInitialCcParam cfg a net).val ∧ Capped a.maxCwnd (setInitialCcParam cfg a net).val := by
  have hge := initialWindow_ge h hfits
  have hfloor : Floored { net with cwnd := initialWindow cfg a net } := hge
  rw [setInitialCcParam_val hoff]
  exact limited_of_enforce h hfloor rfl

theorem frNet_val (hoff : a.cmtOnOff = .off) (t : PathSums) :
    (frNet a t net).val = enforceCwndLimit a.maxCwnd { net with
      ssthresh := max (net.cwnd / 2) (u32 (net.mtu * 2))
      cwnd := max (net.cwnd / 2) (u32 (net.mtu * 2)) } := by
  unfold frNet
  rw [hoff]
  rfl

theorem frNet_sane (hoff : a.cmtOnOff = .off) (h : InRange net) (t : PathSums) :
    Floored (frNet a t net).val ∧ Capped a.maxCwnd (frNet a t net).val ∧
      Reduced net (frNet a t net).val := by
  have hlo := h.mtu_ge
  have hhi := h.mtu_lt
  have htwo : u32 (net.mtu * 2) = net.mtu * 2 := u32_of_lt (by omega)
  rw [frNet_val hoff, htwo]
  have hfloor : Floored { net with
      ssthresh := max (net.cwnd / 2) (net.mtu * 2), cwnd := max (net.cwnd / 2) (net.mtu * 2) } := by
    unfold Floored
    dsimp only
    omega
  have hlim := @limited_of_enforce a.maxCwnd net _ h hfloor rfl
  refine ⟨hlim.1, hlim.2, ?_, ?_⟩
  · refine (enforceCwndLimit_cwnd_le _ _).trans ?_
    dsimp only
    omega
  · rw [enforceCwndLimit_ssthresh]
    dsimp only
    omega

theorem cwndUpdateAfterTimeout_val (hoff : a.cmtOnOff = .off) :
    (cwndUpdateAfterTimeout a net).val =
      { net with
        ssthresh := max (net.cwnd / 2) (u32 (4 * net.mtu))
        cwnd := net.mtu
        partialBytesAcked := 0 } := by
  unfold cwndUpdateAfterTimeout timeoutSsthresh
  simp [hoff, CmtOnOff.isRp]

theorem timeout_sane (hoff : a.cmtOnOff = .off) (h : InRange net) :
    Floored (cwndUpdateAfterTimeout a net).val ∧ Reduced net (cwndUpdateAfterTimeout a net).val := by
  have hhi := h.mtu_lt
  have hfour : u32 (4 * net.mtu) = 4 * net.mtu := u32_of_lt (by omega)
  rw [cwndUpdateAfterTimeout_val hoff, hfour]
  refine ⟨?_, ?_, ?_⟩
  · unfold Floored
    dsimp only
    omega
  · dsimp only
    omega
  · dsimp only
    omega

theorem ecnEcho_sane (h : InRange net) (lost : ℕ) :
    Floored (cwndUpdateAfterEcnEcho net false lost).val ∧
      Reduced net (cwndUpdateAfterEcnEcho net false lost).val := by
  have hlo := h.mtu_ge
  unfold cwndUpdateAfterEcnEcho cwndUpdateAfterEcnEchoCommon
  simp only [Bool.false_and, Bool.false_eq_true, if_false, Bool.not_false, if_true]
  by_cases hlow : net.cwnd / 2 < net.mtu
  · rw [if_pos hlow, Checked.pure_val]
    refine ⟨?_, ?_, ?_⟩
    · unfold Floored
      dsimp only
      omega
    · dsimp only
      omega
    · dsimp only
      omega
  · rw [if_neg hlow, Checked.pure_val]
    refine ⟨?_, ?_, ?_⟩
    · unfold Floored
      dsimp only
      omega
    · dsimp only
      omega
    · dsimp only
      omega

theorem ecnEcho_inWindow (lost : ℕ) : (cwndUpdateAfterEcnEcho net true lost).val = net := rfl

theorem output_limited (h : InRange net) {burstLimit : ℕ} (hburst : burstLimit ≠ 0)
    (hfits : net.flightSize + burstLimit * net.mtu < 2 ^ 31) :
    Floored (cwndUpdateAfterOutput a net burstLimit) ∧
      Capped a.maxCwnd (cwndUpdateAfterOutput a net burstLimit) := by
  have hmul : net.mtu ≤ burstLimit * net.mtu := Nat.le_mul_of_pos_left _ (Nat.pos_of_ne_zero hburst)
  unfold cwndUpdateAfterOutput
  dsimp only
  rw [if_pos hburst, u32_of_lt (n := burstLimit * net.mtu) (by omega), u32_of_lt (by omega)]
  have hfloor : Floored { net with
      ssthresh := max net.ssthresh net.cwnd
      cwnd := net.flightSize + burstLimit * net.mtu } := by
    unfold Floored
    dsimp only
    omega
  exact limited_of_enforce h hfloor rfl

theorem output_zero (hfloor : Floored net) : Floored (cwndUpdateAfterOutput a net 0) := hfloor

theorem exitPf_floored : Floored (cwndUpdateExitPf net) := Nat.sub_le _ _

theorem windowBefore_lt (h : InRange net) : windowBefore a net < 2 ^ 32 := by
  unfold windowBefore
  split_ifs
  · exact h.prevCwnd_lt
  · exact h.cwnd_lt.trans (by norm_num)

theorem toInt_of_lt {n : ℕ} (hn : n < 2 ^ 31) : toInt n = n := by
  unfold toInt
  rw [Nat.mod_eq_of_lt (by omega), if_pos hn]

/-- The share is no negative number: with one segment queued it is less than two MTU, and with more of
them it is halved. -/
theorem portion_lt (h : InRange net) {onQueue bwAvail : ℕ} (hon : net.flightSize ≤ onQueue) :
    u32 ((onQueue - bwAvail) * (net.flightSize / net.mtu)) / (onQueue / net.mtu) < 2 ^ 31 := by
  have hmtu := h.mtu_lt
  have hpos : 0 < net.mtu := lt_of_lt_of_le (by norm_num) h.mtu_ge
  have hword := u32_lt ((onQueue - bwAvail) * (net.flightSize / net.mtu))
  have hseg : net.flightSize / net.mtu ≤ onQueue / net.mtu := Nat.div_le_div_right hon
  rcases Nat.lt_or_ge (onQueue / net.mtu) 2 with hfew | hmany
  · have hlt : onQueue < 2 * net.mtu := (Nat.div_lt_iff_lt_mul hpos).mp hfew
    have hprod : (onQueue - bwAvail) * (net.flightSize / net.mtu) ≤ (onQueue - bwAvail) * 1 :=
      Nat.mul_le_mul_left _ (by omega)
    have hle := u32_le ((onQueue - bwAvail) * (net.flightSize / net.mtu))
    exact (Nat.div_le_self _ _).trans_lt (by omega)
  · rw [Nat.div_lt_iff_lt_mul (by omega)]
    omega

theorem pktdropPortion_nonneg (h : InRange net) {cwnd onQueue bwAvail : ℕ}
    (hon : net.flightSize ≤ onQueue) : 0 ≤ (pktdropPortion net cwnd onQueue bwAvail).val := by
  have hportion := @portion_lt net h onQueue bwAvail hon
  unfold pktdropPortion
  rw [Checked.bind_val, Checked.bind_val, Checked.bind_val, Checked.ite_val]
  by_cases hahead : net.flightSize < cwnd
  · rw [if_pos hahead, Checked.pure_val]
    split_ifs with hless
    · exact le_rfl
    · exact sub_nonneg.mpr (not_lt.mp hless)
  · rw [if_neg hahead, Checked.pure_val, Checked.div_val, Checked.div_val, Checked.div_val,
      toInt_of_lt hportion]
    exact Int.natCast_nonneg _

theorem subInt_val {w : ℕ} {p : ℤ} (hw : w < 2 ^ 32) (hp : 0 ≤ p) (hle : p ≤ w) :
    (subInt w p).val ≤ w := by
  have hmod : ((w : ℤ) - p) % 2 ^ 32 = w - p := Int.emod_eq_of_lt (by omega) (by omega)
  unfold subInt
  dsimp only
  rw [hmod]
  omega

/-- The reduction: a threshold of an MTU at least, and no larger window when the share is not more than the
window it is taken from. -/
theorem pktdropReduce_sane (h : InRange net) {onQueue bwAvail : ℕ} (hon : net.flightSize ≤ onQueue) :
    net.mtu - 1 ≤ (pktdropReduce a net onQueue bwAvail).val.ssthresh ∧
      (pktdropReduce a net onQueue bwAvail).val.mtu = net.mtu ∧
      ((pktdropPortion net (windowBefore a net) onQueue bwAvail).val ≤ windowBefore a net →
        (pktdropReduce a net onQueue bwAvail).val.cwnd ≤ max (windowBefore a net) net.mtu) := by
  have hw := windowBefore_lt (a := a) h
  have hmtu := h.mtu_lt
  have hpos := h.mtu_ge
  have hp := @pktdropPortion_nonneg net h (windowBefore a net) onQueue bwAvail hon
  unfold pktdropReduce
  simp only [Checked.bind_val, Checked.pure_val]
  generalize hc : (subInt (windowBefore a net)
    (pktdropPortion net (windowBefore a net) onQueue bwAvail).val).val = c
  have hword : c < 2 ^ 32 := by
    rw [← hc]
    unfold subInt
    dsimp only
    omega
  refine ⟨?_, trivial, ?_⟩
  · split_ifs with hlow
    · rw [sub32_val_of_le (by omega) (by omega)]
    · rw [sub32_val_of_le (by omega) hword]
      omega
  · intro hle
    have hsub := subInt_val hw hp hle
    rw [hc] at hsub
    split_ifs
    · exact le_max_right _ _
    · exact le_max_of_le_left hsub

def pktdropReduces (net : CcNet) (bottleBw currentOnq : ℕ) : Prop :=
  bwAvailable net bottleBw < max currentOnq net.flightSize

/-- The share of this sender, as the update computes it, is not more than the window it is taken
from. -/
def ShareFits (a : CcAsoc) (net : CcNet) (bottleBw currentOnq : ℕ) : Prop :=
  (pktdropPortion net (windowBefore a net) (max currentOnq net.flightSize)
    (bwAvailable net bottleBw)).val ≤ windowBefore a net

/-- What both branches leave is cut to what the pipe holds, and is an MTU at least. -/
theorem finish_sane {x : CcNet} (h : InRange net) (hmtu : x.mtu = net.mtu) (bwAvail : ℕ) :
    Floored (enforceCwndLimit a.maxCwnd { x with cwnd := max (min x.cwnd bwAvail) x.mtu }) ∧
      Capped a.maxCwnd (enforceCwndLimit a.maxCwnd { x with cwnd := max (min x.cwnd bwAvail) x.mtu }) ∧
      (enforceCwndLimit a.maxCwnd { x with cwnd := max (min x.cwnd bwAvail) x.mtu }).cwnd ≤
        max x.cwnd net.mtu := by
  have hfloor : Floored { x with cwnd := max (min x.cwnd bwAvail) x.mtu } := by
    unfold Floored
    dsimp only
    omega
  have hlim := @limited_of_enforce a.maxCwnd net _ h hfloor hmtu
  refine ⟨hlim.1, hlim.2, (enforceCwndLimit_cwnd_le _ _).trans ?_⟩
  dsimp only
  omega

theorem packetDropped_sane (h : InRange net) (bottleBw currentOnq : ℕ) :
    Floored (cwndUpdateAfterPacketDropped a net bottleBw currentOnq).val ∧
      Capped a.maxCwnd (cwndUpdateAfterPacketDropped a net bottleBw currentOnq).val ∧
      (pktdropReduces net bottleBw currentOnq →
        net.mtu - 1 ≤ (cwndUpdateAfterPacketDropped a net bottleBw currentOnq).val.ssthresh ∧
        (ShareFits a net bottleBw currentOnq →
          (cwndUpdateAfterPacketDropped a net bottleBw currentOnq).val.cwnd ≤
            max (windowBefore a net) (2 * net.mtu))) := by
  unfold cwndUpdateAfterPacketDropped
  simp only [Checked.bind_val, Checked.pure_val, Checked.ite_val]
  by_cases hred : bwAvailable net bottleBw < max currentOnq net.flightSize
  · rw [if_pos hred]
    obtain ⟨hss, hmtu, hshare⟩ := @pktdropReduce_sane a net h
      (max currentOnq net.flightSize) (bwAvailable net bottleBw) (le_max_right _ _)
    obtain ⟨hfloor, hcap, hle⟩ := finish_sane (a := a) h hmtu (bwAvailable net bottleBw)
    refine ⟨hfloor, hcap, fun _ => ⟨?_, fun hfits => ?_⟩⟩
    · rw [enforceCwndLimit_ssthresh]
      exact hss
    · have hback := hshare hfits
      omega
  · rw [if_neg hred]
    have hmtu : (pktdropGrow a net (max currentOnq net.flightSize) (bwAvailable net bottleBw)).mtu =
        net.mtu := rfl
    obtain ⟨hfloor, hcap, _⟩ := finish_sane (a := a) h hmtu (bwAvailable net bottleBw)
    exact ⟨hfloor, hcap, fun h => absurd h hred⟩

theorem grow_limited (h : InRange net) {incr : ℕ} (hincr : incr < 2 ^ 31) (hfloor : Floored net) :
    Floored (net.grow a.maxCwnd incr) ∧ Capped a.maxCwnd (net.grow a.maxCwnd incr) ∧
      (net.grow a.maxCwnd incr).cwnd ≤ net.cwnd + incr := by
  have hcwnd := h.cwnd_lt
  have hsum : u32 (net.cwnd + incr) = net.cwnd + incr := u32_of_lt (by omega)
  unfold CcNet.grow
  rw [hsum]
  have hgrown : Floored { net with cwnd := net.cwnd + incr } := by
    unfold Floored at *
    dsimp only
    omega
  have hlim := @limited_of_enforce a.maxCwnd net _ h hgrown rfl
  exact ⟨hlim.1, hlim.2, enforceCwndLimit_cwnd_le _ _⟩

def CcNet.growsBy (net : CcNet) : Bool :=
  net.cwndFull &&
    (decide (net.cwnd ≤ net.ssthresh) || decide (net.cwnd ≤ u32 (net.partialBytesAcked + net.netAck)))

structure Grown (abcVariable maxCwnd : ℕ) (net net' : CcNet) : Prop where
  cwnd_le : net'.cwnd ≤ net.cwnd + max 1 abcVariable * net.mtu
  full : net.cwnd < net'.cwnd → net.cwnd ≤ net.flightSize + net.netAck
  capped : net.growsBy = true → Capped maxCwnd net'

theorem cwndFull_le (hfull : net.cwndFull = true) : net.cwnd ≤ net.flightSize + net.netAck :=
  (of_decide_eq_true hfull).trans (u32_le _)

theorem growNet_sane (hoff : a.cmtOnOff = .off) (h : InRange net) (hfloor : Floored net)
    (t : SackSums) :
    Floored (growNet cfg a t net).val ∧
      Grown cfg.abcVariable a.maxCwnd net (growNet cfg a t net).val := by
  have hmtu := h.mtu_lt
  have hack := h.netAck_lt
  have habc : net.mtu * cfg.abcVariable ≤ max 1 cfg.abcVariable * net.mtu := by
    rw [mul_comm]
    exact Nat.mul_le_mul_right _ (le_max_right _ _)
  have hone : net.mtu ≤ max 1 cfg.abcVariable * net.mtu :=
    Nat.le_mul_of_pos_left _ (lt_max_of_lt_left one_pos)
  unfold growNet
  rw [hoff]
  by_cases hss : net.cwnd ≤ net.ssthresh
  · rw [if_pos hss]
    by_cases hfull : net.cwndFull = true
    · rw [if_pos hfull]
      have hincr : min net.netAck (u32 (net.mtu * cfg.abcVariable)) < 2 ^ 31 :=
        (min_le_left _ _).trans_lt hack
      obtain ⟨hfl, hcap, hle⟩ := grow_limited (a := a) h hincr hfloor
      have hu := u32_le (net.mtu * cfg.abcVariable)
      change Floored (net.grow a.maxCwnd (min net.netAck (u32 (net.mtu * cfg.abcVariable)))) ∧
        Grown cfg.abcVariable a.maxCwnd net
          (net.grow a.maxCwnd (min net.netAck (u32 (net.mtu * cfg.abcVariable))))
      refine ⟨hfl, ?_, fun _ => cwndFull_le hfull, fun _ => hcap⟩
      omega
    · rw [if_neg hfull, Checked.pure_val]
      refine ⟨hfloor, Nat.le_add_right _ _, fun hlt => absurd hlt (lt_irrefl _), ?_⟩
      intro hgrows
      unfold CcNet.growsBy at hgrows
      rw [Bool.and_eq_true] at hgrows
      exact absurd hgrows.1 hfull
  · rw [if_neg hss]
    dsimp only
    by_cases hca : (net.cwndFull &&
        decide (net.cwnd ≤ u32 (net.partialBytesAcked + net.netAck))) = true
    · rw [if_pos hca]
      have hfull : net.cwndFull = true := (Bool.and_eq_true_iff.mp hca).1
      have hincr : net.mtu < 2 ^ 31 := hmtu.trans (by norm_num)
      have hpba : InRange { net with
          partialBytesAcked := u32 (net.partialBytesAcked + net.netAck) - net.cwnd } :=
        ⟨h.mtu_ge, h.mtu_lt, h.flightSize_lt, h.netAck_lt, h.cwnd_lt, h.prevCwnd_lt⟩
      obtain ⟨hfl, hcap, hle⟩ := grow_limited (a := a) hpba hincr hfloor
      refine ⟨hfl, ?_, fun _ => cwndFull_le hfull, fun _ => hcap⟩
      exact hle.trans (Nat.add_le_add_left hone _)
    · rw [if_neg hca, Checked.pure_val]
      refine ⟨hfloor, Nat.le_add_right _ _, fun hlt => absurd hlt (lt_irrefl _), ?_⟩
      intro hgrows
      unfold CcNet.growsBy at hgrows
      rw [decide_eq_false hss, Bool.false_or] at hgrows
      exact absurd hgrows hca

end Updates

section Loops

variable {a : CcAsoc}

theorem sackLoop_val (w : Bool) (update : CcNet → Checked CcNet) (nets : List CcNet) :
    (sackLoop a w update nets).val = nets.map fun net =>
      if net.netAck = 0 ∨ (a.fastRetranLossRecovery && !w && !a.cmtOnOff.isOn) = true then net
      else (update net).val := by
  induction nets with
  | nil => rfl
  | cons net rest ih =>
    unfold sackLoop
    rw [List.map_cons]
    by_cases hack : net.netAck = 0
    · rw [if_pos hack, if_pos (Or.inl hack), Checked.map_val, ih]
    · rw [if_neg hack]
      by_cases hskip : (a.fastRetranLossRecovery && !w && !a.cmtOnOff.isOn) = true
      · rw [if_pos hskip, if_pos (Or.inr hskip), Checked.pure_val]
        have hid : rest.map (fun net =>
            if net.netAck = 0 ∨ (a.fastRetranLossRecovery && !w && !a.cmtOnOff.isOn) = true then net
            else (update net).val) = rest := by
          rw [List.map_congr_left fun x _ => if_pos (Or.inr hskip), List.map_id']
        rw [hid]
      · rw [if_neg hskip, if_neg (not_or.mpr ⟨hack, hskip⟩), Checked.bind_val, Checked.map_val, ih]

def FirstAcked (nets : List CcNet) (i : ℕ) : Prop :=
  (∃ net, nets[i]? = some net ∧ net.netAck ≠ 0) ∧
    ∀ j < i, ∀ net, nets[j]? = some net → net.netAck = 0

theorem frLoop_of_recovery (hoff : a.cmtOnOff = .off) (update : CcNet → Checked CcNet)
    (nets : List CcNet) : (frLoop a update true nets).val = (true, nets) := by
  induction nets with
  | nil => rfl
  | cons net rest ih =>
    unfold frLoop
    rw [hoff]
    change ((frLoop a update true rest).val.1, net :: (frLoop a update true rest).val.2) = _
    rw [ih]

theorem frLoop_length (update : CcNet → Checked CcNet) (r : Bool) (nets : List CcNet) :
    (frLoop a update r nets).val.2.length = nets.length := by
  induction nets generalizing r with
  | nil => rfl
  | cons net rest ih =>
    unfold frLoop
    split_ifs
    · exact congrArg Nat.succ (ih true)
    · exact congrArg Nat.succ (ih r)

theorem firstAcked_succ_iff {net : CcNet} {rest : List CcNet} (hack : net.netAck = 0) (i : ℕ) :
    FirstAcked (net :: rest) (i + 1) ↔ FirstAcked rest i := by
  unfold FirstAcked
  rw [List.getElem?_cons_succ]
  constructor
  · rintro ⟨hi, hbefore⟩
    exact ⟨hi, fun j hj x hx => hbefore (j + 1) (Nat.succ_lt_succ hj) x hx⟩
  · rintro ⟨hi, hbefore⟩
    refine ⟨hi, fun j hj x hx => ?_⟩
    cases j with
    | zero =>
      obtain rfl := Option.some.inj hx
      exact hack
    | succ j => exact hbefore j (Nat.lt_of_succ_lt_succ hj) x hx

/-- Without CMT the first destination that was acked is updated, and no other one. -/
theorem frLoop_getElem? (hoff : a.cmtOnOff = .off) (update : CcNet → Checked CcNet)
    {nets : List CcNet} {i : ℕ} {x y : CcNet} (hx : nets[i]? = some x)
    (hy : (frLoop a update false nets).val.2[i]? = some y) :
    (FirstAcked nets i → y.cwnd = (update x).val.cwnd ∧ y.ssthresh = (update x).val.ssthresh ∧
      y.mtu = (update x).val.mtu) ∧ (¬ FirstAcked nets i → y = x) := by
  induction nets generalizing i with
  | nil => cases hx
  | cons net rest ih =>
    by_cases hack : net.netAck = 0
    · have hval : (frLoop a update false (net :: rest)).val.2 =
          net :: (frLoop a update false rest).val.2 := by
        rw [frLoop, hack]
        rfl
      rw [hval] at hy
      cases i with
      | zero =>
        obtain rfl := Option.some.inj hx
        obtain rfl := Option.some.inj hy
        refine ⟨?_, fun _ => rfl⟩
        rintro ⟨⟨x, hx', hne⟩, _⟩
        obtain rfl := Option.some.inj hx'
        exact absurd hack hne
      | succ i =>
        rw [firstAcked_succ_iff hack]
        exact ih hx hy
    · have hval : (frLoop a update false (net :: rest)).val.2 =
          { (update net).val with
            partialBytesAcked := 0, fastRetranLossRecovery := true,
            fastRecoveryTsn := a.recoveryTsn } :: rest := by
        have htail := frLoop_of_recovery hoff update rest
        have hne : ((!false || a.cmtOnOff.isOn) && net.netAck != 0) = true := by simp [hack]
        rw [frLoop, if_pos hne, Checked.bind_val, Checked.bind_val, htail]
        rfl
      rw [hval] at hy
      cases i with
      | zero =>
        obtain rfl := Option.some.inj hx
        obtain rfl := Option.some.inj hy
        refine ⟨fun _ => ⟨rfl, rfl, rfl⟩, fun hnot => absurd ?_ hnot⟩
        exact ⟨⟨net, rfl, hack⟩, fun j hj => absurd hj (Nat.not_lt_zero j)⟩
      | succ i =>
        obtain rfl := Option.some.inj (hx.symm.trans hy)
        refine ⟨fun hfirst => ?_, fun _ => rfl⟩
        exact absurd (hfirst.2 0 (Nat.succ_pos i) net rfl) hack

end Loops

/-- The updates, and whatever else happens to an association. -/
inductive CcEvent
  /-- A destination is added, and initialised. -/
  | add (net : CcNet)
  | init (i : ℕ)
  | sack (accumMoved willExit : Bool)
  | fr
  | timeout (i : ℕ)
  | ecnEcho (i : ℕ) (inWindow : Bool) (numPktLost : ℕ)
  | packetDropped (i : ℕ) (bottleBw currentOnq : ℕ)
  | output (i : ℕ) (burstLimit : ℕ)
  | exitPf (i : ℕ)
  /-- Everything but windows, thresholds and the use of CMT is changed; destinations may go. -/
  | elsewhere (t : CcAsoc)

def CcAsoc.onNet (a : CcAsoc) (i : ℕ) (f : CcNet → CcNet) : CcAsoc :=
  { a with nets := a.nets.modify i f }

/-- A report finds the bottleneck full and less than one segment in its queue: a division by zero. -/
def pktdropTraps (net : CcNet) (bottleBw currentOnq : ℕ) : Bool :=
  decide (bwAvailable net bottleBw < max currentOnq net.flightSize) &&
    decide (max currentOnq net.flightSize / net.mtu = 0)

/-- The association behind an event, with the default module. -/
def ccStep (cfg : CcConfig) (a : CcAsoc) : CcEvent → Option CcAsoc
  | .add net => some { a with nets := a.nets ++ [(setInitialCcParam cfg a net).val] }
  | .init i => some (a.onNet i fun net => (setInitialCcParam cfg a net).val)
  | .sack accumMoved willExit => some (cwndUpdateAfterSack cfg a accumMoved willExit).val
  | .fr => some (cwndUpdateAfterFr a).val
  | .timeout i => some (a.onNet i fun net => (cwndUpdateAfterTimeout a net).val)
  | .ecnEcho i inWindow lost =>
    some (a.onNet i fun net => (cwndUpdateAfterEcnEcho net inWindow lost).val)
  | .packetDropped i bottleBw currentOnq =>
    if a.nets[i]?.any (pktdropTraps · bottleBw currentOnq) then none
    else some (a.onNet i fun net => (cwndUpdateAfterPacketDropped a net bottleBw currentOnq).val)
  | .output i burstLimit => some (a.onNet i fun net => cwndUpdateAfterOutput a net burstLimit)
  | .exitPf i => some (a.onNet i cwndUpdateExitPf)
  | .elsewhere t => some { t with
      cmtOnOff := a.cmtOnOff
      nets := List.zipWith (fun t net => { t with cwnd := net.cwnd, ssthresh := net.ssthresh })
        t.nets a.nets }

/-- The SACK gets as far as the destination and lets its window grow. -/
def SackGrows (a : CcAsoc) (accumMoved willExit : Bool) (net : CcNet) : Prop :=
  net.netAck ≠ 0 ∧ (a.fastRetranLossRecovery = true → willExit = true) ∧ accumMoved = true ∧
    net.growsBy = true

/-- What an event does to the destination at a place, `x` before and `y` behind it. -/
def NetSane (cfg : CcConfig) (a : CcAsoc) (i : ℕ) (x y : CcNet) : CcEvent → Prop
  | .add _ => y = x
  | .init j => i = j → Capped a.maxCwnd y
  | .sack accumMoved willExit =>
    y.cwnd ≤ x.cwnd + max 1 cfg.abcVariable * x.mtu ∧
      (x.cwnd < y.cwnd → x.cwnd ≤ x.flightSize + x.netAck) ∧
      (SackGrows a accumMoved willExit x → Capped a.maxCwnd y)
  | .fr =>
    (a.fastRetranLossRecovery = false ∧ FirstAcked a.nets i → Reduced x y ∧ Capped a.maxCwnd y) ∧
      (¬ (a.fastRetranLossRecovery = false ∧ FirstAcked a.nets i) → y = x)
  | .timeout j => i = j → Reduced x y
  | .ecnEcho j inWindow _ => i = j → if inWindow then y = x else Reduced x y
  | .packetDropped j bottleBw currentOnq => i = j →
    Capped a.maxCwnd y ∧
      (pktdropReduces x bottleBw currentOnq → x.mtu - 1 ≤ y.ssthresh ∧
        (ShareFits a x bottleBw currentOnq → y.cwnd ≤ max (windowBefore a x) (2 * x.mtu)))
  | .output j burstLimit => i = j → burstLimit ≠ 0 → Capped a.maxCwnd y
  | .exitPf _ => True
  | .elsewhere _ => y.cwnd = x.cwnd ∧ y.ssthresh = x.ssthresh

/-- No window is ever below an MTU without the common header, and every destination fares as it should. -/
def Sane (cfg : CcConfig) (a : CcAsoc) (e : CcEvent) : Prop :=
  ∀ a', ccStep cfg a e = some a' →
    (∀ net ∈ a'.nets, Floored net) ∧
      (∀ i x y, a.nets[i]? = some x → a'.nets[i]? = some y → NetSane cfg a i x y e) ∧
      ∀ net, e = .add net → Capped a.maxCwnd (setInitialCcParam cfg a net).val

/-- The values are those of paths, and the MTU is not raised above what the window already holds. -/
def Regular (cfg : CcConfig) (a : CcAsoc) (e : CcEvent) : Prop :=
  (∀ net ∈ a.nets, InRange net) ∧
    match e with
    | .add net => InRange net ∧ InitialFits cfg a net
    | .init i => ∀ net, a.nets[i]? = some net → InitialFits cfg a net
    | .output i burstLimit =>
      ∀ net, a.nets[i]? = some net → net.flightSize + burstLimit * net.mtu < 2 ^ 31
    | .elsewhere t =>
      ∀ (i : ℕ) (net new : CcNet), a.nets[i]? = some net → t.nets[i]? = some new →
        new.mtu - sctphdrLen ≤ net.cwnd
    | _ => True

/-- Without CMT, and no window too small. -/
structure WindowsFloored (a : CcAsoc) : Prop where
  off : a.cmtOnOff = .off
  floored : ∀ net ∈ a.nets, Floored net

section Steps

variable {cfg : CcConfig} {a : CcAsoc}

theorem onNet_getElem? {i j : ℕ} {f : CcNet → CcNet} {x y : CcNet} (hx : a.nets[j]? = some x)
    (hy : (a.onNet i f).nets[j]? = some y) : (i = j → y = f x) ∧ (i ≠ j → y = x) := by
  unfold CcAsoc.onNet at hy
  rw [List.getElem?_modify, hx] at hy
  have hval : (if i = j then f x else x) = y := Option.some.inj hy
  by_cases hij : i = j
  · rw [if_pos hij] at hval
    exact ⟨fun _ => hval.symm, fun h => absurd hij h⟩
  · rw [if_neg hij] at hval
    exact ⟨fun h => absurd h hij, fun _ => hval.symm⟩

theorem onNet_floored {i : ℕ} {f : CcNet → CcNet} (hfl : ∀ net ∈ a.nets, Floored net)
    (hf : ∀ net, a.nets[i]? = some net → Floored (f net)) : ∀ net ∈ (a.onNet i f).nets, Floored net := by
  intro y hy
  obtain ⟨j, hj⟩ := List.mem_iff_getElem?.mp hy
  cases hx : a.nets[j]? with
  | none =>
    unfold CcAsoc.onNet at hj
    rw [List.getElem?_modify, hx] at hj
    cases hj
  | some x =>
    obtain ⟨hsame, hother⟩ := onNet_getElem? hx hj
    by_cases hij : i = j
    · rw [hsame hij]
      exact hf x (by rw [hij]; exact hx)
    · rw [hother hij]
      exact hfl x (List.mem_iff_getElem?.mpr ⟨j, hx⟩)

/-- An update of one destination: what it does there is what it does to the association. -/
theorem onNet_sane (e : CcEvent) (i : ℕ) (f : CcNet → CcNet) (hfl : ∀ net ∈ a.nets, Floored net)
    (hf : ∀ net, a.nets[i]? = some net → Floored (f net) ∧ NetSane cfg a i net (f net) e)
    (hother : ∀ j net, j ≠ i → NetSane cfg a j net net e) :
    (∀ net ∈ (a.onNet i f).nets, Floored net) ∧
      ∀ j x y, a.nets[j]? = some x → (a.onNet i f).nets[j]? = some y → NetSane cfg a j x y e := by
  refine ⟨onNet_floored hfl fun net hnet => (hf net hnet).1, ?_⟩
  intro j x y hx hy
  obtain ⟨hsame, hdiff⟩ := onNet_getElem? hx hy
  by_cases hij : i = j
  · subst hij
    rw [hsame rfl]
    exact (hf x hx).2
  · rw [hdiff hij]
    exact hother j x (Ne.symm hij)

theorem mem_of_getElem? {i : ℕ} {nets : List CcNet} {net : CcNet} (h : nets[i]? = some net) :
    net ∈ nets := List.mem_iff_getElem?.mpr ⟨i, h⟩

theorem sackNet_val (hoff : a.cmtOnOff = .off) (t : SackSums) (accumMoved : Bool) (net : CcNet) :
    (sackNet cfg a t accumMoved false net).val =
      if accumMoved = true then (growNet cfg a t net).val else net := by
  unfold sackNet
  rw [hoff]
  cases accumMoved <;> rfl

theorem sack_sane (cfg : CcConfig) (hinv : WindowsFloored a) (hrange : ∀ net ∈ a.nets, InRange net)
    (accumMoved willExit : Bool) :
    (∀ net ∈ (cwndUpdateAfterSack cfg a accumMoved willExit).val.nets, Floored net) ∧
      ∀ i x y, a.nets[i]? = some x →
        (cwndUpdateAfterSack cfg a accumMoved willExit).val.nets[i]? = some y →
        NetSane cfg a i x y (.sack accumMoved willExit) := by
  obtain ⟨hoff, hfl⟩ := hinv
  have hval : (cwndUpdateAfterSack cfg a accumMoved willExit).val.nets = a.nets.map fun net =>
      if net.netAck = 0 ∨ (a.fastRetranLossRecovery && !willExit && !a.cmtOnOff.isOn) = true then net
      else (sackNet cfg a (sackSums a).val accumMoved false net).val := sackLoop_val _ _ _
  rw [hval]
  constructor
  · intro y hy
    obtain ⟨x, hx, rfl⟩ := List.mem_map.mp hy
    split_ifs
    · exact hfl x hx
    · rw [sackNet_val hoff]
      split_ifs
      · exact (growNet_sane hoff (hrange x hx) (hfl x hx) _).1
      · exact hfl x hx
  · intro i x y hx hy
    rw [List.getElem?_map, hx] at hy
    have hmem := mem_of_getElem? hx
    obtain rfl := Option.some.inj hy
    have hstay : ¬ SackGrows a accumMoved willExit x →
        NetSane cfg a i x x (.sack accumMoved willExit) := fun hnot =>
      ⟨Nat.le_add_right _ _, fun hlt => absurd hlt (lt_irrefl _), fun hgrows => absurd hgrows hnot⟩
    dsimp only
    split_ifs with hskip
    · refine hstay ?_
      rintro ⟨hack, hexit, _, _⟩
      rcases hskip with hzero | hskip
      · exact hack hzero
      · simp only [Bool.and_eq_true, Bool.not_eq_true'] at hskip
        rw [hexit hskip.1.1] at hskip
        cases hskip.1.2
    · rw [sackNet_val hoff]
      split_ifs with hmoved
      · obtain ⟨_, hle, hfull, hcap⟩ := @growNet_sane cfg a x hoff (hrange x hmem) (hfl x hmem)
          (sackSums a).val
        exact ⟨hle, hfull, fun hgrows => hcap hgrows.2.2.2⟩
      · exact hstay fun hgrows => hmoved hgrows.2.2.1

theorem fr_sane (cfg : CcConfig) (hinv : WindowsFloored a) (hrange : ∀ net ∈ a.nets, InRange net) :
    (∀ net ∈ (cwndUpdateAfterFr a).val.nets, Floored net) ∧
      ∀ i x y, a.nets[i]? = some x → (cwndUpdateAfterFr a).val.nets[i]? = some y →
        NetSane cfg a i x y .fr := by
  obtain ⟨hoff, hfl⟩ := hinv
  have hval : (cwndUpdateAfterFr a).val.nets =
      (frLoop a (frNet a (frSums a).val) a.fastRetranLossRecovery a.nets).val.2 := rfl
  generalize (frSums a).val = t at hval
  rw [hval]
  by_cases hrec : a.fastRetranLossRecovery = true
  · rw [hrec, frLoop_of_recovery hoff]
    refine ⟨hfl, fun i x y hx hy => ?_⟩
    obtain rfl := Option.some.inj (hx.symm.trans hy)
    refine ⟨fun h => absurd (hrec.symm.trans h.1) (by decide), fun _ => rfl⟩
  · rw [Bool.not_eq_true] at hrec
    rw [hrec]
    constructor
    · intro y hy
      obtain ⟨j, hj⟩ := List.mem_iff_getElem?.mp hy
      have hlt : j < a.nets.length := by
        rw [← frLoop_length (frNet a t) false a.nets]
        exact (List.getElem?_eq_some_iff.mp hj).1
      obtain ⟨hhit, hmiss⟩ := frLoop_getElem? hoff (frNet a t) (List.getElem?_eq_getElem hlt) hj
      have hmem := List.getElem_mem hlt
      by_cases hfirst : FirstAcked a.nets j
      · obtain ⟨hcwnd, _, hmtu⟩ := hhit hfirst
        have hsane := (frNet_sane hoff (hrange _ hmem) t).1
        unfold Floored at *
        rwa [hcwnd, hmtu]
      · rw [hmiss hfirst]
        exact hfl _ hmem
    · intro i x y hx hy
      obtain ⟨hhit, hmiss⟩ := frLoop_getElem? hoff (frNet a t) hx hy
      obtain ⟨_, hcap, hred⟩ := frNet_sane hoff (hrange x (mem_of_getElem? hx)) t
      refine ⟨fun h => ?_, fun h => hmiss fun hfirst => h ⟨hrec, hfirst⟩⟩
      obtain ⟨hcwnd, hss, hmtu⟩ := hhit h.2
      refine ⟨⟨?_, ?_⟩, ?_⟩
      · rw [hcwnd]
        exact hred.cwnd_le
      · rw [hss]
        exact hred.ssthresh_ge
      · unfold Capped at *
        rwa [hcwnd, hmtu]

theorem ccStep_sane (e : CcEvent) (hinv : WindowsFloored a) (hreg : Regular cfg a e) :
    Sane cfg a e := by
  have hoff := hinv.off
  have hfl := hinv.floored
  obtain ⟨hrange, hfits⟩ := hreg
  intro a' hstep
  cases e with
  | add net =>
    obtain rfl := Option.some.inj hstep
    have hnew := setInitialCcParam_limited hoff hfits.1 hfits.2
    refine ⟨?_, ?_, ?_⟩
    · intro y hy
      rcases List.mem_append.mp hy with hy | hy
      · exact hfl y hy
      · rw [List.mem_singleton.mp hy]
        exact hnew.1
    · intro i x y hx hy
      dsimp only at hy
      rw [List.getElem?_append_left (List.getElem?_eq_some_iff.mp hx).1, hx] at hy
      exact (Option.some.inj hy).symm
    · rintro net' ⟨⟩
      exact hnew.2
  | init i =>
    obtain rfl := Option.some.inj hstep
    obtain ⟨hfloor, hpair⟩ := onNet_sane (.init i) i (fun net => (setInitialCcParam cfg a net).val)
      hfl (fun net hnet =>
        have hnew := setInitialCcParam_limited hoff (hrange net (mem_of_getElem? hnet))
          (hfits net hnet)
        ⟨hnew.1, fun _ => hnew.2⟩)
      (fun _ _ hne heq => absurd heq hne)
    exact ⟨hfloor, hpair, fun net h => by cases h⟩
  | sack accumMoved willExit =>
    obtain rfl := Option.some.inj hstep
    obtain ⟨hfloor, hpair⟩ := sack_sane cfg hinv hrange accumMoved willExit
    exact ⟨hfloor, hpair, fun net h => by cases h⟩
  | fr =>
    obtain rfl := Option.some.inj hstep
    obtain ⟨hfloor, hpair⟩ := fr_sane cfg hinv hrange
    exact ⟨hfloor, hpair, fun net h => by cases h⟩
  | timeout i =>
    obtain rfl := Option.some.inj hstep
    obtain ⟨hfloor, hpair⟩ := onNet_sane (.timeout i) i
      (fun net => (cwndUpdateAfterTimeout a net).val) hfl
      (fun net hnet =>
        have hloss := timeout_sane hoff (hrange net (mem_of_getElem? hnet))
        ⟨hloss.1, fun _ => hloss.2⟩)
      (fun _ _ hne heq => absurd heq hne)
    exact ⟨hfloor, hpair, fun net h => by cases h⟩
  | ecnEcho i inWindow lost =>
    obtain rfl := Option.some.inj hstep
    obtain ⟨hfloor, hpair⟩ := onNet_sane (.ecnEcho i inWindow lost) i
      (fun net => (cwndUpdateAfterEcnEcho net inWindow lost).val) hfl
      (fun net hnet => by
        have hmem := mem_of_getElem? hnet
        cases inWindow with
        | true => exact ⟨hfl net hmem, fun _ => rfl⟩
        | false =>
          have hloss := ecnEcho_sane (hrange net hmem) lost
          exact ⟨hloss.1, fun _ => hloss.2⟩)
      (fun _ _ hne heq => absurd heq hne)
    exact ⟨hfloor, hpair, fun net h => by cases h⟩
  | packetDropped i bottleBw currentOnq =>
    dsimp only [ccStep] at hstep
    split_ifs at hstep with htrap
    obtain rfl := Option.some.inj hstep
    obtain ⟨hfloor, hpair⟩ := onNet_sane (.packetDropped i bottleBw currentOnq) i
      (fun net => (cwndUpdateAfterPacketDropped a net bottleBw currentOnq).val) hfl
      (fun net hnet =>
        have hdrop := packetDropped_sane (hrange net (mem_of_getElem? hnet)) bottleBw currentOnq
        ⟨hdrop.1, fun _ => hdrop.2⟩)
      (fun _ _ hne heq => absurd heq hne)
    exact ⟨hfloor, hpair, fun net h => by cases h⟩
  | output i burstLimit =>
    obtain rfl := Option.some.inj hstep
    obtain ⟨hfloor, hpair⟩ := onNet_sane (.output i burstLimit) i
      (fun net => cwndUpdateAfterOutput a net burstLimit) hfl
      (fun net hnet => by
        have hmem := mem_of_getElem? hnet
        by_cases hzero : burstLimit = 0
        · subst hzero
          exact ⟨hfl net hmem, fun _ hne => absurd rfl hne⟩
        · have hburst := output_limited (a := a) (hrange net hmem) hzero (hfits net hnet)
          exact ⟨hburst.1, fun _ _ => hburst.2⟩)
      (fun _ _ hne heq => absurd heq hne)
    exact ⟨hfloor, hpair, fun net h => by cases h⟩
  | exitPf i =>
    obtain rfl := Option.some.inj hstep
    obtain ⟨hfloor, hpair⟩ := onNet_sane (.exitPf i) i cwndUpdateExitPf hfl
      (fun _ _ => ⟨exitPf_floored, trivial⟩) (fun _ _ _ => trivial)
    exact ⟨hfloor, hpair, fun net h => by cases h⟩
  | elsewhere t =>
    obtain rfl := Option.some.inj hstep
    refine ⟨?_, ?_, fun net h => by cases h⟩
    · intro y hy
      obtain ⟨j, hj⟩ := List.mem_iff_getElem?.mp hy
      obtain ⟨new, net, hnew, hnet, rfl⟩ := List.getElem?_zipWith_eq_some.mp hj
      exact hfits j net new hnet hnew
    · intro i x y hx hy
      obtain ⟨new, net, _, hnet, rfl⟩ := List.getElem?_zipWith_eq_some.mp hy
      obtain rfl := Option.some.inj (hx.symm.trans hnet)
      exact ⟨rfl, rfl⟩

theorem ccStep_cmtOnOff {a' : CcAsoc} (e : CcEvent) (hstep : ccStep cfg a e = some a') :
    a'.cmtOnOff = a.cmtOnOff := by
  cases e with
  | packetDropped i bottleBw currentOnq =>
    dsimp only [ccStep] at hstep
    split_ifs at hstep
    obtain rfl := Option.some.inj hstep
    rfl
  | _ =>
    obtain rfl := Option.some.inj hstep
    rfl

/-- In every run of the default module without CMT, from windows that are not too small, no window is ever
below an MTU without the common header, losses reduce it, a SACK lets it grow by a limited amount and only
when it was used, and the limit is kept. -/
theorem run_sane (cfg : CcConfig) {a : CcAsoc} {es : List CcEvent} (hinv : WindowsFloored a)
    (hreg : Trace.Along (ccStep cfg) (Regular cfg) a es) :
    Trace.Along (ccStep cfg) (Sane cfg) a es := by
  refine Trace.Along.of_invariant WindowsFloored ?_ (fun s e hs he => ccStep_sane e hs he) hinv hreg
  intro s e s' hs he hstep
  constructor
  · rw [ccStep_cmtOnOff e hstep]
    exact hs.off
  · exact (ccStep_sane e hs he s' hstep).1

end Steps

/-- An association with some destinations and no limit of the window. -/
def freshCcAsoc (nets : List CcNet) : CcAsoc where
  nets := nets
  numnets := nets.length
  cmtOnOff := .off
  maxCwnd := 0
  maxBurst := 4
  peersRwnd := 65536
  fastRetranLossRecovery := false
  fastRecoveryTsn := 0
  sendingSeq := 1000
  sendQueueFirst := none
  seenASackThisPkt := false

/-- The configuration as it comes, but for `sctp_L2_abc_variable`. -/
def ccConfig (abcVariable : ℕ) : CcConfig where
  initialCwnd := 3
  abcVariable := abcVariable
  rttvarBw := 4
  rttvarRtt := 5
  hz := 1000
  useRttScaling := true
  useBandwidthSwitch := true

/-- A timeout of a destination, and a SACK behind it. -/
theorem run_sane_timeout :
    Trace.Along (ccStep (ccConfig 2)) (Sane (ccConfig 2)) (freshCcAsoc [freshCcNet 4380 65536 1500])
      [.timeout 0, .sack true false] := by
  refine run_sane (ccConfig 2) ⟨rfl, ?_⟩ ⟨⟨?_, trivial⟩, fun s' hs' => ⟨⟨?_, trivial⟩, ?_⟩⟩
  · intro net hnet
    rw [List.mem_singleton.mp hnet]
    unfold Floored
    decide
  · intro net hnet
    rw [List.mem_singleton.mp hnet]
    decide
  · obtain rfl := Option.some.inj hs'
    intro net hnet
    rw [List.mem_singleton.mp hnet]
    decide +kernel
  · intro s'' _
    exact trivial

def windows (cfg : CcConfig) (a : CcAsoc) (es : List CcEvent) : Option (List ℕ) :=
  (Trace.run (ccStep cfg) a es).map fun a => a.nets.map (·.cwnd)

/-- A SACK and a packet drop report in one packet: the report undoes what the fast retransmission took from
the window. And without slow start growth, `sctp_L2_abc_variable` being zero, the window still grows by an
MTU in congestion avoidance. -/
theorem undoneReduction :
    let net := { freshCcNet 100000 65536 1500 with flightSize := 90000 }
    let a := { freshCcAsoc [net] with seenASackThisPkt := true }
    let used := { freshCcNet 10000 5000 1500 with partialBytesAcked := 10000 }
    windows (ccConfig 2) a [.fr] = some [50000] ∧
      windows (ccConfig 2) a [.fr, .packetDropped 0 1990000 200000] = some [100000] ∧
      ¬ 100000 ≤ max 50000 (2 * net.mtu) ∧
      windows (ccConfig 0) (freshCcAsoc [used]) [.sack true false] = some [11500] ∧
      ¬ 11500 ≤ used.cwnd + (ccConfig 0).abcVariable * used.mtu := by
  decide +kernel

end Sctp.Cc
