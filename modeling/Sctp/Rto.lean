import Mathlib.Data.List.MinMax
import Sctp.Lib.Smooth
import Sctp.Lib.Trace
import Sctp.Timeval

/-! The retransmission timeout that `sctp_calculate_rto` makes from measured round trip times. -/
namespace Sctp

/-- The result of signed arithmetic on 32 bits, which must not overflow. -/
def int32 (z : ℤ) : Option ℤ := if -2 ^ 31 ≤ z ∧ z < 2 ^ 31 then some z else none

/-- Conversions to `int32_t` and `uint32_t`. -/
def toInt32 (z : ℤ) : ℤ := Int.bmod z (2 ^ 32)
def toUint32 (z : ℤ) : ℕ := (z % 2 ^ 32).toNat

def sar (z : ℤ) (k : ℕ) : ℤ := z / 2 ^ k

def rttShift : ℕ := 3
def rttVarShift : ℕ := 2
def satNetworkMin : ℕ := 400
def localLanRtt : ℕ := 900

def clockGranularity (freeBSD : Bool) : ℤ := if freeBSD then 1 else 10

/-- `net->lan_type` -/
inductive LanType where
  | lanUnknown
  | lanLocal
  | lanInternet
deriving DecidableEq, Repr

structure RtoNet where
  /-- In microseconds. -/
  rtt : ℕ
  lanType : LanType
  rtoMeasured : Bool
  lastsa : ℤ
  lastsv : ℤ
deriving DecidableEq, Repr

/-- A destination with the fields of the association that go with it. -/
structure RtoState extends RtoNet where
  satNetwork : Bool
  satNetworkLockout : Bool
deriving DecidableEq, Repr

/-- One call: the time now, the time at which the round trip began, and the bounds of the
association. -/
structure RttReading where
  now : Timeval
  old : Timeval
  fromData : Bool
  minrto : ℕ
  maxrto : ℕ
deriving DecidableEq, Repr

namespace RttReading

/-- `net->rtt`, in microseconds. -/
def rttUs (r : RttReading) : ℕ :=
  let d := r.now.sub r.old
  ((1000000 * d.tv_sec + d.tv_usec) % 2 ^ 64).toNat

def rttMs (r : RttReading) : ℤ := toInt32 (r.rttUs / 1000 : ℕ)

end RttReading

namespace RtoNet

def srtt (net : RtoNet) : ℤ := sar net.lastsa rttShift

def magnitude (rtt : ℤ) : Option ℤ := if rtt < 0 then int32 (-rtt) else some rtt

/-- `RTO_measured` is set. -/
def nextMeasure (net : RtoNet) (rtt : ℤ) : Option RtoNet := do
  let rtt ← int32 (rtt - sar net.lastsa rttShift)
  let lastsa ← int32 (net.lastsa + rtt)
  let rtt ← magnitude rtt
  let rtt ← int32 (rtt - sar net.lastsv rttVarShift)
  let lastsv ← int32 (net.lastsv + rtt)
  return { net with lastsa, lastsv }

def firstMeasure (net : RtoNet) (rtt : ℤ) : Option RtoNet := do
  let lastsa ← int32 (rtt * 2 ^ rttShift)
  let lastsv ← int32 (rtt.tdiv 2 * 2 ^ rttVarShift)
  return { net with rtoMeasured := true, lastsa, lastsv }

def measure (net : RtoNet) (rtt : ℤ) : Option RtoNet :=
  if net.rtoMeasured then net.nextMeasure rtt else net.firstMeasure rtt

/-- A variance of zero is replaced by the granularity of the clock. -/
def granular (granularity : ℤ) (net : RtoNet) : RtoNet :=
  if net.lastsv = 0 then { net with lastsv := granularity } else net

def noteLan (net : RtoNet) (fromData : Bool) (rttUs : ℕ) : RtoNet :=
  let net := { net with rtt := rttUs }
  if fromData ∧ net.lanType = .lanUnknown then
    { net with lanType := if localLanRtt < rttUs then .lanInternet else .lanLocal }
  else net

end RtoNet

/-- A long round trip looks like a satellite link, until a shorter one is measured. -/
def RtoState.noteSat (s : RtoState) (first : Bool) (newRto : ℕ) : RtoState :=
  if satNetworkMin < newRto ∧ s.satNetworkLockout = false then { s with satNetwork := true }
  else if first = false ∧ s.satNetwork then
    { s with satNetwork := false, satNetworkLockout := true }
  else s

/-- C6 and C7 of section 5.3.1. -/
def RttReading.bound (r : RttReading) (newRto : ℕ) : ℕ :=
  let newRto := if newRto < r.minrto then r.minrto else newRto
  if r.maxrto < newRto then r.maxrto else newRto

/-- `sctp_calculate_rto`; nothing comes back where signed arithmetic overflows. -/
def calculateRto (granularity : ℤ) (s : RtoState) (r : RttReading) : Option (RtoState × ℕ) := do
  let net ← (s.toRtoNet.noteLan r.fromData r.rttUs).measure r.rttMs
  let net := net.granular granularity
  let newRto ← int32 (sar net.lastsa rttShift + net.lastsv)
  let s' := { s with toRtoNet := net }.noteSat (!s.rtoMeasured) (toUint32 newRto)
  return (s', r.bound (toUint32 newRto))

def rtoStep (granularity : ℤ) (s : RtoState) (r : RttReading) : Option RtoState :=
  (calculateRto granularity s r).map Prod.fst

/-- The estimator after samples between `lo` and `hi`. -/
structure Smoothed (granularity lo hi : ℤ) (net : RtoNet) : Prop where
  le_srtt : lo ≤ net.srtt
  srtt_le : net.srtt ≤ hi
  lastsv_pos : 0 < net.lastsv
  lastsv_le : net.lastsv ≤ max (4 * hi) granularity

theorem int32_eq {z : ℤ} (h : -2 ^ 31 ≤ z) (h' : z < 2 ^ 31) : int32 z = some z :=
  if_pos ⟨h, h'⟩

section Measure

variable {granularity lo hi rtt : ℤ} {net : RtoNet}

/-- A further measure moves both averages, and nothing overflows on the way. -/
theorem nextMeasure_eq (h : Smoothed granularity lo hi net) (hg : granularity < 2 ^ 27)
    (hlo : 0 ≤ lo) (hlortt : lo ≤ rtt) (hrtthi : rtt ≤ hi) (hhi : hi < 2 ^ 27) :
    net.nextMeasure rtt =
      some { net with
        lastsa := Smooth.mean 8 net.lastsa rtt
        lastsv := Smooth.mean 4 net.lastsv |rtt - net.srtt| } := by
  obtain ⟨hge, hle, hpos, hvar⟩ := h
  have hsrtt : net.srtt = net.lastsa / 8 := rfl
  have hsv : net.lastsv < 2 ^ 30 := by
    obtain hmax | hmax := max_choice (4 * hi) granularity <;> omega
  have habs : RtoNet.magnitude (rtt - net.srtt) = some |rtt - net.srtt| := by
    unfold RtoNet.magnitude
    split
    · rename_i hneg
      rw [abs_of_neg hneg, int32_eq (by omega) (by omega)]
    · rename_i hneg
      rw [abs_of_nonneg (Int.not_lt.1 hneg)]
  have hdist : |rtt - net.srtt| ≤ hi := abs_le.2 ⟨by omega, by omega⟩
  have hdist' : 0 ≤ |rtt - net.srtt| := abs_nonneg _
  have hfirst : int32 (rtt - sar net.lastsa rttShift) = some (rtt - net.srtt) :=
    int32_eq (by change _ ≤ rtt - net.srtt; omega) (by change rtt - net.srtt < _; omega)
  have hmean : int32 (net.lastsa + (rtt - net.srtt)) = some (Smooth.mean 8 net.lastsa rtt) :=
    int32_eq (by omega) (by omega)
  have hsecond : int32 (|rtt - net.srtt| - sar net.lastsv rttVarShift) =
      some (|rtt - net.srtt| - net.lastsv / 4) :=
    int32_eq (by change _ ≤ |rtt - net.srtt| - net.lastsv / 4; omega)
      (by change |rtt - net.srtt| - net.lastsv / 4 < _; omega)
  have hspread : int32 (net.lastsv + (|rtt - net.srtt| - net.lastsv / 4)) =
      some (Smooth.mean 4 net.lastsv |rtt - net.srtt|) :=
    int32_eq (by omega) (by omega)
  simp only [RtoNet.nextMeasure, hfirst, hmean, habs, hsecond, hspread, Option.bind_eq_bind,
    Option.bind_some, Option.pure_def]

theorem Smoothed.nextMeasure (h : Smoothed granularity lo hi net) (hlo : 0 ≤ lo)
    (hlortt : lo ≤ rtt) (hrtthi : rtt ≤ hi) :
    Smoothed granularity lo hi
      { net with
        lastsa := Smooth.mean 8 net.lastsa rtt
        lastsv := Smooth.mean 4 net.lastsv |rtt - net.srtt| } := by
  obtain ⟨hge, hle, hpos, hvar⟩ := h
  have hdist : |rtt - net.srtt| ≤ hi := abs_le.2 ⟨by omega, by omega⟩
  constructor
  · exact Smooth.le_mean_ediv (by norm_num) hge hlortt
  · exact Smooth.mean_ediv_le (by norm_num) hle hrtthi
  · exact Smooth.mean_pos (by norm_num) hpos (abs_nonneg _)
  · exact Smooth.mean_le_max (by norm_num) hdist hvar

theorem firstMeasure_eq (hrtt : 0 ≤ rtt) (hbound : rtt < 2 ^ 27) :
    net.firstMeasure rtt =
      some { net with rtoMeasured := true, lastsa := rtt * 8, lastsv := rtt / 2 * 4 } := by
  have hhalf : rtt.tdiv 2 = rtt / 2 := Int.tdiv_eq_ediv_of_nonneg hrtt
  have hmean : int32 (rtt * 2 ^ rttShift) = some (rtt * 8) :=
    int32_eq (by change _ ≤ rtt * 8; omega) (by change rtt * 8 < _; omega)
  have hspread : int32 (rtt.tdiv 2 * 2 ^ rttVarShift) = some (rtt / 2 * 4) := by
    rw [hhalf]
    exact int32_eq (by change _ ≤ rtt / 2 * 4; omega) (by change rtt / 2 * 4 < _; omega)
  simp only [RtoNet.firstMeasure, hmean, hspread, Option.bind_eq_bind, Option.bind_some,
    Option.pure_def]

theorem Smoothed.granular (h : Smoothed granularity lo hi net) :
    net.granular granularity = net := by
  unfold RtoNet.granular
  exact if_neg h.lastsv_pos.ne'

/-- One measure, with the variance that is not zero. -/
theorem exists_measure (h : net.rtoMeasured = true → Smoothed granularity lo hi net)
    (hpos : 0 < granularity) (hg : granularity < 2 ^ 27) (hlo : 0 ≤ lo) (hlortt : lo ≤ rtt)
    (hrtthi : rtt ≤ hi) (hhi : hi < 2 ^ 27) :
    ∃ net', net.measure rtt = some net' ∧ (net'.granular granularity).rtoMeasured = true ∧
      Smoothed granularity lo hi (net'.granular granularity) := by
  unfold RtoNet.measure
  by_cases hmeasured : net.rtoMeasured = true
  · have hold := h hmeasured
    have hnew := hold.nextMeasure hlo hlortt hrtthi
    rw [if_pos hmeasured]
    refine ⟨_, nextMeasure_eq hold hg hlo hlortt hrtthi hhi, ?_, ?_⟩
    · rw [hnew.granular]
      exact hmeasured
    · rw [hnew.granular]
      exact hnew
  · rw [if_neg hmeasured]
    refine ⟨_, firstMeasure_eq (by omega) (by omega), ?_, ?_⟩
    · unfold RtoNet.granular
      split <;> rfl
    · have hsrtt : rtt * 8 / 8 = rtt := Int.mul_ediv_cancel rtt (by norm_num)
      have hlower : lo ≤ rtt * 8 / 8 := by omega
      have hupper : rtt * 8 / 8 ≤ hi := by omega
      unfold RtoNet.granular
      split
      · exact ⟨hlower, hupper, hpos, le_max_right _ _⟩
      · rename_i hne
        have hne : rtt / 2 * 4 ≠ 0 := hne
        refine ⟨hlower, hupper, ?_, le_max_of_le_left ?_⟩
        · change 0 < rtt / 2 * 4
          omega
        · change rtt / 2 * 4 ≤ 4 * hi
          omega

theorem Smoothed.noteLan (h : Smoothed granularity lo hi net) (fromData : Bool) (rttUs : ℕ) :
    Smoothed granularity lo hi (net.noteLan fromData rttUs) := by
  unfold RtoNet.noteLan
  dsimp only
  split <;> exact ⟨h.le_srtt, h.srtt_le, h.lastsv_pos, h.lastsv_le⟩

theorem rtoMeasured_noteLan (net : RtoNet) (fromData : Bool) (rttUs : ℕ) :
    (net.noteLan fromData rttUs).rtoMeasured = net.rtoMeasured := by
  unfold RtoNet.noteLan
  dsimp only
  split <;> rfl

theorem noteSat_toRtoNet (s : RtoState) (first : Bool) (newRto : ℕ) :
    (s.noteSat first newRto).toRtoNet = s.toRtoNet := by
  unfold RtoState.noteSat
  split
  · rfl
  · split <;> rfl

end Measure

/-- What a call returns lies between the bounds, and is no less than the value that it bounds unless
it is the upper one. -/
theorem RttReading.bound_spec {r : RttReading} (h : r.minrto ≤ r.maxrto) (newRto : ℕ) :
    r.minrto ≤ r.bound newRto ∧ r.bound newRto ≤ r.maxrto ∧
      (r.bound newRto = r.maxrto ∨ newRto ≤ r.bound newRto) := by
  unfold RttReading.bound
  dsimp only
  split <;> split <;> omega

structure RtoBounded (granularity lo hi : ℤ) (r : RttReading) (s : RtoState) (rto : ℕ) : Prop where
  measured : s.rtoMeasured = true
  smoothed : Smoothed granularity lo hi s.toRtoNet
  minrto_le : r.minrto ≤ r.maxrto → r.minrto ≤ rto
  le_maxrto : r.minrto ≤ r.maxrto → rto ≤ r.maxrto
  srtt_le : r.minrto ≤ r.maxrto → rto = r.maxrto ∨ s.srtt ≤ rto

theorem exists_calculateRto {granularity lo hi : ℤ} {s : RtoState} {r : RttReading}
    (h : s.rtoMeasured = true → Smoothed granularity lo hi s.toRtoNet)
    (hpos : 0 < granularity) (hg : granularity < 2 ^ 27) (hlo : 0 ≤ lo) (hlortt : lo ≤ r.rttMs)
    (hrtthi : r.rttMs ≤ hi) (hhi : hi < 2 ^ 27) :
    ∃ s' rto, calculateRto granularity s r = some (s', rto) ∧
      RtoBounded granularity lo hi r s' rto := by
  have hlan : (s.toRtoNet.noteLan r.fromData r.rttUs).rtoMeasured = true →
      Smoothed granularity lo hi (s.toRtoNet.noteLan r.fromData r.rttUs) := by
    rw [rtoMeasured_noteLan]
    exact fun hmeasured => (h hmeasured).noteLan _ _
  obtain ⟨net, hnet, hmeasured, hsmoothed⟩ :=
    exists_measure hlan hpos hg hlo hlortt hrtthi hhi
  obtain ⟨hge, hle, hsvpos, hsvle⟩ := id hsmoothed
  generalize hnet' : net.granular granularity = net' at *
  have hsv : net'.lastsv < 2 ^ 30 := by
    obtain hmax | hmax := max_choice (4 * hi) granularity <;> omega
  have hrto : int32 (sar net'.lastsa rttShift + net'.lastsv) = some (net'.srtt + net'.lastsv) :=
    int32_eq (by change _ ≤ net'.srtt + net'.lastsv; omega)
      (by change net'.srtt + net'.lastsv < _; omega)
  have hu32 : (toUint32 (net'.srtt + net'.lastsv) : ℤ) = net'.srtt + net'.lastsv := by
    rw [toUint32, Int.emod_eq_of_lt (by omega) (by omega)]
    omega
  generalize hnew : toUint32 (net'.srtt + net'.lastsv) = newRto at *
  refine ⟨{ s with toRtoNet := net' }.noteSat (!s.rtoMeasured) newRto, r.bound newRto, ?_, ?_⟩
  · simp only [calculateRto, hnet, hnet', hrto, hnew, Option.bind_eq_bind, Option.bind_some,
      Option.pure_def]
  · constructor
    · rw [noteSat_toRtoNet]
      exact hmeasured
    · rw [noteSat_toRtoNet]
      exact hsmoothed
    · exact fun hbounds => (RttReading.bound_spec hbounds newRto).1
    · exact fun hbounds => (RttReading.bound_spec hbounds newRto).2.1
    · intro hbounds
      rw [noteSat_toRtoNet]
      refine (RttReading.bound_spec hbounds newRto).2.2.imp_right fun hnewle => ?_
      change net'.srtt ≤ _
      omega

theorem clockGranularity_bounds (freeBSD : Bool) :
    0 < clockGranularity freeBSD ∧ clockGranularity freeBSD < 2 ^ 27 := by
  cases freeBSD <;> decide

/-- After any samples that fit, no signed value has overflowed, and the next call leaves the averages
and the timeout within their bounds. -/
theorem calculateRto_bounded (freeBSD : Bool) {s : RtoState} (hfresh : s.rtoMeasured = false)
    (rs : List RttReading) (r : RttReading)
    (hsamples : ∀ x ∈ rs ++ [r], 0 ≤ x.rttMs ∧ x.rttMs < 2 ^ 27) :
    ∃ lo ∈ (rs ++ [r]).map RttReading.rttMs, ∃ hi ∈ (rs ++ [r]).map RttReading.rttMs,
      (∀ x ∈ rs ++ [r], lo ≤ x.rttMs ∧ x.rttMs ≤ hi) ∧
      ∃ t s' rto, Trace.run (rtoStep (clockGranularity freeBSD)) s rs = some t ∧
        calculateRto (clockGranularity freeBSD) t r = some (s', rto) ∧
        RtoBounded (clockGranularity freeBSD) lo hi r s' rto := by
  obtain ⟨hpos, hg⟩ := clockGranularity_bounds freeBSD
  have hlen : 0 < ((rs ++ [r]).map RttReading.rttMs).length := by simp
  have hlomem := List.minimum_of_length_pos_mem hlen
  have hhimem := List.maximum_of_length_pos_mem hlen
  have hlole (x : RttReading) (hx : x ∈ rs ++ [r]) :=
    List.minimum_of_length_pos_le_of_mem (List.mem_map_of_mem hx) hlen
  have hlehi (x : RttReading) (hx : x ∈ rs ++ [r]) :=
    List.le_maximum_of_length_pos_of_mem (List.mem_map_of_mem hx) hlen
  generalize List.minimum_of_length_pos hlen = lo at *
  generalize List.maximum_of_length_pos hlen = hi at *
  have hlo : 0 ≤ lo := by
    obtain ⟨x, hx, rfl⟩ := List.mem_map.1 hlomem
    exact (hsamples x hx).1
  have hhi : hi < 2 ^ 27 := by
    obtain ⟨x, hx, rfl⟩ := List.mem_map.1 hhimem
    exact (hsamples x hx).2
  refine ⟨lo, hlomem, hi, hhimem, fun x hx => ⟨hlole x hx, hlehi x hx⟩, ?_⟩
  have halong : Trace.Along (rtoStep (clockGranularity freeBSD))
      (fun _ x => lo ≤ x.rttMs ∧ x.rttMs ≤ hi) s rs := by
    refine Trace.along_of_forall (fun x hx => ?_) s
    have hx : x ∈ rs ++ [r] := List.mem_append_left _ hx
    exact ⟨hlole x hx, hlehi x hx⟩
  obtain ⟨t, ht, hinv⟩ := Trace.run_progress
    (fun t => t.rtoMeasured = true → Smoothed (clockGranularity freeBSD) lo hi t.toRtoNet)
    (fun t x hinv hx => by
      obtain ⟨s', rto, hcall, hbounded⟩ := exists_calculateRto hinv hpos hg hlo hx.1 hx.2 hhi
      refine ⟨s', ?_, fun _ => hbounded.smoothed⟩
      rw [rtoStep, hcall]
      rfl)
    (fun hmeasured => absurd hmeasured (by rw [hfresh]; exact Bool.false_ne_true)) halong
  have hr : r ∈ rs ++ [r] := List.mem_append_right _ (List.mem_singleton_self r)
  obtain ⟨s', rto, hcall, hbounded⟩ :=
    exists_calculateRto hinv hpos hg hlo (hlole r hr) (hlehi r hr) hhi
  exact ⟨t, s', rto, ht, hcall, hbounded⟩

def slowReading : RttReading := ⟨⟨5, 120000⟩, ⟨5, 0⟩, true, 1000, 60000⟩
def fastReading : RttReading := ⟨⟨7, 0⟩, ⟨6, 920000⟩, true, 100, 60000⟩

def freshRto : RtoState := ⟨⟨0, .lanUnknown, false, 0, 0⟩, false, false⟩

theorem slowThenFast_bounded :
    ∃ t s' rto, Trace.run (rtoStep 1) freshRto [slowReading] = some t ∧
      calculateRto 1 t fastReading = some (s', rto) ∧
      100 ≤ rto ∧ rto ≤ 60000 ∧ 80 ≤ s'.srtt ∧ s'.srtt ≤ 120 := by
  have hms : [slowReading, fastReading].map RttReading.rttMs = [120, 80] := by decide +kernel
  have hfits : ∀ x ∈ [slowReading] ++ [fastReading], 0 ≤ x.rttMs ∧ x.rttMs < 2 ^ 27 := by
    decide +kernel
  obtain ⟨lo, hlo, hi, hhi, -, t, s', rto, hrun, hcall, hbounded⟩ :=
    calculateRto_bounded true (s := freshRto) rfl [slowReading] fastReading hfits
  have hsamples : ∀ x ∈ [(120 : ℤ), 80], 80 ≤ x ∧ x ≤ 120 := by decide
  rw [List.singleton_append, hms] at hlo hhi
  refine ⟨t, s', rto, hrun, hcall, hbounded.minrto_le (by decide), hbounded.le_maxrto (by decide),
    ?_⟩
  exact ⟨(hsamples lo hlo).1.trans hbounded.smoothed.le_srtt,
    hbounded.smoothed.srtt_le.trans (hsamples hi hhi).2⟩

end Sctp
