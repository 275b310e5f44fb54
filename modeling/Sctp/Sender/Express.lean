import Mathlib.Data.List.TakeWhile
import Sctp.Sender.HandleSack

/-! Where the express SACK handler agrees with the full one. -/
namespace Sctp
open Ledger

variable {n : ℕ}

def blankNet : Net :=
  { netAck := 0, netAck2 := 0, windowProbe := false, sawNewack := false
    thisSackHighestNewack := 0, pf := false }

/-- Everything but the destinations and the highest gap. -/
def Sender.bare (s : Sender n) : Sender n :=
  { s with nets := fun _ => blankNet, thisSackHighestGap := 0 }

def TimerLoop.bare (t : TimerLoop n) : TimerLoop n := { t with toSender := t.toSender.bare }

/-- One destination, with the probe flags given from outside. -/
def probeTimer (probes : Fin n → Bool) (t : TimerLoop n) (i : Fin n) : TimerLoop n :=
  let s := if probes i then recoverFirstProbe t.toSender else t.toSender
  { toSender := s
    busy := if s.flightSize i = 0 then t.busy else t.busy + 1
    winProbeRecovered := t.winProbeRecovered || probes i }

theorem bare_recoverFirstProbe (s : Sender n) :
    (recoverFirstProbe s).bare = recoverFirstProbe s.bare := by
  have hq : s.bare.sentQueue = s.sentQueue := rfl
  unfold recoverFirstProbe
  rw [hq]
  split
  · rfl
  · rename_i i _
    cases s.sentQueue[i]? with
    | none => rfl
    | some c =>
      simp only [windowProbeRecovery]
      split <;> rfl

theorem recoverFirstProbe_nets (s : Sender n) : (recoverFirstProbe s).nets = s.nets := by
  unfold recoverFirstProbe
  split
  · rfl
  · split
    · rfl
    · simp only [windowProbeRecovery]
      split <;> rfl

section Loop

variable (recovery clearIdle : Bool)

theorem assureTimer_bare (t : TimerLoop n) (i : Fin n) {probes : Fin n → Bool}
    (hp : (recovery && (t.nets i).windowProbe) = probes i) :
    (assureTimer recovery clearIdle t i).bare = probeTimer probes t.bare i := by
  have hs : (probeRecovered recovery t.toSender i).bare =
      if probes i then recoverFirstProbe t.bare.toSender else t.bare.toSender := by
    simp only [probeRecovered, hp]
    split
    · exact bare_recoverFirstProbe t.toSender
    · rfl
  have hf : (probeRecovered recovery t.toSender i).flightSize =
      (if probes i then recoverFirstProbe t.bare.toSender else t.bare.toSender).flightSize := by
    rw [← hs]
    rfl
  have hb : (if clearIdle || (probeRecovered recovery t.toSender i).flightSize i != 0 then
      clearProbe (probeRecovered recovery t.toSender i) i
      else probeRecovered recovery t.toSender i).bare =
      if probes i then recoverFirstProbe t.bare.toSender else t.bare.toSender := by
    rw [← hs]
    split <;> rfl
  have hbusy : (assureTimer recovery clearIdle t i).busy = (probeTimer probes t.bare i).busy := by
    simp only [assureTimer, probeTimer, hf]
    rfl
  have hrec : (assureTimer recovery clearIdle t i).winProbeRecovered =
      (probeTimer probes t.bare i).winProbeRecovered := by
    simp only [assureTimer, probeTimer, hp]
    rfl
  calc (assureTimer recovery clearIdle t i).bare
      _ = { toSender := (assureTimer recovery clearIdle t i).toSender.bare
            busy := (assureTimer recovery clearIdle t i).busy
            winProbeRecovered := (assureTimer recovery clearIdle t i).winProbeRecovered } := rfl
      _ = probeTimer probes t.bare i := by
        rw [hbusy, hrec, show (assureTimer recovery clearIdle t i).toSender.bare = _ from hb]
        rfl

theorem assureTimer_nets (t : TimerLoop n) (i j : Fin n) :
    ((assureTimer recovery clearIdle t i).nets j).windowProbe =
      ((t.nets j).windowProbe && !(decide (i = j) &&
        (clearIdle || (probeRecovered recovery t.toSender i).flightSize i != 0))) := by
  have hn : (probeRecovered recovery t.toSender i).nets = t.nets := by
    unfold probeRecovered
    split
    · exact recoverFirstProbe_nets t.toSender
    · rfl
  simp only [assureTimer]
  split
  · rename_i hc
    simp only [clearProbe, Asoc.setNet, hn, hc]
    by_cases hij : i = j
    · subst hij
      simp
    · simp [Function.update_of_ne (Ne.symm hij), hij]
  · rename_i hc
    simp [hn, Bool.not_eq_true _ ▸ hc]

theorem foldl_assureTimer_bare (probes : Fin n → Bool) (is : List (Fin n)) (hnd : is.Nodup)
    (t : TimerLoop n)
    (hp : ∀ i ∈ is, (recovery && (t.nets i).windowProbe) = probes i) :
    (is.foldl (assureTimer recovery clearIdle) t).bare = is.foldl (probeTimer probes) t.bare := by
  induction is generalizing t with
  | nil => rfl
  | cons i is ih =>
    obtain ⟨hi, hnd⟩ := List.nodup_cons.1 hnd
    rw [List.foldl_cons, List.foldl_cons, ← assureTimer_bare recovery clearIdle t i (hp i (by simp))]
    apply ih hnd
    intro j hj
    have hij : i ≠ j := fun e => hi (e ▸ hj)
    rw [assureTimer_nets, ← hp j (by simp [hj])]
    simp [hij]

/-- Flags are only taken off. -/
theorem foldl_assureTimer_nets (is : List (Fin n)) (t : TimerLoop n) (j : Fin n)
    (h : (t.nets j).windowProbe = false) :
    ((is.foldl (assureTimer recovery clearIdle) t).nets j).windowProbe = false := by
  apply List.foldlRecOn (motive := fun t : TimerLoop n => (t.nets j).windowProbe = false)
  · exact h
  · intro t ht i _
    rw [assureTimer_nets, ht]
    rfl

end Loop

theorem foldl_probeTimer_recovered (probes : Fin n → Bool) (is : List (Fin n)) (t : TimerLoop n) :
    (is.foldl (probeTimer probes) t).winProbeRecovered =
      (t.winProbeRecovered || is.any probes) := by
  induction is generalizing t with
  | nil => simp
  | cons i is ih =>
    rw [List.foldl_cons, ih]
    simp [probeTimer, Bool.or_assoc]

/-- The association behind the loop when these probes are recovered. -/
def probeAll (probes : Fin n → Bool) (s : Sender n) : TimerLoop n :=
  (List.finRange n).foldl (probeTimer probes) { toSender := s, busy := 0, winProbeRecovered := false }

/-- The audit takes place when the loop found nothing to do. -/
def probeAgain (probes : Fin n → Bool) (s : Sender n) : Sender n :=
  if (probeAll probes s).suspicious then auditFlight (probeAll probes s).toSender
  else (probeAll probes s).toSender

theorem foldl_probeTimer_false (is : List (Fin n)) (t : TimerLoop n) :
    (is.foldl (probeTimer fun _ => false) t).toSender = t.toSender := by
  apply List.foldlRecOn (motive := fun u : TimerLoop n => u.toSender = t.toSender)
  · rfl
  · intro u hu i _
    exact hu

theorem bare_auditFlight (s : Sender n) : (auditFlight s).bare = auditFlight s.bare := by
  have hf : fsAudit s.bare = fsAudit s := rfl
  unfold auditFlight
  rw [hf]
  split <;> rfl

/-- What the part behind `again` does to everything but the destinations. -/
theorem againLoop_bare (recovery clearIdle : Bool) (s : Sender n) :
    (againLoop recovery clearIdle s).bare =
      probeAgain (fun i => recovery && (s.nets i).windowProbe) s.bare := by
  have h1 := foldl_assureTimer_bare recovery clearIdle
    (fun i => recovery && (s.nets i).windowProbe) (List.finRange n) (List.nodup_finRange n)
    { toSender := s, busy := 0, winProbeRecovered := false } (fun i _ => rfl)
  have hall : (assureTimers recovery clearIdle s false).bare =
      probeAll (fun i => recovery && (s.nets i).windowProbe) s.bare := h1
  have hsus : (assureTimers recovery clearIdle s false).suspicious =
      (probeAll (fun i => recovery && (s.nets i).windowProbe) s.bare).suspicious := by
    rw [← hall]
    rfl
  simp only [againLoop, probeAgain, hsus, ← hall]
  split
  · rename_i hsuspicious
    -- no probe was recovered in the first round, so there is none in the second
    have hrec : (probeAll (fun i => recovery && (s.nets i).windowProbe) s.bare).winProbeRecovered
        = false := by
      simp only [TimerLoop.suspicious, hall, Bool.and_eq_true, Bool.not_eq_true'] at hsuspicious
      exact hsuspicious.2
    rw [probeAll, foldl_probeTimer_recovered, Bool.false_or, List.any_eq_false] at hrec
    have hnone : ∀ i ∈ List.finRange n, (recovery &&
        ((auditFlight (assureTimers recovery clearIdle s false).toSender).nets i).windowProbe) =
        false := by
      intro i hi
      have hi0 := hrec i hi
      have hnets : (auditFlight (assureTimers recovery clearIdle s false).toSender).nets =
          (assureTimers recovery clearIdle s false).nets := by
        unfold auditFlight
        split <;> rfl
      rw [hnets]
      cases hr : recovery with
      | false => rfl
      | true =>
        rw [hr] at hi0
        simp only [Bool.true_and, Bool.not_eq_true] at hi0 ⊢
        exact foldl_assureTimer_nets true clearIdle _ _ i hi0
    have h2 := foldl_assureTimer_bare recovery clearIdle (fun _ => false) (List.finRange n)
      (List.nodup_finRange n)
      { toSender := auditFlight (assureTimers recovery clearIdle s false).toSender
        busy := 0
        winProbeRecovered := (assureTimers recovery clearIdle s false).winProbeRecovered } hnone
    have h3 := congrArg TimerLoop.toSender h2
    rw [foldl_probeTimer_false] at h3
    exact h3.trans (bare_auditFlight _)
  · rfl

/-- The destination without the flag that only fast retransmission reads. -/
def Net.unsaw (net : Net) : Net := { net with sawNewack := false }

theorem Net.unsaw_exitPf (net : Net) : net.exitPf.unsaw = net.unsaw.exitPf := by
  rcases net with ⟨ack, ack2, probe, saw, highest, pf⟩
  cases pf with
  | false => simp [exitPf, unsaw]
  | true =>
    by_cases h : 0 < ack2
    · simp [exitPf, unsaw, h]
    · simp [exitPf, unsaw, h]

namespace Asoc

def unsaw (s : Asoc n) : Asoc n := { s with nets := fun i => (s.nets i).unsaw }

theorem unsaw_setNet (s : Asoc n) (i : Fin n) (net : Net) :
    (s.setNet i net).unsaw = s.unsaw.setNet i net.unsaw := by
  have h : (fun j => (Function.update s.nets i net j).unsaw) =
      Function.update (fun j => (s.nets j).unsaw) i net.unsaw := by
    funext j
    by_cases hj : j = i
    · subst hj
      simp
    · simp [Function.update_of_ne hj]
  simp only [unsaw, setNet, h]

theorem unsaw_creditNet (s : Asoc n) (c : SentChunk n) :
    (s.creditNet c).unsaw = s.unsaw.creditNet c := by
  rw [creditNet, unsaw_setNet]
  rfl

theorem unsaw_ackChunk (s : Asoc n) (c : SentChunk n) :
    (s.ackChunk c).unsaw = s.unsaw.ackChunk c := by
  unfold ackChunk
  split_ifs
  · rw [unsaw_creditNet]
    rfl
  · show ((s.creditNet c).unsaw).retranDecr = _
    rw [unsaw_creditNet]
  · exact unsaw_creditNet s c
  · rfl

theorem unsaw_cwndUpdateAfterSack (s : Asoc n) (ecneSeen : Bool) :
    (s.cwndUpdateAfterSack ecneSeen).unsaw = s.unsaw.cwndUpdateAfterSack ecneSeen := by
  have hnets : s.exitPf.unsaw.nets = s.unsaw.exitPf.nets := by
    funext i
    exact Net.unsaw_exitPf (s.nets i)
  have hack : ∀ i, (s.exitPf.nets i).netAck = (s.unsaw.exitPf.nets i).netAck := by
    intro i
    rw [← hnets]
    rfl
  have hack2 : ∀ i, (s.exitPf.nets i).netAck2 = (s.unsaw.exitPf.nets i).netAck2 := by
    intro i
    rw [← hnets]
    rfl
  unfold cwndUpdateAfterSack
  split
  · rfl
  · simp only [hack, hack2]
    show ({ s.exitPf.unsaw with cwndInput := _ } : Asoc n) = _
    have hun : s.exitPf.unsaw = s.unsaw.exitPf := by
      calc s.exitPf.unsaw
          _ = { s.unsaw with nets := s.exitPf.unsaw.nets } := rfl
          _ = s.unsaw.exitPf := by rw [hnets]; rfl
    rw [hun]

/-- Acking a chunk and dropping another touch different fields. -/
theorem ackChunk_dropChunk (s : Asoc n) (c d : SentChunk n) :
    (s.dropChunk c).ackChunk d = (s.ackChunk d).dropChunk c := by
  unfold dropChunk ackChunk
  split_ifs <;> rfl

theorem foldl_ack_drop (l : List (SentChunk n)) (s : Asoc n) :
    l.foldl (fun s c => (s.ackChunk c).dropChunk c) s =
      l.foldl dropChunk (l.foldl ackChunk s) := by
  have hcomm : ∀ (l : List (SentChunk n)) (s : Asoc n) (c : SentChunk n),
      l.foldl ackChunk (s.dropChunk c) = (l.foldl ackChunk s).dropChunk c := by
    intro l
    induction l with
    | nil => intro s c; rfl
    | cons d l ih =>
      intro s c
      rw [List.foldl_cons, List.foldl_cons, ackChunk_dropChunk, ih]
  induction l generalizing s with
  | nil => rfl
  | cons c l ih =>
    simp only [List.foldl_cons]
    rw [ih, hcomm]

theorem unsaw_foldl_ackChunk (l : List (SentChunk n)) (s : Asoc n) :
    (l.foldl ackChunk s).unsaw = l.foldl ackChunk s.unsaw := by
  induction l generalizing s with
  | nil => rfl
  | cons c l ih => rw [List.foldl_cons, List.foldl_cons, ih, unsaw_ackChunk]

theorem unsaw_foldl_dropChunk (l : List (SentChunk n)) (s : Asoc n) :
    (l.foldl dropChunk s).unsaw = l.foldl dropChunk s.unsaw := by
  induction l generalizing s with
  | nil => rfl
  | cons c l ih =>
    have hd : (s.dropChunk c).unsaw = s.unsaw.dropChunk c := by
      unfold dropChunk
      split <;> rfl
    rw [List.foldl_cons, List.foldl_cons, ih, hd]

end Asoc

theorem unsaw_ack (s : CumAcks n) (c : SentChunk n) :
    (s.ack c).toAsoc.unsaw = s.toAsoc.unsaw.ackChunk c := by
  rw [← Asoc.unsaw_ackChunk]
  unfold CumAcks.ack
  split
  · show (Asoc.setNet _ _ _).unsaw = _
    rw [Asoc.unsaw_setNet]
    have hself : Function.update ((s.toAsoc.ackChunk c).unsaw.nets) c.whoTo
        ((s.toAsoc.ackChunk c).nets c.whoTo).unsaw =
        (s.toAsoc.ackChunk c).unsaw.nets := Function.update_eq_self c.whoTo _
    show (s.toAsoc.ackChunk c).unsaw.setNet c.whoTo ((s.toAsoc.ackChunk c).nets c.whoTo).unsaw = _
    rw [Asoc.setNet, hself]
  · rfl

theorem unsaw_foldl_ack (l : List (SentChunk n)) (s : CumAcks n) :
    (l.foldl CumAcks.ack s).toAsoc.unsaw = l.foldl Asoc.ackChunk s.toAsoc.unsaw := by
  induction l generalizing s with
  | nil => rfl
  | cons c l ih => rw [List.foldl_cons, List.foldl_cons, ih, unsaw_ack]

/-- The chunks the cumulative ack passes, and those behind them. -/
def covered (cumAck : Tsn) (q : List (SentChunk n)) : List (SentChunk n) :=
  q.takeWhile fun c => tsnGe cumAck c.tsn

def uncovered (cumAck : Tsn) (q : List (SentChunk n)) : List (SentChunk n) :=
  q.dropWhile fun c => tsnGe cumAck c.tsn

section Walks

variable (cumAck : Tsn)

theorem walk_expressAck (s : Asoc n) (q : List (SentChunk n)) :
    walk (expressAck cumAck) s q =
      ((covered cumAck q).foldl (fun s c => (s.ackChunk c).dropChunk c) s, uncovered cumAck q) := by
  induction q generalizing s with
  | nil => rfl
  | cons c q ih =>
    by_cases hge : tsnGe cumAck c.tsn = true
    · rw [walk_cons_some (by rw [expressAck, if_pos hge]), ih]
      simp [covered, uncovered, hge]
    · rw [walk_cons_none (by rw [expressAck, if_neg hge])]
      simp [covered, uncovered, hge]

theorem walk_markCumAcked (s : CumAcks n) (q : List (SentChunk n))
    (hq : ∀ c ∈ q, c.sent ≠ datagramUnsent) :
    walk (markCumAcked cumAck) s q =
      ((covered cumAck q).foldl CumAcks.ack s,
        (covered cumAck q).map cumAckedChunk ++ uncovered cumAck q) := by
  induction q generalizing s with
  | nil => rfl
  | cons c q ih =>
    by_cases hge : tsnGe cumAck c.tsn = true
    · rw [walk_cons_some (by rw [markCumAcked, if_pos hge, if_neg (hq c (by simp))]),
        ih _ (fun d hd => hq d (by simp [hd]))]
      simp [covered, uncovered, hge]
    · rw [walk_cons_none (by rw [markCumAcked, if_neg hge])]
      simp [covered, uncovered, hge]

theorem not_tsnGt_of_tsnGe {a b : Tsn} (h : tsnGe a b = true) : tsnGt b a ≠ true := by
  rw [tsnGe_iff] at h
  rw [Ne, tsnGt_iff]
  intro h'
  have hneg : b - a = -(a - b) := by bv_omega
  rw [hneg, BitVec.toInt_neg] at h'
  have h1 := BitVec.toInt_lt (x := a - b)
  have hb : (-(a - b).toInt).bmod (2 ^ 32) = -(a - b).toInt := by
    apply Int.bmod_eq_of_le_mul_two <;> omega
  rw [hb] at h'
  omega

/-- Without PR-SCTP policies the drop loop frees the marked chunks and what is not above the
cumulative ack behind them. -/
theorem walk_dropCumAcked (cfg : SenderConfig) (s : Asoc n) (l r : List (SentChunk n))
    (hl : ∀ c ∈ l, tsnGe cumAck c.tsn = true) (hpr : ∀ c ∈ l, prSctpEnabled c.flags = false) :
    walk (dropCumAcked cfg cumAck) s (l.map cumAckedChunk ++ r) =
      walk (dropCumAcked cfg cumAck) (l.foldl Asoc.dropChunk s) r := by
  induction l generalizing s with
  | nil => rfl
  | cons c l ih =>
    have hgt : tsnGt c.tsn cumAck ≠ true := not_tsnGt_of_tsnGe (hl c (by simp))
    have hpr0 := hpr c (by simp)
    have hbuf : prSctpBufEnabled c.flags = false := by
      simp only [prSctpEnabled, prSctpBufEnabled, bne_eq_false_iff_eq, Bool.and_eq_false_iff] at hpr0 ⊢
      rw [beq_eq_false_iff_ne]
      intro h2
      rw [h2] at hpr0
      rcases hpr0 with h0 | h0 <;> exact absurd h0 (by decide)
    have hdrop : (s.dropChunk (cumAckedChunk c)).dropPrSctp cfg (cumAckedChunk c) =
        s.dropChunk c := by
      have h1 : s.dropChunk (cumAckedChunk c) = s.dropChunk c := by
        have hnr : ((cumAckedChunk c).sent = datagramNrAcked) = (c.sent = datagramNrAcked) := by
          simp only [cumAckedChunk, eq_iff_iff]
          split_ifs with h
          · exact Iff.rfl
          · exact ⟨fun h' => absurd h' (by decide), fun h' => absurd h' h⟩
        simp only [Asoc.dropChunk, hnr]
        rfl
      rw [h1]
      have hfl : (cumAckedChunk c).flags = c.flags := rfl
      simp only [Asoc.dropPrSctp, hfl, hpr0, hbuf]
      simp
    rw [List.map_cons, List.cons_append,
      walk_cons_some (by rw [dropCumAcked, if_neg (show tsnGt (cumAckedChunk c).tsn cumAck ≠ true from hgt),
        hdrop]),
      List.nil_append, ih _ (fun d hd => hl d (by simp [hd])) (fun d hd => hpr d (by simp [hd]))]
    rfl

end Walks

/-- The association when the cumulative ack is worked in: the passed chunks are acked and freed
and the congestion control has heard of it. -/
def ackedSender (cumAck : Tsn) (ecneSeen : Bool) (s : Sender n) : Sender n :=
  let a := { s.toAsoc.resetNets with thisSackHighestGap := cumAck }
  let l := covered cumAck s.sentQueue
  Sender.syncFlight
    { toAsoc :=
        { (l.foldl Asoc.dropChunk (l.foldl Asoc.ackChunk a)).cwndUpdateAfterSack ecneSeen with
          lastAckedSeq := cumAck }
      sentQueue := uncovered cumAck s.sentQueue }

theorem expressMove_eq {cumAck : Tsn} {s : Sender n} (ecneSeen : Bool)
    (h : tsnGt cumAck s.lastAckedSeq = true) :
    expressMove cumAck ecneSeen s = ackedSender cumAck ecneSeen s := by
  have hgt : tsnGt cumAck
      ({ s.toAsoc.resetNets with thisSackHighestGap := cumAck } : Asoc n).lastAckedSeq = true := h
  simp only [expressMove, ackedSender, hgt, if_true, walk_expressAck, Asoc.foldl_ack_drop]

theorem foldl_ack_gap (l : List (SentChunk n)) (s : Asoc n) (g : Tsn) :
    l.foldl Asoc.ackChunk { s with thisSackHighestGap := g } =
      { l.foldl Asoc.ackChunk s with thisSackHighestGap := g } := by
  induction l generalizing s with
  | nil => rfl
  | cons c l ih =>
    have hc : ({ s with thisSackHighestGap := g } : Asoc n).ackChunk c =
        { s.ackChunk c with thisSackHighestGap := g } := by
      unfold Asoc.ackChunk
      split_ifs <;> rfl
    rw [List.foldl_cons, List.foldl_cons, hc, ih]

theorem foldl_drop_lastAcked (l : List (SentChunk n)) (s : Asoc n) (t : Tsn) :
    l.foldl Asoc.dropChunk { s with lastAckedSeq := t } =
      { l.foldl Asoc.dropChunk s with lastAckedSeq := t } := by
  induction l generalizing s with
  | nil => rfl
  | cons c l ih =>
    have hc : ({ s with lastAckedSeq := t } : Asoc n).dropChunk c =
        { s.dropChunk c with lastAckedSeq := t } := by
      unfold Asoc.dropChunk
      split <;> rfl
    rw [List.foldl_cons, List.foldl_cons, hc, ih]

/-- The first chunk the cumulative ack does not pass is ahead of it. -/
def AheadOf (cumAck : Tsn) (q : List (SentChunk n)) : Prop :=
  ∀ c ∈ (uncovered cumAck q).head?, tsnGt c.tsn cumAck = true

theorem walk_drop_uncovered {cumAck : Tsn} {q : List (SentChunk n)} (cfg : SenderConfig)
    (s : Asoc n) (h : AheadOf cumAck q) :
    walk (dropCumAcked cfg cumAck) s (uncovered cumAck q) = (s, uncovered cumAck q) := by
  cases hq : uncovered cumAck q with
  | nil => rfl
  | cons c r =>
    have hc := h c (by rw [hq]; rfl)
    rw [walk_cons_none (by simp [dropCumAcked, hc])]

/-- Acks leave everything but flights and destinations alone. -/
theorem foldl_ack_frame (l : List (SentChunk n)) (s : Asoc n) :
    ∃ f ns, l.foldl Asoc.ackChunk s = { s with toFlight := f, nets := ns } := by
  induction l generalizing s with
  | nil => exact ⟨s.toFlight, s.nets, rfl⟩
  | cons c l ih =>
    have hc : ∃ f ns, s.ackChunk c = { s with toFlight := f, nets := ns } := by
      unfold Asoc.ackChunk
      split_ifs <;> exact ⟨_, _, rfl⟩
    obtain ⟨f, ns, hc⟩ := hc
    rw [List.foldl_cons, hc]
    exact ih _

/-- Drops leave everything but the queue counts alone. -/
theorem foldl_drop_frame (l : List (SentChunk n)) (s : Asoc n) :
    ∃ q k, l.foldl Asoc.dropChunk s = { s with chunksOnQueues := q, sentQueueCnt := k } := by
  induction l generalizing s with
  | nil => exact ⟨s.chunksOnQueues, s.sentQueueCnt, rfl⟩
  | cons c l ih =>
    have hc : ∃ q k, s.dropChunk c = { s with chunksOnQueues := q, sentQueueCnt := k } := by
      unfold Asoc.dropChunk
      split <;> exact ⟨_, _, rfl⟩
    obtain ⟨q, k, hc⟩ := hc
    rw [List.foldl_cons, hc]
    exact ih _

/-- Without blocks, and none before, nothing is revoked. -/
theorem revokePart_eq {sack : Sack n} (hseg : sack.segs = []) (hnr : sack.nrSegs = [])
    (biggest : Tsn) {s : Sender n} (hfrags : s.sawSackWithFrags = false)
    (hnfrags : s.sawSackWithNrFrags = false) : revokePart sack biggest s = s := by
  have heta : ∀ b b', s.sawSackWithFrags = b → s.sawSackWithNrFrags = b' →
      ({ s with sawSackWithFrags := b, sawSackWithNrFrags := b' } : Sender n) = s := by
    rintro _ _ rfl rfl
    rfl
  simp only [revokePart, hseg, hnr, hfrags, List.isEmpty_nil, Bool.not_true, Bool.false_eq_true,
    if_false]
  exact heta false false hfrags hnfrags

theorem cwndUpdateAfterSack_lastAcked (s : Asoc n) (ecneSeen : Bool) (t : Tsn) :
    ({ s with lastAckedSeq := t } : Asoc n).cwndUpdateAfterSack ecneSeen =
      { s.cwndUpdateAfterSack ecneSeen with lastAckedSeq := t } := by
  cases ecneSeen <;> rfl

theorem cwndUpdateAfterSack_setFlight (s : Asoc n) (ecneSeen : Bool) (f : Flight n) :
    ({ s with toFlight := f } : Asoc n).cwndUpdateAfterSack ecneSeen =
      { s.cwndUpdateAfterSack ecneSeen with toFlight := f } := by
  cases ecneSeen <;> rfl

section Settle

variable {cfg : SenderConfig} {sack : Sack n} {s : Sender n}

/-- The marked and freed chunks, up to the flag of the destinations. -/
theorem dropPart_agrees (cfg : SenderConfig) (hsent : ∀ c ∈ s.sentQueue, c.sent ≠ datagramUnsent)
    (hpr : ∀ c ∈ s.sentQueue, prSctpEnabled c.flags = false)
    (hahead : AheadOf sack.cumAck s.sentQueue) :
    ∃ a : Asoc n,
      dropPart cfg sack (cumAckPart sack s).toSender =
        { toAsoc := if (uncovered sack.cumAck s.sentQueue).isEmpty && decide (0 < a.totalFlight)
            then { a with totalFlight := 0 } else a
          sentQueue := uncovered sack.cumAck s.sentQueue } ∧
      a.unsaw = { ((covered sack.cumAck s.sentQueue).foldl Asoc.dropChunk
        ((covered sack.cumAck s.sentQueue).foldl Asoc.ackChunk
          { s.toAsoc.resetNets with thisSackHighestGap := sack.cumAck })).unsaw with
        lastAckedSeq := sack.cumAck } := by
  have hcov : ∀ c ∈ covered sack.cumAck s.sentQueue, tsnGe sack.cumAck c.tsn = true :=
    fun c hc => List.mem_takeWhile_imp (p := fun c : SentChunk n => tsnGe sack.cumAck c.tsn) hc
  have hmem : ∀ c ∈ covered sack.cumAck s.sentQueue, c ∈ s.sentQueue :=
    fun c hc => (List.takeWhile_sublist _).subset hc
  refine ⟨(covered sack.cumAck s.sentQueue).foldl Asoc.dropChunk
    { ((covered sack.cumAck s.sentQueue).foldl CumAcks.ack
        { toAsoc := s.toAsoc.resetNets, accumMoved := false, thisSackLowestNewack := 0 }).toAsoc with
      thisSackHighestGap := sack.cumAck
      lastAckedSeq := sack.cumAck }, ?_, ?_⟩
  · simp only [dropPart, cumAckPart, walk_markCumAcked sack.cumAck _ _ hsent,
      walk_dropCumAcked sack.cumAck cfg _ _ _ hcov (fun c hc => hpr c (hmem c hc)),
      walk_drop_uncovered cfg _ hahead]
  · have hack := unsaw_foldl_ack (covered sack.cumAck s.sentQueue)
      { toAsoc := s.toAsoc.resetNets, accumMoved := false, thisSackLowestNewack := 0 }
    rw [Asoc.unsaw_foldl_dropChunk, Asoc.unsaw_foldl_dropChunk, Asoc.unsaw_foldl_ackChunk,
      ← foldl_drop_lastAcked]
    congr 1
    calc ({ ((covered sack.cumAck s.sentQueue).foldl CumAcks.ack _).toAsoc with
            thisSackHighestGap := sack.cumAck, lastAckedSeq := sack.cumAck } : Asoc n).unsaw
        _ = { ((covered sack.cumAck s.sentQueue).foldl CumAcks.ack
              { toAsoc := s.toAsoc.resetNets, accumMoved := false
                thisSackLowestNewack := 0 }).toAsoc.unsaw with
              thisSackHighestGap := sack.cumAck, lastAckedSeq := sack.cumAck } := rfl
        _ = { (covered sack.cumAck s.sentQueue).foldl Asoc.ackChunk s.toAsoc.resetNets.unsaw with
              thisSackHighestGap := sack.cumAck, lastAckedSeq := sack.cumAck } := by rw [hack]
        _ = { (covered sack.cumAck s.sentQueue).foldl Asoc.ackChunk
              { s.toAsoc.resetNets.unsaw with thisSackHighestGap := sack.cumAck } with
              lastAckedSeq := sack.cumAck } := by
          rw [foldl_ack_gap (covered sack.cumAck s.sentQueue) s.toAsoc.resetNets.unsaw sack.cumAck]

/-- The part of the full handler up to the shutdown, without gap blocks before or now. -/
theorem settlePart_agrees (cfg : SenderConfig) (hseg : sack.segs = []) (hnr : sack.nrSegs = [])
    (hsent : ∀ c ∈ s.sentQueue, c.sent ≠ datagramUnsent)
    (hpr : ∀ c ∈ s.sentQueue, prSctpEnabled c.flags = false)
    (hfrags : s.sawSackWithFrags = false) (hnfrags : s.sawSackWithNrFrags = false)
    (hahead : AheadOf sack.cumAck s.sentQueue) :
    (settlePart cfg sack (gapPart sack (cumAckPart sack s))).sentQueue =
      (ackedSender sack.cumAck sack.ecneSeen s).sentQueue ∧
    (settlePart cfg sack (gapPart sack (cumAckPart sack s))).toAsoc.unsaw =
      (ackedSender sack.cumAck sack.ecneSeen s).toAsoc.unsaw := by
  have hgap : gapPart sack (cumAckPart sack s) = cumAckPart sack s := by
    simp [gapPart, Sack.hasSegs, hseg, hnr]
  obtain ⟨a, hdrop, hun⟩ := dropPart_agrees cfg hsent hpr hahead
  obtain ⟨f, ns, hack⟩ := foldl_ack_frame (covered sack.cumAck s.sentQueue)
    { s.toAsoc.resetNets with thisSackHighestGap := sack.cumAck }
  obtain ⟨k, m, hfree⟩ := foldl_drop_frame (covered sack.cumAck s.sentQueue)
    { s.toAsoc.resetNets with thisSackHighestGap := sack.cumAck, toFlight := f, nets := ns }
  have hsaw : a.sawSackWithFrags = false ∧ a.sawSackWithNrFrags = false := by
    rw [hack, hfree] at hun
    exact ⟨(congrArg Asoc.sawSackWithFrags hun).trans hfrags,
      (congrArg Asoc.sawSackWithNrFrags hun).trans hnfrags⟩
  have hcwnd : (a.cwndUpdateAfterSack sack.ecneSeen).unsaw =
      { (((covered sack.cumAck s.sentQueue).foldl Asoc.dropChunk
        ((covered sack.cumAck s.sentQueue).foldl Asoc.ackChunk
          { s.toAsoc.resetNets with thisSackHighestGap := sack.cumAck })).cwndUpdateAfterSack
          sack.ecneSeen).unsaw with lastAckedSeq := sack.cumAck } := by
    rw [Asoc.unsaw_cwndUpdateAfterSack, hun, cwndUpdateAfterSack_lastAcked,
      Asoc.unsaw_cwndUpdateAfterSack]
  have hflight : (a.cwndUpdateAfterSack sack.ecneSeen).toFlight = a.toFlight := by
    cases sack.ecneSeen <;> rfl
  rw [hgap]
  cases hq : uncovered sack.cumAck s.sentQueue with
  | nil =>
    rw [hq] at hdrop
    have hdrop' : ∃ g, g.clear = a.toFlight.clear ∧
        dropPart cfg sack (cumAckPart sack s).toSender =
          { toAsoc := { a with toFlight := g }, sentQueue := [] } := by
      rw [hdrop]
      split
      · exact ⟨{ a.toFlight with totalFlight := 0 }, rfl, rfl⟩
      · exact ⟨a.toFlight, rfl, rfl⟩
    obtain ⟨g, hg, hdrop'⟩ := hdrop'
    have hset : settlePart cfg sack (cumAckPart sack s) = Sender.syncFlight
        { toAsoc := ({ a with toFlight := g } : Asoc n).cwndUpdateAfterSack sack.ecneSeen
          sentQueue := [] } := by
      simp only [settlePart]
      rw [revokePart_eq hseg hnr _ (by rw [hdrop']; exact hsaw.1) (by rw [hdrop']; exact hsaw.2),
        hdrop']
    simp only [hset, ackedSender, hq, Sender.syncFlight, List.isEmpty_nil, if_true, true_and,
      cwndUpdateAfterSack_setFlight]
    have hfl := (congrArg Asoc.toFlight hcwnd).symm.trans hflight
    calc ({ a.cwndUpdateAfterSack sack.ecneSeen with toFlight := g.clear } : Asoc n).unsaw
        _ = { (a.cwndUpdateAfterSack sack.ecneSeen).unsaw with toFlight := a.toFlight.clear } := by
          rw [hg]
          rfl
        _ = _ := by
          rw [hcwnd, ← hfl]
          rfl
  | cons c r =>
    rw [hq] at hdrop
    have hset : settlePart cfg sack (cumAckPart sack s) =
        { toAsoc := a.cwndUpdateAfterSack sack.ecneSeen, sentQueue := c :: r } := by
      simp only [settlePart]
      rw [revokePart_eq hseg hnr _ (by rw [hdrop]; exact hsaw.1) (by rw [hdrop]; exact hsaw.2),
        hdrop]
      rfl
    simp only [hset, ackedSender, hq, Sender.syncFlight, List.isEmpty_cons]
    exact ⟨rfl, hcwnd⟩

end Settle

end Sctp
