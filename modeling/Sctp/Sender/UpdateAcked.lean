import Sctp.Sender.Sack

/-! A SHUTDOWN that repeats the cumulative ack: `sctp_update_acked` makes up a window so that
`peers_rwnd` stays what it is. -/
namespace Sctp

variable {n : ℕ}

/-- The window that `sctp_update_acked` hands to the SACK handler. -/
def Asoc.sameRwnd (s : Asoc n) : ℕ := (s.peersRwnd + s.totalFlight) % 2 ^ 32

def updateAcked (cfg : SenderConfig) (cumAck : Tsn) (s : Sender n) : Option (Sender n) :=
  expressHandleSack cfg cumAck s.sameRwnd false s

/-- The same SHUTDOWN `k` times. -/
def updateAckedTimes (cfg : SenderConfig) (cumAck : Tsn) : ℕ → Sender n → Option (Sender n)
  | 0, s => some s
  | k + 1, s => (updateAcked cfg cumAck s).bind (updateAckedTimes cfg cumAck k)

/-- The counters are 32 bits wide and `peers_rwnd` is what a SACK left of the window, in this state
or an earlier one. -/
structure SackedWindow (cfg : SenderConfig) (s : Asoc n) : Prop where
  totalFlight : s.totalFlight < 2 ^ 32
  sacked : ∃ (earlier : Asoc n) (rwnd : ℕ),
    rwnd < 2 ^ 32 ∧ s.peersRwnd = earlier.rwndLeft cfg rwnd

/-- The window is not moved by any number of repetitions. -/
def ReplayHarmless (cfg : SenderConfig) (s : Sender n) : Prop :=
  ∀ k, ∃ t, updateAckedTimes cfg s.lastAckedSeq k s = some t ∧ t.peersRwnd = s.peersRwnd

/-- What the SACK handler takes off for the chunks in flight, beyond their bytes. -/
def Asoc.overhead (cfg : SenderConfig) (s : Asoc n) : ℕ := s.totalFlightCount * cfg.peerChunkOh

/-- An open window stays as it is without overhead, a closed one as long as no 32-bit sum wraps by
more than the silly window. -/
def ReplayFits (cfg : SenderConfig) (s : Asoc n) : Prop :=
  if s.peersRwnd = 0 then
    s.totalFlight < (s.totalFlight + s.overhead cfg) % 2 ^ 32 + max cfg.swsSender 1
  else s.peersRwnd + s.totalFlight < 2 ^ 32 ∧ s.overhead cfg % 2 ^ 32 = 0

instance (cfg : SenderConfig) (s : Asoc n) : Decidable (ReplayFits cfg s) := by
  unfold ReplayFits
  infer_instance

theorem swsCut_cases (cfg : SenderConfig) (rwnd : ℕ) :
    swsCut cfg rwnd = 0 ∨ cfg.swsSender ≤ swsCut cfg rwnd ∧ swsCut cfg rwnd = rwnd := by
  unfold swsCut
  split
  · exact .inl rfl
  · rename_i h
    exact .inr ⟨Nat.le_of_not_lt h, rfl⟩

theorem sbspaceSub_eq (a b : ℕ) : sbspaceSub a b = a - b := by
  unfold sbspaceSub
  split <;> omega

theorem rwndLeft_eq (cfg : SenderConfig) (s : Asoc n) (rwnd : ℕ) :
    s.rwndLeft cfg rwnd = swsCut cfg (rwnd - (s.totalFlight + s.overhead cfg) % 2 ^ 32) := by
  rw [Asoc.rwndLeft, sbspaceSub_eq]
  rfl

/-- What the window is after one repetition. -/
theorem rwndLeft_sameRwnd_eq_iff {cfg : SenderConfig} {s : Asoc n} (h : SackedWindow cfg s) :
    s.rwndLeft cfg s.sameRwnd = s.peersRwnd ↔ ReplayFits cfg s := by
  obtain ⟨hflight, earlier, rwnd, hrwnd, hsacked⟩ := h
  have hsws : s.peersRwnd = 0 ∨ cfg.swsSender ≤ s.peersRwnd := by
    rw [hsacked]
    exact (swsCut_cases cfg _).imp_right And.left
  have hwidth : s.peersRwnd < 2 ^ 32 := by
    have hle : earlier.rwndLeft cfg rwnd ≤ rwnd := by
      rw [rwndLeft_eq, swsCut]
      split <;> omega
    omega
  rw [ReplayFits, rwndLeft_eq, Asoc.sameRwnd, swsCut]
  by_cases hzero : s.peersRwnd = 0
  · rw [if_pos hzero, hzero, Nat.zero_add, Nat.mod_eq_of_lt hflight]
    split <;> omega
  · have hopen : cfg.swsSender ≤ s.peersRwnd := hsws.resolve_left hzero
    rw [if_neg hzero]
    split <;> omega

theorem peersRwnd_assureTimer (clearIdle : Bool) (t : TimerLoop n) (i : Fin n) :
    (assureTimer false clearIdle t i).peersRwnd = t.peersRwnd := by
  simp only [assureTimer, probeRecovered, Bool.false_and, Bool.false_eq_true, if_false]
  split <;> rfl

theorem peersRwnd_assureTimers (clearIdle : Bool) (s : Sender n) (recovered : Bool) :
    (assureTimers false clearIdle s recovered).peersRwnd = s.peersRwnd := by
  have hfold (is : List (Fin n)) (t : TimerLoop n) :
      (is.foldl (assureTimer false clearIdle) t).peersRwnd = t.peersRwnd := by
    induction is generalizing t with
    | nil => rfl
    | cons i is ih => rw [List.foldl_cons, ih, peersRwnd_assureTimer]
  exact hfold _ _

theorem peersRwnd_againLoop (clearIdle : Bool) (s : Sender n) :
    (againLoop false clearIdle s).peersRwnd = s.peersRwnd := by
  have haudit (t : Sender n) : (auditFlight t).peersRwnd = t.peersRwnd := by
    unfold auditFlight
    split <;> rfl
  unfold againLoop
  dsimp only
  split
  · rw [peersRwnd_assureTimers, haudit, peersRwnd_assureTimers]
  · exact peersRwnd_assureTimers clearIdle s false

theorem peersRwnd_expressTail {cumack : Tsn} {s t : Sender n}
    (h : expressTail false cumack s = some t) : t.peersRwnd = s.peersRwnd := by
  obtain ⟨u, hu, rfl⟩ := Option.map_eq_some_iff.1 h
  rw [← peersRwnd_againLoop true s]
  unfold expressShutdown at hu
  split at hu
  · dsimp only at hu
    split at hu <;> cases hu <;> rfl
  · cases hu
    rfl

/-- One repetition sets the window from the made-up one; it goes on only when the window opens. -/
theorem updateAcked_eq (cfg : SenderConfig) (s : Sender n) :
    updateAcked cfg s.lastAckedSeq s =
      if s.peersRwnd < s.rwndLeft cfg s.sameRwnd then
        expressTail false s.lastAckedSeq (s.hushed.setRwnd cfg s.sameRwnd)
      else some (s.hushed.setRwnd cfg s.sameRwnd) := by
  have hold : tsnGt s.lastAckedSeq s.lastAckedSeq = false := by
    simp [tsnGt]
  rw [updateAcked, expressHandleSack, hold, if_neg Bool.false_ne_true, if_pos rfl]
  rfl

theorem peersRwnd_updateAcked {cfg : SenderConfig} {s t : Sender n}
    (h : updateAcked cfg s.lastAckedSeq s = some t) :
    t.peersRwnd = s.rwndLeft cfg s.sameRwnd := by
  rw [updateAcked_eq] at h
  split at h
  · exact peersRwnd_expressTail h
  · cases h
    rfl

theorem updateAcked_of_fits {cfg : SenderConfig} {s : Sender n} (h : SackedWindow cfg s.toAsoc)
    (hfits : ReplayFits cfg s.toAsoc) :
    updateAcked cfg s.lastAckedSeq s = some s.hushed := by
  have hsame : s.rwndLeft cfg s.sameRwnd = s.peersRwnd := (rwndLeft_sameRwnd_eq_iff h).2 hfits
  rw [updateAcked_eq, hsame, if_neg (lt_irrefl _)]
  have hset : (s.hushed.setRwnd cfg s.sameRwnd).peersRwnd = s.hushed.peersRwnd := hsame
  exact congrArg (fun rwnd => some { s.hushed with peersRwnd := rwnd }) hset

/-- Repeating the cumulative ack leaves the window alone exactly when nothing is taken off for the
chunks in flight, or the window is closed anyway. -/
theorem replayHarmless_iff {cfg : SenderConfig} {s : Sender n} (h : SackedWindow cfg s.toAsoc) :
    ReplayHarmless cfg s ↔ ReplayFits cfg s.toAsoc := by
  constructor
  · intro hharmless
    obtain ⟨t, ht, hwindow⟩ := hharmless 1
    obtain ⟨u, hu, hut⟩ := Option.bind_eq_some_iff.1 ht
    obtain rfl : u = t := Option.some.inj hut
    rw [← rwndLeft_sameRwnd_eq_iff h, ← hwindow]
    exact (peersRwnd_updateAcked hu).symm
  · intro hfits k
    induction k generalizing s with
    | zero => exact ⟨s, rfl, rfl⟩
    | succ k ih =>
      obtain ⟨t, ht, hwindow⟩ := ih (s := s.hushed) ⟨h.totalFlight, h.sacked⟩ hfits
      refine ⟨t, ?_, hwindow⟩
      rw [updateAckedTimes, updateAcked_of_fits h hfits, Option.bind_some]
      exact ht

/-- Where something is taken off and no sum wraps, the repetitions close the window. -/
theorem updateAckedTimes_closes {cfg : SenderConfig} {s : Sender n}
    (hoverhead : 0 < s.overhead cfg)
    (hwidth : s.peersRwnd + s.totalFlight + s.overhead cfg < 2 ^ 32) :
    ∃ k t, updateAckedTimes cfg s.lastAckedSeq k s = some t ∧ t.peersRwnd = 0 := by
  induction hp : s.peersRwnd using Nat.strong_induction_on generalizing s with
  | _ p ih =>
    by_cases hzero : s.peersRwnd = 0
    · exact ⟨0, s, rfl, hzero⟩
    · have hless : s.rwndLeft cfg s.sameRwnd < s.peersRwnd := by
        rw [rwndLeft_eq, Asoc.sameRwnd, Nat.mod_eq_of_lt (by omega), Nat.mod_eq_of_lt (by omega),
          swsCut]
        split <;> omega
      have hstep : updateAcked cfg s.lastAckedSeq s =
          some (s.hushed.setRwnd cfg s.sameRwnd) := by
        rw [updateAcked_eq, if_neg (by omega)]
      have hnext : (s.hushed.setRwnd cfg s.sameRwnd).peersRwnd = s.rwndLeft cfg s.sameRwnd := rfl
      have hrest : (s.hushed.setRwnd cfg s.sameRwnd).peersRwnd +
          (s.hushed.setRwnd cfg s.sameRwnd).totalFlight +
            (s.hushed.setRwnd cfg s.sameRwnd).overhead cfg < 2 ^ 32 := by
        change s.rwndLeft cfg s.sameRwnd + s.totalFlight + s.overhead cfg < 2 ^ 32
        omega
      obtain ⟨k, t, ht, hclosed⟩ :=
        ih _ (hp ▸ hless) (s := s.hushed.setRwnd cfg s.sameRwnd) hoverhead hrest rfl
      refine ⟨k + 1, t, ?_, hclosed⟩
      rw [updateAckedTimes, hstep, Option.bind_some]
      exact ht

local instance updateAcked_neZero : NeZero 1 := ⟨Nat.one_ne_zero⟩

/-- A chunk of 1000 bytes in flight to the only destination. -/
def flyingChunk (tsn : Tsn) : SentChunk 1 where
  tsn := tsn
  streamNumber := 0
  sendSize := 1000
  bookSize := 1000
  bookSizeScale := false
  sent := datagramSent
  sndCount := 1
  whoTo := 0
  flags := 0
  hasData := true
  windowProbe := false
  chunkWasRevoked := false
  doingFastRetransmit := false
  fastRetranTsn := 0
  noFrAllowed := false
  sentRcvTime := 0
  authKeyid := 0

/-- A sender with `count` chunks in flight behind the cumulative ack 50. -/
def flyingSender (count : ℕ) : Sender 1 where
  totalFlight := 1000 * count
  totalFlightCount := count
  flightSize := fun _ => 1000 * count
  sentQueueRetranCnt := 0
  saturated := false
  sendQueue := none
  sendingSeq := 51 + count
  streamQueueCnt := 0
  state := 0
  lockedOnSending := none
  nets := fun _ =>
    { netAck := 0, netAck2 := 0, windowProbe := false, sawNewack := false
      thisSackHighestNewack := 50, pf := false }
  lastAckedSeq := 50
  sentQueueCnt := count
  prSctpCnt := 0
  sentQueueCntRemoveable := 0
  chunksOnQueues := fun _ => 0
  peersRwnd := 0
  advancedPeerAckPoint := 50
  thisSackHighestGap := 50
  sawSackWithFrags := false
  sawSackWithNrFrags := false
  cwndInput := fun _ => (0, 0)
  sentQueue := (List.range count).map fun i => flyingChunk (51 + i)

/-- The default settings, with the overhead for each chunk. -/
def replayConfig (peerChunkOh : ℕ) : SenderConfig where
  swsSender := 1420
  peerChunkOh := peerChunkOh
  strictSacks := true
  cmtOnOff := false
  cmtUseDac := false
  prsctpSupported := true

/-- Ten chunks in flight when a SACK with a window of 60000 came. -/
def sackedSender (peerChunkOh : ℕ) : Sender 1 :=
  (flyingSender 10).setRwnd (replayConfig peerChunkOh) 60000

theorem sackedSender_window (peerChunkOh : ℕ) :
    SackedWindow (replayConfig peerChunkOh) (sackedSender peerChunkOh).toAsoc where
  totalFlight := by
    change 1000 * 10 < 2 ^ 32
    decide
  sacked := ⟨(flyingSender 10).toAsoc, 60000, by decide, rfl⟩

theorem sackedSender_harmless : ReplayHarmless (replayConfig 0) (sackedSender 0) :=
  (replayHarmless_iff (sackedSender_window 0)).2 (by decide)

/-- With the default overhead of 256 bytes, each repetition takes 2560 bytes off the window. -/
theorem sackedSender_not_harmless :
    SackedWindow (replayConfig 256) (sackedSender 256).toAsoc ∧
      ¬ ReplayHarmless (replayConfig 256) (sackedSender 256) := by
  refine ⟨sackedSender_window 256, fun h => ?_⟩
  obtain ⟨t, ht, hwindow⟩ := h 1
  obtain ⟨u, hu, hut⟩ := Option.bind_eq_some_iff.1 ht
  obtain rfl : u = t := Option.some.inj hut
  have hleft := peersRwnd_updateAcked hu
  rw [hwindow] at hleft
  exact absurd hleft (by decide)

end Sctp
