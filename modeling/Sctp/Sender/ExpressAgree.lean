import Sctp.Sender.Express

/-! When `sctp_express_handle_sack` and `sctp_handle_sack` leave the same association. -/
namespace Sctp
open Ledger

variable {n : ℕ}

structure SackView (n : ℕ) where
  sentQueue : List (SentChunk n)
  lastAckedSeq : Tsn
  totalFlight : ℕ
  totalFlightCount : ℕ
  flightSize : Fin n → ℕ
  cwndInput : Fin n → ℕ × ℕ
  sentQueueCnt : ℕ
  sentQueueRetranCnt : ℕ
  prSctpCnt : ℕ
  sentQueueCntRemoveable : ℤ
  chunksOnQueues : StreamNo → ℕ
  peersRwnd : ℕ
  advancedPeerAckPoint : Tsn

def Sender.view (s : Sender n) : SackView n :=
  { sentQueue := s.sentQueue
    lastAckedSeq := s.lastAckedSeq
    totalFlight := s.totalFlight
    totalFlightCount := s.totalFlightCount
    flightSize := s.flightSize
    cwndInput := s.cwndInput
    sentQueueCnt := s.sentQueueCnt
    sentQueueRetranCnt := s.sentQueueRetranCnt
    prSctpCnt := s.prSctpCnt
    sentQueueCntRemoveable := s.sentQueueCntRemoveable
    chunksOnQueues := s.chunksOnQueues
    peersRwnd := s.peersRwnd
    advancedPeerAckPoint := s.advancedPeerAckPoint }

def Sender.advance (cumAck : Tsn) (s : Sender n) : Sender n :=
  { s with toAsoc := s.toAsoc.advancePeerAckPoint cumAck }

/-- The dispatcher of `sctp_process_control` takes the express handler for a SACK without gap
blocks. -/
def selectsExpress (s : Sender n) (cumAck : Tsn) : Bool :=
  s.prSctpCnt == 0 && tsnGe cumAck s.lastAckedSeq && !s.sawSackWithFrags &&
    !s.sawSackWithNrFrags && !s.sentQueue.isEmpty

section Probes

variable {probes : Fin n → Bool} {s : Sender n}

theorem recoverFirstProbe_frame (s : Sender n) :
    ∃ f q, recoverFirstProbe s = { s with toFlight := f, sentQueue := q } ∧
      q.length = s.sentQueue.length := by
  unfold recoverFirstProbe
  split
  · exact ⟨s.toFlight, s.sentQueue, rfl, rfl⟩
  · split
    · exact ⟨s.toFlight, s.sentQueue, rfl, rfl⟩
    · simp only [windowProbeRecovery]
      split <;> exact ⟨_, _, rfl, List.length_set⟩

theorem foldl_probeTimer_frame (probes : Fin n → Bool) (is : List (Fin n)) (t : TimerLoop n) :
    ∃ f q, (is.foldl (probeTimer probes) t).toSender =
      { t.toSender with toFlight := f, sentQueue := q } ∧ q.length = t.sentQueue.length := by
  induction is generalizing t with
  | nil => exact ⟨t.toFlight, t.sentQueue, rfl, rfl⟩
  | cons i is ih =>
    have hstep : ∃ f q, (probeTimer probes t i).toSender =
        { t.toSender with toFlight := f, sentQueue := q } ∧ q.length = t.sentQueue.length := by
      simp only [probeTimer]
      split
      · exact recoverFirstProbe_frame t.toSender
      · exact ⟨t.toFlight, t.sentQueue, rfl, rfl⟩
    obtain ⟨f, q, h1, hq⟩ := hstep
    obtain ⟨f', q', h2, hq'⟩ := ih (probeTimer probes t i)
    refine ⟨f', q', ?_, ?_⟩
    · rw [List.foldl_cons, h2, h1]
    · rw [hq', h1]
      exact hq

/-- The part behind `again` touches flights and chunks only, and keeps every chunk. -/
theorem probeAgain_frame (probes : Fin n → Bool) (s : Sender n) :
    ∃ f q, probeAgain probes s = { s with toFlight := f, sentQueue := q } ∧
      q.length = s.sentQueue.length := by
  obtain ⟨f, q, h, hq⟩ := foldl_probeTimer_frame probes (List.finRange n)
    { toSender := s, busy := 0, winProbeRecovered := false }
  have hall : (probeAll probes s).toSender = { s with toFlight := f, sentQueue := q } := h
  unfold probeAgain
  split
  · unfold auditFlight
    rw [hall]
    split
    · exact ⟨_, q, rfl, hq⟩
    · exact ⟨f, q, rfl, hq⟩
  · exact ⟨f, q, hall, hq⟩

theorem recoverFirstProbe_of_none (h : ∀ c ∈ s.sentQueue, c.windowProbe = false) :
    recoverFirstProbe s = s := by
  have hf : s.sentQueue.findIdx? (·.windowProbe) = none := by
    rw [List.findIdx?_eq_none_iff]
    exact h
  simp only [recoverFirstProbe, hf]

theorem foldl_probeTimer_of_none (is : List (Fin n)) (t : TimerLoop n)
    (h : ∀ c ∈ t.sentQueue, c.windowProbe = false) :
    (is.foldl (probeTimer probes) t).toSender = t.toSender := by
  apply List.foldlRecOn (motive := fun u : TimerLoop n => u.toSender = t.toSender)
  · rfl
  · intro u hu i _
    have hrec : recoverFirstProbe u.toSender = u.toSender :=
      recoverFirstProbe_of_none (by rw [hu]; exact h)
    simp only [probeTimer, hrec, ite_self]
    exact hu

theorem probeAll_recovered (probes : Fin n → Bool) (s : Sender n) :
    (probeAll probes s).winProbeRecovered = true ↔ ∃ i, probes i = true := by
  rw [probeAll, foldl_probeTimer_recovered, Bool.false_or, List.any_eq_true]
  simp

/-- Without flagged chunks a recovery does nothing, and it keeps the audit away. -/
theorem probeAgain_of_none (hp : ∃ i, probes i = true)
    (h : ∀ c ∈ s.sentQueue, c.windowProbe = false) : probeAgain probes s = s := by
  have hs : (probeAll probes s).toSender = s := foldl_probeTimer_of_none _ _ h
  have hsus : (probeAll probes s).suspicious = false := by
    simp [TimerLoop.suspicious, (probeAll_recovered probes s).2 hp]
  simp only [probeAgain, hsus, hs]
  rfl

theorem foldl_probeTimer_busy (is : List (Fin n)) (t : TimerLoop n) :
    (is.foldl (probeTimer fun _ => false) t).busy =
      t.busy + is.countP fun i => t.flightSize i != 0 := by
  induction is generalizing t with
  | nil => simp
  | cons i is ih =>
    rw [List.foldl_cons, ih, List.countP_cons]
    by_cases h : t.flightSize i = 0
    · simp [probeTimer, h]
    · simp [probeTimer, h]
      omega

/-- Nothing is in flight and nothing is marked for resend. -/
def Sender.Idle (s : Sender n) : Prop := (∀ i, s.flightSize i = 0) ∧ s.sentQueueRetranCnt = 0

instance (s : Sender n) : Decidable s.Idle := inferInstanceAs (Decidable (_ ∧ _))

/-- Without recovery the audit runs on an idle association. -/
theorem probeAgain_false (hq : s.sentQueue ≠ []) :
    probeAgain (fun _ => false) s = if s.Idle then auditFlight s else s := by
  have hs : (probeAll (fun _ => false) s).toSender = s := foldl_probeTimer_false _ _
  have hrec : (probeAll (fun _ => false) s).winProbeRecovered = false := by
    rw [← Bool.not_eq_true, probeAll_recovered]
    simp
  have hbusy : (probeAll (fun _ => false) s).busy = 0 ↔ ∀ i, s.flightSize i = 0 := by
    rw [probeAll, foldl_probeTimer_busy, Nat.zero_add, List.countP_eq_zero]
    simp
  have hsus : (probeAll (fun _ => false) s).suspicious = true ↔ s.Idle := by
    simp only [TimerLoop.suspicious, hrec, hs, Sender.Idle, Bool.and_eq_true, beq_iff_eq, hbusy,
      Bool.not_eq_true', List.isEmpty_eq_false_iff, ne_eq, hq, not_false_eq_true, and_true,
      Bool.not_false]
  simp only [probeAgain, hs, hsus]

/-- Recovery takes the flag off a chunk. -/
theorem recoverFirstProbe_lt (h : ∃ c ∈ s.sentQueue, c.windowProbe = true) :
    (recoverFirstProbe s).sentQueue.countP (·.windowProbe) <
      s.sentQueue.countP (·.windowProbe) := by
  have hpos : 0 < s.sentQueue.countP (·.windowProbe) := List.countP_pos_iff.2 h
  cases hi : s.sentQueue.findIdx? (·.windowProbe) with
  | none =>
    obtain ⟨c, hc, hp⟩ := h
    rw [List.findIdx?_eq_none_iff] at hi
    simp [hi c hc] at hp
  | some i =>
    obtain ⟨hlt, hp, -⟩ := List.findIdx?_eq_some_iff_getElem.1 hi
    have hun : (windowProbeRecovery s.toAsoc s.sentQueue[i]).2.windowProbe = false := by
      unfold windowProbeRecovery
      split <;> rfl
    simp only [recoverFirstProbe, hi, List.getElem?_eq_getElem hlt, List.countP_set hlt, hp, hun]
    simp
    omega

theorem recoverFirstProbe_le (s : Sender n) :
    (recoverFirstProbe s).sentQueue.countP (·.windowProbe) ≤
      s.sentQueue.countP (·.windowProbe) := by
  by_cases h : ∃ c ∈ s.sentQueue, c.windowProbe = true
  · exact (recoverFirstProbe_lt h).le
  · rw [recoverFirstProbe_of_none]
    intro c hc
    simpa using fun hp => h ⟨c, hc, hp⟩

theorem foldl_probeTimer_le (is : List (Fin n)) (t : TimerLoop n) :
    (is.foldl (probeTimer probes) t).sentQueue.countP (·.windowProbe) ≤
      t.sentQueue.countP (·.windowProbe) := by
  apply List.foldlRecOn (motive := fun u : TimerLoop n =>
    u.sentQueue.countP (·.windowProbe) ≤ t.sentQueue.countP (·.windowProbe))
  · exact le_rfl
  · intro u hu i _
    simp only [probeTimer]
    split
    · exact (recoverFirstProbe_le u.toSender).trans hu
    · exact hu

theorem foldl_probeTimer_lt (is : List (Fin n)) (t : TimerLoop n) (hp : ∃ i ∈ is, probes i = true)
    (h : ∃ c ∈ t.sentQueue, c.windowProbe = true) :
    (is.foldl (probeTimer probes) t).sentQueue.countP (·.windowProbe) <
      t.sentQueue.countP (·.windowProbe) := by
  induction is generalizing t with
  | nil => simp at hp
  | cons i is ih =>
    rw [List.foldl_cons]
    cases hi : probes i with
    | true =>
      refine (foldl_probeTimer_le is _).trans_lt ?_
      simp only [probeTimer, hi, if_true]
      exact recoverFirstProbe_lt h
    | false =>
      have hs : (probeTimer probes t i).toSender = t.toSender := by
        simp only [probeTimer, hi]
        rfl
      obtain ⟨j, hj, hpj⟩ := hp
      have hjs : j ∈ is := by
        rcases List.mem_cons.1 hj with rfl | hj
        · simp [hi] at hpj
        · exact hj
      have := ih (probeTimer probes t i) ⟨j, hjs, hpj⟩ (by rw [hs]; exact h)
      rwa [hs] at this

/-- A recovered probe shows in the sent queue. -/
theorem probeAgain_lt (hp : ∃ i, probes i = true) (h : ∃ c ∈ s.sentQueue, c.windowProbe = true) :
    (probeAgain probes s).sentQueue.countP (·.windowProbe) <
      s.sentQueue.countP (·.windowProbe) := by
  have hsus : (probeAll probes s).suspicious = false := by
    simp [TimerLoop.suspicious, (probeAll_recovered probes s).2 hp]
  obtain ⟨i, hi⟩ := hp
  have hlt := foldl_probeTimer_lt (List.finRange n)
    { toSender := s, busy := 0, winProbeRecovered := false } ⟨i, List.mem_finRange i, hi⟩ h
  simp only [probeAgain, hsus]
  exact hlt

end Probes

/-- Senders alike up to destinations look alike after the tails. -/
theorem view_advance {s t : Sender n} (cumAck : Tsn) (h : s.bare = t) :
    (s.advance cumAck).view = (t.advance cumAck).view := by
  rw [← h]
  rfl

theorem advanced_eq_iff (cumAck point : Tsn) :
    (if tsnGt cumAck point then cumAck else point) = point ↔ tsnGt cumAck point ≠ true := by
  constructor
  · intro hif hgt
    rw [if_pos hgt] at hif
    rw [hif] at hgt
    simp [tsnGt] at hgt
  · intro hno
    exact if_neg hno

/-- Advancing shows exactly when the cumulative ack is ahead of the point. -/
theorem view_advance_iff (s : Sender n) (cumAck : Tsn) :
    (s.advance cumAck).view = s.view ↔ tsnGt cumAck s.advancedPeerAckPoint ≠ true := by
  rw [← advanced_eq_iff]
  constructor
  · exact congrArg SackView.advancedPeerAckPoint
  · intro hif
    simp only [Sender.advance, Asoc.advancePeerAckPoint, hif]

section Tails

variable {cfg : SenderConfig} {sack : Sack n}

/-- The tail of the full handler without gap blocks. -/
theorem sackTail_view (hseg : sack.segs = []) (hnr : sack.nrSegs = []) (oldRwnd : ℕ)
    (e : StrikeEnv n) (s : Sender n) :
    (sackTail cfg sack oldRwnd e s).view =
      ((probeAgain (fun i => decide (oldRwnd < s.toAsoc.rwndLeft cfg sack.rwnd) &&
        (s.nets i).windowProbe) (s.setRwnd cfg sack.rwnd).bare).advance sack.cumAck).view := by
  have hsegs : sack.hasSegs = false := by simp [Sack.hasSegs, hseg, hnr]
  have hstrike : strikePart cfg sack e s =
      { s with nets := fun i => { s.nets i with netAck := 0 } } := by
    simp only [strikePart, hsegs]
    rfl
  simp only [sackTail, hstrike]
  exact view_advance sack.cumAck (againLoop_bare _ _ _)

theorem drained_againLoop (recovery clearIdle : Bool) (s : Sender n) :
    (againLoop recovery clearIdle s).drained = s.drained ∧
      (againLoop recovery clearIdle s).toBacklog = s.toBacklog := by
  obtain ⟨f, q, h, hq⟩ := probeAgain_frame (fun i => recovery && (s.nets i).windowProbe) s.bare
  have hb : (againLoop recovery clearIdle s).bare =
      { s.bare with toFlight := f, sentQueue := q } := (againLoop_bare recovery clearIdle s).trans h
  have hback : (againLoop recovery clearIdle s).toBacklog = s.toBacklog := by
    have := congrArg (fun t : Sender n => t.toBacklog) hb
    exact this
  have hqueue : (againLoop recovery clearIdle s).sentQueue = q := by
    have := congrArg (fun t : Sender n => t.sentQueue) hb
    exact this
  have hempty : q.isEmpty = s.sentQueue.isEmpty := by
    rw [Bool.eq_iff_iff, List.isEmpty_iff_length_eq_zero, List.isEmpty_iff_length_eq_zero, hq]
    rfl
  refine ⟨?_, hback⟩
  simp only [Sender.drained, hqueue, hempty, hback]

/-- The tail of the express handler while something is queued. -/
theorem expressTail_of_not_drained {s : Sender n} (h : s.drained = false) (recovery : Bool)
    (cumAck : Tsn) :
    (expressTail recovery cumAck s).map Sender.view =
      some ((probeAgain (fun i => recovery && (s.nets i).windowProbe) s.bare).advance
        cumAck).view := by
  have hd : (againLoop recovery true s).drained = false := (drained_againLoop recovery true s).1 ▸ h
  simp only [expressTail, expressShutdown, hd, Option.map_some, Bool.false_eq_true, if_false]
  exact congrArg some (view_advance cumAck (againLoop_bare recovery true s))

/-- The association waits to shut down and no message is left. -/
def Backlog.shutsDown (b : Backlog) : Prop :=
  b.streamQueueCnt = 0 ∧
    (b.has stateShutdownPending = true ∨ b.getState = stateShutdownReceived)

theorem shutdownMove_stay_iff (b : Backlog) : b.shutdownMove = .stay ↔ ¬ b.shutsDown := by
  unfold Backlog.shutdownMove Backlog.shutsDown
  split_ifs with h1 h2 h3 h4
  · simp [h1]
  · simp [h1]
  · simp [h3]
  · simp [h3]
  · simp only [true_iff]
    tauto

theorem shutdownMove_abort_iff (b : Backlog) :
    b.shutdownMove = .abort ↔ b.shutsDown ∧ b.has statePartialMsgLeft = true := by
  unfold Backlog.shutdownMove Backlog.shutsDown
  split_ifs with h1 h2 h3 h4
  · simp [h1, h2]
  · simp [h2]
  · simp [h3, h4]
  · simp [h4]
  · simp only [false_iff]
    tauto

/-- The shutdown decision does not see which stream is locked. -/
theorem shutdownMove_congr {b b' : Backlog} (hs : b.state = b'.state)
    (hc : b.streamQueueCnt = b'.streamQueueCnt) :
    (b.shutdownMove = .stay ↔ b'.shutdownMove = .stay) ∧
      (b.shutdownMove = .abort ↔ b'.shutdownMove = .abort) := by
  simp only [shutdownMove_stay_iff, shutdownMove_abort_iff, Backlog.shutsDown, Backlog.has,
    Backlog.getState, hs, hc, and_self]

theorem leavePartial_congr (b : Backlog) (x y : Bool) :
    (b.leavePartial x).state = (b.leavePartial y).state ∧
      (b.leavePartial x).streamQueueCnt = (b.leavePartial y).streamQueueCnt := by
  unfold Backlog.leavePartial
  split
  · split <;> exact ⟨rfl, rfl⟩
  · exact ⟨rfl, rfl⟩

/-- With nothing queued the loop leaves the association alone. -/
theorem probeAgain_of_empty {s : Sender n} (h : s.sentQueue = []) (probes : Fin n → Bool) :
    probeAgain probes s = s := by
  have hall : (probeAll probes s).toSender = s :=
    foldl_probeTimer_of_none _ _ (fun c hc => by
      have hmem : c ∈ s.sentQueue := hc
      rw [h] at hmem
      simp at hmem)
  have hsus : (probeAll probes s).suspicious = false := by
    have he : (probeAll probes s).sentQueue = [] := by rw [hall, h]
    simp [TimerLoop.suspicious, he]
  simp only [probeAgain, hsus, hall]
  rfl

theorem sackTail_of_empty (hseg : sack.segs = []) (hnr : sack.nrSegs = []) (oldRwnd : ℕ)
    (e : StrikeEnv n) {s : Sender n} (h : s.sentQueue = []) :
    (sackTail cfg sack oldRwnd e s).view = ((s.setRwnd cfg sack.rwnd).advance sack.cumAck).view := by
  rw [sackTail_view hseg hnr, probeAgain_of_empty (by exact h)]
  rfl

/-- The tail of the express handler with nothing queued: it goes on after the shutdown. -/
theorem expressTail_of_drained {s : Sender n} (h : s.drained = true) (recovery : Bool)
    (cumAck : Tsn) :
    (expressTail recovery cumAck s).map Sender.view =
      if (s.toBacklog.leavePartial false).shutdownMove = .abort then none
      else some (s.advance cumAck).view := by
  obtain ⟨hd, hback⟩ := drained_againLoop recovery true s
  have hq : s.sentQueue = [] := by
    simp only [Sender.drained, Bool.and_eq_true, List.isEmpty_iff] at h
    exact h.2
  have hview := view_advance cumAck
    ((againLoop_bare recovery true s).trans (probeAgain_of_empty (s := s.bare) hq _))
  simp only [expressTail, expressShutdown, hd, h, if_true, hback]
  cases (s.toBacklog.leavePartial false).shutdownMove with
  | stay =>
    simp only [Option.map_some, reduceCtorEq, if_false]
    exact congrArg some hview
  | abort => rfl
  | shut b =>
    simp only [Option.map_some, reduceCtorEq, if_false]
    exact congrArg some hview

end Tails

theorem bare_of_unsaw {s t : Sender n} (hq : s.sentQueue = t.sentQueue)
    (hu : s.toAsoc.unsaw = t.toAsoc.unsaw) :
    s.bare = t.bare ∧ ∀ i, (s.nets i).windowProbe = (t.nets i).windowProbe := by
  constructor
  · calc s.bare
        _ = { s.toAsoc.unsaw with
              nets := fun _ => blankNet, thisSackHighestGap := 0, sentQueue := s.sentQueue } := rfl
        _ = t.bare := by
          rw [hu, hq]
          rfl
  · intro i
    have hi := congrArg (fun a : Asoc n => (a.nets i).windowProbe) hu
    exact hi

theorem walk_dropCumAcked_queue (cfg : SenderConfig) (cumAck : Tsn) (s : Asoc n)
    (q : List (SentChunk n)) :
    (walk (dropCumAcked cfg cumAck) s q).2 = q.dropWhile fun c => !tsnGt c.tsn cumAck := by
  induction q generalizing s with
  | nil => rfl
  | cons c q ih =>
    by_cases h : tsnGt c.tsn cumAck = true
    · rw [walk_cons_none (by simp [dropCumAcked, h])]
      simp [h]
    · rw [walk_cons_some (by rw [dropCumAcked, if_neg h]), List.nil_append, ih]
      simp [h]

section Full

variable {cfg : SenderConfig} {sack : Sack n} {s : Sender n}

/-- The association of the full handler before the shutdown. -/
def settledSender (cfg : SenderConfig) (sack : Sack n) (s : Sender n) : Sender n :=
  settlePart cfg sack (gapPart sack (cumAckPart sack s.hushed))

/-- The full handler on a SACK the dispatcher gives to the express handler. -/
theorem handleSack_of_selected (hseg : sack.segs = []) (hnr : sack.nrSegs = [])
    (hsel : selectsExpress s sack.cumAck = true) :
    handleSack cfg sack s = if cfg.strictSacks && tsnGe sack.cumAck s.sendS then none
      else sackShutdown cfg sack.rwnd (settledSender cfg sack s)
        (sackTail cfg sack s.peersRwnd (strikeEnv cfg sack (gapPart sack (cumAckPart sack s.hushed))
          (settledSender cfg sack s).nets)) := by
  simp only [selectsExpress, Bool.and_eq_true, beq_iff_eq, Bool.not_eq_true'] at hsel
  obtain ⟨⟨⟨⟨-, hge⟩, -⟩, -⟩, hne⟩ := hsel
  have hold : tsnGt s.lastAckedSeq sack.cumAck = false :=
    Bool.eq_false_iff.2 (not_tsnGt_of_tsnGe hge)
  have hdr : s.drained = false := by simp [Sender.drained, hne]
  have hsegs : sack.hasSegs = false := by simp [Sack.hasSegs, hseg, hnr]
  simp only [handleSack, hold, hdr, hsegs, Bool.false_and, Bool.and_false, Bool.false_eq_true,
    if_false, settledSender]

/-- What is left of the sent queue. -/
theorem length_settledSender (cfg : SenderConfig) (hseg : sack.segs = []) (hnr : sack.nrSegs = [])
    (hsent : ∀ c ∈ s.sentQueue, c.sent ≠ datagramUnsent)
    (hpr : ∀ c ∈ s.sentQueue, prSctpEnabled c.flags = false) :
    (settledSender cfg sack s).sentQueue.length =
      ((uncovered sack.cumAck s.sentQueue).dropWhile fun c => !tsnGt c.tsn sack.cumAck).length := by
  have hgap : gapPart sack (cumAckPart sack s.hushed) = cumAckPart sack s.hushed := by
    simp [gapPart, Sack.hasSegs, hseg, hnr]
  have hcov : ∀ c ∈ covered sack.cumAck s.sentQueue, tsnGe sack.cumAck c.tsn = true :=
    fun c hc => List.mem_takeWhile_imp (p := fun c : SentChunk n => tsnGe sack.cumAck c.tsn) hc
  have hmem : ∀ c ∈ covered sack.cumAck s.sentQueue, c ∈ s.sentQueue :=
    fun c hc => (List.takeWhile_sublist _).subset hc
  have hdrop : (dropPart cfg sack (cumAckPart sack s.hushed).toSender).sentQueue =
      (uncovered sack.cumAck s.sentQueue).dropWhile fun c => !tsnGt c.tsn sack.cumAck := by
    have hq : s.hushed.sentQueue = s.sentQueue := rfl
    simp only [dropPart, cumAckPart, hq, walk_markCumAcked sack.cumAck _ _ hsent,
      walk_dropCumAcked sack.cumAck cfg _ _ _ hcov (fun c hc => hpr c (hmem c hc)),
      walk_dropCumAcked_queue]
  have hrev : ∀ (b : Tsn) (t : Sender n),
      (revokePart sack b t).sentQueue.length = t.sentQueue.length := by
    intro b t
    simp only [revokePart, hseg, List.isEmpty_nil, Bool.not_true, Bool.false_eq_true, if_false]
    split
    · apply length_walk
      intro a x a' ys hx
      unfold revokeAcked at hx
      split_ifs at hx <;> (obtain ⟨-, rfl⟩ := Prod.mk.inj (Option.some.inj hx); rfl)
    · rfl
  have hsync : ∀ t : Sender n, t.syncFlight.sentQueue = t.sentQueue := by
    intro t
    unfold Sender.syncFlight
    split <;> rfl
  rw [settledSender, hgap, settlePart, hsync]
  show (revokePart sack _ _).sentQueue.length = _
  rw [hrev, hdrop]

/-- The full handler keeps the chunks that are left behind the drop loop. -/
theorem length_handleSack {t : Sender n} (hseg : sack.segs = []) (hnr : sack.nrSegs = [])
    (hsel : selectsExpress s sack.cumAck = true)
    (hsent : ∀ c ∈ s.sentQueue, c.sent ≠ datagramUnsent)
    (hpr : ∀ c ∈ s.sentQueue, prSctpEnabled c.flags = false)
    (ht : handleSack cfg sack s = some t) :
    t.view.sentQueue.length =
      ((uncovered sack.cumAck s.sentQueue).dropWhile fun c => !tsnGt c.tsn sack.cumAck).length := by
  have htail : ∀ (e : StrikeEnv n) (u : Sender n),
      (sackTail cfg sack s.peersRwnd e u).view.sentQueue.length = u.sentQueue.length := by
    intro e u
    rw [sackTail_view hseg hnr]
    obtain ⟨f, q, h, hq⟩ := probeAgain_frame
      (fun i => decide (s.peersRwnd < u.toAsoc.rwndLeft cfg sack.rwnd) && (u.nets i).windowProbe)
      (u.setRwnd cfg sack.rwnd).bare
    rw [h]
    exact hq
  rw [← length_settledSender cfg hseg hnr hsent hpr]
  rw [handleSack_of_selected hseg hnr hsel] at ht
  split at ht
  · cases ht
  · simp only [sackShutdown] at ht
    split at ht
    · split at ht
      · obtain rfl := Option.some.inj ht
        exact htail _ _
      · cases ht
      · obtain rfl := Option.some.inj ht
        rfl
    · obtain rfl := Option.some.inj ht
      exact htail _ _

end Full

theorem ackedSender_frame (cumAck : Tsn) (ecneSeen : Bool) (s : Sender n) :
    (ackedSender cumAck ecneSeen s).sentQueue = uncovered cumAck s.sentQueue ∧
      (ackedSender cumAck ecneSeen s).toBacklog = s.toBacklog ∧
      (ackedSender cumAck ecneSeen s).advancedPeerAckPoint = s.advancedPeerAckPoint := by
  obtain ⟨f, ns, hack⟩ := foldl_ack_frame (covered cumAck s.sentQueue)
    { s.toAsoc.resetNets with thisSackHighestGap := cumAck }
  obtain ⟨k, m, hfree⟩ := foldl_drop_frame (covered cumAck s.sentQueue)
    { s.toAsoc.resetNets with thisSackHighestGap := cumAck, toFlight := f, nets := ns }
  simp only [ackedSender, hack, hfree, Sender.syncFlight]
  split <;> cases ecneSeen <;> exact ⟨rfl, rfl, rfl⟩

theorem ackedSender_flight (cumAck : Tsn) (ecneSeen : Bool) {s : Sender n}
    (h : uncovered cumAck s.sentQueue = []) :
    (ackedSender cumAck ecneSeen s).totalFlight = 0 ∧
      (ackedSender cumAck ecneSeen s).totalFlightCount = 0 := by
  simp only [ackedSender, h, Sender.syncFlight, List.isEmpty_nil, if_true]
  exact ⟨rfl, rfl⟩

theorem rwndLeft_of_idle {a : Asoc n} (cfg : SenderConfig) (rwnd : ℕ) (hf : a.totalFlight = 0)
    (hc : a.totalFlightCount = 0) : a.rwndLeft cfg rwnd = swsCut cfg rwnd := by
  have h0 : sbspaceSub rwnd 0 = rwnd := by
    unfold sbspaceSub
    split <;> omega
  simp [Asoc.rwndLeft, hf, hc, h0]

/-- The SACK acks everything and the shutdown goes on. -/
def LeavesForShutdown (cumAck : Tsn) (s : Sender n) : Prop :=
  uncovered cumAck s.sentQueue = [] ∧ s.sendQueue = none ∧
    (s.toBacklog.leavePartial true).shutsDown ∧
    (s.toBacklog.leavePartial true).has statePartialMsgLeft = false

section Moves

variable {cfg : SenderConfig} {sack : Sack n} {s : Sender n}

/-- With nothing left the handlers differ in `advanced_peer_ack_point` only. -/
theorem agree_of_drained (hseg : sack.segs = []) (hnr : sack.nrSegs = []) {g u : Sender n}
    {recovery : Bool} {oldRwnd : ℕ} {e : StrikeEnv n} (hbare : u.bare = g.bare)
    (hd : g.drained = true) (hf : g.totalFlight = 0) (hc : g.totalFlightCount = 0) :
    (expressTail recovery sack.cumAck (g.setRwnd cfg sack.rwnd)).map Sender.view =
      (sackShutdown cfg sack.rwnd u (sackTail cfg sack oldRwnd e)).map Sender.view ↔
    ¬ ((g.toBacklog.leavePartial true).shutsDown ∧
      (g.toBacklog.leavePartial true).has statePartialMsgLeft = false ∧
      tsnGt sack.cumAck g.advancedPeerAckPoint = true) := by
  have hback : u.toBacklog = g.toBacklog := by
    have hb := congrArg (fun t : Sender n => t.toBacklog) hbare
    exact hb
  have hud : u.drained = true := by
    have hdr := congrArg Sender.drained hbare
    exact hdr.trans hd
  have huq : u.sentQueue = [] := by
    simp only [Sender.drained, Bool.and_eq_true, List.isEmpty_iff] at hud
    exact hud.2
  have hrwnd : g.toAsoc.rwndLeft cfg sack.rwnd = swsCut cfg sack.rwnd :=
    rwndLeft_of_idle cfg sack.rwnd hf hc
  have hset : (u.setRwnd cfg sack.rwnd).bare = (g.setRwnd cfg sack.rwnd).bare :=
    congrArg (Sender.setRwnd cfg sack.rwnd) hbare
  obtain ⟨hst, hcnt⟩ := leavePartial_congr g.toBacklog false true
  obtain ⟨hstay, habort⟩ := shutdownMove_congr hst hcnt
  have hpart := shutdownMove_abort_iff (g.toBacklog.leavePartial true)
  have hshut := shutdownMove_stay_iff (g.toBacklog.leavePartial true)
  rw [expressTail_of_drained (s := g.setRwnd cfg sack.rwnd) hd]
  simp only [sackShutdown, hud, if_true, hback]
  show (if (g.toBacklog.leavePartial false).shutdownMove = .abort then none else _) = _ ↔ _
  rw [if_congr habort rfl rfl]
  cases hm : (g.toBacklog.leavePartial true).shutdownMove with
  | stay =>
    have hno := hshut.1 hm
    simp only [Option.map_some, reduceCtorEq, if_false, hno, false_and, not_false_iff, iff_true,
      Option.some.injEq]
    rw [sackTail_of_empty hseg hnr oldRwnd e (by exact huq)]
    calc ((g.setRwnd cfg sack.rwnd).advance sack.cumAck).view
        _ = ((g.setRwnd cfg sack.rwnd).bare.advance sack.cumAck).view := rfl
        _ = ((u.setRwnd cfg sack.rwnd).bare.advance sack.cumAck).view := by rw [hset]
        _ = _ := rfl
  | abort =>
    have hyes := (hpart.1 hm).2
    simp [hyes]
  | shut b =>
    have hsd : (g.toBacklog.leavePartial true).shutsDown := by
      by_contra hno
      rw [hshut.2 hno] at hm
      cases hm
    have hnp : (g.toBacklog.leavePartial true).has statePartialMsgLeft = false := by
      rw [← Bool.not_eq_true]
      intro hyes
      rw [hpart.2 ⟨hsd, hyes⟩] at hm
      cases hm
    simp only [Option.map_some, reduceCtorEq, if_false, hsd, hnp, true_and, Option.some.injEq]
    have hview : ({ u with peersRwnd := swsCut cfg sack.rwnd, toBacklog := b } : Sender n).view =
        (g.setRwnd cfg sack.rwnd).view := by
      calc ({ u with peersRwnd := swsCut cfg sack.rwnd, toBacklog := b } : Sender n).view
          _ = ({ u.bare with peersRwnd := swsCut cfg sack.rwnd } : Sender n).view := rfl
          _ = (g.setRwnd cfg sack.rwnd).view := by
            rw [hbare, ← hrwnd]
            rfl
    rw [hview]
    exact view_advance_iff (g.setRwnd cfg sack.rwnd) sack.cumAck

/-- With something left the tails do the same. -/
theorem agree_of_not_drained (hseg : sack.segs = []) (hnr : sack.nrSegs = []) {g u : Sender n}
    {oldRwnd : ℕ} {e : StrikeEnv n} (hbare : u.bare = g.bare)
    (hw : ∀ i, (u.nets i).windowProbe = (g.nets i).windowProbe) (hd : g.drained = false) :
    (expressTail (decide (oldRwnd < g.toAsoc.rwndLeft cfg sack.rwnd)) sack.cumAck
        (g.setRwnd cfg sack.rwnd)).map Sender.view =
      (sackShutdown cfg sack.rwnd u (sackTail cfg sack oldRwnd e)).map Sender.view := by
  have hud : u.drained = false := by
    have hdr := congrArg Sender.drained hbare
    exact hdr.trans hd
  have hrwnd : u.toAsoc.rwndLeft cfg sack.rwnd = g.toAsoc.rwndLeft cfg sack.rwnd := by
    have hr := congrArg (fun t : Sender n => t.toAsoc.rwndLeft cfg sack.rwnd) hbare
    exact hr
  have hset : (u.setRwnd cfg sack.rwnd).bare = (g.setRwnd cfg sack.rwnd).bare :=
    congrArg (Sender.setRwnd cfg sack.rwnd) hbare
  rw [expressTail_of_not_drained (s := g.setRwnd cfg sack.rwnd) hd]
  simp only [sackShutdown, hud, Bool.false_eq_true, if_false, Option.map_some,
    sackTail_view hseg hnr, hset, hrwnd, hw]
  rfl

theorem expressHandleSack_of_moved (hsel : selectsExpress s sack.cumAck = true)
    (hne : s.lastAckedSeq ≠ sack.cumAck) :
    expressHandleSack cfg sack.cumAck sack.rwnd sack.ecneSeen s =
      if cfg.strictSacks && tsnGe sack.cumAck s.sendS then none
      else
        expressTail (decide (s.peersRwnd <
          (ackedSender sack.cumAck sack.ecneSeen s.hushed).toAsoc.rwndLeft cfg sack.rwnd))
          sack.cumAck
          ((ackedSender sack.cumAck sack.ecneSeen s.hushed).setRwnd cfg sack.rwnd) := by
  simp only [selectsExpress, Bool.and_eq_true, beq_iff_eq, Bool.not_eq_true'] at hsel
  obtain ⟨⟨⟨⟨-, hge⟩, -⟩, -⟩, -⟩ := hsel
  have hold : tsnGt s.lastAckedSeq sack.cumAck = false :=
    Bool.eq_false_iff.2 (not_tsnGt_of_tsnGe hge)
  have hgt : tsnGt sack.cumAck s.hushed.lastAckedSeq = true := by
    show tsnGt sack.cumAck s.lastAckedSeq = true
    simp only [tsnGe, Serial.ge, Bool.or_eq_true, beq_iff_eq] at hge
    exact hge.resolve_right (fun h => hne h.symm)
  simp only [expressHandleSack, hold, hne, Bool.false_eq_true, if_false,
    expressMove_eq sack.ecneSeen hgt]
  rfl

/-- A queue whose first uncovered chunk is not ahead is cut shorter by the full handler. -/
theorem length_lt_of_not_ahead (h : ¬ AheadOf sack.cumAck s.sentQueue) :
    ((uncovered sack.cumAck s.sentQueue).dropWhile fun c => !tsnGt c.tsn sack.cumAck).length <
      (uncovered sack.cumAck s.sentQueue).length := by
  unfold AheadOf at h
  cases hu : uncovered sack.cumAck s.sentQueue with
  | nil => simp [hu] at h
  | cons c r =>
    have hc : tsnGt c.tsn sack.cumAck = false := by simpa [hu] using h
    simp only [List.dropWhile_cons, hc, Bool.not_false, if_true, List.length_cons]
    exact Nat.lt_succ_of_le (List.dropWhile_sublist _).length_le

/-- The express handler while something is left keeps the uncovered chunks. -/
theorem length_expressTail {g t : Sender n} {recovery : Bool} (hd : g.drained = false)
    (ht : (expressTail recovery sack.cumAck (g.setRwnd cfg sack.rwnd)).map Sender.view =
      some t.view) : t.view.sentQueue.length = g.sentQueue.length := by
  rw [expressTail_of_not_drained (s := g.setRwnd cfg sack.rwnd) hd] at ht
  rw [← Option.some.inj ht]
  obtain ⟨f, q, h, hq⟩ := probeAgain_frame
    (fun i => recovery && ((g.setRwnd cfg sack.rwnd).nets i).windowProbe)
    (g.setRwnd cfg sack.rwnd).bare
  rw [h]
  exact hq

theorem agree_of_moved (hseg : sack.segs = []) (hnr : sack.nrSegs = [])
    (hsel : selectsExpress s sack.cumAck = true)
    (hsent : ∀ c ∈ s.sentQueue, c.sent ≠ datagramUnsent)
    (hpr : ∀ c ∈ s.sentQueue, prSctpEnabled c.flags = false)
    (hne : s.lastAckedSeq ≠ sack.cumAck)
    (hsane : (cfg.strictSacks && tsnGe sack.cumAck s.sendS) = false) :
    (expressHandleSack cfg sack.cumAck sack.rwnd sack.ecneSeen s).map Sender.view =
        (handleSack cfg sack s).map Sender.view ↔
      AheadOf sack.cumAck s.sentQueue ∧
        ¬ (LeavesForShutdown sack.cumAck s ∧
          tsnGt sack.cumAck s.advancedPeerAckPoint = true) := by
  have hfrags := hsel
  simp only [selectsExpress, Bool.and_eq_true, beq_iff_eq, Bool.not_eq_true'] at hfrags
  obtain ⟨⟨⟨-, hf⟩, hnf⟩, -⟩ := hfrags
  obtain ⟨hgq, hgb, hga⟩ := ackedSender_frame sack.cumAck sack.ecneSeen s.hushed
  rw [expressHandleSack_of_moved hsel hne, if_neg (by simp [hsane])]
  by_cases hahead : AheadOf sack.cumAck s.sentQueue
  · obtain ⟨hq, hu⟩ := settlePart_agrees cfg (s := s.hushed) hseg hnr hsent hpr hf hnf
      hahead
    obtain ⟨hbare, hw⟩ := bare_of_unsaw hq hu
    rw [handleSack_of_selected hseg hnr hsel, if_neg (by simp [hsane])]
    simp only [hahead, true_and]
    cases hd : (ackedSender sack.cumAck sack.ecneSeen s.hushed).drained with
    | true =>
      have hunc : uncovered sack.cumAck s.sentQueue = [] ∧ s.sendQueue = none := by
        have hboth := hd
        simp only [Sender.drained, Bool.and_eq_true, List.isEmpty_iff, Option.isNone_iff_eq_none,
          hgq] at hboth
        exact ⟨hboth.2, (congrArg Backlog.sendQueue hgb).symm.trans hboth.1⟩
      obtain ⟨hfl, hfc⟩ := ackedSender_flight sack.cumAck sack.ecneSeen (s := s.hushed) hunc.1
      rw [settledSender, agree_of_drained hseg hnr hbare hd hfl hfc, hgb, hga]
      simp only [LeavesForShutdown, hunc.1, hunc.2, true_and, and_assoc]
      exact Iff.rfl
    | false =>
      have hno : ¬ LeavesForShutdown sack.cumAck s := by
        rintro ⟨hunc, hsq, -⟩
        have hsq' : (ackedSender sack.cumAck sack.ecneSeen s.hushed).sendQueue = none :=
          (congrArg Backlog.sendQueue hgb).trans hsq
        have hq' : (ackedSender sack.cumAck sack.ecneSeen s.hushed).sentQueue = [] := hgq.trans hunc
        simp [Sender.drained, hsq', hq'] at hd
      simp only [hno, false_and, not_false_iff, iff_true]
      exact agree_of_not_drained hseg hnr hbare hw hd
  · simp only [hahead, false_and, iff_false]
    intro heq
    have hlt := length_lt_of_not_ahead hahead
    have hd : (ackedSender sack.cumAck sack.ecneSeen s.hushed).drained = false := by
      have hne' : uncovered sack.cumAck s.sentQueue ≠ [] := by
        intro h0
        simp [h0] at hlt
      have hq' : (ackedSender sack.cumAck sack.ecneSeen s.hushed).sentQueue ≠ [] := hgq ▸ hne'
      simp [Sender.drained, hq']
    cases hfull : handleSack cfg sack s with
    | none =>
      rw [hfull, expressTail_of_not_drained
        (s := (ackedSender sack.cumAck sack.ecneSeen s.hushed).setRwnd cfg sack.rwnd) hd] at heq
      cases heq
    | some t =>
      rw [hfull] at heq
      have h1 := length_expressTail hd heq
      have h2 := length_handleSack hseg hnr hsel hsent hpr hfull
      have hq' : (ackedSender sack.cumAck sack.ecneSeen s.hushed).sentQueue =
          uncovered sack.cumAck s.sentQueue := hgq
      rw [hq'] at h1
      omega

end Moves

def Flight.counts (f : Flight n) : ℕ × ℕ × (Fin n → ℕ) × ℕ :=
  (f.totalFlight, f.totalFlightCount, f.flightSize, f.sentQueueRetranCnt)

/-- The audit would run, and change a counter. -/
def AuditRepairs (s : Sender n) : Prop :=
  s.Idle ∧ (auditFlight s).toFlight.counts ≠ s.toFlight.counts

def auditedFlight (s : Sender n) : Flight n :=
  if s.Idle then (auditFlight s).toFlight else s.toFlight

theorem not_auditRepairs_iff (s : Sender n) :
    ¬ AuditRepairs s ↔ (auditedFlight s).counts = s.toFlight.counts := by
  unfold AuditRepairs auditedFlight
  split
  · rename_i h
    simp [h]
  · rename_i h
    simp [h]

theorem view_setFlight_iff (s : Sender n) (f : Flight n) :
    ({ s with toFlight := f } : Sender n).view = s.view ↔ f.counts = s.toFlight.counts := by
  constructor
  · intro h
    have h1 := congrArg SackView.totalFlight h
    have h2 := congrArg SackView.totalFlightCount h
    have h3 := congrArg SackView.flightSize h
    have h4 := congrArg SackView.sentQueueRetranCnt h
    exact Prod.ext h1 (Prod.ext h2 (Prod.ext h3 h4))
  · intro h
    obtain ⟨h1, h2, h3, h4⟩ : f.totalFlight = s.totalFlight ∧
        f.totalFlightCount = s.totalFlightCount ∧ f.flightSize = s.flightSize ∧
        f.sentQueueRetranCnt = s.sentQueueRetranCnt := by
      simpa [Flight.counts] using h
    simp only [Sender.view, h1, h2, h3, h4]

theorem view_advance_setFlight_iff (s : Sender n) (f : Flight n) (cumAck : Tsn) :
    (({ s with toFlight := f } : Sender n).advance cumAck).view = s.view ↔
      f.counts = s.toFlight.counts ∧ tsnGt cumAck s.advancedPeerAckPoint ≠ true := by
  have hset := view_setFlight_iff (s.advance cumAck) f
  constructor
  · intro h
    have hno : tsnGt cumAck s.advancedPeerAckPoint ≠ true :=
      (advanced_eq_iff _ _).1 (congrArg SackView.advancedPeerAckPoint h)
    exact ⟨hset.1 (h.trans ((view_advance_iff s cumAck).2 hno).symm), hno⟩
  · rintro ⟨hf, hno⟩
    exact (hset.2 hf).trans ((view_advance_iff s cumAck).2 hno)

/-- Without recovery the part behind `again` is at most an audit. -/
theorem probeAgain_audit {s : Sender n} (hq : s.sentQueue ≠ []) (cfg : SenderConfig) (rwnd : ℕ) :
    probeAgain (fun _ => false) (s.hushed.setRwnd cfg rwnd).bare =
      { (s.hushed.setRwnd cfg rwnd).bare with toFlight := auditedFlight s } := by
  rw [probeAgain_false (by exact hq)]
  have hidle : (s.hushed.setRwnd cfg rwnd).bare.Idle ↔ s.Idle := Iff.rfl
  have haudit : auditFlight (s.hushed.setRwnd cfg rwnd).bare =
      { (s.hushed.setRwnd cfg rwnd).bare with toFlight := (auditFlight s).toFlight } := by
    have hfs : fsAudit (s.hushed.setRwnd cfg rwnd).bare = fsAudit s := rfl
    unfold auditFlight
    rw [hfs]
    split <;> rfl
  by_cases h : s.Idle
  · rw [if_pos (hidle.2 h), haudit]
    simp only [auditedFlight, h, if_true]
  · rw [if_neg (fun h' => h (hidle.1 h'))]
    simp only [auditedFlight, h, if_false]
    rfl

/-- An ack of nothing new tells the congestion control nothing. -/
theorem ackedSender_of_none {cumAck : Tsn} {s : Sender n} (ecneSeen : Bool)
    (hlast : s.lastAckedSeq = cumAck) (hq : s.sentQueue ≠ [])
    (hcov : covered cumAck s.sentQueue = []) :
    (ackedSender cumAck ecneSeen s.hushed).bare = s.hushed.bare ∧
      ∀ i, ((ackedSender cumAck ecneSeen s.hushed).nets i).windowProbe =
        (s.nets i).windowProbe := by
  have hunc : uncovered cumAck s.sentQueue = s.sentQueue := by
    have happ : covered cumAck s.sentQueue ++ uncovered cumAck s.sentQueue = s.sentQueue :=
      List.takeWhile_append_dropWhile
    rwa [hcov, List.nil_append] at happ
  have hexit : ∀ net : Net, ({ net with netAck := 0, netAck2 := 0 } : Net).exitPf =
      { net with netAck := 0, netAck2 := 0 } := by
    intro net
    simp [Net.exitPf]
  have hq' : s.hushed.sentQueue = s.sentQueue := rfl
  have hempty : s.sentQueue.isEmpty = false := by simpa using hq
  simp only [ackedSender, hq', hcov, hunc, Sender.syncFlight, hempty, List.foldl_nil,
    Bool.false_eq_true, if_false]
  subst hlast
  cases ecneSeen with
  | true => exact ⟨rfl, fun _ => rfl⟩
  | false =>
    constructor
    · simp only [Asoc.cwndUpdateAfterSack, Asoc.exitPf, Asoc.resetNets, hexit]
      rfl
    · intro i
      simp only [Asoc.cwndUpdateAfterSack, Asoc.exitPf, Asoc.resetNets, hexit]
      rfl

/-- The state in which a window update is handled alike: nothing is acked twice, no probe waits
for the window to open, the audit has nothing to repair and the ack point is not behind. -/
structure WindowUpdateAgrees (cfg : SenderConfig) (sack : Sack n) (s : Sender n) : Prop where
  head : ∀ c ∈ s.sentQueue.head?, tsnGt c.tsn sack.cumAck = true
  sane : (cfg.strictSacks && tsnGe sack.cumAck s.sendS) = false
  probe : s.peersRwnd < s.toAsoc.rwndLeft cfg sack.rwnd → (∃ i, (s.nets i).windowProbe = true) →
    ∀ c ∈ s.sentQueue, c.windowProbe = false
  audit : ¬ s.peersRwnd < s.toAsoc.rwndLeft cfg sack.rwnd ∨ (∃ i, (s.nets i).windowProbe = true) →
    ¬ AuditRepairs s
  point : ¬ s.peersRwnd < s.toAsoc.rwndLeft cfg sack.rwnd →
    tsnGt sack.cumAck s.advancedPeerAckPoint ≠ true

section Window

variable {cfg : SenderConfig} {sack : Sack n} {s : Sender n}

/-- The express handler on a window update. -/
theorem expressHandleSack_of_window (hlast : s.lastAckedSeq = sack.cumAck)
    (hq : s.sentQueue ≠ []) :
    (expressHandleSack cfg sack.cumAck sack.rwnd sack.ecneSeen s).map Sender.view =
      some (if s.peersRwnd < s.toAsoc.rwndLeft cfg sack.rwnd then
        ({ (s.hushed.setRwnd cfg sack.rwnd).bare with
            toFlight := auditedFlight s } : Sender n).advance sack.cumAck
        else s.hushed.setRwnd cfg sack.rwnd).view := by
  have hold : tsnGt s.lastAckedSeq sack.cumAck = false := by
    rw [hlast]
    simp [tsnGt]
  have hd : (s.hushed.setRwnd cfg sack.rwnd).drained = false := by
    have hq' : (s.hushed.setRwnd cfg sack.rwnd).sentQueue ≠ [] := hq
    simp [Sender.drained, hq']
  have hopen : (s.hushed.setRwnd cfg sack.rwnd).peersRwnd = s.toAsoc.rwndLeft cfg sack.rwnd := rfl
  unfold expressHandleSack
  rw [if_neg (by simp [hold]), if_pos hlast]
  simp only [hopen]
  split
  · rw [expressTail_of_not_drained hd]
    simp only [Bool.false_and]
    rw [probeAgain_audit hq]
  · rfl

/-- The full handler on a window update of a queue that is ahead of it. -/
theorem handleSack_of_window (hseg : sack.segs = []) (hnr : sack.nrSegs = [])
    (hsel : selectsExpress s sack.cumAck = true)
    (hsent : ∀ c ∈ s.sentQueue, c.sent ≠ datagramUnsent)
    (hpr : ∀ c ∈ s.sentQueue, prSctpEnabled c.flags = false)
    (hlast : s.lastAckedSeq = sack.cumAck)
    (hsane : (cfg.strictSacks && tsnGe sack.cumAck s.sendS) = false)
    (hhead : ∀ c ∈ s.sentQueue.head?, tsnGt c.tsn sack.cumAck = true) :
    (handleSack cfg sack s).map Sender.view =
      some ((probeAgain (fun i => decide (s.peersRwnd < s.toAsoc.rwndLeft cfg sack.rwnd) &&
        (s.nets i).windowProbe) (s.hushed.setRwnd cfg sack.rwnd).bare).advance
          sack.cumAck).view := by
  have hfrags := hsel
  simp only [selectsExpress, Bool.and_eq_true, beq_iff_eq, Bool.not_eq_true',
    List.isEmpty_eq_false_iff] at hfrags
  obtain ⟨⟨⟨-, hf⟩, hnf⟩, hq⟩ := hfrags
  have hcov : covered sack.cumAck s.sentQueue = [] ∧ AheadOf sack.cumAck s.sentQueue := by
    cases hs : s.sentQueue with
    | nil => exact absurd hs hq
    | cons c r =>
      have hgt := hhead c (by rw [hs]; rfl)
      have hge : tsnGe sack.cumAck c.tsn = false := by
        rw [← Bool.not_eq_true]
        intro hge
        exact not_tsnGt_of_tsnGe hge hgt
      simp [covered, AheadOf, uncovered, hge, hgt]
  obtain ⟨hsq, hu⟩ := settlePart_agrees cfg (s := s.hushed) hseg hnr hsent hpr hf hnf hcov.2
  obtain ⟨hbare, hw⟩ := bare_of_unsaw hsq hu
  obtain ⟨hgb, hgw⟩ := ackedSender_of_none sack.ecneSeen hlast hq hcov.1
  have hub := hbare.trans hgb
  have hdr : (settledSender cfg sack s).drained = false := by
    have h1 := congrArg Sender.drained hub
    have h2 : (settledSender cfg sack s).drained = s.drained := h1
    rw [h2]
    simp [Sender.drained, hq]
  have hrwnd : (settledSender cfg sack s).toAsoc.rwndLeft cfg sack.rwnd =
      s.toAsoc.rwndLeft cfg sack.rwnd := by
    have hr := congrArg (fun t : Sender n => t.toAsoc.rwndLeft cfg sack.rwnd) hub
    exact hr
  have hset : ((settledSender cfg sack s).setRwnd cfg sack.rwnd).bare =
      (s.hushed.setRwnd cfg sack.rwnd).bare := congrArg (Sender.setRwnd cfg sack.rwnd) hub
  have hprobe : ∀ i, ((settledSender cfg sack s).nets i).windowProbe = (s.nets i).windowProbe :=
    fun i => (hw i).trans (hgw i)
  rw [handleSack_of_selected hseg hnr hsel, if_neg (by simp [hsane])]
  simp only [sackShutdown, hdr, Bool.false_eq_true, if_false, Option.map_some,
    sackTail_view hseg hnr, hrwnd, hset, hprobe]

/-- The queue of the full handler is cut where the express handler does not look. -/
theorem head_of_agree (hseg : sack.segs = []) (hnr : sack.nrSegs = [])
    (hsel : selectsExpress s sack.cumAck = true)
    (hsent : ∀ c ∈ s.sentQueue, c.sent ≠ datagramUnsent)
    (hpr : ∀ c ∈ s.sentQueue, prSctpEnabled c.flags = false) {t u : Sender n}
    (hlen : u.sentQueue.length = s.sentQueue.length) (ht : handleSack cfg sack s = some t)
    (heq : u.view = t.view) : ∀ c ∈ s.sentQueue.head?, tsnGt c.tsn sack.cumAck = true := by
  have hfull := length_handleSack hseg hnr hsel hsent hpr ht
  rw [← heq] at hfull
  have hle : ((uncovered sack.cumAck s.sentQueue).dropWhile
      fun c => !tsnGt c.tsn sack.cumAck).length = s.sentQueue.length := hfull.symm.trans hlen
  intro c hc
  cases hq : s.sentQueue with
  | nil => simp [hq] at hc
  | cons d r =>
    obtain rfl : d = c := by simpa [hq] using hc
    by_contra hgt
    rw [hq] at hle
    have hshort : ((uncovered sack.cumAck (d :: r)).dropWhile
        fun c => !tsnGt c.tsn sack.cumAck).length ≤ r.length := by
      unfold uncovered
      rw [List.dropWhile_cons]
      split
      · exact ((List.dropWhile_sublist _).trans (List.dropWhile_sublist _)).length_le
      · rw [List.dropWhile_cons, if_pos (by simp [hgt])]
        exact (List.dropWhile_sublist _).length_le
    simp only [List.length_cons] at hle
    omega

theorem agree_of_window (hseg : sack.segs = []) (hnr : sack.nrSegs = [])
    (hsel : selectsExpress s sack.cumAck = true)
    (hsent : ∀ c ∈ s.sentQueue, c.sent ≠ datagramUnsent)
    (hpr : ∀ c ∈ s.sentQueue, prSctpEnabled c.flags = false)
    (hlast : s.lastAckedSeq = sack.cumAck) :
    (expressHandleSack cfg sack.cumAck sack.rwnd sack.ecneSeen s).map Sender.view =
        (handleSack cfg sack s).map Sender.view ↔ WindowUpdateAgrees cfg sack s := by
  have hq : s.sentQueue ≠ [] := by
    simp only [selectsExpress, Bool.and_eq_true, Bool.not_eq_true',
      List.isEmpty_eq_false_iff] at hsel
    exact hsel.2
  rw [expressHandleSack_of_window hlast hq]
  by_cases hsane : (cfg.strictSacks && tsnGe sack.cumAck s.sendS) = false
  swap
  · -- only the full handler looks at the strict check here
    have hnone : handleSack cfg sack s = none := by
      rw [handleSack_of_selected hseg hnr hsel, if_pos (by simpa using hsane)]
    rw [hnone]
    constructor
    · intro h
      cases h
    · intro h
      exact absurd h.sane hsane
  by_cases hhead : ∀ c ∈ s.sentQueue.head?, tsnGt c.tsn sack.cumAck = true
  swap
  · constructor
    · intro h
      refine absurd ?_ hhead
      cases hfull : handleSack cfg sack s with
      | none => rw [hfull] at h; cases h
      | some t =>
        rw [hfull] at h
        refine head_of_agree hseg hnr hsel hsent hpr ?_ hfull (Option.some.inj h)
        split <;> rfl
    · intro h
      exact absurd h.head hhead
  rw [handleSack_of_window hseg hnr hsel hsent hpr hlast hsane hhead, Option.some.injEq]
  by_cases hopen : s.peersRwnd < s.toAsoc.rwndLeft cfg sack.rwnd
  · simp only [hopen, if_true, decide_true, Bool.true_and]
    by_cases hnet : ∃ i, (s.nets i).windowProbe = true
    · by_cases hchunk : ∀ c ∈ s.sentQueue, c.windowProbe = false
      · rw [probeAgain_of_none hnet (by exact hchunk)]
        have hset := view_setFlight_iff ((s.hushed.setRwnd cfg sack.rwnd).bare.advance sack.cumAck)
          (auditedFlight s)
        refine (Iff.trans hset (not_auditRepairs_iff s).symm).trans ?_
        exact ⟨fun h => ⟨hhead, hsane, fun _ _ => hchunk, fun _ => h, fun h' => absurd hopen h'⟩,
          fun h => h.audit (Or.inr hnet)⟩
      · have hsome : ∃ c ∈ s.sentQueue, c.windowProbe = true := by simpa using hchunk
        have hlt := probeAgain_lt (s := (s.hushed.setRwnd cfg sack.rwnd).bare) hnet hsome
        constructor
        · intro h
          have hcount := congrArg (fun v => v.sentQueue.countP (·.windowProbe)) h
          exact absurd hcount (Nat.ne_of_gt hlt)
        · intro h
          exact absurd (h.probe hopen hnet) hchunk
    · have hnone : (fun i => (s.nets i).windowProbe) = fun _ => false := by
        funext i
        exact Bool.not_eq_true _ ▸ fun hi => hnet ⟨i, hi⟩
      rw [hnone, probeAgain_audit hq]
      simp only [true_iff]
      exact ⟨hhead, hsane, fun _ h => absurd h hnet,
        fun h => absurd h (by simp [hopen, hnet]), fun h => absurd hopen h⟩
  · simp only [hopen, if_false, decide_false, Bool.false_and]
    rw [probeAgain_audit hq, eq_comm]
    have hset := view_advance_setFlight_iff (s.hushed.setRwnd cfg sack.rwnd).bare
      (auditedFlight s) sack.cumAck
    refine hset.trans (Iff.trans (and_congr_left' (not_auditRepairs_iff s).symm) ?_)
    exact ⟨fun h => ⟨hhead, hsane, fun h' => absurd h' hopen, fun _ => h.1, fun _ => h.2⟩,
      fun h => ⟨h.audit (Or.inl hopen), h.point hopen⟩⟩

end Window

/-- What holds of a sent queue: every chunk on it was sent, and `pr_sctp_cnt` covers those with a
PR-SCTP policy. -/
structure Sender.WellQueued (s : Sender n) : Prop where
  sent : ∀ c ∈ s.sentQueue, c.sent ≠ datagramUnsent
  prSctp : s.sentQueue.countP (fun c => prSctpEnabled c.flags) ≤ s.prSctpCnt

/-- The states and SACKs on which the express handler does what the full one does. When the
cumulative ack moves, the queue is cut at the same chunk by both, and the SACK does not finish a
shutdown while `advanced_peer_ack_point` is behind. -/
def ExpressAgrees (cfg : SenderConfig) (sack : Sack n) (s : Sender n) : Prop :=
  if s.lastAckedSeq = sack.cumAck then WindowUpdateAgrees cfg sack s
  else (cfg.strictSacks && tsnGe sack.cumAck s.sendS) = true ∨
    (AheadOf sack.cumAck s.sentQueue ∧
      ¬ (LeavesForShutdown sack.cumAck s ∧ tsnGt sack.cumAck s.advancedPeerAckPoint = true))

theorem expressHandleSack_agrees_iff (cfg : SenderConfig) (sack : Sack n) {s : Sender n}
    (hseg : sack.segs = []) (hnr : sack.nrSegs = [])
    (hsel : selectsExpress s sack.cumAck = true) (hq : s.WellQueued) :
    (expressHandleSack cfg sack.cumAck sack.rwnd sack.ecneSeen s).map Sender.view =
      (handleSack cfg sack s).map Sender.view ↔ ExpressAgrees cfg sack s := by
  have hpr : ∀ c ∈ s.sentQueue, prSctpEnabled c.flags = false := by
    have hsel' := hsel
    simp only [selectsExpress, Bool.and_eq_true, beq_iff_eq] at hsel'
    have hcnt := Nat.le_zero.1 (hsel'.1.1.1.1 ▸ hq.prSctp)
    simpa [List.countP_eq_zero] using hcnt
  unfold ExpressAgrees
  by_cases hlast : s.lastAckedSeq = sack.cumAck
  · rw [if_pos hlast]
    exact agree_of_window hseg hnr hsel hq.sent hpr hlast
  · rw [if_neg hlast]
    by_cases hsane : (cfg.strictSacks && tsnGe sack.cumAck s.sendS) = true
    · rw [expressHandleSack_of_moved hsel hlast, handleSack_of_selected hseg hnr hsel,
        if_pos hsane, if_pos hsane]
      simp [hsane]
    · rw [agree_of_moved hseg hnr hsel hq.sent hpr hlast (by simpa using hsane)]
      simp [hsane]

local instance expressAgree_neZero : NeZero 1 := ⟨Nat.one_ne_zero⟩

/-- Two chunks in flight to one destination, the first of them a probe of a closed window. -/
def probingSender (probe : Bool) : Sender 1 :=
  { totalFlight := 2000, totalFlightCount := 2, flightSize := fun _ => 2000
    sentQueueRetranCnt := 0, saturated := false
    sendQueue := none, sendingSeq := 3, streamQueueCnt := 0, state := 0x0008
    lockedOnSending := none
    nets := fun _ =>
      { netAck := 0, netAck2 := 0, windowProbe := probe, sawNewack := false
        thisSackHighestNewack := 0, pf := false }
    lastAckedSeq := 0, sentQueueCnt := 2, prSctpCnt := 0, sentQueueCntRemoveable := 0
    chunksOnQueues := fun _ => 2, peersRwnd := 0, advancedPeerAckPoint := 0
    thisSackHighestGap := 0, sawSackWithFrags := false, sawSackWithNrFrags := false
    cwndInput := fun _ => (0, 0)
    sentQueue := [probingChunk 1 probe, probingChunk 2 false] }
where
  probingChunk (tsn : Tsn) (probe : Bool) : SentChunk 1 :=
    { tsn := tsn, streamNumber := 0, sendSize := 1000, bookSize := 1000, bookSizeScale := false
      sent := datagramSent, sndCount := 1, whoTo := 0, flags := 0, hasData := true
      windowProbe := probe, chunkWasRevoked := false, doingFastRetransmit := false
      fastRetranTsn := 0, noFrAllowed := false, sentRcvTime := 0, authKeyid := 0 }

def probingConfig : SenderConfig :=
  { swsSender := 1420, peerChunkOh := 256, strictSacks := true, cmtOnOff := false
    cmtUseDac := false, prsctpSupported := false }

def openingSack (cumAck : Tsn) : Sack 1 :=
  { cumAck := cumAck, rwnd := 60000, segs := [], nrSegs := [], cmtDacFlag := false
    ecneSeen := false, fastRetranLossRecovery := false, alternate := id }

theorem probingSender_wellQueued (probe : Bool) : (probingSender probe).WellQueued := by
  cases probe <;> constructor <;> decide +kernel

/-- The cumulative ack moves past the probe. -/
theorem probingSender_agrees :
    (expressHandleSack probingConfig 1 60000 false (probingSender true)).map Sender.view =
      (handleSack probingConfig (openingSack 1) (probingSender true)).map Sender.view := by
  refine (expressHandleSack_agrees_iff probingConfig (openingSack 1) rfl rfl
    (by decide +kernel) (probingSender_wellQueued true)).2 ?_
  unfold ExpressAgrees
  rw [if_neg (by decide)]
  refine Or.inr ⟨by unfold AheadOf; decide +kernel, ?_⟩
  rintro ⟨⟨h, -⟩, -⟩
  exact absurd h (by decide +kernel)

/-- The window opens without a new ack: the full handler takes the probe out of the flight and
marks it for resend, the express handler leaves it. -/
theorem probingSender_not_agrees :
    selectsExpress (probingSender true) 0 = true ∧ (probingSender true).WellQueued ∧
    (expressHandleSack probingConfig 0 60000 false (probingSender true)).map
      (fun s => (s.totalFlight, s.sentQueueRetranCnt, s.sentQueue.map (·.sent))) =
        some (2000, 0, [datagramSent, datagramSent]) ∧
    (handleSack probingConfig (openingSack 0) (probingSender true)).map
      (fun s => (s.totalFlight, s.sentQueueRetranCnt, s.sentQueue.map (·.sent))) =
        some (1000, 1, [datagramResend, datagramSent]) ∧
    (expressHandleSack probingConfig 0 60000 false (probingSender true)).map Sender.view ≠
      (handleSack probingConfig (openingSack 0) (probingSender true)).map Sender.view := by
  have he : (expressHandleSack probingConfig 0 60000 false (probingSender true)).map
      (fun s => (s.totalFlight, s.sentQueueRetranCnt, s.sentQueue.map (·.sent))) =
        some (2000, 0, [datagramSent, datagramSent]) := by decide +kernel
  have hf : (handleSack probingConfig (openingSack 0) (probingSender true)).map
      (fun s => (s.totalFlight, s.sentQueueRetranCnt, s.sentQueue.map (·.sent))) =
        some (1000, 1, [datagramResend, datagramSent]) := by decide +kernel
  refine ⟨by decide +kernel, probingSender_wellQueued true, he, hf, ?_⟩
  intro h
  have hflight := congrArg (Option.map SackView.totalFlight) h
  rw [Option.map_map, Option.map_map] at hflight
  have he' := congrArg (Option.map Prod.fst) he
  have hf' := congrArg (Option.map Prod.fst) hf
  rw [Option.map_map] at he' hf'
  have : some 2000 = some 1000 := he'.symm.trans (hflight.trans hf')
  exact absurd this (by decide)

end Sctp
