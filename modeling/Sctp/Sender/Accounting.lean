import Sctp.Sender.SackAccounting
import Sctp.Sender.Retransmit
import Sctp.Lib.Trace

/-! Flight accounting of the sender over whole runs. -/
namespace Sctp
open Ledger List

variable {n : ℕ}

/-- The counters describe the sent queue, whatever the probe flags. -/
structure Sender.Counted (s : Sender n) : Prop where
  holds : s.toFlight.Holds (worth SentChunk.amount s.sentQueue)
  legal : ∀ c ∈ s.sentQueue, c.Legal

theorem Sender.Kept.counted {s : Sender n} (h : s.Kept) : s.Counted :=
  ⟨h.holds, fun c hc => (h.tidy c hc).1⟩

theorem Sender.Counted.kept {s : Sender n} (h : s.Counted)
    (hp : ∀ c ∈ s.sentQueue, c.ProbeClear) : s.Kept :=
  ⟨h.holds, fun c hc => ⟨h.legal c hc, hp c hc⟩⟩

/-- One chunk is replaced and the counters follow it. -/
theorem Sender.Counted.set {s : Sender n} (h : s.Counted) {i : ℕ} {c c' : SentChunk n}
    (hi : s.sentQueue[i]? = some c) (hc' : c'.Legal) {a : Asoc n}
    (ha : ∀ r, s.toFlight.Holds (r + c.amount) → a.toFlight.Holds (r + c'.amount)) :
    ({ toAsoc := a, sentQueue := s.sentQueue.set i c' } : Sender n).Counted := by
  obtain ⟨r, hr, hset⟩ := worth_set SentChunk.amount hi c'
  constructor
  · rw [hset]
    exact ha r (hr ▸ h.holds)
  · intro d hd
    rcases List.mem_or_eq_of_mem_set hd with hd | rfl
    · exact h.legal d hd
    · exact hc'

theorem SentChunk.legal_of_sent {c : SentChunk n} (h : c.sent = datagramSent) : c.Legal :=
  (SentChunk.tidy_of_sent h).1

theorem insertSent_perm (q : List (SentChunk n)) (c : SentChunk n) :
    (insertSent q c).Perm (c :: q) := by
  have hq : (q.reverse.dropWhile fun d => tsnGt d.tsn c.tsn).reverse ++
      (q.reverse.takeWhile fun d => tsnGt d.tsn c.tsn).reverse = q := by
    rw [← List.reverse_append, List.takeWhile_append_dropWhile, List.reverse_reverse]
  calc insertSent q c
      _ ~ c :: ((q.reverse.dropWhile fun d => tsnGt d.tsn c.tsn).reverse ++
          (q.reverse.takeWhile fun d => tsnGt d.tsn c.tsn).reverse) := List.perm_middle
      _ = c :: q := by rw [hq]

theorem Sender.Counted.cleanUpChunk {s : Sender n} (h : s.Counted) (cfg : SenderConfig)
    (net : Fin n) (lastSentTime : ℕ) (d : DataItem n) :
    (cleanUpChunk cfg net lastSentTime s d).Counted := by
  have hp := insertSent_perm s.sentQueue (d.sentChunk net lastSentTime)
  have hlt : (d.sentChunk net lastSentTime).sent < datagramResend := by
    show datagramSent < datagramResend
    decide
  constructor
  · show Flight.Holds _ (worth SentChunk.amount (insertSent s.sentQueue _))
    rw [worth_perm _ hp, worth_cons, add_comm, SentChunk.amount_of_lt hlt]
    exact h.holds.enter
  · intro c hc
    rcases List.mem_cons.1 (hp.mem_iff.1 hc) with rfl | hc
    · exact SentChunk.legal_of_sent rfl
    · exact h.legal c hc

theorem Sender.Counted.transmit {s : Sender n} (h : s.Counted) (cfg : SenderConfig) (net : Fin n)
    (lastSentTime : ℕ) (oneChunk : Bool) (dataList : List (DataItem n)) (sendQueue : Option Tsn) :
    (transmit cfg net lastSentTime oneChunk dataList sendQueue s).Counted := by
  simp only [Sctp.transmit, cleanUpDatalist]
  apply List.foldlRecOn (motive := fun s : Sender n => s.Counted)
  · split <;> exact ⟨h.holds, h.legal⟩
  · intro s hs d _
    exact hs.cleanUpChunk cfg net lastSentTime d

/-- The chunk at place `i` waits to be retransmitted. -/
def ResendAt (q : List (SentChunk n)) (i : ℕ) : Prop :=
  ∃ c, q[i]? = some c ∧ c.sent = datagramResend

theorem markProbe_spec {s : Sender n} (h : s.Counted) {i : ℕ} {c : SentChunk n}
    (hi : s.sentQueue[i]? = some c) (hc : c.sent = datagramResend) :
    (markProbe s i c).Counted ∧ ResendAt (markProbe s i c).sentQueue i := by
  unfold markProbe
  split
  · constructor
    · have hl : ({ c with windowProbe := true } : SentChunk n).Legal :=
        h.legal c (List.mem_of_getElem? hi)
      exact h.set hi hl (fun r hr => hr)
    · refine ⟨{ c with windowProbe := true }, ?_, hc⟩
      have hlt : i < s.sentQueue.length := (List.getElem?_eq_some_iff.1 hi).1
      exact List.getElem?_set_self hlt
  · exact ⟨h, c, hi, hc⟩

theorem pickRetran_spec (env : RetranEnv n) (is : List ℕ) (one : Bool) {s : Sender n}
    (h : s.Counted) :
    (pickRetran env is one s).1.Counted ∧
      ∀ i o, (pickRetran env is one s).2 = .first i o →
        ResendAt (pickRetran env is one s).1.sentQueue i := by
  induction is generalizing one s with
  | nil => exact ⟨h, fun i o hp => by simp [pickRetran] at hp⟩
  | cons i is ih =>
    rw [pickRetran]
    split
    · exact ⟨h, fun i o hp => by simp at hp⟩
    · rename_i c hi
      have hm : c.sent = datagramResend →
          (narrowProbe env s i c).Counted ∧ ResendAt (narrowProbe env s i c).sentQueue i := by
        intro hc
        unfold narrowProbe
        split
        · exact markProbe_spec h hi hc
        · exact ⟨h, c, hi, hc⟩
      split_ifs with h1 h2 h3 h4
      · exact ih one h
      · exact ⟨h, fun i o hp => by simp at hp⟩
      · exact ⟨h, fun i o hp => by simp at hp⟩
      · exact ih _ (hm (not_not.1 (not_or.1 h1).1)).1
      · obtain ⟨hk, hr⟩ := hm (not_not.1 (not_or.1 h1).1)
        refine ⟨hk, fun j o hp => ?_⟩
        simp only [RetranPick.first.injEq] at hp
        rw [← hp.1]
        exact hr

theorem bundleForward_spec (env : RetranEnv n) (net : Fin n) (q : List (SentChunk n))
    (is : List ℕ) {b b' : Bundle} (hf : bundleForward env net q is b = some b')
    (hnd : (b.dataList ++ is).Nodup) (hb : ∀ j ∈ b.dataList, ResendAt q j) :
    b'.dataList.Nodup ∧ ∀ j ∈ b'.dataList, ResendAt q j := by
  induction is generalizing b with
  | nil =>
    obtain rfl := Option.some.inj hf
    exact ⟨by simpa using hnd, hb⟩
  | cons i is ih =>
    have hstop : b.dataList.Nodup := (List.nodup_append.1 hnd).1
    have hskip : (b.dataList ++ is).Nodup :=
      hnd.sublist (List.Sublist.append_left (List.sublist_cons_self i is) b.dataList)
    have htake : ((b.dataList ++ [i]) ++ is).Nodup := by simpa using hnd
    rw [bundleForward] at hf
    split at hf
    · obtain rfl := Option.some.inj hf
      exact ⟨hstop, hb⟩
    · rename_i c hc
      have hadd : c.sent = datagramResend → ∀ j ∈ (b.add env c i).dataList, ResendAt q j := by
        intro hres j hj
        rcases List.mem_append.1 hj with hj | hj
        · exact hb j hj
        · obtain rfl := List.mem_singleton.1 hj
          exact ⟨c, hc, hres⟩
      split_ifs at hf with h1 h2 h3 h4 h5
      · exact ih hf hskip hb
      · obtain rfl := Option.some.inj hf
        exact ⟨hstop, hb⟩
      · obtain rfl := Option.some.inj hf
        exact ⟨(List.nodup_append.1 htake).1, hadd (not_not.1 (not_or.1 h1).1)⟩
      · exact ih hf htake (hadd (not_not.1 (not_or.1 h1).1))
      · obtain rfl := Option.some.inj hf
        exact ⟨hstop, hb⟩

theorem gatherBundle_spec (env : RetranEnv n) {q : List (SentChunk n)} {i : ℕ} {c : SentChunk n}
    {oneChunk : Bool} {b : Bundle} (hf : gatherBundle env q i c oneChunk = some b)
    (hi : q[i]? = some c) (hc : c.sent = datagramResend) :
    b.dataList.Nodup ∧ ∀ j ∈ b.dataList, ResendAt q j := by
  have hfirst : ∀ j ∈ [i], ResendAt q j := by
    intro j hj
    obtain rfl := List.mem_singleton.1 hj
    exact ⟨c, hi, hc⟩
  have hnd : ([i] ++ List.range' (i + 1) (q.length - (i + 1))).Nodup := by
    rw [List.singleton_append, List.nodup_cons]
    exact ⟨fun h => by have := (List.mem_range'_1.1 h).1; omega, List.nodup_range'⟩
  simp only [gatherBundle] at hf
  split_ifs at hf
  · obtain rfl := Option.some.inj hf
    exact ⟨List.nodup_singleton i, hfirst⟩
  · exact bundleForward_spec env c.whoTo q _ hf hnd hfirst
  · obtain rfl := Option.some.inj hf
    exact ⟨List.nodup_nil, by simp⟩
  · exact bundleForward_spec env c.whoTo q _ hf (by simpa using (List.nodup_cons.1 hnd).2)
      (by simp)

theorem resend_holds {cfg : SenderConfig} {env : RetranEnv n} {s : Asoc n} {c : SentChunk n}
    {r : Amount n} (hc : c.sent = datagramResend) (h : s.toFlight.Holds (r + c.amount)) :
    (resend cfg env s c).toFlight.Holds (r + (resentChunk env c).amount) := by
  have hlt : (resentChunk env c).sent < datagramResend := by
    show datagramSent < datagramResend
    decide
  rw [SentChunk.amount_of_eq hc] at h
  rw [SentChunk.amount_of_lt hlt]
  exact h.retranDecr.enter

theorem Sender.Counted.resendAll {s : Sender n} (h : s.Counted) (cfg : SenderConfig)
    (env : RetranEnv n) (js : List ℕ) (hnd : js.Nodup) (hjs : ∀ j ∈ js, ResendAt s.sentQueue j) :
    (js.foldl (resendAt cfg env) s).Counted := by
  induction js generalizing s with
  | nil => exact h
  | cons j js ih =>
    obtain ⟨c, hj, hc⟩ := hjs j (by simp)
    have hs : resendAt cfg env s j =
        { toAsoc := resend cfg env s.toAsoc c
          sentQueue := s.sentQueue.set j (resentChunk env c) } := by
      rw [resendAt, hj]
    rw [List.foldl_cons, hs]
    apply ih
    · exact h.set hj (SentChunk.legal_of_sent rfl) (fun r hr => resend_holds hc hr)
    · exact (List.nodup_cons.1 hnd).2
    · intro k hk
      obtain ⟨d, hd, hd'⟩ := hjs k (by simp [hk])
      have hne : j ≠ k := fun e => (List.nodup_cons.1 hnd).1 (e ▸ hk)
      exact ⟨d, by rw [List.getElem?_set_ne hne]; exact hd, hd'⟩

theorem Sender.Counted.sendPacket {s : Sender n} (h : s.Counted) (cfg : SenderConfig)
    (env : RetranEnv n) {i : ℕ} (hi : ResendAt s.sentQueue i) (oneChunk : Bool) :
    (sendPacket cfg env s i oneChunk).Counted := by
  obtain ⟨c, hi, hc⟩ := hi
  simp only [Sctp.sendPacket, hi]
  split
  · exact h
  · rename_i b hb
    obtain ⟨hnd, hall⟩ := gatherBundle_spec env hb hi hc
    split
    · exact h.resendAll cfg env b.dataList hnd hall
    · exact h

theorem Sender.Counted.chunkRetransmission {s s' : Sender n} (h : s.Counted) {cfg : SenderConfig}
    {env : RetranEnv n} (hs : chunkRetransmission cfg env s = some s') : s'.Counted := by
  obtain ⟨hp, hfirst⟩ := pickRetran_spec env (List.range s.sentQueue.length) false h
  simp only [Sctp.chunkRetransmission] at hs
  split at hs
  · obtain rfl := Option.some.inj hs
    exact h
  · split at hs
    · obtain rfl := Option.some.inj hs
      exact hp
    · cases hs
    · rename_i i o hpick
      obtain rfl := Option.some.inj hs
      exact hp.sendPacket cfg env (hfirst i o hpick) o

theorem t3Mark_holds {cfg : SenderConfig} {t : T3 n} {s s' : T3Run n} {c : SentChunk n}
    {ys : List (SentChunk n)} {r : Amount n} (hc : c.Legal)
    (hf : t3Mark cfg t s c = some (s', ys)) (h : s.toFlight.Holds (r + c.amount)) :
    s'.toFlight.Holds (r + worth SentChunk.amount ys) ∧ ∀ y ∈ ys, y.Legal := by
  unfold t3Mark at hf
  split_ifs at hf with h1 h2 h3 h4
  · obtain ⟨rfl, rfl⟩ : s = s' ∧ _ = ys := by simpa using hf
    exact ⟨by simpa using h, by simpa using hc⟩
  · obtain ⟨rfl, rfl⟩ : _ = s' ∧ _ = ys := by simpa using hf
    have hlegal : (t3Chunk cfg t s.toAsoc c).Legal := by
      have h4 : datagramResend = 4 := rfl
      exact ⟨by show 0 < datagramResend; omega, Or.inl le_rfl⟩
    refine ⟨?_, by simpa using hlegal⟩
    rw [worth_cons, worth_nil, add_zero, SentChunk.amount_of_eq rfl]
    show (t3Asoc cfg s.toAsoc c).toFlight.Holds _
    unfold t3Asoc
    split
    · rename_i hlt
      rw [SentChunk.amount_of_lt hlt] at h
      have hi := h.retranIncr
      rw [add_right_comm] at hi
      exact hi.leave
    · rename_i hge
      have heq : c.sent = datagramResend := by
        have hlt := h2.2
        rcases hc.2 with hle | hack <;> omega
      rwa [SentChunk.amount_of_eq heq] at h
  · obtain ⟨rfl, rfl⟩ : _ = s' ∧ _ = ys := by simpa using hf
    exact ⟨by simpa using h, by simpa using hc⟩
  · obtain ⟨rfl, rfl⟩ : s = s' ∧ _ = ys := by simpa using hf
    exact ⟨by simpa using h, by simpa using hc⟩

/-- The chunks T3 treats as its count expects: none was passed by the cumulative ack, and none of
the destination is marked for resend already but too recent to be visited. -/
def T3.Regular (t : T3 n) (s : Sender n) : Prop :=
  ∀ c ∈ s.sentQueue, tsnGe s.lastAckedSeq c.tsn = false ∧
    (c.sent = datagramResend → c.whoTo = t.net → t.tooRecent c = false)

/-- The loop counts the chunks that are to be resent behind it. -/
theorem t3Mark_count (cfg : SenderConfig) {t : T3 n} (q : List (SentChunk n)) (s : T3Run n)
    (hq : ∀ c ∈ q, tsnGe s.lastAckedSeq c.tsn = false ∧
      (c.sent = datagramResend → c.whoTo = t.net → t.tooRecent c = false)) :
    (walk (t3Mark cfg t) s q).1.cntMk =
      s.cntMk + (walk (t3Mark cfg t) s q).2.countP SentChunk.toResend ∧
    ∀ c ∈ (walk (t3Mark cfg t) s q).2, tsnGe s.lastAckedSeq c.tsn = false := by
  induction q generalizing s with
  | nil => exact ⟨by simp, by simp⟩
  | cons c q ih =>
    obtain ⟨hge, hrec⟩ := hq c (by simp)
    have hstep : ∃ s' c', t3Mark cfg t s c = some (s', [c']) ∧
        s'.lastAckedSeq = s.lastAckedSeq ∧ c'.tsn = c.tsn ∧
        s'.cntMk = s.cntMk + [c'].countP SentChunk.toResend := by
      unfold t3Mark
      rw [if_neg (by simp [hge])]
      split_ifs with h1 h2 h3
      · have hne : c.sent ≠ datagramResend := fun he => by simp [hrec he h1.1] at h2
        exact ⟨s, c, rfl, rfl, rfl, by simp [SentChunk.toResend, hne]⟩
      · refine ⟨_, _, rfl, ?_, rfl, rfl⟩
        show (t3Asoc cfg s.toAsoc c).lastAckedSeq = _
        unfold t3Asoc
        split <;> rfl
      · exact ⟨_, c, rfl, rfl, rfl, by simp [SentChunk.toResend, h3]⟩
      · exact ⟨s, c, rfl, rfl, rfl, by simp [SentChunk.toResend, h3]⟩
    obtain ⟨s', c', hs, hl, ht, hk⟩ := hstep
    obtain ⟨ih1, ih2⟩ := ih s' (fun d hd => by rw [hl]; exact hq d (by simp [hd]))
    rw [walk_cons_some hs]
    constructor
    · rw [List.countP_append, ih1, hk, add_assoc]
    · intro d hd
      rcases List.mem_append.1 hd with hd | hd
      · obtain rfl := List.mem_singleton.1 hd
        rwa [ht]
      · rw [← hl]
        exact ih2 d hd

section Amounts

variable (q : List (SentChunk n))

theorem worth_retran : (worth SentChunk.amount q).2.2.2 = q.countP SentChunk.toResend := by
  induction q with
  | nil => rfl
  | cons c q ih =>
    rw [worth_cons, List.countP_cons, Prod.snd_add, Prod.snd_add, Prod.snd_add, ih, add_comm]
    congr 1
    simp only [SentChunk.amount, SentChunk.toResend, SentChunk.load, beq_iff_eq]
    split_ifs <;> first | rfl | omega

theorem worth_count : (worth SentChunk.amount q).2.1 = q.countP SentChunk.inFlight := by
  induction q with
  | nil => rfl
  | cons c q ih =>
    rw [worth_cons, List.countP_cons, Prod.snd_add, Prod.fst_add, ih, add_comm]
    congr 1
    simp only [SentChunk.amount, SentChunk.inFlight, SentChunk.load, decide_eq_true_eq]
    split_ifs <;> rfl

theorem worth_total :
    (worth SentChunk.amount q).1 = ((q.filter SentChunk.inFlight).map (·.bookSize)).sum := by
  induction q with
  | nil => rfl
  | cons c q ih =>
    rw [worth_cons, Prod.fst_add, ih]
    simp only [SentChunk.amount, SentChunk.inFlight, SentChunk.load, List.filter_cons,
      decide_eq_true_eq]
    split_ifs <;> simp

theorem worth_flight (i : Fin n) :
    (worth SentChunk.amount q).2.2.1 i =
      ((q.filter fun c => c.inFlight && decide (c.whoTo = i)).map (·.bookSize)).sum := by
  induction q with
  | nil => rfl
  | cons c q ih =>
    rw [worth_cons, Prod.snd_add, Prod.snd_add, Prod.fst_add, Pi.add_apply, ih]
    simp only [SentChunk.amount, SentChunk.inFlight, SentChunk.load, List.filter_cons,
      Bool.and_eq_true, decide_eq_true_eq]
    by_cases hlt : c.sent < datagramResend
    · by_cases hi : c.whoTo = i
      · subst hi
        simp [hlt]
      · simp [hlt, hi]
    · simp only [hlt, if_false, false_and]
      split_ifs <;> simp

end Amounts

/-- Recounting the flights gives what the queue is worth when the retransmissions were right. -/
theorem recountFlight_holds {f : Flight n} {q : List (SentChunk n)} (hf : f.saturated = false)
    (hr : f.sentQueueRetranCnt = q.countP SentChunk.toResend) :
    (f.recountFlight q).Holds (worth SentChunk.amount q) := by
  have hfold : ∀ (q : List (SentChunk n)) (f : Flight n) (r : Amount n),
      f.Holds (r + (0, 0, 0, q.countP SentChunk.toResend)) →
      (q.foldl (fun f c => if c.sent < datagramResend then f.enter c else f) f).Holds
        (r + worth SentChunk.amount q) := by
    intro q
    induction q with
    | nil => intro f r h; exact h
    | cons c q ih =>
      intro f r h
      rw [List.foldl_cons, worth_cons, ← add_assoc]
      apply ih
      rcases lt_trichotomy c.sent datagramResend with hlt | heq | hgt
      · rw [if_pos hlt, SentChunk.amount_of_lt hlt, add_right_comm]
        have hn : SentChunk.toResend c = false := by simp [SentChunk.toResend]; omega
        rw [List.countP_cons, hn] at h
        exact h.enter
      · have hn : SentChunk.toResend c = true := by simp [SentChunk.toResend, heq]
        rw [if_neg (by omega), SentChunk.amount_of_eq heq]
        rw [List.countP_cons, hn] at h
        simpa [add_assoc, add_comm] using h
      · have hn : SentChunk.toResend c = false := by simp [SentChunk.toResend]; omega
        rw [if_neg (by omega), SentChunk.amount_of_gt hgt, add_zero]
        rwa [List.countP_cons, hn] at h
  have h0 : f.clear.Holds (0 + (0, 0, 0, q.countP SentChunk.toResend)) := by
    rw [zero_add]
    exact ⟨hf, rfl, rfl, rfl, hr⟩
  have := hfold q f.clear 0 h0
  rwa [zero_add] at this

theorem Sender.Counted.markAllForResend {s : Sender n} (h : s.Counted) (cfg : SenderConfig)
    {t : T3 n} (ht : t.Regular s) : (markAllForResend cfg t s).Counted := by
  have hw := walk_balanced (f := t3Mark cfg t) (B := fun s : T3Run n => s.toFlight.Holds)
    (fun s x s' ys r => t3Mark_holds) { toAsoc := s.toAsoc, cntMk := 0 } s.sentQueue 0 h.legal
    (by rw [zero_add]; exact h.holds)
  obtain ⟨hcnt, hge⟩ := t3Mark_count cfg s.sentQueue { toAsoc := s.toAsoc, cntMk := 0 } ht
  rw [zero_add] at hw hcnt
  have hloop : t3Loop cfg t s = walk (t3Mark cfg t) { toAsoc := s.toAsoc, cntMk := 0 }
      s.sentQueue := by
    have hany : (walk (t3Mark cfg t) { toAsoc := s.toAsoc, cntMk := 0 } s.sentQueue).2.any
        (fun c => tsnGe s.lastAckedSeq c.tsn) = false := by
      rw [List.any_eq_false]
      intro c hc
      simp [hge c hc]
    simp only [t3Loop, hany]
    rfl
  simp only [Sctp.markAllForResend, hloop]
  refine ⟨?_, hw.2⟩
  split
  · exact recountFlight_holds hw.1.saturated hcnt
  · obtain ⟨hsat, htf, htc, hfs, hre⟩ := hw.1
    exact ⟨hsat, htf, htc, hfs, by rw [worth_retran]; exact hcnt⟩

inductive FlightEvent (n : ℕ) where
  /-- A bundle is sent for the first time. -/
  | transmit (net : Fin n) (lastSentTime : ℕ) (oneChunk : Bool) (dataList : List (DataItem n))
      (sendQueue : Option Tsn)
  | retransmit (env : RetranEnv n)
  | expressSack (cumack : Tsn) (rwnd : ℕ) (ecneSeen : Bool)
  | sack (sack : Sack n)
  | t3 (t : T3 n)
  /-- Users, scheduler and the output path change what waits behind the sent queue, and the
  destinations that are probed. -/
  | other (b : Backlog) (probes : Fin n → Bool)

/-- One event; nothing is left when it aborts the association. -/
def flightStep (cfg : SenderConfig) (s : Sender n) : FlightEvent n → Option (Sender n)
  | .transmit net time oneChunk dataList sendQueue =>
    some (transmit cfg net time oneChunk dataList sendQueue s)
  | .retransmit env => chunkRetransmission cfg env s
  | .expressSack cumack rwnd ecneSeen => expressHandleSack cfg cumack rwnd ecneSeen s
  | .sack sack => handleSack cfg sack s
  | .t3 t => some (markAllForResend cfg t s)
  | .other b probes =>
    some { s with
      toBacklog := b
      nets := fun i => { s.nets i with windowProbe := probes i } }

def flightRun (cfg : SenderConfig) : Sender n → List (FlightEvent n) → Option (Sender n) :=
  Trace.run (flightStep cfg)

/-- Data is reliable, and the event does not meet a state in which its code loses count: a SACK
meets no chunk that a failed retransmission left flagged as a probe, and none half the sequence
space away; T3 meets no chunk it would free or skip without counting. -/
def FlightEvent.Regular (s : Sender n) : FlightEvent n → Prop
  | .transmit _ _ _ dataList _ => ∀ d ∈ dataList, prSctpEnabled d.chunk.flags = false
  | .expressSack _ _ _ => ∀ c ∈ s.sentQueue, c.ProbeClear
  | .sack a => (∀ c ∈ s.sentQueue, c.ProbeClear) ∧ Comparable a.cumAck s.sentQueue
  | .t3 t => t.Regular s
  | _ => True

instance (s : Sender n) : (e : FlightEvent n) → Decidable (e.Regular s)
  | .transmit _ _ _ dataList _ =>
    inferInstanceAs (Decidable (∀ d ∈ dataList, prSctpEnabled d.chunk.flags = false))
  | .retransmit _ => inferInstanceAs (Decidable True)
  | .expressSack _ _ _ =>
    inferInstanceAs (Decidable (∀ c ∈ s.sentQueue, c.windowProbe = true → c.sent ≠ datagramResend))
  | .sack a =>
    inferInstanceAs (Decidable
      ((∀ c ∈ s.sentQueue, c.windowProbe = true → c.sent ≠ datagramResend) ∧
        ∀ c ∈ s.sentQueue, tsnGe a.cumAck c.tsn = true ∨ tsnGt c.tsn a.cumAck = true))
  | .t3 t =>
    inferInstanceAs (Decidable (∀ c ∈ s.sentQueue, tsnGe s.lastAckedSeq c.tsn = false ∧
      (c.sent = datagramResend → c.whoTo = t.net → t.tooRecent c = false)))
  | .other _ _ => inferInstanceAs (Decidable True)

def RegularRun (cfg : SenderConfig) : Sender n → List (FlightEvent n) → Prop :=
  Trace.Along (flightStep cfg) fun s e => e.Regular s

instance (cfg : SenderConfig) (s : Sender n) (es : List (FlightEvent n)) : Decidable (RegularRun cfg s es) :=
  inferInstanceAs (Decidable (Trace.Along _ _ _ _))

/-- The counters are what the sent queue says, and never had to be cut off at zero. -/
structure Accounted (s : Sender n) : Prop where
  totalFlight : s.totalFlight = ((s.sentQueue.filter SentChunk.inFlight).map (·.bookSize)).sum
  totalFlightCount : s.totalFlightCount = s.sentQueue.countP SentChunk.inFlight
  flightSize : ∀ i, s.flightSize i =
    ((s.sentQueue.filter fun c => c.inFlight && decide (c.whoTo = i)).map (·.bookSize)).sum
  sentQueueRetranCnt : s.sentQueueRetranCnt = s.sentQueue.countP SentChunk.toResend
  saturated : s.saturated = false

structure Sender.Fresh (s : Sender n) : Prop where
  sentQueue : s.sentQueue = []
  totalFlight : s.totalFlight = 0
  totalFlightCount : s.totalFlightCount = 0
  flightSize : s.flightSize = 0
  sentQueueRetranCnt : s.sentQueueRetranCnt = 0
  saturated : s.saturated = false

theorem Sender.Fresh.counted {s : Sender n} (h : s.Fresh) : s.Counted := by
  obtain ⟨hq, htf, htc, hfs, hre, hsat⟩ := h
  constructor
  · rw [hq]
    exact ⟨hsat, htf, htc, hfs, hre⟩
  · rw [hq]
    simp

theorem Sender.Counted.accounted {s : Sender n} (h : s.Counted) : Accounted s := by
  obtain ⟨hsat, htf, htc, hfs, hre⟩ := h.holds
  constructor
  · rw [htf, worth_total]
  · rw [htc, worth_count]
  · intro i
    rw [hfs, worth_flight]
  · rw [hre, worth_retran]
  · exact hsat

theorem Sender.Counted.flightStep {s s' : Sender n} (h : s.Counted) {cfg : SenderConfig}
    {e : FlightEvent n} (he : e.Regular s) (hs : flightStep cfg s e = some s') : s'.Counted := by
  cases e with
  | transmit net time oneChunk dataList sendQueue =>
    obtain rfl := Option.some.inj hs
    exact h.transmit cfg net time oneChunk dataList sendQueue
  | retransmit env => exact h.chunkRetransmission hs
  | expressSack cumack rwnd ecneSeen => exact ((h.kept he).expressHandleSack hs).counted
  | sack sack => exact ((h.kept he.1).handleSack he.2 hs).counted
  | t3 t =>
    obtain rfl := Option.some.inj hs
    exact h.markAllForResend cfg he
  | other b probes =>
    obtain rfl := Option.some.inj hs
    exact ⟨h.holds, h.legal⟩

theorem Sender.Counted.flightRun {s s' : Sender n} (h : s.Counted) {cfg : SenderConfig}
    {es : List (FlightEvent n)} (hreg : RegularRun cfg s es)
    (hs : flightRun cfg s es = some s') : s'.Counted := by
  exact Trace.run_invariant Sender.Counted (fun _ _ _ hc he ht => hc.flightStep he ht) h hreg hs

/-- In every state a regular run reaches, the flight counters are what the sent queue says. -/
theorem flightRun_accounted {cfg : SenderConfig} {s s' : Sender n} {es : List (FlightEvent n)}
    (h0 : s.Fresh) (hreg : RegularRun cfg s es) (hs : flightRun cfg s es = some s') : Accounted s' :=
  (h0.counted.flightRun hreg hs).accounted

/-- An association with one destination before its first chunk. -/
def freshSender : Sender 1 :=
  { totalFlight := 0, totalFlightCount := 0, flightSize := fun _ => 0, sentQueueRetranCnt := 0
    saturated := false
    sendQueue := none, sendingSeq := 1, streamQueueCnt := 0, state := 0x0008
    lockedOnSending := none
    nets := fun _ =>
      { netAck := 0, netAck2 := 0, windowProbe := false, sawNewack := false
        thisSackHighestNewack := 0, pf := false }
    lastAckedSeq := 0, sentQueueCnt := 0, prSctpCnt := 0, sentQueueCntRemoveable := 0
    chunksOnQueues := fun _ => 2, peersRwnd := 65536, advancedPeerAckPoint := 0
    thisSackHighestGap := 0, sawSackWithFrags := false, sawSackWithNrFrags := false
    cwndInput := fun _ => (0, 0)
    sentQueue := [] }

def freshConfig : SenderConfig :=
  { swsSender := 1420, peerChunkOh := 256, strictSacks := true, cmtOnOff := false
    cmtUseDac := false, prsctpSupported := false }

local instance accounting_neZero : NeZero 1 := ⟨Nat.one_ne_zero⟩

def plainItem (tsn : Tsn) : DataItem 1 :=
  { chunk :=
      { tsn := tsn, streamNumber := 0, sendSize := 1400, bookSize := 1400, bookSizeScale := false
        sent := datagramUnsent, sndCount := 0, whoTo := 0, flags := 0, hasData := true
        windowProbe := false, chunkWasRevoked := false, doingFastRetransmit := false
        fastRetranTsn := 0, noFrAllowed := false, sentRcvTime := 0, authKeyid := 0 }
    whoTo := none }

def plainEnv (lowerLayer : Bool) : RetranEnv 1 :=
  { mtu := fun _ => 1452, cwnd := fun _ => 4380, authChunkLen := none, maxRetranChunk := 0
    copies := fun _ => true, lowerLayer := lowerLayer, timeLastSent := 3000 }

/-- Two chunks time out while the peer's window closes, the probe of the closed window either
leaves or not, then the window opens with the second chunk acked. -/
def probeRun (lowerLayer : Bool) : List (FlightEvent 1) :=
  [.transmit 0 0 false [plainItem 1, plainItem 2] none,
    .t3 { net := 0, alt := 0, windowProbe := false, minWait := 1000 },
    .expressSack 0 0 false,
    .retransmit (plainEnv lowerLayer),
    .sack { cumAck := 0, rwnd := 60000, segs := [(2, 2)], nrSegs := [], cmtDacFlag := false
            ecneSeen := false, fastRetranLossRecovery := false, alternate := id }]

theorem freshSender_fresh : freshSender.Fresh := ⟨rfl, rfl, rfl, rfl, rfl, rfl⟩

theorem probeRun_accounted :
    ∃ s, flightRun freshConfig freshSender (probeRun true) = some s ∧ Accounted s := by
  have hsome : (flightRun freshConfig freshSender (probeRun true)).isSome := by decide +kernel
  have hreg : RegularRun freshConfig freshSender (probeRun true) := by decide +kernel
  exact ⟨_, (Option.some_get hsome).symm,
    flightRun_accounted freshSender_fresh hreg (Option.some_get hsome).symm⟩

/-- The probe that did not leave is taken out of the flight all the same, and is counted for
resend twice. -/
theorem failedProbe_not_accounted :
    freshSender.Fresh ∧ ∃ s, flightRun freshConfig freshSender (probeRun false) = some s ∧
      s.saturated = true ∧ ¬ Accounted s := by
  have hbad : (flightRun freshConfig freshSender (probeRun false)).map (fun s =>
      (s.saturated, decide (s.sentQueueRetranCnt = s.sentQueue.countP SentChunk.toResend))) =
      some (true, false) := by decide +kernel
  obtain ⟨s, hs, hv⟩ := Option.map_eq_some_iff.1 hbad
  obtain ⟨hsat, hcnt⟩ := Prod.mk.inj hv
  exact ⟨freshSender_fresh, s, hs, hsat,
    fun h => of_decide_eq_false hcnt h.sentQueueRetranCnt⟩

end Sctp
