import Sctp.Sender.HandleSack

/-! The SACK handlers keep the flight counters: every visit of a chunk moves the counters by what
the chunk's own amount changes. -/
namespace Sctp
open Ledger

variable {n : ℕ}

namespace SentChunk

variable {c : SentChunk n}

/-- The values of `sent` a chunk on the sent queue can have: struck at most up to
`datagramResend`, or acked in one of the ways. -/
def Legal (c : SentChunk n) : Prop :=
  0 < c.sent ∧ (c.sent ≤ datagramResend ∨ datagramAcked ≤ c.sent)

/-- A chunk marked for resend is not flagged as a probe in flight. -/
def ProbeClear (c : SentChunk n) : Prop := c.windowProbe = true → c.sent ≠ datagramResend

def Tidy (c : SentChunk n) : Prop := c.Legal ∧ c.ProbeClear

theorem amount_of_lt (h : c.sent < datagramResend) : c.amount = c.load := by
  rw [amount, if_pos h]

theorem amount_of_eq (h : c.sent = datagramResend) : c.amount = (0, 0, 0, 1) := by
  rw [amount, if_neg (by omega), if_pos h]

theorem amount_of_gt (h : datagramResend < c.sent) : c.amount = 0 := by
  rw [amount, if_neg (by omega), if_neg (by omega)]

theorem amount_of_acked (h : datagramAcked ≤ c.sent) : c.amount = 0 := by
  apply amount_of_gt
  have : datagramResend < datagramAcked := by decide
  omega

theorem tidy_of_acked (h : datagramAcked ≤ c.sent) : c.Tidy := by
  have h1 : datagramAcked = 10010 := rfl
  have h2 : datagramResend = 4 := rfl
  exact ⟨⟨by omega, Or.inr h⟩, fun _ => by omega⟩

theorem tidy_of_sent (h : c.sent = datagramSent) : c.Tidy := by
  have h1 : datagramSent = 1 := rfl
  have h2 : datagramResend = 4 := rfl
  exact ⟨⟨by omega, Or.inl (by omega)⟩, fun _ => by omega⟩

theorem tidy_of_resend (h : c.sent = datagramResend) (hp : c.windowProbe = false) : c.Tidy := by
  have h2 : datagramResend = 4 := rfl
  exact ⟨⟨by omega, Or.inl (by omega)⟩, fun h => by simp [hp] at h⟩

theorem Legal.acked_of_gt (h : c.Legal) (hgt : datagramResend < c.sent) :
    datagramAcked ≤ c.sent := by
  rcases h.2 with h | h <;> omega

end SentChunk

section Chunks

variable {s s' : Asoc n} {c : SentChunk n} {r : Amount n}

theorem ackChunk_holds (hc : c.Legal) (h : s.toFlight.Holds (r + c.amount)) :
    (s.ackChunk c).toFlight.Holds r := by
  unfold Asoc.ackChunk
  rcases lt_trichotomy c.sent datagramResend with hlt | heq | hgt
  · rw [if_pos hlt]
    rw [SentChunk.amount_of_lt hlt] at h
    exact h.leave
  · rw [if_neg (by omega), if_pos (by rw [heq]; decide), if_pos heq]
    rw [SentChunk.amount_of_eq heq] at h
    exact h.retranDecr
  · have hack := hc.acked_of_gt hgt
    rw [if_neg (by omega), if_neg (by omega)]
    rwa [SentChunk.amount_of_gt hgt, add_zero] at h

theorem dropChunk_flight : (s.dropChunk c).toFlight = s.toFlight := by
  unfold Asoc.dropChunk
  split <;> rfl

theorem expressAck_holds {cumack : Tsn} {ys : List (SentChunk n)} (hc : c.Tidy)
    (hf : expressAck cumack s c = some (s', ys)) (h : s.toFlight.Holds (r + c.amount)) :
    s'.toFlight.Holds (r + worth SentChunk.amount ys) ∧ ∀ y ∈ ys, y.Tidy := by
  unfold expressAck at hf
  split_ifs at hf
  · obtain ⟨rfl, rfl⟩ : _ = s' ∧ [] = ys := by simpa using hf
    rw [dropChunk_flight]
    exact ⟨by simpa using ackChunk_holds hc.1 h, by simp⟩

theorem revoke_holds {ys : List (SentChunk n)} (hack : c.sent = datagramAcked)
    (hf : revoke s c = (s', ys)) (h : s.toFlight.Holds (r + c.amount)) :
    s'.toFlight.Holds (r + worth SentChunk.amount ys) ∧ ∀ y ∈ ys, y.Tidy := by
  obtain ⟨rfl, rfl⟩ : _ = s' ∧ _ = ys := by simpa [revoke] using hf
  rw [SentChunk.amount_of_acked (by omega), add_zero] at h
  constructor
  · rw [worth_cons, worth_nil, add_zero, SentChunk.amount_of_lt (by decide : 1 < 4)]
    exact h.enter
  · intro y hy
    obtain rfl := List.mem_singleton.1 hy
    exact SentChunk.tidy_of_sent rfl

/-- A visit that leaves the chunk alone. -/
theorem untouched_holds (hc : c.Tidy) (h : s.toFlight.Holds (r + c.amount)) :
    s.toFlight.Holds (r + worth SentChunk.amount [c]) ∧ ∀ y ∈ [c], y.Tidy := by
  refine ⟨by simpa using h, fun y hy => ?_⟩
  obtain rfl := List.mem_singleton.1 hy
  exact hc

/-- A visit that leaves the counters alone and gives the chunk another state of the same amount. -/
theorem restated_holds {c' : SentChunk n} (ha : c'.amount = c.amount) (hc : c'.Tidy)
    (h : s.toFlight.Holds (r + c.amount)) :
    s.toFlight.Holds (r + worth SentChunk.amount [c']) ∧ ∀ y ∈ [c'], y.Tidy :=
  untouched_holds hc (by rwa [ha])

theorem checkForRevoked_holds {cumack biggest : Tsn} {ys : List (SentChunk n)} (hc : c.Tidy)
    (hf : checkForRevoked cumack biggest s c = some (s', ys))
    (h : s.toFlight.Holds (r + c.amount)) :
    s'.toFlight.Holds (r + worth SentChunk.amount ys) ∧ ∀ y ∈ ys, y.Tidy := by
  unfold checkForRevoked at hf
  split_ifs at hf with h0 h1 h2 h3 h4
  · exact revoke_holds h3 (Option.some.inj hf) h
  · obtain ⟨rfl, rfl⟩ : s = s' ∧ _ = ys := by simpa using hf
    have hm : datagramAcked ≤ c.sent := by rw [h4]; decide
    apply restated_holds _ (SentChunk.tidy_of_acked le_rfl) h
    rw [SentChunk.amount_of_acked hm, SentChunk.amount_of_acked le_rfl]
  · obtain ⟨rfl, rfl⟩ : s = s' ∧ _ = ys := by simpa using hf
    exact untouched_holds hc h
  · obtain ⟨rfl, rfl⟩ : s = s' ∧ _ = ys := by simpa using hf
    exact untouched_holds hc h

theorem revokeAcked_holds {ys : List (SentChunk n)} (hc : c.Tidy)
    (hf : revokeAcked s c = some (s', ys)) (h : s.toFlight.Holds (r + c.amount)) :
    s'.toFlight.Holds (r + worth SentChunk.amount ys) ∧ ∀ y ∈ ys, y.Tidy := by
  unfold revokeAcked at hf
  split_ifs at hf with h0
  · exact revoke_holds h0 (Option.some.inj hf) h
  · obtain ⟨rfl, rfl⟩ : s = s' ∧ _ = ys := by simpa using hf
    exact untouched_holds hc h

theorem strikeDac_le (cfg : SenderConfig) (e : StrikeEnv n) {k : ℕ} (hk : k ≤ datagramResend) :
    k ≤ strikeDac cfg e c k ∧ strikeDac cfg e c k ≤ datagramResend := by
  unfold strikeDac
  split_ifs with h <;> omega

theorem strikeSent_le (cfg : SenderConfig) (e : StrikeEnv n) (hc : c.sent < datagramResend) :
    c.sent ≤ strikeSent cfg e c ∧ strikeSent cfg e c ≤ datagramResend := by
  have hd : c.sent + 1 ≤ strikeDac cfg e c (c.sent + 1) ∧
      strikeDac cfg e c (c.sent + 1) ≤ datagramResend := strikeDac_le cfg e hc
  unfold strikeSent
  split_ifs <;> omega

theorem fastRetransmit_holds {cfg : SenderConfig} {e : StrikeEnv n} {ys : List (SentChunk n)}
    (hlt : c.sent < datagramResend) (hf : fastRetransmit cfg e s c = (s', ys))
    (h : s.toFlight.Holds (r + c.amount)) :
    s'.toFlight.Holds (r + worth SentChunk.amount ys) ∧ ∀ y ∈ ys, y.Tidy := by
  obtain ⟨rfl, rfl⟩ : _ = s' ∧ _ = ys := by simpa [fastRetransmit] using hf
  rw [SentChunk.amount_of_lt hlt] at h
  constructor
  · rw [worth_cons, worth_nil, add_zero, SentChunk.amount_of_eq rfl]
    exact h.leave.retranIncr
  · intro y hy
    obtain rfl := List.mem_singleton.1 hy
    exact SentChunk.tidy_of_resend rfl rfl

theorem strikeChunk_holds {cfg : SenderConfig} {e : StrikeEnv n} {ys : List (SentChunk n)}
    (hc : c.Tidy) (hf : strikeChunk cfg e s c = some (s', ys))
    (h : s.toFlight.Holds (r + c.amount)) :
    s'.toFlight.Holds (r + worth SentChunk.amount ys) ∧ ∀ y ∈ ys, y.Tidy := by
  unfold strikeChunk at hf
  split_ifs at hf with h1 h2 h3 h4 h5 h6
  · obtain ⟨rfl, rfl⟩ : s = s' ∧ _ = ys := by simpa using hf
    exact untouched_holds hc h
  · obtain ⟨rfl, rfl⟩ : s = s' ∧ _ = ys := by simpa using hf
    exact untouched_holds hc h
  · obtain ⟨rfl, rfl⟩ : s = s' ∧ _ = ys := by simpa using hf
    exact untouched_holds hc h
  · exact fastRetransmit_holds (by omega) (Option.some.inj hf) h
  · obtain ⟨rfl, rfl⟩ : s = s' ∧ _ = ys := by simpa using hf
    have hlt : c.sent < datagramResend := by omega
    obtain ⟨hge, hle⟩ := strikeSent_le cfg e hlt
    have hpos := hc.1.1
    have hlt' : strikeSent cfg e c < datagramResend := by omega
    apply restated_holds _ ⟨⟨by simp only; omega, Or.inl hle⟩, fun _ => h6⟩ h
    rw [SentChunk.amount_of_lt hlt, SentChunk.amount_of_lt hlt']
    rfl

end Chunks

/-- The chunks up to the first above the cumulative ack are acked. -/
def HeadAcked (cumAck : Tsn) (q : List (SentChunk n)) : Prop :=
  ∀ c ∈ q.takeWhile fun c => !tsnGt c.tsn cumAck, datagramAcked ≤ c.sent

/-- No chunk is half the sequence space away from the cumulative ack. -/
def Comparable (cumAck : Tsn) (q : List (SentChunk n)) : Prop :=
  ∀ c ∈ q, tsnGe cumAck c.tsn = true ∨ tsnGt c.tsn cumAck = true

section CumAck

variable {cumAck : Tsn} {q : List (SentChunk n)}

theorem ack_flight (s : CumAcks n) (c : SentChunk n) :
    (s.ack c).toFlight = (s.toAsoc.ackChunk c).toFlight := by
  unfold CumAcks.ack
  split <;> rfl

theorem acked_cumAckedChunk (c : SentChunk n) : datagramAcked ≤ (cumAckedChunk c).sent := by
  simp only [cumAckedChunk]
  split_ifs with h
  · rw [h]
    decide
  · exact le_rfl

theorem markCumAcked_spec {s s' : CumAcks n} {c : SentChunk n} {ys : List (SentChunk n)}
    (hc : c.Legal) (hf : markCumAcked cumAck s c = some (s', ys)) :
    s' = s.ack c ∧ ys = [cumAckedChunk c] := by
  have h0 : c.sent ≠ datagramUnsent := Nat.pos_iff_ne_zero.1 hc.1
  unfold markCumAcked at hf
  rw [if_neg h0] at hf
  split_ifs at hf
  obtain ⟨rfl, rfl⟩ : _ = s' ∧ _ = ys := by simpa using hf
  exact ⟨rfl, rfl⟩

theorem markCumAcked_holds {s s' : CumAcks n} {c : SentChunk n} {ys : List (SentChunk n)}
    {r : Amount n} (hc : c.Tidy) (hf : markCumAcked cumAck s c = some (s', ys))
    (h : s.toFlight.Holds (r + c.amount)) :
    s'.toFlight.Holds (r + worth SentChunk.amount ys) ∧ ∀ y ∈ ys, y.Tidy := by
  obtain ⟨rfl, rfl⟩ := markCumAcked_spec hc.1 hf
  have hack := acked_cumAckedChunk c
  constructor
  · rw [worth_cons, worth_nil, SentChunk.amount_of_acked hack, add_zero, add_zero, ack_flight]
    exact ackChunk_holds hc.1 h
  · intro y hy
    obtain rfl := List.mem_singleton.1 hy
    exact SentChunk.tidy_of_acked hack

theorem headAcked_mark (s : CumAcks n) (hq : ∀ c ∈ q, c.Legal) (hcmp : Comparable cumAck q) :
    HeadAcked cumAck (walk (markCumAcked cumAck) s q).2 := by
  induction q generalizing s with
  | nil => simp [HeadAcked]
  | cons c q ih =>
    cases hc : markCumAcked cumAck s c with
    | none =>
      rw [walk_cons_none hc]
      have hge : tsnGe cumAck c.tsn ≠ true := by
        intro hge
        simp only [markCumAcked, hge, if_true] at hc
        split at hc <;> cases hc
      have hgt := (hcmp c (by simp)).resolve_left hge
      intro d hd
      simp [hgt] at hd
    | some p =>
      obtain ⟨-, hys⟩ := markCumAcked_spec (hq c (by simp)) hc
      rw [walk_cons_some hc, hys]
      intro d hd
      simp only [List.singleton_append, List.takeWhile_cons] at hd
      split at hd
      · rcases List.mem_cons.1 hd with rfl | hd
        · exact acked_cumAckedChunk c
        · exact ih p.1 (fun x hx => hq x (by simp [hx])) (fun x hx => hcmp x (by simp [hx])) d hd
      · simp at hd

/-- A chunk changed in place keeps the head acked when it is acked itself. -/
theorem HeadAcked.set {i : ℕ} {c c' : SentChunk n} (h : HeadAcked cumAck q) (hi : q[i]? = some c)
    (ht : c'.tsn = c.tsn) (hack : datagramAcked ≤ c'.sent) : HeadAcked cumAck (q.set i c') := by
  induction q generalizing i with
  | nil => simp at hi
  | cons d q ih =>
    intro x hx
    cases i with
    | zero =>
      obtain rfl : d = c := by simpa using hi
      simp only [List.set_cons_zero, List.takeWhile_cons, ht] at hx
      split at hx
      · rename_i hgt
        rcases List.mem_cons.1 hx with rfl | hx
        · exact hack
        · exact h x (by simp only [List.takeWhile_cons, hgt, if_true]; exact List.mem_cons_of_mem _ hx)
      · simp at hx
    | succ i =>
      simp only [List.set_cons_succ, List.takeWhile_cons] at hx
      split at hx
      · rename_i hgt
        have htail : HeadAcked cumAck q := fun y hy =>
          h y (by simp only [List.takeWhile_cons, hgt, if_true]; exact List.mem_cons_of_mem _ hy)
        rcases List.mem_cons.1 hx with rfl | hx
        · exact h x (by simp [hgt])
        · exact ih htail (by simpa using hi) x hx
      · simp at hx

/-- Dropping the acked head does not touch the counters. -/
theorem dropCumAcked_holds (cfg : SenderConfig) {s : Asoc n} {r : Amount n}
    (hq : HeadAcked cumAck q) (h : s.toFlight.Holds (r + worth SentChunk.amount q)) :
    (walk (dropCumAcked cfg cumAck) s q).1.toFlight.Holds
      (r + worth SentChunk.amount (walk (dropCumAcked cfg cumAck) s q).2) := by
  induction q generalizing s with
  | nil => exact h
  | cons c q ih =>
    by_cases hgt : tsnGt c.tsn cumAck = true
    · rw [walk_cons_none (by simp [dropCumAcked, hgt])]
      exact h
    · have hhead : (c :: q).takeWhile (fun c => !tsnGt c.tsn cumAck) =
          c :: q.takeWhile (fun c => !tsnGt c.tsn cumAck) := by simp [hgt]
      have hack : datagramAcked ≤ c.sent := hq c (by rw [hhead]; simp)
      rw [walk_cons_some (by rw [dropCumAcked, if_neg hgt]), List.nil_append]
      apply ih (fun d hd => hq d (by rw [hhead]; exact List.mem_cons_of_mem _ hd))
      rw [worth_cons, SentChunk.amount_of_acked hack, zero_add] at h
      rwa [show ((s.dropChunk c).dropPrSctp cfg c).toFlight = (s.dropChunk c).toFlight from rfl,
        dropChunk_flight]

theorem dropCumAcked_subset {cfg : SenderConfig} {s : Asoc n} :
    (walk (dropCumAcked cfg cumAck) s q).2 ⊆ q := by
  induction q generalizing s with
  | nil => simp
  | cons c q ih =>
    by_cases hgt : tsnGt c.tsn cumAck = true
    · rw [walk_cons_none (by simp [dropCumAcked, hgt])]
      exact List.Subset.refl _
    · rw [walk_cons_some (by rw [dropCumAcked, if_neg hgt]), List.nil_append]
      exact fun d hd => List.mem_cons_of_mem _ (ih hd)

end CumAck

section Gaps

variable {cumAck : Tsn}

theorem ackGap_holds {g : GapAcks n} {c : SentChunk n} {r : Amount n}
    (h : g.toFlight.Holds (r + c.amount)) : (g.ackGap c).toFlight.Holds r := by
  unfold GapAcks.ackGap
  rcases lt_trichotomy c.sent datagramResend with hlt | heq | hgt
  · rw [if_pos hlt]
    rw [SentChunk.amount_of_lt hlt] at h
    exact h.leave
  · rw [if_neg (by omega), if_pos heq]
    rw [SentChunk.amount_of_eq heq] at h
    exact h.retranDecr
  · rw [if_neg (by omega), if_neg (by omega)]
    rwa [SentChunk.amount_of_gt hgt, add_zero] at h

theorem acked_markGap (c : SentChunk n) : datagramAcked ≤ (markGap c).sent := by
  simp only [markGap]
  split_ifs with h
  · rcases h with h | h <;> rw [h] <;> decide
  · decide

/-- A chunk in a gap block is acked afterwards, and its amount leaves the counters. -/
theorem segmentChunk_holds {g : GapAcks n} {c : SentChunk n} {r : Amount n} (nrSacking : Bool)
    (hc : c.Legal) (h : g.toFlight.Holds (r + c.amount)) :
    (segmentChunk nrSacking g c).1.toFlight.Holds r ∧
      (segmentChunk nrSacking g c).2.tsn = c.tsn ∧
      datagramAcked ≤ (segmentChunk nrSacking g c).2.sent := by
  have h0 : c.sent ≠ datagramUnsent := Nat.pos_iff_ne_zero.1 hc.1
  unfold segmentChunk
  rw [if_neg h0]
  split
  · have hnr : datagramAcked ≤ datagramNrAcked := by decide
    exact ⟨ackGap_holds h, rfl, hnr⟩
  · exact ⟨ackGap_holds h, rfl, acked_markGap c⟩

/-- The queue under the cursor is accounted for, and its head stays acked. -/
structure CursorKept (cumAck : Tsn) (k : Cursor n) : Prop where
  holds : k.toFlight.Holds (worth SentChunk.amount k.queue)
  tidy : ∀ c ∈ k.queue, c.Tidy
  head : HeadAcked cumAck k.queue

theorem CursorKept.hitChunk {k : Cursor n} (h : CursorKept cumAck k) (nrSacking : Bool)
    (theTsn : Tsn) (i : ℕ) : CursorKept cumAck (hitChunk nrSacking theTsn k i) := by
  unfold Sctp.hitChunk
  split
  · exact ⟨h.holds, h.tidy, h.head⟩
  · rename_i c hi
    split
    · have hmem : c ∈ k.queue := List.mem_of_getElem? hi
      obtain ⟨r, hr, hset⟩ := worth_set SentChunk.amount hi
        (segmentChunk nrSacking k.toGapAcks c).2
      obtain ⟨hf, ht, hack⟩ := segmentChunk_holds nrSacking (h.tidy c hmem).1 (hr ▸ h.holds)
      constructor
      · rw [hset, SentChunk.amount_of_acked hack, add_zero]
        exact hf
      · intro d hd
        rcases List.mem_or_eq_of_mem_set hd with hd | rfl
        · exact h.tidy d hd
        · exact SentChunk.tidy_of_acked hack
      · exact h.head.set hi ht hack
    · exact ⟨h.holds, h.tidy, h.head⟩

theorem CursorKept.segmentTsn {k : Cursor n × Bool} (h : CursorKept cumAck k.1) (nrSacking : Bool)
    (j : ℕ) : CursorKept cumAck (segmentTsn cumAck nrSacking k j).1 := by
  simp only [Sctp.segmentTsn]
  split
  · exact ⟨h.holds, h.tidy, h.head⟩
  · exact h.hitChunk _ _ _

theorem CursorKept.processSegmentRange {k : Cursor n} (h : CursorKept cumAck k) (nrSacking : Bool)
    (fragStrt fragEnd : ℕ) :
    CursorKept cumAck (processSegmentRange cumAck nrSacking k fragStrt fragEnd) := by
  unfold Sctp.processSegmentRange
  apply List.foldlRecOn (motive := fun k : Cursor n × Bool => CursorKept cumAck k.1)
  · exact h
  · intro k hk j _
    exact hk.segmentTsn nrSacking j

theorem CursorKept.handleSegment {k : Cursor n × ℕ} (h : CursorKept cumAck k.1) (nrSacking : Bool)
    (frag : ℕ × ℕ) : CursorKept cumAck (handleSegment cumAck nrSacking k frag).1 := by
  unfold Sctp.handleSegment
  split
  · exact h
  · apply CursorKept.processSegmentRange
    exact ⟨h.holds, h.tidy, h.head⟩

theorem CursorKept.handleSegments {g : GapAcks n} {q : List (SentChunk n)}
    (h : CursorKept cumAck { toGapAcks := g, queue := q, tp1 := 0 }) (segs nrSegs : List (ℕ × ℕ)) :
    CursorKept cumAck (handleSegments cumAck segs nrSegs g q) := by
  have hfold : ∀ (nr : Bool) (fs : List (ℕ × ℕ)) (k : Cursor n × ℕ), CursorKept cumAck k.1 →
      CursorKept cumAck (fs.foldl (Sctp.handleSegment cumAck nr) k).1 := by
    intro nr fs k hk
    apply List.foldlRecOn (motive := fun k : Cursor n × ℕ => CursorKept cumAck k.1)
    · exact hk
    · intro k hk f _
      exact hk.handleSegment nr f
  have h1 := hfold false segs ({ toGapAcks := g, queue := q, tp1 := 0 }, 0) h
  apply hfold true nrSegs
  exact ⟨h1.holds, h1.tidy, h1.head⟩

end Gaps

/-- The counters describe the sent queue. -/
structure Sender.Kept (s : Sender n) : Prop where
  holds : s.toFlight.Holds (worth SentChunk.amount s.sentQueue)
  tidy : ∀ c ∈ s.sentQueue, c.Tidy

/-- A visit of every chunk in order keeps the counters. -/
theorem Sender.Kept.walk {s : Sender n} (h : s.Kept)
    {f : Asoc n → SentChunk n → Option (Asoc n × List (SentChunk n))}
    (hf : ∀ s x s' ys r, x.Tidy → f s x = some (s', ys) → s.toFlight.Holds (r + x.amount) →
      s'.toFlight.Holds (r + worth SentChunk.amount ys) ∧ ∀ y ∈ ys, y.Tidy)
    {a : Asoc n} (ha : a.toFlight = s.toFlight) :
    ((Ledger.walk f a s.sentQueue).1.toFlight).Holds
      (worth SentChunk.amount (Ledger.walk f a s.sentQueue).2) ∧
      ∀ c ∈ (Ledger.walk f a s.sentQueue).2, c.Tidy := by
  have hw := walk_balanced (B := fun s : Asoc n => s.toFlight.Holds) hf a s.sentQueue 0 h.tidy
    (by rw [zero_add, ha]; exact h.holds)
  rwa [zero_add] at hw

theorem windowProbeRecovery_holds {s : Asoc n} {c : SentChunk n} {r : Amount n} (hc : c.Tidy)
    (hp : c.windowProbe = true) (h : s.toFlight.Holds (r + c.amount)) :
    (windowProbeRecovery s c).1.toFlight.Holds (r + (windowProbeRecovery s c).2.amount) ∧
      (windowProbeRecovery s c).2.Tidy := by
  unfold windowProbeRecovery
  split
  · exact ⟨h, hc.1, fun hp => by simp [SentChunk.unprobed] at hp⟩
  · rename_i hn
    have hlt : c.sent < datagramResend := by
      have hne := hc.2 hp
      rcases hc.1.2 with h' | h' <;> omega
    rw [SentChunk.amount_of_lt hlt] at h
    constructor
    · rw [SentChunk.amount_of_eq rfl]
      exact h.leave.retranIncr
    · exact SentChunk.tidy_of_resend rfl rfl

theorem Sender.Kept.recoverFirstProbe {s : Sender n} (h : s.Kept) : (recoverFirstProbe s).Kept := by
  unfold Sctp.recoverFirstProbe
  split
  · exact h
  · rename_i i hi
    split
    · exact h
    · rename_i c hc
      have hp : c.windowProbe = true := by
        obtain ⟨hlt, hp, -⟩ := List.findIdx?_eq_some_iff_getElem.1 hi
        rw [List.getElem?_eq_getElem hlt] at hc
        rwa [Option.some.inj hc] at hp
      have hmem : c ∈ s.sentQueue := List.mem_of_getElem? hc
      obtain ⟨r, hr, hset⟩ := worth_set SentChunk.amount hc (windowProbeRecovery s.toAsoc c).2
      obtain ⟨hf, ht⟩ := windowProbeRecovery_holds (h.tidy c hmem) hp (hr ▸ h.holds)
      constructor
      · rw [hset]
        exact hf
      · intro d hd
        rcases List.mem_or_eq_of_mem_set hd with hd | rfl
        · exact h.tidy d hd
        · exact ht

/-- A recount gives what the queue is worth. -/
theorem recount_holds {f : Flight n} (hf : f.saturated = false) (q : List (SentChunk n)) :
    (f.recount q).Holds (worth SentChunk.amount q) := by
  have hfold : ∀ (f : Flight n) (r : Amount n), f.Holds r →
      (q.foldl (fun f c => if c.sent < datagramResend then f.enter c
        else if c.sent = datagramResend then f.retranIncr else f) f).Holds
        (r + worth SentChunk.amount q) := by
    induction q with
    | nil => intro f r h; simpa using h
    | cons c q ih =>
      intro f r h
      rw [List.foldl_cons, worth_cons, ← add_assoc]
      apply ih
      rcases lt_trichotomy c.sent datagramResend with hlt | heq | hgt
      · rw [if_pos hlt, SentChunk.amount_of_lt hlt]
        exact h.enter
      · rw [if_neg (by omega), if_pos heq, SentChunk.amount_of_eq heq]
        exact h.retranIncr
      · rw [if_neg (by omega), if_neg (by omega), SentChunk.amount_of_gt hgt, add_zero]
        exact h
  have h0 : ({ f.clear with sentQueueRetranCnt := 0 } : Flight n).Holds 0 :=
    ⟨hf, rfl, rfl, rfl, rfl⟩
  have := hfold _ 0 h0
  rwa [zero_add] at this

theorem Sender.Kept.auditFlight {s : Sender n} (h : s.Kept) : (auditFlight s).Kept := by
  unfold Sctp.auditFlight
  split
  · exact ⟨recount_holds h.holds.saturated s.sentQueue, h.tidy⟩
  · exact h

theorem Sender.Kept.assureTimer {t : TimerLoop n} (h : t.toSender.Kept) (recovery clearIdle : Bool)
    (i : Fin n) : (assureTimer recovery clearIdle t i).toSender.Kept := by
  have hs : (probeRecovered recovery t.toSender i).Kept := by
    unfold probeRecovered
    split
    · exact h.recoverFirstProbe
    · exact h
  simp only [Sctp.assureTimer]
  split
  · exact ⟨hs.holds, hs.tidy⟩
  · exact hs

theorem Sender.Kept.assureTimers {s : Sender n} (h : s.Kept) (recovery clearIdle recovered : Bool) :
    (assureTimers recovery clearIdle s recovered).toSender.Kept := by
  unfold Sctp.assureTimers
  apply List.foldlRecOn (motive := fun t : TimerLoop n => t.toSender.Kept)
  · exact h
  · intro t ht i _
    exact ht.assureTimer recovery clearIdle i

theorem Sender.Kept.againLoop {s : Sender n} (h : s.Kept) (recovery clearIdle : Bool) :
    (againLoop recovery clearIdle s).Kept := by
  have h1 := h.assureTimers recovery clearIdle false
  simp only [Sctp.againLoop]
  split
  · exact h1.auditFlight.assureTimers _ _ _
  · exact h1

theorem Sender.Kept.syncFlight {s : Sender n} (h : s.Kept) : s.syncFlight.Kept := by
  unfold Sender.syncFlight
  split
  · rename_i he
    have hq : s.sentQueue = [] := List.isEmpty_iff.1 he
    have hh := h.holds.clear
    rw [hq] at hh
    exact ⟨by rw [hq]; exact hh, h.tidy⟩
  · exact h

theorem cwndUpdateAfterSack_flight (s : Asoc n) (ecneSeen : Bool) :
    (s.cwndUpdateAfterSack ecneSeen).toFlight = s.toFlight := by
  unfold Asoc.cwndUpdateAfterSack
  split <;> rfl

section Handlers

variable {cfg : SenderConfig} {s s' : Sender n}

theorem Sender.Kept.expressMove (h : s.Kept) (cumack : Tsn) (ecneSeen : Bool) :
    (expressMove cumack ecneSeen s).Kept := by
  simp only [Sctp.expressMove]
  apply Sender.Kept.syncFlight
  split
  · obtain ⟨hw, ht⟩ := h.walk (fun s x s' ys r => expressAck_holds)
      (a := { s.toAsoc.resetNets with thisSackHighestGap := cumack }) rfl
    refine ⟨?_, ht⟩
    show (Asoc.cwndUpdateAfterSack _ ecneSeen).toFlight.Holds _
    rw [cwndUpdateAfterSack_flight]
    exact hw
  · refine ⟨?_, h.tidy⟩
    show (Asoc.cwndUpdateAfterSack _ ecneSeen).toFlight.Holds _
    rw [cwndUpdateAfterSack_flight]
    exact h.holds

theorem Sender.Kept.expressShutdown (h : s.Kept) (hs : expressShutdown s = some s') : s'.Kept := by
  simp only [Sctp.expressShutdown] at hs
  split at hs
  · split at hs
    · obtain rfl := Option.some.inj hs
      exact ⟨h.holds, h.tidy⟩
    · cases hs
    · obtain rfl := Option.some.inj hs
      exact ⟨h.holds, h.tidy⟩
  · obtain rfl := Option.some.inj hs
    exact h

theorem Sender.Kept.expressTail (h : s.Kept) {recovery : Bool} {cumack : Tsn}
    (hs : expressTail recovery cumack s = some s') : s'.Kept := by
  obtain ⟨t, ht, rfl⟩ := Option.map_eq_some_iff.1 hs
  have hk := (h.againLoop recovery true).expressShutdown ht
  exact ⟨hk.holds, hk.tidy⟩

theorem Sender.Kept.expressHandleSack (h : s.Kept) {cumack : Tsn} {rwnd : ℕ} {ecneSeen : Bool}
    (hs : expressHandleSack cfg cumack rwnd ecneSeen s = some s') : s'.Kept := by
  have hh : s.hushed.Kept := ⟨h.holds, h.tidy⟩
  have hr : (s.hushed.setRwnd cfg rwnd).Kept := ⟨h.holds, h.tidy⟩
  simp only [Sctp.expressHandleSack] at hs
  split_ifs at hs
  · obtain rfl := Option.some.inj hs
    exact hh
  · exact hr.expressTail hs
  · obtain rfl := Option.some.inj hs
    exact hr
  · have hm := hh.expressMove cumack ecneSeen
    exact Sender.Kept.expressTail (s := (Sctp.expressMove cumack ecneSeen s.hushed).setRwnd cfg rwnd)
      ⟨hm.holds, hm.tidy⟩ hs

/-- Behind the cumulative ack the counters describe the queue and its head is acked. -/
theorem cumAckPart_kept (h : s.Kept) (sack : Sack n) (hcmp : Comparable sack.cumAck s.sentQueue) :
    (cumAckPart sack s).toSender.Kept ∧ HeadAcked sack.cumAck (cumAckPart sack s).sentQueue := by
  have hw := walk_balanced (B := fun s : CumAcks n => s.toFlight.Holds)
    (f := markCumAcked sack.cumAck) (fun s x s' ys r => markCumAcked_holds)
    { toAsoc := s.toAsoc.resetNets, accumMoved := false, thisSackLowestNewack := 0 } s.sentQueue 0
    h.tidy (by rw [zero_add]; exact h.holds)
  rw [zero_add] at hw
  exact ⟨⟨hw.1, hw.2⟩, headAcked_mark _ (fun c hc => (h.tidy c hc).1) hcmp⟩

theorem gapPart_kept {r : SackRun n} (sack : Sack n) (h : r.toSender.Kept)
    (hh : HeadAcked sack.cumAck r.sentQueue) :
    (gapPart sack r).toSender.Kept ∧ HeadAcked sack.cumAck (gapPart sack r).sentQueue := by
  simp only [gapPart]
  split
  · have hk := CursorKept.handleSegments
      (g := { toAsoc := { r.toAsoc with
                nets := fun i =>
                  { r.nets i with sawNewack := false, thisSackHighestNewack := sack.cumAck } }
              biggestTsnAcked := r.biggestTsnAcked
              biggestTsnNewlyAcked := r.biggestTsnNewlyAcked
              thisSackLowestNewack := r.thisSackLowestNewack })
      (q := r.sentQueue) ⟨h.holds, h.tidy, hh⟩ sack.segs sack.nrSegs
    exact ⟨⟨hk.holds, hk.tidy⟩, hk.head⟩
  · exact ⟨h, hh⟩

theorem Sender.Kept.dropPart (h : s.Kept) (cfg : SenderConfig) (sack : Sack n)
    (hh : HeadAcked sack.cumAck s.sentQueue) : (dropPart cfg sack s).Kept := by
  have hw := dropCumAcked_holds cfg (s := { s.toAsoc with lastAckedSeq := sack.cumAck })
    (r := 0) hh (by rw [zero_add]; exact h.holds)
  rw [zero_add] at hw
  refine ⟨?_, fun c hc => h.tidy c (dropCumAcked_subset hc)⟩
  simp only [Sctp.dropPart]
  split
  · rename_i he
    obtain ⟨he, hpos⟩ := Bool.and_eq_true_iff.1 he
    -- the flight is zero once the queue is empty, so the repair changes nothing
    rw [List.isEmpty_iff.1 he] at hw
    have hz := hw.totalFlight
    simp only [worth_nil, Prod.fst_zero] at hz
    simp [hz] at hpos
  · exact hw

theorem Sender.Kept.revokePart (h : s.Kept) (sack : Sack n) (biggest : Tsn) :
    (revokePart sack biggest s).Kept := by
  simp only [Sctp.revokePart]
  split_ifs
  · obtain ⟨hw, ht⟩ := h.walk (f := checkForRevoked sack.cumAck biggest)
      (fun s x s' ys r => checkForRevoked_holds) (a := s.toAsoc) rfl
    exact ⟨hw, ht⟩
  · obtain ⟨hw, ht⟩ := h.walk (fun s x s' ys r => revokeAcked_holds) (a := s.toAsoc) rfl
    exact ⟨hw, ht⟩
  · exact ⟨h.holds, h.tidy⟩

theorem settlePart_kept {r : SackRun n} (sack : Sack n) (h : r.toSender.Kept)
    (hh : HeadAcked sack.cumAck r.sentQueue) : (settlePart cfg sack r).Kept := by
  have hk := (h.dropPart cfg sack hh).revokePart sack r.biggestTsnAcked
  simp only [settlePart]
  apply Sender.Kept.syncFlight
  refine ⟨?_, hk.tidy⟩
  show (Asoc.cwndUpdateAfterSack _ sack.ecneSeen).toFlight.Holds _
  rw [cwndUpdateAfterSack_flight]
  exact hk.holds

theorem Sender.Kept.strikePart (h : s.Kept) (cfg : SenderConfig) (sack : Sack n)
    (e : StrikeEnv n) : (strikePart cfg sack e s).Kept := by
  simp only [Sctp.strikePart]
  split
  · obtain ⟨hw, ht⟩ := h.walk (f := strikeChunk cfg e) (fun s x s' ys r => strikeChunk_holds)
      (a := { s.toAsoc with nets := fun i => { s.nets i with netAck := 0 } }) rfl
    exact ⟨hw, ht⟩
  · exact ⟨h.holds, h.tidy⟩

theorem Sender.Kept.sackTail (h : s.Kept) (sack : Sack n) (oldRwnd : ℕ) (e : StrikeEnv n) :
    (sackTail cfg sack oldRwnd e s).Kept := by
  have h1 := h.strikePart cfg sack e
  have h2 : ((Sctp.strikePart cfg sack e s).setRwnd cfg sack.rwnd).Kept := ⟨h1.holds, h1.tidy⟩
  have h3 := h2.againLoop
    (decide (oldRwnd < ((Sctp.strikePart cfg sack e s).setRwnd cfg sack.rwnd).peersRwnd)) false
  exact ⟨h3.holds, h3.tidy⟩

theorem Sender.Kept.sackShutdown (h : s.Kept) {rwnd : ℕ} {rest : Sender n → Sender n}
    (hrest : ∀ s : Sender n, s.Kept → (rest s).Kept)
    (hs : sackShutdown cfg rwnd s rest = some s') : s'.Kept := by
  simp only [Sctp.sackShutdown] at hs
  split at hs
  · split at hs
    · obtain rfl := Option.some.inj hs
      exact hrest _ ⟨h.holds, h.tidy⟩
    · cases hs
    · obtain rfl := Option.some.inj hs
      exact ⟨h.holds, h.tidy⟩
  · obtain rfl := Option.some.inj hs
    exact hrest s h

theorem Sender.Kept.handleSack (h : s.Kept) {sack : Sack n}
    (hcmp : Comparable sack.cumAck s.sentQueue) (hs : handleSack cfg sack s = some s') :
    s'.Kept := by
  have hh : s.hushed.Kept := ⟨h.holds, h.tidy⟩
  simp only [Sctp.handleSack] at hs
  split_ifs at hs with h1 h2 h3 h4
  · obtain rfl := Option.some.inj hs
    exact hh
  · obtain rfl := Option.some.inj hs
    have hq : s.sentQueue = [] := by
      simp only [Sender.drained, Bool.and_eq_true, List.isEmpty_iff] at h3
      exact h3.1.2
    refine ⟨?_, h.tidy⟩
    show Flight.Holds _ (worth SentChunk.amount s.sentQueue)
    rw [hq]
    exact ⟨h.holds.saturated, rfl, rfl, rfl, rfl⟩
  · obtain ⟨hc, hca⟩ := cumAckPart_kept hh sack hcmp
    obtain ⟨hg, hga⟩ := gapPart_kept sack hc hca
    exact (settlePart_kept sack hg hga).sackShutdown (fun t ht => ht.sackTail _ _ _) hs

end Handlers

end Sctp
