import Sctp.Sender.Express
import Sctp.Sender.Retransmit

/-! What the SACK handlers, T3 and retransmissions do to the TSNs of the sent queue: nothing, but for
those that the cumulative ack passes. -/
namespace Sctp
open Ledger

variable {n : ℕ}

/-- The two ends of the window: `last_acked_seq` and `sending_seq`. -/
def Asoc.ends (s : Asoc n) : Tsn × Tsn := (s.lastAckedSeq, s.sendingSeq)

def Sender.tsns (s : Sender n) : List Tsn := s.sentQueue.map SentChunk.tsn

structure SameTsns (s t : Sender n) : Prop where
  ends : t.ends = s.ends
  tsns : t.tsns = s.tsns

namespace SameTsns

theorem refl (s : Sender n) : SameTsns s s := ⟨rfl, rfl⟩

theorem trans {s t u : Sender n} (h : SameTsns s t) (h' : SameTsns t u) : SameTsns s u :=
  ⟨h'.ends.trans h.ends, h'.tsns.trans h.tsns⟩

/-- A chunk replaced in its place. -/
theorem set {s : Sender n} {a : Asoc n} {i : ℕ} {c c' : SentChunk n} (ha : a.ends = s.ends)
    (hi : s.sentQueue[i]? = some c) (hc : c'.tsn = c.tsn) :
    SameTsns s { toAsoc := a, sentQueue := s.sentQueue.set i c' } := by
  refine ⟨ha, ?_⟩
  refine List.ext_getElem? fun j => ?_
  simp only [Sender.tsns, List.getElem?_map]
  by_cases hij : i = j
  · subst hij
    have hlt : i < s.sentQueue.length := (List.getElem?_eq_some_iff.1 hi).1
    rw [List.getElem?_set_self hlt, hi, Option.map_some, Option.map_some, hc]
  · rw [List.getElem?_set_ne hij]

theorem foldl {α : Type*} {f : Sender n → α → Sender n} (hf : ∀ s x, SameTsns s (f s x))
    (xs : List α) (s : Sender n) : SameTsns s (xs.foldl f s) := by
  induction xs generalizing s with
  | nil => exact refl s
  | cons x xs ih => exact (hf s x).trans (ih (f s x))

end SameTsns

section Walk

variable {σ : Type*} {f : σ → SentChunk n → Option (σ × List (SentChunk n))}

/-- A walk that puts every chunk back under its TSN. -/
theorem walk_tsns (hf : ∀ s c s' ys, f s c = some (s', ys) → ys.map SentChunk.tsn = [c.tsn])
    (s : σ) (q : List (SentChunk n)) :
    (walk f s q).2.map SentChunk.tsn = q.map SentChunk.tsn := by
  induction q generalizing s with
  | nil => rfl
  | cons c q ih =>
    cases hc : f s c with
    | none => rw [walk_cons_none hc]
    | some p =>
      rw [walk_cons_some hc, List.map_append, hf s c _ _ hc, ih, List.map_cons,
        List.singleton_append]

theorem walk_ends {g : σ → Tsn × Tsn} (hf : ∀ s c s' ys, f s c = some (s', ys) → g s' = g s)
    (s : σ) (q : List (SentChunk n)) : g (walk f s q).1 = g s :=
  walk_state (I := fun s' => g s' = g s) (fun s' c _ _ h hs => (hf s' c _ _ h).trans hs) s q rfl

end Walk

section Ends

variable (s : Asoc n) (c : SentChunk n)

@[simp] theorem ends_creditNet : (s.creditNet c).ends = s.ends := rfl

@[simp] theorem ends_leaveFlight : (s.leaveFlight c).ends = s.ends := rfl

@[simp] theorem ends_retranDecr : s.retranDecr.ends = s.ends := rfl

@[simp] theorem ends_ackChunk : (s.ackChunk c).ends = s.ends := by
  unfold Asoc.ackChunk
  split
  · rfl
  · split
    · split <;> rfl
    · rfl

@[simp] theorem ends_dropChunk : (s.dropChunk c).ends = s.ends := by
  unfold Asoc.dropChunk
  split <;> rfl

@[simp] theorem ends_cwndUpdateAfterSack (ecneSeen : Bool) :
    (s.cwndUpdateAfterSack ecneSeen).ends = s.ends := by
  unfold Asoc.cwndUpdateAfterSack
  split <;> rfl

end Ends

namespace SameTsns

theorem recoverFirstProbe (s : Sender n) : SameTsns s (recoverFirstProbe s) := by
  unfold Sctp.recoverFirstProbe
  split
  · exact refl s
  · split
    · exact refl s
    · rename_i c hc
      refine set ?_ hc ?_
      · unfold windowProbeRecovery
        split <;> rfl
      · unfold windowProbeRecovery
        split <;> rfl

theorem auditFlight (s : Sender n) : SameTsns s (auditFlight s) := by
  unfold Sctp.auditFlight
  split <;> exact ⟨rfl, rfl⟩

theorem assureTimer (recovery clearIdle : Bool) (t : TimerLoop n) (i : Fin n) :
    SameTsns t.toSender (assureTimer recovery clearIdle t i).toSender := by
  have hprobe : SameTsns t.toSender (probeRecovered recovery t.toSender i) := by
    unfold probeRecovered
    split
    · exact recoverFirstProbe t.toSender
    · exact refl _
  refine hprobe.trans ?_
  simp only [Sctp.assureTimer]
  split <;> exact ⟨rfl, rfl⟩

theorem assureTimers (recovery clearIdle : Bool) (s : Sender n) (recovered : Bool) :
    SameTsns s (assureTimers recovery clearIdle s recovered).toSender := by
  unfold Sctp.assureTimers
  apply List.foldlRecOn (motive := fun t : TimerLoop n => SameTsns s t.toSender)
  · exact refl s
  · intro t ht i _
    exact ht.trans (assureTimer recovery clearIdle t i)

theorem againLoop (recovery clearIdle : Bool) (s : Sender n) :
    SameTsns s (againLoop recovery clearIdle s) := by
  have hfirst := assureTimers recovery clearIdle s false
  unfold Sctp.againLoop
  dsimp only
  split
  · exact (hfirst.trans (auditFlight _)).trans (assureTimers recovery clearIdle _ _)
  · exact hfirst

theorem syncFlight (s : Sender n) : SameTsns s s.syncFlight := by
  unfold Sender.syncFlight
  split <;> exact ⟨rfl, rfl⟩

theorem leavePartial_sendingSeq (b : Backlog) (clearLock : Bool) :
    (b.leavePartial clearLock).sendingSeq = b.sendingSeq := by
  unfold Backlog.leavePartial
  split
  · split <;> rfl
  · rfl

theorem shutdownMove_sendingSeq {b b' : Backlog} (h : b.shutdownMove = .shut b') :
    b'.sendingSeq = b.sendingSeq := by
  unfold Backlog.shutdownMove at h
  split at h
  · split at h
    · cases h
    · cases h
      rfl
  · split at h
    · split at h
      · cases h
      · cases h
        rfl
    · cases h

theorem backlog (s : Sender n) {b : Backlog} (hb : b.sendingSeq = s.sendingSeq) :
    SameTsns s { s with toBacklog := b } :=
  ⟨Prod.ext rfl hb, rfl⟩

theorem expressShutdown {s t : Sender n} (h : expressShutdown s = some t) : SameTsns s t := by
  unfold Sctp.expressShutdown at h
  have hleave := leavePartial_sendingSeq s.toBacklog false
  split at h
  · dsimp only at h
    split at h
    · cases h
      exact backlog s hleave
    · cases h
    · rename_i b hb
      cases h
      exact backlog s ((shutdownMove_sendingSeq hb).trans hleave)
  · cases h
    exact refl s

theorem expressTail {recovery : Bool} {cumack : Tsn} {s t : Sender n}
    (h : expressTail recovery cumack s = some t) : SameTsns s t := by
  obtain ⟨u, hu, rfl⟩ := Option.map_eq_some_iff.1 h
  exact ((againLoop recovery true s).trans (expressShutdown hu)).trans ⟨rfl, rfl⟩

end SameTsns

/-- The cumulative ack moves to `cumAck`, past a first part of the queue. -/
structure Passed (cumAck : Tsn) (s t : Sender n) : Prop where
  ends : t.ends = (cumAck, s.sendingSeq)
  split : ∃ l, s.tsns = l ++ t.tsns ∧ ∀ x ∈ l, tsnGt x cumAck = false
  head : ∀ x ∈ t.tsns.head?, tsnGe cumAck x = false

namespace Passed

variable {cumAck : Tsn} {s t u : Sender n}

theorem after (h : SameTsns s t) (h' : Passed cumAck t u) : Passed cumAck s u := by
  obtain ⟨l, hl, hpassed⟩ := h'.split
  refine ⟨h'.ends.trans ?_, ⟨l, h.tsns ▸ hl, hpassed⟩, h'.head⟩
  have hnext : t.sendingSeq = s.sendingSeq := (Prod.mk.inj h.ends).2
  rw [hnext]

theorem trans (h : Passed cumAck s t) (h' : SameTsns t u) : Passed cumAck s u := by
  refine ⟨h'.ends.trans h.ends, ?_, ?_⟩
  · rw [h'.tsns]
    exact h.split
  · rw [h'.tsns]
    exact h.head

end Passed

theorem walk_expressAck_passed (cumack : Tsn) (s : Asoc n) (q : List (SentChunk n)) :
    (∃ l, q.map SentChunk.tsn = l ++ (walk (expressAck cumack) s q).2.map SentChunk.tsn ∧
      ∀ x ∈ l, tsnGt x cumack = false) ∧
    ∀ x ∈ ((walk (expressAck cumack) s q).2.map SentChunk.tsn).head?, tsnGe cumack x = false := by
  rw [walk_expressAck]
  refine ⟨⟨(covered cumack q).map SentChunk.tsn, ?_, fun x hx => ?_⟩, fun x hx => ?_⟩
  · rw [← List.map_append, covered, uncovered, List.takeWhile_append_dropWhile]
  · obtain ⟨c, hc, rfl⟩ := List.mem_map.1 hx
    have hge : tsnGe cumack c.tsn = true :=
      List.mem_takeWhile_imp (p := fun c : SentChunk n => tsnGe cumack c.tsn) hc
    simpa using not_tsnGt_of_tsnGe hge
  · rw [List.head?_map] at hx
    obtain ⟨c, hc, rfl⟩ := Option.map_eq_some_iff.1 hx
    have hnot := List.head?_dropWhile_not (fun c : SentChunk n => tsnGe cumack c.tsn) q
    rw [show (q.dropWhile fun c => tsnGe cumack c.tsn).head? = some c from hc] at hnot
    simpa using hnot

theorem walk_expressAck_ends (cumack : Tsn) (s : Asoc n) (q : List (SentChunk n)) :
    (walk (expressAck cumack) s q).1.ends = s.ends := by
  refine walk_ends (g := Asoc.ends) (fun a c a' ys ha => ?_) s q
  unfold expressAck at ha
  split at ha
  · cases ha
    rw [ends_dropChunk, ends_ackChunk]
  · cases ha

theorem expressMove_passed {cumack : Tsn} (ecneSeen : Bool) {s : Sender n}
    (h : tsnGt cumack s.lastAckedSeq = true) : Passed cumack s (expressMove cumack ecneSeen s) := by
  unfold expressMove
  dsimp only
  rw [if_pos (by exact h)]
  refine Passed.trans ?_ (SameTsns.syncFlight _)
  obtain ⟨hsplit, hhead⟩ := walk_expressAck_passed cumack
    { s.toAsoc.resetNets with thisSackHighestGap := cumack } s.sentQueue
  refine ⟨Prod.ext rfl ?_, hsplit, hhead⟩
  have hends := walk_expressAck_ends cumack
    { s.toAsoc.resetNets with thisSackHighestGap := cumack } s.sentQueue
  rw [← ends_cwndUpdateAfterSack _ ecneSeen] at hends
  have hnext := congrArg Prod.snd hends
  exact hnext

/-- The express handler leaves the TSNs alone or moves the cumulative ack forward. -/
theorem expressHandleSack_tsns {cfg : SenderConfig} {cumack : Tsn} {rwnd : ℕ} {ecneSeen : Bool}
    {s t : Sender n} (hold : tsnGt cumack s.lastAckedSeq = true ∨ tsnGt s.lastAckedSeq cumack = true ∨
      s.lastAckedSeq = cumack)
    (h : expressHandleSack cfg cumack rwnd ecneSeen s = some t) :
    SameTsns s t ∨ tsnGt s.lastAckedSeq cumack = false ∧ Passed cumack s t := by
  unfold expressHandleSack at h
  split at h
  · cases h
    exact .inl ⟨rfl, rfl⟩
  · rename_i hnotold
    split at h
    · dsimp only at h
      have hrwnd : SameTsns s (s.hushed.setRwnd cfg rwnd) := ⟨rfl, rfl⟩
      split at h
      · exact .inl (hrwnd.trans (SameTsns.expressTail h))
      · cases h
        exact .inl hrwnd
    · rename_i hne
      split at h
      · cases h
      · have hgt : tsnGt cumack s.lastAckedSeq = true := by
          obtain hgt | hlt | heq := hold
          · exact hgt
          · exact absurd hlt hnotold
          · exact absurd heq hne
        have hhushed : SameTsns s s.hushed := ⟨rfl, rfl⟩
        have hmove := Passed.after hhushed (expressMove_passed ecneSeen hgt)
        have hrwnd : SameTsns (expressMove cumack ecneSeen s.hushed)
            ((expressMove cumack ecneSeen s.hushed).setRwnd cfg rwnd) := ⟨rfl, rfl⟩
        exact .inr ⟨by simpa using hnotold, (hmove.trans hrwnd).trans (SameTsns.expressTail h)⟩

theorem cumAckPart_same (sack : Sack n) (s : Sender n) :
    SameTsns s (cumAckPart sack s).toSender := by
  have hmark : ∀ (a : CumAcks n) c a' ys, markCumAcked sack.cumAck a c = some (a', ys) →
      ys.map SentChunk.tsn = [c.tsn] ∧ a'.ends = a.ends := by
    intro a c a' ys h
    unfold markCumAcked at h
    split at h
    · split at h
      · cases h
        exact ⟨rfl, rfl⟩
      · cases h
        refine ⟨rfl, ?_⟩
        unfold CumAcks.ack
        dsimp only
        split <;> exact ends_ackChunk a.toAsoc c
    · cases h
  constructor
  · have hends := walk_ends (g := fun a : CumAcks n => a.ends) (fun a c a' ys h => (hmark a c a' ys h).2)
      { toAsoc := s.toAsoc.resetNets, accumMoved := false, thisSackLowestNewack := 0 } s.sentQueue
    exact hends
  · exact walk_tsns (fun a c a' ys h => (hmark a c a' ys h).1) _ s.sentQueue

/-- The cursor stands over the same TSNs. -/
structure SameCursor (k k' : Cursor n) : Prop where
  ends : k'.ends = k.ends
  tsns : k'.queue.map SentChunk.tsn = k.queue.map SentChunk.tsn

namespace SameCursor

theorem trans {k k' k'' : Cursor n} (h : SameCursor k k') (h' : SameCursor k' k'') :
    SameCursor k k'' :=
  ⟨h'.ends.trans h.ends, h'.tsns.trans h.tsns⟩

theorem segmentChunk (nrSacking : Bool) (g : GapAcks n) (c : SentChunk n) :
    (segmentChunk nrSacking g c).1.ends = g.ends ∧ (segmentChunk nrSacking g c).2.tsn = c.tsn := by
  have hgap : (g.ackGap c).ends = g.ends := by
    unfold GapAcks.ackGap
    split
    · rfl
    · split <;> rfl
  unfold Sctp.segmentChunk
  split
  · exact ⟨rfl, rfl⟩
  · split
    · exact ⟨hgap, rfl⟩
    · exact ⟨hgap, rfl⟩

theorem hitChunk (nrSacking : Bool) (theTsn : Tsn) (k : Cursor n) (i : ℕ) :
    SameCursor k (hitChunk nrSacking theTsn k i) := by
  unfold Sctp.hitChunk
  split
  · exact ⟨rfl, rfl⟩
  · rename_i c hc
    split
    · obtain ⟨hends, htsn⟩ := segmentChunk nrSacking k.toGapAcks c
      refine ⟨hends, ?_⟩
      have hset := SameTsns.set (s := { toAsoc := k.toAsoc, sentQueue := k.queue }) rfl hc htsn
      exact hset.tsns
    · exact ⟨rfl, rfl⟩

theorem segmentTsn (lastTsn : Tsn) (nrSacking : Bool) (k : Cursor n × Bool) (j : ℕ) :
    SameCursor k.1 (segmentTsn lastTsn nrSacking k j).1 := by
  simp only [Sctp.segmentTsn]
  split
  · exact ⟨rfl, rfl⟩
  · exact hitChunk nrSacking _ k.1 _

theorem processSegmentRange (lastTsn : Tsn) (nrSacking : Bool) (k : Cursor n)
    (fragStrt fragEnd : ℕ) :
    SameCursor k (processSegmentRange lastTsn nrSacking k fragStrt fragEnd) := by
  unfold Sctp.processSegmentRange
  apply List.foldlRecOn (motive := fun k' : Cursor n × Bool => SameCursor k k'.1)
  · exact ⟨rfl, rfl⟩
  · intro k' hk' j _
    exact hk'.trans (segmentTsn lastTsn nrSacking k' j)

theorem handleSegment (lastTsn : Tsn) (nrSacking : Bool) (k : Cursor n × ℕ) (frag : ℕ × ℕ) :
    SameCursor k.1 (handleSegment lastTsn nrSacking k frag).1 := by
  unfold Sctp.handleSegment
  split
  · exact ⟨rfl, rfl⟩
  · dsimp only
    refine trans ?_ (processSegmentRange lastTsn nrSacking _ frag.1 frag.2)
    exact ⟨rfl, rfl⟩

theorem foldl_handleSegment (lastTsn : Tsn) (nrSacking : Bool) (segs : List (ℕ × ℕ))
    (k : Cursor n × ℕ) :
    SameCursor k.1 (segs.foldl (Sctp.handleSegment lastTsn nrSacking) k).1 := by
  induction segs generalizing k with
  | nil => exact ⟨rfl, rfl⟩
  | cons frag segs ih => exact (handleSegment lastTsn nrSacking k frag).trans (ih _)

end SameCursor

theorem handleSegments_same (lastTsn : Tsn) (segs nrSegs : List (ℕ × ℕ)) (g : GapAcks n)
    (q : List (SentChunk n)) :
    (handleSegments lastTsn segs nrSegs g q).ends = g.ends ∧
      (handleSegments lastTsn segs nrSegs g q).queue.map SentChunk.tsn = q.map SentChunk.tsn := by
  have hsegs := SameCursor.foldl_handleSegment lastTsn false segs
    ({ toGapAcks := g, queue := q, tp1 := 0 }, 0)
  have hnr := SameCursor.foldl_handleSegment lastTsn true nrSegs
    ({ (segs.foldl (handleSegment lastTsn false)
        ({ toGapAcks := g, queue := q, tp1 := 0 }, 0)).1 with tp1 := 0 }, 0)
  exact ⟨hnr.ends.trans hsegs.ends, hnr.tsns.trans hsegs.tsns⟩

theorem gapPart_same (sack : Sack n) (r : SackRun n) :
    SameTsns r.toSender (gapPart sack r).toSender := by
  unfold gapPart
  split
  · dsimp only
    constructor
    · exact (handleSegments_same _ _ _ _ _).1
    · exact (handleSegments_same _ _ _ _ _).2
  · exact SameTsns.refl _

theorem walk_dropCumAcked_passed (cfg : SenderConfig) (cumAck : Tsn) (s : Asoc n)
    (q : List (SentChunk n)) :
    (walk (dropCumAcked cfg cumAck) s q).1.ends = s.ends ∧
    (walk (dropCumAcked cfg cumAck) s q).2 = q.dropWhile fun c => !tsnGt c.tsn cumAck := by
  induction q generalizing s with
  | nil => exact ⟨rfl, rfl⟩
  | cons c q ih =>
    by_cases hgt : tsnGt c.tsn cumAck = true
    · rw [walk_cons_none (by rw [dropCumAcked, if_pos hgt])]
      exact ⟨rfl, by simp [hgt]⟩
    · rw [walk_cons_some (by rw [dropCumAcked, if_neg hgt])]
      obtain ⟨hends, hq⟩ := ih ((s.dropChunk c).dropPrSctp cfg c)
      refine ⟨hends.trans (ends_dropChunk s c), ?_⟩
      simp [hgt, hq]

theorem dropPart_passed (cfg : SenderConfig) (sack : Sack n) (s : Sender n) :
    Passed sack.cumAck s (dropPart cfg sack s) := by
  unfold dropPart
  obtain ⟨hends, hq⟩ := walk_dropCumAcked_passed cfg sack.cumAck
    { s.toAsoc with lastAckedSeq := sack.cumAck } s.sentQueue
  dsimp only
  rw [hq]
  refine ⟨?_, ⟨(s.sentQueue.takeWhile fun c => !tsnGt c.tsn sack.cumAck).map SentChunk.tsn, ?_,
    fun x hx => ?_⟩, fun x hx => ?_⟩
  · split
    · exact hends
    · exact hends
  · exact (by rw [Sender.tsns, Sender.tsns, ← List.map_append, List.takeWhile_append_dropWhile])
  · obtain ⟨c, hc, rfl⟩ := List.mem_map.1 hx
    simpa using List.mem_takeWhile_imp (p := fun c : SentChunk n => !tsnGt c.tsn sack.cumAck) hc
  · rw [Sender.tsns, List.head?_map] at hx
    obtain ⟨c, hc, rfl⟩ := Option.map_eq_some_iff.1 hx
    have hnot := List.head?_dropWhile_not (fun c : SentChunk n => !tsnGt c.tsn sack.cumAck)
      s.sentQueue
    rw [show (s.sentQueue.dropWhile fun c => !tsnGt c.tsn sack.cumAck).head? = some c from hc] at hnot
    have hgt : tsnGt c.tsn sack.cumAck = true := by simpa using hnot
    by_contra hge
    exact not_tsnGt_of_tsnGe (by simpa using hge) hgt

theorem revokePart_same (sack : Sack n) (biggest : Tsn) (s : Sender n) :
    SameTsns s (revokePart sack biggest s) := by
  have hcheck : ∀ (a : Asoc n) c a' ys, checkForRevoked sack.cumAck biggest a c = some (a', ys) →
      ys.map SentChunk.tsn = [c.tsn] ∧ a'.ends = a.ends := by
    intro a c a' ys h
    unfold checkForRevoked revoke at h
    split_ifs at h <;> cases h <;> exact ⟨rfl, rfl⟩
  have hrevoke : ∀ (a : Asoc n) c a' ys, revokeAcked a c = some (a', ys) →
      ys.map SentChunk.tsn = [c.tsn] ∧ a'.ends = a.ends := by
    intro a c a' ys h
    unfold revokeAcked revoke at h
    split_ifs at h <;> cases h <;> exact ⟨rfl, rfl⟩
  unfold revokePart
  dsimp only
  split
  · exact ⟨walk_ends (g := Asoc.ends) (fun a c a' ys h => (hcheck a c a' ys h).2) s.toAsoc s.sentQueue,
      walk_tsns (fun a c a' ys h => (hcheck a c a' ys h).1) s.toAsoc s.sentQueue⟩
  · split
    · exact ⟨walk_ends (g := Asoc.ends) (fun a c a' ys h => (hrevoke a c a' ys h).2) s.toAsoc
          s.sentQueue,
        walk_tsns (fun a c a' ys h => (hrevoke a c a' ys h).1) s.toAsoc s.sentQueue⟩
    · exact ⟨rfl, rfl⟩

theorem strikePart_same (cfg : SenderConfig) (sack : Sack n) (e : StrikeEnv n) (s : Sender n) :
    SameTsns s (strikePart cfg sack e s) := by
  have hstrike : ∀ (a : Asoc n) c a' ys, strikeChunk cfg e a c = some (a', ys) →
      ys.map SentChunk.tsn = [c.tsn] ∧ a'.ends = a.ends := by
    intro a c a' ys h
    unfold strikeChunk fastRetransmit at h
    split_ifs at h <;> cases h <;> exact ⟨rfl, rfl⟩
  unfold strikePart
  dsimp only
  split
  · exact ⟨walk_ends (g := Asoc.ends) (fun a c a' ys h => (hstrike a c a' ys h).2) _ s.sentQueue,
      walk_tsns (fun a c a' ys h => (hstrike a c a' ys h).1) _ s.sentQueue⟩
  · exact ⟨rfl, rfl⟩

theorem settlePart_passed (cfg : SenderConfig) (sack : Sack n) (r : SackRun n) :
    Passed sack.cumAck r.toSender (settlePart cfg sack r) := by
  have hrevoke := (dropPart_passed cfg sack r.toSender).trans
    (revokePart_same sack r.biggestTsnAcked (dropPart cfg sack r.toSender))
  unfold settlePart
  refine (hrevoke.trans ?_).trans (SameTsns.syncFlight _)
  exact ⟨ends_cwndUpdateAfterSack _ sack.ecneSeen, rfl⟩

theorem sackTail_same (cfg : SenderConfig) (sack : Sack n) (oldRwnd : ℕ) (e : StrikeEnv n)
    (s : Sender n) : SameTsns s (sackTail cfg sack oldRwnd e s) := by
  unfold sackTail
  dsimp only
  refine ((strikePart_same cfg sack e s).trans ?_).trans
    ((SameTsns.againLoop _ false _).trans ⟨rfl, rfl⟩)
  exact ⟨rfl, rfl⟩

theorem sackShutdown_same {cfg : SenderConfig} {rwnd : ℕ} {s t : Sender n}
    {rest : Sender n → Sender n} (hrest : ∀ u, SameTsns u (rest u))
    (h : sackShutdown cfg rwnd s rest = some t) : SameTsns s t := by
  have hleave := SameTsns.leavePartial_sendingSeq s.toBacklog true
  unfold sackShutdown at h
  split at h
  · dsimp only at h
    split at h
    · cases h
      refine SameTsns.trans ?_ (hrest _)
      exact ⟨Prod.ext rfl hleave, rfl⟩
    · cases h
    · rename_i b hb
      cases h
      exact ⟨Prod.ext rfl ((SameTsns.shutdownMove_sendingSeq hb).trans hleave), rfl⟩
  · cases h
    exact hrest s

/-- The slow handler, likewise. -/
theorem handleSack_tsns {cfg : SenderConfig} {sack : Sack n} {s t : Sender n}
    (h : handleSack cfg sack s = some t) :
    SameTsns s t ∨ tsnGt s.lastAckedSeq sack.cumAck = false ∧ Passed sack.cumAck s t := by
  unfold handleSack at h
  split at h
  · cases h
  · split at h
    · cases h
      exact .inl ⟨rfl, rfl⟩
    · rename_i hnotold
      split at h
      · cases h
        exact .inl ⟨rfl, rfl⟩
      · dsimp only at h
        split at h
        · cases h
        · refine .inr ⟨by simpa using hnotold, ?_⟩
          have hhushed : SameTsns s s.hushed := ⟨rfl, rfl⟩
          have hparts := (hhushed.trans (cumAckPart_same sack s.hushed)).trans
            (gapPart_same sack (cumAckPart sack s.hushed))
          exact (Passed.after hparts (settlePart_passed cfg sack _)).trans
            (sackShutdown_same (fun u => sackTail_same cfg sack _ _ u) h)

theorem narrowProbe_same (env : RetranEnv n) {s : Sender n} {i : ℕ} {c : SentChunk n}
    (hi : s.sentQueue[i]? = some c) : SameTsns s (narrowProbe env s i c) := by
  unfold narrowProbe markProbe
  split
  · split
    · refine SameTsns.set ?_ hi rfl
      rfl
    · exact SameTsns.refl s
  · exact SameTsns.refl s

theorem pickRetran_same (env : RetranEnv n) (is : List ℕ) (oneChunk : Bool) (s : Sender n) :
    SameTsns s (pickRetran env is oneChunk s).1 := by
  induction is generalizing oneChunk s with
  | nil => exact SameTsns.refl s
  | cons i is ih =>
    unfold pickRetran
    split
    · exact SameTsns.refl s
    · rename_i c hc
      split
      · exact ih oneChunk s
      · split
        · exact SameTsns.refl s
        · split
          · exact SameTsns.refl s
          · dsimp only
            split
            · exact (narrowProbe_same env hc).trans (ih _ _)
            · exact narrowProbe_same env hc

theorem resendAt_same (cfg : SenderConfig) (env : RetranEnv n) (s : Sender n) (i : ℕ) :
    SameTsns s (resendAt cfg env s i) := by
  unfold resendAt
  split
  · exact SameTsns.refl s
  · rename_i c hc
    exact SameTsns.set rfl hc rfl

theorem chunkRetransmission_same {cfg : SenderConfig} {env : RetranEnv n} {s t : Sender n}
    (h : chunkRetransmission cfg env s = some t) : SameTsns s t := by
  unfold chunkRetransmission at h
  split at h
  · cases h
    exact SameTsns.refl s
  · dsimp only at h
    have hpick := pickRetran_same env (List.range s.sentQueue.length) false s
    split at h
    · cases h
      exact hpick
    · cases h
    · cases h
      refine hpick.trans ?_
      unfold sendPacket
      split
      · exact SameTsns.refl _
      · split
        · exact SameTsns.refl _
        · split
          · exact SameTsns.foldl (resendAt_same cfg env) _ _
          · exact SameTsns.refl _

theorem t3Mark_tsns {cfg : SenderConfig} {t : T3 n} {a a' : T3Run n} {c : SentChunk n}
    {ys : List (SentChunk n)} (h : t3Mark cfg t a c = some (a', ys)) :
    ys.map SentChunk.tsn = [c.tsn] ∧ a'.ends = a.ends := by
  have hasoc : (t3Asoc cfg a.toAsoc c).ends = a.ends := by
    unfold t3Asoc
    split <;> rfl
  unfold t3Mark at h
  split_ifs at h
  · cases h
    exact ⟨rfl, rfl⟩
  · cases h
    exact ⟨rfl, hasoc⟩
  · cases h
    exact ⟨rfl, rfl⟩
  · cases h
    exact ⟨rfl, rfl⟩

/-- Nothing on the queue is old, so nothing is repaired. -/
theorem markAllForResend_same (cfg : SenderConfig) (t : T3 n) {s : Sender n}
    (hnew : ∀ x ∈ s.tsns, tsnGe s.lastAckedSeq x = false) :
    SameTsns s (markAllForResend cfg t s) := by
  have htsns := walk_tsns (f := t3Mark cfg t) (fun _ _ _ _ h => (t3Mark_tsns h).1)
    { toAsoc := s.toAsoc, cntMk := 0 } s.sentQueue
  have hends := walk_ends (f := t3Mark cfg t) (g := fun a : T3Run n => a.ends)
    (fun _ _ _ _ h => (t3Mark_tsns h).2) { toAsoc := s.toAsoc, cntMk := 0 } s.sentQueue
  have hloop : t3Loop cfg t s =
      walk (t3Mark cfg t) { toAsoc := s.toAsoc, cntMk := 0 } s.sentQueue := by
    unfold t3Loop
    dsimp only
    refine if_neg ?_
    rw [List.any_eq_true]
    rintro ⟨c, hc, hold⟩
    have hin : c.tsn ∈ s.tsns := by
      rw [Sender.tsns, ← htsns]
      exact List.mem_map_of_mem hc
    rw [hnew c.tsn hin] at hold
    cases hold
  unfold markAllForResend
  dsimp only
  rw [hloop]
  refine ⟨?_, htsns⟩
  split
  · exact hends
  · exact hends

end Sctp
