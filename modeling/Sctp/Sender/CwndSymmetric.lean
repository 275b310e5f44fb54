import Sctp.Sender.Cwnd
import Sctp.Sender.TsnOrder

/-! The congestion windows are adjusted symmetrically as long as no revoked chunk changes its
destination and the congestion control leaves room for what the revoked chunks added. -/
namespace Sctp
open Ledger

variable {n : ℕ}

namespace SentChunk

def adjustment (c : SentChunk n) : Adjustment n := (c.tsn, c.whoTo, c.bookSize)

/-- The inflation that the chunk still has to undo. -/
def owes (c : SentChunk n) : Multiset (Adjustment n) :=
  if c.chunkWasRevoked then {c.adjustment} else 0

def stake (c : SentChunk n) : Multiset (Adjustment n) × (Fin n → ℕ) :=
  (c.owes, Pi.single c.whoTo c.bookSize)

theorem owes_congr {c d : SentChunk n} (hadj : c.adjustment = d.adjustment)
    (hrev : c.chunkWasRevoked = d.chunkWasRevoked) : c.owes = d.owes := by
  unfold owes
  rw [hadj, hrev]

theorem owes_of_not_revoked {c : SentChunk n} (h : c.chunkWasRevoked = false) : c.owes = 0 := by
  unfold owes
  rw [h]
  rfl

end SentChunk

def sizeOn (i : Fin n) (l : Multiset (Adjustment n)) : ℕ :=
  ((l.filter fun a => a.2.1 = i).map fun a => a.2.2).sum

@[simp] theorem sizeOn_add (i : Fin n) (l k : Multiset (Adjustment n)) :
    sizeOn i (l + k) = sizeOn i l + sizeOn i k := by
  simp [sizeOn, Multiset.filter_add]

theorem sizeOn_mono (i : Fin n) {l k : Multiset (Adjustment n)} (h : l ≤ k) :
    sizeOn i l ≤ sizeOn i k := by
  obtain ⟨m, rfl⟩ := Multiset.le_iff_exists_add.1 h
  rw [sizeOn_add]
  exact Nat.le_add_right _ _

theorem sizeOn_adjustment (i : Fin n) (c : SentChunk n) :
    sizeOn i {c.adjustment} = if c.whoTo = i then c.bookSize else 0 := by
  unfold sizeOn SentChunk.adjustment
  rw [Multiset.filter_singleton]
  split
  · rw [Multiset.map_singleton, Multiset.sum_singleton]
  · rfl

namespace Books

variable {b : Books n} {l : Multiset (Adjustment n)} {c : SentChunk n}

/-- The log is symmetric so far, the inflations in `l` are open, and every window has room to undo
its part of them. -/
structure Holds (b : Books n) (l : Multiset (Adjustment n)) : Prop where
  settled : ∃ k, owed b.log = some k ∧ l ≤ k
  enough : ∀ i, sizeOn i l ≤ b.cwnd i

theorem Holds.mono (h : b.Holds l) {l' : Multiset (Adjustment n)} (hle : l' ≤ l) : b.Holds l' := by
  obtain ⟨k, hk, hlk⟩ := h.settled
  exact ⟨⟨k, hk, hle.trans hlk⟩, fun i => (sizeOn_mono i hle).trans (h.enough i)⟩

theorem Holds.deflate (h : b.Holds (l + {c.adjustment})) : (b.deflate c).Holds l := by
  have hsize : sizeOn c.whoTo l + c.bookSize ≤ b.cwnd c.whoTo := by
    have := h.enough c.whoTo
    rwa [sizeOn_add, sizeOn_adjustment, if_pos rfl] at this
  obtain ⟨k, hk, hle⟩ := h.settled
  have hmem : c.adjustment ∈ k :=
    Multiset.mem_of_le hle (Multiset.mem_add.2 (.inr (Multiset.mem_singleton_self _)))
  constructor
  · refine ⟨k.erase c.adjustment, ?_, ?_⟩
    · simp only [Books.deflate, owed, hk, Option.bind_some]
      exact if_pos ⟨hmem, by omega⟩
    · have herase := Multiset.erase_le_erase c.adjustment hle
      rwa [add_comm, Multiset.singleton_add, Multiset.erase_cons_head] at herase
  · intro i
    unfold Books.deflate
    dsimp only
    rw [if_pos (by omega)]
    by_cases hi : i = c.whoTo
    · rw [hi, Function.update_self]
      omega
    · rw [Function.update_of_ne hi]
      exact (sizeOn_mono i (Multiset.le_add_right _ _)).trans (h.enough i)

theorem Holds.settle (h : b.Holds (l + c.owes)) : (b.settle c).Holds l := by
  unfold Books.settle
  unfold SentChunk.owes at h
  split
  · rename_i hrev
    rw [if_pos hrev] at h
    exact h.deflate
  · rename_i hrev
    rwa [if_neg hrev, add_zero] at h

theorem Holds.inflate (h : b.Holds l) (hroom : b.cwnd c.whoTo + c.bookSize < 2 ^ 32) :
    (b.inflate c).Holds (l + {c.adjustment}) := by
  obtain ⟨k, hk, hle⟩ := h.settled
  constructor
  · refine ⟨c.adjustment ::ₘ k, ?_, ?_⟩
    · simp only [Books.inflate, owed, hk, Option.map_some]
      rfl
    · rw [add_comm, Multiset.singleton_add]
      exact Multiset.cons_le_cons _ hle
  · intro i
    rw [sizeOn_add, sizeOn_adjustment]
    unfold Books.inflate
    dsimp only
    have := h.enough i
    by_cases hi : c.whoTo = i
    · rw [if_pos hi, ← hi, Function.update_self, Nat.mod_eq_of_lt hroom]
      subst hi
      omega
    · rw [if_neg hi, Function.update_of_ne (Ne.symm hi)]
      omega

/-- The windows hold the open inflations and stay below `2 ^ 32` when the chunks are revoked. -/
structure Fits (b : Books n) (a : Multiset (Adjustment n) × (Fin n → ℕ)) : Prop where
  holds : b.Holds a.1
  room : ∀ i, b.cwnd i + a.2 i < 2 ^ 32

theorem Fits.mono {a a' : Multiset (Adjustment n) × (Fin n → ℕ)} (h : b.Fits (a + a')) :
    b.Fits a := by
  refine ⟨h.holds.mono (Multiset.le_add_right _ _), fun i => ?_⟩
  have := h.room i
  rw [Prod.snd_add, Pi.add_apply] at this
  omega

theorem Holds.cwnd_settle_le (h : b.Holds (l + c.owes)) (i : Fin n) :
    (b.settle c).cwnd i ≤ b.cwnd i := by
  unfold Books.settle
  unfold SentChunk.owes at h
  split
  · rename_i hrev
    rw [if_pos hrev] at h
    have hsize := h.enough c.whoTo
    rw [sizeOn_add, sizeOn_adjustment, if_pos rfl] at hsize
    unfold Books.deflate
    dsimp only
    rw [if_pos (by omega)]
    by_cases hi : i = c.whoTo
    · rw [hi, Function.update_self]
      omega
    · rw [Function.update_of_ne hi]
  · exact le_rfl

/-- A chunk that is settled and keeps its destination and size. -/
theorem Fits.settle {a : Multiset (Adjustment n) × (Fin n → ℕ)} {d : SentChunk n}
    (h : b.Fits (a + c.stake)) (hrev : d.chunkWasRevoked = false) (hwho : d.whoTo = c.whoTo)
    (hsize : d.bookSize = c.bookSize) : (b.settle c).Fits (a + d.stake) := by
  constructor
  · have hd : (a + d.stake).1 = a.1 := by
      rw [Prod.fst_add, SentChunk.stake, SentChunk.owes_of_not_revoked hrev, add_zero]
    rw [hd]
    exact h.holds.settle
  · intro i
    have hroom := h.room i
    have hle := h.holds.cwnd_settle_le i
    simp only [Prod.snd_add, SentChunk.stake, Pi.add_apply, hwho, hsize] at hroom ⊢
    omega

/-- A chunk that is revoked. -/
theorem Fits.inflate {a : Multiset (Adjustment n) × (Fin n → ℕ)} (h : b.Fits (a + c.stake)) :
    (b.inflate c).Holds (a.1 + {c.adjustment}) ∧ ∀ i, (b.inflate c).cwnd i + a.2 i < 2 ^ 32 := by
  have hroom : b.cwnd c.whoTo + c.bookSize < 2 ^ 32 := by
    have := h.room c.whoTo
    simp only [Prod.snd_add, SentChunk.stake, Pi.add_apply, Pi.single_eq_same] at this
    omega
  refine ⟨(h.holds.mono (Multiset.le_add_right _ _)).inflate hroom, fun i => ?_⟩
  have hi := h.room i
  simp only [Prod.snd_add, SentChunk.stake, Pi.add_apply] at hi
  unfold Books.inflate
  dsimp only
  by_cases hwho : i = c.whoTo
  · subst hwho
    rw [Pi.single_eq_same] at hi
    rw [Function.update_self, Nat.mod_eq_of_lt hroom]
    omega
  · rw [Function.update_of_ne hwho]
    omega

end Books

/-- The windows hold what the chunks of a queue owe. -/
def Backed (b : Books n) (q : List (SentChunk n)) : Prop := b.Holds (worth SentChunk.owes q)

def SameOwes (s t : Sender n) : Prop :=
  worth SentChunk.owes t.sentQueue = worth SentChunk.owes s.sentQueue

namespace SameOwes

theorem set {s : Sender n} {a : Asoc n} {i : ℕ} {c c' : SentChunk n}
    (hi : s.sentQueue[i]? = some c) (hc : c'.owes = c.owes) :
    SameOwes s { toAsoc := a, sentQueue := s.sentQueue.set i c' } := by
  obtain ⟨r, h1, h2⟩ := worth_set SentChunk.owes hi c'
  unfold SameOwes
  rw [h1, h2, hc]

theorem recoverFirstProbe (s : Sender n) : SameOwes s (recoverFirstProbe s) := by
  unfold Sctp.recoverFirstProbe
  split
  · exact rfl
  · split
    · exact rfl
    · rename_i c hc
      refine set hc ?_
      unfold windowProbeRecovery
      split <;> exact SentChunk.owes_congr rfl rfl

theorem assureTimers (recovery clearIdle : Bool) (s : Sender n) (recovered : Bool) :
    SameOwes s (assureTimers recovery clearIdle s recovered).toSender := by
  unfold Sctp.assureTimers
  apply List.foldlRecOn (motive := fun t : TimerLoop n => SameOwes s t.toSender)
  · exact rfl
  · intro t ht i _
    have hprobe : SameOwes t.toSender (probeRecovered recovery t.toSender i) := by
      unfold probeRecovered
      split
      · exact recoverFirstProbe t.toSender
      · exact rfl
    refine Eq.trans ?_ ht
    refine Eq.trans ?_ hprobe
    simp only [Sctp.assureTimer]
    split <;> rfl

theorem againLoop (recovery clearIdle : Bool) (s : Sender n) :
    SameOwes s (againLoop recovery clearIdle s) := by
  have hfirst := assureTimers recovery clearIdle s false
  unfold Sctp.againLoop
  dsimp only
  split
  · refine Eq.trans (assureTimers recovery clearIdle _ _) (Eq.trans ?_ hfirst)
    unfold auditFlight
    split <;> rfl
  · exact hfirst

theorem expressTail {recovery : Bool} {cumack : Tsn} {s t : Sender n}
    (h : expressTail recovery cumack s = some t) : SameOwes s t := by
  obtain ⟨u, hu, rfl⟩ := Option.map_eq_some_iff.1 h
  refine Eq.trans ?_ (againLoop recovery true s)
  unfold expressShutdown at hu
  split at hu
  · dsimp only at hu
    split at hu <;> cases hu <;> rfl
  · cases hu
    rfl

theorem narrowProbe (env : RetranEnv n) {s : Sender n} {i : ℕ} {c : SentChunk n}
    (hi : s.sentQueue[i]? = some c) : SameOwes s (narrowProbe env s i c) := by
  unfold Sctp.narrowProbe markProbe
  split
  · split
    · exact set hi rfl
    · exact rfl
  · exact rfl

theorem pickRetran (env : RetranEnv n) (is : List ℕ) (oneChunk : Bool) (s : Sender n) :
    SameOwes s (pickRetran env is oneChunk s).1 := by
  induction is generalizing oneChunk s with
  | nil => exact rfl
  | cons i is ih =>
    unfold Sctp.pickRetran
    split
    · exact rfl
    · rename_i c hc
      split
      · exact ih oneChunk s
      · split
        · exact rfl
        · split
          · exact rfl
          · dsimp only
            split
            · exact Eq.trans (ih _ _) (narrowProbe env hc)
            · exact narrowProbe env hc

end SameOwes

theorem Backed.moveCumAck {b : Books n} {s : Sender n} (h : Backed b s.sentQueue) {cumack : Tsn}
    (hmoved : tsnGt cumack s.lastAckedSeq = true) :
    Backed (expressBooks cumack s b) (uncovered cumack s.sentQueue) := by
  have hwalk := walk_alongside_balanced (f := expressAck cumack) (g := Books.settle)
    (B := Books.Holds) (m := SentChunk.owes)
    (fun c _ a a' ys t r hstep ht => by
      unfold expressAck at hstep
      split at hstep
      · cases hstep
        rw [worth_nil, add_zero]
        exact ht.settle
      · cases hstep)
    { s.toAsoc.resetNets with thisSackHighestGap := cumack } b h
  rw [walk_expressAck] at hwalk
  unfold expressBooks
  rw [if_pos hmoved]
  exact hwalk

theorem expressBooks_of_not_moved {cumack : Tsn} {s : Sender n} (b : Books n)
    (h : tsnGt cumack s.lastAckedSeq = false) : expressBooks cumack s b = b := by
  unfold expressBooks
  rw [h]
  exact if_neg Bool.false_ne_true

theorem expressMove_queue (cumack : Tsn) (ecneSeen : Bool) (s : Sender n) :
    (expressMove cumack ecneSeen s).sentQueue =
      if tsnGt cumack s.lastAckedSeq then uncovered cumack s.sentQueue else s.sentQueue := by
  unfold expressMove
  dsimp only
  have hsync : ∀ u : Sender n, u.syncFlight.sentQueue = u.sentQueue := fun u => by
    unfold Sender.syncFlight
    split <;> rfl
  rw [hsync]
  dsimp only
  split
  · rename_i h
    rw [if_pos (by exact h), walk_expressAck]
  · rename_i h
    rw [if_neg (by exact h)]

theorem Backed.expressHandleSack {cfg : SenderConfig} {cumack : Tsn} {rwnd : ℕ} {ecneSeen : Bool}
    {s t : Sender n} {b : Books n} (h : Backed b s.sentQueue)
    (hstep : expressHandleSack cfg cumack rwnd ecneSeen s = some t) :
    Backed (expressBooks cumack s b) t.sentQueue := by
  unfold Sctp.expressHandleSack at hstep
  split at hstep
  · rename_i hold
    cases hstep
    have hge : tsnGe s.lastAckedSeq cumack = true :=
      (tsnGe_iff _ _).2 ((tsnGt_iff _ _).1 hold).le
    rw [expressBooks_of_not_moved b (by simpa using not_tsnGt_of_tsnGe hge)]
    exact h
  · split at hstep
    · rename_i heq
      have hself : tsnGe s.lastAckedSeq cumack = true := by
        rw [heq, tsnGe_iff]
        simp
      rw [expressBooks_of_not_moved b (by simpa using not_tsnGt_of_tsnGe hself)]
      dsimp only at hstep
      split at hstep
      · unfold Backed
        rw [SameOwes.expressTail hstep]
        exact h
      · cases hstep
        exact h
    · split at hstep
      · cases hstep
      · have hqueue : ((expressMove cumack ecneSeen s.hushed).setRwnd cfg rwnd).sentQueue =
            if tsnGt cumack s.lastAckedSeq then uncovered cumack s.sentQueue else s.sentQueue :=
          expressMove_queue cumack ecneSeen s.hushed
        unfold Backed
        rw [SameOwes.expressTail hstep, hqueue]
        split
        · rename_i hmoved
          exact h.moveCumAck hmoved
        · rename_i hmoved
          rw [expressBooks_of_not_moved b (by simpa using hmoved)]
          exact h

/-- The windows hold what a queue owes, with room for the revocation of all of it. -/
def Roomy (b : Books n) (q : List (SentChunk n)) : Prop := b.Fits (worth SentChunk.stake q)

theorem worth_stake_fst (q : List (SentChunk n)) :
    (worth SentChunk.stake q).1 = worth SentChunk.owes q := by
  induction q with
  | nil => rfl
  | cons c q ih => rw [worth_cons, worth_cons, Prod.fst_add, ih, SentChunk.stake]

theorem Roomy.backed {b : Books n} {q : List (SentChunk n)} (h : Roomy b q) : Backed b q := by
  unfold Backed
  rw [← worth_stake_fst]
  exact h.holds

theorem Roomy.cumAck {b : Books n} {s : Sender n} (h : Roomy b s.sentQueue) (sack : Sack n) :
    Roomy (cumAckBooks sack s b) (cumAckPart sack s).sentQueue := by
  refine walk_alongside_balanced (B := Books.Fits) (fun c _ a a' ys t r hstep ht => ?_) _ b h
  unfold markCumAcked at hstep
  split at hstep
  · split at hstep
    · rename_i hunsent
      cases hstep
      rw [if_pos hunsent, worth_cons, worth_nil, add_zero]
      exact ht
    · rename_i hsent
      cases hstep
      rw [if_neg hsent, worth_cons, worth_nil, add_zero]
      exact ht.settle rfl rfl rfl
  · cases hstep

theorem Roomy.hit {b : Books n} {k : Cursor n} (h : Roomy b k.queue) (nrSacking : Bool)
    (theTsn : Tsn) (i : ℕ) :
    Roomy (hitBooks theTsn k.queue i b) (hitChunk nrSacking theTsn k i).queue := by
  unfold hitBooks hitChunk
  cases hc : k.queue[i]? with
  | none => exact h
  | some c =>
    dsimp only
    by_cases htsn : c.tsn = theTsn
    · rw [if_pos htsn]
      obtain ⟨r, hold, hnew⟩ := worth_set SentChunk.stake hc
        (segmentChunk nrSacking k.toGapAcks c).2
      unfold Roomy at h ⊢
      rw [hold] at h
      rw [hnew]
      unfold segmentChunk
      by_cases hunsent : c.sent = datagramUnsent
      · rw [if_pos hunsent, if_neg (by simp [hunsent])]
        exact h
      · rw [if_neg hunsent, if_pos ⟨htsn, hunsent⟩]
        split
        · exact h.settle rfl rfl rfl
        · exact h.settle rfl rfl rfl
    · rw [if_neg htsn, if_neg (by simp [htsn])]
      exact h

theorem Roomy.segment {b : Books n} {k : Cursor n × Bool} (h : Roomy b k.1.queue) (lastTsn : Tsn)
    (nrSacking : Bool) (j : ℕ) :
    Roomy (segmentBooks lastTsn k j b) (segmentTsn lastTsn nrSacking k j).1.queue := by
  unfold segmentBooks segmentTsn
  dsimp only
  split
  · rename_i hseek
    split
    · exact h
    · rename_i i hi
      rw [hi] at hseek
      cases hseek
  · rename_i i hseek
    split
    · rename_i hi
      rw [hi] at hseek
      cases hseek
    · rename_i j circled hj
      rw [hj] at hseek
      cases hseek
      exact h.hit nrSacking _ i

theorem Roomy.block {b : Books n} {k : Cursor n × ℕ} (h : Roomy b k.1.queue) (lastTsn : Tsn)
    (nrSacking : Bool) (frag : ℕ × ℕ) :
    Roomy (blockBooks lastTsn nrSacking k frag b)
      (handleSegment lastTsn nrSacking k frag).1.queue := by
  unfold blockBooks handleSegment
  split
  · exact h
  · dsimp only
    unfold processSegmentRange
    rw [← foldBeside_fst (segmentTsn lastTsn nrSacking) (segmentBooks lastTsn) ((_, false), b)]
    exact foldBeside_invariant (I := fun (k : Cursor n × Bool) b => Roomy b k.1.queue)
      (fun k b j hk => hk.segment lastTsn nrSacking j) _ _ h

theorem Roomy.segments {b : Books n} {q : List (SentChunk n)} (h : Roomy b q) (lastTsn : Tsn)
    (segs nrSegs : List (ℕ × ℕ)) (g : GapAcks n) :
    Roomy (segmentsBooks lastTsn segs nrSegs g q b) (handleSegments lastTsn segs nrSegs g q).queue := by
  have hblocks : ∀ (nr : Bool) (p : (Cursor n × ℕ) × Books n) (frags : List (ℕ × ℕ)),
      Roomy p.2 p.1.1.queue →
        Roomy (foldBeside (handleSegment lastTsn nr) (blockBooks lastTsn nr) p frags).2
          (frags.foldl (handleSegment lastTsn nr) p.1).1.queue := by
    intro nr p frags hp
    rw [← foldBeside_fst (handleSegment lastTsn nr) (blockBooks lastTsn nr) p]
    exact foldBeside_invariant (I := fun (k : Cursor n × ℕ) b => Roomy b k.1.queue)
      (fun k b frag hk => hk.block lastTsn nr frag) p frags hp
  have hfirst := hblocks false (({ toGapAcks := g, queue := q, tp1 := 0 }, 0), b) segs h
  unfold segmentsBooks handleSegments
  dsimp only
  rw [foldBeside_fst]
  exact hblocks true _ nrSegs hfirst

theorem Roomy.gap {b : Books n} {r : SackRun n} (h : Roomy b r.sentQueue) (sack : Sack n) :
    Roomy (gapBooks sack r b) (gapPart sack r).sentQueue := by
  unfold gapBooks gapPart
  split
  · exact h.segments _ _ _ _
  · exact h

theorem Roomy.drop {b : Books n} {s : Sender n} (h : Roomy b s.sentQueue) (cfg : SenderConfig)
    (sack : Sack n) : Roomy b (dropPart cfg sack s).sentQueue := by
  have hwalk := walk_balanced_of_mem (f := dropCumAcked cfg sack.cumAck) (m := SentChunk.stake)
    (B := fun _ r => b.Fits r)
    (fun c _ a a' ys r hstep hr => by
      unfold dropCumAcked at hstep
      split at hstep
      · cases hstep
      · cases hstep
        rw [worth_nil, add_zero]
        exact hr.mono)
    { s.toAsoc with lastAckedSeq := sack.cumAck } 0 (by rwa [zero_add])
  rw [zero_add] at hwalk
  exact hwalk

/-- What a chunk owes, with what its revocation would add. -/
def SentChunk.revocable (c : SentChunk n) : Multiset (Adjustment n) × (Fin n → ℕ) :=
  (c.owes, if c.sent = datagramAcked ∨ c.sent = datagramMarked then Pi.single c.whoTo c.bookSize
    else 0)

theorem worth_revocable_fst (q : List (SentChunk n)) :
    (worth SentChunk.revocable q).1 = worth SentChunk.owes q := by
  induction q with
  | nil => rfl
  | cons c q ih => rw [worth_cons, worth_cons, Prod.fst_add, ih, SentChunk.revocable]

theorem worth_revocable_snd_le (q : List (SentChunk n)) (i : Fin n) :
    (worth SentChunk.revocable q).2 i ≤ (worth SentChunk.stake q).2 i := by
  induction q with
  | nil => exact le_rfl
  | cons c q ih =>
    have hc : c.revocable.2 i ≤ c.stake.2 i := by
      unfold SentChunk.revocable SentChunk.stake
      dsimp only
      split
      · exact le_rfl
      · exact Nat.zero_le _
    rw [worth_cons, worth_cons, Prod.snd_add, Prod.snd_add, Pi.add_apply, Pi.add_apply]
    exact add_le_add hc ih

theorem revocable_of_acked {c : SentChunk n} (h : c.sent = datagramAcked) :
    c.revocable = c.stake := by
  unfold SentChunk.revocable SentChunk.stake
  rw [if_pos (.inl h)]

theorem Books.Fits.revoke {b : Books n} {c : SentChunk n}
    {a : Multiset (Adjustment n) × (Fin n → ℕ)} (h : b.Fits (a + c.revocable))
    (hacked : c.sent = datagramAcked) :
    (b.inflate c).Fits
      (a + SentChunk.revocable { c with sent := datagramSent, chunkWasRevoked := true }) := by
  rw [revocable_of_acked hacked] at h
  obtain ⟨hholds, hroom⟩ := h.inflate
  constructor
  · exact hholds
  · intro i
    have := hroom i
    simpa [SentChunk.revocable, datagramSent, datagramAcked, datagramMarked] using this

theorem Roomy.revocable {b : Books n} {q : List (SentChunk n)} (h : Roomy b q) :
    b.Fits (worth SentChunk.revocable q) := by
  constructor
  · rw [worth_revocable_fst]
    exact h.backed
  · intro i
    have hroom := h.room i
    have hle := worth_revocable_snd_le q i
    omega

theorem Roomy.revoke {b : Books n} {s : Sender n} (h : Roomy b s.sentQueue) (sack : Sack n)
    (biggest : Tsn) : Backed (revokeBooks sack biggest s b) (revokePart sack biggest s).sentQueue := by
  unfold revokeBooks revokePart Backed
  dsimp only
  split
  · rw [← worth_revocable_fst]
    refine (walk_alongside_balanced (B := Books.Fits) (m := SentChunk.revocable)
      (fun c _ a a' ys t r hstep ht => ?_) s.toAsoc b h.revocable).holds
    unfold checkForRevoked at hstep
    split at hstep
    · cases hstep
    · split at hstep
      · rename_i habove
        split at hstep
        · cases hstep
        · split at hstep
          · rename_i hacked
            cases hstep
            rw [if_pos ⟨habove, hacked⟩, worth_cons, worth_nil, add_zero]
            exact ht.revoke hacked
          · rename_i hnot
            rw [if_neg (fun hand => hnot hand.2)]
            split at hstep
            · rename_i hmarked
              cases hstep
              have hsame : SentChunk.revocable { c with sent := datagramAcked } = c.revocable := by
                unfold SentChunk.revocable
                rw [if_pos (.inl rfl), if_pos (.inr hmarked)]
                rfl
              rw [worth_cons, worth_nil, add_zero, hsame]
              exact ht
            · cases hstep
              rw [worth_cons, worth_nil, add_zero]
              exact ht
      · rename_i hbelow
        cases hstep
        rw [if_neg (fun hand => hbelow hand.1), worth_cons, worth_nil, add_zero]
        exact ht
  · split
    · rw [← worth_revocable_fst]
      refine (walk_alongside_balanced (B := Books.Fits) (m := SentChunk.revocable)
        (fun c _ a a' ys t r hstep ht => ?_) s.toAsoc b h.revocable).holds
      unfold revokeAcked at hstep
      split at hstep
      · rename_i hacked
        cases hstep
        rw [if_pos hacked, worth_cons, worth_nil, add_zero]
        exact ht.revoke hacked
      · rename_i hnot
        cases hstep
        rw [if_neg hnot, worth_cons, worth_nil, add_zero]
        exact ht
    · exact h.backed

def bookedOn (q : List (SentChunk n)) (i : Fin n) : ℕ :=
  worth (fun c => if c.whoTo = i then c.bookSize else 0) q

theorem worth_stake_snd (q : List (SentChunk n)) (i : Fin n) :
    (worth SentChunk.stake q).2 i = bookedOn q i := by
  induction q with
  | nil => rfl
  | cons c q ih =>
    unfold bookedOn at ih ⊢
    rw [worth_cons, worth_cons, Prod.snd_add, Pi.add_apply, ih]
    congr 1
    unfold SentChunk.stake
    dsimp only
    rw [Pi.single_apply]
    simp only [eq_comm]

theorem Backed.roomy {b : Books n} {q : List (SentChunk n)} (h : Backed b q)
    (hroom : ∀ i, b.cwnd i + bookedOn q i < 2 ^ 32) : Roomy b q := by
  constructor
  · rw [worth_stake_fst]
    exact h
  · intro i
    rw [worth_stake_snd]
    exact hroom i

theorem Backed.sackAcks {cfg : SenderConfig} {sack : Sack n} {s t : Sender n} {b : Books n}
    (h : Backed b s.sentQueue) (hroom : ∀ i, b.cwnd i + bookedOn s.sentQueue i < 2 ^ 32)
    (hstep : sackAcks cfg sack s = some t) : Backed (sackBooks cfg sack s b) t.sentQueue := by
  unfold Sctp.sackAcks at hstep
  unfold sackBooks
  split at hstep
  · cases hstep
  · split at hstep
    · rename_i hold
      cases hstep
      rw [if_pos hold]
      exact h
    · rename_i hnew
      rw [if_neg hnew]
      split at hstep
      · rename_i hidle
        cases hstep
        rw [if_pos hidle]
        exact h
      · rename_i hbusy
        rw [if_neg hbusy]
        dsimp only at hstep ⊢
        split at hstep
        · cases hstep
        · cases hstep
          have hroomy : Roomy b s.hushed.sentQueue := h.roomy hroom
          have hparts := (((hroomy.cumAck sack).gap sack).drop cfg sack).revoke sack
            (gapPart sack (cumAckPart sack s.hushed)).biggestTsnAcked
          unfold settlePart Sender.syncFlight
          dsimp only
          split <;> exact hparts

/-- A revoked chunk that is marked for fast retransmission stays with its destination. -/
def StrikesAtHome (cfg : SenderConfig) (e : StrikeEnv n) (c : SentChunk n) : Prop :=
  c.chunkWasRevoked = true → c.noFrAllowed = false → c.sent < datagramResend →
    strikeSent cfg e c = datagramResend → cfg.cmtOnOff = true → e.alternate c.whoTo = c.whoTo

theorem strikeChunk_owes {cfg : SenderConfig} {e : StrikeEnv n} {a a' : Asoc n} {c : SentChunk n}
    {ys : List (SentChunk n)} (hhome : StrikesAtHome cfg e c)
    (h : strikeChunk cfg e a c = some (a', ys)) : worth SentChunk.owes ys = c.owes := by
  have hone : ∀ d : SentChunk n, d.adjustment = c.adjustment →
      d.chunkWasRevoked = c.chunkWasRevoked → worth SentChunk.owes [d] = c.owes := by
    intro d hadj hrev
    rw [worth_cons, worth_nil, add_zero]
    exact SentChunk.owes_congr hadj hrev
  unfold strikeChunk at h
  split_ifs at h with hfr hdone hbeyond hflight hnet hstruck
  · cases h
    exact hone c rfl rfl
  · cases h
    exact hone c rfl rfl
  · cases h
    exact hone c rfl rfl
  · cases h
    by_cases hrev : c.chunkWasRevoked = true
    · refine hone _ ?_ rfl
      have hwho : (if cfg.cmtOnOff then e.alternate c.whoTo else c.whoTo) = c.whoTo := by
        split
        · rename_i hcmt
          exact hhome hrev (by simpa using hfr) (by omega) hstruck hcmt
        · rfl
      unfold SentChunk.adjustment
      rw [hwho]
      rfl
    · have hnot : c.chunkWasRevoked = false := by simpa using hrev
      rw [worth_cons, worth_nil, add_zero, SentChunk.owes_of_not_revoked (c := c) hnot]
      exact SentChunk.owes_of_not_revoked hnot
  · cases h
    exact hone _ rfl rfl

theorem Backed.strike {cfg : SenderConfig} {e : StrikeEnv n} {s : Sender n} {b : Books n}
    (h : Backed b s.sentQueue) (hhome : ∀ c ∈ s.sentQueue, StrikesAtHome cfg e c) (sack : Sack n) :
    Backed b (strikePart cfg sack e s).sentQueue := by
  unfold strikePart
  dsimp only
  split
  · have hwalk := walk_balanced_of_mem (f := strikeChunk cfg e) (m := SentChunk.owes)
      (B := fun _ r => b.Holds r)
      (fun c hc a a' ys r hstep hr => by
        rw [strikeChunk_owes (hhome c hc) hstep]
        exact hr)
      { s.toAsoc with nets := fun i => { s.nets i with netAck := 0 } } 0 (by rwa [zero_add])
    rw [zero_add] at hwalk
    exact hwalk
  · exact h

theorem Backed.sackRest {cfg : SenderConfig} {sack : Sack n} {oldRwnd : ℕ} {e : StrikeEnv n}
    {s t : Sender n} {b : Books n} (h : Backed b s.sentQueue)
    (hhome : ∀ c ∈ s.sentQueue, StrikesAtHome cfg e c)
    (hstep : sackRest cfg sack oldRwnd e s = some t) : Backed b t.sentQueue := by
  have htail : ∀ u : Sender n, u.sentQueue = s.sentQueue →
      Backed b (sackTail cfg sack oldRwnd e u).sentQueue := by
    intro u hu
    have hstrike : Backed b (strikePart cfg sack e u).sentQueue := by
      apply Backed.strike
      · rw [hu]
        exact h
      · rw [hu]
        exact hhome
    unfold sackTail Backed
    dsimp only
    rw [show worth SentChunk.owes (Sctp.againLoop _ false
      ((strikePart cfg sack e u).setRwnd cfg sack.rwnd)).sentQueue = _ from
        SameOwes.againLoop _ false _]
    exact hstrike
  unfold Sctp.sackRest sackShutdown at hstep
  split at hstep
  · dsimp only at hstep
    split at hstep
    · cases hstep
      exact htail _ rfl
    · cases hstep
    · cases hstep
      exact h
  · cases hstep
    exact htail s rfl

theorem foldl_insertSent_owes (cs q : List (SentChunk n))
    (hnew : ∀ c ∈ cs, c.chunkWasRevoked = false) :
    worth SentChunk.owes (cs.foldl insertSent q) = worth SentChunk.owes q := by
  induction cs generalizing q with
  | nil => rfl
  | cons c cs ih =>
    rw [List.foldl_cons, ih _ fun d hd => hnew d (List.mem_cons_of_mem _ hd),
      worth_perm _ (insertSent_perm q c), worth_cons,
      SentChunk.owes_of_not_revoked (hnew c List.mem_cons_self), zero_add]

theorem transmit_owes (cfg : SenderConfig) (net : Fin n) (time : ℕ) (oneChunk : Bool)
    (ds : List (DataItem n)) (sendQueue : Option Tsn) (s : Sender n) :
    SameOwes s (transmit cfg net time oneChunk ds sendQueue s) := by
  unfold transmit cleanUpDatalist SameOwes
  dsimp only
  rw [(foldl_cleanUpChunk cfg net time _ _).2, foldl_insertSent_owes]
  · split <;> rfl
  · intro c hc
    obtain ⟨d, -, rfl⟩ := List.mem_map.1 hc
    rfl

theorem Backed.resend {s : Sender n} {b : Books n} (h : Backed b s.sentQueue) (cfg : SenderConfig)
    (env : RetranEnv n) (i : ℕ) :
    Backed (resendBooks s i b) (resendAt cfg env s i).sentQueue := by
  unfold resendBooks resendAt
  cases hc : s.sentQueue[i]? with
  | none => exact h
  | some c =>
    obtain ⟨r, hold, hnew⟩ := worth_set SentChunk.owes hc (resentChunk env c)
    unfold Backed at h ⊢
    rw [hold] at h
    dsimp only
    rw [hnew, SentChunk.owes_of_not_revoked (c := resentChunk env c) rfl, add_zero]
    exact h.settle

theorem Backed.packet {s : Sender n} {b : Books n} (h : Backed b s.sentQueue) (cfg : SenderConfig)
    (env : RetranEnv n) (i : ℕ) (oneChunk : Bool) :
    Backed (packetBooks cfg env s i oneChunk b) (sendPacket cfg env s i oneChunk).sentQueue := by
  unfold packetBooks sendPacket
  cases hc : s.sentQueue[i]? with
  | none => exact h
  | some c =>
    dsimp only
    cases hd : gatherBundle env s.sentQueue i c oneChunk with
    | none => exact h
    | some d =>
      dsimp only
      split
      · rw [← foldBeside_fst (resendAt cfg env) resendBooks (s, b)]
        exact foldBeside_invariant (I := fun (s : Sender n) b => Backed b s.sentQueue)
          (fun s b i hs => hs.resend cfg env i) (s, b) d.dataList h
      · exact h

theorem Backed.chunkRetransmission {cfg : SenderConfig} {env : RetranEnv n} {s t : Sender n}
    {b : Books n} (h : Backed b s.sentQueue) (hstep : chunkRetransmission cfg env s = some t) :
    Backed (retransmitBooks cfg env s b) t.sentQueue := by
  have hpick : Backed b (pickRetran env (List.range s.sentQueue.length) false s).1.sentQueue := by
    unfold Backed
    rw [show worth SentChunk.owes (Sctp.pickRetran env _ false s).1.sentQueue = _ from
      SameOwes.pickRetran env _ false s]
    exact h
  unfold Sctp.chunkRetransmission at hstep
  unfold retransmitBooks
  split at hstep
  · rename_i hcookie
    cases hstep
    rw [if_pos hcookie]
    exact h
  · rename_i hcookie
    rw [if_neg hcookie]
    dsimp only at hstep ⊢
    split at hstep
    · rename_i hp
      cases hstep
      simpa only [hp] using hpick
    · cases hstep
    · rename_i i oneChunk hp
      cases hstep
      simpa only [hp] using hpick.packet cfg env i oneChunk

/-- A revoked chunk that waits for its retransmission stays with its destination when T3 expires. -/
def MovesSettled (t : T3 n) (c : SentChunk n) : Prop :=
  c.chunkWasRevoked = true → c.whoTo = t.net → t.tooRecent c = false → datagramResend ≤ c.sent →
    c.sent < datagramAcked → t.alt = t.net

theorem t3Mark_settles {cfg : SenderConfig} {t : T3 n} {a a' : T3Run n} {c : SentChunk n}
    {ys : List (SentChunk n)} {b : Books n} {r : Multiset (Adjustment n)} (hmoves : MovesSettled t c)
    (hstep : t3Mark cfg t a c = some (a', ys)) (h : b.Holds (r + c.owes)) :
    (t3Settle t b c).Holds (r + worth SentChunk.owes ys) ∧ ∀ d ∈ ys, MovesSettled t d := by
  have hkeep : ∀ b' : Books n, b'.Holds (r + c.owes) →
      b'.Holds (r + worth SentChunk.owes [c]) ∧ ∀ d ∈ [c], MovesSettled t d := by
    intro b' hb'
    rw [worth_cons, worth_nil, add_zero]
    exact ⟨hb', fun d hd => List.mem_singleton.1 hd ▸ hmoves⟩
  unfold t3Mark at hstep
  unfold t3Settle
  split_ifs at hstep with hold hmark hrecent hresend
  · cases hstep
    rw [if_neg (by simp [hrecent])]
    exact hkeep b h
  · cases hstep
    have hnew : t.tooRecent c = false := by simpa using hrecent
    by_cases hlt : c.sent < datagramResend
    · have hnot : (t3Chunk cfg t a.toAsoc c).chunkWasRevoked = false := by
        simp [t3Chunk, hlt]
      rw [if_pos ⟨hmark.1, hnew, hlt⟩, worth_cons, worth_nil, add_zero,
        SentChunk.owes_of_not_revoked hnot, add_zero]
      refine ⟨h.settle, fun d hd hrev => ?_⟩
      rw [List.mem_singleton.1 hd, hnot] at hrev
      cases hrev
    · have hrev : (t3Chunk cfg t a.toAsoc c).chunkWasRevoked = c.chunkWasRevoked := by
        simp [t3Chunk, hlt]
      have halt : c.chunkWasRevoked = true → t.alt = t.net := fun hc =>
        hmoves hc hmark.1 hnew (not_lt.1 hlt) hmark.2
      have howes : (t3Chunk cfg t a.toAsoc c).owes = c.owes := by
        unfold SentChunk.owes
        rw [hrev]
        split
        · rename_i hc
          have hwho : (t3Chunk cfg t a.toAsoc c).whoTo = c.whoTo := (halt hc).trans hmark.1.symm
          unfold SentChunk.adjustment
          rw [hwho]
          rfl
        · rfl
      rw [if_neg (fun hand => hlt hand.2.2), worth_cons, worth_nil, add_zero, howes]
      refine ⟨h, fun d hd hd' _ _ _ _ => halt ?_⟩
      rwa [List.mem_singleton.1 hd, hrev] at hd'
  · cases hstep
    rw [if_neg (by
      rintro ⟨hwho, -, hlt⟩
      rw [hresend] at hlt
      exact lt_irrefl _ hlt)]
    exact hkeep b h
  · cases hstep
    rw [if_neg (by
      rintro ⟨hwho, -, hlt⟩
      exact hmark ⟨hwho, hlt.trans (by decide)⟩)]
    exact hkeep b h

theorem Backed.markAll {t : T3 n} {b : Books n} {q : List (SentChunk n)} (h : Backed b q)
    (hmoves : ∀ c ∈ q, MovesSettled t c) (cfg : SenderConfig) (a : T3Run n) :
    Backed (walk (alongside (t3Mark cfg t) (t3Settle t)) (a, b) q).1.2 (walk (t3Mark cfg t) a q).2 ∧
      ∀ c ∈ (walk (t3Mark cfg t) a q).2, MovesSettled t c := by
  have hwalk := walk_balanced (f := alongside (t3Mark cfg t) (t3Settle t))
    (B := fun p r => p.2.Holds r) (P := MovesSettled t) (m := SentChunk.owes)
    (fun p c p' ys r hc hstep hp => by
      obtain ⟨u, hu, heq⟩ := Option.map_eq_some_iff.1 hstep
      obtain ⟨rfl, rfl⟩ := Prod.mk.inj heq
      exact t3Mark_settles hc hu hp)
    (a, b) q 0 hmoves (by rwa [zero_add])
  rw [zero_add, (walk_alongside (t3Mark cfg t) (t3Settle t) a b q).2] at hwalk
  exact hwalk

theorem Backed.recover {b : Books n} {q : List (SentChunk n)} {P : SentChunk n → Prop}
    (h : Backed b q) (hP : ∀ c ∈ q, P c) (cfg : SenderConfig) (a : Asoc n) :
    Backed b (walk (recoverSentChunk cfg) a q).2 ∧
      ∀ c ∈ (walk (recoverSentChunk cfg) a q).2, P c := by
  have hwalk := walk_balanced (f := recoverSentChunk cfg) (B := fun _ r => b.Holds r) (P := P)
    (m := SentChunk.owes)
    (fun a c a' ys r hc hstep hr => by
      unfold recoverSentChunk at hstep
      split at hstep
      · cases hstep
        rw [worth_nil, add_zero]
        exact ⟨hr.mono (Multiset.le_add_right _ _), fun d hd => by cases hd⟩
      · cases hstep
        rw [worth_cons, worth_nil, add_zero]
        exact ⟨hr, fun d hd => List.mem_singleton.1 hd ▸ hc⟩)
    a q 0 hP (by rwa [zero_add])
  rw [zero_add] at hwalk
  exact hwalk

theorem Backed.markAllForResend {t : T3 n} {s : Sender n} {b : Books n} (h : Backed b s.sentQueue)
    (hmoves : ∀ c ∈ s.sentQueue, MovesSettled t c) (cfg : SenderConfig) :
    Backed (t3Books cfg t s b) (markAllForResend cfg t s).sentQueue := by
  have hqueue : (Sctp.markAllForResend cfg t s).sentQueue = (t3Loop cfg t s).2 := rfl
  obtain ⟨hfirst, hmoves'⟩ := h.markAll hmoves cfg { toAsoc := s.toAsoc, cntMk := 0 }
  obtain ⟨hstate, hrest⟩ := walk_alongside (t3Mark cfg t) (t3Settle t)
    { toAsoc := s.toAsoc, cntMk := 0 } b s.sentQueue
  rw [hqueue]
  unfold t3Books t3Loop
  dsimp only
  rw [hstate, hrest]
  split
  · obtain ⟨hkept, hmoves''⟩ := hfirst.recover hmoves' cfg
      (walk (t3Mark cfg t) { toAsoc := s.toAsoc, cntMk := 0 } s.sentQueue).1.toAsoc
    exact (hkept.markAll hmoves'' cfg _).1
  · exact hfirst

/-- What the revoked chunks of a queue have added to the window of a destination. -/
def revokedOn (q : List (SentChunk n)) (i : Fin n) : ℕ :=
  worth (fun c => if c.chunkWasRevoked = true ∧ c.whoTo = i then c.bookSize else 0) q

theorem sizeOn_worth_owes (q : List (SentChunk n)) (i : Fin n) :
    sizeOn i (worth SentChunk.owes q) = revokedOn q i := by
  induction q with
  | nil => rfl
  | cons c q ih =>
    unfold revokedOn at ih ⊢
    rw [worth_cons, worth_cons, sizeOn_add, ih]
    congr 1
    unfold SentChunk.owes
    by_cases hrev : c.chunkWasRevoked = true
    · rw [if_pos hrev, sizeOn_adjustment]
      simp [hrev]
    · rw [if_neg hrev]
      simp [hrev, sizeOn]

/-- The congestion control leaves every window as large as what its revoked chunks have added, no
window comes as close to `2 ^ 32` as the chunks that can be revoked, and a chunk marked as revoked
keeps its destination when it is marked for retransmission. -/
def WindowEvent.Regular (cfg : SenderConfig) (s : Windows n) : WindowEvent n → Prop
  | .sackAcks _ => ∀ i, s.books.cwnd i + bookedOn s.sender.sentQueue i < 2 ^ 32
  | .congestion cwnd => ∀ i, revokedOn s.sender.sentQueue i ≤ cwnd i
  | .sackRest _ _ e => ∀ c ∈ s.sender.sentQueue, StrikesAtHome cfg e c
  | .t3 t => ∀ c ∈ s.sender.sentQueue, MovesSettled t c
  | _ => True

instance WindowEvent.Regular.decidable (cfg : SenderConfig) (s : Windows n) :
    ∀ e : WindowEvent n, Decidable (e.Regular cfg s)
  | .transmit _ _ _ _ _ => .isTrue trivial
  | .retransmit _ => .isTrue trivial
  | .expressSack _ _ _ => .isTrue trivial
  | .sackAcks _ =>
    inferInstanceAs (Decidable (∀ i, s.books.cwnd i + bookedOn s.sender.sentQueue i < 2 ^ 32))
  | .congestion cwnd => inferInstanceAs (Decidable (∀ i, revokedOn s.sender.sentQueue i ≤ cwnd i))
  | .sackRest _ _ _ => inferInstanceAs (Decidable (∀ c ∈ _, _ → _ → _ → _ → _ → _))
  | .t3 _ => inferInstanceAs (Decidable (∀ c ∈ _, _ → _ → _ → _ → _ → _))

theorem windowStep_backed {cfg : SenderConfig} {s t : Windows n} {e : WindowEvent n}
    (h : Backed s.books s.sender.sentQueue) (he : e.Regular cfg s)
    (hstep : windowStep cfg s e = some t) : Backed t.books t.sender.sentQueue := by
  cases e with
  | transmit net time oneChunk dataList sendQueue =>
    cases hstep
    unfold Backed
    rw [show worth SentChunk.owes (transmit cfg net time oneChunk dataList sendQueue
      s.sender).sentQueue = _ from transmit_owes cfg net time oneChunk dataList sendQueue s.sender]
    exact h
  | retransmit env =>
    obtain ⟨u, hu, rfl⟩ := Option.map_eq_some_iff.1 hstep
    exact h.chunkRetransmission hu
  | expressSack cumack rwnd ecneSeen =>
    obtain ⟨u, hu, rfl⟩ := Option.map_eq_some_iff.1 hstep
    exact h.expressHandleSack hu
  | sackAcks sack =>
    obtain ⟨u, hu, rfl⟩ := Option.map_eq_some_iff.1 hstep
    exact h.sackAcks he hu
  | congestion cwnd =>
    cases hstep
    refine ⟨h.settled, fun i => ?_⟩
    rw [sizeOn_worth_owes]
    exact he i
  | sackRest sack oldRwnd e =>
    obtain ⟨u, hu, rfl⟩ := Option.map_eq_some_iff.1 hstep
    exact h.sackRest he hu
  | t3 t =>
    cases hstep
    exact h.markAllForResend he cfg

/-- Every inflation is undone at most once and on its own destination, and no window falls below
zero. -/
theorem windowRun_symmetric {cfg : SenderConfig} {s t : Windows n} {es : List (WindowEvent n)}
    (hqueue : s.sender.sentQueue = []) (hlog : s.books.log = [])
    (hok : Trace.Along (windowStep cfg) (fun s e => e.Regular cfg s) s es)
    (hrun : windowRun cfg s es = some t) : Symmetric t.books.log := by
  have hfresh : Backed s.books s.sender.sentQueue := by
    rw [hqueue]
    refine ⟨⟨0, ?_, le_rfl⟩, fun i => ?_⟩
    · rw [hlog]
      rfl
    · exact Nat.zero_le _
  have hbacked : Backed t.books t.sender.sentQueue :=
    Trace.run_invariant (fun u : Windows n => Backed u.books u.sender.sentQueue)
      (fun _ _ _ hu he hstep => windowStep_backed hu he hstep) hfresh hok hrun
  obtain ⟨k, hk, -⟩ := hbacked.settled
  unfold Symmetric
  rw [hk]
  rfl

/-- An association with one destination before its first chunk, with its initial window. -/
def freshWindows : Windows 1 := ⟨freshSender, ⟨fun _ => 4380, []⟩⟩

def gapSack (segs : List (ℕ × ℕ)) : Sack 1 :=
  { cumAck := 0, rwnd := 60000, segs := segs, nrSegs := [], cmtDacFlag := false, ecneSeen := false
    fastRetranLossRecovery := false, alternate := id }

def gapSackEvents (segs : List (ℕ × ℕ)) : List (WindowEvent 1) :=
  [.sackAcks (gapSack segs),
    .sackRest (gapSack segs) 60000
      { biggestTsnAcked := 3, biggestTsnNewlyAcked := 3, thisSackLowestNewack := 2
        accumMoved := false, fastRetranLossRecovery := false, numDestsSacked := 1
        alternate := id }]

local instance cwndSymmetric_neZero : NeZero 1 := ⟨Nat.one_ne_zero⟩

/-- A chunk, then two more just before T3 expires, which are acked, revoked, and acked again behind
the timeout. -/
def revokeRun (minWait : ℕ) : List (WindowEvent 1) :=
  [.transmit 0 0 false [plainItem 1] none, .transmit 0 900000 false [plainItem 2, plainItem 3] none] ++
  gapSackEvents [(2, 3)] ++ gapSackEvents [] ++
  [.t3 { net := 0, alt := 0, windowProbe := false, minWait := minWait },
    .congestion fun _ => 1500] ++
  gapSackEvents [(2, 3)]

/-- All three chunks are old enough for the timer. -/
theorem revokeRun_symmetric :
    ∃ s, windowRun freshConfig freshWindows (revokeRun 950000) = some s ∧
      s.books.log.length = 4 ∧ Symmetric s.books.log := by
  have hrun : (windowRun freshConfig freshWindows (revokeRun 950000)).map
      (fun s => s.books.log.length) = some 4 := by decide +kernel
  obtain ⟨s, hs, hlen⟩ := Option.map_eq_some_iff.1 hrun
  have hok : Trace.Along (windowStep freshConfig) (fun s e => e.Regular freshConfig s) freshWindows
      (revokeRun 950000) := by decide +kernel
  exact ⟨s, hs, hlen, windowRun_symmetric rfl rfl hok hs⟩

/-- The timer leaves the two revoked chunks alone, and the window of one MTU that it sets falls below
zero when they are acked again. -/
theorem revokeRun_wraps :
    ∃ s, windowRun freshConfig freshWindows (revokeRun 700000) = some s ∧
      s.books.log = [.deflate 3 0 1400 100, .deflate 2 0 1400 1500, .inflate 3 0 1400,
        .inflate 2 0 1400] ∧
      s.books.cwnd 0 = 2 ^ 32 - 1300 ∧ ¬ Symmetric s.books.log := by
  have hrun : (windowRun freshConfig freshWindows (revokeRun 700000)).map
      (fun s => (s.books.log, s.books.cwnd 0)) =
      some ([.deflate 3 0 1400 100, .deflate 2 0 1400 1500, .inflate 3 0 1400,
        .inflate 2 0 1400], 2 ^ 32 - 1300) := by decide +kernel
  obtain ⟨s, hs, hv⟩ := Option.map_eq_some_iff.1 hrun
  obtain ⟨hlog, hcwnd⟩ := Prod.mk.inj hv
  refine ⟨s, hs, hlog, hcwnd, ?_⟩
  rw [hlog]
  unfold Symmetric
  decide +kernel

end Sctp
