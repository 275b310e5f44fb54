import Sctp.Sender.TsnOrder

/-! Which chunks on the sent queue the sender takes as received: only those that a SACK named, and no
chunk loses its data before. -/
namespace Sctp
open Ledger

variable {n : ℕ}

theorem sent_lt_acked : datagramSent < datagramAcked := by decide

theorem resend_lt_acked : datagramResend < datagramAcked := by decide

/-- The sender takes the chunk as received, or has no data to send it again. -/
def SentChunk.letGo (c : SentChunk n) : Bool := decide (datagramAcked ≤ c.sent) || !c.hasData

def SentChunk.HeldLike (c' c : SentChunk n) : Prop :=
  c'.tsn = c.tsn ∧ (c'.letGo = true → c.letGo = true)

theorem SentChunk.HeldLike.refl (c : SentChunk n) : c.HeldLike c := ⟨rfl, id⟩

/-- Without data the chunk was let go of, whatever its state is now. -/
theorem SentChunk.HeldLike.of_sent {c c' : SentChunk n} (htsn : c'.tsn = c.tsn)
    (hdata : c'.hasData = c.hasData) (hsent : datagramAcked ≤ c'.sent → datagramAcked ≤ c.sent) :
    c'.HeldLike c := by
  refine ⟨htsn, fun h => ?_⟩
  unfold letGo at h ⊢
  rw [hdata] at h
  rw [Bool.or_eq_true, decide_eq_true_iff] at h ⊢
  exact h.imp hsent id

/-- The chunk is to be sent again, or is in flight. -/
theorem SentChunk.HeldLike.of_lt {c c' : SentChunk n} (htsn : c'.tsn = c.tsn)
    (hdata : c'.hasData = c.hasData) (hsent : c'.sent < datagramAcked) : c'.HeldLike c :=
  .of_sent htsn hdata fun h => absurd h (not_le.2 hsent)

/-- Every chunk of the second queue comes from the first one, and none was let go of on the way. -/
def Held (q q' : List (SentChunk n)) : Prop := ∀ c' ∈ q', ∃ c ∈ q, c'.HeldLike c

namespace Held

variable {q q' q'' : List (SentChunk n)}

theorem refl (q : List (SentChunk n)) : Held q q := fun c hc => ⟨c, hc, .refl c⟩

theorem trans (h : Held q q') (h' : Held q' q'') : Held q q'' := by
  intro c'' hc''
  obtain ⟨c', hc', htsn', hgo'⟩ := h' c'' hc''
  obtain ⟨c, hc, htsn, hgo⟩ := h c' hc'
  exact ⟨c, hc, htsn'.trans htsn, fun h => hgo (hgo' h)⟩

theorem sublist (h : q'.Sublist q) : Held q q' := fun c hc => ⟨c, h.subset hc, .refl c⟩

theorem set {i : ℕ} {c c' : SentChunk n} (hi : q[i]? = some c) (hc : c'.HeldLike c) :
    Held q (q.set i c') := by
  intro d hd
  obtain hd | rfl := List.mem_or_eq_of_mem_set hd
  · exact ⟨d, hd, .refl d⟩
  · exact ⟨c, List.mem_of_getElem? hi, hc⟩

/-- A walk that lets go of nothing. -/
theorem walk {σ : Type*} {f : σ → SentChunk n → Option (σ × List (SentChunk n))}
    (hf : ∀ s c s' ys, f s c = some (s', ys) → ∀ y ∈ ys, y.HeldLike c) (s : σ)
    (q : List (SentChunk n)) : Held q (Ledger.walk f s q).2 := by
  induction q generalizing s with
  | nil => exact refl []
  | cons c q ih =>
    cases hc : f s c with
    | none =>
      rw [walk_cons_none hc]
      exact refl _
    | some p =>
      rw [walk_cons_some hc]
      intro d hd
      obtain hd | hd := List.mem_append.1 hd
      · exact ⟨c, List.mem_cons_self, hf s c _ _ hc d hd⟩
      · obtain ⟨e, he, hlike⟩ := ih p.1 d hd
        exact ⟨e, List.mem_cons_of_mem c he, hlike⟩

end Held

namespace Held

theorem recoverFirstProbe (s : Sender n) : Held s.sentQueue (recoverFirstProbe s).sentQueue := by
  unfold Sctp.recoverFirstProbe
  split
  · exact refl _
  · split
    · exact refl _
    · rename_i c hc
      apply set hc
      unfold windowProbeRecovery
      split
      · exact .of_sent rfl rfl id
      · exact .of_lt rfl rfl resend_lt_acked

theorem assureTimer (recovery clearIdle : Bool) (t : TimerLoop n) (i : Fin n) :
    Held t.sentQueue (assureTimer recovery clearIdle t i).sentQueue := by
  have hprobe : Held t.sentQueue (probeRecovered recovery t.toSender i).sentQueue := by
    unfold probeRecovered
    split
    · exact recoverFirstProbe t.toSender
    · exact refl _
  refine hprobe.trans ?_
  simp only [Sctp.assureTimer]
  split <;> exact refl _

theorem assureTimers (recovery clearIdle : Bool) (s : Sender n) (recovered : Bool) :
    Held s.sentQueue (assureTimers recovery clearIdle s recovered).sentQueue := by
  unfold Sctp.assureTimers
  apply List.foldlRecOn (motive := fun t : TimerLoop n => Held s.sentQueue t.sentQueue)
  · exact refl _
  · intro t ht i _
    exact ht.trans (assureTimer recovery clearIdle t i)

theorem againLoop (recovery clearIdle : Bool) (s : Sender n) :
    Held s.sentQueue (againLoop recovery clearIdle s).sentQueue := by
  have hfirst := assureTimers recovery clearIdle s false
  unfold Sctp.againLoop
  dsimp only
  split
  · refine hfirst.trans ?_
    have haudit : (auditFlight (Sctp.assureTimers recovery clearIdle s false).toSender).sentQueue =
        (Sctp.assureTimers recovery clearIdle s false).sentQueue := by
      unfold auditFlight
      split <;> rfl
    have hagain := assureTimers recovery clearIdle
      (auditFlight (Sctp.assureTimers recovery clearIdle s false).toSender)
      (Sctp.assureTimers recovery clearIdle s false).winProbeRecovered
    rwa [haudit] at hagain
  · exact hfirst

theorem expressShutdown_queue {s t : Sender n} (h : expressShutdown s = some t) :
    t.sentQueue = s.sentQueue := by
  unfold expressShutdown at h
  split at h
  · dsimp only at h
    split at h <;> cases h <;> rfl
  · cases h
    rfl

theorem expressTail {recovery : Bool} {cumack : Tsn} {s t : Sender n}
    (h : expressTail recovery cumack s = some t) : Held s.sentQueue t.sentQueue := by
  obtain ⟨u, hu, rfl⟩ := Option.map_eq_some_iff.1 h
  have hloop := againLoop recovery true s
  rwa [← expressShutdown_queue hu] at hloop

theorem markAllForResend (cfg : SenderConfig) (t : T3 n) (s : Sender n) :
    Held s.sentQueue (markAllForResend cfg t s).sentQueue := by
  have hmark : ∀ (a : T3Run n) c a' ys, t3Mark cfg t a c = some (a', ys) →
      ∀ y ∈ ys, y.HeldLike c := by
    intro a c a' ys h y hy
    have hresend : (t3Chunk cfg t a.toAsoc c).HeldLike c := .of_lt rfl rfl resend_lt_acked
    unfold t3Mark at h
    split_ifs at h <;> cases h <;> rw [List.mem_singleton.1 hy]
    · exact .refl c
    · exact hresend
    · exact .refl c
    · exact .refl c
  have hrecover : ∀ (a : Asoc n) c a' ys, recoverSentChunk cfg a c = some (a', ys) →
      ∀ y ∈ ys, y.HeldLike c := by
    intro a c a' ys h y hy
    unfold recoverSentChunk at h
    split at h
    · cases h
      cases hy
    · cases h
      rw [List.mem_singleton.1 hy]
      exact .refl c
  unfold Sctp.markAllForResend t3Loop
  dsimp only
  split
  · exact ((walk hmark _ _).trans (walk hrecover _ _)).trans (walk hmark _ _)
  · exact walk hmark _ _

theorem narrowProbe (env : RetranEnv n) {s : Sender n} {i : ℕ} {c : SentChunk n}
    (hi : s.sentQueue[i]? = some c) : Held s.sentQueue (narrowProbe env s i c).sentQueue := by
  unfold Sctp.narrowProbe markProbe
  split
  · split
    · exact set hi (.of_sent rfl rfl id)
    · exact refl _
  · exact refl _

theorem pickRetran (env : RetranEnv n) (is : List ℕ) (oneChunk : Bool) (s : Sender n) :
    Held s.sentQueue (pickRetran env is oneChunk s).1.sentQueue := by
  induction is generalizing oneChunk s with
  | nil => exact refl _
  | cons i is ih =>
    unfold Sctp.pickRetran
    split
    · exact refl _
    · rename_i c hc
      split
      · exact ih oneChunk s
      · split
        · exact refl _
        · split
          · exact refl _
          · dsimp only
            split
            · exact (narrowProbe env hc).trans (ih _ _)
            · exact narrowProbe env hc

theorem resendAt (cfg : SenderConfig) (env : RetranEnv n) (s : Sender n) (i : ℕ) :
    Held s.sentQueue (resendAt cfg env s i).sentQueue := by
  unfold Sctp.resendAt
  split
  · exact refl _
  · rename_i c hc
    exact set hc (.of_lt rfl rfl sent_lt_acked)

theorem chunkRetransmission {cfg : SenderConfig} {env : RetranEnv n} {s t : Sender n}
    (h : chunkRetransmission cfg env s = some t) : Held s.sentQueue t.sentQueue := by
  have hresend : ∀ (is : List ℕ) (u : Sender n),
      Held u.sentQueue (is.foldl (Sctp.resendAt cfg env) u).sentQueue := by
    intro is
    induction is with
    | nil => exact fun u => refl _
    | cons i is ih => exact fun u => (resendAt cfg env u i).trans (ih _)
  unfold Sctp.chunkRetransmission at h
  split at h
  · cases h
    exact refl _
  · dsimp only at h
    have hpick := pickRetran env (List.range s.sentQueue.length) false s
    split at h
    · cases h
      exact hpick
    · cases h
    · cases h
      refine hpick.trans ?_
      unfold sendPacket
      split
      · exact refl _
      · split
        · exact refl _
        · split
          · exact hresend _ _
          · exact refl _

end Held

/-- What the sender takes as received, and what is named `N` besides, is `P`. -/
def Vouched (P N : Tsn → Prop) (q : List (SentChunk n)) : Prop :=
  ∀ c ∈ q, c.letGo = true ∨ N c.tsn → P c.tsn

namespace Vouched

variable {P N : Tsn → Prop} {q q' : List (SentChunk n)}

theorem held (h : Vouched P N q) (hq : Held q q') : Vouched P N q' := by
  intro c' hc' hgo
  obtain ⟨c, hc, htsn, hlike⟩ := hq c' hc'
  rw [htsn] at hgo ⊢
  exact h c hc (hgo.imp hlike id)

/-- A named chunk may be let go of. -/
theorem set {i : ℕ} {c c' : SentChunk n} (h : Vouched P N q) (hi : q[i]? = some c)
    (htsn : c'.tsn = c.tsn) (hnamed : N c.tsn) : Vouched P N (q.set i c') := by
  intro d hd hgo
  obtain hd | rfl := List.mem_or_eq_of_mem_set hd
  · exact h d hd hgo
  · rw [htsn]
    exact h c (List.mem_of_getElem? hi) (.inr hnamed)

/-- A walk that lets go of named chunks only. -/
theorem walk {σ : Type*} {f : σ → SentChunk n → Option (σ × List (SentChunk n))}
    (hf : ∀ s c s' ys, f s c = some (s', ys) → ∀ y ∈ ys, y.HeldLike c ∨ y.tsn = c.tsn ∧ N c.tsn)
    (s : σ) (h : Vouched P N q) : Vouched P N (Ledger.walk f s q).2 := by
  induction q generalizing s with
  | nil => exact h
  | cons c q ih =>
    cases hc : f s c with
    | none =>
      rw [walk_cons_none hc]
      exact h
    | some p =>
      rw [walk_cons_some hc]
      intro d hd hgo
      obtain hd | hd := List.mem_append.1 hd
      · have hc' := h c List.mem_cons_self
        obtain ⟨htsn, hlike⟩ | ⟨htsn, hnamed⟩ := hf s c _ _ hc d hd
        · rw [htsn] at hgo ⊢
          exact hc' (hgo.imp hlike id)
        · rw [htsn]
          exact hc' (.inr hnamed)
      · exact ih p.1 (fun e he => h e (List.mem_cons_of_mem c he)) d hd hgo

end Vouched

/-- `sctp_express_handle_sack` drops chunks and lets go of none. -/
theorem expressHandleSack_held {cfg : SenderConfig} {cumack : Tsn} {rwnd : ℕ} {ecneSeen : Bool}
    {s t : Sender n} (h : expressHandleSack cfg cumack rwnd ecneSeen s = some t) :
    Held s.sentQueue t.sentQueue := by
  have hmove : Held s.sentQueue (expressMove cumack ecneSeen s.hushed).sentQueue := by
    unfold expressMove Sender.syncFlight
    dsimp only
    have hwalk : Held s.sentQueue (walk (expressAck cumack)
        { s.hushed.toAsoc.resetNets with thisSackHighestGap := cumack } s.sentQueue).2 := by
      rw [walk_expressAck]
      exact Held.sublist (List.dropWhile_sublist _)
    split
    · split <;> exact hwalk
    · split <;> exact Held.refl _
  unfold expressHandleSack at h
  split at h
  · cases h
    exact Held.refl _
  · split at h
    · dsimp only at h
      split at h
      · have htail := Held.expressTail h
        exact htail
      · cases h
        exact Held.refl _
    · split at h
      · cases h
      · have htail := Held.expressTail h
        exact hmove.trans htail

section Sack

variable {P : Tsn → Prop}

def Sack.Blocks (sack : Sack n) (t : Tsn) : Prop :=
  ∃ b ∈ sack.segs ++ sack.nrSegs, ∃ j, b.1 ≤ j ∧ j ≤ b.2 ∧ t = BitVec.ofNat 32 j + sack.cumAck

def Sack.Names (sack : Sack n) (t : Tsn) : Prop := tsnGe sack.cumAck t = true ∨ sack.Blocks t

theorem Vouched.cumAckPart {sack : Sack n} {s : Sender n} (h : Vouched P sack.Names s.sentQueue) :
    Vouched P sack.Names (cumAckPart sack s).sentQueue := by
  unfold Sctp.cumAckPart
  refine Vouched.walk (fun a c a' ys ha y hy => ?_) _ h
  unfold markCumAcked at ha
  split at ha
  · rename_i hge
    split at ha <;> cases ha <;> rw [List.mem_singleton.1 hy]
    · exact .inl (.refl c)
    · exact .inr ⟨rfl, .inl hge⟩
  · cases ha

theorem segmentChunk_tsn (nrSacking : Bool) (g : GapAcks n) (c : SentChunk n) :
    (segmentChunk nrSacking g c).2.tsn = c.tsn := by
  unfold segmentChunk
  split
  · rfl
  · split <;> rfl

theorem Vouched.segmentTsn {N : Tsn → Prop} {lastTsn : Tsn} {nrSacking : Bool} {k : Cursor n × Bool}
    {j : ℕ} (hnamed : N (BitVec.ofNat 32 j + lastTsn)) (h : Vouched P N k.1.queue) :
    Vouched P N (segmentTsn lastTsn nrSacking k j).1.queue := by
  unfold Sctp.segmentTsn
  dsimp only
  split
  · exact h
  · unfold hitChunk
    split
    · exact h
    · rename_i c hc
      split
      · rename_i htsn
        refine h.set hc (segmentChunk_tsn _ _ c) ?_
        rw [htsn]
        exact hnamed
      · exact h

theorem Vouched.handleSegments {sack : Sack n} {g : GapAcks n} {q : List (SentChunk n)}
    (h : Vouched P sack.Names q) :
    Vouched P sack.Names (handleSegments sack.cumAck sack.segs sack.nrSegs g q).queue := by
  have hrange : ∀ (nrSacking : Bool) (b : ℕ × ℕ), b ∈ sack.segs ++ sack.nrSegs →
      ∀ k : Cursor n × ℕ, Vouched P sack.Names k.1.queue →
        Vouched P sack.Names (handleSegment sack.cumAck nrSacking k b).1.queue := by
    intro nrSacking b hb k hk
    unfold handleSegment
    split
    · exact hk
    · dsimp only
      unfold processSegmentRange
      apply List.foldlRecOn (motive := fun k : Cursor n × Bool => Vouched P sack.Names k.1.queue)
      · exact hk
      · intro k' hk' j hj
        rw [List.mem_range'_1] at hj
        exact hk'.segmentTsn (.inr ⟨b, hb, j, by omega, by omega, rfl⟩)
  have hfold : ∀ (nrSacking : Bool) (bs : List (ℕ × ℕ)), bs ⊆ sack.segs ++ sack.nrSegs →
      ∀ k : Cursor n × ℕ, Vouched P sack.Names k.1.queue →
        Vouched P sack.Names (bs.foldl (handleSegment sack.cumAck nrSacking) k).1.queue := by
    intro nrSacking bs hbs k hk
    apply List.foldlRecOn (motive := fun k : Cursor n × ℕ => Vouched P sack.Names k.1.queue)
    · exact hk
    · exact fun k' hk' b hb => hrange nrSacking b (hbs hb) k' hk'
  have hsegs := hfold false sack.segs (List.subset_append_left _ _)
    ({ toGapAcks := g, queue := q, tp1 := 0 }, 0) h
  exact hfold true sack.nrSegs (List.subset_append_right _ _)
    ({ (sack.segs.foldl (handleSegment sack.cumAck false)
        ({ toGapAcks := g, queue := q, tp1 := 0 }, 0)).1 with tp1 := 0 }, 0) hsegs

theorem Vouched.gapPart {sack : Sack n} {r : SackRun n} (h : Vouched P sack.Names r.sentQueue) :
    Vouched P sack.Names (gapPart sack r).sentQueue := by
  unfold Sctp.gapPart
  split
  · exact Vouched.handleSegments h
  · exact h

theorem Held.dropPart (cfg : SenderConfig) (sack : Sack n) (s : Sender n) :
    Held s.sentQueue (dropPart cfg sack s).sentQueue := by
  unfold Sctp.dropPart
  dsimp only
  rw [(walk_dropCumAcked_passed cfg sack.cumAck _ s.sentQueue).2]
  exact Held.sublist (List.dropWhile_sublist _)

theorem Held.revokePart (sack : Sack n) (biggest : Tsn) (s : Sender n) :
    Held s.sentQueue (revokePart sack biggest s).sentQueue := by
  have hcheck : ∀ (a : Asoc n) c a' ys, checkForRevoked sack.cumAck biggest a c = some (a', ys) →
      ∀ y ∈ ys, y.HeldLike c := by
    intro a c a' ys h y hy
    unfold checkForRevoked revoke at h
    split_ifs at h with hunsent hgt hbig hacked hmarked <;> cases h <;> rw [List.mem_singleton.1 hy]
    · exact .of_lt rfl rfl sent_lt_acked
    · refine .of_sent rfl rfl fun _ => ?_
      rw [hmarked]
      decide
    · exact .refl c
    · exact .refl c
  have hrevoke : ∀ (a : Asoc n) c a' ys, revokeAcked a c = some (a', ys) →
      ∀ y ∈ ys, y.HeldLike c := by
    intro a c a' ys h y hy
    unfold revokeAcked revoke at h
    split_ifs at h <;> cases h <;> rw [List.mem_singleton.1 hy]
    · exact .of_lt rfl rfl sent_lt_acked
    · exact .refl c
  unfold Sctp.revokePart
  dsimp only
  split
  · exact Held.walk hcheck _ _
  · split
    · exact Held.walk hrevoke _ _
    · exact Held.refl _

theorem Held.strikePart (cfg : SenderConfig) (sack : Sack n) (e : StrikeEnv n) (s : Sender n) :
    Held s.sentQueue (strikePart cfg sack e s).sentQueue := by
  have hstrike : ∀ (a : Asoc n) c a' ys, strikeChunk cfg e a c = some (a', ys) →
      ∀ y ∈ ys, y.HeldLike c := by
    intro a c a' ys h y hy
    unfold strikeChunk fastRetransmit at h
    split_ifs at h with hno hstop hgap hresend hnew hstruck <;> cases h <;>
      rw [List.mem_singleton.1 hy]
    · exact .refl c
    · exact .refl c
    · exact .refl c
    · exact .of_lt rfl rfl resend_lt_acked
    · exact .of_lt rfl rfl resend_lt_acked
    · refine .of_lt rfl rfl ?_
      exact lt_of_le_of_lt (strikeSent_le cfg e (not_le.1 hresend)).2 resend_lt_acked
  unfold Sctp.strikePart
  dsimp only
  split
  · exact Held.walk hstrike _ _
  · exact Held.refl _

theorem Held.sackTail (cfg : SenderConfig) (sack : Sack n) (oldRwnd : ℕ) (e : StrikeEnv n)
    (s : Sender n) : Held s.sentQueue (sackTail cfg sack oldRwnd e s).sentQueue :=
  (Held.strikePart cfg sack e s).trans (Held.againLoop _ false _)

theorem Held.settlePart (cfg : SenderConfig) (sack : Sack n) (r : SackRun n) :
    Held r.sentQueue (settlePart cfg sack r).sentQueue := by
  have hrevoke := (Held.dropPart cfg sack r.toSender).trans
    (Held.revokePart sack r.biggestTsnAcked (Sctp.dropPart cfg sack r.toSender))
  unfold Sctp.settlePart Sender.syncFlight
  dsimp only
  split <;> exact hrevoke

theorem Held.sackShutdown {cfg : SenderConfig} {rwnd : ℕ} {s t : Sender n}
    {rest : Sender n → Sender n} (hrest : ∀ u, Held u.sentQueue (rest u).sentQueue)
    (h : sackShutdown cfg rwnd s rest = some t) : Held s.sentQueue t.sentQueue := by
  unfold Sctp.sackShutdown at h
  split at h
  · dsimp only at h
    split at h <;> cases h
    · exact hrest _
    · exact Held.refl _
  · cases h
    exact hrest s

/-- Only chunks that the SACK has are let go of in `sctp_handle_sack`. -/
theorem Vouched.handleSack {cfg : SenderConfig} {sack : Sack n} {s t : Sender n}
    (h : Vouched P sack.Names s.sentQueue) (ht : handleSack cfg sack s = some t) :
    Vouched P sack.Names t.sentQueue := by
  unfold Sctp.handleSack at ht
  split at ht
  · cases ht
  · split at ht
    · cases ht
      exact h
    · split at ht
      · cases ht
        exact h
      · dsimp only at ht
        split at ht
        · cases ht
        · have hacked : Vouched P sack.Names (Sctp.gapPart sack (Sctp.cumAckPart sack s.hushed)).sentQueue :=
            Vouched.gapPart (Vouched.cumAckPart h)
          exact (hacked.held (Held.settlePart cfg sack _)).held
            (Held.sackShutdown (fun u => Held.sackTail cfg sack _ _ u) ht)

end Sack

theorem mem_foldl_insertSent {cs q : List (SentChunk n)} {c : SentChunk n} :
    c ∈ cs.foldl insertSent q ↔ c ∈ cs ∨ c ∈ q := by
  induction cs generalizing q with
  | nil => simp
  | cons d cs ih =>
    rw [List.foldl_cons, ih, (insertSent_perm q d).mem_iff, List.mem_cons, List.mem_cons]
    tauto

/-- New chunks have their data. -/
theorem transmit_letGo (cfg : SenderConfig) (net : Fin n) (time : ℕ) (oneChunk : Bool)
    (ds : List (DataItem n)) (sendQueue : Option Tsn) (s : Sender n)
    (hds : ∀ d ∈ ds, d.chunk.hasData = true) {c : SentChunk n}
    (hc : c ∈ (transmit cfg net time oneChunk ds sendQueue s).sentQueue) :
    c.letGo = false ∨ c ∈ s.sentQueue := by
  have hdata : ∀ d ∈ fillBundle oneChunk s ds, d.chunk.hasData = true := by
    cases ds with
    | nil => exact fun d hd => absurd hd List.not_mem_nil
    | cons d ds =>
      intro e he
      obtain rfl | he := List.mem_cons.1 he
      · exact hds d List.mem_cons_self
      · obtain ⟨f, hf, rfl⟩ := List.mem_map.1 he
        exact hds f (List.mem_cons_of_mem d hf)
  unfold transmit cleanUpDatalist at hc
  dsimp only at hc
  rw [(foldl_cleanUpChunk cfg net time _ _).2, mem_foldl_insertSent] at hc
  obtain hc | hc := hc
  · obtain ⟨d, hd, rfl⟩ := List.mem_map.1 hc
    left
    unfold SentChunk.letGo
    rw [show (d.sentChunk net time).hasData = true from hdata d hd]
    rfl
  · right
    split at hc <;> exact hc

end Sctp
