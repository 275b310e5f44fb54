import Sctp.Ecn.Loop

/-! The ECN echo loop is exact along careful runs. -/
namespace Sctp

variable {n : ℕ} {κ : Type}

namespace EcnHistory

def assignedCount (log : List (EcnRecord n)) : ℕ :=
  log.countP fun r => match r with
    | .assigned _ => true
    | .reduced _ _ => false

@[simp] theorem assignedCount_assigned (t : Tsn) (log : List (EcnRecord n)) :
    assignedCount (.assigned t :: log) = assignedCount log + 1 := List.countP_cons_of_pos rfl

@[simp] theorem assignedCount_reduced (i : Fin n) (t : Tsn) (log : List (EcnRecord n)) :
    assignedCount (.reduced i t :: log) = assignedCount log := List.countP_cons_of_neg Bool.false_ne_true

theorem assignedCount_append (l r : List (EcnRecord n)) :
    assignedCount (l ++ r) = assignedCount l + assignedCount r := List.countP_append

/-- TSNs are assigned one after the other. -/
def Numbered (base : Tsn) : List (EcnRecord n) → Prop
  | [] => True
  | .assigned t :: log => t = Serial.advance base (assignedCount log + 1) ∧ Numbered base log
  | .reduced _ _ :: log => Numbered base log

/-- What was assigned behind a point of time. -/
theorem Numbered.mem {base : Tsn} {before : List (EcnRecord n)} {k : ℕ}
    (hlow : assignedCount before < k) :
    ∀ {between : List (EcnRecord n)}, Numbered base (between ++ before) →
      k ≤ assignedCount (between ++ before) → .assigned (Serial.advance base k) ∈ between
  | [], _, hhigh => by
    rw [List.nil_append] at hhigh
    omega
  | .assigned t :: between, hnum, hhigh => by
    obtain ⟨ht, hrest⟩ := hnum
    rw [List.cons_append, assignedCount_assigned] at hhigh
    rcases Nat.lt_or_eq_of_le hhigh with hlt | rfl
    · exact List.mem_cons_of_mem _ (hrest.mem hlow (Nat.le_of_lt_succ hlt))
    · rw [ht]
      exact List.mem_cons_self
  | .reduced i t :: between, hnum, hhigh => by
    have hrest : Numbered base (between ++ before) := hnum
    rw [List.cons_append, assignedCount_reduced] at hhigh
    exact List.mem_cons_of_mem _ (hrest.mem hlow hhigh)

theorem onceAWindow_assigned {log : List (EcnRecord n)} (h : OnceAWindow log) (t : Tsn) :
    OnceAWindow (.assigned t :: log) := by
  intro later between before net t₁ t₂ heq
  cases later with
  | nil => cases (List.cons.inj heq).1
  | cons r later => exact h later between before net t₁ t₂ (List.cons.inj heq).2

/-- A reduction whose TSN was assigned since the last one of its destination. -/
theorem onceAWindow_reduced {log : List (EcnRecord n)} (h : OnceAWindow log) {i : Fin n} {t : Tsn}
    (hnew : ∀ between before t₁, log = between ++ .reduced i t₁ :: before → .assigned t ∈ between) :
    OnceAWindow (.reduced i t :: log) := by
  intro later between before net t₁ t₂ heq
  cases later with
  | nil =>
    obtain ⟨hhead, htail⟩ := List.cons.inj heq
    obtain ⟨rfl, rfl⟩ := EcnRecord.reduced.inj hhead
    exact hnew between before t₁ htail
  | cons r later => exact h later between before net t₁ t₂ (List.cons.inj heq).2

/-- Where the window of CWR of each destination stands among the TSNs that were assigned: behind those that
had been assigned at each of its full reductions. -/
structure Follows (base : Tsn) (acked : ℕ) (last next : Tsn) (window : Fin n → Tsn)
    (log : List (EcnRecord n)) : Prop where
  ackedAt : last = Serial.advance base acked
  counted : acked + (next - last).toNat = assignedCount log + 1
  inside : ∀ i, (window i - last).toNat < (next - last).toNat
  reduced : ∀ i between before t, log = between ++ .reduced i t :: before →
    assignedCount before ≤ acked + (window i - last).toNat

namespace Follows

variable {base last next : Tsn} {acked : ℕ} {window window' : Fin n → Tsn} {log : List (EcnRecord n)}

/-- The windows move on inside. -/
theorem forward (h : Follows base acked last next window log)
    (hin : ∀ i, (window' i - last).toNat < (next - last).toNat)
    (hle : ∀ i, (window i - last).toNat ≤ (window' i - last).toNat) :
    Follows base acked last next window' log := by
  refine ⟨h.ackedAt, h.counted, hin, fun i between before t heq => ?_⟩
  have hold := h.reduced i between before t heq
  have hmore := hle i
  omega

/-- The cumulative ack moves on to where no window is behind it. -/
theorem ack (h : Follows base acked last next window log) {cum : Tsn}
    (hcum : (cum - last).toNat < (next - last).toNat)
    (hle : ∀ i, (cum - last).toNat ≤ (window i - last).toNat) :
    Follows base (acked + (cum - last).toNat) cum next window log := by
  have hnext := sub_toNat_of_le hcum.le
  have hwin : ∀ i, (window i - cum).toNat = (window i - last).toNat - (cum - last).toNat :=
    fun i => sub_toNat_of_le (hle i)
  refine ⟨?_, ?_, fun i => ?_, fun i between before t heq => ?_⟩
  · rw [← Serial.advance_add, ← h.ackedAt, Serial.advance_toNat_sub]
  · have hold := h.counted
    omega
  · have hold := h.inside i
    rw [hwin i, hnext]
    have hi := hle i
    omega
  · have hold := h.reduced i between before t heq
    rw [hwin i]
    have hi := hle i
    omega

theorem assign (h : Follows base acked last next window log) (hroom : (next - last).toNat < 2 ^ 31) :
    Follows base acked last (next + 1) window (.assigned next :: log) := by
  have hnext : (next + 1 - last).toNat = (next - last).toNat + 1 := by bv_omega
  refine ⟨h.ackedAt, ?_, fun i => ?_, fun i between before t heq => ?_⟩
  · rw [hnext, assignedCount_assigned]
    have hold := h.counted
    omega
  · rw [hnext]
    exact (h.inside i).trans (Nat.lt_succ_self _)
  · cases between with
    | nil => cases (List.cons.inj heq).1
    | cons r between => exact h.reduced i between before t (List.cons.inj heq).2

theorem numbered (h : Follows base acked last next window log) (hnum : Numbered base log) :
    Numbered base (.assigned next :: log) := by
  refine ⟨?_, hnum⟩
  rw [← h.counted, ← Serial.advance_add, ← h.ackedAt, Serial.advance_toNat_sub]

/-- A TSN behind the window was assigned since the last full reduction. -/
theorem assigned_since (h : Follows base acked last next window log) (hnum : Numbered base log)
    {i : Fin n} {t : Tsn} (hlow : (window i - last).toNat < (t - last).toNat)
    (hhigh : (t - last).toNat < (next - last).toNat) {between before : List (EcnRecord n)} {t₁ : Tsn}
    (heq : log = between ++ .reduced i t₁ :: before) : .assigned t ∈ between := by
  have hbefore := h.reduced i between before t₁ heq
  have hnext := h.counted
  have ht : t = Serial.advance base (acked + (t - last).toNat) := by
    rw [← Serial.advance_add, ← h.ackedAt, Serial.advance_toNat_sub]
  have hlater : assignedCount (.reduced i t₁ :: before) < acked + (t - last).toNat := by
    rw [assignedCount_reduced]
    omega
  rw [heq] at hnum hnext
  rw [ht]
  exact Numbered.mem hlater hnum (by omega)

/-- The window moves behind all that was assigned. -/
theorem reduce (h : Follows base acked last next window log) (hahead : 0 < (next - last).toNat)
    {i : Fin n} (t : Tsn) (hi : window' i + 1 = next) (hother : ∀ j, j ≠ i → window' j = window j) :
    Follows base acked last next window' (.reduced i t :: log) := by
  have hwin : (window' i - last).toNat + 1 = (next - last).toNat := by
    rw [← hi] at hahead ⊢
    bv_omega
  have hnext := h.counted
  refine ⟨h.ackedAt, by rw [assignedCount_reduced]; exact hnext, fun j => ?_,
    fun j between before t' heq => ?_⟩
  · by_cases hj : j = i
    · subst hj
      omega
    · rw [hother j hj]
      exact h.inside j
  · have hcount : assignedCount before ≤ assignedCount log := by
      have hall := congrArg assignedCount heq
      rw [assignedCount_append, assignedCount_reduced, assignedCount_reduced] at hall
      omega
    by_cases hj : j = i
    · subst hj
      omega
    · rw [hother j hj]
      cases between with
      | nil =>
        obtain ⟨rfl, _⟩ := EcnRecord.reduced.inj (List.cons.inj heq).1
        exact absurd rfl hj
      | cons r between => exact h.reduced j between before t' (List.cons.inj heq).2

end Follows

section Sender

open OutQueues

/-- The ends of the window behind a step that acks nothing: at most one TSN was assigned. -/
def SteppedEnds (s t : OutQueues n) : Prop :=
  t.sender.lastAckedSeq = s.sender.lastAckedSeq ∧
    (t.sender.sendingSeq = s.sender.sendingSeq ∨ t.sender.sendingSeq = s.sender.sendingSeq + 1)

theorem SteppedEnds.of_ends {s t : OutQueues n} (h : t.sender.ends = s.sender.ends) :
    SteppedEnds s t := by
  obtain ⟨hlast, hnext⟩ := Prod.mk.inj h
  exact ⟨hlast, Or.inl hnext⟩

theorem SteppedEnds.after {s t u : OutQueues n} (h : SteppedEnds t u)
    (hends : t.sender.ends = s.sender.ends) : SteppedEnds s u := by
  obtain ⟨hlast, hnext⟩ := Prod.mk.inj hends
  unfold SteppedEnds at h ⊢
  rwa [hlast, hnext] at h

theorem releaseScattered_ends (s : OutQueues n) (stream : StreamNo) (seq : Ssn) (whoTo : Fin n)
    (rest : Option StreamRest) : SteppedEnds s (s.releaseScattered stream seq whoTo rest) := by
  have hmove : (s.moveScattered stream seq).sender.ends = s.sender.ends := rfl
  unfold OutQueues.releaseScattered
  dsimp only
  split
  · exact .of_ends hmove
  · unfold settleRest
    cases rest with
    | none => exact .of_ends hmove
    | some rest =>
      dsimp only
      split
      · exact .of_ends hmove
      · split
        · exact .of_ends hmove
        · exact ⟨rfl, Or.inr rfl⟩

theorem releaseSent_ends (cfg : SenderConfig) (place : ℕ) (rest : Option StreamRest)
    (s : OutQueues n) : SteppedEnds s (s.releaseSent cfg place rest) := by
  unfold OutQueues.releaseSent
  split
  · exact .of_ends rfl
  · have hskip := (skipSent_same cfg s.info s.sender.toAsoc (s.sender.sentQueue.drop place)).1
    dsimp only
    split
    · exact .of_ends hskip
    · exact (releaseScattered_ends _ _ _ _ _).after hskip

theorem releaseUnsent_ends {cfg : SenderConfig} {place : ℕ} {rest : Option StreamRest}
    {s t : OutQueues n} (h : s.releaseUnsent cfg place rest = some t) : SteppedEnds s t := by
  unfold OutQueues.releaseUnsent at h
  split at h
  · cases h
    exact .of_ends rfl
  · obtain ⟨r, hr, rfl⟩ := Option.map_eq_some_iff.mp h
    have hskip := (skipUnsent_same hr).1
    dsimp only
    split
    · exact .of_ends hskip
    · exact (releaseScattered_ends _ _ _ _ _).after hskip

/-- A SACK of an idle association leaves the window alone. -/
theorem handleSack_idle {cfg : SenderConfig} {sack : Sack n} {s t : Sender n}
    (hidle : (s.drained && s.streamQueueCnt == 0) = true) (h : handleSack cfg sack s = some t) :
    t.ends = s.ends := by
  unfold handleSack at h
  split at h
  · cases h
  · split at h
    · cases h
      rfl
    · cases h
      rfl

end Sender

variable {cfg : SenderConfig} {upd : EcnUpdate n κ}

/-- The windows of CWR as the sender and the records have them. -/
def Following (base : Tsn) (acked : ℕ) (h : EcnHistory n κ) : Prop :=
  Follows base acked h.asoc.queues.sender.lastAckedSeq h.asoc.queues.sender.sendingSeq
    (fun i => (h.asoc.nets i).cwrWindowTsn) h.log

/-- What the steps of the sender and the reductions keep. -/
structure Windowed (base : Tsn) (h : EcnHistory n κ) : Prop where
  ordered : h.asoc.queues.Ordered
  numbered : Numbered base h.log
  follows : ∃ acked, Following base acked h
  onceAWindow : OnceAWindow h.log

/-- The window that was dragged along. -/
theorem drag_near {last cum : Tsn} {net : EcnNet} (hcum : (cum - last).toNat < 2 ^ 31)
    (hnet : (net.cwrWindowTsn - last).toNat < 2 ^ 31) :
    ((EcnAsoc.drag cum net).cwrWindowTsn - last).toNat =
      max (net.cwrWindowTsn - last).toNat (cum - last).toNat := by
  unfold EcnAsoc.drag
  split_ifs with hgt
  · have hlt := (tsnGt_iff_near hcum hnet).mp hgt
    exact (max_eq_right hlt.le).symm
  · have hle := mt (tsnGt_iff_near hcum hnet).mpr hgt
    exact (max_eq_left (not_lt.mp hle)).symm

/-- An ack of what was assigned drags the windows inside. -/
theorem Follows.drag {base last next cum : Tsn} {acked : ℕ} {nets : Fin n → EcnNet}
    {log : List (EcnRecord n)}
    (h : Follows base acked last next (fun i => (nets i).cwrWindowTsn) log)
    (hroom : (next - last).toNat < 2 ^ 31) (hcum : (cum - last).toNat < (next - last).toNat) :
    Follows base acked last next (fun i => (EcnAsoc.drag cum (nets i)).cwrWindowTsn) log ∧
      ∀ i, (cum - last).toNat ≤ ((EcnAsoc.drag cum (nets i)).cwrWindowTsn - last).toNat := by
  have hmax : ∀ i, ((EcnAsoc.drag cum (nets i)).cwrWindowTsn - last).toNat =
      max ((nets i).cwrWindowTsn - last).toNat (cum - last).toNat :=
    fun i => drag_near (hcum.trans hroom) ((h.inside i).trans hroom)
  refine ⟨h.forward (fun i => ?_) (fun i => ?_), fun i => ?_⟩
  · rw [hmax i]
    exact max_lt (h.inside i) hcum
  · rw [hmax i]
    exact le_max_left _ _
  · rw [hmax i]
    exact le_max_right _ _

def sent (h : EcnHistory n κ) (q : OutQueues n) (cwndAtSend : Tsn → ℕ) (nets : Fin n → EcnNet) :
    EcnHistory n κ where
  asoc := { h.asoc with queues := q, cwndAtSend := cwndAtSend, nets := nets }
  marked := h.marked
  log := if q.sender.sendingSeq = h.asoc.queues.sender.sendingSeq then h.log
    else .assigned h.asoc.queues.sender.sendingSeq :: h.log

section SenderSteps

variable {base : Tsn} {h : EcnHistory n κ} {q : OutQueues n} {nets : Fin n → EcnNet}

/-- A step of the sender that acks nothing. -/
theorem Windowed.stepped (hw : Windowed base h) (hq : q.Ordered) (hends : SteppedEnds h.asoc.queues q)
    (hf : ∃ acked, Follows base acked h.asoc.queues.sender.lastAckedSeq
      h.asoc.queues.sender.sendingSeq (fun i => (nets i).cwrWindowTsn) h.log)
    (cwndAtSend : Tsn → ℕ) : Windowed base (h.sent q cwndAtSend nets) := by
  obtain ⟨acked, hf⟩ := hf
  obtain ⟨hlast, hnext⟩ := hends
  have hcases : (h.sent q cwndAtSend nets).log = h.log ∧
        q.sender.sendingSeq = h.asoc.queues.sender.sendingSeq ∨
      (h.sent q cwndAtSend nets).log = .assigned h.asoc.queues.sender.sendingSeq :: h.log ∧
        q.sender.sendingSeq = h.asoc.queues.sender.sendingSeq + 1 := by
    unfold sent
    dsimp only
    by_cases hsame : q.sender.sendingSeq = h.asoc.queues.sender.sendingSeq
    · rw [if_pos hsame]
      exact Or.inl ⟨rfl, hsame⟩
    · rw [if_neg hsame]
      exact Or.inr ⟨rfl, hnext.resolve_left hsame⟩
  rcases hcases with ⟨hlog, hnext⟩ | ⟨hlog, hnext⟩
  · constructor
    · exact hq
    · rw [hlog]
      exact hw.numbered
    · refine ⟨acked, ?_⟩
      unfold Following
      rw [hlog]
      change Follows base acked q.sender.lastAckedSeq q.sender.sendingSeq _ _
      rw [hlast, hnext]
      exact hf
    · rw [hlog]
      exact hw.onceAWindow
  · constructor
    · exact hq
    · rw [hlog]
      exact hf.numbered hw.numbered
    · refine ⟨acked, ?_⟩
      unfold Following
      rw [hlog]
      change Follows base acked q.sender.lastAckedSeq q.sender.sendingSeq _ _
      rw [hlast, hnext]
      exact hf.assign hw.ordered.room
    · rw [hlog]
      exact onceAWindow_assigned hw.onceAWindow _

/-- A SACK that moves the cumulative ack. -/
theorem Windowed.passed (hw : Windowed base h) (hq : q.Ordered) {cum : Tsn}
    (hends : q.sender.ends = (cum, h.asoc.queues.sender.sendingSeq))
    (hf : ∃ acked, Follows base acked cum h.asoc.queues.sender.sendingSeq
      (fun i => (nets i).cwrWindowTsn) h.log)
    (cwndAtSend : Tsn → ℕ) : Windowed base (h.sent q cwndAtSend nets) := by
  obtain ⟨acked, hf⟩ := hf
  obtain ⟨hlast, hnext⟩ := Prod.mk.inj hends
  have hlog : (h.sent q cwndAtSend nets).log = h.log := if_pos hnext
  constructor
  · exact hq
  · rw [hlog]
    exact hw.numbered
  · refine ⟨acked, ?_⟩
    unfold Following
    rw [hlog]
    change Follows base acked q.sender.lastAckedSeq q.sender.sendingSeq _ _
    rw [hlast, hnext]
    exact hf
  · rw [hlog]
    exact hw.onceAWindow

/-- A handler of SACKs, which drags the windows unless the ack is not looked at. -/
theorem Windowed.sacked (hw : Windowed base h) {cum : Tsn} {t : Sender n} {old : Bool}
    (hq : OutQueues.Ordered { h.asoc.queues with sender := t })
    (hack : h.asoc.queues.AcksSent cum)
    (hold : tsnGt h.asoc.queues.sender.lastAckedSeq cum = true → old = true)
    (hkept : old = true → t.ends = h.asoc.queues.sender.ends ∨ h.asoc.queues.sender.lastAckedSeq = cum)
    (ht : SameTsns h.asoc.queues.sender t ∨ tsnGt h.asoc.queues.sender.lastAckedSeq cum = false ∧
      Passed cum h.asoc.queues.sender t) (cwndAtSend : Tsn → ℕ) :
    Windowed base (h.sent { h.asoc.queues with sender := t } cwndAtSend
      (if old then h.asoc.nets else fun i => EcnAsoc.drag cum (h.asoc.nets i))) := by
  obtain ⟨acked, hf⟩ := hw.follows
  have hroom := hw.ordered.room
  cases hcase : old with
  | true =>
    rw [if_pos rfl]
    have hends : t.ends = h.asoc.queues.sender.ends := by
      rcases hkept hcase with hends | heq
      · exact hends
      · rcases ht with hsame | ⟨_, hpassed⟩
        · exact hsame.ends
        · rw [hpassed.ends, ← heq]
          rfl
    exact hw.stepped hq (.of_ends hends) ⟨acked, hf⟩ cwndAtSend
  | false =>
    rw [if_neg Bool.false_ne_true]
    have hcum : (cum - h.asoc.queues.sender.lastAckedSeq).toNat <
        (h.asoc.queues.sender.sendingSeq - h.asoc.queues.sender.lastAckedSeq).toNat := by
      rcases hack with hgt | hcum
      · rw [hold hgt] at hcase
        cases hcase
      · exact hcum.1
    obtain ⟨hdragged, hle⟩ := Follows.drag hf hroom hcum
    rcases ht with hsame | ⟨_, hpassed⟩
    · exact hw.stepped hq (.of_ends hsame.ends) ⟨acked, hdragged⟩ cwndAtSend
    · exact hw.passed hq hpassed.ends ⟨_, hdragged.ack hcum hle⟩ cwndAtSend

theorem Windowed.sender (hw : Windowed base h) {e : QueueEvent n} (he : e.Regular h.asoc.queues)
    (hstep : queueStep cfg h.asoc.queues e = some q) (cwndAtSend : Tsn → ℕ) :
    Windowed base (h.sent q cwndAtSend (h.asoc.dragged e)) := by
  have hq := queueStep_ordered hw.ordered he hstep
  have hf : ∃ acked, Follows base acked h.asoc.queues.sender.lastAckedSeq
      h.asoc.queues.sender.sendingSeq (fun i => (h.asoc.nets i).cwrWindowTsn) h.log := hw.follows
  cases e with
  | move chunk whoTo info =>
    cases hstep
    exact hw.stepped hq ⟨rfl, Or.inr rfl⟩ hf cwndAtSend
  | transmit net time oneChunk picked =>
    cases hstep
    exact hw.stepped hq (.of_ends (transmit_tsns _ _ _ _ _ _ _).1) hf cwndAtSend
  | retransmit env =>
    obtain ⟨u, hu, rfl⟩ := Option.map_eq_some_iff.mp hstep
    exact hw.stepped hq (.of_ends (chunkRetransmission_same hu).ends) hf cwndAtSend
  | expressSack cumack rwnd ecneSeen =>
    obtain ⟨u, hu, rfl⟩ := Option.map_eq_some_iff.mp hstep
    refine hw.sacked hq he (fun hgt => by rw [hgt, Bool.true_or]) (fun hcase => ?_)
      (expressHandleSack_tsns (hw.ordered.ack_cases he) hu) cwndAtSend
    rcases Bool.or_eq_true_iff.mp hcase with hgt | heq
    · refine Or.inl ?_
      unfold expressHandleSack at hu
      rw [if_pos hgt] at hu
      obtain rfl := Option.some.inj hu
      rfl
    · exact Or.inr (eq_of_beq heq)
  | sack sack =>
    obtain ⟨u, hu, rfl⟩ := Option.map_eq_some_iff.mp hstep
    have htsns := handleSack_tsns hu
    refine hw.sacked hq he (fun hgt => by rw [hgt, Bool.true_or]) (fun hcase => ?_) htsns cwndAtSend
    rcases Bool.or_eq_true_iff.mp hcase with hgt | hidle
    · refine Or.inl ?_
      rcases htsns with hsame | ⟨hnot, _⟩
      · exact hsame.ends
      · rw [hgt] at hnot
        cases hnot
    · exact Or.inl (handleSack_idle hidle hu)
  | t3 t =>
    cases hstep
    have hsame := (markAllForResend_same cfg t fun x hx => hw.ordered.notOld hx : SameTsns h.asoc.queues.sender _)
    exact hw.stepped hq (.of_ends hsame.ends) hf cwndAtSend
  | releaseSent place rest =>
    cases hstep
    exact hw.stepped hq (releaseSent_ends cfg place rest _) hf cwndAtSend
  | releaseUnsent place rest => exact hw.stepped hq (releaseUnsent_ends hstep) hf cwndAtSend

end SenderSteps

open EcnAsoc

theorem cwrWindow_reduce (s : EcnAsoc n κ) (cp : Ecne) (i j : Fin n) :
    ((s.reduce upd cp i).nets j).cwrWindowTsn =
      if i = j then s.windowDataTsn else (s.nets j).cwrWindowTsn := by
  unfold EcnAsoc.reduce setNet
  dsimp only
  by_cases hij : i = j
  · subst hij
    rw [Function.update_self, if_pos rfl]
  · rw [Function.update_of_ne (Ne.symm hij), if_neg hij]

theorem cwrWindow_setNet_of_eq {s : EcnAsoc n κ} {i : Fin n} {net : EcnNet}
    (hnet : net.cwrWindowTsn = (s.nets i).cwrWindowTsn) (j : Fin n) :
    ((s.setNet i net).nets j).cwrWindowTsn = (s.nets j).cwrWindowTsn := by
  unfold setNet
  dsimp only
  by_cases hij : j = i
  · subst hij
    rw [Function.update_self, hnet]
  · rw [Function.update_of_ne hij]

theorem cwrWindow_countMarks (s : EcnAsoc n κ) (cp : Ecne) (i j : Fin n) :
    ((s.countMarks upd cp i).nets j).cwrWindowTsn = (s.nets j).cwrWindowTsn := by
  unfold countMarks setNet
  dsimp only
  by_cases hij : j = i
  · subst hij
    rw [Function.update_self]
  · rw [Function.update_of_ne hij]

/-- Behind the searches the window of the destination moves when its cwnd is reduced in full. -/
theorem echoAt_spec (s : EcnAsoc n κ) (cp : Ecne) (alloc : Bool) (t : Fin n × BitVec 8) :
    (s.echoAt upd cp alloc t).queues = s.queues ∧
      (∃ i tsn o, (s.echoAt upd cp alloc t).ctl = s.ctl.sendCwr i tsn o alloc) ∧
      ∀ j, ((s.echoAt upd cp alloc t).nets j).cwrWindowTsn =
        if s.newWindow cp.tsn t = true ∧ t.1 = j then s.windowDataTsn
        else (s.nets j).cwrWindowTsn := by
  unfold echoAt
  by_cases hnew : s.newWindow cp.tsn t = true
  · rw [if_pos hnew]
    refine ⟨rfl, ⟨_, _, _, rfl⟩, fun j => ?_⟩
    have hwin := @cwrWindow_reduce n κ upd s cp t.1 j
    change ((s.reduce upd cp t.1).nets j).cwrWindowTsn = _
    simpa only [hnew, true_and] using hwin
  · rw [if_neg hnew]
    split_ifs with hmore
    · refine ⟨rfl, ⟨_, _, _, rfl⟩, fun j => ?_⟩
      rw [if_neg fun habs => hnew habs.1]
      exact cwrWindow_countMarks s cp t.1 j
    · refine ⟨rfl, ⟨_, _, _, rfl⟩, fun j => ?_⟩
      rw [if_neg fun habs => hnew habs.1]
      rfl

theorem fullReduction_of_find {s : EcnAsoc n κ} {cp : Ecne} (hknown : cp.known = true)
    {lchk : SentChunk n} (hfind : findSent cp.tsn s.queues.sender.sentQueue = some lchk) {i : Fin n}
    (hi : lchk.destination = some i) :
    s.fullReduction cp = if s.newWindow cp.tsn (i, 0) then some i else none := by
  unfold fullReduction
  rw [if_pos hknown, hfind]
  dsimp only
  rw [hi, Option.map_some, Option.filter_some]
  split_ifs
  · rfl
  · rfl

theorem fullReduction_of_guess {s : EcnAsoc n κ} {cp : Ecne} (hknown : cp.known = true)
    (hfind : findSent cp.tsn s.queues.sender.sentQueue = none) {t : Fin n × BitVec 8}
    (ht : s.guessNet cp.tsn = some t) :
    s.fullReduction cp = if s.newWindow cp.tsn t then some t.1 else none := by
  unfold fullReduction
  rw [if_pos hknown, hfind]
  dsimp only
  rw [ht, Option.filter_some]
  split_ifs
  · rfl
  · rfl

theorem handleEcnEcho_spec {s s' : EcnAsoc n κ} {cp : Ecne} {alloc : Bool}
    (h : s.handleEcnEcho upd cp alloc = some s') :
    s'.queues = s.queues ∧ (s'.ctl = s.ctl ∨ ∃ i tsn o, s'.ctl = s.ctl.sendCwr i tsn o alloc) ∧
      ∀ j, (s'.nets j).cwrWindowTsn =
        if s.fullReduction cp = some j then s.windowDataTsn else (s.nets j).cwrWindowTsn := by
  unfold handleEcnEcho at h
  by_cases hknown : cp.known = true
  · rw [if_pos hknown] at h
    cases hfind : findSent cp.tsn s.queues.sender.sentQueue with
    | some lchk =>
      rw [hfind] at h
      obtain ⟨i, hi, rfl⟩ := Option.map_eq_some_iff.mp h
      obtain ⟨hqueues, hctl, hwin⟩ := @echoAt_spec n κ upd (s.notePrevCwnd i cp.tsn) cp alloc (i, 0)
      refine ⟨hqueues, Or.inr hctl, fun j => ?_⟩
      have hnoted : ∀ j, ((s.notePrevCwnd i cp.tsn).nets j).cwrWindowTsn = (s.nets j).cwrWindowTsn :=
        cwrWindow_setNet_of_eq rfl
      have hsame : (s.notePrevCwnd i cp.tsn).newWindow cp.tsn (i, 0) = s.newWindow cp.tsn (i, 0) := by
        unfold newWindow
        rw [hnoted]
      rw [hwin j, hsame, hnoted, fullReduction_of_find hknown hfind hi]
      cases hnew : s.newWindow cp.tsn (i, 0) with
      | false => simp
      | true =>
        simp only [true_and, if_true, Option.some.injEq]
        rfl
    | none =>
      rw [hfind] at h
      dsimp only at h
      cases hguess : s.guessNet cp.tsn with
      | none =>
        rw [hguess] at h
        obtain rfl := Option.some.inj h
        have hnone : s.fullReduction cp = none := by
          unfold fullReduction
          rw [if_pos hknown, hfind]
          dsimp only
          rw [hguess]
          rfl
        refine ⟨rfl, Or.inl rfl, fun j => ?_⟩
        rw [hnone, if_neg (Option.some_ne_none j).symm]
      | some t =>
        rw [hguess] at h
        obtain rfl := Option.some.inj h
        obtain ⟨hqueues, hctl, hwin⟩ := @echoAt_spec n κ upd s cp alloc t
        refine ⟨hqueues, Or.inr hctl, fun j => ?_⟩
        rw [hwin j, fullReduction_of_guess hknown hfind hguess]
        cases hnew : s.newWindow cp.tsn t with
        | false => simp
        | true => simp
  · rw [if_neg hknown] at h
    obtain rfl := Option.some.inj h
    have hnone : s.fullReduction cp = none := by
      unfold fullReduction
      rw [if_neg hknown]
    refine ⟨rfl, Or.inl rfl, fun j => ?_⟩
    rw [hnone, if_neg (Option.some_ne_none j).symm]

theorem findSent_some {tsn : Tsn} {q : List (SentChunk n)} {c : SentChunk n}
    (h : findSent tsn q = some c) : c ∈ q ∧ c.tsn = tsn := by
  induction q with
  | nil => cases h
  | cons d q ih =>
    unfold findSent at h
    split_ifs at h with heq
    · obtain rfl := Option.some.inj h
      exact ⟨List.mem_cons_self, heq⟩
    · obtain ⟨hmem, htsn⟩ := ih h
      exact ⟨List.mem_cons_of_mem d hmem, htsn⟩

/-- A full reduction is for a TSN behind the window. -/
theorem tsnGt_of_fullReduction {s : EcnAsoc n κ} {cp : Ecne} {i : Fin n}
    (h : s.fullReduction cp = some i) : tsnGt cp.tsn (s.nets i).cwrWindowTsn = true := by
  unfold fullReduction at h
  split_ifs at h
  obtain ⟨t, ht, rfl⟩ := Option.map_eq_some_iff.mp h
  have hnew := (Option.filter_eq_some_iff.mp ht).2
  exact (Bool.and_eq_true_iff.mp hnew).1

/-- The window that a full reduction sets ends at the last TSN that was assigned. -/
theorem windowDataTsn_add_one {s : EcnAsoc n κ}
    (hlast : ∀ lchk ∈ s.queues.sendList.getLast?, lchk.chunk.tsn + 1 = s.queues.sender.sendingSeq) :
    s.windowDataTsn + 1 = s.queues.sender.sendingSeq := by
  unfold windowDataTsn
  cases hget : s.queues.sendList.getLast? with
  | none => exact BitVec.sub_add_cancel _ _
  | some lchk => exact hlast lchk hget

theorem Windowed.echo {base : Tsn} {h h' : EcnHistory n κ} (hw : Windowed base h) {cp : Ecne}
    {alloc : Bool} (hok : h.Careful (.echo cp alloc)) (hstep : h.step cfg upd (.echo cp alloc) = some h') :
    Windowed base h' := by
  obtain ⟨s, hs, rfl⟩ := Option.map_eq_some_iff.mp hstep
  obtain ⟨hqueues, _, hwin⟩ := handleEcnEcho_spec hs
  obtain ⟨acked, hf⟩ := hw.follows
  have hwindow : ∀ j, (s.nets j).cwrWindowTsn = _ := hwin
  cases hred : h.asoc.fullReduction cp with
  | none =>
    have hlog : h.logged s (.echo cp alloc) = h.log := by
      unfold logged
      dsimp only
      rw [hred]
    have hsame : (fun j => (s.nets j).cwrWindowTsn) = fun j => (h.asoc.nets j).cwrWindowTsn := by
      funext j
      rw [hwindow j, hred, if_neg (Option.some_ne_none j).symm]
    constructor
    · change s.queues.Ordered
      rw [hqueues]
      exact hw.ordered
    · change Numbered base (h.logged s (.echo cp alloc))
      rw [hlog]
      exact hw.numbered
    · refine ⟨acked, ?_⟩
      change Follows base acked s.queues.sender.lastAckedSeq s.queues.sender.sendingSeq
        (fun j => (s.nets j).cwrWindowTsn) (h.logged s (.echo cp alloc))
      rw [hlog, hsame, hqueues]
      exact hf
    · change OnceAWindow (h.logged s (.echo cp alloc))
      rw [hlog]
      exact hw.onceAWindow
  | some i =>
    have hlog : h.logged s (.echo cp alloc) = .reduced i cp.tsn :: h.log := by
      unfold logged
      dsimp only
      rw [hred]
    obtain ⟨hfound, hlast⟩ := hok (by rw [hred]; rfl)
    obtain ⟨lchk, hlchk⟩ := Option.isSome_iff_exists.mp hfound
    obtain ⟨hmem, htsn⟩ := findSent_some hlchk
    have hsent : cp.tsn ∈ h.asoc.queues.sent ++ h.asoc.queues.unsent := by
      apply List.mem_append_left
      rw [← htsn]
      exact List.mem_map_of_mem hmem
    have hhigh := (hw.ordered.inside _ hsent).2
    have hlow := (tsnGt_iff_near (hw.ordered.near hsent)
      ((hf.inside i).trans hw.ordered.room)).mp (tsnGt_of_fullReduction hred)
    have hi : (s.nets i).cwrWindowTsn + 1 = h.asoc.queues.sender.sendingSeq := by
      rw [hwindow i, if_pos hred]
      exact windowDataTsn_add_one hlast
    have hother : ∀ j, j ≠ i → (s.nets j).cwrWindowTsn = (h.asoc.nets j).cwrWindowTsn := by
      intro j hj
      rw [hwindow j, hred, if_neg fun habs => hj (Option.some.inj habs).symm]
    constructor
    · change s.queues.Ordered
      rw [hqueues]
      exact hw.ordered
    · change Numbered base (h.logged s (.echo cp alloc))
      rw [hlog]
      exact hw.numbered
    · refine ⟨acked, ?_⟩
      change Follows base acked s.queues.sender.lastAckedSeq s.queues.sender.sendingSeq
        (fun j => (s.nets j).cwrWindowTsn) (h.logged s (.echo cp alloc))
      rw [hlog, hqueues]
      exact hf.reduce hw.ordered.ahead cp.tsn hi hother
    · change OnceAWindow (h.logged s (.echo cp alloc))
      rw [hlog]
      apply onceAWindow_reduced hw.onceAWindow
      intro between before t₁ heq
      exact hf.assigned_since hw.numbered hlow hhigh heq

theorem Highest.mark {h : EcnHistory n κ} (hc : h.asoc.ctl.Counted) (hh : h.Highest) {net : Fin n}
    {highTsn : Tsn} {alloc : Bool} (hok : h.Careful (.mark (some net) highTsn alloc)) :
    ∀ net' tsn, (h.asoc.ctl.sendEcnEcho (some net) highTsn alloc).HasEcho net' tsn →
      tsn ∈ h.markedBy (.mark (some net) highTsn alloc) net' ∧
        ∀ t ∈ h.markedBy (.mark (some net) highTsn alloc) net', tsnGe tsn t = true := by
  intro net' tsn hecho
  unfold markedBy
  dsimp only
  rcases EcnQueue.hasEcho_sendEcnEcho hc hecho with
    ⟨hne, hold⟩ | ⟨rfl, old, hold, rfl⟩ | ⟨rfl, hnone, halloc, rfl⟩
  · have hsame := hh net' tsn hold
    split_ifs
    · rwa [Function.update_of_ne hne]
    · rwa [Function.update_of_ne hne]
    · exact hsame
  · obtain ⟨hmem, hall⟩ := hh net' old hold
    obtain ⟨cnt, hin⟩ := hold
    rw [if_pos (EcnQueue.HasEcho.echoFor_mem ⟨cnt, hin⟩), Function.update_self]
    have hcompare : tsnGe old highTsn = true ∨ ∀ t ∈ h.marked net', tsnGe highTsn t = true := by
      rcases Bool.or_eq_true_iff.mp (hok.2 _ hin rfl) with hge | hall
      · exact Or.inl hge
      · exact Or.inr (List.all_eq_true.mp hall)
    by_cases hgt : tsnGt highTsn old = true
    · rw [if_pos hgt]
      have hnotold : ¬ tsnGe old highTsn = true := by
        intro hge
        unfold tsnGt at hgt
        unfold tsnGe at hge
        rw [Serial.gt_iff (by norm_num)] at hgt
        rw [Serial.ge_iff (by norm_num)] at hge
        bv_omega
      refine ⟨List.mem_cons_self, fun t ht => ?_⟩
      rcases List.mem_cons.mp ht with rfl | ht
      · exact Serial.ge_self t
      · exact hcompare.resolve_left hnotold t ht
    · rw [if_neg hgt]
      refine ⟨List.mem_cons_of_mem _ hmem, fun t ht => ?_⟩
      rcases List.mem_cons.mp ht with rfl | ht
      · rcases hcompare with hge | hge
        · exact hge
        · -- not later than the echo and as late as what it stands for: the same
          have hsame := hge old hmem
          have heq : t = old := by
            unfold tsnGe Serial.ge at hsame
            rcases Bool.or_eq_true_iff.mp hsame with hlater | heq
            · exact absurd hlater hgt
            · exact eq_of_beq heq
          rw [heq]
          exact Serial.ge_self old
      · exact hall t ht
  · rw [if_neg (by rw [hnone]; exact Bool.false_ne_true), if_pos halloc, Function.update_self]
    refine ⟨List.mem_singleton_self _, fun t ht => ?_⟩
    rw [List.mem_singleton.mp ht]
    exact Serial.ge_self _

theorem Highest.moved {h : EcnHistory n κ} (hh : h.Highest) {x : Option (Fin n × Fin n)}
    (ha : ∀ p ∈ x, h.asoc.ctl.Apart p.1 p.2) :
    ∀ net tsn, (h.asoc.ctl.unstrand x).HasEcho net tsn →
      tsn ∈ h.markedMoved x net ∧ ∀ t ∈ h.markedMoved x net, tsnGe tsn t = true := by
  cases x with
  | none => exact hh
  | some p =>
    obtain ⟨source, alt⟩ := p
    intro net tsn hecho
    unfold markedMoved
    dsimp only
    obtain ⟨rfl, hold⟩ | hold := EcnQueue.hasEcho_moveEchoes hecho
    · rw [if_pos hold.echoFor_mem, Function.update_self]
      exact hh source tsn hold
    · split_ifs with hany
      · by_cases heq : net = alt
        · subst heq
          have hapart : h.asoc.ctl.Apart source net := ha _ rfl
          obtain rfl | hnone | hnone := hapart
          · rw [Function.update_self]
            exact hh _ tsn hold
          · exact absurd hany (by rw [hnone]; exact Bool.false_ne_true)
          · exact absurd hold.echoFor_mem (by rw [hnone]; exact Bool.false_ne_true)
        · rw [Function.update_of_ne heq]
          exact hh net tsn hold
      · exact hh net tsn hold

theorem counted_unstrand {q : EcnQueue n} (h : q.Counted)
    {x : Option (Fin n × Fin n)} (ha : ∀ p ∈ x, q.Apart p.1 p.2) : (q.unstrand x).Counted := by
  cases x with
  | none => exact h
  | some p => exact h.moveEchoes (ha p rfl)

structure Inv (base : Tsn) (h : EcnHistory n κ) : Prop where
  windowed : Windowed base h
  counted : h.asoc.ctl.Counted
  highest : h.Highest

theorem Fresh.inv {h : EcnHistory n κ} (hf : h.Fresh) :
    Inv h.asoc.queues.sender.lastAckedSeq h := by
  have hnext := hf.queues.2.2
  have hlast : h.asoc.queues.sender.sendingSeq - 1 = h.asoc.queues.sender.lastAckedSeq := by
    rw [hnext]
    exact BitVec.add_sub_cancel _ _
  have hone : (h.asoc.queues.sender.sendingSeq - h.asoc.queues.sender.lastAckedSeq).toNat = 1 := by
    rw [hnext]
    bv_omega
  have hwin : ∀ i, ((h.asoc.nets i).cwrWindowTsn - h.asoc.queues.sender.lastAckedSeq).toNat = 0 := by
    intro i
    rw [hf.window i, hlast, BitVec.sub_self]
    rfl
  have hnone : ¬ ∃ c ∈ h.asoc.ctl.chunks, c.isEcne = true := by
    rintro ⟨c, hc, hecne⟩
    rw [hf.noEcho c hc] at hecne
    cases hecne
  refine ⟨⟨hf.queues.ordered, ?_, ⟨0, ?_, ?_, fun i => ?_, ?_⟩, ?_⟩, ⟨?_, hf.ctrlCount, ?_⟩, ?_⟩
  · rw [hf.log]
    trivial
  · exact (Serial.advance_zero _).symm
  · rw [hone, hf.log]
    rfl
  · rw [hwin i, hone]
    exact Nat.one_pos
  · intro i between before t heq
    rw [hf.log] at heq
    exact absurd heq (by simp)
  · intro later between before net t₁ t₂ heq
    rw [hf.log] at heq
    exact absurd heq (by simp)
  · have hcount : h.asoc.ctl.chunks.countP EcnChunk.isEcne = 0 :=
      List.countP_eq_zero.mpr fun c hc hecne => hnone ⟨c, hc, hecne⟩
    rw [hf.echoCount, hcount]
    rfl
  · have hnil : EcnQueue.echoed h.asoc.ctl.chunks = [] := by
      rw [List.eq_nil_iff_forall_not_mem]
      intro net hnet
      obtain ⟨c, hc, hecne, _⟩ := EcnQueue.mem_echoed_iff.mp hnet
      exact hnone ⟨c, hc, hecne⟩
    rw [hnil]
    exact List.nodup_nil
  · rintro net tsn ⟨cnt, hc⟩
    exact absurd ⟨_, hc, rfl⟩ hnone

theorem Windowed.congr {base : Tsn} {h h' : EcnHistory n κ} (hw : Windowed base h)
    (hqueues : h'.asoc.queues = h.asoc.queues) (hnets : h'.asoc.nets = h.asoc.nets)
    (hlog : h'.log = h.log) : Windowed base h' := by
  obtain ⟨hordered, hnum, ⟨acked, hf⟩, honce⟩ := hw
  refine ⟨by rwa [hqueues], by rwa [hlog], ⟨acked, ?_⟩, by rwa [hlog]⟩
  unfold Following
  rwa [hqueues, hnets, hlog]

theorem Inv.step {base : Tsn} {h h' : EcnHistory n κ} {e : EcnEvent n} (hi : Inv base h)
    (hok : h.Careful e) (hstep : h.step cfg upd e = some h') : Inv base h' := by
  obtain ⟨hw, hc, hh⟩ := hi
  cases e with
  | mark net highTsn alloc =>
    cases hstep
    cases net with
    | none => exact ⟨hw.congr rfl rfl rfl, hc, hh⟩
    | some net =>
      refine ⟨hw.congr rfl rfl rfl, hc.sendEcnEcho (some net) highTsn alloc hok.1, ?_⟩
      exact Highest.mark hc hh hok
  | cwr cwr =>
    cases hstep
    refine ⟨hw.congr rfl rfl rfl, hc.handleEcnCwr cwr, fun net tsn hecho => ?_⟩
    exact hh net tsn (EcnQueue.hasEcho_handleEcnCwr hecho)
  | echo cp alloc =>
    have hw' := hw.echo hok hstep
    obtain ⟨s, hs, rfl⟩ := Option.map_eq_some_iff.mp hstep
    obtain ⟨_, hctl, _⟩ := handleEcnEcho_spec hs
    rcases hctl with heq | ⟨i, tsn, o, heq⟩
    · refine ⟨hw', ?_, fun net tsn hecho => hh net tsn ?_⟩
      · exact heq ▸ hc
      · exact heq ▸ hecho
    · refine ⟨hw', ?_, fun net tsn hecho => hh net tsn ?_⟩
      · exact heq ▸ hc.sendCwr i tsn o alloc
      · exact EcnQueue.hasEcho_sendCwr (heq ▸ hecho)
  | queueOther front id whoTo =>
    cases hstep
    refine ⟨hw.congr rfl rfl rfl, hc.queueOther front id whoTo, fun net tsn hecho => ?_⟩
    exact hh net tsn (EcnQueue.hasEcho_queueOther hecho)
  | dropOther place =>
    obtain ⟨s, hs, rfl⟩ := Option.map_eq_some_iff.mp hstep
    obtain ⟨ctl, hctl, rfl⟩ := Option.map_eq_some_iff.mp hs
    refine ⟨hw.congr rfl rfl rfl, hc.dropOther hctl, fun net tsn hecho => ?_⟩
    exact hh net tsn (EcnQueue.hasEcho_dropOther hctl hecho)
  | timer net alt =>
    cases hstep
    have hapart : ∀ p ∈ some (net, alt), h.asoc.ctl.Apart p.1 p.2 := fun p hp =>
      Option.some.inj hp ▸ hok
    exact ⟨hw.congr rfl rfl rfl, counted_unstrand hc hapart, hh.moved hapart⟩
  | sender e cwndAtSend =>
    obtain ⟨s, hs, rfl⟩ := Option.map_eq_some_iff.mp hstep
    obtain ⟨q, hq, rfl⟩ := Option.map_eq_some_iff.mp hs
    obtain ⟨hregular, hapart⟩ := hok
    exact ⟨(hw.sender hregular hq cwndAtSend).congr rfl rfl rfl, counted_unstrand hc hapart,
      hh.moved hapart⟩

local instance ecnExact_neZero : NeZero 2 := ⟨two_ne_zero⟩

/-- Two destinations, nothing queued but a chunk of another kind. -/
def quietPaths : EcnHistory 2 Unit where
  asoc :=
    { queues := twoPaths
      cwndAtSend := fun _ => 4380
      netList := [0, 1]
      nets := fun _ =>
        { cwrWindowTsn := 0, lastCwrTsn := 0, ecnCePktCnt := 0, lostCnt := 0, ecnPrevCwnd := 0 }
      ctl := { chunks := [⟨.other 4, some 0⟩], ecnEchoCntOnq := 0, ctrlQueueCnt := 1 }
      cc := () }
  marked _ := []
  log := []

theorem quietPaths_fresh : quietPaths.Fresh where
  queues := ⟨rfl, rfl, rfl⟩
  noEcho := by decide
  echoCount := rfl
  ctrlCount := rfl
  window _ := rfl
  log := rfl

/-- Marks on both destinations and a CWR for one of them; then two chunks are sent, and an ECNE comes for
each. -/
def echoRun : List (EcnEvent 2) :=
  [.mark (some 0) 10 true, .mark (some 0) 12 true, .mark (some 1) 11 true,
    .cwr { net := 0, tsn := 12, chunkFlags := 0 },
    .sender (.move (pathChunk 0) (some 0) ⟨0, true⟩) fun _ => 4380,
    .sender (.transmit 0 0 false [1]) fun _ => 4380,
    .echo { chunkLength := 12, tsn := 1, numPktsSinceCwr := 1 } true,
    .sender (.move (pathChunk 0) (some 0) ⟨1, true⟩) fun _ => 4380,
    .sender (.transmit 0 0 false [2]) fun _ => 4380,
    .echo { chunkLength := 12, tsn := 2, numPktsSinceCwr := 1 } true]

/-- A CWR with the override covers the echoes to both destinations. -/
def overrideRun : List (EcnEvent 2) :=
  [.mark (some 0) 10 true, .mark (some 1) 11 true, .cwr { net := 0, tsn := 12, chunkFlags := 1 }]

/-- T3 of the first destination moves its echo to the second one. -/
def strandedRun : List (EcnEvent 2) :=
  [.mark (some 0) 10 true, .mark (some 1) 11 true,
    .sender (.t3 { net := 0, alt := 1, windowProbe := false, minWait := 0 }) fun _ => 4380]

end EcnHistory

end Sctp
