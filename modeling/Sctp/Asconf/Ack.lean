import Sctp.Lib.Bytes

/-! The answer of the peer to an ASCONF, `sctp_handle_asconf_ack`. -/
namespace Sctp.Asconf.Ack

def errorCauseInd : ℕ := 0xc003
def successReport : ℕ := 0xc005
def paramBufferSize : ℕ := 512

/-- `struct sctp_asconf_addr`: a parameter in `asconf_queue`. Its correlation id is not converted to network
order. -/
structure Aparam where
  paramType : ℕ
  correlationId : BitVec 32
  sent : Bool
deriving DecidableEq, Repr

/-- A parameter of the chunk that is about one of ours. -/
structure Report where
  correlationId : BitVec 32
  success : Bool
deriving DecidableEq, Repr

/-- The queue and what was done to it: the calls of `sctp_asconf_process_param_ack`, each with its flag, and
the stretches of the packet that were read. -/
structure Walk where
  queue : List Aparam
  lastErrorId : BitVec 32
  log : List (Aparam × Bool)
  reads : List (ℕ × ℕ)
deriving DecidableEq, Repr

namespace Walk

/-- `sctp_asconf_find_param` -/
def findParam (queue : List Aparam) (id : BitVec 32) : Option Aparam :=
  queue.find? fun a => a.correlationId = id ∧ a.sent

/-- `sctp_asconf_process_param_ack` -/
def processParamAck (w : Walk) (a : Aparam) (flag : Bool) : Walk :=
  { w with queue := w.queue.erase a, log := w.log ++ [(a, flag)] }

/-- `sctp_asconf_process_error` for the parameter at an offset: it only reads the lengths of the error cause
behind the header and of the parameter in it, and the cause. -/
def processError (w : Walk) (p : Bytes) (o : ℕ) : Walk :=
  let reads :=
    if p.u16 (o + 2) < p.u16 (o + 10) + 4 then [(o + 10, 2)]
    else if p.u16 (o + 10) < p.u16 (o + 14) + 4 then [(o + 10, 2), (o + 14, 2)]
    else [(o + 10, 2), (o + 14, 2), (o + 8, 2)]
  { w with reads := w.reads ++ reads }

/-- One case of the `switch`, for the parameter at an offset. -/
def report (w : Walk) (p : Bytes) (o : ℕ) (r : Report) : Walk :=
  let w := if r.success then w else { w with lastErrorId := r.correlationId }
  match findParam w.queue r.correlationId with
  | none => w
  | some a =>
    if r.success then w.processParamAck a true
    else (w.processParamAck a false).processError p o

def read (w : Walk) (offset len : ℕ) : Walk := { w with reads := w.reads ++ [(offset, len)] }

end Walk

def hostWord (bigEndian : Bool) (p : Bytes) (o : ℕ) : BitVec 32 :=
  if bigEndian then p.getD o 0 ++ p.getD (o + 1) 0 ++ p.getD (o + 2) 0 ++ p.getD (o + 3) 0
  else p.getD (o + 3) 0 ++ p.getD (o + 2) 0 ++ p.getD (o + 1) 0 ++ p.getD o 0

def reportAt (bigEndian : Bool) (p : Bytes) (o : ℕ) : Option Report :=
  if p.u16 o = errorCauseInd then some ⟨hostWord bigEndian p (o + 4), false⟩
  else if p.u16 o = successReport then some ⟨hostWord bigEndian p (o + 4), true⟩
  else none

def Walk.reportOpt (w : Walk) (p : Bytes) (o : ℕ) (r : Option Report) : Walk :=
  (r.map (w.report p o)).getD w

/-- The loop over the parameters; `ackLength` has 16 bits. The flag is false where the function returns from
inside of it. -/
def loop (bigEndian : Bool) (p : Bytes) : ℕ → ℕ → ℕ → Walk → Option (Walk × Bool)
  | 0, _, _, _ => none
  | n + 1, offset, ackLength, w =>
    if ackLength < 8 then some (w, true)
    else if (p.piece offset 8).isNone then some (w, false)
    else
      let paramLength := p.u16 (offset + 2)
      let w := w.read offset 8
      if ackLength < paramLength then some (w, false)
      else if paramLength < 4 then some (w, false)
      else if paramBufferSize < paramLength then some (w, false)
      else if (p.piece offset paramLength).isNone then some (w, false)
      else
        let w := (w.read offset paramLength).reportOpt p offset (reportAt bigEndian p offset)
        let ackLength := (ackLength + 65536 - Bytes.size32 paramLength) % 65536
        if ackLength = 0 then some (w, true)
        else loop bigEndian p n (offset + Bytes.size32 paramLength) ackLength w

/-- The parameters that were sent and have no report of their own. -/
def implicit (lastErrorId : BitVec 32) : List Aparam → List (Aparam × Bool) × List Aparam
  | [] => ([], [])
  | a :: queue =>
    if a.sent then
      ((a, decide (a.correlationId < lastErrorId)) :: (implicit lastErrorId queue).1,
        (implicit lastErrorId queue).2)
    else ([], a :: queue)

structure Assoc where
  asconfSeqOut : BitVec 32
  asconfSeqOutAcked : BitVec 32
  asconfQueue : List Aparam
deriving DecidableEq, Repr

inductive Outcome where
  | ignored
  | aborted
  | cleared
  | acked
deriving DecidableEq, Repr

structure Result where
  asoc : Assoc
  log : List (Aparam × Bool)
  reads : List (ℕ × ℕ)
  outcome : Outcome
deriving DecidableEq, Repr

structure AckChunk where
  p : Bytes
  offset : ℕ
  chunkLength : ℕ
  serialNumber : BitVec 32
  length_lt : chunkLength < 65536
  inside : offset + chunkLength ≤ p.length

def handleAsconfAck (bigEndian : Bool) (asoc : Assoc) (c : AckChunk) : Option Result :=
  if c.chunkLength < 8 then some ⟨asoc, [], [], .ignored⟩
  else if c.serialNumber = asoc.asconfSeqOut + 1 then some ⟨asoc, [], [], .aborted⟩
  else if c.serialNumber ≠ asoc.asconfSeqOutAcked + 1 then some ⟨asoc, [], [], .ignored⟩
  else do
    let (w, done) ← loop bigEndian c.p (c.p.length + 1) (c.offset + 8) (c.chunkLength - 8)
      ⟨asoc.asconfQueue, 0#32, [], []⟩
    if done then
      let lastErrorId := if w.lastErrorId = 0#32 then w.lastErrorId - 1 else w.lastErrorId
      let rest := implicit lastErrorId w.queue
      return ⟨{ asoc with asconfQueue := rest.2, asconfSeqOutAcked := asoc.asconfSeqOutAcked + 1 },
        w.log ++ rest.1, w.reads, .acked⟩
    else return ⟨{ asoc with asconfQueue := w.queue }, w.log, w.reads, .cleared⟩

def params (p : Bytes) : ℕ → ℕ → ℕ → List ℕ
  | 0, _, _ => []
  | n + 1, o, left =>
    if left < 8 then []
    else o :: params p n (o + Bytes.size32 (p.u16 (o + 2))) (left - Bytes.size32 (p.u16 (o + 2)))

/-- Each parameter has a header and ends inside of the stretch. Whether the padding of the last one is counted
makes no difference. -/
def WellFormed (p : Bytes) : ℕ → ℕ → ℕ → Prop
  | 0, _, _ => True
  | n + 1, o, left =>
    left < 8 ∨ (4 ≤ p.u16 (o + 2) ∧ p.u16 (o + 2) ≤ left ∧
      WellFormed p n (o + Bytes.size32 (p.u16 (o + 2))) (left - Bytes.size32 (p.u16 (o + 2))))

def AckChunk.params (c : AckChunk) : List ℕ :=
  Ack.params c.p c.p.length (c.offset + 8) (c.chunkLength - 8)

def AckChunk.WellFormed (c : AckChunk) : Prop :=
  Ack.WellFormed c.p c.p.length (c.offset + 8) (c.chunkLength - 8)

def AckChunk.reports (bigEndian : Bool) (c : AckChunk) : List Report :=
  c.params.filterMap (reportAt bigEndian c.p)

def ownReport (reports : List Report) (a : Aparam) : Option Report :=
  reports.find? fun r => r.correlationId = a.correlationId

/-- An error was reported for a parameter or for one before it. -/
def Spoiled (sent : List Aparam) (reports : List Report) (a : Aparam) : Prop :=
  ∃ r ∈ reports, r.success = false ∧ r.correlationId ≤ a.correlationId ∧
    ∃ b ∈ sent, b.correlationId = r.correlationId

instance (sent : List Aparam) (reports : List Report) (a : Aparam) :
    Decidable (Spoiled sent reports a) :=
  inferInstanceAs (Decidable (∃ r ∈ reports, _))

def verdict (sent : List Aparam) (reports : List Report) (a : Aparam) : Bool :=
  match ownReport reports a with
  | some r => r.success
  | none => !decide (Spoiled sent reports a)

/-- Only bytes of the chunk are read, and a well formed chunk resolves what was sent. -/
def Resolves (bigEndian : Bool) (asoc : Assoc) (c : AckChunk) (sent unsent : List Aparam) : Prop :=
  ∃ r, handleAsconfAck bigEndian asoc c = some r ∧
    (∀ x ∈ r.reads, c.offset ≤ x.1 ∧ x.1 + x.2 ≤ c.offset + c.chunkLength) ∧
    (c.WellFormed →
      r.log.Perm (sent.map fun a => (a, verdict sent (c.reports bigEndian) a)) ∧
        r.asoc = { asoc with asconfQueue := unsent, asconfSeqOutAcked := asoc.asconfSeqOutAcked + 1 })

/-- Where the loop has come to a parameter, its padding is counted in the length. -/
def Padded (p : Bytes) : ℕ → ℕ → ℕ → Prop
  | 0, _, _ => True
  | n + 1, o, left =>
    left < 8 ∨ p.u16 (o + 2) < 4 ∨ left < p.u16 (o + 2) ∨ paramBufferSize < p.u16 (o + 2) ∨
      (Bytes.size32 (p.u16 (o + 2)) ≤ left ∧
        Padded p n (o + Bytes.size32 (p.u16 (o + 2))) (left - Bytes.size32 (p.u16 (o + 2))))

def AckChunk.Padded (c : AckChunk) : Prop :=
  Ack.Padded c.p c.p.length (c.offset + 8) (c.chunkLength - 8)

def handled (p : Bytes) : ℕ → ℕ → ℕ → List ℕ
  | 0, _, _ => []
  | n + 1, o, left =>
    if left < 8 ∨ p.u16 (o + 2) < 4 ∨ left < p.u16 (o + 2) ∨ paramBufferSize < p.u16 (o + 2) then []
    else o :: handled p n (o + Bytes.size32 (p.u16 (o + 2))) (left - Bytes.size32 (p.u16 (o + 2)))

/-- What is looked at of the error cause in the parameter at an offset ends before `stop`: its length, and
that of the parameter in it unless the cause is too long. -/
def CauseInside (p : Bytes) (o stop : ℕ) : Prop :=
  o + 12 ≤ stop ∧ (p.u16 (o + 10) + 4 ≤ p.u16 (o + 2) → o + 16 ≤ stop)

/-- A report is an error, and the first report about a parameter that was sent. -/
def FirstError (sent : List Aparam) (seen : List Report) (r : Report) : Prop :=
  r.success = false ∧ ∃ a ∈ sent, a.correlationId = r.correlationId ∧ ownReport seen a = none

instance (p : Bytes) (o stop : ℕ) : Decidable (CauseInside p o stop) :=
  inferInstanceAs (Decidable (_ ∧ (_ → _)))

instance (sent : List Aparam) (seen : List Report) (r : Report) : Decidable (FirstError sent seen r) :=
  inferInstanceAs (Decidable (_ ∧ ∃ a ∈ sent, _))

/-- The first error about each parameter that was sent has its cause inside. -/
def CausesInside (bigEndian : Bool) (p : Bytes) (stop : ℕ) (sent : List Aparam) :
    List Report → List ℕ → Prop
  | _, [] => True
  | seen, o :: os =>
    (∀ r ∈ reportAt bigEndian p o, FirstError sent seen r → CauseInside p o stop) ∧
      CausesInside bigEndian p stop sent (seen ++ (reportAt bigEndian p o).toList) os

def AckChunk.CausesInside (bigEndian : Bool) (c : AckChunk) (sent : List Aparam) : Prop :=
  Ack.CausesInside bigEndian c.p (c.offset + c.chunkLength) sent []
    (handled c.p c.p.length (c.offset + 8) (c.chunkLength - 8))

def lastErrorId (reports : List Report) : BitVec 32 :=
  (((reports.filter fun r => !r.success).getLast?).map Report.correlationId).getD 0#32

def lastError (reports : List Report) : BitVec 32 :=
  if lastErrorId reports = 0#32 then lastErrorId reports - 1 else lastErrorId reports

/-- The smallest id of a sent parameter that an error is reported for; if there is none, a number above
all ids. -/
def firstFailed (sent : List Aparam) (reports : List Report) : ℕ :=
  ((reports.filter fun r => !r.success && sent.any fun b => b.correlationId = r.correlationId).map
    fun r => r.correlationId.toNat).foldr min (2 ^ 32)

def AckChunk.Small (c : AckChunk) : Prop := ∀ o ∈ c.params, c.p.u16 (o + 2) ≤ paramBufferSize

/-- No parameter without a report lies between the first one that failed and that of the last error. -/
def NoneBetween (sent : List Aparam) (reports : List Report) : Prop :=
  ∀ a ∈ sent, ownReport reports a = none →
    a.correlationId.toNat < min (firstFailed sent reports) (lastError reports).toNat ∨
      max (firstFailed sent reports) (lastError reports).toNat ≤ a.correlationId.toNat

variable {bigEndian : Bool} {p : Bytes}

/-- Giving one more element of a list a value adds the value. -/
theorem filterMap_perm_append {α β : Type*} {l : List α} {g g' : α → Option β} {a : α} {x : β}
    (hnodup : l.Nodup) (ha : a ∈ l) (hnone : g a = none) (hsome : g' a = some x)
    (helse : ∀ b ∈ l, b ≠ a → g' b = g b) : (l.filterMap g ++ [x]).Perm (l.filterMap g') := by
  obtain ⟨s, t, rfl⟩ := List.append_of_mem ha
  have hnot : a ∉ s ++ t := (List.nodup_middle.mp hnodup).notMem
  have hs : s.filterMap g' = s.filterMap g := by
    apply List.filterMap_congr
    intro b hb
    apply helse b (by simp [hb])
    rintro rfl
    exact hnot (List.mem_append_left _ hb)
  have ht : t.filterMap g' = t.filterMap g := by
    apply List.filterMap_congr
    intro b hb
    apply helse b (by simp [hb])
    rintro rfl
    exact hnot (List.mem_append_right _ hb)
  rw [List.filterMap_append, List.filterMap_append, List.filterMap_cons_none hnone,
    List.filterMap_cons_some hsome, hs, ht, List.append_assoc]
  apply List.Perm.append_left
  exact List.perm_append_singleton x _

/-- Those with a value and those without are all of them. -/
theorem filterMap_append_perm_map {α β : Type*} (l : List α) (g : α → Option β) (h : α → β) :
    (l.filterMap g ++ (l.filter fun a => (g a).isNone).map h).Perm
      (l.map fun a => (g a).getD (h a)) := by
  induction l with
  | nil => exact List.Perm.nil
  | cons a l ih =>
    cases ha : g a with
    | none =>
      rw [List.filterMap_cons_none ha, List.filter_cons_of_pos (by rw [ha]; rfl), List.map_cons,
        List.map_cons, ha]
      exact List.perm_middle.trans (ih.cons _)
    | some x =>
      rw [List.filterMap_cons_some ha, List.filter_cons_of_neg (by rw [ha]; exact Bool.false_ne_true),
        List.map_cons, ha]
      exact ih.cons _

def reported (reports : List Report) (a : Aparam) : Option (Aparam × Bool) :=
  (ownReport reports a).map fun r => (a, r.success)

theorem reported_append (reports : List Report) (r : Report) (a : Aparam) :
    reported (reports ++ [r]) a =
      (reported reports a).or (if r.correlationId = a.correlationId then some (a, r.success) else none) := by
  unfold reported ownReport
  rw [List.find?_append]
  cases List.find? _ reports with
  | some r' => rfl
  | none =>
    by_cases hr : r.correlationId = a.correlationId
    · simp [hr]
    · simp [hr]

theorem lastErrorId_append (reports : List Report) (r : Report) :
    lastErrorId (reports ++ [r]) = if r.success then lastErrorId reports else r.correlationId := by
  unfold lastErrorId
  rw [List.filter_append]
  cases hr : r.success with
  | true => simp [hr]
  | false => simp [hr]

section Queue

variable {sent unsent : List Aparam}

/-- The walk after some reports: those of the sent parameters that have one are out of the queue. -/
structure Walked (sent unsent : List Aparam) (reports : List Report) (w : Walk) : Prop where
  queue : w.queue = (sent.filter fun a => (reported reports a).isNone) ++ unsent
  last : w.lastErrorId = lastErrorId reports
  log : w.log.Perm (sent.filterMap (reported reports))

theorem walked_nil (sent unsent : List Aparam) :
    Walked sent unsent [] ⟨sent ++ unsent, 0#32, [], []⟩ where
  queue := by
    have hall : sent.filter (fun a => (reported [] a).isNone) = sent :=
      List.filter_eq_self.mpr fun _ _ => rfl
    rw [hall]
  last := rfl
  log := by
    have hnone : sent.filterMap (reported []) = [] := List.filterMap_eq_nil_iff.mpr fun _ _ => rfl
    rw [hnone]

/-- A report for a parameter that is still there. -/
theorem find_unreported (hunsent : ∀ a ∈ unsent, a.sent = false) {reports : List Report} {id : BitVec 32} {a : Aparam}
    (h : Walk.findParam ((sent.filter fun a => (reported reports a).isNone) ++ unsent) id = some a) :
    a ∈ sent ∧ reported reports a = none ∧ a.correlationId = id := by
  have hid := List.find?_some h
  simp only [Bool.decide_and, Bool.and_eq_true, decide_eq_true_eq] at hid
  rcases List.mem_append.mp (List.mem_of_find?_eq_some h) with ha | ha
  · obtain ⟨hmem, hnone⟩ := List.mem_filter.mp ha
    exact ⟨hmem, Option.isNone_iff_eq_none.mp hnone, hid.1⟩
  · exact absurd hid.2 (by rw [hunsent a ha]; exact Bool.false_ne_true)

/-- A report for none. -/
theorem find_reported (hsent : ∀ a ∈ sent, a.sent = true) {reports : List Report} {id : BitVec 32}
    (h : Walk.findParam ((sent.filter fun a => (reported reports a).isNone) ++ unsent) id = none) :
    ∀ a ∈ sent, a.correlationId = id → (reported reports a).isSome := by
  intro a ha hid
  by_contra hnone
  rw [Option.not_isSome_iff_eq_none] at hnone
  refine List.find?_eq_none.mp h a ?_ (by simp [hid, hsent a ha])
  exact List.mem_append_left _ (List.mem_filter.mpr ⟨ha, by rw [hnone]; rfl⟩)

theorem reported_append_of_ne {reports : List Report} {r : Report} {a : Aparam}
    (h : r.correlationId = a.correlationId → (reported reports a).isSome) :
    reported (reports ++ [r]) a = reported reports a := by
  rw [reported_append]
  cases hold : reported reports a with
  | some x => rfl
  | none =>
    rw [if_neg fun hid => by simpa [hold] using h hid]
    rfl

theorem Walk.report_lastErrorId (w : Walk) (o : ℕ) (r : Report) :
    (w.report p o r).lastErrorId = if r.success then w.lastErrorId else r.correlationId := by
  unfold Walk.report
  cases r.success <;> simp only [Bool.false_eq_true, if_false, if_true] <;> split <;> rfl

theorem Walk.report_of_find {w : Walk} {o : ℕ} {r : Report} {a : Aparam}
    (h : Walk.findParam w.queue r.correlationId = some a) :
    (w.report p o r).queue = w.queue.erase a ∧ (w.report p o r).log = w.log ++ [(a, r.success)] ∧
      (w.report p o r).reads = if r.success then w.reads else (w.processError p o).reads := by
  unfold Walk.report
  cases r.success <;> simp [h, Walk.processParamAck, Walk.processError]

theorem Walk.report_of_find_none {w : Walk} {o : ℕ} {r : Report}
    (h : Walk.findParam w.queue r.correlationId = none) :
    (w.report p o r).queue = w.queue ∧ (w.report p o r).log = w.log ∧
      (w.report p o r).reads = w.reads := by
  unfold Walk.report
  cases r.success <;> simp [h]

theorem Walked.report (hsent : ∀ a ∈ sent, a.sent = true) (hunsent : ∀ a ∈ unsent, a.sent = false)
    (hids : (sent.map Aparam.correlationId).Nodup) {reports : List Report} {w : Walk}
    (hw : Walked sent unsent reports w) (o : ℕ) (r : Report) :
    Walked sent unsent (reports ++ [r]) (w.report p o r) := by
  have hnodup : sent.Nodup := hids.of_map
  have hlast : (w.report p o r).lastErrorId = lastErrorId (reports ++ [r]) := by
    rw [Walk.report_lastErrorId, lastErrorId_append, hw.last]
  cases hfind : Walk.findParam w.queue r.correlationId with
  | none =>
    obtain ⟨hqueue, hlog, -⟩ := Walk.report_of_find_none hfind
    rw [hw.queue] at hfind
    have hsame : ∀ a ∈ sent, reported (reports ++ [r]) a = reported reports a := fun a ha =>
      reported_append_of_ne fun hid => find_reported hsent hfind a ha hid.symm
    constructor
    · rw [hqueue, hw.queue]
      congr 1
      apply List.filter_congr
      intro a ha
      rw [hsame a ha]
    · exact hlast
    · rw [hlog, List.filterMap_congr hsame]
      exact hw.log
  | some a =>
    obtain ⟨hqueue, hlog, -⟩ := Walk.report_of_find hfind
    rw [hw.queue] at hfind
    obtain ⟨ha, hnone, hid⟩ := find_unreported hunsent hfind
    have hsome : reported (reports ++ [r]) a = some (a, r.success) := by
      rw [reported_append, hnone, if_pos hid.symm]
      rfl
    have helse : ∀ b ∈ sent, b ≠ a → reported (reports ++ [r]) b = reported reports b := by
      intro b hb hba
      apply reported_append_of_ne
      intro hidb
      exact absurd (List.inj_on_of_nodup_map hids hb ha (hidb.symm.trans hid.symm)) hba
    constructor
    · have hmem : a ∈ sent.filter fun a => (reported reports a).isNone :=
        List.mem_filter.mpr ⟨ha, by rw [hnone]; rfl⟩
      rw [hqueue, hw.queue, List.erase_append_left _ hmem, (hnodup.filter _).erase_eq_filter,
        List.filter_filter]
      congr 1
      apply List.filter_congr
      intro b hb
      by_cases hba : b = a
      · rw [hba, hsome]
        simp
      · rw [helse b hb hba]
        simp [hba]
    · exact hlast
    · rw [hlog]
      exact (hw.log.append_right _).trans
        (filterMap_perm_append hnodup ha hnone hsome helse)

theorem Walked.read {reports : List Report} {w : Walk} (h : Walked sent unsent reports w) (o len : ℕ) :
    Walked sent unsent reports (w.read o len) := ⟨h.queue, h.last, h.log⟩

theorem Walked.reportOpt (hsent : ∀ a ∈ sent, a.sent = true) (hunsent : ∀ a ∈ unsent, a.sent = false)
    (hids : (sent.map Aparam.correlationId).Nodup) {reports : List Report} {w : Walk}
    (hw : Walked sent unsent reports w) (o : ℕ) (r : Option Report) :
    Walked sent unsent (reports ++ r.toList) (w.reportOpt p o r) := by
  cases r with
  | none => exact (List.append_nil reports).symm ▸ hw
  | some r => exact hw.report hsent hunsent hids o r

/-- What is looked at of an error cause. -/
theorem processError_inside_iff (w : Walk) {lo o stop : ℕ} (hlo : lo ≤ o) :
    (∀ x ∈ (w.processError p o).reads, lo ≤ x.1 ∧ x.1 + x.2 ≤ stop) ↔
      (∀ x ∈ w.reads, lo ≤ x.1 ∧ x.1 + x.2 ≤ stop) ∧ CauseInside p o stop := by
  unfold Walk.processError CauseInside
  dsimp only
  rw [List.forall_mem_append]
  apply and_congr_right
  intro _
  split_ifs
  · simp only [List.forall_mem_singleton]
    omega
  · rw [List.forall_mem_cons, List.forall_mem_singleton]
    dsimp only
    omega
  · rw [List.forall_mem_cons, List.forall_mem_cons, List.forall_mem_singleton]
    dsimp only
    omega

/-- What a report reads: nothing, unless it is the first error about a parameter that was sent. -/
theorem Walked.reportOpt_inside_iff (hsent : ∀ a ∈ sent, a.sent = true)
    (hunsent : ∀ a ∈ unsent, a.sent = false) {reports : List Report} {w : Walk}
    (hw : Walked sent unsent reports w) {lo o stop : ℕ} (hlo : lo ≤ o) (r : Option Report) :
    (∀ x ∈ (w.reportOpt p o r).reads, lo ≤ x.1 ∧ x.1 + x.2 ≤ stop) ↔
      (∀ x ∈ w.reads, lo ≤ x.1 ∧ x.1 + x.2 ≤ stop) ∧
        ∀ r' ∈ r, FirstError sent reports r' → CauseInside p o stop := by
  have hown : ∀ a : Aparam, reported reports a = none ↔ ownReport reports a = none := fun a =>
    Option.map_eq_none_iff
  cases r with
  | none =>
    have hvoid : ∀ r' ∈ (none : Option Report), FirstError sent reports r' → CauseInside p o stop :=
      fun _ h => absurd h (Option.not_mem_none _)
    exact (and_iff_left hvoid).symm
  | some r =>
    change (∀ x ∈ (w.report p o r).reads, _) ↔ _
    simp only [Option.mem_def, Option.some.injEq, forall_eq']
    cases hfind : Walk.findParam w.queue r.correlationId with
    | none =>
      obtain ⟨-, -, hreads⟩ := Walk.report_of_find_none (p := p) (o := o) hfind
      rw [hw.queue] at hfind
      have hnot : ¬ FirstError sent reports r := by
        rintro ⟨-, a, ha, hid, hnone⟩
        have hsome := find_reported hsent hfind a ha hid
        rw [(hown a).2 hnone] at hsome
        cases hsome
      rw [hreads]
      exact (and_iff_left fun h => absurd h hnot).symm
    | some a =>
      obtain ⟨-, -, hreads⟩ := Walk.report_of_find (p := p) (o := o) hfind
      rw [hw.queue] at hfind
      obtain ⟨ha, hnone, hid⟩ := find_unreported hunsent hfind
      rw [hreads]
      cases hr : r.success with
      | true =>
        rw [if_pos rfl]
        refine (and_iff_left fun h => ?_).symm
        rw [FirstError, hr] at h
        cases h.1
      | false =>
        have hfirst : FirstError sent reports r := ⟨hr, a, ha, hid, (hown a).1 hnone⟩
        rw [if_neg Bool.false_ne_true, processError_inside_iff w hlo]
        exact and_congr_right fun _ => (true_imp_iff.symm.trans
          (imp_congr_left (iff_true_intro hfirst).symm))

/-- What has no report is resolved by the last error. -/
theorem implicit_append {queue : List Aparam} (hsent : ∀ a ∈ queue, a.sent = true)
    (hunsent : ∀ a ∈ unsent, a.sent = false) (id : BitVec 32) :
    implicit id (queue ++ unsent) =
      (queue.map fun a => (a, decide (a.correlationId < id)), unsent) := by
  induction queue with
  | nil =>
    cases unsent with
    | nil => rfl
    | cons a unsent =>
      rw [List.nil_append, implicit, hunsent a List.mem_cons_self]
      rfl
  | cons a queue ih =>
    obtain ⟨ha, hrest⟩ := List.forall_mem_cons.mp hsent
    rw [List.cons_append, implicit, if_pos ha, ih hrest]
    rfl

end Queue

/-- What was read stays written down. -/
theorem Walk.reportOpt_reads (w : Walk) (o : ℕ) (r : Option Report) {x : ℕ × ℕ} (hx : x ∈ w.reads) :
    x ∈ (w.reportOpt p o r).reads := by
  cases r with
  | none => exact hx
  | some r =>
    change x ∈ (w.report p o r).reads
    cases hfind : Walk.findParam w.queue r.correlationId with
    | none =>
      rw [(Walk.report_of_find_none hfind).2.2]
      exact hx
    | some a =>
      rw [(Walk.report_of_find hfind).2.2]
      split_ifs
      · exact hx
      · exact List.mem_append_left _ hx

theorem loop_reads {m o left : ℕ} {w : Walk} {r : Walk × Bool}
    (h : loop bigEndian p m o left w = some r) : ∀ x ∈ w.reads, x ∈ r.1.reads := by
  induction m generalizing o left w with
  | zero => cases h
  | succ m ih =>
    intro x hx
    unfold loop at h
    dsimp only at h
    split_ifs at h
    · rw [← Option.some.inj h]
      exact hx
    · rw [← Option.some.inj h]
      exact hx
    · rw [← Option.some.inj h]
      exact List.mem_append_left _ hx
    · rw [← Option.some.inj h]
      exact List.mem_append_left _ hx
    · rw [← Option.some.inj h]
      exact List.mem_append_left _ hx
    · rw [← Option.some.inj h]
      exact List.mem_append_left _ hx
    · rw [← Option.some.inj h]
      exact Walk.reportOpt_reads _ _ _ (List.mem_append_left _ (List.mem_append_left _ hx))
    · apply ih h
      exact Walk.reportOpt_reads _ _ _ (List.mem_append_left _ (List.mem_append_left _ hx))

/-- The loop ends. -/
theorem loop_isSome {m o left : ℕ} {w : Walk} (hm : p.length < o + m) (hpos : 0 < m) :
    (loop bigEndian p m o left w).isSome := by
  induction m generalizing o left w with
  | zero => omega
  | succ m ih =>
    unfold loop
    dsimp only
    split_ifs with h8 hhead hlong hshort hbuf hbody hend
    all_goals try rfl
    have hin : o + 8 ≤ p.length := by
      by_contra hout
      exact hhead (by rw [Option.isNone_iff_eq_none, Bytes.piece_eq_none_iff]; omega)
    have hsize := Bytes.le_size32 (p.u16 (o + 2))
    apply ih <;> omega

/-- One round of the loop over a parameter that is there and has a length of its own. -/
theorem loop_step {m o left : ℕ} (w : Walk) (hm : 0 < m) (h8 : 8 ≤ left) (hin : o + left ≤ p.length)
    (hshort : 4 ≤ p.u16 (o + 2)) (hlong : p.u16 (o + 2) ≤ left)
    (hbuf : p.u16 (o + 2) ≤ paramBufferSize) :
    loop bigEndian p (m + 1) o left w =
      loop bigEndian p m (o + Bytes.size32 (p.u16 (o + 2)))
        ((left + 65536 - Bytes.size32 (p.u16 (o + 2))) % 65536)
        (((w.read o 8).read o (p.u16 (o + 2))).reportOpt p o (reportAt bigEndian p o)) := by
  have hhead : (p.piece o 8).isNone = false := by
    rw [Option.isNone_eq_false_iff, Bytes.piece_isSome_iff]
    omega
  have hbody : (p.piece o (p.u16 (o + 2))).isNone = false := by
    rw [Option.isNone_eq_false_iff, Bytes.piece_isSome_iff]
    omega
  rw [loop, if_neg (by omega), hhead]
  dsimp only
  rw [if_neg Bool.false_ne_true, if_neg (by omega), if_neg (by omega), if_neg (by omega), hbody,
    if_neg Bool.false_ne_true]
  by_cases hend : (left + 65536 - Bytes.size32 (p.u16 (o + 2))) % 65536 = 0
  · obtain ⟨k, rfl⟩ : ∃ k, m = k + 1 := ⟨m - 1, by omega⟩
    rw [if_pos hend, hend, loop, if_pos (by omega)]
  · rw [if_neg hend]

/-- Where the function returns from inside of the loop at a parameter, it has read its header. -/
theorem loop_stop {m o left : ℕ} {w : Walk} (h8 : 8 ≤ left) (hin : o + left ≤ p.length)
    (h : p.u16 (o + 2) < 4 ∨ left < p.u16 (o + 2) ∨ paramBufferSize < p.u16 (o + 2)) :
    loop bigEndian p (m + 1) o left w = some (w.read o 8, false) := by
  have hhead : (p.piece o 8).isNone = false := by
    rw [Option.isNone_eq_false_iff, Bytes.piece_isSome_iff]
    omega
  rw [loop, if_neg (by omega), hhead]
  dsimp only
  rw [if_neg Bool.false_ne_true]
  split_ifs <;> first | rfl | omega

theorem params_of_long {n o left : ℕ} (h : 8 ≤ left) :
    params p (n + 1) o left =
      o :: params p n (o + Bytes.size32 (p.u16 (o + 2))) (left - Bytes.size32 (p.u16 (o + 2))) :=
  if_neg (by omega)

theorem handled_of_stop {n o left : ℕ} (h : left < 8 ∨ p.u16 (o + 2) < 4 ∨ left < p.u16 (o + 2) ∨
    paramBufferSize < p.u16 (o + 2)) : handled p (n + 1) o left = [] := if_pos h

/-- A stretch that lies inside does not change whether all of them do. -/
theorem Walk.read_inside_iff (w : Walk) {lo hi o n : ℕ} (hlo : lo ≤ o) (hhi : o + n ≤ hi) :
    (∀ x ∈ (w.read o n).reads, lo ≤ x.1 ∧ x.1 + x.2 ≤ hi) ↔ ∀ x ∈ w.reads, lo ≤ x.1 ∧ x.1 + x.2 ≤ hi := by
  unfold Walk.read
  rw [List.forall_mem_append, List.forall_mem_singleton]
  exact and_iff_left ⟨hlo, hhi⟩

/-- The walk over a well-formed rest tells of the parameter before it as well. -/
theorem Walked.cons_params {sent unsent : List Aparam} {seen : List Report} {o : ℕ} {ps : List ℕ} {w : Walk} {b : Bool}
    (h : if ∀ q ∈ ps, p.u16 (q + 2) ≤ paramBufferSize then
        b = true ∧ Walked sent unsent
          ((seen ++ (reportAt bigEndian p o).toList) ++ ps.filterMap (reportAt bigEndian p)) w
      else b = false) (ho : p.u16 (o + 2) ≤ paramBufferSize) :
    if ∀ q ∈ o :: ps, p.u16 (q + 2) ≤ paramBufferSize then
      b = true ∧ Walked sent unsent (seen ++ (o :: ps).filterMap (reportAt bigEndian p)) w
    else b = false := by
  by_cases hall : ∀ q ∈ ps, p.u16 (q + 2) ≤ paramBufferSize
  · rw [if_pos hall] at h
    have hcons : ∀ q ∈ o :: ps, p.u16 (q + 2) ≤ paramBufferSize := by
      intro q hq
      rcases List.mem_cons.mp hq with rfl | hq
      · exact ho
      · exact hall q hq
    rw [if_pos hcons]
    refine ⟨h.1, ?_⟩
    have hwalked := h.2
    rw [List.append_assoc] at hwalked
    rw [List.filterMap_cons]
    cases hr : reportAt bigEndian p o with
    | none =>
      rw [hr] at hwalked
      exact hwalked
    | some r =>
      rw [hr] at hwalked
      exact hwalked
  · rw [if_neg hall] at h
    rw [if_neg fun hmore => hall fun q hq => hmore q (List.mem_cons_of_mem o hq)]
    exact h

/-- Where the padding is counted, only the stretch is read and the causes of errors, and what is well formed
and fits into the buffer is reported. -/
theorem loop_padded {sent unsent : List Aparam} (hsent : ∀ a ∈ sent, a.sent = true)
    (hunsent : ∀ a ∈ unsent, a.sent = false) (hids : (sent.map Aparam.correlationId).Nodup)
    {seen : List Report} {n m lo o left : ℕ} {w : Walk} (hw : Walked sent unsent seen w)
    (hP : Padded p n o left) (hlo : lo ≤ o) (hin : o + left ≤ p.length) (hl : left < 65536)
    (hn : left < 4 * n + 8) (hm : p.length < o + m) (hpos : 0 < m) :
    ∃ w' b, loop bigEndian p m o left w = some (w', b) ∧
      ((∀ x ∈ w'.reads, lo ≤ x.1 ∧ x.1 + x.2 ≤ o + left) ↔
        (∀ x ∈ w.reads, lo ≤ x.1 ∧ x.1 + x.2 ≤ o + left) ∧
          CausesInside bigEndian p (o + left) sent seen (handled p n o left)) ∧
      (WellFormed p n o left →
        if ∀ q ∈ params p n o left, p.u16 (q + 2) ≤ paramBufferSize then
          b = true ∧ Walked sent unsent (seen ++ (params p n o left).filterMap (reportAt bigEndian p)) w'
        else b = false) := by
  obtain ⟨m, rfl⟩ : ∃ k, m = k + 1 := ⟨m - 1, by omega⟩
  induction n generalizing m o left w seen with
  | zero =>
    refine ⟨w, true, if_pos (by omega), (and_iff_left trivial).symm, fun _ => ?_⟩
    rw [if_pos (by simp [params])]
    exact ⟨rfl, (List.append_nil seen).symm ▸ hw⟩
  | succ n ih =>
    by_cases h8 : left < 8
    · have hnone : params p (n + 1) o left = [] := if_pos h8
      rw [handled_of_stop (Or.inl h8)]
      refine ⟨w, true, if_pos h8, (and_iff_left trivial).symm, fun _ => ?_⟩
      rw [hnone, if_pos (by simp)]
      exact ⟨rfl, (List.append_nil seen).symm ▸ hw⟩
    have hhead := w.read_inside_iff hlo (show o + 8 ≤ o + left by omega)
    by_cases hstop : p.u16 (o + 2) < 4 ∨ left < p.u16 (o + 2) ∨ paramBufferSize < p.u16 (o + 2)
    · rw [handled_of_stop (Or.inr hstop)]
      refine ⟨w.read o 8, false, loop_stop (by omega) hin hstop, ?_, fun hwell => ?_⟩
      · rw [hhead]
        exact (and_iff_left trivial).symm
      rw [params_of_long (by omega), if_neg]
      intro hall
      have hfit := hall o List.mem_cons_self
      rcases hwell with hwell | ⟨hshort, hlong, -⟩ <;> omega
    have hpad : Bytes.size32 (p.u16 (o + 2)) ≤ left ∧
        Padded p n (o + Bytes.size32 (p.u16 (o + 2))) (left - Bytes.size32 (p.u16 (o + 2))) := by
      rcases hP with h | h | h | h | h
      · omega
      · omega
      · omega
      · omega
      · exact h
    have h4 := Bytes.four_le_size32 (n := p.u16 (o + 2)) (by omega)
    have hleft : (left + 65536 - Bytes.size32 (p.u16 (o + 2))) % 65536 =
        left - Bytes.size32 (p.u16 (o + 2)) := by omega
    have hend : o + Bytes.size32 (p.u16 (o + 2)) + (left - Bytes.size32 (p.u16 (o + 2))) = o + left := by
      omega
    have hbelow := Bytes.le_size32 (p.u16 (o + 2))
    have hm8 : p.length < o + Bytes.size32 (p.u16 (o + 2)) + (m - 1 + 1) := by omega
    have hhandled : handled p (n + 1) o left = o :: handled p n (o + Bytes.size32 (p.u16 (o + 2)))
        (left - Bytes.size32 (p.u16 (o + 2))) := if_neg (by omega)
    have hbody := ((w.read o 8).read_inside_iff hlo (show o + p.u16 (o + 2) ≤ o + left by omega)).trans hhead
    have hwr := (hw.read o 8).read o (p.u16 (o + 2))
    obtain ⟨w', b, hloop, hreads, hwhole⟩ := ih
      (hwr.reportOpt (p := p) hsent hunsent hids o (reportAt bigEndian p o)) hpad.2
      (by omega) (by omega) (by omega) (by omega) (m - 1) hm8 (by omega)
    rw [Nat.sub_add_cancel (by omega)] at hloop
    refine ⟨w', b, ?_, ?_, fun hwell => ?_⟩
    · rw [loop_step w (by omega) (by omega) hin (by omega) (by omega) (by omega), hleft]
      exact hloop
    · rw [hend] at hreads
      rw [hreads, hwr.reportOpt_inside_iff hsent hunsent hlo, hbody, hhandled, CausesInside, and_assoc]
    · have hwell : WellFormed p n (o + Bytes.size32 (p.u16 (o + 2)))
          (left - Bytes.size32 (p.u16 (o + 2))) := by
        rcases hwell with hwell | hwell
        · omega
        · exact hwell.2.2
      rw [params_of_long (by omega)]
      exact Walked.cons_params (hwhole hwell) (by omega)

/-- Where the padding is not counted, what is well formed is left behind, or not walked to its end. -/
theorem loop_unpadded {n m o left : ℕ} {w w' : Walk} {b : Bool} (hP : ¬ Padded p n o left)
    (hin : o + left ≤ p.length) (hl : left < 65536) (hm : p.length < o + m)
    (h : loop bigEndian p m o left w = some (w', b)) :
    WellFormed p n o left ∧ (b = false ∨ ∃ x ∈ w'.reads, o + left < x.1 + x.2) := by
  induction n generalizing m o left w with
  | zero => exact absurd trivial hP
  | succ n ih =>
    unfold Padded at hP
    push Not at hP
    obtain ⟨h8, hshort, hlong, hbuf, hrest⟩ := hP
    have hbelow := Bytes.le_size32 (p.u16 (o + 2))
    have h4 := Bytes.four_le_size32 (n := p.u16 (o + 2)) (by omega)
    obtain ⟨m, rfl⟩ : ∃ k, m = k + 1 := ⟨m - 1, by omega⟩
    rw [loop_step w (by omega) h8 hin hshort hlong hbuf] at h
    by_cases hpad : Bytes.size32 (p.u16 (o + 2)) ≤ left
    · have hleft : (left + 65536 - Bytes.size32 (p.u16 (o + 2))) % 65536 =
          left - Bytes.size32 (p.u16 (o + 2)) := by omega
      rw [hleft] at h
      obtain ⟨hwell, hend⟩ := ih (hrest hpad) (by omega) (by omega) (by omega) h
      refine ⟨Or.inr ⟨hshort, hlong, hwell⟩, hend.imp_right ?_⟩
      rintro ⟨x, hx, hbeyond⟩
      exact ⟨x, hx, by omega⟩
    · -- the sixteen bits wrap, and the walk goes on behind the chunk
      have hsize : Bytes.size32 (p.u16 (o + 2)) ≤ left + 3 := by
        unfold Bytes.size32
        omega
      have hwell : WellFormed p n (o + Bytes.size32 (p.u16 (o + 2)))
          (left - Bytes.size32 (p.u16 (o + 2))) := by
        cases n with
        | zero => trivial
        | succ n => exact Or.inl (by omega)
      refine ⟨Or.inr ⟨hshort, hlong, hwell⟩, ?_⟩
      obtain ⟨k, rfl⟩ : ∃ k, m = k + 1 := ⟨m - 1, by omega⟩
      rw [loop, if_neg (by omega)] at h
      split at h
      · exact Or.inl (Prod.mk.inj (Option.some.inj h)).2.symm
      · refine Or.inr ⟨(o + Bytes.size32 (p.u16 (o + 2)), 8), ?_, by dsimp only; omega⟩
        have hread : ∀ v : Walk,
            (o + Bytes.size32 (p.u16 (o + 2)), 8) ∈ (v.read (o + Bytes.size32 (p.u16 (o + 2))) 8).reads :=
          fun v => List.mem_append_right _ List.mem_cons_self
        dsimp only at h
        split_ifs at h
        · rw [← (Prod.mk.inj (Option.some.inj h)).1]
          exact hread _
        · rw [← (Prod.mk.inj (Option.some.inj h)).1]
          exact hread _
        · rw [← (Prod.mk.inj (Option.some.inj h)).1]
          exact hread _
        · rw [← (Prod.mk.inj (Option.some.inj h)).1]
          exact hread _
        · rw [← (Prod.mk.inj (Option.some.inj h)).1]
          exact Walk.reportOpt_reads _ _ _ (List.mem_append_left _ (hread _))
        · apply loop_reads h
          exact Walk.reportOpt_reads _ _ _ (List.mem_append_left _ (hread _))

/-- What the last error makes of a parameter without a report. -/
def settled (reports : List Report) (a : Aparam) : Bool :=
  match ownReport reports a with
  | some r => r.success
  | none => decide (a.correlationId < lastError reports)

section Whole

variable {asoc : Assoc} {c : AckChunk} {sent unsent : List Aparam}

theorem handle_eq (hserial : c.serialNumber = asoc.asconfSeqOutAcked + 1)
    (hout : c.serialNumber ≠ asoc.asconfSeqOut + 1) (h8 : 8 ≤ c.chunkLength) {w : Walk} {b : Bool}
    (h : loop bigEndian c.p (c.p.length + 1) (c.offset + 8) (c.chunkLength - 8)
      ⟨asoc.asconfQueue, 0#32, [], []⟩ = some (w, b)) :
    handleAsconfAck bigEndian asoc c =
      if b then
        some ⟨{ asoc with
            asconfQueue := (implicit (if w.lastErrorId = 0#32 then w.lastErrorId - 1 else w.lastErrorId)
              w.queue).2
            asconfSeqOutAcked := asoc.asconfSeqOutAcked + 1 },
          w.log ++ (implicit (if w.lastErrorId = 0#32 then w.lastErrorId - 1 else w.lastErrorId)
            w.queue).1, w.reads, .acked⟩
      else some ⟨{ asoc with asconfQueue := w.queue }, w.log, w.reads, .cleared⟩ := by
  unfold handleAsconfAck
  rw [if_neg (by omega), if_neg hout, if_neg (not_not.mpr hserial), h]
  cases b <;> rfl

/-- What the function makes of a well formed chunk that it reads to its end. -/
theorem handle_whole (hsent : ∀ a ∈ sent, a.sent = true) (hunsent : ∀ a ∈ unsent, a.sent = false)
    (hserial : c.serialNumber = asoc.asconfSeqOutAcked + 1)
    (hout : c.serialNumber ≠ asoc.asconfSeqOut + 1) (h8 : 8 ≤ c.chunkLength) {w : Walk}
    (h : loop bigEndian c.p (c.p.length + 1) (c.offset + 8) (c.chunkLength - 8)
      ⟨asoc.asconfQueue, 0#32, [], []⟩ = some (w, true))
    (hwalked : Walked sent unsent (c.reports bigEndian) w) :
    ∃ r, handleAsconfAck bigEndian asoc c = some r ∧ r.reads = w.reads ∧
      r.log.Perm (sent.map fun a => (a, settled (c.reports bigEndian) a)) ∧
      r.asoc = { asoc with asconfQueue := unsent, asconfSeqOutAcked := asoc.asconfSeqOutAcked + 1 } := by
  have hrest : implicit (if w.lastErrorId = 0#32 then w.lastErrorId - 1 else w.lastErrorId) w.queue =
      ((sent.filter fun a => (reported (c.reports bigEndian) a).isNone).map
        fun a => (a, decide (a.correlationId < lastError (c.reports bigEndian))), unsent) := by
    rw [hwalked.queue, hwalked.last]
    exact implicit_append (fun a ha => hsent a (List.mem_of_mem_filter ha)) hunsent _
  refine ⟨_, handle_eq hserial hout h8 h, rfl, ?_, ?_⟩
  · rw [hrest]
    refine (hwalked.log.append_right _).trans ?_
    refine (filterMap_append_perm_map sent _ _).trans ?_
    apply List.Perm.of_eq
    apply List.map_congr_left
    intro a _
    unfold reported settled
    cases ownReport (c.reports bigEndian) a <;> rfl
  · rw [hrest]

theorem foldr_min_le_iff {l : List ℕ} {b x : ℕ} :
    l.foldr min b ≤ x ↔ b ≤ x ∨ ∃ y ∈ l, y ≤ x := by
  induction l with
  | nil => simp
  | cons y l ih =>
    rw [List.foldr_cons, min_le_iff, ih]
    simp only [List.mem_cons, exists_eq_or_imp]
    tauto

theorem spoiled_iff_le {reports : List Report} {a : Aparam} :
    Spoiled sent reports a ↔ firstFailed sent reports ≤ a.correlationId.toNat := by
  unfold Spoiled firstFailed
  rw [foldr_min_le_iff, or_iff_right (not_le.2 a.correlationId.isLt)]
  simp only [List.mem_map, List.mem_filter, Bool.and_eq_true, Bool.not_eq_true', List.any_eq_true,
    decide_eq_true_eq, exists_exists_and_eq_and, BitVec.le_def]
  constructor
  · rintro ⟨r, hr, hfail, hle, b, hb, hid⟩
    exact ⟨r, ⟨hr, hfail, b, hb, hid⟩, hle⟩
  · rintro ⟨r, ⟨hr, hfail, b, hb, hid⟩, hle⟩
    exact ⟨r, hr, hfail, hle, b, hb, hid⟩

theorem settled_eq_verdict_iff {reports : List Report} {a : Aparam} :
    settled reports a = verdict sent reports a ↔
      (ownReport reports a = none →
        a.correlationId.toNat < min (firstFailed sent reports) (lastError reports).toNat ∨
          max (firstFailed sent reports) (lastError reports).toNat ≤ a.correlationId.toNat) := by
  unfold settled verdict
  cases ownReport reports a with
  | some r => simp
  | none =>
    rw [Bool.eq_iff_iff]
    simp only [decide_eq_true_eq, Bool.not_eq_true', decide_eq_false_iff_not, spoiled_iff_le,
      BitVec.lt_def, forall_const]
    omega

/-- Resolving a chunk that was read to its end. -/
theorem resolves_iff_noneBetween {r : Result}
    (hr : handleAsconfAck bigEndian asoc c = some r)
    (hreads : ∀ x ∈ r.reads, c.offset ≤ x.1 ∧ x.1 + x.2 ≤ c.offset + c.chunkLength)
    (hwell : c.WellFormed)
    (hlog : r.log.Perm (sent.map fun a => (a, settled (c.reports bigEndian) a)))
    (hasoc : r.asoc =
      { asoc with asconfQueue := unsent, asconfSeqOutAcked := asoc.asconfSeqOutAcked + 1 }) :
    Resolves bigEndian asoc c sent unsent ↔ NoneBetween sent (c.reports bigEndian) := by
  constructor
  · rintro ⟨r', hr', -, hresolved⟩ a ha
    rw [← Option.some.inj (hr.symm.trans hr')] at hresolved
    have hmem : (a, settled (c.reports bigEndian) a) ∈
        sent.map fun a => (a, verdict sent (c.reports bigEndian) a) :=
      (hlog.symm.trans (hresolved hwell).1).mem_iff.mp (List.mem_map.mpr ⟨a, ha, rfl⟩)
    obtain ⟨b, -, hb⟩ := List.mem_map.mp hmem
    obtain ⟨rfl, hverdict⟩ := Prod.mk.inj hb
    exact settled_eq_verdict_iff.mp hverdict.symm
  · intro hbetween
    refine ⟨r, hr, hreads, fun _ => ⟨hlog.trans (List.Perm.of_eq ?_), hasoc⟩⟩
    apply List.map_congr_left
    intro a ha
    rw [settled_eq_verdict_iff.mpr (hbetween a ha)]

/-- A well formed chunk is resolved if and only if its parameters are padded and fit into the buffer and no
parameter lies between the first failure and the last error; and only a chunk with all its padding and with
the causes of its errors is not walked out of. -/
theorem handleAsconfAck_resolves_iff (hq : asoc.asconfQueue = sent ++ unsent)
    (hsent : ∀ a ∈ sent, a.sent = true) (hunsent : ∀ a ∈ unsent, a.sent = false)
    (hinc : sent.Pairwise fun a b => a.correlationId < b.correlationId)
    (hserial : c.serialNumber = asoc.asconfSeqOutAcked + 1)
    (hout : c.serialNumber ≠ asoc.asconfSeqOut + 1) (h8 : 8 ≤ c.chunkLength) :
    Resolves bigEndian asoc c sent unsent ↔
      c.Padded ∧ c.CausesInside bigEndian sent ∧
        (c.WellFormed → c.Small ∧ NoneBetween sent (c.reports bigEndian)) := by
  have hids : (sent.map Aparam.correlationId).Nodup := by
    rw [List.nodup_iff_pairwise_ne, List.pairwise_map]
    exact hinc.imp fun hlt => BitVec.ne_of_lt hlt
  have hlength := c.length_lt
  have hinside := c.inside
  have hfuel : c.p.length < c.offset + 8 + (c.p.length + 1) := by omega
  have hnext : asoc.asconfSeqOutAcked ≠ asoc.asconfSeqOutAcked + 1 := by
    intro heq
    have h1 : (1#32) = 0#32 := by
      rw [← BitVec.add_right_inj asoc.asconfSeqOutAcked, BitVec.add_zero]
      exact heq.symm
    exact absurd h1 (by decide)
  have hends : (loop bigEndian c.p (c.p.length + 1) (c.offset + 8) (c.chunkLength - 8)
      ⟨asoc.asconfQueue, 0#32, [], []⟩).isSome := loop_isSome hfuel (Nat.succ_pos _)
  obtain ⟨⟨w, b⟩, hloop⟩ := Option.isSome_iff_exists.mp hends
  have hcleared : b = false → ∀ r, handleAsconfAck bigEndian asoc c = some r →
      r.asoc.asconfSeqOutAcked ≠ asoc.asconfSeqOutAcked + 1 := by
    rintro rfl r hr
    rw [handle_eq hserial hout h8 hloop, if_neg Bool.false_ne_true] at hr
    rw [← Option.some.inj hr]
    exact hnext
  have hresult : ∀ r, handleAsconfAck bigEndian asoc c = some r → r.reads = w.reads := by
    intro r hr
    rw [handle_eq hserial hout h8 hloop] at hr
    cases b <;> rw [← Option.some.inj hr]
  by_cases hpadded : c.Padded
  · have hstart : Walked sent unsent [] ⟨asoc.asconfQueue, 0#32, [], []⟩ := hq ▸ walked_nil sent unsent
    have hlo : c.offset ≤ c.offset + 8 := Nat.le_add_right _ _
    obtain ⟨w', b', hloop', hin, hwhole⟩ : ∃ w' b', loop bigEndian c.p _ _ _ _ = some (w', b') ∧ _ :=
      loop_padded hsent hunsent hids hstart hpadded hlo (by omega) (by omega) (by omega) hfuel
        (Nat.succ_pos _)
    obtain ⟨rfl, rfl⟩ := Prod.mk.inj (Option.some.inj (hloop'.symm.trans hloop))
    rw [show c.offset + 8 + (c.chunkLength - 8) = c.offset + c.chunkLength by omega] at hin
    have hnil : ∀ x ∈ (⟨asoc.asconfQueue, 0#32, [], []⟩ : Walk).reads,
        c.offset ≤ x.1 ∧ x.1 + x.2 ≤ c.offset + c.chunkLength := fun x hx =>
      absurd hx List.not_mem_nil
    have hreads : (∀ x ∈ w'.reads, c.offset ≤ x.1 ∧ x.1 + x.2 ≤ c.offset + c.chunkLength) ↔
        c.CausesInside bigEndian sent := hin.trans (and_iff_right hnil)
    by_cases hcauses : c.CausesInside bigEndian sent
    · have hreads := hreads.mpr hcauses
      by_cases hwell : c.WellFormed
      · by_cases hsmall : c.Small
        · obtain ⟨rfl, hw⟩ := Eq.mp (if_pos hsmall) (hwhole hwell)
          obtain ⟨r, hr, hrreads, hlog, hasoc⟩ := handle_whole hsent hunsent hserial hout h8 hloop hw
          rw [resolves_iff_noneBetween hr (by rw [hrreads]; exact hreads) hwell hlog hasoc]
          exact ⟨fun h => ⟨hpadded, hcauses, fun _ => ⟨hsmall, h⟩⟩, fun h => (h.2.2 hwell).2⟩
        · have hif : b' = false := Eq.mp (if_neg hsmall) (hwhole hwell)
          refine iff_of_false ?_ fun h => hsmall (h.2.2 hwell).1
          rintro ⟨r, hr, -, hresolved⟩
          exact hcleared hif r hr (by rw [(hresolved hwell).2])
      · refine iff_of_true ?_ ⟨hpadded, hcauses, fun h => absurd h hwell⟩
        rw [Resolves, handle_eq hserial hout h8 hloop]
        cases b' with
        | true => exact ⟨_, rfl, hreads, fun h => absurd h hwell⟩
        | false => exact ⟨_, rfl, hreads, fun h => absurd h hwell⟩
    · refine iff_of_false ?_ fun h => hcauses h.2.1
      rintro ⟨r, hr, hall, -⟩
      rw [hresult r hr] at hall
      exact hcauses (hreads.mp hall)
  · refine iff_of_false ?_ fun h => hpadded h.1
    rintro ⟨r, hr, hreads, hresolved⟩
    obtain ⟨hwell, hend⟩ := loop_unpadded hpadded (by omega) (by omega) hfuel hloop
    have hasoc := (hresolved hwell).2
    rcases hend with hfalse | ⟨x, hx, hbeyond⟩
    · exact hcleared hfalse r hr (by rw [hasoc])
    · have := (hreads x (hresult r hr ▸ hx)).2
      omega

end Whole

def reportedAck : AckChunk where
  p := [0x80, 0, 0, 16, 0, 0, 0, 7, 0xc0, 0x05, 0, 8, 0, 0, 0, 1]
  offset := 0
  chunkLength := 16
  serialNumber := 7
  length_lt := by decide
  inside := by decide

theorem reportedAck_resolved :
    Resolves true ⟨8, 6, [⟨0xc001, 1, true⟩, ⟨0xc002, 2, true⟩, ⟨0xc001, 3, false⟩]⟩ reportedAck
      [⟨0xc001, 1, true⟩, ⟨0xc002, 2, true⟩] [⟨0xc001, 3, false⟩] := by
  apply (handleAsconfAck_resolves_iff rfl (by decide) (by decide) (by decide) (by decide) (by decide)
    (by decide)).mpr
  refine ⟨Or.inr (Or.inr (Or.inr (Or.inr ⟨by decide, Or.inl (by decide)⟩))), ?_, fun _ => ⟨?_, ?_⟩⟩
  · have hone : handled reportedAck.p reportedAck.p.length (reportedAck.offset + 8)
        (reportedAck.chunkLength - 8) = [8] := by decide +kernel
    rw [AckChunk.CausesInside, hone]
    refine ⟨fun r hr hfirst => ?_, trivial⟩
    have hreport : reportAt true reportedAck.p 8 = some ⟨1, true⟩ := by decide +kernel
    obtain rfl := Option.some.inj (hr.symm.trans hreport)
    cases hfirst.1
  · change ∀ o ∈ reportedAck.params, reportedAck.p.u16 (o + 2) ≤ paramBufferSize
    decide +kernel
  · unfold NoneBetween
    decide +kernel

/-- The last parameter has nine bytes, and its padding is not counted. -/
def unpaddedAck : AckChunk where
  p := [0x80, 0, 0, 17, 0, 0, 0, 7, 0xc0, 0x05, 0, 9, 0, 0, 0, 1, 0, 0, 0, 0, 0xc0, 0x03, 0, 8, 0, 0, 0, 2]
  offset := 0
  chunkLength := 17
  serialNumber := 7
  length_lt := by decide
  inside := by decide

def twoErrorsAck : AckChunk where
  p := [0x80, 0, 0, 24, 0, 0, 0, 7, 0xc0, 0x03, 0, 8, 0, 0, 0, 1, 0xc0, 0x03, 0, 8, 0, 0, 0, 3]
  offset := 0
  chunkLength := 24
  serialNumber := 7
  length_lt := by decide
  inside := by decide

def bareErrorAck : AckChunk where
  p := [0x80, 0, 0, 16, 0, 0, 0, 7, 0xc0, 0x03, 0, 8, 0, 0, 0, 1]
  offset := 0
  chunkLength := 16
  serialNumber := 7
  length_lt := by decide
  inside := by decide

/-- An error that stands behind the chunk is read, the second parameter is taken as done between two that
failed, and the cause of an error is looked for behind the chunk. -/
theorem unpaddedAck_not_resolved :
    ¬ Resolves true ⟨8, 6, [⟨0xc001, 1, true⟩, ⟨0xc002, 2, true⟩]⟩ unpaddedAck
        [⟨0xc001, 1, true⟩, ⟨0xc002, 2, true⟩] [] ∧
      ¬ Resolves true ⟨8, 6, [⟨0xc001, 1, true⟩, ⟨0xc001, 2, true⟩, ⟨0xc001, 3, true⟩]⟩ twoErrorsAck
        [⟨0xc001, 1, true⟩, ⟨0xc001, 2, true⟩, ⟨0xc001, 3, true⟩] [] ∧
      ¬ Resolves true ⟨8, 6, [⟨0xc001, 1, true⟩]⟩ bareErrorAck [⟨0xc001, 1, true⟩] [] := by
  refine ⟨?_, ?_, ?_⟩
  · rintro ⟨r, hr, hreads, -⟩
    have hbeyond : (handleAsconfAck true ⟨8, 6, [⟨0xc001, 1, true⟩, ⟨0xc002, 2, true⟩]⟩ unpaddedAck).all
        (fun r => decide ((20, 8) ∈ r.reads)) := by decide +kernel
    rw [hr] at hbeyond
    exact absurd (hreads _ (of_decide_eq_true hbeyond)).2 (by decide)
  · rintro ⟨r, hr, -, hwhole⟩
    have hdone : (handleAsconfAck true ⟨8, 6, [⟨0xc001, 1, true⟩, ⟨0xc001, 2, true⟩, ⟨0xc001, 3, true⟩]⟩
        twoErrorsAck).all (fun r => decide (((⟨0xc001, 2, true⟩ : Aparam), true) ∈ r.log)) := by
      decide +kernel
    rw [hr] at hdone
    have hwell : twoErrorsAck.WellFormed :=
      Or.inr ⟨by decide, by decide, Or.inr ⟨by decide, by decide, Or.inl (by decide)⟩⟩
    exact absurd ((hwhole hwell).1.mem_iff.mp (of_decide_eq_true hdone)) (by decide +kernel)
  · rintro ⟨r, hr, hreads, -⟩
    have hbeyond : (handleAsconfAck true ⟨8, 6, [⟨0xc001, 1, true⟩]⟩ bareErrorAck).all
        (fun r => decide ((18, 2) ∈ r.reads)) := by decide +kernel
    rw [hr] at hbeyond
    exact absurd (hreads _ (of_decide_eq_true hbeyond)).2 (by decide)

end Sctp.Asconf.Ack
