import Sctp.Lib.Attempt
import Sctp.Receiver.Process

/-! What the functions on a stream do to the TSN maps: they make TSNs of waiting data non-revokable
and nothing else. -/
namespace Sctp

/-- The TSNs of a control and of its fragments are in `P`. -/
structure Control.Within (P : Tsn → Prop) (c : Control) : Prop where
  tsn : P c.sinfoTsn
  reasm : ∀ chk ∈ c.reasm, P chk.tsn

structure StreamIn.Within (P : Tsn → Prop) (strm : StreamIn) : Prop where
  inqueue : ∀ c ∈ strm.inqueue, c.Within P
  unoInqueue : ∀ c ∈ strm.unoInqueue, c.Within P

/-- The maps satisfy `I`, and what waits on the stream is in `P`. -/
structure StreamRx.Kept (I : TsnMap → Prop) (P : Tsn → Prop) (s : StreamRx) : Prop where
  map : I s.toTsnMap
  within : s.strm.Within P

@[simp] theorem RecvAsoc.addToReadq_toTsnMap (asoc : RecvAsoc) (control : Control) (last : Bool) :
    (asoc.addToReadq control last).toTsnMap = asoc.toTsnMap := by
  unfold RecvAsoc.addToReadq
  split <;> rfl

namespace StreamRx

variable {I : TsnMap → Prop} {P : Tsn → Prop} {s : StreamRx} {control : Control}

theorem Kept.put (h : s.Kept I P) (hc : control.Within P) : (s.put control).Kept I P := by
  have hput : ∀ q : List Control, (∀ c ∈ q, c.Within P) → ∀ c ∈ q.map control.put, c.Within P := by
    intro q hq c hmem
    obtain ⟨x, hx, rfl⟩ := List.mem_map.1 hmem
    unfold Control.put
    split
    · exact hc
    · exact hq x hx
  exact ⟨h.map, hput _ h.within.inqueue, hput _ h.within.unoInqueue⟩

theorem Kept.unoInqueue (h : s.Kept I P) {q : List Control} (hq : ∀ c ∈ q, c.Within P) (t : StreamIn)
    (ht : t.inqueue = s.strm.inqueue ∧ t.unoInqueue = q) : Kept I P { s with strm := t } :=
  ⟨h.map, by rw [ht.1]; exact h.within.inqueue, by rw [ht.2]; exact hq⟩

end StreamRx

open StreamRx

section

variable {cfg : RecvConfig} {I : TsnMap → Prop} {P : Tsn → Prop}
  (hI : ∀ m t, P t → I m → I (m.markNonRevokable cfg.doDrain t))

theorem mem_insertByMsgId {control c : Control} {q q' : List Control}
    (h : insertByMsgId control q = some q') (hc : c ∈ q') : c = control ∨ c ∈ q := by
  induction q generalizing q' with
  | nil =>
    cases h
    exact .inl (List.mem_singleton.1 hc)
  | cons x q ih =>
    unfold insertByMsgId at h
    split_ifs at h
    · cases h
      exact List.mem_cons.1 hc
    · obtain ⟨r, hr, rfl⟩ := Option.map_eq_some_iff.1 h
      obtain rfl | hc := List.mem_cons.1 hc
      · exact .inr List.mem_cons_self
      · exact (ih hr hc).imp_right (List.mem_cons_of_mem x)

theorem wholeControl_within {control : Control} (h : control.Within P) :
    (wholeControl control).Within P := by
  unfold wholeControl
  split
  · exact ⟨h.tsn, h.reasm⟩
  · exact h

theorem placeControlInStream_kept {s : StreamRx} {control : Control} {r : StreamRx × Bool}
    (hs : s.Kept I P) (hc : control.Within P) (h : placeControlInStream s control = .ok r) :
    r.1.Kept I P := by
  unfold placeControlInStream at h
  split at h
  · unfold placeUnordered at h
    split at h
    · split at h
      · cases h
      · cases h
        refine ⟨hs.map, hs.within.inqueue, fun c hmem => ?_⟩
        obtain rfl | hmem := List.mem_cons.1 hmem
        · exact hc
        · exact hs.within.unoInqueue c hmem
    · cases h
      refine ⟨hs.map, hs.within.inqueue, fun c hmem => ?_⟩
      obtain hmem | hmem := List.mem_append.1 hmem
      · exact hs.within.unoInqueue c hmem
      · exact List.mem_singleton.1 hmem ▸ hc
  · split at h
    · rename_i q hq
      cases h
      refine ⟨hs.map, fun c hmem => ?_, hs.within.unoInqueue⟩
      obtain rfl | hmem := mem_insertByMsgId hq hmem
      · exact wholeControl_within hc
      · exact hs.within.inqueue c hmem
    · cases h
      exact ⟨hs.map, hs.within⟩

include hI

theorem deliverSingle_kept {s : StreamRx} {control : Control} (hs : s.Kept I P) (hc : control.Within P) :
    (deliverSingle cfg s control).Kept I P := by
  refine ⟨?_, hs.within.inqueue, hs.within.unoInqueue⟩
  rw [deliverSingle, RecvAsoc.addToReadq_toTsnMap]
  exact hI _ _ hc.tsn hs.map

theorem drainInqueue_kept {q : List Control} {s : StreamRx} (hs : s.Kept I P)
    (hq : ∀ c ∈ q, c.Within P) : (drainInqueue cfg q s).1.Kept I P := by
  induction q generalizing s with
  | nil => exact ⟨hs.map, fun c hc => absurd hc List.not_mem_nil, hs.within.unoInqueue⟩
  | cons control q ih =>
    have hstay : StreamRx.Kept I P { s with strm := { s.strm with inqueue := control :: q } } :=
      ⟨hs.map, hq, hs.within.unoInqueue⟩
    unfold drainInqueue
    split
    · split
      · have hc := hq control List.mem_cons_self
        have hout : StreamRx.Kept I P { s with toRecvAsoc := s.toRecvAsoc.countOut control } := ⟨hs.map, hs.within⟩
        exact ih (deliverSingle_kept hI hout hc) fun c hc => hq c (List.mem_cons_of_mem control hc)
      · exact hstay
    · exact hstay

theorem queueDataToStream_kept {s : StreamRx} {control : Control} {r : StreamRx × Bool}
    (hs : s.Kept I P) (hc : control.Within P) (h : queueDataToStream cfg s control = .ok r) :
    r.1.Kept I P := by
  unfold queueDataToStream at h
  dsimp only at h
  split at h
  · cases h
  · split at h
    · cases h
      have hin : StreamRx.Kept I P { s with
          toRecvAsoc := (s.toRecvAsoc.countIn control).countOut control } := ⟨hs.map, hs.within⟩
      exact drainInqueue_kept hI (deliverSingle_kept hI hin hc) hs.within.inqueue
    · obtain ⟨x, hx, heq⟩ := Attempt.map_ok h
      have hin : StreamRx.Kept I P { s with toRecvAsoc := s.toRecvAsoc.countIn control } := ⟨hs.map, hs.within⟩
      rw [← heq]
      exact placeControlInStream_kept (r := x) hin hc hx

theorem foldl_merged_kept {chks : List RecvChunk} {asoc : RecvAsoc} (h : I asoc.toTsnMap)
    (hchks : ∀ chk ∈ chks, P chk.tsn) :
    I (chks.foldl (RecvAsoc.merged cfg.doDrain) asoc).toTsnMap := by
  induction chks generalizing asoc with
  | nil => exact h
  | cons chk chks ih =>
    exact ih (hI _ _ (hchks chk List.mem_cons_self) h) fun c hc => hchks c (List.mem_cons_of_mem chk hc)

theorem buildOneUpTo_kept {s : StreamRx} {chks : List RecvChunk} {fchk : RecvChunk} (hs : s.Kept I P)
    (hchks : ∀ chk ∈ chks, P chk.tsn) : (buildOneUpTo cfg s chks fchk).Kept I P := by
  refine ⟨?_, hs.within⟩
  rw [buildOneUpTo]
  dsimp only
  rw [RecvAsoc.addToReadq_toTsnMap]
  exact foldl_merged_kept hI hs.map hchks

theorem buildPdUnordered_kept {s : StreamRx} {chks : List RecvChunk} {fchk : RecvChunk}
    (hs : s.Kept I P) (hchks : ∀ chk ∈ chks, P chk.tsn) :
    (buildPdUnordered cfg s chks fchk).Kept I P := by
  refine ⟨?_, hs.within.inqueue, hs.within.unoInqueue⟩
  rw [buildPdUnordered]
  dsimp only
  rw [RecvAsoc.addToReadq_toTsnMap]
  exact foldl_merged_kept hI hs.map hchks

theorem appendRun_kept {q : List RecvChunk} {asoc : RecvAsoc} (control : Control)
    (h : I asoc.toTsnMap) (hq : ∀ chk ∈ q, P chk.tsn) :
    I (appendRun cfg q asoc control).2.1.toTsnMap ∧ ∀ chk ∈ (appendRun cfg q asoc control).1, P chk.tsn := by
  induction q generalizing asoc control with
  | nil => exact ⟨h, hq⟩
  | cons chk q ih =>
    have hrest : ∀ c ∈ q, P c.tsn := fun c hc => hq c (List.mem_cons_of_mem chk hc)
    have hmerged := hI _ _ (hq chk List.mem_cons_self) h
    unfold appendRun
    split
    · dsimp only
      split
      · exact ⟨hmerged, hrest⟩
      · exact ih _ hmerged hrest
    · exact ⟨h, hq⟩

theorem appendPd_kept {s : StreamRx} (pd : Control) {reasm : List RecvChunk} (hs : s.Kept I P)
    (hreasm : ∀ chk ∈ reasm, P chk.tsn) :
    (appendPd cfg s pd reasm).2.Kept I P ∧ ∀ chk ∈ (appendPd cfg s pd reasm).1, P chk.tsn := by
  obtain ⟨hmap, hrest⟩ := appendRun_kept hI pd hs.map hreasm
  exact ⟨⟨hmap, hs.within.inqueue, hs.within.unoInqueue⟩, hrest⟩

theorem handleOldDataLoop_kept (fuel : ℕ) {reasm : List RecvChunk} {s : StreamRx} (hs : s.Kept I P)
    (hreasm : ∀ chk ∈ reasm, P chk.tsn) :
    (handleOldDataLoop cfg fuel reasm s).2.Kept I P ∧
      ∀ chk ∈ (handleOldDataLoop cfg fuel reasm s).1, P chk.tsn := by
  induction fuel generalizing reasm s with
  | zero =>
    unfold handleOldDataLoop
    exact ⟨hs, hreasm⟩
  | succ fuel ih =>
    cases reasm with
    | nil =>
      unfold handleOldDataLoop
      exact ⟨hs, hreasm⟩
    | cons fchk rest =>
      have hdrop : ∀ k, ∀ chk ∈ (fchk :: rest).drop k, P chk.tsn :=
        fun k chk hc => hreasm chk (List.mem_of_mem_drop hc)
      have htake : ∀ k, ∀ chk ∈ (fchk :: rest).take k, P chk.tsn :=
        fun k chk hc => hreasm chk (List.mem_of_mem_take hc)
      unfold handleOldDataLoop
      split
      · split
        · exact ⟨hs, hreasm⟩
        · dsimp only
          split
          · exact ih (buildOneUpTo_kept hI hs (htake _)) (hdrop _)
          · split
            · exact ⟨buildPdUnordered_kept hI hs (htake _), hdrop _⟩
            · exact ⟨hs, hreasm⟩
      · rename_i pd _
        obtain ⟨hkept, hrest⟩ := appendPd_kept hI pd hs hreasm
        dsimp only
        split
        · exact ih hkept hrest
        · exact ⟨hkept, hrest⟩

theorem handleOldData_kept {s : StreamRx} {control : Control} (hs : s.Kept I P) (hc : control.Within P) :
    (handleOldData cfg s control).Kept I P := by
  obtain ⟨hkept, hrest⟩ := handleOldDataLoop_kept hI (control.reasm.length + 1) hs hc.reasm
  exact hkept.put ⟨hc.tsn, hrest⟩

omit hI in
theorem deliverUnordered_kept {q : List Control} {s : StreamRx} {r : List Control × StreamRx}
    (hs : s.Kept I P) (hq : ∀ c ∈ q, c.Within P) (h : deliverUnordered cfg q s = .ok r) :
    r.2.Kept I P ∧ ∀ c ∈ r.1, c.Within P := by
  induction q generalizing s r with
  | nil =>
    cases h
    exact ⟨hs, hq⟩
  | cons control q ih =>
    have hc := hq control List.mem_cons_self
    have hrest : ∀ c ∈ q, c.Within P := fun c hc => hq c (List.mem_cons_of_mem control hc)
    have hread : I (s.toRecvAsoc.addToReadq control control.endAdded).toTsnMap := by
      rw [RecvAsoc.addToReadq_toTsnMap]
      exact hs.map
    unfold deliverUnordered at h
    split at h
    · refine ih ?_ hrest h
      split
      · exact hs
      · exact ⟨hread, hs.within⟩
    · split at h
      · split at h
        · cases h
        · cases h
          refine ⟨⟨hread, hs.within.inqueue, hs.within.unoInqueue⟩, fun c hmem => ?_⟩
          obtain rfl | hmem := List.mem_cons.1 hmem
          · exact ⟨hc.tsn, hc.reasm⟩
          · exact hrest c hmem
      · obtain ⟨r', hr', rfl⟩ := Attempt.map_ok h
        obtain ⟨hkept, hleft⟩ := ih hs hrest hr'
        refine ⟨hkept, fun c hmem => ?_⟩
        obtain rfl | hmem := List.mem_cons.1 hmem
        · exact hc
        · exact hleft c hmem

theorem deliverNext_kept {s : StreamRx} {control : Control} (hs : s.Kept I P) (hc : control.Within P) :
    (deliverNext cfg s control).Kept I P := by
  refine ⟨?_, hs.within.inqueue, hs.within.unoInqueue⟩
  rw [deliverNext, RecvAsoc.addToReadq_toTsnMap]
  dsimp only
  split
  · exact hI _ _ hc.tsn hs.map
  · exact hs.map

theorem deliverMore_kept {q : List Control} {lag : Bool} {s : StreamRx} (hs : s.Kept I P)
    (hq : ∀ c ∈ q, c.Within P) : (deliverMore cfg lag q s).1.Kept I P := by
  induction q generalizing lag s with
  | nil => exact ⟨hs.map, fun c hc => absurd hc List.not_mem_nil, hs.within.unoInqueue⟩
  | cons control q ih =>
    have hc := hq control List.mem_cons_self
    have hrest : ∀ c ∈ q, c.Within P := fun c hc => hq c (List.mem_cons_of_mem control hc)
    have hnext := deliverNext_kept hI hs hc
    unfold deliverMore
    dsimp only
    split
    · refine ⟨hs.map, fun c hmem => ?_, hs.within.unoInqueue⟩
      dsimp only at hmem
      split at hmem
      · exact hrest c hmem
      · exact hq c hmem
    · split
      · exact ih hs hrest
      · split
        · split
          · split
            · exact ih hnext hrest
            · exact ⟨hnext.map, hrest, hnext.within.unoInqueue⟩
          · refine ⟨hnext.map, fun c hmem => ?_, hnext.within.unoInqueue⟩
            obtain rfl | hmem := List.mem_cons.1 hmem
            · exact ⟨hc.tsn, hc.reasm⟩
            · exact hrest c hmem
        · exact ⟨hs.map, hq, hs.within.unoInqueue⟩

omit hI in
theorem deliverUnorderedFrom_kept {s t : StreamRx} {k : ℕ} (hs : s.Kept I P)
    (h : deliverUnorderedFrom cfg k s = .ok t) : t.Kept I P := by
  obtain ⟨r, hr, rfl⟩ := Attempt.map_ok h
  have hdrop : ∀ c ∈ s.strm.unoInqueue.drop k, c.Within P :=
    fun c hc => hs.within.unoInqueue c (List.mem_of_mem_drop hc)
  obtain ⟨hkept, hleft⟩ := deliverUnordered_kept hs hdrop hr
  refine ⟨hkept.map, hkept.within.inqueue, fun c hmem => ?_⟩
  obtain hmem | hmem := List.mem_append.1 hmem
  · exact hs.within.unoInqueue c (List.mem_of_mem_take hmem)
  · exact hleft c hmem

/-- The part of `sctp_deliver_reasm_check` behind the old data. -/
theorem deliverRest_kept {s : StreamRx} {lost : Bool} {k : ℕ} {r : StreamRx × ℕ} (hs : s.Kept I P)
    (h : (if lost = true then Except.error Fault.crash
      else if s.strm.pdApiStarted = true then .ok (s, 0)
      else (deliverUnorderedFrom cfg k s).map fun t => deliverMore cfg false t.strm.inqueue t) = .ok r) :
    r.1.Kept I P := by
  split at h
  · cases h
  · split at h
    · cases h
      exact hs
    · obtain ⟨t, ht, rfl⟩ := Attempt.map_ok h
      have hfrom := deliverUnorderedFrom_kept hs ht
      exact deliverMore_kept hI hfrom hfrom.within.inqueue

theorem deliverReasmCheck_kept {s : StreamRx} {r : StreamRx × ℕ} (hs : s.Kept I P)
    (h : deliverReasmCheck cfg s = .ok r) : r.1.Kept I P := by
  unfold deliverReasmCheck at h
  dsimp only at h
  cases hold : s.strm.unoInqueue.head?.filter (·.oldData) with
  | none =>
    rw [hold] at h
    exact deliverRest_kept hI hs h
  | some control =>
    rw [hold] at h
    have hmem : control ∈ s.strm.unoInqueue :=
      List.mem_of_mem_head? (Option.mem_filter_iff.1 hold).1
    exact deliverRest_kept hI (handleOldData_kept hI hs (hs.within.unoInqueue control hmem)) h

omit hI in
theorem mem_insertByFsn {chk c : RecvChunk} {q q' : List RecvChunk} (h : insertByFsn chk q = some q')
    (hc : c ∈ q') : c = chk ∨ c ∈ q := by
  induction q generalizing q' with
  | nil =>
    cases h
    exact .inl (List.mem_singleton.1 hc)
  | cons x q ih =>
    unfold insertByFsn at h
    split_ifs at h
    · cases h
      exact List.mem_cons.1 hc
    · obtain ⟨r, hr, rfl⟩ := Option.map_eq_some_iff.1 h
      obtain rfl | hc := List.mem_cons.1 hc
      · exact .inr List.mem_cons_self
      · exact (ih hr hc).imp_right (List.mem_cons_of_mem x)

omit hI in
theorem queueFragment_kept {s : StreamRx} {control : Control} {chk : RecvChunk} (hs : s.Kept I P)
    (hc : control.Within P) (hchk : P chk.tsn) :
    (queueFragment s control chk).1.Kept I P ∧ (queueFragment s control chk).2.1.Within P := by
  unfold queueFragment
  split
  · rename_i q hq
    refine ⟨⟨hs.map, hs.within⟩, hc.tsn, fun c hmem => ?_⟩
    obtain rfl | hmem := mem_insertByFsn hq hmem
    · exact hchk
    · exact hc.reasm c hmem
  · exact ⟨hs, hc⟩

theorem suckUp_kept {q : List RecvChunk} {s : StreamRx} (control : Control) (hs : s.Kept I P)
    (htsn : P control.sinfoTsn) (hq : ∀ chk ∈ q, P chk.tsn) :
    (suckUp cfg q s control).1.Kept I P ∧ (suckUp cfg q s control).2.Within P := by
  induction q generalizing s control with
  | nil => exact ⟨hs, htsn, fun chk hc => absurd hc List.not_mem_nil⟩
  | cons chk q ih =>
    unfold suckUp
    split
    · have hmap := hI _ _ (hq chk List.mem_cons_self) hs.map
      exact ih _ ⟨hmap, hs.within.inqueue, hs.within.unoInqueue⟩ htsn
        fun c hc => hq c (List.mem_cons_of_mem chk hc)
    · exact ⟨hs, htsn, hq⟩

theorem reassemble_kept {s t : StreamRx} {control : Control} {chk : RecvChunk} (hs : s.Kept I P)
    (hc : control.Within P) (hchk : P chk.tsn) (h : reassemble cfg s control chk = .ok t) :
    t.Kept I P := by
  unfold reassemble at h
  split at h
  · split at h
    · cases h
    · cases h
      have hfirst : (firstFragment cfg s control chk).1.Kept I P := ⟨hI _ _ hchk hs.map, hs.within⟩
      obtain ⟨hkept, hwithin⟩ := suckUp_kept hI (firstFragment cfg s control chk).2
        hfirst hc.tsn hc.reasm
      exact hkept.put hwithin
  · obtain ⟨c, hnote, rfl⟩ := Attempt.map_ok h
    dsimp only
    have hc' : c.Within P := by
      unfold noteLast at hnote
      split at hnote
      · cases hnote
        exact ⟨hc.tsn, hc.reasm⟩
      · split at hnote
        · cases hnote
        · split at hnote
          · cases hnote
          · cases hnote
            exact hc
    obtain ⟨hkept, hwithin⟩ := queueFragment_kept hs hc' hchk
    split
    · obtain ⟨hsuck, hleft⟩ := suckUp_kept hI _ hkept hwithin.tsn hwithin.reasm
      exact hsuck.put hleft
    · exact hkept.put hwithin

/-- The part of `sctp_queue_data_for_reasm` behind the placing of a new control. -/
theorem queuePlaced_kept {t : StreamRx} {r : StreamRx × Bool} {control : Control} {chk : RecvChunk}
    {gap : Bool} {fault : AbortSpot → Fault} (hr : r.1.Kept I P) (hc : control.Within P)
    (hchk : P chk.tsn)
    (h : (if r.2 = true then Except.ok r.1
      else if gap = true then .error (fault .loc3)
      else if (control.oldData && control.sinfoFlags.unordered) = true then
        .ok ((queueFragment r.1 control chk).1.put (queueFragment r.1 control chk).2.1)
      else (reassemble cfg r.1 control chk).mapError fault) = .ok t) : t.Kept I P := by
  split at h
  · cases h
    exact hr
  · split at h
    · cases h
    · split at h
      · cases h
        obtain ⟨hkept, hwithin⟩ := queueFragment_kept hr hc hchk
        exact hkept.put hwithin
      · exact reassemble_kept hI hr hc hchk (Attempt.mapError_ok h)

theorem queueDataForReasm_kept {s t : StreamRx} {control : Control} {chk : RecvChunk} {created : Bool}
    (hs : s.Kept I P) (hc : control.Within P) (hchk : P chk.tsn)
    (h : queueDataForReasm cfg s control chk created = .ok t) : t.Kept I P := by
  unfold queueDataForReasm at h
  dsimp only at h
  split at h
  · obtain ⟨r, hr, h⟩ := Attempt.bind_ok h
    exact queuePlaced_kept hI (placeControlInStream_kept hs hc hr) hc hchk h
  · exact queuePlaced_kept hI (r := (s, false)) hs hc hchk h

end

/-- What waits on the streams and behind stream resets is in `P`. -/
structure Receiver.Within (P : Tsn → Prop) (s : Receiver) : Prop where
  strmin : ∀ strmno, (s.strmin strmno).Within P
  pending : ∀ c ∈ s.pendingReplyQueue, c.Within P

structure Receiver.Kept (I : TsnMap → Prop) (P : Tsn → Prop) (s : Receiver) : Prop where
  map : I s.toTsnMap
  within : s.Within P

theorem StreamIn.Within.mono {P Q : Tsn → Prop} (hPQ : ∀ t, P t → Q t) {strm : StreamIn}
    (h : strm.Within P) : strm.Within Q := by
  have hmono : ∀ c : Control, c.Within P → c.Within Q :=
    fun c hc => ⟨hPQ _ hc.tsn, fun chk hchk => hPQ _ (hc.reasm chk hchk)⟩
  exact ⟨fun c hc => hmono c (h.inqueue c hc), fun c hc => hmono c (h.unoInqueue c hc)⟩

theorem Receiver.Within.mono {P Q : Tsn → Prop} (hPQ : ∀ t, P t → Q t) {s : Receiver}
    (h : s.Within P) : s.Within Q :=
  ⟨fun strmno => (h.strmin strmno).mono hPQ, fun c hc =>
    ⟨hPQ _ (h.pending c hc).tsn, fun chk hchk => hPQ _ ((h.pending c hc).reasm chk hchk)⟩⟩

theorem mem_insertPending {control c : Control} {q : List Control}
    (hc : c ∈ insertPending control q) : c = control ∨ c ∈ q := by
  induction q with
  | nil => exact .inl (List.mem_singleton.1 hc)
  | cons x q ih =>
    unfold insertPending at hc
    split at hc
    · obtain rfl | hc := List.mem_cons.1 hc
      · exact .inr List.mem_cons_self
      · exact (ih hc).imp_right (List.mem_cons_of_mem x)
    · exact List.mem_cons.1 hc

namespace Receiver

variable {I : TsnMap → Prop} {P : Tsn → Prop} {s t : Receiver} {ch : DataChunk}

theorem Kept.onStream (h : s.Kept I P) (strmno : StreamNo) : (s.onStream strmno).Kept I P :=
  ⟨h.map, h.within.strmin strmno⟩

theorem Within.setAt (h : s.Within P) {strmno : StreamNo} {x : StreamRx} (hx : x.strm.Within P) :
    (s.setAt strmno x).Within P := by
  refine ⟨fun i => ?_, h.pending⟩
  change (Function.update s.strmin strmno x.strm i).Within P
  by_cases heq : i = strmno
  · subst heq
    rw [Function.update_self]
    exact hx
  · rw [Function.update_of_ne heq]
    exact h.strmin i

theorem Kept.setAt (h : s.Within P) {strmno : StreamNo} {x : StreamRx} (hx : x.Kept I P) :
    (s.setAt strmno x).Kept I P :=
  ⟨hx.map, h.setAt hx.within⟩

theorem Within.resetInStream (h : s.Within P) (list : List StreamNo) :
    (s.resetInStream list).Within P := by
  refine ⟨fun strmno => ?_, h.pending⟩
  unfold Receiver.resetInStream
  dsimp only
  split
  · exact ⟨(h.strmin strmno).inqueue, (h.strmin strmno).unoInqueue⟩
  · exact h.strmin strmno

theorem splitPending_subset (pending : List Control) (resets : List StreamResetList) :
    ∀ c, c ∈ (splitPending pending resets).1 ∨ c ∈ (splitPending pending resets).2 → c ∈ pending := by
  intro c hc
  cases resets with
  | nil => simpa [splitPending] using hc
  | cons next rest =>
    rw [splitPending, List.span_eq_takeWhile_dropWhile] at hc
    obtain hc | hc := hc
    · exact (List.takeWhile_sublist _).subset hc
    · exact (List.dropWhile_sublist _).subset hc

theorem Within.entry (h : s.Within P) {control : Control} (hc : s.entry ch = some control) :
    control.Within P := by
  have hstrm := h.strmin ch.streamId
  unfold Receiver.entry StreamIn.findReasmEntry at hc
  split at hc
  · cases hc
  · split at hc
    · exact hstrm.inqueue control (List.mem_of_find?_eq_some hc)
    · split at hc
      · exact hstrm.unoInqueue control (List.mem_of_mem_head? (Option.mem_filter_iff.1 hc).1)
      · exact hstrm.unoInqueue control (List.mem_of_find?_eq_some hc)

section

variable {cfg : RecvConfig} (hI : ∀ m t, P t → I m → I (m.markNonRevokable cfg.doDrain t))
  (hbump : ∀ m t, P t → I m → I (m.bumpCumAck t))

include hI

theorem deliver_kept {strmno : StreamNo} (hs : s.Kept I P) (h : s.deliver cfg strmno = .ok t) :
    t.Kept I P := by
  obtain ⟨r, hr, rfl⟩ := Attempt.map_ok h
  exact Kept.setAt hs.within (deliverReasmCheck_kept hI (hs.onStream strmno) hr)

theorem queueTo_kept {strmno : StreamNo} {control : Control} {r : Receiver × Bool} (hs : s.Kept I P)
    (hc : control.Within P) (h : s.queueTo cfg strmno control = .ok r) : r.1.Kept I P := by
  obtain ⟨x, hx, rfl⟩ := Attempt.map_ok h
  exact Kept.setAt hs.within (queueDataToStream_kept hI (hs.onStream strmno) hc hx)

theorem serviceReset_kept {strmno : StreamNo} {liste : StreamResetList} {rest : List StreamResetList}
    (hs : s.Kept I P) (h : s.serviceReset cfg strmno liste rest = .ok t) : t.Kept I P := by
  obtain ⟨u, hu, h⟩ := Attempt.bind_ok h
  have hsub := splitPending_subset s.pendingReplyQueue rest
  have hreset := hs.within.resetInStream liste.listOfStreams
  refine deliver_kept hI (Attempt.foldlM_invariant (fun s : Receiver => s.Kept I P) ?_ ?_ hu) h
  · intro c hc v v' hv hv'
    obtain ⟨r, hr, rfl⟩ := Attempt.map_ok hv'
    exact queueTo_kept hI hv (hs.within.pending c (hsub c (.inl hc))) hr
  · exact ⟨hs.map, hreset.strmin, fun c hc => hs.within.pending c (hsub c (.inr hc))⟩

include hbump

theorem finish_kept {need : Bool} (hs : s.Kept I P) (ht : P ch.tsn)
    (h : s.finish cfg ch need = .ok t) : t.Kept I P := by
  have hbumped : Kept I P { s with toTsnMap := s.toTsnMap.bumpCumAck ch.tsn } :=
    ⟨hbump _ _ ht hs.map, hs.within.strmin, hs.within.pending⟩
  unfold finish at h
  dsimp only at h
  split at h
  · split at h
    · exact serviceReset_kept hI hbumped h
    · split at h
      · exact deliver_kept hI hbumped h
      · exact Except.ok.inj h ▸ hbumped
  · split at h
    · exact deliver_kept hI hbumped h
    · exact Except.ok.inj h ▸ hbumped

omit hI hbump in
theorem buildReadqEntryMac_within (ht : P ch.tsn) (id : ℕ) : (ch.buildReadqEntryMac id).Within P :=
  ⟨ht, fun _ hc => absurd hc List.not_mem_nil⟩

omit hI hbump in
theorem markChunk_toTsnMap (asoc : RecvAsoc) (drain : Bool) {gap : ℕ}
    (hset : I (asoc.toTsnMap.setPresent ch.tsn gap)) (hnr : I (asoc.toTsnMap.setNrPresent ch.tsn gap)) :
    I (asoc.markChunk drain ch.tsn gap).toTsnMap := by
  unfold RecvAsoc.markChunk
  dsimp only
  split
  · exact hset
  · exact hnr

theorem storeWhole_kept {gap : ℕ} (hs : s.Within P) (ht : P ch.tsn)
    (hset : I (s.toTsnMap.setPresent ch.tsn gap)) (hnr : I (s.toTsnMap.setNrPresent ch.tsn gap))
    (h : s.storeWhole cfg ch gap = .ok t) : t.Kept I P := by
  have hc := buildReadqEntryMac_within ht s.nextId
  unfold storeWhole at h
  dsimp only at h
  split at h
  · refine finish_kept hI hbump ?_ ht h
    refine Kept.setAt (s := { s with nextId := s.nextId + 1 }) ⟨hs.strmin, hs.pending⟩ ⟨?_, ?_⟩
    · rw [RecvAsoc.addToReadq_toTsnMap]
      exact hnr
    · have hstrm := hs.strmin ch.streamId
      dsimp only
      split
      · exact ⟨hstrm.inqueue, hstrm.unoInqueue⟩
      · exact hstrm
  · have hmarked := markChunk_toTsnMap { s.toRecvAsoc with nextId := s.nextId + 1 } cfg.doDrain
      hset hnr
    split at h
    · refine finish_kept hI hbump ?_ ht h
      refine ⟨hmarked, hs.strmin, fun c hmem => ?_⟩
      obtain rfl | hmem := mem_insertPending hmem
      · exact hc
      · exact hs.pending c hmem
    · split at h
      · refine finish_kept hI hbump ?_ ht h
        refine ⟨?_, hs.strmin, hs.pending⟩
        dsimp only
        rw [RecvAsoc.addToReadq_toTsnMap]
        exact hI _ _ ht hmarked
      · obtain ⟨r, hr, h⟩ := Attempt.bind_ok h
        refine finish_kept hI hbump (queueTo_kept hI ?_ hc hr) ht h
        exact ⟨hmarked, hs.strmin, hs.pending⟩

theorem storeFragment_kept {gap : ℕ} {control : Option Control} (hs : s.Within P) (ht : P ch.tsn)
    (hc : ∀ c ∈ control, c.Within P) (hset : I (s.toTsnMap.setPresent ch.tsn gap))
    (hnr : I (s.toTsnMap.setNrPresent ch.tsn gap)) (h : s.storeFragment cfg ch gap control = .ok t) :
    t.Kept I P := by
  obtain ⟨x, hx, h⟩ := Attempt.bind_ok h
  have hmarked := markChunk_toTsnMap
    { s.toRecvAsoc with nextId := if control.isNone then s.nextId + 1 else s.nextId }
    cfg.doDrain hset hnr
  have hcontrol : (control.getD (ch.buildReadqEntryMac s.nextId)).Within P := by
    cases control with
    | none => exact buildReadqEntryMac_within ht s.nextId
    | some c => exact hc c rfl
  have hkept := queueDataForReasm_kept hI (s := { toRecvAsoc := _, strm := _ })
    ⟨hmarked, hs.strmin ch.streamId⟩ hcontrol ht hx
  exact finish_kept hI hbump (Kept.setAt ⟨hs.strmin, hs.pending⟩ hkept) ht h

theorem accept_kept {env : ChunkEnv} {gap : ℕ} {r : Receiver × ChunkDone} (hs : s.Within P)
    (ht : P ch.tsn) (hcfg : cfg = env.toRecvConfig) (hset : I (s.toTsnMap.setPresent ch.tsn gap))
    (hnr : I (s.toTsnMap.setNrPresent ch.tsn gap)) (h : s.accept env ch gap = .ok r) :
    (r.2 = .full ∧ r.1 = s) ∨ ((r.2 = .badStream ∨ r.2 = .taken) ∧ r.1.Kept I P) := by
  subst hcfg
  unfold accept at h
  split at h
  · cases h
    exact .inr ⟨.inl rfl, hbump _ _ ht hnr, hs.strmin, hs.pending⟩
  · split at h
    · cases h
    · split at h
      · cases h
        exact .inl ⟨rfl, rfl⟩
      · split at h
        · cases h
        · obtain ⟨u, hu, rfl⟩ := Attempt.map_ok h
          refine .inr ⟨.inr rfl, ?_⟩
          split at hu
          · exact storeWhole_kept hI hbump hs ht hset hnr hu
          · exact storeFragment_kept hI hbump hs ht (fun c hc => hs.entry hc) hset hnr hu

end

end Receiver

end Sctp
