import Sctp.Output.FillOutqueue
import Sctp.Output.Fragment

/-! For a peer without I-DATA the fragments of a message are not interleaved with others. -/
namespace Sctp
open Bitmap

/-- Between the first and the last fragment of a message there are only fragments of it. -/
def NotInterleaved (q : List TmitChunk) : Prop :=
  ∀ (i j k : ℕ) (ci cj ck : TmitChunk), i ≤ j → j ≤ k → q[i]? = some ci → q[j]? = some cj → q[k]? = some ck →
    ci.origin = ck.origin → ci.rcvFlags.first = true → ck.rcvFlags.last = true →
    cj.origin = ci.origin

/-- If the first unfinished message of the stream has been started, the move meets neither a
failed allocation nor a failed copy; a fragmentation point of zero makes the copy fail too. -/
def MoveMade.KeepsLock (m : MoveMade) : Prop :=
  ∀ sp ∈ ((m.assoc.strmout m.stream).outqueue.dropWhile StreamQueuePending.finished).head?,
    sp.someTaken = true → 0 < sp.length → m.call.Succeeds ∧ m.call.fragPoint ≠ 0

instance (m : MoveMade) : Decidable m.KeepsLock := inferInstanceAs (Decidable (∀ sp ∈ _, _))

/-- What a move can do, for a peer without I-DATA and once the finished messages are gone. -/
inductive MoveCases (call : MoveCall) (a : OutAssoc) (i : StreamNo) (r : MoveResult) : Prop
  | empty (hq : (a.strmout i).outqueue = []) (hq' : (r.assoc.strmout i).outqueue = [])
      (hs : r.assoc.sendQueue = a.sendQueue)
  | held (sp sp' : StreamQueuePending) (sps : List StreamQueuePending)
      (hq : (a.strmout i).outqueue = sp :: sps)
      (hq' : (r.assoc.strmout i).outqueue = sp' :: sps) (hs : r.assoc.sendQueue = a.sendQueue)
      (hid : sp'.id = sp.id) (htaken : sp.someTaken = true → sp'.someTaken = true)
      (hdone : sp.msgIsComplete = true → sp.length = 0 →
        sp'.msgIsComplete = true ∧ sp'.length = 0)
      (hlocked : r.locked = true ∨ 0 < sp.length ∧
        (sp.someTaken = true → ¬ (call.Succeeds ∧ call.fragPoint ≠ 0)))
  | put (sp sp' : StreamQueuePending) (sps : List StreamQueuePending) (c : TmitChunk)
      (hq : (a.strmout i).outqueue = sp :: sps)
      (hq' : (r.assoc.strmout i).outqueue = if sp'.finished then sps else sp' :: sps)
      (hs : r.assoc.sendQueue = a.sendQueue ++ [c]) (hpos : 0 < sp.length)
      (horigin : c.origin = sp.id)
      (hlast : c.rcvFlags.last = true → sp'.msgIsComplete = true ∧ sp'.length = 0)
      (hid : sp'.id = sp.id)
      (htaken : sp'.someTaken = true ∨ sp'.msgIsComplete = true ∧ sp'.length = 0)
      (hlocked : r.locked = !sp'.finished)

/-- What `takeHowMuch` promises. -/
structure TakeSpec (call : MoveCall) (sp : StreamQueuePending) (n : ℕ) (flags : RcvFlags)
    (sp' : StreamQueuePending) : Prop where
  le : n ≤ sp.length
  id : sp'.id = sp.id
  length_eq : sp'.length = sp.length
  complete : sp'.msgIsComplete = sp.msgIsComplete
  taken : sp.someTaken = true → sp'.someTaken = true
  last : flags.last = true → n = sp.length ∧ sp.msgIsComplete = true
  started : sp'.someTaken = true ∨ n = sp.length ∧ sp.msgIsComplete = true
  zero : n = 0 → 0 < sp.length → call.fragPoint = 0

theorem takeHowMuch_spec {cfg : OutConfig} {call : MoveCall} {sp sp' : StreamQueuePending} {n : ℕ}
    {flags : RcvFlags} (h : takeHowMuch cfg call sp = some (n, flags, sp')) :
    TakeSpec call sp n flags sp' := by
  unfold takeHowMuch at h
  simp only at h
  split_ifs at h with hcomp hfit hz
  · obtain ⟨rfl, rfl, rfl⟩ := by simpa using h
    refine ⟨by omega, rfl, rfl, rfl, fun h => h, fun _ => ⟨hfit, hcomp⟩,
      Or.inr ⟨hfit, hcomp⟩, by omega⟩
  · obtain ⟨rfl, rfl, rfl⟩ := by simpa using h
    exact ⟨by omega, rfl, rfl, rfl, fun _ => rfl, fun hh => by simp at hh, Or.inl rfl,
      by omega⟩
  · obtain ⟨rfl, rfl, rfl⟩ := by simpa using h
    exact ⟨by omega, rfl, rfl, rfl, fun _ => rfl, fun hh => by simp at hh, Or.inl rfl,
      by omega⟩

section cases
variable {cfg : OutConfig} (hnd : cfg.peerSupportsNdata = false) (call : MoveCall) (a : OutAssoc)
  (i : StreamNo)

theorem setHead_outqueue (sp : StreamQueuePending) :
    ((a.setHead i sp).strmout i).outqueue = sp :: (a.strmout i).outqueue.tail := by
  simp [OutAssoc.setHead]

include hnd

theorem putChunk_cases {old sp : StreamQueuePending} {sps : List StreamQueuePending}
    (hq : (a.strmout i).outqueue = old :: sps) {c : TmitChunk} (n : ℕ) (hpos : 0 < old.length)
    (horigin : c.origin = old.id)
    (hlast : c.rcvFlags.last = true → sp.msgIsComplete = true ∧ sp.length = 0)
    (hid : sp.id = old.id)
    (htaken : sp.someTaken = true ∨ sp.msgIsComplete = true ∧ sp.length = 0) :
    MoveCases call a i (putChunk cfg a i sp c n) := by
  refine .put old sp sps c hq ?_ rfl hpos horigin hlast hid htaken ?_
  · rw [putChunk_outqueue, hq, hnd]
    rfl
  · simp [putChunk, hnd]

theorem copyOut_cases {old sp sp' : StreamQueuePending} {sps : List StreamQueuePending}
    (hq : (a.strmout i).outqueue = old :: sps) {n : ℕ} {flags : RcvFlags}
    (hpos : 0 < old.length) (hid : sp.id = old.id) (hlen : sp.length = old.length)
    (htk : sp.someTaken = old.someTaken) (ht : TakeSpec call sp n flags sp') :
    MoveCases call a i (copyOut cfg call a i sp sp' flags n) := by
  have hl := ht.length_eq
  have hheld : ∀ sp'' r, sp''.id = sp'.id → (sp.someTaken = true → sp''.someTaken = true) →
      (r.assoc = a.setHead i sp'') → ¬ (call.Succeeds ∧ call.fragPoint ≠ 0) →
      MoveCases call a i r := by
    intro sp'' r h1 h2 h3 h4
    refine .held old sp'' sps hq ?_ ?_ (by rw [h1, ht.id, hid]) (by rwa [← htk]) (by omega)
      (Or.inr ⟨hpos, fun _ => h4⟩)
    · rw [h3, setHead_outqueue, hq, List.tail_cons]
    · rw [h3]
      rfl
  unfold copyOut
  simp only
  split_ifs with h1 h2 h3 h4 h5
  · exact hheld sp' _ rfl ht.taken rfl fun hs => absurd (hs.1.chunk.symm.trans h1) (by decide)
  · exact hheld { sp' with someTaken := sp.someTaken } _ rfl (fun h => h) rfl
      fun hs => absurd (hs.1.mbuf.symm.trans h3.2) (by decide)
  · have hn : n = sp.length := by have := ht.le; omega
    refine putChunk_cases hnd call a i hq n hpos (by rw [← hid, ← ht.id]; rfl) ?_
      (ht.id.trans hid) ?_
    · intro hlast
      exact ⟨ht.complete.trans (ht.last hlast).2, by simp only; omega⟩
    · rcases ht.started with h | h
      · exact Or.inl h
      · exact Or.inr ⟨ht.complete.trans h.2, by simp only; omega⟩
  · refine hheld { sp' with someTaken := sp.someTaken } _ rfl (fun h => h) rfl fun hs => ?_
    rcases h4 with h4 | h4
    · exact absurd (hs.1.copy.symm.trans h4) (by decide)
    · exact hs.2 (ht.zero h4 (by omega))
  · exact hheld
      { sp' with
        someTaken := sp.someTaken
        data := Chain.copy n sp'.data ++ Chain.compact (Chain.trim n sp'.data) } _ rfl
      (fun h => h) rfl fun hs => absurd (hs.1.mbuf.symm.trans h5.2) (by decide)
  · refine putChunk_cases hnd call a i hq n hpos (by rw [← hid, ← ht.id]; rfl) ?_
      (ht.id.trans hid) ?_
    · intro hlast
      have := (ht.last hlast).1
      omega
    · rcases ht.started with h | h
      · exact Or.inl h
      · omega

theorem moveFirst_cases : MoveCases call a i (moveFirst cfg call a i) := by
  unfold moveFirst
  simp only
  split
  · rename_i hq
    exact .empty hq (by simpa using hq) rfl
  · rename_i sp sps hq
    split_ifs with hz hdis
    · exact .held sp sp sps hq hq rfl rfl (fun h => h) (fun h _ => ⟨h, hz⟩)
        (Or.inl (by simp [MoveResult.giveUp, hnd]))
    · refine .held sp { sp with data := [], length := 0, someTaken := true } sps hq ?_ rfl rfl
        (fun _ => rfl) (fun h _ => ⟨h, rfl⟩) (Or.inl (by simp [MoveResult.giveUp, hnd]))
      exact (setHead_outqueue a i _).trans (by rw [hq, List.tail_cons])
    · unfold moveHead
      split
      · refine .held sp (sp.closeIf cfg.closedSocket) sps hq ?_ rfl rfl (fun h => h) (by omega) ?_
        · exact (setHead_outqueue a i _).trans (by rw [hq, List.tail_cons])
        · by_cases ht : sp.someTaken = true
          · exact Or.inl (by simp [MoveResult.giveUp, hnd, StreamQueuePending.closeIf, ht])
          · exact Or.inr ⟨by omega, fun h => absurd h ht⟩
      · rename_i n flags sp' htake
        exact copyOut_cases hnd call a i hq (by omega) rfl rfl rfl (takeHowMuch_spec htake)

end cases

/-- The first fragment of message `id` is in `q`. -/
def Started (q : List TmitChunk) (id : ℕ) : Prop :=
  ∃ c ∈ q, c.origin = id ∧ c.rcvFlags.first = true

/-- The last fragment of message `id` is in `q`. -/
def Ended (q : List TmitChunk) (id : ℕ) : Prop :=
  ∃ c ∈ q, c.origin = id ∧ c.rcvFlags.last = true

/-- From the first fragment of message `id` on there are only chunks of it. -/
def OnlySince (q : List TmitChunk) (id : ℕ) : Prop :=
  ∃ pre suf, q = pre ++ suf ∧ (∀ c ∈ suf, c.origin = id) ∧
    ∀ c ∈ pre, c.origin = id → c.rcvFlags.first = false

theorem NotInterleaved.concat {q : List TmitChunk} {c : TmitChunk} (h : NotInterleaved q)
    (honly : Started q c.origin → OnlySince q c.origin) : NotInterleaved (q ++ [c]) := by
  intro i j k ci cj ck hij hjk hi hj hk ho hf hl
  rcases getElem?_concat hk with ⟨hklt, hk⟩ | ⟨rfl, rfl⟩
  · rw [List.getElem?_append_left (by omega)] at hi hj
    exact h i j k ci cj ck hij hjk hi hj hk ho hf hl
  · rcases getElem?_concat hj with ⟨hjlt, hj⟩ | ⟨rfl, rfl⟩
    · rw [List.getElem?_append_left (by omega)] at hi
      have hci := List.mem_of_getElem? hi
      obtain ⟨pre, suf, rfl, hsuf, hpre⟩ := honly ⟨ci, hci, ho, hf⟩
      have hpi : pre.length ≤ i := by
        by_contra hlt
        rw [List.getElem?_append_left (by omega)] at hi
        have := hpre ci (List.mem_of_getElem? hi) ho
        exact absurd (hf.symm.trans this) (by decide)
      rw [List.getElem?_append_right (by omega)] at hj
      rw [hsuf cj (List.mem_of_getElem? hj), ho]
    · exact ho.symm

/-- Invariant of the sending side. Only the message at the head of the queue of stream `holder`
may have been started and not ended. -/
structure FillInv (a : OutAssoc) (nextId : ℕ) (holder : Option StreamNo) : Prop where
  id_lt : ∀ i, ∀ sp ∈ (a.strmout i).outqueue, sp.id < nextId
  origin_lt : ∀ c ∈ a.sendQueue, c.origin < nextId
  nodup : ∀ i, ((a.strmout i).outqueue.map StreamQueuePending.id).Nodup
  disjoint : ∀ i j, ∀ sp ∈ (a.strmout i).outqueue, ∀ sp' ∈ (a.strmout j).outqueue,
    sp.id = sp'.id → i = j
  taken : ∀ i, ∀ sp ∈ (a.strmout i).outqueue, (∃ c ∈ a.sendQueue, c.origin = sp.id) →
    sp.someTaken = true ∨ sp.msgIsComplete = true ∧ sp.length = 0
  ended : ∀ i, ∀ sp ∈ (a.strmout i).outqueue, Ended a.sendQueue sp.id →
    sp.msgIsComplete = true ∧ sp.length = 0
  held : ∀ i, ∀ sp ∈ (a.strmout i).outqueue, Started a.sendQueue sp.id →
    ¬ Ended a.sendQueue sp.id → holder = some i ∧ (a.strmout i).outqueue.head? = some sp ∧
      OnlySince a.sendQueue sp.id
  notInterleaved : NotInterleaved a.sendQueue

namespace FillInv
variable {a : OutAssoc} {nextId : ℕ} {holder : Option StreamNo}

/-- Nothing is open, so any stream may hold the lock. -/
theorem of_none (h : FillInv a nextId none) (holder : Option StreamNo) :
    FillInv a nextId holder := by
  refine ⟨h.id_lt, h.origin_lt, h.nodup, h.disjoint, h.taken, h.ended, ?_, h.notInterleaved⟩
  intro i sp hsp hst hne
  exact absurd (h.held i sp hsp hst hne).1 (by simp)

/-- Only the message in front of the holder's queue is open. -/
theorem not_open_of_ne {i j : StreamNo} (h : FillInv a nextId (some i))
    {sp sp' : StreamQueuePending} {sps : List StreamQueuePending}
    (hq : (a.strmout i).outqueue = sp :: sps) (hsp' : sp' ∈ (a.strmout j).outqueue)
    (hne : sp'.id ≠ sp.id) : Started a.sendQueue sp'.id → Ended a.sendQueue sp'.id := by
  intro hst
  by_contra hend
  obtain ⟨hh, hhead, -⟩ := h.held j sp' hsp' hst hend
  obtain rfl : i = j := by simpa using hh
  rw [hq, List.head?_cons, Option.some.injEq] at hhead
  exact hne (by rw [hhead])

end FillInv

/-- A message with fields changed that the invariant does not depend on. -/
structure Kept (sp sp' : StreamQueuePending) : Prop where
  id : sp'.id = sp.id
  taken : sp.someTaken = true → sp'.someTaken = true
  done : sp.msgIsComplete = true → sp.length = 0 → sp'.msgIsComplete = true ∧ sp'.length = 0

theorem Kept.refl (sp : StreamQueuePending) : Kept sp sp := ⟨rfl, fun h => h, fun h h' => ⟨h, h'⟩⟩

theorem forall₂_kept_refl (l : List StreamQueuePending) : List.Forall₂ Kept l l :=
  List.forall₂_same.mpr fun sp _ => Kept.refl sp

private theorem kept_map_id {l l' : List StreamQueuePending} (h : List.Forall₂ Kept l l') :
    l'.map StreamQueuePending.id = l.map StreamQueuePending.id := by
  induction h with
  | nil => rfl
  | cons h1 _ ih => rw [List.map_cons, List.map_cons, h1.id, ih]

private theorem exists_kept {l l' : List StreamQueuePending} (h : List.Forall₂ Kept l l')
    {sp' : StreamQueuePending} (hsp : sp' ∈ l') : ∃ sp ∈ l, Kept sp sp' := by
  induction h with
  | nil => simp at hsp
  | cons h1 _ ih =>
    rcases List.mem_cons.mp hsp with rfl | hsp
    · exact ⟨_, List.mem_cons_self, h1⟩
    · obtain ⟨sp, hmem, hk⟩ := ih hsp
      exact ⟨sp, List.mem_cons_of_mem _ hmem, hk⟩

namespace FillInv
variable {a : OutAssoc} {nextId : ℕ} {holder : Option StreamNo}

/-- Messages may be dropped in front, and changed where it does not matter. -/
theorem of_kept (h : FillInv a nextId holder) {a' : OutAssoc}
    (hs : a'.sendQueue = a.sendQueue)
    (hq : ∀ j, ∃ gone kept, (a.strmout j).outqueue = gone ++ kept ∧
      List.Forall₂ Kept kept (a'.strmout j).outqueue) : FillInv a' nextId holder := by
  have hmem : ∀ j, ∀ sp' ∈ (a'.strmout j).outqueue, ∃ sp ∈ (a.strmout j).outqueue,
      Kept sp sp' := by
    intro j sp' hsp'
    obtain ⟨gone, kept, heq, hk⟩ := hq j
    obtain ⟨sp, hsp, hkept⟩ := exists_kept hk hsp'
    exact ⟨sp, by simp [heq, hsp], hkept⟩
  have hnodup : ∀ j, ((a'.strmout j).outqueue.map StreamQueuePending.id).Nodup := by
    intro j
    obtain ⟨gone, kept, heq, hk⟩ := hq j
    have := h.nodup j
    rw [heq, List.map_append] at this
    rw [kept_map_id hk]
    exact (List.nodup_append.mp this).2.1
  refine ⟨?_, ?_, hnodup, ?_, ?_, ?_, ?_, ?_⟩
  · intro j sp' hsp'
    obtain ⟨sp, hsp, hk⟩ := hmem j sp' hsp'
    rw [hk.id]
    exact h.id_lt j sp hsp
  · rw [hs]
    exact h.origin_lt
  · intro j j' sp₁ h1 sp₂ h2 hid
    obtain ⟨sp₁', h1', hk1⟩ := hmem j sp₁ h1
    obtain ⟨sp₂', h2', hk2⟩ := hmem j' sp₂ h2
    exact h.disjoint j j' sp₁' h1' sp₂' h2' (by rw [← hk1.id, ← hk2.id, hid])
  · intro j sp' hsp' hc
    obtain ⟨sp, hsp, hk⟩ := hmem j sp' hsp'
    rw [hs, hk.id] at hc
    rcases h.taken j sp hsp hc with ht | ht
    · exact Or.inl (hk.taken ht)
    · exact Or.inr (hk.done ht.1 ht.2)
  · intro j sp' hsp' hc
    obtain ⟨sp, hsp, hk⟩ := hmem j sp' hsp'
    rw [hs, hk.id] at hc
    have := h.ended j sp hsp hc
    exact hk.done this.1 this.2
  · intro j sp' hsp' hst hne
    obtain ⟨sp, hsp, hk⟩ := hmem j sp' hsp'
    rw [hs, hk.id] at hst hne ⊢
    obtain ⟨hh, hhead, honly⟩ := h.held j sp hsp hst hne
    refine ⟨hh, ?_, honly⟩
    obtain ⟨gone, kept, heq, hkept⟩ := hq j
    have hnd := h.nodup j
    rw [heq, List.map_append] at hnd
    obtain ⟨sp₂, hsp₂, hk₂⟩ := exists_kept hkept hsp'
    have hid : sp₂.id = sp.id := by rw [← hk₂.id, hk.id]
    cases gone with
    | nil =>
      have hids := kept_map_id hkept
      have hnd' := hnodup j
      rw [heq, List.nil_append] at hhead
      generalize (a'.strmout j).outqueue = l' at hids hnd' hsp' ⊢
      cases l' with
      | nil => simp at hsp'
      | cons y l' =>
        rw [List.head?_cons, Option.some.injEq]
        apply List.inj_on_of_nodup_map hnd' List.mem_cons_self hsp'
        rw [hk.id]
        have := congrArg List.head? hids
        rw [List.map_cons, List.head?_cons, List.head?_map, hhead] at this
        simpa using this
    | cons g gone =>
      rw [heq, List.cons_append, List.head?_cons, Option.some.injEq] at hhead
      have := (List.nodup_append.mp hnd).2.2 g.id (by simp) sp₂.id (List.mem_map_of_mem hsp₂)
      exact absurd (by rw [hid, hhead]) this
  · rw [hs]
    exact h.notInterleaved

theorem release {i : StreamNo} (h : FillInv a nextId (some i))
    (hno : ∀ sp sps, (a.strmout i).outqueue = sp :: sps → Started a.sendQueue sp.id →
      Ended a.sendQueue sp.id) : FillInv a nextId none := by
  refine ⟨h.id_lt, h.origin_lt, h.nodup, h.disjoint, h.taken, h.ended, ?_, h.notInterleaved⟩
  intro j sp hsp hst hne
  obtain ⟨hh, hhead, -⟩ := h.held j sp hsp hst hne
  obtain rfl : i = j := by simpa using hh
  obtain ⟨sps, hq⟩ := List.head?_eq_some_iff.mp hhead
  exact absurd (hno sp sps hq hst) hne

theorem reap (h : FillInv a nextId holder) (i : StreamNo) :
    FillInv (reapFinished a i) nextId holder := by
  refine h.of_kept (reapFinished_sendQueue a i) ?_
  intro j
  rw [reapFinished_strmout]
  by_cases hj : j = i
  · subst hj
    rw [if_pos rfl]
    exact ⟨_, _, (List.takeWhile_append_dropWhile (p := StreamQueuePending.finished)).symm,
      forall₂_kept_refl _⟩
  · rw [if_neg hj]
    exact ⟨[], _, rfl, forall₂_kept_refl _⟩

/-- The next chunk of the message in front. -/
theorem put {i : StreamNo} (h : FillInv a nextId (some i)) {a' : OutAssoc}
    (hother : ∀ j, j ≠ i → a'.strmout j = a.strmout j)
    {sp sp' : StreamQueuePending} {sps : List StreamQueuePending} {c : TmitChunk}
    (hq : (a.strmout i).outqueue = sp :: sps)
    (hq' : (a'.strmout i).outqueue = if sp'.finished then sps else sp' :: sps)
    (hs : a'.sendQueue = a.sendQueue ++ [c]) (hpos : 0 < sp.length)
    (horigin : c.origin = sp.id)
    (hlast : c.rcvFlags.last = true → sp'.msgIsComplete = true ∧ sp'.length = 0)
    (hid : sp'.id = sp.id)
    (htaken : sp'.someTaken = true ∨ sp'.msgIsComplete = true ∧ sp'.length = 0) :
    FillInv a' nextId (if sp'.finished then none else some i) := by
  have hmem : sp ∈ (a.strmout i).outqueue := by simp [hq]
  have hnotEnded : ¬ Ended a.sendQueue sp.id := by
    intro he
    have := (h.ended i sp hmem he).2
    omega
  have hnd := h.nodup i
  rw [hq, List.map_cons, List.nodup_cons] at hnd
  -- a message on a queue is what is left of `sp`, or another one that has not changed
  have hcases : ∀ j, ∀ x ∈ (a'.strmout j).outqueue,
      (x = sp' ∧ j = i ∧ sp'.finished = false) ∨ (x ∈ (a.strmout j).outqueue ∧ x.id ≠ sp.id) := by
    intro j x hx
    by_cases hj : j = i
    · subst hj
      have hsps : x ∈ sps → x ∈ (a.strmout j).outqueue ∧ x.id ≠ sp.id := by
        intro hx
        refine ⟨by simp [hq, hx], fun he => hnd.1 ?_⟩
        rw [← he]
        exact List.mem_map_of_mem hx
      rw [hq'] at hx
      split_ifs at hx with hf
      · exact Or.inr (hsps hx)
      · rcases List.mem_cons.mp hx with hx | hx
        · exact Or.inl ⟨hx, rfl, by simpa using hf⟩
        · exact Or.inr (hsps hx)
    · rw [hother j hj] at hx
      exact Or.inr ⟨hx, fun he => hj (h.disjoint j i x hx sp hmem he)⟩
  have hold : ∀ d ∈ a'.sendQueue, d.origin ≠ sp.id → d ∈ a.sendQueue := by
    intro d hd hne
    rw [hs] at hd
    rcases List.mem_append.mp hd with hd | hd
    · exact hd
    · rw [List.mem_singleton.mp hd] at hne
      exact absurd horigin hne
  have hin : ∀ d ∈ a.sendQueue, d ∈ a'.sendQueue := by
    intro d hd
    rw [hs]
    exact List.mem_append_left _ hd
  have honly : Started a.sendQueue sp.id → OnlySince a.sendQueue sp.id := fun hst =>
    (h.held i sp hmem hst hnotEnded).2.2
  refine ⟨?_, ?_, ?_, ?_, ?_, ?_, ?_, ?_⟩
  · intro j x hx
    rcases hcases j x hx with ⟨rfl, -, -⟩ | ⟨hx, -⟩
    · rw [hid]
      exact h.id_lt i sp hmem
    · exact h.id_lt j x hx
  · intro d hd
    by_cases hne : d.origin = sp.id
    · rw [hne]
      exact h.id_lt i sp hmem
    · exact h.origin_lt d (hold d hd hne)
  · intro j
    by_cases hj : j = i
    · subst hj
      rw [hq']
      split_ifs
      · exact hnd.2
      · rw [List.map_cons, List.nodup_cons, hid]
        exact hnd
    · rw [hother j hj]
      exact h.nodup j
  · intro j j' x hx y hy he
    rcases hcases j x hx with ⟨rfl, rfl, -⟩ | ⟨hx, hxne⟩ <;>
      rcases hcases j' y hy with ⟨rfl, rfl, -⟩ | ⟨hy, hyne⟩
    · rfl
    · exact absurd (he.symm.trans hid) hyne
    · exact absurd (he.trans hid) hxne
    · exact h.disjoint j j' x hx y hy he
  · rintro j x hx ⟨d, hd, hdx⟩
    rcases hcases j x hx with ⟨rfl, -, -⟩ | ⟨hx, hxne⟩
    · exact htaken
    · exact h.taken j x hx ⟨d, hold d hd (by rwa [hdx]), hdx⟩
  · rintro j x hx ⟨d, hd, hdx, hdl⟩
    rcases hcases j x hx with ⟨rfl, -, -⟩ | ⟨hx, hxne⟩
    · rw [hs] at hd
      rcases List.mem_append.mp hd with hd | hd
      · exact absurd ⟨d, hd, hdx.trans hid, hdl⟩ hnotEnded
      · rw [List.mem_singleton.mp hd] at hdl
        exact hlast hdl
    · exact h.ended j x hx ⟨d, hold d hd (by rwa [hdx]), hdx, hdl⟩
  · intro j x hx hst hne
    rcases hcases j x hx with ⟨rfl, rfl, hf⟩ | ⟨hx, hxne⟩
    · refine ⟨by simp [hf], by simp [hq', hf], ?_⟩
      rw [hid, hs]
      by_cases hst' : Started a.sendQueue sp.id
      · obtain ⟨pre, suf, heq, hsuf, hpre⟩ := honly hst'
        refine ⟨pre, suf ++ [c], by rw [heq, List.append_assoc], ?_, hpre⟩
        intro d hd
        rcases List.mem_append.mp hd with hd | hd
        · exact hsuf d hd
        · rw [List.mem_singleton.mp hd]
          exact horigin
      · refine ⟨a.sendQueue, [c], rfl, by simpa using horigin, ?_⟩
        intro d hd hdo
        rw [Bool.eq_false_iff]
        intro hdf
        exact hst' ⟨d, hd, hdo, hdf⟩
    · obtain ⟨d, hd, hdx, hdf⟩ := hst
      have hend := h.not_open_of_ne hq hx hxne ⟨d, hold d hd (by rwa [hdx]), hdx, hdf⟩
      obtain ⟨e, he, hex, hel⟩ := hend
      exact absurd ⟨e, hin e he, hex, hel⟩ hne
  · rw [hs]
    exact h.notInterleaved.concat (by rwa [horigin])

/-- One move. -/
theorem moveToOutqueue {i : StreamNo} (h : FillInv a nextId (some i)) {cfg : OutConfig}
    (hnd : cfg.peerSupportsNdata = false) {call : MoveCall}
    (hkeep : MoveMade.KeepsLock ⟨a, i, call⟩) :
    FillInv (moveToOutqueue cfg call a i).assoc nextId
      (if (Sctp.moveToOutqueue cfg call a i).locked then some i else none) := by
  have hr := h.reap i
  have hqr : ((reapFinished a i).strmout i).outqueue =
      (a.strmout i).outqueue.dropWhile StreamQueuePending.finished := by
    rw [reapFinished_strmout, if_pos rfl]
  have hother : ∀ j, j ≠ i → (Sctp.moveToOutqueue cfg call a i).assoc.strmout j =
      (reapFinished a i).strmout j := fun j hj => by
    unfold Sctp.moveToOutqueue
    exact moveFirst_strmout cfg _ i call hj
  have hsame : ∀ (q : List StreamQueuePending), ((reapFinished a i).strmout i).outqueue = q →
      ∀ q', ((Sctp.moveToOutqueue cfg call a i).assoc.strmout i).outqueue = q' →
      List.Forall₂ Kept q q' → ∀ j, ∃ gone kept,
        ((reapFinished a i).strmout j).outqueue = gone ++ kept ∧
        List.Forall₂ Kept kept ((Sctp.moveToOutqueue cfg call a i).assoc.strmout j).outqueue := by
    intro q hq q' hq' hk j
    by_cases hj : j = i
    · subst hj
      exact ⟨[], q, hq, hq' ▸ hk⟩
    · exact ⟨[], _, rfl, by rw [hother j hj]; exact forall₂_kept_refl _⟩
  have hcases : MoveCases call (reapFinished a i) i (Sctp.moveToOutqueue cfg call a i) :=
    moveFirst_cases hnd call _ i
  cases hcases with
  | empty hq hq' hs =>
    have hinv := hr.of_kept hs (hsame _ hq _ hq' .nil)
    have hnone := hinv.release fun sp sps hq'' => by simp [hq'] at hq''
    exact hnone.of_none _
  | held sp sp' sps hq hq' hs hid htaken hdone hlocked =>
    have hinv := hr.of_kept hs
      (hsame _ hq _ hq' (.cons ⟨hid, htaken, hdone⟩ (forall₂_kept_refl sps)))
    split_ifs with hl
    · exact hinv
    · obtain ⟨hpos, hfail⟩ := hlocked.resolve_left hl
      refine hinv.release ?_
      intro x xs hx hst
      -- the message has not been started, or the move would have kept the lock
      obtain ⟨rfl, -⟩ := List.cons.inj (hq'.symm.trans hx)
      obtain ⟨c, hc, hco, -⟩ := hst
      rw [hs] at hc
      rcases hr.taken i sp (by simp [hq]) ⟨c, hc, hco.trans hid⟩ with ht | ht
      · exact absurd (hkeep sp (by simp [← hqr, hq]) ht hpos) (hfail ht)
      · omega
  | put sp sp' sps c hq hq' hs hpos horigin hlast hid htaken hlocked =>
    have := hr.put hother hq hq' hs hpos horigin hlast hid htaken
    rw [hlocked]
    cases hf : sp'.finished <;> simpa [hf] using this

/-- The lock as the loop leaves it in the association. -/
theorem setLocked (h : FillInv a nextId holder) (l : Option StreamNo) :
    FillInv { a with lockedOnSending := l } nextId holder :=
  ⟨h.id_lt, h.origin_lt, h.nodup, h.disjoint, h.taken, h.ended, h.held, h.notInterleaved⟩

theorem fillLoop {fc : FillCall} (hnd : fc.cfg.peerSupportsNdata = false) {fuel n : ℕ} {goal : ℤ}
    {i : StreamNo} (h : FillInv a nextId (some i))
    (hlock : a.lockedOnSending = none → FillInv a nextId none)
    (hlock' : ∀ j, a.lockedOnSending = some j → j = i)
    (hkeep : ∀ m ∈ (fillLoop fc fuel n goal i a).moves, m.KeepsLock) :
    FillInv (Sctp.fillLoop fc fuel n goal i a).assoc nextId
      (Sctp.fillLoop fc fuel n goal i a).assoc.lockedOnSending := by
  have hdone : FillInv a nextId a.lockedOnSending := by
    cases hl : a.lockedOnSending with
    | none => exact hlock hl
    | some j => rwa [hlock' j hl]
  induction fuel generalizing n goal i a with
  | zero => exact hdone
  | succ fuel ih =>
    unfold Sctp.fillLoop at hkeep ⊢
    split_ifs at hkeep ⊢ with hg
    · exact hdone
    · simp only [FillResult.cons, List.mem_cons, forall_eq_or_imp] at hkeep ⊢
      obtain ⟨hfirst, hrest⟩ := hkeep
      have hmove := h.moveToOutqueue hnd hfirst
      generalize Sctp.moveToOutqueue fc.cfg (fc.moveCall n goal) a i = r at hmove hrest ⊢
      cases hlk : r.locked with
      | true =>
        simp only [hlk, if_true] at hmove hrest ⊢
        have hset := hmove.setLocked (some i)
        split_ifs at hrest ⊢ with hc
        · exact hset
        · exact ih hset (fun hn => by simp at hn) (fun j hj => by simpa using hj.symm) hrest hset
      | false =>
        simp only [hlk, Bool.false_eq_true, if_false] at hmove hrest ⊢
        have hset := hmove.setLocked none
        split_ifs at hrest ⊢ with hc
        · exact hset
        · cases hp : fc.pick (n + 1) with
          | none => exact hset
          | some j =>
            simp only [hp] at hrest
            exact ih (hset.of_none _) (fun _ => hset) (fun j hj => by simp at hj) hrest hset

theorem fillOutqueue {fc : FillCall} (hnd : fc.cfg.peerSupportsNdata = false)
    (h : FillInv a nextId a.lockedOnSending)
    (hkeep : ∀ m ∈ (fillOutqueue fc a).moves, m.KeepsLock) :
    FillInv (Sctp.fillOutqueue fc a).assoc nextId
      (Sctp.fillOutqueue fc a).assoc.lockedOnSending := by
  unfold Sctp.fillOutqueue at hkeep ⊢
  cases hl : a.lockedOnSending with
  | some i =>
    simp only [hl] at hkeep ⊢
    exact fillLoop hnd (hl ▸ h) (fun hn => by simp [hl] at hn)
      (fun j hj => by simpa [hl] using hj.symm) hkeep
  | none =>
    rw [hl] at h
    cases hp : fc.pick 0 with
    | none =>
      simp only [hl]
      exact h
    | some i =>
      simp only [hl, hp] at hkeep ⊢
      exact fillLoop hnd (h.of_none _) (fun _ => h) (fun j hj => by simp [hl] at hj) hkeep

theorem modifyMessage (h : FillInv a nextId holder) (i : StreamNo) (id : ℕ)
    {f : StreamQueuePending → StreamQueuePending} (hf : ∀ sp, Kept sp (f sp)) :
    FillInv (a.modifyMessage i id f) nextId holder := by
  refine h.of_kept rfl ?_
  intro j
  refine ⟨[], _, rfl, ?_⟩
  by_cases hj : j = i
  · subst hj
    simp only [OutAssoc.modifyMessage, setStream_strmout, if_true]
    rw [List.forall₂_map_right_iff, List.forall₂_same]
    intro sp _
    split_ifs
    · exact hf sp
    · exact Kept.refl sp
  · simp only [OutAssoc.modifyMessage, setStream_strmout, if_neg hj]
    exact forall₂_kept_refl _

/-- A new message behind the others of its stream. -/
theorem enqueue (h : FillInv a nextId holder) {a' : OutAssoc} {i : StreamNo}
    (new : StreamQueuePending) (hid : new.id = nextId) (hs : a'.sendQueue = a.sendQueue)
    (hother : ∀ j, j ≠ i → (a'.strmout j).outqueue = (a.strmout j).outqueue)
    (hq : (a'.strmout i).outqueue = (a.strmout i).outqueue ++ [new]) :
    FillInv a' (nextId + 1) holder := by
  have hcases : ∀ j, ∀ x ∈ (a'.strmout j).outqueue,
      x ∈ (a.strmout j).outqueue ∨ x = new ∧ j = i := by
    intro j x hx
    by_cases hj : j = i
    · subst hj
      rw [hq] at hx
      rcases List.mem_append.mp hx with hx | hx
      · exact Or.inl hx
      · exact Or.inr ⟨List.mem_singleton.mp hx, rfl⟩
    · rw [hother j hj] at hx
      exact Or.inl hx
  have hfresh : ∀ c ∈ a.sendQueue, c.origin ≠ new.id := by
    intro c hc he
    have := h.origin_lt c hc
    omega
  have hne : ∀ j, ∀ x ∈ (a.strmout j).outqueue, x.id ≠ new.id := by
    intro j x hx he
    have := h.id_lt j x hx
    omega
  refine ⟨?_, ?_, ?_, ?_, ?_, ?_, ?_, ?_⟩
  · intro j x hx
    rcases hcases j x hx with hx | ⟨rfl, -⟩
    · have := h.id_lt j x hx
      omega
    · omega
  · intro c hc
    rw [hs] at hc
    have := h.origin_lt c hc
    omega
  · intro j
    by_cases hj : j = i
    · subst hj
      rw [hq, List.map_append, List.nodup_append]
      refine ⟨h.nodup j, by simp, ?_⟩
      intro x hx y hy
      obtain ⟨sp, hsp, rfl⟩ := List.mem_map.mp hx
      simp only [List.map_cons, List.map_nil, List.mem_singleton] at hy
      rw [hy]
      exact hne j sp hsp
    · rw [hother j hj]
      exact h.nodup j
  · intro j j' x hx y hy he
    rcases hcases j x hx with hx | ⟨rfl, rfl⟩ <;> rcases hcases j' y hy with hy | ⟨rfl, rfl⟩
    · exact h.disjoint j j' x hx y hy he
    · exact absurd he (hne j x hx)
    · exact absurd he.symm (hne j' y hy)
    · rfl
  · rintro j x hx ⟨c, hc, hcx⟩
    rw [hs] at hc
    rcases hcases j x hx with hx | ⟨rfl, -⟩
    · exact h.taken j x hx ⟨c, hc, hcx⟩
    · exact absurd hcx (hfresh c hc)
  · rintro j x hx ⟨c, hc, hcx, hcl⟩
    rw [hs] at hc
    rcases hcases j x hx with hx | ⟨rfl, -⟩
    · exact h.ended j x hx ⟨c, hc, hcx, hcl⟩
    · exact absurd hcx (hfresh c hc)
  · intro j x hx hst hend
    rw [hs] at hst hend ⊢
    rcases hcases j x hx with hx | ⟨rfl, -⟩
    · obtain ⟨hh, hhead, honly⟩ := h.held j x hx hst hend
      refine ⟨hh, ?_, honly⟩
      by_cases hj : j = i
      · subst hj
        rw [hq, List.head?_append, hhead]
        rfl
      · rw [hother j hj]
        exact hhead
    · obtain ⟨c, hc, hcx, -⟩ := hst
      exact absurd hcx (hfresh c hc)
  · rw [hs]
    exact h.notInterleaved

theorem sender {s : FillState} (h : FillInv s.assoc s.nextId s.assoc.lockedOnSending)
    (ev : SenderEvent) : FillInv (ev.apply s).assoc (ev.apply s).nextId
      (ev.apply s).assoc.lockedOnSending := by
  cases ev with
  | enqueue i sp =>
    refine h.enqueue (i := i)
      { sp with
        id := s.nextId
        length := sp.data.flatten.length
        stream := i
        someTaken := false
        putLastOut := false } rfl rfl (fun j hj => ?_) ?_
    · simp [SenderEvent.apply, hj]
    · simp only [SenderEvent.apply, setStream_strmout, if_true]
  | extend i id data =>
    refine h.modifyMessage i id fun sp => ?_
    split_ifs with hc
    · exact Kept.refl sp
    · exact ⟨rfl, fun h => h, fun h => absurd h hc⟩
  | complete i id => exact h.modifyMessage i id fun sp => ⟨rfl, fun h => h, fun _ h => ⟨rfl, h⟩⟩
  | allDone i id => exact h.modifyMessage i id fun sp => ⟨rfl, fun h => h, fun h h' => ⟨h, h'⟩⟩
  | discard i id => exact h.modifyMessage i id fun sp => ⟨rfl, fun h => h, fun h h' => ⟨h, h'⟩⟩

theorem fresh (tsn : Tsn) : FillInv (freshState tsn).assoc (freshState tsn).nextId
    (freshState tsn).assoc.lockedOnSending := by
  constructor <;> simp [freshState, freshAssoc, NotInterleaved]

theorem fillRun (evs : List FillEvent) {s : FillState}
    (h : FillInv s.assoc s.nextId s.assoc.lockedOnSending)
    (hnd : ∀ fc, .fill fc ∈ evs → fc.cfg.peerSupportsNdata = false)
    (hkeep : ∀ m ∈ fillMoves s evs, m.KeepsLock) :
    FillInv (fillRun s evs).assoc (Sctp.fillRun s evs).nextId
      (Sctp.fillRun s evs).assoc.lockedOnSending := by
  induction evs generalizing s with
  | nil => exact h
  | cons ev evs ih =>
    have hm : ∀ m ∈ ev.moves s, m.KeepsLock := fun m hm =>
      hkeep m (List.mem_append_left _ hm)
    refine ih (s := ev.apply s) ?_ (fun fc hfc => hnd fc (List.mem_cons_of_mem _ hfc))
      (fun m hm => hkeep m (List.mem_append_right _ hm))
    cases ev with
    | sender ev => exact h.sender ev
    | fill fc => exact h.fillOutqueue (hnd fc List.mem_cons_self) hm

end FillInv

theorem fillMoves_append (s : FillState) (evs evs' : List FillEvent) :
    fillMoves s (evs ++ evs') = fillMoves s evs ++ fillMoves (fillRun s evs) evs' := by
  induction evs generalizing s with
  | nil => rfl
  | cons ev evs ih =>
    rw [List.cons_append, fillMoves, ih, fillMoves, List.append_assoc]
    rfl

/-- In no state of a run are fragments interleaved, as long as no allocation or copy fails while
the message in front of its stream has been started. -/
theorem fillOutqueue_not_interleaved (tsn : Tsn) (evs : List FillEvent)
    (hnd : ∀ fc, .fill fc ∈ evs → fc.cfg.peerSupportsNdata = false)
    (hkeep : ∀ m ∈ fillMoves (freshState tsn) evs, m.KeepsLock) :
    ∀ pre post, evs = pre ++ post →
      NotInterleaved (fillRun (freshState tsn) pre).assoc.sendQueue := by
  rintro pre post rfl
  rw [fillMoves_append] at hkeep
  exact ((FillInv.fresh tsn).fillRun pre (fun fc hfc => hnd fc (List.mem_append_left _ hfc))
    (fun m hm => hkeep m (List.mem_append_left _ hm))).notInterleaved

/-- A packet for a path MTU of 1500 with a fragmentation point of two bytes; the scheduler
selects `pick` in turn, and the allocation of the chunk fails in move `fails`. -/
def smallFill (pick : List StreamNo) (fails : ℕ) : FillEvent :=
  .fill
    { cfg := plainConfig
      family := .inet
      mtu := 1500
      fragPoint := 2
      eeorMode := false
      totalFlight := 0
      pick := fun n => pick[n]?
      chunkAllocFails := fun n => n == fails
      copyFails := fun _ => false
      leadingSpace := fun _ => 0
      mbufAllocFails := fun _ => false
      padFails := fun _ => false }

/-- A message of three bytes on stream 0 and one of one byte on stream 1. -/
def twoStreams : List FillEvent :=
  [.sender (.enqueue 0 (twoMessages.message 0 [[1, 2, 3]] false)),
    .sender (.enqueue 1 (twoMessages.message 0 [[4]] false))]

/-- The allocation fails before anything of the message is taken. -/
theorem twoStreams_not_interleaved :
    NotInterleaved (fillRun (freshState 0) (twoStreams ++ [smallFill [0, 1] 0, smallFill [0, 1] 9])
      ).assoc.sendQueue := by
  refine fillOutqueue_not_interleaved 0 _ ?_ ?_ _ [] (List.append_nil _).symm
  · intro fc hfc
    simp only [twoStreams, smallFill, List.cons_append, List.nil_append, List.mem_cons,
      List.not_mem_nil, or_false, reduceCtorEq, false_or, FillEvent.fill.injEq] at hfc
    rcases hfc with rfl | rfl <;> rfl
  · decide +kernel

/-- The allocation of the second chunk fails, and the lock is lost with it. -/
theorem twoStreams_interleaved :
    ¬ NotInterleaved (fillRun (freshState 0) (twoStreams ++ [smallFill [0] 1, smallFill [1, 0] 9])
      ).assoc.sendQueue := by
  intro h
  have hq : (fillRun (freshState 0) (twoStreams ++ [smallFill [0] 1, smallFill [1, 0] 9])
      ).assoc.sendQueue.map (fun c => (c.origin, c.rcvFlags.first, c.rcvFlags.last)) =
      [(0, true, false), (1, true, true), (0, false, true)] := by
    decide +kernel
  generalize (fillRun (freshState 0) (twoStreams ++ [smallFill [0] 1, smallFill [1, 0] 9])
    ).assoc.sendQueue = q at h hq
  obtain ⟨c₀, q, rfl, h0, hq⟩ := List.map_eq_cons_iff.mp hq
  obtain ⟨c₁, q, rfl, h1, hq⟩ := List.map_eq_cons_iff.mp hq
  obtain ⟨c₂, q, rfl, h2, -⟩ := List.map_eq_cons_iff.mp hq
  simp only [Prod.mk.injEq] at h0 h1 h2
  have := h 0 1 2 c₀ c₁ c₂ (by norm_num) (by norm_num) rfl rfl rfl (h0.1.trans h2.1.symm) h0.2.1
    h2.2.2
  omega

end Sctp
