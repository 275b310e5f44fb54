import Sctp.Sender.Abandon
import Sctp.Sender.TsnFrame

/-! The sent queue is sorted by TSN as long as no abandoned chunk is put behind a later one. -/
namespace Sctp

/-- TSNs of the two queues, between the cumulative ack and the next TSN, by their distance from the
former. -/
structure InOrder (last next : Tsn) (sent unsent : List Tsn) : Prop where
  room : (next - last).toNat < 2 ^ 31
  ahead : 0 < (next - last).toNat
  sentSorted : sent.Pairwise fun a b => (a - last).toNat < (b - last).toNat
  unsentSorted : unsent.Pairwise fun a b => (a - last).toNat < (b - last).toNat
  inside : ∀ t ∈ sent ++ unsent, 0 < (t - last).toNat ∧ (t - last).toNat < (next - last).toNat
  disjoint : ∀ t ∈ sent, t ∉ unsent

/-- Close to the cumulative ack, serial order is the order of the distances. -/
theorem tsnGt_iff_near {last a b : Tsn} (ha : (a - last).toNat < 2 ^ 31)
    (hb : (b - last).toNat < 2 ^ 31) :
    tsnGt a b = true ↔ (b - last).toNat < (a - last).toNat := by
  have hda : Serial.dist last a = (a - last).toNat := Serial.dist_eq_toNat ha
  have hdb : Serial.dist last b = (b - last).toNat := Serial.dist_eq_toNat hb
  rw [tsnGt_iff_dist last a b (by omega), hda, hdb]
  omega

theorem tsnGe_iff_near {last a b : Tsn} (ha : (a - last).toNat < 2 ^ 31)
    (hb : (b - last).toNat < 2 ^ 31) :
    tsnGe a b = true ↔ (b - last).toNat ≤ (a - last).toNat := by
  have hda : Serial.dist last a = (a - last).toNat := Serial.dist_eq_toNat ha
  have hdb : Serial.dist last b = (b - last).toNat := Serial.dist_eq_toNat hb
  rw [tsnGe_iff_dist last a b (by omega), hda, hdb]
  omega

theorem sub_toNat_of_le {last cum t : Tsn} (h : (cum - last).toNat ≤ (t - last).toNat) :
    (t - cum).toNat = (t - last).toNat - (cum - last).toNat := by
  bv_omega

namespace InOrder

variable {last next : Tsn} {sent unsent : List Tsn}

theorem near (h : InOrder last next sent unsent) {t : Tsn} (ht : t ∈ sent ++ unsent) :
    (t - last).toNat < 2 ^ 31 :=
  (h.inside t ht).2.trans h.room

theorem sub_inj {a b : Tsn} (h : (a - last).toNat = (b - last).toNat) : a = b := by
  bv_omega

/-- A chunk takes the next TSN. -/
theorem assign (h : InOrder last next sent unsent) (hroom : (next - last).toNat + 1 < 2 ^ 31) :
    InOrder last (next + 1) sent (unsent ++ [next]) := by
  have hnext : (next + 1 - last).toNat = (next - last).toNat + 1 := by bv_omega
  refine ⟨by omega, by omega, h.sentSorted, ?_, fun t ht => ?_, fun t ht hmem => ?_⟩
  · refine List.pairwise_append.2 ⟨h.unsentSorted, List.pairwise_singleton _ _, fun a ha b hb => ?_⟩
    rw [List.mem_singleton.1 hb]
    exact (h.inside a (List.mem_append_right _ ha)).2
  · rw [← List.append_assoc] at ht
    obtain ht | ht := List.mem_append.1 ht
    · have := h.inside t ht
      omega
    · rw [List.mem_singleton.1 ht]
      have := h.ahead
      omega
  · obtain hmem | hmem := List.mem_append.1 hmem
    · exact h.disjoint t ht hmem
    · have := (h.inside t (List.mem_append_left _ ht)).2
      rw [List.mem_singleton.1 hmem] at this
      omega

/-- The placeholder takes the next TSN, at the end of the sent queue. -/
theorem assignSent (h : InOrder last next sent unsent) (hroom : (next - last).toNat + 1 < 2 ^ 31) :
    InOrder last (next + 1) (sent ++ [next]) unsent := by
  have hnext : (next + 1 - last).toNat = (next - last).toNat + 1 := by bv_omega
  refine ⟨by omega, by omega, ?_, h.unsentSorted, fun t ht => ?_, fun t ht hmem => ?_⟩
  · refine List.pairwise_append.2 ⟨h.sentSorted, List.pairwise_singleton _ _, fun a ha b hb => ?_⟩
    rw [List.mem_singleton.1 hb]
    exact (h.inside a (List.mem_append_left _ ha)).2
  · have ht : t ∈ sent ++ unsent ∨ t = next := by
      simp only [List.mem_append, List.mem_singleton] at ht ⊢
      tauto
    obtain ht | rfl := ht
    · have := h.inside t ht
      omega
    · have := h.ahead
      omega
  · obtain ht | ht := List.mem_append.1 ht
    · exact h.disjoint t ht hmem
    · have := (h.inside t (List.mem_append_right _ hmem)).2
      rw [List.mem_singleton.1 ht] at this
      omega

/-- The cumulative ack moves over a first part of the sent queue and over nothing unsent. -/
theorem pass {cum : Tsn} {l rest : List Tsn} (h : InOrder last next (l ++ rest) unsent)
    (hcum : (cum - last).toNat < (next - last).toNat)
    (hhead : ∀ x ∈ rest.head?, tsnGe cum x = false)
    (hunsent : ∀ x ∈ unsent, tsnGt x cum = true) : InOrder cum next rest unsent := by
  have hroom := h.room
  have hnearcum : (cum - last).toNat < 2 ^ 31 := by omega
  have hsorted := (List.pairwise_append.1 h.sentSorted).2.1
  have hrest : ∀ t ∈ rest, t ∈ (l ++ rest) ++ unsent := fun t ht =>
    List.mem_append_left _ (List.mem_append_right _ ht)
  -- behind the first chunk that is not passed, none is
  have habove : ∀ t ∈ rest ++ unsent, (cum - last).toNat < (t - last).toNat := by
    intro t ht
    obtain ht | ht := List.mem_append.1 ht
    · cases rest with
      | nil => cases ht
      | cons x rest =>
        have hx : (cum - last).toNat < (x - last).toNat := by
          have hge := hhead x rfl
          rw [← Bool.not_eq_true, tsnGe_iff_near hnearcum (h.near (hrest x List.mem_cons_self))] at hge
          omega
        obtain rfl | ht := List.mem_cons.1 ht
        · exact hx
        · exact hx.trans ((List.pairwise_cons.1 hsorted).1 t ht)
    · exact (tsnGt_iff_near (h.near (List.mem_append_right _ ht)) hnearcum).1 (hunsent t ht)
  have hsub : ∀ t ∈ rest ++ unsent, (t - cum).toNat = (t - last).toNat - (cum - last).toNat :=
    fun t ht => sub_toNat_of_le (habove t ht).le
  have hnext : (next - cum).toNat = (next - last).toNat - (cum - last).toNat :=
    sub_toNat_of_le hcum.le
  refine ⟨by omega, by omega, ?_, ?_, fun t ht => ?_, fun t ht => ?_⟩
  · refine hsorted.imp_of_mem fun {a b} ha hb hab => ?_
    have hcuma := habove a (List.mem_append_left _ ha)
    rw [hsub a (List.mem_append_left _ ha), hsub b (List.mem_append_left _ hb)]
    omega
  · refine h.unsentSorted.imp_of_mem fun {a b} ha hb hab => ?_
    have hcuma := habove a (List.mem_append_right _ ha)
    rw [hsub a (List.mem_append_right _ ha), hsub b (List.mem_append_right _ hb)]
    omega
  · have hin : t ∈ (l ++ rest) ++ unsent := by
      rw [List.append_assoc]
      exact List.mem_append_right l ht
    have := h.inside t hin
    have := habove t ht
    rw [hsub t ht]
    omega
  · exact h.disjoint t (List.mem_append_right l ht)

theorem nodup (h : InOrder last next sent unsent) : (sent ++ unsent).Nodup := by
  refine List.nodup_append.2 ⟨h.sentSorted.imp ?_, h.unsentSorted.imp ?_, fun a ha b hb heq => ?_⟩
  · rintro a b hlt rfl
    exact lt_irrefl _ hlt
  · rintro a b hlt rfl
    exact lt_irrefl _ hlt
  · exact h.disjoint a ha (heq ▸ hb)

/-- Some of the waiting chunks get their place on the sent queue. -/
theorem shift {sent' : List Tsn} (p : Tsn → Bool) (h : InOrder last next sent unsent)
    (hperm : sent'.Perm (unsent.filter p ++ sent))
    (hsorted : sent'.Pairwise fun a b => (a - last).toNat < (b - last).toNat) :
    InOrder last next sent' (unsent.filter fun t => !p t) := by
  have hmem : ∀ t ∈ sent', (t ∈ unsent ∧ p t = true) ∨ t ∈ sent := fun t ht => by
    obtain ht | ht := List.mem_append.1 (hperm.mem_iff.1 ht)
    · exact .inl (List.mem_filter.1 ht)
    · exact .inr ht
  refine ⟨h.room, h.ahead, hsorted, h.unsentSorted.filter _, fun t ht => ?_, fun t ht hrest => ?_⟩
  · apply h.inside t
    obtain ht | ht := List.mem_append.1 ht
    · obtain ht | ht := hmem t ht
      · exact List.mem_append_right _ ht.1
      · exact List.mem_append_left _ ht
    · exact List.mem_append_right _ (List.mem_filter.1 ht).1
  · obtain ⟨hun, hnot⟩ := List.mem_filter.1 hrest
    obtain ht | ht := hmem t ht
    · rw [ht.2] at hnot
      cases hnot
    · exact h.disjoint t ht hun

/-- Waiting chunks go to the end of the sent queue; none there may be later. -/
theorem append {run rest : List Tsn} (h : InOrder last next sent (run ++ rest))
    (hrun : ∀ t ∈ run, ∀ x ∈ sent, tsnGt t x = true) :
    InOrder last next (sent ++ run) rest := by
  obtain ⟨hsorted, hrest, hcross⟩ := List.pairwise_append.1 h.unsentSorted
  refine ⟨h.room, h.ahead, ?_, hrest, fun t ht => ?_, fun t ht hmem => ?_⟩
  · refine List.pairwise_append.2 ⟨h.sentSorted, hsorted, fun a ha b hb => ?_⟩
    have hb' : b ∈ sent ++ (run ++ rest) := List.mem_append_right _ (List.mem_append_left _ hb)
    exact (tsnGt_iff_near (h.near hb') (h.near (List.mem_append_left _ ha))).1 (hrun b hb a ha)
  · rw [List.append_assoc] at ht
    exact h.inside t ht
  · obtain ht | ht := List.mem_append.1 ht
    · exact h.disjoint t ht (List.mem_append_right _ hmem)
    · exact absurd (hcross t ht t hmem) (lt_irrefl _)

end InOrder

variable {n : ℕ}

/-- The place that `sctp_clean_up_datalist` finds for a chunk. -/
theorem insertSent_split (q : List (SentChunk n)) (c : SentChunk n) :
    ∃ l r, q = l ++ r ∧ insertSent q c = l ++ c :: r ∧ (∀ d ∈ r, tsnGt d.tsn c.tsn = true) ∧
      ∀ d ∈ l.getLast?, tsnGt d.tsn c.tsn = false := by
  refine ⟨_, _, ?_, rfl, fun d hd => ?_, fun d hd => ?_⟩
  · rw [← List.reverse_append, List.takeWhile_append_dropWhile, List.reverse_reverse]
  · exact List.mem_takeWhile_imp (p := fun d : SentChunk n => tsnGt d.tsn c.tsn)
      (List.mem_reverse.1 hd)
  · rw [List.getLast?_reverse] at hd
    have hnot := List.head?_dropWhile_not (fun d : SentChunk n => tsnGt d.tsn c.tsn) q.reverse
    rw [show (q.reverse.dropWhile fun d => tsnGt d.tsn c.tsn).head? = some d from hd] at hnot
    simpa using hnot

/-- Sorted by the distance from `last`. -/
def SortedFrom (last : Tsn) (q : List (SentChunk n)) : Prop :=
  q.Pairwise fun a b => (a.tsn - last).toNat < (b.tsn - last).toNat

theorem insertSent_sorted {last : Tsn} {q : List (SentChunk n)} {c : SentChunk n}
    (hsorted : SortedFrom last q) (hnear : ∀ d ∈ c :: q, (d.tsn - last).toNat < 2 ^ 31)
    (hnew : ∀ d ∈ q, d.tsn ≠ c.tsn) : SortedFrom last (insertSent q c) := by
  obtain ⟨l, r, rfl, hins, hafter, hbefore⟩ := insertSent_split q c
  obtain ⟨hl, hr, hlr⟩ := List.pairwise_append.1 hsorted
  have hc := hnear c List.mem_cons_self
  have hbelow : ∀ d ∈ l, (d.tsn - last).toNat < (c.tsn - last).toNat := by
    obtain rfl | ⟨l, e, rfl⟩ := List.eq_nil_or_concat l
    · exact fun d hd => by cases hd
    · rw [List.concat_eq_append] at hl hbefore hnear hnew ⊢
      have he : (e.tsn - last).toNat < (c.tsn - last).toNat := by
        have hnot := hbefore e (by simp)
        rw [← Bool.not_eq_true, tsnGt_iff_near (hnear e (by simp)) hc] at hnot
        have hne : (e.tsn - last).toNat ≠ (c.tsn - last).toNat := fun heq =>
          hnew e (by simp) (InOrder.sub_inj heq)
        omega
      intro d hd
      obtain hd | hd := List.mem_append.1 hd
      · exact ((List.pairwise_append.1 hl).2.2 d hd e (by simp)).trans he
      · exact List.mem_singleton.1 hd ▸ he
  have habove : ∀ d ∈ r, (c.tsn - last).toNat < (d.tsn - last).toNat := fun d hd =>
    (tsnGt_iff_near (hnear d (by simp [hd])) hc).1 (hafter d hd)
  rw [hins]
  refine List.pairwise_append.2 ⟨hl, List.pairwise_cons.2 ⟨habove, hr⟩, fun a ha b hb => ?_⟩
  obtain rfl | hb := List.mem_cons.1 hb
  · exact hbelow a ha
  · exact hlr a ha b hb

/-- A bundle of new chunks keeps the order. -/
theorem foldl_insertSent_sorted {last : Tsn} (cs : List (SentChunk n)) {q : List (SentChunk n)}
    (hsorted : SortedFrom last q) (hnear : ∀ d ∈ cs ++ q, (d.tsn - last).toNat < 2 ^ 31)
    (hnew : ((cs ++ q).map SentChunk.tsn).Nodup) :
    SortedFrom last (cs.foldl insertSent q) ∧ (cs.foldl insertSent q).Perm (cs ++ q) := by
  induction cs generalizing q with
  | nil => exact ⟨hsorted, .refl q⟩
  | cons c cs ih =>
    have hperm : (cs ++ insertSent q c).Perm (c :: (cs ++ q)) :=
      (List.Perm.append_left cs (insertSent_perm q c)).trans List.perm_middle
    rw [List.cons_append, List.map_cons, List.nodup_cons] at hnew
    obtain ⟨hs, hp⟩ := ih (q := insertSent q c)
      (insertSent_sorted hsorted
        (fun d hd => hnear d (by
          obtain rfl | hd := List.mem_cons.1 hd
          · exact List.mem_cons_self
          · exact List.mem_append_right _ hd))
        (fun d hd heq => hnew.1 (heq ▸ List.mem_map_of_mem (List.mem_append_right _ hd))))
      (fun d hd => hnear d (hperm.mem_iff.1 hd))
      ((hperm.map SentChunk.tsn).nodup_iff.2 (List.nodup_cons.2 hnew))
    exact ⟨hs, hp.trans hperm⟩

theorem foldl_cleanUpChunk (cfg : SenderConfig) (net : Fin n) (time : ℕ) (ds : List (DataItem n))
    (s : Sender n) :
    (ds.foldl (cleanUpChunk cfg net time) s).ends = s.ends ∧
      (ds.foldl (cleanUpChunk cfg net time) s).sentQueue =
        (ds.map fun d => d.sentChunk net time).foldl insertSent s.sentQueue := by
  induction ds generalizing s with
  | nil => exact ⟨rfl, rfl⟩
  | cons d ds ih => exact ih (cleanUpChunk cfg net time s d)

theorem fillBundle_tsns (oneChunk : Bool) (s : Sender n) (ds : List (DataItem n)) :
    (fillBundle oneChunk s ds).map (fun d => d.chunk.tsn) = ds.map fun d => d.chunk.tsn := by
  cases ds with
  | nil => rfl
  | cons d ds => simp [fillBundle]

/-- The chunks that a transmission puts on the sent queue. -/
theorem transmit_tsns (cfg : SenderConfig) (net : Fin n) (time : ℕ) (oneChunk : Bool)
    (ds : List (DataItem n)) (sendQueue : Option Tsn) (s : Sender n) :
    (transmit cfg net time oneChunk ds sendQueue s).ends = s.ends ∧
      ∃ cs : List (SentChunk n), cs.map SentChunk.tsn = ds.map (fun d => d.chunk.tsn) ∧
        (transmit cfg net time oneChunk ds sendQueue s).sentQueue = cs.foldl insertSent s.sentQueue := by
  unfold transmit cleanUpDatalist
  dsimp only
  refine ⟨?_, (fillBundle oneChunk s ds).map fun d => d.sentChunk net time, ?_, ?_⟩
  · rw [(foldl_cleanUpChunk cfg net time _ _).1]
    split <;> rfl
  · rw [List.map_map, ← fillBundle_tsns oneChunk s ds]
    rfl
  · rw [(foldl_cleanUpChunk cfg net time _ _).2]
    split <;> rfl

namespace OutQueues

/-- The queues are in order, between `last_acked_seq` and `sending_seq`. -/
def Ordered (s : OutQueues n) : Prop :=
  InOrder s.sender.lastAckedSeq s.sender.sendingSeq s.sent s.unsent

theorem Ordered.congr {s t : OutQueues n} (h : s.Ordered) (hends : t.sender.ends = s.sender.ends)
    (hsent : t.sent = s.sent) (hunsent : t.unsent = s.unsent) : t.Ordered := by
  obtain ⟨hlast, hnext⟩ := Prod.mk.inj hends
  unfold Ordered
  rw [hlast, hnext, hsent, hunsent]
  exact h

theorem Ordered.moveChunk {s : OutQueues n} (h : s.Ordered)
    (hroom : (s.sender.sendingSeq - s.sender.lastAckedSeq).toNat + 1 < 2 ^ 31)
    (chunk : SentChunk n) (whoTo : Option (Fin n)) (info : MsgInfo) :
    (s.moveChunk chunk whoTo info).Ordered := by
  have hunsent : (s.moveChunk chunk whoTo info).unsent = s.unsent ++ [s.sender.sendingSeq] := by
    simp [OutQueues.moveChunk, noteHead, unsent]
  unfold Ordered
  rw [hunsent]
  exact InOrder.assign h hroom

theorem unsent_filter (s : OutQueues n) (p : Tsn → Bool) :
    (s.sendList.filter fun d => p d.chunk.tsn).map (fun d => d.chunk.tsn) = s.unsent.filter p := by
  rw [unsent, List.filter_map]
  rfl

theorem Ordered.transmitPicked {s : OutQueues n} (h : s.Ordered) (cfg : SenderConfig) (net : Fin n)
    (time : ℕ) (oneChunk : Bool) (picked : List Tsn) :
    (s.transmitPicked cfg net time oneChunk picked).Ordered := by
  obtain ⟨hends, cs, hcs, hqueue⟩ := transmit_tsns cfg net time oneChunk
    (s.sendList.filter fun d => decide (d.chunk.tsn ∈ picked))
    ((s.sendList.filter fun d => !decide (d.chunk.tsn ∈ picked)).head?.map fun d => d.chunk.tsn)
    s.sender
  rw [unsent_filter s fun t => decide (t ∈ picked)] at hcs
  have hmap : (cs ++ s.sender.sentQueue).map SentChunk.tsn =
      s.unsent.filter (fun t => decide (t ∈ picked)) ++ s.sent := by
    rw [List.map_append, hcs, sent]
  have hsub : ∀ d ∈ cs ++ s.sender.sentQueue, d.tsn ∈ s.sent ++ s.unsent := by
    intro d hd
    have hin : d.tsn ∈ (cs ++ s.sender.sentQueue).map SentChunk.tsn := List.mem_map_of_mem hd
    rw [hmap] at hin
    obtain hin | hin := List.mem_append.1 hin
    · exact List.mem_append_right _ (List.mem_filter.1 hin).1
    · exact List.mem_append_left _ hin
  have hnew : ((cs ++ s.sender.sentQueue).map SentChunk.tsn).Nodup := by
    rw [hmap]
    refine (List.perm_append_comm.nodup_iff).1 (h.nodup.sublist ?_)
    exact List.Sublist.append_left List.filter_sublist _
  have hold : SortedFrom s.sender.lastAckedSeq s.sender.sentQueue := by
    have hsent := h.sentSorted
    rw [sent, List.pairwise_map] at hsent
    exact hsent
  obtain ⟨hsorted, hperm⟩ :=
    foldl_insertSent_sorted cs hold (fun d hd => h.near (hsub d hd)) hnew
  have hsent : (s.transmitPicked cfg net time oneChunk picked).sent =
      (cs.foldl insertSent s.sender.sentQueue).map SentChunk.tsn := by
    rw [← hqueue]
    rfl
  have hunsent : (s.transmitPicked cfg net time oneChunk picked).unsent =
      s.unsent.filter fun t => !decide (t ∈ picked) :=
    unsent_filter s fun t => !decide (t ∈ picked)
  obtain ⟨hlast, hnext⟩ := Prod.mk.inj hends
  unfold Ordered
  rw [hsent, hunsent, show (s.transmitPicked cfg net time oneChunk picked).sender.lastAckedSeq = _ from hlast,
    show (s.transmitPicked cfg net time oneChunk picked).sender.sendingSeq = _ from hnext]
  refine InOrder.shift (fun t => decide (t ∈ picked)) h ?_ (List.pairwise_map.2 hsorted)
  rw [← hmap]
  exact hperm.map SentChunk.tsn

@[simp] theorem ends_skipAsoc (cfg : SenderConfig) (a : Asoc n) (c : SentChunk n) :
    (skipAsoc cfg a c).ends = a.ends := by
  unfold skipAsoc
  split
  · dsimp only
    split <;> rfl
  · rfl

theorem skipSent_same (cfg : SenderConfig) (info : Tsn → MsgInfo) (a : Asoc n)
    (q : List (SentChunk n)) :
    (skipSent cfg info a q).1.ends = a.ends ∧
      (skipSent cfg info a q).2.map SentChunk.tsn = q.map SentChunk.tsn := by
  induction q generalizing a with
  | nil => exact ⟨rfl, rfl⟩
  | cons c q ih =>
    unfold skipSent
    split
    · exact ⟨ends_skipAsoc cfg a c, rfl⟩
    · obtain ⟨hends, htsns⟩ := ih (skipAsoc cfg a c)
      refine ⟨hends.trans (ends_skipAsoc cfg a c), ?_⟩
      rw [List.map_cons, htsns]
      rfl

/-- What decides how far the second loop goes. -/
def key (d : DataItem n) : Tsn × StreamNo := (d.chunk.tsn, d.chunk.streamNumber)

theorem skipUnsent_same {cfg : SenderConfig} {info : Tsn → MsgInfo} {a : Asoc n}
    {q : List (DataItem n)} {r : Asoc n × List (DataItem n)}
    (h : skipUnsent cfg info a q = some r) : r.1.ends = a.ends ∧ r.2.map key = q.map key := by
  induction q generalizing a r with
  | nil =>
    cases h
    exact ⟨rfl, rfl⟩
  | cons d q ih =>
    unfold skipUnsent at h
    split at h
    · cases h
    · dsimp only at h
      split at h
      · cases h
        exact ⟨ends_skipAsoc cfg a _, rfl⟩
      · obtain ⟨r', hr', rfl⟩ := Option.map_eq_some_iff.1 h
        obtain ⟨hends, hkeys⟩ := ih hr'
        refine ⟨hends.trans (ends_skipAsoc cfg a _), ?_⟩
        rw [List.map_cons, hkeys]
        rfl

theorem scattered_tsns (s : OutQueues n) (stream : StreamNo) (seq : Ssn) :
    (s.scattered stream seq).map (fun d => d.chunk.tsn) =
      ((s.sendList.map key).takeWhile fun k =>
        k.2 == stream && (s.info k.1).streamSeq == seq).map Prod.fst := by
  rw [List.takeWhile_map, List.map_map]
  rfl

theorem unsent_keys (s : OutQueues n) : s.unsent = (s.sendList.map key).map Prod.fst := by
  rw [List.map_map]
  rfl

theorem moveScattered_unsent (s : OutQueues n) (stream : StreamNo) (seq : Ssn) :
    s.unsent = (s.scattered stream seq).map (fun d => d.chunk.tsn) ++
      (s.moveScattered stream seq).unsent := by
  have hsplit := List.prefix_iff_eq_append.1 (List.takeWhile_prefix (l := s.sendList) fun d =>
    d.chunk.streamNumber == stream && (s.info d.chunk.tsn).streamSeq == seq)
  have hunsent := congrArg (List.map fun d : DataItem n => d.chunk.tsn) hsplit
  rw [List.map_append] at hunsent
  exact hunsent.symm

theorem Ordered.moveScattered {s : OutQueues n} (h : s.Ordered) {stream : StreamNo} {seq : Ssn}
    (hrun : ∀ d ∈ s.scattered stream seq, ∀ x ∈ s.sent, tsnGt d.chunk.tsn x = true) :
    (s.moveScattered stream seq).Ordered := by
  have hsent : (s.moveScattered stream seq).sent =
      s.sent ++ (s.scattered stream seq).map fun d => d.chunk.tsn := by
    simp [OutQueues.moveScattered, noteHead, sent, skippedItem]
  unfold Ordered at h ⊢
  rw [moveScattered_unsent s stream seq] at h
  rw [hsent]
  refine InOrder.append h fun t ht x hx => ?_
  obtain ⟨d, hd, rfl⟩ := List.mem_map.1 ht
  exact hrun d hd x hx

theorem Ordered.settleRest {s : OutQueues n} (h : s.Ordered) {moved : Option Tsn}
    {rest : Option StreamRest}
    (hroom : moved = none → rest.isSome →
      (s.sender.sendingSeq - s.sender.lastAckedSeq).toNat + 1 < 2 ^ 31)
    (stream : StreamNo) (whoTo : Fin n) : (s.settleRest moved stream whoTo rest).Ordered := by
  cases rest with
  | none => exact h
  | some rest =>
    cases moved with
    | some tsn => exact h.congr rfl rfl rfl
    | none =>
      unfold OutQueues.settleRest
      dsimp only
      split
      · exact h
      · unfold Ordered
        have hplaced := InOrder.assignSent h (hroom rfl rfl)
        rw [sent] at hplaced ⊢
        rw [List.map_append]
        exact hplaced

/-- The second loop keeps the order, and so does the placeholder. -/
structure ScatteredInOrder (s : OutQueues n) (stream : StreamNo) (seq : Ssn)
    (rest : Option StreamRest) : Prop where
  later : ∀ d ∈ s.scattered stream seq, ∀ x ∈ s.sent, tsnGt d.chunk.tsn x = true
  room : s.scattered stream seq = [] → rest.isSome →
    (s.sender.sendingSeq - s.sender.lastAckedSeq).toNat + 1 < 2 ^ 31

local instance lawfulBEq_tsn : LawfulBEq Tsn := inferInstance

instance ScatteredInOrder.decidable (s : OutQueues n) (stream : StreamNo) (seq : Ssn)
    (rest : Option StreamRest) : Decidable (s.ScatteredInOrder stream seq rest) :=
  decidable_of_iff
    ((∀ d ∈ s.scattered stream seq, ∀ x ∈ s.sent, tsnGt d.chunk.tsn x = true) ∧
      ((s.scattered stream seq).isEmpty → rest.isSome →
        (s.sender.sendingSeq - s.sender.lastAckedSeq).toNat + 1 < 2 ^ 31))
    ⟨fun h => ⟨h.1, fun hnil => h.2 (List.isEmpty_iff.2 hnil)⟩,
      fun h => ⟨h.later, fun hnil => h.room (List.isEmpty_iff.1 hnil)⟩⟩

theorem Ordered.releaseScattered {s : OutQueues n} (h : s.Ordered) {stream : StreamNo} {seq : Ssn}
    {rest : Option StreamRest} (hrun : s.ScatteredInOrder stream seq rest) (whoTo : Fin n) :
    (s.releaseScattered stream seq whoTo rest).Ordered := by
  unfold OutQueues.releaseScattered
  dsimp only
  split
  · exact h.moveScattered hrun.later
  · refine (h.moveScattered hrun.later).settleRest (fun hnone hrest => ?_) stream whoTo
    refine hrun.room ?_ hrest
    simpa using hnone

theorem ScatteredInOrder.congr {s t : OutQueues n} {stream : StreamNo} {seq : Ssn}
    {rest : Option StreamRest} (h : s.ScatteredInOrder stream seq rest)
    (hends : t.sender.ends = s.sender.ends) (hsent : t.sent = s.sent)
    (hkeys : t.sendList.map key = s.sendList.map key) (hinfo : t.info = s.info) :
    t.ScatteredInOrder stream seq rest := by
  have htsns : (t.scattered stream seq).map (fun d => d.chunk.tsn) =
      (s.scattered stream seq).map fun d => d.chunk.tsn := by
    rw [scattered_tsns, scattered_tsns, hkeys, hinfo]
  obtain ⟨hlast, hnext⟩ := Prod.mk.inj hends
  refine ⟨fun d hd x hx => ?_, fun hnil hrest => ?_⟩
  · have hin : d.chunk.tsn ∈ (t.scattered stream seq).map fun d => d.chunk.tsn :=
      List.mem_map_of_mem hd
    rw [htsns] at hin
    obtain ⟨e, he, heq⟩ := List.mem_map.1 hin
    rw [← heq]
    exact h.later e he x (hsent ▸ hx)
  · rw [hlast, hnext]
    refine h.room ?_ hrest
    rw [hnil, List.map_nil, eq_comm, List.map_eq_nil_iff] at htsns
    exact htsns

theorem Ordered.releaseSent {s : OutQueues n} (h : s.Ordered) (cfg : SenderConfig) {place : ℕ}
    {rest : Option StreamRest}
    (hrun : ∀ c ∈ s.sender.sentQueue[place]?,
      (∀ d ∈ s.sender.sentQueue.drop place, (s.info d.tsn).lastFrag = false) →
        s.ScatteredInOrder c.streamNumber (s.info c.tsn).streamSeq rest) :
    (s.releaseSent cfg place rest).Ordered := by
  unfold OutQueues.releaseSent
  split
  · exact h
  · rename_i c hc
    obtain ⟨hends, htsns⟩ := skipSent_same cfg s.info s.sender.toAsoc (s.sender.sentQueue.drop place)
    have hsent : (s.sender.sentQueue.take place ++
        (skipSent cfg s.info s.sender.toAsoc (s.sender.sentQueue.drop place)).2).map SentChunk.tsn =
          s.sent := by
      rw [List.map_append, htsns, ← List.map_append, List.take_append_drop, sent]
    have hordered : Ordered { s with
        sender := {
          toAsoc := (skipSent cfg s.info s.sender.toAsoc (s.sender.sentQueue.drop place)).1
          sentQueue := s.sender.sentQueue.take place ++
            (skipSent cfg s.info s.sender.toAsoc (s.sender.sentQueue.drop place)).2 } } :=
      h.congr hends hsent rfl
    dsimp only
    split
    · exact hordered
    · rename_i hno
      refine hordered.releaseScattered ?_ _
      refine (hrun c hc fun d hd => ?_).congr hends hsent rfl rfl
      simp only [List.any_eq_true, not_exists, not_and, Bool.not_eq_true] at hno
      exact hno d hd

theorem Ordered.releaseUnsent {s t : OutQueues n} (h : s.Ordered) {cfg : SenderConfig} {place : ℕ}
    {rest : Option StreamRest}
    (hrun : ∀ d ∈ s.sendList[place]?,
      (∀ e ∈ s.sendList.drop place, (s.info e.chunk.tsn).lastFrag = false) →
        s.ScatteredInOrder d.chunk.streamNumber (s.info d.chunk.tsn).streamSeq rest)
    (hstep : s.releaseUnsent cfg place rest = some t) : t.Ordered := by
  unfold OutQueues.releaseUnsent at hstep
  split at hstep
  · cases hstep
    exact h
  · rename_i d hd
    obtain ⟨r, hr, rfl⟩ := Option.map_eq_some_iff.1 hstep
    obtain ⟨hends, hkeys⟩ := skipUnsent_same hr
    have hlist : (s.sendList.take place ++ r.2).map key = s.sendList.map key := by
      rw [List.map_append, hkeys, ← List.map_append, List.take_append_drop]
    have hordered : Ordered { s with
        sender := { s.sender with toAsoc := r.1 }
        sendList := s.sendList.take place ++ r.2 } := by
      refine h.congr hends rfl ?_
      rw [unsent_keys, unsent_keys, hlist]
    dsimp only
    split
    · exact hordered
    · rename_i hno
      refine hordered.releaseScattered ?_ _
      refine (hrun d hd fun e he => ?_).congr hends rfl hlist rfl
      simp only [List.any_eq_true, not_exists, not_and, Bool.not_eq_true] at hno
      exact hno e he

/-- The cumulative ack is old, or is of a TSN that was assigned and behind which all that waits
lies. -/
def AcksSent (s : OutQueues n) (cumAck : Tsn) : Prop :=
  tsnGt s.sender.lastAckedSeq cumAck = true ∨
    (cumAck - s.sender.lastAckedSeq).toNat <
        (s.sender.sendingSeq - s.sender.lastAckedSeq).toNat ∧
      ∀ t ∈ s.unsent, tsnGt t cumAck = true

/-- What a handler of SACKs does. -/
theorem Ordered.acked {s : OutQueues n} (h : s.Ordered) {cumAck : Tsn} (hack : s.AcksSent cumAck)
    {t : Sender n} (ht : SameTsns s.sender t ∨
      tsnGt s.sender.lastAckedSeq cumAck = false ∧ Passed cumAck s.sender t) :
    Ordered { s with sender := t } := by
  obtain hsame | ⟨hnew, hpassed⟩ := ht
  · exact h.congr hsame.ends hsame.tsns rfl
  · obtain hold | ⟨hcum, hunsent⟩ := hack
    · rw [hnew] at hold
      cases hold
    · obtain ⟨l, hl, -⟩ := hpassed.split
      obtain ⟨hlast, hnext⟩ := Prod.mk.inj hpassed.ends
      have hsplit : InOrder s.sender.lastAckedSeq s.sender.sendingSeq (l ++ t.tsns) s.unsent :=
        hl ▸ h
      unfold Ordered
      rw [show ({ s with sender := t } : OutQueues n).sender.lastAckedSeq = cumAck from hlast,
        show ({ s with sender := t } : OutQueues n).sender.sendingSeq = s.sender.sendingSeq from hnext]
      exact hsplit.pass hcum hpassed.head hunsent

/-- A cumulative ack of what was assigned is old, new or the last one again. -/
theorem Ordered.ack_cases {s : OutQueues n} (h : s.Ordered) {cumAck : Tsn}
    (hack : s.AcksSent cumAck) :
    tsnGt cumAck s.sender.lastAckedSeq = true ∨ tsnGt s.sender.lastAckedSeq cumAck = true ∨
      s.sender.lastAckedSeq = cumAck := by
  obtain hold | ⟨hcum, -⟩ := hack
  · exact .inr (.inl hold)
  · have hroom := h.room
    have hzero : (s.sender.lastAckedSeq - s.sender.lastAckedSeq).toNat = 0 := by simp
    have hnear : (cumAck - s.sender.lastAckedSeq).toNat < 2 ^ 31 := hcum.trans hroom
    have hself : (s.sender.lastAckedSeq - s.sender.lastAckedSeq).toNat < 2 ^ 31 := by omega
    have hgt := tsnGt_iff_near hnear hself
    by_cases heq : s.sender.lastAckedSeq = cumAck
    · exact .inr (.inr heq)
    · refine .inl (hgt.2 ?_)
      have hne : (cumAck - s.sender.lastAckedSeq).toNat ≠ 0 := fun h0 =>
        heq (InOrder.sub_inj (hzero.trans h0.symm))
      omega

theorem Ordered.notOld {s : OutQueues n} (h : s.Ordered) {t : Tsn} (ht : t ∈ s.sent) :
    tsnGe s.sender.lastAckedSeq t = false := by
  have hin : t ∈ s.sent ++ s.unsent := List.mem_append_left _ ht
  have hpos := (h.inside t hin).1
  have hzero : (s.sender.lastAckedSeq - s.sender.lastAckedSeq).toNat = 0 := by simp
  rw [← Bool.not_eq_true, tsnGe_iff_near (by omega) (h.near hin)]
  omega

end OutQueues

open OutQueues

/-- A TSN can be assigned while fewer than half of the TSN space are outstanding; an ack is of sent
TSNs; and `sctp_release_pr_sctp_chunk` moves no chunk from `send_queue` to the end of a `sent_queue`
that has a later one. -/
def QueueEvent.Regular (s : OutQueues n) : QueueEvent n → Prop
  | .move _ _ _ => (s.sender.sendingSeq - s.sender.lastAckedSeq).toNat + 1 < 2 ^ 31
  | .expressSack cumack _ _ => s.AcksSent cumack
  | .sack r => s.AcksSent r.cumAck
  | .releaseSent place rest =>
    ∀ c ∈ s.sender.sentQueue[place]?,
      (∀ d ∈ s.sender.sentQueue.drop place, (s.info d.tsn).lastFrag = false) →
        s.ScatteredInOrder c.streamNumber (s.info c.tsn).streamSeq rest
  | .releaseUnsent place rest =>
    ∀ d ∈ s.sendList[place]?,
      (∀ e ∈ s.sendList.drop place, (s.info e.chunk.tsn).lastFrag = false) →
        s.ScatteredInOrder d.chunk.streamNumber (s.info d.chunk.tsn).streamSeq rest
  | _ => True

instance QueueEvent.Regular.decidable (s : OutQueues n) :
    ∀ e : QueueEvent n, Decidable (e.Regular s)
  | .move _ _ _ => inferInstanceAs (Decidable (_ < _))
  | .transmit _ _ _ _ => .isTrue trivial
  | .retransmit _ => .isTrue trivial
  | .expressSack _ _ _ => inferInstanceAs (Decidable (_ ∨ _ ∧ _))
  | .sack _ => inferInstanceAs (Decidable (_ ∨ _ ∧ _))
  | .t3 _ => .isTrue trivial
  | .releaseSent place _ =>
    match h : s.sender.sentQueue[place]? with
    | none => .isTrue fun c hc => by simp [h] at hc
    | some c => decidable_of_iff (_ → s.ScatteredInOrder c.streamNumber (s.info c.tsn).streamSeq _)
        ⟨fun hc c' hc' => by
          rw [h, Option.mem_some_iff] at hc'
          exact hc' ▸ hc, fun hc => hc c h⟩
  | .releaseUnsent place _ =>
    match h : s.sendList[place]? with
    | none => .isTrue fun c hc => by simp [h] at hc
    | some d => decidable_of_iff
        (_ → s.ScatteredInOrder d.chunk.streamNumber (s.info d.chunk.tsn).streamSeq _)
        ⟨fun hd d' hd' => by
          rw [h, Option.mem_some_iff] at hd'
          exact hd' ▸ hd, fun hd => hd d h⟩

theorem queueStep_ordered {cfg : SenderConfig} {s t : OutQueues n} {e : QueueEvent n}
    (h : s.Ordered) (he : e.Regular s) (hstep : queueStep cfg s e = some t) : t.Ordered := by
  cases e with
  | move chunk whoTo info =>
    cases hstep
    exact h.moveChunk he chunk whoTo info
  | transmit net time oneChunk picked =>
    cases hstep
    exact h.transmitPicked cfg net time oneChunk picked
  | retransmit env =>
    obtain ⟨u, hu, rfl⟩ := Option.map_eq_some_iff.1 hstep
    have hsame := chunkRetransmission_same hu
    exact h.congr hsame.ends hsame.tsns rfl
  | expressSack cumack rwnd ecneSeen =>
    obtain ⟨u, hu, rfl⟩ := Option.map_eq_some_iff.1 hstep
    exact h.acked he (expressHandleSack_tsns (h.ack_cases he) hu)
  | sack sack =>
    obtain ⟨u, hu, rfl⟩ := Option.map_eq_some_iff.1 hstep
    exact h.acked he (handleSack_tsns hu)
  | t3 t =>
    cases hstep
    have hsame := markAllForResend_same cfg t (s := s.sender) fun x hx => h.notOld hx
    exact h.congr hsame.ends hsame.tsns rfl
  | releaseSent place rest =>
    cases hstep
    exact h.releaseSent cfg he
  | releaseUnsent place rest => exact h.releaseUnsent he hstep

def OutQueues.Fresh (s : OutQueues n) : Prop :=
  s.sender.sentQueue = [] ∧ s.sendList = [] ∧ s.sender.sendingSeq = s.sender.lastAckedSeq + 1

theorem OutQueues.Fresh.ordered {s : OutQueues n} (h : s.Fresh) : s.Ordered := by
  obtain ⟨hsent, hunsent, hnext⟩ := h
  have hone : (s.sender.sendingSeq - s.sender.lastAckedSeq).toNat = 1 := by
    rw [hnext]
    bv_omega
  unfold Ordered sent unsent
  rw [hsent, hunsent]
  constructor
  · omega
  · omega
  · exact .nil
  · exact .nil
  · intro t ht
    cases ht
  · intro t ht
    cases ht

/-- The sent queue is sorted and inside the window, and no TSN is on the queues twice. -/
theorem queueRun_sorted {cfg : SenderConfig} {s t : OutQueues n} {es : List (QueueEvent n)}
    (hs : s.Fresh) (hok : Trace.Along (queueStep cfg) (fun s e => e.Regular s) s es)
    (hrun : queueRun cfg s es = some t) :
    t.sent.Pairwise (fun a b => tsnGt b a = true) ∧
      (∀ x ∈ t.sent, tsnGt x t.sender.lastAckedSeq = true ∧ tsnGt t.sender.sendingSeq x = true) ∧
      (t.sent ++ t.unsent).Nodup := by
  have h : t.Ordered := Trace.run_invariant OutQueues.Ordered
    (fun _ _ _ hinv he hstep => queueStep_ordered hinv he hstep) hs.ordered hok hrun
  have hin : ∀ x ∈ t.sent, x ∈ t.sent ++ t.unsent := fun x hx => List.mem_append_left _ hx
  have hzero : (t.sender.lastAckedSeq - t.sender.lastAckedSeq).toNat = 0 := by simp
  refine ⟨h.sentSorted.imp_of_mem fun ha hb hlt => ?_, fun x hx => ⟨?_, ?_⟩, h.nodup⟩
  · exact (tsnGt_iff_near (h.near (hin _ hb)) (h.near (hin _ ha))).2 hlt
  · rw [tsnGt_iff_near (h.near (hin x hx)) (by omega), hzero]
    exact (h.inside x (hin x hx)).1
  · rw [tsnGt_iff_near h.room (h.near (hin x hx))]
    exact (h.inside x (hin x hx)).2

/-- An association with two destinations before its first chunk. -/
def twoPaths : OutQueues 2 where
  sender :=
    { totalFlight := 0, totalFlightCount := 0, flightSize := fun _ => 0, sentQueueRetranCnt := 0
      saturated := false
      sendQueue := none, sendingSeq := 1, streamQueueCnt := 0, state := 0x0008
      lockedOnSending := none
      nets := fun _ =>
        { netAck := 0, netAck2 := 0, windowProbe := false, sawNewack := false
          thisSackHighestNewack := 0, pf := false }
      lastAckedSeq := 0, sentQueueCnt := 0, prSctpCnt := 0, sentQueueCntRemoveable := 0
      chunksOnQueues := fun _ => 2, peersRwnd := 65536, advancedPeerAckPoint := 0
      thisSackHighestGap := 0, sawSackWithFrags := false, sawSackWithNrFrags := false
      cwndInput := fun _ => (0, 0)
      sentQueue := [] }
  sendList := []
  info _ := ⟨0, true⟩

/-- A fragment for one of the two destinations, on the stream of the same number. -/
def pathChunk (path : Fin 2) : SentChunk 2 :=
  { tsn := 0, streamNumber := path.val, sendSize := 1400, bookSize := 1400, bookSizeScale := false
    sent := datagramUnsent, sndCount := 0, whoTo := path, flags := 1, hasData := true
    windowProbe := false, chunkWasRevoked := false, doingFastRetransmit := false
    fastRetranTsn := 0, noFrAllowed := false, sentRcvTime := 0, authKeyid := 0 }

local instance tsnOrder_neZero : NeZero 2 := ⟨two_ne_zero⟩

/-- The first fragment of a message is sent, then the message is given up with its end still on the
stream queue. -/
def placeholderRun : List (QueueEvent 2) :=
  [.move (pathChunk 0) (some 0) ⟨0, false⟩, .transmit 0 0 false [1],
    .releaseSent 0 (some ⟨0, 1, false⟩)]

theorem placeholderRun_sorted :
    ∃ s, queueRun freshConfig twoPaths placeholderRun = some s ∧ s.sent = [1, 2] ∧
      s.sent.Pairwise (fun a b => tsnGt b a = true) := by
  have hrun : (queueRun freshConfig twoPaths placeholderRun).map sent = some [1, 2] := by
    decide +kernel
  obtain ⟨s, hs, hsent⟩ := Option.map_eq_some_iff.1 hrun
  have hok : Trace.Along (queueStep freshConfig) (fun s e => e.Regular s) twoPaths
      placeholderRun := by decide +kernel
  exact ⟨s, hs, hsent, (queueRun_sorted ⟨rfl, rfl, rfl⟩ hok hs).1⟩

/-- Two messages of two fragments, for different destinations. Each destination takes the first
fragment of its message, then the first message is given up. -/
def scatterRun : List (QueueEvent 2) :=
  [.move (pathChunk 0) (some 0) ⟨0, false⟩, .move (pathChunk 0) (some 0) ⟨0, true⟩,
    .move (pathChunk 1) (some 1) ⟨0, false⟩, .move (pathChunk 1) (some 1) ⟨0, true⟩,
    .transmit 0 0 false [1], .transmit 1 0 false [3], .releaseSent 0 none]

/-- The last fragment of the first message is put behind the second one. -/
theorem scatterRun_unsorted :
    twoPaths.Fresh ∧ ∃ s, queueRun freshConfig twoPaths scatterRun = some s ∧
      s.sent = [1, 3, 2] ∧ ¬ s.sent.Pairwise (fun a b => tsnGt b a = true) := by
  have hrun : (queueRun freshConfig twoPaths scatterRun).map sent = some [1, 3, 2] := by
    decide +kernel
  obtain ⟨s, hs, hsent⟩ := Option.map_eq_some_iff.1 hrun
  refine ⟨⟨rfl, rfl, rfl⟩, s, hs, hsent, ?_⟩
  rw [hsent]
  decide

end Sctp
