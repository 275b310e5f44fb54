import Sctp.HashedTbl.Postion

/-! A search through the hash table returns every entry once, and markers keep their place. -/
namespace Sctp.HashedTbl

variable {δ : Type*}

theorem handleOf_lt (p : ℤ) : handleOf p < 65536 := Nat.mod_lt _ (by decide)

theorem countOf_lt (p : ℤ) : countOf p < 65536 := by
  have hlt := (BitVec.ofInt 32 p).isLt
  unfold countOf
  omega

theorem toNat_markOf {x whichOne : ℕ} (hx : x < 65536) (hwhich : whichOne < 65536) :
    (BitVec.ofInt 32 (markOf x whichOne)).toNat = x * 65536 + whichOne := by
  unfold markOf
  rw [BitVec.ofInt_toInt, BitVec.toNat_ofNat]
  apply Nat.mod_eq_of_lt
  omega

theorem handleOf_markOf {x whichOne : ℕ} (hx : x < 65536) (hwhich : whichOne < 65536) :
    handleOf (markOf x whichOne) = whichOne := by
  unfold handleOf
  rw [toNat_markOf hx hwhich]
  omega

theorem countOf_markOf {x whichOne : ℕ} (hx : x < 65536) (hwhich : whichOne < 65536) :
    countOf (markOf x whichOne) = x := by
  unfold countOf
  rw [toNat_markOf hx hwhich]
  omega

theorem getHandle_pos (n : ℕ) : 0 < getHandle n := by
  unfold getHandle
  split <;> omega

theorem getHandle_lt (n : ℕ) : getHandle n < 65536 := by
  unfold getHandle
  split <;> omega

@[simp] theorem handleOf_zero : handleOf 0 = 0 := rfl

@[simp] theorem countOf_zero : countOf 0 = 0 := rfl

theorem marks_iff {m : HashTableHandle} {i handle : ℕ} :
    m.marks i handle = true ↔ m.bucket = i ∧ m.whichOne = handle ∧ m.whichOne ≠ 0 := by
  unfold HashTableHandle.marks
  rw [Bool.and_eq_true, Bool.and_eq_true, beq_iff_eq, beq_iff_eq, bne_iff_ne, and_assoc]

theorem handleAt_of_heap {o : HashedTbl δ} {a : ℕ} {e : HashTblEnt δ} (ha : o.heap a = some e) :
    handleAt o a = handleOf e.postion := by
  unfold handleAt
  rw [ha]
  rfl

section Chains

variable {o u : HashedTbl δ} {M : List (Stored δ)} {i j : ℕ} {a b : ℕ} {e e' : HashTblEnt δ}

theorem chainOf_eq (h : Sound o.still M) {as : List ℕ} (has : Chain o M i as) : chainOf o i = as := by
  apply has.linked.nodes_eq
  have hlength := h.length_le (Chain.still.2 has)
  exact Nat.lt_succ_of_le hlength

theorem chain_chainOf (h : Sound o.still M) (hi : i < o.currentSize) : Chain o M i (chainOf o i) := by
  obtain ⟨as, has⟩ := h.chain i hi
  rw [chainOf_eq h (Chain.still.1 has)]
  exact Chain.still.1 has

theorem head_chainOf (h : Sound o.still M) (hi : i < o.currentSize) : o.hTbl i = (chainOf o i).head? :=
  (chain_chainOf h hi).linked.head_eq

/-- An entry with what follows it in its bucket. -/
theorem next_of_split (h : Sound o.still M) (hi : i < o.currentSize) {s t : List ℕ}
    (hsplit : chainOf o i = s ++ a :: t) : ∃ e, o.heap a = some e ∧ e.next = t.head? := by
  have hlinked := (chain_chainOf h hi).linked
  rw [hsplit] at hlinked
  obtain ⟨m, -, rfl, e, he, ht⟩ := Linked.segment_append.1 hlinked
  exact ⟨e, he, ht.head_eq⟩

theorem bucket_unique (h : Sound o.still M) (hi : i < o.currentSize) (hj : j < o.currentSize)
    (ha : a ∈ chainOf o i) (hb : a ∈ chainOf o j) : i = j :=
  (chain_chainOf h hi).disjoint (chain_chainOf h hj) ha hb

/-- Different entries are stored under different keys. -/
theorem stored_inj (h : Sound o.still M) (hi : i < o.currentSize) (hj : j < o.currentSize)
    (ha : a ∈ chainOf o i) (hb : b ∈ chainOf o j) (he : o.heap a = some e) (he' : o.heap b = some e')
    (heq : e.stored = e'.stored) : a = b := by
  obtain ⟨x, hx, hM, hmod⟩ := (chain_chainOf h hi).exists_entry ha
  obtain rfl : e = x := Option.some.inj (he.symm.trans hx)
  obtain ⟨y, hy, -, hmod'⟩ := (chain_chainOf h hj).exists_entry hb
  obtain rfl : e' = y := Option.some.inj (he'.symm.trans hy)
  have hkey : e.key = e'.key := congrArg Stored.key heq
  obtain rfl : i = j := by
    rw [hkey, hmod'] at hmod
    exact_mod_cast hmod.symm
  by_contra hab
  have hnodup : (Linked.contents o.heap HashTblEnt.stored (chainOf o i)).Nodup := by
    have hMnodup : M.Nodup := h.keys.imp fun hne heq => hne ⟨congrArg Stored.key heq, congrArg Stored.keyP heq⟩
    exact (chain_chainOf h hi).perm.nodup_iff.2 (hMnodup.filter _)
  obtain ⟨s, t, hsplit⟩ := List.append_of_mem ha
  rw [hsplit, Linked.contents_append, Linked.contents_cons he, List.nodup_middle, List.nodup_cons,
    ← Linked.contents_append] at hnodup
  rw [hsplit] at hb
  have hother : b ∈ s ++ t := by
    rcases List.mem_append.1 hb with hb | hb
    · exact List.mem_append_left t hb
    · rcases List.mem_cons.1 hb with rfl | hb
      · exact absurd rfl hab
      · exact List.mem_append_right s hb
  exact hnodup.1 (heq ▸ Linked.mem_contents hother he')

/-- The entries in the buckets are those stored. -/
theorem mem_present_iff (h : Sound o.still M) {x : Stored δ} :
    x ∈ M ↔ ∃ i < o.currentSize, ∃ a ∈ chainOf o i, ∃ e, o.heap a = some e ∧ e.stored = x := by
  constructor
  · intro hx
    obtain ⟨w, hw⟩ := where_of_nonneg o (h.nonneg x hx)
    obtain ⟨hlt, hmod⟩ := where_spec h.size hw
    have hin : x ∈ M.filter (inBucket o.currentSize w) := List.mem_filter.2 ⟨hx, beq_iff_eq.2 hmod⟩
    obtain ⟨a, ha, e, he, hstored⟩ := Linked.exists_of_mem_contents ((chain_chainOf h hlt).perm.mem_iff.2 hin)
    exact ⟨w, hlt, a, ha, e, he, hstored⟩
  · rintro ⟨i, hi, a, ha, e, he, rfl⟩
    obtain ⟨e', he', hM, -⟩ := (chain_chainOf h hi).exists_entry ha
    obtain rfl : e = e' := Option.some.inj (he.symm.trans he')
    exact hM

end Chains

/-- Tables that differ in their cursors and postions. -/
structure Alike (o u : HashedTbl δ) : Prop where
  hTbl : u.hTbl = o.hTbl
  currentSize : u.currentSize = o.currentSize
  fresh : u.fresh = o.fresh
  currentUsed : u.currentUsed = o.currentUsed
  strays : u.strays = o.strays
  strayCount : u.strayCount = o.strayCount
  next : ∀ b, (u.heap b).map HashTblEnt.next = (o.heap b).map HashTblEnt.next
  stored : ∀ b, (u.heap b).map HashTblEnt.stored = (o.heap b).map HashTblEnt.stored

section Alike

variable {o u : HashedTbl δ} {M : List (Stored δ)} {i a : ℕ}

theorem Alike.of_cursor (o : HashedTbl δ) (circularAt : ℕ) (resetNeeded : Option ℕ) :
    Alike o { o with circularAt := circularAt, resetNeeded := resetNeeded } :=
  ⟨rfl, rfl, rfl, rfl, rfl, rfl, fun _ => rfl, fun _ => rfl⟩

/-- The postion of an entry is set. -/
theorem Alike.of_postion {e : HashTblEnt δ} (ha : o.heap a = some e) (p : ℤ) (circularAt : ℕ)
    (resetNeeded : Option ℕ) :
    Alike o { o with
      heap := Function.update o.heap a (some { e with postion := p })
      circularAt := circularAt
      resetNeeded := resetNeeded } where
  hTbl := rfl
  currentSize := rfl
  fresh := rfl
  currentUsed := rfl
  strays := rfl
  strayCount := rfl
  next := by
    intro b
    by_cases hba : b = a
    · subst hba
      change (Function.update o.heap b _ b).map _ = _
      rw [Function.update_self, ha]
      rfl
    · change (Function.update o.heap a _ b).map _ = _
      rw [Function.update_of_ne hba]
  stored := by
    intro b
    by_cases hba : b = a
    · subst hba
      change (Function.update o.heap b _ b).map _ = _
      rw [Function.update_self, ha]
      rfl
    · change (Function.update o.heap a _ b).map _ = _
      rw [Function.update_of_ne hba]

theorem Alike.chain (h : Alike o u) {as : List ℕ} (has : Chain o M i as) : Chain u M i as where
  linked := by
    rw [h.hTbl]
    exact has.linked.congr_next fun b _ => h.next b
  nodup := has.nodup
  perm := by
    rw [h.currentSize, Linked.contents_congr fun b _ => h.stored b]
    exact has.perm

theorem Alike.sound (h : Alike o u) (hsound : Sound o.still M) : Sound u.still M where
  size := h.currentSize ▸ hsound.size
  keys := hsound.keys
  nonneg := hsound.nonneg
  used := h.currentUsed.trans hsound.used
  fresh := by
    intro b hb
    have hb : o.fresh ≤ b := h.fresh ▸ hb
    have hnone : o.heap b = none := hsound.fresh b hb
    have hstored := h.stored b
    rw [hnone, Option.map_none, Option.map_eq_none_iff] at hstored
    exact hstored
  strays := h.strays.trans hsound.strays
  strayCount := h.strayCount.trans hsound.strayCount
  resetNeeded := rfl
  chain := by
    intro i hi
    have hi : i < o.currentSize := h.currentSize ▸ hi
    obtain ⟨as, has⟩ := hsound.chain i hi
    exact ⟨as, Chain.still.2 (h.chain (Chain.still.1 has))⟩

theorem Alike.chainOf (h : Alike o u) (hsound : Sound o.still M) (hi : i < o.currentSize) :
    chainOf u i = chainOf o i :=
  chainOf_eq (h.sound hsound) (h.chain (chain_chainOf hsound hi))

/-- An entry behind a change is one before it. -/
theorem Alike.exists_heap (h : Alike o u) {e : HashTblEnt δ} (ha : u.heap a = some e) :
    ∃ e', o.heap a = some e' ∧ e'.stored = e.stored := by
  have hstored := h.stored a
  rw [ha, Option.map_some] at hstored
  exact Option.map_eq_some_iff.1 hstored.symm

end Alike

section Stands

variable {o u : HashedTbl δ} {M : List (Stored δ)} {seen : List (Stored δ)} {k i a : ℕ} {t : List ℕ}

/-- What is left for a search are some entries at the end of a bucket and the buckets behind it. -/
structure Stands (o : HashedTbl δ) (k : ℕ) (t : List ℕ) (seen : List (Stored δ)) : Prop where
  suffix : t = [] ∨ ∃ i s, k = i + 1 ∧ i < o.currentSize ∧ chainOf o i = s ++ t
  seen : ∀ i < o.currentSize, ∀ a ∈ chainOf o i, ∀ e, o.heap a = some e →
    (e.stored ∈ seen ↔ ¬(k ≤ i ∨ a ∈ t))

theorem Stands.alike (h : Stands o k t seen) (hsound : Sound o.still M) (halike : Alike o u) :
    Stands u k t seen where
  suffix := by
    rcases h.suffix with rfl | ⟨i, s, hk, hi, hsplit⟩
    · exact Or.inl rfl
    · refine Or.inr ⟨i, s, hk, halike.currentSize ▸ hi, ?_⟩
      rw [halike.chainOf hsound hi, hsplit]
  seen := by
    intro i hi a ha e he
    have hi : i < o.currentSize := halike.currentSize ▸ hi
    rw [halike.chainOf hsound hi] at ha
    obtain ⟨e', he', hstored⟩ := halike.exists_heap he
    rw [← hstored]
    exact h.seen i hi a ha e' he'

/-- The entries left in a bucket are entries of it. -/
theorem Stands.mem_chain (h : Stands o k t seen) (ha : a ∈ t) :
    ∃ i s, k = i + 1 ∧ i < o.currentSize ∧ chainOf o i = s ++ t := by
  rcases h.suffix with rfl | hsplit
  · exact absurd ha List.not_mem_nil
  · exact hsplit

/-- The first buckets without entries are passed. -/
theorem Stands.enter (h : Stands o k [] seen) (hi : i < o.currentSize) (hk : k ≤ i)
    (hempty : ∀ j, k ≤ j → j < i → chainOf o j = []) (hsound : Sound o.still M) :
    Stands o (i + 1) (chainOf o i) seen where
  suffix := Or.inr ⟨i, [], rfl, hi, rfl⟩
  seen := by
    intro j hj a ha e he
    rw [h.seen j hj a ha e he, not_iff_not, or_iff_left List.not_mem_nil]
    rcases lt_trichotomy j i with hlt | rfl | hgt
    · apply iff_of_false
      · intro hkj
        rw [hempty j hkj hlt] at ha
        exact absurd ha List.not_mem_nil
      · rintro (hle | hin)
        · omega
        · exact absurd (bucket_unique hsound hj hi ha hin) hlt.ne
    · exact iff_of_true hk (Or.inr ha)
    · exact iff_of_true (by omega) (Or.inl hgt)

/-- An entry is returned. -/
theorem Stands.advance (h : Stands o k (a :: t) seen) (hsound : Sound o.still M) {e : HashTblEnt δ}
    (he : o.heap a = some e) : Stands o k t (e.stored :: seen) where
  suffix := by
    obtain ⟨i, s, hk, hi, hsplit⟩ := h.mem_chain List.mem_cons_self
    refine Or.inr ⟨i, s ++ [a], hk, hi, ?_⟩
    rw [hsplit, List.append_assoc, List.singleton_append]
  seen := by
    intro j hj b hb e' he'
    obtain ⟨i, s, rfl, hi, hsplit⟩ := h.mem_chain List.mem_cons_self
    have ha : a ∈ chainOf o i := hsplit ▸ List.mem_append_right s List.mem_cons_self
    rw [List.mem_cons, h.seen j hj b hb e' he', List.mem_cons]
    by_cases hba : b = a
    · subst hba
      obtain rfl : e = e' := Option.some.inj (he.symm.trans he')
      obtain rfl := bucket_unique hsound hj hi hb ha
      have hnodup := (chain_chainOf hsound hi).nodup
      rw [hsplit] at hnodup
      have hout : b ∉ t := fun hbt =>
        (List.nodup_cons.1 (List.nodup_append.1 hnodup).2.1).1 hbt
      apply iff_of_true (Or.inl rfl)
      rintro (hle | hbt)
      · omega
      · exact hout hbt
    · have hne : e'.stored ≠ e.stored := fun heq => hba (stored_inj hsound hj hi hb ha he' he heq)
      rw [or_iff_right hne, or_iff_right hba]

end Stands

section SearchNext

variable {o : HashedTbl δ} {M : List (Stored δ)} {seen : List (Stored δ)} {i : ℕ} {t : List ℕ}

theorem chainOf_eq_nil (h : Sound o.still M) (hi : i < o.currentSize) (hempty : o.hTbl i = none) :
    chainOf o i = [] := by
  rw [head_chainOf h hi, List.head?_eq_none_iff] at hempty
  exact hempty

/-- The next bucket that has entries. -/
theorem nextBucket_some (h : Sound o.still M) (hnext : o.nextBucket = some i) :
    o.circularAt ≤ i ∧ i < o.currentSize ∧ (∃ a s, o.hTbl i = some a ∧ chainOf o i = a :: s) ∧
      ∀ j, o.circularAt ≤ j → j < i → chainOf o j = [] := by
  have hmem := List.mem_range'_1.1 (List.mem_of_find?_eq_some hnext)
  have hi : i < o.currentSize := by omega
  have hsome := List.find?_some hnext
  obtain ⟨a, ha⟩ := Option.isSome_iff_exists.1 hsome
  refine ⟨hmem.1, hi, ?_, ?_⟩
  · have hhead := head_chainOf h hi
    rw [ha] at hhead
    obtain ⟨s, hs⟩ := List.head?_eq_some_iff.1 hhead.symm
    exact ⟨a, s, ha, hs⟩
  · intro j hj hji
    have hlt : j < o.currentSize := hji.trans hi
    obtain ⟨-, as, bs, hsplit, hbefore⟩ := List.find?_eq_some_iff_append.1 hnext
    have hin : j ∈ as := by
      have hrange : j ∈ List.range' o.circularAt (o.currentSize - o.circularAt) :=
        List.mem_range'_1.2 ⟨hj, by omega⟩
      have hsorted : (List.range' o.circularAt (o.currentSize - o.circularAt)).Pairwise (· < ·) :=
        List.pairwise_lt_range'
      rw [hsplit] at hrange hsorted
      rcases List.mem_append.1 hrange with hin | hin
      · exact hin
      · rcases List.mem_cons.1 hin with rfl | hin
        · exact absurd hji (lt_irrefl _)
        · have hlt := (List.pairwise_cons.1 (List.pairwise_append.1 hsorted).2.1).1 j hin
          omega
    have hnone := hbefore j hin
    apply chainOf_eq_nil h hlt
    simpa using hnone

theorem nextBucket_none (h : Sound o.still M) (hnext : o.nextBucket = none) :
    ∀ j, o.circularAt ≤ j → j < o.currentSize → chainOf o j = [] := by
  intro j hj hlt
  have hnone := List.find?_eq_none.1 hnext j (List.mem_range'_1.2 ⟨hj, by omega⟩)
  apply chainOf_eq_nil h hlt
  simpa using hnone

def Cursor (o : HashedTbl δ) (seen : List (Stored δ)) : Prop :=
  ∃ t, Stands o o.circularAt t seen ∧ o.resetNeeded = t.head?

theorem seen_of_end (h : Sound o.still M) (hstands : Stands o o.circularAt [] seen)
    (hempty : ∀ j, o.circularAt ≤ j → j < o.currentSize → chainOf o j = []) :
    (∀ x ∈ M, x ∈ seen) ∧ Stands o o.currentSize [] seen := by
  have hall : ∀ i < o.currentSize, ∀ a ∈ chainOf o i, ∀ e, o.heap a = some e → e.stored ∈ seen := by
    intro i hi a ha e he
    rw [hstands.seen i hi a ha e he, or_iff_left List.not_mem_nil]
    intro hle
    rw [hempty i hle hi] at ha
    exact absurd ha List.not_mem_nil
  constructor
  · intro x hx
    obtain ⟨i, hi, a, ha, e, he, rfl⟩ := (mem_present_iff h).1 hx
    exact hall i hi a ha e he
  · refine ⟨Or.inl rfl, fun i hi a ha e he => iff_of_true (hall i hi a ha e he) ?_⟩
    rintro (hle | hin)
    · omega
    · exact absurd hin List.not_mem_nil

/-- The first of the entries left is there and was not returned. -/
theorem Stands.head_unseen {k a : ℕ} (hstands : Stands o k (a :: t) seen) (h : Sound o.still M) :
    ∃ e, o.heap a = some e ∧ e.next = t.head? ∧ e.stored ∈ M ∧ e.stored ∉ seen := by
  obtain ⟨i, s, -, hi, hsplit⟩ := hstands.mem_chain List.mem_cons_self
  have ha : a ∈ chainOf o i := hsplit ▸ List.mem_append_right s List.mem_cons_self
  obtain ⟨e, he, hnext⟩ := next_of_split h hi hsplit
  refine ⟨e, he, hnext, (mem_present_iff h).2 ⟨i, hi, a, ha, e, he, rfl⟩, ?_⟩
  rw [hstands.seen i hi a ha e he, not_not]
  exact Or.inr List.mem_cons_self

/-- `HashedTbl_searchNext` -/
theorem searchNext_spec (h : Sound o.still M) (hcursor : Cursor o seen) :
    (searchNext o = some (o, none) ∧ ∀ x ∈ M, x ∈ seen) ∨
      ∃ (k : ℕ) (r : Option ℕ) (e : HashTblEnt δ),
        searchNext o = some ({ o with resetNeeded := r, circularAt := k }, some (e.data, e.keyP)) ∧
        e.stored ∈ M ∧ e.stored ∉ seen ∧
        Cursor { o with resetNeeded := r, circularAt := k } (e.stored :: seen) := by
  obtain ⟨t, hstands, hreset⟩ := hcursor
  have hgoes : ∀ {k a s}, Stands o k (a :: s) seen → ∃ e, o.heap a = some e ∧ e.stored ∈ M ∧
      e.stored ∉ seen ∧ Cursor { o with resetNeeded := e.next, circularAt := k } (e.stored :: seen) := by
    intro k a s hs
    obtain ⟨e, he, hnext, hM, hunseen⟩ := hs.head_unseen h
    refine ⟨e, he, hM, hunseen, s, ?_, hnext⟩
    exact (hs.advance h he).alike h (Alike.of_cursor o k e.next)
  unfold searchNext
  by_cases hzero : o.currentUsed = 0
  · refine Or.inl ⟨if_pos hzero, ?_⟩
    have hused : o.currentUsed = M.length := h.used
    rw [hzero] at hused
    obtain rfl : M = [] := List.length_eq_zero_iff.1 (by exact_mod_cast hused.symm)
    exact fun x hx => absurd hx List.not_mem_nil
  rw [if_neg hzero]
  cases t with
  | cons a s =>
    obtain ⟨e, he, hM, hunseen, hnext⟩ := hgoes hstands
    refine Or.inr ⟨o.circularAt, e.next, e, ?_, hM, hunseen, hnext⟩
    rw [hreset]
    dsimp only [List.head?_cons]
    rw [he]
    rfl
  | nil =>
    rw [hreset]
    dsimp only [List.head?_nil]
    cases hbucket : o.nextBucket with
    | none => exact Or.inl ⟨rfl, (seen_of_end h hstands (nextBucket_none h hbucket)).1⟩
    | some i =>
      obtain ⟨hk, hi, ⟨a, s, ha, hchain⟩, hempty⟩ := nextBucket_some h hbucket
      have henter := hstands.enter hi hk hempty h
      rw [hchain] at henter
      obtain ⟨e, he, hM, hunseen, hnext⟩ := hgoes henter
      refine Or.inr ⟨i + 1, e.next, e, ?_, hM, hunseen, hnext⟩
      dsimp only
      rw [ha, Option.bind_some, he]
      rfl

end SearchNext

/-- A marker stands for what had been returned when it was saved: its entry is the first of those that had not been
in its bucket, and no other one of the bucket has its handle. -/
structure Remembers (o : HashedTbl δ) (m : HashTableHandle) (seen : List (Stored δ)) : Prop where
  capacity : m.capacityAtTime = o.currentSize
  inside : m.bucket < o.currentSize
  place : ∃ t, Stands o (m.bucket + 1) t seen ∧ (m.whichOne = 0 → m.bucket + 1 = o.currentSize ∧ t = []) ∧
    (m.whichOne ≠ 0 → ∀ a ∈ chainOf o m.bucket, handleAt o a = m.whichOne ↔ t.head? = some a)

def Counted (o : HashedTbl δ) (held : List HashTableHandle) : Prop :=
  ∀ i < o.currentSize, ∀ a ∈ chainOf o i, ∀ e, o.heap a = some e →
    (held.countP fun m => m.marks i (handleOf e.postion)) ≤ countOf e.postion

section TakeOut

variable {o : HashedTbl δ} {M M' : List (Stored δ)} {seen : List (Stored δ)} {w a b i k : ℕ}
  {s r r' : List ℕ} {e e' : HashTblEnt δ}

structure Takes (o : HashedTbl δ) (M M' : List (Stored δ)) (w a : ℕ) (s r : List ℕ) (e : HashTblEnt δ) :
    Prop where
  sound : Sound o.still M
  inside : w < o.currentSize
  split : chainOf o w = s ++ a :: r
  heap : o.heap a = some e
  perm : M.Perm (e.stored :: M')

theorem Takes.next (h : Takes o M M' w a s r e) : e.next = r.head? := by
  obtain ⟨x, hx, hnext⟩ := next_of_split h.sound h.inside h.split
  obtain rfl : e = x := Option.some.inj (h.heap.symm.trans hx)
  exact hnext

theorem Takes.chain (h : Takes o M M' w a s r e) : Chain o M w (s ++ a :: r) := by
  have hchain := chain_chainOf h.sound h.inside
  rwa [h.split] at hchain

theorem Takes.mem (h : Takes o M M' w a s r e) : a ∈ chainOf o w := by
  rw [h.split]
  exact List.mem_append_right s List.mem_cons_self

theorem Takes.sound' (h : Takes o M M' w a s r e) : Sound (o.takeOut w s.getLast? a e).still M' :=
  h.sound.takeOut_still h.chain h.heap h.perm

theorem Takes.chainOf (h : Takes o M M' w a s r e) (hi : i < o.currentSize) :
    chainOf (o.takeOut w s.getLast? a e) i = (chainOf o i).erase a :=
  chainOf_eq h.sound' (h.chain.takeOut h.heap h.perm (chain_chainOf h.sound hi))

theorem Takes.mem_chainOf (h : Takes o M M' w a s r e) (hi : i < o.currentSize) :
    b ∈ HashedTbl.chainOf (o.takeOut w s.getLast? a e) i ↔ b ≠ a ∧ b ∈ HashedTbl.chainOf o i := by
  rw [h.chainOf hi]
  exact (chain_chainOf h.sound hi).nodup.mem_erase_iff

theorem Takes.exists_heap (hb : b ≠ a) (he : (o.takeOut w s.getLast? a e).heap b = some e') :
    ∃ x, o.heap b = some x ∧ x.stored = e'.stored := by
  have hstored : ((o.takeOut w s.getLast? a e).heap b).map HashTblEnt.stored =
      (o.heap b).map HashTblEnt.stored := takeOut_stored hb
  rw [he, Option.map_some] at hstored
  exact Option.map_eq_some_iff.1 hstored.symm

/-- The postion moves to the next entry where the search stands at the one removed. -/
theorem takeOut_postion {prev : Option ℕ} (hb : b ≠ a) (hsome : (o.heap b).isSome) :
    ((o.takeOut w prev a e).heap b).map HashTblEnt.postion =
      if o.resetNeeded = some a ∧ e.next = some b then some e.postion
      else (o.heap b).map HashTblEnt.postion := by
  have hrelink : (Linked.relink o.heap HashTblEnt.setNext prev e.next b).map HashTblEnt.postion =
      (o.heap b).map HashTblEnt.postion := by
    have hsame : ∀ q (n : HashTblEnt δ), (n.setNext q).postion = n.postion := fun _ _ => rfl
    exact Linked.relink_map hsame prev e.next b
  unfold HashedTbl.takeOut
  dsimp only
  rw [Function.update_of_ne hb]
  by_cases hreset : o.resetNeeded = some a
  · cases hnext : e.next with
    | none =>
      rw [if_neg (fun h => Option.some_ne_none b h.2.symm), ← hrelink, hnext]
    | some n =>
      dsimp only
      rw [if_pos (beq_iff_eq.2 hreset)]
      by_cases hbn : n = b
      · subst hbn
        rw [Function.update_self, if_pos ⟨hreset, rfl⟩, ← hnext]
        obtain ⟨x, hx⟩ := Option.isSome_iff_exists.1 hsome
        rw [hx, Option.map_some] at hrelink
        obtain ⟨y, hy, -⟩ := Option.map_eq_some_iff.1 hrelink
        rw [hy]
        rfl
      · rw [Function.update_of_ne (Ne.symm hbn), if_neg (fun h => hbn (Option.some.inj h.2)),
          ← hrelink, hnext]
  · rw [if_neg (fun h => hreset h.1), ← hrelink]
    cases e.next with
    | none => rfl
    | some n =>
      dsimp only
      rw [if_neg (fun h => hreset (beq_iff_eq.1 h))]

theorem Stands.takeOut (hstands : Stands o k r' seen) (h : Takes o M M' w a s r e) :
    Stands (o.takeOut w s.getLast? a e) k (r'.erase a) seen where
  suffix := by
    rcases hstands.suffix with rfl | ⟨i, s', hk, hi, hsplit⟩
    · exact Or.inl rfl
    · right
      by_cases ha : a ∈ s'
      · refine ⟨i, s'.erase a, hk, hi, ?_⟩
        have hnodup := (chain_chainOf h.sound hi).nodup
        rw [hsplit] at hnodup
        have hout : a ∉ r' := fun har => (List.nodup_append.1 hnodup).2.2 a ha a har rfl
        rw [h.chainOf hi, hsplit, List.erase_append_left _ ha, List.erase_of_not_mem hout]
      · exact ⟨i, s', hk, hi, by rw [h.chainOf hi, hsplit, List.erase_append_right _ ha]⟩
  seen := by
    intro i hi b hb e' he'
    obtain ⟨hba, hb⟩ := (h.mem_chainOf hi).1 hb
    obtain ⟨x, hx, hstored⟩ := Takes.exists_heap hba he'
    rw [← hstored, hstands.seen i hi b hb x hx, List.mem_erase_of_ne hba]

theorem Stands.nodup (hstands : Stands o k r' seen) (h : Sound o.still M) : r'.Nodup := by
  rcases hstands.suffix with rfl | ⟨i, s', -, hi, hsplit⟩
  · exact List.nodup_nil
  · have hnodup := (chain_chainOf h hi).nodup
    rw [hsplit] at hnodup
    exact (List.nodup_append.1 hnodup).2.1

/-- What is left begins with an entry of which the successor is known. -/
theorem Stands.tail_eq (hstands : Stands o k (a :: r') seen) (h : Takes o M M' w a s r e) : r' = r := by
  obtain ⟨i, s', -, hi, hsplit⟩ := hstands.mem_chain List.mem_cons_self
  have ha : a ∈ HashedTbl.chainOf o i := hsplit ▸ List.mem_append_right s' List.mem_cons_self
  obtain rfl := bucket_unique h.sound hi h.inside ha h.mem
  have hnodup := (chain_chainOf h.sound hi).nodup
  rw [hsplit] at hnodup
  have hboth := hsplit.symm.trans h.split
  have hs' : a ∉ s' := fun has => (List.nodup_append.1 hnodup).2.2 a has a List.mem_cons_self rfl
  have hs : a ∉ s := by
    rw [hboth] at hnodup
    exact fun has => (List.nodup_append.1 hnodup).2.2 a has a List.mem_cons_self rfl
  have hdrop := congrArg (List.dropWhile (· ≠ a)) hboth
  rw [List.dropWhile_append_of_pos fun b hb => by
      have hne : b ≠ a := fun hba => hs' (hba ▸ hb)
      simpa using hne,
    List.dropWhile_append_of_pos fun b hb => by
      have hne : b ≠ a := fun hba => hs (hba ▸ hb)
      simpa using hne] at hdrop
  simpa using hdrop

/-- The cursor moves on where it stands at the entry removed. -/
theorem Cursor.takeOut (hcursor : Cursor o seen) (h : Takes o M M' w a s r e) :
    Cursor (o.takeOut w s.getLast? a e) seen := by
  obtain ⟨t, hstands, hreset⟩ := hcursor
  refine ⟨t.erase a, hstands.takeOut h, ?_⟩
  have hheap : (o.takeOut w s.getLast? a e).resetNeeded = if o.resetNeeded == some a then e.next else
    o.resetNeeded := rfl
  rw [hheap]
  cases t with
  | nil =>
    rw [hreset, List.head?_nil]
    rfl
  | cons b t =>
    rw [hreset, List.head?_cons]
    by_cases hba : b = a
    · subst hba
      rw [if_pos (beq_iff_eq.2 rfl), List.erase_cons_head, h.next, hstands.tail_eq h]
    · rw [if_neg (fun heq => hba (Option.some.inj (beq_iff_eq.1 heq))),
        List.erase_cons_tail (by simpa using hba)]
      rfl

theorem Takes.handleAt (h : Takes o M M' w a s r e) (hi : i < o.currentSize)
    (hb : b ∈ HashedTbl.chainOf o i) (hba : b ≠ a) :
    HashedTbl.handleAt (o.takeOut w s.getLast? a e) b =
      if o.resetNeeded = some a ∧ e.next = some b then HashedTbl.handleAt o a else HashedTbl.handleAt o b := by
  obtain ⟨x, hx, -⟩ := (chain_chainOf h.sound hi).exists_entry hb
  have hpostion : ((o.takeOut w s.getLast? a e).heap b).map HashTblEnt.postion = _ :=
    takeOut_postion hba (Option.isSome_of_mem hx)
  have hmap : ∀ u : HashedTbl δ, HashedTbl.handleAt u b =
      (((u.heap b).map HashTblEnt.postion).map handleOf).getD 0 := by
    intro u
    unfold HashedTbl.handleAt
    rw [Option.map_map]
    rfl
  rw [hmap, hpostion, handleAt_of_heap h.heap]
  split
  · rfl
  · rw [hmap o]

/-- A marker keeps its place when no mark is thrown away. -/
theorem Remembers.takeOut {m : HashTableHandle} (hm : Remembers o m seen) (h : Takes o M M' w a s r e)
    (hkeep : ∀ n, e.next = some n →
      m.marks w (HashedTbl.handleAt o (if o.resetNeeded = some a then n else a)) = false) :
    Remembers (o.takeOut w s.getLast? a e) m seen where
  capacity := hm.capacity
  inside := hm.inside
  place := by
    obtain ⟨t, hstands, hend, hmark⟩ := hm.place
    refine ⟨t.erase a, hstands.takeOut h, ?_, ?_⟩
    · intro hzero
      obtain ⟨hbucket, rfl⟩ := hend hzero
      exact ⟨hbucket, rfl⟩
    intro hwhich b hb
    obtain ⟨hba, hb⟩ := (h.mem_chainOf hm.inside).1 hb
    rw [h.handleAt hm.inside hb hba]
    have hmarkb := hmark hwhich b hb
    by_cases hw : m.bucket = w
    · have ha : a ∈ HashedTbl.chainOf o m.bucket := by
        rw [hw]
        exact h.mem
      by_cases hhandle : HashedTbl.handleAt o a = m.whichOne
      · have hhead := (hmark hwhich a ha).1 hhandle
        obtain ⟨t', rfl⟩ := List.head?_eq_some_iff.1 hhead
        rw [hstands.tail_eq h, List.erase_cons_head, ← h.next]
        have hnot : HashedTbl.handleAt o b ≠ m.whichOne := by
          rw [Ne, hmarkb]
          exact fun heq => hba (Option.some.inj heq).symm
        by_cases hreset : o.resetNeeded = some a
        · by_cases hnext : e.next = some b
          · rw [if_pos ⟨hreset, hnext⟩]
            exact iff_of_true hhandle hnext
          · rw [if_neg fun hboth => hnext hboth.2]
            exact iff_of_false hnot hnext
        · rw [if_neg fun hboth => hreset hboth.1]
          apply iff_of_false hnot
          intro hnext
          have hlost := hkeep b hnext
          rw [if_neg hreset, hhandle] at hlost
          exact Bool.false_ne_true (hlost.symm.trans (marks_iff.2 ⟨hw, rfl, hwhich⟩))
      · have hheadne : t.head? ≠ some a := mt (hmark hwhich a ha).2 hhandle
        have hsame : (t.erase a).head? = t.head? := by
          cases t with
          | nil => rfl
          | cons x t =>
            have hxa : x ≠ a := fun hxa => hheadne (by rw [hxa, List.head?_cons])
            rw [List.erase_cons_tail (by simpa using hxa), List.head?_cons, List.head?_cons]
        rw [hsame, ← hmarkb]
        split
        · rename_i hboth
          have hlost := hkeep b hboth.2
          rw [if_pos hboth.1] at hlost
          apply iff_of_false hhandle
          intro hbhandle
          exact Bool.false_ne_true (hlost.symm.trans (marks_iff.2 ⟨hw, hbhandle.symm, hwhich⟩))
        · exact Iff.rfl
    · have hout : a ∉ HashedTbl.chainOf o m.bucket := fun ha =>
        hw (bucket_unique h.sound hm.inside h.inside ha h.mem)
      have hat : a ∉ t := by
        intro ha
        obtain ⟨i, s', hk, -, hsplit⟩ := hstands.mem_chain ha
        obtain rfl : m.bucket = i := Nat.succ.inj hk
        exact hout (hsplit ▸ List.mem_append_right s' ha)
      have hnext : ¬(o.resetNeeded = some a ∧ e.next = some b) := by
        rintro ⟨-, hnext⟩
        have hbr : b ∈ r := List.mem_of_mem_head? (h.next.symm.trans hnext)
        have hbw : b ∈ HashedTbl.chainOf o w := by
          rw [h.split]
          exact List.mem_append_right s (List.mem_cons_of_mem a hbr)
        exact hw (bucket_unique h.sound hm.inside h.inside hb hbw)
      rw [if_neg hnext, List.erase_of_not_mem hat]
      exact hmarkb

theorem Counted.takeOut {held : List HashTableHandle} (hcounted : Counted o held)
    (h : Takes o M M' w a s r e) : Counted (o.takeOut w s.getLast? a e) held := by
  intro i hi b hb e' he'
  obtain ⟨hba, hb⟩ := (h.mem_chainOf hi).1 hb
  obtain ⟨x, hx, -⟩ := (chain_chainOf h.sound hi).exists_entry hb
  have hpostion : ((o.takeOut w s.getLast? a e).heap b).map HashTblEnt.postion = _ :=
    takeOut_postion hba (Option.isSome_of_mem hx)
  rw [he', Option.map_some] at hpostion
  split at hpostion
  · rename_i hboth
    have hbr : b ∈ r := List.mem_of_mem_head? (h.next.symm.trans hboth.2)
    have hbw : b ∈ HashedTbl.chainOf o w := by
      rw [h.split]
      exact List.mem_append_right s (List.mem_cons_of_mem a hbr)
    obtain rfl := bucket_unique h.sound hi h.inside hb hbw
    rw [Option.some.inj hpostion]
    exact hcounted i hi a h.mem e h.heap
  · rw [hx, Option.map_some] at hpostion
    rw [Option.some.inj hpostion]
    exact hcounted i hi b hb x hx

end TakeOut

section Save

variable {o : MarkedTbl δ} {M : List (Stored δ)} {seen : List (Stored δ)} {held : List HashTableHandle}
  {i a b : ℕ} {t : List ℕ} {e : HashTblEnt δ}

/-- Where the search goes on, if it does. -/
theorem spot_some (h : Sound o.still M) (hcursor : Cursor o.toHashedTbl seen) (hspot : o.spot = some (i, a)) :
    ∃ t, Stands o.toHashedTbl (i + 1) (a :: t) seen := by
  obtain ⟨t, hstands, hreset⟩ := hcursor
  unfold MarkedTbl.spot at hspot
  cases t with
  | cons b t =>
    rw [hreset] at hspot
    obtain ⟨rfl, rfl⟩ := Prod.mk.inj (Option.some.inj hspot)
    obtain ⟨i, s, hk, -, -⟩ := hstands.mem_chain List.mem_cons_self
    refine ⟨t, ?_⟩
    rw [hk, Nat.add_sub_cancel, ← hk]
    exact hstands
  | nil =>
    rw [hreset] at hspot
    obtain ⟨j, hnext, hhead⟩ := Option.bind_eq_some_iff.1 hspot
    obtain ⟨hk, hj, ⟨c, s, hc, hchain⟩, hempty⟩ := nextBucket_some h hnext
    rw [hc, Option.map_some] at hhead
    obtain ⟨rfl, rfl⟩ := Prod.mk.inj (Option.some.inj hhead)
    refine ⟨s, ?_⟩
    rw [← hchain]
    exact hstands.enter hj hk hempty h

theorem spot_none (h : Sound o.still M) (hcursor : Cursor o.toHashedTbl seen) (hspot : o.spot = none) :
    (∀ x ∈ M, x ∈ seen) ∧ Stands o.toHashedTbl o.currentSize [] seen := by
  obtain ⟨t, hstands, hreset⟩ := hcursor
  unfold MarkedTbl.spot at hspot
  cases t with
  | cons b t =>
    rw [hreset] at hspot
    cases hspot
  | nil =>
    rw [hreset] at hspot
    apply seen_of_end h hstands
    cases hnext : o.nextBucket with
    | none => exact nextBucket_none h hnext
    | some j =>
      obtain ⟨-, -, ⟨c, s, hc, -⟩, -⟩ := nextBucket_some h hnext
      dsimp only [List.head?_nil] at hspot
      rw [hnext, Option.bind_some, hc] at hspot
      cases hspot

theorem addMark_alike (he : o.heap a = some e) : Alike o.toHashedTbl (o.addMark a e).toHashedTbl :=
  Alike.of_postion he _ o.circularAt o.resetNeeded

theorem addMark_heap_self :
    (o.addMark a e).heap a = some { e with
      postion :=
        if e.postion = 0 then markOf 1 (getHandle o.lastHandle)
        else markOf ((countOf e.postion + 1) % 65536) (handleOf e.postion) } := Function.update_self _ _ _

theorem addMark_heap_ne (hb : b ≠ a) : (o.addMark a e).heap b = o.heap b := Function.update_of_ne hb _ _

/-- The mark of an entry behind one more marker. -/
theorem addMark_mark (hcount : e.postion ≠ 0 → countOf e.postion ≠ 65535) :
    handleAt (o.addMark a e).toHashedTbl a = o.handleFor e ∧
      ∀ e' ∈ (o.addMark a e).heap a, handleOf e'.postion = o.handleFor e ∧
        countOf e'.postion = if e.postion = 0 then 1 else countOf e.postion + 1 := by
  have hmark : ∀ e' ∈ (o.addMark a e).heap a, handleOf e'.postion = o.handleFor e ∧
      countOf e'.postion = if e.postion = 0 then 1 else countOf e.postion + 1 := by
    intro e' he'
    obtain rfl := Option.some.inj (addMark_heap_self.symm.trans he')
    dsimp only
    unfold MarkedTbl.handleFor
    by_cases hzero : e.postion = 0
    · rw [if_pos hzero, if_pos hzero, if_pos hzero]
      exact ⟨handleOf_markOf (by decide) (getHandle_lt _), countOf_markOf (by decide) (getHandle_lt _)⟩
    · rw [if_neg hzero, if_neg hzero, if_neg hzero]
      have hlt := countOf_lt e.postion
      have hne := hcount hzero
      have hmod : (countOf e.postion + 1) % 65536 = countOf e.postion + 1 := Nat.mod_eq_of_lt (by omega)
      rw [hmod]
      exact ⟨handleOf_markOf (by omega) (handleOf_lt _), countOf_markOf (by omega) (handleOf_lt _)⟩
  exact ⟨(handleAt_of_heap addMark_heap_self).trans (hmark _ addMark_heap_self).1, hmark⟩

theorem addMark_handleAt_ne (hb : b ≠ a) :
    handleAt (o.addMark a e).toHashedTbl b = handleAt o.toHashedTbl b := by
  unfold handleAt
  rw [addMark_heap_ne hb]

structure SavesWell (o : MarkedTbl δ) (held : List HashTableHandle) (i a : ℕ) (e : HashTblEnt δ) : Prop where
  alone : ∀ b ∈ chainOf o.toHashedTbl i, b ≠ a → handleAt o.toHashedTbl b ≠ o.handleFor e
  unused : e.postion = 0 → ∀ m ∈ held, m.marks i (o.handleFor e) = false
  named : e.postion ≠ 0 → handleOf e.postion ≠ 0
  count : e.postion ≠ 0 → countOf e.postion ≠ 65535

theorem SavesWell.handleFor_ne_zero (hwell : SavesWell o held i a e) : o.handleFor e ≠ 0 := by
  unfold MarkedTbl.handleFor
  split
  · exact (getHandle_pos _).ne'
  · rename_i hzero
    exact hwell.named hzero

/-- The markers that were there. -/
theorem Remembers.addMark {m : HashTableHandle} (hm : Remembers o.toHashedTbl m seen) (h : Sound o.still M)
    (hi : i < o.currentSize) (ha : a ∈ chainOf o.toHashedTbl i) (he : o.heap a = some e)
    (hwell : SavesWell o held i a e) (hmem : m ∈ held) :
    Remembers (o.addMark a e).toHashedTbl m seen where
  capacity := hm.capacity
  inside := hm.inside
  place := by
    obtain ⟨t, hstands, hend, hmark⟩ := hm.place
    refine ⟨t, hstands.alike h (addMark_alike he), hend, ?_⟩
    intro hwhich b hb
    rw [(addMark_alike he).chainOf h hm.inside] at hb
    rw [← hmark hwhich b hb]
    by_cases hba : b = a
    · subst hba
      rw [(addMark_mark hwell.count).1, handleAt_of_heap he]
      by_cases hzero : e.postion = 0
      · have hbucket : m.bucket = i := bucket_unique h hm.inside hi hb ha
        have hunused := hwell.unused hzero m hmem
        rw [hzero, handleOf_zero]
        apply iff_of_false
        · intro heq
          exact Bool.false_ne_true (hunused.symm.trans (marks_iff.2 ⟨hbucket, heq.symm, hwhich⟩))
        · exact hwhich.symm
      · have hsame : o.handleFor e = handleOf e.postion := if_neg hzero
        rw [hsame]
    · rw [addMark_handleAt_ne hba]

/-- The new marker. -/
theorem remembers_new (h : Sound o.still M) (hstands : Stands o.toHashedTbl (i + 1) (a :: t) seen)
    (he : o.heap a = some e) (hwell : SavesWell o held i a e) :
    Remembers (o.addMark a e).toHashedTbl ⟨i, o.handleFor e, o.currentSize⟩ seen where
  capacity := rfl
  inside := by
    obtain ⟨j, s, hk, hj, -⟩ := hstands.mem_chain List.mem_cons_self
    obtain rfl : i = j := Nat.succ.inj hk
    exact hj
  place := by
    obtain ⟨j, s, hk, hj, hsplit⟩ := hstands.mem_chain List.mem_cons_self
    obtain rfl : i = j := Nat.succ.inj hk
    refine ⟨a :: t, hstands.alike h (addMark_alike he), ?_, ?_⟩
    · exact fun hzero => absurd hzero hwell.handleFor_ne_zero
    · intro _ b hb
      have hb : b ∈ chainOf (o.addMark a e).toHashedTbl i := hb
      rw [(addMark_alike he).chainOf h hj] at hb
      rw [List.head?_cons, Option.some.injEq]
      by_cases hba : b = a
      · subst hba
        exact iff_of_true (addMark_mark hwell.count).1 rfl
      · rw [addMark_handleAt_ne hba]
        exact iff_of_false (hwell.alone b hb hba) (Ne.symm hba)

theorem Counted.addMark (hcounted : Counted o.toHashedTbl held) (h : Sound o.still M) (hi : i < o.currentSize)
    (ha : a ∈ chainOf o.toHashedTbl i) (he : o.heap a = some e) (hwell : SavesWell o held i a e) :
    Counted (o.addMark a e).toHashedTbl (⟨i, o.handleFor e, o.currentSize⟩ :: held) := by
  intro j hj b hb e' he'
  have hj : j < o.currentSize := hj
  rw [(addMark_alike he).chainOf h hj] at hb
  rw [List.countP_cons]
  by_cases hba : b = a
  · subst hba
    obtain ⟨hhandle, hcount⟩ := (addMark_mark hwell.count).2 e' he'
    obtain rfl := bucket_unique h hj hi hb ha
    rw [hhandle, hcount]
    by_cases hzero : e.postion = 0
    · have hnone : held.countP (fun m => m.marks j (o.handleFor e)) = 0 :=
        List.countP_eq_zero.2 fun m hm => by
          rw [hwell.unused hzero m hm]
          exact Bool.false_ne_true
      rw [hnone, if_pos hzero]
      split <;> omega
    · have hsame : o.handleFor e = handleOf e.postion := if_neg hzero
      have hle := hcounted j hj b hb e he
      rw [hsame, if_neg hzero]
      split <;> omega
  · have hold : o.heap b = some e' := (addMark_heap_ne hba).symm.trans he'
    have hle := hcounted j hj b hb e' hold
    have hnew : (⟨i, o.handleFor e, o.currentSize⟩ : HashTableHandle).marks j (handleOf e'.postion) = false := by
      rw [Bool.eq_false_iff, Ne, marks_iff]
      rintro ⟨hij, hhandle, -⟩
      have hij : i = j := hij
      subst hij
      exact hwell.alone b hb hba ((handleAt_of_heap hold).trans hhandle.symm)
    rw [hnew, if_neg Bool.false_ne_true]
    exact hle

end Save

section Return

variable {o : MarkedTbl δ} {M : List (Stored δ)} {seen : List (Stored δ)} {held rest : List HashTableHandle}
  {i k a b : ℕ} {r : Option ℕ} {t : List ℕ} {e : HashTblEnt δ} {m m' : HashTableHandle}

/-- Where only the cursor changes. -/
theorem Remembers.of_cursor (hm : Remembers o.toHashedTbl m seen) (h : Sound o.still M) (k : ℕ) (r : Option ℕ) :
    Remembers { o.toHashedTbl with circularAt := k, resetNeeded := r } m seen where
  capacity := hm.capacity
  inside := hm.inside
  place := by
    obtain ⟨t, hstands, hend, hmark⟩ := hm.place
    exact ⟨t, hstands.alike h (Alike.of_cursor _ k r), hend, hmark⟩

/-- The entry of a marker is the first with its handle. -/
theorem seek_marker (h : Sound o.still M) (hm : Remembers o.toHashedTbl m seen) (hwhich : m.whichOne ≠ 0) :
    ∃ t, Stands o.toHashedTbl (m.bucket + 1) t seen ∧
      ((t = [] ∧ Linked.seek o.heap HashTblEnt.next (fun pp => handleOf pp.postion == m.whichOne) (o.fresh + 1)
          none (o.hTbl m.bucket) = some none) ∨
        ∃ a s e prev, t = a :: s ∧ a ∈ chainOf o.toHashedTbl m.bucket ∧ o.heap a = some e ∧
          handleOf e.postion = m.whichOne ∧
          Linked.seek o.heap HashTblEnt.next (fun pp => handleOf pp.postion == m.whichOne) (o.fresh + 1)
            none (o.hTbl m.bucket) = some (some (prev, a, e))) := by
  obtain ⟨t, hstands, -, hmark⟩ := hm.place
  have hchain := chain_chainOf h hm.inside
  have hfuel : (chainOf o.toHashedTbl m.bucket).length < o.fresh + 1 := by
    have hlength := h.length_le (Chain.still.2 hchain)
    exact Nat.lt_succ_of_le hlength
  have hother : ∀ b ∈ chainOf o.toHashedTbl m.bucket, t.head? ≠ some b → ∀ x, o.heap b = some x →
      (handleOf x.postion == m.whichOne) = false := by
    intro b hb hhead x hx
    rw [beq_eq_false_iff_ne, ← handleAt_of_heap hx]
    exact mt (hmark hwhich b hb).1 hhead
  refine ⟨t, hstands, ?_⟩
  cases t with
  | nil =>
    refine Or.inl ⟨rfl, hchain.linked.seek_eq_none ?_ hfuel none⟩
    exact fun b hb x hx => hother b hb nofun x hx
  | cons a s =>
    obtain ⟨j, s', hk, -, hsplit⟩ := hstands.mem_chain List.mem_cons_self
    obtain rfl : m.bucket = j := Nat.succ.inj hk
    have ha : a ∈ chainOf o.toHashedTbl m.bucket := hsplit ▸ List.mem_append_right s' List.mem_cons_self
    obtain ⟨e, he, -⟩ := hchain.exists_entry ha
    have hhandle : handleOf e.postion = m.whichOne := by
      rw [← handleAt_of_heap he]
      exact (hmark hwhich a ha).2 rfl
    have hnodup := hchain.nodup
    rw [hsplit] at hnodup
    have hlinked := hchain.linked
    rw [hsplit] at hlinked hfuel
    have hfirst : ∀ b ∈ s', ∀ x, o.heap b = some x → (handleOf x.postion == m.whichOne) = false := by
      intro b hb x hx
      apply hother b (hsplit ▸ List.mem_append_left _ hb) ?_ x hx
      rintro heq
      obtain rfl : a = b := Option.some.inj heq
      exact (List.nodup_append.1 hnodup).2.2 a hb a List.mem_cons_self rfl
    have hseek : Linked.seek o.heap HashTblEnt.next (fun pp => handleOf pp.postion == m.whichOne)
        (o.fresh + 1) none (o.hTbl m.bucket) = some (some (s'.getLast?.or none, a, e)) :=
      hlinked.seek_eq_some hfirst he (beq_iff_eq.2 hhandle) hfuel none
    exact Or.inr ⟨a, s, e, _, rfl, ha, he, hhandle, hseek⟩

/-- The table when the search stands at an entry that is marked once less. -/
def back (o : MarkedTbl δ) (k a : ℕ) (e : HashTblEnt δ) : MarkedTbl δ :=
  { o.dropMark a e with circularAt := k, resetNeeded := some a }

theorem back_alike (he : o.heap a = some e) (k : ℕ) : Alike o.toHashedTbl (back o k a e).toHashedTbl :=
  Alike.of_postion he _ k (some a)

theorem back_heap_ne (hb : b ≠ a) : (back o k a e).heap b = o.heap b := Function.update_of_ne hb _ _

theorem back_handleAt_ne (hb : b ≠ a) :
    handleAt (back o k a e).toHashedTbl b = handleAt o.toHashedTbl b := by
  unfold handleAt
  rw [back_heap_ne hb]

/-- The mark of the entry, which counts at least one marker. -/
theorem back_mark (hcount : 0 < countOf e.postion) {e' : HashTblEnt δ}
    (he' : (back o k a e).heap a = some e') :
    countOf e'.postion = countOf e.postion - 1 ∧
      handleOf e'.postion = if countOf e.postion = 1 then 0 else handleOf e.postion := by
  have hlt := countOf_lt e.postion
  have hx : (countOf e.postion + 65535) % 65536 = countOf e.postion - 1 := by omega
  have hself : (back o k a e).heap a = some { e with
      postion := if countOf e.postion - 1 = 0 then 0 else markOf (countOf e.postion - 1) (handleOf e.postion) } := by
    rw [← hx]
    exact Function.update_self _ _ _
  obtain rfl := Option.some.inj (hself.symm.trans he')
  dsimp only
  by_cases hone : countOf e.postion = 1
  · rw [if_pos hone, if_pos (by omega), hone]
    exact ⟨rfl, rfl⟩
  · rw [if_neg hone, if_neg (by omega)]
    exact ⟨countOf_markOf (by omega) (handleOf_lt _), handleOf_markOf (by omega) (handleOf_lt _)⟩

/-- The markers that are still held. -/
theorem Remembers.back (hm : Remembers o.toHashedTbl m seen) (h : Sound o.still M) (he : o.heap a = some e)
    (hcount : 0 < countOf e.postion)
    (hlast : countOf e.postion = 1 → a ∈ chainOf o.toHashedTbl m.bucket → handleOf e.postion ≠ m.whichOne) :
    Remembers (HashedTbl.back o k a e).toHashedTbl m seen where
  capacity := hm.capacity
  inside := hm.inside
  place := by
    obtain ⟨t, hstands, hend, hmark⟩ := hm.place
    refine ⟨t, hstands.alike h (back_alike he k), hend, ?_⟩
    intro hwhich b hb
    rw [(back_alike he k).chainOf h hm.inside] at hb
    rw [← hmark hwhich b hb]
    by_cases hba : b = a
    · subst hba
      obtain ⟨e', he', -⟩ := (chain_chainOf ((back_alike he k).sound h) hm.inside).exists_entry
        (((back_alike he k).chainOf h hm.inside).symm ▸ hb)
      rw [handleAt_of_heap he', handleAt_of_heap he, (back_mark hcount he').2]
      by_cases hone : countOf e.postion = 1
      · rw [if_pos hone]
        exact iff_of_false hwhich.symm (hlast hone hb)
      · rw [if_neg hone]
    · rw [back_handleAt_ne hba]

theorem Counted.back (hcounted : Counted o.toHashedTbl held) (h : Sound o.still M) (he : o.heap a = some e)
    (hi : i < o.currentSize) (ha : a ∈ chainOf o.toHashedTbl i) (hmark : m.marks i (handleOf e.postion) = true)
    (hperm : held.Perm (m :: rest)) : Counted (HashedTbl.back o k a e).toHashedTbl rest := by
  have hsame : ∀ j handle, held.countP (fun m => m.marks j handle) =
      rest.countP (fun m => m.marks j handle) + if m.marks j handle then 1 else 0 := by
    intro j handle
    rw [hperm.countP_eq, List.countP_cons]
  have hcount : 0 < countOf e.postion := by
    have hle := hcounted i hi a ha e he
    rw [hsame, hmark, if_pos rfl] at hle
    omega
  intro j hj b hb e' he'
  have hj : j < o.currentSize := hj
  rw [(back_alike he k).chainOf h hj] at hb
  by_cases hba : b = a
  · subst hba
    obtain rfl := bucket_unique h hj hi hb ha
    obtain ⟨hcount', hhandle⟩ := back_mark hcount he'
    have hle := hcounted j hj b hb e he
    rw [hsame, hmark, if_pos rfl] at hle
    rw [hcount', hhandle]
    by_cases hone : countOf e.postion = 1
    · have hnone : rest.countP (fun m => m.marks j 0) = 0 := by
        apply List.countP_eq_zero.2
        intro x _ hx
        obtain ⟨-, hzero, hne⟩ := marks_iff.1 hx
        exact hne hzero
      rw [if_pos hone, hnone]
      exact Nat.zero_le _
    · rw [if_neg hone]
      omega
  · have hold : o.heap b = some e' := (back_heap_ne hba).symm.trans he'
    have hle := hcounted j hj b hb e' hold
    rw [hsame] at hle
    omega

end Return

section Run

variable {s s' : Search δ} {v : Visit δ}

/-- A search is where it should be, and so are its markers. -/
structure Walks (s : Search δ) (v : Visit δ) : Prop where
  sound : Sound s.tbl.still v.present
  cursor : Cursor s.tbl.toHashedTbl v.seen
  held : List.Forall₂ (Remembers s.tbl.toHashedTbl) s.held v.saved
  counted : Counted s.tbl.toHashedTbl s.held

/-- One of two lists that belong together loses an element, and so does the other. -/
theorem forall₂_eraseIdx {α β : Type*} {R : α → β → Prop} {as : List α} {bs : List β}
    (h : List.Forall₂ R as bs) {n : ℕ} {a : α} (ha : as[n]? = some a) :
    ∃ b, bs[n]? = some b ∧ R a b ∧ List.Forall₂ R (as.eraseIdx n) (bs.eraseIdx n) := by
  induction h generalizing n with
  | nil => cases ha
  | @cons x y as bs hxy hrest ih =>
    cases n with
    | zero =>
      obtain rfl := Option.some.inj ha
      exact ⟨y, rfl, hxy, hrest⟩
    | succ n =>
      obtain ⟨b, hb, hab, herase⟩ := ih ha
      exact ⟨b, hb, hab, List.Forall₂.cons hxy herase⟩

theorem Walks.of_cursor (h : Walks s v) (k : ℕ) (r : Option ℕ) {seen : List (Stored δ)}
    (hcursor : Cursor { s.tbl.toHashedTbl with circularAt := k, resetNeeded := r } seen)
    (op : SearchOp) (answer : Answer δ) :
    Walks ({ s with tbl := { s.tbl with circularAt := k, resetNeeded := r } }.noted op answer)
      { v with seen := seen } where
  sound := (Alike.of_cursor s.tbl.toHashedTbl k r).sound h.sound
  cursor := hcursor
  held := h.held.imp fun _ _ hm => hm.of_cursor h.sound k r
  counted := h.counted

/-- A removal of the entry that was searched. -/
theorem Walks.removeAt (h : Walks s v) (key : ℤ) (keyP : Bytes) (hsafe : s.tbl.loses s.held key keyP = false) :
    ∃ u x M', s.tbl.removeAt key keyP = some (u, x) ∧
      Removed v.present key keyP (x.map fun pp => (pp.data, pp.keyP)) M' ∧
      ∀ op answer, Walks ({ s with tbl := { s.tbl with toHashedTbl := u } }.noted op answer)
        { v with present := M' } := by
  have hmiss : v.present.find? (Stored.matches' key keyP) = none →
      Removed v.present key keyP none v.present := by
    intro hfind
    refine ⟨?_, (List.eraseP_of_forall_not fun x hx => List.find?_eq_none.1 hfind x hx).symm⟩
    unfold found
    rw [hfind]
    rfl
  have hidle : ∀ op answer, Walks (s.noted op answer) v :=
    fun op answer => ⟨h.sound, h.cursor, h.held, h.counted⟩
  unfold HashedTbl.removeAt
  unfold MarkedTbl.loses at hsafe
  cases hw : s.tbl.where' key with
  | none => exact ⟨_, none, _, rfl, hmiss (h.sound.find_eq_none (.inl hw) keyP), hidle⟩
  | some w =>
    rw [hw] at hsafe
    dsimp only at hsafe ⊢
    obtain ⟨hsearch, hfind⟩ | ⟨l, a, r, e, hchain, ha, hsearch, hfind⟩ := h.sound.search_spec hw keyP
    · have hsearch : s.tbl.search key keyP w = some none := hsearch
      rw [hsearch]
      exact ⟨_, none, _, rfl, hmiss hfind, hidle⟩
    · have hsearch : s.tbl.search key keyP w = some (some (l.getLast?, a, e)) := hsearch
      have ha : s.tbl.heap a = some e := ha
      rw [hsearch] at hsafe ⊢
      have htakes : Takes s.tbl.toHashedTbl v.present (v.present.eraseP (Stored.matches' key keyP)) w a l r e :=
        { sound := h.sound
          inside := (where_spec h.sound.size hw).1
          split := chainOf_eq h.sound (Chain.still.1 hchain)
          heap := ha
          perm := perm_eraseP hfind }
      have hkeep : ∀ m ∈ s.held, ∀ n, e.next = some n →
          m.marks w (handleAt s.tbl.toHashedTbl (if s.tbl.resetNeeded = some a then n else a)) = false := by
        intro m hm n hn
        dsimp only at hsafe
        rw [hn] at hsafe
        exact Bool.eq_false_iff.2 (List.any_eq_false.1 hsafe m hm)
      refine ⟨_, some e, _, rfl, ⟨?_, rfl⟩, fun op answer => ?_⟩
      · unfold found
        rw [hfind]
        rfl
      · constructor
        · exact htakes.sound'
        · exact h.cursor.takeOut htakes
        · have hall : List.Forall₂ (fun m seen => m ∈ s.held ∧ Remembers s.tbl.toHashedTbl m seen) s.held
              v.saved := (List.forall₂_and_left _ _).2 ⟨fun _ hm => hm, h.held⟩
          exact hall.imp fun m _ hm => hm.2.takeOut htakes (hkeep m hm.1)
        · exact h.counted.takeOut htakes

theorem Walks.savePostion (h : Walks s v) {whichOne : ℕ} (hsafe : s.tbl.MarksWell s.held whichOne) :
    ∃ u m ret, s.tbl.savePostion whichOne = some (u, m, ret) ∧
      (ret = .good ↔ ∃ x ∈ v.present, x ∉ v.seen) ∧
      ∀ op answer, Walks ({ s with tbl := u, held := m :: s.held }.noted op answer)
        { v with saved := v.seen :: v.saved } := by
  unfold MarkedTbl.savePostion
  unfold MarkedTbl.MarksWell at hsafe
  cases hspot : s.tbl.spot with
  | none =>
    rw [hspot] at hsafe
    obtain ⟨hall, hend⟩ := spot_none h.sound h.cursor hspot
    have hsize : s.tbl.currentSize - 1 + 1 = s.tbl.currentSize := by
      have hpos : 0 < s.tbl.currentSize := h.sound.size
      omega
    refine ⟨_, _, .bad, rfl, ?_, fun op answer => ⟨h.sound, h.cursor, List.Forall₂.cons ?_ h.held, ?_⟩⟩
    · apply iff_of_false nofun
      rintro ⟨x, hx, hunseen⟩
      exact hunseen (hall x hx)
    · constructor
      · rfl
      · change s.tbl.currentSize - 1 < s.tbl.currentSize
        omega
      · refine ⟨[], ?_, fun _ => ⟨hsize, rfl⟩, fun hwhich a ha => ?_⟩
        · change Stands s.tbl.toHashedTbl (s.tbl.currentSize - 1 + 1) [] v.seen
          rw [hsize]
          exact hend
        · exact iff_of_false (hsafe hwhich a ha) nofun
    · intro i hi a ha e he
      change List.countP (fun m => m.marks i (handleOf e.postion)) (_ :: s.held) ≤ _
      rw [List.countP_cons]
      have hnew : (⟨s.tbl.currentSize - 1, whichOne, s.tbl.currentSize⟩ : HashTableHandle).marks i
          (handleOf e.postion) = false := by
        rw [Bool.eq_false_iff, Ne, marks_iff]
        rintro ⟨hbucket, hhandle, hne⟩
        have hbucket : s.tbl.currentSize - 1 = i := hbucket
        rw [← hbucket] at ha
        exact hsafe hne a ha ((handleAt_of_heap he).trans hhandle.symm)
      rw [hnew, if_neg Bool.false_ne_true]
      exact h.counted i hi a ha e he
  | some place =>
    obtain ⟨i, a⟩ := place
    rw [hspot] at hsafe
    obtain ⟨t, hstands⟩ := spot_some h.sound h.cursor hspot
    obtain ⟨e, he, -, hM, hunseen⟩ := hstands.head_unseen h.sound
    obtain ⟨halone, hmark⟩ := hsafe e he
    have hwell : SavesWell s.tbl s.held i a e := by
      by_cases hzero : e.postion = 0
      · rw [if_pos hzero] at hmark
        exact ⟨halone, fun _ => hmark, fun hne => absurd hzero hne, fun hne => absurd hzero hne⟩
      · rw [if_neg hzero] at hmark
        exact ⟨halone, fun heq => absurd heq hzero, fun _ => hmark.1, fun _ => hmark.2⟩
    obtain ⟨j, l, hk, hi, hsplit⟩ := hstands.mem_chain List.mem_cons_self
    obtain rfl : i = j := Nat.succ.inj hk
    have ha : a ∈ chainOf s.tbl.toHashedTbl i := hsplit ▸ List.mem_append_right l List.mem_cons_self
    dsimp only
    rw [he]
    refine ⟨_, _, .good, rfl, iff_of_true rfl ⟨_, hM, hunseen⟩, fun op answer => ?_⟩
    constructor
    · exact (addMark_alike he).sound h.sound
    · obtain ⟨t', hplace, hreset⟩ := h.cursor
      exact ⟨t', hplace.alike h.sound (addMark_alike he), hreset⟩
    · apply List.Forall₂.cons (remembers_new h.sound hstands he hwell)
      have hall : List.Forall₂ (fun m seen => m ∈ s.held ∧ Remembers s.tbl.toHashedTbl m seen) s.held
          v.saved := (List.forall₂_and_left _ _).2 ⟨fun _ hm => hm, h.held⟩
      exact hall.imp fun m _ hm => hm.2.addMark h.sound hi ha he hwell hm.1
    · exact h.counted.addMark h.sound hi ha he hwell

theorem Walks.returnToPostion (h : Walks s v) {n : ℕ} (hsafe : s.tbl.ReturnsWell s.held n) :
    ∃ m u seen, s.held[n]? = some m ∧ s.tbl.returnToPostion m = some (u, .good) ∧ v.saved[n]? = some seen ∧
      ∀ op answer, Walks ({ s with tbl := u, held := s.held.eraseIdx n }.noted op answer)
        { v with seen := seen, saved := v.saved.eraseIdx n } := by
  obtain ⟨hn, hzero⟩ := hsafe
  have hget : s.held[n]? = some s.held[n] := List.getElem?_eq_getElem hn
  obtain ⟨seen, hseen, hm, hrest⟩ := forall₂_eraseIdx h.held hget
  have hperm : s.held.Perm (s.held[n] :: s.held.eraseIdx n) := (List.getElem_cons_eraseIdx_perm hn).symm
  have hfewer : Counted s.tbl.toHashedTbl (s.held.eraseIdx n) := by
    intro i hi a ha e he
    have hle := h.counted i hi a ha e he
    rw [hperm.countP_eq, List.countP_cons] at hle
    omega
  have hcursor : ∀ k r, Cursor { s.tbl.toHashedTbl with circularAt := k, resetNeeded := r } seen →
      ∀ op answer, Walks
        ({ s with
          tbl := { s.tbl with circularAt := k, resetNeeded := r }
          held := s.held.eraseIdx n }.noted op answer)
        { v with seen := seen, saved := v.saved.eraseIdx n } := by
    intro k r hat op answer
    constructor
    · exact (Alike.of_cursor s.tbl.toHashedTbl k r).sound h.sound
    · exact hat
    · exact hrest.imp fun _ _ hm => hm.of_cursor h.sound k r
    · exact hfewer
  suffices hgoes : ∃ u, s.tbl.returnToPostion s.held[n] = some (u, .good) ∧ ∀ op answer,
      Walks ({ s with tbl := u, held := s.held.eraseIdx n }.noted op answer)
        { v with seen := seen, saved := v.saved.eraseIdx n } by
    obtain ⟨u, hu, hwalks⟩ := hgoes
    exact ⟨_, u, seen, hget, hu, hseen, hwalks⟩
  unfold MarkedTbl.returnToPostion
  rw [if_neg (not_not.2 hm.capacity)]
  by_cases hwhich : s.held[n].whichOne = 0
  · rw [if_pos hwhich]
    obtain ⟨t, hstands, hend, -⟩ := hm.place
    obtain ⟨hbucket, rfl⟩ := hend hwhich
    rw [hbucket] at hstands
    have hreset : s.tbl.resetNeeded = none := hzero _ hget hwhich
    have hat := hcursor s.tbl.currentSize s.tbl.resetNeeded
      ⟨[], hstands.alike h.sound (Alike.of_cursor _ _ _), hreset⟩
    exact ⟨_, rfl, hat⟩
  · rw [if_neg hwhich]
    obtain ⟨t, hstands, ⟨rfl, hseek⟩ | ⟨a, l, e, prev, rfl, ha, he, hhandle, hseek⟩⟩ :=
      seek_marker h.sound hm hwhich
    · rw [hseek]
      have hat := hcursor (s.held[n].bucket + 1) none ⟨[], hstands.alike h.sound (Alike.of_cursor _ _ _), rfl⟩
      exact ⟨_, rfl, hat⟩
    · rw [hseek]
      have hmark : s.held[n].marks s.held[n].bucket (handleOf e.postion) = true :=
        marks_iff.2 ⟨rfl, hhandle.symm, hwhich⟩
      have hcount : (s.held.eraseIdx n).countP (fun m => m.marks s.held[n].bucket (handleOf e.postion)) + 1 ≤
          countOf e.postion := by
        have hle := h.counted _ hm.inside a ha e he
        rw [hperm.countP_eq, List.countP_cons, if_pos hmark] at hle
        exact hle
      refine ⟨back s.tbl (s.held[n].bucket + 1) a e, rfl, fun op answer => ?_⟩
      constructor
      · exact (back_alike he _).sound h.sound
      · exact ⟨a :: l, hstands.alike h.sound (back_alike he _), rfl⟩
      · have hall : List.Forall₂ (fun m seen => m ∈ s.held.eraseIdx n ∧ Remembers s.tbl.toHashedTbl m seen)
            (s.held.eraseIdx n) (v.saved.eraseIdx n) :=
          (List.forall₂_and_left _ _).2 ⟨fun _ hm => hm, hrest⟩
        refine hall.imp fun m' _ hm' => hm'.2.back h.sound he (by omega) ?_
        intro hone hin hsame
        have hbucket : m'.bucket = s.held[n].bucket := bucket_unique h.sound hm'.2.inside hm.inside hin ha
        have hnonzero : m'.whichOne ≠ 0 := fun hzero => hwhich (hhandle.symm.trans (hsame.trans hzero))
        have hpos : 0 < (s.held.eraseIdx n).countP
            (fun m => m.marks s.held[n].bucket (handleOf e.postion)) :=
          List.countP_pos_iff.2 ⟨m', hm'.1, marks_iff.2 ⟨hbucket, hsame.symm, hnonzero⟩⟩
        omega
      · exact h.counted.back h.sound he hm.inside ha hmark hperm

/-- Every operation does what it should. -/
theorem Walks.step (h : Walks s v) {op : SearchOp} (hsafe : s.Safe op) :
    ∃ s' answer v', s.step op = some s' ∧ s'.log = (op, answer) :: s.log ∧ VisitStep v op answer v' ∧
      Walks s' v' := by
  cases op with
  | searchNext =>
    obtain ⟨heq, hall⟩ | ⟨k, r, e, heq, hM, hunseen, hcursor⟩ := searchNext_spec h.sound h.cursor
    · exact ⟨_, _, v, congrArg (Option.map _) heq, rfl, ⟨hall, rfl⟩, h.sound, h.cursor, h.held, h.counted⟩
    · exact ⟨_, _, _, congrArg (Option.map _) heq, rfl, ⟨e.stored, hM, hunseen, rfl, rfl⟩,
        h.of_cursor k r hcursor _ _⟩
  | removeKeyed key keyP =>
    by_cases hkey : key < 0
    · have hfind := h.sound.find_eq_none (.inr hkey) keyP
      have heq : s.tbl.removeKeyed key keyP = some (s.tbl.toHashedTbl, none) := if_pos hkey
      refine ⟨_, _, v, congrArg (Option.map _) heq, rfl, ⟨v.present, ⟨?_, ?_⟩, rfl⟩, h.sound, h.cursor,
        h.held, h.counted⟩
      · unfold found
        rw [hfind]
        rfl
      · exact (List.eraseP_of_forall_not fun x hx => List.find?_eq_none.1 hfind x hx).symm
    · obtain ⟨u, x, M', heq, hremoved, hwalks⟩ := h.removeAt key keyP (hsafe (not_lt.1 hkey))
      have hkeyed : s.tbl.removeKeyed key keyP = some (u, x.map fun pp => (pp.data, pp.keyP)) := by
        unfold HashedTbl.removeKeyed
        rw [if_neg hkey, heq]
        rfl
      exact ⟨_, _, _, congrArg (Option.map _) hkeyed, rfl, ⟨M', hremoved, rfl⟩, hwalks _ _⟩
  | removeBucketKeyed key keyP =>
    obtain ⟨u, x, M', heq, hremoved, hwalks⟩ := h.removeAt key keyP hsafe
    have hkeyed : s.tbl.removeBucketKeyed key keyP = some (u, x.map (HashTblEnt.setNext none)) := by
      unfold HashedTbl.removeBucketKeyed
      rw [heq]
      rfl
    refine ⟨_, _, _, congrArg (Option.map _) hkeyed, rfl, ⟨M', ?_, rfl⟩, hwalks _ _⟩
    rw [Option.map_map]
    exact hremoved
  | savePostion whichOne =>
    obtain ⟨u, m, ret, heq, hret, hwalks⟩ := h.savePostion hsafe
    exact ⟨_, _, _, congrArg (Option.map _) heq, rfl, ⟨hret, rfl⟩, hwalks _ _⟩
  | returnToPostion n =>
    obtain ⟨m, u, seen, hm, heq, hseen, hwalks⟩ := h.returnToPostion hsafe
    refine ⟨_, .status .good, _, ?_, rfl, ⟨rfl, seen, hseen, rfl⟩, hwalks _ _⟩
    change (s.held[n]?.bind _) = _
    rw [hm, Option.bind_some, heq]
    rfl
  | rewind =>
    have hcursor : Cursor { s.tbl.toHashedTbl with circularAt := 0, resetNeeded := none } [] := by
      refine ⟨[], ⟨Or.inl rfl, fun i _ a _ e _ => iff_of_false List.not_mem_nil ?_⟩, rfl⟩
      exact not_not.2 (Or.inl (Nat.zero_le i))
    exact ⟨_, _, _, rfl, rfl, rfl, h.of_cursor 0 none hcursor _ _⟩

theorem walks_start {o : HashedTbl δ} {M : List (Stored δ)} (h : Sound o.still M) (lastHandle : ℕ) :
    Walks (.start o lastHandle) ⟨M, [], []⟩ where
  sound := (Alike.of_cursor o 0 none).sound h
  cursor := by
    refine ⟨[], ⟨Or.inl rfl, fun i _ a _ e _ => iff_of_false List.not_mem_nil ?_⟩, rfl⟩
    exact not_not.2 (Or.inl (Nat.zero_le i))
  held := List.Forall₂.nil
  counted := fun _ _ _ _ _ _ => Nat.zero_le _

/-- In a run that throws no mark away the search returns every entry once, and a marker brings it back to what had
been returned when it was saved. -/
theorem run_visited {o : HashedTbl δ} {M : List (Stored δ)} (h : Sound o.still M) (lastHandle : ℕ)
    (ops : List SearchOp) (hsafe : Trace.Along Search.step Search.Safe (.start o lastHandle) ops) :
    Visited o lastHandle M ops := by
  have hinit : ∃ v, VisitRun M (Search.start o lastHandle).log v ∧ Walks (.start o lastHandle) v :=
    ⟨_, rfl, walks_start h lastHandle⟩
  have hstep : ∀ (s : Search δ) (op : SearchOp), (∃ v, VisitRun M s.log v ∧ Walks s v) → s.Safe op →
      ∃ s', s.step op = some s' ∧ ∃ v, VisitRun M s'.log v ∧ Walks s' v := by
    rintro s op ⟨v, hlog, hwalks⟩ hop
    obtain ⟨s', answer, v', hs', hlog', hvisit, hwalks'⟩ := hwalks.step hop
    refine ⟨s', hs', v', ?_, hwalks'⟩
    rw [hlog']
    exact ⟨v, hlog, hvisit⟩
  obtain ⟨s, hrun, v, hlog, -⟩ := Trace.run_progress _ hstep hinit hsafe
  exact ⟨s, hrun, v, hlog⟩

end Run

/-- Keys 0 and 11 in a table of 11 buckets. -/
def twoEntries : Option (HashedTbl ℕ) :=
  ((create 4 fun _ => true).enterKeyed 0 1 [65]).bind fun (o, _) =>
    (o.enterKeyed 11 2 [66]).map fun (o, _) => o

def twoStored : List (Stored ℕ) := [⟨11, [66], 2⟩, ⟨0, [65], 1⟩]

/-- An entry that is not refused. -/
theorem Sound.enter_good {o : HashedTbl δ} {M : List (Stored δ)} (h : Sound o M) {key : ℤ} (newt : δ)
    {keyp : Bytes} (hkey : 0 ≤ key) (hroom : o.Room (o.currentSize - o.currentSize >>> 2) key keyp)
    (hgood : (o.enterKeyed key newt keyp).map Prod.snd = some .good) :
    ∃ u, o.enterKeyed key newt keyp = some (u, .good) ∧ Sound u (⟨key, keyp, newt⟩ :: M) := by
  obtain ⟨u, ret, M', heq, hentered, hsound⟩ := h.enterKeyed newt hkey hroom
  rw [heq] at hgood
  obtain rfl : ret = .good := Option.some.inj hgood
  rcases hentered with ⟨-, -, rfl⟩ | ⟨hbad, -⟩
  · exact ⟨u, heq, hsound⟩
  · exact absurd rfl hbad

theorem twoEntries_sound : ∃ o, twoEntries = some o ∧ Sound o.still twoStored := by
  obtain ⟨u, hu, hsound⟩ := (create_sound (by decide) fun _ => true).enter_good (1 : ℕ) (le_refl (0 : ℤ))
    (by decide +kernel) (by decide +kernel : ((create 4 fun _ => true).enterKeyed 0 1 [65]).map Prod.snd = _)
  have hsecond : ((create 4 fun _ => true).enterKeyed 0 (1 : ℕ) [65]).any (fun x =>
      decide (x.1.Room (x.1.currentSize - x.1.currentSize >>> 2) 11 [66]) &&
        decide ((x.1.enterKeyed 11 2 [66]).map Prod.snd = some .good)) = true := by decide +kernel
  rw [hu, Option.any_some, Bool.and_eq_true, decide_eq_true_iff, decide_eq_true_iff] at hsecond
  obtain ⟨o, ho, hsound'⟩ := hsound.enter_good 2 (by decide) hsecond.1 hsecond.2
  refine ⟨o, ?_, ?_⟩
  · unfold twoEntries
    rw [hu, Option.bind_some]
    exact congrArg (Option.map _) ho
  · rw [still_eq hsound'.resetNeeded]
    exact hsound'

/-- A marker stays when the entry at which the search stands is removed. -/
theorem twoEntries_visited :
    ∃ o, twoEntries = some o ∧
      Visited o 0 twoStored [.savePostion 0, .searchNext, .savePostion 0, .removeKeyed 0 [65], .returnToPostion 1,
        .searchNext] := by
  obtain ⟨o, ho, hsound⟩ := twoEntries_sound
  refine ⟨o, ho, run_visited hsound 0 _ ?_⟩
  have hsafe : twoEntries.any (fun o => decide (Trace.Along Search.step Search.Safe (.start o 0)
      [.savePostion 0, .searchNext, .savePostion 0, .removeKeyed 0 [65], .returnToPostion 1, .searchNext])) =
      true := by decide +kernel
  rw [ho] at hsafe
  exact of_decide_eq_true hsafe

deriving instance DecidableEq for Answer

/-- A marker at the first entry of a bucket, which is removed: the second one is passed by. -/
theorem twoEntries_not_visited :
    ∃ o, twoEntries = some o ∧ Sound o.still twoStored ∧
      ¬Visited o 0 twoStored [.savePostion 0, .removeKeyed 11 [66], .returnToPostion 0, .searchNext] := by
  obtain ⟨o, ho, hsound⟩ := twoEntries_sound
  refine ⟨o, ho, hsound, ?_⟩
  rintro ⟨s, hrun, v, hvisit⟩
  have hlog : (twoEntries.bind fun o => (Search.start o 0).run
      [.savePostion 0, .removeKeyed 11 [66], .returnToPostion 0, .searchNext]).map Search.log =
      some [(.searchNext, .data none), (.returnToPostion 0, .status .good),
        (.removeKeyed 11 [66], .data (some (2, [66]))), (.savePostion 0, .status .good)] := by decide +kernel
  rw [ho, Option.bind_some, hrun] at hlog
  rw [Option.some.inj hlog] at hvisit
  obtain ⟨v₄, ⟨v₃, ⟨v₂, ⟨v₁, rfl, -, rfl⟩, M, ⟨-, rfl⟩, rfl⟩, -, seen, hseen, rfl⟩, hall, -⟩ := hvisit
  obtain rfl := Option.some.inj hseen
  exact absurd (hall ⟨0, [65], 1⟩ (by decide +kernel)) List.not_mem_nil

end Sctp.HashedTbl
