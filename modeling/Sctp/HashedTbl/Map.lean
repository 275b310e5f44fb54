import Sctp.HashedTbl.Model
import Sctp.Lib.Trace

/-! The hash table as a finite map, while it does not grow with entries in it. -/
namespace Sctp.HashedTbl

variable {δ κ : Type*}

/-- What was entered: an entry without its place in the table. -/
structure Stored (δ : Type*) where
  key : ℤ
  keyP : Bytes
  data : δ
deriving DecidableEq, Repr

def Stored.matches' (key : ℤ) (keyP : Bytes) (x : Stored δ) : Bool := x.key == key && x.keyP == keyP

def HashTblEnt.stored (e : HashTblEnt δ) : Stored δ := ⟨e.key, e.keyP, e.data⟩

def found (M : List (Stored δ)) (key : ℤ) (keyP : Bytes) : Option (δ × Bytes) :=
  (M.find? (Stored.matches' key keyP)).map fun x => (x.data, x.keyP)

inductive Op (δ : Type*) where
  | enter (key : Bytes) (newt : δ)
  | enterKeyed (key : ℤ) (newt : δ) (keyp : Bytes)
  | enterBucket (pp : HashTblEnt δ)
  | lookup (keyP : Bytes)
  | lookupKeyed (key : ℤ) (keyP : Bytes)
  | remove (keyP : Bytes)
  | removeKeyed (key : ℤ) (keyP : Bytes)
  | removeBucket (keyP : Bytes)
  | removeBucketKeyed (key : ℤ) (keyP : Bytes)
  | getNext
  | getNextBucket
  | rewind

inductive Answer (δ : Type*) where
  | status (ret : Status)
  | data (found : Option (δ × Bytes))
  | bucket (found : Option (HashTblEnt δ))
  | void

/-- An operation with its answer, and whether the last allocation it made was refused. -/
structure Exchange (δ : Type*) where
  op : Op δ
  answer : Answer δ
  lacking : Bool

structure Session (δ : Type*) where
  tbl : HashedTbl δ
  log : List (Exchange δ)

def tblStep (o : HashedTbl δ) : Op δ → Option (HashedTbl δ × Answer δ)
  | .enter key newt => (o.enter key newt).map fun (o, ret) => (o, .status ret)
  | .enterKeyed key newt keyp => (o.enterKeyed key newt keyp).map fun (o, ret) => (o, .status ret)
  | .enterBucket pp => (o.enterBucket pp).map fun (o, ret) => (o, .status ret)
  | .lookup keyP => (o.lookup keyP).map fun x => (o, .data x)
  | .lookupKeyed key keyP => (o.lookupKeyed key keyP).map fun x => (o, .data x)
  | .remove keyP => (o.remove keyP).map fun (o, x) => (o, .data x)
  | .removeKeyed key keyP => (o.removeKeyed key keyP).map fun (o, x) => (o, .data x)
  | .removeBucket keyP => (o.removeBucket keyP).map fun (o, x) => (o, .bucket x)
  | .removeBucketKeyed key keyP => (o.removeBucketKeyed key keyP).map fun (o, x) => (o, .bucket x)
  | .getNext => o.getNext.map fun (o, x) => (o, .data x)
  | .getNextBucket => o.getNextBucket.map fun (o, x) => (o, .bucket x)
  | .rewind => some (o.rewind, .void)

def sessionStep (s : Session δ) (op : Op δ) : Option (Session δ) :=
  (tblStep s.tbl op).map fun (o, answer) =>
    ⟨o, ⟨op, answer, decide (s.tbl.callocs < o.callocs) && !s.tbl.calloc (o.callocs - 1)⟩ :: s.log⟩

def sessionRun : Session δ → List (Op δ) → Option (Session δ) := Trace.run sessionStep

/-- An entry is refused only when its key is there or memory lacks. -/
def Entered (M : List (Stored δ)) (lacking : Bool) (x : Stored δ) (ret : Status)
    (M' : List (Stored δ)) : Prop :=
  (ret = .good ∧ M.find? (Stored.matches' x.key x.keyP) = none ∧ M' = x :: M) ∨
    (ret ≠ .good ∧ ((M.find? (Stored.matches' x.key x.keyP)).isSome ∨ lacking) ∧ M' = M)

def Removed (M : List (Stored δ)) (key : ℤ) (keyP : Bytes) (answer : Option (δ × Bytes))
    (M' : List (Stored δ)) : Prop :=
  answer = found M key keyP ∧ M' = M.eraseP (Stored.matches' key keyP)

def Pulled (M : List (Stored δ)) (answer : Option (δ × Bytes)) (M' : List (Stored δ)) : Prop :=
  (answer = none ∧ M' = M) ∨ ∃ x, M.Perm (x :: M') ∧ answer = some (x.data, x.keyP)

def MapStep (M : List (Stored δ)) (lacking : Bool) : Op δ → Answer δ → List (Stored δ) → Prop
  | .enter key newt, .status ret, M' => Entered M lacking ⟨translateKey key, key, newt⟩ ret M'
  | .enterKeyed key newt keyp, .status ret, M' => Entered M lacking ⟨key, keyp, newt⟩ ret M'
  | .enterBucket pp, .status ret, M' => Entered M false pp.stored ret M'
  | .lookup keyP, .data x, M' => x = found M (translateKey keyP) keyP ∧ M' = M
  | .lookupKeyed key keyP, .data x, M' => x = found M key keyP ∧ M' = M
  | .remove keyP, .data x, M' => Removed M (translateKey keyP) keyP x M'
  | .removeKeyed key keyP, .data x, M' => Removed M key keyP x M'
  | .removeBucket keyP, .bucket x, M' =>
    Removed M (translateKey keyP) keyP (x.map fun pp => (pp.data, pp.keyP)) M'
  | .removeBucketKeyed key keyP, .bucket x, M' =>
    Removed M key keyP (x.map fun pp => (pp.data, pp.keyP)) M'
  | .getNext, .data x, M' => Pulled M x M'
  | .getNextBucket, .bucket x, M' => Pulled M (x.map fun pp => (pp.data, pp.keyP)) M'
  | .rewind, .void, M' => M' = M
  | _, _, _ => False

def MapRun : List (Exchange δ) → List (Stored δ) → Prop
  | [], M => M = []
  | x :: log, M' => ∃ M, MapRun log M ∧ MapStep M x.lacking x.op x.answer M'

def inBucket (size i : ℕ) (x : Stored δ) : Bool := x.key.tmod size == i

/-- A bucket holds every entry that belongs there, and holds it once. -/
structure Chain (o : HashedTbl δ) (M : List (Stored δ)) (i : ℕ) (as : List ℕ) : Prop where
  linked : Linked.Segment o.heap HashTblEnt.next (o.hTbl i) as none
  nodup : as.Nodup
  perm : (Linked.contents o.heap HashTblEnt.stored as).Perm (M.filter (inBucket o.currentSize i))

structure Represents (o : HashedTbl δ) (M : List (Stored δ)) : Prop where
  keys : M.Pairwise fun x y => ¬(x.key = y.key ∧ x.keyP = y.keyP)
  lookupKeyed : ∀ key keyP, o.lookupKeyed key keyP = some (found M key keyP)
  /-- Where every entry with these bytes was entered under the hash of them. -/
  lookup : ∀ keyP, (∀ x ∈ M, x.keyP = keyP → x.key = translateKey keyP) →
    o.lookup keyP = some ((M.find? fun x => x.keyP == keyP).map fun x => (x.data, x.keyP))
  used : o.currentUsed = M.length
  chain : ∀ i < o.currentSize, ∃ as, Chain o M i as
  strays : o.strays = none

structure Sound (o : HashedTbl δ) (M : List (Stored δ)) : Prop where
  size : 0 < o.currentSize
  keys : M.Pairwise fun x y => ¬(x.key = y.key ∧ x.keyP = y.keyP)
  nonneg : ∀ x ∈ M, 0 ≤ x.key
  used : o.currentUsed = M.length
  fresh : ∀ a, o.fresh ≤ a → o.heap a = none
  strays : o.strays = none
  strayCount : o.strayCount = 0
  resetNeeded : o.resetNeeded = none
  chain : ∀ i < o.currentSize, ∃ as, Chain o M i as

theorem Chain.exists_entry {o : HashedTbl δ} {M : List (Stored δ)} {i : ℕ} {as : List ℕ}
    (h : Chain o M i as) {a : ℕ} (ha : a ∈ as) :
    ∃ e, o.heap a = some e ∧ e.stored ∈ M ∧ e.key.tmod o.currentSize = i := by
  obtain ⟨e, he⟩ := h.linked.exists_node ha
  have hin := h.perm.mem_iff.1 (Linked.mem_contents ha he)
  obtain ⟨hM, hbucket⟩ := List.mem_filter.1 hin
  exact ⟨e, he, hM, beq_iff_eq.1 hbucket⟩

theorem Chain.disjoint {o : HashedTbl δ} {M : List (Stored δ)} {i j : ℕ} {as bs : List ℕ}
    (hi : Chain o M i as) (hj : Chain o M j bs) {a : ℕ} (ha : a ∈ as) (hb : a ∈ bs) : i = j := by
  obtain ⟨e, he, -, hmod⟩ := hi.exists_entry ha
  obtain ⟨e', he', -, hmod'⟩ := hj.exists_entry hb
  obtain rfl : e = e' := Option.some.inj (he.symm.trans he')
  rw [hmod] at hmod'
  exact_mod_cast hmod'

theorem Chain.congr_map {o : HashedTbl δ} {M M' : List (Stored δ)} {i : ℕ} {as : List ℕ}
    (h : Chain o M i as) (hM : M.Perm M') : Chain o M' i as :=
  ⟨h.linked, h.nodup, h.perm.trans (hM.filter _)⟩

theorem Sound.congr_map {o : HashedTbl δ} {M M' : List (Stored δ)} (h : Sound o M)
    (hM : M.Perm M') : Sound o M' where
  size := h.size
  keys := h.keys.perm hM fun hxy hyx => hxy ⟨hyx.1.symm, hyx.2.symm⟩
  nonneg := fun x hx => h.nonneg x (hM.mem_iff.2 hx)
  used := by rw [h.used, hM.length_eq]
  fresh := h.fresh
  strays := h.strays
  strayCount := h.strayCount
  resetNeeded := h.resetNeeded
  chain := fun i hi => by
    obtain ⟨as, has⟩ := h.chain i hi
    exact ⟨as, has.congr_map hM⟩

/-- Fewer entries than addresses, so that no walk is cut short. -/
theorem Sound.length_le {o : HashedTbl δ} {M : List (Stored δ)} (h : Sound o M) {i : ℕ}
    {as : List ℕ} (has : Chain o M i as) : as.length ≤ o.fresh := by
  have hsub : as ⊆ List.range o.fresh := by
    intro a ha
    obtain ⟨e, he, -⟩ := has.exists_entry ha
    by_contra hlt
    rw [List.mem_range, not_lt] at hlt
    rw [h.fresh a hlt] at he
    cases he
  simpa using (has.nodup.subperm hsub).length_le

theorem where_spec {o : HashedTbl δ} {key : ℤ} {w : ℕ} (hsize : 0 < o.currentSize)
    (hw : o.where' key = some w) : w < o.currentSize ∧ key.tmod o.currentSize = w := by
  unfold where' at hw
  split at hw
  · cases hw
  · rename_i hneg
    have hlt : key.tmod o.currentSize < o.currentSize := Int.tmod_lt_of_pos key (by exact_mod_cast hsize)
    obtain rfl := Option.some.inj hw
    omega

theorem where_of_nonneg (o : HashedTbl δ) {key : ℤ} (hkey : 0 ≤ key) :
    ∃ w, o.where' key = some w := by
  have : 0 ≤ key.tmod o.currentSize := Int.tmod_nonneg _ hkey
  exact ⟨_, if_neg (not_lt.2 this)⟩

theorem matches_iff {key : ℤ} {keyP : Bytes} {x : Stored δ} :
    x.matches' key keyP = true ↔ x.key = key ∧ x.keyP = keyP := by
  unfold Stored.matches'
  rw [Bool.and_eq_true, beq_iff_eq, beq_iff_eq]

theorem matches_stored (key : ℤ) (keyP : Bytes) (e : HashTblEnt δ) :
    e.stored.matches' key keyP = e.matches' key keyP := rfl

/-- The entry under a key is the only one. -/
theorem find_eq_of_mem {M : List (Stored δ)}
    (hkeys : M.Pairwise fun x y => ¬(x.key = y.key ∧ x.keyP = y.keyP)) {x : Stored δ} (hx : x ∈ M)
    {key : ℤ} {keyP : Bytes} (hmatch : x.matches' key keyP = true) :
    M.find? (Stored.matches' key keyP) = some x := by
  obtain ⟨s, t, rfl⟩ := List.append_of_mem hx
  rw [List.find?_eq_some_iff_append]
  refine ⟨hmatch, s, t, rfl, fun y hy => ?_⟩
  have hne := (List.pairwise_append.1 hkeys).2.2 y hy x List.mem_cons_self
  obtain ⟨hkey, hkeyP⟩ := matches_iff.1 hmatch
  rw [Bool.not_eq_true', Bool.eq_false_iff]
  intro hy
  obtain ⟨hykey, hykeyP⟩ := matches_iff.1 hy
  exact hne ⟨hykey.trans hkey.symm, hykeyP.trans hkeyP.symm⟩

theorem Sound.search_spec {o : HashedTbl δ} {M : List (Stored δ)} (h : Sound o M) {key : ℤ}
    {w : ℕ} (hw : o.where' key = some w) (keyP : Bytes) :
    (o.search key keyP w = some none ∧ M.find? (Stored.matches' key keyP) = none) ∨
      ∃ s a t e, Chain o M w (s ++ a :: t) ∧ o.heap a = some e ∧
        o.search key keyP w = some (some (s.getLast?, a, e)) ∧
        M.find? (Stored.matches' key keyP) = some e.stored := by
  obtain ⟨hlt, hmod⟩ := where_spec h.size hw
  obtain ⟨as, has⟩ := h.chain w hlt
  have hfuel : as.length < o.fresh + 1 := Nat.lt_succ_of_le (h.length_le has)
  let p : ℕ → Bool := fun a => (o.heap a).any (HashTblEnt.matches' key keyP)
  have hp : ∀ {a e}, o.heap a = some e → p a = e.matches' key keyP := by
    intro a e he
    change (o.heap a).any _ = _
    rw [he]
    rfl
  cases hfind : as.find? p with
  | none =>
    rw [List.find?_eq_none] at hfind
    left
    constructor
    · apply has.linked.seek_eq_none _ hfuel
      intro a ha e he
      have := hfind a ha
      rwa [hp he, Bool.not_eq_true] at this
    · rw [List.find?_eq_none]
      intro x hx hmatch
      -- An entry under the key would be in this bucket.
      have hin : x ∈ M.filter (inBucket o.currentSize w) := by
        refine List.mem_filter.2 ⟨hx, ?_⟩
        unfold inBucket
        rw [(matches_iff.1 hmatch).1, hmod]
        exact beq_self_eq_true _
      obtain ⟨a, ha, e, he, rfl⟩ := Linked.exists_of_mem_contents (has.perm.mem_iff.2 hin)
      have := hfind a ha
      rw [hp he] at this
      exact this hmatch
  | some a =>
    obtain ⟨hpass, s, t, rfl, hfail⟩ := List.find?_eq_some_iff_append.1 hfind
    obtain ⟨e, he, hM, -⟩ := has.exists_entry (List.mem_append_right s List.mem_cons_self)
    rw [hp he] at hpass
    right
    refine ⟨s, a, t, e, has, he, ?_, find_eq_of_mem h.keys hM hpass⟩
    have := has.linked.seek_eq_some (fun b hb n hn => ?_) he hpass hfuel none
    · rwa [Option.or_none] at this
    · have := hfail b hb
      rwa [hp hn, Bool.not_eq_true'] at this

/-- A key whose bucket would be negative is nowhere. -/
theorem Sound.find_eq_none {o : HashedTbl δ} {M : List (Stored δ)} (h : Sound o M) {key : ℤ}
    (hkey : o.where' key = none ∨ key < 0) (keyP : Bytes) :
    M.find? (Stored.matches' key keyP) = none := by
  rw [List.find?_eq_none]
  intro x hx hmatch
  have hnonneg := h.nonneg x hx
  rw [(matches_iff.1 hmatch).1] at hnonneg
  obtain hnone | hneg := hkey
  · obtain ⟨w, hw⟩ := where_of_nonneg o hnonneg
    rw [hnone] at hw
    cases hw
  · omega

theorem Sound.lookupKeyed_eq {o : HashedTbl δ} {M : List (Stored δ)} (h : Sound o M) (key : ℤ)
    (keyP : Bytes) : o.lookupKeyed key keyP = some (found M key keyP) := by
  unfold HashedTbl.lookupKeyed found
  split
  · rename_i hzero
    rw [h.used] at hzero
    obtain rfl : M = [] := List.length_eq_zero_iff.1 (by exact_mod_cast hzero)
    rfl
  split
  · rename_i hnone
    rw [h.find_eq_none (.inl hnone)]
    rfl
  · rename_i w hw
    obtain ⟨hsearch, hfind⟩ | ⟨s, a, t, e, -, -, hsearch, hfind⟩ := h.search_spec hw keyP
    · rw [hsearch, hfind]
      rfl
    · rw [hsearch, hfind]
      rfl

theorem Sound.represents {o : HashedTbl δ} {M : List (Stored δ)} (h : Sound o M) :
    Represents o M where
  keys := h.keys
  lookupKeyed := h.lookupKeyed_eq
  lookup := fun keyP hhash => by
    unfold HashedTbl.lookup
    rw [h.lookupKeyed_eq, found]
    congr 2
    apply List.find?_congr
    intro x hx
    unfold Stored.matches'
    by_cases hkeyP : x.keyP = keyP
    · simp [hkeyP, hhash x hx hkeyP]
    · simp [hkeyP]
  used := h.used
  chain := h.chain
  strays := h.strays

/-- Addresses, allocations and the cursor do not matter to a map. -/
theorem Sound.congr_table {o u : HashedTbl δ} {M : List (Stored δ)} (h : Sound o M)
    (hheap : u.heap = o.heap) (hfresh : o.fresh ≤ u.fresh) (htbl : u.hTbl = o.hTbl)
    (hsize : u.currentSize = o.currentSize) (hused : u.currentUsed = o.currentUsed)
    (hstrays : u.strays = o.strays ∧ u.strayCount = o.strayCount) (hreset : u.resetNeeded = none) :
    Sound u M where
  size := hsize ▸ h.size
  keys := h.keys
  nonneg := h.nonneg
  used := hused.trans h.used
  fresh := fun a ha => by rw [hheap, h.fresh a (hfresh.trans ha)]
  strays := hstrays.1.trans h.strays
  strayCount := hstrays.2.trans h.strayCount
  resetNeeded := hreset
  chain := fun i hi => by
    obtain ⟨as, has⟩ := h.chain i (hsize ▸ hi)
    refine ⟨as, ⟨?_, has.nodup, ?_⟩⟩
    · rw [hheap, htbl]
      exact has.linked
    · rw [hheap, hsize]
      exact has.perm

/-- An entry comes to the top of its bucket, whatever its address holds. -/
theorem Sound.plop {o : HashedTbl δ} {M : List (Stored δ)} (h : Sound o M) {a w : ℕ}
    {e : HashTblEnt δ} (ha : a < o.fresh) (hold : ∀ b, o.heap a = some b → b.stored ∉ M)
    (hkey : 0 ≤ e.key) (hw : o.where' e.key = some w)
    (hnew : M.find? (Stored.matches' e.key e.keyP) = none) : Sound (o.plop a w e) (e.stored :: M) := by
  obtain ⟨hlt, hmod⟩ := where_spec h.size hw
  have hfree : ∀ i as, Chain o M i as → a ∉ as := by
    intro i as has hin
    obtain ⟨b, hb, hM, -⟩ := has.exists_entry hin
    exact hold b hb hM
  have hother : ∀ b, b ≠ a → (o.plop a w e).heap b = o.heap b := fun b hb => Function.update_of_ne hb _ _
  have hcontents : ∀ i as, Chain o M i as → Linked.contents (o.plop a w e).heap HashTblEnt.stored as =
      Linked.contents o.heap HashTblEnt.stored as := by
    intro i as has
    apply Linked.contents_congr
    intro b hb
    rw [hother b fun hba => hfree i as has (hba ▸ hb)]
  constructor
  · exact h.size
  · refine List.pairwise_cons.2 ⟨fun x hx hsame => ?_, h.keys⟩
    have := List.find?_eq_none.1 hnew x hx
    exact this (matches_iff.2 ⟨hsame.1.symm, hsame.2.symm⟩)
  · intro x hx
    obtain rfl | hx := List.mem_cons.1 hx
    · exact hkey
    · exact h.nonneg x hx
  · change o.currentUsed + 1 = _
    rw [h.used, List.length_cons]
    push_cast
    rfl
  · intro b hb
    rw [hother b fun hba => absurd ha (not_lt.2 (hba ▸ hb)), h.fresh b hb]
  · exact h.strays
  · exact h.strayCount
  · exact h.resetNeeded
  · intro i hi
    obtain ⟨as, has⟩ := h.chain i hi
    by_cases hiw : i = w
    · subst hiw
      refine ⟨a :: as, ⟨?_, List.nodup_cons.2 ⟨hfree i as has, has.nodup⟩, ?_⟩⟩
      · have hhead : (o.plop a i e).hTbl i = some a := Function.update_self _ _ _
        rw [hhead]
        exact has.linked.push (hfree i as has) rfl
      · have hin : inBucket o.currentSize i e.stored = true := beq_iff_eq.2 hmod
        have hnode : (o.plop a i e).heap a = some (e.setNext (o.hTbl i)) := Function.update_self _ _ _
        rw [Linked.contents_cons hnode, hcontents i as has]
        change (e.stored :: _).Perm (List.filter (inBucket o.currentSize i) (e.stored :: M))
        rw [List.filter_cons_of_pos hin]
        exact has.perm.cons _
    · refine ⟨as, ⟨?_, has.nodup, ?_⟩⟩
      · have hhead : (o.plop a w e).hTbl i = o.hTbl i := Function.update_of_ne hiw _ _
        rw [hhead]
        exact has.linked.congr fun b hb => hother b fun hba => hfree i as has (hba ▸ hb)
      · have hout : inBucket o.currentSize i e.stored = false := by
          unfold inBucket
          change (e.key.tmod o.currentSize == (i : ℤ)) = false
          rw [hmod, beq_eq_false_iff_ne]
          exact_mod_cast Ne.symm hiw
        rw [hcontents i as has]
        change (Linked.contents _ _ as).Perm (List.filter (inBucket o.currentSize i) (e.stored :: M))
        rw [List.filter_cons_of_neg (by rw [hout]; exact Bool.false_ne_true)]
        exact has.perm

section TakeOut

variable {o : HashedTbl δ} {M M' : List (Stored δ)} {w a : ℕ} {s t : List ℕ} {e : HashTblEnt δ}

theorem takeOut_self (o : HashedTbl δ) (w : ℕ) (prev : Option ℕ) (a : ℕ) (e : HashTblEnt δ) :
    (o.takeOut w prev a e).heap a = none := Function.update_self _ _ _

/-- Whatever becomes of the cursor, it is only the postion of an entry that depends on it. -/
theorem takeOut_map (content : HashTblEnt δ → κ)
    (hcontent : ∀ (x : HashTblEnt δ) (p : ℤ), content { x with postion := p } = content x) {prev : Option ℕ}
    {b : ℕ} (hb : b ≠ a) :
    ((o.takeOut w prev a e).heap b).map content =
      (Linked.relink o.heap HashTblEnt.setNext prev e.next b).map content := by
  unfold HashedTbl.takeOut
  dsimp only
  rw [Function.update_of_ne hb]
  cases e.next with
  | none => rfl
  | some n =>
    dsimp only
    split
    · by_cases hbn : b = n
      · subst hbn
        rw [Function.update_self, Option.map_map]
        exact Option.map_congr fun x _ => hcontent x _
      · rw [Function.update_of_ne hbn]
    · rfl

theorem takeOut_stored {prev : Option ℕ} {b : ℕ} (hb : b ≠ a) :
    ((o.takeOut w prev a e).heap b).map HashTblEnt.stored = (o.heap b).map HashTblEnt.stored := by
  rw [takeOut_map HashTblEnt.stored (fun _ _ => rfl) hb]
  have hsame : ∀ q (n : HashTblEnt δ), (n.setNext q).stored = n.stored := fun _ _ => rfl
  exact Linked.relink_map hsame prev e.next b

theorem takeOut_next {prev : Option ℕ} {b : ℕ} (hb : b ≠ a) :
    ((o.takeOut w prev a e).heap b).map HashTblEnt.next =
      (Linked.relink o.heap HashTblEnt.setNext prev e.next b).map HashTblEnt.next :=
  takeOut_map HashTblEnt.next (fun _ _ => rfl) hb

/-- Each bucket loses the entry, which only one of them has. -/
theorem Chain.takeOut (hchain : Chain o M w (s ++ a :: t)) (ha : o.heap a = some e)
    (hM : M.Perm (e.stored :: M')) {i : ℕ} {as : List ℕ} (has : Chain o M i as) :
    Chain (o.takeOut w s.getLast? a e) M' i (as.erase a) := by
  have hnodup := hchain.nodup
  have hin : a ∈ s ++ a :: t := List.mem_append_right s List.mem_cons_self
  obtain ⟨e', he', -, hmod⟩ := hchain.exists_entry hin
  obtain rfl : e = e' := Option.some.inj (ha.symm.trans he')
  have hcontents : ∀ bs : List ℕ, a ∉ bs →
      Linked.contents (o.takeOut w s.getLast? a e).heap HashTblEnt.stored bs =
        Linked.contents o.heap HashTblEnt.stored bs := by
    intro bs habs
    apply Linked.contents_congr
    exact fun b hb => takeOut_stored fun hba => habs (hba ▸ hb)
  have hperm := (has.congr_map hM).perm
  by_cases hiw : i = w
  · subst hiw
    have haout : a ∉ s ++ t := (List.nodup_cons.1 (List.nodup_middle.1 hnodup)).1
    have hfuel : as.length < (s ++ a :: t).length + as.length + 1 := by omega
    obtain rfl : as = s ++ a :: t := by
      rw [← has.linked.nodes_eq hfuel, hchain.linked.nodes_eq (by omega)]
    have herase : (s ++ a :: t).erase a = s ++ t := by
      rw [List.erase_append_right _ fun has => haout (List.mem_append_left _ has), List.erase_cons_head]
    rw [herase]
    refine ⟨?_, (List.nodup_cons.1 (List.nodup_middle.1 hnodup)).2, ?_⟩
    · have hseg : Linked.Segment (Linked.relink o.heap HashTblEnt.setNext s.getLast? e.next)
          HashTblEnt.next (s.getLast?.elim e.next fun _ => o.hTbl i) (s ++ t) none :=
        hchain.linked.unlink (fun _ _ => rfl) hnodup ha
      have hhead : (o.takeOut i s.getLast? a e).hTbl i = s.getLast?.elim e.next fun _ => o.hTbl i := by
        unfold HashedTbl.takeOut
        cases s.getLast? with
        | none => exact Function.update_self _ _ _
        | some b => rfl
      rw [hhead]
      apply hseg.congr_next
      exact fun b hb => takeOut_next fun hba => haout (hba ▸ hb)
    · have hmem : inBucket o.currentSize i e.stored = true := beq_iff_eq.2 hmod
      rw [hcontents _ haout]
      rw [List.filter_cons_of_pos hmem, Linked.contents_append, Linked.contents_cons ha] at hperm
      rw [Linked.contents_append]
      exact (List.perm_middle.symm.trans hperm).cons_inv
  · have hout : ∀ b ∈ as, b ∉ s ++ a :: t := fun b hb hbw => hiw (has.disjoint hchain hb hbw)
    have haout : a ∉ as := fun haas => hout a haas hin
    rw [List.erase_of_not_mem haout]
    refine ⟨?_, has.nodup, ?_⟩
    · have hhead : (o.takeOut w s.getLast? a e).hTbl i = o.hTbl i := by
        unfold HashedTbl.takeOut
        cases s.getLast? with
        | none => exact Function.update_of_ne hiw _ _
        | some b => rfl
      rw [hhead]
      apply has.linked.congr_next
      intro b hb
      have hba : b ≠ a := fun hba => haout (hba ▸ hb)
      rw [takeOut_next hba]
      congr 1
      apply Linked.relink_of_ne
      exact fun hlast => hout b hb (List.mem_append_left _ (List.mem_of_getLast? hlast))
    · have hmiss : ¬inBucket o.currentSize i e.stored = true := by
        intro hinto
        have := (beq_iff_eq.1 hinto).symm.trans hmod
        exact hiw (by exact_mod_cast this)
      rw [List.filter_cons_of_neg hmiss] at hperm
      rw [hcontents as haout]
      exact hperm

/-- The table without its cursor, of which the map does not depend. -/
def still (o : HashedTbl δ) : HashedTbl δ := { o with resetNeeded := none }

theorem still_eq {o : HashedTbl δ} (h : o.resetNeeded = none) : o.still = o := by
  unfold still
  rw [← h]

theorem Chain.still {i : ℕ} {as : List ℕ} : Chain o.still M i as ↔ Chain o M i as :=
  ⟨fun h => ⟨h.linked, h.nodup, h.perm⟩, fun h => ⟨h.linked, h.nodup, h.perm⟩⟩

theorem Sound.takeOut_still (h : Sound o.still M) (hchain : Chain o M w (s ++ a :: t))
    (ha : o.heap a = some e) (hM : M.Perm (e.stored :: M')) :
    Sound (o.takeOut w s.getLast? a e).still M' := by
  have h' := h.congr_map hM
  constructor
  · exact h.size
  · exact (List.pairwise_cons.1 h'.keys).2
  · exact fun x hx => h'.nonneg x (List.mem_cons_of_mem _ hx)
  · have hused : o.currentUsed = _ := h'.used
    change o.currentUsed - 1 = _
    rw [hused, List.length_cons]
    push_cast
    omega
  · intro b hb
    change (o.takeOut w s.getLast? a e).heap b = none
    have hnone : o.heap b = none := h.fresh b hb
    by_cases hba : b = a
    · rw [hba, takeOut_self]
    · have hstored : ((o.takeOut w s.getLast? a e).heap b).map HashTblEnt.stored =
          (o.heap b).map HashTblEnt.stored := takeOut_stored hba
      rw [hnone, Option.map_none, Option.map_eq_none_iff] at hstored
      exact hstored
  · exact h.strays
  · exact h.strayCount
  · rfl
  · intro i hi
    obtain ⟨as, has⟩ := h.chain i hi
    exact ⟨as.erase a, Chain.still.2 (hchain.takeOut ha hM (Chain.still.1 has))⟩

theorem Sound.takeOut (h : Sound o M) (hchain : Chain o M w (s ++ a :: t)) (ha : o.heap a = some e)
    (hM : M.Perm (e.stored :: M')) : Sound (o.takeOut w s.getLast? a e) M' := by
  have hstill : Sound o.still M := by rwa [still_eq h.resetNeeded]
  have hreset : (o.takeOut w s.getLast? a e).resetNeeded = none := by
    unfold HashedTbl.takeOut
    rw [h.resetNeeded]
    rfl
  have hout := hstill.takeOut_still hchain ha hM
  rwa [still_eq hreset] at hout

end TakeOut

theorem le_getOptSize (suggest : ℕ) : suggest ≤ getOptSize suggest := by
  unfold getOptSize
  cases hfind : (List.range' suggest (MAXPRIME - suggest)).find? isPrime with
  | none => exact le_rfl
  | some n => exact (List.mem_range'_1.1 (List.mem_of_find?_eq_some hfind)).1

/-- A table without entries may grow, or fail to. -/
theorem Sound.reSize {o : HashedTbl δ} (h : Sound o []) :
    ∃ u, o.reSize = some u ∧ Sound u [] ∧ u.heap = o.heap ∧ u.fresh = o.fresh ∧
      u.calloc = o.calloc ∧ o.callocs ≤ u.callocs := by
  have hempty : ∀ i < o.currentSize, o.hTbl i = none := by
    intro i hi
    obtain ⟨as, has⟩ := h.chain i hi
    rw [has.linked.head_eq]
    cases as with
    | nil => rfl
    | cons a as =>
      obtain ⟨e, -, hin, -⟩ := has.exists_entry List.mem_cons_self
      cases hin
  unfold HashedTbl.reSize HashedTbl.reSizeAt
  by_cases hcalloc : o.calloc o.callocs = true
  · rw [if_pos hcalloc]
    have hmove : ∀ (is : List ℕ) (u : HashedTbl δ), (∀ i ∈ is, i < o.currentSize) →
        is.foldlM (fun o' i => moveChain (reSizeAt (2 * o.fresh + 3)) (o.fresh + 1) o' (o.hTbl i)) u =
          some u := by
      intro is
      induction is with
      | nil => exact fun u _ => rfl
      | cons i is ih =>
        intro u his
        rw [List.foldlM_cons, hempty i (his i List.mem_cons_self)]
        exact ih u fun j hj => his j (List.mem_cons_of_mem _ hj)
    refine ⟨_, hmove _ _ fun i hi => List.mem_range.1 hi, ?_, rfl, rfl, rfl, Nat.le_succ _⟩
    constructor
    · exact lt_of_lt_of_le (Nat.add_pos_left h.size _) (le_getOptSize _)
    · exact List.Pairwise.nil
    · exact fun x hx => absurd hx List.not_mem_nil
    · rfl
    · exact h.fresh
    · exact h.strays
    · exact h.strayCount
    · exact h.resetNeeded
    · exact fun i _ => ⟨[], rfl, List.nodup_nil, List.Perm.refl _⟩
  · rw [if_neg hcalloc]
    refine ⟨_, rfl, ?_, rfl, rfl, rfl, Nat.le_succ _⟩
    exact h.congr_table rfl le_rfl rfl rfl h.used.symm ⟨rfl, rfl⟩ h.resetNeeded

/-- Growth where it is due, if that is with an empty table only. -/
theorem Sound.grow {o : HashedTbl δ} {M : List (Stored δ)} (h : Sound o M) {full : Prop}
    [Decidable full] (hroom : full → M = []) :
    ∃ u, (if full then o.reSize else some o) = some u ∧ Sound u M ∧ u.heap = o.heap ∧
      u.fresh = o.fresh ∧ u.calloc = o.calloc ∧ o.callocs ≤ u.callocs := by
  by_cases hfull : full
  · rw [if_pos hfull]
    obtain rfl := hroom hfull
    exact h.reSize
  · rw [if_neg hfull]
    exact ⟨o, rfl, h, rfl, rfl, rfl, le_rfl⟩

/-- A key is there already, or the table is empty, or it does not have to grow. -/
def Room (o : HashedTbl δ) (limit : ℕ) (key : ℤ) (keyP : Bytes) : Prop :=
  (o.lookupKeyed key keyP).any Option.isSome = true ∨ o.currentUsed = 0 ∨ o.currentUsed + 1 < limit

instance (o : HashedTbl δ) (limit : ℕ) (key : ℤ) (keyP : Bytes) : Decidable (o.Room limit key keyP) :=
  inferInstanceAs (Decidable (_ ∨ _ ∨ _))

theorem Sound.empty_of_full {o : HashedTbl δ} {M : List (Stored δ)} (h : Sound o M) {limit : ℕ}
    {key : ℤ} {keyP : Bytes} (hroom : o.Room limit key keyP)
    (hnew : M.find? (Stored.matches' key keyP) = none) (hfull : (limit : ℤ) ≤ o.currentUsed + 1) :
    M = [] := by
  obtain hthere | hzero | hlt := hroom
  · rw [h.lookupKeyed_eq, found, hnew] at hthere
    cases hthere
  · rw [h.used] at hzero
    exact List.length_eq_zero_iff.1 (by exact_mod_cast hzero)
  · omega

/-- Whether the last allocation on the way to another state was refused. -/
def lacking (o u : HashedTbl δ) : Bool :=
  decide (o.callocs < u.callocs) && !o.calloc (u.callocs - 1)

theorem Sound.enterNew {o u : HashedTbl δ} {M : List (Stored δ)} (h : Sound u M) {key : ℤ}
    (newt : δ) {keyp : Bytes} (hkey : 0 ≤ key) (hnew : M.find? (Stored.matches' key keyp) = none)
    (hcalloc : u.calloc = o.calloc) (hle : o.callocs ≤ u.callocs) :
    ∃ M', Entered M (o.lacking (u.enterNew key newt keyp).1) ⟨key, keyp, newt⟩
      (u.enterNew key newt keyp).2 M' ∧ Sound (u.enterNew key newt keyp).1 M' := by
  obtain ⟨w, hw⟩ := where_of_nonneg u hkey
  unfold HashedTbl.enterNew
  simp only [hw]
  by_cases hgot : u.calloc u.callocs = true
  · rw [if_pos hgot]
    refine ⟨_, .inl ⟨rfl, hnew, rfl⟩, ?_⟩
    have hwide : Sound { u with callocs := u.callocs + 1, fresh := u.fresh + 1 } M :=
      h.congr_table rfl (Nat.le_succ _) rfl rfl rfl ⟨rfl, rfl⟩ h.resetNeeded
    have hnone : ∀ b, u.heap u.fresh = some b → b.stored ∉ M := by
      intro b hb
      rw [h.fresh _ le_rfl] at hb
      cases hb
    exact hwide.plop (Nat.lt_succ_self _) hnone hkey hw hnew
  · rw [if_neg hgot]
    refine ⟨M, .inr ⟨fun hret => (by cases hret), .inr ?_, rfl⟩, ?_⟩
    · unfold HashedTbl.lacking
      rw [Bool.and_eq_true, decide_eq_true_iff, ← hcalloc]
      exact ⟨Nat.lt_succ_of_le hle, by simpa using hgot⟩
    · exact h.congr_table rfl le_rfl rfl rfl rfl ⟨rfl, rfl⟩ h.resetNeeded

theorem found_isSome {M : List (Stored δ)} {key : ℤ} {keyP : Bytes} :
    (found M key keyP).isSome = (M.find? (Stored.matches' key keyP)).isSome :=
  Option.isSome_map

theorem Sound.enterKeyed {o : HashedTbl δ} {M : List (Stored δ)} (h : Sound o M) {key : ℤ}
    (newt : δ) {keyp : Bytes} (hkey : 0 ≤ key)
    (hroom : o.Room (o.currentSize - o.currentSize >>> 2) key keyp) :
    ∃ u ret M', o.enterKeyed key newt keyp = some (u, ret) ∧
      Entered M (o.lacking u) ⟨key, keyp, newt⟩ ret M' ∧ Sound u M' := by
  unfold HashedTbl.enterKeyed
  rw [if_neg (not_lt.2 hkey), h.lookupKeyed_eq, Option.bind_some, found_isSome]
  cases hfind : M.find? (Stored.matches' key keyp) with
  | some x =>
    refine ⟨o, .bad, M, rfl, .inr ⟨fun hret => (by cases hret), .inl ?_, rfl⟩, h⟩
    rw [hfind]
    rfl
  | none =>
    rw [Option.isSome_none, if_neg Bool.false_ne_true]
    obtain ⟨u, hu, hsound, -, -, hcalloc, hle⟩ := h.grow (h.empty_of_full hroom hfind)
    obtain ⟨M', hentered, hM'⟩ := hsound.enterNew newt hkey hfind hcalloc hle
    rw [hu, Option.map_some]
    exact ⟨_, _, M', rfl, hentered, hM'⟩

/-- A bucket of the caller is no entry yet. -/
theorem Sound.alloc {o : HashedTbl δ} {M : List (Stored δ)} (h : Sound o M) (pp : HashTblEnt δ) :
    Sound { o with heap := Function.update o.heap o.fresh (some pp), fresh := o.fresh + 1 } M := by
  have hne : ∀ i as, Chain o M i as → ∀ a ∈ as, a ≠ o.fresh := by
    rintro i as has a ha rfl
    obtain ⟨e, he, -⟩ := has.exists_entry ha
    rw [h.fresh _ le_rfl] at he
    cases he
  constructor
  · exact h.size
  · exact h.keys
  · exact h.nonneg
  · exact h.used
  · intro a ha
    have ha : o.fresh + 1 ≤ a := ha
    have hne : a ≠ o.fresh := by omega
    exact (Function.update_of_ne hne _ _).trans (h.fresh a (by omega))
  · exact h.strays
  · exact h.strayCount
  · exact h.resetNeeded
  · intro i hi
    obtain ⟨as, has⟩ := h.chain i hi
    refine ⟨as, ⟨?_, has.nodup, ?_⟩⟩
    · apply has.linked.congr
      intro a ha
      exact Function.update_of_ne (hne i as has a ha) _ _
    · have hsame : Linked.contents (Function.update o.heap o.fresh (some pp)) HashTblEnt.stored as =
          Linked.contents o.heap HashTblEnt.stored as := by
        apply Linked.contents_congr
        intro a ha
        rw [Function.update_of_ne (hne i as has a ha)]
      exact hsame ▸ has.perm

theorem Sound.enterBucket {o : HashedTbl δ} {M : List (Stored δ)} (h : Sound o M)
    {pp : HashTblEnt δ} (hkey : 0 ≤ pp.key) (hroom : o.Room (o.currentSize / 2) pp.key pp.keyP) :
    ∃ u ret M', o.enterBucket pp = some (u, ret) ∧ Entered M false pp.stored ret M' ∧
      Sound u M' := by
  unfold HashedTbl.enterBucket HashedTbl.enterBucketAt
  have halloc := h.alloc pp
  simp only [Function.update_self, Option.bind_some, if_neg (not_lt.2 hkey), halloc.lookupKeyed_eq,
    found_isSome]
  cases hfind : M.find? (Stored.matches' pp.key pp.keyP) with
  | some x =>
    refine ⟨_, .bad, M, rfl, .inr ⟨fun hret => (by cases hret), .inl ?_, rfl⟩, ?_⟩
    · exact hfind ▸ rfl
    · refine h.congr_table ?_ (Nat.le_succ _) rfl rfl rfl ⟨rfl, rfl⟩ h.resetNeeded
      change Function.update (Function.update o.heap o.fresh (some pp)) o.fresh none = o.heap
      rw [Function.update_idem, ← h.fresh o.fresh le_rfl, Function.update_eq_self]
  | none =>
    obtain ⟨u, hu, hsound, hheap, hfresh, -, -⟩ := halloc.grow (h.empty_of_full hroom hfind)
    obtain ⟨w, hw⟩ := where_of_nonneg u hkey
    have hold : ∀ b, u.heap o.fresh = some b → b.stored ∉ M := by
      intro b hb hin
      rw [hheap] at hb
      change Function.update o.heap o.fresh (some pp) o.fresh = some b at hb
      rw [Function.update_self] at hb
      obtain rfl : pp = b := Option.some.inj hb
      exact List.find?_eq_none.1 hfind _ hin (matches_iff.2 ⟨rfl, rfl⟩)
    have hlt : o.fresh < u.fresh := by
      rw [hfresh]
      exact Nat.lt_succ_self _
    refine ⟨_, .good, _, ?_, .inl ⟨rfl, hfind, rfl⟩, hsound.plop hlt hold hkey hw hfind⟩
    simp only [Option.isSome_none, Bool.false_eq_true, if_false]
    rw [hu, Option.bind_some]
    simp only [hw, Option.map_some, if_true]

/-- A removed entry is the first one under its key. -/
theorem perm_eraseP {M : List (Stored δ)} {key : ℤ} {keyP : Bytes} {x : Stored δ}
    (hfind : M.find? (Stored.matches' key keyP) = some x) :
    M.Perm (x :: M.eraseP (Stored.matches' key keyP)) := by
  obtain ⟨hmatch, s, t, rfl, hfail⟩ := List.find?_eq_some_iff_append.1 hfind
  have herase : (s ++ x :: t).eraseP (Stored.matches' key keyP) = s ++ t := by
    rw [List.eraseP_append_right, List.eraseP_cons_of_pos hmatch]
    intro y hy
    simpa using hfail y hy
  rw [herase]
  exact List.perm_middle

theorem Sound.removeAt {o : HashedTbl δ} {M : List (Stored δ)} (h : Sound o M) (key : ℤ)
    (keyP : Bytes) :
    ∃ u x, o.removeAt key keyP = some (u, x) ∧
      Removed M key keyP (x.map fun pp => (pp.data, pp.keyP)) (M.eraseP (Stored.matches' key keyP)) ∧
      Sound u (M.eraseP (Stored.matches' key keyP)) := by
  have hmiss : M.find? (Stored.matches' key keyP) = none →
      Removed M key keyP none (M.eraseP (Stored.matches' key keyP)) ∧
        Sound o (M.eraseP (Stored.matches' key keyP)) := by
    intro hfind
    refine ⟨⟨?_, rfl⟩, ?_⟩
    · unfold found
      rw [hfind]
      rfl
    · rwa [List.eraseP_of_forall_not fun x hx => List.find?_eq_none.1 hfind x hx]
  unfold HashedTbl.removeAt
  cases hw : o.where' key with
  | none => exact ⟨o, none, rfl, hmiss (h.find_eq_none (.inl hw) keyP)⟩
  | some w =>
    obtain ⟨hsearch, hfind⟩ | ⟨s, a, t, e, hchain, ha, hsearch, hfind⟩ := h.search_spec hw keyP
    · refine ⟨o, none, ?_, hmiss hfind⟩
      simp only [hsearch, Option.map_some]
    · refine ⟨o.takeOut w s.getLast? a e, some e, ?_, ⟨?_, rfl⟩, ?_⟩
      · simp only [hsearch, Option.map_some]
      · unfold found
        rw [hfind]
        rfl
      · exact h.takeOut hchain ha (perm_eraseP hfind)

theorem Sound.removeKeyed {o : HashedTbl δ} {M : List (Stored δ)} (h : Sound o M) (key : ℤ)
    (keyP : Bytes) :
    ∃ u x M', o.removeKeyed key keyP = some (u, x) ∧ Removed M key keyP x M' ∧ Sound u M' := by
  unfold HashedTbl.removeKeyed
  by_cases hkey : key < 0
  · have hfind := h.find_eq_none (.inr hkey) keyP
    refine ⟨o, none, M, if_pos hkey, ⟨?_, ?_⟩, h⟩
    · unfold found
      rw [hfind]
      rfl
    · exact (List.eraseP_of_forall_not fun x hx => List.find?_eq_none.1 hfind x hx).symm
  · obtain ⟨u, x, hu, hremoved, hsound⟩ := h.removeAt key keyP
    refine ⟨u, _, _, ?_, hremoved, hsound⟩
    rw [if_neg hkey, hu]
    rfl

theorem Sound.removeBucketKeyed {o : HashedTbl δ} {M : List (Stored δ)} (h : Sound o M) (key : ℤ)
    (keyP : Bytes) :
    ∃ u x M', o.removeBucketKeyed key keyP = some (u, x) ∧
      Removed M key keyP (x.map fun pp => (pp.data, pp.keyP)) M' ∧ Sound u M' := by
  obtain ⟨u, x, hu, hremoved, hsound⟩ := h.removeAt key keyP
  refine ⟨u, x.map (HashTblEnt.setNext none), _, ?_, ?_, hsound⟩
  · unfold HashedTbl.removeBucketKeyed
    rw [hu]
    rfl
  · rw [Option.map_map]
    exact hremoved

/-- Pulling the first entry of a bucket is taking it out, the loop's position apart. -/
theorem Sound.pull {o : HashedTbl δ} {M : List (Stored δ)} (h : Sound o M) {i a : ℕ}
    {e : HashTblEnt δ} (hi : i < o.currentSize) (hhead : o.hTbl i = some a) (ha : o.heap a = some e) :
    ∃ M', M.Perm (e.stored :: M') ∧ Sound (o.pull i a e) M' := by
  obtain ⟨as, has⟩ := h.chain i hi
  have hfirst := has.linked.head_eq
  rw [hhead] at hfirst
  obtain ⟨t, rfl⟩ : ∃ t, as = a :: t := by
    cases as with
    | nil => cases hfirst
    | cons b t =>
      obtain rfl : a = b := Option.some.inj hfirst
      exact ⟨t, rfl⟩
  obtain ⟨e', he', hM, -⟩ := has.exists_entry List.mem_cons_self
  obtain rfl : e = e' := Option.some.inj (ha.symm.trans he')
  obtain ⟨l, r, rfl⟩ := List.append_of_mem hM
  refine ⟨l ++ r, List.perm_middle, ?_⟩
  have hout := h.takeOut (s := []) has ha List.perm_middle
  have hcursor : (o.resetNeeded == some a) = false := by
    rw [h.resetNeeded]
    rfl
  refine hout.congr_table ?_ le_rfl rfl rfl rfl ⟨rfl, rfl⟩ h.resetNeeded
  unfold HashedTbl.takeOut HashedTbl.pull Linked.relink
  cases e.next with
  | none => rfl
  | some b => simp only [List.getLast?_nil, hcursor, Bool.false_eq_true, if_false]

theorem Sound.getNextBucket {o : HashedTbl δ} {M : List (Stored δ)} (h : Sound o M) :
    ∃ u x M', o.getNextBucket = some (u, x) ∧ Pulled M (x.map fun pp => (pp.data, pp.keyP)) M' ∧
      Sound u M' := by
  unfold HashedTbl.getNextBucket
  split
  · exact ⟨o, none, M, rfl, .inl ⟨rfl, rfl⟩, h⟩
  cases hnext : o.nextBucket with
  | none => exact ⟨o, none, M, rfl, .inl ⟨rfl, rfl⟩, h⟩
  | some i =>
    have hin := List.mem_range'_1.1 (List.mem_of_find?_eq_some hnext)
    have hi : i < o.currentSize := by omega
    have hsome : (o.hTbl i).isSome = true := by
      unfold HashedTbl.nextBucket at hnext
      have hhere := List.find?_some hnext
      exact hhere
    obtain ⟨a, hhead⟩ := Option.isSome_iff_exists.1 hsome
    obtain ⟨as, has⟩ := h.chain i hi
    have hmem : a ∈ as := List.mem_of_head? (has.linked.head_eq.symm.trans hhead)
    obtain ⟨e, he, -, -⟩ := has.exists_entry hmem
    obtain ⟨M', hM', hsound⟩ := h.pull hi hhead he
    refine ⟨_, some e, M', ?_, .inr ⟨e.stored, hM', rfl⟩, hsound⟩
    simp only [hhead, Option.bind_some, he, Option.map_some]

theorem Sound.getNext {o : HashedTbl δ} {M : List (Stored δ)} (h : Sound o M) :
    ∃ u x M', o.getNext = some (u, x) ∧ Pulled M x M' ∧ Sound u M' := by
  unfold HashedTbl.getNext
  split
  · exact ⟨o, none, M, if_pos h.strayCount, .inl ⟨rfl, rfl⟩, h⟩
  · obtain ⟨u, x, M', hu, hpulled, hsound⟩ := h.getNextBucket
    refine ⟨u, _, M', ?_, hpulled, hsound⟩
    rw [hu]
    rfl

/-- Keys are no negative integers, and the table does not have to grow while there are entries
in it. -/
def Op.Regular (o : HashedTbl δ) : Op δ → Prop
  | .enter key _ => 0 ≤ translateKey key ∧
      o.Room (o.currentSize - o.currentSize >>> 2) (translateKey key) key
  | .enterKeyed key _ keyp => 0 ≤ key ∧ o.Room (o.currentSize - o.currentSize >>> 2) key keyp
  | .enterBucket pp => 0 ≤ pp.key ∧ o.Room (o.currentSize / 2) pp.key pp.keyP
  | _ => True

instance (o : HashedTbl δ) : (op : Op δ) → Decidable (op.Regular o)
  | .enter _ _ => inferInstanceAs (Decidable (_ ∧ _))
  | .enterKeyed _ _ _ => inferInstanceAs (Decidable (_ ∧ _))
  | .enterBucket _ => inferInstanceAs (Decidable (_ ∧ _))
  | .lookup _ => inferInstanceAs (Decidable True)
  | .lookupKeyed _ _ => inferInstanceAs (Decidable True)
  | .remove _ => inferInstanceAs (Decidable True)
  | .removeKeyed _ _ => inferInstanceAs (Decidable True)
  | .removeBucket _ => inferInstanceAs (Decidable True)
  | .removeBucketKeyed _ _ => inferInstanceAs (Decidable True)
  | .getNext => inferInstanceAs (Decidable True)
  | .getNextBucket => inferInstanceAs (Decidable True)
  | .rewind => inferInstanceAs (Decidable True)

theorem Sound.step {o : HashedTbl δ} {M : List (Stored δ)} (h : Sound o M) {op : Op δ}
    (hop : op.Regular o) :
    ∃ u answer M', tblStep o op = some (u, answer) ∧ MapStep M (o.lacking u) op answer M' ∧
      Sound u M' := by
  cases op with
  | enter key newt =>
    obtain ⟨u, ret, M', hu, hentered, hsound⟩ := h.enterKeyed newt hop.1 hop.2
    exact ⟨u, .status ret, M', congrArg (Option.map _) hu, hentered, hsound⟩
  | enterKeyed key newt keyp =>
    obtain ⟨u, ret, M', hu, hentered, hsound⟩ := h.enterKeyed newt hop.1 hop.2
    exact ⟨u, .status ret, M', congrArg (Option.map _) hu, hentered, hsound⟩
  | enterBucket pp =>
    obtain ⟨u, ret, M', hu, hentered, hsound⟩ := h.enterBucket hop.1 hop.2
    exact ⟨u, .status ret, M', congrArg (Option.map _) hu, hentered, hsound⟩
  | lookup keyP =>
    exact ⟨o, _, M, congrArg (Option.map _) (h.lookupKeyed_eq _ _), ⟨rfl, rfl⟩, h⟩
  | lookupKeyed key keyP =>
    exact ⟨o, _, M, congrArg (Option.map _) (h.lookupKeyed_eq _ _), ⟨rfl, rfl⟩, h⟩
  | remove keyP =>
    obtain ⟨u, x, M', hu, hremoved, hsound⟩ := h.removeKeyed (translateKey keyP) keyP
    exact ⟨u, .data x, M', congrArg (Option.map _) hu, hremoved, hsound⟩
  | removeKeyed key keyP =>
    obtain ⟨u, x, M', hu, hremoved, hsound⟩ := h.removeKeyed key keyP
    exact ⟨u, .data x, M', congrArg (Option.map _) hu, hremoved, hsound⟩
  | removeBucket keyP =>
    obtain ⟨u, x, M', hu, hremoved, hsound⟩ := h.removeBucketKeyed (translateKey keyP) keyP
    exact ⟨u, .bucket x, M', congrArg (Option.map _) hu, hremoved, hsound⟩
  | removeBucketKeyed key keyP =>
    obtain ⟨u, x, M', hu, hremoved, hsound⟩ := h.removeBucketKeyed key keyP
    exact ⟨u, .bucket x, M', congrArg (Option.map _) hu, hremoved, hsound⟩
  | getNext =>
    obtain ⟨u, x, M', hu, hpulled, hsound⟩ := h.getNext
    exact ⟨u, .data x, M', congrArg (Option.map _) hu, hpulled, hsound⟩
  | getNextBucket =>
    obtain ⟨u, x, M', hu, hpulled, hsound⟩ := h.getNextBucket
    exact ⟨u, .bucket x, M', congrArg (Option.map _) hu, hpulled, hsound⟩
  | rewind =>
    exact ⟨o.rewind, .void, M, rfl, rfl, h.congr_table rfl le_rfl rfl rfl rfl ⟨rfl, rfl⟩ rfl⟩

theorem create_sound {suggest : ℕ} (hsuggest : 0 < suggest) (calloc : ℕ → Bool) :
    Sound (create suggest calloc : HashedTbl δ) [] where
  size := by
    refine lt_of_lt_of_le ?_ (le_getOptSize _)
    rw [Nat.shiftLeft_eq]
    omega
  keys := List.Pairwise.nil
  nonneg := fun _ hx => absurd hx List.not_mem_nil
  used := rfl
  fresh := fun _ _ => rfl
  strays := rfl
  strayCount := rfl
  resetNeeded := rfl
  chain := fun _ _ => ⟨[], rfl, List.nodup_nil, List.Perm.refl _⟩

/-- In a run of regular operations the table is the map of what was entered and not removed. -/
theorem sessionRun_represents {suggest : ℕ} (hsuggest : 0 < suggest) (calloc : ℕ → Bool)
    (ops : List (Op δ))
    (hops : Trace.Along sessionStep (fun s op => op.Regular s.tbl) ⟨create suggest calloc, []⟩ ops) :
    ∃ s, sessionRun ⟨create suggest calloc, []⟩ ops = some s ∧
      ∃ M, MapRun s.log M ∧ Represents s.tbl M := by
  have hinit : ∃ M, MapRun ([] : List (Exchange δ)) M ∧ Sound (create suggest calloc) M :=
    ⟨[], rfl, create_sound hsuggest calloc⟩
  have hstep : ∀ (s : Session δ) (op : Op δ), (∃ M, MapRun s.log M ∧ Sound s.tbl M) →
      op.Regular s.tbl → ∃ s', sessionStep s op = some s' ∧ ∃ M, MapRun s'.log M ∧ Sound s'.tbl M := by
    rintro s op ⟨M, hlog, hsound⟩ hop
    obtain ⟨u, answer, M', hu, hmap, hsound'⟩ := hsound.step hop
    exact ⟨_, congrArg (Option.map _) hu, M', ⟨M, hlog, hmap⟩, hsound'⟩
  obtain ⟨s, hrun, M, hlog, hsound⟩ := Trace.run_progress _ hstep hinit hops
  exact ⟨s, hrun, M, hlog, hsound.represents⟩

/-- Four keys in two buckets. One is entered again, in vain, and removed; the others are walked. -/
theorem enteredRun_represents :
    ∃ s, sessionRun ⟨create 4 fun _ => true, []⟩
        [.enter [65] 1, .enter [76] 2, .enter [66] 3, .enter [77] 4, .enter [65] 5, .lookup [76],
          .remove [65], .lookup [65], .removeBucket [80], .getNext, .getNextBucket, .rewind, .getNext] = some s ∧
      ∃ M : List (Stored ℕ), MapRun s.log M ∧ Represents s.tbl M := by
  apply sessionRun_represents (by decide)
  decide +kernel

/-- Two entries in a table for one: it grows, and the first entry goes to the stray list. -/
theorem grownRun_not_represents :
    ¬∃ s, sessionRun ⟨create 1 fun _ => true, []⟩ [.enter [65] 1, .enter [66] 2] = some s ∧
      ∃ M : List (Stored ℕ), MapRun s.log M ∧ Represents s.tbl M := by
  rintro ⟨s, hrun, M, -, hrep⟩
  have hstrays : (sessionRun (⟨create 1 fun _ => true, []⟩ : Session ℕ)
      [.enter [65] 1, .enter [66] 2]).map (fun s => s.tbl.strays) = some (some 0) := by
    decide +kernel
  rw [hrun, Option.map_some, hrep.strays] at hstrays
  cases hstrays

end Sctp.HashedTbl
