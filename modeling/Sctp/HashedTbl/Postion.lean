import Sctp.HashedTbl.Map

/-! Searching through the hash table, and the markers by which a search can be taken up again. -/
namespace Sctp.HashedTbl

variable {δ : Type*}

/-- The handle in a `postion`, its low half. -/
def handleOf (postion : ℤ) : ℕ := (BitVec.ofInt 32 postion).toNat % 65536

/-- The number of markers in a `postion`, its high half. -/
def countOf (postion : ℤ) : ℕ := (BitVec.ofInt 32 postion).toNat / 65536

/-- `(int)((x << 16) | whichOne)` -/
def markOf (x whichOne : ℕ) : ℤ := (BitVec.ofNat 32 (x * 65536 + whichOne)).toInt

/-- `struct HashTableHandle`. The bucket is one below `circularAt`, which is not 0 in the middle of a bucket. -/
structure HashTableHandle where
  bucket : ℕ
  whichOne : ℕ
  capacityAtTime : ℕ
deriving DecidableEq, Repr

/-- `struct HashedTbl` with the last handle given out. -/
structure MarkedTbl (δ : Type*) extends HashedTbl δ where
  lastHandle : ℕ

/-- `HashedTbl_getHandle` -/
def getHandle (lastHandle : ℕ) : ℕ := if 0x0000ffff < lastHandle + 1 then 1 else lastHandle + 1

/-- `HashedTbl_searchNext` -/
def searchNext (o : HashedTbl δ) : Option (HashedTbl δ × Option (δ × Bytes)) :=
  if o.currentUsed = 0 then some (o, none)
  else
    match o.resetNeeded with
    | some a => (o.heap a).map fun pp => ({ o with resetNeeded := pp.next }, some (pp.data, pp.keyP))
    | none =>
      match o.nextBucket with
      | none => some (o, none)
      | some i => (o.hTbl i).bind fun a => (o.heap a).map fun pp =>
          ({ o with resetNeeded := pp.next, circularAt := i + 1 }, some (pp.data, pp.keyP))

namespace MarkedTbl

def handleFor (o : MarkedTbl δ) (pp : HashTblEnt δ) : ℕ :=
  if pp.postion = 0 then getHandle o.lastHandle else handleOf pp.postion

/-- An entry is marked once more. The count is a `u_short`. -/
def addMark (o : MarkedTbl δ) (a : ℕ) (pp : HashTblEnt δ) : MarkedTbl δ :=
  { o with
    heap := Function.update o.heap a (some { pp with
      postion :=
        if pp.postion = 0 then markOf 1 (getHandle o.lastHandle)
        else markOf ((countOf pp.postion + 1) % 65536) (handleOf pp.postion) })
    lastHandle := if pp.postion = 0 then getHandle o.lastHandle else o.lastHandle }

def spot (o : MarkedTbl δ) : Option (ℕ × ℕ) :=
  match o.resetNeeded with
  | some a => some (o.circularAt - 1, a)
  | none => o.nextBucket.bind fun i => (o.hTbl i).map fun a => (i, a)

/-- `HashedTbl_savePostion` for a marker in which some `whichOne` stands. -/
def savePostion (o : MarkedTbl δ) (whichOne : ℕ) : Option (MarkedTbl δ × HashTableHandle × Status) :=
  match o.spot with
  | some (i, a) => (o.heap a).map fun pp => (o.addMark a pp, ⟨i, o.handleFor pp, o.currentSize⟩, .good)
  | none => some (o, ⟨o.currentSize - 1, whichOne, o.currentSize⟩, .bad)

def dropMark (o : MarkedTbl δ) (a : ℕ) (pp : HashTblEnt δ) : MarkedTbl δ :=
  let x := (countOf pp.postion + 65535) % 65536
  { o with
    heap := Function.update o.heap a (some { pp with
      postion := if x = 0 then 0 else markOf x (handleOf pp.postion) }) }

/-- `HashedTbl_returnToPostion` -/
def returnToPostion (o : MarkedTbl δ) (marker : HashTableHandle) : Option (MarkedTbl δ × Status) :=
  if marker.capacityAtTime ≠ o.currentSize then some (o, .bad)
  else if marker.whichOne = 0 then some ({ o with circularAt := o.currentSize }, .good)
  else
    (Linked.seek o.heap HashTblEnt.next (fun pp => handleOf pp.postion == marker.whichOne) (o.fresh + 1) none
        (o.hTbl marker.bucket)).map fun found =>
      match found with
      | none => ({ o with circularAt := marker.bucket + 1, resetNeeded := none }, .good)
      | some (_, a, pp) =>
        ({ o.dropMark a pp with circularAt := marker.bucket + 1, resetNeeded := some a }, .good)

end MarkedTbl

inductive SearchOp where
  | searchNext
  | removeKeyed (key : ℤ) (keyP : Bytes)
  | removeBucketKeyed (key : ℤ) (keyP : Bytes)
  /-- With what stands in the marker before. -/
  | savePostion (whichOne : ℕ)
  /-- With the number of the marker among those held, the latest first. -/
  | returnToPostion (n : ℕ)
  | rewind
deriving DecidableEq, Repr

/-- A table, the markers held and what has happened, the latest first. A marker is used up when the search has
returned to it. -/
structure Search (δ : Type*) where
  tbl : MarkedTbl δ
  held : List HashTableHandle
  log : List (SearchOp × Answer δ)

namespace Search

def noted (s : Search δ) (op : SearchOp) (answer : Answer δ) : Search δ := { s with log := (op, answer) :: s.log }

def step (s : Search δ) (op : SearchOp) : Option (Search δ) :=
  match op with
  | .searchNext => (searchNext s.tbl.toHashedTbl).map fun (o, x) =>
      { s with tbl := { s.tbl with toHashedTbl := o } }.noted op (.data x)
  | .removeKeyed key keyP => (s.tbl.removeKeyed key keyP).map fun (o, x) =>
      { s with tbl := { s.tbl with toHashedTbl := o } }.noted op (.data x)
  | .removeBucketKeyed key keyP => (s.tbl.removeBucketKeyed key keyP).map fun (o, x) =>
      { s with tbl := { s.tbl with toHashedTbl := o } }.noted op (.bucket x)
  | .savePostion whichOne => (s.tbl.savePostion whichOne).map fun (o, marker, ret) =>
      { s with tbl := o, held := marker :: s.held }.noted op (.status ret)
  | .returnToPostion n => s.held[n]?.bind fun marker => (s.tbl.returnToPostion marker).map fun (o, ret) =>
      { s with tbl := o, held := s.held.eraseIdx n }.noted op (.status ret)
  | .rewind => some ({ s with tbl := { s.tbl with toHashedTbl := s.tbl.rewind } }.noted op .void)

def run : Search δ → List SearchOp → Option (Search δ) := Trace.run step

def start (o : HashedTbl δ) (lastHandle : ℕ) : Search δ := ⟨⟨o.rewind, lastHandle⟩, [], []⟩

end Search

/-- The entries that are there, those of them and of the removed ones that were returned, and for each marker held
what had been returned when it was saved. -/
structure Visit (δ : Type*) where
  present : List (Stored δ)
  seen : List (Stored δ)
  saved : List (List (Stored δ))

def VisitStep (v : Visit δ) : SearchOp → Answer δ → Visit δ → Prop
  | .searchNext, .data none, v' => (∀ x ∈ v.present, x ∈ v.seen) ∧ v' = v
  | .searchNext, .data (some d), v' =>
    ∃ x ∈ v.present, x ∉ v.seen ∧ d = (x.data, x.keyP) ∧ v' = { v with seen := x :: v.seen }
  | .removeKeyed key keyP, .data d, v' =>
    ∃ M, Removed v.present key keyP d M ∧ v' = { v with present := M }
  | .removeBucketKeyed key keyP, .bucket d, v' =>
    ∃ M, Removed v.present key keyP (d.map fun pp => (pp.data, pp.keyP)) M ∧ v' = { v with present := M }
  | .savePostion _, .status ret, v' =>
    (ret = .good ↔ ∃ x ∈ v.present, x ∉ v.seen) ∧ v' = { v with saved := v.seen :: v.saved }
  | .returnToPostion n, .status ret, v' =>
    ret = .good ∧ ∃ seen, v.saved[n]? = some seen ∧ v' = { v with seen := seen, saved := v.saved.eraseIdx n }
  | .rewind, .void, v' => v' = { v with seen := [] }
  | _, _, _ => False

def VisitRun (M : List (Stored δ)) : List (SearchOp × Answer δ) → Visit δ → Prop
  | [], v => v = ⟨M, [], []⟩
  | x :: log, v' => ∃ v, VisitRun M log v ∧ VisitStep v x.1 x.2 v'

/-- A run goes through and does what it should. -/
def Visited (o : HashedTbl δ) (lastHandle : ℕ) (M : List (Stored δ)) (ops : List SearchOp) : Prop :=
  ∃ s, (Search.start o lastHandle).run ops = some s ∧ ∃ v, VisitRun M s.log v

def chainOf (o : HashedTbl δ) (i : ℕ) : List ℕ := Linked.nodes o.heap HashTblEnt.next (o.fresh + 1) (o.hTbl i)

def handleAt (o : HashedTbl δ) (a : ℕ) : ℕ := ((o.heap a).map fun pp => handleOf pp.postion).getD 0

def HashTableHandle.marks (marker : HashTableHandle) (i handle : ℕ) : Bool :=
  marker.bucket == i && marker.whichOne == handle && marker.whichOne != 0

/-- A removal throws the mark of a marker away: that of the entry, which is handed to the next one only where the
search stands, or there that of the next one. -/
def MarkedTbl.loses (o : MarkedTbl δ) (held : List HashTableHandle) (key : ℤ) (keyP : Bytes) : Bool :=
  match o.where' key with
  | none => false
  | some w =>
    match o.search key keyP w with
    | some (some (_, a, pp)) =>
      match pp.next with
      | none => false
      | some b => held.any fun m => m.marks w (handleAt o.toHashedTbl (if o.resetNeeded = some a then b else a))
    | _ => false

/-- A handle that a marker gets is that of no other entry of the bucket and of no other marker for it, and the
count does not wrap. At the end of the table, what stands in the marker is 0 or no handle in the last bucket. -/
def MarkedTbl.MarksWell (o : MarkedTbl δ) (held : List HashTableHandle) (whichOne : ℕ) : Prop :=
  match o.spot with
  | none => whichOne ≠ 0 → ∀ b ∈ chainOf o.toHashedTbl (o.currentSize - 1), handleAt o.toHashedTbl b ≠ whichOne
  | some (i, a) =>
    ∀ pp ∈ o.heap a, (∀ b ∈ chainOf o.toHashedTbl i, b ≠ a → handleAt o.toHashedTbl b ≠ o.handleFor pp) ∧
      if pp.postion = 0 then ∀ m ∈ held, m.marks i (o.handleFor pp) = false
      else handleOf pp.postion ≠ 0 ∧ countOf pp.postion ≠ 65535

/-- The search does not stand in the middle of a bucket when it returns to a marker of the end. -/
def MarkedTbl.ReturnsWell (o : MarkedTbl δ) (held : List HashTableHandle) (n : ℕ) : Prop :=
  n < held.length ∧ ∀ m ∈ held[n]?, m.whichOne = 0 → o.resetNeeded = none

/-- No mark is thrown away or mixed up. -/
def Search.Safe (s : Search δ) : SearchOp → Prop
  | .removeKeyed key keyP => 0 ≤ key → s.tbl.loses s.held key keyP = false
  | .removeBucketKeyed key keyP => s.tbl.loses s.held key keyP = false
  | .savePostion whichOne => s.tbl.MarksWell s.held whichOne
  | .returnToPostion n => s.tbl.ReturnsWell s.held n
  | _ => True

instance (o : MarkedTbl δ) (held : List HashTableHandle) (whichOne : ℕ) :
    Decidable (o.MarksWell held whichOne) :=
  match hspot : o.spot with
  | none =>
    have hend : (whichOne = 0 ∨ ∀ b ∈ chainOf o.toHashedTbl (o.currentSize - 1),
        handleAt o.toHashedTbl b ≠ whichOne) ↔ o.MarksWell held whichOne := by
      unfold MarkedTbl.MarksWell
      rw [hspot]
      exact or_iff_not_imp_left
    decidable_of_iff _ hend
  | some (i, a) =>
    match ha : o.heap a with
    | none => isTrue (by
        unfold MarkedTbl.MarksWell
        rw [hspot]
        exact fun pp hpp => nomatch ha.symm.trans hpp)
    | some pp =>
      have hentry : ((∀ b ∈ chainOf o.toHashedTbl i, b ≠ a → handleAt o.toHashedTbl b ≠ o.handleFor pp) ∧
          if pp.postion = 0 then ∀ m ∈ held, m.marks i (o.handleFor pp) = false
          else handleOf pp.postion ≠ 0 ∧ countOf pp.postion ≠ 65535) ↔ o.MarksWell held whichOne := by
        unfold MarkedTbl.MarksWell
        rw [hspot]
        simp only [ha, Option.mem_def, Option.some.injEq, forall_eq']
      decidable_of_iff _ hentry

instance (o : MarkedTbl δ) (held : List HashTableHandle) (n : ℕ) : Decidable (o.ReturnsWell held n) :=
  match hm : held[n]? with
  | none => isFalse fun h => absurd h.1 (not_lt.2 (List.getElem?_eq_none_iff.1 hm))
  | some m =>
    have hmarker : (n < held.length ∧ (m.whichOne = 0 → o.resetNeeded = none)) ↔ o.ReturnsWell held n := by
      unfold MarkedTbl.ReturnsWell
      simp only [hm, Option.mem_def, Option.some.injEq, forall_eq']
    decidable_of_iff _ hmarker

instance (s : Search δ) (op : SearchOp) : Decidable (s.Safe op) :=
  match op with
  | .searchNext => isTrue trivial
  | .removeKeyed key keyP => inferInstanceAs (Decidable (0 ≤ key → s.tbl.loses s.held key keyP = false))
  | .removeBucketKeyed key keyP => inferInstanceAs (Decidable (s.tbl.loses s.held key keyP = false))
  | .savePostion whichOne => inferInstanceAs (Decidable (s.tbl.MarksWell s.held whichOne))
  | .returnToPostion n => inferInstanceAs (Decidable (s.tbl.ReturnsWell s.held n))
  | .rewind => isTrue trivial

end Sctp.HashedTbl
