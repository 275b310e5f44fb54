import Sctp.Lib.Linked
import Mathlib.Data.BitVec
import Mathlib.Data.Nat.Sqrt
import Mathlib.Tactic

/-! The hash table of rserpool, `HashedTbl.c`. Entries live in a heap; a table of bucket heads and the
stray list lead into it. -/
namespace Sctp.HashedTbl

/-- The bytes of a key, which stay as they are while it is stored. -/
abbrev Bytes := List (BitVec 8)

/-- `LIB_STATUS_GOOD` and the failures. -/
inductive Status where
  | good
  | bad
  | bad1
  | bad2
deriving DecidableEq, Repr

def Status.code : Status → ℤ
  | .good => 0
  | .bad => -1
  | .bad1 => -2
  | .bad2 => -3

/-- Variables of `HashedTbl_translateKey`. The two integers wrap around. -/
structure Hashing where
  calcKey : BitVec 64
  multipler : BitVec 32
  runSum : BitVec 32
  zit : ℕ
deriving DecidableEq, Repr

/-- One turn of the loop, at the byte `c` with index `i`; `char` is signed. -/
def Hashing.step (h : Hashing) (c : BitVec 8) (i : ℕ) : Hashing :=
  let c := c.signExtend 32
  let runSum := if 0 < i then h.runSum + c * BitVec.ofNat 32 i else h.runSum + c
  let multipler := h.multipler * 128
  { calcKey := h.calcKey + (c * h.multipler).signExtend 64
    multipler :=
      if (h.zit + 1) % 4 = 0 ∨ multipler = 0 then BitVec.ofNat 32 i + runSum else multipler
    runSum := runSum
    zit := h.zit + 1 }

def Hashing.loop : Bytes → Hashing → Hashing
  | [], h => h
  | c :: cs, h => loop cs (h.step c cs.length)

/-- `HashedTbl_translateKey` -/
def translateKey (key : Bytes) : ℤ :=
  let h := Hashing.loop key.reverse ⟨0, 1, 0, 0⟩
  ((h.calcKey + h.runSum.signExtend 64).setWidth 32).abs.toInt

/-- `HashedTbl_isPrime` -/
def isPrime (n : ℕ) : Bool :=
  (List.range (Nat.sqrt n + 1)).all fun divisor => divisor < 2 || n % divisor != 0

def MAXPRIME : ℕ := 1565807

/-- `__HashedTbl_getOptSize` -/
def getOptSize (suggest : ℕ) : ℕ :=
  ((List.range' suggest (MAXPRIME - suggest)).find? isPrime).getD suggest

/-- `struct HashTblEnt` with `keySize` in its key. -/
structure HashTblEnt (δ : Type*) where
  key : ℤ
  keyP : Bytes
  data : δ
  postion : ℤ
  next : Option ℕ
deriving DecidableEq, Repr

namespace HashTblEnt

variable {δ : Type*}

def setNext (next : Option ℕ) (e : HashTblEnt δ) : HashTblEnt δ := { e with next := next }

def matches' (key : ℤ) (keyP : Bytes) (e : HashTblEnt δ) : Bool := e.key == key && e.keyP == keyP

end HashTblEnt

end Sctp.HashedTbl

namespace Sctp

open HashedTbl

/-- `struct HashedTbl`. The heap and the two fields behind it are no fields of the source: the address
of the next entry, and which allocations go through, with the number of those made. -/
structure HashedTbl (δ : Type*) where
  heap : ℕ → Option (HashTblEnt δ)
  fresh : ℕ
  calloc : ℕ → Bool
  callocs : ℕ
  /-- Heads of the buckets. -/
  hTbl : ℕ → Option ℕ
  currentSize : ℕ
  currentUsed : ℤ
  circularAt : ℕ
  strayCount : ℤ
  strays : Option ℕ
  resetNeeded : Option ℕ

namespace HashedTbl

variable {δ : Type*}

/-- `HashedTbl_create`, when memory allows. -/
def create (suggest : ℕ) (calloc : ℕ → Bool) : HashedTbl δ where
  heap := fun _ => none
  fresh := 0
  calloc := calloc
  callocs := 0
  hTbl := fun _ => none
  currentSize := getOptSize (suggest <<< 1)
  currentUsed := 0
  circularAt := 0
  strayCount := 0
  strays := none
  resetNeeded := none

/-- `HashedTbl_rewind` -/
def rewind (o : HashedTbl δ) : HashedTbl δ := { o with circularAt := 0, resetNeeded := none }

/-- The bucket of a key. A negative one is refused. -/
def where' (o : HashedTbl δ) (key : ℤ) : Option ℕ :=
  if key.tmod o.currentSize < 0 then none else some (key.tmod o.currentSize).toNat

/-- The entry of a bucket with a given key, and its predecessor. -/
def search (o : HashedTbl δ) (key : ℤ) (keyP : Bytes) (w : ℕ) :
    Option (Option (Option ℕ × ℕ × HashTblEnt δ)) :=
  Linked.seek o.heap HashTblEnt.next (HashTblEnt.matches' key keyP) (o.fresh + 1) none (o.hTbl w)

/-- `HashedTbl_lookupKeyed`, with the key that was stored. -/
def lookupKeyed (o : HashedTbl δ) (key : ℤ) (keyP : Bytes) : Option (Option (δ × Bytes)) :=
  if o.currentUsed = 0 then some none
  else match o.where' key with
    | none => some none
    | some w => (o.search key keyP w).map fun found => found.map fun x => (x.2.2.data, x.2.2.keyP)

/-- `HashedTbl_lookup` -/
def lookup (o : HashedTbl δ) (keyP : Bytes) : Option (Option (δ × Bytes)) :=
  o.lookupKeyed (translateKey keyP) keyP

def plop (o : HashedTbl δ) (a w : ℕ) (e : HashTblEnt δ) : HashedTbl δ :=
  { o with
    heap := Function.update o.heap a (some (e.setNext (o.hTbl w)))
    hTbl := Function.update o.hTbl w (some a)
    currentUsed := o.currentUsed + 1 }

/-- `HashedTbl_enterBucket` for the entry at an address. -/
def enterBucketAt (reSize : HashedTbl δ → Option (HashedTbl δ)) (o : HashedTbl δ) (a : ℕ) :
    Option (HashedTbl δ × Status) :=
  (o.heap a).bind fun pp =>
    if pp.key < 0 then some (o, .bad1)
    else (o.lookupKeyed pp.key pp.keyP).bind fun found =>
      if found.isSome then some (o, .bad)
      else
        (if ((o.currentSize / 2 : ℕ) : ℤ) ≤ o.currentUsed + 1 then reSize o else some o).bind fun o =>
          match o.where' pp.key with
          | none => some (o, .bad2)
          | some w => some (o.plop a w pp, .good)

/-- One entry is moved to the new table. It goes to the stray list as well unless the status is
positive. -/
def moveEntry (reSize : HashedTbl δ → Option (HashedTbl δ)) (o : HashedTbl δ) (a : ℕ)
    (pp : HashTblEnt δ) : Option (HashedTbl δ) :=
  let o := { o with heap := Function.update o.heap a (some { pp with next := none, postion := 0 }) }
  (enterBucketAt reSize o a).bind fun (o, ret) =>
    if ret.code < 1 then
      (o.heap a).map fun pp =>
        { o with
          heap := Function.update o.heap a (some (pp.setNext o.strays))
          strays := some a
          strayCount := o.strayCount + 1 }
    else some o

def moveChain (reSize : HashedTbl δ → Option (HashedTbl δ)) :
    ℕ → HashedTbl δ → Option ℕ → Option (HashedTbl δ)
  | 0, _, _ => none
  | _ + 1, o, none => some o
  | n + 1, o, some a =>
    (o.heap a).bind fun pp =>
      (moveEntry reSize o a pp).bind fun o => moveChain reSize n o pp.next

/-- `__HashedTbl_reSize`, with a bound on how often it calls itself through
`HashedTbl_enterBucket`. -/
def reSizeAt : ℕ → HashedTbl δ → Option (HashedTbl δ)
  | 0, _ => none
  | depth + 1, o =>
    let size := getOptSize (o.currentSize + o.currentSize >>> 1)
    let o' := { o with currentUsed := 0, callocs := o.callocs + 1 }
    if o.calloc o.callocs then
      (List.range o.currentSize).foldlM
        (fun o' i => moveChain (reSizeAt depth) (o.fresh + 1) o' (o.hTbl i))
        { o' with currentSize := size, hTbl := fun _ => none }
    else some o'

/-- `__HashedTbl_reSize`. Every call of itself has a larger table, soon too large for another one. -/
def reSize (o : HashedTbl δ) : Option (HashedTbl δ) := reSizeAt (2 * o.fresh + 4) o

/-- `HashedTbl_enterBucket` for a bucket of the caller. -/
def enterBucket (o : HashedTbl δ) (pp : HashTblEnt δ) : Option (HashedTbl δ × Status) :=
  let o' := { o with heap := Function.update o.heap o.fresh (some pp), fresh := o.fresh + 1 }
  (enterBucketAt reSize o' o.fresh).map fun (u, ret) =>
    if ret = .good then (u, ret)
    else ({ u with heap := Function.update u.heap o.fresh none }, ret)

/-- The end of `HashedTbl_enterKeyed`: a new entry comes to its bucket. -/
def enterNew (o : HashedTbl δ) (key : ℤ) (newt : δ) (keyp : Bytes) : HashedTbl δ × Status :=
  match o.where' key with
  | none => (o, .bad1)
  | some w =>
    let o' := { o with callocs := o.callocs + 1 }
    if o.calloc o.callocs then
      (plop { o' with fresh := o.fresh + 1 } o.fresh w ⟨key, keyp, newt, 0, none⟩, .good)
    else (o', .bad1)

/-- `HashedTbl_enterKeyed` -/
def enterKeyed (o : HashedTbl δ) (key : ℤ) (newt : δ) (keyp : Bytes) :
    Option (HashedTbl δ × Status) :=
  if key < 0 then some (o, .bad1)
  else (o.lookupKeyed key keyp).bind fun found =>
    if found.isSome then some (o, .bad)
    else
      (if ((o.currentSize - o.currentSize >>> 2 : ℕ) : ℤ) ≤ o.currentUsed + 1 then reSize o
        else some o).map fun o => o.enterNew key newt keyp

/-- `HashedTbl_enter` -/
def enter (o : HashedTbl δ) (key : Bytes) (newt : δ) : Option (HashedTbl δ × Status) :=
  o.enterKeyed (translateKey key) newt key

/-- An entry leaves its bucket; the cursor moves on when it was there. -/
def takeOut (o : HashedTbl δ) (w : ℕ) (prev : Option ℕ) (a : ℕ) (pp : HashTblEnt δ) : HashedTbl δ :=
  let heap := Linked.relink o.heap HashTblEnt.setNext prev pp.next
  let atCursor := o.resetNeeded == some a
  let heap := match pp.next with
    | some b =>
      if atCursor then Function.update heap b ((heap b).map fun e => { e with postion := pp.postion })
      else heap
    | none => heap
  { o with
    heap := Function.update heap a none
    hTbl := match prev with
      | none => Function.update o.hTbl w pp.next
      | some _ => o.hTbl
    resetNeeded := if atCursor then pp.next else o.resetNeeded
    currentUsed := o.currentUsed - 1 }

/-- The search that `HashedTbl_removeKeyed` and `HashedTbl_removeBucketKeyed` share. The entry is freed
or belongs to the caller afterwards. -/
def removeAt (o : HashedTbl δ) (key : ℤ) (keyP : Bytes) :
    Option (HashedTbl δ × Option (HashTblEnt δ)) :=
  match o.where' key with
  | none => some (o, none)
  | some w => (o.search key keyP w).map fun found =>
    match found with
    | none => (o, none)
    | some (prev, a, pp) => (o.takeOut w prev a pp, some pp)

/-- `HashedTbl_removeKeyed` -/
def removeKeyed (o : HashedTbl δ) (key : ℤ) (keyP : Bytes) :
    Option (HashedTbl δ × Option (δ × Bytes)) :=
  if key < 0 then some (o, none)
  else (o.removeAt key keyP).map fun (o, found) => (o, found.map fun pp => (pp.data, pp.keyP))

/-- `HashedTbl_remove` -/
def remove (o : HashedTbl δ) (keyP : Bytes) : Option (HashedTbl δ × Option (δ × Bytes)) :=
  o.removeKeyed (translateKey keyP) keyP

/-- `HashedTbl_removeBucketKeyed` -/
def removeBucketKeyed (o : HashedTbl δ) (key : ℤ) (keyP : Bytes) :
    Option (HashedTbl δ × Option (HashTblEnt δ)) :=
  (o.removeAt key keyP).map fun (o, found) => (o, found.map (HashTblEnt.setNext none))

/-- `HashedTbl_removeBucket` -/
def removeBucket (o : HashedTbl δ) (keyP : Bytes) : Option (HashedTbl δ × Option (HashTblEnt δ)) :=
  o.removeBucketKeyed (translateKey keyP) keyP

/-- The first bucket from `circularAt` on that is not empty. -/
def nextBucket (o : HashedTbl δ) : Option ℕ :=
  (List.range' o.circularAt (o.currentSize - o.circularAt)).find? fun i => (o.hTbl i).isSome

def pull (o : HashedTbl δ) (i a : ℕ) (pp : HashTblEnt δ) : HashedTbl δ :=
  { o with
    heap := Function.update o.heap a none
    hTbl := Function.update o.hTbl i pp.next
    circularAt := if pp.next.isNone then i + 1 else i
    currentUsed := o.currentUsed - 1 }

/-- `HashedTbl_getNextBucket` -/
def getNextBucket (o : HashedTbl δ) : Option (HashedTbl δ × Option (HashTblEnt δ)) :=
  if o.currentUsed = 0 then some (o, none)
  else match o.nextBucket with
    | none => some (o, none)
    | some i =>
      (o.hTbl i).bind fun a => (o.heap a).map fun pp => (o.pull i a pp, some pp)

/-- `HashedTbl_getNext` -/
def getNext (o : HashedTbl δ) : Option (HashedTbl δ × Option (δ × Bytes)) :=
  if o.currentUsed = 0 then
    if o.strayCount = 0 then some (o, none)
    else
      o.strays.bind fun a => (o.heap a).map fun pp =>
        ({ o with
            heap := Function.update o.heap a none
            strays := pp.next
            strayCount := o.strayCount - 1 }, some (pp.data, pp.keyP))
  else o.getNextBucket.map fun (o, found) => (o, found.map fun pp => (pp.data, pp.keyP))

end HashedTbl

end Sctp
