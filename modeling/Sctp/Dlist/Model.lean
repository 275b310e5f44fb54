import Sctp.Lib.Dll
import Sctp.Lib.Trace
import Sctp.HashedTbl.Model

/-! The doubly linked lists of rserpool, `dlist.c`. -/
namespace Sctp

/-- `struct dlist_dlink` -/
structure DlistDlink (α ε : Type*) where
  prev : Option α
  next : Option α
  ent : ε
deriving DecidableEq, Repr

/-- `dlist_t`. The links lie in a memory, which is no field of the source. -/
structure Dlist (α ε : Type*) where
  mem : α → Option (DlistDlink α ε)
  head : Option α
  tail : Option α
  curr : Option α
  wrapFlag : Bool
  cntIn : ℤ

namespace Dlist

open HashedTbl (Status)

variable {α ε : Type*}

def links : Dll.Links α (DlistDlink α ε) ε where
  prev := DlistDlink.prev
  next := DlistDlink.next
  content := DlistDlink.ent
  setPrev p n := { n with prev := p }
  setNext q n := { n with next := q }
  prev_setPrev _ _ := rfl
  next_setPrev _ _ := rfl
  content_setPrev _ _ := rfl
  prev_setNext _ _ := rfl
  next_setNext _ _ := rfl
  content_setNext _ _ := rfl

/-- `dlist_create` -/
def create : Dlist α ε := ⟨fun _ => none, none, none, none, false, 0⟩

/-- `dlist_reset` -/
def reset (o : Dlist α ε) : Dlist α ε := { o with curr := o.head, wrapFlag := false }

/-- `dlist_getToTheEnd` -/
def getToTheEnd (o : Dlist α ε) : Dlist α ε := { o with wrapFlag := false, curr := o.tail }

/-- `dlist_get` -/
def get (o : Dlist α ε) : Option (Dlist α ε × Option ε) :=
  if o.cntIn = 0 ∧ o.head ≠ none then some (o, none)
  else
    match o.head with
    | none => some (o, none)
    | some h =>
      if o.curr = none ∧ o.wrapFlag = true then some (o, none)
      else
        (o.mem (o.curr.getD h)).map fun n =>
          ({ o with curr := n.next, wrapFlag := o.wrapFlag || n.next.isNone }, some n.ent)

/-- `dlist_backUpOne` -/
def backUpOne (o : Dlist α ε) : Option (Dlist α ε × Status) :=
  match o.head with
  | none => some (o, .bad)
  | some h =>
    match o.curr with
    | none => some ({ o with curr := some h, wrapFlag := false }, .good)
    | some c => (o.mem c).map fun n => ({ o with curr := n.prev.or (some h), wrapFlag := false }, .good)

variable [DecidableEq α]

/-- The checks that lead to `abort`. -/
def sane (o : Dlist α ε) : Option (Dlist α ε) :=
  if (o.cntIn ≤ 0 ∧ o.head ≠ none) ∨ (o.cntIn = 1 ∧ o.head ≠ o.tail) then none else some o

def setMem (o : Dlist α ε) (a : α) (n : Option (DlistDlink α ε)) : Dlist α ε :=
  { o with mem := Function.update o.mem a n }

/-- The head `tmp` leaves the list. What becomes of the flag when none is left differs. -/
def advanceHead (o : Dlist α ε) (tmp : α) (next : Option α) (wrapFlag : Bool) : Option (Dlist α ε) :=
  match next with
  | some h =>
    (Dll.writePrev links o.mem (some h) none).map fun mem =>
      { o with
        mem := mem
        head := some h
        curr := if o.curr = some tmp then some h else o.curr
        cntIn := o.cntIn - 1 }
  | none =>
    some { o with head := none, tail := none, curr := none, wrapFlag := wrapFlag, cntIn := o.cntIn - 1 }

/-- `dlist_getNext` -/
def getNext (o : Dlist α ε) : Option (Dlist α ε × Option ε) :=
  match o.head with
  | none => some ({ o with wrapFlag := false }, none)
  | some tmp =>
    (o.mem tmp).bind fun n => (o.advanceHead tmp n.next o.wrapFlag).bind fun o => o.sane.map fun o =>
      (o.setMem tmp none, some n.ent)

/-- `dlist_getNextSlist` -/
def getNextSlist (o : Dlist α ε) : Option (Dlist α ε × Option α) :=
  match o.head with
  | none => some ({ o with wrapFlag := false }, none)
  | some tmp =>
    (o.mem tmp).bind fun n => (o.advanceHead tmp n.next false).bind fun o => o.sane.map fun o =>
      (o.setMem tmp (some ⟨none, none, n.ent⟩), some tmp)

/-- The node before the cursor, where it is not the head and therefore taken out by the functions for that. -/
def pick (o : Dlist α ε) : Option (Option α) :=
  match o.curr with
  | none => if o.wrapFlag then o.tail.map some else some none
  | some c => (o.mem c).map fun n => if n.prev = o.head then none else n.prev

/-- `getOut` leaves the list. -/
def detach (o : Dlist α ε) (getOut : α) : Option (Dlist α ε × DlistDlink α ε) :=
  (o.mem getOut).bind fun n => (Dll.unlink links o.mem getOut).bind fun mem =>
    (sane { o with
      mem := mem
      tail := if o.tail = some getOut then n.prev else o.tail
      head := if o.head = some getOut then n.next else o.head
      cntIn := o.cntIn - 1 }).map fun o => (o, n)

/-- `dlist_getThis` -/
def getThis (o : Dlist α ε) : Option (Dlist α ε × Option ε) :=
  if o.head = none then some (o, none)
  else
    o.pick.bind fun getOut =>
      match getOut with
      | none => o.getNext
      | some getOut => (o.detach getOut).map fun (o, n) => (o.setMem getOut none, some n.ent)

/-- `dlist_getThisSlist` -/
def getThisSlist (o : Dlist α ε) : Option (Dlist α ε × Option α) :=
  if o.head = none then some (o, none)
  else
    o.pick.bind fun getOut =>
      match getOut with
      | none => o.getNextSlist
      | some getOut =>
        (o.detach getOut).map fun (o, n) => (o.setMem getOut (some ⟨none, none, n.ent⟩), some getOut)

def shown (o : Dlist α ε) (h : α) : Option α :=
  if o.wrapFlag then o.tail
  else
    match o.curr with
    | none => some h
    | some c => (o.mem c).map fun n => n.prev.getD h

/-- `dlist_replaceThis` -/
def replaceThis (o : Dlist α ε) (entry : ε) : Option (Dlist α ε × Option ε) :=
  match o.head with
  | none => some (o, none)
  | some h => (o.shown h).bind fun a => (o.mem a).map fun n =>
      (o.setMem a (some { n with ent := entry }), some n.ent)

def only (o : Dlist α ε) (temp : α) (entry : ε) : Dlist α ε :=
  { o.setMem temp (some ⟨none, none, entry⟩) with head := some temp, tail := some temp, cntIn := o.cntIn + 1 }

/-- `dlist_insert` -/
def insert (o : Dlist α ε) (temp : Option α) (entry : ε) : Option (Dlist α ε × Status) :=
  match temp, o.head with
  | none, _ => some (o, .bad)
  | some temp, none => some (o.only temp entry, .good)
  | some temp, some h =>
    (o.mem h).bind fun n =>
      (Dll.writePrev links (o.setMem temp (some ⟨n.prev, some h, entry⟩)).mem (some h) (some temp)).map
        fun mem => ({ o with mem := mem, head := some temp, cntIn := o.cntIn + 1 }, .good)

/-- `dlist_append` -/
def append (o : Dlist α ε) (temp : Option α) (entry : ε) : Option (Dlist α ε × Status) :=
  match temp, o.tail.or o.head with
  | none, _ => some (o, .bad)
  | some temp, none => some (o.only temp entry, .good)
  | some temp, some t =>
    (o.mem t).bind fun n =>
      (Dll.writeNext links (o.setMem temp (some ⟨some t, n.next, entry⟩)).mem (some t) (some temp)).map
        fun mem => ({ o with mem := mem, tail := some temp, cntIn := o.cntIn + 1 }, .good)

/-- A tail that was lost is looked for. Nothing is left when the walk does not end after `cntIn` nodes. -/
def recoverTail (o : Dlist α ε) : Option (Dlist α ε) :=
  if o.tail = none ∧ o.head ≠ none then
    ((Linked.seek o.mem DlistDlink.next (fun n => n.next.isNone) (o.cntIn.toNat + 1) none o.head).bind id).map
      fun (_, t, _) => { o with tail := some t }
  else some o

/-- `entry` becomes the tail behind `t`, which `at'` leads to it. -/
def linkBehind (o : Dlist α ε) (entry t at' : α) : Option (Dlist α ε) :=
  (Dll.writePrev links o.mem (some entry) (some t)).bind fun mem =>
    (Dll.writeNext links mem (some at') (some entry)).map fun mem =>
      { o with mem := mem, tail := some entry, cntIn := o.cntIn + 1 }

/-- `dlist_appenddlink` -/
def appenddlink (o : Dlist α ε) (entry : α) : Option (Dlist α ε × Status) :=
  (o.mem entry).bind fun e =>
    let o := o.setMem entry (some ⟨none, none, e.ent⟩)
    match o.tail, o.head with
    | some t, _ => (o.linkBehind entry t t).map fun o => (o, .good)
    | none, none => some ({ o with head := some entry, tail := some entry, cntIn := o.cntIn + 1 }, .good)
    | none, some h =>
      o.recoverTail.bind fun o => o.tail.bind fun t => (o.mem t).bind fun n =>
        (o.linkBehind entry t (if n.prev = none then h else t)).map fun o => (o, .good)

/-- A new node goes in front of `at'`, whose links are `n`, without an eye to the head. -/
def putBefore (o : Dlist α ε) (temp at' : α) (n : DlistDlink α ε) (entry : ε) : Option (Dlist α ε) :=
  (Dll.guardNext links (o.setMem temp (some ⟨n.prev, some at', entry⟩)).mem n.prev (some temp)).bind fun mem =>
    (Dll.writePrev links mem (some at') (some temp)).map fun mem => { o with mem := mem, cntIn := o.cntIn + 1 }

/-- The node in front of which `dlist_insertHere` puts one, if that is not the head. -/
def spot (o : Dlist α ε) : Option (Option α) :=
  if o.wrapFlag then o.tail.bind fun t => (o.mem t).map fun n => n.prev.map fun _ => t
  else
    match o.curr with
    | none => some none
    | some c =>
      if o.curr = o.head then some none
      else (o.mem c).map fun n => if n.prev = o.head then none else n.prev

/-- `dlist_insertHere` -/
def insertHere (o : Dlist α ε) (temp : Option α) (entry : ε) : Option (Dlist α ε × Status) :=
  if o.head = none then o.insert temp entry
  else
    o.recoverTail.bind fun o => o.spot.bind fun at' =>
      match at', temp with
      | none, _ => o.insert temp entry
      | some _, none => some (o, .bad)
      | some at', some temp =>
        (o.mem at').bind fun n => (o.putBefore temp at' n entry).map fun o => (o, .good)

/-- `dlist_appendHere` -/
def appendHere (o : Dlist α ε) (temp : Option α) (entry : ε) : Option (Dlist α ε × Status) :=
  match o.head with
  | none => o.append temp entry
  | some h =>
    if o.wrapFlag then o.append temp entry
    else
      match temp, o.curr with
      | none, _ => some (o, .bad)
      | some temp, none =>
        (o.mem h).bind fun n =>
          (Dll.writeNext links (o.setMem temp (some ⟨some h, n.next, entry⟩)).mem (some h) (some temp)).bind
            fun mem => (Dll.guardPrev links mem n.next (some temp)).map fun mem =>
              ({ o with
                mem := mem
                tail := if n.next = none then some temp else o.tail
                cntIn := o.cntIn + 1 }, .good)
      | some temp, some c =>
        (o.mem c).bind fun n => (o.putBefore temp c n entry).map fun o => (o, .good)

inductive Op (α ε : Type*) where
  | insert (temp : Option α) (entry : ε)
  | append (temp : Option α) (entry : ε)
  | appenddlink (entry : α)
  | insertHere (temp : Option α) (entry : ε)
  | appendHere (temp : Option α) (entry : ε)
  | get
  | getThis
  | getThisSlist
  | getNext
  | getNextSlist
  | replaceThis (entry : ε)
  | backUpOne
  | getToTheEnd
  | reset
  /-- Memory beside the list is written, made or freed. -/
  | other (a : α) (n : Option (DlistDlink α ε))

/-- The state behind an operation; none behind an `abort` or a bad pointer. -/
def step (o : Dlist α ε) : Op α ε → Option (Dlist α ε)
  | .insert temp entry => (o.insert temp entry).map Prod.fst
  | .append temp entry => (o.append temp entry).map Prod.fst
  | .appenddlink entry => (o.appenddlink entry).map Prod.fst
  | .insertHere temp entry => (o.insertHere temp entry).map Prod.fst
  | .appendHere temp entry => (o.appendHere temp entry).map Prod.fst
  | .get => o.get.map Prod.fst
  | .getThis => o.getThis.map Prod.fst
  | .getThisSlist => o.getThisSlist.map Prod.fst
  | .getNext => o.getNext.map Prod.fst
  | .getNextSlist => o.getNextSlist.map Prod.fst
  | .replaceThis entry => (o.replaceThis entry).map Prod.fst
  | .backUpOne => o.backUpOne.map Prod.fst
  | .getToTheEnd => some o.getToTheEnd
  | .reset => some o.reset
  | .other a n => some (o.setMem a n)

def run : Dlist α ε → List (Op α ε) → Option (Dlist α ε) := Trace.run step

/-- The nodes that follow from the head, `cntIn` of them at most and one more. -/
def nodes (o : Dlist α ε) : List α := Linked.nodes o.mem DlistDlink.next (o.cntIn.toNat + 1) o.head

def entries (o : Dlist α ε) (as : List α) : List ε := Linked.contents o.mem DlistDlink.ent as

/-- What as many calls of `dlist_get` return. -/
def gets : ℕ → Dlist α ε → Option (List (Option ε))
  | 0, _ => some []
  | n + 1, o => o.get.bind fun (o, e) => (gets n o).map (e :: ·)

end Dlist

end Sctp
