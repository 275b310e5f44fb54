import Sctp.Distributor.Lists
import Sctp.HashedTbl.Map

/-! The file descriptors of the distributor: `dist_addFd`, `dist_deleteFd` and `dist_changeFd`. -/
namespace Sctp.Distributor

open HashedTbl (Status Stored)

/-- `struct pollfd` -/
structure Pollfd where
  fd : BitVec 32
  events : BitVec 16
  revents : BitVec 16
deriving DecidableEq, Repr

def noFd : BitVec 32 := -1

def Pollfd.free : Pollfd := ⟨noFd, 0, 0⟩

def DEFAULT_POLL_LIST_SZ : ℕ := 10

structure FdEntry (φ κ : Type) where
  onTheList : ℤ
  fdItServices : BitVec 32
  fdNotify : φ
  arg : κ

def fdKey (fd : BitVec 32) : HashedTbl.Bytes :=
  [fd.extractLsb' 0 8, fd.extractLsb' 8 8, fd.extractLsb' 16 8, fd.extractLsb' 24 8]

/-- What the file descriptors are about of a `distributor`; `numfds` is the length of `fdlist`. -/
structure Fds (α τ φ κ : Type) where
  fdSubscribers : HashedTbl τ
  fdSubscribersList : Dlist α τ
  entry : τ → Option (FdEntry φ κ)
  fdlist : List Pollfd
  numused : ℤ

namespace Fds

variable {α τ φ κ : Type}

/-- What `createDistributor` makes of them. Which allocations of the table go through is given. -/
def create (calloc : ℕ → Bool) : Fds α τ φ κ where
  fdSubscribers := .create 11 calloc
  fdSubscribersList := .create
  entry := fun _ => none
  fdlist := List.replicate DEFAULT_POLL_LIST_SZ .free
  numused := 0

/-- The array is doubled when the next file descriptor leaves no slot to spare and memory allows. -/
def grow (s : Fds α τ φ κ) (tp : Bool) : Option (Fds α τ φ κ) :=
  if s.fdlist.length ≤ s.numused + 1 then
    if tp then some { s with fdlist := s.fdlist ++ List.replicate s.fdlist.length .free } else none
  else some s

/-- The slot that is found for a new file descriptor. Nothing comes of a negative index. -/
def slot (s : Fds α τ φ κ) : Option (Option ℕ) :=
  if s.numused < 0 then none
  else
    let n := s.numused.toNat
    some ((((s.fdlist.drop n).findIdx? fun p => p.fd = noFd).map (n + ·)).or
      ((s.fdlist.take n).findIdx? fun p => p.fd = noFd))

def occupy (s : Fds α τ φ κ) (i : ℕ) (fd mask : BitVec 32) : Fds α τ φ κ :=
  { s with
    fdlist := s.fdlist.modify i fun p => { p with fd := fd, events := mask.setWidth 16 }
    numused := s.numused + 1 }

/-- The slot of a file descriptor becomes free, and the last slot in use moves into it. Nothing comes of an index out
of the array. -/
def vacate (s : Fds α τ φ κ) (removed : ℕ) : Option (Fds α τ φ κ) :=
  let fdlist := s.fdlist.set removed .free
  let numused := s.numused - 1
  if removed = numused then some { s with fdlist := fdlist, numused := numused }
  else if numused < 0 then none
  else fdlist[numused.toNat]?.map fun last =>
    { s with fdlist := (fdlist.set removed last).set numused.toNat .free, numused := numused }

/-- `dist_changeFd` -/
def changeFd (s : Fds α τ φ κ) (fd newmask : BitVec 32) : Fds α τ φ κ :=
  match s.fdlist.findIdx? fun p => p.fd = fd with
  | none => s
  | some i => { s with fdlist := s.fdlist.modify i fun p => { p with events := newmask.setWidth 16 } }

variable [DecidableEq α] [DecidableEq τ]

def set (s : Fds α τ φ κ) (fe : τ) (e : Option (FdEntry φ κ)) : Fds α τ φ κ :=
  { s with entry := Function.update s.entry fe e }

/-- `HashedTbl_removeKeyed` of a file descriptor. -/
def unhash (s : Fds α τ φ κ) (fd : BitVec 32) : Option (Fds α τ φ κ) :=
  (s.fdSubscribers.removeKeyed fd.toInt (fdKey fd)).map fun (h, _) => { s with fdSubscribers := h }

/-- A file descriptor that was not put on the list is taken out of the table again. -/
def backOut (s : Fds α τ φ κ) (fe : τ) (fd : BitVec 32) (ret : Status) : Option (Fds α τ φ κ × Status) :=
  (s.unhash fd).map fun s => (s.set fe none, ret)

/-- One that got no slot is taken off the list as well. -/
def backOutLast (s : Fds α τ φ κ) (fe : τ) (fd : BitVec 32) (ret : Status) : Option (Fds α τ φ κ × Status) :=
  (s.unhash fd).bind fun s => s.fdSubscribersList.pullLast.map fun o =>
    (Fds.set { s with fdSubscribersList := o } fe none, ret)

/-- The part of `dist_addFd` about the array. -/
def addToArray (s : Fds α τ φ κ) (fe : τ) (tp : Bool) (fd mask : BitVec 32) : Option (Fds α τ φ κ × Status) :=
  match s.grow tp with
  | none => s.backOutLast fe fd .bad1
  | some s => s.slot.bind fun i =>
    match i with
    | some i => some (s.occupy i fd mask, .good)
    | none => s.backOutLast fe fd .bad

/-- The part of `dist_addFd` about the list, and the array. -/
def addToList (s : Fds α τ φ κ) (fe : τ) (temp : Option α) (tp : Bool) (fd mask : BitVec 32) :
    Option (Fds α τ φ κ × Status) :=
  (s.fdSubscribersList.append temp fe).bind fun (o, ret) =>
    let s := { s with fdSubscribersList := o }
    if ret ≠ .good then s.backOut fe fd ret else s.addToArray fe tp fd mask

/-- `dist_addFd`. `fe` and `temp` are what `calloc` returns for the entry and for its link, `tp` says whether it
returns memory for a larger array. -/
def addFd (s : Fds α τ φ κ) (fe : Option τ) (temp : Option α) (tp : Bool) (fd : BitVec 32) (fdNotify : φ)
    (mask : BitVec 32) (arg : κ) : Option (Fds α τ φ κ × Status) :=
  match fe with
  | none => some (s, .bad)
  | some fe =>
    let s := s.set fe (some ⟨0, fd, fdNotify, arg⟩)
    (s.fdSubscribers.enterKeyed fd.toInt fe (fdKey fd)).bind fun (h, ret) =>
      let s := { s with fdSubscribers := h }
      if ret ≠ .good then some (s.set fe none, ret) else s.addToList fe temp tp fd mask

/-- `dist_deleteFd`. What the loop over the list ends with is freed. -/
def deleteFd (s : Fds α τ φ κ) (fd : BitVec 32) : Option (Fds α τ φ κ × Status) :=
  (s.unhash fd).bind fun s =>
    (s.fdSubscribersList.reset.sweep (fun fe => (s.entry fe).map fun e => e.fdItServices = fd)
      (s.fdSubscribersList.cntIn.toNat + 1)).bind fun (o, fe) =>
        let s := { s with fdSubscribersList := o }
        let s := match fe with
          | none => s
          | some fe => s.set fe none
        match s.fdlist.findIdx? fun p => p.fd = fd with
        | none => some (s, .good)
        | some removed => (s.vacate removed).map fun s => (s, .good)

end Fds

inductive FdOp (α τ φ κ : Type) where
  | addFd (fe : Option τ) (temp : Option α) (tp : Bool) (fd : BitVec 32) (fdNotify : φ) (mask : BitVec 32) (arg : κ)
  | deleteFd (fd : BitVec 32)
  | changeFd (fd newmask : BitVec 32)

namespace Fds

variable {α τ φ κ : Type} [DecidableEq α] [DecidableEq τ]

def call (s : Fds α τ φ κ) : FdOp α τ φ κ → Option (Fds α τ φ κ × Status)
  | .addFd fe temp tp fd fdNotify mask arg => s.addFd fe temp tp fd fdNotify mask arg
  | .deleteFd fd => s.deleteFd fd
  | .changeFd fd newmask => some (s.changeFd fd newmask, .good)

def step (s : Fds α τ φ κ) (op : FdOp α τ φ κ) : Option (Fds α τ φ κ) := (s.call op).map Prod.fst

/-- What is passed to `poll`. -/
def registered (s : Fds α τ φ κ) : List (BitVec 32) := (s.fdlist.take s.numused.toNat).map Pollfd.fd

/-- What is on `fdSubscribersList`. -/
def listed (s : Fds α τ φ κ) : List τ := s.fdSubscribersList.entries s.fdSubscribersList.nodes

/-- The file descriptors on the list, with their entries. -/
def services (s : Fds α τ φ κ) : List (BitVec 32 × τ) :=
  s.listed.filterMap fun fe => (s.entry fe).map fun e => (e.fdItServices, fe)

/-- The three views are those of the same file descriptors, each once. -/
structure Agree (s : Fds α τ φ κ) : Prop where
  nodup : s.registered.Nodup
  list : (s.services.map Prod.fst).Perm s.registered
  live : ∀ fe ∈ s.listed, s.entry fe ≠ none
  hash : ∃ M, HashedTbl.Represents s.fdSubscribers M ∧
    (M.map fun x => (x.key, x.data)).Perm (s.services.map fun x => (x.1.toInt, x.2))
  numused : 0 ≤ s.numused ∧ s.numused < s.fdlist.length
  free : ∀ p ∈ s.fdlist.drop s.numused.toNat, p.fd = noFd

/-- Nothing has changed but the sizes and the cursor. -/
structure Same (s s' : Fds α τ φ κ) : Prop where
  hash : ∀ key keyP, s'.fdSubscribers.lookupKeyed key keyP = s.fdSubscribers.lookupKeyed key keyP
  listed : s'.listed = s.listed
  entry : s'.entry = s.entry
  fdlist : s'.fdlist = s.fdlist
  numused : s'.numused = s.numused

def Effect (s : Fds α τ φ κ) (op : FdOp α τ φ κ) (ret : Status) (s' : Fds α τ φ κ) : Prop :=
  match op with
  | .addFd _ _ _ fd _ _ _ => if ret = .good then s'.registered = s.registered ++ [fd] else s.Same s'
  | .deleteFd fd => s'.registered.Perm (s.registered.erase fd) ∧ (fd ∉ s.registered → s.Same s')
  | .changeFd .. => s'.registered = s.registered

def Released (s : Fds α τ φ κ) : Prop := ∀ fe, s.entry fe ≠ none → fe ∈ s.listed

/-- Memory that `calloc` returns is not in use. -/
def Allowed (s : Fds α τ φ κ) : FdOp α τ φ κ → Prop
  | .addFd fe temp _ _ _ _ _ => (∀ x ∈ fe, s.entry x = none) ∧ ∀ x ∈ temp, s.fdSubscribersList.mem x = none
  | .deleteFd _ | .changeFd .. => True

/-- The free mark is not deleted, and the table does not grow with entries in it. -/
def Meets (s : Fds α τ φ κ) : FdOp α τ φ κ → Prop
  | .addFd _ _ _ fd _ _ _ => fd.toInt < 0 ∨
      s.fdSubscribers.Room (s.fdSubscribers.currentSize - s.fdSubscribers.currentSize >>> 2) fd.toInt (fdKey fd)
  | .deleteFd fd => fd ≠ noFd
  | .changeFd .. => True

/-- No file descriptor that is registered is deleted. -/
def Keeps (s : Fds α τ φ κ) : FdOp α τ φ κ → Prop
  | .deleteFd fd => fd ∉ s.registered
  | .addFd .. | .changeFd .. => True

instance (s : Fds α τ φ κ) (op : FdOp α τ φ κ) : Decidable (s.Allowed op) := by
  cases op <;> unfold Allowed <;> infer_instance

instance (s : Fds α τ φ κ) (op : FdOp α τ φ κ) : Decidable (s.Meets op) := by
  cases op <;> unfold Meets <;> infer_instance

instance (s : Fds α τ φ κ) (op : FdOp α τ φ κ) : Decidable (s.Keeps op) := by
  cases op <;> unfold Keeps <;> infer_instance

end Fds

namespace Fds

variable {α τ φ κ : Type} {s s' : Fds α τ φ κ} {R R' : List (BitVec 32 × τ)} {fd : BitVec 32} {as : List α}

def stored (x : BitVec 32 × τ) : Stored τ := ⟨x.1.toInt, fdKey x.1, x.2⟩

/-- The table, the list and the array are those of the same entries. -/
structure Sound (s : Fds α τ φ κ) (R : List (BitVec 32 × τ)) : Prop where
  hash : HashedTbl.Sound s.fdSubscribers (R.map stored)
  holds : ∃ as, Dlist.Holds s.fdSubscribersList as
  listed : s.listed = R.map Prod.snd
  entry : ∀ x ∈ R, ∃ e, s.entry x.2 = some e ∧ e.fdItServices = x.1
  nonneg : ∀ x ∈ R, 0 ≤ x.1.toInt
  poll : ∃ U F, s.fdlist = U ++ F ∧ s.numused = U.length ∧ F ≠ [] ∧ (∀ p ∈ F, p.fd = noFd) ∧
    (U.map Pollfd.fd).Perm (R.map Prod.fst) ∧ (U.map Pollfd.fd).Nodup

theorem matches_stored {x : BitVec 32 × τ} : (stored x).matches' fd.toInt (fdKey fd) = true ↔ x.1 = fd := by
  rw [HashedTbl.matches_iff]
  constructor
  · rintro ⟨hkey, -⟩
    exact BitVec.toInt_inj.1 hkey
  · rintro rfl
    exact ⟨rfl, rfl⟩

theorem listed_eq (h : Dlist.Holds s.fdSubscribersList as) : s.listed = s.fdSubscribersList.entries as := by
  rw [listed, h.nodes_eq]

theorem Sound.services_eq (h : s.Sound R) : s.services = R := by
  have hentry := h.entry
  rw [services, h.listed]
  clear h
  induction R with
  | nil => rfl
  | cons x R ih =>
    rw [List.forall_mem_cons] at hentry
    obtain ⟨⟨e, he, hfd⟩, hentry⟩ := hentry
    rw [List.map_cons, List.filterMap_cons, he, ih hentry]
    change (e.fdItServices, x.2) :: R = x :: R
    rw [hfd]

theorem Sound.registered_eq (h : s.Sound R) : ∃ U F, s.fdlist = U ++ F ∧ s.registered = U.map Pollfd.fd ∧
    s.numused = U.length ∧ F ≠ [] ∧ (∀ p ∈ F, p.fd = noFd) := by
  obtain ⟨U, F, hfdlist, hnumused, hne, hfree, -, -⟩ := h.poll
  refine ⟨U, F, hfdlist, ?_, hnumused, hne, hfree⟩
  rw [registered, hfdlist, hnumused, Int.toNat_natCast, List.take_left']
  rfl

theorem Sound.registered_perm (h : s.Sound R) : s.registered.Perm (R.map Prod.fst) ∧ s.registered.Nodup := by
  obtain ⟨U, F, hfdlist, hnumused, -, -, hperm, hnodup⟩ := h.poll
  have heq : s.registered = U.map Pollfd.fd := by
    rw [registered, hfdlist, hnumused, Int.toNat_natCast, List.take_left']
    rfl
  rw [heq]
  exact ⟨hperm, hnodup⟩

theorem Sound.mem_registered (h : s.Sound R) : fd ∈ s.registered ↔ fd ∈ R.map Prod.fst :=
  h.registered_perm.1.mem_iff

theorem Sound.fd_nodup (h : s.Sound R) : (R.map Prod.fst).Nodup := h.registered_perm.1.nodup_iff.1 h.registered_perm.2

theorem Sound.agree (h : s.Sound R) : s.Agree where
  nodup := h.registered_perm.2
  list := by
    rw [h.services_eq]
    exact h.registered_perm.1.symm
  live fe hfe := by
    rw [h.listed, List.mem_map] at hfe
    obtain ⟨x, hx, rfl⟩ := hfe
    obtain ⟨e, he, -⟩ := h.entry x hx
    rw [he]
    exact Option.some_ne_none e
  hash := by
    refine ⟨R.map stored, h.hash.represents, ?_⟩
    rw [h.services_eq, List.map_map]
    exact List.Perm.refl _
  numused := by
    obtain ⟨U, F, hfdlist, -, hnumused, hne, -⟩ := h.registered_eq
    have hlen := List.length_pos_of_ne_nil hne
    rw [hfdlist, hnumused, List.length_append]
    omega
  free := by
    obtain ⟨U, F, hfdlist, -, hnumused, -, hfree⟩ := h.registered_eq
    rw [hfdlist, hnumused, Int.toNat_natCast, List.drop_left']
    · exact hfree
    · rfl

/-- A state that differs only in sizes and the cursor. -/
theorem Sound.unchanged (h : s.Sound R) (hhash : HashedTbl.Sound s'.fdSubscribers (R.map stored))
    (hholds : Dlist.Holds s'.fdSubscribersList as) (hlisted : s'.fdSubscribersList.entries as = s.listed)
    (hentry : s'.entry = s.entry) (hfdlist : s'.fdlist = s.fdlist) (hnumused : s'.numused = s.numused) :
    s'.Sound R ∧ s.Same s' := by
  have hl : s'.listed = s.listed := (listed_eq hholds).trans hlisted
  refine ⟨⟨hhash, ⟨as, hholds⟩, hl.trans h.listed, ?_, h.nonneg, ?_⟩, ⟨?_, hl, hentry, hfdlist, hnumused⟩⟩
  · rw [hentry]
    exact h.entry
  · rw [hfdlist, hnumused]
    exact h.poll
  · intro key keyP
    rw [hhash.lookupKeyed_eq, h.hash.lookupKeyed_eq]

theorem Same.registered (h : s.Same s') : s'.registered = s.registered := by
  rw [Fds.registered, Fds.registered, h.fdlist, h.numused]

theorem Same.released (h : s.Same s') : s'.Released ↔ s.Released := by
  rw [Fds.Released, Fds.Released, h.entry, h.listed]

theorem set_length_append {β : Type} (U F : List β) (p q : β) : (U ++ p :: F).set U.length q = U ++ q :: F := by
  rw [List.set_append_right _ _ le_rfl, Nat.sub_self]
  rfl

theorem slot_eq {U F : List Pollfd} {p : Pollfd} (hfdlist : s.fdlist = U ++ p :: F) (hp : p.fd = noFd)
    (hnumused : s.numused = U.length) : s.slot = some (some U.length) := by
  have hneg : ¬ s.numused < 0 := by
    rw [hnumused]
    omega
  rw [slot, if_neg hneg, hfdlist, hnumused, Int.toNat_natCast]
  dsimp only
  rw [List.drop_left' rfl, List.findIdx?_cons, if_pos (decide_eq_true hp)]
  rfl

/-- The array after a file descriptor has left it. -/
theorem vacate_eq {U₁ U₂ F : List Pollfd} {p : Pollfd} (hfdlist : s.fdlist = U₁ ++ p :: (U₂ ++ F))
    (hnumused : s.numused = (U₁ ++ p :: U₂).length) :
    ∃ U, s.vacate U₁.length = some { s with fdlist := U ++ .free :: F, numused := U.length } ∧ U.Perm (U₁ ++ U₂) := by
  have hlast : s.numused - 1 = (U₁.length + U₂.length : ℕ) := by
    rw [hnumused, List.length_append, List.length_cons]
    omega
  rw [vacate, hlast, hfdlist, set_length_append]
  rcases List.eq_nil_or_concat U₂ with rfl | ⟨U₃, q, rfl⟩
  · refine ⟨U₁, ?_, by rw [List.append_nil]⟩
    rw [if_pos (by simp)]
    rfl
  · refine ⟨U₁ ++ q :: U₃, ?_, ?_⟩
    · have hne : ¬ ((U₁.length : ℤ) = ((U₁.length + (U₃.concat q).length : ℕ) : ℤ)) := by
        rw [List.length_concat]
        omega
      have hneg : ¬ (((U₁.length + (U₃.concat q).length : ℕ) : ℤ) < 0) := by omega
      have hcut : ∀ x, U₁ ++ x :: (U₃.concat q ++ F) = (U₁ ++ x :: U₃) ++ q :: F := by
        intro x
        simp
      have hlen : ∀ x, U₁.length + (U₃.concat q).length = (U₁ ++ x :: U₃).length := by
        intro x
        rw [List.length_append, List.length_cons, List.length_concat]
      have hget : (U₁ ++ Pollfd.free :: (U₃.concat q ++ F))[U₁.length + (U₃.concat q).length]? = some q := by
        rw [hcut, hlen .free, List.getElem?_append_right le_rfl, Nat.sub_self]
        rfl
      rw [if_neg hne, if_neg hneg, Int.toNat_natCast, hget, Option.map_some, set_length_append, hcut, hlen q,
        set_length_append]
    · rw [List.concat_eq_append, ← List.append_assoc]
      exact List.perm_middle.trans (List.perm_append_singleton q (U₁ ++ U₃)).symm

variable [DecidableEq α] [DecidableEq τ]

section Add

variable {t : Fds α τ φ κ} {fe : τ} {a : α} {ret : Status} {mask : BitVec 32} {tp : Bool}

/-- A file descriptor is on its way into `s`: it has an entry and is in the table. -/
structure Adding (s t : Fds α τ φ κ) (R : List (BitVec 32 × τ)) (fd : BitVec 32) (fe : τ) : Prop where
  sound : s.Sound R
  free : s.entry fe = none
  entry : ∃ e, e.fdItServices = fd ∧ t.entry = Function.update s.entry fe (some e)
  hash : HashedTbl.Sound t.fdSubscribers (((fd, fe) :: R).map stored)
  nonneg : 0 ≤ fd.toInt
  fresh : fd ∉ R.map Prod.fst
  fdlist : t.fdlist = s.fdlist
  numused : t.numused = s.numused

def Failed (s : Fds α τ φ κ) (R : List (BitVec 32 × τ)) (result : Option (Fds α τ φ κ × Status)) : Prop :=
  ∃ s' ret, result = some (s', ret) ∧ ret ≠ .good ∧ s'.Sound R ∧ s.Same s'

def Succeeded (s : Fds α τ φ κ) (R : List (BitVec 32 × τ)) (fd : BitVec 32) (fe : τ)
    (result : Option (Fds α τ φ κ × Status)) : Prop :=
  ∃ s', result = some (s', .good) ∧ s'.Sound (R ++ [(fd, fe)]) ∧ s'.registered = s.registered ++ [fd] ∧
    (s'.Released ↔ s.Released)

omit [DecidableEq α] [DecidableEq τ] in
theorem unhash_spec {x : BitVec 32 × τ} (h : HashedTbl.Sound t.fdSubscribers ((x :: R).map stored)) :
    ∃ u, t.unhash x.1 = some { t with fdSubscribers := u } ∧ HashedTbl.Sound u (R.map stored) := by
  obtain ⟨u, y, M', hremove, hremoved, hsound⟩ := h.removeKeyed x.1.toInt (fdKey x.1)
  refine ⟨u, ?_, ?_⟩
  · rw [unhash, hremove]
    rfl
  · rw [hremoved.2, List.map_cons, List.eraseP_cons_of_pos (matches_stored.2 rfl)] at hsound
    exact hsound

omit [DecidableEq α] in
theorem Adding.freed (h : Adding s t R fd fe) : Function.update t.entry fe none = s.entry := by
  obtain ⟨e, -, hentry⟩ := h.entry
  rw [hentry, Function.update_idem, ← h.free, Function.update_eq_self]

omit [DecidableEq α] in
theorem Adding.backOut (h : Adding s t R fd fe) (hholds : Dlist.Holds t.fdSubscribersList as)
    (hentries : t.fdSubscribersList.entries as = s.listed) (hret : ret ≠ .good) :
    Failed s R (t.backOut fe fd ret) := by
  obtain ⟨u, hunhash, hu⟩ := unhash_spec h.hash
  refine ⟨Fds.set { t with fdSubscribers := u } fe none, ret, ?_, hret, ?_⟩
  · rw [Fds.backOut, hunhash]
    rfl
  · exact h.sound.unchanged hu hholds hentries h.freed h.fdlist h.numused

theorem Adding.backOutLast (h : Adding s t R fd fe) (hholds : Dlist.Holds t.fdSubscribersList (as ++ [a]))
    (hentries : t.fdSubscribersList.entries as = s.listed) (hret : ret ≠ .good) :
    Failed s R (t.backOutLast fe fd ret) := by
  obtain ⟨u, hunhash, hu⟩ := unhash_spec h.hash
  obtain ⟨o, hpull, ho, hkept⟩ := hholds.pullLast
  refine ⟨Fds.set { t with fdSubscribers := u, fdSubscribersList := o } fe none, ret, ?_, hret, ?_⟩
  · rw [Fds.backOutLast, hunhash, Option.bind_some]
    dsimp only
    rw [hpull]
    rfl
  · exact h.sound.unchanged hu ho (hkept.trans hentries) h.freed h.fdlist h.numused

theorem modify_length_append {β : Type} (U F : List β) (p : β) (f : β → β) :
    (U ++ p :: F).modify U.length f = U ++ f p :: F := by
  induction U with
  | nil => rfl
  | cons q U ih =>
    rw [List.cons_append, List.length_cons, List.modify_succ_cons, ih]
    rfl

omit [DecidableEq α] in
/-- The array has a slot to spare behind what is in use, after it has grown or not. -/
theorem Adding.grow (h : Adding s t R fd fe) (tp : Bool) :
    t.grow tp = none ∨ ∃ U p F, t.grow tp = some { t with fdlist := U ++ p :: F } ∧ p.fd = noFd ∧ F ≠ [] ∧
      (∀ q ∈ F, q.fd = noFd) ∧ s.registered = U.map Pollfd.fd ∧ s.numused = U.length := by
  obtain ⟨U, F, hU, hreg, hlen, hne, hfree⟩ := h.sound.registered_eq
  obtain ⟨p, F, rfl⟩ := List.exists_cons_of_ne_nil hne
  rw [List.forall_mem_cons] at hfree
  rw [Fds.grow, h.fdlist, h.numused]
  by_cases hfull : (s.fdlist.length : ℤ) ≤ s.numused + 1
  · rw [if_pos hfull]
    cases tp with
    | false => exact .inl rfl
    | true =>
      refine .inr ⟨U, p, F ++ List.replicate s.fdlist.length .free, ?_, hfree.1, ?_, ?_, hreg, hlen⟩
      · rw [if_pos rfl, hU, List.append_assoc]
        rfl
      · intro hnil
        rw [List.append_eq_nil_iff, List.replicate_eq_nil_iff, hU] at hnil
        simp at hnil
      · intro q hq
        rcases List.mem_append.1 hq with hq | hq
        · exact hfree.2 q hq
        · rw [List.eq_of_mem_replicate hq]
          rfl
  · rw [if_neg hfull]
    refine .inr ⟨U, p, F, ?_, hfree.1, ?_, hfree.2, hreg, hlen⟩
    · rw [← hU, ← h.fdlist, ← h.numused]
    · rintro rfl
      rw [hU, hlen, List.length_append] at hfull
      exact hfull (by push_cast; rfl)

theorem Adding.addToArray (h : Adding s t R fd fe) (hholds : Dlist.Holds t.fdSubscribersList (as ++ [a]))
    (hentries : t.fdSubscribersList.entries as = s.listed)
    (hall : t.fdSubscribersList.entries (as ++ [a]) = s.listed ++ [fe]) :
    Failed s R (t.addToArray fe tp fd mask) ∨ Succeeded s R fd fe (t.addToArray fe tp fd mask) := by
  rcases h.grow tp with hgrow | ⟨U, p, F, hgrow, hp, hne, hfree, hreg, hlen⟩
  · left
    rw [Fds.addToArray, hgrow]
    exact h.backOutLast hholds hentries (by decide)
  · right
    obtain ⟨e, hfd, hentry⟩ := h.entry
    generalize ht' : ({ t with fdlist := U ++ p :: F } : Fds α τ φ κ) = t' at hgrow
    have hnum : t'.numused = U.length := by
      rw [← ht', ← hlen]
      exact h.numused
    have hslot : t'.slot = some (some U.length) := slot_eq (by rw [← ht']) hp hnum
    generalize hs' : t'.occupy U.length fd mask = s'
    have hholds' : Dlist.Holds s'.fdSubscribersList (as ++ [a]) := by
      rw [← hs', ← ht']
      exact hholds
    have hlisted : s'.listed = s.listed ++ [fe] := by
      rw [listed_eq hholds', ← hall, ← hs', ← ht']
      rfl
    have hentry' : s'.entry = Function.update s.entry fe (some e) := by
      rw [← hentry, ← hs', ← ht']
      rfl
    have hfdlist : s'.fdlist = (U ++ [{ p with fd := fd, events := mask.setWidth 16 }]) ++ F := by
      rw [← hs', ← ht', List.append_assoc]
      exact modify_length_append U F p _
    have hnumused : s'.numused = ((U ++ [{ p with fd := fd, events := mask.setWidth 16 }]).length : ℕ) := by
      rw [← hs', List.length_append]
      change t'.numused + 1 = _
      rw [hnum]
      rfl
    have hother : ∀ x ∈ R, x.2 ≠ fe := by
      rintro x hx rfl
      obtain ⟨e', he', -⟩ := h.sound.entry x hx
      rw [h.free] at he'
      cases he'
    obtain ⟨hperm, hnodup⟩ := h.sound.registered_perm
    rw [hreg] at hperm hnodup
    refine ⟨s', ?_, ⟨?_, ⟨_, hholds'⟩, ?_, ?_, ?_, ?_⟩, ?_, ?_⟩
    · rw [Fds.addToArray, hgrow]
      dsimp only
      rw [hslot, Option.bind_some, ← hs']
    · have hhash : HashedTbl.Sound s'.fdSubscribers (((fd, fe) :: R).map stored) := by
        rw [← hs', ← ht']
        exact h.hash
      exact hhash.congr_map ((List.perm_append_singleton (fd, fe) R).symm.map stored)
    · rw [hlisted, h.sound.listed, List.map_append]
      rfl
    · intro x hx
      rw [hentry']
      rcases List.mem_append.1 hx with hx | hx
      · rw [Function.update_of_ne (hother x hx)]
        exact h.sound.entry x hx
      · rw [List.mem_singleton.1 hx]
        exact ⟨e, Function.update_self _ _ _, hfd⟩
    · intro x hx
      rcases List.mem_append.1 hx with hx | hx
      · exact h.sound.nonneg x hx
      · rw [List.mem_singleton.1 hx]
        exact h.nonneg
    · refine ⟨_, F, hfdlist, hnumused, hne, hfree, ?_, ?_⟩
      · rw [List.map_append, List.map_append]
        exact hperm.append (List.Perm.refl _)
      · rw [List.map_append, List.nodup_append]
        refine ⟨hnodup, List.nodup_singleton _, ?_⟩
        rintro x hx y hy rfl
        rw [List.map_singleton, List.mem_singleton] at hy
        have hxfd : x = fd := hy
        rw [hxfd] at hx
        exact h.fresh (hperm.mem_iff.1 hx)
    · rw [registered, hfdlist, hnumused, Int.toNat_natCast, List.take_left' rfl, hreg, List.map_append]
      rfl
    · constructor
      · intro hreleased x hx
        have hxfe : x ≠ fe := by
          rintro rfl
          exact hx h.free
        have hmem := hreleased x (by rw [hentry', Function.update_of_ne hxfe]; exact hx)
        rw [hlisted, List.mem_append] at hmem
        exact hmem.resolve_right fun hx => hxfe (List.mem_singleton.1 hx)
      · intro hreleased x hx
        rw [hlisted, List.mem_append, List.mem_singleton]
        by_cases hxfe : x = fe
        · exact .inr hxfe
        · rw [hentry', Function.update_of_ne hxfe] at hx
          exact .inl (hreleased x hx)

theorem Adding.addToList (h : Adding s t R fd fe) {temp : Option α} (hlist : t.fdSubscribersList = s.fdSubscribersList)
    (htemp : ∀ x ∈ temp, s.fdSubscribersList.mem x = none) :
    Failed s R (t.addToList fe temp tp fd mask) ∨ Succeeded s R fd fe (t.addToList fe temp tp fd mask) := by
  obtain ⟨as, hholds⟩ := h.sound.holds
  have hlisted := listed_eq hholds
  cases temp with
  | none =>
    left
    have hback : Failed s R (t.backOut fe fd .bad) :=
      h.backOut (by rw [hlist]; exact hholds) (by rw [hlist]; exact hlisted.symm) (by decide)
    rw [Fds.addToList, Dlist.append_none]
    exact hback
  | some a =>
    obtain ⟨o, happend, hput⟩ := hholds.append (htemp a rfl) fe
    have hkeeps : Dlist.Keeps s.fdSubscribersList o as := fun b hb => hput.keeps b (List.mem_append_left _ hb)
    obtain ⟨k, hk, hent⟩ := Option.map_eq_some_iff.1 hput.ent_eq
    have hadding : Adding s { t with fdSubscribersList := o } R fd fe :=
      ⟨h.sound, h.free, h.entry, h.hash, h.nonneg, h.fresh, h.fdlist, h.numused⟩
    have hentries : o.entries as = s.listed := by
      rw [hkeeps.entries_eq, hlisted]
    have hall : o.entries (as ++ [a]) = s.listed ++ [fe] := by
      rw [Dlist.entries_cut hk, hentries, hent]
      rfl
    have hresult : t.addToList fe (some a) tp fd mask = ({ t with fdSubscribersList := o }).addToArray fe tp fd mask := by
      rw [Fds.addToList, hlist, happend]
      rfl
    rw [hresult]
    exact hadding.addToArray hput.holds hentries hall

end Add

theorem Sound.addFd (h : s.Sound R) {fe : Option τ} {temp : Option α} {tp : Bool} {f : φ} {mask : BitVec 32} {arg : κ}
    (hallowed : s.Allowed (.addFd fe temp tp fd f mask arg)) (hmeets : s.Meets (.addFd fe temp tp fd f mask arg)) :
    Failed s R (s.addFd fe temp tp fd f mask arg) ∨
      ∃ x, Succeeded s R fd x (s.addFd fe temp tp fd f mask arg) := by
  obtain ⟨hfe, htemp⟩ := hallowed
  obtain ⟨as, hholds⟩ := h.holds
  have hlisted := (listed_eq hholds).symm
  cases fe with
  | none => exact .inl ⟨s, .bad, rfl, by decide, h.unchanged h.hash hholds hlisted rfl rfl rfl⟩
  | some fe =>
    have hnone : s.entry fe = none := hfe fe rfl
    have hfreed : ∀ e : Option (FdEntry φ κ), Function.update (Function.update s.entry fe e) fe none = s.entry := by
      intro e
      rw [Function.update_idem, ← hnone, Function.update_eq_self]
    have hrefused : ∀ u ret, s.fdSubscribers.enterKeyed fd.toInt fe (fdKey fd) = some (u, ret) → ret ≠ .good →
        HashedTbl.Sound u (R.map stored) → Failed s R (s.addFd (some fe) temp tp fd f mask arg) := by
      intro u ret henter hret hu
      refine ⟨Fds.set { s.set fe (some ⟨0, fd, f, arg⟩) with fdSubscribers := u } fe none, ret, ?_, hret, ?_⟩
      · have henter' : (s.set fe (some ⟨0, fd, f, arg⟩)).fdSubscribers.enterKeyed fd.toInt fe (fdKey fd) =
            some (u, ret) := henter
        rw [Fds.addFd]
        dsimp only
        rw [henter', Option.bind_some]
        dsimp only
        rw [if_pos hret]
      · exact h.unchanged hu hholds hlisted (hfreed _) rfl rfl
    by_cases hneg : fd.toInt < 0
    · exact .inl (hrefused _ _ (if_pos hneg) (by decide) h.hash)
    · obtain ⟨u, ret, M', henter, hentered, hu⟩ := h.hash.enterKeyed fe (not_lt.1 hneg) (hmeets.resolve_left hneg)
      rcases hentered with ⟨rfl, hnew, rfl⟩ | ⟨hret, -, rfl⟩
      · have hadding : Adding s { s.set fe (some ⟨0, fd, f, arg⟩) with fdSubscribers := u } R fd fe := by
          refine ⟨h, hnone, ⟨_, rfl, rfl⟩, hu, not_lt.1 hneg, ?_, rfl, rfl⟩
          rw [List.mem_map]
          rintro ⟨x, hx, hxfd⟩
          exact List.find?_eq_none.1 hnew (stored x) (List.mem_map_of_mem hx) (matches_stored.2 hxfd)
        have hresult : s.addFd (some fe) temp tp fd f mask arg =
            (Fds.addToList { s.set fe (some ⟨0, fd, f, arg⟩) with fdSubscribers := u } fe temp tp fd mask) := by
          have henter' : (s.set fe (some ⟨0, fd, f, arg⟩)).fdSubscribers.enterKeyed fd.toInt fe (fdKey fd) =
              some (u, .good) := henter
          rw [Fds.addFd]
          dsimp only
          rw [henter', Option.bind_some]
          rfl
        rw [hresult]
        exact (hadding.addToList rfl htemp).imp_right fun hsucceeded => ⟨fe, hsucceeded⟩
      · exact .inl (hrefused u ret henter hret hu)

section Delete

variable {R₁ R₂ : List (BitVec 32 × τ)} {fe : τ}

omit [DecidableEq α] [DecidableEq τ] in
theorem fd_other (hnodup : ((R₁ ++ (fd, fe) :: R₂).map Prod.fst).Nodup) : ∀ x ∈ R₁ ++ R₂, x.1 ≠ fd := by
  rintro x hx heq
  rw [List.map_append, List.map_cons] at hnodup
  have hout : fd ∉ R₁.map Prod.fst ++ R₂.map Prod.fst := (List.nodup_cons.1 (List.nodup_middle.1 hnodup)).1
  have hmem : x.1 ∈ (R₁ ++ R₂).map Prod.fst := List.mem_map_of_mem hx
  rw [heq, List.map_append] at hmem
  exact hout hmem

omit [DecidableEq α] [DecidableEq τ] in
/-- The entries of other file descriptors stay when one is taken out. -/
theorem filter_others (hother : ∀ x ∈ R₁ ++ R₂, x.1 ≠ fd) :
    (R₁ ++ (fd, fe) :: R₂).filter (fun x => !decide (x.1 = fd)) = R₁ ++ R₂ ∧
      ((R₁ ++ (fd, fe) :: R₂).map stored).eraseP (Stored.matches' fd.toInt (fdKey fd)) = (R₁ ++ R₂).map stored := by
  constructor
  · have hkept : ∀ S, S ⊆ R₁ ++ R₂ → S.filter (fun x => !decide (x.1 = fd)) = S := by
      intro S hS
      rw [List.filter_eq_self]
      intro x hx
      rw [decide_eq_false (hother x (hS hx))]
      rfl
    rw [List.filter_append, List.filter_cons_of_neg (by simp), hkept R₁ (List.subset_append_left R₁ R₂),
      hkept R₂ (List.subset_append_right R₁ R₂)]
  · have hhit : (stored (fd, fe)).matches' fd.toInt (fdKey fd) = true := matches_stored.2 rfl
    rw [List.map_append, List.map_cons, List.eraseP_append_right, List.eraseP_cons_of_pos hhit, List.map_append]
    intro x hx
    obtain ⟨y, hy, rfl⟩ := List.mem_map.1 hx
    rw [matches_stored]
    exact hother y (List.mem_append_left _ hy)

omit [DecidableEq α] [DecidableEq τ] in
theorem findIdx_fd {U₁ U₂ : List Pollfd} {p : Pollfd} (hp : p.fd = fd) (hbefore : ∀ q ∈ U₁, q.fd ≠ fd) :
    (U₁ ++ p :: U₂).findIdx? (fun p => decide (p.fd = fd)) = some U₁.length := by
  have hnone : U₁.findIdx? (fun p => decide (p.fd = fd)) = none := by
    rw [List.findIdx?_eq_none_iff]
    intro q hq
    exact decide_eq_false (hbefore q hq)
  rw [List.findIdx?_append, hnone, Option.none_or, List.findIdx?_cons, if_pos (decide_eq_true hp), Option.map_some,
    Nat.zero_add]

/-- What the loop of `dist_deleteFd` tests. -/
def serves (entry : τ → Option (FdEntry φ κ)) (fd : BitVec 32) (fe : τ) : Bool :=
  ((entry fe).map fun e => decide (e.fdItServices = fd)).getD false

omit [DecidableEq α] [DecidableEq τ] in
theorem Sound.serves_eq (h : s.Sound R) {x : BitVec 32 × τ} (hx : x ∈ R) :
    ((s.entry x.2).map fun e => decide (e.fdItServices = fd)) = some (decide (x.1 = fd)) ∧
      serves s.entry fd x.2 = decide (x.1 = fd) := by
  obtain ⟨e, he, hfd⟩ := h.entry x hx
  rw [serves, he, ← hfd]
  exact ⟨rfl, rfl⟩

/-- The table and the list lose a file descriptor. -/
theorem Sound.deleteFd_eq (h : s.Sound R) (fd : BitVec 32) :
    ∃ u o as, HashedTbl.Sound u ((R.map stored).eraseP (Stored.matches' fd.toInt (fdKey fd))) ∧ Dlist.Holds o as ∧
      o.entries as = (R.filter fun x => !decide (x.1 = fd)).map Prod.snd ∧
      s.deleteFd fd = match s.fdlist.findIdx? fun p => p.fd = fd with
        | none => some ({ s with fdSubscribers := u, fdSubscribersList := o }, .good)
        | some removed => (vacate { s with fdSubscribers := u, fdSubscribersList := o } removed).map fun s => (s, .good) := by
  obtain ⟨u, y, M', hremove, hremoved, hu⟩ := h.hash.removeKeyed fd.toInt (fdKey fd)
  obtain ⟨as, hholds⟩ := h.holds
  have hlisted := listed_eq hholds
  rw [hremoved.2] at hu
  have htest : ∀ fe ∈ s.fdSubscribersList.reset.entries as,
      ((s.entry fe).map fun e => decide (e.fdItServices = fd)) = some (serves s.entry fd fe) := by
    intro fe hfe
    have hfe : fe ∈ s.fdSubscribersList.entries as := hfe
    rw [← hlisted, h.listed, List.mem_map] at hfe
    obtain ⟨x, hx, rfl⟩ := hfe
    obtain ⟨htest, hserves⟩ := h.serves_eq hx
    rw [htest, hserves]
  have hlen : as.length < s.fdSubscribersList.cntIn.toNat + 1 := by
    rw [hholds.cntIn_eq]
    omega
  obtain ⟨o, as', hsweep, ho, hentries⟩ := hholds.reset.sweep htest hlen
  refine ⟨u, o, [] ++ as', hu, ho, ?_, ?_⟩
  · have hents : s.fdSubscribersList.reset.entries as = R.map Prod.snd := hlisted.symm.trans h.listed
    rw [hentries, hents, List.filter_map]
    have hsame : R.filter ((fun fe => !serves s.entry fd fe) ∘ Prod.snd) = R.filter fun x => !decide (x.1 = fd) := by
      apply List.filter_congr
      intro x hx
      rw [Function.comp_apply, (h.serves_eq hx).2]
    rw [hsame]
    rfl
  · have hunhash : s.unhash fd = some { s with fdSubscribers := u } := by
      rw [unhash, hremove]
      rfl
    rw [Fds.deleteFd, hunhash, Option.bind_some]
    dsimp only
    rw [hsweep, Option.bind_some]
    rfl

/-- A file descriptor leaves all three views, and its entry is left over. -/
theorem Sound.deleteFd_registered (h : s.Sound (R₁ ++ (fd, fe) :: R₂)) :
    ∃ s', s.deleteFd fd = some (s', .good) ∧ s'.Sound (R₁ ++ R₂) ∧ s'.registered.Perm (s.registered.erase fd) ∧
      ¬ s'.Released := by
  obtain ⟨u, o, as, hu, ho, hentries, hcall⟩ := h.deleteFd_eq fd
  obtain ⟨U, F, hfdlist, hreg, hnumused, hne, hfree⟩ := h.registered_eq
  obtain ⟨hperm, hnodup⟩ := h.registered_perm
  have hother := fd_other h.fd_nodup
  obtain ⟨hfilter, herase⟩ := @filter_others τ fd R₁ R₂ fe hother
  rw [hfilter] at hentries
  rw [herase] at hu
  have hsub : ∀ x ∈ R₁ ++ R₂, x ∈ R₁ ++ (fd, fe) :: R₂ := fun x hx =>
    ((List.sublist_cons_self (fd, fe) R₂).append_left R₁).subset hx
  have hin : (fd, fe) ∈ R₁ ++ (fd, fe) :: R₂ := List.mem_append_right R₁ List.mem_cons_self
  have hmem : fd ∈ U.map Pollfd.fd := by
    rw [← hreg, h.mem_registered]
    exact List.mem_map_of_mem hin
  obtain ⟨p, hp, hpfd⟩ := List.mem_map.1 hmem
  obtain ⟨U₁, U₂, rfl⟩ := List.append_of_mem hp
  rw [hreg] at hperm hnodup
  have hbefore : ∀ q ∈ U₁, q.fd ≠ fd := by
    intro q hq heq
    rw [List.map_append, List.map_cons] at hnodup
    apply (List.nodup_cons.1 (List.nodup_middle.1 hnodup)).1
    rw [hpfd, ← heq]
    exact List.mem_append_left _ (List.mem_map_of_mem hq)
  have hrest : ((U₁ ++ U₂).map Pollfd.fd).Perm ((R₁ ++ R₂).map Prod.fst) := by
    have hl : ((U₁ ++ p :: U₂).map Pollfd.fd).Perm (fd :: (U₁ ++ U₂).map Pollfd.fd) := by
      rw [← hpfd]
      exact List.perm_middle.map Pollfd.fd
    have hr : ((R₁ ++ (fd, fe) :: R₂).map Prod.fst).Perm (fd :: (R₁ ++ R₂).map Prod.fst) :=
      List.perm_middle.map Prod.fst
    exact (hl.symm.trans (hperm.trans hr)).cons_inv
  rw [List.append_assoc, List.cons_append] at hfdlist
  have hbehind : (⟨u, o, s.entry, s.fdlist, s.numused⟩ : Fds α τ φ κ).fdlist = U₁ ++ p :: (U₂ ++ F) := hfdlist
  obtain ⟨U', hvacate, hU'⟩ := vacate_eq hbehind hnumused
  have hindex : s.fdlist.findIdx? (fun p => decide (p.fd = fd)) = some U₁.length := by
    rw [hfdlist]
    exact findIdx_fd hpfd hbefore
  rw [hindex] at hcall
  generalize hs' : (⟨u, o, s.entry, U' ++ .free :: F, U'.length⟩ : Fds α τ φ κ) = s'
  have hcall' : s.deleteFd fd = some (s', .good) := by
    rw [hcall, ← hs']
    dsimp only
    rw [hvacate]
    rfl
  have hregistered : s'.registered = U'.map Pollfd.fd := by
    rw [← hs', registered, Int.toNat_natCast, List.take_left' rfl]
  have hholds' : Dlist.Holds s'.fdSubscribersList as := by
    rw [← hs']
    exact ho
  have hlisted : s'.listed = (R₁ ++ R₂).map Prod.snd := by
    rw [listed_eq hholds', ← hentries, ← hs']
  have hentry : s'.entry = s.entry := by rw [← hs']
  have hsound : s'.Sound (R₁ ++ R₂) := by
    refine ⟨?_, ⟨as, hholds'⟩, hlisted, ?_, fun x hx => h.nonneg x (hsub x hx), ?_⟩
    · rw [← hs']
      exact hu
    · intro x hx
      rw [hentry]
      exact h.entry x (hsub x hx)
    · refine ⟨U', .free :: F, by rw [← hs'], by rw [← hs'], List.cons_ne_nil _ _, ?_, ?_, ?_⟩
      · rw [List.forall_mem_cons]
        exact ⟨rfl, hfree⟩
      · exact (hU'.map Pollfd.fd).trans hrest
      · rw [((hU'.map Pollfd.fd).trans hrest).nodup_iff]
        exact h.fd_nodup.sublist (((List.sublist_cons_self (fd, fe) R₂).append_left R₁).map Prod.fst)
  refine ⟨s', hcall', hsound, ?_, ?_⟩
  · have hl : s.registered.Perm (fd :: (U₁ ++ U₂).map Pollfd.fd) := by
      rw [hreg, ← hpfd]
      exact List.perm_middle.map Pollfd.fd
    rw [hregistered]
    refine (hU'.map Pollfd.fd).trans ?_
    have herased := (hl.erase fd).symm
    rwa [List.erase_cons_head] at herased
  · intro hreleased
    obtain ⟨e, he, hefd⟩ := h.entry _ hin
    have hlive : fe ∈ s'.listed := by
      apply hreleased
      rw [hentry, he]
      exact Option.some_ne_none e
    rw [hlisted, List.mem_map] at hlive
    obtain ⟨x, hx, hxfe⟩ := hlive
    obtain ⟨e', he', hefd'⟩ := h.entry x (hsub x hx)
    rw [hxfe, he] at he'
    apply hother x hx
    rw [← hefd', ← Option.some.inj he', hefd]

theorem Sound.deleteFd (h : s.Sound R) (hmeets : s.Meets (.deleteFd fd)) :
    ∃ s' R', s.deleteFd fd = some (s', .good) ∧ s'.Sound R' ∧ s.Effect (.deleteFd fd) .good s' ∧
      (s'.Released ↔ s.Released ∧ s.Keeps (.deleteFd fd)) := by
  by_cases hin : fd ∈ s.registered
  · obtain ⟨⟨fd, fe⟩, hx, rfl⟩ := List.mem_map.1 (h.mem_registered.1 hin)
    obtain ⟨R₁, R₂, rfl⟩ := List.append_of_mem hx
    obtain ⟨s', hcall, hsound, hperm, hleft⟩ := h.deleteFd_registered
    exact ⟨s', R₁ ++ R₂, hcall, hsound, ⟨hperm, fun hout => absurd hin hout⟩,
      iff_of_false hleft fun hboth => hboth.2 hin⟩
  · obtain ⟨u, o, as, hu, ho, hentries, hcall⟩ := h.deleteFd_eq fd
    obtain ⟨U, F, hfdlist, hreg, hnumused, hne, hfree⟩ := h.registered_eq
    have hF : F.findIdx? (fun p => decide (p.fd = fd)) = none := by
      rw [List.findIdx?_eq_none_iff]
      intro p hp
      rw [hfree p hp]
      exact decide_eq_false (Ne.symm hmeets)
    have hout : ∀ x ∈ R, x.1 ≠ fd := by
      rintro x hx rfl
      exact hin (h.mem_registered.2 (List.mem_map_of_mem hx))
    have hindex : s.fdlist.findIdx? (fun p => decide (p.fd = fd)) = none := by
      rw [hfdlist, List.findIdx?_append, hF, Option.map_none, Option.or_none, List.findIdx?_eq_none_iff]
      intro p hp
      apply decide_eq_false
      rintro rfl
      apply hin
      rw [hreg]
      exact List.mem_map_of_mem hp
    have hfilter : R.filter (fun x => !decide (x.1 = fd)) = R := by
      rw [List.filter_eq_self]
      intro x hx
      rw [decide_eq_false (hout x hx)]
      rfl
    rw [hfilter, ← h.listed] at hentries
    rw [List.eraseP_of_forall_not] at hu
    · rw [hindex] at hcall
      have hunchanged : Sound { s with fdSubscribers := u, fdSubscribersList := o } R ∧
          s.Same { s with fdSubscribers := u, fdSubscribersList := o } := h.unchanged hu ho hentries rfl rfl rfl
      obtain ⟨hsound, hsame⟩ := hunchanged
      refine ⟨_, R, hcall, hsound, ⟨?_, fun _ => hsame⟩, ?_⟩
      · rw [hsame.registered, List.erase_of_not_mem hin]
      · rw [hsame.released]
        exact (and_iff_left hin).symm
    · intro x hx
      obtain ⟨y, hy, rfl⟩ := List.mem_map.1 hx
      rw [matches_stored]
      exact hout y hy

end Delete

omit [DecidableEq α] [DecidableEq τ] in
theorem map_modify_fd (l : List Pollfd) (i : ℕ) (events : BitVec 16) :
    (l.modify i fun p => { p with events := events }).map Pollfd.fd = l.map Pollfd.fd := by
  induction l generalizing i with
  | nil => rw [List.modify_nil]
  | cons p l ih =>
    cases i with
    | zero => rfl
    | succ i => rw [List.modify_succ_cons, List.map_cons, ih, List.map_cons]

omit [DecidableEq α] [DecidableEq τ] in
/-- Only what is waited for changes. -/
theorem Sound.changeFd (h : s.Sound R) (fd newmask : BitVec 32) :
    (s.changeFd fd newmask).Sound R ∧ (s.changeFd fd newmask).registered = s.registered ∧
      ((s.changeFd fd newmask).Released ↔ s.Released) := by
  unfold Fds.changeFd
  cases s.fdlist.findIdx? fun p => decide (p.fd = fd) with
  | none => exact ⟨h, rfl, Iff.rfl⟩
  | some i =>
    obtain ⟨U, F, hfdlist, hnumused, hne, hfree, hperm, hnodup⟩ := h.poll
    dsimp only
    generalize hl : s.fdlist.modify i (fun p => { p with events := newmask.setWidth 16 }) = l
    have hmap : l.map Pollfd.fd = s.fdlist.map Pollfd.fd := by
      rw [← hl]
      exact map_modify_fd s.fdlist i _
    have hreg : (l.take U.length).map Pollfd.fd = U.map Pollfd.fd := by
      rw [List.map_take, hmap, hfdlist, List.map_append, List.take_left' (List.length_map _)]
    have hrest : (l.drop U.length).map Pollfd.fd = F.map Pollfd.fd := by
      rw [List.map_drop, hmap, hfdlist, List.map_append, List.drop_left' (List.length_map _)]
    have hlen : U.length ≤ l.length := by
      have hlength := congrArg List.length hmap
      rw [List.length_map, List.length_map, hfdlist, List.length_append] at hlength
      omega
    refine ⟨⟨h.hash, h.holds, h.listed, h.entry, h.nonneg, l.take U.length, l.drop U.length,
      (List.take_append_drop _ _).symm, ?_, ?_, ?_, ?_, ?_⟩, ?_, Iff.rfl⟩
    · rw [List.length_take, min_eq_left hlen]
      exact hnumused
    · intro hnil
      rw [hnil, List.map_nil] at hrest
      exact hne (List.map_eq_nil_iff.1 hrest.symm)
    · intro p hp
      have hmem : p.fd ∈ (l.drop U.length).map Pollfd.fd := List.mem_map_of_mem hp
      rw [hrest, List.mem_map] at hmem
      obtain ⟨q, hq, hqp⟩ := hmem
      rw [← hqp, hfree q hq]
    · rw [hreg]
      exact hperm
    · rw [hreg]
      exact hnodup
    · rw [registered, registered, hnumused, Int.toNat_natCast, hreg, hfdlist, List.take_left' rfl]

theorem Sound.call {op : FdOp α τ φ κ} (h : s.Sound R) (hallowed : s.Allowed op) (hmeets : s.Meets op) :
    ∃ s' ret R', s.call op = some (s', ret) ∧ s'.Sound R' ∧ s.Effect op ret s' ∧
      (s'.Released ↔ s.Released ∧ s.Keeps op) := by
  cases op with
  | addFd fe temp tp fd f mask arg =>
    have hkeeps : ∀ {P : Prop}, P ∧ s.Keeps (.addFd fe temp tp fd f mask arg) ↔ P := and_iff_left trivial
    rw [hkeeps]
    rcases h.addFd hallowed hmeets with ⟨s', ret, hcall, hret, hsound, hsame⟩ | ⟨x, s', hcall, hsound, hreg, hreleased⟩
    · refine ⟨s', ret, R, hcall, hsound, ?_, hsame.released⟩
      rw [Effect, if_neg hret]
      exact hsame
    · refine ⟨s', .good, _, hcall, hsound, ?_, hreleased⟩
      rw [Effect, if_pos rfl]
      exact hreg
  | deleteFd fd =>
    obtain ⟨s', R', hcall, hrest⟩ := h.deleteFd hmeets
    exact ⟨s', .good, R', hcall, hrest⟩
  | changeFd fd newmask =>
    obtain ⟨hsound, hreg, hreleased⟩ := h.changeFd fd newmask
    exact ⟨_, .good, R, rfl, hsound, hreg, hreleased.trans (and_iff_left trivial).symm⟩

omit [DecidableEq α] [DecidableEq τ] in
theorem create_sound' (calloc : ℕ → Bool) : (create calloc : Fds α τ φ κ).Sound [] where
  hash := HashedTbl.create_sound (by decide) calloc
  holds := ⟨[], Dlist.create_holds⟩
  listed := rfl
  entry _ hx := absurd hx List.not_mem_nil
  nonneg _ hx := absurd hx List.not_mem_nil
  poll := by
    refine ⟨[], List.replicate DEFAULT_POLL_LIST_SZ .free, rfl, rfl, by decide, ?_, List.Perm.refl _, List.nodup_nil⟩
    intro p hp
    rw [List.eq_of_mem_replicate hp]
    rfl

theorem Sound.run {ops : List (FdOp α τ φ κ)} (h : s.Sound R) (hallowed : Trace.Along Fds.step Allowed s ops)
    (hmeets : Trace.Along Fds.step Meets s ops) :
    ∃ s' R', Trace.run Fds.step s ops = some s' ∧ s'.Sound R' ∧
      (s'.Released ↔ s.Released ∧ Trace.Along Fds.step Keeps s ops) := by
  have hstep : ∀ (s : Fds α τ φ κ) (op : FdOp α τ φ κ), (∃ R, s.Sound R) → s.Allowed op ∧ s.Meets op →
      ∃ t, s.step op = some t ∧ (∃ R, t.Sound R) ∧ (t.Released ↔ s.Released ∧ s.Keeps op) := by
    rintro s op ⟨R, hs⟩ ⟨hallowed, hmeets⟩
    obtain ⟨t, ret, R', hcall, hsound, -, hreleased⟩ := hs.call hallowed hmeets
    refine ⟨t, ?_, ⟨R', hsound⟩, hreleased⟩
    rw [step, hcall]
    rfl
  have hops := hallowed.and hmeets
  have hgoes : ∀ (s : Fds α τ φ κ) (op : FdOp α τ φ κ), (∃ R, s.Sound R) → s.Allowed op ∧ s.Meets op →
      ∃ t, s.step op = some t ∧ ∃ R, t.Sound R := by
    intro s op hs hop
    obtain ⟨t, ht, hsound, -⟩ := hstep s op hs hop
    exact ⟨t, ht, hsound⟩
  obtain ⟨s', hrun, R', hsound⟩ := Trace.run_progress _ hgoes ⟨R, h⟩ hops
  refine ⟨s', R', hrun, hsound, ?_⟩
  apply Trace.run_iff_along (fun s : Fds α τ φ κ => ∃ R, s.Sound R) _ ⟨R, h⟩ hops hrun
  intro s op t hs hop ht
  obtain ⟨t', ht', hsound, hreleased⟩ := hstep s op hs hop
  obtain rfl := Option.some.inj (ht.symm.trans ht')
  exact ⟨hsound, hreleased⟩

/-- In every run whose calls meet the condition nothing fails and the three views agree; every entry that was removed
is released exactly when no file descriptor that was registered was deleted; and every further call does what it
should, where one that fails, or deletes what is not registered, changes nothing. -/
theorem fds_agree (calloc : ℕ → Bool) (ops : List (FdOp α τ φ κ))
    (hallowed : Trace.Along Fds.step Allowed (create calloc) ops)
    (hmeets : Trace.Along Fds.step Meets (create calloc) ops) :
    ∃ s : Fds α τ φ κ, Trace.run Fds.step (create calloc) ops = some s ∧ s.Agree ∧
      (s.Released ↔ Trace.Along Fds.step Keeps (create calloc) ops) ∧
      ∀ op, s.Allowed op → s.Meets op → ∃ s' ret, s.call op = some (s', ret) ∧ s.Effect op ret s' := by
  obtain ⟨s, R, hrun, hsound, hreleased⟩ := (create_sound' calloc).run hallowed hmeets
  have hempty : (create calloc : Fds α τ φ κ).Released := fun fe hfe => absurd rfl hfe
  refine ⟨s, hrun, hsound.agree, hreleased.trans (and_iff_right hempty), ?_⟩
  intro op hop hok
  obtain ⟨s', ret, R', hcall, -, heffect, -⟩ := hsound.call hop hok
  exact ⟨s', ret, hcall, heffect⟩

/-- Two file descriptors are added, the mask of one is changed, and one that is not there is deleted. -/
def twoFds : List (FdOp ℕ ℕ Unit Unit) :=
  [.addFd (some 0) (some 0) true 5 () 1 (), .addFd (some 1) (some 1) true 7 () 1 (), .addFd (some 2) (some 2) true 5 () 4 (),
    .changeFd 7 4, .deleteFd 9, .deleteFd 5]

theorem fds_agree_two : ∃ s : Fds ℕ ℕ Unit Unit, Trace.run Fds.step (create fun _ => true) twoFds = some s ∧ s.Agree ∧
    (s.Released ↔ Trace.Along Fds.step Keeps (create fun _ => true) twoFds) ∧
    ∀ op, s.Allowed op → s.Meets op → ∃ s' ret, s.call op = some (s', ret) ∧ s.Effect op ret s' :=
  fds_agree (fun _ => true) twoFds (by decide +kernel) (by decide +kernel)

/-- Two file descriptors, and the free mark is deleted. -/
def deletedMark : List (FdOp ℕ ℕ Unit Unit) :=
  [.addFd (some 0) (some 0) true 5 () 1 (), .addFd (some 1) (some 1) true 7 () 1 (), .deleteFd noFd]

/-- The last slot moves behind those in use. -/
theorem not_fds_agree : ¬ ∀ (calloc : ℕ → Bool) (ops : List (FdOp ℕ ℕ Unit Unit)),
    Trace.Along Fds.step Allowed (create calloc) ops →
    ∃ s : Fds ℕ ℕ Unit Unit, Trace.run Fds.step (create calloc) ops = some s ∧ s.Agree ∧ s.Released := by
  intro hall
  obtain ⟨s, hrun, hagree, -⟩ := hall (fun _ => true) deletedMark (by decide +kernel)
  have hviews : (Trace.run Fds.step (create fun _ => true) deletedMark).map
      (fun s : Fds ℕ ℕ Unit Unit => (s.services.map Prod.fst, s.registered)) = some ([5, 7], [5]) := by
    decide +kernel
  rw [hrun, Option.map_some] at hviews
  obtain ⟨hlist, hregistered⟩ := Prod.mk.inj (Option.some.inj hviews)
  have hlength := hagree.list.length_eq
  rw [hlist, hregistered] at hlength
  cases hlength

end Fds

end Sctp.Distributor
