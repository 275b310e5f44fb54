import Mathlib
import Sctp.Lib.Trace
import Sctp.Lib.UpdateFirst

/-! Verification tags in time-wait: the blocks of `vtag_timewait`, and `sctp_is_vtag_good`. -/
namespace Sctp.Timewait
open First

/-- A verification tag with the ports it is used between. -/
structure VtagKey where
  tag : BitVec 32
  lport : BitVec 16
  rport : BitVec 16
deriving DecidableEq, Repr

/-- `struct sctp_timewait`; one with the tag 0 is free. -/
structure Slot where
  tvSecAtExpire : ℕ
  key : VtagKey
deriving DecidableEq, Repr

def Slot.free : Slot := ⟨0, ⟨0, 0, 0⟩⟩

def numberInVtagBlock : ℕ := 15

def stackVtagHashSize : ℕ := 32

/-- `struct sctp_tagblock` -/
structure TagBlock where
  slots : List Slot
  size : slots.length = numberInVtagBlock

def slots (chain : List TagBlock) : List Slot := chain.flatMap TagBlock.slots

/-- The scan of an add: free slots are looked for, and expired ones are freed on the fly. The flag says that
the new entry has its place. -/
def place (now : ℕ) (new : Slot) : List Slot → Bool → List Slot × Bool
  | [], set => ([], set)
  | s :: l, set =>
    if s.key.tag = 0 ∧ set = false then
      ((new :: (place now new l true).1), (place now new l true).2)
    else if s.key.tag ≠ 0 ∧ s.tvSecAtExpire < now then
      (((if set then Slot.free else new) :: (place now new l true).1), (place now new l true).2)
    else (s :: (place now new l set).1, (place now new l set).2)

/-- The scan of `sctp_is_vtag_good`, which ends at the tag. -/
def audit (now : ℕ) (key : VtagKey) : List Slot → List Slot × Bool
  | [] => ([], false)
  | s :: l =>
    if s.key.tag = 0 then (s :: (audit now key l).1, (audit now key l).2)
    else if s.tvSecAtExpire < now then (Slot.free :: (audit now key l).1, (audit now key l).2)
    else if s.key = key then (s :: l, true)
    else (s :: (audit now key l).1, (audit now key l).2)

theorem length_place (now : ℕ) (new : Slot) (l : List Slot) (set : Bool) :
    (place now new l set).1.length = l.length := by
  induction l generalizing set with
  | nil => rfl
  | cons s l ih =>
    unfold place
    split_ifs
    · exact congrArg Nat.succ (ih true)
    · exact congrArg Nat.succ (ih true)
    · exact congrArg Nat.succ (ih true)
    · exact congrArg Nat.succ (ih set)

theorem length_audit (now : ℕ) (key : VtagKey) (l : List Slot) :
    (audit now key l).1.length = l.length := by
  induction l with
  | nil => rfl
  | cons s l ih =>
    unfold audit
    split_ifs
    · exact congrArg Nat.succ ih
    · exact congrArg Nat.succ ih
    · rfl
    · exact congrArg Nat.succ ih

namespace TagBlock

def place (now : ℕ) (new : Slot) (b : TagBlock) : TagBlock where
  slots := (Timewait.place now new b.slots false).1
  size := (length_place now new b.slots false).trans b.size

def audit (now : ℕ) (key : VtagKey) (b : TagBlock) : TagBlock where
  slots := (Timewait.audit now key b.slots).1
  size := (length_audit now key b.slots).trans b.size

/-- A block with nothing in it but its first slot. -/
def single (new : Slot) : TagBlock where
  slots := new :: List.replicate 14 Slot.free
  size := rfl

/-- The first slot with the triple is freed. -/
def forget (key : VtagKey) (b : TagBlock) : Option TagBlock :=
  match h : updateFirst (fun s => s.key == key) (fun _ => Slot.free) b.slots with
  | none => none
  | some l => some ⟨l, (length_of_updateFirst h).trans b.size⟩

end TagBlock

/-- The scan of an add goes up to the block where the entry has its place. -/
def placeChain (now : ℕ) (new : Slot) : List TagBlock → List TagBlock × Bool
  | [] => ([], false)
  | b :: chain =>
    if (place now new b.slots false).2 then (b.place now new :: chain, true)
    else (b.place now new :: (placeChain now new chain).1, (placeChain now new chain).2)

def auditChain (now : ℕ) (key : VtagKey) : List TagBlock → List TagBlock × Bool
  | [] => ([], false)
  | b :: chain =>
    if (audit now key b.slots).2 then (b.audit now key :: chain, true)
    else (b.audit now key :: (auditChain now key chain).1, (auditChain now key chain).2)

def forgetChain (key : VtagKey) : List TagBlock → List TagBlock
  | [] => []
  | b :: chain =>
    match b.forget key with
    | some b' => b' :: chain
    | none => b :: forgetChain key chain

/-- An association as `sctp_asochash` has it. -/
structure VtagAsoc where
  key : VtagKey
  /-- `SCTP_PCB_FLAGS_SOCKET_ALLGONE` of its endpoint. -/
  allgone : Bool
deriving DecidableEq, Repr

/-- `vtag_timewait`, `sctp_asochash` with `hashasocmark`, and the seconds of the clock. -/
structure VtagInfo where
  now : ℕ
  vtagTimewait : ℕ → List TagBlock
  asocs : List VtagAsoc
  hashasocmark : BitVec 32

namespace VtagInfo

def index (tag : BitVec 32) : ℕ := tag.toNat % stackVtagHashSize

def chain (s : VtagInfo) (key : VtagKey) : List TagBlock := s.vtagTimewait (index key.tag)

def setChain (s : VtagInfo) (key : VtagKey) (chain : List TagBlock) : VtagInfo :=
  { s with vtagTimewait := Function.update s.vtagTimewait (index key.tag) chain }

def asocChain (s : VtagInfo) (tag : BitVec 32) : List VtagAsoc :=
  s.asocs.filter fun a => a.key.tag &&& s.hashasocmark == tag &&& s.hashasocmark

def deleteFromTimewait (key : VtagKey) (s : VtagInfo) : VtagInfo :=
  s.setChain key (forgetChain key (s.chain key))

def isInTimewait (key : VtagKey) (s : VtagInfo) : Bool :=
  (slots (s.chain key)).any fun t => t.key == key

/-- `tv_sec_at_expire` is a word. -/
def newSlot (key : VtagKey) (time : ℕ) (s : VtagInfo) : Slot := ⟨(s.now + time) % 2 ^ 32, key⟩

/-- `sctp_add_vtag_to_timewait` with memory for a new block. -/
def addVtagToTimewait (key : VtagKey) (time : ℕ) (s : VtagInfo) : VtagInfo :=
  if time = 0 then s
  else
    let r := placeChain s.now (s.newSlot key time) (s.chain key)
    s.setChain key (if r.2 then r.1 else .single (s.newSlot key time) :: r.1)

def isVtagGood (key : VtagKey) (s : VtagInfo) : VtagInfo × Bool :=
  if (s.asocChain key.tag).any fun a => !a.allgone && a.key == key then (s, false)
  else
    let r := auditChain s.now key (s.chain key)
    (s.setChain key r.1, !r.2)

end VtagInfo

/-- The slot is taken and the time-out of its entry is not over. -/
def alive (now : ℕ) (s : Slot) : Bool := s.key.tag != 0 && decide (now ≤ s.tvSecAtExpire)

theorem alive_eq_false_iff {now : ℕ} {s : Slot} :
    alive now s = false ↔ s.key.tag = 0 ∨ s.tvSecAtExpire < now := by
  unfold alive
  rw [Bool.and_eq_false_iff, bne_eq_false_iff_eq, decide_eq_false_iff_not, Nat.not_le]

@[simp] theorem alive_free (now : ℕ) : alive now Slot.free = false := rfl

def living (now : ℕ) (l : List Slot) : List Slot := l.filter (alive now)

theorem living_cons_of_dead {now : ℕ} {s : Slot} (h : alive now s = false) (l : List Slot) :
    living now (s :: l) = living now l :=
  List.filter_cons_of_neg (by rw [h]; exact Bool.false_ne_true)

theorem living_cons_congr {now : ℕ} {l l' : List Slot} (h : living now l = living now l') (s : Slot) :
    living now (s :: l) = living now (s :: l') := by
  unfold living at *
  rw [List.filter_cons, List.filter_cons, h]

theorem living_append (now : ℕ) (l r : List Slot) : living now (l ++ r) = living now l ++ living now r :=
  List.filter_append ..

/-- A list has one entry more than another one: the new one, if it is alive, and no other one is lost or
changed. -/
def Gains (now : ℕ) (new : Slot) (l l' : List Slot) : Prop :=
  new ∈ l' ∧ ∃ a b, living now l' = a ++ living now [new] ++ b ∧ living now l = a ++ b

theorem Gains.cons {now : ℕ} {new : Slot} {l l' : List Slot} (h : Gains now new l l') (s : Slot) :
    Gains now new (s :: l) (s :: l') := by
  obtain ⟨hmem, a, b, hnew, hold⟩ := h
  refine ⟨List.mem_cons_of_mem s hmem, living now [s] ++ a, b, ?_, ?_⟩
  · rw [← List.singleton_append, living_append, hnew]
    simp only [List.append_assoc]
  · rw [← List.singleton_append, living_append, hold]
    simp only [List.append_assoc]

/-- The new entry is put where none is alive. -/
theorem Gains.head {now : ℕ} {new s : Slot} {l l' : List Slot} (hs : alive now s = false)
    (h : living now l' = living now l) : Gains now new (s :: l) (new :: l') := by
  refine ⟨List.mem_cons_self, [], living now l, ?_, ?_⟩
  · rw [← List.singleton_append, living_append, h]
    rfl
  · rw [living_cons_of_dead hs]
    rfl

theorem Gains.append {now : ℕ} {new : Slot} {l l' : List Slot} (h : Gains now new l l')
    {r r' : List Slot} (hr : living now r' = living now r) : Gains now new (l ++ r) (l' ++ r') := by
  obtain ⟨hmem, a, b, hnew, hold⟩ := h
  refine ⟨List.mem_append_left _ hmem, a, b ++ living now r, ?_, ?_⟩
  · rw [living_append, hnew, hr]
    simp only [List.append_assoc]
  · rw [living_append, hold]
    simp only [List.append_assoc]

theorem Gains.after {now : ℕ} {new : Slot} {l l' : List Slot} (h : Gains now new l l')
    {r r' : List Slot} (hr : living now r' = living now r) : Gains now new (r ++ l) (r' ++ l') := by
  obtain ⟨hmem, a, b, hnew, hold⟩ := h
  refine ⟨List.mem_append_right _ hmem, living now r ++ a, b, ?_, ?_⟩
  · rw [living_append, hnew, hr]
    simp only [List.append_assoc]
  · rw [living_append, hold]
    simp only [List.append_assoc]

/-- An entry that is alive stays. -/
theorem Gains.mem {now : ℕ} {new : Slot} {l l' : List Slot} (h : Gains now new l l') {s : Slot}
    (hs : s ∈ living now l) : s ∈ living now l' := by
  obtain ⟨_, a, b, hnew, hold⟩ := h
  rw [hold] at hs
  rw [hnew]
  rcases List.mem_append.mp hs with hs | hs
  · exact List.mem_append_left _ (List.mem_append_left _ hs)
  · exact List.mem_append_right _ hs

/-- Nothing happens to the entries of other triples. -/
theorem Gains.others {now : ℕ} {new : Slot} {l l' : List Slot} (h : Gains now new l l') :
    (living now l').filter (fun s => s.key != new.key) =
      (living now l).filter fun s => s.key != new.key := by
  obtain ⟨_, a, b, hnew, hold⟩ := h
  have hself : (living now [new]).filter (fun s => s.key != new.key) = [] := by
    apply List.filter_eq_nil_iff.mpr
    intro s hs
    have heq : s = new := List.mem_singleton.mp (List.mem_filter.mp hs).1
    rw [heq, bne_self_eq_false]
    exact Bool.false_ne_true
  rw [hnew, hold, List.filter_append, List.filter_append, List.filter_append, hself, List.append_nil]

theorem place_true (now : ℕ) (new : Slot) (l : List Slot) :
    living now (place now new l true).1 = living now l ∧ (place now new l true).2 = true := by
  induction l with
  | nil => exact ⟨rfl, rfl⟩
  | cons s l ih =>
    have hset : ¬ (s.key.tag = 0 ∧ true = false) := fun habs => Bool.noConfusion habs.2
    unfold place
    rw [if_neg hset]
    by_cases hexp : s.key.tag ≠ 0 ∧ s.tvSecAtExpire < now
    · rw [if_pos hexp, if_pos rfl]
      refine ⟨?_, ih.2⟩
      rw [living_cons_of_dead (alive_free now), ih.1,
        living_cons_of_dead (alive_eq_false_iff.mpr (Or.inr hexp.2))]
    · rw [if_neg hexp]
      exact ⟨living_cons_congr ih.1 s, ih.2⟩

/-- The scan of a block finds a place or changes nothing. -/
theorem place_false (now : ℕ) (new : Slot) (l : List Slot) :
    ((place now new l false).2 = true ∧ Gains now new l (place now new l false).1) ∨
      ((place now new l false).2 = false ∧ (place now new l false).1 = l) := by
  induction l with
  | nil => exact Or.inr ⟨rfl, rfl⟩
  | cons s l ih =>
    have hrest := place_true now new l
    unfold place
    by_cases hfree : s.key.tag = 0
    · rw [if_pos ⟨hfree, rfl⟩]
      exact Or.inl ⟨hrest.2, Gains.head (alive_eq_false_iff.mpr (Or.inl hfree)) hrest.1⟩
    · rw [if_neg fun habs => hfree habs.1]
      by_cases hexp : s.tvSecAtExpire < now
      · rw [if_pos ⟨hfree, hexp⟩, if_neg Bool.false_ne_true]
        exact Or.inl ⟨hrest.2, Gains.head (alive_eq_false_iff.mpr (Or.inr hexp)) hrest.1⟩
      · rw [if_neg fun habs => hexp habs.2]
        rcases ih with ⟨hset, hgains⟩ | ⟨hset, hsame⟩
        · exact Or.inl ⟨hset, hgains.cons s⟩
        · exact Or.inr ⟨hset, congrArg (s :: ·) hsame⟩

/-- The scan of the chain finds a place or changes nothing. -/
theorem placeChain_spec (now : ℕ) (new : Slot) (chain : List TagBlock) :
    ((placeChain now new chain).2 = true ∧
        Gains now new (slots chain) (slots (placeChain now new chain).1)) ∨
      ((placeChain now new chain).2 = false ∧ slots (placeChain now new chain).1 = slots chain) := by
  induction chain with
  | nil => exact Or.inr ⟨rfl, rfl⟩
  | cons b chain ih =>
    unfold placeChain
    rcases place_false now new b.slots with ⟨hset, hgains⟩ | ⟨hset, hsame⟩
    · rw [if_pos hset]
      exact Or.inl ⟨rfl, hgains.append rfl⟩
    · rw [if_neg (by rw [hset]; exact Bool.false_ne_true)]
      have hslots : (b.place now new).slots = b.slots := hsame
      rcases ih with ⟨hset', hgains⟩ | ⟨hset', hsame'⟩
      · exact Or.inl ⟨hset', hgains.after (congrArg (living now) hslots)⟩
      · exact Or.inr ⟨hset', congrArg₂ (· ++ ·) hslots hsame'⟩

/-- An add puts its entry on the chain. -/
theorem gains_add (now : ℕ) (new : Slot) (chain : List TagBlock) :
    Gains now new (slots chain) (slots
      (if (placeChain now new chain).2 then (placeChain now new chain).1
        else .single new :: (placeChain now new chain).1)) := by
  rcases placeChain_spec now new chain with ⟨hset, hgains⟩ | ⟨hset, hsame⟩
  · rw [if_pos hset]
    exact hgains
  · rw [if_neg (by rw [hset]; exact Bool.false_ne_true)]
    refine ⟨List.mem_append_left _ List.mem_cons_self, [], living now (slots chain), ?_, rfl⟩
    have hsingle : living now (TagBlock.single new).slots = living now [new] := by
      change living now ([new] ++ List.replicate 14 Slot.free) = _
      rw [living_append]
      exact List.append_nil _
    change living now ((TagBlock.single new).slots ++ slots (placeChain now new chain).1) = _
    rw [living_append, hsingle, hsame]
    rfl

/-- A query frees what has expired, and stops at the triple. -/
theorem audit_spec (now : ℕ) (key : VtagKey) (l : List Slot) :
    living now (audit now key l).1 = living now l ∧
      ((audit now key l).2 = true ↔ ∃ s ∈ living now l, s.key = key) := by
  induction l with
  | nil => exact ⟨rfl, by simp [audit, living]⟩
  | cons s l ih =>
    unfold audit
    by_cases hfree : s.key.tag = 0
    · have hdead : alive now s = false := alive_eq_false_iff.mpr (Or.inl hfree)
      rw [if_pos hfree]
      dsimp only
      rw [living_cons_of_dead hdead, living_cons_of_dead hdead]
      exact ih
    · rw [if_neg hfree]
      by_cases hexp : s.tvSecAtExpire < now
      · rw [if_pos hexp, living_cons_of_dead (alive_free now),
          living_cons_of_dead (alive_eq_false_iff.mpr (Or.inr hexp))]
        exact ih
      · rw [if_neg hexp]
        have halive : alive now s = true := by
          rw [← Bool.not_eq_false, alive_eq_false_iff]
          exact fun habs => habs.elim hfree hexp
        have hcons : living now (s :: l) = s :: living now l := List.filter_cons_of_pos halive
        by_cases hkey : s.key = key
        · rw [if_pos hkey]
          refine ⟨rfl, iff_of_true rfl ⟨s, ?_, hkey⟩⟩
          rw [hcons]
          exact List.mem_cons_self
        · rw [if_neg hkey]
          refine ⟨living_cons_congr ih.1 s, ih.2.trans ?_⟩
          rw [hcons]
          simp [hkey]

theorem auditChain_spec (now : ℕ) (key : VtagKey) (chain : List TagBlock) :
    living now (slots (auditChain now key chain).1) = living now (slots chain) ∧
      ((auditChain now key chain).2 = true ↔ ∃ s ∈ living now (slots chain), s.key = key) := by
  induction chain with
  | nil => exact ⟨rfl, by simp [auditChain, slots, living]⟩
  | cons b chain ih =>
    obtain ⟨hliving, hfound⟩ := audit_spec now key b.slots
    have hsplit : living now (slots (b :: chain)) = living now b.slots ++ living now (slots chain) :=
      living_append ..
    unfold auditChain
    by_cases hset : (audit now key b.slots).2 = true
    · rw [if_pos hset]
      obtain ⟨s, hs, hkey⟩ := hfound.mp hset
      constructor
      · change living now ((audit now key b.slots).1 ++ slots chain) = _
        rw [living_append, hliving, hsplit]
      · refine iff_of_true rfl ⟨s, ?_, hkey⟩
        rw [hsplit]
        exact List.mem_append_left _ hs
    · rw [if_neg hset]
      constructor
      · change living now ((audit now key b.slots).1 ++ slots (auditChain now key chain).1) = _
        rw [living_append, hliving, ih.1, hsplit]
      · refine ih.2.trans ?_
        rw [hsplit]
        constructor
        · rintro ⟨s, hs, hkey⟩
          exact ⟨s, List.mem_append_right _ hs, hkey⟩
        · rintro ⟨s, hs, hkey⟩
          rcases List.mem_append.mp hs with hs | hs
          · exact absurd (hfound.mpr ⟨s, hs, hkey⟩) hset
          · exact ⟨s, hs, hkey⟩

/-- A delete frees the first slot with the triple. -/
theorem forgetChain_spec (key : VtagKey) (chain : List TagBlock) :
    (∃ l₁ s l₂, slots chain = l₁ ++ s :: l₂ ∧ s.key = key ∧
        slots (forgetChain key chain) = l₁ ++ Slot.free :: l₂) ∨
      ((∀ s ∈ slots chain, s.key ≠ key) ∧ slots (forgetChain key chain) = slots chain) := by
  induction chain with
  | nil => exact Or.inr ⟨fun s hs => (List.not_mem_nil hs).elim, rfl⟩
  | cons b chain ih =>
    unfold forgetChain
    cases hb : b.forget key with
    | some b' =>
      have hup : updateFirst (fun s => s.key == key) (fun _ => Slot.free) b.slots = some b'.slots := by
        unfold TagBlock.forget at hb
        split at hb
        · cases hb
        · rename_i l hl
          obtain rfl := Option.some.inj hb
          exact hl
      obtain ⟨l₁, s, l₂, hsplit, hkey, _, hnew⟩ := updateFirst_split hup
      refine Or.inl ⟨l₁, s, l₂ ++ slots chain, ?_, eq_of_beq hkey, ?_⟩
      · change b.slots ++ slots chain = _
        rw [hsplit, List.append_assoc]
        rfl
      · change b'.slots ++ slots chain = _
        rw [hnew, List.append_assoc]
        rfl
    | none =>
      have hnone : ∀ s ∈ b.slots, s.key ≠ key := by
        unfold TagBlock.forget at hb
        split at hb
        · rename_i hl
          intro s hs
          exact ne_of_beq_false (updateFirst_eq_none_iff.mp hl s hs)
        · cases hb
      rcases ih with ⟨l₁, s, l₂, hsplit, hkey, hnew⟩ | ⟨hrest, hsame⟩
      · refine Or.inl ⟨b.slots ++ l₁, s, l₂, ?_, hkey, ?_⟩
        · change b.slots ++ slots chain = _
          rw [hsplit, List.append_assoc]
        · change b.slots ++ slots (forgetChain key chain) = _
          rw [hnew, List.append_assoc]
      · refine Or.inr ⟨fun s hs => ?_, congrArg (b.slots ++ ·) hsame⟩
        rcases List.mem_append.mp hs with hs | hs
        · exact hnone s hs
        · exact hrest s hs

inductive VtagEvent where
  | add (key : VtagKey) (time : ℕ)
  | delete (key : VtagKey)
  | query (key : VtagKey)
  | tick (seconds : ℕ)
  /-- Associations come and go. -/
  | asocs (asocs : List VtagAsoc)

def VtagEvent.key : VtagEvent → Option VtagKey
  | .add key _ => some key
  | .delete key => some key
  | _ => none

open VtagInfo

def vtagStep (s : VtagInfo) : VtagEvent → VtagInfo
  | .add key time => s.addVtagToTimewait key time
  | .delete key => s.deleteFromTimewait key
  | .query key => (s.isVtagGood key).1
  | .tick seconds => { s with now := s.now + seconds }
  | .asocs asocs => { s with asocs := asocs }

/-- The state with the adds that no delete of their triple has followed, each with the end of its
time-out. -/
structure VtagHistory where
  info : VtagInfo
  pending : List (VtagKey × ℕ)

namespace VtagHistory

def noted (h : VtagHistory) : VtagEvent → List (VtagKey × ℕ)
  | .add key time => (key, h.info.now + time) :: h.pending
  | .delete key => h.pending.filter fun p => p.1 != key
  | _ => h.pending

def step (h : VtagHistory) (e : VtagEvent) : Option VtagHistory :=
  some { info := vtagStep h.info e, pending := h.noted e }

/-- The triple is used by an association, or the time-out of an add of it is not over. -/
def InUse (h : VtagHistory) (key : VtagKey) : Prop :=
  (∃ a ∈ h.info.asocs, a.allgone = false ∧ a.key = key) ∨
    ∃ expire, (key, expire) ∈ h.pending ∧ h.info.now ≤ expire

/-- No verification tag in use is good. -/
def Guarded (h : VtagHistory) : Prop := ∀ key, h.InUse key → (h.info.isVtagGood key).2 = false

/-- The entries that have not expired, but for those of a triple. -/
def entries (key : Option VtagKey) (s : VtagInfo) (i : ℕ) : List Slot :=
  (living s.now (slots (s.vtagTimewait i))).filter fun t => some t.key != key

/-- What the entries of other triples, and a delete, must see of an event. -/
def KeepsOthers (h : VtagHistory) (e : VtagEvent) : Prop :=
  (∀ i, entries e.key { vtagStep h.info e with now := h.info.now } i = entries e.key h.info i) ∧
    ∀ key, e = .delete key → (vtagStep h.info e).isInTimewait key = false

/-- An add has a tag and a time-out, and its end is a word of seconds; a delete has a tag, and its triple is
queued once at most. -/
def Careful (h : VtagHistory) : VtagEvent → Prop
  | .add key time => key.tag ≠ 0 ∧ 0 < time ∧ h.info.now + time < 2 ^ 32
  | .delete key => key.tag ≠ 0 ∧ (slots (h.info.chain key)).countP (fun t => t.key == key) ≤ 1
  | _ => True

instance Careful.decidable (h : VtagHistory) : ∀ e, Decidable (h.Careful e)
  | .add _ _ => inferInstanceAs (Decidable (_ ∧ _ ∧ _))
  | .delete _ => inferInstanceAs (Decidable (_ ∧ _))
  | .query _ => .isTrue trivial
  | .tick _ => .isTrue trivial
  | .asocs _ => .isTrue trivial

/-- The adds whose time-out is not over have their entries. -/
def Entered (h : VtagHistory) : Prop :=
  ∀ key expire, (key, expire) ∈ h.pending → h.info.now ≤ expire →
    key.tag ≠ 0 ∧ ⟨expire, key⟩ ∈ slots (h.info.chain key)

theorem mem_living_of_entered {h : VtagHistory} (hh : h.Entered) {key : VtagKey} {expire : ℕ}
    (hin : (key, expire) ∈ h.pending) (hnow : h.info.now ≤ expire) :
    ⟨expire, key⟩ ∈ living h.info.now (slots (h.info.chain key)) := by
  obtain ⟨htag, hmem⟩ := hh key expire hin hnow
  refine List.mem_filter.mpr ⟨hmem, ?_⟩
  unfold alive
  rw [Bool.and_eq_true, bne_iff_ne, decide_eq_true_eq]
  exact ⟨htag, hnow⟩

/-- A chain that is set. -/
theorem chain_setChain (s : VtagInfo) (key key' : VtagKey) (c : List TagBlock) :
    (s.setChain key c).chain key' = if index key'.tag = index key.tag then c else s.chain key' := by
  unfold VtagInfo.chain setChain
  dsimp only
  by_cases hi : index key'.tag = index key.tag
  · rw [hi, Function.update_self, if_pos rfl]
  · rw [Function.update_of_ne hi, if_neg hi]

/-- An event that keeps the entries of all chains alive keeps what was entered. -/
theorem Entered.setChain {h : VtagHistory} (hh : h.Entered) {key : VtagKey} {c : List TagBlock}
    (hc : ∀ s ∈ living h.info.now (slots (h.info.chain key)), s.key ≠ key → s ∈ slots c)
    {pending : List (VtagKey × ℕ)}
    (hp : ∀ p ∈ pending, h.info.now ≤ p.2 →
      (p ∈ h.pending ∧ p.1 ≠ key) ∨ p.1.tag ≠ 0 ∧ p.1 = key ∧ ⟨p.2, p.1⟩ ∈ slots c) :
    Entered { info := h.info.setChain key c, pending := pending } := by
  intro key' expire hin hnow
  change key'.tag ≠ 0 ∧ _ ∈ slots ((h.info.setChain key c).chain key')
  rw [chain_setChain]
  rcases hp _ hin hnow with ⟨hold, hne⟩ | ⟨htag, rfl, hmem⟩
  · obtain ⟨htag, hmem⟩ := hh key' expire hold hnow
    refine ⟨htag, ?_⟩
    by_cases hi : index key'.tag = index key.tag
    · rw [if_pos hi]
      have hsame : h.info.chain key' = h.info.chain key := by
        unfold VtagInfo.chain
        rw [hi]
      have halive := mem_living_of_entered hh hold hnow
      rw [hsame] at halive
      exact hc _ halive hne
    · rw [if_neg hi]
      exact hmem
  · rw [if_pos rfl]
    exact ⟨htag, hmem⟩

theorem Entered.add {h : VtagHistory} (hh : h.Entered) {key : VtagKey} {time : ℕ}
    (hok : h.Careful (.add key time)) :
    Entered { info := h.info.addVtagToTimewait key time, pending := h.noted (.add key time) } := by
  obtain ⟨htag, htime, hword⟩ := hok
  have hslot : h.info.newSlot key time = ⟨h.info.now + time, key⟩ := by
    unfold newSlot
    rw [Nat.mod_eq_of_lt hword]
  have hgains := gains_add h.info.now (h.info.newSlot key time) (h.info.chain key)
  unfold addVtagToTimewait
  rw [if_neg (Nat.pos_iff_ne_zero.mp htime)]
  apply Entered.setChain hh
  · intro s hs _
    exact (List.mem_filter.mp (hgains.mem hs)).1
  · rintro ⟨key', expire⟩ hp hnow
    rcases List.mem_cons.mp hp with heq | hold
    · obtain ⟨rfl, rfl⟩ := Prod.mk.inj heq
      refine Or.inr ⟨htag, rfl, ?_⟩
      rw [← hslot]
      exact hgains.1
    · by_cases hkey : key' = key
      · subst hkey
        refine Or.inr ⟨htag, rfl, ?_⟩
        exact (List.mem_filter.mp (hgains.mem (mem_living_of_entered hh hold hnow))).1
      · exact Or.inl ⟨hold, hkey⟩

theorem Entered.delete {h : VtagHistory} (hh : h.Entered) (key : VtagKey) :
    Entered { info := h.info.deleteFromTimewait key, pending := h.noted (.delete key) } := by
  apply Entered.setChain hh
  · intro s hs hne
    have hin := (List.mem_filter.mp hs).1
    rcases forgetChain_spec key (h.info.chain key) with ⟨l₁, t, l₂, hsplit, hkey, hnew⟩ | ⟨_, hsame⟩
    · rw [hsplit] at hin
      rw [hnew]
      rcases List.mem_append.mp hin with hin | hin
      · exact List.mem_append_left _ hin
      · rcases List.mem_cons.mp hin with rfl | hin
        · exact absurd hkey hne
        · exact List.mem_append_right _ (List.mem_cons_of_mem _ hin)
    · rw [hsame]
      exact hin
  · intro p hp _
    obtain ⟨hin, hne⟩ := List.mem_filter.mp hp
    exact Or.inl ⟨hin, bne_iff_ne.mp hne⟩

theorem Entered.query {h : VtagHistory} (hh : h.Entered) (key : VtagKey) :
    Entered { h with info := (h.info.isVtagGood key).1 } := by
  unfold isVtagGood
  split_ifs
  · exact hh
  · have hliving := (auditChain_spec h.info.now key (h.info.chain key)).1
    apply Entered.setChain hh
    · intro s hs _
      rw [← hliving] at hs
      exact (List.mem_filter.mp hs).1
    · rintro ⟨key', expire⟩ hp hnow
      by_cases hkey : key' = key
      · subst hkey
        have halive := mem_living_of_entered hh hp hnow
        rw [← hliving] at halive
        exact Or.inr ⟨(hh _ _ hp hnow).1, rfl, (List.mem_filter.mp halive).1⟩
      · exact Or.inl ⟨hp, hkey⟩

theorem Entered.step {h h' : VtagHistory} (hh : h.Entered) {e : VtagEvent} (hok : h.Careful e)
    (hstep : h.step e = some h') : h'.Entered := by
  obtain rfl := Option.some.inj hstep
  cases e with
  | add key time => exact hh.add hok
  | delete key => exact hh.delete key
  | query key => exact hh.query key
  | tick seconds =>
    intro key expire hin hnow
    exact hh key expire hin (Nat.le_trans (Nat.le_add_right h.info.now seconds) hnow)
  | asocs asocs => exact hh

theorem Entered.guarded {h : VtagHistory} (hh : h.Entered) : h.Guarded := by
  intro key huse
  unfold isVtagGood
  split_ifs with hasoc
  · rfl
  · rcases huse with ⟨a, ha, hgone, rfl⟩ | ⟨expire, hin, hnow⟩
    · refine absurd (List.any_eq_true.mpr ⟨a, ?_, ?_⟩) hasoc
      · exact List.mem_filter.mpr ⟨ha, beq_self_eq_true _⟩
      · rw [hgone, beq_self_eq_true]
        rfl
    · have hfound := (auditChain_spec h.info.now key (h.info.chain key)).2.mpr
        ⟨_, mem_living_of_entered hh hin hnow, rfl⟩
      dsimp only
      rw [hfound]
      rfl

/-- An event on the chain of a triple that leaves the entries of the others. -/
theorem entries_setChain {s : VtagInfo} {key : VtagKey} {c : List TagBlock} {k : Option VtagKey}
    (hc : (living s.now (slots c)).filter (fun t => some t.key != k) =
      (living s.now (slots (s.chain key))).filter fun t => some t.key != k) (i : ℕ) :
    entries k { s.setChain key c with now := s.now } i = entries k s i := by
  unfold entries
  change (living s.now (slots (Function.update s.vtagTimewait (index key.tag) c i))).filter _ = _
  by_cases hi : i = index key.tag
  · subst hi
    rw [Function.update_self]
    exact hc
  · rw [Function.update_of_ne hi]

theorem filter_key_ne (key : VtagKey) (l : List Slot) :
    (l.filter fun t => some t.key != some key) = l.filter fun t => t.key != key := by
  apply List.filter_congr
  intro t _
  by_cases hkey : t.key = key
  · rw [hkey, bne_self_eq_false, bne_self_eq_false]
  · rw [bne_iff_ne.mpr hkey, bne_iff_ne.mpr fun habs => hkey (Option.some.inj habs)]

theorem entries_add (s : VtagInfo) (key : VtagKey) (time i : ℕ) :
    entries (some key) { s.addVtagToTimewait key time with now := s.now } i =
      entries (some key) s i := by
  unfold addVtagToTimewait
  split_ifs
  · rfl
  · apply entries_setChain
    rw [filter_key_ne, filter_key_ne]
    exact (gains_add s.now (s.newSlot key time) (s.chain key)).others

theorem entries_delete (s : VtagInfo) (key : VtagKey) (i : ℕ) :
    entries (some key) { s.deleteFromTimewait key with now := s.now } i = entries (some key) s i := by
  apply entries_setChain
  rw [filter_key_ne, filter_key_ne]
  rcases forgetChain_spec key (s.chain key) with ⟨l₁, t, l₂, hsplit, hkey, hnew⟩ | ⟨_, hsame⟩
  · rw [hsplit, hnew, living_append, living_append, living_cons_of_dead (alive_free s.now),
      List.filter_append, List.filter_append]
    congr 1
    by_cases ht : alive s.now t = true
    · have hcons : living s.now (t :: l₂) = t :: living s.now l₂ := List.filter_cons_of_pos ht
      rw [hcons, List.filter_cons_of_neg]
      rw [hkey, bne_self_eq_false]
      exact Bool.false_ne_true
    · rw [living_cons_of_dead (Bool.eq_false_of_not_eq_true ht)]
  · rw [hsame]

theorem entries_query (s : VtagInfo) (key : VtagKey) (i : ℕ) :
    entries none { (s.isVtagGood key).1 with now := s.now } i = entries none s i := by
  unfold isVtagGood
  split_ifs
  · rfl
  · apply entries_setChain
    rw [(auditChain_spec s.now key (s.chain key)).1]

/-- Where the triple is queued once at most, a delete leaves none of it. -/
theorem isInTimewait_delete {s : VtagInfo} {key : VtagKey} (htag : key.tag ≠ 0)
    (hone : (slots (s.chain key)).countP (fun t => t.key == key) ≤ 1) :
    (s.deleteFromTimewait key).isInTimewait key = false := by
  unfold isInTimewait deleteFromTimewait
  rw [chain_setChain, if_pos rfl, List.any_eq_false]
  intro t ht hkey
  rcases forgetChain_spec key (s.chain key) with ⟨l₁, u, l₂, hsplit, hu, hnew⟩ | ⟨hnone, hsame⟩
  · rw [hnew] at ht
    have hfree : t ≠ Slot.free := by
      rintro rfl
      exact htag (congrArg VtagKey.tag (eq_of_beq hkey)).symm
    have hrest : t ∈ l₁ ++ l₂ := by
      rcases List.mem_append.mp ht with ht | ht
      · exact List.mem_append_left _ ht
      · rcases List.mem_cons.mp ht with rfl | ht
        · exact absurd rfl hfree
        · exact List.mem_append_right _ ht
    have hcount : (u :: l₂).countP (fun t => t.key == key) = l₂.countP (fun t => t.key == key) + 1 :=
      List.countP_cons_of_pos (beq_iff_eq.mpr hu)
    rw [hsplit, List.countP_append, hcount] at hone
    have hpos : 0 < (l₁ ++ l₂).countP fun t => t.key == key :=
      List.countP_pos_iff.mpr ⟨t, hrest, hkey⟩
    rw [List.countP_append] at hpos
    omega
  · rw [hsame] at ht
    exact hnone t ht (eq_of_beq hkey)

theorem keepsOthers_of_careful {h : VtagHistory} {e : VtagEvent} (hok : h.Careful e) :
    h.KeepsOthers e := by
  cases e with
  | add key time => exact ⟨entries_add h.info key time, fun _ habs => nomatch habs⟩
  | delete key =>
    refine ⟨entries_delete h.info key, fun key' heq => ?_⟩
    obtain rfl := VtagEvent.delete.inj heq
    exact isInTimewait_delete hok.1 hok.2
  | query key => exact ⟨entries_query h.info key, fun _ habs => nomatch habs⟩
  | tick seconds => exact ⟨fun _ => rfl, fun _ habs => nomatch habs⟩
  | asocs asocs => exact ⟨fun _ => rfl, fun _ habs => nomatch habs⟩

/-- Along a careful run no verification tag in use is good, no entry is lost to another triple before it has
expired, and a deleted triple is not found. -/
theorem vtagRun_guarded {h h' : VtagHistory} {es : List VtagEvent} (hempty : h.pending = [])
    (hok : Trace.Along step Careful h es) (hrun : Trace.run step h es = some h') :
    h'.Guarded ∧ Trace.Along step KeepsOthers h es := by
  have hentered : h.Entered := by
    intro key expire hin _
    rw [hempty] at hin
    exact (List.not_mem_nil hin).elim
  constructor
  · exact (Trace.run_invariant Entered (fun _ _ _ hh he hs => hh.step he hs) hentered hok hrun).guarded
  · exact hok.mono fun _ _ he => keepsOthers_of_careful he

def startup : VtagHistory where
  info :=
    { now := 100
      vtagTimewait := fun _ => []
      asocs := [⟨⟨7, 5001, 5002⟩, false⟩]
      hashasocmark := 31 }
  pending := []

/-- A tag is put into time-wait and outlives another one on its chain. -/
def timewaitRun : List VtagEvent :=
  [.add ⟨1, 5001, 5002⟩ 60, .add ⟨33, 5001, 5002⟩ 10, .tick 20, .query ⟨33, 5001, 5002⟩,
    .delete ⟨33, 5001, 5002⟩]

theorem timewaitRun_guarded : ∃ h, Trace.run step startup timewaitRun = some h ∧
    (h.info.isVtagGood ⟨1, 5001, 5002⟩).2 = false := by
  have hok : Trace.Along step Careful startup timewaitRun := by decide +kernel
  cases hrun : Trace.run step startup timewaitRun with
  | none => cases hrun
  | some h =>
    have hpending : (Trace.run step startup timewaitRun).map VtagHistory.pending =
        some [(⟨1, 5001, 5002⟩, 160)] := by
      decide +kernel
    have hnow : (Trace.run step startup timewaitRun).map (fun h => h.info.now) = some 120 := by
      decide +kernel
    rw [hrun] at hpending hnow
    refine ⟨h, rfl, (vtagRun_guarded rfl hok hrun).1 _ (Or.inr ⟨160, ?_, ?_⟩)⟩
    · rw [Option.some.inj hpending]
      exact List.mem_cons_self
    · have hclock : h.info.now = 120 := Option.some.inj hnow
      rw [hclock]
      decide

def twiceRun : List VtagEvent :=
  [.add ⟨1, 5001, 5002⟩ 60, .add ⟨1, 5001, 5002⟩ 60, .delete ⟨1, 5001, 5002⟩]

/-- A time-out that does not end within a word of seconds. -/
def longRun : List VtagEvent := [.add ⟨1, 5001, 5002⟩ 0xffffffff]

/-- The delete leaves the second entry, and the long time-out is over at once. -/
theorem twiceRun_longRun_not_guarded :
    ¬ Trace.Along step KeepsOthers startup twiceRun ∧
      ∀ h ∈ Trace.run step startup longRun, ¬ h.Guarded := by
  constructor
  · rintro ⟨_, hrun⟩
    have hdelete := ((hrun _ rfl).2 _ rfl).1.2 ⟨1, 5001, 5002⟩ rfl
    revert hdelete
    decide +kernel
  · rintro h hrun hguarded
    obtain rfl := Option.some.inj hrun
    have huse := hguarded ⟨1, 5001, 5002⟩ (Or.inr ⟨100 + 0xffffffff, List.mem_cons_self, by decide⟩)
    revert huse
    decide +kernel

end VtagHistory

end Sctp.Timewait
