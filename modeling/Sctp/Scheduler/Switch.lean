import Sctp.Scheduler.Returns

/-! A change of the scheduler: `sctp_ss_clear` of the old one without `clear_values`, then
`sctp_ss_init` of the new one. The schedulers take a record whose links are not null for one that is
queued; here are the records for which that is wrong. -/
namespace Sctp
open SsData

/-- The state of an association with the records that are on no list though their links are not
null. -/
structure SsLinks where
  /-- `stream_scheduling_module` -/
  discipline : Discipline
  ss : SsData
  strayStream : StreamNo → Bool
  strayMsg : StreamNo × ℕ → Bool

def streams (streamoutcnt : StreamNo) : List StreamNo :=
  (List.range streamoutcnt.toNat).map (BitVec.ofNat 16)

def noMessage : Waiting := { id := 0, length := 0 }

namespace SsLinks

/-- A new association. `sctp_ss_fcfs_init_stream` leaves the links as the allocated memory has
them. -/
def start (d : Discipline) (streamoutcnt : StreamNo) (garbage : StreamNo → Bool) : SsLinks where
  discipline := d
  ss := SsData.init
  strayStream i := d == .fcfs && decide (i < streamoutcnt) && garbage i
  strayMsg _ := false

/-- The links that the scheduler looks at are left from something else. -/
def stray (l : SsLinks) (i : StreamNo) (m : Waiting) : Bool :=
  match l.discipline with
  | .fcfs => l.strayMsg (i, m.id)
  | _ => l.strayStream i

def addToStream (l : SsLinks) (i : StreamNo) (m : Waiting) : SsLinks :=
  if l.stray i m then l else { l with ss := (ssFunctions l.discipline).addToStream l.ss i m }

/-- `none`: a record is unlinked from a list that it is not on. -/
def removeFromStream (l : SsLinks) (i : StreamNo) (m : Waiting) : Option SsLinks :=
  if l.stray i m ∧ (l.discipline = .fcfs ∨ l.ss.outqueue i = []) then none
  else some { l with ss := (ssFunctions l.discipline).removeFromStream l.ss i m }

/-- The functions that read the links of `last_out_stream`. -/
def readsLast (l : SsLinks) : Bool :=
  match l.discipline with
  | .default | .roundRobin | .priority => true
  | .fairBandwidth => l.ss.wheel.head? ≠ l.ss.wheel.getLast?
  | .roundRobinPacket | .fcfs => false

def selectStream (cmtOnOff fuel : ℕ) (l : SsLinks) (net : Option NetId) :
    Option (Option StreamNo) :=
  if l.readsLast ∧ l.ss.lastOutStream.any l.strayStream then none
  else (ssFunctions l.discipline).selectStream cmtOnOff fuel l.ss net

def packetDone (cmtOnOff fuel : ℕ) (l : SsLinks) (net : Option NetId) : Option SsLinks :=
  if l.discipline = .roundRobinPacket ∧ l.ss.lastOutStream.any l.strayStream then none
  else
    ((ssFunctions l.discipline).packetDone cmtOnOff fuel l.ss net).map fun ss => { l with ss := ss }

def setValue (l : SsLinks) (i : StreamNo) (value : ℕ) : Option SsLinks :=
  match l.discipline with
  | .priority =>
    let l := { l with ss.priority := Function.update l.ss.priority i value }
    (l.removeFromStream i noMessage).map fun l => l.addToStream i noMessage
  | _ => some l

def dropHead (l : SsLinks) (i : StreamNo) : Option SsLinks :=
  match l.ss.outqueue i with
  | [] => some l
  | m :: rest => { l with ss := l.ss.setOutqueue i rest }.removeFromStream i m

def dropHeads (i : StreamNo) : ℕ → SsLinks → Option SsLinks
  | 0, l => some l
  | k + 1, l => (l.dropHead i).bind (dropHeads i k)

end SsLinks

open SsLinks

/-- `ssStep` for schedulers that look at the links. A new message has null links. -/
def ssCall (streamoutcnt : StreamNo) (cmtOnOff fuel : ℕ) (l : SsLinks) : SsCall → Option SsLinks
  | .queued i m =>
    if m.id ∈ (l.ss.outqueue i).map Waiting.id ∨ ¬ i < streamoutcnt then none
    else
      let l := { l with
        ss := l.ss.setOutqueue i (l.ss.outqueue i ++ [m])
        strayMsg := Function.update l.strayMsg (i, m.id) false }
      some (l.addToStream i m)
  | .appended i n =>
    some { l with
      ss := l.ss.setOutqueue i
        ((l.ss.outqueue i).modifyLast fun m => { m with length := m.length + n }) }
  | .moved i dropped n finished =>
    if n = 0 then l.dropHeads i dropped
    else if (l.ss.outqueue i).length ≤ dropped then none
    else
      (l.dropHeads i dropped).bind fun l =>
        let l := { l with ss := l.ss.take i n }
        (if finished then l.dropHead i else some l).map fun l =>
          { l with ss := (ssFunctions l.discipline).scheduled l.ss i }
  | .packetDone net => l.packetDone cmtOnOff fuel net
  | .setValue i value => l.setValue i value

/-- `sctp_ss_clear` without `clear_values`. `sctp_ss_fcfs_clear` does nothing then. -/
def ssClear (l : SsLinks) : SsLinks :=
  match l.discipline with
  | .fcfs => l
  | _ => { l with ss.wheel := [], ss.lastOutStream := none }

local instance lawfulBEq_streamNo : LawfulBEq StreamNo := inferInstance

local instance lawfulBEq_message : LawfulBEq (StreamNo × ℕ) := inferInstance

/-- `TAILQ_INIT` of the head that the wheel and the list share: the members lose their list and keep
their links. -/
def SsLinks.forget (l : SsLinks) : SsLinks where
  discipline := l.discipline
  ss := { l.ss with wheel := [], outList := [] }
  strayStream i := l.strayStream i || decide (i ∈ l.ss.wheel)
  strayMsg m := l.strayMsg m || decide (m ∈ l.ss.outList)

def ssDefaultInit (streamoutcnt : StreamNo) (l : SsLinks) : SsLinks :=
  (streams streamoutcnt).foldl (fun l i => l.addToStream i noMessage) l.forget

/-- Put the `n`th message of the stream on the list; the flag is `add_more`. -/
def fcfsVisit (n : ℕ) (r : SsLinks × Bool) (i : StreamNo) : SsLinks × Bool :=
  match (r.1.ss.outqueue i)[n]? with
  | some sp => (r.1.addToStream i sp, true)
  | none => r

def fcfsRound (n : ℕ) (is : List StreamNo) (l : SsLinks) : SsLinks × Bool :=
  is.foldl (fcfsVisit n) (l, false)

def fcfsLoop (streamoutcnt : StreamNo) : ℕ → ℕ → SsLinks → Option SsLinks
  | 0, _, _ => none
  | fuel + 1, n, l =>
    match fcfsRound n (streams streamoutcnt) l with
    | (l, true) => fcfsLoop streamoutcnt fuel (n + 1) l
    | (l, false) => some l

def ssFcfsInit (streamoutcnt : StreamNo) (fuel : ℕ) (l : SsLinks) : Option SsLinks :=
  fcfsLoop streamoutcnt fuel 0 l.forget

def ssInit (streamoutcnt : StreamNo) (fuel : ℕ) (l : SsLinks) : Option SsLinks :=
  match l.discipline with
  | .fcfs => ssFcfsInit streamoutcnt fuel l
  | _ => some (ssDefaultInit streamoutcnt l)

/-- The schedulers keep `priority` and `rounds` in the same memory: the new one finds there what the
old one has left. -/
def ssSwitch (streamoutcnt : StreamNo) (fuel : ℕ) (l : SsLinks) (d : Discipline)
    (priority : StreamNo → ℕ) (rounds : StreamNo → ℤ) : Option SsLinks :=
  ssInit streamoutcnt fuel
    { ssClear l with discipline := d, ss.priority := priority, ss.rounds := rounds }

inductive SsEvent where
  | call (c : SsCall)
  | switch (d : Discipline) (priority : StreamNo → ℕ) (rounds : StreamNo → ℤ)

def ssEvent (streamoutcnt : StreamNo) (cmtOnOff fuel : ℕ) (l : SsLinks) : SsEvent → Option SsLinks
  | .call c => ssCall streamoutcnt cmtOnOff fuel l c
  | .switch d priority rounds => ssSwitch streamoutcnt fuel l d priority rounds

/-- The run of an association that begins with scheduler `d`. -/
def ssHistory (d : Discipline) (streamoutcnt : StreamNo) (garbage : StreamNo → Bool)
    (cmtOnOff fuel : ℕ) : List SsEvent → Option SsLinks :=
  Trace.run (ssEvent streamoutcnt cmtOnOff fuel) (SsLinks.start d streamoutcnt garbage)

section Drain

variable (streamoutcnt : StreamNo) (cmtOnOff fuel : ℕ) (net : Option NetId)

/-- `sctp_move_to_outqueue` takes all of a message. One without data is only taken off its queue. -/
def wholeMessage (i : StreamNo) (m : Waiting) : SsCall :=
  if m.length = 0 then .moved i 1 0 false else .moved i 0 m.length true

/-- Choose a stream and send its first message. -/
def visit (l : SsLinks) : Option (List (StreamNo × ℕ) × SsLinks) :=
  (l.selectStream cmtOnOff fuel net).bind fun strq =>
    match strq with
    | none => some ([], l)
    | some i =>
      match l.ss.outqueue i with
      | [] => some ([], l)
      | m :: _ =>
        (ssCall streamoutcnt cmtOnOff fuel l (wholeMessage i m)).map fun l => ([(i, m.id)], l)

/-- A packet with room for so many messages. -/
def drainPacket : ℕ → SsLinks → Option (List (StreamNo × ℕ) × SsLinks)
  | 0, l => (ssCall streamoutcnt cmtOnOff fuel l (.packetDone net)).map fun l => ([], l)
  | room + 1, l =>
    (visit streamoutcnt cmtOnOff fuel net l).bind fun r =>
      (drainPacket room r.2).map fun r' => (r.1 ++ r'.1, r'.2)

def drain : List ℕ → SsLinks → Option (List (StreamNo × ℕ) × SsLinks)
  | [], l => some ([], l)
  | room :: rooms, l =>
    (drainPacket streamoutcnt cmtOnOff fuel net room l).bind fun r =>
      (drain rooms r.2).map fun r' => (r.1 ++ r'.1, r'.2)

end Drain

def ofStream (i : StreamNo) (l : List (StreamNo × ℕ)) : List ℕ :=
  (l.filter fun m => m.1 = i).map Prod.snd

def SsData.ids (s : SsData) (i : StreamNo) : List ℕ := (s.outqueue i).map Waiting.id

def SsData.waiting (s : SsData) (streamoutcnt : StreamNo) : ℕ :=
  ((streams streamoutcnt).map fun i => (s.outqueue i).length).sum

/-- The links tell whether a record is queued. -/
def NoStray (l : SsLinks) : Prop :=
  match l.discipline with
  | .fcfs => ∀ i, ∀ m ∈ l.ss.ids i, l.strayMsg (i, m) = false
  | _ => ∀ i, l.strayStream i = false

/-- No message is lost: each is on the structure of the scheduler, which no stale link disturbs, and
any row of long enough packets to destinations that take every message has each message once. -/
structure KeepsAll (streamoutcnt : StreamNo) (l : SsLinks) : Prop where
  once : WaitsOnce l.discipline l.ss
  order : l.discipline = .fcfs → ∀ i, ofStream i l.ss.outList = l.ss.ids i
  links : NoStray l
  drains : ∀ (cmtOnOff : ℕ) (net : Option NetId) (rooms : List ℕ), cmtOnOff ≠ 0 ∨ net = none →
    (∀ room ∈ rooms, 0 < room) → l.ss.waiting streamoutcnt < rooms.length →
    ∃ fuel msgs l', drain streamoutcnt cmtOnOff fuel net rooms l = some (msgs, l') ∧
      ∀ i, ofStream i msgs = l.ss.ids i

/-- What the new scheduler looks at is null: no waiting message is, or was at another time, on the
list of the first-come-first-served scheduler, or no stream has come with links into the memory of
the association. -/
def Unlinked (l : SsLinks) : Discipline → Prop
  | .fcfs => ∀ i, ∀ m ∈ l.ss.ids i, l.strayMsg (i, m) = false ∧ (i, m) ∉ l.ss.outList
  | _ => ∀ i, l.strayStream i = false

theorem mem_streams {streamoutcnt i : StreamNo} : i ∈ streams streamoutcnt ↔ i < streamoutcnt := by
  rw [streams, List.mem_map]
  constructor
  · rintro ⟨k, hk, rfl⟩
    have hk : k < streamoutcnt.toNat := List.mem_range.1 hk
    rw [BitVec.lt_def, BitVec.toNat_ofNat]
    omega
  · intro hi
    exact ⟨i.toNat, List.mem_range.2 (BitVec.lt_def.1 hi), BitVec.ofNat_toNat ..⟩

theorem nodup_streams (streamoutcnt : StreamNo) : (streams streamoutcnt).Nodup := by
  refine List.Nodup.map_on ?_ List.nodup_range
  intro a ha b hb hab
  have ha : a < streamoutcnt.toNat := List.mem_range.1 ha
  have hb : b < streamoutcnt.toNat := List.mem_range.1 hb
  have hab := congrArg BitVec.toNat hab
  simp only [BitVec.toNat_ofNat] at hab
  omega

theorem ofStream_append (i : StreamNo) (l l' : List (StreamNo × ℕ)) :
    ofStream i (l ++ l') = ofStream i l ++ ofStream i l' := by
  simp only [ofStream, List.filter_append, List.map_append]

theorem ofStream_singleton (i j : StreamNo) (m : ℕ) :
    ofStream i [(j, m)] = if j = i then [m] else [] := by
  by_cases hij : j = i
  · simp [ofStream, hij]
  · simp [ofStream, hij]

theorem mem_ofStream {i : StreamNo} {m : ℕ} {l : List (StreamNo × ℕ)} :
    m ∈ ofStream i l ↔ (i, m) ∈ l := by
  simp [ofStream]

/-- Lists of messages that have no message of a stream twice. -/
theorem nodup_of_ofStream {l : List (StreamNo × ℕ)} (h : ∀ i, (ofStream i l).Nodup) : l.Nodup := by
  induction l with
  | nil => exact List.nodup_nil
  | cons m l ih =>
    have hcons (i : StreamNo) : ofStream i (m :: l) = ofStream i [m] ++ ofStream i l :=
      ofStream_append i [m] l
    refine List.nodup_cons.2 ⟨fun hm => ?_, ih fun i => ?_⟩
    · have hfirst := h m.1
      rw [hcons, ofStream_singleton, if_pos rfl] at hfirst
      exact (List.nodup_cons.1 hfirst).1 (mem_ofStream.2 hm)
    · have hi := h i
      rw [hcons] at hi
      exact (List.nodup_append.1 hi).2.1

/-- The wheel and the list share their memory. -/
def Shared (d : Discipline) (s : SsData) : Prop :=
  match d with
  | .fcfs => s.wheel = []
  | _ => s.outList = []

namespace Shared

variable {d : Discipline} {s : SsData}

/-- A state with the same wheel and the same list. -/
theorem congr {t : SsData} (h : Shared d s) (hwheel : t.wheel = s.wheel)
    (hlist : t.outList = s.outList) : Shared d t := by
  cases d with
  | fcfs => exact hwheel.trans h
  | _ => exact hlist.trans h

theorem addToWheel {insert : StreamNo → List StreamNo → List StreamNo} (i : StreamNo)
    (h : s.outList = []) : (SsData.addToWheel insert s i).outList = [] := by
  unfold SsData.addToWheel
  split <;> exact h

theorem addToStream (h : Shared d s) (i : StreamNo) (m : Waiting) :
    Shared d ((ssFunctions d).addToStream s i m) := by
  cases d with
  | fcfs =>
    change (ssFcfsAdd s i m).wheel = []
    unfold ssFcfsAdd
    split <;> exact h
  | fairBandwidth =>
    change (ssFbAdd s i m).outList = []
    unfold ssFbAdd
    split
    · exact h
    · split <;> exact h
  | _ => exact addToWheel i h

theorem removeFromStream (h : Shared d s) (i : StreamNo) (m : Waiting) :
    Shared d ((ssFunctions d).removeFromStream s i m) := by
  cases d with
  | fcfs => exact h
  | _ =>
    change (ssDefaultRemove s i m).outList = []
    unfold ssDefaultRemove
    split <;> exact h

theorem dropHead (h : Shared d s) (i : StreamNo) : Shared d (s.dropHead d i) := by
  unfold SsData.dropHead
  split
  · exact h
  · rename_i m rest hq
    have hrest : Shared d (s.setOutqueue i rest) := h.congr rfl rfl
    exact hrest.removeFromStream i m

theorem dropHeads (i : StreamNo) (k : ℕ) (h : Shared d s) : Shared d (dropHeads d i k s) := by
  induction k generalizing s with
  | zero => exact h
  | succ k ih => exact ih (h.dropHead i)

theorem scheduled (h : Shared d s) (i : StreamNo) : Shared d ((ssFunctions d).scheduled s i) := by
  cases d <;> exact h

end Shared

namespace SsLinks

variable {l l' : SsLinks} {i : StreamNo}

theorem removeFromStream_eq_some {m : Waiting} (h : l.removeFromStream i m = some l') :
    l' = { l with ss := (ssFunctions l.discipline).removeFromStream l.ss i m } := by
  unfold removeFromStream at h
  split at h
  · cases h
  · exact (Option.some.inj h).symm

/-- A removal that goes through does what it does where the links tell who is queued. -/
theorem dropHead_eq_some (h : l.dropHead i = some l') :
    l' = { l with ss := l.ss.dropHead l.discipline i } := by
  unfold dropHead at h
  unfold SsData.dropHead
  cases hq : l.ss.outqueue i with
  | nil =>
    rw [hq] at h
    exact (Option.some.inj h).symm
  | cons m rest =>
    rw [hq] at h
    exact removeFromStream_eq_some h

theorem dropHeads_eq_some {k : ℕ} (h : l.dropHeads i k = some l') :
    l' = { l with ss := SsData.dropHeads l.discipline i k l.ss } := by
  induction k generalizing l with
  | zero => exact (Option.some.inj h).symm
  | succ k ih =>
    obtain ⟨l₁, h₁, h⟩ := Option.bind_eq_some_iff.1 h
    obtain rfl := dropHead_eq_some h₁
    exact ih h

end SsLinks

section Frame

variable {streamoutcnt : StreamNo} {cmtOnOff fuel : ℕ} {l l' : SsLinks}

theorem ssCall_moved {i : StreamNo} {dropped n : ℕ} {finished : Bool}
    (h : ssCall streamoutcnt cmtOnOff fuel l (.moved i dropped n finished) = some l') :
    ∃ ss, ssStep l.discipline cmtOnOff fuel l.ss (.moved i dropped n finished) = some ss ∧
      l' = { l with ss := ss } := by
  simp only [ssCall] at h
  simp only [ssStep]
  split at h
  · rename_i hn
    rw [if_pos hn]
    exact ⟨_, rfl, dropHeads_eq_some h⟩
  · rename_i hn
    rw [if_neg hn]
    split at h
    · cases h
    · rename_i hlen
      rw [if_neg hlen]
      obtain ⟨l₁, h₁, h⟩ := Option.bind_eq_some_iff.1 h
      obtain rfl := dropHeads_eq_some h₁
      obtain ⟨l₂, h₂, rfl⟩ := Option.map_eq_some_iff.1 h
      refine ⟨_, rfl, ?_⟩
      cases finished with
      | false =>
        obtain rfl := Option.some.inj h₂
        rfl
      | true =>
        obtain rfl := dropHead_eq_some h₂
        rfl

theorem ssCall_packetDone {net : Option NetId}
    (h : ssCall streamoutcnt cmtOnOff fuel l (.packetDone net) = some l') :
    ∃ ss, (ssFunctions l.discipline).packetDone cmtOnOff fuel l.ss net = some ss ∧
      l' = { l with ss := ss } := by
  have h : l.packetDone cmtOnOff fuel net = some l' := h
  unfold SsLinks.packetDone at h
  split at h
  · cases h
  · obtain ⟨ss, hss, rfl⟩ := Option.map_eq_some_iff.1 h
    exact ⟨ss, hss, rfl⟩

theorem packetDone_frame {d : Discipline} {s s' : SsData} {net : Option NetId}
    (h : (ssFunctions d).packetDone cmtOnOff fuel s net = some s') :
    s'.outqueue = s.outqueue ∧ s'.wheel = s.wheel ∧ s'.outList = s.outList ∧
      s'.rounds = s.rounds := by
  cases d with
  | roundRobinPacket =>
    obtain ⟨strq, -, rfl⟩ := Option.map_eq_some_iff.1 h
    exact ⟨rfl, rfl, rfl, rfl⟩
  | _ =>
    obtain rfl := Option.some.inj h
    exact ⟨rfl, rfl, rfl, rfl⟩

/-- What no call and no change of the scheduler breaks, whether or not messages have been lost. -/
structure Plain (streamoutcnt : StreamNo) (l : SsLinks) : Prop where
  inRange : ∀ i, l.ss.outqueue i ≠ [] → i < streamoutcnt
  ids : ∀ i, (l.ss.ids i).Nodup
  shared : Shared l.discipline l.ss

/-- A queue that does not grow. -/
theorem Plain.of_update (h : Plain streamoutcnt l) {i : StreamNo} {q : List Waiting} {s : SsData}
    (hq : (q.map Waiting.id).Sublist (l.ss.ids i))
    (hs : s.outqueue = Function.update l.ss.outqueue i q) (hshared : Shared l.discipline s) :
    Plain streamoutcnt { l with ss := s } where
  inRange j hj := by
    change s.outqueue j ≠ [] at hj
    apply h.inRange j
    by_cases hji : j = i
    · subst hji
      rw [hs, Function.update_self] at hj
      intro hnil
      rw [SsData.ids, hnil, List.map_nil, List.sublist_nil, List.map_eq_nil_iff] at hq
      exact hj hq
    · rwa [hs, Function.update_of_ne hji] at hj
  ids j := by
    change ((s.outqueue j).map Waiting.id).Nodup
    by_cases hji : j = i
    · subst hji
      rw [hs, Function.update_self]
      exact (h.ids j).sublist hq
    · rw [hs, Function.update_of_ne hji]
      exact h.ids j
  shared := hshared

def movedQueue (q : List Waiting) (dropped n : ℕ) (finished : Bool) : List Waiting :=
  if n = 0 then q.drop dropped else takenQueue q dropped n finished

theorem movedQueue_sublist (q : List Waiting) (dropped n : ℕ) (finished : Bool) :
    ((movedQueue q dropped n finished).map Waiting.id).Sublist (q.map Waiting.id) := by
  have hdrop : ((q.drop dropped).map Waiting.id).Sublist (q.map Waiting.id) :=
    (List.drop_sublist dropped q).map _
  unfold movedQueue takenQueue
  split
  · exact hdrop
  · split
    · exact ((List.tail_sublist _).map _).trans hdrop
    · have hids := map_id_modifyHead (q := q.drop dropped)
        (f := fun m => { m with length := m.length - n }) fun _ => rfl
      rw [hids]
      exact hdrop

theorem ssStep_moved {d : Discipline} {s s' : SsData} {i : StreamNo} {dropped n : ℕ}
    {finished : Bool} (h : ssStep d cmtOnOff fuel s (.moved i dropped n finished) = some s') :
    s'.outqueue = Function.update s.outqueue i (movedQueue (s.outqueue i) dropped n finished) ∧
      (Shared d s → Shared d s') := by
  simp only [ssStep] at h
  unfold movedQueue
  split at h
  · obtain rfl := Option.some.inj h
    rename_i hn
    rw [if_pos hn]
    exact ⟨dropHeads_outqueue d i dropped s, fun hs => hs.dropHeads i dropped⟩
  · rename_i hn
    rw [if_neg hn]
    split at h
    · cases h
    · obtain rfl := Option.some.inj h
      constructor
      · rw [← moved_outqueue d]
        cases d <;> rfl
      · intro hs
        have htake : Shared d ((SsData.dropHeads d i dropped s).take i n) :=
          (hs.dropHeads i dropped).congr rfl rfl
        refine Shared.scheduled ?_ i
        split
        · exact htake.dropHead i
        · exact htake

end Frame

section Events

variable {streamoutcnt : StreamNo} {cmtOnOff fuel : ℕ} {l l' : SsLinks}

theorem SsLinks.addToStream_outqueue (l : SsLinks) (i : StreamNo) (m : Waiting) :
    (l.addToStream i m).ss.outqueue = l.ss.outqueue := by
  unfold SsLinks.addToStream
  split
  · rfl
  · exact add_outqueue l.discipline l.ss i m

/-- A state that differs in nothing that `Plain` speaks of. -/
theorem Plain.congr (h : Plain streamoutcnt l) (hqueue : l'.ss.outqueue = l.ss.outqueue)
    (hshared : Shared l'.discipline l'.ss) : Plain streamoutcnt l' where
  inRange i hi := h.inRange i (hqueue ▸ hi)
  ids i := by
    rw [SsData.ids, hqueue]
    exact h.ids i
  shared := hshared

theorem Plain.addToStream (h : Plain streamoutcnt l) (i : StreamNo) (m : Waiting) :
    Plain streamoutcnt (l.addToStream i m) := by
  refine h.congr (l.addToStream_outqueue i m) ?_
  unfold SsLinks.addToStream
  split
  · exact h.shared
  · exact h.shared.addToStream i m

theorem Plain.start (d : Discipline) (streamoutcnt : StreamNo) (garbage : StreamNo → Bool) :
    Plain streamoutcnt (SsLinks.start d streamoutcnt garbage) where
  inRange _ hi := absurd rfl hi
  ids _ := List.nodup_nil
  shared := by cases d <;> rfl

theorem Plain.queued (h : Plain streamoutcnt l) {i : StreamNo} {m : Waiting}
    (hm : m.id ∉ (l.ss.outqueue i).map Waiting.id) (hi : i < streamoutcnt)
    (strayMsg : StreamNo × ℕ → Bool) :
    Plain streamoutcnt
      { l with ss := l.ss.setOutqueue i (l.ss.outqueue i ++ [m]), strayMsg := strayMsg } where
  inRange j hj := by
    by_cases hji : j = i
    · exact hji ▸ hi
    · apply h.inRange j
      rwa [← setOutqueue_ne l.ss (l.ss.outqueue i ++ [m]) hji]
  ids j := by
    rw [SsData.ids]
    by_cases hji : j = i
    · rw [hji, setOutqueue_same, List.map_append]
      refine List.nodup_append.2 ⟨h.ids i, List.nodup_singleton _, fun a ha b hb hab => hm ?_⟩
      rw [← List.mem_singleton.1 hb, ← hab]
      exact ha
    · rw [setOutqueue_ne _ _ hji]
      exact h.ids j
  shared := h.shared.congr rfl rfl

theorem Plain.setValue (h : Plain streamoutcnt l) {i : StreamNo} {value : ℕ}
    (hset : l.setValue i value = some l') : Plain streamoutcnt l' := by
  unfold SsLinks.setValue at hset
  split at hset
  · obtain ⟨l₁, h₁, rfl⟩ := Option.map_eq_some_iff.1 hset
    obtain rfl := removeFromStream_eq_some h₁
    refine Plain.addToStream ?_ i noMessage
    have hvalue : Shared l.discipline
        { l.ss with priority := Function.update l.ss.priority i value } := h.shared.congr rfl rfl
    refine h.congr ?_ (hvalue.removeFromStream i noMessage)
    rename_i hd
    simp only [hd]
    change (ssDefaultRemove _ i noMessage).outqueue = l.ss.outqueue
    unfold ssDefaultRemove
    split <;> rfl
  · obtain rfl := Option.some.inj hset
    exact h

theorem Plain.ssCall (h : Plain streamoutcnt l) {c : SsCall}
    (hcall : ssCall streamoutcnt cmtOnOff fuel l c = some l') : Plain streamoutcnt l' := by
  cases c with
  | queued i m =>
    simp only [Sctp.ssCall] at hcall
    split at hcall
    · cases hcall
    · rename_i hok
      rw [not_or, not_not] at hok
      obtain rfl := Option.some.inj hcall
      exact (h.queued hok.1 hok.2 _).addToStream i m
  | appended i n =>
    obtain rfl := Option.some.inj hcall
    have hids := map_id_modifyLast (q := l.ss.outqueue i)
      (f := fun m => { m with length := m.length + n }) fun _ => rfl
    refine h.of_update (i := i) ?_ rfl (h.shared.congr rfl rfl)
    rw [hids]
    exact List.Sublist.refl _
  | moved i dropped n finished =>
    obtain ⟨ss, hss, rfl⟩ := ssCall_moved hcall
    obtain ⟨hqueue, hshared⟩ := ssStep_moved hss
    exact h.of_update (movedQueue_sublist _ dropped n finished) hqueue (hshared h.shared)
  | packetDone net =>
    obtain ⟨ss, hss, rfl⟩ := ssCall_packetDone hcall
    obtain ⟨hqueue, hwheel, hlist, -⟩ := packetDone_frame hss
    exact h.congr hqueue (h.shared.congr hwheel hlist)
  | setValue i value => exact h.setValue hcall

end Events

section Init

variable {streamoutcnt : StreamNo} {l : SsLinks}

theorem addToStream_nil {d : Discipline} (hd : d ≠ .fcfs) {s : SsData} {i : StreamNo}
    (hq : s.outqueue i = []) (m : Waiting) : (ssFunctions d).addToStream s i m = s := by
  have hwheel (insert : StreamNo → List StreamNo → List StreamNo) :
      addToWheel insert s i = s := if_neg fun h => h.1 hq
  cases d with
  | fcfs => exact absurd rfl hd
  | fairBandwidth =>
    change ssFbAdd s i m = s
    rw [ssFbAdd, hq]
  | default => exact hwheel fun i l => l ++ [i]
  | _ => exact hwheel _

/-- Those of the streams that wait and have null links are on the wheel. -/
structure Gathered (l₀ : SsLinks) (done : List StreamNo) (l : SsLinks) : Prop where
  discipline : l.discipline = l₀.discipline
  strayStream : l.strayStream = l₀.strayStream
  outqueue : l.ss.outqueue = l₀.ss.outqueue
  last : l.ss.lastOutStream = l₀.ss.lastOutStream
  shared : Shared l.discipline l.ss
  nodup : l.ss.wheel.Nodup
  mem : ∀ i, i ∈ l.ss.wheel ↔ i ∈ done ∧ l₀.ss.outqueue i ≠ [] ∧ l₀.strayStream i = false
  rounds : l.discipline = .fairBandwidth → ∀ i ∈ l.ss.wheel, 0 ≤ l.ss.rounds i

theorem Gathered.add {l₀ : SsLinks} {done : List StreamNo} (hd : l₀.discipline ≠ .fcfs)
    (h : Gathered l₀ done l) (i : StreamNo) :
    Gathered l₀ (done ++ [i]) (l.addToStream i noMessage) := by
  have hd' : l.discipline ≠ .fcfs := h.discipline ▸ hd
  have hstray : l.stray i noMessage = l₀.strayStream i := by
    rw [← h.strayStream]
    unfold SsLinks.stray
    cases hl : l.discipline with
    | fcfs => exact absurd hl hd'
    | _ => rfl
  have hskip (hnot : ¬ (l₀.ss.outqueue i ≠ [] ∧ l₀.strayStream i = false)) :
      Gathered l₀ (done ++ [i]) l := by
    refine { h with mem := fun j => ?_ }
    rw [h.mem, List.mem_append, List.mem_singleton]
    constructor
    · exact fun hj => ⟨.inl hj.1, hj.2⟩
    · rintro ⟨hj | rfl, hj'⟩
      · exact ⟨hj, hj'⟩
      · exact absurd hj' hnot
  unfold SsLinks.addToStream
  by_cases hi : l.stray i noMessage
  · rw [if_pos hi]
    refine hskip fun hnot => ?_
    rw [hstray, hnot.2] at hi
    cases hi
  · rw [if_neg hi]
    by_cases hq : l.ss.outqueue i = []
    · rw [addToStream_nil hd' hq]
      exact hskip fun hnot => hnot.1 (h.outqueue ▸ hq)
    · have hadded : Added l.discipline l.ss _ i := add_added hd' (m := noMessage) hq
      have hfalse : l₀.strayStream i = false := by
        rw [← hstray]
        exact Bool.not_eq_true _ ▸ hi
      refine ⟨h.discipline, h.strayStream, hadded.outqueue.trans h.outqueue,
        hadded.last.trans h.last, h.shared.addToStream i noMessage, ?_, fun j => ?_,
        fun hfb => hadded.rounds hfb (h.rounds hfb)⟩
      · rw [hadded.perm.nodup_iff]
        split
        · exact h.nodup
        · rename_i hmem
          exact List.nodup_cons.2 ⟨hmem, h.nodup⟩
      · rw [hadded.mem_iff, h.mem, List.mem_append, List.mem_singleton]
        constructor
        · rintro (rfl | hj)
          · exact ⟨.inr rfl, h.outqueue ▸ hq, hfalse⟩
          · exact ⟨.inl hj.1, hj.2⟩
        · rintro ⟨hj | rfl, hj'⟩
          · exact .inr ⟨hj, hj'⟩
          · exact .inl rfl

theorem Gathered.foldl {l₀ : SsLinks} (hd : l₀.discipline ≠ .fcfs) (is : List StreamNo)
    {done : List StreamNo} (h : Gathered l₀ done l) :
    Gathered l₀ (done ++ is) (is.foldl (fun l i => l.addToStream i noMessage) l) := by
  induction is generalizing l done with
  | nil => rwa [List.append_nil]
  | cons i is ih =>
    have hall := ih (h.add hd i)
    rwa [List.append_assoc, List.singleton_append] at hall

theorem ssDefaultInit_gathered (hd : l.discipline ≠ .fcfs) (streamoutcnt : StreamNo) :
    Gathered l.forget (streams streamoutcnt) (ssDefaultInit streamoutcnt l) := by
  have hforget : Gathered l.forget [] l.forget := by
    refine ⟨rfl, rfl, rfl, rfl, ?_, List.nodup_nil, fun i => ?_, fun _ i hi => nomatch hi⟩
    · cases hl : l.forget.discipline <;> rfl
    · exact iff_of_false nofun fun hi => nomatch hi.1
  have hd : l.forget.discipline ≠ .fcfs := hd
  exact hforget.foldl hd (streams streamoutcnt)

/-- What the first-come-first-served list takes of the messages of a stream. -/
def unlinked (l : SsLinks) (i : StreamNo) (ms : List ℕ) : List ℕ :=
  ms.filter fun m => !l.strayMsg (i, m)

/-- So many messages of each stream have been put on the list. -/
structure Listed (l₀ : SsLinks) (k : StreamNo → ℕ) (l : SsLinks) : Prop where
  discipline : l.discipline = .fcfs
  strayMsg : l.strayMsg = l₀.strayMsg
  outqueue : l.ss.outqueue = l₀.ss.outqueue
  wheel : l.ss.wheel = []
  list : ∀ i, ofStream i l.ss.outList = unlinked l₀ i ((l₀.ss.ids i).take (k i))

theorem Listed.congr {l₀ : SsLinks} {k k' : StreamNo → ℕ} (h : Listed l₀ k l)
    (hk : ∀ i, (l₀.ss.ids i).take (k' i) = (l₀.ss.ids i).take (k i)) : Listed l₀ k' l :=
  { h with list := fun i => by rw [hk, h.list] }

theorem SsLinks.addToStream_fcfs (hd : l.discipline = .fcfs) (i : StreamNo) (m : Waiting) :
    l.addToStream i m =
      if l.strayMsg (i, m.id) then l
      else if (i, m.id) ∈ l.ss.outList then l
      else { l with ss := { l.ss with outList := l.ss.outList ++ [(i, m.id)] } } := by
  obtain ⟨d, s, strayStream, strayMsg⟩ := l
  obtain rfl : d = .fcfs := hd
  by_cases hs : strayMsg (i, m.id)
  · rw [if_pos hs]
    exact if_pos hs
  · rw [if_neg hs]
    refine (if_neg hs).trans ?_
    change SsLinks.mk .fcfs (ssFcfsAdd s i m) strayStream strayMsg = _
    unfold ssFcfsAdd
    split <;> rfl

/-- The next message of stream `i`. -/
theorem Listed.add {l₀ : SsLinks} {k : StreamNo → ℕ} (h : Listed l₀ k l) {i : StreamNo}
    (hids : (l₀.ss.ids i).Nodup) {sp : Waiting} (hsp : (l₀.ss.outqueue i)[k i]? = some sp) :
    Listed l₀ (Function.update k i (k i + 1)) (l.addToStream i sp) := by
  have hid : (l₀.ss.ids i)[k i]? = some sp.id := by
    rw [SsData.ids, List.getElem?_map, hsp, Option.map_some]
  have htake : (l₀.ss.ids i).take (k i + 1) = (l₀.ss.ids i).take (k i) ++ [sp.id] := by
    rw [List.take_add_one, hid, Option.toList_some]
  have hnew : (i, sp.id) ∉ l.ss.outList := by
    intro hin
    have hmem : sp.id ∈ (l₀.ss.ids i).take (k i) := by
      have hmem := mem_ofStream.2 hin
      rw [h.list] at hmem
      exact (List.mem_filter.1 hmem).1
    have hnd : ((l₀.ss.ids i).take (k i + 1)).Nodup := hids.sublist (List.take_sublist _ _)
    rw [htake] at hnd
    exact (List.nodup_append.1 hnd).2.2 sp.id hmem sp.id (List.mem_singleton_self _) rfl
  have hstray : l.strayMsg (i, sp.id) = l₀.strayMsg (i, sp.id) := by rw [h.strayMsg]
  rw [SsLinks.addToStream_fcfs h.discipline, hstray]
  by_cases hs : l₀.strayMsg (i, sp.id)
  · rw [if_pos hs]
    refine { h with list := fun j => ?_ }
    rw [h.list]
    by_cases hji : j = i
    · subst hji
      rw [Function.update_self, htake, unlinked, unlinked, List.filter_append]
      simp [hs]
    · rw [Function.update_of_ne hji]
  · rw [if_neg hs, if_neg hnew]
    refine ⟨h.discipline, h.strayMsg, h.outqueue, h.wheel, fun j => ?_⟩
    change ofStream j (l.ss.outList ++ [(i, sp.id)]) = _
    rw [ofStream_append, h.list, ofStream_singleton]
    by_cases hji : i = j
    · subst hji
      rw [Function.update_self, htake, unlinked, unlinked, List.filter_append, if_pos rfl]
      simp [hs]
    · rw [Function.update_of_ne (Ne.symm hji), if_neg hji, List.append_nil]

/-- In a round, the streams that have been looked at are one message ahead. -/
theorem foldl_fcfsVisit {l₀ : SsLinks} (hids : ∀ i, (l₀.ss.ids i).Nodup) (n : ℕ)
    {is : List StreamNo} (hnd : is.Nodup) {k : StreamNo → ℕ} (hk : ∀ i ∈ is, k i = n)
    (more : Bool) (h : Listed l₀ k l) :
    Listed l₀ (fun i => if i ∈ is then n + 1 else k i) (is.foldl (fcfsVisit n) (l, more)).1 ∧
      ((is.foldl (fcfsVisit n) (l, more)).2 = true ↔
        more = true ∨ ∃ i ∈ is, n < (l₀.ss.outqueue i).length) := by
  induction is generalizing l k more with
  | nil =>
    refine ⟨h.congr fun i => by rw [if_neg List.not_mem_nil], ?_⟩
    simp
  | cons i is ih =>
    obtain ⟨hi, hnd⟩ := List.nodup_cons.1 hnd
    have hki : k i = n := hk i List.mem_cons_self
    rw [List.foldl_cons, fcfsVisit, h.outqueue]
    cases hsp : (l₀.ss.outqueue i)[n]? with
    | none =>
      have hlen : (l₀.ss.outqueue i).length ≤ n := List.getElem?_eq_none_iff.1 hsp
      obtain ⟨hlisted, hmore⟩ := ih hnd (fun j hj => hk j (List.mem_cons_of_mem i hj)) more h
      refine ⟨hlisted.congr fun j => ?_, hmore.trans ?_⟩
      · by_cases hji : j = i
        · subst hji
          have hids : (l₀.ss.ids j).length ≤ n := by rwa [SsData.ids, List.length_map]
          rw [if_pos List.mem_cons_self, if_neg hi, hki, List.take_of_length_le hids,
            List.take_of_length_le (hids.trans n.le_succ)]
        · simp only [List.mem_cons, hji, false_or]
      · simp only [List.exists_mem_cons_iff, hlen.not_gt, false_or]
    | some sp =>
      have hlt : n < (l₀.ss.outqueue i).length := (List.getElem?_eq_some_iff.1 hsp).1
      have hadd := h.add (hids i) (hki ▸ hsp)
      have hk' (j : StreamNo) (hj : j ∈ is) : Function.update k i (k i + 1) j = n := by
        rw [Function.update_of_ne (ne_of_mem_of_not_mem hj hi)]
        exact hk j (List.mem_cons_of_mem i hj)
      obtain ⟨hlisted, hmore⟩ := ih hnd hk' true hadd
      refine ⟨hlisted.congr fun j => ?_, hmore.trans ?_⟩
      · by_cases hji : j = i
        · subst hji
          rw [if_pos List.mem_cons_self, if_neg hi, Function.update_self, hki]
        · simp only [List.mem_cons, hji, false_or, Function.update_of_ne hji]
      · simp only [true_or, List.exists_mem_cons_iff, hlt, or_true]

variable {streamoutcnt : StreamNo}

theorem fcfsRound_listed {l₀ : SsLinks} (h₀ : Plain streamoutcnt l₀) {n : ℕ}
    (h : Listed l₀ (fun _ => n) l) :
    Listed l₀ (fun _ => n + 1) (fcfsRound n (streams streamoutcnt) l).1 ∧
      ((fcfsRound n (streams streamoutcnt) l).2 = true ↔
        ∃ i, n < (l₀.ss.outqueue i).length) := by
  have hstream {i : StreamNo} (hi : l₀.ss.outqueue i ≠ []) : i ∈ streams streamoutcnt :=
    mem_streams.2 (h₀.inRange i hi)
  obtain ⟨hlisted, hmore⟩ :=
    foldl_fcfsVisit h₀.ids n (nodup_streams streamoutcnt) (fun _ _ => rfl) false h
  refine ⟨hlisted.congr fun i => ?_, hmore.trans ?_⟩
  · by_cases hi : i ∈ streams streamoutcnt
    · rw [if_pos hi]
    · have hnil : l₀.ss.outqueue i = [] := by
        by_contra hne
        exact hi (hstream hne)
      rw [SsData.ids, hnil, List.map_nil, List.take_nil, List.take_nil]
  · constructor
    · rintro (hfalse | ⟨i, -, hi⟩)
      · cases hfalse
      · exact ⟨i, hi⟩
    · rintro ⟨i, hi⟩
      exact .inr ⟨i, hstream (List.ne_nil_of_length_pos (by omega)), hi⟩

/-- The whole of each queue is on the list behind the loop. -/
structure AllListed (l₀ l : SsLinks) : Prop where
  discipline : l.discipline = .fcfs
  strayMsg : l.strayMsg = l₀.strayMsg
  outqueue : l.ss.outqueue = l₀.ss.outqueue
  wheel : l.ss.wheel = []
  list : ∀ i, ofStream i l.ss.outList = unlinked l₀ i (l₀.ss.ids i)

theorem fcfsLoop_listed {l₀ : SsLinks} (h₀ : Plain streamoutcnt l₀) {fuel n : ℕ} {l' : SsLinks}
    (h : Listed l₀ (fun _ => n) l) (hloop : fcfsLoop streamoutcnt fuel n l = some l') :
    AllListed l₀ l' := by
  induction fuel generalizing n l with
  | zero => cases hloop
  | succ fuel ih =>
    obtain ⟨hlisted, hmore⟩ := fcfsRound_listed h₀ h
    unfold fcfsLoop at hloop
    cases hround : fcfsRound n (streams streamoutcnt) l with
    | mk l₁ more =>
      rw [hround] at hloop hlisted hmore
      cases more with
      | true => exact ih hlisted hloop
      | false =>
        obtain rfl := Option.some.inj hloop
        refine ⟨hlisted.discipline, hlisted.strayMsg, hlisted.outqueue, hlisted.wheel, fun i => ?_⟩
        have hlen : (l₀.ss.ids i).length ≤ n + 1 := by
          by_contra hlt
          rw [SsData.ids, List.length_map] at hlt
          exact absurd (hmore.2 ⟨i, by omega⟩) nofun
        rw [hlisted.list, List.take_of_length_le hlen]

theorem fcfsLoop_isSome {l₀ : SsLinks} (h₀ : Plain streamoutcnt l₀) {n rest : ℕ}
    (hrest : ∀ i, (l₀.ss.outqueue i).length ≤ n + rest) (h : Listed l₀ (fun _ => n) l) :
    (fcfsLoop streamoutcnt (rest + 1) n l).isSome := by
  induction rest generalizing n l with
  | zero =>
    obtain ⟨-, hmore⟩ := fcfsRound_listed h₀ h
    unfold fcfsLoop
    cases hround : fcfsRound n (streams streamoutcnt) l with
    | mk l₁ more =>
      rw [hround] at hmore
      cases more with
      | true =>
        obtain ⟨i, hi⟩ := hmore.1 rfl
        exact absurd (hrest i) (by omega)
      | false => rfl
  | succ rest ih =>
    obtain ⟨hlisted, hmore⟩ := fcfsRound_listed h₀ h
    unfold fcfsLoop
    cases hround : fcfsRound n (streams streamoutcnt) l with
    | mk l₁ more =>
      rw [hround] at hlisted
      cases more with
      | true => exact ih (fun i => (hrest i).trans (by omega)) hlisted
      | false => rfl

end Init

section Select

variable {d : Discipline} {cmtOnOff : ℕ} {net : Option NetId} {s : SsData}

theorem blocked_of_free (hfree : cmtOnOff ≠ 0 ∨ net = none) (s : SsData) (i : StreamNo) :
    blocked cmtOnOff net s i = false := by
  unfold blocked
  split
  · obtain hcmt | hnet := hfree
    · simp [hcmt]
    · cases hnet
  · rfl

theorem sendable_of_free (hfree : cmtOnOff ≠ 0 ∨ net = none) {i : StreamNo}
    (hq : s.outqueue i ≠ []) : Sendable cmtOnOff net s i := by
  obtain ⟨m, rest, hm⟩ := List.exists_cons_of_ne_nil hq
  refine ⟨m, by rw [hm, List.head?_cons]; rfl, ?_⟩
  obtain hcmt | hnet := hfree
  · exact .inl hcmt
  · exact .inr (.inl hnet)

theorem nextStream_of_free (hfree : cmtOnOff ≠ 0 ∨ net = none) (fuel : ℕ) (s : SsData) :
    nextStream cmtOnOff (fuel + 1) s net =
      some (Ring.around (fun _ _ => true) s.wheel s.lastOutStream) :=
  Ring.scan_of_forall (fun i => by rw [blocked_of_free hfree]; rfl) fuel _

theorem ssPrioSelect_of_free (hfree : cmtOnOff ≠ 0 ∨ net = none) (fuel : ℕ) (s : SsData) :
    ssPrioSelect cmtOnOff (fuel + 1) s net =
      some (Ring.around (fun a b => s.priority b == s.priority a) s.wheel s.lastOutStream) :=
  Ring.scan_of_forall (fun i => by rw [blocked_of_free hfree]; rfl) fuel _

theorem fbScan_succ {fuel : ℕ} {strqt strq : Option StreamNo} {r : Option StreamNo}
    (h : fbScan cmtOnOff s net fuel strqt strq = some r) :
    fbScan cmtOnOff s net (fuel + 1) strqt strq = some r := by
  induction fuel generalizing strqt strq with
  | zero => cases h
  | succ fuel ih =>
    rw [fbScan] at h ⊢
    split at h
    · rename_i hend
      rw [if_pos hend]
      exact h
    · rename_i hend
      rw [if_neg hend]
      exact ih h

theorem fbScan_of_le {fuel fuel' : ℕ} (hle : fuel ≤ fuel') {strqt strq : Option StreamNo}
    {r : Option StreamNo} (h : fbScan cmtOnOff s net fuel strqt strq = some r) :
    fbScan cmtOnOff s net fuel' strqt strq = some r := by
  induction hle with
  | refl => exact h
  | step _ ih => exact fbScan_succ ih

theorem fbScan_mem {fuel : ℕ} {strqt strq : Option StreamNo} {i : StreamNo}
    (hstrqt : ∀ j ∈ strqt, j ∈ s.wheel) (hstrq : ∀ j ∈ strq, j ∈ s.wheel)
    (h : fbScan cmtOnOff s net fuel strqt strq = some (some i)) : i ∈ s.wheel := by
  induction fuel generalizing strqt strq with
  | zero => cases h
  | succ fuel ih =>
    have hbest : ∀ j ∈ fbBetter cmtOnOff s net strqt strq, j ∈ s.wheel := by
      intro j hj
      obtain hsame | ⟨k, hk, hbetter, -⟩ := fbBetter_cases cmtOnOff s net strqt strq
      · exact hstrq j (hsame ▸ hj)
      · rw [hbetter] at hj
        exact hstrqt j (hk ▸ hj)
    have hnext : ∀ j ∈ fbNext s strqt, j ∈ s.wheel := by
      intro j hj
      rw [fbNext_eq_lap] at hj
      exact Ring.lap_mem hj
    simp only [fbScan] at h
    split at h
    · exact hbest i (Option.some.inj h)
    · exact ih hnext hbest h

theorem fbSeen_ne_nil (h : s.wheel ≠ []) : fbSeen s ≠ [] := by
  unfold fbSeen
  split
  · exact h
  · split
    · exact h
    · rename_i hbehind
      exact fun hnil => hbehind (.inr hnil)

theorem fbSeen_subset : fbSeen s ⊆ s.wheel := by
  unfold fbSeen
  split
  · exact List.Subset.refl _
  · split
    · exact List.Subset.refl _
    · exact (Ring.behind_suffix _ _).subset

theorem fcfsScan_mem {l : List (StreamNo × ℕ)} {i : StreamNo}
    (h : fcfsScan cmtOnOff s net l = some i) : ∃ m, (i, m) ∈ l := by
  induction l with
  | nil => cases h
  | cons sp l ih =>
    rw [fcfsScan] at h
    split at h
    · obtain ⟨m, hm⟩ := ih h
      exact ⟨m, List.mem_cons_of_mem sp hm⟩
    · obtain rfl := Option.some.inj h
      exact ⟨sp.2, List.mem_cons_self⟩

def Charged (d : Discipline) (s : SsData) : Prop :=
  d = .fairBandwidth → ∀ i ∈ s.wheel, 0 ≤ s.rounds i

/-- The discipline has chosen its stream already where it does not look for one. -/
def Chosen (d : Discipline) (s : SsData) : Prop :=
  d = .roundRobinPacket → (∃ i, s.outqueue i ≠ []) → ∃ i ∈ s.lastOutStream, i ∈ s.wheel

theorem wheel_ne_nil (h : WheelOnce s) {i : StreamNo} (hi : s.outqueue i ≠ []) : s.wheel ≠ [] :=
  List.ne_nil_of_mem ((h.waits i).2 hi)

theorem around_found {joined : StreamNo → StreamNo → Bool} (h : WheelOnce s)
    (hwaits : ∃ i, s.outqueue i ≠ []) :
    ∃ i, Ring.around joined s.wheel s.lastOutStream = some i ∧ s.outqueue i ≠ [] := by
  obtain ⟨j, hj⟩ := hwaits
  cases haround : Ring.around joined s.wheel s.lastOutStream with
  | none => exact absurd (Ring.around_eq_none haround) (wheel_ne_nil h hj)
  | some i => exact ⟨i, rfl, (h.waits i).1 (Ring.around_mem haround)⟩

/-- Where nothing is bound to another destination, a waiting stream is found. -/
theorem selectStream_found (hfree : cmtOnOff ≠ 0 ∨ net = none) (h : SsOnce d s)
    (hcharged : Charged d s) :
    ∃ fuel strq, (∀ fuel' ≥ fuel, (ssFunctions d).selectStream cmtOnOff fuel' s net = some strq) ∧
      (Chosen d s → (∃ i, s.outqueue i ≠ []) → ∃ i ∈ strq, s.outqueue i ≠ []) := by
  cases d with
  | default | roundRobin =>
    have h : WheelOnce s := h
    refine ⟨1, Ring.around (fun _ _ => true) s.wheel s.lastOutStream, fun fuel hfuel => ?_,
      fun _ hwaits => around_found h hwaits⟩
    obtain ⟨fuel, rfl⟩ := Nat.exists_eq_add_of_le' hfuel
    exact nextStream_of_free hfree fuel s
  | roundRobinPacket =>
    have h : WheelOnce s := h
    refine ⟨0, s.lastOutStream, fun _ _ => rfl, fun hchosen hwaits => ?_⟩
    obtain ⟨i, hlast, hi⟩ := hchosen rfl hwaits
    exact ⟨i, hlast, (h.waits i).1 hi⟩
  | priority =>
    have h : WheelOnce s := h
    refine ⟨1, Ring.around (fun a b => s.priority b == s.priority a) s.wheel s.lastOutStream,
      fun fuel hfuel => ?_, fun _ hwaits => around_found h hwaits⟩
    obtain ⟨fuel, rfl⟩ := Nat.exists_eq_add_of_le' hfuel
    exact ssPrioSelect_of_free hfree fuel s
  | fairBandwidth =>
    have h : WheelOnce s := h
    obtain ⟨fuel, hfuel⟩ := @ssFbSelect_isSome cmtOnOff s net h.nodup
    obtain ⟨strq, hstrq⟩ := Option.isSome_iff_exists.1 hfuel
    refine ⟨fuel, strq, fun fuel' hle => fbScan_of_le hle hstrq, fun _ ⟨j, hj⟩ => ?_⟩
    cases strq with
    | none =>
      obtain ⟨k, hk⟩ := List.exists_mem_of_ne_nil _ (fbSeen_ne_nil (wheel_ne_nil h hj))
      have hsend := sendable_of_free (s := s) hfree ((h.waits k).1 (fbSeen_subset hk))
      exact absurd hsend (ssFbSelect_eq_none h.nodup (hcharged rfl) hstrq hk)
    | some i =>
      have hnone : ∀ j ∈ (none : Option StreamNo), j ∈ s.wheel := nofun
      exact ⟨i, rfl, (h.waits i).1 (fbScan_mem fbFirst_mem hnone hstrq)⟩
  | fcfs =>
    have h : ListOnce s := h
    refine ⟨0, _, fun _ _ => rfl, fun _ ⟨j, hj⟩ => ?_⟩
    cases hscan : fcfsScan cmtOnOff s net s.outList with
    | none =>
      obtain ⟨m, rest, hm⟩ := List.exists_cons_of_ne_nil hj
      have hin : (j, m.id) ∈ s.outList := by
        rw [h.waits, hm]
        exact List.mem_cons_self
      exact absurd (sendable_of_free hfree hj) (fcfsScan_eq_none hscan hin)
    | some i =>
      obtain ⟨m, hm⟩ := fcfsScan_mem hscan
      refine ⟨i, rfl, fun hnil => ?_⟩
      rw [h.waits, hnil] at hm
      cases hm

end Select

section Drain

variable {streamoutcnt : StreamNo} {cmtOnOff : ℕ} {net : Option NetId} {l : SsLinks}

/-- What a scheduler needs to bring all messages out. -/
structure Drainable (streamoutcnt : StreamNo) (l : SsLinks) : Prop where
  plain : Plain streamoutcnt l
  once : SsOnce l.discipline l.ss
  charged : Charged l.discipline l.ss
  links : NoStray l

theorem NoStray.congr (h : NoStray l) {s : SsData} (hids : ∀ i, s.ids i ⊆ l.ss.ids i) :
    NoStray { l with ss := s } := by
  obtain ⟨d, s₀, strayStream, strayMsg⟩ := l
  cases d with
  | fcfs => exact fun i m hm => h i m (hids i hm)
  | _ => exact h

theorem NoStray.stray_eq_false (h : NoStray l) {i : StreamNo} {m : Waiting}
    (hm : m.id ∈ l.ss.ids i) : l.stray i m = false := by
  obtain ⟨d, s₀, strayStream, strayMsg⟩ := l
  cases d with
  | fcfs => exact h i m.id hm
  | _ => exact h i

theorem NoStray.dropHead (h : NoStray l) (i : StreamNo) :
    l.dropHead i = some { l with ss := l.ss.dropHead l.discipline i } := by
  unfold SsLinks.dropHead SsData.dropHead
  cases hq : l.ss.outqueue i with
  | nil => rfl
  | cons m rest =>
    have hm : m.id ∈ l.ss.ids i := by
      rw [SsData.ids, hq, List.map_cons]
      exact List.mem_cons_self
    have hstray : l.stray i m = false := h.stray_eq_false hm
    refine if_neg fun hnot => ?_
    have htrue : l.stray i m = true := hnot.1
    rw [hstray] at htrue
    cases htrue

/-- Streams that are not on the wheel are not charged. -/
theorem Charged.dropHead {d : Discipline} {s : SsData} (h : Charged d s) (i : StreamNo) :
    Charged d (s.dropHead d i) := by
  intro hd j hj
  subst hd
  unfold SsData.dropHead at hj ⊢
  split at hj
  · exact h rfl j hj
  · rename_i m rest hq
    change j ∈ (ssDefaultRemove (s.setOutqueue i rest) i m).wheel at hj
    change 0 ≤ (ssDefaultRemove (s.setOutqueue i rest) i m).rounds j
    unfold ssDefaultRemove at hj ⊢
    split at hj
    · rename_i hi
      rw [if_pos hi]
      exact h rfl j (List.mem_of_mem_erase hj)
    · rename_i hi
      rw [if_neg hi]
      exact h rfl j hj

theorem Charged.scheduled {d : Discipline} {s : SsData} (h : Charged d s) (hs : SsOnce d s)
    (i : StreamNo) : Charged d ((ssFunctions d).scheduled s i) := by
  intro hd j hj
  subst hd
  have hs : WheelOnce s := hs
  have hj : j ∈ s.wheel := hj
  change 0 ≤ (ssFbScheduled s i).rounds j
  simp only [ssFbScheduled]
  by_cases hji : j = i
  · subst hji
    rw [Function.update_self]
    obtain ⟨m, rest, hm⟩ := List.exists_cons_of_ne_nil ((hs.waits j).1 hj)
    rw [hm]
    exact Int.natCast_nonneg _
  · rw [Function.update_of_ne hji, if_pos hj]
    exact le_max_right _ _

theorem ids_subset_of_update {s t : SsData} {i : StreamNo} {q : List Waiting}
    (hs : s.outqueue = Function.update t.outqueue i q) (hq : q.map Waiting.id ⊆ t.ids i)
    (j : StreamNo) : s.ids j ⊆ t.ids j := by
  by_cases hji : j = i
  · subst hji
    rwa [SsData.ids, hs, Function.update_self]
  · rw [SsData.ids, hs, Function.update_of_ne hji]
    exact List.Subset.refl _

/-- The first message of the stream goes out. -/
theorem Drainable.wholeMessage (h : Drainable streamoutcnt l) {i : StreamNo} {m : Waiting}
    {rest : List Waiting} (hq : l.ss.outqueue i = m :: rest) :
    ∃ s, (∀ fuel, ssCall streamoutcnt cmtOnOff fuel l (wholeMessage i m) =
        some { l with ss := s }) ∧
      Drainable streamoutcnt { l with ss := s } ∧
      s.outqueue = Function.update l.ss.outqueue i rest := by
  have hrest : rest.map Waiting.id ⊆ l.ss.ids i := by
    rw [SsData.ids, hq, List.map_cons]
    exact List.subset_cons_self _ _
  unfold Sctp.wholeMessage
  by_cases hm : m.length = 0
  · rw [if_pos hm]
    have hcall (fuel : ℕ) : ssCall streamoutcnt cmtOnOff fuel l (.moved i 1 0 false) =
        some { l with ss := l.ss.dropHead l.discipline i } := by
      change (l.dropHead i).bind _ = _
      rw [h.links.dropHead]
      rfl
    have hqueue : (l.ss.dropHead l.discipline i).outqueue =
        Function.update l.ss.outqueue i rest := by rw [dropHead_outqueue, hq, List.tail_cons]
    have hlinks := h.links.congr (ids_subset_of_update hqueue hrest)
    exact ⟨_, hcall, ⟨h.plain.ssCall (hcall 0), h.once.dropHeads i 1, h.charged.dropHead i, hlinks⟩,
      hqueue⟩
  · rw [if_neg hm]
    have htake : (l.ss.take i m.length).outqueue = Function.update l.ss.outqueue i
        ((l.ss.outqueue i).modifyHead fun w => { w with length := w.length - m.length }) := rfl
    have hids := map_id_modifyHead (q := l.ss.outqueue i)
      (f := fun w => { w with length := w.length - m.length }) fun _ => rfl
    have hstray : NoStray { l with ss := l.ss.take i m.length } :=
      h.links.congr (ids_subset_of_update htake (hids ▸ List.Subset.refl _))
    have hcall (fuel : ℕ) : ssCall streamoutcnt cmtOnOff fuel l (.moved i 0 m.length true) =
        some { l with
          ss := ((ssFunctions l.discipline).scheduled
            ((l.ss.take i m.length).dropHead l.discipline i) i) } := by
      have hlen : ¬ (l.ss.outqueue i).length ≤ 0 := by simp [hq]
      simp only [ssCall, if_neg hm, if_neg hlen, SsLinks.dropHeads, Option.bind_some, if_true]
      rw [hstray.dropHead]
      rfl
    have hqueue : ((ssFunctions l.discipline).scheduled
        ((l.ss.take i m.length).dropHead l.discipline i) i).outqueue =
        Function.update l.ss.outqueue i rest := by
      have hdrop : ((l.ss.take i m.length).dropHead l.discipline i).outqueue =
          Function.update l.ss.outqueue i rest := by
        rw [dropHead_outqueue, htake, Function.update_self, Function.update_idem, hq]
        rfl
      rw [← hdrop]
      cases l.discipline <;> rfl
    have honce : SsOnce l.discipline ((l.ss.take i m.length).dropHead l.discipline i) :=
      (h.once.setOutqueue hids).dropHeads i 1
    have hcharged : Charged l.discipline (l.ss.take i m.length) := h.charged
    exact ⟨_, hcall, ⟨h.plain.ssCall (hcall 0), honce.scheduled i,
      (hcharged.dropHead i).scheduled honce i,
      h.links.congr (ids_subset_of_update hqueue hrest)⟩, hqueue⟩

/-- The messages that have gone out are the first ones of their streams. -/
def Sent (l : SsLinks) (msgs : List (StreamNo × ℕ)) (l' : SsLinks) : Prop :=
  ∀ i, l.ss.ids i = ofStream i msgs ++ l'.ss.ids i

theorem Sent.refl (l : SsLinks) : Sent l [] l := fun _ => rfl

theorem Sent.trans {l' l'' : SsLinks} {msgs msgs' : List (StreamNo × ℕ)} (h : Sent l msgs l')
    (h' : Sent l' msgs' l'') : Sent l (msgs ++ msgs') l'' := by
  intro i
  rw [h, h', ofStream_append, List.append_assoc]

theorem NoStray.any_eq_false (h : NoStray l) (hd : l.discipline ≠ .fcfs) :
    l.ss.lastOutStream.any l.strayStream = false := by
  have hlinks : ∀ i, l.strayStream i = false := by
    unfold NoStray at h
    split at h
    · rename_i hfcfs
      exact absurd hfcfs hd
    · exact h
  rw [Option.any_eq_false]
  exact fun i _ => hlinks i

theorem NoStray.selectStream (h : NoStray l) (fuel : ℕ) :
    l.selectStream cmtOnOff fuel net =
      (ssFunctions l.discipline).selectStream cmtOnOff fuel l.ss net := by
  refine if_neg ?_
  rintro ⟨hreads, hany⟩
  have hd : l.discipline ≠ .fcfs := by
    intro hd
    simp [SsLinks.readsLast, hd] at hreads
  exact absurd hany (by rw [h.any_eq_false hd]; exact Bool.false_ne_true)

theorem Drainable.visit (hfree : cmtOnOff ≠ 0 ∨ net = none) (h : Drainable streamoutcnt l) :
    ∃ fuel msgs s, (∀ fuel' ≥ fuel, visit streamoutcnt cmtOnOff fuel' net l =
        some (msgs, { l with ss := s })) ∧
      Drainable streamoutcnt { l with ss := s } ∧ Sent l msgs { l with ss := s } ∧
      (Chosen l.discipline l.ss → (∃ i, l.ss.outqueue i ≠ []) → msgs ≠ []) := by
  obtain ⟨fuel, strq, hselect, hfound⟩ := selectStream_found hfree h.once h.charged
  have hselect (fuel' : ℕ) (hle : fuel' ≥ fuel) :
      l.selectStream cmtOnOff fuel' net = some strq := by
    rw [h.links.selectStream]
    exact hselect fuel' hle
  cases strq with
  | none =>
    refine ⟨fuel, [], l.ss, fun fuel' hle => ?_, h, Sent.refl l, fun hchosen hwaits => ?_⟩
    · rw [Sctp.visit, hselect fuel' hle]
      rfl
    · obtain ⟨i, hi, -⟩ := hfound hchosen hwaits
      cases hi
  | some i =>
    cases hq : l.ss.outqueue i with
    | nil =>
      refine ⟨fuel, [], l.ss, fun fuel' hle => ?_, h, Sent.refl l, fun hchosen hwaits => ?_⟩
      · rw [Sctp.visit, hselect fuel' hle, Option.bind_some]
        simp only [hq]
      · obtain ⟨j, hj, hne⟩ := hfound hchosen hwaits
        obtain rfl := Option.some.inj hj
        exact absurd hq hne
    | cons m rest =>
      obtain ⟨s, hcall, hs, hqueue⟩ := @Drainable.wholeMessage _ cmtOnOff l h i m rest hq
      refine ⟨fuel, [(i, m.id)], s, fun fuel' hle => ?_, hs, fun j => ?_, fun _ _ => nofun⟩
      · rw [Sctp.visit, hselect fuel' hle, Option.bind_some]
        simp only [hq, hcall, Option.map_some]
      · rw [ofStream_singleton]
        by_cases hji : j = i
        · subst hji
          rw [if_pos rfl, SsData.ids, SsData.ids, hqueue, Function.update_self, hq]
          rfl
        · rw [if_neg (Ne.symm hji), SsData.ids, SsData.ids, hqueue, Function.update_of_ne hji]
          rfl

theorem Drainable.packetDone (hfree : cmtOnOff ≠ 0 ∨ net = none) (h : Drainable streamoutcnt l) :
    ∃ s, (∀ fuel, ssCall streamoutcnt cmtOnOff (fuel + 1) l (.packetDone net) =
        some { l with ss := s }) ∧
      Drainable streamoutcnt { l with ss := s } ∧ s.outqueue = l.ss.outqueue ∧
      Chosen l.discipline s := by
  by_cases hd : l.discipline = .roundRobinPacket
  · have hany := h.links.any_eq_false (by rw [hd]; exact nofun)
    have honce : WheelOnce l.ss := by
      have honce := h.once
      rwa [hd] at honce
    have hcall (fuel : ℕ) : ssCall streamoutcnt cmtOnOff (fuel + 1) l (.packetDone net) =
        some { l with
          ss.lastOutStream := Ring.around (fun _ _ => true) l.ss.wheel l.ss.lastOutStream } := by
      change l.packetDone cmtOnOff (fuel + 1) net = _
      rw [SsLinks.packetDone, if_neg (by rw [hany]; exact fun hnot => nomatch hnot.2), hd]
      change ((nextStream cmtOnOff (fuel + 1) l.ss net).map _).map _ = _
      rw [nextStream_of_free hfree]
      simp only [Option.map_some, ← hd]
    refine ⟨_, hcall, ⟨h.plain.ssCall (hcall 0), h.once.congr rfl rfl rfl, h.charged, ?_⟩, rfl, ?_⟩
    · exact h.links.congr fun _ => List.Subset.refl _
    · intro _ hwaits
      obtain ⟨i, hi, hne⟩ := @around_found l.ss (fun _ _ => true) honce hwaits
      exact ⟨i, hi, (honce.waits i).2 hne⟩
  · have hcall (fuel : ℕ) : ssCall streamoutcnt cmtOnOff (fuel + 1) l (.packetDone net) =
        some l := by
      change l.packetDone cmtOnOff (fuel + 1) net = _
      rw [SsLinks.packetDone, if_neg fun hnot => hd hnot.1]
      obtain ⟨d, s, strayStream, strayMsg⟩ := l
      cases d with
      | roundRobinPacket => exact absurd rfl hd
      | _ => rfl
    exact ⟨l.ss, hcall, h, rfl, fun hrrp => absurd hrrp hd⟩

/-- Where the stream of a packet is chosen, a packet with room takes a message. -/
theorem Drainable.drainPacket (hfree : cmtOnOff ≠ 0 ∨ net = none) (room : ℕ)
    (h : Drainable streamoutcnt l) :
    ∃ fuel msgs s, (∀ fuel' ≥ fuel, drainPacket streamoutcnt cmtOnOff fuel' net room l =
        some (msgs, { l with ss := s })) ∧
      Drainable streamoutcnt { l with ss := s } ∧ Sent l msgs { l with ss := s } ∧
      Chosen l.discipline s ∧
      (0 < room → Chosen l.discipline l.ss → (∃ i, l.ss.outqueue i ≠ []) → msgs ≠ []) := by
  induction room generalizing l with
  | zero =>
    obtain ⟨s, hcall, hs, hqueue, hchosen⟩ := @Drainable.packetDone _ _ net l hfree h
    refine ⟨1, [], s, fun fuel hle => ?_, hs, fun i => ?_, hchosen, fun hroom => by omega⟩
    · obtain ⟨fuel, rfl⟩ := Nat.exists_eq_add_of_le' hle
      rw [Sctp.drainPacket, hcall, Option.map_some]
    · rw [SsData.ids, ← hqueue]
      rfl
  | succ room ih =>
    obtain ⟨fuel₁, msgs₁, s₁, hvisit, h₁, hsent₁, hfound⟩ := @Drainable.visit _ _ net l hfree h
    obtain ⟨fuel₂, msgs₂, s₂, hpacket, h₂, hsent₂, hchosen, -⟩ := ih h₁
    refine ⟨max fuel₁ fuel₂, msgs₁ ++ msgs₂, s₂, fun fuel hle => ?_, h₂, hsent₁.trans hsent₂,
      hchosen, fun _ hc hwaits hnil => ?_⟩
    · have hle₁ : fuel₁ ≤ fuel := (le_max_left _ _).trans hle
      have hle₂ : fuel₂ ≤ fuel := (le_max_right _ _).trans hle
      rw [Sctp.drainPacket, hvisit fuel hle₁, Option.bind_some, hpacket fuel hle₂, Option.map_some]
    · exact hfound hc hwaits (List.append_eq_nil_iff.1 hnil).1

theorem Sent.length_le {l' : SsLinks} {msgs : List (StreamNo × ℕ)} (h : Sent l msgs l')
    (i : StreamNo) : (l'.ss.outqueue i).length ≤ (l.ss.outqueue i).length := by
  have hlen := congrArg List.length (h i)
  simp only [SsData.ids, List.length_map, List.length_append] at hlen
  omega

theorem Sent.waiting_le {l' : SsLinks} {msgs : List (StreamNo × ℕ)} (h : Sent l msgs l') :
    l'.ss.waiting streamoutcnt ≤ l.ss.waiting streamoutcnt :=
  List.sum_le_sum fun i _ => h.length_le i

theorem Sent.waiting_lt {l' : SsLinks} {msgs : List (StreamNo × ℕ)} (h : Sent l msgs l')
    (hplain : Plain streamoutcnt l) (hmsgs : msgs ≠ []) :
    l'.ss.waiting streamoutcnt < l.ss.waiting streamoutcnt := by
  obtain ⟨⟨i, m⟩, rest, rfl⟩ := List.exists_cons_of_ne_nil hmsgs
  have hlt : (l'.ss.outqueue i).length < (l.ss.outqueue i).length := by
    have hm : m ∈ ofStream i ((i, m) :: rest) := mem_ofStream.2 List.mem_cons_self
    have hlen := congrArg List.length (h i)
    have hpos := List.length_pos_of_mem hm
    simp only [SsData.ids, List.length_map, List.length_append] at hlen
    omega
  have hi : l.ss.outqueue i ≠ [] := List.ne_nil_of_length_pos (by omega)
  exact List.sum_lt_sum _ _ (fun j _ => h.length_le j)
    ⟨i, mem_streams.2 (hplain.inRange i hi), hlt⟩

theorem exists_waiting (hplain : Plain streamoutcnt l) :
    0 < l.ss.waiting streamoutcnt ↔ ∃ i, l.ss.outqueue i ≠ [] := by
  rw [SsData.waiting, Nat.pos_iff_ne_zero, Ne, List.sum_eq_zero_iff]
  constructor
  · intro h
    by_contra hwaits
    have hnone (i : StreamNo) : l.ss.outqueue i = [] := by_contra fun hi => hwaits ⟨i, hi⟩
    refine h fun n hn => ?_
    obtain ⟨i, -, rfl⟩ := List.mem_map.1 hn
    rw [hnone i, List.length_nil]
  · rintro ⟨i, hi⟩ hall
    have hzero := hall _ (List.mem_map_of_mem (mem_streams.2 (hplain.inRange i hi)))
    exact hi (List.length_eq_zero_iff.1 hzero)

/-- The induction is on the packets. The first one may go to a stream without messages, each other
takes a message from those that are left. -/
theorem Drainable.drain (hfree : cmtOnOff ≠ 0 ∨ net = none) {rooms : List ℕ}
    (hrooms : ∀ room ∈ rooms, 0 < room) (h : Drainable streamoutcnt l) (late : ℕ)
    (hlate : late = 0 → Chosen l.discipline l.ss)
    (hlen : l.ss.waiting streamoutcnt + late ≤ rooms.length) :
    ∃ fuel msgs s, (∀ fuel' ≥ fuel, drain streamoutcnt cmtOnOff fuel' net rooms l =
        some (msgs, { l with ss := s })) ∧
      Sent l msgs { l with ss := s } ∧ ∀ i, s.outqueue i = [] := by
  induction rooms generalizing l late with
  | nil =>
    refine ⟨0, [], l.ss, fun _ _ => rfl, Sent.refl l, fun i => ?_⟩
    by_contra hi
    have hpos := (exists_waiting h.plain).2 ⟨i, hi⟩
    rw [List.length_nil] at hlen
    omega
  | cons room rooms ih =>
    obtain ⟨fuel₁, msgs₁, s₁, hpacket, h₁, hsent₁, hchosen, hfound⟩ :=
      @Drainable.drainPacket _ _ net l hfree room h
    have hroom : 0 < room := hrooms room List.mem_cons_self
    rw [List.length_cons] at hlen
    have hlen₁ : s₁.waiting streamoutcnt + 0 ≤ rooms.length := by
      have hle : s₁.waiting streamoutcnt ≤ l.ss.waiting streamoutcnt := hsent₁.waiting_le
      obtain rfl | hpos := Nat.eq_zero_or_pos late
      · obtain hzero | hwaits := Nat.eq_zero_or_pos (l.ss.waiting streamoutcnt)
        · omega
        · have hmsgs := hfound hroom (hlate rfl) ((exists_waiting h.plain).1 hwaits)
          have hlt : s₁.waiting streamoutcnt < l.ss.waiting streamoutcnt :=
            hsent₁.waiting_lt h.plain hmsgs
          omega
      · omega
    obtain ⟨fuel₂, msgs₂, s₂, hdrain, hsent₂, hempty⟩ :=
      ih (fun r hr => hrooms r (List.mem_cons_of_mem room hr)) h₁ 0 (fun _ => hchosen) hlen₁
    refine ⟨max fuel₁ fuel₂, msgs₁ ++ msgs₂, s₂, fun fuel hle => ?_, hsent₁.trans hsent₂, hempty⟩
    have hle₁ : fuel₁ ≤ fuel := (le_max_left _ _).trans hle
    have hle₂ : fuel₂ ≤ fuel := (le_max_right _ _).trans hle
    rw [Sctp.drain, hpacket fuel hle₁, Option.bind_some, hdrain fuel hle₂, Option.map_some]

theorem Drainable.keepsAll (h : Drainable streamoutcnt l)
    (horder : l.discipline = .fcfs → ∀ i, ofStream i l.ss.outList = l.ss.ids i) :
    KeepsAll streamoutcnt l where
  once := h.once.waitsOnce
  order := horder
  links := h.links
  drains cmtOnOff net rooms hfree hrooms hlen := by
    obtain ⟨fuel, msgs, s, hdrain, hsent, hempty⟩ :=
      @Drainable.drain _ _ net l hfree rooms hrooms h 1 nofun hlen
    refine ⟨fuel, msgs, _, hdrain fuel le_rfl, fun i => ?_⟩
    rw [hsent i, SsData.ids, hempty i, List.map_nil, List.append_nil]

end Drain

section Switch

variable {streamoutcnt : StreamNo} {cmtOnOff fuel : ℕ} {l l' : SsLinks} {d : Discipline}
  {priority : StreamNo → ℕ} {rounds : StreamNo → ℤ}

/-- The old scheduler is gone and the new one has not been set up. -/
def between (l : SsLinks) (d : Discipline) (priority : StreamNo → ℕ) (rounds : StreamNo → ℤ) :
    SsLinks :=
  SsLinks.forget { ssClear l with discipline := d, ss.priority := priority, ss.rounds := rounds }

theorem between_outqueue : (between l d priority rounds).ss.outqueue = l.ss.outqueue := by
  obtain ⟨d', s, strayStream, strayMsg⟩ := l
  cases d' <;> rfl

theorem between_strayStream (h : Shared l.discipline l.ss) :
    (between l d priority rounds).strayStream = l.strayStream := by
  obtain ⟨d', s, strayStream, strayMsg⟩ := l
  funext i
  cases d' with
  | fcfs =>
    have hwheel : s.wheel = [] := h
    change (strayStream i || decide (i ∈ s.wheel)) = strayStream i
    simp [hwheel]
  | _ =>
    change (strayStream i || decide (i ∈ [])) = strayStream i
    simp

theorem between_strayMsg (m : StreamNo × ℕ) :
    (between l d priority rounds).strayMsg m = (l.strayMsg m || decide (m ∈ l.ss.outList)) := by
  obtain ⟨d', s, strayStream, strayMsg⟩ := l
  cases d' <;> rfl

theorem Plain.between (h : Plain streamoutcnt l) :
    Plain streamoutcnt (between l d priority rounds) :=
  h.congr between_outqueue (by cases d <;> rfl)

theorem length_le_waiting (h : Plain streamoutcnt l) (i : StreamNo) :
    (l.ss.outqueue i).length ≤ l.ss.waiting streamoutcnt := by
  by_cases hi : l.ss.outqueue i = []
  · rw [hi]
    exact Nat.zero_le _
  · apply List.single_le_sum (fun _ _ => Nat.zero_le _)
    exact List.mem_map_of_mem (mem_streams.2 (h.inRange i hi))

theorem between_listed (hd : d = .fcfs) :
    Listed (between l d priority rounds) (fun _ => 0) (between l d priority rounds) := by
  refine ⟨hd, rfl, rfl, ?_, fun i => ?_⟩
  · rfl
  · rw [List.take_zero]
    rfl

/-- First come, first served: what the loop lists of each queue. -/
theorem ssSwitch_fcfs (h : Plain streamoutcnt l)
    (hswitch : ssSwitch streamoutcnt fuel l .fcfs priority rounds = some l') :
    AllListed (between l .fcfs priority rounds) l' :=
  fcfsLoop_listed h.between (between_listed rfl) hswitch

theorem ssSwitch_fcfs_isSome (h : Plain streamoutcnt l) :
    ∃ fuel l', ssSwitch streamoutcnt fuel l .fcfs priority rounds = some l' := by
  have hlen (i : StreamNo) :
      ((between l .fcfs priority rounds).ss.outqueue i).length ≤ 0 + l.ss.waiting streamoutcnt := by
    rw [between_outqueue, Nat.zero_add]
    exact length_le_waiting h i
  have hsome := fcfsLoop_isSome (h.between (d := .fcfs)) hlen (between_listed rfl)
  exact ⟨l.ss.waiting streamoutcnt + 1, Option.isSome_iff_exists.1 hsome⟩

theorem ssSwitch_of_ne (hd : d ≠ .fcfs) :
    ∃ l', (∀ fuel, ssSwitch streamoutcnt fuel l d priority rounds = some l') ∧
      Gathered (between l d priority rounds) (streams streamoutcnt) l' := by
  have hgathered := ssDefaultInit_gathered
    (l := { ssClear l with discipline := d, ss.priority := priority, ss.rounds := rounds })
    hd streamoutcnt
  refine ⟨_, fun fuel => ?_, hgathered⟩
  unfold ssSwitch ssInit
  cases d with
  | fcfs => exact absurd rfl hd
  | _ => rfl

theorem Plain.ssSwitch (h : Plain streamoutcnt l)
    (hswitch : ssSwitch streamoutcnt fuel l d priority rounds = some l') :
    Plain streamoutcnt l' := by
  by_cases hd : d = .fcfs
  · subst hd
    have hlisted := ssSwitch_fcfs h hswitch
    refine h.congr (hlisted.outqueue.trans between_outqueue) ?_
    rw [hlisted.discipline]
    exact hlisted.wheel
  · obtain ⟨l₁, hl₁, hgathered⟩ := @ssSwitch_of_ne streamoutcnt l d priority rounds hd
    obtain rfl : l₁ = l' := Option.some.inj ((hl₁ fuel).symm.trans hswitch)
    exact h.congr (hgathered.outqueue.trans between_outqueue) hgathered.shared

theorem noStray_of_ne (hd : l.discipline ≠ .fcfs) :
    NoStray l ↔ ∀ i, l.strayStream i = false := by
  unfold NoStray
  split
  · rename_i hfcfs
    exact absurd hfcfs hd
  · exact Iff.rfl

theorem unlinked_of_ne (hd : d ≠ .fcfs) : Unlinked l d ↔ ∀ i, l.strayStream i = false := by
  cases d with
  | fcfs => exact absurd rfl hd
  | _ => exact Iff.rfl

/-- The list is right where no message is left out. -/
theorem AllListed.drainable {l₀ : SsLinks} (h : AllListed l₀ l) (h₀ : Plain streamoutcnt l₀)
    (hstray : ∀ i, ∀ m ∈ l₀.ss.ids i, l₀.strayMsg (i, m) = false) :
    Drainable streamoutcnt l ∧ ∀ i, ofStream i l.ss.outList = l.ss.ids i := by
  have hids (i : StreamNo) : l.ss.ids i = l₀.ss.ids i := by rw [SsData.ids, h.outqueue]; rfl
  have horder (i : StreamNo) : ofStream i l.ss.outList = l.ss.ids i := by
    rw [h.list, hids, unlinked, List.filter_eq_self]
    intro m hm
    rw [hstray i m hm]
    rfl
  have hshared : Shared l.discipline l.ss := by
    rw [h.discipline]
    exact h.wheel
  have hplain : Plain streamoutcnt l := h₀.congr h.outqueue hshared
  refine ⟨⟨hplain, ?_, fun hfb => ?_, ?_⟩, horder⟩
  · rw [h.discipline]
    refine ⟨nodup_of_ofStream fun i => ?_, hplain.ids, fun i m => ?_⟩
    · rw [horder]
      exact hplain.ids i
    · rw [← mem_ofStream, horder]
      rfl
  · rw [h.discipline] at hfb
    cases hfb
  · have hlinks : ∀ i, ∀ m ∈ l.ss.ids i, l.strayMsg (i, m) = false := by
      intro i m hm
      rw [hids] at hm
      rw [h.strayMsg]
      exact hstray i m hm
    unfold NoStray
    rw [h.discipline]
    exact hlinks

theorem Gathered.drainable {l₀ : SsLinks} (h : Gathered l₀ (streams streamoutcnt) l)
    (h₀ : Plain streamoutcnt l₀) (hd : l.discipline ≠ .fcfs)
    (hstray : ∀ i, l₀.strayStream i = false) : Drainable streamoutcnt l where
  plain := h₀.congr h.outqueue h.shared
  once := by
    rw [SsOnce.of_ne hd]
    refine ⟨h.nodup, fun i => ?_⟩
    rw [h.mem, h.outqueue]
    constructor
    · exact fun hi => hi.2.1
    · exact fun hi => ⟨mem_streams.2 (h₀.inRange i hi), hi, hstray i⟩
  charged := h.rounds
  links := by
    rw [noStray_of_ne hd, h.strayStream]
    exact hstray

theorem ssSwitch_keepsAll_iff (h : Plain streamoutcnt l) :
    (∃ fuel l', ssSwitch streamoutcnt fuel l d priority rounds = some l' ∧
      KeepsAll streamoutcnt l') ↔ Unlinked l d := by
  by_cases hd : d = .fcfs
  · subst hd
    have hstray (i : StreamNo) (m : ℕ) :
        (between l .fcfs priority rounds).strayMsg (i, m) = false ↔
          l.strayMsg (i, m) = false ∧ (i, m) ∉ l.ss.outList := by
      rw [between_strayMsg, Bool.or_eq_false_iff, decide_eq_false_iff_not]
    have hids (i : StreamNo) : (between l .fcfs priority rounds).ss.ids i = l.ss.ids i := by
      rw [SsData.ids, between_outqueue]
      rfl
    constructor
    · rintro ⟨fuel, l', hswitch, hkeeps⟩ i m hm
      have hlisted := ssSwitch_fcfs h hswitch
      have hlinks := hkeeps.links
      unfold NoStray at hlinks
      rw [hlisted.discipline] at hlinks
      rw [← hstray, ← hlisted.strayMsg]
      apply hlinks i m
      rw [SsData.ids, hlisted.outqueue]
      change m ∈ (between l .fcfs priority rounds).ss.ids i
      rw [hids]
      exact hm
    · intro hunlinked
      obtain ⟨fuel, l', hswitch⟩ :=
        @ssSwitch_fcfs_isSome streamoutcnt l priority rounds h
      have hlisted := ssSwitch_fcfs h hswitch
      obtain ⟨hdrainable, horder⟩ := hlisted.drainable h.between fun i m hm =>
        (hstray i m).2 (hunlinked i m (hids i ▸ hm))
      exact ⟨fuel, l', hswitch, hdrainable.keepsAll fun _ => horder⟩
  · obtain ⟨l₁, hl₁, hgathered⟩ :=
      @ssSwitch_of_ne streamoutcnt l d priority rounds hd
    have hd₁ : l₁.discipline ≠ .fcfs := by
      rw [hgathered.discipline]
      exact hd
    rw [unlinked_of_ne hd, ← between_strayStream h.shared]
    constructor
    · rintro ⟨fuel, l', hswitch, hkeeps⟩
      obtain rfl : l₁ = l' := Option.some.inj ((hl₁ fuel).symm.trans hswitch)
      have hlinks := (noStray_of_ne hd₁).1 hkeeps.links
      rwa [hgathered.strayStream] at hlinks
    · intro hunlinked
      refine ⟨0, l₁, hl₁ 0, (hgathered.drainable h.between hd₁ hunlinked).keepsAll ?_⟩
      exact fun hfcfs => absurd hfcfs hd₁

theorem ssHistory_plain {d₀ : Discipline} {garbage : StreamNo → Bool} {events : List SsEvent}
    (hrun : ssHistory d₀ streamoutcnt garbage cmtOnOff fuel events = some l) :
    Plain streamoutcnt l := by
  refine Trace.run_invariant (Plain streamoutcnt) ?_ (Plain.start d₀ streamoutcnt garbage)
    (Trace.along_true _ _ events) hrun
  intro l e l' h _ hstep
  cases e with
  | call c => exact h.ssCall hstep
  | switch d priority rounds => exact h.ssSwitch hstep

/-- Behind every history of calls and changes, the next change keeps all messages exactly when
nothing that the new scheduler looks at has stale links. -/
theorem ssHistory_keepsAll_iff {d₀ : Discipline} {garbage : StreamNo → Bool}
    {events : List SsEvent} (hrun : ssHistory d₀ streamoutcnt garbage cmtOnOff fuel events = some l)
    (d : Discipline) (priority : StreamNo → ℕ) (rounds : StreamNo → ℤ) :
    (∃ fuel l', ssSwitch streamoutcnt fuel l d priority rounds = some l' ∧
      KeepsAll streamoutcnt l') ↔ Unlinked l d :=
  ssSwitch_keepsAll_iff (ssHistory_plain hrun)

end Switch

section Calls

variable {streamoutcnt : StreamNo} {cmtOnOff fuel : ℕ} {l l' : SsLinks} {d : Discipline}

/-- While one scheduler is in use there are no stale links but those that came with the memory. -/
structure OwnLinks (d : Discipline) (strayStream : StreamNo → Bool) (l : SsLinks) : Prop where
  discipline : l.discipline = d
  strayStream : l.strayStream = strayStream
  strayMsg : ∀ m, l.strayMsg m = false
  once : d = .fcfs → ListOnce l.ss

theorem OwnLinks.ssCall {strayStream : StreamNo → Bool} (h : OwnLinks d strayStream l) {c : SsCall}
    (hcall : ssCall streamoutcnt cmtOnOff fuel l c = some l') : OwnLinks d strayStream l' := by
  have hd := h.discipline
  cases c with
  | queued i m =>
    simp only [Sctp.ssCall] at hcall
    split at hcall
    · cases hcall
    · rename_i hok
      rw [not_or] at hok
      obtain rfl := Option.some.inj hcall
      have hnone (m' : StreamNo × ℕ) : Function.update l.strayMsg (i, m.id) false m' = false := by
        rw [Function.update_apply]
        split
        · rfl
        · exact h.strayMsg m'
      unfold SsLinks.addToStream
      split
      · rename_i hstray
        refine ⟨hd, h.strayStream, hnone, fun hfcfs => ?_⟩
        simp only [SsLinks.stray, hd, hfcfs, hnone] at hstray
        cases hstray
      · refine ⟨hd, h.strayStream, hnone, fun hfcfs => ?_⟩
        simp only [hd, hfcfs]
        exact (h.once hfcfs).queued hok.1
  | appended i n =>
    obtain rfl := Option.some.inj hcall
    refine ⟨hd, h.strayStream, h.strayMsg, fun hfcfs => (h.once hfcfs).setOutqueue ?_⟩
    exact map_id_modifyLast fun _ => rfl
  | moved i dropped n finished =>
    obtain ⟨ss, hss, rfl⟩ := ssCall_moved hcall
    refine ⟨hd, h.strayStream, h.strayMsg, fun hfcfs => ?_⟩
    rw [hd, hfcfs] at hss
    have honce : SsOnce .fcfs l.ss := h.once hfcfs
    exact (honce.moved hss).1
  | packetDone net =>
    obtain ⟨ss, hss, rfl⟩ := ssCall_packetDone hcall
    obtain ⟨hqueue, hwheel, hlist, -⟩ := packetDone_frame hss
    refine ⟨hd, h.strayStream, h.strayMsg, fun hfcfs => ?_⟩
    have honce : SsOnce .fcfs l.ss := h.once hfcfs
    exact honce.congr hwheel hlist hqueue
  | setValue i value =>
    have hset : l.setValue i value = some l' := hcall
    unfold SsLinks.setValue at hset
    split at hset
    · rename_i hprio
      obtain ⟨l₁, h₁, rfl⟩ := Option.map_eq_some_iff.1 hset
      obtain rfl := removeFromStream_eq_some h₁
      have hne : d ≠ .fcfs := by
        rw [← hd, hprio]
        exact nofun
      unfold SsLinks.addToStream
      split
      · exact ⟨hd, h.strayStream, h.strayMsg, fun hfcfs => absurd hfcfs hne⟩
      · exact ⟨hd, h.strayStream, h.strayMsg, fun hfcfs => absurd hfcfs hne⟩
    · obtain rfl := Option.some.inj hset
      exact h

/-- Under one scheduler from the beginning, only a history that is first come, first served leaves
stale links: to the messages that wait, for itself, and to streams whose memory had them, for the
others. -/
theorem unlinked_iff_of_calls {d₀ : Discipline} {garbage : StreamNo → Bool} {calls : List SsCall}
    (hrun : ssHistory d₀ streamoutcnt garbage cmtOnOff fuel (calls.map .call) = some l)
    (d : Discipline) :
    Unlinked l d ↔ (d₀ = .fcfs →
      if d = .fcfs then ∀ i, l.ss.outqueue i = []
      else ∀ i < streamoutcnt, garbage i = false) := by
  have hown : OwnLinks d₀ (SsLinks.start d₀ streamoutcnt garbage).strayStream l := by
    have hcalls (e : SsEvent) (he : e ∈ calls.map SsEvent.call) : ∃ c, e = .call c := by
      obtain ⟨c, -, rfl⟩ := List.mem_map.1 he
      exact ⟨c, rfl⟩
    refine Trace.run_invariant (OwnLinks d₀ _) ?_ ?_ (Trace.along_of_forall hcalls _) hrun
    · rintro l _ l' h ⟨c, rfl⟩ hstep
      exact h.ssCall hstep
    · exact ⟨rfl, rfl, fun _ => rfl, fun _ => ListOnce.init⟩
  have hplain := ssHistory_plain hrun
  by_cases hd : d = .fcfs
  · subst hd
    simp only [if_true]
    constructor
    · intro hunlinked hfcfs i
      by_contra hne
      obtain ⟨m, rest, hq⟩ := List.exists_cons_of_ne_nil hne
      have hm : m.id ∈ l.ss.ids i := by
        rw [SsData.ids, hq, List.map_cons]
        exact List.mem_cons_self
      exact (hunlinked i m.id hm).2 (((hown.once hfcfs).waits i m.id).2 hm)
    · intro hempty i m hm
      refine ⟨hown.strayMsg (i, m), fun hin => ?_⟩
      by_cases hfcfs : d₀ = .fcfs
      · rw [SsData.ids, hempty hfcfs i] at hm
        cases hm
      · have hlist : l.ss.outList = [] := by
          have hshared := hplain.shared
          rw [hown.discipline] at hshared
          cases d₀ with
          | fcfs => exact absurd rfl hfcfs
          | _ => exact hshared
        rw [hlist] at hin
        cases hin
  · rw [unlinked_of_ne hd, hown.strayStream, if_neg hd]
    constructor
    · rintro hall rfl i hi
      simpa [SsLinks.start, hi] using hall i
    · intro hclean i
      by_cases hfcfs : d₀ = .fcfs
      · by_cases hi : i < streamoutcnt
        · simp [SsLinks.start, hclean hfcfs i hi]
        · simp [SsLinks.start, hi]
      · simp [SsLinks.start, hfcfs]

def twoQueued : List SsEvent :=
  [.call (.queued 0 { id := 1, length := 100 }), .call (.queued 1 { id := 2, length := 50 })]

theorem twoQueued_keepsAll :
    ∃ l, ssHistory .priority 2 (fun _ => false) 0 0 twoQueued = some l ∧
      ∃ fuel l', ssSwitch 2 fuel l .fcfs (fun _ => 0) (fun _ => 0) = some l' ∧ KeepsAll 2 l' := by
  have hrun : ssHistory .priority 2 (fun _ => false) 0 0 twoQueued = some _ := rfl
  refine ⟨_, hrun, (ssHistory_keepsAll_iff hrun .fcfs (fun _ => 0) fun _ => 0).2 ?_⟩
  have hcalls : ssHistory .priority 2 (fun _ => false) 0 0
      ([.queued 0 { id := 1, length := 100 }, .queued 1 { id := 2, length := 50 }].map .call) =
      some _ := hrun
  exact (unlinked_iff_of_calls hcalls .fcfs).2 nofun

/-- More streams are asked for under the first-come-first-served scheduler: its list loses the
messages. -/
theorem twoQueued_not_keepsAll :
    ¬ ∀ (d₀ : Discipline) (streamoutcnt : StreamNo) (garbage : StreamNo → Bool) (cmtOnOff fuel : ℕ)
      (events : List SsEvent) (l : SsLinks),
      ssHistory d₀ streamoutcnt garbage cmtOnOff fuel events = some l →
      ∀ (d : Discipline) (priority : StreamNo → ℕ) (rounds : StreamNo → ℤ),
        ∃ fuel l', ssSwitch streamoutcnt fuel l d priority rounds = some l' ∧
          KeepsAll streamoutcnt l' := by
  intro h
  have hrun : ssHistory .fcfs 2 (fun _ => false) 0 0 twoQueued = some _ := rfl
  have hkeeps := h .fcfs 2 (fun _ => false) 0 0 twoQueued _ hrun .fcfs (fun _ => 0) fun _ => 0
  have hunlinked := (ssSwitch_keepsAll_iff (ssHistory_plain hrun)).1 hkeeps
  have hcalls : ssHistory .fcfs 2 (fun _ => false) 0 0
      ([.queued 0 { id := 1, length := 100 }, .queued 1 { id := 2, length := 50 }].map .call) =
      some _ := hrun
  have hempty := (unlinked_iff_of_calls hcalls .fcfs).1 hunlinked rfl
  simp only [if_true] at hempty
  exact absurd (hempty 0) nofun

end Calls

end Sctp
