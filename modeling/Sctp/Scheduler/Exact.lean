import Mathlib.Data.List.ModifyLast
import Sctp.Scheduler.Model

/-! The wheel holds exactly the streams with something to send, as long as no stream is reported as
scheduled after its last message is gone. -/
namespace Sctp
open SsData

/-- On the wheel or, first come first served, with a message on the list. -/
def OnWheel (d : Discipline) (s : SsData) (i : StreamNo) : Prop :=
  match d with
  | .fcfs => ∃ m, (i, m) ∈ s.outList
  | _ => i ∈ s.wheel

def WheelSorted (d : Discipline) (s : SsData) : Prop :=
  match d with
  | .roundRobin | .roundRobinPacket => s.wheel.Pairwise fun a b => a.toNat ≤ b.toNat
  | .priority => s.wheel.Pairwise fun a b => s.priority a ≤ s.priority b
  | _ => True

/-- Each waiting stream is on the wheel once. The list has each waiting message once. -/
def WaitsOnce (d : Discipline) (s : SsData) : Prop :=
  match d with
  | .fcfs => s.outList.Nodup ∧ ∀ i m, (i, m) ∈ s.outList ↔ m ∈ (s.outqueue i).map Waiting.id
  | _ => s.wheel.Nodup ∧ ∀ i, i ∈ s.wheel ↔ s.outqueue i ≠ []

structure SsExact (d : Discipline) (s : SsData) : Prop where
  once : WaitsOnce d s
  last : ∀ i ∈ s.lastOutStream, OnWheel d s i
  sorted : WheelSorted d s

/-- The first message of the stream may go to the destination. -/
def Sendable (cmtOnOff : ℕ) (net : Option NetId) (s : SsData) (i : StreamNo) : Prop :=
  ∃ m ∈ (s.outqueue i).head?, cmtOnOff ≠ 0 ∨ net = none ∨ m.net = none ∨ m.net = net

/-- A null pointer is the answer only where nothing can be sent. -/
def SelectsAll (d : Discipline) (cmtOnOff fuel : ℕ) (s : SsData) (net : Option NetId) : Prop :=
  (ssFunctions d).selectStream cmtOnOff fuel s net = some none →
    ∀ i, OnWheel d s i → ¬ Sendable cmtOnOff net s i

/-- What `sctp_ss_fb_select` looks at before it gives up. -/
def fbSeen (s : SsData) : List StreamNo :=
  match s.lastOutStream with
  | none => s.wheel
  | some t =>
    if s.wheel.head? = s.wheel.getLast? ∨ Ring.behind t s.wheel = [] then s.wheel
    else Ring.behind t s.wheel

/-- States in which the discipline sees the streams that could send. Per packet, the choice is made
at the end of the last packet and there must be one; by priority, only the first priority is looked
at; by bandwidth, only the streams behind the last one served. -/
def SelectSees (d : Discipline) (cmtOnOff : ℕ) (s : SsData) (net : Option NetId) : Prop :=
  match d with
  | .roundRobinPacket => s.lastOutStream ≠ none ∨ s.wheel = []
  | .priority => (∃ i ∈ s.wheel, Sendable cmtOnOff net s i) →
      ∃ i ∈ s.wheel, (∀ h ∈ s.wheel.head?, s.priority i = s.priority h) ∧
        Sendable cmtOnOff net s i
  | .fairBandwidth => (∃ i ∈ s.wheel, Sendable cmtOnOff net s i) →
      ∃ i ∈ fbSeen s, Sendable cmtOnOff net s i
  | _ => True

namespace SsCall

/-- A move that sends something leaves the stream something to send. A new priority fits the place
that the stream already has. Messages dropped from the list are not the last ones of the stream last
served. -/
def Regular (d : Discipline) (s : SsData) : SsCall → Prop
  | .moved i dropped n finished =>
    (n ≠ 0 → dropped + finished.toNat < (s.outqueue i).length) ∧
      (d = .fcfs → s.lastOutStream = some i → dropped < (s.outqueue i).length)
  | .setValue i value =>
    d = .priority → s.outqueue i ≠ [] →
      (∀ j ∈ Ring.before i s.wheel, s.priority j ≤ value) ∧
        ∀ j ∈ Ring.behind i s.wheel, value ≤ s.priority j
  | _ => True

end SsCall

instance SsCall.decidableRegular (d : Discipline) (s : SsData) :
    (c : SsCall) → Decidable (c.Regular d s)
  | .queued .. => inferInstanceAs (Decidable True)
  | .appended .. => inferInstanceAs (Decidable True)
  | .moved .. => inferInstanceAs (Decidable (_ ∧ _))
  | .packetDone _ => inferInstanceAs (Decidable True)
  | .setValue .. => inferInstanceAs (Decidable (_ → _))

@[simp] theorem SsData.setOutqueue_same (s : SsData) (i : StreamNo) (q : List Waiting) :
    (s.setOutqueue i q).outqueue i = q := Function.update_self ..

theorem SsData.setOutqueue_ne (s : SsData) {i j : StreamNo} (q : List Waiting) (h : j ≠ i) :
    (s.setOutqueue i q).outqueue j = s.outqueue j := Function.update_of_ne h ..

/-- The wheel while the queue of stream `i` is being worked on. -/
structure WheelBut (i : StreamNo) (s : SsData) : Prop where
  nodup : s.wheel.Nodup
  waits : ∀ j, j ≠ i → (j ∈ s.wheel ↔ s.outqueue j ≠ [])

structure WheelOnce (s : SsData) : Prop where
  nodup : s.wheel.Nodup
  waits : ∀ i, i ∈ s.wheel ↔ s.outqueue i ≠ []

structure WheelOk (d : Discipline) (s : SsData) : Prop where
  last : ∀ i ∈ s.lastOutStream, i ∈ s.wheel
  sorted : WheelSorted d s
  rounds : d = .fairBandwidth → ∀ i ∈ s.wheel, 0 ≤ s.rounds i

structure WheelExact (d : Discipline) (s : SsData) : Prop extends WheelOnce s, WheelOk d s

theorem WheelOnce.but {s : SsData} (h : WheelOnce s) (i : StreamNo) (q : List Waiting) :
    WheelBut i (s.setOutqueue i q) where
  nodup := h.nodup
  waits j hji := by
    rw [setOutqueue_ne _ _ hji]
    exact h.waits j

theorem WheelOk.setOutqueue {d : Discipline} {s : SsData} (h : WheelOk d s) (i : StreamNo)
    (q : List Waiting) : WheelOk d (s.setOutqueue i q) := by
  have hsorted := h.sorted
  refine ⟨h.last, ?_, h.rounds⟩
  cases d <;> exact hsorted

structure Added (d : Discipline) (s s' : SsData) (i : StreamNo) : Prop where
  outqueue : s'.outqueue = s.outqueue
  last : s'.lastOutStream = s.lastOutStream
  perm : s'.wheel.Perm (if i ∈ s.wheel then s.wheel else i :: s.wheel)
  sorted : WheelSorted d s → WheelSorted d s'
  rounds : d = .fairBandwidth → (∀ j ∈ s.wheel, 0 ≤ s.rounds j) → ∀ j ∈ s'.wheel, 0 ≤ s'.rounds j

section Add

variable {d : Discipline} {s : SsData} {i : StreamNo}

private theorem Added.refl (hi : i ∈ s.wheel) : Added d s s i where
  outqueue := rfl
  last := rfl
  perm := by rw [if_pos hi]
  sorted := id
  rounds _ h := h

theorem addToWheel_added {insert : StreamNo → List StreamNo → List StreamNo}
    (hd : d ≠ .fairBandwidth) (hq : s.outqueue i ≠ [])
    (hperm : (insert i s.wheel).Perm (i :: s.wheel))
    (hsorted : WheelSorted d s → WheelSorted d { s with wheel := insert i s.wheel }) :
    Added d s (addToWheel insert s i) i := by
  unfold addToWheel
  by_cases hi : i ∈ s.wheel
  · rw [if_neg (fun h => h.2 hi)]
    exact Added.refl hi
  · rw [if_pos ⟨hq, hi⟩]
    exact ⟨rfl, rfl, by rwa [if_neg hi], hsorted, fun h => absurd h hd⟩

theorem ssFbAdd_added {m : Waiting} (hq : s.outqueue i ≠ []) :
    Added .fairBandwidth s (ssFbAdd s i m) i := by
  obtain ⟨first, rest, hfirst⟩ := List.exists_cons_of_ne_nil hq
  simp only [ssFbAdd, hfirst]
  by_cases hi : i ∈ s.wheel
  · rw [if_pos hi]
    exact Added.refl hi
  · rw [if_neg hi]
    refine ⟨rfl, rfl, ?_, id, fun _ h j hj => ?_⟩
    · rw [if_neg hi]
      exact List.perm_append_singleton i s.wheel
    · obtain hj | hj := List.mem_append.1 hj
      · have hji : j ≠ i := fun h => hi (h ▸ hj)
        dsimp only
        split
        · rw [Function.update_of_ne hji]
          exact h j hj
        · exact h j hj
      · obtain rfl := List.mem_singleton.1 hj
        dsimp only
        split
        · rw [Function.update_self]
          exact Int.natCast_nonneg _
        · omega

theorem add_added (hd : d ≠ .fcfs) {m : Waiting} (hq : s.outqueue i ≠ []) :
    Added d s ((ssFunctions d).addToStream s i m) i := by
  cases d with
  | default =>
    change Added .default s (addToWheel (fun i l => l ++ [i]) s i) i
    refine addToWheel_added nofun hq ?_ id
    exact List.perm_append_singleton i _
  | roundRobin | roundRobinPacket =>
    exact addToWheel_added nofun hq (List.perm_orderedInsert _ i _) fun h =>
      List.Pairwise.orderedInsert (r := fun a b : StreamNo => a.toNat ≤ b.toNat) i _ h
  | priority =>
    exact addToWheel_added nofun hq (List.perm_orderedInsert _ i _) fun h =>
      List.Pairwise.orderedInsert (r := fun a b => s.priority a ≤ s.priority b) i _ h
  | fairBandwidth => exact ssFbAdd_added (m := m) hq
  | fcfs => exact absurd rfl hd

theorem Added.mem_iff {s' : SsData} (h : Added d s s' i) (j : StreamNo) :
    j ∈ s'.wheel ↔ j = i ∨ j ∈ s.wheel := by
  rw [h.perm.mem_iff]
  split
  · rename_i hi
    exact ⟨.inr, fun hj => hj.elim (fun hj => hj ▸ hi) id⟩
  · exact List.mem_cons

theorem Added.once {s' : SsData} (h : Added d s s' i) (hbut : WheelBut i s)
    (hq : s.outqueue i ≠ []) : WheelOnce s' := by
  refine ⟨?_, fun j => ?_⟩
  · rw [h.perm.nodup_iff]
    split
    · exact hbut.nodup
    · rename_i hi
      exact List.nodup_cons.2 ⟨hi, hbut.nodup⟩
  · rw [h.mem_iff, h.outqueue]
    by_cases hji : j = i
    · exact iff_of_true (.inl hji) (hji ▸ hq)
    · rw [← hbut.waits j hji]
      exact or_iff_right hji

theorem Added.ok {s' : SsData} (h : Added d s s' i) (hok : WheelOk d s) : WheelOk d s' := by
  refine ⟨?_, h.sorted hok.sorted, fun hd => h.rounds hd (hok.rounds hd)⟩
  intro j hj
  rw [h.last] at hj
  exact (h.mem_iff j).2 (.inr (hok.last j hj))

end Add

section Remove

variable {d : Discipline} {s : SsData} {i : StreamNo}

theorem retreat_mem (hnd : s.wheel.Nodup) (hlast : ∀ j ∈ s.lastOutStream, j ∈ s.wheel) :
    ∀ j ∈ s.retreat i, j ∈ s.wheel.erase i := by
  intro j hj
  rw [hnd.mem_erase_iff]
  unfold SsData.retreat at hj
  split at hj
  · split at hj
    · cases hj
    · rename_i k hk
      split at hj
      · cases hj
      · rename_i hki
        obtain rfl : k = j := Option.some.inj hj
        refine ⟨hki, ?_⟩
        obtain hprev | ⟨-, hlast⟩ := Option.or_eq_some_iff.1 hk
        · exact Ring.mem_of_prev hprev
        · exact List.mem_of_getLast? hlast
  · rename_i hne
    exact ⟨fun h => hne (h ▸ hj), hlast j hj⟩

theorem removeFromStream_eq (hd : d ≠ .fcfs) (m : Waiting) :
    (ssFunctions d).removeFromStream s i m = ssDefaultRemove s i m := by
  cases d with
  | fcfs => exact absurd rfl hd
  | _ => rfl

/-- Taking the stream off the wheel when its queue is empty. -/
theorem ssDefaultRemove_once {m : Waiting} (hbut : WheelBut i s) (hi : i ∈ s.wheel) :
    WheelOnce (ssDefaultRemove s i m) := by
  unfold ssDefaultRemove
  by_cases hq : s.outqueue i = []
  · rw [if_pos ⟨hq, hi⟩]
    refine ⟨hbut.nodup.erase i, fun j => ?_⟩
    dsimp only
    rw [hbut.nodup.mem_erase_iff]
    by_cases hji : j = i
    · exact iff_of_false (fun h => h.1 hji) (fun h => h (hji ▸ hq))
    · rw [← hbut.waits j hji]
      exact and_iff_right hji
  · rw [if_neg (fun h => hq h.1)]
    refine ⟨hbut.nodup, fun j => ?_⟩
    by_cases hji : j = i
    · exact iff_of_true (hji ▸ hi) (hji ▸ hq)
    · exact hbut.waits j hji

theorem ssDefaultRemove_ok {m : Waiting} (hnd : s.wheel.Nodup) (hok : WheelOk d s) :
    WheelOk d (ssDefaultRemove s i m) := by
  unfold ssDefaultRemove
  split
  · have hsub : List.Sublist (s.wheel.erase i) s.wheel := List.erase_sublist
    refine ⟨retreat_mem hnd hok.last, ?_, fun h j hj => hok.rounds h j (hsub.subset hj)⟩
    have hsorted := hok.sorted
    cases d with
    | roundRobin | roundRobinPacket | priority => exact List.Pairwise.sublist hsub hsorted
    | _ => trivial
  · exact hok

end Remove

namespace WheelOnce

variable {d : Discipline} {s : SsData}

theorem init : WheelOnce SsData.init where
  nodup := List.nodup_nil
  waits i := by simp [SsData.init]

/-- A queue that stays empty or stays non-empty. -/
theorem setOutqueue (h : WheelOnce s) {i : StreamNo} {q : List Waiting}
    (hq : q = [] ↔ s.outqueue i = []) : WheelOnce (s.setOutqueue i q) where
  nodup := h.nodup
  waits j := by
    by_cases hji : j = i
    · subst hji
      rw [setOutqueue_same, Ne, hq]
      exact h.waits j
    · rw [setOutqueue_ne _ _ hji]
      exact h.waits j

theorem queued (hd : d ≠ .fcfs) (h : WheelOnce s) (i : StreamNo) (m : Waiting) :
    WheelOnce ((ssFunctions d).addToStream (s.setOutqueue i (s.outqueue i ++ [m])) i m) := by
  have hq : (s.setOutqueue i (s.outqueue i ++ [m])).outqueue i ≠ [] := by simp
  exact (add_added hd hq).once (h.but i _) hq

theorem dropHead (hd : d ≠ .fcfs) (h : WheelOnce s) (i : StreamNo) :
    WheelOnce (s.dropHead d i) := by
  unfold SsData.dropHead
  split
  · exact h
  · rename_i m rest hq
    rw [removeFromStream_eq hd]
    have hi : i ∈ s.wheel := (h.waits i).2 (hq ▸ List.cons_ne_nil m rest)
    exact ssDefaultRemove_once (h.but i rest) hi

theorem dropHeads (hd : d ≠ .fcfs) (i : StreamNo) (k : ℕ) (h : WheelOnce s) :
    WheelOnce (dropHeads d i k s) := by
  induction k generalizing s with
  | zero => exact h
  | succ k ih => exact ih (h.dropHead hd i)

end WheelOnce

namespace WheelExact

variable {d : Discipline} {s : SsData}

theorem init (d : Discipline) : WheelExact d SsData.init := by
  refine ⟨WheelOnce.init, ⟨nofun, ?_, fun _ _ h => by cases h⟩⟩
  cases d <;> first | exact List.Pairwise.nil | trivial

theorem setOutqueue (h : WheelExact d s) {i : StreamNo} {q : List Waiting}
    (hq : q = [] ↔ s.outqueue i = []) : WheelExact d (s.setOutqueue i q) :=
  ⟨h.toWheelOnce.setOutqueue hq, h.toWheelOk.setOutqueue i q⟩

theorem dropHead (hd : d ≠ .fcfs) (h : WheelExact d s) (i : StreamNo) :
    WheelExact d (s.dropHead d i) := by
  refine ⟨h.toWheelOnce.dropHead hd i, ?_⟩
  unfold SsData.dropHead
  split
  · exact h.toWheelOk
  · rw [removeFromStream_eq hd]
    exact ssDefaultRemove_ok h.nodup (h.toWheelOk.setOutqueue i _)

theorem dropHeads (hd : d ≠ .fcfs) (i : StreamNo) (k : ℕ) (h : WheelExact d s) :
    WheelExact d (dropHeads d i k s) := by
  induction k generalizing s with
  | zero => exact h
  | succ k ih => exact ih (h.dropHead hd i)

theorem queued (hd : d ≠ .fcfs) (h : WheelExact d s) (i : StreamNo) (m : Waiting) :
    WheelExact d ((ssFunctions d).addToStream (s.setOutqueue i (s.outqueue i ++ [m])) i m) :=
  ⟨h.toWheelOnce.queued hd i m,
    (add_added hd (by simp)).ok (h.toWheelOk.setOutqueue i _)⟩

theorem ssDefaultScheduled {i : StreamNo} (h : WheelExact d s) (hq : s.outqueue i ≠ []) :
    WheelExact d (ssDefaultScheduled s i) where
  nodup := h.nodup
  last j hj := by
    obtain rfl : i = j := Option.some.inj hj
    exact (h.waits i).2 hq
  sorted := by
    have hsorted := h.sorted
    cases d <;> exact hsorted
  rounds := h.rounds
  waits := h.waits

theorem ssFbScheduled {i : StreamNo} (h : WheelExact .fairBandwidth s) (hq : s.outqueue i ≠ []) :
    WheelExact .fairBandwidth (ssFbScheduled s i) where
  nodup := h.nodup
  last j hj := by
    obtain rfl : i = j := Option.some.inj hj
    exact (h.waits i).2 hq
  sorted := trivial
  rounds _ j hj := by
    obtain ⟨first, rest, hfirst⟩ := List.exists_cons_of_ne_nil hq
    have hj : j ∈ s.wheel := hj
    simp only [Sctp.ssFbScheduled, hfirst]
    by_cases hji : j = i
    · rw [hji, Function.update_self]
      exact Int.natCast_nonneg _
    · rw [Function.update_of_ne hji, if_pos hj]
      exact le_max_right _ _
  waits := h.waits

theorem scheduled (hd : d ≠ .fcfs) {i : StreamNo} (h : WheelExact d s) (hq : s.outqueue i ≠ []) :
    WheelExact d ((ssFunctions d).scheduled s i) := by
  cases d with
  | fairBandwidth => exact h.ssFbScheduled hq
  | fcfs => exact absurd rfl hd
  | _ => exact h.ssDefaultScheduled hq

theorem packetDone {cmtOnOff fuel : ℕ} {net : Option NetId} {s' : SsData} (h : WheelExact d s)
    (hdone : (ssFunctions d).packetDone cmtOnOff fuel s net = some s') : WheelExact d s' := by
  cases d with
  | roundRobinPacket =>
    obtain ⟨strq, hnext, rfl⟩ := Option.map_eq_some_iff.1 hdone
    refine ⟨⟨h.nodup, h.waits⟩, ⟨fun j hj => ?_, h.sorted, h.rounds⟩⟩
    obtain rfl : strq = some j := hj
    obtain ⟨-, u, hu⟩ := Ring.scan_eq_some hnext
    exact Ring.around_mem hu
  | _ =>
    obtain rfl : s = s' := Option.some.inj hdone
    exact h

/-- Neither call of `sctp_ss_prio_set_value` changes the wheel: the first leaves a waiting stream
alone and the second one that it finds there. -/
theorem ssPrioSetValue_eq (h : WheelExact .priority s) (i : StreamNo) (value : ℕ) :
    ssPrioSetValue s i value = { s with priority := Function.update s.priority i value } := by
  have hremove : ¬ (s.outqueue i = [] ∧ i ∈ s.wheel) := fun hi => (h.waits i).1 hi.2 hi.1
  have hadd : ¬ (s.outqueue i ≠ [] ∧ i ∉ s.wheel) := fun hi => hi.2 ((h.waits i).2 hi.1)
  simp only [Sctp.ssPrioSetValue, ssPrioRemove, ssDefaultRemove, if_neg hremove, ssPrioAdd,
    addToWheel, if_neg hadd]

/-- A priority that leaves the wheel sorted. -/
theorem ssPrioSetValue {i : StreamNo} {value : ℕ} (h : WheelExact .priority s)
    (hplace : s.outqueue i ≠ [] →
      (∀ j ∈ Ring.before i s.wheel, s.priority j ≤ value) ∧
        ∀ j ∈ Ring.behind i s.wheel, value ≤ s.priority j) :
    WheelExact .priority (ssPrioSetValue s i value) := by
  rw [h.ssPrioSetValue_eq]
  refine ⟨⟨h.nodup, h.waits⟩, ⟨h.last, ?_, h.rounds⟩⟩
  have hsorted : s.wheel.Pairwise fun a b => s.priority a ≤ s.priority b := h.sorted
  have hne : ∀ {l : List StreamNo}, i ∉ l → ∀ j ∈ l,
      Function.update s.priority i value j = s.priority j := by
    intro l hi j hj
    exact Function.update_of_ne (fun hji : j = i => hi (hji ▸ hj)) ..
  change s.wheel.Pairwise fun a b =>
    Function.update s.priority i value a ≤ Function.update s.priority i value b
  by_cases hi : i ∈ s.wheel
  · obtain ⟨hbefore, hbehind⟩ := hplace ((h.waits i).1 hi)
    have hnd := h.nodup
    obtain ⟨l₁, l₂, hl⟩ := List.append_of_mem hi
    rw [hl] at hsorted hbefore hbehind hnd ⊢
    obtain ⟨hi₁, hi₂⟩ : i ∉ l₁ ∧ i ∉ l₂ := by
      obtain ⟨-, hnd₂, hdisj⟩ := List.nodup_append.1 hnd
      exact ⟨fun h => hdisj i h i List.mem_cons_self rfl, (List.nodup_cons.1 hnd₂).1⟩
    rw [Ring.before_append hi₁] at hbefore
    rw [Ring.behind_append hi₁] at hbehind
    obtain ⟨hs₁, hs₂, hs₁₂⟩ := List.pairwise_append.1 hsorted
    refine List.pairwise_append.2 ⟨?_, List.pairwise_cons.2 ⟨?_, ?_⟩, ?_⟩
    · refine hs₁.imp_of_mem fun {a b} ha hb hab => ?_
      rwa [hne hi₁ a ha, hne hi₁ b hb]
    · intro b hb
      rw [Function.update_self, hne hi₂ b hb]
      exact hbehind b hb
    · refine (List.pairwise_cons.1 hs₂).2.imp_of_mem fun {a b} ha hb hab => ?_
      rwa [hne hi₂ a ha, hne hi₂ b hb]
    · intro a ha b hb
      rw [hne hi₁ a ha]
      obtain rfl | hb := List.mem_cons.1 hb
      · rw [Function.update_self]
        exact hbefore a ha
      · rw [hne hi₂ b hb]
        exact hs₁₂ a ha b (List.mem_cons_of_mem _ hb)
  · refine hsorted.imp_of_mem fun {a b} ha hb hab => ?_
    rwa [hne hi a ha, hne hi b hb]

end WheelExact

theorem add_outqueue (d : Discipline) (s : SsData) (i : StreamNo) (m : Waiting) :
    ((ssFunctions d).addToStream s i m).outqueue = s.outqueue := by
  have hwheel : ∀ insert, (addToWheel insert s i).outqueue = s.outqueue := by
    intro insert
    unfold addToWheel
    split <;> rfl
  cases d with
  | fairBandwidth =>
    change (ssFbAdd s i m).outqueue = s.outqueue
    unfold ssFbAdd
    split
    · rfl
    · split <;> rfl
  | fcfs =>
    change (ssFcfsAdd s i m).outqueue = s.outqueue
    unfold ssFcfsAdd
    split <;> rfl
  | _ => exact hwheel _

/-- Dropping messages touches the queue of the one stream. -/
theorem dropHead_outqueue (d : Discipline) (s : SsData) (i : StreamNo) :
    (s.dropHead d i).outqueue = Function.update s.outqueue i (s.outqueue i).tail := by
  have hremove : ∀ (t : SsData) (m : Waiting),
      ((ssFunctions d).removeFromStream t i m).outqueue = t.outqueue := by
    intro t m
    cases d with
    | fcfs => rfl
    | _ =>
      change (ssDefaultRemove t i m).outqueue = t.outqueue
      unfold ssDefaultRemove
      split <;> rfl
  unfold SsData.dropHead
  split
  · rename_i hq
    rw [hq, List.tail_nil, ← hq, Function.update_eq_self]
  · rename_i m rest hq
    rw [hremove, hq]
    rfl

theorem dropHeads_outqueue (d : Discipline) (i : StreamNo) (k : ℕ) (s : SsData) :
    (dropHeads d i k s).outqueue = Function.update s.outqueue i ((s.outqueue i).drop k) := by
  induction k generalizing s with
  | zero => rw [dropHeads, List.drop_zero, Function.update_eq_self]
  | succ k ih =>
    rw [dropHeads, ih, dropHead_outqueue, Function.update_self, Function.update_idem,
      ← List.drop_one, List.drop_drop, Nat.add_comm]

/-- First come, first served: the list has the messages of all queues. -/
structure ListOnce (s : SsData) : Prop where
  nodup : s.outList.Nodup
  ids : ∀ i, ((s.outqueue i).map Waiting.id).Nodup
  waits : ∀ i m, (i, m) ∈ s.outList ↔ m ∈ (s.outqueue i).map Waiting.id

structure ListExact (s : SsData) : Prop extends ListOnce s where
  last : ∀ i ∈ s.lastOutStream, s.outqueue i ≠ []

namespace ListOnce

variable {s : SsData}

theorem init : ListOnce SsData.init where
  nodup := List.nodup_nil
  ids _ := List.nodup_nil
  waits _ _ := by simp [SsData.init]

/-- Changes of length only. -/
theorem setOutqueue (h : ListOnce s) {i : StreamNo} {q : List Waiting}
    (hq : q.map Waiting.id = (s.outqueue i).map Waiting.id) : ListOnce (s.setOutqueue i q) := by
  have hsame : ∀ j, ((s.setOutqueue i q).outqueue j).map Waiting.id =
      (s.outqueue j).map Waiting.id := by
    intro j
    by_cases hji : j = i
    · rw [hji, setOutqueue_same, hq]
    · rw [setOutqueue_ne _ _ hji]
  refine ⟨h.nodup, fun j => ?_, fun j m => ?_⟩
  · rw [hsame]
    exact h.ids j
  · rw [hsame]
    exact h.waits j m

theorem queued (h : ListOnce s) {i : StreamNo} {m : Waiting}
    (hm : m.id ∉ (s.outqueue i).map Waiting.id) :
    ListOnce (ssFcfsAdd (s.setOutqueue i (s.outqueue i ++ [m])) i m) := by
  have hnew : (i, m.id) ∉ s.outList := fun hin => hm ((h.waits i m.id).1 hin)
  unfold ssFcfsAdd
  rw [if_neg (by exact hnew)]
  refine ⟨?_, fun j => ?_, fun j k => ?_⟩
  · exact List.nodup_append.2 ⟨h.nodup, List.nodup_singleton _, fun a ha b hb hab =>
      hnew (List.mem_singleton.1 hb ▸ hab ▸ ha)⟩
  · dsimp only
    by_cases hji : j = i
    · rw [hji, setOutqueue_same, List.map_append]
      exact List.nodup_append.2 ⟨h.ids i, List.nodup_singleton _, fun a ha b hb hab =>
        hm (List.mem_singleton.1 hb ▸ hab ▸ ha)⟩
    · rw [setOutqueue_ne _ _ hji]
      exact h.ids j
  · change (j, k) ∈ s.outList ++ [(i, m.id)] ↔ _
    dsimp only
    rw [List.mem_append, h.waits]
    by_cases hji : j = i
    · rw [hji, setOutqueue_same]
      simp
    · rw [setOutqueue_ne _ _ hji]
      simp [hji]

theorem dropHead (h : ListOnce s) (i : StreamNo) : ListOnce (s.dropHead .fcfs i) := by
  unfold SsData.dropHead
  split
  · exact h
  · rename_i m rest hq
    have hids := h.ids i
    rw [hq, List.map_cons, List.nodup_cons] at hids
    refine ⟨h.nodup.erase _, fun j => ?_, fun j k => ?_⟩
    · by_cases hji : j = i
      · rw [hji]
        exact (setOutqueue_same s i rest).symm ▸ hids.2
      · exact (setOutqueue_ne s rest hji).symm ▸ h.ids j
    · change (j, k) ∈ s.outList.erase (i, m.id) ↔ k ∈ ((s.setOutqueue i rest).outqueue j).map _
      rw [h.nodup.mem_erase_iff, h.waits]
      by_cases hji : j = i
      · rw [hji, setOutqueue_same, hq, List.map_cons, List.mem_cons]
        constructor
        · rintro ⟨hne, rfl | hk⟩
          · exact absurd rfl hne
          · exact hk
        · intro hk
          refine ⟨fun heq => hids.1 ?_, .inr hk⟩
          exact (Prod.mk.inj heq).2 ▸ hk
      · rw [setOutqueue_ne _ _ hji]
        exact and_iff_right (fun heq => hji (Prod.mk.inj heq).1)

theorem dropHeads (i : StreamNo) (k : ℕ) (h : ListOnce s) : ListOnce (dropHeads .fcfs i k s) := by
  induction k generalizing s with
  | zero => exact h
  | succ k ih => exact ih (h.dropHead i)

end ListOnce

theorem dropHeads_fcfs_lastOutStream (i : StreamNo) (k : ℕ) (s : SsData) :
    (dropHeads .fcfs i k s).lastOutStream = s.lastOutStream := by
  induction k generalizing s with
  | zero => rfl
  | succ k ih =>
    rw [dropHeads, ih]
    unfold SsData.dropHead
    split <;> rfl

/-- What calls keep whatever becomes of `last_out_stream`. -/
def SsOnce (d : Discipline) (s : SsData) : Prop :=
  match d with
  | .fcfs => ListOnce s
  | _ => WheelOnce s

namespace SsOnce

variable {d : Discipline} {s : SsData}

theorem of_ne (hd : d ≠ .fcfs) (s : SsData) : SsOnce d s ↔ WheelOnce s := by
  cases d with
  | fcfs => exact absurd rfl hd
  | _ => exact Iff.rfl

theorem waitsOnce (h : SsOnce d s) : WaitsOnce d s := by
  cases d with
  | fcfs => exact ⟨ListOnce.nodup h, ListOnce.waits h⟩
  | _ => exact ⟨WheelOnce.nodup h, WheelOnce.waits h⟩

theorem init (d : Discipline) : SsOnce d SsData.init := by
  cases d with
  | fcfs => exact ListOnce.init
  | _ => exact WheelOnce.init

/-- The scheduler sees the links and the queues only. -/
theorem congr {t : SsData} (h : SsOnce d s) (hwheel : t.wheel = s.wheel)
    (hlist : t.outList = s.outList) (hqueue : t.outqueue = s.outqueue) : SsOnce d t := by
  cases d with
  | fcfs =>
    have h : ListOnce s := h
    refine ⟨hlist ▸ h.nodup, hqueue ▸ h.ids, fun i m => ?_⟩
    rw [hlist, hqueue]
    exact h.waits i m
  | _ =>
    have h : WheelOnce s := h
    refine ⟨hwheel ▸ h.nodup, fun i => ?_⟩
    rw [hwheel, hqueue]
    exact h.waits i

theorem setOutqueue (h : SsOnce d s) {i : StreamNo} {q : List Waiting}
    (hq : q.map Waiting.id = (s.outqueue i).map Waiting.id) : SsOnce d (s.setOutqueue i q) := by
  by_cases hd : d = .fcfs
  · subst hd
    exact ListOnce.setOutqueue h hq
  · rw [of_ne hd] at h ⊢
    refine h.setOutqueue ?_
    rw [← List.map_eq_nil_iff (f := Waiting.id), hq, List.map_eq_nil_iff]

theorem queued (h : SsOnce d s) {i : StreamNo} {m : Waiting}
    (hm : m.id ∉ (s.outqueue i).map Waiting.id) :
    SsOnce d ((ssFunctions d).addToStream (s.setOutqueue i (s.outqueue i ++ [m])) i m) := by
  by_cases hd : d = .fcfs
  · subst hd
    exact ListOnce.queued h hm
  · rw [of_ne hd] at h ⊢
    exact h.queued hd i m

theorem dropHeads (i : StreamNo) (k : ℕ) (h : SsOnce d s) : SsOnce d (dropHeads d i k s) := by
  by_cases hd : d = .fcfs
  · subst hd
    exact ListOnce.dropHeads i k h
  · rw [of_ne hd] at h ⊢
    exact h.dropHeads hd i k

theorem scheduled (h : SsOnce d s) (i : StreamNo) : SsOnce d ((ssFunctions d).scheduled s i) := by
  cases d <;> exact h.congr rfl rfl rfl

end SsOnce

namespace ListExact

variable {s : SsData}

theorem init : ListExact SsData.init := ⟨ListOnce.init, nofun⟩

theorem setOutqueue (h : ListExact s) {i : StreamNo} {q : List Waiting}
    (hq : q.map Waiting.id = (s.outqueue i).map Waiting.id) : ListExact (s.setOutqueue i q) := by
  refine ⟨h.toListOnce.setOutqueue hq, fun j hj => ?_⟩
  by_cases hji : j = i
  · subst hji
    rw [setOutqueue_same, Ne, ← List.map_eq_nil_iff (f := Waiting.id), hq, List.map_eq_nil_iff]
    exact h.last j hj
  · rw [setOutqueue_ne _ _ hji]
    exact h.last j hj

theorem queued (h : ListExact s) {i : StreamNo} {m : Waiting}
    (hm : m.id ∉ (s.outqueue i).map Waiting.id) :
    ListExact (ssFcfsAdd (s.setOutqueue i (s.outqueue i ++ [m])) i m) := by
  refine ⟨h.toListOnce.queued hm, fun j hj => ?_⟩
  unfold ssFcfsAdd at hj ⊢
  rw [apply_ite SsData.lastOutStream, ite_self] at hj
  rw [apply_ite SsData.outqueue, ite_self]
  by_cases hji : j = i
  · rw [hji, setOutqueue_same]
    simp
  · rw [setOutqueue_ne _ _ hji]
    exact h.last j hj

theorem dropHeads (i : StreamNo) (k : ℕ) (h : ListExact s)
    (hlast : s.lastOutStream = some i → k < (s.outqueue i).length) :
    ListExact (dropHeads .fcfs i k s) := by
  refine ⟨h.toListOnce.dropHeads i k, fun j hj => ?_⟩
  rw [dropHeads_fcfs_lastOutStream] at hj
  rw [dropHeads_outqueue]
  by_cases hji : j = i
  · subst hji
    rw [Function.update_self, Ne, List.drop_eq_nil_iff, not_le]
    exact hlast hj
  · rw [Function.update_of_ne hji]
    exact h.last j hj

theorem scheduled (h : ListExact s) {i : StreamNo} (hq : s.outqueue i ≠ []) :
    ListExact (ssDefaultScheduled s i) where
  nodup := h.nodup
  ids := h.ids
  waits := h.waits
  last j hj := by
    obtain rfl : i = j := Option.some.inj hj
    exact hq

end ListExact

def SsInv (d : Discipline) (s : SsData) : Prop :=
  match d with
  | .fcfs => ListExact s
  | d => WheelExact d s

theorem ssInv_of_ne {d : Discipline} (hd : d ≠ .fcfs) (s : SsData) : SsInv d s ↔ WheelExact d s := by
  cases d with
  | fcfs => exact absurd rfl hd
  | _ => exact Iff.rfl

theorem map_id_modifyHead {q : List Waiting} {f : Waiting → Waiting}
    (hf : ∀ m, (f m).id = m.id) : (q.modifyHead f).map Waiting.id = q.map Waiting.id := by
  cases q <;> simp [hf]

theorem map_id_modifyLast {q : List Waiting} {f : Waiting → Waiting}
    (hf : ∀ m, (f m).id = m.id) : (q.modifyLast f).map Waiting.id = q.map Waiting.id := by
  obtain rfl | ⟨q, m, rfl⟩ := List.eq_nil_or_concat q
  · rfl
  · simp [List.modifyLast_concat, hf]

/-- A queue after a move of more than nothing. -/
def takenQueue (q : List Waiting) (dropped n : ℕ) (finished : Bool) : List Waiting :=
  if finished then (q.drop dropped).tail
  else (q.drop dropped).modifyHead fun m => { m with length := m.length - n }

theorem length_takenQueue (q : List Waiting) (dropped n : ℕ) (finished : Bool) :
    (takenQueue q dropped n finished).length = q.length - (dropped + finished.toNat) := by
  cases finished with
  | false => simp [takenQueue]
  | true =>
    simp only [takenQueue, if_true, List.length_tail, List.length_drop, Bool.toNat_true]
    omega

/-- The queues in front of the report to the scheduler. -/
theorem moved_outqueue (d : Discipline) (s : SsData) (i : StreamNo) (dropped n : ℕ)
    (finished : Bool) :
    (if finished then ((dropHeads d i dropped s).take i n).dropHead d i
      else (dropHeads d i dropped s).take i n).outqueue =
      Function.update s.outqueue i (takenQueue (s.outqueue i) dropped n finished) := by
  have htake : ((dropHeads d i dropped s).take i n).outqueue = Function.update s.outqueue i
      (((s.outqueue i).drop dropped).modifyHead fun m => { m with length := m.length - n }) := by
    simp only [SsData.take, setOutqueue, dropHeads_outqueue, Function.update_self,
      Function.update_idem]
  cases finished with
  | false => exact htake
  | true =>
    rw [if_pos rfl, dropHead_outqueue, htake, Function.update_self, Function.update_idem]
    cases hq : (s.outqueue i).drop dropped <;> simp [takenQueue, hq]

private theorem moved_ne_nil {d : Discipline} {s : SsData} {i : StreamNo} {dropped n : ℕ}
    {finished : Bool} (h : dropped + finished.toNat < (s.outqueue i).length) :
    (if finished then ((dropHeads d i dropped s).take i n).dropHead d i
      else (dropHeads d i dropped s).take i n).outqueue i ≠ [] := by
  rw [moved_outqueue, Function.update_self]
  refine List.ne_nil_of_length_pos ?_
  rw [length_takenQueue]
  omega

theorem WheelExact.step {d : Discipline} (hd : d ≠ .fcfs) {cmtOnOff fuel : ℕ} {s s' : SsData}
    {c : SsCall} (h : WheelExact d s) (hc : c.Regular d s)
    (hstep : ssStep d cmtOnOff fuel s c = some s') : WheelExact d s' := by
  cases c with
  | queued i m =>
    simp only [ssStep] at hstep
    split at hstep
    · cases hstep
    · obtain rfl := Option.some.inj hstep
      exact h.queued hd i m
  | appended i n =>
    obtain rfl := Option.some.inj hstep
    refine h.setOutqueue ?_
    rw [← List.map_eq_nil_iff (f := Waiting.id), map_id_modifyLast (by exact fun _ => rfl),
      List.map_eq_nil_iff]
  | moved i dropped n finished =>
    simp only [ssStep] at hstep
    split at hstep
    · obtain rfl := Option.some.inj hstep
      exact h.dropHeads hd i dropped
    · rename_i hn
      split at hstep
      · cases hstep
      · obtain rfl := Option.some.inj hstep
        have htaken : WheelExact d ((SsData.dropHeads d i dropped s).take i n) :=
          (h.dropHeads hd i dropped).setOutqueue List.modifyHead_eq_nil_iff
        refine WheelExact.scheduled hd ?_ ?_
        · split
          · exact htaken.dropHead hd i
          · exact htaken
        · exact moved_ne_nil (hc.1 hn)
  | packetDone net => exact h.packetDone hstep
  | setValue i value =>
    obtain rfl := Option.some.inj hstep
    cases d with
    | priority => exact h.ssPrioSetValue (hc rfl)
    | _ => exact h

theorem ListExact.step {cmtOnOff fuel : ℕ} {s s' : SsData} {c : SsCall} (h : ListExact s)
    (hc : c.Regular .fcfs s) (hstep : ssStep .fcfs cmtOnOff fuel s c = some s') :
    ListExact s' := by
  cases c with
  | queued i m =>
    simp only [ssStep] at hstep
    split at hstep
    · cases hstep
    · rename_i hm
      obtain rfl := Option.some.inj hstep
      exact h.queued hm
  | appended i n =>
    obtain rfl := Option.some.inj hstep
    exact h.setOutqueue (map_id_modifyLast fun _ => rfl)
  | moved i dropped n finished =>
    have hdropped : ListExact (SsData.dropHeads .fcfs i dropped s) :=
      h.dropHeads i dropped (hc.2 rfl)
    simp only [ssStep] at hstep
    split at hstep
    · obtain rfl := Option.some.inj hstep
      exact hdropped
    · rename_i hn
      split at hstep
      · cases hstep
      · obtain rfl := Option.some.inj hstep
        have htaken : ListExact ((SsData.dropHeads .fcfs i dropped s).take i n) :=
          hdropped.setOutqueue (map_id_modifyHead fun _ => rfl)
        have hleft := hc.1 hn
        refine ListExact.scheduled ?_ (moved_ne_nil hleft)
        split
        · rename_i hfin
          refine ListExact.dropHeads i 1 htaken fun _ => ?_
          rw [SsData.take, setOutqueue_same, List.length_modifyHead, dropHeads_outqueue,
            Function.update_self, List.length_drop]
          rw [hfin, Bool.toNat_true] at hleft
          omega
        · exact htaken
  | packetDone net =>
    obtain rfl : s = s' := Option.some.inj hstep
    exact h
  | setValue i value =>
    obtain rfl := Option.some.inj hstep
    exact h

/-- Every move keeps the links right, regular or not. -/
theorem SsOnce.moved {d : Discipline} {cmtOnOff fuel : ℕ} {s s' : SsData} {i : StreamNo}
    {dropped n : ℕ} {finished : Bool} (h : SsOnce d s)
    (hstep : ssStep d cmtOnOff fuel s (.moved i dropped n finished) = some s') :
    SsOnce d s' ∧ s'.outqueue = Function.update s.outqueue i
      (if n = 0 then (s.outqueue i).drop dropped
       else takenQueue (s.outqueue i) dropped n finished) := by
  simp only [ssStep] at hstep
  split at hstep
  · obtain rfl := Option.some.inj hstep
    rename_i hn
    rw [if_pos hn]
    exact ⟨h.dropHeads i dropped, dropHeads_outqueue d i dropped s⟩
  · rename_i hn
    split at hstep
    · cases hstep
    · obtain rfl := Option.some.inj hstep
      have htaken : SsOnce d ((SsData.dropHeads d i dropped s).take i n) :=
        (h.dropHeads i dropped).setOutqueue (map_id_modifyHead fun _ => rfl)
      constructor
      · refine SsOnce.scheduled ?_ i
        split
        · exact htaken.dropHeads i 1
        · exact htaken
      · rw [if_neg hn, ← moved_outqueue d]
        cases d <;> rfl

theorem SsInv.step {d : Discipline} {cmtOnOff fuel : ℕ} {s s' : SsData} {c : SsCall}
    (h : SsInv d s) (hc : c.Regular d s) (hstep : ssStep d cmtOnOff fuel s c = some s') :
    SsInv d s' := by
  by_cases hd : d = .fcfs
  · subst hd
    exact ListExact.step h hc hstep
  · rw [ssInv_of_ne hd] at h ⊢
    exact h.step hd hc hstep

theorem SsInv.exact {d : Discipline} {s : SsData} (h : SsInv d s) : SsExact d s := by
  cases d with
  | fcfs =>
    have h : ListExact s := h
    refine ⟨⟨h.nodup, h.waits⟩, fun i hi => ?_, trivial⟩
    obtain ⟨m, rest, hq⟩ := List.exists_cons_of_ne_nil (h.last i hi)
    exact ⟨m.id, (h.waits i m.id).2 (by simp [hq])⟩
  | _ =>
    have h : WheelExact _ s := h
    exact ⟨⟨h.nodup, h.waits⟩, h.last, h.sorted⟩

section Select

variable {cmtOnOff fuel : ℕ} {net : Option NetId} {s : SsData} {i : StreamNo}

theorem Sendable.not_blocked (h : Sendable cmtOnOff net s i) : blocked cmtOnOff net s i = false := by
  obtain ⟨m, hm, h⟩ := h
  have hm : (s.outqueue i).head? = some m := hm
  unfold blocked
  rw [hm]
  cases net with
  | none => rfl
  | some n =>
    obtain h | h | h | h := h
    · simp [h]
    · cases h
    · simp [h]
    · simp [h]

theorem Sendable.fbFits (h : Sendable cmtOnOff net s i) : fbFits cmtOnOff net s i = true := by
  obtain ⟨m, hm, h⟩ := h
  have hm : (s.outqueue i).head? = some m := hm
  unfold SsData.fbFits
  rw [hm]
  by_cases hcmt : cmtOnOff = 0
  · cases net with
    | none => simp [hcmt]
    | some n =>
      obtain h | h | h | h := h
      · exact absurd hcmt h
      · cases h
      · simp [hcmt, h]
      · simp [hcmt, h]
  · simp [Nat.pos_of_ne_zero hcmt]

theorem nextStream_eq_none (hnd : s.wheel.Nodup)
    (h : nextStream cmtOnOff fuel s net = some none) (hi : i ∈ s.wheel) :
    ¬ Sendable cmtOnOff net s i := by
  intro hsend
  obtain ⟨l₁, l₂, hl⟩ := List.append_of_mem hi
  have hnot := Ring.scan_around_eq_none hnd h hl
    (List.Pairwise.isChain (List.pairwise_of_forall fun _ _ => rfl))
  simp [hsend.not_blocked] at hnot

/-- The streams of the first priority are all looked at. -/
theorem ssPrioSelect_eq_none (hnd : s.wheel.Nodup) (hsorted : WheelSorted .priority s)
    (h : ssPrioSelect cmtOnOff fuel s net = some none) (hi : i ∈ s.wheel)
    (hfirst : ∀ j ∈ s.wheel.head?, s.priority i = s.priority j) :
    ¬ Sendable cmtOnOff net s i := by
  intro hsend
  obtain ⟨l₁, l₂, hl⟩ := List.append_of_mem hi
  have hsorted : s.wheel.Pairwise fun a b => s.priority a ≤ s.priority b := hsorted
  rw [hl] at hsorted hfirst
  have hsame : ∀ a ∈ l₁ ++ [i], s.priority a = s.priority i := by
    intro a ha
    obtain ha | ha := List.mem_append.1 ha
    · have hai : s.priority a ≤ s.priority i :=
        (List.pairwise_append.1 hsorted).2.2 a ha i List.mem_cons_self
      refine le_antisymm hai ?_
      cases l₁ with
      | nil => cases ha
      | cons j l₁ =>
        rw [hfirst j rfl]
        obtain rfl | ha := List.mem_cons.1 ha
        · exact le_rfl
        · exact (List.pairwise_cons.1 hsorted).1 a (List.mem_append_left _ ha)
    · rw [List.mem_singleton.1 ha]
  have hnot := Ring.scan_around_eq_none hnd h hl (List.Pairwise.isChain
    (List.pairwise_of_forall_mem_list fun a ha b hb => by simp [hsame a ha, hsame b hb]))
  simp [hsend.not_blocked] at hnot

/-- Once a stream is found, the scan does not answer with a null pointer. -/
theorem fbScan_some_ne_none {strq : StreamNo} (strqt : Option StreamNo) :
    fbScan cmtOnOff s net fuel strqt (some strq) ≠ some none := by
  induction fuel generalizing strqt strq with
  | zero => exact nofun
  | succ fuel ih =>
    obtain ⟨best, hbest⟩ : ∃ best, fbBetter cmtOnOff s net strqt (some strq) = some best := by
      unfold fbBetter
      split
      · exact ⟨strq, rfl⟩
      · split
        · exact ⟨_, rfl⟩
        · exact ⟨strq, rfl⟩
    simp only [fbScan, hbest]
    split
    · exact nofun
    · exact ih _

theorem fbScan_eq_none (hnd : s.wheel.Nodup) (hrounds : ∀ j ∈ s.wheel, 0 ≤ s.rounds j)
    (l₁ : List StreamNo) {l₂ : List StreamNo} (hne : l₂ ≠ []) (hl : s.wheel = l₁ ++ l₂)
    (h : fbScan cmtOnOff s net fuel l₂.head? none = some none) :
    ∀ j ∈ l₂, ¬ Sendable cmtOnOff net s j := by
  induction fuel generalizing l₁ l₂ with
  | zero => cases h
  | succ fuel ih =>
    obtain ⟨t, l₂, rfl⟩ := List.exists_cons_of_ne_nil hne
    have ht : t ∉ l₁ := by
      rw [hl] at hnd
      exact fun hin => (List.nodup_append.1 hnd).2.2 t hin t List.mem_cons_self rfl
    have hnext : fbNext s (some t) = l₂.head? := by
      rw [fbNext, hl]
      exact Ring.next_append ht
    have htrounds : 0 ≤ s.rounds t := hrounds t (by simp [hl])
    simp only [fbScan, List.head?_cons, hnext] at h
    by_cases hfits : fbFits cmtOnOff net s t
    · have hbest : fbBetter cmtOnOff s net (some t) none = some t := by
        simp [fbBetter, hfits, htrounds]
      rw [hbest] at h
      split at h
      · cases h
      · exact absurd h (fbScan_some_ne_none _)
    · have hbest : fbBetter cmtOnOff s net (some t) none = none := by
        simp [fbBetter, hfits]
      rw [hbest] at h
      intro j hj hsend
      obtain rfl | hj := List.mem_cons.1 hj
      · exact hfits hsend.fbFits
      · have hne : l₂ ≠ [] := List.ne_nil_of_mem hj
        rw [if_neg (by simpa using hne)] at h
        exact ih (l₁ ++ [t]) hne (by simpa using hl) h j hj hsend

theorem ssFbSelect_eq_none (hnd : s.wheel.Nodup) (hrounds : ∀ j ∈ s.wheel, 0 ≤ s.rounds j)
    (h : ssFbSelect cmtOnOff fuel s net = some none) (hi : i ∈ fbSeen s) :
    ¬ Sendable cmtOnOff net s i := by
  -- a scan from the first stream on
  have hwhole : ∀ fuel, fbScan cmtOnOff s net fuel s.wheel.head? none = some none → i ∈ s.wheel →
      ¬ Sendable cmtOnOff net s i := fun fuel h hi =>
    fbScan_eq_none hnd hrounds [] (List.ne_nil_of_mem hi) rfl h i hi
  unfold ssFbSelect fbFirst at h
  unfold fbSeen at hi
  cases hlast : s.lastOutStream with
  | none =>
    rw [hlast] at h hi
    exact hwhole fuel h hi
  | some t =>
    rw [hlast] at h hi
    dsimp only at h hi
    by_cases hsingle : s.wheel.head? = s.wheel.getLast?
    · rw [if_pos hsingle] at h
      rw [if_pos (.inl hsingle)] at hi
      exact hwhole fuel h hi
    · rw [if_neg hsingle] at h
      by_cases hbehind : Ring.behind t s.wheel = []
      · rw [if_pos (.inr hbehind)] at hi
        have hnone : Ring.next t s.wheel = none := by rw [Ring.next, hbehind, List.head?_nil]
        rw [hnone] at h
        cases fuel with
        | zero => cases h
        | succ fuel =>
          have hne : s.wheel.head? ≠ none := by
            rw [Ne, List.head?_eq_none_iff]
            exact List.ne_nil_of_mem hi
          have h : (if s.wheel.head? = none then some none
              else fbScan cmtOnOff s net fuel s.wheel.head? none) = some none := h
          rw [if_neg hne] at h
          exact hwhole fuel h hi
      · rw [if_neg (not_or.2 ⟨hsingle, hbehind⟩)] at hi
        obtain ⟨l₁, hl⟩ := Ring.behind_suffix t s.wheel
        exact fbScan_eq_none hnd hrounds l₁ hbehind hl.symm h i hi

theorem fcfsScan_eq_none {l : List (StreamNo × ℕ)} (h : fcfsScan cmtOnOff s net l = none) {m : ℕ}
    (hi : (i, m) ∈ l) : ¬ Sendable cmtOnOff net s i := by
  induction l with
  | nil => cases hi
  | cons sp l ih =>
    simp only [fcfsScan] at h
    split at h
    · rename_i hblocked
      obtain rfl | hi := List.mem_cons.1 hi
      · intro hsend
        rw [hsend.not_blocked] at hblocked
        cases hblocked
      · exact ih h hi
    · cases h

end Select

theorem SsInv.selectsAll {d : Discipline} {cmtOnOff : ℕ} {s : SsData} {net : Option NetId}
    (h : SsInv d s) (hsees : SelectSees d cmtOnOff s net) (fuel : ℕ) :
    SelectsAll d cmtOnOff fuel s net := by
  intro hnull i hi hsend
  cases d with
  | default | roundRobin =>
    have h : WheelExact _ s := h
    exact nextStream_eq_none h.nodup hnull hi hsend
  | roundRobinPacket =>
    have hnone : s.lastOutStream = none := Option.some.inj hnull
    obtain hlast | hempty := hsees
    · exact hlast hnone
    · have hi : i ∈ s.wheel := hi
      rw [hempty] at hi
      cases hi
  | priority =>
    have h : WheelExact .priority s := h
    obtain ⟨j, hj, hfirst, hjsend⟩ := hsees ⟨i, hi, hsend⟩
    exact ssPrioSelect_eq_none h.nodup h.sorted hnull hj hfirst hjsend
  | fairBandwidth =>
    have h : WheelExact .fairBandwidth s := h
    obtain ⟨j, hj, hjsend⟩ := hsees ⟨i, hi, hsend⟩
    exact ssFbSelect_eq_none h.nodup (h.rounds rfl) hnull hj hjsend
  | fcfs =>
    obtain ⟨m, hm⟩ := hi
    exact fcfsScan_eq_none (Option.some.inj hnull) hm hsend

/-- In runs of regular calls the wheel is exact, and a selection that sees the streams that could
send comes back empty only when there are none. -/
theorem ssRun_exact (d : Discipline) (cmtOnOff fuel : ℕ) (calls : List SsCall) {s : SsData}
    (hregular : Trace.Along (ssStep d cmtOnOff fuel) (fun s c => c.Regular d s) SsData.init calls)
    (hrun : ssRun d cmtOnOff fuel calls = some s) :
    SsExact d s ∧ ∀ (cmtOnOff fuel : ℕ) (net : Option NetId), SelectSees d cmtOnOff s net →
      SelectsAll d cmtOnOff fuel s net := by
  have hinit : SsInv d SsData.init := by
    cases d with
    | fcfs => exact ListExact.init
    | _ => exact WheelExact.init _
  have hinv : SsInv d s :=
    Trace.run_invariant (SsInv d) (fun _ _ _ h hc hstep => h.step hc hstep) hinit hregular hrun
  exact ⟨hinv.exact, fun cmtOnOff fuel net hsees => hinv.selectsAll hsees fuel⟩

def oneOfTwoSent : List SsCall :=
  [.queued 3 { id := 0, length := 10 }, .queued 3 { id := 1, length := 20 }, .moved 3 0 10 true]

theorem oneOfTwoSent_exact :
    ∃ s, ssRun .priority 0 8 oneOfTwoSent = some s ∧ SsExact .priority s :=
  ⟨_, rfl, (ssRun_exact .priority 0 8 oneOfTwoSent (by decide) rfl).1⟩

/-- A stream whose only message is sent is off the wheel and still the last one served. -/
theorem onlyMessageSent_not_exact :
    ¬ ∀ (d : Discipline) (cmtOnOff fuel : ℕ) (calls : List SsCall) (s : SsData),
      ssRun d cmtOnOff fuel calls = some s →
        SsExact d s ∧ ∀ (cmtOnOff fuel : ℕ) (net : Option NetId), SelectsAll d cmtOnOff fuel s net := by
  intro h
  obtain ⟨hexact, -⟩ := h .default 0 8 [.queued 0 { id := 0, length := 10 }, .moved 0 0 10 true]
    _ rfl
  have hin : (0 : StreamNo) ∈ ([] : List StreamNo) := hexact.last 0 rfl
  cases hin

end Sctp
