import Sctp.Callout.Model

/-! Every timer that is started fires once, at the first tick that reaches its deadline, as long as no tick
looks at a deadline on the other side of the counter's wrap and no timer is stopped or started between its
being taken off and the call of its function. -/
namespace Sctp.Callout

variable {τ κ : Type}

def epoch (x : ℤ) : ℤ := (x + 2 ^ 31) / 2 ^ 32

theorem toInt_ofInt_epoch (x : ℤ) : (BitVec.ofInt 32 x).toInt = x - 2 ^ 32 * epoch x := by
  rw [BitVec.toInt_ofInt, Int.bmod_def]
  unfold epoch
  split_ifs <;> omega

/-- Between two wraps the comparison of the code is that of the counts. -/
theorem sle_of_epoch {d t : ℤ} (h : epoch d = epoch t) :
    (BitVec.ofInt 32 d).sle (BitVec.ofInt 32 t) = decide (d ≤ t) := by
  rw [BitVec.sle, toInt_ofInt_epoch, toInt_ofInt_epoch, h]
  congr 1
  rw [eq_iff_iff]
  omega

/-- Every number that was issued is used up or stands for one timer. -/
structure Serials (used : List ℕ) (wanted : τ → Option (Start κ)) (issued : ℕ) : Prop where
  nodup : used.Nodup
  lt : ∀ n ∈ used, n < issued
  out : ∀ c, ∀ s ∈ wanted c, s.serial < issued ∧ s.serial ∉ used
  inj : ∀ c c', ∀ s ∈ wanted c, ∀ s' ∈ wanted c', s.serial = s'.serial → c = c'
  all : ∀ n < issued, n ∈ used ∨ ∃ c, ∃ s ∈ wanted c, s.serial = n

theorem Serials.perm {used used' : List ℕ} {wanted : τ → Option (Start κ)} {issued : ℕ}
    (h : Serials used wanted issued) (hperm : used.Perm used') : Serials used' wanted issued := by
  constructor
  · exact hperm.nodup_iff.mp h.nodup
  · intro n hn
    exact h.lt n (hperm.mem_iff.mpr hn)
  · intro c s hs
    exact ⟨(h.out c s hs).1, fun hin => (h.out c s hs).2 (hperm.mem_iff.mpr hin)⟩
  · exact h.inj
  · intro n hn
    rcases h.all n hn with hin | hout
    · exact Or.inl (hperm.mem_iff.mp hin)
    · exact Or.inr hout

variable [DecidableEq τ]

/-- The number of a timer is used up. -/
theorem Serials.retire {used : List ℕ} {wanted : τ → Option (Start κ)} {issued : ℕ}
    (h : Serials used wanted issued) (c : τ) :
    Serials (used ++ (wanted c).toList.map Start.serial) (Function.update wanted c none) issued := by
  have hother : ∀ c', ∀ s ∈ Function.update wanted c none c', c' ≠ c ∧ s ∈ wanted c' := by
    intro c' s hs
    by_cases hc : c' = c
    · rw [hc, Function.update_self] at hs
      cases hs
    · rw [Function.update_of_ne hc] at hs
      exact ⟨hc, hs⟩
  cases hw : wanted c with
  | none =>
    have hsame : Function.update wanted c none = wanted := by
      rw [← hw, Function.update_eq_self]
    rw [hsame]
    simpa using h
  | some s =>
    have hs : s ∈ wanted c := hw
    constructor
    · simp only [Option.toList_some, List.map_cons, List.map_nil]
      apply List.nodup_append.mpr
      refine ⟨h.nodup, List.nodup_singleton _, ?_⟩
      rintro n hn m hm rfl
      rw [List.mem_singleton] at hm
      exact (h.out c s hs).2 (hm ▸ hn)
    · intro n hn
      simp only [Option.toList_some, List.map_cons, List.map_nil, List.mem_append,
        List.mem_singleton] at hn
      rcases hn with hn | rfl
      · exact h.lt n hn
      · exact (h.out c s hs).1
    · intro c' s' hs'
      obtain ⟨hne, hs'⟩ := hother c' s' hs'
      refine ⟨(h.out c' s' hs').1, ?_⟩
      simp only [Option.toList_some, List.map_cons, List.map_nil, List.mem_append,
        List.mem_singleton]
      rintro (hin | heq)
      · exact (h.out c' s' hs').2 hin
      · exact hne (h.inj c' c s' hs' s hs heq)
    · intro c₁ c₂ s₁ hs₁ s₂ hs₂
      exact h.inj c₁ c₂ s₁ (hother c₁ s₁ hs₁).2 s₂ (hother c₂ s₂ hs₂).2
    · intro n hn
      simp only [Option.toList_some, List.map_cons, List.map_nil, List.mem_append,
        List.mem_singleton]
      rcases h.all n hn with hin | ⟨c', s', hs', rfl⟩
      · exact Or.inl (Or.inl hin)
      · by_cases hc : c' = c
        · left
          right
          rw [hc, hw] at hs'
          rw [Option.some.inj hs']
        · right
          refine ⟨c', s', ?_, rfl⟩
          rw [Function.update_of_ne hc]
          exact hs'

/-- A new number for a timer that has none. -/
theorem Serials.issue {used : List ℕ} {wanted : τ → Option (Start κ)} {issued : ℕ}
    (h : Serials used wanted issued) {c : τ} (hc : wanted c = none) {s : Start κ}
    (hs : s.serial = issued) : Serials used (Function.update wanted c (some s)) (issued + 1) := by
  have hcase : ∀ c', ∀ s' ∈ Function.update wanted c (some s) c',
      (c' = c ∧ s' = s) ∨ (c' ≠ c ∧ s' ∈ wanted c') := by
    intro c' s' hs'
    by_cases hcc : c' = c
    · rw [hcc, Function.update_self] at hs'
      exact Or.inl ⟨hcc, (Option.some.inj hs').symm⟩
    · rw [Function.update_of_ne hcc] at hs'
      exact Or.inr ⟨hcc, hs'⟩
  constructor
  · exact h.nodup
  · intro n hn
    exact Nat.lt_succ_of_lt (h.lt n hn)
  · intro c' s' hs'
    rcases hcase c' s' hs' with ⟨_, rfl⟩ | ⟨_, hold⟩
    · refine ⟨by omega, fun hin => ?_⟩
      have := h.lt _ hin
      omega
    · exact ⟨Nat.lt_succ_of_lt (h.out c' s' hold).1, (h.out c' s' hold).2⟩
  · intro c₁ c₂ s₁ hs₁ s₂ hs₂ heq
    rcases hcase c₁ s₁ hs₁ with ⟨rfl, rfl⟩ | ⟨_, hold₁⟩
    · rcases hcase c₂ s₂ hs₂ with ⟨rfl, _⟩ | ⟨_, hold₂⟩
      · rfl
      · have := (h.out c₂ s₂ hold₂).1
        omega
    · rcases hcase c₂ s₂ hs₂ with ⟨rfl, rfl⟩ | ⟨_, hold₂⟩
      · have := (h.out c₁ s₁ hold₁).1
        omega
      · exact h.inj c₁ c₂ s₁ hold₁ s₂ hold₂ heq
  · intro n hn
    rcases Nat.lt_succ_iff_lt_or_eq.mp hn with hlt | rfl
    · rcases h.all n hlt with hin | ⟨c', s', hs', rfl⟩
      · exact Or.inl hin
      · right
        refine ⟨c', s', ?_, rfl⟩
        rw [Function.update_of_ne]
        · exact hs'
        · rintro rfl
          rw [hc] at hs'
          cases hs'
    · right
      refine ⟨c, s, ?_, hs⟩
      rw [Function.update_self]
      rfl

namespace Timers

/-- The queue holds each pending timer once: those that are wanted, with what is wanted of them. -/
structure Linked (t : Timers τ κ) (w : τ → Option (Start κ)) : Prop where
  nodup : t.queue.Nodup
  pending : ∀ c, c ∈ t.queue ↔ (t.timer c).pending = true
  queued : ∀ c, c ∈ t.queue ↔ (w c).isSome
  time : ∀ c, ∀ s ∈ w c, (t.timer c).time = BitVec.ofInt 32 s.deadline
  call : ∀ c, ∀ s ∈ w c, (t.timer c).call = some s.call

variable {t t' : Timers τ κ} {w w' : τ → Option (Start κ)}

/-- A timer is taken off the queue. -/
theorem Linked.remove (h : t.Linked w) {c : τ} {o : OsTimer κ} (ho : o.pending = false)
    (hqueue : t'.queue = t.queue.erase c) (htimer : t'.timer = Function.update t.timer c o) :
    t'.Linked (Function.update w c none) := by
  constructor
  · rw [hqueue]
    exact h.nodup.erase c
  · intro b
    rw [hqueue, htimer]
    by_cases hb : b = c
    · subst hb
      rw [Function.update_self, ho]
      simp [h.nodup.not_mem_erase]
    · rw [Function.update_of_ne hb, List.mem_erase_of_ne hb]
      exact h.pending b
  · intro b
    rw [hqueue]
    by_cases hb : b = c
    · subst hb
      rw [Function.update_self]
      simp [h.nodup.not_mem_erase]
    · rw [Function.update_of_ne hb, List.mem_erase_of_ne hb]
      exact h.queued b
  · intro b s hs
    rw [htimer]
    by_cases hb : b = c
    · rw [hb, Function.update_self] at hs
      cases hs
    · rw [Function.update_of_ne hb] at hs ⊢
      exact h.time b s hs
  · intro b s hs
    rw [htimer]
    by_cases hb : b = c
    · rw [hb, Function.update_self] at hs
      cases hs
    · rw [Function.update_of_ne hb] at hs ⊢
      exact h.call b s hs

/-- A timer that is not queued is appended. -/
theorem Linked.insert (h : t.Linked w) {c : τ} (hc : c ∉ t.queue) {o : OsTimer κ} {s : Start κ}
    (ho : o.pending = true) (htime : o.time = BitVec.ofInt 32 s.deadline)
    (hcall : o.call = some s.call) (hqueue : t'.queue = t.queue ++ [c])
    (htimer : t'.timer = Function.update t.timer c o) (hw : w' = Function.update w c (some s)) :
    t'.Linked w' := by
  subst hw
  constructor
  · rw [hqueue]
    apply List.nodup_append.mpr
    refine ⟨h.nodup, List.nodup_singleton c, ?_⟩
    rintro b hb a ha rfl
    rw [List.mem_singleton] at ha
    exact hc (ha ▸ hb)
  · intro b
    rw [hqueue, htimer, List.mem_append, List.mem_singleton]
    by_cases hb : b = c
    · subst hb
      rw [Function.update_self, ho]
      simp
    · rw [Function.update_of_ne hb, or_iff_left hb]
      exact h.pending b
  · intro b
    rw [hqueue, List.mem_append, List.mem_singleton]
    by_cases hb : b = c
    · subst hb
      rw [Function.update_self]
      simp
    · rw [Function.update_of_ne hb, or_iff_left hb]
      exact h.queued b
  · intro b s' hs
    rw [htimer]
    by_cases hb : b = c
    · subst hb
      rw [Function.update_self] at hs ⊢
      rw [← Option.some.inj hs]
      exact htime
    · rw [Function.update_of_ne hb] at hs ⊢
      exact h.time b s' hs
  · intro b s' hs
    rw [htimer]
    by_cases hb : b = c
    · subst hb
      rw [Function.update_self] at hs ⊢
      rw [← Option.some.inj hs]
      exact hcall
    · rw [Function.update_of_ne hb] at hs ⊢
      exact h.call b s' hs

theorem unqueue_of_not_mem {c : τ} (hc : c ∉ t.queue) (hnext : t.next ≠ some c) :
    t.unqueue c = t := by
  unfold unqueue
  rw [if_neg hnext, List.erase_of_not_mem hc]

theorem Linked.start_eq (h : t.Linked w) (hnext : ∀ c ∈ t.next, c ∈ t.queue) (c : τ) (toTicks : ℤ) (call : κ) :
    t.start c toTicks call =
      { timer := Function.update t.timer c ⟨t.ticks + BitVec.ofInt 32 (max 1 toTicks), true, true, some call⟩
        queue := t.queue.erase c ++ [c]
        next := if t.next = some c then Ring.next c t.queue else t.next
        ticks := t.ticks } := by
  have hmax : (if toTicks ≤ 0 then 1 else toTicks) = max 1 toTicks := by
    split <;> omega
  have hunqueue : (if (t.timer c).pending then t.unqueue c else t) = t.unqueue c := by
    by_cases hp : (t.timer c).pending = true
    · rw [if_pos hp]
    · have hc : c ∉ t.queue := fun hc => hp ((h.pending c).mp hc)
      rw [if_neg hp, unqueue_of_not_mem hc]
      intro hat
      exact hc (hnext c hat)
  unfold start
  dsimp only
  rw [hmax, hunqueue]
  rfl

theorem Linked.stop_eq (h : t.Linked w) (hnext : ∀ c ∈ t.next, c ∈ t.queue) (c : τ) :
    t.stop c =
      { timer := Function.update t.timer c { t.timer c with active := false, pending := false }
        queue := t.queue.erase c
        next := if t.next = some c then Ring.next c t.queue else t.next
        ticks := t.ticks } := by
  unfold stop
  by_cases hp : (t.timer c).pending = true
  · rw [if_pos hp]
    rfl
  · have hc : c ∉ t.queue := fun hc => hp ((h.pending c).mp hc)
    have hat : t.next ≠ some c := fun hat => hc (hnext c hat)
    have hfalse : (t.timer c).pending = false := by simpa using hp
    rw [if_neg hp, if_neg hat, List.erase_of_not_mem hc, ← hfalse]
    rfl

/-- The loop goes on to the first due timer, or to the end. -/
theorem loop_spec (hq : t.queue.Nodup) {p : Option τ} {done rest : List τ}
    (h : Cursor.Splits t.queue p done rest) :
    (t.loop p = some ({ t with next := none }, none) ∧ ∀ c ∈ rest, t.due c = false) ∨
      ∃ pre d post, rest = pre ++ d :: post ∧ (∀ c ∈ pre, t.due c = false) ∧ t.due d = true ∧
        t.loop p = some (t.fire d, some d) := by
  cases rest with
  | nil =>
    left
    constructor
    · rw [h.next_eq]
      rfl
    · intro c hc
      cases hc
  | cons c rest =>
    have hp : p = some c := h.next_eq
    have hmem : c ∈ t.queue := by
      rw [h.queue_eq]
      exact List.mem_append_right _ List.mem_cons_self
    have hdrop := h.dropWhile hq hp
    cases hfind : (c :: rest).find? t.due with
    | none =>
      left
      constructor
      · rw [hp]
        unfold loop
        dsimp only
        rw [if_pos hmem, hdrop, hfind]
      · intro b hb
        simpa using List.find?_eq_none.mp hfind b hb
    | some d =>
      right
      obtain ⟨hd, pre, post, hsplit, hpre⟩ := List.find?_eq_some_iff_append.mp hfind
      refine ⟨pre, d, post, hsplit, ?_, hd, ?_⟩
      · intro b hb
        simpa using hpre b hb
      · rw [hp]
        unfold loop
        dsimp only
        rw [if_pos hmem, hdrop, hfind]

end Timers

namespace History

/-- The timers that a tick looks at have deadlines in the epoch of its count. -/
def Aligned (w : τ → Option (Start κ)) (count : ℤ) (t : Timers τ κ) : List τ → Prop
  | [] => True
  | c :: cs =>
    (∀ s ∈ w c, epoch s.deadline = epoch count) ∧ (t.due c = false → Aligned w count t cs)

instance Aligned.decidable (w : τ → Option (Start κ)) (count : ℤ) (t : Timers τ κ) :
    ∀ l, Decidable (Aligned w count t l)
  | [] => .isTrue trivial
  | _ :: cs =>
    have := Aligned.decidable w count t cs
    inferInstanceAs (Decidable (_ ∧ (_ → _)))

/-- No event makes a tick look across a wrap of the counter or overtakes a call. -/
def OnOneSide (h : History τ κ) : Event τ κ → Prop
  | .start c _ _ => h.place.timer ≠ some c
  | .stop c => h.place.timer ≠ some c
  | .tick delta =>
    Aligned h.wanted (h.count + delta) { h.timers with ticks := h.timers.ticks + BitVec.ofNat 32 delta }
      h.timers.queue
  | .goOn =>
    Aligned h.wanted h.count h.timers
      (match h.timers.next with
        | none => []
        | some c => h.timers.queue.dropWhile (· ≠ c))
  | .call => True

instance OnOneSide.decidable (h : History τ κ) : ∀ e, Decidable (h.OnOneSide e)
  | .start _ _ _ => inferInstanceAs (Decidable (_ ≠ _))
  | .stop _ => inferInstanceAs (Decidable (_ ≠ _))
  | .tick _ => inferInstanceAs (Decidable (Aligned _ _ _ _))
  | .call => .isTrue trivial
  | .goOn => inferInstanceAs (Decidable (Aligned _ _ _ _))

/-- The numbers of the starts whose callbacks were called. -/
def fired (h : History τ κ) : List ℕ := h.log.flatMap fun f => f.start.toList.map Start.serial

end History

/-- A call for a start that was neither stopped nor replaced, at the first tick that reaches its deadline,
of the callback of that start. -/
def Firing.Right (f : Firing κ) : Prop :=
  ∃ s, f.start = some s ∧ f.call = some s.call ∧ f.before < s.deadline ∧ s.deadline ≤ f.count

namespace History

/-- Each start was cancelled, or its callback was called once or is about to be, or it waits for its deadline. -/
structure Exact (h : History τ κ) : Prop where
  right : ∀ f ∈ h.log, f.Right
  serials : Serials (h.fired ++ h.called ++ h.cancelled) h.wanted h.issued
  queued : ∀ c, c ∈ h.timers.queue ↔ (h.wanted c).isSome
  waits : h.place = .outside → ∀ c, ∀ s ∈ h.wanted c, h.count < s.deadline

/-- An event that can happen does so: no pointer leads to a timer that is not queued. -/
def Goes (h : History τ κ) : Event τ κ → Prop
  | .tick delta => h.place = .outside → (h.step (.tick delta)).isSome
  | .call => h.place.timer.isSome → (h.step .call).isSome
  | .goOn => h.place = .inCallback → (h.step .goOn).isSome
  | e => (h.step e).isSome

structure Base (h : History τ κ) : Prop where
  linked : h.timers.Linked h.wanted
  ticks : h.timers.ticks = BitVec.ofInt 32 h.count
  before : ∀ c, ∀ s ∈ h.wanted c, h.before < s.deadline
  before_le : h.before ≤ h.count
  right : ∀ f ∈ h.log, f.Right
  rightly : ∀ c f, h.place = .dequeued c f → f.Right
  serials : Serials (h.fired ++ h.called ++ h.cancelled) h.wanted h.issued

/-- What a tick has passed is not due; outside of a tick everything is passed. -/
structure Inv (h : History τ κ) : Prop extends Base h where
  passed : ∃ done rest, Cursor.Splits h.timers.queue h.timers.next done rest ∧
    (h.place = .outside → rest = []) ∧ ∀ c ∈ done, ∀ s ∈ h.wanted c, h.count < s.deadline

variable {h : History τ κ}

omit [DecidableEq τ] in
/-- Outside of a tick every deadline is still to come. -/
theorem Inv.waits (hi : h.Inv) (hout : h.place = .outside) :
    ∀ c, ∀ s ∈ h.wanted c, h.count < s.deadline := by
  obtain ⟨done, rest, hsplit, hrest, hdone⟩ := hi.passed
  intro c s hs
  apply hdone c _ s hs
  have hc : c ∈ h.timers.queue := (hi.linked.queued c).mpr (Option.isSome_iff_exists.mpr ⟨s, hs⟩)
  rw [hsplit.queue_eq, hrest hout, List.append_nil] at hc
  exact hc

omit [DecidableEq τ] in
theorem Inv.exact (hi : h.Inv) : h.Exact := ⟨hi.right, hi.serials, hi.linked.queued, hi.waits⟩

omit [DecidableEq τ] in
/-- Which timers are due, where none is looked at across a wrap. -/
theorem Aligned.due {w : τ → Option (Start κ)} {count : ℤ} {t : Timers τ κ} {l : List τ} (ha : Aligned w count t l)
    (hticks : t.ticks = BitVec.ofInt 32 count)
    (htime : ∀ c, ∀ s ∈ w c, (t.timer c).time = BitVec.ofInt 32 s.deadline) {pre post : List τ}
    {c : τ} (hl : l = pre ++ c :: post) (hpre : ∀ b ∈ pre, t.due b = false) :
    ∀ s ∈ w c, (t.due c = true ↔ s.deadline ≤ count) := by
  induction pre generalizing l with
  | nil =>
    subst hl
    intro s hs
    unfold Timers.due
    rw [hticks, htime c s hs, sle_of_epoch (ha.1 s hs), decide_eq_true_eq]
  | cons b pre ih =>
    subst hl
    exact ih (ha.2 (hpre b List.mem_cons_self)) rfl fun b' hb' => hpre b' (List.mem_cons_of_mem _ hb')

/-- A timer that is not about to be called is stopped or started anew. -/
theorem overtake_of_ne {p : Place τ κ} {c : τ} (hc : p.timer ≠ some c) : p.overtake c = p := by
  cases p with
  | outside => rfl
  | inCallback => rfl
  | dequeued d f =>
    have hd : d ≠ c := fun h => hc (congrArg some h)
    unfold Place.overtake
    dsimp only
    rw [if_neg hd]

theorem cancels_of_ne {c : τ} (hc : h.place.timer ≠ some c) : h.cancels c = h.serialOf c := by
  unfold cancels
  rw [if_neg hc, List.append_nil]

/-- What is wanted of the other timers. -/
theorem mem_update_of_ne {w : τ → Option (Start κ)} {c c' : τ} {o : Option (Start κ)} (hc : c' ≠ c)
    {s : Start κ} : s ∈ Function.update w c o c' ↔ s ∈ w c' := by
  rw [Function.update_of_ne hc]

theorem Inv.start (hi : h.Inv) {c : τ} {toTicks : ℤ} {call : κ}
    (hside : h.OnOneSide (.start c toTicks call)) {h' : History τ κ}
    (hs : h.step (.start c toTicks call) = some h') : h'.Inv := by
  obtain ⟨done, rest, hsplit, hrest, hdone⟩ := hi.passed
  have hremove := hsplit.remove hi.linked.nodup c
  have happend := hremove.append c
  unfold step at hs
  dsimp only at hs
  rw [hi.linked.start_eq fun _ hat => hsplit.mem_of_next hat, overtake_of_ne hside, cancels_of_ne hside] at hs
  cases hs
  have hnew : ∀ b, ∀ s ∈ Function.update h.wanted c
      (some (⟨h.issued, h.count + max 1 toTicks, call⟩ : Start κ)) b,
      h.count < s.deadline ∨ (b ≠ c ∧ s ∈ h.wanted b) := by
    intro b s hs
    by_cases hb : b = c
    · rw [hb, Function.update_self] at hs
      rw [← Option.some.inj hs]
      left
      dsimp only
      omega
    · right
      exact ⟨hb, (mem_update_of_ne hb).mp hs⟩
  refine ⟨⟨?_, ?_, ?_, ?_, ?_, ?_, ?_⟩, ?_⟩
  · have hoff : Timers.Linked { h.timers with
        queue := h.timers.queue.erase c
        timer := Function.update h.timers.timer c { h.timers.timer c with pending := false } }
        (Function.update h.wanted c none) := hi.linked.remove rfl rfl rfl
    apply hoff.insert hi.linked.nodup.not_mem_erase
      (o := ⟨h.timers.ticks + BitVec.ofInt 32 (max 1 toTicks), true, true, some call⟩)
      (s := ⟨h.issued, h.count + max 1 toTicks, call⟩) rfl
    · rw [hi.ticks, ← BitVec.ofInt_add]
    · rfl
    · rfl
    · exact (Function.update_idem _ _ _).symm
    · exact (Function.update_idem _ _ _).symm
  · exact hi.ticks
  · intro b s hs
    rcases hnew b s hs with hlater | ⟨_, hold⟩
    · exact hi.before_le.trans_lt hlater
    · exact hi.before b s hold
  · exact hi.before_le
  · exact hi.right
  · exact hi.rightly
  · have hissued := (hi.serials.retire c).issue (c := c)
      (s := ⟨h.issued, h.count + max 1 toTicks, call⟩) (Function.update_self _ _ _) rfl
    rw [Function.update_idem, List.append_assoc] at hissued
    exact hissued
  · refine ⟨_, _, happend, ?_, ?_⟩
    · intro hout
      rw [hrest hout]
      rfl
    · intro b hbdone s hs
      rcases hnew b s hs with hlater | ⟨hb, hold⟩
      · exact hlater
      · apply hdone b _ s hold
        split at hbdone
        · rcases List.mem_append.mp hbdone with hin | hin
          · exact List.mem_of_mem_erase hin
          · exact absurd (List.mem_singleton.mp hin) hb
        · exact List.mem_of_mem_erase hbdone

theorem mem_of_mem_update_none {w : τ → Option (Start κ)} {b c : τ} {s : Start κ}
    (hs : s ∈ Function.update w c none b) : b ≠ c ∧ s ∈ w b := by
  by_cases hb : b = c
  · rw [hb, Function.update_self] at hs
    cases hs
  · exact ⟨hb, (mem_update_of_ne hb).mp hs⟩

theorem Inv.stop (hi : h.Inv) {c : τ} (hside : h.OnOneSide (.stop c)) {h' : History τ κ}
    (hs : h.step (.stop c) = some h') : h'.Inv := by
  obtain ⟨done, rest, hsplit, hrest, hdone⟩ := hi.passed
  unfold step at hs
  dsimp only at hs
  rw [hi.linked.stop_eq fun _ hat => hsplit.mem_of_next hat, overtake_of_ne hside, cancels_of_ne hside] at hs
  cases hs
  refine ⟨⟨?_, ?_, ?_, ?_, ?_, ?_, ?_⟩, ?_⟩
  · exact hi.linked.remove rfl rfl rfl
  · exact hi.ticks
  · intro b s hs
    exact hi.before b s (mem_of_mem_update_none hs).2
  · exact hi.before_le
  · exact hi.right
  · exact hi.rightly
  · have hretired := hi.serials.retire c
    rw [List.append_assoc] at hretired
    exact hretired
  · refine ⟨_, _, hsplit.remove hi.linked.nodup c, ?_, ?_⟩
    · intro hout
      rw [hrest hout]
      rfl
    · intro b hb s hs
      exact hdone b (List.mem_of_mem_erase hb) s (mem_of_mem_update_none hs).2

/-- The loop of a tick, from a pointer on. -/
theorem Base.record (hi : h.Base) (hcalled : h.called = []) {p : Option τ} {done rest : List τ}
    (hsplit : Cursor.Splits h.timers.queue p done rest)
    (hdone : ∀ c ∈ done, ∀ s ∈ h.wanted c, h.count < s.deadline)
    (ha : Aligned h.wanted h.count h.timers rest) :
    ∃ r, h.timers.loop p = some r ∧ (h.record r).Inv := by
  have hpassed : ∀ pre : List τ, pre <+: rest → (∀ b ∈ pre, h.timers.due b = false) →
      ∀ c ∈ done ++ pre, ∀ s ∈ h.wanted c, h.count < s.deadline := by
    rintro pre ⟨post, hpost⟩ hpre c hc s hs
    rcases List.mem_append.mp hc with hc | hc
    · exact hdone c hc s hs
    · obtain ⟨pre₁, pre₂, rfl⟩ := List.append_of_mem hc
      rw [List.append_assoc, List.cons_append] at hpost
      have hiff := ha.due hi.ticks hi.linked.time hpost.symm
        (fun b hb => hpre b (List.mem_append_left _ hb)) s hs
      rw [hpre c (List.mem_append_right _ List.mem_cons_self)] at hiff
      by_contra hle
      exact absurd (hiff.mpr (by omega)) Bool.false_ne_true
  rcases Timers.loop_spec hi.linked.nodup hsplit with ⟨hloop, hnone⟩ |
    ⟨pre, d, post, hrest, hpre, hdue, hloop⟩
  · refine ⟨_, hloop, ?_⟩
    refine ⟨⟨?_, ?_, ?_, ?_, ?_, ?_, ?_⟩, ?_⟩
    · exact ⟨hi.linked.nodup, hi.linked.pending, hi.linked.queued, hi.linked.time, hi.linked.call⟩
    · exact hi.ticks
    · exact hi.before
    · exact hi.before_le
    · exact hi.right
    · intro c f hf
      cases hf
    · have hserials := hi.serials
      rw [hcalled] at hserials
      exact hserials
    · refine ⟨h.timers.queue, [], ⟨(List.append_nil _).symm, rfl⟩, fun _ => rfl, ?_⟩
      intro c hc
      apply hpassed rest (List.prefix_refl rest) hnone
      rw [← hsplit.queue_eq]
      exact hc
  · refine ⟨_, hloop, ?_⟩
    have hd : d ∈ h.timers.queue := by
      rw [hsplit.queue_eq, hrest]
      simp
    obtain ⟨s, hs⟩ := Option.isSome_iff_exists.mp ((hi.linked.queued d).mp hd)
    have htake := hsplit.take hi.linked.nodup hrest
    refine ⟨⟨?_, ?_, ?_, ?_, ?_, ?_, ?_⟩, ?_⟩
    · exact hi.linked.remove rfl rfl rfl
    · exact hi.ticks
    · intro c s' hs'
      exact hi.before c s' (mem_of_mem_update_none hs').2
    · exact hi.before_le
    · exact hi.right
    · intro c f hf
      obtain ⟨rfl, rfl⟩ := Place.dequeued.inj hf
      refine ⟨s, hs, ?_, hi.before d s hs, ?_⟩
      · rw [← hi.linked.call d s hs]
        unfold Timers.fire Timers.set
        dsimp only
        rw [Function.update_self]
      · exact (ha.due hi.ticks hi.linked.time hrest hpre s hs).mp hdue
    · have hretired := hi.serials.retire d
      rw [hcalled, List.append_nil] at hretired
      apply hretired.perm
      change ((h.fired ++ h.cancelled) ++ h.serialOf d).Perm ((h.fired ++ h.serialOf d) ++ h.cancelled)
      rw [List.append_assoc, List.append_assoc]
      exact List.Perm.append_left _ List.perm_append_comm
    · refine ⟨_, _, htake, ?_, ?_⟩
      · intro hout
        cases hout
      · intro c hc s' hs'
        exact hpassed pre ⟨d :: post, hrest.symm⟩ hpre c hc s' (mem_of_mem_update_none hs').2

/-- Only the timers that a loop leaves behind count for the record. -/
theorem record_timers (h : History τ κ) (t : Timers τ κ) (r : Timers τ κ × Option τ) :
    ({ h with timers := t } : History τ κ).record r = h.record r := by
  unfold History.record
  cases r.2 <;> rfl

theorem place_of_tick {delta : ℕ} {h' : History τ κ} (hs : h.step (.tick delta) = some h') :
    h.place = .outside := by
  unfold step at hs
  dsimp only at hs
  cases hplace : h.place with
  | outside => rfl
  | dequeued c f =>
    rw [hplace] at hs
    cases hs
  | inCallback =>
    rw [hplace] at hs
    cases hs

theorem place_of_goOn {h' : History τ κ} (hs : h.step .goOn = some h') : h.place = .inCallback := by
  unfold step at hs
  dsimp only at hs
  cases hplace : h.place with
  | outside =>
    rw [hplace] at hs
    cases hs
  | dequeued c f =>
    rw [hplace] at hs
    cases hs
  | inCallback => rfl

theorem place_of_call {h' : History τ κ} (hs : h.step .call = some h') : ∃ c f, h.place = .dequeued c f := by
  unfold step at hs
  dsimp only at hs
  cases hplace : h.place with
  | outside =>
    rw [hplace] at hs
    cases hs
  | dequeued c f => exact ⟨c, f, rfl⟩
  | inCallback =>
    rw [hplace] at hs
    cases hs

theorem Inv.tick (hi : h.Inv) {delta : ℕ} (hside : h.OnOneSide (.tick delta)) (hout : h.place = .outside) :
    ∃ h', h.step (.tick delta) = some h' ∧ h'.Inv := by
  have hbase : History.Base { h with
      timers := { h.timers with ticks := h.timers.ticks + BitVec.ofNat 32 delta }
      count := h.count + delta
      before := h.count } := by
    refine ⟨⟨hi.linked.nodup, hi.linked.pending, hi.linked.queued, hi.linked.time, hi.linked.call⟩,
      ?_, hi.waits hout, ?_, hi.right, hi.rightly, hi.serials⟩
    · change h.timers.ticks + BitVec.ofNat 32 delta = BitVec.ofInt 32 (h.count + delta)
      rw [hi.ticks, BitVec.ofInt_add, BitVec.ofInt_natCast]
    · change h.count ≤ h.count + delta
      omega
  have hsplits : Cursor.Splits h.timers.queue h.timers.queue.head? [] h.timers.queue := ⟨rfl, rfl⟩
  have hcalled : h.called = [] := by
    unfold called
    rw [hout]
    rfl
  obtain ⟨r, hr, hinv⟩ := hbase.record hcalled hsplits (fun c hc => absurd hc List.not_mem_nil) hside
  refine ⟨_, ?_, hinv⟩
  unfold step
  simp only [hout]
  have hloop : h.timers.tick delta = some r := hr
  rw [hloop, Option.map_some]
  exact congrArg some (record_timers _ _ r).symm

theorem Inv.goOn (hi : h.Inv) (hside : h.OnOneSide .goOn) (hin : h.place = .inCallback) :
    ∃ h', h.step .goOn = some h' ∧ h'.Inv := by
  obtain ⟨done, rest, hsplit, _, hdone⟩ := hi.passed
  have hvisit : (match h.timers.next with
      | none => []
      | some c => h.timers.queue.dropWhile (· ≠ c)) = rest := by
    cases hnext : h.timers.next with
    | none =>
      rw [hsplit.next_eq] at hnext
      exact (List.head?_eq_none_iff.mp hnext).symm
    | some c => exact hsplit.dropWhile hi.linked.nodup hnext
  have ha : Aligned h.wanted h.count h.timers rest := by
    rw [← hvisit]
    exact hside
  have hcalled : h.called = [] := by
    unfold called
    rw [hin]
    rfl
  obtain ⟨r, hr, hinv⟩ := hi.toBase.record hcalled hsplit hdone ha
  refine ⟨_, ?_, hinv⟩
  unfold step
  simp only [hin]
  have hloop : h.timers.goOn = some r := hr
  rw [hloop]
  rfl

/-- The function is called. -/
theorem Inv.call (hi : h.Inv) {c : τ} {f : Firing κ} (hplace : h.place = .dequeued c f) :
    ∃ h', h.step .call = some h' ∧ h'.Inv := by
  have hcalled : h.called = f.start.toList.map Start.serial := by
    unfold called
    rw [hplace]
    rfl
  refine ⟨{ h with place := .inCallback, log := h.log ++ [f] }, ?_, ?_⟩
  · unfold step
    simp only [hplace]
  · obtain ⟨done, rest, hsplit, _, hdone⟩ := hi.passed
    refine ⟨⟨hi.linked, hi.ticks, hi.before, hi.before_le, ?_, ?_, ?_⟩, done, rest, hsplit, ?_, hdone⟩
    · intro f' hf
      rcases List.mem_append.mp hf with hf | hf
      · exact hi.right f' hf
      · rw [List.mem_singleton.mp hf]
        exact hi.rightly c f hplace
    · intro c' f' hf
      cases hf
    · have hserials := hi.serials
      rw [hcalled] at hserials
      have hfired : History.fired { h with place := .inCallback, log := h.log ++ [f] } =
          h.fired ++ f.start.toList.map Start.serial := by
        unfold fired
        dsimp only
        rw [List.flatMap_append, List.flatMap_singleton]
      have hnone : History.called { h with place := .inCallback, log := h.log ++ [f] } = [] := rfl
      rw [hfired, hnone, List.append_nil]
      exact hserials
    · intro hout
      cases hout

theorem Inv.step (hi : h.Inv) {e : Event τ κ} (hside : h.OnOneSide e) {h' : History τ κ}
    (hs : h.step e = some h') : h'.Inv := by
  cases e with
  | start c toTicks call => exact hi.start hside hs
  | stop c => exact hi.stop hside hs
  | tick delta =>
    obtain ⟨h'', hs'', hinv⟩ := hi.tick hside (place_of_tick hs)
    rw [hs] at hs''
    exact Option.some.inj hs'' ▸ hinv
  | call =>
    obtain ⟨c, f, hplace⟩ := place_of_call hs
    obtain ⟨h'', hs'', hinv⟩ := hi.call hplace
    rw [hs] at hs''
    exact Option.some.inj hs'' ▸ hinv
  | goOn =>
    obtain ⟨h'', hs'', hinv⟩ := hi.goOn hside (place_of_goOn hs)
    rw [hs] at hs''
    exact Option.some.inj hs'' ▸ hinv

theorem Inv.goes (hi : h.Inv) {e : Event τ κ} (hside : h.OnOneSide e) : h.Goes e := by
  cases e with
  | start c toTicks call => rfl
  | stop c => rfl
  | tick delta =>
    intro hout
    obtain ⟨h', hs, _⟩ := hi.tick hside hout
    rw [hs]
    rfl
  | call =>
    intro hsome
    cases hplace : h.place with
    | outside =>
      rw [hplace] at hsome
      cases hsome
    | dequeued c f =>
      obtain ⟨h', hs, _⟩ := hi.call hplace
      rw [hs]
      rfl
    | inCallback =>
      rw [hplace] at hsome
      cases hsome
  | goOn =>
    intro hin
    obtain ⟨h', hs, _⟩ := hi.goOn hside hin
    rw [hs]
    rfl

/-- No timer was started yet. The timers themselves hold anything, but none is pending. -/
def startup (timer : τ → OsTimer κ) (count : ℤ) : History τ κ where
  timers :=
    { timer := fun c => { timer c with pending := false }
      queue := []
      next := none
      ticks := BitVec.ofInt 32 count }
  place := .outside
  count := count
  before := count
  wanted := fun _ => none
  issued := 0
  cancelled := []
  log := []

omit [DecidableEq τ] in
theorem inv_startup (timer : τ → OsTimer κ) (count : ℤ) : (startup timer count).Inv := by
  refine ⟨⟨⟨List.nodup_nil, ?_, ?_, ?_, ?_⟩, rfl, ?_, le_refl _, ?_, ?_, ?_⟩, ?_⟩
  · intro c
    simp [startup]
  · intro c
    simp [startup]
  · intro c s hs
    cases hs
  · intro c s hs
    cases hs
  · intro c s hs
    cases hs
  · intro f hf
    cases hf
  · intro c f hf
    cases hf
  · refine ⟨List.nodup_nil, ?_, ?_, ?_, ?_⟩
    · intro n hn
      cases hn
    · intro c s hs
      cases hs
    · intro c c' s hs
      cases hs
    · intro n hn
      cases hn
  · refine ⟨[], [], ⟨rfl, rfl⟩, fun _ => rfl, ?_⟩
    intro c hc
    cases hc

/-- In every run in which no tick looks across a wrap of the counter and no call is overtaken each start that is
neither stopped nor replaced has its callback called once, at the first tick that reaches its deadline, and
every event goes through. -/
theorem timerRun_exact (timer : τ → OsTimer κ) (count : ℤ) {es : List (Event τ κ)} {h' : History τ κ}
    (hside : Trace.Along step OnOneSide (startup timer count) es)
    (hrun : Trace.run step (startup timer count) es = some h') :
    h'.Exact ∧ Trace.Along step Goes (startup timer count) es := by
  constructor
  · exact (Trace.run_invariant Inv (fun _ _ _ hi ho hs => hi.step ho hs) (inv_startup timer count) hside
      hrun).exact
  · exact hside.of_invariant Inv (fun _ _ _ hi ho hs => hi.step ho hs) (fun _ _ hi ho => hi.goes ho)
      (inv_startup timer count)

/-- A timer fires, and its callback restarts it, stops the next one and starts a third one. Another one is
stopped before a call. -/
def busyRun : List (Event ℕ ℕ) :=
  [.start 1 3 10, .start 2 3 20, .start 3 4 30, .tick 3, .call, .start 1 1 11, .stop 2, .start 4 0 40, .goOn,
    .tick 1, .call, .goOn, .stop 7, .call, .goOn, .call, .goOn, .tick 5]

theorem busyRun_exact : ∃ h, Trace.run step (startup (fun _ => ⟨0#32, false, false, none⟩) 2147483640)
    busyRun = some h ∧ h.Exact ∧ h.log.map Firing.call = [some 10, some 30, some 11, some 40] := by
  have hside : Trace.Along step OnOneSide (startup (fun _ => ⟨0#32, false, false, none⟩) 2147483640)
      busyRun := by
    decide +kernel
  have hlog : (Trace.run step (startup (fun _ => ⟨0#32, false, false, none⟩) 2147483640) busyRun).map
      (fun h => h.log.map Firing.call) = some [some 10, some 30, some 11, some 40] := by
    decide +kernel
  obtain ⟨h, hrun, hcalls⟩ := Option.map_eq_some_iff.mp hlog
  exact ⟨h, hrun, (timerRun_exact _ _ hside hrun).1, hcalls⟩

/-- Shortly before the counter wraps a timer for five ticks is called back at the next one. -/
theorem wrapRun_not_exact : ∃ h, Trace.run step
    (startup (fun _ => ⟨0#32, false, false, none⟩) 2147483645 : History ℕ ℕ)
    [.start 1 5 10, .tick 1, .call] = some h ∧ ¬ h.Exact := by
  have hlog : (Trace.run step (startup (fun _ => ⟨0#32, false, false, none⟩) 2147483645 : History ℕ ℕ)
      [.start 1 5 10, .tick 1, .call]).map (fun h => h.log.map fun f =>
        (f.start.map Start.deadline, f.count)) = some [(some 2147483650, 2147483646)] := by
    decide +kernel
  obtain ⟨h, hrun, hlog⟩ := Option.map_eq_some_iff.mp hlog
  refine ⟨h, hrun, ?_⟩
  intro hexact
  obtain ⟨f, hf, hpair⟩ := List.mem_map.mp (hlog ▸ List.mem_singleton_self _ :
    ((some 2147483650, 2147483646) : Option ℤ × ℤ) ∈ h.log.map fun f => (f.start.map Start.deadline, f.count))
  obtain ⟨s, hs, _, _, hle⟩ := hexact.right f hf
  rw [hs] at hpair
  obtain ⟨hdeadline, hcount⟩ := Prod.mk.inj hpair
  have := Option.some.inj hdeadline
  omega

/-- A timer is stopped when it is off the queue, and its function is called all the same, for no start. -/
example : (Trace.run step (startup (fun _ => ⟨0#32, false, false, none⟩) 0 : History ℕ ℕ)
    [.start 1 1 10, .tick 1, .stop 1, .call]).map (fun h => h.log.map fun f =>
      (f.call, f.start.map Start.serial)) = some [(some 10, none)] := by
  decide +kernel

end History

end Sctp.Callout
