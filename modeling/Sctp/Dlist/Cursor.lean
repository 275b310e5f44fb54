import Sctp.Dlist.Model

/-! What the operations on a list do to its nodes and to the cursor. -/
namespace Sctp.Dlist

open HashedTbl (Status)

variable {α ε : Type*}

/-- The fields describe the nodes `as`, and the cursor lies among them. -/
structure Holds (o : Dlist α ε) (as : List α) : Prop where
  formed : Dll.Formed links o.mem none as none
  nodup : as.Nodup
  head_eq : o.head = as.head?
  tail_eq : o.tail = as.getLast?
  cntIn_eq : o.cntIn = as.length
  curr_mem : ∀ c, o.curr = some c → c ∈ as
  curr_none : o.wrapFlag = true → o.curr = none

/-- The nodes `as` have been passed, the nodes `bs` are to come. -/
structure Passed (o : Dlist α ε) (as bs : List α) : Prop where
  holds : Holds o (as ++ bs)
  curr_eq : o.curr = bs.head?
  wrapFlag_iff : as ++ bs ≠ [] → (o.wrapFlag = true ↔ bs = [])

def Keeps (o o' : Dlist α ε) (as : List α) : Prop := ∀ b ∈ as, (o'.mem b).map DlistDlink.ent = (o.mem b).map DlistDlink.ent

/-- The node `a` has been taken out between `s` and `t`. -/
structure Took (o o' : Dlist α ε) (s : List α) (a : α) (t : List α) : Prop where
  holds : Holds o' (s ++ t)
  keeps : Keeps o o' (s ++ t)
  curr_eq : o.curr ≠ some a → o'.curr = o.curr
  wrapFlag_eq : s ++ t ≠ [] → o'.wrapFlag = o.wrapFlag

/-- The node `a` with the entry `e` has been put in between `s` and `t`. -/
structure Put (o o' : Dlist α ε) (s : List α) (a : α) (e : ε) (t : List α) : Prop where
  holds : Holds o' (s ++ a :: t)
  keeps : Keeps o o' (s ++ t)
  ent_eq : (o'.mem a).map DlistDlink.ent = some e
  curr_eq : o'.curr = o.curr
  wrapFlag_eq : o'.wrapFlag = o.wrapFlag

variable {o o' : Dlist α ε} {as bs s t : List α} {a : α} {e : ε}

theorem create_holds : Holds (create : Dlist α ε) [] := by
  constructor <;> simp [create, Dll.Formed]

namespace Holds

theorem head_eq_none_iff (h : Holds o as) : o.head = none ↔ as = [] := by
  rw [h.head_eq, List.head?_eq_none_iff]

theorem tail_eq_none_iff (h : Holds o as) : o.tail = none ↔ as = [] := by
  rw [h.tail_eq, List.getLast?_eq_none_iff]

theorem nodes_eq (h : Holds o as) : o.nodes = as := by
  have hseg := h.formed.segment
  rw [Option.or_none, ← h.head_eq] at hseg
  apply hseg.nodes_eq
  rw [h.cntIn_eq]
  omega

/-- A move of the cursor. -/
theorem move (h : Holds o as) {curr : Option α} {wrapFlag : Bool} (hcurr : ∀ c, curr = some c → c ∈ as)
    (hwrap : wrapFlag = true → curr = none) :
    Holds { o with curr := curr, wrapFlag := wrapFlag } as :=
  ⟨h.formed, h.nodup, h.head_eq, h.tail_eq, h.cntIn_eq, hcurr, hwrap⟩

theorem reset (h : Holds o as) : Passed o.reset [] as where
  holds := by
    apply h.move
    · intro c hc
      rw [h.head_eq] at hc
      exact List.mem_of_mem_head? hc
    · exact fun hw => absurd hw Bool.false_ne_true
  curr_eq := h.head_eq
  wrapFlag_iff := by
    intro hne
    exact ⟨fun hw => absurd hw Bool.false_ne_true, fun has => absurd has hne⟩

theorem node (h : Holds o (s ++ a :: t)) :
    ∃ n, o.mem a = some n ∧ n.prev = s.getLast? ∧ n.next = t.head? := by
  obtain ⟨n, hn, hprev, hnext⟩ := h.formed.node
  rw [Option.or_none] at hprev hnext
  exact ⟨n, hn, hprev, hnext⟩

theorem not_mem (h : Holds o (s ++ a :: t)) : a ∉ s ++ t :=
  (List.nodup_cons.1 (List.nodup_middle.1 h.nodup)).1

end Holds

theorem Keeps.trans {o'' : Dlist α ε} (h : Keeps o o' as) (h' : Keeps o' o'' as) : Keeps o o'' as :=
  fun b hb => (h' b hb).trans (h b hb)

theorem Keeps.entries_eq (h : Keeps o o' as) : o'.entries as = o.entries as :=
  Linked.contents_congr h

variable [DecidableEq α]

namespace Holds

theorem sane (h : Holds o as) : o.sane = some o := by
  rw [Dlist.sane, if_neg]
  rintro (⟨hcnt, hhead⟩ | ⟨hcnt, hne⟩)
  · rw [h.cntIn_eq] at hcnt
    have hnil : as = [] := List.eq_nil_of_length_eq_zero (by omega)
    exact hhead (h.head_eq_none_iff.2 hnil)
  · rw [h.cntIn_eq] at hcnt
    obtain ⟨b, rfl⟩ := List.length_eq_one_iff.1 (show as.length = 1 by omega)
    exact hne (by rw [h.head_eq, h.tail_eq]; rfl)

theorem setMem (h : Holds o as) (ha : a ∉ as) (n : Option (DlistDlink α ε)) :
    Holds (o.setMem a n) as := by
  refine ⟨h.formed.congr ?_, h.nodup, h.head_eq, h.tail_eq, h.cntIn_eq, h.curr_mem, h.curr_none⟩
  intro b hb
  have hne : b ≠ a := fun hba => ha (hba ▸ hb)
  exact Function.update_of_ne hne _ _

end Holds

theorem keeps_setMem (ha : a ∉ as) (n : Option (DlistDlink α ε)) : Keeps o (o.setMem a n) as := by
  intro b hb
  have hne : b ≠ a := fun hba => ha (hba ▸ hb)
  change (Function.update o.mem a n b).map _ = _
  rw [Function.update_of_ne hne]

namespace Took

theorem setMem (h : Took o o' s a t) (ha : a ∉ s ++ t) (n : Option (DlistDlink α ε)) :
    Took o (o'.setMem a n) s a t :=
  ⟨h.holds.setMem ha n, h.keeps.trans (keeps_setMem ha n), h.curr_eq, h.wrapFlag_eq⟩

omit [DecidableEq α] in
/-- The node that was passed last is taken out. -/
theorem passed (h : Took o o' s a t) (hp : Passed o (s ++ [a]) t) : Passed o' s t where
  holds := h.holds
  curr_eq := by
    rw [← hp.curr_eq]
    apply h.curr_eq
    intro hc
    have hnd := hp.holds.nodup
    rw [List.append_assoc] at hnd
    have hat := (List.nodup_append.1 hnd).2.1
    rw [hp.curr_eq] at hc
    exact (List.nodup_cons.1 hat).1 (List.mem_of_mem_head? hc)
  wrapFlag_iff := by
    intro hne
    rw [h.wrapFlag_eq hne]
    exact hp.wrapFlag_iff (by simp)

end Took

theorem Holds.advanceHead (h : Holds o (a :: t)) {n : DlistDlink α ε} (hn : o.mem a = some n) (wrapFlag : Bool) :
    ∃ o', o.advanceHead a n.next wrapFlag = some o' ∧ Took o o' [] a t ∧
      o'.wrapFlag = if t = [] then wrapFlag else o.wrapFlag := by
  obtain ⟨n', hn', -, hnext⟩ := Holds.node (s := []) h
  obtain rfl : n' = n := Option.some.inj (hn'.symm.trans hn)
  have hrest := h.formed.2
  cases t with
  | nil =>
    rw [hnext, List.head?_nil, Dlist.advanceHead]
    refine ⟨_, rfl, ⟨⟨trivial, List.nodup_nil, rfl, rfl, ?_, ?_, fun _ => rfl⟩, fun _ _ => rfl, ?_,
      fun hne => absurd rfl hne⟩, rfl⟩
    · change o.cntIn - 1 = 0
      rw [h.cntIn_eq]
      rfl
    · rintro c ⟨⟩
    · intro hc
      cases hcurr : o.curr with
      | none => rfl
      | some c =>
        rw [List.mem_singleton.1 (h.curr_mem c hcurr)] at hcurr
        exact absurd hcurr hc
  | cons b t =>
    obtain ⟨mem, hw, hf, hk⟩ := hrest.guardPrev (List.nodup_cons.1 h.nodup).2 none
    rw [List.head?_cons, Dll.guardPrev_some] at hw
    rw [hnext, List.head?_cons, Dlist.advanceHead, hw, Option.map_some]
    refine ⟨_, rfl, ⟨⟨hf, (List.nodup_cons.1 h.nodup).2, rfl, ?_, ?_, ?_, ?_⟩, ?_, ?_, fun _ => rfl⟩, ?_⟩
    · change o.tail = _
      rw [h.tail_eq, List.nil_append, List.getLast?_cons_cons]
    · change o.cntIn - 1 = _
      rw [h.cntIn_eq]
      simp
    · intro c hc
      change (if o.curr = some a then some b else o.curr) = some c at hc
      split at hc
      · cases hc
        exact List.mem_cons_self
      · have hmem := h.curr_mem c hc
        rcases List.mem_cons.1 hmem with rfl | hmem
        · exact absurd hc (by assumption)
        · exact hmem
    · intro hwrap
      change (if o.curr = some a then some b else o.curr) = none
      rw [h.curr_none hwrap, if_neg (by simp)]
    · intro c _
      exact hk.content c
    · intro hc
      exact if_neg hc
    · rw [if_neg (List.cons_ne_nil b t)]

/-- The head is taken out and freed. -/
theorem Holds.getNext (h : Holds o (a :: t)) :
    ∃ o' n, o.mem a = some n ∧ o.getNext = some (o', some n.ent) ∧ Took o o' [] a t ∧
      o'.wrapFlag = o.wrapFlag := by
  obtain ⟨n, hn, -⟩ := Holds.node (s := []) h
  obtain ⟨o', hadv, htook, hwrap⟩ := h.advanceHead hn o.wrapFlag
  refine ⟨o'.setMem a none, n, hn, ?_, htook.setMem (Holds.not_mem (s := []) h) none, ?_⟩
  · rw [Dlist.getNext, h.head_eq, List.head?_cons]
    dsimp only
    rw [hn, Option.bind_some, hadv, Option.bind_some, htook.holds.sane, Option.map_some]
  · rw [ite_self] at hwrap
    exact hwrap

theorem Holds.getNextSlist (h : Holds o (a :: t)) :
    ∃ o' n, o.mem a = some n ∧ o.getNextSlist = some (o', some a) ∧ o'.mem a = some ⟨none, none, n.ent⟩ ∧
      Took o o' [] a t ∧ o'.wrapFlag = if t = [] then false else o.wrapFlag := by
  obtain ⟨n, hn, -⟩ := Holds.node (s := []) h
  obtain ⟨o', hadv, htook, hwrap⟩ := h.advanceHead hn false
  refine ⟨o'.setMem a (some ⟨none, none, n.ent⟩), n, hn, ?_, Function.update_self _ _ _,
    htook.setMem (Holds.not_mem (s := []) h) _, hwrap⟩
  rw [Dlist.getNextSlist, h.head_eq, List.head?_cons]
  dsimp only
  rw [hn, Option.bind_some, hadv, Option.bind_some, htook.holds.sane, Option.map_some]

/-- A node at which the cursor does not stand leaves the list. -/
theorem Holds.detach (h : Holds o (s ++ a :: t)) (hcurr : o.curr ≠ some a) :
    ∃ o' n, o.mem a = some n ∧ o.detach a = some (o', n) ∧ Took o o' s a t ∧ o'.wrapFlag = o.wrapFlag := by
  obtain ⟨n, hn, hprev, hnext⟩ := h.node
  obtain ⟨mem, hu, hf, hk⟩ := h.formed.unlink h.nodup
  have hnd := h.nodup
  have hout := h.not_mem
  rw [List.mem_append, not_or] at hout
  have hsub : (s ++ t).Sublist (s ++ a :: t) := (List.sublist_cons_self a t).append_left s
  have hholds : Holds { o with
      mem := mem
      tail := if o.tail = some a then n.prev else o.tail
      head := if o.head = some a then n.next else o.head
      cntIn := o.cntIn - 1 } (s ++ t) := by
    refine ⟨hf, hsub.nodup hnd, ?_, ?_, ?_, ?_, h.curr_none⟩
    · change (if o.head = some a then n.next else o.head) = _
      rw [h.head_eq, hnext]
      cases s with
      | nil => exact if_pos rfl
      | cons b s =>
        have hne : b ≠ a := fun hba => hout.1 (hba ▸ List.mem_cons_self)
        rw [List.cons_append, List.cons_append, List.head?_cons, List.head?_cons, if_neg (by simpa using hne)]
    · change (if o.tail = some a then n.prev else o.tail) = _
      rw [h.tail_eq, hprev]
      cases t with
      | nil =>
        rw [List.getLast?_append_of_ne_nil _ (List.cons_ne_nil _ _), List.append_nil]
        exact if_pos rfl
      | cons b t =>
        rw [List.getLast?_append_of_ne_nil _ (List.cons_ne_nil _ _), List.getLast?_append_of_ne_nil _ (List.cons_ne_nil _ _),
          List.getLast?_cons_cons, if_neg]
        intro hlast
        exact hout.2 (List.mem_of_mem_getLast? hlast)
    · change o.cntIn - 1 = _
      rw [h.cntIn_eq, List.length_append, List.length_append, List.length_cons]
      omega
    · intro c hc
      have hmem := h.curr_mem c hc
      rw [List.mem_append, List.mem_cons] at hmem
      rcases hmem with hs | rfl | ht
      · exact List.mem_append_left _ hs
      · exact absurd hc hcurr
      · exact List.mem_append_right _ ht
  refine ⟨_, n, hn, ?_, ⟨hholds, fun b _ => hk.content b, fun _ => rfl, fun _ => rfl⟩, rfl⟩
  rw [Dlist.detach, hn, Option.bind_some, hu, Option.bind_some, hholds.sane, Option.map_some]

omit [DecidableEq α] in
/-- Either the list has not been walked, or the cursor parts it. -/
theorem Holds.idle_or_passed (h : Holds o as) :
    (o.curr = none ∧ o.wrapFlag = false) ∨ ∃ s t, as = s ++ t ∧ Passed o s t := by
  cases hcurr : o.curr with
  | some c =>
    obtain ⟨s, t, rfl⟩ := List.append_of_mem (h.curr_mem c hcurr)
    refine .inr ⟨s, c :: t, rfl, h, hcurr, fun _ => ?_⟩
    constructor
    · intro hw
      rw [h.curr_none hw] at hcurr
      cases hcurr
    · exact fun hnil => absurd hnil (List.cons_ne_nil c t)
  | none =>
    cases hw : o.wrapFlag with
    | false => exact .inl ⟨rfl, rfl⟩
    | true =>
      refine .inr ⟨as, [], (List.append_nil as).symm, ?_, hcurr, fun _ => ?_⟩
      · rw [List.append_nil]
        exact h
      · rw [hw]
        simp

omit [DecidableEq α] in
theorem Passed.wrapFlag_cons (h : Passed o s (a :: t)) : o.wrapFlag = false := by
  rw [← Bool.not_eq_true, h.wrapFlag_iff (by simp)]
  exact List.cons_ne_nil a t

omit [DecidableEq α] in
theorem Passed.wrapFlag_nil (h : Passed o (s ++ [a]) []) : o.wrapFlag = true :=
  (h.wrapFlag_iff (by simp)).2 rfl

omit [DecidableEq α] in
theorem Holds.get_eq (h : Holds o (s ++ a :: t)) (hcurr : ¬ (o.curr = none ∧ o.wrapFlag = true)) :
    o.get = (o.mem (o.curr.getD ((s ++ a :: t).head (by simp)))).map fun n =>
      ({ o with curr := n.next, wrapFlag := o.wrapFlag || n.next.isNone }, some n.ent) := by
  have hcnt : ¬ (o.cntIn = 0 ∧ o.head ≠ none) := by
    rw [h.cntIn_eq]
    simp
    omega
  rw [Dlist.get, if_neg hcnt, h.head_eq, List.head?_eq_some_head (by simp)]
  dsimp only
  rw [if_neg hcurr]

omit [DecidableEq α] in
theorem Passed.get (h : Passed o s (a :: t)) :
    ∃ o' n, o.mem a = some n ∧ o.get = some (o', some n.ent) ∧ Passed o' (s ++ [a]) t ∧ o'.mem = o.mem := by
  obtain ⟨n, hn, -, hnext⟩ := h.holds.node
  refine ⟨{ o with curr := n.next, wrapFlag := o.wrapFlag || n.next.isNone }, n, hn, ?_, ⟨?_, hnext, ?_⟩, rfl⟩
  · rw [h.holds.get_eq (by simp [h.curr_eq]), h.curr_eq, List.head?_cons, Option.getD_some, hn, Option.map_some]
  · rw [List.append_assoc]
    apply h.holds.move
    · intro c hc
      rw [hnext] at hc
      exact List.mem_append_right _ (List.mem_cons_of_mem _ (List.mem_of_mem_head? hc))
    · intro hw
      rw [h.wrapFlag_cons, Bool.false_or, Option.isNone_iff_eq_none] at hw
      exact hw
  · intro _
    change (o.wrapFlag || n.next.isNone) = true ↔ t = []
    rw [h.wrapFlag_cons, Bool.false_or, Option.isNone_iff_eq_none, hnext, List.head?_eq_none_iff]

omit [DecidableEq α] in
/-- Nothing more comes at the end. -/
theorem Passed.get_nil (h : Passed o s []) : o.get = some (o, none) := by
  obtain rfl | ⟨s, b, rfl⟩ := s.eq_nil_or_concat
  · have hhead : o.head = none := h.holds.head_eq
    rw [Dlist.get, if_neg (fun hc => hc.2 hhead), hhead]
  · rw [List.concat_eq_append] at h
    have hcnt : ¬ (o.cntIn = 0 ∧ o.head ≠ none) := by
      rw [h.holds.cntIn_eq]
      simp
      omega
    obtain ⟨c, hc⟩ := Option.ne_none_iff_exists'.1
      (show o.head ≠ none from fun hnone => by simpa using h.holds.head_eq_none_iff.1 hnone)
    rw [Dlist.get, if_neg hcnt, hc]
    dsimp only
    rw [if_pos ⟨h.curr_eq, h.wrapFlag_nil⟩]

omit [DecidableEq α] in
/-- The first entry of a list that has not been walked. -/
theorem Holds.get_idle (h : Holds o (a :: t)) (hidle : o.curr = none ∧ o.wrapFlag = false) :
    ∃ o' n, o.mem a = some n ∧ o.get = some (o', some n.ent) ∧ Passed o' [a] t ∧ o'.mem = o.mem := by
  obtain ⟨n, hn, -⟩ := Holds.node (s := []) h
  obtain ⟨o', n', hn', hget, hpassed, hmem⟩ := Passed.get (show Passed o.reset [] (a :: t) from h.reset)
  obtain rfl : n = n' := Option.some.inj (hn.symm.trans hn')
  refine ⟨o', n, hn, ?_, hpassed, hmem⟩
  rw [← hget, Holds.get_eq (s := []) h (by simp [hidle.2]), Holds.get_eq (s := []) h.reset.holds (by simp [h.reset.curr_eq]),
    hidle.1, hidle.2, h.reset.curr_eq]
  rfl

/-- What `pick` makes of the node passed last. -/
theorem Passed.pick (h : Passed o (s ++ [a]) t) :
    (o.pick = some none ∧ s = []) ∨ (o.pick = some (some a) ∧ o.curr ≠ some a) := by
  cases t with
  | nil =>
    have hcurr : o.curr = none := h.curr_eq
    have htail : o.tail = some a := by
      rw [h.holds.tail_eq, List.append_nil, List.getLast?_append_of_ne_nil _ (List.cons_ne_nil _ _)]
      rfl
    right
    rw [Dlist.pick, hcurr]
    dsimp only
    rw [if_pos h.wrapFlag_nil, htail]
    exact ⟨rfl, by simp⟩
  | cons c t =>
    have hcurr : o.curr = some c := h.curr_eq
    obtain ⟨n, hn, hprev, -⟩ := h.holds.node
    rw [List.getLast?_append_of_ne_nil _ (List.cons_ne_nil _ _), List.getLast?_singleton] at hprev
    have hpick : o.pick = some (if some a = o.head then none else some a) := by
      rw [Dlist.pick, hcurr]
      dsimp only
      rw [hn, Option.map_some, hprev]
    have hnd := h.holds.nodup
    rw [List.append_assoc] at hnd
    have hac : a ≠ c := fun hac => (List.nodup_cons.1 (List.nodup_append.1 hnd).2.1).1 (hac ▸ List.mem_cons_self)
    by_cases hs : s = []
    · left
      subst hs
      rw [hpick, h.holds.head_eq]
      exact ⟨by simp, rfl⟩
    · right
      have hne : some a ≠ o.head := by
        rw [h.holds.head_eq, List.append_assoc, List.head?_append_of_ne_nil _ hs]
        intro hhead
        exact (List.nodup_append.1 hnd).2.2 a (List.mem_of_mem_head? hhead.symm) a List.mem_cons_self rfl
      rw [hpick, if_neg hne, hcurr]
      exact ⟨rfl, fun heq => hac (Option.some.inj heq).symm⟩

theorem Holds.getThis_of_pick (h : Holds o (s ++ a :: t))
    (hp : (o.pick = some none ∧ s = []) ∨ (o.pick = some (some a) ∧ o.curr ≠ some a)) :
    ∃ o' n, o.mem a = some n ∧ o.getThis = some (o', some n.ent) ∧ Took o o' s a t ∧
      o'.wrapFlag = o.wrapFlag := by
  have hhead : o.head ≠ none := fun hnone => by simpa using h.head_eq_none_iff.1 hnone
  rcases hp with ⟨hpick, rfl⟩ | ⟨hpick, hcurr⟩
  · obtain ⟨o', n, hn, hget, htook, hwrap⟩ := Holds.getNext h
    refine ⟨o', n, hn, ?_, htook, hwrap⟩
    rw [Dlist.getThis, if_neg hhead, hpick, Option.bind_some, hget]
  · obtain ⟨o', n, hn, hdet, htook, hwrap⟩ := h.detach hcurr
    refine ⟨o'.setMem a none, n, hn, ?_, htook.setMem h.not_mem none, hwrap⟩
    rw [Dlist.getThis, if_neg hhead, hpick, Option.bind_some]
    dsimp only
    rw [hdet, Option.map_some]

theorem Holds.getThisSlist_of_pick (h : Holds o (s ++ a :: t))
    (hp : (o.pick = some none ∧ s = []) ∨ (o.pick = some (some a) ∧ o.curr ≠ some a)) :
    ∃ o' n, o.mem a = some n ∧ o.getThisSlist = some (o', some a) ∧ o'.mem a = some ⟨none, none, n.ent⟩ ∧
      Took o o' s a t ∧ (s ++ t = [] → o.wrapFlag = false → o'.wrapFlag = false) := by
  have hhead : o.head ≠ none := fun hnone => by simpa using h.head_eq_none_iff.1 hnone
  rcases hp with ⟨hpick, rfl⟩ | ⟨hpick, hcurr⟩
  · obtain ⟨o', n, hn, hget, hmem, htook, hwrap⟩ := Holds.getNextSlist h
    refine ⟨o', n, hn, ?_, hmem, htook, ?_⟩
    · rw [Dlist.getThisSlist, if_neg hhead, hpick, Option.bind_some, hget]
    · intro ht _
      rw [hwrap, if_pos (show t = [] from ht)]
  · obtain ⟨o', n, hn, hdet, htook, hwrap⟩ := h.detach hcurr
    refine ⟨o'.setMem a (some ⟨none, none, n.ent⟩), n, hn, ?_, Function.update_self _ _ _,
      htook.setMem h.not_mem _, fun _ hw => hwrap.trans hw⟩
    rw [Dlist.getThisSlist, if_neg hhead, hpick, Option.bind_some]
    dsimp only
    rw [hdet, Option.map_some]

/-- What was returned last is taken out. -/
theorem Passed.getThis (h : Passed o (s ++ [a]) t) :
    ∃ o' n, o.mem a = some n ∧ o.getThis = some (o', some n.ent) ∧ Passed o' s t ∧ Keeps o o' (s ++ t) := by
  have hholds := h.holds
  rw [List.append_assoc] at hholds
  obtain ⟨o', n, hn, hget, htook, -⟩ := hholds.getThis_of_pick h.pick
  exact ⟨o', n, hn, hget, htook.passed h, htook.keeps⟩

theorem Passed.getThisSlist (h : Passed o (s ++ [a]) t) :
    ∃ o' n, o.mem a = some n ∧ o.getThisSlist = some (o', some a) ∧ o'.mem a = some ⟨none, none, n.ent⟩ ∧
      Passed o' s t ∧ Keeps o o' (s ++ t) := by
  have hholds := h.holds
  rw [List.append_assoc] at hholds
  obtain ⟨o', n, hn, hget, hmem, htook, -⟩ := hholds.getThisSlist_of_pick h.pick
  exact ⟨o', n, hn, hget, hmem, htook.passed h, htook.keeps⟩

/-- Some node is picked from a list that is not empty. -/
theorem Holds.exists_pick (h : Holds o as) (hne : as ≠ []) :
    ∃ s a t, as = s ++ a :: t ∧
      ((o.pick = some none ∧ s = []) ∨ (o.pick = some (some a) ∧ o.curr ≠ some a)) := by
  rcases h.idle_or_passed with ⟨hcurr, hwrap⟩ | ⟨s, t, rfl, hp⟩
  · obtain ⟨a, t, rfl⟩ := List.exists_cons_of_ne_nil hne
    refine ⟨[], a, t, rfl, .inl ⟨?_, rfl⟩⟩
    rw [Dlist.pick, hcurr, hwrap]
    rfl
  · obtain rfl | ⟨s, a, rfl⟩ := s.eq_nil_or_concat
    · obtain ⟨a, t, rfl⟩ := List.exists_cons_of_ne_nil hne
      obtain ⟨n, hn, hprev, -⟩ := Holds.node (s := []) h
      refine ⟨[], a, t, rfl, .inl ⟨?_, rfl⟩⟩
      rw [Dlist.pick, hp.curr_eq]
      dsimp only [List.head?_cons]
      rw [hn, Option.map_some, hprev, List.getLast?_nil, ite_self]
    · rw [List.concat_eq_append] at hp ⊢
      exact ⟨s, a, t, by rw [List.append_assoc]; rfl, hp.pick⟩

/-- The entry of a node is replaced. -/
theorem Holds.setEnt (h : Holds o (s ++ a :: t)) {n : DlistDlink α ε} (hn : o.mem a = some n) (e : ε) :
    Holds (o.setMem a (some { n with ent := e })) (s ++ a :: t) := by
  obtain ⟨hs, ⟨n', hn', hprev, hnext⟩, ht⟩ := Dll.formed_append.1 h.formed
  obtain rfl : n' = n := Option.some.inj (hn'.symm.trans hn)
  have hout := h.not_mem
  rw [List.mem_append, not_or] at hout
  have hother : ∀ b, b ≠ a → Function.update o.mem a (some { n' with ent := e }) b = o.mem b :=
    fun b hb => Function.update_of_ne hb _ _
  refine ⟨Dll.formed_append.2 ⟨?_, ⟨_, Function.update_self _ _ _, hprev, hnext⟩, ?_⟩, h.nodup, h.head_eq, h.tail_eq,
    h.cntIn_eq, h.curr_mem, h.curr_none⟩
  · exact hs.congr fun b hb => hother b fun hba => hout.1 (hba ▸ hb)
  · exact ht.congr fun b hb => hother b fun hba => hout.2 (hba ▸ hb)

theorem Holds.replaceThis_of_shown (h : Holds o (s ++ a :: t))
    (hshown : o.shown ((s ++ a :: t).head (by simp)) = some a) (e : ε) :
    ∃ o' n, o.mem a = some n ∧ o.replaceThis e = some (o', some n.ent) ∧ Holds o' (s ++ a :: t) ∧
      Keeps o o' (s ++ t) ∧ (o'.mem a).map DlistDlink.ent = some e ∧ o'.curr = o.curr ∧ o'.wrapFlag = o.wrapFlag := by
  obtain ⟨n, hn, -⟩ := h.node
  refine ⟨o.setMem a (some { n with ent := e }), n, hn, ?_, h.setEnt hn e, keeps_setMem h.not_mem _, ?_, rfl, rfl⟩
  · rw [Dlist.replaceThis, h.head_eq, List.head?_eq_some_head (by simp)]
    dsimp only
    rw [hshown, Option.bind_some, hn, Option.map_some]
  · change (Function.update o.mem a _ a).map _ = _
    rw [Function.update_self]
    rfl

omit [DecidableEq α] in
theorem Passed.shown (h : Passed o (s ++ [a]) t) (b : α) : o.shown b = some a := by
  cases t with
  | nil =>
    rw [Dlist.shown, if_pos h.wrapFlag_nil, h.holds.tail_eq, List.append_nil,
      List.getLast?_append_of_ne_nil _ (List.cons_ne_nil _ _)]
    rfl
  | cons c t =>
    obtain ⟨n, hn, hprev, -⟩ := h.holds.node
    rw [List.getLast?_append_of_ne_nil _ (List.cons_ne_nil _ _), List.getLast?_singleton] at hprev
    rw [Dlist.shown, h.wrapFlag_cons, if_neg Bool.false_ne_true, h.curr_eq]
    dsimp only [List.head?_cons]
    rw [hn, Option.map_some, hprev, Option.getD_some]

/-- What was returned last is replaced. -/
theorem Passed.replaceThis (h : Passed o (s ++ [a]) t) (e : ε) :
    ∃ o' n, o.mem a = some n ∧ o.replaceThis e = some (o', some n.ent) ∧ Passed o' (s ++ [a]) t ∧
      Keeps o o' (s ++ t) ∧ (o'.mem a).map DlistDlink.ent = some e := by
  have hholds := h.holds
  rw [List.append_assoc] at hholds
  obtain ⟨o', n, hn, hrep, hh, hk, he, hcurr, hwrap⟩ := hholds.replaceThis_of_shown (h.shown _) e
  refine ⟨o', n, hn, hrep, ⟨?_, hcurr.trans h.curr_eq, ?_⟩, hk, he⟩
  · rw [List.append_assoc]
    exact hh
  · rw [hwrap]
    exact h.wrapFlag_iff

omit [DecidableEq α] in
/-- Some node is shown in a list that is not empty. -/
theorem Holds.exists_shown (h : Holds o as) (hne : as ≠ []) :
    ∃ s a t, as = s ++ a :: t ∧ o.shown (as.head hne) = some a := by
  rcases h.idle_or_passed with ⟨hcurr, hwrap⟩ | ⟨s, t, rfl, hp⟩
  · obtain ⟨a, t, rfl⟩ := List.exists_cons_of_ne_nil hne
    refine ⟨[], a, t, rfl, ?_⟩
    rw [Dlist.shown, hcurr, hwrap]
    rfl
  · obtain rfl | ⟨s, a, rfl⟩ := s.eq_nil_or_concat
    · obtain ⟨a, t, rfl⟩ := List.exists_cons_of_ne_nil hne
      obtain ⟨n, hn, hprev, -⟩ := Holds.node (s := []) h
      refine ⟨[], a, t, rfl, ?_⟩
      rw [Dlist.shown, hp.wrapFlag_cons, if_neg Bool.false_ne_true, hp.curr_eq]
      dsimp only [List.head?_cons]
      rw [hn, Option.map_some, hprev]
      rfl
    · rw [List.concat_eq_append] at hp
      refine ⟨s, a, t, by rw [List.concat_eq_append, List.append_assoc]; rfl, hp.shown _⟩

omit [DecidableEq α] in
theorem Holds.fresh (h : Holds o as) (ha : o.mem a = none) : a ∉ as := by
  intro hmem
  obtain ⟨n, hn⟩ := h.formed.exists_node hmem
  rw [ha] at hn
  cases hn

/-- A node that has been linked in is put in. -/
theorem Holds.put (h : Holds o (s ++ t)) (hout : a ∉ s ++ t) {n : DlistDlink α ε}
    (hf : Dll.Formed links o'.mem none (s ++ a :: t) none)
    (hk : Dll.Kept links (s ++ t) (Function.update o.mem a (some n)) o'.mem)
    (hhead : o'.head = (s ++ a :: t).head?) (htail : o'.tail = (s ++ a :: t).getLast?)
    (hcnt : o'.cntIn = o.cntIn + 1) (hcurr : o'.curr = o.curr) (hwrap : o'.wrapFlag = o.wrapFlag) :
    Put o o' s a n.ent t := by
  refine ⟨⟨hf, ?_, hhead, htail, ?_, ?_, ?_⟩, ?_, ?_, hcurr, hwrap⟩
  · exact List.nodup_middle.2 (List.nodup_cons.2 ⟨hout, h.nodup⟩)
  · rw [hcnt, h.cntIn_eq]
    simp
    omega
  · intro c hc
    rw [hcurr] at hc
    have hmem := h.curr_mem c hc
    rw [List.mem_append] at hmem ⊢
    exact hmem.imp_right (List.mem_cons_of_mem a)
  · rw [hwrap, hcurr]
    exact h.curr_none
  · intro b hb
    have hne : b ≠ a := fun hba => hout (hba ▸ hb)
    have := hk.content b
    rw [Function.update_of_ne hne] at this
    exact this
  · have := hk.content a
    rw [Function.update_self] at this
    exact this

/-- The nodes stay linked when memory beside them is written. -/
theorem Holds.formed_update (h : Holds o as) (ha : a ∉ as) (n : Option (DlistDlink α ε)) :
    Dll.Formed links (Function.update o.mem a n) none as none := (h.setMem ha n).formed

theorem Holds.only (h : Holds o []) (a : α) (e : ε) : Put o (o.only a e) [] a e [] := by
  refine Holds.put (s := []) (t := []) (n := ⟨none, none, e⟩) h (List.not_mem_nil) ?_
    ⟨fun _ _ => rfl, fun _ => rfl⟩ rfl rfl rfl rfl rfl
  exact ⟨⟨_, Function.update_self _ _ _, rfl, rfl⟩, trivial⟩

theorem Holds.insert (h : Holds o as) (ha : o.mem a = none) (e : ε) :
    ∃ o', o.insert (some a) e = some (o', .good) ∧ Put o o' [] a e as := by
  have hout := h.fresh ha
  cases as with
  | nil =>
    refine ⟨o.only a e, ?_, h.only a e⟩
    have hhead : o.head = none := h.head_eq
    simp only [Dlist.insert, hhead]
  | cons b t =>
    obtain ⟨n, hn, hprev, -⟩ := Holds.node (s := []) h
    obtain ⟨mem, mem', hw, hw', hf, hk⟩ := (h.formed_update hout (some ⟨n.prev, some b, e⟩)).insert (s := [])
      h.nodup hout (Function.update_self _ _ _) hprev rfl
    cases hw
    refine ⟨{ o with mem := mem', head := some a, cntIn := o.cntIn + 1 }, ?_,
      Holds.put (s := []) (n := ⟨n.prev, some b, e⟩) h hout hf hk rfl ?_ rfl rfl rfl⟩
    · have hw' : Dll.writePrev links (o.setMem a (some ⟨n.prev, some b, e⟩)).mem (some b) (some a) = some mem' := hw'
      have hhead : o.head = some b := h.head_eq
      simp only [Dlist.insert, hhead, hn, Option.bind_some, hw', Option.map_some]
    · change o.tail = _
      rw [h.tail_eq, List.nil_append, List.getLast?_cons_cons]

theorem Holds.append (h : Holds o as) (ha : o.mem a = none) (e : ε) :
    ∃ o', o.append (some a) e = some (o', .good) ∧ Put o o' as a e [] := by
  have hout := h.fresh ha
  obtain rfl | ⟨s, b, rfl⟩ := as.eq_nil_or_concat
  · refine ⟨o.only a e, ?_, h.only a e⟩
    have hhead : o.head = none := h.head_eq
    have htail : o.tail = none := h.tail_eq
    simp only [Dlist.append, hhead, htail, Option.or_none]
  · rw [List.concat_eq_append] at h hout ⊢
    obtain ⟨n, hn, -, hnext⟩ := h.node
    have hlast : (s ++ [b]).getLast? = some b := by
      rw [List.getLast?_append_of_ne_nil _ (List.cons_ne_nil _ _), List.getLast?_singleton]
    have h' := h
    have hout' := hout
    rw [← List.append_nil (s ++ [b])] at h' hout'
    obtain ⟨mem, mem', hw, hw', hf, hk⟩ := (h'.formed_update hout' (some ⟨some b, n.next, e⟩)).insert h'.nodup hout'
      (Function.update_self _ _ _) hlast.symm hnext
    cases hw'
    refine ⟨{ o with mem := mem, tail := some a, cntIn := o.cntIn + 1 }, ?_,
      Holds.put (n := ⟨some b, n.next, e⟩) h' hout' hf hk ?_ ?_ rfl rfl rfl⟩
    · rw [hlast] at hw
      have hw : Dll.writeNext links (o.setMem a (some ⟨some b, n.next, e⟩)).mem (some b) (some a) = some mem := hw
      have htail : o.tail = some b := h.tail_eq.trans hlast
      simp only [Dlist.append, htail, Option.some_or, hn, Option.bind_some, hw, Option.map_some]
    · change o.head = _
      rw [h.head_eq]
      exact (List.head?_append_of_ne_nil _ (by simp)).symm
    · simp

/-- A node goes in front of another one that is not the head. -/
theorem Holds.putBefore {c : α} (h : Holds o (s ++ c :: t)) (hs : s ≠ []) (ha : o.mem a = none)
    {n : DlistDlink α ε} (hn : o.mem c = some n) (e : ε) :
    ∃ o', o.putBefore a c n e = some o' ∧ Put o o' s a e (c :: t) := by
  have hout := h.fresh ha
  obtain ⟨n', hn', hprev, -⟩ := h.node
  obtain rfl : n' = n := Option.some.inj (hn'.symm.trans hn)
  obtain ⟨mem, mem', hw, hw', hf, hk⟩ := (h.formed_update hout (some ⟨n'.prev, some c, e⟩)).insert h.nodup hout
    (Function.update_self _ _ _) hprev rfl
  refine ⟨{ o with mem := mem', cntIn := o.cntIn + 1 }, ?_, h.put (n := ⟨n'.prev, some c, e⟩) hout hf hk ?_ ?_ rfl rfl rfl⟩
  · rw [← hprev] at hw
    have hw : Dll.guardNext links (o.setMem a (some ⟨n'.prev, some c, e⟩)).mem n'.prev (some a) = some mem := hw
    have hw' : Dll.writePrev links mem (some c) (some a) = some mem' := hw'
    rw [Dlist.putBefore, hw, Option.bind_some, hw', Option.map_some]
  · change o.head = _
    rw [h.head_eq, List.head?_append_of_ne_nil _ hs, List.head?_append_of_ne_nil _ hs]
  · change o.tail = _
    rw [h.tail_eq, List.getLast?_append_of_ne_nil _ (List.cons_ne_nil _ _),
      List.getLast?_append_of_ne_nil _ (List.cons_ne_nil _ _), List.getLast?_cons_cons]

/-- A link that is not on the list becomes the last one. -/
theorem Holds.appenddlink (h : Holds o as) (hout : a ∉ as) {n : DlistDlink α ε} (hn : o.mem a = some n) :
    ∃ o', o.appenddlink a = some (o', .good) ∧ Put o o' as a n.ent [] := by
  obtain rfl | ⟨s, b, rfl⟩ := as.eq_nil_or_concat
  · have hhead : o.head = none := h.head_eq
    have htail : o.tail = none := h.tail_eq
    refine ⟨o.only a n.ent, ?_, h.only a n.ent⟩
    rw [Dlist.appenddlink, hn, Option.bind_some]
    dsimp only [Dlist.setMem]
    rw [hhead, htail]
    rfl
  · rw [List.concat_eq_append] at h hout ⊢
    have hlast : (s ++ [b]).getLast? = some b := by
      rw [List.getLast?_append_of_ne_nil _ (List.cons_ne_nil _ _), List.getLast?_singleton]
    have h' := h
    have hout' := hout
    rw [← List.append_nil (s ++ [b])] at h' hout'
    obtain ⟨mem, mem', hw, hw', hf, hk⟩ := (h'.formed_update hout' (some ⟨some b, none, n.ent⟩)).insert h'.nodup hout'
      (Function.update_self _ _ _) hlast.symm rfl
    cases hw'
    refine ⟨{ o with mem := mem, tail := some a, cntIn := o.cntIn + 1 }, ?_,
      Holds.put (n := ⟨some b, none, n.ent⟩) h' hout' hf hk ?_ ?_ rfl rfl rfl⟩
    · have htail : o.tail = some b := h.tail_eq.trans hlast
      have hprev : Dll.writePrev links (o.setMem a (some ⟨none, none, n.ent⟩)).mem (some a) (some b) =
          some (Function.update o.mem a (some ⟨some b, none, n.ent⟩)) := by
        have hself : (o.setMem a (some ⟨none, none, n.ent⟩)).mem a = some ⟨none, none, n.ent⟩ :=
          Function.update_self _ _ _
        rw [Dll.writePrev_eq hself]
        change some (Function.update (Function.update _ _ _) _ _) = _
        rw [Function.update_idem]
        rfl
      have hnext : Dll.writeNext links (Function.update o.mem a (some ⟨some b, none, n.ent⟩)) (some b) (some a) =
          some mem := by
        rw [hlast] at hw
        exact hw
      rw [Dlist.appenddlink, hn, Option.bind_some]
      have htail' : (o.setMem a (some ⟨none, none, n.ent⟩)).tail = some b := htail
      simp only [htail', Dlist.linkBehind, hprev, Option.bind_some, hnext, Option.map_some]
      rfl
    · change o.head = _
      rw [h.head_eq]
      exact (List.head?_append_of_ne_nil _ (by simp)).symm
    · simp

omit [DecidableEq α] in
theorem Holds.recoverTail (h : Holds o as) : o.recoverTail = some o := by
  rw [Dlist.recoverTail, if_neg]
  rintro ⟨htail, hhead⟩
  exact hhead (h.head_eq_none_iff.2 (h.tail_eq_none_iff.1 htail))

/-- What `spot` makes of the node passed last. -/
theorem Passed.spot (h : Passed o (s ++ [a]) t) :
    (o.spot = some none ∧ s = []) ∨ (o.spot = some (some a) ∧ s ≠ []) := by
  cases t with
  | nil =>
    have htail : o.tail = some a := by
      rw [h.holds.tail_eq, List.append_nil, List.getLast?_append_of_ne_nil _ (List.cons_ne_nil _ _)]
      rfl
    have hholds := h.holds
    rw [List.append_nil] at hholds
    obtain ⟨n, hn, hprev, -⟩ := hholds.node
    have hspot : o.spot = some (n.prev.map fun _ => a) := by
      rw [Dlist.spot, if_pos h.wrapFlag_nil, htail, Option.bind_some, hn, Option.map_some]
    rw [hspot, hprev]
    obtain rfl | ⟨s, b, rfl⟩ := s.eq_nil_or_concat
    · exact .inl ⟨rfl, rfl⟩
    · right
      rw [List.concat_eq_append, List.getLast?_append_of_ne_nil _ (List.cons_ne_nil _ _)]
      exact ⟨rfl, by simp⟩
  | cons c t =>
    have hcurr : o.curr = some c := h.curr_eq
    obtain ⟨n, hn, hprev, -⟩ := h.holds.node
    rw [List.getLast?_append_of_ne_nil _ (List.cons_ne_nil _ _), List.getLast?_singleton] at hprev
    have hnd := h.holds.nodup
    have hce : o.curr ≠ o.head := by
      rw [hcurr, h.holds.head_eq, List.head?_append_of_ne_nil _ (by simp)]
      intro heq
      exact (List.nodup_append.1 hnd).2.2 c (List.mem_of_mem_head? heq.symm) c List.mem_cons_self rfl
    have hspot : o.spot = some (if some a = o.head then none else some a) := by
      rw [Dlist.spot, h.wrapFlag_cons, if_neg Bool.false_ne_true, hcurr]
      dsimp only
      rw [if_neg (hcurr ▸ hce), hn, Option.map_some, hprev]
    rw [hspot]
    rw [List.append_assoc] at hnd
    by_cases hs : s = []
    · left
      subst hs
      rw [h.holds.head_eq]
      exact ⟨by simp, rfl⟩
    · right
      have hne : some a ≠ o.head := by
        rw [h.holds.head_eq, List.append_assoc, List.head?_append_of_ne_nil _ hs]
        intro hhead
        exact (List.nodup_append.1 hnd).2.2 a (List.mem_of_mem_head? hhead.symm) a List.mem_cons_self rfl
      rw [if_neg hne]
      exact ⟨rfl, hs⟩

theorem Holds.insertHere_of_spot {b : α} (h : Holds o (s ++ b :: t)) (ha : o.mem a = none) (e : ε)
    (hspot : (o.spot = some none ∧ s = []) ∨ (o.spot = some (some b) ∧ s ≠ [])) :
    ∃ o', o.insertHere (some a) e = some (o', .good) ∧ Put o o' s a e (b :: t) := by
  have hhead : o.head ≠ none := fun hnone => by simpa using h.head_eq_none_iff.1 hnone
  rcases hspot with ⟨hspot, rfl⟩ | ⟨hspot, hs⟩
  · obtain ⟨o', hins, hput⟩ := Holds.insert h ha e
    refine ⟨o', ?_, hput⟩
    rw [Dlist.insertHere, if_neg hhead, h.recoverTail, Option.bind_some, hspot, Option.bind_some]
    exact hins
  · obtain ⟨n, hn, -⟩ := h.node
    obtain ⟨o', hp, hput⟩ := h.putBefore hs ha hn e
    refine ⟨o', ?_, hput⟩
    rw [Dlist.insertHere, if_neg hhead, h.recoverTail, Option.bind_some, hspot, Option.bind_some]
    dsimp only
    rw [hn, Option.bind_some, hp, Option.map_some]

/-- A node goes in front of the one that was returned last. -/
theorem Passed.insertHere {b : α} (h : Passed o (s ++ [b]) t) (ha : o.mem a = none) (e : ε) :
    ∃ o', o.insertHere (some a) e = some (o', .good) ∧ Put o o' s a e (b :: t) := by
  have hholds := h.holds
  rw [List.append_assoc] at hholds
  exact hholds.insertHere_of_spot ha e h.spot

/-- A list that is not empty has a spot for a new node. -/
theorem Holds.exists_spot (h : Holds o as) (hne : as ≠ []) :
    ∃ s b t, as = s ++ b :: t ∧ ((o.spot = some none ∧ s = []) ∨ (o.spot = some (some b) ∧ s ≠ [])) := by
  rcases h.idle_or_passed with ⟨hcurr, hwrap⟩ | ⟨s, t, rfl, hp⟩
  · obtain ⟨b, t, rfl⟩ := List.exists_cons_of_ne_nil hne
    refine ⟨[], b, t, rfl, .inl ⟨?_, rfl⟩⟩
    simp only [Dlist.spot, hwrap, hcurr, Bool.false_eq_true, if_false]
  · obtain rfl | ⟨s, b, rfl⟩ := s.eq_nil_or_concat
    · obtain ⟨b, t, rfl⟩ := List.exists_cons_of_ne_nil hne
      have hcurr : o.curr = some b := hp.curr_eq
      have hhead : o.head = some b := h.head_eq
      refine ⟨[], b, t, rfl, .inl ⟨?_, rfl⟩⟩
      simp only [Dlist.spot, hp.wrapFlag_cons, hcurr, hhead, Bool.false_eq_true, if_false, if_true]
    · rw [List.concat_eq_append] at hp ⊢
      exact ⟨s, b, t, by rw [List.append_assoc]; rfl, hp.spot⟩

theorem Holds.exists_insertHere (h : Holds o as) (ha : o.mem a = none) (e : ε) :
    ∃ o' s t, as = s ++ t ∧ o.insertHere (some a) e = some (o', .good) ∧ Put o o' s a e t := by
  by_cases hne : as = []
  · obtain ⟨o', hins, hput⟩ := h.insert ha e
    refine ⟨o', [], as, rfl, ?_, hput⟩
    rw [Dlist.insertHere, if_pos (h.head_eq_none_iff.2 hne), hins]
  · obtain ⟨s, b, t, rfl, hspot⟩ := h.exists_spot hne
    obtain ⟨o', hins, hput⟩ := h.insertHere_of_spot ha e hspot
    exact ⟨o', s, b :: t, rfl, hins, hput⟩

theorem insert_none (e : ε) : o.insert none e = some (o, .bad) := by
  rw [Dlist.insert]

theorem append_none (e : ε) : o.append none e = some (o, .bad) := by
  rw [Dlist.append]

/-- Without memory nothing changes. -/
theorem Holds.insertHere_none (h : Holds o as) (e : ε) : o.insertHere none e = some (o, .bad) := by
  by_cases hne : as = []
  · rw [Dlist.insertHere, if_pos (h.head_eq_none_iff.2 hne), insert_none]
  · obtain ⟨s, b, t, rfl, hspot⟩ := h.exists_spot hne
    have hhead : o.head ≠ none := fun hnone => hne (h.head_eq_none_iff.1 hnone)
    rw [Dlist.insertHere, if_neg hhead, h.recoverTail, Option.bind_some]
    rcases hspot with ⟨hspot, -⟩ | ⟨hspot, -⟩
    · rw [hspot, Option.bind_some]
      exact insert_none e
    · rw [hspot, Option.bind_some]

theorem Passed.appendHere {b : α} (h : Passed o (s ++ [b]) t) (ha : o.mem a = none) (e : ε) :
    ∃ o', o.appendHere (some a) e = some (o', .good) ∧ Put o o' (s ++ [b]) a e t := by
  obtain ⟨c, hc⟩ := Option.ne_none_iff_exists'.1
    (show o.head ≠ none from fun hnone => by simpa using h.holds.head_eq_none_iff.1 hnone)
  cases t with
  | nil =>
    have hholds := h.holds
    rw [List.append_nil] at hholds
    obtain ⟨o', happ, hput⟩ := hholds.append ha e
    refine ⟨o', ?_, hput⟩
    simp only [Dlist.appendHere, hc, h.wrapFlag_nil, if_true, happ]
  | cons d t =>
    have hcurr : o.curr = some d := h.curr_eq
    obtain ⟨n, hn, -⟩ := h.holds.node
    obtain ⟨o', hp, hput⟩ := h.holds.putBefore (by simp) ha hn e
    refine ⟨o', ?_, hput⟩
    simp only [Dlist.appendHere, hc, h.wrapFlag_cons, hcurr, hn, Option.bind_some, hp, Option.map_some,
      Bool.false_eq_true, if_false]

/-- In a list that has not been walked the new node goes behind the head. -/
theorem Holds.appendHere_idle {b : α} (h : Holds o (b :: t)) (hidle : o.curr = none ∧ o.wrapFlag = false)
    (ha : o.mem a = none) (e : ε) :
    ∃ o', o.appendHere (some a) e = some (o', .good) ∧ Put o o' [b] a e t := by
  have hout := h.fresh ha
  have hhead : o.head = some b := h.head_eq
  obtain ⟨n, hn, -, hnext⟩ := Holds.node (s := []) h
  obtain ⟨mem, mem', hw, hw', hf, hk⟩ := (h.formed_update hout (some ⟨some b, n.next, e⟩)).insert (s := [b])
    h.nodup hout (Function.update_self _ _ _) rfl hnext
  rw [← hnext] at hw'
  have hw : Dll.writeNext links (o.setMem a (some ⟨some b, n.next, e⟩)).mem (some b) (some a) = some mem := hw
  refine ⟨{ o with mem := mem', tail := if n.next = none then some a else o.tail, cntIn := o.cntIn + 1 }, ?_,
    Holds.put (s := [b]) (n := ⟨some b, n.next, e⟩) h hout hf hk h.head_eq ?_ rfl rfl rfl⟩
  · simp only [Dlist.appendHere, hhead, hidle.1, hidle.2, hn, Option.bind_some, hw, hw', Option.map_some,
      Bool.false_eq_true, if_false]
  · change (if n.next = none then some a else o.tail) = _
    rw [hnext, h.tail_eq]
    cases t with
    | nil => rfl
    | cons c t => rw [if_neg (by simp), List.getLast?_cons_cons, List.singleton_append, List.getLast?_cons_cons,
        List.getLast?_cons_cons]

end Sctp.Dlist
