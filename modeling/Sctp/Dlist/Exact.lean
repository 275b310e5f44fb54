import Sctp.Dlist.Cursor

/-! Runs of the list operations: the list stays well formed and the cursor is faithful. -/
namespace Sctp.Dlist

open HashedTbl (Status)

variable {α ε : Type*} [DecidableEq α]

/-- `calloc` returns memory that is not in use. -/
def Fresh (o : Dlist α ε) (temp : Option α) : Prop := temp.all fun a => (o.mem a).isNone

/-- What callers keep to: a link that they hand over is theirs, and memory of the list they leave alone. -/
def Allowed (o : Dlist α ε) : Op α ε → Prop
  | .insert temp _ | .append temp _ | .insertHere temp _ | .appendHere temp _ => o.Fresh temp
  | .appenddlink entry => (o.mem entry).isSome ∧ entry ∉ o.nodes
  | .other a _ => a ∉ o.nodes
  | _ => True

/-- No node is appended at a cursor that stands at the head, and the last node is not taken out while the flag
is set, but by `dlist_getNextSlist`. -/
def Meets (o : Dlist α ε) : Op α ε → Prop
  | .appendHere temp _ => temp = none ∨ o.curr = none ∨ o.curr ≠ o.head
  | .getThis | .getThisSlist | .getNext => ¬ (o.cntIn = 1 ∧ o.wrapFlag = true)
  | _ => True

instance (o : Dlist α ε) (op : Op α ε) : Decidable (o.Allowed op) := by
  cases op <;> unfold Allowed Fresh <;> infer_instance

instance (o : Dlist α ε) (op : Op α ε) : Decidable (o.Meets op) := by
  cases op <;> unfold Meets <;> infer_instance

/-- The calls of `dlist_get` to come return these entries and then nothing. -/
def Gives (o : Dlist α ε) (es : List ε) : Prop := ∀ n, gets n o = some ((es.map some).takeD n none)

/-- Behind a `dlist_get` that returned the entry `e` the list is `o'`. -/
structure Returned (o o' : Dlist α ε) (s : List α) (a : α) (t : List α) (e : ε) : Prop where
  nodes_eq : o.nodes = s ++ a :: t
  entry_eq : o.entries [a] = [e]
  gives : o'.Gives (o.entries t)
  getThis : ∃ o'', o'.getThis = some (o'', some e) ∧ o''.nodes = s ++ t ∧
    o''.entries (s ++ t) = o.entries (s ++ t) ∧ o''.Gives (o.entries t)
  replaceThis : ∀ x, ∃ o'', o'.replaceThis x = some (o'', some e) ∧ o''.nodes = o.nodes ∧
    o''.entries o.nodes = o.entries s ++ x :: o.entries t ∧ o''.Gives (o.entries t)

structure Faithful (o : Dlist α ε) : Prop where
  formed : Dll.Formed links o.mem none o.nodes none
  nodup : o.nodes.Nodup
  head_eq : o.head = o.nodes.head?
  tail_eq : o.tail = o.nodes.getLast?
  cntIn_eq : o.cntIn = o.nodes.length
  curr_mem : ∀ c, o.curr = some c → c ∈ o.nodes
  returned : ∀ o' e, o.get = some (o', some e) → ∃ s a t, Returned o o' s a t e
  /-- An empty list is as it was created. -/
  empty : o.nodes = [] → o = { (create : Dlist α ε) with mem := o.mem }
  append_get : o.nodes = [] → ∀ a e, o.mem a = none →
    ∃ o', o.append (some a) e = some (o', .good) ∧ o'.Gives [e]

/-- The invariant: an empty list does not have the flag set. -/
structure Live (o : Dlist α ε) (as : List α) : Prop where
  holds : Holds o as
  wrapFlag_nil : as = [] → o.wrapFlag = false

variable {o o' : Dlist α ε} {as s t : List α} {a : α} {e : ε}

omit [DecidableEq α] in
theorem Put.live (h : Put o o' s a e t) : Live o' (s ++ a :: t) := ⟨h.holds, fun hnil => by simp at hnil⟩

omit [DecidableEq α] in
theorem Took.live (h : Took o o' s a t) (hwrap : s ++ t = [] → o'.wrapFlag = false) : Live o' (s ++ t) :=
  ⟨h.holds, hwrap⟩

omit [DecidableEq α] in
theorem Live.move (h : Live o as) {curr : Option α} {wrapFlag : Bool} (hcurr : ∀ c, curr = some c → c ∈ as)
    (hwrap : wrapFlag = true → curr = none) (hnil : as = [] → wrapFlag = false) :
    Live { o with curr := curr, wrapFlag := wrapFlag } as :=
  ⟨h.holds.move hcurr hwrap, hnil⟩

omit [DecidableEq α] in
theorem Passed.live (h : Passed o s t) (hne : s ++ t ≠ []) : Live o (s ++ t) := ⟨h.holds, fun hnil => absurd hnil hne⟩

omit [DecidableEq α] in
/-- What a step does that may put a node in. -/
theorem Live.put_step (h : Live o as) {temp : Option α} {f : Option α → Option (Dlist α ε × Status)}
    (hfresh : o.Fresh temp) (hnone : f none = some (o, .bad))
    (hsome : ∀ a, o.mem a = none → ∃ o' s t, f (some a) = some (o', .good) ∧ Put o o' s a e t) :
    ∃ o' as', (f temp).map Prod.fst = some o' ∧ Live o' as' := by
  cases temp with
  | none => exact ⟨o, as, by rw [hnone]; rfl, h⟩
  | some a =>
    obtain ⟨o', s, t, hf, hput⟩ := hsome a (Option.isNone_iff_eq_none.1 hfresh)
    exact ⟨o', _, by rw [hf]; rfl, hput.live⟩

omit [DecidableEq α] in
theorem Live.get_step (h : Live o as) : ∃ o' as', o.get.map Prod.fst = some o' ∧ Live o' as' := by
  rcases h.holds.idle_or_passed with hidle | ⟨s, t, rfl, hp⟩
  · cases as with
    | nil =>
      have hp : Passed o [] [] := ⟨h.holds, hidle.1, fun hne => absurd rfl hne⟩
      exact ⟨o, [], by rw [hp.get_nil]; rfl, h⟩
    | cons a t =>
      obtain ⟨o', n, -, hget, hp, -⟩ := h.holds.get_idle hidle
      exact ⟨o', _, by rw [hget]; rfl, hp.live (by simp)⟩
  · cases t with
    | nil => exact ⟨o, _, by rw [hp.get_nil]; rfl, h⟩
    | cons a t =>
      obtain ⟨o', n, -, hget, hp', -⟩ := hp.get
      exact ⟨o', _, by rw [hget]; rfl, hp'.live (by simp)⟩

omit [DecidableEq α] in
theorem Live.wrapFlag_of_meets (h : Live o (s ++ a :: t)) (hmeets : ¬ (o.cntIn = 1 ∧ o.wrapFlag = true))
    (hnil : s ++ t = []) : o.wrapFlag = false := by
  rw [← Bool.not_eq_true]
  intro hw
  refine hmeets ⟨?_, hw⟩
  obtain ⟨rfl, rfl⟩ := List.append_eq_nil_iff.1 hnil
  rw [h.holds.cntIn_eq]
  rfl

theorem Live.getNext_step (h : Live o as) (hmeets : ¬ (o.cntIn = 1 ∧ o.wrapFlag = true)) :
    ∃ o' as', o.getNext.map Prod.fst = some o' ∧ Live o' as' := by
  cases as with
  | nil =>
    have hhead : o.head = none := h.holds.head_eq
    refine ⟨{ o with wrapFlag := false }, [], by simp only [getNext, hhead]; rfl, ?_⟩
    exact h.move h.holds.curr_mem (fun hw => absurd hw Bool.false_ne_true) fun _ => rfl
  | cons a t =>
    obtain ⟨o', n, -, hget, htook, hwrap⟩ := h.holds.getNext
    refine ⟨o', _, by rw [hget]; rfl, htook.live fun hnil => hwrap.trans ?_⟩
    exact Live.wrapFlag_of_meets (s := []) h hmeets hnil

theorem Live.getNextSlist_step (h : Live o as) : ∃ o' as', o.getNextSlist.map Prod.fst = some o' ∧ Live o' as' := by
  cases as with
  | nil =>
    have hhead : o.head = none := h.holds.head_eq
    refine ⟨{ o with wrapFlag := false }, [], by simp only [getNextSlist, hhead]; rfl, ?_⟩
    exact h.move h.holds.curr_mem (fun hw => absurd hw Bool.false_ne_true) fun _ => rfl
  | cons a t =>
    obtain ⟨o', n, -, hget, -, htook, hwrap⟩ := h.holds.getNextSlist
    exact ⟨o', _, by rw [hget]; rfl, htook.live fun hnil => by rw [hwrap, if_pos (show t = [] from hnil)]⟩

theorem Live.getThis_step (h : Live o as) (hmeets : ¬ (o.cntIn = 1 ∧ o.wrapFlag = true)) :
    ∃ o' as', o.getThis.map Prod.fst = some o' ∧ Live o' as' := by
  by_cases hne : as = []
  · exact ⟨o, as, by rw [getThis, if_pos (h.holds.head_eq_none_iff.2 hne)]; rfl, h⟩
  · obtain ⟨s, a, t, rfl, hpick⟩ := h.holds.exists_pick hne
    obtain ⟨o', n, -, hget, htook, hwrap⟩ := h.holds.getThis_of_pick hpick
    exact ⟨o', _, by rw [hget]; rfl, htook.live fun hnil => hwrap.trans (h.wrapFlag_of_meets hmeets hnil)⟩

theorem Live.getThisSlist_step (h : Live o as) (hmeets : ¬ (o.cntIn = 1 ∧ o.wrapFlag = true)) :
    ∃ o' as', o.getThisSlist.map Prod.fst = some o' ∧ Live o' as' := by
  by_cases hne : as = []
  · exact ⟨o, as, by rw [getThisSlist, if_pos (h.holds.head_eq_none_iff.2 hne)]; rfl, h⟩
  · obtain ⟨s, a, t, rfl, hpick⟩ := h.holds.exists_pick hne
    obtain ⟨o', n, -, hget, -, htook, hwrap⟩ := h.holds.getThisSlist_of_pick hpick
    exact ⟨o', _, by rw [hget]; rfl, htook.live fun hnil => hwrap hnil (h.wrapFlag_of_meets hmeets hnil)⟩

theorem Live.replaceThis_step (h : Live o as) (e : ε) :
    ∃ o' as', (o.replaceThis e).map Prod.fst = some o' ∧ Live o' as' := by
  by_cases hne : as = []
  · have hhead : o.head = none := h.holds.head_eq_none_iff.2 hne
    exact ⟨o, as, by simp only [replaceThis, hhead]; rfl, h⟩
  · obtain ⟨s, a, t, rfl, hshown⟩ := h.holds.exists_shown hne
    obtain ⟨o', n, -, hrep, hholds, -, -, -, hwrap⟩ := h.holds.replaceThis_of_shown hshown e
    exact ⟨o', _, by rw [hrep]; rfl, hholds, fun hnil => hwrap.trans (h.wrapFlag_nil hnil)⟩

omit [DecidableEq α] in
theorem Live.backUpOne_step (h : Live o as) : ∃ o' as', o.backUpOne.map Prod.fst = some o' ∧ Live o' as' := by
  cases as with
  | nil =>
    have hhead : o.head = none := h.holds.head_eq
    exact ⟨o, [], by simp only [backUpOne, hhead]; rfl, h⟩
  | cons b t =>
    have hhead : o.head = some b := h.holds.head_eq
    cases hcurr : o.curr with
    | none =>
      refine ⟨_, b :: t, by simp only [backUpOne, hhead, hcurr]; rfl, h.move ?_ ?_ fun _ => rfl⟩
      · rintro c hc
        cases hc
        exact List.mem_cons_self
      · exact fun hw => absurd hw Bool.false_ne_true
    | some c =>
      obtain ⟨s', t', heq⟩ := List.append_of_mem (h.holds.curr_mem c hcurr)
      have hholds := h.holds
      rw [heq] at hholds
      obtain ⟨n, hn, hprev, -⟩ := hholds.node
      refine ⟨_, b :: t, by simp only [backUpOne, hhead, hcurr, hn]; rfl, h.move ?_ ?_ fun _ => rfl⟩
      · intro d hd
        rw [hprev, Option.or_eq_some_iff] at hd
        rcases hd with hd | ⟨-, hd⟩
        · rw [heq]
          exact List.mem_append_left _ (List.mem_of_mem_getLast? hd)
        · cases hd
          exact List.mem_cons_self
      · exact fun hw => absurd hw Bool.false_ne_true

theorem Holds.exists_appendHere {b : α} (h : Holds o (b :: t)) (hcurr : o.curr = none ∨ o.curr ≠ o.head)
    (ha : o.mem a = none) (e : ε) :
    ∃ o' s t', b :: t = s ++ t' ∧ o.appendHere (some a) e = some (o', .good) ∧ Put o o' s a e t' := by
  rcases h.idle_or_passed with hidle | ⟨s, t', heq, hp⟩
  · obtain ⟨o', happ, hput⟩ := h.appendHere_idle hidle ha e
    exact ⟨o', [b], t, rfl, happ, hput⟩
  · obtain rfl | ⟨s, c, rfl⟩ := s.eq_nil_or_concat
    · obtain rfl : b :: t = t' := heq
      have hb : o.curr = some b := hp.curr_eq
      have hhead : o.head = some b := h.head_eq
      rcases hcurr with hnone | hne
      · rw [hnone] at hb
        cases hb
      · exact absurd (hb.trans hhead.symm) hne
    · rw [List.concat_eq_append] at hp heq
      obtain ⟨o', happ, hput⟩ := hp.appendHere ha e
      exact ⟨o', _, _, heq, happ, hput⟩

/-- Each operation goes through and keeps the invariant. -/
theorem Live.step (h : Live o as) {op : Op α ε} (hallowed : o.Allowed op) (hmeets : o.Meets op) :
    ∃ o' as', o.step op = some o' ∧ Live o' as' := by
  cases op with
  | insert temp entry =>
    apply h.put_step (e := entry) (f := fun temp => o.insert temp entry) hallowed (insert_none entry)
    intro a ha
    obtain ⟨o', hins, hput⟩ := h.holds.insert ha entry
    exact ⟨o', [], as, hins, hput⟩
  | append temp entry =>
    apply h.put_step (e := entry) (f := fun temp => o.append temp entry) hallowed (append_none entry)
    intro a ha
    obtain ⟨o', happ, hput⟩ := h.holds.append ha entry
    exact ⟨o', as, [], happ, hput⟩
  | appenddlink entry =>
    obtain ⟨hsome, hout⟩ := hallowed
    rw [h.holds.nodes_eq] at hout
    obtain ⟨n, hn⟩ := Option.isSome_iff_exists.1 hsome
    obtain ⟨o', happ, hput⟩ := h.holds.appenddlink hout hn
    exact ⟨o', _, by rw [Dlist.step, happ]; rfl, hput.live⟩
  | insertHere temp entry =>
    apply h.put_step (e := entry) (f := fun temp => o.insertHere temp entry) hallowed (h.holds.insertHere_none entry)
    intro a ha
    obtain ⟨o', s, t, -, hins, hput⟩ := h.holds.exists_insertHere ha entry
    exact ⟨o', s, t, hins, hput⟩
  | appendHere temp entry =>
    cases as with
    | nil =>
      have hhead : o.head = none := h.holds.head_eq
      have heq : o.step (.appendHere temp entry) = o.step (.append temp entry) := by
        simp only [Dlist.step, appendHere, hhead]
      rw [heq]
      apply h.put_step (e := entry) (f := fun temp => o.append temp entry) hallowed (append_none entry)
      intro a ha
      obtain ⟨o', happ, hput⟩ := h.holds.append ha entry
      exact ⟨o', [], [], happ, hput⟩
    | cons b t =>
      have hhead : o.head = some b := h.holds.head_eq
      cases temp with
      | none =>
        refine ⟨o, b :: t, ?_, h⟩
        cases hw : o.wrapFlag with
        | true => simp only [Dlist.step, appendHere, hhead, hw, if_true, append_none, Option.map_some]
        | false => simp only [Dlist.step, appendHere, hhead, hw, Bool.false_eq_true, if_false, Option.map_some]
      | some a =>
        have hcurr : o.curr = none ∨ o.curr ≠ o.head := hmeets.resolve_left (Option.some_ne_none a)
        obtain ⟨o', s, t, -, happ, hput⟩ :=
          h.holds.exists_appendHere hcurr (Option.isNone_iff_eq_none.1 hallowed) entry
        exact ⟨o', _, by rw [Dlist.step, happ]; rfl, hput.live⟩
  | get => exact h.get_step
  | getThis => exact h.getThis_step hmeets
  | getThisSlist => exact h.getThisSlist_step hmeets
  | getNext => exact h.getNext_step hmeets
  | getNextSlist => exact h.getNextSlist_step
  | replaceThis entry => exact h.replaceThis_step entry
  | backUpOne => exact h.backUpOne_step
  | getToTheEnd =>
    refine ⟨_, as, rfl, h.move ?_ (fun hw => absurd hw Bool.false_ne_true) fun _ => rfl⟩
    intro c hc
    rw [h.holds.tail_eq] at hc
    exact List.mem_of_mem_getLast? hc
  | reset => exact ⟨_, as, rfl, h.holds.reset.holds, fun _ => rfl⟩
  | other a n =>
    have hout : a ∉ as := by
      rw [← h.holds.nodes_eq]
      exact hallowed
    exact ⟨_, as, rfl, h.holds.setMem hout n, h.wrapFlag_nil⟩

omit [DecidableEq α] in
theorem entries_cons {n : DlistDlink α ε} (hn : o.mem a = some n) (as : List α) :
    o.entries (a :: as) = n.ent :: o.entries as :=
  Linked.contents_cons hn as

omit [DecidableEq α] in
theorem gets_succ {x : Option ε} (hget : o.get = some (o', x)) (n : ℕ) :
    gets (n + 1) o = (gets n o').map (x :: ·) := by
  rw [gets, hget, Option.bind_some]

omit [DecidableEq α] in
theorem Passed.gives (h : Passed o s t) : o.Gives (o.entries t) := by
  intro n
  induction n generalizing o s t with
  | zero => rfl
  | succ n ih =>
    cases t with
    | nil =>
      rw [gets_succ h.get_nil, ih h]
      rfl
    | cons a t =>
      obtain ⟨o', n', hn, hget, hp, hmem⟩ := h.get
      have hentries : o'.entries t = o.entries t := by rw [entries, hmem]; rfl
      rw [gets_succ hget, ih hp, hentries, entries_cons hn]
      rfl

omit [DecidableEq α] in
/-- Where a `dlist_get` returns an entry. -/
theorem Holds.get_some (h : Holds o as) (hget : o.get = some (o', some e)) :
    ∃ s a t n, as = s ++ a :: t ∧ o.mem a = some n ∧ n.ent = e ∧ Passed o' (s ++ [a]) t ∧ o'.mem = o.mem := by
  rcases h.idle_or_passed with hidle | ⟨s, t, rfl, hp⟩
  · cases as with
    | nil =>
      have hp : Passed o [] [] := ⟨h, hidle.1, fun hne => absurd rfl hne⟩
      rw [hp.get_nil] at hget
      cases hget
    | cons a t =>
      obtain ⟨o₁, n, hn, hget', hp, hmem⟩ := h.get_idle hidle
      rw [hget'] at hget
      cases hget
      exact ⟨[], a, t, n, rfl, hn, rfl, hp, hmem⟩
  · cases t with
    | nil =>
      rw [hp.get_nil] at hget
      cases hget
    | cons a t =>
      obtain ⟨o₁, n, hn, hget', hp', hmem⟩ := hp.get
      rw [hget'] at hget
      cases hget
      exact ⟨s, a, t, n, rfl, hn, rfl, hp', hmem⟩

theorem Holds.returned (h : Holds o as) (hget : o.get = some (o', some e)) : ∃ s a t, Returned o o' s a t e := by
  obtain ⟨s, a, t, n, rfl, hn, rfl, hp, hmem⟩ := h.get_some hget
  have hentries : ∀ as, o'.entries as = o.entries as := fun as => by rw [entries, hmem]; rfl
  have ha : ∀ {n'}, o'.mem a = some n' → n' = n := by
    intro n' hn'
    rw [hmem, hn] at hn'
    exact (Option.some.inj hn').symm
  have hnodes := h.nodes_eq
  refine ⟨s, a, t, hnodes, entries_cons hn [], ?_, ?_, ?_⟩
  · rw [← hentries]
    exact hp.gives
  · obtain ⟨o'', n', hn', hthis, hp', hkeeps⟩ := hp.getThis
    obtain rfl := ha hn'
    have hst : o''.entries (s ++ t) = o.entries (s ++ t) := by rw [hkeeps.entries_eq, hentries]
    have ht : o''.entries t = o.entries t := by
      have hkt : Keeps o' o'' t := fun b hb => hkeeps b (List.mem_append_right _ hb)
      rw [hkt.entries_eq, hentries]
    refine ⟨o'', hthis, hp'.holds.nodes_eq, hst, ?_⟩
    rw [← ht]
    exact hp'.gives
  · intro x
    obtain ⟨o'', n', hn', hrep, hp', hkeeps, hx⟩ := hp.replaceThis x
    obtain rfl := ha hn'
    obtain ⟨m, hm, rfl⟩ := Option.map_eq_some_iff.1 hx
    have hks : Keeps o' o'' s := fun b hb => hkeeps b (List.mem_append_left _ hb)
    have hkt : Keeps o' o'' t := fun b hb => hkeeps b (List.mem_append_right _ hb)
    have ht : o''.entries t = o.entries t := by rw [hkt.entries_eq, hentries]
    refine ⟨o'', hrep, ?_, ?_, ?_⟩
    · rw [hp'.holds.nodes_eq, hnodes, List.append_assoc]
      rfl
    · have hs : o''.entries s = o.entries s := by rw [hks.entries_eq, hentries]
      have happ : o''.entries (s ++ a :: t) = o''.entries s ++ o''.entries (a :: t) := Linked.contents_append s (a :: t)
      rw [hnodes, happ, entries_cons hm, hs, ht]
    · rw [← ht]
      exact hp'.gives

theorem Live.faithful (h : Live o as) : o.Faithful := by
  have hnodes := h.holds.nodes_eq
  have hempty : o.nodes = [] → o = { (create : Dlist α ε) with mem := o.mem } := by
    intro hnil
    obtain rfl : as = [] := hnodes.symm.trans hnil
    have hcurr : o.curr = none := by
      cases hcurr : o.curr with
      | none => rfl
      | some c => exact absurd (h.holds.curr_mem c hcurr) List.not_mem_nil
    have hcnt : o.cntIn = 0 := h.holds.cntIn_eq
    obtain ⟨mem, head, tail, curr, wrapFlag, cntIn⟩ := o
    simp only [create, mk.injEq, true_and]
    exact ⟨h.holds.head_eq, h.holds.tail_eq, hcurr, h.wrapFlag_nil rfl, hcnt⟩
  refine ⟨?_, ?_, ?_, ?_, ?_, ?_, ?_, hempty, ?_⟩
  · rw [hnodes]
    exact h.holds.formed
  · rw [hnodes]
    exact h.holds.nodup
  · rw [hnodes]
    exact h.holds.head_eq
  · rw [hnodes]
    exact h.holds.tail_eq
  · rw [hnodes]
    exact h.holds.cntIn_eq
  · rw [hnodes]
    exact h.holds.curr_mem
  · intro o' e hget
    exact h.holds.returned hget
  · intro hnil a e ha
    obtain rfl : as = [] := hnodes.symm.trans hnil
    obtain ⟨o', happ, hput⟩ := h.holds.append ha e
    have hidle : o'.curr = none ∧ o'.wrapFlag = false := by
      rw [hput.curr_eq, hput.wrapFlag_eq, hempty hnil]
      exact ⟨rfl, rfl⟩
    refine ⟨o', happ, fun n => ?_⟩
    cases n with
    | zero => rfl
    | succ n =>
      have hholds : Holds o' [a] := hput.holds
      obtain ⟨o'', n', hn', hget, hp, -⟩ := hholds.get_idle hidle
      have he := hput.ent_eq
      rw [hn'] at he
      have he : n'.ent = e := Option.some.inj he
      rw [gets_succ hget, hp.gives n, he]
      rfl

/-- In every run a list stays well formed and its cursor faithful. -/
theorem run_faithful {ops : List (Op α ε)} (hallowed : Trace.Along step Allowed create ops)
    (hmeets : Trace.Along step Meets create ops) : ∃ o, run (create : Dlist α ε) ops = some o ∧ o.Faithful := by
  have hcreate : ∃ as, Live (create : Dlist α ε) as := ⟨[], create_holds, fun _ => rfl⟩
  have hboth : Trace.Along step (fun o op => Allowed o op ∧ Meets o op) (create : Dlist α ε) ops := hallowed.and hmeets
  have hstep : ∀ (o : Dlist α ε) op, (∃ as, Live o as) → Allowed o op ∧ Meets o op →
      ∃ o', step o op = some o' ∧ ∃ as, Live o' as := by
    rintro o op ⟨as, hlive⟩ hok
    obtain ⟨o', as', hs, hlive'⟩ := hlive.step hok.1 hok.2
    exact ⟨o', hs, as', hlive'⟩
  obtain ⟨o, hrun, as, hlive⟩ := Trace.run_progress _ hstep hcreate hboth
  exact ⟨o, hrun, hlive.faithful⟩

/-- Two entries are appended, the second is returned and taken out. -/
theorem run_faithful_two : ∃ o, run (create : Dlist ℕ ℕ)
    [.append (some 1) 10, .appendHere (some 2) 20, .reset, .get, .get, .getThis, .insertHere (some 2) 30] = some o ∧
      o.Faithful :=
  run_faithful (by decide +kernel) (by decide +kernel)

/-- A node appended at a cursor that stands at the head is lost, and a list emptied at its end gives nothing
afterwards. -/
theorem not_run_faithful :
    (Trace.Along step Allowed create [Op.append (some 1) 10, .reset, .appendHere (some 2) 20] ∧
      ¬ ∃ o, run (create : Dlist ℕ ℕ) [.append (some 1) 10, .reset, .appendHere (some 2) 20] = some o ∧
        o.Faithful) ∧
    (Trace.Along step Allowed create [Op.append (some 1) 10, .get, .getThis] ∧
      ¬ ∃ o, run (create : Dlist ℕ ℕ) [.append (some 1) 10, .get, .getThis] = some o ∧ o.Faithful) := by
  refine ⟨⟨by decide +kernel, ?_⟩, ⟨by decide +kernel, ?_⟩⟩
  · rintro ⟨o, hrun, hfaithful⟩
    have hcnt := hfaithful.cntIn_eq
    cases hrun
    revert hcnt
    decide +kernel
  · rintro ⟨o, hrun, hfaithful⟩
    have hempty := congrArg Dlist.wrapFlag (hfaithful.empty (by cases hrun; decide +kernel))
    cases hrun
    revert hempty
    decide +kernel

end Sctp.Dlist
