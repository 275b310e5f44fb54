import Sctp.Dlist.Exact
import Sctp.Lib.Stable

/-! The loops of the distributor over its lists: an entry is put in by its rank, and one is looked for and taken
out. -/
namespace Sctp.Dlist

open HashedTbl (Status)

variable {α ε : Type}

/-- The loop over `dlist_get` up to the first entry that passes a test. A test may follow a bad pointer. Nothing
comes of a loop that does not end. -/
def seek (test : ε → Option Bool) : ℕ → Dlist α ε → Option (Dlist α ε × Option ε)
  | 0, _ => none
  | n + 1, o => o.get.bind fun (o, e) =>
      match e with
      | none => some (o, none)
      | some e => (test e).bind fun hit => if hit then some (o, some e) else seek test n o

variable [DecidableEq α]

/-- A new entry goes in front of the first one that passes a test, or to the end. `temp` is what `calloc`
returns. -/
def place (o : Dlist α ε) (past : ε → Option Bool) (temp : Option α) (entry : ε) :
    Option (Dlist α ε × Status) :=
  (seek past (o.cntIn.toNat + 1) o.reset).bind fun (o, at₀) =>
    if at₀.isSome then o.insertHere temp entry else o.append temp entry

/-- The first entry that passes a test is taken out. What was found and what `dlist_getThis` returned are both
handed back. -/
def pull (o : Dlist α ε) (test : ε → Option Bool) : Option (Dlist α ε × Option (ε × Option ε)) :=
  (seek test (o.cntIn.toNat + 1) o.reset).bind fun (o, pe) =>
    match pe with
    | none => some (o, none)
    | some pe => o.getThis.map fun (o, pf) => (o, some (pe, pf))

/-- The loop over `dlist_get` that takes out every entry that passes a test. It ends with what `dlist_get` returned
last. -/
def sweep (test : ε → Option Bool) : ℕ → Dlist α ε → Option (Dlist α ε × Option ε)
  | 0, _ => none
  | n + 1, o => o.get.bind fun (o, e) =>
      match e with
      | none => some (o, none)
      | some e => (test e).bind fun hit =>
          if hit then o.getThis.bind fun (o, _) => sweep test n o else sweep test n o

def pullLast (o : Dlist α ε) : Option (Dlist α ε) :=
  o.getToTheEnd.get.bind fun (o, _) => o.getThis.map fun (o, _) => o

variable {o : Dlist α ε} {s t as : List α} {a : α} {test : ε → Option Bool} {p : ε → Bool}

omit [DecidableEq α] in
theorem entries_append (o : Dlist α ε) (s t : List α) : o.entries (s ++ t) = o.entries s ++ o.entries t :=
  Linked.contents_append s t

omit [DecidableEq α] in
theorem entries_of_mem_eq {o o' : Dlist α ε} (h : o'.mem = o.mem) (as : List α) : o'.entries as = o.entries as := by
  rw [entries, entries, h]

omit [DecidableEq α] in
/-- The loop stops behind the first entry that passes the test. -/
theorem Passed.seek (h : Passed o s t) (htest : ∀ e ∈ o.entries t, test e = some (p e)) {n : ℕ} (hn : t.length < n) :
    ∃ o', o'.mem = o.mem ∧
      ((Dlist.seek test n o = some (o', none) ∧ Passed o' (s ++ t) [] ∧ ∀ e ∈ o.entries t, p e = false) ∨
        ∃ f a r k, t = f ++ a :: r ∧ o.mem a = some k ∧ p k.ent = true ∧ (∀ e ∈ o.entries f, p e = false) ∧
          Dlist.seek test n o = some (o', some k.ent) ∧ Passed o' (s ++ f ++ [a]) r) := by
  induction t generalizing o s n with
  | nil =>
    obtain ⟨n, rfl⟩ : ∃ m, n = m + 1 := ⟨n - 1, by omega⟩
    refine ⟨o, rfl, .inl ⟨?_, ?_, ?_⟩⟩
    · rw [Dlist.seek, h.get_nil, Option.bind_some]
    · rw [List.append_nil]
      exact h
    · intro e he
      cases he
  | cons a t ih =>
    obtain ⟨n, rfl⟩ : ∃ m, n = m + 1 := ⟨n - 1, by omega⟩
    obtain ⟨o₁, k, hk, hget, hp, hmem⟩ := h.get
    rw [entries_cons hk] at htest
    have hhit := htest k.ent List.mem_cons_self
    cases hpk : p k.ent with
    | true =>
      refine ⟨o₁, hmem, .inr ⟨[], a, t, k, rfl, hk, hpk, ?_, ?_, ?_⟩⟩
      · intro e he
        cases he
      · rw [Dlist.seek, hget, Option.bind_some]
        dsimp only
        rw [hhit, hpk, Option.bind_some, if_pos rfl]
      · rw [List.append_nil]
        exact hp
    | false =>
      have hents : o₁.entries t = o.entries t := entries_of_mem_eq hmem t
      have hstep : Dlist.seek test (n + 1) o = Dlist.seek test n o₁ := by
        rw [Dlist.seek, hget, Option.bind_some]
        dsimp only
        rw [hhit, hpk, Option.bind_some, if_neg Bool.false_ne_true]
      rw [hstep, entries_cons hk]
      have htest' : ∀ e ∈ o₁.entries t, test e = some (p e) := by
        intro e he
        rw [hents] at he
        exact htest e (List.mem_cons_of_mem _ he)
      obtain ⟨o', hmem', hcase⟩ := ih hp htest' (Nat.lt_of_succ_lt_succ hn)
      refine ⟨o', hmem'.trans hmem, ?_⟩
      rcases hcase with ⟨hseek, hend, hnone⟩ | ⟨f, b, r, m, rfl, hm, hpm, hnone, hseek, hend⟩
      · left
        refine ⟨hseek, ?_, ?_⟩
        · rw [List.append_assoc] at hend
          exact hend
        · rw [hents] at hnone
          rw [List.forall_mem_cons]
          exact ⟨hpk, hnone⟩
      · right
        refine ⟨a :: f, b, r, m, rfl, ?_, hpm, ?_, hseek, ?_⟩
        · rw [← hmem]
          exact hm
        · rw [entries_cons hk, List.forall_mem_cons, ← entries_of_mem_eq hmem]
          exact ⟨hpk, hnone⟩
        · rw [List.append_assoc s] at hend
          exact hend

variable {as' : List α} {e : ε}

omit [DecidableEq α] in
theorem entries_cut {f r : List α} {k : DlistDlink α ε} (hk : o.mem a = some k) :
    o.entries (f ++ a :: r) = o.entries f ++ k.ent :: o.entries r := by
  rw [entries_append, entries_cons hk]

/-- A new entry is put in by its rank. -/
theorem Holds.place (h : Holds o as) (ha : o.mem a = none) (e : ε) (htest : ∀ e' ∈ o.entries as, test e' = some (p e')) :
    ∃ o' as', o.place test (some a) e = some (o', .good) ∧ Holds o' as' ∧
      o'.entries as' = Stable.front p (o.entries as) ++ e :: Stable.rest p (o.entries as) := by
  have hreset : Passed o.reset [] as := h.reset
  have hlen : as.length < o.cntIn.toNat + 1 := by
    rw [h.cntIn_eq]
    omega
  obtain ⟨o₁, hmem, hcase⟩ := hreset.seek (p := p) htest hlen
  have hfresh : o₁.mem a = none := by
    rw [hmem]
    exact ha
  have hents : ∀ as, o₁.entries as = o.entries as := entries_of_mem_eq hmem
  have hents₀ : ∀ as, o.reset.entries as = o.entries as := fun _ => rfl
  rcases hcase with ⟨hseek, hp, hnone⟩ | ⟨f, b, r, k, rfl, hk, hpk, hnone, hseek, hp⟩
  · have hholds : Holds o₁ as := by
      have := hp.holds
      rwa [List.append_nil] at this
    obtain ⟨o', happend, hput⟩ := hholds.append hfresh e
    refine ⟨o', as ++ [a], ?_, hput.holds, ?_⟩
    · rw [Dlist.place, hseek, Option.bind_some]
      exact happend
    · have hkeeps : Keeps o₁ o' as := fun b hb => hput.keeps b (List.mem_append_left _ hb)
      obtain ⟨n, hn, hent⟩ := Option.map_eq_some_iff.1 hput.ent_eq
      rw [entries_cut hn, hkeeps.entries_eq, hents, hent, Stable.front_of_forall (hents₀ as ▸ hnone),
        Stable.rest_of_forall (hents₀ as ▸ hnone)]
      rfl
  · obtain ⟨o', hinsert, hput⟩ := hp.insertHere hfresh e
    refine ⟨o', f ++ a :: b :: r, ?_, hput.holds, ?_⟩
    · rw [Dlist.place, hseek, Option.bind_some]
      exact hinsert
    · have hkf : Keeps o₁ o' f := fun c hc => hput.keeps c (List.mem_append_left _ hc)
      have hkr : Keeps o₁ o' (b :: r) := fun c hc => hput.keeps c (List.mem_append_right _ hc)
      obtain ⟨n, hn, hent⟩ := Option.map_eq_some_iff.1 hput.ent_eq
      have hk₀ : o.mem b = some k := hk
      rw [hents₀] at hnone
      rw [entries_cut hn, hkf.entries_eq, hkr.entries_eq, hents, hents, hent, entries_append, entries_cons hk₀,
        Stable.front_append hnone, Stable.rest_append hnone, Stable.front_of_past hpk, Stable.rest_of_past hpk,
        List.append_nil]

/-- Without memory for a link the list is what it was. -/
theorem Holds.place_none (h : Holds o as) (e : ε) (htest : ∀ e' ∈ o.entries as, test e' = some (p e')) :
    ∃ o', o.place test none e = some (o', .bad) ∧ Holds o' as ∧ o'.mem = o.mem := by
  have hreset : Passed o.reset [] as := h.reset
  have hlen : as.length < o.cntIn.toNat + 1 := by
    rw [h.cntIn_eq]
    omega
  obtain ⟨o₁, hmem, hcase⟩ := hreset.seek (p := p) htest hlen
  refine ⟨o₁, ?_⟩
  rcases hcase with ⟨hseek, hp, -⟩ | ⟨f, b, r, k, rfl, -, -, -, hseek, hp⟩
  · refine ⟨?_, ?_, hmem⟩
    · rw [Dlist.place, hseek, Option.bind_some]
      exact append_none e
    · have := hp.holds
      rwa [List.append_nil] at this
  · have hholds : Holds o₁ (f ++ b :: r) := by
      have := hp.holds
      rwa [List.nil_append, List.append_assoc] at this
    refine ⟨?_, hholds, hmem⟩
    rw [Dlist.place, hseek, Option.bind_some]
    exact hholds.insertHere_none e

/-- The first entry that passes the test is taken out. -/
theorem Holds.pull (h : Holds o as) (htest : ∀ e' ∈ o.entries as, test e' = some (p e')) :
    ∃ o' as', o.pull test = some (o', ((o.entries as).find? p).map fun e => (e, some e)) ∧ Holds o' as' ∧
      o'.entries as' = (o.entries as).eraseP p := by
  have hreset : Passed o.reset [] as := h.reset
  have hlen : as.length < o.cntIn.toNat + 1 := by
    rw [h.cntIn_eq]
    omega
  obtain ⟨o₁, hmem, hcase⟩ := hreset.seek (p := p) htest hlen
  have hents : ∀ as, o₁.entries as = o.entries as := entries_of_mem_eq hmem
  have hents₀ : ∀ as, o.reset.entries as = o.entries as := fun _ => rfl
  rcases hcase with ⟨hseek, hp, hnone⟩ | ⟨f, b, r, k, rfl, hk, hpk, hnone, hseek, hp⟩
  · have hnone' : ∀ e ∈ o.entries as, ¬ p e = true := by
      intro e he
      rw [hnone e he]
      exact Bool.false_ne_true
    refine ⟨o₁, as, ?_, ?_, ?_⟩
    · rw [Dlist.pull, hseek, Option.bind_some, List.find?_eq_none.2 hnone']
      rfl
    · have := hp.holds
      rwa [List.append_nil] at this
    · rw [hents, List.eraseP_of_forall_not hnone']
  · have hnone' : ∀ e ∈ o.entries f, ¬ p e = true := by
      intro e he
      have hfalse : p e = false := hnone e he
      rw [hfalse]
      exact Bool.false_ne_true
    obtain ⟨o', n, hn, hthis, hp', hkeeps⟩ := hp.getThis
    obtain rfl : n = k := by
      rw [hmem] at hn
      exact Option.some.inj (hn.symm.trans hk)
    have hk : o.mem b = some n := hk
    refine ⟨o', f ++ r, ?_, hp'.holds, ?_⟩
    · have hfind : (o.entries (f ++ b :: r)).find? p = some n.ent := by
        rw [entries_cut hk, List.find?_append, List.find?_eq_none.2 hnone', Option.none_or, List.find?_cons_of_pos hpk]
      rw [Dlist.pull, hseek, Option.bind_some, hfind]
      dsimp only
      rw [hthis]
      rfl
    · have hkeeps : Keeps o₁ o' (f ++ r) := hkeeps
      rw [hkeeps.entries_eq, hents, entries_append, entries_cut hk, List.eraseP_append_right _ hnone',
        List.eraseP_cons_of_pos hpk]

/-- All entries that pass the test are taken out, and the loop ends with nothing. -/
theorem Passed.sweep (h : Passed o s t) (htest : ∀ e ∈ o.entries t, test e = some (p e)) {n : ℕ}
    (hn : t.length < n) :
    ∃ o' t', Dlist.sweep test n o = some (o', none) ∧ Holds o' (s ++ t') ∧
      o'.entries (s ++ t') = o.entries s ++ (o.entries t).filter fun e => !p e := by
  induction t generalizing o s n with
  | nil =>
    obtain ⟨n, rfl⟩ : ∃ m, n = m + 1 := ⟨n - 1, by omega⟩
    refine ⟨o, [], ?_, h.holds, ?_⟩
    · rw [Dlist.sweep, h.get_nil, Option.bind_some]
    · rw [List.append_nil]
      exact (List.append_nil _).symm
  | cons a t ih =>
    obtain ⟨n, rfl⟩ : ∃ m, n = m + 1 := ⟨n - 1, by omega⟩
    obtain ⟨o₁, k, hk, hget, hp, hmem⟩ := h.get
    rw [entries_cons hk, List.forall_mem_cons] at htest
    have hlt := Nat.lt_of_succ_lt_succ hn
    rw [entries_cons hk, Dlist.sweep, hget, Option.bind_some]
    dsimp only
    rw [htest.1, Option.bind_some]
    cases hpk : p k.ent with
    | true =>
      obtain ⟨o₂, m, -, hthis, hp₂, hkeeps⟩ := hp.getThis
      have hents : ∀ bs, bs ⊆ s ++ t → o₂.entries bs = o.entries bs := by
        intro bs hbs
        have hkeeps' : Keeps o₁ o₂ bs := fun b hb => hkeeps b (hbs hb)
        rw [hkeeps'.entries_eq, entries_of_mem_eq hmem]
      have htest' : ∀ e ∈ o₂.entries t, test e = some (p e) := by
        rw [hents t (List.subset_append_right s t)]
        exact htest.2
      obtain ⟨o', t', hsweep, hholds, hentries⟩ := ih hp₂ htest' hlt
      refine ⟨o', t', ?_, hholds, ?_⟩
      · rw [if_pos rfl, hthis, Option.bind_some]
        exact hsweep
      · rw [hentries, hents s (List.subset_append_left s t), hents t (List.subset_append_right s t),
          List.filter_cons_of_neg]
        rw [hpk]
        exact Bool.false_ne_true
    | false =>
      have htest' : ∀ e ∈ o₁.entries t, test e = some (p e) := by
        rw [entries_of_mem_eq hmem]
        exact htest.2
      obtain ⟨o', t', hsweep, hholds, hentries⟩ := ih hp htest' hlt
      rw [List.append_assoc] at hholds hentries
      refine ⟨o', a :: t', ?_, hholds, ?_⟩
      · rw [if_neg Bool.false_ne_true]
        exact hsweep
      · have hcut : s ++ a :: t' = s ++ ([a] ++ t') := rfl
        rw [hcut, hentries, entries_of_mem_eq hmem, entries_of_mem_eq hmem, entries_append, entries_cons hk,
          List.filter_cons_of_pos]
        · rw [List.append_assoc]
          rfl
        · rw [hpk]
          rfl

theorem Holds.pullLast (h : Holds o (s ++ [a])) :
    ∃ o', o.pullLast = some o' ∧ Holds o' s ∧ o'.entries s = o.entries s := by
  have hend : Passed o.getToTheEnd s [a] := by
    refine ⟨h.move ?_ ?_, ?_, ?_⟩
    · intro c hc
      rw [h.tail_eq] at hc
      exact List.mem_of_getLast? hc
    · intro hwrap
      cases hwrap
    · change o.tail = _
      rw [h.tail_eq, List.getLast?_concat]
      rfl
    · intro _
      exact iff_of_false Bool.false_ne_true (List.cons_ne_nil a [])
  obtain ⟨o₁, k, -, hget, hp, hmem⟩ := hend.get
  obtain ⟨o₂, m, -, hthis, hp₂, hkeeps⟩ := hp.getThis
  rw [List.append_nil] at hkeeps
  refine ⟨o₂, ?_, ?_, ?_⟩
  · rw [Dlist.pullLast, hget, Option.bind_some]
    dsimp only
    rw [hthis]
    rfl
  · have hholds := hp₂.holds
    rwa [List.append_nil] at hholds
  · rw [hkeeps.entries_eq, entries_of_mem_eq hmem]
    rfl

end Sctp.Dlist
