import Sctp.Nets.Plan

/-! Which destinations an association has when the parameters of the peer were accepted. -/
namespace Sctp.Nets

open Asconf (Addr)
open Auth
open Tlv (Param)

/-- The addresses that are destinations behind some parameters. -/
def knownAddrs (c : LoadCall) (d₀ : Dests) (pre : List Param) : List Addr :=
  (if c.legal c.src then [c.src] else []) ++ (d₀.addrs ++ listedAddrs c pre)

def named (c : LoadCall) (d₀ : Dests) (pre : List Param) (a : Addr) : Option Addr :=
  if a ∈ knownAddrs c d₀ pre then some a else none

/-- The destinations are those with the source address or a listed one, and each SET-PRIMARY parameter selects
the destination that it names, if there is one. -/
structure ExactlyLoaded (c : LoadCall) (d₀ : Dests) (r : Accepted) : Prop where
  addrs : ∀ a, a ∈ r.dests.addrs ↔ a = c.src ∨ a ∈ listedAddrs c c.listed
  nodup : r.dests.addrs.Nodup
  count : r.dests.numnets = r.dests.nets.length
  primary : ∃ q ∈ r.dests.ptrs, r.dests.primary = some q
  selected : r.selected = selections c (named c d₀) [] c.listed

def sameFamily : Addr → Addr → Bool
  | .v4 _, .v4 _ => true
  | .v6 _, .v6 _ => true
  | _, _ => false

/-- The address in a parameter that is copied, also if it is skipped then. -/
def copiedAddr (c : LoadCall) (x : Param) : Option Addr := (c.heardAddr x).or (nameOf c x)

/-- The address of the family of the last listed one that was copied last, or the source address if none is
listed. -/
def standing (c : LoadCall) (pre : List Param) : Addr :=
  match (listedAddrs c pre).getLast? with
  | none => c.src
  | some b => (((pre.filterMap (copiedAddr c)).filter (sameFamily b)).getLast?).getD b

/-- A SET-PRIMARY parameter behind some others is read as meant: the last address listed before is of the family
of the one named, or none is listed before and the source address is named, or neither what is named nor what
stands there is a destination. -/
def ReadAsMeant (c : LoadCall) (d₀ : Dests) (pre : List Param) (a : Addr) : Prop :=
  (∃ b ∈ (listedAddrs c pre).getLast?, sameFamily b a = true) ∨ (listedAddrs c pre = [] ∧ c.src = a) ∨
    (a ∉ knownAddrs c d₀ pre ∧ standing c pre ∉ knownAddrs c d₀ pre)

/-- A new address takes the place of the primary one: there is none, or it has no route and the new one has a
route and is confirmed. -/
def displaces (c : LoadCall) (d₀ : Dests) (q : Option Addr) (a : Addr) : Bool :=
  q.all fun p => (routeOf c d₀ p).isNone && (routeOf c d₀ a).isSome && confirmed c d₀ a

/-- The primary address when the source address is there. -/
def firstPrimary (c : LoadCall) (d₀ : Dests) : Option Addr :=
  let old := (d₀.primary.bind d₀.get).map Dest.addr
  if c.legal c.src ∧ c.src ∉ d₀.addrs ∧ displaces c d₀ old c.src then some c.src else old

/-- A parameter behind some others names a confirmed destination as the primary one. -/
def elects (c : LoadCall) (d₀ : Dests) (pre : List Param) (x : Param) : Bool :=
  (nameOf c x).any fun a => decide (a ∈ knownAddrs c d₀ pre) && confirmed c d₀ a

/-- The last choice of a primary address by a SET-PRIMARY parameter, with the parameters up to it and those
behind; without one, the primary address at the start. -/
structure LastChoice (c : LoadCall) (d₀ : Dests) (q : Option Addr) (pre post : List Param) : Prop where
  origin : (pre = [] ∧ q = firstPrimary c d₀) ∨
    ∃ pre' x, pre = pre' ++ [x] ∧ elects c d₀ pre' x = true ∧ q = nameOf c x
  last : ∀ l x r, post = l ++ x :: r → elects c d₀ (pre ++ l) x = false

/-- An address listed behind the choice is new and takes its place. -/
def Replaced (c : LoadCall) (d₀ : Dests) (q : Option Addr) (pre post : List Param) : Prop :=
  ∃ a ∈ listedAddrs c post, a ∉ knownAddrs c d₀ pre ∧ displaces c d₀ q a = true

/-- The primary address chosen last is kept or replaced, or another one is confirmed and can be reached. -/
def PrimaryLasts (c : LoadCall) (d₀ : Dests) : Prop :=
  ∃ q pre post, c.listed = pre ++ post ∧ LastChoice c d₀ q pre post ∧
    (Replaced c d₀ q pre post ∨ ∃ p ∈ q, p ∈ keptAddrs c d₀ c.listed ∨
      ∃ a ∈ keptAddrs c d₀ c.listed, confirmed c d₀ a = true ∧ c.reachable a = true)

/-- The source address is taken or listed, the primary address lasts or there is another one for it, and each
SET-PRIMARY parameter is read as meant. -/
structure Loadable (c : LoadCall) (d₀ : Dests) : Prop where
  source : c.src ∈ keptAddrs c d₀ c.listed
  primary : PrimaryLasts c d₀
  selected : ∀ pre x post, c.listed = pre ++ x :: post → ∀ a ∈ nameOf c x, ReadAsMeant c d₀ pre a

variable {c : LoadCall} {d₀ : Dests} {x : Param} {s : Load}

def dropMarked (reachable : Addr → Bool) (d : Dests) (n : Dest) : Dests :=
  let d := { d with numnets := d.numnets - 1, nets := d.nets.filter fun m => m.ptr ≠ n.ptr }
  if d.primary = some n.ptr then { d with primary := none }.selectPrimaryDestination reachable else d

theorem sweep_cons (reachable : Addr → Bool) (n : Dest) (l : List Dest) (d : Dests) :
    sweep reachable (n :: l) d =
      if n.notInAssoc then sweep reachable l (dropMarked reachable d n) else sweep reachable l d := rfl

/-- The primary destination when the marked ones are gone. -/
def staysPrimary (reachable : Addr → Bool) (d : Dests) : Prop :=
  ∃ n ∈ d.nets, d.primary = some n.ptr ∧ (n.notInAssoc = false ∨
    ∃ m ∈ d.nets, m.notInAssoc = false ∧ m.unconfirmed = false ∧ reachable m.addr = true)

namespace Dests

variable {reachable : Addr → Bool} {d : Dests} {n : Dest} {l : List Dest}

theorem selectPrimaryDestination_nets (d : Dests) (reachable : Addr → Bool) :
    (d.selectPrimaryDestination reachable).nets = d.nets := by
  unfold selectPrimaryDestination
  split <;> rfl

theorem selectPrimaryDestination_numnets (d : Dests) (reachable : Addr → Bool) :
    (d.selectPrimaryDestination reachable).numnets = d.numnets := by
  unfold selectPrimaryDestination
  split <;> rfl

theorem dropMarked_nets (reachable : Addr → Bool) (d : Dests) (n : Dest) :
    (dropMarked reachable d n).nets = d.nets.filter fun m => m.ptr ≠ n.ptr := by
  unfold dropMarked
  dsimp only
  split
  · exact selectPrimaryDestination_nets _ reachable
  · rfl

theorem dropMarked_numnets (reachable : Addr → Bool) (d : Dests) (n : Dest) :
    (dropMarked reachable d n).numnets = d.numnets - 1 := by
  unfold dropMarked
  dsimp only
  split
  · exact selectPrimaryDestination_numnets _ reachable
  · rfl

/-- The destinations that the rest of the sweep goes over have all that is still marked. -/
structure Sweepable (l : List Dest) (d : Dests) : Prop where
  ptrs : d.ptrs.Nodup
  count : d.numnets = d.nets.length
  order : (l.map Dest.ptr).Nodup
  marked : ∀ n, n.notInAssoc = true → (n ∈ d.nets ↔ n ∈ l)

theorem mem_dropMarked (h : d.ptrs.Nodup) (hn : n ∈ d.nets) {m : Dest} :
    m ∈ (dropMarked reachable d n).nets ↔ m ∈ d.nets ∧ m ≠ n := by
  rw [dropMarked_nets, List.mem_filter]
  apply and_congr_right
  intro hm
  rw [decide_eq_true_iff]
  exact not_congr ⟨fun hptr => List.inj_on_of_nodup_map h hm hn hptr, congrArg Dest.ptr⟩

theorem Sweepable.skip (h : Sweepable (n :: l) d) (hn : n.notInAssoc = false) : Sweepable l d where
  ptrs := h.ptrs
  count := h.count
  order := (List.nodup_cons.mp h.order).2
  marked := by
    intro m hm
    rw [h.marked m hm, List.mem_cons, or_iff_right]
    rintro rfl
    exact absurd (hm.symm.trans hn) nofun

theorem Sweepable.drop (h : Sweepable (n :: l) d) (hn : n.notInAssoc = true) :
    Sweepable l (dropMarked reachable d n) where
  ptrs := by
    unfold Dests.ptrs
    rw [dropMarked_nets]
    exact (List.filter_sublist.map Dest.ptr).nodup h.ptrs
  count := by
    have hmem : n.ptr ∈ d.ptrs := List.mem_map_of_mem ((h.marked n hn).mpr List.mem_cons_self)
    rw [dropMarked_numnets, dropMarked_nets, length_filter_ptr h.ptrs hmem, h.count]
  order := (List.nodup_cons.mp h.order).2
  marked := by
    intro m hm
    rw [mem_dropMarked h.ptrs ((h.marked n hn).mpr List.mem_cons_self), h.marked m hm, List.mem_cons]
    constructor
    · rintro ⟨heq | hmem, hne⟩
      · exact absurd heq hne
      · exact hmem
    · intro hmem
      refine ⟨Or.inr hmem, ?_⟩
      rintro rfl
      exact (List.nodup_cons.mp h.order).1 (List.mem_map_of_mem hmem)

/-- What is left. -/
theorem mem_sweep (h : Sweepable l d) {m : Dest} :
    m ∈ (sweep reachable l d).nets ↔ m ∈ d.nets ∧ m.notInAssoc = false := by
  induction l generalizing d with
  | nil =>
    refine (and_iff_left_of_imp fun hm => ?_).symm
    rw [← Bool.not_eq_true]
    exact fun hmarked => absurd ((h.marked m hmarked).mp hm) List.not_mem_nil
  | cons n l ih =>
    rw [sweep_cons]
    cases hn : n.notInAssoc with
    | false =>
      rw [if_neg Bool.false_ne_true]
      exact ih (h.skip hn)
    | true =>
      rw [if_pos rfl, ih (h.drop hn), mem_dropMarked h.ptrs ((h.marked n hn).mpr List.mem_cons_self), and_assoc]
      apply and_congr_right
      intro _
      rw [and_iff_right_iff_imp]
      rintro hkept rfl
      exact absurd (hn.symm.trans hkept) nofun

theorem sweep_sublist (reachable : Addr → Bool) (l : List Dest) (d : Dests) :
    (sweep reachable l d).nets.Sublist d.nets := by
  induction l generalizing d with
  | nil => exact List.Sublist.refl _
  | cons n l ih =>
    rw [sweep_cons]
    split
    · have hdrop := ih (dropMarked reachable d n)
      rw [dropMarked_nets] at hdrop
      exact hdrop.trans List.filter_sublist
    · exact ih d

theorem sweep_counted (h : Sweepable l d) : Sweepable [] (sweep reachable l d) := by
  induction l generalizing d with
  | nil => exact h
  | cons n l ih =>
    rw [sweep_cons]
    cases hn : n.notInAssoc with
    | false => exact ih (h.skip hn)
    | true => exact ih (h.drop hn)

/-- The primary destination was taken away. -/
theorem selectPrimary_stays (hd : d.ptrs.Nodup) (reachable : Addr → Bool) :
    staysPrimary reachable ({ d with primary := none }.selectPrimaryDestination reachable) ↔
      ∃ m ∈ d.nets, m.notInAssoc = false ∧ m.unconfirmed = false ∧ reachable m.addr = true := by
  unfold selectPrimaryDestination
  dsimp only
  cases hlast : (d.nets.filter fun n => !n.unconfirmed && reachable n.addr).getLast? with
  | none =>
    rw [List.getLast?_eq_none_iff, List.filter_eq_nil_iff] at hlast
    apply iff_of_false
    · rintro ⟨n, -, hnone, -⟩
      cases hnone
    · rintro ⟨m, hm, -, hconfirmed, hreachable⟩
      exact hlast m hm (by rw [hconfirmed, hreachable]; rfl)
  | some n =>
    obtain ⟨hn, hgood⟩ := List.mem_filter.mp (List.mem_of_getLast? hlast)
    rw [Bool.and_eq_true, Bool.not_eq_true'] at hgood
    constructor
    · rintro ⟨n', hn', hptr, hkept | hother⟩
      · have heq : n = n' := List.inj_on_of_nodup_map hd hn hn' (Option.some.inj hptr)
        rw [heq] at hgood
        exact ⟨n', hn', hkept, hgood⟩
      · exact hother
    · exact fun hother => ⟨n, hn, rfl, Or.inr hother⟩

theorem dropMarked_stays (h : Sweepable (n :: l) d) (hn : n.notInAssoc = true) :
    staysPrimary reachable (dropMarked reachable d n) ↔ staysPrimary reachable d := by
  have hmem : n ∈ d.nets := (h.marked n hn).mpr List.mem_cons_self
  have hkept : ∀ m : Dest, m.notInAssoc = false → m ≠ n := by
    rintro m hm rfl
    exact absurd (hn.symm.trans hm) nofun
  have hleft : ∀ m : Dest, m ∈ (d.nets.filter fun m => m.ptr ≠ n.ptr) ↔ m ∈ d.nets ∧ m ≠ n := by
    intro m
    rw [← dropMarked_nets reachable, mem_dropMarked h.ptrs hmem]
  have hselect := @selectPrimary_stays
    { d with numnets := d.numnets - 1, nets := d.nets.filter fun m => m.ptr ≠ n.ptr }
    ((List.filter_sublist.map Dest.ptr).nodup h.ptrs) reachable
  have hothers : (∃ m ∈ d.nets.filter fun m => m.ptr ≠ n.ptr,
        m.notInAssoc = false ∧ m.unconfirmed = false ∧ reachable m.addr = true) ↔
      ∃ m ∈ d.nets, m.notInAssoc = false ∧ m.unconfirmed = false ∧ reachable m.addr = true := by
    constructor
    · rintro ⟨m, hm, hgood⟩
      exact ⟨m, ((hleft m).mp hm).1, hgood⟩
    · rintro ⟨m, hm, hgood⟩
      exact ⟨m, (hleft m).mpr ⟨hm, hkept m hgood.1⟩, hgood⟩
  unfold dropMarked
  dsimp only
  by_cases hprimary : d.primary = some n.ptr
  · rw [if_pos hprimary, hselect, hothers]
    constructor
    · exact fun hother => ⟨n, hmem, hprimary, Or.inr hother⟩
    · rintro ⟨n', hn', hptr, hunmarked | hother⟩
      · have hsome : some n'.ptr = some n.ptr := hptr.symm.trans hprimary
        have heq : n' = n := List.inj_on_of_nodup_map h.ptrs hn' hmem (Option.some.inj hsome)
        exact absurd heq (hkept n' hunmarked)
      · exact hother
  · rw [if_neg hprimary]
    unfold staysPrimary
    dsimp only
    rw [hothers]
    constructor
    · rintro ⟨n', hn', hstays⟩
      exact ⟨n', ((hleft n').mp hn').1, hstays⟩
    · rintro ⟨n', hn', hptr, hstays⟩
      refine ⟨n', (hleft n').mpr ⟨hn', ?_⟩, hptr, hstays⟩
      rintro rfl
      exact hprimary hptr

theorem sweep_stays (h : Sweepable l d) :
    staysPrimary reachable (sweep reachable l d) ↔ staysPrimary reachable d := by
  induction l generalizing d with
  | nil => exact Iff.rfl
  | cons n l ih =>
    rw [sweep_cons]
    cases hn : n.notInAssoc with
    | false => exact ih (h.skip hn)
    | true => exact (ih (h.drop hn)).trans (dropMarked_stays h hn)

end Dests

section Swept

variable {kept known : List Addr} {primary : Option Addr} {d : Dests} {reachable : Addr → Bool}

theorem Dests.Tracks.sweepable (h : Dests.Tracks c d₀ kept known primary d) : Dests.Sweepable d.nets d where
  ptrs := h.linked.ptrs
  count := h.linked.count
  order := h.linked.ptrs
  marked := fun _ _ => Iff.rfl

/-- The sweep leaves the destinations that the walk kept. -/
theorem sweep_addrs (h : Dests.Tracks c d₀ kept known primary d) {a : Addr} :
    a ∈ (sweep reachable d.nets d).addrs ↔ a ∈ kept := by
  have hmem : ∀ m, m ∈ (sweep reachable d.nets d).nets ↔ m ∈ d.nets ∧ m.notInAssoc = false :=
    fun _ => Dests.mem_sweep h.sweepable
  constructor
  · intro ha
    obtain ⟨n, hn, rfl⟩ := List.mem_map.mp ha
    obtain ⟨hold, hunmarked⟩ := (hmem n).mp hn
    exact (h.marked n hold).mp hunmarked
  · intro ha
    obtain ⟨n, hn, rfl⟩ := List.mem_map.mp ((h.known a).mpr (h.listed a ha))
    exact List.mem_map_of_mem ((hmem n).mpr ⟨hn, (h.marked n hn).mpr ha⟩)

theorem sweep_addrs_nodup (h : Dests.Tracks c d₀ kept known primary d) :
    (sweep reachable d.nets d).addrs.Nodup := by
  have hsub := Dests.sweep_sublist reachable d.nets d
  exact (hsub.map Dest.addr).nodup h.linked.addrs

/-- A destination that can be the primary one. -/
theorem exists_candidate_iff (h : Dests.Tracks c d₀ kept known primary d) :
    (∃ m ∈ d.nets, m.notInAssoc = false ∧ m.unconfirmed = false ∧ reachable m.addr = true) ↔
      ∃ a ∈ kept, confirmed c d₀ a = true ∧ reachable a = true := by
  constructor
  · rintro ⟨m, hm, hunmarked, hconfirmed, hreachable⟩
    rw [h.unconfirmed m hm, Bool.not_eq_false'] at hconfirmed
    exact ⟨m.addr, (h.marked m hm).mp hunmarked, hconfirmed, hreachable⟩
  · rintro ⟨a, ha, hconfirmed, hreachable⟩
    obtain ⟨m, hm, rfl⟩ := List.mem_map.mp ((h.known a).mpr (h.listed a ha))
    refine ⟨m, hm, (h.marked m hm).mpr ha, ?_, hreachable⟩
    rw [h.unconfirmed m hm, hconfirmed]
    rfl

theorem staysPrimary_iff (h : Dests.Tracks c d₀ kept known primary d) :
    staysPrimary reachable d ↔ ∃ p ∈ primary, p ∈ kept ∨
      ∃ a ∈ kept, confirmed c d₀ a = true ∧ reachable a = true := by
  unfold staysPrimary
  rw [exists_candidate_iff h]
  rcases h.primary with ⟨hnone, rfl⟩ | ⟨n, hn, hprimary, rfl⟩
  · rw [hnone]
    exact iff_of_false (fun ⟨_, _, hsome, _⟩ => nomatch hsome) fun ⟨_, hsome, _⟩ => nomatch hsome
  · constructor
    · rintro ⟨n', hn', hptr, hstays⟩
      have heq : n = n' :=
        List.inj_on_of_nodup_map h.linked.ptrs hn hn' (Option.some.inj (hprimary.symm.trans hptr))
      rw [← heq, h.marked n hn] at hstays
      exact ⟨n.addr, rfl, hstays⟩
    · rintro ⟨p, hp, hstays⟩
      obtain rfl := Option.some.inj hp
      rw [← h.marked n hn] at hstays
      exact ⟨n, hn, hprimary, hstays⟩

/-- At the end, the primary destination is on the list or there is none. -/
theorem staysPrimary_of_unmarked (hunmarked : ∀ n ∈ d.nets, n.notInAssoc = false) :
    staysPrimary reachable d ↔ ∃ q ∈ d.ptrs, d.primary = some q := by
  constructor
  · rintro ⟨n, hn, hprimary, -⟩
    exact ⟨n.ptr, List.mem_map_of_mem hn, hprimary⟩
  · rintro ⟨q, hq, hprimary⟩
    obtain ⟨n, hn, rfl⟩ := List.mem_map.mp hq
    exact ⟨n, hn, hprimary, Or.inl (hunmarked n hn)⟩

end Swept

/-- The source address is the only one that can be missing. -/
theorem keptAddrs_iff {xs : List Param} :
    (∀ a, a ∈ keptAddrs c d₀ xs ↔ a = c.src ∨ a ∈ listedAddrs c xs) ↔ c.src ∈ keptAddrs c d₀ xs := by
  constructor
  · intro h
    exact (h c.src).mpr (Or.inl rfl)
  · unfold keptAddrs
    split
    · exact fun _ a => List.mem_cons
    · intro hsrc a
      constructor
      · exact Or.inr
      · rintro (rfl | ha)
        · exact hsrc
        · exact ha

theorem selections_eq_iff {pick pick' : List Param → Addr → Option Addr} {pre xs : List Param} :
    selections c pick pre xs = selections c pick' pre xs ↔
      ∀ pre₁ x post, xs = pre₁ ++ x :: post → ∀ a ∈ nameOf c x, pick (pre ++ pre₁) a = pick' (pre ++ pre₁) a := by
  induction xs generalizing pre with
  | nil => exact iff_of_true rfl fun pre₁ x post h => absurd h (by simp)
  | cons x xs ih =>
    have hsplit : (∀ pre₁ z post, x :: xs = pre₁ ++ z :: post → ∀ a ∈ nameOf c z,
        pick (pre ++ pre₁) a = pick' (pre ++ pre₁) a) ↔ (∀ a ∈ nameOf c x, pick pre a = pick' pre a) ∧
        ∀ pre₁ z post, xs = pre₁ ++ z :: post → ∀ a ∈ nameOf c z,
          pick (pre ++ [x] ++ pre₁) a = pick' (pre ++ [x] ++ pre₁) a := by
      constructor
      · intro h
        refine ⟨fun a ha => ?_, fun pre₁ z post hxs a ha => ?_⟩
        · simpa using h [] x xs rfl a ha
        · simpa using h (x :: pre₁) z post (by rw [hxs, List.cons_append]) a ha
      · rintro ⟨hx, hrest⟩ pre₁ z post hxs a ha
        cases pre₁ with
        | nil =>
          obtain ⟨rfl, -⟩ := List.cons.inj hxs
          simpa using hx a ha
        | cons w pre₁ =>
          obtain ⟨rfl, htail⟩ := List.cons.inj hxs
          simpa using hrest pre₁ z post htail a ha
    rw [hsplit, ← ih, selections, selections]
    cases hname : nameOf c x with
    | none => simp
    | some a => simp

theorem getLast?_filter_append {f : Addr → Bool} {l : List Addr} {a : Addr} :
    ((l ++ [a]).filter f).getLast? = if f a then some a else (l.filter f).getLast? := by
  rw [List.filter_append]
  cases ha : f a with
  | true => rw [List.filter_cons_of_pos ha, List.filter_nil, List.getLast?_concat, if_pos rfl]
  | false =>
    rw [List.filter_cons_of_neg (by rw [ha]; exact Bool.false_ne_true), List.filter_nil, List.append_nil,
      if_neg Bool.false_ne_true]

/-- The variables hold what was copied last, and `sa` points to that of the family listed last. -/
structure Stands (c : LoadCall) (pre : List Param) (v : Vars) : Prop where
  sin : ∀ a ∈ ((pre.filterMap (copiedAddr c)).filter (sameFamily (.v4 0))).getLast?, a = .v4 v.sin
  sin6 : ∀ a ∈ ((pre.filterMap (copiedAddr c)).filter (sameFamily (.v6 0))).getLast?, a = .v6 v.sin6
  src : listedAddrs c pre = [] → v.sa = .src
  v4 : ∀ b, (listedAddrs c pre).getLast? = some (.v4 b) → v.sa = .sin ∧
    (((pre.filterMap (copiedAddr c)).filter (sameFamily (.v4 0))).getLast?).isSome
  v6 : ∀ b, (listedAddrs c pre).getLast? = some (.v6 b) → v.sa = .sin6 ∧
    (((pre.filterMap (copiedAddr c)).filter (sameFamily (.v6 0))).getLast?).isSome

section

variable {pre : List Param} {v : Vars} {a : Addr}

theorem copied_append (c : LoadCall) (pre : List Param) (x : Param) :
    (pre ++ [x]).filterMap (copiedAddr c) = pre.filterMap (copiedAddr c) ++ (copiedAddr c x).toList := by
  rw [List.filterMap_append]
  cases h : copiedAddr c x with
  | none => rw [List.filterMap_cons_none h]; rfl
  | some a => rw [List.filterMap_cons_some h]; rfl

theorem listedAddrs_append (c : LoadCall) (pre : List Param) (x : Param) :
    listedAddrs c (pre ++ [x]) = listedAddrs c pre ++ (c.listedAddr x).toList := by
  unfold listedAddrs
  rw [List.filterMap_append]
  cases h : c.listedAddr x with
  | none => rw [List.filterMap_cons_none h]; rfl
  | some a => rw [List.filterMap_cons_some h]; rfl

theorem Stands.same (h : Stands c pre v) (hcopied : copiedAddr c x = none) (hlisted : c.listedAddr x = none) :
    Stands c (pre ++ [x]) v := by
  have hc := copied_append c pre x
  have hl := listedAddrs_append c pre x
  rw [hcopied, Option.toList_none, List.append_nil] at hc
  rw [hlisted, Option.toList_none, List.append_nil] at hl
  exact ⟨hc ▸ h.sin, hc ▸ h.sin6, hl ▸ h.src, hl ▸ hc ▸ h.v4, hl ▸ hc ▸ h.v6⟩

/-- An address is copied, but `sa` stays. -/
theorem Stands.name (h : Stands c pre v) (hcopied : copiedAddr c x = some a) (hlisted : c.listedAddr x = none) :
    Stands c (pre ++ [x]) (v.name a) := by
  have hc := copied_append c pre x
  have hl := listedAddrs_append c pre x
  rw [hcopied, Option.toList_some] at hc
  rw [hlisted, Option.toList_none, List.append_nil] at hl
  have hsa : (v.name a).sa = v.sa := by
    cases a <;> rfl
  constructor
  · rw [hc, getLast?_filter_append]
    cases a with
    | v4 b => exact fun _ hb => (Option.some.inj hb).symm
    | v6 b => exact h.sin
  · rw [hc, getLast?_filter_append]
    cases a with
    | v4 b => exact h.sin6
    | v6 b => exact fun _ hb => (Option.some.inj hb).symm
  · rw [hl, hsa]
    exact h.src
  · rw [hl, hsa, hc, getLast?_filter_append]
    intro b hb
    refine ⟨(h.v4 b hb).1, ?_⟩
    split
    · rfl
    · exact (h.v4 b hb).2
  · rw [hl, hsa, hc, getLast?_filter_append]
    intro b hb
    refine ⟨(h.v6 b hb).1, ?_⟩
    split
    · rfl
    · exact (h.v6 b hb).2

/-- An address is listed. -/
theorem Stands.list (h : Stands c pre v) (hcopied : copiedAddr c x = some a) (hlisted : c.listedAddr x = some a)
    (huni : unicast a = true) : Stands c (pre ++ [x]) (v.list a) := by
  have hc := copied_append c pre x
  have hl := listedAddrs_append c pre x
  rw [hcopied, Option.toList_some] at hc
  rw [hlisted, Option.toList_some] at hl
  have hne : listedAddrs c (pre ++ [x]) ≠ [] := by
    rw [hl]
    simp
  have hlast : (listedAddrs c (pre ++ [x])).getLast? = some a := by
    rw [hl, List.getLast?_concat]
  cases a with
  | v4 b =>
    have hv : v.list (.v4 b) = { v with sin := b, sa := .sin } := if_pos huni
    rw [hv]
    refine ⟨?_, ?_, fun hnil => absurd hnil hne, fun b' _ => ⟨rfl, ?_⟩, fun b' hb => ?_⟩
    · rw [hc, getLast?_filter_append]
      exact fun _ hb => (Option.some.inj hb).symm
    · rw [hc, getLast?_filter_append]
      exact h.sin6
    · rw [hc, getLast?_filter_append]
      rfl
    · rw [hlast] at hb
      cases hb
  | v6 b =>
    have hv : v.list (.v6 b) = { v with sin6 := b, sa := .sin6 } := if_pos huni
    rw [hv]
    refine ⟨?_, ?_, fun hnil => absurd hnil hne, fun b' hb => ?_, fun b' _ => ⟨rfl, ?_⟩⟩
    · rw [hc, getLast?_filter_append]
      exact h.sin
    · rw [hc, getLast?_filter_append]
      exact fun _ hb => (Option.some.inj hb).symm
    · rw [hlast] at hb
      cases hb
    · rw [hc, getLast?_filter_append]
      rfl

theorem Stands.value_name (h : Stands c pre v) (a : Addr) :
    (v.name a).value c = a ∧ (∃ b ∈ (listedAddrs c pre).getLast?, sameFamily b a = true) ∨
      (v.name a).value c = standing c pre ∧ ¬ ∃ b ∈ (listedAddrs c pre).getLast?, sameFamily b a = true := by
  have hfamily4 : ∀ b, sameFamily (.v4 b) = sameFamily (.v4 0) := fun b => by
    funext a
    cases a <;> rfl
  have hfamily6 : ∀ b, sameFamily (.v6 b) = sameFamily (.v6 0) := fun b => by
    funext a
    cases a <;> rfl
  have hsa : (v.name a).sa = v.sa := by
    cases a <;> rfl
  unfold Vars.value
  rw [hsa]
  cases hlast : (listedAddrs c pre).getLast? with
  | none =>
    refine .inr ⟨?_, by simp⟩
    rw [h.src (List.getLast?_eq_none_iff.1 hlast), standing, hlast]
  | some b =>
    cases b with
    | v4 b =>
      obtain ⟨hsin, hsome⟩ := h.v4 b hlast
      obtain ⟨w, hw⟩ := Option.isSome_iff_exists.1 hsome
      rw [hsin]
      cases a with
      | v4 a => exact .inl ⟨rfl, .v4 b, rfl, rfl⟩
      | v6 a =>
        refine .inr ⟨?_, by simp [sameFamily]⟩
        rw [standing, hlast]
        dsimp only
        rw [hfamily4, hw, h.sin w hw]
        rfl
    | v6 b =>
      obtain ⟨hsin, hsome⟩ := h.v6 b hlast
      obtain ⟨w, hw⟩ := Option.isSome_iff_exists.1 hsome
      rw [hsin]
      cases a with
      | v4 a =>
        refine .inr ⟨?_, by simp [sameFamily]⟩
        rw [standing, hlast]
        dsimp only
        rw [hfamily6, hw, h.sin6 w hw]
        rfl
      | v6 a => exact .inl ⟨rfl, .v6 b, rfl, rfl⟩

end

theorem stands_walk (pre : List Param) : Stands c pre (Plan.walk c d₀ pre).vars := by
  induction pre using List.reverseRecOn with
  | nil =>
    have hvars : (Plan.walk c d₀ []).vars = ⟨0, 0, .src⟩ := by
      change (Plan.start c d₀).vars = _
      unfold Plan.start
      split
      · exact Plan.add_vars c d₀ _ _
      · rfl
    rw [hvars]
    exact ⟨nofun, nofun, fun _ => rfl, nofun, nofun⟩
  | append_singleton pre x ih =>
    rw [walk_append]
    unfold Plan.step
    cases hheard : c.heardAddr x with
    | some a =>
      have hcopied : copiedAddr c x = some a := by
        rw [copiedAddr, hheard]
        rfl
      dsimp only
      cases huni : unicast a with
      | true =>
        rw [if_pos rfl, Plan.add_vars]
        refine ih.list hcopied ?_ huni
        rw [LoadCall.listedAddr, hheard, Option.filter_some, if_pos huni]
      | false =>
        rw [if_neg Bool.false_ne_true]
        have hname : (Plan.walk c d₀ pre).vars.list a = (Plan.walk c d₀ pre).vars.name a := by
          cases a <;> exact if_neg (by rw [huni]; exact Bool.false_ne_true)
        change Stands c (pre ++ [x]) ((Plan.walk c d₀ pre).vars.list a)
        rw [hname]
        apply ih.name hcopied
        rw [LoadCall.listedAddr, hheard, Option.filter_some, if_neg (by rw [huni]; exact Bool.false_ne_true)]
    | none =>
      have hlisted : c.listedAddr x = none := by
        rw [LoadCall.listedAddr, hheard]
        rfl
      have hcopied : copiedAddr c x = nameOf c x := by
        rw [copiedAddr, hheard, Option.none_or]
      dsimp only
      split
      · rename_i hx
        have hname : nameOf c x = Load.lsa c x := if_pos hx
        cases hlsa : Load.lsa c x with
        | none => exact ih.same (hcopied.trans (hname.trans hlsa)) hlisted
        | some a =>
          have hvars : ∀ (s : Plan) (sa : Addr), (s.select c d₀ sa).vars = s.vars := by
            intro s sa
            unfold Plan.select
            split <;> rfl
          dsimp only
          rw [hvars]
          exact ih.name (hcopied.trans (hname.trans hlsa)) hlisted
      · rename_i hx
        exact ih.same (hcopied.trans (nameOf_of_ne hx)) hlisted

/-- What the walk knows. -/
theorem mem_walk_known (pre : List Param) (a : Addr) :
    a ∈ (Plan.walk c d₀ pre).known ↔ a ∈ knownAddrs c d₀ pre := by
  have hadd : ∀ (s : Plan) (b : Addr), a ∈ (s.add c d₀ b).known ↔ a = b ∨ a ∈ s.known := by
    intro s b
    unfold Plan.add
    split
    · rename_i hb
      exact ⟨.inr, fun h => h.elim (fun h => h ▸ hb) id⟩
    · exact List.mem_cons
  have hselect : ∀ (s : Plan) (sa : Addr), (s.select c d₀ sa).known = s.known := by
    intro s sa
    unfold Plan.select
    split <;> rfl
  induction pre using List.reverseRecOn with
  | nil =>
    change a ∈ (Plan.start c d₀).known ↔ _
    unfold Plan.start knownAddrs
    split
    · rw [hadd, List.singleton_append, List.mem_cons]
      exact or_congr Iff.rfl (by simp [listedAddrs])
    · simp [listedAddrs]
  | append_singleton pre x ih =>
    have hknown : a ∈ knownAddrs c d₀ (pre ++ [x]) ↔ c.listedAddr x = some a ∨ a ∈ knownAddrs c d₀ pre := by
      unfold knownAddrs
      rw [listedAddrs_append]
      simp only [List.mem_append, Option.mem_toList]
      tauto
    have ih : a ∈ (Plan.walk c d₀ pre).known ↔ a ∈ knownAddrs c d₀ pre := ih
    rw [walk_append, hknown]
    unfold Plan.step
    cases hheard : c.heardAddr x with
    | some b =>
      dsimp only
      cases huni : unicast b with
      | true =>
        rw [if_pos rfl, hadd, LoadCall.listedAddr, hheard, Option.filter_some, if_pos huni, Option.some.injEq,
          eq_comm, ← ih]
      | false =>
        have hlisted : c.listedAddr x = none := by
          rw [LoadCall.listedAddr, hheard, Option.filter_some, if_neg (by rw [huni]; exact Bool.false_ne_true)]
        rw [if_neg Bool.false_ne_true, hlisted, ← ih]
        simp
    | none =>
      have hlisted : c.listedAddr x = none := by
        rw [LoadCall.listedAddr, hheard]
        rfl
      rw [hlisted, ← ih]
      dsimp only
      split
      · cases Load.lsa c x with
        | none => simp
        | some b =>
          dsimp only
          rw [hselect]
          simp
      · simp

theorem standing_eq_iff {pre : List Param} {a : Addr}
    (h : ¬ ∃ b ∈ (listedAddrs c pre).getLast?, sameFamily b a = true) :
    standing c pre = a ↔ listedAddrs c pre = [] ∧ c.src = a := by
  unfold standing
  cases hlast : (listedAddrs c pre).getLast? with
  | none => exact (and_iff_right (List.getLast?_eq_none_iff.1 hlast)).symm
  | some b =>
    have hne : listedAddrs c pre ≠ [] := fun hnil => by
      rw [hnil] at hlast
      cases hlast
    have hfamily : ∀ w, ((pre.filterMap (copiedAddr c)).filter (sameFamily b)).getLast? = some w →
        sameFamily b w = true := fun w hw => (List.mem_filter.1 (List.mem_of_getLast? hw)).2
    have hself : sameFamily b b = true := by
      cases b <;> rfl
    refine iff_of_false (fun heq => h ⟨b, hlast, ?_⟩) fun hnil => hne hnil.1
    rw [← heq]
    dsimp only
    cases hw : ((pre.filterMap (copiedAddr c)).filter (sameFamily b)).getLast? with
    | none => exact hself
    | some w => exact hfamily w hw

/-- What is selected is what is named exactly where the parameter is read as meant. -/
theorem chosen_eq_named_iff {pre : List Param} {a : Addr} :
    (Plan.walk c d₀ pre).chosen c a = named c d₀ pre a ↔ ReadAsMeant c d₀ pre a := by
  unfold Plan.chosen named ReadAsMeant
  simp only [mem_walk_known]
  rcases (stands_walk pre).value_name a with ⟨hv, hb⟩ | ⟨hv, hb⟩
  · rw [hv]
    exact iff_of_true rfl (.inl hb)
  have hstanding := standing_eq_iff hb
  rw [hv, or_iff_right hb, ← hstanding]
  by_cases hs : standing c pre ∈ knownAddrs c d₀ pre
  · rw [if_pos hs]
    by_cases ha : a ∈ knownAddrs c d₀ pre
    · rw [if_pos ha, Option.some.injEq]
      exact ⟨.inl, fun h => h.elim id fun h => absurd ha h.1⟩
    · rw [if_neg ha]
      refine iff_of_false nofun fun h => ?_
      rcases h with h | h
      · exact ha (h ▸ hs)
      · exact h.2 hs
  · rw [if_neg hs]
    by_cases ha : a ∈ knownAddrs c d₀ pre
    · rw [if_pos ha]
      refine iff_of_false nofun fun h => ?_
      rcases h with h | h
      · exact hs (h ▸ ha)
      · exact h.1 ha
    · rw [if_neg ha]
      exact iff_of_true rfl (.inr ⟨ha, hs⟩)

/-- The destinations that are named are selected exactly where all parameters are read as meant. -/
theorem selected_iff {xs : List Param} (h : Follows c d₀ xs s) :
    s.selected = selections c (named c d₀) [] xs ↔
      ∀ pre x post, xs = pre ++ x :: post → ∀ a ∈ nameOf c x, ReadAsMeant c d₀ pre a := by
  rw [h.selected, selections_eq_iff]
  simp only [List.nil_append, chosen_eq_named_iff]

section

variable {q : Option Addr} {pre post : List Param} {a : Addr}

theorem adopt_eq (q : Option Addr) (a : Addr) :
    Plan.adopt c d₀ q a = if displaces c d₀ q a then some a else q := by
  cases q with
  | none => rfl
  | some p => rfl

theorem walk_nil_primary : (Plan.walk c d₀ []).primary = firstPrimary c d₀ := by
  change (Plan.start c d₀).primary = _
  unfold Plan.start firstPrimary Plan.add
  dsimp only
  rw [adopt_eq]
  split_ifs <;> simp_all

theorem listedAddr_eq_some : c.listedAddr x = some a ↔ c.heardAddr x = some a ∧ unicast a = true := by
  unfold LoadCall.listedAddr
  rw [Option.filter_eq_some_iff]

theorem nameOf_of_heard (h : c.heardAddr x = some a) : nameOf c x = none := by
  unfold nameOf
  rw [if_neg]
  intro hx
  rw [Load.heardAddr_of_type hx (by decide) (by decide)] at h
  cases h

theorem Plan.add_primary (s : Plan) (a : Addr) :
    (s.add c d₀ a).primary = if a ∈ s.known then s.primary else adopt c d₀ s.primary a := by
  unfold add
  split <;> rfl

theorem Plan.select_primary (s : Plan) (sa : Addr) :
    (s.select c d₀ sa).primary = if sa ∈ s.known ∧ confirmed c d₀ sa = true then some sa else s.primary := by
  unfold select
  split <;> rfl

/-- A listed address takes the place of the primary one if it is new. -/
theorem walk_listed_primary (h : c.listedAddr x = some a) :
    (Plan.walk c d₀ (pre ++ [x])).primary =
      if a ∈ knownAddrs c d₀ pre then (Plan.walk c d₀ pre).primary
      else Plan.adopt c d₀ (Plan.walk c d₀ pre).primary a := by
  obtain ⟨hheard, huni⟩ := listedAddr_eq_some.mp h
  rw [walk_append]
  unfold Plan.step
  rw [hheard]
  dsimp only
  rw [if_pos huni, Plan.add_primary]
  simp only [mem_walk_known]

/-- A parameter that lists no address and is read as meant makes the address primary that it elects. -/
theorem walk_unlisted_primary (h : c.listedAddr x = none) (hmeant : ∀ a ∈ nameOf c x, ReadAsMeant c d₀ pre a) :
    (Plan.walk c d₀ (pre ++ [x])).primary =
      if elects c d₀ pre x then nameOf c x else (Plan.walk c d₀ pre).primary := by
  rw [walk_append]
  unfold Plan.step
  cases hheard : c.heardAddr x with
  | some a =>
    have huni : ¬ unicast a = true := fun huni => by
      rw [listedAddr_eq_some.mpr ⟨hheard, huni⟩] at h
      cases h
    dsimp only
    rw [if_neg huni, elects, nameOf_of_heard hheard, Option.any_none, if_neg Bool.false_ne_true]
  | none =>
    dsimp only
    by_cases hx : x.type = setPrimAddr
    · have hname : nameOf c x = Load.lsa c x := if_pos hx
      rw [if_pos hx, ← hname]
      cases ha : nameOf c x with
      | none =>
        rw [elects, ha]
        rfl
      | some a =>
        have hchosen := chosen_eq_named_iff.mpr (hmeant a ha)
        unfold Plan.chosen named at hchosen
        rw [elects, ha, Option.any_some]
        dsimp only
        rw [Plan.select_primary]
        by_cases hknown : a ∈ knownAddrs c d₀ pre
        · rw [if_pos hknown] at hchosen
          split_ifs at hchosen with hvalue
          have heq := Option.some.inj hchosen
          rw [heq] at hvalue ⊢
          simp [hvalue, hknown]
        · rw [if_neg hknown] at hchosen
          split_ifs at hchosen with hvalue
          rw [if_neg fun hboth => hvalue hboth.1]
          simp [hknown]
    · rw [if_neg hx, elects, nameOf_of_ne hx, Option.any_none, if_neg Bool.false_ne_true]

/-- Some choice is the last one. -/
theorem exists_lastChoice (c : LoadCall) (d₀ : Dests) (xs : List Param) :
    ∃ q pre post, xs = pre ++ post ∧ LastChoice c d₀ q pre post := by
  induction xs using List.reverseRecOn with
  | nil => exact ⟨_, [], [], rfl, .inl ⟨rfl, rfl⟩, fun l x r h => absurd h (by simp)⟩
  | append_singleton xs x ih =>
    cases hx : elects c d₀ xs x with
    | true =>
      refine ⟨_, xs ++ [x], [], (List.append_nil _).symm, .inr ⟨xs, x, rfl, hx, rfl⟩, fun l y r h => ?_⟩
      exact absurd h (by simp)
    | false =>
      obtain ⟨q, pre, post, rfl, horigin, hlast⟩ := ih
      refine ⟨q, pre, post ++ [x], List.append_assoc .., horigin, fun l y r h => ?_⟩
      rcases List.eq_nil_or_concat r with rfl | ⟨r, z, rfl⟩
      · obtain ⟨rfl, hxy⟩ := List.append_inj' h rfl
        rw [← List.singleton_inj.mp hxy]
        exact hx
      · rw [List.concat_eq_append, ← List.cons_append, ← List.append_assoc] at h
        exact hlast l y r (List.append_inj' h rfl).1

theorem listedAddr_of_elects (h : elects c d₀ pre x = true) : c.listedAddr x = none := by
  cases hlisted : c.listedAddr x with
  | none => rfl
  | some a =>
    rw [elects, nameOf_of_heard (listedAddr_eq_some.mp hlisted).1] at h
    cases h

theorem replaced_append : Replaced c d₀ q pre (post ++ [x]) ↔
    Replaced c d₀ q pre post ∨ ∃ a ∈ c.listedAddr x, a ∉ knownAddrs c d₀ pre ∧ displaces c d₀ q a = true := by
  unfold Replaced
  rw [listedAddrs_append]
  simp only [List.mem_append, Option.mem_toList, Option.mem_def, or_and_right, exists_or]

theorem LastChoice.of_append (h : LastChoice c d₀ q pre (post ++ [x])) :
    LastChoice c d₀ q pre post ∧ elects c d₀ (pre ++ post) x = false := by
  refine ⟨⟨h.origin, fun l y r hpost => ?_⟩, h.last post x [] rfl⟩
  apply h.last l y (r ++ [x])
  rw [hpost, List.append_assoc, List.cons_append]

/-- After the last choice the primary address is the one chosen until an address listed then replaces it. -/
theorem walk_primary (h : LastChoice c d₀ q pre post)
    (hmeant : ∀ l x r, pre ++ post = l ++ x :: r → ∀ a ∈ nameOf c x, ReadAsMeant c d₀ l a) :
    (Replaced c d₀ q pre post ∧ ∃ p ∈ listedAddrs c post, (Plan.walk c d₀ (pre ++ post)).primary = some p) ∨
      (¬ Replaced c d₀ q pre post ∧ (Plan.walk c d₀ (pre ++ post)).primary = q) := by
  induction post using List.reverseRecOn with
  | nil =>
    right
    rw [List.append_nil]
    refine ⟨fun ⟨_, ha, _⟩ => absurd ha List.not_mem_nil, ?_⟩
    rcases h.origin with ⟨rfl, rfl⟩ | ⟨pre', x, rfl, hx, rfl⟩
    · exact walk_nil_primary
    · rw [walk_unlisted_primary (listedAddr_of_elects hx) (hmeant pre' x [] (by simp)), if_pos hx]
  | append_singleton post x ih =>
    obtain ⟨hbefore, hx⟩ := h.of_append
    have hstep := ih hbefore fun l y r hl => by
      apply hmeant l y (r ++ [x])
      rw [← List.append_assoc, hl, List.append_assoc, List.cons_append]
    rw [← List.append_assoc, replaced_append, listedAddrs_append]
    cases hlisted : c.listedAddr x with
    | none =>
      rw [walk_unlisted_primary hlisted (hmeant _ x [] (List.append_assoc ..).symm), hx,
        if_neg Bool.false_ne_true]
      simpa using hstep
    | some a =>
      have hknown : a ∈ knownAddrs c d₀ (pre ++ post) ↔ a ∈ knownAddrs c d₀ pre ∨ a ∈ listedAddrs c post := by
        unfold knownAddrs listedAddrs
        simp only [List.filterMap_append, List.mem_append, or_assoc]
      rw [walk_listed_primary hlisted, adopt_eq]
      rcases hstep with ⟨hreplaced, p, hp, hprimary⟩ | ⟨hnot, hprimary⟩
      · refine .inl ⟨.inl hreplaced, ?_⟩
        rw [hprimary]
        split_ifs
        · exact ⟨p, List.mem_append_left _ hp, rfl⟩
        · exact ⟨a, List.mem_append_right _ List.mem_cons_self, rfl⟩
        · exact ⟨p, List.mem_append_left _ hp, rfl⟩
      · rw [hprimary]
        by_cases ha : a ∈ knownAddrs c d₀ (pre ++ post)
        · rw [if_pos ha]
          refine .inr ⟨fun hboth => ?_, rfl⟩
          rcases hboth with hreplaced | ⟨b, hb, hnew, hdisplaces⟩
          · exact hnot hreplaced
          · obtain rfl := Option.some.inj hb
            exact hnot ⟨a, (hknown.mp ha).resolve_left hnew, hnew, hdisplaces⟩
        · rw [if_neg ha]
          cases hdisplaces : displaces c d₀ q a with
          | true =>
            rw [if_pos rfl]
            refine .inl ⟨.inr ⟨a, rfl, fun hpre => ha (hknown.mpr (.inl hpre)), hdisplaces⟩, a, ?_, rfl⟩
            exact List.mem_append_right _ List.mem_cons_self
          | false =>
            rw [if_neg Bool.false_ne_true]
            refine .inr ⟨fun hboth => ?_, rfl⟩
            rcases hboth with hreplaced | ⟨b, hb, -, hb'⟩
            · exact hnot hreplaced
            · obtain rfl := Option.some.inj hb
              rw [hdisplaces] at hb'
              cases hb'

/-- The primary destination of the walk, by the choices in the list. -/
theorem primaryLasts_iff
    (hmeant : ∀ pre x post, c.listed = pre ++ x :: post → ∀ a ∈ nameOf c x, ReadAsMeant c d₀ pre a) :
    (∃ p ∈ (Plan.walk c d₀ c.listed).primary, p ∈ keptAddrs c d₀ c.listed ∨
      ∃ a ∈ keptAddrs c d₀ c.listed, confirmed c d₀ a = true ∧ c.reachable a = true) ↔ PrimaryLasts c d₀ := by
  have hkept : ∀ {pre post a}, c.listed = pre ++ post → a ∈ listedAddrs c post → a ∈ keptAddrs c d₀ c.listed := by
    intro pre post a hsplit ha
    have hmem : a ∈ listedAddrs c c.listed := by
      unfold listedAddrs at ha ⊢
      rw [hsplit, List.filterMap_append]
      exact List.mem_append_right _ ha
    unfold keptAddrs
    split
    · exact List.mem_cons_of_mem _ hmem
    · exact hmem
  constructor
  · intro hwalk
    obtain ⟨q, pre, post, hsplit, hlast⟩ := exists_lastChoice c d₀ c.listed
    refine ⟨q, pre, post, hsplit, hlast, ?_⟩
    rcases walk_primary hlast (hsplit ▸ hmeant) with ⟨hreplaced, -⟩ | ⟨-, hprimary⟩
    · exact .inl hreplaced
    · rw [← hsplit] at hprimary
      rw [hprimary] at hwalk
      exact .inr hwalk
  · rintro ⟨q, pre, post, hsplit, hlast, hwalk⟩
    rcases walk_primary hlast (hsplit ▸ hmeant) with ⟨-, p, hp, hprimary⟩ | ⟨hnot, hprimary⟩
    · rw [← hsplit] at hprimary
      exact ⟨p, hprimary, .inl (hkept hsplit hp)⟩
    · rw [← hsplit] at hprimary
      rw [hprimary]
      exact hwalk.resolve_left hnot

end

/-- An IPv4 address, and that it should be the primary one. -/
def restartParams : Bytes :=
  [0, 5, 0, 8, 10, 0, 0, 2, 0xc0, 0x04, 0, 16, 0, 0, 0, 0, 0, 5, 0, 8, 10, 0, 0, 2]

/-- An association whose primary destination is not listed again. -/
def restartedDests : Dests where
  nets := [⟨0, .v4 0x0a000009, true, false, false, false, false, false, some 0⟩,
    ⟨1, .v4 0x0a000001, true, false, false, false, false, false, some 0⟩]
  numnets := 2
  primary := some 0
  alternate := none
  lastDataChunkFrom := none
  lastControlChunkFrom := none
  fresh := 2

theorem restartedDests_linked : restartedDests.Linked := by
  constructor <;> decide +kernel

def asconfFeatures : Features := ⟨false, false, true, true, false, false, false, false⟩

/-- A splitting of a list is one at a place of it. -/
theorem forall_split {α : Type*} {P : List α → α → Prop} {xs : List α}
    (h : ∀ i, ∀ hi : i < xs.length, P (xs.take i) xs[i]) {pre post : List α} {x : α}
    (hsplit : xs = pre ++ x :: post) : P pre x := by
  subst hsplit
  have hplace := h pre.length (by rw [List.length_append, List.length_cons]; omega)
  rw [List.take_left, List.getElem_append_right (le_refl _)] at hplace
  simpa only [Nat.sub_self, List.getElem_cons_zero] using hplace

/-- An IPv4 address, an IPv6 address, and that the first should be the primary one. -/
def mixedParams : Bytes :=
  [0, 5, 0, 8, 10, 0, 0, 2, 0, 6, 0, 20, 0x20, 1, 0, 0, 0, 0, 0, 0, 0, 0, 0, 0, 0, 0, 0, 1,
    0xc0, 0x04, 0, 16, 0, 0, 0, 0, 0, 5, 0, 8, 10, 0, 0, 2]

end Sctp.Nets