import Mathlib.Data.List.Nodup
import Mathlib.Data.List.Chain
import Mathlib.Data.List.TakeWhile
import Mathlib.Logic.Function.Iterate

/-! Walking round a list by successors, as code with intrusive list links does. -/
namespace Ring

variable {α : Type*} [DecidableEq α]

/-- What stands behind the first `x`; nothing when `x` is not linked in. -/
def behind (x : α) (l : List α) : List α := (l.dropWhile (· ≠ x)).tail

/-- What stands before the first `x`. -/
def before (x : α) (l : List α) : List α := l.takeWhile (· ≠ x)

def next (x : α) (l : List α) : Option α := (behind x l).head?

def prev (x : α) (l : List α) : Option α := (before x l).getLast?

theorem behind_append {x : α} {pre post : List α} (hx : x ∉ pre) :
    behind x (pre ++ x :: post) = post := by
  induction pre with
  | nil => simp [behind]
  | cons y pre ih =>
    have hyx : y ≠ x := (List.ne_of_not_mem_cons hx).symm
    have hpre := ih (List.not_mem_of_not_mem_cons hx)
    simpa [behind, hyx] using hpre

theorem before_append {x : α} {pre post : List α} (hx : x ∉ pre) :
    before x (pre ++ x :: post) = pre := by
  induction pre with
  | nil => simp [before]
  | cons y pre ih =>
    have hyx : y ≠ x := (List.ne_of_not_mem_cons hx).symm
    have hpre := ih (List.not_mem_of_not_mem_cons hx)
    simpa [before, hyx] using hpre

theorem behind_suffix (x : α) (l : List α) : behind x l <:+ l :=
  (List.tail_suffix _).trans (List.dropWhile_suffix _)

theorem mem_of_mem_behind {x y : α} {l : List α} (h : y ∈ behind x l) : y ∈ l :=
  (behind_suffix x l).subset h

theorem mem_of_prev {x y : α} {l : List α} (h : prev x l = some y) : y ∈ l :=
  (List.takeWhile_sublist _).subset (List.mem_of_getLast? h)

theorem next_append {x : α} {pre post : List α} (hx : x ∉ pre) :
    next x (pre ++ x :: post) = post.head? := by
  rw [next, behind_append hx]

/-- The successor of `t` where the two are joined, otherwise the first element. -/
def around (joined : α → α → Bool) (l : List α) : Option α → Option α
  | none => l.head?
  | some t =>
    match next t l with
    | none => l.head?
    | some n => if joined t n then some n else l.head?

theorem around_mem {joined : α → α → Bool} {l : List α} {t : Option α} {x : α}
    (h : around joined l t = some x) : x ∈ l := by
  have hhead : l.head? = some x → x ∈ l := List.mem_of_head?
  cases t with
  | none => exact hhead h
  | some t =>
    simp only [around] at h
    split at h
    · exact hhead h
    · rename_i n hn
      split at h
      · have hnx : n = x := Option.some.inj h
        exact hnx ▸ mem_of_mem_behind (List.mem_of_head? hn)
      · exact hhead h

theorem around_eq_none {joined : α → α → Bool} {l : List α} {t : Option α}
    (h : around joined l t = none) : l = [] := by
  cases t with
  | none => exact List.head?_eq_none_iff.1 h
  | some t =>
    simp only [around] at h
    split at h
    · exact List.head?_eq_none_iff.1 h
    · split at h
      · cases h
      · exact List.head?_eq_none_iff.1 h

/-- Step on until an element is `ok`. Gives up where the step finds nothing or comes to `stop`;
`none` is a walk still going after `fuel` steps. -/
def scan (step : Option α → Option α) (ok : α → Bool) (stop : Option α) :
    ℕ → Option α → Option (Option α)
  | 0, _ => none
  | fuel + 1, t =>
    match step t with
    | none => some none
    | some x =>
      if ok x then some (some x)
      else if some x = stop then some none
      else scan step ok stop fuel (some x)

/-- A scan that takes everything stops at the first step. -/
theorem scan_of_forall {step : Option α → Option α} {ok : α → Bool} {stop : Option α}
    (hok : ∀ x, ok x = true) (fuel : ℕ) (t : Option α) :
    scan step ok stop (fuel + 1) t = some (step t) := by
  rw [scan]
  cases step t with
  | none => rfl
  | some x => simp only [hok, if_true]

theorem scan_eq_some {step : Option α → Option α} {ok : α → Bool} {stop : Option α} {x : α} :
    ∀ {fuel : ℕ} {t : Option α}, scan step ok stop fuel t = some (some x) →
      ok x ∧ ∃ u, step u = some x
  | fuel + 1, t, h => by
    simp only [scan] at h
    split at h
    · cases h
    · rename_i y hy
      split at h
      · rename_i hok
        have hyx : y = x := Option.some.inj (Option.some.inj h)
        exact hyx ▸ ⟨hok, t, hy⟩
      · split at h
        · cases h
        · exact scan_eq_some h

/-- A walk that gives up has come to an end of the steps, or the elements that it saw are closed
under steps up to `stop`. -/
theorem scan_eq_none {step : Option α → Option α} {ok : α → Bool} {stop : Option α} :
    ∀ {fuel : ℕ} {t : Option α}, scan step ok stop fuel t = some none →
      (∃ u, step u = none) ∨
        ∃ seen : List α, (∀ x ∈ seen, ok x = false) ∧ (∃ x ∈ seen, step t = some x) ∧
          ∀ x ∈ seen, some x = stop ∨ ∃ y ∈ seen, step (some x) = some y
  | fuel + 1, t, h => by
    simp only [scan] at h
    split at h
    · rename_i hnone
      exact .inl ⟨t, hnone⟩
    · rename_i x hx
      split at h
      · cases h
      · rename_i hok
        have hok : ok x = false := by simpa using hok
        split at h
        · rename_i hstop
          refine .inr ⟨[x], ?_, ⟨x, List.mem_singleton_self x, hx⟩, ?_⟩
          · intro y hy
            exact List.mem_singleton.1 hy ▸ hok
          · intro y hy
            exact .inl (List.mem_singleton.1 hy ▸ hstop)
        · obtain hend | ⟨seen, hnot, ⟨y, hy, hxy⟩, hclosed⟩ := scan_eq_none h
          · exact .inl hend
          · refine .inr ⟨x :: seen, ?_, ⟨x, List.mem_cons_self, hx⟩, ?_⟩
            · intro z hz
              obtain rfl | hz := List.mem_cons.1 hz
              · exact hok
              · exact hnot z hz
            · intro z hz
              obtain rfl | hz := List.mem_cons.1 hz
              · exact .inr ⟨y, List.mem_cons_of_mem _ hy, hxy⟩
              · obtain hz | ⟨w, hw, hzw⟩ := hclosed z hz
                · exact .inl hz
                · exact .inr ⟨w, List.mem_cons_of_mem _ hw, hzw⟩

section Closed

variable {joined : α → α → Bool} {l seen : List α}

theorem around_append {x : α} {pre post : List α} (hl : l = pre ++ x :: post) (hnd : l.Nodup) :
    around joined l (some x) =
      match post.head? with
      | none => l.head?
      | some n => if joined x n then some n else l.head? := by
  have hx : x ∉ pre := by
    intro h
    rw [hl] at hnd
    exact (List.nodup_append.1 hnd).2.2 x h x List.mem_cons_self rfl
  rw [around, show next x l = post.head? by rw [hl]; exact next_append hx]

/-- Elements closed under `around` hold the first one: every walk comes round to it. -/
theorem head_mem_of_closed (hnd : l.Nodup)
    (hclosed : ∀ x ∈ seen, ∃ y ∈ seen, around joined l (some x) = some y) {x : α} {post : List α}
    (pre : List α) (hx : x ∈ seen) (hl : l = pre ++ x :: post) : ∃ y ∈ seen, l.head? = some y := by
  induction post generalizing x pre with
  | nil =>
    obtain ⟨y, hy, hstep⟩ := hclosed x hx
    rw [around_append hl hnd] at hstep
    exact ⟨y, hy, hstep⟩
  | cons n post ih =>
    obtain ⟨y, hy, hstep⟩ := hclosed x hx
    rw [around_append hl hnd] at hstep
    simp only [List.head?_cons] at hstep
    split at hstep
    · have hny : n = y := Option.some.inj hstep
      exact ih (pre ++ [x]) (hny ▸ hy) (by simpa using hl)
    · exact ⟨y, hy, hstep⟩

/-- Elements closed under `around` hold whatever is joined to the first one. -/
theorem mem_of_closed (hnd : l.Nodup)
    (hclosed : ∀ x ∈ seen, ∃ y ∈ seen, around joined l (some x) = some y)
    (hstart : ∃ t ∈ seen, t ∈ l) {y : α} {pre post : List α} (hl : l = pre ++ y :: post)
    (hchain : (pre ++ [y]).IsChain fun a b => joined a b) : y ∈ seen := by
  induction pre using List.reverseRecOn generalizing y post with
  | nil =>
    obtain ⟨t, ht, htl⟩ := hstart
    obtain ⟨p, q, hpq⟩ := List.append_of_mem htl
    obtain ⟨z, hz, hhead⟩ := head_mem_of_closed hnd hclosed p ht hpq
    rw [hl] at hhead
    have hyz : y = z := Option.some.inj hhead
    exact hyz ▸ hz
  | append_singleton pre w ih =>
    have hl : l = pre ++ w :: y :: post := by simpa using hl
    have hinit : (pre ++ [w]).IsChain fun a b => joined a b := hchain.left_of_append
    have hjoined : joined w y := by
      have hlast : ([w] ++ [y]).IsChain fun a b => joined a b := by
        rw [List.append_assoc] at hchain
        exact hchain.right_of_append
      simpa using hlast
    obtain ⟨z, hz, hstep⟩ := hclosed w (ih hl hinit)
    rw [around_append hl hnd] at hstep
    simp only [List.head?_cons, hjoined, if_true] at hstep
    have hyz : y = z := Option.some.inj hstep
    exact hyz ▸ hz

/-- A walk round the list that gives up found nothing among what is joined to the first element. -/
theorem scan_around_eq_none {ok : α → Bool} {stop : Option α} {fuel : ℕ} (hnd : l.Nodup)
    (h : scan (around joined l) ok stop fuel stop = some none) {y : α} {pre post : List α}
    (hl : l = pre ++ y :: post) (hchain : (pre ++ [y]).IsChain fun a b => joined a b) :
    ok y = false := by
  obtain ⟨u, hu⟩ | ⟨seen, hnot, ⟨x, hx, hstart⟩, hclosed⟩ := scan_eq_none h
  · have : l = [] := around_eq_none hu
    simp [this] at hl
  · refine hnot y (mem_of_closed hnd (fun z hz => ?_) ⟨x, hx, around_mem hstart⟩ hl hchain)
    obtain hz | hz := hclosed z hz
    · exact ⟨x, hx, hz ▸ hstart⟩
    · exact hz

end Closed

section Walk

variable {joined : α → α → Bool} {l : List α}

/-- The elements at the front of `l` that are joined in a row to `x`. -/
def linked (joined : α → α → Bool) : α → List α → List α
  | _, [] => []
  | x, y :: l => if joined x y then y :: linked joined y l else []

/-- The first element and what is joined in a row to it: a walk that comes here stays here. -/
def lead (joined : α → α → Bool) : List α → List α
  | [] => []
  | x :: l => x :: linked joined x l

/-- What a walk that starts behind `t` comes to. -/
def walk (joined : α → α → Bool) (l : List α) : Option α → List α
  | none => lead joined l
  | some t => linked joined t (behind t l) ++ lead joined l

theorem behind_of_notMem {t : α} (ht : t ∉ l) : behind t l = [] := by
  have hall : l.dropWhile (· ≠ t) = [] := by
    rw [List.dropWhile_eq_nil_iff]
    intro y hy
    have hyt : y ≠ t := ne_of_mem_of_not_mem hy ht
    simpa using hyt
  rw [behind, hall, List.tail_nil]

theorem exists_behind {t : α} (hnd : l.Nodup) (ht : t ∈ l) :
    ∃ p, l = p ++ t :: behind t l ∧ t ∉ p := by
  obtain ⟨p, q, hpq⟩ := List.append_of_mem ht
  have htp : t ∉ p := by
    intro htp
    rw [hpq] at hnd
    exact (List.nodup_append.1 hnd).2.2 t htp t List.mem_cons_self rfl
  have hbehind : behind t l = q := by rw [hpq, behind_append htp]
  exact ⟨p, hbehind ▸ hpq, htp⟩

theorem notMem_behind {t : α} (hnd : l.Nodup) : t ∉ behind t l := by
  intro h
  obtain ⟨p, hp, -⟩ := exists_behind hnd (mem_of_mem_behind h)
  rw [hp] at hnd
  exact (List.nodup_cons.1 (List.nodup_append.1 hnd).2.1).1 h

omit [DecidableEq α] in
theorem linked_true (x : α) (l : List α) : linked (fun _ _ => true) x l = l := by
  induction l generalizing x with
  | nil => rfl
  | cons y l ih => simp only [linked, if_true, ih y]

omit [DecidableEq α] in
theorem lead_true (l : List α) : lead (fun _ _ => true) l = l := by
  cases l with
  | nil => rfl
  | cons x l => rw [lead, linked_true]

omit [DecidableEq α] in
theorem head?_lead (joined : α → α → Bool) (l : List α) : (lead joined l).head? = l.head? := by
  cases l <;> rfl

omit [DecidableEq α] in
theorem linked_subset (x : α) (l : List α) : linked joined x l ⊆ l := by
  induction l generalizing x with
  | nil => exact List.Subset.refl []
  | cons y l ih =>
    rw [linked]
    split
    · exact List.cons_subset_cons y (ih y)
    · exact List.nil_subset _

omit [DecidableEq α] in
/-- Behind an element of the row, the row goes on as it would from there. -/
theorem exists_of_mem_linked {x y : α} {post : List α} (pre : List α) (hl : l = pre ++ x :: post)
    (hy : y ∈ linked joined x post) :
    ∃ p q, l = p ++ y :: q ∧ linked joined y q ⊆ linked joined x post := by
  induction post generalizing x pre with
  | nil => cases hy
  | cons z post ih =>
    rw [linked] at hy ⊢
    split at hy
    · rename_i hjoined
      rw [if_pos hjoined]
      have hl' : l = (pre ++ [x]) ++ z :: post := by simpa using hl
      obtain rfl | hy := List.mem_cons.1 hy
      · exact ⟨pre ++ [x], post, hl', List.subset_cons_self _ _⟩
      · obtain ⟨p, q, hpq, hsub⟩ := ih (pre ++ [x]) hl' hy
        exact ⟨p, q, hpq, List.Subset.trans hsub (List.subset_cons_self _ _)⟩
    · cases hy

/-- A step goes on in the row or back to the first element. -/
theorem around_mem_linked {x y : α} {pre post : List α} (hl : l = pre ++ x :: post)
    (hnd : l.Nodup) (h : around joined l (some x) = some y) :
    y ∈ linked joined x post ∨ y ∈ lead joined l := by
  have hfirst : l.head? = some y → y ∈ lead joined l := by
    intro hy
    rw [← head?_lead joined] at hy
    exact List.mem_of_head? hy
  rw [around_append hl hnd] at h
  cases post with
  | nil => exact .inr (hfirst h)
  | cons n post =>
    simp only [List.head?_cons] at h
    split at h
    · rename_i hjoined
      have hny : n = y := Option.some.inj h
      refine .inl ?_
      rw [linked, if_pos hjoined, hny]
      exact List.mem_cons_self
    · exact .inr (hfirst h)

omit [DecidableEq α] in
theorem exists_of_mem_lead {x : α} (hx : x ∈ lead joined l) :
    ∃ p q, l = p ++ x :: q ∧ linked joined x q ⊆ lead joined l := by
  cases l with
  | nil => cases hx
  | cons a l =>
    obtain rfl | hx := List.mem_cons.1 hx
    · exact ⟨[], l, rfl, List.subset_cons_self _ _⟩
    · obtain ⟨p, q, hpq, hsub⟩ := exists_of_mem_linked [] (rfl : a :: l = [] ++ a :: l) hx
      exact ⟨p, q, hpq, List.Subset.trans hsub (List.subset_cons_self _ _)⟩

theorem exists_of_mem_walk {t : Option α} (hnd : l.Nodup) {x : α} (hx : x ∈ walk joined l t) :
    ∃ p q, l = p ++ x :: q ∧ linked joined x q ⊆ walk joined l t := by
  cases t with
  | none => exact exists_of_mem_lead hx
  | some t =>
    obtain hx | hx := List.mem_append.1 hx
    · have ht : t ∈ l := by
        by_contra ht
        rw [behind_of_notMem ht] at hx
        cases hx
      obtain ⟨p, hp, -⟩ := exists_behind hnd ht
      obtain ⟨p', q', hpq, hsub⟩ := exists_of_mem_linked p hp hx
      exact ⟨p', q', hpq, fun y hy => List.mem_append_left _ (hsub hy)⟩
    · obtain ⟨p, q, hpq, hsub⟩ := exists_of_mem_lead hx
      exact ⟨p, q, hpq, fun y hy => List.mem_append_right _ (hsub hy)⟩

theorem lead_subset_walk (t : Option α) : lead joined l ⊆ walk joined l t := by
  cases t with
  | none => exact List.Subset.refl _
  | some t => exact List.subset_append_right _ _

/-- A walk stays among what it comes to. -/
theorem around_mem_walk {t : Option α} (hnd : l.Nodup) {x y : α} (hx : x ∈ walk joined l t)
    (h : around joined l (some x) = some y) : y ∈ walk joined l t := by
  obtain ⟨p, q, hpq, hsub⟩ := exists_of_mem_walk hnd hx
  obtain hy | hy := around_mem_linked hpq hnd h
  · exact hsub hy
  · exact lead_subset_walk t hy

theorem around_mem_walk_start {t : Option α} (hnd : l.Nodup) {y : α}
    (h : around joined l t = some y) : y ∈ walk joined l t := by
  have hfirst : l.head? = some y → y ∈ walk joined l t := by
    intro hy
    rw [← head?_lead joined] at hy
    exact lead_subset_walk t (List.mem_of_head? hy)
  cases t with
  | none => exact hfirst h
  | some t =>
    by_cases ht : t ∈ l
    · obtain ⟨p, hp, -⟩ := exists_behind hnd ht
      obtain hy | hy := around_mem_linked hp hnd h
      · exact List.mem_append_left _ hy
      · exact List.mem_append_right _ hy
    · rw [around, next, behind_of_notMem ht, List.head?_nil] at h
      exact hfirst h

/-- The walk that `linked` describes, with whatever follows it. -/
theorem linked_isChain (hnd : l.Nodup) {x : α} {post : List α} (pre tail : List α)
    (hl : l = pre ++ x :: post) (hhead : ∀ y ∈ tail.head?, l.head? = some y)
    (htail : (tail.map some).IsChain fun a b => around joined l a = b) :
    (some x :: (linked joined x post ++ tail).map some).IsChain fun a b => around joined l a = b := by
  induction post generalizing x pre with
  | nil =>
    refine List.isChain_cons.2 ⟨fun y hy => ?_, htail⟩
    rw [around_append hl hnd]
    cases tail with
    | nil => cases hy
    | cons z tail =>
      have hzy : some z = y := Option.some.inj hy
      exact hzy ▸ hhead z rfl
  | cons n post ih =>
    have hl' : l = (pre ++ [x]) ++ n :: post := by simpa using hl
    rw [linked]
    split
    · rename_i hjoined
      refine List.isChain_cons.2 ⟨fun y hy => ?_, ih (pre ++ [x]) hl'⟩
      have hny : some n = y := Option.some.inj hy
      rw [around_append hl hnd, List.head?_cons, ← hny]
      exact if_pos hjoined
    · rename_i hjoined
      refine List.isChain_cons.2 ⟨fun y hy => ?_, htail⟩
      rw [around_append hl hnd, List.head?_cons]
      cases tail with
      | nil => cases hy
      | cons z tail =>
        have hzy : some z = y := Option.some.inj hy
        exact (if_neg hjoined).trans (hzy ▸ hhead z rfl)

theorem walk_isChain (hnd : l.Nodup) (t : Option α) :
    (t :: (walk joined l t).map some).IsChain fun a b => around joined l a = b := by
  have hlead : ((lead joined l).map some).IsChain fun a b => around joined l a = b := by
    cases l with
    | nil => exact List.isChain_nil
    | cons x l =>
      have hrow : (some x :: (linked joined x l ++ []).map some).IsChain fun a b =>
          around joined (x :: l) a = b := linked_isChain hnd [] [] rfl nofun List.isChain_nil
      rw [List.append_nil] at hrow
      exact hrow
  have hhead : ∀ y ∈ (lead joined l).head?, l.head? = some y := fun y hy => by
    rw [← head?_lead joined]
    exact hy
  have hstart (h : around joined l t = l.head?) :
      (t :: (lead joined l).map some).IsChain fun a b => around joined l a = b := by
    refine List.isChain_cons.2 ⟨fun y hy => ?_, hlead⟩
    obtain ⟨z, hz, rfl⟩ : ∃ z, (lead joined l).head? = some z ∧ some z = y := by
      simpa using hy
    rw [h, hhead z hz]
  cases t with
  | none => exact hstart rfl
  | some t =>
    by_cases ht : t ∈ l
    · obtain ⟨p, hp, -⟩ := exists_behind hnd ht
      exact linked_isChain hnd p (lead joined l) hp hhead hlead
    · have hbehind : behind t l = [] := behind_of_notMem ht
      rw [walk, hbehind]
      refine hstart ?_
      rw [around, next, hbehind, List.head?_nil]

/-- A walk returns that comes to what it looks for, or to where it stops. -/
theorem scan_isSome_of_isChain {step : Option α → Option α} {ok : α → Bool} {stop : Option α}
    {path : List α} {t : Option α} (hpath : (t :: path.map some).IsChain fun a b => step a = b)
    (hend : ∃ x ∈ path, ok x = true ∨ some x = stop) :
    (scan step ok stop path.length t).isSome := by
  induction path generalizing t with
  | nil =>
    obtain ⟨x, hx, -⟩ := hend
    cases hx
  | cons y path ih =>
    rw [List.map_cons, List.isChain_cons_cons] at hpath
    simp only [List.length_cons, scan, hpath.1]
    split
    · rfl
    · rename_i hok
      split
      · rfl
      · rename_i hstop
        refine ih hpath.2 ?_
        obtain ⟨x, hx, hxend⟩ := hend
        obtain rfl | hx := List.mem_cons.1 hx
        · exact absurd hxend (not_or.2 ⟨hok, hstop⟩)
        · exact ⟨x, hx, hxend⟩

/-- A walk that returns has come to an end of the steps, to what it looks for, or to where it
stops. -/
theorem exists_of_scan_eq_some {step : Option α → Option α} {ok : α → Bool} {stop : Option α}
    {seen : List α} (hseen : ∀ x ∈ seen, ∀ y, step (some x) = some y → y ∈ seen) {fuel : ℕ}
    {t : Option α} {r : Option α} (ht : ∀ y, step t = some y → y ∈ seen)
    (h : scan step ok stop fuel t = some r) :
    (∃ u, step u = none) ∨ ∃ x ∈ seen, ok x = true ∨ some x = stop := by
  induction fuel generalizing t with
  | zero => cases h
  | succ fuel ih =>
    simp only [scan] at h
    split at h
    · rename_i hnone
      exact .inl ⟨t, hnone⟩
    · rename_i x hx
      have hmem : x ∈ seen := ht x hx
      split at h
      · rename_i hok
        exact .inr ⟨x, hmem, .inl hok⟩
      · split at h
        · rename_i hstop
          exact .inr ⟨x, hmem, .inr hstop⟩
        · exact ih (hseen x hmem) h

/-- A walk round the list returns where there is nothing to walk, where it comes back to its start,
or where it comes to what it looks for. -/
theorem scan_around_isSome_iff (joined : α → α → Bool) (ok : α → Bool) (t : Option α)
    (hnd : l.Nodup) :
    (∃ fuel, (scan (around joined l) ok t fuel t).isSome) ↔
      l = [] ∨ (∃ x ∈ t, x ∈ lead joined l) ∨ ∃ x ∈ walk joined l t, ok x = true := by
  constructor
  · rintro ⟨fuel, h⟩
    obtain ⟨r, hr⟩ := Option.isSome_iff_exists.1 h
    obtain ⟨u, hu⟩ | ⟨x, hx, hok | hstop⟩ :=
      exists_of_scan_eq_some (fun x hx y hy => around_mem_walk hnd hx hy)
        (fun y hy => around_mem_walk_start hnd hy) hr
    · exact .inl (around_eq_none hu)
    · exact .inr (.inr ⟨x, hx, hok⟩)
    · refine .inr (.inl ⟨x, hstop.symm, ?_⟩)
      rw [← hstop] at hx
      obtain hx | hx := List.mem_append.1 hx
      · exact absurd (linked_subset x _ hx) (notMem_behind hnd)
      · exact hx
  · rintro (rfl | ⟨x, hxt, hx⟩ | ⟨x, hx, hok⟩)
    · refine ⟨1, ?_⟩
      have hnone : around joined [] t = none := by
        cases t <;> rfl
      simp [scan, hnone]
    · refine ⟨(walk joined l t).length, scan_isSome_of_isChain (walk_isChain hnd t) ?_⟩
      exact ⟨x, lead_subset_walk t hx, .inr hxt.symm⟩
    · refine ⟨(walk joined l t).length, scan_isSome_of_isChain (walk_isChain hnd t) ?_⟩
      exact ⟨x, hx, .inl hok⟩

end Walk

section Lap

variable {l : List α}

/-- A step along the list, with a null pointer between its end and its beginning. -/
def lap (l : List α) : Option α → Option α
  | some t => next t l
  | none => l.head?

theorem lap_mem {t : Option α} {x : α} (h : lap l t = some x) : x ∈ l := by
  cases t with
  | none => exact List.mem_of_head? h
  | some t => exact mem_of_mem_behind (List.mem_of_head? h)

theorem lap_append {x : α} {pre post : List α} (hl : l = pre ++ x :: post) (hnd : l.Nodup) :
    lap l (some x) = post.head? := by
  have hx : x ∉ pre := by
    intro h
    rw [hl] at hnd
    exact (List.nodup_append.1 hnd).2.2 x h x List.mem_cons_self rfl
  rw [lap, hl, next_append hx]

theorem iterate_lap_none (hnd : l.Nodup) {y : α} {pre post : List α} (hl : l = pre ++ y :: post) :
    (lap l)^[pre.length + 1] none = some y := by
  induction pre using List.reverseRecOn generalizing y post with
  | nil => simp [lap, hl]
  | append_singleton pre w ih =>
    have hl' : l = pre ++ w :: y :: post := by simpa using hl
    rw [List.length_append, List.length_singleton, Function.iterate_succ_apply', ih hl',
      lap_append hl' hnd, List.head?_cons]

theorem exists_iterate_lap_eq_none (hnd : l.Nodup) {x : α} {post : List α} (pre : List α)
    (hl : l = pre ++ x :: post) : ∃ n, (lap l)^[n + 1] (some x) = none := by
  induction post generalizing x pre with
  | nil => exact ⟨0, lap_append hl hnd⟩
  | cons z post ih =>
    have hl' : l = (pre ++ [x]) ++ z :: post := by simpa using hl
    obtain ⟨n, hn⟩ := ih (pre ++ [x]) hl'
    refine ⟨n + 1, ?_⟩
    rw [Function.iterate_succ_apply, lap_append hl hnd, List.head?_cons, hn]

/-- Every place of the list is come to from every other one, and from itself. -/
theorem exists_iterate_lap (hnd : l.Nodup) {t u : Option α} (ht : ∀ x ∈ t, x ∈ l)
    (hu : ∀ x ∈ u, x ∈ l) : ∃ n, (lap l)^[n + 1] t = u := by
  have hsome (x : α) (hx : x ∈ l) : ∃ n, (lap l)^[n + 1] (some x) = none := by
    obtain ⟨p, q, hpq⟩ := List.append_of_mem hx
    exact exists_iterate_lap_eq_none hnd p hpq
  have hnone : ∃ n, (lap l)^[n + 1] t = none := by
    cases t with
    | some x => exact hsome x (ht x rfl)
    | none =>
      cases hhead : l.head? with
      | none => exact ⟨0, hhead⟩
      | some x =>
        obtain ⟨n, hn⟩ := hsome x (List.mem_of_head? hhead)
        refine ⟨n + 1, ?_⟩
        rw [Function.iterate_succ_apply, lap, hhead, hn]
  cases u with
  | none => exact hnone
  | some y =>
    obtain ⟨n, hn⟩ := hnone
    obtain ⟨p, q, hpq⟩ := List.append_of_mem (hu y rfl)
    refine ⟨p.length + 1 + n, ?_⟩
    rw [Nat.add_assoc, Function.iterate_add_apply, hn, iterate_lap_none hnd hpq]

end Lap

section Rotate

variable {σ : Type*} {l : List α}

/-- How a rotation through the list ends. -/
inductive Rotated (α : Type*) where
  | found (a : α)
  /-- The end of the list came a second time. -/
  | over
  /-- There is no list to go through. -/
  | empty

/-- The element to look at behind `m`, or the end of the rotation. The end of the list is passed
once. -/
def turn (l : List α) (m : α) (once : Bool) : Rotated α ⊕ α × Bool :=
  match next m l with
  | some a => .inr (a, once)
  | none =>
    if once then .inl .over
    else
      match l.head? with
      | none => .inl .empty
      | some a => .inr (a, true)

/-- Go on behind `m` to the first element that is `ok`; each one on the way is visited. Nothing comes
back where the fuel runs out. -/
def rotate (l : List α) (visit : σ → α → σ) (ok : α → Bool) :
    ℕ → σ → α → Bool → Option (Rotated α × σ)
  | 0, _, _, _ => none
  | fuel + 1, s, m, once =>
    match turn l m once with
    | .inl e => some (e, s)
    | .inr (a, once) =>
      if ok a then some (.found a, visit s a) else rotate l visit ok fuel (visit s a) a once

def Rotated.ofOption : Option α → Rotated α
  | some a => .found a
  | none => .over

variable {visit : σ → α → σ} {ok : α → Bool}

/-- More fuel changes nothing. -/
theorem rotate_succ {fuel : ℕ} {s : σ} {m : α} {once : Bool} {r : Rotated α × σ}
    (h : rotate l visit ok fuel s m once = some r) :
    rotate l visit ok (fuel + 1) s m once = some r := by
  induction fuel generalizing s m once with
  | zero => cases h
  | succ fuel ih =>
    rw [rotate] at h ⊢
    split at h
    · exact h
    · split at h
      · rename_i hok
        rw [if_pos hok]
        exact h
      · rename_i hok
        rw [if_neg hok]
        exact ih h

theorem rotate_of_le {fuel fuel' : ℕ} (hle : fuel ≤ fuel') {s : σ} {m : α} {once : Bool}
    {r : Rotated α × σ} (h : rotate l visit ok fuel s m once = some r) :
    rotate l visit ok fuel' s m once = some r := by
  induction hle with
  | refl => exact h
  | step _ ih => exact rotate_succ ih

theorem exists_rotate_of_turn {m a : α} {once once' : Bool} {rest : List α}
    (hturn : turn l m once = .inr (a, once'))
    (h : ∀ s, ∃ fuel s', rotate l visit ok fuel s a once' =
      some (.ofOption (rest.find? ok), s')) (s : σ) :
    ∃ fuel s', rotate l visit ok fuel s m once = some (.ofOption ((a :: rest).find? ok), s') := by
  by_cases ha : ok a = true
  · refine ⟨1, visit s a, ?_⟩
    simp only [rotate, hturn, ha, if_true, List.find?_cons_of_pos]
    rfl
  · obtain ⟨fuel, s', hs'⟩ := h (visit s a)
    refine ⟨fuel + 1, s', ?_⟩
    simp only [rotate, hturn, if_neg ha, hs', List.find?_cons_of_neg ha]

/-- The second time round only what stands behind `m` is looked at. -/
theorem exists_rotate_true (hnd : l.Nodup) {m : α} {post : List α} (pre : List α)
    (hl : l = pre ++ m :: post) (s : σ) :
    ∃ fuel s', rotate l visit ok fuel s m true = some (.ofOption (post.find? ok), s') := by
  induction post generalizing m pre s with
  | nil =>
    have hnext : next m l = none := lap_append hl hnd
    refine ⟨1, s, ?_⟩
    simp only [rotate, turn, hnext, if_true]
    rfl
  | cons a post ih =>
    have hnext : next m l = some a := lap_append hl hnd
    have hl' : l = (pre ++ [m]) ++ a :: post := by simpa using hl
    have hturn : turn l m true = .inr (a, true) := by
      rw [turn, hnext]
    exact exists_rotate_of_turn hturn (ih (pre ++ [m]) hl') s

/-- The first time the end of the list leads back to its beginning. -/
theorem exists_rotate_false (hnd : l.Nodup) {m : α} {post : List α} (pre : List α)
    (hl : l = pre ++ m :: post) (s : σ) :
    ∃ fuel s', rotate l visit ok fuel s m false =
      some (.ofOption ((post ++ l).find? ok), s') := by
  induction post generalizing m pre s with
  | nil =>
    have hnext : next m l = none := lap_append hl hnd
    obtain ⟨a, rest, hrest⟩ : ∃ a rest, l = a :: rest :=
      List.exists_cons_of_ne_nil (by simp [hl])
    have hhead : l.head? = some a := by rw [hrest, List.head?_cons]
    have hturn : turn l m false = .inr (a, true) := by
      simp only [turn, hnext, hhead, Bool.false_eq_true, if_false]
    have hfind : ([] ++ l).find? ok = (a :: rest).find? ok := by rw [List.nil_append, hrest]
    rw [hfind]
    exact exists_rotate_of_turn hturn (exists_rotate_true hnd [] hrest) s
  | cons a post ih =>
    have hnext : next m l = some a := lap_append hl hnd
    have hl' : l = (pre ++ [m]) ++ a :: post := by simpa using hl
    have hturn : turn l m false = .inr (a, false) := by
      rw [turn, hnext]
    exact exists_rotate_of_turn hturn (ih (pre ++ [m]) hl') s

/-- A rotation returns, with the first that fits behind `m` and then in the whole list. -/
theorem exists_rotate (visit : σ → α → σ) (ok : α → Bool) (hnd : l.Nodup) {m : α} (hm : m ∈ l)
    (s : σ) :
    ∃ fuel s', rotate l visit ok fuel s m false =
      some (.ofOption ((behind m l ++ l).find? ok), s') := by
  obtain ⟨pre, hl, -⟩ := exists_behind hnd hm
  exact exists_rotate_false hnd pre hl s

end Rotate

end Ring
