import Sctp.Enrp.Cblib
import Sctp.Lib.Stable

/-! The timer queue of the ENRP server is sorted and holds the running timers, and a timer that is reset while it
does not run is due as long after as it should. -/
namespace Sctp.Enrp

variable {α : Type}

theorem TimerStruct.arm_stop_time (n : TimerStruct α) {now : Timeval} (h : now.Normal) (timeout : ℕ) :
    (n.arm now timeout).stop_time.Normal ∧ (n.arm now timeout).stop_time.usecs = now.usecs + 1000 * timeout := by
  unfold Timeval.Normal at h ⊢
  unfold TimerStruct.arm Timeval.usecs
  dsimp only
  split
  · dsimp only
    omega
  · dsimp only
    omega

theorem selectTimeout_eq (stop now : Timeval) : now.usecs + Cblib.selectTimeout stop now = stop.usecs := by
  unfold Cblib.selectTimeout
  rw [Timeval.usecs_sub]
  omega

namespace TimerStruct

variable [DecidableEq α] {n : TimerStruct α}

theorem started_zero : (TimerStruct.zero : TimerStruct α).started = false := by
  simp [started, TimerStruct.zero, Timeval.zero]

theorem started_of_times (h : links.content n ≠ (Timeval.zero, Timeval.zero)) : n.started = true := by
  by_contra hnot
  apply h
  simp only [started, decide_eq_true_iff, not_or, not_not] at hnot
  obtain ⟨-, -, hstart, hstart', hstop, hstop'⟩ := hnot
  obtain ⟨prev, next, ⟨s, u⟩, ⟨s', u'⟩⟩ := n
  obtain rfl : s = 0 := hstart
  obtain rfl : u = 0 := hstart'
  obtain rfl : s' = 0 := hstop
  obtain rfl : u' = 0 := hstop'
  rfl

end TimerStruct

namespace Cblib

open TimerStruct (links)

def times (s : Cblib α) (t : α) : Option (Timeval × Timeval) := (s.timers t).map links.content

/-- The timers of a list are linked, and all other ones are at rest. -/
structure Holds (s : Cblib α) (as : List α) : Prop where
  formed : Dll.Formed links s.timers none as none
  nodup : as.Nodup
  timerList_eq : s.timerList = as.head?
  idle : ∀ t n, s.timers t = some n → t ∉ as → n = .zero
  running : ∀ t ∈ as, s.times t ≠ some (.zero, .zero)
  known : ∃ live : List α, (∀ t, s.timers t ≠ none → t ∈ live) ∧ live.length ≤ s.created

structure Retimed (s s' : Cblib α) (t : α) (x : Timeval × Timeval) : Prop where
  self : s'.times t = some x
  other : ∀ b, b ≠ t → s'.times b = s.times b
  created : s'.created = s.created

variable {s : Cblib α} {as f r : List α} {t : α}

theorem Holds.empty : Holds (Cblib.empty : Cblib α) [] where
  formed := trivial
  nodup := List.nodup_nil
  timerList_eq := rfl
  idle t n h := by cases h
  running t h := by cases h
  known := ⟨[], fun t h => absurd rfl h, le_refl _⟩

theorem Holds.length_le (h : Holds s as) : as.length ≤ s.created := by
  obtain ⟨live, hlive, hle⟩ := h.known
  have hsub : as ⊆ live := by
    intro t ht
    obtain ⟨n, hn⟩ := h.formed.exists_node ht
    apply hlive t
    rw [hn]
    exact Option.some_ne_none n
  exact (h.nodup.subperm hsub).length_le.trans hle

theorem Holds.segment (h : Holds s as) : Linked.Segment s.timers TimerStruct.next s.timerList as none := by
  have hseg := h.formed.segment
  rw [Option.or_none, ← h.timerList_eq] at hseg
  exact hseg

theorem Holds.queue_eq (h : Holds s as) : s.queue = as := by
  apply h.segment.nodes_eq
  have hle := h.length_le
  omega

theorem Holds.times_of_mem (h : Holds s as) (ht : t ∈ as) : ∃ n, s.timers t = some n ∧ s.times t = some (links.content n) := by
  obtain ⟨n, hn⟩ := h.formed.exists_node ht
  refine ⟨n, hn, ?_⟩
  rw [times, hn, Option.map_some]

variable [DecidableEq α]

theorem Holds.started (h : Holds s as) {n : TimerStruct α} (hn : s.timers t = some n) :
    n.started = decide (t ∈ as) := by
  by_cases ht : t ∈ as
  · rw [decide_eq_true ht]
    apply TimerStruct.started_of_times
    have hne := h.running t ht
    rw [times, hn, Option.map_some] at hne
    exact fun heq => hne (congrArg some heq)
  · rw [decide_eq_false ht, h.idle t n hn ht]
    exact TimerStruct.started_zero

theorem find_eq {timers : α → Option (TimerStruct α)} {p : Option α}
    (h : Linked.Segment timers TimerStruct.next p as none) (t : α) {n : ℕ} (hn : as.length < n) :
    find timers t n p = some (decide (t ∈ as)) := by
  induction as generalizing p n with
  | nil =>
    obtain rfl : p = none := h
    obtain ⟨n, rfl⟩ : ∃ m, n = m + 1 := ⟨n - 1, by omega⟩
    rfl
  | cons a as ih =>
    obtain ⟨rfl, e, he, hrest⟩ := h
    obtain ⟨n, rfl⟩ : ∃ m, n = m + 1 := ⟨n - 1, by omega⟩
    rw [find]
    by_cases hat : a = t
    · rw [if_pos hat, hat, decide_eq_true List.mem_cons_self]
    · rw [if_neg hat, he, Option.bind_some, ih hrest (Nat.lt_of_succ_lt_succ hn)]
      have hiff : t ∈ a :: as ↔ t ∈ as := by
        rw [List.mem_cons]
        exact or_iff_right fun heq => hat heq.symm
      rw [decide_eq_decide.2 hiff]

theorem Holds.find (h : Holds s as) (t : α) :
    Cblib.find s.timers t (s.created + 1) s.timerList = some (decide (t ∈ as)) := by
  apply find_eq h.segment
  have hle := h.length_le
  omega

theorem Holds.timerStop_idle (h : Holds s as) (ht : t ∉ as) : s.timerStop t = some s := by
  rw [timerStop, h.find, Option.bind_some, decide_eq_false ht, if_neg Bool.false_ne_true]

theorem Holds.timerStop (h : Holds s (f ++ t :: r)) :
    ∃ s', s.timerStop t = some s' ∧ Holds s' (f ++ r) ∧ Retimed s s' t (.zero, .zero) := by
  have hmem : t ∈ f ++ t :: r := List.mem_append_right _ List.mem_cons_self
  have hsub : (f ++ r).Sublist (f ++ t :: r) := (List.sublist_cons_self t r).append_left f
  have hout : t ∉ f ++ r := by
    have hnd := List.nodup_middle.1 h.nodup
    exact (List.nodup_cons.1 hnd).1
  have hother : ∀ b ∈ f ++ r, b ≠ t := by
    rintro b hb rfl
    exact hout hb
  obtain ⟨n, hn, -, hnext⟩ := h.formed.node
  rw [Option.or_none] at hnext
  obtain ⟨timers, hunlink, hformed, hkept⟩ := h.formed.unlink h.nodup
  have hformed' : Dll.Formed links (Function.update timers t (some .zero)) none (f ++ r) none := by
    apply hformed.congr
    intro b hb
    exact Function.update_of_ne (hother b hb) _ _
  have hhead : (if s.timerList = some t then n.next else s.timerList) = (f ++ r).head? := by
    rw [h.timerList_eq]
    cases f with
    | nil => exact (if_pos rfl).trans hnext
    | cons a f =>
      have hne : a ≠ t := hother a List.mem_cons_self
      exact if_neg fun heq => hne (Option.some.inj heq)
  have hassert : ((f ++ r).head?.any fun a => (timers a).any fun m => m.prev ≠ none) = false := by
    revert hformed
    cases f ++ r with
    | nil => exact fun _ => rfl
    | cons a as =>
      intro hformed
      obtain ⟨m, hm, hprev, -⟩ := hformed.1
      rw [List.head?_cons, Option.any_some, hm, Option.any_some]
      exact decide_eq_false fun hne => hne hprev
  have hothers : ∀ b, b ≠ t → (Function.update timers t (some .zero) b).map links.content = (s.timers b).map links.content := by
    intro b hb
    rw [Function.update_of_ne hb, hkept.content]
  refine ⟨⟨Function.update timers t (some .zero), (f ++ r).head?, s.created⟩, ?_, ?_, ?_⟩
  · rw [Cblib.timerStop, h.find, Option.bind_some, decide_eq_true hmem, if_pos rfl, hn, Option.bind_some, hunlink,
      Option.bind_some]
    dsimp only
    rw [hhead, if_neg]
    rintro ⟨-, hany⟩
    rw [hassert] at hany
    cases hany
  · refine ⟨hformed', hsub.nodup h.nodup, rfl, ?_, ?_, ?_⟩
    · intro b m hm hb
      dsimp only at hm
      by_cases hbt : b = t
      · rw [hbt, Function.update_self] at hm
        exact (Option.some.inj hm).symm
      · rw [Function.update_of_ne hbt, hkept.off b hb] at hm
        apply h.idle b m hm
        rw [List.mem_append, List.mem_cons] at *
        tauto
    · intro b hb
      have hbt := hother b hb
      have hrun := h.running b (hsub.mem hb)
      rw [times] at hrun ⊢
      rwa [hothers b hbt]
    · obtain ⟨live, hlive, hle⟩ := h.known
      refine ⟨live, ?_, hle⟩
      intro b hb
      by_cases hbt : b = t
      · rw [hbt]
        apply hlive t
        rw [hn]
        exact Option.some_ne_none n
      · apply hlive b
        have heq := hothers b hbt
        intro hnone
        rw [hnone, Option.map_none, Option.map_eq_none_iff] at heq
        exact hb heq
  · refine ⟨?_, hothers, rfl⟩
    dsimp only [times]
    rw [Function.update_self]
    rfl

def past (timers : α → Option (TimerStruct α)) (stop : Timeval) (b : α) : Bool :=
  (timers b).any fun m => stop.before m.stop_time

omit [DecidableEq α] in
theorem past_eq {timers : α → Option (TimerStruct α)} {m : TimerStruct α} (h : timers t = some m) (stop : Timeval) :
    past timers stop t = stop.before m.stop_time := by
  rw [past, h, Option.any_some]

omit [DecidableEq α] in
/-- The loop of `timerStart` stops at the last timer that is not past the deadline. -/
theorem place_eq {timers : α → Option (TimerStruct α)} {back : Option α} {a : α} (stop : Timeval)
    (h : Dll.Formed links timers back (a :: as) none) {n : ℕ} (hn : as.length < n) :
    place timers stop n a = (a :: Stable.front (past timers stop) as).getLast? := by
  induction as generalizing back a n with
  | nil =>
    obtain ⟨n, rfl⟩ : ∃ m, n = m + 1 := ⟨n - 1, by omega⟩
    obtain ⟨e, he, -, hnext⟩ := h.1
    have hnext : e.next = none := hnext
    rw [place, he, Option.bind_some, hnext]
    rfl
  | cons b as ih =>
    obtain ⟨n, rfl⟩ : ∃ m, n = m + 1 := ⟨n - 1, by omega⟩
    obtain ⟨e, he, -, hnext⟩ := h.1
    obtain ⟨m, hm, -, -⟩ := h.2.1
    have hnext : e.next = some b := hnext
    rw [place, he, Option.bind_some, hnext]
    dsimp only
    rw [hm, Option.bind_some]
    cases hb : stop.before m.stop_time with
    | true =>
      rw [if_pos rfl, Stable.front_of_past ((past_eq hm stop).trans hb)]
      rfl
    | false =>
      rw [if_neg Bool.false_ne_true, ih h.2 (Nat.lt_of_succ_lt_succ hn),
        Stable.front_of_not_past ((past_eq hm stop).trans hb), List.getLast?_cons_cons]

variable {a : α} {m : TimerStruct α}

/-- Writing a link of a timer that is not on a list. -/
theorem formed_update {timers : α → Option (TimerStruct α)} {back q : Option α}
    (h : Dll.Formed links timers back as q) (ht : t ∉ as) (x : Option (TimerStruct α)) :
    Dll.Formed links (Function.update timers t x) back as q := by
  apply h.congr
  intro b hb
  exact Function.update_of_ne (fun heq : b = t => ht (heq ▸ hb)) _ _

theorem putBehind_eq (h : Dll.Formed links s.timers none (f ++ a :: r) none) (hnd : (f ++ a :: r).Nodup)
    (ht : t ∉ f ++ a :: r) (hm : s.timers t = some m) :
    ∃ timers, s.putBehind a t = some { s with timers := timers } ∧
      Dll.Formed links timers none (f ++ a :: t :: r) none ∧
      Dll.Kept links (t :: (f ++ a :: r)) s.timers timers := by
  have hcut : f ++ a :: r = (f ++ [a]) ++ r := by simp
  rw [hcut] at h hnd ht
  obtain ⟨hndf, hndr, hdisj⟩ := List.nodup_append.1 hnd
  obtain ⟨htf, htr⟩ : t ∉ f ++ [a] ∧ t ∉ r := not_or.1 fun hor => ht (List.mem_append.2 hor)
  obtain ⟨hf, hr⟩ := Dll.formed_append.1 h
  have hlast : (f ++ [a]).getLast? = some a := by simp
  rw [hlast, Option.some_or] at hr
  obtain ⟨e, he, -, hnext⟩ := hf.node
  obtain ⟨timers₁, hw₁, hr₁, hk₁⟩ := hr.guardPrev hndr (some t)
  have hf₁ : Dll.Formed links timers₁ none (f ++ [a]) r.head? := by
    rw [Option.or_none] at hf
    exact hk₁.formed hf fun b hb hbr => hdisj b hb b hbr rfl
  have hm₁ : timers₁ t = some m := (hk₁.off t htr).trans hm
  have hw₂ := Dll.writeNext_eq (L := links) hm₁ r.head?
  have hk₂ := Dll.kept_update hm₁ (links.content_setNext r.head? m)
  have hf₂ := formed_update hf₁ htf (some (links.setNext r.head? m))
  have hr₂ := formed_update hr₁ htr (some (links.setNext r.head? m))
  obtain ⟨timers₃, hw₃, hf₃, hk₃⟩ := hf₂.guardNext hndf (some t)
  have hm₃ : timers₃ t = some (links.setNext r.head? m) := (hk₃.off t htf).trans (Function.update_self _ _ _)
  have hr₃ := hk₃.formed hr₂ fun b hb hbf => hdisj b hbf b hb rfl
  have hw₄ := Dll.writePrev_eq (L := links) hm₃ (some a)
  have hk₄ := Dll.kept_update hm₃ (links.content_setPrev (some a) (links.setNext r.head? m))
  rw [hlast, Dll.guardNext_some] at hw₃
  refine ⟨Function.update timers₃ t (some (links.setPrev (some a) (links.setNext r.head? m))), ?_, ?_, ?_⟩
  · have hnext : e.next = r.head? := by
      rw [show e.next = links.next e from rfl, hnext]
      simp
    rw [putBehind, he, Option.bind_some, hnext, hw₁, Option.bind_some, hw₂, Option.bind_some, hw₃, Option.bind_some,
      hw₄, Option.map_some]
  · have hgoal : f ++ a :: t :: r = (f ++ [a]) ++ t :: r := by simp
    rw [hgoal, Dll.formed_append]
    refine ⟨formed_update hf₃ htf _, ⟨_, Function.update_self _ _ _, ?_, ?_⟩, formed_update hr₃ htr _⟩
    · rw [hlast]
      rfl
    · rw [links.next_setPrev, links.next_setNext, Option.or_none]
  · have hk := ((hk₁.trans hk₂).trans hk₃).trans hk₄
    apply hk.mono
    intro b hb
    simp only [List.mem_append, List.mem_cons, List.not_mem_nil, or_false] at hb ⊢
    tauto

theorem putBefore_eq (h : Dll.Formed links s.timers none (a :: r) none) (hnd : (a :: r).Nodup)
    (ht : t ∉ a :: r) (hm : s.timers t = some m) :
    ∃ timers, s.putBefore a t = some { s with timers := timers, timerList := some t } ∧
      Dll.Formed links timers none (t :: a :: r) none ∧ Dll.Kept links (t :: a :: r) s.timers timers := by
  have hw₁ := Dll.writeNext_eq (L := links) hm (some a)
  have hk₁ := Dll.kept_update hm (links.content_setNext (some a) m)
  have hm₁ : Function.update s.timers t (some (links.setNext (some a) m)) t = some (links.setNext (some a) m) :=
    Function.update_self _ _ _
  have hf₁ := formed_update h ht (some (links.setNext (some a) m))
  have hw₂ := Dll.writePrev_eq (L := links) hm₁ none
  have hk₂ := Dll.kept_update hm₁ (links.content_setPrev none (links.setNext (some a) m))
  have hf₂ := formed_update hf₁ ht (some (links.setPrev none (links.setNext (some a) m)))
  obtain ⟨timers₃, hw₃, hf₃, hk₃⟩ := hf₂.guardPrev hnd (some t)
  rw [List.head?_cons, Dll.guardPrev_some] at hw₃
  refine ⟨timers₃, ?_, ⟨⟨_, (hk₃.off t ht).trans (Function.update_self _ _ _), ?_, ?_⟩, hf₃⟩, ?_⟩
  · rw [putBefore, hw₁, Option.bind_some, hw₂, Option.bind_some, hw₃, Option.map_some]
  · rw [links.prev_setPrev]
  · rw [links.next_setPrev, links.next_setNext]
    rfl
  · apply ((hk₁.trans hk₂).trans hk₃).mono
    intro b hb
    simp only [List.mem_append, List.mem_cons, List.not_mem_nil, or_false] at hb ⊢
    tauto

/-- A timer whose times are set goes behind those that are due no later. -/
theorem link_eq (h : Dll.Formed links s.timers none as none) (hnd : as.Nodup) (hlist : s.timerList = as.head?)
    (hlen : as.length ≤ s.created) (ht : t ∉ as) (hm : s.timers t = some m) (hprev : m.prev = none)
    (hnext : m.next = none) (stop : Timeval) :
    ∃ timers, s.link t stop = some ⟨timers, (Stable.front (past s.timers stop) as ++ [t]).head?, s.created⟩ ∧
      Dll.Formed links timers none
        (Stable.front (past s.timers stop) as ++ t :: Stable.rest (past s.timers stop) as) none ∧
      Dll.Kept links (t :: as) s.timers timers := by
  cases as with
  | nil =>
    have hlist : s.timerList = none := hlist
    refine ⟨s.timers, ?_, ⟨⟨m, hm, hprev, hnext⟩, trivial⟩, fun _ _ => rfl, fun _ => rfl⟩
    rw [link, hlist]
    rfl
  | cons b as =>
    have hlist : s.timerList = some b := hlist
    obtain ⟨e, he, -, -⟩ := h.1
    cases hb : stop.before e.stop_time with
    | true =>
      have hp : past s.timers stop b = true := (past_eq he stop).trans hb
      obtain ⟨timers, hput, hformed, hkept⟩ := putBefore_eq h hnd ht hm
      rw [Stable.front_of_past hp, Stable.rest_of_past hp]
      refine ⟨timers, ?_, hformed, hkept⟩
      rw [link, hlist]
      dsimp only
      rw [he, Option.bind_some, hb, if_pos rfl, hput]
      rfl
    | false =>
      have hp : past s.timers stop b = false := (past_eq he stop).trans hb
      rw [Stable.front_of_not_past hp, Stable.rest_of_not_past hp]
      have hplace := place_eq stop h (n := s.created + 1) (by rw [List.length_cons] at hlen; omega)
      obtain ⟨c, hc⟩ : ∃ c, (b :: Stable.front (past s.timers stop) as).getLast? = some c :=
        Option.isSome_iff_exists.1 (by simp)
      obtain ⟨f, hf⟩ := List.getLast?_eq_some_iff.1 hc
      have hcut : b :: as = f ++ c :: Stable.rest (past s.timers stop) as := by
        have hall := Stable.front_append_rest (past s.timers stop) as
        rw [← hall, ← List.cons_append, hf]
        simp
      rw [hcut] at h hnd ht
      obtain ⟨timers, hput, hformed, hkept⟩ := putBehind_eq h hnd ht hm
      refine ⟨timers, ?_, ?_, ?_⟩
      · rw [link, hlist]
        dsimp only
        rw [he, Option.bind_some, hb, if_neg Bool.false_ne_true, hplace, hc, Option.bind_some, hput, hlist]
        rfl
      · rw [hf]
        simpa using hformed
      · rw [hcut]
        exact hkept

/-- A timer that is not running is started. -/
theorem Holds.timerStart {now : Timeval} {timeout : ℕ} (h : Holds s as) (hlive : s.timers t ≠ none) (ht : t ∉ as)
    (hnow : now.Normal) (harm : now ≠ .zero ∨ timeout ≠ 0) :
    ∃ (s' : Cblib α) (stop : Timeval) (p : α → Bool), stop.Normal ∧ stop.usecs = now.usecs + 1000 * timeout ∧
      (∀ b ∈ as, ∀ n ∈ s.timers b, p b = stop.before n.stop_time) ∧ s.timerStart now t timeout = some s' ∧
      Holds s' (Stable.front p as ++ t :: Stable.rest p as) ∧ Retimed s s' t (now, stop) := by
  obtain ⟨n, hn⟩ := Option.ne_none_iff_exists'.1 hlive
  obtain rfl := h.idle t n hn ht
  obtain ⟨hnormal, husecs⟩ := TimerStruct.arm_stop_time (.zero : TimerStruct α) hnow timeout
  have hprev : ((TimerStruct.zero : TimerStruct α).arm now timeout).prev = none := rfl
  have hnext : ((TimerStruct.zero : TimerStruct α).arm now timeout).next = none := rfl
  have hcontent : links.content ((TimerStruct.zero : TimerStruct α).arm now timeout) =
      (now, ((TimerStruct.zero : TimerStruct α).arm now timeout).stop_time) := rfl
  have hstart : s.timerStart now t timeout = (s.set t (some ((TimerStruct.zero : TimerStruct α).arm now timeout))).link t
      ((TimerStruct.zero : TimerStruct α).arm now timeout).stop_time := by
    rw [Cblib.timerStart, hn, Option.bind_some, TimerStruct.started_zero, if_neg Bool.false_ne_true]
  generalize (TimerStruct.zero : TimerStruct α).arm now timeout = m at *
  have hset : ∀ b, b ≠ t → (s.set t (some m)).timers b = s.timers b := fun b hb => Function.update_of_ne hb _ _
  have hself : (s.set t (some m)).timers t = some m := Function.update_self _ _ _
  have hne : ∀ b ∈ as, b ≠ t := by
    rintro b hb rfl
    exact ht hb
  obtain ⟨timers, hlink, hformed, hkept⟩ := link_eq (s := s.set t (some m)) (formed_update h.formed ht _) h.nodup
    h.timerList_eq h.length_le ht hself hprev hnext m.stop_time
  generalize hp : past (s.set t (some m)).timers m.stop_time = p at hlink hformed
  have hperm := Stable.perm_insert p as t
  have htimes : ∀ b, b ≠ t → (timers b).map links.content = s.times b := by
    intro b hb
    rw [hkept.content, hset b hb]
    rfl
  have htimes' : (timers t).map links.content = some (now, m.stop_time) := by
    rw [hkept.content, hself, Option.map_some, hcontent]
  refine ⟨_, m.stop_time, p, hnormal, husecs, ?_, hstart.trans hlink, ⟨hformed, ?_, ?_, ?_, ?_, ?_⟩, htimes', htimes, rfl⟩
  · intro b hb n hn
    rw [← hp]
    apply past_eq
    rw [hset b (hne b hb)]
    exact hn
  · exact hperm.nodup_iff.2 (List.nodup_cons.2 ⟨ht, h.nodup⟩)
  · cases Stable.front p as with
    | nil => rfl
    | cons b f => rfl
  · intro b k hk hb
    rw [hperm.mem_iff, List.mem_cons, not_or] at hb
    have hk' : timers b = some k := hk
    rw [hkept.off b (by rw [List.mem_cons, not_or]; exact hb), hset b hb.1] at hk'
    exact h.idle b k hk' hb.2
  · intro b hb
    rw [hperm.mem_iff, List.mem_cons] at hb
    change (timers b).map links.content ≠ _
    by_cases hbt : b = t
    · rw [hbt, htimes']
      intro heq
      obtain ⟨hzero, hstop⟩ := Prod.mk.inj (Option.some.inj heq)
      rw [hzero, hstop] at husecs
      rcases harm with hnow0 | htimeout
      · exact hnow0 hzero
      · unfold Timeval.usecs Timeval.zero at husecs
        dsimp only at husecs
        omega
    · rw [htimes b hbt]
      exact h.running b (hb.resolve_left hbt)
  · obtain ⟨live, hmem, hle⟩ := h.known
    refine ⟨live, ?_, hle⟩
    intro b hb
    have hb : timers b ≠ none := hb
    by_cases hbt : b = t
    · rw [hbt]
      exact hmem t hlive
    · apply hmem b
      intro hnone
      have heq := htimes b hbt
      rw [times, hnone, Option.map_none, Option.map_eq_none_iff] at heq
      exact hb heq

theorem Holds.timerStart_running {now : Timeval} {timeout : ℕ} (h : Holds s as) (ht : t ∈ as) :
    s.timerStart now t timeout = some s := by
  obtain ⟨n, hn⟩ := h.formed.exists_node ht
  rw [Cblib.timerStart, hn, Option.bind_some, h.started hn, decide_eq_true ht, if_pos rfl]

theorem Holds.timerCreate (h : Holds s as) (ht : s.timers t = none) : Holds (s.timerCreate t) as := by
  have hne : ∀ b ∈ as, b ≠ t := by
    rintro b hb rfl
    obtain ⟨n, hn⟩ := h.formed.exists_node hb
    rw [ht] at hn
    cases hn
  have hsame : ∀ b, b ≠ t → (s.timerCreate t).timers b = s.timers b := fun b hb => Function.update_of_ne hb _ _
  refine ⟨h.formed.congr fun b hb => hsame b (hne b hb), h.nodup, h.timerList_eq, ?_, ?_, ?_⟩
  · intro b n hn hb
    by_cases hbt : b = t
    · rw [hbt] at hn
      have hself : (s.timerCreate t).timers t = some .zero := Function.update_self _ _ _
      rw [hself] at hn
      exact (Option.some.inj hn).symm
    · rw [hsame b hbt] at hn
      exact h.idle b n hn hb
  · intro b hb
    rw [times, hsame b (hne b hb)]
    exact h.running b hb
  · obtain ⟨live, hmem, hle⟩ := h.known
    refine ⟨t :: live, ?_, Nat.succ_le_succ hle⟩
    intro b hb
    rw [List.mem_cons]
    by_cases hbt : b = t
    · exact .inl hbt
    · rw [hsame b hbt] at hb
      exact .inr (hmem b hb)

theorem Holds.timerDelete_idle (h : Holds s as) (hlive : s.timers t ≠ none) (ht : t ∉ as) :
    s.timerDelete t = some (s.set t none) ∧ Holds (s.set t none) as := by
  obtain ⟨n, hn⟩ := Option.ne_none_iff_exists'.1 hlive
  have hne : ∀ b ∈ as, b ≠ t := by
    rintro b hb rfl
    exact ht hb
  have hsame : ∀ b, b ≠ t → (s.set t none).timers b = s.timers b := fun b hb => Function.update_of_ne hb _ _
  constructor
  · have hstarted := h.started hn
    rw [decide_eq_false ht] at hstarted
    have hzero := h.idle t n hn ht
    rw [Cblib.timerDelete, hn, Option.bind_some, hstarted, if_neg Bool.false_ne_true, Option.bind_some, hn,
      Option.bind_some, if_neg]
    rw [hzero, h.timerList_eq]
    rintro (hnext | hprev | hhead)
    · exact hnext rfl
    · exact hprev rfl
    · exact ht (List.mem_of_mem_head? hhead)
  · refine ⟨h.formed.congr fun b hb => hsame b (hne b hb), h.nodup, h.timerList_eq, ?_, ?_, ?_⟩
    · intro b m hm hb
      by_cases hbt : b = t
      · rw [hbt] at hm
        have hself : (s.set t none).timers t = none := Function.update_self _ _ _
        rw [hself] at hm
        cases hm
      · rw [hsame b hbt] at hm
        exact h.idle b m hm hb
    · intro b hb
      rw [times, hsame b (hne b hb)]
      exact h.running b hb
    · obtain ⟨live, hmem, hle⟩ := h.known
      refine ⟨live, ?_, hle⟩
      intro b hb
      by_cases hbt : b = t
      · rw [hbt]
        exact hmem t hlive
      · rw [hsame b hbt] at hb
        exact hmem b hb

theorem Holds.timerDelete (h : Holds s (f ++ t :: r)) :
    ∃ s', s.timerDelete t = some (s'.set t none) ∧ Holds (s'.set t none) (f ++ r) ∧ Retimed s s' t (.zero, .zero) := by
  have hmem : t ∈ f ++ t :: r := List.mem_append_right _ List.mem_cons_self
  have hout : t ∉ f ++ r := (List.nodup_cons.1 (List.nodup_middle.1 h.nodup)).1
  obtain ⟨n, hn⟩ := h.formed.exists_node hmem
  have hstarted := h.started hn
  rw [decide_eq_true hmem] at hstarted
  obtain ⟨s', hstop, hholds, hretimed⟩ := h.timerStop
  have hself := hretimed.self
  have hlive : s'.timers t ≠ none := by
    intro hnone
    rw [times, hnone] at hself
    cases hself
  obtain ⟨m, hm⟩ := Option.ne_none_iff_exists'.1 hlive
  obtain ⟨hdelete, hholds'⟩ := hholds.timerDelete_idle hlive hout
  refine ⟨s', ?_, hholds', hretimed⟩
  have hidle : m.started = false := by
    rw [hholds.idle t m hm hout]
    exact TimerStruct.started_zero
  rw [Cblib.timerDelete, hm, Option.bind_some, hidle, if_neg Bool.false_ne_true, Option.bind_some] at hdelete
  rw [Cblib.timerDelete, hn, Option.bind_some, hstarted, if_pos rfl, hstop, Option.bind_some, hdelete]

end Cblib

section Events

variable [DecidableEq α] {es : List (TimerEvent α)} {t : α}

def TimerEvent.Starts (e : TimerEvent α) (t : α) (now : Timeval) (timeout : ℕ) : Prop :=
  e = .start t now timeout ∨ (e = .reset t now ∧ timeout = MAX_TIME_LAST_HEARD)

def TimerEvent.Ends (e : TimerEvent α) (t : α) : Prop := e = .stop t ∨ ∃ now, e = .fired t now

variable {e : TimerEvent α} {now : Timeval} {timeout : ℕ}

theorem TimerEvent.Starts.current (h : e.Starts t now timeout) (b : α) :
    current b (e :: es) =
      (current b es).or (if t = b then some ⟨now.usecs + 1000 * timeout, es.length⟩ else none) := by
  rcases h with rfl | ⟨rfl, rfl⟩
  · rfl
  · rfl

theorem TimerEvent.Starts.current_self (h : e.Starts t now timeout) (hnone : Enrp.current t es = none) :
    Enrp.current t (e :: es) = some ⟨now.usecs + 1000 * timeout, es.length⟩ := by
  rw [h.current, hnone, if_pos rfl, Option.none_or]

theorem TimerEvent.Starts.current_of_ne (h : e.Starts t now timeout) {b : α} (hb : b ≠ t) :
    Enrp.current b (e :: es) = Enrp.current b es := by
  rw [h.current, if_neg (Ne.symm hb), Option.or_none]

theorem TimerEvent.Starts.current_running (h : e.Starts t now timeout) (hsome : Enrp.current t es ≠ none) (b : α) :
    Enrp.current b (e :: es) = Enrp.current b es := by
  by_cases hb : b = t
  · obtain ⟨c, hc⟩ := Option.ne_none_iff_exists'.1 hsome
    rw [h.current, hb, hc, Option.some_or]
  · exact h.current_of_ne hb

theorem TimerEvent.Ends.current_self (h : e.Ends t) : Enrp.current t (e :: es) = none := by
  rcases h with rfl | ⟨now, rfl⟩
  · exact if_pos rfl
  · exact if_pos rfl

theorem TimerEvent.Ends.current_of_ne (h : e.Ends t) {b : α} (hb : b ≠ t) :
    Enrp.current b (e :: es) = Enrp.current b es := by
  rcases h with rfl | ⟨now, rfl⟩
  · exact if_neg (Ne.symm hb)
  · exact if_neg (Ne.symm hb)

/-- The timers that were only started with the time a peer may be silent for. -/
def OnlyHeard (t : α) (es : List (TimerEvent α)) : Prop :=
  ∀ now timeout, .start t now timeout ∈ es → timeout = MAX_TIME_LAST_HEARD

omit [DecidableEq α] in
theorem OnlyHeard.of_cons (h : OnlyHeard t (e :: es)) : OnlyHeard t es :=
  fun now timeout hin => h now timeout (List.mem_cons_of_mem _ hin)

end Events

namespace TimerHistory

open TimerStruct (links)

variable [DecidableEq α] {h : TimerHistory α} {as : List α} {t : α}

def Before (es : List (TimerEvent α)) (a b : α) : Prop :=
  ∀ c ∈ current a es, ∀ d ∈ current b es, c.due < d.due ∨ (c.due = d.due ∧ c.serial < d.serial)

/-- The running timers are queued, each with what its start says. -/
structure Sound (h : TimerHistory α) (as : List α) : Prop where
  holds : h.lib.Holds as
  mem_iff : ∀ t, t ∈ as ↔ current t h.events ≠ none
  due : ∀ t ∈ as, ∀ x ∈ h.lib.times t, ∀ c ∈ current t h.events, x.2.Normal ∧ x.2.usecs = c.due
  serial : ∀ t, ∀ c ∈ current t h.events, c.serial < h.events.length
  sorted : as.Pairwise (Before h.events)
  past : ∀ t now, .reset t now ∈ h.events → now.usecs ≤ h.clock.usecs
  silent : ∀ t, OnlyHeard t h.events → ∀ c ∈ current t h.events, ∀ now, .reset t now ∈ h.events →
    now.usecs + 1000 * MAX_TIME_LAST_HEARD ≤ c.due
  right : Trace.Throughout TimerEvent.Right h.events

theorem Sound.empty : Sound (TimerHistory.empty : TimerHistory α) [] where
  holds := .empty
  mem_iff t := iff_of_false List.not_mem_nil fun hne => hne rfl
  due t ht := absurd ht List.not_mem_nil
  serial t c hc := by cases hc
  sorted := List.Pairwise.nil
  past t now hin := absurd hin List.not_mem_nil
  silent t _ c hc := by cases hc
  right := trivial

variable {e : TimerEvent α} {now : Timeval} {timeout : ℕ} {lib : Cblib α}

/-- Something happened that changes nothing for the queue. -/
theorem Sound.noted (hs : h.Sound as) (hclock : h.clock.usecs ≤ now.usecs)
    (hcur : ∀ b, current b (e :: h.events) = current b h.events) (hreset : ∀ b now', e ≠ .reset b now')
    (hright : e.Right h.events) (hholds : lib.Holds as) (htimes : ∀ b ∈ as, lib.times b = h.lib.times b) :
    Sound ⟨lib, now, e :: h.events⟩ as := by
  have hold : ∀ b now', .reset b now' ∈ e :: h.events → .reset b now' ∈ h.events := by
    intro b now' hin
    exact (List.mem_cons.1 hin).resolve_left fun heq => hreset b now' heq.symm
  refine ⟨hholds, ?_, ?_, ?_, ?_, ?_, ?_, hright, hs.right⟩
  · intro b
    rw [hcur]
    exact hs.mem_iff b
  · intro b hb x hx c hc
    have hx : x ∈ lib.times b := hx
    rw [htimes b hb] at hx
    rw [hcur] at hc
    exact hs.due b hb x hx c hc
  · intro b c hc
    rw [hcur] at hc
    exact Nat.lt_succ_of_lt (hs.serial b c hc)
  · apply hs.sorted.imp
    intro a b hab c hc d hd
    rw [hcur] at hc hd
    exact hab c hc d hd
  · intro b now' hin
    exact (hs.past b now' (hold b now' hin)).trans hclock
  · intro b honly c hc now' hin
    rw [hcur] at hc
    exact hs.silent b honly.of_cons c hc now' (hold b now' hin)

/-- A timer that is stopped or fires leaves the queue. -/
theorem Sound.ended {f r : List α} (hs : h.Sound (f ++ t :: r)) (hclock : h.clock.usecs ≤ now.usecs) (he : e.Ends t)
    (hright : e.Right h.events) (hholds : lib.Holds (f ++ r))
    (htimes : ∀ b, b ≠ t → lib.times b = h.lib.times b) : Sound ⟨lib, now, e :: h.events⟩ (f ++ r) := by
  have hnd := List.nodup_cons.1 (List.nodup_middle.1 hs.holds.nodup)
  have hne : ∀ b ∈ f ++ r, b ≠ t := by
    rintro b hb rfl
    exact hnd.1 hb
  have hmem : ∀ b, b ∈ f ++ t :: r ↔ b = t ∨ b ∈ f ++ r := by
    intro b
    rw [List.perm_middle.mem_iff, List.mem_cons]
  have hcur : ∀ b, ∀ c ∈ current b (e :: h.events), b ≠ t ∧ c ∈ current b h.events := by
    intro b c hc
    by_cases hb : b = t
    · rw [hb, he.current_self] at hc
      cases hc
    · rw [he.current_of_ne hb] at hc
      exact ⟨hb, hc⟩
  have hreset : ∀ b now', .reset b now' ∈ e :: h.events → .reset b now' ∈ h.events := by
    intro b now' hin
    rcases List.mem_cons.1 hin with heq | hin
    · rcases he with rfl | ⟨now, rfl⟩
      · cases heq
      · cases heq
    · exact hin
  refine ⟨hholds, ?_, ?_, ?_, ?_, ?_, ?_, hright, hs.right⟩
  · intro b
    by_cases hb : b = t
    · rw [hb, he.current_self]
      exact iff_of_false hnd.1 fun hne => hne rfl
    · rw [he.current_of_ne hb, ← hs.mem_iff, hmem]
      exact (or_iff_right hb).symm
  · intro b hb x hx c hc
    have hx : x ∈ lib.times b := hx
    rw [htimes b (hne b hb)] at hx
    exact hs.due b ((hmem b).2 (.inr hb)) x hx c (hcur b c hc).2
  · intro b c hc
    exact Nat.lt_succ_of_lt (hs.serial b c (hcur b c hc).2)
  · have hsub : (f ++ r).Sublist (f ++ t :: r) := (List.sublist_cons_self t r).append_left f
    apply (hs.sorted.sublist hsub).imp
    intro a b hab c hc d hd
    exact hab c (hcur a c hc).2 d (hcur b d hd).2
  · intro b now' hin
    exact (hs.past b now' (hreset b now' hin)).trans hclock
  · intro b honly c hc now' hin
    exact hs.silent b honly.of_cons c (hcur b c hc).2 now' (hreset b now' hin)

/-- A timer that starts goes behind those that are due no later. -/
theorem Sound.begun {stop : Timeval} {p : α → Bool} (hs : h.Sound as) (hclock : h.clock.usecs ≤ now.usecs)
    (he : e.Starts t now timeout) (ht : t ∉ as) (hstop : stop.Normal) (husecs : stop.usecs = now.usecs + 1000 * timeout)
    (hp : ∀ b ∈ as, ∀ n ∈ h.lib.timers b, p b = stop.before n.stop_time)
    (hholds : lib.Holds (Stable.front p as ++ t :: Stable.rest p as)) (hretimed : h.lib.Retimed lib t (now, stop)) :
    Sound ⟨lib, now, e :: h.events⟩ (Stable.front p as ++ t :: Stable.rest p as) := by
  have hmem : ∀ b, b ∈ Stable.front p as ++ t :: Stable.rest p as ↔ b = t ∨ b ∈ as := by
    intro b
    rw [(Stable.perm_insert p as t).mem_iff, List.mem_cons]
  have hnone : current t h.events = none := by
    by_contra hne
    exact ht ((hs.mem_iff t).2 hne)
  have hself := he.current_self hnone
  have hcur : ∀ b ∈ as, current b (e :: h.events) = current b h.events := by
    intro b hb
    apply he.current_of_ne
    rintro rfl
    exact ht hb
  have hpast : ∀ b ∈ as, ∀ c ∈ current b h.events, p b = true ↔ stop.usecs < c.due := by
    intro b hb c hc
    obtain ⟨n, hn, htimes⟩ := hs.holds.times_of_mem hb
    obtain ⟨hnormal, hdue⟩ := hs.due b hb _ htimes c hc
    have hnormal : n.stop_time.Normal := hnormal
    have hdue : n.stop_time.usecs = c.due := hdue
    rw [hp b hb n hn, Timeval.before_iff hstop hnormal, ← hdue]
  have hsorted : as.Pairwise (Before (e :: h.events)) := by
    apply List.Pairwise.imp_of_mem _ hs.sorted
    intro a b ha hb hab c hc d hd
    rw [hcur a ha] at hc
    rw [hcur b hb] at hd
    exact hab c hc d hd
  have hsome : ∀ b ∈ as, ∃ c, current b h.events = some c := fun b hb =>
    Option.ne_none_iff_exists'.1 ((hs.mem_iff b).1 hb)
  have hreset : ∀ b now', .reset b now' ∈ e :: h.events → now'.usecs ≤ now.usecs := by
    intro b now' hin
    rcases List.mem_cons.1 hin with heq | hin
    · rcases he with rfl | ⟨rfl, -⟩
      · cases heq
      · cases heq
        exact le_refl _
    · exact (hs.past b now' hin).trans hclock
  refine ⟨hholds, ?_, ?_, ?_, ?_, hreset, ?_, ?_, hs.right⟩
  · intro b
    rw [hmem]
    by_cases hb : b = t
    · rw [hb, hself]
      exact iff_of_true (.inl rfl) (Option.some_ne_none _)
    · rw [he.current_of_ne hb, ← hs.mem_iff]
      exact or_iff_right hb
  · intro b hb x hx c hc
    have hx : x ∈ lib.times b := hx
    rcases (hmem b).1 hb with rfl | hb
    · rw [hretimed.self] at hx
      rw [hself] at hc
      cases hx
      cases hc
      exact ⟨hstop, husecs⟩
    · rw [hretimed.other b fun hbt => ht (hbt ▸ hb)] at hx
      rw [hcur b hb] at hc
      exact hs.due b hb x hx c hc
  · intro b c hc
    by_cases hb : b = t
    · rw [hb, hself] at hc
      cases hc
      exact Nat.lt_succ_self _
    · rw [he.current_of_ne hb] at hc
      exact Nat.lt_succ_of_lt (hs.serial b c hc)
  · apply Stable.pairwise_insert hsorted
    · intro a ha b hb hab hpa
      obtain ⟨c, hc⟩ := hsome a ha
      obtain ⟨d, hd⟩ := hsome b hb
      rw [hpast a ha c hc] at hpa
      rw [hpast b hb d hd]
      have hcd := hab c ((hcur a ha).trans hc) d ((hcur b hb).trans hd)
      omega
    · intro a ha hpa c hc d hd
      rw [hcur a ha] at hc
      rw [hself] at hd
      cases hd
      have hnot : ¬ stop.usecs < c.due := by
        rw [← hpast a ha c hc, hpa]
        exact Bool.false_ne_true
      have hserial := hs.serial a c hc
      dsimp only
      omega
    · intro a ha hpa c hc d hd
      rw [hself] at hc
      rw [hcur a ha] at hd
      cases hc
      rw [hpast a ha d hd] at hpa
      dsimp only
      omega
  · intro b honly c hc now' hin
    by_cases hb : b = t
    · rw [hb, hself] at hc
      cases hc
      have htimeout : timeout = MAX_TIME_LAST_HEARD := by
        rcases he with rfl | ⟨-, heq⟩
        · rw [hb] at honly
          exact honly now timeout List.mem_cons_self
        · exact heq
      have hle := hreset b now' hin
      rw [htimeout]
      dsimp only
      omega
    · rw [he.current_of_ne hb] at hc
      apply hs.silent b honly.of_cons c hc now'
      rcases List.mem_cons.1 hin with heq | hin
      · rcases he with rfl | ⟨rfl, -⟩
        · cases heq
        · cases heq
          exact absurd rfl hb
      · exact hin
  · rcases he with rfl | ⟨rfl, rfl⟩
    · trivial
    · exact ⟨_, hself, rfl⟩

theorem Sound.timerStart (hs : h.Sound as) (hlive : h.lib.timers t ≠ none) (hlater : h.Later now)
    (harm : now ≠ .zero ∨ timeout ≠ 0) :
    ∃ lib as', h.lib.timerStart now t timeout = some lib ∧ Sound ⟨lib, now, .start t now timeout :: h.events⟩ as' := by
  by_cases ht : t ∈ as
  · have hcur : ∀ b, current b (.start t now timeout :: h.events) = current b h.events :=
      TimerEvent.Starts.current_running (.inl rfl) ((hs.mem_iff t).1 ht)
    refine ⟨h.lib, as, hs.holds.timerStart_running ht, ?_⟩
    exact hs.noted hlater.2 hcur (fun b now' heq => by cases heq) trivial hs.holds fun _ _ => rfl
  · obtain ⟨lib, stop, p, hstop, husecs, hp, hstart, hholds, hretimed⟩ := hs.holds.timerStart hlive ht hlater.1 harm
    exact ⟨lib, _, hstart, hs.begun hlater.2 (.inl rfl) ht hstop husecs hp hholds hretimed⟩

theorem Sound.reset (hs : h.Sound as) (hlive : h.lib.timers t ≠ none) (hlater : h.Later now) (ht : t ∉ as) :
    ∃ lib as', h.lib.timerStart now t MAX_TIME_LAST_HEARD = some lib ∧ Sound ⟨lib, now, .reset t now :: h.events⟩ as' := by
  obtain ⟨lib, stop, p, hstop, husecs, hp, hstart, hholds, hretimed⟩ :=
    hs.holds.timerStart hlive ht hlater.1 (.inr (show MAX_TIME_LAST_HEARD ≠ 0 by decide))
  exact ⟨lib, _, hstart, hs.begun hlater.2 (.inr ⟨rfl, rfl⟩) ht hstop husecs hp hholds hretimed⟩

/-- Stopping a timer at rest only goes down in what happened. -/
theorem Sound.stopped_idle (hs : h.Sound as) (ht : t ∉ as) (hholds : lib.Holds as)
    (htimes : ∀ b ∈ as, lib.times b = h.lib.times b) : Sound ⟨lib, h.clock, .stop t :: h.events⟩ as := by
  have hright : (TimerEvent.stop t).Right h.events := trivial
  apply hs.noted (le_refl _) _ (fun b now' heq => by cases heq) hright hholds htimes
  intro b
  have hends : (TimerEvent.stop t).Ends t := .inl rfl
  by_cases hb : b = t
  · rw [hb, hends.current_self]
    by_contra hne
    exact ht ((hs.mem_iff t).2 (Ne.symm hne))
  · exact hends.current_of_ne hb

theorem Sound.timerStop (hs : h.Sound as) (t : α) :
    ∃ lib as', h.lib.timerStop t = some lib ∧ Sound ⟨lib, h.clock, .stop t :: h.events⟩ as' ∧
      (h.lib.timers t ≠ none → lib.timers t ≠ none) := by
  by_cases ht : t ∈ as
  · obtain ⟨f, r, rfl⟩ := List.append_of_mem ht
    obtain ⟨lib, hstop, hholds, hretimed⟩ := hs.holds.timerStop
    refine ⟨lib, f ++ r, hstop, hs.ended (le_refl _) (.inl rfl) trivial hholds hretimed.other, ?_⟩
    intro _ hnone
    have hself := hretimed.self
    rw [Cblib.times, hnone] at hself
    cases hself
  · exact ⟨h.lib, as, hs.holds.timerStop_idle ht, hs.stopped_idle ht hs.holds fun _ _ => rfl, id⟩

theorem Sound.timerDelete (hs : h.Sound as) (hlive : h.lib.timers t ≠ none) :
    ∃ lib as', h.lib.timerDelete t = some lib ∧ Sound ⟨lib, h.clock, .stop t :: h.events⟩ as' := by
  have hset : ∀ (s : Cblib α) b, b ≠ t → (s.set t none).times b = s.times b := by
    intro s b hb
    exact congrArg (Option.map _) (Function.update_of_ne hb _ _)
  by_cases ht : t ∈ as
  · obtain ⟨f, r, rfl⟩ := List.append_of_mem ht
    obtain ⟨lib, hdelete, hholds, hretimed⟩ := hs.holds.timerDelete
    refine ⟨_, f ++ r, hdelete, hs.ended (le_refl _) (.inl rfl) trivial hholds ?_⟩
    intro b hb
    rw [hset lib b hb, hretimed.other b hb]
  · obtain ⟨hdelete, hholds⟩ := hs.holds.timerDelete_idle hlive ht
    refine ⟨_, as, hdelete, hs.stopped_idle ht hholds ?_⟩
    intro b hb
    apply hset
    rintro rfl
    exact ht hb

theorem Sound.timerCreate (hs : h.Sound as) (ht : h.lib.timers t = none) :
    Sound { h with lib := h.lib.timerCreate t } as := by
  refine { hs with holds := hs.holds.timerCreate ht, due := ?_ }
  intro b hb x hx
  have hbt : b ≠ t := by
    rintro rfl
    obtain ⟨n, hn⟩ := hs.holds.formed.exists_node hb
    rw [ht] at hn
    cases hn
  have hsame : (h.lib.timerCreate t).times b = h.lib.times b :=
    congrArg (Option.map _) (Function.update_of_ne hbt _ _)
  have hx : x ∈ (h.lib.timerCreate t).times b := hx
  rw [hsame] at hx
  exact hs.due b hb x hx

/-- The first timer fires when it is due. -/
theorem Sound.fire {later : Timeval} {ts : List α} {n : TimerStruct α} (hs : h.Sound (t :: ts))
    (hn : h.lib.timers t = some n) (hlater : h.clock.usecs ≤ later.usecs) (hdue : n.stop_time.usecs ≤ later.usecs) :
    ∃ lib, h.lib.timerStop t = some lib ∧ Sound ⟨lib, later, .fired t later :: h.events⟩ ts := by
  obtain ⟨lib, hstop, hholds, hretimed⟩ := hs.holds.timerStop (f := [])
  obtain ⟨c, hc⟩ := Option.ne_none_iff_exists'.1 ((hs.mem_iff t).1 List.mem_cons_self)
  have htimes : h.lib.times t = some (links.content n) := by
    rw [Cblib.times, hn, Option.map_some]
  obtain ⟨-, hstopc⟩ := hs.due t List.mem_cons_self _ htimes c hc
  have hle : c.due ≤ later.usecs := by
    rw [← hstopc]
    exact hdue
  refine ⟨lib, hstop, hs.ended (f := []) hlater (.inr ⟨later, rfl⟩) ⟨⟨c, hc, hle⟩, ?_⟩ hholds hretimed.other⟩
  intro honly now' hin
  exact (hs.silent t honly c hc now' hin).trans hle

theorem handleEvent_due {s : Cblib α} {ts : List α} {n : TimerStruct α} (hs : s.Holds (t :: ts))
    (hn : s.timers t = some n) (hdue : n.stop_time.before now = true) (wake : Option Timeval) :
    ∃ lib, s.timerStop t = some lib ∧ s.handleEvent now wake = some (lib, some t, now) ∧ lib.Holds ts := by
  obtain ⟨lib, hstop, hholds, -⟩ := hs.timerStop (f := [])
  have hlist : s.timerList = some t := hs.timerList_eq
  refine ⟨lib, hstop, ?_, hholds⟩
  rw [Cblib.handleEvent, hlist]
  dsimp only
  rw [hn, Option.bind_some, if_pos hdue, hstop, Option.map_some]

theorem Sound.handle {wake : Option Timeval} (hs : h.Sound as) (hallowed : h.Allowed (.handle now wake)) :
    ∃ h' as', h.step (.handle now wake) = some h' ∧ h'.Sound as' := by
  obtain ⟨⟨hnow, hlater⟩, hwake⟩ := hallowed
  have hlist := hs.holds.timerList_eq
  cases as with
  | nil =>
    have hlist : h.lib.timerList = none := hlist
    have hnone : wake = none := by
      cases wake with
      | none => rfl
      | some later => exact absurd hlist (hwake later rfl).2.1
    refine ⟨{ h with clock := now }, [], ?_, { hs with past := ?_ }⟩
    · simp only [TimerHistory.step, Cblib.handleEvent, hlist, hnone, if_true, Option.map_some, Option.map_none,
        Option.toList_none, List.nil_append]
    · intro b now' hin
      exact (hs.past b now' hin).trans hlater
  | cons t ts =>
    have hlist : h.lib.timerList = some t := hlist
    obtain ⟨n, hn, htimes⟩ := hs.holds.times_of_mem List.mem_cons_self
    obtain ⟨c, hc⟩ := Option.ne_none_iff_exists'.1 ((hs.mem_iff t).1 List.mem_cons_self)
    have hnormal : n.stop_time.Normal := (hs.due t List.mem_cons_self _ htimes c hc).1
    by_cases hdue : n.stop_time.before now = true
    · obtain ⟨lib, hstop, hhandle, -⟩ := handleEvent_due hs.holds hn hdue wake
      have hlt := (Timeval.before_iff hnormal hnow).1 hdue
      obtain ⟨lib', hstop', hsound⟩ := hs.fire hn hlater hlt.le
      obtain rfl : lib' = lib := Option.some.inj (hstop'.symm.trans hstop)
      refine ⟨_, ts, ?_, hsound⟩
      rw [TimerHistory.step, hhandle]
      rfl
    · cases wake with
      | none =>
        refine ⟨{ h with clock := now }, t :: ts, ?_, { hs with past := ?_ }⟩
        · rw [TimerHistory.step, Cblib.handleEvent, hlist]
          dsimp only
          rw [hn, Option.bind_some, if_neg hdue]
          rfl
        · intro b now' hin
          exact (hs.past b now' hin).trans hlater
      | some later =>
        obtain ⟨-, -, hcome⟩ := hwake later rfl
        obtain ⟨hcome, hle⟩ := hcome t hlist n hn
        rw [selectTimeout_eq] at hcome
        obtain ⟨lib, hstop, hsound⟩ := hs.fire hn (hlater.trans hle) hcome
        refine ⟨_, ts, ?_, hsound⟩
        rw [TimerHistory.step, Cblib.handleEvent, hlist]
        dsimp only
        rw [hn, Option.bind_some, if_neg hdue, hstop]
        rfl

theorem Sound.step {op : TimerOp α} (hs : h.Sound as) (hallowed : h.Allowed op) (hmeets : h.Meets op) :
    ∃ h' as', h.step op = some h' ∧ h'.Sound as' := by
  cases op with
  | create t => exact ⟨_, as, rfl, hs.timerCreate hallowed⟩
  | start now t timeout =>
    obtain ⟨lib, as', hstart, hsound⟩ := hs.timerStart hallowed.1 hallowed.2 hmeets
    exact ⟨_, as', by rw [TimerHistory.step, hstart, Option.map_some], hsound⟩
  | stop t =>
    obtain ⟨lib, as', hstop, hsound, -⟩ := hs.timerStop t
    exact ⟨_, as', by rw [TimerHistory.step, hstop, Option.map_some], hsound⟩
  | restart now t timeout =>
    obtain ⟨lib, as', hstop, hsound, hlive⟩ := hs.timerStop t
    obtain ⟨lib', as'', hstart, hsound'⟩ := hsound.timerStart (hlive hallowed.1) hallowed.2 hmeets
    refine ⟨_, as'', ?_, hsound'⟩
    rw [TimerHistory.step, Cblib.timerRestart, hstop, Option.bind_some, hstart, Option.map_some]
  | delete t =>
    obtain ⟨lib, as', hdelete, hsound⟩ := hs.timerDelete hallowed
    exact ⟨_, as', by rw [TimerHistory.step, hdelete, Option.map_some], hsound⟩
  | reset now server =>
    obtain ⟨hlive, hlater⟩ := hallowed
    have hnothing : Sound { h with clock := now } as := by
      refine { hs with past := ?_ }
      intro b now' hin
      exact (hs.past b now' hin).trans hlater.2
    cases server with
    | none => exact ⟨_, as, rfl, hnothing⟩
    | some r =>
      obtain ⟨timer, cnt⟩ := r
      cases timer with
      | none => exact ⟨_, as, rfl, hnothing⟩
      | some t =>
        have ht : t ∉ as := by
          have hout := hmeets _ rfl t rfl
          rwa [hs.holds.queue_eq] at hout
        obtain ⟨lib, as', hstart, hsound⟩ := hs.reset (hlive _ rfl t rfl) hlater ht
        refine ⟨_, as', ?_, hsound⟩
        simp only [TimerHistory.step, Cblib.registrarServerResetTimer, hstart, Option.map_some, Option.bind_some]
        rfl
  | handle now wake => exact hs.handle hallowed

theorem Sound.exact (hs : h.Sound as) : h.Exact := by
  have hqueue := hs.holds.queue_eq
  refine ⟨?_, ?_, ?_, ?_, ?_, ?_, ?_, hs.right⟩
  · rw [hqueue]
    exact hs.holds.formed
  · rw [hqueue]
    exact hs.holds.nodup
  · rw [hqueue]
    exact hs.holds.timerList_eq
  · rw [hqueue]
    exact hs.mem_iff
  · rw [hqueue]
    intro t ht n hn c hc
    have htimes : h.lib.times t = some (links.content n) := by
      rw [Cblib.times, hn, Option.map_some]
    exact hs.due t ht _ htimes c hc
  · rw [hqueue]
    exact hs.sorted
  · rw [hqueue]
    rintro t ts rfl n hn now wake hdue
    obtain ⟨lib, -, hhandle, hholds⟩ := handleEvent_due hs.holds hn hdue wake
    refine ⟨⟨lib, now, .fired t now :: h.events⟩, ?_, hholds.queue_eq, rfl⟩
    rw [TimerHistory.step, hhandle]
    rfl

/-- In every run in which no timer is started without a timeout at the time zero and a peer's timer is reset only
when it is not running, the queue is exact and no assertion fails. -/
theorem timers_exact {ops : List (TimerOp α)} (hallowed : Trace.Along TimerHistory.step Allowed .empty ops)
    (hmeets : Trace.Along TimerHistory.step Meets .empty ops) :
    ∃ h : TimerHistory α, Trace.run TimerHistory.step .empty ops = some h ∧ h.Exact := by
  have hstep : ∀ (h : TimerHistory α) op, (∃ as, h.Sound as) → h.Allowed op ∧ h.Meets op →
      ∃ h', h.step op = some h' ∧ ∃ as, h'.Sound as := by
    rintro h op ⟨as, hs⟩ ⟨hallowed, hmeets⟩
    obtain ⟨h', as', hstep, hs'⟩ := hs.step hallowed hmeets
    exact ⟨h', hstep, as', hs'⟩
  obtain ⟨h, hrun, as, hs⟩ := Trace.run_progress (fun h => ∃ as, Sound h as) hstep ⟨[], .empty⟩ (hallowed.and hmeets)
  exact ⟨h, hrun, hs.exact⟩

def silentPeer : List (TimerOp ℕ) :=
  [.create 0, .reset ⟨1, 0⟩ (some ⟨some 0, 0⟩), .handle ⟨6, 100000⟩ none, .reset ⟨7, 0⟩ (some ⟨some 0, 1⟩)]

theorem timers_exact_silentPeer : ∃ h : TimerHistory ℕ, Trace.run TimerHistory.step .empty silentPeer = some h ∧ h.Exact :=
  timers_exact (by decide +kernel) (by decide +kernel)

/-- A peer that is heard from two seconds after its timer was started, and again after that. -/
def heardPeer : List (TimerOp ℕ) :=
  [.create 0, .reset ⟨1, 0⟩ (some ⟨some 0, 0⟩), .reset ⟨3, 0⟩ (some ⟨some 0, 0⟩), .handle ⟨6, 100000⟩ none]

/-- It is timed out three seconds after it was heard from. -/
theorem not_timers_exact : ¬ ∀ ops : List (TimerOp ℕ), Trace.Along TimerHistory.step Allowed .empty ops →
    ∃ h : TimerHistory ℕ, Trace.run TimerHistory.step .empty ops = some h ∧ h.Exact := by
  intro hall
  obtain ⟨h, hrun, hexact⟩ := hall heardPeer (by decide +kernel)
  have hevents : (Trace.run TimerHistory.step .empty heardPeer).map TimerHistory.events =
      some [.fired 0 ⟨6, 100000⟩, .reset 0 ⟨3, 0⟩, .reset 0 ⟨1, 0⟩] := by
    decide +kernel
  rw [hrun, Option.map_some] at hevents
  have hright := hexact.right
  rw [Option.some.inj hevents] at hright
  have honly : OnlyHeard 0 [.reset 0 ⟨3, 0⟩, .reset 0 ⟨1, 0⟩] := by
    intro now timeout hin
    simp at hin
  have hle := hright.1.2 honly ⟨3, 0⟩ List.mem_cons_self
  revert hle
  decide

end TimerHistory

end Sctp.Enrp
