import Sctp.Distributor.Lists
import Sctp.Timeval
import Mathlib.Data.BitVec
import Mathlib.Data.List.Forall2
import Mathlib.Tactic

/-! The timers of the distributor: `dist_TimerStart`, `dist_TimerStop` and `__check_time_out_list`. -/
namespace Sctp.Distributor

open HashedTbl (Status)

/-- An unsigned sum that is kept in a `long`. -/
def long (n : ℤ) : ℤ := (BitVec.ofInt 64 n).toInt

/-- The loop of `dist_TimerStart` over `expireTime`, a number of times at most. -/
def carry : ℕ → Timeval → Timeval
  | 0, tv => tv
  | n + 1, tv => if 1000000 < tv.tv_usec then carry n ⟨tv.tv_sec + 1, tv.tv_usec - 1000000⟩ else tv

/-- `expireTime`. The loop takes a million from `tv_usec` each time. -/
def expireTime (started : Timeval) (a b : BitVec 64) : Timeval :=
  let tv : Timeval := ⟨long (started.tv_sec + a.toNat), long (started.tv_usec + b.toNat)⟩
  carry (tv.tv_usec.toNat / 1000000) tv

structure TimerEntry (φ κ : Type) where
  started : Timeval
  expireTime : Timeval
  arg1 : κ
  arg2 : κ
  action : φ
  tv_sec : BitVec 64
  tv_usec : BitVec 64

def TimerEntry.matches {φ κ : Type} [DecidableEq φ] [DecidableEq κ] (f : φ) (a b : κ) (e : TimerEntry φ κ) : Bool :=
  e.action = f ∧ e.arg1 = a ∧ e.arg2 = b

/-- What the timers are about of a `distributor`: the list, the entries, `lastKnownTime`, and of
`__check_time_out_list` the private chain, without its links, and the timer whose action runs. -/
structure Timers (α τ φ κ : Type) where
  timerlist : Dlist α τ
  entry : τ → Option (TimerEntry φ κ)
  lastKnownTime : Timeval
  chain : List τ
  te : Option τ

namespace Timers

variable {α τ φ κ : Type} [DecidableEq α] [DecidableEq τ] [DecidableEq φ] [DecidableEq κ]

def set (s : Timers α τ φ κ) (te : τ) (e : Option (TimerEntry φ κ)) : Timers α τ φ κ :=
  { s with entry := Function.update s.entry te e }

/-- `dist_TimerStart`; `te` and `temp` are what `calloc` returns for the entry and for its link. -/
def timerStart (s : Timers α τ φ κ) (te : Option τ) (temp : Option α) (now : Timeval) (f : φ) (a b : BitVec 64)
    (c d : κ) : Option (Timers α τ φ κ × Status) :=
  match te with
  | none => some (s, .bad)
  | some te =>
    let new : TimerEntry φ κ := ⟨now, expireTime now a b, c, d, f, a, b⟩
    let s := { s.set te (some new) with lastKnownTime := now }
    (s.timerlist.place (fun pe => (s.entry pe).map fun p => new.expireTime.before p.expireTime) temp te).map
      fun (o, ret) =>
        let s := { s with timerlist := o.reset }
        if ret = .good then (s, .good) else (s.set te none, .bad)

/-- `dist_TimerStop`. Nothing comes of its `abort`. -/
def timerStop (s : Timers α τ φ κ) (f : φ) (a b : κ) : Option (Timers α τ φ κ × Status) :=
  (s.timerlist.pull fun pe => (s.entry pe).map fun e => e.matches f a b).bind fun (o, found) =>
    let s := { s with timerlist := o }
    match found with
    | none => some (s, .bad)
    | some (pe, pf) => if pf ≠ some pe then none else some (s.set pe none, .good)

/-- The first loop of `__check_time_out_list`, which moves the timers that have expired to the private chain. -/
def expire (entry : τ → Option (TimerEntry φ κ)) (now : Timeval) :
    ℕ → Dlist α τ → List τ → Option (Dlist α τ × List τ)
  | 0, _, _ => none
  | n + 1, o, chain => o.get.bind fun (o, te) =>
      match te with
      | none => some (o, chain)
      | some te => (entry te).bind fun e =>
          if e.expireTime.before now then o.getThisSlist.bind fun (o, dl) =>
            match dl with
            | none => expire entry now n o chain
            | some dl => (o.mem dl).bind fun k => expire entry now n (o.setMem dl none) (k.ent :: chain)
          else some (o, chain)

/-- `__check_time_out_list` up to its second loop. -/
def checkTimeOutList (s : Timers α τ φ κ) (now : Timeval) : Option (Timers α τ φ κ) :=
  (expire s.entry now (s.timerlist.cntIn.toNat + 1) s.timerlist.reset s.chain).map fun (o, chain) =>
    { s with timerlist := o, chain := chain, lastKnownTime := now }

/-- The second loop of `__check_time_out_list`: the next action begins. -/
def call (s : Timers α τ φ κ) : Option (Timers α τ φ κ) :=
  match s.chain with
  | [] => none
  | te :: chain => (s.entry te).map fun _ => { s with chain := chain, te := some te }

/-- The action comes back, and its timer is freed. -/
def back (s : Timers α τ φ κ) : Option (Timers α τ φ κ) :=
  s.te.map fun te => { s.set te none with te := none }

end Timers

/-- A timer that was started: its number, when it is due, and what it does. -/
structure Timer (φ κ : Type) where
  serial : ℕ
  expiry : ℤ
  action : φ
  arg1 : κ
  arg2 : κ
deriving DecidableEq

inductive TimerEvent (φ κ : Type) where
  | started (t : Timer φ κ)
  | stopped (f : φ) (a b : κ)
  | checked (now : ℤ)
  | called (serial : ℕ)
deriving DecidableEq

/-- The timers that wait, the earliest first, and the ones that a check found due and whose action did not begin. -/
structure Alarms (φ κ : Type) where
  waiting : List (Timer φ κ)
  due : List (Timer φ κ)

section Alarms

variable {φ κ : Type} [DecidableEq φ] [DecidableEq κ]

def Timer.matches (f : φ) (a b : κ) (t : Timer φ κ) : Bool := t.action = f ∧ t.arg1 = a ∧ t.arg2 = b

/-- A timer goes behind those that are due no later, the first one that matches is stopped, and a check finds those
due that lie before it. -/
def Alarms.after (s : Alarms φ κ) : TimerEvent φ κ → Alarms φ κ
  | .started t =>
    { s with
      waiting := Stable.front (fun b => t.expiry < b.expiry) s.waiting ++
        t :: Stable.rest (fun b => t.expiry < b.expiry) s.waiting }
  | .stopped f a b =>
    if s.due.any (Timer.matches f a b) then { s with due := s.due.eraseP (Timer.matches f a b) }
    else { s with waiting := s.waiting.eraseP (Timer.matches f a b) }
  | .checked now =>
    { waiting := s.waiting.filter fun t => now ≤ t.expiry, due := s.due ++ s.waiting.filter fun t => t.expiry < now }
  | .called serial => { s with due := s.due.filter fun t => t.serial ≠ serial }

/-- Behind what happened, the last event first. -/
def alarms : List (TimerEvent φ κ) → Alarms φ κ
  | [] => ⟨[], []⟩
  | e :: es => (alarms es).after e

/-- What should be so when something happens: an action begins only of a timer that is due, and none that is due is
due earlier; and a check begins when the one before it has run all it found. -/
def TimerEvent.Right (e : TimerEvent φ κ) (es : List (TimerEvent φ κ)) : Prop :=
  match e with
  | .called serial => ∃ t ∈ (alarms es).due, t.serial = serial ∧ ∀ t' ∈ (alarms es).due, t.expiry ≤ t'.expiry
  | .checked _ => (alarms es).due = []
  | .started _ | .stopped .. => True

instance (e : TimerEvent φ κ) (es : List (TimerEvent φ κ)) : Decidable (e.Right es) := by
  cases e <;> unfold TimerEvent.Right <;> infer_instance

end Alarms

structure TimerHistory (α τ φ κ : Type) where
  timers : Timers α τ φ κ
  serial : τ → ℕ
  issued : ℕ
  log : List (TimerEvent φ κ)

inductive TimerOp (α τ φ κ : Type) where
  | start (te : Option τ) (temp : Option α) (now : Timeval) (f : φ) (a b : BitVec 64) (c d : κ)
  | stop (f : φ) (a b : κ)
  | check (now : Timeval)
  | call
  | back

namespace TimerHistory

variable {α τ φ κ : Type} [DecidableEq α] [DecidableEq τ] [DecidableEq φ] [DecidableEq κ]

def empty : TimerHistory α τ φ κ := ⟨⟨.create, fun _ => none, ⟨0, 0⟩, [], none⟩, fun _ => 0, 0, []⟩

def step (h : TimerHistory α τ φ κ) : TimerOp α τ φ κ → Option (TimerHistory α τ φ κ)
  | .start te temp now f a b c d => (h.timers.timerStart te temp now f a b c d).map fun (timers, ret) =>
      match te, ret with
      | some te, .good =>
        { timers := timers
          serial := Function.update h.serial te h.issued
          issued := h.issued + 1
          log := .started ⟨h.issued, now.usecs + 1000000 * a.toNat + b.toNat, f, c, d⟩ :: h.log }
      | _, _ => { h with timers := timers }
  | .stop f a b => (h.timers.timerStop f a b).map fun (timers, _) => { h with timers := timers, log := .stopped f a b :: h.log }
  | .check now => (h.timers.checkTimeOutList now).map fun timers =>
      { h with timers := timers, log := .checked now.usecs :: h.log }
  | .call => h.timers.call.map fun timers =>
      { h with timers := timers, log := (timers.te.map fun te => TimerEvent.called (h.serial te)).toList ++ h.log }
  | .back => h.timers.back.map fun timers => { h with timers := timers }

def timerOf (h : TimerHistory α τ φ κ) (te : τ) : Option (Timer φ κ) :=
  (h.timers.entry te).map fun e => ⟨h.serial te, e.expireTime.usecs, e.action, e.arg1, e.arg2⟩

def listed (h : TimerHistory α τ φ κ) : List τ := h.timers.timerlist.entries h.timers.timerlist.nodes

/-- The time is read right, and no earlier than before; memory that `calloc` returns is not in use; a check does not
begin inside of one. -/
def Allowed (h : TimerHistory α τ φ κ) : TimerOp α τ φ κ → Prop
  | .start te temp now _ _ _ _ _ =>
    (∀ x ∈ te, h.timers.entry x = none) ∧ (∀ x ∈ temp, h.timers.timerlist.mem x = none) ∧ now.Normal ∧
      h.timers.lastKnownTime.usecs ≤ now.usecs
  | .stop .. => True
  | .check now =>
    h.timers.chain = [] ∧ h.timers.te = none ∧ now.Normal ∧ h.timers.lastKnownTime.usecs ≤ now.usecs
  | .call => h.timers.te = none ∧ h.timers.chain ≠ []
  | .back => h.timers.te ≠ none

/-- A timeout fits: no sum leaves a `long`, and the microseconds do not come to whole seconds. -/
def Fits (now : Timeval) (a b : BitVec 64) : Prop :=
  now.tv_usec + b.toNat < 2 ^ 63 ∧ now.tv_sec + a.toNat + (now.tv_usec + b.toNat) / 1000000 < 2 ^ 63 ∧ 0 ≤ now.tv_sec ∧
    (now.tv_usec + b.toNat = 0 ∨ (now.tv_usec + b.toNat) % 1000000 ≠ 0)

/-- Timeouts fit, no timer is stopped that waits on the private chain, and the timers that a check finds expired
expire all at one time. -/
def Meets (h : TimerHistory α τ φ κ) : TimerOp α τ φ κ → Prop
  | .start _ _ now _ a b _ _ => Fits now a b
  | .stop f a b => ∀ te ∈ h.timers.chain, ∀ e ∈ h.timers.entry te, ¬ e.matches f a b = true
  | .check now => ∀ te ∈ h.listed, ∀ te' ∈ h.listed, ∀ e ∈ h.timers.entry te, ∀ e' ∈ h.timers.entry te',
      e.expireTime.before now → e'.expireTime.before now → e.expireTime = e'.expireTime
  | .call | .back => True

instance (now : Timeval) (a b : BitVec 64) : Decidable (Fits now a b) := by
  unfold Fits
  infer_instance

instance (h : TimerHistory α τ φ κ) (op : TimerOp α τ φ κ) : Decidable (h.Allowed op) := by
  cases op <;> unfold Allowed <;> infer_instance

instance (h : TimerHistory α τ φ κ) (op : TimerOp α τ φ κ) : Decidable (h.Meets op) := by
  cases op <;> unfold Meets <;> infer_instance

/-- The list is sorted and holds the timers that wait, with times in their normal form, and all that happened is
right. -/
structure Exact (h : TimerHistory α τ φ κ) : Prop where
  waiting_eq : h.listed.filterMap h.timerOf = (alarms h.log).waiting
  sorted : (alarms h.log).waiting.Pairwise fun t t' => t.expiry ≤ t'.expiry
  normal : ∀ te ∈ h.listed, ∃ e, h.timers.entry te = some e ∧ e.expireTime.Normal
  right : Trace.Throughout TimerEvent.Right h.log
  /-- A check runs all that it found. -/
  finished : h.timers.chain = [] → (alarms h.log).due = []

end TimerHistory

theorem long_of_lt {n : ℤ} (h₀ : 0 ≤ n) (h : n < 2 ^ 63) : long n = n := by
  unfold long
  rw [BitVec.toInt_ofInt]
  apply Int.bmod_eq_of_le_mul_two
  · omega
  · omega

/-- The loop ends with what is left of the microseconds, or a second. -/
theorem carry_spec (n : ℕ) (tv : Timeval) (h₀ : 0 < tv.tv_usec) (hn : tv.tv_usec ≤ 1000000 * (n + 1)) :
    (carry n tv).usecs = tv.usecs ∧ 0 < (carry n tv).tv_usec ∧ (carry n tv).tv_usec ≤ 1000000 := by
  induction n generalizing tv with
  | zero => exact ⟨rfl, h₀, by simpa [carry] using hn⟩
  | succ n ih =>
    unfold carry
    split
    · rename_i hgt
      obtain ⟨husecs, hpos, hle⟩ := ih ⟨tv.tv_sec + 1, tv.tv_usec - 1000000⟩ (by dsimp only; omega)
        (by dsimp only; push_cast at hn; omega)
      refine ⟨husecs.trans ?_, hpos, hle⟩
      unfold Timeval.usecs
      dsimp only
      omega
    · exact ⟨rfl, h₀, by omega⟩

/-- A timeout that fits is due when it should be. -/
theorem expireTime_spec {now : Timeval} {a b : BitVec 64} (hnow : now.Normal) (hfits : TimerHistory.Fits now a b) :
    (expireTime now a b).Normal ∧ (expireTime now a b).usecs = now.usecs + 1000000 * a.toNat + b.toNat := by
  obtain ⟨husec, hsec, hpos, hcase⟩ := hfits
  obtain ⟨h₀, -⟩ := hnow
  have hs : long (now.tv_sec + a.toNat) = now.tv_sec + a.toNat := long_of_lt (by omega) (by omega)
  have hu : long (now.tv_usec + b.toNat) = now.tv_usec + b.toNat := long_of_lt (by omega) husec
  unfold expireTime
  rw [hs, hu]
  dsimp only
  rcases hcase with hzero | hmod
  · rw [hzero]
    have hb : (b.toNat : ℤ) = 0 := by omega
    have hu : now.tv_usec = 0 := by omega
    unfold Timeval.usecs
    rw [hb, hu]
    refine ⟨⟨le_refl _, by norm_num [carry]⟩, ?_⟩
    change 1000000 * (now.tv_sec + a.toNat) + 0 = _
    ring
  · have hpos' : 0 < now.tv_usec + b.toNat := by omega
    obtain ⟨husecs, hlow, hhigh⟩ := carry_spec ((now.tv_usec + b.toNat).toNat / 1000000)
      ⟨now.tv_sec + a.toNat, now.tv_usec + b.toNat⟩ hpos' (by dsimp only; omega)
    refine ⟨⟨hlow.le, ?_⟩, ?_⟩
    · unfold Timeval.usecs at husecs
      dsimp only at husecs
      omega
    · rw [husecs]
      unfold Timeval.usecs
      dsimp only
      ring

namespace Timers

variable {α τ φ κ : Type} [DecidableEq α] {s : Timers α τ φ κ} {as : List α}

/-- The loop of a check takes what has expired off the list, the last one first on the private chain. -/
theorem expire_eq {entry : τ → Option (TimerEntry φ κ)} {now : Timeval} {o : Dlist α τ} (h : Dlist.Passed o [] as)
    {p : τ → Bool} (hp : ∀ te ∈ o.entries as, ∃ e, entry te = some e ∧ e.expireTime.before now = !p te) {n : ℕ}
    (hn : as.length < n) (chain : List τ) :
    ∃ o' as', expire entry now n o chain = some (o', (Stable.front p (o.entries as)).reverse ++ chain) ∧
      Dlist.Holds o' as' ∧ o'.entries as' = Stable.rest p (o.entries as) := by
  induction as generalizing o n chain with
  | nil =>
    obtain ⟨n, rfl⟩ : ∃ m, n = m + 1 := ⟨n - 1, by omega⟩
    refine ⟨o, [], ?_, h.holds, rfl⟩
    rw [expire, h.get_nil, Option.bind_some]
    rfl
  | cons a as ih =>
    obtain ⟨n, rfl⟩ : ∃ m, n = m + 1 := ⟨n - 1, by omega⟩
    obtain ⟨o₁, k, hk, hget, hp₁, hmem₁⟩ := h.get
    rw [Dlist.entries_cons hk, List.forall_mem_cons] at hp
    obtain ⟨e, he, hexpired⟩ := hp.1
    rw [expire, hget, Option.bind_some]
    dsimp only
    rw [he, Option.bind_some, hexpired, Dlist.entries_cons hk]
    cases hpast : p k.ent with
    | true =>
      rw [Stable.front_of_past hpast, Stable.rest_of_past hpast]
      refine ⟨o₁, a :: as, rfl, hp₁.holds, ?_⟩
      rw [Dlist.entries_of_mem_eq hmem₁, Dlist.entries_cons hk]
    | false =>
      rw [Stable.front_of_not_past hpast, Stable.rest_of_not_past hpast, Bool.not_false, if_pos rfl]
      have hp₁' : Dlist.Passed o₁ ([] ++ [a]) as := hp₁
      obtain ⟨o₂, k', hk', hthis, hmem₂, hp₂, hkeeps⟩ := hp₁'.getThisSlist
      obtain rfl : k = k' := by
        rw [hmem₁] at hk'
        exact Option.some.inj (hk.symm.trans hk')
      have hout : a ∉ as := (List.nodup_cons.1 h.holds.nodup).1
      have hp₃ : Dlist.Passed (o₂.setMem a none) [] as := ⟨hp₂.holds.setMem hout none, hp₂.curr_eq, hp₂.wrapFlag_iff⟩
      have hents : (o₂.setMem a none).entries as = o.entries as := by
        have hkeeps₂ : Dlist.Keeps o₁ o₂ as := hkeeps
        rw [(hkeeps₂.trans (Dlist.keeps_setMem hout none)).entries_eq, Dlist.entries_of_mem_eq hmem₁]
      have hp' := hp.2
      rw [← hents] at hp'
      obtain ⟨o', as', hexpire, hholds, hrest⟩ := ih hp₃ hp' (Nat.lt_of_succ_lt_succ hn) (k.ent :: chain)
      rw [hents] at hexpire hrest
      refine ⟨o', as', ?_, hholds, hrest⟩
      rw [hthis, Option.bind_some]
      dsimp only
      rw [hmem₂, Option.bind_some]
      dsimp only
      rw [hexpire, List.reverse_cons, List.append_assoc]
      rfl

end Timers

namespace TimerHistory

open Timers

variable {α τ φ κ : Type} {h h' : TimerHistory α τ φ κ} {te : τ} {t : Timer φ κ}

def Shows (h : TimerHistory α τ φ κ) (te : τ) (t : Timer φ κ) : Prop :=
  ∃ e, h.timers.entry te = some e ∧ e.expireTime.Normal ∧
    t = ⟨h.serial te, e.expireTime.usecs, e.action, e.arg1, e.arg2⟩

def used (h : TimerHistory α τ φ κ) : List τ := h.timers.te.toList ++ (h.timers.chain ++ h.listed)

theorem listed_eq {as : List α} (h' : Dlist.Holds h.timers.timerlist as) : h.listed = h.timers.timerlist.entries as := by
  rw [listed, h'.nodes_eq]

theorem mem_used_of_listed (hte : te ∈ h.listed) : te ∈ h.used :=
  List.mem_append_right _ (List.mem_append_right _ hte)

theorem mem_used_of_chain (hte : te ∈ h.timers.chain) : te ∈ h.used :=
  List.mem_append_right _ (List.mem_append_left _ hte)

/-- What an entry shows does not change where it and its number do not. -/
theorem shows_congr {as : List τ} {bs : List (Timer φ κ)} (hall : List.Forall₂ h.Shows as bs)
    (hentry : ∀ te ∈ as, h'.timers.entry te = h.timers.entry te) (hserial : ∀ te ∈ as, h'.serial te = h.serial te) :
    List.Forall₂ h'.Shows as bs := by
  have hboth := (List.forall₂_and_left as bs).2 ⟨fun te (hte : te ∈ as) => hte, hall⟩
  apply hboth.imp
  rintro te t ⟨hte, e, he, hnormal, ht⟩
  refine ⟨e, (hentry te hte).trans he, hnormal, ?_⟩
  rw [hserial te hte]
  exact ht

theorem filterMap_shows {tes : List τ} {ts : List (Timer φ κ)} (hall : List.Forall₂ h.Shows tes ts) :
    tes.filterMap h.timerOf = ts := by
  induction hall with
  | nil => rfl
  | @cons te t tes ts hshows _ ih =>
    obtain ⟨e, he, -, rfl⟩ := hshows
    rw [List.filterMap_cons_some, ih]
    rw [timerOf, he]
    rfl

variable [DecidableEq φ] [DecidableEq κ]

/-- The list holds the timers that wait, and the private chain the ones that are due, the last one first. -/
structure Sound (h : TimerHistory α τ φ κ) : Prop where
  holds : ∃ as, Dlist.Holds h.timers.timerlist as
  waiting : List.Forall₂ h.Shows h.listed (alarms h.log).waiting
  due : List.Forall₂ h.Shows h.timers.chain (alarms h.log).due.reverse
  serial_nodup : (h.used.map h.serial).Nodup
  serial_lt : ∀ te ∈ h.used, h.serial te < h.issued
  live : ∀ te ∈ h.used, h.timers.entry te ≠ none
  sorted : (alarms h.log).waiting.Pairwise fun t t' => t.expiry ≤ t'.expiry
  same : ∀ t ∈ (alarms h.log).due, ∀ t' ∈ (alarms h.log).due, t.expiry = t'.expiry
  right : Trace.Throughout TimerEvent.Right h.log

theorem Sound.used_nodup (hs : h.Sound) : h.used.Nodup := List.Nodup.of_map _ hs.serial_nodup

theorem Sound.not_mem (hs : h.Sound) (hte : h.timers.entry te = none) : te ∉ h.used := fun hmem => hs.live te hmem hte

theorem Sound.empty : Sound (TimerHistory.empty : TimerHistory α τ φ κ) where
  holds := ⟨[], Dlist.create_holds⟩
  waiting := .nil
  due := .nil
  serial_nodup := List.nodup_nil
  serial_lt _ hte := absurd hte List.not_mem_nil
  live _ hte := absurd hte List.not_mem_nil
  sorted := List.Pairwise.nil
  same _ ht := absurd ht List.not_mem_nil
  right := trivial

/-- Nothing new is in use behind a step. -/
theorem Sound.shrink (hs : h.Sound) {as : List α} (hholds : Dlist.Holds h'.timers.timerlist as)
    (hused : h'.used.Subperm h.used) (hentry : ∀ te ∈ h'.used, h'.timers.entry te = h.timers.entry te)
    (hserial : h'.serial = h.serial) (hissued : h'.issued = h.issued)
    (hwaiting : List.Forall₂ h.Shows h'.listed (alarms h'.log).waiting)
    (hdue : List.Forall₂ h.Shows h'.timers.chain (alarms h'.log).due.reverse)
    (hsorted : (alarms h'.log).waiting.Pairwise fun t t' => t.expiry ≤ t'.expiry)
    (hsame : ∀ t ∈ (alarms h'.log).due, ∀ t' ∈ (alarms h'.log).due, t.expiry = t'.expiry)
    (hright : Trace.Throughout TimerEvent.Right h'.log) : h'.Sound := by
  have hserial' : ∀ te, h'.serial te = h.serial te := fun te => congrFun hserial te
  have hmem : ∀ te ∈ h'.used, te ∈ h.used := fun te hte => hused.subset hte
  refine ⟨⟨as, hholds⟩, ?_, ?_, ?_, ?_, ?_, hsorted, hsame, hright⟩
  · exact shows_congr hwaiting (fun te hte => hentry te (mem_used_of_listed hte)) fun te _ => hserial' te
  · exact shows_congr hdue (fun te hte => hentry te (mem_used_of_chain hte)) fun te _ => hserial' te
  · obtain ⟨l, hperm, hsub⟩ := hused
    rw [hserial, ← (hperm.map h.serial).nodup_iff]
    exact hs.serial_nodup.sublist (hsub.map h.serial)
  · intro te hte
    rw [hserial', hissued]
    exact hs.serial_lt te (hmem te hte)
  · intro te hte
    rw [hentry te hte]
    exact hs.live te (hmem te hte)

/-- A start that fails leaves the timers as they were. -/
theorem Sound.idle (hs : h.Sound) {timers : Timers α τ φ κ} {as : List α} (hholds : Dlist.Holds timers.timerlist as)
    (hlisted : timers.timerlist.entries as = h.listed) (hentry : timers.entry = h.timers.entry)
    (hchain : timers.chain = h.timers.chain) (hte : timers.te = h.timers.te) : Sound { h with timers := timers } := by
  have hl : TimerHistory.listed { h with timers := timers } = h.listed := (listed_eq hholds).trans hlisted
  have hu : TimerHistory.used { h with timers := timers } = h.used := by
    unfold used
    rw [hl]
    dsimp only
    rw [hchain, hte]
  refine hs.shrink hholds (by rw [hu]) (fun te _ => congrFun hentry te) rfl rfl ?_ ?_ hs.sorted hs.same hs.right
  · rw [hl]
    exact hs.waiting
  · dsimp only
    rw [hchain]
    exact hs.due

/-- A timer that starts goes behind those that are due no later. -/
theorem Sound.started (hs : h.Sound) (hte : h.timers.entry te = none) (hshows : h'.Shows te t) {p : τ → Bool}
    (hp : ∀ te' t', h.Shows te' t' → p te' = decide (t.expiry < t'.expiry)) (hserial : t.serial = h.issued)
    (hissued : h'.issued = h.issued + 1) (hlog : h'.log = .started t :: h.log)
    (hchain : h'.timers.chain = h.timers.chain) (hrunning : h'.timers.te = h.timers.te)
    (hentry' : ∀ te', te' ≠ te → h'.timers.entry te' = h.timers.entry te')
    (hserial' : ∀ te', te' ≠ te → h'.serial te' = h.serial te') {as : List α}
    (hholds : Dlist.Holds h'.timers.timerlist as)
    (hentries : h'.timers.timerlist.entries as = Stable.front p h.listed ++ te :: Stable.rest p h.listed) :
    h'.Sound := by
  have hout := hs.not_mem hte
  have hne : ∀ te' ∈ h.used, te' ≠ te := by
    rintro te' hmem rfl
    exact hout hmem
  have hlisted : h'.listed = Stable.front p h.listed ++ te :: Stable.rest p h.listed := by
    rw [listed_eq hholds, hentries]
  have hself : h'.serial te = h.issued := by
    obtain ⟨e, -, -, rfl⟩ := hshows
    exact hserial
  have hperm : h'.used.Perm (te :: h.used) := by
    have hmid : (h.timers.te.toList ++ (h.timers.chain ++ te :: h.listed)).Perm (te :: h.used) := by
      unfold used
      rw [← List.append_assoc, ← List.append_assoc]
      exact List.perm_middle
    refine List.Perm.trans ?_ hmid
    unfold used
    rw [hrunning, hchain, hlisted]
    exact ((Stable.perm_insert p h.listed te).append_left _).append_left _
  have hcongr : ∀ {tes : List τ} {ts : List (Timer φ κ)}, (∀ te' ∈ tes, te' ∈ h.used) →
      List.Forall₂ h.Shows tes ts → List.Forall₂ h'.Shows tes ts := by
    intro tes ts hsub hall
    exact shows_congr hall (fun te' hmem => hentry' te' (hne te' (hsub te' hmem)))
      fun te' hmem => hserial' te' (hne te' (hsub te' hmem))
  refine ⟨⟨as, hholds⟩, ?_, ?_, ?_, ?_, ?_, ?_, ?_, ?_⟩
  · rw [hlisted, hlog]
    apply List.rel_append
    · apply hcongr _ (Stable.forall₂_front hs.waiting hp)
      exact fun te' hmem => mem_used_of_listed (Stable.mem_of_mem_front hmem)
    · apply List.Forall₂.cons hshows
      apply hcongr _ (Stable.forall₂_rest hs.waiting hp)
      exact fun te' hmem => mem_used_of_listed (Stable.mem_of_mem_rest hmem)
  · rw [hchain, hlog]
    exact hcongr (fun te' hmem => mem_used_of_chain hmem) hs.due
  · rw [(hperm.map h'.serial).nodup_iff, List.map_cons, List.nodup_cons, hself]
    have hmap : h.used.map h'.serial = h.used.map h.serial :=
      List.map_congr_left fun te' hmem => hserial' te' (hne te' hmem)
    rw [hmap]
    refine ⟨?_, hs.serial_nodup⟩
    intro hmem
    obtain ⟨te', hmem, heq⟩ := List.mem_map.1 hmem
    exact absurd (hs.serial_lt te' hmem) (by rw [heq]; exact lt_irrefl _)
  · intro te' hmem
    rw [hissued]
    rcases List.mem_cons.1 (hperm.mem_iff.1 hmem) with rfl | hmem
    · rw [hself]
      exact Nat.lt_succ_self _
    · rw [hserial' te' (hne te' hmem)]
      exact Nat.lt_succ_of_lt (hs.serial_lt te' hmem)
  · intro te' hmem
    rcases List.mem_cons.1 (hperm.mem_iff.1 hmem) with rfl | hmem
    · obtain ⟨e, he, -⟩ := hshows
      rw [he]
      exact Option.some_ne_none e
    · rw [hentry' te' (hne te' hmem)]
      exact hs.live te' hmem
  · rw [hlog]
    apply Stable.pairwise_insert hs.sorted
    · intro a _ b _ hab ha
      rw [decide_eq_true_iff] at ha ⊢
      exact lt_of_lt_of_le ha hab
    · intro a _ ha
      rw [decide_eq_false_iff_not] at ha
      exact not_lt.1 ha
    · intro a _ ha
      rw [decide_eq_true_iff] at ha
      exact ha.le
  · rw [hlog]
    exact hs.same
  · rw [hlog]
    exact ⟨trivial, hs.right⟩

/-- What `dist_TimerStart` compares. -/
def later (new : TimerEntry φ κ) (entry : τ → Option (TimerEntry φ κ)) (te : τ) : Bool :=
  ((entry te).map fun p => new.expireTime.before p.expireTime).getD false

/-- The entry of a timer matches when the timer does. -/
def hits (entry : τ → Option (TimerEntry φ κ)) (f : φ) (a b : κ) (te : τ) : Bool :=
  ((entry te).map (TimerEntry.matches f a b)).getD false

theorem Shows.hits_eq (hshows : h.Shows te t) (f : φ) (a b : κ) : hits h.timers.entry f a b te = t.matches f a b := by
  obtain ⟨e, he, -, rfl⟩ := hshows
  rw [hits, he]
  rfl

variable [DecidableEq α] [DecidableEq τ]

theorem Sound.start (hs : h.Sound) {te : Option τ} {temp : Option α} {now : Timeval} {f : φ} {a b : BitVec 64} {c d : κ}
    (hallowed : h.Allowed (.start te temp now f a b c d)) (hmeets : h.Meets (.start te temp now f a b c d)) :
    ∃ h', h.step (.start te temp now f a b c d) = some h' ∧ h'.Sound := by
  obtain ⟨hte, htemp, hnow, -⟩ := hallowed
  obtain ⟨hnormal, husecs⟩ := expireTime_spec hnow hmeets
  obtain ⟨as, hholds⟩ := hs.holds
  have hlisted := listed_eq hholds
  cases te with
  | none => exact ⟨_, rfl, hs⟩
  | some te =>
    have hnone : h.timers.entry te = none := hte te rfl
    have hout := hs.not_mem hnone
    generalize hnew : (⟨now, expireTime now a b, c, d, f, a, b⟩ : TimerEntry φ κ) = new
    have htest : ∀ te' ∈ h.timers.timerlist.entries as,
        ((Function.update h.timers.entry te (some new) te').map fun p => new.expireTime.before p.expireTime) =
          some (later new h.timers.entry te') := by
      intro te' hmem
      rw [← hlisted] at hmem
      have hmem := mem_used_of_listed hmem
      obtain ⟨e, he⟩ := Option.ne_none_iff_exists'.1 (hs.live te' hmem)
      have hne : te' ≠ te := by
        rintro rfl
        exact hout hmem
      rw [Function.update_of_ne hne, later, he]
      rfl
    have hplace_eq : ∀ {o : Dlist α τ} {ret : Status},
        h.timers.timerlist.place (fun pe => (Function.update h.timers.entry te (some new) pe).map fun p =>
          new.expireTime.before p.expireTime) temp te = some (o, ret) →
        h.timers.timerStart (some te) temp now f a b c d =
          some (if ret = .good
            then ({ h.timers.set te (some new) with timerlist := o.reset, lastKnownTime := now }, .good)
            else (Timers.set { h.timers.set te (some new) with timerlist := o.reset, lastKnownTime := now } te none,
              .bad)) := by
      intro o ret hplace
      rw [Timers.timerStart]
      dsimp only
      rw [hnew]
      have hplace' : (h.timers.set te (some new)).timerlist.place
          (fun pe => ((h.timers.set te (some new)).entry pe).map fun p => new.expireTime.before p.expireTime) temp te =
            some (o, ret) := hplace
      have hexpire : new.expireTime = expireTime now a b := by rw [← hnew]
      rw [hexpire] at hplace'
      rw [hplace']
      rfl
    cases temp with
    | none =>
      obtain ⟨o, hplace, hholds', hmem⟩ := hholds.place_none te htest
      refine ⟨{ h with timers := Timers.set { h.timers.set te (some new) with
        timerlist := o.reset, lastKnownTime := now } te none }, ?_, hs.idle hholds'.reset.holds ?_ ?_ rfl rfl⟩
      · rw [step, hplace_eq hplace]
        rfl
      · rw [hlisted]
        exact Dlist.entries_of_mem_eq hmem as
      · change Function.update (Function.update h.timers.entry te (some new)) te none = _
        rw [Function.update_idem, ← hnone, Function.update_eq_self]
    | some temp =>
      obtain ⟨o, as', hplace, hholds', hentries⟩ := hholds.place (htemp temp rfl) te htest
      refine ⟨⟨{ h.timers.set te (some new) with timerlist := o.reset, lastKnownTime := now },
        Function.update h.serial te h.issued, h.issued + 1,
        .started ⟨h.issued, now.usecs + 1000000 * a.toNat + b.toNat, f, c, d⟩ :: h.log⟩, ?_, ?_⟩
      · rw [step, hplace_eq hplace]
        rfl
      · refine hs.started hnone (p := later new h.timers.entry) ⟨new, Function.update_self _ _ _, ?_, ?_⟩ ?_ rfl rfl rfl rfl
          rfl (fun te' hne => Function.update_of_ne hne _ _) (fun te' hne => Function.update_of_ne hne _ _)
          hholds'.reset.holds ?_
        · rw [← hnew]
          exact hnormal
        · rw [← hnew, ← husecs]
          dsimp only
          rw [Function.update_self]
        · rintro te' t' ⟨e, he, hnormal', rfl⟩
          have hnew_normal : new.expireTime.Normal := by
            rw [← hnew]
            exact hnormal
          have hnew_usecs : new.expireTime.usecs = now.usecs + 1000000 * a.toNat + b.toNat := by
            rw [← hnew]
            exact husecs
          rw [later, he, Bool.eq_iff_iff, decide_eq_true_iff, ← hnew_usecs]
          exact Timeval.before_iff hnew_normal hnormal'
        · rw [hlisted]
          exact hentries

theorem Sound.stop (hs : h.Sound) {f : φ} {a b : κ} (hmeets : h.Meets (.stop f a b)) :
    ∃ h', h.step (.stop f a b) = some h' ∧ h'.Sound := by
  obtain ⟨as, hholds⟩ := hs.holds
  have hlisted := listed_eq hholds
  have htest : ∀ te ∈ h.timers.timerlist.entries as,
      ((h.timers.entry te).map fun e => e.matches f a b) = some (hits h.timers.entry f a b te) := by
    intro te hte
    rw [← hlisted] at hte
    obtain ⟨e, he⟩ := Option.ne_none_iff_exists'.1 (hs.live te (mem_used_of_listed hte))
    rw [hits, he]
    rfl
  obtain ⟨o, as', hpull, hholds', hentries⟩ := hholds.pull htest
  rw [← hlisted] at hpull hentries
  have hdue : (alarms h.log).due.any (Timer.matches f a b) = false := by
    rw [List.any_eq_false]
    intro t ht
    obtain ⟨te, hte, e, he, -, rfl⟩ := Stable.forall₂_exists_right hs.due t (List.mem_reverse.2 ht)
    exact hmeets te hte e he
  have halarms : alarms (.stopped f a b :: h.log) =
      { alarms h.log with waiting := (alarms h.log).waiting.eraseP (Timer.matches f a b) } := by
    rw [alarms, Alarms.after, hdue, if_neg Bool.false_ne_true]
  have hwaiting : List.Forall₂ h.Shows (h.listed.eraseP (hits h.timers.entry f a b))
      (alarms (.stopped f a b :: h.log)).waiting := by
    rw [halarms]
    exact Stable.forall₂_eraseP hs.waiting fun te t hshows => hshows.hits_eq f a b
  have hsorted : (alarms (.stopped f a b :: h.log)).waiting.Pairwise fun t t' => t.expiry ≤ t'.expiry := by
    rw [halarms]
    exact hs.sorted.sublist List.eraseP_sublist
  have hright : Trace.Throughout TimerEvent.Right (.stopped f a b :: h.log) := ⟨trivial, hs.right⟩
  have hdue' : (alarms (.stopped f a b :: h.log)).due = (alarms h.log).due := by rw [halarms]
  cases hfind : h.listed.find? (hits h.timers.entry f a b) with
  | none =>
    rw [hfind] at hpull
    generalize hh' : (⟨{ h.timers with timerlist := o }, h.serial, h.issued, .stopped f a b :: h.log⟩ :
      TimerHistory α τ φ κ) = h'
    have hholds'' : Dlist.Holds h'.timers.timerlist as' := by
      rw [← hh']
      exact hholds'
    have hl : h'.listed = h.listed.eraseP (hits h.timers.entry f a b) := by
      rw [listed_eq hholds'', ← hentries, ← hh']
    have hlog : h'.log = .stopped f a b :: h.log := by rw [← hh']
    refine ⟨h', ?_, ?_⟩
    · rw [step, Timers.timerStop, hpull, ← hh']
      rfl
    · apply hs.shrink hholds'' _ (fun _ _ => by rw [← hh']) (by rw [← hh']) (by rw [← hh']) _ _
        (by rw [hlog]; exact hsorted) _ (by rw [hlog]; exact hright)
      · unfold used
        rw [hl, ← hh']
        apply List.Sublist.subperm
        exact (List.eraseP_sublist.append_left _).append_left _
      · rw [hl, hlog]
        exact hwaiting
      · rw [hlog, hdue', ← hh']
        exact hs.due
      · rw [hlog, hdue']
        exact hs.same
  | some te =>
    rw [hfind] at hpull
    obtain ⟨hhit, s, r, hsplit, hbefore⟩ := List.find?_eq_some_iff_append.1 hfind
    have herase : h.listed.eraseP (hits h.timers.entry f a b) = s ++ r := by
      rw [hsplit, List.eraseP_append_right, List.eraseP_cons_of_pos hhit]
      intro te' hte'
      have hnot := hbefore te' hte'
      simpa using hnot
    generalize hh' : (⟨Timers.set { h.timers with timerlist := o } te none, h.serial, h.issued,
      .stopped f a b :: h.log⟩ : TimerHistory α τ φ κ) = h'
    have hholds'' : Dlist.Holds h'.timers.timerlist as' := by
      rw [← hh']
      exact hholds'
    have hl : h'.listed = s ++ r := by
      rw [listed_eq hholds'', ← herase, ← hentries, ← hh']
      rfl
    have hu : h.used.Perm (te :: h'.used) := by
      have hrunning : h'.timers.te = h.timers.te := by rw [← hh']; rfl
      have hchain : h'.timers.chain = h.timers.chain := by rw [← hh']; rfl
      unfold used
      rw [hl, hsplit, hrunning, hchain, ← List.append_assoc, ← List.append_assoc, ← List.append_assoc,
        ← List.append_assoc]
      exact List.perm_middle
    refine ⟨h', ?_, ?_⟩
    · rw [step, Timers.timerStop, hpull, ← hh']
      dsimp only [Option.map_some, Option.bind_some]
      rw [if_neg (not_not_intro rfl)]
      rfl
    · have hlog : h'.log = .stopped f a b :: h.log := by rw [← hh']
      have hout := (List.nodup_cons.1 (hu.nodup_iff.1 hs.used_nodup)).1
      apply hs.shrink hholds'' _ _ (by rw [← hh']) (by rw [← hh']) _ _ (by rw [hlog]; exact hsorted) _
        (by rw [hlog]; exact hright)
      · exact (List.sublist_cons_self te h'.used).subperm.trans hu.symm.subperm
      · intro te' hte'
        rw [← hh']
        apply Function.update_of_ne
        rintro rfl
        exact hout hte'
      · rw [hl, hlog, ← herase]
        exact hwaiting
      · rw [hlog, hdue', ← hh']
        exact hs.due
      · rw [hlog, hdue']
        exact hs.same

theorem Sound.check (hs : h.Sound) {now : Timeval} (hallowed : h.Allowed (.check now)) (hmeets : h.Meets (.check now)) :
    ∃ h', h.step (.check now) = some h' ∧ h'.Sound := by
  obtain ⟨hchain, hrunning, hnow, -⟩ := hallowed
  obtain ⟨as, hholds⟩ := hs.holds
  have hlisted := listed_eq hholds
  generalize hp : (fun te => !((h.timers.entry te).map fun e => e.expireTime.before now).getD false) = p
  have hpe : ∀ te e, h.timers.entry te = some e → e.expireTime.before now = !p te := by
    intro te e he
    rw [← hp]
    dsimp only
    rw [he]
    simp
  have htest : ∀ te ∈ h.timers.timerlist.reset.entries as,
      ∃ e, h.timers.entry te = some e ∧ e.expireTime.before now = !p te := by
    intro te hte
    have hte : te ∈ h.timers.timerlist.entries as := hte
    rw [← hlisted] at hte
    obtain ⟨e, he⟩ := Option.ne_none_iff_exists'.1 (hs.live te (mem_used_of_listed hte))
    exact ⟨e, he, hpe te e he⟩
  have hlen : as.length < h.timers.timerlist.cntIn.toNat + 1 := by
    rw [hholds.cntIn_eq]
    omega
  obtain ⟨o, as', hexpire, hholds', hentries⟩ := Timers.expire_eq hholds.reset htest hlen h.timers.chain
  have hents : h.timers.timerlist.reset.entries as = h.listed := hlisted.symm
  rw [hents] at hexpire hentries
  rw [hchain, List.append_nil] at hexpire
  have hshows : ∀ te t, h.Shows te t → p te = decide (now.usecs ≤ t.expiry) := by
    rintro te t ⟨e, he, hnormal, rfl⟩
    rw [← Bool.not_inj_iff, ← hpe te e he, Bool.eq_iff_iff, Timeval.before_iff hnormal hnow]
    simp
  have hdue : (alarms h.log).due = [] := by
    have hall := hs.due
    rw [hchain, List.forall₂_nil_left_iff, List.reverse_eq_nil_iff] at hall
    exact hall
  have hpast : ∀ t ∈ (alarms h.log).waiting, ∀ t' ∈ (alarms h.log).waiting, t.expiry ≤ t'.expiry →
      decide (now.usecs ≤ t.expiry) = true → decide (now.usecs ≤ t'.expiry) = true := by
    intro t _ t' _ hle ht
    rw [decide_eq_true_iff] at ht ⊢
    exact ht.trans hle
  have hkept : (alarms h.log).waiting.filter (fun t => decide (now.usecs ≤ t.expiry)) =
      Stable.rest (fun t => decide (now.usecs ≤ t.expiry)) (alarms h.log).waiting := Stable.filter_past hs.sorted hpast
  have hgone : (alarms h.log).waiting.filter (fun t => !decide (now.usecs ≤ t.expiry)) =
      Stable.front (fun t => decide (now.usecs ≤ t.expiry)) (alarms h.log).waiting :=
    Stable.filter_not_past hs.sorted hpast
  have halarms : alarms (.checked now.usecs :: h.log) =
      ⟨Stable.rest (fun t => decide (now.usecs ≤ t.expiry)) (alarms h.log).waiting,
        Stable.front (fun t => decide (now.usecs ≤ t.expiry)) (alarms h.log).waiting⟩ := by
    rw [alarms, Alarms.after, hdue, List.nil_append, hkept, ← hgone]
    congr 2
    funext t
    rw [Bool.eq_iff_iff]
    simp
  refine ⟨⟨{ h.timers with timerlist := o, chain := (Stable.front p h.listed).reverse, lastKnownTime := now }, h.serial,
    h.issued, .checked now.usecs :: h.log⟩, ?_, ?_⟩
  · rw [step, Timers.checkTimeOutList, hchain, hexpire]
    rfl
  · generalize hh' : (⟨{ h.timers with timerlist := o, chain := (Stable.front p h.listed).reverse, lastKnownTime := now },
      h.serial, h.issued, .checked now.usecs :: h.log⟩ : TimerHistory α τ φ κ) = h'
    have hholds'' : Dlist.Holds h'.timers.timerlist as' := by
      rw [← hh']
      exact hholds'
    have hl : h'.listed = Stable.rest p h.listed := by
      rw [listed_eq hholds'', ← hentries, ← hh']
    have hlog : h'.log = .checked now.usecs :: h.log := by rw [← hh']
    have hc : h'.timers.chain = (Stable.front p h.listed).reverse := by rw [← hh']
    have hr : h'.timers.te = none := by
      rw [← hh']
      exact hrunning
    have hfront := Stable.forall₂_front hs.waiting hshows
    apply hs.shrink hholds'' _ (fun te _ => by rw [← hh']) (by rw [← hh']) (by rw [← hh'])
    · rw [hl, hlog, halarms]
      exact Stable.forall₂_rest hs.waiting hshows
    · rw [hc, hlog, halarms]
      exact List.rel_reverse hfront
    · rw [hlog, halarms]
      exact hs.sorted.sublist (List.dropWhile_sublist _)
    · rw [hlog, halarms]
      have hexpiry : ∀ t ∈ Stable.front (fun t : Timer φ κ => decide (now.usecs ≤ t.expiry)) (alarms h.log).waiting,
          ∃ te ∈ h.listed, ∃ e, h.timers.entry te = some e ∧ e.expireTime.before now ∧ t.expiry = e.expireTime.usecs := by
        intro t ht
        obtain ⟨te, hte, e, he, -, rfl⟩ := Stable.forall₂_exists_right hfront t ht
        refine ⟨te, Stable.mem_of_mem_front hte, e, he, ?_, rfl⟩
        rw [hpe te e he, Stable.not_past_of_mem_front hte]
        rfl
      intro t ht t' ht'
      obtain ⟨te, hte, e, he, hbefore, hexp⟩ := hexpiry t ht
      obtain ⟨te', hte', e', he', hbefore', hexp'⟩ := hexpiry t' ht'
      rw [hexp, hexp', hmeets te hte te' hte' e he e' he' hbefore hbefore']
    · rw [hlog]
      exact ⟨hdue, hs.right⟩
    · apply List.Perm.subperm
      unfold used
      rw [hr, hc, hl, hrunning, hchain]
      refine (List.Perm.append_right _ (List.reverse_perm _)).trans ?_
      rw [Stable.front_append_rest]
      exact List.Perm.refl _

theorem Sound.call (hs : h.Sound) (hallowed : h.Allowed .call) : ∃ h', h.step .call = some h' ∧ h'.Sound := by
  obtain ⟨hrunning, hne⟩ := hallowed
  obtain ⟨te, chain, hchain⟩ := List.exists_cons_of_ne_nil hne
  have hdue := hs.due
  rw [hchain] at hdue
  obtain ⟨t, ts, hshows, htail, hreverse⟩ := List.forall₂_cons_left_iff.1 hdue
  have hsplit : (alarms h.log).due = ts.reverse ++ [t] := by
    rw [← List.reverse_reverse (alarms h.log).due, hreverse, List.reverse_cons]
  have hserial : t.serial = h.serial te := by
    obtain ⟨e, -, -, rfl⟩ := hshows
    rfl
  obtain ⟨as, hholds⟩ := hs.holds
  have hused : h.used = te :: (chain ++ h.listed) := by
    rw [used, hrunning, hchain]
    rfl
  have hother : ∀ t' ∈ ts, t'.serial ≠ h.serial te := by
    intro t' ht' heq
    obtain ⟨te', hte', e', -, -, rfl⟩ := Stable.forall₂_exists_right htail t' ht'
    have hnodup := hs.serial_nodup
    rw [hused, List.map_cons, List.nodup_cons] at hnodup
    apply hnodup.1
    rw [List.mem_map]
    exact ⟨te', List.mem_append_left _ hte', heq⟩
  have halarms : alarms (.called (h.serial te) :: h.log) = { alarms h.log with due := ts.reverse } := by
    rw [alarms, Alarms.after, hsplit, List.filter_append, List.filter_eq_self.2, List.filter_eq_nil_iff.2,
      List.append_nil]
    · intro t' ht'
      rw [List.mem_singleton] at ht'
      rw [ht', hserial]
      simp
    · intro t' ht'
      rw [decide_eq_true_iff]
      exact hother t' (List.mem_reverse.1 ht')
  have hmem : t ∈ (alarms h.log).due := by
    rw [hsplit]
    exact List.mem_append_right _ List.mem_cons_self
  obtain ⟨e, he⟩ := Option.ne_none_iff_exists'.1 (hs.live te (by rw [hused]; exact List.mem_cons_self))
  refine ⟨⟨{ h.timers with chain := chain, te := some te }, h.serial, h.issued, .called (h.serial te) :: h.log⟩, ?_, ?_⟩
  · rw [step, Timers.call, hchain]
    dsimp only
    rw [he]
    rfl
  · generalize hh' : (⟨{ h.timers with chain := chain, te := some te }, h.serial, h.issued,
      .called (h.serial te) :: h.log⟩ : TimerHistory α τ φ κ) = h'
    have hlog : h'.log = .called (h.serial te) :: h.log := by rw [← hh']
    have hholds' : Dlist.Holds h'.timers.timerlist as := by
      rw [← hh']
      exact hholds
    have hl : h'.listed = h.listed := by rw [← hh']; rfl
    apply hs.shrink hholds' _ (fun _ _ => by rw [← hh']) (by rw [← hh']) (by rw [← hh'])
    · rw [hl, hlog, halarms]
      exact hs.waiting
    · rw [hlog, halarms, List.reverse_reverse, ← hh']
      exact htail
    · rw [hlog, halarms]
      exact hs.sorted
    · rw [hlog, halarms]
      intro t₁ ht₁ t₂ ht₂
      apply hs.same
      · rw [hsplit]
        exact List.mem_append_left _ ht₁
      · rw [hsplit]
        exact List.mem_append_left _ ht₂
    · rw [hlog]
      refine ⟨⟨t, hmem, hserial, ?_⟩, hs.right⟩
      intro t' ht'
      exact (hs.same t hmem t' ht').le
    · apply List.Perm.subperm
      rw [hused, used, hl, ← hh']
      exact List.Perm.refl _

theorem Sound.back (hs : h.Sound) (hallowed : h.Allowed .back) : ∃ h', h.step .back = some h' ∧ h'.Sound := by
  obtain ⟨te, hte⟩ := Option.ne_none_iff_exists'.1 hallowed
  obtain ⟨as, hholds⟩ := hs.holds
  have hused : h.used = te :: (h.timers.chain ++ h.listed) := by
    rw [used, hte]
    rfl
  have hnodup := hs.used_nodup
  rw [hused, List.nodup_cons] at hnodup
  refine ⟨⟨{ h.timers.set te none with te := none }, h.serial, h.issued, h.log⟩, ?_, ?_⟩
  · rw [step, Timers.back, hte]
    rfl
  · refine hs.shrink hholds ?_ ?_ rfl rfl hs.waiting hs.due hs.sorted hs.same hs.right
    · rw [hused]
      exact (List.sublist_cons_self te _).subperm
    · intro te' hmem
      apply Function.update_of_ne
      rintro rfl
      exact hnodup.1 hmem

theorem Sound.step {op : TimerOp α τ φ κ} (hs : h.Sound) (hallowed : h.Allowed op) (hmeets : h.Meets op) :
    ∃ h', h.step op = some h' ∧ h'.Sound := by
  cases op with
  | start te temp now f a b c d => exact hs.start hallowed hmeets
  | stop f a b => exact hs.stop hmeets
  | check now => exact hs.check hallowed hmeets
  | call => exact hs.call hallowed
  | back => exact hs.back hallowed

omit [DecidableEq α] [DecidableEq τ] in
theorem Sound.exact (hs : h.Sound) : h.Exact where
  waiting_eq := filterMap_shows hs.waiting
  sorted := hs.sorted
  normal te hte := by
    obtain ⟨t, -, e, he, hnormal, -⟩ := Stable.forall₂_exists_left hs.waiting te hte
    exact ⟨e, he, hnormal⟩
  right := hs.right
  finished hchain := by
    have hall := hs.due
    rw [hchain, List.forall₂_nil_left_iff, List.reverse_eq_nil_iff] at hall
    exact hall

/-- In every run whose steps meet the conditions, nothing fails, `timerlist` is sorted and holds the timers that were
neither stopped nor found expired, and every timer that expires is run, once and in order, unless it is stopped. -/
theorem alarms_exact {ops : List (TimerOp α τ φ κ)} (hallowed : Trace.Along TimerHistory.step Allowed .empty ops)
    (hmeets : Trace.Along TimerHistory.step Meets .empty ops) :
    ∃ h : TimerHistory α τ φ κ, Trace.run TimerHistory.step .empty ops = some h ∧ h.Exact := by
  obtain ⟨h, hrun, hs⟩ := Trace.run_progress Sound (fun h op hs hok => hs.step hok.1 hok.2) Sound.empty
    (hallowed.and hmeets)
  exact ⟨h, hrun, hs.exact⟩

/-- A timer starts another one and stops a third. -/
def chainedTimers : List (TimerOp ℕ ℕ ℕ ℕ) :=
  [.start (some 0) (some 0) ⟨10, 0⟩ 7 1 0 1 0, .start (some 1) (some 1) ⟨10, 0⟩ 7 2 500000 2 0, .check ⟨11, 500000⟩,
    .call, .start (some 2) (some 2) ⟨11, 500001⟩ 7 0 250000 3 0, .stop 7 2 0, .back, .check ⟨13, 0⟩, .call, .back]

theorem alarms_exact_chained :
    ∃ h : TimerHistory ℕ ℕ ℕ ℕ, Trace.run TimerHistory.step .empty chainedTimers = some h ∧ h.Exact :=
  alarms_exact (by decide +kernel) (by decide +kernel)

def twoExpired : List (TimerOp ℕ ℕ ℕ ℕ) :=
  [.start (some 0) (some 0) ⟨10, 0⟩ 7 1 0 1 0, .start (some 1) (some 1) ⟨10, 0⟩ 7 2 0 2 0, .check ⟨15, 0⟩, .call]

/-- The later one is run first. -/
theorem not_alarms_exact : ¬ ∀ ops : List (TimerOp ℕ ℕ ℕ ℕ), Trace.Along TimerHistory.step Allowed .empty ops →
    ∃ h : TimerHistory ℕ ℕ ℕ ℕ, Trace.run TimerHistory.step .empty ops = some h ∧ h.Exact := by
  intro hall
  obtain ⟨h, hrun, hexact⟩ := hall twoExpired (by decide +kernel)
  have hlog : (Trace.run TimerHistory.step .empty twoExpired).map TimerHistory.log =
      some [.called 1, .checked 15000000, .started ⟨1, 12000000, 7, 2, 0⟩, .started ⟨0, 11000000, 7, 1, 0⟩] := by
    decide +kernel
  rw [hrun, Option.map_some] at hlog
  have hright := hexact.right
  rw [Option.some.inj hlog] at hright
  exact absurd hright.1 (by decide)

end TimerHistory

end Sctp.Distributor
