import Sctp.Lib.Trace
import Mathlib.Data.BitVec
import Mathlib.Data.List.Nodup
import Mathlib.Tactic

/-! The takeover of a peer registrar, `takeover.c` of the ENRP server. -/
namespace Sctp.Enrp

/-- `rsIdentifier` of a registrar. -/
abbrev ServerId := BitVec 32

/-- `struct takeover_struct`. The last three fields are no fields of the source: the registrars that
were to be waited for, those that have acknowledged, and whether the timer has expired. -/
structure Takeover where
  targetServerId : ServerId
  listSize : ℕ
  /-- Zero where nothing was entered yet. -/
  ackedServers : List ServerId
  ackedServerCount : ℕ
  awaited : List ServerId
  acked : List ServerId
  expired : Bool
deriving DecidableEq, Repr

structure TakeoverRun where
  address : ℕ
  takeover : Takeover
deriving DecidableEq, Repr

/-- The registrar as far as takeovers go. A takeover is known by its address; nothing is at the
address of one that was freed. -/
structure Registrars where
  ownId : ServerId
  /-- `registrarServerList`, by `rsIdentifier`. -/
  servers : List ServerId
  takeovers : ℕ → Option Takeover
  /-- `takeoverList` -/
  takeoverList : List ℕ
  /-- Takeovers whose `expireTimer` runs. -/
  timers : List ℕ
  /-- Address of the next takeover. -/
  fresh : ℕ
  /-- The runs of `takeoverDoTakeover`, no field of the source. -/
  log : List TakeoverRun

namespace Registrars

/-- The registrars to wait for: all but ourselves and the target. -/
def others (s : Registrars) (target : ServerId) : List ServerId :=
  s.servers.filter fun x => !(x == s.ownId || x == target)

/-- The loop that counts them; it ends at the last one, which is not counted. -/
def registrarCount (s : Registrars) (target : ServerId) : ℕ :=
  s.servers.dropLast.countP fun x => !(x == s.ownId || x == target)

def takeoverNew (s : Registrars) (target : ServerId) : Registrars :=
  if target = s.ownId then s
  else if target ∉ s.servers then s
  else
    let size := s.registrarCount target
    { s with
      takeovers := Function.update s.takeovers s.fresh (some
        { targetServerId := target, listSize := size, ackedServers := List.replicate size 0
          ackedServerCount := 0, awaited := s.others target, acked := [], expired := false })
      takeoverList := s.fresh :: s.takeoverList
      timers := s.fresh :: s.timers
      fresh := s.fresh + 1 }

def takeoverDelete (s : Registrars) (a : ℕ) : Registrars :=
  { s with
    takeovers := Function.update s.takeovers a none
    takeoverList := s.takeoverList.erase a
    timers := s.timers.erase a }

/-- `takeoverDoTakeover`, the pool elements apart. Nothing when the takeover was freed. -/
def takeoverDoTakeover (s : Registrars) (a : ℕ) : Option Registrars :=
  (s.takeovers a).map fun t =>
    let s' := { s with log := ⟨a, t⟩ :: s.log }
    if t.targetServerId ∉ s.servers then s'
    else { s'.takeoverDelete a with servers := s.servers.erase t.targetServerId }

/-- The loop of `takeoverAckServer`: the entries behind it, how many were filled, and whether it
returned because the server is there already. -/
def ackLoop (serverId : ServerId) : List ServerId → List ServerId × ℕ × Bool
  | [] => ([], 0, false)
  | x :: xs =>
    if x = serverId then (x :: xs, 0, true)
    else if x = 0 then
      ((serverId :: (ackLoop serverId xs).1), (ackLoop serverId xs).2.1 + 1, (ackLoop serverId xs).2.2)
    else (x :: (ackLoop serverId xs).1, (ackLoop serverId xs).2)

def ackTakeover (t : Takeover) (serverId : ServerId) : Takeover :=
  { t with
    ackedServers := (ackLoop serverId t.ackedServers).1
    ackedServerCount := t.ackedServerCount + (ackLoop serverId t.ackedServers).2.1
    acked := t.acked.insert serverId }

def takeoverAckServer (s : Registrars) (a : ℕ) (serverId : ServerId) : Option Registrars :=
  (s.takeovers a).bind fun t =>
    if serverId ∉ s.servers then some s
    else
      let t' := ackTakeover t serverId
      let s' := { s with takeovers := Function.update s.takeovers a (some t') }
      if (ackLoop serverId t.ackedServers).2.2 then some s'
      else if t'.listSize = t'.ackedServerCount then s'.takeoverDoTakeover a
      else some s'

/-- `takeoverLookup`; every takeover on the way is looked at. -/
def takeoverLookup (s : Registrars) (target : ServerId) : List ℕ → Option (Option ℕ)
  | [] => some none
  | a :: as =>
    (s.takeovers a).bind fun t =>
      if t.targetServerId = target then some (some a) else s.takeoverLookup target as

end Registrars

open Registrars

inductive TakeoverEvent where
  | takeoverNew (target : ServerId)
  /-- An acknowledgement of the takeover of `target` by a server. -/
  | ack (target serverId : ServerId)
  /-- The timer of a takeover expires. -/
  | expire (a : ℕ)
deriving DecidableEq, Repr

/-- Nothing when memory is used that was freed. -/
def takeoverStep (s : Registrars) : TakeoverEvent → Option Registrars
  | .takeoverNew target => some (s.takeoverNew target)
  | .ack target serverId =>
    (s.takeoverLookup target s.takeoverList).bind fun found =>
      match found with
      | none => some s
      | some a => s.takeoverAckServer a serverId
  | .expire a =>
    if a ∈ s.timers then
      (s.takeovers a).bind fun t =>
        takeoverDoTakeover
          { s with
            timers := s.timers.erase a
            takeovers := Function.update s.takeovers a (some { t with expired := true }) } a
    else some s

def takeoverRun : Registrars → List TakeoverEvent → Option Registrars := Trace.run takeoverStep

def TakeoverRun.Waited (r : TakeoverRun) : Prop :=
  r.takeover.expired = true ∨ ∀ x ∈ r.takeover.awaited, x ∈ r.takeover.acked

namespace Registrars

def runs (s : Registrars) (a : ℕ) : ℕ := (s.log.map TakeoverRun.address).count a

/-- Takeovers wait for every peer, each is run exactly once and is then gone, and until then the
count of acknowledgements is right. -/
structure Careful (s : Registrars) : Prop where
  waited : ∀ r ∈ s.log, r.Waited
  once : ∀ a < s.fresh, (s.takeovers a = none ∧ s.runs a = 1) ∨
    ((s.takeovers a).isSome ∧ a ∈ s.timers ∧ s.runs a = 0)
  counted : ∀ a, ∀ t ∈ s.takeovers a, t.ackedServerCount = t.acked.length

structure Untouched (s : Registrars) (t : Takeover) : Prop where
  known : t.targetServerId ∈ s.servers
  size : t.listSize ≤ t.awaited.length
  nodup : t.awaited.Nodup
  empty : t.ackedServers = List.replicate t.listSize 0
  count : t.ackedServerCount = 0
  acked : t.acked = []

structure Sound (s : Registrars) : Prop where
  servers : s.servers.Nodup
  list : s.takeoverList.Nodup
  mem_list : ∀ a, a ∈ s.takeoverList ↔ (s.takeovers a).isSome
  timers : s.timers.Nodup
  mem_timers : ∀ a, a ∈ s.timers ↔ (s.takeovers a).isSome
  fresh : ∀ a, s.fresh ≤ a → s.takeovers a = none ∧ s.runs a = 0
  untouched : ∀ a, ∀ t ∈ s.takeovers a, s.Untouched t
  target : ∀ a b t u, s.takeovers a = some t → s.takeovers b = some u →
    t.targetServerId = u.targetServerId → a = b
  careful : s.Careful

theorem Sound.lookup {s : Registrars} (h : s.Sound) (target : ServerId) :
    s.takeoverLookup target s.takeoverList = some none ∨
      ∃ a t, s.takeoverLookup target s.takeoverList = some (some a) ∧ a ∈ s.takeoverList ∧
        s.takeovers a = some t ∧ t.targetServerId = target := by
  have hall : ∀ a ∈ s.takeoverList, (s.takeovers a).isSome := fun a ha => (h.mem_list a).1 ha
  suffices ∀ as : List ℕ, (∀ a ∈ as, a ∈ s.takeoverList) →
      s.takeoverLookup target as = some none ∨
        ∃ a t, s.takeoverLookup target as = some (some a) ∧ a ∈ s.takeoverList ∧
          s.takeovers a = some t ∧ t.targetServerId = target from
    this s.takeoverList fun _ ha => ha
  intro as
  induction as with
  | nil => exact fun _ => .inl rfl
  | cons a as ih =>
    intro hin
    have ha := hin a List.mem_cons_self
    obtain ⟨t, ht⟩ := Option.isSome_iff_exists.1 (hall a ha)
    rw [takeoverLookup, ht, Option.bind_some]
    split
    · rename_i htarget
      exact .inr ⟨a, t, rfl, ha, ht, htarget⟩
    · exact ih fun b hb => hin b (List.mem_cons_of_mem _ hb)

/-- The takeover is run: it is gone, and its target with it. -/
theorem Sound.finish {s : Registrars} (h : s.Sound) {a : ℕ} {t t' : Takeover} {timers : List ℕ}
    (ha : s.takeovers a = some t) (htimers : timers.Nodup)
    (hmem : ∀ b, b ∈ timers ↔ b ≠ a ∧ b ∈ s.timers) (hwaited : TakeoverRun.Waited ⟨a, t'⟩) :
    Sound
      { s with
        servers := s.servers.erase t.targetServerId
        takeovers := Function.update s.takeovers a none
        takeoverList := s.takeoverList.erase a
        timers := timers
        log := ⟨a, t'⟩ :: s.log } := by
  have hlive : ∀ b, (Function.update s.takeovers a none b).isSome ↔ b ≠ a ∧ (s.takeovers b).isSome := by
    intro b
    by_cases hb : b = a
    · simp [hb]
    · simp [hb]
  have hget : ∀ b u, Function.update s.takeovers a none b = some u → b ≠ a ∧ s.takeovers b = some u := by
    intro b u hu
    by_cases hb : b = a
    · subst hb
      rw [Function.update_self] at hu
      cases hu
    · rw [Function.update_of_ne hb] at hu
      exact ⟨hb, hu⟩
  have hfresh : a < s.fresh := by
    by_contra hlt
    rw [(h.fresh a (by omega)).1] at ha
    cases ha
  have hruns : ∀ b, runs { s with log := ⟨a, t'⟩ :: s.log } b = s.runs b + if b = a then 1 else 0 := by
    intro b
    unfold runs
    rw [List.map_cons, List.count_cons]
    by_cases hb : b = a
    · simp [hb]
    · simp [hb, Ne.symm hb]
  constructor
  · exact h.servers.erase _
  · exact h.list.erase _
  · intro b
    rw [h.list.mem_erase_iff, h.mem_list b]
    exact (hlive b).symm
  · exact htimers
  · intro b
    rw [hmem b, h.mem_timers b]
    exact (hlive b).symm
  · intro b hb
    have hne : b ≠ a := by
      rintro rfl
      exact absurd hfresh (not_lt.2 hb)
    obtain ⟨hnone, hzero⟩ := h.fresh b hb
    refine ⟨?_, ?_⟩
    · exact (Function.update_of_ne hne _ _).trans hnone
    · have := hruns b
      rw [hzero, if_neg hne] at this
      exact this
  · intro b u hu
    obtain ⟨hne, hu⟩ := hget b u hu
    have hold := h.untouched b u hu
    have hother : u.targetServerId ≠ t.targetServerId := fun heq => hne (h.target b a u t hu ha heq)
    exact ⟨(h.servers.mem_erase_iff).2 ⟨hother, hold.known⟩, hold.size, hold.nodup, hold.empty,
      hold.count, hold.acked⟩
  · intro b c u v hu hv huv
    exact h.target b c u v (hget b u hu).2 (hget c v hv).2 huv
  · constructor
    · intro r hr
      obtain rfl | hr := List.mem_cons.1 hr
      · exact hwaited
      · exact h.careful.waited r hr
    · intro b hb
      have hcount := hruns b
      obtain ⟨hnone, hone⟩ | ⟨hsome, htimer, hzero⟩ := h.careful.once b hb
      · have hne : b ≠ a := by
          rintro rfl
          rw [ha] at hnone
          cases hnone
        rw [hone, if_neg hne] at hcount
        exact .inl ⟨(Function.update_of_ne hne _ _).trans hnone, hcount⟩
      · by_cases hba : b = a
        · rw [hzero, if_pos hba] at hcount
          subst hba
          exact .inl ⟨Function.update_self _ _ _, hcount⟩
        · rw [hzero, if_neg hba] at hcount
          exact .inr ⟨(hlive b).2 ⟨hba, hsome⟩, (hmem b).2 ⟨hba, htimer⟩, hcount⟩
    · intro b u hu
      exact h.careful.counted b u (hget b u hu).2

theorem registrarCount_le (s : Registrars) (target : ServerId) :
    s.registrarCount target ≤ (s.others target).length := by
  unfold registrarCount others
  rw [← List.countP_eq_length_filter]
  exact (List.dropLast_sublist _).countP_le

theorem Sound.takeoverNew {s : Registrars} (h : s.Sound) {target : ServerId}
    (hone : ∀ a ∈ s.takeoverList, ∀ t ∈ s.takeovers a, t.targetServerId ≠ target) :
    (s.takeoverNew target).Sound := by
  unfold Registrars.takeoverNew
  split
  · exact h
  split
  · exact h
  rename_i _ hknown
  rw [not_not] at hknown
  have hnew := (h.fresh s.fresh le_rfl).1
  have hnotList : s.fresh ∉ s.takeoverList := by
    rw [h.mem_list, hnew]
    exact Bool.false_ne_true
  have hnotTimers : s.fresh ∉ s.timers := by
    rw [h.mem_timers, hnew]
    exact Bool.false_ne_true
  have hlive : ∀ (u : Takeover) (b : ℕ),
      (Function.update s.takeovers s.fresh (some u) b).isSome ↔ b = s.fresh ∨ (s.takeovers b).isSome := by
    intro u b
    by_cases hb : b = s.fresh
    · simp [hb]
    · simp [hb]
  have hget : ∀ (u v : Takeover) (b : ℕ), Function.update s.takeovers s.fresh (some u) b = some v →
      (b = s.fresh ∧ v = u) ∨ (b ≠ s.fresh ∧ s.takeovers b = some v) := by
    intro u v b hv
    by_cases hb : b = s.fresh
    · subst hb
      rw [Function.update_self] at hv
      exact .inl ⟨rfl, (Option.some.inj hv).symm⟩
    · rw [Function.update_of_ne hb] at hv
      exact .inr ⟨hb, hv⟩
  have hother : ∀ b v, s.takeovers b = some v → v.targetServerId ≠ target := by
    intro b v hv
    refine hone b ?_ v hv
    rw [h.mem_list, hv]
    rfl
  constructor
  · exact h.servers
  · exact List.nodup_cons.2 ⟨hnotList, h.list⟩
  · intro b
    rw [List.mem_cons, h.mem_list]
    exact (hlive _ b).symm
  · exact List.nodup_cons.2 ⟨hnotTimers, h.timers⟩
  · intro b
    rw [List.mem_cons, h.mem_timers]
    exact (hlive _ b).symm
  · intro b hb
    have hb : s.fresh + 1 ≤ b := hb
    obtain ⟨hnone, hzero⟩ := h.fresh b (by omega)
    exact ⟨(Function.update_of_ne (by omega) _ _).trans hnone, hzero⟩
  · intro b v hv
    obtain ⟨-, rfl⟩ | ⟨-, hv⟩ := hget _ _ _ hv
    · exact ⟨hknown, s.registrarCount_le target, h.servers.filter _, rfl, rfl, rfl⟩
    · have hold := h.untouched b v hv
      exact ⟨hold.known, hold.size, hold.nodup, hold.empty, hold.count, hold.acked⟩
  · intro b c u v hu hv huv
    obtain ⟨rfl, rfl⟩ | ⟨-, hu⟩ := hget _ _ _ hu
    · obtain ⟨rfl, -⟩ | ⟨-, hv⟩ := hget _ _ _ hv
      · rfl
      · exact absurd huv.symm (hother c v hv)
    · obtain ⟨-, rfl⟩ | ⟨-, hv⟩ := hget _ _ _ hv
      · exact absurd huv (hother b u hu)
      · exact h.target b c u v hu hv huv
  · constructor
    · exact h.careful.waited
    · intro b hb
      have hb : b < s.fresh + 1 := hb
      by_cases hbf : b = s.fresh
      · subst hbf
        exact .inr ⟨(hlive _ _).2 (.inl rfl), List.mem_cons_self, (h.fresh s.fresh le_rfl).2⟩
      · obtain ⟨hnone, hruns⟩ | ⟨hsome, htimer, hruns⟩ := h.careful.once b (by omega)
        · exact .inl ⟨(Function.update_of_ne hbf _ _).trans hnone, hruns⟩
        · exact .inr ⟨(hlive _ _).2 (.inr hsome), List.mem_cons_of_mem _ htimer, hruns⟩
    · intro b v hv
      obtain ⟨-, rfl⟩ | ⟨-, hv⟩ := hget _ _ _ hv
      · rfl
      · exact h.careful.counted b v hv

/-- Running a takeover whose target is known, whatever was entered into it just before. -/
theorem Sound.takeoverDoTakeover {s : Registrars} (h : s.Sound) {a : ℕ} {t : Takeover}
    {timers : List ℕ} (t' : Takeover) (ha : s.takeovers a = some t) (htarget : t'.targetServerId = t.targetServerId)
    (htimers : timers.Nodup) (hmem : ∀ b, b ∈ timers.erase a ↔ b ≠ a ∧ b ∈ s.timers)
    (hwaited : TakeoverRun.Waited ⟨a, t'⟩) :
    ∃ u, Registrars.takeoverDoTakeover
      { s with timers := timers, takeovers := Function.update s.takeovers a (some t') } a = some u ∧
        u.Sound := by
  have hknown := (h.untouched a t ha).known
  unfold Registrars.takeoverDoTakeover
  simp only [Function.update_self, Option.map_some, htarget, hknown, not_true_eq_false, if_false]
  refine ⟨_, rfl, ?_⟩
  have := h.finish ha (htimers.erase a) hmem hwaited
  unfold takeoverDelete
  simpa only [Function.update_idem] using this

/-- An acknowledgement enters one server everywhere or nothing. -/
theorem ackLoop_replicate {serverId : ServerId} (hid : serverId ≠ 0) (n : ℕ) :
    ackLoop serverId (List.replicate n 0) = (List.replicate n serverId, n, false) := by
  induction n with
  | zero => rfl
  | succ n ih =>
    rw [List.replicate_succ, ackLoop, if_neg hid.symm, if_pos rfl, ih]
    rfl

end Registrars

/-- No second takeover of one target is started, and a server acknowledges only when nobody else is
to be waited for. -/
def TakeoverEvent.Regular (s : Registrars) : TakeoverEvent → Prop
  | .takeoverNew target => ∀ a ∈ s.takeoverList, ∀ t ∈ s.takeovers a, t.targetServerId ≠ target
  | .ack target serverId => serverId ∈ s.servers → ∀ a ∈ s.takeoverList, ∀ t ∈ s.takeovers a,
      t.targetServerId = target →
        (∀ x ∈ t.awaited, x = serverId) ∧ (serverId = 0 → t.listSize = 0)
  | .expire _ => True

instance (s : Registrars) : ∀ e : TakeoverEvent, Decidable (e.Regular s)
  | .takeoverNew target => inferInstanceAs
      (Decidable (∀ a ∈ s.takeoverList, ∀ t ∈ s.takeovers a, t.targetServerId ≠ target))
  | .ack target serverId => inferInstanceAs
      (Decidable (serverId ∈ s.servers → ∀ a ∈ s.takeoverList, ∀ t ∈ s.takeovers a,
        t.targetServerId = target →
          (∀ x ∈ t.awaited, x = serverId) ∧ (serverId = 0 → t.listSize = 0)))
  | .expire _ => .isTrue trivial

namespace Registrars

theorem Sound.ack {s : Registrars} (h : s.Sound) {a : ℕ} {t : Takeover} {serverId : ServerId}
    (ha : s.takeovers a = some t)
    (hregular : serverId ∈ s.servers →
      (∀ x ∈ t.awaited, x = serverId) ∧ (serverId = 0 → t.listSize = 0)) :
    ∃ u, s.takeoverAckServer a serverId = some u ∧ u.Sound := by
  unfold takeoverAckServer
  rw [ha, Option.bind_some]
  split
  · exact ⟨s, rfl, h⟩
  rename_i hknown
  rw [not_not] at hknown
  obtain ⟨hall, hzero⟩ := hregular hknown
  have hold := h.untouched a t ha
  have hloop : ackLoop serverId t.ackedServers = (List.replicate t.listSize serverId, t.listSize, false) := by
    rw [hold.empty]
    by_cases hid : serverId = 0
    · rw [hzero hid]
      rfl
    · exact ackLoop_replicate hid _
  have hcount : (ackTakeover t serverId).listSize = (ackTakeover t serverId).ackedServerCount := by
    simp [ackTakeover, hloop, hold.count]
  have hwaited : TakeoverRun.Waited ⟨a, ackTakeover t serverId⟩ := by
    refine .inr fun x hx => ?_
    rw [hall x hx]
    exact List.mem_insert_self
  have hmem : ∀ b, b ∈ s.timers.erase a ↔ b ≠ a ∧ b ∈ s.timers := fun b => h.timers.mem_erase_iff
  obtain ⟨u, hu, hsound⟩ :=
    h.takeoverDoTakeover (ackTakeover t serverId) ha rfl h.timers hmem hwaited
  refine ⟨u, ?_, hsound⟩
  simp only [hloop, Bool.false_eq_true, if_false]
  rw [if_pos hcount]
  exact hu

theorem Sound.expire {s : Registrars} (h : s.Sound) (a : ℕ) :
    ∃ u, takeoverStep s (.expire a) = some u ∧ u.Sound := by
  unfold takeoverStep
  by_cases hin : a ∈ s.timers
  · obtain ⟨t, ha⟩ := Option.isSome_iff_exists.1 ((h.mem_timers a).1 hin)
    have hmem : ∀ b, b ∈ (s.timers.erase a).erase a ↔ b ≠ a ∧ b ∈ s.timers := by
      intro b
      rw [(h.timers.erase a).mem_erase_iff, h.timers.mem_erase_iff]
      tauto
    obtain ⟨u, hu, hsound⟩ := h.takeoverDoTakeover { t with expired := true } ha rfl
      (h.timers.erase a) hmem (.inl rfl)
    refine ⟨u, ?_, hsound⟩
    simp only [if_pos hin, ha, Option.bind_some]
    exact hu
  · exact ⟨s, if_neg hin, h⟩

theorem Sound.step {s : Registrars} (h : s.Sound) {e : TakeoverEvent} (he : e.Regular s) :
    ∃ u, takeoverStep s e = some u ∧ u.Sound := by
  cases e with
  | takeoverNew target => exact ⟨_, rfl, h.takeoverNew he⟩
  | ack target serverId =>
    unfold takeoverStep
    obtain hnone | ⟨a, t, hsome, hin, ha, htarget⟩ := h.lookup target
    · exact ⟨s, by simp [hnone], h⟩
    · obtain ⟨u, hu, hsound⟩ := h.ack ha fun hknown => he hknown a hin t ha htarget
      refine ⟨u, ?_, hsound⟩
      simp only [hsome, Option.bind_some]
      exact hu
  | expire a => exact h.expire a

def idle (ownId : ServerId) (servers : List ServerId) : Registrars where
  ownId := ownId
  servers := servers
  takeovers := fun _ => none
  takeoverList := []
  timers := []
  fresh := 0
  log := []

theorem idle_sound {ownId : ServerId} {servers : List ServerId} (hservers : servers.Nodup) :
    (idle ownId servers).Sound := by
  constructor
  · exact hservers
  · exact List.nodup_nil
  · exact fun a => ⟨fun h => absurd h List.not_mem_nil, fun h => absurd h Bool.false_ne_true⟩
  · exact List.nodup_nil
  · exact fun a => ⟨fun h => absurd h List.not_mem_nil, fun h => absurd h Bool.false_ne_true⟩
  · exact fun a _ => ⟨rfl, rfl⟩
  · intro a t ht
    cases ht
  · intro a b t u ht
    cases ht
  · exact ⟨fun r hr => (by cases hr), fun a ha => absurd ha (Nat.not_lt_zero a),
      fun a t ht => by cases ht⟩

end Registrars

/-- In a run of regular events no takeover is used after it was freed, and takeovers wait for every
registrar or their timer. -/
theorem takeoverRun_careful (ownId : ServerId) (servers : List ServerId) (es : List TakeoverEvent)
    (hservers : servers.Nodup)
    (hes : Trace.Along takeoverStep (fun s e => e.Regular s) (idle ownId servers) es) :
    ∃ s, takeoverRun (idle ownId servers) es = some s ∧ s.Careful := by
  obtain ⟨s, hrun, hsound⟩ :=
    Trace.run_progress Sound (fun s e hs he => hs.step he) (idle_sound hservers) hes
  exact ⟨s, hrun, hsound.careful⟩

/-- One peer is to be waited for, and it acknowledges. -/
theorem acknowledgedRun_careful :
    ∃ s, takeoverRun (idle 1 [3, 2, 1]) [.takeoverNew 2, .ack 2 3] = some s ∧ s.Careful := by
  apply takeoverRun_careful
  · decide
  · constructor
    · exact fun a ha => absurd ha List.not_mem_nil
    · intro s hs
      obtain rfl : (idle 1 [3, 2, 1]).takeoverNew 2 = s := Option.some.inj hs
      have hothers : (idle 1 [3, 2, 1]).others 2 = [3] := by decide
      refine ⟨fun _ a ha t ht _ => ?_, fun _ _ => trivial⟩
      unfold Registrars.takeoverNew at ha ht
      rw [if_neg (by decide), if_neg (by decide)] at ha ht
      simp only [idle, List.mem_singleton] at ha
      subst ha
      simp only [idle, Function.update_self, Option.mem_def, Option.some.injEq] at ht
      rw [← ht]
      exact ⟨fun x hx => List.mem_singleton.1 (hothers ▸ hx), fun h => absurd h (by decide)⟩

/-- The takeover of 2 has to wait for 3 and 4, and is run when 3 has acknowledged it. -/
theorem hastyRun_not_careful :
    ¬ ∃ s, takeoverRun (idle 1 [1, 2, 3, 4]) [.takeoverNew 2, .ack 2 3] = some s ∧ s.Careful := by
  rintro ⟨s, hrun, hcareful⟩
  have hlog : (takeoverRun (idle 1 [1, 2, 3, 4]) [.takeoverNew 2, .ack 2 3]).map Registrars.log =
      some [⟨0, ⟨2, 1, [3], 1, [3, 4], [3], false⟩⟩] := by
    decide +kernel
  rw [hrun, Option.map_some] at hlog
  have hwaited := hcareful.waited ⟨0, ⟨2, 1, [3], 1, [3, 4], [3], false⟩⟩ (by
    rw [Option.some.inj hlog]
    exact List.mem_cons_self)
  obtain hexpired | hacked := hwaited
  · cases hexpired
  · have : (4 : ServerId) ∈ [(3 : ServerId)] := hacked 4 (by decide)
    revert this
    decide

end Sctp.Enrp
