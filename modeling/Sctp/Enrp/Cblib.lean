import Sctp.Lib.Dll
import Sctp.Lib.Trace
import Sctp.Timeval
import Mathlib.Algebra.Order.Ring.Int
import Mathlib.Tactic

/-! The timers of the ENRP server, `cblib.c`, and the reset of a peer's timer in `registrarserver.c`. -/
namespace Sctp.Enrp

def MAX_TIME_LAST_HEARD : ℕ := 5000

/-- `struct timer_struct`, without its callback. -/
structure TimerStruct (α : Type) where
  prev : Option α
  next : Option α
  start_time : Timeval
  stop_time : Timeval
deriving DecidableEq

namespace TimerStruct

variable {α : Type}

def links : Dll.Links α (TimerStruct α) (Timeval × Timeval) where
  prev := TimerStruct.prev
  next := TimerStruct.next
  content n := (n.start_time, n.stop_time)
  setPrev p n := { n with prev := p }
  setNext q n := { n with next := q }
  prev_setPrev _ _ := rfl
  next_setPrev _ _ := rfl
  content_setPrev _ _ := rfl
  prev_setNext _ _ := rfl
  next_setNext _ _ := rfl
  content_setNext _ _ := rfl

def zero : TimerStruct α := ⟨none, none, .zero, .zero⟩

/-- What `timerStart` and `timerDelete` take for a running timer. -/
def started [DecidableEq α] (n : TimerStruct α) : Bool :=
  n.next ≠ none ∨ n.prev ≠ none ∨ n.start_time.tv_sec ≠ 0 ∨ n.start_time.tv_usec ≠ 0 ∨ n.stop_time.tv_sec ≠ 0 ∨
    n.stop_time.tv_usec ≠ 0

/-- `start_time` and `stop_time` are set. -/
def arm (n : TimerStruct α) (now : Timeval) (timeout : ℕ) : TimerStruct α :=
  let stop : Timeval := ⟨now.tv_sec + timeout / 1000, now.tv_usec + 1000 * (timeout % 1000)⟩
  { n with
    start_time := now
    stop_time := if 1000000 ≤ stop.tv_usec then ⟨stop.tv_sec + 1, stop.tv_usec - 1000000⟩ else stop }

end TimerStruct

/-- The timers, `timerList`, and how many timers were created, which bounds the length of a walk. -/
structure Cblib (α : Type) where
  timers : α → Option (TimerStruct α)
  timerList : Option α
  created : ℕ

/-- What `registrarServerResetTimer` reads and writes of a server. -/
structure LastHeard (α : Type) where
  rsLastHeardTimeout : Option α
  rsLastHeardTimeoutCnt : ℕ

namespace Cblib

open TimerStruct (links)

variable {α : Type}

def empty : Cblib α := ⟨fun _ => none, none, 0⟩

/-- The timers on `timerList`. -/
def queue (s : Cblib α) : List α := Linked.nodes s.timers TimerStruct.next (s.created + 1) s.timerList

variable [DecidableEq α]

def set (s : Cblib α) (t : α) (n : Option (TimerStruct α)) : Cblib α :=
  { s with timers := Function.update s.timers t n }

def timerCreate (s : Cblib α) (t : α) : Cblib α := { s.set t (some .zero) with created := s.created + 1 }

/-- The loop of `timerStop`. Nothing comes of a walk that leaves the timers or does not end. -/
def find (timers : α → Option (TimerStruct α)) (t : α) : ℕ → Option α → Option Bool
  | 0, _ => none
  | _ + 1, none => some false
  | n + 1, some a => if a = t then some true else (timers a).bind fun e => find timers t n e.next

/-- `timerStop`. Nothing comes of a failed assertion. -/
def timerStop (s : Cblib α) (t : α) : Option (Cblib α) :=
  (find s.timers t (s.created + 1) s.timerList).bind fun found =>
    if found then
      (s.timers t).bind fun n => (Dll.unlink links s.timers t).bind fun timers =>
        let timerList := if s.timerList = some t then n.next else s.timerList
        if s.timerList = some t ∧ timerList.any (fun a => (timers a).any fun m => m.prev ≠ none) then none
        else some { s with timers := Function.update timers t (some .zero), timerList := timerList }
    else some s

/-- The loop of `timerStart`: the timer which the new one goes behind. -/
def place (timers : α → Option (TimerStruct α)) (stop : Timeval) : ℕ → α → Option α
  | 0, _ => none
  | n + 1, a => (timers a).bind fun e =>
      match e.next with
      | none => some a
      | some b => (timers b).bind fun m => if stop.before m.stop_time then some a else place timers stop n b

/-- The timer `t`, whose times are set, goes behind `a`. -/
def putBehind (s : Cblib α) (a t : α) : Option (Cblib α) :=
  (s.timers a).bind fun e => (Dll.guardPrev links s.timers e.next (some t)).bind fun timers =>
    (Dll.writeNext links timers (some t) e.next).bind fun timers =>
      (Dll.writeNext links timers (some a) (some t)).bind fun timers =>
        (Dll.writePrev links timers (some t) (some a)).map fun timers => { s with timers := timers }

/-- The timer `t`, whose times are set, goes before `h`. -/
def putBefore (s : Cblib α) (h t : α) : Option (Cblib α) :=
  (Dll.writeNext links s.timers (some t) (some h)).bind fun timers =>
    (Dll.writePrev links timers (some t) none).bind fun timers =>
      (Dll.writePrev links timers (some h) (some t)).map fun timers =>
        { s with timers := timers, timerList := some t }

/-- The timer `t`, whose times are set, is put into `timerList`. -/
def link (s : Cblib α) (t : α) (stop : Timeval) : Option (Cblib α) :=
  match s.timerList with
  | none => some { s with timerList := some t }
  | some h => (s.timers h).bind fun e =>
      if stop.before e.stop_time then s.putBefore h t
      else (place s.timers stop (s.created + 1) h).bind fun a => s.putBehind a t

/-- `timerStart` when the time is `now`. -/
def timerStart (s : Cblib α) (now : Timeval) (t : α) (timeout : ℕ) : Option (Cblib α) :=
  (s.timers t).bind fun n =>
    if n.started then some s else (s.set t (some (n.arm now timeout))).link t (n.arm now timeout).stop_time

def timerRestart (s : Cblib α) (now : Timeval) (t : α) (timeout : ℕ) : Option (Cblib α) :=
  (s.timerStop t).bind fun s => s.timerStart now t timeout

/-- `timerDelete`. Nothing comes of a failed assertion. -/
def timerDelete (s : Cblib α) (t : α) : Option (Cblib α) :=
  (s.timers t).bind fun n => (if n.started then s.timerStop t else some s).bind fun s =>
    (s.timers t).bind fun n =>
      if n.next ≠ none ∨ n.prev ≠ none ∨ s.timerList = some t then none else some (s.set t none)

def registrarServerResetTimer (s : Cblib α) (now : Timeval) (server : Option (LastHeard α)) :
    Option (Cblib α × Option (LastHeard α) × ℤ) :=
  match server with
  | none => some (s, none, -1)
  | some r =>
    match r.rsLastHeardTimeout with
    | none => some (s, some r, -1)
    | some t => (s.timerStart now t MAX_TIME_LAST_HEARD).map fun s =>
        (s, some { r with rsLastHeardTimeoutCnt := 0 }, 1)

/-- The time that `handleEvent` has `select` wait, in microseconds. -/
def selectTimeout (stop now : Timeval) : ℤ := (stop.sub now).usecs

/-- `handleEvent` up to the callback of a timer, with the timer and the time. `select` comes back with a file
descriptor, or else at the time `wake` with nothing. -/
def handleEvent (s : Cblib α) (now : Timeval) (wake : Option Timeval) : Option (Cblib α × Option α × Timeval) :=
  match s.timerList with
  | none => if wake = none then some (s, none, now) else none
  | some t => (s.timers t).bind fun n =>
      if n.stop_time.before now then (s.timerStop t).map fun s => (s, some t, now)
      else
        match wake with
        | none => some (s, none, now)
        | some later => (s.timerStop t).map fun s => (s, some t, later)

end Cblib

inductive TimerEvent (α : Type) where
  | start (t : α) (now : Timeval) (timeout : ℕ)
  | reset (t : α) (now : Timeval)
  | stop (t : α)
  | fired (t : α) (now : Timeval)
deriving DecidableEq

/-- A start: when the timer is due, and how many events came before. -/
structure Start where
  due : ℤ
  serial : ℕ
deriving DecidableEq, Repr

/-- The start of a timer that was neither stopped nor fired since, by the events, the last one first. A start of a
running timer counts for nothing. -/
def current {α : Type} [DecidableEq α] (t : α) : List (TimerEvent α) → Option Start
  | [] => none
  | .start a now timeout :: es =>
    (current t es).or (if a = t then some ⟨now.usecs + 1000 * timeout, es.length⟩ else none)
  | .reset a now :: es =>
    (current t es).or (if a = t then some ⟨now.usecs + 1000 * MAX_TIME_LAST_HEARD, es.length⟩ else none)
  | .stop a :: es => if a = t then none else current t es
  | .fired a _ :: es => if a = t then none else current t es

/-- What should be so when something happens after `es`. A timer fires once for a start, and not before it is due; a
peer's timer that is reset is due as long after as it may not be heard from, so that it is timed out only when it was
not heard from for as long as that. -/
def TimerEvent.Right {α : Type} [DecidableEq α] (e : TimerEvent α) (es : List (TimerEvent α)) : Prop :=
  match e with
  | .fired t now =>
    (∃ c ∈ current t es, c.due ≤ now.usecs) ∧
      ((∀ now' timeout, .start t now' timeout ∈ es → timeout = MAX_TIME_LAST_HEARD) →
        ∀ now', .reset t now' ∈ es → now'.usecs + 1000 * MAX_TIME_LAST_HEARD ≤ now.usecs)
  | .reset t now => ∃ c ∈ current t (.reset t now :: es), c.due = now.usecs + 1000 * MAX_TIME_LAST_HEARD
  | .start .. | .stop _ => True

/-- The timers, the last time that was read, and what happened. -/
structure TimerHistory (α : Type) where
  lib : Cblib α
  clock : Timeval
  events : List (TimerEvent α)

inductive TimerOp (α : Type) where
  | create (t : α)
  | start (now : Timeval) (t : α) (timeout : ℕ)
  | stop (t : α)
  | restart (now : Timeval) (t : α) (timeout : ℕ)
  | delete (t : α)
  | reset (now : Timeval) (server : Option (LastHeard α))
  | handle (now : Timeval) (wake : Option Timeval)

namespace TimerHistory

variable {α : Type} [DecidableEq α]

def empty : TimerHistory α := ⟨.empty, .zero, []⟩

/-- One call, from outside or from a callback; the callback of a fired timer makes calls of its own afterwards. -/
def step (h : TimerHistory α) : TimerOp α → Option (TimerHistory α)
  | .create t => some { h with lib := h.lib.timerCreate t }
  | .start now t timeout =>
    (h.lib.timerStart now t timeout).map fun lib => ⟨lib, now, .start t now timeout :: h.events⟩
  | .stop t => (h.lib.timerStop t).map fun lib => { h with lib := lib, events := .stop t :: h.events }
  | .restart now t timeout =>
    (h.lib.timerRestart now t timeout).map fun lib => ⟨lib, now, .start t now timeout :: .stop t :: h.events⟩
  | .delete t => (h.lib.timerDelete t).map fun lib => { h with lib := lib, events := .stop t :: h.events }
  | .reset now server =>
    (h.lib.registrarServerResetTimer now server).map fun (lib, _, _) =>
      ⟨lib, now, ((server.bind LastHeard.rsLastHeardTimeout).map (TimerEvent.reset · now)).toList ++ h.events⟩
  | .handle now wake =>
    (h.lib.handleEvent now wake).map fun (lib, fired, time) =>
      ⟨lib, time, (fired.map (TimerEvent.fired · time)).toList ++ h.events⟩

/-- The time is read right, and no earlier than before. -/
def Later (h : TimerHistory α) (now : Timeval) : Prop := now.Normal ∧ h.clock.usecs ≤ now.usecs

/-- The calls are about timers that exist, and `select` waits as long as it is told to. -/
def Allowed (h : TimerHistory α) : TimerOp α → Prop
  | .create t => h.lib.timers t = none
  | .start now t _ | .restart now t _ => h.lib.timers t ≠ none ∧ h.Later now
  | .stop t | .delete t => h.lib.timers t ≠ none
  | .reset now server =>
    (∀ r ∈ server, ∀ t ∈ r.rsLastHeardTimeout, h.lib.timers t ≠ none) ∧ h.Later now
  | .handle now wake =>
    h.Later now ∧ ∀ later ∈ wake, later.Normal ∧ h.lib.timerList ≠ none ∧
      ∀ t ∈ h.lib.timerList, ∀ n ∈ h.lib.timers t,
        now.usecs + Cblib.selectTimeout n.stop_time now ≤ later.usecs ∧ now.usecs ≤ later.usecs

/-- No timer is started without a timeout at the time zero, and a peer's timer is reset only when it is not running. -/
def Meets (h : TimerHistory α) : TimerOp α → Prop
  | .start now _ timeout | .restart now _ timeout => now ≠ .zero ∨ timeout ≠ 0
  | .reset _ server => ∀ r ∈ server, ∀ t ∈ r.rsLastHeardTimeout, t ∉ h.lib.queue
  | _ => True

instance (h : TimerHistory α) (op : TimerOp α) : Decidable (h.Allowed op) := by
  cases op <;> unfold Allowed Later <;> infer_instance

instance (h : TimerHistory α) (op : TimerOp α) : Decidable (h.Meets op) := by
  cases op <;> unfold Meets <;> infer_instance

structure Exact (h : TimerHistory α) : Prop where
  formed : Dll.Formed TimerStruct.links h.lib.timers none h.lib.queue none
  nodup : h.lib.queue.Nodup
  timerList_eq : h.lib.timerList = h.lib.queue.head?
  mem_queue : ∀ t, t ∈ h.lib.queue ↔ current t h.events ≠ none
  due : ∀ t ∈ h.lib.queue, ∀ n ∈ h.lib.timers t, ∀ c ∈ current t h.events,
    n.stop_time.Normal ∧ n.stop_time.usecs = c.due
  sorted : h.lib.queue.Pairwise fun a b => ∀ c ∈ current a h.events, ∀ d ∈ current b h.events,
    c.due < d.due ∨ (c.due = d.due ∧ c.serial < d.serial)
  /-- A timer that is due fires when the next event is handled. -/
  fires : ∀ t ts, h.lib.queue = t :: ts → ∀ n ∈ h.lib.timers t, ∀ now wake, n.stop_time.before now →
    ∃ h', h.step (.handle now wake) = some h' ∧ h'.lib.queue = ts ∧ h'.events = .fired t now :: h.events
  right : Trace.Throughout TimerEvent.Right h.events

end TimerHistory

end Sctp.Enrp
