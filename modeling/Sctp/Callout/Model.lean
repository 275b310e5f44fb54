import Sctp.Lib.Cursor
import Sctp.Lib.Trace
import Mathlib.Data.BitVec
import Mathlib.Tactic

/-! The timers of the userland stack: `sctp_os_timer_start`, `sctp_os_timer_stop` and `sctp_handle_tick`. The
tick takes a timer off, drops the lock and then calls its function; what the function or another thread does
meanwhile are events of their own. -/
namespace Sctp.Callout

variable {τ κ : Type} [DecidableEq τ]

/-- `sctp_os_timer_t`; the function and its argument are one value. -/
structure OsTimer (κ : Type) where
  time : BitVec 32
  active : Bool
  pending : Bool
  call : Option κ

/-- The timers, `callqueue`, `sctp_os_timer_next` and `ticks`. -/
structure Timers (τ κ : Type) where
  timer : τ → OsTimer κ
  queue : List τ
  next : Option τ
  ticks : BitVec 32

namespace Timers

def set (t : Timers τ κ) (c : τ) (o : OsTimer κ) : Timers τ κ :=
  { t with timer := Function.update t.timer c o }

/-- A queued timer is taken off, and `sctp_os_timer_next` moves on if it stood there. -/
def unqueue (t : Timers τ κ) (c : τ) : Timers τ κ :=
  { t with
    next := if t.next = some c then Ring.next c t.queue else t.next
    queue := t.queue.erase c }

/-- `sctp_os_timer_start`, when there are a timer and a function. -/
def start (t : Timers τ κ) (c : τ) (toTicks : ℤ) (call : κ) : Timers τ κ :=
  let t := if (t.timer c).pending then t.unqueue c else t
  let toTicks := if toTicks ≤ 0 then 1 else toTicks
  let t := t.set c ⟨t.ticks + BitVec.ofInt 32 toTicks, true, true, some call⟩
  { t with queue := t.queue ++ [c] }

/-- `sctp_os_timer_stop` -/
def stop (t : Timers τ κ) (c : τ) : Timers τ κ :=
  if (t.timer c).pending then
    (t.set c { t.timer c with active := false, pending := false }).unqueue c
  else t.set c { t.timer c with active := false }

/-- `c->c_time <= ticks` -/
def due (t : Timers τ κ) (c : τ) : Bool := (t.timer c).time.sle t.ticks

/-- A due timer is taken off. Its function is called when the lock is dropped. -/
def fire (t : Timers τ κ) (c : τ) : Timers τ κ :=
  ({ t with next := Ring.next c t.queue, queue := t.queue.erase c }).set c
    { t.timer c with pending := false }

/-- The loop of `sctp_handle_tick` from a pointer on: up to the next due timer, which is taken off before the
lock is dropped, or to the end. `none` is a pointer to a timer that is not queued. -/
def loop (t : Timers τ κ) (c : Option τ) : Option (Timers τ κ × Option τ) :=
  match c with
  | none => some ({ t with next := none }, none)
  | some c =>
    if c ∈ t.queue then
      match (t.queue.dropWhile (· ≠ c)).find? t.due with
      | none => some ({ t with next := none }, none)
      | some d => some (t.fire d, some d)
    else none

/-- `sctp_handle_tick`, up to its first due timer or its end. -/
def tick (t : Timers τ κ) (delta : ℕ) : Option (Timers τ κ × Option τ) :=
  let t := { t with ticks := t.ticks + BitVec.ofNat 32 delta }
  t.loop t.queue.head?

/-- A callback comes back: `c = sctp_os_timer_next`. -/
def goOn (t : Timers τ κ) : Option (Timers τ κ × Option τ) := t.loop t.next

end Timers

/-- A start of a timer that was not cancelled and has not fired: its number, its deadline on a counter that
does not wrap, and what is to be called. -/
structure Start (κ : Type) where
  serial : ℕ
  deadline : ℤ
  call : κ

/-- A call of a callback: what was called and for which start, the count, and the count of the tick before. -/
structure Firing (κ : Type) where
  call : Option κ
  start : Option (Start κ)
  count : ℤ
  before : ℤ

/-- Where `sctp_handle_tick` stands: outside, between taking a timer off and calling its function, or in a
function. -/
inductive Place (τ κ : Type) where
  | outside
  | dequeued (c : τ) (f : Firing κ)
  | inCallback

namespace Place

def timer : Place τ κ → Option τ
  | .dequeued c _ => some c
  | _ => none

def start : Place τ κ → Option (Start κ)
  | .dequeued _ f => f.start
  | _ => none

/-- The timer is stopped or started anew: if its function is about to be called, the call is for no start. -/
def overtake (p : Place τ κ) (c : τ) : Place τ κ :=
  match p with
  | .dequeued d f => .dequeued d { f with start := if d = c then none else f.start }
  | p => p

end Place

structure History (τ κ : Type) where
  timers : Timers τ κ
  place : Place τ κ
  count : ℤ
  before : ℤ
  wanted : τ → Option (Start κ)
  issued : ℕ
  cancelled : List ℕ
  log : List (Firing κ)

inductive Event (τ κ : Type) where
  | start (c : τ) (toTicks : ℤ) (call : κ)
  | stop (c : τ)
  | tick (delta : ℕ)
  | call
  | goOn

namespace History

def serialOf (h : History τ κ) (c : τ) : List ℕ := (h.wanted c).toList.map Start.serial

/-- The number of the start whose function is about to be called. -/
def called (h : History τ κ) : List ℕ := h.place.start.toList.map Start.serial

/-- The numbers of the starts that are stopped or replaced. -/
def cancels (h : History τ κ) (c : τ) : List ℕ :=
  h.serialOf c ++ if h.place.timer = some c then h.called else []

/-- What a tick does up to the next due timer or its end is written down. -/
def record (h : History τ κ) (r : Timers τ κ × Option τ) : History τ κ :=
  match r.2 with
  | none => { h with timers := r.1, place := .outside }
  | some c =>
    { h with
      timers := r.1
      place := .dequeued c ⟨(r.1.timer c).call, h.wanted c, h.count, h.before⟩
      wanted := Function.update h.wanted c none }

/-- One event. A tick begins outside of another, a call follows a timer that was taken off, and a callback that
was called comes back. -/
def step (h : History τ κ) : Event τ κ → Option (History τ κ)
  | .start c toTicks call =>
    some
      { h with
        timers := h.timers.start c toTicks call
        place := h.place.overtake c
        wanted := Function.update h.wanted c (some ⟨h.issued, h.count + max 1 toTicks, call⟩)
        issued := h.issued + 1
        cancelled := h.cancelled ++ h.cancels c }
  | .stop c =>
    some
      { h with
        timers := h.timers.stop c
        place := h.place.overtake c
        wanted := Function.update h.wanted c none
        cancelled := h.cancelled ++ h.cancels c }
  | .tick delta =>
    match h.place with
    | .outside => (h.timers.tick delta).map { h with count := h.count + delta, before := h.count }.record
    | _ => none
  | .call =>
    match h.place with
    | .dequeued _ f => some { h with place := .inCallback, log := h.log ++ [f] }
    | _ => none
  | .goOn =>
    match h.place with
    | .inCallback => h.timers.goOn.map h.record
    | _ => none

end History

end Sctp.Callout
