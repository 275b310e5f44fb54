import Mathlib.Data.List.Sort
import Sctp.Chunk
import Sctp.Lib.Ring
import Sctp.Lib.Trace

/-! The stream schedulers of `sctp_ss_functions.c` and the calls that the send path makes. -/
namespace Sctp

/-- Indices into `sctp_ss_functions`. -/
inductive Discipline where
  | default
  | roundRobin
  | roundRobinPacket
  | priority
  | fairBandwidth
  | fcfs
deriving DecidableEq, Repr

/-- `struct sctp_stream_queue_pending`, as the schedulers and the shutdown code read it. The record is
known by its address `id`. -/
structure Waiting where
  id : ℕ
  net : Option NetId := none
  length : ℕ
  msgIsComplete : Bool := false
  senderAllDone : Bool := false
deriving DecidableEq, Repr

/-- The stream queues and the scheduling data. A stream or a message has non-null links exactly when
it is a member of `wheel` or `outList`. -/
structure SsData where
  outqueue : StreamNo → List Waiting
  wheel : List StreamNo
  /-- The messages in the order of arrival, with `sp->stream`; shares its memory with `wheel`. -/
  outList : List (StreamNo × ℕ)
  lastOutStream : Option StreamNo
  priority : StreamNo → ℕ
  rounds : StreamNo → ℤ

namespace SsData

def init : SsData where
  outqueue _ := []
  wheel := []
  outList := []
  lastOutStream := none
  priority _ := 0
  rounds _ := -1

/-- The first message is bound to another destination than the one asked for. -/
def blocked (cmtOnOff : ℕ) (net : Option NetId) (s : SsData) (i : StreamNo) : Bool :=
  match net, (s.outqueue i).head? with
  | some n, some m => cmtOnOff == 0 && m.net.isSome && m.net != some n
  | _, _ => false

/-- The test of `sctp_ss_fb_select`: unlike `blocked`, it wants a message when it looks at one. -/
def fbFits (cmtOnOff : ℕ) (net : Option NetId) (s : SsData) (i : StreamNo) : Bool :=
  decide (0 < cmtOnOff) ||
    (decide (cmtOnOff = 0) &&
      match net, (s.outqueue i).head? with
      | none, _ => true
      | some _, none => false
      | some n, some m => m.net.isNone || m.net == some n)

/-- Put a waiting stream that is not on the wheel in its place. -/
def addToWheel (insert : StreamNo → List StreamNo → List StreamNo) (s : SsData) (i : StreamNo) :
    SsData :=
  if s.outqueue i ≠ [] ∧ i ∉ s.wheel then { s with wheel := insert i s.wheel } else s

/-- `last_out_stream` when its stream leaves the wheel. -/
def retreat (s : SsData) (i : StreamNo) : Option StreamNo :=
  if s.lastOutStream = some i then
    match (Ring.prev i s.wheel).or s.wheel.getLast? with
    | none => none
    | some j => if j = i then none else some j
  else s.lastOutStream

end SsData

open SsData

/-- `struct sctp_ss_functions`. The two functions that scan the wheel take fuel and give `none` where
it runs out; the inner `none` is the null pointer. -/
structure SsFunctions where
  addToStream : SsData → StreamNo → Waiting → SsData
  removeFromStream : SsData → StreamNo → Waiting → SsData
  selectStream : ℕ → ℕ → SsData → Option NetId → Option (Option StreamNo)
  scheduled : SsData → StreamNo → SsData
  packetDone : ℕ → ℕ → SsData → Option NetId → Option SsData
  setValue : SsData → StreamNo → ℕ → SsData

def ssDefaultAdd (s : SsData) (i : StreamNo) (_ : Waiting) : SsData :=
  addToWheel (fun i l => l ++ [i]) s i

def ssDefaultRemove (s : SsData) (i : StreamNo) (_ : Waiting) : SsData :=
  if s.outqueue i = [] ∧ i ∈ s.wheel then
    { s with lastOutStream := s.retreat i, wheel := s.wheel.erase i }
  else s

/-- The scan of `sctp_ss_default_select` and `sctp_ss_rrp_packet_done`: once round the wheel, behind
`last_out_stream`. -/
def nextStream (cmtOnOff fuel : ℕ) (s : SsData) (net : Option NetId) : Option (Option StreamNo) :=
  Ring.scan (Ring.around (fun _ _ => true) s.wheel) (fun i => !blocked cmtOnOff net s i)
    s.lastOutStream fuel s.lastOutStream

def ssDefaultSelect (cmtOnOff fuel : ℕ) (s : SsData) (net : Option NetId) :
    Option (Option StreamNo) :=
  nextStream cmtOnOff fuel s net

def ssDefaultScheduled (s : SsData) (i : StreamNo) : SsData := { s with lastOutStream := some i }

def ssDefaultPacketDone (_ _ : ℕ) (s : SsData) (_ : Option NetId) : Option SsData := some s

def ssDefaultSetValue (s : SsData) (_ : StreamNo) (_ : ℕ) : SsData := s

def ssRrAdd (s : SsData) (i : StreamNo) (_ : Waiting) : SsData :=
  addToWheel (List.orderedInsert fun a b => a.toNat ≤ b.toNat) s i

def ssRrpSelect (_ _ : ℕ) (s : SsData) (_ : Option NetId) : Option (Option StreamNo) :=
  some s.lastOutStream

def ssRrpPacketDone (cmtOnOff fuel : ℕ) (s : SsData) (net : Option NetId) : Option SsData :=
  (nextStream cmtOnOff fuel s net).map fun strq => { s with lastOutStream := strq }

def ssPrioAdd (s : SsData) (i : StreamNo) (_ : Waiting) : SsData :=
  addToWheel (List.orderedInsert fun a b => s.priority a ≤ s.priority b) s i

def ssPrioRemove (s : SsData) (i : StreamNo) (m : Waiting) : SsData := ssDefaultRemove s i m

/-- The scan goes on from a stream to the next one of the same priority only. -/
def ssPrioSelect (cmtOnOff fuel : ℕ) (s : SsData) (net : Option NetId) : Option (Option StreamNo) :=
  Ring.scan (Ring.around (fun a b => s.priority b == s.priority a) s.wheel)
    (fun i => !blocked cmtOnOff net s i) s.lastOutStream fuel s.lastOutStream

/-- The message is not looked at: the calls below pass a null pointer for it. -/
def ssPrioSetValue (s : SsData) (i : StreamNo) (value : ℕ) : SsData :=
  let s := { s with priority := Function.update s.priority i value }
  let s := ssPrioRemove s i { id := 0, length := 0 }
  ssPrioAdd s i { id := 0, length := 0 }

def ssFbAdd (s : SsData) (i : StreamNo) (_ : Waiting) : SsData :=
  match s.outqueue i with
  | [] => s
  | first :: _ =>
    if i ∈ s.wheel then s
    else
      { s with
        rounds :=
          if s.rounds i < 0 then Function.update s.rounds i (first.length : ℤ) else s.rounds
        wheel := s.wheel ++ [i] }

def ssFbRemove (s : SsData) (i : StreamNo) (m : Waiting) : SsData := ssDefaultRemove s i m

/-- `strq` after a look at `strqt`: the stream that has to wait for the least. -/
def fbBetter (cmtOnOff : ℕ) (s : SsData) (net : Option NetId) (strqt strq : Option StreamNo) :
    Option StreamNo :=
  match strqt with
  | none => strq
  | some t =>
    if fbFits cmtOnOff net s t ∧ 0 ≤ s.rounds t ∧ ∀ b ∈ strq, s.rounds t < s.rounds b then some t
    else strq

/-- The next `strqt`: behind the end of the wheel the scan begins again. -/
def fbNext (s : SsData) : Option StreamNo → Option StreamNo
  | some t => Ring.next t s.wheel
  | none => s.wheel.head?

/-- The loop of `sctp_ss_fb_select`; it ends when `strqt` comes to `strq`, found or still null. -/
def fbScan (cmtOnOff : ℕ) (s : SsData) (net : Option NetId) :
    ℕ → Option StreamNo → Option StreamNo → Option (Option StreamNo)
  | 0, _, _ => none
  | fuel + 1, strqt, strq =>
    let best := fbBetter cmtOnOff s net strqt strq
    if fbNext s strqt = best then some best
    else fbScan cmtOnOff s net fuel (fbNext s strqt) best

/-- Where `sctp_ss_fb_select` begins. -/
def fbFirst (s : SsData) : Option StreamNo :=
  match s.lastOutStream with
  | none => s.wheel.head?
  | some t => if s.wheel.head? = s.wheel.getLast? then s.wheel.head? else Ring.next t s.wheel

def ssFbSelect (cmtOnOff fuel : ℕ) (s : SsData) (net : Option NetId) : Option (Option StreamNo) :=
  fbScan cmtOnOff s net fuel (fbFirst s) none

def ssFbScheduled (s : SsData) (i : StreamNo) : SsData :=
  let charged : StreamNo → ℤ := fun j =>
    if j ∈ s.wheel then max (s.rounds j - s.rounds i) 0 else s.rounds j
  { s with
    rounds := Function.update charged i
      (match s.outqueue i with
       | [] => -1
       | first :: _ => first.length)
    lastOutStream := some i }

def ssFcfsAdd (s : SsData) (i : StreamNo) (m : Waiting) : SsData :=
  if (i, m.id) ∈ s.outList then s else { s with outList := s.outList ++ [(i, m.id)] }

def ssFcfsRemove (s : SsData) (i : StreamNo) (m : Waiting) : SsData :=
  { s with outList := s.outList.erase (i, m.id) }

/-- The stream of the first message whose stream can send. -/
def fcfsScan (cmtOnOff : ℕ) (s : SsData) (net : Option NetId) :
    List (StreamNo × ℕ) → Option StreamNo
  | [] => none
  | sp :: rest => if blocked cmtOnOff net s sp.1 then fcfsScan cmtOnOff s net rest else some sp.1

def ssFcfsSelect (cmtOnOff _fuel : ℕ) (s : SsData) (net : Option NetId) : Option (Option StreamNo) :=
  some (fcfsScan cmtOnOff s net s.outList)

def ssFunctions : Discipline → SsFunctions
  | .default =>
    ⟨ssDefaultAdd, ssDefaultRemove, ssDefaultSelect, ssDefaultScheduled, ssDefaultPacketDone,
      ssDefaultSetValue⟩
  | .roundRobin =>
    ⟨ssRrAdd, ssDefaultRemove, ssDefaultSelect, ssDefaultScheduled, ssDefaultPacketDone,
      ssDefaultSetValue⟩
  | .roundRobinPacket =>
    ⟨ssRrAdd, ssDefaultRemove, ssRrpSelect, ssDefaultScheduled, ssRrpPacketDone,
      ssDefaultSetValue⟩
  | .priority =>
    ⟨ssPrioAdd, ssPrioRemove, ssPrioSelect, ssDefaultScheduled, ssDefaultPacketDone,
      ssPrioSetValue⟩
  | .fairBandwidth =>
    ⟨ssFbAdd, ssFbRemove, ssFbSelect, ssFbScheduled, ssDefaultPacketDone, ssDefaultSetValue⟩
  | .fcfs =>
    ⟨ssFcfsAdd, ssFcfsRemove, ssFcfsSelect, ssDefaultScheduled, ssDefaultPacketDone,
      ssDefaultSetValue⟩

inductive SsCall where
  /-- A message is put on its stream queue. -/
  | queued (i : StreamNo) (m : Waiting)
  /-- The user thread appends to the last message of the stream. -/
  | appended (i : StreamNo) (n : ℕ)
  /-- `sctp_move_to_outqueue` for the stream: it drops the finished messages at the head, then takes
  `n` bytes of the next message, which may be all of it; after a move of more than nothing the stream
  is reported as scheduled. -/
  | moved (i : StreamNo) (dropped n : ℕ) (finished : Bool)
  /-- The end of `sctp_fill_outqueue`. -/
  | packetDone (net : Option NetId)
  /-- `SCTP_SS_VALUE`. -/
  | setValue (i : StreamNo) (value : ℕ)
deriving DecidableEq, Repr

namespace SsData

def setOutqueue (s : SsData) (i : StreamNo) (q : List Waiting) : SsData :=
  { s with outqueue := Function.update s.outqueue i q }

/-- Take the first message off its stream queue and tell the scheduler. -/
def dropHead (d : Discipline) (s : SsData) (i : StreamNo) : SsData :=
  match s.outqueue i with
  | [] => s
  | m :: rest => (ssFunctions d).removeFromStream (s.setOutqueue i rest) i m

def dropHeads (d : Discipline) (i : StreamNo) : ℕ → SsData → SsData
  | 0, s => s
  | k + 1, s => dropHeads d i k (s.dropHead d i)

def take (s : SsData) (i : StreamNo) (n : ℕ) : SsData :=
  s.setOutqueue i ((s.outqueue i).modifyHead fun m => { m with length := m.length - n })

end SsData

/-- `none` is a call that cannot be made, or one that never returns. -/
def ssStep (d : Discipline) (cmtOnOff fuel : ℕ) (s : SsData) : SsCall → Option SsData
  | .queued i m =>
    if m.id ∈ (s.outqueue i).map Waiting.id then none
    else some ((ssFunctions d).addToStream (s.setOutqueue i (s.outqueue i ++ [m])) i m)
  | .appended i n =>
    some (s.setOutqueue i ((s.outqueue i).modifyLast fun m => { m with length := m.length + n }))
  | .moved i dropped n finished =>
    if n = 0 then some (dropHeads d i dropped s)
    else if (s.outqueue i).length ≤ dropped then none
    else
      let s := (dropHeads d i dropped s).take i n
      let s := if finished then s.dropHead d i else s
      some ((ssFunctions d).scheduled s i)
  | .packetDone net => (ssFunctions d).packetDone cmtOnOff fuel s net
  | .setValue i value => some ((ssFunctions d).setValue s i value)

def ssRun (d : Discipline) (cmtOnOff fuel : ℕ) : List SsCall → Option SsData :=
  Trace.run (ssStep d cmtOnOff fuel) SsData.init

end Sctp
