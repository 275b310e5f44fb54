import Sctp.Lib.UpdateFirst
import Sctp.Tsn

/-! ECN-ECHO and CWR on `control_send_queue`: `sctp_send_ecn_echo`, `sctp_send_cwr` and
`sctp_handle_ecn_cwr`. -/
namespace Sctp
open First

variable {n : ℕ}

/-- `SCTP_CWR_REDUCE_OVERRIDE` and `SCTP_CWR_IN_SAME_WINDOW`. -/
def cwrReduceOverride : BitVec 8 := 0x01
def cwrInSameWindow : BitVec 8 := 0x02

/-- The chunks of the control queue that the handlers of ECN look into, and the others by their id. -/
inductive EcnBody where
  | ecnEcho (tsn : Tsn) (numPktsSinceCwr : BitVec 32)
  | ecnCwr (tsn : Tsn) (chunkFlags : BitVec 8)
  | other (id : BitVec 8)
deriving DecidableEq, Repr

structure EcnChunk (n : ℕ) where
  body : EcnBody
  whoTo : Option (Fin n)
deriving DecidableEq, Repr

namespace EcnChunk

def isEcne (c : EcnChunk n) : Bool :=
  match c.body with
  | .ecnEcho _ _ => true
  | _ => false

def isCwr (c : EcnChunk n) : Bool :=
  match c.body with
  | .ecnCwr _ _ => true
  | _ => false

def echoTsn (c : EcnChunk n) : Option Tsn :=
  match c.body with
  | .ecnEcho tsn _ => some tsn
  | _ => none

def markEcne (highTsn : Tsn) (c : EcnChunk n) : EcnChunk n :=
  match c.body with
  | .ecnEcho tsn cnt => { c with body := .ecnEcho (if tsnGt highTsn tsn then highTsn else tsn) (cnt + 1) }
  | _ => c

/-- A later TSN is answered too, and the override is carried. -/
def renewCwr (highTsn : Tsn) (override : BitVec 8) (c : EcnChunk n) : EcnChunk n :=
  match c.body with
  | .ecnCwr tsn flags =>
    { c with
      body := .ecnCwr (if tsnGt highTsn tsn then highTsn else tsn)
        (if override &&& cwrReduceOverride = 0 then flags else flags ||| cwrReduceOverride) }
  | _ => c

/-- What says to whom an echo is queued. -/
def tag (c : EcnChunk n) : Bool × Option (Fin n) := (c.isEcne, c.whoTo)

@[simp] theorem tag_markEcne (t : Tsn) (c : EcnChunk n) : (c.markEcne t).tag = c.tag := by
  obtain ⟨body, whoTo⟩ := c
  cases body <;> rfl

@[simp] theorem tag_renewCwr (t : Tsn) (o : BitVec 8) (c : EcnChunk n) :
    (c.renewCwr t o).tag = c.tag := by
  obtain ⟨body, whoTo⟩ := c
  cases body <;> rfl

end EcnChunk

/-- `control_send_queue` with its counters. -/
structure EcnQueue (n : ℕ) where
  chunks : List (EcnChunk n)
  ecnEchoCntOnq : BitVec 16
  ctrlQueueCnt : ℤ
deriving DecidableEq, Repr

namespace EcnQueue

def echoFor (net : Fin n) (c : EcnChunk n) : Bool := c.isEcne && c.whoTo == some net

/-- `sctp_send_ecn_echo`; `alloc` tells whether there is memory for a new chunk. -/
def sendEcnEcho (net : Option (Fin n)) (highTsn : Tsn) (alloc : Bool) (q : EcnQueue n) : EcnQueue n :=
  match net with
  | none => q
  | some net =>
    match updateFirst (echoFor net) (EcnChunk.markEcne highTsn) q.chunks with
    | some chunks => { q with chunks := chunks }
    | none =>
      if alloc then
        { chunks := ⟨.ecnEcho highTsn 1, some net⟩ :: q.chunks
          ecnEchoCntOnq := q.ecnEchoCntOnq + 1
          ctrlQueueCnt := q.ctrlQueueCnt + 1 }
      else q

def sendCwr (net : Fin n) (highTsn : Tsn) (override : BitVec 8) (alloc : Bool) (q : EcnQueue n) :
    EcnQueue n :=
  match updateFirst (fun c => c.isCwr && c.whoTo == some net) (EcnChunk.renewCwr highTsn override)
      q.chunks with
  | some chunks => { q with chunks := chunks }
  | none =>
    if alloc then
      { q with
        chunks := q.chunks ++ [⟨.ecnCwr highTsn override, some net⟩]
        ctrlQueueCnt := q.ctrlQueueCnt + 1 }
    else q

/-- A CWR: where it came from, its TSN, and whether the override is set. -/
structure Cwr (n : ℕ) where
  net : Fin n
  tsn : Tsn
  chunkFlags : BitVec 8
deriving DecidableEq, Repr

def Cwr.override (cwr : Cwr n) : Bool := cwr.chunkFlags &&& cwrReduceOverride != 0

def Cwr.covers (cwr : Cwr n) (c : EcnChunk n) : Bool :=
  match c.body with
  | .ecnEcho tsn _ => (cwr.override || c.whoTo == some cwr.net) && tsnGe cwr.tsn tsn
  | _ => false

/-- The walk over the queue: what it leaves, how many chunks it frees, and whether it goes on from one of
them. -/
structure CwrWalk (n : ℕ) where
  chunks : List (EcnChunk n)
  freed : ℕ
  fromFreed : Bool
deriving DecidableEq, Repr

def Cwr.walk (cwr : Cwr n) : List (EcnChunk n) → CwrWalk n
  | [] => ⟨[], 0, false⟩
  | chk :: q =>
    if cwr.covers chk then
      -- with the override there is no break, and the next chunk is read from the freed one: its link is
      -- null when the chunk went to the free list
      ⟨q, 1, cwr.override⟩
    else
      let w := cwr.walk q
      { w with chunks := chk :: w.chunks }

def handleEcnCwr (cwr : Cwr n) (q : EcnQueue n) : EcnQueue n :=
  let w := cwr.walk q.chunks
  { chunks := w.chunks
    ecnEchoCntOnq := q.ecnEchoCntOnq - BitVec.ofNat 16 w.freed
    ctrlQueueCnt := q.ctrlQueueCnt - w.freed }

def queueOther (front : Bool) (id : BitVec 8) (whoTo : Option (Fin n)) (q : EcnQueue n) : EcnQueue n :=
  { q with
    chunks := if front then ⟨.other id, whoTo⟩ :: q.chunks else q.chunks ++ [⟨.other id, whoTo⟩]
    ctrlQueueCnt := q.ctrlQueueCnt + 1 }

def dropOther (place : ℕ) (q : EcnQueue n) : Option (EcnQueue n) :=
  match q.chunks[place]? with
  | none => none
  | some c =>
    if c.isEcne then none
    else some { q with chunks := q.chunks.eraseIdx place, ctrlQueueCnt := q.ctrlQueueCnt - 1 }

/-- The echoes to `net` go to `alt`: `sctp_mark_all_for_resend` and the timers of stream resets and ASCONFs. -/
def moveEchoes (net alt : Fin n) (q : EcnQueue n) : EcnQueue n :=
  { q with chunks := q.chunks.map fun c => if echoFor net c then { c with whoTo := some alt } else c }

/-- No two echoes come together at `alt`. -/
def Apart (q : EcnQueue n) (net alt : Fin n) : Prop :=
  net = alt ∨ q.chunks.any (echoFor net) = false ∨ q.chunks.any (echoFor alt) = false

instance (q : EcnQueue n) (net alt : Fin n) : Decidable (q.Apart net alt) :=
  inferInstanceAs (Decidable (_ ∨ _ ∨ _))

def echoed (l : List (EcnChunk n)) : List (Option (Fin n)) :=
  ((l.map EcnChunk.tag).filter Prod.fst).map Prod.snd

theorem echoed_cons (c : EcnChunk n) (l : List (EcnChunk n)) :
    echoed (c :: l) = if c.isEcne then c.whoTo :: echoed l else echoed l := by
  unfold echoed
  rw [List.map_cons, List.filter_cons]
  change List.map Prod.snd (if c.isEcne = true then _ else _) = _
  split_ifs
  · rfl
  · rfl

theorem echoed_append (l r : List (EcnChunk n)) : echoed (l ++ r) = echoed l ++ echoed r := by
  unfold echoed
  rw [List.map_append, List.filter_append, List.map_append]

theorem echoed_of_updateFirst {p : EcnChunk n → Bool} {f : EcnChunk n → EcnChunk n}
    (hf : ∀ c, (f c).tag = c.tag) {l l' : List (EcnChunk n)} (h : updateFirst p f l = some l') :
    echoed l' = echoed l := by
  unfold echoed
  rw [map_of_updateFirst hf h]

theorem mem_echoed_iff {l : List (EcnChunk n)} {net : Option (Fin n)} :
    net ∈ echoed l ↔ ∃ c ∈ l, c.isEcne = true ∧ c.whoTo = net := by
  unfold echoed
  simp [EcnChunk.tag]

theorem length_echoed (l : List (EcnChunk n)) : (echoed l).length = l.countP EcnChunk.isEcne := by
  unfold echoed
  rw [List.length_map, ← List.countP_eq_length_filter, List.countP_map]
  rfl

theorem count_echoed (net : Fin n) (l : List (EcnChunk n)) :
    (echoed l).count (some net) = l.countP (echoFor net) := by
  induction l with
  | nil => rfl
  | cons c l ih =>
    rw [echoed_cons, List.countP_cons, ← ih]
    cases hecne : c.isEcne with
    | false => simp [echoFor, hecne]
    | true => simp [echoFor, hecne, List.count_cons]

/-- The counters are right, and no two echoes are queued to one destination. -/
structure Counted (q : EcnQueue n) : Prop where
  echoCount : q.ecnEchoCntOnq.toNat = q.chunks.countP EcnChunk.isEcne
  ctrlCount : q.ctrlQueueCnt = q.chunks.length
  onePerNet : (echoed q.chunks).Nodup

theorem Counted.sendEcnEcho {q : EcnQueue n} (h : q.Counted) (net : Option (Fin n)) (highTsn : Tsn)
    (alloc : Bool) (hroom : q.chunks.countP EcnChunk.isEcne < 65535) :
    (q.sendEcnEcho net highTsn alloc).Counted := by
  unfold EcnQueue.sendEcnEcho
  cases net with
  | none => exact h
  | some net =>
    dsimp only
    cases hup : updateFirst (echoFor net) (EcnChunk.markEcne highTsn) q.chunks with
    | some chunks =>
      have hsame := echoed_of_updateFirst (EcnChunk.tag_markEcne highTsn) hup
      constructor
      · rw [← length_echoed, hsame, length_echoed]
        exact h.echoCount
      · rw [length_of_updateFirst hup]
        exact h.ctrlCount
      · rw [hsame]
        exact h.onePerNet
    | none =>
      dsimp only
      split_ifs
      · constructor
        · have hcount := h.echoCount
          rw [List.countP_cons_of_pos (by rfl), ← hcount]
          bv_omega
        · rw [h.ctrlCount, List.length_cons]
          push_cast
          rfl
        · rw [echoed_cons]
          refine List.nodup_cons.mpr ⟨?_, h.onePerNet⟩
          intro hin
          obtain ⟨c, hc, hecne, hwho⟩ := mem_echoed_iff.mp hin
          have hnot := updateFirst_eq_none_iff.mp hup c hc
          simp [echoFor, hecne, hwho] at hnot
      · exact h

theorem Counted.sendCwr {q : EcnQueue n} (h : q.Counted) (net : Fin n) (highTsn : Tsn)
    (override : BitVec 8) (alloc : Bool) : (q.sendCwr net highTsn override alloc).Counted := by
  unfold EcnQueue.sendCwr
  split
  · rename_i chunks hup
    have hsame := echoed_of_updateFirst (EcnChunk.tag_renewCwr highTsn override) hup
    constructor
    · rw [← length_echoed, hsame, length_echoed]
      exact h.echoCount
    · rw [length_of_updateFirst hup]
      exact h.ctrlCount
    · rw [hsame]
      exact h.onePerNet
  · split_ifs
    · constructor
      · rw [List.countP_append]
        exact h.echoCount
      · rw [h.ctrlCount, List.length_append]
        rfl
      · rw [echoed_append]
        exact (List.append_nil _).symm ▸ h.onePerNet
    · exact h

theorem Counted.queueOther {q : EcnQueue n} (h : q.Counted) (front : Bool) (id : BitVec 8)
    (whoTo : Option (Fin n)) : (q.queueOther front id whoTo).Counted := by
  unfold EcnQueue.queueOther
  cases front with
  | true =>
    constructor
    · exact h.echoCount
    · rw [h.ctrlCount, if_pos rfl, List.length_cons]
      push_cast
      rfl
    · exact h.onePerNet
  | false =>
    constructor
    · rw [if_neg Bool.false_ne_true, List.countP_append]
      exact h.echoCount
    · rw [h.ctrlCount, if_neg Bool.false_ne_true, List.length_append]
      rfl
    · rw [if_neg Bool.false_ne_true, echoed_append]
      exact (List.append_nil _).symm ▸ h.onePerNet

theorem echoed_eraseIdx {l : List (EcnChunk n)} {place : ℕ} {c : EcnChunk n} (hc : l[place]? = some c)
    (hecne : c.isEcne = false) : echoed (l.eraseIdx place) = echoed l := by
  obtain ⟨hlt, rfl⟩ := List.getElem?_eq_some_iff.mp hc
  have hsplit : l.take place ++ l[place] :: l.drop (place + 1) = l := by
    rw [List.getElem_cons_drop, List.take_append_drop]
  rw [List.eraseIdx_eq_take_drop_succ, echoed_append]
  conv_rhs => rw [← hsplit, echoed_append, echoed_cons, hecne]
  rfl

theorem Counted.dropOther {q q' : EcnQueue n} (h : q.Counted) {place : ℕ}
    (hdrop : q.dropOther place = some q') : q'.Counted := by
  unfold EcnQueue.dropOther at hdrop
  cases hc : q.chunks[place]? with
  | none =>
    rw [hc] at hdrop
    cases hdrop
  | some c =>
    rw [hc] at hdrop
    dsimp only at hdrop
    split_ifs at hdrop with hecne
    obtain rfl := Option.some.inj hdrop
    have hsame := echoed_eraseIdx hc (Bool.eq_false_of_not_eq_true hecne)
    have hlt := (List.getElem?_eq_some_iff.mp hc).1
    constructor
    · rw [← length_echoed, hsame, length_echoed]
      exact h.echoCount
    · rw [List.length_eraseIdx_of_lt hlt]
      change q.ctrlQueueCnt - 1 = _
      rw [h.ctrlCount]
      omega
    · rw [hsame]
      exact h.onePerNet

theorem some_mem_echoed_iff {l : List (EcnChunk n)} {net : Fin n} :
    some net ∈ echoed l ↔ l.any (echoFor net) = true := by
  rw [mem_echoed_iff, List.any_eq_true]
  simp [echoFor]

theorem echoed_moveEchoes (net alt : Fin n) (q : EcnQueue n) :
    echoed (q.moveEchoes net alt).chunks =
      (echoed q.chunks).map fun w => if w = some net then some alt else w := by
  unfold moveEchoes
  dsimp only
  induction q.chunks with
  | nil => rfl
  | cons c l ih =>
    rw [List.map_cons, echoed_cons, echoed_cons, ih]
    cases hecne : c.isEcne with
    | false =>
      have hsame : (if echoFor net c = true then { c with whoTo := some alt } else c) = c := by
        rw [echoFor, hecne, Bool.false_and, if_neg Bool.false_ne_true]
      rw [hsame, hecne]
      rfl
    | true =>
      have hmoved : (if echoFor net c = true then { c with whoTo := some alt } else c) =
          { c with whoTo := if c.whoTo = some net then some alt else c.whoTo } := by
        rw [echoFor, hecne, Bool.true_and]
        by_cases hwho : c.whoTo = some net
        · rw [if_pos (beq_iff_eq.2 hwho), if_pos hwho]
        · rw [if_neg (fun hb => hwho (eq_of_beq hb)), if_neg hwho]
      have hstill : EcnChunk.isEcne { c with whoTo := if c.whoTo = some net then some alt else c.whoTo } =
          true := hecne
      rw [hmoved, hstill]
      rfl

theorem Counted.moveEchoes {q : EcnQueue n} (h : q.Counted) {net alt : Fin n} (ha : q.Apart net alt) :
    (q.moveEchoes net alt).Counted := by
  constructor
  · rw [← length_echoed, echoed_moveEchoes, List.length_map, length_echoed]
    exact h.echoCount
  · exact h.ctrlCount.trans (congrArg Int.ofNat (List.length_map _).symm)
  · rw [echoed_moveEchoes]
    apply h.onePerNet.map_on
    intro x hx y hy hxy
    have hboth : net ≠ alt → some net ∈ echoed q.chunks → some alt ∈ echoed q.chunks → False := by
      intro hne hnet halt
      rw [some_mem_echoed_iff] at hnet halt
      obtain heq | hnone | hnone := ha
      · exact hne heq
      · exact Bool.false_ne_true (hnone.symm.trans hnet)
      · exact Bool.false_ne_true (hnone.symm.trans halt)
    by_cases heq : net = alt
    · subst heq
      split_ifs at hxy <;> simp_all
    · split_ifs at hxy with hxn hyn hyn
      · rw [hxn, hyn]
      · exact (hboth heq (hxn ▸ hx) (hxy ▸ hy)).elim
      · exact (hboth heq (hyn ▸ hy) (hxy.symm ▸ hx)).elim
      · exact hxy

/-- The walk takes the first chunk that is covered. -/
theorem walk_eq (cwr : Cwr n) (l : List (EcnChunk n)) :
    cwr.walk l = ⟨l.eraseP cwr.covers, if l.any cwr.covers then 1 else 0,
      l.any cwr.covers && cwr.override⟩ := by
  induction l with
  | nil => rfl
  | cons c l ih =>
    unfold Cwr.walk
    by_cases hc : cwr.covers c = true
    · rw [if_pos hc, List.eraseP_cons_of_pos hc, List.any_cons, hc]
      rfl
    · rw [if_neg hc, ih, List.eraseP_cons_of_neg hc, List.any_cons, Bool.eq_false_of_not_eq_true hc]
      rfl

theorem Cwr.isEcne_of_covers {cwr : Cwr n} {c : EcnChunk n} (h : cwr.covers c = true) :
    c.isEcne = true := by
  obtain ⟨body, whoTo⟩ := c
  cases body with
  | ecnEcho tsn cnt => rfl
  | ecnCwr tsn flags => cases h
  | other id => cases h

/-- Exactly the covered echoes go, and the walk does not go on from a freed chunk. -/
def CwrExact (q : EcnQueue n) (cwr : Cwr n) : Prop :=
  (q.handleEcnCwr cwr).chunks = q.chunks.filter (fun c => !cwr.covers c) ∧
    (cwr.walk q.chunks).fromFreed = false

theorem Counted.handleEcnCwr {q : EcnQueue n} (h : q.Counted) (cwr : Cwr n) :
    (q.handleEcnCwr cwr).Counted := by
  unfold EcnQueue.handleEcnCwr
  rw [walk_eq]
  cases hany : q.chunks.any cwr.covers with
  | false =>
    have hnone : ∀ c ∈ q.chunks, ¬ cwr.covers c = true := by
      simpa using hany
    rw [List.eraseP_of_forall_not hnone]
    constructor
    · exact (congrArg BitVec.toNat (BitVec.sub_zero _)).trans h.echoCount
    · exact (sub_zero _).trans h.ctrlCount
    · exact h.onePerNet
  | true =>
    obtain ⟨c, hc, hcov⟩ := List.any_eq_true.mp hany
    obtain ⟨a, l₁, l₂, _, ha, hsplit, herase⟩ := List.exists_of_eraseP hc hcov
    have hecne := Cwr.isEcne_of_covers ha
    have hcount : q.chunks.countP EcnChunk.isEcne =
        (l₁ ++ l₂).countP EcnChunk.isEcne + 1 := by
      rw [hsplit, List.countP_append, List.countP_cons_of_pos hecne, List.countP_append]
      omega
    rw [herase, if_pos rfl]
    constructor
    · have hold := h.echoCount
      change (q.ecnEchoCntOnq - 1).toNat = _
      bv_omega
    · change q.ctrlQueueCnt - (1 : ℕ) = _
      rw [h.ctrlCount, hsplit, List.length_append, List.length_append, List.length_cons]
      omega
    · have hsub : (echoed (l₁ ++ l₂)).Sublist (echoed q.chunks) := by
        rw [hsplit, echoed_append, echoed_append, echoed_cons, if_pos hecne]
        exact List.Sublist.append_left (List.sublist_cons_self _ _) _
      exact h.onePerNet.sublist hsub

/-- A CWR without the override covers the echo to where it came from at most. -/
theorem length_covered_le_one {q : EcnQueue n} (h : q.Counted) {cwr : Cwr n}
    (hover : cwr.override = false) : (q.chunks.filter cwr.covers).length ≤ 1 := by
  have hle : q.chunks.countP cwr.covers ≤ q.chunks.countP (echoFor cwr.net) := by
    apply List.countP_mono_left
    intro c _ hcov
    have hecne := Cwr.isEcne_of_covers hcov
    obtain ⟨body, whoTo⟩ := c
    cases body with
    | ecnEcho tsn cnt =>
      have hboth := hcov
      unfold Cwr.covers at hboth
      rw [hover, Bool.false_or] at hboth
      have hwho := (Bool.and_eq_true_iff.mp hboth).1
      exact Bool.and_eq_true_iff.mpr ⟨hecne, hwho⟩
    | ecnCwr tsn flags => cases hecne
    | other id => cases hecne
  rw [← List.countP_eq_length_filter]
  apply hle.trans
  rw [← count_echoed]
  exact List.nodup_iff_count_le_one.mp h.onePerNet _

/-- The walk is exact unless the override frees a chunk. -/
theorem cwrExact_iff {q : EcnQueue n} (h : q.Counted) (cwr : Cwr n) :
    q.CwrExact cwr ↔ (cwr.override = true → ∀ c ∈ q.chunks, cwr.covers c = false) := by
  unfold CwrExact EcnQueue.handleEcnCwr
  rw [walk_eq]
  dsimp only
  cases hover : cwr.override with
  | false =>
    refine iff_of_true ⟨?_, Bool.and_false _⟩ fun habs => ?_
    · exact eraseP_eq_filter (length_covered_le_one h hover)
    · cases habs
  | true =>
    rw [Bool.and_true]
    constructor
    · rintro ⟨_, hany⟩ _ c hc
      simpa using List.any_eq_false.mp hany c hc
    · intro hnone
      have hnot : ∀ c ∈ q.chunks, ¬ cwr.covers c = true := by
        intro c hc
        rw [hnone rfl c hc]
        exact Bool.false_ne_true
      constructor
      · rw [List.eraseP_of_forall_not hnot, eq_comm, List.filter_eq_self]
        intro c hc
        rw [hnone rfl c hc]
        rfl
      · exact List.any_eq_false.mpr hnot

def HasEcho (q : EcnQueue n) (net : Fin n) (tsn : Tsn) : Prop :=
  ∃ cnt, ⟨.ecnEcho tsn cnt, some net⟩ ∈ q.chunks

theorem HasEcho.echoFor_mem {q : EcnQueue n} {net : Fin n} {tsn : Tsn} (h : q.HasEcho net tsn) :
    q.chunks.any (echoFor net) = true := by
  obtain ⟨cnt, hmem⟩ := h
  refine List.any_eq_true.mpr ⟨_, hmem, ?_⟩
  unfold echoFor EcnChunk.isEcne
  rw [beq_self_eq_true]
  rfl

theorem hasEcho_of_echoFor {q : EcnQueue n} {net : Fin n} {c : EcnChunk n} (hc : c ∈ q.chunks)
    (hecho : echoFor net c = true) : ∃ tsn cnt, c = ⟨.ecnEcho tsn cnt, some net⟩ := by
  obtain ⟨hecne, hwho⟩ := Bool.and_eq_true_iff.mp hecho
  obtain ⟨body, whoTo⟩ := c
  obtain rfl : whoTo = some net := eq_of_beq hwho
  cases body with
  | ecnEcho tsn cnt => exact ⟨tsn, cnt, rfl⟩
  | ecnCwr tsn flags => cases hecne
  | other id => cases hecne

/-- What is queued to a destination behind a mark. -/
theorem hasEcho_sendEcnEcho {q : EcnQueue n} (h : q.Counted) {net net' : Fin n} {highTsn tsn' : Tsn}
    {alloc : Bool} (hecho : (q.sendEcnEcho (some net) highTsn alloc).HasEcho net' tsn') :
    (net' ≠ net ∧ q.HasEcho net' tsn') ∨
      (net' = net ∧ ∃ tsn, q.HasEcho net tsn ∧ tsn' = if tsnGt highTsn tsn then highTsn else tsn) ∨
      (net' = net ∧ q.chunks.any (echoFor net) = false ∧ alloc = true ∧ tsn' = highTsn) := by
  obtain ⟨cnt', hmem⟩ := hecho
  unfold sendEcnEcho at hmem
  dsimp only at hmem
  cases hup : updateFirst (echoFor net) (EcnChunk.markEcne highTsn) q.chunks with
  | some chunks =>
    rw [hup] at hmem
    obtain ⟨l₁, c, l₂, hsplit, hc, hbefore, rfl⟩ := updateFirst_split hup
    have hcin : c ∈ q.chunks := by
      rw [hsplit]
      exact List.mem_append_right _ List.mem_cons_self
    obtain ⟨tsn, cnt, rfl⟩ := hasEcho_of_echoFor hcin hc
    have hone : q.chunks.countP (echoFor net) ≤ 1 := by
      rw [← count_echoed]
      exact List.nodup_iff_count_le_one.mp h.onePerNet _
    have hafter : ∀ b ∈ l₂, ¬ echoFor net b = true := by
      rw [hsplit, List.countP_append, List.countP_cons_of_pos hc] at hone
      exact List.countP_eq_zero.mp (by omega)
    have hrest : ∀ b ∈ l₁ ++ l₂, echoFor net b = false := by
      intro b hb
      rcases List.mem_append.mp hb with hb | hb
      · exact hbefore b hb
      · exact Bool.eq_false_of_not_eq_true (hafter b hb)
    have hcases : (⟨.ecnEcho tsn' cnt', some net'⟩ : EcnChunk n) ∈ l₁ ++ l₂ ∨
        (⟨.ecnEcho tsn' cnt', some net'⟩ : EcnChunk n) =
          ⟨.ecnEcho (if tsnGt highTsn tsn then highTsn else tsn) (cnt + 1), some net⟩ := by
      rcases List.mem_append.mp hmem with hin | hin
      · exact Or.inl (List.mem_append_left _ hin)
      · rcases List.mem_cons.mp hin with heq | hin
        · exact Or.inr heq
        · exact Or.inl (List.mem_append_right _ hin)
    rcases hcases with hin | heq
    · refine Or.inl ⟨?_, cnt', ?_⟩
      · rintro rfl
        have hno := hrest _ hin
        simp [echoFor, EcnChunk.isEcne] at hno
      · rw [hsplit]
        rcases List.mem_append.mp hin with hin | hin
        · exact List.mem_append_left _ hin
        · exact List.mem_append_right _ (List.mem_cons_of_mem _ hin)
    · obtain ⟨hbody, hwho⟩ := EcnChunk.mk.inj heq
      obtain ⟨rfl, _⟩ := EcnBody.ecnEcho.inj hbody
      exact Or.inr (Or.inl ⟨Option.some.inj hwho, tsn, ⟨cnt, hcin⟩, rfl⟩)
  | none =>
    rw [hup] at hmem
    have hnone := updateFirst_eq_none_iff.mp hup
    have hany : q.chunks.any (echoFor net) = false :=
      List.any_eq_false.mpr fun c hc => by
        rw [hnone c hc]
        exact Bool.false_ne_true
    have hold : ∀ {t : Tsn}, q.HasEcho net' t → net' ≠ net := by
      rintro t ht rfl
      rw [ht.echoFor_mem] at hany
      cases hany
    dsimp only at hmem
    split_ifs at hmem with halloc
    · rcases List.mem_cons.mp hmem with heq | hin
      · obtain ⟨hbody, hwho⟩ := EcnChunk.mk.inj heq
        obtain ⟨rfl, _⟩ := EcnBody.ecnEcho.inj hbody
        exact Or.inr (Or.inr ⟨Option.some.inj hwho, hany, halloc, rfl⟩)
      · exact Or.inl ⟨hold ⟨cnt', hin⟩, cnt', hin⟩
    · exact Or.inl ⟨hold ⟨cnt', hmem⟩, cnt', hmem⟩

theorem hasEcho_sendCwr {q : EcnQueue n} {i net : Fin n} {t tsn : Tsn} {o : BitVec 8} {alloc : Bool}
    (hecho : (q.sendCwr i t o alloc).HasEcho net tsn) : q.HasEcho net tsn := by
  obtain ⟨cnt, hmem⟩ := hecho
  refine ⟨cnt, ?_⟩
  unfold sendCwr at hmem
  split at hmem
  · rename_i chunks hup
    obtain ⟨l₁, c, l₂, hsplit, hc, _, rfl⟩ := updateFirst_split hup
    rw [hsplit]
    rcases List.mem_append.mp hmem with hin | hin
    · exact List.mem_append_left _ hin
    · rcases List.mem_cons.mp hin with heq | hin
      · have htag := congrArg EcnChunk.isEcne heq
        have hsame := congrArg Prod.fst (EcnChunk.tag_renewCwr t o c)
        have hcwr := (Bool.and_eq_true_iff.mp hc).1
        obtain ⟨body, whoTo⟩ := c
        cases body with
        | ecnCwr tsn flags => cases htag
        | ecnEcho tsn cnt => cases hcwr
        | other id => cases hcwr
      · exact List.mem_append_right _ (List.mem_cons_of_mem _ hin)
  · split_ifs at hmem
    · rcases List.mem_append.mp hmem with hin | hin
      · exact hin
      · cases List.mem_singleton.mp hin
    · exact hmem

theorem hasEcho_handleEcnCwr {q : EcnQueue n} {cwr : Cwr n} {net : Fin n} {tsn : Tsn}
    (hecho : (q.handleEcnCwr cwr).HasEcho net tsn) : q.HasEcho net tsn := by
  obtain ⟨cnt, hmem⟩ := hecho
  unfold handleEcnCwr at hmem
  rw [walk_eq] at hmem
  exact ⟨cnt, List.mem_of_mem_eraseP hmem⟩

theorem hasEcho_queueOther {q : EcnQueue n} {front : Bool} {id : BitVec 8} {whoTo : Option (Fin n)}
    {net : Fin n} {tsn : Tsn} (hecho : (q.queueOther front id whoTo).HasEcho net tsn) :
    q.HasEcho net tsn := by
  obtain ⟨cnt, hmem⟩ := hecho
  refine ⟨cnt, ?_⟩
  unfold queueOther at hmem
  dsimp only at hmem
  split_ifs at hmem
  · rcases List.mem_cons.mp hmem with heq | hin
    · cases heq
    · exact hin
  · rcases List.mem_append.mp hmem with hin | hin
    · exact hin
    · cases List.mem_singleton.mp hin

theorem hasEcho_dropOther {q q' : EcnQueue n} {place : ℕ} (hdrop : q.dropOther place = some q')
    {net : Fin n} {tsn : Tsn} (hecho : q'.HasEcho net tsn) : q.HasEcho net tsn := by
  obtain ⟨cnt, hmem⟩ := hecho
  refine ⟨cnt, ?_⟩
  unfold dropOther at hdrop
  split at hdrop
  · cases hdrop
  · split_ifs at hdrop
    obtain rfl := Option.some.inj hdrop
    exact List.mem_of_mem_eraseIdx hmem

/-- What is queued to a destination when the echoes to `net` have moved. -/
theorem hasEcho_moveEchoes {q : EcnQueue n} {net alt net' : Fin n} {tsn : Tsn}
    (hecho : (q.moveEchoes net alt).HasEcho net' tsn) :
    net' = alt ∧ q.HasEcho net tsn ∨ q.HasEcho net' tsn := by
  obtain ⟨cnt, hmem⟩ := hecho
  obtain ⟨c, hc, heq⟩ := List.mem_map.1 hmem
  split_ifs at heq with hecho
  · obtain ⟨tsn', cnt', rfl⟩ := hasEcho_of_echoFor hc hecho
    obtain ⟨hbody, hwho⟩ := EcnChunk.mk.inj heq
    obtain ⟨rfl, rfl⟩ := EcnBody.ecnEcho.inj hbody
    exact .inl ⟨(Option.some.inj hwho).symm, cnt', hc⟩
  · exact .inr ⟨cnt, heq ▸ hc⟩

end EcnQueue

end Sctp
