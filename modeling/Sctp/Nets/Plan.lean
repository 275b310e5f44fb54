import Sctp.Nets.LoadInit

/-! The addresses that the parameters of the peer name, and how the variables follow them. -/
namespace Sctp.Nets

open Asconf (Addr)
open Auth
open Tlv (Param)

def confirmed (c : LoadCall) (d₀ : Dests) (a : Addr) : Bool :=
  match d₀.findnet a with
  | some n => !n.unconfirmed
  | none => !(c.add a).inScope

def routeOf (c : LoadCall) (d₀ : Dests) (a : Addr) : Option ℕ :=
  match d₀.findnet a with
  | some n => n.route
  | none => (c.add a).route

/-- The addresses on the list, the one that is primary, and the address variables. -/
structure Plan where
  known : List Addr
  primary : Option Addr
  vars : Vars
deriving DecidableEq, Repr

namespace Plan

variable (c : LoadCall) (d₀ : Dests)

/-- A new address becomes the primary one if there is none, or if the primary one has no route and the new one
has a route and is confirmed. -/
def adopt (primary : Option Addr) (a : Addr) : Option Addr :=
  match primary with
  | none => some a
  | some q =>
    if (routeOf c d₀ q).isNone && (routeOf c d₀ a).isSome && confirmed c d₀ a then some a else some q

def add (s : Plan) (a : Addr) : Plan :=
  if a ∈ s.known then s else { s with known := a :: s.known, primary := adopt c d₀ s.primary a }

theorem add_vars (s : Plan) (a : Addr) : (s.add c d₀ a).vars = s.vars := by
  unfold add
  split <;> rfl

/-- The primary address is asked for by a variable. -/
def select (s : Plan) (sa : Addr) : Plan :=
  if sa ∈ s.known ∧ confirmed c d₀ sa then { s with primary := some sa } else s

def step (s : Plan) (x : Param) : Plan :=
  match c.heardAddr x with
  | some a => if unicast a then { s with vars := s.vars.list a }.add c d₀ a else { s with vars := s.vars.list a }
  | none =>
    if x.type = setPrimAddr then
      match Load.lsa c x with
      | some a => { s with vars := s.vars.name a }.select c d₀ ((s.vars.name a).value c)
      | none => s
    else s

def start : Plan :=
  let s : Plan := ⟨d₀.addrs, (d₀.primary.bind d₀.get).map Dest.addr, ⟨0, 0, .src⟩⟩
  if c.legal c.src then s.add c d₀ c.src else s

def walk (xs : List Param) : Plan := xs.foldl (step c d₀) (start c d₀)

end Plan

def sourceTaken (c : LoadCall) (d₀ : Dests) : Bool := c.legal c.src || (c.found c.src && c.src ∈ d₀.addrs)

def listedAddrs (c : LoadCall) (xs : List Param) : List Addr := xs.filterMap c.listedAddr

/-- The address that a SET-PRIMARY parameter names. -/
def nameOf (c : LoadCall) (x : Param) : Option Addr := if x.type = setPrimAddr then Load.lsa c x else none

/-- What is picked at the SET-PRIMARY parameters, one after the other, by the parameters before and the address
named. -/
def selections (c : LoadCall) (pick : List Param → Addr → Option Addr) :
    List Param → List Param → List (Addr × Option Addr)
  | _, [] => []
  | pre, x :: xs => (nameOf c x).toList.map (fun a => (a, pick pre a)) ++ selections c pick (pre ++ [x]) xs

def keptAddrs (c : LoadCall) (d₀ : Dests) (xs : List Param) : List Addr :=
  if sourceTaken c d₀ then c.src :: listedAddrs c xs else listedAddrs c xs

namespace Dests

variable {c : LoadCall} {d₀ d d' : Dests} {kept known : List Addr} {primary : Option Addr}

/-- The destinations are as the walk over addresses has them. -/
structure Tracks (c : LoadCall) (d₀ : Dests) (kept known : List Addr) (primary : Option Addr) (d : Dests) :
    Prop where
  linked : d.Linked
  listed : ∀ a ∈ kept, a ∈ known
  known : ∀ a, a ∈ d.addrs ↔ a ∈ known
  old : ∀ a ∈ d₀.addrs, a ∈ d.addrs
  primary : (d.primary = none ∧ primary = none) ∨
    ∃ n ∈ d.nets, d.primary = some n.ptr ∧ primary = some n.addr
  unconfirmed : ∀ n ∈ d.nets, n.unconfirmed = !confirmed c d₀ n.addr
  route : ∀ n ∈ d.nets, n.route = routeOf c d₀ n.addr
  marked : ∀ n ∈ d.nets, n.notInAssoc = false ↔ n.addr ∈ kept

/-- A change of flags that are not tracked, or of the mark of one address. -/
theorem Tracks.update (h : Tracks c d₀ kept known primary d) {n : Dest} {f : Dest → Dest}
    {kept' : List Addr} (hf : ∀ m, (f m).ptr = m.ptr ∧ (f m).addr = m.addr ∧ (f m).route = m.route ∧
      (f m).unconfirmed = m.unconfirmed)
    (hmark : ∀ m ∈ d.nets, ((if m.ptr = n.ptr then f m else m).notInAssoc = false ↔ m.addr ∈ kept'))
    (hlisted : ∀ a ∈ kept', a ∈ known) : Tracks c d₀ kept' known primary (d.update n.ptr f) where
  linked := h.linked.update (fun m => (hf m).1) fun m => (hf m).2.1
  known := by
    rw [update_addrs fun m => (hf m).2.1]
    exact h.known
  old := by
    rw [update_addrs fun m => (hf m).2.1]
    exact h.old
  primary := by
    rcases h.primary with hnone | ⟨m, hm, hprimary, heq⟩
    · exact Or.inl hnone
    · refine Or.inr ⟨_, List.mem_map_of_mem hm, ?_, ?_⟩
      · split
        · rw [(hf m).1]
          exact hprimary
        · exact hprimary
      · split
        · rw [(hf m).2.1]
          exact heq
        · exact heq
  unconfirmed := by
    intro m' hm'
    obtain ⟨m, hm, rfl⟩ := List.mem_map.mp hm'
    split
    · rw [(hf m).2.2.2, (hf m).2.1]
      exact h.unconfirmed m hm
    · exact h.unconfirmed m hm
  route := by
    intro m' hm'
    obtain ⟨m, hm, rfl⟩ := List.mem_map.mp hm'
    split
    · rw [(hf m).2.2.1, (hf m).2.1]
      exact h.route m hm
    · exact h.route m hm
  marked := by
    intro m' hm'
    obtain ⟨m, hm, rfl⟩ := List.mem_map.mp hm'
    have haddr : (if m.ptr = n.ptr then f m else m).addr = m.addr := by
      split
      · exact (hf m).2.1
      · rfl
    rw [haddr]
    exact hmark m hm
  listed := hlisted

/-- An address that is on the list is marked as kept. -/
theorem Tracks.keep (h : Tracks c d₀ kept known primary d) {n : Dest} (hn : n ∈ d.nets) {f : Dest → Dest}
    (hf : ∀ m, (f m).ptr = m.ptr ∧ (f m).addr = m.addr ∧ (f m).route = m.route ∧
      (f m).unconfirmed = m.unconfirmed) (hmark : ∀ m, (f m).notInAssoc = false) :
    Tracks c d₀ (n.addr :: kept) known primary (d.update n.ptr f) := by
  have hlisted : ∀ a ∈ n.addr :: kept, a ∈ known := by
    intro a ha
    rcases List.mem_cons.mp ha with rfl | ha
    · exact (h.known _).mp (List.mem_map_of_mem hn)
    · exact h.listed a ha
  apply h.update hf ?_ hlisted
  intro m hm
  by_cases hptr : m.ptr = n.ptr
  · have heq : m = n := List.inj_on_of_nodup_map h.linked.ptrs hm hn hptr
    rw [if_pos hptr, hmark, heq]
    simp
  · have hne : m.addr ≠ n.addr := fun haddr =>
      hptr (congrArg Dest.ptr (List.inj_on_of_nodup_map h.linked.addrs hm hn haddr))
    rw [if_neg hptr, h.marked m hm, List.mem_cons, or_iff_right hne]

/-- The primary address behind an addition. -/
theorem adoptPrimary_eq (h : Tracks c d₀ kept known primary d) {net : Dest}
    (hroute : net.route = routeOf c d₀ net.addr) (hconfirmed : net.unconfirmed = !confirmed c d₀ net.addr) :
    (d.primary = none ∧ d.adoptPrimary net = some net.ptr ∧ primary = none) ∨
    ∃ n ∈ d.nets, primary = some n.addr ∧ d.adoptPrimary net =
      some (if (routeOf c d₀ n.addr).isNone && (routeOf c d₀ net.addr).isSome && confirmed c d₀ net.addr then
        net.ptr else n.ptr) := by
  unfold adoptPrimary
  rcases h.primary with ⟨hnone, heq⟩ | ⟨n, hn, hprimary, heq⟩
  · rw [hnone]
    exact Or.inl ⟨rfl, rfl, heq⟩
  · refine Or.inr ⟨n, hn, heq, ?_⟩
    rw [hprimary]
    dsimp only
    rw [get_ptr h.linked hn, Option.any_some, h.route n hn, hroute, hconfirmed, Bool.not_not]
    split <;> rfl

/-- An address that is new. -/
theorem Tracks.insertNew (h : Tracks c d₀ kept known primary d) {a : Addr} (ha : a ∉ d.addrs) :
    Tracks c d₀ (a :: kept) (a :: known) (Plan.adopt c d₀ primary a)
      (d.insertNew (d.newDest (c.add a) a)) := by
  have hperm := d.insertNew_nets_perm (d.newDest (c.add a) a)
  have hnets : ∀ n ∈ (d.insertNew (d.newDest (c.add a) a)).nets, n = d.newDest (c.add a) a ∨ n ∈ d.nets :=
    fun n hn => List.mem_cons.mp (hperm.mem_iff.mp hn)
  have ha₀ : d₀.findnet a = none := findnet_eq_none_iff.mpr fun hmem => ha (h.old a hmem)
  have hroute : (d.newDest (c.add a) a).route = routeOf c d₀ a := by
    unfold routeOf
    rw [ha₀]
    rfl
  have hconfirmed : (d.newDest (c.add a) a).unconfirmed = !confirmed c d₀ a := by
    unfold confirmed
    rw [ha₀]
    exact (Bool.not_not _).symm
  have hnew : d.newDest (c.add a) a ∈ (d.insertNew (d.newDest (c.add a) a)).nets :=
    hperm.mem_iff.mpr List.mem_cons_self
  have hprimary : (d.insertNew (d.newDest (c.add a) a)).primary = d.adoptPrimary (d.newDest (c.add a) a) :=
    primaryFirst_primary _
  constructor
  · exact h.linked.insertNew rfl ha
  · exact List.cons_subset_cons a h.listed
  · intro b
    have hmem : b ∈ (d.insertNew (d.newDest (c.add a) a)).addrs ↔ b = a ∨ b ∈ d.addrs :=
      (hperm.map Dest.addr).mem_iff.trans List.mem_cons
    rw [hmem, h.known b, List.mem_cons]
  · exact fun b hb => (hperm.map Dest.addr).mem_iff.mpr (List.mem_cons_of_mem _ (h.old b hb))
  · right
    rw [hprimary]
    rcases adoptPrimary_eq h hroute hconfirmed with ⟨-, hadopt, rfl⟩ | ⟨n, hn, rfl, hadopt⟩
    · exact ⟨_, hnew, hadopt, rfl⟩
    · unfold Plan.adopt
      dsimp only
      rw [hadopt]
      have haddr : (d.newDest (c.add a) a).addr = a := rfl
      rw [haddr]
      split
      · exact ⟨_, hnew, rfl, rfl⟩
      · exact ⟨n, hperm.mem_iff.mpr (List.mem_cons_of_mem _ hn), rfl, rfl⟩
  · intro n hn
    rcases hnets n hn with rfl | hn
    · exact hconfirmed
    · exact h.unconfirmed n hn
  · intro n hn
    rcases hnets n hn with rfl | hn
    · exact hroute
    · exact h.route n hn
  · intro n hn
    rcases hnets n hn with rfl | hn
    · exact iff_of_true rfl List.mem_cons_self
    · have hne : n.addr ≠ a := fun heq => ha (heq ▸ List.mem_map_of_mem hn)
      rw [h.marked n hn, List.mem_cons, or_iff_right hne]

variable {s : Plan}

/-- `sctp_add_remote_addr` for a source or listed address. -/
theorem Tracks.addRemoteAddr (h : Tracks c d₀ kept s.known s.primary d) {a : Addr}
    (hadd : d.addRemoteAddr (c.add a) a = some d') :
    Tracks c d₀ (a :: kept) (s.add c d₀ a).known (s.add c d₀ a).primary d' := by
  unfold Plan.add
  rcases addRemoteAddr_cases hadd with ⟨n, hn, rfl, rfl⟩ | ⟨ha, rfl⟩
  · rw [if_pos ((h.known _).mp (List.mem_map_of_mem hn))]
    exact h.keep hn (fun _ => ⟨rfl, rfl, rfl, rfl⟩) fun _ => rfl
  · rw [if_neg (mt (h.known a).mpr ha)]
    exact h.insertNew ha

/-- A destination found by its address. -/
theorem Tracks.clearNotInAssoc (h : Tracks c d₀ kept s.known s.primary d) {n : Dest} (hn : n ∈ d.nets) :
    Tracks c d₀ (n.addr :: kept) (s.add c d₀ n.addr).known (s.add c d₀ n.addr).primary
      (Load.clearNotInAssoc d n) := by
  unfold Plan.add
  rw [if_pos ((h.known _).mp (List.mem_map_of_mem hn))]
  exact h.keep hn (fun _ => ⟨rfl, rfl, rfl, rfl⟩) fun _ => rfl

theorem Tracks.of_perm (h : Tracks c d₀ kept known primary d) (hnets : d'.nets.Perm d.nets)
    (hcount : d'.numnets = d.numnets) (hfresh : d'.fresh = d.fresh) {primary' : Option Addr}
    (hprimary : (d'.primary = none ∧ primary' = none) ∨
      ∃ n ∈ d'.nets, d'.primary = some n.ptr ∧ primary' = some n.addr) :
    Tracks c d₀ kept known primary' d' where
  linked := h.linked.of_perm hnets hcount hfresh
  known := fun a => (hnets.map Dest.addr).mem_iff.trans (h.known a)
  old := fun a ha => (hnets.map Dest.addr).mem_iff.mpr (h.old a ha)
  primary := hprimary
  unconfirmed := fun n hn => h.unconfirmed n (hnets.mem_iff.mp hn)
  route := fun n hn => h.route n (hnets.mem_iff.mp hn)
  marked := fun n hn => h.marked n (hnets.mem_iff.mp hn)
  listed := h.listed

/-- `sctp_set_primary_addr` -/
theorem Tracks.setPrimaryAddr (h : Tracks c d₀ kept s.known s.primary d) (sa : Addr) :
    Tracks c d₀ kept (s.select c d₀ sa).known (s.select c d₀ sa).primary ((d.setPrimaryAddr sa).getD d) := by
  unfold Plan.select
  cases hset : d.setPrimaryAddr sa with
  | none =>
    have hnot : sa ∉ d.addrs := by
      unfold Dests.setPrimaryAddr at hset
      cases hfind : d.findnet sa with
      | none => exact findnet_eq_none_iff.mp hfind
      | some n =>
        rw [hfind] at hset
        dsimp only at hset
        split at hset <;> cases hset
    rw [if_neg fun hknown => hnot ((h.known sa).mpr hknown.1)]
    exact h
  | some d' =>
    obtain ⟨n, hn, rfl, ⟨hunconfirmed, rfl⟩ | ⟨hconfirmed, rfl⟩⟩ := setPrimaryAddr_cases hset
    · have hnot : confirmed c d₀ n.addr = false := by
        rw [h.unconfirmed n hn] at hunconfirmed
        simpa using hunconfirmed
      rw [if_neg fun hknown => absurd hknown.2 (by rw [hnot]; exact Bool.false_ne_true)]
      refine h.update (fun _ => ⟨rfl, rfl, rfl, rfl⟩) (fun m hm => ?_) h.listed
      rw [← h.marked m hm]
      split <;> exact Iff.rfl
    · have hyes : confirmed c d₀ n.addr = true := by
        rw [h.unconfirmed n hn] at hconfirmed
        simpa using hconfirmed
      rw [if_pos ⟨(h.known _).mp (List.mem_map_of_mem hn), hyes⟩]
      have hperm := d.makePrimary_perm n
      exact h.of_perm hperm (primaryFirst_numnets _) (primaryFirst_fresh _)
        (Or.inr ⟨n, hperm.mem_iff.mpr hn, primaryFirst_primary _, rfl⟩)

/-- What is found for an address. -/
theorem Tracks.findnet (h : Tracks c d₀ kept known primary d) (sa : Addr) :
    (d.findnet sa).map Dest.addr = if sa ∈ known then some sa else none := by
  cases hfind : d.findnet sa with
  | none =>
    rw [if_neg (mt (h.known sa).mpr (findnet_eq_none_iff.mp hfind))]
    rfl
  | some n =>
    obtain ⟨hn, rfl⟩ := findnet_eq_some_mem hfind
    rw [if_pos ((h.known _).mp (List.mem_map_of_mem hn))]
    rfl

theorem Tracks.congr_kept (h : Tracks c d₀ kept known primary d) {kept' : List Addr}
    (hkept : ∀ a, a ∈ kept ↔ a ∈ kept') : Tracks c d₀ kept' known primary d :=
  { h with
    marked := fun n hn => (h.marked n hn).trans (hkept n.addr)
    listed := fun a ha => h.listed a ((hkept a).mpr ha) }

end Dests

variable {c : LoadCall} {d₀ : Dests} {x : Param} {s s' : Load} {asconfSupported : Bool}

/-- The address by which the primary destination is asked for, if it is known. -/
def Plan.chosen (c : LoadCall) (s : Plan) (a : Addr) : Option Addr :=
  if (s.vars.name a).value c ∈ s.known then some ((s.vars.name a).value c) else none

/-- The variables of the function are as the walk over addresses has them. -/
structure Follows (c : LoadCall) (d₀ : Dests) (pre : List Param) (s : Load) : Prop where
  dests : Dests.Tracks c d₀ (keptAddrs c d₀ pre) (Plan.walk c d₀ pre).known (Plan.walk c d₀ pre).primary s.dests
  vars : s.vars = (Plan.walk c d₀ pre).vars
  others : s.others = c.others
  selected : s.selected = selections c (fun pre => (Plan.walk c d₀ pre).chosen c) [] pre

/-- A parameter that is neither about an address nor about the primary destination leaves these alone. -/
theorem turn_frame (hx : x.type ∉ [ipv4Address, ipv6Address, setPrimAddr])
    (h : s.turn c asconfSupported x = .go s') :
    s'.dests = s.dests ∧ s'.vars = s.vars ∧ s'.others = s.others ∧ s'.selected = s.selected := by
  rcases Load.turn_cases c asconfSupported x s with ⟨ht, heq⟩ | ⟨ht, heq⟩ | ⟨ht, heq⟩ | ⟨ht, heq⟩ |
    ⟨ht, heq⟩ | ⟨ht, heq⟩ | ⟨ht, heq⟩ | ⟨ht, heq⟩ | ⟨ht, heq⟩ | ⟨ht, heq⟩
  · exact absurd (ht ▸ List.mem_cons_self) hx
  · exact absurd (ht ▸ List.mem_cons_of_mem _ List.mem_cons_self) hx
  · rw [← Turn.go.inj (heq.symm.trans h)]
    exact ⟨rfl, rfl, rfl, rfl⟩
  · exact absurd (ht ▸ List.mem_cons_of_mem _ (List.mem_cons_of_mem _ List.mem_cons_self)) hx
  · rw [← Turn.go.inj (heq.symm.trans h)]
    exact ⟨rfl, rfl, rfl, rfl⟩
  · have hext := heq.symm.trans h
    unfold Load.extParam at hext
    split at hext
    · cases hext
    · rw [← Turn.go.inj hext]
      exact ⟨rfl, rfl, rfl, rfl⟩
  · rw [Load.randomTurn_go (heq.symm.trans h)]
    exact ⟨rfl, rfl, rfl, rfl⟩
  · rw [Load.hmacTurn_go (heq.symm.trans h)]
    exact ⟨rfl, rfl, rfl, rfl⟩
  · obtain ⟨saw, sawAck, rfl⟩ := Load.chunksTurn_go (heq.symm.trans h)
    exact ⟨rfl, rfl, rfl, rfl⟩
  · rw [h] at heq
    split at heq
    · cases heq
    · rw [Turn.go.inj heq]
      exact ⟨rfl, rfl, rfl, rfl⟩

theorem walk_append (pre : List Param) (x : Param) :
    Plan.walk c d₀ (pre ++ [x]) = (Plan.walk c d₀ pre).step c d₀ x := by
  unfold Plan.walk
  rw [List.foldl_append]
  rfl

theorem keptAddrs_append (pre : List Param) (x : Param) (b : Addr) :
    b ∈ keptAddrs c d₀ (pre ++ [x]) ↔ b ∈ keptAddrs c d₀ pre ∨ c.listedAddr x = some b := by
  have hlisted : b ∈ listedAddrs c (pre ++ [x]) ↔ b ∈ listedAddrs c pre ∨ c.listedAddr x = some b := by
    unfold listedAddrs
    rw [List.filterMap_append, List.mem_append]
    simp
  unfold keptAddrs
  split
  · rw [List.mem_cons, List.mem_cons, hlisted, or_assoc]
  · exact hlisted

theorem selections_append (pick : List Param → Addr → Option Addr) (pre xs : List Param) (x : Param) :
    selections c pick pre (xs ++ [x]) =
      selections c pick pre xs ++ (nameOf c x).toList.map fun a => (a, pick (pre ++ xs) a) := by
  induction xs generalizing pre with
  | nil => rw [List.nil_append, selections, selections, selections, List.append_nil, List.append_nil, List.nil_append]
  | cons y xs ih => rw [List.cons_append, selections, selections, ih, List.append_assoc, List.append_assoc,
      List.singleton_append]

theorem nameOf_of_ne (hx : x.type ≠ setPrimAddr) : nameOf c x = none := if_neg hx

/-- A turn that leaves the addresses alone. -/
theorem Follows.of_same {pre : List Param} (h : Follows c d₀ pre s)
    (hsame : s'.dests = s.dests ∧ s'.vars = s.vars ∧ s'.others = s.others ∧ s'.selected = s.selected)
    (hheard : c.heardAddr x = none) (hprim : x.type = setPrimAddr → Load.lsa c x = none) :
    Follows c d₀ (pre ++ [x]) s' := by
  obtain ⟨hdests, hvars, hothers, hselected⟩ := hsame
  have hlisted : c.listedAddr x = none := by
    unfold LoadCall.listedAddr
    rw [hheard]
    rfl
  have hstep : (Plan.walk c d₀ pre).step c d₀ x = Plan.walk c d₀ pre := by
    unfold Plan.step
    rw [hheard]
    dsimp only
    split
    · rename_i hx
      rw [hprim hx]
    · rfl
  constructor
  · rw [walk_append, hstep, hdests]
    refine h.dests.congr_kept fun b => ?_
    rw [keptAddrs_append, hlisted]
    simp
  · rw [walk_append, hstep, hvars]
    exact h.vars
  · rw [hothers]
    exact h.others
  · have hname : nameOf c x = none := by
      unfold nameOf
      split
      · exact hprim (by assumption)
      · rfl
    rw [selections_append, hname, hselected, h.selected]
    exact (List.append_nil _).symm

/-- A parameter with an address. -/
theorem Follows.addrParam {pre : List Param} (h : Follows c d₀ pre s)
    (hx : x.type = ipv4Address ∨ x.type = ipv6Address) (hother : ∀ a ∈ c.listedAddr x, c.others a = none)
    (hturn : (c.heardAddr x = none ∧ s' = s) ∨
      (∃ a, c.heardAddr x = some a ∧ unicast a = false ∧ s' = { s with vars := s.vars.list a }) ∨
      (∃ a codeAdd codeOther, c.heardAddr x = some a ∧ unicast a = true ∧
        Load.takeAddr c { s with vars := s.vars.list a } a codeAdd codeOther = .go s')) :
    Follows c d₀ (pre ++ [x]) s' := by
  have hprim : x.type ≠ setPrimAddr := by
    rcases hx with hx | hx
    · rw [hx]
      decide
    · rw [hx]
      decide
  rcases hturn with ⟨hheard, rfl⟩ | ⟨a, hheard, huni, rfl⟩ | ⟨a, codeAdd, codeOther, hheard, huni, htake⟩
  · exact h.of_same ⟨rfl, rfl, rfl, rfl⟩ hheard fun hx => absurd hx hprim
  · have hlisted : c.listedAddr x = none := by
      unfold LoadCall.listedAddr
      rw [hheard, Option.filter_some, if_neg (by rw [huni]; exact Bool.false_ne_true)]
    have hstep : (Plan.walk c d₀ pre).step c d₀ x =
        { Plan.walk c d₀ pre with vars := (Plan.walk c d₀ pre).vars.list a } := by
      unfold Plan.step
      rw [hheard]
      dsimp only
      rw [if_neg (by rw [huni]; exact Bool.false_ne_true)]
    constructor
    · rw [walk_append, hstep]
      refine h.dests.congr_kept fun b => ?_
      rw [keptAddrs_append, hlisted]
      simp
    · rw [walk_append, hstep, ← h.vars]
    · exact h.others
    · rw [selections_append, nameOf_of_ne hprim]
      exact h.selected.trans (List.append_nil _).symm
  · have hlisted : c.listedAddr x = some a := by
      unfold LoadCall.listedAddr
      rw [hheard, Option.filter_some, if_pos huni]
    have hstep : (Plan.walk c d₀ pre).step c d₀ x =
        Plan.add c d₀ { Plan.walk c d₀ pre with vars := (Plan.walk c d₀ pre).vars.list a } a := by
      unfold Plan.step
      rw [hheard]
      dsimp only
      rw [if_pos huni]
    have hnone : s.others a = none := by
      rw [h.others]
      exact hother a hlisted
    rcases Load.takeAddr_go htake with ⟨-, d, hd, rfl⟩ | ⟨o, d, hsome, -, rfl⟩
    · have htracks : Dests.Tracks c d₀ (a :: keptAddrs c d₀ pre)
          (Plan.add c d₀ { Plan.walk c d₀ pre with vars := (Plan.walk c d₀ pre).vars.list a } a).known
          (Plan.add c d₀ { Plan.walk c d₀ pre with vars := (Plan.walk c d₀ pre).vars.list a } a).primary d := by
        have hdests : Dests.Tracks c d₀ (keptAddrs c d₀ pre)
            { Plan.walk c d₀ pre with vars := (Plan.walk c d₀ pre).vars.list a }.known
            { Plan.walk c d₀ pre with vars := (Plan.walk c d₀ pre).vars.list a }.primary s.dests := h.dests
        rcases hd with hadd | ⟨n, hn, rfl, rfl⟩
        · exact hdests.addRemoteAddr hadd
        · exact hdests.clearNotInAssoc hn
      constructor
      · rw [walk_append, hstep]
        refine htracks.congr_kept fun b => ?_
        rw [keptAddrs_append, hlisted, List.mem_cons, Option.some.injEq, or_comm, eq_comm]
      · rw [walk_append, hstep]
        rw [Plan.add_vars, ← h.vars]
      · exact h.others
      · rw [selections_append, nameOf_of_ne hprim]
        exact h.selected.trans (List.append_nil _).symm
    · exact absurd (hnone.symm.trans hsome) nofun

/-- A SET-PRIMARY parameter. -/
theorem Follows.setPrimParam {pre : List Param} (h : Follows c d₀ pre s) (hx : x.type = setPrimAddr)
    (hturn : s.setPrimParam c asconfSupported x = .go s') : Follows c d₀ (pre ++ [x]) s' := by
  have hheard : c.heardAddr x = none := Load.heardAddr_of_type hx (by decide) (by decide)
  rcases Load.setPrimParam_go hturn with ⟨hlsa, rfl⟩ | ⟨a, hlsa, rfl⟩
  · exact h.of_same ⟨rfl, rfl, rfl, rfl⟩ hheard fun _ => hlsa
  · have hlisted : c.listedAddr x = none := by
      unfold LoadCall.listedAddr
      rw [hheard]
      rfl
    have hstep : (Plan.walk c d₀ pre).step c d₀ x =
        Plan.select c d₀ { Plan.walk c d₀ pre with vars := (Plan.walk c d₀ pre).vars.name a }
          (((Plan.walk c d₀ pre).vars.name a).value c) := by
      unfold Plan.step
      rw [hheard]
      dsimp only
      rw [if_pos hx, hlsa]
    have hdests : Dests.Tracks c d₀ (keptAddrs c d₀ pre)
        { Plan.walk c d₀ pre with vars := (Plan.walk c d₀ pre).vars.name a }.known
        { Plan.walk c d₀ pre with vars := (Plan.walk c d₀ pre).vars.name a }.primary s.dests := h.dests
    constructor
    · rw [walk_append, hstep, h.vars]
      refine (hdests.setPrimaryAddr _).congr_kept fun b => ?_
      rw [keptAddrs_append, hlisted]
      simp
    · rw [walk_append, hstep]
      unfold Plan.select
      rw [h.vars]
      split <;> rfl
    · exact h.others
    · have hfound : (s.dests.findnet ((s.vars.name a).value c)).map Dest.addr =
          (Plan.walk c d₀ pre).chosen c a := by
        rw [h.dests.findnet, h.vars]
        rfl
      have hname : nameOf c x = some a := (if_pos hx).trans hlsa
      rw [selections_append, hname, hfound, h.selected]
      rfl

theorem Follows.turn {pre : List Param} (h : Follows c d₀ pre s)
    (hother : ∀ a ∈ c.listedAddr x, c.others a = none) (hturn : s.turn c asconfSupported x = .go s') :
    Follows c d₀ (pre ++ [x]) s' := by
  by_cases hmem : x.type ∈ [ipv4Address, ipv6Address, setPrimAddr]
  · rcases Load.turn_cases c asconfSupported x s with ⟨hx, heq⟩ | ⟨hx, heq⟩ | ⟨hx, -⟩ | ⟨hx, heq⟩ | ⟨hx, -⟩ |
      ⟨hx, -⟩ | ⟨hx, -⟩ | ⟨hx, -⟩ | ⟨hx, -⟩ | ⟨hx, -⟩
    · exact h.addrParam (Or.inl hx) hother (Load.addrParam_go (Or.inl ⟨hx, heq.symm.trans hturn⟩))
    · exact h.addrParam (Or.inr hx) hother (Load.addrParam_go (Or.inr ⟨hx, heq.symm.trans hturn⟩))
    · exact absurd hmem (by rw [hx]; decide)
    · exact h.setPrimParam hx (heq.symm.trans hturn)
    · exact absurd hmem (by rw [hx]; decide)
    · exact absurd hmem (by rw [hx]; decide)
    · exact absurd hmem (by rw [hx]; decide)
    · exact absurd hmem (by rw [hx]; decide)
    · exact absurd hmem (by rw [hx]; decide)
    · simp only [List.mem_cons, List.not_mem_nil, or_false, not_or] at hmem hx
      rcases hmem with h4 | h6 | hprim
      · exact absurd h4 hx.1
      · exact absurd h6 hx.2.1
      · exact absurd hprim hx.2.2.2.1
  · simp only [List.mem_cons, List.not_mem_nil, or_false, not_or] at hmem
    have hheard : c.heardAddr x = none := Load.heardAddr_of_type rfl hmem.1 hmem.2.1
    exact h.of_same (turn_frame (by simpa using hmem) hturn) hheard fun hx => absurd hx hmem.2.2

namespace Dests

theorem findnet_addr {d : Dests} (h : d.Linked) {n : Dest} (hn : n ∈ d.nets) :
    d.findnet n.addr = some n := by
  cases hfind : d.findnet n.addr with
  | none => exact absurd (List.mem_map_of_mem hn) (findnet_eq_none_iff.mp hfind)
  | some m =>
    obtain ⟨hm, haddr⟩ := findnet_eq_some_mem hfind
    rw [List.inj_on_of_nodup_map h.addrs hm hn haddr]

/-- The walk starts with the destinations that were there, none of which is kept. -/
theorem tracks_markAll (c : LoadCall) {d : Dests} (hd : d.Linked) (hprimary : ∀ q ∈ d.primary, q ∈ d.ptrs) :
    Tracks c d [] d.addrs ((d.primary.bind d.get).map Dest.addr) (markAll d) where
  linked :=
    { count := by
        rw [markAll, List.length_map]
        exact hd.count
      ptrs := by
        rw [markAll_ptrs]
        exact hd.ptrs
      addrs := by
        rw [markAll_addrs]
        exact hd.addrs
      below := by
        intro n hn
        obtain ⟨m, hm, rfl⟩ := List.mem_map.mp hn
        exact hd.below m hm }
  known := by
    intro a
    rw [markAll_addrs]
  old := by
    rw [markAll_addrs]
    exact fun _ ha => ha
  primary := by
    cases hq : d.primary with
    | none => exact Or.inl ⟨hq, rfl⟩
    | some q =>
      obtain ⟨n, hn⟩ := exists_get (hprimary q hq)
      obtain ⟨hmem, rfl⟩ := get_eq_some_mem hn
      refine Or.inr ⟨_, List.mem_map_of_mem hmem, hq, ?_⟩
      rw [Option.bind_some, hn]
      rfl
  unconfirmed := by
    intro n hn
    obtain ⟨m, hm, rfl⟩ := List.mem_map.mp hn
    unfold confirmed
    rw [findnet_addr hd hm]
    exact (Bool.not_not _).symm
  route := by
    intro n hn
    obtain ⟨m, hm, rfl⟩ := List.mem_map.mp hn
    unfold routeOf
    rw [findnet_addr hd hm]
  marked := by
    intro n hn
    obtain ⟨m, hm, rfl⟩ := List.mem_map.mp hn
    exact iff_of_false nofun List.not_mem_nil
  listed := fun _ ha => absurd ha List.not_mem_nil

end Dests

theorem lookup_self {s : Load} {a : Addr} {n : Dest} (h : s.lookup c a = .self n) :
    c.found a = true ∧ n ∈ s.dests.nets ∧ n.addr = a := by
  unfold Load.lookup at h
  split at h
  · cases h
  split at h
  · rename_i m hself
    obtain rfl := Lookup.self.inj h
    split at hself
    · rename_i hfound
      exact ⟨hfound, Dests.findnet_eq_some_mem hself⟩
    · cases hself
  · cases h

theorem lookup_none {s : Load} {a : Addr} (h : s.lookup c a = .none) (hfound : c.found a = true) :
    a ∉ s.dests.addrs := by
  unfold Load.lookup at h
  split at h
  · cases h
  split at h
  · cases h
  · rename_i hself
    rw [if_pos hfound] at hself
    exact Dests.findnet_eq_none_iff.mp hself

/-- The source address. -/
theorem takeSource_tracks {d d' : Dests} (hd : d.Linked) (hprimary : ∀ q ∈ d.primary, q ∈ d.ptrs)
    (htake : takeSource c (markAll d) = .ok d') :
    Dests.Tracks c d (keptAddrs c d []) (Plan.start c d).known (Plan.start c d).primary d' := by
  have hmarked : Dests.Tracks c d [] (⟨d.addrs, (d.primary.bind d.get).map Dest.addr, ⟨0, 0, .src⟩⟩ : Plan).known
      (⟨d.addrs, (d.primary.bind d.get).map Dest.addr, ⟨0, 0, .src⟩⟩ : Plan).primary (markAll d) :=
    Dests.tracks_markAll c hd hprimary
  have haddrs : (Load.start c (markAll d) false).dests.addrs = d.addrs := Dests.markAll_addrs d
  unfold takeSource at htake
  unfold keptAddrs sourceTaken Plan.start
  cases hlookup : (Load.start c (markAll d) false).lookup c c.src with
  | none =>
    rw [hlookup] at htake
    dsimp only at htake
    by_cases hlegal : c.legal c.src = true
    · rw [if_pos hlegal] at htake
      rw [hlegal, Bool.true_or, if_pos rfl]
      cases hadd : (markAll d).addRemoteAddr (c.add c.src) c.src with
      | none =>
        rw [hadd] at htake
        cases htake
      | some d₁ =>
        rw [hadd] at htake
        obtain rfl := Except.ok.inj htake
        exact hmarked.addRemoteAddr hadd
    · rw [if_neg hlegal] at htake
      obtain rfl := Except.ok.inj htake
      have hnot : (c.found c.src && decide (c.src ∈ d.addrs)) = false := by
        rw [Bool.and_eq_false_iff, or_iff_not_imp_left, Bool.not_eq_false]
        intro hfound
        have habsent := lookup_none hlookup hfound
        rw [haddrs] at habsent
        exact decide_eq_false habsent
      rw [Bool.eq_false_iff.mpr hlegal, hnot, Bool.or_false, if_neg Bool.false_ne_true]
      exact hmarked
  | self n =>
    rw [hlookup] at htake
    obtain rfl := Except.ok.inj htake
    obtain ⟨hfound, hn, haddr⟩ := lookup_self hlookup
    have hmem : c.src ∈ d.addrs := by
      rw [← haddrs, ← haddr]
      exact List.mem_map_of_mem hn
    have htracks := hmarked.clearNotInAssoc hn
    unfold Plan.add at htracks ⊢
    rw [haddr, if_pos hmem] at htracks
    dsimp only
    rw [if_pos hmem, ite_self, hfound, decide_eq_true hmem, Bool.and_self, Bool.or_true, if_pos rfl]
    exact htracks
  | other o =>
    rw [hlookup] at htake
    cases htake

theorem follows_start {d d' : Dests} (hd : d.Linked) (hprimary : ∀ q ∈ d.primary, q ∈ d.ptrs) {ndata : Bool}
    (htake : takeSource c (markAll d) = .ok d') : Follows c d [] (.start c d' ndata) where
  dests := takeSource_tracks hd hprimary htake
  vars := by
    change _ = (Plan.start c d).vars
    unfold Plan.start
    split
    · dsimp only
      rw [Plan.add_vars]
      rfl
    · rfl
  others := rfl
  selected := rfl

/-- What is there when the loop is left. -/
theorem walkParams_follows {before : Features} {d : Dests} (hd : d.Linked)
    (hprimary : ∀ q ∈ d.primary, q ∈ d.ptrs)
    (hothers : ∀ x ∈ c.listed, ∀ a ∈ c.listedAddr x, c.others a = none)
    (h : walkParams c before d = .ok s) : Follows c d c.listed s := by
  obtain ⟨d', htake, hscan⟩ := walkParams_ok h
  apply scan_induction ?_ ?_ (follows_start hd hprimary htake) hscan
  · intro x hx s
    exact Load.turn_of_stops.2 (stops_of_mem_listed hx)
  · intro pre x s s' hx hfollows hturn
    exact hfollows.turn (hothers x hx) hturn

end Sctp.Nets
