import Sctp.AlternateNet
import Sctp.Asconf.Model

/-! The destinations of an association: how they are added and removed, and the pointers to them that the
association keeps. -/
namespace Sctp.Nets

open Asconf (Addr)

/-- `struct sctp_nets` with the flags of `dest_state`. -/
structure Dest where
  ptr : NetId
  addr : Addr
  reachable : Bool
  unconfirmed : Bool
  pf : Bool
  notInAssoc : Bool
  reqPrimary : Bool
  outOfScope : Bool
  /-- The interface of `ro.ro_rt`, if it is not null. -/
  route : Option ℕ
deriving DecidableEq, Repr

def Dest.usable (n : Dest) : Bool := n.reachable && n.route.isSome && !n.unconfirmed

def stateBits (reachable unconfirmed pf : Bool) : BitVec 16 :=
  (if reachable then addrReachable else 0) ||| (if unconfirmed then addrUnconfirmed else 0) |||
    (if pf then addrPf else 0)

def Dest.altNet (n : Dest) : AltNet where
  destState := stateBits n.reachable n.unconfirmed n.pf
  hasRoute := n.route.isSome
  cwnd := 0
  errorCount := 0
  lastActive := 0

theorem stateBits_unconfirmed (r u p : Bool) : (stateBits r u p &&& addrUnconfirmed != 0) = u := by
  revert r u p
  decide

theorem stateBits_reachable (r u p : Bool) : (stateBits r u p &&& addrReachable == addrReachable) = r := by
  revert r u p
  decide

@[simp] theorem Dest.altNet_unconfirmed (n : Dest) : n.altNet.unconfirmed = n.unconfirmed :=
  stateBits_unconfirmed _ _ _

@[simp] theorem Dest.altNet_usable (n : Dest) : n.altNet.usable = n.usable := by
  unfold AltNet.usable
  rw [Dest.altNet_unconfirmed]
  unfold AltNet.reachable Dest.altNet
  rw [stateBits_reachable]
  rfl

/-- What of `struct sctp_association` is about its destinations. -/
structure Dests where
  nets : List Dest
  numnets : ℕ
  primary : Option NetId
  alternate : Option NetId
  lastDataChunkFrom : Option NetId
  lastControlChunkFrom : Option NetId
  /-- The memory that the next destination gets. -/
  fresh : NetId
deriving DecidableEq, Repr

namespace Dests

def ptrs (d : Dests) : List NetId := d.nets.map Dest.ptr

def addrs (d : Dests) : List Addr := d.nets.map Dest.addr

def get (d : Dests) (ptr : NetId) : Option Dest := d.nets.find? fun n => n.ptr = ptr

def update (d : Dests) (ptr : NetId) (f : Dest → Dest) : Dests :=
  { d with nets := d.nets.map fun n => if n.ptr = ptr then f n else n }

def findnet (d : Dests) (a : Addr) : Option Dest := d.nets.find? fun n => n.addr = a

def primaryFirst (d : Dests) : Dests :=
  match d.primary.bind d.get with
  | none => d
  | some n => { d with nets := n :: d.nets.erase n }

end Dests

/-- What the rest of the system says about a new address. -/
structure AddEnv where
  alloc : Bool
  route : Option ℕ
  inScope : Bool
deriving DecidableEq, Repr

/-- The search for the place behind those with the same interface, from `netfirst` on. What has no route is
looked for one step ahead, and the new one stands before `netfirst` then. -/
def placeBehind (net : Dest) : List Dest → List Dest
  | [] => [net]
  | [netfirst] => [netfirst, net]
  | netfirst :: netlook :: nets =>
    if netlook.route = none then net :: netfirst :: netlook :: nets
    else if netlook.route ≠ net.route then netfirst :: netlook :: net :: nets
    else netfirst :: placeBehind net (netlook :: nets)

def place (net : Dest) (nets : List Dest) : List Dest :=
  if net.route = none then nets ++ [net]
  else
    match nets with
    | [] => [net]
    | netfirst :: rest =>
      if netfirst.route = none then net :: netfirst :: rest
      else if net.route ≠ netfirst.route then net :: netfirst :: rest
      else placeBehind net (netfirst :: rest)

namespace Dests

/-- A destination as `sctp_add_remote_addr` makes it. One out of scope counts as confirmed. -/
def newDest (d : Dests) (e : AddEnv) (a : Addr) : Dest where
  ptr := d.fresh
  addr := a
  reachable := true
  unconfirmed := e.inScope
  pf := false
  notInAssoc := false
  reqPrimary := false
  outOfScope := !e.inScope
  route := e.route

def adoptPrimary (d : Dests) (net : Dest) : Option NetId :=
  match d.primary with
  | none => some net.ptr
  | some q =>
    if ((d.get q).any fun n => n.route.isNone) && net.route.isSome && !net.unconfirmed then
      some net.ptr
    else some q

def insertNew (d : Dests) (net : Dest) : Dests :=
  primaryFirst
    { d with
      nets := place net d.nets
      numnets := d.numnets + 1
      primary := d.adoptPrimary net
      fresh := d.fresh + 1 }

def relist (n : Dest) : Dest :=
  { n with reachable := true, pf := false, notInAssoc := false, reqPrimary := false, outOfScope := false }

/-- `sctp_add_remote_addr` where the scope is not set and the address not known as confirmed. -/
def addRemoteAddr (d : Dests) (e : AddEnv) (a : Addr) : Option Dests :=
  match d.findnet a with
  | some n => some (d.update n.ptr relist)
  | none =>
    if a.isZero then none
    else if !e.alloc then none
    else some (d.insertNew (d.newDest e a))

/-- What `sctp_add_remote_addr` sets `*netp` to when it succeeds: for an address that is there it returns
before it would. -/
def netp (d : Dests) (a : Addr) : Option NetId :=
  match d.findnet a with
  | some _ => none
  | none => some d.fresh

/-- `sctp_find_alternate_net` in mode 0: the first that can be used behind `net` and then in the whole list;
if there is none, the first that is confirmed. -/
def alternateNet (d : Dests) (net : Option NetId) : Option NetId :=
  if d.numnets = 1 then d.ptrs.head?
  else
    match net with
    | none => (d.nets.head?.bind fun n =>
        ((Ring.behind n d.nets ++ d.nets).find? Dest.usable).or (some n)).map Dest.ptr
    | some m =>
      match d.get m with
      | none => some m
      | some n => (((Ring.behind n d.nets ++ d.nets).find? Dest.usable).or
          (((Ring.behind n d.nets ++ d.nets).find? fun alt => !alt.unconfirmed && alt.ptr != m).or
            (some n))).map Dest.ptr

def removeNet (d : Dests) (ptr : NetId) : Dests :=
  let d := { d with nets := d.nets.filter fun n => n.ptr ≠ ptr, numnets := d.numnets - 1 }
  { d with
    primary := if d.primary = some ptr then d.alternateNet d.ptrs.head? else d.primary
    lastDataChunkFrom := if d.lastDataChunkFrom = some ptr then d.ptrs.head? else d.lastDataChunkFrom
    lastControlChunkFrom := if d.lastControlChunkFrom = some ptr then none else d.lastControlChunkFrom
    alternate := if d.alternate = some ptr then none else d.alternate }

def delRemoteAddr (d : Dests) (a : Addr) : Dests × ℤ :=
  match d.findnet a with
  | none => (d, -2)
  | some n => if d.numnets < 2 then (d, -1) else (d.removeNet n.ptr, 0)

def makePrimary (d : Dests) (n : Dest) : Dests :=
  primaryFirst { d with primary := some n.ptr, alternate := if n.pf then d.alternate else none }

/-- `sctp_set_primary_addr` for an address; `none` is -1. -/
def setPrimaryAddr (d : Dests) (a : Addr) : Option Dests :=
  match d.findnet a with
  | none => none
  | some n =>
    if n.unconfirmed then some (d.update n.ptr fun n => { n with reqPrimary := true })
    else some (d.makePrimary n)

/-- `sctp_select_primary_destination`, which does not stop at the first it finds. -/
def selectPrimaryDestination (d : Dests) (reachable : Addr → Bool) : Dests :=
  match (d.nets.filter fun n => !n.unconfirmed && reachable n.addr).getLast? with
  | none => d
  | some n => { d with primary := some n.ptr }

end Dests

theorem placeBehind_perm (net : Dest) (nets : List Dest) : (placeBehind net nets).Perm (net :: nets) := by
  induction nets with
  | nil => exact List.Perm.refl _
  | cons netfirst nets ih =>
    cases nets with
    | nil => exact List.Perm.swap _ _ _
    | cons netlook nets =>
      rw [placeBehind]
      split
      · exact List.Perm.refl _
      split
      · exact ((List.Perm.swap net netlook nets).cons netfirst).trans (List.Perm.swap _ _ _)
      · exact (ih.cons netfirst).trans (List.Perm.swap _ _ _)

theorem place_perm (net : Dest) (nets : List Dest) : (place net nets).Perm (net :: nets) := by
  unfold place
  split
  · exact List.perm_append_singleton net nets
  cases nets with
  | nil => exact List.Perm.refl _
  | cons netfirst rest =>
    dsimp only
    split
    · exact List.Perm.refl _
    split
    · exact List.Perm.refl _
    · exact placeBehind_perm net _

namespace Dests

variable {d d' : Dests}

/-- The list is counted, and no destination or address is twice in it. -/
structure Linked (d : Dests) : Prop where
  count : d.numnets = d.nets.length
  ptrs : d.ptrs.Nodup
  addrs : d.addrs.Nodup
  below : ∀ n ∈ d.nets, n.ptr < d.fresh

theorem get_eq_some_mem {q : NetId} {n : Dest} (h : d.get q = some n) : n ∈ d.nets ∧ n.ptr = q := by
  have hq := List.find?_some h
  exact ⟨List.mem_of_find?_eq_some h, of_decide_eq_true hq⟩

theorem exists_get {q : NetId} (h : q ∈ d.ptrs) : ∃ n, d.get q = some n := by
  obtain ⟨n, hn, rfl⟩ := List.mem_map.mp h
  exact Option.isSome_iff_exists.mp (List.find?_isSome.mpr ⟨n, hn, decide_eq_true rfl⟩)

theorem findnet_eq_some_mem {a : Addr} {n : Dest} (h : d.findnet a = some n) :
    n ∈ d.nets ∧ n.addr = a := by
  have ha := List.find?_some h
  exact ⟨List.mem_of_find?_eq_some h, of_decide_eq_true ha⟩

theorem findnet_eq_none_iff {a : Addr} : d.findnet a = none ↔ a ∉ d.addrs := by
  unfold findnet addrs
  simp

theorem primaryFirst_perm (d : Dests) : d.primaryFirst.nets.Perm d.nets := by
  unfold primaryFirst
  cases h : d.primary.bind d.get with
  | none => exact List.Perm.refl _
  | some n =>
    obtain ⟨q, -, hq⟩ := Option.bind_eq_some_iff.mp h
    exact (List.perm_cons_erase (get_eq_some_mem hq).1).symm

@[simp] theorem primaryFirst_numnets (d : Dests) : d.primaryFirst.numnets = d.numnets := by
  unfold primaryFirst
  split <;> rfl

@[simp] theorem primaryFirst_primary (d : Dests) : d.primaryFirst.primary = d.primary := by
  unfold primaryFirst
  split <;> rfl

@[simp] theorem primaryFirst_alternate (d : Dests) : d.primaryFirst.alternate = d.alternate := by
  unfold primaryFirst
  split <;> rfl

@[simp] theorem primaryFirst_lastDataChunkFrom (d : Dests) :
    d.primaryFirst.lastDataChunkFrom = d.lastDataChunkFrom := by
  unfold primaryFirst
  split <;> rfl

@[simp] theorem primaryFirst_lastControlChunkFrom (d : Dests) :
    d.primaryFirst.lastControlChunkFrom = d.lastControlChunkFrom := by
  unfold primaryFirst
  split <;> rfl

@[simp] theorem primaryFirst_fresh (d : Dests) : d.primaryFirst.fresh = d.fresh := by
  unfold primaryFirst
  split <;> rfl

theorem Linked.of_perm (h : d.Linked) (hnets : d'.nets.Perm d.nets) (hcount : d'.numnets = d.numnets)
    (hfresh : d'.fresh = d.fresh) : d'.Linked where
  count := by rw [hcount, h.count, hnets.length_eq]
  ptrs := (hnets.map Dest.ptr).nodup_iff.mpr h.ptrs
  addrs := (hnets.map Dest.addr).nodup_iff.mpr h.addrs
  below := fun n hn => by
    rw [hfresh]
    exact h.below n (hnets.mem_iff.mp hn)

section Update

variable {q : NetId} {f : Dest → Dest}

theorem update_ptrs (hf : ∀ n, (f n).ptr = n.ptr) : (d.update q f).ptrs = d.ptrs := by
  unfold update ptrs
  rw [List.map_map]
  apply List.map_congr_left
  intro n _
  dsimp only [Function.comp_apply]
  split
  · exact hf n
  · rfl

theorem update_addrs (hf : ∀ n, (f n).addr = n.addr) : (d.update q f).addrs = d.addrs := by
  unfold update addrs
  rw [List.map_map]
  apply List.map_congr_left
  intro n _
  dsimp only [Function.comp_apply]
  split
  · exact hf n
  · rfl

theorem Linked.update (h : d.Linked) (hptr : ∀ n, (f n).ptr = n.ptr) (haddr : ∀ n, (f n).addr = n.addr) :
    (d.update q f).Linked where
  count := h.count.trans (List.length_map _).symm
  ptrs := by
    rw [update_ptrs hptr]
    exact h.ptrs
  addrs := by
    rw [update_addrs haddr]
    exact h.addrs
  below := by
    intro n hn
    obtain ⟨m, hm, rfl⟩ := List.mem_map.mp hn
    split
    · rw [hptr]
      exact h.below m hm
    · exact h.below m hm

end Update

theorem insertNew_nets_perm (d : Dests) (net : Dest) : (d.insertNew net).nets.Perm (net :: d.nets) :=
  (primaryFirst_perm _).trans (place_perm net d.nets)

theorem adoptPrimary_mem (d : Dests) (net : Dest) :
    d.adoptPrimary net = some net.ptr ∨ (∃ q, d.primary = some q ∧ d.adoptPrimary net = some q) := by
  unfold adoptPrimary
  cases d.primary with
  | none => exact Or.inl rfl
  | some q =>
    dsimp only
    split
    · exact Or.inl rfl
    · exact Or.inr ⟨q, rfl, rfl⟩

theorem Linked.insertNew (h : d.Linked) {net : Dest} (hptr : net.ptr = d.fresh)
    (haddr : net.addr ∉ d.addrs) : (d.insertNew net).Linked where
  count := by
    rw [(d.insertNew_nets_perm net).length_eq, List.length_cons, ← h.count]
    exact primaryFirst_numnets _
  ptrs := by
    apply ((d.insertNew_nets_perm net).map Dest.ptr).nodup_iff.mpr
    refine List.nodup_cons.mpr ⟨fun hmem => ?_, h.ptrs⟩
    obtain ⟨n, hn, hnptr⟩ := List.mem_map.mp hmem
    exact absurd (hnptr.trans hptr) (Nat.ne_of_lt (h.below n hn))
  addrs := by
    apply ((d.insertNew_nets_perm net).map Dest.addr).nodup_iff.mpr
    exact List.nodup_cons.mpr ⟨haddr, h.addrs⟩
  below := by
    intro n hn
    have hfresh : (d.insertNew net).fresh = d.fresh + 1 := primaryFirst_fresh _
    rw [hfresh]
    rcases List.mem_cons.mp ((d.insertNew_nets_perm net).mem_iff.mp hn) with rfl | hn
    · rw [hptr]
      exact Nat.lt_succ_self _
    · exact Nat.lt_succ_of_lt (h.below n hn)

/-- An addition either marks a destination or makes one. -/
theorem addRemoteAddr_cases {e : AddEnv} {a : Addr} (h : d.addRemoteAddr e a = some d') :
    (∃ n ∈ d.nets, n.addr = a ∧ d' = d.update n.ptr relist) ∨
      (a ∉ d.addrs ∧ d' = d.insertNew (d.newDest e a)) := by
  unfold addRemoteAddr at h
  cases hfind : d.findnet a with
  | some n =>
    rw [hfind] at h
    obtain ⟨hn, haddr⟩ := findnet_eq_some_mem hfind
    exact Or.inl ⟨n, hn, haddr, (Option.some.inj h).symm⟩
  | none =>
    rw [hfind] at h
    dsimp only at h
    split_ifs at h
    exact Or.inr ⟨findnet_eq_none_iff.mp hfind, (Option.some.inj h).symm⟩

theorem Linked.addRemoteAddr (hd : d.Linked) {e : AddEnv} {a : Addr} (h : d.addRemoteAddr e a = some d') :
    d'.Linked := by
  rcases addRemoteAddr_cases h with ⟨n, -, -, rfl⟩ | ⟨ha, rfl⟩
  · exact hd.update (fun _ => rfl) fun _ => rfl
  · exact hd.insertNew rfl ha

/-- The association keeps no pointer to what is not on its list. -/
structure Formed (d : Dests) : Prop extends Linked d where
  primary : ∃ q ∈ d.ptrs, d.primary = some q
  alternate : ∀ q ∈ d.alternate, q ∈ d.ptrs
  lastDataChunkFrom : ∀ q ∈ d.lastDataChunkFrom, q ∈ d.ptrs
  lastControlChunkFrom : ∀ q ∈ d.lastControlChunkFrom, q ∈ d.ptrs

/-- There is a destination. -/
theorem Formed.one_le (h : d.Formed) : 1 ≤ d.nets.length := by
  obtain ⟨q, hq, -⟩ := h.primary
  obtain ⟨n, hn, -⟩ := List.mem_map.mp hq
  exact List.length_pos_of_mem hn

/-- A list that grows keeps the pointers good. -/
theorem Formed.of_subset (h : d.Formed) (hlinked : d'.Linked) (hsub : d.ptrs ⊆ d'.ptrs)
    (hprimary : ∃ q ∈ d'.ptrs, d'.primary = some q)
    (halternate : d'.alternate = d.alternate ∨ d'.alternate = none)
    (hdata : d'.lastDataChunkFrom = d.lastDataChunkFrom)
    (hcontrol : d'.lastControlChunkFrom = d.lastControlChunkFrom) : d'.Formed where
  toLinked := hlinked
  primary := hprimary
  alternate := by
    intro q hq
    rcases halternate with heq | heq
    · rw [heq] at hq
      exact hsub (h.alternate q hq)
    · rw [heq] at hq
      cases hq
  lastDataChunkFrom := by
    rw [hdata]
    exact fun q hq => hsub (h.lastDataChunkFrom q hq)
  lastControlChunkFrom := by
    rw [hcontrol]
    exact fun q hq => hsub (h.lastControlChunkFrom q hq)

theorem Formed.update (h : d.Formed) {q : NetId} {f : Dest → Dest} (hptr : ∀ n, (f n).ptr = n.ptr)
    (haddr : ∀ n, (f n).addr = n.addr) : (d.update q f).Formed := by
  have hptrs : (d.update q f).ptrs = d.ptrs := update_ptrs hptr
  refine h.of_subset (h.toLinked.update hptr haddr) ?_ ?_ (Or.inl rfl) rfl rfl
  · rw [hptrs]
    exact List.Subset.refl _
  · rw [hptrs]
    exact h.primary

theorem Formed.addRemoteAddr (h : d.Formed) {e : AddEnv} {a : Addr}
    (hadd : d.addRemoteAddr e a = some d') : d'.Formed := by
  have hlinked := h.toLinked.addRemoteAddr hadd
  rcases addRemoteAddr_cases hadd with ⟨n, -, -, rfl⟩ | ⟨-, rfl⟩
  · exact h.update (fun _ => rfl) fun _ => rfl
  · have hptrs : (d.insertNew (d.newDest e a)).ptrs.Perm (d.fresh :: d.ptrs) :=
      (d.insertNew_nets_perm (d.newDest e a)).map Dest.ptr
    have hsub : d.ptrs ⊆ (d.insertNew (d.newDest e a)).ptrs := fun q hq =>
      hptrs.mem_iff.mpr (List.mem_cons_of_mem _ hq)
    refine h.of_subset hlinked hsub ?_ (Or.inl (primaryFirst_alternate _))
      (primaryFirst_lastDataChunkFrom _) (primaryFirst_lastControlChunkFrom _)
    have hprimary : (d.insertNew (d.newDest e a)).primary = d.adoptPrimary (d.newDest e a) :=
      primaryFirst_primary _
    rw [hprimary]
    obtain ⟨q, hq, hold⟩ := h.primary
    rcases d.adoptPrimary_mem (d.newDest e a) with hnew | ⟨q', hq', hkeep⟩
    · exact ⟨d.fresh, hptrs.mem_iff.mpr List.mem_cons_self, hnew⟩
    · obtain rfl : q = q' := Option.some.inj (hold.symm.trans hq')
      exact ⟨q, hsub hq, hkeep⟩

theorem makePrimary_perm (d : Dests) (n : Dest) : (d.makePrimary n).nets.Perm d.nets := primaryFirst_perm _

theorem Formed.makePrimary (h : d.Formed) {n : Dest} (hn : n ∈ d.nets) : (d.makePrimary n).Formed := by
  have hperm := d.makePrimary_perm n
  have hsub : d.ptrs ⊆ (d.makePrimary n).ptrs := fun q hq => (hperm.map Dest.ptr).mem_iff.mpr hq
  refine h.of_subset (h.toLinked.of_perm hperm (primaryFirst_numnets _) (primaryFirst_fresh _)) hsub
    ?_ ?_ (primaryFirst_lastDataChunkFrom _) (primaryFirst_lastControlChunkFrom _)
  · exact ⟨n.ptr, hsub (List.mem_map_of_mem hn), primaryFirst_primary _⟩
  · unfold Dests.makePrimary
    rw [primaryFirst_alternate]
    dsimp only
    split
    · exact Or.inl rfl
    · exact Or.inr rfl

/-- A request for another primary destination either marks a destination or makes it the primary one. -/
theorem setPrimaryAddr_cases {a : Addr} (h : d.setPrimaryAddr a = some d') :
    ∃ n ∈ d.nets, n.addr = a ∧
      ((n.unconfirmed = true ∧ d' = d.update n.ptr fun n => { n with reqPrimary := true }) ∨
        (n.unconfirmed = false ∧ d' = d.makePrimary n)) := by
  unfold setPrimaryAddr at h
  cases hfind : d.findnet a with
  | none =>
    rw [hfind] at h
    cases h
  | some n =>
    rw [hfind] at h
    dsimp only at h
    obtain ⟨hn, haddr⟩ := findnet_eq_some_mem hfind
    refine ⟨n, hn, haddr, ?_⟩
    split_ifs at h with hunconfirmed
    · exact Or.inl ⟨hunconfirmed, (Option.some.inj h).symm⟩
    · exact Or.inr ⟨Bool.eq_false_iff.mpr hunconfirmed, (Option.some.inj h).symm⟩

theorem Formed.setPrimaryAddr (h : d.Formed) {a : Addr} (hset : d.setPrimaryAddr a = some d') :
    d'.Formed ∧ d'.addrs.Perm d.addrs := by
  obtain ⟨n, hn, -, ⟨-, rfl⟩ | ⟨-, rfl⟩⟩ := setPrimaryAddr_cases hset
  · exact ⟨h.update (fun _ => rfl) fun _ => rfl, List.Perm.of_eq (update_addrs fun _ => rfl)⟩
  · exact ⟨h.makePrimary hn, (d.makePrimary_perm n).map _⟩

theorem alternateNet_mem {m : Option NetId} (hempty : d.nets ≠ []) (hm : ∀ q ∈ m, q ∈ d.ptrs) :
    ∃ q ∈ d.ptrs, d.alternateNet m = some q := by
  obtain ⟨n, rest, hnets⟩ := List.exists_cons_of_ne_nil hempty
  have hring : ∀ {x y : Dest}, x ∈ Ring.behind y d.nets ++ d.nets → x.ptr ∈ d.ptrs := by
    intro x y hx
    rcases List.mem_append.mp hx with hx | hx
    · exact List.mem_map_of_mem (Ring.mem_of_mem_behind hx)
    · exact List.mem_map_of_mem hx
  have hhead : d.nets.head? = some n := by rw [hnets, List.head?_cons]
  have hn : n.ptr ∈ d.ptrs := List.mem_map_of_mem (List.mem_of_head? hhead)
  unfold alternateNet
  split
  · refine ⟨n.ptr, hn, ?_⟩
    rw [ptrs, List.head?_map, hhead]
    rfl
  cases m with
  | none =>
    dsimp only
    rw [hhead, Option.bind_some]
    cases hfind : (Ring.behind n d.nets ++ d.nets).find? Dest.usable with
    | none => exact ⟨n.ptr, hn, rfl⟩
    | some alt => exact ⟨alt.ptr, hring (List.mem_of_find?_eq_some hfind), rfl⟩
  | some q =>
    obtain ⟨x, hx⟩ := exists_get (hm q rfl)
    dsimp only
    rw [hx]
    dsimp only
    cases hfind : (Ring.behind x d.nets ++ d.nets).find? Dest.usable with
    | some alt => exact ⟨alt.ptr, hring (List.mem_of_find?_eq_some hfind), rfl⟩
    | none =>
      cases hdormant : (Ring.behind x d.nets ++ d.nets).find? fun alt => !alt.unconfirmed && alt.ptr != q with
      | some alt => exact ⟨alt.ptr, hring (List.mem_of_find?_eq_some hdormant), rfl⟩
      | none => exact ⟨x.ptr, List.mem_map_of_mem (get_eq_some_mem hx).1, rfl⟩

theorem removeNet_nets (d : Dests) (q : NetId) : (d.removeNet q).nets = d.nets.filter fun n => n.ptr ≠ q := rfl

theorem removeNet_ptrs (d : Dests) (q : NetId) : (d.removeNet q).ptrs = d.ptrs.filter fun r => r ≠ q := by
  unfold ptrs
  rw [removeNet_nets, List.filter_map]
  rfl

theorem length_filter_ptr (h : d.ptrs.Nodup) {q : NetId} (hq : q ∈ d.ptrs) :
    (d.nets.filter fun n => n.ptr ≠ q).length = d.nets.length - 1 := by
  have hptrs : (d.ptrs.filter fun r => r ≠ q).length = d.ptrs.length - 1 := by
    rw [← List.length_erase_of_mem hq, h.erase_eq_filter]
    congr 1
    apply List.filter_congr
    intro r _
    by_cases hr : r = q <;> simp [hr]
  unfold ptrs at hptrs
  rw [List.filter_map, List.length_map, List.length_map] at hptrs
  exact hptrs

theorem Linked.removeNet (h : d.Linked) {q : NetId} (hq : q ∈ d.ptrs) : (d.removeNet q).Linked where
  count := by
    rw [removeNet_nets, length_filter_ptr h.ptrs hq, ← h.count]
    rfl
  ptrs := by
    rw [removeNet_ptrs]
    exact h.ptrs.filter _
  addrs := (List.filter_sublist.map Dest.addr).nodup h.addrs
  below := fun n hn => h.below n (List.mem_of_mem_filter hn)

theorem mem_removeNet_ptrs {q r : NetId} (hr : r ∈ d.ptrs) (hne : r ≠ q) : r ∈ (d.removeNet q).ptrs := by
  rw [removeNet_ptrs]
  exact List.mem_filter.mpr ⟨hr, decide_eq_true hne⟩

/-- Whatever pointed to the removed one points to another one, or nowhere. -/
theorem Formed.removeNet (h : d.Formed) {q : NetId} (hq : q ∈ d.ptrs) (hone : 2 ≤ d.nets.length) :
    (d.removeNet q).Formed where
  toLinked := h.toLinked.removeNet hq
  primary := by
    have hlinked := h.toLinked.removeNet hq
    have hempty : (d.removeNet q).nets ≠ [] := by
      intro hnil
      have hcount := hlinked.count
      rw [hnil] at hcount
      have hfew : d.numnets - 1 = 0 := hcount
      have := h.count
      omega
    by_cases hprimary : d.primary = some q
    · obtain ⟨r, hr, hsome⟩ := alternateNet_mem
        (d := { d with nets := d.nets.filter fun n => n.ptr ≠ q, numnets := d.numnets - 1 }) hempty
        (fun r hr => List.mem_of_head? hr)
      exact ⟨r, hr, (if_pos hprimary).trans hsome⟩
    · obtain ⟨r, hr, hsome⟩ := h.primary
      have hne : r ≠ q := by
        rintro rfl
        exact hprimary hsome
      exact ⟨r, mem_removeNet_ptrs hr hne, (if_neg hprimary).trans hsome⟩
  alternate := by
    intro r hr
    by_cases halternate : d.alternate = some q
    · cases (if_pos halternate).symm.trans hr
    · have hold : d.alternate = some r := (if_neg halternate).symm.trans hr
      refine mem_removeNet_ptrs (h.alternate r hold) ?_
      rintro rfl
      exact halternate hold
  lastDataChunkFrom := by
    intro r hr
    by_cases hdata : d.lastDataChunkFrom = some q
    · exact List.mem_of_head? ((if_pos hdata).symm.trans hr)
    · have hold : d.lastDataChunkFrom = some r := (if_neg hdata).symm.trans hr
      refine mem_removeNet_ptrs (h.lastDataChunkFrom r hold) ?_
      rintro rfl
      exact hdata hold
  lastControlChunkFrom := by
    intro r hr
    by_cases hcontrol : d.lastControlChunkFrom = some q
    · cases (if_pos hcontrol).symm.trans hr
    · have hold : d.lastControlChunkFrom = some r := (if_neg hcontrol).symm.trans hr
      refine mem_removeNet_ptrs (h.lastControlChunkFrom r hold) ?_
      rintro rfl
      exact hcontrol hold

def altAsoc (d : Dests) (h : d.Linked) (hb : HbRandom) (src : SrcAddrs) : AltAsoc where
  nets := d.ptrs
  nodup := h.ptrs
  numnets := d.numnets
  numnets_eq := h.count.trans (List.length_map _).symm
  info := fun q => ((d.get q).map Dest.altNet).getD ⟨0, false, 0, 0, 0⟩
  hb := hb
  src := src

theorem get_ptr (h : d.Linked) {n : Dest} (hn : n ∈ d.nets) : d.get n.ptr = some n := by
  obtain ⟨m, hm⟩ := exists_get (List.mem_map_of_mem hn : n.ptr ∈ d.ptrs)
  obtain ⟨hmem, hptr⟩ := get_eq_some_mem hm
  rw [hm, List.inj_on_of_nodup_map h.ptrs hmem hn hptr]

theorem map_behind (h : d.Linked) {n : Dest} (hn : n ∈ d.nets) :
    Ring.behind n.ptr d.ptrs = (Ring.behind n d.nets).map Dest.ptr := by
  obtain ⟨pre, post, hsplit⟩ := List.append_of_mem hn
  have hnodup := h.ptrs
  unfold ptrs at hnodup ⊢
  rw [hsplit, List.map_append, List.map_cons] at hnodup
  have hptr : n.ptr ∉ pre.map Dest.ptr := fun hmem =>
    (List.nodup_middle.mp hnodup).notMem (List.mem_append_left _ hmem)
  have hmem : n ∉ pre := fun hmem => hptr (List.mem_map_of_mem hmem)
  rw [hsplit, List.map_append, List.map_cons, Ring.behind_append hptr, Ring.behind_append hmem]

/-- A search by pointers is one through the destinations. -/
theorem find_ptrs (h : d.Linked) {n : Dest} (hn : n ∈ d.nets) {ok : NetId → Bool} {ok' : Dest → Bool}
    (hok : ∀ m ∈ d.nets, ok m.ptr = ok' m) :
    (Ring.behind n.ptr d.ptrs ++ d.ptrs).find? ok =
      ((Ring.behind n d.nets ++ d.nets).find? ok').map Dest.ptr := by
  rw [map_behind h hn]
  unfold ptrs
  rw [← List.map_append, List.find?_map]
  congr 1
  apply List.find?_congr
  intro m hm
  apply hok
  rcases List.mem_append.mp hm with hm | hm
  · exact Ring.mem_of_mem_behind hm
  · exact hm

theorem altAsoc_info (h : d.Linked) (hb : HbRandom) (src : SrcAddrs) {n : Dest} (hn : n ∈ d.nets) :
    (d.altAsoc h hb src).info n.ptr = n.altNet := by
  change ((d.get n.ptr).map Dest.altNet).getD _ = _
  rw [get_ptr h hn]
  rfl

/-- What the rotation in the dormant state comes to. -/
theorem rotateDormant_eq (h : d.Linked) (hb : HbRandom) (src : SrcAddrs) {n : Dest} (hn : n ∈ d.nets) :
    ∃ fuel, (d.altAsoc h hb src).rotateDormant fuel (some n.ptr) =
      some (((((Ring.behind n d.nets ++ d.nets).find?
        fun alt => !alt.unconfirmed && alt.ptr != n.ptr).or (some n)).map Dest.ptr)) := by
  have hmem : n.ptr ∈ (d.altAsoc h hb src).nets := List.mem_map_of_mem hn
  obtain ⟨fuel, s', hrotate⟩ := Ring.exists_rotate (fun (_ : Unit) _ => ())
    (fun alt => !((d.altAsoc h hb src).info alt).unconfirmed && some alt != some n.ptr)
    (d.altAsoc h hb src).nodup hmem ()
  have hsame : ∀ m ∈ d.nets, (!((d.altAsoc h hb src).info m.ptr).unconfirmed && some m.ptr != some n.ptr) =
      (!m.unconfirmed && m.ptr != n.ptr) := by
    intro m hm
    rw [altAsoc_info h hb src hm, Dest.altNet_unconfirmed]
    rfl
  have hfind := @find_ptrs d h n hn
    (fun alt => !((d.altAsoc h hb src).info alt).unconfirmed && some alt != some n.ptr)
    (fun alt => !alt.unconfirmed && alt.ptr != n.ptr) hsame
  have hptrs : (d.altAsoc h hb src).nets = d.ptrs := rfl
  rw [hptrs, hfind] at hrotate
  refine ⟨fuel, ?_⟩
  rw [AltAsoc.rotateDormant, hptrs, hrotate]
  cases (Ring.behind n d.nets ++ d.nets).find? _ <;> rfl

/-- The search of the loops and the one here find the same. -/
theorem findAlternateNet_eq (h : d.Linked) (rnd : NetId → ℕ → BitVec 8) (hb : HbRandom) (src : SrcAddrs)
    {n : Dest} (hn : n ∈ d.nets) :
    ∃ fuel a', findAlternateNet rnd fuel (d.altAsoc h hb src) (some n.ptr) 0 =
      some (d.alternateNet (some n.ptr), a') := by
  by_cases hone : d.numnets = 1
  · refine ⟨0, d.altAsoc h hb src, ?_⟩
    have hone' : (d.altAsoc h hb src).numnets = 1 := hone
    rw [findAlternateNet, if_pos hone', alternateNet, if_pos hone]
    rfl
  have hone' : (d.altAsoc h hb src).numnets ≠ 1 := hone
  have hmem : n.ptr ∈ (d.altAsoc h hb src).nets := List.mem_map_of_mem hn
  obtain ⟨fuel, src', hrotate⟩ := Ring.exists_rotate (d.altAsoc h hb src).dropSrcAddr
    (fun alt => ((d.altAsoc h hb src).info alt).usable) (d.altAsoc h hb src).nodup hmem src
  have hsame : ∀ m ∈ d.nets, ((d.altAsoc h hb src).info m.ptr).usable = m.usable := by
    intro m hm
    rw [altAsoc_info h hb src hm]
    exact m.altNet_usable
  have hfind := @find_ptrs d h n hn (fun alt => ((d.altAsoc h hb src).info alt).usable) Dest.usable hsame
  obtain ⟨fuel', hdormant⟩ := rotateDormant_eq h hb src' hn
  refine ⟨max fuel fuel', { d.altAsoc h hb src with src := src' }, ?_⟩
  rw [findAlternateNet, if_neg hone', if_neg (by decide), if_neg (by decide), alternateNet, if_neg hone]
  dsimp only
  rw [get_ptr h hn, AltAsoc.searchUsable, Option.some_or]
  dsimp only
  have hsrc : (d.altAsoc h hb src).src = src := rfl
  have hptrs : (d.altAsoc h hb src).nets = d.ptrs := rfl
  rw [hptrs, hfind, ← hptrs] at hrotate
  have hturned := Ring.rotate_of_le (le_max_left fuel fuel') hrotate
  have hdormant' : AltAsoc.rotateDormant { d.altAsoc h hb src with src := src' } (max fuel fuel') (some n.ptr) = _ :=
    AltAsoc.rotateDormant_of_le (le_max_right fuel fuel') hdormant
  rw [hsrc, hturned, Option.bind_some]
  dsimp only
  rw [hdormant']
  cases (Ring.behind n d.nets ++ d.nets).find? Dest.usable <;> rfl

end Dests

end Sctp.Nets
