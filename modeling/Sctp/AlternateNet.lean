import Sctp.Chunk
import Sctp.Lib.Ring

/-! `sctp_find_alternate_net`: another destination for what could not be delivered. -/
namespace Sctp

def addrReachable : BitVec 16 := 0x001
def addrUnconfirmed : BitVec 16 := 0x200
def addrPf : BitVec 16 := 0x800

structure AltNet where
  destState : BitVec 16
  /-- `ro.ro_rt` is not null. -/
  hasRoute : Bool
  cwnd : ℕ
  errorCount : ℕ
  lastActive : ℕ
deriving DecidableEq, Repr

namespace AltNet

def reachable (n : AltNet) : Bool := n.destState &&& addrReachable == addrReachable
def unconfirmed (n : AltNet) : Bool := n.destState &&& addrUnconfirmed != 0
def pf (n : AltNet) : Bool := n.destState &&& addrPf != 0

def usable (n : AltNet) : Bool := n.reachable && n.hasRoute && !n.unconfirmed

end AltNet

structure HbRandom where
  idx : ℕ
  values : ℕ → BitVec 8
  ectRandombit : ℕ

/-- The source addresses chosen for the destinations. -/
structure SrcAddrs where
  /-- `ro._s_addr` is not null. -/
  hasSrcAddr : NetId → Bool
  srcAddrSelected : NetId → Bool

/-- The list of destinations and what the search reads and writes besides. -/
structure AltAsoc where
  nets : List NetId
  nodup : nets.Nodup
  numnets : ℕ
  numnets_eq : numnets = nets.length
  info : NetId → AltNet
  hb : HbRandom
  src : SrcAddrs

/-- The next random byte. Four new ones are drawn when they are used up; modes 1 and 2 differ in where
they go on then. -/
def HbRandom.draw (restart : Bool) (rnd : ℕ → BitVec 8) (hb : HbRandom) : BitVec 8 × HbRandom :=
  if 3 < hb.idx then
    (rnd 0, { idx := if restart then 0 else (hb.idx + 1) % 256, values := rnd, ectRandombit := 0 })
  else (hb.values hb.idx, { hb with idx := hb.idx + 1, ectRandombit := 0 })

/-- The variables of the two searches through all destinations. -/
structure AltPick where
  minErrors : ℤ := -1
  minErrorsNet : Option NetId := none
  maxCwnd : ℕ := 0
  maxCwndNet : Option NetId := none
  hb : HbRandom

namespace AltAsoc

variable (a : AltAsoc)

/-- A destination that is not potentially failed is compared by `cwnd`. -/
def compareCwnd (restart : Bool) (rnd : NetId → ℕ → BitVec 8) (p : AltPick) (mnet : NetId) :
    AltPick :=
  if p.maxCwnd < (a.info mnet).cwnd then
    { p with maxCwndNet := some mnet, maxCwnd := (a.info mnet).cwnd }
  else if p.maxCwnd = (a.info mnet).cwnd then
    let r := p.hb.draw restart (rnd mnet)
    if r.1.toNat % 2 = 1 then
      { p with hb := r.2, maxCwndNet := some mnet, maxCwnd := (a.info mnet).cwnd }
    else { p with hb := r.2 }
  else p

/-- The error count; the current destination is about to have one error more. -/
def errorsWith (net : Option NetId) (mnet : NetId) : ℤ :=
  if some mnet = net then (a.info mnet).errorCount + 1 else (a.info mnet).errorCount

def compareErrors (net : Option NetId) (p : AltPick) (mnet : NetId) : AltPick :=
  let lastActive := (p.minErrorsNet.map fun m => (a.info m).lastActive).getD 0
  if p.minErrors = -1 ∨ a.errorsWith net mnet < p.minErrors ∨
      a.errorsWith net mnet = p.minErrors ∧ lastActive < (a.info mnet).lastActive then
    { p with minErrors := a.errorsWith net mnet, minErrorsNet := some mnet }
  else p

/-- Mode 2, which knows potentially failed destinations. -/
def pickPf (net : Option NetId) (rnd : NetId → ℕ → BitVec 8) (p : AltPick) (mnet : NetId) :
    AltPick :=
  if !(a.info mnet).reachable || (a.info mnet).unconfirmed then p
  else if (a.info mnet).pf then a.compareErrors net p mnet
  else a.compareCwnd false rnd p mnet

def pickCmt (rnd : NetId → ℕ → BitVec 8) (p : AltPick) (mnet : NetId) : AltPick :=
  if !(a.info mnet).reachable || (a.info mnet).unconfirmed then p
  else a.compareCwnd true rnd p mnet

/-- A destination without a route loses its source address. -/
def dropSrcAddr (src : SrcAddrs) (alt : NetId) : SrcAddrs :=
  if (a.info alt).hasRoute then src
  else
    { hasSrcAddr := Function.update src.hasSrcAddr alt false
      srcAddrSelected := Function.update src.srcAddrSelected alt false }

def rotateDormant (fuel : ℕ) (net : Option NetId) : Option (Option NetId) :=
  match net with
  | none => some a.nets.head?
  | some mnet =>
    (Ring.rotate a.nets (fun (_ : Unit) _ => ())
      (fun alt => !(a.info alt).unconfirmed && some alt != net) fuel () mnet false).map fun r =>
        match r.1 with
        | .found alt => some alt
        | .over | .empty => net

/-- From `mnet = net` to the end. -/
def searchUsable (fuel : ℕ) (net : Option NetId) : Option (Option NetId × AltAsoc) :=
  match net.or a.nets.head? with
  | none => some (none, a)
  | some mnet =>
    (Ring.rotate a.nets a.dropSrcAddr (fun alt => (a.info alt).usable) fuel a.src mnet false).bind
      fun r =>
        let a' := { a with src := r.2 }
        match r.1 with
        | .found alt => some (some alt, a')
        | .empty => some (none, a')
        | .over => (a'.rotateDormant fuel net).map fun alt => (alt, a')

end AltAsoc

/-- `sctp_find_alternate_net`. The outer `none` is a loop that still runs, the inner one a null
pointer. `rnd` is what `sctp_select_initial_TSN` would draw at each destination. -/
def findAlternateNet (rnd : NetId → ℕ → BitVec 8) (fuel : ℕ) (a : AltAsoc) (net : Option NetId)
    (mode : ℤ) : Option (Option NetId × AltAsoc) :=
  if a.numnets = 1 then some (a.nets.head?, a)
  else if mode = 2 then
    let p := a.nets.foldl (a.pickPf net rnd) { hb := a.hb }
    some ((p.maxCwndNet.or p.minErrorsNet).or net, { a with hb := p.hb })
  else if mode = 1 then
    let p := a.nets.foldl (a.pickCmt rnd) { hb := a.hb }
    let a' := { a with hb := p.hb }
    match p.maxCwndNet with
    | some alt => some (some alt, a')
    | none => a'.searchUsable fuel net
  else a.searchUsable fuel net

namespace AltAsoc

variable {a : AltAsoc} {net : Option NetId} {rnd : NetId → ℕ → BitVec 8}

/-- What is picked so far are destinations of the association. -/
def PicksMember (a : AltAsoc) (p : AltPick) : Prop :=
  (∀ alt ∈ p.maxCwndNet, alt ∈ a.nets) ∧ ∀ alt ∈ p.minErrorsNet, alt ∈ a.nets

theorem mem_of_mem_some {mnet : NetId} (h : mnet ∈ a.nets) : ∀ alt ∈ some mnet, alt ∈ a.nets :=
  fun _ halt => Option.some.inj halt ▸ h

theorem picksMember_compareCwnd {restart : Bool} {p : AltPick} {mnet : NetId}
    (h : PicksMember a p) (hmnet : mnet ∈ a.nets) :
    PicksMember a (a.compareCwnd restart rnd p mnet) := by
  unfold compareCwnd
  split
  · exact ⟨mem_of_mem_some hmnet, h.2⟩
  · split
    · dsimp only
      split
      · exact ⟨mem_of_mem_some hmnet, h.2⟩
      · exact h
    · exact h

theorem picksMember_pickPf {p : AltPick} {mnet : NetId} (h : PicksMember a p)
    (hmnet : mnet ∈ a.nets) : PicksMember a (a.pickPf net rnd p mnet) := by
  unfold pickPf
  split
  · exact h
  · split
    · unfold compareErrors
      dsimp only
      split
      · exact ⟨h.1, mem_of_mem_some hmnet⟩
      · exact h
    · exact picksMember_compareCwnd h hmnet

theorem picksMember_pickCmt {p : AltPick} {mnet : NetId} (h : PicksMember a p)
    (hmnet : mnet ∈ a.nets) : PicksMember a (a.pickCmt rnd p mnet) := by
  unfold pickCmt
  split
  · exact h
  · exact picksMember_compareCwnd h hmnet

theorem picksMember_foldl {pick : AltPick → NetId → AltPick}
    (hpick : ∀ p mnet, PicksMember a p → mnet ∈ a.nets → PicksMember a (pick p mnet))
    {ms : List NetId} (hms : ms ⊆ a.nets) {p : AltPick} (h : PicksMember a p) :
    PicksMember a (ms.foldl pick p) := by
  induction ms generalizing p with
  | nil => exact h
  | cons m ms ih =>
    have hm : m ∈ a.nets := hms List.mem_cons_self
    exact ih (fun x hx => hms (List.mem_cons_of_mem m hx)) (hpick p m h hm)

/-- A non-null answer of the association. -/
def Answers (a : AltAsoc) (r : Option NetId) : Prop := ∃ alt ∈ a.nets, r = some alt

theorem PicksMember.answers {p : AltPick} (h : PicksMember a p) (hnet : ∀ m ∈ net, m ∈ a.nets)
    (hsome : net.isSome) : Answers a ((p.maxCwndNet.or p.minErrorsNet).or net) := by
  obtain ⟨m, rfl⟩ := Option.isSome_iff_exists.1 hsome
  cases hmax : p.maxCwndNet with
  | some alt => exact ⟨alt, h.1 alt hmax, rfl⟩
  | none =>
    cases hmin : p.minErrorsNet with
    | some alt => exact ⟨alt, h.2 alt hmin, rfl⟩
    | none => exact ⟨m, hnet m rfl, rfl⟩

/-- The dormant state ends, with a destination when it was given one. -/
theorem exists_rotateDormant (hnet : ∀ m ∈ net, m ∈ a.nets) :
    ∃ fuel r, a.rotateDormant fuel net = some r ∧ (net.isSome → Answers a r) := by
  cases net with
  | none => exact ⟨0, a.nets.head?, rfl, nofun⟩
  | some m =>
    have hm : m ∈ a.nets := hnet m rfl
    obtain ⟨fuel, s', hs'⟩ := Ring.exists_rotate (fun (_ : Unit) _ => ())
      (fun alt => !(a.info alt).unconfirmed && some alt != some m) a.nodup hm ()
    cases hfind : (Ring.behind m a.nets ++ a.nets).find?
        fun alt => !(a.info alt).unconfirmed && some alt != some m with
    | none =>
      refine ⟨fuel, some m, ?_, fun _ => ⟨m, hm, rfl⟩⟩
      rw [rotateDormant, hs', hfind]
      rfl
    | some alt =>
      refine ⟨fuel, some alt, ?_, fun _ => ⟨alt, ?_, rfl⟩⟩
      · rw [rotateDormant, hs', hfind]
        rfl
      · obtain halt | halt := List.mem_append.1 (List.mem_of_find?_eq_some hfind)
        · exact Ring.mem_of_mem_behind halt
        · exact halt

theorem rotateDormant_of_le {fuel fuel' : ℕ} (hle : fuel ≤ fuel') {r : Option NetId}
    (h : a.rotateDormant fuel net = some r) : a.rotateDormant fuel' net = some r := by
  cases net with
  | none => exact h
  | some m =>
    obtain ⟨t, ht, rfl⟩ := Option.map_eq_some_iff.1 h
    rw [rotateDormant, Ring.rotate_of_le hle ht]
    rfl

theorem usable_of_find? {m alt : NetId}
    (h : (Ring.behind m a.nets ++ a.nets).find? (fun b => (a.info b).usable) = some alt) :
    alt ∈ a.nets ∧ (a.info alt).usable = true := by
  refine ⟨?_, List.find?_some (p := fun b => (a.info b).usable) h⟩
  obtain halt | halt := List.mem_append.1 (List.mem_of_find?_eq_some h)
  · exact Ring.mem_of_mem_behind halt
  · exact halt

/-- Everything else is looked at before the destination that the search began with. -/
theorem ne_of_find? {m alt b : NetId} (hm : m ∈ a.nets) (hb : b ∈ a.nets) (hbm : b ≠ m)
    (husable : (a.info b).usable = true)
    (h : (Ring.behind m a.nets ++ a.nets).find? (fun b => (a.info b).usable) = some alt) :
    alt ≠ m := by
  obtain ⟨pre, hpre, hmpre⟩ := Ring.exists_behind a.nodup hm
  rw [List.find?_append] at h
  obtain hbehind | ⟨hbehind, hrest⟩ := Option.or_eq_some_iff.1 h
  · intro heq
    exact Ring.notMem_behind a.nodup (heq ▸ List.mem_of_find?_eq_some hbehind)
  · have hbnot : b ∉ Ring.behind m a.nets := fun hmem =>
      List.find?_eq_none.1 hbehind b hmem husable
    have hbpre : b ∈ pre := by
      rw [hpre] at hb
      obtain hb | hb := List.mem_append.1 hb
      · exact hb
      · obtain hb | hb := List.mem_cons.1 hb
        · exact absurd hb hbm
        · exact absurd hb hbnot
    rw [hpre, List.find?_append] at hrest
    obtain hfirst | ⟨hnone, -⟩ := Option.or_eq_some_iff.1 hrest
    · exact ne_of_mem_of_not_mem (List.mem_of_find?_eq_some hfirst) hmpre
    · exact absurd husable (List.find?_eq_none.1 hnone b hbpre)

/-- The search from `net` on. -/
theorem exists_searchUsable (hnet : ∀ m ∈ net, m ∈ a.nets) :
    ∃ fuel r a', a.searchUsable fuel net = some (r, a') ∧ (net.isSome → Answers a r) ∧
      ((∃ b ∈ a.nets, some b ≠ net ∧ (a.info b).usable = true) →
        ∃ alt ∈ a.nets, r = some alt ∧ some alt ≠ net ∧ (a.info alt).usable = true) := by
  cases hstart : net.or a.nets.head? with
  | none =>
    obtain ⟨rfl, hempty⟩ := Option.or_eq_none_iff.1 hstart
    refine ⟨0, none, a, ?_, nofun, ?_⟩
    · rw [searchUsable, hstart]
    · rintro ⟨b, hb, -⟩
      rw [List.head?_eq_none_iff.1 hempty] at hb
      cases hb
  | some m =>
    have hm : m ∈ a.nets := by
      obtain hm | ⟨-, hm⟩ := Option.or_eq_some_iff.1 hstart
      · exact hnet m hm
      · exact List.mem_of_head? hm
    obtain ⟨fuel, src, hrotate⟩ :=
      Ring.exists_rotate a.dropSrcAddr (fun alt => (a.info alt).usable) a.nodup hm a.src
    cases hfind : (Ring.behind m a.nets ++ a.nets).find? fun alt => (a.info alt).usable with
    | some alt =>
      obtain ⟨halt, husable⟩ := usable_of_find? hfind
      refine ⟨fuel, some alt, { a with src := src }, ?_, fun _ => ⟨alt, halt, rfl⟩, ?_⟩
      · rw [searchUsable, hstart]
        dsimp only
        rw [hrotate, hfind]
        rfl
      · rintro ⟨b, hb, hbnet, hbusable⟩
        refine ⟨alt, halt, rfl, ?_, husable⟩
        cases net with
        | none => exact nofun
        | some n =>
          obtain rfl : n = m := by simpa using hstart
          have hbn : b ≠ n := fun h => hbnet (congrArg some h)
          have hne := ne_of_find? hm hb hbn hbusable hfind
          exact fun h => hne (Option.some.inj h)
    | none =>
      obtain ⟨fuel', r, hr, hanswers⟩ :=
        exists_rotateDormant (a := { a with src := src }) hnet
      refine ⟨max fuel fuel', r, { a with src := src }, ?_, hanswers, ?_⟩
      · rw [searchUsable, hstart]
        dsimp only
        rw [Ring.rotate_of_le (le_max_left fuel fuel') hrotate, hfind]
        change (rotateDormant { a with src := src } _ net).map _ = _
        rw [rotateDormant_of_le (le_max_right fuel fuel') hr]
        rfl
      · rintro ⟨b, hb, -, husable⟩
        have hmem : b ∈ Ring.behind m a.nets ++ a.nets := List.mem_append_right _ hb
        exact absurd husable (List.find?_eq_none.1 hfind b hmem)

end AltAsoc

open AltAsoc

/-- The search ends whatever the destinations are like. Given a destination of the association it
comes back with one, and in mode 0 with another that can be used as long as there is one. -/
theorem findAlternateNet_complete (rnd : NetId → ℕ → BitVec 8) (a : AltAsoc) (net : Option NetId)
    (mode : ℤ) (hnet : ∀ m ∈ net, m ∈ a.nets) :
    ∃ fuel r a', findAlternateNet rnd fuel a net mode = some (r, a') ∧
      (net.isSome → Answers a r) ∧
      (mode = 0 → (∃ b ∈ a.nets, some b ≠ net ∧ (a.info b).usable = true) →
        ∃ alt ∈ a.nets, r = some alt ∧ some alt ≠ net ∧ (a.info alt).usable = true) := by
  have hfresh : PicksMember a { hb := a.hb } := ⟨nofun, nofun⟩
  by_cases hone : a.numnets = 1
  · obtain ⟨m, hm⟩ : ∃ m, a.nets = [m] := List.length_eq_one_iff.1 (a.numnets_eq ▸ hone)
    have hmem : m ∈ a.nets := hm ▸ List.mem_singleton_self m
    have hhead : a.nets.head? = some m := by rw [hm, List.head?_cons]
    refine ⟨0, some m, a, ?_, fun _ => ⟨m, hmem, rfl⟩, ?_⟩
    · rw [findAlternateNet, if_pos hone, hhead]
    · rintro - ⟨b, hb, hbnet, husable⟩
      obtain rfl : b = m := List.mem_singleton.1 (hm ▸ hb)
      exact ⟨b, hmem, rfl, hbnet, husable⟩
  · by_cases htwo : mode = 2
    · subst htwo
      have hpicks : PicksMember a (a.nets.foldl (a.pickPf net rnd) { hb := a.hb }) :=
        picksMember_foldl (fun _ _ hp hm => picksMember_pickPf hp hm) (List.Subset.refl _) hfresh
      refine ⟨0, _, _, by rw [findAlternateNet, if_neg hone, if_pos rfl], fun hsome => ?_, nofun⟩
      exact hpicks.answers hnet hsome
    · by_cases hcmt : mode = 1
      · subst hcmt
        have hpicks : PicksMember a (a.nets.foldl (a.pickCmt rnd) { hb := a.hb }) :=
          picksMember_foldl (fun _ _ hp hm => picksMember_pickCmt hp hm) (List.Subset.refl _) hfresh
        generalize hp : a.nets.foldl (a.pickCmt rnd) { hb := a.hb } = p at hpicks
        cases hmax : p.maxCwndNet with
        | some alt =>
          refine ⟨0, some alt, { a with hb := p.hb }, ?_, fun _ => ?_, nofun⟩
          · rw [findAlternateNet, if_neg hone, if_neg htwo, if_pos rfl]
            simp only [hp, hmax]
          · exact ⟨alt, hpicks.1 alt hmax, rfl⟩
        | none =>
          obtain ⟨fuel, r, a', hsearch, hanswers, -⟩ :=
            exists_searchUsable (a := { a with hb := p.hb }) hnet
          refine ⟨fuel, r, a', ?_, hanswers, nofun⟩
          rw [findAlternateNet, if_neg hone, if_neg htwo, if_pos rfl]
          simp only [hp, hmax]
          exact hsearch
      · obtain ⟨fuel, r, a', hsearch, hanswers, hother⟩ := exists_searchUsable hnet
        refine ⟨fuel, r, a', ?_, hanswers, fun _ => hother⟩
        rw [findAlternateNet, if_neg hone, if_neg htwo, if_neg hcmt]
        exact hsearch

/-- Four destinations, of which number 1 cannot be reached and number 2 has no route. -/
def fourNets : AltAsoc where
  nets := [0, 1, 2, 3]
  nodup := by decide
  numnets := 4
  numnets_eq := rfl
  info n :=
    { destState := if n = 1 then 0 else addrReachable
      hasRoute := n ≠ 2
      cwnd := 4380
      errorCount := 0
      lastActive := 0 }
  hb := { idx := 0, values := fun _ => 0, ectRandombit := 0 }
  src := { hasSrcAddr := fun _ => true, srcAddrSelected := fun _ => true }

theorem fourNets_complete :
    ∃ fuel a', findAlternateNet (fun _ _ => 0) fuel fourNets (some 3) 0 = some (some 0, a') := by
  obtain ⟨fuel, r, a', hsearch, -, hother⟩ :=
    findAlternateNet_complete (fun _ _ => 0) fourNets (some 3) 0 (by decide)
  obtain ⟨alt, halt, rfl, hne, husable⟩ := hother rfl ⟨0, by decide, by decide, by decide⟩
  have hzero : ∀ b ∈ fourNets.nets, some b ≠ some 3 → (fourNets.info b).usable = true → b = 0 := by
    decide
  obtain rfl := hzero alt halt hne husable
  exact ⟨fuel, a', hsearch⟩

end Sctp
