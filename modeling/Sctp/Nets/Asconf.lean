import Sctp.Nets.Model

/-! What the parameters of an ASCONF do to the destinations. -/
namespace Sctp.Nets

open Asconf (Addr Inner inner innerEnd)

inductive ParamKind where
  | addIp
  | deleteIp
  | setPrimary
deriving DecidableEq, Repr

/-- A parameter: where its packet came from, what stands in memory from it on, and what the rest of the
system says about the address it adds. -/
structure AsconfParam where
  kind : ParamKind
  src : Addr
  bytes : Bytes
  env : AddEnv

/-- `aparam_length` -/
def AsconfParam.length (r : AsconfParam) : ℕ := r.bytes.u16 2

/-- With `sctp_nat_friendly` the address of zeros stands for the source address. -/
def orSource (natFriendly : Bool) (src a : Addr) : Addr := if a.isZero && natFriendly then src else a

namespace Dests

/-- The destinations behind a step, those that were removed and released before the walk went on from them,
and whether timers were started for a pointer that was never set. -/
structure Stepped where
  dests : Dests
  walkedFrom : List NetId
  wildNet : Bool

/-- A step that does nothing but change the destinations. -/
def stepped (d : Dests) : Stepped := ⟨d, [], false⟩

/-- `sctp_process_asconf_add_ip`, with the timers of `net`, which has no value at first. -/
def processAsconfAddIp (natFriendly : Bool) (r : AsconfParam) (d : Dests) : Stepped :=
  match inner r.bytes 8 with
  | .addr a =>
    if a.isBad then stepped d
    else
      match d.addRemoteAddr r.env (orSource natFriendly r.src a) with
      | none => stepped d
      | some d' => ⟨d', [], (d.netp (orSource natFriendly r.src a)).isNone⟩
  | _ => stepped d

/-- The loop of `sctp_asconf_del_remote_addrs_except`, a `TAILQ_FOREACH` that takes the link of a destination
after it has removed it. -/
def walkExcept (srcNet : NetId) : List Dest → Dests → Stepped
  | [], d => stepped d
  | net :: nets, d =>
    if net.ptr ≠ srcNet then
      let s := walkExcept srcNet nets (d.removeNet net.ptr)
      { s with walkedFrom := net.ptr :: s.walkedFrom }
    else walkExcept srcNet nets d

def delRemoteAddrsExcept (d : Dests) (src : Addr) : Stepped :=
  match d.findnet src with
  | none => stepped d
  | some srcNet => walkExcept srcNet.ptr d.nets d

def processAsconfDeleteIp (natFriendly : Bool) (r : AsconfParam) (d : Dests) : Stepped :=
  match inner r.bytes 8 with
  | .addr a =>
    if a = r.src then stepped d
    else if a.isZero && natFriendly then d.delRemoteAddrsExcept r.src
    else stepped (d.delRemoteAddr a).1
  | _ => stepped d

/-- A primary destination that can be reached needs no alternate one. -/
def dropAlternate (d : Dests) : Dests :=
  if ((d.primary.bind d.get).any fun n => n.reachable && !n.pf) then { d with alternate := none } else d

def processAsconfSetPrimary (natFriendly : Bool) (r : AsconfParam) (d : Dests) : Dests :=
  match inner r.bytes 8 with
  | .addr a => ((d.setPrimaryAddr (orSource natFriendly r.src a)).map dropAlternate).getD d
  | _ => d

def asconfStep (natFriendly : Bool) (r : AsconfParam) (d : Dests) : Stepped :=
  match r.kind with
  | .addIp => d.processAsconfAddIp natFriendly r
  | .deleteIp => d.processAsconfDeleteIp natFriendly r
  | .setPrimary => stepped (d.processAsconfSetPrimary natFriendly r)

/-- The end of `sctp_handle_asconf`. -/
def asconfReplied (d : Dests) (src : Addr) : Dests :=
  if d.lastControlChunkFrom = none then { d with lastControlChunkFrom := (d.findnet src).map Dest.ptr }
  else d

end Dests

/-- What a parameter does to the addresses, given the address that it is about. -/
def changed (natFriendly : Bool) (r : AsconfParam) (a : Addr) (addrs : List Addr) : List Addr :=
  match r.kind with
  | .addIp =>
    if a.isBad ∨ orSource natFriendly r.src a ∈ addrs ∨ (orSource natFriendly r.src a).isZero ∨
        r.env.alloc = false then addrs
    else orSource natFriendly r.src a :: addrs
  | .deleteIp =>
    if a = r.src then addrs
    else if a.isZero && natFriendly then if r.src ∈ addrs then [r.src] else addrs
    else if addrs.length < 2 then addrs
    else addrs.erase a
  | .setPrimary => addrs

/-- The address in a parameter, if its bytes lie in the length of the parameter. -/
def AsconfParam.named (r : AsconfParam) : Option Addr :=
  match inner r.bytes 8 with
  | .addr a => if innerEnd r.bytes 8 ≤ r.length then some a else none
  | _ => none

def wanted (natFriendly : Bool) (r : AsconfParam) (addrs : List Addr) : List Addr :=
  match r.named with
  | none => addrs
  | some a => changed natFriendly r a addrs

open Dests in
structure StepWell (natFriendly : Bool) (r : AsconfParam) (d : Dests) : Prop where
  formed : (d.asconfStep natFriendly r).dests.Formed
  addrs : (d.asconfStep natFriendly r).dests.addrs.Perm (wanted natFriendly r d.addrs)
  source : r.src ∈ d.addrs → r.src ∈ (d.asconfStep natFriendly r).dests.addrs
  walked : (d.asconfStep natFriendly r).walkedFrom = []
  sound : (d.asconfStep natFriendly r).wildNet = false

/-- The address is read from behind the parameter, and it makes a difference. -/
def Overread (natFriendly : Bool) (r : AsconfParam) (d : Dests) : Prop :=
  ∃ a, inner r.bytes 8 = .addr a ∧ r.length < innerEnd r.bytes 8 ∧
    changed natFriendly r a d.addrs ≠ d.addrs

/-- All destinations but one are deleted at once. -/
def MassDeletion (natFriendly : Bool) (r : AsconfParam) (d : Dests) : Prop :=
  r.kind = .deleteIp ∧ natFriendly = true ∧ r.src ∈ d.addrs ∧ 2 ≤ d.nets.length ∧
    ∃ a, inner r.bytes 8 = .addr a ∧ a.isZero = true ∧ a ≠ r.src

def Readdition (natFriendly : Bool) (r : AsconfParam) (d : Dests) : Prop :=
  r.kind = .addIp ∧ ∃ a, inner r.bytes 8 = .addr a ∧ a.isBad = false ∧
    orSource natFriendly r.src a ∈ d.addrs

namespace Dests

variable {d : Dests} {natFriendly : Bool} {r : AsconfParam}

theorem two_le_of_ne {q q' : NetId} (hq : q ∈ d.ptrs) (hq' : q' ∈ d.ptrs) (hne : q ≠ q') :
    2 ≤ d.nets.length := by
  obtain ⟨n, hn, rfl⟩ := List.mem_map.mp hq
  obtain ⟨n', hn', rfl⟩ := List.mem_map.mp hq'
  have hnn : n ≠ n' := fun h => hne (congrArg Dest.ptr h)
  cases hnets : d.nets with
  | nil =>
    rw [hnets] at hn
    cases hn
  | cons x rest =>
    cases rest with
    | nil =>
      rw [hnets] at hn hn'
      exact absurd ((List.mem_singleton.mp hn).trans (List.mem_singleton.mp hn').symm) hnn
    | cons y rest =>
      rw [List.length_cons, List.length_cons]
      omega

/-- Each round of the walk removes what it comes to, unless it is the source. -/
theorem walkExcept_formed {srcNet : NetId} {nets : List Dest} (h : d.Formed) (hsrc : srcNet ∈ d.ptrs)
    (hnets : ∀ n ∈ nets, n.ptr ∈ d.ptrs) (hnodup : (nets.map Dest.ptr).Nodup) :
    (walkExcept srcNet nets d).dests.Formed ∧
      (walkExcept srcNet nets d).dests.nets =
        d.nets.filter (fun m => m.ptr = srcNet ∨ m.ptr ∉ nets.map Dest.ptr) := by
  induction nets generalizing d with
  | nil =>
    refine ⟨h, (List.filter_eq_self.mpr fun m _ => ?_).symm⟩
    simp
  | cons n nets ih =>
    obtain ⟨hn, hrest⟩ := List.forall_mem_cons.mp hnets
    obtain ⟨hnew, hnodup⟩ := List.nodup_cons.mp hnodup
    unfold walkExcept
    by_cases hne : n.ptr ≠ srcNet
    · rw [if_pos hne]
      have hremoved := h.removeNet hn (two_le_of_ne hn hsrc hne)
      obtain ⟨hformed, heq⟩ := ih hremoved (mem_removeNet_ptrs hsrc (Ne.symm hne)) (fun m hm =>
        mem_removeNet_ptrs (hrest m hm) fun hmn => hnew (hmn ▸ List.mem_map_of_mem hm)) hnodup
      refine ⟨hformed, heq.trans ?_⟩
      rw [removeNet_nets, List.filter_filter]
      apply List.filter_congr
      intro m _
      by_cases hm : m.ptr = n.ptr
      · simp [hm, hne]
      · simp [hm]
    · rw [if_neg hne]
      obtain ⟨hformed, heq⟩ := ih h hsrc hrest hnodup
      refine ⟨hformed, heq.trans ?_⟩
      apply List.filter_congr
      intro m _
      have hsame : n.ptr = srcNet := not_not.mp hne
      by_cases hm : m.ptr = srcNet
      · simp [hm]
      · simp [hm, hsame]

theorem walkExcept_walkedFrom (srcNet : NetId) (nets : List Dest) (d : Dests) :
    (walkExcept srcNet nets d).walkedFrom = (nets.map Dest.ptr).filter fun q => q ≠ srcNet := by
  induction nets generalizing d with
  | nil => rfl
  | cons n nets ih =>
    unfold walkExcept
    by_cases hne : n.ptr ≠ srcNet
    · rw [if_pos hne, List.map_cons, List.filter_cons, if_pos (by simpa using hne)]
      exact congrArg (n.ptr :: ·) (ih _)
    · rw [if_neg hne, List.map_cons, List.filter_cons, if_neg (by simpa using hne)]
      exact ih d

/-- Only the source is left. -/
theorem delRemoteAddrsExcept_formed (h : d.Formed) {src : Addr} (hsrc : src ∈ d.addrs) :
    (d.delRemoteAddrsExcept src).dests.Formed ∧ (d.delRemoteAddrsExcept src).dests.addrs = [src] := by
  unfold delRemoteAddrsExcept
  cases hfind : d.findnet src with
  | none => exact absurd hsrc (findnet_eq_none_iff.mp hfind)
  | some n =>
    obtain ⟨hn, rfl⟩ := findnet_eq_some_mem hfind
    obtain ⟨hformed, hnets⟩ := walkExcept_formed h (List.mem_map_of_mem hn : n.ptr ∈ d.ptrs)
      (fun m hm => List.mem_map_of_mem hm) h.ptrs
    refine ⟨hformed, ?_⟩
    have hone : d.nets.filter (fun m => m.ptr = n.ptr ∨ m.ptr ∉ d.nets.map Dest.ptr) = [n] := by
      have hsame : ∀ m ∈ d.nets, decide (m.ptr = n.ptr ∨ m.ptr ∉ d.nets.map Dest.ptr) =
          decide (m = n) := by
        intro m hm
        have hmem : m.ptr ∈ d.nets.map Dest.ptr := List.mem_map_of_mem hm
        have hiff : m.ptr = n.ptr ↔ m = n :=
          ⟨List.inj_on_of_nodup_map h.ptrs hm hn, congrArg Dest.ptr⟩
        simp [hmem, hiff]
      have hnodup : d.nets.Nodup := h.ptrs.of_map
      rw [List.filter_congr hsame, List.filter_eq, List.count_eq_one_of_mem hnodup hn]
      rfl
    dsimp only
    rw [addrs, hnets, hone]
    rfl

theorem addRemoteAddr_getD (h : d.Formed) (e : AddEnv) (a : Addr) :
    ((d.addRemoteAddr e a).getD d).Formed ∧
      ((d.addRemoteAddr e a).getD d).addrs.Perm
        (if a ∈ d.addrs ∨ a.isZero ∨ e.alloc = false then d.addrs else a :: d.addrs) := by
  constructor
  · cases hadd : d.addRemoteAddr e a with
    | none => exact h
    | some d' => exact h.addRemoteAddr hadd
  unfold addRemoteAddr
  cases hfind : d.findnet a with
  | some n =>
    obtain ⟨hn, rfl⟩ := findnet_eq_some_mem hfind
    have hmem : n.addr ∈ d.addrs := List.mem_map_of_mem hn
    rw [if_pos (Or.inl hmem)]
    exact List.Perm.of_eq (update_addrs fun _ => rfl)
  | none =>
    have hnot := findnet_eq_none_iff.mp hfind
    dsimp only
    by_cases hzero : a.isZero = true
    · rw [if_pos hzero, if_pos (Or.inr (Or.inl hzero))]
      exact List.Perm.refl _
    by_cases halloc : e.alloc = false
    · rw [if_neg hzero, if_pos (by rw [halloc]; rfl), if_pos (Or.inr (Or.inr halloc))]
      exact List.Perm.refl _
    · rw [if_neg hzero, if_neg (by simpa using halloc), if_neg (by simp [hnot, hzero, halloc])]
      exact (d.insertNew_nets_perm _).map Dest.addr

theorem delRemoteAddr_addrs (h : d.Formed) (a : Addr) :
    (d.delRemoteAddr a).1.Formed ∧
      (d.delRemoteAddr a).1.addrs = if d.addrs.length < 2 then d.addrs else d.addrs.erase a := by
  have hlength : d.addrs.length = d.numnets := (List.length_map _).trans h.count.symm
  unfold delRemoteAddr
  cases hfind : d.findnet a with
  | none =>
    refine ⟨h, ?_⟩
    rw [List.erase_of_not_mem (findnet_eq_none_iff.mp hfind), ite_self]
  | some n =>
    obtain ⟨hn, rfl⟩ := findnet_eq_some_mem hfind
    dsimp only
    by_cases hfew : d.numnets < 2
    · rw [if_pos hfew, if_pos (by omega)]
      exact ⟨h, rfl⟩
    rw [if_neg hfew, if_neg (by omega)]
    have hcount := h.count
    refine ⟨h.removeNet (List.mem_map_of_mem hn) (by omega), ?_⟩
    rw [h.addrs.erase_eq_filter]
    unfold addrs
    rw [List.filter_map]
    congr 1
    apply List.filter_congr
    intro m hm
    have hiff : m.ptr = n.ptr ↔ m.addr = n.addr :=
      ⟨fun heq => congrArg Dest.addr (List.inj_on_of_nodup_map h.ptrs hm hn heq),
        fun heq => congrArg Dest.ptr (List.inj_on_of_nodup_map h.addrs hm hn heq)⟩
    by_cases hm' : m.addr = n.addr
    · simp [hm', hiff.mpr hm']
    · simp [hm', mt hiff.mp hm']

theorem Formed.dropAlternate (h : d.Formed) : d.dropAlternate.Formed ∧ d.dropAlternate.addrs = d.addrs := by
  unfold Dests.dropAlternate
  split
  · refine ⟨?_, rfl⟩
    exact h.of_subset (h.toLinked.of_perm (List.Perm.refl _) rfl rfl) (List.Subset.refl _) h.primary
      (Or.inr rfl) rfl rfl
  · exact ⟨h, rfl⟩

/-- Whatever stands in memory, the destinations stay well formed, and the address that was read is dealt with. -/
theorem asconfStep_changed (h : d.Formed) :
    (d.asconfStep natFriendly r).dests.Formed ∧
      ((∃ a, inner r.bytes 8 = .addr a ∧
          (d.asconfStep natFriendly r).dests.addrs.Perm (changed natFriendly r a d.addrs)) ∨
        ((∀ a, inner r.bytes 8 ≠ .addr a) ∧ (d.asconfStep natFriendly r).dests.addrs = d.addrs)) := by
  cases hinner : inner r.bytes 8 with
  | badLength =>
    unfold asconfStep processAsconfAddIp processAsconfDeleteIp processAsconfSetPrimary
    rw [hinner]
    cases r.kind <;> exact ⟨h, Or.inr ⟨nofun, rfl⟩⟩
  | unknown =>
    unfold asconfStep processAsconfAddIp processAsconfDeleteIp processAsconfSetPrimary
    rw [hinner]
    cases r.kind <;> exact ⟨h, Or.inr ⟨nofun, rfl⟩⟩
  | addr a =>
    suffices hsuffices : (d.asconfStep natFriendly r).dests.Formed ∧
        (d.asconfStep natFriendly r).dests.addrs.Perm (changed natFriendly r a d.addrs) from
      ⟨hsuffices.1, Or.inl ⟨a, rfl, hsuffices.2⟩⟩
    unfold asconfStep changed
    cases r.kind with
    | addIp =>
      dsimp only
      unfold processAsconfAddIp
      rw [hinner]
      dsimp only
      by_cases hbad : a.isBad = true
      · rw [if_pos hbad, if_pos (Or.inl hbad)]
        exact ⟨h, List.Perm.refl _⟩
      · rw [if_neg hbad]
        obtain ⟨hformed, hperm⟩ := addRemoteAddr_getD h r.env (orSource natFriendly r.src a)
        have hdests : (match d.addRemoteAddr r.env (orSource natFriendly r.src a) with
            | none => stepped d
            | some d' => ⟨d', [], (d.netp (orSource natFriendly r.src a)).isNone⟩ : Stepped).dests =
              (d.addRemoteAddr r.env (orSource natFriendly r.src a)).getD d := by
          cases d.addRemoteAddr r.env (orSource natFriendly r.src a) <;> rfl
        rw [hdests]
        refine ⟨hformed, ?_⟩
        simpa [hbad] using hperm
    | deleteIp =>
      dsimp only
      unfold processAsconfDeleteIp
      rw [hinner]
      dsimp only
      by_cases hsrc : a = r.src
      · rw [if_pos hsrc, if_pos hsrc]
        exact ⟨h, List.Perm.refl _⟩
      rw [if_neg hsrc, if_neg hsrc]
      by_cases hwild : (a.isZero && natFriendly) = true
      · rw [if_pos hwild, if_pos hwild]
        by_cases hmem : r.src ∈ d.addrs
        · rw [if_pos hmem]
          obtain ⟨hformed, heq⟩ := delRemoteAddrsExcept_formed h hmem
          exact ⟨hformed, List.Perm.of_eq heq⟩
        · rw [if_neg hmem, delRemoteAddrsExcept, findnet_eq_none_iff.mpr hmem]
          exact ⟨h, List.Perm.refl _⟩
      · rw [if_neg hwild, if_neg hwild]
        obtain ⟨hformed, heq⟩ := delRemoteAddr_addrs h a
        exact ⟨hformed, List.Perm.of_eq heq⟩
    | setPrimary =>
      dsimp only
      unfold processAsconfSetPrimary
      rw [hinner]
      dsimp only
      cases hset : d.setPrimaryAddr (orSource natFriendly r.src a) with
      | none => exact ⟨h, List.Perm.refl _⟩
      | some d' =>
        obtain ⟨hformed, hperm⟩ := h.setPrimaryAddr hset
        obtain ⟨hdrop, haddrs⟩ := hformed.dropAlternate
        exact ⟨hdrop, (List.Perm.of_eq haddrs).trans hperm⟩

theorem mem_changed {a : Addr} {addrs : List Addr} (h : r.src ∈ addrs) :
    r.src ∈ changed natFriendly r a addrs := by
  unfold changed
  cases r.kind with
  | addIp =>
    dsimp only
    split
    · exact h
    · exact List.mem_cons_of_mem _ h
  | deleteIp =>
    dsimp only
    split_ifs with hsrc
    · exact h
    · exact List.mem_singleton_self _
    · exact h
    · exact (List.mem_erase_of_ne (Ne.symm hsrc)).mpr h
  | setPrimary => exact h

/-- The walk of the wildcard deletion goes on from what it removed. -/
theorem asconfStep_walkedFrom (hmass : ¬ MassDeletion natFriendly r d) :
    (d.asconfStep natFriendly r).walkedFrom = [] := by
  unfold asconfStep
  cases hkind : r.kind with
  | addIp =>
    dsimp only
    unfold processAsconfAddIp
    split
    · split
      · rfl
      · split <;> rfl
    · rfl
  | setPrimary => rfl
  | deleteIp =>
    dsimp only
    unfold processAsconfDeleteIp
    cases hinner : inner r.bytes 8 with
    | badLength => rfl
    | unknown => rfl
    | addr a =>
      dsimp only
      by_cases hsrc : a = r.src
      · rw [if_pos hsrc]
        rfl
      rw [if_neg hsrc]
      by_cases hwild : (a.isZero && natFriendly) = true
      · rw [if_pos hwild]
        unfold delRemoteAddrsExcept
        cases hfind : d.findnet r.src with
        | none => rfl
        | some n =>
          obtain ⟨hn, hnaddr⟩ := findnet_eq_some_mem hfind
          dsimp only
          rw [walkExcept_walkedFrom]
          refine List.filter_eq_nil_iff.mpr fun q hq => ?_
          have hsame : q = n.ptr := by
            by_contra hne
            obtain ⟨hzero, hnat⟩ := Bool.and_eq_true_iff.mp hwild
            refine hmass ⟨hkind, hnat, ?_, two_le_of_ne hq (List.mem_map_of_mem hn) hne, a, hinner, hzero,
              hsrc⟩
            rw [← hnaddr]
            exact List.mem_map_of_mem hn
          simpa using hsame
      · rw [if_neg hwild]
        rfl

theorem walkExcept_wildNet (srcNet : NetId) (nets : List Dest) (d : Dests) :
    (walkExcept srcNet nets d).wildNet = false := by
  induction nets generalizing d with
  | nil => rfl
  | cons n nets ih =>
    unfold walkExcept
    split
    · exact ih _
    · exact ih d

/-- Only an address that is there leaves the pointer without a value. -/
theorem asconfStep_wildNet (hadd : ¬ Readdition natFriendly r d) :
    (d.asconfStep natFriendly r).wildNet = false := by
  unfold asconfStep
  cases hkind : r.kind with
  | setPrimary => rfl
  | deleteIp =>
    dsimp only
    unfold processAsconfDeleteIp delRemoteAddrsExcept
    split
    · split
      · rfl
      split
      · split
        · rfl
        · exact walkExcept_wildNet _ _ d
      · rfl
    · rfl
  | addIp =>
    dsimp only
    unfold processAsconfAddIp
    cases hinner : inner r.bytes 8 with
    | badLength => rfl
    | unknown => rfl
    | addr a =>
      dsimp only
      by_cases hbad : a.isBad = true
      · rw [if_pos hbad]
        rfl
      rw [if_neg hbad]
      have hnew : orSource natFriendly r.src a ∉ d.addrs := fun hin =>
        hadd ⟨hkind, a, hinner, Bool.eq_false_of_not_eq_true hbad, hin⟩
      have hset : (d.netp (orSource natFriendly r.src a)).isNone = false := by
        rw [netp, findnet_eq_none_iff.mpr hnew]
        rfl
      rw [hset]
      split <;> rfl

/-- One step is as it should be, unless it reads an address from behind the parameter that makes a difference,
deletes all destinations but one at once, or adds a destination that is there. -/
theorem asconfStep_well (h : d.Formed) (hread : ¬ Overread natFriendly r d)
    (hmass : ¬ MassDeletion natFriendly r d) (hadd : ¬ Readdition natFriendly r d) :
    StepWell natFriendly r d := by
  obtain ⟨hformed, hchanged⟩ := @asconfStep_changed d natFriendly r h
  have haddrs : (d.asconfStep natFriendly r).dests.addrs.Perm (wanted natFriendly r d.addrs) := by
    unfold wanted AsconfParam.named
    rcases hchanged with ⟨a, hinner, hperm⟩ | ⟨hnone, heq⟩
    · rw [hinner]
      dsimp only
      by_cases hinside : innerEnd r.bytes 8 ≤ r.length
      · rw [if_pos hinside]
        exact hperm
      · rw [if_neg hinside]
        have hidle : changed natFriendly r a d.addrs = d.addrs := by
          by_contra hne
          exact hread ⟨a, hinner, by omega, hne⟩
        rw [hidle] at hperm
        exact hperm
    · rw [heq]
      cases hinner : inner r.bytes 8 with
      | addr a => exact absurd hinner (hnone a)
      | badLength => exact List.Perm.refl _
      | unknown => exact List.Perm.refl _
  refine ⟨hformed, haddrs, fun hsrc => haddrs.mem_iff.mpr ?_, asconfStep_walkedFrom hmass,
    asconfStep_wildNet hadd⟩
  unfold wanted
  cases r.named with
  | none => exact hsrc
  | some a => exact mem_changed hsrc

end Dests

inductive AsconfEvent where
  | param (r : AsconfParam)
  | replied (src : Addr)

def applyEvent (natFriendly : Bool) (d : Dests) : AsconfEvent → Option Dests
  | .param r => some (d.asconfStep natFriendly r).dests
  | .replied src => some (d.asconfReplied src)

/-- The destinations are well formed, and what comes next does what it should. -/
def EventWell (natFriendly : Bool) (d : Dests) (e : AsconfEvent) : Prop :=
  (d.Formed ∧ 1 ≤ d.numnets) ∧
    match e with
    | .param r => StepWell natFriendly r d
    | .replied _ => True

/-- A parameter meets none of the three conditions. -/
def EventCareful (natFriendly : Bool) (d : Dests) : AsconfEvent → Prop
  | .param r => ¬ Overread natFriendly r d ∧ ¬ MassDeletion natFriendly r d ∧ ¬ Readdition natFriendly r d
  | .replied _ => True

theorem Dests.Formed.asconfReplied {d : Dests} (h : d.Formed) (src : Addr) :
    (d.asconfReplied src).Formed := by
  unfold Dests.asconfReplied
  split
  · refine ⟨⟨h.count, h.ptrs, h.addrs, h.below⟩, h.primary, h.alternate, h.lastDataChunkFrom, ?_⟩
    intro q hq
    obtain ⟨n, hn, rfl⟩ := Option.map_eq_some_iff.mp hq
    exact List.mem_map_of_mem (Dests.findnet_eq_some_mem hn).1
  · exact h

theorem applyEvent_well {natFriendly : Bool} {d d' : Dests} {e : AsconfEvent} (h : d.Formed)
    (hcareful : EventCareful natFriendly d e) (hd : applyEvent natFriendly d e = some d') :
    EventWell natFriendly d e ∧ d'.Formed := by
  have hone : 1 ≤ d.numnets := h.count ▸ h.one_le
  cases e with
  | param r =>
    obtain ⟨hread, hmass, hadd⟩ := hcareful
    have hwell := Dests.asconfStep_well h hread hmass hadd
    exact ⟨⟨⟨h, hone⟩, hwell⟩, Option.some.inj hd ▸ hwell.formed⟩
  | replied src => exact ⟨⟨⟨h, hone⟩, trivial⟩, Option.some.inj hd ▸ h.asconfReplied src⟩

/-- A run keeps the destinations well formed, and each parameter adds and removes what it names. -/
theorem asconfRun_well (natFriendly : Bool) (events : List AsconfEvent) (d : Dests) (h : d.Formed)
    (hcareful : Trace.Along (applyEvent natFriendly) (EventCareful natFriendly) d events) :
    Trace.Along (applyEvent natFriendly) (EventWell natFriendly) d events ∧
      ∃ d', Trace.run (applyEvent natFriendly) d events = some d' ∧ d'.Formed ∧ 1 ≤ d'.numnets := by
  have hsome : ∀ d e, ∃ d', applyEvent natFriendly d e = some d' := fun d e => by
    cases e <;> exact ⟨_, rfl⟩
  constructor
  · refine Trace.Along.of_invariant Dests.Formed ?_ ?_ h hcareful
    · exact fun d e d' hd hok hs => (applyEvent_well hd hok hs).2
    · intro d e hd hok
      obtain ⟨d', hs⟩ := hsome d e
      exact (applyEvent_well hd hok hs).1
  · obtain ⟨d', hrun, hd'⟩ := Trace.run_progress Dests.Formed (fun d e hd hok => by
      obtain ⟨d', hs⟩ := hsome d e
      exact ⟨d', hs, (applyEvent_well hd hok hs).2⟩) h hcareful
    exact ⟨d', hrun, hd', hd'.count ▸ hd'.one_le⟩

/-- Two confirmed destinations, the first of them the primary one. -/
def twoDests : Dests where
  nets := [⟨0, .v4 0x0a000001, true, false, false, false, false, false, some 0⟩,
    ⟨1, .v4 0x0a000002, true, false, false, false, false, false, some 0⟩]
  numnets := 2
  primary := some 0
  alternate := some 1
  lastDataChunkFrom := some 1
  lastControlChunkFrom := some 0
  fresh := 2

theorem twoDests_formed : twoDests.Formed where
  count := rfl
  ptrs := by decide
  addrs := by decide
  below := by decide
  primary := ⟨0, by decide, rfl⟩
  alternate := by decide
  lastDataChunkFrom := by decide
  lastControlChunkFrom := by decide

/-- A parameter about an IPv4 address. -/
def v4Param (kind : ParamKind) (length : BitVec 8) (a : Bytes) : AsconfParam where
  kind := kind
  src := .v4 0x0a000001
  bytes := [0xc0, 0x01, 0, length, 0, 0, 0, 1, 0, 5, 0, 8] ++ a
  env := ⟨true, some 0, true⟩

/-- The third address is added and made the primary one, and the second one is deleted. -/
def movedRun : List AsconfEvent :=
  [.param (v4Param .addIp 16 [10, 0, 0, 3]), .param (v4Param .setPrimary 16 [10, 0, 0, 3]),
    .param (v4Param .deleteIp 16 [10, 0, 0, 2]), .replied (.v4 0x0a000001)]

theorem movedRun_well : Trace.Along (applyEvent true) (EventWell true) twoDests movedRun ∧
    ∃ d', Trace.run (applyEvent true) twoDests movedRun = some d' ∧ d'.Formed ∧ 1 ≤ d'.numnets := by
  apply asconfRun_well true _ twoDests twoDests_formed
  refine ⟨⟨?_, nofun, ?_⟩, fun _ _ => ⟨⟨?_, nofun, nofun⟩, fun _ _ => ⟨⟨?_, ?_, nofun⟩, fun _ _ =>
    ⟨trivial, fun _ _ => trivial⟩⟩⟩⟩
  · rintro ⟨a, ha, hlong, -⟩
    exact absurd hlong (by decide)
  · rintro ⟨-, a, ha, -, hlisted⟩
    have hinner : inner (v4Param .addIp 16 [10, 0, 0, 3]).bytes 8 = .addr (.v4 0x0a000003) := by decide
    obtain rfl := Inner.addr.inj (ha.symm.trans hinner)
    exact absurd hlisted (by decide)
  · rintro ⟨a, ha, hlong, -⟩
    exact absurd hlong (by decide)
  · rintro ⟨a, ha, hlong, -⟩
    exact absurd hlong (by decide)
  · rintro ⟨-, -, -, -, a, ha, hzero, -⟩
    have hinner : inner (v4Param .deleteIp 16 [10, 0, 0, 2]).bytes 8 = .addr (.v4 0x0a000002) := by decide
    obtain rfl := Inner.addr.inj (ha.symm.trans hinner)
    exact absurd hzero (by decide)

/-- The address of an ADD IP that ends in front of it is added, the wildcard deletion goes on from what it
has removed, and for an address that is there timers are started for no destination. -/
theorem shortParam_not_well :
    ¬ Trace.Along (applyEvent true) (EventWell true) twoDests [.param (v4Param .addIp 12 [10, 0, 0, 3])] ∧
      ¬ Trace.Along (applyEvent true) (EventWell true) twoDests [.param (v4Param .deleteIp 16 [0, 0, 0, 0])] ∧
      ¬ Trace.Along (applyEvent true) (EventWell true) twoDests [.param (v4Param .addIp 16 [10, 0, 0, 2])] := by
  refine ⟨?_, ?_, ?_⟩
  · rintro ⟨⟨-, hstep⟩, -⟩
    exact absurd hstep.addrs.length_eq (by decide)
  · rintro ⟨⟨-, hstep⟩, -⟩
    exact absurd hstep.walked (by decide)
  · rintro ⟨⟨-, hstep⟩, -⟩
    exact absurd hstep.sound (by decide)

end Sctp.Nets
