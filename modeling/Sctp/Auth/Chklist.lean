import Mathlib.Data.Finset.Card
import Sctp.Auth.Model
import Sctp.Lib.Bitmap

/-! The list of chunk types that have to be authenticated: its changes, and how it is packed into bytes. -/
namespace Sctp.Auth

open Bitmap (isSet setBit)

/-- `sctp_auth_chklist_t` as it is in memory. -/
structure Chklist where
  chunks : ℕ → BitVec 8
  numChunks : BitVec 8

/-- INIT, INIT-ACK, SHUTDOWN-COMPLETE and AUTH are never authenticated. -/
def restricted : List (BitVec 8) := [0x01, 0x02, 0x0e, 0x0f]

namespace Chklist

/-- `sctp_clear_chunklist` -/
def clear : Chklist := ⟨fun _ => 0, 0⟩

/-- `sctp_auth_add_chunk`, with what it returns. -/
def addChunk (list : Chklist) (chunk : BitVec 8) : Chklist × ℤ :=
  if restricted.contains chunk then (list, -1)
  else if list.chunks chunk.toNat = 0 then
    (⟨Function.update list.chunks chunk.toNat 1, list.numChunks + 1⟩, 0)
  else (list, 0)

/-- `sctp_auth_delete_chunk` -/
def deleteChunk (list : Chklist) (chunk : BitVec 8) : Chklist × ℤ :=
  if list.chunks chunk.toNat = 1 then (⟨Function.update list.chunks chunk.toNat 0, list.numChunks - 1⟩, 0)
  else (list, 0)

def types (list : Chklist) : List ℕ := (List.range 256).filter fun i => list.chunks i ≠ 0

def writeFront (bytes ptr : Bytes) : Bytes := bytes ++ ptr.drop bytes.length

/-- `sctp_serialize_auth_chunks` -/
def serialize (list : Chklist) (ptr : Bytes) : Bytes × ℕ :=
  (writeFront (list.types.map (BitVec.ofNat 8)) ptr, list.types.length)

/-- `sctp_pack_auth_chunks` -/
def pack (list : Chklist) (ptr : Bytes) : Bytes × ℕ :=
  if list.numChunks.toNat ≤ 32 then (writeFront (list.types.map (BitVec.ofNat 8)) ptr, list.types.length)
  else (list.types.foldl setBit ptr, 32)

/-- `sctp_unpack_auth_chunks` -/
def unpack (ptr : Bytes) (numChunks : BitVec 8) (list : Chklist) : Chklist × ℕ :=
  if numChunks.toNat ≤ 32 then
    ((List.range numChunks.toNat).foldl (fun list i => (list.addChunk (ptr.getD i 0)).1) list, numChunks.toNat)
  else
    ((List.range 256).foldl
      (fun list i => if isSet ptr i then (list.addChunk (BitVec.ofNat 8 i)).1 else list) list, 32)

end Chklist

inductive ChklistOp where
  | add (chunk : BitVec 8)
  | delete (chunk : BitVec 8)

def Chklist.step (list : Chklist) : ChklistOp → Chklist
  | .add chunk => (list.addChunk chunk).1
  | .delete chunk => (list.deleteChunk chunk).1

def Chklist.run (ops : List ChklistOp) : Chklist := ops.foldl Chklist.step .clear

def ask (S : Finset ℕ) : ChklistOp → Finset ℕ
  | .add chunk => if restricted.contains chunk then S else insert chunk.toNat S
  | .delete chunk => S.erase chunk.toNat

def asked (ops : List ChklistOp) : Finset ℕ := ops.foldl ask ∅

/-- The list holds a set of chunk types, none of them restricted. -/
structure Chklist.Holds (list : Chklist) (S : Finset ℕ) : Prop where
  chunks : ∀ i, list.chunks i = if i ∈ S then 1 else 0
  numChunks : list.numChunks = BitVec.ofNat 8 S.card
  lt : ∀ i ∈ S, i < 256
  allowed : ∀ i ∈ S, BitVec.ofNat 8 i ∉ restricted

namespace Chklist

variable {list : Chklist} {S T : Finset ℕ} {chunk : BitVec 8}

theorem holds_clear : clear.Holds ∅ where
  chunks i := (if_neg (Finset.notMem_empty i)).symm
  numChunks := rfl
  lt i hi := absurd hi (Finset.notMem_empty i)
  allowed i hi := absurd hi (Finset.notMem_empty i)

theorem Holds.chunks_eq_zero (h : list.Holds S) {i : ℕ} : list.chunks i = 0 ↔ i ∉ S := by
  rw [h.chunks]
  split_ifs with hi
  · exact iff_of_false (by decide) (not_not_intro hi)
  · exact iff_of_true rfl hi

theorem Holds.chunks_eq_one (h : list.Holds S) {i : ℕ} : list.chunks i = 1 ↔ i ∈ S := by
  rw [h.chunks]
  split_ifs with hi
  · exact iff_of_true rfl hi
  · exact iff_of_false (by decide) hi

theorem ofNat_toNat (chunk : BitVec 8) : BitVec.ofNat 8 chunk.toNat = chunk := by
  rw [BitVec.ofNat_toNat, BitVec.setWidth_eq]

theorem Holds.addChunk (h : list.Holds S) (chunk : BitVec 8) :
    (list.addChunk chunk).1.Holds (if restricted.contains chunk then S else insert chunk.toNat S) := by
  rw [Chklist.addChunk]
  by_cases hrestricted : restricted.contains chunk = true
  · rw [if_pos hrestricted, if_pos hrestricted]
    exact h
  · rw [if_neg hrestricted, if_neg hrestricted]
    by_cases hmem : chunk.toNat ∈ S
    · have hne : ¬ list.chunks chunk.toNat = 0 := by
        rw [h.chunks_eq_zero, not_not]
        exact hmem
      rw [if_neg hne, Finset.insert_eq_of_mem hmem]
      exact h
    · rw [if_pos (h.chunks_eq_zero.2 hmem)]
      constructor
      · intro i
        by_cases hi : i = chunk.toNat
        · rw [hi]
          change Function.update list.chunks chunk.toNat 1 chunk.toNat = _
          rw [Function.update_self, if_pos (Finset.mem_insert_self _ _)]
        · change Function.update list.chunks chunk.toNat 1 i = _
          rw [Function.update_of_ne hi, h.chunks]
          simp only [Finset.mem_insert, hi, false_or]
      · change list.numChunks + 1 = _
        rw [h.numChunks, Finset.card_insert_of_notMem hmem, BitVec.ofNat_add]
        rfl
      · intro i hi
        rcases Finset.mem_insert.1 hi with rfl | hi
        · exact chunk.isLt
        · exact h.lt i hi
      · intro i hi
        rcases Finset.mem_insert.1 hi with rfl | hi
        · rw [ofNat_toNat]
          simpa using hrestricted
        · exact h.allowed i hi

theorem Holds.deleteChunk (h : list.Holds S) (chunk : BitVec 8) :
    (list.deleteChunk chunk).1.Holds (S.erase chunk.toNat) := by
  rw [Chklist.deleteChunk]
  by_cases hmem : chunk.toNat ∈ S
  · rw [if_pos (h.chunks_eq_one.2 hmem)]
    constructor
    · intro i
      by_cases hi : i = chunk.toNat
      · rw [hi]
        change Function.update list.chunks chunk.toNat 0 chunk.toNat = _
        rw [Function.update_self, if_neg (Finset.notMem_erase _ _)]
      · change Function.update list.chunks chunk.toNat 0 i = _
        rw [Function.update_of_ne hi, h.chunks]
        simp only [Finset.mem_erase, ne_eq, hi, not_false_eq_true, true_and]
    · change list.numChunks - 1 = _
      have hcard : S.card = (S.erase chunk.toNat).card + 1 := (Finset.card_erase_add_one hmem).symm
      rw [h.numChunks, hcard, BitVec.ofNat_add]
      exact BitVec.add_sub_cancel _ _
    · intro i hi
      exact h.lt i (Finset.mem_of_mem_erase hi)
    · intro i hi
      exact h.allowed i (Finset.mem_of_mem_erase hi)
  · have hne : ¬ list.chunks chunk.toNat = 1 := by
      rw [h.chunks_eq_one]
      exact hmem
    rw [if_neg hne, Finset.erase_eq_of_notMem hmem]
    exact h

theorem Holds.step (h : list.Holds S) (op : ChklistOp) : (list.step op).Holds (ask S op) := by
  cases op with
  | add chunk => exact h.addChunk chunk
  | delete chunk => exact h.deleteChunk chunk

theorem Holds.foldl_step (h : list.Holds S) (ops : List ChklistOp) :
    (ops.foldl Chklist.step list).Holds (ops.foldl ask S) := by
  induction ops generalizing list S with
  | nil => exact h
  | cons op ops ih => exact ih (h.step op)

theorem holds_run (ops : List ChklistOp) : (run ops).Holds (asked ops) := holds_clear.foldl_step ops

/-- The count does not wrap: there are fewer types than values of a byte. -/
theorem Holds.card_lt (h : list.Holds S) : S.card < 256 := by
  have hsub : S ⊆ (Finset.range 256).erase 1 := by
    intro i hi
    rw [Finset.mem_erase, Finset.mem_range]
    refine ⟨?_, h.lt i hi⟩
    rintro rfl
    exact h.allowed 1 hi (by decide)
  have hle := Finset.card_le_card hsub
  have hcard : ((Finset.range 256).erase 1).card = 255 := by
    rw [Finset.card_erase_of_mem (Finset.mem_range.2 (by omega)), Finset.card_range]
  omega

theorem Holds.toNat_numChunks (h : list.Holds S) : list.numChunks.toNat = S.card := by
  rw [h.numChunks, BitVec.toNat_ofNat, Nat.mod_eq_of_lt h.card_lt]

theorem Holds.mem_types (h : list.Holds S) {i : ℕ} : i ∈ list.types ↔ i ∈ S := by
  rw [types, List.mem_filter, List.mem_range, decide_eq_true_iff, ne_eq, h.chunks_eq_zero, not_not]
  constructor
  · exact And.right
  · intro hi
    exact ⟨h.lt i hi, hi⟩

theorem nodup_types (list : Chklist) : list.types.Nodup := List.nodup_range.filter _

theorem Holds.length_types (h : list.Holds S) : list.types.length = S.card := by
  have hset : list.types.toFinset = S := by
    ext i
    rw [List.mem_toFinset, h.mem_types]
  rw [← hset, List.toFinset_card_of_nodup list.nodup_types]

/-- Adding types one after the other. -/
theorem Holds.foldl_addChunk (h : list.Holds S) (is : List ℕ) (f : ℕ → Option (BitVec 8))
    (hf : ∀ i ∈ is, ∀ c ∈ f i, c ∉ restricted) :
    (is.foldl (fun list i => ((f i).map fun c => (list.addChunk c).1).getD list) list).Holds
      (S ∪ (is.filterMap fun i => (f i).map BitVec.toNat).toFinset) := by
  induction is generalizing list S with
  | nil =>
    rw [List.filterMap_nil, List.toFinset_nil, Finset.union_empty]
    exact h
  | cons i is ih =>
    rw [List.forall_mem_cons] at hf
    rw [List.foldl_cons]
    cases hi : f i with
    | none =>
      have hskip : ((i :: is).filterMap fun i => (f i).map BitVec.toNat) = is.filterMap fun i => (f i).map BitVec.toNat := by
        rw [List.filterMap_cons, hi]
        rfl
      rw [hskip]
      exact ih h hf.2
    | some c =>
      have hadd := h.addChunk c
      rw [if_neg (by simpa using hf.1 c hi)] at hadd
      have hunion : S ∪ ((i :: is).filterMap fun i => (f i).map BitVec.toNat).toFinset =
          insert c.toNat S ∪ (is.filterMap fun i => (f i).map BitVec.toNat).toFinset := by
        rw [List.filterMap_cons, hi]
        change S ∪ (c.toNat :: _).toFinset = _
        rw [List.toFinset_cons, Finset.union_insert, Finset.insert_union]
      rw [hunion]
      exact ih hadd hf.2

theorem toNat_ofNat_of_lt {i : ℕ} (h : i < 256) : (BitVec.ofNat 8 i).toNat = i := by
  rw [BitVec.toNat_ofNat, Nat.mod_eq_of_lt h]

/-- The bits of a list of numbers. -/
theorem isSet_foldl_setBit (is : List ℕ) (a : Bytes) (h : ∀ i ∈ is, i < 8 * a.length) (j : ℕ) :
    isSet (is.foldl setBit a) j = (decide (j ∈ is) || isSet a j) := by
  induction is generalizing a with
  | nil => simp
  | cons i is ih =>
    rw [List.forall_mem_cons] at h
    have hlen : (setBit a i).length = a.length := Bitmap.length_setBit a i
    rw [List.foldl_cons, ih (setBit a i) (by rw [hlen]; exact h.2), Bitmap.isSet_setBit h.1]
    simp only [List.mem_cons, Bool.decide_or, Bool.or_assoc, Bool.or_left_comm]

theorem isSet_zeros (n j : ℕ) : isSet (List.replicate n 0) j = false := by
  unfold isSet
  rw [List.getD_eq_getElem?_getD, List.getElem?_replicate]
  split_ifs <;> exact BitVec.getLsbD_zero

/-- The bytes that list the types. -/
theorem Holds.getD_listed (h : list.Holds S) (ptr : Bytes) {i : ℕ} (hi : i < list.types.length) :
    ∃ j ∈ S, (writeFront (list.types.map (BitVec.ofNat 8)) ptr).getD i 0 = BitVec.ofNat 8 j ∧ list.types[i] = j := by
  have hlen : i < (list.types.map (BitVec.ofNat 8)).length := by rwa [List.length_map]
  refine ⟨list.types[i], h.mem_types.1 (List.getElem_mem hi), ?_, rfl⟩
  rw [writeFront, List.getD_append _ _ _ _ hlen, List.getD_eq_getElem _ _ hlen, List.getElem_map]

/-- A list of bytes is unpacked on top of what was on the list. -/
theorem Holds.unpack_listed {list' : Chklist} (h : list.Holds S) (h' : list'.Holds T) (ptr : Bytes) :
    ((List.range list.types.length).foldl
      (fun list' i => (list'.addChunk ((writeFront (list.types.map (BitVec.ofNat 8)) ptr).getD i 0)).1) list').Holds
        (T ∪ S) := by
  have hfold := h'.foldl_addChunk (List.range list.types.length)
    (fun i => some ((writeFront (list.types.map (BitVec.ofNat 8)) ptr).getD i 0)) ?_
  · have hset : ((List.range list.types.length).filterMap fun i =>
        (some ((writeFront (list.types.map (BitVec.ofNat 8)) ptr).getD i 0)).map BitVec.toNat).toFinset = S := by
      ext j
      rw [List.mem_toFinset, List.mem_filterMap]
      constructor
      · rintro ⟨i, hi, hj⟩
        obtain ⟨k, hk, hget, -⟩ := h.getD_listed ptr (List.mem_range.1 hi)
        rw [hget, Option.map_some, toNat_ofNat_of_lt (h.lt k hk)] at hj
        exact Option.some.inj hj ▸ hk
      · intro hj
        obtain ⟨i, hi, hij⟩ := List.mem_iff_getElem.1 (h.mem_types.2 hj)
        obtain ⟨k, hk, hget, hik⟩ := h.getD_listed ptr hi
        refine ⟨i, List.mem_range.2 hi, ?_⟩
        rw [hget, Option.map_some, toNat_ofNat_of_lt (h.lt k hk), ← hik, hij]
    rw [hset] at hfold
    exact hfold
  · intro i hi c hc
    obtain ⟨k, hk, hget, -⟩ := h.getD_listed ptr (List.mem_range.1 hi)
    rw [hget] at hc
    obtain rfl := Option.some.inj hc
    exact h.allowed k hk

/-- So is a field of bits. -/
theorem Holds.unpack_bits {list' : Chklist} (h : list.Holds S) (h' : list'.Holds T) {ptr : Bytes}
    (hbits : ∀ i, isSet ptr i = decide (i ∈ S)) :
    ((List.range 256).foldl
      (fun list' i => if isSet ptr i then (list'.addChunk (BitVec.ofNat 8 i)).1 else list') list').Holds (T ∪ S) := by
  have hstep : (fun (list' : Chklist) (i : ℕ) =>
      if isSet ptr i then (list'.addChunk (BitVec.ofNat 8 i)).1 else list') = fun list' i =>
        ((if i ∈ S then some (BitVec.ofNat 8 i) else none).map fun c => (list'.addChunk c).1).getD list' := by
    funext list' i
    rw [hbits]
    by_cases hi : i ∈ S
    · rw [if_pos (decide_eq_true hi), if_pos hi]
      rfl
    · rw [if_neg (mt of_decide_eq_true hi), if_neg hi]
      rfl
  have hfold := h'.foldl_addChunk (List.range 256) (fun i => if i ∈ S then some (BitVec.ofNat 8 i) else none) ?_
  · have hset : ((List.range 256).filterMap fun i =>
        (if i ∈ S then some (BitVec.ofNat 8 i) else none).map BitVec.toNat).toFinset = S := by
      ext j
      rw [List.mem_toFinset, List.mem_filterMap]
      constructor
      · rintro ⟨i, -, hj⟩
        split_ifs at hj with hi
        · rw [Option.map_some, toNat_ofNat_of_lt (h.lt i hi)] at hj
          exact Option.some.inj hj ▸ hi
        · cases hj
      · intro hj
        refine ⟨j, List.mem_range.2 (h.lt j hj), ?_⟩
        rw [if_pos hj, Option.map_some, toNat_ofNat_of_lt (h.lt j hj)]
    rw [hset] at hfold
    rw [hstep]
    exact hfold
  · intro i _ c hc
    split_ifs at hc with hi
    · obtain rfl := Option.some.inj hc
      exact h.allowed i hi
    · cases hc

/-- What is unpacked is what was packed into a cleared buffer, on top of what was on the list. -/
theorem Holds.unpack_pack {list' : Chklist} (h : list.Holds S) (h' : list'.Holds T) :
    (unpack (list.pack (List.replicate 32 0)).1 list.numChunks list').1.Holds (T ∪ S) ∧
      (unpack (list.pack (List.replicate 32 0)).1 list.numChunks list').2 =
        (list.pack (List.replicate 32 0)).2 := by
  rw [unpack, pack]
  by_cases hfew : list.numChunks.toNat ≤ 32
  · rw [if_pos hfew, if_pos hfew]
    dsimp only
    rw [h.toNat_numChunks, ← h.length_types]
    exact ⟨h.unpack_listed h' _, rfl⟩
  · have hbits : ∀ i, isSet (list.types.foldl setBit (List.replicate 32 0)) i = decide (i ∈ S) := by
      intro i
      rw [isSet_foldl_setBit, isSet_zeros, Bool.or_false, decide_eq_decide]
      · exact h.mem_types
      · intro j hj
        rw [List.length_replicate]
        exact h.lt j (h.mem_types.1 hj)
    rw [if_neg hfew, if_neg hfew]
    dsimp only
    exact ⟨h.unpack_bits h' hbits, rfl⟩

theorem Holds.unique {list' : Chklist} (h : list.Holds S) (h' : list'.Holds S) : list = list' := by
  obtain ⟨chunks, numChunks⟩ := list
  obtain ⟨chunks', numChunks'⟩ := list'
  have hchunks : chunks = chunks' := funext fun i => (h.chunks i).trans (h'.chunks i).symm
  have hnum : numChunks = numChunks' := h.numChunks.trans h'.numChunks.symm
  rw [hchunks, hnum]

/-- After any calls the list holds what was asked for, in number and as bytes in rising order, none of it
restricted; packed into at most 32 cleared bytes and unpacked again it is the same list. -/
theorem run_exact (ops : List ChklistOp) :
    (∀ i, (run ops).chunks i = if i ∈ asked ops then 1 else 0) ∧
      (run ops).numChunks.toNat = (asked ops).card ∧
      (∀ ptr, (run ops).serialize ptr =
        (writeFront (((asked ops).sort).map (BitVec.ofNat 8)) ptr, (asked ops).card)) ∧
      (∀ c ∈ restricted, c.toNat ∉ asked ops) ∧
      ((run ops).pack (List.replicate 32 0)).2 ≤ 32 ∧
      unpack ((run ops).pack (List.replicate 32 0)).1 (run ops).numChunks clear =
        (run ops, ((run ops).pack (List.replicate 32 0)).2) := by
  have h := holds_run ops
  have hunpack := h.unpack_pack holds_clear
  rw [Finset.empty_union] at hunpack
  refine ⟨h.chunks, h.toNat_numChunks, ?_, ?_, ?_, ?_⟩
  · intro ptr
    have hsorted : (run ops).types = (asked ops).sort := by
      apply List.Perm.eq_of_pairwise
      · intro a b _ _ hab hba
        exact le_antisymm hab hba
      · exact (List.pairwise_le_range).filter _
      · exact Finset.pairwise_sort _ _
      · rw [List.perm_ext_iff_of_nodup (nodup_types _) (Finset.sort_nodup _ _)]
        intro i
        rw [h.mem_types, Finset.mem_sort]
    rw [serialize, h.length_types, hsorted]
  · intro c hc hmem
    apply h.allowed _ hmem
    rw [ofNat_toNat]
    exact hc
  · rw [pack]
    split_ifs with hfew
    · rw [h.toNat_numChunks, ← h.length_types] at hfew
      exact hfew
    · exact le_rfl
  · exact Prod.ext (hunpack.1.unique h) hunpack.2

theorem counted_run (ops : List ChklistOp) :
    (run ops).numChunks.toNat = ((List.range 256).filter fun i => decide ((run ops).chunks i ≠ 0)).length := by
  have h := holds_run ops
  rw [h.toNat_numChunks, ← h.length_types, types]

def toChunkList (ops : List ChklistOp) : ChunkList where
  chunks := fun i => decide ((run ops).chunks i ≠ 0)
  numChunks := (run ops).numChunks.toNat
  counted := counted_run ops

theorem serialize_toChunkList (ops : List ChklistOp) (ptr : Bytes) :
    ((run ops).serialize ptr).1 = writeFront (toChunkList ops).serialize ptr := rfl

end Chklist

end Sctp.Auth
