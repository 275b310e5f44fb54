import Sctp.Lib.Bytes

/-! `sctp_m_getptr`: a piece of a chain of mbufs as contiguous bytes. -/
namespace Sctp.Getptr

/-- What is returned: a place in the data of an mbuf, or the buffer of the caller. -/
inductive Pointer where
  | null
  | direct (data : Bytes) (off : ℕ)
  | inPtr
deriving DecidableEq, Repr

/-- `bcopy` to a place in the buffer of the caller. -/
def bcopy (src buf : Bytes) (ptr : ℕ) : Option Bytes :=
  if ptr + src.length ≤ buf.length then some (buf.take ptr ++ src ++ buf.drop (ptr + src.length)) else none

/-- "find the desired start location" -/
def locate : List Bytes → ℕ → List Bytes × ℕ
  | [], off => ([], off)
  | m :: ms, off => if 0 < off ∧ m.length ≤ off then locate ms (off - m.length) else (m :: ms, off)

/-- "it spans more than one mbuf, so save a temp copy" -/
def copyLoop : List Bytes → ℕ → ℕ → ℕ → Bytes → Option (List Bytes × ℕ × Bytes)
  | [], _, len, _, buf => some ([], len, buf)
  | m :: ms, off, len, ptr, buf =>
    if len = 0 then some (m :: ms, len, buf)
    else
      let count := min (m.length - off) len
      (bcopy ((m.drop off).take count) buf ptr).bind fun buf => copyLoop ms 0 (len - count) (ptr + count) buf

/-- `sctp_m_getptr`, with the buffer behind it. Nothing comes back when the buffer is overrun. -/
def mGetptr (m : List Bytes) (off len : ℤ) (inPtr : Bytes) : Option (Pointer × Bytes) :=
  if off < 0 ∨ len ≤ 0 then some (.null, inPtr)
  else
    match locate m off.toNat with
    | ([], _) => some (.null, inPtr)
    | (b :: bs, o) =>
      if len.toNat ≤ b.length - o then some (.direct b o, inPtr)
      else
        (copyLoop (b :: bs) o len.toNat 0 inPtr).map fun (rest, left, buf) =>
          if rest = [] ∧ 0 < left then (.null, buf) else (.inPtr, buf)

def bytesAt (r : Pointer × Bytes) (len : ℕ) : Bytes :=
  match r.1 with
  | .null => []
  | .direct data off => (data.drop off).take len
  | .inPtr => r.2.take len

variable {m : List Bytes} {off len ptr : ℕ} {src buf : Bytes}

theorem locate_spec (m : List Bytes) (off : ℕ) :
    m.flatten.drop off = (locate m off).1.flatten.drop (locate m off).2 ∧
      off + (locate m off).1.flatten.length = m.flatten.length + (locate m off).2 ∧
      ∀ b ∈ (locate m off).1.head?, (locate m off).2 = 0 ∨ (locate m off).2 < b.length := by
  induction m generalizing off with
  | nil => exact ⟨rfl, Nat.add_comm _ _, nofun⟩
  | cons b bs ih =>
    unfold locate
    split
    · rename_i hpast
      obtain ⟨hdrop, hlength, hhead⟩ := ih (off - b.length)
      refine ⟨?_, ?_, hhead⟩
      · rw [← hdrop, List.flatten_cons, List.drop_append, List.drop_of_length_le hpast.2, List.nil_append]
      · rw [List.flatten_cons, List.length_append]
        omega
    · rename_i hhere
      refine ⟨rfl, Nat.add_comm _ _, ?_⟩
      intro x hx
      obtain rfl : b = x := Option.some.inj hx
      omega

theorem bcopy_eq (h : ptr + src.length ≤ buf.length) :
    ∃ buf', bcopy src buf ptr = some buf' ∧ buf'.length = buf.length ∧
      buf'.take (ptr + src.length) = buf.take ptr ++ src := by
  refine ⟨_, if_pos h, ?_, ?_⟩
  · simp only [List.length_append, List.length_take, List.length_drop]
    omega
  · apply List.take_left'
    rw [List.length_append, List.length_take]
    omega

/-- The loop copies what is there, up to the length asked for. -/
theorem copyLoop_spec (hoff : ∀ b ∈ m.head?, off ≤ b.length) (hbuf : ptr + len ≤ buf.length) :
    ∃ rest left buf', copyLoop m off len ptr buf = some (rest, left, buf') ∧
      left = len - (m.flatten.length - off) ∧ (0 < left → rest = []) ∧ buf'.length = buf.length ∧
      buf'.take (ptr + (len - left)) = buf.take ptr ++ (m.flatten.drop off).take len := by
  induction m generalizing off len ptr buf with
  | nil =>
    refine ⟨[], len, buf, rfl, ?_, fun _ => rfl, rfl, ?_⟩
    · rw [List.flatten_nil, List.length_nil, Nat.zero_sub, Nat.sub_zero]
    · rw [Nat.sub_self, Nat.add_zero, List.flatten_nil, List.drop_nil, List.take_nil, List.append_nil]
  | cons b bs ih =>
    unfold copyLoop
    by_cases hzero : len = 0
    · subst hzero
      refine ⟨b :: bs, 0, buf, if_pos rfl, (Nat.zero_sub _).symm, fun h => absurd h (lt_irrefl 0), rfl, ?_⟩
      rw [Nat.sub_self, Nat.add_zero, List.take_zero, List.append_nil]
    · have hb : off ≤ b.length := hoff b rfl
      obtain ⟨count, hcount⟩ : ∃ n, n = min (b.length - off) len := ⟨_, rfl⟩
      have hlength : ((b.drop off).take count).length = count := by
        rw [List.length_take, List.length_drop]
        omega
      have hroom : ptr + ((b.drop off).take count).length ≤ buf.length := by
        rw [hlength]
        omega
      obtain ⟨buf₁, hcopy, hlength₁, htake₁⟩ := bcopy_eq hroom
      rw [hlength] at htake₁
      have hroom₁ : ptr + count + (len - count) ≤ buf₁.length := by omega
      obtain ⟨rest, left, buf', hloop, hleft, hrest, hlength', htake⟩ := ih (fun _ _ => Nat.zero_le _) hroom₁
      refine ⟨rest, left, buf', ?_, ?_, hrest, hlength'.trans hlength₁, ?_⟩
      · rw [if_neg hzero]
        dsimp only
        rw [← hcount, hcopy, Option.bind_some, hloop]
      · rw [List.flatten_cons, List.length_append]
        omega
      · have hsame : ptr + (len - left) = ptr + count + (len - count - left) := by omega
        have hhere : (b.drop off).take count = (b.drop off).take len := by
          rw [List.take_eq_take_iff, List.length_drop]
          omega
        have hbehind : len - count = len - (b.length - off) := by omega
        rw [hsame, htake, htake₁, List.drop_zero, List.append_assoc, List.flatten_cons,
          List.drop_append_of_le_length hb, List.take_append, List.length_drop, hhere, hbehind]

/-- A pointer is returned exactly if the piece lies within the chain, and then to its bytes. -/
theorem mGetptr_slice (m : List Bytes) (off len : ℤ) (inPtr : Bytes) (hbuf : len ≤ inPtr.length) :
    ∃ r, mGetptr m off len inPtr = some r ∧
      (r.1 ≠ .null ↔ 0 ≤ off ∧ 0 < len ∧ off + len ≤ m.flatten.length) ∧
      (r.1 ≠ .null → bytesAt r len.toNat = (m.flatten.drop off.toNat).take len.toNat) := by
  unfold mGetptr
  by_cases hbad : off < 0 ∨ len ≤ 0
  · rw [if_pos hbad]
    exact ⟨_, rfl, iff_of_false (not_not.mpr rfl) (by omega), fun h => absurd rfl h⟩
  rw [if_neg hbad]
  obtain ⟨hdrop, hlength, hhead⟩ := locate_spec m off.toNat
  cases hlocate : locate m off.toNat with
  | mk ms o =>
    rw [hlocate] at hdrop hlength hhead
    dsimp only at hdrop hlength hhead
    cases ms with
    | nil =>
      rw [List.flatten_nil, List.length_nil] at hlength
      exact ⟨_, rfl, iff_of_false (not_not.mpr rfl) (by omega), fun h => absurd rfl h⟩
    | cons b bs =>
      have ho : o ≤ b.length := by
        rcases hhead b rfl with hzero | hlt
        · omega
        · omega
      have htotal : (b :: bs).flatten.length = b.length + bs.flatten.length := by
        rw [List.flatten_cons, List.length_append]
      dsimp only
      by_cases hone : len.toNat ≤ b.length - o
      · rw [if_pos hone]
        refine ⟨_, rfl, iff_of_true nofun (by omega), fun _ => ?_⟩
        rw [hdrop, List.flatten_cons, List.drop_append_of_le_length ho]
        exact (List.take_append_of_le_length (by rw [List.length_drop]; omega)).symm
      · rw [if_neg hone]
        have hroom : 0 + len.toNat ≤ inPtr.length := by omega
        have hoff : ∀ x ∈ (b :: bs).head?, o ≤ x.length := by
          intro x hx
          obtain rfl : b = x := Option.some.inj hx
          exact ho
        obtain ⟨rest, left, buf, hloop, hleft, hrest, -, htake⟩ := copyLoop_spec hoff hroom
        rw [hloop, Option.map_some]
        dsimp only
        by_cases hshort : 0 < left
        · rw [if_pos ⟨hrest hshort, hshort⟩]
          exact ⟨_, rfl, iff_of_false (not_not.mpr rfl) (by omega), fun h => absurd rfl h⟩
        · rw [if_neg fun h => hshort h.2]
          refine ⟨_, rfl, iff_of_true nofun (by omega), fun _ => ?_⟩
          obtain rfl : left = 0 := by omega
          rw [Nat.zero_add, Nat.sub_zero, List.take_zero, List.nil_append, ← hdrop] at htake
          exact htake

/-- Four bytes over three mbufs, of which the second is empty. -/
theorem mGetptr_slice_three :
    ∃ r, mGetptr [[1, 2, 3], [], [4, 5, 6]] 1 4 [0, 0, 0, 0] = some r ∧
      (r.1 ≠ .null ↔ (0 : ℤ) ≤ 1 ∧ (0 : ℤ) < 4 ∧
        (1 : ℤ) + 4 ≤ ([[1, 2, 3], [], [4, 5, 6]] : List Bytes).flatten.length) ∧
      (r.1 ≠ .null → bytesAt r 4 = (([[1, 2, 3], [], [4, 5, 6]] : List Bytes).flatten.drop 1).take 4) :=
  mGetptr_slice _ 1 4 [0, 0, 0, 0] (by decide)

/-- The parsers see a chain as its bytes: a pointer to a piece is the piece of the string. -/
theorem mGetptr_eq_piece (m : List Bytes) (off len : ℕ) (inPtr : Bytes) (hbuf : len ≤ inPtr.length) :
    (mGetptr m off len inPtr).map (fun r => if r.1 = .null then none else some (bytesAt r len)) =
      some (Bytes.piece m.flatten off len) := by
  obtain ⟨r, hr, hnull, hbytes⟩ := mGetptr_slice m off len inPtr (by exact_mod_cast hbuf)
  rw [hr, Option.map_some]
  unfold Bytes.piece
  by_cases hpointer : r.1 = .null
  · have hnot : ¬((0 : ℤ) ≤ off ∧ (0 : ℤ) < len ∧ (off : ℤ) + len ≤ m.flatten.length) :=
      fun h => hnull.mpr h hpointer
    rw [if_pos hpointer, if_pos (by omega)]
  · have hyes := hnull.mp hpointer
    rw [if_neg hpointer, if_neg (by omega)]
    exact congrArg some (congrArg some (hbytes hpointer))

end Sctp.Getptr
