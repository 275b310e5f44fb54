import Sctp.Lib.Bytes

/-! Parameters with a type, a length and a value, one behind the other and padded to words, and the
walk over them. -/

/-- The length counts the header of four bytes. -/
structure Tlv where
  type : ℕ
  value : Bytes
  type_lt : type < 65536
  length_lt : 4 + value.length < 65536

namespace Tlv

open Bytes (size32)

def length (t : Tlv) : ℕ := 4 + t.value.length

def bytes (t : Tlv) : Bytes := Bytes.enc16 t.type ++ (Bytes.enc16 t.length ++ t.value)

@[simp] theorem length_bytes (t : Tlv) : t.bytes.length = t.length := by
  simp only [bytes, length, List.length_append, Bytes.length_enc16]
  omega

def encode (ts : List Tlv) : Bytes := (ts.map fun t => t.bytes.pad).flatten

theorem encode_cons (t : Tlv) (ts : List Tlv) : encode (t :: ts) = t.bytes.pad ++ encode ts := rfl

theorem encode_append (ts us : List Tlv) : encode (ts ++ us) = encode ts ++ encode us := by
  simp [encode]

theorem u16_type (t : Tlv) (q : Bytes) : (t.bytes.pad ++ q).u16 0 = t.type := by
  rw [Bytes.pad, bytes, List.append_assoc, List.append_assoc]
  exact Bytes.u16_enc16 t.type_lt _

theorem u16_length (t : Tlv) (q : Bytes) : (t.bytes.pad ++ q).u16 2 = t.length := by
  have hlt : t.length < 65536 := t.length_lt
  have h := Bytes.u16_append_right (Bytes.enc16 t.type) (Bytes.enc16 t.length ++ (t.value ++
    (List.replicate (size32 t.bytes.length - t.bytes.length) 0 ++ q))) 0
  rw [Bytes.u16_enc16 hlt] at h
  rw [← h, Bytes.pad]
  simp only [bytes, List.append_assoc]
  rfl

theorem read_value (t : Tlv) (q : Bytes) : (t.bytes.pad ++ q).read 4 t.value.length = t.value := by
  have h := Bytes.read_append_right (Bytes.enc16 t.type ++ Bytes.enc16 t.length)
    (t.value ++ (List.replicate (size32 t.bytes.length - t.bytes.length) 0 ++ q)) 0 t.value.length
  rw [Bytes.read_append_left] at h
  refine Eq.trans ?_ h
  rw [Bytes.pad]
  simp only [bytes, List.append_assoc]
  rfl

theorem four_le_length (t : Tlv) : 4 ≤ t.length := Nat.le_add_right _ _

structure Param where
  type : ℕ
  offset : ℕ
  plen : ℕ
deriving DecidableEq, Repr

def paramAt (p : Bytes) (o : ℕ) : Param := ⟨p.u16 o, o, p.u16 (o + 2)⟩

def Param.bytes (p : Bytes) (x : Param) : Bytes := p.read x.offset x.plen

/-- The parameters from an offset on, up to the first that is empty or does not end inside the limit.
The next one is only looked at if that many bytes are left for it. -/
def walk (need : ℕ) (p : Bytes) (limit : ℕ) : ℕ → ℕ → List Param
  | 0, _ => []
  | n + 1, o =>
    if (p.piece o 4).isNone then []
    else if limit < o + p.u16 (o + 2) ∨ p.u16 (o + 2) = 0 then []
    else paramAt p o ::
      if limit < o + size32 (p.u16 (o + 2)) + need then []
      else walk need p limit n (o + size32 (p.u16 (o + 2)))

theorem lt_of_mem_walk {need limit n o : ℕ} {p : Bytes} {x : Param} (h : x ∈ walk need p limit n o) :
    x.type < 65536 ∧ x.plen < 65536 := by
  induction n generalizing o with
  | zero => exact absurd h List.not_mem_nil
  | succ n ih =>
    rw [walk] at h
    split at h
    · exact absurd h List.not_mem_nil
    split at h
    · exact absurd h List.not_mem_nil
    rcases List.mem_cons.1 h with rfl | h
    · exact ⟨p.u16_lt o, p.u16_lt (o + 2)⟩
    split at h
    · exact absurd h List.not_mem_nil
    · exact ih h

def place : ℕ → List Tlv → List Param
  | _, [] => []
  | o, t :: ts => ⟨t.type, o, t.length⟩ :: place (o + size32 t.length) ts

theorem place_append (o : ℕ) (ts us : List Tlv) :
    place o (ts ++ us) = place o ts ++ place (o + (encode ts).length) us := by
  induction ts generalizing o with
  | nil => rfl
  | cons t ts ih =>
    rw [List.cons_append, place, place, ih, List.cons_append, encode_cons, List.length_append,
      Bytes.length_pad, length_bytes, Nat.add_assoc]

/-- A test of the type and the length does not see the place. -/
theorem takeWhile_place (f : ℕ → ℕ → Bool) (o : ℕ) (ts : List Tlv) :
    (place o ts).takeWhile (fun x => f x.type x.plen) =
      place o (ts.takeWhile fun t => f t.type t.length) := by
  induction ts generalizing o with
  | nil => rfl
  | cons t ts ih =>
    rw [place, List.takeWhile_cons, List.takeWhile_cons]
    split
    · rw [place, ih]
    · rfl

theorem plen_of_mem_place {o : ℕ} {ts : List Tlv} {x : Param} (h : x ∈ place o ts) :
    4 ≤ x.plen ∧ x.plen < 65536 := by
  induction ts generalizing o with
  | nil => cases h
  | cons t ts ih =>
    obtain rfl | h := List.mem_cons.1 h
    · exact ⟨t.four_le_length, t.length_lt⟩
    · exact ih h

/-- A written parameter ends inside what is written. -/
theorem end_of_mem_place {o : ℕ} {ts : List Tlv} {x : Param} (h : x ∈ place o ts) :
    x.offset + x.plen ≤ o + (encode ts).length := by
  induction ts generalizing o with
  | nil => cases h
  | cons t ts ih =>
    have hsize := Bytes.le_size32 t.length
    rw [encode_cons, List.length_append, Bytes.length_pad, length_bytes]
    obtain rfl | h := List.mem_cons.1 h
    · change o + t.length ≤ _
      omega
    · have := ih h
      omega

theorem length_le_encode (ts : List Tlv) : ts.length ≤ (encode ts).length := by
  induction ts with
  | nil => exact Nat.zero_le _
  | cons t ts ih =>
    have h := Bytes.le_size32 t.length
    have := t.four_le_length
    rw [encode_cons, List.length_append, Bytes.length_pad, length_bytes, List.length_cons]
    omega

/-- What is read from the places of some parameters are these parameters. -/
theorem map_bytes_filter_place (f : ℕ → Bool) (pre suf : Bytes) (ts : List Tlv) :
    ((place pre.length ts).filter fun x => f x.type).map (Param.bytes (pre ++ (encode ts ++ suf))) =
      (ts.filter fun t => f t.type).map bytes := by
  induction ts generalizing pre with
  | nil => rfl
  | cons t ts ih =>
    have hrest := ih (pre ++ t.bytes.pad)
    rw [List.length_append, Bytes.length_pad, length_bytes, List.append_assoc,
      ← List.append_assoc t.bytes.pad] at hrest
    have hread : Param.bytes (pre ++ (t.bytes.pad ++ encode ts ++ suf)) ⟨t.type, pre.length, t.length⟩ =
        t.bytes := by
      have h := Bytes.read_append_right pre (t.bytes.pad ++ encode ts ++ suf) 0 t.length
      rw [Nat.add_zero] at h
      rw [Param.bytes, h, Bytes.pad, List.append_assoc, List.append_assoc, ← length_bytes]
      exact Bytes.read_append_left _ _
    rw [place, encode_cons, List.filter_cons, List.filter_cons]
    split
    · rw [List.map_cons, List.map_cons, hread, hrest]
    · exact hrest

/-- A walk over written parameters that end inside the limit finds them. -/
theorem walk_encode {need : ℕ} (hneed : 0 < need) (hheader : need ≤ 4) (pre suf : Bytes)
    (ts : List Tlv) {limit n : ℕ} (hlow : ∀ x ∈ place pre.length ts, x.offset + x.plen ≤ limit)
    (hhigh : limit ≤ pre.length + (encode ts).length) (hfuel : ts.length < n) :
    walk need (pre ++ (encode ts ++ suf)) limit n pre.length = place pre.length ts := by
  induction ts generalizing pre n with
  | nil =>
    obtain ⟨n, rfl⟩ : ∃ m, n = m + 1 := ⟨n - 1, by omega⟩
    rw [walk]
    split
    · rfl
    rw [if_pos]
    · rfl
    · change limit ≤ pre.length + 0 at hhigh
      omega
  | cons t ts ih =>
    obtain ⟨n, rfl⟩ : ∃ m, n = m + 1 := ⟨n - 1, by omega⟩
    have hend : pre.length + t.length ≤ limit := hlow _ List.mem_cons_self
    have hsize := Bytes.le_size32 t.length
    have hfour := t.four_le_length
    rw [encode_cons, List.append_assoc] at *
    have htype : (pre ++ (t.bytes.pad ++ (encode ts ++ suf))).u16 pre.length = t.type :=
      (Bytes.u16_append_right pre _ 0).trans (t.u16_type _)
    have hlength : (pre ++ (t.bytes.pad ++ (encode ts ++ suf))).u16 (pre.length + 2) = t.length :=
      (Bytes.u16_append_right pre _ 2).trans (t.u16_length _)
    have hpiece : ((pre ++ (t.bytes.pad ++ (encode ts ++ suf))).piece pre.length 4).isSome := by
      rw [Bytes.piece_isSome_iff]
      simp only [List.length_append, Bytes.length_pad, length_bytes]
      omega
    have hpad : (pre ++ t.bytes.pad).length = pre.length + size32 t.length := by
      rw [List.length_append, Bytes.length_pad, length_bytes]
    have hrest := ih (pre ++ t.bytes.pad) (n := n)
    rw [walk, if_neg (by rw [Option.isNone_eq_false_iff.2 hpiece]; exact Bool.false_ne_true), hlength,
      if_neg (by omega), paramAt, htype, hlength, place]
    congr 1
    rw [hpad, List.append_assoc] at hrest
    split
    · rename_i hstop
      cases ts with
      | nil => rfl
      | cons u us =>
        have hnext : pre.length + size32 t.length + u.length ≤ limit :=
          hlow _ (List.mem_cons_of_mem _ List.mem_cons_self)
        have := u.four_le_length
        omega
    · apply hrest
      · intro x hx
        exact hlow x (List.mem_cons_of_mem _ hx)
      · rw [List.length_append, Bytes.length_pad, length_bytes] at hhigh
        omega
      · rw [List.length_cons] at hfuel
        omega

end Tlv
