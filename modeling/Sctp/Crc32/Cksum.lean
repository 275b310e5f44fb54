import Sctp.Crc32.Tables

/-! `sctp_calculate_cksum`: the CRC32c of a chain, eight bytes at a time. -/
namespace Sctp.Crc32

inductive ByteOrder where
  | little
  | big
deriving DecidableEq, Repr

structure Mbuf where
  addr : Nat
  data : List (BitVec 8)
  len_lt : data.length < 2 ^ 31

def Mbuf.len (m : Mbuf) : BitVec 32 := BitVec.ofNat 32 m.data.length

/-- `x & 0xFF`, as an index. -/
def index (x : BitVec 32) : BitVec 8 := (x &&& 0xFF#32).setWidth 8

def sctpCrc32c (crc : BitVec 32) (d : BitVec 8) : BitVec 32 :=
  (crc >>> 8) ^^^ entry crcC (index (crc ^^^ d.setWidth 32))

/-- `length` bytes one at a time, with what is left of the buffer; `none` is a read behind its end. -/
def byteLoop (work : BitVec 32 → BitVec 8 → BitVec 32) :
    Nat → BitVec 32 → List (BitVec 8) → Option (BitVec 32 × List (BitVec 8))
  | 0, crc, buffer => some (crc, buffer)
  | _ + 1, _, [] => none
  | n + 1, crc, b :: buffer => byteLoop work n (work crc b) buffer

def singletableCrc32c (crc : BitVec 32) (buffer : List (BitVec 8)) (length : BitVec 32) :
    Option (BitVec 32) :=
  (byteLoop sctpCrc32c length.toNat crc buffer).map Prod.fst

def sb8Byte (crc : BitVec 32) (b : BitVec 8) : BitVec 32 :=
  entry tableil8O32 (index (crc ^^^ b.setWidth 32)) ^^^ (crc >>> 8)

/-- `*(const uint32_t *) p_buf` on a little endian machine. -/
def loadWord (b₀ b₁ b₂ b₃ : BitVec 8) : BitVec 32 := b₃ ++ b₂ ++ b₁ ++ b₀

/-- One round of the loop over groups of eight bytes. -/
def sb8Group (o : ByteOrder) (crc : BitVec 32) (b₀ b₁ b₂ b₃ b₄ b₅ b₆ b₇ : BitVec 8) : BitVec 32 :=
  let crc := match o with
    | .big => crc ^^^ b₀.setWidth 32 ^^^ (b₁.setWidth 32 <<< 8) ^^^ (b₂.setWidth 32 <<< 16) ^^^
        (b₃.setWidth 32 <<< 24)
    | .little => crc ^^^ loadWord b₀ b₁ b₂ b₃
  let term1 := entry tableil8O88 (index crc) ^^^ entry tableil8O80 (index (crc >>> 8))
  let term2 := crc >>> 16
  let crc := term1 ^^^ entry tableil8O72 (index term2) ^^^ entry tableil8O64 (index (term2 >>> 8))
  match o with
  | .big => crc ^^^ entry tableil8O56 b₄ ^^^ entry tableil8O48 b₅ ^^^ entry tableil8O40 b₆ ^^^
      entry tableil8O32 b₇
  | .little =>
    let term1 := entry tableil8O56 (index (loadWord b₄ b₅ b₆ b₇)) ^^^
      entry tableil8O48 (index (loadWord b₄ b₅ b₆ b₇ >>> 8))
    let term2 := loadWord b₄ b₅ b₆ b₇ >>> 16
    crc ^^^ term1 ^^^ entry tableil8O40 (index term2) ^^^ entry tableil8O32 (index (term2 >>> 8))

def groupLoop (o : ByteOrder) :
    Nat → BitVec 32 → List (BitVec 8) → Option (BitVec 32 × List (BitVec 8))
  | 0, crc, buffer => some (crc, buffer)
  | n + 1, crc, b₀ :: b₁ :: b₂ :: b₃ :: b₄ :: b₅ :: b₆ :: b₇ :: buffer =>
    groupLoop o n (sb8Group o crc b₀ b₁ b₂ b₃ b₄ b₅ b₆ b₇) buffer
  | _ + 1, _, _ => none

/-- `sctp_crc32c_sb8_64_bit` -/
def crc32cSb864Bit (o : ByteOrder) (crc : BitVec 32) (buffer : List (BitVec 8))
    (length initBytes : BitVec 32) : Option (BitVec 32) := do
  let runningLength := ((length - initBytes) / 8#32) * 8#32
  let endBytes := length - initBytes - runningLength
  let start ← byteLoop sb8Byte initBytes.toNat crc buffer
  let groups ← groupLoop o (runningLength / 8#32).toNat start.1 start.2
  let last ← byteLoop sb8Byte endBytes.toNat groups.1 groups.2
  return last.1

def multitableCrc32c (o : ByteOrder) (crc : BitVec 32) (addr : Nat) (buffer : List (BitVec 8))
    (length : BitVec 32) : Option (BitVec 32) :=
  if length = 0#32 then some crc
  else
    let toEvenWord := BitVec.ofNat 32 (4 - addr % 4)
    crc32cSb864Bit o crc buffer length toEvenWord

def calculateCrc32c (o : ByteOrder) (crc : BitVec 32) (addr : Nat) (buffer : List (BitVec 8))
    (length : BitVec 32) : Option (BitVec 32) :=
  if length < 4#32 then singletableCrc32c crc buffer length
  else multitableCrc32c o crc addr buffer length

def finalizeCrc32c (o : ByteOrder) (crc : BitVec 32) : BitVec 32 :=
  let result := ~~~crc
  match o with
  | .little => result
  | .big =>
    let byte0 := index result
    let byte1 := index (result >>> 8)
    let byte2 := index (result >>> 16)
    let byte3 := index (result >>> 24)
    (byte0.setWidth 32 <<< 24) ||| (byte1.setWidth 32 <<< 16) ||| (byte2.setWidth 32 <<< 8) |||
      byte3.setWidth 32

def skipMbufs : List Mbuf → BitVec 32 → List Mbuf × BitVec 32
  | [], offset => ([], offset)
  | m :: ms, offset => if m.len < offset then skipMbufs ms (offset - m.len) else (m :: ms, offset)

def cksumLoop (o : ByteOrder) : List Mbuf → BitVec 32 → BitVec 32 → Option (BitVec 32)
  | [], _, base => some base
  | m :: ms, offset, base => do
    let base ← if 0#32 < m.len - offset then
        calculateCrc32c o base (m.addr + offset.toNat) (m.data.drop offset.toNat) (m.len - offset)
      else some base
    let offset := if offset = 0#32 then offset
      else if offset < m.len then 0#32 else offset - m.len
    cksumLoop o ms offset base

def calculateCksum (o : ByteOrder) (m : List Mbuf) (offset : BitVec 32) : Option (BitVec 32) := do
  let start := skipMbufs m offset
  let base ← cksumLoop o start.1 start.2 0xffffffff#32
  return finalizeCrc32c o base

theorem index_eq (x : BitVec 32) : index x = x.setWidth 8 := by
  unfold index
  apply BitVec.eq_of_getLsbD_eq
  intro i hi
  interval_cases i <;> simp

theorem loadWord_eq (a b c d : BitVec 8) : loadWord a b c d = Slicing.word a b c d := by
  unfold loadWord Slicing.word Slicing.low
  apply BitVec.eq_of_getLsbD_eq
  intro i hi
  simp only [BitVec.getLsbD_append, BitVec.getLsbD_xor, BitVec.getLsbD_shiftLeft,
    BitVec.getLsbD_setWidth]
  interval_cases i <;> simp

theorem sb8Byte_eq : sb8Byte = Slicing.step (entry tableil8O32) := by
  funext crc b
  unfold sb8Byte Slicing.step Slicing.low
  rw [index_eq]

theorem sctpCrc32c_eq : sctpCrc32c = Slicing.step (entry tableil8O32) := by
  funext crc b
  unfold sctpCrc32c Slicing.step Slicing.low
  rw [index_eq, crcC_eq, BitVec.xor_comm]

/-- A group of eight bytes is eight single bytes. -/
theorem sb8Group_eq (o : ByteOrder) (crc : BitVec 32) (a b c d e f g h : BitVec 8) :
    sb8Group o crc a b c d e f g h = [a, b, c, d, e, f, g, h].foldl sctpCrc32c crc := by
  have hbytes := Slicing.bytes_word e f g h
  obtain ⟨h₁, h₂, h₃, h₄, h₅, h₆, h₇⟩ := fastPath_shifts
  rw [sctpCrc32c_eq, Slicing.step_eight o32_additive h₁ h₂ h₃ h₄ h₅ h₆ h₇]
  clear h₁ h₂ h₃ h₄ h₅ h₆ h₇
  unfold sb8Group
  generalize entry tableil8O32 = t₀
  generalize entry tableil8O40 = t₁
  generalize entry tableil8O48 = t₂
  generalize entry tableil8O56 = t₃
  generalize entry tableil8O64 = t₄
  generalize entry tableil8O72 = t₅
  generalize entry tableil8O80 = t₆
  generalize entry tableil8O88 = t₇
  cases o with
  | little =>
    simp only [index_eq, loadWord_eq, ← BitVec.shiftRight_add]
    rw [hbytes.1, hbytes.2.1, hbytes.2.2.1, hbytes.2.2.2]
    simp only [BitVec.xor_assoc]
  | big =>
    have hword : crc ^^^ a.setWidth 32 ^^^ (b.setWidth 32 <<< 8) ^^^ (c.setWidth 32 <<< 16) ^^^
        (d.setWidth 32 <<< 24) = crc ^^^ Slicing.word a b c d := by
      unfold Slicing.word Slicing.low
      simp only [BitVec.xor_assoc]
    simp only [index_eq, ← BitVec.shiftRight_add]
    rw [hword]
    simp only [BitVec.xor_assoc]

theorem byteLoop_eq (work : BitVec 32 → BitVec 8 → BitVec 32) (n : Nat) (crc : BitVec 32)
    (buffer : List (BitVec 8)) (hn : n ≤ buffer.length) :
    byteLoop work n crc buffer = some ((buffer.take n).foldl work crc, buffer.drop n) := by
  induction n generalizing crc buffer with
  | zero => rfl
  | succ n ih =>
    cases buffer with
    | nil => simp at hn
    | cons b buffer =>
      unfold byteLoop
      rw [ih _ _ (Nat.le_of_succ_le_succ hn)]
      simp

/-- The groups read no byte twice and none behind the end. -/
theorem groupLoop_eq (o : ByteOrder) (n : Nat) (crc : BitVec 32) (buffer : List (BitVec 8))
    (hn : 8 * n ≤ buffer.length) :
    groupLoop o n crc buffer =
      some ((buffer.take (8 * n)).foldl sctpCrc32c crc, buffer.drop (8 * n)) := by
  induction n generalizing crc buffer with
  | zero => rfl
  | succ n ih =>
    match buffer, hn with
    | b₀ :: b₁ :: b₂ :: b₃ :: b₄ :: b₅ :: b₆ :: b₇ :: buffer, hn =>
      unfold groupLoop
      have hrest : 8 * n ≤ buffer.length := by
        simp only [List.length_cons] at hn
        omega
      have height : 8 * (n + 1) = 8 * n + 1 + 1 + 1 + 1 + 1 + 1 + 1 + 1 := by omega
      rw [ih _ _ hrest, sb8Group_eq, height]
      simp only [List.take_succ_cons, List.drop_succ_cons, List.foldl_cons, List.foldl_nil]

theorem singletableCrc32c_eq (crc : BitVec 32) (buffer : List (BitVec 8)) (length : BitVec 32)
    (hlen : length.toNat ≤ buffer.length) :
    singletableCrc32c crc buffer length = some ((buffer.take length.toNat).foldl sctpCrc32c crc) := by
  unfold singletableCrc32c
  rw [byteLoop_eq _ _ _ _ hlen]
  rfl

theorem crc32cSb864Bit_eq (o : ByteOrder) (crc : BitVec 32) (buffer : List (BitVec 8))
    (length initBytes : BitVec 32) (hinit : initBytes.toNat ≤ length.toNat)
    (hlen : length.toNat ≤ buffer.length) :
    crc32cSb864Bit o crc buffer length initBytes =
      some ((buffer.take length.toNat).foldl sctpCrc32c crc) := by
  have hsub : (length - initBytes).toNat = length.toNat - initBytes.toNat :=
    BitVec.toNat_sub_of_le hinit
  have hrun : (((length - initBytes) / 8#32) * 8#32).toNat =
      (length.toNat - initBytes.toNat) / 8 * 8 := by
    rw [BitVec.toNat_mul, BitVec.toNat_udiv, hsub]
    have := length.isLt
    simp
    omega
  have hgroups : (((length - initBytes) / 8#32) * 8#32 / 8#32).toNat =
      (length.toNat - initBytes.toNat) / 8 := by
    rw [BitVec.toNat_udiv, hrun]
    simp
  have hend : (length - initBytes - ((length - initBytes) / 8#32) * 8#32).toNat =
      (length.toNat - initBytes.toNat) % 8 := by
    rw [BitVec.toNat_sub_of_le, hrun, hsub]
    · omega
    · rw [BitVec.le_def, hrun, hsub]
      omega
  have hsb8 : sb8Byte = sctpCrc32c := sb8Byte_eq.trans sctpCrc32c_eq.symm
  unfold crc32cSb864Bit
  dsimp only
  simp only [Option.bind_eq_bind]
  rw [hgroups, hend, hsb8, byteLoop_eq _ _ _ _ (hinit.trans hlen), Option.bind_some, groupLoop_eq,
    Option.bind_some, byteLoop_eq, Option.bind_some]
  · generalize hk : initBytes.toNat = k at *
    generalize hn : length.toNat = n at *
    have hcut : buffer.take n = buffer.take k ++ (buffer.drop k).take (8 * ((n - k) / 8)) ++
        ((buffer.drop k).drop (8 * ((n - k) / 8))).take ((n - k) % 8) := by
      have hsum : n = k + (8 * ((n - k) / 8) + (n - k) % 8) := by omega
      conv_lhs => rw [hsum, List.take_add, List.take_add]
      rw [List.append_assoc]
    rw [hcut, List.foldl_append, List.foldl_append]
    rfl
  · simp only [List.length_drop]
    omega
  · simp only [List.length_drop]
    omega

/-- Every part of a buffer comes to the same, at any address. -/
theorem calculateCrc32c_eq (o : ByteOrder) (crc : BitVec 32) (addr : Nat)
    (buffer : List (BitVec 8)) (length : BitVec 32) (hlen : length.toNat ≤ buffer.length) :
    calculateCrc32c o crc addr buffer length =
      some ((buffer.take length.toNat).foldl sctpCrc32c crc) := by
  unfold calculateCrc32c
  by_cases hshort : length < 4#32
  · rw [if_pos hshort, singletableCrc32c_eq _ _ _ hlen]
  · rw [if_neg hshort]
    have hfour : 4 ≤ length.toNat := by
      rw [BitVec.lt_def] at hshort
      exact Nat.le_of_not_lt hshort
    have hpos : length ≠ 0#32 := by
      rintro rfl
      simp at hfour
    unfold multitableCrc32c
    rw [if_neg hpos]
    apply crc32cSb864Bit_eq
    · rw [BitVec.toNat_ofNat, Nat.mod_eq_of_lt (by omega)]
      omega
    · exact hlen

theorem Mbuf.len_toNat (m : Mbuf) : m.len.toNat = m.data.length := by
  have := m.len_lt
  unfold Mbuf.len
  rw [BitVec.toNat_ofNat, Nat.mod_eq_of_lt (by omega)]

theorem cksumLoop_zero (o : ByteOrder) (ms : List Mbuf) (base : BitVec 32) :
    cksumLoop o ms 0#32 base = some ((ms.flatMap Mbuf.data).foldl sctpCrc32c base) := by
  induction ms generalizing base with
  | nil => rfl
  | cons m ms ih =>
    have hsub : m.len - 0#32 = m.len := by simp
    unfold cksumLoop
    rw [hsub, if_pos rfl, List.flatMap_cons, List.foldl_append]
    by_cases hpos : 0#32 < m.len
    · rw [if_pos hpos, calculateCrc32c_eq _ _ _ _ _ (by rw [m.len_toNat]; simp), m.len_toNat]
      simp [ih]
    · rw [if_neg hpos]
      have hempty : m.data = [] := by
        rw [BitVec.lt_def, m.len_toNat] at hpos
        apply List.eq_nil_of_length_eq_zero
        simpa using hpos
      simp [hempty, ih]

theorem cksumLoop_first (o : ByteOrder) (m : Mbuf) (ms : List Mbuf) (offset base : BitVec 32)
    (hoff : offset.toNat ≤ m.data.length) :
    cksumLoop o (m :: ms) offset base =
      some ((((m :: ms).flatMap Mbuf.data).drop offset.toNat).foldl sctpCrc32c base) := by
  have hle : offset ≤ m.len := by
    rw [BitVec.le_def, m.len_toNat]
    exact hoff
  have hsub : (m.len - offset).toNat = m.data.length - offset.toNat := by
    rw [BitVec.toNat_sub_of_le hle, m.len_toNat]
  have hnext : (if offset = 0#32 then offset else if offset < m.len then 0#32 else offset - m.len) =
      0#32 := by
    by_cases hzero : offset = 0#32
    · rw [if_pos hzero, hzero]
    · rw [if_neg hzero]
      by_cases hlt : offset < m.len
      · rw [if_pos hlt]
      · rw [if_neg hlt, BitVec.le_antisymm hle (BitVec.not_lt.mp hlt), BitVec.sub_self]
  unfold cksumLoop
  rw [hnext, List.flatMap_cons, List.drop_append_of_le_length hoff, List.foldl_append]
  by_cases hpos : 0#32 < m.len - offset
  · rw [if_pos hpos, calculateCrc32c_eq _ _ _ _ _ (by rw [hsub, List.length_drop]), hsub]
    simp only [Option.bind_eq_bind, Option.bind_some]
    rw [cksumLoop_zero, List.take_of_length_le (by simp)]
  · rw [if_neg hpos]
    have hempty : m.data.drop offset.toNat = [] := by
      rw [BitVec.lt_def, hsub] at hpos
      apply List.drop_eq_nil_of_le
      simp at hpos
      omega
    simp [hempty, cksumLoop_zero]

theorem cksumLoop_skip (o : ByteOrder) (ms : List Mbuf) (offset base : BitVec 32) :
    cksumLoop o (skipMbufs ms offset).1 (skipMbufs ms offset).2 base =
      some (((ms.flatMap Mbuf.data).drop offset.toNat).foldl sctpCrc32c base) := by
  induction ms generalizing offset with
  | nil => simp [skipMbufs, cksumLoop]
  | cons m ms ih =>
    unfold skipMbufs
    by_cases hlt : m.len < offset
    · have hnat : m.data.length < offset.toNat := by
        rwa [BitVec.lt_def, m.len_toNat] at hlt
      rw [if_pos hlt, ih, BitVec.toNat_sub_of_le (BitVec.le_of_lt hlt), m.len_toNat, List.flatMap_cons,
        List.drop_append, List.drop_eq_nil_of_le hnat.le, List.nil_append]
    · rw [if_neg hlt]
      apply cksumLoop_first
      rw [BitVec.lt_def, m.len_toNat] at hlt
      exact Nat.le_of_not_lt hlt

/-- The checksum of a chain is that of its bytes, taken one at a time. -/
theorem calculateCksum_eq_plain (o : ByteOrder) :
    (∀ (m : List Mbuf) (offset : BitVec 32),
      calculateCksum o m offset =
        some (finalizeCrc32c o
          (((m.flatMap Mbuf.data).drop offset.toNat).foldl sctpCrc32c 0xffffffff#32))) ∧
    (∀ (crc : BitVec 32) (b₀ b₁ b₂ b₃ b₄ b₅ b₆ b₇ : BitVec 8),
      sb8Group o crc b₀ b₁ b₂ b₃ b₄ b₅ b₆ b₇ =
        [b₀, b₁, b₂, b₃, b₄, b₅, b₆, b₇].foldl sctpCrc32c crc) ∧
    ∀ (crc : BitVec 32) (addr : Nat) (m₁ m₂ : Mbuf),
      calculateCrc32c o crc addr (m₁.data ++ m₂.data) (m₁.len + m₂.len) =
        (calculateCrc32c o crc m₁.addr m₁.data m₁.len).bind
          fun c => calculateCrc32c o c m₂.addr m₂.data m₂.len := by
  refine ⟨?_, sb8Group_eq o, ?_⟩
  · intro m offset
    unfold calculateCksum
    dsimp only
    rw [cksumLoop_skip]
    rfl
  · intro crc addr m₁ m₂
    have hsum : (m₁.len + m₂.len).toNat = (m₁.data ++ m₂.data).length := by
      have h₁ := m₁.len_lt
      have h₂ := m₂.len_lt
      rw [BitVec.toNat_add, m₁.len_toNat, m₂.len_toNat, List.length_append, Nat.mod_eq_of_lt (by omega)]
    rw [calculateCrc32c_eq _ _ _ _ _ hsum.le, calculateCrc32c_eq _ _ _ _ _ m₁.len_toNat.le,
      Option.bind_some, calculateCrc32c_eq _ _ _ _ _ m₂.len_toNat.le, hsum, m₁.len_toNat,
      m₂.len_toNat, List.take_length, List.take_length, List.take_length, List.foldl_append]

/-- The digits 1 to 9, from the second byte of an mbuf on. -/
example : calculateCksum .little [⟨1, [0#8, 0x31#8, 0x32#8], by decide⟩, ⟨0, [], by decide⟩,
      ⟨2, [0x33#8, 0x34#8, 0x35#8, 0x36#8, 0x37#8, 0x38#8, 0x39#8], by decide⟩] 1#32 =
    some 0xE3069283#32 := by
  decide +kernel

end Sctp.Crc32
