import Sctp.Lib.Blocks
import Sctp.Lib.Bytes

/-! SHA-1 by a context that takes its text in pieces, `sctp_sha1.c`. -/
namespace Sctp.Auth.Sha1

abbrev Word := BitVec 32

def cshift (a : ℕ) (b : Word) : Word := (b <<< a) ||| (b >>> (32 - a))

def f1 (b c d : Word) : Word := (b &&& c) ||| (~~~b &&& d)
def f2 (b c d : Word) : Word := b ^^^ c ^^^ d
def f3 (b c d : Word) : Word := (b &&& c) ||| (b &&& d) ||| (c &&& d)
def f4 (b c d : Word) : Word := b ^^^ c ^^^ d

def k1 : Word := 0x5a827999
def k2 : Word := 0x6ed9eba1
def k3 : Word := 0x8f1bbcdc
def k4 : Word := 0xca62c1d6

def word (block : Bytes) (i : ℕ) : Word := BitVec.ofNat 32 (block.u32 (4 * i))

/-- Five words: the hash value, or the variables of a round. -/
structure Chain where
  a : Word
  b : Word
  c : Word
  d : Word
  e : Word
deriving DecidableEq, Repr

/-- `H0INIT` and the others -/
def Chain.init : Chain := ⟨0x67452301, 0xefcdab89, 0x98badcfe, 0x10325476, 0xc3d2e1f0⟩

def Chain.add (x y : Chain) : Chain := ⟨x.a + y.a, x.b + y.b, x.c + y.c, x.d + y.d, x.e + y.e⟩

def wordBytes (w : Word) : Bytes := [w.extractLsb' 24 8, w.extractLsb' 16 8, w.extractLsb' 8 8, w.extractLsb' 0 8]

def Chain.digest (x : Chain) : Bytes :=
  wordBytes x.a ++ wordBytes x.b ++ wordBytes x.c ++ wordBytes x.d ++ wordBytes x.e

/-- `struct sctp_sha1_context` -/
structure Context where
  /-- `A` to `E` -/
  vars : Chain
  /-- `H0` to `H4` -/
  hash : Chain
  words : ℕ → Word
  temp : Word
  shaBlock : Bytes
  howManyInBlock : ℕ
  runningTotal : BitVec 32

namespace Context

/-- `sctp_sha1_init`; the block keeps what it holds. -/
def init (ctx : Context) : Context :=
  { ctx with
    vars := ⟨0, 0, 0, 0, 0⟩
    hash := .init
    temp := 0
    words := fun _ => 0
    howManyInBlock := 0
    runningTotal := 0 }

def setWord (ctx : Context) (i : ℕ) (w : Word) : Context := { ctx with words := Function.update ctx.words i w }

def load (block : Bytes) (ctx : Context) (i : ℕ) : Context := ctx.setWord i (word block i)

def extend (ctx : Context) (i : ℕ) : Context :=
  ctx.setWord i
    (cshift 1 (ctx.words (i - 3) ^^^ ctx.words (i - 8) ^^^ ctx.words (i - 14) ^^^ ctx.words (i - 16)))

def round (ctx : Context) (i : ℕ) : Context :=
  let v := ctx.vars
  let temp :=
    if i < 20 then cshift 5 v.a + f1 v.b v.c v.d + v.e + ctx.words i + k1
    else if i < 40 then cshift 5 v.a + f2 v.b v.c v.d + v.e + ctx.words i + k2
    else if i < 60 then cshift 5 v.a + f3 v.b v.c v.d + v.e + ctx.words i + k3
    else cshift 5 v.a + f4 v.b v.c v.d + v.e + ctx.words i + k4
  { ctx with temp := temp, vars := ⟨temp, v.a, cshift 30 v.b, v.c, v.d⟩ }

def processABlock (ctx : Context) (block : Bytes) : Context :=
  let ctx := (List.range 16).foldl (load block) ctx
  let ctx := (List.range' 16 64).foldl extend ctx
  let ctx := (List.range 80).foldl round { ctx with vars := ctx.hash }
  { ctx with hash := ctx.hash.add ctx.vars }

/-- `memcpy` into the block. -/
def fill (ctx : Context) (ptr : Bytes) : Context :=
  { ctx with
    shaBlock := ctx.shaBlock.take ctx.howManyInBlock ++ ptr ++ ctx.shaBlock.drop (ctx.howManyInBlock + ptr.length) }

/-- The loop of `sctp_sha1_update`. Nothing comes of a loop that does not end. -/
def updateLoop : ℕ → Context → Bytes → Option Context
  | 0, _, _ => none
  | n + 1, ctx, ptr =>
    if ptr.length = 0 then some ctx
    else
      let leftToFill := 64 - ctx.howManyInBlock
      if ptr.length < leftToFill then
        some { ctx.fill ptr with
          howManyInBlock := ctx.howManyInBlock + ptr.length
          runningTotal := ctx.runningTotal + BitVec.ofNat 32 ptr.length }
      else
        let ctx := ctx.fill (ptr.take leftToFill)
        let ctx := ctx.processABlock ctx.shaBlock
        updateLoop n
          { ctx with howManyInBlock := 0, runningTotal := ctx.runningTotal + BitVec.ofNat 32 leftToFill }
          (ptr.drop leftToFill)

def update (ctx : Context) (ptr : Bytes) : Option Context := updateLoop (ptr.length + 1) ctx ptr

/-- The mark behind the text, and zeros to the end of the block. -/
def mark (ctx : Context) : Context :=
  { ctx with
    shaBlock := ctx.shaBlock.take ctx.howManyInBlock ++ 0x80 :: List.replicate (63 - ctx.howManyInBlock) 0 }

/-- The length in bits goes into the last word, and the block is processed. -/
def finish (ctx : Context) : Context :=
  let runningTotal := ctx.runningTotal * 8
  let ctx := { ctx with runningTotal := runningTotal, shaBlock := ctx.shaBlock.take 60 ++ wordBytes runningTotal }
  ctx.processABlock ctx.shaBlock

def final (ctx : Context) : Bytes :=
  let ctx :=
    if 55 < ctx.howManyInBlock then
      if 64 - ctx.howManyInBlock = 0 then
        { ctx.processABlock ctx.shaBlock with shaBlock := 0x80 :: List.replicate 63 0 }
      else
        let ctx := ctx.mark
        { ctx.processABlock ctx.shaBlock with shaBlock := List.replicate 64 0 }
    else ctx.mark
  ctx.finish.hash.digest

end Context

def schedule (block : Bytes) (t : ℕ) : Word :=
  if t < 16 then word block t
  else
    cshift 1 (schedule block (t - 3) ^^^ schedule block (t - 8) ^^^ schedule block (t - 14) ^^^ schedule block (t - 16))
termination_by t

def mix (t : ℕ) (b c d : Word) : Word :=
  if t < 20 then f1 b c d else if t < 40 then f2 b c d else if t < 60 then f3 b c d else f4 b c d

def const (t : ℕ) : Word := if t < 20 then k1 else if t < 40 then k2 else if t < 60 then k3 else k4

def step (block : Bytes) (v : Chain) (t : ℕ) : Chain :=
  ⟨cshift 5 v.a + mix t v.b v.c v.d + v.e + schedule block t + const t, v.a, cshift 30 v.b, v.c, v.d⟩

def compress (h : Chain) (block : Bytes) : Chain := h.add ((List.range 80).foldl (step block) h)

/-- The text with its mark, zeros, and its length in bits as a number of eight bytes. -/
def pad (text : Bytes) : Bytes :=
  text ++ 0x80 :: List.replicate ((119 - text.length % 64) % 64) 0 ++
    wordBytes (BitVec.ofNat 32 (8 * text.length / 2 ^ 32)) ++ wordBytes (BitVec.ofNat 32 (8 * text.length))

def sha1 (text : Bytes) : Bytes := ((Blocks.parse 64 (pad text)).foldl compress .init).digest

namespace Context

/-- Nothing has changed but the words and the variables of the rounds. -/
structure Still (x y : Context) : Prop where
  hash : y.hash = x.hash
  shaBlock : y.shaBlock = x.shaBlock
  howManyInBlock : y.howManyInBlock = x.howManyInBlock
  runningTotal : y.runningTotal = x.runningTotal

variable {ctx : Context} {block : Bytes}

theorem Still.foldl {f : Context → ℕ → Context} (hf : ∀ ctx i, Still ctx (f ctx i)) (ctx : Context) (is : List ℕ) :
    Still ctx (is.foldl f ctx) := by
  induction is generalizing ctx with
  | nil => exact ⟨rfl, rfl, rfl, rfl⟩
  | cons i is ih =>
    have hi := hf ctx i
    have htail := ih (f ctx i)
    rw [List.foldl_cons]
    constructor
    · exact htail.hash.trans hi.hash
    · exact htail.shaBlock.trans hi.shaBlock
    · exact htail.howManyInBlock.trans hi.howManyInBlock
    · exact htail.runningTotal.trans hi.runningTotal

theorem still_load (block : Bytes) (ctx : Context) (i : ℕ) : Still ctx (load block ctx i) := ⟨rfl, rfl, rfl, rfl⟩

theorem still_extend (ctx : Context) (i : ℕ) : Still ctx (extend ctx i) := ⟨rfl, rfl, rfl, rfl⟩

theorem still_round (ctx : Context) (i : ℕ) : Still ctx (round ctx i) := ⟨rfl, rfl, rfl, rfl⟩

theorem words_load (block : Bytes) (ctx : Context) (n t : ℕ) (ht : t < n) :
    ((List.range n).foldl (load block) ctx).words t = word block t := by
  induction n with
  | zero => omega
  | succ n ih =>
    rw [List.range_succ, List.foldl_append, List.foldl_cons, List.foldl_nil]
    generalize (List.range n).foldl (load block) ctx = ctx' at ih
    change Function.update ctx'.words n (word block n) t = _
    by_cases hn : t = n
    · rw [hn, Function.update_self]
    · rw [Function.update_of_ne hn]
      apply ih
      omega

/-- The words are those of the schedule, as far as they are computed. -/
theorem words_extend (h : ∀ t < 16, ctx.words t = word block t) (n : ℕ) :
    ∀ t < 16 + n, ((List.range' 16 n).foldl extend ctx).words t = schedule block t := by
  induction n with
  | zero =>
    intro t ht
    rw [schedule, if_pos ht]
    exact h t ht
  | succ n ih =>
    intro t ht
    rw [List.range'_concat, List.foldl_append, List.foldl_cons, List.foldl_nil, Nat.one_mul]
    generalize (List.range' 16 n).foldl extend ctx = ctx' at ih
    change Function.update ctx'.words (16 + n) _ t = _
    by_cases hn : t = 16 + n
    · have hge : ¬ t < 16 := by omega
      rw [hn, Function.update_self, ← hn, schedule, if_neg hge, ih _ (by omega), ih _ (by omega), ih _ (by omega),
        ih _ (by omega)]
    · rw [Function.update_of_ne hn]
      apply ih
      omega

/-- A round is a step on the variables. -/
theorem vars_round {i : ℕ} (h : ctx.words i = schedule block i) : (ctx.round i).vars = step block ctx.vars i := by
  unfold round step mix const
  dsimp only
  rw [h]
  split_ifs <;> rfl

theorem vars_rounds (is : List ℕ) (h : ∀ i ∈ is, ctx.words i = schedule block i) :
    (is.foldl round ctx).vars = is.foldl (step block) ctx.vars := by
  induction is generalizing ctx with
  | nil => rfl
  | cons i is ih =>
    rw [List.forall_mem_cons] at h
    rw [List.foldl_cons, List.foldl_cons, ih, vars_round h.1]
    exact h.2

/-- A block is worked into the hash value. -/
theorem hash_processABlock (ctx : Context) (block : Bytes) :
    (ctx.processABlock block).hash = compress ctx.hash block := by
  have hload := words_load block ctx 16
  have hwords := words_extend (hload) 64
  have hloaded := Still.foldl (still_load block) ctx (List.range 16)
  have hextended := Still.foldl still_extend ((List.range 16).foldl (load block) ctx) (List.range' 16 64)
  unfold processABlock
  dsimp only
  generalize (List.range' 16 64).foldl extend ((List.range 16).foldl (load block) ctx) = ctx₂ at *
  have hhash : ctx₂.hash = ctx.hash := hextended.hash.trans hloaded.hash
  have hrounds := Still.foldl still_round { ctx₂ with vars := ctx₂.hash } (List.range 80)
  have hvars : ((List.range 80).foldl round { ctx₂ with vars := ctx₂.hash }).vars =
      (List.range 80).foldl (step block) ctx₂.hash := by
    apply vars_rounds
    intro i hi
    exact hwords i (List.mem_range.1 hi)
  rw [hvars, hrounds.hash]
  change Chain.add ctx₂.hash _ = _
  rw [hhash]
  rfl

theorem processABlock_frame (ctx : Context) (block : Bytes) :
    (ctx.processABlock block).shaBlock = ctx.shaBlock ∧
      (ctx.processABlock block).howManyInBlock = ctx.howManyInBlock ∧
      (ctx.processABlock block).runningTotal = ctx.runningTotal := by
  have hloaded := Still.foldl (still_load block) ctx (List.range 16)
  have hextended := Still.foldl still_extend ((List.range 16).foldl (load block) ctx) (List.range' 16 64)
  unfold processABlock
  dsimp only
  generalize (List.range' 16 64).foldl extend ((List.range 16).foldl (load block) ctx) = ctx₂ at *
  have hrounds := Still.foldl still_round { ctx₂ with vars := ctx₂.hash } (List.range 80)
  constructor
  · exact hrounds.shaBlock.trans (hextended.shaBlock.trans hloaded.shaBlock)
  constructor
  · exact hrounds.howManyInBlock.trans (hextended.howManyInBlock.trans hloaded.howManyInBlock)
  · exact hrounds.runningTotal.trans (hextended.runningTotal.trans hloaded.runningTotal)

end Context

open Blocks (absorb)

/-- The hash value of a text as far as it fills blocks, and the rest of the text. -/
abbrev taken (text : Bytes) : Blocks.Intake Chain (BitVec 8) := absorb 64 compress ⟨.init, []⟩ text

theorem length_taken (text : Bytes) : (taken text).rest.length = text.length % 64 := by
  have hlen : ([] : Bytes).length < 64 := by
    rw [List.length_nil]
    omega
  rw [taken, Blocks.length_rest hlen, List.length_nil, Nat.zero_add]

namespace Context

structure Hashed (ctx : Context) (text : Bytes) : Prop where
  hash : ctx.hash = (taken text).state
  length : ctx.shaBlock.length = 64
  block : ctx.shaBlock.take ctx.howManyInBlock = (taken text).rest
  howMany : ctx.howManyInBlock = (taken text).rest.length
  total : ctx.runningTotal = BitVec.ofNat 32 text.length

variable {ctx : Context} {text ptr : Bytes}

theorem hashed_init (h : ctx.shaBlock.length = 64) : Hashed ctx.init [] := ⟨rfl, h, rfl, rfl, rfl⟩

theorem Hashed.lt (h : Hashed ctx text) : ctx.howManyInBlock < 64 := by
  rw [h.howMany, length_taken]
  exact Nat.mod_lt _ (by omega)

theorem total_append (text ptr : Bytes) : BitVec.ofNat 32 text.length + BitVec.ofNat 32 ptr.length =
    BitVec.ofNat 32 (text ++ ptr).length := by
  rw [← BitVec.ofNat_add, List.length_append]

/-- What `memcpy` leaves in front of its end. -/
theorem Hashed.take_fill (h : Hashed ctx text) :
    (ctx.fill ptr).shaBlock.take (ctx.howManyInBlock + ptr.length) = (taken text).rest ++ ptr := by
  change (ctx.shaBlock.take ctx.howManyInBlock ++ ptr ++ _).take _ = _
  have hlen : (ctx.shaBlock.take ctx.howManyInBlock ++ ptr).length = ctx.howManyInBlock + ptr.length := by
    rw [List.length_append, h.block, ← h.howMany]
  rw [List.take_left' hlen, h.block]

theorem Hashed.length_fill (h : Hashed ctx text) (hfits : ctx.howManyInBlock + ptr.length ≤ 64) :
    (ctx.fill ptr).shaBlock.length = 64 := by
  change (ctx.shaBlock.take ctx.howManyInBlock ++ ptr ++ ctx.shaBlock.drop _).length = 64
  rw [List.length_append, List.length_append, h.block, ← h.howMany, List.length_drop, h.length]
  omega

/-- A piece that does not fill the block waits in it. -/
theorem Hashed.short (h : Hashed ctx text) (hshort : ptr.length < 64 - ctx.howManyInBlock) :
    Hashed { ctx.fill ptr with
      howManyInBlock := ctx.howManyInBlock + ptr.length
      runningTotal := ctx.runningTotal + BitVec.ofNat 32 ptr.length } (text ++ ptr) := by
  have htaken : taken (text ++ ptr) = ⟨(taken text).state, (taken text).rest ++ ptr⟩ := by
    rw [taken, Blocks.absorb_append]
    apply Blocks.absorb_short
    rw [← h.howMany]
    omega
  constructor
  · rw [htaken]
    exact h.hash
  · exact h.length_fill (by omega)
  · rw [htaken]
    exact h.take_fill
  · rw [htaken, List.length_append, ← h.howMany]
  · rw [← total_append, h.total]

/-- A piece that fills the block to its end is worked in with it. -/
theorem Hashed.full (h : Hashed ctx text) (hfull : ctx.howManyInBlock + ptr.length = 64) {ctx' : Context}
    (hctx' : (ctx.fill ptr).processABlock (ctx.fill ptr).shaBlock = ctx') :
    Hashed { ctx' with
      howManyInBlock := 0
      runningTotal := ctx'.runningTotal + BitVec.ofNat 32 ptr.length } (text ++ ptr) := by
  have hlt := h.lt
  have hlen : (ctx.fill ptr).shaBlock.length = 64 := h.length_fill (by omega)
  have hblock : (ctx.fill ptr).shaBlock = (taken text).rest ++ ptr := by
    rw [← h.take_fill, hfull, ← hlen, List.take_length]
  have hhash := hash_processABlock (ctx.fill ptr) (ctx.fill ptr).shaBlock
  obtain ⟨hsame, -, htotal⟩ := processABlock_frame (ctx.fill ptr) (ctx.fill ptr).shaBlock
  rw [hctx'] at hhash hsame htotal
  have htaken : taken (text ++ ptr) = ⟨compress (taken text).state ((taken text).rest ++ ptr), []⟩ := by
    rw [taken, Blocks.absorb_append]
    apply Blocks.absorb_fill
    · rw [← h.howMany]
      exact hfull
    · apply List.ne_nil_of_length_pos
      omega
  constructor
  · rw [htaken, hhash, hblock]
    change compress ctx.hash _ = _
    rw [h.hash]
  · rw [hsame, hlen]
  · rw [htaken]
    exact List.take_zero
  · rw [htaken]
    rfl
  · rw [← total_append, htotal]
    change ctx.runningTotal + _ = _
    rw [h.total]

/-- The loop ends, and the context has taken the piece in. -/
theorem Hashed.updateLoop (n : ℕ) (hn : ptr.length < n) (h : Hashed ctx text) :
    ∃ ctx', Context.updateLoop n ctx ptr = some ctx' ∧ Hashed ctx' (text ++ ptr) := by
  induction n generalizing ctx text ptr with
  | zero => omega
  | succ n ih =>
    have hlt := h.lt
    rw [Context.updateLoop]
    by_cases hnil : ptr.length = 0
    · rw [if_pos hnil, List.length_eq_zero_iff.1 hnil, List.append_nil]
      exact ⟨ctx, rfl, h⟩
    · rw [if_neg hnil]
      dsimp only
      by_cases hshort : ptr.length < 64 - ctx.howManyInBlock
      · rw [if_pos hshort]
        exact ⟨_, rfl, h.short hshort⟩
      · rw [if_neg hshort]
        have hlen : (ptr.take (64 - ctx.howManyInBlock)).length = 64 - ctx.howManyInBlock := by
          rw [List.length_take]
          omega
        generalize hctx' : (ctx.fill (ptr.take (64 - ctx.howManyInBlock))).processABlock
          (ctx.fill (ptr.take (64 - ctx.howManyInBlock))).shaBlock = ctx'
        have hfull := h.full (by omega) hctx'
        rw [hlen] at hfull
        have hrest : (ptr.drop (64 - ctx.howManyInBlock)).length < n := by
          rw [List.length_drop]
          omega
        obtain ⟨ctx'', hloop, hhashed⟩ := ih hrest hfull
        rw [List.append_assoc, List.take_append_drop] at hhashed
        exact ⟨ctx'', hloop, hhashed⟩

theorem Hashed.update (h : Hashed ctx text) (ptr : Bytes) :
    ∃ ctx', ctx.update ptr = some ctx' ∧ Hashed ctx' (text ++ ptr) := h.updateLoop _ (Nat.lt_succ_self _)

/-- What is put behind a text that leaves `n` bytes in its block; the length in bits has four bytes here. -/
def padding (n : ℕ) (bits : Word) : Bytes :=
  0x80 :: List.replicate ((119 - n) % 64) 0 ++ List.replicate 4 0 ++ wordBytes bits

theorem pad_eq (h : text.length < 2 ^ 29) :
    pad text = text ++ padding (text.length % 64) (BitVec.ofNat 32 (8 * text.length)) := by
  have hhigh : 8 * text.length / 2 ^ 32 = 0 := by omega
  have hzero : wordBytes (BitVec.ofNat 32 0) = List.replicate 4 0 := by decide
  rw [pad, padding, hhigh, hzero]
  simp only [List.append_assoc, List.cons_append]

theorem length_padding (n : ℕ) (bits : Word) : (padding n bits).length = 9 + (119 - n) % 64 := by
  unfold padding wordBytes
  simp only [List.length_append, List.length_cons, List.length_replicate, List.length_nil]
  omega

theorem sha1_eq (h : text.length < 2 ^ 29) :
    sha1 text = (absorb 64 compress (taken text)
      (padding (text.length % 64) (BitVec.ofNat 32 (8 * text.length)))).state.digest := by
  have hdvd : 64 ∣ (pad text).length := by
    rw [pad_eq h, List.length_append, length_padding]
    omega
  have hparse := Blocks.absorb_eq_parse (f := compress) (s := .init) (by omega) hdvd
  rw [sha1, ← Blocks.absorb_append, ← pad_eq h, hparse]

theorem bits_eq (h : Hashed ctx text) : ctx.runningTotal * 8 = BitVec.ofNat 32 (8 * text.length) := by
  rw [h.total, Nat.mul_comm, BitVec.ofNat_mul]
  rfl

/-- The block with the mark in it. -/
theorem Hashed.mark_eq (h : Hashed ctx text) :
    ctx.mark.shaBlock = (taken text).rest ++ 0x80 :: List.replicate (63 - text.length % 64) 0 := by
  change ctx.shaBlock.take ctx.howManyInBlock ++ _ = _
  rw [h.block, h.howMany, length_taken]

/-- Where the length still fits into the block of the mark. -/
theorem Hashed.mark_short (h : Hashed ctx text) (hshort : text.length % 64 ≤ 55) (bits : Word) :
    ctx.mark.shaBlock.take 60 ++ wordBytes bits = (taken text).rest ++ padding (text.length % 64) bits := by
  have hzeros : (119 - text.length % 64) % 64 + 4 = 60 - (text.length % 64 + 1) := by omega
  have hlen := length_taken text
  have hmin : min (59 - text.length % 64) (63 - text.length % 64) = (119 - text.length % 64) % 64 + 4 := by omega
  have hsub : 60 - (taken text).rest.length = (59 - text.length % 64) + 1 := by omega
  rw [h.mark_eq, List.take_append, List.take_of_length_le (by omega), hsub, List.take_succ_cons, List.take_replicate,
    hmin, List.replicate_add, padding]
  simp only [List.append_assoc, List.cons_append]

/-- Where it does not, a second block holds it. -/
theorem Hashed.mark_long (h : Hashed ctx text) (hlong : 55 < text.length % 64) (bits : Word) :
    (taken text).rest ++ padding (text.length % 64) bits =
      ctx.mark.shaBlock ++ (List.replicate 60 0 ++ wordBytes bits) := by
  have hlt : text.length % 64 < 64 := Nat.mod_lt _ (by omega)
  have hzeros : (119 - text.length % 64) % 64 = (63 - text.length % 64) + 56 := by omega
  rw [h.mark_eq, padding, hzeros, List.replicate_add]
  simp only [List.append_assoc, List.cons_append]
  rfl

theorem hash_finish (ctx : Context) :
    ctx.finish.hash = compress ctx.hash (ctx.shaBlock.take 60 ++ wordBytes (ctx.runningTotal * 8)) :=
  hash_processABlock _ _

/-- The digest is that of the whole text. -/
theorem Hashed.final (h : Hashed ctx text) (hlen : text.length < 2 ^ 29) : ctx.final = sha1 text := by
  have hmany : ctx.howManyInBlock = text.length % 64 := h.howMany.trans (length_taken text)
  have hlt := h.lt
  have hrest := length_taken text
  have hpad := length_padding (text.length % 64) (BitVec.ofNat 32 (8 * text.length))
  rw [sha1_eq hlen, Context.final]
  dsimp only
  by_cases hlong : 55 < ctx.howManyInBlock
  · have hne : ¬ 64 - ctx.howManyInBlock = 0 := by omega
    rw [if_pos hlong, if_neg hne]
    have hhash := hash_processABlock ctx.mark ctx.mark.shaBlock
    obtain ⟨-, -, htotal⟩ := processABlock_frame ctx.mark ctx.mark.shaBlock
    generalize ctx.mark.processABlock ctx.mark.shaBlock = ctx' at *
    have hmark : ctx.mark.shaBlock.length = 64 := by
      rw [h.mark_eq, List.length_append, List.length_cons, List.length_replicate]
      omega
    have hlast : (List.replicate 60 (0 : BitVec 8) ++ wordBytes (BitVec.ofNat 32 (8 * text.length))).length = 64 := rfl
    have hsplit := h.mark_long (by omega) (BitVec.ofNat 32 (8 * text.length))
    have hwhole : absorb 64 compress (taken text) (padding (text.length % 64) (BitVec.ofNat 32 (8 * text.length))) =
        absorb 64 compress ⟨(taken text).state, []⟩
          (ctx.mark.shaBlock ++ (List.replicate 60 0 ++ wordBytes (BitVec.ofNat 32 (8 * text.length)))) := by
      have hself : absorb 64 compress ⟨(taken text).state, []⟩ (taken text).rest = taken text := by
        rw [Blocks.absorb_short]
        · rfl
        · rw [List.length_nil]
          omega
      rw [← hsplit, Blocks.absorb_append, hself]
    rw [hwhole, Blocks.absorb_append, Blocks.absorb_block hmark (by omega), Blocks.absorb_block hlast (by omega),
      hash_finish]
    change (compress ctx'.hash (List.take 60 (List.replicate 64 0) ++ wordBytes (ctx'.runningTotal * 8))).digest = _
    rw [hhash, htotal]
    change (compress (compress ctx.hash _) (_ ++ wordBytes (ctx.runningTotal * 8))).digest = _
    rw [h.hash, bits_eq h]
    rfl
  · rw [if_neg hlong, hash_finish]
    have hfill : absorb 64 compress (taken text) (padding (text.length % 64) (BitVec.ofNat 32 (8 * text.length))) =
        ⟨compress (taken text).state
          ((taken text).rest ++ padding (text.length % 64) (BitVec.ofNat 32 (8 * text.length))), []⟩ := by
      apply Blocks.absorb_fill
      · omega
      · apply List.ne_nil_of_length_pos
        omega
    rw [hfill]
    change (compress ctx.hash (ctx.mark.shaBlock.take 60 ++ wordBytes (ctx.runningTotal * 8))).digest = _
    rw [h.mark_short (by omega), h.hash, bits_eq h]

end Context

def Context.updates (ctx : Context) (pieces : List Bytes) : Option Context := pieces.foldlM Context.update ctx

theorem Context.Hashed.updates {ctx : Context} {text : Bytes} (h : Hashed ctx text) (pieces : List Bytes) :
    ∃ ctx', ctx.updates pieces = some ctx' ∧ Hashed ctx' (text ++ pieces.flatten) := by
  induction pieces generalizing ctx text with
  | nil =>
    refine ⟨ctx, rfl, ?_⟩
    rw [List.flatten_nil, List.append_nil]
    exact h
  | cons piece pieces ih =>
    obtain ⟨ctx₁, hupdate, h₁⟩ := h.update piece
    obtain ⟨ctx₂, hupdates, h₂⟩ := ih h₁
    refine ⟨ctx₂, ?_, ?_⟩
    · rw [Context.updates, List.foldlM_cons, hupdate]
      exact hupdates
    · rw [List.flatten_cons, ← List.append_assoc]
      exact h₂

/-- However a text is cut into pieces, and whatever the memory of the context held before, the digest is the SHA-1 of
the text, if that has fewer than `2 ^ 29` bytes. -/
theorem final_updates (ctx : Context) (hblock : ctx.shaBlock.length = 64) (pieces : List Bytes)
    (hlen : pieces.flatten.length < 2 ^ 29) :
    (ctx.init.updates pieces).map Context.final = some (sha1 pieces.flatten) := by
  obtain ⟨ctx', hupdates, h⟩ := (Context.hashed_init hblock).updates pieces
  rw [List.nil_append] at h
  rw [hupdates, Option.map_some, h.final hlen]

/-- A context on the stack, with what the memory held before. -/
def staleContext : Context where
  vars := ⟨1, 2, 3, 4, 5⟩
  hash := ⟨6, 7, 8, 9, 10⟩
  words := fun _ => 11
  temp := 12
  shaBlock := List.replicate 64 13
  howManyInBlock := 14
  runningTotal := 15

/-- The text `abc` in two pieces. -/
theorem final_updates_abc :
    (staleContext.init.updates [[0x61], [0x62, 0x63]]).map Context.final = some (sha1 [0x61, 0x62, 0x63]) :=
  final_updates staleContext (List.length_replicate ..) [[0x61], [0x62, 0x63]] (by decide)

example : (staleContext.init.updates [[0x61], [0x62, 0x63]]).map Context.final =
    some [0xa9, 0x99, 0x3e, 0x36, 0x47, 0x06, 0x81, 0x6a, 0xba, 0x3e, 0x25, 0x71, 0x78, 0x50, 0xc2, 0x6c, 0x9c, 0xd0,
      0xd8, 0x9d] := by
  decide +kernel

end Sctp.Auth.Sha1
