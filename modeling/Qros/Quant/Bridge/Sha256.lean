import Qros.Quant.Strategy.Sha256

/-!
# The incremental SHA-256 of the bridge

`Sha256` of `bridge.cpp`: a buffer of fewer than 64 bytes that `update` fills and compresses, and
`final`, which feeds the padding through `update`.  Whatever the calls, the object has absorbed the
bytes it was given (`absorbs_foldl_update`), and its padding is that of the one-shot function, so the
digests agree (`digest_eq_sha256Hex`).
-/

namespace Qros.Quant.Bridge

open Qros.Lib List

def kSha256K : List UInt32 :=
  [0x428a2f98, 0x71374491, 0xb5c0fbcf, 0xe9b5dba5, 0x3956c25b, 0x59f111f1, 0x923f82a4, 0xab1c5ed5,
    0xd807aa98, 0x12835b01, 0x243185be, 0x550c7dc3, 0x72be5d74, 0x80deb1fe, 0x9bdc06a7, 0xc19bf174,
    0xe49b69c1, 0xefbe4786, 0x0fc19dc6, 0x240ca1cc, 0x2de92c6f, 0x4a7484aa, 0x5cb0a9dc, 0x76f988da,
    0x983e5152, 0xa831c66d, 0xb00327c8, 0xbf597fc7, 0xc6e00bf3, 0xd5a79147, 0x06ca6351, 0x14292967,
    0x27b70a85, 0x2e1b2138, 0x4d2c6dfc, 0x53380d13, 0x650a7354, 0x766a0abb, 0x81c2c92e, 0x92722c85,
    0xa2bfe8a1, 0xa81a664b, 0xc24b8b70, 0xc76c51a3, 0xd192e819, 0xd6990624, 0xf40e3585, 0x106aa070,
    0x19a4c116, 0x1e376c08, 0x2748774c, 0x34b0bcb5, 0x391c0cb3, 0x4ed8aa4a, 0x5b9cca4f, 0x682e6ff3,
    0x748f82ee, 0x78a5636f, 0x84c87814, 0x8cc70208, 0x90befffa, 0xa4506ceb, 0xbef9a3f7, 0xc67178f2]

/-- The members of `Sha256`; `block` holds the first `block_len` bytes of the array. -/
structure Sha256 where
  h : Words
  block : List UInt8
  total : UInt64
  lt : block.length < 64

namespace Sha256

def initial : Sha256 := ⟨Words.initial, [], 0, Nat.zero_lt_succ 63⟩

def compress (h : Words) (p : List UInt8) : Words := compressWith kSha256K h p

/-- The bytes that fit the block. -/
def take (c : Sha256) (bytes : List UInt8) : Nat := min (64 - c.block.length) bytes.length

theorem take_pos (c : Sha256) {bytes : List UInt8} (h : bytes ≠ []) : 0 < c.take bytes := by
  have := c.lt
  have := length_pos_iff.mpr h
  unfold take
  omega

/-- The block with the bytes that fit it. -/
def filled (c : Sha256) (bytes : List UInt8) : List UInt8 := c.block ++ bytes.take (c.take bytes)

theorem length_filled_le (c : Sha256) (bytes : List UInt8) : (c.filled bytes).length ≤ 64 := by
  have := c.lt
  rw [filled, length_append, length_take, take]
  omega

def updateLoop (c : Sha256) (bytes : List UInt8) : Sha256 :=
  if _hbytes : bytes = [] then c
  else if hfull : (c.filled bytes).length = 64 then
    updateLoop ⟨compress c.h (c.filled bytes), [], c.total, Nat.zero_lt_succ 63⟩
      (bytes.drop (c.take bytes))
  else
    updateLoop ⟨c.h, c.filled bytes, c.total, Nat.lt_of_le_of_ne (c.length_filled_le bytes) hfull⟩
      (bytes.drop (c.take bytes))
termination_by bytes.length
decreasing_by all_goals
  have hpos := c.take_pos _hbytes
  have hlen := length_pos_iff.mpr _hbytes
  rw [length_drop]
  omega

def update (c : Sha256) (bytes : List UInt8) : Sha256 :=
  updateLoop { c with total := c.total + UInt64.ofNat bytes.length } bytes

/-! ## What was absorbed -/

/-- The object is in the state that the bytes leave, from the words `start`. -/
def Absorbed (start : Words) (xs : List UInt8) (c : Sha256) : Prop :=
  Absorbs 64 compress start xs c.h c.block

theorem absorbed_self (c : Sha256) : Absorbed c.h c.block c := (Absorbs.nil c.h).buffer c.block

variable {start : Words} {xs : List UInt8} {c : Sha256}

theorem Absorbed.updateLoop (h : Absorbed start xs c) (bytes : List UInt8) :
    Absorbed start (xs ++ bytes) (c.updateLoop bytes) := by
  induction c, bytes using updateLoop.induct generalizing xs with
  | case1 c =>
    unfold Sha256.updateLoop
    rw [append_nil, dif_pos rfl]
    exact h
  | case2 c bytes hbytes hfull ih =>
    unfold Sha256.updateLoop
    rw [dif_neg hbytes, dif_pos hfull]
    have hflush := ih ((h.buffer (bytes.take (c.take bytes))).flush hfull)
    rw [append_assoc, take_append_drop] at hflush
    exact hflush
  | case3 c bytes hbytes hfull ih =>
    unfold Sha256.updateLoop
    rw [dif_neg hbytes, dif_neg hfull]
    have hbuffer := ih (h.buffer (bytes.take (c.take bytes)))
    rw [append_assoc, take_append_drop] at hbuffer
    exact hbuffer

theorem total_updateLoop (c : Sha256) (bytes : List UInt8) :
    (c.updateLoop bytes).total = c.total := by
  induction c, bytes using updateLoop.induct with
  | case1 c =>
    unfold updateLoop
    rw [dif_pos rfl]
  | case2 c bytes hbytes hfull ih =>
    unfold updateLoop
    rw [dif_neg hbytes, dif_pos hfull]
    exact ih
  | case3 c bytes hbytes hfull ih =>
    unfold updateLoop
    rw [dif_neg hbytes, dif_neg hfull]
    exact ih

theorem Absorbed.update (h : Absorbed start xs c) (bytes : List UInt8) :
    Absorbed start (xs ++ bytes) (c.update bytes) :=
  Absorbed.updateLoop (c := { c with total := c.total + UInt64.ofNat bytes.length }) h bytes

theorem total_update (c : Sha256) (bytes : List UInt8) :
    (c.update bytes).total = c.total + UInt64.ofNat bytes.length :=
  total_updateLoop _ bytes

theorem Absorbed.length_mod (h : Absorbed start xs c) : xs.length % 64 = c.block.length :=
  Absorbs.length_mod h c.lt

theorem length_block_update (c : Sha256) (x : UInt8) :
    (c.update [x]).block.length = (c.block.length + 1) % 64 := by
  rw [← ((absorbed_self c).update [x]).length_mod, length_append, length_singleton]

theorem absorbs_foldl_update (pieces : List (List UInt8)) (h : Absorbed start xs c)
    (htotal : c.total = UInt64.ofNat xs.length) :
    Absorbed start (xs ++ pieces.flatten) (pieces.foldl update c) ∧
      (pieces.foldl update c).total = UInt64.ofNat (xs ++ pieces.flatten).length := by
  induction pieces generalizing xs c with
  | nil =>
    rw [flatten_nil, append_nil]
    exact ⟨h, htotal⟩
  | cons piece pieces ih =>
    rw [flatten_cons, ← append_assoc, foldl_cons]
    refine ih (h.update piece) ?_
    rw [total_update, htotal, length_append, UInt64.ofNat_add]

/-! ## The digest -/

/-- The loop that feeds zeros until 56 bytes are in the block. -/
def zeroLoop (c : Sha256) : Sha256 :=
  if c.block.length = 56 then c else zeroLoop (c.update [0x00])
termination_by (120 - c.block.length) % 64
decreasing_by
  rename_i hne
  have := c.lt
  rw [length_block_update]
  omega

def lenBytes (bitLen : UInt64) : List UInt8 :=
  (List.range 8).map fun i ↦ ((bitLen >>> UInt64.ofNat (56 - i * 8)) &&& 0xff).toUInt8

/-- The bytes of a word, the most significant first. -/
def wordBytes (w : UInt32) : List UInt8 :=
  [((w >>> 24) &&& 0xff).toUInt8, ((w >>> 16) &&& 0xff).toUInt8, ((w >>> 8) &&& 0xff).toUInt8,
    (w &&& 0xff).toUInt8]

/-- The object behind the padding. -/
def padded (c : Sha256) : Sha256 :=
  let bitLen := c.total * 8
  let c := c.update [0x80]
  let c := c.zeroLoop
  c.update (lenBytes bitLen)

/-- The bytes that `final` writes to `out`. -/
def final (c : Sha256) : List UInt8 := c.padded.h.toList.flatMap wordBytes

theorem Absorbed.zeroLoop (h : Absorbed start xs c) :
    Absorbed start (xs ++ List.replicate ((120 - c.block.length) % 64) 0) c.zeroLoop := by
  induction c using zeroLoop.induct generalizing xs with
  | case1 c hlen =>
    unfold Sha256.zeroLoop
    rw [if_pos hlen, hlen, replicate_zero, append_nil]
    exact h
  | case2 c hlen ih =>
    have hcount : (120 - c.block.length) % 64 = (120 - (c.block.length + 1) % 64) % 64 + 1 := by
      have := c.lt
      omega
    have hzeros := ih (h.update [0x00])
    rw [length_block_update, append_assoc] at hzeros
    unfold Sha256.zeroLoop
    rw [if_neg hlen, hcount, replicate_succ]
    exact hzeros

theorem Absorbed.padded (h : Absorbed start xs c) (htotal : c.total = UInt64.ofNat xs.length) :
    Absorbed start (Strategy.padded xs) c.padded := by
  have hlen : (120 - (c.update [0x80]).block.length) % 64 = Strategy.zeroCount xs.length := by
    rw [length_block_update, Strategy.zeroCount_eq, ← h.length_mod]
    omega
  have hzeros := (h.update [0x80]).zeroLoop
  rw [hlen] at hzeros
  rw [Strategy.padded_eq, ← htotal]
  exact hzeros.update (lenBytes (c.total * 8))

theorem Absorbed.h_padded (h : Absorbed start xs c) (htotal : c.total = UInt64.ofNat xs.length) :
    c.padded.h = (chunks 64 (Strategy.padded xs)).foldl compress start := by
  have hpadded := h.padded htotal
  have hblock : c.padded.block = [] := by
    have hmod := hpadded.length_mod
    rw [Strategy.length_padded, Nat.mul_mod_left] at hmod
    exact length_eq_zero_iff.mp hmod.symm
  unfold Absorbed at hpadded
  rw [hblock] at hpadded
  exact hpadded.state_eq (by decide)

end Sha256

/-! ## Agreement -/

def hexDigits : List Char := "0123456789abcdef".toList

/-- The two characters of a byte. -/
def hexByte (b : UInt8) : List Char :=
  [hexDigits.getD (b >>> 4).toNat '0', hexDigits.getD (b &&& 0x0f).toNat '0']

/-- The digest of an object as text. -/
def hexOf (digest : List UInt8) : List Char := digest.flatMap hexByte

def sha256Hex (input : List UInt8) : List Char := hexOf (Sha256.initial.update input).final

theorem hexDigits_getD {k : Nat} (hk : k < 16) : hexDigits.getD k '0' = k.digitChar := by
  revert k
  decide

theorem hexByte_eq (b : UInt8) :
    hexByte b = [(b.toNat / 16).digitChar, (b.toNat % 16).digitChar] := by
  have hlt : b.toNat < 256 := b.toNat_lt
  have hhigh : (b >>> 4).toNat = b.toNat / 16 := by
    rw [UInt8.toNat_shiftRight, Nat.shiftRight_eq_div_pow]
    rfl
  have hlow : (b &&& 0x0f).toNat = b.toNat % 16 := by
    rw [UInt8.toNat_and]
    exact Nat.and_two_pow_sub_one_eq_mod b.toNat 4
  rw [hexByte, hhigh, hlow, hexDigits_getD (by omega), hexDigits_getD (Nat.mod_lt _ (by decide))]

theorem toNat_lowByte (w : UInt32) : (w &&& 0xff).toUInt8.toNat = w.toNat % 256 := by
  rw [UInt32.toNat_toUInt8, UInt32.toNat_and]
  have hlow : w.toNat &&& (0xff : UInt32).toNat = w.toNat % 256 :=
    Nat.and_two_pow_sub_one_eq_mod w.toNat 8
  rw [hlow]
  exact Nat.mod_mod w.toNat 256

theorem toNat_byte (w k : UInt32) : ((w >>> k) &&& 0xff).toUInt8.toNat =
    w.toNat / 2 ^ (k.toNat % 32) % 256 := by
  rw [toNat_lowByte, UInt32.toNat_shiftRight, Nat.shiftRight_eq_div_pow]

theorem hexOf_wordBytes (w : UInt32) :
    hexOf (Sha256.wordBytes w) = Strategy.hexPadded 8 w.toNat := by
  have hlt : w.toNat < 2 ^ 32 := w.toNat_lt
  have h3 : ((w >>> 24) &&& 0xff).toUInt8.toNat = w.toNat / 2 ^ 24 % 256 := toNat_byte w 24
  have h2 : ((w >>> 16) &&& 0xff).toUInt8.toNat = w.toNat / 2 ^ 16 % 256 := toNat_byte w 16
  have h1 : ((w >>> 8) &&& 0xff).toUInt8.toNat = w.toNat / 2 ^ 8 % 256 := toNat_byte w 8
  rw [Strategy.hexPadded_eight w.toNat hlt]
  simp only [hexOf, Sha256.wordBytes, flatMap_cons, flatMap_nil, hexByte_eq, h3, h2, h1,
    toNat_lowByte, cons_append, nil_append, List.cons.injEq, and_true]
  refine ⟨?_, ?_, ?_, ?_, ?_, ?_, ?_, ?_⟩ <;> exact congrArg Nat.digitChar (by omega)

theorem compress_eq : Sha256.compress = Strategy.sha256Compress := rfl

/-- **The two SHA-256 implementations agree.**  However the input is cut into calls of `update`, the
digest is the one of the one-shot function on the whole input. -/
theorem digest_eq_sha256Hex (pieces : List (List UInt8)) :
    hexOf (pieces.foldl Sha256.update Sha256.initial).final =
    Strategy.sha256Hex pieces.flatten := by
  have hinitial : Sha256.Absorbed Words.initial [] .initial := Absorbs.nil Words.initial
  obtain ⟨habsorbed, htotal⟩ := Sha256.absorbs_foldl_update pieces hinitial rfl
  rw [nil_append] at habsorbed htotal
  rw [Sha256.final, habsorbed.h_padded htotal, Strategy.sha256Hex_eq, compress_eq, hexOf,
    flatMap_assoc]
  refine flatMap_congr fun w _ ↦ ?_
  exact hexOf_wordBytes w

end Qros.Quant.Bridge
