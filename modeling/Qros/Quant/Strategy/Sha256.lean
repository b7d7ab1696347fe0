import Qros.Lib.Chunks
import Mathlib.Algebra.Ring.Nat

/-!
# SHA-256

`sha256_hex` of `strategy_hash.cpp`, which pads the whole input and compresses it chunk by chunk.
The compression is written once, over the table of constants, since `bridge.cpp` has the same one
with a table of its own.  A byte string is a list of bytes; sizes are natural numbers, so that the
input is one whose size fits a `size_t`.
-/

namespace Qros.Quant

open Qros.Lib List

/-! ## Compression -/

/-- The words `h[0]` to `h[7]`, and the variables `a` to `hh` of the rounds. -/
structure Words where
  a : UInt32
  b : UInt32
  c : UInt32
  d : UInt32
  e : UInt32
  f : UInt32
  g : UInt32
  hh : UInt32
deriving DecidableEq

namespace Words

def initial : Words :=
  ⟨0x6a09e667, 0xbb67ae85, 0x3c6ef372, 0xa54ff53a, 0x510e527f, 0x9b05688c, 0x1f83d9ab, 0x5be0cd19⟩

def toList (h : Words) : List UInt32 := [h.a, h.b, h.c, h.d, h.e, h.f, h.g, h.hh]

def add (h v : Words) : Words :=
  ⟨h.a + v.a, h.b + v.b, h.c + v.c, h.d + v.d, h.e + v.e, h.f + v.f, h.g + v.g, h.hh + v.hh⟩

end Words

def rotr (x n : UInt32) : UInt32 := (x >>> n) ||| (x <<< (32 - n))

def chunkWord (chunk : List UInt8) (i : Nat) : UInt32 :=
  ((chunk.getD (i * 4) 0).toUInt32 <<< 24) ||| ((chunk.getD (i * 4 + 1) 0).toUInt32 <<< 16) |||
    ((chunk.getD (i * 4 + 2) 0).toUInt32 <<< 8) ||| (chunk.getD (i * 4 + 3) 0).toUInt32

def scheduleStep (w : List UInt32) (i : Nat) : List UInt32 :=
  let w15 := w.getD (i - 15) 0
  let w2 := w.getD (i - 2) 0
  let s0 := rotr w15 7 ^^^ rotr w15 18 ^^^ (w15 >>> 3)
  let s1 := rotr w2 17 ^^^ rotr w2 19 ^^^ (w2 >>> 10)
  w ++ [w.getD (i - 16) 0 + s0 + w.getD (i - 7) 0 + s1]

def schedule (chunk : List UInt8) : List UInt32 :=
  (List.range' 16 48).foldl scheduleStep ((List.range 16).map (chunkWord chunk))

/-- The body of the loop over the rounds. -/
def round (k w : List UInt32) (v : Words) (i : Nat) : Words :=
  let s1 := rotr v.e 6 ^^^ rotr v.e 11 ^^^ rotr v.e 25
  let ch := (v.e &&& v.f) ^^^ (~~~v.e &&& v.g)
  let t1 := v.hh + s1 + ch + k.getD i 0 + w.getD i 0
  let s0 := rotr v.a 2 ^^^ rotr v.a 13 ^^^ rotr v.a 22
  let maj := (v.a &&& v.b) ^^^ (v.a &&& v.c) ^^^ (v.b &&& v.c)
  let t2 := s0 + maj
  ⟨t1 + t2, v.a, v.b, v.c, v.d + t1, v.e, v.f, v.g⟩

def compressWith (k : List UInt32) (h : Words) (chunk : List UInt8) : Words :=
  h.add ((List.range 64).foldl (round k (schedule chunk)) h)

namespace Strategy

def kK : List UInt32 :=
  [0x428a2f98, 0x71374491, 0xb5c0fbcf, 0xe9b5dba5, 0x3956c25b, 0x59f111f1, 0x923f82a4, 0xab1c5ed5,
    0xd807aa98, 0x12835b01, 0x243185be, 0x550c7dc3, 0x72be5d74, 0x80deb1fe, 0x9bdc06a7, 0xc19bf174,
    0xe49b69c1, 0xefbe4786, 0x0fc19dc6, 0x240ca1cc, 0x2de92c6f, 0x4a7484aa, 0x5cb0a9dc, 0x76f988da,
    0x983e5152, 0xa831c66d, 0xb00327c8, 0xbf597fc7, 0xc6e00bf3, 0xd5a79147, 0x06ca6351, 0x14292967,
    0x27b70a85, 0x2e1b2138, 0x4d2c6dfc, 0x53380d13, 0x650a7354, 0x766a0abb, 0x81c2c92e, 0x92722c85,
    0xa2bfe8a1, 0xa81a664b, 0xc24b8b70, 0xc76c51a3, 0xd192e819, 0xd6990624, 0xf40e3585, 0x106aa070,
    0x19a4c116, 0x1e376c08, 0x2748774c, 0x34b0bcb5, 0x391c0cb3, 0x4ed8aa4a, 0x5b9cca4f, 0x682e6ff3,
    0x748f82ee, 0x78a5636f, 0x84c87814, 0x8cc70208, 0x90befffa, 0xa4506ceb, 0xbef9a3f7, 0xc67178f2]

def sha256Compress (h : Words) (chunk : List UInt8) : Words := compressWith kK h chunk

/-! ## The digest of a string -/

/-- `"%0*x"`, with the width `w`. -/
def hexPadded (w n : Nat) : List Char :=
  List.replicate (w - (Nat.toDigits 16 n).length) '0' ++ Nat.toDigits 16 n

/-- The number of chunks of the padded input. -/
def chunkCount (len : Nat) : Nat := (len + 1 + 8 + 63) / 64

def padded (input : List UInt8) : List UInt8 :=
  let len := input.length
  let bitLen := UInt64.ofNat len * 8
  let zeros := List.replicate (chunkCount len * 64 - len) 0
  let start := (input ++ zeros).set len 0x80
  (List.range 8).foldl (fun bytes i ↦
    bytes.set (bytes.length - 1 - i) ((bitLen >>> UInt64.ofNat (i * 8)) &&& 0xFF).toUInt8) start

/-- `sha256_hex` of `strategy_hash.cpp`. -/
def sha256Hex (input : List UInt8) : List Char :=
  let bytes := padded input
  let h := (List.range (chunkCount input.length)).foldl
    (fun h i ↦ sha256Compress h ((bytes.drop (i * 64)).take 64)) Words.initial
  h.toList.flatMap fun word ↦ hexPadded 8 word.toNat

/-- The digest of `abc`. -/
example : String.ofList (sha256Hex [0x61, 0x62, 0x63]) =
    "ba7816bf8f01cfea414140de5dae2223b00361a396177a9cb410ff61f20015ad" := by
  decide +kernel

/-! ## Padding -/

/-- The bytes of a length, the most significant first. -/
def lengthBytes (bitLen : UInt64) : List UInt8 :=
  (List.range 8).map fun i ↦ ((bitLen >>> UInt64.ofNat (56 - i * 8)) &&& 0xFF).toUInt8

/-- The zeros between the marker and the length. -/
def zeroCount (len : Nat) : Nat := chunkCount len * 64 - (len + 9)

theorem le_chunkCount (len : Nat) : len + 9 ≤ chunkCount len * 64 := by
  unfold chunkCount
  omega

theorem zeroCount_eq (len : Nat) : zeroCount len = (119 - len % 64) % 64 := by
  unfold zeroCount chunkCount
  omega

theorem set_from_end (front back : List UInt8) (i : Nat) (hi : i < back.length) (x : UInt8) :
    (front ++ back).set ((front ++ back).length - 1 - i) x =
      front ++ back.set (back.length - 1 - i) x := by
  have hlen : (front ++ back).length - 1 - i = front.length + (back.length - 1 - i) := by
    rw [length_append]
    omega
  rw [hlen, set_append_right _ _ (Nat.le_add_right _ _), Nat.add_sub_cancel_left]

theorem foldl_set_from_end (front : List UInt8) (x : Nat → UInt8) (is : List Nat)
    (his : ∀ i ∈ is, i < 8) (back : List UInt8) (hback : back.length = 8) :
    is.foldl (fun bytes i ↦ bytes.set (bytes.length - 1 - i) (x i)) (front ++ back) =
      front ++ is.foldl (fun bytes i ↦ bytes.set (7 - i) (x i)) back := by
  induction is generalizing back with
  | nil => rfl
  | cons i is ih =>
    have hi : i < back.length := hback ▸ his i mem_cons_self
    rw [foldl_cons, foldl_cons, set_from_end front back i hi, hback]
    exact ih (fun j hj ↦ his j (mem_cons_of_mem i hj)) _ (by rw [length_set, hback])

theorem padded_eq (input : List UInt8) : padded input =
    input ++ [0x80] ++ List.replicate (zeroCount input.length) 0 ++
      lengthBytes (UInt64.ofNat input.length * 8) := by
  have hzeros : List.replicate (chunkCount input.length * 64 - input.length) (0 : UInt8) =
      0 :: (List.replicate (zeroCount input.length) 0 ++ List.replicate 8 0) := by
    have hcount : chunkCount input.length * 64 - input.length =
        zeroCount input.length + 8 + 1 := by
      have := le_chunkCount input.length
      unfold zeroCount
      omega
    rw [hcount, replicate_succ, replicate_append_replicate]
  have hstart : (input ++ List.replicate (chunkCount input.length * 64 - input.length) 0).set
      input.length 0x80 =
      (input ++ [0x80] ++ List.replicate (zeroCount input.length) 0) ++ List.replicate 8 0 := by
    rw [hzeros, set_append_right _ _ (Nat.le_refl _), Nat.sub_self, set_cons_zero,
      append_assoc, append_assoc]
    rfl
  unfold padded
  dsimp only
  rw [hstart, foldl_set_from_end _ _ _ (fun i hi ↦ mem_range.mp hi) _ (length_replicate)]
  rfl

theorem length_padded (input : List UInt8) :
    (padded input).length = chunkCount input.length * 64 := by
  have := le_chunkCount input.length
  rw [padded_eq]
  simp only [length_append, length_replicate, length_singleton, lengthBytes,
    length_map, length_range, zeroCount]
  omega

theorem sha256Hex_eq (input : List UInt8) : sha256Hex input =
    ((chunks 64 (padded input)).foldl sha256Compress Words.initial).toList.flatMap
      fun word ↦ hexPadded 8 word.toNat := by
  have hcount : ((padded input).length + 64 - 1) / 64 = chunkCount input.length := by
    rw [length_padded]
    omega
  rw [chunks, hcount, foldl_map]
  rfl

/-! ## Hexadecimal digits -/

theorem toDigits_hex_succ (n : Nat) (hn : 16 ≤ n) :
    Nat.toDigits 16 n = Nat.toDigits 16 (n / 16) ++ [(n % 16).digitChar] :=
  Nat.toDigits_of_base_le (by decide) hn

theorem hexPadded_succ (w n : Nat) (hw : 0 < w) :
    hexPadded (w + 1) n = hexPadded w (n / 16) ++ [(n % 16).digitChar] := by
  unfold hexPadded
  rcases Nat.lt_or_ge n 16 with hlt | hge
  · have hzero : n / 16 = 0 := Nat.div_eq_of_lt hlt
    have hone : (Nat.toDigits 16 n).length = 1 := by rw [Nat.toDigits_of_lt_base hlt]; rfl
    obtain ⟨w, rfl⟩ := Nat.exists_eq_succ_of_ne_zero (Nat.ne_of_gt hw)
    rw [hzero, Nat.toDigits_zero, Nat.toDigits_of_lt_base hlt, Nat.mod_eq_of_lt hlt,
      length_singleton, length_singleton, Nat.add_sub_cancel, Nat.succ_sub_one,
      replicate_succ']
  · rw [toDigits_hex_succ n hge, length_append, length_singleton,
      Nat.add_sub_add_right, append_assoc]

theorem hexPadded_one (n : Nat) (hn : n < 16) : hexPadded 1 n = [n.digitChar] := by
  rw [hexPadded, Nat.toDigits_of_lt_base hn]
  rfl

theorem hexPadded_eight (n : Nat) (hn : n < 2 ^ 32) : hexPadded 8 n =
    [(n / 16 ^ 7).digitChar, (n / 16 ^ 6 % 16).digitChar, (n / 16 ^ 5 % 16).digitChar,
      (n / 16 ^ 4 % 16).digitChar, (n / 16 ^ 3 % 16).digitChar, (n / 16 ^ 2 % 16).digitChar,
      (n / 16 % 16).digitChar, (n % 16).digitChar] := by
  have hlast : n / 16 ^ 7 < 16 := by omega
  rw [hexPadded_succ 7 n (by decide), hexPadded_succ 6 _ (by decide), hexPadded_succ 5 _ (by decide),
    hexPadded_succ 4 _ (by decide), hexPadded_succ 3 _ (by decide), hexPadded_succ 2 _ (by decide),
    hexPadded_succ 1 _ (by decide)]
  simp only [Nat.div_div_eq_div_mul, Nat.reduceMul, Nat.reducePow] at hlast ⊢
  rw [hexPadded_one _ hlast]
  rfl

end Strategy

end Qros.Quant
