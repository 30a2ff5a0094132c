import OsCortex.Lib.Bytes

/-! SHA-256 as the standard defines it, on messages of whole bytes. -/

namespace Sha256

open Bytes List

def primes : List Nat :=
  [2, 3, 5, 7, 11, 13, 17, 19, 23, 29, 31, 37, 41, 43, 47, 53, 59, 61, 67, 71, 73, 79, 83, 89, 97,
    101, 103, 107, 109, 113, 127, 131, 137, 139, 149, 151, 157, 163, 167, 173, 179, 181, 191, 193,
    197, 199, 211, 223, 227, 229, 233, 239, 241, 251, 257, 263, 269, 271, 277, 281, 283, 293, 307,
    311]

def rootFrom (power n : Nat) : Nat → Nat → Nat
  | 0, root => root
  | bit + 1, root =>
    rootFrom power n bit (if (root + 2 ^ bit) ^ power ≤ n then root + 2 ^ bit else root)

def fraction (power n : Nat) : UInt32 := UInt32.ofNat (rootFrom power (n * 2 ^ (32 * power)) 64 0)

def constants : List UInt32 := primes.map (fraction 3)

def rotr (n : UInt32) (x : UInt32) : UInt32 := (x >>> n) ||| (x <<< (32 - n))

def choose (x y z : UInt32) : UInt32 := (x &&& y) ^^^ (~~~x &&& z)

def majority (x y z : UInt32) : UInt32 := (x &&& y) ^^^ (x &&& z) ^^^ (y &&& z)

variable (x : UInt32)

def bigSigma0 : UInt32 := rotr 2 x ^^^ rotr 13 x ^^^ rotr 22 x

def bigSigma1 : UInt32 := rotr 6 x ^^^ rotr 11 x ^^^ rotr 25 x

def smallSigma0 : UInt32 := rotr 7 x ^^^ rotr 18 x ^^^ (x >>> 3)

def smallSigma1 : UInt32 := rotr 17 x ^^^ rotr 19 x ^^^ (x >>> 10)

def ofBe (bytes : List UInt8) : UInt32 :=
  bytes.foldl (fun word byte => (word <<< 8) ||| byte.toUInt32) 0

def beBytes (width value : Nat) : List UInt8 := (leBytes width value).reverse

@[ext]
structure Words where
  a : UInt32
  b : UInt32
  c : UInt32
  d : UInt32
  e : UInt32
  f : UInt32
  g : UInt32
  h : UInt32
deriving DecidableEq

def initial : Words :=
  match (primes.take 8).map (fraction 2) with
  | [a, b, c, d, e, f, g, h] => ⟨a, b, c, d, e, f, g, h⟩
  | _ => ⟨0, 0, 0, 0, 0, 0, 0, 0⟩

def schedule (block : List UInt8) (t : Nat) : UInt32 :=
  if t < 16 then ofBe (slice block (t * 4) 4)
  else
    smallSigma1 (schedule block (t - 2)) + schedule block (t - 7) +
      smallSigma0 (schedule block (t - 15)) + schedule block (t - 16)

def round (k w : UInt32) (words : Words) : Words :=
  let t1 := words.h + bigSigma1 words.e + choose words.e words.f words.g + k + w
  let t2 := bigSigma0 words.a + majority words.a words.b words.c
  { a := t1 + t2
    b := words.a
    c := words.b
    d := words.c
    e := words.d + t1
    f := words.e
    g := words.f
    h := words.g }

def Words.add (one other : Words) : Words :=
  ⟨one.a + other.a, one.b + other.b, one.c + other.c, one.d + other.d, one.e + other.e,
    one.f + other.f, one.g + other.g, one.h + other.h⟩

def compress (words : Words) (block : List UInt8) : Words :=
  words.add ((List.range 64).foldl
    (fun words t => round (constants.getD t 0) (schedule block t) words) words)

/-- A one bit, the fewest zeros that fill the last block, and the length in bits. -/
def padding (length : Nat) : List UInt8 :=
  0x80 :: List.replicate ((119 - length % 64) % 64) 0 ++ beBytes 8 (8 * length)

def Words.toBytes (words : Words) : List UInt8 :=
  [words.a, words.b, words.c, words.d, words.e, words.f, words.g, words.h].flatMap fun word =>
    beBytes 4 word.toNat

def compressBlocks (bytes : List UInt8) (words : Words) : Words :=
  (List.range (bytes.length / 64)).foldl
    (fun words i => compress words (slice bytes (i * 64) 64)) words

def digest (message : List UInt8) : List UInt8 :=
  (compressBlocks (message ++ padding message.length) initial).toBytes

lemma compressBlocks_append {front : List UInt8} (whole : front.length % 64 = 0)
    (back : List UInt8) (words : Words) :
    compressBlocks (front ++ back) words = compressBlocks back (compressBlocks front words) := by
  obtain ⟨count, length⟩ : ∃ count, front.length = 64 * count := ⟨front.length / 64, by omega⟩
  have blocks : (front ++ back).length / 64 = count + back.length / 64 := by
    rw [length_append, length]
    omega
  rw [compressBlocks, blocks, range_add, foldl_append, foldl_map]
  have first : (range count).foldl
      (fun words i => compress words (slice (front ++ back) (i * 64) 64)) words =
      compressBlocks front words := by
    rw [compressBlocks, length, Nat.mul_div_cancel_left count (by decide)]
    refine foldl_ext _ _ _ fun before i member => ?_
    rw [slice_append_left back (by have := mem_range.1 member; omega)]
  rw [first, compressBlocks]
  refine foldl_ext _ _ _ fun before i _ => ?_
  rw [Nat.add_mul, Nat.mul_comm count, ← length, slice_append_right back 64 (Nat.le_add_right ..),
    Nat.add_sub_cancel_left]

end Sha256
