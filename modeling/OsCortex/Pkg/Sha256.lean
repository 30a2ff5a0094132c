import OsCortex.Lib.Sha256

/-!
`pkg/sha256.rs`, and that its `hash` is SHA-256 for every input a machine can hold.
-/

namespace OsCortex.Pkg

open Bytes Sha256 List

def roundConstants : List UInt32 :=
  [0x428a2f98, 0x71374491, 0xb5c0fbcf, 0xe9b5dba5, 0x3956c25b, 0x59f111f1, 0x923f82a4, 0xab1c5ed5,
    0xd807aa98, 0x12835b01, 0x243185be, 0x550c7dc3, 0x72be5d74, 0x80deb1fe, 0x9bdc06a7, 0xc19bf174,
    0xe49b69c1, 0xefbe4786, 0x0fc19dc6, 0x240ca1cc, 0x2de92c6f, 0x4a7484aa, 0x5cb0a9dc, 0x76f988da,
    0x983e5152, 0xa831c66d, 0xb00327c8, 0xbf597fc7, 0xc6e00bf3, 0xd5a79147, 0x06ca6351, 0x14292967,
    0x27b70a85, 0x2e1b2138, 0x4d2c6dfc, 0x53380d13, 0x650a7354, 0x766a0abb, 0x81c2c92e, 0x92722c85,
    0xa2bfe8a1, 0xa81a664b, 0xc24b8b70, 0xc76c51a3, 0xd192e819, 0xd6990624, 0xf40e3585, 0x106aa070,
    0x19a4c116, 0x1e376c08, 0x2748774c, 0x34b0bcb5, 0x391c0cb3, 0x4ed8aa4a, 0x5b9cca4f, 0x682e6ff3,
    0x748f82ee, 0x78a5636f, 0x84c87814, 0x8cc70208, 0x90befffa, 0xa4506ceb, 0xbef9a3f7, 0xc67178f2]

def startWords : Words :=
  ⟨0x6a09e667, 0xbb67ae85, 0x3c6ef372, 0xa54ff53a, 0x510e527f, 0x9b05688c, 0x1f83d9ab, 0x5be0cd19⟩

def ch (x y z : UInt32) : UInt32 := (x &&& y) ^^^ (~~~x &&& z)

def maj (x y z : UInt32) : UInt32 := (x &&& y) ^^^ (x &&& z) ^^^ (y &&& z)

variable (x : UInt32) {block : List UInt8} {w : List UInt32}

def sigma0 : UInt32 := rotr 2 x ^^^ rotr 13 x ^^^ rotr 22 x

def sigma1 : UInt32 := rotr 6 x ^^^ rotr 11 x ^^^ rotr 25 x

def gamma0 : UInt32 := rotr 7 x ^^^ rotr 18 x ^^^ (x >>> 3)

def gamma1 : UInt32 := rotr 17 x ^^^ rotr 19 x ^^^ (x >>> 10)

def firstWords (block : List UInt8) : List UInt32 :=
  (List.range 16).foldl (fun w i => w.set i (ofBe (slice block (i * 4) 4))) (List.replicate 64 0)

def laterWords (w : List UInt32) : List UInt32 :=
  (List.range 48).foldl
    (fun w k =>
      let i := 16 + k
      w.set i (gamma1 (w.getD (i - 2) 0) + w.getD (i - 7) 0 + gamma0 (w.getD (i - 15) 0) +
        w.getD (i - 16) 0))
    w

def mixWords (w : List UInt32) (words : Words) (i : Nat) : Words :=
  let t1 := words.h + sigma1 words.e + ch words.e words.f words.g + roundConstants.getD i 0 +
    w.getD i 0
  let t2 := sigma0 words.a + maj words.a words.b words.c
  { a := t1 + t2
    b := words.a
    c := words.b
    d := words.c
    e := words.d + t1
    f := words.e
    g := words.f
    h := words.g }

def compressBlock (state : Words) (block : List UInt8) : Words :=
  state.add ((List.range 64).foldl (mixWords (laterWords (firstWords block))) state)

def hashFull (data : List UInt8) (offset : Nat) (state : Words) : Words × Nat :=
  if offset + 64 ≤ data.length then
    hashFull data (offset + 64) (compressBlock state (slice data offset 64))
  else (state, offset)
termination_by data.length - offset

def lastBlocks (data : List UInt8) (offset : Nat) : List UInt8 :=
  let remaining := data.length - offset
  let lenOffset := (if remaining < 56 then 1 else 2) * 64 - 8
  let last := slice data offset remaining ++ 0x80 :: List.replicate (127 - remaining) 0
  last.take lenOffset ++ beBytes 8 (data.length * 8 % 2 ^ 64) ++ last.drop (lenOffset + 8)

def hash (data : List UInt8) : List UInt8 :=
  let (state, offset) := hashFull data 0 startWords
  let padBlocks := if data.length - offset < 56 then 1 else 2
  let last := lastBlocks data offset
  ((List.range padBlocks).foldl
    (fun state i => compressBlock state (slice last (i * 64) 64)) state).toBytes

def hashEq (a b : List UInt8) : Bool :=
  (List.range 32).foldl (fun diff i => diff ||| (a.getD i 0 ^^^ b.getD i 0)) 0 == 0

def hexDigit (value : UInt8) : Char := "0123456789abcdef".toList.getD value.toNat '0'

def hashHex (hash : List UInt8) : String :=
  String.ofList (hash.flatMap fun byte : UInt8 => [hexDigit (byte >>> 4), hexDigit (byte &&& 0xF)])

lemma foldl_or_eq_zero (count : Nat) (bits : Nat → UInt8) :
    (range count).foldl (fun diff i => diff ||| bits i) 0 = 0 ↔ ∀ i < count, bits i = 0 := by
  induction count with
  | zero => simp
  | succ count ih =>
    rw [range_succ, foldl_append, foldl_cons, foldl_nil, UInt8.or_eq_zero_iff, ih]
    constructor
    · rintro ⟨before, here⟩ i below
      by_cases last : i = count
      · rw [last, here]
      · exact before i (by omega)
    · exact fun all => ⟨fun i below => all i (by omega), all count (by omega)⟩

lemma hashEq_self (a : List UInt8) : hashEq a a := by
  rw [hashEq, beq_iff_eq, foldl_or_eq_zero]
  exact fun _ _ => UInt8.xor_self

lemma hashEq_iff {a b : List UInt8} (one : a.length = 32) (other : b.length = 32) :
    hashEq a b ↔ a = b := by
  constructor
  · intro same
    rw [hashEq, beq_iff_eq, foldl_or_eq_zero] at same
    refine ext_getElem (one.trans other.symm) fun i left right => ?_
    have here := UInt8.xor_eq_zero_iff.1 (same i (by omega))
    simpa [getD_eq_getElem?_getD, left, right] using here
  · rintro rfl
    exact hashEq_self a

lemma roundConstants_eq : roundConstants = constants := by decide +kernel

lemma startWords_eq : startWords = initial := by decide +kernel

def Scheduled (block : List UInt8) (w : List UInt32) (count : Nat) : Prop :=
  w.length = 64 ∧ ∀ t < count, w.getD t 0 = schedule block t

lemma Scheduled.set {count : Nat} {value : UInt32}
    (scheduled : Scheduled block w count) (inside : count < 64)
    (next : value = schedule block count) : Scheduled block (w.set count value) (count + 1) := by
  obtain ⟨length, words⟩ := scheduled
  refine ⟨by rw [length_set, length], fun t below => ?_⟩
  by_cases last : t = count
  · rw [last, getD_eq_getElem?_getD, getElem?_set_self (by omega)]
    exact next
  rw [getD_eq_getElem?_getD, getElem?_set_ne (Ne.symm last), ← getD_eq_getElem?_getD]
  exact words t (by omega)

lemma firstWords_scheduled (block : List UInt8) : Scheduled block (firstWords block) 16 := by
  have filled : ∀ count ≤ 16, Scheduled block ((range count).foldl
      (fun w i => w.set i (ofBe (slice block (i * 4) 4))) (replicate 64 0)) count := by
    intro count
    induction count with
    | zero => exact fun _ => ⟨by simp, nofun⟩
    | succ count ih =>
      intro bound
      rw [range_succ, foldl_append]
      refine (ih (by omega)).set (by omega) ?_
      rw [schedule, if_pos (by omega)]
  exact filled 16 (Nat.le_refl _)

lemma laterWords_scheduled
    (scheduled : Scheduled block w 16) : Scheduled block (laterWords w) 64 := by
  have filled : ∀ count ≤ 48, Scheduled block ((range count).foldl
      (fun w k =>
        let i := 16 + k
        w.set i (gamma1 (w.getD (i - 2) 0) + w.getD (i - 7) 0 + gamma0 (w.getD (i - 15) 0) +
          w.getD (i - 16) 0))
      w) (16 + count) := by
    intro count
    induction count with
    | zero => exact fun _ => scheduled
    | succ count ih =>
      intro bound
      rw [range_succ, foldl_append]
      have before := ih (by omega)
      refine before.set (by omega) ?_
      have recurrence : schedule block (16 + count) =
          smallSigma1 (schedule block (16 + count - 2)) + schedule block (16 + count - 7) +
            smallSigma0 (schedule block (16 + count - 15)) +
            schedule block (16 + count - 16) := by
        rw [schedule, if_neg (by omega)]
      rw [recurrence, before.2 _ (by omega), before.2 _ (by omega), before.2 _ (by omega),
        before.2 _ (by omega)]
      rfl
  exact filled 48 (Nat.le_refl _)

lemma compressBlock_eq (state : Words) (block : List UInt8) :
    compressBlock state block = compress state block := by
  have scheduled := laterWords_scheduled (firstWords_scheduled block)
  have rounds : (range 64).foldl (mixWords (laterWords (firstWords block))) state =
      (range 64).foldl
        (fun words t => round (constants.getD t 0) (schedule block t) words) state := by
    refine foldl_ext _ _ _ fun words t member => ?_
    rw [← scheduled.2 t (mem_range.1 member), ← roundConstants_eq]
    rfl
  rw [compressBlock, compress, rounds]

variable {data : List UInt8}

lemma hashFull_eq {offset : Nat} (state : Words)
    (inside : offset ≤ data.length) (whole : offset % 64 = 0) :
    hashFull data offset state =
      (compressBlocks (slice data offset ((data.length - offset) / 64 * 64)) state,
        data.length / 64 * 64) := by
  fun_induction hashFull data offset state with
  | case1 offset state more ih =>
    have count : (data.length - offset) / 64 * 64 =
        64 + (data.length - (offset + 64)) / 64 * 64 := by omega
    have split : slice data offset ((data.length - offset) / 64 * 64) =
        slice data offset 64 ++
          slice data (offset + 64) ((data.length - (offset + 64)) / 64 * 64) := by
      rw [slice, slice, slice, count, take_add, drop_drop]
    have block : (slice data offset 64).length = 64 := length_slice more
    have one : compressBlocks (slice data offset 64) state =
        compress state (slice data offset 64) := by
      rw [compressBlocks, block]
      show compress state (slice (slice data offset 64) 0 64) = _
      rw [slice_all block]
    rw [ih (by omega) (by omega), split, compressBlocks_append (by rw [block]), one,
      compressBlock_eq]
  | case2 offset state done =>
    have none : (data.length - offset) / 64 * 64 = 0 := by omega
    have finish : offset = data.length / 64 * 64 := by omega
    have empty : slice data offset 0 = [] := take_zero
    rw [none, ← finish, empty]
    rfl

lemma length_beBytes (width value : Nat) : (beBytes width value).length = width := by
  rw [beBytes, length_reverse, length_leBytes]

lemma lastBlocks_eq {offset count : Nat} (small : data.length < 2 ^ 61)
    (start : offset = data.length / 64 * 64)
    (blocks : count = if data.length - offset < 56 then 1 else 2) :
    (lastBlocks data offset).take (count * 64) = data.drop offset ++ padding data.length := by
  have rest : (data.drop offset).length = data.length - offset := length_drop
  have whole : slice data offset (data.length - offset) = data.drop offset :=
    take_of_length_le (Nat.le_of_eq rest)
  have bits : data.length * 8 % 2 ^ 64 = 8 * data.length := by omega
  have zeros : (119 - data.length % 64) % 64 = count * 64 - 9 - (data.length - offset) := by
    split at blocks <;> omega
  have room : data.length - offset + 9 ≤ count * 64 ∧ count * 64 ≤ 128 := by
    split at blocks <;> omega
  have front : (data.drop offset ++
      0x80 :: replicate (127 - (data.length - offset)) 0).take (count * 64 - 8) =
      data.drop offset ++
        0x80 :: replicate (count * 64 - 9 - (data.length - offset)) (0 : UInt8) := by
    have inner : count * 64 - 8 - (data.length - offset) =
        count * 64 - 9 - (data.length - offset) + 1 := by omega
    rw [take_append, rest, take_of_length_le (by omega), inner, take_succ_cons,
      take_replicate, Nat.min_eq_left (by omega)]
  have size : (data.drop offset ++ 0x80 :: replicate (count * 64 - 9 - (data.length - offset))
      (0 : UInt8) ++ beBytes 8 (8 * data.length)).length = count * 64 := by
    simp only [length_append, length_cons, length_replicate, length_beBytes, rest]
    omega
  simp only [lastBlocks, ← blocks, whole, bits, front]
  rw [take_append, size, Nat.sub_self, take_zero, append_nil,
    take_of_length_le (Nat.le_of_eq size), padding, zeros]
  simp

lemma hash_eq_digest (small : data.length < 2 ^ 61) : hash data = digest data := by
  have full := @hashFull_eq data 0 startWords (Nat.zero_le _) rfl
  obtain ⟨offset, start⟩ : ∃ offset, offset = data.length / 64 * 64 := ⟨_, rfl⟩
  obtain ⟨count, blocks⟩ : ∃ count, count = if data.length - offset < 56 then 1 else 2 := ⟨_, rfl⟩
  rw [Nat.sub_zero, ← start] at full
  have tail := lastBlocks_eq small start blocks
  have size : ((lastBlocks data offset).take (count * 64)).length = count * 64 := by
    rw [tail, length_append, length_drop, padding, length_append, length_cons,
      length_replicate, length_beBytes]
    split at blocks <;> omega
  have last : ∀ state, (range count).foldl
      (fun state i => compressBlock state (slice (lastBlocks data offset) (i * 64) 64)) state =
      compressBlocks (data.drop offset ++ padding data.length) state := by
    intro state
    rw [← tail, compressBlocks, size, Nat.mul_div_cancel count (by decide)]
    refine foldl_ext _ _ _ fun words i member => ?_
    have inside := mem_range.1 member
    rw [compressBlock_eq, slice, slice, drop_take, take_take, Nat.min_eq_left (by omega)]
  have front : (slice data 0 offset).length % 64 = 0 := by
    rw [length_slice (by omega)]
    omega
  have parts : data ++ padding data.length =
      slice data 0 offset ++ (data.drop offset ++ padding data.length) := by
    rw [slice, drop_zero, ← append_assoc, take_append_drop]
  rw [hash, digest, parts, compressBlocks_append front, ← startWords_eq]
  simp [full, ← blocks, last]

theorem hash_is_sha256 (data : List UInt8) (small : data.length < 2 ^ 61) :
    hash data = digest data ∧ (data ++ padding data.length).length =
      (data.length / 64 + if data.length % 64 < 56 then 1 else 2) * 64 := by
  refine ⟨hash_eq_digest small, ?_⟩
  rw [length_append, padding, length_append, length_cons, length_replicate, length_beBytes]
  split <;> omega

theorem two_blocks_hashed : hash (replicate 56 0) = digest (replicate 56 0) ∧
    (replicate 56 (0 : UInt8) ++ padding 56).length = 128 :=
  hash_is_sha256 (replicate 56 0) (by decide)

/-- The digest of `abc` given by the standard. -/
example : hash [0x61, 0x62, 0x63] =
    [0xba, 0x78, 0x16, 0xbf, 0x8f, 0x01, 0xcf, 0xea, 0x41, 0x41, 0x40, 0xde, 0x5d, 0xae, 0x22,
      0x23, 0xb0, 0x03, 0x61, 0xa3, 0x96, 0x17, 0x7a, 0x9c, 0xb4, 0x10, 0xff, 0x61, 0xf2, 0x00,
      0x15, 0xad] := by
  rw [hash, hashFull, if_neg (by decide)]
  decide +kernel

end OsCortex.Pkg
