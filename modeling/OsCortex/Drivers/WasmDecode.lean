import OsCortex.Drivers.WasmCore
import OsCortex.Lib.Wasm

/-!
The sandbox reads the binary format: LEB128 numbers, and the code that an `if` or an `else` skips.
-/

namespace OsCortex.WasmSandbox

open List

variable {bytes : List UInt8} {s : Nat}

lemma ulebFrom_encoded {width value : Nat}
    (encoded : Leb128.Unsigned width bytes value) {r : Nat} (n : Nat) (rest : List UInt8)
    (total : s + width = 32) (low : r < 2 ^ s) :
    ulebFrom (bytes ++ rest) r s n = (r + value * 2 ^ s, n + bytes.length) := by
  induction encoded generalizing r s n with
  | @last width byte short fits =>
    have below : byte.toNat <<< s < 2 ^ 32 := by
      rw [Nat.shiftLeft_eq, ← total, Nat.add_comm s, Nat.pow_add]
      exact Nat.mul_lt_mul_of_pos_right fits (Nat.two_pow_pos s)
    simp only [singleton_append, ulebFrom, short, true_or, if_true, Nat.mod_eq_of_lt short,
      Nat.mod_eq_of_lt below, Leb128.or_shift low, length_singleton]
  | @more width value byte rest' large wide _ ih =>
    have small := byte.toNat_lt
    have digit : byte.toNat % 128 = byte.toNat - 128 := by omega
    have next : 2 ^ (s + 7) = 2 ^ s * 128 := by rw [Nat.pow_add]
    have shifted : (byte.toNat - 128) <<< s < 2 ^ (s + 7) := by
      rw [Nat.shiftLeft_eq, next, Nat.mul_comm]
      exact Nat.mul_lt_mul_of_pos_left (by omega) (Nat.two_pow_pos s)
    have below : (byte.toNat - 128) <<< s < 2 ^ 32 :=
      Nat.lt_of_lt_of_le shifted (Nat.pow_le_pow_right (by decide) (by omega))
    have low' : r + (byte.toNat - 128) * 2 ^ s < 2 ^ (s + 7) := by
      rw [← Leb128.or_shift low]
      refine Nat.or_lt_two_pow (Nat.lt_of_lt_of_le low ?_) shifted
      exact Nat.pow_le_pow_right (by decide) (by omega)
    have goesOn : ¬ (byte.toNat < 128 ∨ s + 7 ≥ 35) := by omega
    simp only [cons_append, ulebFrom, goesOn, if_false, digit, Nat.mod_eq_of_lt below,
      Leb128.or_shift low]
    rw [ih (n + 1) (by omega) low', next, length_cons]
    refine Prod.ext ?_ (by simp only; omega)
    simp only
    ring

lemma ulebRaw_encoded {value : Nat} (encoded : Leb128.Unsigned 32 bytes value) (rest : List UInt8) :
    ulebRaw (bytes ++ rest) = (value, bytes.length) := by
  rw [ulebRaw, ulebFrom_encoded encoded 0 rest rfl (by decide)]
  simp

variable {r : I32} {rest : List UInt8}

lemma or_shiftLeft (low : r.toNat < 2 ^ s) (x : I32) : r ||| x <<< s = r + x <<< s := by
  refine (BitVec.add_eq_or_of_and_eq_zero r (x <<< s) ?_).symm
  refine BitVec.eq_of_getLsbD_eq fun i _ => ?_
  rw [BitVec.getLsbD_and, BitVec.getLsbD_shiftLeft, BitVec.getLsbD_zero]
  by_cases above : i < s
  · simp [above]
  have clear : r.getLsbD i = false := by
    rw [BitVec.getLsbD]
    exact Nat.testBit_lt_two_pow (Nat.lt_of_lt_of_le low (Nat.pow_le_pow_right (by decide)
      (Nat.le_of_not_lt above)))
  simp [clear]

lemma toNat_or_shiftLeft {digit : Nat} (low : r.toNat < 2 ^ s)
    (small : digit < 128) : (r ||| BitVec.ofNat 32 digit <<< s).toNat < 2 ^ (s + 7) := by
  rw [BitVec.toNat_or, BitVec.toNat_shiftLeft, Nat.shiftLeft_eq]
  refine Nat.or_lt_two_pow (Nat.lt_of_lt_of_le low ?_) (Nat.lt_of_le_of_lt (Nat.mod_le _ _) ?_)
  · exact Nat.pow_le_pow_right (by decide) (by omega)
  rw [Nat.pow_add, Nat.mul_comm]
  refine Nat.mul_lt_mul_of_pos_left (Nat.lt_of_le_of_lt ?_ small) (Nat.two_pow_pos s)
  rw [BitVec.toNat_ofNat]
  exact Nat.mod_le _ _

lemma ofInt_shiftLeft (z : Int) (s : Nat) :
    BitVec.ofInt 32 z <<< s = BitVec.ofInt 32 (z * 2 ^ s) := by
  rw [BitVec.shiftLeft_eq_mul_twoPow, BitVec.ofInt_mul]
  have power : (2 : Int) ^ s = ((2 ^ s : Nat) : Int) := by push_cast; rfl
  rw [power, BitVec.ofInt_natCast]
  congr 1
  exact BitVec.eq_of_toNat_eq (by rw [BitVec.toNat_twoPow, BitVec.toNat_ofNat])

lemma slebFrom_encoded {width : Nat} {value : Int}
    (encoded : Leb128.Signed width bytes value) (n : Nat) (rest : List UInt8)
    (total : s + width = 32) (low : r.toNat < 2 ^ s) :
    slebFrom (bytes ++ rest) r s n = (r + BitVec.ofInt 32 (value * 2 ^ s), n + bytes.length) := by
  induction encoded generalizing r s n with
  | @positive width byte short fits =>
    have small : byte.toNat < 128 := by omega
    have plain : ¬ (s + 7 < 32 ∧ 64 ≤ byte.toNat) := by omega
    simp only [singleton_append, slebFrom, small, if_true, plain, if_false,
      Nat.mod_eq_of_lt small, or_shiftLeft low, length_singleton]
    rw [← BitVec.ofInt_natCast, ofInt_shiftLeft]
  | @negative width byte large small fits =>
    simp only [singleton_append, slebFrom, small, if_true, large, and_true,
      Nat.mod_eq_of_lt small, length_singleton]
    have below := toNat_or_shiftLeft low small
    split
    · have ones : BitVec.allOnes 32 = BitVec.ofInt 32 (-1) := by decide
      rw [or_shiftLeft below, or_shiftLeft low, ← BitVec.ofInt_natCast, ofInt_shiftLeft, ones,
        ofInt_shiftLeft, BitVec.add_assoc, ← BitVec.ofInt_add]
      have sum : (byte.toNat : Int) * 2 ^ s + -1 * 2 ^ (s + 7) = (byte.toNat - 128) * 2 ^ s := by
        ring
      rw [sum]
    have wraps : BitVec.ofInt 32 (-128 * 2 ^ s) = 0#32 := by
      obtain ⟨more, rfl⟩ : ∃ more, s = 25 + more := ⟨s - 25, by omega⟩
      have multiple : (-128 : Int) * 2 ^ (25 + more) = (-2 ^ more) * 2 ^ 32 := by ring
      rw [multiple, BitVec.ofInt_mul]
      simp
    have sum : ((byte.toNat : Int) - 128) * 2 ^ s = byte.toNat * 2 ^ s + -128 * 2 ^ s := by
      ring
    rw [or_shiftLeft low, ← BitVec.ofInt_natCast, ofInt_shiftLeft, sum, BitVec.ofInt_add, wraps,
      BitVec.add_zero]
  | @more width value byte rest' large wide _ ih =>
    have small := byte.toNat_lt
    have digit : byte.toNat % 128 = byte.toNat - 128 := by omega
    have goesOn : ¬ byte.toNat < 128 := by omega
    have room : ¬ s + 7 ≥ 35 := by omega
    have below : (r ||| BitVec.ofNat 32 (byte.toNat - 128) <<< s).toNat < 2 ^ (s + 7) :=
      toNat_or_shiftLeft low (by omega)
    simp only [cons_append, slebFrom, goesOn, if_false, room, digit]
    rw [ih (n + 1) (by omega) below, or_shiftLeft low, length_cons]
    refine Prod.ext ?_ (by simp only; omega)
    have digits : ((byte.toNat - 128 : Nat) : Int) = byte.toNat - 128 := by omega
    simp only
    rw [← BitVec.ofInt_natCast, ofInt_shiftLeft, BitVec.add_assoc, ← BitVec.ofInt_add, digits]
    have sum : ((byte.toNat : Int) - 128) * 2 ^ s + value * 2 ^ (s + 7) =
        (2 ^ 7 * value + (byte.toNat - 128)) * 2 ^ s := by
      ring
    rw [sum]

lemma slebRaw_encoded {value : Int} (encoded : Leb128.Signed 32 bytes value) (rest : List UInt8) :
    slebRaw (bytes ++ rest) = (BitVec.ofInt 32 value, bytes.length) := by
  rw [slebRaw, slebFrom_encoded encoded 0 rest rfl (by decide)]
  simp

/-! Skipping. More fuel than bytes makes no difference. -/

lemma skipFrom_fuel {fuel more : Nat} (enough : rest.length ≤ fuel)
    (also : rest.length ≤ more) (depth : Nat) :
    skipFrom fuel rest depth = skipFrom more rest depth := by
  induction fuel generalizing more rest depth with
  | zero =>
    obtain rfl : rest = [] := length_eq_zero_iff.1 (Nat.le_zero.1 enough)
    cases more <;> rfl
  | succ fuel ih =>
    cases rest with
    | nil => cases more <;> rfl
    | cons byte rest =>
      cases more with
      | zero => cases also
      | succ more =>
        rw [length_cons] at enough also
        have whole : ∀ depth, skipFrom fuel rest depth = skipFrom more rest depth :=
          fun depth => ih (by omega) (by omega) depth
        have dropped : ∀ count depth,
            skipFrom fuel (rest.drop count) depth = skipFrom more (rest.drop count) depth :=
          fun count depth => ih (by rw [length_drop]; omega)
            (by rw [length_drop]; omega) depth
        simp only [skipFrom, whole, dropped]

def skip (rest : List UInt8) (depth : Nat) : List UInt8 := skipFrom rest.length rest depth

lemma skipFrom_eq_skip {fuel : Nat} (enough : rest.length ≤ fuel) (depth : Nat) :
    skipFrom fuel rest depth = skip rest depth :=
  skipFrom_fuel enough (Nat.le_refl _) depth

lemma skip_cons (byte : UInt8) (rest : List UInt8) (depth : Nat) :
    skip (byte :: rest) depth = match opcode byte with
      | .block | .loop | .ifOp => skip (rest.drop 1) (depth + 1)
      | .elseOp => if depth = 0 then rest else skip rest depth
      | .endOp => if depth = 0 then rest else skip rest (depth - 1)
      | .call | .br | .brIf | .localGet | .localSet | .localTee =>
        skip (rest.drop (ulebRaw rest).2) depth
      | .i32Const => skip (rest.drop (slebRaw rest).2) depth
      | _ => skip rest depth := by
  have dropped : ∀ count depth,
      skipFrom rest.length (rest.drop count) depth = skip (rest.drop count) depth :=
    fun count depth => skipFrom_eq_skip (by rw [length_drop]; omega) depth
  have whole : ∀ depth, skipFrom rest.length rest depth = skip rest depth := fun _ => rfl
  rw [skip, length_cons, skipFrom]
  cases opcode byte <;> simp only [dropped, whole]

lemma opcode_block : opcode 0x02 = .block := by decide
lemma opcode_loop : opcode 0x03 = .loop := by decide
lemma opcode_if : opcode 0x04 = .ifOp := by decide
lemma opcode_else : opcode 0x05 = .elseOp := by decide
lemma opcode_end : opcode 0x0b = .endOp := by decide
lemma opcode_const : opcode 0x41 = .i32Const := by decide

def ofIndexed : Wasm.Indexed → Opcode
  | .br => .br
  | .brIf => .brIf
  | .call => .call
  | .localGet => .localGet
  | .localSet => .localSet
  | .localTee => .localTee

lemma opcode_indexed (instr : Wasm.Indexed) : opcode instr.opcode = ofIndexed instr := by
  cases instr <;> decide

def ofBinop : Wasm.Binop → Opcode
  | .eq => .binary .eq
  | .ne => .binary .ne
  | .ltS => .binary .ltS
  | .gtS => .binary .gtS
  | .leS => .binary .leS
  | .geS => .binary .geS
  | .add => .binary .add
  | .sub => .binary .sub
  | .mul => .binary .mul
  | .divS => .divS
  | .and => .binary .and
  | .or => .binary .or
  | .xor => .binary .xor
  | .shl => .binary .shl
  | .shrS => .binary .shrU
  | .shrU => .binary .shrS

def ofBare : Wasm.Bare → Opcode
  | .unreachable => .unreachable
  | .nop => .nop
  | .drop => .drop
  | .select => .select
  | .ret => .returnOp
  | .eqz => .eqz
  | .binary op => ofBinop op

lemma opcode_bare (instr : Wasm.Bare) : opcode instr.opcode = ofBare instr := by
  cases instr with
  | binary op => cases op <;> decide
  | _ => decide

lemma skip_bare (instr : Wasm.Bare) (rest : List UInt8) (depth : Nat) :
    skip (instr.opcode :: rest) depth = skip rest depth := by
  rw [skip_cons, opcode_bare]
  cases instr with
  | binary op => cases op <;> rfl
  | _ => rfl

variable {code : Wasm.Code}

lemma skip_code (encoded : code.Encodes bytes)
    (rest : List UInt8) (depth : Nat) : skip (bytes ++ rest) depth = skip rest depth := by
  induction encoded generalizing rest depth with
  | done => rfl
  | basic first _ ih =>
    rw [append_assoc]
    cases first with
    | bare => rw [singleton_append, skip_bare, ih]
    | @indexed instr index bytes leb =>
      rw [cons_append, skip_cons, opcode_indexed, ulebRaw_encoded leb]
      cases instr <;> simp only [ofIndexed, drop_left, ih]
    | const leb =>
      rw [cons_append, skip_cons, opcode_const, slebRaw_encoded leb]
      simp only [drop_left, ih]
  | block _ _ bodyIh nextIh | loop _ _ bodyIh nextIh | ifThen _ _ bodyIh nextIh =>
    simp [skip_cons, opcode_block, opcode_loop, opcode_if, bodyIh, opcode_end, nextIh]
  | ifElse _ _ _ yesIh noIh nextIh =>
    simp [skip_cons, opcode_if, yesIh, opcode_else, noIh, opcode_end, nextIh]

lemma skipElseOrEnd_end (encoded : code.Encodes bytes)
    (rest : List UInt8) : skipElseOrEnd (bytes ++ 0x0b :: rest) = rest := by
  change skip _ 0 = rest
  rw [skip_code encoded, skip_cons, opcode_end]
  rfl

lemma skipElseOrEnd_else (encoded : code.Encodes bytes)
    (rest : List UInt8) : skipElseOrEnd (bytes ++ 0x05 :: rest) = rest := by
  change skip _ 0 = rest
  rw [skip_code encoded, skip_cons, opcode_else]
  rfl

end OsCortex.WasmSandbox
