import Mathlib

/-! LEB128 numbers of a given width, as in the WebAssembly binary format. -/

namespace Leb128

inductive Unsigned : Nat → List UInt8 → Nat → Prop
  | last {width : Nat} {byte : UInt8} : byte.toNat < 128 → byte.toNat < 2 ^ width →
      Unsigned width [byte] byte.toNat
  | more {width value : Nat} {byte : UInt8} {rest : List UInt8} : 128 ≤ byte.toNat → 7 < width →
      Unsigned (width - 7) rest value →
      Unsigned width (byte :: rest) (2 ^ 7 * value + (byte.toNat - 128))

inductive Signed : Nat → List UInt8 → Int → Prop
  | positive {width : Nat} {byte : UInt8} : byte.toNat < 64 → byte.toNat < 2 ^ (width - 1) →
      Signed width [byte] byte.toNat
  | negative {width : Nat} {byte : UInt8} : 64 ≤ byte.toNat → byte.toNat < 128 →
      128 ≤ byte.toNat + 2 ^ (width - 1) → Signed width [byte] (byte.toNat - 128)
  | more {width : Nat} {value : Int} {byte : UInt8} {rest : List UInt8} : 128 ≤ byte.toNat →
      7 < width → Signed (width - 7) rest value →
      Signed width (byte :: rest) (2 ^ 7 * value + (byte.toNat - 128))

lemma Unsigned.lt {width value : Nat} {bytes : List UInt8} (encoded : Unsigned width bytes value) :
    value < 2 ^ width := by
  induction encoded with
  | last _ fits => exact fits
  | @more width value byte rest large wide _ ih =>
    have small := byte.toNat_lt
    have split : 2 ^ width = 2 ^ 7 * 2 ^ (width - 7) := by
      rw [← Nat.pow_add, Nat.add_sub_cancel' (Nat.le_of_lt wide)]
    omega

lemma or_shift {r s : Nat} (low : r < 2 ^ s) (x : Nat) : r ||| x <<< s = r + x * 2 ^ s := by
  rw [Nat.or_comm, ← Nat.shiftLeft_add_eq_or_of_lt low, Nat.shiftLeft_eq, Nat.add_comm]

end Leb128
