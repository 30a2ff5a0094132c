import Mathlib

/-!
Little-endian numbers, slices of byte strings and a flat byte store with block reads and writes.
-/

namespace Bytes

open List

def leBytes : Nat → Nat → List UInt8
  | 0, _ => []
  | width + 1, value => UInt8.ofNat value :: leBytes width (value / 256)

def ofLe : List UInt8 → Nat
  | [] => 0
  | byte :: rest => byte.toNat + 256 * ofLe rest

@[simp] lemma length_leBytes (width value : Nat) : (leBytes width value).length = width := by
  induction width generalizing value with
  | zero => rfl
  | succ width ih => simp [leBytes, ih]

lemma ofLe_leBytes {width value : Nat} (fits : value < 256 ^ width) :
    ofLe (leBytes width value) = value := by
  induction width generalizing value with
  | zero =>
    have zero : value = 0 := by simpa using fits
    simp [leBytes, ofLe, zero]
  | succ width ih =>
    have rest : value / 256 < 256 ^ width := by
      rw [Nat.div_lt_iff_lt_mul (by decide)]
      simpa [Nat.pow_succ] using fits
    rw [leBytes, ofLe, ih rest]
    simp only [UInt8.toNat_ofNat']
    omega

lemma ofLe_lt (bytes : List UInt8) : ofLe bytes < 256 ^ bytes.length := by
  induction bytes with
  | nil => simp [ofLe]
  | cons byte rest ih =>
    have small := byte.toNat_lt
    rw [ofLe, length_cons, Nat.pow_succ]
    omega

variable {α : Type} {bytes front : List α} {offset : Nat}

def slice (bytes : List α) (offset length : Nat) : List α := (bytes.drop offset).take length

lemma length_slice {length : Nat} (inside : offset + length ≤ bytes.length) :
    (slice bytes offset length).length = length := by
  simp only [slice, length_take, length_drop]
  omega

lemma slice_append_right (back : List α) (length : Nat) (after : front.length ≤ offset) :
    slice (front ++ back) offset length = slice back (offset - front.length) length := by
  simp [slice, drop_append, drop_eq_nil_of_le after]

lemma slice_append_left {length : Nat} (back : List α) (inside : offset + length ≤ front.length) :
    slice (front ++ back) offset length = slice front offset length := by
  have room : length ≤ (front.drop offset).length := by
    simp only [length_drop]
    omega
  rw [slice, slice, drop_append_of_le_length (by omega), take_append_of_le_length room]

lemma slice_all {length : Nat} (whole : bytes.length = length) :
    slice bytes 0 length = bytes := by
  simp [slice, ← whole]

lemma slice_flatten {pieces : List (List α)} {size index : Nat}
    (sizes : ∀ piece ∈ pieces, piece.length = size) (inside : index < pieces.length) (back : List α) :
    slice (pieces.flatten ++ back) (index * size) size = pieces[index] := by
  induction pieces generalizing index with
  | nil => cases inside
  | cons first rest ih =>
    have firstSize := sizes first mem_cons_self
    cases index with
    | zero =>
      rw [flatten_cons, append_assoc, slice_append_left _ (by omega), Nat.zero_mul]
      exact slice_all firstSize
    | succ index =>
      have after : first.length ≤ (index + 1) * size := by
        rw [firstSize, Nat.succ_mul]
        omega
      rw [flatten_cons, append_assoc, slice_append_right _ _ after, firstSize,
        Nat.succ_mul, Nat.add_sub_cancel]
      exact ih (fun piece member => sizes piece (mem_cons_of_mem _ member)) (by simpa using inside)

lemma length_flatten {pieces : List (List α)} {size : Nat}
    (sizes : ∀ piece ∈ pieces, piece.length = size) :
    pieces.flatten.length = pieces.length * size := by
  induction pieces with
  | nil => simp
  | cons first rest ih =>
    rw [flatten_cons, length_append, sizes first mem_cons_self,
      ih fun piece member => sizes piece (mem_cons_of_mem _ member), length_cons,
      Nat.succ_mul, Nat.add_comm]

abbrev Store := Nat → UInt8

def Store.read (store : Store) (address length : Nat) : List UInt8 :=
  (List.range length).map fun i => store (address + i)

def Store.write (store : Store) (address : Nat) (data : List UInt8) : Store := fun place =>
  if address ≤ place then (data[place - address]?).getD (store place) else store place

variable {store : Store} {address length : Nat} {data : List UInt8}

@[simp] lemma length_read : (store.read address length).length = length := by
  simp [Store.read]

lemma slice_read {size : Nat} (inside : offset + size ≤ length) :
    slice (store.read address length) offset size = store.read (address + offset) size := by
  apply ext_getElem
  · rw [length_slice (by simpa using inside), length_read]
  · intro i _ _
    simp [slice, Store.read, Nat.add_assoc]

lemma read_congr {other : Store} (same : ∀ i < length, other (address + i) = store (address + i)) :
    other.read address length = store.read address length := by
  apply map_congr_left
  intro i member
  exact same i (mem_range.1 member)

lemma write_outside {place : Nat} (outside : place < address ∨ address + data.length ≤ place) :
    store.write address data place = store place := by
  simp only [Store.write]
  split
  · rw [getElem?_eq_none (by omega), Option.getD_none]
  · rfl

lemma read_write_inside {offset size : Nat} (inside : offset + size ≤ data.length) :
    (store.write address data).read (address + offset) size = slice data offset size := by
  apply ext_getElem
  · rw [length_slice inside, length_read]
  intro i first _
  have bound : i < size := by simpa using first
  have place : address + offset + i - address = offset + i := by omega
  simp only [Store.read, getElem_map, getElem_range, Store.write, place, slice,
    getElem_take, getElem_drop]
  rw [if_pos (by omega), getElem?_eq_getElem (by omega), Option.getD_some]

lemma read_write_self (whole : data.length = length) :
    (store.write address data).read address length = data := by
  have inside := @read_write_inside store address data 0 length (by omega)
  rw [Nat.add_zero] at inside
  rw [inside, slice_all whole]

end Bytes
