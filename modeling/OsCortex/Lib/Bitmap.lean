import Mathlib

/-!
Bitmaps stored in fixed-width words: element `i` is bit `i % w` of word `i / w`.
-/

namespace Bitmap

open List Nat BitVec Bool

variable {w : Nat}

abbrev Words (w : Nat) := Nat → BitVec w

variable (words : Words w)

def test (i : Nat) : Bool := (words (i / w) &&& 1#w <<< (i % w)) != 0#w

def setBit (word bit : Nat) : Words w :=
  fun k => if k = word then words k ||| 1#w <<< bit else words k

def clearBit (word bit : Nat) : Words w :=
  fun k => if k = word then words k &&& ~~~(1#w <<< bit) else words k

def insert (i : Nat) : Words w := setBit words (i / w) (i % w)

def remove (i : Nat) : Words w := clearBit words (i / w) (i % w)

def trailingZeros (word : BitVec w) : Nat :=
  ((List.range w).find? fun bit => word.getLsbD bit).getD w

lemma getLsbD_one_shiftLeft {bit i : Nat} (bound : bit < w) :
    (1#w <<< bit).getLsbD i = decide (i = bit) := by
  rw [getLsbD_shiftLeft, getLsbD_one]
  by_cases same : i = bit
  · subst i
    simp [bound]
    omega
  simp only [same, decide_false, and_eq_false_iff, decide_eq_false_iff_not,
    Bool.not_eq_eq_eq_not, Bool.not_false, decide_eq_true_eq]
  omega

lemma and_one_shiftLeft_ne_zero {word : BitVec w} {bit : Nat} (bound : bit < w) :
    (word &&& 1#w <<< bit != 0#w) = word.getLsbD bit := by
  rw [Bool.eq_iff_iff, bne_iff_ne]
  constructor
  · intro nonzero
    by_contra clear
    refine nonzero (BitVec.eq_of_getLsbD_eq fun i _ => ?_)
    rw [BitVec.getLsbD_and, getLsbD_one_shiftLeft bound, getLsbD_zero]
    by_cases same : i = bit
    · subst i
      simpa using clear
    · simp [same]
  intro found zero
  have bitZero := congrArg (fun word => word.getLsbD bit) zero
  simp only [BitVec.getLsbD_and, getLsbD_one_shiftLeft bound, decide_true, Bool.and_true,
    getLsbD_zero] at bitZero
  simp [found] at bitZero

lemma eq_of_div_mod {i j : Nat} (quotient : i / w = j / w) (rest : i % w = j % w) : i = j := by
  rw [← div_add_mod i w, ← div_add_mod j w, quotient, rest]

lemma trailingZeros_spec {word : BitVec w} (nonzero : word ≠ 0#w) :
    trailingZeros word < w ∧ word.getLsbD (trailingZeros word) := by
  cases found : (range w).find? fun bit => word.getLsbD bit with
  | none =>
    rw [find?_eq_none] at found
    refine absurd (BitVec.eq_of_getLsbD_eq fun i bound => ?_) nonzero
    simpa using found i (mem_range.mpr bound)
  | some bit =>
    obtain ⟨isSet, member, _⟩ := find?_range_eq_some.mp found
    simp only [trailingZeros, found, Option.getD_some]
    exact ⟨mem_range.mp member, isSet⟩

lemma clearBit_eq_remove {word bit : Nat} (words : Words w) (bound : bit < w) :
    clearBit words word bit = remove words (word * w + bit) := by
  have quotient : (word * w + bit) / w = word := by
    rw [mul_comm, mul_add_div (by omega), div_eq_of_lt bound, add_zero]
  have rest : (word * w + bit) % w = bit := by
    rw [mul_comm, mul_add_mod, mod_eq_of_lt bound]
  rw [remove, quotient, rest]

def members (count : Nat) : Finset Nat := (Finset.range count).filter fun i => test words i

@[simp]
lemma mem_members {words : Words w} {count i : Nat} :
    i ∈ members words count ↔ i < count ∧ test words i := by
  simp [members]

section

variable (positive : 0 < w)
include positive

lemma test_eq_getLsbD (words : Words w) (i : Nat) :
    test words i = (words (i / w)).getLsbD (i % w) :=
  and_one_shiftLeft_ne_zero (Nat.mod_lt i positive)

lemma test_insert (words : Words w) (i j : Nat) :
    test (insert words i) j = (decide (j = i) || test words j) := by
  rw [test_eq_getLsbD positive, test_eq_getLsbD positive]
  simp only [insert, setBit]
  split
  · rename_i sameWord
    rw [BitVec.getLsbD_or, getLsbD_one_shiftLeft (Nat.mod_lt i positive), Bool.or_comm]
    congr 1
    exact decide_eq_decide.mpr ⟨fun rest => eq_of_div_mod sameWord rest, fun same => by rw [same]⟩
  rename_i otherWord
  have different : j ≠ i := fun same => otherWord (by rw [same])
  simp [different]

lemma test_remove (words : Words w) (i j : Nat) :
    test (remove words i) j = (decide (j ≠ i) && test words j) := by
  rw [test_eq_getLsbD positive, test_eq_getLsbD positive]
  simp only [remove, clearBit]
  split
  · rename_i sameWord
    rw [BitVec.getLsbD_and, getLsbD_not,
      getLsbD_one_shiftLeft (Nat.mod_lt i positive), Bool.and_comm]
    congr 1
    have sameIff : j % w = i % w ↔ j = i :=
      ⟨fun rest => eq_of_div_mod sameWord rest, fun same => by rw [same]⟩
    simp [Nat.mod_lt j positive, sameIff]
  rename_i otherWord
  have different : j ≠ i := fun same => otherWord (by rw [same])
  simp [different]

lemma test_mul_add (words : Words w) {word bit : Nat} (bound : bit < w) :
    test words (word * w + bit) = (words word).getLsbD bit := by
  rw [test_eq_getLsbD positive]
  rw [mul_comm, mul_add_div positive, div_eq_of_lt bound, add_zero,
    mul_add_mod, mod_eq_of_lt bound]

lemma members_insert (words : Words w) {count i : Nat} (bound : i < count) :
    members (insert words i) count = Insert.insert i (members words count) := by
  ext j
  simp only [mem_members, test_insert positive, Finset.mem_insert, or_eq_true,
    decide_eq_true_eq]
  constructor
  · rintro ⟨below, same | present⟩
    · exact .inl same
    · exact .inr ⟨below, present⟩
  rintro (same | ⟨below, present⟩)
  · exact ⟨same ▸ bound, .inl same⟩
  · exact ⟨below, .inr present⟩

lemma members_remove (words : Words w) (count i : Nat) :
    members (remove words i) count = (members words count).erase i := by
  ext j
  simp only [mem_members, test_remove positive, Finset.mem_erase, and_eq_true,
    decide_eq_true_eq]
  exact and_left_comm

lemma members_removeAll (elements : List Nat) (words : Words w) (count : Nat) :
    members (elements.foldl remove words) count = members words count \ elements.toFinset := by
  induction elements generalizing words with
  | nil => simp
  | cons first rest ih =>
    rw [foldl_cons, ih, members_remove positive, toFinset_cons,
      Finset.sdiff_insert, Finset.erase_sdiff_comm]

end

end Bitmap
