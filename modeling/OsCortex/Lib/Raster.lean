import Mathlib

/-!
Rectangles of pixels in a memory of rows, `pitch` cells each, and pictures made by drawing one
thing over the other.
-/

namespace Raster

open List

variable {α ι : Type} {mem : Nat → α}

def paintLine (line : Nat → α) (start cols : Nat) (mem : Nat → α) : Nat → α :=
  (List.range cols).foldl (fun mem col => Function.update mem (start + col) (line col)) mem

def paintRect (pitch left top cols rows : Nat) (ink : Nat → Nat → α) (mem : Nat → α) : Nat → α :=
  (List.range rows).foldl
    (fun mem row => paintLine (ink row) ((top + row) * pitch + left) cols mem) mem

lemma paintLine_get (line : Nat → α) (start cols cell : Nat) :
    paintLine line start cols mem cell =
      if start ≤ cell ∧ cell < start + cols then line (cell - start) else mem cell := by
  induction cols with
  | zero =>
    rw [if_neg (by omega)]
    rfl
  | succ cols ih =>
    rw [paintLine, range_succ, foldl_append, foldl_cons, foldl_nil]
    by_cases last : cell = start + cols
    · rw [last, Function.update_self, if_pos (by omega), Nat.add_sub_cancel_left]
    rw [Function.update_of_ne last]
    refine ih.trans ?_
    by_cases inside : start ≤ cell ∧ cell < start + cols
    · rw [if_pos inside, if_pos (by omega)]
    · rw [if_neg inside, if_neg (by omega)]

lemma paintRect_get {pitch left top cols rows x y : Nat} (ink : Nat → Nat → α)
    (fits : left + cols ≤ pitch) (column : x < pitch) :
    paintRect pitch left top cols rows ink mem (y * pitch + x) =
      if (top ≤ y ∧ y < top + rows) ∧ left ≤ x ∧ x < left + cols then ink (y - top) (x - left)
      else mem (y * pitch + x) := by
  have cell : ∀ row, (top + row) * pitch + left ≤ y * pitch + x ∧
      y * pitch + x < (top + row) * pitch + left + cols ↔
      y = top + row ∧ left ≤ x ∧ x < left + cols := by
    intro row
    constructor
    · rintro ⟨lower, upper⟩
      have same : y = top + row := by
        rcases Nat.lt_trichotomy y (top + row) with below | same | above
        · have := Nat.mul_le_mul_right pitch (show y + 1 ≤ top + row from below)
          rw [Nat.succ_mul] at this
          omega
        · exact same
        have := Nat.mul_le_mul_right pitch (show top + row + 1 ≤ y from above)
        rw [Nat.succ_mul] at this
        omega
      subst same
      omega
    · rintro ⟨rfl, lower, upper⟩
      omega
  induction rows with
  | zero =>
    rw [if_neg (by omega)]
    rfl
  | succ rows ih =>
    rw [paintRect, range_succ, foldl_append, foldl_cons, foldl_nil, paintLine_get]
    by_cases here : y = top + rows ∧ left ≤ x ∧ x < left + cols
    · rw [if_pos ((cell rows).2 here), if_pos (by omega), here.1]
      congr 1 <;> omega
    rw [if_neg (mt (cell rows).1 here)]
    refine ih.trans ?_
    by_cases inside : (top ≤ y ∧ y < top + rows) ∧ left ≤ x ∧ x < left + cols
    · rw [if_pos inside, if_pos (by omega)]
    · rw [if_neg inside, if_neg (by omega)]

lemma foldl_look {Picture : Type} {draw : Picture → ι → Picture} {look : Picture → α}
    {covers : ι → Bool} {value : ι → α}
    (drawn : ∀ picture index, look (draw picture index) =
      if covers index then value index else look picture) (order : List ι) (picture : Picture) :
    look (order.foldl draw picture) =
      ((order.reverse.find? covers).map value).getD (look picture) := by
  induction order generalizing picture with
  | nil => rfl
  | cons index rest ih =>
    rw [foldl_cons, ih, reverse_cons, find?_append]
    cases rest.reverse.find? covers with
    | some last => rfl
    | none =>
      rw [drawn]
      cases found : covers index with
      | true => simp [found]
      | false => simp [found]

end Raster
