import Mathlib

/-!
Lists without consecutive duplicates: `destutter (· ≠ ·)` and elements added at the end.
-/

namespace Stutter

open List

variable {α : Type} [DecidableEq α]

abbrev squeeze (list : List α) : List α := list.destutter (· ≠ ·)

lemma destutter'_concat (list : List α) (first x : α) :
    (list ++ [x]).destutter' (· ≠ ·) first =
      if (first :: list).getLast? = some x then list.destutter' (· ≠ ·) first
      else list.destutter' (· ≠ ·) first ++ [x] := by
  induction list generalizing first with
  | nil =>
    by_cases same : first = x
    · simp [same]
    · simp [same]
  | cons next rest ih =>
    rw [cons_append, getLast?_cons_cons]
    by_cases same : first = next
    · subst same
      rw [destutter'_cons_neg _ (by simp), destutter'_cons_neg _ (by simp), ih]
    rw [destutter'_cons_pos _ same, destutter'_cons_pos _ same, ih]
    split
    · rfl
    · rfl

lemma squeeze_concat (list : List α) (x : α) :
    squeeze (list ++ [x]) =
      if list.getLast? = some x then squeeze list else squeeze list ++ [x] := by
  cases list with
  | nil => rfl
  | cons first rest => exact destutter'_concat rest first x

lemma getLast?_squeeze (list : List α) : (squeeze list).getLast? = list.getLast? := by
  induction list using reverseRecOn with
  | nil => rfl
  | append_singleton rest x ih =>
    rw [squeeze_concat]
    split
    · rename_i last
      rw [ih, last, getLast?_concat]
    · rw [getLast?_concat, getLast?_concat]

lemma squeeze_concat_congr {first second : List α} (same : squeeze first = squeeze second)
    (x : α) : squeeze (first ++ [x]) = squeeze (second ++ [x]) := by
  have last : first.getLast? = second.getLast? := by
    rw [← getLast?_squeeze first, same, getLast?_squeeze]
  rw [squeeze_concat, squeeze_concat, last, same]

lemma squeeze_concat_last {first second : List α} (same : squeeze first = squeeze second) {x : α}
    (last : first.getLast? = some x) : squeeze first = squeeze (second ++ [x]) := by
  have repeated : second.getLast? = some x := by
    rw [← getLast?_squeeze second, ← same, getLast?_squeeze, last]
  rw [squeeze_concat, if_pos repeated, same]

end Stutter
