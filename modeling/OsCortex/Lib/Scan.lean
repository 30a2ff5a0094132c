import Mathlib

/-!
Tables scanned from the front: the first entry that hits is changed in place and the scan
ends there, or the best one so far is kept.
-/

namespace Scan

open List Option

variable {α : Type}

/-- The entry that was hit, as it was, and the table after the change. -/
def updateFirst (hit : α → Bool) (change : α → α) : List α → Option (α × List α)
  | [] => none
  | entry :: rest =>
    if hit entry then some (entry, change entry :: rest)
    else (updateFirst hit change rest).map fun result => (result.1, entry :: result.2)

variable {hit : α → Bool} {change : α → α} {table changed : List α} {found : α}

lemma updateFirst_none (missed : updateFirst hit change table = none) :
    ∀ entry ∈ table, hit entry = false := by
  induction table with
  | nil => simp
  | cons first rest ih =>
    simp only [updateFirst] at missed
    split at missed
    · cases missed
    rename_i skipped
    intro entry member
    rcases mem_cons.mp member with rfl | later
    · exact Bool.eq_false_iff.mpr skipped
    · exact ih (map_eq_none_iff.mp missed) entry later

section

variable (updated : updateFirst hit change table = some (found, changed)) {wanted : α → Bool}
include updated

lemma updateFirst_some : hit found ∧ ∃ before after, table = before ++ found :: after ∧
      changed = before ++ change found :: after ∧ ∀ entry ∈ before, hit entry = false := by
  induction table generalizing changed with
  | nil => cases updated
  | cons first rest ih =>
    simp only [updateFirst] at updated
    split at updated
    · rename_i hits
      cases updated
      exact ⟨hits, [], rest, rfl, rfl, by simp⟩
    rename_i skipped
    obtain ⟨_, later, same⟩ := map_eq_some_iff.mp updated
    cases same
    obtain ⟨hits, before, after, split, joined, missed⟩ := ih later
    refine ⟨hits, first :: before, after, by rw [split]; rfl, by rw [joined]; rfl, ?_⟩
    intro entry member
    rcases mem_cons.mp member with rfl | earlier
    · exact Bool.eq_false_iff.mpr skipped
    · exact missed entry earlier

lemma mem_of_updateFirst
    {entry : α} (member : entry ∈ changed) : entry = change found ∨ entry ∈ table := by
  obtain ⟨_, _, _, rfl, rfl, _⟩ := updateFirst_some updated
  rcases mem_append.mp member with earlier | rest
  · exact .inr (mem_append_left _ earlier)
  rcases mem_cons.mp rest with rfl | later
  · exact .inl rfl
  · exact .inr (mem_append_right _ (mem_cons_of_mem _ later))

lemma found_mem : found ∈ table := by
  obtain ⟨_, _, _, rfl, _, _⟩ := updateFirst_some updated
  simp

lemma find?_hit : table.find? hit = some found := by
  obtain ⟨hits, before, _, rfl, _, missed⟩ := updateFirst_some updated
  have none : before.find? hit = none := by
    refine find?_eq_none.mpr fun entry member => ?_
    rw [missed entry member]
    exact Bool.false_ne_true
  rw [find?_append, none, none_or, find?_cons_of_pos hits]

lemma find?_updateFirst_other (old : wanted found = false) (new : wanted (change found) = false) :
    changed.find? wanted = table.find? wanted := by
  obtain ⟨_, _, _, rfl, rfl, _⟩ := updateFirst_some updated
  rw [find?_append, find?_append, find?_cons_of_neg (by simp [new]),
    find?_cons_of_neg (by simp [old])]

lemma find?_updateFirst_same (new : wanted (change found))
    (skips : ∀ entry, hit entry = false → entry ∈ table → wanted entry = false) :
    changed.find? wanted = some (change found) := by
  obtain ⟨_, before, _, rfl, rfl, missed⟩ := updateFirst_some updated
  have none : before.find? wanted = none := by
    refine find?_eq_none.mpr fun entry member => ?_
    rw [skips entry (missed entry member) (mem_append_left _ member)]
    exact Bool.false_ne_true
  rw [find?_append, none, none_or, find?_cons_of_pos new]

lemma countP_updateFirst (counted : α → Bool) :
    changed.countP counted + (counted found).toNat =
      table.countP counted + (counted (change found)).toNat := by
  obtain ⟨_, _, _, rfl, rfl, _⟩ := updateFirst_some updated
  simp only [countP_append, countP_cons]
  cases counted found <;> cases counted (change found) <;> simp <;> omega

end

structure Replaced (table changed : List α) (old new : α) (rest : List α) : Prop where
  before : table.Perm (old :: rest)
  after : changed.Perm (new :: rest)

lemma updateFirst_replaced (updated : updateFirst hit change table = some (found, changed)) :
    ∃ rest, Replaced table changed found (change found) rest := by
  obtain ⟨_, front, back, rfl, rfl, _⟩ := updateFirst_some updated
  exact ⟨front ++ back, perm_middle, perm_middle⟩

lemma set_replaced {index : Nat} {old : α} (new : α) (here : table[index]? = some old) :
    ∃ rest, Replaced table (table.set index new) old new rest := by
  obtain ⟨inside, rfl⟩ := List.getElem?_eq_some_iff.mp here
  refine ⟨table.take index ++ table.drop (index + 1), ?_, ?_⟩
  · refine Perm.trans (Perm.of_eq ?_) perm_middle
    rw [getElem_cons_drop, take_append_drop]
  · rw [set_eq_take_append_cons_drop, if_pos inside]
    exact perm_middle

section Replaced

variable {old new : α} {rest : List α} (replaced : Replaced table changed old new rest) {entry : α}

include replaced

lemma Replaced.old_mem : old ∈ table := replaced.before.mem_iff.mpr mem_cons_self

lemma Replaced.new_mem : new ∈ changed := replaced.after.mem_iff.mpr mem_cons_self

lemma Replaced.mem_cases (member : entry ∈ changed) :
    entry = new ∨ entry ∈ rest := mem_cons.mp (replaced.after.mem_iff.mp member)

lemma Replaced.rest_before (member : entry ∈ rest) : entry ∈ table :=
  replaced.before.mem_iff.mpr (mem_cons_of_mem _ member)

lemma Replaced.rest_after (member : entry ∈ rest) : entry ∈ changed :=
  replaced.after.mem_iff.mpr (mem_cons_of_mem _ member)

lemma Replaced.pairwise {Related : α → α → Prop} [symmetric : Std.Symm Related]
    (pairs : table.Pairwise Related) :
    (∀ entry ∈ rest, Related old entry) ∧
      ((∀ entry ∈ rest, Related new entry) → changed.Pairwise Related) := by
  have split := pairwise_cons.mp
    ((replaced.before.pairwise_iff fun related => symmetric.symm _ _ related).mp pairs)
  refine ⟨split.1, fun related => ?_⟩
  refine (replaced.after.pairwise_iff fun related => symmetric.symm _ _ related).mpr ?_
  exact pairwise_cons.mpr ⟨related, split.2⟩

end Replaced

/-! The largest entry that hits, the first of equals, and the first hit of a sorted table. -/

section Best

variable {κ : Type} [LinearOrder κ] (key : α → κ) (hit : α → Bool)

def keepBest (best : κ × Option α) (entry : α) : κ × Option α :=
  if hit entry = true ∧ best.1 < key entry then (key entry, some entry) else best

lemma foldl_keepBest (table : List α) (best : κ × Option α) :
    let result := table.foldl (keepBest key hit) best
    (result = best ∧ ∀ entry ∈ table, hit entry → key entry ≤ best.1) ∨
    ∃ before entry after, table = before ++ entry :: after ∧ result = (key entry, some entry) ∧
      hit entry ∧ best.1 < key entry ∧
      (∀ other ∈ before, hit other → key other < key entry) ∧
      ∀ other ∈ after, hit other → key other ≤ key entry := by
  induction table generalizing best with
  | nil => exact .inl ⟨rfl, by simp⟩
  | cons first rest ih =>
    dsimp only
    rw [foldl_cons]
    by_cases taken : hit first ∧ best.1 < key first
    · have step : keepBest key hit best first = (key first, some first) := if_pos taken
      rw [step]
      rcases ih (key first, some first) with ⟨same, below⟩ |
        ⟨before, entry, after, split, same, found, above, front, back⟩
      · exact .inr ⟨[], first, rest, rfl, same, taken.1, taken.2, by simp, below⟩
      refine .inr ⟨first :: before, entry, after, by rw [split]; rfl, same, found,
        lt_trans taken.2 above, ?_, back⟩
      intro other member also
      rcases mem_cons.1 member with rfl | later
      · exact above
      · exact front other later also
    have step : keepBest key hit best first = best := if_neg taken
    have low : hit first → key first ≤ best.1 := fun also =>
      not_lt.1 fun above => taken ⟨also, above⟩
    rw [step]
    rcases ih best with ⟨same, below⟩ |
      ⟨before, entry, after, split, same, found, above, front, back⟩
    · refine .inl ⟨same, fun other member also => ?_⟩
      rcases mem_cons.1 member with rfl | later
      · exact low also
      · exact below other later also
    refine .inr ⟨first :: before, entry, after, by rw [split]; rfl, same, found, above, ?_,
      back⟩
    intro other member also
    rcases mem_cons.1 member with rfl | later
    · exact lt_of_le_of_lt (low also) above
    · exact front other later also

lemma find?_first {Before : α → α → Prop} {hit : α → Bool} {table : List α} {found other : α}
    (sorted : table.Pairwise Before) (first : table.find? hit = some found) (member : other ∈ table)
    (also : hit other) : other = found ∨ Before found other := by
  obtain ⟨_, _, _, split, missed⟩ := find?_eq_some_iff_append.1 first
  subst split
  rcases mem_append.1 member with early | late
  · exact absurd also (by simpa using missed other early)
  rcases mem_cons.1 late with same | later
  · exact .inl same
  · exact .inr ((pairwise_cons.1 (pairwise_append.1 sorted).2.1).1 other later)

end Best

end Scan
