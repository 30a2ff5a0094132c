import Mathlib

/-!
Maps kept as lists of entries, read with `List.lookup`: the first entry of a key counts.
-/

namespace Entries

open List

variable {Key Value : Type} [DecidableEq Key]

def modify (entries : List (Key × Value)) (key : Key) (change : Value → Value) :
    List (Key × Value) :=
  entries.map fun entry => if entry.1 = key then (key, change entry.2) else entry

def insert (entries : List (Key × Value)) (key : Key) (value : Value) : List (Key × Value) :=
  if (entries.lookup key).isSome then modify entries key fun _ => value
  else entries ++ [(key, value)]

def insertOrdered (before : Key → Key → Bool) :
    List (Key × Value) → Key → Value → List (Key × Value)
  | [], key, value => [(key, value)]
  | (other, old) :: rest, key, value =>
    if key = other then (key, value) :: rest
    else if before key other then (key, value) :: (other, old) :: rest
    else (other, old) :: insertOrdered before rest key value

def erase (entries : List (Key × Value)) (key : Key) : List (Key × Value) :=
  entries.filter fun entry => entry.1 ≠ key

def keysWhere (entries : List (Key × Value)) (test : Value → Bool) : List Key :=
  (entries.filter fun entry => test entry.2).map Prod.fst

variable {entries : List (Key × Value)} {key other : Key} {value : Value}

lemma lookup_modify_self (change : Value → Value) :
    (modify entries key change).lookup key = (entries.lookup key).map change := by
  induction entries with
  | nil => rfl
  | cons entry rest ih =>
    obtain ⟨first, _⟩ := entry
    rw [modify, map_cons, lookup_cons, lookup_cons, ← modify, ih]
    by_cases here : first = key
    · simp [here]
    · have missed : (key == first) = false := beq_false_of_ne (Ne.symm here)
      simp [here, missed]

lemma lookup_modify_of_ne (different : other ≠ key) (change : Value → Value) :
    (modify entries key change).lookup other = entries.lookup other := by
  induction entries with
  | nil => rfl
  | cons entry rest ih =>
    obtain ⟨first, _⟩ := entry
    rw [modify, map_cons, lookup_cons, lookup_cons, ← modify, ih]
    by_cases here : first = key
    · have missed : (other == key) = false := beq_false_of_ne different
      simp [here, missed]
    · rw [if_neg here]

lemma lookup_insert_self : (insert entries key value).lookup key = some value := by
  unfold insert
  split
  · rename_i present
    obtain ⟨_, found⟩ := Option.isSome_iff_exists.1 present
    rw [lookup_modify_self, found]
    rfl
  rename_i absent
  rw [Option.not_isSome_iff_eq_none] at absent
  simp [lookup_append, absent]

lemma lookup_insert_of_ne (different : other ≠ key) :
    (insert entries key value).lookup other = entries.lookup other := by
  unfold insert
  split
  · exact lookup_modify_of_ne different _
  · have missed : (other == key) = false := beq_false_of_ne different
    simp [lookup_append, lookup_cons, missed]

lemma lookup_insertOrdered_self (before : Key → Key → Bool) :
    (insertOrdered before entries key value).lookup key = some value := by
  induction entries with
  | nil => simp [insertOrdered]
  | cons entry rest ih =>
    obtain ⟨first, _⟩ := entry
    simp only [insertOrdered]
    by_cases here : key = first
    · simp [here]
    rw [if_neg here]
    split
    · simp
    · rw [lookup_cons, beq_false_of_ne here, ih]

lemma lookup_insertOrdered_of_ne (before : Key → Key → Bool) (different : other ≠ key) :
    (insertOrdered before entries key value).lookup other = entries.lookup other := by
  induction entries with
  | nil => simp [insertOrdered, lookup_cons, beq_false_of_ne different]
  | cons entry rest ih =>
    obtain ⟨first, _⟩ := entry
    simp only [insertOrdered]
    by_cases here : key = first
    · subst here
      simp [lookup_cons, beq_false_of_ne different]
    rw [if_neg here]
    split
    · rw [lookup_cons, beq_false_of_ne different]
    · rw [lookup_cons, lookup_cons, ih]

lemma lookup_erase_self : (erase entries key).lookup key = none := by
  rw [lookup_eq_none_iff]
  intro entry member
  have kept : entry.1 ≠ key := by simpa using (mem_filter.1 member).2
  exact bne_iff_ne.2 (Ne.symm kept)

lemma lookup_erase_of_ne (different : other ≠ key) :
    (erase entries key).lookup other = entries.lookup other := by
  induction entries with
  | nil => rfl
  | cons entry rest ih =>
    obtain ⟨first, _⟩ := entry
    by_cases here : first = key
    · subst here
      rw [erase, filter_cons_of_neg (by simp), ← erase, ih, lookup_cons,
        beq_false_of_ne different]
    · rw [erase, filter_cons_of_pos (by simpa using here), ← erase, lookup_cons,
        lookup_cons, ih]

lemma lookup_map (change : Value → Value) :
    (entries.map fun entry => (entry.1, change entry.2)).lookup key =
      (entries.lookup key).map change := by
  induction entries with
  | nil => rfl
  | cons entry rest ih =>
    rw [map_cons, lookup_cons, lookup_cons, ih]
    split <;> rfl

lemma mem_of_lookup (found : entries.lookup key = some value) : (key, value) ∈ entries := by
  obtain ⟨_, _, rfl, _⟩ := lookup_eq_some_iff.1 found
  simp

lemma mem_keysWhere_of_lookup {test : Value → Bool} (found : entries.lookup key = some value)
    (passes : test value) : key ∈ keysWhere entries test :=
  mem_map.2 ⟨(key, value), mem_filter.2 ⟨mem_of_lookup found, passes⟩, rfl⟩

lemma mem_erase : (other, value) ∈ erase entries key ↔ (other, value) ∈ entries ∧ other ≠ key := by
  simp [erase]

end Entries
