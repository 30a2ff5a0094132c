import Mathlib

/-!
Circular buffers: the cells from `head` on, around the end of the buffer, hold a list.
-/

namespace Circular

open List Function

variable {α : Type} {cap : Nat} [NeZero cap] {cells : Fin cap → α} {head off len : Nat} {x : α}

def slot (cap : Nat) [NeZero cap] (i : Nat) : Fin cap := Fin.ofNat cap i

def contents (cells : Fin cap → α) (head len : Nat) : List α :=
  (List.range len).map fun off => cells (slot cap (head + off))

lemma slot_eq {i j : Nat} : slot cap i = slot cap j ↔ i % cap = j % cap := Fin.ext_iff

lemma slot_mod (i : Nat) : slot cap (i % cap) = slot cap i := slot_eq.2 (Nat.mod_mod ..)

lemma slot_mod_add (i j : Nat) : slot cap (i % cap + j) = slot cap (i + j) :=
  slot_eq.2 (Nat.mod_add_mod ..)

lemma slot_add_cap (i : Nat) : slot cap (i + cap) = slot cap i := slot_eq.2 (Nat.add_mod_right ..)

lemma slot_inj {a b : Nat} (first : a < cap) (second : b < cap) :
    slot cap (head + a) = slot cap (head + b) ↔ a = b := by
  refine ⟨fun same => ?_, fun same => by rw [same]⟩
  have congruent : a ≡ b [MOD cap] := Nat.ModEq.add_left_cancel' head (slot_eq.1 same)
  rwa [Nat.ModEq, Nat.mod_eq_of_lt first, Nat.mod_eq_of_lt second] at congruent

@[simp] lemma length_contents : (contents cells head len).length = len := by
  simp [contents]

lemma getElem?_contents (inside : off < len) :
    (contents cells head len)[off]? = some (cells (slot cap (head + off))) := by
  simp [contents, inside]

lemma contents_congr {other : Fin cap → α} {start : Nat}
    (same : ∀ off < len, cells (slot cap (head + off)) = other (slot cap (start + off))) :
    contents cells head len = contents other start len :=
  map_congr_left fun off inside => same off (mem_range.1 inside)

lemma contents_mod : contents cells (head % cap) len = contents cells head len :=
  contents_congr fun off _ => by rw [slot_mod_add]

lemma contents_succ :
    contents cells head (len + 1) = contents cells head len ++ [cells (slot cap (head + len))] := by
  simp [contents, range_succ]

lemma contents_cons :
    contents cells head (len + 1) = cells (slot cap head) :: contents cells (head + 1) len := by
  simp [contents, range_succ_eq_map, comp_def, Nat.add_right_comm, Nat.add_assoc]

lemma contents_append (more : Nat) :
    contents cells head (len + more) =
      contents cells head len ++ contents cells (head + len) more := by
  induction more with
  | zero => simp [contents]
  | succ more ih =>
    rw [← Nat.add_assoc, contents_succ, ih, contents_succ, append_assoc, Nat.add_assoc]

lemma contents_write_last (room : len < cap) :
    contents (update cells (slot cap (head + len)) x) head (len + 1) =
      contents cells head len ++ [x] := by
  rw [contents_succ, update_self]
  congr 1
  refine contents_congr fun off inside => update_of_ne (fun same => ?_) ..
  have := (slot_inj (by omega) room).1 same
  omega

lemma contents_write_first (room : len < cap) :
    contents (update cells (slot cap (head + cap - 1)) x) (head + cap - 1) (len + 1) =
      x :: contents cells head len := by
  have back : head + cap - 1 + 1 = head + cap := by omega
  rw [contents_cons, update_self]
  congr 1
  refine contents_congr fun off inside => ?_
  have around : slot cap (head + cap - 1 + 1 + off) = slot cap (head + off) := by
    rw [back, Nat.add_right_comm, slot_add_cap]
  rw [around]
  refine update_of_ne (fun same => ?_) ..
  have last : slot cap (head + cap - 1) = slot cap (head + (cap - 1)) := by
    rw [Nat.add_sub_assoc (by omega)]
  have := (slot_inj (by omega) (by omega)).1 (same.trans last)
  omega

lemma contents_write (inside : off < len) (fits : len ≤ cap) :
    contents (update cells (slot cap (head + off)) x) head len =
      (contents cells head len).set off x := by
  refine ext_getElem? fun i => ?_
  by_cases here : i < len
  · rw [getElem?_contents here]
    by_cases same : off = i
    · subst same
      rw [getElem?_set_self (by simpa using here), update_self]
    · rw [getElem?_set_ne same, getElem?_contents here, update_of_ne]
      exact fun equal => same ((slot_inj (by omega) (by omega)).1 equal).symm
  · rw [getElem?_eq_none (by simpa using here), getElem?_eq_none (by simpa using here)]

def shift (cells : Fin cap → α) (head : Nat) : (off count : Nat) → Fin cap → α
  | _, 0 => cells
  | off, count + 1 =>
    shift (Function.update cells (slot cap (head + off)) (cells (slot cap (head + (off + 1)))))
      head (off + 1) count

lemma eraseIdx_set_next {list : List α} (next : list[off + 1]? = some x) :
    (list.set off x).eraseIdx (off + 1) = list.eraseIdx off := by
  refine ext_getElem? fun i => ?_
  simp only [getElem?_eraseIdx, getElem?_set]
  grind

lemma contents_shift (count : Nat) (fits : off + count < cap) :
    contents (shift cells head off count) head (off + count) =
      (contents cells head (off + count + 1)).eraseIdx off := by
  induction count generalizing cells off with
  | zero =>
    rw [shift, Nat.add_zero, contents_succ, eraseIdx_append_of_length_le (by simp)]
    simp
  | succ count ih =>
    have step := @ih (update cells (slot cap (head + off))
      (cells (slot cap (head + (off + 1))))) (off + 1) (by omega)
    have length : off + 1 + count = off + (count + 1) := by omega
    rw [length, contents_write (by omega) (by omega)] at step
    rw [shift, step]
    exact eraseIdx_set_next (getElem?_contents (by omega))

lemma find?_range (hit : Nat → Bool) (len : Nat) :
    (range len).find? hit = (range len).findIdx? hit := by
  induction len with
  | zero => rfl
  | succ len ih =>
    rw [range_succ, find?_append, findIdx?_append, ih]
    cases hits : hit len with
    | false => simp [hits]
    | true => simp [hits]

lemma find?_offsets (hit : α → Bool) :
    (range len).find? (fun off => hit (cells (slot cap (head + off)))) =
      (contents cells head len).findIdx? hit := by
  rw [find?_range, contents, findIdx?_map]
  rfl

end Circular
