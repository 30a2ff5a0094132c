import OsCortex.Wm.EventQueueCore

/-!
What the event queue is for: a bounded list of pending events, each with its owner.
-/

namespace OsCortex.Wm

open List Option

structure EventList where
  entries : List Entry := []
  bounded : entries.length ≤ eventCap := by decide
  nextSeq : Nat := 1
  coalesced : Nat := 0
  dropped : Nat := 0

namespace EventList

def target (entry : Entry) (entries : List Entry) : Option Nat :=
  if entry.isTick then entries.findIdx? fun old => old.isTick && old.owner == entry.owner
  else if entry.isPointer && entries.getLast?.any fun last =>
      last.isPointer && last.owner == entry.owner && last.event.flags == entry.event.flags then
    some (entries.length - 1)
  else none

def merged (entry old : Entry) : Entry :=
  if entry.isTick then { old with event := { old.event with a := entry.event.a } }
  else { old with event := EventQueue.mergedPointer old.event entry.event }

def excess (list : EventList) : Nat := list.entries.length + 1 - eventCap

def dropOldest (list : EventList) : EventList :=
  { list with
    entries := list.entries.drop list.excess
    bounded := by rw [List.length_drop]; exact (Nat.sub_le ..).trans list.bounded
    dropped := list.dropped + list.excess }

def dropNewest (list : EventList) : EventList :=
  { list with
    entries := list.entries.take (eventCap - 1)
    bounded := (List.length_take_le ..).trans (Nat.sub_le ..)
    dropped := list.dropped + list.excess }

lemma entries_dropOldest (list : EventList) :
    list.dropOldest.entries = list.entries.drop list.excess := by rw [dropOldest]

lemma dropped_dropOldest (list : EventList) :
    list.dropOldest.dropped = list.dropped + list.excess := by rw [dropOldest]

@[simp] lemma nextSeq_dropOldest (list : EventList) :
    list.dropOldest.nextSeq = list.nextSeq := by rw [dropOldest]

@[simp] lemma nextSeq_dropNewest (list : EventList) :
    list.dropNewest.nextSeq = list.nextSeq := by rw [dropNewest]

lemma room_dropOldest (list : EventList) : list.dropOldest.entries.length < eventCap := by
  have cap : 0 < eventCap := by decide
  simp only [dropOldest, excess, length_drop]
  omega

lemma room_dropNewest (list : EventList) : list.dropNewest.entries.length < eventCap := by
  have cap : 0 < eventCap := by decide
  simp only [dropNewest, length_take]
  omega

def append (list : EventList) (entry : Entry) (room : list.entries.length < eventCap) : EventList :=
  { list with
    entries := list.entries ++ [entry]
    bounded := by rw [List.length_append]; exact room }

def prepend (list : EventList) (entry : Entry) (room : list.entries.length < eventCap) :
    EventList :=
  { list with
    entries := entry :: list.entries
    bounded := room }

def accept (list : EventList) (entry : Entry) : EventList :=
  match target entry list.entries with
  | some place =>
    { list with
      entries := list.entries.modify place (merged entry)
      bounded := by rw [List.length_modify]; exact list.bounded
      coalesced := list.coalesced + 1 }
  | none => list.dropOldest.append entry list.room_dropOldest

lemma accept_new {list : EventList} {entry : Entry} (new : target entry list.entries = none) :
    (list.accept entry).entries = list.entries.drop list.excess ++ [entry] ∧
      (list.accept entry).dropped = list.dropped + list.excess := by
  rw [accept, new, ← entries_dropOldest, ← dropped_dropOldest]
  exact ⟨rfl, rfl⟩

def push (list : EventList) (ev : WmEvent) (owner : Nat) : EventList :=
  { list with nextSeq := seqAfter list.nextSeq }.accept ⟨{ ev with seq := list.nextSeq }, owner⟩

def pushFront (list : EventList) (ev : WmEvent) (owner : Nat) : EventList :=
  let list' := { list with nextSeq := seqAfter list.nextSeq }
  list'.dropNewest.prepend ⟨{ ev with seq := list.nextSeq }, owner⟩ list'.room_dropNewest

lemma pushFront_spec (list : EventList) (ev : WmEvent) (owner : Nat) :
    (list.pushFront ev owner).entries =
        ⟨{ ev with seq := list.nextSeq }, owner⟩ :: list.entries.take (eventCap - 1) ∧
      (list.pushFront ev owner).dropped = list.dropped + list.excess := by
  rw [pushFront]
  exact ⟨rfl, rfl⟩

def choice (pid : Nat) (entries : List Entry) : Option Nat :=
  ((entries.findIdx? fun entry => entry.visible pid && entry.isBaton).or
    (entries.findIdx? fun entry => entry.visible pid && entry.isInput)).or
    (entries.findIdx? fun entry => entry.visible pid)

def popFor (list : EventList) (pid : Nat) : EventList × Option Entry :=
  match choice pid list.entries with
  | none => (list, none)
  | some place =>
    ({ list with
        entries := list.entries.eraseIdx place
        bounded := (List.length_eraseIdx_le ..).trans list.bounded },
      list.entries[place]?)

def call (list : EventList) : Call → EventList
  | .push ev owner => list.push ev owner
  | .pushFront ev owner => list.pushFront ev owner
  | .popFor pid => (list.popFor pid).1

def after (calls : List Call) : EventList := calls.foldl call {}

end EventList

/-- The documented order: `result` is the first baton that `pid` may see, or the first input if
there is no baton, or the first event if there is neither; the others keep their order. -/
def Served (pid : Nat) (entries : List Entry) (result : Option Entry) (left : List Entry) : Prop :=
  match result with
  | none => left = entries ∧ ∀ entry ∈ entries, entry.visible pid = false
  | some entry => entry.visible pid = true ∧ ∃ before after,
      entries = before ++ entry :: after ∧ left = before ++ after ∧
        (entry.isBaton = true ∧ (∀ old ∈ before, (old.visible pid && old.isBaton) = false) ∨
          entry.isInput = true ∧ (∀ old ∈ entries, (old.visible pid && old.isBaton) = false) ∧
            (∀ old ∈ before, (old.visible pid && old.isInput) = false) ∨
          (∀ old ∈ entries, (old.visible pid && old.isBaton) = false) ∧
            (∀ old ∈ entries, (old.visible pid && old.isInput) = false) ∧
            ∀ old ∈ before, old.visible pid = false)

variable {place : Nat}

namespace EventList

variable {list : EventList} {pid : Nat} {entries : List Entry}

lemma split_of_findIdx? {hit : Entry → Bool} (found : entries.findIdx? hit = some place) :
    ∃ before entry after, entries = before ++ entry :: after ∧ before.length = place ∧
      hit entry ∧ ∀ old ∈ before, hit old = false := by
  obtain ⟨inside, hits, earlier⟩ := findIdx?_eq_some_iff_getElem.1 found
  refine ⟨entries.take place, entries[place], entries.drop (place + 1), by simp, ?_, hits, ?_⟩
  · exact length_take_of_le inside.le
  intro old member
  obtain ⟨i, _, rfl⟩ := mem_take_iff_getElem.1 member
  exact Bool.eq_false_iff.2 (earlier i (by omega))

lemma choice_served (chosen : choice pid entries = some place) :
    ∃ entry, entries[place]? = some entry ∧
      Served pid entries (some entry) (entries.eraseIdx place) := by
  have erased : ∀ before (entry : Entry) after, entries = before ++ entry :: after →
      before.length = place →
      entries[place]? = some entry ∧ entries.eraseIdx place = before ++ after := by
    rintro before entry after rfl rfl
    simp [eraseIdx_append_of_length_le]
  rw [choice, or_eq_some_iff] at chosen
  rcases chosen with special | ⟨none, any⟩
  · rcases or_eq_some_iff.1 special with baton | ⟨noBaton, input⟩
    · obtain ⟨before, entry, after, split, length, hits, earlier⟩ := split_of_findIdx? baton
      obtain ⟨here, left⟩ := erased before entry after split length
      obtain ⟨visible, isBaton⟩ := Bool.and_eq_true_iff.1 hits
      exact ⟨entry, here, visible, before, after, split, left, .inl ⟨isBaton, earlier⟩⟩
    obtain ⟨before, entry, after, split, length, hits, earlier⟩ := split_of_findIdx? input
    obtain ⟨here, left⟩ := erased before entry after split length
    obtain ⟨visible, isInput⟩ := Bool.and_eq_true_iff.1 hits
    exact ⟨entry, here, visible, before, after, split, left,
      .inr (.inl ⟨isInput, findIdx?_eq_none_iff.1 noBaton, earlier⟩)⟩
  obtain ⟨noBaton, noInput⟩ := or_eq_none_iff.1 none
  obtain ⟨before, entry, after, split, length, visible, earlier⟩ := split_of_findIdx? any
  obtain ⟨here, left⟩ := erased before entry after split length
  exact ⟨entry, here, visible, before, after, split, left,
    .inr (.inr ⟨findIdx?_eq_none_iff.1 noBaton, findIdx?_eq_none_iff.1 noInput, earlier⟩)⟩

lemma popFor_served (list : EventList) (pid : Nat) :
    Served pid list.entries (list.popFor pid).2 (list.popFor pid).1.entries := by
  simp only [popFor]
  split
  · rename_i none
    refine ⟨rfl, fun entry member => ?_⟩
    have missed := (or_eq_none_iff.1 none).2
    exact findIdx?_eq_none_iff.1 missed entry member
  rename_i chosen
  obtain ⟨entry, here, served⟩ := choice_served chosen
  dsimp only
  rw [here]
  exact served

def HasOwner (owner : Nat) (entries : List Entry) : Prop := ∃ entry ∈ entries, entry.owner = owner

lemma owner_merged (entry old : Entry) : (merged entry old).owner = old.owner := by
  rw [merged]
  split
  · rfl
  · rfl

lemma hasOwner_modify {owner : Nat} (entry : Entry) :
    HasOwner owner (entries.modify place (merged entry)) ↔ HasOwner owner entries := by
  have same : (entries.modify place (merged entry)).map Entry.owner = entries.map Entry.owner := by
    refine ext_getElem? fun i => ?_
    simp only [getElem?_map, getElem?_modify]
    cases entries[i]? with
    | none => rfl
    | some old =>
      by_cases here : place = i
      · simp [here, owner_merged]
      · simp [here]
  have mapped : ∀ list : List Entry, HasOwner owner list ↔ owner ∈ list.map Entry.owner := by
    intro list
    simp [HasOwner]
  rw [mapped, mapped, same]

lemma hasOwner_accept (list : EventList) (entry : Entry) :
    HasOwner entry.owner (list.accept entry).entries := by
  cases found : target entry list.entries with
  | none =>
    rw [(accept_new found).1]
    exact ⟨entry, by simp, rfl⟩
  | some place =>
    simp only [accept, found]
    rw [hasOwner_modify]
    rw [target] at found
    split at found
    · obtain ⟨_, old, _, split, _, hits, _⟩ := split_of_findIdx? found
      have owned := (Bool.and_eq_true_iff.1 hits).2
      exact ⟨old, by rw [split]; simp, beq_iff_eq.1 owned⟩
    split at found
    · rename_i continues
      obtain ⟨last, isLast, same⟩ := (any_eq_true _ _).1 (Bool.and_eq_true_iff.1 continues).2
      simp only [Bool.and_eq_true, beq_iff_eq] at same
      exact ⟨last, mem_of_getLast? isLast, same.1.2⟩
    · cases found

lemma HasOwner.accept {owner : Nat} (waits : HasOwner owner list.entries)
    (room : list.entries.length < eventCap) (entry : Entry) :
    HasOwner owner (list.accept entry).entries := by
  cases found : target entry list.entries with
  | none =>
    have free : list.excess = 0 := by
      rw [excess]
      omega
    obtain ⟨old, member, owned⟩ := waits
    rw [(accept_new found).1, free, drop_zero]
    exact ⟨old, mem_append_left _ member, owned⟩
  | some place =>
    simp only [EventList.accept, found]
    exact (hasOwner_modify entry).2 waits

def total (list : EventList) : Nat := list.entries.length + list.dropped + list.coalesced

lemma total_dropOldest (list : EventList) : list.dropOldest.total = list.total := by
  have cap : 0 < eventCap := by decide
  simp only [total, dropOldest, excess, length_drop]
  omega

lemma total_dropNewest (list : EventList) : list.dropNewest.total = list.total := by
  have bound := list.bounded
  have cap : 0 < eventCap := by decide
  simp only [total, dropNewest, excess, length_take]
  omega

lemma total_accept (list : EventList) (entry : Entry) :
    (list.accept entry).total = list.total + 1 := by
  rw [accept]
  split
  · simp only [total, length_modify]
    omega
  rw [← total_dropOldest list]
  simp only [total, append, length_append, length_singleton]
  omega

lemma total_push (list : EventList) (ev : WmEvent) (owner : Nat) :
    (list.push ev owner).total = list.total + 1 := total_accept ..

lemma total_pushFront (list : EventList) (ev : WmEvent) (owner : Nat) :
    (list.pushFront ev owner).total = list.total + 1 := by
  rw [pushFront]
  have kept := total_dropNewest { list with nextSeq := seqAfter list.nextSeq }
  simp only [total, prepend, length_cons] at kept ⊢
  omega

lemma total_popFor (list : EventList) (pid : Nat) :
    (list.popFor pid).1.total + (list.popFor pid).2.toList.length = list.total := by
  rw [popFor]
  split
  · rfl
  rename_i chosen
  obtain ⟨_, here, _⟩ := choice_served chosen
  have inside := (List.getElem?_eq_some_iff.1 here).1
  simp only [total, here, length_eraseIdx_of_lt inside, toList_some, length_singleton]
  omega

end EventList

end OsCortex.Wm
