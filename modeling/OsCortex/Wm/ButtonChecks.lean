import OsCortex.Lib.Stutter
import OsCortex.Wm.EventQueueChecks

/-!
Merging pointer events: no transition of the buttons is lost, and the last pending event of an
owner has the newest position.
-/

namespace OsCortex.Wm

open Stutter List Option EventList Entry Bool

def Entry.pointerOf (owner : Nat) (entry : Entry) : Bool := entry.isPointer && entry.owner == owner

def pointersOf (owner : Nat) (entries : List Entry) : List Entry :=
  entries.filter (Entry.pointerOf owner)

def buttonsOf (owner : Nat) (entries : List Entry) : List Nat :=
  (pointersOf owner entries).map fun entry => entry.event.flags

structure Kept (owner : Nat) (pushed popped pending : List Entry) : Prop where
  buttons : squeeze (buttonsOf owner (popped ++ pending)) = squeeze (buttonsOf owner pushed)
  newest : ∀ last, (pointersOf owner pending).getLast? = some last →
    ∃ newest, (pointersOf owner pushed).getLast? = some newest ∧ last.event.a = newest.event.a

variable {owner : Nat} {pushed popped pending : List Entry} {entry new old : Entry}
  {change : Entry → Entry}

lemma buttonsOf_append (first second : List Entry) :
    buttonsOf owner (first ++ second) = buttonsOf owner first ++ buttonsOf owner second := by
  simp [buttonsOf, pointersOf]

lemma pointersOf_append (first second : List Entry) :
    pointersOf owner (first ++ second) = pointersOf owner first ++ pointersOf owner second :=
  filter_append ..

lemma pointersOf_singleton (entry : Entry) :
    pointersOf owner [entry] = if entry.pointerOf owner then [entry] else [] := by
  cases is : entry.pointerOf owner with
  | false | true => simp [pointersOf, is]

lemma buttonsOf_singleton (is : entry.pointerOf owner) :
    buttonsOf owner [entry] = [entry.event.flags] := by
  simp [buttonsOf, pointersOf_singleton, is]

lemma getLast?_pointersOf_concat (is : entry.pointerOf owner) :
    (pointersOf owner (pending ++ [entry])).getLast? = some entry := by
  rw [pointersOf_append, pointersOf_singleton, is, if_pos rfl, getLast?_concat]

lemma Kept.of_eq (kept : Kept owner pushed popped pending) {pushed' popped' pending' : List Entry}
    (samePushed : pointersOf owner pushed' = pointersOf owner pushed)
    (samePending : pointersOf owner pending' = pointersOf owner pending)
    (samePopped : pointersOf owner popped' = pointersOf owner popped) :
    Kept owner pushed' popped' pending' := by
  constructor
  · have before := kept.buttons
    simp only [buttonsOf, pointersOf_append] at before ⊢
    rw [samePushed, samePending, samePopped, before]
  · rw [samePending, samePushed]
    exact kept.newest

lemma Kept.append (kept : Kept owner pushed popped pending)
    (kind : entry.event.kind = new.event.kind) (sameOwner : entry.owner = new.owner)
    (flags : entry.event.flags = new.event.flags) (position : entry.event.a = new.event.a) :
    Kept owner (pushed ++ [new]) popped (pending ++ [entry]) := by
  have alike : entry.pointerOf owner = new.pointerOf owner := by
    simp [Entry.pointerOf, Entry.isPointer, kind, sameOwner]
  cases is : new.pointerOf owner with
  | false =>
    refine kept.of_eq ?_ ?_ rfl
    · simp [pointersOf_append, pointersOf_singleton, is]
    · simp [pointersOf_append, pointersOf_singleton, alike, is]
  | true =>
    constructor
    · rw [← append_assoc, buttonsOf_append _ [entry], buttonsOf_append _ [new],
        buttonsOf_singleton (alike.trans is), buttonsOf_singleton is, flags]
      exact squeeze_concat_congr kept.buttons _
    intro last newest
    rw [getLast?_pointersOf_concat (alike.trans is), some.injEq] at newest
    exact ⟨new, getLast?_pointersOf_concat is, by rw [← newest, position]⟩

lemma Kept.merge (kept : Kept owner pushed popped (pending ++ [old]))
    (pointer : old.isPointer) (newPointer : new.isPointer)
    (sameOwner : old.owner = new.owner) (flags : old.event.flags = new.event.flags)
    (kind : entry.event.kind = old.event.kind) (owned : entry.owner = old.owner)
    (buttons : entry.event.flags = old.event.flags) (position : entry.event.a = new.event.a) :
    Kept owner (pushed ++ [new]) popped (pending ++ [entry]) := by
  have alike : old.pointerOf owner = new.pointerOf owner := by
    simp [Entry.pointerOf, pointer, newPointer, sameOwner]
  have merged : entry.pointerOf owner = old.pointerOf owner := by
    simp [Entry.pointerOf, Entry.isPointer, kind, owned]
  cases is : new.pointerOf owner with
  | false =>
    refine kept.of_eq ?_ ?_ rfl
    · simp [pointersOf_append, pointersOf_singleton, is]
    · simp [pointersOf_append, pointersOf_singleton, merged, alike, is]
  | true =>
    constructor
    · have before := kept.buttons
      rw [← append_assoc, buttonsOf_append _ [old], buttonsOf_singleton (alike.trans is),
        flags] at before
      rw [← append_assoc, buttonsOf_append _ [entry], buttonsOf_append _ [new],
        buttonsOf_singleton (merged.trans (alike.trans is)), buttonsOf_singleton is, buttons,
        flags]
      exact squeeze_concat_last before (getLast?_concat ..)
    intro last newest
    rw [getLast?_pointersOf_concat (merged.trans (alike.trans is)), some.injEq] at newest
    exact ⟨new, getLast?_pointersOf_concat is, by rw [← newest, position]⟩

lemma pointersOf_modify {place : Nat} {entries : List Entry}
    (other : ∀ entry, entries[place]? = some entry →
      entry.isPointer = false ∧ (change entry).isPointer = false) :
    pointersOf owner (entries.modify place change) = pointersOf owner entries := by
  induction entries generalizing place with
  | nil => simp
  | cons first rest ih =>
    cases place with
    | zero =>
      obtain ⟨before, after⟩ := other first rfl
      simp [pointersOf, Entry.pointerOf, before, after]
    | succ place =>
      have later : pointersOf owner (rest.modify place change) = pointersOf owner rest := ih other
      simp only [pointersOf] at later
      simp [pointersOf, filter_cons, later]

lemma modify_last (rest : List Entry) (last : Entry) :
    (rest ++ [last]).modify rest.length change = rest ++ [change last] := by
  induction rest with
  | nil => rfl
  | cons first rest ih => simp [ih]

lemma Kept.accept {list : EventList} (kept : Kept owner pushed popped list.entries)
    (room : (list.accept entry).dropped = list.dropped)
    (kind : entry.event.kind = new.event.kind) (sameOwner : entry.owner = new.owner)
    (flags : entry.event.flags = new.event.flags) (position : entry.event.a = new.event.a) :
    Kept owner (pushed ++ [new]) popped (list.accept entry).entries := by
  cases target : EventList.target entry list.entries with
  | none =>
    obtain ⟨entries, _⟩ := EventList.accept_new target
    have free : list.excess = 0 := by omega
    rw [entries, free, drop_zero]
    exact kept.append kind sameOwner flags position
  | some place =>
    simp only [EventList.accept, target]
    rw [EventList.target] at target
    by_cases tick : entry.isTick
    · rw [if_pos tick] at target
      obtain ⟨_, hits, _⟩ := findIdx?_eq_some_iff_getElem.1 target
      have vsync : ∀ entry : Entry, entry.isTick → entry.isPointer = false := by
        intro entry isTick
        simp only [Entry.isTick, and_eq_true, beq_iff_eq] at isTick
        simp [Entry.isPointer, isTick.1, evVsync, evPointer]
      have notPointer : new.isPointer = false := by
        rw [← vsync entry tick, Entry.isPointer, Entry.isPointer, kind]
      refine kept.of_eq ?_ ?_ rfl
      · simp [pointersOf_append, pointersOf_singleton, Entry.pointerOf, notPointer]
      refine pointersOf_modify fun old here => ?_
      obtain ⟨_, rfl⟩ := List.getElem?_eq_some_iff.1 here
      have isVsync := vsync _ (and_eq_true_iff.1 hits).1
      exact ⟨isVsync, by rw [EventList.merged, if_pos tick]; exact isVsync⟩
    rw [if_neg tick] at target
    split at target <;> cases target
    rename_i continues
    obtain ⟨pointer, matching⟩ := and_eq_true_iff.1 continues
    obtain ⟨_, isLast, same⟩ := (any_eq_true _ _).1 matching
    obtain ⟨_, split⟩ := getLast?_eq_some_iff.1 isLast
    simp only [and_eq_true, beq_iff_eq] at same
    obtain ⟨⟨lastPointer, lastOwner⟩, lastFlags⟩ := same
    have newPointer : new.isPointer := by
      rw [← pointer, Entry.isPointer, Entry.isPointer, kind]
    rw [split] at kept ⊢
    rw [length_append, length_singleton, Nat.add_sub_cancel, modify_last,
      EventList.merged, if_neg tick]
    exact kept.merge lastPointer newPointer (lastOwner.trans sameOwner)
      (lastFlags.trans flags) rfl rfl rfl position

lemma Kept.take_first {before after : List Entry}
    (kept : Kept owner pushed popped (before ++ entry :: after))
    (none : pointersOf owner before = []) (is : entry.pointerOf owner) :
    Kept owner pushed (popped ++ [entry]) (before ++ after) := by
  have single : pointersOf owner [entry] = [entry] := by rw [pointersOf_singleton, is, if_pos rfl]
  have first : pointersOf owner (before ++ entry :: after) = entry :: pointersOf owner after := by
    rw [append_cons, pointersOf_append, pointersOf_append, none, single]
    rfl
  have rest : pointersOf owner (before ++ after) = pointersOf owner after := by
    rw [pointersOf_append, none, nil_append]
  constructor
  · have same : pointersOf owner (popped ++ [entry] ++ (before ++ after)) =
        pointersOf owner (popped ++ (before ++ entry :: after)) := by
      rw [pointersOf_append, rest, pointersOf_append, single, pointersOf_append, first,
        append_assoc, singleton_append]
    rw [buttonsOf, same]
    exact kept.buttons
  intro last newest
  rw [rest] at newest
  refine kept.newest last ?_
  rw [first, getLast?_cons, newest]
  rfl

lemma Kept.serve {pid : Nat} {result : Option Entry} {left : List Entry}
    (kept : Kept owner pushed popped pending) (served : Served pid pending result left) :
    Kept owner pushed (popped ++ result.toList) left := by
  cases result with
  | none =>
    obtain ⟨rfl, _⟩ := served
    simpa using kept
  | some entry =>
    obtain ⟨visible, before, _, rfl, rfl, order⟩ := served
    cases is : entry.pointerOf owner with
    | false =>
      have absent : pointersOf owner [entry] = [] := by simp [pointersOf_singleton, is]
      refine kept.of_eq rfl ?_ ?_
      · rw [append_cons, pointersOf_append, pointersOf_append, pointersOf_append, absent,
          append_nil]
      · rw [toList_some, pointersOf_append, absent, append_nil]
    | true =>
      obtain ⟨pointer, owned⟩ := and_eq_true_iff.1 is
      have sees : ∀ old : Entry, old.pointerOf owner → (old.visible pid && old.isInput) := by
        intro old oldIs
        obtain ⟨oldPointer, oldOwned⟩ := and_eq_true_iff.1 oldIs
        have sameOwner : old.owner = entry.owner :=
          (beq_iff_eq.1 oldOwned).trans (beq_iff_eq.1 owned).symm
        rw [Entry.visible, sameOwner, and_eq_true_iff]
        exact ⟨visible, by rw [isInput]; exact or_eq_true_iff.2 (.inl oldPointer)⟩
      have none : pointersOf owner before = [] := by
        refine filter_eq_nil_iff.2 fun old member oldIs => ?_
        rcases order with ⟨baton, _⟩ | ⟨_, _, earlier⟩ | ⟨_, noInput, _⟩
        · simp only [isBaton, and_eq_true, beq_iff_eq] at baton
          simp only [Entry.isPointer, baton.1] at pointer
          cases pointer
        · have unseen := earlier old member
          rw [sees old oldIs] at unseen
          cases unseen
        have unseen := noInput entry (by simp)
        rw [sees entry is] at unseen
        cases unseen
      exact kept.take_first none is

lemma dropped_call (list : EventList) (call : Call) :
    (list.call call).dropped = list.dropped ∨ (list.call call).dropped = list.dropped + 1 := by
  have bound := list.bounded
  have atMost : list.excess = 0 ∨ list.excess = 1 := by
    rw [excess]
    omega
  cases call with
  | push ev target =>
    obtain ⟨next, same⟩ : ∃ next : EventList,
        next = { list with nextSeq := seqAfter list.nextSeq } := ⟨_, rfl⟩
    have dropped : next.dropped = list.dropped := by rw [same]
    have excess : next.excess = list.excess := by rw [same]; rfl
    show (push list ev target).dropped = _ ∨ (push list ev target).dropped = _
    rw [push, ← same]
    cases found : EventList.target ⟨{ ev with seq := list.nextSeq }, target⟩ next.entries with
    | none =>
      rw [(EventList.accept_new found).2, dropped, excess]
      omega
    | some place =>
      rw [EventList.accept, found]
      exact .inl dropped
  | pushFront ev target =>
    have spec := (list.pushFront_spec ev target).2
    simp only [call]
    omega
  | popFor pid =>
    refine .inl ?_
    simp only [call, popFor]
    split
    · rfl
    · rfl

lemma call_kept {seen : Observed} {list : EventList} (simulates : Simulates seen list)
    (kept : Kept owner seen.pushed seen.popped list.entries) (call : Call)
    (room : (list.call call).dropped = list.dropped)
    (front : ∀ ev target, call = .pushFront ev target → ev.kind ≠ evPointer) :
    Kept owner (seen.call call).pushed (seen.call call).popped (list.call call).entries := by
  cases call with
  | push ev target => 
      exact @Kept.accept owner _ _ _ ⟨ev, target⟩ 
        { list with nextSeq := seqAfter list.nextSeq } kept room rfl rfl rfl rfl
  | pushFront ev target =>
    obtain ⟨entries, _⟩ := list.pushFront_spec ev target
    have other : ∀ entry : Entry, entry.event.kind = ev.kind → entry.pointerOf owner = false := by
      intro entry same
      simp [Entry.pointerOf, Entry.isPointer, same, front ev target rfl]
    have free : list.excess = 0 := by
      simp only [call] at room
      omega
    have whole : list.entries.take (eventCap - 1) = list.entries := by
      rw [excess] at free
      exact take_of_length_le (by omega)
    refine kept.of_eq ?_ ?_ rfl
    · simp [Observed.call, pointersOf_append, pointersOf_singleton, other]
    simp only [call]
    rw [entries, whole, pointersOf, filter_cons_of_neg (by simp [other])]
    rfl
  | popFor pid =>
    obtain ⟨_, took, _⟩ := @popFor_refines seen.queue list pid simulates.refines
    simp only [Observed.call, call, took]
    exact kept.serve (list.popFor_served pid)

lemma after_concat (calls : List Call) (call : Call) :
    Observed.after (calls ++ [call]) = (Observed.after calls).call call ∧
      EventList.after (calls ++ [call]) = (EventList.after calls).call call := by
  simp [Observed.after, EventList.after]

/-- Events in front are those of `push_vsync` and `set_vsync_baton`, never pointer events. -/
theorem button_transitions_kept (calls : List Call) (owner : Nat)
    (roomy : ∀ count ≤ calls.length, (Observed.after (calls.take count)).queue.dropped = 0)
    (fronts : ∀ ev target, .pushFront ev target ∈ calls → ev.kind ≠ evPointer) :
    Kept owner (Observed.after calls).pushed (Observed.after calls).popped
      (Observed.after calls).queue.contents := by
  have main : (EventList.after calls).dropped = 0 ∧ Kept owner (Observed.after calls).pushed
      (Observed.after calls).popped (EventList.after calls).entries := by
    induction calls using reverseRecOn with
    | nil => exact ⟨rfl, rfl, nofun⟩
    | append_singleton rest call ih =>
      obtain ⟨none, kept⟩ := ih
        (fun count inside => by
          have earlier := roomy count (by rw [length_append]; omega)
          rwa [take_append_of_le_length inside] at earlier)
        fun ev target member => fronts ev target (mem_append_left _ member)
      have whole := roomy _ le_rfl
      rw [take_length, (run_simulates _).refines.dropped] at whole
      obtain ⟨seen, list⟩ := after_concat rest call
      have dropped : (EventList.after (rest ++ [call])).dropped = 0 := by
        rw [list] at whole ⊢
        rcases dropped_call (.after rest) call with same | more
        · rw [same, none]
        · rw [more, none] at whole
          cases whole
      refine ⟨dropped, ?_⟩
      rw [list] at dropped ⊢
      rw [seen]
      refine call_kept (run_simulates rest) kept call (dropped.trans none.symm) ?_
      rintro ev target rfl
      exact fronts ev target (by simp)
  rw [(run_simulates calls).refines.entries]
  exact main.2

def sampleCalls : List Call :=
  [.push { kind := evPointer, flags := 0, a := 1 } 1,
    .push { kind := evPointer, flags := 1, a := 2 } 1,
    .push { kind := evPointer, flags := 1, a := 3 } 1, .popFor 1, .push { kind := evKey } 0]

theorem button_transitions_kept_sample :
    Kept 1 (Observed.after sampleCalls).pushed (Observed.after sampleCalls).popped
      (Observed.after sampleCalls).queue.contents ∧
      buttonsOf 1 (Observed.after sampleCalls).pushed = [0, 1, 1] := by
  refine ⟨button_transitions_kept sampleCalls 1 ?_ ?_, rfl⟩
  · decide
  · intro ev target member
    simp [sampleCalls] at member

end OsCortex.Wm
