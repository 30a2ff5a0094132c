import OsCortex.Lib.Runs

/-!
The pending checks of `cortex/healing.rs`. `check` marks the table empty before it reads it, so what
is scheduled meanwhile can take the place of a check that is still to be run.
-/

namespace OsCortex.Healing

open List Function Runs

def maxPendingChecks : Nat := 32

structure PendingCheck where
  vector : UInt8
  ts : Nat
  deriving DecidableEq

structure State where
  pending : Nat → PendingCheck := fun _ => ⟨0, 0⟩
  pendingCount : Nat := 0
  /-- `i` and `count` of the loop in `check`. -/
  loop : Option (Nat × Nat) := none
  accepted : List PendingCheck := []
  ran : List PendingCheck := []

inductive Label where
  /-- `free`: nobody has the lock. -/
  | schedule (check : PendingCheck) (free : Bool)
  | begin
  /-- `late`: the deadline is over. -/
  | next (late : Bool)

namespace State

variable {state next : State} {label : Label}

def step (state : State) : Label → Option State
  | .schedule check free =>
    if free ∧ state.pendingCount < maxPendingChecks then
      some { state with
        pending := update state.pending state.pendingCount check
        pendingCount := state.pendingCount + 1
        accepted := state.accepted ++ [check] }
    else some state
  | .begin =>
    if state.loop = none then
      some { state with loop := some (0, state.pendingCount), pendingCount := 0 }
    else none
  | .next late =>
    match state.loop with
    | none => none
    | some (i, count) =>
      if i < count ∧ late = false then
        some { state with loop := some (i + 1, count), ran := state.ran ++ [state.pending i] }
      else some { state with loop := none }

def system : Machine State Label where
  start state := state = {}
  step := step

def unread (state : State) : List Nat := state.loop.elim [] fun (i, count) => range' i (count - i)

def waiting (state : State) : List PendingCheck :=
  (state.unread ++ range state.pendingCount).map state.pending

/-- No check is written over one that is still to be read, and none is left at the deadline. -/
def InTurn (state : State) : Label → Prop
  | .schedule _ free => free → state.pendingCount ∉ state.unread
  | .begin => True
  | .next late => state.unread ≠ [] → late = false

structure Kept (state : State) : Prop where
  all : state.accepted = state.ran ++ state.waiting
  behind : ∀ slot ∈ state.unread, state.pendingCount ≤ slot

lemma Kept.step (kept : Kept state) (inTurn : InTurn state label)
    (taken : state.step label = some next) : Kept next := by
  cases label with
  | schedule check free =>
    rw [State.step] at taken
    split at taken <;> cases taken
    · rename_i accepts
      have apart := inTurn accepts.1
      have same : ∀ slot ∈ state.unread ++ range state.pendingCount,
          update state.pending state.pendingCount check slot = state.pending slot := by
        intro slot member
        refine update_of_ne ?_ _ _
        rintro rfl
        simp [apart] at member
      have written : (state.unread ++ range (state.pendingCount + 1)).map
          (update state.pending state.pendingCount check) = state.waiting ++ [check] := by
        rw [range_succ, ← append_assoc, map_append, map_congr_left same, map_singleton,
          update_self]
        rfl
      constructor
      · show state.accepted ++ [check] = state.ran ++ map _ (state.unread ++ _)
        rw [written, kept.all, append_assoc]
      · intro slot member
        have behind := kept.behind slot member
        exact lt_of_le_of_ne behind fun here => apart (here ▸ member)
    · exact kept
  | begin =>
    obtain ⟨idle, rfl⟩ := of_guard taken
    have nothing : state.unread = [] := by rw [unread, idle]; rfl
    refine ⟨?_, fun _ _ => Nat.zero_le _⟩
    rw [kept.all, waiting, waiting, nothing]
    simp [unread, range_eq_range']
  | next late =>
    rw [State.step] at taken
    cases stage : state.loop with
    | none => simp [stage] at taken
    | some place =>
      obtain ⟨i, count⟩ := place
      have unread : state.unread = range' i (count - i) := by rw [State.unread, stage]; rfl
      simp only [stage] at taken
      split at taken <;> cases taken
      · rename_i goesOn
        have first : state.unread = i :: range' (i + 1) (count - (i + 1)) := by
          rw [unread, show count - i = count - (i + 1) + 1 by omega, range'_succ]
        refine ⟨?_, fun slot member => kept.behind slot (first ▸ mem_cons_of_mem _ member)⟩
        rw [kept.all, waiting, first]
        simp [waiting, State.unread]
      · rename_i stops
        have nothing : state.unread = [] := by
          by_contra some
          have onTime := inTurn some
          rw [unread] at some
          simp [onTime] at stops
          simp [stops] at some
        refine ⟨?_, fun _ => nofun⟩
        rw [kept.all, waiting, nothing]
        rfl

end State

end OsCortex.Healing
