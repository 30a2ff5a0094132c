import Mathlib

/-! Labelled transition systems with an executable step function; a label resolves every choice. -/

lemma of_guard {α : Type} {guard : Prop} [Decidable guard] {value next : α}
    (taken : (if guard then some value else none) = some next) : guard ∧ value = next := by
  rw [Option.ite_none_right_eq_some] at taken
  exact ⟨taken.1, Option.some.inj taken.2⟩

namespace Runs

structure Machine (State Label : Type) where
  start : State → Prop
  step : State → Label → Option State

variable {State Label : Type}

/-- States reached by runs whose every step meets `guard` in the state it is taken from. -/
inductive Machine.Reachable (machine : Machine State Label) (guard : State → Label → Prop) :
    State → Prop
  | start {state} : machine.start state → Reachable machine guard state
  | step {state label next} : Reachable machine guard state → guard state label →
      machine.step state label = some next → Reachable machine guard next

def anyStep (_ : State) (_ : Label) : Prop := True

variable {machine : Machine State Label} {state : State} {guard : State → Label → Prop}

lemma Machine.Reachable.invariant {Holds : State → Prop}
    (initial : ∀ state, machine.start state → Holds state)
    (preserved : ∀ state label next, Holds state → guard state label →
      machine.step state label = some next → Holds next)
    {state : State} (reached : machine.Reachable guard state) : Holds state := by
  induction reached with
  | start begun => exact initial _ begun
  | step _ allowed taken ih => exact preserved _ _ _ ih allowed taken

lemma Machine.Reachable.mono {guard weaker : State → Label → Prop}
    (implies : ∀ state label, guard state label → weaker state label)
    (reached : machine.Reachable guard state) : machine.Reachable weaker state := by
  induction reached with
  | start begun => exact .start begun
  | step _ allowed taken ih => exact .step ih (implies _ _ allowed) taken

def Machine.run (machine : Machine State Label) : State → List Label → Option State
  | state, [] => some state
  | state, label :: rest =>
    match machine.step state label with
    | some next => machine.run next rest
    | none => none

def Machine.Obeys (machine : Machine State Label) (guard : State → Label → Prop) :
    State → List Label → Prop
  | _, [] => True
  | state, label :: rest =>
    guard state label ∧ ∀ next, machine.step state label = some next →
      machine.Obeys guard next rest

instance Machine.decidableObeys (machine : Machine State Label) (guard : State → Label → Prop)
    [∀ state label, Decidable (guard state label)] :
    ∀ state labels, Decidable (machine.Obeys guard state labels)
  | _, [] => .isTrue trivial
  | state, label :: rest =>
    match taken : machine.step state label with
    | none => decidable_of_iff (guard state label)
        ⟨fun allowed => ⟨allowed, by simp [taken]⟩, And.left⟩
    | some next =>
      have := machine.decidableObeys guard next rest
      decidable_of_iff (guard state label ∧ machine.Obeys guard next rest)
        (by simp [Machine.Obeys, taken])

/-- `Holds` in every state the run of `labels` from `state` passes, the first one included. -/
def Machine.Always (machine : Machine State Label) (Holds : State → Prop) :
    State → List Label → Prop
  | state, [] => Holds state
  | state, label :: rest =>
    Holds state ∧ ∀ next, machine.step state label = some next → machine.Always Holds next rest

variable {Invariant : State → Prop}

lemma Machine.obeys_of_invariant {assumed guard : State → Label → Prop}
    (implied : ∀ state label, Invariant state → assumed state label → guard state label)
    (preserved : ∀ state label next, Invariant state → assumed state label →
      machine.step state label = some next → Invariant next)
    (labels : List Label) (invariant : Invariant state)
    (obeys : machine.Obeys assumed state labels) : machine.Obeys guard state labels := by
  induction labels generalizing state with
  | nil => trivial
  | cons label rest ih =>
    refine ⟨implied state label invariant obeys.1, fun next taken => ?_⟩
    exact ih (preserved state label next invariant obeys.1 taken) (obeys.2 next taken)

lemma Machine.obeys_iff {assumed guard required : State → Label → Prop}
    (exactly : ∀ state label, Invariant state → assumed state label →
      (required state label ↔ guard state label))
    (preserved : ∀ state label next, Invariant state → assumed state label → guard state label →
      machine.step state label = some next → Invariant next)
    (labels : List Label) (invariant : Invariant state)
    (obeys : machine.Obeys assumed state labels) :
    machine.Obeys required state labels ↔ machine.Obeys guard state labels := by
  induction labels generalizing state with
  | nil => exact Iff.rfl
  | cons label rest ih =>
    simp only [Machine.Obeys, exactly state label invariant obeys.1]
    refine and_congr_right fun allowed => forall_congr' fun next => forall_congr' fun taken => ?_
    exact ih (preserved state label next invariant obeys.1 allowed taken) (obeys.2 next taken)

/-- An invariant that the guarded steps keep, and after which the first unguarded step breaks
`Holds`, makes the guard exact. -/
lemma Machine.always_iff_obeys
    {assumed guard : State → Label → Prop} {Holds Invariant : State → Prop}
    (holds : ∀ state, Invariant state → Holds state)
    (preserved : ∀ state label next, Invariant state → assumed state label → guard state label →
      machine.step state label = some next → Invariant next)
    (broken : ∀ state label, Invariant state → assumed state label → ¬ guard state label →
      ∃ next, machine.step state label = some next ∧ ¬ Holds next)
    (labels : List Label) (invariant : Invariant state)
    (obeys : machine.Obeys assumed state labels) :
    machine.Always Holds state labels ↔ machine.Obeys guard state labels := by
  induction labels generalizing state with
  | nil => exact ⟨fun _ => trivial, fun _ => holds state invariant⟩
  | cons label rest ih =>
    by_cases allowed : guard state label
    · have later : ∀ next, machine.step state label = some next →
          (machine.Always Holds next rest ↔ machine.Obeys guard next rest) := fun next taken =>
        ih (preserved state label next invariant obeys.1 allowed taken) (obeys.2 next taken)
      constructor
      · rintro ⟨_, always⟩
        exact ⟨allowed, fun next taken => (later next taken).1 (always next taken)⟩
      · rintro ⟨_, guarded⟩
        exact ⟨holds state invariant, fun next taken => (later next taken).2 (guarded next taken)⟩
    refine ⟨fun ⟨_, always⟩ => ?_, fun ⟨here, _⟩ => absurd here allowed⟩
    obtain ⟨next, taken, fails⟩ := broken state label invariant obeys.1 allowed
    have here : Holds next := by
      have after := always next taken
      cases rest with
      | nil => exact after
      | cons _ _ => exact after.1
    exact absurd here fails

variable {labels : List Label}

lemma Machine.Obeys.reachable {state final : State} (reached : machine.Reachable guard state)
    (obeys : machine.Obeys guard state labels) (ran : machine.run state labels = some final) :
    machine.Reachable guard final := by
  induction labels generalizing state with
  | nil =>
    simp only [Machine.run, Option.some.injEq] at ran
    exact ran ▸ reached
  | cons label rest ih =>
    simp only [Machine.run] at ran
    split at ran
    · rename_i next taken
      exact ih (.step reached obeys.1 taken) (obeys.2 next taken) ran
    · cases ran

lemma Machine.obeys_append (first second : List Label) (state : State) :
    machine.Obeys guard state (first ++ second) ↔ machine.Obeys guard state first ∧
      ∀ next, machine.run state first = some next → machine.Obeys guard next second := by
  induction first generalizing state with
  | nil => simp [Machine.Obeys, Machine.run]
  | cons label rest ih =>
    simp only [List.cons_append, Machine.Obeys, Machine.run]
    cases machine.step state label with
    | none => simp
    | some middle => simp [ih, and_assoc]

lemma Machine.obeys_anyStep (machine : Machine State Label) (labels : List Label)
    (state : State) : machine.Obeys anyStep state labels := by
  induction labels generalizing state with
  | nil => trivial
  | cons label rest ih => exact ⟨trivial, fun next _ => ih next⟩

lemma Machine.run_reachable {state final : State} (reached : machine.Reachable anyStep state)
    (ran : machine.run state labels = some final) : machine.Reachable anyStep final :=
  Machine.Obeys.reachable reached (machine.obeys_anyStep labels state) ran

lemma Machine.run_view {View : Type} (view : State → View) {seen : View}
    (begun : machine.start state) (ran : (machine.run state labels).map view = some seen) :
    ∃ final, machine.Reachable anyStep final ∧ view final = seen := by
  obtain ⟨final, ran, shows⟩ := Option.map_eq_some_iff.1 ran
  exact ⟨final, Machine.run_reachable (.start begun) ran, shows⟩

end Runs
