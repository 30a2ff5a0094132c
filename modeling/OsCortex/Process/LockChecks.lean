import OsCortex.Process.LockCore

/-!
A release frees the mutex before it clears the parked guard; the lock stays exclusive as long as
nobody takes the mutex in between.
-/

namespace OsCortex.PTableLock

open Function Option State

variable {cpuOf : Nat → Nat} {state next : State} {agent : Nat}

def Away (state : State) (agent : Nat) : Prop :=
  (state.pc agent = .idle ∨ ∃ tryOnly, state.pc agent = .acquire tryOnly) ∧ state.outer agent = 0

structure Free (state : State) : Prop where
  inner : state.innerLocked = false
  holder : state.holder = none
  parked : state.parked = false
  away : ∀ agent, Away state agent

def Stage (cpuOf : Nat → Nat) (state : State) (agent : Nat) : Pc → Prop
  | .setHolder => state.holder = none ∧ state.parked = false ∧ state.outer agent = 0
  | .dropParked | .park =>
    state.holder = some (cpuOf agent) ∧ state.parked = false ∧ state.outer agent = 0
  | .idle | .clearHolder =>
    state.holder = some (cpuOf agent) ∧ state.parked = true ∧ state.outer agent = 1
  | .dropGuard => state.holder = none ∧ state.parked = true ∧ state.outer agent = 1
  | .acquire _ | .storeNone => False

structure Held (cpuOf : Nat → Nat) (state : State) (agent : Nat) : Prop where
  inner : state.innerLocked = true
  stage : Stage cpuOf state agent (state.pc agent)
  others : ∀ other, other ≠ agent → Away state other

structure Leaving (state : State) (agent : Nat) : Prop where
  inner : state.innerLocked = false
  holder : state.holder = none
  parked : state.parked = true
  pc : state.pc agent = .storeNone
  outer : state.outer agent = 0
  others : ∀ other, other ≠ agent → Away state other

inductive Phase (cpuOf : Nat → Nat) (state : State) : Prop
  | free (free : Free state)
  | held (agent : Nat) (held : Held cpuOf state agent)
  | leaving (agent : Nat) (leaving : Leaving state agent)

def Settled (state : State) : Label → Prop
  | .advance agent => (∃ tryOnly, state.pc agent = .acquire tryOnly) → state.innerLocked = false →
      ∀ other, state.pc other ≠ .storeNone
  | _ => True

variable {other : Nat}

lemma Away.frame (away : Away state other) (pc : next.pc other = state.pc other)
    (outer : next.outer other = state.outer other) : Away next other := by
  rw [Away, pc, outer]
  exact away

@[simp] lemma goto_self (state : State) (agent : Nat) (pc : Pc) :
    (state.goto agent pc).pc agent = pc := by
  simp [goto]

lemma goto_other (different : other ≠ agent) (pc : Pc) :
    (state.goto agent pc).pc other = state.pc other := by
  simp [goto, different]

lemma Held.not_away (held : Held cpuOf state agent) : ¬ Away state agent := by
  rintro ⟨pc | ⟨_, pc⟩, _⟩
  · have stage := held.stage
    rw [pc] at stage
    have one := stage.2.2
    omega
  have stage := held.stage
  rw [pc] at stage
  exact stage

lemma Leaving.not_away (leaving : Leaving state agent) : ¬ Away state agent := by
  rintro ⟨pc | ⟨tryOnly, pc⟩, _⟩ <;> rw [leaving.pc] at pc <;> cases pc

section

variable (phase : Phase cpuOf state)
include phase

lemma Phase.involved (involved : ¬ Away state agent) :
    Held cpuOf state agent ∨ Leaving state agent := by
  cases phase with
  | free free => exact absurd (free.away agent) involved
  | held owner held =>
    by_cases here : agent = owner
    · exact .inl (here ▸ held)
    · exact absurd (held.others agent here) involved
  | leaving owner leaving =>
    by_cases here : agent = owner
    · exact .inr (here ▸ leaving)
    · exact absurd (leaving.others agent here) involved

lemma Phase.goto_away (away : Away state agent) {pc : Pc}
    (still : pc = .idle ∨ ∃ tryOnly, pc = .acquire tryOnly) :
    Phase cpuOf (state.goto agent pc) := by
  have moved : ∀ other, Away state other → Away (state.goto agent pc) other := by
    intro other otherAway
    by_cases here : other = agent
    · subst here
      exact ⟨by rw [goto_self]; exact still, otherAway.2⟩
    · exact otherAway.frame (goto_other here pc) rfl
  cases phase with
  | free free =>
    exact .free { free with away := fun other => moved other (free.away other) }
  | held owner held =>
    have different : owner ≠ agent := fun here => held.not_away (here ▸ away)
    refine .held owner ⟨held.inner, ?_, fun other elsewhere => moved other (held.others other elsewhere)⟩
    rw [goto_other different]
    exact held.stage
  | leaving owner leaving =>
    have different : owner ≠ agent := fun here => leaving.not_away (here ▸ away)
    exact .leaving owner ⟨leaving.inner, leaving.holder, leaving.parked,
      (goto_other different pc).trans leaving.pc, leaving.outer,
      fun other elsewhere => moved other (leaving.others other elsewhere)⟩

lemma Phase.frame (inner : next.innerLocked = state.innerLocked)
    (holder : next.holder = state.holder) (parked : next.parked = state.parked)
    (pc : next.pc = state.pc) (outer : next.outer = state.outer) : Phase cpuOf next := by
  have moved : ∀ other, Away state other → Away next other :=
    fun other away => away.frame (congrFun pc other) (congrFun outer other)
  cases phase with
  | free free =>
    exact .free ⟨inner.trans free.inner, holder.trans free.holder, parked.trans free.parked,
      fun other => moved other (free.away other)⟩
  | held owner held =>
    refine .held owner ⟨inner.trans held.inner, ?_,
      fun other elsewhere => moved other (held.others other elsewhere)⟩
    have stage := held.stage
    rw [pc]
    cases here : state.pc owner <;> simp only [here, Stage, holder, parked, outer] at stage ⊢ <;>
      exact stage
  | leaving owner leaving =>
    exact .leaving owner ⟨inner.trans leaving.inner, holder.trans leaving.holder,
      parked.trans leaving.parked, (congrFun pc owner).trans leaving.pc,
      (congrFun outer owner).trans leaving.outer,
      fun other elsewhere => moved other (leaving.others other elsewhere)⟩

lemma Phase.enter (idle : state.pc agent = .idle) (tryOnly : Bool) :
    Phase cpuOf (state.enter cpuOf agent tryOnly) := by
  simp only [State.enter]
  split
  · exact phase.frame rfl rfl rfl rfl rfl
  rename_i elsewhere
  refine phase.goto_away ?_ (.inr ⟨tryOnly, rfl⟩)
  by_contra involved
  rcases phase.involved involved with held | leaving
  · have stage := held.stage
    rw [idle] at stage
    exact elsewhere stage.1
  · rw [leaving.pc] at idle
    cases idle

end

lemma Held.move (held : Held cpuOf state agent) {pc : Pc}
    (inner : next.innerLocked) (moved : next.pc = update state.pc agent pc)
    (outer : ∀ other, other ≠ agent → next.outer other = state.outer other)
    (stage : Stage cpuOf next agent pc) : Held cpuOf next agent := by
  refine ⟨inner, ?_, fun other elsewhere => ?_⟩
  · rw [moved, update_self]
    exact stage
  · refine (held.others other elsewhere).frame ?_ (outer other elsewhere)
    rw [moved, update_of_ne elsewhere]

lemma Held.advance (held : Held cpuOf state agent) (taken : state.advance cpuOf agent = some next) :
    Phase cpuOf next := by
  obtain ⟨inner, stage, others⟩ := id held
  cases here : state.pc agent with
  | idle => simp [State.advance, here] at taken
  | acquire tryOnly | storeNone =>
    rw [here] at stage
    exact stage.elim
  | setHolder | clearHolder =>
    rw [here] at stage
    simp only [State.advance, here, some.injEq] at taken
    subst taken
    exact .held agent (held.move inner rfl (fun _ _ => rfl) ⟨rfl, stage.2.1, stage.2.2⟩)
  | dropParked =>
    rw [here] at stage
    simp only [State.advance, here, some.injEq, stage.2.1, Bool.false_eq_true, if_false] at taken
    subst taken
    exact .held agent (held.move inner rfl (fun _ _ => rfl) stage)
  | park =>
    rw [here] at stage
    simp only [State.advance, here, some.injEq] at taken
    subst taken
    refine .held agent (held.move inner rfl (fun other elsewhere => ?_) ⟨stage.1, rfl, ?_⟩)
    · exact update_of_ne elsewhere _ _
    · simp [stage.2.2]
  | dropGuard =>
    rw [here] at stage
    simp only [State.advance, here, some.injEq, stage.2.1, if_true] at taken
    subst taken
    refine .leaving agent ⟨rfl, stage.1, stage.2.1, by simp, by simp [stage.2.2],
      fun other elsewhere => (others other elsewhere).frame (goto_other elsewhere _) ?_⟩
    exact update_of_ne elsewhere _ _

lemma Phase.advance (phase : Phase cpuOf state) (settled : Settled state (.advance agent))
    (taken : state.advance cpuOf agent = some next) : Phase cpuOf next := by
  by_cases away : Away state agent
  · obtain ⟨idle | ⟨tryOnly, waiting⟩, none⟩ := id away
    · simp [State.advance, idle] at taken
    simp only [State.advance, waiting] at taken
    split at taken
    · cases taken
      split
      · exact phase.goto_away away (.inl rfl)
      · exact phase
    rename_i unlocked
    cases taken
    have noneLeaving := settled ⟨tryOnly, waiting⟩ (by simpa using unlocked)
    cases phase with
    | free free =>
      refine .held agent ⟨rfl, ?_, fun other elsewhere =>
        (free.away other).frame (goto_other elsewhere _) rfl⟩
      rw [goto_self]
      exact ⟨free.holder, free.parked, none⟩
    | held owner held => exact absurd held.inner unlocked
    | leaving owner leaving => exact absurd leaving.pc (noneLeaving owner)
  rcases phase.involved away with held | leaving
  · exact held.advance taken
  simp only [State.advance, leaving.pc, some.injEq] at taken
  subst taken
  refine .free ⟨leaving.inner, leaving.holder, rfl, fun other => ?_⟩
  by_cases here : other = agent
  · subst here
    exact ⟨.inl (goto_self _ _ _), leaving.outer⟩
  · exact (leaving.others other here).frame (goto_other here _) rfl

lemma step_phase {label : Label} (phase : Phase cpuOf state) (settled : Settled state label)
    (taken : state.step cpuOf label = some next) : Phase cpuOf next := by
  cases label with
  | lock agent | tryLock agent =>
    simp only [step] at taken
    obtain ⟨free, rfl⟩ := of_guard taken
    exact phase.enter free _
  | dropOuter agent =>
    simp only [step] at taken
    obtain ⟨owning, rfl⟩ := of_guard taken
    have involved : ¬ Away state agent := fun away => by
      have := away.2
      omega
    rcases phase.involved involved with held | leaving
    · have stage := held.stage
      rw [owning.1] at stage
      exact .held agent (held.move held.inner rfl (fun _ _ => rfl) stage)
    · rw [leaving.outer] at owning
      exact absurd owning.2 (Nat.lt_irrefl 0)
  | dropNested agent =>
    simp only [step] at taken
    obtain ⟨-, rfl⟩ := of_guard taken
    exact phase.frame rfl rfl rfl rfl rfl
  | advance agent => exact phase.advance settled taken

def Quiet (state : State) : Prop :=
  ∀ agent, state.outer agent = 0 ∧ state.nested agent = 0 ∧
    state.pc agent ≠ .setHolder ∧ state.pc agent ≠ .dropParked ∧ state.pc agent ≠ .park

lemma Held.owner (held : Held cpuOf state agent) (owning : state.outer other ≠ 0) :
    other = agent := by
  by_contra elsewhere
  exact owning (held.others other elsewhere).2

lemma Held.outer_le (held : Held cpuOf state agent) : state.outer agent ≤ 1 := by
  have stage := held.stage
  cases here : state.pc agent <;> rw [here] at stage <;> simp only [Stage] at stage <;> omega

lemma Held.not_quiet (held : Held cpuOf state agent) : ¬ Quiet state := by
  intro quiet
  obtain ⟨_, _, _, _, _⟩ := quiet agent
  have stage := held.stage
  cases here : state.pc agent <;> rw [here] at stage <;> simp only [Stage] at stage <;>
    first | omega | contradiction

def lockSteps (agent : Nat) : List Label :=
  [.lock agent, .advance agent, .advance agent, .advance agent, .advance agent]

def dropSteps (agent : Nat) : List Label := [.dropOuter agent, .advance agent, .advance agent]

theorem outer_guard_exclusive (cpuOf : Nat → Nat) (state : State)
    (reached : (system cpuOf).Reachable Settled state) :
    (∀ agent other, state.outer agent ≠ 0 → state.outer other ≠ 0 → agent = other) ∧
      (∀ agent, state.outer agent ≤ 1) ∧
      (Quiet state → state.innerLocked = false ∧ state.holder = none) := by
  have phase : Phase cpuOf state := by
    refine reached.invariant ?_ ?_
    · rintro _ rfl
      exact .free ⟨rfl, rfl, rfl, fun _ => ⟨.inl rfl, rfl⟩⟩
    · exact fun _ _ _ phase settled taken => step_phase phase settled taken
  cases phase with
  | free free =>
    refine ⟨fun agent _ owning => absurd (free.away agent).2 owning, fun agent => ?_,
      fun _ => ⟨free.inner, free.holder⟩⟩
    rw [(free.away agent).2]
    exact Nat.zero_le 1
  | held owner held =>
    refine ⟨fun agent other owning otherOwning => ?_, fun agent => ?_, fun quiet => ?_⟩
    · rw [held.owner owning, held.owner otherOwning]
    · by_cases here : agent = owner
      · exact here ▸ held.outer_le
      · rw [(held.others agent here).2]
        exact Nat.zero_le 1
    · exact absurd quiet held.not_quiet
  | leaving owner leaving =>
    have none : ∀ agent, state.outer agent = 0 := by
      intro agent
      by_cases here : agent = owner
      · exact here ▸ leaving.outer
      · exact (leaving.others agent here).2
    refine ⟨fun agent _ owning => absurd (none agent) owning, fun agent => ?_,
      fun _ => ⟨leaving.inner, leaving.holder⟩⟩
    rw [none agent]
    exact Nat.zero_le 1

lemma advance_reachable (agent : Nat) (reached : (system cpuOf).Reachable Settled state)
    (settled : Settled state (.advance agent)) (taken : state.advance cpuOf agent = some next) :
    (system cpuOf).Reachable Settled next :=
  .step reached settled taken

theorem outer_guard_exclusive_lock : ∃ state, (system id).Reachable Settled state ∧
    state.outer 0 = 1 ∧
    (∀ agent other, state.outer agent ≠ 0 → state.outer other ≠ 0 → agent = other) ∧
      (∀ agent, state.outer agent ≤ 1) ∧
      (Quiet state → state.innerLocked = false ∧ state.holder = none) := by
  obtain ⟨waiting, entered, nobody⟩ : ∃ waiting, (system id).step {} (.lock 0) = some waiting ∧
      ∀ other, waiting.pc other ≠ .storeNone := by
    refine ⟨_, rfl, fun other => ?_⟩
    match other with
    | 0 => decide
    | other + 1 => exact show Pc.idle ≠ .storeNone by decide
  have called : (system id).Reachable Settled waiting := .step (.start rfl) (by trivial) entered
  cases entered
  have locked := advance_reachable 0 called (fun _ _ => nobody) rfl
  have named := advance_reachable 0 locked (by rintro ⟨_, impossible⟩; cases impossible) rfl
  have cleared := advance_reachable 0 named (by rintro ⟨_, impossible⟩; cases impossible) rfl
  have reached := advance_reachable 0 cleared (by rintro ⟨_, impossible⟩; cases impossible) rfl
  exact ⟨_, reached, rfl, outer_guard_exclusive id _ reached⟩

/-- Two CPUs end up with an outer guard each, or the mutex stays locked with no guard alive. -/
theorem parked_guard_dropped_twice :
    (∃ state, (system id).Reachable Runs.anyStep state ∧ state.outer 1 = 1 ∧ state.outer 2 = 1) ∧
    ∃ state, (system id).Reachable Runs.anyStep state ∧ Quiet state ∧ state.innerLocked = true := by
  constructor
  · obtain ⟨state, ran, both⟩ : ∃ state, (system id).run {}
        (lockSteps 0 ++ dropSteps 0 ++ lockSteps 1 ++ lockSteps 2) = some state ∧
        state.outer 1 = 1 ∧ state.outer 2 = 1 := ⟨_, rfl, rfl, rfl⟩
    exact ⟨state, Runs.Machine.run_reachable (.start rfl) ran, both⟩
  obtain ⟨state, ran, locked, quiet⟩ : ∃ state, (system id).run {}
      (lockSteps 0 ++ dropSteps 0 ++ lockSteps 1 ++ dropSteps 1 ++ [.advance 1] ++
        lockSteps 2 ++ [.advance 0] ++ dropSteps 2 ++ [.advance 2]) = some state ∧
      state.innerLocked = true ∧ Quiet state := by
    refine ⟨_, rfl, rfl, ?_⟩
    intro agent
    match agent with
    | 0 | 1 | 2 => decide
    | agent + 3 =>
      exact show (0 = 0 ∧ 0 = 0 ∧ Pc.idle ≠ .setHolder ∧ Pc.idle ≠ .dropParked ∧
        Pc.idle ≠ .park) by decide
  exact ⟨state, Runs.Machine.run_reachable (.start rfl) ran, quiet, locked⟩

end OsCortex.PTableLock
