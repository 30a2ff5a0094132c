import Mathlib

/-!
Sequential code over a state that can fail with an error, keeping its effects, or stop the whole
machine, with its rules of pre- and postconditions.
-/

/-- `none` stops the machine. -/
abbrev Outcome (State Error Value : Type) := Option (State × Except Error Value)

namespace Outcome

open List

variable {State Error Value Next Item : Type}

def ok (state : State) (value : Value) : Outcome State Error Value := some (state, .ok value)

def fail (state : State) (error : Error) : Outcome State Error Value := some (state, .error error)

def andThen (outcome : Outcome State Error Value)
    (next : State → Value → Outcome State Error Next) : Outcome State Error Next :=
  match outcome with
  | some (state, .ok value) => next state value
  | some (state, .error error) => fail state error
  | none => none

def orElse {Error' : Type} (outcome : Outcome State Error Value)
    (fallback : State → Outcome State Error' Value) : Outcome State Error' Value :=
  match outcome with
  | some (state, .ok value) => ok state value
  | some (state, .error _) => fallback state
  | none => none

def discard {Error' : Type} (outcome : Outcome State Error Value) : Outcome State Error' Unit :=
  outcome.map fun (state, _) => (state, .ok ())

def forEach (body : State → Item → Value → Outcome State Error Value) :
    List Item → State → Value → Outcome State Error Value
  | [], state, value => ok state value
  | item :: rest, state, value =>
    andThen (body state item value) fun state value => forEach body rest state value

def focus {Part : Type} (put : Part → State) (outcome : Outcome Part Error Value) :
    Outcome State Error Value :=
  outcome.map fun (part, result) => (put part, result)

/-- The code does not stop the machine and ends in a state and result that meet `post`. -/
def Ends (outcome : Outcome State Error Value) (post : State → Except Error Value → Prop) : Prop :=
  ∃ state result, outcome = some (state, result) ∧ post state result

variable {outcome : Outcome State Error Value} {post : State → Except Error Value → Prop}
  {next : State → Value → Outcome State Error Next} {after : State → Except Error Next → Prop}

lemma ends_ok {state : State} {value : Value} (holds : post state (.ok value)) :
    Ends (ok state value) post :=
  ⟨state, .ok value, rfl, holds⟩

lemma ends_fail {state : State} {error : Error} (holds : post state (.error error)) :
    Ends (fail state error) post :=
  ⟨state, .error error, rfl, holds⟩

variable {weaker : State → Except Error Value → Prop}

lemma Ends.mono (ends : Ends outcome post)
    (implies : ∀ state result, post state result → weaker state result) : Ends outcome weaker := by
  obtain ⟨state, result, done, holds⟩ := ends
  exact ⟨state, result, done, implies state result holds⟩

lemma Ends.andThen (first : Ends outcome post)
    (second : ∀ state value, post state (.ok value) → Ends (next state value) after)
    (failed : ∀ state error, post state (.error error) → after state (.error error)) :
    Ends (outcome.andThen next) after := by
  obtain ⟨state, result, done, holds⟩ := first
  rw [done]
  cases result with
  | ok value => exact second state value holds
  | error error => exact ends_fail (failed state error holds)

variable {Part : Type} {put : Part → State} {part : Outcome Part Error Value}

lemma Ends.focused
    {inner : Part → Except Error Value → Prop} (ends : Ends part inner)
    (implies : ∀ part result, inner part result → post (put part) result) :
    Ends (part.focus put) post := by
  obtain ⟨state, result, rfl, holds⟩ := ends
  exact ⟨put state, result, rfl, implies state result holds⟩

lemma Ends.focus
    {post : Part → Except Error Value → Prop} (first : Ends part post)
    (second : ∀ part value, post part (.ok value) → Ends (next (put part) value) after)
    (failed : ∀ part error, post part (.error error) → after (put part) (.error error)) :
    Ends ((part.focus put).andThen next) after := by
  obtain ⟨state, result, rfl, holds⟩ := first
  cases result with
  | ok value => exact second state value holds
  | error error => exact ends_fail (failed state error holds)

variable {Error' : Type} {fallback : State → Outcome State Error' Value}

lemma Ends.orElse
    {final : State → Except Error' Value → Prop} (first : Ends outcome post)
    (succeeded : ∀ state value, post state (.ok value) → final state (.ok value))
    (failed : ∀ state error, post state (.error error) → Ends (fallback state) final) :
    Ends (outcome.orElse fallback) final := by
  obtain ⟨state, result, rfl, holds⟩ := first
  cases result with
  | ok value => exact ends_ok (succeeded state value holds)
  | error error => exact failed state error holds

lemma Ends.discard {final : State → Except Error' Unit → Prop}
    (ends : Ends outcome post) (implies : ∀ state result, post state result → final state (.ok ())) :
    Ends outcome.discard final := by
  obtain ⟨state, result, rfl, holds⟩ := ends
  exact ends_ok (implies state result holds)

lemma Ends.forEach {body : State → Item → Value → Outcome State Error Value}
    {good : State → Prop} {items : List Item}
    (step : ∀ item ∈ items, ∀ state value, good state →
      Ends (body state item value) fun final _ => good final)
    {state : State} {value : Value} (isGood : good state) :
    Ends (forEach body items state value) fun final _ => good final := by
  induction items generalizing state value with
  | nil => exact ends_ok isGood
  | cons item rest ih =>
    refine (step item mem_cons_self state value isGood).andThen ?_ fun _ _ holds => holds
    intro middle value middleGood
    exact ih (fun item member => step item (mem_cons_of_mem _ member)) middleGood

def Meets (outcome : Outcome State Error Value) (post : State → Except Error Value → Prop) : Prop :=
  ∀ state result, outcome = some (state, result) → post state result

lemma meets_none : Meets (none : Outcome State Error Value) post := by
  rintro _ _ ⟨⟩

lemma Ends.meets (ends : Ends outcome post) : Meets outcome post := by
  obtain ⟨_, _, rfl, holds⟩ := ends
  rintro _ _ ⟨⟩
  exact holds

lemma Meets.mono (meets : Meets outcome post)
    (implies : ∀ state result, post state result → weaker state result) : Meets outcome weaker :=
  fun state result done => implies state result (meets state result done)

lemma Meets.final {good : State → Prop} {final : State} (meets : Meets outcome post)
    (implies : ∀ state result, post state result → good state)
    (done : outcome.map Prod.fst = some final) : good final := by
  obtain ⟨⟨state, result⟩, ran, rfl⟩ := Option.map_eq_some_iff.mp done
  exact implies state result (meets state result ran)

lemma Meets.andThen (first : Meets outcome post)
    (second : ∀ state value, post state (.ok value) → Meets (next state value) after)
    (failed : ∀ state error, post state (.error error) → after state (.error error)) :
    Meets (outcome.andThen next) after := by
  intro state result done
  simp only [Outcome.andThen] at done
  split at done
  · exact second _ _ (first _ _ rfl) state result done
  · cases done
    exact failed _ _ (first _ _ rfl)
  · cases done

lemma Meets.focus
    {post : Part → Except Error Value → Prop} (first : Ends part post)
    (second : ∀ part value, post part (.ok value) → Meets (next (put part) value) after)
    (failed : ∀ part error, post part (.error error) → after (put part) (.error error)) :
    Meets ((part.focus put).andThen next) after := by
  obtain ⟨state, result, rfl, holds⟩ := first
  cases result with
  | ok value => exact second state value holds
  | error error => exact (ends_fail (failed state error holds)).meets

lemma Meets.orElse
    {final : State → Except Error' Value → Prop} (first : Meets outcome post)
    (succeeded : ∀ state value, post state (.ok value) → final state (.ok value))
    (failed : ∀ state error, post state (.error error) → Meets (fallback state) final) :
    Meets (outcome.orElse fallback) final := by
  cases outcome with
  | none => exact nofun
  | some done =>
    obtain ⟨state, result⟩ := done
    have holds := first state result rfl
    cases result with
    | ok value => exact (ends_ok (succeeded state value holds)).meets
    | error error => exact failed state error holds

lemma Meets.discard {final : State → Except Error' Unit → Prop} (meets : Meets outcome post)
    (implies : ∀ state result, post state result → final state (.ok ())) :
    Meets outcome.discard final := by
  cases outcome with
  | none => exact nofun
  | some done => exact (ends_ok (implies done.1 done.2 (meets done.1 done.2 rfl))).meets

section Loop

variable {body : State → Item → Value → Outcome State Error Value} {good : State → Prop}
  {items : List Item} {state : State} {value : Value}

lemma Meets.forEach
    (step : ∀ item ∈ items, ∀ state value, good state →
      Meets (body state item value) fun final _ => good final)
    (isGood : good state) : Meets (forEach body items state value) fun final _ => good final := by
  induction items generalizing state value with
  | nil => exact (ends_ok isGood).meets
  | cons item rest ih =>
    refine Meets.andThen (step item mem_cons_self state value isGood) ?_ fun _ _ holds => holds
    intro middle value middleGood
    exact ih (fun item member => step item (mem_cons_of_mem _ member)) middleGood

lemma Meets.forEach_hit {hit : State → Prop} {target : Item}
    (step : ∀ item ∈ items, ∀ state value, good state →
      Meets (body state item value) fun final _ => good final ∧ (hit state → hit final))
    (member : target ∈ items)
    (hits : ∀ state value, good state →
      Meets (body state target value) fun final result => ∀ last, result = .ok last → hit final)
    (isGood : good state) :
    Meets (Outcome.forEach body items state value) fun final result =>
      ∀ last, result = .ok last → hit final := by
  induction items generalizing state value with
  | nil => cases member
  | cons item rest ih =>
    have stepRest := fun item member => step item (mem_cons_of_mem _ member)
    have first := step item mem_cons_self state value isGood
    rcases mem_cons.mp member with rfl | later
    · have both : Meets (body state target value) fun final result =>
          good final ∧ ∀ last, result = .ok last → hit final :=
        fun final result ran =>
          ⟨(first final result ran).1, hits state value isGood final result ran⟩
      refine Meets.andThen both ?_ fun _ _ _ => nofun
      rintro middle last ⟨middleGood, isHit⟩
      have stays : Meets (Outcome.forEach body rest middle last) fun final _ =>
          good final ∧ hit final := by
        refine Meets.forEach (fun item member state value holds => ?_) ⟨middleGood, isHit last rfl⟩
        exact (stepRest item member state value holds.1).mono
          fun _ _ kept => ⟨kept.1, kept.2 holds.2⟩
      exact stays.mono fun _ _ holds _ _ => holds.2
    refine Meets.andThen first ?_ fun _ _ _ => nofun
    intro middle value holds
    exact ih stepRest later holds.1

end Loop

section Costs

variable {good : State → Prop} {room : State → Nat} {excuse : Prop} {before : State}

/-- The code keeps `good`, uses up at most `cost` of the `room` there was before it, and fails
only for want of room or with an `excuse`. -/
def Costs (good : State → Prop) (room : State → Nat) (excuse : Prop) (cost : Nat) (before : State)
    (outcome : Outcome State Error Value) (post : State → Value → Prop) : Prop :=
  Ends outcome fun after result =>
    good after ∧
      match result with
      | .ok value => room before ≤ room after + cost ∧ post after value
      | .error _ => room before < cost ∨ excuse

lemma costs_ok {value : Value} {post : State → Value → Prop} (isGood : good before)
    (holds : post before value) :
    Costs good room excuse 0 before (ok before value : Outcome State Error Value) post :=
  ends_ok ⟨isGood, Nat.le_refl _, holds⟩

lemma costs_fail {error : Error} {cost : Nat} {post : State → Value → Prop}
    (isGood : good before) (excused : excuse) :
    Costs good room excuse cost before (fail before error) post :=
  ends_fail ⟨isGood, .inr excused⟩

lemma Costs.andThen {cost cost' total : Nat} {post : State → Value → Prop}
    {after : State → Next → Prop} (first : Costs good room excuse cost before outcome post)
    (second : ∀ middle value, good middle → post middle value →
      Costs good room excuse cost' middle (next middle value) after)
    (enough : cost + cost' ≤ total) :
    Costs good room excuse total before (outcome.andThen next) after := by
  refine Ends.andThen first ?_ ?_
  · rintro middle value ⟨isGood, _, holds⟩
    refine (second middle value isGood holds).mono ?_
    rintro _ (error | _) ⟨finalGood, rest⟩
    · refine ⟨finalGood, rest.imp_left fun short => ?_⟩
      omega
    · exact ⟨finalGood, by omega, rest.2⟩
  · rintro middle error ⟨isGood, short⟩
    exact ⟨isGood, short.imp_left fun short => by omega⟩

lemma Costs.mono {cost cost' : Nat} {post post' : State → Value → Prop}
    (costs : Costs good room excuse cost before outcome post) (more : cost ≤ cost')
    (implies : ∀ state value, good state → post state value → post' state value) :
    Costs good room excuse cost' before outcome post' := by
  refine Ends.mono costs ?_
  rintro state (_ | value) ⟨isGood, rest⟩
  · exact ⟨isGood, rest.imp_left fun short => by omega⟩
  · exact ⟨isGood, by omega, implies state value isGood rest.2⟩

lemma Costs.forEach {body : State → Item → Value → Outcome State Error Value}
    {invariant : State → Value → Prop} (cost : Item → Nat) {items : List Item}
    (step : ∀ item ∈ items, ∀ state value, good state → invariant state value →
      Costs good room excuse (cost item) state (body state item value) invariant)
    {value : Value} (isGood : good before) (start : invariant before value) :
    Costs good room excuse (items.map cost).sum before (forEach body items before value)
      invariant := by
  induction items generalizing before value with
  | nil => exact costs_ok isGood start
  | cons item rest ih =>
    refine (step item mem_cons_self before value isGood start).andThen ?_
      (Nat.le_of_eq sum_cons.symm)
    intro middle value middleGood kept
    exact ih (fun item member => step item (mem_cons_of_mem _ member)) middleGood kept

end Costs

end Outcome
