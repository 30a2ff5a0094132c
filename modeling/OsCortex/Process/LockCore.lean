import OsCortex.Lib.Runs

/-!
The re-entrant process-table lock of `process/mod.rs`, one atomic step after the other. An interrupt
handler is an agent of its own on the CPU it interrupts. Dropping a guard clears the locked bit of
the mutex, whoever set it.
-/

namespace OsCortex.PTableLock

inductive Pc where
  | idle
  /-- The holder is another CPU: next is `inner.lock()` or `inner.try_lock()`. -/
  | acquire (tryOnly : Bool)
  | setHolder
  /-- `PTABLE_LOCK_GUARD = Some(g)` drops the old value .. -/
  | dropParked
  /-- .. and stores the new one. -/
  | park
  | clearHolder
  /-- `PTABLE_LOCK_GUARD = None` drops the old value .. -/
  | dropGuard
  /-- .. and stores `None`. -/
  | storeNone
  deriving DecidableEq

structure State where
  innerLocked : Bool := false
  /-- The CPU in `holder`; `none` is `0xFFFF_FFFF`. -/
  holder : Option Nat := none
  parked : Bool := false
  recursion : Nat → Nat := fun _ => 0
  pc : Nat → Pc := fun _ => .idle
  /-- The outer guards an agent has; one in its drop counts until it has freed the mutex. -/
  outer : Nat → Nat := fun _ => 0
  nested : Nat → Nat := fun _ => 0

def State.goto (state : State) (agent : Nat) (pc : Pc) : State :=
  { state with pc := Function.update state.pc agent pc }

def State.setRecursion (state : State) (cpu depth : Nat) : State :=
  { state with recursion := Function.update state.recursion cpu depth }

inductive Label where
  | lock (agent : Nat)
  | tryLock (agent : Nat)
  | dropOuter (agent : Nat)
  | dropNested (agent : Nat)
  | advance (agent : Nat)

variable (cpuOf : Nat → Nat)

def State.enter (state : State) (agent : Nat) (tryOnly : Bool) : State :=
  if state.holder = some (cpuOf agent) then
    { state.setRecursion (cpuOf agent) (state.recursion (cpuOf agent) + 1) with
      nested := Function.update state.nested agent (state.nested agent + 1) }
  else state.goto agent (.acquire tryOnly)

def State.advance (state : State) (agent : Nat) : Option State :=
  match state.pc agent with
  | .idle => none
  | .acquire tryOnly =>
    if state.innerLocked then some (if tryOnly then state.goto agent .idle else state)
    else some { state.goto agent .setHolder with innerLocked := true }
  | .setHolder => some { state.goto agent .dropParked with holder := some (cpuOf agent) }
  | .dropParked =>
    some
      { (state.setRecursion (cpuOf agent) 1).goto agent .park with
        innerLocked := if state.parked then false else state.innerLocked }
  | .park =>
    some
      { state.goto agent .idle with
        parked := true
        outer := Function.update state.outer agent (state.outer agent + 1) }
  | .clearHolder => some { state.goto agent .dropGuard with holder := none }
  | .dropGuard =>
    some
      { state.goto agent .storeNone with
        innerLocked := if state.parked then false else state.innerLocked
        outer := Function.update state.outer agent (state.outer agent - 1) }
  | .storeNone => some { state.goto agent .idle with parked := false }

def State.step (state : State) : Label → Option State
  | .lock agent => if state.pc agent = .idle then some (state.enter cpuOf agent false) else none
  | .tryLock agent => if state.pc agent = .idle then some (state.enter cpuOf agent true) else none
  | .dropOuter agent =>
    if state.pc agent = .idle ∧ 0 < state.outer agent then
      some ((state.setRecursion (cpuOf agent) 0).goto agent .clearHolder)
    else none
  | .dropNested agent =>
    if state.pc agent = .idle ∧ 0 < state.nested agent then
      some
        { state.setRecursion (cpuOf agent) (state.recursion (cpuOf agent) - 1) with
          nested := Function.update state.nested agent (state.nested agent - 1) }
    else none
  | .advance agent => state.advance cpuOf agent

def system : Runs.Machine State Label where
  start := fun state => state = {}
  step := State.step cpuOf

end OsCortex.PTableLock
