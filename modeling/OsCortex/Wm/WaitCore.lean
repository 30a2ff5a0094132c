import OsCortex.Lib.Runs
import OsCortex.Wm.EventQueueCore

/-!
`sys_wm_event_wait` and what wakes its callers. Who waits, and until when, is kept in three global
cells. A step is what a thread does until another one can come in between.
-/

namespace OsCortex.Wm

/-- `leader` is `get_group_leader`, which goes from a thread to the process it belongs to. -/
def canonicalPid (leader : Nat → Nat) (pid : Nat) : Nat := if pid ≤ 1 then pid else leader pid

structure Buffer where
  fits : Bool := true
  writable : Bool := true

inductive Point where
  /-- Before `set_wm_waiter(cur)`. -/
  | arm
  /-- Before `set_state(cur, Blocked)`. -/
  | mark
  /-- Before `wm_wait_drain_event`. -/
  | drain
  /-- Before the last look at the queue. -/
  | sleep
  /-- In the `hlt` loop. -/
  | halted
  /-- Switched out; the call is executed again when the thread runs. -/
  | out
deriving DecidableEq

def Point.armed : Point → Bool
  | .mark | .drain | .sleep => true
  | .arm | .halted | .out => false

def Point.asleep : Point → Bool
  | .halted | .out => true
  | .arm | .mark | .drain | .sleep => false

/-- A call in progress. `due` is when its own time is up, counted from its start. -/
structure Wait where
  buffer : Buffer
  timeoutMs : Nat
  due : Nat
  deadlineNs : Nat
  point : Point

structure WmState where
  queue : EventQueue := {}
  wmWaiter : Nat := 0
  waiterPid : Nat := 0
  waiterDeadline : Nat := 0
  now : Nat := 0
  focusPid : Nat := 0
  lastDrainSlack : Bool := false
  pollSlack : Nat := 0
  blocked : Nat → Bool := fun _ => false
  pendingWakes : Nat → Bool := fun _ => false
  calls : Nat → Option Wait := fun _ => none

def saturate (n : Nat) : Nat := min n (2 ^ 64 - 1)

def deadlineAfter (now timeoutMs : Nat) : Nat := saturate (now + saturate (timeoutMs * 1000000))

inductive Drained where
  | event
  | again
  | invalid
  | fault
deriving DecidableEq

namespace WmState

variable (leader : Nat → Nat)

variable (state : WmState)

/-- `wake_process`; a wake stays pending while the lock of the process table is taken. -/
def wakeProcess (free : Bool) (pid : Nat) : WmState :=
  let pending := Function.update state.pendingWakes pid true
  if free then
    { state with
      pendingWakes := fun _ => false
      blocked := fun other => state.blocked other && !pending other }
  else { state with pendingWakes := pending }

def setBlocked (pid : Nat) (blocked : Bool) : WmState :=
  { state with blocked := Function.update state.blocked pid blocked }

def wakeWaiter (free : Bool) : WmState :=
  { state with wmWaiter := 0 }.wakeProcess free state.wmWaiter

def notifyWaiter (free : Bool) (owner : Nat) : WmState :=
  if state.wmWaiter ≠ 0 ∧
      ownerVisibleToConsumer owner (canonicalPid leader state.wmWaiter) = true then
    state.wakeWaiter free
  else state

def wakeTarget (free : Bool) (owner kind : Nat) : WmState :=
  if kind = evPointer ∨ kind = evKey then
    let target := if owner ≠ 0 then owner else state.focusPid
    if target ≠ 0 then state.wakeProcess free target else state
  else state

def pushEventFor (free : Bool) (ownerPid kind flags a b : Nat) : WmState :=
  let owner := canonicalPid leader ownerPid
  let state := { state with queue := state.queue.push { kind, flags, a, b } owner }
  (state.notifyWaiter leader free owner).wakeTarget free owner kind

def vsyncBatonPost (free : Bool) (caller baton : Nat) : WmState :=
  if baton = 0 then state
  else
    let owner := canonicalPid leader caller
    let state := { state with queue := state.queue.pushFront { kind := evVsync, b := baton } owner }
    let state := state.wakeProcess free owner
    let state := if state.wmWaiter ≠ 0 then state.wakeWaiter free else state
    state.setBlocked caller false

def popEventFor (pid : Nat) : WmState × Option WmEvent :=
  let (queue, event) := state.queue.popFor (canonicalPid leader pid)
  ({ state with queue }, event)

/-- `wm_wait_drain_event`. Every other tick is put back, for all processes, and the caller asked
to look at its platform messages. -/
def drain (free : Bool) (pid : Nat) (buffer : Buffer) : WmState × Drained :=
  let state := { state with lastDrainSlack := false }
  if buffer.fits then
    match state.popEventFor leader (leader pid) with
    | (state, none) => (state, .again)
    | (state, some ev) =>
      if ev.kind = evVsync ∧ ev.b = 0 then
        let even := state.pollSlack % 2 = 0
        let state := { state with pollSlack := (state.pollSlack + 1) % 2 ^ 32 }
        if even then
          let state := state.pushEventFor leader free 0 ev.kind ev.flags ev.a ev.b
          ({ state with lastDrainSlack := true }, .again)
        else (state, if buffer.writable then .event else .fault)
      else (state, if buffer.writable then .event else .fault)
  else (state, .invalid)

def pollRequested (drained : Drained) : Bool := decide (drained = .again) && state.lastDrainSlack

def leave (pid : Nat) : WmState :=
  { state with
    lastDrainSlack := false
    calls := Function.update state.calls pid none }

def clearCells (pid : Nat) : WmState :=
  { state with wmWaiter := 0, waiterPid := 0, waiterDeadline := 0 }.setBlocked pid false

def finish (pid : Nat) : WmState := (state.clearCells pid).leave pid

def moveTo (pid : Nat) (wait : Wait) (point : Point) : WmState :=
  { state with calls := Function.update state.calls pid (some { wait with point }) }

def enter (free : Bool) (pid : Nat) (wait : Wait) : WmState :=
  let (state, drained) := state.drain leader free pid wait.buffer
  if drained = .event then state.finish pid
  else if state.pollRequested drained then state.leave pid
  else if state.waiterPid = pid then
    if state.waiterDeadline ≠ 0 ∧ state.waiterDeadline ≤ state.now then state.finish pid
    else state.moveTo pid { wait with deadlineNs := state.waiterDeadline } .arm
  else if wait.timeoutMs = 0 then state.leave pid
  else
    let deadline := deadlineAfter state.now wait.timeoutMs
    { state with waiterPid := pid, waiterDeadline := deadline }.moveTo pid
      { wait with deadlineNs := deadline } .arm

def advance (free out : Bool) (pid : Nat) (wait : Wait) : Option WmState :=
  match wait.point with
  | .arm => some ({ state with wmWaiter := pid }.moveTo pid wait .mark)
  | .mark => some ((state.setBlocked pid true).moveTo pid wait .drain)
  | .drain =>
    let (state, drained) := state.drain leader free pid wait.buffer
    if drained = .event ∨ state.pollRequested drained = true then some (state.finish pid)
    else if wait.deadlineNs = 0 ∨ wait.deadlineNs ≤ state.now then some (state.finish pid)
    else some (state.moveTo pid wait .sleep)
  | .sleep =>
    if 0 < state.queue.pendingFor (canonicalPid leader pid) ∨
        state.queue.hasBatonVsyncFor (canonicalPid leader 1) = true then
      some ((state.setBlocked pid false).moveTo pid wait .arm)
    else some (state.moveTo pid wait (if out then .out else .halted))
  | .halted =>
    if state.blocked pid then
      if state.waiterDeadline = 0 ∨ state.waiterDeadline ≤ state.now then
        some ((state.clearCells pid).moveTo pid wait .arm)
      else some (state.moveTo pid wait (if out then .out else .halted))
    else some (state.moveTo pid wait .arm)
  | .out => if state.blocked pid then none else some (state.enter leader free pid wait)

def tick (free : Bool) : WmState :=
  if state.waiterDeadline ≠ 0 ∧ state.waiterDeadline ≤ state.now ∧ state.waiterPid ≠ 0 ∧
      state.blocked state.waiterPid = true then
    state.wakeProcess free state.waiterPid
  else state

end WmState

inductive Label where
  | call (pid : Nat) (buffer : Buffer) (timeoutMs : Nat) (free : Bool)
  | advance (pid : Nat) (free out : Bool)
  | push (ownerPid kind flags a b : Nat) (free : Bool)
  | vsyncBatonPost (caller baton : Nat) (free : Bool)
  /-- `wm_event_read` and `wm_next_event` -/
  | pop (pid : Nat)
  | tick (free : Bool)
  | handlePendingWakes
  | wake (pid : Nat)
  | setFocusPid (pid : Nat)
  /-- The clock shows a later time. -/
  | pass (now : Nat)
  | exit (pid : Nat)

def WmState.step (leader : Nat → Nat) (state : WmState) : Label → Option WmState
  | .call pid buffer timeoutMs free =>
    if pid = 0 then some state
    else if (state.calls pid).isSome || state.blocked pid then none
    else
      let due := deadlineAfter state.now timeoutMs
      let wait := { buffer, timeoutMs, due, deadlineNs := 0, point := .arm }
      some (state.enter leader free pid wait)
  | .advance pid free out =>
    match state.calls pid with
    | none => none
    | some wait => state.advance leader free out pid wait
  | .push ownerPid kind flags a b free =>
    some (state.pushEventFor leader free ownerPid kind flags a b)
  | .vsyncBatonPost caller baton free => some (state.vsyncBatonPost leader free caller baton)
  | .pop pid => some (state.popEventFor leader pid).1
  | .tick free => some (state.tick free)
  | .handlePendingWakes =>
    some { state with
      pendingWakes := fun _ => false
      blocked := fun pid => state.blocked pid && !state.pendingWakes pid }
  | .wake pid => some (state.setBlocked pid false)
  | .setFocusPid pid => some { state with focusPid := canonicalPid leader pid }
  | .pass now => if state.now ≤ now ∧ now < 2 ^ 64 then some { state with now } else none
  | .exit pid => some { state with calls := Function.update state.calls pid none }

def waits (leader : Nat → Nat) : Runs.Machine WmState Label where
  start state := ∃ now, state = { now }
  step := WmState.step leader

end OsCortex.Wm
