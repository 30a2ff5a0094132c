import OsCortex.Syscall.WakeCore

/-!
`sys_futex` of `syscall/handlers/futex.rs`, one access to shared state after the other. A thread
inside the kernel goes on whatever its slot says; one that was switched away waits to be Running.
-/

namespace OsCortex.Futex

open Wake (Translate sameSpace takeWaiters)

def futexAddrPid1Wait : Nat := 0x00007ffffffec8f0
def futexAddrWorkerWait : Nat := 0x0000000457000040
def futexAddrHandoff : Nat := 0x0000000338000070

def futexAddrIsTarget (addr : Nat) : Bool :=
  addr == futexAddrPid1Wait || addr == futexAddrWorkerWait || addr == futexAddrHandoff

structure Wait where
  addr : Nat
  val : Nat
  bitset : Bool := false
  deriving DecidableEq

inductive Call where
  | user
  | entering (wait : Wait)
  | checked (wait : Wait)
  /-- Next is `futex_waiter_add`. -/
  | passed (wait : Wait)
  | queued (wait : Wait)
  /-- There is a thread to switch to; next is `set_state(pid, Blocked)`. -/
  | parking (wait : Wait) (reexec : Bool)
  /-- Switched away. On resume the call returns 0, or is executed again. -/
  | parked (wait : Wait) (reexec : Bool)
  | looping (wait : Wait)
  | halted (wait : Wait)
  /-- Next is `futex_waiter_remove`. -/
  | leaving (wait : Wait)
  | exiting (next woken : Nat)
  | exitWaking (next woken : Nat)
  | gone
  deriving DecidableEq

def Call.waits : Call → Option Wait
  | .checked wait | .passed wait | .queued wait | .parking wait _ | .parked wait _ | .looping wait
  | .halted wait | .leaving wait => some wait
  | _ => none

def Call.queues : Call → Option Wait
  | .queued wait | .parking wait _ | .parked wait _ | .looping wait | .halted wait
  | .leaving wait => some wait
  | _ => none

def Call.waitsOn (call : Call) (addr : Nat) : Bool := call.waits.any fun wait => wait.addr == addr

structure State where
  table : Table := Table.empty
  futexWaiters : List (Nat × Nat) := []
  futexPendingWakes : Nat → Nat := fun _ => 0
  bypasses : Nat := 0
  calls : Nat → Call := fun _ => .user
  inFlight : List Nat := []
  posts : List (Nat × Nat) := []
  /-- Threads that were the only one to wait when a wake came, until their call returns. -/
  woken : Nat → Bool := fun _ => false

def futexWaiterAdd (waiters : List (Nat × Nat)) (addr pid : Nat) : List (Nat × Nat) :=
  if (addr, pid) ∈ waiters then waiters else waiters ++ [(addr, pid)]

def futexWaiterRemove (waiters : List (Nat × Nat)) (addr pid : Nat) : List (Nat × Nat) :=
  waiters.filter fun waiter => waiter ≠ (addr, pid)

def futexWaiterPresent (waiters : List (Nat × Nat)) (addr pid : Nat) : Bool :=
  decide ((addr, pid) ∈ waiters)

variable (state : State)

def State.alone (addr pid : Nat) : Bool :=
  (List.range maxProcs).all fun idx =>
    (state.table idx).pid == pid || !(state.calls (state.table idx).pid).waitsOn addr

def State.futexWakeWaiters (translate : Translate) (caller addr count : Nat) : State :=
  let shares := sameSpace state.table translate caller addr
  let (woke, kept) := takeWaiters addr shares count state.futexWaiters
  -- without a queue for `addr` nobody is taken, and a target address remembers the wake
  let unqueued := state.futexWaiters.all fun waiter => waiter.1 != addr
  { state with
    futexWaiters := kept
    inFlight := state.inFlight ++ woke
    posts :=
      if unqueued && futexAddrIsTarget addr then (addr, count) :: state.posts else state.posts
    woken := fun pid => state.woken pid
      || (count != 0 && (state.calls pid).waitsOn addr && shares pid && state.alone addr pid) }

def State.futexPendingPost (addr count : Nat) : State :=
  if count = 0 then state
  else
    { state with
      futexPendingWakes := Function.update state.futexPendingWakes addr
        (min (state.futexPendingWakes addr + count) 64) }

def State.become (pid : Nat) (call : Call) : State :=
  { state with calls := Function.update state.calls pid call }

def State.finish (pid : Nat) (call : Call) : State :=
  { state.become pid call with woken := Function.update state.woken pid false }

def State.runs (pid : Nat) : Bool :=
  (state.table.slotOf pid).pid == pid && (state.table.slotOf pid).state == .running

/-- `futex_pid1_postrun_bypass`: whether it applies, and its counter. -/
def State.postrunBypass (pid : Nat) (wait : Wait) : Bool × Nat :=
  if wait.addr ≠ futexAddrPid1Wait ∨ wait.val ≠ 0 ∨ pid ≠ 1 then (false, state.bypasses)
  else (state.bypasses < 256, (state.bypasses + 1) % 2 ^ 32)

def State.check (pid : Nat) (wait : Wait) (word : Nat) : State :=
  if wait.addr < 0x1000 ∨ wait.addr % 4 ≠ 0 ∨ word ≠ wait.val ∨ pid = 0 then state.finish pid .user
  else
    let (bypass, bypasses) := state.postrunBypass pid wait
    { state.finish pid
        (if bypass then .user else if wait.bitset then .passed wait else .checked wait) with
      bypasses }

def State.takePending (pid : Nat) (wait : Wait) : State :=
  if futexAddrIsTarget wait.addr ∧ 0 < state.futexPendingWakes wait.addr then
    { state.finish pid .user with
      futexPendingWakes := Function.update state.futexPendingWakes wait.addr
        (state.futexPendingWakes wait.addr - 1) }
  else state.become pid (.passed wait)

inductive Input where
  | call (wait : Wait)
  | check (word : Nat)
  | takePending
  | enqueue
  /-- `found`: `next_runnable_pid` gave another thread. -/
  | pick (found : Bool)
  | block
  | test (word : Nat)
  | remove
  | resume
  | blockElsewhere
  | exit (code : Int)
  | scan
  | force

def State.advance (pid : Nat) (input : Input) : Option State :=
  match state.calls pid, input with
  | .user, .call wait => if state.runs pid then some (state.become pid (.entering wait)) else none
  | .entering wait, .check word => some (state.check pid wait word)
  | .checked wait, .takePending => some (state.takePending pid wait)
  | .passed wait, .enqueue =>
    some { state.become pid (.queued wait) with
      futexWaiters := futexWaiterAdd state.futexWaiters wait.addr pid }
  | .queued wait, .pick found =>
    some (state.become pid (if found then .parking wait false else .looping wait))
  | .halted wait, .pick found =>
    some (state.become pid (if found then .parking wait true else .looping wait))
  | .parking wait reexec, .block =>
    some { state.become pid (.parked wait reexec) with
      table := state.table.setState pid .blocked }
  | .looping wait, .test word =>
    some (state.become pid
      (if word = wait.val ∧ futexWaiterPresent state.futexWaiters wait.addr pid then .halted wait
        else .leaving wait))
  | .leaving wait, .remove =>
    some { state.finish pid .user with
      futexWaiters := futexWaiterRemove state.futexWaiters wait.addr pid }
  | .parked wait reexec, .resume =>
    if state.runs pid then some (state.finish pid (if reexec then .entering wait else .user))
    else none
  | .user, .blockElsewhere =>
    if state.runs pid then some { state with table := state.table.setState pid .blocked }
    else none
  | .user, .exit code =>
    if state.runs pid then
      some { state.become pid (if code < 0 then .exiting 1 0 else .gone) with
        table := state.table.markExited pid code }
    else none
  | .exiting next woken, .scan =>
    if next = maxProcs then
      some { state.become pid .gone with
        futexWaiters := if 0 < woken then [] else state.futexWaiters }
    else
      some (state.become pid
        (if state.table.isBlocked next then .exitWaking next woken
          else .exiting (next + 1) woken))
  | .exitWaking next woken, .force =>
    some { state.become pid (.exiting (next + 1) (woken + 1)) with
      table := state.table.setState next .running }
  | _, _ => none

inductive Label where
  | advance (pid : Nat) (input : Input)
  | wake (translate : Translate) (caller addr count : Nat)
  | deliver (pid : Nat)
  | post (addr count : Nat)
  | forceWake (pid : Nat)
  | kill (pid : Nat)

def State.step : Label → Option State
  | .advance pid input => state.advance pid input
  | .wake translate caller addr count => some (state.futexWakeWaiters translate caller addr count)
  | .deliver pid =>
    if pid ∈ state.inFlight then
      some { state with
        table := state.table.setState pid .running
        inFlight := state.inFlight.erase pid }
    else none
  | .post addr count =>
    if (addr, count) ∈ state.posts then
      some { state.futexPendingPost addr count with posts := state.posts.erase (addr, count) }
    else none
  | .forceWake pid => some { state with table := state.table.setState pid .running }
  | .kill pid => some { state with table := state.table.markExited pid (-9) }

def system : Runs.Machine State Label where
  start state := ∃ table, state = { table }
  step := State.step

end OsCortex.Futex
