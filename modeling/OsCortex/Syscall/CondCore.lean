import OsCortex.Lib.Entries
import OsCortex.Lib.Ownership
import OsCortex.Syscall.FutexCore

/-!
Mutexes and condition variables of `syscall/posix.rs` with the timer's completion of timed waits,
one access to shared state after the other. A thread's group leader stands for its address space.
-/

namespace OsCortex.Cond

open Futex (futexWaiterAdd futexWaiterRemove futexWaiterPresent)
open Ownership (Ledger)

abbrev Place := Nat × Nat

/-- The arguments of a wait. A timeout of zero is none. -/
structure Wait where
  cond : Nat
  mutex : Nat
  timeout : Nat
  deriving DecidableEq

inductive CondWaitState where
  | waiting (wait : Wait) (seq : BitVec 32)
  | acquiringMutex (mutex : Nat) (timedOut : Bool)
  deriving DecidableEq

inductive Call where
  | lock (mutex : Nat)
  | unlock (mutex : Nat)
  | wait (wait : Wait)
  | signal (cond : Nat)
  | broadcast (cond : Nat)
  deriving DecidableEq

/-- What a thread that was switched away does when it resumes: it executes its call again, or it
returns. -/
inductive Context where
  | retry (call : Call)
  | ret (call : Call) (value : Nat)

inductive Locking where
  | call (mutex : Nat)
  | wait (args : Wait) (mutex : Nat) (timedOut : Bool)

inductive Releasing where
  | call (mutex : Nat)
  | wait (args : Wait) (seq : BitVec 32)

structure Arm where
  args : Wait
  saved : Wait
  seq : BitVec 32

structure Signal where
  cond : Nat
  all : Bool

inductive Job where
  /-- `fetch_add` -/
  | bump (addr : Nat)
  /-- The counter of eight bytes at `addr + 16` is read. -/
  | wakeupSeq (addr : Nat)
  /-- The counter at `addr + 40` is read. -/
  | broadcastSeq (addr : Nat)
  | put (words : List (Nat × BitVec 32))
  | wake (addr count : Nat)
  | glibc
  | bridge
  | bridgeTo (addr : Nat)
  | siblings
  | sibling (addr : Nat)

inductive Phase where
  | user
  /-- Resumed behind the instruction that follows its call. -/
  | lost
  | parked (context : Context)
  | entering (call : Call)
  -- `sys_pthread_mutex_lock`
  | exchanging (lock : Locking)
  | queueing (lock : Locking)
  | handing (lock : Locking)
  | spinning (lock : Locking)
  | halted (lock : Locking)
  | dequeueing (lock : Locking)
  -- `sys_pthread_mutex_unlock`
  | releasing (release : Releasing)
  | storing (release : Releasing) (waiter : Option Nat)
  | waking (release : Releasing) (waiter : Option Nat)
  | preferring (release : Releasing) (waiter : Option Nat) (woke : Nat)
  | yielding (release : Releasing)
  -- `sys_pthread_cond_wait_timeout`
  | loading (args : Wait)
  | enlisting (args : Wait) (seq : BitVec 32)
  | inserting (args : Wait) (seq : BitVec 32)
  | matching (args : Wait) (state : CondWaitState)
  | timing (arm : Arm)
  | removing (arm : Arm) (timedOut : Bool)
  | turning (arm : Arm) (timedOut : Bool)
  | adding (arm : Arm)
  | offering (arm : Arm)
  | looping (arm : Arm) (state : CondWaitState)
  | polling (arm : Arm) (state : CondWaitState)
  | resting (arm : Arm) (state : CondWaitState)
  | rechecking (arm : Arm) (state : CondWaitState)
  | reloading (arm : Arm) (state : CondWaitState)
  | retiming (arm : Arm) (state : CondWaitState)
  | forgetting (args : Wait) (timedOut : Bool)
  -- `sys_pthread_cond_signal` and `sys_pthread_cond_broadcast`
  | working (signal : Signal) (woke : Nat) (jobs : List Job)

/-- `check_timerfds_and_wake_try` on one CPU, in the address space that it interrupted. -/
inductive Isr where
  | idle
  | unlisting (space : Nat) (expired : List (Nat × Nat))
  | searching (space : Nat)
  | finishing (space pid mutex : Nat)

structure State where
  ledger : Ledger Place Nat
  condWaitState : List (Nat × CondWaitState) := []
  futexWaiters : List (Nat × Nat) := []
  phase : Nat → Phase := fun _ => .user
  isr : Nat → Isr := fun _ => .idle

def Locking.mutex : Locking → Nat
  | .call mutex => mutex
  | .wait _ mutex _ => mutex

def Locking.origin : Locking → Call
  | .call mutex => .lock mutex
  | .wait args _ _ => .wait args

def Releasing.mutex : Releasing → Nat
  | .call mutex => mutex
  | .wait args _ => args.mutex

def Releasing.origin : Releasing → Call
  | .call mutex => .unlock mutex
  | .wait args _ => .wait args

def Signal.call (signal : Signal) : Call :=
  if signal.all then .broadcast signal.cond else .signal signal.cond

def Signal.count (signal : Signal) : Nat := if signal.all then 2 ^ 31 - 1 else 1

/-- The mutex that a call tells its thread to hold when it returns `value`: 110 is the timed-out
code. -/
def Call.grants (call : Call) (value : Nat) : Option Nat :=
  match call with
  | .lock mutex => if value = 0 then some mutex else none
  | .wait args => if value = 0 ∨ value = 110 then some args.mutex else none
  | _ => none

def Wait.expired (wait : Wait) (now : Nat) : Bool := wait.timeout ≠ 0 && wait.timeout ≤ now

def CondWaitState.expire (now : Nat) : CondWaitState → CondWaitState
  | .waiting wait seq =>
    if wait.expired now then .acquiringMutex wait.mutex true else .waiting wait seq
  | state => state

def isWaiting : CondWaitState → Bool
  | .waiting .. => true
  | .acquiringMutex .. => false

namespace State

variable (leader : Nat → Nat) (state : State) (pid : Nat)

def become (phase : Phase) : State :=
  { state with phase := Function.update state.phase pid phase }

def word (addr : Nat) : BitVec 32 := state.ledger.word (leader pid, addr)

def complete (call : Call) (value : Nat) : State :=
  match call.grants value with
  | some mutex => { state with ledger := state.ledger.tell (leader pid, mutex) pid }
  | none => state

def ret (call : Call) (value : Nat) : State :=
  (state.complete leader pid call value).become pid .user

def parkReturning (call : Call) (value : Nat) : State :=
  (state.complete leader pid call value).become pid (.parked (.ret call value))

def insertWait (wait : CondWaitState) : State :=
  { state with
    condWaitState :=
      Entries.insertOrdered (fun a b => decide (a < b)) state.condWaitState pid wait }

def removeWait : State :=
  { state with condWaitState := Entries.erase state.condWaitState pid }

variable (addr : Nat)

def waiterAdd : State :=
  { state with futexWaiters := futexWaiterAdd state.futexWaiters addr pid }

def waiterRemove : State :=
  { state with futexWaiters := futexWaiterRemove state.futexWaiters addr pid }

/-- Physical addresses agree for threads of one address space. -/
def shares (waiter : Nat) : Bool := pid == 0 || leader pid == 0 || leader waiter == leader pid

def futexWakeWaiters (addr count : Nat) : State × Nat :=
  let (woke, kept) := Wake.takeWaiters addr (shares leader pid) count state.futexWaiters
  ({ state with futexWaiters := kept }, woke.length)

def futexWaiterFor : Option Nat :=
  (state.futexWaiters.find? fun waiter =>
    waiter.1 == addr && waiter.2 != pid && shares leader pid waiter.2).map Prod.snd

def acqmutexWaiterFor (mutex : Nat) (running : List Nat) : Option Nat :=
  (state.condWaitState.find? fun entry =>
    entry.1 != pid && entry.1 ∈ running &&
      match entry.2 with
      | .acquiringMutex other _ => other == mutex
      | .waiting .. => false).map Prod.fst

def take (mutex : Nat) : State :=
  { state with ledger := state.ledger.take (leader pid, mutex) pid }

def locked : Locking → State
  | .call mutex => state.ret leader pid (.lock mutex) 0
  | .wait args _ timedOut => state.become pid (.forgetting args timedOut)

def exchange (lock : Locking) : State :=
  if state.word leader pid lock.mutex = 0 then
    (state.take leader pid lock.mutex).locked leader pid lock
  else if pid = 0 then state.locked leader pid lock
  else state.become pid (.queueing lock)

def lock (lock : Locking) : State :=
  if lock.mutex < 0x1000 then state.locked leader pid lock
  else state.become pid (.exchanging lock)

def store (mutex : Nat) : State :=
  { state with ledger := state.ledger.giveBack (leader pid, mutex) }

def released : Releasing → State
  | .call mutex => state.ret leader pid (.unlock mutex) 0
  | .wait args seq => state.become pid (.inserting args seq)

def prefer (release : Releasing) (waiter : Option Nat) (woke : Nat) (running : List Nat) : State :=
  let next := (state.acqmutexWaiterFor pid release.mutex running).or
    (if 0 < woke then waiter else none)
  if next.isSome ∧ pid ≠ 0 then state.become pid (.yielding release)
  else state.released leader pid release

def acquire (args : Wait) (mutex : Nat) (timedOut : Bool) : State :=
  if state.word leader pid mutex = 0 then
    (state.take leader pid mutex).become pid (.forgetting args timedOut)
  else state.lock leader pid (.wait args mutex timedOut)

def matchState (args : Wait) : CondWaitState → State
  | .waiting saved seq =>
    if state.word leader pid args.cond ≠ seq then
      state.become pid (.removing { args, saved, seq } false)
    else state.become pid (.timing { args, saved, seq })
  | .acquiringMutex mutex timedOut => state.acquire leader pid args mutex timedOut

def enter : Call → State
  | .lock mutex => state.lock leader pid (.call mutex)
  | .unlock mutex =>
    if mutex < 0x1000 then state.ret leader pid (.unlock mutex) 0
    else state.become pid (.releasing (.call mutex))
  | .wait args =>
    if args.cond < 0x1000 ∨ args.mutex < 0x1000 then state.ret leader pid (.wait args) 22
    else
      match state.condWaitState.lookup pid with
      | some wait => state.become pid (.matching args wait)
      | none => state.become pid (.loading args)
  | .signal cond =>
    if cond = 0 then state.ret leader pid (.signal cond) 22
    else
      state.become pid (.working { cond, all := false } 0 [.bump cond, .wake cond 1, .bridge])
  | .broadcast cond =>
    if cond = 0 then state.ret leader pid (.broadcast cond) 22
    else
      state.become pid (.working { cond, all := true } 0
        [.bump cond, .wake cond (2 ^ 31 - 1), .glibc, .bridge])

def write (addr : Nat) (value : BitVec 32) : State :=
  { state with ledger := state.ledger.write (leader pid, addr) value }

def put : State → List (Nat × BitVec 32) → State
  | state, [] => state
  | state, (addr, value) :: words => (state.write leader pid addr value).put words

def countedWide : List (Nat × BitVec 32) :=
  let low := state.word leader pid addr + 1
  let high := state.word leader pid (addr + 4)
  [(addr, low), (addr + 4, if low = 0 then high + 1 else high)]

def bridgeTargets (siblings : List Nat) (cond : Nat) : List Nat :=
  let relocks := fun waiter =>
    match state.condWaitState.lookup waiter with
    | some (.acquiringMutex ..) => true
    | _ => false
  let parkedOn := fun addr waiter =>
    match state.condWaitState.lookup waiter with
    | some (.waiting wait _) => wait.cond == addr
    | some (.acquiringMutex ..) => false
    | none => true
  (state.futexWaiters.map Prod.fst).dedup.mergeSort.filter fun addr =>
    let waiters := (state.futexWaiters.filter fun waiter => waiter.1 = addr).map Prod.snd
    addr != cond && addr != Futex.futexAddrHandoff && !waiters.all relocks &&
      waiters.any fun waiter => waiter ∈ siblings && parkedOn addr waiter

def glibcJobs (addr count : Nat) : List Job :=
  [.wakeupSeq addr, .broadcastSeq addr, .wake (addr + 4) count]

def bridgeJobs (mapped counters : Bool) : List Job :=
  if 0x1000 ≤ addr ∧ addr < 2 ^ 47 ∧ mapped then
    .bump addr :: if addr + 48 < 2 ^ 47 ∧ counters then glibcJobs addr 1 else []
  else []

end State

inductive Input where
  | call (call : Call)
  | resume
  | go
  | time (now : Nat)
  /-- There is a thread to switch to. -/
  | switch
  | stay
  | running (pids : List Nat)
  | siblings (pids : List Nat)
  /-- Whether two pages are mapped, or for `Job.bridge` whether the bridge is skipped. -/
  | flags (first second : Bool)

namespace State

variable (leader : Nat → Nat) (state : State) (pid : Nat)

def work (signal : Signal) (woke : Nat) (rest : List Job) : Job → Input → Option State
  | .bump addr, .go =>
    some ((state.write leader pid addr (state.word leader pid addr + 1)).become pid
      (.working signal woke rest))
  | .wakeupSeq addr, .go =>
    some (state.become pid
      (.working signal woke (.put (state.countedWide leader pid (addr + 16)) :: rest)))
  | .broadcastSeq addr, .go =>
    some (state.become pid (.working signal woke
      (.put [(addr + 40, state.word leader pid (addr + 40) + 1)] :: rest)))
  | .put words, .go => some ((put leader pid state words).become pid (.working signal woke rest))
  | .wake addr count, .go =>
    let (next, n) := state.futexWakeWaiters leader pid addr count
    some (next.become pid (.working signal (woke + n) rest))
  | .glibc, .flags mapped _ =>
    let jobs :=
      if woke = 0 ∧ 0x1000 ≤ signal.cond ∧ signal.cond + 24 < 2 ^ 47 ∧ mapped then
        glibcJobs signal.cond (2 ^ 31 - 1)
      else []
    some (state.become pid (.working signal woke (jobs ++ rest)))
  | .bridge, .flags skip _ =>
    let jobs :=
      if woke = 0 ∧ ¬ (signal.all ∧ skip) then
        [.bridgeTo Futex.futexAddrPid1Wait, .bridgeTo Futex.futexAddrWorkerWait, .siblings]
      else []
    some (state.become pid (.working signal woke (jobs ++ rest)))
  | .bridgeTo addr, .go =>
    let jobs := if addr = signal.cond then [] else [.wake addr signal.count]
    some (state.become pid (.working signal woke (jobs ++ rest)))
  | .siblings, .siblings pids =>
    let targets := if woke = 0 ∧ 1 < pids.length then state.bridgeTargets pids signal.cond else []
    some (state.become pid (.working signal woke (targets.map Job.sibling ++ rest)))
  | .sibling addr, .flags mapped counters =>
    let (next, n) := state.futexWakeWaiters leader pid addr 1
    let jobs := if 0 < n then bridgeJobs addr mapped counters else []
    some (next.become pid (.working signal (woke + n) (jobs ++ rest)))
  | _, _ => none

def advance (input : Input) : Option State :=
  match state.phase pid, input with
  | .user, .call call => some (state.become pid (.entering call))
  | .parked (.retry call), .resume => some (state.become pid (.entering call))
  | .parked (.ret _ _), .resume => some (state.become pid .user)
  | .entering call, .go => some (state.enter leader pid call)
  | .exchanging lock, .go => some (state.exchange leader pid lock)
  | .queueing lock, .go => some ((state.waiterAdd pid lock.mutex).become pid (.handing lock))
  | .handing lock, .switch => some (state.become pid (.parked (.retry lock.origin)))
  | .handing lock, .stay => some (state.become pid (.spinning lock))
  | .spinning lock, .go =>
    if state.word leader pid lock.mutex ≠ 0 ∧
        futexWaiterPresent state.futexWaiters lock.mutex pid then
      some (state.become pid (.halted lock))
    else some (state.become pid (.dequeueing lock))
  | .halted lock, .switch => some (state.become pid (.parked (.retry lock.origin)))
  | .halted lock, .stay => some (state.become pid (.spinning lock))
  | .dequeueing lock, .go =>
    some ((state.waiterRemove pid lock.mutex).become pid (.exchanging lock))
  | .releasing release, .go =>
    some (state.become pid (.storing release (state.futexWaiterFor leader pid release.mutex)))
  | .storing release waiter, .go =>
    some ((state.store leader pid release.mutex).become pid (.waking release waiter))
  | .waking release waiter, .go =>
    let (next, woke) := state.futexWakeWaiters leader pid release.mutex 1
    some (next.become pid (.preferring release waiter woke))
  | .preferring release waiter woke, .running pids =>
    some (state.prefer leader pid release waiter woke pids)
  | .yielding release, .switch => some (state.parkReturning leader pid release.origin 0)
  | .yielding release, .stay => some (state.released leader pid release)
  | .loading args, .go =>
    some (state.become pid (.enlisting args (state.word leader pid args.cond)))
  | .enlisting args seq, .go =>
    some ((if pid = 0 then state else state.waiterAdd pid args.cond).become pid
      (.releasing (.wait args seq)))
  | .inserting args seq, .go =>
    some ((state.insertWait pid (.waiting args seq)).become pid
      (.matching args (.waiting args seq)))
  | .matching args wait, .go => some (state.matchState leader pid args wait)
  | .timing arm, .time now =>
    some (state.become pid (if arm.saved.expired now then .removing arm true else .adding arm))
  | .removing arm timedOut, .go =>
    some ((state.waiterRemove pid arm.saved.cond).become pid (.turning arm timedOut))
  | .turning arm timedOut, .go =>
    some ((state.insertWait pid (.acquiringMutex arm.saved.mutex timedOut)).become pid
      (.matching arm.args (.acquiringMutex arm.saved.mutex timedOut)))
  | .adding arm, .go =>
    if pid = 0 then some (state.become pid (.looping arm (.waiting arm.saved arm.seq)))
    else some ((state.waiterAdd pid arm.saved.cond).become pid (.offering arm))
  | .offering arm, .switch => some (state.become pid (.parked (.retry (.wait arm.args))))
  | .offering arm, .stay =>
    some (state.become pid (.looping arm (.waiting arm.saved arm.seq)))
  | .looping arm wait, .time now =>
    if state.word leader pid arm.args.cond = arm.seq ∧ ¬ arm.saved.expired now ∧
        futexWaiterPresent state.futexWaiters arm.saved.cond pid then
      some (state.become pid (.polling arm wait))
    else some (state.become pid (.rechecking arm wait))
  | .polling arm wait, .go =>
    match (state.condWaitState.lookup pid).filter (!isWaiting ·) with
    | some found => some (state.become pid (.rechecking arm found))
    | none => some (state.become pid (.resting arm wait))
  | .resting arm _, .switch => some (state.become pid (.parked (.retry (.wait arm.args))))
  | .resting arm wait, .stay => some (state.become pid (.looping arm wait))
  | .rechecking arm wait, .go =>
    match (state.condWaitState.lookup pid).filter (!isWaiting ·) with
    | some found => some (state.become pid (.matching arm.args found))
    | none => some (state.become pid (.reloading arm wait))
  | .reloading arm wait, .go =>
    some (state.become pid
      (if state.word leader pid arm.args.cond = arm.seq then .retiming arm wait
        else .removing arm false))
  | .retiming arm wait, .time now =>
    some (state.become pid
      (if arm.saved.expired now then .removing arm true else .matching arm.args wait))
  | .forgetting args timedOut, .go =>
    some ((state.removeWait pid).ret leader pid (.wait args) (if timedOut then 110 else 0))
  | .working signal woke (job :: rest), input => state.work leader pid signal woke rest job input
  | .working signal _ [], .switch => some (state.parkReturning leader pid signal.call 0)
  | .working signal _ [], .stay => some (state.ret leader pid signal.call 0)
  | _, _ => none

end State

inductive Label where
  | advance (pid : Nat) (input : Input)
  | wake (caller addr count : Nat)
  | tick (cpu space now : Nat)
  /-- `contended`: a `try_lock` fails. -/
  | unlist (cpu : Nat) (contended : Bool)
  | find (cpu : Nat) (contended : Bool)
  | finish (cpu : Nat) (contended : Bool)

namespace State

variable (leader : Nat → Nat) (state : State)

def serve (cpu : Nat) (isr : Isr) : State :=
  { state with isr := Function.update state.isr cpu isr }

def expire (cpu space now : Nat) : State :=
  let expired := state.condWaitState.filterMap fun entry =>
    match entry.2 with
    | .waiting wait _ => if wait.expired now then some (wait.cond, entry.1) else none
    | .acquiringMutex .. => none
  { state.serve cpu (.unlisting space expired) with
    condWaitState := state.condWaitState.map fun entry => (entry.1, entry.2.expire now) }

/-- The first waiter that timed out and whose mutex is free in the address space at hand. -/
def stuck (space : Nat) : Option (Nat × Nat) :=
  state.condWaitState.findSome? fun entry =>
    match entry.2 with
    | .acquiringMutex mutex true =>
      if state.ledger.word (space, mutex) = 0 then some (entry.1, mutex) else none
    | _ => none

def advanceContext (pid : Nat) : State :=
  match state.phase pid with
  | .parked (.retry call) => state.parkReturning leader pid call 110
  | .parked (.ret _ _) => state.become pid .lost
  | _ => state

def finishCondTimedoutReturn (space pid mutex : Nat) : State :=
  if pid = 0 ∨ state.ledger.word (space, mutex) ≠ 0 then state
  else
    let taken := { state with ledger := state.ledger.take (space, mutex) pid }
    (taken.advanceContext leader pid).removeWait pid

def step : Label → Option State
  | .advance pid input => state.advance leader pid input
  | .wake caller addr count => some (state.futexWakeWaiters leader caller addr count).1
  | .tick cpu space now =>
    match state.isr cpu with
    | .idle => some (state.expire cpu space now)
    | _ => none
  | .unlist cpu contended =>
    match state.isr cpu with
    | .unlisting space [] => some (state.serve cpu (.searching space))
    | .unlisting space ((cond, pid) :: rest) =>
      some ((if contended then state else state.waiterRemove pid cond).serve cpu
        (.unlisting space rest))
    | _ => none
  | .find cpu contended =>
    match state.isr cpu with
    | .searching space =>
      match if contended then none else state.stuck space with
      | some (pid, mutex) => some (state.serve cpu (.finishing space pid mutex))
      | none => some (state.serve cpu .idle)
    | _ => none
  | .finish cpu contended =>
    match state.isr cpu with
    | .finishing space pid mutex =>
      some ((if contended then state
        else state.finishCondTimedoutReturn leader space pid mutex).serve cpu .idle)
    | _ => none

end State

def system (leader : Nat → Nat) : Runs.Machine State Label where
  start state := ∃ word,
    state = { ledger := { word, locker := fun _ => none, returned := fun _ => [] } }
  step := State.step leader

end OsCortex.Cond
