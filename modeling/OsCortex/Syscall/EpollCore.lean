import OsCortex.Lib.Entries
import OsCortex.Process.TableCore
import OsCortex.Syscall.TimerfdCore

/-!
`sys_epoll_wait_real` of `syscall/poll.rs` with what makes a descriptor ready and what wakes a
waiting thread, one critical section after the other. A wake-up in progress is a `Waker`; those of
the timer interrupt only try the locks.
-/

namespace OsCortex.Epoll

open Timerfd (TimerState saturatingAdd Itimerspec nanoseconds)

/-- `maxevents` is the `i32` the argument is cut to. -/
structure Args where
  epfd : Nat
  eventsOut : Nat
  maxevents : Int
  timeoutMs : Nat
  deriving DecidableEq

def Args.infinite (args : Args) : Bool :=
  args.timeoutMs == 2 ^ 64 - 1 || args.timeoutMs == 0xFFFFFFFF

inductive Call where
  | user
  | collecting (args : Args) (fast : Bool) (start : Nat)
  /-- With its copy of the epoll list, before it has the lock of the timers. -/
  | locking (args : Args) (fast : Bool) (start : Nat) (rest : List Nat) (now : Nat)
  | scanning (args : Args) (fast : Bool) (start : Nat) (rest : List Nat) (now count : Nat)
  | registering (args : Args) (start : Nat)
  /-- Next is `set_state(cur, Blocked)`. -/
  | marking (args : Args) (start : Nat)
  | deciding (args : Args) (start : Nat)
  | unregistering
  /-- Next is `set_state(cur, Running)`. -/
  | returning
  /-- Switched away; the call is executed again on resume. -/
  | parked (args : Args)
  deriving DecidableEq

inductive Waker where
  | fd (fd : Nat) (tryOnly : Bool)
  | watching (epfds : List Nat) (tryOnly : Bool)
  | waking (pids : List Nat)
  deriving DecidableEq

structure State where
  table : Table := Table.empty
  timers : List (Nat × TimerState) := []
  timerLock : Option Nat := none
  eventfds : List (Nat × Nat) := []
  epolls : List (Nat × List Nat) := []
  /-- `EPOLL_BLOCKED`: pid and epoll descriptor. -/
  epollBlocked : List (Nat × Nat) := []
  readEnds : Nat → Option Nat := fun _ => none
  pipeLen : Nat → Nat := fun _ => 0
  pendingWakes : List Nat := []
  wakers : List Waker := []
  calls : Nat → Call := fun _ => .user

def maxOpenFiles : Nat := 64
def pipeBufSize : Nat := 4096

variable (state : State)

def State.watched (epfd : Nat) : List Nat := (state.epolls.lookup epfd).getD []

def State.pipeReadableForFd (fd : Nat) : Bool :=
  fd < maxOpenFiles && (state.readEnds fd).any fun pipe => 0 < state.pipeLen pipe

def State.ready (fd : Nat) : Bool :=
  match state.timers.lookup fd with
  | some timer => 0 < timer.pending
  | none => 0 < (state.eventfds.lookup fd).getD 0 || state.pipeReadableForFd fd

def State.become (pid : Nat) (call : Call) : State :=
  { state with calls := Function.update state.calls pid call }

def State.runs (pid : Nat) : Bool :=
  pid != 0 && (state.table.slotOf pid).pid == pid && (state.table.slotOf pid).state == .running

def Call.collected (args : Args) (fast : Bool) (start now count : Nat) : Call :=
  if fast then if 0 < count ∨ args.timeoutMs = 0 then .user else .registering args now
  else if 0 < count then .unregistering
  else .deciding args start

def State.collect (pid : Nat) (args : Args) (fast : Bool) (start now : Nat) : State :=
  if args.eventsOut = 0 ∨ args.maxevents ≤ 0 then
    state.become pid (Call.collected args fast start now 0)
  else state.become pid (.locking args fast start (state.watched args.epfd) now)

def State.expire (state : State) (fd now : Nat) : State :=
  { state with timers := Entries.modify state.timers fd fun timer => timer.expire now }

def State.scan (pid : Nat) (args : Args) (fast : Bool) (start now count : Nat) : List Nat → State
  | [] => { state.become pid (Call.collected args fast start now count) with timerLock := none }
  | fd :: rest =>
    if args.maxevents ≤ count then
      { state.become pid (Call.collected args fast start now count) with timerLock := none }
    else
      (state.expire fd now).become pid (.scanning args fast start rest now
        (if (state.expire fd now).ready fd then count + 1 else count))

inductive Input where
  | call (args : Args)
  | collect (now : Nat)
  | lock
  | scan
  | register
  | mark
  | timeout (now : Nat)
  /-- The spin window before init: another collection without another registration. -/
  | spin
  | park
  /-- No thread to switch to: the loop goes on after an interrupt. -/
  | halt
  | unregister
  | leave
  | resume

def State.advance (pid : Nat) (input : Input) : Option State :=
  match state.calls pid, input with
  | .user, .call args =>
    if state.runs pid then some (state.become pid (.collecting args true 0)) else none
  | .collecting args fast start, .collect now => some (state.collect pid args fast start now)
  | .locking args fast start rest now, .lock =>
    if state.timerLock = none then
      some { state.become pid (.scanning args fast start rest now 0) with timerLock := some pid }
    else none
  | .scanning args fast start rest now count, .scan =>
    some (state.scan pid args fast start now count rest)
  | .registering args start, .register =>
    some { state.become pid (.marking args start) with
      epollBlocked := Entries.erase state.epollBlocked pid ++ [(pid, args.epfd)] }
  | .marking args start, .mark =>
    some { state.become pid (.collecting args false start) with
      table := state.table.setState pid .blocked }
  | .deciding args start, .timeout now =>
    if ¬ args.infinite ∧ args.timeoutMs ≤ (now - start) / 1000000 then
      some (state.become pid .unregistering)
    else none
  | .deciding args start, .spin => some (state.become pid (.collecting args false start))
  | .deciding args _, .park => some (state.become pid (.parked args))
  | .deciding args start, .halt => some (state.become pid (.registering args start))
  | .unregistering, .unregister =>
    some { state.become pid .returning with
      epollBlocked := Entries.erase state.epollBlocked pid }
  | .returning, .leave =>
    some { state.become pid .user with table := state.table.setState pid .running }
  | .parked args, .resume =>
    if state.runs pid then some (state.become pid (.collecting args true 0)) else none
  | _, _ => none

def State.watchers (fd : Nat) : List Nat :=
  Entries.keysWhere state.epolls fun fds => decide (fd ∈ fds)

def State.registered (epfds : List Nat) : List Nat :=
  Entries.keysWhere state.epollBlocked fun epfd => decide (epfd ∈ epfds)

def State.wake (waker : Waker) : State :=
  let rest := state.wakers.erase waker
  match waker with
  | .fd fd tryOnly =>
    { state with
      wakers :=
        if state.watchers fd = [] then rest else .watching (state.watchers fd) tryOnly :: rest }
  | .watching epfds _ =>
    { state with
      epollBlocked := state.epollBlocked.filter fun entry => entry.1 ∉ state.registered epfds
      wakers := .waking (state.registered epfds) :: rest }
  | .waking [] => { state with wakers := rest }
  | .waking (pid :: pids) =>
    { state with
      pendingWakes := idxOf pid :: state.pendingWakes
      wakers := .waking pids :: rest }

def Waker.mayFail : Waker → Bool
  | .fd _ tryOnly | .watching _ tryOnly => tryOnly
  | .waking _ => false

/-! What changes readiness; the timers are not touched while a scan has their lock. -/

def State.raise (fds : List Nat) (tryOnly : Bool) : State :=
  { state with wakers := state.wakers ++ fds.map fun fd => .fd fd tryOnly }

def State.checkTimerfds (now : Nat) (tryOnly : Bool) : State :=
  State.raise
    { state with timers := state.timers.map fun entry => (entry.1, entry.2.expire now) }
    (Entries.keysWhere state.timers fun timer => timer.due now) tryOnly

def armTimer (pending flags : Nat) (spec : Itimerspec) (now : Nat) : TimerState :=
  let periodNs := nanoseconds spec.intervalSec spec.intervalNsec
  let valueNs := nanoseconds spec.valueSec spec.valueNsec
  let deadline :=
    if valueNs = 0 then 0 else if flags % 2 = 1 then valueNs else saturatingAdd now valueNs
  let expired := deadline ≠ 0 ∧ deadline ≤ now
  if expired ∧ periodNs = 0 then ⟨0, periodNs, saturatingAdd pending 1⟩
  else if expired then ⟨saturatingAdd now 1000000, periodNs, 0⟩
  else ⟨deadline, periodNs, 0⟩

def pendingOf (timers : List (Nat × TimerState)) (fd : Nat) : Nat :=
  ((timers.lookup fd).map TimerState.pending).getD 0

def State.settime (fd flags : Nat) (spec : Itimerspec) (now : Nat) : State :=
  let timer := armTimer (pendingOf state.timers fd) flags spec now
  State.raise { state with timers := Entries.insert state.timers fd timer } [fd] false

def State.timerfdRead (fd now : Nat) : State :=
  { state with
    timers := Entries.modify state.timers fd fun timer => { timer.expire now with pending := 0 } }

def State.addPending (fd count : Nat) : State :=
  State.raise
    { state with
      timers := Entries.modify state.timers fd fun timer =>
        { timer with pending := saturatingAdd timer.pending count } } [fd] false

def State.timerfdWrite (fd count : Nat) : State :=
  if (state.timers.lookup fd).isSome then state.addPending fd (max count 1) else state

/-- The tick that the first `epoll_wait` on descriptor 72 gives timer 73. -/
def State.bootstrap : State := state.addPending 73 1

def State.eventfdWrite (fd val : Nat) : State :=
  if (state.eventfds.lookup fd).isSome then
    State.raise
      { state with
        eventfds := Entries.modify state.eventfds fd fun count => saturatingAdd count (max val 1) }
      [fd] false
  else state

def State.eventfdRead (fd : Nat) : State :=
  { state with eventfds := Entries.modify state.eventfds fd fun _ => 0 }

def State.pipeWrite (pipe len : Nat) : State :=
  let written := min len (pipeBufSize - state.pipeLen pipe)
  if written = 0 then state
  else
    State.raise
      { state with pipeLen := Function.update state.pipeLen pipe (state.pipeLen pipe + written) }
      ((List.range maxOpenFiles).filter fun fd => state.readEnds fd = some pipe) false

def State.pipeRead (pipe len : Nat) : State :=
  { state with
    pipeLen := Function.update state.pipeLen pipe
      (state.pipeLen pipe - min len (state.pipeLen pipe)) }

/-- The descriptors an epoll list has after `epoll_ctl`: 2 is DEL, 1 and 3 are ADD and MOD. -/
def epollCtlList (op fd eventPtr : Nat) (fds : List Nat) : List Nat :=
  match op with
  | 2 => fds.filter fun entry => entry ≠ fd
  | 1 | 3 => if eventPtr = 0 ∨ fd ∈ fds then fds else fds ++ [fd]
  | _ => fds

def State.epollCtl (epfd op fd eventPtr : Nat) : State :=
  { state with
    epolls := Entries.insert state.epolls epfd (epollCtlList op fd eventPtr (state.watched epfd)) }

inductive Label where
  | advance (pid : Nat) (input : Input)
  | wake (waker : Waker)
  /-- The lock is taken and the interrupt gives the wake-up up. -/
  | giveUp (waker : Waker)
  | handlePendingWakes
  | forceWake (pid : Nat)
  | checkTimerfds (now : Nat) (tryOnly : Bool)
  | settime (fd flags : Nat) (spec : Itimerspec) (now : Nat)
  | timerfdRead (fd now : Nat)
  | timerfdWrite (fd count : Nat)
  | bootstrap
  | eventfdWrite (fd val : Nat)
  | eventfdRead (fd : Nat)
  | pipeWrite (pipe len : Nat)
  | pipeRead (pipe len : Nat)
  | epollCtl (epfd op fd eventPtr : Nat)

def State.withTimers (next : State) : Option State :=
  if state.timerLock = none then some next else none

def State.step : Label → Option State
  | .advance pid input => state.advance pid input
  | .wake waker => if waker ∈ state.wakers then some (state.wake waker) else none
  | .giveUp waker =>
    if waker ∈ state.wakers ∧ waker.mayFail then
      some { state with wakers := state.wakers.erase waker }
    else none
  | .handlePendingWakes =>
    some { state with
      table := state.pendingWakes.foldl Table.wakeSlot state.table
      pendingWakes := [] }
  | .forceWake pid => some { state with table := state.table.setState pid .running }
  | .checkTimerfds now tryOnly => state.withTimers (state.checkTimerfds now tryOnly)
  | .settime fd flags spec now => state.withTimers (state.settime fd flags spec now)
  | .timerfdRead fd now => state.withTimers (state.timerfdRead fd now)
  | .timerfdWrite fd count => state.withTimers (state.timerfdWrite fd count)
  | .bootstrap => state.withTimers state.bootstrap
  | .eventfdWrite fd val => some (state.eventfdWrite fd val)
  | .eventfdRead fd => some (state.eventfdRead fd)
  | .pipeWrite pipe len => some (state.pipeWrite pipe len)
  | .pipeRead pipe len => some (state.pipeRead pipe len)
  | .epollCtl epfd op fd eventPtr => some (state.epollCtl epfd op fd eventPtr)

def system : Runs.Machine State Label where
  start state := state.timerLock = none ∧ state.epollBlocked = [] ∧ state.pendingWakes = [] ∧
    state.wakers = [] ∧ state.calls = fun _ => .user
  step := State.step

end OsCortex.Epoll
