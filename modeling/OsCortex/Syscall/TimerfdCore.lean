import OsCortex.Lib.Runs

/-!
The timerfd table of `syscall/poll.rs` and the three places that advance a timer: the timer tick,
the epoll scan and `read`. Times are nanoseconds.
-/

namespace OsCortex.Timerfd

structure TimerState where
  deadlineNs : Nat
  periodNs : Nat
  pending : Nat
  deriving DecidableEq

def saturatingAdd (a b : Nat) : Nat := min (a + b) (2 ^ 64 - 1)

def saturatingMul (a b : Nat) : Nat := min (a * b) (2 ^ 64 - 1)

variable (timer : TimerState)

def TimerState.elapsedPeriods (now : Nat) : Nat := 1 + (now - timer.deadlineNs) / timer.periodNs

def TimerState.due (now : Nat) : Bool := timer.deadlineNs != 0 && decide (timer.deadlineNs ≤ now)

/-- The step all three observers make; the product and `1 + ..` wrap. -/
def TimerState.expire (now : Nat) : TimerState :=
  if timer.due now then
    if timer.periodNs ≠ 0 then
      let n := timer.elapsedPeriods now % 2 ^ 64
      { timer with
        deadlineNs := saturatingAdd timer.deadlineNs (n * timer.periodNs % 2 ^ 64)
        pending := saturatingAdd timer.pending n }
    else { timer with deadlineNs := 0, pending := saturatingAdd timer.pending 1 }
  else timer

structure State where
  timers : Nat → Option TimerState
  /-- The time of the last observation since the timer was armed. -/
  seen : Nat → Option Nat
  /-- The sum of the counts that reads returned since then. -/
  returned : Nat → Nat
  clock : Nat

variable (state : State)

def State.set (fd : Nat) (timer : TimerState) : State :=
  { state with timers := fun other => if other = fd then some timer else state.timers other }

def State.observe (now fd : Nat) (timer : TimerState) : State :=
  { state.set fd (timer.expire now) with
    seen := fun other => if other = fd then some now else state.seen other }

def State.checkTimerfds (now : Nat) : State :=
  { state with
    timers := fun fd => (state.timers fd).map fun timer => timer.expire now
    seen := fun fd => if (state.timers fd).isSome then some now else state.seen fd }

def State.collectReady (readable : Nat → Bool) (maxevents : Int) (now : Nat) :
    List Nat → Int → State → State × Int
  | [], count, state => (state, count)
  | fd :: rest, count, state =>
    if count ≥ maxevents then (state, count)
    else
      match state.timers fd with
      | some timer =>
        let ready := (timer.expire now).pending > 0
        State.collectReady readable maxevents now rest (if ready then count + 1 else count)
          (state.observe now fd timer)
      | none =>
        State.collectReady readable maxevents now rest
          (if readable fd then count + 1 else count) state

def State.epollCollectReady (watched : Option (List Nat)) (readable : Nat → Bool)
    (eventsOut : Nat) (maxevents : Int) (now : Nat) : State × Int :=
  if eventsOut = 0 ∨ maxevents ≤ 0 then (state, 0)
  else
    match watched with
    | some entries => state.collectReady readable maxevents now entries 0
    | none => (state, 0)

def State.drain (fd : Nat) (timer : TimerState) : State :=
  { state.set fd { timer with pending := 0 } with
    returned := fun other =>
      if other = fd then state.returned fd + timer.pending else state.returned other }

/-- The timerfd part of `sys_read`: an errno or the count written to the buffer; `none` if the
descriptor is no timer. -/
def State.read (fd bufPtr len now : Nat) : State × Option (Except Int Nat) :=
  if len = 0 then (state, some (.ok 0))
  else if bufPtr = 0 then (state, some (.error (-14)))
  else
    match state.timers fd with
    | none => (state, none)
    | some timer =>
      if len < 8 then (state, some (.error (-22)))
      else
        let state := state.observe now fd timer
        let timer := timer.expire now
        if timer.pending > 0 then (state.drain fd timer, some (.ok timer.pending))
        else (state, some (.error (-11)))

structure Itimerspec where
  intervalSec : Int
  intervalNsec : Int
  valueSec : Int
  valueNsec : Int

def nanoseconds (sec nsec : Int) : Nat :=
  saturatingAdd (saturatingMul (max sec 0).toNat 1000000000) (max nsec 0).toNat

def State.settime (fd flags : Nat) (spec : Itimerspec) (now : Nat) : State :=
  let periodNs := nanoseconds spec.intervalSec spec.intervalNsec
  let valueNs := nanoseconds spec.valueSec spec.valueNsec
  let deadline :=
    if valueNs = 0 then 0 else if flags % 2 = 1 then valueNs else saturatingAdd now valueNs
  let expired := deadline ≠ 0 ∧ deadline ≤ now
  let pending := ((state.timers fd).map TimerState.pending).getD 0
  let timer : TimerState :=
    if expired ∧ periodNs = 0 then ⟨0, periodNs, saturatingAdd pending 1⟩
    else if expired then ⟨saturatingAdd now 1000000, periodNs, 0⟩
    else ⟨deadline, periodNs, 0⟩
  { state.set fd timer with
    seen := fun other => if other = fd then none else state.seen other
    returned := fun other => if other = fd then 0 else state.returned other }

def State.write (fd bufPtr len count : Nat) : State :=
  match state.timers fd with
  | some timer =>
    let added := if len ≥ 8 ∧ bufPtr ≠ 0 then max count 1 else 1
    state.set fd { timer with pending := saturatingAdd timer.pending added }
  | none => state

def State.forceWake : State :=
  { state with
    timers := fun fd => (state.timers fd).map fun timer =>
      if timer.pending = 0 then { timer with pending := 1 } else timer }

/-- The tick that the first `epoll_wait` on descriptor 72 gives timer 73. -/
def State.bootstrap : State :=
  match state.timers 73 with
  | some timer => state.set 73 { timer with pending := saturatingAdd timer.pending 1 }
  | none => state

inductive Call where
  | tick (now : Nat)
  | scan (watched : Option (List Nat)) (readable : Nat → Bool) (eventsOut : Nat) (maxevents : Int)
      (now : Nat)
  | read (fd bufPtr len now : Nat)
  | settime (fd flags : Nat) (spec : Itimerspec) (now : Nat)
  | write (fd bufPtr len count : Nat)
  | forceWake
  | bootstrap

def State.step : Call → State
  | .tick now => { state.checkTimerfds now with clock := now }
  | .scan watched readable eventsOut maxevents now =>
    { (state.epollCollectReady watched readable eventsOut maxevents now).1 with clock := now }
  | .read fd bufPtr len now => { (state.read fd bufPtr len now).1 with clock := now }
  | .settime fd flags spec now => { state.settime fd flags spec now with clock := now }
  | .write fd bufPtr len count => state.write fd bufPtr len count
  | .forceWake => state.forceWake
  | .bootstrap => state.bootstrap

structure Armed (fd first period : Nat) (state : State) : Prop where
  timer : state.timers fd = some ⟨first, period, 0⟩
  seen : state.seen fd = none
  returned : state.returned fd = 0

def system (fd first period : Nat) : Runs.Machine State Call where
  start := Armed fd first period
  step := fun state call => some (state.step call)

end OsCortex.Timerfd
