import OsCortex.Lib.Circular
import OsCortex.Lib.Scan

/-! The event queue of `wm/mod.rs`, a ring of events that are each for one process or for all. -/

namespace OsCortex.Wm

open Circular

def eventCap : Nat := 256

instance : NeZero eventCap := ⟨by decide⟩

def evVsync : Nat := 1

def evPointer : Nat := 2

def evKey : Nat := 3

/-- `kind` is any `u32`: `wm_event_inject` and the drivers use more kinds than the queue knows. -/
structure WmEvent where
  seq : Nat := 0
  kind : Nat := 0
  flags : Nat := 0
  a : Nat := 0
  b : Nat := 0
deriving DecidableEq

/-- Owner 0 stands for all processes. -/
def ownerVisibleToConsumer (ownerPid consumerPid : Nat) : Bool :=
  ownerPid == 0 || ownerPid == consumerPid

structure Entry where
  event : WmEvent
  owner : Nat
deriving DecidableEq

namespace Entry

def visible (pid : Nat) (entry : Entry) : Bool := ownerVisibleToConsumer entry.owner pid

variable (entry : Entry)

def isBaton : Bool := entry.event.kind == evVsync && entry.event.b != 0

def isInput : Bool := entry.event.kind == evPointer || entry.event.kind == evKey

def isTick : Bool := entry.event.kind == evVsync && entry.event.b == 0

def isPointer : Bool := entry.event.kind == evPointer

end Entry

structure EventQueue where
  buf : Fin eventCap → WmEvent := fun _ => {}
  ownerPid : Fin eventCap → Nat := fun _ => 0
  head : Nat := 0
  tail : Nat := 0
  len : Nat := 0
  nextSeq : Nat := 1
  dropped : Nat := 0

def seqAfter (seq : Nat) : Nat := max ((seq + 1) % 2 ^ 64) 1

namespace EventQueue

variable (q : EventQueue)

def cells (idx : Fin eventCap) : Entry := ⟨q.buf idx, q.ownerPid idx⟩

def write (idx : Fin eventCap) (entry : Entry) : EventQueue :=
  { q with
    buf := Function.update q.buf idx entry.event
    ownerPid := Function.update q.ownerPid idx entry.owner }

def scan (hit : Entry → Bool) : Option Nat :=
  (List.range q.len).find? fun off => hit (q.cells (slot eventCap (q.head + off)))

def pendingTick (entry : Entry) : Option Nat :=
  if entry.isTick then q.scan fun old => old.isTick && old.owner == entry.owner else none

def tailIdx : Fin eventCap := slot eventCap (q.tail + eventCap - 1)

def continuesPointer (entry : Entry) : Bool :=
  entry.isPointer && decide (0 < q.len) && (q.cells q.tailIdx).isPointer &&
    (q.cells q.tailIdx).owner == entry.owner &&
    (q.cells q.tailIdx).event.flags == entry.event.flags

def mergedPointer (old new : WmEvent) : WmEvent := { old with a := new.a, b := old.b ||| new.b }

def dropOldest : EventQueue :=
  if q.len = eventCap then
    { q with
      head := (q.head + 1) % eventCap
      len := q.len - 1
      dropped := (q.dropped + 1) % 2 ^ 64 }
  else q

def append (entry : Entry) : EventQueue :=
  { q.write (slot eventCap q.tail) entry with
    tail := (q.tail + 1) % eventCap
    len := q.len + 1 }

def accept (entry : Entry) : EventQueue :=
  match q.pendingTick entry with
  | some off =>
    let idx := slot eventCap (q.head + off)
    { q with buf := Function.update q.buf idx { q.buf idx with a := entry.event.a } }
  | none =>
    if q.continuesPointer entry then
      { q with
        buf := Function.update q.buf q.tailIdx (mergedPointer (q.buf q.tailIdx) entry.event) }
    else q.dropOldest.append entry

def push (ev : WmEvent) (ownerPid : Nat) : EventQueue :=
  { q with nextSeq := seqAfter q.nextSeq }.accept ⟨{ ev with seq := q.nextSeq }, ownerPid⟩

def dropNewest : EventQueue :=
  if q.len = eventCap then
    { q with
      tail := (q.tail + eventCap - 1) % eventCap
      len := q.len - 1
      dropped := (q.dropped + 1) % 2 ^ 64 }
  else q

def prepend (entry : Entry) : EventQueue :=
  let head := (q.head + eventCap - 1) % eventCap
  { q.write (slot eventCap head) entry with
    head
    len := q.len + 1 }

def pushFront (ev : WmEvent) (ownerPid : Nat) : EventQueue :=
  { q with nextSeq := seqAfter q.nextSeq }.dropNewest.prepend
    ⟨{ ev with seq := q.nextSeq }, ownerPid⟩

def findFor (pid : Nat) : Option Nat :=
  ((q.scan fun entry => entry.visible pid && entry.isBaton).or
    (q.scan fun entry => entry.visible pid && entry.isInput)).or
    (q.scan fun entry => entry.visible pid)

def shiftLeft (q : EventQueue) : (off count : Nat) → EventQueue
  | _, 0 => q
  | off, count + 1 =>
    let next := q.cells (slot eventCap (q.head + (off + 1)))
    (q.write (slot eventCap (q.head + off)) next).shiftLeft (off + 1) count

def popFor (pid : Nat) : EventQueue × Option WmEvent :=
  if q.len = 0 then (q, none)
  else
    match q.findFor pid with
    | none => (q, none)
    | some off =>
      let ev := q.buf (slot eventCap (q.head + off))
      let shifted := q.shiftLeft off (q.len - 1 - off)
      ({ shifted with
          tail := (shifted.tail + eventCap - 1) % eventCap
          len := shifted.len - 1 },
        some ev)

def pendingFor (pid : Nat) : Nat :=
  (List.range q.len).countP fun off => (q.cells (slot eventCap (q.head + off))).visible pid

def hasBatonVsyncFor (pid : Nat) : Bool :=
  (List.range q.len).any fun off =>
    let entry := q.cells (slot eventCap (q.head + off))
    entry.visible pid && entry.isBaton

def taken (pid : Nat) : Option Entry :=
  (q.findFor pid).map fun off => q.cells (slot eventCap (q.head + off))

end EventQueue

inductive Call where
  | push (ev : WmEvent) (ownerPid : Nat)
  | pushFront (ev : WmEvent) (ownerPid : Nat)
  | popFor (pid : Nat)

structure Observed where
  queue : EventQueue := {}
  pushed : List Entry := []
  popped : List Entry := []

namespace Observed

def call (seen : Observed) : Call → Observed
  | .push ev ownerPid =>
    { seen with
      queue := seen.queue.push ev ownerPid
      pushed := seen.pushed ++ [⟨ev, ownerPid⟩] }
  | .pushFront ev ownerPid =>
    { seen with
      queue := seen.queue.pushFront ev ownerPid
      pushed := seen.pushed ++ [⟨ev, ownerPid⟩] }
  | .popFor pid =>
    { seen with
      queue := (seen.queue.popFor pid).1
      popped := seen.popped ++ (seen.queue.taken pid).toList }

def after (calls : List Call) : Observed := calls.foldl call {}

end Observed

end OsCortex.Wm
