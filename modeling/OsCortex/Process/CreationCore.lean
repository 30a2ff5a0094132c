import OsCortex.Lib.Runs
import OsCortex.Process.TableCore

/-!
Process and thread creation as several kernel contexts interleave it. `alloc_pid` draws a pid with
an atomic increment and then looks at the slot; the slot is filled much later.
-/

namespace OsCortex.Creation

inductive Request where
  | spawn (bootstrap : SpawnBootstrap)
  | thread (parent stackSize : Nat)
  | clone (parent : Nat)
  | fork (parent : Nat)
  deriving DecidableEq

structure Inherited where
  pml4Phys : Nat := 0
  owner : Nat := 0
  deriving DecidableEq

inductive Phase where
  | idle
  /-- In the loop of `alloc_pid`, with `tries` iterations left. -/
  | drawing (request : Request) (inherited : Inherited) (tries : Nat)
  /-- `NEXT_PID.fetch_add` returned `pid`; the slot has not been looked at. -/
  | drawn (request : Request) (inherited : Inherited) (tries pid : Nat)
  /-- `alloc_pid` returned `pid`; memory is being set up. -/
  | allocated (request : Request) (inherited : Inherited) (pid : Nat)
  deriving DecidableEq

def Phase.pid? : Phase → Option Nat
  | .drawn _ _ _ pid => some pid
  | .allocated _ _ pid => some pid
  | _ => none

structure Resources where
  pml4Phys : Nat := 0
  stackBase : Nat := 0
  stackVa : Nat := 0
  tlsVa : Nat := 0

structure Kernel where
  table : Table
  nextPid : Nat
  phase : Nat → Phase
  overwritten : List Process

def boot : Kernel :=
  { table := Table.empty, nextPid := 1, phase := fun _ => .idle, overwritten := [] }

inductive Action where
  | request (context : Nat) (request : Request)
  | draw (context : Nat)
  | inspect (context : Nat)
  | abandon (context : Nat)
  | publish (context : Nat) (resources : Resources)
  | exit (pid : Nat) (code : Int)
  | waitpid (pid : Nat)
  | reapZombie (pid : Nat)
  | reapOneZombie (parent : Nat)
  | reapZombieChildren (parent : Nat)
  | setState (pid : Nat) (state : ProcState)

def Kernel.setPhase (kernel : Kernel) (context : Nat) (phase : Phase) : Kernel :=
  { kernel with phase := Function.update kernel.phase context phase }

def inherit (table : Table) : Request → Option Inherited
  | .spawn _ => some {}
  | .thread parent _ | .clone parent =>
    if table.holds parent then
      some { pml4Phys := (table.slotOf parent).pml4Phys, owner := table.getGroupLeader parent }
    else none
  | .fork parent => if parent = 0 then none else some { owner := parent }

def published (table : Table) (request : Request) (inherited : Inherited) (pid : Nat)
    (resources : Resources) : Process :=
  let slot := table.slotOf pid
  match request with
  | .spawn bootstrap => slot.spawned pid resources.pml4Phys resources.stackBase bootstrap
  | .thread _ stackSize =>
    slot.threadOf pid inherited.pml4Phys resources.stackBase inherited.owner
      (table.slotOf inherited.owner).caps resources.tlsVa resources.stackVa stackSize
  | .clone _ =>
    slot.threadOf pid inherited.pml4Phys resources.stackBase inherited.owner
      (table.slotOf inherited.owner).caps 0 0 0
  | .fork parent =>
    slot.forked pid resources.pml4Phys resources.stackBase parent (table.slotOf parent).caps

def Kernel.step (kernel : Kernel) : Action → Option Kernel
  | .request context request =>
    match kernel.phase context with
    | .idle =>
      match inherit kernel.table request with
      | some inherited => some (kernel.setPhase context (.drawing request inherited maxProcs))
      | none => some kernel
    | _ => none
  | .draw context =>
    match kernel.phase context with
    | .drawing _ _ 0 => some (kernel.setPhase context .idle)
    | .drawing request inherited (tries + 1) =>
      some {
        kernel.setPhase context (.drawn request inherited tries kernel.nextPid) with
        nextPid := (kernel.nextPid + 1) % 2 ^ 32 }
    | _ => none
  | .inspect context =>
    match kernel.phase context with
    | .drawn request inherited tries pid =>
      if (kernel.table.slotOf pid).state = .dead then
        some (kernel.setPhase context (.allocated request inherited pid))
      else some (kernel.setPhase context (.drawing request inherited tries))
    | _ => none
  | .abandon context =>
    match kernel.phase context with
    | .allocated _ _ _ => some (kernel.setPhase context .idle)
    | _ => none
  | .publish context resources =>
    match kernel.phase context with
    | .allocated request inherited pid =>
      let slot := kernel.table.slotOf pid
      some {
        kernel.setPhase context .idle with
        table := kernel.table.write pid
          (published kernel.table request inherited pid resources)
        overwritten :=
          if slot.state = .dead then kernel.overwritten else slot :: kernel.overwritten }
    | _ => none
  | .exit pid code => some { kernel with table := kernel.table.markExited pid code }
  | .waitpid pid => some { kernel with table := (kernel.table.waitpid pid).1 }
  | .reapZombie pid => some { kernel with table := kernel.table.reapZombie pid }
  | .reapOneZombie parent => some { kernel with table := (kernel.table.reapOneZombie parent).1 }
  | .reapZombieChildren parent =>
    some { kernel with table := kernel.table.reapZombieChildren parent }
  | .setState pid state =>
    if kernel.table.holds pid ∧ state ≠ .dead then
      some { kernel with table := kernel.table.setState pid state }
    else none

def system : Runs.Machine Kernel Action where
  start kernel := kernel = boot
  step := Kernel.step

end OsCortex.Creation
