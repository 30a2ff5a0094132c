import OsCortex.Lib.Runs

/-!
The block driver (`drivers/virtio_blk.rs`) and the device. There is one request header, data buffer
and status byte, whatever is in flight; the device serves the requests at any pace and in any order.
`Data` is what a sector holds.
-/

namespace OsCortex.VirtioBlk

inductive ReqType where
  | read
  | write
deriving DecidableEq

structure ReqHdr where
  typ : ReqType
  sector : Nat
deriving DecidableEq

inductive BlkError where
  | notReady
  | tooSmall
  | readOnly
  | timeout
  | ioError
deriving DecidableEq

variable (Data : Type)

inductive Progress where
  | taken
  | moved (ok : Bool) (content : Data)
  | answered (ok : Bool) (content : Data)

/-- `id` counts the requests in the order in which they were made available. -/
structure Job where
  id : Nat
  hdr : ReqHdr
  progress : Progress Data

structure Completion where
  id : Nat
  hdr : ReqHdr
  ok : Bool
  content : Data

inductive Phase where
  | issue
  /-- The header and the status are written. -/
  | publish
  | poll (id spins : Nat)
  /-- The used index has changed. -/
  | check (id : Nat)
  /-- The status was 0. -/
  | copy (id : Nat)
deriving DecidableEq

structure Call where
  typ : ReqType
  sector : Nat
  count : Nat
  src : List Data
  out : List Data := []
  ids : List Nat := []
  phase : Phase := .issue
deriving DecidableEq

structure State where
  ready : Bool
  readOnly : Bool
  hdr : ReqHdr
  status : Nat
  data : Data
  usedIdx : Nat
  blkUsedIdx : Nat
  /-- Requests made available so far; the index in the ring is its value mod 2 ^ 16. -/
  issued : Nat
  fetched : Nat
  jobs : List (Job Data)
  disk : Nat → Data
  completed : List (Completion Data)
  call : Option (Call Data)
  returns : List (Call Data × Except BlkError Unit)

inductive Label where
  /-- `room` is the number of sectors that the buffer of the caller holds. -/
  | readSectors (sector count room : Nat)
  | writeSectors (sector count : Nat) (src : List Data)
  | driver (spins : Nat)
  | take
  /-- The device moves the data of a request, or fails and leaves anything behind. -/
  | move (id : Nat) (ok : Bool) (debris : Data)
  | answer (id : Nat)
  | use (id : Nat)

variable {Data}

def maxSpins : Nat := 5000000

def Call.next (call : Call Data) : Option Data := call.src[call.ids.length]?

namespace State

variable (state : State Data)

def finish (call : Call Data) (result : Except BlkError Unit) : State Data :=
  { state with
    call := none
    returns := state.returns ++ [(call, result)] }

def moveTo (call : Call Data) (phase : Phase) : State Data :=
  { state with call := some { call with phase } }

def start (call : Call Data) (room : Nat) : Option (State Data) :=
  if ¬ state.ready then some (state.finish call (.error .notReady))
  else if call.typ = .write ∧ state.readOnly then some (state.finish call (.error .readOnly))
  else if room < call.count then some (state.finish call (.error .tooSmall))
  else some { state with call := some call }

def writeRequest (call : Call Data) : State Data :=
  { state with
    hdr := ⟨call.typ, (call.sector + call.ids.length) % 2 ^ 64⟩
    status := 0xFF
    data := match call.typ with
      | .read => state.data
      | .write => call.next.getD state.data }

def driver (call : Call Data) (spins : Nat) : Option (State Data) :=
  match call.phase with
  | .issue =>
    if call.ids.length = call.count then some (state.finish call (.ok ()))
    else some ((state.writeRequest call).moveTo call .publish)
  | .publish =>
    some ({ state with issued := state.issued + 1 }.moveTo
      { call with ids := call.ids ++ [state.issued] } (.poll state.issued 0))
  | .poll id spun =>
    if state.usedIdx ≠ state.blkUsedIdx then
      some ({ state with blkUsedIdx := state.usedIdx }.moveTo call (.check id))
    else if maxSpins < spun + spins then some (state.finish call (.error .timeout))
    else some (state.moveTo call (.poll id (spun + spins)))
  | .check id =>
    if state.status ≠ 0 then some (state.finish call (.error .ioError))
    else some (state.moveTo call (.copy id))
  | .copy _ =>
    match call.typ with
    | .read => some (state.moveTo { call with out := call.out ++ [state.data] } .issue)
    | .write => some (state.moveTo call .issue)

def take : Option (State Data) :=
  if state.fetched < state.issued then
    some { state with
      fetched := state.fetched + 1
      jobs := state.jobs ++ [{ id := state.fetched, hdr := state.hdr, progress := .taken }] }
  else none

def setProgress (id : Nat) (progress : Progress Data) : State Data :=
  { state with
    jobs := state.jobs.map fun job => if job.id = id then { job with progress } else job }

def transfer (hdr : ReqHdr) (ok : Bool) (debris : Data) : State Data :=
  match hdr.typ with
  | .read => { state with data := if ok then state.disk hdr.sector else debris }
  | .write =>
    { state with
      disk := Function.update state.disk hdr.sector (if ok then state.data else debris) }

def moved (hdr : ReqHdr) : Data :=
  match hdr.typ with
  | .read => state.disk hdr.sector
  | .write => state.data

def device (id : Nat) (act : Job Data → Option (State Data)) : Option (State Data) :=
  match state.jobs.find? fun job => job.id == id with
  | none => none
  | some job => act job

def move (id : Nat) (ok : Bool) (debris : Data) : Option (State Data) :=
  state.device id fun job =>
    match job.progress with
    | .taken =>
      some ((state.transfer job.hdr ok debris).setProgress id (.moved ok (state.moved job.hdr)))
    | .moved _ _ | .answered _ _ => none

def answer (id : Nat) : Option (State Data) :=
  state.device id fun job =>
    match job.progress with
    | .moved ok content =>
      some ({ state with status := if ok then 0 else 1 }.setProgress id (.answered ok content))
    | .taken | .answered _ _ => none

def use (id : Nat) : Option (State Data) :=
  state.device id fun job =>
    match job.progress with
    | .answered ok content =>
      some { state with
        usedIdx := (state.usedIdx + 1) % 2 ^ 16
        jobs := state.jobs.filter fun job => job.id ≠ id
        completed := state.completed ++ [{ id, hdr := job.hdr, ok, content }] }
    | .taken | .moved _ _ => none

def step : Label Data → Option (State Data)
  | .readSectors sector count room =>
    if state.call.isSome then none
    else state.start { typ := .read, sector, count, src := [] } room
  | .writeSectors sector count src =>
    if state.call.isSome then none
    else state.start { typ := .write, sector, count, src } src.length
  | .driver spins =>
    match state.call with
    | none => none
    | some call => state.driver call spins
  | .take => state.take
  | .move id ok debris => state.move id ok debris
  | .answer id => state.answer id
  | .use id => state.use id

def initial (ready readOnly : Bool) (data : Data) (disk : Nat → Data) : State Data :=
  { ready, readOnly, hdr := ⟨.read, 0⟩, status := 0, data, usedIdx := 0, blkUsedIdx := 0
    issued := 0, fetched := 0, jobs := [], disk, completed := [], call := none, returns := [] }

end State

def machine (Data : Type) : Runs.Machine (State Data) (Label Data) where
  start state := ∃ ready readOnly data disk, state = .initial ready readOnly data disk
  step := State.step

end OsCortex.VirtioBlk
