import OsCortex.Lib.Runs

/-!
The open-file table and the pipes of `syscall/tables.rs` with the system calls on them. Both tables
are global. Of the descriptors from `MAX_OPEN_FILES` on a read fails here, and a write to them is
dropped.
-/

namespace OsCortex.Descriptor

structure OpenFile where
  data : List UInt8 := []
  offset : Nat := 0
  used : Bool := false
  isDir : Bool := false
  dirPath : List UInt8 := []
  /-- `none` is `-1`. -/
  pipeId : Option Nat := none
  pipeIsWrite : Bool := false
  deriving DecidableEq

def maxOpenFiles : Nat := 64
def maxPipes : Nat := 32
def pipeBufSize : Nat := 4096

structure PipeBuf where
  buf : Nat → UInt8 := fun _ => 0
  head : Nat := 0
  tail : Nat := 0
  len : Nat := 0
  rRefs : Nat := 0
  wRefs : Nat := 0

structure State where
  files : Nat → OpenFile := fun _ => {}
  pipes : Nat → PipeBuf := fun _ => {}
  /-- The process whose call took the descriptor; the kernel does not record it. -/
  opener : Nat → Nat := fun _ => 0
  exited : List Nat := []

structure Reply where
  code : Int
  delivered : List UInt8 := []

variable (state : State)

def State.setFile (fd : Nat) (file : OpenFile) : State :=
  { state with files := Function.update state.files fd file }

def State.setPipe (pipe : Nat) (value : PipeBuf) : State :=
  { state with pipes := Function.update state.pipes pipe value }

def State.freeFds : List Nat :=
  (List.range' 3 (maxOpenFiles - 3)).filter fun fd => !(state.files fd).used

def State.take (caller fd : Nat) (file : OpenFile) : State :=
  { state.setFile fd file with opener := Function.update state.opener fd caller }

def State.fdAllocFile (caller : Nat) (file : OpenFile) : State × Reply :=
  match state.freeFds with
  | fd :: _ => (state.take caller fd file, { code := fd })
  | [] => (state, { code := -23 })

def State.fdAlloc (caller : Nat) (data : List UInt8) : State × Reply :=
  state.fdAllocFile caller { data, used := true }

def State.fdAllocDir (caller : Nat) (path : List UInt8) : State × Reply :=
  state.fdAllocFile caller { used := true, isDir := true, dirPath := path.take 192 }

inductive Lookup where
  | unreadable
  | notUtf8
  | file (data : List UInt8)
  | dir (path : List UInt8)
  | absent

def State.sysOpen (caller : Nat) : Lookup → State × Reply
  | .unreadable => (state, { code := -14 })
  | .notUtf8 => (state, { code := -22 })
  | .file data => state.fdAlloc caller data
  | .dir path => state.fdAllocDir caller path
  | .absent => (state, { code := -2 })

def State.freePipe : Option Nat :=
  (List.range maxPipes).find? fun pipe =>
    (state.pipes pipe).rRefs = 0 ∧ (state.pipes pipe).wRefs = 0

def State.sysPipe2 (caller pipefd : Nat) : State × Reply :=
  if pipefd = 0 then (state, { code := -14 })
  else
    match state.freePipe with
    | none => (state, { code := -23 })
    | some pipe =>
      let fresh := { state.pipes pipe with head := 0, tail := 0, len := 0, rRefs := 1, wRefs := 1 }
      let readEnd : OpenFile := { used := true, pipeId := some pipe }
      match state.freeFds with
      | readFd :: writeFd :: _ =>
        (((state.setPipe pipe fresh).take caller readFd readEnd).take caller writeFd
          { readEnd with pipeIsWrite := true }, { code := 0 })
      | readFd :: [] =>
        ((state.setPipe pipe { fresh with rRefs := 0, wRefs := 0 }).setFile readFd
          { readEnd with used := false, pipeId := none }, { code := -23 })
      | [] => (state.setPipe pipe { fresh with rRefs := 0, wRefs := 0 }, { code := -23 })

def PipeBuf.push (pipe : PipeBuf) (byte : UInt8) : PipeBuf :=
  { pipe with
    buf := Function.update pipe.buf pipe.tail byte
    tail := (pipe.tail + 1) % pipeBufSize }

def PipeBuf.pop : Nat → PipeBuf → PipeBuf × List UInt8
  | 0, pipe => (pipe, [])
  | count + 1, pipe =>
    let (rest, bytes) := PipeBuf.pop count { pipe with head := (pipe.head + 1) % pipeBufSize }
    (rest, pipe.buf pipe.head :: bytes)

def State.sysRead (fd buf len : Nat) : State × Reply :=
  if len = 0 then (state, { code := 0 })
  else if buf = 0 then (state, { code := -14 })
  else if maxOpenFiles ≤ fd ∨ (state.files fd).used = false then (state, { code := -9 })
  else
    let file := state.files fd
    match file.pipeId with
    | some pipe =>
      if file.pipeIsWrite then (state, { code := -9 })
      else if (state.pipes pipe).len = 0 then
        (state, { code := if (state.pipes pipe).wRefs = 0 then 0 else -11 })
      else
        let count := min len (state.pipes pipe).len
        let (popped, bytes) := PipeBuf.pop count (state.pipes pipe)
        (state.setPipe pipe { popped with len := popped.len - count },
          { code := count, delivered := bytes })
    | none =>
      if file.data.length ≤ file.offset then (state, { code := 0 })
      else
        let bytes := (file.data.drop file.offset).take len
        (state.setFile fd { file with offset := file.offset + bytes.length },
          { code := bytes.length, delivered := bytes })

def badBuffer (buf len : Nat) : Bool := buf = 0 || 0x2000000 < len

/-- `src` is what the caller's buffer holds. What is not a pipe goes to the console. -/
def State.sysWrite (fd buf : Nat) (src : List UInt8) : State × Reply :=
  let console := (state, { code := if badBuffer buf src.length then -14 else src.length })
  if maxOpenFiles ≤ fd then (state, { code := src.length })
  else if 3 ≤ fd ∧ (state.files fd).used = true then
    match (state.files fd).pipeId with
    | none => console
    | some pipe =>
      if (state.files fd).pipeIsWrite = false then (state, { code := -9 })
      else if badBuffer buf src.length then (state, { code := -14 })
      else if (state.pipes pipe).rRefs = 0 then (state, { code := -32 })
      else
        let count := min src.length (pipeBufSize - (state.pipes pipe).len)
        let pushed := (src.take count).foldl PipeBuf.push (state.pipes pipe)
        (state.setPipe pipe { pushed with len := pushed.len + count },
          { code := if count = 0 then -11 else count })
  else console

/-- The sums are of `i64`. -/
def newOffset (file : OpenFile) (offset : Int) (whence : Nat) : Option Int :=
  match whence with
  | 0 => some offset
  | 1 => some (Int.bmod (file.offset + offset) (2 ^ 64))
  | 2 => some (Int.bmod (file.data.length + offset) (2 ^ 64))
  | _ => none

def State.sysLseek (fd : Nat) (offset : Int) (whence : Nat) : State × Reply :=
  if fd < 3 ∨ maxOpenFiles ≤ fd ∨ (state.files fd).used = false then (state, { code := -9 })
  else
    match newOffset (state.files fd) offset whence with
    | none => (state, { code := -22 })
    | some target =>
      if target < 0 then (state, { code := -22 })
      else (state.setFile fd { state.files fd with offset := target.toNat }, { code := target })

def State.sysClose (fd : Nat) : State × Reply :=
  if fd < 3 ∨ maxOpenFiles ≤ fd ∨ (state.files fd).used = false then (state, { code := 0 })
  else
    let file := state.files fd
    let closed := state.setFile fd { file with pipeId := none, used := false, data := [], offset := 0 }
    match file.pipeId with
    | none => (closed, { code := 0 })
    | some pipe =>
      let ends := state.pipes pipe
      (closed.setPipe pipe
        (if file.pipeIsWrite then { ends with wRefs := ends.wRefs - 1 }
        else { ends with rRefs := ends.rRefs - 1 }), { code := 0 })

inductive Call where
  | openPath (lookup : Lookup)
  | pipe2 (pipefd : Nat)
  | read (fd buf len : Nat)
  | write (fd buf : Nat) (src : List UInt8)
  | lseek (fd : Nat) (offset : Int) (whence : Nat)
  | close (fd : Nat)
  /-- `sys_exit` of the last thread of the process; it does not look at the tables. -/
  | exit

def State.perform (caller : Nat) : Call → State × Reply
  | .openPath lookup => state.sysOpen caller lookup
  | .pipe2 pipefd => state.sysPipe2 caller pipefd
  | .read fd buf len => state.sysRead fd buf len
  | .write fd buf src => state.sysWrite fd buf src
  | .lseek fd offset whence => state.sysLseek fd offset whence
  | .close fd => state.sysClose fd
  | .exit => ({ state with exited := caller :: state.exited }, { code := 0 })

def system : Runs.Machine State (Nat × Call) where
  start state := state = {}
  step state label :=
    if label.1 ∈ state.exited then none else some (state.perform label.1 label.2).1

end OsCortex.Descriptor
