import OsCortex.Lib.Access
import OsCortex.Lib.Bytes
import OsCortex.Syscall.DescriptorCore
import OsCortex.Syscall.EpollCore

/-!
The system calls that take pointers, as programs on the memory the caller sees: the kernel is mapped
in the upper half of every address space. Structures have the x86-64 layout.
-/

namespace OsCortex.UserPointer

open Access
open Timerfd (TimerState saturatingAdd Itimerspec)
open Descriptor (OpenFile PipeBuf Lookup badBuffer maxOpenFiles pipeBufSize)

def userTop : Nat := 0x800000000000

structure EpollEntry where
  fd : Nat
  events : Nat
  data : Nat
  deriving DecidableEq

structure Kernel where
  descriptors : Descriptor.State := {}
  timers : List (Nat × TimerState) := []
  eventfds : List (Nat × Nat) := []
  epolls : List (Nat × List EpollEntry) := []
  fsBase : Nat := 0
  clipboard : List UInt8 := []
  ctlLog : Nat := 0
  readyLog : Nat := 0

structure Environment where
  caller : Nat
  now : Nat
  validUtf8 : List UInt8 → Bool
  lookup : List UInt8 → Option (List UInt8)
  isDir : List UInt8 → Bool
  spawn : List UInt8 → List UInt8 → Option Nat

/-- What a call returns; a length cast to `i64` is a value even when it is negative. -/
inductive Reply where
  | value (result : Int)
  | error (errno : Int)
  | panic
  | blocks
  | switched
  deriving DecidableEq

def Reply.ofCode (code : Int) : Reply := if code < 0 then .error code else .value code

def asI64 (value : Nat) : Int := Int.bmod value (2 ^ 64)

def offsetBy (addr offset : Nat) : Nat := (addr + offset) % addressSpace

def loadLe (addr width : Nat) : Program Nat := do
  let bytes ← loadBytes addr width
  return Bytes.ofLe bytes

def storeLe (addr width value : Nat) : Program Unit := storeBytes addr (Bytes.leBytes width value)

variable (env : Environment) (kernel : Kernel)

/-! `syscall/handlers/fd.rs`. A slice that `read_user_bytes` grants is loaded where it is used. -/

def readUserBytes (ptr len : Nat) : Option (Program (List UInt8)) :=
  if badBuffer ptr len then none else some (loadBytes ptr len)

def writeUserBytes (ptr : Nat) (src : List UInt8) : Program Bool :=
  if badBuffer ptr src.length then pure false
  else do
    storeBytes ptr src
    return true

def loadCount (buf len : Nat) : Program Nat :=
  if 8 ≤ len ∧ buf ≠ 0 then loadLe buf 8 else pure 1

def timerfdWrite (fd buf len : Nat) : Program (Kernel × Reply) := do
  let count ← loadCount buf len
  let timers := Entries.modify kernel.timers fd fun timer =>
    { timer with pending := saturatingAdd timer.pending (max count 1) }
  return ({ kernel with timers }, .value (asI64 len))

def eventfdWrite (fd buf len : Nat) : Program (Kernel × Reply) := do
  let val ← loadCount buf len
  let eventfds := Entries.modify kernel.eventfds fd fun count => saturatingAdd count (max val 1)
  return ({ kernel with eventfds }, .value (asI64 len))

def pipeWrite (pipe buf len : Nat) : Program (Kernel × Reply) :=
  match readUserBytes buf len with
  | none => pure (kernel, .error (-14))
  | some _ =>
    let ends := kernel.descriptors.pipes pipe
    if ends.rRefs = 0 then pure (kernel, .error (-32))
    else do
      let count := min len (pipeBufSize - ends.len)
      let bytes ← loadBytes buf count
      let pushed := bytes.foldl PipeBuf.push ends
      let descriptors := kernel.descriptors.setPipe pipe { pushed with len := pushed.len + count }
      return ({ kernel with descriptors }, if count = 0 then .error (-11) else .value count)

/-- The check for text may end before the last byte; the print needs them all. -/
def consoleWrite (buf len : Nat) : Program (Kernel × Reply) :=
  match readUserBytes buf len with
  | none => pure (kernel, .error (-14))
  | some bytes => do
      let _ ← bytes
      return (kernel, .value len)

def sysWrite (fd buf len : Nat) : Program (Kernel × Reply) :=
  if maxOpenFiles ≤ fd then
    if (kernel.timers.lookup (fd % 2 ^ 32)).isSome then timerfdWrite kernel (fd % 2 ^ 32) buf len
    else if (kernel.eventfds.lookup (fd % 2 ^ 32)).isSome then
      eventfdWrite kernel (fd % 2 ^ 32) buf len
    else pure (kernel, .value (asI64 len))
  else if fd < 3 then consoleWrite kernel buf len
  else
    let file := kernel.descriptors.files fd
    match if file.used then file.pipeId else none with
    | some pipe =>
      if file.pipeIsWrite = false then pure (kernel, .error (-9))
      else pipeWrite kernel pipe buf len
    | none =>
      if (kernel.timers.lookup fd).isSome then timerfdWrite kernel fd buf len
      else consoleWrite kernel buf len

def writevFrom (fd : Nat) : Kernel → Nat → Nat → Int → Program (Kernel × Reply)
  | kernel, 0, _, total => pure (kernel, .value total)
  | kernel, left + 1, entry, total => do
      let base ← loadLe entry 8
      let len ← loadLe (offsetBy entry 8) 8
      if len = 0 then writevFrom fd kernel left (offsetBy entry 16) total
      else
        let (kernel, reply) ← sysWrite kernel fd base len
        match reply with
        | .value written =>
          if written < 0 then
            return (kernel, if 0 < total then .value total else .value written)
          else
            let total := Int.bmod (total + written) (2 ^ 64)
            if written ≠ asI64 len then return (kernel, .value total)
            else writevFrom fd kernel left (offsetBy entry 16) total
        | _ => return (kernel, if 0 < total then .value total else reply)

def sysWritev (fd iov count : Nat) : Program (Kernel × Reply) :=
  if iov = 0 ∨ count = 0 then pure (kernel, .value 0)
  else if 1024 < count then pure (kernel, .error (-22))
  else writevFrom fd kernel count iov 0

def sysRead (fd buf len : Nat) : Program (Kernel × Reply) :=
  if len = 0 then pure (kernel, .value 0)
  else if buf = 0 then pure (kernel, .error (-14))
  else
    match kernel.timers.lookup (fd % 2 ^ 32), kernel.eventfds.lookup (fd % 2 ^ 32) with
    | some timer, _ =>
      if len < 8 then pure (kernel, .error (-22))
      else
        let timer := timer.expire env.now
        let keep (timer : TimerState) : Kernel :=
          { kernel with timers := Entries.modify kernel.timers (fd % 2 ^ 32) fun _ => timer }
        if 0 < timer.pending then do
          storeLe buf 8 timer.pending
          return (keep { timer with pending := 0 }, .value 8)
        else pure (keep timer, .error (-11))
    | none, some count =>
      if len < 8 then pure (kernel, .error (-22))
      else if count = 0 then pure (kernel, .error (-11))
      else do
        storeLe buf 8 count
        let eventfds := Entries.modify kernel.eventfds (fd % 2 ^ 32) fun _ => 0
        return ({ kernel with eventfds }, .value 8)
    | none, none => do
        let (descriptors, reply) := kernel.descriptors.sysRead fd buf len
        storeBytes buf reply.delivered
        return ({ kernel with descriptors }, .ofCode reply.code)

def resolve (path : List UInt8) : Lookup :=
  if env.validUtf8 path then
    let path := path.rdropWhile fun byte => byte == 0
    match env.lookup path with
    | some data => .file data
    | none => if env.isDir path then .dir path else .absent
  else .notUtf8

def openPath (path : List UInt8) : Kernel × Reply :=
  let (descriptors, reply) := kernel.descriptors.sysOpen env.caller (resolve env path)
  ({ kernel with descriptors }, .ofCode reply.code)

def sysOpen (path len : Nat) : Program (Kernel × Reply) :=
  match readUserBytes path len with
  | none => pure (kernel, .error (-14))
  | some bytes => do
      let path ← bytes
      return openPath env kernel path

def fdDirPath (fd : Nat) : Option (List UInt8) :=
  let file := kernel.descriptors.files fd
  if fd < maxOpenFiles ∧ file.used ∧ file.isDir ∧ env.validUtf8 file.dirPath then
    some file.dirPath
  else none

/-- The path of the stat family is traced before the call. -/
def tracePath (path : Nat) : Program Unit := do
  if path ≠ 0 then
    let _ ← scanString 96 path

def slash : UInt8 := 47

def joinPath (dir rel : List UInt8) : List UInt8 :=
  (if dir.getLast? = some slash then dir else dir ++ [slash]) ++ rel

def openUnder (absolute : Bool) (dirfd path len : Nat) : Program (Kernel × Reply) :=
  if absolute || dirfd % 2 ^ 32 == 0xFFFFFF9C then sysOpen env kernel path len
  else
    match if dirfd < 2 ^ 63 then fdDirPath env kernel dirfd else none with
    | some dir => do
        let rel ← loadBytes path len
        return openPath env kernel (joinPath dir (if env.validUtf8 rel then rel else []))
    | none => sysOpen env kernel path len

def openat (dirfd path : Nat) : Program (Kernel × Reply) := do
  tracePath path
  let len ← if path ≠ 0 then scanString 4096 path else pure 0
  let absolute ← if path ≠ 0 then (· == slash.toNat) <$> loadLe path 1 else pure false
  openUnder env kernel absolute dirfd path len

def storeStat (stat size mode : Nat) : Program Unit := do
  storeBytes stat (List.replicate 144 0)
  storeLe (offsetBy stat 48) 8 size
  storeLe (offsetBy stat 56) 8 4096
  storeLe (offsetBy stat 64) 8 ((size + 511) / 512)
  storeLe (offsetBy stat 24) 4 mode

def fileToStat (fd : Nat) : OpenFile :=
  if fd < 3 then { used := true } else kernel.descriptors.files fd

def sysFstat (fd stat : Nat) : Program (Kernel × Reply) :=
  let file := fileToStat kernel fd
  if maxOpenFiles ≤ fd then pure (kernel, .panic)
  else if file.used = false then pure (kernel, .error (-9))
  else do
    if stat ≠ 0 then
      storeStat stat file.data.length (if file.isDir then 0o040755 else 0o100644)
    return (kernel, .value 0)

def closed (fd : Nat) : Kernel :=
  { kernel with descriptors := (kernel.descriptors.sysClose fd).1 }

def withPath (path : Nat) (use : Kernel → Nat → Program (Kernel × Reply)) :
    Program (Kernel × Reply) := do
  tracePath path
  if path = 0 then return (kernel, .error (-14))
  let len ← scanString 4096 path
  let (kernel, reply) ← sysOpen env kernel path len
  match reply with
  | .value fd => do
      let (kernel, reply) ← use kernel fd.toNat
      return (closed kernel fd.toNat, reply)
  | _ => return (kernel, reply)

def sysStatPath (path stat : Nat) : Program (Kernel × Reply) :=
  withPath env kernel path fun kernel fd => sysFstat kernel fd stat

def sysNewfstatat (path stat : Nat) : Program (Kernel × Reply) := sysStatPath env kernel path stat

def sysAccessPath (path : Nat) : Program (Kernel × Reply) :=
  withPath env kernel path fun kernel _ => pure (kernel, .value 0)

def sysPipe2 (pipefd : Nat) : Program (Kernel × Reply) := do
  let (descriptors, reply) := kernel.descriptors.sysPipe2 env.caller pipefd
  let kernel' := { kernel with descriptors }
  if reply.code = 0 then
    match kernel.descriptors.freeFds with
    | readFd :: writeFd :: _ =>
      storeLe pipefd 4 readFd
      storeLe (offsetBy pipefd 4) 4 writeFd
    | _ => pure ()
  return (kernel', .ofCode reply.code)

def sysArchPrctl (code addr : Nat) : Program (Kernel × Reply) :=
  match code with
  | 0x1002 => pure ({ kernel with fsBase := addr }, .value 0)
  | 0x1003 =>
    if addr = 0 then pure (kernel, .error (-14))
    else do
      storeLe addr 8 kernel.fsBase
      return (kernel, .value 0)
  | _ => pure (kernel, .error (-22))

def execWith (path len : Nat) (launch : List UInt8 → List UInt8 → Reply) :
    Program (Kernel × Reply) :=
  match readUserBytes path len with
  | none => pure (kernel, .error (-14))
  | some bytes => do
      let path ← bytes
      if env.validUtf8 path = false then return (kernel, .error (-22))
      match env.lookup path with
      | none => return (kernel, .error (-2))
      | some elf => return (kernel, launch elf path)

def sysExec (path len : Nat) : Program (Kernel × Reply) :=
  execWith env kernel path len fun elf path =>
    match env.spawn elf path with
    | some pid => .value pid
    | none => .error (-12)

def sysExecWait (path len : Nat) : Program (Kernel × Reply) :=
  execWith env kernel path len fun elf path =>
    if env.caller = 0 then .error (-1)
    else
      match env.spawn elf path with
      | some _ => .switched
      | none => .error (-12)

/-! `syscall/poll.rs`. -/

def loadI64 (addr : Nat) : Program Int := asI64 <$> loadLe addr 8

/-- The trace of the first calls reads the same bytes again. -/
def sysTimerfdSettime (fd flags newValue : Nat) : Program (Kernel × Reply) :=
  if newValue = 0 then pure (kernel, .error (-22))
  else do
    let intervalSec ← loadI64 newValue
    let intervalNsec ← loadI64 (offsetBy newValue 8)
    let valueSec ← loadI64 (offsetBy newValue 16)
    let valueNsec ← loadI64 (offsetBy newValue 24)
    let timer := Epoll.armTimer (Epoll.pendingOf kernel.timers (fd % 2 ^ 32)) flags
      ⟨intervalSec, intervalNsec, valueSec, valueNsec⟩ env.now
    return ({ kernel with timers := Entries.insert kernel.timers (fd % 2 ^ 32) timer }, .value 0)

def epollEventSize : Nat := 12
def epollDataOff : Nat := 4

/-- The first calls log four bytes of the event, and then sixteen. -/
def traceEvent (event : Nat) : Program Unit := do
  if kernel.ctlLog < 32 ∧ event ≠ 0 then
    let _ ← loadBytes event 4
    let _ ← loadBytes event 16

def Kernel.watched (kernel : Kernel) (epfd : Nat) : List EpollEntry :=
  (kernel.epolls.lookup (epfd % 2 ^ 32)).getD []

def Kernel.watch (kernel : Kernel) (epfd : Nat) (entries : List EpollEntry) : Kernel :=
  { kernel with
    ctlLog := kernel.ctlLog + 1
    epolls := Entries.insert kernel.epolls (epfd % 2 ^ 32) entries }

def setEntry (entry : EpollEntry) (entries : List EpollEntry) : List EpollEntry :=
  if entries.any fun other => other.fd == entry.fd then
    entries.map fun other => if other.fd = entry.fd then entry else other
  else entries ++ [entry]

def sysEpollCtl (epfd op fd event : Nat) : Program (Kernel × Reply) := do
  traceEvent kernel event
  let entries := kernel.watched epfd
  if op = 2 then
    return (kernel.watch epfd (entries.filter fun entry => entry.fd ≠ fd % 2 ^ 32), .value 0)
  else if (op = 1 ∨ op = 3) ∧ event ≠ 0 then
    let events ← loadLe event 4
    let data ← loadLe (offsetBy event epollDataOff) 8
    return (kernel.watch epfd (setEntry ⟨fd % 2 ^ 32, events, data⟩ entries), .value 0)
  else return (kernel.watch epfd entries, .error (-22))

def Kernel.pipeReadableForFd (kernel : Kernel) (fd : Nat) : Bool :=
  let file := kernel.descriptors.files fd
  fd < maxOpenFiles && file.used && !file.pipeIsWrite &&
    file.pipeId.any fun pipe => 0 < (kernel.descriptors.pipes pipe).len

def Kernel.ready (kernel : Kernel) (fd : Nat) : Bool :=
  match kernel.timers.lookup fd with
  | some timer => 0 < timer.pending
  | none => 0 < (kernel.eventfds.lookup fd).getD 0 || kernel.pipeReadableForFd fd

def Kernel.expire (kernel : Kernel) (fd now : Nat) : Kernel :=
  { kernel with timers := Entries.modify kernel.timers fd fun timer => timer.expire now }

def storeEvent (slot data : Nat) : Program Unit := do
  storeLe slot 4 1
  storeLe (offsetBy slot epollDataOff) 8 data

def collectReady (eventsOut : Nat) (maxevents : Int) :
    List EpollEntry → Kernel → Nat → Program (Kernel × Nat)
  | [], kernel, count => pure (kernel, count)
  | entry :: rest, kernel, count =>
    if maxevents ≤ count then pure (kernel, count)
    else if (kernel.expire entry.fd env.now).ready entry.fd then do
      storeEvent (offsetBy eventsOut (count * epollEventSize)) entry.data
      collectReady eventsOut maxevents rest (kernel.expire entry.fd env.now) (count + 1)
    else collectReady eventsOut maxevents rest (kernel.expire entry.fd env.now) count

def epollCollectReady (epfd eventsOut : Nat) (maxevents : Int) : Program (Kernel × Nat) :=
  if eventsOut = 0 ∨ maxevents ≤ 0 then pure (kernel, 0)
  else collectReady env eventsOut maxevents (kernel.watched epfd) kernel 0

def traceReady (epfd eventsOut : Nat) : Program Kernel := do
  if epfd = 72 ∨ env.caller = 8 then
    if kernel.readyLog < 4 ∧ eventsOut ≠ 0 then
      let _ ← loadBytes eventsOut 4
      let _ ← loadBytes (offsetBy eventsOut 4) 8
    return { kernel with readyLog := kernel.readyLog + 1 }
  else return kernel

def asI32 (value : Nat) : Int := Int.bmod value (2 ^ 32)

/-- Up to where the call blocks; a blocked call collects again in the same way. -/
def sysEpollWait (epfd eventsOut maxevents timeout : Nat) : Program (Kernel × Reply) := do
  let (kernel, ready) ← epollCollectReady env kernel epfd eventsOut (asI32 maxevents)
  if 0 < ready then
    let kernel ← traceReady env kernel epfd eventsOut
    return (kernel, .value ready)
  else return (kernel, if timeout = 0 then .value 0 else .blocks)

/-! `syscall/handlers/engine.rs` and `ipc_display.rs`. -/

def clipboardMax : Nat := 64 * 1024

def sysClipboardSet (ptr len : Nat) : Program (Kernel × Reply) :=
  if len = 0 then pure ({ kernel with clipboard := [] }, .value 0)
  else if clipboardMax < len then pure (kernel, .error (-22))
  else
    match readUserBytes ptr len with
    | none => pure (kernel, .error (-14))
    | some bytes => do
        let data ← bytes
        return ({ kernel with clipboard := data.take clipboardMax }, .value 0)

def sysClipboardGet (buf len : Nat) : Program (Kernel × Reply) :=
  if buf = 0 ∨ len = 0 then pure (kernel, .value kernel.clipboard.length)
  else if clipboardMax < len then pure (kernel, .error (-22))
  else do
    let copied ← writeUserBytes buf (kernel.clipboard.take len)
    return (kernel, if copied then .value kernel.clipboard.length else .error (-14))

def engineLibraryPath : List UInt8 := "/system/lib/libflutter_engine.so".toUTF8.data.toList

def sysEngineLibraryPathRead (dst len : Nat) : Program (Kernel × Reply) :=
  if len < engineLibraryPath.length then pure (kernel, .error (-22))
  else do
    let copied ← writeUserBytes dst engineLibraryPath
    return (kernel, if copied then .value engineLibraryPath.length else .error (-14))

inductive Call where
  | read (fd buf len : UInt64)
  | write (fd buf len : UInt64)
  | writev (fd iov count : UInt64)
  | openPath (path len : UInt64)
  | openat (dirfd path : UInt64)
  | fstat (fd statBuf : UInt64)
  /-- `stat` and `lstat` -/
  | stat (path statBuf : UInt64)
  | newfstatat (path statBuf : UInt64)
  /-- `access` and `faccessat` -/
  | access (path : UInt64)
  | pipe2 (pipefd : UInt64)
  | archPrctl (code addr : UInt64)
  | exec (path len : UInt64)
  | execWait (path len : UInt64)
  | timerfdSettime (fd flags newValue : UInt64)
  | epollCtl (epfd op fd event : UInt64)
  | epollWait (epfd eventsOut maxevents timeout : UInt64)
  | clipboardSet (ptr len : UInt64)
  | clipboardGet (buf len : UInt64)
  | engineLibraryPathRead (dst len : UInt64)

def Call.perform : Call → Program (Kernel × Reply)
  | .read fd buf len => sysRead env kernel fd.toNat buf.toNat len.toNat
  | .write fd buf len => sysWrite kernel fd.toNat buf.toNat len.toNat
  | .writev fd iov count => sysWritev kernel fd.toNat iov.toNat count.toNat
  | .openPath path len => sysOpen env kernel path.toNat len.toNat
  | .openat dirfd path => UserPointer.openat env kernel dirfd.toNat path.toNat
  | .fstat fd statBuf => sysFstat kernel fd.toNat statBuf.toNat
  | .stat path statBuf => sysStatPath env kernel path.toNat statBuf.toNat
  | .newfstatat path statBuf => sysNewfstatat env kernel path.toNat statBuf.toNat
  | .access path => sysAccessPath env kernel path.toNat
  | .pipe2 pipefd => sysPipe2 env kernel pipefd.toNat
  | .archPrctl code addr => sysArchPrctl kernel code.toNat addr.toNat
  | .exec path len => sysExec env kernel path.toNat len.toNat
  | .execWait path len => sysExecWait env kernel path.toNat len.toNat
  | .timerfdSettime fd flags newValue =>
    sysTimerfdSettime env kernel fd.toNat flags.toNat newValue.toNat
  | .epollCtl epfd op fd event => sysEpollCtl kernel epfd.toNat op.toNat fd.toNat event.toNat
  | .epollWait epfd eventsOut maxevents timeout =>
    sysEpollWait env kernel epfd.toNat eventsOut.toNat maxevents.toNat timeout.toNat
  | .clipboardSet ptr len => sysClipboardSet kernel ptr.toNat len.toNat
  | .clipboardGet buf len => sysClipboardGet kernel buf.toNat len.toNat
  | .engineLibraryPathRead dst len => sysEngineLibraryPathRead kernel dst.toNat len.toNat

end OsCortex.UserPointer
