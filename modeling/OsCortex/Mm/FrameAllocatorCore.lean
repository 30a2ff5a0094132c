import OsCortex.Lib.Bitmap
import OsCortex.Lib.Runs

/-!
The physical frame allocator of `mm/frame_allocator.rs`. A set bit marks a free frame. Sums of `u64`
values from callers wrap.
-/

namespace OsCortex.FrameAllocator

def frameSize : Nat := 4096
def maxFrames : Nat := 1 <<< 20
def minAllocPhys : Nat := 0x100000
def minAllocFrame : Nat := minAllocPhys / frameSize

structure FrameBitmap where
  bits : Bitmap.Words 64
  total : Nat
  used : Nat

def FrameBitmap.new : FrameBitmap :=
  { bits := fun _ => 0#64, total := 0, used := 0 }

variable (bm : FrameBitmap)

def FrameBitmap.markFree (frame : Nat) : FrameBitmap :=
  { bm with bits := Bitmap.insert bm.bits frame, total := bm.total + 1 }

def FrameBitmap.allocFrom (bm : FrameBitmap) : Nat → Nat → FrameBitmap × Option Nat
  | 0, _ => (bm, none)
  | fuel + 1, i =>
    if bm.bits i != 0#64 then
      let bit := Bitmap.trailingZeros (bm.bits i)
      let taken := { bm with bits := Bitmap.clearBit bm.bits i bit, used := bm.used + 1 }
      let frame := i * 64 + bit
      if frame < minAllocFrame then taken.allocFrom fuel (i + 1)
      else (taken, some (frame * frameSize))
    else bm.allocFrom fuel (i + 1)

def FrameBitmap.alloc : FrameBitmap × Option Nat :=
  bm.allocFrom (maxFrames / 64 - minAllocFrame / 64) (minAllocFrame / 64)

def FrameBitmap.takeRun (start count : Nat) : FrameBitmap :=
  { bm with
    bits := (List.range' start count).foldl Bitmap.remove bm.bits
    used := bm.used + count }

def FrameBitmap.allocContiguousFrom (bm : FrameBitmap) (count : Nat) :
    Nat → Nat → Nat → Nat → FrameBitmap × Option Nat
  | 0, _, _, _ => (bm, none)
  | fuel + 1, frame, runStart, runLen =>
    if Bitmap.test bm.bits frame then
      let start := if runLen = 0 then frame else runStart
      if runLen + 1 = count then (bm.takeRun start count, some (start * frameSize))
      else bm.allocContiguousFrom count fuel (frame + 1) start (runLen + 1)
    else bm.allocContiguousFrom count fuel (frame + 1) runStart 0

def FrameBitmap.allocContiguous (count : Nat) : FrameBitmap × Option Nat :=
  if count = 0 then (bm, none)
  else bm.allocContiguousFrom count (maxFrames - minAllocFrame) minAllocFrame 0 0

def FrameBitmap.free (phys : Nat) : FrameBitmap :=
  let frame := phys / frameSize
  if frame < maxFrames then
    if Bitmap.test bm.bits frame then bm
    else { bm with bits := Bitmap.insert bm.bits frame, used := bm.used - 1 }
  else bm

structure MemRegion where
  base : Nat
  len : Nat
  deriving DecidableEq

def regionFrames (region : MemRegion) : List Nat :=
  let startFrame := region.base / frameSize
  let endFrame := (region.base + region.len) % 2 ^ 64 / frameSize
  let first := max startFrame minAllocFrame
  List.range' first (min endFrame maxFrames - first)

def FrameBitmap.initFromRegions (regions : List MemRegion) : FrameBitmap :=
  regions.foldl (fun bm region => (regionFrames region).foldl FrameBitmap.markFree bm) bm

def FrameBitmap.reserveFrame (frame : Nat) : FrameBitmap :=
  if Bitmap.test bm.bits frame then
    { bm with bits := Bitmap.remove bm.bits frame, used := bm.used + 1 }
  else bm

def reservedFrames (base len : Nat) : List Nat :=
  let startFrame := base / frameSize
  let endFrame := min ((base + len + frameSize - 1) % 2 ^ 64 / frameSize) maxFrames
  List.range' startFrame (endFrame - startFrame)

def FrameBitmap.reserveRange (base len : Nat) : FrameBitmap :=
  if len = 0 then bm else (reservedFrames base len).foldl FrameBitmap.reserveFrame bm

inductive Call where
  | reserveRange (base len : Nat)
  | allocFrame
  | allocContiguousFrames (count : Nat)
  | freeFrame (phys : Nat)

inductive Event where
  | reserved (base len : Nat)
  | handedOut (frame : Nat)
  | freed (frame : Nat)
  deriving DecidableEq

structure Session where
  bitmap : FrameBitmap
  log : List Event

def Session.handOut (session : Session) (count : Nat) : FrameBitmap × Option Nat → Session
  | (bitmap, none) => { session with bitmap }
  | (bitmap, some phys) =>
    { bitmap
      log := (List.range' (phys / frameSize) count).map Event.handedOut ++ session.log }

/-- One call of the allocator. Callers free only frames that were handed out to somebody
before; freeing one twice is allowed. -/
def Session.call (session : Session) : Call → Option Session
  | .reserveRange base len =>
    some {
      bitmap := session.bitmap.reserveRange base len
      log := .reserved base len :: session.log }
  | .allocFrame => some (session.handOut 1 session.bitmap.alloc)
  | .allocContiguousFrames count =>
    some (session.handOut count (session.bitmap.allocContiguous count))
  | .freeFrame phys =>
    if Event.handedOut (phys / frameSize) ∈ session.log then
      some {
        bitmap := session.bitmap.free phys
        log := .freed (phys / frameSize) :: session.log }
    else none

def boot (regions : List MemRegion) : Session :=
  { bitmap := FrameBitmap.new.initFromRegions regions, log := [] }

def allocator (regions : List MemRegion) : Runs.Machine Session Call where
  start session := session = boot regions
  step := Session.call

end OsCortex.FrameAllocator
