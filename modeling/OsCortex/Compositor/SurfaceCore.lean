import OsCortex.Lib.Runs

/-!
The surface table of `compositor/mod.rs` and the operations on it, one critical section each.
Rendering is a step of its own, of which the table sees the promotion of the back buffers.
-/

namespace OsCortex.Compositor

structure Surface where
  id : UInt32 := 0
  x : Int32 := 0
  y : Int32 := 0
  width : UInt32 := 0
  height : UInt32 := 0
  z : Int32 := 0
  visible : Bool := true
  clipX : Int32 := 0
  clipY : Int32 := 0
  clipW : UInt32 := 0
  clipH : UInt32 := 0
  damageX : Int32 := 0
  damageY : Int32 := 0
  damageW : UInt32 := 0
  damageH : UInt32 := 0
  hasDamage : Bool := false
  inUse : Bool := false
  deriving DecidableEq

structure Slot where
  surface : Surface := {}
  owner : UInt32 := 0
  buffer : Option (List UInt32) := none
  backBuffer : Option (List UInt32) := none
  presented : Bool := false
  backPending : Bool := false
  deriving DecidableEq

def maxSurfaces : Nat := 32
def maxSurfacesPerPid : Nat := 8
def maxSurfacePixels : Nat := 1920 * 1080 * 2

structure State where
  slots : Fin maxSurfaces → Slot := fun _ => {}
  nextId : UInt32 := 1
  frameCounter : UInt64 := 0

/-- A caller, with what `get_group_leader` gives for it during the call. -/
structure Caller where
  pid : UInt32
  leader : UInt32
  deriving DecidableEq

inductive Reply where
  | ok
  | created (id : UInt32)
  | err (text : String)
  /-- An index outside a buffer. -/
  | panic
  deriving DecidableEq

def Surface.pixels (surface : Surface) : Nat := surface.width.toNat * surface.height.toNat

variable (state : State)

def State.setSlot (index : Fin maxSurfaces) (slot : Slot) : State :=
  { state with slots := Function.update state.slots index slot }

def State.position (id : UInt32) : Option (Fin maxSurfaces) :=
  (List.finRange maxSurfaces).find? fun index =>
    (state.slots index).surface.inUse && (state.slots index).surface.id == id

def State.owned (caller : Caller) (id : UInt32) : Except String (Fin maxSurfaces) :=
  match state.position id with
  | none => .error "no such surface"
  | some index =>
    if caller.pid ≠ 0 ∧ (state.slots index).owner ≠ caller.leader then .error "permission denied"
    else .ok index

/-- What all operations on one surface do; `change` gives `none` for a panic. -/
def State.update (caller : Caller) (id : UInt32)
    (change : Slot → Except String (Option Slot)) : State × Reply :=
  match state.owned caller id with
  | .error text => (state, .err text)
  | .ok index =>
    match change (state.slots index) with
    | .error text => (state, .err text)
    | .ok none => (state, .panic)
    | .ok (some slot) => (state.setSlot index slot, .ok)

def ownerLeader (caller : Caller) : UInt32 := if caller.pid ≠ 0 then caller.leader else 0

def State.ownedCount (leader : UInt32) : Nat :=
  ((List.finRange maxSurfaces).filter fun index =>
    (state.slots index).surface.inUse && (state.slots index).owner == leader).length

def State.freeIndex : Option (Fin maxSurfaces) :=
  (List.finRange maxSurfaces).find? fun index => !(state.slots index).surface.inUse

def checkSize (width height : UInt32) : Option String :=
  if width = 0 ∨ height = 0 then some "invalid size"
  else if maxSurfacePixels < width.toNat * height.toNat then some "surface too large"
  else none

/-- The back buffer and its flag are as the last surface here left them. -/
def State.createSurface (caller : Caller) (width height : UInt32) : State × Reply :=
  match checkSize width height with
  | some text => (state, .err text)
  | none =>
    if ownerLeader caller ≠ 0 ∧ maxSurfacesPerPid ≤ state.ownedCount (ownerLeader caller) then
      (state, .err "per-pid surface limit reached")
    else
      match state.freeIndex with
      | none => (state, .err "surface table full")
      | some index =>
        let surface : Surface :=
          { id := state.nextId, width, height, clipW := width, clipH := height, inUse := true }
        let slot : Slot :=
          { state.slots index with
            surface
            owner := ownerLeader caller
            buffer := some (List.replicate surface.pixels 0)
            presented := false }
        ({ state.setSlot index slot with nextId := max (state.nextId + 1) 1 },
          .created state.nextId)

def Surface.limit (surface : Surface) (x y : Int32) (w h : UInt32) :
    Int32 × Int32 × UInt32 × UInt32 :=
  let maxW := surface.width.toInt32
  let maxH := surface.height.toInt32
  let left := min (max x 0) maxW
  let top := min (max y 0) maxH
  (left, top, min w (maxW - left).toUInt32, min h (maxH - top).toUInt32)

def Slot.move (x y z : Int32) (slot : Slot) : Slot :=
  { slot with surface := { slot.surface with x, y, z } }

def Slot.zSet (z : Int32) (slot : Slot) : Slot :=
  { slot with surface := { slot.surface with z } }

def Slot.geometrySet (x y : Int32) (width height : UInt32) (slot : Slot) : Slot :=
  { slot with surface := { slot.surface with x, y, width, height } }

def Slot.visibilitySet (visible : Bool) (slot : Slot) : Slot :=
  { slot with surface := { slot.surface with visible } }

def Slot.clipSet (x y : Int32) (w h : UInt32) (slot : Slot) : Slot :=
  let (clipX, clipY, clipW, clipH) := slot.surface.limit x y w h
  { slot with surface := { slot.surface with clipX, clipY, clipW, clipH } }

def Slot.damageSet (x y : Int32) (w h : UInt32) (slot : Slot) : Slot :=
  let (damageX, damageY, damageW, damageH) := slot.surface.limit x y w h
  { slot with
    surface :=
      { slot.surface with
        damageX, damageY, damageW, damageH
        hasDamage := decide (0 < damageW) && decide (0 < damageH) } }

def Slot.flip (slot : Slot) : Slot :=
  let copy := slot.buffer.getD (List.replicate slot.surface.pixels 0)
  { slot with
    buffer := some (slot.backBuffer.getD copy)
    backBuffer := slot.buffer
    presented := true }

def Slot.present (slot : Slot) : Slot := { slot with presented := true }

/-! Pixels from a caller, whose buffer has `len` bytes and `memory` from its start on. -/

def writeAt (target : List UInt32) (index : Nat) (pixel : UInt32) : Option (List UInt32) :=
  if index < target.length then some (target.set index pixel) else none

variable (memory : Nat → UInt8)

def word (start : Nat) : UInt32 :=
  (memory start).toUInt32 ||| ((memory (start + 1)).toUInt32 <<< 8) |||
    ((memory (start + 2)).toUInt32 <<< 16) ||| ((memory (start + 3)).toUInt32 <<< 24)

def uploadPixels (pixels : Nat) (target : List UInt32) : Option (List UInt32) :=
  (List.range pixels).foldlM (fun target index => writeAt target index (word memory (index * 4)))
    target

def Slot.upload (len : Nat) (slot : Slot) : Except String (Option Slot) :=
  let pixels := slot.surface.pixels
  if len ≠ pixels * 4 then .error "bad payload size"
  else
    match slot.backBuffer with
    | some back =>
      let target := if back.length ≠ pixels then List.replicate pixels 0 else back
      .ok ((uploadPixels memory pixels target).map fun back =>
        { slot with backBuffer := some back })
    | none =>
      let target := slot.buffer.getD (List.replicate pixels 0)
      .ok ((uploadPixels memory pixels target).map fun front =>
        { slot with buffer := some front, presented := true })

def swapRedBlue (p : UInt32) : UInt32 :=
  let alphaGreen : UInt32 := 0xFF00FF00
  let low : UInt32 := 0x000000FF
  let third : UInt32 := 0x00FF0000
  (p &&& alphaGreen) ||| ((p &&& low) <<< 16) ||| ((p &&& third) >>> 16)

def submitPixels (w h rowPx : Nat) (target : List UInt32) : Option (List UInt32) :=
  (List.range h).foldlM (fun target y =>
    (List.range w).foldlM (fun target x =>
      writeAt target (y * w + x) (swapRedBlue (word memory ((y * rowPx + x) * 4)))) target) target

/-- The size check is of `usize`; with a row shorter than the surface, or a wrap, the reads go past
the buffer. -/
def Slot.submit (len srcRowBytes : Nat) (slot : Slot) : Except String (Option Slot) :=
  let w := slot.surface.width.toNat
  let h := slot.surface.height.toNat
  let pixels := slot.surface.pixels
  let rowPx := if srcRowBytes = 0 then w else srcRowBytes / 4
  if len < rowPx * 4 * h % 2 ^ 64 then .error "bad payload size"
  else
    let target :=
      match slot.backBuffer with
      | some back => if back.length ≠ pixels then List.replicate pixels 0 else back
      | none => List.replicate pixels 0
    .ok ((submitPixels memory w h rowPx target).map fun back =>
      { slot with backBuffer := some back, backPending := true })

inductive Op where
  | create (width height : UInt32)
  | move (id : UInt32) (x y z : Int32)
  | destroy (id : UInt32)
  | zSet (id : UInt32) (z : Int32)
  | geometrySet (id : UInt32) (x y : Int32) (width height : UInt32)
  | visibilitySet (id : UInt32) (visible : Bool)
  | clipSet (id : UInt32) (x y : Int32) (w h : UInt32)
  | damageSet (id : UInt32) (x y : Int32) (w h : UInt32)
  | flip (id : UInt32)
  | upload (id : UInt32) (memory : Nat → UInt8) (len : Nat)
  | present (id : UInt32)
  | submit (id : UInt32) (memory : Nat → UInt8) (len srcRowBytes : Nat)

def State.surfaceGeometrySet (caller : Caller) (id : UInt32) (x y : Int32)
    (width height : UInt32) : State × Reply :=
  match checkSize width height with
  | some text => (state, .err text)
  | none => state.update caller id fun slot => .ok (slot.geometrySet x y width height)

def State.perform (caller : Caller) : Op → State × Reply
  | .create width height => state.createSurface caller width height
  | .move id x y z => state.update caller id fun slot => .ok (slot.move x y z)
  | .destroy id => state.update caller id fun _ => .ok (some {})
  | .zSet id z => state.update caller id fun slot => .ok (slot.zSet z)
  | .geometrySet id x y width height => state.surfaceGeometrySet caller id x y width height
  | .visibilitySet id visible => state.update caller id fun slot => .ok (slot.visibilitySet visible)
  | .clipSet id x y w h => state.update caller id fun slot => .ok (slot.clipSet x y w h)
  | .damageSet id x y w h => state.update caller id fun slot => .ok (slot.damageSet x y w h)
  | .flip id => state.update caller id fun slot => .ok slot.flip
  | .upload id memory len => state.update caller id (Slot.upload memory len)
  | .present id => state.update caller id fun slot => .ok slot.present
  | .submit id memory len srcRowBytes =>
    state.update caller id (Slot.submit memory len srcRowBytes)

def Slot.promote (slot : Slot) : Slot :=
  if slot.backPending then
    { slot with
      buffer := slot.backBuffer
      backBuffer := slot.buffer
      backPending := false
      presented := true }
  else slot

def State.promote (state : State) : State :=
  { state with slots := fun index => (state.slots index).promote }

def State.rendered : State :=
  { state.promote with frameCounter := state.frameCounter + 1 }

inductive Step where
  | op (caller : Caller) (op : Op)
  | render

end OsCortex.Compositor
