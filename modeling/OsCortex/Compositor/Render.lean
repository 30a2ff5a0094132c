import OsCortex.Compositor.SurfaceCore
import OsCortex.Drivers.Framebuffer
import OsCortex.Lib.Scan

/-!
`surface_at_point` and `render_frame` of `compositor/mod.rs`; `bootScreen` is the boot screen.
-/

namespace OsCortex.Compositor

open Framebuffer (Display Frame Covers)

/-- The sums wrap. -/
def Slot.hit (slot : Slot) (px py : Int32) : Bool :=
  let s := slot.surface
  s.inUse &&
    (decide (s.x ≤ px) && decide (px < s.x + s.width.toInt32) &&
      decide (s.y ≤ py) && decide (py < s.y + s.height.toInt32))

def State.z (state : State) (index : Fin maxSurfaces) : Int := (state.slots index).surface.z.toInt

variable (state : State)

def State.hitIndex (px py : Int32) : Option (Fin maxSurfaces) :=
  ((List.finRange maxSurfaces).foldl
    (Scan.keepBest state.z fun index => (state.slots index).hit px py)
    (Int32.minValue.toInt, none)).2

def State.surfaceAtPoint (px py : Int32) : Option (UInt32 × UInt32) :=
  (state.hitIndex px py).map fun index =>
    ((state.slots index).surface.id, (state.slots index).owner)

def State.hasVisibleContent : Bool :=
  (List.finRange maxSurfaces).any fun index =>
    let slot := state.slots index
    slot.surface.inUse && slot.presented && slot.buffer.isSome

def State.covered (display : Display) : Bool :=
  (List.finRange maxSurfaces).any fun index =>
    let slot := state.slots index
    let s := slot.surface
    s.inUse && slot.presented && decide (s.x ≤ 0) && decide (s.y ≤ 0) &&
      decide (Int32.ofNat display.width ≤ s.x + s.width.toInt32) &&
      decide (Int32.ofNat display.height ≤ s.y + s.height.toInt32)

def sink (z : Fin maxSurfaces → Int) (key : Fin maxSurfaces) :
    List (Fin maxSurfaces) → List (Fin maxSurfaces)
  | [] => [key]
  | last :: rest => if z key < z last then last :: sink z key rest else key :: last :: rest

def State.stack : List (Fin maxSurfaces) :=
  ((List.finRange maxSurfaces).filter fun index => (state.slots index).surface.inUse).foldl
    (fun sorted key => sink state.z key sorted) []

def State.order : List (Fin maxSurfaces) := state.stack.reverse

variable {α : Type}

def Slot.draw (slot : Slot) (display : Display) (pack : α → α) (ink : List UInt32 → Nat → α)
    (frame : Frame α) : Frame α :=
  if slot.presented then
    match slot.buffer with
    | some buf =>
      frame.blit display pack slot.surface.x slot.surface.y slot.surface.width slot.surface.height
        buf.length (ink buf)
    | none => frame
  else frame

def State.drawSurfaces (state : State) (display : Display) (pack : α → α)
    (ink : Fin maxSurfaces → List UInt32 → Nat → α) (frame : Frame α) : Frame α :=
  state.order.foldl
    (fun frame index => (state.slots index).draw display pack (ink index) frame) frame

def background : UInt32 := 0x00101820

def State.clear (display : Display) (bypass : Bool) (frame : Frame UInt32) : Frame UInt32 :=
  if bypass || state.covered display then frame
  else
    frame.fillRect display display.fbPack 0 0 (UInt32.ofNat display.width)
      (UInt32.ofNat display.height) background

def State.renderFrame (state : State) (display : Display)
    (bootScreen : Frame UInt32 → Frame UInt32) (bypass : Bool) (frame : Frame UInt32) :
    State × Frame UInt32 :=
  let state := { state.promote with frameCounter := state.frameCounter + 1 }
  if state.hasVisibleContent then
    let drawn := state.drawSurfaces display display.fbPack
      (fun _ buf index => Framebuffer.xrgb (buf.getD index 0)) (state.clear display bypass frame)
    (state, drawn.swapBuffers display display.fbPack)
  else (state, (bootScreen frame).swapBuffers display display.fbPack)

def State.drawnLast (state : State) (display : Display) (px py : Nat) : Option (Fin maxSurfaces) :=
  (state.promote.drawSurfaces display id (fun index _ _ => some index)
    { front := fun _ => none }).shown display id px py

def Slot.Paints (slot : Slot) (px py : Nat) : Prop :=
  slot.presented = true ∧
    (∃ buf, slot.buffer = some buf ∧ slot.surface.pixels ≤ buf.length) ∧
    Covers slot.surface.x slot.surface.y slot.surface.width slot.surface.height px py

def Surface.source (surface : Surface) (px py : Nat) : Nat :=
  (py - surface.y.toInt).toNat * surface.width.toNat + (px - surface.x.toInt).toNat

def State.Draws (index : Fin maxSurfaces) (px py : Nat) : Prop :=
  (state.slots index).surface.inUse = true ∧ (state.slots index).promote.Paints px py

end OsCortex.Compositor
