import OsCortex.Drivers.Framebuffer
import OsCortex.Lib.Runs

/-!
Input as it is pushed to the window manager: mouse bytes of `drivers/ps2.rs` and reports of
`drivers/xhci_runtime.rs`.
-/

namespace OsCortex.Input

open Framebuffer (asI32 asI32_eq)
open List Runs

abbrev Report := Fin 8 → UInt8

inductive Event where
  | pointer (x y : Int) (buttons : UInt8)
  | scroll (x y dz : Int)
  | key (scancode : Nat) (pressed : Bool)
  deriving DecidableEq

structure State where
  mouseBuf : List UInt8 := []
  cursorX : Int := 32
  cursorY : Int := 32
  lastHid : Report := fun _ => 0
  curX : Int := 64
  curY : Int := 64
  events : List Event := []

def wrap (value : Int) : Int := value.bmod (2 ^ 32)

def bound (value high : Int) : Int := max 0 (min value high)

def accel (d : Int) : Int := if 8 ≤ d.natAbs then 3 * d else if 4 ≤ d.natAbs then 2 * d else d

def usbKeycodeToScancode : UInt8 → Option Nat
  | 0x04 => some 0x1E
  | 0x05 => some 0x30
  | 0x1E => some 0x11
  | 0x28 => some 0x1C
  | 0x29 => some 0x01
  | _ => none

def handleBootKeyboardReport (report : Report) : Option (Nat × Bool) :=
  if report 2 = 0 then none else (usbKeycodeToScancode (report 2)).map (·, true)

def keyEvents (old report : Report) : List Event :=
  ((handleBootKeyboardReport report).map fun (sc, pressed) => .key sc pressed).toList ++
    [2, 3, 4, 5, 6, 7].filterMap fun i =>
      if old i ≠ 0 ∧ old i ≠ report i then (usbKeycodeToScancode (old i)).map (.key · false)
      else none

def axis (low high : UInt8) : UInt32 := low.toUInt32 + 256 * high.toUInt32

def scale (value size : UInt32) : Int := asI32 (value * (if size = 0 then 0 else size - 1) / 32767)

namespace State

variable (fb : Option (UInt32 × UInt32)) (state : State)

/-- The position and the buttons of a whole packet. -/
def move (dx dy : Int) (buttons : UInt8) : State :=
  let (w, h) := fb.getD (640, 480)
  let x := bound (wrap (state.cursorX + accel dx)) (max (wrap (asI32 w - 1)) 0)
  let y := bound (wrap (state.cursorY - accel dy)) (max (wrap (asI32 h - 1)) 0)
  { state with cursorX := x, cursorY := y, events := state.events ++ [.pointer x y buttons] }

def handleMouseByte (byte : UInt8) : State :=
  if state.mouseBuf = [] ∧ (byte &&& 0x08 = 0 ∨ byte &&& 0xC0 ≠ 0) then state
  else
    match state.mouseBuf ++ [byte] with
    | [p0, p1, p2] =>
      let state := { state with mouseBuf := [] }
      if p0 &&& 0xC0 ≠ 0 then state
      else
        state.move fb (if p0 &&& 0x10 ≠ 0 then p1.toInt8.toInt else p1.toNat)
          (if p0 &&& 0x20 ≠ 0 then p2.toInt8.toInt else p2.toNat) (p0 &&& 0x07)
    | buf => { state with mouseBuf := buf }

def point (x y : Int) (buttons wheel : UInt8) : State :=
  { state with
    curX := x, curY := y
    events := state.events ++ .pointer x y (buttons &&& 0x07) ::
      if wheel ≠ 0 then [.scroll x y wheel.toInt8.toInt] else [] }

/-- `clamp` panics on an empty interval. -/
def routeMouse (report : Report) : Option State :=
  let (w, h) := fb.getD (1024, 768)
  if 0 ≤ wrap (asI32 w - 1) ∧ 0 ≤ wrap (asI32 h - 1) then
    some (state.point (bound (wrap (state.curX + (report 1).toInt8.toInt)) (wrap (asI32 w - 1)))
      (bound (wrap (state.curY + (report 2).toInt8.toInt)) (wrap (asI32 h - 1)))
      (report 0) (report 3))
  else none

def routeTablet (report : Report) : State :=
  let (w, h) := fb.getD (1024, 768)
  state.point (scale (axis (report 1) (report 2)) w) (scale (axis (report 3) (report 4)) h)
    (report 0) (report 5)

def routeReport (hidProtocol : Nat) (hidIsTablet : Bool) (report : Report) : Option State :=
  if hidProtocol = 2 then state.routeMouse fb report
  else if report = state.lastHid then some state
  else
    let next := { state with lastHid := report }
    if hidIsTablet then some (next.routeTablet fb report)
    else if hidProtocol = 1 ∨ hidProtocol = 0 then
      some { next with events := state.events ++ keyEvents state.lastHid report }
    else some next

end State

inductive Label where
  | mouseByte (byte : UInt8)
  | report (hidProtocol : Nat) (hidIsTablet : Bool) (report : Report)

def system (fb : Option (UInt32 × UInt32)) : Machine State Label where
  start state := state = {}
  step state
    | .mouseByte byte => some (state.handleMouseByte fb byte)
    | .report hidProtocol hidIsTablet report => state.routeReport fb hidProtocol hidIsTablet report

def Inside (w h : UInt32) : Event → Prop
  | .pointer x y _ => 0 ≤ x ∧ x < w.toNat ∧ 0 ≤ y ∧ y < h.toNat
  | _ => True

/-- The range `usb-tablet` reports in. -/
def Ranged (_ : State) : Label → Prop
  | .report hidProtocol true report => hidProtocol ≠ 2 →
      axis (report 1) (report 2) ≤ 32767 ∧ axis (report 3) (report 4) ≤ 32767
  | _ => True

def Real (size : UInt32) : Prop := 0 < size.toNat ∧ size.toNat < 2 ^ 31

section

variable {w h : UInt32} {state next : State} {label : Label}

lemma bound_inside (real : Real w) (value : Int) :
    0 ≤ wrap (asI32 w - 1) ∧ 0 ≤ bound value (wrap (asI32 w - 1)) ∧
      bound value (wrap (asI32 w - 1)) < w.toNat := by
  obtain ⟨positive, small⟩ := real
  have last : wrap (asI32 w - 1) = w.toNat - 1 := by
    rw [wrap, asI32_eq small]
    exact Int.bmod_eq_of_le (by omega) (by omega)
  rw [bound, last]
  omega

lemma scale_inside {value : UInt32} (real : Real w) (ranged : value ≤ 32767) :
    0 ≤ scale value w ∧ scale value w < w.toNat := by
  obtain ⟨positive, small⟩ := real
  have nonzero : w ≠ 0 := by rintro rfl; cases positive
  have one : (w - 1).toNat = w.toNat - 1 := UInt32.toNat_sub_of_le _ _ positive
  have ranged : value.toNat ≤ 32767 := ranged
  have below : (value * (w - 1) / 32767).toNat ≤ w.toNat - 1 := by
    rw [UInt32.toNat_div, UInt32.toNat_mul, one]
    have wrapped := Nat.mod_le (value.toNat * (w.toNat - 1)) (2 ^ 32)
    exact Nat.div_le_of_le_mul (wrapped.trans (Nat.mul_le_mul_right _ ranged))
  rw [scale, if_neg nonzero, asI32_eq (by omega)]
  omega

lemma point_inside {x y : Int} {buttons wheel : UInt8}
    (inside : ∀ event ∈ state.events, Inside w h event)
    (here : (0 ≤ x ∧ x < w.toNat) ∧ 0 ≤ y ∧ y < h.toNat) :
    ∀ event ∈ (state.point x y buttons wheel).events, Inside w h event := by
  refine forall_mem_append.2 ⟨inside, forall_mem_cons.2 ⟨⟨here.1.1, here.1.2, here.2⟩, ?_⟩⟩
  intro event member
  split at member
  · cases mem_singleton.1 member
    trivial
  · cases member

lemma inside_step (wide : Real w) (high : Real h)
    (inside : ∀ event ∈ state.events, Inside w h event) (ranged : Ranged state label)
    (taken : (system (some (w, h))).step state label = some next) :
    ∀ event ∈ next.events, Inside w h event := by
  cases label with
  | mouseByte byte =>
    cases taken
    rw [State.handleMouseByte]
    split
    · exact inside
    split
    · dsimp only
      split
      · exact inside
      have x := bound_inside wide
      have y := bound_inside high
      rw [State.move]
      refine forall_mem_append.2 ⟨inside, forall_mem_singleton.2 ?_⟩
      simp only [Option.getD_some, max_eq_left (x 0).1, max_eq_left (y 0).1]
      exact ⟨(x _).2.1, (x _).2.2, (y _).2⟩
    · exact inside
  | report hidProtocol hidIsTablet report =>
    simp only [system, State.routeReport] at taken
    split at taken
    · obtain ⟨_, rfl⟩ := of_guard taken
      exact point_inside inside ⟨(bound_inside wide _).2, (bound_inside high _).2⟩
    rename_i notMouse
    split at taken
    · cases taken
      exact inside
    split at taken
    · rename_i tablet
      subst tablet
      cases taken
      obtain ⟨ranged, ranged'⟩ := ranged notMouse
      exact point_inside inside ⟨scale_inside wide ranged, scale_inside high ranged'⟩
    split at taken <;> cases taken
    · refine forall_mem_append.2 ⟨inside, fun event member => ?_⟩
      simp only [keyEvents, mem_append, Option.mem_toList, Option.map_eq_some_iff, mem_filterMap,
        Option.ite_none_right_eq_some] at member
      rcases member with ⟨_, _, rfl⟩ | ⟨_, _, _, _, _, rfl⟩ <;> trivial
    · exact inside

theorem pointers_inside (wide : Real w) (high : Real h)
    (reached : (system (some (w, h))).Reachable Ranged state) :
    ∀ event ∈ state.events, Inside w h event := by
  refine reached.invariant ?_ fun _ _ _ inside ranged taken =>
    inside_step wide high inside ranged taken
  rintro _ rfl _ ⟨⟩

end

theorem mouse_inside : ∃ state, (system (some (1, 1))).Reachable Ranged state ∧
    state.events = [.pointer 0 0 0] ∧ ∀ event ∈ state.events, Inside 1 1 event := by
  have reached : (system (some (1, 1))).Reachable Ranged _ :=
    .step (.start rfl) (show Ranged {} (.report 2 false fun _ => 0) from trivial) rfl
  have real : Real 1 := ⟨by decide, by decide⟩
  exact ⟨_, reached, by decide, pointers_inside real real reached⟩

end OsCortex.Input
