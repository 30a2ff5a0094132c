import OsCortex.Lib.Raster

/-!
Drawing of `drivers/fb.rs`. What is drawn is of any type, so that a frame can also be drawn in the
names of its surfaces.
-/

namespace OsCortex.Framebuffer

structure Display where
  width : Nat
  height : Nat
  pitchPx : Nat
  rShift : UInt32 := 16
  gShift : UInt32 := 8
  bShift : UInt32 := 0
  widthSmall : width < 2 ^ 31
  heightSmall : height < 2 ^ 31
  fits : width ≤ pitchPx

def Display.fbPack (display : Display) (color : UInt32) : UInt32 :=
  if display.rShift = 16 ∧ display.gShift = 8 ∧ display.bShift = 0 then color
  else
    let r := (color >>> 16) &&& 0xFF
    let g := (color >>> 8) &&& 0xFF
    let b := color &&& 0xFF
    (r <<< display.rShift) ||| (g <<< display.gShift) ||| (b <<< display.bShift)

structure Frame (α : Type) where
  front : Nat → α
  back : Option (Nat → α) := none

def asI32 (value : UInt32) : Int := value.toInt32.toInt

def saturatingAdd (x : Int32) (size : UInt32) : Int :=
  max (-2 ^ 31) (min (2 ^ 31 - 1) (x.toInt + asI32 size))

def clamp (limit : Nat) (value : Int) : Int := min (max value 0) limit

variable {α : Type}

variable (frame : Frame α)

/-- Colours are packed on their way to the panel. -/
def Frame.paint (pack : α → α) (pitch left top cols rows : Nat) (ink : Nat → Nat → α) : Frame α :=
  match frame.back with
  | some back => { frame with back := some (Raster.paintRect pitch left top cols rows ink back) }
  | none =>
    { frame with
      front := Raster.paintRect pitch left top cols rows (fun row col => pack (ink row col))
        frame.front }

/-- `ink` is given how far a pixel is from the top left corner of all that could be drawn. -/
def Frame.paintClipped (display : Display) (pack : α → α) (x y : Int32)
    (w h : UInt32) (ink : Nat → Nat → α) : Frame α :=
  let x0 := clamp display.width x.toInt
  let y0 := clamp display.height y.toInt
  let x1 := clamp display.width (saturatingAdd x w)
  let y1 := clamp display.height (saturatingAdd y h)
  if x1 ≤ x0 ∨ y1 ≤ y0 then frame
  else
    frame.paint pack display.pitchPx x0.toNat y0.toNat (x1 - x0).toNat (y1 - y0).toNat
      fun row col => ink ((y0 - y.toInt).toNat + row) ((x0 - x.toInt).toNat + col)

def Frame.fillRect (display : Display) (pack : α → α) (x y : Int32)
    (w h : UInt32) (color : α) : Frame α :=
  if w = 0 ∨ h = 0 then frame
  else frame.paintClipped display pack x y w h fun _ _ => color

def Frame.blit (display : Display) (pack : α → α) (x y : Int32)
    (srcW srcH : UInt32) (length : Nat) (ink : Nat → α) : Frame α :=
  if srcW = 0 ∨ srcH = 0 then frame
  else if length < srcW.toNat * srcH.toNat then frame
  else frame.paintClipped display pack x y srcW srcH fun row col => ink (row * srcW.toNat + col)

def xrgb (px : UInt32) : UInt32 :=
  let r := px &&& 0x000000FF
  let g := (px &&& 0x0000FF00) >>> 8
  let b := (px &&& 0x00FF0000) >>> 16
  (r <<< 16) ||| (g <<< 8) ||| b

def Frame.blitRgba32 (frame : Frame UInt32) (display : Display) (x y : Int32) (srcW srcH : UInt32)
    (src : List UInt32) : Frame UInt32 :=
  frame.blit display display.fbPack x y srcW srcH src.length fun index => xrgb (src.getD index 0)

def Frame.swapBuffers (display : Display) (pack : α → α) : Frame α :=
  match frame.back with
  | some back =>
    { frame with
      front := fun cell =>
        if cell < display.height * display.pitchPx then pack (back cell) else frame.front cell }
  | none => frame

def Frame.shown (display : Display) (pack : α → α) (px py : Nat) : α :=
  match frame.back with
  | some back => pack (back (py * display.pitchPx + px))
  | none => frame.front (py * display.pitchPx + px)

def Covers (x y : Int32) (w h : UInt32) (px py : Nat) : Prop :=
  (x.toInt ≤ px ∧ px < saturatingAdd x w) ∧ y.toInt ≤ py ∧ py < saturatingAdd y h

instance (x y : Int32) (w h : UInt32) (px py : Nat) : Decidable (Covers x y w h px py) :=
  inferInstanceAs (Decidable ((_ ∧ _) ∧ _ ∧ _))

variable {display : Display} {pack : α → α} {px py : Nat}

lemma shown_swapBuffers (frame : Frame α) (column : px < display.width)
    (line : py < display.height) :
    (frame.swapBuffers display pack).front (py * display.pitchPx + px) =
      frame.shown display pack px py := by
  rw [Frame.swapBuffers, Frame.shown]
  cases frame.back with
  | none => rfl
  | some back =>
    have inside : py * display.pitchPx + px < display.height * display.pitchPx := by
      have rows := Nat.mul_le_mul_right display.pitchPx (show py + 1 ≤ display.height from line)
      rw [Nat.succ_mul] at rows
      have := display.fits
      omega
    exact if_pos inside

/-- The memory that is drawn to. -/
def Frame.target : Nat → α := frame.back.getD frame.front

def Frame.tint (pack : α → α) : α → α := if frame.back.isSome then id else pack

lemma target_paint (frame : Frame α) {left top cols rows : Nat} (ink : Nat → Nat → α)
    (fits : left + cols ≤ display.pitchPx) (narrow : px < display.pitchPx) :
    (frame.paint pack display.pitchPx left top cols rows ink).target (py * display.pitchPx + px) =
      if (top ≤ py ∧ py < top + rows) ∧ left ≤ px ∧ px < left + cols then
        frame.tint pack (ink (py - top) (px - left))
      else frame.target (py * display.pitchPx + px) := by
  rw [Frame.paint, Frame.target, Frame.target, Frame.tint]
  cases frame.back with
  | none | some back => exact Raster.paintRect_get _ fits narrow

def Frame.finish (pack : α → α) : α → α := if frame.back.isSome then pack else id

lemma shown_eq (frame : Frame α) :
    frame.shown display pack px py = frame.finish pack (frame.target (py * display.pitchPx + px)) := by
  rw [Frame.shown, Frame.finish, Frame.target]
  cases frame.back <;> rfl

lemma finish_tint (frame : Frame α) (color : α) :
    frame.finish pack (frame.tint pack color) = pack color := by
  rw [Frame.finish, Frame.tint]
  cases frame.back <;> rfl

variable {x y : Int32} {w h : UInt32}

lemma target_paintClipped (frame : Frame α) (ink : Nat → Nat → α) (narrow : px < display.pitchPx) :
    (frame.paintClipped display pack x y w h ink).target (py * display.pitchPx + px) =
      if (px < display.width ∧ py < display.height) ∧ Covers x y w h px py then
        frame.tint pack (ink (py - y.toInt).toNat (px - x.toInt).toNat)
      else frame.target (py * display.pitchPx + px) := by
  have fits := display.fits
  rw [Frame.paintClipped]
  obtain ⟨right, sameRight⟩ : ∃ right, right = saturatingAdd x w := ⟨_, rfl⟩
  obtain ⟨bottom, sameBottom⟩ : ∃ bottom, bottom = saturatingAdd y h := ⟨_, rfl⟩
  simp only [Covers, ← sameRight, ← sameBottom, clamp]
  split
  · rw [if_neg (by omega)]
  rw [target_paint _ _ (by omega) narrow]
  by_cases inside : (px < display.width ∧ py < display.height) ∧
      (x.toInt ≤ px ∧ px < right) ∧ y.toInt ≤ py ∧ py < bottom
  · rw [if_pos inside, if_pos (by omega)]
    congr 2 <;> omega
  · rw [if_neg inside, if_neg (by omega)]

lemma finish_paintClipped (frame : Frame α) (ink : Nat → Nat → α) :
    (frame.paintClipped display pack x y w h ink).finish pack = frame.finish pack := by
  rw [Frame.paintClipped]
  split
  · rfl
  · rw [Frame.finish, Frame.finish, Frame.paint]
    cases frame.back <;> rfl

lemma shown_paintClipped (frame : Frame α) (ink : Nat → Nat → α)
    (column : px < display.width) (line : py < display.height) :
    (frame.paintClipped display pack x y w h ink).shown display pack px py =
      if Covers x y w h px py then pack (ink (py - y.toInt).toNat (px - x.toInt).toNat)
      else frame.shown display pack px py := by
  rw [shown_eq, shown_eq, finish_paintClipped,
    target_paintClipped frame ink (column.trans_le display.fits), apply_ite (frame.finish pack),
    finish_tint]
  simp [column, line]

lemma asI32_eq {value : UInt32} (small : value.toNat < 2 ^ 31) : asI32 value = value.toNat := by
  have signed : asI32 value = (value.toNat : Int).bmod (2 ^ 32) := by
    exact BitVec.toInt_eq_toNat_bmod _
  rw [signed, Int.bmod_eq_of_le (by omega) (by omega)]

lemma saturatingAdd_eq {size : UInt32} (small : size.toNat < 2 ^ 31)
    (inside : x.toInt + size.toNat < 2 ^ 31) : saturatingAdd x size = x.toInt + size.toNat := by
  have lower := x.le_toInt
  rw [saturatingAdd, asI32_eq small]
  omega

lemma paintClipped_empty (frame : Frame α) (ink : Nat → Nat → α) (empty : w = 0 ∨ h = 0) :
    frame.paintClipped display pack x y w h ink = frame := by
  have zero : ∀ coordinate : Int32, saturatingAdd coordinate 0 = coordinate.toInt := by
    intro coordinate
    have upper := coordinate.toInt_lt
    rw [saturatingAdd_eq (by decide) (by simpa using upper)]
    simp
  refine if_pos ?_
  rcases empty with rfl | rfl
  · exact .inl (by rw [zero])
  · exact .inr (by rw [zero])

lemma blit_eq (frame : Frame α) {length : Nat} (ink : Nat → α) :
    frame.blit display pack x y w h length ink =
      if length < w.toNat * h.toNat then frame
      else frame.paintClipped display pack x y w h fun row col => ink (row * w.toNat + col) := by
  rw [Frame.blit]
  split
  · case isTrue empty => rw [paintClipped_empty frame _ empty, ite_self]
  · rfl

lemma shown_fillRect (frame : Frame α) (color : α)
    (column : px < display.width) (line : py < display.height) :
    (frame.fillRect display pack x y w h color).shown display pack px py =
      if Covers x y w h px py then pack color else frame.shown display pack px py := by
  rw [← shown_paintClipped frame (fun _ _ => color) column line, Frame.fillRect]
  split
  · case isTrue empty => rw [paintClipped_empty frame _ empty]
  · rfl

lemma shown_blit (frame : Frame α) {length : Nat} (ink : Nat → α)
    (column : px < display.width) (line : py < display.height) :
    (frame.blit display pack x y w h length ink).shown display pack px py =
      if Covers x y w h px py ∧ w.toNat * h.toNat ≤ length then
        pack (ink ((py - y.toInt).toNat * w.toNat + (px - x.toInt).toNat))
      else frame.shown display pack px py := by
  rw [blit_eq]
  split
  · case isTrue short => rw [if_neg fun drawn => Nat.not_le_of_lt short drawn.2]
  · case isFalse enough =>
    rw [shown_paintClipped frame _ column line]
    simp [Nat.not_lt.1 enough]

/-- The pixel is on the screen and in the placed rectangle. -/
def Placed (display : Display) (x y : Int32) (w h : UInt32) (px py : Nat) : Prop :=
  (px < display.width ∧ x.toInt ≤ px ∧ px < x.toInt + w.toNat) ∧
    py < display.height ∧ y.toInt ≤ py ∧ py < y.toInt + h.toNat

lemma placed_iff (narrow : w.toNat < 2 ^ 31) (low : h.toNat < 2 ^ 31) :
    Placed display x y w h px py ↔
      (px < display.width ∧ py < display.height) ∧ Covers x y w h px py := by
  have width := display.widthSmall
  have height := display.heightSmall
  rw [Placed, Covers, saturatingAdd, saturatingAdd, asI32_eq narrow, asI32_eq low]
  omega

/-- Every cell of the memory that is drawn to, with the source pixel it gets. -/
theorem blitRgba32_exact (frame : Frame UInt32) (display : Display) (x y : Int32) (w h : UInt32)
    (src : List UInt32) (narrow : w.toNat < 2 ^ 31) (low : h.toNat < 2 ^ 31)
    (enough : w.toNat * h.toNat ≤ src.length) (px py : Nat) (column : px < display.pitchPx) :
    let after := frame.blitRgba32 display x y w h src
    let cell := py * display.pitchPx + px
    (Placed display x y w h px py → ∃ pixel,
      src[(py - y.toInt).toNat * w.toNat + (px - x.toInt).toNat]? = some pixel ∧
        after.target cell = frame.tint display.fbPack (xrgb pixel)) ∧
    (¬ Placed display x y w h px py → after.target cell = frame.target cell) ∧
    (frame.back.isSome → after.front = frame.front) := by
  intro after cell
  have painted : after = frame.paintClipped display display.fbPack x y w h fun row col =>
      xrgb (src.getD (row * w.toNat + col) 0) := by
    rw [show after = _ from blit_eq .., if_neg (Nat.not_lt.2 enough)]
  have target := @target_paintClipped _ display display.fbPack px py x y w h frame
    (fun row col => xrgb (src.getD (row * w.toNat + col) 0)) column
  rw [← painted] at target
  refine ⟨fun placed => ?_, fun outside => ?_, fun double => ?_⟩
  · have inside : (py - y.toInt).toNat * w.toNat + (px - x.toInt).toNat < src.length := by
      obtain ⟨⟨_, _, _⟩, _, _, _⟩ := placed
      have rows := Nat.mul_le_mul_right w.toNat (show (py - y.toInt).toNat + 1 ≤ h.toNat by omega)
      rw [Nat.succ_mul, Nat.mul_comm h.toNat] at rows
      omega
    refine ⟨_, List.getElem?_eq_getElem inside, ?_⟩
    rw [if_pos ((placed_iff narrow low).1 placed), List.getD_eq_getElem _ _ inside] at target
    exact target
  · rwa [if_neg (mt (placed_iff narrow low).2 outside)] at target
  · rw [painted, Frame.paintClipped]
    split
    · rfl
    · rw [Frame.paint]
      cases back : frame.back with
      | none => simp [back] at double
      | some back => rfl

def onePixel : Display := ⟨1, 1, 1, 16, 8, 0, by decide, by decide, le_rfl⟩

theorem right_half_drawn : ∃ pixel, [(7 : UInt32), 9][1]? = some pixel ∧
    ((⟨fun _ => 1, none⟩ : Frame UInt32).blitRgba32 onePixel (-1) 0 2 1 [7, 9]).target 0 =
      onePixel.fbPack (xrgb pixel) :=
  (blitRgba32_exact ⟨fun _ => 1, none⟩ onePixel (-1) 0 2 1 [7, 9] (by decide) (by decide)
    (by decide) 0 0 (by decide)).1 ⟨by decide, by decide⟩

theorem wide_source_not_drawn : ∃ src : List UInt32,
    Placed onePixel 0 0 0x80000000 1 0 0 ∧ 0x80000000 ≤ src.length ∧ src[0]? = some 0 ∧
      ((⟨fun _ => 1, none⟩ : Frame UInt32).blitRgba32 onePixel 0 0 0x80000000 1 src).target 0 ≠
        onePixel.fbPack (xrgb 0) := by
  obtain ⟨src, length, first⟩ : ∃ src : List UInt32, src.length = 0x80000000 ∧ src[0]? = some 0 :=
    ⟨_, List.length_replicate, List.getElem?_replicate_of_lt (by decide)⟩
  refine ⟨src, ⟨by decide, by decide⟩, length.ge, first, ?_⟩
  rw [Frame.blitRgba32, blit_eq, length, if_neg (by decide), Frame.paintClipped, if_pos (by decide)]
  decide

end OsCortex.Framebuffer
