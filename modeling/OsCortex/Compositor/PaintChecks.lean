import OsCortex.Compositor.Effects
import OsCortex.Compositor.HitChecks

/-! Frames compared with a picture painted from the bottom up. -/

namespace OsCortex.Compositor

open List Option State
open Framebuffer (Display Frame Covers onePixel)

variable {state next : State} {caller : Caller} {index other : Fin maxSurfaces} {op : Op}
  {reply : Reply} {display : Display} {px py : Nat}

structure Desk where
  state : State := {}
  frame : Frame UInt32
  clipped : UInt32 → Bool := fun _ => false

inductive Action where
  | op (caller : Caller) (op : Op)
  | render (bypass : Bool)

def Desk.noteClip (desk : Desk) (op : Op) (reply : Reply) : UInt32 → Bool :=
  match op, reply with
  | .clipSet id _ _ _ _, .ok => Function.update desk.clipped id true
  | .create _ _, .created id => Function.update desk.clipped id false
  | _, _ => desk.clipped

def Desk.step (display : Display) (bootScreen : Frame UInt32 → Frame UInt32) (desk : Desk) :
    Action → Desk
  | .op caller op =>
    let (next, reply) := desk.state.perform caller op
    { desk with state := next, clipped := desk.noteClip op reply }
  | .render bypass =>
    let (next, frame) := desk.state.renderFrame display bootScreen bypass desk.frame
    { desk with state := next, frame }

def desks (display : Display) (bootScreen : Frame UInt32 → Frame UInt32) :
    Runs.Machine Desk Action where
  start desk := desk.state = {}
  step desk label := some (desk.step display bootScreen label)

def Surface.Inside (surface : Surface) (px py : Nat) : Prop :=
  (surface.x.toInt ≤ px ∧ px < surface.x.toInt + surface.width.toNat) ∧
    surface.y.toInt ≤ py ∧ py < surface.y.toInt + surface.height.toNat

def Surface.InClip (surface : Surface) (px py : Nat) : Prop :=
  (surface.clipX.toInt ≤ px - surface.x.toInt ∧
      px - surface.x.toInt < surface.clipX.toInt + surface.clipW.toNat) ∧
    surface.clipY.toInt ≤ py - surface.y.toInt ∧
      py - surface.y.toInt < surface.clipY.toInt + surface.clipH.toNat

def Slot.Shows (slot : Slot) (clipped : UInt32 → Bool) (px py : Nat) : Prop :=
  slot.surface.inUse = true ∧ slot.presented = true ∧ slot.surface.visible = true ∧
    slot.surface.Inside px py ∧
    (clipped slot.surface.id = true → slot.surface.InClip px py)

def Painted (display : Display) (state : State) (clipped : UInt32 → Bool) (px py : Nat)
    (color : UInt32) : Prop :=
  (∃ index, (state.slots index).Shows clipped px py ∧
    (∀ other, other ≠ index → (state.slots other).Shows clipped px py → state.Above index other) ∧
    ∃ buf pixel, (state.slots index).buffer = some buf ∧
      buf[(state.slots index).surface.source px py]? = some pixel ∧
      color = display.fbPack (Framebuffer.xrgb pixel)) ∨
  (∀ index, ¬ (state.slots index).Shows clipped px py) ∧ color = display.fbPack background

def State.Presents (state : State) : Prop :=
  ∃ index, (state.slots index).surface.inUse = true ∧ (state.slots index).presented = true

def FramePainted (display : Display) (bootScreen : Frame UInt32 → Frame UInt32) (desk : Desk)
    (label : Action) : Prop :=
  match label with
  | .op _ _ => True
  | .render bypass => bypass = false → desk.state.promote.Presents →
      ∀ (px : Fin display.width) (py : Fin display.height),
        Painted display desk.state.promote desk.clipped px py
          ((desk.step display bootScreen label).frame.front (py * display.pitchPx + px))

structure Slot.Plain (slot : Slot) (clipped : UInt32 → Bool) : Prop where
  visible : slot.surface.visible = true
  whole : clipped slot.surface.id = true → slot.surface.clipX = 0 ∧ slot.surface.clipY = 0 ∧
    slot.surface.width ≤ slot.surface.clipW ∧ slot.surface.height ≤ slot.surface.clipH
  filled : ∃ buf, slot.buffer = some buf ∧ slot.surface.pixels ≤ buf.length
  right : slot.surface.x.toInt + slot.surface.width.toNat < 2 ^ 31
  bottom : slot.surface.y.toInt + slot.surface.height.toNat < 2 ^ 31

def PlainFrame (desk : Desk) (label : Action) : Prop :=
  match label with
  | .op _ _ => True
  | .render _ => ∀ index, (desk.state.slots index).surface.inUse = true →
      (desk.state.promote.slots index).presented = true →
      (desk.state.promote.slots index).Plain desk.clipped

def Slot.Small (slot : Slot) : Prop :=
  slot.surface.inUse = true →
    slot.surface.width.toNat < 2 ^ 31 ∧ slot.surface.height.toNat < 2 ^ 31

variable {clipped : UInt32 → Bool} {bootScreen : Frame UInt32 → Frame UInt32}

lemma covers_iff_inside {slot : Slot} (plain : slot.Plain clipped)
    (small : slot.Small) (used : slot.surface.inUse) :
    Covers slot.surface.x slot.surface.y slot.surface.width slot.surface.height px py ↔
      slot.surface.Inside px py := by
  obtain ⟨width, height⟩ := small used
  rw [Covers, Framebuffer.saturatingAdd_eq width plain.right,
    Framebuffer.saturatingAdd_eq height plain.bottom, Surface.Inside]

lemma shows_iff_paints {slot : Slot}
    (plain : slot.presented → slot.Plain clipped) (small : slot.Small)
    (used : slot.surface.inUse) : slot.Shows clipped px py ↔ slot.Paints px py := by
  constructor
  · rintro ⟨_, presented, _, inside, _⟩
    have plain := plain presented
    exact ⟨presented, plain.filled, (covers_iff_inside plain small used).2 inside⟩
  rintro ⟨presented, _, covers⟩
  have plain := plain presented
  have inside := (covers_iff_inside plain small used).1 covers
  refine ⟨used, presented, plain.visible, inside, fun clip => ?_⟩
  obtain ⟨left, top, wide, high⟩ := plain.whole clip
  rw [UInt32.le_iff_toNat_le] at wide high
  obtain ⟨⟨_, _⟩, _, _⟩ := inside
  rw [Surface.InClip, left, top]
  have zero : (0 : Int32).toInt = 0 := rfl
  omega

lemma source_lt {surface : Surface} (inside : surface.Inside px py) :
    surface.source px py < surface.pixels := by
  obtain ⟨⟨_, _⟩, _, _⟩ := inside
  rw [Surface.source, Surface.pixels]
  have line : (py - surface.y.toInt).toNat + 1 ≤ surface.height.toNat := by omega
  have rows := Nat.mul_le_mul_right surface.width.toNat line
  rw [Nat.succ_mul, Nat.mul_comm surface.height.toNat] at rows
  omega

structure State.Plain (state : State) (clipped : UInt32 → Bool) : Prop where
  small : ∀ index, (state.slots index).Small
  plain : ∀ index, (state.slots index).surface.inUse = true →
    (state.slots index).presented = true → (state.slots index).Plain clipped

lemma toInt_add_size {x : Int32} {size : UInt32} (small : size.toNat < 2 ^ 31)
    (inside : x.toInt + size.toNat < 2 ^ 31) :
    (x + size.toInt32).toInt = x.toInt + size.toNat := by
  have lower := x.le_toInt
  have signed : size.toInt32.toInt = size.toNat := Framebuffer.asI32_eq small
  rw [Int32.toInt_add, signed, Int.bmod_eq_of_le (by omega) (by omega)]

lemma covered_paints (plain : state.Plain clipped)
    (covered : state.covered display) (column : px < display.width)
    (line : py < display.height) :
    ∃ index, (state.slots index).surface.inUse ∧ (state.slots index).Paints px py := by
  obtain ⟨index, _, covers⟩ := any_eq_true.1 covered
  simp only [Bool.and_eq_true, decide_eq_true_eq, Int32.le_iff_toInt_le] at covers
  obtain ⟨⟨⟨⟨⟨used, presented⟩, _⟩, _⟩, right⟩, bottom⟩ := covers
  have slot := plain.plain index used presented
  obtain ⟨width, height⟩ := plain.small index used
  rw [toInt_add_size width slot.right, Int32.toInt_ofNat_of_lt display.widthSmall] at right
  rw [toInt_add_size height slot.bottom, Int32.toInt_ofNat_of_lt display.heightSmall] at bottom
  have zero : (0 : Int32).toInt = 0 := rfl
  refine ⟨index, used, presented, slot.filled, ?_⟩
  rw [covers_iff_inside slot (plain.small index) used, Surface.Inside]
  omega

lemma clear_background (frame : Frame UInt32) (uncovered : state.covered display = false)
    (column : px < display.width) (line : py < display.height) :
    (state.clear display false frame).shown display display.fbPack px py =
      display.fbPack background := by
  have size : ∀ {n : Nat}, n < 2 ^ 31 → (UInt32.ofNat n).toNat = n := fun small =>
    Nat.mod_eq_of_lt (lt_trans small (by decide))
  have zero : (0 : Int32).toInt = 0 := rfl
  have width := display.widthSmall
  have height := display.heightSmall
  rw [clear, uncovered, if_neg (by decide), Framebuffer.shown_fillRect _ _ column line]
  refine if_pos ?_
  rw [Covers, Framebuffer.saturatingAdd_eq (by rw [size width]; exact width)
    (by rw [size width, zero]; omega), Framebuffer.saturatingAdd_eq
    (by rw [size height]; exact height) (by rw [size height, zero]; omega), size width, size height]
  omega

lemma hasVisibleContent_of_presents (plain : state.Plain clipped)
    (presents : state.Presents) : state.hasVisibleContent := by
  obtain ⟨index, used, presented⟩ := presents
  obtain ⟨_, has, _⟩ := (plain.plain index used presented).filled
  refine any_eq_true.2 ⟨index, mem_finRange index, ?_⟩
  simp [used, presented, has]

lemma drawn_painted (plain : state.Plain clipped)
    (frame : Frame UInt32) (column : px < display.width) (line : py < display.height) :
    Painted display state clipped px py
      ((state.drawSurfaces display display.fbPack
        (fun _ buf index => Framebuffer.xrgb (buf.getD index 0))
        (state.clear display false frame)).shown display display.fbPack px py) := by
  have shows : ∀ index, (state.slots index).Shows clipped px py ↔
      (state.slots index).surface.inUse ∧ (state.slots index).Paints px py := by
    intro index
    constructor
    · intro shows
      have used := shows.1
      exact ⟨used, (shows_iff_paints (plain.plain index used) (plain.small index) used).1 shows⟩
    · rintro ⟨used, paints⟩
      exact (shows_iff_paints (plain.plain index used) (plain.small index) used).2 paints
  rw [shown_drawSurfaces _ _ _ column line]
  rcases find_top state px py with ⟨none, unpainted⟩ | ⟨index, found, used, paints, top⟩
  · rw [none]
    refine .inr ⟨fun index show_ => ?_, ?_⟩
    · obtain ⟨used, paints⟩ := (shows index).1 show_
      exact unpainted index used paints
    refine clear_background frame ?_ column line
    by_contra covered
    obtain ⟨index, used, paints⟩ := covered_paints plain (eq_true_of_ne_false covered) column line
    exact unpainted index used paints
  rw [found]
  have show_ := (shows index).2 ⟨used, paints⟩
  obtain ⟨buf, has, length⟩ := paints.2.1
  have inside : (state.slots index).surface.source px py < buf.length :=
    lt_of_lt_of_le (source_lt show_.2.2.2.1) length
  refine .inl ⟨index, show_, fun other differs also => ?_, buf, _, has,
    getElem?_eq_getElem inside, ?_⟩
  · obtain ⟨alsoUsed, alsoPaints⟩ := (shows other).1 also
    exact top other differs alsoUsed alsoPaints
  · simp [has, getD_eq_getElem?_getD, getElem?_eq_getElem inside]

lemma checkSize_small {width height : UInt32} (sized : checkSize width height = none) :
    width.toNat < 2 ^ 31 ∧ height.toNat < 2 ^ 31 := by
  rw [checkSize] at sized
  split at sized
  · cases sized
  split at sized
  · cases sized
  rename_i some few
  have wide : 0 < width.toNat := by
    refine Nat.pos_of_ne_zero fun zero => some (.inl ?_)
    exact UInt32.toNat_inj.1 zero
  have high : 0 < height.toNat := by
    refine Nat.pos_of_ne_zero fun zero => some (.inr ?_)
    exact UInt32.toNat_inj.1 zero
  have few : width.toNat * height.toNat ≤ 1920 * 1080 * 2 := not_lt.1 few
  have left := Nat.le_mul_of_pos_right width.toNat high
  have right := Nat.le_mul_of_pos_left height.toNat wide
  omega

lemma edits_small {before after : Slot} (edits : op.Edits before after) (small : before.Small) :
    after.Small := by
  cases op with
  | create width height => exact edits.elim
  | destroy id =>
    rw [edits]
    nofun
  | upload id memory len =>
    rcases upload_cases edits with ⟨_, _, _, same⟩ | ⟨_, _, _, same⟩ | ⟨_, _, _, never⟩
    iterate 2
      rw [some.inj same]
      exact small
    · cases never
  | submit id memory len rowBytes =>
    obtain ⟨_, _, _, same⟩ := submit_ok edits
    rw [some.inj same]
    exact small
  | geometrySet id x y width height =>
    rw [edits.2]
    exact fun _ => checkSize_small edits.1
  | move _ _ _ _ | zSet _ _ | visibilitySet _ _ | clipSet _ _ _ _ _ | damageSet _ _ _ _ _ | flip _
  | present _ =>
    rw [edits]
    exact small

lemma effect_small (small : ∀ index, (state.slots index).Small)
    (effect : Effect state caller op next reply) : ∀ index, (next.slots index).Small := by
  cases effect with
  | refused text => exact small
  | panicked _ _ _ => exact small
  | created index width height asked sized few free =>
    intro other
    by_cases here : other = index
    · subst here
      rw [setSlot_self]
      exact fun _ => checkSize_small sized
    rw [setSlot_other here]
    exact small other
  | edited index slot found used allowed edits =>
    intro other
    by_cases here : other = index
    · subst here
      rw [setSlot_self]
      exact edits_small edits (small other)
    · rw [setSlot_other here]
      exact small other

lemma promote_small (small : ∀ index, (state.slots index).Small) (index : Fin maxSurfaces) :
    (state.promote.slots index).Small := by
  simp only [promote, Slot.Small, promote_surface]
  exact small index

lemma renderFrame_slots (bootScreen : Frame UInt32 → Frame UInt32) (bypass : Bool)
    (frame : Frame UInt32) :
    (state.renderFrame display bootScreen bypass frame).1.slots = state.promote.slots := by
  rw [renderFrame]
  split <;> rfl

lemma step_small {desk : Desk} (label : Action)
    (small : ∀ index, (desk.state.slots index).Small) (index : Fin maxSurfaces) :
    ((desk.step display bootScreen label).state.slots index).Small := by
  cases label with
  | op caller op => exact effect_small small (perform_effect desk.state caller op) index
  | render bypass =>
    simp only [Desk.step, renderFrame_slots]
    exact promote_small small index

lemma render_painted {desk : Desk} {label : Action}
    (small : ∀ index, (desk.state.slots index).Small) (plain : PlainFrame desk label) :
    FramePainted display bootScreen desk label := by
  cases label with
  | op caller op => trivial
  | render bypass =>
    rintro rfl presents px py
    have whole : desk.state.promote.Plain desk.clipped := by
      refine ⟨promote_small small, fun index used presented => plain index ?_ presented⟩
      simpa [promote] using used
    have visible := hasVisibleContent_of_presents whole presents
    have content : hasVisibleContent
        { desk.state.promote with frameCounter := desk.state.frameCounter + 1 } := visible
    simp only [Desk.step, renderFrame, content, if_true]
    rw [Framebuffer.shown_swapBuffers _ px.2 py.2]
    exact drawn_painted whole desk.frame px.2 py.2

theorem frames_painted (display : Display) (bootScreen : Frame UInt32 → Frame UInt32)
    (frame : Frame UInt32) (labels : List Action)
    (plain : (desks display bootScreen).Obeys PlainFrame { frame } labels) :
    (desks display bootScreen).Obeys (FramePainted display bootScreen) { frame } labels := by
  have implied : ∀ (desk : Desk) (label : Action), (∀ index, (desk.state.slots index).Small) →
      PlainFrame desk label → FramePainted display bootScreen desk label :=
    fun _ _ small plain => render_painted small plain
  have preserved : ∀ (desk : Desk) (label : Action) (next : Desk),
      (∀ index, (desk.state.slots index).Small) → PlainFrame desk label →
      (desks display bootScreen).step desk label = some next →
      ∀ index, (next.state.slots index).Small := by
    intro desk label next small _ taken
    cases taken
    exact step_small label small
  exact Runs.Machine.obeys_of_invariant implied preserved labels nofun plain

def uploaded : List Action := [.op ⟨5, 5⟩ (.create 1 1), .op ⟨5, 5⟩ (.upload 1 (fun _ => 7) 4)]

def blank : Desk := { frame := { front := fun _ => 0 } }

lemma uploaded_plain :
    (desks onePixel id).Obeys PlainFrame blank (uploaded ++ [.render false]) := by
  refine ⟨trivial, fun first taken => ⟨trivial, fun second also => ⟨?_, fun _ _ => trivial⟩⟩⟩
  cases taken
  cases also
  intro index used presented
  have only : ∀ index, (((blank.step onePixel id (.op ⟨5, 5⟩ (.create 1 1))).step onePixel id
      (.op ⟨5, 5⟩ (.upload 1 (fun _ => 7) 4))).state.slots index).surface.inUse →
      index = ⟨0, by decide⟩ := by decide
  cases only index used
  exact ⟨rfl, nofun, ⟨_, rfl, by decide⟩, by decide, by decide⟩

theorem frames_painted_uploaded :
    (desks onePixel id).Obeys (FramePainted onePixel id) blank (uploaded ++ [.render false]) :=
  frames_painted onePixel id blank.frame _ uploaded_plain

theorem hidden_surface_drawn : ∃ desk, (desks onePixel id).Reachable Runs.anyStep desk ∧
    ¬ FramePainted onePixel id desk (.render false) := by
  have created : (desks onePixel id).Reachable Runs.anyStep
      (blank.step onePixel id (.op ⟨5, 5⟩ (.create 1 1))) :=
    .step (.start (show blank.state = {} from rfl)) trivial rfl
  have filled : (desks onePixel id).Reachable Runs.anyStep
      ((blank.step onePixel id (.op ⟨5, 5⟩ (.create 1 1))).step onePixel id
        (.op ⟨5, 5⟩ (.upload 1 (fun _ => 7) 4))) := .step created trivial rfl
  obtain ⟨desk, same⟩ : ∃ desk, desk =
      ((blank.step onePixel id (.op ⟨5, 5⟩ (.create 1 1))).step onePixel id
        (.op ⟨5, 5⟩ (.upload 1 (fun _ => 7) 4))).step onePixel id
        (.op ⟨5, 5⟩ (.visibilitySet 1 false)) := ⟨_, rfl⟩
  refine ⟨desk, same ▸ .step filled trivial rfl, fun painted => ?_⟩
  have hidden : ∀ index, (desk.state.promote.slots index).surface.inUse = true →
      (desk.state.promote.slots index).surface.visible = false := by
    rw [same]
    decide
  have presents : desk.state.promote.Presents := by
    rw [same]
    exact ⟨⟨0, by decide⟩, by decide, by decide⟩
  rcases painted rfl presents ⟨0, by decide⟩ ⟨0, by decide⟩ with ⟨index, shows, _⟩ | ⟨_, color⟩
  · exact absurd (shows.2.2.1.symm.trans (hidden index shows.1)) (by decide)
  rw [same] at color
  revert color
  decide

end OsCortex.Compositor
