import OsCortex.Compositor.Effects

/-!
How long the buffers of a surface are. Only `surface_geometry_set_for` changes a size and leaves the
buffers as they are.
-/

namespace OsCortex.Compositor

open Option

variable {state next : State} {caller : Caller} {index other : Fin maxSurfaces} {op : Op}
  {reply : Reply} {slot : Slot}

structure Buffers where
  state : State := {}
  panicked : Bool := false

variable (buffers : Buffers)

def Buffers.step : Step → Buffers
  | .op caller op =>
    let (next, reply) := buffers.state.perform caller op
    { state := next, panicked := reply == .panic }
  | .render => { buffers with state := buffers.state.rendered }

def bufferRuns : Runs.Machine Buffers Step where
  start buffers := buffers = {}
  step buffers label := if buffers.panicked then none else some (buffers.step label)

def Slot.Sized (slot : Slot) : Prop :=
  slot.surface.inUse = true →
    (∃ front, slot.buffer = some front ∧ slot.surface.pixels ≤ front.length) ∧
    ∀ back, slot.backBuffer = some back → slot.surface.pixels ≤ back.length

def InBounds : Prop := (∀ index, (buffers.state.slots index).Sized) ∧ buffers.panicked = false

def Slot.Room (slot : Slot) (pixels : Nat) : Prop :=
  (∀ front, slot.buffer = some front → pixels ≤ front.length) ∧
    ∀ back, slot.backBuffer = some back → pixels ≤ back.length

def FitsBuffers (label : Step) : Prop :=
  match label with
  | .op caller (.geometrySet id _ _ width height) => ∀ index, checkSize width height = none →
      buffers.state.owned caller id = .ok index →
      (buffers.state.slots index).Room (width.toNat * height.toNat)
  | _ => True

structure Slot.Whole (slot : Slot) : Prop where
  sized : slot.Sized
  pending : slot.backPending = true → slot.surface.inUse = true ∧ slot.backBuffer ≠ none
  free : slot.surface.inUse = false → slot.backBuffer = none

lemma Slot.Whole.look {after : Slot} (whole : slot.Whole)
    (used : after.surface.inUse = slot.surface.inUse)
    (pixels : after.surface.pixels = slot.surface.pixels) (front : after.buffer = slot.buffer)
    (back : after.backBuffer = slot.backBuffer) (pending : after.backPending = slot.backPending) :
    after.Whole := by
  refine ⟨?_, ?_, ?_⟩
  · rw [Slot.Sized, used, pixels, front, back]
    exact whole.sized
  · rw [used, back, pending]
    exact whole.pending
  · rw [used, back]
    exact whole.free

lemma Slot.Whole.flip (whole : slot.Whole) (used : slot.surface.inUse) : slot.flip.Whole := by
  obtain ⟨⟨_, has, length⟩, back⟩ := whole.sized used
  refine ⟨fun _ => ⟨⟨_, rfl, ?_⟩, fun other same => ?_⟩, fun pending => ?_, fun free => ?_⟩
  · show slot.surface.pixels ≤ (slot.backBuffer.getD (slot.buffer.getD _)).length
    cases second : slot.backBuffer with
    | none => simpa [has] using length
    | some filled => exact back filled second
  · have same : slot.buffer = some other := same
    rw [has] at same
    cases same
    exact length
  · refine ⟨used, ?_⟩
    show slot.buffer ≠ none
    rw [has]
    nofun
  · exact absurd (used.symm.trans free) (by decide)

lemma Slot.Whole.geometrySet (whole : slot.Whole) (used : slot.surface.inUse) {x y : Int32}
    {width height : UInt32} (room : slot.Room (width.toNat * height.toNat)) :
    (slot.geometrySet x y width height).Whole := by
  obtain ⟨⟨front, has, _⟩, _⟩ := whole.sized used
  exact ⟨fun _ => ⟨⟨front, has, room.1 front has⟩, room.2⟩, whole.pending, whole.free⟩

lemma Slot.Whole.setBack (whole : slot.Whole) (used : slot.surface.inUse)
    {filled : List UInt32} (length : filled.length = slot.surface.pixels) (pending : Bool) :
    Slot.Whole { slot with backBuffer := some filled, backPending := pending } := by
  obtain ⟨front, _⟩ := whole.sized used
  refine ⟨fun _ => ⟨front, fun back same => ?_⟩, fun _ => ⟨used, nofun⟩, fun free => ?_⟩
  · cases same
    exact length.ge
  · exact absurd (used.symm.trans free) (by decide)

lemma edits_whole {before after : Slot} (whole : before.Whole)
    (used : before.surface.inUse) (edits : op.Edits before after)
    (room : ∀ id x y width height, op = .geometrySet id x y width height →
      checkSize width height = none → before.Room (width.toNat * height.toNat)) :
    after.Whole := by
  cases op with
  | create width height => exact edits.elim
  | destroy id =>
    rw [edits]
    exact ⟨nofun, nofun, fun _ => rfl⟩
  | geometrySet id x y width height =>
    rw [edits.2]
    exact whole.geometrySet used (room id x y width height rfl edits.1)
  | flip id =>
    rw [edits]
    exact whole.flip used
  | upload id memory len =>
    rcases upload_cases edits with ⟨filled, _, length, same⟩ | ⟨filled, none, length, same⟩ |
      ⟨_, _, _, never⟩
    · rw [some.inj same]
      exact whole.setBack used length before.backPending
    · rw [some.inj same]
      refine ⟨fun _ => ⟨⟨filled, rfl, length⟩, fun back same => ?_⟩, whole.pending, whole.free⟩
      cases none.symm.trans same
    · cases never
  | submit id memory len rowBytes =>
    obtain ⟨filled, length, _, same⟩ := submit_ok edits
    rw [some.inj same]
    exact whole.setBack used length true
  | move _ _ _ _ | zSet _ _ | visibilitySet _ _ | clipSet _ _ _ _ _ | damageSet _ _ _ _ _
  | present _ =>
    rw [edits]
    exact whole.look rfl rfl rfl rfl rfl

lemma Slot.Whole.promote (whole : slot.Whole) : slot.promote.Whole := by
  rw [Slot.promote]
  split
  · rename_i pending
    obtain ⟨used, has⟩ := whole.pending pending
    obtain ⟨⟨_, buffer, length⟩, backs⟩ := whole.sized used
    obtain ⟨back, second⟩ := ne_none_iff_exists'.1 has
    refine ⟨fun _ => ⟨⟨back, second, backs back second⟩, fun other same => ?_⟩, nofun,
      fun free => ?_⟩
    · have same : slot.buffer = some other := same
      cases buffer.symm.trans same
      exact length
    · exact absurd (used.symm.trans free) (by decide)
  · exact whole

def Buffers.Whole (buffers : Buffers) : Prop :=
  (∀ index, (buffers.state.slots index).Whole) ∧ buffers.panicked = false

lemma effect_whole (whole : ∀ index, (state.slots index).Whole)
    (effect : Effect state caller op next reply)
    (room : ∀ id x y width height index, op = .geometrySet id x y width height →
      checkSize width height = none → state.position id = some index →
      Allowed caller (state.slots index) →
      (state.slots index).Room (width.toNat * height.toNat)) :
    (∀ index, (next.slots index).Whole) ∧ (reply == .panic) = false := by
  cases effect with
  | refused text => exact ⟨whole, rfl⟩
  | panicked index found stuck =>
    rcases stuck with ⟨id, memory, len, rfl, stuck⟩ | ⟨id, memory, len, _, rfl, stuck⟩
    · have used := (position_used found).1
      obtain ⟨⟨_, has, length⟩, _⟩ := (whole index).sized used
      rcases upload_cases stuck with ⟨_, _, _, never⟩ | ⟨_, _, _, never⟩ | ⟨other, same, short, _⟩
      · cases never
      · cases never
      · cases has.symm.trans same
        exact absurd length (not_le.2 short)
    · obtain ⟨_, _, _, never⟩ := submit_ok stuck
      cases never
  | created index width height asked sized few free =>
    refine ⟨fun other => ?_, rfl⟩
    by_cases here : other = index
    · subst here
      dsimp only
      rw [setSlot_self]
      have empty := (whole other).free free
      refine ⟨fun _ => ⟨⟨_, rfl, ?_⟩, fun back same => ?_⟩, fun pending => ?_, nofun⟩
      · exact List.length_replicate.ge
      · cases empty.symm.trans same
      · exact absurd empty ((whole other).pending pending).2
    dsimp only
    rw [setSlot_other here]
    exact whole other
  | edited index slot found used allowed edits =>
    refine ⟨fun other => ?_, rfl⟩
    by_cases here : other = index
    · subst here
      rw [setSlot_self]
      refine edits_whole (whole other) used edits ?_
      rintro id x y width height rfl sized
      exact room id x y width height other rfl sized found allowed
    · rw [setSlot_other here]
      exact whole other

lemma owned_ok {id : UInt32} : state.owned caller id = .ok index ↔
    state.position id = some index ∧ Allowed caller (state.slots index) := by
  rw [State.owned]
  cases found : state.position id with
  | none => simp
  | some place =>
    dsimp only
    by_cases denied : caller.pid ≠ 0 ∧ (state.slots place).owner ≠ caller.leader
    · rw [if_pos denied]
      refine iff_of_false (by rintro ⟨⟩) ?_
      rintro ⟨same, kernel | owner⟩
      · exact denied.1 kernel
      · cases same
        exact denied.2 owner
    rw [if_neg denied]
    constructor
    · intro same
      cases same
      refine ⟨rfl, ?_⟩
      rw [Allowed]
      tauto
    rintro ⟨same, _⟩
    cases same
    rfl

lemma Buffers.Whole.step {buffers next : Buffers} (whole : buffers.Whole) {label : Step}
    (fits : FitsBuffers buffers label) (taken : bufferRuns.step buffers label = some next) :
    next.Whole := by
  simp only [bufferRuns, whole.2, Bool.false_eq_true, if_false, some.injEq] at taken
  subst taken
  cases label with
  | render => exact ⟨fun index => (whole.1 index).promote, whole.2⟩
  | op caller op =>
    refine effect_whole whole.1 (perform_effect buffers.state caller op) ?_
    rintro _ _ _ _ _ index rfl sized found allowed
    exact fits index sized (owned_ok.2 ⟨found, allowed⟩)

lemma geometrySet_accepted {id : UInt32} {x y : Int32} {width height : UInt32}
    (sized : checkSize width height = none) (owned : state.owned caller id = .ok index) :
    state.perform caller (.geometrySet id x y width height) =
      (state.setSlot index ((state.slots index).geometrySet x y width height), .ok) := by
  simp [State.perform, State.surfaceGeometrySet, sized, State.update, owned]

lemma Buffers.Whole.broken {buffers : Buffers} (whole : buffers.Whole) {label : Step}
    (large : ¬ FitsBuffers buffers label) :
    ∃ next, bufferRuns.step buffers label = some next ∧ ¬ InBounds next := by
  refine ⟨buffers.step label, by simp [bufferRuns, whole.2], fun inside => large ?_⟩
  cases label with
  | render => trivial
  | op caller op =>
    cases op with
    | geometrySet id x y width height =>
      intro index sized owned
      have used := (position_used (owned_ok.1 owned).1).1
      have grown := inside.1 index
      simp only [Buffers.step, geometrySet_accepted sized owned, setSlot_self] at grown
      obtain ⟨⟨_, has, length⟩, back⟩ := grown used
      refine ⟨fun other same => ?_, back⟩
      cases has.symm.trans same
      exact length
    | create _ _ | destroy _ | upload _ _ _ | submit _ _ _ _ | move _ _ _ _ | zSet _ _
    | visibilitySet _ _ | clipSet _ _ _ _ _ | damageSet _ _ _ _ _ | flip _ | present _ => trivial

theorem buffers_sized_iff (labels : List Step) :
    bufferRuns.Always InBounds {} labels ↔ bufferRuns.Obeys FitsBuffers {} labels := by
  have start : Buffers.Whole {} := ⟨fun _ => ⟨nofun, nofun, fun _ => rfl⟩, rfl⟩
  have holds : ∀ buffers : Buffers, buffers.Whole → InBounds buffers := fun buffers whole =>
    ⟨fun index => (whole.1 index).sized, whole.2⟩
  exact Runs.Machine.always_iff_obeys holds (fun _ _ _ whole _ fits taken => whole.step fits taken)
    (fun _ _ whole _ large => whole.broken large) labels start (bufferRuns.obeys_anyStep labels {})

theorem upload_after_resize_panics : ∃ buffers, bufferRuns.Reachable Runs.anyStep buffers ∧
    ¬ InBounds buffers ∧ buffers.panicked = true := by
  have ran : (bufferRuns.run {} [.op ⟨5, 5⟩ (.create 1 1), .op ⟨5, 5⟩ (.geometrySet 1 0 0 2 1),
      .op ⟨5, 5⟩ (.upload 1 (fun _ => 0) 8)]).map Buffers.panicked = some true := by decide
  obtain ⟨buffers, reached, panicked⟩ := Runs.Machine.run_view _ rfl ran
  refine ⟨buffers, reached, fun inside => ?_, panicked⟩
  exact absurd (inside.2.symm.trans panicked) (by decide)

end OsCortex.Compositor
