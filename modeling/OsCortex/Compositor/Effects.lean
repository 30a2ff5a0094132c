import OsCortex.Compositor.SurfaceCore

/-!
What an operation can do to the surface table: nothing, a new surface in a free slot, or one slot of
a surface that the caller may change.
-/

namespace OsCortex.Compositor

open List State

variable {state : State} {caller : Caller} {index other : Fin maxSurfaces} {op : Op}
  {memory : Nat → UInt8} {result : Option Slot}

def Op.Edits (op : Op) (before after : Slot) : Prop :=
  match op with
  | .create _ _ => False
  | .move _ x y z => after = before.move x y z
  | .destroy _ => after = {}
  | .zSet _ z => after = before.zSet z
  | .geometrySet _ x y width height =>
    checkSize width height = none ∧ after = before.geometrySet x y width height
  | .visibilitySet _ visible => after = before.visibilitySet visible
  | .clipSet _ x y w h => after = before.clipSet x y w h
  | .damageSet _ x y w h => after = before.damageSet x y w h
  | .flip _ => after = before.flip
  | .upload _ memory len => before.upload memory len = .ok (some after)
  | .present _ => after = before.present
  | .submit _ memory len srcRowBytes => before.submit memory len srcRowBytes = .ok (some after)

def Op.target : Op → Option UInt32
  | .create _ _ => none
  | .move id _ _ _ | .destroy id | .zSet id _ | .geometrySet id _ _ _ _ | .visibilitySet id _
  | .clipSet id _ _ _ _ | .damageSet id _ _ _ _ | .flip id | .upload id _ _ | .present id
  | .submit id _ _ _ => some id

def Allowed (caller : Caller) (slot : Slot) : Prop := caller.pid = 0 ∨ slot.owner = caller.leader

def State.fresh (state : State) (caller : Caller) (index : Fin maxSurfaces)
    (width height : UInt32) : Slot :=
  { state.slots index with
    surface :=
      { id := state.nextId, width, height, clipW := width, clipH := height, inUse := true }
    owner := ownerLeader caller
    buffer := some (List.replicate (width.toNat * height.toNat) 0)
    presented := false }

inductive Effect (state : State) (caller : Caller) (op : Op) : State → Reply → Prop
  | refused (text : String) : Effect state caller op state (.err text)
  | panicked (index : Fin maxSurfaces) (found : op.target.bind state.position = some index)
      (stuck : (∃ id memory len, op = .upload id memory len ∧
          (state.slots index).upload memory len = .ok none) ∨
        ∃ id memory len rowBytes, op = .submit id memory len rowBytes ∧
          (state.slots index).submit memory len rowBytes = .ok none) :
      Effect state caller op state .panic
  | created (index : Fin maxSurfaces) (width height : UInt32) (asked : op = .create width height)
      (sized : checkSize width height = none)
      (few : ownerLeader caller = 0 ∨ state.ownedCount (ownerLeader caller) < maxSurfacesPerPid)
      (free : (state.slots index).surface.inUse = false) :
      Effect state caller op
        { state.setSlot index (state.fresh caller index width height) with
          nextId := max (state.nextId + 1) 1 } (.created state.nextId)
  | edited (index : Fin maxSurfaces) (slot : Slot)
      (found : op.target.bind state.position = some index)
      (used : (state.slots index).surface.inUse = true)
      (allowed : Allowed caller (state.slots index))
      (edits : op.Edits (state.slots index) slot) :
      Effect state caller op (state.setSlot index slot) .ok

lemma position_used {id : UInt32} (found : state.position id = some index) :
    (state.slots index).surface.inUse ∧ (state.slots index).surface.id = id := by
  have hit := find?_some found
  simpa using hit

lemma update_cases (state : State) (caller : Caller) (id : UInt32)
    (change : Slot → Except String (Option Slot)) :
    (∃ text, state.update caller id change = (state, .err text)) ∨
    (∃ index, state.position id = some index ∧ change (state.slots index) = .ok none ∧
      state.update caller id change = (state, .panic)) ∨
    ∃ index slot, state.position id = some index ∧ Allowed caller (state.slots index) ∧
      change (state.slots index) = .ok (some slot) ∧
      state.update caller id change = (state.setSlot index slot, .ok) := by
  rw [update, owned]
  cases found : state.position id with
  | none => exact .inl ⟨_, rfl⟩
  | some index =>
    dsimp only
    by_cases denied : caller.pid ≠ 0 ∧ (state.slots index).owner ≠ caller.leader
    · rw [if_pos denied]
      exact .inl ⟨_, rfl⟩
    have allowed : Allowed caller (state.slots index) := by
      tauto
    rw [if_neg denied]
    dsimp only
    cases changed : change (state.slots index) with
    | error text => exact .inl ⟨text, rfl⟩
    | ok result =>
      cases result with
      | none => exact .inr (.inl ⟨index, rfl, changed, rfl⟩)
      | some slot => exact .inr (.inr ⟨index, slot, rfl, allowed, changed, rfl⟩)

lemma effect_update {id : UInt32} {change : Slot → Slot} (names : op.target = some id)
    (edits : ∀ slot, op.Edits slot (change slot)) :
    Effect state caller op (state.update caller id fun slot => .ok (change slot)).1
      (state.update caller id fun slot => .ok (change slot)).2 := by
  rcases update_cases state caller id fun slot => .ok (some (change slot)) with
    ⟨text, same⟩ | ⟨index, _, never, _⟩ | ⟨index, slot, found, allowed, changed, same⟩
  · rw [same]
    exact .refused text
  · cases never
  cases changed
  rw [same]
  refine .edited index _ ?_ (position_used found).1 allowed (edits _)
  rw [names]
  exact found

lemma effect_create (width height : UInt32) :
    Effect state caller (.create width height) (state.createSurface caller width height).1
      (state.createSurface caller width height).2 := by
  rw [createSurface]
  split
  · exact .refused _
  rename_i sized
  split
  · exact .refused _
  rename_i few
  split
  · exact .refused _
  rename_i index free
  refine .created index width height rfl sized ?_ ?_
  · by_contra full
    simp only [not_or, Nat.not_lt] at full
    exact few full
  · simpa using find?_some free

lemma perform_effect (state : State) (caller : Caller) (op : Op) :
    Effect state caller op (state.perform caller op).1 (state.perform caller op).2 := by
  cases op with
  | create width height => exact effect_create width height
  | move id x y z | zSet id z | visibilitySet id visible | clipSet id x y w h
  | damageSet id x y w h | flip id | present id => exact effect_update rfl fun _ => rfl
  | destroy id => exact @effect_update _ _ (.destroy id) id (fun _ => {}) rfl fun _ => rfl
  | geometrySet id x y width height =>
    simp only [perform, surfaceGeometrySet]
    split
    · exact .refused _
    · rename_i sized
      exact effect_update rfl fun _ => ⟨sized, rfl⟩
  | upload id memory len =>
    simp only [perform]
    rcases update_cases state caller id (Slot.upload memory len) with
      ⟨text, same⟩ | ⟨index, found, stuck, same⟩ | ⟨index, slot, found, allowed, edits, same⟩
    · rw [same]
      exact .refused text
    · rw [same]
      exact .panicked index found (.inl ⟨id, memory, len, rfl, stuck⟩)
    · rw [same]
      exact .edited index slot found (position_used found).1 allowed edits
  | submit id memory len rowBytes =>
    simp only [perform]
    rcases update_cases state caller id (Slot.submit memory len rowBytes) with
      ⟨text, same⟩ | ⟨index, found, stuck, same⟩ | ⟨index, slot, found, allowed, edits, same⟩
    · rw [same]
      exact .refused text
    · rw [same]
      exact .panicked index found (.inr ⟨id, memory, len, rowBytes, rfl, stuck⟩)
    · rw [same]
      exact .edited index slot found (position_used found).1 allowed edits

def Fills (change : List UInt32 → Option (List UInt32)) (fits : Nat → Prop) : Prop :=
  ∀ target, (fits target.length ∧ ∃ filled, change target = some filled ∧
    filled.length = target.length) ∨ ¬ fits target.length ∧ change target = none

lemma fills_writeAt (place : Nat) (pixel : UInt32) :
    Fills (fun target => writeAt target place pixel) (place < ·) := by
  intro target
  by_cases inside : place < target.length
  · exact .inl ⟨inside, _, if_pos inside, length_set⟩
  · exact .inr ⟨inside, if_neg inside⟩

lemma fills_foldlM {ι : Type} {draw : List UInt32 → ι → Option (List UInt32)}
    {fits : ι → Nat → Prop} (each : ∀ item, Fills (fun target => draw target item) (fits item))
    (items : List ι) :
    Fills (fun target => items.foldlM draw target)
      fun length => ∀ item ∈ items, fits item length := by
  intro target
  induction items generalizing target with
  | nil => exact .inl ⟨by simp, target, rfl, rfl⟩
  | cons item rest ih =>
    simp only [foldlM_cons, forall_mem_cons]
    rcases each item target with ⟨fit, filled, drawn, length⟩ | ⟨unfit, stuck⟩
    · have drawn : draw target item = some filled := drawn
      rw [drawn]
      rcases ih filled with ⟨all, last, done, same⟩ | ⟨some, stuck⟩
      · rw [length] at all
        exact .inl ⟨⟨fit, all⟩, last, done, same.trans length⟩
      · rw [length] at some
        exact .inr ⟨fun both => some both.2, stuck⟩
    have stuck : draw target item = none := stuck
    rw [stuck]
    exact .inr ⟨fun both => unfit both.1, rfl⟩

lemma fills_uploadPixels (memory : Nat → UInt8) (pixels : Nat) :
    Fills (uploadPixels memory pixels) (pixels ≤ ·) := by
  intro target
  have all := fills_foldlM (fun index => fills_writeAt index (word memory (index * 4)))
    (range pixels) target
  have same : (∀ index ∈ range pixels, index < target.length) ↔ pixels ≤ target.length := by
    constructor
    · intro inside
      by_contra short
      exact absurd (inside target.length (mem_range.2 (not_le.1 short))) (lt_irrefl _)
    · intro enough index member
      exact lt_of_lt_of_le (mem_range.1 member) enough
  refine all.imp (fun ⟨fits, rest⟩ => ⟨same.1 fits, rest⟩) fun ⟨unfit, stuck⟩ => ?_
  exact ⟨fun enough => unfit (same.2 enough), stuck⟩

lemma foldlM_hits {ι : Type} {draw : List UInt32 → ι → Option (List UInt32)} {hit : ι → Prop}
    {good : List UInt32 → Prop} {items : List ι} {target filled : List UInt32}
    (each : ∀ item ∈ items, ∀ before after, draw before item = some after →
      good before ∨ hit item → good after)
    (start : good target ∨ ∃ item ∈ items, hit item)
    (done : items.foldlM draw target = some filled) : good filled := by
  induction items generalizing target with
  | nil =>
    cases done
    exact start.resolve_right (by simp)
  | cons item rest ih =>
    rw [foldlM_cons] at done
    obtain ⟨middle, drawn, done⟩ := Option.bind_eq_some_iff.1 done
    have first := each item mem_cons_self target middle drawn
    refine ih (fun item member => each item (mem_cons_of_mem _ member)) ?_ done
    rcases start with already | ⟨other, member, isHit⟩
    · exact .inl (first (.inl already))
    rcases mem_cons.1 member with rfl | later
    · exact .inl (first (.inr isHit))
    · exact .inr ⟨other, later, isHit⟩

lemma submitPixels_pixel {w h rowPx x y : Nat} {target filled : List UInt32}
    (done : submitPixels memory w h rowPx target = some filled) (row : y < h) (column : x < w) :
    filled[y * w + x]? = some (swapRedBlue (word memory ((y * rowPx + x) * 4))) := by
  refine @foldlM_hits _ _ (· = y) (fun target => target[y * w + x]? = _) _ _ _ ?_
    (.inr ⟨y, mem_range.2 row, rfl⟩) done
  intro y' _ before after drawn kept
  refine @foldlM_hits _ _ (fun x' => y' = y ∧ x' = x) (fun target => target[y * w + x]? = _) _ _ _
    ?_ (kept.imp_right fun here => ⟨x, mem_range.2 column, here, rfl⟩) drawn
  intro x' member before after written kept
  obtain ⟨inside, ⟨⟩⟩ := Option.ite_none_right_eq_some.1 written
  -- Cells agree only if their rows and columns do.
  by_cases same : y' * w + x' = y * w + x
  · have line := congrArg (· / w) same
    have place := congrArg (· % w) same
    have column' := mem_range.1 member
    simp only [Nat.mul_comm _ w, Nat.mul_add_div (Nat.zero_lt_of_lt column),
      Nat.div_eq_of_lt column, Nat.div_eq_of_lt column', Nat.add_zero] at line
    simp only [Nat.mul_comm _ w, Nat.mul_add_mod, Nat.mod_eq_of_lt column,
      Nat.mod_eq_of_lt column'] at place
    subst line place
    exact getElem?_set_self inside
  · rw [getElem?_set_ne same]
    exact kept.resolve_right fun ⟨line, place⟩ => same (by rw [line, place])

lemma submitPixels_some (memory : Nat → UInt8) {w h : Nat} (rowPx : Nat) {target : List UInt32}
    (enough : w * h ≤ target.length) :
    ∃ filled, submitPixels memory w h rowPx target = some filled ∧
      filled.length = target.length := by
  have rows := fun y => fills_foldlM (fun x =>
    fills_writeAt (y * w + x) (swapRedBlue (word memory ((y * rowPx + x) * 4)))) (range w)
  rcases fills_foldlM rows (range h) target with ⟨_, done⟩ | ⟨outside, _⟩
  · exact done
  refine absurd (fun y line x column => ?_) outside
  have line := mem_range.1 line
  have column := mem_range.1 column
  have whole : (y + 1) * w ≤ h * w := Nat.mul_le_mul_right w line
  rw [Nat.succ_mul, Nat.mul_comm h w] at whole
  omega

lemma upload_cases {before : Slot} {len : Nat} (done : before.upload memory len = .ok result) :
    (∃ filled, before.backBuffer ≠ none ∧ filled.length = before.surface.pixels ∧
      result = some { before with backBuffer := some filled }) ∨
    (∃ filled, before.backBuffer = none ∧ before.surface.pixels ≤ filled.length ∧
      result = some { before with buffer := some filled, presented := true }) ∨
    ∃ front, before.buffer = some front ∧ front.length < before.surface.pixels ∧ result = none := by
  have fills := fills_uploadPixels memory before.surface.pixels
  rw [Slot.upload] at done
  dsimp only at done
  split at done
  · cases done
  split at done
  · rename_i back has
    obtain ⟨target, sameTarget⟩ : ∃ target, target = if back.length ≠ before.surface.pixels then
      replicate before.surface.pixels 0 else back := ⟨_, rfl⟩
    have length : target.length = before.surface.pixels := by
      rw [sameTarget]
      split
      · exact length_replicate
      · rename_i fits
        exact not_not.1 fits
    rw [← sameTarget] at done
    rcases fills target with ⟨_, filled, written, same⟩ | ⟨short, _⟩
    · refine .inl ⟨filled, by rw [has]; nofun, same.trans length, ?_⟩
      rw [← Except.ok.inj done, written]
      rfl
    · exact absurd length.ge short
  rename_i none
  rcases fills (before.buffer.getD (replicate before.surface.pixels 0)) with
    ⟨fits, filled, written, same⟩ | ⟨short, stuck⟩
  · refine .inr (.inl ⟨filled, none, same ▸ fits, ?_⟩)
    rw [← Except.ok.inj done, written]
    rfl
  cases front : before.buffer with
  | none =>
    rw [front] at short
    exact absurd length_replicate.ge short
  | some front' =>
    rw [stuck] at done
    rw [front] at short
    exact .inr (.inr ⟨front', rfl, not_le.1 short, (Except.ok.inj done).symm⟩)

/-- Rows are `row_bytes` apart, or follow each other where that is zero. -/
def Slot.stride (slot : Slot) (rowBytes : Nat) : Nat :=
  if rowBytes = 0 then slot.surface.width.toNat * 4 else rowBytes

def Slot.Drawn (slot : Slot) (filled : List UInt32) (pixel : Nat → Nat → UInt32) : Prop :=
  ∀ y < slot.surface.height.toNat, ∀ x < slot.surface.width.toNat,
    filled[y * slot.surface.width.toNat + x]? = some (pixel x y)

lemma rowPx_eq (slot : Slot) (rowBytes : Nat) :
    (if rowBytes = 0 then slot.surface.width.toNat else rowBytes / 4) = slot.stride rowBytes / 4 := by
  rw [Slot.stride, apply_ite (· / 4), Nat.mul_div_cancel _ (by decide)]

lemma submit_accepts (memory : Nat → UInt8) (slot : Slot) (len rowBytes : Nat) :
    (∃ result, slot.submit memory len rowBytes = .ok result) ↔
      ¬ len < slot.stride rowBytes / 4 * 4 * slot.surface.height.toNat % 2 ^ 64 := by
  rw [Slot.submit, rowPx_eq]
  split
  · rename_i refused
    exact ⟨nofun, absurd refused⟩
  · rename_i accepted
    exact ⟨fun _ => accepted, fun _ => ⟨_, rfl⟩⟩

lemma submit_ok {before : Slot} {len rowBytes : Nat}
    (done : before.submit memory len rowBytes = .ok result) :
    ∃ filled, filled.length = before.surface.pixels ∧
      before.Drawn filled (fun x y =>
        swapRedBlue (word memory ((y * (before.stride rowBytes / 4) + x) * 4))) ∧
      result = some { before with backBuffer := some filled, backPending := true } := by
  rw [Slot.submit, rowPx_eq] at done
  split at done
  · cases done
  obtain ⟨target, length, done⟩ : ∃ target : List UInt32, target.length = before.surface.pixels ∧
      ((submitPixels memory before.surface.width.toNat before.surface.height.toNat
        (before.stride rowBytes / 4) target).map fun back =>
          { before with backBuffer := some back, backPending := true }) = result := by
    refine ⟨_, ?_, Except.ok.inj done⟩
    split
    · split
      · exact length_replicate
      · rename_i fits
        exact not_not.1 fits
    · exact length_replicate
  obtain ⟨filled, written, same⟩ := submitPixels_some memory (before.stride rowBytes / 4) length.ge
  rw [written] at done
  exact ⟨filled, same.trans length, fun y row x column => submitPixels_pixel written row column,
    done.symm⟩

lemma setSlot_self (slot : Slot) : (state.setSlot index slot).slots index = slot :=
  Function.update_self _ _ _

lemma setSlot_other {slot : Slot} (away : other ≠ index) :
    (state.setSlot index slot).slots other = state.slots other :=
  Function.update_of_ne away _ _

end OsCortex.Compositor
