import OsCortex.Compositor.Render

/-! The surface under a point, as it is found and as it is drawn. -/

namespace OsCortex.Compositor

open List State
open Framebuffer (Display Frame Covers)

variable {state : State} {α : Type} {display : Display} {pack : α → α}
  {index other key : Fin maxSurfaces} {px py : Nat}

def State.Above (state : State) (index other : Fin maxSurfaces) : Prop :=
  state.z other < state.z index ∨ state.z other = state.z index ∧ other < index

lemma mem_sink {z : Fin maxSurfaces → Int} {sorted : List (Fin maxSurfaces)} :
    other ∈ sink z key sorted ↔ other = key ∨ other ∈ sorted := by
  induction sorted with
  | nil => simp [sink]
  | cons last rest ih =>
    rw [sink]
    split
    · simp only [mem_cons, ih]
      tauto
    · simp

lemma sink_sorted {sorted : List (Fin maxSurfaces)} (ordered : sorted.Pairwise state.Above)
    (earlier : ∀ other ∈ sorted, other < key) :
    (sink state.z key sorted).Pairwise state.Above := by
  induction sorted with
  | nil => simp [sink]
  | cons last rest ih =>
    obtain ⟨above, tail⟩ := pairwise_cons.1 ordered
    have restEarlier : ∀ other ∈ rest, other < key := fun other member =>
      earlier other (mem_cons_of_mem _ member)
    rw [sink]
    split
    · rename_i higher
      refine pairwise_cons.2 ⟨fun other member => ?_, ih tail restEarlier⟩
      rcases mem_sink.1 member with rfl | old
      · exact .inl higher
      · exact above other old
    rename_i notHigher
    have higher : state.Above key last := by
      rcases lt_or_eq_of_le (not_lt.1 notHigher) with lower | same
      · exact .inl lower
      · exact .inr ⟨same, earlier last mem_cons_self⟩
    refine pairwise_cons.2 ⟨fun other member => ?_, ordered⟩
    rcases mem_cons.1 member with rfl | old
    · exact higher
    have below := above other old
    unfold Above at *
    omega

lemma foldl_sink {keys sorted : List (Fin maxSurfaces)} (ordered : sorted.Pairwise state.Above)
    (ascending : keys.Pairwise (· < ·)) (earlier : ∀ other ∈ sorted, ∀ key ∈ keys, other < key) :
    (keys.foldl (fun sorted key => sink state.z key sorted) sorted).Pairwise state.Above ∧
      ∀ other, other ∈ keys.foldl (fun sorted key => sink state.z key sorted) sorted ↔
        other ∈ keys ∨ other ∈ sorted := by
  induction keys generalizing sorted with
  | nil => simpa using ordered
  | cons key rest ih =>
    obtain ⟨first, tail⟩ := pairwise_cons.1 ascending
    have sunk := sink_sorted ordered fun other member =>
      earlier other member key mem_cons_self
    have later : ∀ other ∈ sink state.z key sorted, ∀ next ∈ rest, other < next := by
      intro other member next coming
      rcases mem_sink.1 member with rfl | old
      · exact first next coming
      · exact earlier other old next (mem_cons_of_mem _ coming)
    obtain ⟨result, members⟩ := ih sunk tail later
    refine ⟨result, fun other => (members other).trans ?_⟩
    rw [mem_sink, mem_cons]
    tauto

lemma stack_sorted (state : State) : state.stack.Pairwise state.Above ∧
    ∀ index, index ∈ state.stack ↔ (state.slots index).surface.inUse := by
  have ascending : (finRange maxSurfaces).Pairwise (· < ·) := pairwise_lt_finRange _
  obtain ⟨sorted, members⟩ := @foldl_sink state _ [] Pairwise.nil
    (ascending.filter fun index => (state.slots index).surface.inUse) (by simp)
  refine ⟨sorted, fun index => (members index).trans ?_⟩
  simp

instance (slot : Slot) : Decidable (slot.Paints px py) :=
  @instDecidableAnd _ _ _ (@instDecidableAnd _ _
    (decidable_of_iff
      (slot.buffer.any (fun buf => decide (slot.surface.pixels ≤ buf.length)) = true)
      (by simp [Option.any_eq_true])) _)

def Slot.paints (slot : Slot) (px py : Nat) : Bool := decide (slot.Paints px py)

lemma shown_draw (slot : Slot) (ink : List UInt32 → Nat → α) (frame : Frame α)
    (column : px < display.width) (line : py < display.height) :
    (slot.draw display pack ink frame).shown display pack px py =
      if slot.paints px py = true then
        pack (ink (slot.buffer.getD []) (slot.surface.source px py))
      else frame.shown display pack px py := by
  simp only [Slot.paints, decide_eq_true_eq]
  rw [Slot.draw]
  by_cases presented : slot.presented
  · rw [if_pos presented]
    cases buffer : slot.buffer with
    | none => rw [if_neg fun paints => absurd paints.2.1 (by simp [buffer])]
    | some buf =>
      rw [Framebuffer.shown_blit frame _ column line]
      have same : slot.Paints px py ↔
          Covers slot.surface.x slot.surface.y slot.surface.width slot.surface.height px py ∧
            slot.surface.width.toNat * slot.surface.height.toNat ≤ buf.length := by
        simp [Slot.Paints, presented, buffer, Surface.pixels, and_comm]
      simp only [same]
      rfl
  · rw [if_neg presented, if_neg fun paints => presented paints.1]

lemma shown_drawSurfaces (state : State) (ink : Fin maxSurfaces → List UInt32 → Nat → α)
    (frame : Frame α) (column : px < display.width) (line : py < display.height) :
    (state.drawSurfaces display pack ink frame).shown display pack px py =
      ((state.stack.find? fun index => (state.slots index).paints px py).map
        fun index => pack (ink index ((state.slots index).buffer.getD [])
          ((state.slots index).surface.source px py))).getD (frame.shown display pack px py) := by
  have drawn : ∀ (frame : Frame α) index,
      ((state.slots index).draw display pack (ink index) frame).shown display pack px py = _ :=
    fun frame index => shown_draw (state.slots index) (ink index) frame column line
  have look := @Raster.foldl_look _ _ _ _ (fun frame => frame.shown display pack px py) _ _ drawn
    state.order frame
  rw [order, reverse_reverse] at look
  exact look

@[simp] lemma promote_surface (slot : Slot) : slot.promote.surface = slot.surface := by
  rw [Slot.promote]
  split <;> rfl

lemma promote_z (state : State) : state.promote.z = state.z := by
  funext index
  simp [z, promote, promote_surface]

lemma find_top (state : State) (px py : Nat) :
    (state.stack.find? (fun index => (state.slots index).paints px py) = none ∧
      ∀ index, (state.slots index).surface.inUse → ¬ (state.slots index).Paints px py) ∨
    ∃ index, state.stack.find? (fun index => (state.slots index).paints px py) = some index ∧
      (state.slots index).surface.inUse ∧ (state.slots index).Paints px py ∧
      ∀ other, other ≠ index → (state.slots other).surface.inUse →
        (state.slots other).Paints px py → state.Above index other := by
  obtain ⟨sorted, members⟩ := stack_sorted state
  cases found : state.stack.find? fun index => (state.slots index).paints px py with
  | none =>
    refine .inl ⟨rfl, fun index used paints => ?_⟩
    exact find?_eq_none.1 found index ((members index).2 used) (decide_eq_true paints)
  | some index =>
    have hit := find?_some found
    have used := (members index).1 (mem_of_find?_eq_some found)
    refine .inr ⟨index, rfl, used, of_decide_eq_true hit, fun other differs also paints => ?_⟩
    rcases Scan.find?_first sorted found ((members other).2 also) (decide_eq_true paints) with
      same | above
    · exact absurd same differs
    · exact above

lemma drawnLast_cases (state : State) (column : px < display.width) (line : py < display.height) :
    (state.drawnLast display px py = none ∧ ∀ index, ¬ state.Draws index px py) ∨
    ∃ index, state.drawnLast display px py = some index ∧ state.Draws index px py ∧
      ∀ other, other ≠ index → state.Draws other px py → state.Above index other := by
  have used : ∀ index, (state.promote.slots index).surface.inUse =
      (state.slots index).surface.inUse := fun index => by simp [promote]
  have height : state.promote.Above = state.Above := by
    funext index other
    rw [Above, Above, promote_z]
  rw [drawnLast, shown_drawSurfaces _ _ _ column line]
  rcases find_top state.promote px py with ⟨none, undrawn⟩ | ⟨index, found, inUse, paints, top⟩
  · rw [none]
    exact .inl ⟨rfl, fun index draws => undrawn index ((used index).trans draws.1) draws.2⟩
  rw [found]
  have draws : state.Draws index px py := ⟨(used index).symm.trans inUse, paints⟩
  refine .inr ⟨index, rfl, draws, fun other differs draws => ?_⟩
  exact height ▸ top other differs ((used other).trans draws.1) draws.2

lemma hitIndex_cases (state : State) (x y : Int32) :
    (state.hitIndex x y = none ∧
      ∀ index, (state.slots index).hit x y → state.z index ≤ Int32.minValue.toInt) ∨
    ∃ index, state.hitIndex x y = some index ∧ (state.slots index).hit x y ∧
      Int32.minValue.toInt < state.z index ∧
      ∀ other, other ≠ index → (state.slots other).hit x y →
        state.z other < state.z index ∨ state.z other = state.z index ∧ index < other := by
  have ascending : (finRange maxSurfaces).Pairwise (· < ·) := pairwise_lt_finRange _
  rcases Scan.foldl_keepBest state.z (fun index => (state.slots index).hit x y)
    (finRange maxSurfaces) (Int32.minValue.toInt, none) with ⟨same, low⟩ |
    ⟨before, index, after, split, same, hit, above, front, back⟩
  · exact .inl ⟨congrArg Prod.snd same, fun index => low index (mem_finRange index)⟩
  refine .inr ⟨index, congrArg Prod.snd same, hit, above, fun other differs also => ?_⟩
  have member := mem_finRange other
  rw [split] at member ascending
  rcases mem_append.1 member with early | late
  · exact .inl (front other early also)
  have later := (mem_cons.1 late).resolve_left differs
  have after := (pairwise_cons.1 (pairwise_append.1 ascending).2.1).1 other later
  rcases lt_or_eq_of_le (back other later also) with lower | same
  · exact .inl lower
  · exact .inr ⟨same, after⟩

/-- No surface is drawn or could be returned, or one that is drawn and hit is over all that are
drawn and before all that are hit. -/
def OneOnTop (state : State) (px py : Nat) : Prop :=
  let hit := fun index => (state.slots index).hit (Int32.ofNat px) (Int32.ofNat py) = true
  (∀ index, ¬ state.Draws index px py ∧ (hit index → state.z index ≤ Int32.minValue.toInt)) ∨
  ∃ index, state.Draws index px py ∧ hit index ∧ Int32.minValue.toInt < state.z index ∧
    ∀ other, other ≠ index →
      (state.Draws other px py →
        state.z other < state.z index ∨ state.z other = state.z index ∧ other < index) ∧
      (hit other → state.z other < state.z index ∨ state.z other = state.z index ∧ index < other)

theorem hit_is_drawn_iff (display : Display) (state : State) (px : Fin display.width)
    (py : Fin display.height) :
    state.hitIndex (Int32.ofNat px) (Int32.ofNat py) = state.drawnLast display px py ↔
      OneOnTop state px py := by
  rcases hitIndex_cases state (Int32.ofNat px) (Int32.ofNat py) with ⟨noHit, low⟩ |
    ⟨found, hitFound, hit, high, first⟩
  · rcases drawnLast_cases state px.2 py.2 with ⟨noDraw, undrawn⟩ | ⟨drawn, isDrawn, draws, top⟩
    · rw [noHit, noDraw]
      exact iff_of_true rfl (.inl fun index => ⟨undrawn index, low index⟩)
    rw [noHit, isDrawn]
    refine iff_of_false nofun ?_
    rintro (none | ⟨index, _, also, above, _⟩)
    · exact (none drawn).1 draws
    · exact absurd (low index also) (not_le.2 above)
  rcases drawnLast_cases state px.2 py.2 with ⟨noDraw, undrawn⟩ | ⟨drawn, isDrawn, draws, top⟩
  · rw [hitFound, noDraw]
    refine iff_of_false nofun ?_
    rintro (none | ⟨index, also, _⟩)
    · exact absurd ((none found).2 hit) (not_le.2 high)
    · exact undrawn index also
  rw [hitFound, isDrawn]
  constructor
  · intro same
    cases same
    exact .inr ⟨found, draws, hit, high, fun other differs =>
      ⟨top other differs, first other differs⟩⟩
  rintro (none | ⟨index, alsoDrawn, alsoHit, _, others⟩)
  · exact absurd draws (none drawn).1
  have isHit : found = index := by
    by_contra differs
    have one := (others found differs).2 hit
    have two := first index (Ne.symm differs) alsoHit
    omega
  have isTop : drawn = index := by
    by_contra differs
    have one := (others drawn differs).1 draws
    have two := top index (Ne.symm differs) alsoDrawn
    unfold Above at two
    omega
  rw [isHit, isTop]

theorem unpresented_surface_hit : ∃ display : Display, let state := (createSurface {} ⟨1, 1⟩ 1 1).1
    0 < display.width ∧ 0 < display.height ∧ state.surfaceAtPoint 0 0 = some (1, 1) ∧
      state.drawnLast display 0 0 = none :=
  ⟨{ width := 1, height := 1, pitchPx := 1, widthSmall := by decide, heightSmall := by decide,
     fits := le_rfl }, by decide⟩

end OsCortex.Compositor
