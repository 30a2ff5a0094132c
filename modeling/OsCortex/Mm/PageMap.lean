import OsCortex.Mm.PagingOperations

/-!
The x86_64 page tables as a map from user pages to frames and rights: each operation changes the
page it is asked to change, and no other one.
-/

namespace OsCortex.Paging

open FrameAllocator Radix Option Memory Store

variable {roots : Nat → Prop} {memory : Memory} {root root' virt virt' table index start : Nat}
  {path : List Nat}

def SamePages (roots : Nat → Prop) (memory after : Memory) : Prop :=
  ∀ root virt, roots root → lowerHalf virt →
    walkEntry after.tables root (indices virt) = walkEntry memory.tables root (indices virt)

section

variable (allotted : Allotted roots memory)
include allotted

lemma Allotted.withTable (place : Place roots memory root path table)
    (within : Within tableWidths (path ++ [index]))
    (absent : (memory.tables table index).present = false)
    (run : FreeRun memory.frames.bitmap start 1) :
    Allotted roots (memory.withTable table index start) ∧
      Place roots (memory.withTable table index start) root (path ++ [index]) (start * frameSize) ∧
      SamePages roots memory (memory.withTable table index start) := by
  have number : start * frameSize / frameSize = start := Nat.mul_div_cancel _ (by decide)
  have notTable : ¬ IsTable roots memory (start * frameSize) := fun isTable =>
    (allotted.tables _ isTable).2.2 (by rw [number]; exact mem_of_freeRun run)
  have reach := fun {root' path'} (isRoot' : roots root') (within' : Within leafWidths path') =>
    @link_reach _ _ _ _ _ _ _ _ _
      { addr := start * frameSize, present := true, writable := true, user := true }
      allotted.separate place notTable absent rfl isRoot' within'
  have whole : Allotted roots (memory.withTable table index start) := by
    refine ⟨link_separate allotted.separate place notTable absent rfl, fun shared isTable => ?_⟩
    show _ ∧ _ ∧ _ ∉ freeFrames (memory.frames.bitmap.takeRun start 1)
    rw [freeFrames_takeRun, Finset.mem_sdiff]
    rcases link_isTable allotted.separate place notTable absent rfl isTable with rfl | before
    · have bounds := run start (mem_range'_one start)
      rw [number]
      exact ⟨bounds.1, bounds.2.1, by simp⟩
    · obtain ⟨lower, upper, taken⟩ := allotted.tables shared before
      exact ⟨lower, upper, fun isFree => taken isFree.1⟩
  refine ⟨whole, ⟨place.isRoot, within, (reach place.isRoot (Within.table within)).trans
    (if_pos ⟨rfl, rfl⟩)⟩, fun root' virt' isRoot' lower' => ?_⟩
  have within' := tablePath_within lower'
  rw [whole.walkEntry isRoot' lower', allotted.walkEntry isRoot' lower', Memory.reach,
    Memory.withTable, reach isRoot' (Within.table within')]
  have different : table ≠ start * frameSize := by
    rintro rfl
    exact notTable place.isTable
  split
  · -- nothing was behind the slot, and nothing is in the new table
    rename_i here
    have here' : descend Entry.next memory.tables root path = some table := place.here
    rw [here.1, here.2, Memory.reach, descend_concat, here']
    simp [write, fill, Entry.next, absent, different.symm]
  cases found : memory.reach root' (tablePath virt') with
  | none => rfl
  | some pt =>
    have leaf : Place roots memory root' (tablePath virt') pt := ⟨isRoot', within', found⟩
    have notNew : pt ≠ start * frameSize := by
      rintro rfl
      exact notTable leaf.isTable
    have notLinked : pt ≠ table := by
      rintro rfl
      obtain ⟨_, rfl⟩ := allotted.separate _ _ _ _ pt place.isRoot isRoot' place.within within'
        place.here found
      have short := within.length_le
      simp [tablePath, tableWidths] at short
    simp [write, fill, notNew, notLinked]

lemma Allotted.writeLeaf (place : Place roots memory root (tablePath virt) table)
    (entry : Entry) (isRoot' : roots root') (lower' : lowerHalf virt') :
    Paging.walkEntry (memory.tables.write table (virt / 2 ^ 12 % 512) entry) root' (indices virt') =
      if root' = root ∧ indices virt' = indices virt then if entry.present then some entry else none
      else Paging.walkEntry memory.tables root' (indices virt') := by
  have whole : Allotted roots
      { memory with tables := memory.tables.write table (virt / 2 ^ 12 % 512) entry } :=
    ⟨leaf_separate allotted.separate place rfl,
      fun phys isTable => allotted.tables phys (leaf_isTable allotted.separate place rfl isTable)⟩
  have within' := tablePath_within lower'
  have walk := whole.walkEntry isRoot' lower'
  rw [Memory.reach, leaf_tables allotted.separate place rfl isRoot' within'] at walk
  rw [walk, allotted.walkEntry isRoot' lower']
  split
  · rename_i here
    obtain ⟨rfl, page⟩ := here
    rw [indices_split, indices_split] at page
    obtain ⟨upper, last⟩ := List.append_inj' page rfl
    rw [upper, place.here, (List.cons.inj last).1]
    simp [write]
  rename_i elsewhere
  cases found : memory.reach root' (tablePath virt') with
  | none => rfl
  | some pt =>
    have apart : ¬ (pt = table ∧ virt' / 2 ^ 12 % 512 = virt / 2 ^ 12 % 512) := by
      rintro ⟨rfl, last⟩
      obtain ⟨sameRoot, upper⟩ := allotted.separate _ _ _ _ pt isRoot' place.isRoot within'
        place.within found place.here
      exact elsewhere ⟨sameRoot, by rw [indices_split, indices_split, upper, last]⟩
    simp only [bind_some, write, apart, if_false]

end

lemma allotted_descends (lower : lowerHalf virt) : Descends (tablePath virt)
    fun after path table => Allotted roots after ∧ Place roots after root path table ∧
      SamePages roots memory after := by
  have within := tablePath_within lower
  refine ⟨?_, ?_⟩
  · rintro after path table index ⟨allotted, place, same⟩ first present
    exact ⟨allotted, place.down (Within.upTo within first) present, same⟩
  · rintro after path table index _ ⟨allotted, place, same⟩ first absent run
    obtain ⟨allotted, place, more⟩ := allotted.withTable place (Within.upTo within first) absent run
    exact ⟨allotted, place, fun root virt isRoot lower =>
      (more root virt isRoot lower).trans (same root virt isRoot lower)⟩

lemma indices_inj (user : virt < 2 ^ 47) (user' : virt' < 2 ^ 47) :
    indices virt' = indices virt ↔ virt' / 4096 = virt / 4096 := by
  simp only [indices, List.cons.injEq, and_true]
  omega

def bareSpace : Memory where
  tables := fun _ _ => {}
  frames :=
    { bitmap := { bits := fun word => if word = 4 then 14#64 else 0#64, total := 3, used := 0 }
      log := [] }

end OsCortex.Paging
