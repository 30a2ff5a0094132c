import OsCortex.Process.DlChecks

/-!
The unhinted ranges of `mmap_anon` lie above `ANON_VA_BASE` while the cursors are far from wrapping.
-/

namespace OsCortex.Dl

open LibTable Scan RecycledRange

/-- Recycled ranges end below it: stacks of at most 256 MiB that start in the anonymous window. -/
def windowEnd : Nat := 2 ^ 41

structure Windowed (bound : Nat) (libs : LibTable) : Prop where
  nonempty : libs.asSlots ≠ []
  cursors : ∀ slot ∈ libs.asSlots, slot.pml4Phys ≠ 0 →
    anonVaBase ≤ slot.nextAnonVa ∧ slot.nextAnonVa ≤ bound
  recycled : ∀ range, some range ∈ libs.recycled →
    anonVaBase ≤ range.va ∧ range.va + range.size ≤ windowEnd

lemma windowed_new : Windowed 0 new := by
  refine ⟨by decide, fun slot member used => ?_, fun range member => ?_⟩
  · rw [List.eq_of_mem_replicate member] at used
    exact absurd rfl used
  · cases List.eq_of_mem_replicate member

variable {libs changed : LibTable} {bound bound' pml4Phys pages : Nat}

variable {change : AsSlot → AsSlot}

lemma upsertSlot_full {fresh : AsSlot} (full : libs.upsertSlot pml4Phys change fresh = none) :
    ∀ slot ∈ libs.asSlots, slot.pml4Phys ≠ 0 := by
  simp only [upsertSlot] at full
  split at full
  · cases full
  split at full
  · cases full
  rename_i none
  intro slot member
  simpa using updateFirst_none none slot member

variable {va : Nat}

lemma mmapAnon_pages (libs : LibTable) (mapped : Nat → Bool) (pml4Phys pages : Nat) :
    libs.mmapAnon mapped pml4Phys 0 pages = (libs, none) ∨
      ∃ changed va, libs.mmapAnon mapped pml4Phys 0 pages = (changed, some va) ∧
        0 < pages ∧ pages ≤ 65536 := by
  simp only [LibTable.mmapAnon]
  split
  · exact .inl rfl
  · exact .inr ⟨_, _, rfl, by omega, by omega⟩

section

variable (windowed : Windowed bound libs)
include windowed

lemma Windowed.raise (below : ∀ slot ∈ libs.asSlots, slot.pml4Phys ≠ 0 → slot.nextAnonVa ≤ bound') :
    Windowed bound' libs :=
  ⟨windowed.nonempty, fun slot member used =>
    ⟨(windowed.cursors slot member used).1, below slot member used⟩, windowed.recycled⟩

lemma Windowed.updateFirst (more : bound ≤ bound')
    {hit : AsSlot → Bool} {found : AsSlot} {asSlots : List AsSlot}
    (updated : Scan.updateFirst hit change libs.asSlots = some (found, asSlots))
    (moved : anonVaBase ≤ (change found).nextAnonVa ∧ (change found).nextAnonVa ≤ bound') :
    Windowed bound' { libs with asSlots } := by
  refine ⟨?_, fun slot member used => ?_, windowed.recycled⟩
  · obtain ⟨_, _, _, _, rfl, _⟩ := updateFirst_some updated
    simp
  rcases mem_of_updateFirst updated member with rfl | old
  · exact moved
  · obtain ⟨lower, _⟩ := windowed.cursors slot old used
    exact ⟨lower, by omega⟩

lemma Windowed.upsert (used : pml4Phys ≠ 0)
    (more : bound ≤ bound') {fresh : AsSlot} {old : Option AsSlot}
    (done : libs.upsertSlot pml4Phys change fresh = some (old, changed))
    (moved : ∀ slot, anonVaBase ≤ slot.nextAnonVa → slot.nextAnonVa ≤ bound →
      anonVaBase ≤ (change slot).nextAnonVa ∧ (change slot).nextAnonVa ≤ bound')
    (placed : anonVaBase ≤ fresh.nextAnonVa ∧ fresh.nextAnonVa ≤ bound') :
    Windowed bound' changed ∧ ∀ slot, old = some slot →
      anonVaBase ≤ slot.nextAnonVa ∧ slot.nextAnonVa ≤ bound := by
  simp only [upsertSlot] at done
  split at done
  · rename_i slot asSlots updated
    cases done
    have key : slot.pml4Phys = pml4Phys := by simpa using (updateFirst_some updated).1
    have bounds := windowed.cursors slot (found_mem updated) (by rw [key]; exact used)
    refine ⟨windowed.updateFirst more updated (moved slot bounds.1 bounds.2), ?_⟩
    rintro _ ⟨⟩
    exact bounds
  split at done <;> cases done
  rename_i slot asSlots updated
  refine ⟨windowed.updateFirst more updated placed, ?_⟩
  rintro _ ⟨⟩

lemma Windowed.takeRecycled {align size : Nat}
    {range : RecycledRange} {recycled : List (Option RecycledRange)}
    (updated : Scan.updateFirst (RecycledRange.fits align size pml4Phys)
      (RecycledRange.remainder align size) libs.recycled = some (some range, recycled))
    (above : range.va ≤ alignUp align range.va)
    (near : alignUp align range.va + size < 2 ^ 64) :
    Windowed bound { libs with recycled } := by
  refine ⟨windowed.nonempty, windowed.cursors, fun other member => ?_⟩
  rcases mem_of_updateFirst updated member with changed | old
  · obtain ⟨_, upper⟩ := windowed.recycled range (found_mem updated)
    simp only [RecycledRange.remainder] at changed
    split at changed <;> cases changed
    rename_i left
    simp only [u64, windowEnd] at left upper ⊢
    omega
  · exact windowed.recycled other old

lemma Windowed.bumpAnonVa (used : pml4Phys ≠ 0)
    (few : pages ≤ 65536) (wide : windowEnd ≤ bound) (far : bound + 2 ^ 32 ≤ 2 ^ 64) :
    Windowed (bound + 2 ^ 30) (libs.bumpAnonVa pml4Phys (pages * 4096)).1 ∧
      anonVaBase ≤ (libs.bumpAnonVa pml4Phys (pages * 4096)).2 ∧
      (libs.bumpAnonVa pml4Phys (pages * 4096)).2 ≤ bound + 2 ^ 30 ∧
      (libs.bumpAnonVa pml4Phys (pages * 4096)).2 % 4096 = 0 := by
  have whole : u64 (pages * 4096 + 4095) / 4096 * 4096 = pages * 4096 := by
    simp only [u64]
    omega
  have low : anonVaBase ≤ windowEnd := by decide
  have aligned : ∀ value, value ≤ bound →
      value ≤ alignUp (anonAlign (pages * 4096)) value ∧
        alignUp (anonAlign (pages * 4096)) value < value + 0x200000 ∧
        alignUp (anonAlign (pages * 4096)) value % 4096 = 0 :=
    fun value below => alignUp_spec (pages * 4096) (by omega)
  have moved : ∀ value, anonVaBase ≤ value → value ≤ bound →
      anonVaBase ≤ u64 (alignUp (anonAlign (pages * 4096)) value + pages * 4096) ∧
        u64 (alignUp (anonAlign (pages * 4096)) value + pages * 4096) ≤ bound + 2 ^ 30 := by
    intro value above below
    obtain ⟨lower, upper, _⟩ := aligned value below
    simp only [u64]
    omega
  simp only [LibTable.bumpAnonVa, whole]
  split
  · rename_i range recycled updated
    obtain ⟨above, below⟩ := windowed.recycled range (found_mem updated)
    obtain ⟨lower, upper, multiple⟩ := aligned range.va (by omega)
    refine ⟨(windowed.takeRecycled updated lower (by omega)).raise fun slot member used => ?_,
      by omega, by omega, multiple⟩
    have := (windowed.cursors slot member used).2
    omega
  have base := aligned anonVaBase (by omega)
  split
  · rename_i slot changed done
    obtain ⟨kept, bounds⟩ := windowed.upsert used (Nat.le_add_right bound (2 ^ 30)) done
      (fun slot => moved slot.nextAnonVa) (moved anonVaBase (Nat.le_refl _) (by omega))
    obtain ⟨above, below⟩ := bounds slot rfl
    obtain ⟨lower, upper, multiple⟩ := aligned slot.nextAnonVa below
    exact ⟨kept, by omega, by omega, multiple⟩
  · rename_i changed done
    obtain ⟨kept, _⟩ := windowed.upsert used (Nat.le_add_right bound (2 ^ 30)) done
      (fun slot => moved slot.nextAnonVa) (moved anonVaBase (Nat.le_refl _) (by omega))
    exact ⟨kept, by omega, by omega, base.2.2⟩
  rename_i full
  have nonzero := upsertSlot_full full
  cases slots : libs.asSlots with
  | nil => exact absurd slots windowed.nonempty
  | cons slot rest =>
    have member : slot ∈ libs.asSlots := by simp [slots]
    obtain ⟨above, below⟩ := windowed.cursors slot member (nonzero slot member)
    obtain ⟨lower, upper, multiple⟩ := aligned slot.nextAnonVa below
    simp only [fallback, slots]
    refine ⟨⟨by simp, ?_, windowed.recycled⟩, by omega, by omega, multiple⟩
    intro other isOther used
    rcases List.mem_cons.mp isOther with rfl | later
    · exact moved slot.nextAnonVa above below
    · obtain ⟨lower, upper⟩ := windowed.cursors other (by simp [slots, later]) used
      exact ⟨lower, by omega⟩

lemma Windowed.setAnonCursor (used : pml4Phys ≠ 0)
    (more : bound ≤ bound') (inside : anonVaBase ≤ va ∧ va ≤ bound') :
    Windowed bound' (libs.setAnonCursor pml4Phys va) := by
  simp only [LibTable.setAnonCursor]
  split
  · rename_i done
    refine (windowed.upsert used more done (fun slot above below => ?_) inside).1
    split
    · exact inside
    · exact ⟨above, by omega⟩
  exact windowed.raise fun slot member used => by
    have := (windowed.cursors slot member used).2
    omega

lemma Windowed.mmapAnon (used : pml4Phys ≠ 0)
    (wide : windowEnd ≤ bound) (far : bound + 2 ^ 50 ≤ 2 ^ 64) {mapped : Nat → Bool}
    {changed : LibTable}
    (done : libs.mmapAnon mapped pml4Phys 0 pages = (changed, some va)) :
    Windowed (bound + 2 ^ 48) changed ∧ anonVaBase ≤ va ∧ va ≤ bound + 2 ^ 48 := by
  simp only [LibTable.mmapAnon] at done
  by_cases refused : pages = 0 ∨ pages > 65536
  · rw [if_pos refused] at done
    cases (Prod.mk.inj done).2
  rw [if_neg refused] at done
  obtain ⟨kept, above, below, aligned⟩ :=
    windowed.bumpAnonVa used (show pages ≤ 65536 by omega) wide (by omega)
  simp only [ne_eq, not_true_eq_false, if_false] at done
  generalize libs.bumpAnonVa pml4Phys (pages * 4096) = bumped at kept above below aligned done
  obtain ⟨_, base⟩ := bumped
  simp only at kept above below aligned done
  have conflicts : maxConflicts ≤ 2 ^ 18 := by decide
  generalize maxConflicts = fuel at conflicts done
  obtain ⟨lower, upper, _⟩ := resolve_spec mapped (pages * 4096)
    (show pages ≤ 65536 by omega) fuel base aligned (by omega)
  generalize resolve mapped (anonAlign (pages * 4096)) pages fuel base = candidate
    at lower upper done
  obtain ⟨rfl, found⟩ := Prod.mk.inj done
  cases found
  refine ⟨kept.setAnonCursor used (by omega) ?_, by omega, by omega⟩
  simp only [u64]
  omega

lemma Windowed.recycleAnonVa {size : Nat}
    (above : anonVaBase ≤ va) (below : va + size ≤ windowEnd) :
    Windowed bound (libs.recycleAnonVa pml4Phys va size) := by
  simp only [LibTable.recycleAnonVa]
  split
  · exact windowed
  split
  · rename_i found recycled updated
    refine ⟨windowed.nonempty, windowed.cursors, fun range member => ?_⟩
    rcases mem_of_updateFirst updated member with changed | old
    · cases found with
      | none => cases changed
      | some before =>
        obtain ⟨_, upper⟩ := windowed.recycled before (found_mem updated)
        have touching := (updateFirst_some updated).1
        simp only [touches, Bool.and_eq_true, Bool.or_eq_true, beq_iff_eq] at touching
        simp only [merge] at changed
        have adjacent := touching.2
        split at changed
        · rename_i behind
          cases changed
          simp only [u64, windowEnd] at behind below upper ⊢
          omega
        rename_i ahead
        cases changed
        have before := adjacent.resolve_left ahead
        simp only [u64, windowEnd] at before below upper ⊢
        omega
    · exact windowed.recycled range old
  split
  · rename_i found recycled updated
    refine ⟨windowed.nonempty, windowed.cursors, fun range member => ?_⟩
    rcases mem_of_updateFirst updated member with changed | old
    · cases changed
      exact ⟨above, below⟩
    · exact windowed.recycled range old
  · exact windowed

end

end OsCortex.Dl
