import OsCortex.Mm.FrameAllocatorChecks

/-!
Who holds a frame, read off the allocator's log, and when an allocation must succeed.
-/

namespace OsCortex.FrameAllocator

open List FrameBitmap Bitmap Finset

lemma outstanding_new (log : List Event) (frame : Nat) :
    Outstanding (.handedOut frame :: log) frame :=
  ⟨[], log, rfl, by simp⟩

variable {log : List Event} {frame : Nat}

lemma Outstanding.handedOut (outstanding : Outstanding log frame)
    (other : Nat) : Outstanding (.handedOut other :: log) frame := by
  obtain ⟨later, earlier, rfl, kept⟩ := outstanding
  exact ⟨.handedOut other :: later, earlier, rfl, by simp [kept]⟩

lemma Outstanding.freed {other : Nat}
    (outstanding : Outstanding log frame) (different : other ≠ frame) :
    Outstanding (.freed other :: log) frame := by
  obtain ⟨later, earlier, rfl, kept⟩ := outstanding
  exact ⟨.freed other :: later, earlier, rfl, by simp [kept, Ne.symm different]⟩

lemma outstanding_handOut_iff {frames : List Nat} :
    Outstanding (frames.map Event.handedOut ++ log) frame ↔
      frame ∈ frames ∨ Outstanding log frame := by
  refine ⟨outstanding_handOut, ?_⟩
  induction frames with
  | nil => simp
  | cons first rest ih =>
    rintro (here | before)
    · rcases mem_cons.mp here with rfl | later
      · exact outstanding_new _ _
      · exact (ih (.inl later)).handedOut first
    · exact (ih (.inr before)).handedOut first

lemma not_outstanding_freed {later : List Event} (kept : Event.handedOut frame ∉ later) :
    ¬ Outstanding (later ++ .freed frame :: log) frame := by
  induction later with
  | nil =>
    intro outstanding
    rcases outstanding_cons outstanding with impossible | ⟨_, different⟩
    · cases impossible
    · exact different rfl
  | cons event later ih =>
    intro outstanding
    rcases outstanding_cons outstanding with rfl | ⟨before, _⟩
    · exact kept mem_cons_self
    · exact ih (fun member => kept (mem_cons_of_mem _ member)) before

def FreedOnce (log : List Event) : Prop :=
  ∀ frame later earlier, log = later ++ Event.freed frame :: earlier → Outstanding earlier frame

lemma freedOnce_nil : FreedOnce [] := by
  intro frame later earlier split
  simp at split

lemma FreedOnce.cons {event : Event} (once : FreedOnce log)
    (held : ∀ frame, event = .freed frame → Outstanding log frame) : FreedOnce (event :: log) := by
  intro frame later earlier split
  cases later with
  | nil =>
    simp only [nil_append, cons.injEq] at split
    obtain ⟨isFreed, rfl⟩ := split
    exact held frame isFreed
  | cons first rest =>
    simp only [cons_append, cons.injEq] at split
    exact once frame rest earlier split.2

lemma FreedOnce.handOut (once : FreedOnce log) (frames : List Nat) :
    FreedOnce (frames.map Event.handedOut ++ log) := by
  induction frames with
  | nil => exact once
  | cons first rest ih => exact ih.cons fun _ impossible => by cases impossible

lemma allocFrom_complete (bm : FrameBitmap) {fuel i : Nat}
    (lower : minAllocFrame / 64 ≤ i) (first : i ≤ frame / 64) (last : frame / 64 < i + fuel)
    (isFree : test bm.bits frame) : (bm.allocFrom fuel i).2 ≠ none := by
  induction fuel generalizing i with
  | zero => omega
  | succ fuel ih =>
    simp only [allocFrom]
    split
    · have high : ¬ i * 64 + trailingZeros (bm.bits i) < minAllocFrame := by
        have exact_ : minAllocFrame = minAllocFrame / 64 * 64 := by decide
        omega
      rw [if_neg high]
      exact Option.some_ne_none _
    rename_i zero
    have empty : bm.bits i = 0#64 := by simpa using zero
    have elsewhere : frame / 64 ≠ i := by
      intro same
      rw [test_eq_getLsbD (by decide), same, empty] at isFree
      simp at isFree
    exact ih (by omega) (by omega) (by omega)

variable {bm : FrameBitmap}

lemma alloc_complete (lower : minAllocFrame ≤ frame) (isFree : frame ∈ freeFrames bm) :
    ∃ start, FreeRun bm start 1 ∧ bm.alloc = (bm.takeRun start 1, some (start * frameSize)) := by
  obtain ⟨_, bitSet⟩ := mem_members.mp isFree
  rcases alloc_spec bm with failed | done
  · have complete := allocFrom_complete bm (Nat.le_refl (minAllocFrame / 64))
      (Nat.div_le_div_right lower)
      (show frame / 64 < minAllocFrame / 64 + (maxFrames / 64 - minAllocFrame / 64) by
        have size : maxFrames = maxFrames / 64 * 64 := by decide
        have order : minAllocFrame / 64 ≤ maxFrames / 64 := by decide
        omega) bitSet
    simp only [alloc] at failed
    rw [failed] at complete
    exact absurd rfl complete
  · exact done

variable {count : Nat}

lemma allocContiguousFrom_complete (bm : FrameBitmap) {start : Nat}
    (run : ∀ frame, start ≤ frame → frame < start + count → test bm.bits frame)
    {fuel runLen : Nat} (runStart : Nat) (short : runLen < count)
    (ahead : frame ≤ start + runLen) (enough : start + count ≤ frame + fuel) :
    (bm.allocContiguousFrom count fuel frame runStart runLen).2 ≠ none := by
  induction fuel generalizing frame runStart runLen with
  | zero => omega
  | succ fuel ih =>
    simp only [allocContiguousFrom]
    split
    · split
      · exact Option.some_ne_none _
      · exact ih _ (by omega) (by omega) (by omega)
    rename_i taken
    have before : frame < start := by
      refine Nat.lt_of_not_le fun reached => ?_
      exact taken (run frame reached (by omega))
    exact ih _ (by omega) (by omega) (by omega)

lemma allocContiguous_complete {start : Nat} (nonempty : count ≠ 0) (run : FreeRun bm start count) :
    ∃ first, FreeRun bm first count ∧
      bm.allocContiguous count = (bm.takeRun first count, some (first * frameSize)) := by
  have bounds : ∀ frame, start ≤ frame → frame < start + count →
      minAllocFrame ≤ frame ∧ frame < maxFrames ∧ test bm.bits frame :=
    fun frame lower upper => run frame (mem_range'_1.mpr ⟨lower, upper⟩)
  have low := (bounds start (Nat.le_refl _) (by omega)).1
  have high := (bounds (start + count - 1) (by omega) (by omega)).2.1
  rcases allocContiguous_spec bm count with failed | done
  · have complete := allocContiguousFrom_complete bm
      (fun frame lower upper => (bounds frame lower upper).2.2) 0
      (show 0 < count by omega) (Nat.le_add_right_of_le low)
      (show start + count ≤ minAllocFrame + (maxFrames - minAllocFrame) by omega)
    simp only [allocContiguous, nonempty, if_false] at failed
    rw [failed] at complete
    exact absurd rfl complete
  · exact done

lemma freeFrames_boot_single (region : MemRegion) (aligned : region.base % frameSize = 0) :
    freeFrames (boot [region]).bitmap = (regionFrames region).toFinset := by
  have nothingFree : freeFrames new = ∅ := by
    ext frame
    simp [freeFrames, new, test]
  obtain ⟨free, _⟩ := markAll_spec (regionFrames region) new nodup_range'
    (fun frame member => (regionFrames_spec aligned member).2.1) (by simp [nothingFree])
    (by rw [nothingFree]; rfl)
  rw [nothingFree, empty_union] at free
  exact free

lemma exists_freeRun {base : Nat} (blocks : Nat) (lower : minAllocFrame ≤ base)
    (few : ((range' base (blocks * count)).toFinset \ freeFrames bm).card < blocks) :
    ∃ start, FreeRun bm start count := by
  by_contra noRun
  have taken : ∀ block, ∃ i < count, base + block * count + i ∉ freeFrames bm := by
    intro block
    by_contra allFree
    refine noRun ⟨base + block * count, fun frame member => ?_⟩
    obtain ⟨first, _⟩ := mem_range'_1.mp member
    have isFree : frame ∈ freeFrames bm := by
      by_contra notFree
      refine allFree ⟨frame - (base + block * count), by omega, ?_⟩
      rwa [Nat.add_sub_cancel' first]
    exact ⟨by omega, mem_members.mp isFree⟩
  choose offset below isTaken using taken
  have quotient : ∀ block, (block * count + offset block) / count = block := by
    intro block
    have small := below block
    rw [Nat.mul_comm, Nat.mul_add_div (by omega), Nat.div_eq_of_lt small, Nat.add_zero]
  -- a taken frame in every block: too many
  have enough : (Finset.range blocks).card ≤
      ((range' base (blocks * count)).toFinset \ freeFrames bm).card := by
    refine card_le_card_of_injOn (fun block => base + block * count + offset block) ?_ ?_
    · intro block member
      have inside : block + 1 ≤ blocks := Finset.mem_range.mp (Finset.mem_coe.mp member)
      have next : (block + 1) * count ≤ blocks * count := Nat.mul_le_mul_right count inside
      have small := below block
      rw [Nat.add_mul, Nat.one_mul] at next
      have position : base ≤ base + block * count + offset block ∧
          base + block * count + offset block < base + blocks * count := ⟨by omega, by omega⟩
      exact mem_coe.mpr (mem_sdiff.mpr
        ⟨mem_toFinset.mpr (mem_range'_1.mpr position), isTaken block⟩)
    intro block _ block' _ same
    rw [← quotient block, ← quotient block']
    congr 1
    simp only at same
    omega
  rw [card_range] at enough
  omega

end OsCortex.FrameAllocator
