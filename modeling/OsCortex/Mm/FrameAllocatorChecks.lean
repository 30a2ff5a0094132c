import OsCortex.Mm.FrameAllocatorCore

/-! Run invariants of the frame allocator. -/

namespace OsCortex.FrameAllocator

open List FrameBitmap Bitmap

def MemRegion.Contains (region : MemRegion) (addr : Nat) : Prop :=
  region.base ≤ addr ∧ addr < region.base + region.len

def PageAligned (regions : List MemRegion) : Prop :=
  ∀ region ∈ regions, region.base % frameSize = 0 ∧ region.len % frameSize = 0

def PairwiseDisjoint (regions : List MemRegion) : Prop :=
  regions.Pairwise fun left right => ∀ addr, ¬ (left.Contains addr ∧ right.Contains addr)

def InRegions (regions : List MemRegion) (frame : Nat) : Prop :=
  ∃ region ∈ regions, ∀ addr, addr / frameSize = frame → region.Contains addr

def freeFrames (bm : FrameBitmap) : Finset Nat := Bitmap.members bm.bits maxFrames

def Outstanding (log : List Event) (frame : Nat) : Prop :=
  ∃ later earlier, log = later ++ Event.handedOut frame :: earlier ∧ Event.freed frame ∉ later

def HandedOutOnce (log : List Event) : Prop :=
  ∀ frame later earlier, log = later ++ Event.handedOut frame :: earlier →
    ¬ Outstanding earlier frame

def ReservedFirst (log : List Event) (frame : Nat) : Prop :=
  ∃ base len later earlier, log = later ++ Event.reserved base len :: earlier ∧
    (∀ other, Event.handedOut other ∉ earlier) ∧ base + len + frameSize ≤ 2 ^ 64 ∧
    ∃ addr, base ≤ addr ∧ addr < base + len ∧ addr / frameSize = frame

variable {log : List Event} {event : Event} {frame : Nat}

lemma outstanding_cons (outstanding : Outstanding (event :: log) frame) :
    event = Event.handedOut frame ∨ (Outstanding log frame ∧ event ≠ Event.freed frame) := by
  obtain ⟨later, earlier, split, kept⟩ := outstanding
  cases later with
  | nil =>
    simp only [nil_append, cons.injEq] at split
    exact .inl split.1
  | cons first later =>
    simp only [cons_append, cons.injEq] at split
    simp only [mem_cons, not_or] at kept
    refine .inr ⟨⟨later, earlier, split.2, kept.2⟩, ?_⟩
    rw [split.1]
    exact fun same => kept.1 same.symm

lemma handedOutOnce_cons (once : HandedOutOnce log)
    (fresh : ∀ frame, event = Event.handedOut frame → ¬ Outstanding log frame) :
    HandedOutOnce (event :: log) := by
  intro frame later earlier split
  cases later with
  | nil =>
    simp only [nil_append, cons.injEq] at split
    rw [← split.2]
    exact fresh frame split.1
  | cons first later =>
    simp only [cons_append, cons.injEq] at split
    exact once frame later earlier split.2

lemma reservedFirst_cons (reserved : ReservedFirst (event :: log) frame) :
    ReservedFirst log frame ∨ ∃ base len, event = Event.reserved base len ∧
      (∀ other, Event.handedOut other ∉ log) ∧ base + len + frameSize ≤ 2 ^ 64 ∧
      ∃ addr, base ≤ addr ∧ addr < base + len ∧ addr / frameSize = frame := by
  obtain ⟨base, len, later, earlier, split, before, fits, inside⟩ := reserved
  cases later with
  | nil =>
    simp only [nil_append, cons.injEq] at split
    rw [← split.2] at before
    exact .inr ⟨base, len, split.1, before, fits, inside⟩
  | cons first later =>
    simp only [cons_append, cons.injEq] at split
    exact .inl ⟨base, len, later, earlier, split.2, before, fits, inside⟩

def FreeRun (bm : FrameBitmap) (start count : Nat) : Prop :=
  ∀ frame ∈ List.range' start count,
    minAllocFrame ≤ frame ∧ frame < maxFrames ∧ Bitmap.test bm.bits frame = true

lemma allocFrom_spec (bm : FrameBitmap) (fuel i : Nat) (lower : minAllocFrame / 64 ≤ i)
    (upper : i + fuel ≤ maxFrames / 64) :
    bm.allocFrom fuel i = (bm, none) ∨
      ∃ start, FreeRun bm start 1 ∧
        bm.allocFrom fuel i = (bm.takeRun start 1, some (start * frameSize)) := by
  induction fuel generalizing i with
  | zero => exact .inl rfl
  | succ fuel ih =>
    simp only [FrameBitmap.allocFrom, bne_iff_ne, ne_eq]
    split
    · rename_i nonzero
      obtain ⟨bound, isSet⟩ := Bitmap.trailingZeros_spec nonzero
      have above : ¬ i * 64 + Bitmap.trailingZeros (bm.bits i) < minAllocFrame := by
        simp only [minAllocFrame, minAllocPhys, frameSize] at lower ⊢
        omega
      refine .inr ⟨i * 64 + Bitmap.trailingZeros (bm.bits i), ?_, ?_⟩
      · intro frame member
        simp only [range'_one, mem_singleton] at member
        subst frame
        refine ⟨by omega, ?_, ?_⟩
        · simp only [maxFrames] at upper ⊢
          omega
        · rw [Bitmap.test_mul_add (by decide) _ bound]
          exact isSet
      · simp [above, FrameBitmap.takeRun, Bitmap.clearBit_eq_remove _ bound]
    · exact ih (i + 1) (by omega) (by omega)

lemma alloc_spec (bm : FrameBitmap) :
    bm.alloc = (bm, none) ∨
      ∃ start, FreeRun bm start 1 ∧ bm.alloc = (bm.takeRun start 1, some (start * frameSize)) :=
  allocFrom_spec bm _ _ (Nat.le_refl _) (by decide)

def FirstRun (bm : FrameBitmap) (start count : Nat) : Prop :=
  FreeRun bm start count ∧ ∀ other, FreeRun bm other count → start ≤ other

lemma allocContiguousFrom_spec (bm : FrameBitmap) (count fuel frame runStart runLen : Nat)
    (lower : minAllocFrame ≤ frame) (upper : frame + fuel = maxFrames) (short : runLen < count)
    (adjacent : runLen ≠ 0 → runStart + runLen = frame) (run : FreeRun bm runStart runLen)
    (first : ∀ other, FreeRun bm other count → frame ≤ other + runLen) :
    (bm.allocContiguousFrom count fuel frame runStart runLen = (bm, none) ∧
        ∀ start, ¬ FreeRun bm start count) ∨
      ∃ start, FirstRun bm start count ∧
        bm.allocContiguousFrom count fuel frame runStart runLen =
          (bm.takeRun start count, some (start * frameSize)) := by
  induction fuel generalizing frame runStart runLen with
  | zero =>
    refine .inl ⟨rfl, fun start whole => ?_⟩
    have last := whole (start + runLen) (mem_range'_1.mpr (by omega))
    have := first start whole
    omega
  | succ fuel ih =>
    simp only [allocContiguousFrom]
    split
    · rename_i isFree
      generalize startEq : (if runLen = 0 then frame else runStart) = start
      have next : start + (runLen + 1) = frame + 1 := by
        split at startEq
        · omega
        · have := adjacent (by assumption)
          omega
      have longer : FreeRun bm start (runLen + 1) := by
        intro other member
        simp only [mem_range'_1] at member
        by_cases last : other = frame
        · subst other
          exact ⟨lower, by omega, isFree⟩
        split at startEq
        · omega
        · subst start
          exact run other (mem_range'_1.mpr (by omega))
      split
      · subst count
        refine .inr ⟨start, ⟨longer, fun other whole => ?_⟩, rfl⟩
        have := first other whole
        omega
      · refine ih (frame + 1) start (runLen + 1) (by omega) (by omega) (by omega)
          (fun _ => next) longer fun other whole => ?_
        have := first other whole
        omega
    · rename_i isUsed
      refine ih (frame + 1) runStart 0 (by omega) (by omega) (by omega)
        (fun impossible => absurd rfl impossible) (by simp [FreeRun]) fun other whole => ?_
      -- a run around the used frame would have it free
      have := first other whole
      by_contra before
      exact isUsed (whole frame (mem_range'_1.mpr (by omega))).2.2

lemma allocContiguous_first (bm : FrameBitmap) {count : Nat} (positive : 0 < count) :
    (bm.allocContiguous count = (bm, none) ∧ ∀ start, ¬ FreeRun bm start count) ∨
      ∃ start, FirstRun bm start count ∧
        bm.allocContiguous count = (bm.takeRun start count, some (start * frameSize)) := by
  rw [allocContiguous, if_neg (by omega)]
  refine allocContiguousFrom_spec bm count _ _ 0 0 (Nat.le_refl _) (by decide) positive
    (fun impossible => absurd rfl impossible) (by simp [FreeRun]) fun other whole => ?_
  exact (whole other (mem_range'_1.mpr (by omega))).1

lemma allocContiguous_spec (bm : FrameBitmap) (count : Nat) :
    bm.allocContiguous count = (bm, none) ∨
      ∃ start, FreeRun bm start count ∧
        bm.allocContiguous count = (bm.takeRun start count, some (start * frameSize)) := by
  rcases Nat.eq_zero_or_pos count with rfl | positive
  · exact .inl rfl
  rcases allocContiguous_first bm positive with ⟨failed, _⟩ | ⟨start, first, done⟩
  · exact .inl failed
  · exact .inr ⟨start, first.1, done⟩

variable {bm : FrameBitmap} {start count : Nat}

lemma freeRun_subset (run : FreeRun bm start count) :
    (range' start count).toFinset ⊆ freeFrames bm := by
  intro frame member
  obtain ⟨_, bound, isFree⟩ := run frame (mem_toFinset.mp member)
  exact mem_members.mpr ⟨bound, isFree⟩

lemma freeFrames_takeRun (bm : FrameBitmap) (start count : Nat) :
    freeFrames (bm.takeRun start count) = freeFrames bm \ (range' start count).toFinset :=
  members_removeAll (by decide) _ _ _

theorem allocContiguous_first_fit (bm : FrameBitmap) {count : Nat} (positive : 1 ≤ count) :
    ((bm.allocContiguous count).2 = none ↔ ∀ start, ¬ FreeRun bm start count) ∧
      ((bm.allocContiguous count).2 = none → (bm.allocContiguous count).1 = bm) ∧
      ∀ phys, (bm.allocContiguous count).2 = some phys → ∃ start, phys = start * frameSize ∧
        FirstRun bm start count ∧ freeFrames (bm.allocContiguous count).1 =
          freeFrames bm \ (List.range' start count).toFinset := by
  rcases allocContiguous_first bm positive with ⟨failed, none⟩ | ⟨start, first, done⟩
  · rw [failed]
    exact ⟨⟨fun _ => none, fun _ => rfl⟩, fun _ => rfl, by rintro _ ⟨⟩⟩
  rw [done]
  refine ⟨⟨by rintro ⟨⟩, fun missing => absurd first.1 (missing start)⟩, by rintro ⟨⟩, ?_⟩
  rintro _ ⟨⟩
  exact ⟨start, rfl, first, freeFrames_takeRun bm start count⟩

def pairFree : FrameBitmap :=
  { bits := fun word => if word = 4 then 6#64 else 0#64, total := 2, used := 0 }

theorem pairFree_first : FirstRun pairFree 257 2 := by
  obtain ⟨start, same, first, _⟩ := (allocContiguous_first_fit pairFree (show 1 ≤ 2 by decide)).2.2
    (257 * frameSize) (by decide +kernel)
  obtain rfl : 257 = start := Nat.eq_of_mul_eq_mul_right (by decide) same
  exact first

lemma takeRun_balanced (run : FreeRun bm start count) :
    (freeFrames (bm.takeRun start count)).card + (bm.takeRun start count).used =
      (freeFrames bm).card + bm.used := by
  have runCard : (range' start count).toFinset.card = count := by
    rw [toFinset_card_of_nodup nodup_range', length_range']
  have covered := Finset.card_le_card (freeRun_subset run)
  rw [freeFrames_takeRun, Finset.card_sdiff_of_subset (freeRun_subset run)]
  simp only [FrameBitmap.takeRun]
  omega

lemma freeFrames_reserveFrame (bm : FrameBitmap) (frame : Nat) :
    freeFrames (bm.reserveFrame frame) = (freeFrames bm).erase frame := by
  simp only [reserveFrame]
  split
  · exact members_remove (by decide) _ _ _
  rename_i used
  refine (Finset.erase_eq_of_notMem fun member => used ?_).symm
  exact (mem_members.mp member).2

lemma reserveFrame_balanced (bm : FrameBitmap) (bound : frame < maxFrames) :
    (freeFrames (bm.reserveFrame frame)).card + (bm.reserveFrame frame).used =
      (freeFrames bm).card + bm.used := by
  rw [freeFrames_reserveFrame]
  simp only [reserveFrame]
  split
  · rename_i isFree
    have member : frame ∈ freeFrames bm := mem_members.mpr ⟨bound, isFree⟩
    have positive := Finset.card_pos.mpr ⟨frame, member⟩
    rw [Finset.card_erase_of_mem member]
    dsimp only
    omega
  rename_i used
  have taken : frame ∉ freeFrames bm := fun member => used (mem_members.mp member).2
  rw [Finset.erase_eq_of_notMem taken]

lemma reserveAll_spec (frames : List Nat) (bm : FrameBitmap)
    (bounded : ∀ frame ∈ frames, frame < maxFrames) :
    freeFrames (frames.foldl reserveFrame bm) = freeFrames bm \ frames.toFinset ∧
      (frames.foldl reserveFrame bm).total = bm.total ∧
      (freeFrames (frames.foldl reserveFrame bm)).card + (frames.foldl reserveFrame bm).used =
        (freeFrames bm).card + bm.used := by
  induction frames generalizing bm with
  | nil => simp
  | cons first rest ih =>
    obtain ⟨free, total, balanced⟩ := ih (bm.reserveFrame first)
      (fun frame member => bounded frame (mem_cons_of_mem _ member))
    simp only [foldl_cons]
    refine ⟨?_, ?_, ?_⟩
    · rw [free, freeFrames_reserveFrame, toFinset_cons, Finset.sdiff_insert,
        Finset.erase_sdiff_comm]
    · rw [total]
      simp only [reserveFrame]
      split <;> rfl
    · rw [balanced, reserveFrame_balanced bm (bounded first mem_cons_self)]

lemma reserveRange_spec (bm : FrameBitmap) (base len : Nat) :
    freeFrames (bm.reserveRange base len) ⊆ freeFrames bm ∧
      (bm.reserveRange base len).total = bm.total ∧
      (freeFrames (bm.reserveRange base len)).card + (bm.reserveRange base len).used =
        (freeFrames bm).card + bm.used := by
  simp only [reserveRange]
  split
  · exact ⟨Finset.Subset.refl _, rfl, rfl⟩
  have bounded : ∀ frame ∈ reservedFrames base len, frame < maxFrames := by
    intro frame member
    simp only [reservedFrames, mem_range'_1] at member
    omega
  obtain ⟨free, total, balanced⟩ := reserveAll_spec _ bm bounded
  refine ⟨?_, total, balanced⟩
  rw [free]
  exact Finset.sdiff_subset

lemma reserveRange_covers (bm : FrameBitmap) {base len addr : Nat}
    (fits : base + len + frameSize ≤ 2 ^ 64) (lower : base ≤ addr) (upper : addr < base + len) :
    addr / frameSize ∉ freeFrames (bm.reserveRange base len) := by
  have nonempty : len ≠ 0 := by omega
  simp only [reserveRange, nonempty, if_false]
  have bounded : ∀ frame ∈ reservedFrames base len, frame < maxFrames := by
    intro frame member
    simp only [reservedFrames, mem_range'_1] at member
    omega
  rw [(reserveAll_spec _ bm bounded).1]
  intro member
  obtain ⟨isFree, unreserved⟩ := Finset.mem_sdiff.mp member
  refine unreserved (mem_toFinset.mpr ?_)
  have bound := (mem_members.mp isFree).1
  simp only [reservedFrames, mem_range'_1, frameSize] at fits bound ⊢
  omega

variable {phys : Nat}

lemma freeFrames_free (bm : FrameBitmap) (bound : phys / frameSize < maxFrames) :
    freeFrames (bm.free phys) = insert (phys / frameSize) (freeFrames bm) := by
  simp only [free, bound, if_true]
  split
  · rename_i isFree
    exact (Finset.insert_eq_of_mem (mem_members.mpr ⟨bound, isFree⟩)).symm
  · exact members_insert (by decide) _ bound

lemma free_balanced (bound : phys / frameSize < maxFrames)
    (room : phys / frameSize ∉ freeFrames bm → 0 < bm.used) :
    (freeFrames (bm.free phys)).card + (bm.free phys).used = (freeFrames bm).card + bm.used := by
  rw [freeFrames_free bm bound]
  by_cases isFree : phys / frameSize ∈ freeFrames bm
  · have bitSet := (mem_members.mp isFree).2
    simp [Finset.insert_eq_of_mem isFree, free, bound, bitSet]
  have bitClear : ¬ test bm.bits (phys / frameSize) :=
    fun bitSet => isFree (mem_members.mpr ⟨bound, bitSet⟩)
  have positive := room isFree
  rw [Finset.card_insert_of_notMem isFree]
  simp only [free, bound, if_true, bitClear]
  simp only [Bool.false_eq_true, if_false]
  omega

lemma free_total (bm : FrameBitmap) (phys : Nat) : (bm.free phys).total = bm.total := by
  simp only [free]
  split
  · split <;> rfl
  · rfl

lemma regionFrames_spec {region : MemRegion} (aligned : region.base % frameSize = 0)
    (member : frame ∈ regionFrames region) :
    minAllocFrame ≤ frame ∧ frame < maxFrames ∧
      ∀ addr, addr / frameSize = frame → region.Contains addr := by
  simp only [regionFrames, mem_range'_1] at member
  refine ⟨by omega, by omega, ?_⟩
  intro addr inFrame
  simp only [frameSize, MemRegion.Contains] at aligned inFrame member ⊢
  omega

lemma markAll_spec (frames : List Nat) (bm : FrameBitmap) (distinct : frames.Nodup)
    (bounded : ∀ frame ∈ frames, frame < maxFrames)
    (unmarked : ∀ frame ∈ frames, frame ∉ freeFrames bm)
    (counted : (freeFrames bm).card = bm.total) :
    freeFrames (frames.foldl markFree bm) = freeFrames bm ∪ frames.toFinset ∧
      (freeFrames (frames.foldl markFree bm)).card = (frames.foldl markFree bm).total ∧
      (frames.foldl markFree bm).used = bm.used := by
  induction frames generalizing bm with
  | nil => simp [counted]
  | cons first rest ih =>
    have marked : freeFrames (bm.markFree first) = insert first (freeFrames bm) :=
      members_insert (by decide) _ (bounded first mem_cons_self)
    have firstUnmarked := unmarked first mem_cons_self
    obtain ⟨firstOther, restDistinct⟩ := nodup_cons.mp distinct
    obtain ⟨free, total, used⟩ := ih (bm.markFree first) restDistinct
      (fun frame member => bounded frame (mem_cons_of_mem _ member))
      (by
        intro frame member present
        rcases Finset.mem_insert.mp (marked ▸ present) with same | old
        · exact firstOther (same ▸ member)
        · exact unmarked frame (mem_cons_of_mem _ member) old)
      (by
        rw [marked, Finset.card_insert_of_notMem firstUnmarked, counted]
        rfl)
    rw [foldl_cons]
    refine ⟨?_, total, used⟩
    rw [free, marked, toFinset_cons, Finset.insert_union, Finset.union_insert]

lemma initFromRegions_spec (regions : List MemRegion) (bm : FrameBitmap)
    (aligned : PageAligned regions) (disjoint : PairwiseDisjoint regions)
    (unmarked : ∀ region ∈ regions, ∀ frame ∈ regionFrames region, frame ∉ freeFrames bm)
    (counted : (freeFrames bm).card = bm.total) :
    (∀ frame ∈ freeFrames (bm.initFromRegions regions),
        frame ∈ freeFrames bm ∨ ∃ region ∈ regions, frame ∈ regionFrames region) ∧
      (freeFrames (bm.initFromRegions regions)).card = (bm.initFromRegions regions).total ∧
      (bm.initFromRegions regions).used = bm.used := by
  induction regions generalizing bm with
  | nil => simpa [initFromRegions] using counted
  | cons first rest ih =>
    have inFirst : ∀ frame ∈ regionFrames first, minAllocFrame ≤ frame ∧ frame < maxFrames ∧
        ∀ addr, addr / frameSize = frame → first.Contains addr :=
      fun _ member => regionFrames_spec (aligned first mem_cons_self).1 member
    obtain ⟨free, total, used⟩ := markAll_spec (regionFrames first) bm nodup_range'
      (fun frame member => (inFirst frame member).2.1)
      (unmarked first mem_cons_self) counted
    obtain ⟨apart, restDisjoint⟩ := pairwise_cons.mp disjoint
    obtain ⟨restFree, restTotal, restUsed⟩ := ih ((regionFrames first).foldl markFree bm)
      (fun region member => aligned region (mem_cons_of_mem _ member)) restDisjoint
      (by
        intro region member frame inRegion present
        rw [free, Finset.mem_union, mem_toFinset] at present
        rcases present with old | inFirstRegion
        · exact unmarked region (mem_cons_of_mem _ member) frame inRegion old
        have regionAligned := (aligned region (mem_cons_of_mem _ member)).1
        have inFrame : frame * frameSize / frameSize = frame := Nat.mul_div_cancel _ (by decide)
        exact apart region member (frame * frameSize)
          ⟨(inFirst frame inFirstRegion).2.2 _ inFrame,
            (regionFrames_spec regionAligned inRegion).2.2 _ inFrame⟩)
      total
    refine ⟨?_, restTotal, restUsed.trans used⟩
    intro frame present
    rcases restFree frame present with before | ⟨region, member, inRegion⟩
    · rw [free, Finset.mem_union, mem_toFinset] at before
      rcases before with old | inFirstRegion
      · exact .inl old
      · exact .inr ⟨first, mem_cons_self, inFirstRegion⟩
    · exact .inr ⟨region, mem_cons_of_mem _ member, inRegion⟩

structure Sound (regions : List MemRegion) (usable : Finset Nat) (session : Session) : Prop where
  usableFrame : ∀ frame ∈ usable, minAllocFrame ≤ frame ∧ frame < maxFrames ∧
    InRegions regions frame
  usableCount : usable.card = session.bitmap.total
  balanced : (freeFrames session.bitmap).card + session.bitmap.used = session.bitmap.total
  freeUsable : freeFrames session.bitmap ⊆ usable
  handedUsable : ∀ frame, Event.handedOut frame ∈ session.log → frame ∈ usable
  outstandingTaken : ∀ frame, Outstanding session.log frame → frame ∉ freeFrames session.bitmap
  once : HandedOutOnce session.log
  reservedTaken : ∀ frame, ReservedFirst session.log frame →
    frame ∉ freeFrames session.bitmap ∧ Event.handedOut frame ∉ session.log

lemma boot_sound (regions : List MemRegion) (aligned : PageAligned regions)
    (disjoint : PairwiseDisjoint regions) :
    Sound regions (freeFrames (boot regions).bitmap) (boot regions) := by
  have nothingFree : freeFrames new = ∅ := by
    ext frame
    simp [freeFrames, new, test]
  obtain ⟨fromRegions, counted, unused⟩ := initFromRegions_spec regions new aligned
    disjoint (by simp [nothingFree]) (by rw [nothingFree]; rfl)
  constructor
  case usableFrame =>
    intro frame present
    rcases fromRegions frame present with impossible | ⟨region, member, inRegion⟩
    · simp [nothingFree] at impossible
    · obtain ⟨lower, upper, contained⟩ := regionFrames_spec (aligned region member).1 inRegion
      exact ⟨lower, upper, region, member, contained⟩
  case usableCount => exact counted
  case balanced =>
    have noneUsed : (boot regions).bitmap.used = 0 := unused
    rw [noneUsed, Nat.add_zero]
    exact counted
  case freeUsable => exact Finset.Subset.refl _
  case handedUsable => simp [boot]
  case outstandingTaken => simp [boot, Outstanding]
  case once => simp [boot, HandedOutOnce]
  case reservedTaken => simp [boot, ReservedFirst]

variable {regions : List MemRegion} {usable : Finset Nat} {session : Session}

lemma Sound.reserve (sound : Sound regions usable session) (base len : Nat) :
    Sound regions usable
      { bitmap := session.bitmap.reserveRange base len
        log := .reserved base len :: session.log } := by
  obtain ⟨smaller, total, balanced⟩ := reserveRange_spec session.bitmap base len
  constructor
  case usableFrame => exact sound.usableFrame
  case usableCount => exact sound.usableCount.trans total.symm
  case balanced => exact balanced.trans (sound.balanced.trans total.symm)
  case freeUsable => exact smaller.trans sound.freeUsable
  case handedUsable =>
    intro frame member
    exact sound.handedUsable frame (by simpa using member)
  case outstandingTaken =>
    intro frame outstanding present
    rcases outstanding_cons outstanding with impossible | ⟨before, _⟩
    · cases impossible
    · exact sound.outstandingTaken frame before (smaller present)
  case once => exact handedOutOnce_cons sound.once (by simp)
  case reservedTaken =>
    intro frame reserved
    rcases reservedFirst_cons reserved with before | ⟨_, _, same, nothing, fits, _, inside⟩
    · obtain ⟨taken, unhanded⟩ := sound.reservedTaken frame before
      exact ⟨fun present => taken (smaller present), by simpa using unhanded⟩
    cases same
    obtain ⟨lower, upper, _⟩ := inside
    subst frame
    exact ⟨reserveRange_covers session.bitmap fits lower upper, by simpa using nothing _⟩

variable {frames : List Nat}

lemma outstanding_handOut (outstanding : Outstanding (frames.map Event.handedOut ++ log) frame) :
    frame ∈ frames ∨ Outstanding log frame := by
  induction frames with
  | nil => exact .inr outstanding
  | cons first rest ih =>
    rcases outstanding_cons outstanding with same | ⟨before, _⟩
    · cases same
      exact .inl mem_cons_self
    · exact (ih before).imp (mem_cons_of_mem _) id

lemma handedOutOnce_handOut (once : HandedOutOnce log)
    (distinct : frames.Nodup) (fresh : ∀ frame ∈ frames, ¬ Outstanding log frame) :
    HandedOutOnce (frames.map Event.handedOut ++ log) := by
  induction frames with
  | nil => exact once
  | cons first rest ih =>
    obtain ⟨firstOther, restDistinct⟩ := nodup_cons.mp distinct
    refine handedOutOnce_cons
      (ih restDistinct fun frame member => fresh frame (mem_cons_of_mem _ member)) ?_
    intro frame same outstanding
    cases same
    rcases outstanding_handOut outstanding with again | before
    · exact firstOther again
    · exact fresh first mem_cons_self before

lemma reservedFirst_handOut (reserved : ReservedFirst (frames.map Event.handedOut ++ log) frame) :
    ReservedFirst log frame := by
  induction frames with
  | nil => exact reserved
  | cons first rest ih =>
    rcases reservedFirst_cons reserved with before | ⟨_, _, impossible, _⟩
    · exact ih before
    · cases impossible

lemma mem_handOut :
    Event.handedOut frame ∈ frames.map Event.handedOut ++ log ↔
      frame ∈ frames ∨ Event.handedOut frame ∈ log := by
  simp

section

variable (sound : Sound regions usable session)
include sound

lemma Sound.handOut (run : FreeRun session.bitmap start count) :
    Sound regions usable
      { bitmap := session.bitmap.takeRun start count
        log := (range' start count).map Event.handedOut ++ session.log } := by
  have runFree : ∀ frame ∈ range' start count, frame ∈ freeFrames session.bitmap :=
    fun frame member => freeRun_subset run (mem_toFinset.mpr member)
  have smaller : freeFrames (session.bitmap.takeRun start count) ⊆ freeFrames session.bitmap := by
    rw [freeFrames_takeRun]
    exact Finset.sdiff_subset
  constructor
  case usableFrame => exact sound.usableFrame
  case usableCount => exact sound.usableCount
  case balanced => exact (takeRun_balanced run).trans sound.balanced
  case freeUsable => exact smaller.trans sound.freeUsable
  case handedUsable =>
    intro frame member
    rcases mem_handOut.mp member with now | before
    · exact sound.freeUsable (runFree frame now)
    · exact sound.handedUsable frame before
  case outstandingTaken =>
    intro frame outstanding present
    rcases outstanding_handOut outstanding with now | before
    · rw [freeFrames_takeRun] at present
      exact (Finset.mem_sdiff.mp present).2 (mem_toFinset.mpr now)
    · exact sound.outstandingTaken frame before (smaller present)
  case once =>
    exact handedOutOnce_handOut sound.once nodup_range' fun frame member outstanding =>
      sound.outstandingTaken frame outstanding (runFree frame member)
  case reservedTaken =>
    intro frame reserved
    obtain ⟨taken, unhanded⟩ := sound.reservedTaken frame (reservedFirst_handOut reserved)
    refine ⟨fun present => taken (smaller present), fun member => ?_⟩
    rcases mem_handOut.mp member with now | before
    · exact taken (runFree frame now)
    · exact unhanded before

lemma Sound.free (handed : Event.handedOut (phys / frameSize) ∈ session.log) :
    Sound regions usable
      { bitmap := session.bitmap.free phys
        log := .freed (phys / frameSize) :: session.log } := by
  have inUsable := sound.handedUsable _ handed
  have bound := (sound.usableFrame _ inUsable).2.1
  -- A usable frame that is not free leaves the free set strictly smaller than the total.
  have room : phys / frameSize ∉ freeFrames session.bitmap → 0 < session.bitmap.used := by
    intro taken
    have strict := Finset.card_lt_card
      (Finset.ssubset_iff_of_subset sound.freeUsable |>.mpr ⟨_, inUsable, taken⟩)
    have balanced := sound.balanced
    have counted := sound.usableCount
    omega
  constructor
  case usableFrame => exact sound.usableFrame
  case usableCount => exact sound.usableCount.trans (free_total session.bitmap phys).symm
  case balanced =>
    exact (free_balanced bound room).trans
      (sound.balanced.trans (free_total session.bitmap phys).symm)
  case freeUsable =>
    rw [freeFrames_free session.bitmap bound]
    exact Finset.insert_subset inUsable sound.freeUsable
  case handedUsable =>
    intro frame member
    exact sound.handedUsable frame (by simpa using member)
  case outstandingTaken =>
    intro frame outstanding present
    rw [freeFrames_free session.bitmap bound] at present
    rcases outstanding_cons outstanding with impossible | ⟨before, notFreed⟩
    · cases impossible
    rcases Finset.mem_insert.mp present with same | old
    · exact notFreed (by rw [same])
    · exact sound.outstandingTaken frame before old
  case once => exact handedOutOnce_cons sound.once (by simp)
  case reservedTaken =>
    intro frame reserved
    rw [freeFrames_free session.bitmap bound]
    rcases reservedFirst_cons reserved with before | ⟨_, _, impossible, _⟩
    · obtain ⟨taken, unhanded⟩ := sound.reservedTaken frame before
      refine ⟨fun present => ?_, by simpa using unhanded⟩
      rcases Finset.mem_insert.mp present with same | old
      · exact unhanded (same ▸ handed)
      · exact taken old
    · cases impossible

lemma Sound.handOut_call {result : FrameBitmap × Option Nat}
    (outcome : result = (session.bitmap, none) ∨
      ∃ start, FreeRun session.bitmap start count ∧
        result = (session.bitmap.takeRun start count, some (start * frameSize))) :
    Sound regions usable (session.handOut count result) := by
  rcases outcome with unchanged | ⟨start, run, taken⟩
  · rw [unchanged]
    exact sound
  have cancel : start * frameSize / frameSize = start := Nat.mul_div_cancel _ (by decide)
  rw [taken, Session.handOut, cancel]
  exact sound.handOut run

lemma call_sound {next : Session} {call : Call}
    (called : session.call call = some next) : Sound regions usable next := by
  cases call with
  | reserveRange base len =>
    cases called
    exact sound.reserve base len
  | allocFrame =>
    cases called
    exact sound.handOut_call (alloc_spec session.bitmap)
  | allocContiguousFrames count =>
    cases called
    exact sound.handOut_call (allocContiguous_spec session.bitmap count)
  | freeFrame phys =>
    obtain ⟨handed, rfl⟩ := of_guard called
    exact sound.free handed

end

theorem allocator_run (regions : List MemRegion) (aligned : PageAligned regions)
    (disjoint : PairwiseDisjoint regions) (session : Session)
    (reached : (allocator regions).Reachable Runs.anyStep session) :
    (freeFrames session.bitmap).card + session.bitmap.used = session.bitmap.total ∧
      HandedOutOnce session.log ∧
      ∀ frame, Event.handedOut frame ∈ session.log →
        minAllocFrame ≤ frame ∧ InRegions regions frame ∧ ¬ ReservedFirst session.log frame := by
  have sound : Sound regions (freeFrames (boot regions).bitmap) session := by
    refine reached.invariant ?_ ?_
    · rintro _ rfl
      exact boot_sound regions aligned disjoint
    · intro before call after holds _ called
      exact call_sound holds called
  refine ⟨sound.balanced, sound.once, fun frame handed => ?_⟩
  obtain ⟨lower, _, inside⟩ := sound.usableFrame frame (sound.handedUsable frame handed)
  exact ⟨lower, inside, fun reserved => (sound.reservedTaken frame reserved).2 handed⟩

def sampleRegions : List MemRegion := [⟨0x100000, 0x2000⟩, ⟨0x102000, 0x2000⟩]

def sampleCalls : List Call :=
  [.reserveRange 0x100000 0x1000, .allocFrame, .freeFrame 0x101000, .allocContiguousFrames 2]

theorem allocator_run_sample :
    ∃ session, (allocator sampleRegions).run (boot sampleRegions) sampleCalls = some session ∧
      session.log = [.handedOut 257, .handedOut 258, .freed 257, .handedOut 257,
        .reserved 0x100000 0x1000] ∧
      (freeFrames session.bitmap).card + session.bitmap.used = session.bitmap.total ∧
      HandedOutOnce session.log := by
  have aligned : PageAligned sampleRegions := by
    simp [PageAligned, sampleRegions, frameSize]
  have disjoint : PairwiseDisjoint sampleRegions := by
    simp only [PairwiseDisjoint, sampleRegions, pairwise_cons, mem_singleton,
      forall_eq, not_mem_nil, false_implies, implies_true, Pairwise.nil, and_true,
      MemRegion.Contains]
    omega
  obtain ⟨session, ran, log⟩ := Option.map_eq_some_iff.mp
    (show ((allocator sampleRegions).run (boot sampleRegions) sampleCalls).map Session.log =
      some [.handedOut 257, .handedOut 258, .freed 257, .handedOut 257,
        .reserved 0x100000 0x1000] by decide +kernel)
  obtain ⟨balanced, once, _⟩ := allocator_run sampleRegions aligned disjoint session
    (Runs.Machine.run_reachable (.start rfl) ran)
  exact ⟨session, ran, log, balanced, once⟩

end OsCortex.FrameAllocator
