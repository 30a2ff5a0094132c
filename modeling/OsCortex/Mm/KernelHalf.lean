import OsCortex.Mm.PagingOperations

/-!
The upper half of every address space is the kernel's, and its tables are shared. A lower-half
address never leads there, and an upper-half one always does.
-/

namespace OsCortex.Paging

open FrameAllocator Radix Outcome List Option Memory Within

def Entry.child (entry : Entry) : Option Nat := if entry.huge then none else entry.next

def translation (tables : Store Entry) : Nat → List Nat → Option (Entry × Nat)
  | _, [] => none
  | table, index :: rest =>
    if (tables table index).present then
      if rest = [] ∨ (tables table index).huge then some (tables table index, rest.length)
      else translation tables (tables table index).addr rest
    else none

/-- The walk of the code goes through a huge entry and takes the page it maps for a table. -/
def crossesHuge (tables : Store Entry) : Nat → List Nat → Bool
  | table, index :: next :: rest =>
    (tables table index).present &&
      ((tables table index).huge || crossesHuge tables (tables table index).addr (next :: rest))
  | _, _ => false

def kernelTableWidths : List Nat := [512, 512, 512]

def kernelWidths : List Nat := kernelTableWidths ++ [512]

def KernelTable (spaces : Nat → Prop) (tables : Store Entry) (table : Nat) : Prop :=
  ∃ root index path, spaces root ∧ 256 ≤ index ∧ Within kernelTableWidths (index :: path) ∧
    descend Entry.child tables root (index :: path) = some table

def KernelSlot (spaces : Nat → Prop) (tables : Store Entry) (table index : Nat) : Prop :=
  (spaces table ∧ 256 ≤ index) ∨ KernelTable spaces tables table

def LowerSlot (root : Nat) (tables : Store Entry) (table index : Nat) : Prop :=
  ∃ path, Within tableWidths path ∧ (path = [] → index < 256) ∧
    descend Entry.next tables root path = some table

structure KernelHalfKept (spaces : Nat → Prop) (root : Nat) (before after : Store Entry) :
    Prop where
  lower : ∀ table index, after table index ≠ before table index → LowerSlot root after table index
  entries : ∀ table index, KernelSlot spaces before table index →
    after table index = before table index
  translations : ∀ space virt, spaces space → ¬ lowerHalf virt →
    translation after space (indices virt) = translation before space (indices virt)

/-- The two halves of an address space have no table in common and use no free frame, and the
kernel half is for the kernel only. -/
structure Halved (spaces : Nat → Prop) (root : Nat) (memory : Memory) : Prop where
  isSpace : spaces root
  walks : walkable root = true
  level : ∀ path path' table, Within tableWidths path → Within tableWidths path' →
    memory.reach root path = some table → memory.reach root path' = some table →
    path.length = path'.length
  apart : ∀ path table, Within tableWidths path → memory.reach root path = some table →
    (path ≠ [] → ¬ spaces table) ∧ ¬ KernelTable spaces memory.tables table
  taken : ∀ frame ∈ freeFrames memory.frames.bitmap, ¬ spaces (frame * frameSize) ∧
    ¬ KernelTable spaces memory.tables (frame * frameSize) ∧
    ∀ path, Within tableWidths path → memory.reach root path ≠ some (frame * frameSize)
  supervisor : ∀ table index, KernelSlot spaces memory.tables table index →
    (memory.tables table index).present = true → (memory.tables table index).user = false

variable {spaces guarded : Nat → Prop} {tables other : Store Entry} {memory : Memory}
  {root table index virt : Nat} {path rest : List Nat}

def Above (spaces : Nat → Prop) (tables : Store Entry) (table : Nat) (rest : List Nat) : Prop :=
  (spaces table ∧ Within kernelWidths rest ∧ ∀ index ∈ rest.head?, 256 ≤ index) ∨
    ∃ root index path, spaces root ∧ 256 ≤ index ∧
      Within kernelWidths (index :: path ++ rest) ∧
      descend Entry.child tables root (index :: path) = some table

lemma Above.start (isSpace : spaces root) (upper : ¬ lowerHalf virt) :
    Above spaces tables root (indices virt) := by
  refine .inl ⟨isSpace, ⟨Nat.mod_lt _ (by decide), Nat.mod_lt _ (by decide),
    Nat.mod_lt _ (by decide), Nat.mod_lt _ (by decide), trivial⟩, ?_⟩
  rintro _ ⟨⟩
  exact Nat.not_lt.mp upper

lemma Above.slot (above : Above spaces tables table (index :: rest)) :
    KernelSlot spaces tables table index := by
  rcases above with ⟨isSpace, _, bound⟩ | ⟨root, first, path, isSpace, bound, within, reached⟩
  · exact .inl ⟨isSpace, bound index rfl⟩
  · exact .inr ⟨root, first, path, isSpace, bound, within.inner, reached⟩

lemma Above.next {child : Nat} (above : Above spaces tables table (index :: rest))
    (isChild : (tables table index).child = some child) : Above spaces tables child rest := by
  rcases above with ⟨isSpace, within, bound⟩ | ⟨root, first, path, isSpace, bound, within, reached⟩
  · exact .inr ⟨table, index, [], isSpace, bound index rfl, within, by simp [descend, isChild]⟩
  refine .inr ⟨root, first, path ++ [index], isSpace, bound, by simpa using within, ?_⟩
  rw [← cons_append, descend_concat, reached]
  exact isChild

lemma child_eq_some (present : (tables table index).present)
    (small : (tables table index).huge = false) :
    (tables table index).child = some (tables table index).addr := by
  simp [Entry.child, small, Entry.next, present]

lemma translation_agree
    (agree : ∀ table index, KernelSlot spaces tables table index →
      other table index = tables table index)
    (above : Above spaces tables table rest) :
    translation other table rest = translation tables table rest := by
  induction rest generalizing table with
  | nil => rfl
  | cons index rest ih =>
    simp only [translation, agree table index above.slot]
    by_cases present : (tables table index).present
    · by_cases last : rest = [] ∨ (tables table index).huge
      · simp [present, last]
      have small : (tables table index).huge = false := by
        rw [← Bool.not_eq_true]
        exact fun huge => last (.inr huge)
      simp only [present, last, if_true, if_false]
      exact ih (above.next (child_eq_some present small))
    · simp [present]

lemma locate_agree
    (agree : ∀ table index, KernelSlot spaces tables table index →
      other table index = tables table index)
    (above : Above spaces tables table rest) (plain : crossesHuge tables table rest = false) :
    locate other table rest = locate tables table rest := by
  induction rest generalizing table with
  | nil => rfl
  | cons index rest ih =>
    cases rest with
    | nil => simp only [locate, agree table index above.slot]
    | cons second rest =>
      rw [locate, locate, agree table index above.slot]
      by_cases present : (tables table index).present
      · simp only [crossesHuge, present, Bool.true_and, Bool.or_eq_false_iff] at plain
        rw [ih (above.next (child_eq_some present plain.1)) plain.2]
      · simp [present]

variable {found : Nat × Nat}

lemma locate_kernelSlot (above : Above spaces tables table rest)
    (plain : crossesHuge tables table rest = false)
    (located : locate tables table rest = some (some found)) :
    KernelSlot spaces tables found.1 found.2 ∧ (tables found.1 found.2).present := by
  induction rest generalizing table with
  | nil => cases located
  | cons index rest ih =>
    simp only [locate] at located
    split at located
    · split at located
      · rename_i present
        cases rest with
        | nil =>
          obtain rfl := some.inj (some.inj located)
          exact ⟨above.slot, present⟩
        | cons second rest =>
          simp only [crossesHuge, present, Bool.true_and, Bool.or_eq_false_iff] at plain
          exact ih (above.next (child_eq_some present plain.1)) plain.2 located
      · cases located
    · cases located

lemma locate_found (located : locate tables root rest = some (some found)) :
    ∃ before, rest = before ++ [found.2] ∧
      descend Entry.next tables root before = some found.1 := by
  induction rest generalizing root with
  | nil => cases located
  | cons index rest ih =>
    simp only [locate] at located
    split at located
    · split at located
      · rename_i present
        cases rest with
        | nil =>
          obtain rfl := some.inj (some.inj located)
          exact ⟨[], rfl, rfl⟩
        | cons second rest =>
          obtain ⟨before, split, reached⟩ := ih located
          refine ⟨index :: before, by rw [split]; rfl, ?_⟩
          simp only [descend, Entry.next, present, if_true]
          exact reached
      · cases located
    · cases located

/-! Operations on the lower half. `guarded` are the tables they must not touch. -/

structure UserSide (guarded : Nat → Prop) (root : Nat) (before : Store Entry) (after : Memory) :
    Prop where
  level : ∀ path path' table, Within tableWidths path → Within tableWidths path' →
    after.reach root path = some table → after.reach root path' = some table →
    path.length = path'.length
  apart : ∀ path table, Within tableWidths path → path ≠ [] →
    after.reach root path = some table → ¬ guarded table
  changed : ∀ table index, after.tables table index ≠ before table index →
    LowerSlot root after.tables table index

def Stocked (guarded : Nat → Prop) (root : Nat) (memory : Memory) : Prop :=
  ∀ frame ∈ freeFrames memory.frames.bitmap, ¬ guarded (frame * frameSize) ∧
    ∀ path, Within tableWidths path → memory.reach root path ≠ some (frame * frameSize)

variable {before : Store Entry} {start : Nat}

lemma UserSide.reach_leaf (side : UserSide guarded root before memory)
    (within : Within tableWidths path) (deep : path.length = 3)
    (here : memory.reach root path = some table) (index : Nat) (entry : Entry) {path' : List Nat}
    (within' : Within tableWidths path') :
    descend Entry.next (memory.tables.write table index entry) root path' =
      memory.reach root path' := by
  refine descend_congr fun before' later after split visited found => ?_
  have different : visited ≠ table := by
    rintro rfl
    have same := side.level before' path visited (left (split ▸ within')) within found here
    have short := within'.length_le
    simp only [split, tableWidths, length_append, length_cons, length_nil] at short
    omega
  simp [Store.write, different]

lemma UserSide.leaf (side : UserSide guarded root before memory)
    (within : Within tableWidths path) (deep : path.length = 3)
    (here : memory.reach root path = some table) (index : Nat) (entry : Entry) :
    UserSide guarded root before
      { memory with tables := memory.tables.write table index entry } := by
  have same := fun {path'} (within' : Within tableWidths path') =>
    side.reach_leaf within deep here index entry within'
  refine ⟨?_, ?_, ?_⟩
  · intro path₁ path₂ table within₁ within₂ reached₁ reached₂
    exact side.level path₁ path₂ table within₁ within₂ ((same within₁).symm.trans reached₁)
      ((same within₂).symm.trans reached₂)
  · intro path' table within' nonempty reached
    exact side.apart path' table within' nonempty ((same within').symm.trans reached)
  intro table' index' differs
  by_cases written : table' = table ∧ index' = index
  · obtain ⟨rfl, rfl⟩ := written
    refine ⟨path, within, ?_, (same within).trans here⟩
    rintro rfl
    cases deep
  simp only [Store.write, written, if_false] at differs
  obtain ⟨path', within', bound, reached⟩ := side.changed table' index' differs
  exact ⟨path', within', bound, (same within').trans reached⟩

lemma Stocked.leaf (stocked : Stocked guarded root memory)
    (side : UserSide guarded root before memory)
    (within : Within tableWidths path) (deep : path.length = 3)
    (here : memory.reach root path = some table) (index : Nat) (entry : Entry) :
    Stocked guarded root { memory with tables := memory.tables.write table index entry } := by
  intro frame isFree
  refine ⟨(stocked frame isFree).1, fun path' within' reached => ?_⟩
  exact (stocked frame isFree).2 path' within'
    ((side.reach_leaf within deep here index entry within').symm.trans reached)

lemma mem_freeFrames_take {frame : Nat}
    (isFree : frame ∈ freeFrames (memory.take start 1).frames.bitmap) :
    frame ∈ freeFrames memory.frames.bitmap ∧ frame ≠ start := by
  have both : frame ∈ freeFrames (memory.frames.bitmap.takeRun start 1) := isFree
  rw [freeFrames_takeRun, Finset.mem_sdiff] at both
  refine ⟨both.1, ?_⟩
  rintro rfl
  exact both.2 (mem_toFinset.mpr (mem_range'_one frame))

lemma Stocked.take (stocked : Stocked guarded root memory) (start : Nat) :
    Stocked guarded root (memory.take start 1) :=
  fun frame isFree => stocked frame (mem_freeFrames_take isFree).1

lemma UserSide.link (side : UserSide guarded root before memory)
    (stocked : Stocked guarded root memory) (within : Within tableWidths (path ++ [index]))
    (here : memory.reach root path = some table)
    (empty : (memory.tables table index).present = false)
    (isFree : start ∈ freeFrames memory.frames.bitmap) {after : Memory}
    (linked : after = { memory.take start 1 with
      tables := (memory.tables.fill (start * frameSize) fun _ => {}).write table index
        { addr := start * frameSize, present := true, writable := true, user := true } }) :
    UserSide guarded root before after ∧ Stocked guarded root after ∧
      after.reach root (path ++ [index]) = some (start * frameSize) := by
  obtain ⟨unguarded, unreached⟩ := stocked start isFree
  have single : ∀ frame, frame * frameSize = start * frameSize → frame = start :=
    fun frame same => Nat.eq_of_mul_eq_mul_right (by decide) same
  generalize start * frameSize = phys at linked unguarded unreached single
  have notHere : table ≠ phys := by
    rintro rfl
    exact unreached path within.left here
  have filled : ∀ path', Within tableWidths path' →
      descend Entry.next (memory.tables.fill phys fun _ => {}) root path' =
        memory.reach root path' :=
    fun path' within' => descend_fill fun first later rest split =>
      unreached first (left (split ▸ within'))
  have bare : Entry.next ((memory.tables.fill phys fun _ => {}) table index) = none := by
    simp [Store.fill, notHere, Entry.next, empty]
  have kept : ∀ path' found, Within tableWidths path' → memory.reach root path' = some found →
      after.reach root path' = some found := by
    intro path' found within' reached
    rw [linked]
    exact descend_write_empty bare ((filled path' within').trans reached)
  -- The new table is empty, so nothing lies behind it.
  have reach : ∀ path' found, Within tableWidths path' → after.reach root path' = some found →
      memory.reach root path' = some found ∨
        (found = phys ∧ ∃ first, path' = first ++ [index] ∧
          memory.reach root first = some table) := by
    intro path' found within' reached
    rw [linked] at reached
    rcases descend_write_cases reached with before | ⟨first, rest, child, split, visited, isChild,
      later⟩
    · exact .inl ((filled path' within').symm.trans before)
    obtain rfl : phys = child := some.inj isChild
    have visited := (filled first (left (split ▸ within'))).symm.trans visited
    cases rest with
    | nil => exact .inr ⟨(some.inj later).symm, first, split, visited⟩
    | cons second rest =>
      simp [descend, Store.write, Store.fill, notHere.symm, Entry.next] at later
  have atNew : after.reach root (path ++ [index]) = some phys := by
    have arrived := kept path table within.left here
    simp only [Memory.reach, descend_concat] at arrived ⊢
    rw [arrived, linked]
    simp [Store.write, Entry.next]
  refine ⟨⟨?_, ?_, ?_⟩, ?_, atNew⟩
  · intro path₁ path₂ found within₁ within₂ reached₁ reached₂
    rcases reach path₁ found within₁ reached₁ with old₁ | ⟨rfl, first₁, split₁, visited₁⟩ <;>
      rcases reach path₂ found within₂ reached₂ with old₂ | ⟨isNew₂, first₂, split₂, visited₂⟩
    · exact side.level path₁ path₂ found within₁ within₂ old₁ old₂
    · exact absurd (isNew₂ ▸ old₁) (unreached path₁ within₁)
    · exact absurd old₂ (unreached path₂ within₂)
    have same := side.level first₁ first₂ table (left (split₁ ▸ within₁))
      (left (split₂ ▸ within₂)) visited₁ visited₂
    rw [split₁, split₂, length_append, length_append, same]
  · intro path' found within' nonempty reached
    rcases reach path' found within' reached with old | ⟨rfl, _⟩
    · exact side.apart path' found within' nonempty old
    · exact unguarded
  · intro table' index' differs
    by_cases written : table' = table ∧ index' = index
    · obtain ⟨rfl, rfl⟩ := written
      refine ⟨path, within.left, ?_, kept path table' within.left here⟩
      rintro rfl
      exact within.1
    by_cases isNew : table' = phys
    · subst isNew
      exact ⟨path ++ [index], within, fun nothing => by simp at nothing, atNew⟩
    rw [linked] at differs
    simp only [Store.write, written, if_false, Store.fill, isNew] at differs
    obtain ⟨path', within', bound, reached⟩ := side.changed table' index' differs
    exact ⟨path', within', bound, kept path' table' within' reached⟩
  intro frame isFreeAfter
  rw [linked] at isFreeAfter
  obtain ⟨wasFree, other⟩ := mem_freeFrames_take isFreeAfter
  refine ⟨(stocked frame wasFree).1, fun path' within' reached => ?_⟩
  rcases reach path' _ within' reached with old | ⟨same, _⟩
  · exact (stocked frame wasFree).2 path' within' old
  · exact other (single frame same)

lemma userSide_descends (lower : lowerHalf virt) :
    Descends (tablePath virt) fun memory path table => UserSide guarded root before memory ∧
      Stocked guarded root memory ∧ memory.reach root path = some table := by
  have within := tablePath_within lower
  refine ⟨?_, ?_⟩
  · rintro memory path table index ⟨side, stocked, here⟩ first present
    refine ⟨side, stocked, ?_⟩
    simp only [Memory.reach] at here
    simp [Memory.reach, descend_concat, here, Entry.next, present]
  · rintro memory path table index _ ⟨side, stocked, here⟩ first absent run
    exact side.link stocked (upTo within first) here absent (mem_of_freeRun run) rfl

lemma UserSide.mapUserPageWithFlags (side : UserSide guarded root before memory)
    (stocked : Stocked guarded root memory) (lower : lowerHalf virt) (phys : Nat)
    (writable exec : Bool) :
    Meets (memory.mapUserPageWithFlags root virt phys writable exec) fun after _ =>
      UserSide guarded root before after ∧ Stocked guarded root after := by
  rcases (userSide_descends lower).map ⟨side, stocked, rfl⟩ phys writable exec with
    ⟨middle, pt, ⟨middleSide, middleStocked, here⟩, ran⟩ |
    ⟨after, oom, _, _, ⟨afterSide, afterStocked, _⟩, _, _, ran⟩ | ⟨ran, _⟩
  · rw [ran]
    have within := tablePath_within lower
    exact (ends_ok ⟨middleSide.leaf within rfl here _ _,
      middleStocked.leaf middleSide within rfl here _ _⟩).meets
  · rw [ran]
    exact (ends_fail ⟨afterSide, afterStocked⟩).meets
  · rw [ran]
    exact meets_none

lemma locate_lower (lower : lowerHalf virt)
    (located : locate memory.tables root (indices virt) = some (some found)) :
    ∃ path, Within tableWidths path ∧ path.length = 3 ∧ memory.reach root path = some found.1 := by
  obtain ⟨_, split, reached⟩ := locate_found located
  rw [indices_split] at split
  obtain ⟨rfl, _⟩ := append_inj' split rfl
  exact ⟨tablePath virt, tablePath_within lower, rfl, reached⟩

lemma UserSide.updateUserPage (side : UserSide guarded root before memory)
    (stocked : Stocked guarded root memory) (lower : lowerHalf virt) (writable exec : Bool) :
    Meets (memory.updateUserPage root virt writable exec) fun after _ =>
      UserSide guarded root before after ∧ Stocked guarded root after := by
  simp only [Memory.updateUserPage]
  split
  · rename_i located
    obtain ⟨_, within, deep, here⟩ := locate_lower lower located
    exact (ends_ok ⟨side.leaf within deep here _ _, stocked.leaf side within deep here _ _⟩).meets
  · exact (ends_fail ⟨side, stocked⟩).meets
  · exact meets_none

lemma UserSide.unmapUserPage (side : UserSide guarded root before memory) (lower : lowerHalf virt) :
    Meets (memory.unmapUserPage root virt) fun after _ => UserSide guarded root before after := by
  simp only [Memory.unmapUserPage]
  split
  · split
    · rename_i located
      obtain ⟨_, within, deep, here⟩ := locate_lower lower located
      exact (ends_ok (side.leaf within deep here _ _)).meets
    · exact (ends_fail side).meets
    · exact meets_none
  · exact (ends_fail side).meets

def KernelOwned (spaces : Nat → Prop) (tables : Store Entry) (table : Nat) : Prop :=
  spaces table ∨ KernelTable spaces tables table

lemma KernelSlot.owned (slot : KernelSlot spaces tables table index) :
    KernelOwned spaces tables table :=
  slot.imp And.left id

section

variable (halved : Halved spaces root memory)
include halved

lemma Halved.userSide : UserSide (KernelOwned spaces memory.tables) root memory.tables memory := by
  refine ⟨halved.level, ?_, fun _ _ differs => absurd rfl differs⟩
  intro path table within nonempty reached
  obtain ⟨notSpace, notKernel⟩ := halved.apart path table within reached
  exact fun owned => owned.elim (notSpace nonempty) notKernel

lemma Halved.stocked : Stocked (KernelOwned spaces memory.tables) root memory := by
  intro frame isFree
  obtain ⟨notSpace, notKernel, unreached⟩ := halved.taken frame isFree
  exact ⟨fun owned => owned.elim notSpace notKernel, unreached⟩

lemma Halved.root_unshared : ¬ KernelTable spaces memory.tables root :=
  (halved.apart [] root trivial rfl).2

section

variable {after : Memory} (side : UserSide (KernelOwned spaces memory.tables) root memory.tables after)
include side

lemma UserSide.entries (slot : KernelSlot spaces memory.tables table index) :
    after.tables table index = memory.tables table index := by
  by_contra differs
  obtain ⟨path, within, bound, reached⟩ := side.changed table index differs
  cases path with
  | nil =>
    obtain rfl : root = table := some.inj reached
    rcases slot with ⟨_, _⟩ | isKernel
    · have low := bound rfl
      omega
    · exact halved.root_unshared isKernel
  | cons first path => exact side.apart _ table within (cons_ne_nil _ _) reached slot.owned

lemma UserSide.kept : KernelHalfKept spaces root memory.tables after.tables := by
  have entries : ∀ table index, KernelSlot spaces memory.tables table index →
      after.tables table index = memory.tables table index :=
    fun _ _ slot => side.entries halved slot
  exact ⟨side.changed, entries,
    fun space virt isSpace upper => translation_agree entries (Above.start isSpace upper)⟩

lemma UserSide.locate_upper
    (upper : ¬ lowerHalf virt) (plain : crossesHuge memory.tables root (indices virt) = false) :
    locate after.tables root (indices virt) = locate memory.tables root (indices virt) :=
  locate_agree (fun _ _ slot => side.entries halved slot) (Above.start halved.isSpace upper) plain

end

end

/-! Entries that cannot be taken back. An operation writes only entries of one kind, `mark`, into
guarded tables. -/

def Marks (mark : Entry → Prop) (guarded : Nat → Prop) (before after : Store Entry) : Prop :=
  ∀ table, guarded table → ∀ index,
    after table index = before table index ∨ mark (after table index)

def Hit (mark : Entry → Prop) (spaces : Nat → Prop) (before after : Store Entry) : Prop :=
  ∃ table index, KernelSlot spaces before table index ∧ ¬ mark (before table index) ∧
    mark (after table index)

variable {mark : Entry → Prop} {middle after : Store Entry}

lemma Marks.trans (first : Marks mark guarded before middle)
    (second : Marks mark guarded middle after) : Marks mark guarded before after := by
  intro table isGuarded index
  rcases second table isGuarded index with same | marked
  · rw [same]
    exact first table isGuarded index
  · exact .inr marked

variable {entry : Entry}

lemma Marks.write (marks : Marks mark guarded before middle)
    (marked : mark entry) : Marks mark guarded before (middle.write table index entry) := by
  intro table' isGuarded index'
  by_cases written : table' = table ∧ index' = index
  · simp only [Store.write, written, and_self, if_true]
    exact .inr marked
  · simp only [Store.write, written, if_false]
    exact marks table' isGuarded index'

lemma Hit.marks (hit : Hit mark spaces before middle)
    (marks : Marks mark (KernelOwned spaces before) middle after) :
    Hit mark spaces before after := by
  obtain ⟨table, index, slot, unmarked, _⟩ := hit
  refine ⟨table, index, slot, unmarked, ?_⟩
  rcases marks table slot.owned index with same | now
  · rwa [same]
  · exact now

lemma Hit.write (slot : KernelSlot spaces before table index)
    (unmarked : ¬ mark (before table index)) (marked : mark entry) :
    Hit mark spaces before (middle.write table index entry) := by
  refine ⟨table, index, slot, unmarked, ?_⟩
  simpa [Store.write] using marked

lemma Hit.not_kept (hit : Hit mark spaces before after) :
    ¬ KernelHalfKept spaces root before after := by
  obtain ⟨table, index, slot, unmarked, marked⟩ := hit
  intro kept
  rw [kept.entries table index slot] at marked
  exact unmarked marked

lemma Marks.entries (marks : Marks mark (KernelOwned spaces before) before after)
    (steady : ∀ table index, KernelSlot spaces before table index → mark (before table index) →
      mark (after table index) → after table index = before table index)
    (missed : ¬ Hit mark spaces before after) (slot : KernelSlot spaces before table index) :
    after table index = before table index := by
  rcases marks table slot.owned index with same | marked
  · exact same
  refine steady table index slot ?_ marked
  by_contra unmarked
  exact missed ⟨table, index, slot, unmarked, marked⟩

lemma unmapUserPage_marks :
    Meets (memory.unmapUserPage root virt) fun after _ =>
      Marks (· = {}) guarded memory.tables after.tables := by
  have same : Marks (· = {}) guarded memory.tables memory.tables := fun _ _ _ => .inl rfl
  simp only [Memory.unmapUserPage]
  split
  · split
    · exact (ends_ok (same.write rfl)).meets
    · exact (ends_fail same).meets
    · exact meets_none
  · exact (ends_fail same).meets

lemma unmapUserPage_hit (walks : walkable root)
    (located : locate memory.tables root (indices virt) = some (some found))
    (slot : KernelSlot spaces before found.1 found.2)
    (present : (before found.1 found.2).present) :
    Meets (memory.unmapUserPage root virt) fun after _ =>
      Hit (· = {}) spaces before after.tables := by
  rw [Memory.unmapUserPage, if_pos walks, located]
  have nonempty : ¬ before found.1 found.2 = {} := by
    intro empty
    rw [empty] at present
    cases present
  have hit : Hit (· = {}) spaces before (memory.tables.write found.1 found.2 {}) :=
    Hit.write slot nonempty rfl
  exact (ends_ok hit).meets

/-! Opening: the operations that set entries set them for user mode. -/

def Opened (entry : Entry) : Prop := entry.present = true ∧ entry.user = true

def Guards (guarded : Nat → Prop) (memory : Memory) : Prop :=
  ∀ frame ∈ freeFrames memory.frames.bitmap, ¬ guarded (frame * frameSize)

structure Opens (guarded : Nat → Prop) (before after : Memory) : Prop where
  marks : Marks Opened guarded before.tables after.tables
  guards : Guards guarded after

lemma Opens.refl (guards : Guards guarded memory) : Opens guarded memory memory :=
  ⟨fun _ _ _ => .inl rfl, guards⟩

lemma Opens.trans {middle after : Memory} (first : Opens guarded memory middle)
    (second : Opens guarded middle after) : Opens guarded memory after :=
  ⟨first.marks.trans second.marks, second.guards⟩

section

variable (guards : Guards guarded memory)
include guards

lemma Opens.write (opened : Opened entry) :
    Opens guarded memory { memory with tables := memory.tables.write table index entry } :=
  ⟨(Opens.refl guards).marks.write opened, guards⟩

lemma Guards.take (start : Nat) : Guards guarded (memory.take start 1) :=
  fun frame isFree => guards frame (mem_freeFrames_take isFree).1

lemma opens_allocFrameOr {Error : Type} (oom : Error) :
    Meets (memory.allocFrameOr oom) fun after _ =>
      Opens guarded memory after ∧ after.tables = memory.tables := by
  rcases allocFrame_cases memory with failed | ⟨start, _, done⟩
  · rw [allocFrameOr, failed]
    exact (ends_fail ⟨Opens.refl guards, rfl⟩).meets
  · rw [allocFrameOr, done]
    exact (ends_ok ⟨⟨fun _ _ _ => .inl rfl, guards.take start⟩, rfl⟩).meets

lemma Opens.withTable (run : FreeRun memory.frames.bitmap start 1) :
    Opens guarded memory (memory.withTable table index start) := by
  have zeroed : Marks Opened guarded memory.tables
      (memory.tables.fill (start * frameSize) fun _ => {}) := by
    intro table' isGuarded index'
    have different : table' ≠ start * frameSize := by
      rintro rfl
      exact guards start (mem_of_freeRun run) isGuarded
    left
    simp [Store.fill, different]
  exact ⟨zeroed.write ⟨rfl, rfl⟩, guards.take start⟩

end

lemma opened_leafEntry (phys : Nat) (writable exec : Bool) :
    Opened (leafEntry phys writable exec) :=
  ⟨rfl, rfl⟩

lemma opens_mapUserPageWithFlags (guards : Guards guarded memory) (phys : Nat)
    (writable exec : Bool) :
    Meets (memory.mapUserPageWithFlags root virt phys writable exec) fun after _ =>
      Opens guarded memory after := by
  have descends : Descends (tablePath virt) fun after _ _ => Opens guarded memory after :=
    ⟨fun opens _ _ => opens, fun opens _ _ run => opens.trans (Opens.withTable opens.guards run)⟩
  rcases descends.map (Opens.refl guards) phys writable exec with
    ⟨middle, pt, opens, ran⟩ | ⟨after, oom, _, _, opens, _, _, ran⟩ | ⟨ran, _⟩
  · rw [ran]
    exact (ends_ok (opens.trans (Opens.write opens.guards (opened_leafEntry _ _ _)))).meets
  · rw [ran]
    exact (ends_fail opens).meets
  · rw [ran]
    exact meets_none

lemma opens_updateUserPage (guards : Guards guarded memory) (writable exec : Bool) :
    Meets (memory.updateUserPage root virt writable exec) fun after _ =>
      Opens guarded memory after := by
  simp only [Memory.updateUserPage]
  split
  · exact (ends_ok (Opens.write guards ⟨rfl, rfl⟩)).meets
  · exact (ends_fail (Opens.refl guards)).meets
  · exact meets_none

def Intact (spaces : Nat → Prop) (before after : Store Entry) : Prop :=
  ∀ table index, KernelSlot spaces before table index → after table index = before table index

section

variable (closed : ∀ table index, KernelSlot spaces before table index → ¬ Opened (before table index))
include closed

lemma hit_descends : Descends (tablePath virt) fun memory path table =>
    Guards (KernelOwned spaces before) memory ∧ (Hit Opened spaces before memory.tables ∨
      Intact spaces before memory.tables ∧ ∃ rest, tablePath virt = path ++ rest ∧
        Above spaces before table (rest ++ [virt / 2 ^ 12 % 512]) ∧
        crossesHuge before table (rest ++ [virt / 2 ^ 12 % 512]) = false) := by
  refine ⟨?_, ?_⟩
  · rintro memory path table index ⟨guards, hit | ⟨intact, rest, split, above, plain⟩⟩ first present
    · exact ⟨guards, .inl hit⟩
    obtain ⟨rest, rfl⟩ : ∃ more, rest = index :: more := by
      obtain ⟨more, same⟩ := first
      rw [split, append_assoc] at same
      exact ⟨more, (append_cancel_left same).symm⟩
    rw [intact table index above.slot] at present ⊢
    have small : (before table index).huge = false ∧ crossesHuge before
        (before table index).addr (rest ++ [virt / 2 ^ 12 % 512]) = false := by
      cases rest with
      | nil | cons => simpa [crossesHuge, present] using plain
    exact ⟨guards, .inr ⟨intact, rest, by simpa using split,
      above.next (child_eq_some present small.1), small.2⟩⟩
  · rintro memory path table index start ⟨guards, reached⟩ first _ run
    have opens : Opens (KernelOwned spaces before) memory (memory.withTable table index start) :=
      Opens.withTable guards run
    refine ⟨opens.guards, .inl ?_⟩
    rcases reached with hit | ⟨intact, rest, split, above, _⟩
    · exact hit.marks opens.marks
    obtain ⟨rest, rfl⟩ : ∃ more, rest = index :: more := by
      obtain ⟨more, same⟩ := first
      rw [split, append_assoc] at same
      exact ⟨more, (append_cancel_left same).symm⟩
    exact Hit.write above.slot (closed table index above.slot) ⟨rfl, rfl⟩

lemma mapUserPageWithFlags_hit
    (guards : Guards (KernelOwned spaces before) memory) (isSpace : spaces root)
    (upper : ¬ lowerHalf virt) (plain : crossesHuge before root (indices virt) = false)
    (intact : Intact spaces before memory.tables) (phys : Nat) (writable exec : Bool) :
    Meets (memory.mapUserPageWithFlags root virt phys writable exec) fun after result =>
      ∀ last, result = .ok last → Hit Opened spaces before after.tables := by
  rcases (hit_descends closed).map
    ⟨guards, .inr ⟨intact, tablePath virt, rfl, Above.start isSpace upper, plain⟩⟩ phys writable
    exec with ⟨middle, pt, ⟨_, reached⟩, ran⟩ | ⟨after, oom, _, _, _, _, _, ran⟩ | ⟨ran, _⟩
  · rw [ran]
    refine (ends_ok fun _ _ => ?_).meets
    rcases reached with hit | ⟨_, _, split, above, _⟩
    · exact hit.marks (Marks.write (fun _ _ _ => .inl rfl) (opened_leafEntry _ _ _))
    · rw [self_eq_append_right.mp split] at above
      exact Hit.write above.slot (closed pt _ above.slot) (opened_leafEntry _ _ _)
  · rw [ran]
    exact (ends_fail (by rintro _ ⟨⟩)).meets
  · rw [ran]
    exact meets_none

lemma updateUserPage_hit (located : locate memory.tables root (indices virt) = some (some found))
    (slot : KernelSlot spaces before found.1 found.2) (writable exec : Bool) :
    Meets (memory.updateUserPage root virt writable exec) fun after _ =>
      Hit Opened spaces before after.tables := by
  rw [Memory.updateUserPage, located]
  exact (ends_ok (Hit.write slot (closed _ _ slot) ⟨rfl, rfl⟩)).meets

end

end OsCortex.Paging
