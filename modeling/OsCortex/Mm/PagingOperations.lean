import OsCortex.Mm.PagingChecks

/-!
The functions of `mm/paging.rs` on tidy tables: none of them panics and each keeps the tables tidy.
-/

namespace OsCortex.Paging

open FrameAllocator Radix List Option Memory Store Finset Prod Within Nat

variable {regions : List MemRegion} {usable : Finset Nat} {roots kept : Nat → Prop}
  {memory : Memory}

structure Grown (roots kept : Nat → Prop) (spent : Nat) (before after : Memory) : Prop where
  held : ∀ phys, Held before phys → Held after phys
  fresh : ∀ phys, Fresh roots kept before phys → Fresh roots kept after phys
  pageable : ∀ phys, Pageable roots kept before phys → Pageable roots kept after phys
  leaf : ∀ root path, roots root → Within leafWidths path → path.length = 4 →
    after.reach root path = before.reach root path
  table : ∀ root path phys, roots root → Within tableWidths path →
    before.reach root path = some phys → after.reach root path = some phys
  budget : (freeFrames before.frames.bitmap).card ≤ (freeFrames after.frames.bitmap).card + spent

lemma Grown.refl (memory : Memory) : Grown roots kept 0 memory memory :=
  ⟨fun _ held => held, fun _ fresh => fresh, fun _ pageable => pageable, fun _ _ _ _ _ => rfl,
    fun _ _ _ _ _ here => here, le_add_right _ 0⟩

variable {spent : Nat} {after : Memory}

lemma Grown.trans {spent' : Nat} {middle : Memory}
    (first : Grown roots kept spent memory middle) (second : Grown roots kept spent' middle after) :
    Grown roots kept (spent + spent') memory after := by
  refine ⟨fun phys held => second.held phys (first.held phys held),
    fun phys fresh => second.fresh phys (first.fresh phys fresh),
    fun phys pageable => second.pageable phys (first.pageable phys pageable), ?_, ?_, ?_⟩
  · intro root path isRoot within length
    rw [second.leaf root path isRoot within length, first.leaf root path isRoot within length]
  · intro root path phys isRoot within here
    exact second.table root path phys isRoot within (first.table root path phys isRoot within here)
  have := first.budget
  have := second.budget
  omega

lemma Grown.more {spent' : Nat} (grown : Grown roots kept spent memory after)
    (le : spent ≤ spent') : Grown roots kept spent' memory after :=
  { grown with budget := le_trans grown.budget (by omega) }

variable {phys : Nat} {path : List Nat} {start index : Nat}

lemma Exclusive.grown {root : Nat} (exclusive : Exclusive roots memory root path phys)
    (grown : Grown roots kept spent memory after) : Exclusive roots after root path phys := by
  refine ⟨grown.held phys exclusive.1, fun root' path' isRoot' within' length' reached' => ?_⟩
  rw [grown.leaf root' path' isRoot' within' length'] at reached'
  exact exclusive.2 root' path' isRoot' within' length' reached'

lemma LeavesOwned.grown (owned : LeavesOwned roots memory)
    (grown : Grown roots kept spent memory after) : LeavesOwned roots after := by
  intro root path phys isRoot within length reached
  rw [grown.leaf root path isRoot within length] at reached
  exact (owned root path phys isRoot within length reached).grown grown

lemma Grown.take {count : Nat} (run : FreeRun memory.frames.bitmap start count) :
    Grown roots kept count memory (memory.take start count) := by
  refine ⟨fun phys held => held.take start count,
    fun phys fresh => { fresh with held := fresh.held.take start count },
    ?_, fun _ _ _ _ _ => rfl, fun _ _ _ _ _ here => here, ?_⟩
  · rintro phys ⟨masked, taken, rest⟩
    refine ⟨masked, ?_, rest⟩
    show _ ∉ freeFrames (memory.frames.bitmap.takeRun start count)
    rw [freeFrames_takeRun]
    exact fun member => taken (mem_sdiff.mp member).1
  show _ ≤ (freeFrames (memory.frames.bitmap.takeRun start count)).card + count
  rw [freeFrames_takeRun, card_sdiff_of_subset (freeRun_subset run),
    toFinset_card_of_nodup nodup_range', length_range']
  omega

lemma handOut_take {count : Nat} :
    { memory with
      frames := memory.frames.handOut count
        (memory.frames.bitmap.takeRun start count, some (start * frameSize)) } =
      memory.take start count := by
  simp only [Session.handOut, Memory.take, Nat.mul_div_cancel start (show 0 < frameSize by decide)]

lemma mem_range'_one (start : Nat) : start ∈ range' start 1 := by
  simp

lemma mem_of_freeRun (run : FreeRun memory.frames.bitmap start 1) :
    start ∈ freeFrames memory.frames.bitmap :=
  freeRun_subset run (mem_toFinset.mpr (mem_range'_one start))

lemma allocFrame_cases (memory : Memory) :
    memory.allocFrame = (memory, none) ∨
      ∃ start, FreeRun memory.frames.bitmap start 1 ∧
        memory.allocFrame = (memory.take start 1, some (start * frameSize)) := by
  rcases alloc_spec memory.frames.bitmap with failed | ⟨start, run, done⟩
  · left
    simp only [Memory.allocFrame, failed]
    rfl
  right
  refine ⟨start, run, ?_⟩
  simp only [Memory.allocFrame, done]
  rw [handOut_take]

/-! A walk that adds the tables it misses. -/

def Memory.withTable (memory : Memory) (table index start : Nat) : Memory :=
  { memory.take start 1 with
    tables := (memory.tables.fill (start * frameSize) fun _ => {}).write table index
      { addr := start * frameSize, present := true, writable := true, user := true } }

lemma ensureNextTable_cases (memory : Memory) (table index : Nat) :
    ((memory.tables table index).present ∧
        memory.ensureNextTable table index = (memory, some (memory.tables table index).addr)) ∨
      ((memory.tables table index).present = false ∧
        ((memory.allocFrame = (memory, none) ∧
            memory.ensureNextTable table index = (memory, none)) ∨
          ∃ start, FreeRun memory.frames.bitmap start 1 ∧ memory.ensureNextTable table index =
            (memory.withTable table index start, some (start * frameSize)))) := by
  cases present : (memory.tables table index).present with
  | true => simp [ensureNextTable, present]
  | false =>
    simp only [ensureNextTable, present, Bool.false_eq_true, if_false, false_and, true_and,
      false_or, allocPageTable]
    rcases allocFrame_cases memory with failed | ⟨start, run, done⟩
    · exact .inl ⟨failed, by rw [failed]⟩
    · exact .inr ⟨start, run, by rw [done]; rfl⟩

structure Descends (target : List Nat) (At : Memory → List Nat → Nat → Prop) : Prop where
  down : ∀ {memory path table index}, At memory path table → path ++ [index] <+: target →
    (memory.tables table index).present = true →
    At memory (path ++ [index]) (memory.tables table index).addr
  link : ∀ {memory path table index start}, At memory path table → path ++ [index] <+: target →
    (memory.tables table index).present = false → FreeRun memory.frames.bitmap start 1 →
    At (memory.withTable table index start) (path ++ [index]) (start * frameSize)

section

variable {target : List Nat} {At : Memory → List Nat → Nat → Prop} {table : Nat}
  (descends : Descends target At)
include descends

lemma Descends.ensureTables (steps : List (Nat × String)) (here : At memory path table)
    (ahead : path ++ steps.map fst <+: target) :
    (∃ after pt, memory.ensureTables table steps = some (after, .ok pt) ∧
        At after (path ++ steps.map fst) pt) ∨
      (∃ after oom path' table', memory.ensureTables table steps = some (after, .error oom) ∧
        At after path' table' ∧ path'.length < path.length + steps.length ∧
        after.allocFrame = (after, none)) ∨
      memory.ensureTables table steps = none ∧
        ∃ after path' table', At after path' table' ∧ ¬ table' < ramLimit := by
  induction steps generalizing memory table path with
  | nil => exact .inl ⟨memory, table, rfl, by simpa using here⟩
  | cons step steps ih =>
    obtain ⟨index, oom⟩ := step
    have split : path ++ ((index, oom) :: steps).map fst =
        path ++ [index] ++ steps.map fst := by simp
    rw [split] at ahead ⊢
    have first := (prefix_append _ _).trans ahead
    have next : (∃ after child, memory.ensureNextTable table index = (after, some child) ∧
          At after (path ++ [index]) child) ∨
        memory.allocFrame = (memory, none) ∧ memory.ensureNextTable table index = (memory, none) := by
      rcases ensureNextTable_cases memory table index with ⟨present, done⟩ |
        ⟨absent, failed | ⟨start, run, done⟩⟩
      · exact .inl ⟨_, _, done, descends.down here first present⟩
      · exact .inr failed
      · exact .inl ⟨_, _, done, descends.link here first absent run⟩
    rw [ensureTables]
    rcases next with ⟨middle, child, done, there⟩ | ⟨failed, done⟩
    · rw [done]
      dsimp only
      by_cases low : child < ramLimit
      · rw [if_pos low]
        have rest := ih there ahead
        rwa [length_append, length_singleton, add_assoc, add_comm 1] at rest
      · rw [if_neg low]
        exact .inr (.inr ⟨rfl, middle, _, child, there, low⟩)
    · rw [done]
      exact .inr (.inl ⟨memory, oom, path, table, rfl, here, by simp, failed⟩)

end

section

variable (tidy : Tidy regions usable roots kept memory)
include tidy

lemma Tidy.allocFrame :
    (memory.allocFrame = (memory, none) ∧ freeFrames memory.frames.bitmap = ∅) ∨
      ∃ start, FreeRun memory.frames.bitmap start 1 ∧
        memory.allocFrame = (memory.take start 1, some (start * frameSize)) := by
  rcases allocFrame_cases memory with failed | found
  · left
    refine ⟨failed, eq_empty_of_forall_notMem fun frame isFree => ?_⟩
    have lower := (tidy.sound.usableFrame frame (tidy.sound.freeUsable isFree)).1
    obtain ⟨_, _, done⟩ := alloc_complete lower isFree
    simp [Memory.allocFrame, done] at failed
  · exact .inr found

lemma Tidy.withTable {root table : Nat} (place : Place roots memory root path table)
    (within : Within tableWidths (path ++ [index]))
    (absent : (memory.tables table index).present = false)
    (run : FreeRun memory.frames.bitmap start 1) :
    Tidy regions usable roots kept (memory.withTable table index start) ∧
      Place roots (memory.withTable table index start) root (path ++ [index]) (start * frameSize) ∧
      Grown roots kept 1 memory (memory.withTable table index start) := by
  have taken := tidy.take run
  have fresh := tidy.take_fresh run (mem_range'_one start)
  have grown : Grown roots kept 1 memory (memory.take start 1) := Grown.take run
  have wasFree : start * frameSize / frameSize ∈ freeFrames memory.frames.bitmap := by
    rw [Nat.mul_div_cancel start (by decide)]
    exact mem_of_freeRun run
  have reach := fun {root' path'} (isRoot' : roots root') (within' : Within leafWidths path') =>
    @link_reach _ _ _ _ _ _ _ _ _
      { addr := start * frameSize, present := true, writable := true, user := true }
      tidy.separate place fresh.notTable absent rfl isRoot' within'
  have tables : ∀ {other}, IsTable roots (memory.withTable table index start) other →
      other = start * frameSize ∨ IsTable roots memory other :=
    link_isTable tidy.separate place fresh.notTable absent rfl
  have short := within.length_le
  simp only [tableWidths, length_cons, length_nil] at short
  have leaf : ∀ root' path', roots root' → Within leafWidths path' → path'.length = 4 →
      (memory.withTable table index start).reach root' path' = memory.reach root' path' := by
    intro root' path' isRoot' within' length
    refine (reach isRoot' within').trans (if_neg ?_)
    rintro ⟨_, rfl⟩
    omega
  have leaves : ∀ other, IsLeaf roots (memory.withTable table index start) other →
      IsLeaf roots memory other := by
    rintro other ⟨root', path', isRoot', within', length, reached⟩
    exact ⟨root', path', isRoot', within', length,
      (leaf root' path' isRoot' within' length).symm.trans reached⟩
  have pageable : ∀ other, Pageable roots kept memory other →
      Pageable roots kept (memory.withTable table index start) other := by
    intro other before
    obtain ⟨masked, taken, notTable, notKept⟩ := grown.pageable other before
    refine ⟨masked, taken, fun isTable => ?_, notKept⟩
    rcases tables isTable with rfl | old
    · exact before.2.1 wasFree
    · exact notTable old
  refine ⟨⟨taken.sound, taken.once, link_separate tidy.separate place fresh.notTable absent rfl,
    ?_, ?_, fun other isLeaf => pageable other (tidy.leaves other (leaves other isLeaf)), ?_⟩,
    ⟨place.isRoot, within, (reach place.isRoot (Within.table within)).trans (if_pos ⟨rfl, rfl⟩)⟩,
    grown.held, ?_, pageable, leaf, ?_, grown.budget⟩
  · intro other isTable
    rcases tables isTable with rfl | before
    · exact fresh.held
    · exact taken.tables other before
  · intro root' path' other index' isRoot' within' reached within''
    show ((memory.tables.fill (start * frameSize) fun _ => {}).write table index _ other index').huge =
      false
    simp only [write, fill]
    split
    · rfl
    split
    · rfl
    rename_i notNew
    have value := (reach isRoot' (Within.table within')).symm.trans reached
    split at value
    · exact absurd (some.inj value).symm notNew
    · exact tidy.plain root' path' other index' isRoot' within' value within''
  · intro other isKept
    obtain ⟨held, notTable⟩ := taken.keeps other isKept
    refine ⟨held, fun isTable => ?_⟩
    rcases tables isTable with rfl | before
    · exact fresh.notKept isKept
    · exact notTable before
  · intro other otherFresh
    refine ⟨grown.held other otherFresh.held, fun isTable => ?_,
      fun isLeaf => otherFresh.notLeaf (leaves other isLeaf), otherFresh.notKept⟩
    rcases tables isTable with rfl | before
    · exact (tidy.held_bounds otherFresh.held).2.2 wasFree
    · exact otherFresh.notTable before
  intro root' path' other isRoot' within' before
  refine (reach isRoot' (Within.table within')).trans ((if_neg ?_).trans before)
  rintro ⟨rfl, rfl⟩
  -- the slot was empty, so nothing was reached through it
  have here : descend Entry.next memory.tables root' path = some table := place.here
  have nothing : descend Entry.next memory.tables root' (path ++ [index]) = none := by
    rw [descend_concat, here]
    simp [Entry.next, absent]
  exact some_ne_none other (before.symm.trans nothing)

omit tidy in
lemma Place.down {root table : Nat} (place : Place roots memory root path table)
    (within : Within tableWidths (path ++ [index]))
    (present : (memory.tables table index).present) :
    Place roots memory root (path ++ [index]) (memory.tables table index).addr := by
  have here : descend Entry.next memory.tables root path = some table := place.here
  refine ⟨place.isRoot, within, ?_⟩
  simp [Memory.reach, descend_concat, here, Entry.next, present]

end

def lowerHalf (virt : Nat) : Prop := virt / 2 ^ 39 % 512 < 256

instance (virt : Nat) : Decidable (lowerHalf virt) := inferInstanceAs (Decidable (_ < _))

lemma indices_within {virt : Nat} (lower : lowerHalf virt) : Within leafWidths (indices virt) :=
  ⟨lower, mod_lt _ (by decide), mod_lt _ (by decide), mod_lt _ (by decide), trivial⟩

def tablePath (virt : Nat) : List Nat :=
  [virt / 2 ^ 39 % 512, virt / 2 ^ 30 % 512, virt / 2 ^ 21 % 512]

lemma indices_split (virt : Nat) : indices virt = tablePath virt ++ [virt / 2 ^ 12 % 512] := rfl

def Mapped (regions : List MemRegion) (usable : Finset Nat) (roots kept : Nat → Prop)
    (before : Memory) (root virt : Nat) (entry : Entry) (after : Memory) : Prop :=
  ∃ middle pt, Grown roots kept 3 before middle ∧
    Tidy regions usable roots kept middle ∧ Place roots middle root (tablePath virt) pt ∧
    after = { middle with tables := middle.tables.write pt (virt / 2 ^ 12 % 512) entry }

lemma tablePath_within {virt : Nat} (lower : lowerHalf virt) :
    Within tableWidths (tablePath virt) :=
  ⟨lower, mod_lt _ (by decide), mod_lt _ (by decide), trivial⟩

lemma Within.upTo {target : List Nat} (within : Within tableWidths target)
    (first : path ++ [index] <+: target) : Within tableWidths (path ++ [index]) := by
  obtain ⟨_, rfl⟩ := first
  exact within.left

lemma tidy_descends {root : Nat} {target : List Nat} (within : Within tableWidths target) :
    Descends target fun after path table => Tidy regions usable roots kept after ∧
      Place roots after root path table ∧ Grown roots kept path.length memory after := by
  refine ⟨?_, ?_⟩
  · rintro after path table index ⟨tidy, place, grown⟩ first present
    exact ⟨tidy, place.down (upTo within first) present, grown.more (by simp)⟩
  · rintro after path table index _ ⟨tidy, place, grown⟩ first absent run
    obtain ⟨tidy, place, more⟩ := tidy.withTable place (upTo within first) absent run
    exact ⟨tidy, place, (grown.trans more).more (by simp)⟩

lemma Descends.map {At : Memory → List Nat → Nat → Prop} {root virt : Nat}
    (descends : Descends (tablePath virt) At) (here : At memory [] root) (phys : Nat)
    (writable exec : Bool) :
    (∃ middle pt, At middle (tablePath virt) pt ∧
        memory.mapUserPageWithFlags root virt phys writable exec =
          some ({ middle with
            tables := middle.tables.write pt (virt / 2 ^ 12 % 512)
              (leafEntry phys writable exec) }, .ok ())) ∨
      (∃ after oom path table, At after path table ∧ path.length < 3 ∧
        after.allocFrame = (after, none) ∧
        memory.mapUserPageWithFlags root virt phys writable exec = some (after, .error oom)) ∨
      memory.mapUserPageWithFlags root virt phys writable exec = none ∧
        ∃ after path table, At after path table ∧ ¬ table < ramLimit := by
  simp only [mapUserPageWithFlags]
  by_cases low : root < ramLimit
  · rw [if_pos low]
    rcases descends.ensureTables [(virt / 2 ^ 39 % 512, "OOM: PDPT"),
      (virt / 2 ^ 30 % 512, "OOM: PD"), (virt / 2 ^ 21 % 512, "OOM: PT")] here
      (prefix_refl _) with
      ⟨middle, pt, ran, there⟩ | ⟨after, oom, path, table, ran, there, short, failed⟩ |
      ⟨ran, there⟩
    · exact .inl ⟨middle, pt, there, by rw [ran]; rfl⟩
    · exact .inr (.inl ⟨after, oom, path, table, there, short, failed, by rw [ran]; rfl⟩)
    · exact .inr (.inr ⟨by rw [ran]; rfl, there⟩)
  · exact .inr (.inr ⟨if_neg low, memory, [], root, here, low⟩)

lemma Tidy.mapUserPageWithFlags (tidy : Tidy regions usable roots kept memory) {root virt : Nat}
    (isRoot : roots root) (lower : lowerHalf virt) (phys : Nat) (writable exec : Bool) :
    ∃ after result, memory.mapUserPageWithFlags root virt phys writable exec =
        some (after, result) ∧
      ((∃ oom, result = .error oom ∧ (freeFrames memory.frames.bitmap).card < 3 ∧
          Tidy regions usable roots kept after ∧ Grown roots kept 3 memory after) ∨
        (result = .ok () ∧
          Mapped regions usable roots kept memory root virt (leafEntry phys writable exec) after)) := by
  rcases (tidy_descends (tablePath_within lower)).map ⟨tidy, ⟨isRoot, trivial, rfl⟩,
    Grown.refl memory⟩ phys writable exec with
    ⟨middle, pt, ⟨middleTidy, place, grown⟩, ran⟩ |
    ⟨after, oom, path, table, ⟨afterTidy, _, grown⟩, short, failed, ran⟩ |
    ⟨_, after, path, table, ⟨afterTidy, place, _⟩, high⟩
  · exact ⟨_, _, ran, .inr ⟨rfl, middle, pt, grown, middleTidy, place, rfl⟩⟩
  · refine ⟨_, _, ran, .inl ⟨oom, rfl, ?_, afterTidy, grown.more (by omega)⟩⟩
    have budget := grown.budget
    rcases afterTidy.allocFrame with ⟨_, empty⟩ | ⟨_, _, done⟩
    · rw [empty, card_empty] at budget
      omega
    · cases (mk.inj (failed.symm.trans done)).2
  · have isWalkable := afterTidy.held_walkable (afterTidy.tables table place.isTable)
    exact absurd (of_decide_eq_true isWalkable).2 high

variable {entry : Entry} {tables : Store Entry}

section

variable {root virt : Nat} (mapped : Mapped regions usable roots kept memory root virt entry after)
include mapped

lemma Mapped.reach
    {root' : Nat} {path' : List Nat} (isRoot' : roots root') (within' : Within leafWidths path')
    (length : path'.length = 4) :
    after.reach root' path' =
      if root' = root ∧ path' = indices virt then entry.next else memory.reach root' path' := by
  obtain ⟨_, _, grown, middleTidy, place, rfl⟩ := mapped
  have value := leaf_reach middleTidy.separate place rfl (virt / 2 ^ 12 % 512) entry isRoot' within'
  rw [indices_split, ← grown.leaf root' path' isRoot' within' length]
  exact value

lemma Mapped.tidy (small : entry.huge = false)
    (fit : ∀ phys, entry.next = some phys → Pageable roots kept memory phys) :
    Tidy regions usable roots kept after := by
  obtain ⟨_, _, grown, middleTidy, place, rfl⟩ := mapped
  exact middleTidy.setLeaf place rfl small fun phys isPhys => grown.pageable phys (fit phys isPhys)

lemma Mapped.held (held : Held memory phys) : Held after phys := by
  obtain ⟨_, _, grown, _, _, rfl⟩ := mapped
  exact grown.held phys held

lemma Mapped.pageable
    (pageable : Pageable roots kept memory phys) : Pageable roots kept after phys := by
  obtain ⟨_, _, grown, middleTidy, place, rfl⟩ := mapped
  obtain ⟨masked, taken, notTable, notKept⟩ := grown.pageable phys pageable
  exact ⟨masked, taken, fun isTable =>
    notTable (leaf_isTable middleTidy.separate place rfl isTable),
    notKept⟩

lemma Mapped.budget :
    (freeFrames memory.frames.bitmap).card ≤ (freeFrames after.frames.bitmap).card + 3 := by
  obtain ⟨_, _, grown, _, _, rfl⟩ := mapped
  exact grown.budget

lemma Mapped.leavesOwned (owned : LeavesOwned roots memory)
    (own : ∀ phys, entry.next = some phys → Exclusive roots memory root (indices virt) phys) :
    LeavesOwned roots after := by
  obtain ⟨_, _, grown, middleTidy, place, rfl⟩ := mapped
  exact (owned.grown grown).setLeaf middleTidy place rfl fun phys isPhys =>
    (own phys isPhys).grown grown

end

lemma locate_spec {root : Nat} (nonempty : path ≠ [])
    (low : ∀ before index after, path = before ++ index :: after →
      ∀ table, descend Entry.next tables root before = some table → table < ramLimit) :
    (descend Entry.next tables root path = none ∧ locate tables root path = some none) ∨
      ∃ before last table, path = before ++ [last] ∧
        descend Entry.next tables root before = some table ∧
        (tables table last).present ∧ locate tables root path = some (some (table, last)) := by
  induction path generalizing root with
  | nil => exact absurd rfl nonempty
  | cons index rest ih =>
    have here : root < ramLimit := low [] index rest rfl root rfl
    by_cases present : (tables root index).present
    · cases rest with
      | nil =>
        right
        exact ⟨[], index, root, rfl, rfl, present, by simp [locate, here, present]⟩
      | cons second rest =>
        have down : ∀ path, descend Entry.next tables root (index :: path) =
            descend Entry.next tables (tables root index).addr path := by
          simp [descend, Entry.next, present]
        have located : locate tables root (index :: second :: rest) =
            locate tables (tables root index).addr (second :: rest) := by
          simp [locate, here, present]
        rw [down, located]
        have deeper : ∀ before later after, second :: rest = before ++ later :: after →
            ∀ table, descend Entry.next tables (tables root index).addr before = some table →
              table < ramLimit := by
          intro before later after split table reached
          refine low (index :: before) later after (by rw [split]; rfl) table ?_
          rw [down]
          exact reached
        rcases ih (cons_ne_nil _ _) deeper with missing |
          ⟨before, last, table, split, reached, isPresent, found⟩
        · exact .inl missing
        right
        refine ⟨index :: before, last, table, by rw [split]; rfl, ?_, isPresent, found⟩
        rw [down]
        exact reached
    left
    have absent : (tables root index).present = false := Bool.eq_false_iff.mpr present
    exact ⟨by simp [descend, Entry.next, absent], by simp [locate, here, absent]⟩

lemma walkEntry_concat {root last : Nat}
    (good : ∀ before index after, path ++ [last] = before ++ index :: after →
      ∀ table, descend Entry.next tables root before = some table → walkable table) :
    walkEntry tables root (path ++ [last]) =
      (descend Entry.next tables root path).bind fun table =>
        if (tables table last).present then some (tables table last) else none := by
  induction path generalizing root with
  | nil =>
    have here : walkable root := good [] last [] rfl root rfl
    simp [walkEntry, here, descend]
  | cons index rest ih =>
    have here : walkable root := good [] index (rest ++ [last]) rfl root rfl
    by_cases present : (tables root index).present
    · have down : ∀ path, descend Entry.next tables root (index :: path) =
          descend Entry.next tables (tables root index).addr path := by
        simp [descend, Entry.next, present]
      rw [down, ← ih]
      · cases rest <;> simp [walkEntry, here, present]
      intro before later after split table reached
      refine good (index :: before) later after (by rw [cons_append, split]; rfl) table ?_
      rw [down]
      exact reached
    · have absent : (tables root index).present = false := Bool.eq_false_iff.mpr present
      cases rest <;> simp [walkEntry, absent, descend, Entry.next]

structure Allotted (roots : Nat → Prop) (memory : Memory) : Prop where
  separate : Separate Entry.next memory.tables roots tableWidths
  tables : ∀ phys, IsTable roots memory phys → minAllocFrame ≤ phys / frameSize ∧
    phys / frameSize < maxFrames ∧ phys / frameSize ∉ freeFrames memory.frames.bitmap

section Page

variable {root virt : Nat}

section

variable (allotted : Allotted roots memory) (isRoot : roots root) (lower : lowerHalf virt)
include allotted isRoot lower

lemma Allotted.walkable {before after : List Nat} {table : Nat}
    (split : indices virt = before ++ index :: after)
    (reached : descend Entry.next memory.tables root before = some table) : walkable table := by
  have within : Within tableWidths before := upper (split ▸ indices_within lower)
  have bounds := allotted.tables table ⟨root, before, isRoot, within, reached⟩
  exact walkable_of_frame bounds.1 bounds.2.1

lemma Allotted.locate :
    (memory.reach root (indices virt) = none ∧
        locate memory.tables root (indices virt) = some none) ∨
      ∃ pt, Place roots memory root (tablePath virt) pt ∧
        (memory.tables pt (virt / 2 ^ 12 % 512)).present ∧
        memory.reach root (indices virt) = some (memory.tables pt (virt / 2 ^ 12 % 512)).addr ∧
        locate memory.tables root (indices virt) = some (some (pt, virt / 2 ^ 12 % 512)) := by
  have nonempty : indices virt ≠ [] := cons_ne_nil _ _
  have low : ∀ before index after, indices virt = before ++ index :: after →
      ∀ table, descend Entry.next memory.tables root before = some table → table < ramLimit := by
    intro before index after split table reached
    exact (of_decide_eq_true (allotted.walkable isRoot lower split reached)).2
  rcases locate_spec nonempty low with missing | ⟨before, _, pt, split, reached, present, found⟩
  · exact .inl missing
  right
  rw [indices_split] at split
  obtain ⟨rfl, same⟩ := append_inj' split rfl
  obtain rfl := (cons.inj same).1
  have within := indices_within lower
  refine ⟨pt, ⟨isRoot, upper within, reached⟩, present, ?_, found⟩
  simp only [Memory.reach, indices_split, descend_concat, reached, bind_some, Entry.next,
    present, if_true]

lemma Allotted.walkEntry : walkEntry memory.tables root (indices virt) =
    (memory.reach root (tablePath virt)).bind fun pt =>
      if (memory.tables pt (virt / 2 ^ 12 % 512)).present then
        some (memory.tables pt (virt / 2 ^ 12 % 512)) else none := by
  rw [indices_split]
  exact walkEntry_concat fun _ _ _ split _ reached => allotted.walkable isRoot lower split reached

end

section

variable (tidy : Tidy regions usable roots kept memory)
include tidy

lemma Tidy.allotted : Allotted roots memory :=
  ⟨tidy.separate, fun phys isTable => tidy.held_bounds (tidy.tables phys isTable)⟩

lemma Tidy.translateUserPage (isRoot : roots root) (lower : lowerHalf virt) :
    memory.translateUserPage root virt = memory.reach root (indices virt) := by
  rw [Memory.translateUserPage, tidy.allotted.walkEntry isRoot lower, Memory.reach, Memory.reach,
    indices_split, descend_concat, Option.map_bind]
  congr 1
  funext pt
  simp only [Function.comp_apply, Entry.next, apply_ite (Option.map Entry.addr), Option.map_some,
    Option.map_none]

lemma Tidy.unmapUserPage (isRoot : roots root) (lower : lowerHalf virt) :
    (memory.reach root (indices virt) = none ∧
        memory.unmapUserPage root virt = some (memory, .error "not present")) ∨
      ∃ phys after, memory.reach root (indices virt) = some phys ∧
        memory.unmapUserPage root virt = some (after, .ok phys) ∧
        Tidy regions usable roots kept after ∧ after.frames = memory.frames ∧
        (∀ root' path', roots root' → Within leafWidths path' → after.reach root' path' =
          if root' = root ∧ path' = indices virt then none else memory.reach root' path') := by
  have isWalkable : walkable root :=
    tidy.held_walkable (tidy.tables root ⟨root, [], isRoot, trivial, rfl⟩)
  simp only [Memory.unmapUserPage, isWalkable, if_true]
  rcases tidy.allotted.locate isRoot lower with ⟨missing, found⟩ | ⟨_, place, _, reached, found⟩
  · left
    exact ⟨missing, by rw [found]; rfl⟩
  right
  refine ⟨_, _, reached, by rw [found]; rfl, tidy.setLeaf place rfl rfl ?_, rfl, ?_⟩
  · intro phys impossible
    cases impossible
  · intro root' path' isRoot' within'
    exact leaf_reach tidy.separate place rfl (virt / 2 ^ 12 % 512) {} isRoot' within'

lemma Tidy.updateUserPage (isRoot : roots root) (lower : lowerHalf virt) (writable exec : Bool) :
    ∃ after result, memory.updateUserPage root virt writable exec = some (after, result) ∧
      (result = .ok () ↔ memory.reach root (indices virt) ≠ none) ∧
      Tidy regions usable roots kept after ∧ after.frames = memory.frames ∧
      ∀ root' path', roots root' → Within leafWidths path' →
        after.reach root' path' = memory.reach root' path' := by
  simp only [Memory.updateUserPage]
  rcases tidy.allotted.locate isRoot lower with ⟨missing, found⟩ | ⟨pt, place, present, reached, found⟩
  · rw [found]
    refine ⟨memory, _, rfl, ?_, tidy, rfl, fun _ _ _ _ => rfl⟩
    rw [missing]
    simp
  rw [found]
  have same : ∀ root' path', roots root' → Within leafWidths path' →
      descend Entry.next (memory.tables.write pt (virt / 2 ^ 12 % 512)
        { addr := (memory.tables pt (virt / 2 ^ 12 % 512)).addr, present := true, writable,
          user := true, noExecute := !exec }) root' path' = memory.reach root' path' := by
    intro root' path' isRoot' within'
    rw [leaf_reach tidy.separate place rfl (virt / 2 ^ 12 % 512) _ isRoot' within']
    split
    · rename_i here
      rw [here.1, here.2, ← indices_split, reached]
      rfl
    · rfl
  refine ⟨_, _, rfl, by simp [reached], tidy.retable same ?_, rfl, same⟩
  intro root' path' table index place' within'
  simp only [write]
  split
  · rfl
  · exact tidy.plain root' path' table index place'.isRoot place'.within place'.here within'

end

end Page

end OsCortex.Paging
