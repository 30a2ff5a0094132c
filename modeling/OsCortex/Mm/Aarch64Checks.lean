import OsCortex.Mm.Aarch64Core
import OsCortex.Mm.FrameAllocatorChecks

/-!
What `free_user_pml4` gives back on aarch64: the frames that were allocated for the address space,
as long as no block is split and every page is mapped once, with a frame of its own.
-/

namespace OsCortex.Aarch64

open List Option Memory Nat
open FrameAllocator (FrameBitmap FreeRun freeFrames frameSize maxFrames minAllocPhys minAllocFrame)
open Radix (Census Within descend)

def Memory.meetsBlock (memory : Memory) (root virt : Nat) : Bool :=
  (memory.tables root (idxL1 virt)).isBlock ||
    match (memory.tables root (idxL1 virt)).next with
    | some l2 => (memory.tables l2 (idxL2 virt)).isBlock
    | none => false

/-- A frame handed over goes to a page that is not mapped, on a way without blocks; any other frame
only replaces itself. -/
def Careful (root : Nat) (memory : Memory) : Label → Prop
  | .map virt _ _ _ true =>
    memory.meetsBlock root virt = false ∧ memory.translateUserPage root virt = none
  | .map virt phys _ _ false => memory.translateUserPage root virt = some phys
  | _ => True

instance (root : Nat) (memory : Memory) : ∀ label, Decidable (Careful root memory label)
  | .map _ _ _ _ true => inferInstanceAs (Decidable (_ ∧ _))
  | .map _ _ _ _ false => inferInstanceAs (Decidable (_ = _))
  | .allocFrame | .allocContiguousFrames _ | .freeFrame _ | .write .. | .update .. |
    .unmapRange .. => inferInstanceAs (Decidable True)

def Returns (root : Nat) (memory : Memory) : Prop := (memory.returned root).Perm memory.held

lemma taken_of_frame {bitmap : FrameBitmap} {frame : Nat} (lower : minAllocFrame ≤ frame)
    (upper : frame < maxFrames) (notFree : frame ∉ freeFrames bitmap) :
    Taken bitmap (frame * frameSize) := by
  have positive : 0 < frameSize := by decide
  refine ⟨mul_mod_left _ _, ?_, mul_lt_mul_of_pos_right upper positive, ?_⟩
  · simp only [minAllocFrame, minAllocPhys, frameSize] at lower ⊢
    omega
  rw [Nat.mul_div_cancel _ positive]
  by_contra isFree
  exact notFree (Bitmap.mem_members.2 ⟨upper, Bool.eq_true_of_not_eq_false isFree⟩)

section

variable {bitmap : FrameBitmap} {phys : Nat} (taken : Taken bitmap phys)
include taken

lemma Taken.bound : phys / frameSize < maxFrames :=
  Nat.div_lt_of_lt_mul (Nat.mul_comm .. ▸ taken.upper)

lemma Taken.notFree : phys / frameSize ∉ freeFrames bitmap := by
  intro isFree
  have set := (Bitmap.mem_members.1 isFree).2
  rw [taken.marked] at set
  cases set

lemma Taken.frame : phys / frameSize * frameSize = phys :=
  Nat.div_mul_cancel (Nat.dvd_of_mod_eq_zero taken.aligned)

end

lemma Taken.transfer {bitmap other : FrameBitmap} {phys : Nat} (taken : Taken bitmap phys)
    (notFree : phys / frameSize ∉ freeFrames other) : Taken other phys := by
  refine { taken with marked := ?_ }
  by_contra isFree
  exact notFree (Bitmap.mem_members.2 ⟨taken.bound, Bool.eq_true_of_not_eq_false isFree⟩)

lemma Taken.mask {bitmap : FrameBitmap} {phys : Nat} (taken : Taken bitmap phys) :
    addrMask phys = phys := by
  have aligned := taken.aligned
  have upper := taken.upper
  simp only [maxFrames, frameSize, reduceShiftLeft, reduceMul] at aligned upper
  simp only [addrMask]
  omega

lemma Taken.walkable {bitmap : FrameBitmap} {phys : Nat} (taken : Taken bitmap phys) :
    Paging.walkable phys := by
  have lower := taken.lower
  have upper := taken.upper
  simp only [maxFrames, minAllocPhys, frameSize, reduceShiftLeft, reduceMul] at lower upper
  exact decide_eq_true ⟨by omega, by simp only [Paging.ramLimit]; omega⟩

section Bitmap

variable {bitmap : FrameBitmap} {start count phys other : Nat}

lemma Taken.take (taken : Taken bitmap phys) : Taken (bitmap.takeRun start count) phys := by
  refine taken.transfer ?_
  rw [FrameAllocator.freeFrames_takeRun]
  exact fun isFree => taken.notFree (Finset.mem_sdiff.1 isFree).1

lemma taken_new (run : FreeRun bitmap start count) {frame : Nat}
    (inside : frame ∈ range' start count) :
    Taken (bitmap.takeRun start count) (frame * frameSize) := by
  obtain ⟨lower, upper, _⟩ := run frame inside
  refine taken_of_frame lower upper ?_
  rw [FrameAllocator.freeFrames_takeRun]
  exact fun isFree => (Finset.mem_sdiff.1 isFree).2 (mem_toFinset.2 inside)

lemma Taken.outside (taken : Taken bitmap phys) (run : FreeRun bitmap start count) :
    phys / frameSize ∉ range' start count := by
  intro inside
  obtain ⟨_, upper, isFree⟩ := run _ inside
  exact taken.notFree (Bitmap.mem_members.2 ⟨upper, isFree⟩)

lemma Taken.free (taken : Taken bitmap phys) (freed : Taken bitmap other)
    (different : phys ≠ other) : Taken (bitmap.free other) phys := by
  refine taken.transfer ?_
  rw [FrameAllocator.freeFrames_free bitmap freed.bound, Finset.mem_insert]
  rintro (same | isFree)
  · exact different (taken.frame.symm.trans (same ▸ freed.frame))
  · exact taken.notFree isFree

end Bitmap

def widths : List Nat := [512, 512, 512]

structure Kept (root : Nat) (memory : Memory) : Prop where
  census : Census Descriptor.next memory.tables root widths memory.held
  taken : ∀ phys, phys ∈ memory.held ∨ phys ∈ memory.loose → Taken memory.bitmap phys
  apart : ∀ phys ∈ memory.held, phys ∉ memory.loose
  once : memory.loose.Nodup
  paged : ∀ i1 i2 l3, i1 < 512 → i2 < 512 →
    descend Descriptor.next memory.tables root [i1, i2] = some l3 →
    ∀ index, (memory.tables l3 index).valid = true → (memory.tables l3 index).table = true

variable {desc : Descriptor}

lemma next_none_of_invalid (invalid : desc.valid = false) : desc.next = none := by
  simp [Descriptor.next, invalid]

lemma next_eq_some {child : Nat} :
    desc.next = some child ↔ desc.valid ∧ desc.table ∧ desc.addr = child := by
  simp [Descriptor.next, and_assoc]

variable {tables : Radix.Store Descriptor} {index virt l3 : Nat}

section Kept

variable {root : Nat} {memory : Memory} {path : List Nat}

lemma idx_lt (virt : Nat) : idxL1 virt < 512 ∧ idxL2 virt < 512 ∧ idxL3 virt < 512 :=
  ⟨mod_lt _ (by decide), mod_lt _ (by decide), mod_lt _ (by decide)⟩

lemma within_L3 (virt : Nat) : Within widths ([idxL1 virt, idxL2 virt] ++ [idxL3 virt]) :=
  ⟨(idx_lt virt).1, (idx_lt virt).2.1, (idx_lt virt).2.2, trivial⟩

structure Extended (root : Nat) (path : List Nat) (child : Nat) (memory after : Memory) :
    Prop where
  kept : Kept root after
  reached : descend Descriptor.next after.tables root path = some child
  zeroed : ∀ index, after.tables child index = {}
  loose : after.loose = memory.loose

def Memory.withTable (memory : Memory) (start : Nat) : Memory :=
  { memory with
    bitmap := memory.bitmap.takeRun start 1
    tables := memory.tables.fill (start * frameSize) fun _ => {}
    held := start * frameSize :: memory.held }

lemma allocTable_cases (memory : Memory) :
    memory.allocTable = (memory, none) ∨
      ∃ start, FreeRun memory.bitmap start 1 ∧
        memory.allocTable = (memory.withTable start, some (start * frameSize)) := by
  rcases FrameAllocator.alloc_spec memory.bitmap with full | ⟨start, run, found⟩
  · exact .inl (by simp [allocTable, full])
  · exact .inr ⟨start, run, by simp [allocTable, found, withTable]⟩

lemma Taken.ne_new {bitmap : FrameBitmap} {start phys : Nat} (taken : Taken bitmap phys)
    (run : FreeRun bitmap start 1) : phys ≠ start * frameSize := by
  rintro rfl
  refine taken.outside run ?_
  rw [Nat.mul_div_cancel _ (by decide)]
  simp

section

variable (kept : Kept root memory)
include kept

lemma Kept.userFrames_eq :
    userFrames memory.tables root = Radix.collect Descriptor.next memory.tables widths root := by
  have level : ∀ (below : Descriptor → List Nat) (rest : List Nat) (desc : Descriptor),
      (∀ index < 512, desc.next = some desc.addr →
        below (memory.tables desc.addr index) = match (memory.tables desc.addr index).next with
          | some child => Radix.collect Descriptor.next memory.tables rest child
          | none => []) →
      tableFrames memory.tables below desc = match desc.next with
        | some child => Radix.collect Descriptor.next memory.tables (512 :: rest) child
        | none => [] := by
    intro below rest desc agree
    by_cases isTable : (desc.valid && desc.table)
    · have linked : desc.next = some desc.addr := by simp [Descriptor.next, isTable]
      simp only [tableFrames, isTable, if_true, linked, Radix.collect]
      exact congrArg (· ++ [desc.addr]) (flatMap_congr fun index member =>
        agree index (mem_range.1 member) linked)
    · simp [tableFrames, Descriptor.next, isTable]
  refine congrArg (· ++ [root]) (flatMap_congr fun i1 member1 => ?_)
  refine level _ _ _ fun i2 bound2 linked1 => level _ _ _ fun i3 _ linked2 => ?_
  have reached : descend Descriptor.next memory.tables root [i1, i2] =
      some (memory.tables (memory.tables root i1).addr i2).addr := by
    simp [descend, linked1, linked2]
  have paged := kept.paged i1 i2 _ (mem_range.1 member1) bound2 reached i3
  cases valid : (memory.tables (memory.tables (memory.tables root i1).addr i2).addr i3).valid with
  | false => simp [pageFrames, Descriptor.next, valid]
  | true => simp [pageFrames, Descriptor.next, valid, paged valid, Radix.collect]

lemma Kept.root_mem : root ∈ memory.held :=
  (kept.census.listed root).2 ⟨[], trivial, rfl⟩

lemma Kept.returns : Returns root memory := by
  have walkable := (kept.taken root (.inl kept.root_mem)).walkable
  simp only [Returns, returned, walkable, if_true, kept.userFrames_eq]
  exact kept.census.perm

lemma Kept.elsewhere (agree : ∀ table ∈ memory.held, tables table = memory.tables table) :
    Kept root { memory with tables } := by
  refine ⟨kept.census.congr agree, kept.taken, kept.apart, kept.once, ?_⟩
  intro i1 i2 l3 bound1 bound2 reached
  have within : Within widths [i1, i2] := ⟨bound1, bound2, trivial⟩
  have before := (kept.census.descend_congr agree within).symm.trans reached
  show ∀ index, (tables l3 index).valid → (tables l3 index).table
  rw [agree l3 (kept.census.mem within before)]
  exact kept.paged i1 i2 l3 bound1 bound2 before

lemma Kept.link_table {table start : Nat}
    (within : Within widths (path ++ [index]))
    (here : descend Descriptor.next memory.tables root path = some table)
    (empty : (memory.tables table index).valid = false) (run : FreeRun memory.bitmap start 1) :
    let child := start * frameSize
    Extended root (path ++ [index]) child memory
      { memory.withTable start with
        tables := (memory.withTable start).tables.write table index (tableDesc child) } := by
  intro child
  have fresh : Taken (memory.bitmap.takeRun start 1) child := taken_new run (by simp)
  have other : ∀ phys, phys ∈ memory.held ∨ phys ∈ memory.loose → phys ≠ child :=
    fun phys member => (kept.taken phys member).ne_new run
  have new : child ∉ memory.held := fun member => other child (.inl member) rfl
  have inTree : table ∈ memory.held := kept.census.mem (Within.left within) here
  have different : table ≠ child := other table (.inl inTree)
  have agree : ∀ phys ∈ memory.held, (memory.withTable start).tables phys = memory.tables phys := by
    intro phys member
    simp only [withTable, Radix.Store.fill]
    rw [if_neg (other phys (.inl member))]
  have zeroed : ∀ slot, (memory.withTable start).tables child slot = {} := by
    intro slot
    simp only [withTable, Radix.Store.fill]
    rw [if_pos rfl]
  have filled := kept.census.congr agree
  have here' : descend Descriptor.next (memory.withTable start).tables root path = some table := by
    rw [kept.census.descend_congr agree (Within.left within), here]
  have empty' : ((memory.withTable start).tables table index).next = none := by
    rw [agree table inTree]
    exact next_none_of_invalid empty
  have linked : (tableDesc child).next = some child := by
    rw [next_eq_some]
    exact ⟨rfl, rfl, fresh.mask⟩
  have leads : ∀ slot, ((memory.withTable start).tables child slot).next = none := fun slot =>
    next_none_of_invalid (by rw [zeroed])
  have reach := fun {path'} (within' : Within widths path') =>
    filled.descend_link within here' empty' linked new (.inr leads) within'
  refine ⟨⟨filled.link within here' empty' linked new (.inr leads), ?_, ?_, kept.once, ?_⟩,
    ?_, ?_, rfl⟩
  · rintro phys (member | member)
    · rcases mem_cons.1 member with rfl | old
      · exact fresh
      · exact (kept.taken phys (.inl old)).take
    · exact (kept.taken phys (.inr member)).take
  · intro phys member isLoose
    rcases mem_cons.1 member with rfl | old
    · exact other _ (.inr isLoose) rfl
    · exact kept.apart phys old isLoose
  · intro i1 i2 l3 bound1 bound2 reached slot
    have within' : Within widths [i1, i2] := ⟨bound1, bound2, trivial⟩
    have value := (reach within').symm.trans reached
    simp only [Radix.Store.write]
    split
    · exact fun _ => rfl
    split at value
    · cases value
      rw [zeroed]
      exact fun impossible => absurd impossible Bool.false_ne_true
    have before := (kept.census.descend_congr agree within').symm.trans value
    rw [agree l3 (kept.census.mem within' before)]
    exact kept.paged i1 i2 l3 bound1 bound2 before slot
  · rw [reach within, if_pos rfl]
  intro slot
  simp only [Radix.Store.write]
  rw [if_neg fun both => different both.1.symm, zeroed]

lemma Kept.ensureTable {table : Nat}
    (shift : Nat) (within : Within widths (path ++ [index]))
    (here : descend Descriptor.next memory.tables root path = some table)
    (open_ : (memory.tables table index).isBlock = false) :
    (∃ child, memory.ensureTable table index shift = (memory, some child) ∧
        (memory.tables table index).next = some child) ∨
      memory.ensureTable table index shift = (memory, none) ∨
      ∃ child after, memory.ensureTable table index shift = (after, some child) ∧
        (memory.tables table index).valid = false ∧
        Extended root (path ++ [index]) child memory after := by
  cases valid : (memory.tables table index).valid with
  | true =>
    have isTable : (memory.tables table index).table := by
      simpa [Descriptor.isBlock, valid] using open_
    refine .inl ⟨(memory.tables table index).addr, ?_, next_eq_some.2 ⟨valid, isTable, rfl⟩⟩
    simp [Memory.ensureTable, valid, isTable]
  | false =>
    refine .inr ?_
    simp only [Memory.ensureTable, valid, Bool.false_eq_true, if_false]
    rcases allocTable_cases memory with full | ⟨_, run, found⟩
    · exact .inl (by rw [full])
    · refine .inr ⟨_, _, by rw [found], trivial, kept.link_table within here valid run⟩

end

lemma idx_page (virt : Nat) : idxL1 (virt / 4096 * 4096) = idxL1 virt ∧
    idxL2 (virt / 4096 * 4096) = idxL2 virt ∧ idxL3 (virt / 4096 * 4096) = idxL3 virt := by
  simp only [idxL1, idxL2, idxL3]
  omega

lemma walk_some (found : walk tables root virt = some (l3, index)) :
    ∃ l2, (tables root (idxL1 virt)).next = some l2 ∧ (tables l2 (idxL2 virt)).next = some l3 ∧
      index = idxL3 virt ∧ (tables l3 index).valid := by
  simp only [walk] at found
  split at found
  · cases found
  rename_i l2 linked1
  split at found
  · cases found
  rename_i linked2
  split at found <;> cases found
  rename_i valid
  exact ⟨l2, linked1, linked2, rfl, valid⟩

lemma walk_none {l2 : Nat}
    (missing : walk tables root virt = none) (linked1 : (tables root (idxL1 virt)).next = some l2)
    (linked2 : (tables l2 (idxL2 virt)).next = some l3) :
    (tables l3 (idxL3 virt)).valid = false := by
  simp only [walk, linked1, linked2] at missing
  by_contra valid
  simp [valid] at missing

def Slot (root : Nat) (memory : Memory) (l3 index : Nat) : Prop :=
  ∃ i1 i2, Within widths ([i1, i2] ++ [index]) ∧
    descend Descriptor.next memory.tables root [i1, i2] = some l3

lemma descend_two {i1 i2 l2 : Nat}
    (linked1 : (tables root i1).next = some l2) (linked2 : (tables l2 i2).next = some l3) :
    descend Descriptor.next tables root [i1, i2] = some l3 := by
  simp [descend, linked1, linked2]

section

variable (kept : Kept root memory)
include kept

lemma Kept.paged_write (plain : desc.valid → desc.table)
    (same : ∀ i1 i2, Within widths [i1, i2] →
      descend Descriptor.next (memory.tables.write l3 index desc) root [i1, i2] =
        descend Descriptor.next memory.tables root [i1, i2])
    (i1 i2 table : Nat) (bound1 : i1 < 512) (bound2 : i2 < 512)
    (reached : descend Descriptor.next (memory.tables.write l3 index desc) root [i1, i2] =
      some table) (slot : Nat)
    (valid : (memory.tables.write l3 index desc table slot).valid) :
    (memory.tables.write l3 index desc table slot).table := by
  simp only [Radix.Store.write] at valid ⊢
  split at valid
  · rename_i written
    rw [if_pos written]
    exact plain valid
  rename_i other
  rw [if_neg other]
  rw [same i1 i2 ⟨bound1, bound2, trivial⟩] at reached
  exact kept.paged i1 i2 table bound1 bound2 reached slot valid

lemma Kept.link_page {phys : Nat} {writable exec : Bool}
    (slot : Slot root memory l3 index) (empty : (memory.tables l3 index).valid = false)
    (isLoose : phys ∈ memory.loose) :
    let tables := memory.tables.write l3 index (pageDesc phys writable exec)
    Kept root ({ memory with tables }.handOver phys) := by
  obtain ⟨_, _, within, here⟩ := slot
  have taken := kept.taken phys (.inr isLoose)
  have new : phys ∉ memory.held := fun member => kept.apart phys member isLoose
  have linked : (pageDesc phys writable exec).next = some phys :=
    next_eq_some.2 ⟨rfl, rfl, taken.mask⟩
  have unlinked := next_none_of_invalid empty
  refine ⟨kept.census.link within here unlinked linked new (.inl rfl), ?_, ?_,
    kept.once.erase phys, ?_⟩
  · rintro other (member | member)
    · rcases mem_cons.1 member with rfl | old
      · exact taken
      · exact kept.taken other (.inl old)
    · exact kept.taken other (.inr (mem_of_mem_erase member))
  · intro other member stillLoose
    rcases mem_cons.1 member with rfl | old
    · exact (kept.once.mem_erase_iff.1 stillLoose).1 rfl
    · exact kept.apart other old (mem_of_mem_erase stillLoose)
  refine kept.paged_write (fun _ => rfl) fun j1 j2 within' => ?_
  rw [kept.census.descend_link within here unlinked linked new (.inl rfl) within', if_neg]
  simp

lemma Kept.rewrite_page (plain : desc.valid → desc.table)
    (same : desc.next = (memory.tables l3 index).next) :
    Kept root { memory with tables := memory.tables.write l3 index desc } := by
  refine ⟨kept.census.transport fun path _ => Radix.descend_write_same same root path, kept.taken,
    kept.apart, kept.once, ?_⟩
  exact kept.paged_write plain fun i1 i2 _ => Radix.descend_write_same same root [i1, i2]

lemma Kept.unlink_page {phys : Nat}
    (slot : Slot root memory l3 index) (leads : (memory.tables l3 index).next = some phys) :
    Kept root ({ memory with tables := memory.tables.write l3 index {} }.giveBack phys) := by
  obtain ⟨_, _, within, here⟩ := slot
  have inTree : phys ∈ memory.held := kept.census.mem within (by
    rw [Radix.descend_concat, here]
    exact leads)
  have taken := kept.taken phys (.inl inTree)
  refine ⟨kept.census.unlink within here rfl leads rfl, ?_, ?_, kept.once, ?_⟩
  · rintro other (member | member)
    · obtain ⟨different, old⟩ := kept.census.once.mem_erase_iff.1 member
      exact (kept.taken other (.inl old)).free taken different
    refine (kept.taken other (.inr member)).free taken ?_
    rintro rfl
    exact kept.apart other inTree member
  · exact fun other member => kept.apart other (mem_of_mem_erase member)
  refine kept.paged_write (fun impossible => absurd impossible Bool.false_ne_true)
    fun j1 j2 within' => ?_
  rw [kept.census.descend_leaf within here rfl _ within', if_neg (by simp)]

lemma Kept.mapOwned {phys : Nat} (writable exec : Bool)
    (clear : memory.meetsBlock root virt = false)
    (unmapped : memory.translateUserPage root virt = none) (isLoose : phys ∈ memory.loose) :
    match memory.mapPageIn root virt phys writable exec with
    | (after, .ok ()) => Kept root (after.handOver phys)
    | (after, .error _) => Kept root after := by
  have missing : walk memory.tables root virt = none := by
    obtain ⟨same1, same2, same3⟩ := idx_page virt
    simpa [translateUserPage, walk, same1, same2, same3] using unmapped
  simp only [meetsBlock, Bool.or_eq_false_iff] at clear
  have within1 : Within widths ([] ++ [idxL1 virt]) := ⟨(idx_lt virt).1, trivial⟩
  have within2 : Within widths ([idxL1 virt] ++ [idxL2 virt]) :=
    ⟨(idx_lt virt).1, (idx_lt virt).2.1, trivial⟩
  simp only [mapPageIn]
  rcases kept.ensureTable 21 within1 rfl clear.1 with
    ⟨l2, found1, linked1⟩ | full | ⟨l2, after1, found1, _, grown1⟩
  · have here : descend Descriptor.next memory.tables root [idxL1 virt] = some l2 := by
      simp [descend, linked1]
    have open2 : (memory.tables l2 (idxL2 virt)).isBlock = false := by
      simpa [linked1] using clear.2
    simp only [found1]
    rcases kept.ensureTable 12 within2 here open2 with
      ⟨l3, found2, linked2⟩ | full | ⟨l3, after2, found2, _, grown2⟩
    · simp only [found2]
      exact kept.link_page ⟨_, _, within_L3 virt, descend_two linked1 linked2⟩
        (walk_none missing linked1 linked2) isLoose
    · simp only [full]
      exact kept
    simp only [found2]
    exact grown2.kept.link_page ⟨_, _, within_L3 virt, grown2.reached⟩ (by rw [grown2.zeroed])
      (grown2.loose ▸ isLoose)
  · simp only [full]
    exact kept
  have open2 : (after1.tables l2 (idxL2 virt)).isBlock = false := by
    rw [grown1.zeroed]
    rfl
  simp only [found1]
  rcases grown1.kept.ensureTable 12 within2 grown1.reached open2 with
    ⟨l3, _, linked2⟩ | full | ⟨l3, after2, found2, _, grown2⟩
  · rw [grown1.zeroed] at linked2
    cases linked2
  · simp only [full]
    exact grown1.kept
  simp only [found2]
  exact grown2.kept.link_page ⟨_, _, within_L3 virt, grown2.reached⟩ (by rw [grown2.zeroed])
    (by rw [grown2.loose, grown1.loose]; exact isLoose)

lemma Kept.walked (found : walk memory.tables root virt = some (l3, index)) :
    Slot root memory l3 index ∧ (memory.tables l3 index).next = some (memory.tables l3 index).addr ∧
      (memory.tables l3 index).addr ∈ memory.held := by
  obtain ⟨_, linked1, linked2, rfl, valid⟩ := walk_some found
  have within := within_L3 virt
  have here := descend_two linked1 linked2
  have paged := kept.paged _ _ l3 (idx_lt virt).1 (idx_lt virt).2.1 here _ valid
  have leads := next_eq_some.2 ⟨valid, paged, rfl⟩
  refine ⟨⟨_, _, within, here⟩, leads, kept.census.mem within ?_⟩
  rw [Radix.descend_concat, here]
  exact leads

lemma Kept.remap {phys : Nat} (writable exec : Bool)
    (mapped : memory.translateUserPage root virt = some phys) :
    Kept root (memory.mapPageIn root virt phys writable exec).1 := by
  obtain ⟨⟨l3, index⟩, found, rfl⟩ := map_eq_some_iff.1 mapped
  obtain ⟨_, leads, inTree⟩ := kept.walked found
  obtain ⟨_, linked1, linked2, isIndex, _⟩ := walk_some found
  obtain ⟨same1, same2, same3⟩ := idx_page virt
  rw [same1] at linked1
  rw [same2] at linked2
  rw [same3] at isIndex
  have taken := kept.taken _ (.inl inTree)
  have masked : addrMask ((memory.tables l3 index).addr + virt % 4096) =
      (memory.tables l3 index).addr := by
    have aligned := taken.aligned
    have upper := taken.upper
    simp only [maxFrames, frameSize, reduceShiftLeft, reduceMul] at aligned upper
    simp only [addrMask]
    omega
  have ensured : ∀ {table slot child : Nat} (shift : Nat),
      (memory.tables table slot).next = some child →
      memory.ensureTable table slot shift = (memory, some child) := by
    intro table slot child shift linked
    obtain ⟨valid, isTable, isChild⟩ := next_eq_some.1 linked
    simp [Memory.ensureTable, valid, isTable, isChild]
  simp only [mapPageIn, ensured 21 linked1, ensured 12 linked2, ← isIndex]
  refine kept.rewrite_page (fun _ => rfl) ?_
  rw [leads]
  exact next_eq_some.2 ⟨rfl, rfl, masked⟩

lemma Kept.update (virt : Nat) (writable exec : Bool) :
    Kept root (memory.updateUserPageFlags root virt writable exec).1 := by
  simp only [updateUserPageFlags]
  split
  · exact kept
  rename_i found
  obtain ⟨_, leads, _⟩ := kept.walked found
  obtain ⟨_, isTable, _⟩ := next_eq_some.1 leads
  exact kept.rewrite_page (fun _ => isTable) rfl

lemma Kept.unmapPages (pages : List Nat) : Kept root (memory.unmapPages root pages) := by
  have walkable := (kept.taken root (.inl kept.root_mem)).walkable
  induction pages generalizing memory with
  | nil => exact kept
  | cons virt rest ih =>
    simp only [unmapPages, unmapUserPage, walkable, if_true]
    cases found : walk memory.tables root (virt / 4096 * 4096) with
    | none => exact ih kept
    | some place =>
      obtain ⟨slot, leads, _⟩ := kept.walked found
      exact ih (kept.unlink_page slot leads)

lemma Kept.unmapUserRange (startVa size : Nat) :
    Kept root (memory.unmapUserRange root startVa size) := by
  simp only [Memory.unmapUserRange]
  split
  · exact kept.unmapPages _
  · exact kept

lemma Kept.allocFrames {count : Nat} {result : FrameBitmap × Option Nat}
    (answered : result = (memory.bitmap, none) ∨ ∃ start, FreeRun memory.bitmap start count ∧
      result = (memory.bitmap.takeRun start count, some (start * frameSize))) :
    Kept root (memory.allocFrames count result) := by
  rcases answered with rfl | ⟨start, run, rfl⟩
  · exact kept
  simp only [Memory.allocFrames, Nat.mul_div_cancel start (by decide : 0 < frameSize)]
  have fresh : ∀ phys ∈ (range' start count).map (· * frameSize), ¬ Taken memory.bitmap phys := by
    intro phys member taken
    obtain ⟨frame, inside, rfl⟩ := mem_map.1 member
    refine taken.outside run ?_
    rw [Nat.mul_div_cancel _ (by decide)]
    exact inside
  refine ⟨kept.census, ?_, ?_, nodup_append'.2 ⟨?_, kept.once, ?_⟩, kept.paged⟩
  · rintro phys (member | member)
    · exact (kept.taken phys (.inl member)).take
    rcases mem_append.1 member with new | old
    · obtain ⟨frame, inside, rfl⟩ := mem_map.1 new
      exact taken_new run inside
    · exact (kept.taken phys (.inr old)).take
  · intro phys member isLoose
    rcases mem_append.1 isLoose with new | old
    · exact fresh phys new (kept.taken phys (.inl member))
    · exact kept.apart phys member old
  · refine Nodup.map ?_ nodup_range'
    exact fun left right same => Nat.mul_right_cancel (by decide) same
  · exact fun phys new old => fresh phys new (kept.taken phys (.inr old))

lemma Kept.freeLoose {phys : Nat} (isLoose : phys ∈ memory.loose) : Kept root
      { memory with bitmap := memory.bitmap.free phys, loose := memory.loose.erase phys } := by
  have taken := kept.taken phys (.inr isLoose)
  refine ⟨kept.census, ?_, ?_, kept.once.erase phys, kept.paged⟩
  · rintro other (member | member)
    · refine (kept.taken other (.inl member)).free taken ?_
      rintro rfl
      exact kept.apart other member isLoose
    · obtain ⟨different, old⟩ := kept.once.mem_erase_iff.1 member
      exact (kept.taken other (.inr old)).free taken different
  · exact fun other member stillLoose => kept.apart other member (mem_of_mem_erase stillLoose)

lemma Kept.after_step {label : Label} {after : Memory}
    (careful : Careful root memory label) (taken : step root memory label = some after) :
    Kept root after := by
  cases label with try cases taken
  | allocFrame => exact kept.allocFrames (FrameAllocator.alloc_spec memory.bitmap)
  | allocContiguousFrames count =>
    exact kept.allocFrames (FrameAllocator.allocContiguous_spec memory.bitmap count)
  | freeFrame phys =>
    obtain ⟨isLoose, rfl⟩ := of_guard taken
    exact kept.freeLoose isLoose
  | write frame index desc =>
    simp only [step] at taken
    split at taken
    · cases taken
    rename_i outside
    cases taken
    refine kept.elsewhere fun table member => funext fun slot => ?_
    simp only [Radix.Store.write]
    rw [if_neg]
    rintro ⟨rfl, _⟩
    exact outside member
  | map virt phys writable exec owned =>
    cases owned with
    | false =>
      cases taken
      exact kept.remap writable exec careful
    | true =>
      simp only [step] at taken
      split at taken
      · rename_i isLoose
        have mapped := kept.mapOwned writable exec careful.1 careful.2 isLoose
        split at taken
        · rename_i ended
          cases taken
          rwa [ended] at mapped
        rename_i ended
        cases taken
        rwa [ended] at mapped
      · cases taken
  | update virt writable exec => exact kept.update virt writable exec
  | unmapRange startVa size => exact kept.unmapUserRange startVa size

end

end Kept

lemma foldl_mapDevice1gib_table (devices : List Nat) {l1 : Nat → Descriptor}
    (blocks : ∀ g, (l1 g).table = false) (g : Nat) :
    (devices.foldl mapDevice1gib l1 g).table = false := by
  induction devices generalizing l1 with
  | nil => exact blocks g
  | cons device rest ih =>
    refine ih fun g => ?_
    simp only [mapDevice1gib]
    split
    · exact blocks g
    dsimp only
    split
    · rfl
    · exact blocks g

lemma kernelTtbr0_table (ramGibs : Nat) (devices : List Nat) (g : Nat) :
    (kernelTtbr0 ramGibs devices g).table = false := by
  refine foldl_mapDevice1gib_table devices (fun g => ?_) g
  simp only [fillIdentity]
  split
  · rfl
  split
  · rfl
  · rfl

lemma kept_start {kernelL1 : Nat → Descriptor} (blocks : ∀ g, (kernelL1 g).table = false)
    {root : Nat} {before memory : Memory} (fine : Before before)
    (built : before.allocUserPml4 kernelL1 = (memory, some root)) : Kept root memory := by
  rcases allocTable_cases before with full | ⟨start, run, found⟩
  · simp [allocUserPml4, full] at built
  simp only [allocUserPml4, found, Prod.mk.injEq, some.injEq] at built
  obtain ⟨rfl, rfl⟩ := built
  have unlinked : ∀ index, (((before.withTable start).tables.fill (start * frameSize) kernelL1)
      (start * frameSize) index).next = none := by
    simp [Radix.Store.fill, Descriptor.next, blocks]
  have held : (before.withTable start).held = [start * frameSize] := by
    simp [withTable, fine.empty]
  refine ⟨held ▸ Radix.census_root unlinked, ?_, ?_, fine.once, ?_⟩
  · rintro phys (member | member)
    · rw [show _ = _ from held, mem_singleton] at member
      subst member
      exact taken_new run (by simp)
    · exact (fine.taken phys member).take
  · intro phys member isLoose
    rw [show _ = _ from held, mem_singleton] at member
    exact (fine.taken phys isLoose).ne_new run member
  · intro i1 i2 l3 _ _ reached
    simp [descend, unlinked] at reached

theorem teardown_exact (ramGibs : Nat) (devices : List Nat) (root : Nat) {memory : Memory}
    (reached : (addressSpace (kernelTtbr0 ramGibs devices) root).Reachable (Careful root) memory) :
    Returns root memory := by
  refine Kept.returns (reached.invariant ?_ ?_)
  · rintro _ ⟨_, fine, built⟩
    exact kept_start (kernelTtbr0_table ramGibs devices) fine built
  · exact fun _ _ _ kept careful taken => kept.after_step careful taken

def emptyMemory : Memory :=
  { tables := fun _ _ => {}
    bitmap := { bits := fun _ => BitVec.allOnes 64, total := 0, used := 0 }
    held := []
    loose := [] }

lemma emptyMemory_before : Before emptyMemory := ⟨rfl, nofun, nodup_nil⟩

def firstRoot : Nat := 0x100000

def firstSpace : Memory := (emptyMemory.allocUserPml4 (kernelTtbr0 2 [])).1

lemma firstSpace_start : (addressSpace (kernelTtbr0 2 []) firstRoot).start firstSpace :=
  ⟨emptyMemory, emptyMemory_before, Prod.ext rfl (by decide +kernel)⟩

theorem teardown_exact_stack : ∃ memory,
    (addressSpace (kernelTtbr0 2 []) firstRoot).Reachable (Careful firstRoot) memory ∧
      memory.held = [0x101000, 0x103000, 0x102000, 0x100000] ∧ Returns firstRoot memory := by
  let labels : List Label := [.allocFrame, .map 0x7ffffff000 0x101000 true false true,
    .update 0x7ffffff000 false false]
  have ran : (((addressSpace (kernelTtbr0 2 []) firstRoot).run firstSpace labels).map held) =
      some [0x101000, 0x103000, 0x102000, 0x100000] := by
    decide +kernel
  obtain ⟨memory, ran, held⟩ := map_eq_some_iff.1 ran
  have reached := Runs.Machine.Obeys.reachable (.start firstSpace_start)
    (by decide +kernel : (addressSpace (kernelTtbr0 2 []) firstRoot).Obeys (Careful firstRoot)
      firstSpace labels) ran
  exact ⟨memory, reached, held, teardown_exact 2 [] firstRoot reached⟩

theorem split_block_freed : ∃ memory,
    (addressSpace (kernelTtbr0 2 []) firstRoot).Reachable Runs.anyStep memory ∧
      ¬ Returns firstRoot memory := by
  let labels : List Label := [.allocFrame, .map 0x400000 0x101000 true true true]
  let view (memory : Memory) := (decide (0x401000 ∈ memory.returned firstRoot), memory.held)
  have ran : ((addressSpace (kernelTtbr0 2 []) firstRoot).run firstSpace labels).map view =
      some (true, [0x101000, 0x103000, 0x102000, 0x100000]) := by
    decide +kernel
  obtain ⟨memory, reached, shows⟩ := Runs.Machine.run_view view firstSpace_start ran
  obtain ⟨returned, held⟩ := Prod.mk.inj shows
  refine ⟨memory, reached, fun exact => ?_⟩
  have member := exact.mem_iff.1 (of_decide_eq_true returned)
  rw [held] at member
  exact absurd member (by decide)

end OsCortex.Aarch64
