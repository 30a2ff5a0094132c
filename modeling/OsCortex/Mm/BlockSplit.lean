import OsCortex.Mm.Aarch64Checks

/-! Splitting identity-mapped blocks on aarch64, seen from the hardware. -/

namespace OsCortex.Aarch64

open FrameAllocator (frameSize)

def output (desc : Descriptor) (shift virt : Nat) : Nat × Descriptor :=
  (desc.addr / 2 ^ shift * 2 ^ shift + virt % 2 ^ shift, { desc with addr := 0, table := false })

/-! The walk of the MMU. -/

variable (tables : Radix.Store Descriptor)

def mmuL3 (l3 virt : Nat) : Option (Nat × Descriptor) :=
  let desc := tables l3 (idxL3 virt)
  if desc.valid && desc.table then some (output desc 12 virt) else none

def mmuL2 (l2 virt : Nat) : Option (Nat × Descriptor) :=
  let desc := tables l2 (idxL2 virt)
  if desc.isBlock then some (output desc 21 virt)
  else desc.next.bind fun l3 => mmuL3 tables l3 virt

def mmu (root virt : Nat) : Option (Nat × Descriptor) :=
  let desc := tables root (idxL1 virt)
  if desc.isBlock then some (output desc 30 virt)
  else desc.next.bind fun l2 => mmuL2 tables l2 virt

/-- An output address of the architecture's 48 bits. -/
def Aligned (shift : Nat) (desc : Descriptor) : Prop :=
  desc.addr % 2 ^ shift = 0 ∧ desc.addr < 2 ^ 48

def InBlock (memory : Memory) (root virt virt' : Nat) : Prop :=
  virt' / 2 ^ 30 = virt / 2 ^ 30 ∧
    ((memory.tables root (idxL1 virt)).isBlock ∨ virt' / 2 ^ 21 = virt / 2 ^ 21)

variable {memory after : Memory} {root table index shift child l2 l3 virt virt' phys : Nat}
  {desc : Descriptor} {writable exec : Bool}

lemma isBlock_iff : desc.isBlock ↔ desc.valid ∧ desc.table = false := by
  simp [Descriptor.isBlock]

lemma output_splitBlock (valid : desc.valid) (aligned : Aligned 30 desc) :
    output (splitBlock desc 21 (idxL2 virt)) 21 virt = output desc 30 virt ∧
      Aligned 21 (splitBlock desc 21 (idxL2 virt)) := by
  obtain ⟨_, _⟩ := aligned
  refine ⟨Prod.ext ?_ (by simp [output, splitBlock, valid]), ?_⟩
  all_goals
    simp only [output, Aligned, splitBlock, addrMask, idxL2]
    omega

lemma output_splitPage (valid : desc.valid) (aligned : Aligned 21 desc) :
    output (splitBlock desc 12 (idxL3 virt)) 12 virt = output desc 21 virt := by
  obtain ⟨_, _⟩ := aligned
  refine Prod.ext ?_ (by simp [output, splitBlock, valid])
  simp only [output, splitBlock, addrMask, idxL3]
  omega

lemma ensureTable_split (block : (memory.tables table index).isBlock)
    (done : memory.ensureTable table index shift = (after, some child)) :
    Taken after.bitmap child ∧
      (∀ phys, Taken memory.bitmap phys → Taken after.bitmap phys ∧ phys ≠ child) ∧
      after.tables = (memory.tables.fill child
        (splitBlock (memory.tables table index) shift)).write table index (tableDesc child) := by
  obtain ⟨valid, notTable⟩ := isBlock_iff.1 block
  simp only [Memory.ensureTable, valid, notTable, if_true, Bool.false_eq_true, if_false] at done
  rcases allocTable_cases memory with full | ⟨start, run, found⟩
  · simp [full] at done
  simp only [found] at done
  cases done
  refine ⟨taken_new run (by simp), fun phys taken => ⟨taken.take, taken.ne_new run⟩, ?_⟩
  funext other slot
  by_cases new : other = start * frameSize
  · simp [Radix.Store.write, Radix.Store.fill, new]
  · simp [Memory.withTable, Radix.Store.write, Radix.Store.fill, new]

section

variable (block : (memory.tables l2 (idxL2 virt)).isBlock)
  (done : memory.ensureTable l2 (idxL2 virt) 12 = (after, some l3))
include block done

lemma splitPage_elsewhere (held : Taken memory.bitmap table)
    (other : table = l2 → index ≠ idxL2 virt) :
    after.tables.write l3 (idxL3 virt) desc table index = memory.tables table index := by
  obtain ⟨_, kept, tables⟩ := ensureTable_split block done
  have different := (kept table held).2
  rw [tables]
  simp only [Radix.Store.write, Radix.Store.fill, different, false_and, if_false]
  rw [if_neg]
  exact fun both => other both.1 both.2

lemma mmuL2_splitPage (aligned : Aligned 21 (memory.tables l2 (idxL2 virt)))
    (taken : Taken memory.bitmap l2)
    (inside : idxL2 virt' = idxL2 virt ∨ (memory.tables l2 (idxL2 virt')).isBlock)
    (other : idxL2 virt' = idxL2 virt → idxL3 virt' ≠ idxL3 virt) :
    mmuL2 (after.tables.write l3 (idxL3 virt) desc) l2 virt' = mmuL2 memory.tables l2 virt' := by
  obtain ⟨valid, _⟩ := isBlock_iff.1 block
  obtain ⟨fresh, kept, tables⟩ := ensureTable_split block done
  have different := (kept l2 taken).2
  by_cases same : idxL2 virt' = idxL2 virt
  · have row : after.tables.write l3 (idxL3 virt) desc l2 (idxL2 virt) = tableDesc l3 := by
      simp [tables, Radix.Store.write, different]
    have page : after.tables.write l3 (idxL3 virt) desc l3 (idxL3 virt') =
        splitBlock (memory.tables l2 (idxL2 virt)) 12 (idxL3 virt') := by
      simp [tables, Radix.Store.write, Radix.Store.fill, other same, different.symm]
    have leads : (tableDesc l3).next = some l3 := next_eq_some.2 ⟨rfl, rfl, fresh.mask⟩
    simp only [mmuL2, mmuL3, same, row, leads, Option.bind_some, page, block,
      output_splitPage valid aligned]
    simp [tableDesc, splitBlock, Descriptor.isBlock]
  · have block' := inside.resolve_left same
    simp [mmuL2, splitPage_elsewhere block done taken fun _ => same, block']

end

theorem mapPageIn_splits (memory after : Memory) (root virt phys : Nat) (writable exec : Bool)
    (virt' : Nat) (meets : memory.meetsBlock root virt) (rootTaken : Taken memory.bitmap root)
    (l2Taken : ∀ l2, (memory.tables root (idxL1 virt)).next = some l2 → Taken memory.bitmap l2)
    (aligned1 : (memory.tables root (idxL1 virt)).isBlock →
      Aligned 30 (memory.tables root (idxL1 virt)))
    (aligned2 : ∀ l2, (memory.tables root (idxL1 virt)).next = some l2 →
      Aligned 21 (memory.tables l2 (idxL2 virt)))
    (done : memory.mapPageIn root virt phys writable exec = (after, .ok ()))
    (inside : InBlock memory root virt virt') (other : virt' / 2 ^ 12 ≠ virt / 2 ^ 12) :
    mmu after.tables root virt' = mmu memory.tables root virt' := by
  obtain ⟨gib, region⟩ := inside
  have same1 : idxL1 virt' = idxL1 virt := congrArg (· % 512) gib
  have apart : idxL2 virt' = idxL2 virt → idxL3 virt' ≠ idxL3 virt := by
    simp only [idxL2, idxL3]
    omega
  simp only [Memory.mapPageIn] at done
  split at done
  · cases done
  rename_i middle l2 first
  split at done
  · cases done
  rename_i last l3 second
  cases done
  cases isBlock : (memory.tables root (idxL1 virt)).isBlock with
  | true =>
    obtain ⟨valid, _⟩ := isBlock_iff.1 isBlock
    obtain ⟨fresh, kept, tables⟩ := ensureTable_split isBlock first
    obtain ⟨rootTaken, different⟩ := kept root rootTaken
    have child : ∀ slot, middle.tables l2 slot =
        splitBlock (memory.tables root (idxL1 virt)) 21 slot := by
      intro slot
      simp [tables, Radix.Store.write, Radix.Store.fill, different.symm]
    have blocks : ∀ slot, (middle.tables l2 slot).isBlock := fun slot => by rw [child]; rfl
    have row : middle.tables root (idxL1 virt) = tableDesc l2 := by
      simp [tables, Radix.Store.write]
    have leads : (tableDesc l2).next = some l2 := next_eq_some.2 ⟨rfl, rfl, fresh.mask⟩
    have lower := fun {virt} => @output_splitBlock virt _ valid (aligned1 isBlock)
    have whole := @mmuL2_splitPage middle last l2 l3 virt virt' (pageDesc phys writable exec)
      (blocks _) second (child _ ▸ lower.2) fresh (.inr (blocks _)) apart
    have elsewhere := @splitPage_elsewhere middle last root (idxL1 virt) l2 l3 virt
      (pageDesc phys writable exec) (blocks _) second rootTaken fun same => absurd same different
    simp only [mmu, same1, elsewhere, row, leads, Option.bind_some, whole, isBlock]
    simp only [mmuL2, child, lower.1]
    rfl
  | false =>
    simp only [Memory.meetsBlock, isBlock, Bool.false_or] at meets
    split at meets
    · rename_i linked
      obtain ⟨valid, isTable, leads⟩ := next_eq_some.1 linked
      simp only [Memory.ensureTable, valid, isTable, if_true, leads] at first
      cases first
      have same2 : idxL2 virt' = idxL2 virt :=
        congrArg (· % 512) (region.resolve_left (by simp [isBlock]))
      have elsewhere := @splitPage_elsewhere memory last root (idxL1 virt) _ l3 virt
        (pageDesc phys writable exec) meets second rootTaken fun same index => by
          rw [same, index] at isBlock
          rw [isBlock] at meets
          cases meets
      have whole := @mmuL2_splitPage memory last _ l3 virt virt' (pageDesc phys writable exec)
        meets second (aligned2 _ linked) (l2Taken _ linked) (.inl same2) apart
      simp [mmu, same1, elsewhere, linked, whole]
    · cases meets

theorem mapPageIn_splits_devices :
    mmu (firstSpace.mapPageIn firstRoot 0x400000 0x101000 true true).1.tables firstRoot 0x401000 =
      mmu firstSpace.tables firstRoot 0x401000 := by
  have block : (firstSpace.tables firstRoot (idxL1 0x400000)).isBlock := by decide +kernel
  have unlinked : ∀ l2, (firstSpace.tables firstRoot (idxL1 0x400000)).next ≠ some l2 := by
    rw [show (firstSpace.tables firstRoot (idxL1 0x400000)).next = none by decide +kernel]
    simp
  have mapped : (firstSpace.mapPageIn firstRoot 0x400000 0x101000 true true).2 = .ok () := by
    decide +kernel
  exact mapPageIn_splits firstSpace _ firstRoot 0x400000 0x101000 true true 0x401000
    (by decide +kernel) ⟨rfl, by decide, by decide, by decide +kernel⟩
    (fun l2 linked => absurd linked (unlinked l2))
    (fun _ => ⟨by decide +kernel, by decide +kernel⟩)
    (fun l2 linked => absurd linked (unlinked l2)) (Prod.ext rfl mapped) ⟨rfl, .inl block⟩
    (by decide)

end OsCortex.Aarch64
