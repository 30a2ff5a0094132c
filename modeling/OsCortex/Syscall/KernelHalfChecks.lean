import OsCortex.Mm.KernelHalf
import OsCortex.Syscall.MemoryCore

/-!
`mmap`, `munmap`, `mprotect` and the ELF loader take any 64-bit address. They leave the kernel half
alone as long as they meet no page of it.
-/

namespace OsCortex.KernelHalf

open FrameAllocator Paging Outcome Radix List Option Memory Prod
open Lifecycle (Kernel)
open UserMemory

inductive Request where
  | mmap (pid : Nat) (hintVa size : UInt64)
  | munmap (pid : Nat) (va size : UInt64)
  | mprotect (pid : Nat) (va size prot : UInt64)
  | load (pml4Phys : Nat) (image : Elf.Image)

def ended {Error Value : Type} : Outcome Kernel Error Value → Option (Kernel × Bool) :=
  Option.map fun (kernel, result) => (kernel, result.isOk)

/-- The kernel after the request and whether it succeeded; `none` is a panic. -/
def Request.perform (kernel : Kernel) : Request → Option (Kernel × Bool)
  | .mmap pid hintVa size => ended (sysMmap kernel pid hintVa size)
  | .munmap pid va size => ended (sysMunmap kernel pid va size)
  | .mprotect pid va size prot => ended (sysMprotect kernel pid va size prot)
  | .load pml4Phys image =>
    ended ((Elf.load image kernel.memory pml4Phys).focus fun memory => { kernel with memory })

def Request.space (kernel : Kernel) : Request → Option Nat
  | .mmap pid _ _ | .munmap pid _ _ | .mprotect pid _ _ _ => kernel.table.getUserContext pid
  | .load pml4Phys _ => some pml4Phys

def Request.pages : Request → List Nat
  | .mmap _ _ _ => []
  | .munmap _ va size | .mprotect _ va size _ =>
    if size = 0 then [] else pageRange va.toNat size.toNat
  | .load _ image => image.pages

/-- Not a page of the kernel half; `munmap` and `mprotect` pass over pages that are not present. -/
def Request.Allows (tables : Store Entry) (root page : Nat) : Request → Prop
  | .load _ _ => lowerHalf page
  | _ => lowerHalf page ∨ ∀ found, locate tables root (indices page) ≠ some (some found)

def Request.Low (kernel : Kernel) (request : Request) : Prop :=
  ∀ root, request.space kernel = some root →
    ∀ page ∈ request.pages, request.Allows kernel.memory.tables root page

def Request.Keeps (spaces : Nat → Prop) (kernel final : Kernel) (request : Request) : Prop :=
  match request.space kernel with
  | some root => KernelHalfKept spaces root kernel.memory.tables final.memory.tables
  | none => final.memory.tables = kernel.memory.tables

variable {spaces guarded : Nat → Prop} {before : Store Entry} {memory : Memory}
  {root virt phys : Nat} {writable exec : Bool}

lemma kept_refl (spaces : Nat → Prop) (root : Nat) (tables : Store Entry) :
    KernelHalfKept spaces root tables tables :=
  ⟨fun _ _ differs => absurd rfl differs, fun _ _ _ => rfl, fun _ _ _ _ => rfl⟩

lemma upper_large (upper : ¬ lowerHalf virt) : 0x800000000000 ≤ virt := by
  simp only [lowerHalf] at upper
  omega

def Sided (guarded : Nat → Prop) (root : Nat) (before : Store Entry) (memory : Memory) : Prop :=
  UserSide guarded root before memory ∧ Stocked guarded root memory

section

variable (sided : Sided guarded root before memory)
include sided

lemma Sided.allocFrameOr {Error : Type} (oom : Error) :
    Meets (memory.allocFrameOr oom) fun after _ => Sided guarded root before after := by
  rcases allocFrame_cases memory with failed | ⟨start, _, done⟩
  · rw [Memory.allocFrameOr, failed]
    exact (ends_fail sided).meets
  · rw [Memory.allocFrameOr, done]
    exact (ends_ok ⟨⟨sided.1.level, sided.1.apart, sided.1.changed⟩, sided.2.take start⟩).meets

end

structure Stable (good : Memory → Prop) (root : Nat) (allowed : Nat → Prop) : Prop where
  alloc : ∀ {memory Error} (oom : Error), good memory →
    Meets (memory.allocFrameOr oom) fun after _ => good after
  map : ∀ {memory virt} phys writable exec, good memory → allowed virt →
    Meets (memory.mapUserPageWithFlags root virt phys writable exec) fun after _ => good after
  update : ∀ {memory virt} writable exec, good memory → allowed virt →
    Meets (memory.updateUserPage root virt writable exec) fun after _ => good after

lemma sided_stable : Stable (Sided guarded root before) root lowerHalf where
  alloc oom sided := sided.allocFrameOr oom
  map phys writable exec sided lower :=
    sided.1.mapUserPageWithFlags sided.2 lower phys writable exec
  update writable exec sided lower := sided.1.updateUserPage sided.2 lower writable exec

lemma opens_stable (memory : Memory) : Stable (Opens guarded memory) root fun _ => True where
  alloc oom first := (opens_allocFrameOr first.guards oom).mono fun _ _ second =>
    first.trans second.1
  map phys writable exec first _ :=
    (opens_mapUserPageWithFlags first.guards phys writable exec).mono fun _ _ => first.trans
  update writable exec first _ :=
    (opens_updateUserPage first.guards writable exec).mono fun _ _ => first.trans

variable {image : Elf.Image} {hdr : Elf.Hdr} {i : Nat}

section Stable

variable {good : Memory → Prop} {allowed : Nat → Prop} (stable : Stable good root allowed)
  (isGood : good memory)
include stable isGood

lemma Stable.protectOrMap (here : allowed virt) :
    Meets (protectOrMap root writable exec phys memory virt) fun after _ => good after := by
  refine Meets.orElse (stable.update writable exec isGood here) (fun _ _ updated => updated) ?_
  intro middle _ updated
  refine Meets.orElse (stable.map phys writable exec updated here) (fun _ _ mapped => mapped) ?_
  exact fun after _ failed => (ends_fail failed).meets

lemma Stable.protectAlias (here : allowed virt) :
    Meets (protectAlias root writable exec memory virt) fun after _ => good after := by
  simp only [UserMemory.protectAlias]
  split
  · exact Meets.discard (stable.update writable exec isGood here) fun _ _ updated => updated
  · exact (ends_ok isGood).meets

lemma Stable.mirroredFrame (base : Nat) :
    Meets (mirroredFrame root base memory) fun after _ => good after := by
  simp only [UserMemory.mirroredFrame]
  split
  · exact (ends_ok isGood).meets
  · exact stable.alloc _ isGood

lemma Stable.protectPage (user : ∀ page, lowerHalf page → allowed page) (here : allowed virt)
    (value : Unit) :
    Meets (protectPage root writable exec memory virt value) fun after _ => good after := by
  simp only [UserMemory.protectPage]
  split
  · have mirror : ∀ offset, offset ≤ 0x200000000 → allowed (virt % 0x100000000 + offset) := by
      intro offset bound
      refine user _ ?_
      simp only [lowerHalf]
      omega
    refine Meets.andThen (stable.mirroredFrame isGood _) ?_ fun _ _ failed => failed
    intro memory₁ phys good₁
    refine Meets.andThen (stable.protectOrMap good₁ here) ?_ fun _ _ failed => failed
    intro memory₂ _ good₂
    refine Meets.andThen (stable.protectOrMap good₂ (mirror 0 (by omega))) ?_
      fun _ _ failed => failed
    intro memory₃ _ good₃
    refine Meets.andThen (stable.protectAlias good₃ (mirror _ (by omega))) ?_
      fun _ _ failed => failed
    intro memory₄ _ good₄
    exact stable.protectAlias good₄ (mirror _ (by omega))
  · exact Meets.discard (stable.update writable exec isGood here) fun _ _ updated => updated

lemma Stable.loadPage (here : allowed virt) (backed : Elf.Backed) :
    Meets (Elf.loadPage root writable exec memory virt backed) fun after _ => good after := by
  simp only [Elf.loadPage]
  split
  · refine Meets.andThen (stable.map _ writable true isGood here) ?_ fun _ _ failed => failed
    exact fun after _ mapped => (ends_ok mapped).meets
  refine Meets.andThen (stable.alloc _ isGood) ?_ fun _ _ failed => failed
  intro middle phys taken
  refine Meets.andThen (stable.map phys writable exec taken here) ?_ fun _ _ failed => failed
  exact fun after _ mapped => (ends_ok mapped).meets

lemma Stable.loadSegment (here : ∀ page ∈ image.pagesOf hdr i, allowed page) (backed : Elf.Backed) :
    Meets (Elf.loadSegment image hdr root memory i backed) fun after _ => good after := by
  simp only [Elf.loadSegment]
  simp only [Elf.Image.pagesOf] at here
  cases found : image.readPhdr ((hdr.phoff + i * hdr.phentsize) % 2 ^ 64) with
  | none => exact (ends_fail isGood).meets
  | some phdr =>
    simp only [found] at here
    by_cases loads : Elf.isLoad phdr
    · simp only [loads, if_true] at here ⊢
      refine Meets.forEach ?_ isGood
      exact fun page member middle value isGood =>
        stable.loadPage isGood (here page member) value
    · simp only [loads, Bool.false_eq_true, if_false]
      exact (ends_ok isGood).meets

lemma Stable.load (here : ∀ page ∈ image.pages, allowed page) :
    Meets (Elf.load image memory root) fun after _ => good after := by
  simp only [Elf.load]
  simp only [Elf.Image.pages] at here
  cases found : image.readHdr with
  | none => exact (ends_fail isGood).meets
  | some hdr =>
    simp only [found] at here ⊢
    cases Elf.checkHdr hdr with
    | error reason => exact (ends_fail isGood).meets
    | ok =>
      refine Meets.andThen (Meets.forEach ?_ isGood) (fun _ _ isGood => (ends_ok isGood).meets)
        fun _ _ failed => failed
      intro i member middle backed isGood
      refine stable.loadSegment isGood (fun page isPage => ?_) backed
      exact here page (mem_flatMap.mpr ⟨i, member, isPage⟩)

end Stable

lemma protectPage_upper (upper : ¬ lowerHalf virt) (value : Unit) :
    protectPage root writable exec memory virt value =
      (memory.updateUserPage root virt writable exec).discard := by
  have large := upper_large upper
  have unmirrored : isMirrored virt = false := by
    simp only [isMirrored, Bool.and_eq_false_iff, decide_eq_false_iff_not]
    omega
  simp [protectPage, unmirrored]

lemma updateUserPage_absent {good : Memory → Prop} (isGood : good memory)
    (absent : ∀ found, locate memory.tables root (indices virt) ≠ some (some found)) :
    Meets (memory.updateUserPage root virt writable exec) fun after _ => good after := by
  simp only [updateUserPage]
  split
  · rename_i located
    exact absurd located (absent _)
  · exact (ends_fail isGood).meets
  · exact meets_none

variable {after : Memory}

section Halves

variable (halved : Halved spaces root memory)
include halved

lemma halved_sided : Sided (KernelOwned spaces memory.tables) root memory.tables memory :=
  ⟨halved.userSide, halved.stocked⟩

lemma halved_guards : Guards (KernelOwned spaces memory.tables) memory :=
  fun frame isFree => (halved.stocked frame isFree).1

lemma halved_closed (table index : Nat) (slot : KernelSlot spaces memory.tables table index) :
    ¬ Opened (memory.tables table index) := by
  rintro ⟨present, user⟩
  rw [halved.supervisor table index slot present] at user
  cases user

lemma Opens.intact (opens : Opens (KernelOwned spaces memory.tables) memory after)
    (missed : ¬ Hit Opened spaces memory.tables after.tables) :
    Intact spaces memory.tables after.tables := by
  intro table index slot
  refine opens.marks.entries (fun table index slot opened _ => ?_) missed slot
  exact absurd opened (halved_closed halved table index slot)

lemma forEach_hit {Item Error Value : Type}
    {body : Memory → Item → Value → Outcome Memory Error Value} {items : List Item} {item : Item}
    (member : item ∈ items)
    (opens : ∀ item middle value, Guards (KernelOwned spaces memory.tables) middle →
      Meets (body middle item value) fun after _ =>
        Opens (KernelOwned spaces memory.tables) middle after)
    (hits : ∀ middle value, Opens (KernelOwned spaces memory.tables) memory middle →
      Intact spaces memory.tables middle.tables →
      Meets (body middle item value) fun after result =>
        ∀ last, result = .ok last → Hit Opened spaces memory.tables after.tables)
    {start : Memory} (started : Opens (KernelOwned spaces memory.tables) memory start)
    (value : Value) :
    Meets (Outcome.forEach body items start value) fun after result =>
      ∀ last, result = .ok last → Hit Opened spaces memory.tables after.tables := by
  refine Meets.forEach_hit ?_ member ?_ started
  · intro item _ middle value opened
    exact (opens item middle value opened.guards).mono fun _ _ step =>
      ⟨opened.trans step, fun hit => hit.marks step.marks⟩
  intro middle value opened
  by_cases hit : Hit Opened spaces memory.tables middle.tables
  · exact (opens item middle value opened.guards).mono fun _ _ step _ _ => hit.marks step.marks
  · exact hits middle value opened (Opens.intact halved opened hit)

end Halves

variable {pages : List Nat}

variable {page : Nat} {found : Nat × Nat}

variable {middle : Memory}

lemma unmapPages_cons (ran : memory.unmapPages root (page :: pages) = some after) :
    ∃ cleared result, ∃ next : Memory, memory.unmapUserPage root page = some (cleared, result) ∧
      next.tables = cleared.tables ∧ next.unmapPages root pages = some after := by
  rw [unmapPages] at ran
  split at ran
  · rename_i cleared phys done
    exact ⟨cleared, .ok phys, cleared.freeFrame phys, done, rfl, ran⟩
  · rename_i cleared reason done
    exact ⟨cleared, .error reason, _, done, rfl, ran⟩
  · cases ran

lemma userSide_congr {other : Memory} (side : UserSide guarded root before memory)
    (same : other.tables = memory.tables) : UserSide guarded root before other := by
  obtain ⟨level, apart, changed⟩ := side
  simp only [reach, ← same] at level apart changed
  exact ⟨level, apart, changed⟩

lemma unmapPages_marks (ran : memory.unmapPages root pages = some after) :
    Marks (· = {}) guarded memory.tables after.tables := by
  induction pages generalizing memory with
  | nil =>
    obtain rfl := some.inj ran
    exact fun _ _ _ => .inl rfl
  | cons page pages ih =>
    have first : Meets (memory.unmapUserPage root page) fun after _ =>
        Marks (· = {}) guarded memory.tables after.tables := unmapUserPage_marks
    obtain ⟨cleared, result, _, done, same, ran⟩ := unmapPages_cons ran
    have rest := ih ran
    rw [same] at rest
    exact (first cleared result done).trans rest

section

variable (halved : Halved spaces root memory)
include halved

lemma protectPages_sided (plain : ∀ page ∈ pages, ¬ lowerHalf page →
      crossesHuge memory.tables root (indices page) = false)
    (allowed : ∀ page ∈ pages, lowerHalf page ∨
      ∀ found, locate memory.tables root (indices page) ≠ some (some found)) :
    Meets (Outcome.forEach (protectPage root writable exec) pages memory ()) fun after _ =>
      Sided (KernelOwned spaces memory.tables) root memory.tables after := by
  refine Meets.forEach ?_ (halved_sided halved)
  intro page member middle value sided
  by_cases lower : lowerHalf page
  · exact sided_stable.protectPage sided (fun _ lower => lower) lower value
  rw [protectPage_upper lower]
  refine Meets.discard (updateUserPage_absent sided fun found => ?_) fun _ _ sided => sided
  rw [sided.1.locate_upper halved lower (plain page member lower)]
  exact (allowed page member).resolve_left lower found

lemma protectPages_hit (member : page ∈ pages) (upper : ¬ lowerHalf page)
    (plain : crossesHuge memory.tables root (indices page) = false)
    (located : locate memory.tables root (indices page) = some (some found)) :
    Meets (Outcome.forEach (protectPage root writable exec) pages memory ()) fun after result =>
      ∀ last, result = .ok last → Hit Opened spaces memory.tables after.tables := by
  have above : Above spaces memory.tables root (indices page) := .start halved.isSpace upper
  refine forEach_hit halved member (fun _ _ value guards => (opens_stable _).protectPage
    (Opens.refl guards) (fun _ _ => trivial) trivial value) ?_
    (Opens.refl (halved_guards halved)) ()
  intro middle value _ intact
  rw [protectPage_upper upper]
  have still : locate middle.tables root (indices page) = some (some found) := by
    rw [locate_agree intact above plain, located]
  refine Meets.discard (updateUserPage_hit (halved_closed halved) still
    (locate_kernelSlot above plain located).1 writable exec) fun _ _ hit _ _ => hit

lemma loadPage_hit (upper : ¬ lowerHalf virt)
    (plain : crossesHuge memory.tables root (indices virt) = false)
    (opens : Opens (KernelOwned spaces memory.tables) memory middle)
    (intact : Intact spaces memory.tables middle.tables) (backed : Elf.Backed) :
    Meets (Elf.loadPage root writable exec middle virt backed) fun after result =>
      ∀ last, result = .ok last → Hit Opened spaces memory.tables after.tables := by
  have maps := fun {start : Memory} (guards : Guards (KernelOwned spaces memory.tables) start)
      (intact : Intact spaces memory.tables start.tables) (phys : Nat) (exec : Bool) =>
    mapUserPageWithFlags_hit (halved_closed halved) guards halved.isSpace upper plain intact phys
      writable exec
  simp only [Elf.loadPage]
  split
  · refine Meets.andThen (maps opens.guards intact _ true) ?_ fun _ _ _ => nofun
    exact fun after value hit => (ends_ok fun _ _ => hit value rfl).meets
  refine Meets.andThen (opens_allocFrameOr opens.guards _) ?_ fun _ _ _ => nofun
  rintro start phys ⟨taken, same⟩
  rw [← same] at intact
  refine Meets.andThen (maps taken.guards intact phys exec) ?_ fun _ _ _ => nofun
  exact fun after value hit => (ends_ok fun _ _ => hit value rfl).meets

lemma loadSegment_hit (member : page ∈ image.pagesOf hdr i)
    (upper : ¬ lowerHalf page)
    (plain : crossesHuge memory.tables root (indices page) = false)
    (opens : Opens (KernelOwned spaces memory.tables) memory middle) (backed : Elf.Backed) :
    Meets (Elf.loadSegment image hdr root middle i backed) fun after result =>
      ∀ last, result = .ok last → Hit Opened spaces memory.tables after.tables := by
  simp only [Elf.loadSegment]
  simp only [Elf.Image.pagesOf] at member
  cases found : image.readPhdr ((hdr.phoff + i * hdr.phentsize) % 2 ^ 64) with
  | none => simp only [found, not_mem_nil] at member
  | some phdr =>
    simp only [found] at member
    by_cases loads : Elf.isLoad phdr
    · simp only [loads, if_true] at member ⊢
      refine forEach_hit halved member (fun _ _ value guards => (opens_stable _).loadPage
        (Opens.refl guards) trivial value) ?_
        opens backed
      exact fun middle value opens intact => loadPage_hit halved upper plain opens intact value
    · simp [loads] at member

lemma load_hit (member : page ∈ image.pages) (upper : ¬ lowerHalf page)
    (plain : crossesHuge memory.tables root (indices page) = false) :
    Meets (Elf.load image memory root) fun after result =>
      ∀ last, result = .ok last → Hit Opened spaces memory.tables after.tables := by
  simp only [Elf.load]
  simp only [Elf.Image.pages] at member
  cases found : image.readHdr with
  | none => exact (ends_fail nofun).meets
  | some hdr =>
    simp only [found] at member ⊢
    obtain ⟨_, isHeader, isPage⟩ := mem_flatMap.mp member
    cases Elf.checkHdr hdr with
    | error reason => exact (ends_fail nofun).meets
    | ok =>
      refine Meets.andThen (forEach_hit halved isHeader
        (fun _ _ value guards => (opens_stable _).loadSegment (Opens.refl guards)
          (fun _ _ => trivial) value) ?_
        (Opens.refl (halved_guards halved)) []) ?_ fun _ _ _ => nofun
      · exact fun middle value opens _ => loadSegment_hit halved isPage upper plain opens value
      · exact fun after value hit => (ends_ok fun _ _ => hit value rfl).meets

lemma unmapPages_side (plain : ∀ page ∈ pages, ¬ lowerHalf page →
      crossesHuge memory.tables root (indices page) = false)
    (allowed : ∀ page ∈ pages, lowerHalf page ∨
      ∀ found, locate memory.tables root (indices page) ≠ some (some found))
    (side : UserSide (KernelOwned spaces memory.tables) root memory.tables middle)
    (ran : middle.unmapPages root pages = some after) :
    UserSide (KernelOwned spaces memory.tables) root memory.tables after := by
  induction pages generalizing middle with
  | nil =>
    obtain rfl := some.inj ran
    exact side
  | cons page pages ih =>
    have plainRest := fun page member => plain page (mem_cons_of_mem _ member)
    have allowedRest := fun page member => allowed page (mem_cons_of_mem _ member)
    have stays : Meets (middle.unmapUserPage root page) fun after _ =>
        UserSide (KernelOwned spaces memory.tables) root memory.tables after := by
      by_cases lower : lowerHalf page
      · exact side.unmapUserPage lower
      have same := side.locate_upper halved lower (plain page mem_cons_self lower)
      have absent := (allowed page mem_cons_self).resolve_left lower
      simp only [unmapUserPage, halved.walks, if_true, same]
      split
      · rename_i located
        exact absurd located (absent _)
      · exact (ends_fail side).meets
      · exact meets_none
    obtain ⟨cleared, result, _, done, same, ran⟩ := unmapPages_cons ran
    exact ih plainRest allowedRest (userSide_congr (stays cleared result done) same) ran

lemma unmapPages_hit (member : page ∈ pages) (upper : ¬ lowerHalf page)
    (plain : crossesHuge memory.tables root (indices page) = false)
    (located : locate memory.tables root (indices page) = some (some found))
    (marks : Marks (· = {}) (KernelOwned spaces memory.tables) memory.tables middle.tables)
    (ran : middle.unmapPages root pages = some after) :
    Hit (· = {}) spaces memory.tables after.tables := by
  have above : Above spaces memory.tables root (indices page) := .start halved.isSpace upper
  induction pages generalizing middle with
  | nil => cases member
  | cons first pages ih =>
    have step : Meets (middle.unmapUserPage root first) fun after _ =>
        Marks (· = {}) (KernelOwned spaces memory.tables) middle.tables after.tables :=
      unmapUserPage_marks
    -- Nothing was cleared before the page, or there is a hit already.
    have here : first = page → Meets (middle.unmapUserPage root first) fun after _ =>
        Hit (· = {}) spaces memory.tables after.tables := by
      rintro rfl
      by_cases hit : Hit (· = {}) spaces memory.tables middle.tables
      · exact step.mono fun _ _ marks => hit.marks marks
      have intact : Intact spaces memory.tables middle.tables := fun table index slot =>
        marks.entries (fun _ _ _ was is => is.trans was.symm) hit slot
      obtain ⟨slot, present⟩ := locate_kernelSlot above plain located
      refine unmapUserPage_hit halved.walks ?_ slot present
      rw [locate_agree intact above plain, located]
    obtain ⟨cleared, result, _, done, same, ran⟩ := unmapPages_cons ran
    by_cases isPage : first = page
    · have hit : Hit (· = {}) spaces memory.tables cleared.tables := here isPage cleared result done
      rw [← same] at hit
      exact hit.marks (unmapPages_marks ran)
    refine ih ((mem_cons.mp member).resolve_left (Ne.symm isPage)) ?_ ran
    rw [same]
    exact marks.trans (step cleared result done)

end

variable {kernel final : Kernel} {pid : Nat} {done : Bool}

lemma ended_some {Error Value : Type} {outcome : Outcome Kernel Error Value}
    (ran : ended outcome = some (final, done)) :
    ∃ result, outcome = some (final, result) ∧ done = result.isOk := by
  obtain ⟨⟨_, result⟩, isSome, same⟩ := map_eq_some_iff.mp ran
  obtain ⟨rfl, rfl⟩ := mk.inj same
  exact ⟨result, isSome, rfl⟩

lemma ended_focus {Error Value : Type} {part : Outcome Memory Error Value}
    {post : Memory → Except Error Value → Prop} (meets : Meets part post)
    (ran : ended (part.focus fun memory => { kernel with memory }) = some (final, done)) :
    ∃ result, post final.memory result ∧ done = result.isOk := by
  obtain ⟨_, isSome, ends⟩ := ended_some ran
  obtain ⟨⟨memory, value⟩, partDone, same⟩ := map_eq_some_iff.mp isSome
  obtain ⟨rfl, rfl⟩ := mk.inj same
  exact ⟨value, meets memory value partDone, ends⟩

lemma ok_of_isOk {Error Value : Type} {result : Except Error Value} (ok : result.isOk) :
    ∃ value, result = .ok value := by
  cases result with
  | ok value => exact ⟨value, rfl⟩
  | error => cases ok

variable {size : UInt64}

lemma sysMmap_memory {hintVa : UInt64} {result : Except Int Nat}
    (ran : sysMmap kernel pid hintVa size = some (final, result)) :
    final.memory = kernel.memory := by
  simp only [sysMmap] at ran
  iterate 5
    split at ran
    · cases ran
      rfl
  cases ran
  rfl

lemma sysMunmap_cases {va : UInt64}
    (ran : ended (sysMunmap kernel pid va size) = some (final, done)) :
    ((done → size = 0) ∧ final.memory = kernel.memory) ∨
      (size ≠ 0 ∧ ∃ root, kernel.table.getUserContext pid = some root ∧
        kernel.memory.unmapUserRange root va.toNat size.toNat = some final.memory) := by
  simp only [sysMunmap] at ran
  split at ran
  · rename_i empty
    obtain ⟨rfl, rfl⟩ := mk.inj (some.inj ran)
    exact .inl ⟨fun _ => empty, rfl⟩
  rename_i nonempty
  iterate 2
    split at ran
    · obtain ⟨rfl, rfl⟩ := mk.inj (some.inj ran)
      exact .inl ⟨nofun, rfl⟩
  rename_i root context
  split at ran
  · rename_i unmapped
    obtain ⟨rfl, rfl⟩ := mk.inj (some.inj ran)
    exact .inr ⟨nonempty, root, context, unmapped⟩
  · cases ran

lemma sysMprotect_cases {va prot : UInt64}
    (ran : ended (sysMprotect kernel pid va size prot) = some (final, done)) :
    ((done → size = 0) ∧ final.memory = kernel.memory) ∨
      (size ≠ 0 ∧ ∃ root writable exec, kernel.table.getUserContext pid = some root ∧
        ended ((Outcome.forEach (protectPage root writable exec) (pageRange va.toNat size.toNat)
          kernel.memory ()).focus fun memory => { kernel with memory }) = some (final, done)) := by
  simp only [sysMprotect] at ran
  split at ran
  · rename_i empty
    obtain ⟨rfl, rfl⟩ := mk.inj (some.inj ran)
    exact .inl ⟨fun _ => empty, rfl⟩
  rename_i nonempty
  iterate 2
    split at ran
    · obtain ⟨rfl, rfl⟩ := mk.inj (some.inj ran)
      exact .inl ⟨nofun, rfl⟩
  · rename_i root context
    exact .inr ⟨nonempty, root, _, _, context, ran⟩

lemma Request.Keeps.of_same {request : Request} (same : final.memory = kernel.memory) :
    request.Keeps spaces kernel final := by
  simp only [Request.Keeps, same]
  split
  · exact kept_refl _ _ _
  · trivial

lemma Request.Keeps.of_space {request : Request} (isSpace : request.space kernel = some root)
    (kept : KernelHalfKept spaces root kernel.memory.tables final.memory.tables) :
    request.Keeps spaces kernel final := by
  simp only [Request.Keeps, isSpace]
  exact kept

lemma Request.Keeps.kept {request : Request} (keeps : request.Keeps spaces kernel final)
    (isSpace : request.space kernel = some root) :
    KernelHalfKept spaces root kernel.memory.tables final.memory.tables := by
  simp only [Request.Keeps, isSpace] at keeps
  exact keeps

section Requests

variable {request : Request}

def Request.Plain (kernel : Kernel) (request : Request) : Prop :=
  ∀ root, request.space kernel = some root → ∀ page ∈ request.pages, ¬ lowerHalf page →
    crossesHuge kernel.memory.tables root (indices page) = false

lemma low_keeps
    (halved : ∀ root, request.space kernel = some root → Halved spaces root kernel.memory)
    (plain : request.Plain kernel) (ran : request.perform kernel = some (final, done))
    (low : request.Low kernel) : request.Keeps spaces kernel final := by
  cases request with
  | mmap pid hintVa size =>
    obtain ⟨result, isSome, _⟩ := ended_some ran
    exact .of_same (sysMmap_memory isSome)
  | munmap pid va size =>
    rcases sysMunmap_cases ran with ⟨_, same⟩ | ⟨nonempty, root, context, unmapped⟩
    · exact .of_same same
    have pages : (Request.munmap pid va size).pages = pageRange va.toNat size.toNat :=
      if_neg nonempty
    have both := halved root context
    have sizeNat : size.toNat ≠ 0 := fun zero => nonempty (UInt64.toNat_inj.mp zero)
    rw [unmapUserRange, if_pos ⟨both.walks, sizeNat⟩] at unmapped
    have side := unmapPages_side both (pages ▸ plain root context) (pages ▸ low root context)
      both.userSide unmapped
    exact .of_space context (side.kept both)
  | mprotect pid va size prot =>
    rcases sysMprotect_cases ran with ⟨_, same⟩ | ⟨nonempty, root, _, _, context, looped⟩
    · exact .of_same same
    have pages : (Request.mprotect pid va size prot).pages = pageRange va.toNat size.toNat :=
      if_neg nonempty
    have both := halved root context
    obtain ⟨result, sided, _⟩ := ended_focus (protectPages_sided both
      (pages ▸ plain root context) (pages ▸ low root context)) looped
    exact .of_space context (sided.1.kept both)
  | load pml4Phys image =>
    have both := halved pml4Phys rfl
    obtain ⟨result, sided, _⟩ :=
      ended_focus (sided_stable.load (halved_sided both) (low pml4Phys rfl)) ran
    exact .of_space rfl (sided.1.kept both)

lemma keeps_low
    (halved : ∀ root, request.space kernel = some root → Halved spaces root kernel.memory)
    (plain : request.Plain kernel) (ran : request.perform kernel = some (final, true))
    (keeps : request.Keeps spaces kernel final) : request.Low kernel := by
  intro root isSpace page member
  have both := halved root isSpace
  have kept := keeps.kept isSpace
  have flat := plain root isSpace page member
  cases request with
  | mmap pid hintVa size => cases member
  | munmap pid va size =>
    by_contra refused
    simp only [Request.Allows, not_or, not_forall, not_not] at refused
    obtain ⟨upper, found, located⟩ := refused
    rcases sysMunmap_cases ran with ⟨empty, _⟩ | ⟨nonempty, root', context, unmapped⟩
    · rw [Request.pages, if_pos (empty rfl)] at member
      cases member
    obtain rfl : root = root' := some.inj (isSpace.symm.trans context)
    rw [Request.pages, if_neg nonempty] at member
    have sizeNat : size.toNat ≠ 0 := fun zero => nonempty (UInt64.toNat_inj.mp zero)
    rw [unmapUserRange, if_pos ⟨both.walks, sizeNat⟩] at unmapped
    have hit := unmapPages_hit both member upper (flat upper) located
      (fun _ _ _ => .inl rfl) unmapped
    exact hit.not_kept kept
  | mprotect pid va size prot =>
    by_contra refused
    simp only [Request.Allows, not_or, not_forall, not_not] at refused
    obtain ⟨upper, found, located⟩ := refused
    rcases sysMprotect_cases ran with ⟨empty, _⟩ |
      ⟨nonempty, root', writable, exec, context, looped⟩
    · rw [Request.pages, if_pos (empty rfl)] at member
      cases member
    obtain rfl : root = root' := some.inj (isSpace.symm.trans context)
    rw [Request.pages, if_neg nonempty] at member
    obtain ⟨result, hit, ok⟩ :=
      ended_focus (protectPages_hit both member upper (flat upper) located) looped
    obtain ⟨value, isOk⟩ := ok_of_isOk ok.symm
    exact (hit value isOk).not_kept kept
  | load pml4Phys image =>
    by_contra upper
    obtain rfl : pml4Phys = root := some.inj isSpace
    obtain ⟨result, hit, ok⟩ := ended_focus (load_hit both member upper (flat upper)) ran
    obtain ⟨value, isOk⟩ := ok_of_isOk ok.symm
    exact (hit value isOk).not_kept kept

end Requests

/-- A request that meets no page of the kernel half keeps it as it is, and one that succeeds keeps
it only then. -/
theorem kernel_half_kept_iff (spaces : Nat → Prop) (kernel final : Kernel) (request : Request)
    (done : Bool)
    (halved : ∀ root, request.space kernel = some root → Halved spaces root kernel.memory)
    (plain : request.Plain kernel) (ran : request.perform kernel = some (final, done)) :
    (request.Low kernel → request.Keeps spaces kernel final) ∧
      (done = true → (request.Keeps spaces kernel final ↔ request.Low kernel)) := by
  refine ⟨low_keeps halved plain ran, ?_⟩
  rintro rfl
  exact ⟨keeps_low halved plain ran, low_keeps halved plain ran⟩

def kernelCode : UInt64 := 0xFFFFFFFF80000000

def codeEntry : Entry := { addr := 0x200000, present := true }

def sampleTables : Store Entry := fun table index =>
  if table = 0x1000 ∧ index = 511 then { addr := 0x2000, present := true, writable := true }
  else if table = 0x2000 ∧ index = 510 then { addr := 0x3000, present := true, writable := true }
  else if table = 0x3000 ∧ index = 0 then { addr := 0x4000, present := true, writable := true }
  else if table = 0x4000 ∧ index = 0 then codeEntry
  else {}

def sampleKernel : Kernel :=
  { table := Table.empty.write 1 { pid := 1, pml4Phys := 0x1000, state := .running }
    nextPid := 2
    memory := { tables := sampleTables, frames := { bitmap := FrameBitmap.new, log := [] } }
    libs := Dl.LibTable.new
    hhdm := 0xFFFF800000000000 }

lemma sampleTables_cases (table index : Nat) :
    (sampleTables table index).user = false ∧
      ((sampleTables table index).present →
        (sampleTables table index).addr ≠ 0x1000 ∧ (table = 0x1000 → index = 511)) := by
  unfold sampleTables
  split
  · rename_i here
    exact ⟨rfl, fun _ => ⟨by decide, fun _ => here.2⟩⟩
  iterate 3
    split
    · rename_i here
      exact ⟨rfl, fun _ => ⟨by decide, fun first => by omega⟩⟩
  · exact ⟨rfl, nofun⟩

lemma sampleKernel_kernelTable {table : Nat}
    (isKernel : KernelTable (· = 0x1000) sampleTables table) : table ≠ 0x1000 := by
  obtain ⟨_, index, path, _, _, _, reached⟩ := isKernel
  obtain ⟨before, last, split⟩ : ∃ before last, index :: path = before ++ [last] :=
    ⟨_, _, (dropLast_append_getLast (cons_ne_nil index path)).symm⟩
  rw [split, descend_concat] at reached
  obtain ⟨parent, _, isChild⟩ := bind_eq_some_iff.mp reached
  simp only [Entry.child, Entry.next] at isChild
  split at isChild
  · cases isChild
  split at isChild
  · rename_i present
    rw [← some.inj isChild]
    exact ((sampleTables_cases parent last).2 present).1
  · cases isChild

lemma sampleKernel_reach {path : List Nat} {table : Nat} (within : Within tableWidths path)
    (reached : sampleKernel.memory.reach 0x1000 path = some table) :
    path = [] ∧ table = 0x1000 := by
  cases path with
  | nil => exact ⟨rfl, (some.inj reached).symm⟩
  | cons index path =>
    have low : index < 256 := within.1
    have absent : (sampleTables 0x1000 index).next = none := by
      simp only [Entry.next]
      split
      · rename_i present
        have last := ((sampleTables_cases 0x1000 index).2 present).2 rfl
        omega
      · rfl
    have ends : sampleKernel.memory.reach 0x1000 (index :: path) = none := by
      simp only [reach, descend]
      rw [show sampleKernel.memory.tables = sampleTables from rfl, absent]
    rw [ends] at reached
    cases reached

lemma sampleKernel_halved : Halved (· = 0x1000) 0x1000 sampleKernel.memory := by
  refine ⟨rfl, by decide, ?_, ?_, ?_, ?_⟩
  · intro path path' table within within' reached reached'
    rw [(sampleKernel_reach within reached).1, (sampleKernel_reach within' reached').1]
  · intro path table within reached
    obtain ⟨rfl, rfl⟩ := sampleKernel_reach within reached
    exact ⟨fun nonempty => absurd rfl nonempty,
      fun isKernel => sampleKernel_kernelTable isKernel rfl⟩
  · intro frame isFree
    have isSet := (Bitmap.mem_members.mp isFree).2
    simp [sampleKernel, FrameBitmap.new, Bitmap.test] at isSet
  · exact fun table index _ _ => (sampleTables_cases table index).1

def lowRequest : Request := .munmap 1 0 4096

theorem kernel_half_kept_low :
    ∃ final, lowRequest.perform sampleKernel = some (final, true) ∧
      lowRequest.Keeps (· = 0x1000) sampleKernel final := by
  obtain ⟨final, ran⟩ : ∃ final, lowRequest.perform sampleKernel = some (final, true) := ⟨_, rfl⟩
  have context : lowRequest.space sampleKernel = some 0x1000 := rfl
  have pages : lowRequest.pages = [0] := rfl
  refine ⟨final, ran, (kernel_half_kept_iff (· = 0x1000) sampleKernel final lowRequest true
    (fun root isSpace => ?_) (fun root _ page member upper => ?_) ran).1
    fun root _ page member => ?_⟩
  · obtain rfl := some.inj (context.symm.trans isSpace)
    exact sampleKernel_halved
  · obtain rfl := mem_singleton.mp (pages ▸ member)
    exact absurd (by decide) upper
  · obtain rfl := mem_singleton.mp (pages ▸ member)
    exact .inl (by decide)

theorem kernel_code_unmapped :
    ∃ final, (Request.munmap 1 kernelCode 4096).perform sampleKernel = some (final, true) ∧
      translation sampleKernel.memory.tables 0x1000 (indices kernelCode.toNat) =
        some (codeEntry, 0) ∧
      translation final.memory.tables 0x1000 (indices kernelCode.toNat) = none ∧
      ¬ (Request.munmap 1 kernelCode 4096).Keeps (· = 0x1000) sampleKernel final := by
  obtain ⟨final, ran, gone⟩ : ∃ final,
      (Request.munmap 1 kernelCode 4096).perform sampleKernel = some (final, true) ∧
      translation final.memory.tables 0x1000 (indices kernelCode.toNat) = none :=
    ⟨_, rfl, by decide⟩
  have there : translation sampleKernel.memory.tables 0x1000 (indices kernelCode.toNat) =
      some (codeEntry, 0) := by decide
  refine ⟨final, ran, there, gone, fun keeps => ?_⟩
  have context : (Request.munmap 1 kernelCode 4096).space sampleKernel = some 0x1000 := rfl
  have same := (keeps.kept context).translations 0x1000 kernelCode.toNat rfl (by decide)
  rw [gone, there] at same
  cases same

end OsCortex.KernelHalf
