import OsCortex.Mm.Spaces
import OsCortex.Process.ElfCore

/-!
The loader gives every page it maps a frame of its own, and on a well-formed image it fails
only when the free frames run out.
-/

namespace OsCortex.Elf

open FrameAllocator Paging Outcome List Option

def Image.WellFormed (image : Image) : Prop :=
  ∃ hdr, image.readHdr = some hdr ∧ checkHdr hdr = .ok () ∧
    ∀ i < hdr.phnum, image.readPhdr ((hdr.phoff + i * hdr.phentsize) % 2 ^ 64) ≠ none

variable {aliased : Prop} {regions : List MemRegion} {usable : Finset Nat} {roots kept : Nat → Prop}
  {memory after : Memory} {root virt phys : Nat} {writable exec : Bool} {excuse : Prop}
  {backed : Backed}

structure Backs (roots kept : Nat → Prop) (root : Nat) (memory : Memory) (backed : Backed) :
    Prop where
  own : ∀ page ∈ backed, Exclusive roots memory root (indices page.1) page.2 ∧
    Pageable roots kept memory page.2
  distinct : ∀ page ∈ backed, ∀ other ∈ backed, page.2 = other.2 → page.1 = other.1

lemma Backs.grown {spent : Nat} (backs : Backs roots kept root memory backed)
    (grown : Grown roots kept spent memory after) : Backs roots kept root after backed := by
  refine ⟨fun page member => ?_, backs.distinct⟩
  obtain ⟨exclusive, pageable⟩ := backs.own page member
  exact ⟨exclusive.grown grown, grown.pageable page.2 pageable⟩

lemma Backs.mapped (backs : Backs roots kept root memory backed)
    (tidy : Tidy regions usable roots kept memory)
    (mapped : Mapped regions usable roots kept memory root virt (leafEntry phys writable exec) after)
    (held : Held memory phys) (same : ∀ page ∈ backed, page.2 = phys → page.1 = virt) :
    Backs roots kept root after backed := by
  have next := leafEntry_next writable exec (tidy.held_mask held)
  refine ⟨fun page member => ?_, backs.distinct⟩
  obtain ⟨⟨isHeld, only⟩, pageable⟩ := backs.own page member
  refine ⟨⟨mapped.held isHeld, ?_⟩, mapped.pageable pageable⟩
  intro root' path' isRoot' within' length' reached
  rw [mapped.reach isRoot' within' length', next] at reached
  split at reached
  · rename_i here
    rw [same page member (some.inj reached).symm]
    exact here
  · exact only root' path' isRoot' within' length' reached

lemma loadPage_spaces (isRoot : roots root) (lower : lowerHalf virt)
    (spaces : Spaces aliased regions usable roots kept memory)
    (backs : Backs roots kept root memory backed) :
    Costs (Spaces aliased regions usable roots kept) Memory.room excuse 4 memory
      (loadPage root writable exec memory virt backed)
      (Backs roots kept root) := by
  simp only [loadPage]
  split
  · rename_i phys found
    have member : (virt, phys) ∈ backed := by
      obtain ⟨_, _, split, _⟩ := lookup_eq_some_iff.mp found
      rw [split]
      simp
    obtain ⟨exclusive, pageable⟩ := backs.own _ member
    refine (spaces.map isRoot lower pageable (fun _ => exclusive) writable true).andThen ?_
      (show 3 + 0 ≤ 4 by omega)
    intro after _ afterSpaces mapped
    refine costs_ok afterSpaces (backs.mapped spaces.tidy mapped exclusive.1 ?_)
    exact fun page isPage samePhys => backs.distinct page isPage _ member samePhys
  refine (spaces.allocFrameOr "OOM: elf segment").andThen ?_ (Nat.le_refl (1 + 3))
  rintro _ phys middleSpaces ⟨unheld, fresh, grown⟩
  refine (middleSpaces.mapFresh isRoot lower fresh writable exec).andThen ?_ (Nat.le_refl (3 + 0))
  intro after _ afterSpaces mapped
  have different : ∀ page ∈ backed, page.2 ≠ phys := by
    rintro page member rfl
    exact unheld (backs.own page member).1.1
  have old := (backs.grown grown).mapped middleSpaces.tidy mapped fresh.held
    fun page member same => absurd same (different page member)
  refine costs_ok afterSpaces ⟨?_, ?_⟩
  · intro page member
    rcases mem_cons.mp member with rfl | earlier
    · refine ⟨⟨mapped.held fresh.held, fun root' path' isRoot' within' length' reached => ?_⟩,
        mapped.pageable (middleSpaces.tidy.fresh_pageable fresh)⟩
      rw [mapped.reach isRoot' within' length'] at reached
      split at reached
      · assumption
      · exact absurd ⟨root', path', isRoot', within', length', reached⟩ fresh.notLeaf
    · exact old.own page earlier
  intro page member other otherMember same
  rcases mem_cons.mp member with rfl | earlier <;>
    rcases mem_cons.mp otherMember with rfl | otherEarlier
  · rfl
  · exact absurd same.symm (different other otherEarlier)
  · exact absurd same (different page earlier)
  · exact old.distinct page earlier other otherEarlier same

lemma loadSegment_spaces {image : Image} {hdr : Hdr} {i : Nat} (isRoot : roots root)
    (lower : ∀ page ∈ image.pagesOf hdr i, lowerHalf page)
    (excused : image.readPhdr ((hdr.phoff + i * hdr.phentsize) % 2 ^ 64) = none → excuse)
    (spaces : Spaces aliased regions usable roots kept memory)
    (backs : Backs roots kept root memory backed) :
    Costs (Spaces aliased regions usable roots kept) Memory.room excuse
      (4 * (image.pagesOf hdr i).length) memory (loadSegment image hdr root memory i backed)
      (Backs roots kept root) := by
  simp only [loadSegment]
  simp only [Image.pagesOf] at lower ⊢
  cases found : image.readPhdr ((hdr.phoff + i * hdr.phentsize) % 2 ^ 64) with
  | none => exact costs_fail spaces (excused found)
  | some phdr =>
    rw [found] at lower
    cases loads : isLoad phdr with
    | false =>
      simp only [loads, Bool.false_eq_true, if_false]
      exact costs_ok spaces backs
    | true =>
      simp only [loads, if_true] at lower ⊢
      refine Costs.mono (Costs.forEach (fun _ => 4) ?_ spaces backs) ?_ fun _ _ _ backs => backs
      · intro page member memory backed spaces backs
        exact loadPage_spaces isRoot (lower page member) spaces backs
      · rw [map_const', sum_replicate_nat, Nat.mul_comm]

lemma load_spaces {image : Image} (isRoot : roots root)
    (lower : ∀ page ∈ image.pages, lowerHalf page)
    (spaces : Spaces aliased regions usable roots kept memory) :
    Costs (Spaces aliased regions usable roots kept) Memory.room (¬ image.WellFormed)
      (4 * image.pages.length) memory (load image memory root) fun _ _ => True := by
  simp only [load]
  simp only [Image.pages] at lower ⊢
  cases read : image.readHdr with
  | none =>
    refine costs_fail spaces ?_
    rintro ⟨hdr, isHdr, _⟩
    rw [read] at isHdr
    cases isHdr
  | some hdr =>
    simp only [read] at lower ⊢
    cases checked : checkHdr hdr with
    | error reason =>
      refine costs_fail spaces ?_
      rintro ⟨other, isHdr, good, _⟩
      obtain rfl := some.inj (read.symm.trans isHdr)
      rw [checked] at good
      cases good
    | ok done =>
      have nothing : Backs roots kept root memory [] := ⟨by simp, by simp⟩
      refine Costs.andThen (Costs.forEach (fun i => 4 * (image.pagesOf hdr i).length) ?_ spaces
        nothing) (fun _ _ afterSpaces _ => costs_ok afterSpaces trivial) ?_
      · intro i member memory backed spaces backs
        have bound : i < hdr.phnum := mem_range.mp member
        refine loadSegment_spaces isRoot (fun page isPage => ?_) ?_ spaces backs
        · exact lower page (mem_flatMap.mpr ⟨i, member, isPage⟩)
        rintro missing ⟨other, isHdr, _, readable⟩
        obtain rfl := some.inj (read.symm.trans isHdr)
        exact readable i bound missing
      · rw [length_flatMap, sum_map_mul_left, Nat.add_zero]

end OsCortex.Elf
