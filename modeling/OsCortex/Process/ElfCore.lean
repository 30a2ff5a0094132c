import OsCortex.Mm.PagingCore

/-! The ELF64 loader of `process/elf.rs`: header checks and the page loop over the segments. -/

namespace OsCortex.Elf

open Paging (Memory)

/-- `byte` is the memory around the image, indexed from its first byte and wrapping; offsets
below `length` are the image itself. -/
structure Image where
  length : Nat
  byte : Nat → Nat

def Image.readLe (image : Image) (offset : Nat) : Nat → Nat
  | 0 => 0
  | size + 1 => image.byte (offset % 2 ^ 64) % 256 + 256 * image.readLe (offset + 1) size

variable (image : Image)

/-- The bounds test of `read_struct`; its sum wraps. -/
def Image.holds (offset size : Nat) : Bool := decide ((offset + size) % 2 ^ 64 ≤ image.length)

structure Hdr where
  magic : List Nat
  cls : Nat
  data : Nat
  type : Nat
  machine : Nat
  entry : Nat
  phoff : Nat
  phentsize : Nat
  phnum : Nat

structure Phdr where
  type : Nat
  flags : Nat
  vaddr : Nat
  memsz : Nat

def hdrSize : Nat := 64
def phdrSize : Nat := 56

def Image.readHdr : Option Hdr :=
  if image.holds 0 hdrSize then
    some {
      magic := [image.readLe 0 1, image.readLe 1 1, image.readLe 2 1, image.readLe 3 1]
      cls := image.readLe 4 1
      data := image.readLe 5 1
      type := image.readLe 16 2
      machine := image.readLe 18 2
      entry := image.readLe 24 8
      phoff := image.readLe 32 8
      phentsize := image.readLe 54 2
      phnum := image.readLe 56 2 }
  else none

def Image.readPhdr (offset : Nat) : Option Phdr :=
  if image.holds offset phdrSize then
    some {
      type := image.readLe offset 4
      flags := image.readLe (offset + 4) 4
      vaddr := image.readLe (offset + 16) 8
      memsz := image.readLe (offset + 40) 8 }
  else none

def elfMagic : List Nat := [0x7F, 0x45, 0x4C, 0x46]
def elfClass64 : Nat := 2
def elfData2Lsb : Nat := 1
def etExec : Nat := 2
def etDyn : Nat := 3
def emX8664 : Nat := 62
def ptLoad : Nat := 1
def pfX : Nat := 1
def pfW : Nat := 2

def checkHdr (hdr : Hdr) : Except String Unit :=
  if hdr.magic ≠ elfMagic then .error "bad ELF magic"
  else if hdr.cls ≠ elfClass64 then .error "not ELF64"
  else if hdr.data ≠ elfData2Lsb then .error "not little-endian"
  else if hdr.machine ≠ emX8664 then .error "wrong ELF machine for arch"
  else if hdr.type ≠ etExec ∧ hdr.type ≠ etDyn then .error "not executable ELF"
  else if hdr.phentsize ≠ phdrSize then .error "unexpected phentsize"
  else .ok ()

abbrev Backed := List (Nat × Nat)

def loadPage (pml4Phys : Nat) (writable exec : Bool) (memory : Memory) (pageVirt : Nat)
    (backed : Backed) : Outcome Memory String Backed :=
  match backed.lookup pageVirt with
  | some phys =>
    (memory.mapUserPageWithFlags pml4Phys pageVirt phys writable true).andThen
      fun memory _ => .ok memory backed
  | none =>
    (memory.allocFrameOr "OOM: elf segment").andThen fun memory phys =>
      (memory.mapUserPageWithFlags pml4Phys pageVirt phys writable exec).andThen
        fun memory _ => .ok memory ((pageVirt, phys) :: backed)

def segmentPages (phdr : Phdr) : List Nat :=
  let pageStart := phdr.vaddr / 4096 * 4096
  let totalBytes := (phdr.vaddr - pageStart + phdr.memsz) % 2 ^ 64
  (List.range ((totalBytes + 4095) / 4096)).map fun page => (pageStart + page * 4096) % 2 ^ 64

def isLoad (phdr : Phdr) : Bool := decide (phdr.type = ptLoad ∧ phdr.memsz ≠ 0)

def loadSegment (hdr : Hdr) (pml4Phys : Nat) (memory : Memory) (i : Nat)
    (backed : Backed) : Outcome Memory String Backed :=
  match image.readPhdr ((hdr.phoff + i * hdr.phentsize) % 2 ^ 64) with
  | none => .fail memory "pheader OOB"
  | some phdr =>
    if isLoad phdr then
      Outcome.forEach
        (loadPage pml4Phys (phdr.flags / pfW % 2 == 1) (phdr.flags / pfX % 2 == 1))
        (segmentPages phdr) memory backed
    else .ok memory backed

def load (memory : Memory) (pml4Phys : Nat) : Outcome Memory String Nat :=
  match image.readHdr with
  | none => .fail memory "ELF too short"
  | some hdr =>
    match checkHdr hdr with
    | .error reason => .fail memory reason
    | .ok () =>
      (Outcome.forEach (loadSegment image hdr pml4Phys) (List.range hdr.phnum) memory
        []).andThen fun memory _ => .ok memory hdr.entry

def Image.pagesOf (hdr : Hdr) (i : Nat) : List Nat :=
  match image.readPhdr ((hdr.phoff + i * hdr.phentsize) % 2 ^ 64) with
  | some phdr => if isLoad phdr then segmentPages phdr else []
  | none => []

def Image.pages : List Nat :=
  match image.readHdr with
  | some hdr => (List.range hdr.phnum).flatMap (image.pagesOf hdr)
  | none => []

end OsCortex.Elf
