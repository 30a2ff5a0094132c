import OsCortex.Process.DlCore
import OsCortex.Process.TableCore

/-! `dlsym` compares names without their leading underscore. -/

namespace OsCortex.Dl

structure ExportedSym where
  name : List UInt8
  vaddr : Nat

structure Exporter extends LoadedLib where
  exports : List ExportedSym

def symNameEq (a b : List UInt8) : Bool :=
  let clean (name : List UInt8) := if name.head? = some 0x5f then name.tail else name
  clean a == clean b

variable (table : Table) (posix : List UInt8 → Option Nat) (entries : List Exporter)
  (pid handle : Nat) (name : List UInt8)

def selects (lib : Exporter) : Bool :=
  table.getGroupLeader lib.pid == table.getGroupLeader pid && (handle == 0 || lib.handle == handle)

/-- `posix` is `find_posix_symbol` on the names that are UTF-8. -/
def dlsym : Option Nat :=
  let found := entries.reverse.findSome? fun lib =>
    if selects table pid handle lib then
      (lib.exports.find? fun sym => symNameEq sym.name name).map ExportedSym.vaddr
    else none
  found.or (if handle = 0 then posix name else none)

def visible : List ExportedSym :=
  (entries.reverse.filter (selects table pid handle)).flatMap Exporter.exports

def namesake : Option Nat :=
  (((visible table entries pid handle).find? fun sym => sym.name = name).map ExportedSym.vaddr).or
    (if handle = 0 then posix name else none)

lemma dlsym_eq : dlsym table posix entries pid handle name =
    (((visible table entries pid handle).find? fun sym => symNameEq sym.name name).map
      ExportedSym.vaddr).or (if handle = 0 then posix name else none) := by
  rw [dlsym, visible]
  congr 1
  induction entries.reverse with
  | nil => rfl
  | cons lib rest ih =>
    rw [List.findSome?_cons, ih, List.filter_cons]
    cases selects table pid handle lib with
    | false => rfl
    | true =>
      simp only [if_true, List.flatMap_cons, List.find?_append]
      cases lib.exports.find? fun sym => symNameEq sym.name name <;> rfl

lemma symNameEq_self : symNameEq name name := beq_self_eq_true _

lemma find?_of_first {symbols : List ExportedSym} {sym : ExportedSym}
    (first : symbols.find? (fun sym => symNameEq sym.name name) = some sym)
    (same : sym.name = name) : symbols.find? (fun sym => sym.name = name) = some sym := by
  obtain ⟨_, before, after, rfl, none⟩ := List.find?_eq_some_iff_append.1 first
  refine List.find?_eq_some_iff_append.2 ⟨decide_eq_true same, before, after, rfl, ?_⟩
  intro other member
  have differs := none other member
  suffices other.name ≠ name by simpa
  rintro rfl
  rw [symNameEq_self] at differs
  cases differs

end OsCortex.Dl
