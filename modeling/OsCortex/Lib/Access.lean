import Mathlib

/-!
Programs that load and store single bytes. What a run does not touch neither changes nor has an
influence.
-/

namespace Access

open List Function

abbrev Memory := Nat → UInt8

inductive Program (α : Type) where
  | done (value : α)
  | load (addr : Nat) (next : UInt8 → Program α)
  | store (addr : Nat) (byte : UInt8) (next : Program α)

namespace Program

variable {α β : Type}

def run : Program α → Memory → α × Memory
  | .done value, memory => (value, memory)
  | .load addr next, memory => (next (memory addr)).run memory
  | .store addr byte next, memory => next.run (Function.update memory addr byte)

def touched : Program α → Memory → List Nat
  | .done _, _ => []
  | .load addr next, memory => addr :: (next (memory addr)).touched memory
  | .store addr byte next, memory => addr :: next.touched (Function.update memory addr byte)

/-- The loads, and the stores with their bytes. -/
def trace : Program α → Memory → List (Nat × Option UInt8)
  | .done _, _ => []
  | .load addr next, memory => (addr, none) :: (next (memory addr)).trace memory
  | .store addr byte next, memory =>
    (addr, some byte) :: next.trace (Function.update memory addr byte)

def bind : Program α → (α → Program β) → Program β
  | .done value, rest => rest value
  | .load addr next, rest => .load addr fun byte => (next byte).bind rest
  | .store addr byte next, rest => .store addr byte (next.bind rest)

instance : Monad Program where
  pure := .done
  bind := .bind

@[simp] lemma run_pure (value : α) (memory : Memory) :
    (pure value : Program α).run memory = (value, memory) :=
  rfl

@[simp] lemma touched_pure (value : α) (memory : Memory) :
    (pure value : Program α).touched memory = [] :=
  rfl

@[simp] lemma trace_pure (value : α) (memory : Memory) :
    (pure value : Program α).trace memory = [] :=
  rfl

@[simp] lemma run_bind (program : Program α) (rest : α → Program β) (memory : Memory) :
    (program >>= rest).run memory = (rest (program.run memory).1).run (program.run memory).2 := by
  change (program.bind rest).run memory = _
  induction program generalizing memory with
  | done value => rfl
  | load addr next ih => exact ih (memory addr) memory
  | store addr byte next ih => exact ih (update memory addr byte)

@[simp] lemma touched_bind (program : Program α) (rest : α → Program β) (memory : Memory) :
    (program >>= rest).touched memory = program.touched memory ++
      (rest (program.run memory).1).touched (program.run memory).2 := by
  change (program.bind rest).touched memory = _
  induction program generalizing memory with
  | done value => rfl
  | load addr next ih =>
    exact congrArg (addr :: ·) (ih (memory addr) memory)
  | store addr byte next ih =>
    exact congrArg (addr :: ·) (ih (update memory addr byte))

@[simp] lemma trace_bind (program : Program α) (rest : α → Program β) (memory : Memory) :
    (program >>= rest).trace memory = program.trace memory ++
      (rest (program.run memory).1).trace (program.run memory).2 := by
  change (program.bind rest).trace memory = _
  induction program generalizing memory with
  | done value => rfl
  | load addr next ih => exact congrArg _ (ih (memory addr) memory)
  | store addr byte next ih => exact congrArg _ (ih (update memory addr byte))

@[simp] lemma run_map (change : α → β) (program : Program α) (memory : Memory) :
    (change <$> program).run memory = (change (program.run memory).1, (program.run memory).2) :=
  run_bind program (fun value => pure (change value)) memory

def Within (part : Nat → Prop) (program : Program α) (memory : Memory) : Prop :=
  ∀ addr ∈ program.touched memory, part addr

variable {part : Nat → Prop} {memory : Memory} {program : Program α}

@[simp] lemma within_pure (value : α) : Within part (pure value : Program α) memory := by
  simp [Within]

@[simp] lemma within_bind {rest : α → Program β} :
    Within part (program >>= rest) memory ↔ Within part program memory ∧
      Within part (rest (program.run memory).1) (program.run memory).2 := by
  rw [Within, touched_bind, forall_mem_append]
  rfl

@[simp] lemma within_map {change : α → β} :
    Within part (change <$> program) memory ↔ Within part program memory := by
  change Within part (program >>= fun value => pure (change value)) memory ↔ _
  simp

lemma Within.unchanged (within : Within part program memory) {addr : Nat} (outside : ¬ part addr) :
    (program.run memory).2 addr = memory addr := by
  induction program generalizing memory with
  | done value => rfl
  | load loaded next ih =>
    exact ih (memory loaded) fun touched member => within touched (mem_cons_of_mem _ member)
  | store stored byte next ih =>
    have other : addr ≠ stored := fun same => outside (same ▸ within stored mem_cons_self)
    have later := @ih (update memory stored byte) fun touched member =>
      within touched (mem_cons_of_mem _ member)
    exact later.trans (update_of_ne other ..)

lemma Within.agree {other : Memory} (within : Within part program memory)
    (same : ∀ addr, part addr → memory addr = other addr) :
    (program.run memory).1 = (program.run other).1 ∧
      program.touched memory = program.touched other ∧
      ∀ addr, part addr → (program.run memory).2 addr = (program.run other).2 addr := by
  induction program generalizing memory other with
  | done value => exact ⟨rfl, rfl, same⟩
  | load loaded next ih =>
    have byte : memory loaded = other loaded := same loaded (within loaded mem_cons_self)
    have later := ih (memory loaded)
      (fun touched member => within touched (mem_cons_of_mem _ member)) same
    simp only [run, touched]
    rw [← byte]
    exact ⟨later.1, congrArg (loaded :: ·) later.2.1, later.2.2⟩
  | store stored byte next ih =>
    have updated : ∀ addr, part addr →
        update memory stored byte addr = update other stored byte addr := by
      intro addr inside
      simp [update_apply, same addr inside]
    have later := ih (fun touched member => within touched (mem_cons_of_mem _ member)) updated
    exact ⟨later.1, congrArg (stored :: ·) later.2.1, later.2.2⟩

end Program

def addressSpace : Nat := 2 ^ 64

def following (addr : Nat) : Nat := (addr + 1) % addressSpace

def loadBytes : Nat → Nat → Program (List UInt8)
  | _, 0 => pure []
  | addr, length + 1 => .load addr fun byte => do
      let rest ← loadBytes (following addr) length
      return byte :: rest

def storeBytes : Nat → List UInt8 → Program Unit
  | _, [] => pure ()
  | addr, byte :: rest => .store addr byte (storeBytes (following addr) rest)

def scanString : Nat → Nat → Program Nat
  | 0, _ => pure 0
  | limit + 1, addr => .load addr fun byte =>
    if byte = 0 then pure 0
    else do
      let rest ← scanString limit (following addr)
      return rest + 1

def stringSpan (memory : Memory) : Nat → Nat → Nat
  | 0, _ => 0
  | limit + 1, addr =>
    if memory addr = 0 then 1 else stringSpan memory limit (following addr) + 1

def Fits (bound addr length : Nat) : Prop := length = 0 ∨ addr + length ≤ bound

section Blocks

open Program

variable {bound addr length : Nat} {memory : Memory}

lemma fits_succ (small : bound < addressSpace) :
    Fits bound addr (length + 1) ↔ addr < bound ∧ Fits bound (following addr) length := by
  unfold Fits following
  constructor
  · intro fits
    have last : addr + (length + 1) ≤ bound := by omega
    refine ⟨by omega, ?_⟩
    by_cases only : length = 0
    · exact .inl only
    · rw [Nat.mod_eq_of_lt (by omega)]
      omega
  rintro ⟨_, rest⟩
  rw [Nat.mod_eq_of_lt (by omega)] at rest
  omega

@[simp] lemma run_loadBytes (addr length : Nat) (memory : Memory) :
    ((loadBytes addr length).run memory).2 = memory := by
  induction length generalizing addr with
  | zero => rfl
  | succ length ih =>
    simp only [loadBytes, run, run_bind, run_pure]
    exact ih (following addr)

lemma within_load {part : Nat → Prop} {α : Type} {next : UInt8 → Program α} :
    Within part (.load addr next) memory ↔ part addr ∧ Within part (next (memory addr)) memory :=
  forall_mem_cons

lemma within_store {part : Nat → Prop} {α : Type} {byte : UInt8} {next : Program α} :
    Within part (.store addr byte next) memory ↔
      part addr ∧ Within part next (update memory addr byte) :=
  forall_mem_cons

lemma within_loadBytes (small : bound < addressSpace) :
    Within (· < bound) (loadBytes addr length) memory ↔ Fits bound addr length := by
  induction length generalizing addr with
  | zero => simp [loadBytes, Fits]
  | succ length ih =>
    rw [loadBytes, within_load, within_bind, ih, fits_succ small]
    simp

lemma within_storeBytes (small : bound < addressSpace) {bytes : List UInt8} :
    Within (· < bound) (storeBytes addr bytes) memory ↔ Fits bound addr bytes.length := by
  induction bytes generalizing addr memory with
  | nil => simp [storeBytes, Fits]
  | cons byte rest ih =>
    rw [storeBytes, within_store, ih, length_cons, fits_succ small]

@[simp] lemma run_scanString (limit addr : Nat) (memory : Memory) :
    ((scanString limit addr).run memory).2 = memory := by
  induction limit generalizing addr with
  | zero => rfl
  | succ limit ih =>
    simp only [scanString, run]
    split
    · rfl
    · simp only [run_bind, run_pure]
      exact ih (following addr)

lemma scanString_le (limit : Nat) : ((scanString limit addr).run memory).1 ≤ limit := by
  induction limit generalizing addr with
  | zero => exact le_rfl
  | succ limit ih =>
    simp only [scanString, run]
    split
    · exact Nat.zero_le _
    · simpa using ih

lemma within_scanString (small : bound < addressSpace) {limit : Nat} :
    Within (· < bound) (scanString limit addr) memory ↔
      Fits bound addr (stringSpan memory limit addr) := by
  induction limit generalizing addr with
  | zero => simp [scanString, stringSpan, Fits]
  | succ limit ih =>
    rw [scanString, within_load, stringSpan]
    split
    · rw [show Fits bound addr 1 ↔ addr < bound by unfold Fits; omega]
      exact and_iff_left (within_pure _)
    · rw [within_bind, ih, fits_succ small]
      simp

end Blocks

end Access
