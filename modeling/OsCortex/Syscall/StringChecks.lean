import OsCortex.Lib.Access

/-! `sys_strncpy` and `sys_strncat` of `syscall/posix.rs` against the loops of the C standard. -/

namespace OsCortex.CString

open Access Program Function

def sysStrncpyFrom (null : Bool) : Nat → Nat → Nat → Program Unit
  | _, _, 0 => pure ()
  | dst, src, n + 1 =>
    if null then .store dst 0 (sysStrncpyFrom null (following dst) src n)
    else .load src fun c => .store dst c (sysStrncpyFrom null (following dst) (following src) n)

def sysStrncpy (dst src n : Nat) : Program Nat :=
  if dst = 0 then pure 0
  else do
    sysStrncpyFrom (src = 0) dst src n
    return dst

/-- It only reads, so its accesses are left out. -/
def sysStrlen (memory : Memory) (s : Nat) : Nat :=
  if s < 0x10000 ∨ 0x800000000000 ≤ s then 0 else ((scanString (2 ^ 20 + 1) s).run memory).1

def sysStrncat (memory : Memory) (dst src n : Nat) : Program Nat := do
  let dlen := sysStrlen memory dst
  let _ ← sysStrncpy ((dst + dlen) % addressSpace) src n
  .store ((dst + dlen + n) % addressSpace) 0 (pure dst)

/-! What the standard prescribes. -/

def pad : Nat → Nat → Program Unit
  | _, 0 => pure ()
  | dst, n + 1 => .store dst 0 (pad (following dst) n)

def strncpy : Nat → Nat → Nat → Program Unit
  | _, _, 0 => pure ()
  | dst, src, n + 1 => .load src fun c => .store dst c <|
    if c = 0 then pad (following dst) n else strncpy (following dst) (following src) n

def strlen (memory : Memory) (s : Nat) : Nat := ((scanString (addressSpace - 1) s).run memory).1

def append : Nat → Nat → Nat → Program Unit
  | dst, _, 0 => .store dst 0 (pure ())
  | dst, src, n + 1 => .load src fun c => .store dst c <|
    if c = 0 then pure () else append (following dst) (following src) n

def strncat (memory : Memory) (dst src n : Nat) : Program Unit :=
  append ((dst + strlen memory dst) % addressSpace) src n

/-- None of the first `n` bytes copied is a terminator. -/
def Unended : Nat → Nat → Nat → Memory → Prop
  | _, _, 0, _ => True
  | dst, src, n + 1, memory => memory src ≠ 0 ∧
    Unended (following dst) (following src) n (update memory dst (memory src))

variable {memory : Memory} {dst src n : Nat}

lemma strncpy_trace_iff : (sysStrncpyFrom false dst src n).trace memory =
    (strncpy dst src n).trace memory ↔ Unended dst src (n - 1) memory := by
  induction n generalizing dst src memory with
  | zero => simp [sysStrncpyFrom, strncpy, Unended]
  | succ n ih =>
    simp only [sysStrncpyFrom, strncpy, trace, Bool.false_eq_true, if_false, List.cons.injEq,
      true_and, Nat.add_sub_cancel]
    cases n with
    | zero => simp [sysStrncpyFrom, strncpy, pad, Unended]
    | succ m =>
      rw [Unended]
      split
      · case isTrue ended => simp [sysStrncpyFrom, pad, trace, ended]
      · case isFalse more => exact ih.trans (and_iff_right more).symm

lemma append_trace_iff (inside : dst < addressSpace) :
    (sysStrncpyFrom false dst src n).trace memory ++ [((dst + n) % addressSpace, some 0)] =
      (append dst src n).trace memory ↔ Unended dst src n memory := by
  induction n generalizing dst src memory with
  | zero =>
    simp [sysStrncpyFrom, append, Unended, trace, Nat.mod_eq_of_lt inside]
  | succ n ih =>
    have last : (dst + (n + 1)) % addressSpace = (following dst + n) % addressSpace := by
      rw [following, Nat.mod_add_mod, Nat.add_right_comm, Nat.add_assoc]
    simp only [sysStrncpyFrom, append, trace, Bool.false_eq_true, if_false, List.cons_append,
      List.cons.injEq, true_and, Unended, last]
    split
    · case isTrue ended => simp [ended]
    · case isFalse more =>
      exact (ih (Nat.mod_lt _ (by decide))).trans (and_iff_right more).symm

lemma append_starts_at {found : Nat}
    (same : (sysStrncpyFrom false found src n).trace memory ++
      [((found + n) % addressSpace, some 0)] = (append dst src n).trace memory)
    (inside : found < addressSpace) : found = dst := by
  cases n with
  | zero => simpa [sysStrncpyFrom, append, trace, Nat.mod_eq_of_lt inside] using same
  | succ n =>
    simp only [sysStrncpyFrom, append, trace, Bool.false_eq_true, if_false, List.cons_append,
      List.cons.injEq, Prod.mk.injEq] at same
    exact same.2.1.1

lemma end_ne_zero (inside : 0 < dst ∧ dst < addressSpace) :
    (dst + sysStrlen memory dst) % addressSpace ≠ 0 := by
  unfold sysStrlen addressSpace at *
  split
  · omega
  · have := @scanString_le dst memory (2 ^ 20 + 1)
    omega

theorem string_effect_iff (memory : Memory) (dst src n : Nat)
    (inside : 0 < dst ∧ dst < addressSpace) (source : src ≠ 0) :
    ((sysStrncpy dst src n).trace memory = (strncpy dst src n).trace memory ↔
      Unended dst src (n - 1) memory) ∧
    ((sysStrncat memory dst src n).trace memory = (strncat memory dst src n).trace memory ↔
      (dst + sysStrlen memory dst) % addressSpace = (dst + strlen memory dst) % addressSpace ∧
        Unended ((dst + strlen memory dst) % addressSpace) src n memory) := by
  constructor
  · rw [← strncpy_trace_iff]
    simp [sysStrncpy, inside.1.ne', source]
  · have ends : ((dst + sysStrlen memory dst) % addressSpace) < addressSpace :=
      Nat.mod_lt _ (by decide)
    have shape : (sysStrncat memory dst src n).trace memory =
        (sysStrncpyFrom false ((dst + sysStrlen memory dst) % addressSpace) src n).trace memory ++
          [(((dst + sysStrlen memory dst) % addressSpace + n) % addressSpace, some 0)] := by
      simp [sysStrncat, sysStrncpy, end_ne_zero inside, source, trace]
    rw [shape, strncat]
    constructor
    · intro same
      have found := append_starts_at same ends
      exact ⟨found, (append_trace_iff (found ▸ ends)).1 (found ▸ same)⟩
    · rintro ⟨found, unended⟩
      rw [found] at ends ⊢
      exact (append_trace_iff ends).2 unended

theorem whole_string_copied : (sysStrncpy 0x20000 0x30000 2).trace (fun _ => 0x41) =
    (strncpy 0x20000 0x30000 2).trace fun _ => 0x41 :=
  (string_effect_iff _ _ _ _ (by decide) (by decide)).1.2 ⟨by decide, trivial⟩

/-- The byte behind an empty string is copied. -/
theorem terminator_passed : let memory : Memory := fun addr => if addr = 0x30001 then 0x41 else 0
    ((sysStrncpy 0x20000 0x30000 2).run memory).2 0x20001 = 0x41 ∧
      ((strncpy 0x20000 0x30000 2).run memory).2 0x20001 = 0 ∧
      ((sysStrncat memory 0x20000 0x30000 2).run memory).2 0x20001 = 0x41 ∧
      ((strncat memory 0x20000 0x30000 2).run memory).2 0x20001 = 0 := by
  decide

end OsCortex.CString
