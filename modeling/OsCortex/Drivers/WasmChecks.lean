import OsCortex.Drivers.WasmCore

/-!
When the sandbox panics: never in the parser, and in the interpreter just when it comes to a local
that does not exist, or to a body whose code ends before it starts.
-/

namespace OsCortex.WasmSandbox

open List Function Sandbox Nat

namespace Parser

variable {Value Next : Type}

def Safe (parser : Parser Value) : Prop := ∀ pos, parser pos ≠ none

lemma Safe.bind {parser : Parser Value} {next : Value → Parser Next} (first : Safe parser)
    (second : ∀ value, Safe (next value)) : Safe (parser >>= next) := by
  intro pos
  change (parser pos).andThen (fun pos value => next value pos) ≠ none
  match read : parser pos with
  | none => exact absurd read (first pos)
  | some (pos, .ok value) => exact second value pos
  | some (pos, .error error) => exact nofun

lemma safe_pure (value : Value) : Safe (pure value : Parser Value) := fun _ => nofun

lemma safe_throw (error : WasmError) : Safe (throw error : Parser Value) := fun _ => nofun

lemma safe_position : Safe position := fun _ => nofun

lemma safe_moveTo (target : Nat) : Safe (moveTo target) := fun _ => nofun

lemma safe_skip (count : Nat) : Safe (skip count) := fun _ => nofun

variable (bytes : List UInt8)

lemma safe_uleb : Safe (uleb bytes) := fun _ => nofun

lemma safe_rb : Safe (rb bytes) := by
  intro pos
  simp only [rb]
  split
  · exact nofun
  · exact nofun

lemma safe_slice {start stop : Nat} (ordered : start ≤ stop) (inside : stop ≤ bytes.length) :
    Safe (slice bytes start stop) := by
  intro pos
  simp only [slice, if_pos (And.intro ordered inside)]
  exact nofun

lemma safe_times {body : Value → Parser Value} (safe : ∀ value, Safe (body value)) (count : Nat) :
    ∀ value, Safe (times body count value) := by
  induction count with
  | zero => exact safe_pure
  | succ count ih => exact fun value => (safe value).bind ih

lemma safe_skipLimits : Safe (skipLimits bytes) := by
  refine (safe_uleb bytes).bind fun flags => (safe_uleb bytes).bind fun _ => ?_
  split
  · exact (safe_uleb bytes).bind fun _ => safe_pure _
  · exact safe_pure _

lemma safe_importEntry (sandbox : Sandbox) : Safe (importEntry bytes sandbox) := by
  refine (safe_uleb bytes).bind fun mlen => (safe_skip mlen).bind fun _ => ?_
  refine (safe_uleb bytes).bind fun flen => (safe_skip flen).bind fun _ => ?_
  refine (safe_rb bytes).bind fun kind => ?_
  split
  · exact (safe_uleb bytes).bind fun _ => safe_pure _
  split
  · exact (safe_rb bytes).bind fun _ => (safe_skipLimits bytes).bind fun _ => safe_pure _
  split
  · exact (safe_skipLimits bytes).bind fun _ => safe_pure _
  split
  · exact (safe_rb bytes).bind fun _ => (safe_rb bytes).bind fun _ => safe_pure _
  · exact safe_throw _

lemma safe_exportEntry (sandbox : Sandbox) : Safe (exportEntry bytes sandbox) := by
  refine (safe_uleb bytes).bind fun nlen => safe_position.bind fun pos => ?_
  split
  · exact safe_throw _
  have fits : pos + min nlen 31 ≤ bytes.length := by omega
  refine (safe_slice bytes (le_add_right _ _) fits).bind fun name => ?_
  refine (safe_skip nlen).bind fun _ => (safe_rb bytes).bind fun kind => ?_
  refine (safe_uleb bytes).bind fun idx => ?_
  split
  all_goals exact safe_pure _

lemma safe_codeEntry (sandbox : Sandbox) : Safe (codeEntry bytes sandbox) := by
  refine (safe_uleb bytes).bind fun bodySize => safe_position.bind fun pos => ?_
  refine (safe_uleb bytes).bind fun ldcount => ?_
  refine (safe_times (fun locals => ?_) ldcount 0).bind fun locals => ?_
  · exact (safe_uleb bytes).bind fun count => (safe_rb bytes).bind fun _ => safe_pure _
  split
  · exact safe_throw _
  · exact safe_position.bind fun codeStart => (safe_moveTo _).bind fun _ => safe_pure _

lemma safe_sectionBody (sectionId : UInt8) (sandbox : Sandbox) :
    Safe (sectionBody bytes sectionId sandbox) := by
  unfold sectionBody
  split
  · exact (safe_uleb bytes).bind fun count => safe_times (safe_importEntry bytes) count sandbox
  split
  · refine (safe_uleb bytes).bind fun count => ?_
    split
    · exact safe_throw _
    · exact safe_times (safe_exportEntry bytes) count sandbox
  split
  · refine (safe_uleb bytes).bind fun count => ?_
    split
    · exact safe_throw _
    · exact safe_times (safe_codeEntry bytes) count sandbox
  · exact safe_pure _

lemma safe_oneSection (sandbox : Sandbox) : Safe (oneSection bytes sandbox) := by
  refine (safe_rb bytes).bind fun sectionId => (safe_uleb bytes).bind fun sectionSize => ?_
  refine safe_position.bind fun pos => ?_
  dsimp only
  split
  · exact safe_throw _
  · refine (safe_sectionBody bytes sectionId sandbox).bind fun sandbox => ?_
    exact safe_position.bind fun pos => (safe_moveTo _).bind fun _ => safe_pure _

lemma safe_sections (fuel : Nat) : ∀ sandbox, Safe (sections bytes fuel sandbox) := by
  induction fuel with
  | zero => exact safe_pure
  | succ fuel ih =>
    intro sandbox
    refine safe_position.bind fun pos => ?_
    split
    · exact (safe_oneSection bytes sandbox).bind ih
    · exact safe_pure _

end Parser

lemma new_returns (bytes : List UInt8) : new bytes ≠ none := by
  simp only [new]
  iterate 3
    split
    · exact nofun
  · simp only [ne_eq, Option.map_eq_none_iff]
    exact Parser.safe_sections bytes _ _ _

/-! The interpreter, one instruction at a time. The innermost activation runs, its callers wait for
its value. -/

inductive Config where
  | entering (func : Nat) (args : List I32) (callers : List Frame)
  | running (frame : Frame) (callers : List Frame)
  | finished (reply : Reply)

def deliver : List Frame → Reply → Config
  | caller :: callers, some (.ok value) =>
    .running { caller with stack := value :: caller.stack } callers
  | _, reply => .finished reply

namespace Sandbox

variable (sandbox : Sandbox)

def enter (func : Nat) (args : List I32) (callers : List Frame) : Config :=
  if callers.length ≥ maxCallDepth then .finished (some (.error .callDepthExceeded))
  else if func < sandbox.importFuncCount then deliver callers (some (.ok (dispatchHost func)))
  else
    match sandbox.funcs[func - sandbox.importFuncCount]? with
    | none => .finished (some (.error .functionNotFound))
    | some body =>
      match sandbox.code body with
      | none => .finished none
      | some code => .running (startFrame code args) callers

def step : Config → Config
  | .entering func args callers => sandbox.enter func args callers
  | .running frame callers =>
    match frame.exec with
    | .next frame => .running frame callers
    | .call func frame => .entering func [] (frame :: callers)
    | .done result => deliver callers (some result)
    | .panic => .finished none
  | .finished reply => .finished reply

def begin (name : List UInt8) (args : List I32) : Config :=
  match sandbox.exports.find? fun e => e.name == name with
  | none => .finished (some (.error .functionNotFound))
  | some e => .entering e.funcIdx args []

def trace (name : List UInt8) (args : List I32) (n : Nat) : Config :=
  sandbox.step^[n] (sandbox.begin name args)

end Sandbox

def Effect.Within (bound : Nat) : Effect → Prop
  | .next frame => frame.rest.length ≤ bound
  | .call _ frame => frame.rest.length ≤ bound
  | .done _ => True
  | .panic => True

lemma length_skipFrom (fuel : Nat) (rest : List UInt8) (depth : Nat) :
    (skipFrom fuel rest depth).length ≤ rest.length := by
  induction fuel generalizing rest depth with
  | zero => exact le_refl _
  | succ fuel ih =>
    cases rest with
    | nil => exact le_refl _
    | cons byte rest =>
      have dropped : ∀ count depth, (skipFrom fuel (rest.drop count) depth).length ≤
          rest.length + 1 := by
        intro count depth
        have shorter := ih (rest.drop count) depth
        rw [length_drop] at shorter
        omega
      have whole : ∀ depth, (skipFrom fuel rest depth).length ≤ rest.length + 1 :=
        fun depth => le_succ_of_le (ih rest depth)
      simp only [skipFrom, length_cons]
      split
      iterate 3 exact dropped _ _
      iterate 2
        split
        · omega
        · exact whole _
      all_goals first
        | exact dropped _ _
        | exact whole _

namespace Frame

variable {frame : Frame} {bound : Nat}

section

variable (shorter : frame.rest.length ≤ bound)
include shorter

lemma within_push (value : I32) : (frame.push value).Within bound := by
  simp only [push]
  split
  · trivial
  · exact shorter

lemma within_pop {next : I32 → Frame → Effect}
    (after : ∀ value frame, frame.rest.length ≤ bound → (next value frame).Within bound) :
    (frame.pop next).Within bound := by
  simp only [pop]
  split
  · trivial
  · exact after _ _ shorter

lemma within_pop2 {next : I32 → I32 → Frame → Effect}
    (after : ∀ a b frame, frame.rest.length ≤ bound → (next a b frame).Within bound) :
    (frame.pop2 next).Within bound :=
  within_pop shorter fun b _ shorter => within_pop shorter fun a _ shorter => after a b _ shorter

lemma within_setLocal (i : Nat) (value : I32) : (frame.setLocal i value).Within bound := by
  simp only [setLocal]
  split
  · exact shorter
  · trivial

lemma length_index : frame.index.2.rest.length ≤ bound := by
  simp only [index, length_drop]
  omega

lemma within_execute (op : Opcode) : (frame.execute op).Within bound := by
  have indexed := length_index shorter
  have dropped : ∀ count, (frame.rest.drop count).length ≤ bound := by
    intro count
    rw [length_drop]
    omega
  cases op with
  | unreachable | endOp | returnOp | br | other => trivial
  | nop => exact shorter
  | drop => exact within_pop shorter fun _ _ shorter => shorter
  | select =>
    simp only [execute]
    exact within_pop shorter fun _ _ shorter => within_pop2 shorter fun _ _ _ shorter =>
      within_push shorter _
  | call =>
    simp only [execute]
    split
    · trivial
    · exact indexed
  | localGet =>
    simp only [execute]
    split
    · trivial
    split
    · exact within_push indexed _
    · trivial
  | localSet => exact within_pop indexed fun _ _ shorter => within_setLocal shorter _ _
  | localTee =>
    simp only [execute]
    split
    · trivial
    · exact within_setLocal indexed _ _
  | i32Const => exact within_push (dropped _) _
  | eqz => exact within_pop shorter fun _ _ shorter => within_push shorter _
  | divS =>
    refine within_pop2 shorter fun a b _ shorter => ?_
    split
    · trivial
    · exact within_push shorter _
  | binary op => exact within_pop2 shorter fun _ _ _ shorter => within_push shorter _
  | block | loop => exact dropped 1
  | ifOp =>
    simp only [execute]
    refine within_pop (dropped 1) fun condition after shorter => ?_
    split
    · exact le_trans (length_skipFrom _ _ _) shorter
    · exact shorter
  | elseOp => exact le_trans (length_skipFrom _ _ _) shorter
  | brIf =>
    simp only [execute]
    refine within_pop indexed fun condition after shorter => ?_
    split
    · exact shorter
    · trivial

end

lemma within_exec {fuel : Nat} (enough : frame.rest.length ≤ fuel + 1) :
    frame.exec.Within fuel := by
  simp only [exec]
  split
  · trivial
  rename_i ahead
  refine within_execute ?_ _
  rw [ahead, length_cons] at enough
  exact le_of_succ_le_succ enough

end Frame

section Adequacy

variable (sandbox : Sandbox)

lemma deliver_error (callers : List Frame) (error : WasmError) :
    deliver callers (some (.error error)) = .finished (some (.error error)) := by
  cases callers <;> rfl

lemma deliver_panic (callers : List Frame) : deliver callers none = .finished none := by
  cases callers <;> rfl

lemma steps_runLoop {callee : Nat → Reply} {callers : List Frame}
    (called : ∀ func frame, ∃ n, sandbox.step^[n] (.entering func [] (frame :: callers)) =
      deliver (frame :: callers) (callee func))
    (fuel : Nat) (frame : Frame) (enough : frame.rest.length ≤ fuel) :
    ∃ n, sandbox.step^[n] (.running frame callers) =
      deliver callers (runLoop callee fuel frame) := by
  induction fuel generalizing frame with
  | zero =>
    have atEnd : frame.rest = [] := length_eq_zero_iff.1 (le_zero.1 enough)
    refine ⟨1, ?_⟩
    simp [step, Frame.exec, atEnd, Frame.result, runLoop]
  | succ fuel ih =>
    have shorter := frame.within_exec enough
    match ahead : frame.exec with
    | .next after =>
      rw [ahead] at shorter
      obtain ⟨n, ran⟩ := ih after shorter
      refine ⟨n + 1, ?_⟩
      simp [iterate_succ_apply, step, ahead, runLoop, ran]
    | .call func after =>
      rw [ahead] at shorter
      obtain ⟨n, ran⟩ := called func after
      have begun : sandbox.step^[n + 1] (.running frame callers) =
          deliver (after :: callers) (callee func) := by
        simp [iterate_succ_apply, step, ahead, ran]
      match answer : callee func with
      | some (.ok value) =>
        obtain ⟨more, rest⟩ := ih { after with stack := value :: after.stack } shorter
        refine ⟨more + (n + 1), ?_⟩
        rw [iterate_add_apply, begun, answer]
        simp [deliver, rest, runLoop, ahead, answer]
      | some (.error _) | none =>
        refine ⟨n + 1, ?_⟩
        simp [begun, runLoop, ahead, answer, deliver_error, deliver_panic]
    | .done result =>
      refine ⟨1, ?_⟩
      simp [step, ahead, runLoop]
    | .panic =>
      refine ⟨1, ?_⟩
      simp [step, ahead, runLoop, deliver_panic]

lemma steps_callFunc (left : Nat) (callers : List Frame)
    (depth : callers.length + left = maxCallDepth) (func : Nat) (args : List I32) :
    ∃ n, sandbox.step^[n] (.entering func args callers) =
      deliver callers (sandbox.callFunc left func args) := by
  induction left generalizing callers func args with
  | zero =>
    refine ⟨1, ?_⟩
    have full : callers.length ≥ maxCallDepth := le_of_eq depth.symm
    simp [step, enter, full, callFunc, deliver_error]
  | succ left ih =>
    have room : ¬ callers.length ≥ maxCallDepth := by omega
    by_cases imported : func < sandbox.importFuncCount
    · refine ⟨1, ?_⟩
      simp [step, enter, room, imported, callFunc]
    cases found : sandbox.funcs[func - sandbox.importFuncCount]? with
    | none =>
      refine ⟨1, ?_⟩
      simp [step, enter, room, imported, callFunc, found, deliver_error]
    | some body =>
      cases sliced : sandbox.code body with
      | none =>
        refine ⟨1, ?_⟩
        simp [step, enter, room, imported, callFunc, found, sliced, deliver_panic]
      | some code =>
        have called : ∀ func frame, ∃ n,
            sandbox.step^[n] (.entering func [] (frame :: callers)) =
              deliver (frame :: callers) (sandbox.callFunc left func []) := by
          intro func frame
          refine ih (frame :: callers) ?_ func []
          rw [length_cons]
          omega
        obtain ⟨n, ran⟩ := steps_runLoop sandbox called code.length
          (startFrame code args) (le_refl _)
        refine ⟨n + 1, ?_⟩
        simp [iterate_succ_apply, step, enter, room, imported, callFunc, found, sliced, ran]

lemma trace_finishes (name : List UInt8) (args : List I32) :
    ∃ n, sandbox.trace name args n = .finished (sandbox.call name args) := by
  match found : sandbox.exports.find? fun e => e.name == name with
  | none =>
    refine ⟨0, ?_⟩
    simp [trace, begin, call, found]
  | some e =>
    obtain ⟨n, ran⟩ := steps_callFunc sandbox maxCallDepth [] (zero_add _) e.funcIdx args
    refine ⟨n, ?_⟩
    simp only [trace, begin, call, found, ran]
    cases sandbox.callFunc maxCallDepth e.funcIdx args <;> rfl

lemma step_finished (reply : Reply) (n : Nat) :
    sandbox.step^[n] (.finished reply) = .finished reply :=
  iterate_fixed rfl n

lemma trace_finished_eq {name : List UInt8} {args : List I32} {n : Nat} {reply : Reply}
    (ended : sandbox.trace name args n = .finished reply) : sandbox.call name args = reply := by
  obtain ⟨m, finishes⟩ := trace_finishes sandbox name args
  rcases le_total n m with earlier | later
  · obtain ⟨more, rfl⟩ := Nat.exists_eq_add_of_le earlier
    rw [trace, add_comm, iterate_add_apply, show sandbox.step^[n] _ = _ from
      ended, step_finished] at finishes
    exact (Config.finished.inj finishes).symm
  obtain ⟨more, rfl⟩ := Nat.exists_eq_add_of_le later
  rw [trace, add_comm, iterate_add_apply, show sandbox.step^[m] _ = _ from
    finishes, step_finished] at ended
  exact Config.finished.inj ended

end Adequacy

def Frame.InRange (frame : Frame) : Prop :=
  match frame.rest with
  | [] => True
  | byte :: rest =>
    match opcode byte with
    | .localGet => frame.stack.length < maxStack → (ulebRaw rest).1 < maxLocals
    | .localSet | .localTee => frame.stack ≠ [] → (ulebRaw rest).1 < maxLocals
    | _ => True

def Sandbox.Guarded (sandbox : Sandbox) : Config → Prop
  | .entering func _ callers =>
    callers.length < maxCallDepth → sandbox.importFuncCount ≤ func →
      ∀ body, sandbox.funcs[func - sandbox.importFuncCount]? = some body →
        body.codeStart ≤ min body.codeEnd sandbox.raw.length
  | .running frame _ => frame.InRange
  | .finished _ => True

namespace Frame

lemma push_ne_panic (frame : Frame) (value : I32) : frame.push value ≠ .panic := by
  simp only [push]
  split
  · exact nofun
  · exact nofun

variable {frame : Frame}

lemma setLocal_eq_panic {i : Nat} {value : I32} :
    frame.setLocal i value = .panic ↔ ¬ i < maxLocals := by
  simp only [setLocal]
  split
  · rename_i inside
    simp [inside]
  · rename_i outside
    simp [outside]

lemma exec_eq_panic (frame : Frame) : frame.exec = .panic ↔ ¬ frame.InRange := by
  cases ahead : frame.rest with
  | nil => simp [exec, InRange, ahead, result]
  | cons byte rest =>
    simp only [exec, InRange, ahead]
    cases opcode byte with
    | unreachable | nop | endOp | returnOp | br | other | block | loop | elseOp =>
      simp [execute, result]
    | drop | eqz | select | call | i32Const | divS | binary op | ifOp | brIf =>
      simp only [execute, pop, pop2, push, not_true_eq_false, iff_false]
      repeat' split
      all_goals exact nofun
    | localGet =>
      simp only [execute, index, Classical.not_imp]
      by_cases full : frame.stack.length ≥ maxStack
      · simp [full, not_lt.2 full]
      have room : frame.stack.length < maxStack := Nat.lt_of_not_le full
      by_cases inside : (ulebRaw rest).1 < maxLocals
      · simp [full, inside, push_ne_panic]
      · simp [room, inside]
    | localSet | localTee =>
      simp only [execute, index, pop, Classical.not_imp]
      split
      · rename_i empty
        simp [empty]
      · rename_i value stack shape
        simp [setLocal_eq_panic, shape]

end Frame

lemma deliver_ne_panic (callers : List Frame) (result : Except WasmError I32) :
    deliver callers (some result) ≠ .finished none := by
  cases callers with
  | nil => exact nofun
  | cons caller callers =>
    cases result with
    | error error => exact nofun
    | ok value => exact nofun

lemma enter_eq_panic (sandbox : Sandbox) (func : Nat) (args : List I32) (callers : List Frame) :
    sandbox.enter func args callers = .finished none ↔
      ¬ sandbox.Guarded (.entering func args callers) := by
  simp only [enter, Guarded]
  split
  · rename_i full
    simp [not_lt.2 full]
  rename_i room
  split
  · rename_i imported
    simp [deliver_ne_panic, not_le.2 imported]
  rename_i defined
  cases found : sandbox.funcs[func - sandbox.importFuncCount]? with
  | none => simp
  | some body =>
    simp only [Nat.lt_of_not_le room, Nat.le_of_not_lt defined, forall_const, Option.some.injEq,
      forall_eq', code]
    by_cases ordered : body.codeStart ≤ min body.codeEnd sandbox.raw.length
    · simp [ordered]
    · simp [ordered]

lemma step_eq_panic (sandbox : Sandbox) {config : Config} (before : config ≠ .finished none) :
    sandbox.step config = .finished none ↔ ¬ sandbox.Guarded config := by
  cases config with
  | entering func args callers => exact enter_eq_panic sandbox func args callers
  | running frame callers =>
    rw [Guarded, ← frame.exec_eq_panic]
    cases ahead : frame.exec with
    | next after | call func after | panic => simp [step, ahead]
    | done result => simp [step, ahead, deliver_ne_panic]
  | finished reply =>
    simp only [step, Guarded, not_true_eq_false, iff_false]
    exact before

lemma begin_ne_panic (sandbox : Sandbox) (name : List UInt8) (args : List I32) :
    sandbox.begin name args ≠ .finished none := by
  simp only [begin]
  split
  · exact nofun
  · exact nofun

theorem sandbox_panics_iff (bytes : List UInt8) (sandbox : Sandbox) (name : List UInt8)
    (args : List I32) :
    new bytes ≠ none ∧
      (sandbox.call name args ≠ none ↔ ∀ n, sandbox.Guarded (sandbox.trace name args n)) := by
  refine ⟨new_returns bytes, ?_⟩
  constructor
  · intro returns n
    have unpanicked : ∀ n, sandbox.trace name args n ≠ .finished none :=
      fun n panicked => returns (trace_finished_eq sandbox panicked)
    by_contra unguarded
    refine unpanicked (n + 1) ?_
    rw [trace, iterate_succ_apply']
    exact (step_eq_panic sandbox (unpanicked n)).2 unguarded
  intro guarded panics
  obtain ⟨n, ended⟩ := trace_finishes sandbox name args
  rw [panics] at ended
  have unpanicked : ∀ n, sandbox.trace name args n ≠ .finished none := by
    intro n
    induction n with
    | zero => exact begin_ne_panic sandbox name args
    | succ n ih =>
      rw [trace, iterate_succ_apply']
      exact fun panicked => (step_eq_panic sandbox ih).1 panicked (guarded n)
  exact unpanicked n ended

def Config.nesting : Config → Nat
  | .entering _ _ callers => callers.length
  | .running _ callers => callers.length + 1
  | .finished _ => 0

lemma nesting_deliver (callers : List Frame) (reply : Reply) :
    (deliver callers reply).nesting ≤ callers.length := by
  unfold deliver
  split
  · exact le_refl _
  · exact zero_le _

lemma nesting_step (sandbox : Sandbox) {config : Config} (bounded : config.nesting ≤ maxCallDepth) :
    (sandbox.step config).nesting ≤ maxCallDepth := by
  cases config with
  | entering func args callers =>
    simp only [step, enter]
    split
    · exact zero_le _
    rename_i room
    split
    · exact le_trans (nesting_deliver _ _) bounded
    split
    · exact zero_le _
    split
    · exact zero_le _
    · exact Nat.lt_of_not_le room
  | running frame callers =>
    simp only [step]
    split
    · exact bounded
    · exact bounded
    · exact le_trans (nesting_deliver _ _) (le_of_succ_le bounded)
    · exact zero_le _
  | finished reply => exact zero_le _

lemma exec_advances {frame after : Frame} {func : Nat}
    (goesOn : frame.exec = .next after ∨ frame.exec = .call func after) :
    after.rest.length < frame.rest.length := by
  cases ahead : frame.rest with
  | nil => simp [Frame.exec, ahead, Frame.result] at goesOn
  | cons byte rest =>
    have shorter := @Frame.within_exec frame rest.length (by rw [ahead, length_cons])
    refine lt_succ_of_le ?_
    rcases goesOn with same | same
    all_goals rwa [same] at shorter

def wildLocal : List UInt8 :=
  wasmMagic ++ wasmVersion ++ [0x07, 0x05, 0x01, 0x01, 0x66, 0x00, 0x00] ++
    [0x0a, 0x07, 0x01, 0x05, 0x00, 0x20, 0xc0, 0x00, 0x0b]

def emptyBody : List UInt8 :=
  wasmMagic ++ wasmVersion ++ [0x07, 0x05, 0x01, 0x01, 0x66, 0x00, 0x00] ++ [0x0a, 0x02, 0x01, 0x00]

theorem accepted_modules_panic :
    (∃ sandbox, new wildLocal = some (.ok sandbox) ∧ sandbox.call [0x66] [] = none) ∧
      ∃ sandbox, new emptyBody = some (.ok sandbox) ∧ sandbox.call [0x66] [] = none :=
  ⟨⟨_, rfl, rfl⟩, _, rfl, rfl⟩

end OsCortex.WasmSandbox
