import OsCortex.Drivers.WasmChecks
import OsCortex.Drivers.WasmDecode

/-!
The sandbox against the semantics of WebAssembly: the steps that the interpreter handles, and that
it follows them.
-/

namespace OsCortex.WasmSandbox

open List Function Option Sandbox Wasm WasmSandbox.Frame Operator
open Wasm (Activation Label Word)

structure Represents (sandbox : Sandbox) (m : Wasm.Module) : Prop where
  imports : sandbox.importFuncCount = m.imports.length
  answers : ∀ host ∈ m.imports, ∀ args, host.answer args = host.type.result.map fun _ => 0
  funcs : ∀ (i : Nat) (func : Wasm.Func), m.funcs[i]? = some func → ∃ body code,
    sandbox.funcs[i]? = some body ∧
      sandbox.code body = some code ∧ func.body.Encodes code
  exports : sandbox.exports = m.exports.map fun e => { name := e.1.take 31, funcIdx := e.2 }

def flat (act : Activation) : List Word := act.vals ++ act.labels.flatMap Label.below

def Exact (op : Wasm.Binop) (x y : Word) : Prop :=
  match op with
  | .divS => ¬ (x = BitVec.intMin 32 ∧ y = -1)
  | .shrS | .shrU => x.msb = false ∨ y.toNat % 32 = 0
  | _ => True

def Ends (labels : List Label) : Prop := ∀ label ∈ labels, label.next = .done

/-- A branch to a block leads to the end of the function, with the top of the operands left on
top. -/
def Leaves (act : Activation) (n : Nat) : Prop :=
  ∀ label results, act.labels[n]? = some label →
    Wasm.carried label.carries act.vals = some results →
    label.target = .done ∧ Ends (act.labels.drop (n + 1)) ∧
      (results ++ label.below ++ (act.labels.drop (n + 1)).flatMap Label.below).head? =
        (flat act).head?

def HandledIndexed (m : Wasm.Module) (act : Activation) (callers : List Activation) (index : Nat) :
    Wasm.Indexed → Prop
  | .br => Leaves act index
  | .brIf =>
    ∀ c vals, act.vals = c :: vals → c ≠ 0 → Leaves { act with vals } index
  | .call =>
    (flat act).length < maxStack ∧ callers.length + 1 < maxCallDepth ∧
      ∀ type, m.funcType index = some type → type.params = [] ∧ type.result.isSome
  | .localGet => index < maxLocals ∧ (flat act).length < maxStack
  | .localSet | .localTee => index < maxLocals

def Handled (m : Wasm.Module) : Wasm.Config → Prop
  | .running act callers =>
    match act.code with
    | .done =>
      match act.labels with
      | [] => True
      | label :: labels => label.ending = .closed → Ends (label :: labels)
    | .basic (.bare (.binary op)) _ =>
      ∀ x y vals, act.vals = y :: x :: vals → Exact op x y
    | .basic (.bare _) _ => True
    | .basic (.indexed instr index) _ => HandledIndexed m act callers index instr
    | .basic (.const _) _ => (flat act).length < maxStack
    | .block .. | .loop .. | .ifThen .. | .ifElse .. => True
  | .returned _ | .trapped => True

def After : List Label → List UInt8 → Prop
  | [], bytes => bytes = []
  | label :: labels, bytes => ∃ next rest, label.next.Encodes next ∧ After labels rest ∧
      match label.ending with
      | .closed => bytes = 0x0b :: (next ++ rest)
      | .beforeElse => ∃ no other, Wasm.Code.Encodes no other ∧
          bytes = 0x05 :: (other ++ 0x0b :: (next ++ rest))
      | .absent => bytes = next ++ rest

structure FrameRel (act : Activation) (frame : Frame) : Prop where
  locals : ∀ i value, act.locals[i]? = some value → i < maxLocals → frame.locals i = value
  stack : frame.stack = flat act
  small : frame.stack.length ≤ maxStack
  ahead : ∃ bytes rest, act.code.Encodes bytes ∧ After act.labels rest ∧ frame.rest = bytes ++ rest

structure Settled (act : Activation) (frame : Frame) : Prop where
  done : act.code = .done
  ends : Ends act.labels
  returns : frame.exec = .done (.ok ((flat act).head?.getD 0))

def Waiting : Option Wasm.ValType → List Activation → List Frame → Prop
  | _, [], [] => True
  | result, act :: acts, frame :: frames =>
    result.isSome ∧ FrameRel act frame ∧ frame.stack.length < maxStack ∧
      Waiting act.result acts frames
  | _, _, _ => False

def Sim : Wasm.Config → Config → Prop
  | .running act acts, .running frame frames =>
    (FrameRel act frame ∨ Settled act frame) ∧ Waiting act.result acts frames
  | .returned result, .finished (some (.ok value)) => result = none ∨ result = some value
  | .trapped, .finished (some (.error error)) => error = .trap ∨ error = .divisionByZero
  | _, _ => False

lemma waiting_length {result : Option ValType} {acts : List Activation}
    {frames : List Frame} (waiting : Waiting result acts frames) :
    acts.length = frames.length := by
  induction acts generalizing result frames with
  | nil =>
    cases frames with
    | nil => rfl
    | cons => exact waiting.elim
  | cons act acts ih =>
    cases frames with
    | nil => exact waiting.elim
    | cons frame frames => exact congrArg Nat.succ (ih waiting.2.2.2)

variable {byte : UInt8} {rest : List UInt8} {index : Nat} {next : Wasm.Code} {value : Word}

section Frame

variable {act : Activation} {frame : Frame}

lemma exec_cons (ahead : frame.rest = byte :: rest) :
    frame.exec = { frame with rest }.execute (opcode byte) := by
  simp only [exec, ahead]

lemma index_encoded {leb : List UInt8} (encoded : Leb128.Unsigned 32 leb index) :
    { frame with rest := leb ++ rest }.index = (index, { frame with rest }) := by
  simp only [Frame.index, ulebRaw_encoded encoded, drop_left]

section

variable (rel : FrameRel act frame)
include rel

lemma FrameRel.atBasic {instr : Basic} (here : act.code = .basic instr next) :
    ∃ bytes rest, frame.rest = bytes ++ rest ∧ instr.Encodes bytes ∧
      FrameRel { act with code := next } { frame with rest } := by
  obtain ⟨_, rest, encoded, after, split⟩ := rel.ahead
  rw [here] at encoded
  cases encoded with
  | @basic _ _ bytes tail first later =>
    rw [append_assoc] at split
    exact ⟨bytes, tail ++ rest, split, first, rel.locals, rel.stack, rel.small, tail, rest, later,
      after, rfl⟩

lemma FrameRel.atBare {instr : Bare} (here : act.code = .basic (.bare instr) next) :
    ∃ rest, frame.rest = instr.opcode :: rest ∧
      FrameRel { act with code := next } { frame with rest } := by
  obtain ⟨_, rest, split, ⟨⟩, after⟩ := rel.atBasic here
  exact ⟨rest, split, after⟩

lemma FrameRel.atIndexed {instr : Indexed} (here : act.code = .basic (.indexed instr index) next) :
    ∃ leb rest, frame.rest = instr.opcode :: (leb ++ rest) ∧ Leb128.Unsigned 32 leb index ∧
      FrameRel { act with code := next } { frame with rest } := by
  obtain ⟨_, rest, split, first, after⟩ := rel.atBasic here
  cases first with
  | @indexed _ _ leb number => exact ⟨leb, rest, split, number, after⟩

lemma FrameRel.atConst (here : act.code = .basic (.const value) next) :
    ∃ number leb rest, frame.rest = 0x41 :: (leb ++ rest) ∧ Leb128.Signed 32 leb number ∧
      value = BitVec.ofInt 32 number ∧
      FrameRel { act with code := next } { frame with rest } := by
  obtain ⟨_, rest, split, first, after⟩ := rel.atBasic here
  cases first with
  | @const number leb isNumber => exact ⟨number, leb, rest, split, isNumber, rfl, after⟩

lemma FrameRel.revalue (vals : List Word)
    (fits : (vals ++ act.labels.flatMap Label.below).length ≤ maxStack) :
    FrameRel { act with vals } { frame with stack := vals ++ act.labels.flatMap Label.below } :=
  ⟨rel.locals, rfl, fits, rel.ahead⟩

lemma FrameRel.fewer (vals : List Word) (shorter : vals.length ≤ act.vals.length) :
    FrameRel { act with vals } { frame with stack := vals ++ act.labels.flatMap Label.below } := by
  refine rel.revalue vals ?_
  have small := rel.small
  rw [rel.stack, flat, length_append] at small
  rw [length_append]
  omega

lemma FrameRel.setLocal (inside : index < act.locals.length) :
    FrameRel { act with locals := act.locals.set index value }
      { frame with locals := fun j => if j = index then value else frame.locals j } := by
  refine { rel with locals := fun i found there low => ?_ }
  simp only [getElem?_set] at there
  by_cases same : index = i
  · subst same
    simp only [if_true, inside, some.injEq] at there
    simpa using there
  simp only [same, if_false] at there
  have other : i ≠ index := fun equal => same equal.symm
  simp only [other, if_false]
  exact rel.locals i found there low

end

lemma sshiftRight_eq {x : Word} {k : Nat} (same : x.msb = false ∨ k = 0) :
    x.sshiftRight k = x >>> k := by
  rcases same with positive | rfl
  · exact BitVec.sshiftRight_eq_of_msb_false positive
  · simp

lemma execute_binop (frame : Frame) {op : Binop} {x y : Word} {stack : List Word}
    (exact_ : Exact op x y) (shape : frame.stack = y :: x :: stack)
    (room : stack.length < maxStack) :
    frame.execute (ofBinop op) = match op.eval x y with
      | some value => .next { frame with stack := value :: stack }
      | none => .done (.error .divisionByZero) := by
  have pushed : ∀ value, { frame with stack }.push value =
      .next { frame with stack := value :: stack } := by
    intro value
    simp only [push, Nat.not_le.2 room, if_false]
  have popped : ∀ after, frame.pop2 after = after x y { frame with stack } := by
    intro after
    simp only [pop2, pop, shape]
  cases op with
  | divS =>
    simp only [ofBinop, execute, popped, Binop.eval]
    by_cases zero : y = 0
    · simp only [zero, if_true]
    · have whole : ¬ (x = BitVec.intMin 32 ∧ y = -1) := exact_
      simp only [zero, if_false, whole, pushed]
  | shrS | shrU =>
    simp only [ofBinop, execute, popped, pushed, Binop.eval, apply, sshiftRight_eq exact_]
  | eq | ne | ltS | gtS | leS | geS =>
    simp only [ofBinop, execute, popped, pushed, Binop.eval, apply]
    rfl
  | _ => simp only [ofBinop, execute, popped, pushed, Binop.eval, apply]

end Frame

variable {m : Wasm.Module}

section Steps

variable (sandbox : Sandbox)

def Follows (config : Wasm.Config) (start : Config) : Prop :=
  ∃ n, Sim config (sandbox.step^[n] start)

variable {sandbox} {act after : Activation} {acts : List Activation} {frame : Frame}
  {frames : List Frame} {config : Wasm.Config} {carries : Option ValType}

lemma follows_next {next : Frame} (executed : frame.exec = .next next)
    (rel : FrameRel after next) (waiting : Waiting after.result acts frames) :
    Follows sandbox (.running after acts) (.running frame frames) := by
  refine ⟨1, ?_⟩
  simp only [iterate_one, step, executed]
  exact ⟨.inl rel, waiting⟩

lemma follows_trap {error : WasmError} (executed : frame.exec = .done (.error error))
    (isTrap : error = .trap ∨ error = .divisionByZero) :
    Follows sandbox .trapped (.running frame frames) := by
  refine ⟨1, ?_⟩
  simp only [iterate_one, step, executed, deliver_error]
  exact isTrap

lemma follows_leave (executed : frame.exec = .done (.ok ((flat act).head?.getD 0)))
    (waiting : Waiting act.result acts frames) (left : act.leave acts = some config) :
    Follows sandbox config (.running frame frames) := by
  refine ⟨1, ?_⟩
  simp only [iterate_one, step, executed]
  cases acts with
  | nil =>
    cases frames with
    | cons => exact waiting.elim
    | nil =>
      cases result : act.result with
      | none =>
        simp only [Activation.leave, result, carried, some.injEq] at left
        subst left
        exact .inl rfl
      | some type =>
        cases shape : act.vals with
        | nil => simp [Activation.leave, result, shape, carried] at left
        | cons value vals =>
          simp only [Activation.leave, result, shape, carried, some.injEq] at left
          subst left
          refine .inr ?_
          simp [flat, shape]
  | cons caller acts =>
    cases frames with
    | nil => exact waiting.elim
    | cons waiter frames =>
      obtain ⟨isSome, rel, room, others⟩ := waiting
      obtain ⟨type, result⟩ := isSome_iff_exists.1 isSome
      cases shape : act.vals with
      | nil => simp [Activation.leave, result, shape, carried] at left
      | cons value vals =>
        simp only [Activation.leave, result, shape, carried, some.injEq] at left
        subst left
        have pushed : value :: waiter.stack =
            (value :: caller.vals) ++ caller.labels.flatMap Label.below := by
          rw [rel.stack, flat, cons_append]
        have top : (flat act).head?.getD 0 = value := by simp [flat, shape]
        simp only [deliver, top, pushed]
        refine ⟨.inl (rel.revalue (value :: caller.vals) ?_), others⟩
        rw [← pushed]
        exact room

lemma follows_bare (rel : FrameRel act frame) (waiting : Waiting act.result acts frames)
    {instr : Bare} (here : act.code = .basic (.bare instr) next)
    (handled : ∀ op, instr = .binary op → ∀ x y vals, act.vals = y :: x :: vals → Exact op x y)
    (stepped : Module.stepBare { act with code := next } acts instr = some config) :
    Follows sandbox config (.running frame frames) := by
  obtain ⟨rest, ahead, rel⟩ := rel.atBare here
  have executed := exec_cons ahead
  rw [opcode_bare] at executed
  have stack : frame.stack = act.vals ++ act.labels.flatMap Label.below := rel.stack
  cases instr with
  | unreachable =>
    cases stepped
    exact follows_trap executed (.inl rfl)
  | nop =>
    cases stepped
    exact follows_next executed rel waiting
  | drop =>
    cases shape : act.vals with
    | nil => simp [Module.stepBare, shape] at stepped
    | cons value vals =>
      simp only [Module.stepBare, shape, some.injEq] at stepped
      subst stepped
      refine follows_next ?_ (rel.fewer _ (by simp [shape])) waiting
      simp only [executed, ofBare, execute, pop, stack, shape, cons_append]
  | select =>
    obtain ⟨c, y, x, vals, shape⟩ : ∃ c y x vals, act.vals = c :: y :: x :: vals := by
      rcases shape : act.vals with _ | ⟨c, _ | ⟨y, _ | ⟨x, vals⟩⟩⟩ <;>
        simp [Module.stepBare, shape] at stepped ⊢
    simp only [Module.stepBare, shape, some.injEq] at stepped
    subst stepped
    have related := rel.fewer ((if c ≠ 0 then x else y) :: vals) (by simp [shape])
    refine follows_next ?_ related waiting
    have room : ¬ (vals ++ act.labels.flatMap Label.below).length ≥ maxStack :=
      Nat.not_le.2 related.small
    simp only [executed, ofBare, execute, pop, pop2, stack, shape,
      cons_append, push, room, if_false]
  | ret =>
    refine follows_leave ?_ waiting stepped
    rw [executed]
    rw [stack]
    rfl
  | eqz =>
    cases shape : act.vals with
    | nil => simp [Module.stepBare, shape] at stepped
    | cons x vals =>
      simp only [Module.stepBare, shape, some.injEq] at stepped
      subst stepped
      have related := rel.fewer (ofBool (x == 0) :: vals) (by simp [shape])
      refine follows_next ?_ related waiting
      have room : ¬ (vals ++ act.labels.flatMap Label.below).length ≥ maxStack :=
        Nat.not_le.2 related.small
      simp only [executed, ofBare, execute, pop, stack, shape, cons_append, push, room, if_false]
  | binary op =>
    obtain ⟨y, x, vals, shape⟩ : ∃ y x vals, act.vals = y :: x :: vals := by
      rcases shape : act.vals with _ | ⟨y, _ | ⟨x, vals⟩⟩ <;>
        simp [Module.stepBare, shape] at stepped ⊢
    simp only [Module.stepBare, shape] at stepped
    have below : (vals ++ act.labels.flatMap Label.below).length < maxStack :=
      (rel.fewer (x :: vals) (by simp [shape])).small
    have computed := execute_binop { frame with rest }
      (handled op rfl x y vals shape) (by simp only [stack, shape, cons_append]) below
    cases value : op.eval x y with
    | none =>
      rw [value] at computed stepped
      cases stepped
      exact follows_trap (executed.trans computed) (.inr rfl)
    | some value' =>
      rw [value] at computed stepped
      cases stepped
      exact follows_next (executed.trans computed) (rel.fewer _ (by simp [shape])) waiting

lemma follows_branch {n : Nat} (executed : frame.exec = .done (.ok ((flat act).head?.getD 0)))
    (waiting : Waiting act.result acts frames) (leaves : Leaves act n)
    (branched : act.branch n acts = some config) :
    Follows sandbox config (.running frame frames) := by
  cases target : act.labels[n]? with
  | none =>
    simp only [Activation.branch, target] at branched
    split at branched
    · exact follows_leave executed waiting branched
    · cases branched
  | some label =>
    cases carries : carried label.carries act.vals with
    | none => simp [Activation.branch, target, carries] at branched
    | some results =>
      simp only [Activation.branch, target, carries, some.injEq] at branched
      subst branched
      obtain ⟨done, ends, top⟩ := leaves label results target carries
      exact ⟨0, .inr ⟨done, ends, by rw [executed, ← top]; rfl⟩, waiting⟩

lemma funcType_import {host : Import}
    (found : m.imports[index]? = some host) : m.funcType index = some host.type := by
  obtain ⟨inside, rfl⟩ := List.getElem?_eq_some_iff.1 found
  simp [Module.funcType, getElem?_append_left, inside]

lemma funcType_defined {func : Func} (outside : m.imports[index]? = none)
    (found : m.funcs[index - m.imports.length]? = some func) :
    m.funcType index = some func.type := by
  rw [Module.funcType, getElem?_append_right (by simpa using outside)]
  simp [found]

lemma enter_defined (represents : Represents sandbox m)
    {func : Func} (outside : m.imports[index]? = none)
    (found : m.funcs[index - m.imports.length]? = some func) (args : List Word)
    (room : frames.length < maxCallDepth) :
    ∃ frame, sandbox.enter index args frames = .running frame frames ∧
      FrameRel (Module.startActivation func args) frame := by
  have imported : ¬ index < sandbox.importFuncCount := by
    rw [represents.imports]
    exact Nat.not_lt.2 (getElem?_eq_none_iff.1 outside)
  obtain ⟨_, code, isBody, sliced, encoded⟩ := represents.funcs _ func found
  rw [← represents.imports] at isBody
  refine ⟨startFrame code args, ?_, ?_, rfl, Nat.zero_le _, code, [], encoded, rfl, ?_⟩
  · simp only [enter, Nat.not_le.2 room, if_false, imported, isBody, sliced]
  · intro i value there low
    simp only [Module.startActivation, startFrame, low, if_true] at there ⊢
    rw [getElem?_append] at there
    split at there
    · rw [getD_eq_getElem?_getD, there]
      rfl
    rename_i outside
    have zero : value = 0 := eq_of_mem_replicate (mem_of_getElem? there)
    rw [getD_eq_getElem?_getD, getElem?_eq_none (Nat.le_of_not_lt outside), zero]
    rfl
  · simp [startFrame]

lemma follows_call (represents : Represents sandbox m)
    (rel : FrameRel act frame) (waiting : Waiting act.result acts frames)
    (handled : HandledIndexed m act acts index .call)
    (stepped : m.stepCall act acts index = some config) :
    Follows sandbox config (.entering index [] (frame :: frames)) := by
  obtain ⟨room, shallow, types⟩ := handled
  have deep : (frame :: frames).length < maxCallDepth := by
    rw [length_cons, ← waiting_length waiting]
    exact shallow
  have small : frame.stack.length < maxStack := rel.stack ▸ room
  cases imported : m.imports[index]? with
  | some host =>
    obtain ⟨noParams, returns⟩ := types host.type (funcType_import imported)
    obtain ⟨type, isType⟩ := isSome_iff_exists.1 returns
    obtain ⟨inside, rfl⟩ := List.getElem?_eq_some_iff.1 imported
    have answer := represents.answers _ (getElem_mem inside) []
    simp only [Module.stepCall, imported, noParams, length_nil, Nat.zero_le, if_true,
      take_zero, reverse_nil, answer, isType, map_some, toList_some,
      drop_zero, some.injEq] at stepped
    subst stepped
    refine ⟨1, ?_⟩
    have pushed : (0 : Word) :: frame.stack =
        (0 :: act.vals) ++ act.labels.flatMap Label.below := by
      rw [rel.stack, flat, cons_append]
    have known : index < sandbox.importFuncCount := represents.imports ▸ inside
    simp only [iterate_one, step, enter, Nat.not_le.2 deep, if_false,
      known, if_true, deliver, dispatchHost, pushed]
    refine ⟨.inl (rel.revalue (0 :: act.vals) ?_), waiting⟩
    rw [← pushed]
    exact small
  | none =>
    cases found : m.funcs[index - m.imports.length]? with
    | none => simp [Module.stepCall, imported, found] at stepped
    | some func =>
      obtain ⟨noParams, returns⟩ := types func.type (funcType_defined imported found)
      simp only [Module.stepCall, imported, found, noParams, length_nil, Nat.zero_le,
        if_true, take_zero, reverse_nil, drop_zero, some.injEq] at stepped
      subst stepped
      obtain ⟨_, entered, related⟩ := enter_defined represents imported found [] deep
      refine ⟨1, ?_⟩
      simp only [iterate_one, step, entered]
      exact ⟨.inl related, returns, rel, small, waiting⟩

lemma follows_indexed (represents : Represents sandbox m)
    (rel : FrameRel act frame) (waiting : Waiting act.result acts frames)
    {instr : Indexed}
    (here : act.code = .basic (.indexed instr index) next)
    (handled : HandledIndexed m act acts index instr)
    (stepped : m.stepIndexed { act with code := next } acts index instr = some config) :
    Follows sandbox config (.running frame frames) := by
  obtain ⟨leb, rest, ahead, number, rel⟩ := rel.atIndexed here
  have executed := exec_cons ahead
  rw [opcode_indexed] at executed
  have indexed : { frame with rest := leb ++ rest }.index = (index, { frame with rest }) :=
    index_encoded number
  have stack : frame.stack = act.vals ++ act.labels.flatMap Label.below := rel.stack
  cases instr with
  | br =>
    refine follows_branch ?_ waiting handled stepped
    rw [executed]
    rw [stack]
    rfl
  | brIf =>
    cases shape : act.vals with
    | nil => simp [Module.stepIndexed, shape] at stepped
    | cons c vals =>
      simp only [Module.stepIndexed, shape] at stepped
      by_cases zero : c = 0
      · simp only [zero, if_true, some.injEq] at stepped
        subst stepped
        refine follows_next ?_ (rel.fewer vals (by simp [shape])) waiting
        simp only [executed, ofIndexed, execute, indexed]
        simp only [pop, stack, shape, cons_append, zero, if_true]
      simp only [zero, if_false] at stepped
      have leaves : Leaves { act with code := next, vals } index := handled c vals shape zero
      have waits : Waiting ({ act with code := next, vals } : Activation).result acts
        frames := waiting
      refine follows_branch ?_ waits leaves stepped
      simp only [executed, ofIndexed, execute, indexed]
      simp only [pop, stack, shape, cons_append, zero, if_false, result]
      rfl
  | call =>
    have room : ¬ frame.stack.length ≥ maxStack := by
      rw [stack]
      exact Nat.not_le.2 handled.1
    have called : frame.exec = .call index { frame with rest } := by
      simp only [executed, ofIndexed, execute, indexed, room, if_false]
    obtain ⟨n, related⟩ := follows_call represents rel waiting handled stepped
    refine ⟨n + 1, ?_⟩
    simpa only [iterate_succ_apply, step, called] using related
  | localGet =>
    cases there : act.locals[index]? with
    | none => simp [Module.stepIndexed, there] at stepped
    | some value =>
      simp only [Module.stepIndexed, there, some.injEq] at stepped
      subst stepped
      have room : ¬ (act.vals ++ act.labels.flatMap Label.below).length ≥ maxStack :=
        Nat.not_le.2 handled.2
      refine follows_next ?_ (rel.revalue (value :: act.vals) handled.2) waiting
      have isValue : frame.locals index = value := rel.locals index value there handled.1
      simp only [executed, ofIndexed, execute, indexed]
      simp only [stack, room, if_false, handled.1, if_true, push, isValue, cons_append]
  | localSet | localTee =>
    cases shape : act.vals with
    | nil => simp [Module.stepIndexed, shape] at stepped
    | cons value vals =>
      simp only [Module.stepIndexed, shape] at stepped
      obtain ⟨inside, rfl⟩ := of_guard stepped
      have low : index < maxLocals := handled
      refine follows_next ?_ ((rel.fewer _ (by simp [shape])).setLocal inside) waiting
      simp only [executed, ofIndexed, execute, indexed]
      simp only [pop, stack, shape, cons_append, setLocal, low, if_true]

lemma follows_const (rel : FrameRel act frame) (waiting : Waiting act.result acts frames)
    (here : act.code = .basic (.const value) next)
    (room : (flat act).length < maxStack) :
    Follows sandbox (.running { act with vals := value :: act.vals, code := next } acts)
      (.running frame frames) := by
  obtain ⟨_, _, _, ahead, isNumber, rfl, rel⟩ := rel.atConst here
  have stack : frame.stack = act.vals ++ act.labels.flatMap Label.below := rel.stack
  have open_ : ¬ (act.vals ++ act.labels.flatMap Label.below).length ≥ maxStack := Nat.not_le.2 room
  refine follows_next ?_ (rel.revalue (_ :: act.vals) room) waiting
  rw [exec_cons ahead, opcode_const]
  simp only [execute, slebRaw_encoded isNumber, drop_left, push, stack, open_,
    if_false, cons_append]

lemma after_closed {labels : List Label} {target : Code} {below : List Word} {later : List UInt8}
    (isNext : next.Encodes later) (after : After labels rest) :
    After (({ carries, target, next, below, ending := .closed } : Label) :: labels)
      (0x0b :: (later ++ rest)) :=
  ⟨later, rest, isNext, after, rfl⟩

lemma FrameRel.within (rel : FrameRel act frame)
    {target body : Code} {ending : Ending} {bytes : List UInt8} (encoded : body.Encodes bytes)
    (after : After (({ carries, target, next, below := act.vals, ending } : Label) :: act.labels)
      rest) :
    FrameRel (act.within carries target next body ending) { frame with rest := bytes ++ rest } :=
  ⟨rel.locals, rel.stack, rel.small, bytes, rest, encoded, after, rfl⟩

lemma follows_end (rel : FrameRel act frame ∨ Settled act frame)
    (waiting : Waiting act.result acts frames) (done : act.code = .done) {label : Label}
    {labels : List Label} (shape : act.labels = label :: labels)
    (handled : label.ending = .closed → Ends (label :: labels)) :
    Follows sandbox
      (.running { act with vals := act.vals ++ label.below, code := label.next, labels } acts)
      (.running frame frames) := by
  have same : flat { act with vals := act.vals ++ label.below, code := label.next, labels } =
      flat act := by
    simp only [flat, shape, flatMap_cons, append_assoc]
  -- Once nothing follows, the interpreter stays where it will return.
  have settle : Ends (label :: labels) → frame.exec = .done (.ok ((flat act).head?.getD 0)) →
      Follows sandbox
        (.running { act with vals := act.vals ++ label.below, code := label.next, labels } acts)
        (.running frame frames) := by
    intro ends returns
    refine ⟨0, .inr ⟨ends label mem_cons_self, ?_, ?_⟩, waiting⟩
    · exact fun other member => ends other (mem_cons_of_mem _ member)
    · rw [same, returns]
  rcases rel with rel | settled
  · obtain ⟨_, rest, encoded, after, split⟩ := rel.ahead
    rw [done] at encoded
    cases encoded
    rw [shape] at after
    obtain ⟨next, rest', isNext, later, written⟩ := after
    cases ending : label.ending with
    | closed =>
      simp only [ending] at written
      refine settle (handled ending) ?_
      rw [exec_cons (split.trans written), opcode_end]
      simp only [execute, result]
      rw [rel.stack]
    | beforeElse =>
      simp only [ending] at written
      obtain ⟨_, other, isOther, written⟩ := written
      have moved : FrameRel
          { act with vals := act.vals ++ label.below, code := label.next, labels }
          { frame with rest := next ++ rest' } :=
        ⟨rel.locals, rel.stack.trans same.symm, rel.small, next, rest', isNext, later, rfl⟩
      refine follows_next ?_ moved waiting
      rw [exec_cons (split.trans written), opcode_else]
      simp only [execute, skipEnd, skipElseOrEnd_end isOther]
    | absent =>
      simp only [ending] at written
      exact ⟨0, .inl ⟨rel.locals, rel.stack.trans same.symm, rel.small, next, rest', isNext,
        later, split.trans written⟩, waiting⟩
  · exact settle (shape ▸ settled.ends) settled.returns

section

variable (rel : FrameRel act frame)
include rel

lemma follows_block (waiting : Waiting act.result acts frames)
    {opening : UInt8} {op : Opcode} (isOpening : opcode opening = op)
    (opens : op = .block ∨ op = .loop)
    {target body : Code} {bytes later : List UInt8} (encoded : body.Encodes bytes)
    (isNext : next.Encodes later) (after : After act.labels rest)
    (ahead : frame.rest = opening :: byte :: (bytes ++ 0x0b :: later) ++ rest) :
    Follows sandbox (.running (act.within carries target next body .closed) acts)
      (.running frame frames) := by
  refine follows_next ?_ (rel.within encoded (after_closed isNext after)) waiting
  simp only [cons_append, append_assoc] at ahead
  rw [exec_cons ahead, isOpening]
  rcases opens with rfl | rfl
  · rfl
  · rfl

lemma exec_if {c : Word} {vals : List Word} (ahead : frame.rest = 0x04 :: byte :: rest)
    (shape : act.vals = c :: vals) :
    frame.exec = .next
      { frame with
        rest := if c = 0 then skipElseOrEnd rest else rest
        stack := vals ++ act.labels.flatMap Label.below } := by
  have stack : frame.stack = c :: (vals ++ act.labels.flatMap Label.below) := by
    rw [rel.stack, flat, shape, cons_append]
  rw [exec_cons ahead, opcode_if]
  simp only [execute, drop_one, tail_cons, pop, stack]
  split
  · rfl
  · rfl

lemma follows_ifThen (waiting : Waiting act.result acts frames) {yes : Code}
    (here : act.code = .ifThen yes next)
    (stepped : m.step (.running act acts) = some config) :
    Follows sandbox config (.running frame frames) := by
  obtain ⟨_, rest, encoded, after, split⟩ := rel.ahead
  rw [here] at encoded
  cases encoded with
  | @ifThen _ _ body later isYes isNext =>
    simp only [cons_append, append_assoc] at split
    cases shape : act.vals with
    | nil => simp [Module.step, here, shape] at stepped
    | cons c vals =>
      have fewer := rel.fewer vals (by simp [shape])
      have executed := exec_if rel split shape
      simp only [Module.step, here, shape] at stepped
      by_cases zero : c = 0
      · simp only [zero, if_true, some.injEq] at stepped executed
        subst stepped
        refine follows_next ?_ (fewer.within .done ⟨later, rest, isNext, after, rfl⟩) waiting
        rw [executed, skipElseOrEnd_end isYes]
        rfl
      simp only [zero, if_false, some.injEq] at stepped executed
      subst stepped
      exact follows_next executed (fewer.within isYes (after_closed isNext after)) waiting

lemma follows_ifElse (waiting : Waiting act.result acts frames) {type : Option ValType}
    {yes no : Code}
    (here : act.code = .ifElse type yes no next)
    (stepped : m.step (.running act acts) = some config) :
    Follows sandbox config (.running frame frames) := by
  obtain ⟨_, rest, encoded, after, split⟩ := rel.ahead
  rw [here] at encoded
  cases encoded with
  | @ifElse _ _ _ _ body other later isYes isNo isNext =>
    simp only [cons_append, append_assoc] at split
    cases shape : act.vals with
    | nil => simp [Module.step, here, shape] at stepped
    | cons c vals =>
      have fewer := rel.fewer vals (by simp [shape])
      have executed := exec_if rel split shape
      simp only [Module.step, here, shape] at stepped
      by_cases zero : c = 0
      · simp only [zero, if_true, some.injEq] at stepped executed
        subst stepped
        refine follows_next ?_ (fewer.within isNo (after_closed isNext after)) waiting
        rw [executed, skipElseOrEnd_else isYes]
      simp only [zero, if_false, some.injEq] at stepped executed
      subst stepped
      refine follows_next executed (fewer.within isYes ?_) waiting
      exact ⟨later, rest, isNext, after, no, other, isNo, rfl⟩

end

end Steps

lemma sim_step {sandbox : Sandbox} (represents : Represents sandbox m)
    {config after : Wasm.Config} {start : Config} (sim : Sim config start)
    (handled : Handled m config) (stepped : m.step config = some after) :
    Follows sandbox after start := by
  cases config with
  | returned result => cases stepped
  | trapped => cases stepped
  | running act acts =>
    cases start with
    | entering => exact sim.elim
    | finished => exact sim.elim
    | running frame frames =>
      obtain ⟨rel, waiting⟩ := sim
      have going : ∀ {code}, act.code = code → code ≠ .done → FrameRel act frame :=
        fun here other => rel.resolve_right fun settled => other (here.symm.trans settled.done)
      cases here : act.code with
      | done =>
        cases shape : act.labels with
        | nil =>
          simp only [Module.step, here, shape] at stepped
          refine follows_leave ?_ waiting stepped
          rcases rel with rel | settled
          · obtain ⟨bytes, rest, encoded, later, split⟩ := rel.ahead
            rw [here] at encoded
            cases encoded
            rw [shape] at later
            rw [show rest = [] from later] at split
            simp only [exec, split, append_nil, result, rel.stack]
          · exact settled.returns
        | cons label labels =>
          simp only [Module.step, here, shape, some.injEq] at stepped
          subst stepped
          refine follows_end rel waiting here shape ?_
          simpa only [Handled, here, shape] using handled
      | basic instr next =>
        have rel := going here (by simp)
        cases instr with
        | bare instr =>
          refine follows_bare rel waiting here ?_
            (by simpa only [Module.step, here] using stepped)
          rintro _ rfl
          simpa only [Handled, here] using handled
        | indexed instr index =>
          exact follows_indexed represents rel waiting here
            (by simpa only [Handled, here] using handled)
            (by simpa only [Module.step, here] using stepped)
        | const value =>
          simp only [Module.step, here, some.injEq] at stepped
          subst stepped
          exact follows_const rel waiting here
            (by simpa only [Handled, here] using handled)
      | block type body next | loop type body next =>
        have rel := going here (by simp)
        simp only [Module.step, here, some.injEq] at stepped
        subst stepped
        obtain ⟨bytes, rest, encoded, later, split⟩ := rel.ahead
        rw [here] at encoded
        cases encoded
        rename_i isBody isNext
        refine follows_block rel waiting rfl ?_ isBody isNext later split
        simp [opcode_block, opcode_loop]
      | ifThen yes next => exact follows_ifThen (going here (by simp)) waiting here stepped
      | ifElse type yes no next => exact follows_ifElse (going here (by simp)) waiting here stepped

end OsCortex.WasmSandbox
