import OsCortex.Drivers.WasmParse
import OsCortex.Drivers.WasmSimulation

/-!
Whole calls: the value or the trap of the semantics, as long as the interpreter handles the steps.
-/

namespace OsCortex.WasmSandbox

open List Function Option Runs Sandbox Wasm
open Wasm (Word)

variable {sandbox : Sandbox} {m : Wasm.Module}

lemma new_represents {bytes : List UInt8}
    (encodes : m.Encodes bytes) (accepted : new bytes = some (.ok sandbox))
    (answers : ∀ host ∈ m.imports, ∀ args, host.answer args = host.type.result.map fun _ => 0) :
    Represents sandbox m := by
  obtain ⟨entries, exports, holds, few, isImports, isExports⟩ := holds_of_accepted encodes accepted
  refine ⟨?_, answers, ?_, ?_⟩
  · have small := Nat.lt_of_le_of_lt (length_filter_le id entries) few
    rw [holds.imports, Nat.mod_eq_of_lt small, isImports]
  · intro i func found
    obtain ⟨inside, rfl⟩ := List.getElem?_eq_some_iff.mp found
    have bodies := holds.funcs.length_eq
    obtain ⟨code, encoded, sliced⟩ := holds.funcs.get inside (bodies ▸ inside)
    exact ⟨_, code, getElem?_eq_getElem (bodies ▸ inside), sliced sandbox holds.raw, encoded⟩
  · rw [holds.exports, isExports, List.map_map]
    rfl

variable {index : Nat} {name : List UInt8}

lemma find_export {exports : List (List UInt8 × Nat)}
    (short : ∀ e ∈ exports, e.1.length ≤ 31) (found : exports.lookup name = some index) :
    (exports.map fun e => ({ name := e.1.take 31, funcIdx := e.2 } : Export)).find?
      (fun e => e.name == name) = some ⟨name, index⟩ := by
  induction exports with
  | nil => cases found
  | cons e exports ih =>
    obtain ⟨key, target⟩ := e
    have whole : key.take 31 = key := take_of_length_le (short (key, target) (by simp))
    have later := ih fun e member => short e (mem_cons_of_mem _ member)
    rw [lookup_cons] at found
    rw [map_cons, find?_cons, whole]
    by_cases same : key = name
    · simp only [same, beq_self_eq_true, some.injEq] at found ⊢
      rw [found]
    rw [beq_false_of_ne same]
    rw [beq_false_of_ne (Ne.symm same)] at found
    exact later found

variable {args : List Word}

lemma follows_invoke (represents : Represents sandbox m) {config : Wasm.Config}
    (invoked : m.invoke index args = some config) :
    Follows sandbox config (.entering index args []) := by
  unfold Module.invoke at invoked
  cases imported : m.imports[index]? with
  | some host =>
    obtain ⟨inside, isHost⟩ := List.getElem?_eq_some_iff.mp imported
    simp only [imported, ite_none_right_eq_some, some.injEq] at invoked
    obtain ⟨-, rfl⟩ := invoked
    refine ⟨1, ?_⟩
    rw [← represents.imports] at inside
    rw [represents.answers host (isHost ▸ getElem_mem _)]
    simp only [iterate_one, step, enter, inside, if_true]
    cases host.type.result with
    | none => exact .inl rfl
    | some type => exact .inr rfl
  | none =>
    cases defined : m.funcs[index - m.imports.length]? with
    | none => simp [imported, defined] at invoked
    | some func =>
      simp only [imported, defined, ite_none_right_eq_some, some.injEq] at invoked
      obtain ⟨-, rfl⟩ := invoked
      have room : ([] : List Frame).length < maxCallDepth := by decide
      obtain ⟨_, entered, rel⟩ := enter_defined represents imported defined args room
      refine ⟨1, ?_⟩
      rw [iterate_one, step, entered]
      exact ⟨.inl rel, trivial⟩

variable {config after : Wasm.Config}

lemma Follows.trans {start : Config} (follows : Follows sandbox config start)
    (further : ∀ later, Sim config later → Follows sandbox after later) :
    Follows sandbox after start := by
  obtain ⟨n, sim⟩ := follows
  obtain ⟨k, _⟩ := further _ sim
  exact ⟨k + n, by rwa [iterate_add_apply]⟩

def Prescribed (reply : Reply) : Wasm.Config → Prop
  | .running .. => True
  | .returned result => ∃ value, reply = some (.ok value) ∧ (result = none ∨ result = some value)
  | .trapped => reply = some (.error .trap) ∨ reply = some (.error .divisionByZero)

lemma prescribed_of_follows
    {config : Wasm.Config} (follows : Follows sandbox config (sandbox.begin name args)) :
    Prescribed (sandbox.call name args) config := by
  obtain ⟨n, sim⟩ := follows
  generalize reached : sandbox.step^[n] (sandbox.begin name args) = final at sim
  cases config with
  | running => trivial
  | returned result =>
    match final, sim with
    | .finished (some (.ok value)), same =>
      exact ⟨value, trace_finished_eq sandbox reached, same⟩
  | trapped =>
    match final, sim with
    | .finished (some (.error error)), isTrap =>
      rw [Prescribed, trace_finished_eq sandbox reached]
      rcases isTrap with rfl | rfl
      · exact .inl rfl
      · exact .inr rfl

theorem calls_as_prescribed {m : Wasm.Module} {bytes : List UInt8} {sandbox : Sandbox}
    (encodes : m.Encodes bytes) (accepted : new bytes = some (.ok sandbox))
    (answers : ∀ host ∈ m.imports, ∀ args, host.answer args = host.type.result.map fun _ => 0)
    (short : ∀ e ∈ m.exports, e.1.length ≤ 31) {name : List UInt8} {index : Nat}
    (exported : m.exports.lookup name = some index) {args : List Word} {config : Wasm.Config}
    (reached : (m.execution index args).Reachable (fun config _ => Handled m config) config) :
    Prescribed (sandbox.call name args) config := by
  have represents := new_represents encodes accepted answers
  have begins : sandbox.begin name args = .entering index args [] := by
    simp [begin, represents.exports, find_export short exported]
  apply prescribed_of_follows
  rw [begins]
  refine reached.invariant (fun config => follows_invoke represents) ?_
  intro config _ after follows handled stepped
  exact follows.trans fun later sim => sim_step represents sim handled stepped

lemma small_unsigned {byte : UInt8} (small : byte.toNat < 128) :
    Leb128.Unsigned 32 [byte] byte.toNat :=
  .last small (Nat.lt_trans small (by decide))

lemma sized_small {content : List UInt8} {size : UInt8} (small : size.toNat < 128)
    (isSize : size.toNat = content.length) : Sized content (size :: content) := by
  have encoded := small_unsigned small
  rw [isSize] at encoded
  exact .intro encoded

def constant (value : Word) : Wasm.Code := .basic (.const value) .done

def thunk (body : Wasm.Code) : Wasm.Func :=
  { type := { params := [], result := some .i32 }, locals := [], body }

lemma code_entry {func : Func} {bytes : List UInt8} {size : UInt8}
    (noLocals : func.locals = []) (encoded : func.body.Encodes bytes) (small : size.toNat < 128)
    (isSize : size.toNat = bytes.length + 2) :
    CodeEntry func (size :: 0x00 :: (bytes ++ [0x0b])) := by
  have groups : Vec LocalGroup [] [0x00] :=
    @Vec.intro _ _ [] [0x00] [] (small_unsigned (by decide)) .nil
  exact .intro groups noLocals encoded (sized_small small (by simp [isSize]))

/-! `block end; i32.const 5`, then `i32.const -8; i32.const 1; i32.shr_s`, and a call with the
argument 7 of a function that returns its argument. -/

def nested : Wasm.Code := .block none .done (.basic (.const 5) .done)

def shifted : Wasm.Code :=
  .basic (.const (-8)) (.basic (.const 1) (.basic (.bare (.binary .shrS)) .done))

def passing : Wasm.Code := .basic (.const 7) (.basic (.indexed .call 3) .done)

def identity : Wasm.Func :=
  { type := { params := [.i32], result := some .i32 }
    locals := []
    body := .basic (.indexed .localGet 0) .done }

def strayed : Wasm.Module :=
  { imports := []
    funcs := [thunk nested, thunk shifted, thunk passing, identity]
    exports := [([0x61], 0), ([0x62], 1), ([0x63], 2)] }

def strayedBytes : List UInt8 :=
  Wasm.preamble ++
    [0x01, 0x0a, 0x02, 0x60, 0x00, 0x01, 0x7f, 0x60, 0x01, 0x7f, 0x01, 0x7f] ++
    [0x03, 0x05, 0x04, 0x00, 0x00, 0x00, 0x01] ++
    [0x07, 0x0d, 0x03, 0x01, 0x61, 0x00, 0x00, 0x01, 0x62, 0x00, 0x01, 0x01, 0x63, 0x00, 0x02] ++
    [0x0a, 0x1d, 0x04, 0x07, 0x00, 0x02, 0x40, 0x0b, 0x41, 0x05, 0x0b,
      0x07, 0x00, 0x41, 0x78, 0x41, 0x01, 0x75, 0x0b,
      0x06, 0x00, 0x41, 0x07, 0x10, 0x03, 0x0b,
      0x04, 0x00, 0x20, 0x00, 0x0b]

lemma const_encodes {value : Word} {byte : UInt8} {next : Code} {rest : List UInt8}
    (encoded : next.Encodes rest) (small : byte.toNat < 64)
    (same : value = BitVec.ofInt 32 byte.toNat) :
    (Code.basic (.const value) next).Encodes (0x41 :: byte :: rest) := by
  have number : Leb128.Signed 32 [byte] byte.toNat :=
    .positive small (Nat.lt_trans small (by decide))
  rw [same]
  exact .basic (.const number) encoded

lemma indexed_encodes {instr : Indexed} {byte : UInt8} {next : Code}
    {rest : List UInt8} (encoded : next.Encodes rest) (small : byte.toNat < 128) :
    (Code.basic (.indexed instr byte.toNat) next).Encodes (instr.opcode :: byte :: rest) :=
  .basic (.indexed (small_unsigned small)) encoded

lemma nested_encodes : nested.Encodes [0x02, 0x40, 0x0b, 0x41, 0x05] :=
  .block .done (const_encodes .done (by decide) rfl)

lemma shifted_encodes : shifted.Encodes [0x41, 0x78, 0x41, 0x01, 0x75] := by
  have eight : Leb128.Signed 32 [0x78] (-8) := .negative (by decide) (by decide) (by decide)
  exact .basic (.const eight) (const_encodes (.basic .bare .done) (by decide) rfl)

lemma passing_encodes : passing.Encodes [0x41, 0x07, 0x10, 0x03] :=
  const_encodes (@indexed_encodes .call 3 _ _ .done (by decide)) (by decide) rfl

lemma identity_encodes : identity.body.Encodes [0x20, 0x00] :=
  @indexed_encodes .localGet 0 _ _ .done (by decide)

lemma export_entry {name index : UInt8} (small : index.toNat < 128) :
    ExportEntry ⟨[name], 0, index.toNat⟩ [0x01, name, 0x00, index] := by
  have sized : Sized [name] [0x01, name] := sized_small (by decide) rfl
  exact @ExportEntry.intro ⟨[name], 0, index.toNat⟩ _ _ sized (small_unsigned small)

lemma section_small {Item : Type} {id size count : UInt8} {Encodes : Item → List UInt8 → Prop}
    {items : List Item} {bytes : List UInt8} (encoded : Items Encodes items bytes)
    (few : count.toNat < 128) (isCount : count.toNat = items.length) (small : size.toNat < 128)
    (isSize : size.toNat = bytes.length + 1) :
    Section id Encodes items (id :: size :: count :: bytes) := by
  have number := small_unsigned few
  rw [isCount] at number
  exact .present (.intro number encoded) (sized_small small isSize)

lemma strayed_encodes : strayed.Encodes strayedBytes := by
  have types : Sized _ _ :=
    @sized_small [0x02, 0x60, 0x00, 0x01, 0x7f, 0x60, 0x01, 0x7f, 0x01, 0x7f] 0x0a (by decide) rfl
  have indices : Sized _ _ := @sized_small [0x04, 0x00, 0x00, 0x00, 0x01] 0x05 (by decide) rfl
  have others : Others _ :=
    @Others.cons 0x01 _ _ _ (by decide) (by decide) (by decide) types
      (@Others.cons 0x03 _ _ _ (by decide) (by decide) (by decide) indices .nil)
  have exports := Items.cons (@export_entry 0x61 0 (by decide))
    (.cons (@export_entry 0x62 1 (by decide)) (.cons (@export_entry 0x63 2 (by decide)) .nil))
  have code : Items CodeEntry strayed.funcs _ :=
    .cons (@code_entry _ _ 7 rfl nested_encodes (by decide) rfl)
      (.cons (@code_entry _ _ 7 rfl shifted_encodes (by decide) rfl)
        (.cons (@code_entry _ _ 6 rfl passing_encodes (by decide) rfl)
          (.cons (@code_entry _ _ 4 rfl identity_encodes (by decide) rfl) .nil)))
  exact .intro .nil .absent others
    (@section_small _ 7 0x0d 3 _ _ _ exports (by decide) rfl (by decide) rfl) .nil
    (@section_small _ 10 0x1d 4 _ _ _ code (by decide) rfl (by decide) rfl) .nil rfl rfl

lemma strayed_valid : strayed.Valid := by
  refine ⟨?_, ?_, by decide⟩
  · intro func member
    simp only [strayed, mem_cons, not_mem_nil, or_false] at member
    rcases member with rfl | rfl | rfl | rfl
    · exact .block .done (.const .done)
    · exact .const (.const (.bare .binary .done))
    · exact .const (.indexed (@Indexed.Types.call _ 3 identity.type [] rfl) .done)
    · exact .indexed (.localGet rfl) .done
  · decide

/-- The `end` of a block ends the function, `shr_s` fills with zeros, and a call passes no
arguments. -/
theorem valid_module_strays : strayed.Valid ∧ strayed.Encodes strayedBytes ∧ ∃ sandbox,
    new strayedBytes = some (.ok sandbox) ∧
    ∀ run ∈ ([([0x61], 0, 5, 0), ([0x62], 1, -4, 0x7ffffffc), ([0x63], 2, 7, 0)] :
      List (List UInt8 × Nat × Word × Word)),
      strayed.exports.lookup run.1 = some run.2.1 ∧
      (strayed.execution run.2.1 []).Reachable Runs.anyStep (.returned (some run.2.2.1)) ∧
      sandbox.call run.1 [] = some (.ok run.2.2.2) := by
  refine ⟨strayed_valid, strayed_encodes, _, rfl, ?_⟩
  intro run member
  simp only [mem_cons, not_mem_nil, or_false] at member
  rcases member with rfl | rfl | rfl
  iterate 2
    refine ⟨by decide, ?_, by decide +kernel⟩
    exact Machine.run_reachable (.start rfl) (show Machine.run _ _ [(), (), (), ()] = _ from rfl)
  refine ⟨by decide, ?_, by decide +kernel⟩
  exact Machine.run_reachable (.start rfl) (show Machine.run _ _ [(), (), (), (), ()] = _ from rfl)

def steady : Wasm.Module :=
  { imports := []
    funcs :=
      [{ type := { params := [.i32], result := some .i32 }
         locals := []
         body := .basic (.indexed .call 1) (.basic (.indexed .localGet 0)
           (.ifElse (some .i32) (constant 6) (constant 7) (.basic (.bare (.binary .add)) .done))) },
        thunk (constant 4)]
    exports := [([0x66], 0)] }

def steadyBytes : List UInt8 :=
  Wasm.preamble ++
    [0x01, 0x0a, 0x02, 0x60, 0x01, 0x7f, 0x01, 0x7f, 0x60, 0x00, 0x01, 0x7f] ++
    [0x03, 0x03, 0x02, 0x00, 0x01] ++
    [0x07, 0x05, 0x01, 0x01, 0x66, 0x00, 0x00] ++
    [0x0a, 0x16, 0x02, 0x0f, 0x00, 0x10, 0x01, 0x20, 0x00, 0x04, 0x7f, 0x41, 0x06, 0x05, 0x41, 0x07,
      0x0b, 0x6a, 0x0b, 0x04, 0x00, 0x41, 0x04, 0x0b]

lemma constant_encodes {value : Word} {byte : UInt8} (small : byte.toNat < 64)
    (same : value = BitVec.ofInt 32 byte.toNat) : (constant value).Encodes [0x41, byte] :=
  const_encodes .done small same

lemma steady_encodes : steady.Encodes steadyBytes := by
  have types : Sized _ _ :=
    @sized_small [0x02, 0x60, 0x01, 0x7f, 0x01, 0x7f, 0x60, 0x00, 0x01, 0x7f] 0x0a (by decide) rfl
  have indices : Sized _ _ := @sized_small [0x02, 0x00, 0x01] 0x03 (by decide) rfl
  have others : Others _ :=
    @Others.cons 0x01 _ _ _ (by decide) (by decide) (by decide) types
      (@Others.cons 0x03 _ _ _ (by decide) (by decide) (by decide) indices .nil)
  have exports := Items.cons (@export_entry 0x66 0 (by decide)) .nil
  have choice : Code.Encodes _ _ :=
    @Code.Encodes.ifElse (some .i32) _ _ _ _ _ _ (@constant_encodes 6 6 (by decide) rfl)
      (@constant_encodes 7 7 (by decide) rfl)
      (.basic (@Basic.Encodes.bare (.binary .add)) .done)
  have main := @indexed_encodes .call 1 _ _ (@indexed_encodes .localGet 0 _ _ choice (by decide))
    (by decide)
  have code : Items CodeEntry steady.funcs _ :=
    .cons (@code_entry _ _ 0x0f rfl main (by decide) rfl)
      (.cons (@code_entry _ _ 4 rfl (@constant_encodes 4 4 (by decide) rfl) (by decide) rfl) .nil)
  exact .intro .nil .absent others
    (@section_small _ 7 0x05 1 _ _ _ exports (by decide) rfl (by decide) rfl) .nil
    (@section_small _ 10 0x16 2 _ _ _ code (by decide) rfl (by decide) rfl) .nil rfl rfl

lemma handled_step
    (reached : (m.execution index args).Reachable (fun config _ => Handled m config) config)
    (handled : Handled m config) (stepped : m.step config = some after) :
    (m.execution index args).Reachable (fun config _ => Handled m config) after :=
  @Machine.Reachable.step _ _ _ _ _ () _ reached handled stepped

lemma steady_reaches : (steady.execution 0 [1]).Reachable (fun config _ => Handled steady config)
    (.returned (some 10)) := by
  have thunkCall : ∀ type, steady.funcType 1 = some type →
      type.params = [] ∧ type.result.isSome := by
    rintro _ ⟨⟩
    exact ⟨rfl, rfl⟩
  have start : (steady.execution 0 [1]).Reachable (fun config _ => Handled steady config) _ :=
    .start rfl
  have called := handled_step start ⟨by decide, by decide, thunkCall⟩ rfl
  have answered := handled_step (handled_step called (show _ < maxStack by decide) rfl) trivial rfl
  have asked := handled_step answered ⟨by decide, by decide⟩ rfl
  have chosen := handled_step (handled_step asked trivial rfl) (show _ < maxStack by decide) rfl
  have joined := handled_step chosen nofun rfl
  exact handled_step (handled_step joined (fun _ _ _ _ => trivial) rfl) trivial rfl

theorem steady_as_prescribed : ∃ sandbox, new steadyBytes = some (.ok sandbox) ∧
    Prescribed (sandbox.call [0x66] [1]) (.returned (some 10)) :=
  ⟨_, rfl, calls_as_prescribed steady_encodes rfl nofun (by decide) rfl steady_reaches⟩

/-- The skipping of the model stops where that of the source does: more fuel changes nothing. -/
theorem call_terminates (sandbox : Sandbox) (name : List UInt8) (args : List I32) :
    (∃ n, sandbox.trace name args n = .finished (sandbox.call name args)) ∧
      (∀ n, (sandbox.trace name args n).nesting ≤ maxCallDepth ∧
        ∀ frame callers, sandbox.trace name args n = .running frame callers →
          ∀ after func, frame.exec = .next after ∨ frame.exec = .call func after →
            after.rest.length < frame.rest.length) ∧
      ∀ rest depth fuel, rest.length ≤ fuel →
        skipFrom fuel rest depth = skipFrom rest.length rest depth := by
  refine ⟨trace_finishes sandbox name args, fun n => ⟨?_, fun _ _ _ _ _ => exec_advances⟩,
    fun rest depth fuel enough => skipFrom_eq_skip enough depth⟩
  induction n with
  | zero =>
    simp only [trace, iterate_zero, id_eq, begin]
    split
    all_goals exact Nat.zero_le _
  | succ n ih =>
    rw [trace, iterate_succ_apply']
    exact nesting_step sandbox ih

end OsCortex.WasmSandbox
