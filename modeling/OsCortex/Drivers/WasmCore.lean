import OsCortex.Lib.Outcome

/-!
The WebAssembly sandbox of `drivers/wasm_sandbox.rs`. `none` is a kernel panic: a slice or an array
index out of range. A position in the code is kept as the bytes from there on.
-/

namespace OsCortex.WasmSandbox

abbrev I32 := BitVec 32

def wasmMagic : List UInt8 := [0x00, 0x61, 0x73, 0x6d]
def wasmVersion : List UInt8 := [0x01, 0x00, 0x00, 0x00]

def maxStack : Nat := 256
def maxLocals : Nat := 64
def maxCallDepth : Nat := 16
def maxExports : Nat := 32
def maxFuncs : Nat := 128

inductive WasmError where
  | invalidMagic
  | invalidVersion
  | malformed
  | tooManyFunctions
  | tooManyExports
  | functionNotFound
  | stackOverflow
  | stackUnderflow
  | tooManyLocals
  | callDepthExceeded
  | divisionByZero
  | trap
  | unsupportedInstruction (opcode : UInt8)
  deriving DecidableEq

structure FuncBody where
  localCount : Nat
  codeStart : Nat
  codeEnd : Nat
  deriving DecidableEq

/-- `name` is the part of the name array that `name_len` covers. -/
structure Export where
  name : List UInt8
  funcIdx : Nat
  deriving DecidableEq

structure Sandbox where
  raw : List UInt8
  importFuncCount : Nat
  funcs : List FuncBody
  exports : List Export
  deriving DecidableEq

/-! LEB128 numbers, from the bytes at the position on: the value and the length read. -/

def ulebFrom : List UInt8 → Nat → Nat → Nat → Nat × Nat
  | [], _, _, _ => (0, 1)
  | byte :: rest, r, s, n =>
    let r := r ||| ((byte.toNat % 128) <<< s) % 2 ^ 32
    if byte.toNat < 128 ∨ s + 7 ≥ 35 then (r, n + 1) else ulebFrom rest r (s + 7) (n + 1)

def ulebRaw (bytes : List UInt8) : Nat × Nat := ulebFrom bytes 0 0 0

def slebFrom : List UInt8 → I32 → Nat → Nat → I32 × Nat
  | [], _, _, _ => (0, 1)
  | byte :: rest, r, s, n =>
    let r := r ||| BitVec.ofNat 32 (byte.toNat % 128) <<< s
    if byte.toNat < 128 then
      if s + 7 < 32 ∧ 64 ≤ byte.toNat then (r ||| BitVec.allOnes 32 <<< (s + 7), n + 1)
      else (r, n + 1)
    else if s + 7 ≥ 35 then (r, n + 1)
    else slebFrom rest r (s + 7) (n + 1)

def slebRaw (bytes : List UInt8) : I32 × Nat := slebFrom bytes 0 0 0

def Parser (Value : Type) := Nat → Outcome Nat WasmError Value

instance : Monad Parser where
  pure value := fun pos => .ok pos value
  bind parser next := fun pos => (parser pos).andThen fun pos value => next value pos

namespace Parser

variable (bytes : List UInt8)

def throw {Value : Type} (error : WasmError) : Parser Value := fun pos => .fail pos error

def position : Parser Nat := fun pos => .ok pos pos

def moveTo (target : Nat) : Parser Unit := fun _ => .ok target ()

def rb : Parser UInt8 := fun pos =>
  match bytes[pos]? with
  | some byte => .ok (pos + 1) byte
  | none => .fail pos .malformed

def uleb : Parser Nat := fun pos =>
  let (value, n) := ulebRaw (bytes.drop pos)
  .ok (pos + n) value

def skip (count : Nat) : Parser Unit := fun pos => .ok (pos + count) ()

def slice (start stop : Nat) : Parser (List UInt8) := fun pos =>
  if start ≤ stop ∧ stop ≤ bytes.length then .ok pos ((bytes.drop start).take (stop - start))
  else none

def times {Value : Type} (body : Value → Parser Value) : Nat → Value → Parser Value
  | 0, value => pure value
  | count + 1, value => do
      let value ← body value
      times body count value

def skipLimits : Parser Unit := do
  let flags ← uleb bytes
  let _ ← uleb bytes
  if flags % 2 ≠ 0 then
    let _ ← uleb bytes

variable (sandbox : Sandbox)

def importEntry : Parser Sandbox := do
  let mlen ← uleb bytes
  skip mlen
  let flen ← uleb bytes
  skip flen
  let kind ← rb bytes
  if kind = 0 then
    let _ ← uleb bytes
    return { sandbox with importFuncCount := (sandbox.importFuncCount + 1) % 2 ^ 32 }
  else if kind = 1 then
    let _ ← rb bytes
    skipLimits bytes
    return sandbox
  else if kind = 2 then
    skipLimits bytes
    return sandbox
  else if kind = 3 then
    let _ ← rb bytes
    let _ ← rb bytes
    return sandbox
  else throw .malformed

def exportEntry : Parser Sandbox := do
  let nlen ← uleb bytes
  let copy := min nlen 31
  let pos ← position
  if pos + nlen > bytes.length then throw .malformed
  else
    let name ← slice bytes pos (pos + copy)
    skip nlen
    let kind ← rb bytes
    let idx ← uleb bytes
    if kind = 0 then
      return { sandbox with exports := sandbox.exports ++ [{ name, funcIdx := idx }] }
    else return sandbox

def localGroup (locals : Nat) : Parser Nat := do
  let count ← uleb bytes
  let _ ← rb bytes
  return (locals + count) % 2 ^ 32

def codeEntry : Parser Sandbox := do
  let bodySize ← uleb bytes
  let pos ← position
  let bodyEnd := pos + bodySize
  let ldcount ← uleb bytes
  let locals ← times (localGroup bytes) ldcount 0
  if locals > maxLocals then throw .tooManyLocals
  else
    let codeStart ← position
    let body : FuncBody := { localCount := locals, codeStart, codeEnd := bodyEnd - 1 }
    moveTo bodyEnd
    return { sandbox with funcs := sandbox.funcs ++ [body] }

def sectionBody (sectionId : UInt8) (sandbox : Sandbox) : Parser Sandbox := do
  if sectionId = 2 then
    let count ← uleb bytes
    times (importEntry bytes) count sandbox
  else if sectionId = 7 then
    let count ← uleb bytes
    if count > maxExports then throw .tooManyExports
    else times (exportEntry bytes) count sandbox
  else if sectionId = 10 then
    let count ← uleb bytes
    if count > maxFuncs then throw .tooManyFunctions
    else times (codeEntry bytes) count sandbox
  else return sandbox

def oneSection : Parser Sandbox := do
  let sectionId ← rb bytes
  let sectionSize ← uleb bytes
  let pos ← position
  let sectionEnd := pos + sectionSize
  if sectionEnd > bytes.length then throw .malformed
  else
    let sandbox ← sectionBody bytes sectionId sandbox
    let pos ← position
    moveTo (max pos sectionEnd)
    return sandbox

def sections : Nat → Sandbox → Parser Sandbox
  | 0, sandbox => pure sandbox
  | fuel + 1, sandbox => do
      let pos ← position
      if pos < bytes.length then
        let sandbox ← oneSection bytes sandbox
        sections fuel sandbox
      else return sandbox

end Parser

def new (bytes : List UInt8) : Option (Except WasmError Sandbox) :=
  if bytes.length < 8 then some (.error .invalidMagic)
  else if bytes.take 4 ≠ wasmMagic then some (.error .invalidMagic)
  else if (bytes.drop 4).take 4 ≠ wasmVersion then some (.error .invalidVersion)
  else
    let sandbox : Sandbox := { raw := bytes, importFuncCount := 0, funcs := [], exports := [] }
    (Parser.sections bytes bytes.length sandbox 8).map Prod.snd

/-- The instructions with two operands that only push their result, under the names of their
comments in the source. -/
inductive Operator where
  | eq | ne | ltS | gtS | leS | geS | add | sub | mul | and | or | xor | shl | shrU | shrS
  deriving DecidableEq

def ofBool (condition : Bool) : I32 := if condition then 1 else 0

def Operator.apply (op : Operator) (a b : I32) : I32 :=
  match op with
  | .eq => ofBool (a == b)
  | .ne => ofBool (a != b)
  | .ltS => ofBool (a.slt b)
  | .gtS => ofBool (b.slt a)
  | .leS => ofBool (a.sle b)
  | .geS => ofBool (b.sle a)
  | .add => a + b
  | .sub => a - b
  | .mul => a * b
  | .and => a &&& b
  | .or => a ||| b
  | .xor => a ^^^ b
  | .shl => a <<< (b.toNat % 32)
  | .shrU => a >>> (b.toNat % 32)
  | .shrS => a.sshiftRight (b.toNat % 32)

inductive Opcode where
  | unreachable | nop | drop | select | endOp | returnOp | call
  | localGet | localSet | localTee | i32Const | eqz | divS
  | binary (op : Operator)
  | block | loop | ifOp | elseOp | br | brIf
  | other (byte : UInt8)
  deriving DecidableEq

def opcodes : List (UInt8 × Opcode) :=
  [(0x00, .unreachable), (0x01, .nop), (0x1a, .drop), (0x1b, .select), (0x0b, .endOp),
    (0x0f, .returnOp), (0x10, .call), (0x20, .localGet), (0x21, .localSet), (0x22, .localTee),
    (0x41, .i32Const), (0x45, .eqz), (0x46, .binary .eq), (0x47, .binary .ne),
    (0x48, .binary .ltS), (0x4a, .binary .gtS), (0x4c, .binary .leS), (0x4e, .binary .geS),
    (0x6a, .binary .add), (0x6b, .binary .sub), (0x6c, .binary .mul), (0x6d, .divS),
    (0x71, .binary .and), (0x72, .binary .or), (0x73, .binary .xor), (0x74, .binary .shl),
    (0x75, .binary .shrU), (0x76, .binary .shrS), (0x02, .block), (0x03, .loop), (0x04, .ifOp),
    (0x05, .elseOp), (0x0c, .br), (0x0d, .brIf)]

def opcode (byte : UInt8) : Opcode := (opcodes.lookup byte).getD (.other byte)

def skipFrom : Nat → List UInt8 → Nat → List UInt8
  | 0, rest, _ => rest
  | _ + 1, [], _ => []
  | fuel + 1, byte :: rest, depth =>
    match opcode byte with
    | .block | .loop | .ifOp => skipFrom fuel (rest.drop 1) (depth + 1)
    | .elseOp => if depth = 0 then rest else skipFrom fuel rest depth
    | .endOp => if depth = 0 then rest else skipFrom fuel rest (depth - 1)
    | .call | .br | .brIf | .localGet | .localSet | .localTee =>
      skipFrom fuel (rest.drop (ulebRaw rest).2) depth
    | .i32Const => skipFrom fuel (rest.drop (slebRaw rest).2) depth
    | _ => skipFrom fuel rest depth

def skipElseOrEnd (rest : List UInt8) : List UInt8 := skipFrom rest.length rest 0

def skipEnd (rest : List UInt8) : List UInt8 := skipElseOrEnd rest

structure Frame where
  rest : List UInt8
  stack : List I32
  locals : Nat → I32

inductive Effect where
  | next (frame : Frame)
  | call (func : Nat) (frame : Frame)
  | done (result : Except WasmError I32)
  | panic

namespace Frame

variable (frame : Frame)

def push (value : I32) : Effect :=
  if frame.stack.length ≥ maxStack then .done (.error .stackOverflow)
  else .next { frame with stack := value :: frame.stack }

def pop (next : I32 → Frame → Effect) : Effect :=
  match frame.stack with
  | [] => .done (.error .stackUnderflow)
  | value :: stack => next value { frame with stack }

def pop2 (next : I32 → I32 → Frame → Effect) : Effect :=
  frame.pop fun b frame => frame.pop fun a frame => next a b frame

def result : Effect := .done (.ok (frame.stack.head?.getD 0))

def index : Nat × Frame :=
  let (value, n) := ulebRaw frame.rest
  (value, { frame with rest := frame.rest.drop n })

def setLocal (i : Nat) (value : I32) : Effect :=
  if i < maxLocals then
    .next { frame with locals := fun j => if j = i then value else frame.locals j }
  else .panic

/-- The instruction `op`; `frame` is at the byte after it. -/
def execute : Opcode → Effect
  | .unreachable => .done (.error .trap)
  | .nop => .next frame
  | .drop => frame.pop fun _ frame => .next frame
  | .select => frame.pop fun c frame => frame.pop2 fun a b frame =>
    frame.push (if c ≠ 0 then a else b)
  | .endOp => frame.result
  | .returnOp => frame.result
  | .call =>
    let (func, frame) := frame.index
    if frame.stack.length ≥ maxStack then .done (.error .stackOverflow) else .call func frame
  | .localGet =>
    let (i, frame) := frame.index
    if frame.stack.length ≥ maxStack then .done (.error .stackOverflow)
    else if i < maxLocals then frame.push (frame.locals i) else .panic
  | .localSet =>
    let (i, frame) := frame.index
    frame.pop fun value frame => frame.setLocal i value
  | .localTee =>
    let (i, frame) := frame.index
    match frame.stack with
    | [] => .done (.error .stackUnderflow)
    | value :: _ => frame.setLocal i value
  | .i32Const =>
    let (value, n) := slebRaw frame.rest
    push { frame with rest := frame.rest.drop n } value
  | .eqz => frame.pop fun a frame => frame.push (ofBool (a == 0))
  | .divS => frame.pop2 fun a b frame =>
    if b = 0 then .done (.error .divisionByZero) else frame.push (a.sdiv b)
  | .binary op => frame.pop2 fun a b frame => frame.push (op.apply a b)
  | .block | .loop => .next { frame with rest := frame.rest.drop 1 }
  | .ifOp => pop { frame with rest := frame.rest.drop 1 } fun condition frame =>
    if condition = 0 then .next { frame with rest := skipElseOrEnd frame.rest } else .next frame
  | .elseOp => .next { frame with rest := skipEnd frame.rest }
  | .br => frame.index.2.result
  | .brIf => frame.index.2.pop fun condition frame =>
    if condition = 0 then .next frame else frame.result
  | .other byte => .done (.error (.unsupportedInstruction byte))

def exec : Effect :=
  match frame.rest with
  | [] => frame.result
  | byte :: rest => execute { frame with rest } (opcode byte)

end Frame

abbrev Reply := Option (Except WasmError I32)

def runLoop (callee : Nat → Reply) : Nat → Frame → Reply
  | 0, frame => some (.ok (frame.stack.head?.getD 0))
  | fuel + 1, frame =>
    match frame.exec with
    | .next frame => runLoop callee fuel frame
    | .call func frame =>
      match callee func with
      | some (.ok value) => runLoop callee fuel { frame with stack := value :: frame.stack }
      | failed => failed
    | .done result => some result
    | .panic => none

def dispatchHost (_idx : Nat) : I32 := 0

namespace Sandbox

def code (sandbox : Sandbox) (body : FuncBody) : Option (List UInt8) :=
  let stop := min body.codeEnd sandbox.raw.length
  if body.codeStart ≤ stop then some ((sandbox.raw.take stop).drop body.codeStart) else none

def startFrame (code : List UInt8) (args : List I32) : Frame :=
  { rest := code, stack := [], locals := fun i => if i < maxLocals then args.getD i 0 else 0 }

def callFunc (sandbox : Sandbox) : Nat → Nat → List I32 → Reply
  | 0, _, _ => some (.error .callDepthExceeded)
  | left + 1, funcIdx, args =>
    if funcIdx < sandbox.importFuncCount then some (.ok (dispatchHost funcIdx))
    else
      match sandbox.funcs[funcIdx - sandbox.importFuncCount]? with
      | none => some (.error .functionNotFound)
      | some body =>
        match sandbox.code body with
        | none => none
        | some code =>
          runLoop (fun func => sandbox.callFunc left func []) code.length
            (startFrame code args)

def call (sandbox : Sandbox) (name : List UInt8) (args : List I32) : Reply :=
  match sandbox.exports.find? fun e => e.name == name with
  | none => some (.error .functionNotFound)
  | some e => sandbox.callFunc maxCallDepth e.funcIdx args

end Sandbox

end OsCortex.WasmSandbox
