/-
# Why a module cannot be linked

An import may not resolve; once all imports resolve, instantiation may fail at
one of its stages.  A segment that does not fit and a start function that traps
are failures with a cause.
-/

import WasmMachine.Machine.Basic

namespace WasmMachine

/-- What is wrong with an import. -/
inductive ImportProblem
  | noModule
  | noExport
  | kind (want found : ExternKind)
  | typeIndex (index : UInt32)
  | signature (found want : FuncType)
  | noTableType
  | elementType (found want : ValType)
  | tableLimits
  | noMemoryType
  | memoryLimits
  | noGlobalType
  | globalType (found want : GlobalType)
  deriving DecidableEq, Repr

/-- What is wrong with a constant expression. -/
inductive ConstantProblem
  | func (index : UInt32)
  | global (index : UInt32)
  | vector
  | opcode (op : UInt8)
  | count (values : Nat)
  | offsetType (type : ValType)
  deriving DecidableEq, Repr

/-- Why linking failed. -/
inductive LinkError
  | importFailed (mod name : String) (problem : ImportProblem)
  | constant (problem : ConstantProblem)
  | bodyCount (funcs bodies : Nat)
  | funcType (func : Nat) (type : UInt32)
  | globalInit (index : Nat) (found want : ValType)
  | elementEntry (type : ValType)
  | elementFunc (func : UInt32)
  | exportIndex (name : String) (kind : ExternKind) (index : UInt32)
  | elementTable (segment : Nat) (table : UInt32)
  | elementBounds (segment : Nat) (table offset : UInt32)
  | dataMemory (segment : Nat) (memory : UInt32)
  | dataBounds (segment : Nat) (memory offset : UInt32)
  | startIndex (index : UInt32)
  | startFailed (index : UInt32) (cause : Fault)
  | hostFunction (mod name : String)
  | hostGlobal (mod name : String) (type : ValType)

/-- Mutability in words. -/
def GlobalType.text (t : GlobalType) : String :=
  t.type.name ++ " (mutable=" ++ (if t.mutable then "true" else "false") ++ ")"

/-- A signature in words. -/
def FuncType.text (t : FuncType) : String :=
  ValType.listText t.params ++ " -> " ++ ValType.listText t.results

namespace ImportProblem

/-- The kind of the report on an import. -/
def word : ImportProblem → String
  | .noModule => "module_not_found"
  | .noExport => "import_not_found"
  | _ => "import_type_mismatch"

/-- The problem in words. -/
def detail (mod name : String) : ImportProblem → String
  | .noModule => "module " ++ Text.quoted mod ++ " is not registered"
  | .noExport => "module " ++ Text.quoted mod ++ " has no export " ++ Text.quoted name
  | .kind want found => "expected " ++ want.name ++ ", found " ++ found.name
  | .typeIndex index => s!"type index {index} out of range"
  | .signature found want => "signature " ++ found.text ++ ", want " ++ want.text
  | .noTableType => "missing table type"
  | .elementType found want => "element type " ++ found.name ++ ", want " ++ want.name
  | .tableLimits => "table limits do not match"
  | .noMemoryType => "missing memory type"
  | .memoryLimits => "memory limits do not match"
  | .noGlobalType => "missing global type"
  | .globalType found want => "global " ++ found.text ++ ", want " ++ want.text

end ImportProblem

/-- The problem in words. -/
def ConstantProblem.detail : ConstantProblem → String
  | .func index => s!"ref.func {index} out of range"
  | .global index => s!"global.get {index} out of range"
  | .vector => "unsupported vector instruction in constant expression"
  | .opcode op => "opcode 0x" ++ Text.hexByte op ++ " is not constant"
  | .count values => s!"constant expression produced {values} values"
  | .offsetType type => "segment offset is " ++ type.name ++ ", want i32"

namespace LinkError

/-- A failure of instantiation as a report on its stage. -/
def instantiation (stage detail : String) (cause : Option Fault) : Fault :=
  .report ⟨Phase.link, "instantiation"⟩ [stage] detail cause

/-- A failure as a report. -/
def toFault : LinkError → Fault
  | .importFailed mod name problem =>
      .report ⟨Phase.link, problem.word⟩ [mod, name] (problem.detail mod name) none
  | .constant problem => instantiation "const" problem.detail none
  | .bodyCount funcs bodies =>
      instantiation "alloc" s!"{funcs} function declarations but {bodies} bodies" none
  | .funcType func type =>
      instantiation "alloc" s!"function {func} has type index {type} out of range" none
  | .globalInit index found want =>
      instantiation "alloc"
        (s!"global {index} initialiser is " ++ found.name ++ ", want " ++ want.name) none
  | .elementEntry type => instantiation "alloc" ("element expression produced " ++ type.name) none
  | .elementFunc func => instantiation "alloc" s!"element function {func} out of range" none
  | .exportIndex name kind index =>
      instantiation "export"
        ("export " ++ Text.quoted name ++ ": " ++ kind.name ++ s!" {index} out of range") none
  | .elementTable segment table =>
      instantiation "elem" s!"segment {segment} names table {table} out of range" none
  | .elementBounds segment table offset =>
      instantiation "elem" s!"segment {segment} does not fit table {table} at offset {offset}"
        (some Trap.tableBounds.toFault)
  | .dataMemory segment memory =>
      instantiation "data" s!"segment {segment} names memory {memory} out of range" none
  | .dataBounds segment memory offset =>
      instantiation "data" s!"segment {segment} does not fit memory {memory} at offset {offset}"
        (some Trap.memoryBounds.toFault)
  | .startIndex index => instantiation "start" s!"start function {index} out of range" none
  | .startFailed index cause =>
      instantiation "start" s!"start function {index} trapped" (some cause)
  | .hostFunction mod name =>
      instantiation "host" ("function " ++ mod ++ "." ++ name ++ " has no implementation") none
  | .hostGlobal mod name type =>
      instantiation "host"
        ("global " ++ mod ++ "." ++ name ++ " value does not match " ++ type.name) none

end LinkError

end WasmMachine
