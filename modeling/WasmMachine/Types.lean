/-
# Types

Value types, function types, and the types of tables, memories and globals.  A
value type is one byte of the binary format; seven bytes are meaningful, and the
others can still occur in a module that was built by hand, so a value type is
not restricted to the seven.
-/

import WasmMachine.Text.Hex

namespace WasmMachine

/-- A value type, by its byte in the binary format. -/
structure ValType where
  code : UInt8
  deriving DecidableEq, Repr, Inhabited

namespace ValType

/-- 32-bit integers. -/
@[match_pattern] def i32 : ValType := ⟨0x7f⟩
/-- 64-bit integers. -/
@[match_pattern] def i64 : ValType := ⟨0x7e⟩
/-- 32-bit floating point numbers. -/
@[match_pattern] def f32 : ValType := ⟨0x7d⟩
/-- 64-bit floating point numbers. -/
@[match_pattern] def f64 : ValType := ⟨0x7c⟩
/-- 128-bit vectors. -/
@[match_pattern] def v128 : ValType := ⟨0x7b⟩
/-- References to functions. -/
@[match_pattern] def funcref : ValType := ⟨0x70⟩
/-- References to things of the embedder. -/
@[match_pattern] def externref : ValType := ⟨0x6f⟩

/-- The byte that stands for no type. The type checker uses it for an operand
that unreachable code conjures up. -/
@[match_pattern] def unknown : ValType := ⟨0⟩

/-- The name of a type; every byte without a meaning has the same name. -/
def name (t : ValType) : String :=
  match t.code with
  | 0x7f => "i32"
  | 0x7e => "i64"
  | 0x7d => "f32"
  | 0x7c => "f64"
  | 0x7b => "v128"
  | 0x70 => "funcref"
  | 0x6f => "externref"
  | _ => "unknown"

/-- Reference types. -/
def isRef (t : ValType) : Bool := t == funcref || t == externref

/-- The seven meaningful types. -/
def isValid (t : ValType) : Bool :=
  t == i32 || t == i64 || t == f32 || t == f64 || t == v128 || t == funcref || t == externref

/-- A list of types as it stands in messages. -/
def listText (ts : List ValType) : String :=
  "[" ++ " ".intercalate (ts.map name) ++ "]"

end ValType

/-- The parameter and result types of a function. -/
structure FuncType where
  params : List ValType
  results : List ValType
  deriving DecidableEq, Repr, Inhabited

/-- The bounds on the size of a table or a memory. -/
structure Limits where
  min : UInt64
  max : Option UInt64
  deriving DecidableEq, Repr, Inhabited

/-- Whether something of bounds `have_` can stand where bounds `want` are asked
for: at least as large now, and no freer to grow. -/
def Limits.fits (have_ want : Limits) : Bool :=
  decide (want.min ≤ have_.min) &&
    match want.max with
    | none => true
    | some bound =>
        match have_.max with
        | none => false
        | some own => decide (own ≤ bound)

/-- A table of references of one type. -/
structure TableType where
  elem : ValType
  limits : Limits
  deriving DecidableEq, Repr, Inhabited

/-- A linear memory, sized in pages. -/
structure MemoryType where
  limits : Limits
  deriving DecidableEq, Repr, Inhabited

/-- A global variable. -/
structure GlobalType where
  type : ValType
  mutable : Bool
  deriving DecidableEq, Repr, Inhabited

/-- What an import or an export names, by its byte in the binary format. -/
structure ExternKind where
  code : UInt8
  deriving DecidableEq, Repr, Inhabited

namespace ExternKind

/-- A function. -/
@[match_pattern] def func : ExternKind := ⟨0⟩
/-- A table. -/
@[match_pattern] def table : ExternKind := ⟨1⟩
/-- A memory. -/
@[match_pattern] def memory : ExternKind := ⟨2⟩
/-- A global. -/
@[match_pattern] def global : ExternKind := ⟨3⟩

/-- The name of a kind. -/
def name (k : ExternKind) : String :=
  match k.code with
  | 0 => "func"
  | 1 => "table"
  | 2 => "memory"
  | 3 => "global"
  | other => "kind(" ++ toString other.toNat ++ ")"

end ExternKind

/-- The number of bytes in a page of memory. -/
def pageSize : Nat := 65536

/-- The largest number of pages a memory can have. -/
def maxPages : Nat := 65536

/-- The type of a block: the empty type, one of the value types as a result, or
an index into the types of the module. Negative numbers are the shorthands. -/
abbrev BlockType := Int32

namespace BlockType

/-- No parameters and no results. -/
def void : BlockType := -64

/-- The one result of a shorthand block type. -/
def shorthand? (b : BlockType) : Option (List ValType) :=
  if b == -64 then some []
  else if b == -1 then some [.i32]
  else if b == -2 then some [.i64]
  else if b == -3 then some [.f32]
  else if b == -4 then some [.f64]
  else if b == -5 then some [.v128]
  else if b == -16 then some [.funcref]
  else if b == -17 then some [.externref]
  else none

/-- The parameters and results of a block type among the given types. -/
def signature? (types : List FuncType) (b : BlockType) : Option FuncType :=
  match shorthand? b with
  | some results => some ⟨[], results⟩
  | none => if b < 0 then none else types[b.toInt.toNat]?

end BlockType

end WasmMachine
