/-
# Resolving imports

A linker knows instances by name.  An import names an instance and one of its
exports; what is found there must be of the wanted kind and type.  Tables and
memories are compared by their present size.
-/

import WasmMachine.Link.Error

namespace WasmMachine

/-- A machine and the instances that modules can import from. -/
structure Linker where
  machine : Machine := {}
  registry : List (String × InstanceId) := []

namespace Linker

/-- The instance of a name. -/
def lookup? (l : Linker) (name : String) : Option InstanceId := l.registry.lookup name

/-- Give an instance a name; an earlier instance of that name loses it. -/
def register (l : Linker) (name : String) (id : InstanceId) : Linker :=
  { l with registry := (l.registry.filter fun old => old.1 != name) ++ [(name, id)] }

/-- The names, in order. -/
def names (l : Linker) : List String :=
  (l.registry.map (·.1)).mergeSort fun a b => !(b < a)

/-- An instance. -/
def instance? (l : Linker) (id : InstanceId) : Option ModuleInstance :=
  l.machine.store.instances[id]?

end Linker

namespace Store

/-- The size that a table has now, as bounds. -/
def tableLimits (t : TableInst) : Limits := ⟨UInt64.ofNat t.elems.size, t.type.limits.max⟩

/-- The size that a memory has now, as bounds. -/
def memoryLimits (m : MemInst) : Limits := ⟨UInt64.ofNat m.pages, m.type.limits.max⟩

/-- Compare an export with what an import asks for. The kinds are already known
to agree. -/
def checkImport (s : Store) (types : List FuncType) (want : ImportDesc) (found : Extern) :
    Except ImportProblem Unit :=
  match want.kind with
  | .func =>
      match types[want.typeIndex.toNat]? with
      | none => .error (.typeIndex want.typeIndex)
      | some type =>
          match s.funcs[found.addr]? with
          | none => .error .noExport
          | some f => if f.type = type then .ok () else .error (.signature f.type type)
  | .table =>
      match s.tables[found.addr]?, want.table with
      | none, _ => .error .noExport
      | some _, none => .error .noTableType
      | some t, some type =>
          if t.type.elem ≠ type.elem then .error (.elementType t.type.elem type.elem)
          else if (tableLimits t).fits type.limits then .ok () else .error .tableLimits
  | .memory =>
      match s.memories[found.addr]?, want.memory with
      | none, _ => .error .noExport
      | some _, none => .error .noMemoryType
      | some m, some type =>
          if (memoryLimits m).fits type.limits then .ok () else .error .memoryLimits
  | .global =>
      match s.globals[found.addr]?, want.global with
      | none, _ => .error .noExport
      | some _, none => .error .noGlobalType
      | some g, some type => if g.type = type then .ok () else .error (.globalType g.type type)
  | _ => .ok ()

end Store

namespace Linker

/-- What one import is bound to. -/
def resolveImport (l : Linker) (types : List FuncType) (imp : Import) :
    Except ImportProblem Extern :=
  match (l.lookup? imp.mod).bind l.instance? with
  | none => .error .noModule
  | some inst =>
      match inst.export? imp.name with
      | none => .error .noExport
      | some found =>
          if found.kind ≠ imp.desc.kind then .error (.kind imp.desc.kind found.kind)
          else do
            l.machine.store.checkImport types imp.desc found
            return found

/-- What the imports of a module are bound to, in order. The first one that fails
decides. -/
def resolve (l : Linker) (m : Module) : Except LinkError (List Extern) :=
  m.imports.mapM fun imp =>
    (l.resolveImport m.types imp).mapError (.importFailed imp.mod imp.name)

end Linker

end WasmMachine
