/-
# Modules of the embedder

An embedder can offer functions, tables, memories and globals under a module name.
All definitions are checked before anything is added to the store.
-/

import WasmMachine.Link.Instantiate

namespace WasmMachine

/-- What a definition of the embedder offers. A function may lack its behaviour
and a global its value; such definitions are refused. -/
inductive HostItem
  | func (type : FuncType) (behaviour : Option HostBehaviour)
  | table (type : TableType)
  | memory (type : MemoryType)
  | global (type : GlobalType) (value : Option Value)

/-- A named definition of the embedder. -/
structure HostDef where
  name : String
  item : HostItem

/-- Check a definition of a module. -/
def HostDef.check (mod : String) (d : HostDef) : Except LinkError Unit :=
  match d.item with
  | .func _ none => .error (.hostFunction mod d.name)
  | .global type value =>
      if value.map (·.type) = some type.type then .ok ()
      else .error (.hostGlobal mod d.name type.type)
  | _ => .ok ()

namespace Link

/-- Add what a definition offers to the store. -/
def addHostItem (mod : String) (d : HostDef) : Link Extern :=
  match d.item with
  | .func type behaviour => do
      let host : HostCode := ⟨mod ++ "." ++ d.name, type, behaviour.getD (.const [])⟩
      return ⟨.func, ← add (·.addFunc (.host host))⟩
  | .table type => return ⟨.table, ← add (·.addTable type)⟩
  | .memory type => return ⟨.memory, ← add (·.addMemory type)⟩
  | .global type value => return ⟨.global, ← add (·.addGlobal type (value.getD (.i32 0)))⟩

/-- Make a definition part of an instance. A later definition of the same name
wins. -/
def addHostDef (mod : String) (inst : ModuleInstance) (d : HostDef) : Link ModuleInstance := do
  let found ← addHostItem mod d
  let types :=
    match d.item with
    | .func type _ => inst.types ++ [type]
    | _ => inst.types
  return ({ inst with types := types }.addAddress found).addExport d.name found

/-- Make an instance of the embedder's definitions and give it its name. -/
def hostModule (mod : String) (defs : List HostDef) : Link InstanceId := do
  lift (defs.forM (HostDef.check mod))
  let inst ← defs.foldlM (addHostDef mod) { name := mod }
  let id ← add (·.addInstance inst)
  modify (·.register mod id)
  return id

end Link

end WasmMachine
