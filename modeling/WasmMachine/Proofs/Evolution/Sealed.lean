/-
# What cannot be written stays

A host function may give references that lead nowhere, and they may end up in tables and
in mutable globals.  An immutable global keeps the value it was made with: every change
that running code makes leaves it alone.  So constant expressions, which read no other
globals, have values of their types in stores of which nothing else is known.
-/

import WasmMachine.Proofs.Evolution.Change
import WasmMachine.Proofs.Safety.Allocation

namespace WasmMachine

/-- A value that means something: a null reference is of a reference type. -/
def Value.Genuine (v : Value) : Prop := ∀ type, v = .ref (.null type) → type.isRef

/-- There is a store in which the value has its type. -/
theorem Value.Genuine.exists_has {v : Value} (genuine : v.Genuine) : ∃ n, v.Has n v.type := by
  cases v with
  | ref r =>
      cases r with
      | null type => exact ⟨0, rfl, genuine type rfl⟩
      | func addr => exact ⟨addr + 1, rfl, Nat.lt_succ_self addr⟩
      | external number => exact ⟨0, rfl, trivial⟩
  | _ => exact ⟨0, rfl, trivial⟩

namespace Store

/-- What an immutable global holds is of its type. -/
def SealedGlobal (g : GlobalInst) : Prop :=
  g.type.mutable = false → ∃ n, g.value.Has n g.type.type

/-- All immutable globals of a store hold what they should. -/
def Sealed (s : Store) : Prop :=
  ∀ (addr : Addr) (g : GlobalInst), s.globals[addr]? = some g → SealedGlobal g

variable {s s' : Store} {type : ValType} {v : Value}

theorem Gives.has_of_sealed (gives : s.Gives type v) (sealed : s.Sealed) : ∃ n, v.Has n type := by
  cases gives with
  | value has => exact ⟨_, has⟩
  | @global addr g held immutable => exact sealed addr g held immutable

/-! ## Running code -/

theorem Change.shape (change : s.Change s') : s'.shape = s.shape := by
  cases change with
  | writeMemory addr start bytes => exact s.shape_writeMemory addr start bytes
  | growMemory _ _ => exact s.shape_growMemory _ _
  | dropData addr => exact s.shape_dropData addr
  | writeTable addr start refs => exact s.shape_writeTable addr start refs
  | growTable r _ _ => exact s.shape_growTable _ _ r
  | dropElem addr => exact s.shape_dropElem addr
  | writeGlobal _ _ _ => exact s.shape_writeGlobal _ _
  | keep name values => rfl

/-- Only a mutable global is ever written. -/
theorem Change.sealed (change : s.Change s') (sealed : s.Sealed) : s'.Sealed := by
  cases change with
  | @writeGlobal addr g v found same mutable =>
      refine forall_modify sealed fun g' found' _ immutable => ?_
      obtain rfl : g = g' := Option.some.inj (found.symm.trans found')
      exact absurd (mutable.symm.trans immutable) (by decide)
  | _ => exact sealed

theorem Evolves.shape (evolves : s.Evolves s') : s'.shape = s.shape :=
  evolves.keeps (P := fun t => t.shape = s.shape)
    (fun _ _ change same => change.shape.trans same) rfl

theorem Evolves.sealed (evolves : s.Evolves s') (sealed : s.Sealed) : s'.Sealed :=
  evolves.keeps (P := Sealed) (fun _ _ change sealed => change.sealed sealed) sealed

/-! ## Growing -/

theorem Sealed.addGlobal (sealed : s.Sealed) {t : GlobalType} (has : SealedGlobal ⟨t, v⟩) :
    (s.addGlobal t v).2.Sealed := forall_push sealed has

/-- While a module is added the immutable globals go on to hold what they should. -/
theorem sealed_upkeep (id : InstanceId) :
    Upkeep id fun _ ctx s => s.Serving id ctx ∧ s.Sealed where
  serving inv := inv.1
  serve inv serves := ⟨inv.1.imp serves, inv.2⟩
  has inv gives := gives.has_of_sealed inv.2
  addFunc inv f := ⟨inv.1.addFunc (.code f), inv.2⟩
  addTable inv t := ⟨inv.1.addTable t, inv.2⟩
  addMemory inv t := ⟨inv.1.addMemory t, inv.2⟩
  addGlobal inv gives :=
    ⟨inv.1.addGlobal _ _, inv.2.addGlobal fun _ => gives.has_of_sealed inv.2⟩
  addElem inv _ := ⟨inv.1.addElem _ _, inv.2⟩
  addData inv data := ⟨inv.1.addData data, inv.2⟩

end Store

end WasmMachine
