/-
# The entry of a program

A program that loads is entered at an exported function.  The names are looked up in the
instance, and the signature in the module: for a module that was accepted both speak of the
same function.  What is picked depends on no more than what the module exports and on the
name that was asked for.
-/

import Mathlib.Data.List.Nodup
import WasmMachine.CommandLine.Run
import WasmMachine.Proofs.Linking.Exports

namespace WasmMachine

open Typing

/-- A function is exported under a name. -/
def Module.Exports (m : Module) (name : String) (type : FuncType) : Prop :=
  ∃ e ∈ m.exports, e.name = name ∧ e.kind = .func ∧ m.funcType? e.index = some type

namespace CommandLine

/-! ## Loading -/

/-- The bytes are decoded as a module, which is accepted. -/
structure Loads (bytes : List UInt8) (m : Module) : Prop where
  decoded : Module.decode bytes = .ok m
  validated : m.validate = .ok ()

theorem load_eq_ok_iff {bytes : List UInt8} {m : Module} :
    Embedding.load bytes = .ok m ↔ Loads bytes m := by
  unfold Embedding.load
  constructor
  · intro loaded
    cases decoded : Module.decode bytes with
    | error e =>
        rw [decoded] at loaded
        cases loaded
    | ok m' =>
        rw [decoded] at loaded
        obtain ⟨_, validated, same⟩ := bind_eq_ok_iff.mp loaded
        cases same
        exact ⟨decoded, validated⟩
  · rintro ⟨decoded, validated⟩
    rw [decoded]
    exact bind_eq_ok_iff.mpr ⟨(), validated, rfl⟩

theorem Loads.unique {bytes : List UInt8} {m m' : Module} (loads : Loads bytes m)
    (loads' : Loads bytes m') : m = m' :=
  Except.ok.inj (loads.decoded.symm.trans loads'.decoded)

/-! ## Exports of the instance -/

section Entries

variable {m : Module} {inst : ModuleInstance} {σ : Shape} {name : String} {type : FuncType}
  {bytes : List UInt8}

/-- The functions of a module that loads have types. -/
theorem funcType?_of_known (loads : Loads bytes m) {index : UInt32}
    (known : (Context.ofModule m).funcs[index.toNat]? = some type) :
    m.funcType? index = some type := by
  obtain ⟨structured, -⟩ := Module.parts_of_validate loads.validated
  rw [Module.funcType?_eq_context structured, known]

/-- An exported function of the instance has the type that the module gives it. -/
theorem exports_of_exportedFunc? (loads : Loads bytes m) (exporting : inst.Exporting m.exports)
    (serves : σ.Serves inst (.ofModule m)) {addr : Addr}
    (found : inst.exportedFunc? name = some addr) :
    ∃ type, m.Exports name type ∧ (σ.funcs.map (·.type))[addr]? = some type := by
  obtain ⟨e, mem, named, kind, place⟩ := exporting.exportedFunc?_eq_some_iff.mp found
  have inside : e.index.toNat < (Context.ofModule m).funcs.length := by
    have placed := (Module.placed_of_decode loads.decoded loads.validated).exports e mem
    rw [kind] at placed
    exact placed
  have known := List.getElem?_eq_getElem inside
  obtain ⟨addr', place', leads⟩ := serves.funcs.lookup known
  cases place.symm.trans place'
  exact ⟨_, ⟨e, mem, named, kind, funcType?_of_known loads known⟩, leads⟩

theorem isSome_exportedFunc? (loads : Loads bytes m) (exporting : inst.Exporting m.exports)
    (serves : σ.Serves inst (.ofModule m)) (name : String) :
    (inst.exportedFunc? name).isSome = true ↔ ∃ type, m.Exports name type := by
  constructor
  · intro there
    obtain ⟨addr, found⟩ := Option.isSome_iff_exists.mp there
    obtain ⟨type, exported, -⟩ := exports_of_exportedFunc? loads exporting serves found
    exact ⟨type, exported⟩
  · rintro ⟨type, e, mem, named, kind, -⟩
    have placed := (Module.placed_of_decode loads.decoded loads.validated).exports e mem
    rw [← serves.size_addresses, kind] at placed
    exact Option.isSome_iff_exists.mpr ⟨_, exporting.exportedFunc?_eq_some_iff.mpr
      ⟨e, mem, named, kind, Array.getElem?_eq_getElem placed⟩⟩

/-- The signature that is looked up is the one of the exported function. -/
theorem signature?_of_exports (loads : Loads bytes m) (exported : m.Exports name type) :
    Embedding.signature? m name = some type := by
  obtain ⟨e, mem, rfl, kind, known⟩ := exported
  have same : ∀ e' ∈ m.exports.filter (fun e' => e'.name == e.name && e'.kind == .func),
      e' = e := by
    intro e' mem'
    obtain ⟨mem', is⟩ := List.mem_filter.mp mem'
    simp only [Bool.and_eq_true, beq_iff_eq] at is
    exact List.inj_on_of_nodup_map (Module.nodup_of_validate loads.validated) mem' mem is.1
  have there : e ∈ m.exports.filter (fun e' => e'.name == e.name && e'.kind == .func) :=
    List.mem_filter.mpr ⟨mem, by simp [kind]⟩
  unfold Embedding.signature?
  cases listed : m.exports.filter (fun e' => e'.name == e.name && e'.kind == .func) with
  | nil =>
      rw [listed] at there
      cases there
  | cons first rest =>
      obtain rfl := same first (listed ▸ List.mem_cons_self)
      rw [List.findSome?_cons, known]

end Entries

/-! ## Picking the entry -/

section Picking

variable (config : Config) (m : Module)

/-- An entry was asked for that is not an exported function. -/
def EntryMissing : Prop := config.entry ≠ "" ∧ ∀ type, ¬ m.Exports config.entry type

/-- No entry was asked for, and none of the default entries is an exported function. -/
def NoEntry : Prop := config.entry = "" ∧ ∀ name ∈ defaultEntries, ∀ type, ¬ m.Exports name type

/-- The entry that was asked for, or else the first of the default entries, is an exported
function of a type. -/
inductive Picks : String → FuncType → Prop
  | asked {type : FuncType} : config.entry ≠ "" → m.Exports config.entry type →
      Picks config.entry type
  | default {before after : List String} {name : String} {type : FuncType} : config.entry = "" →
      defaultEntries = before ++ name :: after →
      (∀ earlier ∈ before, ∀ type, ¬ m.Exports earlier type) → m.Exports name type →
      Picks name type

/-- An entry is picked, unless the one that was asked for is missing or there is none. -/
theorem entry_cases :
    EntryMissing config m ∨ NoEntry config m ∨ ∃ name type, Picks config m name type := by
  classical
  by_cases asked : config.entry = ""
  · cases found : defaultEntries.find? fun name => decide (∃ type, m.Exports name type) with
    | none =>
        refine .inr (.inl ⟨asked, fun name mem type there => ?_⟩)
        exact List.find?_eq_none.mp found name mem (decide_eq_true ⟨type, there⟩)
    | some name =>
        obtain ⟨there, before, after, split, earlier⟩ := List.find?_eq_some_iff_append.mp found
        obtain ⟨type, is⟩ := of_decide_eq_true there
        refine .inr (.inr ⟨name, type, .default asked split (fun other mem type there => ?_) is⟩)
        have absent := of_decide_eq_false ((Bool.not_eq_true' _).mp (earlier other mem))
        exact absent ⟨type, there⟩
  · by_cases there : ∃ type, m.Exports config.entry type
    · obtain ⟨type, found⟩ := there
      exact .inr (.inr ⟨config.entry, type, .asked asked found⟩)
    · exact .inl ⟨asked, fun type found => there ⟨type, found⟩⟩

variable {config : Config} {m : Module} {inst : ModuleInstance} {name : String} {type : FuncType}

theorem Picks.exports (picks : Picks config m name type) : m.Exports name type := by
  cases picks with
  | asked _ exported => exact exported
  | default _ _ _ exported => exact exported

variable (exported : ∀ name,
  (inst.exportedFunc? name).isSome = true ↔ ∃ type, m.Exports name type)

include exported

theorem pickEntry_of_missing (missing : EntryMissing config m) :
    ∃ message, pickEntry config.entry inst = .error message := by
  obtain ⟨asked, none⟩ := missing
  have absent : ¬ (inst.exportedFunc? config.entry).isSome = true := fun there => by
    obtain ⟨type, found⟩ := (exported _).mp there
    exact none type found
  unfold pickEntry
  simp only [if_pos asked]
  exact ⟨_, if_neg absent⟩

theorem pickEntry_of_noEntry (noEntry : NoEntry config m) :
    pickEntry config.entry inst = .ok none := by
  obtain ⟨unasked, absent⟩ := noEntry
  unfold pickEntry
  simp only [unasked, ne_eq, not_true_eq_false, if_false]
  refine congrArg Except.ok (List.find?_eq_none.mpr fun name mem there => ?_)
  obtain ⟨type, found⟩ := (exported name).mp there
  exact absent name mem type found

theorem pickEntry_of_picks (picks : Picks config m name type) :
    pickEntry config.entry inst = .ok (some name) := by
  unfold pickEntry
  cases picks with
  | asked asked there =>
      simp only [if_pos asked]
      exact if_pos ((exported _).mpr ⟨type, there⟩)
  | @default before after _ _ unasked split earlier there =>
      simp only [unasked, ne_eq, not_true_eq_false, if_false]
      refine congrArg Except.ok (List.find?_eq_some_iff_append.mpr
        ⟨(exported name).mpr ⟨type, there⟩, before, after, split, fun other mem => ?_⟩)
      rw [Bool.not_eq_true', Bool.eq_false_iff]
      intro found
      obtain ⟨type', there'⟩ := (exported other).mp found
      exact earlier other mem type' there'

end Picking

end CommandLine

end WasmMachine
