/-
# Steps in the scope of typed code

The operands at hand have the types that the checker has derived for them, the locals
of the running frame have theirs, the frame belongs to an instance that serves the
context of the code, and the store is typed.  What a plain instruction is put together
of keeps this up: whatever it takes from the operands, the frame or the store has the
type that was promised, and it stops at nothing but an expected trap.
-/

import WasmMachine.Machine.Scope
import WasmMachine.Proofs.Safety.Operations
import WasmMachine.Proofs.Safety.Store

namespace WasmMachine

open Typing

/-- The frame of code that was checked in a context. -/
structure Frame.Typed (σ : Shape) (ctx : Context) (f : Frame) : Prop where
  home : ∃ id inst, f.home = some id ∧ σ.instances[id]? = some inst ∧ σ.Serves inst ctx
  locals : Values σ.size f.locals.toList ctx.locals

/-- The scope of a plain instruction in front of which the checker has the operand
types `types`. -/
structure Scope.Typed (σ : Shape) (ctx : Context) (types : List ValType) (s : Scope) : Prop where
  operands : Values σ.size s.operands types
  frame : ∃ f, s.frame = some f ∧ f.Typed σ ctx
  store : s.store.Of σ

/-- A step gives a result for which `Good` holds and leaves operands of the types
`after` behind, unless it traps as checked code may. -/
def Step.Runs {α : Type} (σ : Shape) (ctx : Context) (step : Step α) (s : Scope)
    (Good : α → Prop) (after : List ValType) : Prop :=
  Ends step s (fun a s' => Good a ∧ s'.Typed σ ctx after)
    fun t s' => t.Expected ∧ s'.store.Of σ

namespace Step

variable {α β : Type} {σ : Shape} {ctx : Context} {s : Scope} {type : ValType}
  {types after : List ValType}

namespace Runs

variable {step : Step α} {next : α → Step β} {Good : α → Prop} {After : β → Prop}

theorem pure {a : α} (good : Good a) (typed : s.Typed σ ctx types) :
    Runs σ ctx (pure a) s Good types := Ends.pure ⟨good, typed⟩

theorem throw {t : Trap} (expected : t.Expected) (typed : s.Typed σ ctx types) :
    Runs σ ctx (throw t : Step α) s Good after := Ends.throw ⟨expected, typed.store⟩

theorem bind (first : Runs σ ctx step s Good types)
    (rest : ∀ a s', Good a → s'.Typed σ ctx types → Runs σ ctx (next a) s' After after) :
    Runs σ ctx (step >>= next) s After after :=
  Ends.bind first fun a s' found => rest a s' found.1 found.2

end Runs

/-! ## Operands -/

theorem push_runs {v : Value} (has : v.Has σ.size type) (typed : s.Typed σ ctx types) :
    Runs σ ctx (push v) s (fun _ => True) (type :: types) :=
  ⟨trivial, .cons has typed.operands, typed.frame, typed.store⟩

theorem popValue_runs (typed : s.Typed σ ctx (type :: types)) :
    Runs σ ctx popValue s (fun v => v.Has σ.size type) types := by
  obtain ⟨operands, frame, store⟩ := s
  obtain ⟨v, rest, rfl, has, below⟩ := typed.operands.exists_cons
  exact ⟨has, below, typed.frame, typed.store⟩

theorem popI32_runs (typed : s.Typed σ ctx (.i32 :: types)) :
    Runs σ ctx popI32 s (fun _ => True) types := by
  obtain ⟨operands, frame, store⟩ := s
  obtain ⟨v, rest, rfl, has, below⟩ := typed.operands.exists_cons
  obtain ⟨bits, rfl⟩ := has.eq_i32
  exact ⟨trivial, below, typed.frame, typed.store⟩

theorem popRef_runs (reference : type.isRef) (typed : s.Typed σ ctx (type :: types)) :
    Runs σ ctx popRef s (fun r => (Value.ref r).Has σ.size type) types := by
  obtain ⟨operands, frame, store⟩ := s
  obtain ⟨v, rest, rfl, has, below⟩ := typed.operands.exists_cons
  obtain ⟨r, rfl, valid, same⟩ := has.eq_ref reference
  exact ⟨has, below, typed.frame, typed.store⟩

theorem popThree_runs (typed : s.Typed σ ctx (.i32 :: .i32 :: .i32 :: types)) :
    Runs σ ctx popThree s (fun _ => True) types := by
  obtain ⟨operands, frame, store⟩ := s
  obtain ⟨upper, rest, rfl, has, below⟩ := Values.exists_append
    (show Values σ.size operands ([.i32, .i32, .i32] ++ types) from typed.operands)
  obtain ⟨x, y, z, rfl, hasx, hasy, hasz⟩ := has.eq_three
  obtain ⟨c, rfl⟩ := hasx.eq_i32
  obtain ⟨b, rfl⟩ := hasy.eq_i32
  obtain ⟨a, rfl⟩ := hasz.eq_i32
  exact ⟨trivial, below, typed.frame, typed.store⟩

/-- An operation on the operands at the top. -/
theorem onOperands_runs {operation : List Value → Except Trap (List Value)}
    {taken : List ValType} (typed : s.Typed σ ctx (taken ++ types))
    (gives : ∀ values rest, Values σ.size values taken →
      Gives σ.size type rest (operation (values ++ rest))) :
    Runs σ ctx (onOperands operation) s (fun _ => True) (type :: types) := by
  obtain ⟨operands, frame, store⟩ := s
  obtain ⟨upper, rest, rfl, has, below⟩ := typed.operands.exists_append
  have given := gives upper rest has
  unfold Runs Ends onOperands
  simp only
  cases found : operation (upper ++ rest) with
  | ok operands =>
      rw [found] at given
      obtain ⟨v, rfl, has⟩ := given
      exact ⟨trivial, .cons has below, typed.frame, typed.store⟩
  | error t =>
      rw [found] at given
      exact ⟨given, typed.store⟩

/-! ## Places -/

/-- The instance of the running code serves its context. -/
theorem home_runs (typed : s.Typed σ ctx types) :
    Runs σ ctx home s (fun inst => σ.Serves inst ctx) types := by
  obtain ⟨f, some_frame, running⟩ := typed.frame
  obtain ⟨id, spaces, some_home, found, serves⟩ := running.home
  obtain ⟨inst, there, same⟩ := typed.store.instance_ found
  have serves : σ.Serves inst ctx := by
    subst same
    exact ⟨serves.types, serves.funcs, serves.tables, serves.memories, serves.globals,
      serves.elems, serves.datas⟩
  unfold home
  apply Ends.step rfl
  simp only [some_frame, Option.bind_some, some_home, there]
  exact ⟨serves, typed⟩

/-- The address behind an index that the context knows. -/
theorem address_runs {space : ModuleInstance → Array Addr} {missing : UInt32 → Trap}
    {index : UInt32} {items known : List β} {b : β}
    (leads : ∀ inst, σ.Serves inst ctx → Leads items (space inst) known)
    (found : known[index.toNat]? = some b) (typed : s.Typed σ ctx types) :
    Runs σ ctx (address space missing index) s (fun addr => items[addr]? = some b) types := by
  unfold address
  apply Runs.bind (home_runs typed)
  intro inst s' serves typed
  obtain ⟨addr, there, good⟩ := (leads inst serves).lookup found
  simp only [there]
  exact Runs.pure good typed

variable {index : UInt32}

theorem tableAddress_runs {table : TableType} (found : ctx.tables[index.toNat]? = some table)
    (typed : s.Typed σ ctx types) :
    Runs σ ctx (tableAddress index) s (fun addr => σ.tables[addr]? = some table.elem) types := by
  apply address_runs (fun _ serves => serves.tables) _ typed
  rw [List.getElem?_map, found]
  rfl

theorem memoryAddress_runs (some_memory : ctx.memories ≠ []) (typed : s.Typed σ ctx types) :
    Runs σ ctx (memoryAddress 0) s (fun addr => σ.memories[addr]? = some ()) types := by
  apply address_runs (fun _ serves => serves.memories) _ typed
  cases listed : ctx.memories with
  | nil => exact absurd listed some_memory
  | cons memory rest => rfl

theorem globalAddress_runs {global : GlobalType} (found : ctx.globals[index.toNat]? = some global)
    (typed : s.Typed σ ctx types) :
    Runs σ ctx (globalAddress index) s (fun addr => σ.globals[addr]? = some global) types :=
  address_runs (fun _ serves => serves.globals) found typed

theorem elemAddress_runs {elem : ValType} (found : ctx.elements[index.toNat]? = some elem)
    (typed : s.Typed σ ctx types) :
    Runs σ ctx (elemAddress index) s (fun addr => σ.elems[addr]? = some elem) types :=
  address_runs (fun _ serves => serves.elems) found typed

theorem dataAddress_runs (inside : index.toNat < ctx.dataCount) (typed : s.Typed σ ctx types) :
    Runs σ ctx (dataAddress index) s (fun addr => σ.datas[addr]? = some ()) types := by
  apply address_runs (fun _ serves => serves.datas) _ typed
  rw [List.getElem?_replicate, if_pos inside]

theorem funcAddress_runs {type : FuncType} (found : ctx.funcs[index.toNat]? = some type)
    (typed : s.Typed σ ctx types) :
    Runs σ ctx (funcAddress index) s (fun addr => (σ.funcs.map (·.type))[addr]? = some type)
      types :=
  address_runs (fun _ serves => serves.funcs) found typed

/-! ## The store -/

variable {addr : Addr} {missing : Trap}

theorem fetch_runs {space : Store → Array α} {Good : α → Prop}
    (there : ∀ store : Store, store.Of σ → ∃ a, (space store)[addr]? = some a ∧ Good a)
    (typed : s.Typed σ ctx types) : Runs σ ctx (fetch space missing addr) s Good types := by
  obtain ⟨a, found, good⟩ := there s.store typed.store
  unfold fetch
  apply Ends.step rfl
  simp only [found]
  exact ⟨good, typed⟩

/-- A table has the type its address leads to, and so have its entries. -/
theorem fetch_table_runs {elem : ValType} (reference : elem.isRef)
    (found : σ.tables[addr]? = some elem) (typed : s.Typed σ ctx types) :
    Runs σ ctx (fetch (·.tables) missing addr) s
      (fun t => ∀ r ∈ t.elems, (Value.ref r).Has σ.size elem) types := by
  apply fetch_runs _ typed
  intro store of
  obtain ⟨t, there, rfl⟩ := of.table found
  exact ⟨t, there, of.typed.tables addr t there reference⟩

theorem fetch_memory_runs (found : σ.memories[addr]? = some ()) (typed : s.Typed σ ctx types) :
    Runs σ ctx (fetch (·.memories) missing addr) s (fun _ => True) types := by
  apply fetch_runs _ typed
  intro store of
  obtain ⟨m, there⟩ := of.memory found
  exact ⟨m, there, trivial⟩

theorem fetch_global_runs {global : GlobalType} (found : σ.globals[addr]? = some global)
    (typed : s.Typed σ ctx types) :
    Runs σ ctx (fetch (·.globals) missing addr) s
      (fun g => g.type = global ∧ g.value.Has σ.size global.type) types := by
  apply fetch_runs _ typed
  intro store of
  obtain ⟨g, there, rfl⟩ := of.global found
  exact ⟨g, there, rfl, of.typed.globals addr g there⟩

theorem fetch_elem_runs {elem : ValType} (found : σ.elems[addr]? = some elem)
    (typed : s.Typed σ ctx types) :
    Runs σ ctx (fetch (·.elems) missing addr) s
      (fun e => ∀ r ∈ e.refs, (Value.ref r).Has σ.size elem) types := by
  apply fetch_runs _ typed
  intro store of
  obtain ⟨e, there, rfl⟩ := of.elem found
  exact ⟨e, there, of.typed.elems addr e there⟩

theorem fetch_data_runs (found : σ.datas[addr]? = some ()) (typed : s.Typed σ ctx types) :
    Runs σ ctx (fetch (·.datas) missing addr) s (fun _ => True) types := by
  apply fetch_runs _ typed
  intro store of
  obtain ⟨d, there⟩ := of.data found
  exact ⟨d, there, trivial⟩

theorem modifyStore_runs {f : Store → Store} (keeps : ∀ store : Store, store.Of σ → (f store).Of σ)
    (typed : s.Typed σ ctx types) : Runs σ ctx (modifyStore f) s (fun _ => True) types :=
  ⟨trivial, typed.operands, typed.frame, keeps s.store typed.store⟩

end Step

end WasmMachine
