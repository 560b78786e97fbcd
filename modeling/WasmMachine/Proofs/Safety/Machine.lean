/-
# Typed machines

What holds of a machine between two instructions of checked code, what holds when
control is transferred, and what running code relies on: the functions of the store are
checked code, whose instance serves its context, and host functions that hand over nothing
but values with a meaning.  Such a host function is honest.  It is tame when it does not call
back either, and gives values of the types that it declares.
-/

import WasmMachine.Proofs.Safety.Known
import WasmMachine.Proofs.Safety.Plain
import WasmMachine.Proofs.Safety.Stack

namespace WasmMachine

open Typing

/-! ## Functions -/

/-- Code that the type checker accepted, in a context that its instance serves. -/
structure Code.Checked (σ : Shape) (f : Code) (ctx : Context) : Prop where
  home : ∃ id inst, f.home = some id ∧ σ.instances[id]? = some inst ∧ σ.Serves inst ctx
  known : ctx.Known
  locals : ctx.locals = f.type.params ++ f.locals
  results : ctx.results = f.type.results
  wellFormed : Instruction.allWellFormed f.body
  typed : FunctionTyped ctx f.body

/-- A host function that neither calls back nor gives anything but values of given
types, valid in a store with `n` functions. It may keep such values of any types, and use
views. -/
def HostProgram.Tame (n : Nat) (types : List ValType) : HostProgram → Prop
  | .finish results =>
      Value.matchTypes results types = true ∧ ∀ v, some v ∈ results → Value.Valid n v
  | .fail _ => True
  | .record _ next => next.Tame n types
  | .keep _ values next => (∀ v ∈ values, Value.Valid n v) ∧ next.Tame n types
  | .retrieve _ next => ∀ values, (∀ v ∈ values, Value.Valid n v) → (next values).Tame n types
  | .view _ _ _ next => ∀ answer, (next answer).Tame n types
  | .callExport _ _ _ _ => False

/-- A host function is tame on all arguments of its types. -/
def HostCode.Tame (n : Nat) (f : HostCode) : Prop :=
  ∀ args, Values n args f.type.params → (f.behaviour args).Tame n f.type.results

/-- A host function that hands over nothing but values that are valid in a store with `n`
functions, whatever it is told by the functions that it calls and by the views that it
uses. -/
def HostProgram.Honest (n : Nat) : HostProgram → Prop
  | .finish results => ∀ v, some v ∈ results → Value.Valid n v
  | .fail _ => True
  | .record _ next => next.Honest n
  | .keep _ values next => (∀ v ∈ values, Value.Valid n v) ∧ next.Honest n
  | .retrieve _ next => ∀ values, (∀ v ∈ values, Value.Valid n v) → (next values).Honest n
  | .view _ _ _ next => ∀ answer, (next answer).Honest n
  | .callExport _ _ args next =>
      (∀ v ∈ args, Value.Valid n v) ∧ (∀ fault, (next (.error fault)).Honest n) ∧
        ∀ results, (∀ v ∈ results, Value.Valid n v) → (next (.ok results)).Honest n

/-- A host function is honest on all arguments of its types. -/
def HostCode.Honest (n : Nat) (f : HostCode) : Prop :=
  ∀ args, Values n args f.type.params → (f.behaviour args).Honest n

theorem HostProgram.Tame.honest {n : Nat} {types : List ValType} {program : HostProgram}
    (tame : program.Tame n types) : program.Honest n := by
  induction program with
  | finish results => exact tame.2
  | fail fault => trivial
  | record entry next ih => exact ih tame
  | keep name values next ih => exact ⟨tame.1, ih tame.2⟩
  | retrieve name next ih => exact fun values valid => ih values (tame values valid)
  | view inst memory request next ih => exact fun answer => ih answer (tame answer)
  | callExport inst func args next ih => exact tame.elim

theorem HostCode.Tame.honest {n : Nat} {f : HostCode} (tame : f.Tame n) : f.Honest n :=
  fun args typed => (tame args typed).honest

/-- All functions are checked code or honest. -/
structure Shape.Lawful (σ : Shape) : Prop where
  code : ∀ f, .code f ∈ σ.funcs → ∃ ctx, f.Checked σ ctx
  host : ∀ f, .host f ∈ σ.funcs → f.Honest σ.size

/-- All functions are checked code or tame. -/
structure Shape.Sound (σ : Shape) : Prop where
  code : ∀ f, .code f ∈ σ.funcs → ∃ ctx, f.Checked σ ctx
  host : ∀ f, .host f ∈ σ.funcs → f.Tame σ.size

theorem Shape.Sound.lawful {σ : Shape} (sound : σ.Sound) : σ.Lawful :=
  ⟨sound.code, fun f mem => (sound.host f mem).honest⟩

/-- The traps that checked code can run into when it calls host functions that are only
honest: these may give results of other types than they declare. -/
inductive Shape.Admits (σ : Shape) : Trap → Prop
  | expected {t : Trap} : t.Expected → Admits σ t
  | hostResults {f : HostCode} {results : List (Option Value)} :
      .host f ∈ σ.funcs → ¬ f.Tame σ.size →
      Admits σ (.hostResults f.name results f.type.results)

theorem Shape.Sound.expected {σ : Shape} (sound : σ.Sound) {t : Trap} (admits : σ.Admits t) :
    t.Expected := by
  cases admits with
  | expected expected => exact expected
  | hostResults mem wild => exact absurd (sound.host _ mem) wild

/-! ## Machines -/

/-- The running frame is one of code checked in the context, and the store is typed. -/
structure Machine.Running (σ : Shape) (ctx : Context) (m : Machine) : Prop where
  frame : ∃ f, m.frame = some f ∧ f.Typed σ ctx
  store : m.store.Of σ

/-- A machine in front of an instruction for which the checker has the operand types
`types`, above the given levels. -/
structure Machine.Typed (σ : Shape) (ctx : Context) (types : List ValType) (levels : List Level)
    (m : Machine) : Prop extends m.Running σ ctx where
  operands : Values σ.size m.stack.operands types
  levels : m.stack.levels = levels

/-- How checked code ends: it falls through with operands of the types `after`, or a
branch or a return has landed where it should. -/
def Exits (σ : Shape) (ctx : Context) (labels : List (List ValType)) (levels : List Level)
    (after : List ValType) : Exit → Machine → Prop
  | .normal, m => m.Typed σ ctx after levels
  | .branch depth, m => m.Running σ ctx ∧
      ∃ types, labels[depth]? = some types ∧ m.stack.Lands σ.size types levels depth
  | .returned, m => m.Running σ ctx ∧ m.stack.Lands σ.size ctx.results levels labels.length

/-- How checked code stops. Whatever it did to the store is in order. -/
def Halts (σ : Shape) : Stop → Machine → Prop
  | .trap t, m => σ.Admits t ∧ m.store.Of σ
  | .refused _, _ => False
  | .outOfFuel, _ => True

/-- A call has taken its arguments off the rest of the operands and left values of the
result types instead; frame and levels are back in place. -/
structure Machine.Returned (σ : Shape) (results : List ValType) (rest : List Value)
    (before after : Machine) : Prop where
  operands : ∃ values, after.stack.operands = values ++ rest ∧
    Values σ.size values results.reverse
  levels : after.stack.levels = before.stack.levels
  frame : after.frame = before.frame
  store : after.store.Of σ

namespace Run

variable {α : Type} {σ : Shape} {ctx : Context} {labels : List (List ValType)}
  {types before after below : List ValType} {levels : List Level} {m : Machine}

/-- A step of a plain instruction in the machine. -/
theorem step_ends {action : Step α} {Good : α → Prop} (typed : m.Typed σ ctx before levels)
    (runs : ∀ s : Scope, s.Typed σ ctx before → Step.Runs σ ctx action s Good after) :
    Ends (step action) m (fun a m' => Good a ∧ m'.Typed σ ctx after levels) (Halts σ) := by
  have ends := runs ⟨m.stack.operands, m.frame, m.store⟩ ⟨typed.operands, typed.frame, typed.store⟩
  unfold Step.Runs Ends at ends
  unfold Ends step
  simp only
  cases run : action ⟨m.stack.operands, m.frame, m.store⟩ with
  | ok a s =>
      rw [run] at ends
      obtain ⟨good, typed'⟩ := ends
      exact ⟨good, ⟨typed'.frame, typed'.store⟩, typed'.operands, typed.levels⟩
  | error t s =>
      rw [run] at ends
      exact ⟨.expected ends.1, ends.2⟩

/-- A branch with operands of the types of its label. -/
theorem branch_ends {depth : Nat} (within : Scoped ctx.results labels levels)
    (known : labels[depth]? = some types)
    (typed : m.Typed σ ctx (types.reverse ++ below) levels) :
    Ends (branch depth) m (Exits σ ctx labels levels after) (Halts σ) := by
  obtain ⟨inner, l, outer, target, rfl, rfl, found, arity⟩ := within.label_at known
  obtain ⟨values, rest, operands, has, -⟩ := typed.operands.exists_append
  obtain ⟨s, unwound, above, outside⟩ := unwind_eq operands typed.levels
  have label : m.stack.label? inner.length = some (target, l.position outer) := by
    rw [Stack.label?, m.stack.base_eq, typed.levels]
    exact found
  have count : target.arity = values.length := by
    rw [arity, has.length_eq, List.length_reverse]
  unfold branch
  apply Ends.step rfl
  simp only [label, count]
  apply Ends.step unwound
  apply Ends.pure
  refine ⟨⟨typed.frame, typed.store⟩, types, known, inner, l, values, ?_, rfl, above, has⟩
  rw [outside]

/-- A return with operands of the result types. -/
theorem leave_ends (within : Scoped ctx.results labels levels)
    (typed : m.Typed σ ctx (ctx.results.reverse ++ below) levels) :
    Ends leave m (Exits σ ctx labels levels after) (Halts σ) := by
  obtain ⟨inner, l, outer, locals, rfl, length, found⟩ := within.frame_at
  obtain ⟨values, rest, operands, has, -⟩ := typed.operands.exists_append
  obtain ⟨s, unwound, above, outside⟩ := unwind_eq operands typed.levels
  have frame : m.stack.frame? = some ((ctx.results.length, locals), l.position outer) := by
    rw [Stack.frame?, m.stack.base_eq, typed.levels]
    exact found
  have count : ctx.results.length = values.length := by
    rw [has.length_eq, List.length_reverse]
  unfold leave
  apply Ends.step rfl
  simp only [frame, count]
  apply Ends.step unwound
  apply Ends.pure
  refine ⟨⟨typed.frame, typed.store⟩, inner, l, values, ?_, length, above, has⟩
  rw [outside]

/-- The end of a construct that was fallen through: the results alone are above its
label, and the label goes. -/
theorem endLabel_ends {label : Label} {under : List Value}
    (typed : m.Typed σ ctx types.reverse (⟨.label label, under⟩ :: levels))
    (has : Values σ.size under below) :
    Ends (endLabel (under.length + Level.count levels) types.length) m
      (fun _ m' => m'.Typed σ ctx (types.reverse ++ below) levels) (Halts σ) := by
  have operands : m.stack.operands = m.stack.operands ++ [] := (List.append_nil _).symm
  obtain ⟨s, ended, above, outside⟩ := endLabel_eq operands typed.levels
  have count : types.length = m.stack.operands.length := by
    rw [typed.operands.length_eq, List.length_reverse]
  rw [count]
  apply Ends.of_ok ended
  refine ⟨⟨typed.frame, typed.store⟩, ?_, outside⟩
  show Values σ.size s.operands (types.reverse ++ below)
  rw [above]
  exact typed.operands.append has

/-! ## Callees -/

/-- A function of a type is found where a direct call looks for it. -/
theorem callTarget_runs {index : UInt32} {type : FuncType} {s : Scope}
    (found : ctx.funcs[index.toNat]? = some type) (typed : s.Typed σ ctx types) :
    Step.Runs σ ctx (callTarget index) s (fun addr => ∃ f, σ.funcs[addr]? = some f ∧ f.type = type)
      types := by
  unfold callTarget
  apply Step.Runs.bind (Step.home_runs typed)
  intro inst s serves typed
  obtain ⟨addr, there, leads⟩ := serves.funcs.lookup found
  rw [List.getElem?_map] at leads
  simp only [there]
  exact Step.Runs.pure (Option.map_eq_some_iff.mp leads) typed

/-- An indirect call finds a function of its type, or there is none at that index. -/
theorem indirectTarget_runs {typeIndex tableIndex : UInt32} {type : FuncType} {table : TableType}
    {s : Scope} (known : ctx.types[typeIndex.toNat]? = some type)
    (found : ctx.tables[tableIndex.toNat]? = some table) (func : table.elem = .funcref)
    (typed : s.Typed σ ctx (.i32 :: types)) :
    Step.Runs σ ctx (indirectTarget typeIndex tableIndex) s
      (fun addr => ∃ f, σ.funcs[addr]? = some f ∧ f.type = type) types := by
  have reference : table.elem.isRef := by
    rw [func]
    rfl
  unfold indirectTarget
  apply Step.Runs.bind (Step.home_runs typed)
  intro inst s serves typed
  rw [← serves.types] at known
  simp only [known]
  apply Step.Runs.bind (Step.tableAddress_runs found typed)
  intro addr s leads typed
  apply Step.Runs.bind (Step.fetch_table_runs reference leads typed)
  intro t s entries typed
  apply Step.Runs.bind (Step.popI32_runs typed)
  intro i s _ typed
  split
  · exact Step.Runs.throw (.undefinedElement i) typed
  · next addr there =>
      have inside : addr < σ.size := (entries _ (Array.mem_of_getElem? there)).valid
      have held := typed.store.func addr
      rw [List.getElem?_eq_getElem inside] at held
      apply Ends.step rfl
      simp only [held]
      apply Step.Runs.guard .signatureMismatch typed
      intro same
      exact Step.Runs.pure ⟨_, List.getElem?_eq_getElem inside, not_not.mp same⟩ typed
  · exact Step.Runs.throw (.uninitializedElement i) typed

/-- The signature of a block among the types of the running code. -/
theorem blockSignature_eq {i : Instruction} {b : BlockType} {type : FuncType}
    (running : m.Running σ ctx) (block : i.blockType? = some b)
    (found : BlockType.signature? ctx.types b = some type) : blockSignature i m = .ok type m := by
  obtain ⟨f, some_frame, running'⟩ := running.frame
  obtain ⟨id, spaces, some_home, there, serves⟩ := running'.home
  obtain ⟨inst, held, rfl⟩ := running.store.instance_ there
  have types : inst.types = ctx.types := serves.types
  unfold blockSignature
  simp only [block]
  simp [bind, EStateM.bind, get_eq, some_frame, some_home, held, types, found]
  rfl

end Run

end WasmMachine
