/-
# What a plain instruction changes

A plain instruction makes at most one change to the frame or the store, and makes it last:
when it traps both are as before.  So what the code of a module can do to a store is a
sequence of the changes listed here, each with what the instruction has made sure of
before.  A host function that keeps values or uses a view makes one of them as well.  What
every change keeps, running code keeps.
-/

import Mathlib.Logic.Relation
import WasmMachine.Machine.Plain
import WasmMachine.Proofs.Memory.Requests
import WasmMachine.Proofs.Safety.Outcome

namespace WasmMachine

/-- What one plain instruction, or one step of a host function, can do to a store. Only a
mutable global is written, with a value of its type, and only what has room grows. -/
inductive Store.Change (s : Store) : Store → Prop
  | writeMemory (addr : Addr) (start : Nat) (bytes : List UInt8) :
      Change s (s.writeMemory addr start bytes)
  | growMemory {addr : Addr} {memory : MemInst} {count : Nat} :
      s.memories[addr]? = some memory → memory.mayGrow count = true →
      Change s (s.growMemory addr count)
  | dropData (addr : Addr) : Change s (s.dropData addr)
  | writeTable (addr : Addr) (start : Nat) (refs : List Ref) :
      Change s (s.writeTable addr start refs)
  | growTable {addr : Addr} {table : TableInst} {count : Nat} (r : Ref) :
      s.tables[addr]? = some table → table.mayGrow count = true →
      Change s (s.growTable addr count r)
  | dropElem (addr : Addr) : Change s (s.dropElem addr)
  | writeGlobal {addr : Addr} {g : GlobalInst} {v : Value} :
      s.globals[addr]? = some g → v.type = g.type.type → g.type.mutable = true →
      Change s (s.writeGlobal addr v)
  | keep (name : String) (values : List Value) : Change s (s.keep name values)

/-- A store comes about from another by changes that running code makes. -/
def Store.Evolves : Store → Store → Prop := Relation.ReflTransGen Store.Change

namespace Store.Evolves

variable {s s' s'' : Store}

theorem refl (s : Store) : s.Evolves s := Relation.ReflTransGen.refl

theorem trans (first : s.Evolves s') (second : s'.Evolves s'') : s.Evolves s'' :=
  Relation.ReflTransGen.trans first second

theorem of_change (change : s.Change s') : s.Evolves s' := .single change

/-- Using a view is a change that running code could make, if it is one. -/
theorem of_viewed (viewed : s.Viewed s') : s.Evolves s' := by
  cases viewed with
  | same => exact .refl s
  | write addr start bytes => exact .of_change (.writeMemory addr start bytes)
  | grow found room => exact .of_change (.growMemory found room)

/-- What each change keeps is kept. -/
theorem keeps {P : Store → Prop} (each : ∀ s s', s.Change s' → P s → P s')
    (evolves : s.Evolves s') (holds : P s) : P s' := by
  induction evolves with
  | refl => exact holds
  | tail _ change ih => exact each _ _ change ih

end Store.Evolves

/-- What lies below the operands, the frame and the store, is the same. -/
structure Scope.SameBelow (s s' : Scope) : Prop where
  frame : s'.frame = s.frame
  store : s'.store = s.store

namespace Scope.SameBelow

variable {s s' s'' : Scope}

theorem refl (s : Scope) : s.SameBelow s := ⟨rfl, rfl⟩

theorem trans (first : s.SameBelow s') (second : s'.SameBelow s'') : s.SameBelow s'' :=
  ⟨second.frame.trans first.frame, second.store.trans first.store⟩

end Scope.SameBelow

namespace Step

variable {α β : Type} {st : Store}

/-- A step that leaves the frame and the store `st` as they are and finds something out about
the store. -/
def Quiet (st : Store) (step : Step α) (Good : α → Prop) : Prop :=
  ∀ s : Scope, s.store = st →
    Ends step s (fun a s' => s.SameBelow s' ∧ Good a) fun _ s' => s.SameBelow s'

/-- A step that makes at most one change to the store `st`. When it traps, both the frame and
the store are as before. -/
def Writes (st : Store) (step : Step α) : Prop :=
  ∀ s : Scope, s.store = st →
    Ends step s (fun _ s' => s'.store = st ∨ st.Change s'.store) fun _ s' => s.SameBelow s'

/-! ## Putting steps together -/

namespace Quiet

variable {step : Step α} {next : α → Step β} {Good : α → Prop} {After : β → Prop}

theorem pure {a : α} (good : Good a) : Quiet st (Pure.pure a) Good :=
  fun s _ => Ends.pure ⟨.refl s, good⟩

theorem throw (t : Trap) : Quiet st (MonadExcept.throw t) Good :=
  fun s _ => Ends.throw (.refl s)

theorem bind (first : Quiet st step Good) (rest : ∀ a, Good a → Quiet st (next a) After) :
    Quiet st (step >>= next) After :=
  fun s same => Ends.bind (first s same) fun a s' found =>
    Ends.mono (rest a found.2 s' (found.1.store.trans same))
      (fun _ _ later => ⟨found.1.trans later.1, later.2⟩) fun _ _ later => found.1.trans later

theorem writes (quiet : Quiet st step Good) : Writes st step :=
  fun s same => Ends.mono (quiet s same) (fun _ _ found => .inl (found.1.store.trans same))
    fun _ _ => id

/-- A step whose result is not asked for. -/
theorem discard (quiet : Quiet st step Good) : Quiet st (discard step) fun _ => True :=
  fun s same => Ends.discard <|
    Ends.mono (quiet s same) (fun _ _ found => ⟨found.1, trivial⟩) fun _ _ => id

/-- What comes behind a step that leaves the frame and the store alone. -/
theorem before (first : Quiet st step Good) (rest : ∀ a, Good a → Writes st (next a)) :
    Writes st (step >>= next) :=
  fun s same => Ends.bind (first s same) fun a s' found =>
    Ends.mono (rest a found.2 s' (found.1.store.trans same)) (fun _ _ => id)
      fun _ _ later => found.1.trans later

end Quiet

namespace Writes

theorem pure (a : α) : Writes st (Pure.pure a) := fun _ same => Ends.pure (.inl same)

theorem throw (t : Trap) : Writes st (MonadExcept.throw t : Step α) :=
  fun s _ => Ends.throw (.refl s)

theorem modifyStore {f : Store → Store} (change : st.Change (f st)) :
    Writes st (Step.modifyStore f) := by
  rintro s rfl
  exact Ends.of_ok rfl (.inr change)

end Writes

/-- A check that traps when it fails stands in front of the rest. -/
theorem Quiet.guard {c : Prop} [Decidable c] {t : Trap} {rest : PUnit → Step β}
    {After : β → Prop} (passes : ¬ c → Quiet st (rest ()) After) :
    Quiet st (if c then MonadExcept.throw t >>= rest else rest ()) After := by
  by_cases bad : c
  · rw [if_pos bad]
    exact fun s _ => Ends.stop rfl (.refl s)
  · rw [if_neg bad]
    exact passes bad

/-- The same in front of a change. -/
theorem Writes.guard {c : Prop} [Decidable c] {t : Trap} {rest : PUnit → Step β}
    (passes : ¬ c → Writes st (rest ())) :
    Writes st (if c then MonadExcept.throw t >>= rest else rest ()) := by
  by_cases bad : c
  · rw [if_pos bad]
    exact fun s _ => Ends.stop rfl (.refl s)
  · rw [if_neg bad]
    exact passes bad

/-! ## Operands -/

theorem push_quiet (v : Value) : Quiet st (push v) fun _ => True :=
  fun _ _ => Ends.of_ok rfl ⟨⟨rfl, rfl⟩, trivial⟩

theorem popValue_quiet : Quiet st popValue fun _ => True := by
  intro s _
  unfold Ends
  fun_cases popValue s with
  | case1 v rest frame store => exact ⟨⟨rfl, rfl⟩, trivial⟩
  | case2 => exact .refl _

theorem popI32_quiet : Quiet st popI32 fun _ => True := by
  intro s _
  unfold Ends
  fun_cases popI32 s with
  | case1 bits rest frame store => exact ⟨⟨rfl, rfl⟩, trivial⟩
  | case2 => exact .refl _

theorem popRef_quiet : Quiet st popRef fun _ => True := by
  intro s _
  unfold Ends
  fun_cases popRef s with
  | case1 r rest frame store => exact ⟨⟨rfl, rfl⟩, trivial⟩
  | case2 => exact .refl _

theorem popThree_quiet : Quiet st popThree fun _ => True := by
  intro s _
  unfold Ends
  fun_cases popThree s with
  | case1 c b a rest frame store => exact ⟨⟨rfl, rfl⟩, trivial⟩
  | case2 => exact .refl _

theorem onOperands_quiet (operation : List Value → Except Trap (List Value)) :
    Quiet st (onOperands operation) fun _ => True := by
  rintro ⟨operands, frame, store⟩ rfl
  unfold Ends onOperands
  simp only
  cases operation operands with
  | ok operands => exact ⟨⟨rfl, rfl⟩, trivial⟩
  | error t => exact ⟨rfl, rfl⟩

/-! ## Places -/

theorem get_quiet : Quiet st (get : Step Scope) fun s => s.store = st :=
  fun s same => Ends.of_ok rfl ⟨.refl s, same⟩

theorem home_quiet : Quiet st home fun _ => True := by
  unfold home
  apply get_quiet.bind
  intro s _
  split
  · exact Quiet.throw .noFrame
  · split
    · exact Quiet.pure trivial
    · exact Quiet.throw .noFrame

theorem address_quiet (space : ModuleInstance → Array Addr) (missing : UInt32 → Trap)
    (index : UInt32) : Quiet st (address space missing index) fun _ => True := by
  unfold address
  apply home_quiet.bind
  intro inst _
  split
  · exact Quiet.pure trivial
  · exact Quiet.throw (missing index)

/-- What is fetched is in the store. -/
theorem fetch_quiet (space : Store → Array α) (missing : Trap) (addr : Addr) :
    Quiet st (fetch space missing addr) fun a => (space st)[addr]? = some a := by
  unfold fetch
  apply get_quiet.bind
  rintro s rfl
  split
  · next found => exact Quiet.pure found
  · exact Quiet.throw missing

end Step

end WasmMachine
