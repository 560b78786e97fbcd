/-
# Nothing but the outside fails

A linker is linked when it comes about from an empty store by making modules of the
embedder's definitions, by instantiating modules that were decoded and accepted, and by
invoking functions.  Host functions may do what they like: they may give anything of their
result types and call back into the machine.  Only the globals of the embedder have to hold
values that mean something.

Instantiating a decoded and accepted module in a linked linker fails for no reason that the
checker could have seen.  The checker and the linker walk the module independently, each with
index spaces and an evaluator for constants of its own; that they agree is what is proved
here.  What is left is told by `Link.Blocked`: the segment that does not fit, or the start
function that trapped.
-/

import WasmMachine.Link.HostModule
import WasmMachine.Proofs.Linking.Failures
import WasmMachine.Proofs.Linking.Following
import WasmMachine.Proofs.Safety.Soundness

namespace WasmMachine

open Typing

namespace Link

/-! ## What is in the way -/

section Blocking

variable {fuel : Nat} {m : Module} {name stage : String} {start l : Linker} {t : Trap}
  {e : LinkError}

/-- What makes an instantiation trap, by the stage and the trap of the report: an active
segment of the module that does not fit where it goes, or a start function, which the module
has and which trapped. All that comes before has been done. -/
inductive Blocked (fuel : Nat) (m : Module) (name : String) (start : Linker) :
    String → Trap → LinkError → Linker → Prop
  | element {externs : List Extern} {inst : ModuleInstance} {i : Nat} {e : Element}
      {offset : UInt32} {l : Linker} :
      start.resolve m = .ok externs → Reached start m (.fresh m name externs) (.element i) l →
      l.instance? start.machine.store.instances.size = some inst →
      m.elements[i]? = some e → e.mode = .active →
      Store.Obstacle m inst l.machine.store (.element i) (.elementBounds i e.table offset) →
      Blocked fuel m name start "elem" .tableBounds (.elementBounds i e.table offset) l
  | data {externs : List Extern} {inst : ModuleInstance} {i : Nat} {d : DataSegment}
      {offset : UInt32} {l : Linker} :
      start.resolve m = .ok externs → Reached start m (.fresh m name externs) (.data i) l →
      l.instance? start.machine.store.instances.size = some inst →
      m.data[i]? = some d → d.mode = .active →
      Store.Obstacle m inst l.machine.store (.data i) (.dataBounds i d.memory offset) →
      Blocked fuel m name start "data" .memoryBounds (.dataBounds i d.memory offset) l
  | start {externs : List Extern} {inst : ModuleInstance} {index : UInt32} {addr : Addr}
      {t : Trap} {l l' : Linker} :
      start.resolve m = .ok externs → Reached start m (.fresh m name externs) .start l →
      l.instance? start.machine.store.instances.size = some inst →
      m.start = some index → inst.funcs[index.toNat]? = some addr →
      Run.invoke fuel addr [] l.machine = .error (.trap t) l'.machine →
      Blocked fuel m name start "start" t (.startFailed index t.toFault) l'

/-- The report names the stage and has the trap as its cause. -/
theorem Blocked.toFault (blocked : Blocked fuel m name start stage t e l) :
    stage ∈ ["elem", "data", "start"] ∧
      ∃ detail, e.toFault = LinkError.instantiation stage detail (some t.toFault) := by
  cases blocked with
  | element => exact ⟨by simp, _, rfl⟩
  | data => exact ⟨by simp, _, rfl⟩
  | start => exact ⟨by simp, _, rfl⟩

theorem Blocked.trapped (blocked : Blocked fuel m name start stage t e l) : e.Trapped := by
  cases blocked with
  | element => exact .elementBounds _ _ _
  | data => exact .dataBounds _ _ _
  | start => exact .startFailed _ _

/-- A start function is not to blame unless it trapped. -/
theorem trap_of_startStop (trapped : e.Trapped) {index : UInt32} {stop : Stop}
    (is : startStop index stop = .failed e) :
    ∃ t : Trap, stop = .trap t ∧ e = .startFailed index t.toFault := by
  cases stop with
  | trap t =>
      cases is
      exact ⟨t, rfl, rfl⟩
  | outOfFuel => cases is
  | refused r =>
      obtain rfl : LinkError.startFailed index r.toFault = e := LinkStop.failed.inj is
      generalize refused : r.toFault = fault at trapped
      cases trapped with
      | startFailed _ t =>
          cases r <;> simp [Refusal.toFault, Trap.toFault, Fault.invalidInput, Category.trap]
            at refused

/-- Instantiating a checked module fails for an import, a segment or a start function. -/
theorem instantiate_blocked (checked : m.Checked) (placed : m.Placed)
    (sealed : start.machine.store.Sealed)
    (failed : instantiate fuel m name start = .error (.failed e) l) :
    (∃ mod field problem, e = .importFailed mod field problem ∧ start.resolve m = .error e) ∨
      ∃ stage t, Blocked fuel m name start stage t e l := by
  have external := (instantiate_stops checked placed sealed fuel name).bad failed
  have stopped := (instantiate_course fuel m name start).bad failed
  obtain ⟨unresolved | trapped, -⟩ := external
  · exact .inl unresolved
  · refine .inr ?_
    generalize same : LinkStop.failed e = stop at stopped
    cases stopped with
    | unresolved unresolved =>
        cases same
        obtain ⟨_, _, _, rfl⟩ := importFailed_of_resolve unresolved
        cases trapped
    | hindered resolved hindered =>
        subst same
        obtain ⟨stage, inst, reached, found, obstacle⟩ := hindered
        cases trapped with
        | elementBounds i table offset =>
            cases obstacle with
            | elementBounds listed active held target ran short =>
                exact ⟨_, _, .element resolved reached found listed active
                  (.elementBounds listed active held target ran short)⟩
        | dataBounds i memory offset =>
            cases obstacle with
            | dataBounds listed active held target ran short =>
                exact ⟨_, _, .data resolved reached found listed active
                  (.dataBounds listed active held target ran short)⟩
        | startFailed index t => cases obstacle
    | crashed resolved reached found crashed =>
        cases crashed with
        | intro started there ran =>
            obtain ⟨t, rfl, rfl⟩ := trap_of_startStop trapped same.symm
            exact ⟨_, t, .start resolved reached found started there ran⟩

end Blocking

/-! ## Modules of the embedder -/

variable {l : Linker} {mod : String}

/-- A checked definition of the embedder keeps the immutable globals in order. -/
theorem addHostDef_seals {d : HostDef} {inst : ModuleInstance} (passed : d.check mod = .ok ())
    (genuine : ∀ type v, d.item = .global type (some v) → v.Genuine)
    (sealed : l.machine.store.Sealed) {Bad : LinkStop → Linker → Prop} :
    Ends (addHostDef mod inst d) l (fun _ l' => l'.machine.store.Sealed) Bad := by
  obtain ⟨name, item⟩ := d
  cases item with
  | func type behaviour => exact Ends.of_ok rfl sealed
  | table type => exact Ends.of_ok rfl sealed
  | memory type => exact Ends.of_ok rfl sealed
  | global type value =>
      obtain ⟨v, rfl, is⟩ := exists_value_of_check passed
      refine Ends.of_ok rfl (sealed.addGlobal fun _ => ?_)
      rw [← is]
      exact (genuine type v rfl).exists_has

theorem hostModule_seals {defs : List HostDef}
    (genuine : ∀ d ∈ defs, ∀ type v, d.item = .global type (some v) → v.Genuine)
    (sealed : l.machine.store.Sealed) :
    Ends (hostModule mod defs) l (fun _ l' => l'.machine.store.Sealed)
      (fun _ l' => l'.machine.store.Sealed) := by
  refine hostModule_keeps (·.machine.store.Sealed) sealed ?_ ?_
  · intro d mem passed inst l' sealed
    exact addHostDef_seals passed (genuine d mem) sealed
  · intro inst l' l'' sealed same
    rw [same]
    exact sealed

end Link

/-- The reports on imports are of three kinds. -/
theorem ImportProblem.word_mem (problem : ImportProblem) :
    problem.word ∈ ["module_not_found", "import_not_found", "import_type_mismatch"] := by
  cases problem <;> simp [word]

namespace Linker

/-- The linkers that an embedder gets to with modules that were decoded and accepted,
whatever its host functions do. Several linkers and machines may share a store. -/
inductive Linked : Linker → Prop
  | start {l : Linker} (empty : l.machine.store = {}) : Linked l
  | share {l l' : Linker} (before : Linked l) (same : l'.machine.store = l.machine.store) :
      Linked l'
  | hostModule {l l' : Linker} {mod : String} {defs : List HostDef} (before : Linked l)
      (genuine : ∀ d ∈ defs, ∀ type v, d.item = .global type (some v) → v.Genuine)
      (leaves : (Link.hostModule mod defs).Leaves l l') : Linked l'
  | instantiate {l l' : Linker} {bytes : List UInt8} {m : Module} {fuel : Nat} {name : String}
      (before : Linked l) (decoded : Module.decode bytes = .ok m)
      (validated : m.validate = .ok ())
      (leaves : (Link.instantiate fuel m name).Leaves l l') : Linked l'
  | invoke {l : Linker} {machine : Machine} {fuel : Nat} {addr : Addr}
      {args : List (Option Value)} (before : Linked l)
      (leaves : (Run.invoke fuel addr args).Leaves l.machine machine) :
      Linked { l with machine := machine }

namespace Linked

variable {l : Linker}

/-- In a linked linker the immutable globals hold values of their types. -/
theorem sealed (linked : l.Linked) : l.machine.store.Sealed := by
  induction linked with
  | start empty =>
      rw [empty]
      intro addr g found
      cases found
  | share _ same ih =>
      rw [same]
      exact ih
  | @hostModule l l' mod defs _ genuine leaves ih =>
      have ends : Ends (Link.hostModule mod defs) l _ _ := Link.hostModule_seals genuine ih
      rcases leaves with ⟨id, ran⟩ | ⟨e, ran⟩
      · exact ends.good ran
      · exact ends.bad ran
  | @instantiate l l' bytes m fuel name _ decoded validated leaves ih =>
      have ends := Link.instantiate_stops (Module.checked_of_decode decoded validated)
        (Module.placed_of_decode decoded validated) ih fuel name
      rcases leaves with ⟨id, ran⟩ | ⟨e, ran⟩
      · exact (ends.good ran).2
      · exact (ends.bad ran).2
  | @invoke l machine fuel addr args _ leaves ih =>
      have ends := Run.invoke_evolves fuel addr args l.machine
      rcases leaves with ⟨results, ran⟩ | ⟨stop, -, ran⟩
      · exact Store.Evolves.sealed (ends.good ran) ih
      · exact (ends.bad ran).1.sealed ih

/-- Instantiating a module that was decoded and accepted makes an instance in which every
accepted constant expression has a value of the wanted type; or an import does not resolve;
or an active segment of the module does not fit or its start function traps, and the report
gives that stage with the trap as its cause. Only a start function can use up the fuel. -/
theorem instantiate_external (linked : l.Linked) {bytes : List UInt8} {m : Module}
    (decoded : Module.decode bytes = .ok m) (validated : m.validate = .ok ()) (fuel : Nat)
    (name : String) :
    match Link.instantiate fuel m name l with
    | .ok id l' =>
        ∃ inst, l'.instance? id = some inst ∧
          ∀ expr want readable, Instruction.allWellFormed expr →
            checkConstant (.ofModule m) expr want readable = .ok () →
            ∃ v, l'.machine.store.constant inst expr = .ok v ∧ v.type = want
    | .error (.failed e) l' =>
        (l.resolve m = .error e ∧
          ∃ word ∈ ["module_not_found", "import_not_found", "import_type_mismatch"],
            ∃ mod field detail, e.toFault = .report ⟨Phase.link, word⟩ [mod, field] detail none) ∨
        ∃ stage ∈ ["elem", "data", "start"], ∃ detail, ∃ t : Trap,
          Link.Blocked fuel m name l stage t e l' ∧
            e.toFault = LinkError.instantiation stage detail (some t.toFault)
    | .error .outOfFuel _ => m.start.isSome := by
  have checked := Module.checked_of_decode decoded validated
  have placed := Module.placed_of_decode decoded validated
  have ends := Link.instantiate_stops checked placed linked.sealed fuel name
  unfold Ends at ends
  split at ends
  · next id l' ran =>
      obtain ⟨⟨inst, found, serves⟩, sealed⟩ := ends
      simp only [ran]
      refine ⟨inst, found, fun expr want readable wellFormed accepted => ?_⟩
      obtain ⟨v, evaluated, gives⟩ :=
        Store.constant_gives (serves.offers readable) wellFormed accepted
      obtain ⟨n, has⟩ := gives.has_of_sealed sealed
      exact ⟨v, evaluated, has.type⟩
  · next stop l' ran =>
      simp only [ran]
      cases stop with
      | outOfFuel => exact ends.1
      | failed e =>
          rcases Link.instantiate_blocked checked placed linked.sealed ran with
            ⟨mod, field, problem, rfl, resolved⟩ | ⟨stage, t, blocked⟩
          · exact .inl ⟨resolved, problem.word, problem.word_mem, mod, field, _, rfl⟩
          · obtain ⟨mem, detail, report⟩ := blocked.toFault
            exact .inr ⟨stage, mem, detail, t, blocked, report⟩

/-- What an embedder offers to the module below: a global. -/
def offsetDefs : List HostDef := [⟨"base", .global ⟨.i32, false⟩ (some (.i32 1))⟩]

/-- The linker in which it is offered. -/
def offsetLinker : Linker :=
  match Link.hostModule "host" offsetDefs (Embedding.new {}).linker with
  | .ok _ l => l
  | .error _ l => l

/-- A module whose segment starts behind the end of its memory, at an offset that the
embedder gives. -/
def overlongBytes : List UInt8 :=
  [0x00, 0x61, 0x73, 0x6d, 1, 0, 0, 0,
    2, 14, 1, 4, 0x68, 0x6f, 0x73, 0x74, 4, 0x62, 0x61, 0x73, 0x65, 3, 0x7f, 0,
    5, 3, 1, 0, 0,
    11, 7, 1, 0, 0x23, 0, 0x0b, 1, 7]

/-- What these bytes hold. -/
def overlongModule : Module :=
  { imports := [⟨"host", "base", ⟨.global, 0, none, none, some ⟨.i32, false⟩⟩⟩]
    memories := [⟨⟨0, none⟩⟩]
    data := [⟨.active, 0, 0, [.plain Opcode.globalGet (some (.globalIndex 0))], [7]⟩] }

/-- The module is accepted, and instantiating it behind the embedder's one fails with a trap
as the cause, for its segment. -/
theorem instantiate_external_overlong :
    (Linked offsetLinker ∧ Module.decode overlongBytes = .ok overlongModule ∧
      overlongModule.validate = .ok ()) ∧
      ∃ e l', Link.instantiate 1 overlongModule "" offsetLinker = .error (.failed e) l' ∧
        ∃ stage ∈ ["elem", "data", "start"], ∃ detail, ∃ t : Trap,
          Link.Blocked 1 overlongModule "" offsetLinker stage t e l' ∧
            e.toFault = LinkError.instantiation stage detail (some t.toFault) := by
  have linked : Linked offsetLinker := by
    have offered : Link.hostModule "host" offsetDefs (Embedding.new {}).linker =
        .ok 0 offsetLinker := rfl
    refine .hostModule (.start rfl) ?_ (.inl ⟨0, offered⟩)
    rintro d listed type v is
    obtain rfl : d = _ := List.mem_singleton.mp listed
    cases is
    exact nofun
  have decoded : Module.decode overlongBytes = .ok overlongModule := rfl
  have validated : overlongModule.validate = .ok () := rfl
  have external := linked.instantiate_external decoded validated 1 ""
  obtain ⟨l', ran⟩ : ∃ l', Link.instantiate 1 overlongModule "" offsetLinker =
      .error (.failed (.dataBounds 0 0 1)) l' := ⟨_, rfl⟩
  refine ⟨⟨linked, decoded, validated⟩, _, l', ran, ?_⟩
  rw [ran] at external
  rcases external with ⟨unresolved, -⟩ | trapped
  · cases unresolved
  · exact trapped

end Linked

end Linker

end WasmMachine
