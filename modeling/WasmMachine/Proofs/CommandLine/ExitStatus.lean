/-
# The exit status of the command

The command loads a module, makes an instance of it beside the functions that print, picks
an entry and calls it.  Its exit status is found by looking for a report of one phase in
whatever failed, which may have been put around its cause several times on the way.  So it
depends on what every part wraps a failure into.

`ExitStatus` says what the status stands for, without any report: each status with the
reasons for it, none of which can hold together with another.  The command gives a status
exactly when there is such a reason for it.
-/

import WasmMachine.CommandLine.Settings
import WasmMachine.Proofs.CommandLine.Entry
import WasmMachine.Proofs.Linking.Agreement
import WasmMachine.Proofs.Linking.External

namespace WasmMachine

open Typing

namespace CommandLine

/-! ## The functions that print -/

/-- A function that records the number it is called with. -/
def printer (name : String) (type : HandlerType) : HostBehaviour := fun args =>
  (HostBehaviour.logging name (List.zipWith HandlerType.convert [type] args)).mapResults
    quietResult

/-- What every program can import. -/
def printFunctions : List HostFunction := [
  ⟨"print_f32", ⟨[.f32], []⟩, some (printer "print_f32" .float32)⟩,
  ⟨"print_f64", ⟨[.f64], []⟩, some (printer "print_f64" .float64)⟩,
  ⟨"print_i32", ⟨[.i32], []⟩, some (printer "print_i32" .int32)⟩,
  ⟨"print_i64", ⟨[.i64], []⟩, some (printer "print_i64" .int64)⟩]

/-- The registry with these functions. -/
def printRegistry : HostRegistry := ⟨printFunctions.map (("env", ·)), ["env"]⟩

/-- The linker that a module is brought to: nothing but these functions can be imported. -/
def printers (options : Options) : Linker :=
  match Link.hostModule "env" (printFunctions.map fun f => ⟨f.name, .func f.type f.behaviour⟩)
      (Embedding.new options).linker with
  | .ok _ l => l
  | .error _ l => l

theorem registerObject_printing :
    HostRegistry.registerObject {} printing = (printRegistry, none) := by
  have sorted : printing.methods.mergeSort (fun a b => !(b.1 < a.1)) = printing.methods :=
    List.mergeSort_of_pairwise (by decide +kernel)
  unfold HostRegistry.registerObject
  rw [sorted]
  rfl

theorem bindHosts_printing (options : Options) :
    Embed.bindHosts { Embedding.new options with hosts := printRegistry } =
      .ok () ⟨printers options, printRegistry.bound "env", options⟩ := by
  have pending : printRegistry.pendingNamespaces = ["env"] := List.mergeSort_singleton _
  have sorted : printRegistry.functionsOf "env" = printFunctions :=
    List.mergeSort_of_pairwise (by decide +kernel)
  show Embed.bindNamespaces printRegistry.pendingNamespaces _ = _
  rw [pending]
  show (discard (Embed.onLinker (Link.hostModule "env"
    ((printRegistry.functionsOf "env").map _))) >>= _) _ = _
  rw [sorted]
  rfl

theorem sealed_printers (options : Options) : (printers options).machine.store.Sealed := by
  intro addr g found
  cases found

/-! ## What a status stands for -/

section Reasons

variable (fuel : Nat) (config : Config) (m : Module)

/-- An import does not resolve. -/
def Unresolved : Prop :=
  ∃ imp ∈ m.imports, ∃ problem,
    (printers config.options).resolveImport m.types imp = .error problem

/-- Making the instance stops at an active segment that does not fit. -/
def SegmentMisfits : Prop :=
  ∃ stage inst e l,
    Link.instantiate fuel m "main" (printers config.options) = .error (.failed e) l ∧
      l.instance? (printers config.options).machine.store.instances.size = some inst ∧
      Store.Obstacle m inst l.machine.store stage e ∧
      ((∃ i table offset, e = .elementBounds i table offset) ∨
        ∃ i memory offset, e = .dataBounds i memory offset)

/-- Making the instance stops since the start function traps. -/
def StartTraps : Prop :=
  ∃ (index : UInt32) (inst : ModuleInstance) (addr : Addr) (t : Trap) (l l' : Linker),
    Link.instantiate fuel m "main" (printers config.options) =
        .error (.failed (.startFailed index t.toFault)) l' ∧
      m.start = some index ∧
      l.instance? (printers config.options).machine.store.instances.size = some inst ∧
      inst.funcs[index.toNat]? = some addr ∧
      Run.invoke fuel addr [] l.machine = .error (.trap t) l'.machine

/-- The instance is made. -/
def Makes (id : InstanceId) (l : Linker) : Prop :=
  Link.instantiate fuel m "main" (printers config.options) = .ok id l

/-- An entry that takes nothing is called in an instance that was made. -/
def Calls (l : Linker) (addr : Addr) : Prop :=
  ∃ id inst name results, Makes fuel config m id l ∧ Picks config m name ⟨[], results⟩ ∧
    l.instance? id = some inst ∧ inst.exportedFunc? name = some addr

/-- Something traps: a segment does not fit, or the start function or the entry does. -/
inductive Traps : Prop
  | segment : SegmentMisfits fuel config m → Traps
  | start : StartTraps fuel config m → Traps
  | entry {l : Linker} {addr : Addr} {t : Trap} {machine : Machine} : Calls fuel config m l addr →
      Run.invoke fuel addr [] l.machine = .error (.trap t) machine → Traps

end Reasons

/-- The exit statuses, each with what it stands for. -/
inductive ExitStatus (fuel : Nat) (config : Config) (bytes : List UInt8) : UInt8 → Prop
  | rejected : (∀ m, ¬ Loads bytes m) → ExitStatus fuel config bytes 2
  | unresolved {m : Module} : Loads bytes m → Unresolved config m →
      ExitStatus fuel config bytes 3
  | traps {m : Module} : Loads bytes m → Traps fuel config m → ExitStatus fuel config bytes 4
  | entryMissing {m : Module} {id : InstanceId} {l : Linker} : Loads bytes m →
      Makes fuel config m id l → EntryMissing config m → ExitStatus fuel config bytes 3
  | noEntry {m : Module} {id : InstanceId} {l : Linker} : Loads bytes m →
      Makes fuel config m id l → NoEntry config m → ExitStatus fuel config bytes 0
  | parameters {m : Module} {id : InstanceId} {l : Linker} {name : String} {type : FuncType} :
      Loads bytes m → Makes fuel config m id l → Picks config m name type → type.params ≠ [] →
      ExitStatus fuel config bytes 1
  | returns {m : Module} {l : Linker} {addr : Addr} {results : List Value} {machine : Machine} :
      Loads bytes m → Calls fuel config m l addr →
      Run.invoke fuel addr [] l.machine = .ok results machine → ExitStatus fuel config bytes 0

/-- A run ends with a status. -/
def Gives (ran : Except Unit Outcome) (status : UInt8) : Prop :=
  ∃ outcome, ran = .ok outcome ∧ outcome.status = status

theorem Gives.unique {ran : Except Unit Outcome} {status status' : UInt8}
    (gives : Gives ran status) (gives' : Gives ran status') : status = status' := by
  obtain ⟨outcome, is, rfl⟩ := gives
  obtain ⟨outcome', is', rfl⟩ := gives'
  cases is.symm.trans is'
  rfl

/-! ## Making the instance -/

section Making

variable {fuel : Nat} {config : Config} {m : Module} {bytes : List UInt8} {l : Linker}
  {e : LinkError}

theorem inPhase_of_trapped (trapped : e.Trapped) : e.toFault.inPhase Phase.runtime = true := by
  obtain ⟨stage, -, detail, t, is⟩ := trapped.toFault
  rw [is]
  cases cause : t.cause? with
  | none => simp [LinkError.instantiation, Fault.inPhase, Trap.toFault, cause, Category.trap]
  | some fault => simp [LinkError.instantiation, Fault.inPhase, Trap.toFault, cause, Category.trap]

theorem not_inPhase_of_unresolved (unresolved : (printers config.options).resolve m = .error e) :
    e.toFault.inPhase Phase.runtime = false := by
  obtain ⟨mod, name, problem, rfl⟩ := Link.importFailed_of_resolve unresolved
  rfl

/-- A failed import is reported for the module. -/
theorem unresolved_iff : Unresolved config m ↔
    ∃ e, (printers config.options).resolve m = .error e := by
  constructor
  · rintro ⟨imp, mem, problem, failed⟩
    cases resolved : (printers config.options).resolve m with
    | error e => exact ⟨e, rfl⟩
    | ok externs =>
        obtain ⟨i, place⟩ := List.getElem?_of_mem mem
        obtain ⟨found, -, bound⟩ :=
          exists_getElem?_of_forall₂ (Linker.forall₂_of_resolve resolved).flip place
        cases failed.symm.trans bound
  · rintro ⟨e, failed⟩
    obtain ⟨imp, mem, failed⟩ := Link.exists_of_mapM_eq_error failed
    refine ⟨imp, mem, ?_⟩
    cases found : (printers config.options).resolveImport m.types imp with
    | ok x =>
        rw [found] at failed
        cases failed
    | error problem => exact ⟨problem, rfl⟩

theorem instantiate_of_unresolved (failed : (printers config.options).resolve m = .error e) :
    Link.instantiate fuel m "main" (printers config.options) =
      .error (.failed e) (printers config.options) := by
  unfold Link.instantiate
  simp only [bind, EStateM.bind, get_eq, failed]
  rfl

/-- Making the instance of a module that loads fails for an import, for a segment or for a
start function. -/
theorem failed_cases (loads : Loads bytes m)
    (failed : Link.instantiate fuel m "main" (printers config.options) = .error (.failed e) l) :
    Unresolved config m ∧ e.toFault.inPhase Phase.runtime = false ∨
      Traps fuel config m ∧ e.toFault.inPhase Phase.runtime = true := by
  have checked := Module.checked_of_decode loads.decoded loads.validated
  have placed := Module.placed_of_decode loads.decoded loads.validated
  rcases Link.instantiate_blocked checked placed (sealed_printers config.options) failed with
    ⟨_, _, _, rfl, unresolved⟩ | ⟨stage, t, blocked⟩
  · exact .inl ⟨unresolved_iff.mpr ⟨_, unresolved⟩, not_inPhase_of_unresolved unresolved⟩
  · refine .inr ⟨?_, inPhase_of_trapped blocked.trapped⟩
    cases blocked with
    | element _ _ found _ _ obstacle =>
        exact .segment ⟨_, _, _, l, failed, found, obstacle, .inl ⟨_, _, _, rfl⟩⟩
    | data _ _ found _ _ obstacle =>
        exact .segment ⟨_, _, _, l, failed, found, obstacle, .inr ⟨_, _, _, rfl⟩⟩
    | start _ _ found started there ran =>
        exact .start ⟨_, _, _, t, _, _, failed, started, found, there, ran⟩

end Making

/-! ## Running -/

section Running

variable {fuel : Nat} {request : Request} {path : String} {bytes : List UInt8} {config : Config}
  {m : Module} {l l' : Linker} {id : InstanceId} {e : LinkError} {name : String}
  {type : FuncType} {addr : Addr}

/-- The instance is made where the functions that print are. -/
theorem instantiate_printing (fuel : Nat) (options : Options) (m : Module) :
    Embed.instantiate fuel m "main" { Embedding.new options with hosts := printRegistry } =
      Embed.onLinker (Link.instantiate fuel m "main")
        ⟨printers options, printRegistry.bound "env", options⟩ := by
  show EStateM.bind Embed.bindHosts _ _ = _
  unfold EStateM.bind
  rw [bindHosts_printing]

theorem runModule_of_makes (makes : Makes fuel config m id l) :
    runModule fuel request config path printRegistry m =
      runEntry fuel request.terminal (header request.terminal path (exportedNames m)) config.entry
        m ⟨l, printRegistry.bound "env", config.options⟩ id := by
  unfold runModule EStateM.run
  dsimp only
  rw [instantiate_printing, Embed.onLinker, show Link.instantiate _ _ _ _ = _ from makes]

theorem runModule_of_failed
    (failed : Link.instantiate fuel m "main" (printers config.options) = .error (.failed e) l) :
    Gives (runModule fuel request config path printRegistry m)
      (if e.toFault.inPhase Phase.runtime then 4 else 3) := by
  unfold runModule EStateM.run
  dsimp only
  rw [instantiate_printing, Embed.onLinker, failed]
  exact ⟨_, rfl, rfl⟩

theorem runModule_of_outOfFuel
    (spent : Link.instantiate fuel m "main" (printers config.options) = .error .outOfFuel l) :
    runModule fuel request config path printRegistry m = .error () := by
  unfold runModule EStateM.run
  dsimp only
  rw [instantiate_printing, Embed.onLinker, spent]
  rfl

/-- The instance that was made serves the module and exports what the module says. -/
theorem Makes.exists_instance (makes : Makes fuel config m id l) (loads : Loads bytes m) :
    ∃ inst, l.instance? id = some inst ∧ inst.Exporting m.exports ∧
      l.machine.store.shape.Serves inst (.ofModule m) := by
  have checked := Module.checked_of_decode loads.decoded loads.validated
  have structured := (Module.parts_of_validate loads.validated).1
  obtain ⟨⟨inst, found, serves⟩, ⟨inst', found', exporting⟩⟩ := (Link.instantiate_serves
    checked.imports structured (Link.dataCount_of_decode loads.decoded) fuel "main").good makes
  cases found.symm.trans found'
  exact ⟨inst, found, exporting, serves⟩

/-- A function that takes nothing is not refused when it is called with nothing. -/
theorem trap_of_call (loads : Loads bytes m) (calls : Calls fuel config m l addr) {stop : Stop}
    {machine : Machine} (ran : Run.invoke fuel addr [] l.machine = .error stop machine)
    (fueled : stop ≠ .outOfFuel) : ∃ t, stop = .trap t := by
  obtain ⟨id, inst, name, results, makes, picks, found, exported⟩ := calls
  obtain ⟨inst', found', exporting, serves⟩ := makes.exists_instance loads
  cases found.symm.trans found'
  obtain ⟨type, is, held⟩ := exports_of_exportedFunc? loads exporting serves exported
  cases stop with
  | trap t => exact ⟨t, rfl⟩
  | outOfFuel => exact absurd rfl fueled
  | refused r =>
      obtain ⟨f, there, same⟩ : ∃ f, l.machine.store.funcs[addr]? = some f ∧ f.type = type := by
        simpa [Store.shape] using held
      have unmatched := ((Run.invoke_evolves fuel addr [] l.machine).bad ran).2 r rfl f there
      have nothing : type = ⟨[], results⟩ := by
        have known := signature?_of_exports loads is
        rw [signature?_of_exports loads picks.exports] at known
        exact (Option.some.inj known).symm
      rw [same, nothing] at unmatched
      cases unmatched

section Entry

variable {terminal : Bool} {top : String} {hosts : HostRegistry} {options : Options}
  {inst : ModuleInstance}

theorem runEntry_of_missing (found : l.instance? id = some inst)
    (exported : ∀ name, (inst.exportedFunc? name).isSome = true ↔ ∃ type, m.Exports name type)
    (missing : EntryMissing config m) :
    Gives (runEntry fuel terminal top config.entry m ⟨l, hosts, options⟩ id) 3 := by
  obtain ⟨message, picked⟩ := pickEntry_of_missing exported missing
  unfold runEntry
  rw [show Embedding.instance? ⟨l, hosts, options⟩ id = some inst from found, Option.getD_some,
    picked]
  exact ⟨_, rfl, rfl⟩

theorem runEntry_of_noEntry (found : l.instance? id = some inst)
    (exported : ∀ name, (inst.exportedFunc? name).isSome = true ↔ ∃ type, m.Exports name type)
    (noEntry : NoEntry config m) :
    Gives (runEntry fuel terminal top config.entry m ⟨l, hosts, options⟩ id) 0 := by
  unfold runEntry
  rw [show Embedding.instance? ⟨l, hosts, options⟩ id = some inst from found, Option.getD_some,
    pickEntry_of_noEntry exported noEntry]
  exact ⟨_, rfl, rfl⟩

theorem runEntry_of_picks (found : l.instance? id = some inst)
    (exported : ∀ name, (inst.exportedFunc? name).isSome = true ↔ ∃ type, m.Exports name type)
    (picks : Picks config m name type) (signature : Embedding.signature? m name = some type) :
    (type.params ≠ [] →
      Gives (runEntry fuel terminal top config.entry m ⟨l, hosts, options⟩ id) 1) ∧
    (type.params = [] → runEntry fuel terminal top config.entry m ⟨l, hosts, options⟩ id =
      callEntry fuel terminal top ⟨l, hosts, options⟩ id name) := by
  unfold runEntry
  rw [show Embedding.instance? ⟨l, hosts, options⟩ id = some inst from found, Option.getD_some,
    pickEntry_of_picks exported picks]
  dsimp only
  rw [signature, Option.map_some, Option.getD_some]
  constructor
  · intro some
    rw [if_pos (mt List.length_eq_zero_iff.mp some)]
    exact ⟨_, rfl, rfl⟩
  · intro none
    rw [if_neg (not_not.mpr (List.length_eq_zero_iff.mpr none))]

theorem call_eq (found : l.instance? id = some inst)
    (exported : inst.exportedFunc? name = some addr) :
    Embed.call fuel id name [] ⟨l, hosts, options⟩ =
      Embed.onMachine (Run.invoke fuel addr []) ⟨l, hosts, options⟩ := by
  have there : (Embedding.instance? ⟨l, hosts, options⟩ id).bind (·.exportedFunc? name) =
      some addr := Option.bind_eq_some_iff.mpr ⟨inst, found, exported⟩
  unfold Embed.call
  simp only [bind, EStateM.bind, get_eq, there]

theorem callEntry_of_ok (found : l.instance? id = some inst)
    (exported : inst.exportedFunc? name = some addr) {results : List Value} {machine : Machine}
    (ran : Run.invoke fuel addr [] l.machine = .ok results machine) :
    Gives (callEntry fuel terminal top ⟨l, hosts, options⟩ id name) 0 := by
  unfold callEntry EStateM.run
  rw [call_eq found exported, Embed.onMachine, ran]
  exact ⟨_, rfl, rfl⟩

theorem callEntry_of_trap (found : l.instance? id = some inst)
    (exported : inst.exportedFunc? name = some addr) {t : Trap} {machine : Machine}
    (ran : Run.invoke fuel addr [] l.machine = .error (.trap t) machine) :
    Gives (callEntry fuel terminal top ⟨l, hosts, options⟩ id name) 4 := by
  unfold callEntry EStateM.run
  rw [call_eq found exported, Embed.onMachine, ran]
  exact ⟨_, rfl, rfl⟩

theorem callEntry_of_outOfFuel (found : l.instance? id = some inst)
    (exported : inst.exportedFunc? name = some addr) {machine : Machine}
    (ran : Run.invoke fuel addr [] l.machine = .error .outOfFuel machine) :
    callEntry fuel terminal top ⟨l, hosts, options⟩ id name = .error () := by
  unfold callEntry EStateM.run
  rw [call_eq found exported, Embed.onMachine, ran]
  rfl

end Entry

end Running

/-! ## The classification -/

section Status

variable {fuel : Nat} {configure : ConfigReader} {request : Request} {path : String}
  {bytes : List UInt8} {config : Config} {status : UInt8} {m : Module}

section Reading

variable (args : request.args = [path]) (file : request.file path = .ok bytes)
  (configured : configure request.environment = .ok config)

include args file configured

/-- With a file to read and a configuration, a run goes on with the module that loads. -/
theorem run_of_loads (loads : Loads bytes m) :
    run fuel configure request = runModule fuel request config path printRegistry m := by
  unfold run program
  rw [args, configured, registerObject_printing]
  simp only [List.length_singleton, Nat.lt_irrefl, if_false, file, load_eq_ok_iff.mpr loads]

theorem run_of_rejected (rejected : ∀ m, ¬ Loads bytes m) :
    Gives (run fuel configure request) 2 := by
  unfold run program
  rw [args, configured, registerObject_printing]
  simp only [List.length_singleton, Nat.lt_irrefl, if_false, file]
  cases loaded : Embedding.load bytes with
  | ok m => exact absurd (load_eq_ok_iff.mp loaded) (rejected m)
  | error fault => exact ⟨_, rfl, rfl⟩

end Reading

/-- A run of a module that loads uses up the fuel, or gives a status that there is a reason
for. -/
theorem runModule_cases (loads : Loads bytes m) :
    runModule fuel request config path printRegistry m = .error () ∨
      ∃ status, Gives (runModule fuel request config path printRegistry m) status ∧
        ExitStatus fuel config bytes status := by
  cases made : Link.instantiate fuel m "main" (printers config.options) with
  | error stop l =>
      cases stop with
      | outOfFuel => exact .inl (runModule_of_outOfFuel made)
      | failed e =>
          refine .inr ⟨_, runModule_of_failed made, ?_⟩
          rcases failed_cases loads made with ⟨unresolved, phase⟩ | ⟨traps, phase⟩
          · rw [phase]
            exact .unresolved loads unresolved
          · rw [phase]
            exact .traps loads traps
  | ok id l =>
      have makes : Makes fuel config m id l := made
      obtain ⟨inst, found, exporting, serves⟩ := makes.exists_instance loads
      have exported := isSome_exportedFunc? loads exporting serves
      rw [runModule_of_makes makes]
      rcases entry_cases config m with missing | none | ⟨name, type, picks⟩
      · exact .inr ⟨3, runEntry_of_missing found exported missing,
          .entryMissing loads makes missing⟩
      · exact .inr ⟨0, runEntry_of_noEntry found exported none, .noEntry loads makes none⟩
      · obtain ⟨some, none⟩ := runEntry_of_picks found exported picks
          (signature?_of_exports loads picks.exports)
        by_cases parameters : type.params = []
        · rw [none parameters]
          obtain ⟨addr, there⟩ :=
            Option.isSome_iff_exists.mp ((exported name).mpr ⟨type, picks.exports⟩)
          have calls : Calls fuel config m l addr := by
            obtain ⟨params, results⟩ := type
            obtain rfl : params = [] := parameters
            exact ⟨id, inst, name, results, makes, picks, found, there⟩
          cases called : Run.invoke fuel addr [] l.machine with
          | ok results machine =>
              exact .inr ⟨0, callEntry_of_ok found there called, .returns loads calls called⟩
          | error stop machine =>
              by_cases spent : stop = .outOfFuel
              · exact .inl (callEntry_of_outOfFuel found there (spent ▸ called))
              · obtain ⟨t, rfl⟩ := trap_of_call loads calls called spent
                exact .inr ⟨4, callEntry_of_trap found there called,
                  .traps loads (.entry calls called)⟩
        · exact .inr ⟨1, some parameters, .parameters loads makes picks parameters⟩

/-- The status of a module whose entry is called is that of the call. -/
theorem runModule_of_calls (request : Request) (path : String) (loads : Loads bytes m)
    {l : Linker} {addr : Addr} (calls : Calls fuel config m l addr) :
    ∃ id inst name, l.instance? id = some inst ∧ inst.exportedFunc? name = some addr ∧
      runModule fuel request config path printRegistry m =
        callEntry fuel request.terminal (header request.terminal path (exportedNames m))
          ⟨l, printRegistry.bound "env", config.options⟩ id name := by
  obtain ⟨id, inst, name, results, makes, picks, found, there⟩ := calls
  obtain ⟨inst', found', exporting, serves⟩ := makes.exists_instance loads
  cases found.symm.trans found'
  refine ⟨id, inst, name, found, there, ?_⟩
  rw [runModule_of_makes makes]
  exact (runEntry_of_picks found (isSome_exportedFunc? loads exporting serves) picks
    (signature?_of_exports loads picks.exports)).2 rfl

theorem runModule_of_trapped {e : LinkError} {l : Linker} (trapped : e.Trapped)
    (failed : Link.instantiate fuel m "main" (printers config.options) = .error (.failed e) l) :
    Gives (runModule fuel request config path printRegistry m) 4 := by
  have gives : Gives (runModule fuel request config path printRegistry m) _ :=
    runModule_of_failed failed
  rwa [inPhase_of_trapped trapped] at gives

/-- Whatever traps, the status is the one of traps. -/
theorem runModule_of_traps (loads : Loads bytes m) (traps : Traps fuel config m) :
    Gives (runModule fuel request config path printRegistry m) 4 := by
  cases traps with
  | segment misfits =>
      obtain ⟨stage, inst, e, l, failed, -, -, bounds⟩ := misfits
      refine runModule_of_trapped ?_ failed
      rcases bounds with ⟨i, table, offset, rfl⟩ | ⟨i, memory, offset, rfl⟩
      · exact .elementBounds i table offset
      · exact .dataBounds i memory offset
  | start traps =>
      obtain ⟨index, inst, addr, t, l, l', failed, -⟩ := traps
      exact runModule_of_trapped (.startFailed index t) failed
  | entry calls ran =>
      obtain ⟨id, inst, name, found, there, is⟩ := runModule_of_calls request path loads calls
      rw [is]
      exact callEntry_of_trap found there ran

/-- A reason for a status makes the run end with it. -/
theorem run_of_exitStatus (args : request.args = [path]) (file : request.file path = .ok bytes)
    (configured : configure request.environment = .ok config)
    (reason : ExitStatus fuel config bytes status) : Gives (run fuel configure request) status := by
  have run_of_loads {m : Module} (loads : Loads bytes m) :
      run fuel configure request = runModule fuel request config path printRegistry m :=
    run_of_loads args file configured loads
  cases reason with
  | rejected none => exact run_of_rejected args file configured none
  | unresolved loads unresolved =>
      rw [run_of_loads loads]
      obtain ⟨e, failed⟩ := unresolved_iff.mp unresolved
      have gives : Gives (runModule fuel request config path printRegistry _) _ :=
        runModule_of_failed (instantiate_of_unresolved failed)
      rwa [not_inPhase_of_unresolved failed] at gives
  | traps loads traps =>
      rw [run_of_loads loads]
      exact runModule_of_traps loads traps
  | entryMissing loads makes missing =>
      obtain ⟨inst, found, exporting, serves⟩ := makes.exists_instance loads
      rw [run_of_loads loads, runModule_of_makes makes]
      exact runEntry_of_missing found (isSome_exportedFunc? loads exporting serves) missing
  | noEntry loads makes none =>
      obtain ⟨inst, found, exporting, serves⟩ := makes.exists_instance loads
      rw [run_of_loads loads, runModule_of_makes makes]
      exact runEntry_of_noEntry found (isSome_exportedFunc? loads exporting serves) none
  | parameters loads makes picks some =>
      obtain ⟨inst, found, exporting, serves⟩ := makes.exists_instance loads
      rw [run_of_loads loads, runModule_of_makes makes]
      exact (runEntry_of_picks found (isSome_exportedFunc? loads exporting serves) picks
        (signature?_of_exports loads picks.exports)).1 some
  | returns loads calls ran =>
      obtain ⟨id, inst, name, found, there, is⟩ := runModule_of_calls request path loads calls
      rw [run_of_loads loads, is]
      exact callEntry_of_ok found there ran

/-- A run that ends has a reason for its status. -/
theorem exitStatus_of_run (args : request.args = [path]) (file : request.file path = .ok bytes)
    (configured : configure request.environment = .ok config) {outcome : Outcome}
    (ran : run fuel configure request = .ok outcome) :
    ExitStatus fuel config bytes outcome.status := by
  by_cases loads : ∃ m, Loads bytes m
  · obtain ⟨m, loads⟩ := loads
    have ran' := (run_of_loads args file configured loads).symm.trans ran
    rcases runModule_cases loads with spent | ⟨status, gives, reason⟩
    · cases spent.symm.trans ran'
    · obtain rfl : status = outcome.status := gives.unique ⟨outcome, ran', rfl⟩
      exact reason
  · have rejected : ∀ m, ¬ Loads bytes m := fun m is => loads ⟨m, is⟩
    obtain ⟨outcome', ran', status⟩ := run_of_rejected args file configured rejected
    cases ran.symm.trans ran'
    rw [status]
    exact .rejected rejected

theorem linking_of_exitStatus (loads : Loads bytes m) (reason : ExitStatus fuel config bytes status)
    (linking : status = 3) : Unresolved config m ∨ EntryMissing config m := by
  cases reason with
  | unresolved loads' unresolved => exact .inl (loads.unique loads' ▸ unresolved)
  | entryMissing loads' _ missing => exact .inr (loads.unique loads' ▸ missing)
  | _ => cases linking

/-- The command, run on a file with a configuration from whatever reader, ends with a status
exactly when there is a reason for that status.  So for a module that loads the status for
linking means an import that does not resolve or an entry that was asked for and is missing,
and whatever traps gives the status for traps. -/
theorem run_status (fuel : Nat) (args : request.args = [path])
    (file : request.file path = .ok bytes)
    (configured : configure request.environment = .ok config) :
    (∀ status,
      (∃ outcome, run fuel configure request = .ok outcome ∧ outcome.status = status) ↔
        ExitStatus fuel config bytes status) ∧
    ∀ m, Loads bytes m → ∀ outcome, run fuel configure request = .ok outcome →
      (outcome.status = 3 → Unresolved config m ∨ EntryMissing config m) ∧
      (Traps fuel config m → outcome.status = 4) := by
  refine ⟨fun status => ⟨?_, run_of_exitStatus args file configured⟩, ?_⟩
  · rintro ⟨outcome, ran, rfl⟩
    exact exitStatus_of_run args file configured ran
  · intro m loads outcome ran
    constructor
    · exact linking_of_exitStatus loads (exitStatus_of_run args file configured ran)
    · intro traps
      have gives : Gives (run fuel configure request) 4 :=
        run_of_exitStatus args file configured (.traps loads traps)
      exact Gives.unique ⟨outcome, ran, rfl⟩ gives

end Status

/-- A module whose function `main` traps. -/
def trappingBytes : List UInt8 :=
  [0x00, 0x61, 0x73, 0x6d, 1, 0, 0, 0,
    1, 4, 1, 0x60, 0, 0,
    3, 2, 1, 0,
    7, 8, 1, 4, 0x6d, 0x61, 0x69, 0x6e, 0, 0,
    10, 5, 1, 3, 0, 0, 0x0b]

/-- What these bytes hold. -/
def trappingModule : Module :=
  { types := [⟨[], []⟩], funcs := [0], exports := [⟨"main", .func, 0⟩],
    code := [⟨[], [.plain Opcode.unreachable none]⟩] }

/-- A run of this module without any configuration. -/
def trappingRequest : Request where
  args := ["main.wasm"]
  environment := fun _ => none
  file := fun _ => .ok trappingBytes

/-- The run, configured by the usual libraries. -/
def trappingRun : Except Unit Outcome := run 10 (Config.ofEnvironment .usual) trappingRequest

/-- The configuration when nothing is set. -/
def plainConfig : Config := ⟨"", ⟨1000, .topOnTrue⟩⟩

/-- The linker in which the instance was made. -/
def trappingLinker : Linker :=
  match Link.instantiate 10 trappingModule "main" (printers plainConfig.options) with
  | .ok _ l => l
  | .error _ l => l

theorem traps_trappingModule : Traps 10 plainConfig trappingModule := by
  have exported : trappingModule.Exports "main" ⟨[], []⟩ :=
    ⟨_, List.mem_singleton.mpr rfl, rfl, rfl, rfl⟩
  have makes : Makes 10 plainConfig trappingModule 1 trappingLinker := rfl
  have picks : Picks plainConfig trappingModule "main" ⟨[], []⟩ := by
    have order : defaultEntries = ["_start"] ++ "main" :: ["run"] := rfl
    refine .default rfl order ?_ exported
    rintro earlier mem type ⟨e, listed, named, -⟩
    rw [List.mem_singleton.mp mem, List.mem_singleton.mp listed] at named
    exact absurd named (by decide)
  obtain ⟨machine, ran⟩ : ∃ machine, Run.invoke 10 4 [] trappingLinker.machine =
      .error (.trap .unreachable) machine := ⟨_, rfl⟩
  exact .entry ⟨1, _, "main", [], makes, picks, rfl, rfl⟩ ran

/-- The trap is what the status says. -/
theorem run_status_trapping :
    (trappingRequest.args = ["main.wasm"] ∧
      trappingRequest.file "main.wasm" = .ok trappingBytes ∧
      Config.ofEnvironment .usual trappingRequest.environment = .ok plainConfig) ∧
    ((∀ status, (∃ outcome, trappingRun = .ok outcome ∧ outcome.status = status) ↔
      ExitStatus 10 plainConfig trappingBytes status) ∧
    ∀ m, Loads trappingBytes m → ∀ outcome, trappingRun = .ok outcome →
      (outcome.status = 3 → Unresolved plainConfig m ∨ EntryMissing plainConfig m) ∧
      (Traps 10 plainConfig m → outcome.status = 4)) ∧
    ∃ outcome, trappingRun = .ok outcome ∧ outcome.status = 4 := by
  have configured : Config.ofEnvironment .usual trappingRequest.environment = .ok plainConfig := by
    decide +kernel
  have args : trappingRequest.args = ["main.wasm"] := rfl
  have file : trappingRequest.file "main.wasm" = .ok trappingBytes := rfl
  have classified := run_status 10 args file configured
  have loads : Loads trappingBytes trappingModule := ⟨rfl, rfl⟩
  exact ⟨⟨args, file, configured⟩, classified,
    (classified.1 4).mpr (.traps loads traps_trappingModule)⟩

end CommandLine

end WasmMachine
