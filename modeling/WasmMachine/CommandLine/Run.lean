/-
# The command

The command loads a module, instantiates it and calls its entry point.  A run is
a function of the arguments, the environment and the files; it gives what is
written and the exit status:

* 0, the run was successful;
* 1, the arguments, the configuration, the file or the entry's parameters are not
  as they should be;
* 2, the module could not be decoded or checked;
* 3, the module could not be linked, or has not the entry that was asked for;
* 4, execution trapped.
-/

import WasmMachine.CommandLine.Config
import WasmMachine.CommandLine.Layout
import WasmMachine.CommandLine.Sample
import WasmMachine.Embedding.Basic

namespace WasmMachine.CommandLine

/-- Why a file cannot be read. -/
inductive ReadError
  | missing
  | notDirectory
  | isDirectory
  | nameTooLong
  | invalidName
  | other (reason : String)
  deriving DecidableEq, Repr

/-- A read error in words. A directory can be opened and fails only when it is
read. -/
def ReadError.message (path : String) : ReadError → String
  | .missing => "open " ++ path ++ ": no such file or directory"
  | .notDirectory => "open " ++ path ++ ": not a directory"
  | .isDirectory => "read " ++ path ++ ": is a directory"
  | .nameTooLong => "open " ++ path ++ ": file name too long"
  | .invalidName => "open " ++ path ++ ": invalid argument"
  | .other reason => "open " ++ path ++ ": " ++ reason

/-- What a run depends on. -/
structure Request where
  args : List String
  environment : Environment
  file : String → Except ReadError (List UInt8)
  terminal : Bool := false

/-- What a run writes, and its exit status. -/
structure Outcome where
  status : UInt8
  output : String := ""
  errors : String := ""
  deriving DecidableEq, Repr

/-- The two lines that introduce a module: its name and its exported functions, if
there are any. On a terminal the title has a margin. -/
def header (terminal : Bool) (path : String) (exports : List String) : String :=
  line ((if terminal then " wasm-vm " else "wasm-vm") ++ " " ++ path)
    ++ (if exports.isEmpty then ""
      else line (styled terminal ("exports: " ++ ", ".intercalate exports)))

/-- The line for a stage that failed. -/
def failure (stage message : String) : String := line (stage ++ " failed: " ++ message)

/-- The line for the results of an entry. -/
def resultLine (terminal : Bool) (entry : String) (values : List Value) : String :=
  line (styled terminal entry ++ " -> "
    ++ (if values.isEmpty then "()" else " ".intercalate (values.map Value.text)))

/-- A number as it is printed by programs. -/
def numberText : Value → String
  | .i32 bits => toString bits.toInt32.toInt
  | .i64 bits => toString bits.toInt64.toInt
  | .f32 bits => binary32.text bits.toNat
  | .f64 bits => binary64.text bits.toNat
  | v => v.text

/-- What programs printed. -/
def printed (records : List HostRecord) : String :=
  "".intercalate (records.map fun r => line (" ".intercalate (r.values.map numberText)))

/-- The functions that every program can import: one that prints a number, for
each number type. -/
def printing : HostObject where
  ns := "env"
  methods := [
    ("PrintF32", .recording "print_f32" [.float32]),
    ("PrintF64", .recording "print_f64" [.float64]),
    ("PrintI32", .recording "print_i32" [.int32]),
    ("PrintI64", .recording "print_i64" [.int64])]

/-- The entry points that are looked for when none was chosen, in order. -/
def defaultEntries : List String := ["_start", "main", "run"]

/-- The chosen entry, which must be an exported function, or the first of the
default entries that is. -/
def pickEntry (chosen : String) (inst : ModuleInstance) : Except String (Option String) :=
  let exported (name : String) := (inst.exportedFunc? name).isSome
  if chosen ≠ "" then
    if exported chosen then .ok (some chosen)
    else .error ("WASMVM_ENTRY " ++ Text.quoted chosen ++ " is not an exported function")
  else .ok (defaultEntries.find? exported)

/-- The names of the exported functions of a module. -/
def exportedNames (m : Module) : List String :=
  (m.exports.filter fun e => e.kind == .func).map (·.name)

/-- Call the entry and write its results. `before` is what was written so far. -/
def callEntry (fuel : Nat) (terminal : Bool) (before : String) (e : Embedding) (id : InstanceId)
    (entry : String) : Except Unit Outcome :=
  match (Embed.call fuel id entry []).run e with
  | .ok results e =>
      .ok { status := 0
            output := before ++ printed e.linker.machine.records.reverse
              ++ resultLine terminal entry results }
  | .error (.fault fault) e =>
      .ok { status := 4
            output := before ++ printed e.linker.machine.records.reverse
            errors := failure "execution" fault.message }
  | .error .outOfFuel _ => .error ()

/-- Pick the entry of an instance and call it. -/
def runEntry (fuel : Nat) (terminal : Bool) (before : String) (chosen : String) (m : Module)
    (e : Embedding) (id : InstanceId) : Except Unit Outcome :=
  let shown := before ++ printed e.linker.machine.records.reverse
  match pickEntry chosen ((e.instance? id).getD {}) with
  | .error message => .ok ⟨3, shown, failure "entry" message⟩
  | .ok none => .ok ⟨0, shown ++ line "no entry point exported", ""⟩
  | .ok (some entry) =>
      let params := ((Embedding.signature? m entry).map (·.params.length)).getD 0
      if params ≠ 0 then
        .ok ⟨1, shown, failure "entry"
          (entry ++ s!" takes {params} parameters, entry points take none")⟩
      else callEntry fuel terminal before e id entry

/-- Instantiate a loaded module and run its entry. -/
def runModule (fuel : Nat) (request : Request) (config : Config) (path : String)
    (hosts : HostRegistry) (m : Module) : Except Unit Outcome :=
  let e := { Embedding.new config.options with hosts := hosts }
  let top := header request.terminal path (exportedNames m)
  match (Embed.instantiate fuel m "main").run e with
  | .ok id e => runEntry fuel request.terminal top config.entry m e id
  | .error (.fault fault) e =>
      .ok { status := if fault.inPhase Phase.runtime then 4 else 3
            output := top ++ printed e.linker.machine.records.reverse
            errors := failure "instantiate" fault.message }
  | .error .outOfFuel _ => .error ()

/-- The name and the contents of the program to run. -/
def program (request : Request) : String × Except ReadError (List UInt8) :=
  match request.args with
  | path :: _ => (path, request.file path)
  | [] => (sampleName, .ok sample)

/-- The command, with a reader for its configuration. It gives no outcome only when the fuel
is used up. -/
def run (fuel : Nat) (configure : ConfigReader) (request : Request) : Except Unit Outcome :=
  if 1 < request.args.length then .ok { status := 1, errors := line "usage: run [module.wasm]" }
  else
    match configure request.environment with
    | .error e => .ok { status := 1, errors := failure "configuration" e.message }
    | .ok config =>
        match program request with
        | (path, .error e) => .ok { status := 1, errors := failure "read" (e.message path) }
        | (path, .ok bytes) =>
            match (HostRegistry.registerObject {} printing) with
            | (_, some fault) => .ok { status := 1, errors := failure "host setup" fault.message }
            | (hosts, none) =>
                match Embedding.load bytes with
                | .error fault => .ok { status := 2, errors := failure "load" fault.message }
                | .ok m => runModule fuel request config path hosts m

end WasmMachine.CommandLine
