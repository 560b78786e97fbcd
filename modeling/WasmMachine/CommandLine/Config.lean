/-
# Configuration of the command

The command is configured by four environment variables.  It declares the variables and
checks what they say; two libraries do the rest.  One takes settings from the environment
and turns texts into numbers, the other knows the names of log levels.  What those two do
is a `SettingsLibrary`, and a configuration is read with any of them.
-/

import WasmMachine.Machine.Options
import WasmMachine.Text.Quoted

namespace WasmMachine.CommandLine

/-- The environment: the value of a variable, if it is set. -/
abbrev Environment := String → Option String

/-- A variable that sets something: its name, the field it is read into, and the text that
stands for it when it is not set. -/
structure Setting where
  name : String
  field : String
  fallback : String
  deriving DecidableEq, Repr

namespace Setting

/-- How much the command logs. -/
def logLevel : Setting := ⟨"WASMVM_LOG_LEVEL", "LogLevel", "warn"⟩

/-- Which export is the entry. -/
def entry : Setting := ⟨"WASMVM_ENTRY", "Entry", ""⟩

/-- Which operand a select instruction chooses. -/
def selectOrder : Setting := ⟨"WASMVM_SELECT_ORDER", "SelectOrder", "top-on-true"⟩

/-- How many calls may be active at once. -/
def maxCallDepth : Setting := ⟨"WASMVM_MAX_CALL_DEPTH", "MaxCallDepth", "1000"⟩

/-- The variables that the command looks at. -/
def all : List Setting := [logLevel, entry, selectOrder, maxCallDepth]

end Setting

/-- The libraries behind the configuration. `text` and `number` take a setting from the
environment, and `checkLevel` accepts the log levels; errors are in words. -/
structure SettingsLibrary where
  text : Environment → Setting → String
  number : Environment → Setting → Except String Int
  checkLevel : String → Except String Unit

/-- The configuration of a run. An empty entry means that none was chosen. -/
structure Config where
  entry : String
  options : Options
  deriving DecidableEq, Repr

/-- Why the environment is no configuration. -/
inductive ConfigError
  | environment (reason : String)
  | logLevel (reason : String)
  | depth (value : Int)
  | order (text : String)
  deriving DecidableEq, Repr

/-- A configuration error in words. -/
def ConfigError.message : ConfigError → String
  | .environment reason => "read environment: " ++ reason
  | .logLevel reason => Setting.logLevel.name ++ ": " ++ reason
  | .depth value => Setting.maxCallDepth.name ++ s!" must be positive, got {value}"
  | .order text =>
      Setting.selectOrder.name ++ ": unknown order " ++ Text.quoted text
        ++ " (want top-on-true or bottom-on-true)"

/-- Reads a configuration from the environment. -/
abbrev ConfigReader := Environment → Except ConfigError Config

/-- Read the configuration with the help of libraries. The depth must be a number before
anything else is looked at; then the log level, the depth itself and the order are
checked. -/
def Config.ofEnvironment (library : SettingsLibrary) : ConfigReader := fun env => do
  let depth ← (library.number env .maxCallDepth).mapError .environment
  (library.checkLevel (library.text env .logLevel)).mapError .logLevel
  if depth ≤ 0 then throw (.depth depth)
  let orderText := library.text env .selectOrder
  match SelectOrder.ofName? orderText with
  | none => throw (.order orderText)
  | some order => return ⟨library.text env .entry, ⟨depth, order⟩⟩

end WasmMachine.CommandLine
