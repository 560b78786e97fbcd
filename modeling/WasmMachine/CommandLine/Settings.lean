/-
# The usual settings libraries

The command is built with envconfig, which fills settings in from the environment, and with
zap, which parses log levels.  Neither is part of this library: what is written down here
follows their documented behaviour, for the command to be run, and nothing that is proved
of the command depends on it.
-/

import WasmMachine.CommandLine.Config
import WasmMachine.Text.Integer
import WasmMachine.Text.LetterCase
import WasmMachine.Text.Quoted

namespace WasmMachine.CommandLine

/-- The names of log levels, in lower case. The empty name stands for a level too. -/
def logLevels : List String :=
  ["debug", "info", "", "warn", "warning", "error", "dpanic", "panic", "fatal"]

/-- Whether a text names a log level, in whatever case, as zap has it. -/
def isLogLevel (text : String) : Bool :=
  logLevels.contains (String.ofList (text.toList.map Text.toLower))

namespace SettingsLibrary

/-- The text of a setting. A variable that is set but empty counts as set. -/
def textOf (env : Environment) (s : Setting) : String := (env s.name).getD s.fallback

/-- The error of envconfig for a text that is no number. -/
def notANumber (s : Setting) (text : String) (cause : Text.IntegerError) : String :=
  "envconfig.Process: assigning " ++ s.name ++ " to " ++ s.field ++ ": converting '" ++ text
    ++ "' to type int. details: strconv.ParseInt: parsing " ++ Text.quoted text ++ ": "
    ++ cause.message

/-- What envconfig and zap do. -/
def usual : SettingsLibrary where
  text := textOf
  number env s := (Text.parseInt64 (textOf env s)).mapError (notANumber s (textOf env s))
  checkLevel text :=
    if isLogLevel text then .ok () else .error ("unrecognized level: " ++ Text.quoted text)

end SettingsLibrary

end WasmMachine.CommandLine
