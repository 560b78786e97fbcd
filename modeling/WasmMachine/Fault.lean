/-
# Faults

Everything that goes wrong in the machine is reported as a tree.  A leaf is a
plain text; a *report* carries the phase and the kind of the failure, the path
to the failing item and a detail, and may have a cause; a *context* puts a text
in front of its cause; a *located* fault names a position of the binary; and
several faults may be joined into one.

Two searches run over such a tree: `hasKind` looks for a report of one phase and
kind, `inPhase` for a report of one phase.  They are written independently,
since callers use the one to recognise a failure and the other to classify it.
-/

import WasmMachine.Text.Quoted

namespace WasmMachine

/-- What a report is about: the phase of work that failed and the kind of the
failure, both open sets of words. -/
structure Category where
  phase : String
  kind : String
  deriving DecidableEq, Repr

namespace Phase

/-- Decoding a binary. -/
def parse : String := "parse"
/-- Checking types and indices. -/
def validate : String := "validate"
/-- Resolving imports and instantiating. -/
def link : String := "link"
/-- Executing code. -/
def runtime : String := "runtime"

end Phase

namespace Category

/-- Every failure of running code. -/
def trap : Category := ⟨Phase.runtime, "trap"⟩

end Category

/-- A tree of failures. -/
inductive Fault
  | plain (text : String)
  | report (category : Category) (path : List String) (detail : String) (cause : Option Fault)
  | context (text : String) (cause : Fault)
  | located (part : String) (position : Nat) (cause : Fault)
  | joined (separator : String) (parts : List Fault)

namespace Fault

/-- A report without a path, detail or cause. -/
def bare (phase kind : String) : Fault := .report ⟨phase, kind⟩ [] "" none

/-- The parts of a report's text up to its cause. An empty path or detail leaves
no trace. -/
def heading (category : Category) (path : List String) (detail : String) : String :=
  "[" ++ category.phase ++ "] " ++ category.kind
    ++ (if path.isEmpty then "" else " at " ++ ".".intercalate path)
    ++ (if detail.isEmpty then "" else ": " ++ detail)

mutual

/-- The full text of a fault. -/
def message : Fault → String
  | .plain text => text
  | .report category path detail none => heading category path detail
  | .report category path detail (some cause) =>
      heading category path detail ++ " (caused by: " ++ message cause ++ ")"
  | .context text cause => text ++ ": " ++ message cause
  | .located part position cause =>
      "wasm: " ++ (if part.isEmpty then "" else part ++ " ")
        ++ "at position " ++ toString position ++ ": " ++ message cause
  | .joined separator parts => separator.intercalate (messages parts)

/-- The texts of several faults, in order. -/
def messages : List Fault → List String
  | [] => []
  | f :: rest => message f :: messages rest

end

mutual

/-- Whether some report in the tree has the given phase and kind. -/
def hasKind (category : Category) : Fault → Bool
  | .plain _ => false
  | .report own _ _ none => decide (own = category)
  | .report own _ _ (some cause) => decide (own = category) || hasKind category cause
  | .context _ cause => hasKind category cause
  | .located _ _ cause => hasKind category cause
  | .joined _ parts => anyHasKind category parts

/-- Whether one of several trees has such a report. -/
def anyHasKind (category : Category) : List Fault → Bool
  | [] => false
  | f :: rest => hasKind category f || anyHasKind category rest

end

mutual

/-- Whether some report in the tree was raised in the given phase. -/
def inPhase (phase : String) : Fault → Bool
  | .plain _ => false
  | .report own _ _ none => own.phase == phase
  | .report own _ _ (some cause) => own.phase == phase || inPhase phase cause
  | .context _ cause => inPhase phase cause
  | .located _ _ cause => inPhase phase cause
  | .joined _ parts => anyInPhase phase parts

/-- Whether one of several trees has a report of the phase. -/
def anyInPhase (phase : String) : List Fault → Bool
  | [] => false
  | f :: rest => inPhase phase f || anyInPhase phase rest

end

mutual

/-- Whether the tree names a position of the binary anywhere. -/
def isLocated : Fault → Bool
  | .plain _ => false
  | .report _ _ _ none => false
  | .report _ _ _ (some cause) => isLocated cause
  | .context _ cause => isLocated cause
  | .located _ _ _ => true
  | .joined _ parts => anyIsLocated parts

/-- Whether one of several trees names a position. -/
def anyIsLocated : List Fault → Bool
  | [] => false
  | f :: rest => isLocated f || anyIsLocated rest

end

/-- Whether `f` is recognised as `target`: only a report can be recognised, and
by nothing but its phase and kind. -/
def isLike (f target : Fault) : Bool :=
  match target with
  | .report category _ _ _ => f.hasKind category
  | _ => false

/-- Whether an outcome is recognised as another. No fault at all is recognised
as no fault, and as nothing else. -/
def recognised : Option Fault → Option Fault → Bool
  | none, none => true
  | some f, some target => f.isLike target
  | _, _ => false

/-- The one fault directly below, where there is exactly one. -/
def cause? : Fault → Option Fault
  | .plain _ => none
  | .report _ _ _ cause => cause
  | .context _ cause => some cause
  | .located _ _ cause => some cause
  | .joined _ _ => none

/-- Several faults as one, on a line each. None at all is no fault. -/
def joinLines : List Fault → Option Fault
  | [] => none
  | parts => some (.joined "\n" parts)

/-- Several faults as one, on one line. A single fault stays itself. -/
def combine : List Fault → Option Fault
  | [] => none
  | [f] => some f
  | parts => some (.joined "; " parts)

/-- A report of something the machine has no support for. -/
def unsupported (phase what : String) : Fault :=
  .report ⟨phase, "unsupported"⟩ [] what none

/-- A report of malformed data. -/
def invalidData (phase : String) (path : List String) (detail : String) : Fault :=
  .report ⟨phase, "invalid_data"⟩ path detail none

/-- A report of a name that stands for nothing. -/
def notFound (phase what name : String) : Fault :=
  .report ⟨phase, "not_found"⟩ [] (what ++ " " ++ Text.quoted name ++ " not found") none

/-- A report of a refused request. -/
def invalidInput (phase detail : String) : Fault :=
  .report ⟨phase, "invalid_input"⟩ [] detail none

/-- A report around a cause. -/
def wrap (phase kind detail : String) (cause : Option Fault) : Fault :=
  .report ⟨phase, kind⟩ [] detail cause

/-- A report of a binary that could not be read. -/
def parseFailed (what : String) (cause : Option Fault) : Fault :=
  .report ⟨Phase.parse, "invalid_data"⟩ [] ("parse " ++ what) cause

/-- Put a path component in front of a report's path. Other faults have no path
and stay as they are. -/
def under (item : String) : Fault → Fault
  | .report category path detail cause => .report category (item :: path) detail cause
  | f => f

end Fault

end WasmMachine
