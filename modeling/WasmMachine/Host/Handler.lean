/-
# Typed handlers

An embedder writes most host functions against number types of its own: integers
of either signedness and two widths, and floats of two widths.  A handler lists
the types of its parameters and results; the signature of the host function
follows from them.  The first parameter may be the context of the call, and the
last result may be the failure of the handler; neither is part of the signature.

The arguments of a call are converted to the handler's types.  Code that passed
the type checker never needs a conversion that changes the number.
-/

import WasmMachine.Host.Program
import WasmMachine.Numeric.Operation

namespace WasmMachine

/-- A type in the signature of a handler. -/
inductive HandlerType
  | int32
  | uint32
  | int64
  | uint64
  | float32
  | float64
  | context
  | failure
  | other (name : String)
  deriving DecidableEq, Repr

namespace HandlerType

/-- The value type that stands for a handler type. -/
def valType? : HandlerType → Option ValType
  | .int32 | .uint32 => some .i32
  | .int64 | .uint64 => some .i64
  | .float32 => some .f32
  | .float64 => some .f64
  | .context | .failure | .other _ => none

/-- The name of a type in messages. -/
def name : HandlerType → String
  | .int32 => "int32"
  | .uint32 => "uint32"
  | .int64 => "int64"
  | .uint64 => "uint64"
  | .float32 => "float32"
  | .float64 => "float64"
  | .context => "context.Context"
  | .failure => "error"
  | .other name => name

end HandlerType

/-- What an embedder registers: a function of typed parameters and results, or
something that is no function at all. -/
inductive Handler
  | function (params results : List HandlerType) (run : HostBehaviour)
  | notFunction (kind : String)

namespace FloatValue

/-- The integer that a conversion to a signed 64-bit integer gives: the integer
part, or the least integer if it does not fit. -/
def toSigned64 (v : FloatValue) : Int :=
  let least : Int := -(2 ^ 63)
  match v.integerPart? with
  | some n => if least ≤ n ∧ n < 2 ^ 63 then n else least
  | none => least

/-- The integer that a conversion to an unsigned 64-bit integer gives. Numbers
below 2^63 are converted as signed ones; for the others 2^63 is taken off first
and put back by flipping the top bit. -/
def toUnsigned64 (v : FloatValue) : UInt64 :=
  let flip : UInt64 := 0x8000000000000000
  match v with
  | .finite _ _ _ =>
      match v.integerPart? with
      | some n =>
          if n < 2 ^ 63 then UInt64.ofInt v.toSigned64
          else if n < 2 ^ 64 then UInt64.ofInt n
          else 0
      | none => 0
  | .infinite true => flip
  | _ => 0

end FloatValue

namespace HandlerType

/-- Convert an argument to a handler type. An argument that is no number becomes
zero. -/
def convert (t : HandlerType) (v : Value) : Value :=
  match t.valType? with
  | none => v
  | some want =>
      match v with
      | .i32 a => if want = .i32 then v else ofInt want a.toInt32.toInt
      | .i64 a => if want = .i64 then v else ofInt want a.toInt64.toInt
      | .f32 a => if want = .f32 then v else ofFloat want (binary32.value a.toNat)
      | .f64 a => if want = .f64 then v else ofFloat want (binary64.value a.toNat)
      | .v128 _ | .ref _ => (Value.zero? want).getD v
where
  /-- An integer as a value of a type; floats of 32 bits are rounded twice. -/
  ofInt (want : ValType) (n : Int) : Value :=
    if want = .i32 then .i32 (UInt32.ofInt n)
    else if want = .i64 then .i64 (UInt64.ofInt n)
    else ofFloat want (binary64.value (binary64.ofInt n))
  /-- A float as a value of a type. -/
  ofFloat (want : ValType) (x : FloatValue) : Value :=
    let bits : UInt64 :=
      if t = .uint32 ∨ t = .uint64 then x.toUnsigned64 else UInt64.ofInt x.toSigned64
    if want = .i32 then .i32 bits.toUInt32
    else if want = .i64 then .i64 bits
    else if want = .f32 then .f32 (UInt32.ofNat (binary32.ofValue x))
    else .f64 (UInt64.ofNat (binary64.ofValue x))

end HandlerType

/-- A result of a handler as it reaches the caller. A float of 32 bits passes
through a wider float, which makes every NaN a quiet one. -/
def quietResult : Value → Value
  | .f32 bits => .f32 (if binary32.isNaN bits.toNat then bits ||| 0x00400000 else bits)
  | v => v

/-- Change the results of a host function. -/
def HostProgram.mapResults (f : Value → Value) : HostProgram → HostProgram
  | .finish results => .finish (results.map (Option.map f))
  | .fail fault => .fail fault
  | .record entry next => .record entry (next.mapResults f)
  | .keep name values next => .keep name values (next.mapResults f)
  | .retrieve name next => .retrieve name fun values => (next values).mapResults f
  | .view inst memory request next =>
      .view inst memory request fun answer => (next answer).mapResults f
  | .callExport inst func args next =>
      .callExport inst func args fun outcome => (next outcome).mapResults f

/-- A host function with a name and a signature. -/
structure HostFunction where
  name : String
  type : FuncType
  behaviour : Option HostBehaviour

namespace Handler

/-- A handler that records its arguments. -/
def recording (name : String) (params : List HandlerType) : Handler :=
  .function params [] (.logging name)

/-- The report on a type that has no place in a signature. -/
def unsupportedType (name : String) (t : HandlerType) : Fault :=
  .report ⟨Phase.link, "unsupported"⟩ [name] ("type " ++ t.name ++ " has no value type") none

/-- The value types of handler types. The first one without a value type is
reported. -/
def valTypes (name : String) (types : List HandlerType) : Except Fault (List ValType) :=
  types.mapM fun t =>
    match t.valType? with
    | some v => .ok v
    | none => .error (unsupportedType name t)

/-- The parameters that are part of the signature. -/
def signatureParams : List HandlerType → List HandlerType
  | .context :: rest => rest
  | params => params

/-- The results that are part of the signature. -/
def signatureResults (results : List HandlerType) : List HandlerType :=
  if results.getLast? = some .failure then results.dropLast else results

/-- Make a host function of a handler. -/
def adapt (name : String) : Handler → Except Fault HostFunction
  | .notFunction kind =>
      .error (.report ⟨Phase.link, "invalid_input"⟩ [name]
        ("handler must be a function, got " ++ kind) none)
  | .function params results run => do
      let inputs := signatureParams params
      let paramTypes ← valTypes name inputs
      let resultTypes ← valTypes name (signatureResults results)
      let behaviour : HostBehaviour := fun args =>
        (run (List.zipWith HandlerType.convert inputs args)).mapResults quietResult
      return ⟨name, ⟨paramTypes, resultTypes⟩, some behaviour⟩

end Handler

end WasmMachine
