import WasmMachine.Text.DisplayWidth
import WasmMachine.Text.GraphemeClass
import WasmMachine.Text.Hex
import WasmMachine.Text.Integer
import WasmMachine.Text.LetterCase
import WasmMachine.Text.Printable
import WasmMachine.Text.Quoted
import WasmMachine.Text.Ranges
import WasmMachine.Text.SnakeCase
import WasmMachine.Text.Template
import WasmMachine.Fault
import WasmMachine.Types
import WasmMachine.Value
import WasmMachine.Trap
import WasmMachine.Vector.Lanes
import WasmMachine.Vector.Operation
import WasmMachine.Numeric.Decimal
import WasmMachine.Numeric.Float
import WasmMachine.Numeric.Operation
import WasmMachine.Numeric.Power
import WasmMachine.Instruction.Basic
import WasmMachine.Instruction.Decode
import WasmMachine.Instruction.Encode
import WasmMachine.Instruction.Families
import WasmMachine.Instruction.Opcode
import WasmMachine.Binary.DecodeError
import WasmMachine.Binary.Leb128
import WasmMachine.Binary.Reader
import WasmMachine.Binary.Vector
import WasmMachine.Module.Basic
import WasmMachine.Module.Decode
import WasmMachine.Module.Encode
import WasmMachine.Module.Structure
import WasmMachine.Typing.Checker
import WasmMachine.Typing.Constant
import WasmMachine.Typing.Context
import WasmMachine.Typing.Module
import WasmMachine.Typing.Signature
import WasmMachine.Typing.Violation
import WasmMachine.Store.Basic
import WasmMachine.Store.Cells
import WasmMachine.Host.Handler
import WasmMachine.Host.Program
import WasmMachine.Host.Registry
import WasmMachine.Machine.Basic
import WasmMachine.Machine.Memories
import WasmMachine.Machine.Options
import WasmMachine.Machine.Plain
import WasmMachine.Machine.Run
import WasmMachine.Machine.Scope
import WasmMachine.Machine.Stack
import WasmMachine.Machine.Tables
import WasmMachine.Machine.Variables
import WasmMachine.Link.Constant
import WasmMachine.Link.Error
import WasmMachine.Link.HostModule
import WasmMachine.Link.Instantiate
import WasmMachine.Link.Resolve
import WasmMachine.Embedding.Basic
import WasmMachine.Embedding.MemoryView
import WasmMachine.CommandLine.Config
import WasmMachine.CommandLine.Layout
import WasmMachine.CommandLine.Run
import WasmMachine.CommandLine.Sample
import WasmMachine.CommandLine.Settings
import WasmMachine.Main
import WasmMachine.Proofs.Binary.Reading
import WasmMachine.Proofs.Binary.Leb128
import WasmMachine.Proofs.Binary.Vector
import WasmMachine.Proofs.Binary.Portable
import WasmMachine.Proofs.Instruction.Families
import WasmMachine.Proofs.Instruction.Numbers
import WasmMachine.Proofs.Instruction.WellFormed
import WasmMachine.Proofs.Instruction.Immediate
import WasmMachine.Proofs.Instruction.Grammar
import WasmMachine.Proofs.Instruction.RoundTrip
import WasmMachine.Proofs.Vector.Lanes
import WasmMachine.Proofs.Module.Items
import WasmMachine.Proofs.Module.Segments
import WasmMachine.Proofs.Module.Sections
import WasmMachine.Proofs.Module.RoundTrip
import WasmMachine.Proofs.Module.Contents
import WasmMachine.Proofs.Module.Splitting
import WasmMachine.Proofs.Module.Customs
import WasmMachine.Proofs.Reference.Agreement
import WasmMachine.Proofs.Reference.Interpreter
import WasmMachine.Proofs.Reference.Invocation
import WasmMachine.Proofs.Reference.Levels
import WasmMachine.Proofs.Reference.Refinement
import WasmMachine.Proofs.Typing.Relation
import WasmMachine.Proofs.Typing.Signature
import WasmMachine.Proofs.Typing.Steps
import WasmMachine.Proofs.Typing.Soundness
import WasmMachine.Proofs.Typing.Completeness
import WasmMachine.Proofs.Safety.Values
import WasmMachine.Proofs.Safety.Outcome
import WasmMachine.Proofs.Safety.Operations
import WasmMachine.Proofs.Safety.Store
import WasmMachine.Proofs.Safety.Scope
import WasmMachine.Proofs.Safety.Plain
import WasmMachine.Proofs.Safety.Stack
import WasmMachine.Proofs.Safety.Known
import WasmMachine.Proofs.Safety.Machine
import WasmMachine.Proofs.Safety.Execution
import WasmMachine.Proofs.Safety.Checked
import WasmMachine.Proofs.Safety.Constant
import WasmMachine.Proofs.Safety.Growth
import WasmMachine.Proofs.Safety.Allocation
import WasmMachine.Proofs.Safety.Instantiation
import WasmMachine.Proofs.Safety.HostModule
import WasmMachine.Proofs.Safety.Upright
import WasmMachine.Proofs.Safety.Soundness
import WasmMachine.Proofs.Evolution.Change
import WasmMachine.Proofs.Evolution.Plain
import WasmMachine.Proofs.Evolution.Run
import WasmMachine.Proofs.Evolution.Sealed
import WasmMachine.Proofs.Linking.Placed
import WasmMachine.Proofs.Linking.Failures
import WasmMachine.Proofs.Linking.External
import WasmMachine.Proofs.Linking.Course
import WasmMachine.Proofs.Linking.Following
import WasmMachine.Proofs.Linking.Resolved
import WasmMachine.Proofs.Evolution.Extension
import WasmMachine.Proofs.Evolution.Operations
import WasmMachine.Proofs.Evolution.Limits
import WasmMachine.Proofs.Evolution.Growing
import WasmMachine.Proofs.Linking.Undone
import WasmMachine.Proofs.Isolation.Lockstep
import WasmMachine.Proofs.Isolation.Cells
import WasmMachine.Proofs.Isolation.Enclave
import WasmMachine.Proofs.Isolation.Plain
import WasmMachine.Proofs.Isolation.Run
import WasmMachine.Proofs.Isolation.Separate
import WasmMachine.Proofs.Isolation.Sessions
import WasmMachine.Proofs.Linking.Exports
import WasmMachine.Proofs.CommandLine.Entry
import WasmMachine.Proofs.CommandLine.ExitStatus
import WasmMachine.Proofs.Nesting.Leeway
import WasmMachine.Proofs.Nesting.Moments
import WasmMachine.Proofs.Typing.Spelling
import WasmMachine.Proofs.Module.Faithful
import WasmMachine.Proofs.Unwinding.Entries
import WasmMachine.Proofs.Unwinding.Transfer
import WasmMachine.Proofs.Memory.Requests
import WasmMachine.Proofs.Memory.Runs
import WasmMachine.Proofs.Memory.Surroundings
import WasmMachine.Proofs.Memory.Bulk
import WasmMachine.Proofs.Memory.Names
import WasmMachine.Proofs.Memory.Numbers
import WasmMachine.Proofs.Memory.Transfer
import WasmMachine.Proofs.Memory.Access
import WasmMachine.Proofs.Memory.Wrapping
import WasmMachine.Proofs.Evolution.Trapping
import WasmMachine.Proofs.Typing.Lookups
import WasmMachine.Proofs.Typing.IndexSpaces
import WasmMachine.Proofs.Typing.Reports
import WasmMachine.Proofs.Linking.Layout
import WasmMachine.Proofs.Linking.Overlay
import WasmMachine.Proofs.Linking.Segments
import WasmMachine.Proofs.Linking.Initialization
import WasmMachine.Proofs.Binary.Overflow
import WasmMachine.Proofs.Binary.Fields
import WasmMachine.Proofs.Linking.Agreement
import WasmMachine.Proofs.Safety.Boundary
import WasmMachine.Proofs.Numeric.Patterns
import WasmMachine.Proofs.Numeric.Integers
import WasmMachine.Proofs.Vector.Lanewise
import WasmMachine.Proofs.Vector.Instructions
import WasmMachine.Proofs.Numeric.Readings
import WasmMachine.Proofs.Numeric.Truncation
import WasmMachine.Proofs.Memory.Views
import WasmMachine.Proofs.Memory.Sharing
import WasmMachine.Proofs.Memory.Sizes
import WasmMachine.Proofs.Faults.Searches
import WasmMachine.Proofs.Text.SnakeCase
import WasmMachine.Proofs.Embedding.Registry
import WasmMachine.Proofs.Embedding.Offering
import WasmMachine.Proofs.Embedding.Binding
import WasmMachine.Proofs.Embedding.Histories
import WasmMachine.Proofs.Typing.Jobs
import WasmMachine.Proofs.Typing.Layers
import WasmMachine.Proofs.Binary.Windows
import WasmMachine.Proofs.Binary.Cursors
import WasmMachine.Proofs.Module.Positions
import WasmMachine.Proofs.Binary.Anticipation
import WasmMachine.Proofs.Module.Anticipation
