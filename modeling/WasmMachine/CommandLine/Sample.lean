/-
# The sample program

The program that the command runs when it is given none: it adds the numbers from
one to ten in a loop and prints the sum.
-/

namespace WasmMachine.CommandLine

/-- The name under which the sample program is shown. -/
def sampleName : String := "sample.wasm"

/-- The sample program as a binary. -/
def sample : List UInt8 := [
  0x00, 0x61, 0x73, 0x6d, 0x01, 0x00, 0x00, 0x00, 0x01, 0x08, 0x02, 0x60, 0x01, 0x7f, 0x00, 0x60,
  0x00, 0x00, 0x02, 0x11, 0x01, 0x03, 0x65, 0x6e, 0x76, 0x09, 0x70, 0x72, 0x69, 0x6e, 0x74, 0x5f,
  0x69, 0x33, 0x32, 0x00, 0x00, 0x03, 0x02, 0x01, 0x01, 0x07, 0x08, 0x01, 0x04, 0x6d, 0x61, 0x69,
  0x6e, 0x00, 0x01, 0x0a, 0x20, 0x01, 0x1e, 0x01, 0x02, 0x7f, 0x03, 0x40, 0x20, 0x00, 0x41, 0x01,
  0x6a, 0x22, 0x00, 0x20, 0x01, 0x6a, 0x21, 0x01, 0x20, 0x00, 0x41, 0x0a, 0x48, 0x0d, 0x00, 0x0b,
  0x20, 0x01, 0x10, 0x00, 0x0b]

end WasmMachine.CommandLine
