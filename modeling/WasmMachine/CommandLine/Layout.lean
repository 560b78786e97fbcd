/-
# Layout of output

The command sets its texts for a terminal or for a plain stream.  A plain text is
left as it is but for its tabs.  On a terminal a text of several lines is a block:
all of its lines are filled up with spaces to the width of the widest.

The rules are those of lipgloss, the styling library that the command is built with.  They
follow its documented behaviour without colours, and nothing that is proved of the command
depends on them.
-/

import WasmMachine.Text.DisplayWidth

namespace WasmMachine.CommandLine

/-- A line of text. -/
def line (s : String) : String := s ++ "\n"

/-- Write four spaces for each tab. -/
def expandTabs (s : String) : String :=
  "".intercalate (s.toList.map fun c => if c = '\t' then "    " else String.singleton c)

/-- Let a carriage return before a line feed go. -/
def plainLineEnds : List Char → List Char
  | '\r' :: '\n' :: rest => '\n' :: plainLineEnds rest
  | c :: rest => c :: plainLineEnds rest
  | [] => []

/-- Fill a line up with spaces to a width. -/
def fillTo (width : Nat) (s : String) : String :=
  s ++ String.ofList (List.replicate (width - Text.displayWidth s) ' ')

/-- Lines of one width. -/
def block (s : String) : String :=
  let lines := s.splitOn "\n"
  let widest := (lines.map Text.displayWidth).foldl max 0
  "\n".intercalate (lines.map (fillTo widest))

/-- A text as lipgloss shows it on a terminal or a plain stream. -/
def styled (terminal : Bool) (s : String) : String :=
  let text := expandTabs s
  if terminal then block (String.ofList (plainLineEnds text.toList)) else text

end WasmMachine.CommandLine
