/-
# Snake case

`PascalCase` names turned into `snake_case`.  A run of capitals is one word,
except that its last capital starts the next word when a lower-case letter
follows it: `GetHTTPServer` becomes `get_http_server`.
-/

import WasmMachine.Text.LetterCase

namespace WasmMachine.Text

/-- The number of characters that the word at the head of `letters` takes, when
that word starts with a capital: the whole run of capitals, or all of the run
but its last capital when a lower-case letter follows a run of at least two. -/
def capitalWordLength (letters : List Char) : Nat :=
  let run := (letters.takeWhile isUpper).length
  match letters.drop run with
  | next :: _ => if 1 < run && isLower next then run - 1 else run
  | [] => run

/-- Copy `letters`, writing an underscore before each word that starts with a
capital unless it is the first of the name. `fuel` bounds the words left. -/
def snakeWords : Nat → Bool → List Char → List Char
  | 0, _, _ => []
  | _ + 1, _, [] => []
  | fuel + 1, first, c :: rest =>
      if isUpper c then
        let n := capitalWordLength (c :: rest)
        let word := ((c :: rest).take n).map toLower
        (if first then word else '_' :: word) ++ snakeWords fuel false ((c :: rest).drop n)
      else c :: snakeWords fuel false rest

/-- The snake-case form of a name. Only upper-case letters change. -/
def snakeCase (name : String) : String :=
  String.ofList (snakeWords (name.toList.length + 1) true name.toList)

end WasmMachine.Text
