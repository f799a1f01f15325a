import Relational.Text.Grammar

/-!
The message of a reading error: for each mark the line that it is on, with a caret under its place.
Columns count bytes.
-/

namespace Relational.Text

def Label.text : Label → String
  | tag => "Tag"
  | alternative => "Alt"
  | digit => "Digit"
  | identifier => "identifier"
  | float => "float"
  | parenthesized => "parenthesized"
  | list => "list"
  | atom => "atom"
  | relation => "relation"

def Mark.before (m : Mark) (text : List Char) : List Char := text.take (text.length - m.rest.length)

/-- The part before the mark on the mark's line. -/
def Mark.lineBefore (m : Mark) (text : List Char) : List Char :=
  ((m.before text).reverse.takeWhile (· ≠ '\n')).reverse

def Mark.report (text : List Char) (m : Mark) (i : Nat) : String :=
  if text = [] then toString i ++ ": in " ++ m.label.text ++ ", got empty input\n\n"
  else
    let number := (m.before text).count '\n' + 1
    let before := m.lineBefore text
    let line := trimEnd (before ++ m.rest.takeWhile (· ≠ '\n'))
    let caret := List.replicate (String.ofList before).utf8ByteSize ' ' ++ ['^']
    toString i ++ ": at line " ++ toString number ++ ", in " ++ m.label.text ++ ":\n"
      ++ String.ofList line ++ "\n" ++ String.ofList caret ++ "\n\n"

def report (text : List Char) (marks : List Mark) : String :=
  String.join (marks.mapIdx fun i m => m.report text i)

def ReadError.message (text : String) : ReadError → String
  | malformed marks => "parse error: " ++ report text.toList marks
  | trailing rest => "unconsumed input: '" ++ String.ofList rest ++ "'"

end Relational.Text
