/-
TextScript/Text/Category.lean

The script of a one-character text.
-/
import TextScript.Text.Basic
import TextScript.Unicode.Script

namespace TextScript.Text

/-- The name of the script of a text of exactly one character; absent for any other length. -/
def category? (t : Text) : Option String :=
  match t.points with
  | [n] => some (Unicode.scriptName n)
  | _ => none

/-- What is said of a text that has not exactly one character. -/
def notOneCharacter (t : Text) : String :=
  "text has " ++ toString t.length ++ " characters, want exactly one"

end TextScript.Text
