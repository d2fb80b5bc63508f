/-
TextScript/Log/Line.lean

Lines of a log. A record has a level, a message and named numbers; it is written as `key=value`
words or as a JSON object. In the first form a word that would be ambiguous is quoted.
-/
import TextScript.Numeral
import TextScript.Unicode.Blank
import TextScript.Unicode.Printable

namespace TextScript.Log

/-- How serious a record is. -/
inductive Level where
  | debug | info | warn | error
deriving DecidableEq, Inhabited, Repr

/-- Levels by increasing weight. -/
def Level.weight : Level → Int
  | .debug => -4
  | .info => 0
  | .warn => 4
  | .error => 8

/-- The name of a level in a log. -/
def Level.name : Level → String
  | .debug => "DEBUG"
  | .info => "INFO"
  | .warn => "WARN"
  | .error => "ERROR"

/-- The level that a setting names. -/
def Level.ofSetting? : String → Option Level
  | "debug" => some .debug
  | "info" => some .info
  | "warn" => some .warn
  | "error" => some .error
  | _ => none

/-- What is logged. -/
structure Record where
  level : Level
  message : String
  numbers : List (String × Int)
deriving Repr

/-- How records are written. -/
inductive Form where
  | words | json
deriving DecidableEq, Repr

/-- The form that a setting names. -/
def Form.ofSetting? : String → Option Form
  | "json" => some .json
  | "text" => some .words
  | "" => some .words
  | _ => none

/-! ### Words -/

/-- The last `width` hexadecimal digits of a number, in lower case. -/
def hex (width n : Nat) : String :=
  String.ofList (Numeral.hex false width n)

/-- Whether a character makes a word ambiguous. -/
def needsQuotes (c : Char) : Bool :=
  if c.toNat < 0x80 then c = ' ' || c = '=' || c = '"' || c.toNat < 0x20
  else c = '\uFFFD' || Unicode.isBlank c.toNat || !Unicode.isPrintable c

/-- A character between quotes. -/
def quotedChar (c : Char) : String :=
  match c with
  | '"' => "\\\""
  | '\\' => "\\\\"
  | '\n' => "\\n"
  | '\t' => "\\t"
  | '\r' => "\\r"
  | c =>
    let n := c.toNat
    if n = 7 then "\\a"
    else if n = 8 then "\\b"
    else if n = 11 then "\\v"
    else if n = 12 then "\\f"
    else if Unicode.isPrintable c then c.toString
    else if n < 0x20 ∨ n = 0x7F then "\\x" ++ hex 2 n
    else if n < 0x10000 then "\\u" ++ hex 4 n
    else "\\U" ++ hex 8 n

/-- A word, quoted if it would be ambiguous. -/
def word (s : String) : String :=
  if s = "" || s.toList.any needsQuotes then "\"" ++ String.join (s.toList.map quotedChar) ++ "\""
  else s

/-! ### JSON -/

/-- A character of a JSON string. -/
def jsonChar (c : Char) : String :=
  match c with
  | '"' => "\\\""
  | '\\' => "\\\\"
  | '\n' => "\\n"
  | '\t' => "\\t"
  | '\r' => "\\r"
  | c =>
    let n := c.toNat
    if n < 0x20 ∨ n = 0x2028 ∨ n = 0x2029 then "\\u" ++ hex 4 n
    else c.toString

/-- A JSON string. -/
def jsonString (s : String) : String :=
  "\"" ++ String.join (s.toList.map jsonChar) ++ "\""

/-! ### Records -/

/-- A record without its time, which comes first on the line. -/
def Form.render (f : Form) (r : Record) : String :=
  match f with
  | .words =>
    " ".intercalate (["level=" ++ r.level.name, "msg=" ++ word r.message] ++
      r.numbers.map fun (k, n) => word k ++ "=" ++ toString n)
  | .json =>
    ",".intercalate
      (["\"level\":" ++ jsonString r.level.name, "\"msg\":" ++ jsonString r.message] ++
      r.numbers.map fun (k, n) => jsonString k ++ ":" ++ toString n) ++ "\x7d"

end TextScript.Log
