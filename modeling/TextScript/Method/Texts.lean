/-
TextScript/Method/Texts.lean

The methods of texts. A method finds its arguments by their places, and how it does so is open
here: `methods` has the table for any way to find them, `table` the one for arguments in a list.
Both are open in how texts change their case.
-/
import TextScript.Literal.Escape
import TextScript.Literal.Quote
import TextScript.Method.Table
import TextScript.Text.Case
import TextScript.Text.Category
import TextScript.Text.Markup
import TextScript.Text.Words

namespace TextScript.TextMethods

/-- A way to find the argument at a place. -/
abbrev ArgumentAt := List Value → Nat → Traced Value

/-- The failure of a method that asks for an argument it was not given. -/
def missingArgument (i : Nat) : Failure :=
  .plain ("missing argument " ++ toString (i + 1))

/-- The argument at a place. -/
def arg : ArgumentAt := fun args i =>
  match args[i]? with
  | some v => .ok v
  | none => .fail (missingArgument i)

/-- The argument at a place, which must be a text. -/
def textArg (find : ArgumentAt) (method : String) (args : List Value) (i : Nat) : Traced Text := do
  match ← find args i with
  | .text t => return t
  | v => .fail (.argumentType method "a text" v.kind)

/-- Whether a value is a text with the same code points. -/
def equalsText (recv : Text) : Value → Bool
  | .text t => recv.equals t
  | _ => false

/-- The order of a text and a value; nothing for a value that is no text. -/
def compareTo (recv : Text) : Value → Value
  | .text t => .int (Int64.ofInt (recv.compare t))
  | _ => .nil

/-- The code point at an index, or the text in a range. -/
def indexBy (recv : Text) : Value → Except Failure Value
  | .int i => .ok (((recv.at? i).map fun n => .int (Int64.ofInt n)).getD .nil)
  | .number i => .ok (((recv.at? i).map fun n => .int (Int64.ofInt n)).getD .nil)
  | .range r => .ok (.text (recv.slice r))
  | v => .error (.argumentType "[]" "an integer or a range" v.kind)

/-- The script of a one-character text. -/
def categoryOf (recv : Text) : Except Failure Value :=
  match recv.category? with
  | some name => .ok (.text (Text.ofString name))
  | none => .error (.wrap .notOneChar (.plain recv.notOneCharacter)
      (some [("Function", .text "category"), ("Length", .number recv.length)]))

/-- The separator of a split: the empty text if none is given. -/
def separator (find : ArgumentAt) (args : List Value) : Traced Text :=
  if args.length = 1 then textArg find "split" args 0 else .ok .empty

/-- A method without arguments. -/
def plain (description : String) (f : Text → Value) : Method :=
  { arity := "0", description, run := fun _ recv _ => .ok (f recv) }

/-- The methods of texts, for a casing and a way to find their arguments. -/
def methods (casing : Casing) (find : ArgumentAt) : MethodTable :=
  [("==",
    { arity := "1"
      description := "True if the argument is a text with the same characters"
      run := fun _ recv args => do return .bool (equalsText recv (← find args 0)) }),
   ("!=",
    { arity := "1"
      description := "Negation of =="
      run := fun _ recv args => do return .bool (!equalsText recv (← find args 0)) }),
   ("<=>",
    { arity := "1"
      description := "Compare by code point: -1, 0 or 1; nil for non-text"
      run := fun _ recv args => do return compareTo recv (← find args 0) }),
   ("empty?", plain "True if the text has no characters" fun t => .bool t.isEmpty),
   ("length", plain "Number of characters" fun t => .int (Int64.ofNat t.length)),
   ("[]",
    { arity := "1"
      description := "Code point at an index, or the text in a range"
      run := fun _ recv args => do .lift (indexBy recv (← find args 0)) }),
   ("format",
    { arity := "0+"
      description := "Render the text as a format template"
      run := fun engine recv args => do return .text (← engine.format recv args) }),
   ("hash", plain "Hash code; equal texts hash equally" fun t => .int t.hash.toInt64),
   ("asText", plain "The text itself" .text),
   ("inspect", plain "Quoted, escaped source form" fun t => .text (.ofString (Quote.quote t))),
   ("notice", plain "Quoted, escaped source form" fun t => .text (.ofString (Quote.quote t))),
   ("lower", plain "Convert to lowercase" fun t => .text (t.lower casing)),
   ("upper", plain "Convert to uppercase" fun t => .text (t.upper casing)),
   ("trim", plain "Remove leading and trailing whitespace" fun t => .text t.trim),
   ("split",
    { arity := "0-1"
      description := "Split around a separator, or around whitespace"
      run := fun _ recv args => do return .list ((recv.split (← separator find args)).map .text) }),
   ("replace",
    { arity := "2"
      description := "Replace the first occurrence"
      run := fun _ recv args => do
        let old ← textArg find "replace" args 0
        let new ← textArg find "replace" args 1
        return .text (recv.replace old new) }),
   ("replaceAll",
    { arity := "2"
      description := "Replace every occurrence"
      run := fun _ recv args => do
        let old ← textArg find "replaceAll" args 0
        let new ← textArg find "replaceAll" args 1
        return .text (recv.replaceAll old new) }),
   ("makeXMLSafe", plain "Escape XML special characters as entities" fun t => .text t.xmlSafe),
   ("category",
    { arity := "0"
      description := "Unicode script of a single character"
      run := fun _ recv _ => .lift (categoryOf recv) }),
   ("evaluateEscapes",
    { arity := "0"
      description := "Decode backslash escapes in the text"
      run := fun _ recv _ => .lift ((Escape.decode recv.toChars).map .text) })]

/-- The methods of texts. -/
def table (casing : Casing) : MethodTable :=
  methods casing arg

/-- Sends a message to a text. -/
def send (casing : Casing) (engine : Engine) (recv : Text) (name : String) (args : List Value) :
    Traced Value :=
  (table casing).dispatch engine recv name args

end TextScript.TextMethods
