/-
TextScript/Failure/Code.lean

The causes of failure. Each cause has a stable name, and the catalogue gives its class, its message
and its hints. A malformed Unicode escape counts as an unknown escape too.
-/
import TextScript.Failure.Template

namespace TextScript

/-- The broad class of a failure. -/
inductive FailureClass where
  | parse | type | arity | undefined | index | format | host
  | other (name : String)
deriving DecidableEq, Inhabited, Repr

/-- The written name of a class. -/
def FailureClass.name : FailureClass → String
  | .parse => "parse"
  | .type => "type"
  | .arity => "arity"
  | .undefined => "undefined"
  | .index => "index"
  | .format => "format"
  | .host => "host"
  | .other name => name

/-- The class with a written name. -/
def FailureClass.ofName (name : String) : FailureClass :=
  ([.parse, .type, .arity, .undefined, .index, .format, .host].find? (·.name = name)).getD
    (.other name)

/-- The cause of a failure. -/
inductive Code where
  | unterminatedInterpolation
  | unknownEscape
  | malformedUnicodeEscape
  | unterminatedText
  | nestingTooDeep
  | unexpectedToken
  | hostCompile
  | argumentUnderflow
  | notEnumerable
  | notAPair
  | stringify
  | outputTooLarge
  | argumentType
  | notOneChar
  | arity
  | undefinedName
  | unknownMethod
  | hostExpression
  | other (name : String)
deriving DecidableEq, Inhabited, Repr

namespace Code

/-- The stable name of a cause. -/
def name : Code → String
  | unterminatedInterpolation => "PARSE-0001"
  | unknownEscape => "PARSE-0002"
  | malformedUnicodeEscape => "PARSE-0003"
  | unterminatedText => "PARSE-0004"
  | nestingTooDeep => "PARSE-0005"
  | unexpectedToken => "PARSE-0006"
  | hostCompile => "PARSE-0007"
  | argumentUnderflow => "FORMAT-0001"
  | notEnumerable => "FORMAT-0002"
  | notAPair => "FORMAT-0003"
  | stringify => "FORMAT-0004"
  | outputTooLarge => "FORMAT-0005"
  | argumentType => "TYPE-0001"
  | notOneChar => "TYPE-0002"
  | arity => "ARITY-0001"
  | undefinedName => "UNDEF-0001"
  | unknownMethod => "UNDEF-0002"
  | hostExpression => "HOST-0001"
  | other name => name

/-- The causes that the catalogue knows. -/
def catalogued : List Code :=
  [unterminatedInterpolation, unknownEscape, malformedUnicodeEscape, unterminatedText,
   nestingTooDeep, unexpectedToken, hostCompile, argumentUnderflow, notEnumerable, notAPair,
   stringify, outputTooLarge, argumentType, notOneChar, arity, undefinedName, unknownMethod,
   hostExpression]

/-- The causes that a failure can be tested against. A malformed Unicode escape is tested for as an
unknown escape. -/
def testable : List Code :=
  catalogued.filter (· ≠ malformedUnicodeEscape)

/-- The cause with a stable name. -/
def ofName (name : String) : Code :=
  (catalogued.find? (·.name = name)).getD (.other name)

/-- No cause: the mark of a failure that the catalogue does not describe. -/
def unnamed : Code := .other ""

end Code

/-- What the catalogue says of a cause. -/
structure Entry where
  cls : FailureClass
  template : Template
  hints : List Template := []
  /-- A broader cause that this one also counts as. -/
  broader : Option Code := none

namespace Code

/-- The catalogue. -/
def entry? : Code → Option Entry
  | unterminatedInterpolation => some
    { cls := .parse
      template := [.words "unterminated interpolation in text literal"]
      hints := [[.words "close every #\x7b with a matching \x7d"]] }
  | unknownEscape => some
    { cls := .parse
      template := [.words "unknown escape sequence '\\", .slot "Char", .words "' in text literal"]
      hints := [[.words "use \\\\ for a literal backslash"]] }
  | malformedUnicodeEscape => some
    { cls := .parse
      template :=
        [.words "malformed unicode escape '\\u", .slot "Digits", .words "': expected 4 hex digits"]
      broader := some unknownEscape }
  | unterminatedText => some
    { cls := .parse
      template := [.words "unterminated text literal"] }
  | nestingTooDeep => some
    { cls := .parse
      template := [.words "interpolation nested deeper than ", .slot "Max", .words " levels"] }
  | unexpectedToken => some
    { cls := .parse
      template := [.words "unexpected ", .slot "Token"] }
  | hostCompile => some
    { cls := .parse
      template := [.words "cannot compile interpolated expression `", .slot "Source", .words "`"] }
  | argumentUnderflow => some
    { cls := .format
      template :=
        [.words "format directive '", .slot "Directive", .words "' needs argument ", .slot "Index",
         .words ", but only ", .slot "Count", .words " given"] }
  | notEnumerable => some
    { cls := .type
      template := [.words "cannot enumerate ", .slot "Got"]
      hints := [[.words "%[ and %*[ iterate over lists and other enumerable values"]] }
  | notAPair => some
    { cls := .type
      template := [.words "cannot split ", .slot "Got", .words " into a pair"] }
  | stringify => some
    { cls := .type
      template := [.words "cannot convert ", .slot "Got", .words " to text"] }
  | outputTooLarge => some
    { cls := .format
      template := [.words "formatted output exceeds ", .slot "Max", .words " characters"] }
  | argumentType => some
    { cls := .type
      template :=
        [.words "argument to `", .slot "Function", .words "` must be ", .slot "Expected",
         .words ", got ", .slot "Got"] }
  | notOneChar => some
    { cls := .type
      template :=
        [.words "`", .slot "Function", .words "` needs a text of exactly one character, got ",
         .slot "Length"] }
  | arity => some
    { cls := .arity
      template :=
        [.words "wrong number of arguments to `", .slot "Function", .words "`. got=", .slot "Got",
         .words ", want=", .slot "Want"] }
  | undefinedName => some
    { cls := .undefined
      template := [.words "identifier not found: ", .slot "Name"] }
  | unknownMethod => some
    { cls := .undefined
      template := [.words "unknown method '", .slot "Method", .words "' for ", .slot "Type"] }
  | hostExpression => some
    { cls := .host
      template := [.words "interpolated expression `", .slot "Source", .words "` failed"] }
  | other _ => none

end Code

end TextScript
