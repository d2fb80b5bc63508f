/-
TextScript/Program/Source.lean

Reading a source. The source is cut into tokens and the tokens are parsed; the code of an
interpolation is read as a source of its own, or by another reader if the options name one. That
code is shorter than the literal it stands in, so as many levels as the source has characters are
always enough.

The limit on nesting is a setting: zero selects the default and a negative setting removes it. The
limit in force is handed on as the setting for embedded code.
-/
import TextScript.Literal.Interpolation
import TextScript.Program.Parser
import TextScript.Token.Lexer

namespace TextScript

/-- How a source is read. -/
structure ParseOptions where
  /-- The setting for how deep interpolations may nest. -/
  maxDepth : Int := 0
  /-- Another reader for embedded code. -/
  embedded : Option CodeReader := none

instance : Inhabited ParseOptions := ⟨{}⟩

/-- How deep interpolations may nest when nothing else is set. -/
def defaultMaxDepth : Int := 64

namespace ParseOptions

/-- The limit in force; 0 means none. -/
def limit (o : ParseOptions) : Int :=
  if o.maxDepth = 0 then defaultMaxDepth else if o.maxDepth < 0 then 0 else o.maxDepth

/-- The options for embedded code. -/
def inner (o : ParseOptions) : ParseOptions :=
  { o with maxDepth := o.limit }

end ParseOptions

/-- What came of reading a source: the expressions completed, the failure that stopped it, and what
happened on the way. -/
structure Parsed where
  program : Program
  failure : Option Failure
  events : List Event

namespace Parsed

/-- The program, if nothing failed. -/
def toTraced (p : Parsed) : Traced Program :=
  match p.failure with
  | some f => ⟨.error f, p.events⟩
  | none => ⟨.ok p.program, p.events⟩

/-- The one expression of a source that begins at `place`. -/
def single (place : Position) (p : Parsed) : Traced Expr :=
  p.toTraced.andThen fun
    | [] => .fail (.unexpected "end of interpolation" place)
    | [e] => .ok e
    | _ :: e :: _ =>
      let tok := e.firstToken
      .fail (.unexpected ("'" ++ tok.lit ++ "' after interpolated expression") tok.place)

end Parsed

namespace Source

/-- Reads a source whose literals nest at most `levels` deep. -/
def parseLevels : (levels : Nat) → ParseOptions → Position → List Char → Parsed
  | levels, o, p, src =>
    let reader : Option CodeReader :=
      match o.embedded with
      | some reader => some reader
      | none =>
        match levels with
        | 0 => none
        | levels + 1 => some fun code place =>
          (parseLevels levels o.inner place code.toList).single place
    let s := ParseState.run (Interpolation.read reader o.limit) (Lexer.tokens o.limit p src)
    { program := s.done, failure := s.failure?, events := s.events }

/-- Reads a source that begins at position `p`. -/
def parseAt (o : ParseOptions) (p : Position) (src : List Char) : Parsed :=
  parseLevels src.length o p src

/-- Reads a source. -/
def parse (o : ParseOptions) (src : List Char) : Parsed :=
  parseAt o {} src

/-- Reads a source that is to hold one expression. -/
def parseExpression (o : ParseOptions) (p : Position) (src : List Char) : Traced Expr :=
  (parseAt o p src).single p

/-- The reader of embedded code that the language itself is. -/
def reader (o : ParseOptions) : CodeReader :=
  fun code place => parseExpression o place code.toList

end Source

end TextScript
