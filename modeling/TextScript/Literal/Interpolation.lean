/-
TextScript/Literal/Interpolation.lean

From the body of a literal to an expression. A body without interpolations is a text. Any other is
cut into segments and embedded code, in turn; segments are decoded, and code is handed to a reader
of expressions, except for blank code, which stands for the empty text.

Everything is placed relative to the whole source: the body begins one column after the quote.
-/
import TextScript.Expr.Basic
import TextScript.Literal.Balance
import TextScript.Literal.Escape
import TextScript.Trace

namespace TextScript

/-- A reader of embedded code: given the code and the position of its first character. -/
abbrev CodeReader := String → Position → Traced Expr

namespace Interpolation

/-- The number of characters before the first interpolation. A backslash hides the character after
it. -/
def segmentSize : List Char → Nat
  | [] => 0
  | '\\' :: _ :: cs => segmentSize cs + 2
  | '#' :: '{' :: _ => 0
  | _ :: cs => segmentSize cs + 1

/-- Reads the code of one interpolation. -/
def readCode (reader : Option CodeReader) (tok : Token) (code : String) (p : Position) :
    Traced Expr :=
  if Text.isBlankString code then .ok (.text tok .empty)
  else
    match reader with
    | none => .fail (.unexpected "interpolation (no expression parser configured)" p)
    | some read => do
      .report (.codeHanded code p)
      read code p

/-- The failure of a literal whose interpolations do not balance. -/
def unbalanced (limit : Int) (tok : Token) : Unbalanced → Failure
  | .tooDeep => .makeAt .nestingTooDeep tok.place (some [("Max", .number limit)])
  | _ => .makeAt .unterminatedInterpolation tok.place

/-- The parts of a body that goes on in `cs` from position `p`: segments and embedded expressions in
turn. -/
def readParts (reader : Option CodeReader) (limit : Int) (tok : Token) (p : Position)
    (cs : List Char) : Traced (List Expr) :=
  let n := segmentSize cs
  let segment := cs.take n
  match Escape.decodeAt p segment with
  | .error f => .fail f
  | .ok value =>
    match _h : cs.drop n with
    | '#' :: '{' :: rest =>
      match Balance.code 1 limit rest with
      | .stopped _ why => .fail (unbalanced limit tok why)
      | .closed k =>
        let codePlace := p.advance (segment ++ ['#', '{'])
        let code := rest.take k
        (readCode reader tok (String.ofList code) codePlace).andThen fun e =>
          (readParts reader limit tok (codePlace.advance (code ++ ['}']))
            (rest.drop (k + 1))).andThen
            fun parts => .ok (.text tok value :: e :: parts)
    | _ => .ok [.text tok value]
termination_by cs.length
decreasing_by
  have hlen : (cs.drop (segmentSize cs)).length ≤ cs.length := by simp
  rw [_h] at hlen
  simp only [List.length_drop, List.length_cons] at hlen ⊢
  omega

/-- Reads the literal of a token. `limit` bounds how deep interpolations may nest; 0 means not at
all. -/
def read (reader : Option CodeReader) (limit : Int) (tok : Token) : Traced Expr :=
  (readParts reader limit tok tok.place.next tok.lit.toList).andThen fun parts =>
    match parts with
    | [whole] => .ok whole
    | parts => do
      .report (.literalRead tok.place (parts.length / 2))
      return .concat tok parts

/-- Reads a body whose opening quote is at `p`. -/
def readBody (reader : Option CodeReader) (limit : Int) (raw : String) (p : Position) :
    Traced Expr :=
  read reader limit { kind := .text, lit := raw, place := p }

end Interpolation

end TextScript
