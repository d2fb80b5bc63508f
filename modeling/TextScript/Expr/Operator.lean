/-
TextScript/Expr/Operator.lean

Operators and how tightly they bind. Sending a message and indexing bind tighter than any
operator, and a prefix operator tighter than any other operator. Operators of one strength group
to the left, the assignment to the right.
-/
import TextScript.Token.Basic

namespace TextScript

/-- The operators in front of one operand. -/
inductive UnaryOp where
  | negate | not
  | other (symbol : String)
deriving DecidableEq, Inhabited, Repr

/-- The operators between two operands. -/
inductive BinaryOp where
  | assign | or | and
  | eq | notEq
  | lt | gt | lte | gte | spaceship
  | range | xrange
  | add | sub
  | mul | div | rem
  | other (symbol : String)
deriving DecidableEq, Inhabited, Repr

namespace UnaryOp

/-- The spelling of an operator. -/
def symbol : UnaryOp → String
  | negate => "-"
  | not => "!"
  | other s => s

/-- The operator with a spelling. -/
def ofSymbol : String → UnaryOp
  | "-" => negate
  | "!" => not
  | s => other s

end UnaryOp

namespace BinaryOp

/-- The operators that the language has. -/
def known : List BinaryOp :=
  [assign, or, and, eq, notEq, lt, gt, lte, gte, spaceship, range, xrange, add, sub, mul, div, rem]

/-- The spelling of an operator. -/
def symbol : BinaryOp → String
  | assign => "="
  | or => "||"
  | and => "&&"
  | eq => "=="
  | notEq => "!="
  | lt => "<"
  | gt => ">"
  | lte => "<="
  | gte => ">="
  | spaceship => "<=>"
  | range => ".."
  | xrange => "..."
  | add => "+"
  | sub => "-"
  | mul => "*"
  | div => "/"
  | rem => "%"
  | other s => s

/-- The operator with a spelling. -/
def ofSymbol (s : String) : BinaryOp :=
  (known.find? (·.symbol = s)).getD (.other s)

end BinaryOp

/-- How tightly something binds its operands; the looser, the smaller. -/
abbrev Strength := Nat

namespace Strength

/-- The strength that every operator exceeds. -/
def lowest : Strength := 1

/-- The strength of an operator in front of its operand. -/
def unary : Strength := 10

/-- The strength of sending a message. -/
def send : Strength := 11

/-- The strength of indexing. -/
def index : Strength := 12

end Strength

/-- The strength of an operator. -/
def BinaryOp.strength : BinaryOp → Strength
  | assign => 2
  | or => 3
  | and => 4
  | eq | notEq => 5
  | lt | gt | lte | gte | spaceship => 6
  | range | xrange => 7
  | add | sub => 8
  | mul | div | rem => 9
  | other _ => 1

/-- What an operator must exceed to become part of this one's right operand. Assignment lets
everything in, so it groups to the right. -/
def BinaryOp.rightStrength : BinaryOp → Strength
  | assign => Strength.lowest
  | op => op.strength

/-- The operator that a kind of token stands for between two operands. -/
def TokenKind.binaryOp? : TokenKind → Option BinaryOp
  | .assign => some .assign
  | .or => some .or
  | .and => some .and
  | .eq => some .eq
  | .notEq => some .notEq
  | .lt => some .lt
  | .gt => some .gt
  | .lte => some .lte
  | .gte => some .gte
  | .spaceship => some .spaceship
  | .range => some .range
  | .xrange => some .xrange
  | .plus => some .add
  | .minus => some .sub
  | .asterisk => some .mul
  | .slash => some .div
  | .percent => some .rem
  | _ => none

/-- The operator that a kind of token stands for in front of an operand. -/
def TokenKind.unaryOp? : TokenKind → Option UnaryOp
  | .minus => some .negate
  | .bang => some .not
  | _ => none

end TextScript
