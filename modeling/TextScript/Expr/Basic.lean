/-
TextScript/Expr/Basic.lean

Expression trees. Everything is a message, a literal, or built from these with operators, indexing
and lists. A literal with interpolations is a `concat` node whose parts are segments of plain text
and embedded expressions in turn, beginning and ending with a segment.

The written form of a tree turns operators into messages with one argument and a `concat` node
into a call of `internal:concatenateText`.
-/
import TextScript.Expr.Operator
import TextScript.Literal.Quote
import TextScript.Text.Words
import TextScript.Value.Basic

namespace TextScript

/-- The head of a message: its token, its name, and whether arguments in parentheses follow. -/
structure MessageHead where
  tok : Token
  name : String
  parens : Bool
deriving DecidableEq, Inhabited

/-- Named values, as an embedding program's engine sees them. -/
abbrev Bindings := List (String × Value)

/-- An expression. Each node keeps the token it stands for. -/
inductive Expr where
  /-- A message without a receiver. -/
  | message (head : MessageHead) (args : List Expr)
  /-- A message to the result of another expression. -/
  | send (tok : Token) (receiver : Expr) (head : MessageHead) (args : List Expr)
  | int (tok : Token) (value : Int64)
  | text (tok : Token) (value : Text)
  /-- A literal with interpolations. -/
  | concat (tok : Token) (parts : List Expr)
  | unary (tok : Token) (op : UnaryOp) (operand : Expr)
  | binary (tok : Token) (left : Expr) (op : BinaryOp) (right : Expr)
  | index (tok : Token) (target : Expr) (position : Expr)
  | list (tok : Token) (items : List Expr)
  /-- Code that the embedding program's engine runs. -/
  | host (tok : Token) (source : String) (run : Bindings → Except Failure Value)
  /-- A node that only the embedding program knows. -/
  | foreign (label : String)

instance : Inhabited Expr := ⟨.foreign ""⟩

/-- The message that a literal with interpolations stands for. -/
def concatenateName : String := "internal:concatenateText"

namespace Expr

/-- The spelling of a node's token. -/
def tokenLit : Expr → String
  | message head _ => head.tok.lit
  | send tok .. => tok.lit
  | int tok _ => tok.lit
  | text tok _ => tok.lit
  | concat tok _ => tok.lit
  | unary tok .. => tok.lit
  | binary tok .. => tok.lit
  | index tok .. => tok.lit
  | list tok _ => tok.lit
  | host tok .. => tok.lit
  | foreign label => label

/-- The leftmost token of an expression. Host code has none. -/
def firstToken : Expr → Token
  | send _ receiver _ _ => receiver.firstToken
  | binary _ left _ _ => left.firstToken
  | index _ target _ => target.firstToken
  | message head _ => head.tok
  | int tok _ => tok
  | text tok _ => tok
  | concat tok _ => tok
  | unary tok _ _ => tok
  | list tok _ => tok
  | host _ _ _ => .none
  | foreign _ => .none

/-- Whether an expression is a name that can be assigned to. -/
def isBareName : Expr → Bool
  | message head _ => !head.parens
  | _ => false

/-- Arguments in parentheses, or nothing if there are no parentheses. -/
def renderArgs (parens : Bool) (args : List String) : String :=
  if parens then "(" ++ ", ".intercalate args ++ ")" else ""

mutual

/-- The written form of an expression. -/
def render : Expr → String
  | message head args => head.name ++ renderArgs head.parens (renderAll args)
  | send _ receiver head args =>
    render receiver ++ " " ++ head.name ++ renderArgs head.parens (renderAll args)
  | int _ value => toString value.toInt
  | text _ value => Quote.quote value
  | concat _ parts => concatenateName ++ renderArgs true (renderAll parts)
  | unary _ op operand => op.symbol ++ "(" ++ render operand ++ ")"
  | binary _ left op right => render left ++ " " ++ op.symbol ++ "(" ++ render right ++ ")"
  | index _ target position => render target ++ "[" ++ render position ++ "]"
  | list _ items => "[" ++ ", ".intercalate (renderAll items) ++ "]"
  | host _ source _ => Text.trimString source
  | foreign label => label

/-- The written forms of a list of expressions. -/
def renderAll : List Expr → List String
  | [] => []
  | e :: es => render e :: renderAll es

end

/-- The members of a list at even places, beginning with the first. -/
def evens {α : Type} : List α → List α
  | [] => []
  | [a] => [a]
  | a :: _ :: rest => a :: evens rest

/-- The plain segments of a literal's parts. -/
def segments (parts : List Expr) : List Text :=
  (evens parts).filterMap fun
    | text _ value => some value
    | _ => none

/-- The embedded expressions of a literal's parts. -/
def interpolations (parts : List Expr) : List Expr :=
  evens (parts.drop 1)

end Expr

/-- A program: expressions in order. -/
abbrev Program := List Expr

namespace Program

/-- The written form of a program, one expression a line. -/
def render (p : Program) : String :=
  "\n".intercalate (p.map Expr.render)

/-- The spelling of a program's first token. -/
def tokenLit (p : Program) : String :=
  (p.head?.map Expr.tokenLit).getD ""

end Program

end TextScript
