/-
TextScript/Token/Basic.lean

Tokens: what a source is made of. A token knows its kind, its spelling and the position of its first
character; the spelling of a text literal leaves out its quotes. A token that cannot be used carries
the failure that says why.
-/
import TextScript.Failure.Basic

namespace TextScript

/-- The kinds of token. -/
inductive TokenKind where
  | illegal | eof | terminator
  | ident | int | text
  | assign | plus | minus | bang | asterisk | slash | percent
  | lt | gt | lte | gte | eq | notEq | spaceship | and | or | range | xrange
  | comma | lparen | rparen | lbracket | rbracket
deriving DecidableEq, Inhabited, Repr

namespace TokenKind

/-- Every kind, in the order of their numbers. -/
def all : List TokenKind :=
  [illegal, eof, terminator, ident, int, text, assign, plus, minus, bang, asterisk, slash, percent,
   lt, gt, lte, gte, eq, notEq, spaceship, and, or, range, xrange, comma, lparen, rparen, lbracket,
   rbracket]

/-- The name of a kind: its spelling where it has only one. -/
def name : TokenKind → String
  | illegal => "ILLEGAL"
  | eof => "EOF"
  | terminator => "TERMINATOR"
  | ident => "IDENT"
  | int => "INT"
  | text => "TEXT"
  | assign => "="
  | plus => "+"
  | minus => "-"
  | bang => "!"
  | asterisk => "*"
  | slash => "/"
  | percent => "%"
  | lt => "<"
  | gt => ">"
  | lte => "<="
  | gte => ">="
  | eq => "=="
  | notEq => "!="
  | spaceship => "<=>"
  | and => "&&"
  | or => "||"
  | range => ".."
  | xrange => "..."
  | comma => ","
  | lparen => "("
  | rparen => ")"
  | lbracket => "["
  | rbracket => "]"

/-- The name of the kind numbered `n`; a number without a kind is shown as such. -/
def nameOfNumber (n : Int) : String :=
  match n with
  | .ofNat k => (all[k]?.map name).getD ("TokenType(" ++ toString n ++ ")")
  | .negSucc _ => "TokenType(" ++ toString n ++ ")"

end TokenKind

/-- One token of a source. -/
structure Token where
  kind : TokenKind := .illegal
  lit : String := ""
  place : Position := .unknown
  fault : Option Failure := none
deriving DecidableEq, Inhabited, Repr

namespace Token

/-- The token that stands for no token. -/
def none : Token := {}

/-- Whether the token is a line end. -/
def isNewline (t : Token) : Bool :=
  t.kind = .terminator && t.lit = "\n"

/-- The written form of a token. -/
def render (t : Token) : String :=
  "\x7bType: " ++ t.kind.name ++ ", Literal: " ++ t.lit ++ ", Line: " ++
    toString t.place.shown.line ++ ", Column: " ++ toString t.place.shown.column ++ "\x7d"

/-- What a message calls the token. -/
def describe (t : Token) : String :=
  match t.kind with
  | .eof => "end of input"
  | .text => "text literal"
  | .terminator => if t.lit = "\n" then "end of line" else "'" ++ t.lit ++ "'"
  | _ => "'" ++ t.lit ++ "'"

end Token

end TextScript
