/-
TextScript/Program/Parser.lean

From tokens to a program. The parser reads the tokens once, from the left, and keeps a stack of
what is still open: operators that wait for an operand, and brackets that wait for their end. A
new operator first closes the waiting ones that bind at least as tightly; a closing bracket, a
comma or the end of an expression closes all of them up to the next bracket.

Line ends inside brackets are passed over. The first failure stops the parser; the expressions
completed before it are kept.
-/
import TextScript.Expr.Basic
import TextScript.Numeral
import TextScript.Trace

namespace TextScript

/-- Something open that waits for an operand or an end. -/
inductive Frame where
  /-- An operator that waits for its operand. -/
  | unary (tok : Token) (op : UnaryOp)
  /-- An operator that waits for its right operand. -/
  | binary (tok : Token) (left : Expr) (op : BinaryOp)
  /-- An expression in parentheses. -/
  | group
  /-- The index of an expression. -/
  | index (tok : Token) (target : Expr)
  /-- A list with the items so far. -/
  | list (tok : Token) (items : List Expr)
  /-- A message, to a receiver or to none, with the arguments so far. -/
  | args (receiver : Option Expr) (tok : Token) (items : List Expr)

/-- What the parser has just read and what it therefore expects. -/
inductive Stage where
  /-- An operand is to begin. -/
  | start
  /-- The name of a message was read; an opening parenthesis would begin its arguments. -/
  | name (receiver : Option Expr) (tok : Token)
  /-- An operand is complete. -/
  | operand (e : Expr)
  /-- Parsing has failed. -/
  | failed (f : Failure)

/-- The state of the parser. -/
structure ParseState where
  stack : List Frame := []
  stage : Stage := .start
  done : Program := []
  events : List Event := []

instance : Inhabited ParseState := ⟨{}⟩

namespace Frame

/-- Whether the frame is an open bracket. -/
def isBracket : Frame → Bool
  | unary .. => false
  | binary .. => false
  | _ => true

/-- The token kind and spelling that end a bracket. -/
def closer : Frame → TokenKind
  | list .. => .rbracket
  | index .. => .rbracket
  | _ => .rparen

/-- Whether a bracket may end where an operand could begin. -/
def mayBeEmpty : Frame → Bool
  | list .. => true
  | args .. => true
  | _ => false

/-- The message of a name, with or without a receiver. -/
def message (receiver : Option Expr) (tok : Token) (parens : Bool) (args : List Expr) : Expr :=
  match receiver with
  | none => .message ⟨tok, tok.lit, parens⟩ args
  | some r => .send tok r ⟨tok, tok.lit, parens⟩ args

end Frame

namespace ParseState

/-- Whether some bracket is open. -/
def inBrackets (s : ParseState) : Bool :=
  s.stack.any Frame.isBracket

/-- The same state, failed. -/
def fail (s : ParseState) (f : Failure) : ParseState :=
  { s with stage := .failed f }

/-- Fails at a token that cannot stand where it does; `more` says what was expected. -/
def reject (s : ParseState) (tok : Token) (more : String := "") : ParseState :=
  match tok.fault with
  | some f => s.fail f
  | none => s.fail (.unexpected (tok.describe ++ more) tok.place)

/-- Opens something. -/
def push (s : ParseState) (f : Frame) : ParseState :=
  { s with stack := f :: s.stack, stage := .start }

/-- Goes on after a complete operand. -/
def operand (s : ParseState) (stack : List Frame) (e : Expr) : ParseState :=
  { s with stack, stage := .operand e }

/-- Closes the waiting operators that bind at least as tightly as `strength`, and returns what is
still open with the operand so far. -/
def reduce (strength : Strength) : List Frame → Expr → List Frame × Expr
  | .unary tok op :: rest, e =>
    if strength ≤ Strength.unary then reduce strength rest (.unary tok op e)
    else (.unary tok op :: rest, e)
  | .binary tok left op :: rest, e =>
    if strength ≤ op.rightStrength then reduce strength rest (.binary tok left op e)
    else (.binary tok left op :: rest, e)
  | stack, e => (stack, e)

/-- The value of a decimal numeral, if it fits 64 bits with a sign. -/
def integer? (lit : String) : Option Int64 :=
  (Numeral.natural? 10 lit.toList).bind fun n => Numeral.word? n

/-- Reads an integer. A minus sign directly before it becomes part of it. -/
def beginInteger (s : ParseState) (tok : Token) : ParseState :=
  match integer? tok.lit with
  | none => s.fail (.unexpected ("integer \"" ++ tok.lit ++ "\" (out of range)") tok.place)
  | some n =>
    match s.stack with
    | .unary sign .negate :: rest =>
      let place := ⟨tok.place.line, sign.place.column⟩
      s.operand rest (.int { tok with lit := "-" ++ tok.lit, place } (-n))
    | stack => s.operand stack (.int tok n)

/-- Reads a text literal. A failure without a description is reported at the literal. -/
def beginText (literal : Token → Traced Expr) (s : ParseState) (tok : Token) : ParseState :=
  let t := literal tok
  let s := { s with events := s.events ++ t.events }
  match t.result with
  | .ok e => s.operand s.stack e
  | .error (.plain m) =>
    s.fail (.wrapped
      { code := .unexpectedToken, cls := .parse, message := m, place := tok.place } (.plain m))
  | .error f => s.fail f

/-- Ends the innermost bracket, given its last item if there is one. -/
def close (s : ParseState) (last : Option Expr) : ParseState :=
  match s.stack, last with
  | .group :: rest, some e => s.operand rest e
  | .index tok target :: rest, some e => s.operand rest (.index tok target e)
  | .list tok items :: rest, last => s.operand rest (.list tok (items ++ last.toList))
  | .args receiver tok items :: rest, last =>
    s.operand rest (Frame.message receiver tok true (items ++ last.toList))
  | _, _ => s

/-- Reads a token where an operand is to begin. -/
def begin (literal : Token → Traced Expr) (s : ParseState) (tok : Token) : ParseState :=
  match tok.kind with
  | .ident => { s with stage := .name none tok }
  | .int => s.beginInteger tok
  | .text => s.beginText literal tok
  | .minus => s.push (.unary tok .negate)
  | .bang => s.push (.unary tok .not)
  | .lparen => s.push .group
  | .lbracket => s.push (.list tok [])
  | kind =>
    match s.stack with
    | [] => if kind = .terminator ∨ kind = .eof then s else s.reject tok
    | top :: _ => if top.mayBeEmpty ∧ kind = top.closer then s.close none else s.reject tok

/-- Reads a token that ends the operand `e`: everything waiting is closed, up to the innermost
bracket. -/
def finish (s : ParseState) (e : Expr) (tok : Token) : ParseState :=
  let (stack, e) := reduce Strength.lowest s.stack e
  let s := { s with stack }
  match stack with
  | [] =>
    let s := { s with done := s.done ++ [e], stage := .start }
    if tok.kind = .terminator ∨ tok.kind = .eof then s else s.reject tok
  | .list bracket items :: rest =>
    if tok.kind = .comma then
      { s with stack := .list bracket (items ++ [e]) :: rest, stage := .start }
    else if tok.kind = .rbracket then s.close (some e)
    else s.reject tok (", expected '" ++ TokenKind.name .rbracket ++ "'")
  | .args receiver name items :: rest =>
    if tok.kind = .comma then
      { s with stack := .args receiver name (items ++ [e]) :: rest, stage := .start }
    else if tok.kind = .rparen then s.close (some e)
    else s.reject tok (", expected '" ++ TokenKind.name .rparen ++ "'")
  | top :: _ =>
    if tok.kind = top.closer then s.close (some e)
    else s.reject tok (", expected '" ++ top.closer.name ++ "'")

/-- Reads a token after the complete operand `e`. -/
def extend (s : ParseState) (e : Expr) (tok : Token) : ParseState :=
  match tok.kind.binaryOp? with
  | some op =>
    let (stack, left) := reduce op.strength s.stack e
    let s := { s with stack }
    if op = .assign ∧ !left.isBareName then
      s.fail (.unexpected ("'=' after " ++ left.render ++ " (can only assign to a name)") tok.place)
    else s.push (.binary tok left op)
  | none =>
    match tok.kind with
    | .ident =>
      let (stack, receiver) := reduce Strength.send s.stack e
      { s with stack, stage := .name (some receiver) tok }
    | .lbracket =>
      let (stack, target) := reduce Strength.index s.stack e
      { s with stack }.push (.index tok target)
    | _ => s.finish e tok

/-- Reads one token. -/
def step (literal : Token → Traced Expr) (s : ParseState) (tok : Token) : ParseState :=
  match s.stage with
  | .failed _ => s
  | stage =>
    if tok.isNewline && s.inBrackets then s
    else
      match stage with
      | .start => s.begin literal tok
      | .name receiver name =>
        if tok.kind = .lparen then s.push (.args receiver name [])
        else s.extend (Frame.message receiver name false []) tok
      | .operand e => s.extend e tok
      | .failed _ => s

/-- Reads all tokens in order. -/
def run (literal : Token → Traced Expr) (toks : List Token) : ParseState :=
  toks.foldl (step literal) {}

/-- The failure that stopped the parser, if one did. -/
def failure? (s : ParseState) : Option Failure :=
  match s.stage with
  | .failed f => some f
  | _ => none

end ParseState

end TextScript
