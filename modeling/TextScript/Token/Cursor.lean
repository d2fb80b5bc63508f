/-
TextScript/Token/Cursor.lean

Tokens one at a time. A cursor is what is left of a source, with the position where that begins;
each call takes one token off it, together with the gap in front. Behind the last token there is
nothing left to take, and a call gives the end of input as often as it is made.
-/
import TextScript.Token.Lexer

namespace TextScript

/-- What is left of a source, and where it begins. -/
structure Cursor where
  place : Position := {}
  rest : List Char
deriving DecidableEq, Repr

namespace Cursor

open Lexer

/-- The next token, and the cursor behind it. -/
def next (limit : Int) (c : Cursor) : Token × Cursor :=
  let gap := blankSize false c.rest
  let p := c.place.advance (c.rest.take gap)
  match c.rest.drop gap with
  | [] => ({ kind := .eof, place := p }, ⟨p, []⟩)
  | d :: ds =>
    let lx := lexeme limit d ds
    let span := (d :: ds).take lx.size
    (token limit lx span p, ⟨p.advance span, (d :: ds).drop lx.size⟩)

/-- The cursor behind the first `n` tokens. -/
def skip (limit : Int) : (n : Nat) → Cursor → Cursor
  | 0, c => c
  | n + 1, c => skip limit n (c.next limit).2

/-- The tokens of the first `n` calls. -/
def calls (limit : Int) : (n : Nat) → Cursor → List Token
  | 0, _ => []
  | n + 1, c => (c.next limit).1 :: calls limit n (c.next limit).2

end Cursor

end TextScript
