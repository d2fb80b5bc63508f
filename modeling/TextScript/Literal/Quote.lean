/-
TextScript/Literal/Quote.lean

The literal of a text: quotes around its code points, with an escape wherever a plain character
would end the literal, begin an escape or an interpolation, or not show. A number that is no
scalar value cannot be written and becomes the replacement character.
-/
import TextScript.Numeral
import TextScript.Text.Basic

namespace TextScript.Quote

/-- The escape of a control character by its number. A number below zero is written with its sign,
in a field of four characters. -/
def control (n : Int) : List Char :=
  '\\' :: 'u' ::
    match n with
    | .ofNat k => Numeral.hex true 4 k
    | .negSucc k =>
      let ds := (Nat.toDigits 16 (k + 1)).map Char.toUpper
      '-' :: (List.replicate (3 - ds.length) '0' ++ ds)

/-- The written form of one code point, given those that follow it. -/
def point (n : Int) (rest : List Int) : List Char :=
  if n = 0x22 then ['\\', '"']
  else if n = 0x5C then ['\\', '\\']
  else if n = 10 then ['\\', 'n']
  else if n = 9 then ['\\', 't']
  else if n = 13 then ['\\', 'r']
  else if n = 12 then ['\\', 'f']
  else if n = 8 then ['\\', 'b']
  else if n = 0x23 then
    match rest with
    | 0x7B :: _ => ['\\', '#']
    | _ => ['#']
  else if n < 0x20 ∨ n = 0x7F then control n
  else [scalarOf n]

/-- The part of a literal between its quotes. -/
def body : List Int → List Char
  | [] => []
  | n :: rest => point n rest ++ body rest

/-- The literal of a text. -/
def quoted (t : Text) : List Char :=
  '"' :: body t.points ++ ['"']

/-- The literal of a text, as a string. -/
def quote (t : Text) : String :=
  String.ofList (quoted t)

end TextScript.Quote
