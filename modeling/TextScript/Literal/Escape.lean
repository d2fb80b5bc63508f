/-
TextScript/Literal/Escape.lean

Backslash escapes in the body of a literal. The body is read unit by unit from the left: a
character that is no backslash stands for itself, and a backslash begins an escape. An escape
stands for one code point, or, at the end of a line, for nothing. The first backslash that begins
no escape is where decoding fails.
-/
import TextScript.Failure.Basic
import TextScript.Numeral
import TextScript.Text.Basic

namespace TextScript.Escape

/-- One unit of a body: the code points it stands for, and how many characters it takes. -/
structure Glyph where
  value : List Int
  size : Nat
deriving DecidableEq, Repr

/-- Why a backslash begins no escape. -/
inductive Fault where
  /-- No escape begins with this character; absent at the end of the body. -/
  | unknown (c : Option Char)
  /-- Only these hexadecimal digits follow. -/
  | shortUnicode (digits : String)
deriving DecidableEq, Repr

/-- How many digits an octal escape may have: three if the value then fits a byte, else two. -/
def octalReach (first : Char) : Nat :=
  if first ≤ '3' then 3 else 2

/-- The unit that a backslash begins, given the characters after it. -/
def escape : List Char → Except Fault Glyph
  | [] => .error (.unknown none)
  | c :: cs =>
    match c with
    | 'b' => .ok ⟨[8], 2⟩
    | 't' => .ok ⟨[9], 2⟩
    | 'n' => .ok ⟨[10], 2⟩
    | 'f' => .ok ⟨[12], 2⟩
    | 'r' => .ok ⟨[13], 2⟩
    | '"' => .ok ⟨[pointOf '"'], 2⟩
    | '#' => .ok ⟨[pointOf '#'], 2⟩
    | '\\' => .ok ⟨[pointOf '\\'], 2⟩
    | '\n' => .ok ⟨[], 2⟩
    | '\r' =>
      match cs with
      | '\n' :: _ => .ok ⟨[], 3⟩
      | _ => .ok ⟨[], 2⟩
    | 'u' =>
      let ds := Numeral.leading 16 4 cs
      if ds.length = 4 then .ok ⟨[Numeral.value 16 ds], 6⟩
      else .error (.shortUnicode (String.ofList (cs.take ds.length)))
    | c =>
      let ds := Numeral.leading 8 (octalReach c) (c :: cs)
      if ds.isEmpty then .error (.unknown (some c)) else .ok ⟨[Numeral.value 8 ds], ds.length + 1⟩

/-- The unit at the start of a body that begins with `c` and goes on in `cs`. -/
def unit (c : Char) (cs : List Char) : Except Fault Glyph :=
  if c = '\\' then escape cs else .ok ⟨[pointOf c], 1⟩

/-- The failure of a backslash at position `p`. -/
def Fault.failure (p : Position) : Fault → Failure
  | .unknown c =>
    .makeAt .unknownEscape p (some [("Char", .text ((c.map (·.toString)).getD ""))])
  | .shortUnicode ds => .makeAt .malformedUnicodeEscape p (some [("Digits", .text ds)])

theorem unit_size_pos {c : Char} {cs : List Char} {u : Glyph} (h : unit c cs = .ok u) :
    0 < u.size := by
  unfold unit escape at h
  grind

/-- The code points that a body stands for, or the failure of its first bad backslash. -/
def decodePoints (p : Position) (cs : List Char) : Except Failure (List Int) :=
  match cs with
  | [] => .ok []
  | c :: rest =>
    match _h : unit c rest with
    | .error f => .error (f.failure p)
    | .ok u =>
      (decodePoints (p.advance ((c :: rest).take u.size)) ((c :: rest).drop u.size)).map
        (u.value ++ ·)
termination_by cs.length
decreasing_by
  have := unit_size_pos _h
  simp only [List.length_drop, List.length_cons]
  omega

/-- The text that the body of a literal stands for; failures are placed relative to `p`, the
position of its first character. -/
def decodeAt (p : Position) (raw : List Char) : Except Failure Text :=
  (decodePoints p raw).map Text.mk

/-- The text that the body of a literal stands for. -/
def decode (raw : List Char) : Except Failure Text :=
  decodeAt {} raw

end TextScript.Escape
