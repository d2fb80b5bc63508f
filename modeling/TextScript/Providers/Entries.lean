/-
TextScript/Providers/Entries.lean

The settings that a document gives with its entries. Unknown entries are passed over, an entry
without a value changes nothing, and one of the wrong kind is refused. The reader at the end is what
loading settings is given.
-/
import TextScript.Providers.Document
import TextScript.Settings.Load

namespace TextScript.Document

/-! ### Numbers -/

/-- The natural number that a numeral writes: decimal, or in the base that its beginning names. -/
def natural? : List Char → Option Nat
  | '0' :: c :: cs =>
    if c = 'x' ∨ c = 'X' then Numeral.natural? 16 cs
    else if c = 'b' ∨ c = 'B' then Numeral.natural? 2 cs
    else if c = 'o' ∨ c = 'O' then Numeral.natural? 8 cs
    else Numeral.natural? 8 (c :: cs)
  | cs => Numeral.natural? 10 cs

/-- The decimal fraction that some characters write, with or without an exponent, as the nearest
floating-point number; one that is too large for any is refused. -/
def fraction? (cs : List Char) : Option Float := do
  let whole := cs.takeWhile Char.isDigit
  let rest := cs.drop whole.length
  let (places, rest) :=
    match rest with
    | '.' :: rest =>
      let places := rest.takeWhile Char.isDigit
      (places, rest.drop places.length)
    | rest => ([], rest)
  let exponent? : Option Int :=
    match rest with
    | [] => some 0
    | e :: rest => if e = 'e' ∨ e = 'E' then Numeral.integer? rest else none
  let exponent ← exponent?
  let mantissa ← Numeral.natural? 10 (whole ++ places)
  let shift := exponent - places.length
  if mantissa = 0 ∨ shift < -400 - (whole ++ places).length then some 0
  else if 400 < shift then none
  else
    let x := Float.ofScientific mantissa (shift < 0) shift.natAbs
    if x.isInf then none else some x

/-- The whole part of a floating-point number, unless it is beyond the greatest 64-bit word. One
that is below the least word counts as the least. -/
def wholePart? (x : Float) : Option Int :=
  if x ≤ 9223372036854775808 then some x.toInt64.toInt else none

/-- Whether a number is beyond the words with a sign but not beyond those without. -/
def needsUnsigned (v : Int) : Bool :=
  Int64.maxValue.toInt < v && v ≤ UInt64.size - 1

/-- The integer that some characters write after their sign. A whole number that is too long for a
word is taken as a fraction. -/
def signed? (negative : Bool) (body : List Char) : Option Int :=
  let asFraction : Option Int :=
    (fraction? body).bind fun x => wholePart? (if negative then -x else x)
  match natural? body with
  | none => asFraction
  | some n =>
    let v : Int := if negative then -n else n
    if Numeral.fitsWord v then some v else if needsUnsigned v then none else asFraction

/-- The integer that a plain scalar writes, if it fits 64 bits; a fraction is cut off. Underscores
may part the digits unless a point comes first. -/
def integer? (s : String) : Option Int :=
  if s ∈ ["-.inf", "-.Inf", "-.INF"] then some Int64.minValue.toInt
  else
    match s.toList with
    | [] => none
    | c :: cs =>
      let digits := cs.filter (· ≠ '_')
      if c = '.' then signed? false (c :: cs)
      else if c = '-' then signed? true digits
      else if c = '+' then signed? false digits
      else if c.isDigit then signed? false (c :: digits)
      else none

/-! ### Entries -/

/-- The entry of a key. -/
def find? (key : String) (entries : List (String × Node)) : Node :=
  (entries.lookup key).getD .null

/-- Whether no key occurs twice. -/
def distinct : List (String × Node) → Bool
  | [] => true
  | (k, _) :: rest => !(rest.any (·.1 = k)) && distinct rest

/-- The entries of a mapping; nothing has none. -/
def section? : Node → Option (List (String × Node))
  | .null => some []
  | .mapping entries => if distinct entries then some entries else none
  | _ => none

/-- A number that an entry may give. -/
def number? (default : Int) : Node → Option Int
  | .null => some default
  | .scalar s true => integer? s
  | _ => none

/-- A word that an entry may give. -/
def word? (default : String) : Node → Option String
  | .null => some default
  | .scalar s _ => some s
  | _ => none

/-- The settings that a document gives, over others. -/
def ofDocument? (base : Settings) (doc : Node) : Option Settings := do
  let top ← section? doc
  let parser ← section? (find? "parser" top)
  let format ← section? (find? "format" top)
  let logging ← section? (find? "logging" top)
  return { base with
    maxDepth := ← number? base.maxDepth (find? "max_interpolation_depth" parser)
    interpolation := ← word? base.interpolation (find? "interpolation" parser)
    maxOutput := ← number? base.maxOutput (find? "max_output" format)
    logLevel := ← word? base.logLevel (find? "level" logging)
    logFormat := ← word? base.logFormat (find? "format" logging)
    logOutput := ← word? base.logOutput (find? "output" logging) }

/-- Reads the settings that a document gives. -/
def reader : Settings.DocumentReader := fun base cs =>
  match (parse? cs).bind (ofDocument? base) with
  | some s => .ok s
  | none => .error "invalid document"

end TextScript.Document
