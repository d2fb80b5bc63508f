/-
TextScript/Decimal/Style.lean

How a floating-point number is written: the shortest digits that read back, positional while the
leading digit stands between the fourth place after the point and the sixth before it, and
scientific with a signed exponent of at least two digits otherwise.
-/
import TextScript.Decimal.Shortest

namespace TextScript.Decimal

/-- The choices of a number format. -/
structure Style where
  /-- Places of the leading digit below this one are written scientifically. -/
  least : Int
  /-- Places of the leading digit from this one on are written scientifically. -/
  most : Int
  /-- The fewest digits of a written exponent. -/
  exponentWidth : Nat
  notANumber : String
  positiveInfinity : String
  negativeInfinity : String

/-- Numbers are positional from 0.0001 up to 999999. -/
def plainNumber : Style :=
  { least := -4
    most := 6
    exponentWidth := 2
    notANumber := "NaN"
    positiveInfinity := "+Inf"
    negativeInfinity := "-Inf" }

/-- Drops the zeros at the end of a list of digits. -/
def dropZeros (ds : List Char) : List Char :=
  (ds.reverse.dropWhile (· = '0')).reverse

/-- Zeros in front of a list of digits, up to a width. -/
def padZeros (width : Nat) (ds : List Char) : List Char :=
  List.replicate (width - ds.length) '0' ++ ds

/-- Digits with a point after the first of them, if more follow. -/
def pointAfterFirst : List Char → List Char
  | [] => []
  | [d] => [d]
  | d :: ds => d :: '.' :: ds

/-- Digits with the leading one at place `e`, written positionally. -/
def positional (ds : List Char) (e : Int) : List Char :=
  if e < 0 then '0' :: '.' :: (List.replicate (-e - 1).toNat '0' ++ ds)
  else
    let before := e.toNat + 1
    let whole := ds.take before ++ List.replicate (before - ds.length) '0'
    match ds.drop before with
    | [] => whole
    | rest => whole ++ '.' :: rest

/-- Digits with the leading one at place `e`, written with an exponent. -/
def scientific (n : Style) (ds : List Char) (e : Int) : List Char :=
  pointAfterFirst ds ++ 'e' :: (if e < 0 then '-' else '+') ::
    padZeros n.exponentWidth (Nat.toDigits 10 e.natAbs)

/-- A positive decimal. -/
def Style.write (n : Style) (d : Decimal) : List Char :=
  let digits := Nat.toDigits 10 d.digits
  let e := d.exponent + digits.length - 1
  let digits := dropZeros digits
  if e < n.least ∨ n.most ≤ e then scientific n digits e else positional digits e

/-- The text of a floating-point number. -/
def Style.render (n : Style) (x : Float) : String :=
  if x.isNaN then n.notANumber
  else if x.isInf then if x < 0 then n.negativeInfinity else n.positiveInfinity
  else
    let sign := if Numeral.twoTo 63 ≤ x.toBits.toNat then "-" else ""
    if x == 0 then sign ++ "0"
    else sign ++ String.ofList (n.write (shortest (.ofFloat x)))

end TextScript.Decimal
