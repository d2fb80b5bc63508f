/-
TextScript/Decimal/Shortest.lean

The shortest decimal of a binary number: of all decimals that round to `m · 2 ^ q`, one with the
fewest digits, and of those the nearest. All arithmetic is exact, on natural numbers.
-/
import TextScript.Numeral

namespace TextScript

/-- A positive decimal `digits · 10 ^ exponent`. -/
structure Decimal where
  digits : Nat
  exponent : Int
deriving DecidableEq, Inhabited, Repr

namespace Decimal

open Numeral (tenTo twoTo)

/-- A positive binary number `mantissa · 2 ^ exponent`. `narrow` marks a power of two whose lower
neighbour is half as far away as the upper one. -/
structure Binary where
  mantissa : Nat
  exponent : Int
  narrow : Bool
deriving DecidableEq, Inhabited, Repr

/-- The numbers that round to a binary one, as quarters of its last place: below, itself, above, and
the common denominator. -/
structure Rounding where
  low : Nat
  value : Nat
  high : Nat
  den : Nat
  /-- Whether the two ends round to the number too. -/
  closed : Bool

/-- The rounding interval of a binary number. -/
def Binary.rounding (b : Binary) : Rounding :=
  let e := b.exponent - 2
  let scale := twoTo e.toNat
  { low := (4 * b.mantissa - if b.narrow then 1 else 2) * scale
    value := 4 * b.mantissa * scale
    high := (4 * b.mantissa + 2) * scale
    den := twoTo (-e).toNat
    closed := b.mantissa % 2 = 0 }

/-- Whether the fraction `num / den` lies in the interval. -/
def Rounding.has (r : Rounding) (num den : Nat) : Bool :=
  let here := num * r.den
  if r.closed then r.low * den ≤ here && here ≤ r.high * den
  else r.low * den < here && here < r.high * den

/-- The number of decimal digits of a natural number. -/
def digitCount (n : Nat) : Nat :=
  (Nat.toDigits 10 n).length

/-- The place of the leading digit: the greatest `e` with `10 ^ e ≤ value`, found from a first
guess by comparing the sizes of numerator and denominator. -/
def Rounding.magnitude (r : Rounding) : Int :=
  let guess : Int := (digitCount r.value : Int) - digitCount r.den
  if r.den * tenTo guess.toNat ≤ r.value * tenTo (-guess).toNat then guess else guess - 1

/-- The decimal with its last digit at place `p` that is nearest to the value and rounds to it. -/
def Rounding.onGrid (r : Rounding) (p : Int) : Option Decimal :=
  -- the value in units of the grid is `num / den`
  let num := r.value * tenTo (-p).toNat
  let den := r.den * tenTo p.toNat
  let below := num / den
  let inside (d : Nat) : Bool := r.has (d * tenTo p.toNat) (tenTo (-p).toNat)
  let nearer : Bool := 2 * (num % den) ≤ den
  match inside below, inside (below + 1) with
  | true, true => some ⟨if nearer then below else below + 1, p⟩
  | true, false => some ⟨below, p⟩
  | false, true => some ⟨below + 1, p⟩
  | false, false => none

/-- Tries one digit, then two, and so on. -/
def Rounding.search (r : Rounding) (magnitude : Int) : (count : Nat) → (left : Nat) → Decimal
  | count, 0 => ⟨r.value * tenTo (count - magnitude).toNat / r.den, magnitude - count⟩
  | count, left + 1 =>
    match r.onGrid (magnitude - count) with
    | some d => d
    | none => r.search magnitude (count + 1) left

/-- The shortest decimal of a binary number of at most fifty-three bits. -/
def shortest (b : Binary) : Decimal :=
  let r := b.rounding
  r.search r.magnitude 0 17

/-- The binary number of the magnitude of a finite non-zero double. -/
def Binary.ofFloat (x : Float) : Binary :=
  let bits := x.toBits.toNat
  let fraction : Nat := bits % twoTo 52
  let field : Nat := bits / twoTo 52 % twoTo 11
  if field = 0 then ⟨fraction, -1074, false⟩
  else ⟨twoTo 52 + fraction, (field : Int) - 1075, fraction = 0 && 1 < field⟩

end Decimal

end TextScript
