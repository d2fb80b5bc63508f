/-
TextScript/Numeral.lean

Numerals. A digit of a base up to sixteen has a value, with letters of either case counting from
ten; a run of digits writes a number, the leading digit first. Numbers that must fit a 64-bit word
with a sign are checked before they become one.

Written digits can be read: `digit?_hexDigit` says so for each of the sixteen.
-/
namespace TextScript.Numeral

/-! ### Reading -/

/-- The value of a character as a digit, letters counting from ten. -/
def digitValue? (c : Char) : Option Nat :=
  if '0' ≤ c ∧ c ≤ '9' then some (c.toNat - '0'.toNat)
  else if 'a' ≤ c ∧ c ≤ 'f' then some (c.toNat - 'a'.toNat + 10)
  else if 'A' ≤ c ∧ c ≤ 'F' then some (c.toNat - 'A'.toNat + 10)
  else none

/-- The value of a digit of a base up to sixteen. -/
def digit? (base : Nat) (c : Char) : Option Nat :=
  match digitValue? c with
  | some v => if v < base then some v else none
  | none => none

/-- The number that digits of a base write, the leading one first. -/
def value (base : Nat) (digits : List Nat) : Nat :=
  digits.foldl (fun v d => v * base + d) 0

/-- The values of the digits at the start, at most `most` of them. -/
def leading (base : Nat) : (most : Nat) → List Char → List Nat
  | most + 1, c :: cs =>
    match digit? base c with
    | some v => v :: leading base most cs
    | none => []
  | _, _ => []

/-- The number that some characters write, if there are some and all are digits. -/
def natural? (base : Nat) (cs : List Char) : Option Nat :=
  if cs.isEmpty then none else (cs.mapM (digit? base)).map (value base)

/-- The number that decimal digits write, with or without a sign in front. -/
def integer? : List Char → Option Int
  | '-' :: cs => (natural? 10 cs).map fun n => -(n : Int)
  | '+' :: cs => (natural? 10 cs).map fun n => (n : Int)
  | cs => (natural? 10 cs).map fun n => (n : Int)

/-! ### Words -/

/-- Whether a number fits a 64-bit word with a sign. -/
def fitsWord (n : Int) : Bool :=
  Int64.minValue.toInt ≤ n && n ≤ Int64.maxValue.toInt

/-- The word of a number that fits one. -/
def word? (n : Int) : Option Int64 :=
  if fitsWord n then some (Int64.ofInt n) else none

/-! ### Writing -/

/-- The hexadecimal digit of a number below sixteen. -/
def hexDigit (upper : Bool) (n : Nat) : Char :=
  if n < 10 then Char.ofNat ('0'.toNat + n)
  else Char.ofNat ((if upper then 'A' else 'a').toNat + (n - 10))

/-- The last `width` hexadecimal digits of a number. -/
def hex (upper : Bool) : (width : Nat) → Nat → List Char
  | 0, _ => []
  | width + 1, n => hex upper width (n / 16) ++ [hexDigit upper (n % 16)]

theorem digit?_hexDigit (upper : Bool) : ∀ n < 16, digit? 16 (hexDigit upper n) = some n := by
  cases upper <;> decide

/-! ### Powers -/

/-- Two to a power. -/
def twoTo (n : Nat) : Nat := 1 <<< n

/-- Ten to a power. -/
def tenTo : Nat → Nat
  | 0 => 1
  | n + 1 => tenTo n * 10

end TextScript.Numeral
