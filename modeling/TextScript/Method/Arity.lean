/-
TextScript/Method/Arity.lean

How many arguments a method takes, as its description says it: an exact count `1`, a range of counts
`0-1`, or a least count `1+`. A description of any other form admits every count.
-/
import TextScript.Numeral
import TextScript.Text.Words

namespace TextScript.Arity

/-- The count that a numeral writes, with or without a sign, if it fits 64 bits. -/
def count? (s : String) : Option Int :=
  match Numeral.integer? s.toList with
  | some n => if Numeral.fitsWord n then some n else none
  | none => none

/-- What stands before and after the first minus sign, if there is one. -/
def cutAtMinus (s : String) : Option (String × String) :=
  match s.toList.span (· ≠ '-') with
  | (_, []) => none
  | (lo, _ :: hi) => some (String.ofList lo, String.ofList hi)

/-- What stands before a final plus sign, if there is one. -/
def beforePlus (s : String) : Option String :=
  match s.toList.reverse with
  | '+' :: front => some (String.ofList front.reverse)
  | _ => none

/-- The counts that a range describes. -/
def range? (s : String) : Option (Int × Int) := do
  let (lo, hi) ← cutAtMinus s
  return (← count? lo, ← count? hi)

/-- The least count that a description with a plus sign admits. -/
def least? (s : String) : Option Int :=
  (beforePlus s).bind count?

/-- Whether a description admits a number of arguments. -/
def admits (spec : String) (got : Nat) : Bool :=
  let spec := Text.trimString spec
  match count? spec with
  | some exact => exact = got
  | none =>
    match range? spec with
    | some (lo, hi) => lo ≤ got && got ≤ hi
    | none =>
      match least? spec with
      | some lo => lo ≤ got
      | none => true

/-- A description in words. -/
def describe (spec : String) : String :=
  match cutAtMinus spec with
  | some (lo, hi) => lo ++ " to " ++ hi
  | none =>
    match beforePlus spec with
    | some lo => "at least " ++ lo
    | none => spec

end TextScript.Arity
