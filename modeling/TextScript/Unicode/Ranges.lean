/-
TextScript/Unicode/Ranges.lean

Sets of code points kept as ascending, disjoint ranges. The look-up stops at the first range that
begins after the number sought, so a number below the table is decided in one comparison.
-/
namespace TextScript.Unicode

/-- Inclusive ranges of code points, ascending and disjoint. -/
abbrev Ranges := List (Nat × Nat)

/-- Whether `n` lies in one of the ranges. -/
def Ranges.has : Ranges → Nat → Bool
  | [], _ => false
  | (lo, hi) :: rest, n => if n < lo then false else n ≤ hi || Ranges.has rest n

/-- Each range ends before the next one begins. -/
def Ranges.Ascending : Ranges → Bool
  | [] => true
  | [(lo, hi)] => lo ≤ hi
  | (lo, hi) :: (lo', hi') :: rest => lo ≤ hi && hi < lo' && Ranges.Ascending ((lo', hi') :: rest)

end TextScript.Unicode
