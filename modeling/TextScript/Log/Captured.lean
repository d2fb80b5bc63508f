/-
TextScript/Log/Captured.lean

Output captured in memory. Complete lines are split off as they arrive; the rest waits for its
line end. How the output was cut into writes cannot be told from it.
-/
namespace TextScript.Log

/-- Captured bytes: the complete lines without their line ends, and the line that is still open. -/
structure Captured where
  lines : List (List UInt8) := []
  pending : List UInt8 := []
deriving DecidableEq, Inhabited, Repr

namespace Captured

/-- The byte that ends a line. -/
def lineEnd : UInt8 := 10

/-- The complete lines of some bytes, and what stands after the last line end. -/
def cut : List UInt8 → List (List UInt8) × List UInt8
  | [] => ([], [])
  | b :: bs =>
    let (lines, rest) := cut bs
    if b = lineEnd then ([] :: lines, rest)
    else
      match lines with
      | [] => ([], b :: rest)
      | l :: ls => ((b :: l) :: ls, rest)

/-- Captures some more bytes. -/
def write (c : Captured) (bytes : List UInt8) : Captured :=
  let (lines, rest) := cut (c.pending ++ bytes)
  ⟨c.lines ++ lines, rest⟩

/-- Forgets everything. -/
def reset (_ : Captured) : Captured :=
  {}

/-- Everything captured, the open line included. -/
def bytes (c : Captured) : List UInt8 :=
  c.lines.flatMap (· ++ [lineEnd]) ++ c.pending

end Captured

end TextScript.Log
