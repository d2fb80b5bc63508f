/-
TextScript/Failure/Suggestion.lean

"Did you mean": the known name closest to a mistyped one. Closeness is the edit distance of the two
names in lower case, byte by byte; longer names may differ in more places.
-/
import TextScript.Failure.Basic
import TextScript.Text.Case

namespace TextScript

namespace Suggestion

/-- One row of the edit-distance table from the one above it: `diag` and `left` are the entries to
the upper left and to the left of the next one. -/
def nextRow (a : UInt8) : (diag left : Nat) → (bs : List UInt8) → (above : List Nat) → List Nat
  | diag, left, b :: bs, up :: above =>
    let here := min (min (up + 1) (left + 1)) (diag + if a = b then 0 else 1)
    here :: nextRow a up here bs above
  | _, _, _, _ => []

/-- The rows of the table one after another, the last one returned. -/
def rows (bs : List UInt8) : List UInt8 → List Nat → List Nat
  | [], row => row
  | a :: as, row =>
    match row with
    | [] => []
    | first :: above => rows bs as ((first + 1) :: nextRow a first (first + 1) bs above)

/-- The least number of single-byte insertions, deletions and substitutions between two byte
strings. -/
def distance (as bs : List UInt8) : Nat :=
  (rows bs as (List.range (bs.length + 1))).getLastD 0

/-- The bytes of a string. -/
def bytes (s : String) : List UInt8 :=
  s.toUTF8.data.toList

/-- The bytes that a name is compared by: those of its lower case. -/
def folded (s : String) : List UInt8 :=
  bytes (Text.lowerSimple s)

/-- The greatest distance at which a name of this many bytes still suggests another. -/
def threshold (size : Nat) : Nat :=
  if 7 ≤ size then 3 else if 4 ≤ size then 2 else 1

variable {α : Type}

/-- Of the nearest so far, with its distance, and the next one: the earlier, unless the next is
nearer. -/
def nearer (dist : α → Nat) (best : α × Nat) (next : α) : α × Nat :=
  let n := dist next
  if n < best.2 then (next, n) else best

/-- The first candidate of least distance, with its distance. -/
def nearest? (dist : α → Nat) : List α → Option (α × Nat)
  | [] => none
  | c :: cs => some (cs.foldl (nearer dist) (c, dist c))

/-- The candidate to suggest for a name, if one is close enough and not the same. Candidates have
the bytes they are spelled with, which set how far they may be apart, and those they are compared
by. -/
def closestBy? (spelled compared : α → List UInt8) (name : α) (candidates : List α) : Option α :=
  if spelled name = [] then none
  else
    match nearest? (fun c => distance (compared name) (compared c)) candidates with
    | some (best, d) => if 0 < d && d ≤ threshold (spelled name).length then some best else none
    | none => none

/-- The candidate to suggest for a name, disregarding case. -/
def closest? (name : String) (candidates : List String) : Option String :=
  closestBy? bytes folded name candidates

end Suggestion

namespace Failure

/-- Adds the closest of the available names as a hint. An empty name is never suggested. -/
def suggesting (f : Failure) (name : String) (available : List String) : Failure :=
  match Suggestion.closest? name available with
  | some best => if best = "" then f else f.withHint ("Did you mean `" ++ best ++ "`?")
  | none => f

/-- A name that is not bound. -/
def undefinedName (name : String) (available : List String) : Failure :=
  (make .undefinedName (some [("Name", .text name)])).suggesting name available

/-- A method that a kind of value does not have. -/
def unknownMethod (method kind : String) (available : List String) : Failure :=
  (make .unknownMethod (some [("Method", .text method), ("Type", .text kind)])).suggesting
    method available

end Failure

end TextScript
