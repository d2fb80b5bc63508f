/-
TextScript/Text/Range.lean

Indexing by position and by range. Endpoints are 64-bit words; a negative one counts back from the
end. Positions out of range are absent rather than an error, and a range is clamped to what exists.
-/
import TextScript.Text.Basic

namespace TextScript

/-- A range of positions, `first..last` or, when `exclusive`, `first...last`. -/
structure Range where
  first : Int64
  last : Int64
  exclusive : Bool
deriving DecidableEq, Inhabited

namespace Range

/-- The source form: two dots when the last position belongs to the range, three when not. -/
def render (r : Range) : String :=
  toString r.first.toInt ++ (if r.exclusive then "..." else "..") ++ toString r.last.toInt

/-- The position that index `i` names in a sequence of length `n`, if there is one. -/
def resolveIndex (i n : Int64) : Option Int64 :=
  let i := if i < 0 then i + n else i
  if i < 0 || n ≤ i then none else some i

/-- The half-open span that a range selects from a sequence of length `n`: an end beyond the
sequence is clamped, and a span without positions is absent. -/
def resolve (r : Range) (n : Int64) : Option (Int64 × Int64) :=
  let first := if r.first < 0 then r.first + n else r.first
  let last := if r.last < 0 then r.last + n else r.last
  if first < 0 || n < first then none
  else
    let last := if r.exclusive then last - 1 else last
    let last := if n - 1 < last then n - 1 else last
    if last < first then none else some (first, last + 1)

/-- The members of a list that a range selects. -/
def select {α : Type} (r : Range) (xs : List α) : List α :=
  match r.resolve (Int64.ofNat xs.length) with
  | none => []
  | some (start, stop) =>
    (xs.drop start.toNatClampNeg).take (stop.toNatClampNeg - start.toNatClampNeg)

/-- The member of a list that an index names. -/
def pick? {α : Type} (i : Int64) (xs : List α) : Option α :=
  match resolveIndex i (Int64.ofNat xs.length) with
  | none => none
  | some k => xs[k.toNatClampNeg]?

end Range

namespace Text

/-- The code point at an index; a negative index counts from the end. -/
def at? (t : Text) (i : Int64) : Option Int :=
  Range.pick? i t.points

/-- The code points that a range selects. -/
def slice (t : Text) (r : Range) : Text :=
  ⟨r.select t.points⟩

end Text

end TextScript
