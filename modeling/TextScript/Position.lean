/-
TextScript/Position.lean

Lines and columns. A source begins at line 1, column 1; each character moves one column to the
right, and a line feed moves to the first column of the next line.
-/
namespace TextScript

/-- A line and a column, counted from 1. Line 0 stands for an unknown place. -/
structure Position where
  line : Int := 1
  column : Int := 1
deriving DecidableEq, Inhabited, Repr

namespace Position

/-- No place at all. -/
def unknown : Position := ⟨0, 0⟩

/-- The position as it is shown: lines and columns wrap as 64-bit words do. -/
def shown (p : Position) : Position :=
  ⟨(Int64.ofInt p.line).toInt, (Int64.ofInt p.column).toInt⟩

/-- The written form `line:column`. -/
def render (p : Position) : String :=
  toString p.shown.line ++ ":" ++ toString p.shown.column

/-- The position after one character. -/
def step (p : Position) (c : Char) : Position :=
  if c = '\n' then ⟨p.line + 1, 1⟩ else ⟨p.line, p.column + 1⟩

/-- The position after a sequence of characters. -/
def advance (p : Position) (cs : List Char) : Position :=
  cs.foldl step p

/-- The next column of the same line. -/
def next (p : Position) : Position :=
  ⟨p.line, p.column + 1⟩

@[simp] theorem advance_nil (p : Position) : p.advance [] = p := rfl

@[simp] theorem advance_cons (p : Position) (c : Char) (cs : List Char) :
    p.advance (c :: cs) = (p.step c).advance cs := rfl

theorem advance_append (p : Position) (cs ds : List Char) :
    p.advance (cs ++ ds) = (p.advance cs).advance ds := by
  simp [advance]

end Position

end TextScript
