/-
TextScript/Text/Builder.lean

An accumulator of code points. Its contents are read off with `text`, and every write appends to
them.
-/
import TextScript.Text.Basic

namespace TextScript

/-- Code points gathered so far. -/
structure Builder where
  points : Array Int := #[]
deriving Inhabited

namespace Builder

/-- The text gathered so far. -/
def text (b : Builder) : Text :=
  ⟨b.points.toList⟩

/-- The number of code points gathered so far. -/
def length (b : Builder) : Nat :=
  b.points.size

/-- Appends one code point. -/
def push (b : Builder) (n : Int) : Builder :=
  ⟨b.points.push n⟩

/-- Appends a sequence of code points. -/
def write (b : Builder) (ns : List Int) : Builder :=
  ⟨b.points.appendList ns⟩

/-- Appends a text. -/
def writeText (b : Builder) (t : Text) : Builder :=
  b.write t.points

/-- Appends the code points of a string. -/
def writeString (b : Builder) (s : String) : Builder :=
  b.writeText (Text.ofString s)

@[simp] theorem text_write (b : Builder) (ns : List Int) :
    (b.write ns).text = b.text.append ⟨ns⟩ := by
  simp [text, write, Text.append]

theorem write_write (b : Builder) (ns ns' : List Int) :
    (b.write ns).write ns' = b.write (ns ++ ns') :=
  congrArg mk (Array.ext' (by simp [write]))

@[simp] theorem length_eq (b : Builder) : b.length = b.text.length := by
  simp [length, text, Text.length]

end Builder

end TextScript
