/-
TextScript/Text/Markup.lean

Escaping for XML: the five special characters become entities and all else is kept.
-/
import TextScript.Text.Basic

namespace TextScript.Text

/-- The entity that stands for a special character. -/
def entity? : Int → Option String
  | 0x26 => some "&amp;"
  | 0x3C => some "&lt;"
  | 0x3E => some "&gt;"
  | 0x22 => some "&quot;"
  | 0x27 => some "&apos;"
  | _ => none

/-- The escaped form of one code point. -/
def escapePoint (n : Int) : List Int :=
  match entity? n with
  | some s => s.toList.map pointOf
  | none => [n]

/-- Replaces the XML special characters by entities. -/
def xmlSafe (t : Text) : Text :=
  ⟨t.points.flatMap escapePoint⟩

end TextScript.Text
