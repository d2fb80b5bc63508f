/-
TextScript/Text/Case.lean

Lower and upper case. How texts are written in either is left to whoever brings a `Casing`; the
simple one goes character by character.
-/
import TextScript.Text.Basic
import TextScript.Unicode.CaseMap

namespace TextScript

open Unicode

/-- A way to write strings in lower and in upper case. -/
structure Casing where
  lower : String → String
  upper : String → String

namespace Text

/-- The upper case of a string, one character for one. -/
def upperSimple (s : String) : String :=
  String.ofList (s.toList.map upperChar)

/-- The lower case of a string, one character for one. -/
def lowerSimple (s : String) : String :=
  String.ofList (s.toList.map lowerChar)

/-- The text in lower case. -/
def lower (casing : Casing) (t : Text) : Text :=
  ofString (casing.lower t.toString)

/-- The text in upper case. -/
def upper (casing : Casing) (t : Text) : Text :=
  ofString (casing.upper t.toString)

end Text

/-- The casing that goes character by character. -/
def Casing.simple : Casing :=
  ⟨Text.lowerSimple, Text.upperSimple⟩

end TextScript
