/-
TextScript/Unicode/Blank.lean

White space: the code points that trimming removes and that separate words.
-/
import TextScript.Unicode.Ranges

namespace TextScript.Unicode

/-- The white-space ranges, in ascending order. -/
def blanks : Ranges :=
  [(0x9, 0xD), (0x20, 0x20), (0x85, 0x85), (0xA0, 0xA0), (0x1680, 0x1680), (0x2000, 0x200A),
   (0x2028, 0x2029), (0x202F, 0x202F), (0x205F, 0x205F), (0x3000, 0x3000)]

/-- Whether the number `n` is that of a white-space character. -/
def isBlank (n : Int) : Bool :=
  match n with
  | .ofNat k => blanks.has k
  | .negSucc _ => false

end TextScript.Unicode
