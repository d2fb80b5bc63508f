/-
TextScript/Text/Basic.lean

Texts: immutable sequences of code points. A text may hold numbers that are no Unicode scalar value
(lone surrogates written with an escape, for instance); whenever such a text is turned into
characters, each of these numbers becomes the replacement character.

Comparison is by code point, from the left, and a proper beginning comes before its extensions.
-/
namespace TextScript

/-- An ordered sequence of code points. -/
structure Text where
  points : List Int
deriving DecidableEq, Inhabited, Repr

/-- The character numbered `n`, or the replacement character if there is none. -/
def scalarOf (n : Int) : Char :=
  match n with
  | .ofNat k => if k.isValidChar then Char.ofNat k else '\uFFFD'
  | .negSucc _ => '\uFFFD'

/-- The number of a character, as a code point of a text. -/
def pointOf (c : Char) : Int :=
  c.toNat

namespace Text

/-- The text without code points. -/
def empty : Text := ⟨[]⟩

/-- The text of a sequence of characters. -/
def ofChars (cs : List Char) : Text :=
  ⟨cs.map pointOf⟩

/-- The text of a string. -/
def ofString (s : String) : Text :=
  ofChars s.toList

/-- The characters of a text; a number that is no scalar value becomes U+FFFD. -/
def toChars (t : Text) : List Char :=
  t.points.map scalarOf

/-- The string of a text; a number that is no scalar value becomes U+FFFD. -/
protected def toString (t : Text) : String :=
  String.ofList t.toChars

/-- The number of code points. -/
def length (t : Text) : Nat :=
  t.points.length

/-- Whether there are no code points. White space is content. -/
def isEmpty (t : Text) : Bool :=
  t.points.isEmpty

/-- One text after another. -/
def append (t u : Text) : Text :=
  ⟨t.points ++ u.points⟩

/-- All texts of a list, one after another. -/
def concat (ts : List Text) : Text :=
  ⟨ts.flatMap points⟩

/-- Lexicographic order of two sequences of code points: -1, 0 or 1. -/
def comparePoints : List Int → List Int → Int
  | [], [] => 0
  | [], _ :: _ => -1
  | _ :: _, [] => 1
  | a :: as, b :: bs => if a < b then -1 else if b < a then 1 else comparePoints as bs

/-- Lexicographic order by code point: -1, 0 or 1. -/
def compare (t u : Text) : Int :=
  comparePoints t.points u.points

/-- Whether two texts have the same code points. -/
def equals (t u : Text) : Bool :=
  t.points == u.points

/-! ### Hashing -/

/-- One step of the 64-bit FNV-1a hash: mix in a byte, then multiply by the prime. -/
def hashByte (h : UInt64) (byte : UInt64) : UInt64 :=
  (h ^^^ byte) * 0x100000001b3

/-- The low 32 bits of a code point as four bytes, the lowest first. -/
def pointBytes (n : Int) : List UInt64 :=
  [n % 256, n / 256 % 256, n / 65536 % 256, n / 16777216 % 256].map fun b => UInt64.ofNat b.toNat

/-- FNV-1a over the code points, four bytes each. -/
protected def hash (t : Text) : UInt64 :=
  t.points.foldl (fun h n => (pointBytes n).foldl hashByte h) 0xcbf29ce484222325

/-! ### Small laws -/

@[simp] theorem points_append (t u : Text) : (t.append u).points = t.points ++ u.points := rfl

@[simp] theorem points_empty : empty.points = [] := rfl

@[simp] theorem points_concat (ts : List Text) : (concat ts).points = ts.flatMap points := rfl

@[simp] theorem equals_iff (t u : Text) : t.equals u = true ↔ t = u := by
  cases t; cases u; simp [equals]

end Text

end TextScript
