/-
TextScript/Text/Words.lean

White space in texts: trimming it from both ends, and splitting a text into the words it separates.
Splitting around an empty separator is splitting into words.
-/
import TextScript.Text.Search
import TextScript.Unicode.Blank

namespace TextScript.Text

open Unicode (isBlank)

/-- Removes the code points at both ends that count as white space. -/
def trimBy (blank : Int → Bool) (t : Text) : Text :=
  ⟨((t.points.dropWhile blank).reverse.dropWhile blank).reverse⟩

/-- Removes leading and trailing white space. -/
def trim (t : Text) : Text :=
  t.trimBy isBlank

/-- The maximal runs without white space, in order. -/
def wordsOf (blank : Int → Bool) : List Int → List (List Int)
  | [] => []
  | c :: cs =>
    if blank c then wordsOf blank cs
    else
      match cs with
      | [] => [[c]]
      | d :: _ =>
        if blank d then [c] :: wordsOf blank cs else (wordsOf blank cs).modifyHead (c :: ·)

/-- Splits around every occurrence of a separator and drops empty pieces; an empty separator splits
around what counts as white space. -/
def splitBy (blank : Int → Bool) (t sep : Text) : List Text :=
  if sep.isEmpty then (wordsOf blank t.points).map Text.mk else t.splitAround sep

/-- Splits around every occurrence of a separator and drops empty pieces; an empty separator splits
around white space. -/
def split (t sep : Text) : List Text :=
  t.splitBy isBlank sep

/-- Whether a string holds nothing but white space. -/
def isBlankString (s : String) : Bool :=
  s.toList.all fun c => isBlank (pointOf c)

/-- A string without leading and trailing white space. -/
def trimString (s : String) : String :=
  let front := s.toList.dropWhile fun c => isBlank (pointOf c)
  String.ofList (front.reverse.dropWhile fun c => isBlank (pointOf c)).reverse

end TextScript.Text
