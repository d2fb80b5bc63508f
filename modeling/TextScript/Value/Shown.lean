/-
TextScript/Value/Shown.lean

The two written forms of a value. `toText` is its text in the language: lists have commas, nothing
is `nil`, and things without a text fail. `shown` is how a value appears inside a host collection:
members are separated by a space and nothing is `<nil>`. A pair shows the texts of its members
with an arrow between them.
-/
import TextScript.Decimal.Style
import TextScript.Failure.Basic
import TextScript.Value.Basic

namespace TextScript.Value

/-- The text of an integer. -/
def intText (n : Int64) : String :=
  toString n.toInt

/-- The text of a floating-point number. -/
def floatText (x : Float) : String :=
  Decimal.plainNumber.render x

/-- The text of a truth value. -/
def boolText (b : Bool) : String :=
  if b then "true" else "false"

/-- Strings between square brackets, with something between them. -/
def bracketed (separator : String) (parts : List String) : String :=
  "[" ++ separator.intercalate parts ++ "]"

/-- The failure of a value that has no text. -/
def noText (v : Value) : Failure :=
  .make .stringify (some [("Got", .text v.kind)])

/-- The string of a text, or another string if there is no text. -/
def textOr (t : Except Failure Text) (other : String) : String :=
  match t with
  | .ok t => t.toString
  | .error _ => other

/-- The written form of a pair. -/
def arrow (first second : String) : String :=
  first ++ " => " ++ second

mutual

/-- The text of a value, if it has one. -/
def toText : Value → Except Failure Text
  | nil => .ok (Text.ofString "nil")
  | bool b => .ok (Text.ofString (boolText b))
  | int n => .ok (Text.ofString (intText n))
  | text t => .ok t
  | range r => .ok (Text.ofString r.render)
  | list items => (texts items).map fun ts => Text.ofString (bracketed ", " ts)
  | string s => .ok (Text.ofString s)
  | number n => .ok (Text.ofString (intText n))
  | short n => .ok (Text.ofString (toString n.toInt))
  | float x => .ok (Text.ofString (floatText x))
  | strings items => .ok (Text.ofString (bracketed ", " items))
  | numbers items => .ok (Text.ofString (bracketed ", " (items.map intText)))
  | couple a b => .ok (Text.ofString (bracketed ", " [intText a, intText b]))
  | record fields => .ok (Text.ofString ("map[" ++ " ".intercalate (shownFields fields) ++ "]"))
  | table rows => .ok (Text.ofString ("map[" ++ " ".intercalate (shownRows rows) ++ "]"))
  | pair a b =>
    .ok (Text.ofString (arrow (textOr (toText a) (shown a)) (textOr (toText b) (shown b))))
  | pairRef a b =>
    .ok (Text.ofString (arrow (textOr (toText a) (shown a)) (textOr (toText b) (shown b))))
  | textRef none => .ok (Text.ofString "nil")
  | textRef (some t) => .ok t
  | error message => .ok (Text.ofString message)
  | object o =>
    match o.ownText with
    | .ok t => .ok t
    | .error message => .error (.plain message)
  | lazy items => (texts items).map fun ts => Text.ofString (bracketed ", " ts)
  | stream items => .error (noText (.stream items))
  | function => .error (noText .function)
  | channel => .error (noText .channel)
  | cell n => .ok (Text.ofString ("\x7b" ++ intText n ++ "\x7d"))
  | marked _ v => toText v

/-- The texts of a list of values, as strings. -/
def texts : List Value → Except Failure (List String)
  | [] => .ok []
  | v :: vs =>
    match toText v with
    | .error f => .error f
    | .ok t => (texts vs).map (t.toString :: ·)

/-- How a value shows inside a host collection. -/
def shown : Value → String
  | nil => "<nil>"
  | bool b => boolText b
  | int n => intText n
  | text t => t.toString
  | range r => r.render
  | list items => bracketed " " (shownAll items)
  | string s => s
  | number n => intText n
  | short n => toString n.toInt
  | float x => floatText x
  | strings items => bracketed " " items
  | numbers items => bracketed " " (items.map intText)
  | couple a b => bracketed " " [intText a, intText b]
  | record fields => "map[" ++ " ".intercalate (shownFields fields) ++ "]"
  | table rows => "map[" ++ " ".intercalate (shownRows rows) ++ "]"
  | pair a b => arrow (textOr (toText a) (shown a)) (textOr (toText b) (shown b))
  | pairRef a b => arrow (textOr (toText a) (shown a)) (textOr (toText b) (shown b))
  | textRef none => "<nil>"
  | textRef (some t) => t.toString
  | error message => message
  | object o => o.shown
  | lazy items => bracketed " " (shownAll items)
  | stream _ => "<func>"
  | function => "<func>"
  | channel => "<nil>"
  | cell n => "\x7b" ++ intText n ++ "\x7d"
  | marked _ v => shown v

/-- How the members of a list show. -/
def shownAll : List Value → List String
  | [] => []
  | v :: vs => shown v :: shownAll vs

/-- How the entries of a mapping from strings show. -/
def shownFields : List (String × Value) → List String
  | [] => []
  | (k, v) :: rest => (k ++ ":" ++ shown v) :: shownFields rest

/-- How the entries of a mapping from integers show. -/
def shownRows : List (Int64 × Value) → List String
  | [] => []
  | (k, v) :: rest => (intText k ++ ":" ++ shown v) :: shownRows rest

end

/-- The text of a value as a string, or how it shows if it has none. -/
def someText (v : Value) : String :=
  textOr v.toText v.shown

end TextScript.Value
