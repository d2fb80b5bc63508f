/-
TextScript/Failure/Basic.lean

Failures. A plain failure is a message and nothing else; a report has a cause from the catalogue, a
message, hints and a place, and may wrap the failure that led to it.

A failure counts as a cause if its own report or one of those it wraps has that cause. Placing a
failure only ever touches its outermost report, and never moves one that has a place already.
-/
import TextScript.Failure.Code
import TextScript.Position

namespace TextScript

/-- A described failure. -/
structure Report where
  code : Code
  cls : FailureClass
  message : String
  hints : List String := []
  place : Position := .unknown
  file : String := ""
  data : Option Data := none
deriving DecidableEq, Repr

/-- A failure with everything that led to it. -/
inductive Failure where
  | plain (message : String)
  | coded (report : Report)
  | wrapped (report : Report) (cause : Failure)
deriving DecidableEq, Repr

instance : Inhabited Failure := ⟨.plain ""⟩

/-- The report of a cause: its catalogued message and hints, or for a cause outside the catalogue
the datum called `message`, or else its name. -/
def Report.make (code : Code) (data : Option Data) : Report :=
  match code.entry? with
  | some e =>
    { code
      cls := e.cls
      message := e.template.render data
      hints := (e.hints.map (·.render data)).filter (· ≠ "")
      data }
  | none =>
    { code
      cls := .type
      message :=
        match (data.getD []).lookup "message" with
        | some (.text m) => m
        | _ => code.name
      data }

/-- The full wording: file, place, message, and each hint on a line of its own. -/
def Report.render (r : Report) : String :=
  (if r.file = "" then "" else r.file ++ ": ") ++
  (if 0 < r.place.shown.line then
    "line " ++ toString r.place.shown.line ++ ", column " ++ toString r.place.shown.column ++ ": "
   else "") ++
  r.message ++ String.join (r.hints.map ("\n  " ++ ·))

namespace Failure

/-- The mark of a broader cause, wrapped by the failures that also count as it. -/
def sentinel (code : Code) (cls : FailureClass) : Failure :=
  .coded { code, cls, message := "" }

/-- A failure from the catalogue. -/
def make (code : Code) (data : Option Data := none) : Failure :=
  match code.entry?.bind fun e => e.broader.map (sentinel · e.cls) with
  | some broader => .wrapped (Report.make code data) broader
  | none => .coded (Report.make code data)

/-- A failure from the catalogue that wraps another. -/
def wrap (code : Code) (cause : Failure) (data : Option Data) : Failure :=
  .wrapped (Report.make code data) cause

/-- A described failure outside the catalogue. -/
def simple (cls : FailureClass) (message : String) : Failure :=
  .coded { code := .unnamed, cls, message }

/-- The outermost report, if the failure has one. -/
def report? : Failure → Option Report
  | plain _ => none
  | coded r => some r
  | wrapped r _ => some r

/-- Changes the outermost report. -/
def mapReport (f : Report → Report) : Failure → Failure
  | plain m => plain m
  | coded r => coded (f r)
  | wrapped r c => wrapped (f r) c

/-- Whether the failure, or one that it wraps, has the given cause. -/
def hasCode (code : Code) : Failure → Bool
  | plain _ => false
  | coded r => r.code = code && code ≠ .unnamed
  | wrapped r c => (r.code = code && code ≠ .unnamed) || c.hasCode code

/-- The full wording of a failure. -/
def render : Failure → String
  | plain m => m
  | coded r => r.render
  | wrapped r _ => r.render

/-- The failure at a given place. -/
def moveTo (f : Failure) (p : Position) : Failure :=
  f.mapReport ({ · with place := p })

/-- A failure from the catalogue at a given place. -/
def makeAt (code : Code) (p : Position) (data : Option Data := none) : Failure :=
  (make code data).moveTo p

/-- Gives a place to a failure that has none. -/
def placeAt (f : Failure) (p : Position) : Failure :=
  f.mapReport fun r => if r.place.line = 0 ∧ 0 < p.line then { r with place := p } else r

/-- The failure with the file it arose in. -/
def inFile (f : Failure) (file : String) : Failure :=
  f.mapReport ({ · with file })

/-- The failure with a further hint. -/
def withHint (f : Failure) (hint : String) : Failure :=
  f.mapReport fun r => { r with hints := r.hints ++ [hint] }

/-- Wraps a failure in a cause, unless it counts as that cause already. -/
def ensure (f : Failure) (code : Code) (data : Data) : Failure :=
  if f.hasCode code then f else wrap code f (some data)

/-- An argument of the wrong kind. -/
def argumentType (function expected got : String) : Failure :=
  make .argumentType
    (some [("Function", .text function), ("Expected", .text expected), ("Got", .text got)])

/-- A token that cannot stand where it does. -/
def unexpected (what : String) (p : Position) : Failure :=
  makeAt .unexpectedToken p (some [("Token", .text what)])

end Failure

end TextScript
