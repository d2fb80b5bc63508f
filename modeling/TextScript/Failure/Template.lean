/-
TextScript/Failure/Template.lean

Message templates: fixed words with named slots. A slot is filled from the data of a failure; a
slot without a value shows as `<no value>`. A failure made without any data keeps the template as
written.
-/
namespace TextScript

/-- A value that a message may show. -/
inductive Datum where
  | text (s : String)
  | number (n : Int)
  | flag (b : Bool)
  | absent
deriving DecidableEq, Inhabited, Repr

/-- The written form of a datum in a message. -/
def Datum.render : Datum → String
  | .text s => s
  | .number n => toString n
  | .flag b => if b then "true" else "false"
  | .absent => "<no value>"

/-- The named values that belong to a failure. -/
abbrev Data := List (String × Datum)

/-- A part of a template: words as they stand, or a slot for a named value. -/
inductive Piece where
  | words (s : String)
  | slot (name : String)
deriving DecidableEq, Repr

/-- A message with named slots. -/
abbrev Template := List Piece

namespace Template

/-- The template as written: a slot is its name after a dot, in double braces. -/
def source (t : Template) : String :=
  String.join (t.map fun
    | .words s => s
    | .slot name => "\x7b\x7b." ++ name ++ "\x7d\x7d")

/-- The template with its slots filled. -/
def fill (t : Template) (data : Data) : String :=
  String.join (t.map fun
    | .words s => s
    | .slot name => ((data.lookup name).getD .absent).render)

/-- The message: the template as written if there are no data, and filled if there are. -/
def render (t : Template) : Option Data → String
  | none => t.source
  | some data => t.fill data

end Template

end TextScript
