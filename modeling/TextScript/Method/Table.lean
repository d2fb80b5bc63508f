/-
TextScript/Method/Table.lean

Tables of methods. A call looks the name up, checks the number of arguments against the method's
description, and only then runs the method. An unknown name fails with the closest known one as a
suggestion.
-/
import TextScript.Failure.Suggestion
import TextScript.Format.Render
import TextScript.Method.Arity

namespace TextScript

/-- A method of texts. It may use a format engine beside its receiver and arguments. -/
structure Method where
  arity : String
  description : String
  run : Engine → Text → List Value → Traced Value

/-- Methods by name; each name occurs once. -/
abbrev MethodTable := List (String × Method)

namespace MethodTable

/-- The names of the methods, in ascending order. -/
def names (t : MethodTable) : List String :=
  (t.map (·.1)).mergeSort fun a b => decide (a ≤ b)

/-- The method of a name. -/
def find? (t : MethodTable) (name : String) : Option Method :=
  t.lookup name

/-- Name, arity and description of each method, in ascending order of the names. -/
def infos (t : MethodTable) : List (String × String × String) :=
  t.names.filterMap fun name => (t.find? name).map fun m => (name, m.arity, m.description)

/-- Calls a method on a text. -/
def dispatch (t : MethodTable) (engine : Engine) (recv : Text) (name : String) (args : List Value) :
    Traced Value :=
  match t.find? name with
  | none => .fail (.unknownMethod name "Text" t.names)
  | some m =>
    if Arity.admits m.arity args.length then m.run engine recv args
    else .fail (.make .arity (some
      [("Function", .text name), ("Got", .number args.length),
       ("Want", .text (Arity.describe m.arity))]))

end MethodTable

end TextScript
