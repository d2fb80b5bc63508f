/-
TextScript/Settings/Placeholder.lean

Placeholders in a settings document: `${NAME}` stands for a value of the environment and
`${NAME:-default}` for the default if that value is empty. The document is read once from the left,
and what is put in is not read again.
-/
namespace TextScript

/-- A placeholder: its name, its default if it has one, and how many characters it takes. -/
structure Placeholder where
  name : List Char
  default : Option (List Char)
  size : Nat
deriving DecidableEq, Repr

namespace Placeholder

/-- Whether a name may hold `c`. -/
def isNameChar (c : Char) : Bool :=
  c ≠ '}' && c ≠ ':'

/-- The placeholder whose opening characters have been read, if the rest completes one. -/
def complete? (cs : List Char) : Option Placeholder :=
  let name := cs.takeWhile isNameChar
  if name.isEmpty then none
  else
    match cs.drop name.length with
    | '}' :: _ => some ⟨name, none, name.length + 3⟩
    | ':' :: '-' :: rest =>
      let default := rest.takeWhile (· ≠ '}')
      match rest.drop default.length with
      | '}' :: _ => some ⟨name, some default, name.length + default.length + 5⟩
      | _ => none
    | _ => none

/-- The placeholder at the start, if there is one. -/
def at? : List Char → Option Placeholder
  | '$' :: '{' :: cs => complete? cs
  | _ => none

/-- What a placeholder stands for. -/
def value (p : Placeholder) (getenv : String → String) : List Char :=
  let v := (getenv (String.ofList p.name)).toList
  if v.isEmpty then p.default.getD [] else v

/-- The document with its placeholders replaced; `skip` counts characters of a placeholder already
replaced. -/
def expandFrom (getenv : String → String) : (skip : Nat) → List Char → List Char
  | _, [] => []
  | skip + 1, _ :: cs => expandFrom getenv skip cs
  | 0, c :: cs =>
    match at? (c :: cs) with
    | some p => p.value getenv ++ expandFrom getenv (p.size - 1) cs
    | none => c :: expandFrom getenv 0 cs

/-- The document with its placeholders replaced. -/
def expand (getenv : String → String) (cs : List Char) : List Char :=
  expandFrom getenv 0 cs

end Placeholder

end TextScript
