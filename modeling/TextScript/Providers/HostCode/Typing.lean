/-
TextScript/Providers/HostCode/Typing.lean

What can be known of host code before it runs. A name has its declared type, or any type if no names
are declared; code is refused if some operation can only fail.
-/
import TextScript.Providers.HostCode.Syntax

namespace TextScript.HostCode

/-- The types of the host language; `any` is the type of what is known only when run. -/
inductive Ty where
  | any | nil | bool | int | float | string | list
deriving DecidableEq, Repr

namespace Ty

/-- Whether a value of this type may be a number. -/
def mayBeNumber (t : Ty) : Bool :=
  t = any || t = int || t = float

/-- Whether a value of this type may be of another. -/
def mayBe (t u : Ty) : Bool :=
  t = any || t = u

/-- Whether values of the two types can be equal. -/
def comparable (t u : Ty) : Bool :=
  t = any || u = any || t = nil || u = nil || t = u || (t.mayBeNumber && u.mayBeNumber)

/-- The type of a sum, difference or product. -/
def arithmetic (t u : Ty) : Ty :=
  if t = any || u = any then any else if t = float || u = float then float else int

end Ty

/-- The declared names, if names are declared at all. -/
abbrev Declared := Option (List (String × Ty))

/-- The type of an operation on two types, if it can succeed. -/
def Op.type? (op : Op) (t u : Ty) : Option Ty :=
  match op with
  | .or | .and => if t.mayBe .bool && u.mayBe .bool then some .bool else none
  | .eq | .ne => if t.comparable u then some .bool else none
  | .lt | .gt | .le | .ge =>
    if (t.mayBeNumber && u.mayBeNumber) || (t.mayBe .string && u.mayBe .string) then some .bool
    else none
  | .add =>
    if t.mayBeNumber && u.mayBeNumber then some (t.arithmetic u)
    else if t = .string && u = .string then some .string
    else if t.mayBe .string && u.mayBe .string then some .any
    else none
  | .sub | .mul => if t.mayBeNumber && u.mayBeNumber then some (t.arithmetic u) else none
  | .div => if t.mayBeNumber && u.mayBeNumber then some .float else none
  | .rem => if t.mayBe .int && u.mayBe .int then some .int else none

/-- The type of what one of two branches gives. -/
def Ty.either (t u : Ty) : Ty :=
  if t = u then t else if t = nil then u else if u = nil then t else any

/-- The type of a call, if it can succeed. An unknown function may only be called when no names are
declared. -/
def callType? (declared : Declared) (f : String) (args : List Ty) : Option Ty :=
  match f, args with
  | "upper", [t] => if t.mayBe .string then some .string else none
  | "lower", [t] => if t.mayBe .string then some .string else none
  | "len", [t] => if t.mayBe .string || t.mayBe .list then some .int else none
  | "int", [t] => if t.mayBeNumber || t.mayBe .string then some .int else none
  | "upper", _ => none
  | "lower", _ => none
  | "len", _ => none
  | "int", _ => none
  | _, _ => if declared.isSome then none else some .any

mutual

/-- The type of an expression, unless it can only fail. -/
def type? (declared : Declared) : Term → Option Ty
  | .nil => some .nil
  | .bool _ => some .bool
  | .int _ => some .int
  | .string _ => some .string
  | .name s =>
    match declared with
    | none => some .any
    | some names => names.lookup s
  | .negate e =>
    match type? declared e with
    | some t => if t.mayBeNumber then some t else none
    | none => none
  | .not e =>
    match type? declared e with
    | some t => if t.mayBe .bool then some .bool else none
    | none => none
  | .binary op l r =>
    match type? declared l, type? declared r with
    | some t, some u => op.type? t u
    | _, _ => none
  | .choose c a b =>
    match type? declared c, type? declared a, type? declared b with
    | some t, some u, some v => if t.mayBe .bool then some (u.either v) else none
    | _, _, _ => none
  | .list items => (types? declared items).map fun _ => .list
  | .index e i =>
    match type? declared e, type? declared i with
    | some t, some u =>
      if t = .any || (t = .list && u.mayBe .int) then some .any else none
    | _, _ => none
  | .call f args => (types? declared args).bind (callType? declared f)

/-- The types of some expressions, unless one of them can only fail. -/
def types? (declared : Declared) : List Term → Option (List Ty)
  | [] => some []
  | e :: es =>
    match type? declared e, types? declared es with
    | some t, some ts => some (t :: ts)
    | _, _ => none

end

end TextScript.HostCode
