/-
TextScript/Scope.lean

Scopes. A scope binds names to values; scopes are enclosed in one another, and a name is looked up
from the innermost scope outwards. Binding a name always changes the innermost scope only. A chain
of scopes also counts the marks given to collections, so that each mark stays with one of them.
-/
import TextScript.Expr.Basic

namespace TextScript

/-- The bindings of one scope; each name occurs once. -/
abbrev Scope := List (String × Value)

namespace Scope

/-- Binds a name, in place of what it was bound to. -/
def set : Scope → String → Value → Scope
  | [], name, v => [(name, v)]
  | (n, w) :: rest, name, v => if n = name then (n, v) :: rest else (n, w) :: set rest name v

/-- The value of a name in this scope. -/
def get? (s : Scope) (name : String) : Option Value :=
  s.lookup name

/-- Binding a name leaves every other name as it was. -/
theorem get?_set_of_ne (s : Scope) {name other : String} (v : Value) (h : other ≠ name) :
    (s.set name v).get? other = s.get? other := by
  unfold get?
  induction s with
  | nil => rw [set, List.lookup_cons, beq_false_of_ne h]
  | cons entry rest ih =>
    obtain ⟨n, w⟩ := entry
    rw [set]
    split
    · next hn =>
      subst hn
      rw [List.lookup_cons, List.lookup_cons, beq_false_of_ne h]
    · rw [List.lookup_cons, List.lookup_cons, ih]

/-- The bindings that every program starts with. -/
def root : Scope :=
  [("nil", .nil), ("true", .bool true), ("false", .bool false)]

end Scope

/-- A chain of scopes: the innermost, then those that enclose it. -/
structure Env where
  inner : Scope := Scope.root
  outer : List Scope := []
  /-- How many marks have been given to collections. -/
  marks : Nat := 0

instance : Inhabited Env := ⟨{}⟩

namespace Env

/-- The scopes from the innermost outwards. -/
def scopes (e : Env) : List Scope :=
  e.inner :: e.outer

/-- A new scope enclosed in this one. -/
def enclosed (e : Env) : Env :=
  ⟨[], e.scopes, e.marks⟩

/-- The enclosing scope, if there is one. -/
def leave? (e : Env) : Option Env :=
  match e.outer with
  | [] => none
  | s :: rest => some ⟨s, rest, e.marks⟩

/-- How many scopes there are. -/
def depth (e : Env) : Nat :=
  e.scopes.length

/-- The value of a name in the nearest scope that binds it. -/
def get? (e : Env) (name : String) : Option Value :=
  e.scopes.findSome? (·.get? name)

/-- Binds a name in the innermost scope. -/
def set (e : Env) (name : String) (v : Value) : Env :=
  { e with inner := e.inner.set name v }

/-- Binds a name in the innermost scope to a value that comes from outside. -/
def hold (e : Env) (name : String) (v : Value) : Env :=
  let (v, marks) := v.adopt e.marks
  { e.set name v with marks }

/-- Every visible name once, in ascending order. -/
def names (e : Env) : List String :=
  ((e.scopes.flatMap fun s => s.map (·.1)).eraseDups).mergeSort fun a b => decide (a ≤ b)

end Env

end TextScript
