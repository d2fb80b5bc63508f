/-
TextScript/Value/Basic.lean

Values. The language itself computes with nothing, truth values, 64-bit integers, texts, ranges and
lists. The embedding program may bind values of its own beside them: host strings and numbers,
collections, pairs, objects that know their own text, and things without any text.
-/
import TextScript.Text.Range

namespace TextScript

/-- An object of the embedding program: the name of its kind, the text it gives for itself or why it
refuses one, and how it shows inside other values. -/
structure HostObject where
  kind : String
  ownText : Except String Text
  shown : String

/-- A value of the language or of the embedding program. -/
inductive Value where
  | nil
  | bool (b : Bool)
  | int (n : Int64)
  | text (t : Text)
  | range (r : Range)
  | list (items : List Value)
  /-- A host string. -/
  | string (s : String)
  /-- A host integer of machine width. -/
  | number (n : Int64)
  /-- A host integer of half that width. -/
  | short (n : Int32)
  | float (x : Float)
  /-- A host list of strings. -/
  | strings (items : List String)
  /-- A host list of machine integers. -/
  | numbers (items : List Int64)
  /-- A host array of exactly two machine integers. -/
  | couple (first second : Int64)
  /-- A host mapping from strings, in ascending order of its keys. -/
  | record (fields : List (String × Value))
  /-- A host mapping from machine integers, in ascending order of its keys. -/
  | table (rows : List (Int64 × Value))
  | pair (first second : Value)
  /-- A reference to a pair. -/
  | pairRef (first second : Value)
  /-- A reference to a text, or to nothing. -/
  | textRef (t : Option Text)
  /-- A host error. -/
  | error (message : String)
  | object (o : HostObject)
  /-- A host list that enumerates itself on demand. -/
  | lazy (items : List Value)
  /-- An enumeration without any text. -/
  | stream (items : List Value)
  | function
  | channel
  /-- A host structure of one number. -/
  | cell (n : Int64)
  /-- A collection or reference that would differ even from itself by what it holds. The mark tells
  which one it is. -/
  | marked (mark : Nat) (v : Value)

instance : Inhabited Value := ⟨.nil⟩

namespace Value

/-- The name of a value's kind, as messages show it. -/
def kind : Value → String
  | nil => "nil"
  | bool _ => "bool"
  | int _ => "int64"
  | text _ => "Text"
  | range _ => "text.Range"
  | list _ => "[]interface \x7b\x7d"
  | string _ => "string"
  | number _ => "int"
  | short _ => "int32"
  | float _ => "float64"
  | strings _ => "[]string"
  | numbers _ => "[]int"
  | couple _ _ => "[2]int"
  | record _ => "map[string]interface \x7b\x7d"
  | table _ => "map[int]interface \x7b\x7d"
  | pair _ _ => "Pair"
  | pairRef _ _ => "Pair"
  | textRef _ => "Text"
  | error _ => "errors.errorString"
  | object o => o.kind
  | lazy _ => "Lazy"
  | stream _ => "iter.Seq[interface \x7b\x7d]"
  | function => "func()"
  | channel => "chan int"
  | cell _ => "struct \x7b A int \x7d"
  | marked _ v => v.kind

/-- A value without its mark. -/
def unmarked : Value → Value
  | marked _ v => v
  | v => v

/-- Whether a value counts as true: all but nothing and false do. -/
def truthy : Value → Bool
  | nil => false
  | bool b => b
  | _ => true

/-- Entries in ascending order of their keys, the last of those with one key. -/
def sortEntries {κ : Type} [DecidableEq κ] (le : κ → κ → Bool) (entries : List (κ × Value)) :
    List (κ × Value) :=
  let latest := entries.foldr (fun e kept => if kept.any (·.1 = e.1) then kept else e :: kept) []
  latest.mergeSort fun a b => le a.1 b.1

/-- The mapping of some entries with string keys. -/
def ofFields (fields : List (String × Value)) : Value :=
  record (sortEntries (fun a b => decide (a ≤ b)) fields)

/-- The mapping of some entries with integer keys. -/
def ofRows (rows : List (Int64 × Value)) : Value :=
  table (sortEntries (fun a b => decide (a ≤ b)) rows)

/-! ### Equality

Two values are the same if they are of one kind and have the same contents. A number that is not a
number differs from itself, and functions and enumerations differ from everything, so a collection
that holds one of them has no contents to compare: it is the same as itself only, which its mark
decides. -/

mutual

/-- Whether two values have the same kind and contents. -/
def same : Value → Value → Bool
  | nil, nil => true
  | bool a, bool b => a == b
  | int a, int b => a == b
  | text a, text b => a.equals b
  | range a, range b => a == b
  | list as, list bs => sameAll as bs
  | string a, string b => a == b
  | number a, number b => a == b
  | short a, short b => a == b
  | float a, float b => a == b
  | strings a, strings b => a == b
  | numbers a, numbers b => a == b
  | couple a b, couple c d => a == c && b == d
  | record as, record bs => sameFields as bs
  | table as, table bs => sameRows as bs
  | pair a b, pair c d => same a c && same b d
  | pairRef a b, pairRef c d => same a c && same b d
  | textRef a, textRef b => a == b
  | error a, error b => a == b
  | object a, object b =>
    a.kind == b.kind && a.shown == b.shown &&
      match a.ownText, b.ownText with
      | .ok t, .ok u => t.equals u
      | .error m, .error n => m == n
      | _, _ => false
  | lazy as, lazy bs => sameAll as bs
  | channel, channel => true
  | cell a, cell b => a == b
  | marked i _, marked j _ => i == j
  | _, _ => false

/-- Whether two lists have the same values in the same places. -/
def sameAll : List Value → List Value → Bool
  | [], [] => true
  | a :: as, b :: bs => same a b && sameAll as bs
  | _, _ => false

/-- Whether two lists of entries have the same keys with the same values. -/
def sameFields : List (String × Value) → List (String × Value) → Bool
  | [], [] => true
  | (k, a) :: as, (l, b) :: bs => k == l && same a b && sameFields as bs
  | _, _ => false

/-- Whether two lists of entries have the same keys with the same values. -/
def sameRows : List (Int64 × Value) → List (Int64 × Value) → Bool
  | [], [] => true
  | (k, a) :: as, (l, b) :: bs => k == l && same a b && sameRows as bs
  | _, _ => false

end

/-! ### Marks

A new collection is marked if its contents do not make it the same as itself. Marks are numbers,
given out in order; `next` is the first that is free. A pair that is not a reference is nothing
but its two halves and takes no mark. -/

/-- Whether a value is a collection or reference that can be told apart from its equals. -/
def takesMark : Value → Bool
  | list _ | lazy _ | record _ | table _ | pairRef _ _ => true
  | _ => false

/-- Marks a collection if it needs a mark and has none, and tells which mark is free then. What it
holds has been seen to before. -/
def settle (next : Nat) (v : Value) : Value × Nat :=
  if v.takesMark && !v.same v then (marked next v, next + 1) else (v, next)

mutual

/-- Marks a value that comes from outside, and all that it holds, where a mark is needed. -/
def adopt (next : Nat) : Value → Value × Nat
  | list items =>
    let (items, next) := adoptAll next items
    settle next (list items)
  | lazy items =>
    let (items, next) := adoptAll next items
    settle next (lazy items)
  | record fields =>
    let (fields, next) := adoptFields next fields
    settle next (record fields)
  | table rows =>
    let (rows, next) := adoptRows next rows
    settle next (table rows)
  | pair a b =>
    let (a, next) := adopt next a
    let (b, next) := adopt next b
    (pair a b, next)
  | pairRef a b =>
    let (a, next) := adopt next a
    let (b, next) := adopt next b
    settle next (pairRef a b)
  | v => (v, next)

/-- Marks the members of a list where a mark is needed. -/
def adoptAll (next : Nat) : List Value → List Value × Nat
  | [] => ([], next)
  | v :: vs =>
    let (v, next) := adopt next v
    let (vs, next) := adoptAll next vs
    (v :: vs, next)

/-- Marks the values of a mapping from strings where a mark is needed. -/
def adoptFields (next : Nat) : List (String × Value) → List (String × Value) × Nat
  | [] => ([], next)
  | (k, v) :: rest =>
    let (v, next) := adopt next v
    let (rest, next) := adoptFields next rest
    ((k, v) :: rest, next)

/-- Marks the values of a mapping from integers where a mark is needed. -/
def adoptRows (next : Nat) : List (Int64 × Value) → List (Int64 × Value) × Nat
  | [] => ([], next)
  | (k, v) :: rest =>
    let (v, next) := adopt next v
    let (rest, next) := adoptRows next rest
    ((k, v) :: rest, next)

end

@[simp] theorem same_marked (i j : Nat) (v w : Value) :
    (marked i v).same (marked j w) = (i == j) := by
  simp [same]

/-- A value that is the same as itself needs no mark. -/
theorem settle_of_same {v : Value} (next : Nat) (h : v.same v = true) :
    settle next v = (v, next) := by
  simp [settle, h]

/-- A settled collection is the same as itself. -/
theorem same_settle {v : Value} (next : Nat) (h : v.takesMark = true) :
    (settle next v).1.same (settle next v).1 = true := by
  unfold settle
  split <;> simp_all

end Value

end TextScript
