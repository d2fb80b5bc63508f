/-
TextScript/Value/Capability.lean

What the language asks of values: their text, their members, and the two halves of a pair. An
embedding program may supply its own answers; `native` is the set that knows every kind of value.

A mapping has its entries as members, as pairs in ascending order of the texts of their keys. In
which order a runtime comes upon the entries, and how it sorts them, is open: `sequenceIn` has the
members for any way to do both, `toSequence` those for one of them.
-/
import TextScript.Value.Shown

namespace TextScript

/-- Conversions of values, each of which may fail. Splitting into a pair need not be offered. -/
structure Capabilities where
  toText : Value → Except Failure Text
  toSequence : Value → Except Failure (List Value)
  toPair? : Option (Value → Except Failure (Value × Value))

namespace Value

/-- The failure of a value without members. -/
def notEnumerable (v : Value) : Failure :=
  .make .notEnumerable (some [("Got", .text v.kind)])

/-- The failure of a value without two halves. -/
def notAPair (v : Value) : Failure :=
  .make .notAPair (some [("Got", .text v.kind)])

/-- Whether the text of one entry's key comes no later than that of another. -/
def keyTextLe (a b : Value × Value) : Bool :=
  decide (a.1.someText ≤ b.1.someText)

/-- How a runtime goes through the entries of a mapping: the order in which it comes upon them,
and how it sorts them by the texts of their keys. -/
structure Walk where
  visit : List (Value × Value) → List (Value × Value) := id
  sort : List (Value × Value) → List (Value × Value) := fun entries => entries.mergeSort keyTextLe

/-- The members of a mapping with some entries. -/
def Walk.pairs (w : Walk) (entries : List (Value × Value)) : List Value :=
  (w.sort (w.visit entries)).map fun (a, b) => pair a b

/-- The members of a value. -/
def sequenceIn (w : Walk) (v : Value) : Except Failure (List Value) :=
  match v.unmarked with
  | list items => .ok items
  | lazy items => .ok items
  | stream items => .ok items
  | strings items => .ok (items.map string)
  | numbers items => .ok (items.map number)
  | couple a b => .ok [number a, number b]
  | record fields => .ok (w.pairs (fields.map fun (k, v) => (string k, v)))
  | table rows => .ok (w.pairs (rows.map fun (k, v) => (number k, v)))
  | v => .error v.notEnumerable

/-- The members of a value, those of a mapping sorted as they are stored. -/
def toSequence (v : Value) : Except Failure (List Value) :=
  v.sequenceIn {}

/-- The two halves of a pair or of a sequence of two. -/
def halvesIn (w : Walk) (v : Value) : Except Failure (Value × Value) :=
  match v.unmarked with
  | pair a b => .ok (a, b)
  | pairRef a b => .ok (a, b)
  | v =>
    match v.sequenceIn w with
    | .ok [a, b] => .ok (a, b)
    | _ => .error v.notAPair

/-- The two halves of a value, those of a mapping of two entries sorted as they are stored. -/
def toPair (v : Value) : Except Failure (Value × Value) :=
  v.halvesIn {}

end Value

/-- The conversions that know every kind of value, for one way to go through mappings. -/
def Capabilities.nativeIn (w : Value.Walk) : Capabilities :=
  { toText := Value.toText
    toSequence := Value.sequenceIn w
    toPair? := some (Value.halvesIn w) }

/-- The conversions that know every kind of value. -/
def Capabilities.native : Capabilities :=
  { toText := Value.toText
    toSequence := Value.toSequence
    toPair? := some Value.toPair }

instance : Inhabited Capabilities := ⟨.native⟩

namespace Capabilities

/-- The text of a value, a failure counting as a failure to convert. -/
def textOf (caps : Capabilities) (v : Value) : Except Failure Text :=
  (caps.toText v).mapError fun f => f.ensure .stringify [("Got", .text v.kind)]

/-- The members of a value, a failure counting as a failure to enumerate. -/
def membersOf (caps : Capabilities) (v : Value) : Except Failure (List Value) :=
  (caps.toSequence v).mapError fun f => f.ensure .notEnumerable [("Got", .text v.kind)]

/-- The two halves of a value, a failure counting as a failure to split. -/
def halvesOf (caps : Capabilities) (v : Value) : Except Failure (Value × Value) :=
  match caps.toPair? with
  | none => .error v.notAPair
  | some toPair => (toPair v).mapError fun f => f.ensure .notAPair [("Got", .text v.kind)]

/-- The texts of some values, one after another. -/
def concatenate (caps : Capabilities) (parts : List Value) : Except Failure Text :=
  (parts.mapM caps.textOf).map Text.concat

/-! ### What the conversions come to -/

section Conversions

variable {caps : Capabilities} {v : Value} {own : Failure}

theorem textOf_ok {t : Text} (h : caps.toText v = .ok t) : caps.textOf v = .ok t := by
  rw [textOf, h]
  rfl

theorem textOf_error (h : caps.toText v = .error own) :
    caps.textOf v = .error (own.ensure .stringify [("Got", .text v.kind)]) := by
  rw [textOf, h]
  rfl

theorem membersOf_ok {members : List Value} (h : caps.toSequence v = .ok members) :
    caps.membersOf v = .ok members := by
  rw [membersOf, h]
  rfl

theorem membersOf_error (h : caps.toSequence v = .error own) :
    caps.membersOf v = .error (own.ensure .notEnumerable [("Got", .text v.kind)]) := by
  rw [membersOf, h]
  rfl

theorem halvesOf_ok {toPair : Value → Except Failure (Value × Value)} {halves : Value × Value}
    (hpair : caps.toPair? = some toPair) (h : toPair v = .ok halves) :
    caps.halvesOf v = .ok halves := by
  rw [halvesOf, hpair]
  show (toPair v).mapError _ = _
  rw [h]
  rfl

theorem halvesOf_error {toPair : Value → Except Failure (Value × Value)}
    (hpair : caps.toPair? = some toPair) (h : toPair v = .error own) :
    caps.halvesOf v = .error (own.ensure .notAPair [("Got", .text v.kind)]) := by
  rw [halvesOf, hpair]
  show (toPair v).mapError _ = _
  rw [h]
  rfl

theorem halvesOf_none (h : caps.toPair? = none) : caps.halvesOf v = .error v.notAPair := by
  rw [halvesOf, h]

end Conversions

end Capabilities

end TextScript
