/-
TextScript/Providers/HostCode/Run.lean

Running host code. Names that are not bound are nothing; arithmetic on integers wraps at 64 bits, a
quotient is always a floating-point number, and an operation on the wrong kinds of value fails. The
engine at the end is what a session is given.
-/
import TextScript.HostEngine
import TextScript.Providers.HostCode.Typing
import TextScript.Text.Case
import TextScript.Value.Shown

namespace TextScript.HostCode

/-- A number of the host language. -/
inductive Num where
  | int (n : Int64)
  | float (x : Float)

/-- The number that a value is, if it is one. -/
def num? : Value → Option Num
  | .int n => some (.int n)
  | .number n => some (.int n)
  | .short n => some (.int n.toInt64)
  | .float x => some (.float x)
  | _ => none

/-- A number as a floating-point number. -/
def Num.toFloat : Num → Float
  | .int n => Float.ofInt n.toInt
  | .float x => x

/-- The failure of an operation on the wrong kinds of value. -/
def mismatch {α : Type} : Except Failure α :=
  .error (.plain "invalid operation")

/-- Applies one of two operations to two numbers: exact if both are integers. -/
def arithmetic (onInts : Int64 → Int64 → Int64) (onFloats : Float → Float → Float) (l r : Value) :
    Except Failure Value :=
  match num? l, num? r with
  | some (.int a), some (.int b) => .ok (.number (onInts a b))
  | some a, some b => .ok (.float (onFloats a.toFloat b.toFloat))
  | _, _ => mismatch

/-- The order of two numbers or of two strings, as two tests: less and greater. -/
def order (l r : Value) : Except Failure (Bool × Bool) :=
  match l, r with
  | .string a, .string b => .ok (decide (a < b), decide (b < a))
  | l, r =>
    match num? l, num? r with
    | some (.int a), some (.int b) => .ok (decide (a < b), decide (b < a))
    | some a, some b => .ok (a.toFloat < b.toFloat, b.toFloat < a.toFloat)
    | _, _ => mismatch

/-- Whether a value is nothing, or refers to nothing. -/
def isAbsent : Value → Bool
  | .nil => true
  | .textRef none => true
  | .channel => true
  | _ => false

/-- Whether two values are equal as wholes; numbers are compared by value. -/
def equalWhole (l r : Value) : Bool :=
  match num? l, num? r with
  | some (.int a), some (.int b) => a == b
  | some a, some b => a.toFloat == b.toFloat
  | _, _ => (isAbsent l && isAbsent r) || l.same r

/-- The members of a list of any values. -/
def mixed? (v : Value) : Option (List Value) :=
  match v.unmarked with
  | .list items => some items
  | _ => none

/-- The members of a list, whose members may all be of one kind. -/
def members? (v : Value) : Option (List Value) :=
  match v.unmarked with
  | .list items => some items
  | .strings items => some (items.map .string)
  | .numbers items => some (items.map .number)
  | _ => none

/-- Whether two lists have the same length and related values in the same places. -/
def agree (related : Value → Value → Bool) (as bs : List Value) : Bool :=
  as.length == bs.length && (as.zip bs).all fun (a, b) => related a b

mutual

/-- Whether two values are equal. A list of any values is compared member by member. -/
def equal : Value → Value → Bool
  | .list as, r => equalMembers as (members? r)
  | .marked _ (.list as), r => equalMembers as (members? r)
  | l, r =>
    match members? l, mixed? r with
    | some as, some bs => agree equalWhole as bs
    | _, _ => equalWhole l r

/-- Whether there is a list with equal values in the same places. -/
def equalMembers : List Value → Option (List Value) → Bool
  | [], some [] => true
  | a :: as, some (b :: bs) => equal a b && equalMembers as (some bs)
  | _, _ => false

end

/-- Whether two values are equal when both were known to be of one type. Integers and strings that
are known beforehand are taken as such, and a value of another kind fails. -/
def equalAs (t : Option Ty) (l r : Value) : Except Failure Bool :=
  match t, l, r with
  | some .int, .number a, .number b => .ok (a == b)
  | some .int, _, _ => mismatch
  | some .string, .string a, .string b => .ok (a == b)
  | some .string, _, _ => mismatch
  | _, l, r => .ok (equal l r)

/-- The truth value that a value is. -/
def asBool : Value → Except Failure Bool
  | .bool b => .ok b
  | _ => mismatch

/-- Applies an operator to two values, whose common type is `t` if it was known beforehand. -/
def Op.apply (op : Op) (t : Option Ty) (l r : Value) : Except Failure Value :=
  match op with
  | .or => do return .bool ((← asBool l) || (← asBool r))
  | .and => do return .bool ((← asBool l) && (← asBool r))
  | .eq => do return .bool (← equalAs t l r)
  | .ne => do return .bool (!(← equalAs t l r))
  | .lt => do return .bool (← order l r).1
  | .gt => do return .bool (← order l r).2
  | .le => do
    let (less, greater) ← order l r
    return .bool (less || (!greater && equal l r))
  | .ge => do
    let (less, greater) ← order l r
    return .bool (greater || (!less && equal l r))
  | .add =>
    match l, r with
    | .string a, .string b => .ok (.string (a ++ b))
    | l, r => arithmetic (· + ·) (· + ·) l r
  | .sub => arithmetic (· - ·) (· - ·) l r
  | .mul => arithmetic (· * ·) (· * ·) l r
  | .div =>
    match num? l, num? r with
    | some a, some b => .ok (.float (a.toFloat / b.toFloat))
    | _, _ => mismatch
  | .rem =>
    match num? l, num? r with
    | some (.int a), some (.int b) => if b = 0 then mismatch else .ok (.number (a % b))
    | _, _ => mismatch

/-- A number as a position. -/
def Num.position : Num → Int64
  | .int n => n
  | .float x => x.toInt64

/-- The member of a list, string or mapping. A negative index counts from the end; a string has its
bytes as members; nothing stands for the empty key. -/
def fetch (v i : Value) : Except Failure Value :=
  let member (items : List Value) : Except Failure Value :=
    match (num? i).bind fun n => Range.pick? n.position items with
    | some v => .ok v
    | none => mismatch
  match v.unmarked, i with
  | .list items, _ => member items
  | .lazy items, _ => member items
  | .strings items, _ => member (items.map .string)
  | .numbers items, _ => member (items.map .number)
  | .couple a b, _ => member [.number a, .number b]
  | .string s, _ => member (s.toUTF8.toList.map fun b => .short (Int32.ofNat b.toNat))
  | .record fields, .string k => .ok ((fields.lookup k).getD .nil)
  | .record fields, .nil => .ok ((fields.lookup "").getD .nil)
  | .table rows, .number k => .ok ((rows.lookup k).getD .nil)
  | .table rows, .nil => .ok ((rows.lookup 0).getD .nil)
  | _, _ => mismatch

/-- How many members a value has, characters of a string included. -/
def size? (v : Value) : Option Nat :=
  match v.unmarked with
  | .string s => some s.length
  | .list items => some items.length
  | .lazy items => some items.length
  | .strings items => some items.length
  | .numbers items => some items.length
  | .couple _ _ => some 2
  | .record fields => some fields.length
  | .table rows => some rows.length
  | _ => none

/-- The integer that a string writes. -/
def readInt (s : String) : Except Failure Value :=
  match (Numeral.integer? s.toList).bind Numeral.word? with
  | some n => .ok (.number n)
  | none => mismatch

/-- Calls a function of the host language. -/
def call (f : String) (args : List Value) : Except Failure Value :=
  match f, args with
  | "upper", [.string s] => .ok (.string (Text.upperSimple s))
  | "lower", [.string s] => .ok (.string (Text.lowerSimple s))
  | "len", [v] =>
    match size? v with
    | some n => .ok (.number (Int64.ofNat n))
    | none => mismatch
  | "int", [.string s] => readInt s
  | "int", [v] =>
    match num? v with
    | some (.int n) => .ok (.number n)
    | some (.float x) => .ok (.number x.toInt64)
    | none => mismatch
  | _, _ => mismatch

/-- The opposite of a number, of the same kind. -/
def negated : Value → Except Failure Value
  | .int n => .ok (.int (-n))
  | .number n => .ok (.number (-n))
  | .short n => .ok (.short (-n))
  | .float x => .ok (.float (-x))
  | _ => mismatch

/-- The type of two expressions, if it is known beforehand and the same for both. -/
def commonType? (declared : Declared) (l r : Term) : Option Ty :=
  match type? declared l, type? declared r with
  | some t, some u => if t = u then some t else none
  | _, _ => none

mutual

/-- Runs an expression with the bound names. A truth value written next to a connective decides it
or leaves the other side as it is; otherwise the left side must be a truth value. -/
def run (declared : Declared) (vars : Bindings) : Term → Except Failure Value
  | .nil => .ok .nil
  | .bool b => .ok (.bool b)
  | .int n => .ok (.number (Int64.ofNat n))
  | .string s => .ok (.string s)
  | .name s => .ok ((vars.lookup s).getD .nil)
  | .negate e => do negated (← run declared vars e)
  | .not e => do return .bool (!(← asBool (← run declared vars e)))
  | .binary .or (.bool false) r => run declared vars r
  | .binary .or l (.bool false) => run declared vars l
  | .binary .or (.bool true) _ => .ok (.bool true)
  | .binary .or _ (.bool true) => .ok (.bool true)
  | .binary .or l r => do
    if ← asBool (← run declared vars l) then return .bool true else run declared vars r
  | .binary .and (.bool true) r => run declared vars r
  | .binary .and l (.bool true) => run declared vars l
  | .binary .and (.bool false) _ => .ok (.bool false)
  | .binary .and _ (.bool false) => .ok (.bool false)
  | .binary .and l r => do
    if ← asBool (← run declared vars l) then run declared vars r else return .bool false
  | .binary op l r => do
    let a ← run declared vars l
    let b ← run declared vars r
    op.apply (commonType? declared l r) a b
  | .choose c a b => do
    if ← asBool (← run declared vars c) then run declared vars a else run declared vars b
  | .list items => do return .list (← runAll declared vars items)
  | .index e i => do
    let v ← run declared vars e
    let k ← run declared vars i
    fetch v k
  | .call f args => do call f (← runAll declared vars args)

/-- Runs expressions in order. -/
def runAll (declared : Declared) (vars : Bindings) : List Term → Except Failure (List Value)
  | [] => .ok []
  | e :: es => do
    let v ← run declared vars e
    let vs ← runAll declared vars es
    return v :: vs

end

/-- Compiles code, if it can be read and need not fail. -/
def compile? (declared : Declared) (code : String) : Option (Bindings → Except Failure Value) := do
  let e ← parse? code
  let _ ← type? declared e
  return fun vars => run declared vars e

/-- The engine that runs this language. -/
def engine (declared : Declared) : HostEngine where
  compile code :=
    match compile? declared code with
    | some run => .ok run
    | none => .error (.plain "invalid expression")

end TextScript.HostCode
