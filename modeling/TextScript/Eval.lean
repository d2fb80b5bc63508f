/-
TextScript/Eval.lean

Evaluation. An expression is evaluated in a chain of scopes; it yields a value or a failure, and in
either case leaves the scopes as they were after the last assignment that took place.

A failure that has no place yet is placed at the token of the node where it arose. Messages to texts
go through the table of text methods; other values know only equality and their own text.
-/
import TextScript.HostBoundary
import TextScript.Method.Texts

namespace TextScript

/-- What evaluation draws on: the conversions for interpolated values, and the engine for
templates. -/
structure Services where
  caps : Capabilities := .native
  formatter : Engine := {}
  casing : Casing := .simple

instance : Inhabited Services := ⟨{}⟩

/-- What evaluation changes: the scopes, and the events so far. -/
structure EvalState where
  env : Env := {}
  events : List Event := []

instance : Inhabited EvalState := ⟨{}⟩

/-- A step of evaluation. -/
def Action (α : Type) := EvalState → Except Failure α × EvalState

namespace Action

variable {α β : Type}

/-- One step after another; a failure keeps what happened before it. -/
def andThen (x : Action α) (f : α → Action β) : Action β := fun s =>
  match x s with
  | (.error e, s) => (.error e, s)
  | (.ok a, s) => f a s

instance : Monad Action where
  pure a := fun s => (.ok a, s)
  bind := andThen

/-- A failure. -/
def fail (f : Failure) : Action α :=
  fun s => (.error f, s)

/-- A result or a failure. -/
def lift (r : Except Failure α) : Action α :=
  fun s => (r, s)

/-- A traced computation, whose events are kept. -/
def ofTraced (t : Traced α) : Action α :=
  fun s => (t.result, { s with events := s.events ++ t.events })

/-- The scopes. -/
def env : Action Env :=
  fun s => (.ok s.env, s)

/-- Binds a name in the innermost scope. -/
def bindName (name : String) (v : Value) : Action Value :=
  fun s => (.ok v, { s with env := s.env.set name v })

/-- A new collection, marked if it needs a mark. -/
def settle (v : Value) : Action Value := fun s =>
  let (v, marks) := v.settle s.env.marks
  (.ok v, { s with env.marks := marks })

/-- A value from outside, with all that it holds marked where a mark is needed. -/
def adopt (v : Value) : Action Value := fun s =>
  let (v, marks) := v.adopt s.env.marks
  (.ok v, { s with env.marks := marks })

/-- Gives a place to a failure that has none. -/
def placedAt (x : Action α) (tok : Token) : Action α := fun s =>
  match x s with
  | (.error f, s) => (.error (f.placeAt tok.place), s)
  | r => r

end Action

namespace Eval

/-- The order of two integers: -1, 0 or 1. -/
def compareInts (a b : Int64) : Int :=
  if a < b then -1 else if b < a then 1 else 0

/-- Whether a comparison result satisfies an order operator. -/
def ordered (op : BinaryOp) (c : Int) : Bool :=
  match op with
  | .lt => c < 0
  | .gt => 0 < c
  | .lte => c ≤ 0
  | _ => 0 ≤ c

/-- Joins the texts of some values. -/
def concatenate (sv : Services) (parts : List Value) : Action Value :=
  .lift ((sv.caps.concatenate parts).map .text)

/-- Sends a message to a value. -/
def send (sv : Services) (recv : Value) (name : String) (args : List Value) : Action Value :=
  match recv with
  | .text t => .ofTraced (TextMethods.send sv.casing sv.formatter t name args)
  | recv =>
    match name, args with
    | "asText", [] => .lift ((sv.caps.toText recv).map .text)
    | "==", [v] => pure (.bool (recv.same v))
    | "!=", [v] => pure (.bool (!recv.same v))
    | _, _ => .fail (.unknownMethod name recv.kind ["asText", "==", "!="])

/-- Applies an operator to one value. -/
def unary (op : UnaryOp) (v : Value) : Except Failure Value :=
  match op, v with
  | .not, v => .ok (.bool !v.truthy)
  | .negate, .int n => .ok (.int (-n))
  | .negate, v => .error (.argumentType "-" "an integer" v.kind)
  | .other s, v => .error (.unknownMethod s v.kind [])

/-- Applies an operator to two integers. -/
def integers (op : BinaryOp) (l r : Int64) : Except Failure Value :=
  match op with
  | .add => .ok (.int (l + r))
  | .sub => .ok (.int (l - r))
  | .mul => .ok (.int (l * r))
  | .div => if r = 0 then .error (.simple .type "division by zero") else .ok (.int (l / r))
  | .rem => if r = 0 then .error (.simple .type "division by zero") else .ok (.int (l % r))
  | .spaceship => .ok (.int (Int64.ofInt (compareInts l r)))
  | .lt | .gt | .lte | .gte => .ok (.bool (ordered op (compareInts l r)))
  | .range => .ok (.range ⟨l, r, false⟩)
  | .xrange => .ok (.range ⟨l, r, true⟩)
  | op => .error (.unknownMethod op.symbol "Integer" [])

/-- Applies an operator to a text and another value. -/
def textWith (sv : Services) (op : BinaryOp) (t : Text) (v : Value) : Traced Value :=
  match op with
  | .eq | .notEq | .spaceship => TextMethods.send sv.casing sv.formatter t op.symbol [v]
  | .lt | .gt | .lte | .gte =>
    match v with
    | .text u => .ok (.bool (ordered op (t.compare u)))
    | v => .fail (.argumentType op.symbol "a text" v.kind)
  | op => .fail (.unknownMethod op.symbol "Text" (TextMethods.table sv.casing).names)

/-- Applies an operator to two values. -/
def binary (sv : Services) (op : BinaryOp) (l r : Value) : Traced Value :=
  match op, l, r with
  | op, .text t, r => textWith sv op t r
  | .eq, l, r => .ok (.bool (l.same r))
  | .notEq, l, r => .ok (.bool (!l.same r))
  | op, .int a, .int b => .lift (integers op a b)
  | op, .int _, r => .fail (.argumentType op.symbol "an integer" r.kind)
  | op, l, _ => .fail (.argumentType op.symbol "an integer" l.kind)

/-- Indexes a value. -/
def indexBy (sv : Services) (target position : Value) : Traced Value :=
  match target.unmarked, position with
  | .text t, i => TextMethods.send sv.casing sv.formatter t "[]" [i]
  | .list items, .int i => .ok ((Range.pick? i items).getD .nil)
  | .list items, .range r => .ok (.list (r.select items))
  | .list _, i => .fail (.argumentType "[]" "an integer or a range" i.kind)
  | v, _ => .fail (.unknownMethod "[]" v.kind [])

/-- Looks a name up. A bound name takes no arguments. -/
def lookUp (name : String) (argCount : Nat) : Action Value := do
  let env ← Action.env
  match env.get? name with
  | none => .fail (.undefinedName name env.names)
  | some v =>
    if 0 < argCount then
      .fail (.make .arity (some
        [("Function", .text name), ("Got", .number argCount), ("Want", .text "0")]))
    else return v

/-- Runs host code with the visible names. -/
def runHost (source : String) (run : Bindings → Except Failure Value) : Action Value := do
  let env ← Action.env
  match run env.hostBindings with
  | .ok v => .adopt v.fromHost
  | .error f => .fail (.wrap .hostExpression f (some [("Source", .text (Text.trimString source))]))

mutual

/-- Evaluates an expression. -/
def eval (sv : Services) : Expr → Action Value
  | .int _ n => pure (.int n)
  | .text _ t => pure (.text t)
  | .concat tok parts => do
    let vs ← evalAll sv parts
    (concatenate sv vs).placedAt tok
  | .list _ items => do
    let vs ← evalAll sv items
    .settle (.list vs)
  | .message head args =>
    if head.name = concatenateName then do
      let vs ← evalAll sv args
      (concatenate sv vs).placedAt head.tok
    else (lookUp head.name args.length).placedAt head.tok
  | .send _ receiver head args => do
    let recv ← eval sv receiver
    let vs ← evalAll sv args
    (send sv recv head.name vs).placedAt head.tok
  | .unary tok op operand => do
    let v ← eval sv operand
    (Action.lift (unary op v)).placedAt tok
  | .binary tok left .assign right =>
    match left with
    | .message head _ => do
      let v ← eval sv right
      .bindName head.name v
    | _ =>
      (Action.fail (.make .unexpectedToken (some [("Token", .text "assignment target")]))).placedAt
        tok
  | .binary _ left .and right => do
    let l ← eval sv left
    if l.truthy then eval sv right else return l
  | .binary _ left .or right => do
    let l ← eval sv left
    if l.truthy then return l else eval sv right
  | .binary tok left op right => do
    let l ← eval sv left
    let r ← eval sv right
    (Action.ofTraced (binary sv op l r)).placedAt tok
  | .host tok source run => (runHost source run).placedAt tok
  | .index tok target position => do
    let t ← eval sv target
    let i ← eval sv position
    let v ← (Action.ofTraced (indexBy sv t i)).placedAt tok
    .settle v
  | .foreign _ => .fail (.simple .type "cannot evaluate node")

/-- Evaluates expressions in order. -/
def evalAll (sv : Services) : List Expr → Action (List Value)
  | [] => pure []
  | e :: es => do
    let v ← eval sv e
    let vs ← evalAll sv es
    return v :: vs

end

/-- Reports the failure of an expression. -/
def reporting (e : Expr) (x : Action Value) : Action Value := fun s =>
  match x s with
  | (.error f, s) =>
    (.error f, { s with events := s.events ++ [.evaluationFailed e.render f.render] })
  | r => r

/-- Evaluates the rest of a program, given the value so far. -/
def evalFrom (sv : Services) (last : Value) : Program → Action Value
  | [] => pure last
  | e :: es => do
    let v ← reporting e (eval sv e)
    evalFrom sv v es

/-- Evaluates a program: its expressions in order, the value being that of the last one. -/
def evalProgram (sv : Services) (p : Program) : Action Value :=
  evalFrom sv .nil p

end Eval

end TextScript
